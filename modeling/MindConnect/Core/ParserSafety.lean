import MindConnect.Core.StringPasses

/-!
# The parser of cJSON is safe

Two things carry the induction on the fuel: the offset only grows (`Behind`), so that three calls for each byte are
enough, and what is allocated is what the items so far have in them (`blocks`), so that the lists deleted on the way out
are all there is.
-/

namespace MindConnect.CjsonParse

open JsonBuilder CjsonPrint Fallible
open Arena (allocate release update)

variable {F : Type} {content : Bytes} {toDouble : Bytes → F} {m : Memory}

/-! ## Blocks -/

/-- The blocks of a tree: its items, their strings and their names. -/
def blocks : Cjson F → Nat :=
  Rose.fold fun l cs => cs.sum + (if hasValuestring l.type then 1 else 0) + (if l.name.isSome then 1 else 0) + 1

/-- The blocks of a list of items. -/
def blocksOf (cs : List (Cjson F)) : Nat := (cs.map blocks).sum

theorem blocks_node (l : Label F) (cs : List (Cjson F)) :
    blocks (.node l cs) =
      blocksOf cs + (if hasValuestring l.type then 1 else 0) + (if l.name.isSome then 1 else 0) + 1 := by
  rw [blocks, Rose.fold_eq]
  rfl

@[simp] theorem blocksOf_nil : blocksOf ([] : List (Cjson F)) = 0 := rfl

@[simp] theorem blocksOf_cons (c : Cjson F) (cs : List (Cjson F)) : blocksOf (c :: cs) = blocks c + blocksOf cs := by
  rw [blocksOf, List.map_cons, List.sum_cons]
  rfl

@[simp] theorem blocksOf_append (cs ds : List (Cjson F)) : blocksOf (cs ++ ds) = blocksOf cs + blocksOf ds := by
  rw [blocksOf, List.map_append, List.sum_append]
  rfl

/-- The arena behind `n` calls of `MCL_FREE`. -/
def freed (n : Nat) (s : Arena ParseBuffer) : Arena ParseBuffer := { s with live := s.live - n }

theorem release_eq {n : Nat} {s : Arena ParseBuffer} (h : n ≤ s.live) : release n s = some (some (), freed n s) :=
  if_pos h

mutual

/-- What is deleted is what the item has in it. -/
theorem deleteItem_eq : ∀ (c : Cjson F) {s : Arena ParseBuffer}, blocks c ≤ s.live →
    deleteItem c s = some (some (), freed (blocks c) s)
  | .node l cs, s, h => by
    rw [blocks_node] at h ⊢
    have hchildren := deleteItems_eq cs (s := s) (by omega)
    simp only [deleteItem, bind, Fallible.bind, hchildren]
    rw [release_eq (by simp only [freed]; omega)]
    simp only []
    rw [release_eq (by simp only [freed]; omega)]
    simp only []
    rw [release_eq (by simp only [freed]; omega)]
    simp only [freed, Nat.sub_sub]

theorem deleteItems_eq : ∀ (cs : List (Cjson F)) {s : Arena ParseBuffer}, blocksOf cs ≤ s.live →
    deleteItems cs s = some (some (), freed (blocksOf cs) s)
  | [], s, _ => rfl
  | c :: cs, s, h => by
    rw [blocksOf_cons] at h ⊢
    have hhead := deleteItem_eq c (s := s) (by omega)
    have htail := deleteItems_eq cs (s := freed (blocks c) s) (by simp only [freed]; omega)
    simp only [deleteItems, bind, Fallible.bind, hhead, htail]
    simp only [freed, Nat.sub_sub]

end

theorem deleteItems_meets {cs : List (Cjson F)} {P E : Arena ParseBuffer → Prop} {Q : Unit → Arena ParseBuffer → Prop}
    (hle : ∀ s, P s → blocksOf cs ≤ s.live) (hQ : ∀ s, P s → Q () (freed (blocksOf cs) s)) :
    Meets P (deleteItems cs) Q E := by
  intro s hs
  refine ⟨some (), _, deleteItems_eq cs (hle s hs), ?_, fun h => by cases h⟩
  rintro u ⟨⟩
  exact hQ s hs

/-! ## Offsets and what is held -/

/-- What is allocated, and the offset and the depth of the buffer. -/
structure At (live offset depth : Nat) (s : Arena ParseBuffer) : Prop where
  live : s.live = live
  offset : s.data.offset = offset
  depth : s.data.depth = depth

/-- Behind the offset, in the buffer or at its end. -/
def Behind (content : Bytes) (live offset depth : Nat) (s : Arena ParseBuffer) : Prop :=
  ∃ n, offset < n ∧ n ≤ content.length ∧ At live n depth s

section
variable {live offset depth : Nat} {E : Arena ParseBuffer → Prop}

theorem get_meets : Meets (At live offset depth) get
    (fun start s => (start.data.offset = offset ∧ start.data.depth = depth) ∧ At live offset depth s) E := by
  refine Meets.get.post ?_
  rintro start s ⟨rfl, hs⟩
  exact ⟨⟨hs.offset, hs.depth⟩, hs⟩

/-- The byte at the offset is read where there is one. -/
theorem byteAtOffset_meets (h : offset < content.length) :
    Meets (At live offset depth) (byteAtOffset content) (fun b s => content[offset]? = some b ∧ At live offset depth s)
      E := by
  refine get_meets.bind fun start => Meets.assuming fun hstart => ?_
  rw [hstart.1]
  refine (Meets.accessed (List.getElem?_eq_getElem h)).post ?_
  rintro b s ⟨rfl, hs⟩
  exact ⟨List.getElem?_eq_getElem h, hs⟩

theorem move_meets {n : Nat} : Meets (At live offset depth) (setOffset n) (fun _ => At live n depth) E :=
  setOffset_meets fun _ hs => ⟨hs.live, rfl, hs.depth⟩

theorem advance_meets {n : Nat} : Meets (At live offset depth) (advance n) (fun _ => At live (offset + n) depth) E :=
  Arena.meets_update fun s hs => ⟨hs.live, by simp only [hs.offset], hs.depth⟩

theorem stepBack_meets : Meets (At live offset depth) stepBack (fun _ => At live (offset - 1) depth) E :=
  Arena.meets_update fun s hs => ⟨hs.live, by simp only [hs.offset], hs.depth⟩

/-- White space is skipped inside the buffer; at the end, one byte is stepped back. -/
theorem skipWhitespace_meets (h : offset ≤ content.length) :
    Meets (At live offset depth) (skipWhitespace content)
      (fun _ s => ∃ n, (offset ≤ n ∧ n ≤ content.length ∧ (offset < content.length → n < content.length)) ∧
        At live n depth s) E := by
  refine get_meets.bind fun start => Meets.assuming fun hstart => ?_
  rw [hstart.1]
  refine Meets.ite (fun hlt => ?_) fun hge => Meets.pure.pre fun s hs =>
    ⟨offset, ⟨Nat.le_refl _, h, fun hlt => absurd hlt hge⟩, hs⟩
  have hspace : ((content.drop offset).takeWhile (· ≤ 32)).length ≤ content.length - offset := by
    rw [← List.length_drop]
    exact (List.takeWhile_sublist _).length_le
  refine advance_meets.bind fun _ => get_meets.bind fun moved => Meets.assuming fun hmoved => ?_
  rw [hmoved.1]
  refine Meets.ite (fun hend => ?_) fun hend => Meets.pure.pre fun s hs => ⟨_, ⟨?_, ?_, fun _ => ?_⟩, hs⟩
  · exact stepBack_meets.post fun _ s hs => ⟨_, ⟨by omega, by omega, fun _ => by omega⟩, hs⟩
  · omega
  · omega
  · omega

theorem current_meets : Meets (At live offset depth) (current content)
    (fun b s => b = content[offset]? ∧ At live offset depth s) E := by
  refine get_meets.bind fun start => Meets.assuming fun hstart => ?_
  rw [hstart.1]
  exact Meets.pure.pre fun s hs => ⟨rfl, hs⟩

end

section
variable {live offset depth : Nat}

/-- A string is one block, or nothing is left of it. -/
theorem parseString_meets (h : offset < content.length) :
    Meets (At live offset depth) (parseString content m) (fun _ => Behind content (live + 1) offset depth)
      (fun s => s.live = live) := by
  refine get_meets.bind fun start => Meets.assuming fun hstart => (byteAtOffset_meets h).bind fun quote =>
    Meets.assuming fun _ => ?_
  simp only [hstart.1]
  have hmove {n : Nat} {E : Arena ParseBuffer → Prop} :
      Meets (At live offset depth) (setOffset n) (fun _ s => s.live = live) E := move_meets.post fun _ _ hs => hs.live
  cases hscan : if quote = 34 then scanString (content.drop (offset + 1)) else none with
  | none => exact hmove.bind fun _ => Meets.fail
  | some r =>
    obtain ⟨length, skipped⟩ := r
    replace hscan : scanString (content.drop (offset + 1)) = some (length, skipped) := by
      split_ifs at hscan
      exact hscan
    obtain ⟨hlength, hskipped, hlt⟩ := scanString_pairStarts _ hscan
    rw [List.length_drop] at hlt
    have hskips : skipped ≤ length := by
      rw [← hlength, ← hskipped]
      exact List.count_le_length
    have hgranted : Meets (At live offset depth) (allocate m.available) (fun _ => At (live + 1) offset depth)
        (At live offset depth) :=
      Arena.meets_allocate (fun s hs _ => ⟨by simp only [hs.live], hs.offset, hs.depth⟩)
        fun s hs _ => ⟨hs.live, hs.offset, hs.depth⟩
    refine (Meets.onFailure hgranted hmove).bind fun _ => ?_
    have hconvert := convertLoop_meets (P := At (live + 1) offset depth) (E := fun s => s.live = live + 1) hscan
      (fun s n hs => hs.live) length 0 0 (m.block start.allocations (length + 1 - skipped + 1)) (.start _) (by omega)
      (by simp only [Memory.block, List.length_map, List.length_range]; omega)
    refine (Meets.onFailure hconvert (Arena.meets_release (fun s hs => ?_) fun s hs => ?_)).bind fun r => ?_
    · rw [hs]
      exact Nat.succ_pos _
    · simp only [hs, Nat.add_sub_cancel]
    · refine Meets.assuming fun hroom => (Meets.accessed (Bytes.write_eq_some hroom)).bind fun _ =>
        Meets.assuming fun _ => move_meets.bind fun _ => Meets.pure.pre fun s hs => ⟨_, ?_, ?_, hs⟩
      · omega
      · omega

end

/-! ## Numbers -/

theorem signLength_le (s : Bytes) : signLength s ≤ s.length := by
  unfold signLength
  split <;> simp

theorem mantissaLength_le (s : Bytes) : mantissaLength s ≤ s.length := by
  have hwhole := (List.takeWhile_sublist (Scan.isDigit 10) (l := s)).length_le
  unfold mantissaLength
  simp only []
  split
  · rename_i fraction hdrop
    have hfraction := (List.takeWhile_sublist (Scan.isDigit 10) (l := fraction)).length_le
    have hlength := congrArg List.length hdrop
    rw [List.length_drop, List.length_cons] at hlength
    split_ifs <;> omega
  · exact hwhole

theorem exponentLength_le (s : Bytes) : exponentLength s ≤ s.length := by
  unfold exponentLength
  split
  · rename_i b s
    have hdigits := (List.takeWhile_sublist (Scan.isDigit 10) (l := s.drop (signLength s))).length_le
    have hsign := signLength_le s
    rw [List.length_drop] at hdigits
    simp only [List.length_cons]
    split_ifs <;> omega
  · exact Nat.le_refl _

/-- `strtod` reads no further than the copy of the number. -/
theorem strtodLength_le (s : Bytes) : strtodLength s ≤ s.length := by
  have hsign := signLength_le s
  have hmantissa := mantissaLength_le (s.drop (signLength s))
  have hexponent := exponentLength_le (s.drop (signLength s + mantissaLength (s.drop (signLength s))))
  rw [List.length_drop] at hmantissa hexponent
  unfold strtodLength
  simp only []
  split_ifs <;> omega

/-- A number takes a byte and no block. -/
theorem parseNumber_meets {live offset depth : Nat} :
    Meets (At live offset depth) (parseNumber content toDouble)
      (fun type s => (∃ d, type = .number d) ∧ Behind content live offset depth s) (fun s => s.live = live) := by
  refine get_meets.bind fun start => Meets.assuming fun hstart => ?_
  rw [hstart.1]
  have hlength : (((content.drop offset).take (numberCStringSize - 1)).takeWhile Json.isNumberByte).length ≤
      content.length - offset := by
    rw [← List.length_drop]
    exact ((List.takeWhile_sublist _).trans (List.take_sublist _ _)).length_le
  have hle := strtodLength_le (((content.drop offset).take (numberCStringSize - 1)).takeWhile Json.isNumberByte)
  refine (Meets.checked fun _ _ hs => hs.live).bind fun _ => Meets.assuming fun hne => ?_
  refine advance_meets.bind fun _ => Meets.pure.pre fun s hs => ⟨⟨_, rfl⟩, _, ?_, ?_, hs⟩
  · omega
  · omega

/-! ## Values -/

/-- Only containers have children, and only the members of an object have names. -/
def Formed (l : Label F) (children : List (Label F)) : Prop :=
  match l.type with
  | .array => ∀ c ∈ children, c.name = none
  | .object => ∀ c ∈ children, c.name.isSome
  | _ => children = []

/-- Arrays and objects. -/
def isContainer : ItemType F → Bool
  | .array => true
  | .object => true
  | _ => false

/-- How many containers are in each other. -/
def nesting : Cjson F → Nat :=
  Rose.fold fun l depths => if isContainer l.type then depths.foldr max 0 + 1 else 0

theorem nesting_node (l : Label F) (cs : List (Cjson F)) :
    nesting (.node l cs) = if isContainer l.type then (cs.map nesting).foldr max 0 + 1 else 0 := by
  rw [nesting, Rose.fold_eq]
  rfl

theorem foldr_max_le {ns : List Nat} {n : Nat} (h : ∀ k ∈ ns, k ≤ n) : ns.foldr max 0 ≤ n := by
  induction ns with
  | nil => exact Nat.zero_le n
  | cons k ns ih =>
    exact max_le (h k List.mem_cons_self) (ih fun j hj => h j (List.mem_cons_of_mem k hj))

/-- What cJSON parses within a number of containers. -/
structure WellFormed (levels : Nat) (t : Cjson F) : Prop where
  formed : t.Everywhere Formed
  nested : nesting t ≤ levels

/-- An item that is no container is well formed at every level. -/
theorem WellFormed.leaf {levels : Nat} {type : ItemType F} {name : Option CString} (h : isContainer type = false) :
    WellFormed levels (.node ⟨type, name⟩ []) := by
  refine ⟨Rose.Everywhere.leaf ?_, ?_⟩
  · cases type <;> first | rfl | cases h
  · rw [nesting_node, h]
    exact Nat.zero_le levels

/-- One level more than the items. -/
theorem WellFormed.container {levels : Nat} {type : ItemType F} {name : Option CString} {cs : List (Cjson F)}
    (htype : isContainer type = true) (hformed : Formed ⟨type, name⟩ (cs.map Rose.label))
    (h : ∀ c ∈ cs, WellFormed levels c) : WellFormed (levels + 1) (.node ⟨type, name⟩ cs) := by
  refine ⟨Rose.everywhere_iff.2 ⟨hformed, fun c hc => (h c hc).formed⟩, ?_⟩
  rw [nesting_node, if_pos htype]
  refine Nat.succ_le_succ (foldr_max_le fun k hk => ?_)
  obtain ⟨c, hc, rfl⟩ := List.mem_map.1 hk
  exact (h c hc).nested

/-- The blocks of a value, without its item. -/
def parsedBlocks (v : Parsed F) : Nat := blocksOf v.2 + if hasValuestring v.1 then 1 else 0

/-- As an item of whatever name. -/
def ParsedWell (levels : Nat) (v : Parsed F) : Prop := ∀ name, WellFormed levels (.node ⟨v.1, name⟩ v.2)

section
variable {live offset depth : Nat}

/-- `fail:` deletes the items so far and the new one. -/
theorem cleanup_meets {done : List (Cjson F)} {E : Arena ParseBuffer → Prop} :
    Meets (fun s => s.live = live + blocksOf done + 1) (do deleteItems done; release 1) (fun _ s => s.live = live)
      E := by
  refine (deleteItems_meets (Q := fun _ s => s.live = live + 1) (fun s hs => ?_) fun s hs => ?_).bind fun _ =>
    Arena.meets_release (fun s hs => ?_) fun s hs => ?_
  · omega
  · simp only [freed]
    omega
  · omega
  · simp only []
    omega

/-- `fail:` with the name of the new item. -/
theorem cleanup_named_meets {done : List (Cjson F)} {E : Arena ParseBuffer → Prop} :
    Meets (fun s => s.live = live + blocksOf done + 1 + 1) (do deleteItems done; release 1; release 1)
      (fun _ s => s.live = live) E := by
  refine (deleteItems_meets (Q := fun _ s => s.live = live + 1 + 1) (fun s hs => ?_) fun s hs => ?_).bind fun _ =>
    (Arena.meets_release (Q := fun _ s => s.live = live + 1) (fun s hs => ?_) fun s hs => ?_).bind fun _ =>
    Arena.meets_release (fun s hs => ?_) fun s hs => ?_
  · omega
  · simp only [freed]
    omega
  · omega
  · simp only []
    omega
  · omega
  · simp only []
    omega

/-- Items of a container, whose names are as they should. -/
def Items (levels : Nat) (Name : Option CString → Prop) (cs : List (Cjson F)) : Prop :=
  ∀ c ∈ cs, WellFormed levels c ∧ Name c.label.name

theorem Items.nil (levels : Nat) (Name : Option CString → Prop) : Items levels Name ([] : List (Cjson F)) :=
  fun _ hc => by cases hc

/-- One more item at the end. -/
theorem Items.append {levels : Nat} {Name : Option CString → Prop} {cs : List (Cjson F)} {c : Cjson F}
    (h : Items levels Name cs) (hc : WellFormed levels c) (hname : Name c.label.name) :
    Items levels Name (cs ++ [c]) := by
  intro d hd
  rcases List.mem_append.1 hd with hd | hd
  · exact h d hd
  · rw [List.mem_singleton.1 hd]
    exact ⟨hc, hname⟩

theorem Items.well {levels : Nat} {Name : Option CString → Prop} {cs : List (Cjson F)} (h : Items levels Name cs) :
    ∀ c ∈ cs, WellFormed levels c := fun c hc => (h c hc).1

theorem Items.names {levels : Nat} {Name : Option CString → Prop} {cs : List (Cjson F)} (h : Items levels Name cs) :
    ∀ l ∈ cs.map Rose.label, Name l.name := by
  intro l hl
  obtain ⟨c, hc, rfl⟩ := List.mem_map.1 hl
  exact (h c hc).2

/-- The new item, its name and its value, as blocks of the list. -/
theorem live_append (done : List (Cjson F)) (v : Parsed F) (name : Option CString) :
    live + blocksOf done + 1 + (if name.isSome then 1 else 0) + parsedBlocks v =
      live + blocksOf (done ++ [.node ⟨v.1, name⟩ v.2]) := by
  simp only [blocksOf_append, blocksOf_cons, blocksOf_nil, blocks_node, parsedBlocks]
  omega

/-- Without memory for an item, the items so far are deleted. -/
theorem newItem_meets {done : List (Cjson F)} :
    Meets (At (live + blocksOf done) offset depth) (onFailure (allocate m.available) (deleteItems done))
      (fun _ => At (live + blocksOf done + 1) offset depth) (fun s => s.live = live) := by
  refine Meets.onFailure (F := fun s => s.live = live + blocksOf done)
    (Arena.meets_allocate (fun s hs _ => ⟨by simp only [hs.live], hs.offset, hs.depth⟩) fun s hs _ => hs.live)
    (deleteItems_meets (fun s hs => ?_) fun s hs => ?_)
  · rw [hs]
    omega
  · simp only [freed, hs]
    omega

/-- A comma goes on with the loop; anything but the closing bracket deletes the items so far. -/
theorem parseSeparator_meets {close : UInt8} {done : List (Cjson F)} {loop : Parse (List (Cjson F))}
    {Q : List (Cjson F) → Arena ParseBuffer → Prop}
    (hloop : offset < content.length → Meets (At (live + blocksOf done) offset depth) loop Q (fun s => s.live = live))
    (hdone : offset < content.length → ∀ s, At (live + blocksOf done) offset depth s → Q done s) :
    Meets (At (live + blocksOf done) offset depth) (parseSeparator content close done loop) Q
      (fun s => s.live = live) := by
  have hfail : Meets (At (live + blocksOf done) offset depth) (do deleteItems done; fail) Q
      (fun s => s.live = live) := by
    refine (deleteItems_meets (Q := fun _ s => s.live = live) (fun s hs => ?_) fun s hs => ?_).bind fun _ => Meets.fail
    · rw [hs.live]
      omega
    · simp only [freed, hs.live]
      omega
  refine current_meets.bind fun b => Meets.assuming fun hb => ?_
  cases b with
  | none => exact hfail
  | some b =>
    have hlt : offset < content.length := (List.getElem?_eq_some_iff.1 hb.symm).1
    exact Meets.ite (fun _ => hloop hlt) fun _ => Meets.ite (fun _ => Meets.pure.pre (hdone hlt)) fun _ => hfail

/-- The colon is at the new offset. -/
theorem parseName_meets {done : List (Cjson F)} :
    Meets (At (live + blocksOf done + 1) offset depth) (parseName content m done)
      (fun _ s => ∃ n, (offset < n ∧ n < content.length) ∧ At (live + blocksOf done + 1 + 1) n depth s)
      (fun s => s.live = live) := by
  refine get_meets.bind fun start => Meets.assuming fun hstart => ?_
  rw [hstart.1]
  refine (Meets.onFailure (Meets.checked fun _ _ hs => hs.live) cleanup_meets).bind fun _ =>
    Meets.assuming fun hlt => ?_
  refine advance_meets.bind fun _ => (skipWhitespace_meets hlt.le).bind fun _ => Meets.exists_pre fun n =>
    Meets.assuming fun ⟨hn, _, hnlt⟩ => ?_
  refine (Meets.onFailure (parseString_meets (hnlt hlt)) cleanup_meets).bind fun name => Meets.exists_pre fun k =>
    Meets.assuming fun hk => Meets.assuming fun hkle => (skipWhitespace_meets hkle).bind fun _ =>
    Meets.exists_pre fun k' => Meets.assuming fun ⟨hk', _, _⟩ => current_meets.bind fun colon =>
    Meets.assuming fun hcolon => ?_
  refine (Meets.onFailure (Meets.checked fun _ _ hs => hs.live) cleanup_named_meets).bind fun _ =>
    Meets.assuming fun hsome => ?_
  rw [hsome] at hcolon
  have hlt' := (List.getElem?_eq_some_iff.1 hcolon.symm).1
  exact Meets.pure.pre fun s hs => ⟨k', ⟨by omega, hlt'⟩, hs⟩

/-- Fails at the nesting limit. -/
theorem enter_meets : Meets (At live offset depth) enter
    (fun _ s => depth < nestingLimit ∧ At live offset (depth + 1) s) (fun s => s.live = live) := by
  refine get_meets.bind fun start => Meets.assuming fun hstart => ?_
  rw [hstart.2]
  refine (Meets.checked fun _ _ hs => hs.live).bind fun _ => Meets.assuming fun hlt => ?_
  exact Arena.meets_update fun s hs => ⟨hlt, hs.live, hs.offset, by simp only [hs.depth]⟩

/-- The loop starts one byte before the first item, which is inside the buffer. -/
theorem parseBracket_meets {close : UInt8} {loop : Parse (List (Cjson F))} (Good : List (Cjson F) → Prop)
    (hnil : Good []) (h : offset < content.length)
    (hloop : ∀ n, offset ≤ n → n < content.length → Meets (At live n (depth + 1)) loop
      (fun items s => Good items ∧ ∃ k, (n < k ∧ k < content.length) ∧ At (live + blocksOf items) k (depth + 1) s)
      (fun s => s.live = live)) :
    Meets (At live offset (depth + 1)) (parseBracket content close loop)
      (fun items s => Good items ∧ Behind content (live + blocksOf items) offset depth s) (fun s => s.live = live) := by
  have hleave {n live : Nat} {E : Arena ParseBuffer → Prop} :
      Meets (At live n (depth + 1)) leave (fun _ => At live (n + 1) depth) E :=
    Arena.meets_update fun s hs => ⟨hs.live, by simp only [hs.offset], by simp only [hs.depth, Nat.add_sub_cancel]⟩
  refine advance_meets.bind fun _ => (skipWhitespace_meets h).bind fun _ => Meets.exists_pre fun n =>
    Meets.assuming fun ⟨hn, hle, _⟩ => current_meets.bind fun b => Meets.assuming fun hb => ?_
  cases b with
  | none => exact stepBack_meets.bind fun _ => Meets.fail.pre fun s hs => hs.live
  | some b =>
    have hlt : n < content.length := (List.getElem?_eq_some_iff.1 hb.symm).1
    refine Meets.ite (fun _ => hleave.bind fun _ => Meets.pure.pre fun s hs => ?_) fun _ => ?_
    · exact ⟨hnil, n + 1, by omega, by omega, hs⟩
    · refine stepBack_meets.bind fun _ => (hloop (n - 1) (by omega) (by omega)).bind fun items =>
        Meets.assuming fun hgood => Meets.exists_pre fun k => Meets.assuming fun ⟨hk, hkle⟩ => ?_
      exact hleave.bind fun _ => Meets.pure.pre fun s hs => ⟨hgood, k + 1, by omega, by omega, hs⟩

mutual

/-- Every function takes three times the bytes that are left, so the fuel is enough. -/
theorem parseValue_meets : ∀ (fuel : Nat) {live offset depth : Nat}, 3 * (content.length - offset) < fuel →
    offset ≤ content.length → depth ≤ nestingLimit →
    Meets (At live offset depth) (parseValue content toDouble m fuel)
      (fun v s => ParsedWell (nestingLimit - depth) v ∧ Behind content (live + parsedBlocks v) offset depth s)
      (fun s => s.live = live)
  | 0, _, _, _, hfuel, _, _ => by cases hfuel
  | fuel + 1, live, offset, depth, hfuel, hoffset, hdepth => by
    have hleaf {type : ItemType F} (htype : isContainer type = false) : ParsedWell (nestingLimit - depth) (type, []) :=
      fun name => .leaf htype
    rw [parseValue]
    refine get_meets.bind fun start => Meets.assuming fun hstart => ?_
    simp only [hstart.1]
    have hliteral {text : Bytes} (htext : text <+: content.drop offset) (hne : text.length ≠ 0) {type : ItemType F}
        (htype : isContainer type = false) (hstring : hasValuestring type = false) :
        Meets (At live offset depth) (do advance text.length; return (type, []))
          (fun v s => ParsedWell (nestingLimit - depth) v ∧ Behind content (live + parsedBlocks v) offset depth s)
          (fun s => s.live = live) := by
      have hlength := htext.length_le
      rw [List.length_drop] at hlength
      refine advance_meets.bind fun _ => Meets.pure.pre fun s hs => ⟨hleaf htype, offset + text.length, ?_, ?_, ?_⟩
      · omega
      · omega
      · simpa [parsedBlocks, hstring] using hs
    refine Meets.ite (fun htext => hliteral htext (by decide) rfl rfl) fun _ => ?_
    refine Meets.ite (fun htext => hliteral htext (by decide) rfl rfl) fun _ => ?_
    refine Meets.ite (fun htext => hliteral htext (by decide) rfl rfl) fun _ => ?_
    cases hrest : content.drop offset with
    | nil => exact Meets.fail.pre fun s hs => hs.live
    | cons b rest =>
      have hb : content[offset]? = some b := by
        rw [← List.head?_drop, hrest]
        rfl
      have hlt : offset < content.length := (List.getElem?_eq_some_iff.1 hb).1
      refine Meets.ite (fun _ => ?_) fun _ => Meets.ite (fun _ => ?_) fun _ => Meets.ite (fun hbracket => ?_) fun _ =>
        Meets.ite (fun hbrace => ?_) fun _ => Meets.fail.pre fun s hs => hs.live
      · exact (parseString_meets hlt).bind fun valuestring => Meets.pure.pre fun s hs => ⟨hleaf rfl, hs⟩
      · refine parseNumber_meets.bind fun number => Meets.assuming ?_
        rintro ⟨d, rfl⟩
        exact Meets.pure.pre fun s hs => ⟨hleaf rfl, hs⟩
      · exact parseArray_meets fuel (by omega) (by rw [hb, hbracket]) hdepth
      · exact parseObject_meets fuel (by omega) (by rw [hb, hbrace]) hdepth

/-- The bracket has been seen, so the offset is in the buffer. -/
theorem parseArray_meets : ∀ (fuel : Nat) {live offset depth : Nat}, 3 * (content.length - offset) ≤ fuel →
    content[offset]? = some 91 → depth ≤ nestingLimit →
    Meets (At live offset depth) (parseArray content toDouble m fuel)
      (fun v s => ParsedWell (nestingLimit - depth) v ∧ Behind content (live + parsedBlocks v) offset depth s)
      (fun s => s.live = live)
  | 0, _, _, _, hfuel, hb, _ => by
    have hlt := (List.getElem?_eq_some_iff.1 hb).1
    omega
  | fuel + 1, live, offset, depth, hfuel, hb, hdepth => by
    have hlt := (List.getElem?_eq_some_iff.1 hb).1
    rw [parseArray]
    refine enter_meets.bind fun _ => Meets.assuming fun henter => (byteAtOffset_meets hlt).bind fun bracket =>
      Meets.assuming fun _ => (Meets.checked fun _ _ hs => hs.live).bind fun _ => Meets.assuming fun _ => ?_
    refine (parseBracket_meets (Items (nestingLimit - (depth + 1)) fun name => name = none) (.nil _ _) hlt
      fun n hn hnlt => ?_).bind fun child => Meets.assuming fun hgood => ?_
    · exact (parseElements_meets fuel (by omega) hnlt henter (.nil _ _) :
        Meets (At (live + blocksOf []) n (depth + 1)) _ _ _)
    · refine Meets.pure.pre fun s hs => ⟨fun name => ?_, hs⟩
      rw [show nestingLimit - depth = nestingLimit - (depth + 1) + 1 by omega]
      exact .container rfl hgood.names hgood.well

/-- The items so far are held by the loop and deleted by it when it fails. -/
theorem parseElements_meets : ∀ (fuel : Nat) {live offset depth : Nat} {done : List (Cjson F)},
    3 * (content.length - offset) ≤ fuel + 1 → offset < content.length → depth ≤ nestingLimit →
    Items (nestingLimit - depth) (fun name => name = none) done →
    Meets (At (live + blocksOf done) offset depth) (parseElements content toDouble m fuel done)
      (fun items s => Items (nestingLimit - depth) (fun name => name = none) items ∧
        ∃ k, (offset < k ∧ k < content.length) ∧ At (live + blocksOf items) k depth s)
      (fun s => s.live = live)
  | 0, _, _, _, _, hfuel, hlt, _, _ => by omega
  | fuel + 1, live, offset, depth, done, hfuel, hlt, hdepth, hgood => by
    rw [parseElements]
    refine newItem_meets.bind fun _ => advance_meets.bind fun _ => (skipWhitespace_meets hlt).bind fun _ =>
      Meets.exists_pre fun n => Meets.assuming fun ⟨hn, hle, _⟩ => ?_
    refine (Meets.onFailure (parseValue_meets fuel (by omega) hle hdepth) cleanup_meets).bind fun value =>
      Meets.assuming fun hwell => Meets.exists_pre fun k => Meets.assuming fun hk => Meets.assuming fun hkle =>
      (skipWhitespace_meets hkle).bind fun _ => Meets.exists_pre fun k' => Meets.assuming fun ⟨hk', _, _⟩ => ?_
    rw [show live + blocksOf done + 1 + parsedBlocks value = _ from live_append done value none]
    refine parseSeparator_meets (fun hlt' => ?_) fun hlt' s hs =>
      ⟨hgood.append (hwell none) rfl, k', ⟨by omega, hlt'⟩, hs⟩
    refine (parseElements_meets fuel (by omega) hlt' hdepth (hgood.append (hwell none) rfl)).post fun items s hs => ?_
    obtain ⟨hitems, j, hj, hs⟩ := hs
    exact ⟨hitems, j, ⟨by omega, hj.2⟩, hs⟩

/-- As `parseArray_meets`, with names. -/
theorem parseObject_meets : ∀ (fuel : Nat) {live offset depth : Nat}, 3 * (content.length - offset) ≤ fuel →
    content[offset]? = some 123 → depth ≤ nestingLimit →
    Meets (At live offset depth) (parseObject content toDouble m fuel)
      (fun v s => ParsedWell (nestingLimit - depth) v ∧ Behind content (live + parsedBlocks v) offset depth s)
      (fun s => s.live = live)
  | 0, _, _, _, hfuel, hb, _ => by
    have hlt := (List.getElem?_eq_some_iff.1 hb).1
    omega
  | fuel + 1, live, offset, depth, hfuel, hb, hdepth => by
    have hlt := (List.getElem?_eq_some_iff.1 hb).1
    rw [parseObject]
    refine enter_meets.bind fun _ => Meets.assuming fun henter => current_meets.bind fun brace =>
      Meets.assuming fun _ => (Meets.checked fun _ _ hs => hs.live).bind fun _ => Meets.assuming fun _ => ?_
    refine (parseBracket_meets (Items (nestingLimit - (depth + 1)) fun name => name.isSome) (.nil _ _) hlt
      fun n hn hnlt => ?_).bind fun child => Meets.assuming fun hgood => ?_
    · exact (parseMembers_meets fuel (by omega) hnlt henter (.nil _ _) :
        Meets (At (live + blocksOf []) n (depth + 1)) _ _ _)
    · refine Meets.pure.pre fun s hs => ⟨fun name => ?_, hs⟩
      rw [show nestingLimit - depth = nestingLimit - (depth + 1) + 1 by omega]
      exact .container rfl hgood.names hgood.well

/-- As `parseElements_meets`, with names. -/
theorem parseMembers_meets : ∀ (fuel : Nat) {live offset depth : Nat} {done : List (Cjson F)},
    3 * (content.length - offset) ≤ fuel + 1 → offset < content.length → depth ≤ nestingLimit →
    Items (nestingLimit - depth) (fun name => name.isSome) done →
    Meets (At (live + blocksOf done) offset depth) (parseMembers content toDouble m fuel done)
      (fun items s => Items (nestingLimit - depth) (fun name => name.isSome) items ∧
        ∃ k, (offset < k ∧ k < content.length) ∧ At (live + blocksOf items) k depth s)
      (fun s => s.live = live)
  | 0, _, _, _, _, hfuel, hlt, _, _ => by omega
  | fuel + 1, live, offset, depth, done, hfuel, hlt, hdepth, hgood => by
    rw [parseMembers]
    refine newItem_meets.bind fun _ => parseName_meets.bind fun name => Meets.exists_pre fun n =>
      Meets.assuming fun ⟨hn, hnlt⟩ => advance_meets.bind fun _ => (skipWhitespace_meets hnlt).bind fun _ =>
      Meets.exists_pre fun n' => Meets.assuming fun ⟨hn', hle, _⟩ => ?_
    refine (Meets.onFailure (parseValue_meets fuel (by omega) hle hdepth) cleanup_named_meets).bind fun value =>
      Meets.assuming fun hwell => Meets.exists_pre fun k => Meets.assuming fun hk => Meets.assuming fun hkle =>
      (skipWhitespace_meets hkle).bind fun _ => Meets.exists_pre fun k' => Meets.assuming fun ⟨hk', _, _⟩ => ?_
    rw [show live + blocksOf done + 1 + 1 + parsedBlocks value = _ from live_append done value (some name)]
    refine parseSeparator_meets (fun hlt' => ?_) fun hlt' s hs =>
      ⟨hgood.append (hwell (some name)) rfl, k', ⟨by omega, hlt'⟩, hs⟩
    refine (parseMembers_meets fuel (by omega) hlt' hdepth (hgood.append (hwell (some name)) rfl)).post
      fun items s hs => ?_
    obtain ⟨hitems, j, hj, hs⟩ := hs
    exact ⟨hitems, j, ⟨by omega, hj.2⟩, hs⟩

end

/-! ## The whole text -/

/-- The item of the root is allocated before its value is parsed. -/
theorem parseWithLength_meets {live : Nat} :
    Meets (fun s => s.live = live) (parseWithLength content toDouble m)
      (fun t s => (WellFormed nestingLimit t ∧ t.label.name = none) ∧ s.live = live + blocks t)
      (fun s => s.live = live) := by
  refine (Meets.checked fun _ _ hs => hs).bind fun _ => Meets.assuming fun hne => ?_
  have hpos := List.length_pos_of_ne_nil hne
  refine (Arena.meets_update (Q := fun _ => At live 0 0) fun s hs => ⟨hs, rfl, rfl⟩).bind fun _ => ?_
  refine (Arena.meets_allocate (Q := fun _ => At (live + 1) 0 0)
    (fun s hs _ => ⟨by simp only [hs.live], hs.offset, hs.depth⟩) fun s hs _ => hs.live).bind fun _ => ?_
  have hbom : Meets (At (live + 1) 0 0) (skipUtf8Bom content)
      (fun _ s => ∃ n, n ≤ content.length ∧ At (live + 1) n 0 s) (fun s => s.live = live + 1) := by
    refine Meets.ite (fun h => advance_meets.post fun _ s hs => ⟨_, ?_, hs⟩) fun _ =>
      Meets.pure.pre fun s hs => ⟨0, ?_, hs⟩
    · omega
    · omega
  have hvalue : Meets (At (live + 1) 0 0)
      (do skipUtf8Bom content; skipWhitespace content; parseValue content toDouble m (3 * content.length + 1))
      (fun v s => ParsedWell nestingLimit v ∧ s.live = live + 1 + parsedBlocks v) (fun s => s.live = live + 1) := by
    refine hbom.bind fun _ => Meets.exists_pre fun n => Meets.assuming fun hn => (skipWhitespace_meets hn).bind fun _ =>
      Meets.exists_pre fun k => Meets.assuming fun ⟨_, hk, _⟩ => ?_
    exact (parseValue_meets _ (by omega) hk (Nat.zero_le _)).post fun v s hs => ⟨hs.1, (hs.2.choose_spec).2.2.live⟩
  refine (Meets.onFailure hvalue (Arena.meets_release (fun s hs => ?_) fun s hs => ?_)).bind fun v =>
    Meets.pure.pre fun s hs => ?_
  · omega
  · simp only []
    omega
  · refine ⟨⟨hs.1 none, rfl⟩, ?_⟩
    have hblocks : live + blocksOf [] + 1 + 0 + parsedBlocks v = _ := live_append [] v none
    simpa [hs.2] using hblocks

/-- **The parser of cJSON is safe.** Whatever bytes it is given and whichever allocations fail, it ends, and it neither
reads nor writes outside its buffers. What it accepts is well formed with at most 1000 containers in each other, and the
blocks of the new tree are all that it leaves allocated. -/
theorem jsonUtilParse_safe (input : JsonInput) (s : Arena ParseBuffer) :
    ∃ result s', jsonUtilParse toDouble m input s = some (result, s') ∧
      match result with
      | .ok t => WellFormed nestingLimit t ∧ t.label.name = none ∧ s'.live = s.live + blocks t
      | .error e => e = .fail ∧ s'.live = s.live := by
  have hmeets : Meets (fun s' => s'.live = s.live) (parseInput toDouble m input)
      (fun t s' => (WellFormed nestingLimit t ∧ t.label.name = none) ∧ s'.live = s.live + blocks t)
      (fun s' => s'.live = s.live) := by
    cases input with
    | string jsonString => exact parseWithLength_meets
    | buffer bytes _ => exact parseWithLength_meets
  obtain ⟨r, s', hrun, hparsed, hfailed⟩ := hmeets s rfl
  rw [jsonUtilParse, hrun]
  cases r with
  | none => exact ⟨.error .fail, s', rfl, rfl, hfailed rfl⟩
  | some t =>
    obtain ⟨⟨hwell, hname⟩, hlive⟩ := hparsed t rfl
    exact ⟨.ok t, s', rfl, hwell, hname, hlive⟩

end

end MindConnect.CjsonParse
