import MindConnect.Core.CjsonPrint
import MindConnect.Lib.JsonRead

/-!
# What the printer of cJSON prints

One lemma for each function that prints: with the text so far in the buffer the function puts its part behind it, or has
a reason not to. The offset may stay before the end of a value (`Pending`), until `update_offset` finds that end.
-/

namespace MindConnect.CjsonPrint

open JsonBuilder JsonUtil Fallible
open Arena (allocate release update)

variable {m : Memory}

/-! ## Strings -/

theorem length_escapeByte (b : UInt8) : (Json.escapeByte b).length = escapeCharacters b + 1 := by
  unfold Json.escapeByte escapeCharacters
  split_ifs <;> simp_all

theorem length_flatMap_escapeByte (bs : Bytes) :
    (bs.flatMap Json.escapeByte).length = bs.length + (bs.map escapeCharacters).sum := by
  induction bs with
  | nil => rfl
  | cons b bs ih =>
    rw [List.flatMap_cons, List.length_append, ih, length_escapeByte, List.map_cons, List.sum_cons, List.length_cons]
    omega

theorem escapeByte_of_plain {b : UInt8} (h : escapeCharacters b = 0) : Json.escapeByte b = [b] := by
  unfold escapeCharacters at h
  unfold Json.escapeByte
  split_ifs at h ⊢ <;> simp_all

theorem flatMap_escapeByte_of_plain {bs : Bytes} (h : (bs.map escapeCharacters).sum = 0) :
    bs.flatMap Json.escapeByte = bs := by
  induction bs with
  | nil => rfl
  | cons b bs ih =>
    rw [List.map_cons, List.sum_cons, Nat.add_eq_zero_iff] at h
    rw [List.flatMap_cons, escapeByte_of_plain h.1, ih h.2, List.singleton_append]

theorem escapeCharacters_eq_zero {b : UInt8} (h : 31 < b ∧ b ≠ 34 ∧ b ≠ 92) : escapeCharacters b = 0 := by
  have hlt := UInt8.lt_iff_toNat_lt.1 h.1
  have hge : ¬ b < 32 := fun hb => absurd (UInt8.lt_iff_toNat_lt.1 hb) (Nat.not_lt.2 hlt)
  have hletter : ¬ (b = 34 ∨ b = 92 ∨ b = 8 ∨ b = 12 ∨ b = 10 ∨ b = 13 ∨ b = 9) := by
    rintro (rfl | rfl | rfl | rfl | rfl | rfl | rfl)
    · exact h.2.1 rfl
    · exact h.2.2 rfl
    all_goals exact absurd h.1 (by decide)
  rw [escapeCharacters, if_neg hletter, if_neg hge]

theorem escapeByte_letter {b letter : UInt8} (h : escapeLetter b = some letter) :
    Json.escapeByte b = [92, letter] := by
  unfold escapeLetter at h
  unfold Json.escapeByte
  split_ifs at h ⊢ <;> simp_all

theorem escapeByte_control {b : UInt8} (h : ¬ (31 < b ∧ b ≠ 34 ∧ b ≠ 92)) (hletter : escapeLetter b = none) :
    Json.escapeByte b = 92 :: 117 :: Hex.padded 4 b.toNat := by
  have hcontrol : ∀ n < 32, escapeLetter (UInt8.ofNat n) = none →
      Json.escapeByte (UInt8.ofNat n) = 92 :: 117 :: Hex.digits 4 n := by decide
  have hlt : b.toNat < 32 := by
    by_contra hge
    have hplain : 31 < b := UInt8.lt_iff_toNat_lt.2 (Nat.lt_of_succ_le (Nat.le_of_not_lt hge))
    have hquote : b ≠ 34 := by
      rintro rfl
      cases hletter
    have hbackslash : b ≠ 92 := by
      rintro rfl
      cases hletter
    exact h ⟨hplain, hquote, hbackslash⟩
  have hescape := hcontrol b.toNat hlt
  rw [UInt8.ofNat_toNat] at hescape
  rw [Hex.padded_eq_digits (by decide) (by omega), hescape hletter]

/-- The loop writes the escaped bytes, and a NUL behind them at most. -/
theorem escapeLoop_meets {text : Bytes} {room : Nat} {E : Arena PrintBuffer → Prop} (bs : Bytes) :
    ∀ written : Bytes, written.length + (bs.flatMap Json.escapeByte).length ≤ room →
      Meets (Buffered m text written room) (escapeLoop bs written.length)
        (fun _ => Buffered m text (written ++ bs.flatMap Json.escapeByte) room) E := by
  induction bs with
  | nil =>
    intro written _
    simp only [escapeLoop, List.flatMap_nil, List.append_nil]
    exact Meets.pure (Q := fun _ => Buffered m text written room)
  | cons b bs ih =>
    intro written hroom
    rw [List.flatMap_cons, List.length_append, length_escapeByte] at hroom
    have hnext {escaped : Bytes} (hescaped : Json.escapeByte b = escaped) (distance : Nat)
        (hdistance : distance = written.length + escaped.length) :
        Meets (Buffered m text (written ++ escaped) room) (escapeLoop bs distance)
          (fun _ => Buffered m text (written ++ (b :: bs).flatMap Json.escapeByte) room) E := by
      have hrest := ih (written ++ escaped) (by
        rw [List.length_append, ← hescaped, length_escapeByte]
        omega)
      rw [List.length_append, ← hdistance, List.append_assoc] at hrest
      rw [List.flatMap_cons, hescaped]
      exact hrest
    rw [escapeLoop]
    by_cases hplain : 31 < b ∧ b ≠ 34 ∧ b ≠ 92
    · rw [if_pos hplain]
      have hescaped : Json.escapeByte b = [b] := escapeByte_of_plain (escapeCharacters_eq_zero hplain)
      exact (put_end rfl (by simp only [List.length_singleton]; omega)).bind fun _ => hnext hescaped _ rfl
    · rw [if_neg hplain]
      refine (put_end rfl (by simp only [List.length_singleton]; omega)).bind fun _ => ?_
      cases hletter : escapeLetter b with
      | some letter =>
        have hescaped := escapeByte_letter hletter
        have hlength := length_escapeByte b
        rw [hescaped] at hlength
        simp only [List.length_cons, List.length_nil] at hlength
        refine (put_end (by simp) (by simp only [List.length_singleton]; omega)).bind fun _ => ?_
        rw [List.append_assoc]
        exact hnext hescaped _ rfl
      | none =>
        have hescaped := escapeByte_control hplain hletter
        have hpadded : (Hex.padded 4 b.toNat).length = 4 := Hex.length_padded (by decide) (by have := b.toNat_lt; omega)
        have hlength := length_escapeByte b
        rw [hescaped] at hlength
        simp only [List.length_cons, hpadded] at hlength
        refine (put_end (by simp) ?_).bind fun _ => ?_
        · simp only [List.length_cons, List.length_append, hpadded, List.length_nil]
          omega
        have hrest := hnext hescaped (written.length + 6) (by simp only [List.length_cons, hpadded])
        have happend : written ++ [92] ++ (117 :: Hex.padded 4 b.toNat ++ [0]) =
            written ++ (92 :: 117 :: Hex.padded 4 b.toNat) ++ [0] := by simp
        rw [happend]
        exact hrest.pre fun s h => h.cut

/-- A null key is printed as an empty one. -/
theorem printStringPtr_meets (text : Bytes) {w : Nat} (input : Option CString)
    (hfits : ∀ s, input = some s → (Json.printString s).length + 1 < 2 ^ w) :
    Meets (Buffered m text [] 0) (printStringPtr m w input)
      (fun _ => Pending m (text ++ Json.printString (input.getD (.lit ""))))
      (Abandoned m (text.length + (Json.printString (input.getD (.lit ""))).length)) := by
  have hpending {s : CString} : ∀ st, Buffered m text (Json.printString s ++ [0]) ((Json.printString s).length + 1) st →
      Pending m (text ++ Json.printString s) st := fun st h => ⟨text, _, rfl, Json.zero_not_mem_printString s, h⟩
  cases input with
  | none =>
    refine (ensure_meets ?_).bind fun _ => ?_
    · rfl
    · exact (put_meets (Nat.zero_le _) (by decide)).post fun _ st h => hpending st h
  | some s =>
    have hlength : s.length + (s.bytes.map escapeCharacters).sum = (s.bytes.flatMap Json.escapeByte).length :=
      (length_flatMap_escapeByte s.bytes).symm
    have hprinted : (Json.printString s).length = (s.bytes.flatMap Json.escapeByte).length + 2 := by
      simp [Json.printString]
    have hmod := hfits s rfl
    rw [hprinted] at hmod
    simp only [printStringPtr, hlength]
    rw [Nat.mod_eq_of_lt (by omega : (s.bytes.flatMap Json.escapeByte).length < 2 ^ w), Nat.mod_eq_of_lt hmod]
    refine (ensure_meets (by rw [Option.getD_some, hprinted]; omega)).bind fun _ => ?_
    have hend {E : Arena PrintBuffer → Prop} :
        Meets (Buffered m text ([34] ++ s.bytes.flatMap Json.escapeByte) ((s.bytes.flatMap Json.escapeByte).length + 3))
          (put ((s.bytes.flatMap Json.escapeByte).length + 1) [34, 0])
          (fun _ => Pending m (text ++ Json.printString s)) E := by
      refine (put_end (by simp) (by simp)).post fun _ st h => hpending st ?_
      rw [hprinted]
      simpa [Json.printString] using h
    by_cases hplain : (s.bytes.map escapeCharacters).sum = 0
    · have hsame := flatMap_escapeByte_of_plain hplain
      rw [if_pos hplain]
      refine (put_end rfl (by simp)).bind fun _ => (put_end rfl ?_).bind fun _ => ?_
      · show 1 + _ ≤ _
        rw [List.length_take]
        omega
      · rw [List.take_of_length_le (by rw [hsame])]
        rw [hsame] at hend ⊢
        exact hend
    · rw [if_neg hplain]
      refine (put_end rfl (by simp)).bind fun _ => (escapeLoop_meets s.bytes [34] ?_).bind fun _ => hend
      simp only [List.length_singleton]
      omega

/-! ## Values -/

section
variable {F : Type} {w : Nat} {format : NumberText F}

/-- No escaped string is too long for its length to be counted. -/
def EscapesFit (w : Nat) (t : Cjson F) : Prop :=
  t.Everywhere fun l _ => ∀ s, l.type = .string s ∨ l.name = some s → (Json.printString s).length + 1 < 2 ^ w

theorem EscapesFit.child {l : Label F} {cs : List (Cjson F)} (h : EscapesFit w (.node l cs)) :
    ∀ c ∈ cs, EscapesFit w c :=
  (Rose.everywhere_iff.1 h).2

theorem member_node (text : F → Bytes) (l : Label F) (cs : List (Cjson F)) :
    member text (.node l cs) = (l.name.getD (.lit ""),
      match l.type with
      | .bool b => .bool b
      | .null => .null
      | .number d => .number (text d)
      | .string s => .string s
      | .array => .array (cs.map fun c => (member text c).2)
      | .object => .object (cs.map (member text))) := by
  obtain ⟨type, name⟩ := l
  rw [member, Rose.fold_eq]
  cases type with
  | array => simp only [Rose.label_node, Rose.children_node, List.map_map]; rfl
  | _ => rfl

theorem put_start {text bs : Bytes} {room : Nat} (hroom : bs.length ≤ room + 1) {E : Arena PrintBuffer → Prop} :
    Meets (Buffered m text [] room) (put 0 bs) (fun _ => Buffered m text bs room) E :=
  put_meets (Nat.zero_le _) (by omega)

theorem put_pending {text bs : Bytes} {room : Nat} (hbs : 0 ∉ bs) (hroom : room = bs.length + 1)
    {E : Arena PrintBuffer → Prop} :
    Meets (Buffered m text [] room) (put 0 (bs ++ [0])) (fun _ => Pending m (text ++ bs)) E := by
  subst hroom
  refine (put_start ?_).post fun _ s h => ⟨text, bs, rfl, hbs, h⟩
  simp

theorem put_advance {text more : Bytes} {b : UInt8} {room : Nat} (hb : 0 ≠ b) (hroom : more.length ≤ room)
    (hone : 1 ≤ room) {E : Arena PrintBuffer → Prop} {x : Print Unit} {Q : Unit → Arena PrintBuffer → Prop}
    (hx : Meets (Buffered m (text ++ [b]) [] 0) x Q E) :
    Meets (Buffered m text [] room) (do put 0 (b :: more); advance 1; x) Q E := by
  have hadvance : Meets (Buffered m text (b :: more) room) (advance 1)
      (fun _ => Buffered m (text ++ [b]) more (room - 1)) E :=
    advance_meets rfl hone (by simpa using hb : 0 ∉ [b])
  refine (put_start (by simpa using hroom)).bind fun _ => hadvance.bind fun _ => ?_
  exact hx.pre fun s h => h.shrink (Nat.zero_le _)

theorem printNumber_meets {text : Bytes} {d : F} :
    Meets (Buffered m text [] 0) (printNumber m format d) (fun _ => Pending m (text ++ format.text d))
      (Abandoned m (text.length + (format.text d).length)) := by
  have hshort : (format.text d).length ≤ numberBufferSize - 1 := format.length_text d
  refine (Meets.check (Q := fun _ => Buffered m text [] 0) (fun _ _ h => h) fun s hlong => absurd hshort hlong).bind
    fun _ => (ensure_meets (by omega)).bind fun _ => (put_start (by simp)).bind fun _ =>
    (advance_meets rfl (Nat.le_succ _) (format.nul_free d)).post fun _ s h =>
      ⟨_, [], (List.append_nil _).symm, List.not_mem_nil, ?_⟩
  rwa [Nat.succ_sub (Nat.le_refl _), Nat.sub_self] at h

theorem ensure_close {text inner : Bytes} {b c : UInt8} (hc : 0 ≠ c) :
    Meets (Buffered m (text ++ [b] ++ inner) [] 0) (do ensure m 2; put 0 [c, 0])
      (fun _ => Pending m (text ++ (b :: inner ++ [c]))) (Abandoned m (text.length + (b :: inner ++ [c]).length)) := by
  refine (ensure_meets ?_).bind fun _ => ?_
  · simp only [List.length_append, List.length_cons, List.length_nil]
    omega
  · have hput : Meets (Buffered m (text ++ [b] ++ inner) [] 2) (put 0 [c, 0])
        (fun _ => Pending m (text ++ [b] ++ inner ++ [c])) (Abandoned m (text.length + (b :: inner ++ [c]).length)) :=
      put_pending (by simpa using hc : 0 ∉ [c]) rfl
    refine hput.post fun _ s h => ?_
    simpa using h

theorem literal_meets {text : Bytes} (bs : Bytes) (hbs : 0 ∉ bs) :
    Meets (Buffered m text [] 0) (do ensure m (bs.length + 1); put 0 (bs ++ [0])) (fun _ => Pending m (text ++ bs))
      (Abandoned m (text.length + bs.length)) :=
  (ensure_meets (by omega)).bind fun _ => put_pending hbs rfl

mutual

theorem printValue_meets : ∀ (t : Cjson F), EscapesFit w t → ∀ text : Bytes,
    Meets (Buffered m text [] 0) (printValue m w format t)
      (fun _ => Pending m (text ++ (member format.text t).2.print))
      (Abandoned m (text.length + (member format.text t).2.print.length))
  | .node ⟨type, name⟩ cs, h, text => by
    rw [member_node, printValue]
    cases type with
    | null => exact literal_meets (ascii "null") (by decide)
    | bool b =>
      cases b with
      | false => exact literal_meets (ascii "false") (by decide)
      | true => exact literal_meets (ascii "true") (by decide)
    | number d => exact printNumber_meets
    | string s =>
      refine printStringPtr_meets text (some s) fun s' hs => (Rose.everywhere_iff.1 h).1 s' (.inl ?_)
      rw [← Option.some.inj hs]
      rfl
    | array =>
      have helements := printElements_meets cs h.child (text ++ [91])
      simp only [Json.print]
      refine (ensure_meets (by simp only [List.length_append, List.length_cons]; omega)).bind fun _ => ?_
      refine put_advance (by decide) (Nat.zero_le _) (Nat.le_refl _) ?_
      refine (helements.failure fun s hs => hs.mono ?_).bind fun _ => ensure_close (by decide)
      simp only [List.length_append, List.length_cons, List.length_nil]
      omega
    | object =>
      have hmembers := printMembers_meets cs h.child (text ++ [123])
      simp only [Json.print]
      refine (ensure_meets (by simp only [List.length_append, List.length_cons]; omega)).bind fun _ => ?_
      refine put_advance (by decide) (Nat.zero_le _) (by decide) ?_
      refine (hmembers.failure fun s hs => hs.mono ?_).bind fun _ => ensure_close (by decide)
      simp only [List.length_append, List.length_cons, List.length_nil]
      omega

theorem printElements_meets : ∀ (cs : List (Cjson F)), (∀ c ∈ cs, EscapesFit w c) → ∀ text : Bytes,
    Meets (Buffered m text [] 0) (printElements m w format cs)
      (fun _ => Buffered m (text ++ Json.printElements (cs.map fun c => (member format.text c).2)) [] 0)
      (Abandoned m (text.length + (Json.printElements (cs.map fun c => (member format.text c).2)).length))
  | [], _, text => by
    rw [printElements, List.map_nil, Json.printElements, List.append_nil]
    exact Meets.pure (Q := fun _ => Buffered m text [] 0)
  | [c], h, text => by
    have hvalue := printValue_meets c (h c (.head _)) text
    rw [printElements, List.map_singleton, Json.printElements]
    exact hvalue.bind fun _ => updateOffset_meets.post fun _ s h => h.shrink (Nat.zero_le _)
  | c :: d :: cs, h, text => by
    have hvalue := printValue_meets c (h c (.head _)) text
    have hrest := printElements_meets (d :: cs) (fun e he => h e (.tail _ he))
      (text ++ (member format.text c).2.print ++ [44])
    rw [printElements]
    simp only [List.map_cons, Json.printElements] at hrest ⊢
    refine (hvalue.failure fun s hs => hs.mono ?_).bind fun _ => updateOffset_meets.bind fun _ =>
      (ensure_meets ?_).bind fun _ => put_advance (by decide) (by decide) (by decide) ?_
    · simp only [List.length_append]
      omega
    · simp only [List.length_append, List.length_cons]
      omega
    · refine hrest.weaken (fun _ h => h) (fun _ s h => ?_) fun s hs => hs.mono ?_
      · simpa using h
      · simp only [List.length_append, List.length_cons, List.length_nil]
        omega

theorem printMembers_meets : ∀ (cs : List (Cjson F)), (∀ c ∈ cs, EscapesFit w c) → ∀ text : Bytes,
    Meets (Buffered m text [] 0) (printMembers m w format cs)
      (fun _ => Buffered m (text ++ Json.printMembers (cs.map (member format.text))) [] 0)
      (Abandoned m (text.length + (Json.printMembers (cs.map (member format.text))).length))
  | [], _, text => by
    rw [printMembers, List.map_nil, Json.printMembers, List.append_nil]
    exact Meets.pure (Q := fun _ => Buffered m text [] 0)
  | [c], h, text => by
    have hmember := printMember_meets c (h c (.head _)) text
    rw [printMembers, List.map_singleton, Json.printMembers]
    refine hmember.bind fun _ => (ensure_meets ?_).bind fun _ => (put_start (by decide)).post fun _ s h => ?_
    · simp only [List.length_append, List.length_cons]
      omega
    · exact h.shrink (Nat.zero_le _)
  | c :: d :: cs, h, text => by
    have hmember := printMember_meets c (h c (.head _)) text
    have hrest := printMembers_meets (d :: cs) (fun e he => h e (.tail _ he))
      (text ++ (Json.printString (member format.text c).1 ++ 58 :: (member format.text c).2.print) ++ [44])
    rw [printMembers]
    simp only [List.map_cons, Json.printMembers] at hrest ⊢
    refine (hmember.failure fun s hs => hs.mono ?_).bind fun _ =>
      (ensure_meets ?_).bind fun _ => put_advance (by decide) (by decide) (by decide) ?_
    · simp only [List.length_append, List.length_cons]
      omega
    · simp only [List.length_append, List.length_cons]
      omega
    · refine hrest.weaken (fun _ h => h) (fun _ s h => ?_) fun s hs => hs.mono ?_
      · simpa using h
      · simp only [List.length_append, List.length_cons, List.length_nil]
        omega

theorem printMember_meets : ∀ (c : Cjson F), EscapesFit w c → ∀ text : Bytes,
    Meets (Buffered m text [] 0) (printMember m w format c)
      (fun _ => Buffered m
        (text ++ (Json.printString (member format.text c).1 ++ 58 :: (member format.text c).2.print)) [] 1)
      (Abandoned m
        (text.length + (Json.printString (member format.text c).1 ++ 58 :: (member format.text c).2.print).length))
  | .node l cs, h, text => by
    have hname : (member format.text (.node l cs)).1 = l.name.getD (.lit "") := by rw [member_node]
    have hvalue := printValue_meets (.node l cs) h (text ++ Json.printString (l.name.getD (.lit "")) ++ [58])
    have hkey := printStringPtr_meets (m := m) text l.name fun s hs => (Rose.everywhere_iff.1 h).1 s (.inr hs)
    rw [printMember, hname]
    refine (hkey.failure fun s hs => hs.mono ?_).bind fun _ => updateOffset_meets.bind fun _ => (ensure_meets ?_).bind
      fun _ => put_advance (by decide) (Nat.zero_le _) (Nat.le_refl _) ?_
    · simp only [List.length_append]
      omega
    · simp only [List.length_append, List.length_cons]
      omega
    · refine (hvalue.failure fun s hs => hs.mono ?_).bind fun _ => updateOffset_meets.post fun _ s h => ?_
      · simp only [List.length_append, List.length_cons, List.length_nil]
        omega
      · simpa using h

end

/-! ## The whole text -/

theorem dropBuffer_meets {P Q : Arena PrintBuffer → Prop} {E : Arena PrintBuffer → Prop} (hlive : ∀ s, P s → 1 ≤ s.live)
    (hQ : ∀ s, P s → Q { s with live := s.live - 1, data := { s.data with buffer := none } }) :
    Meets P dropBuffer (fun _ => Q) E := by
  intro s hs
  refine ⟨some (), { s with live := s.live - 1, data := { s.data with buffer := none } }, ?_, ?_, fun h => by cases h⟩
  · simp only [dropBuffer, bind, Fallible.bind, release, if_pos (hlive s hs), update, Fallible.modify]
  · rintro u ⟨⟩
    exact hQ s hs

/-- Nothing is held, and there is a reason. -/
structure Failed (m : Memory) (limit : Nat) (s : Arena PrintBuffer) : Prop where
  live : s.live = 0
  cause : s.Refused m.available ∨ intMax < limit + 2

theorem freeBuffer_meets {limit : Nat} {E : Arena PrintBuffer → Prop} :
    Meets (Abandoned m limit) freeBuffer (fun _ => Failed m limit) E := by
  intro s hs
  have hlive := hs.live
  cases hbuffer : s.data.buffer with
  | none =>
    refine ⟨some (), s, ?_, ?_, fun h => by cases h⟩
    · simp only [freeBuffer, bind, Fallible.bind, Fallible.get, hbuffer]
      rfl
    · rintro u ⟨⟩
      rw [hbuffer] at hlive
      exact ⟨hlive, hs.cause⟩
  | some buffer =>
    rw [hbuffer] at hlive
    have hrun : freeBuffer s = dropBuffer s := by
      simp only [freeBuffer, bind, Fallible.bind, Fallible.get, hbuffer]
      rfl
    rw [hrun]
    refine dropBuffer_meets (P := fun s => s.live = 1 ∧ (s.Refused m.available ∨ intMax < limit + 2))
      (fun s h => h.1.ge) (fun s h => ⟨?_, h.2⟩) s ⟨hlive, hs.cause⟩
    rw [h.1]

/-- The answer is the text in a block of its own, with the buffer beside it or without. -/
structure Printed (m : Memory) (text : Bytes) (live : Nat) (answer : Bytes) (s : Arena PrintBuffer) : Prop where
  content : answer = text ++ [0]
  nul_free : 0 ∉ text
  live : s.live = live
  granted : ¬ s.Refused m.available
  short : text.length + 2 ≤ intMax

theorem copyOut_meets {printed : Bytes} :
    Meets (Buffered m printed [] 1) (copyOut m) (Printed m printed 2)
      (Abandoned m printed.length) := by
  intro s h
  obtain ⟨rest, hbuffer, hlt, hle⟩ := h.block
  rw [List.nil_append] at hbuffer
  rw [List.length_nil, Nat.zero_add] at hlt hle
  cases havailable : m.available s.allocations with
  | false =>
    refine ⟨none, { s with allocations := s.allocations + 1 }, ?_, fun a ha => (by cases ha), fun _ => ⟨?_, ?_⟩⟩
    · simp only [copyOut, bind, Fallible.bind, Fallible.get, Fallible.access, hbuffer, Option.map_some, allocate,
        havailable, if_neg Bool.false_ne_true]
    · rw [h.live, hbuffer]
      rfl
    · exact .inl ((Arena.refused_succ rfl).2 (.inr havailable))
  | true =>
    have hblock : (m.block s.allocations (s.data.offset + 1)).length = printed.length + 1 := by
      simp [Memory.block, h.offset]
    have hmin : min (printed ++ rest).length (s.data.offset + 1) = printed.length + 1 := by
      rw [List.length_append, h.offset]
      omega
    have htake : (printed ++ rest).take (printed.length + 1) = printed ++ rest.take 1 := List.take_length_add_append 1
    have hone : (rest.take 1).length = 1 := List.length_take_of_le (by omega)
    have hcopied : Bytes.write (m.block s.allocations (s.data.offset + 1)) 0 (printed ++ rest.take 1) =
        some (printed ++ rest.take 1) := by
      rw [Bytes.write_eq_some (by rw [List.length_append, hone, hblock]; omega), List.take_zero, List.nil_append,
        List.drop_of_length_le (by rw [List.length_append, hone, hblock]; omega), List.append_nil]
    have hended : Bytes.write (printed ++ rest.take 1) s.data.offset [0] = some (printed ++ [0]) := by
      have hwrite : Bytes.write (printed ++ (rest.take 1 ++ [])) s.data.offset [0] = some (printed ++ ([0] ++ [])) :=
        Bytes.write_append h.offset hone
      rwa [List.append_nil, List.append_nil] at hwrite
    refine ⟨some (printed ++ [0]), { s with allocations := s.allocations + 1, live := s.live + 1 }, ?_, ?_,
      fun h => by cases h⟩
    · simp only [copyOut, bind, Fallible.bind, Fallible.get, Fallible.access, hbuffer, Option.map_some, allocate,
        havailable, if_true, hmin, htake, hcopied, hended]
    · rintro text ⟨⟩
      refine ⟨rfl, h.nul_free, by rw [h.live], ?_, by omega⟩
      rw [Arena.refused_succ rfl]
      rintro (hrefused | hrefused)
      · exact h.granted hrefused
      · rw [havailable] at hrefused
        cases hrefused

theorem printUnformatted_meets {t : Cjson F} (h : EscapesFit w t) :
    Meets (fun s => s.live = 0 ∧ ¬ s.Refused m.available) (printUnformatted m w format t)
      (Printed m (member format.text t).2.print 1)
      (Failed m (member format.text t).2.print.length) := by
  refine (Meets.get.post (Q := fun _ s => s.live = 0 ∧ ¬ s.Refused m.available) fun _ _ h => h.2).bind fun start => ?_
  refine (Arena.meets_allocate (Q := fun _ s => s.live = 1 ∧ ¬ s.Refused m.available) ?_ ?_).bind fun _ => ?_
  · intro s hs havailable
    refine ⟨by rw [hs.1], ?_⟩
    rw [Arena.refused_succ rfl]
    rintro (hrefused | hrefused)
    · exact hs.2 hrefused
    · rw [havailable] at hrefused
      cases hrefused
  · exact fun s hs havailable => ⟨hs.1, .inl ((Arena.refused_succ rfl).2 (.inr havailable))⟩
  refine (Arena.meets_update (Q := fun _ => Buffered m [] [] 0) fun s hs => ?_).bind fun _ => ?_
  · have hblock : (m.block start.allocations defaultBufferSize).length = 256 := by
      simp [Memory.block, defaultBufferSize]
    refine ⟨⟨m.block start.allocations defaultBufferSize, rfl, ?_, ?_⟩, rfl, List.not_mem_nil, hs.1, hs.2⟩
    · rw [hblock]
      decide
    · rw [hblock]
      decide
  have hvalue : Meets (Buffered m [] [] 0) (printValue m w format t) _ _ := printValue_meets t h []
  rw [List.nil_append, List.length_nil, Nat.zero_add] at hvalue
  refine (Meets.onFailure (hvalue.bind fun _ => updateOffset_meets.bind fun _ => copyOut_meets) freeBuffer_meets).bind
    fun text => ?_
  refine Meets.bind (R := fun _ => Printed m (member format.text t).2.print 1 text) (dropBuffer_meets (fun s hs => ?_)
    fun s hs => ?_) fun _ => Meets.pure (Q := Printed m (member format.text t).2.print 1)
  · rw [hs.live]
    decide
  · exact ⟨hs.content, hs.nul_free, by rw [hs.live], hs.granted, hs.short⟩

theorem text_of_jsonUtilToString {t : Cjson F} (h : EscapesFit w t) {s s' : Arena PrintBuffer} (hlive : s.live = 0)
    (hgranted : ¬ s.Refused m.available) {text : Bytes}
    (hprinted : jsonUtilToString m w format t s = some (.ok text, s')) : text = (member format.text t).2.print := by
  obtain ⟨r, s'', hrun, hdone, -⟩ :=
    (printUnformatted_meets h : Meets _ (printUnformatted m w format t) _ _) s ⟨hlive, hgranted⟩
  rw [jsonUtilToString, hrun] at hprinted
  cases r with
  | none => cases hprinted
  | some printed =>
    cases hprinted
    rw [(hdone printed rfl).content]
    exact takeWhile_append_nul (hdone printed rfl).nul_free []

theorem jsonUtilToString_granted {content : Nat → Nat → UInt8} {t : Cjson F} (h : EscapesFit w t)
    {s : Arena PrintBuffer} (hlive : s.live = 0) (hshort : (member format.text t).2.print.length + 2 ≤ intMax) :
    ∃ s', jsonUtilToString ⟨fun _ => true, content⟩ w format t s = some (.ok (member format.text t).2.print, s') := by
  have hgranted (s : Arena PrintBuffer) : ¬ s.Refused fun _ => true := by
    rintro ⟨k, -, hk⟩
    cases hk
  obtain ⟨r, s', hrun, hdone, hfailed⟩ :=
    (printUnformatted_meets h : Meets _ (printUnformatted ⟨fun _ => true, content⟩ w format t) _ _) s
      ⟨hlive, hgranted s⟩
  cases r with
  | none => exact absurd ((hfailed rfl).cause.resolve_left (hgranted s')) (Nat.not_lt.2 hshort)
  | some printed =>
    refine ⟨s', ?_⟩
    rw [jsonUtilToString, hrun, Option.map_some, (hdone printed rfl).content]
    have hbytes := takeWhile_append_nul (hdone printed rfl).nul_free []
    simp only [CString.ofBuffer, hbytes]

/-- **The text of the tree or nothing.** Whatever is in new blocks, `json_util_to_string` stays inside its buffers. With
memory it does what `JsonUtil.toString` says, and without it fails; all it leaves allocated is the text it returns. -/
theorem jsonUtilToString_spec {t : Cjson F} (h : EscapesFit w t) {s : Arena PrintBuffer} (hlive : s.live = 0)
    (hgranted : ¬ s.Refused m.available) :
    ∃ result s', jsonUtilToString m w format t s = some (result, s') ∧
      (¬ s'.Refused m.available → result = JsonUtil.toString (member format.text t).2) ∧
      (s'.Refused m.available → result = .error .fail) ∧
      s'.live = if result.isOk then 1 else 0 := by
  obtain ⟨r, s', hrun, hprinted, hfailed⟩ :=
    (printUnformatted_meets h : Meets _ (printUnformatted m w format t) _ _) s ⟨hlive, hgranted⟩
  cases r with
  | none =>
    obtain ⟨hlive', hcause⟩ := hfailed rfl
    refine ⟨.error .fail, s', ?_, fun hall => ?_, fun _ => rfl, hlive'⟩
    · rw [jsonUtilToString, hrun]
      rfl
    · rw [JsonUtil.toString, if_neg (Nat.not_le.2 (hcause.resolve_left hall))]
  | some printed =>
    have hdone := hprinted printed rfl
    have hbytes : (CString.ofBuffer printed).bytes = (member format.text t).2.print := by
      rw [hdone.content]
      exact takeWhile_append_nul hdone.nul_free []
    refine ⟨.ok (member format.text t).2.print, s', ?_, fun _ => ?_, fun hrefused => absurd hrefused hdone.granted,
      hdone.live⟩
    · simp only [jsonUtilToString, hrun, Option.map_some, hbytes]
    · rw [JsonUtil.toString, if_pos hdone.short]

end

/-- Whole numbers, which `"%d"` prints. -/
def wholeNumbers : NumberText (Fin (2 ^ 31)) where
  text d := numberText d
  length_text d := (length_numberText_le (by decide : 0 < 10) (by omega)).trans (by decide)
  nul_free d h := absurd (isDigit_numberText h) (by decide)

def sampleTree : Cjson (Fin (2 ^ 31)) :=
  .node ⟨.object, none⟩ [.node ⟨.array, some (.lit "a")⟩ [.node ⟨.number 7, none⟩ [],
    .node ⟨.string (.lit "\n"), none⟩ []]]

theorem sampleTree_escapesFit : EscapesFit 32 sampleTree := by
  have hleaf {type : ItemType (Fin (2 ^ 31))} (htype : ∀ s, type = .string s → s = .lit "\n") :
      EscapesFit 32 (.node ⟨type, none⟩ []) := by
    refine Rose.Everywhere.leaf fun s hs => ?_
    rw [htype s (hs.resolve_right fun h => by cases h)]
    decide
  refine Rose.everywhere_iff.2 ⟨fun s hs => (by rcases hs with h | h <;> cases h), fun c hc => ?_⟩
  rw [List.mem_singleton.1 hc]
  refine Rose.everywhere_iff.2 ⟨fun s hs => ?_, fun c hc => ?_⟩
  · rw [← Option.some.inj (hs.resolve_left fun h => by cases h)]
    decide
  · rcases List.mem_pair.1 hc with rfl | rfl
    · exact hleaf fun s h => (by cases h)
    · exact hleaf fun s h => (ItemType.string.inj h).symm

/-- `{"a":[7,"\n"]}`, with no zero in a new block -/
theorem jsonUtilToString_sample : ∃ s',
    jsonUtilToString ⟨fun _ => true, fun _ _ => 170⟩ 32 wholeNumbers sampleTree (Arena.start ⟨none, 0⟩) =
      some (.ok (ascii "\x7b\"a\":[7,\"\\n\"]\x7d"), s') := by
  obtain ⟨result, s', hrun, hall, -⟩ := @jsonUtilToString_spec ⟨fun _ => true, fun _ _ => 170⟩ _ 32 wholeNumbers _
    sampleTree_escapesFit (Arena.start ⟨none, 0⟩) rfl (by rintro ⟨k, hk, -⟩; cases hk)
  rw [hall (by rintro ⟨k, -, hk⟩; cases hk)] at hrun
  exact ⟨s', hrun⟩

end MindConnect.CjsonPrint
