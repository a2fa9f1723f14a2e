import MindConnect.Core.JsonForest
import MindConnect.Lib.Fallible
import MindConnect.Lib.Hex

/-!
# The printer of cJSON

`json_util_to_string` prints through a buffer that grows: `ensure` moves the text to a block twice as large as needed,
and no block is larger than `INT_MAX`. A string is measured first and written then. What is printed is `Json.print` of
the tree whatever new blocks have in them, or nothing (`jsonUtilToString_spec` in `PrintedText`).

| here | there |
| --- | --- |
| `PrintBuffer` | `printbuffer` (`cJSON.c:435`) without its formatting |
| `ensure`, `updateOffset` | `ensure` (`:447`), `update_offset` (`:533`) |
| `printNumber`, `printStringPtr` | `print_number` (`:553`), `print_string_ptr` (`:911`) |
| `printValue`, `printElements`, `printMembers` | `print_value` (`:1380`), loops of `print_array` (`:1552`), `print_object` (`:1732`) |
| `printUnformatted` | `cJSON_PrintUnformatted` (`:1269`): `print` (`:1196`) |

`json_util_initialize_json_library` gives cJSON its own allocation functions, so that there is no `reallocate`. A false
`cJSON_bool` is a failure. Sizes have `w` bits; only the length of an escaped string is not known to be small.
-/

namespace MindConnect.CjsonPrint

open JsonBuilder JsonUtil Fallible
open Arena (allocate release update)

/-! ## The code -/

structure PrintBuffer where
  /-- `length` is the size of the block. -/
  buffer : Option Bytes
  offset : Nat

abbrev Print := Fallible (Arena PrintBuffer)

structure Memory where
  available : Nat → Bool
  /-- What is in a new block. -/
  content : Nat → Nat → UInt8

def Memory.block (m : Memory) (k size : Nat) : Bytes := (List.range size).map (m.content k)

/-- `sprintf` with `"%d"`, `"%1.15g"` or `"%1.17g"`, or `null` for what is no number. -/
structure NumberText (F : Type) where
  text : F → Bytes
  length_text : ∀ d, (text d).length ≤ 25
  nul_free : ∀ d, 0 ∉ text d

section
variable {F : Type} (m : Memory) (w : Nat) (format : NumberText F)

/-- Behind a new block without memory: the old one is freed. -/
def dropBuffer : Print Unit := do
  release 1
  update fun p => { p with buffer := none }

def grow (buffer : Bytes) (newsize : Nat) : Print Unit := do
  let s ← get
  onFailure (allocate m.available) dropBuffer
  -- memcpy(newbuffer, p->buffer, p->offset + 1)
  let copied ← access (if s.data.offset + 1 ≤ buffer.length then some (buffer.take (s.data.offset + 1)) else none)
  let newbuffer ← access (Bytes.write (m.block s.allocations newsize) 0 copied)
  release 1
  update fun p => { p with buffer := some newbuffer }

/-- Room for `needed` bytes behind the offset, and one more. -/
def ensure (needed : Nat) : Print Unit := do
  let s ← get
  match s.data.buffer with
  | none => fail
  | some buffer =>
    if 0 < buffer.length ∧ buffer.length ≤ s.data.offset then fail
    else if intMax < needed then fail
    else
      let needed := needed + (s.data.offset + 1)
      if needed ≤ buffer.length then pure ()
      else if intMax / 2 < needed then
        if needed ≤ intMax then grow m buffer intMax else fail
      else grow m buffer (needed * 2)

/-- Bytes at a distance from the offset, where `output_pointer` is. -/
def put (distance : Nat) (bs : Bytes) : Print Unit := do
  let s ← get
  let buffer ← access s.data.buffer
  let buffer ← access (Bytes.write buffer (s.data.offset + distance) bs)
  update fun p => { p with buffer := some buffer }

def advance (n : Nat) : Print Unit := update fun p => { p with offset := p.offset + n }

/-- `strlen` -/
def strlen (bs : Bytes) : Option Nat := if 0 ∈ bs then some (bs.takeWhile (· != 0)).length else none

def updateOffset : Print Unit := do
  let s ← get
  match s.data.buffer with
  | none => pure ()
  | some buffer => do
    let n ← access (strlen (buffer.drop s.data.offset))
    advance n

def numberBufferSize : Nat := 26

def printNumber (d : F) : Print Unit := do
  let text := format.text d
  check (text.length ≤ numberBufferSize - 1)
  ensure m (text.length + 1)
  put 0 (text ++ [0])
  advance text.length

/-- What escaping adds to a byte. -/
def escapeCharacters (b : UInt8) : Nat :=
  if b = 34 ∨ b = 92 ∨ b = 8 ∨ b = 12 ∨ b = 10 ∨ b = 13 ∨ b = 9 then 1 else if b < 32 then 5 else 0

/-- The letter behind the backslash. -/
def escapeLetter (b : UInt8) : Option UInt8 :=
  if b = 92 then some 92 else if b = 34 then some 34 else if b = 8 then some 98 else if b = 12 then some 102
  else if b = 10 then some 110 else if b = 13 then some 114 else if b = 9 then some 116 else none

/-- The string is copied from this distance on; `sprintf` ends what it writes with a NUL. -/
def escapeLoop : Bytes → Nat → Print Unit
  | [], _ => pure ()
  | b :: input, distance =>
    if 31 < b ∧ b ≠ 34 ∧ b ≠ 92 then do
      put distance [b]
      escapeLoop input (distance + 1)
    else do
      put distance [92]
      match escapeLetter b with
      | some letter => do
        put (distance + 1) [letter]
        escapeLoop input (distance + 2)
      | none => do
        put (distance + 1) (117 :: Hex.padded 4 b.toNat ++ [0])
        escapeLoop input (distance + 6)

def printStringPtr (input : Option CString) : Print Unit :=
  match input with
  | none => do
    ensure m 3
    put 0 [34, 34, 0]
  | some input => do
    let escapes := (input.bytes.map escapeCharacters).sum
    let outputLength := (input.length + escapes) % 2 ^ w
    ensure m ((outputLength + 3) % 2 ^ w)
    if escapes = 0 then do
      put 0 [34]
      put 1 (input.bytes.take outputLength)
      put (outputLength + 1) [34, 0]
    else do
      put 0 [34]
      escapeLoop input.bytes 1
      put (outputLength + 1) [34, 0]

mutual

def printValue : Cjson F → Print Unit
  | .node l cs =>
    match l.type with
    | .null => do
      ensure m 5
      put 0 (ascii "null" ++ [0])
    | .bool false => do
      ensure m 6
      put 0 (ascii "false" ++ [0])
    | .bool true => do
      ensure m 5
      put 0 (ascii "true" ++ [0])
    | .number d => printNumber m format d
    | .string s => printStringPtr m w (some s)
    | .array => do
      ensure m 1
      put 0 [91]
      advance 1
      printElements cs
      ensure m 2
      put 0 [93, 0]
    | .object => do
      ensure m 2
      put 0 [123]
      advance 1
      printMembers cs
      ensure m 2
      put 0 [125, 0]

def printElements : List (Cjson F) → Print Unit
  | [] => pure ()
  | [c] => do
    printValue c
    updateOffset
  | c :: d :: cs => do
    printValue c
    updateOffset
    ensure m 2
    put 0 [44, 0]
    advance 1
    printElements (d :: cs)

def printMembers : List (Cjson F) → Print Unit
  | [] => pure ()
  | [c] => do
    printMember c
    ensure m 1
    put 0 [0]
  | c :: d :: cs => do
    printMember c
    ensure m 2
    put 0 [44, 0]
    advance 1
    printMembers (d :: cs)

/-- Key and value. -/
def printMember : Cjson F → Print Unit
  | .node l cs => do
    printStringPtr m w l.name
    updateOffset
    ensure m 1
    put 0 [58]
    advance 1
    printValue (.node l cs)
    updateOffset

end

def defaultBufferSize : Nat := 256

def freeBuffer : Print Unit := do
  let s ← get
  if s.data.buffer.isSome then dropBuffer else pure ()

/-- The text in a block of its own. -/
def copyOut : Print Bytes := do
  let s ← get
  let buffer ← access s.data.buffer
  allocate m.available
  let printed := m.block s.allocations (s.data.offset + 1)
  let printed ← access (Bytes.write printed 0 (buffer.take (min buffer.length (s.data.offset + 1))))
  let printed ← access (Bytes.write printed s.data.offset [0])
  return printed

def printUnformatted (t : Cjson F) : Print Bytes := do
  let s ← get
  allocate m.available
  update fun _ => ⟨some (m.block s.allocations defaultBufferSize), 0⟩
  let printed ← onFailure
    (do
      printValue m w format t
      updateOffset
      copyOut m)
    freeBuffer
  dropBuffer
  return printed

/-- `json_util_to_string` (`json_util.c:809`) -/
def jsonUtilToString (t : Cjson F) (s : Arena PrintBuffer) : Option (Result Bytes × Arena PrintBuffer) :=
  (printUnformatted m w format t s).map fun r =>
    (match r.1 with
     | some printed => .ok (CString.ofBuffer printed).bytes
     | none => .error .fail, r.2)

end

/-! ## The buffer -/

variable {m : Memory}

/-- The text up to the offset, what has been written behind it, and room for so many bytes and one more. -/
structure Buffered (m : Memory) (text behind : Bytes) (room : Nat) (s : Arena PrintBuffer) : Prop where
  block : ∃ rest, s.data.buffer = some (text ++ (behind ++ rest)) ∧ room < behind.length + rest.length ∧
    text.length + (behind.length + rest.length) ≤ intMax
  offset : s.data.offset = text.length
  nul_free : 0 ∉ text
  live : s.live = 1
  granted : ¬ s.Refused m.available

/-- Nothing is held but the buffer, and there is a reason. -/
structure Abandoned (m : Memory) (limit : Nat) (s : Arena PrintBuffer) : Prop where
  live : s.live = if s.data.buffer.isSome then 1 else 0
  cause : s.Refused m.available ∨ intMax < limit + 2

theorem Abandoned.mono {limit limit' : Nat} (h : limit ≤ limit') {s : Arena PrintBuffer} (hs : Abandoned m limit s) :
    Abandoned m limit' s :=
  ⟨hs.live, hs.cause.imp_right fun hlt => by omega⟩

theorem Buffered.shrink {text behind : Bytes} {room room' : Nat} (hroom : room' ≤ room) {s : Arena PrintBuffer}
    (h : Buffered m text behind room s) : Buffered m text [] room' s := by
  obtain ⟨rest, hbuffer, hlt, hle⟩ := h.block
  refine ⟨⟨behind ++ rest, hbuffer, ?_, ?_⟩, h.offset, h.nul_free, h.live, h.granted⟩
  · simp only [List.length_append, List.length_nil]
    omega
  · simp only [List.length_append, List.length_nil]
    omega

theorem put_meets {text behind bs : Bytes} {room distance : Nat} (hdistance : distance ≤ behind.length)
    (hroom : distance + bs.length ≤ room + 1) {E : Arena PrintBuffer → Prop} :
    Meets (Buffered m text behind room) (put distance bs)
      (fun _ => Buffered m text (behind.take distance ++ bs) room) E := by
  rintro s ⟨⟨rest, hbuffer, hlt, hle⟩, hoffset, hfree, hlive, hgranted⟩
  obtain ⟨buffer', hwrite, hrest⟩ : ∃ buffer',
      Bytes.write (text ++ (behind ++ rest)) (s.data.offset + distance) bs = some buffer' ∧
        ∃ rest', buffer' = text ++ (behind.take distance ++ bs ++ rest') ∧
        distance + bs.length + rest'.length = behind.length + rest.length := by
    have hfits : s.data.offset + distance + bs.length ≤ (text ++ (behind ++ rest)).length := by
      simp only [List.length_append, hoffset]
      omega
    refine ⟨_, Bytes.write_eq_some hfits, (text ++ (behind ++ rest)).drop (s.data.offset + distance + bs.length), ?_,
      ?_⟩
    · rw [hoffset, List.take_length_add_append, List.take_append_of_le_length hdistance, List.append_assoc,
        List.append_assoc, List.append_assoc]
    · simp only [List.length_drop, List.length_append, hoffset]
      omega
  obtain ⟨rest', rfl, hlength⟩ := hrest
  refine ⟨some (), { s with data.buffer := some (text ++ (behind.take distance ++ bs ++ rest')) }, ?_, ?_, ?_⟩
  · simp only [put, bind, Fallible.bind, Fallible.get, Fallible.access, hbuffer, Option.map_some, hwrite, update,
      Fallible.modify]
  · rintro u ⟨⟩
    refine ⟨⟨rest', rfl, ?_, ?_⟩, hoffset, hfree, hlive, hgranted⟩
    · simp only [List.length_append, List.length_take, Nat.min_eq_left hdistance]
      omega
    · simp only [List.length_append, List.length_take, Nat.min_eq_left hdistance]
      omega
  · intro h
    cases h

theorem grow_meets {text behind rest : Bytes} {needed newsize : Nat} (hrest : behind.length + rest.length ≠ 0)
    (hneeded : text.length + needed + 1 ≤ newsize) (hnewsize : newsize ≤ intMax) (limit : Nat) :
    Meets (fun s => Buffered m text behind 0 s ∧ s.data.buffer = some (text ++ (behind ++ rest)))
      (grow m (text ++ (behind ++ rest)) newsize) (fun _ => Buffered m text [] needed) (Abandoned m limit) := by
  rintro s ⟨⟨-, hoffset, hfree, hlive, hgranted⟩, hbuffer⟩
  have hcopied : s.data.offset + 1 ≤ (text ++ (behind ++ rest)).length := by
    simp only [List.length_append, hoffset]
    omega
  cases havailable : m.available s.allocations with
  | false =>
    refine ⟨none, ⟨s.allocations + 1, 0, { s.data with buffer := none }⟩, ?_, fun a ha => (by cases ha),
      fun _ => ⟨rfl, ?_⟩⟩
    · simp only [grow, bind, Fallible.bind, Fallible.get, Fallible.onFailure, allocate, havailable, dropBuffer, release,
        update, Fallible.modify, hlive, Option.map_some, if_neg Bool.false_ne_true, Nat.le_refl, if_true, Nat.sub_self]
    · exact .inl ((Arena.refused_succ rfl).2 (.inr havailable))
  | true =>
    have hblock : (m.block s.allocations newsize).length = newsize := by simp [Memory.block]
    have hlength : ((text ++ (behind ++ rest)).take (s.data.offset + 1)).length = s.data.offset + 1 :=
      List.length_take_of_le hcopied
    have hwrite : Bytes.write (m.block s.allocations newsize) 0 ((text ++ (behind ++ rest)).take (s.data.offset + 1)) =
        _ := Bytes.write_eq_some (by omega)
    have htake : (text ++ (behind ++ rest)).take (s.data.offset + 1) = text ++ (behind ++ rest).take 1 := by
      rw [hoffset, List.take_length_add_append]
    rw [List.take_zero, List.nil_append, hlength, htake, List.append_assoc] at hwrite
    refine ⟨some (), ⟨s.allocations + 1, 1, { s.data with buffer := some (text ++ ((behind ++ rest).take 1 ++
      (m.block s.allocations newsize).drop (0 + (s.data.offset + 1)))) }⟩, ?_, ?_, fun h => by cases h⟩
    · simp only [grow, bind, Fallible.bind, Fallible.get, Fallible.onFailure, allocate, havailable, if_true,
        Fallible.access, if_pos hcopied, htake, Option.map_some, hwrite, release, hlive, update, Fallible.modify]
      rfl
    · rintro u ⟨⟩
      have hone : ((behind ++ rest).take 1).length = 1 :=
        List.length_take_of_le (by simp only [List.length_append]; omega)
      refine ⟨⟨_, by rw [List.nil_append], ?_, ?_⟩, hoffset, hfree, rfl, ?_⟩
      · simp only [List.length_nil, List.length_append, List.length_drop, hone, hblock, hoffset]
        omega
      · simp only [List.length_nil, List.length_append, List.length_drop, hone, hblock, hoffset]
        omega
      · rw [Arena.refused_succ rfl]
        rintro (h | h)
        · exact hgranted h
        · rw [havailable] at h
          cases h

theorem ensure_meets {text behind : Bytes} {room needed limit : Nat} (hlimit : text.length + needed ≤ limit + 1) :
    Meets (Buffered m text behind room) (ensure m needed) (fun _ => Buffered m text [] needed) (Abandoned m limit) := by
  intro s hs
  obtain ⟨rest, hbuffer, hlt, hle⟩ := hs.block
  have hoffset := hs.offset
  have hlength : (text ++ (behind ++ rest)).length = text.length + (behind.length + rest.length) := by
    simp only [List.length_append]
  have hrun : ensure m needed s =
      (if 0 < (text ++ (behind ++ rest)).length ∧ (text ++ (behind ++ rest)).length ≤ s.data.offset then fail
        else if intMax < needed then fail
        else if needed + (s.data.offset + 1) ≤ (text ++ (behind ++ rest)).length then pure ()
        else if intMax / 2 < needed + (s.data.offset + 1) then
          if needed + (s.data.offset + 1) ≤ intMax then grow m (text ++ (behind ++ rest)) intMax else fail
        else grow m (text ++ (behind ++ rest)) ((needed + (s.data.offset + 1)) * 2) : Print Unit) s := by
    simp only [ensure, bind, Fallible.bind, Fallible.get, hbuffer]
  have htoolong (h : intMax < limit + 2) :
      ∃ r s', (fail : Print Unit) s = some (r, s') ∧ (∀ a, r = some a → Buffered m text [] needed s') ∧
        (r = none → Abandoned m limit s') := by
    refine ⟨none, s, rfl, fun a ha => (by cases ha), fun _ => ⟨?_, .inr h⟩⟩
    rw [hbuffer, hs.live]
    rfl
  have hgrow {newsize : Nat} (hneeded : text.length + needed + 1 ≤ newsize) (hnewsize : newsize ≤ intMax) :=
    grow_meets (m := m) (by omega : behind.length + rest.length ≠ 0) hneeded hnewsize limit s
      ⟨⟨⟨rest, hbuffer, by omega, hle⟩, hoffset, hs.nul_free, hs.live, hs.granted⟩, hbuffer⟩
  rw [hrun, hlength, hoffset, if_neg (by omega)]
  by_cases hneeded : intMax < needed
  · rw [if_pos hneeded]
    exact htoolong (by omega)
  rw [if_neg hneeded]
  by_cases hfits : needed + (text.length + 1) ≤ text.length + (behind.length + rest.length)
  · rw [if_pos hfits]
    refine ⟨some (), s, rfl, ?_, fun h => by cases h⟩
    rintro u ⟨⟩
    exact (Buffered.shrink (Nat.le_refl _) ⟨⟨rest, hbuffer, by omega, hle⟩, hoffset, hs.nul_free, hs.live, hs.granted⟩)
  rw [if_neg hfits]
  by_cases hhalf : intMax / 2 < needed + (text.length + 1)
  · rw [if_pos hhalf]
    by_cases hmax : needed + (text.length + 1) ≤ intMax
    · rw [if_pos hmax]
      exact hgrow (by omega) (Nat.le_refl _)
    · rw [if_neg hmax]
      exact htoolong (by omega)
  · rw [if_neg hhalf]
    exact hgrow (by omega) (by omega)

/-- More may have been written than is of interest. -/
theorem Buffered.cut {text behind more : Bytes} {room : Nat} {s : Arena PrintBuffer}
    (h : Buffered m text (behind ++ more) room s) : Buffered m text behind room s := by
  obtain ⟨rest, hbuffer, hlt, hle⟩ := h.block
  rw [List.append_assoc] at hbuffer
  rw [List.length_append] at hlt hle
  refine ⟨⟨more ++ rest, hbuffer, ?_, ?_⟩, h.offset, h.nul_free, h.live, h.granted⟩
  · rw [List.length_append]
    omega
  · rw [List.length_append]
    omega

theorem advance_meets {text passed behind : Bytes} {room n : Nat} (hn : n = passed.length) (hroom : n ≤ room)
    (hfree : 0 ∉ passed) {E : Arena PrintBuffer → Prop} :
    Meets (Buffered m text (passed ++ behind) room) (advance n) (fun _ => Buffered m (text ++ passed) behind (room - n))
      E := by
  refine Arena.meets_update fun s h => ?_
  obtain ⟨rest, hbuffer, hlt, hle⟩ := h.block
  rw [List.length_append] at hlt hle
  refine ⟨⟨rest, ?_, ?_, ?_⟩, ?_, ?_, h.live, h.granted⟩
  · simp only [hbuffer, List.append_assoc]
  · omega
  · rw [List.length_append]
    omega
  · simp only [h.offset, hn, List.length_append]
  · rw [List.mem_append, not_or]
    exact ⟨h.nul_free, hfree⟩

/-- What has been printed, whose end is behind the offset. -/
def Pending (m : Memory) (printed : Bytes) (s : Arena PrintBuffer) : Prop :=
  ∃ text more, printed = text ++ more ∧ 0 ∉ more ∧ Buffered m text (more ++ [0]) (more.length + 1) s

theorem takeWhile_append_nul {bs : Bytes} (h : 0 ∉ bs) (rest : Bytes) : (bs ++ 0 :: rest).takeWhile (· != 0) = bs := by
  have hne : ∀ b ∈ bs, (b != 0) = true := fun b hb => bne_iff_ne.2 fun he => h (he ▸ hb)
  rw [List.takeWhile_append_of_pos hne]
  simp

theorem strlen_append {bs rest : Bytes} (h : 0 ∉ bs) : strlen (bs ++ 0 :: rest) = some bs.length := by
  rw [strlen, if_pos (by simp), takeWhile_append_nul h]

theorem updateOffset_meets {printed : Bytes} {E : Arena PrintBuffer → Prop} :
    Meets (Pending m printed) updateOffset (fun _ => Buffered m printed [] 1) E := by
  rintro s ⟨text, more, rfl, hmore, h⟩
  obtain ⟨rest, hbuffer, -, -⟩ := h.block
  have hstrlen : strlen ((text ++ (more ++ [0] ++ rest)).drop s.data.offset) = some more.length := by
    rw [h.offset, List.drop_left, List.append_assoc]
    exact strlen_append hmore
  have hrun : updateOffset s = advance more.length s := by
    simp only [updateOffset, bind, Fallible.bind, Fallible.get, hbuffer, Fallible.access, hstrlen, Option.map_some]
  have hadvance : Meets (Buffered m text (more ++ [0]) (more.length + 1)) (advance more.length)
      (fun _ => Buffered m (text ++ more) [0] (more.length + 1 - more.length)) E :=
    advance_meets rfl (Nat.le_succ _) hmore
  rw [hrun]
  refine (hadvance.post fun _ s h => ?_) s h
  exact h.shrink (by omega)

theorem put_end {text part bs : Bytes} {room distance : Nat} (hdistance : distance = part.length)
    (hroom : distance + bs.length ≤ room + 1) {E : Arena PrintBuffer → Prop} :
    Meets (Buffered m text part room) (put distance bs) (fun _ => Buffered m text (part ++ bs) room) E := by
  subst hdistance
  have hput : Meets (Buffered m text part room) (put part.length bs)
      (fun _ => Buffered m text (part.take part.length ++ bs) room) E := put_meets (Nat.le_refl _) hroom
  rwa [List.take_length] at hput

end MindConnect.CjsonPrint
