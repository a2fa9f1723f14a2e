import MindConnect.Lib.Json
import MindConnect.Lib.Scan
import Mathlib.Algebra.Order.Field.Rat

/-!
# Reading JSON text

A reader for the whole grammar, white space and escapes included. It reads back what `print` wrote, if the numbers of
the tree are written as numbers are.
-/

namespace Json

/-! ## Numbers -/

def isNumberByte (b : UInt8) : Bool := Scan.isDigit 10 b || (ascii "+-.eE").contains b

def skipMinus : Bytes → Bytes
  | 45 :: s => s
  | s => s

def isDigits (s : Bytes) : Bool := s != [] && s.all (Scan.isDigit 10)

/-- Nothing, or an `e` with an exponent. -/
def isExponent : Bytes → Bool
  | [] => true
  | b :: s => (b == 101 || b == 69) && isDigits (Scan.sign s).2

/-- A fraction or not, then an exponent or not. -/
def isFraction : Bytes → Bool
  | 46 :: s => s.takeWhile (Scan.isDigit 10) != [] && isExponent (s.dropWhile (Scan.isDigit 10))
  | s => isExponent s

def isNumber (text : Bytes) : Bool :=
  let s := skipMinus text
  s.takeWhile (Scan.isDigit 10) != [] && isFraction (s.dropWhile (Scan.isDigit 10))

/-- The digits of a fraction, if there is one, and the rest. -/
def splitFraction : Bytes → Bytes × Bytes
  | 46 :: s => (s.takeWhile (Scan.isDigit 10), s.dropWhile (Scan.isDigit 10))
  | s => ([], s)

def exponentValue : Bytes → Int
  | [] => 0
  | _ :: s => (if (Scan.sign s).1 then -1 else 1) * Scan.value 10 (Scan.sign s).2

/-- The number that a text stands for. -/
def numberValue (text : Bytes) : ℚ :=
  let (negative, s) := Scan.sign text
  let whole := s.takeWhile (Scan.isDigit 10)
  let (fraction, s) := splitFraction (s.dropWhile (Scan.isDigit 10))
  (if negative then -1 else 1) * Scan.value 10 (whole ++ fraction) * 10 ^ (exponentValue s - fraction.length)

/-! ## Strings -/

def readHex : Bytes → Option Nat := fun digits =>
  if digits.all (Scan.isDigit 16) then some (Scan.value 16 digits) else none

/-- A code point in UTF-8. -/
def utf8 (c : Nat) : Bytes :=
  if c < 0x80 then [c.toUInt8]
  else if c < 0x800 then [(0xC0 + c / 64).toUInt8, (0x80 + c % 64).toUInt8]
  else if c < 0x10000 then [(0xE0 + c / 4096).toUInt8, (0x80 + c / 64 % 64).toUInt8, (0x80 + c % 64).toUInt8]
  else [(0xF0 + c / 262144).toUInt8, (0x80 + c / 4096 % 64).toUInt8, (0x80 + c / 64 % 64).toUInt8,
    (0x80 + c % 64).toUInt8]

/-- The low half of a surrogate pair. -/
def readLow : Bytes → Option (Nat × Bytes)
  | 92 :: 117 :: a :: b :: c :: d :: s => do
    let low ← readHex [a, b, c, d]
    if 0xDC00 ≤ low ∧ low ≤ 0xDFFF then some (low - 0xDC00, s) else none
  | _ => none

/-- What an escape stands for, behind the backslash. -/
def readEscape : Bytes → Option (Bytes × Bytes)
  | 34 :: s => some ([34], s)
  | 92 :: s => some ([92], s)
  | 47 :: s => some ([47], s)
  | 98 :: s => some ([8], s)
  | 102 :: s => some ([12], s)
  | 110 :: s => some ([10], s)
  | 114 :: s => some ([13], s)
  | 116 :: s => some ([9], s)
  | 117 :: a :: b :: c :: d :: s => do
    let code ← readHex [a, b, c, d]
    if 0xDC00 ≤ code ∧ code ≤ 0xDFFF then none
    else if 0xD800 ≤ code ∧ code ≤ 0xDBFF then do
      let (low, s) ← readLow s
      some (utf8 (0x10000 + (code - 0xD800) * 0x400 + low), s)
    else some (utf8 code, s)
  | _ => none

/-- The characters up to the closing quote. -/
def readChars : Nat → Bytes → Option (Bytes × Bytes)
  | 0, _ => none
  | _ + 1, [] => none
  | fuel + 1, b :: s =>
    if b = 34 then some ([], s)
    else if b = 92 then do
      let (c, s) ← readEscape s
      let (cs, s) ← readChars fuel s
      some (c ++ cs, s)
    else if b < 32 then none
    else do
      let (cs, s) ← readChars fuel s
      some (b :: cs, s)

/-- A string behind its opening quote, up to a NUL if it has one. -/
def readString (s : Bytes) : Option (CString × Bytes) := do
  let (cs, s) ← readChars (s.length + 1) s
  some (CString.ofBuffer cs, s)

/-! ## Values -/

def isWhite (b : UInt8) : Bool := b == 32 || b == 9 || b == 10 || b == 13

def skipWhite (s : Bytes) : Bytes := s.dropWhile isWhite

/-- A name of the language or a number. -/
def readWord (s : Bytes) : Option (Json × Bytes) :=
  match Scan.literal (ascii "null") s, Scan.literal (ascii "true") s, Scan.literal (ascii "false") s with
  | some s, _, _ => some (null, s)
  | _, some s, _ => some (bool true, s)
  | _, _, some s => some (bool false, s)
  | _, _, _ =>
    let text := s.takeWhile isNumberByte
    if isNumber text then some (number text, s.dropWhile isNumberByte) else none

def readColon (s : Bytes) : Option Bytes :=
  match skipWhite s with
  | [] => none
  | b :: s => if b = 58 then some s else none

/-- Behind an element or a member: `true` after a comma, `false` after the closing bracket. -/
def readSeparator (close : UInt8) (s : Bytes) : Option (Bool × Bytes) :=
  match skipWhite s with
  | [] => none
  | b :: s => if b = 44 then some (true, s) else if b = close then some (false, s) else none

mutual

def readValue : Nat → Bytes → Option (Json × Bytes)
  | 0, _ => none
  | fuel + 1, s =>
    match skipWhite s with
    | [] => none
    | b :: s =>
      if b = 34 then do
        let (value, s) ← readString s
        some (string value, s)
      else if b = 91 then
        if (skipWhite s).head? = some 93 then some (array [], (skipWhite s).tail)
        else do
          let (elements, s) ← readElements fuel s
          some (array elements, s)
      else if b = 123 then
        if (skipWhite s).head? = some 125 then some (object [], (skipWhite s).tail)
        else do
          let (members, s) ← readMembers fuel s
          some (object members, s)
      else readWord (b :: s)

def readElements : Nat → Bytes → Option (List Json × Bytes)
  | 0, _ => none
  | fuel + 1, s => do
    let (element, s) ← readValue fuel s
    let (more, s) ← readSeparator 93 s
    if more then do
      let (elements, s) ← readElements fuel s
      some (element :: elements, s)
    else some ([element], s)

def readMembers : Nat → Bytes → Option (List (CString × Json) × Bytes)
  | 0, _ => none
  | fuel + 1, s =>
    match skipWhite s with
    | [] => none
    | b :: s =>
      if b = 34 then do
        let (name, s) ← readString s
        let s ← readColon s
        let (value, s) ← readValue fuel s
        let (more, s) ← readSeparator 125 s
        if more then do
          let (members, s) ← readMembers fuel s
          some ((name, value) :: members, s)
        else some ([(name, value)], s)
      else none

end

/-- A whole text. -/
def read (text : Bytes) : Option Json := do
  let (value, rest) ← readValue (text.length + 1) text
  if skipWhite rest = [] then some value else none

/-! ## Reading what was printed -/

/-- What ends a number. -/
def EndsNumber (rest : Bytes) : Prop := ∀ b ∈ rest.head?, isNumberByte b = false

theorem readEscape_control {b : UInt8} (hb : b < 32) (rest : Bytes) :
    readEscape (117 :: 48 :: 48 :: hexDigit (b / 16) :: hexDigit (b % 16) :: rest) = some ([b], rest) := by
  have hcode : ∀ n < 32, readHex [48, 48, hexDigit (UInt8.ofNat n / 16), hexDigit (UInt8.ofNat n % 16)] = some n ∧
      utf8 n = [UInt8.ofNat n] := by decide
  have hlt : b.toNat < 32 := by simpa [UInt8.lt_iff_toNat_lt] using hb
  obtain ⟨hread, hutf8⟩ := hcode b.toNat hlt
  rw [UInt8.ofNat_toNat] at hread hutf8
  rw [readEscape]
  simp only [hread, bind, Option.bind]
  rw [if_neg (by omega), if_neg (by omega), hutf8]

theorem readChars_escape {c s s' : Bytes} (h : readEscape s = some (c, s')) (fuel : Nat) :
    readChars (fuel + 1) (92 :: s) = (readChars fuel s').map fun r => (c ++ r.1, r.2) := by
  rw [readChars, if_neg (by decide), if_pos rfl, h]
  show (readChars fuel s').bind _ = _
  cases readChars fuel s' <;> rfl

theorem readChars_escapeByte (b : UInt8) (fuel : Nat) (rest : Bytes) :
    readChars (fuel + 1) (escapeByte b ++ rest) = (readChars fuel rest).map fun r => (b :: r.1, r.2) := by
  have hcontrol : ∀ c : UInt8, readEscape (c :: rest) = some ([b], rest) →
      readChars (fuel + 1) ([92, c] ++ rest) = (readChars fuel rest).map fun r => (b :: r.1, r.2) :=
    fun c h => readChars_escape h fuel
  unfold escapeByte
  by_cases h34 : b = 34
  · rw [if_pos h34]; exact hcontrol 34 (by subst h34; rfl)
  rw [if_neg h34]
  by_cases h92 : b = 92
  · rw [if_pos h92]; exact hcontrol 92 (by subst h92; rfl)
  rw [if_neg h92]
  by_cases h8 : b = 8
  · rw [if_pos h8]; exact hcontrol 98 (by subst h8; rfl)
  rw [if_neg h8]
  by_cases h12 : b = 12
  · rw [if_pos h12]; exact hcontrol 102 (by subst h12; rfl)
  rw [if_neg h12]
  by_cases h10 : b = 10
  · rw [if_pos h10]; exact hcontrol 110 (by subst h10; rfl)
  rw [if_neg h10]
  by_cases h13 : b = 13
  · rw [if_pos h13]; exact hcontrol 114 (by subst h13; rfl)
  rw [if_neg h13]
  by_cases h9 : b = 9
  · rw [if_pos h9]; exact hcontrol 116 (by subst h9; rfl)
  rw [if_neg h9]
  by_cases h32 : b < 32
  · rw [if_pos h32]
    exact readChars_escape (readEscape_control h32 rest) fuel
  · rw [if_neg h32, List.singleton_append, readChars, if_neg h34, if_neg h92, if_neg h32]
    cases readChars fuel rest <;> rfl

theorem readChars_print (bs : Bytes) (fuel : Nat) (hfuel : (bs.flatMap escapeByte).length < fuel) (rest : Bytes) :
    readChars fuel (bs.flatMap escapeByte ++ 34 :: rest) = some (bs, rest) := by
  induction bs generalizing fuel with
  | nil =>
    obtain ⟨fuel, rfl⟩ := Nat.exists_eq_succ_of_ne_zero (by omega : fuel ≠ 0)
    rfl
  | cons b bs ih =>
    obtain ⟨fuel, rfl⟩ := Nat.exists_eq_succ_of_ne_zero (by omega : fuel ≠ 0)
    have hpos := length_escapeByte_pos b
    rw [List.flatMap_cons, List.length_append] at hfuel
    rw [List.flatMap_cons, List.append_assoc, readChars_escapeByte, ih fuel (by omega)]
    rfl

theorem readString_print (s : CString) (rest : Bytes) :
    readString (s.bytes.flatMap escapeByte ++ 34 :: rest) = some (s, rest) := by
  have hchars := readChars_print s.bytes ((s.bytes.flatMap escapeByte ++ 34 :: rest).length + 1)
    (by rw [List.length_append]; omega) rest
  rw [readString, hchars]
  exact congrArg (fun t : CString => some (t, rest)) (CString.ext (CString.ofBuffer_bytes s.nul_free))

mutual

/-- The numbers are written as numbers are. -/
def Readable : Json → Prop
  | number text => isNumber text = true ∧ ∀ b ∈ text, isNumberByte b = true
  | array elements => ReadableElements elements
  | object members => ReadableMembers members
  | _ => True

def ReadableElements : List Json → Prop
  | [] => True
  | e :: es => Readable e ∧ ReadableElements es

def ReadableMembers : List (CString × Json) → Prop
  | [] => True
  | (_, v) :: ms => Readable v ∧ ReadableMembers ms

end

theorem readableMembers_append {ms ns : List (CString × Json)} (h : ReadableMembers ms) (h' : ReadableMembers ns) :
    ReadableMembers (ms ++ ns) := by
  induction ms with
  | nil => exact h'
  | cons m ms ih => exact ⟨h.1, ih h.2⟩

theorem skipWhite_of_not {b : UInt8} (h : isWhite b = false) (s : Bytes) : skipWhite (b :: s) = b :: s := by
  rw [skipWhite, List.dropWhile_cons_of_neg (by simp [h])]

theorem isNumberByte_spec {b : UInt8} (h : isNumberByte b = true) :
    isWhite b = false ∧ b ∉ [34, 44, 91, 93, 110, 116, 102, 123, 125] := by
  have hall : ∀ c ∈ [32, 9, 10, 13, 34, 44, 91, 93, 110, 116, 102, 123, (125 : UInt8)], isNumberByte c = false := by decide
  constructor
  · cases hw : isWhite b with
    | false => rfl
    | true =>
      simp only [isWhite, Bool.or_eq_true, beq_iff_eq] at hw
      rcases hw with ((rfl | rfl) | rfl) | rfl <;> cases h
  · intro hmem
    rw [hall b (List.mem_cons_of_mem _ (List.mem_cons_of_mem _ (List.mem_cons_of_mem _ (List.mem_cons_of_mem _ hmem))))] at h
    cases h

theorem number_cons {text : Bytes} (h : isNumber text = true) : ∃ b s, text = b :: s := by
  cases text with
  | nil => cases h
  | cons b s => exact ⟨b, s, rfl⟩

theorem literal_of_head_ne {b c : UInt8} (h : c ≠ b) (text s : Bytes) : Scan.literal (c :: text) (b :: s) = none := by
  rw [Scan.literal, if_neg]
  rintro ⟨rest, hrest⟩
  exact h (List.cons.inj hrest).1

theorem span_append {p : UInt8 → Bool} {s rest : Bytes} (hs : ∀ b ∈ s, p b = true)
    (hrest : ∀ b ∈ rest.head?, p b = false) : (s ++ rest).takeWhile p = s ∧ (s ++ rest).dropWhile p = rest := by
  rw [List.takeWhile_append_of_pos hs, List.dropWhile_append_of_pos hs]
  cases rest with
  | nil => exact ⟨List.append_nil _, rfl⟩
  | cons b rest =>
    have hb := Bool.eq_false_iff.1 (hrest b rfl)
    rw [List.takeWhile_cons_of_neg hb, List.dropWhile_cons_of_neg hb]
    exact ⟨List.append_nil _, rfl⟩

theorem readWord_number {text rest : Bytes} (h : isNumber text = true) (hbytes : ∀ b ∈ text, isNumberByte b = true)
    (hrest : EndsNumber rest) : readWord (text ++ rest) = some (number text, rest) := by
  have htake := span_append hbytes hrest
  obtain ⟨b, s, rfl⟩ := number_cons h
  have hb := (isNumberByte_spec (hbytes b List.mem_cons_self)).2
  have hne : ∀ c ∈ [110, 116, (102 : UInt8)], c ≠ b := by
    rintro c hc rfl
    revert hb hc
    simp only [List.mem_cons, List.not_mem_nil, or_false]
    tauto
  have hnull : Scan.literal (ascii "null") (b :: s ++ rest) = none := literal_of_head_ne (hne 110 (by decide)) _ _
  have htrue : Scan.literal (ascii "true") (b :: s ++ rest) = none := literal_of_head_ne (hne 116 (by decide)) _ _
  have hfalse : Scan.literal (ascii "false") (b :: s ++ rest) = none := literal_of_head_ne (hne 102 (by decide)) _ _
  rw [readWord, hnull, htrue, hfalse, htake.1, htake.2]
  simp only
  rw [if_pos h]

/-- Text starts with what is neither white nor a closing bracket. -/
theorem print_cons {j : Json} (h : Readable j) : ∃ b s, print j = b :: s ∧ isWhite b = false ∧ b ≠ 93 := by
  cases j with
  | null => exact ⟨110, _, rfl, rfl, by decide⟩
  | bool b => cases b <;> exact ⟨_, _, rfl, rfl, by decide⟩
  | number text =>
    obtain ⟨b, s, rfl⟩ := number_cons h.1
    obtain ⟨hwhite, hmem⟩ := isNumberByte_spec (h.2 b List.mem_cons_self)
    refine ⟨b, s, rfl, hwhite, ?_⟩
    rintro rfl
    exact hmem (by decide)
  | string value => exact ⟨34, _, rfl, rfl, by decide⟩
  | array elements => exact ⟨91, _, by rw [print]; rfl, rfl, by decide⟩
  | object members => exact ⟨123, _, by rw [print]; rfl, rfl, by decide⟩

theorem readSeparator_comma (close : UInt8) (s : Bytes) : readSeparator close (44 :: s) = some (true, s) := by
  rw [readSeparator, skipWhite_of_not rfl]
  exact if_pos rfl

theorem readSeparator_close {close : UInt8} (h : isWhite close = false) (hne : close ≠ 44) (s : Bytes) :
    readSeparator close (close :: s) = some (false, s) := by
  rw [readSeparator, skipWhite_of_not h]
  simp only
  rw [if_neg hne, if_pos trivial]

theorem readColon_colon (s : Bytes) : readColon (58 :: s) = some s := by
  rw [readColon, skipWhite_of_not rfl]
  exact if_pos rfl

theorem printString_append (s : CString) (rest : Bytes) :
    printString s ++ rest = 34 :: (s.bytes.flatMap escapeByte ++ 34 :: rest) := by
  rw [printString, List.append_assoc, List.cons_append]
  rfl

theorem endsNumber_cons {b : UInt8} (h : isNumberByte b = false) (s : Bytes) : EndsNumber (b :: s) := by
  intro c hc
  obtain rfl : b = c := Option.some.inj hc
  exact h

mutual

theorem readValue_print : ∀ (j : Json), Readable j → ∀ (fuel : Nat), (print j).length < fuel →
    ∀ (rest : Bytes), EndsNumber rest → readValue fuel (print j ++ rest) = some (j, rest)
  | .null, _, fuel + 1, _, rest, _ => rfl
  | .bool true, _, fuel + 1, _, rest, _ => rfl
  | .bool false, _, fuel + 1, _, rest, _ => rfl
  | .number text, h, fuel + 1, hfuel, rest, hrest => by
    have hword := readWord_number h.1 h.2 hrest
    obtain ⟨b, s, rfl⟩ := number_cons h.1
    obtain ⟨hwhite, hmem⟩ := isNumberByte_spec (h.2 b List.mem_cons_self)
    have hne : ∀ c ∈ [34, 91, (123 : UInt8)], b ≠ c := by
      rintro c hc rfl
      exact hmem (by revert hc; simp only [List.mem_cons, List.not_mem_nil, or_false]; tauto)
    rw [print, readValue, List.cons_append, skipWhite_of_not hwhite]
    simp only
    rw [if_neg (hne 34 (by decide)), if_neg (hne 91 (by decide)), if_neg (hne 123 (by decide))]
    exact hword
  | .string value, _, fuel + 1, _, rest, _ => by
    rw [print, printString_append, readValue, skipWhite_of_not rfl]
    simp only
    rw [if_pos trivial, readString_print]
    rfl
  | .array [], _, fuel + 1, _, rest, _ => rfl
  | .array (e :: es), h, fuel + 1, hfuel, rest, _ => by
    obtain ⟨b, s, hprint, hwhite, hne⟩ := print_cons h.1
    have helements := readElements_print e es h fuel (by
      rw [length_print_array] at hfuel
      omega) rest
    have hhead : ∃ s', printElements (e :: es) ++ 93 :: rest = b :: s' := by
      cases es with
      | nil => exact ⟨s ++ 93 :: rest, by rw [printElements, hprint]; rfl⟩
      | cons f es => exact ⟨_, by rw [printElements, hprint]; rfl⟩
    obtain ⟨s', hs'⟩ := hhead
    rw [hs'] at helements
    rw [print, List.cons_append, List.cons_append, List.append_assoc, readValue, skipWhite_of_not rfl]
    simp only
    rw [List.singleton_append, hs', skipWhite_of_not hwhite, if_neg (by decide), if_pos trivial,
      List.head?_cons, if_neg fun h => hne (Option.some.inj h), helements]
    rfl
  | .object [], _, fuel + 1, _, rest, _ => rfl
  | .object ((k, v) :: ms), h, fuel + 1, hfuel, rest, _ => by
    have hmembers := readMembers_print k v ms h fuel (by
      rw [length_print_object] at hfuel
      omega) rest
    have hhead : ∃ s', printMembers ((k, v) :: ms) ++ 125 :: rest = 34 :: s' := by
      cases ms with
      | nil => exact ⟨_, by rw [printMembers, printString, List.cons_append, List.cons_append]; rfl⟩
      | cons m ms => exact ⟨_, by rw [printMembers, printString, List.cons_append, List.cons_append]; rfl⟩
    obtain ⟨s', hs'⟩ := hhead
    rw [hs'] at hmembers
    rw [print, List.cons_append, List.cons_append, List.append_assoc, readValue, skipWhite_of_not rfl]
    simp only
    rw [List.singleton_append, hs', skipWhite_of_not rfl, if_neg (by decide), if_neg (by decide), if_pos trivial,
      List.head?_cons, if_neg fun h => absurd (Option.some.inj h) (by decide), hmembers]
    rfl

theorem readElements_print : ∀ (e : Json) (es : List Json), ReadableElements (e :: es) → ∀ (fuel : Nat),
    (printElements (e :: es)).length + 1 < fuel → ∀ (rest : Bytes),
    readElements fuel (printElements (e :: es) ++ 93 :: rest) = some (e :: es, rest)
  | e, [], h, fuel + 1, hfuel, rest => by
    rw [printElements] at hfuel ⊢
    have helement := readValue_print e h.1 fuel (by omega) (93 :: rest) (endsNumber_cons rfl rest)
    rw [readElements]
    simp only [helement, readSeparator_close rfl (by decide : (93 : UInt8) ≠ 44), bind, Option.bind]
    rfl
  | e, f :: es, h, fuel + 1, hfuel, rest => by
    rw [printElements, List.length_append, List.length_cons] at hfuel
    have hes := readElements_print f es h.2 fuel (by omega) rest
    have helement := readValue_print e h.1 fuel (by omega) (44 :: (printElements (f :: es) ++ 93 :: rest))
      (endsNumber_cons rfl _)
    rw [printElements, List.append_assoc, List.cons_append, readElements]
    simp only [helement, readSeparator_comma, hes, bind, Option.bind]
    rfl

theorem readMembers_print : ∀ (k : CString) (v : Json) (ms : List (CString × Json)), ReadableMembers ((k, v) :: ms) →
    ∀ (fuel : Nat), (printMembers ((k, v) :: ms)).length + 1 < fuel → ∀ (rest : Bytes),
    readMembers fuel (printMembers ((k, v) :: ms) ++ 125 :: rest) = some ((k, v) :: ms, rest)
  | k, v, [], h, fuel + 1, hfuel, rest => by
    rw [printMembers, List.length_append, List.length_cons] at hfuel
    have hvalue := readValue_print v h.1 fuel (by omega) (125 :: rest) (endsNumber_cons rfl rest)
    rw [printMembers, List.append_assoc, printString_append, List.cons_append, readMembers, skipWhite_of_not rfl]
    simp only [if_true, readString_print, readColon_colon, hvalue,
      readSeparator_close rfl (by decide : (125 : UInt8) ≠ 44), bind, Option.bind]
    rfl
  | k, v, (k', v') :: ms, h, fuel + 1, hfuel, rest => by
    rw [printMembers, List.length_append, List.length_cons, List.length_append, List.length_cons] at hfuel
    have hms := readMembers_print k' v' ms h.2 fuel (by omega) rest
    have hvalue := readValue_print v h.1 fuel (by omega)
      (44 :: (printMembers ((k', v') :: ms) ++ 125 :: rest)) (endsNumber_cons rfl _)
    have htext : printMembers ((k, v) :: (k', v') :: ms) ++ 125 :: rest = 34 :: (k.bytes.flatMap escapeByte ++
        34 :: 58 :: (print v ++ 44 :: (printMembers ((k', v') :: ms) ++ 125 :: rest))) := by
      rw [printMembers, printString]
      simp only [List.append_assoc, List.cons_append, List.nil_append]
    rw [htext, readMembers, skipWhite_of_not rfl]
    simp only [if_true, readString_print, readColon_colon, hvalue, readSeparator_comma, hms, bind, Option.bind]

end

/-- A printed tree is read back as it was. -/
theorem read_print {j : Json} (h : Readable j) : read (print j) = some j := by
  have hvalue := readValue_print j h _ (Nat.lt_succ_self _) [] fun b hb => by cases hb
  rw [List.append_nil] at hvalue
  rw [read, hvalue]
  rfl

/-! ## Printed text is a C string -/

theorem zero_not_mem_escapeByte {b : UInt8} (hb : b ≠ 0) : 0 ∉ escapeByte b := by
  unfold escapeByte
  split_ifs with _ _ _ _ _ _ _ h32
  · decide
  · decide
  · decide
  · decide
  · decide
  · decide
  · decide
  · have hcontrol : ∀ n < 32, 0 ∉ [92, 117, 48, 48, hexDigit (UInt8.ofNat n / 16), hexDigit (UInt8.ofNat n % 16)] := by
      decide
    have hlt : b.toNat < 32 := by simpa [UInt8.lt_iff_toNat_lt] using h32
    have hfree := hcontrol b.toNat hlt
    rwa [UInt8.ofNat_toNat] at hfree
  · simpa using hb.symm

theorem zero_not_mem_printString (s : CString) : 0 ∉ printString s := by
  simp only [printString, List.mem_append, List.mem_cons, List.mem_flatMap, List.not_mem_nil, or_false, not_or, not_exists,
    not_and]
  refine ⟨⟨by decide, fun b hb => zero_not_mem_escapeByte ?_⟩, by decide⟩
  rintro rfl
  exact s.nul_free hb

mutual

theorem zero_not_mem_print : ∀ (j : Json), Readable j → 0 ∉ print j
  | .null, _ => by decide
  | .bool true, _ => by decide
  | .bool false, _ => by decide
  | .number text, h => fun hmem => by cases h.2 0 hmem
  | .string value, _ => zero_not_mem_printString value
  | .array elements, h => by
    rw [print, List.mem_append, List.mem_cons]
    simp only [zero_not_mem_printElements elements h, or_false]
    decide
  | .object members, h => by
    rw [print, List.mem_append, List.mem_cons]
    simp only [zero_not_mem_printMembers members h, or_false]
    decide

theorem zero_not_mem_printElements : ∀ (es : List Json), ReadableElements es → 0 ∉ printElements es
  | [], _ => List.not_mem_nil
  | [e], h => zero_not_mem_print e h.1
  | e :: f :: es, h => by
    rw [printElements, List.mem_append, List.mem_cons]
    simp only [zero_not_mem_print e h.1, zero_not_mem_printElements (f :: es) h.2, or_false, false_or]
    decide

theorem zero_not_mem_printMembers : ∀ (ms : List (CString × Json)), ReadableMembers ms → 0 ∉ printMembers ms
  | [], _ => List.not_mem_nil
  | [(k, v)], h => by
    rw [printMembers, List.mem_append, List.mem_cons]
    simp only [zero_not_mem_printString k, zero_not_mem_print v h.1, or_false, false_or]
    decide
  | (k, v) :: m :: ms, h => by
    rw [printMembers, List.mem_append, List.mem_cons, List.mem_append, List.mem_cons]
    simp only [zero_not_mem_printString k, zero_not_mem_print v h.1, zero_not_mem_printMembers (m :: ms) h.2, or_false,
      false_or]
    decide

end

/-! ## How numbers are written -/

/-- Digits, perhaps a fraction, perhaps an exponent. -/
structure NumberParts (whole fraction exponent : Bytes) : Prop where
  whole : isDigits whole = true
  fraction : fraction = [] ∨ ∃ digits, isDigits digits = true ∧ fraction = 46 :: digits
  exponent : exponent = [] ∨ ∃ digits, isDigits digits = true ∧ exponent = 101 :: 43 :: digits

theorem isDigits_spec {s : Bytes} (h : isDigits s = true) : s ≠ [] ∧ ∀ b ∈ s, Scan.isDigit 10 b = true := by
  simpa only [isDigits, Bool.and_eq_true, bne_iff_ne, List.all_eq_true] using h

theorem isNumberByte_of_isDigit {b : UInt8} (h : Scan.isDigit 10 b = true) : isNumberByte b = true := by
  rw [isNumberByte, h, Bool.true_or]

theorem skipMinus_digits {s : Bytes} (h : isDigits s = true) (rest : Bytes) : skipMinus (s ++ rest) = s ++ rest := by
  obtain ⟨hne, hall⟩ := isDigits_spec h
  obtain ⟨b, s, rfl⟩ := List.exists_cons_of_ne_nil hne
  have hb := hall b List.mem_cons_self
  rw [List.cons_append, skipMinus]
  rintro s' hs
  obtain rfl := (List.cons.inj hs).1
  cases hb

theorem NumberParts.isNumberByte {whole fraction exponent : Bytes} (h : NumberParts whole fraction exponent) :
    ∀ b ∈ whole ++ (fraction ++ exponent), isNumberByte b = true := by
  have hdigits : ∀ {s : Bytes}, isDigits s = true → ∀ b ∈ s, Json.isNumberByte b = true :=
    fun hs b hb => isNumberByte_of_isDigit ((isDigits_spec hs).2 b hb)
  intro b hb
  rcases List.mem_append.1 hb with hb | hb
  · exact hdigits h.whole b hb
  rcases List.mem_append.1 hb with hb | hb
  · rcases h.fraction with rfl | ⟨digits, hd, rfl⟩
    · cases hb
    · rcases List.mem_cons.1 hb with rfl | hb
      · rfl
      · exact hdigits hd b hb
  · rcases h.exponent with rfl | ⟨digits, hd, rfl⟩
    · cases hb
    · rcases List.mem_cons.1 hb with rfl | hb
      · rfl
      rcases List.mem_cons.1 hb with rfl | hb
      · rfl
      · exact hdigits hd b hb

theorem NumberParts.isNumber {whole fraction exponent : Bytes} (h : NumberParts whole fraction exponent) :
    isNumber (whole ++ (fraction ++ exponent)) = true := by
  have hexponent : (∀ b ∈ exponent.head?, Scan.isDigit 10 b = false) ∧ isFraction exponent = true := by
    rcases h.exponent with rfl | ⟨digits, hd, rfl⟩
    · exact ⟨fun b hb => (by cases hb), rfl⟩
    · refine ⟨?_, hd⟩
      intro b hb
      obtain rfl : (101 : UInt8) = b := Option.some.inj hb
      rfl
  have hfraction : (∀ b ∈ (fraction ++ exponent).head?, Scan.isDigit 10 b = false) ∧
      isFraction (fraction ++ exponent) = true := by
    rcases h.fraction with rfl | ⟨digits, hd, rfl⟩
    · exact hexponent
    · obtain ⟨hne, hall⟩ := isDigits_spec hd
      obtain ⟨htake, hdrop⟩ := span_append hall hexponent.1
      constructor
      · intro b hb
        obtain rfl : (46 : UInt8) = b := Option.some.inj hb
        rfl
      · rw [List.cons_append, isFraction, htake, hdrop, bne_iff_ne.2 hne, Bool.true_and]
        rcases h.exponent with rfl | ⟨digits', hd', rfl⟩
        · rfl
        · exact hd'
  obtain ⟨hne, hall⟩ := isDigits_spec h.whole
  obtain ⟨htake, hdrop⟩ := span_append hall hfraction.1
  rw [Json.isNumber, skipMinus_digits h.whole, htake, hdrop, bne_iff_ne.2 hne, Bool.true_and]
  exact hfraction.2

/-- A number with or without a minus sign. -/
theorem NumberParts.readable {whole fraction exponent : Bytes} (h : NumberParts whole fraction exponent) (negative : Bool) :
    Readable (number ((if negative then [45] else []) ++ (whole ++ (fraction ++ exponent)))) := by
  cases negative with
  | false => exact ⟨h.isNumber, h.isNumberByte⟩
  | true =>
    refine ⟨?_, ?_⟩
    · have hnumber := h.isNumber
      rw [Json.isNumber, skipMinus_digits h.whole] at hnumber
      exact hnumber
    · intro b hb
      rcases List.mem_cons.1 hb with rfl | hb
      · rfl
      · exact h.isNumberByte b hb

end Json
