import MindConnect.Lib.Bytes
import Mathlib.Data.List.TakeDrop

/-!
# Timestamps: `mcl_time_util_validate_timestamp` (`time_util.c:76`)

The separators are checked at their places, the numbers are then read one after the other by `strtol`, which skips
blanks, takes a sign and stops where it likes; the next number is read one character behind that. A text whose
separators are right need not have its numbers between them.

| here | there |
| --- | --- |
| `validateTimestamp` | `mcl_time_util_validate_timestamp`, on what is left of the text |
| `validateTimestampAt` | the same with the position (`:105` to `:124`) |
| `Documented` | `yyyy-MM-ddTHH:mm:ss.SSSZ` with its ranges |
| `Reads` | what `strtol` reads in base 10 |
-/

namespace MindConnect

/-! ## The code -/

/-- `MCL_TIMESTAMP_LENGTH - MCL_NULL_CHAR_SIZE` -/
def timestampLength : Nat := 24

def isSpace (b : UInt8) : Bool := b == 32 || (9 ≤ b && b ≤ 13)
def isDigit (b : UInt8) : Bool := 48 ≤ b && b ≤ 57

/-- `strtol` in base 10: the value and the rest of the string behind it. -/
def strtol (s : Bytes) : Int × Bytes :=
  let t := s.dropWhile isSpace
  let negative := t.head? == some 45
  let u := if negative || t.head? == some 43 then t.drop 1 else t
  let digits := u.takeWhile isDigit
  if digits.isEmpty then (0, s)
  else
    let n : Nat := digits.foldl (fun (n : Nat) d => 10 * n + (d.toNat - 48)) 0
    (if negative then -(n : Int) else n, u.dropWhile isDigit)

/-- Position of each separator of `yyyy-MM-ddTHH:mm:ss.SSSZ`. -/
def timestampSeparators : List (Nat × UInt8) :=
  [(4, 45), (7, 45), (10, 84), (13, 58), (16, 58), (19, 46), (23, 90)]

/-- Least and greatest value of each field. -/
def timestampFields : List (Int × Int) :=
  [(1, 2999), (1, 12), (1, 31), (0, 23), (0, 59), (0, 59), (0, 999)]

def checkTimestampFields : List (Int × Int) → Bytes → Bool
  | [], _ => true
  | (least, greatest) :: fields, position =>
    let (value, endPointer) := strtol position
    decide (least ≤ value) && decide (value ≤ greatest) && checkTimestampFields fields (endPointer.drop 1)

/-- `mcl_time_util_validate_timestamp` (`time_util.c:76`) -/
def validateTimestamp (timestamp : CString) : Bool :=
  timestamp.length == timestampLength &&
    timestampSeparators.all (fun s => timestamp.bytes[s.1]? == some s.2) &&
    checkTimestampFields timestampFields timestamp.bytes

theorem length_of_validateTimestamp {t : CString} (h : validateTimestamp t = true) :
    t.length = timestampLength := by
  simp only [validateTimestamp, Bool.and_eq_true, beq_iff_eq] at h
  exact h.1.1

-- The validator reads each field from behind the separator before it, so white space may stand in for
-- digits, a tab included.
example : validateTimestamp (.lit "2019-01-31T23:59:59.999Z") = true := by decide
example : validateTimestamp (.lit "\t\t\t9-01-31T23:59:59.999Z") = true := by decide
example : validateTimestamp (.lit "2019-13-31T23:59:59.999Z") = false := by decide

/-- The fields from a position on; `none` where a position is not in the string, the terminator included. -/
def checkTimestampFieldsAt (text : Bytes) : List (Int × Int) → Nat → Option Bool
  | [], position => if text.length < position then none else some true
  | (least, greatest) :: fields, position =>
    if text.length < position then none
    else
      let (value, rest) := strtol (text.drop position)
      let position := text.length - rest.length + 1
      if decide (least ≤ value) && decide (value ≤ greatest) then checkTimestampFieldsAt text fields position
      else if text.length < position then none else some false

/-- The same with the position. -/
def validateTimestampAt (timestamp : CString) : Option Bool :=
  if timestamp.length == timestampLength && timestampSeparators.all (fun s => timestamp.bytes[s.1]? == some s.2) then
    checkTimestampFieldsAt timestamp.bytes timestampFields 0
  else some false

namespace Timestamp

/-! ## What `strtol` reads -/

/-- The value of decimal digits. -/
def decimal (digits : Bytes) : Nat := digits.foldl (fun (n : Nat) d => 10 * n + (d.toNat - 48)) 0

/-- A beginning that `strtol` skips: blanks, and a sign. -/
structure Lead (blanks sign : Bytes) : Prop where
  blanks : ∀ b ∈ blanks, isSpace b = true
  sign : sign = [] ∨ sign = [43] ∨ sign = [45]

/-- A number at the start of a text and what is behind it; 0 and the whole text, where no number starts. -/
inductive Reads : Bytes → Int → Bytes → Prop
  | number {blanks sign digits rest : Bytes} (lead : Lead blanks sign) (nonempty : digits ≠ [])
      (all_digits : ∀ d ∈ digits, isDigit d = true) (stops : ∀ d ∈ rest.head?, isDigit d = false) :
      Reads (blanks ++ (sign ++ (digits ++ rest))) (if sign = [45] then -(decimal digits : Int) else decimal digits) rest
  | nothing {text : Bytes} (no_number : ∀ blanks sign rest d, Lead blanks sign →
      text = blanks ++ (sign ++ d :: rest) → isDigit d = false) : Reads text 0 text

theorem isSpace_of_isDigit {d : UInt8} (h : isDigit d = true) : isSpace d = false := by
  simp only [isDigit, isSpace, Bool.and_eq_true, decide_eq_true_eq, Bool.or_eq_false_iff, Bool.and_eq_false_iff,
    decide_eq_false_iff_not, beq_eq_false_iff_ne] at h ⊢
  rw [UInt8.le_iff_toNat_le] at h
  obtain ⟨h48, -⟩ := h
  refine ⟨fun he => ?_, .inr fun h13 => ?_⟩
  · rw [he] at h48
    exact absurd h48 (by decide)
  · rw [UInt8.le_iff_toNat_le] at h13
    have h1 : (48 : UInt8).toNat = 48 := rfl
    have h2 : (13 : UInt8).toNat = 13 := rfl
    omega

theorem dropWhile_lead {blanks sign rest : Bytes} {d : UInt8} (lead : Lead blanks sign) (hd : isDigit d = true) :
    (blanks ++ (sign ++ d :: rest)).dropWhile isSpace = sign ++ d :: rest := by
  rw [List.dropWhile_append_of_pos lead.blanks]
  rcases lead.sign with rfl | rfl | rfl
  · rw [List.nil_append, List.dropWhile_cons_of_neg]
    rw [isSpace_of_isDigit hd]
    exact Bool.false_ne_true
  · rfl
  · rfl

/-- What is left of a text behind blanks and a sign, and whether the sign was a minus. -/
def skipLead (text : Bytes) : Bool × Bytes :=
  let t := text.dropWhile isSpace
  let negative := t.head? == some 45
  (negative, if negative || t.head? == some 43 then t.drop 1 else t)

theorem strtol_eq (text : Bytes) :
    strtol text =
      if (skipLead text).2.takeWhile isDigit = [] then (0, text)
      else (if (skipLead text).1 then -(decimal ((skipLead text).2.takeWhile isDigit) : Int)
        else decimal ((skipLead text).2.takeWhile isDigit), (skipLead text).2.dropWhile isDigit) := by
  simp only [strtol, skipLead, List.isEmpty_iff]
  rfl

theorem skipLead_lead {blanks sign rest : Bytes} {d : UInt8} (lead : Lead blanks sign) (hd : isDigit d = true) :
    skipLead (blanks ++ (sign ++ d :: rest)) = (sign == [45], d :: rest) := by
  have hne : ∀ c : UInt8, isDigit c = false → d ≠ c := by
    rintro c hc rfl
    rw [hd] at hc
    cases hc
  rw [skipLead, dropWhile_lead lead hd]
  rcases lead.sign with rfl | rfl | rfl
  · have h45 := hne 45 rfl
    have h43 := hne 43 rfl
    simp [h45, h43]
  · rfl
  · rfl

/-- A text is blanks, a sign and what is left. -/
theorem exists_lead (text : Bytes) :
    ∃ blanks sign, Lead blanks sign ∧ text = blanks ++ (sign ++ (skipLead text).2) ∧ (skipLead text).1 = (sign == [45]) := by
  have hsplit := (List.takeWhile_append_dropWhile (p := isSpace) (l := text)).symm
  have hblanks : ∀ b ∈ text.takeWhile isSpace, isSpace b = true := fun b hb => List.mem_takeWhile_imp hb
  rw [skipLead]
  cases ht : text.dropWhile isSpace with
  | nil =>
    rw [ht] at hsplit
    exact ⟨_, [], ⟨hblanks, .inl rfl⟩, hsplit, rfl⟩
  | cons c rest =>
    rw [ht] at hsplit
    by_cases h45 : c = 45
    · subst h45
      exact ⟨_, [45], ⟨hblanks, .inr (.inr rfl)⟩, hsplit, rfl⟩
    · by_cases h43 : c = 43
      · subst h43
        exact ⟨_, [43], ⟨hblanks, .inr (.inl rfl)⟩, hsplit, rfl⟩
      · refine ⟨_, [], ⟨hblanks, .inl rfl⟩, ?_, ?_⟩
        · simpa [h45, h43] using hsplit
        · simp [h45]

/-- `strtol` reads so. -/
theorem reads_iff {text rest : Bytes} {v : Int} : Reads text v rest ↔ strtol text = (v, rest) := by
  rw [strtol_eq]
  constructor
  · intro h
    cases h with
    | @number blanks sign digits rest lead nonempty all_digits stops =>
      obtain ⟨d, digits, rfl⟩ := List.exists_cons_of_ne_nil nonempty
      have hlead : skipLead (blanks ++ (sign ++ d :: (digits ++ rest))) = _ :=
        skipLead_lead lead (all_digits d List.mem_cons_self)
      have hrest : rest.takeWhile isDigit = [] ∧ rest.dropWhile isDigit = rest := by
        cases rest with
        | nil => exact ⟨rfl, rfl⟩
        | cons c rest =>
          have hc := stops c rfl
          exact ⟨List.takeWhile_cons_of_neg (by simp [hc]), List.dropWhile_cons_of_neg (by simp [hc])⟩
      have htake : (d :: digits ++ rest).takeWhile isDigit = d :: digits := by
        rw [List.takeWhile_append_of_pos all_digits, hrest.1, List.append_nil]
      have hdrop : (d :: digits ++ rest).dropWhile isDigit = rest := by
        rw [List.dropWhile_append_of_pos all_digits, hrest.2]
      rw [List.cons_append] at htake hdrop ⊢
      rw [hlead, htake, hdrop, if_neg (List.cons_ne_nil _ _)]
      simp
    | nothing no_number =>
      rw [if_pos]
      obtain ⟨blanks, sign, lead, hsplit, -⟩ := exists_lead text
      cases hskip : (skipLead text).2 with
      | nil => rfl
      | cons d rest =>
        rw [hskip] at hsplit
        exact List.takeWhile_cons_of_neg (by simp [no_number _ _ _ _ lead hsplit])
  · intro h
    obtain ⟨blanks, sign, lead, hsplit, hnegative⟩ := exists_lead text
    by_cases hnone : (skipLead text).2.takeWhile isDigit = []
    · rw [if_pos hnone] at h
      cases h
      refine .nothing fun blanks' sign' rest d lead' htext => ?_
      by_contra hd
      rw [Bool.not_eq_false] at hd
      rw [htext, skipLead_lead lead' hd, List.takeWhile_cons_of_pos hd] at hnone
      cases hnone
    · rw [if_neg hnone] at h
      cases h
      have hpart := List.takeWhile_append_dropWhile (p := isDigit) (l := (skipLead text).2)
      have hstops : ∀ d ∈ ((skipLead text).2.dropWhile isDigit).head?, isDigit d = false := by
        intro d hd
        have hhead := List.head?_dropWhile_not isDigit (skipLead text).2
        rw [hd] at hhead
        simpa using hhead
      have hnumber := Reads.number lead hnone (fun d hd => List.mem_takeWhile_imp hd) hstops
      rw [hpart, ← hsplit] at hnumber
      rw [hnegative]
      simpa using hnumber

/-! ## The documented format -/

/-- A field: its number of digits, the character behind it, its least and greatest value. -/
structure FieldFormat where
  length : Nat
  separator : UInt8
  least : Nat
  greatest : Nat

/-- `yyyy-MM-ddTHH:mm:ss.SSSZ` -/
def timestampFormat : List FieldFormat :=
  [⟨4, 45, 1, 2999⟩, ⟨2, 45, 1, 12⟩, ⟨2, 84, 1, 31⟩, ⟨2, 58, 0, 23⟩, ⟨2, 58, 0, 59⟩, ⟨2, 46, 0, 59⟩, ⟨3, 90, 0, 999⟩]

/-- A text laid out by a format: parts of its lengths with the separators behind them, and `P` of every part. -/
inductive Laid (P : FieldFormat → Bytes → Prop) : List FieldFormat → Bytes → Prop
  | nil : Laid P [] []
  | cons {f : FieldFormat} {format : List FieldFormat} {part rest : Bytes} (length : part.length = f.length) (holds : P f part)
      (behind : Laid P format rest) : Laid P (f :: format) (part ++ f.separator :: rest)

/-- The separators stand where they should. -/
def Framed : List FieldFormat → Bytes → Prop := Laid fun _ _ => True

/-- And digits everywhere else. -/
def AllDigits : List FieldFormat → Bytes → Prop := Laid fun _ part => ∀ d ∈ part, isDigit d = true

/-- And the numbers are in their ranges. -/
def Documented : List FieldFormat → Bytes → Prop :=
  Laid fun f part => (∀ d ∈ part, isDigit d = true) ∧ f.least ≤ decimal part ∧ decimal part ≤ f.greatest

/-- A text cut into loose numbers in their ranges, with one character of any kind behind each. -/
inductive Cuts : List FieldFormat → Bytes → Prop
  | nil (text : Bytes) : Cuts [] text
  | cons {f : FieldFormat} {v : Int} {format : List FieldFormat} {text rest : Bytes} (reads : Reads text v rest)
      (least : (f.least : Int) ≤ v) (greatest : v ≤ f.greatest) (behind : Cuts format (rest.drop 1)) : Cuts (f :: format) text

theorem Laid.imp {P Q : FieldFormat → Bytes → Prop} (h : ∀ f part, P f part → Q f part) {format : List FieldFormat}
    {text : Bytes} (hlaid : Laid P format text) : Laid Q format text := by
  induction hlaid with
  | nil => exact .nil
  | cons length holds _ ih => exact .cons length (h _ _ holds) ih

/-! ## The two checks of the code -/

/-- Where the separators are. -/
def separators : Nat → List FieldFormat → List (Nat × UInt8)
  | _, [] => []
  | position, f :: format => (position + f.length, f.separator) :: separators (position + f.length + 1) format

/-- How long a text of the format is. -/
def formatLength : List FieldFormat → Nat
  | [] => 0
  | f :: format => f.length + 1 + formatLength format

theorem framed_iff (format : List FieldFormat) (before text : Bytes) :
    Framed format text ↔ text.length = formatLength format ∧
      ∀ s ∈ separators before.length format, (before ++ text)[s.1]? = some s.2 := by
  induction format generalizing before text with
  | nil =>
    constructor
    · rintro ⟨⟩
      exact ⟨rfl, fun s hs => by cases hs⟩
    · rintro ⟨hlength, _⟩
      rw [List.length_eq_zero_iff.1 hlength]
      exact .nil
  | cons f format ih =>
    rw [separators, List.forall_mem_cons, formatLength]
    constructor
    · rintro (_ | ⟨length, -, behind⟩)
      rename_i part rest
      obtain ⟨hlength, hseparators⟩ := (ih (before ++ part ++ [f.separator]) rest).1 behind
      refine ⟨?_, ?_, ?_⟩
      · simp only [List.length_append, List.length_cons]
        omega
      · rw [← length]
        simp
      · simpa [length, Nat.add_assoc] using hseparators
    · rintro ⟨hlength, hseparator, hseparators⟩
      rw [List.getElem?_append_right (by omega), Nat.add_sub_cancel_left] at hseparator
      obtain ⟨hlt, hget⟩ := List.getElem?_eq_some_iff.1 hseparator
      have hget : text[f.length] = f.separator := hget
      have hsplit : text = text.take f.length ++ f.separator :: text.drop (f.length + 1) := by
        rw [← hget, ← List.drop_eq_getElem_cons, List.take_append_drop]
      have htake : (text.take f.length).length = f.length := by
        rw [List.length_take]
        omega
      rw [hsplit]
      refine .cons htake trivial ((ih (before ++ text.take f.length ++ [f.separator]) _).2 ⟨?_, ?_⟩)
      · rw [List.length_drop]
        omega
      · rw [hsplit] at hseparators
        simpa [htake, Nat.add_assoc] using hseparators

theorem cuts_iff (format : List FieldFormat) (text : Bytes) :
    Cuts format text ↔
      checkTimestampFields (format.map fun f => ((f.least : Int), (f.greatest : Int))) text = true := by
  induction format generalizing text with
  | nil => exact ⟨fun _ => rfl, fun _ => .nil text⟩
  | cons f format ih =>
    rw [List.map_cons, checkTimestampFields]
    simp only [Bool.and_eq_true, decide_eq_true_eq]
    constructor
    · rintro (_ | ⟨reads, hleast, hgreatest, behind⟩)
      rw [reads_iff.1 reads]
      exact ⟨⟨hleast, hgreatest⟩, (ih _).1 behind⟩
    · rintro ⟨⟨hleast, hgreatest⟩, behind⟩
      exact .cons (reads_iff.2 rfl) hleast hgreatest ((ih _).2 behind)

theorem validateTimestamp_iff (timestamp : CString) :
    validateTimestamp timestamp = true ↔ Framed timestampFormat timestamp.bytes ∧ Cuts timestampFormat timestamp.bytes := by
  rw [cuts_iff, framed_iff timestampFormat [], validateTimestamp, Bool.and_eq_true, Bool.and_eq_true, beq_iff_eq,
    List.all_eq_true]
  simp only [beq_iff_eq]
  rfl

/-! ## Digits between the separators -/

theorem cuts_part {part rest : Bytes} {f : FieldFormat} {format : List FieldFormat} (hne : part ≠ [])
    (hdigits : ∀ d ∈ part, isDigit d = true) (hseparator : isDigit f.separator = false) :
    Cuts (f :: format) (part ++ f.separator :: rest) ↔
      (f.least ≤ decimal part ∧ decimal part ≤ f.greatest) ∧ Cuts format rest := by
  have hreads : Reads (part ++ f.separator :: rest) (decimal part : Int) (f.separator :: rest) := by
    have h : Reads ([] ++ ([] ++ (part ++ f.separator :: rest))) _ (f.separator :: rest) :=
      .number ⟨(fun b hb => by cases hb), .inl rfl⟩ hne hdigits (by simpa using hseparator)
    simpa using h
  constructor
  · rintro (_ | ⟨reads, hleast, hgreatest, behind⟩)
    have hsame := reads_iff.1 reads
    rw [reads_iff.1 hreads] at hsame
    cases hsame
    exact ⟨⟨Int.ofNat_le.1 hleast, Int.ofNat_le.1 hgreatest⟩, behind⟩
  · rintro ⟨⟨hleast, hgreatest⟩, behind⟩
    exact .cons hreads (Int.ofNat_le.2 hleast) (Int.ofNat_le.2 hgreatest) behind

/-- No part is empty, and no digit separates two. -/
def Sound (format : List FieldFormat) : Prop := ∀ f ∈ format, 0 < f.length ∧ isDigit f.separator = false

/-- With digits between the separators, the loose numbers are those of the format. -/
theorem documented_iff {format : List FieldFormat} (hsound : Sound format) (text : Bytes) :
    Documented format text ↔ AllDigits format text ∧ Cuts format text := by
  induction format generalizing text with
  | nil =>
    constructor
    · rintro ⟨⟩
      exact ⟨.nil, .nil _⟩
    · rintro ⟨⟨⟩, _⟩
      exact .nil
  | cons f format ih =>
    obtain ⟨⟨hpos, hseparator⟩, hrest⟩ := List.forall_mem_cons.1 hsound
    have hne : ∀ part : Bytes, part.length = f.length → part ≠ [] := by
      rintro part hpart rfl
      rw [List.length_nil] at hpart
      omega
    constructor
    · rintro (_ | ⟨length, ⟨hdigits, hrange⟩, behind⟩)
      obtain ⟨hall, hcuts⟩ := (ih hrest _).1 behind
      exact ⟨.cons length hdigits hall, (cuts_part (hne _ length) hdigits hseparator).2 ⟨hrange, hcuts⟩⟩
    · rintro ⟨_ | ⟨length, hdigits, behind⟩, hcuts⟩
      obtain ⟨hrange, hcuts⟩ := (cuts_part (hne _ length) hdigits hseparator).1 hcuts
      exact .cons length ⟨hdigits, hrange⟩ ((ih hrest _).2 ⟨behind, hcuts⟩)

/-! ## The position -/

/-- A character that stops `strtol` for good: no blank, no digit, no sign. -/
def Stops (c : UInt8) : Prop := isSpace c = false ∧ isDigit c = false ∧ c ≠ 43 ∧ c ≠ 45

theorem suffix_dropWhile {p : UInt8 → Bool} {c : UInt8} {rest text : Bytes} (h : c :: rest <:+ text) (hc : p c = false) :
    c :: rest <:+ text.dropWhile p := by
  induction text with
  | nil => simp at h
  | cons b text ih =>
    rcases List.suffix_cons_iff.1 h with heq | hsuffix
    · rw [← heq, List.dropWhile_cons_of_neg (by simp [hc])]
    · rw [List.dropWhile_cons]
      split
      · exact ih hsuffix
      · exact h

/-- `strtol` does not read beyond such a character; beyond a minus only for a number that is not positive. -/
theorem suffix_strtol {c : UInt8} {rest text : Bytes} (h : c :: rest <:+ text)
    (hc : Stops c ∨ (c = 45 ∧ 0 < (strtol text).1)) : c :: rest <:+ (strtol text).2 := by
  have hspace : isSpace c = false := by
    rcases hc with hc | ⟨rfl, _⟩
    · exact hc.1
    · rfl
  have hdigit : isDigit c = false := by
    rcases hc with hc | ⟨rfl, _⟩
    · exact hc.2.1
    · rfl
  rw [strtol_eq] at hc ⊢
  by_cases hnone : (skipLead text).2.takeWhile isDigit = []
  · rw [if_pos hnone]
    exact h
  rw [if_neg hnone] at hc ⊢
  apply suffix_dropWhile _ hdigit
  have hskip := suffix_dropWhile h hspace
  rw [skipLead] at hc ⊢
  cases ht : text.dropWhile isSpace with
  | nil =>
    rw [ht] at hskip
    simp at hskip
  | cons b t =>
    rw [ht] at hskip hc
    rcases List.suffix_cons_iff.1 hskip with heq | hsuffix
    · cases heq
      rcases hc with ⟨_, _, h43, h45⟩ | ⟨rfl, hpos⟩
      · simp [h43, h45]
      · simp at hpos
        omega
    · by_cases hsign : ((b :: t).head? == some 45 || (b :: t).head? == some 43) = true
      · simp only [if_pos hsign]
        exact hsuffix
      · simp only [if_neg hsign]
        exact List.suffix_cons_iff.2 (.inr hsuffix)

theorem strtol_suffix (text : Bytes) : (strtol text).2 <:+ text := by
  rw [strtol_eq]
  by_cases hnone : (skipLead text).2.takeWhile isDigit = []
  · rw [if_pos hnone]
  · rw [if_neg hnone]
    have hskip : (skipLead text).2 <:+ text := by
      rw [skipLead]
      simp only
      split
      · exact (List.drop_suffix _ _).trans (List.dropWhile_suffix _)
      · exact List.dropWhile_suffix _
    exact (List.dropWhile_suffix _).trans hskip

/-- A minus separates only where the number before it has to be positive. -/
def Separated (format : List FieldFormat) : Prop := ∀ f ∈ format, Stops f.separator ∨ (f.separator = 45 ∧ 1 ≤ f.least)

/-- The place of an end pointer in the text. -/
theorem drop_of_suffix {rest text : Bytes} (h : rest <:+ text) :
    text.drop (text.length - rest.length + 1) = rest.drop 1 := by
  rw [← List.drop_drop, ← List.suffix_iff_eq_drop.1 h]

/-- From a position in front of the fields that are left, every position is in the text. -/
theorem checkTimestampFieldsAt_eq {text : Bytes} {z : UInt8} (hz : Stops z) (hlast : [z] <:+ text)
    {format : List FieldFormat} (hseparated : Separated format) :
    ∀ {before tail : Bytes} {position : Nat}, text = before ++ tail → Framed format tail → position ≤ before.length →
      checkTimestampFieldsAt text (format.map fun f => ((f.least : Int), (f.greatest : Int))) position =
        some (checkTimestampFields (format.map fun f => ((f.least : Int), (f.greatest : Int))) (text.drop position)) := by
  induction format with
  | nil =>
    rintro before _ position rfl ⟨⟩ hposition
    rw [List.map_nil, checkTimestampFieldsAt, if_neg (by simp; omega)]
    rfl
  | cons f format ih =>
    rintro before _ position htext (_ | ⟨length, -, behind⟩) hposition
    rename_i part rest
    obtain ⟨hseparator, hseparated⟩ := List.forall_mem_cons.1 hseparated
    have hlength : text.length = before.length + part.length + (rest.length + 1) := by
      rw [htext]
      simp only [List.length_append, List.length_cons]
      omega
    have htail : f.separator :: rest <:+ text.drop position := by
      have hsuffix : f.separator :: rest <:+ text := ⟨before ++ part, by rw [htext, List.append_assoc]⟩
      apply List.suffix_of_suffix_length_le hsuffix (List.drop_suffix _ _)
      rw [List.length_cons, List.length_drop]
      omega
    have hlast' : [z] <:+ text.drop position := by
      apply List.suffix_of_suffix_length_le hlast (List.drop_suffix _ _)
      rw [List.length_singleton, List.length_drop]
      omega
    have hrest := strtol_suffix (text.drop position)
    have hstop := (suffix_strtol hlast' (.inl hz)).length_le
    rw [List.map_cons, checkTimestampFieldsAt, if_neg (by omega), checkTimestampFields]
    cases hread : strtol (text.drop position) with
    | mk v r =>
      have hwhole : r <:+ text := (hread ▸ hrest).trans (List.drop_suffix _ _)
      rw [hread] at hstop
      have hstop : 1 ≤ r.length := hstop
      simp only
      by_cases hrange : (decide ((f.least : Int) ≤ v) && decide (v ≤ (f.greatest : Int))) = true
      · have hvalue : Stops f.separator ∨ (f.separator = 45 ∧ 0 < (strtol (text.drop position)).1) := by
          refine hseparator.imp_right fun ⟨hminus, hleast⟩ => ⟨hminus, ?_⟩
          rw [Bool.and_eq_true, decide_eq_true_eq] at hrange
          rw [hread]
          omega
        have hnext := (suffix_strtol htail hvalue).length_le
        rw [hread] at hnext
        have hnext : rest.length + 1 ≤ r.length := hnext
        rw [if_pos hrange, hrange, Bool.true_and, ← drop_of_suffix hwhole]
        have hsplit : text = (before ++ part ++ [f.separator]) ++ rest := by
          rw [htext]
          simp
        refine ih hseparated hsplit behind ?_
        simp only [List.length_append, List.length_singleton]
        omega
      · rw [if_neg hrange, if_neg (by omega)]
        rw [Bool.not_eq_true] at hrange
        rw [hrange, Bool.false_and]

theorem timestampFormat_sound : Sound timestampFormat := by
  simp only [Sound, timestampFormat, List.forall_mem_cons]
  decide

theorem timestampFormat_separated : Separated timestampFormat := by
  have hstops : ∀ c ∈ [84, 58, 46, 90], Stops c := by
    simp only [List.forall_mem_cons, Stops]
    decide
  simp only [Separated, timestampFormat, List.forall_mem_cons]
  refine ⟨.inr ⟨trivial, by decide⟩, .inr ⟨trivial, by decide⟩, .inl (hstops _ (by simp)), .inl (hstops _ (by simp)),
    .inl (hstops _ (by simp)), .inl (hstops _ (by simp)), .inl (hstops _ (by simp)), fun f hf => by cases hf⟩

/-- No position leaves the string, whatever it is. -/
theorem validateTimestampAt_eq (timestamp : CString) :
    validateTimestampAt timestamp = some (validateTimestamp timestamp) := by
  rw [validateTimestampAt, validateTimestamp]
  by_cases hframe : (timestamp.length == timestampLength &&
      timestampSeparators.all fun s => timestamp.bytes[s.1]? == some s.2) = true
  · have hframed : Framed timestampFormat timestamp.bytes := by
      rw [Bool.and_eq_true, beq_iff_eq, List.all_eq_true] at hframe
      simp only [beq_iff_eq] at hframe
      exact (framed_iff timestampFormat [] _).2 hframe
    have hz : Stops 90 := ⟨rfl, rfl, by decide, by decide⟩
    have hlast : [90] <:+ timestamp.bytes := by
      obtain ⟨hlength, hseparators⟩ := (framed_iff timestampFormat [] _).1 hframed
      have h23 : timestamp.bytes[23]? = some 90 := hseparators (23, 90) (by decide)
      obtain ⟨hlt, hget⟩ := List.getElem?_eq_some_iff.1 h23
      have hdrop : timestamp.bytes.drop 23 = [90] := by
        have hend : timestamp.bytes.drop 24 = [] := List.drop_of_length_le (by rw [hlength]; decide)
        rw [List.drop_eq_getElem_cons hlt, hget, hend]
      rw [← hdrop]
      exact List.drop_suffix _ _
    have hfields := checkTimestampFieldsAt_eq hz hlast timestampFormat_separated (List.nil_append timestamp.bytes).symm
      hframed (Nat.le_refl 0)
    rw [if_pos hframe, hframe, Bool.true_and]
    exact hfields
  · rw [if_neg hframe]
    rw [Bool.not_eq_true] at hframe
    rw [hframe, Bool.false_and]

/-- The validation is that of the documented format, and its position stays in the string. -/
def ValidatesFormat (timestamp : CString) : Prop :=
  ∃ verdict, validateTimestampAt timestamp = some verdict ∧ (verdict = true ↔ Documented timestampFormat timestamp.bytes)

/-- That is so, but for texts with the right separators whose other characters are not all digits and that can still be
cut into seven loose numbers in their ranges. -/
theorem validatesFormat_iff (timestamp : CString) :
    ValidatesFormat timestamp ↔
      (Framed timestampFormat timestamp.bytes → Cuts timestampFormat timestamp.bytes → AllDigits timestampFormat timestamp.bytes) := by
  rw [ValidatesFormat, validateTimestampAt_eq]
  simp only [Option.some.injEq, exists_eq_left']
  rw [validateTimestamp_iff, documented_iff timestampFormat_sound]
  constructor
  · intro h hframed hcuts
    exact (h.1 ⟨hframed, hcuts⟩).1
  · intro h
    constructor
    · exact fun ⟨hframed, hcuts⟩ => ⟨h hframed hcuts, hcuts⟩
    · exact fun ⟨hdigits, hcuts⟩ => ⟨hdigits.imp fun _ _ _ => trivial, hcuts⟩

theorem Documented.head {f : FieldFormat} {format : List FieldFormat} {text : Bytes} (h : Documented (f :: format) text)
    (hpos : 0 < f.length) : ∀ c ∈ text.head?, isDigit c = true := by
  rcases h with _ | ⟨length, ⟨hdigits, hrange⟩, behind⟩
  rename_i part rest
  intro c hc
  cases part with
  | nil =>
    rw [List.length_nil] at length
    omega
  | cons d part =>
    cases hc
    exact hdigits _ List.mem_cons_self

/-- A year with a sign and three digits. -/
theorem signedYear_validates : ¬ ValidatesFormat (.lit "+201-01-01T00:00:00.000Z") := by
  rintro ⟨verdict, hverdict, hformat⟩
  have htrue : validateTimestampAt (.lit "+201-01-01T00:00:00.000Z") = some true := by decide
  rw [htrue] at hverdict
  cases hverdict
  have hhead := (hformat.1 rfl).head (by decide) 43 (by decide)
  exact absurd hhead (by decide)

end Timestamp

end MindConnect
