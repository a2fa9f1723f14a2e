import MindConnect.Lib.Bytes
import Mathlib.Data.List.DropRight
import Mathlib.Data.Nat.Digits.Defs

/-!
# Scanning unsigned numbers

The conversions `%u`, `%lu` and `%x` of `scanf`: blanks, a sign, for base 16 an `0x`, then at least one
digit, read by `strtoul` into an `unsigned long`. A number that does not fit becomes the greatest one, a
minus sign wraps. The last part reads back what `printf` writes.
-/

namespace Scan

def isSpace (b : UInt8) : Bool := b == 32 || (9 ≤ b && b ≤ 13)

def digitValue (b : UInt8) : Option Nat :=
  if 48 ≤ b && b ≤ 57 then some (b.toNat - 48)
  else if 97 ≤ b && b ≤ 122 then some (b.toNat - 87)
  else if 65 ≤ b && b ≤ 90 then some (b.toNat - 55)
  else none

def isDigit (base : Nat) (b : UInt8) : Bool := (digitValue b).any (· < base)

/-- The number that digits stand for. -/
def value (base : Nat) (digits : Bytes) : Nat :=
  digits.foldl (fun n b => base * n + (digitValue b).getD 0) 0

def skipBlanks (s : Bytes) : Bytes := s.dropWhile isSpace

/-- Whether there is a minus sign, and what follows a sign. -/
def sign : Bytes → Bool × Bytes
  | 45 :: s => (true, s)
  | 43 :: s => (false, s)
  | s => (false, s)

/-- `0x` or `0X` -/
def skipHexPrefix : Bytes → Bytes
  | 48 :: 120 :: s => s
  | 48 :: 88 :: s => s
  | s => s

/-- A number as an `unsigned long` of `w` bits. -/
def toUnsigned (w : Nat) (negative : Bool) (n : Nat) : Nat :=
  if 2 ^ w ≤ n then 2 ^ w - 1 else if negative then (2 ^ w - n) % 2 ^ w else n

/-- One conversion of base `base` at the start of `s`. -/
def unsigned (base w : Nat) (s : Bytes) : Option Nat :=
  let (negative, s) := sign (skipBlanks s)
  let digits := (if base = 16 then skipHexPrefix s else s).takeWhile (isDigit base)
  if digits = [] then none else some (toUnsigned w negative (value base digits))

/-- The sign and the digits of a number at the start of `s`, without any range. -/
def signed (base : Nat) (s : Bytes) : Option (Bool × Nat) :=
  let (negative, s) := sign (skipBlanks s)
  let digits := (if base = 16 then skipHexPrefix s else s).takeWhile (isDigit base)
  if digits = [] then none else some (negative, value base digits)

/-- The number itself. -/
def number (base : Nat) (s : Bytes) : Option Int :=
  (signed base s).map fun (negative, n) => if negative then -(n : Int) else n

theorem unsigned_eq (base w : Nat) (s : Bytes) :
    unsigned base w s = (signed base s).map fun (negative, n) => toUnsigned w negative n := by
  simp only [unsigned, signed]
  split_ifs <;> rfl

/-- A literal of the format, then what follows it. -/
def literal (text s : Bytes) : Option Bytes := if text <+: s then some (s.drop text.length) else none

/-! ## Reading digits -/

theorem value_append_singleton (base : Nat) (digits : Bytes) (b : UInt8) :
    value base (digits ++ [b]) = base * value base digits + (digitValue b).getD 0 := by
  unfold value
  rw [List.foldl_append]
  rfl

theorem isDigit_eq_true {base : Nat} {b : UInt8} :
    isDigit base b = true ↔ ∃ d, digitValue b = some d ∧ d < base := by
  unfold isDigit
  cases digitValue b <;> simp

theorem digitValue_of_isSpace {b : UInt8} (h : isSpace b = true) : digitValue b = none := by
  simp only [isSpace, Bool.or_eq_true, beq_iff_eq, Bool.and_eq_true, decide_eq_true_eq, UInt8.le_iff_toNat_le,
    ← UInt8.toNat_inj, UInt8.reduceToNat] at h
  simp only [digitValue, Bool.and_eq_true, decide_eq_true_eq, UInt8.le_iff_toNat_le, UInt8.reduceToNat]
  rw [if_neg (by omega), if_neg (by omega), if_neg (by omega)]

theorem not_isDigit_of_isSpace {b : UInt8} (h : isSpace b = true) (base : Nat) : isDigit base b = false := by
  unfold isDigit
  rw [digitValue_of_isSpace h]
  rfl

theorem not_isSpace_of_isDigit {base : Nat} {b : UInt8} (h : isDigit base b = true) : isSpace b = false := by
  cases hs : isSpace b with
  | false => rfl
  | true => rw [not_isDigit_of_isSpace hs] at h; cases h

theorem takeWhile_digits {base : Nat} {digits rest : Bytes} (hd : ∀ b ∈ digits, isDigit base b = true)
    (hrest : ∀ b ∈ rest.head?, isDigit base b = false) : (digits ++ rest).takeWhile (isDigit base) = digits := by
  induction digits with
  | nil =>
    cases rest with
    | nil => rfl
    | cons b rest =>
      have := hrest b rfl
      simp [this]
  | cons b digits ih =>
    rw [List.cons_append, List.takeWhile_cons_of_pos (hd b List.mem_cons_self),
      ih fun c hc => hd c (List.mem_cons_of_mem b hc)]

theorem skipBlanks_append {blanks s : Bytes} (hb : ∀ b ∈ blanks, isSpace b = true)
    (hs : ∀ b ∈ s.head?, isSpace b = false) : skipBlanks (blanks ++ s) = s := by
  unfold skipBlanks
  induction blanks with
  | nil =>
    cases s with
    | nil => rfl
    | cons b s => rw [List.nil_append, List.dropWhile_cons_of_neg (by simp [hs b rfl])]
  | cons b blanks ih =>
    rw [List.cons_append, List.dropWhile_cons_of_pos (hb b List.mem_cons_self)]
    exact ih fun c hc => hb c (List.mem_cons_of_mem b hc)

/-- A blank of the format before a conversion changes nothing. -/
theorem unsigned_skipBlanks (base w : Nat) (s : Bytes) : unsigned base w (skipBlanks s) = unsigned base w s := by
  unfold unsigned skipBlanks
  rw [List.dropWhile_idempotent]

theorem sign_of_isDigit {base : Nat} {b : UInt8} (h : isDigit base b = true) (s : Bytes) :
    sign (b :: s) = (false, b :: s) := by
  have h1 : b ≠ 45 := by rintro rfl; cases h
  have h2 : b ≠ 43 := by rintro rfl; cases h
  unfold sign
  split
  next he => exact absurd (List.cons.inj he).1 h1
  next he => exact absurd (List.cons.inj he).1 h2
  next => rfl

theorem skipHexPrefix_of_ne {s : Bytes} (h : ∀ b ∈ s.tail.head?, b ≠ 120 ∧ b ≠ 88) : skipHexPrefix s = s := by
  unfold skipHexPrefix
  split
  next => exact absurd rfl (h 120 rfl).1
  next => exact absurd rfl (h 88 rfl).2
  next => rfl

/-- Neither a hexadecimal digit nor a blank is the `x` of a prefix. -/
theorem skipHexPrefix_digits {digits rest : Bytes} (hne : digits ≠ []) (hd : ∀ b ∈ digits, isDigit 16 b = true)
    (hrest : ∀ b ∈ rest.head?, isSpace b = true) : skipHexPrefix (digits ++ rest) = digits ++ rest := by
  obtain ⟨d, digits, rfl⟩ := List.exists_cons_of_ne_nil hne
  apply skipHexPrefix_of_ne
  intro b hb
  cases digits with
  | nil =>
    have := hrest b hb
    constructor
    · rintro rfl; cases this
    · rintro rfl; cases this
  | cons c digits =>
    obtain rfl : c = b := Option.some.inj hb
    have := hd c (List.mem_cons_of_mem d List.mem_cons_self)
    constructor
    · rintro rfl; cases this
    · rintro rfl; cases this

/-- Digits between blanks are read as the number they stand for. -/
theorem unsigned_of_digits {base w : Nat} {blanks digits rest : Bytes} (hblanks : ∀ b ∈ blanks, isSpace b = true)
    (hne : digits ≠ []) (hd : ∀ b ∈ digits, isDigit base b = true)
    (hrest : ∀ b ∈ rest.head?, isSpace b = true) :
    unsigned base w (blanks ++ (digits ++ rest)) = some (toUnsigned w false (value base digits)) := by
  have hskip : skipBlanks (blanks ++ (digits ++ rest)) = digits ++ rest := by
    obtain ⟨d, ds, rfl⟩ := List.exists_cons_of_ne_nil hne
    apply skipBlanks_append hblanks
    intro b hb
    obtain rfl : d = b := Option.some.inj hb
    exact not_isSpace_of_isDigit (hd d List.mem_cons_self)
  have hsign : sign (digits ++ rest) = (false, digits ++ rest) := by
    obtain ⟨d, ds, rfl⟩ := List.exists_cons_of_ne_nil hne
    exact sign_of_isDigit (hd d List.mem_cons_self) _
  have hnoPrefix : (if base = 16 then skipHexPrefix (digits ++ rest) else digits ++ rest) = digits ++ rest := by
    by_cases h : base = 16
    · subst h
      rw [if_pos rfl, skipHexPrefix_digits hne hd hrest]
    · rw [if_neg h]
  have hdigits := takeWhile_digits hd fun b hb => not_isDigit_of_isSpace (hrest b hb) base
  unfold unsigned
  rw [hskip, hsign]
  simp only [hnoPrefix, hdigits]
  rw [if_neg hne]

theorem toUnsigned_of_lt {w n : Nat} (h : n < 2 ^ w) : toUnsigned w false n = n := by
  unfold toUnsigned
  rw [if_neg (by omega)]
  rfl

theorem toUnsigned_lt (w : Nat) (negative : Bool) (n : Nat) : toUnsigned w negative n < 2 ^ w := by
  have := Nat.two_pow_pos w
  unfold toUnsigned
  split_ifs
  · omega
  · exact Nat.mod_lt _ this
  · omega

theorem toUnsigned_eq_self {w n : Nat} : toUnsigned w false n = n ↔ n < 2 ^ w := by
  refine ⟨fun h => ?_, toUnsigned_of_lt⟩
  have := toUnsigned_lt w false n
  rwa [h] at this

/-- A number in range is read as it is. -/
theorem unsigned_of_number {base w n : Nat} {s : Bytes} (h : number base s = some (n : Int)) (hlt : n < 2 ^ w) :
    unsigned base w s = some n := by
  obtain ⟨⟨negative, k⟩, hsigned, heq⟩ := Option.map_eq_some_iff.1 h
  rw [unsigned_eq, hsigned, Option.map_some]
  cases negative with
  | false =>
    obtain rfl : k = n := by simpa using heq
    exact congrArg some (toUnsigned_of_lt hlt)
  | true =>
    obtain ⟨rfl, rfl⟩ : k = 0 ∧ n = 0 := by
      simp only [if_true] at heq
      omega
    simp [toUnsigned]

theorem unsigned_isSome {base w : Nat} {s : Bytes} : (unsigned base w s).isSome = (number base s).isSome := by
  rw [unsigned_eq, number, Option.isSome_map, Option.isSome_map]

theorem literal_append (text s : Bytes) : literal text (text ++ s) = some s := by
  unfold literal
  rw [if_pos (List.prefix_append text s), List.drop_left]

/-! ## Reading what was printed -/

section
variable {base : Nat} (hbase : 1 < base) {f : Char → UInt8}
  (hf : ∀ d < base, digitValue (f (Nat.digitChar d)) = some d)
include hbase hf

/-- `f` prints a digit in either case of its letter. -/
theorem value_toDigits (n : Nat) : value base ((Nat.toDigits base n).map f) = n := by
  induction n using Nat.strongRecOn with
  | ind n ih =>
    rw [Nat.toDigits_eq_if hbase]
    by_cases h : n < base
    · rw [if_pos h, List.map_singleton]
      show base * 0 + (digitValue (f (Nat.digitChar n))).getD 0 = n
      rw [hf n h, Option.getD_some]
      omega
    · have hlt : n / base < n := Nat.div_lt_self (by omega) hbase
      rw [if_neg h, List.map_append, List.map_singleton, value_append_singleton, ih _ hlt,
        hf _ (Nat.mod_lt _ (by omega)), Option.getD_some, Nat.div_add_mod]

theorem isDigit_toDigits (n : Nat) : ∀ b ∈ (Nat.toDigits base n).map f, isDigit base b = true := by
  induction n using Nat.strongRecOn with
  | ind n ih =>
    have hdigit : ∀ d < base, isDigit base (f (Nat.digitChar d)) = true :=
      fun d hd => isDigit_eq_true.2 ⟨d, hf d hd, hd⟩
    rw [Nat.toDigits_eq_if hbase]
    intro b hb
    by_cases h : n < base
    · rw [if_pos h, List.map_singleton, List.mem_singleton] at hb
      rw [hb]
      exact hdigit n h
    · rw [if_neg h, List.map_append, List.mem_append, List.map_singleton, List.mem_singleton] at hb
      rcases hb with hb | rfl
      · exact ih _ (Nat.div_lt_self (by omega) hbase) b hb
      · exact hdigit _ (Nat.mod_lt _ (by omega))

end

theorem toDigits_map_ne_nil (base n : Nat) (f : Char → UInt8) : (Nat.toDigits base n).map f ≠ [] := by
  intro h
  exact Nat.toDigits_ne_nil (List.map_eq_nil_iff.1 h)

end Scan
