import MindConnect.Core.JsonUtil
import MindConnect.Lib.JsonRead
import Mathlib.Data.Nat.Log

/-!
# Whole numbers as cJSON writes them

cJSON keeps every number as a double. `print_number` (`cJSON.c:553`) writes what fits an `int` with `"%d"`, the rest with
15 significant digits, or with 17 if 15 do not come back as nearly the same double.

| here | there |
| --- | --- |
| `toDouble` | the cast of a whole number to `double`: 53 bits, ties to even |
| `formatG` | `sprintf` with `"%1.15g"` or `"%1.17g"` of a whole number |
| `compareDouble` | `compare_double` (`cJSON.c:546`) |
-/

namespace MindConnect.JsonUtil

/-- The nearest multiple of `unit`, of two the even one. -/
def roundHalfEven (unit m : Nat) : Nat :=
  let q := m / unit
  let r := m % unit
  (if 2 * r < unit ∨ (2 * r = unit ∧ q % 2 = 0) then q else q + 1) * unit

/-- A magnitude as a double. -/
def doubleOfNat (m : Nat) : Nat := roundHalfEven (2 ^ (Nat.log2 m + 1 - 53)) m

def toDouble (n : Int) : Int := if n < 0 then -doubleOfNat n.natAbs else doubleOfNat n.natAbs

/-- A magnitude with so many significant digits. -/
def roundDecimal (precision m : Nat) : Nat := roundHalfEven (10 ^ ((numberText m).length - precision)) m

/-- The fraction of a significand: nothing if only zeros would follow. -/
def fractionText (digits : Bytes) : Bytes :=
  let fraction := digits.rdropWhile (· == 48)
  if fraction = [] then [] else 46 :: fraction

/-- Plain digits as long as they fit, else a significand without trailing zeros and an exponent. The exponent has two
digits at least, as the precision has. -/
def formatG (precision m : Nat) : Bytes :=
  if (numberText m).length ≤ precision then numberText m
  else
    let digits := numberText (roundDecimal precision m)
    digits.take 1 ++ fractionText (digits.drop 1) ++ ascii "e+" ++ numberText (digits.length - 1)

def compareDouble (a b : Nat) : Bool := (max a b - min a b) * 2 ^ 52 ≤ max a b

def intMin : Int := -2147483648

/-- The magnitude of a whole double outside `int`. -/
def printMagnitude (m : Nat) : Bytes :=
  formatG (if compareDouble (doubleOfNat (roundDecimal 15 m)) m then 15 else 17) m

/-- `print_number` for a whole double -/
def printNumber (d : Int) : Bytes :=
  (if d < 0 then [45] else []) ++
    if intMin ≤ d ∧ d ≤ intMax then numberText d.natAbs else printMagnitude d.natAbs

/-- `json_util_add_double` for a whole number, where `added` is whether there was memory for the member -/
def addDouble (root : Members) (name : CString) (number : Int) (added : Bool) : Result Members := do
  checkName root name
  return if added then root ++ [(name, .number (printNumber (toDouble number)))] else root

/-! ## Numbers are written as numbers are -/

theorem isDigits_of_forall {s : Bytes} (hne : s ≠ []) (h : ∀ b ∈ s, Scan.isDigit 10 b = true) : Json.isDigits s = true := by
  rw [Json.isDigits, bne_iff_ne.2 hne, List.all_eq_true.2 h]
  rfl

theorem isDigits_numberText (n : Nat) : Json.isDigits (numberText n) = true :=
  isDigits_of_forall (numberText_ne_nil n) fun _ hb => isDigit_numberText hb

theorem formatG_parts (precision m : Nat) : ∃ whole fraction exponent,
    formatG precision m = whole ++ (fraction ++ exponent) ∧ Json.NumberParts whole fraction exponent := by
  rw [formatG]
  by_cases h : (numberText m).length ≤ precision
  · rw [if_pos h]
    exact ⟨numberText m, [], [], (List.append_nil _).symm, isDigits_numberText m, .inl rfl, .inl rfl⟩
  · rw [if_neg h]
    have hdigits := fun b (hb : b ∈ numberText (roundDecimal precision m)) => isDigit_numberText hb
    have hne := numberText_ne_nil (roundDecimal precision m)
    generalize numberText (roundDecimal precision m) = digits at hdigits hne
    refine ⟨digits.take 1, fractionText (digits.drop 1), ascii "e+" ++ numberText (digits.length - 1), ?_, ?_, ?_, ?_⟩
    · simp only [List.append_assoc]
    · refine isDigits_of_forall ?_ fun b hb => hdigits b (List.take_subset _ _ hb)
      obtain ⟨b, s, rfl⟩ := List.exists_cons_of_ne_nil hne
      exact List.cons_ne_nil b _
    · rw [fractionText]
      by_cases hzero : (digits.drop 1).rdropWhile (· == 48) = []
      · exact .inl (if_pos hzero)
      · refine .inr ⟨_, isDigits_of_forall hzero ?_, if_neg hzero⟩
        intro b hb
        have hpre := List.rdropWhile_prefix (fun b : UInt8 => b == 48) (digits.drop 1)
        exact hdigits b (List.drop_subset _ _ (hpre.subset hb))
    · exact .inr ⟨_, isDigits_numberText _, rfl⟩

theorem printNumber_readable (d : Int) : Json.Readable (.number (printNumber d)) := by
  have hparts : ∃ whole fraction exponent, (if intMin ≤ d ∧ d ≤ intMax then numberText d.natAbs
      else printMagnitude d.natAbs) = whole ++ (fraction ++ exponent) ∧ Json.NumberParts whole fraction exponent := by
    by_cases h : intMin ≤ d ∧ d ≤ intMax
    · rw [if_pos h]
      exact ⟨_, [], [], (List.append_nil _).symm, isDigits_numberText _, .inl rfl, .inl rfl⟩
    · rw [if_neg h]
      exact formatG_parts _ _
  obtain ⟨whole, fraction, exponent, htext, hparts⟩ := hparts
  have hreadable := hparts.readable (decide (d < 0))
  rw [printNumber, htext]
  simpa only [decide_eq_true_eq] using hreadable

/-! ## Where they are exact -/

theorem roundHalfEven_one (m : Nat) : roundHalfEven 1 m = m := by
  simp [roundHalfEven, Nat.mod_one]

theorem doubleOfNat_of_lt {m : Nat} (h : m < 2 ^ 53) : doubleOfNat m = m := by
  have hlog : Nat.log2 m + 1 - 53 = 0 := by
    by_cases hm : m = 0
    · subst hm
      rfl
    · have := (Nat.log2_lt hm).2 h
      omega
  rw [doubleOfNat, hlog]
  exact roundHalfEven_one m

theorem toDouble_of_lt {n : Int} (h : n.natAbs < 10 ^ 15) : toDouble n = n := by
  rw [toDouble, doubleOfNat_of_lt (Nat.lt_trans h (by decide))]
  by_cases hn : n < 0
  · rw [if_pos hn]
    omega
  · rw [if_neg hn]
    omega

/-- Fifteen digits are written as they are. -/
theorem printNumber_of_lt {d : Int} (h : d.natAbs < 10 ^ 15) :
    printNumber d = (if d < 0 then [45] else []) ++ numberText d.natAbs := by
  have hlen := length_numberText_le (by decide) h
  have hround : roundDecimal 15 d.natAbs = d.natAbs := by
    rw [roundDecimal, Nat.sub_eq_zero_of_le hlen]
    exact roundHalfEven_one _
  have hsame : compareDouble d.natAbs d.natAbs = true := by
    simp [compareDouble]
  have hmagnitude : printMagnitude d.natAbs = numberText d.natAbs := by
    rw [printMagnitude, hround, doubleOfNat_of_lt (Nat.lt_trans h (by decide)), hsame, if_pos rfl, formatG, if_pos hlen]
  rw [printNumber, hmagnitude, ite_self]

theorem numberValue_digits (negative : Bool) (m : Nat) :
    Json.numberValue ((if negative then [45] else []) ++ numberText m) = (if negative then -1 else 1) * m := by
  have hsign : Scan.sign ((if negative then [45] else []) ++ numberText m) = (negative, numberText m) := by
    cases negative with
    | true => rfl
    | false =>
      obtain ⟨b, s, htext⟩ := List.exists_cons_of_ne_nil (numberText_ne_nil m)
      have hb : Scan.isDigit 10 b = true := isDigit_numberText (htext ▸ List.mem_cons_self : b ∈ numberText m)
      show Scan.sign (numberText m) = _
      rw [htext]
      exact Scan.sign_of_isDigit hb s
  obtain ⟨htake, hdrop⟩ := Json.span_append (fun b hb => isDigit_numberText (n := m) hb)
    (show ∀ b ∈ ([] : Bytes).head?, Scan.isDigit 10 b = false from fun b hb => by cases hb)
  rw [List.append_nil] at htake hdrop
  rw [Json.numberValue, hsign]
  simp only [htake, hdrop, Json.splitFraction, Json.exponentValue, List.append_nil, value_numberText, List.length_nil,
    Nat.cast_zero, sub_zero, zpow_zero, mul_one]

/-- Below that the text stands for the number itself. -/
theorem numberValue_printNumber {n : Int} (h : n.natAbs < 10 ^ 15) :
    Json.numberValue (printNumber (toDouble n)) = n := by
  have hvalue := numberValue_digits (decide (n < 0)) n.natAbs
  rw [toDouble_of_lt h, printNumber_of_lt h]
  simp only [decide_eq_true_eq] at hvalue
  rw [hvalue]
  by_cases hn : n < 0
  · rw [if_pos hn, Nat.cast_natAbs, abs_of_neg hn, Int.cast_neg, neg_one_mul, neg_neg]
  · rw [if_neg hn, Nat.cast_natAbs, abs_of_nonneg (Int.not_lt.1 hn), one_mul]

end MindConnect.JsonUtil
