import MindConnect.Lib.Scan
import Mathlib.Algebra.Ring.Nat
import Mathlib.Data.Nat.Digits.Defs

/-!
# Lower-case hexadecimal text, and numbers in bytes

`padded` is what `%0<width>x` prints. A number that fits the width is printed with exactly that many digits, and
from them it can be read back. A number in memory is its bytes in one of the two orders.
-/

namespace Hex

/-! ## Digits -/

/-- `0` to `9` and `a` to `f` -/
def isLowerDigit (b : UInt8) : Bool := (48 ≤ b && b ≤ 57) || (97 ≤ b && b ≤ 102)

/-- The character of a digit below 16. -/
def digit (d : Nat) : UInt8 := (Nat.digitChar d).toNat.toUInt8

/-- A digit is scanned as its value. -/
theorem digitValue_digit : ∀ d < 16, Scan.digitValue (digit d) = some d := by decide

theorem digit_inj {d e : Nat} (hd : d < 16) (he : e < 16) : digit d = digit e ↔ d = e := by
  constructor
  · intro h
    have hvalue := congrArg Scan.digitValue h
    rw [digitValue_digit d hd, digitValue_digit e he] at hvalue
    exact Option.some.inj hvalue
  · rintro rfl
    rfl

theorem isLowerDigit_digit : ∀ d < 16, isLowerDigit (digit d) = true := by decide

/-! ## A fixed number of digits -/

/-- The last `width` digits of a number. -/
def digits : Nat → Nat → Bytes
  | 0, _ => []
  | width + 1, n => digits width (n / 16) ++ [digit (n % 16)]

@[simp] theorem digits_nothing (n : Nat) : digits 0 n = [] := rfl

theorem digits_succ (width n : Nat) : digits (width + 1) n = digits width (n / 16) ++ [digit (n % 16)] := rfl

@[simp] theorem length_digits (width n : Nat) : (digits width n).length = width := by
  induction width generalizing n with
  | zero => rfl
  | succ width ih => simp [digits_succ, ih]

theorem isLowerDigit_of_mem_digits {width n : Nat} {b : UInt8} (h : b ∈ digits width n) : isLowerDigit b = true := by
  induction width generalizing n with
  | zero => simp at h
  | succ width ih =>
    simp only [digits_succ, List.mem_append, List.mem_singleton] at h
    rcases h with h | rfl
    · exact ih h
    · exact isLowerDigit_digit _ (Nat.mod_lt _ (by decide))

/-- The digits are those of the number modulo the width. -/
theorem value_digits (width n : Nat) : Scan.value 16 (digits width n) = n % 16 ^ width := by
  induction width generalizing n with
  | zero => simp [Scan.value, Nat.mod_one]
  | succ width ih =>
    have hdigit := digitValue_digit (n % 16) (Nat.mod_lt _ (by decide))
    rw [digits_succ, Scan.value_append_singleton, ih, hdigit, Option.getD_some, Nat.pow_succ', Nat.mod_mul]
    omega

/-- Two numbers that fit have different digits. -/
theorem digits_inj {width n m : Nat} (hn : n < 16 ^ width) (hm : m < 16 ^ width) :
    digits width n = digits width m ↔ n = m := by
  constructor
  · intro h
    have hvalue := congrArg (Scan.value 16) h
    rwa [value_digits, value_digits, Nat.mod_eq_of_lt hn, Nat.mod_eq_of_lt hm] at hvalue
  · rintro rfl
    rfl

/-- The first of the digits. -/
theorem digits_cons (width n : Nat) : digits (width + 1) n = digit (n / 16 ^ width % 16) :: digits width n := by
  induction width generalizing n with
  | zero => simp [digits_succ]
  | succ width ih =>
    rw [digits_succ, ih, digits_succ, Nat.div_div_eq_div_mul, ← Nat.pow_succ', List.cons_append]

theorem digits_zero (width : Nat) : digits width 0 = List.replicate width 48 := by
  induction width with
  | zero => rfl
  | succ width ih =>
    rw [digits_succ, Nat.zero_div, ih, List.replicate_succ']
    rfl

theorem digit_eq : ∀ d < 16, digit d = UInt8.ofNat (if d < 10 then 48 + d else 87 + d) := by decide

/-- Every lower-case digit is the character of a value. -/
theorem exists_digit {b : UInt8} (h : isLowerDigit b = true) : ∃ d < 16, digit d = b := by
  have hrange : 48 ≤ b.toNat ∧ b.toNat ≤ 57 ∨ 97 ≤ b.toNat ∧ b.toNat ≤ 102 := by
    simpa [isLowerDigit, UInt8.le_iff_toNat_le] using h
  rcases hrange with h | h
  · refine ⟨b.toNat - 48, by omega, ?_⟩
    rw [digit_eq _ (by omega), if_pos (by omega), Nat.add_sub_cancel' h.1, UInt8.ofNat_toNat]
  · refine ⟨b.toNat - 87, by omega, ?_⟩
    rw [digit_eq _ (by omega), if_neg (by omega), Nat.add_sub_cancel' (by omega), UInt8.ofNat_toNat]

/-- A text of digits is the text of a number. -/
theorem exists_digits {s : Bytes} (h : ∀ b ∈ s, isLowerDigit b = true) :
    ∃ n < 16 ^ s.length, digits s.length n = s := by
  induction s using List.reverseRecOn with
  | nil => exact ⟨0, by decide, rfl⟩
  | append_singleton s b ih =>
    obtain ⟨n, hn, hs⟩ := ih fun c hc => h c (List.mem_append_left _ hc)
    obtain ⟨d, hd, rfl⟩ := exists_digit (h b (List.mem_append_right _ List.mem_cons_self))
    have hquotient : (16 * n + d) / 16 = n := by omega
    have hremainder : (16 * n + d) % 16 = d := by omega
    refine ⟨16 * n + d, ?_, ?_⟩
    · rw [List.length_append, List.length_singleton, Nat.pow_succ]
      omega
    · rw [List.length_append, List.length_singleton, digits_succ, hquotient, hremainder, hs]

/-! ## `%x` with a width -/

/-- `%x` -/
def text (n : Nat) : Bytes := (Nat.toDigits 16 n).map fun c => c.toNat.toUInt8

/-- `%0<width>x`: a number with more digits has them all. -/
def padded (width n : Nat) : Bytes := List.replicate (width - (text n).length) 48 ++ text n

theorem text_of_lt {n : Nat} (h : n < 16) : text n = [digit n] := by
  rw [text, Nat.toDigits_of_lt_base h]
  rfl

/-- The last digit stands behind the text of the quotient. -/
theorem text_of_le {n : Nat} (h : 16 ≤ n) : text n = text (n / 16) ++ [digit (n % 16)] := by
  rw [text, Nat.toDigits_of_base_le (by decide) h, List.map_append]
  rfl

/-- A number that fits is printed with exactly `width` digits. -/
theorem padded_eq_digits {width n : Nat} (hwidth : 0 < width) (h : n < 16 ^ width) :
    padded width n = digits width n := by
  induction width, hwidth using Nat.le_induction generalizing n with
  | base =>
    have hlt : n < 16 := by simpa using h
    rw [padded, text_of_lt hlt, digits_succ, digits_nothing, Nat.mod_eq_of_lt hlt]
    rfl
  | succ width hwidth ih =>
    rw [digits_succ]
    by_cases hlt : n < 16
    · rw [padded, text_of_lt hlt, Nat.div_eq_of_lt hlt, Nat.mod_eq_of_lt hlt, digits_zero]
      rfl
    · have hquotient : n / 16 < 16 ^ width := by
        rw [Nat.div_lt_iff_lt_mul (by decide), ← Nat.pow_succ]
        exact h
      rw [← ih hquotient, padded, padded, text_of_le (by omega), List.length_append, List.length_singleton,
        Nat.add_sub_add_right, List.append_assoc]

theorem length_padded {width n : Nat} (hwidth : 0 < width) (h : n < 16 ^ width) :
    (padded width n).length = width := by
  rw [padded_eq_digits hwidth h, length_digits]

theorem padded_inj {width n m : Nat} (hwidth : 0 < width) (hn : n < 16 ^ width) (hm : m < 16 ^ width) :
    padded width n = padded width m ↔ n = m := by
  rw [padded_eq_digits hwidth hn, padded_eq_digits hwidth hm, digits_inj hn hm]

theorem isLowerDigit_of_mem_padded {width n : Nat} (hwidth : 0 < width) (h : n < 16 ^ width) {b : UInt8}
    (hb : b ∈ padded width n) : isLowerDigit b = true := by
  rw [padded_eq_digits hwidth h] at hb
  exact isLowerDigit_of_mem_digits hb

/-- The first digit is the most significant one. -/
theorem head?_padded {width n : Nat} (h : n < 16 ^ (width + 1)) :
    (padded (width + 1) n).head? = some (digit (n / 16 ^ width)) := by
  have hlt : n / 16 ^ width < 16 := by
    rw [Nat.div_lt_iff_lt_mul (Nat.pow_pos (by decide)), ← Nat.pow_succ']
    exact h
  rw [padded_eq_digits (Nat.succ_pos width) h, digits_cons, List.head?_cons, Nat.mod_eq_of_lt hlt]

/-- Every text of `width` digits is printed for a number. -/
theorem exists_padded {width : Nat} {s : Bytes} (hwidth : 0 < width) (hlength : s.length = width)
    (h : ∀ b ∈ s, isLowerDigit b = true) : ∃ n < 16 ^ width, padded width n = s := by
  obtain ⟨n, hn, hs⟩ := exists_digits h
  rw [hlength] at hn hs
  exact ⟨n, hn, (padded_eq_digits hwidth hn).trans hs⟩

/-! ## Bytes as text -/

/-- `%02x` for each byte. -/
def ofBytes (bytes : Bytes) : Bytes := bytes.flatMap fun b => padded 2 b.toNat

/-- The high half of a byte, then the low one. -/
theorem padded_byte (b : UInt8) : padded 2 b.toNat = [digit (b.toNat / 16), digit (b.toNat % 16)] := by
  have hlt : b.toNat < 256 := b.toNat_lt
  rw [padded_eq_digits (by decide) hlt, digits_cons, digits_cons, digits_nothing, Nat.pow_one, Nat.pow_zero,
    Nat.div_one, Nat.mod_eq_of_lt (by omega)]

@[simp] theorem ofBytes_nil : ofBytes [] = [] := rfl

theorem ofBytes_cons (b : UInt8) (bytes : Bytes) : ofBytes (b :: bytes) = padded 2 b.toNat ++ ofBytes bytes := rfl

theorem ofBytes_singleton (b : UInt8) : ofBytes [b] = padded 2 b.toNat := List.append_nil _

theorem ofBytes_append (l r : Bytes) : ofBytes (l ++ r) = ofBytes l ++ ofBytes r := List.flatMap_append

@[simp] theorem length_ofBytes (bytes : Bytes) : (ofBytes bytes).length = 2 * bytes.length := by
  induction bytes with
  | nil => rfl
  | cons b bytes ih =>
    rw [ofBytes_cons, padded_byte, List.length_append, ih, List.length_cons, List.length_cons, List.length_cons,
      List.length_nil]
    omega

theorem isLowerDigit_of_mem_ofBytes {bytes : Bytes} {b : UInt8} (h : b ∈ ofBytes bytes) : isLowerDigit b = true := by
  obtain ⟨c, -, hb⟩ := List.mem_flatMap.1 h
  exact isLowerDigit_of_mem_padded (by decide) c.toNat_lt hb

theorem padded_byte_inj {b c : UInt8} : padded 2 b.toNat = padded 2 c.toNat ↔ b = c := by
  rw [padded_inj (by decide) b.toNat_lt c.toNat_lt, UInt8.toNat_inj]

/-- The text of bytes determines them, their number being known. -/
theorem ofBytes_inj {l r : Bytes} (hlength : l.length = r.length) : ofBytes l = ofBytes r ↔ l = r := by
  induction l generalizing r with
  | nil =>
    obtain rfl : r = [] := List.eq_nil_of_length_eq_zero hlength.symm
    simp
  | cons b l ih =>
    cases r with
    | nil => cases hlength
    | cons c r =>
      have hdigits : (padded 2 b.toNat).length = (padded 2 c.toNat).length := by
        rw [padded_byte, padded_byte]
        rfl
      rw [ofBytes_cons, ofBytes_cons, List.append_eq_append_iff_of_size_eq_left hdigits, padded_byte_inj,
        ih (Nat.succ.inj hlength), List.cons.injEq]

/-- Every text of twice as many digits is the text of bytes. -/
theorem exists_ofBytes (count : Nat) {s : Bytes} (hlength : s.length = 2 * count)
    (h : ∀ b ∈ s, isLowerDigit b = true) : ∃ bytes : Bytes, bytes.length = count ∧ ofBytes bytes = s := by
  induction count generalizing s with
  | zero => exact ⟨[], rfl, (List.eq_nil_of_length_eq_zero hlength).symm⟩
  | succ count ih =>
    obtain ⟨n, hn, hfirst⟩ := exists_padded (by decide : 0 < 2) (List.length_take_of_le (by omega : 2 ≤ s.length))
      fun b hb => h b (List.mem_of_mem_take hb)
    obtain ⟨bytes, hbytes, hrest⟩ := ih (s := s.drop 2) (by rw [List.length_drop]; omega)
      fun b hb => h b (List.mem_of_mem_drop hb)
    refine ⟨UInt8.ofNat n :: bytes, by rw [List.length_cons, hbytes], ?_⟩
    rw [ofBytes_cons, UInt8.toNat_ofNat_of_lt' hn, hfirst, hrest, List.take_append_drop]

end Hex

/-! ## Numbers in memory -/

/-- Of a number in memory. -/
inductive ByteOrder where
  | littleEndian | bigEndian
deriving DecidableEq, Repr

namespace ByteOrder

/-- The bytes from the least significant one on. -/
def ascending : ByteOrder → Bytes → Bytes
  | littleEndian, bytes => bytes
  | bigEndian, bytes => bytes.reverse

/-- The number that bytes in memory stand for. -/
def number (order : ByteOrder) (bytes : Bytes) : Nat := Nat.ofDigits 256 ((order.ascending bytes).map UInt8.toNat)

theorem number_pair_littleEndian (low high : UInt8) :
    littleEndian.number [low, high] = low.toNat + 256 * high.toNat := by
  simp [number, ascending, Nat.ofDigits]

theorem number_pair_bigEndian (high low : UInt8) : bigEndian.number [high, low] = low.toNat + 256 * high.toNat := by
  simp [number, ascending, Nat.ofDigits]

@[simp] theorem length_ascending (order : ByteOrder) (bytes : Bytes) :
    (order.ascending bytes).length = bytes.length := by
  cases order with
  | littleEndian => rfl
  | bigEndian => exact List.length_reverse

theorem ascending_inj {order : ByteOrder} {l r : Bytes} : order.ascending l = order.ascending r ↔ l = r := by
  cases order with
  | littleEndian => rfl
  | bigEndian => exact List.reverse_inj

theorem toNat_lt_of_mem {bytes : Bytes} : ∀ d ∈ bytes.map UInt8.toNat, d < 256 := by
  intro d hd
  obtain ⟨b, -, rfl⟩ := List.mem_map.1 hd
  exact b.toNat_lt

/-- A number in memory fits its bytes. -/
theorem number_lt (order : ByteOrder) (bytes : Bytes) : order.number bytes < 256 ^ bytes.length := by
  have hdigits : ∀ d ∈ (order.ascending bytes).map UInt8.toNat, d < 256 := toNat_lt_of_mem
  have h := Nat.ofDigits_lt_base_pow_length (by decide) hdigits
  rwa [List.length_map, length_ascending] at h

/-- The number determines the bytes, their count being known. -/
theorem number_inj {order : ByteOrder} {l r : Bytes} (hlength : l.length = r.length) :
    order.number l = order.number r ↔ l = r := by
  constructor
  · intro h
    have hdigits := Nat.ofDigits_inj_of_len_eq (by decide : 1 < 256) (by simpa using hlength) toNat_lt_of_mem
      toNat_lt_of_mem h
    exact ascending_inj.1 (List.map_injective_iff.2 (fun b c => UInt8.toNat_inj.1) hdigits)
  · rintro rfl
    rfl

/-- Every number that fits is one in memory. -/
theorem exists_bytes (order : ByteOrder) {width n : Nat} (h : n < 256 ^ width) :
    ∃ bytes : Bytes, bytes.length = width ∧ order.number bytes = n := by
  have hascending : ∃ bytes : Bytes, bytes.length = width ∧ littleEndian.number bytes = n := by
    induction width generalizing n with
    | zero => exact ⟨[], rfl, (Nat.lt_one_iff.1 h).symm⟩
    | succ width ih =>
      have hquotient : n / 256 < 256 ^ width := by
        rw [Nat.div_lt_iff_lt_mul (by decide), ← Nat.pow_succ]
        exact h
      obtain ⟨bytes, hlength, hnumber⟩ := ih hquotient
      refine ⟨UInt8.ofNat (n % 256) :: bytes, by rw [List.length_cons, hlength], ?_⟩
      simp only [number, ascending, List.map_cons, Nat.ofDigits_cons] at hnumber ⊢
      rw [hnumber, UInt8.toNat_ofNat_of_lt' (Nat.mod_lt _ (by decide))]
      exact Nat.mod_add_div n 256
  obtain ⟨bytes, hlength, hnumber⟩ := hascending
  cases order with
  | littleEndian => exact ⟨bytes, hlength, hnumber⟩
  | bigEndian =>
    refine ⟨bytes.reverse, by rw [List.length_reverse, hlength], ?_⟩
    rw [number, ascending, List.reverse_reverse]
    exact hnumber

end ByteOrder
