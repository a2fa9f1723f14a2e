import MindConnect.Core.Common
import MindConnect.Lib.Bytes
import Mathlib.Algebra.Ring.Nat

/-!
# Base64: `base64.c`

| here | there |
| --- | --- |
| `Table` | an encoding table with its decoding table |
| `encodeWithTable` | `_encode_with_table` (`base64.c:301`) |
| `decodeWithTable`, `decodeQuantum` | `_decode_with_table` (`:147`), `_decode_quantum` (`:243`) |

Reading outside a string or writing outside a block has no outcome. No block takes more than half of the address
space, so sizes do not wrap.
-/

namespace MindConnect.Base64

def paddingChar : UInt8 := 61
def quantumSize : Nat := 4
def inputGroupSize : Nat := 3
def maxPaddingCharCount : Nat := 2

/-! ## Tables -/

/-- `base64_url_encode_table` -/
def base64UrlEncodeTable : Bytes := ascii "ABCDEFGHIJKLMNOPQRSTUVWXYZabcdefghijklmnopqrstuvwxyz0123456789-_"

/-- `base64_url_decode_table`, row by row -/
def base64UrlDecodeTable : Bytes :=
  List.replicate 32 0xFF ++
  [0xFF, 0xFF, 0xFF, 0xFF, 0xFF, 0xFF, 0xFF, 0xFF, 0xFF, 0xFF, 0xFF, 0xFF, 0xFF, 0x3E, 0xFF, 0xFF,
    0x34, 0x35, 0x36, 0x37, 0x38, 0x39, 0x3A, 0x3B, 0x3C, 0x3D, 0xFF, 0xFF, 0xFF, 0xFF, 0xFF, 0xFF,
    0xFF, 0x00, 0x01, 0x02, 0x03, 0x04, 0x05, 0x06, 0x07, 0x08, 0x09, 0x0A, 0x0B, 0x0C, 0x0D, 0x0E,
    0x0F, 0x10, 0x11, 0x12, 0x13, 0x14, 0x15, 0x16, 0x17, 0x18, 0x19, 0xFF, 0xFF, 0xFF, 0xFF, 0x3F,
    0xFF, 0x1A, 0x1B, 0x1C, 0x1D, 0x1E, 0x1F, 0x20, 0x21, 0x22, 0x23, 0x24, 0x25, 0x26, 0x27, 0x28,
    0x29, 0x2A, 0x2B, 0x2C, 0x2D, 0x2E, 0x2F, 0x30, 0x31, 0x32, 0x33, 0xFF, 0xFF, 0xFF, 0xFF, 0xFF] ++
  List.replicate 128 0xFF

def charOf (table : Bytes) (v : Nat) : UInt8 := table.getD v 0
def indexOf (table : Bytes) (c : UInt8) : UInt8 := table.getD c.toNat 0

/-- The decoding table gives back the index of a character. Neither the padding nor a dot or a NUL is one. -/
structure Table where
  encode : Bytes
  decode : Bytes
  inverse : ∀ v < 64, (indexOf decode (charOf encode v)).toNat = v
  not_special : ∀ v < 64, charOf encode v ∉ [paddingChar, 46, 0]

def urlTable : Table := ⟨base64UrlEncodeTable, base64UrlDecodeTable, by decide +kernel, by decide +kernel⟩

/-! ## Encoding -/

/-- The characters `index - 1` down to 0 of a quantum; those behind `remainder` are padding. -/
def encodeQuantum (table : Bytes) (remainder : Nat) : Nat → Nat → Bytes
  | 0, _ => []
  | index + 1, input =>
    encodeQuantum table remainder index (input >>> 6) ++
      [if remainder < index then paddingChar else charOf table (input &&& 0x3F)]

/-- Groups of three, then what remains. In a full group no character is padding. -/
def encodeGroups (table : Bytes) : Bytes → Bytes
  | a :: b :: c :: data =>
    encodeQuantum table 3 quantumSize (a.toNat <<< 16 ||| b.toNat <<< 8 ||| c.toNat) ++ encodeGroups table data
  | [a, b] => encodeQuantum table 2 quantumSize (a.toNat <<< 16 ||| b.toNat <<< 8)
  | [a] => encodeQuantum table 1 quantumSize (a.toNat <<< 16)
  | [] => []

def encodedBufferSize (dataSize : Nat) : Nat :=
  dataSize / inputGroupSize * quantumSize + 1 + if dataSize % inputGroupSize ≠ 0 then quantumSize else 0

def encodeWithTable (table : Table) (data : Bytes) (allocated : Bool) : Option (Result CString) :=
  if allocated then do
    let bufferSize := encodedBufferSize data.length
    let buffer ← Bytes.write (List.replicate bufferSize 0) 0 (encodeGroups table.encode data)
    let buffer ← Bytes.write buffer (bufferSize - 1) [0]
    return .ok (CString.ofBuffer buffer)
  else return .error .outOfMemory

/-- `base64_url_encode` -/
def base64UrlEncode (data : Bytes) (allocated : Bool) : Option (Result CString) :=
  encodeWithTable urlTable data allocated

/-! ## Decoding -/

/-- Steps that may fail with a code or have no outcome. -/
abbrev Run := ExceptT McError Option

def Run.of {α : Type} (r : Result α) : Run α := ExceptT.mk (some r)

theorem Run.bind_eq_ok {α β : Type} {x : Run α} {f : α → Run β} {b : β} (h : (x >>= f).run = some (.ok b)) :
    ∃ a, x.run = some (.ok a) ∧ (f a).run = some (.ok b) := by
  cases hx : x.run with
  | none =>
    rw [ExceptT.run_bind, hx] at h
    cases h
  | some r =>
    rw [ExceptT.run_bind, hx] at h
    cases r with
    | error e => cases h
    | ok a => exact ⟨a, rfl, h⟩

theorem Run.of_eq_ok {α : Type} {r : Result α} {a : α} (h : (Run.of r).run = some (.ok a)) : r = .ok a :=
  Option.some.inj h

def readAt (s : Bytes) (i : Nat) : Run UInt8 := ExceptT.mk (s[i]?.map .ok)
def writeAt (block : Bytes) (i : Nat) (b : UInt8) : Run Bytes := ExceptT.mk ((block.write i [b]).map .ok)

/-- From `index` down to 1. -/
def countPadding (encoded : Bytes) : Nat → Nat → Run Nat
  | 0, paddingCount => return paddingCount
  | index + 1, paddingCount => do
    let c ← readAt encoded (index + 1)
    if c = paddingChar then
      if maxPaddingCharCount < paddingCount + 1 then throw .badContentEncoding
      else countPadding encoded index (paddingCount + 1)
    else return paddingCount

/-- `n` characters from `index` on. -/
def checkNoPadding (encoded : Bytes) : Nat → Nat → Run Unit
  | 0, _ => return ()
  | n + 1, index => do
    let c ← readAt encoded index
    if c = paddingChar then throw .badContentEncoding else checkNoPadding encoded n (index + 1)

/-- `data` and `padding_count` after `n` characters from `index` on. -/
def composeQuantum (table encoded : Bytes) : Nat → Nat → Nat → Nat → Run (Nat × Nat)
  | 0, _, data, paddingCount => return (data, paddingCount)
  | n + 1, index, data, paddingCount => do
    let c ← readAt encoded index
    if c = paddingChar then
      if maxPaddingCharCount < paddingCount + 1 then throw .badContentEncoding
      else composeQuantum table encoded n (index + 1) (data <<< 6) (paddingCount + 1)
    else if indexOf table c = 0xFF then throw .badContentEncoding
    else composeQuantum table encoded n (index + 1) (data <<< 6 + (indexOf table c).toNat) paddingCount

/-- The bytes `index - 1` down to 0 of a group at `pos`. -/
def writeGroup (pos paddingCount : Nat) : Nat → Nat → Bytes → Run Bytes
  | 0, _, block => return block
  | index + 1, data, block =>
    if paddingCount + index < inputGroupSize then do
      let block ← writeAt block (pos + index) (UInt8.ofNat (data &&& 0xFF))
      writeGroup pos paddingCount index (data >>> 8) block
    else writeGroup pos paddingCount index (data >>> 8) block

def decodeQuantum (table encoded : Bytes) (source destination : Nat) (block : Bytes) : Run Bytes := do
  let (data, paddingCount) ← composeQuantum table encoded quantumSize source 0 0
  writeGroup destination paddingCount inputGroupSize data block

/-- `n` quantums from the one at `index` on. -/
def decodeQuantums (table encoded : Bytes) : Nat → Nat → Bytes → Run Bytes
  | 0, _, block => return block
  | n + 1, index, block => do
    let block ← decodeQuantum table encoded (index * quantumSize) (index * inputGroupSize) block
    decodeQuantums table encoded n (index + 1) block

/-- The decoded block with its terminator, and the size without. -/
def decodeWithTable (table : Table) (encoded : CString) (allocated : Bool) : Run (Bytes × Nat) :=
  if 0 < encoded.length ∧ encoded.length % quantumSize = 0 then do
    let paddingCount ← countPadding encoded.bytes (encoded.length - 1) 0
    checkNoPadding encoded.bytes (encoded.length - (1 + paddingCount)) 0
    let numberOfQuantums := encoded.length / quantumSize
    let size := numberOfQuantums * inputGroupSize - paddingCount
    if allocated then do
      let block ← decodeQuantums table.decode encoded.bytes numberOfQuantums 0 (List.replicate (size + 1) 0)
      let block ← writeAt block size 0
      return (block, size)
    else throw .outOfMemory
  else throw .badContentEncoding

/-- `base64_url_decode` -/
def base64UrlDecode (encoded : CString) (allocated : Bool) : Run (Bytes × Nat) :=
  decodeWithTable urlTable encoded allocated

/-! ## Encoded text -/

section
variable {t : Table}

theorem charOf_ne {v : Nat} (hv : v < 64) {b : UInt8} (hb : b ∈ [paddingChar, 46, 0]) : charOf t.encode v ≠ b :=
  fun h => t.not_special v hv (h ▸ hb)

/-- A character of the alphabet. -/
def IsChar (t : Table) (c : UInt8) : Prop := ∃ v < 64, c = charOf t.encode v

theorem and_mask (n : Nat) : n &&& 0x3F = n % 64 := Nat.and_two_pow_sub_one_eq_mod n 6

theorem and_lowByte (n : Nat) : n &&& 0xFF = n % 256 := Nat.and_two_pow_sub_one_eq_mod n 8

theorem shiftRight_six (n : Nat) : n >>> 6 = n / 64 := Nat.shiftRight_eq_div_pow n 6

theorem encodeQuantum_full (table : Bytes) (n : Nat) :
    encodeQuantum table 3 quantumSize n = [charOf table (n / 262144 % 64), charOf table (n / 4096 % 64),
      charOf table (n / 64 % 64), charOf table (n % 64)] := by
  simp [encodeQuantum, quantumSize, and_mask, shiftRight_six, Nat.div_div_eq_div_mul]

theorem encodeQuantum_two (table : Bytes) (n : Nat) :
    encodeQuantum table 2 quantumSize n = [charOf table (n / 262144 % 64), charOf table (n / 4096 % 64),
      charOf table (n / 64 % 64), paddingChar] := by
  simp [encodeQuantum, quantumSize, and_mask, shiftRight_six, Nat.div_div_eq_div_mul]

theorem encodeQuantum_one (table : Bytes) (n : Nat) :
    encodeQuantum table 1 quantumSize n = [charOf table (n / 262144 % 64), charOf table (n / 4096 % 64),
      paddingChar, paddingChar] := by
  simp [encodeQuantum, quantumSize, and_mask, shiftRight_six, Nat.div_div_eq_div_mul]

/-- The 24 bits of a group. -/
theorem group_value (a b c : UInt8) :
    a.toNat <<< 16 ||| b.toNat <<< 8 ||| c.toNat = a.toNat * 65536 + b.toNat * 256 + c.toNat := by
  have hb := b.toNat_lt
  have hc := c.toNat_lt
  have h1 : b.toNat <<< 8 ||| c.toNat = b.toNat * 256 + c.toNat := by
    rw [← Nat.shiftLeft_add_eq_or_of_lt (by omega : c.toNat < 2 ^ 8), Nat.shiftLeft_eq]
  rw [Nat.or_assoc, h1, ← Nat.shiftLeft_add_eq_or_of_lt (by omega : b.toNat * 256 + c.toNat < 2 ^ 16), Nat.shiftLeft_eq]
  omega

theorem pair_value (a b : UInt8) : a.toNat <<< 16 ||| b.toNat <<< 8 = a.toNat * 65536 + b.toNat * 256 := by
  have h := group_value a b 0
  simpa using h

/-- Alphabet characters, at least one, and at most two of padding; four for every group. -/
theorem encodeGroups_shape (t : Table) {data : Bytes} (hdata : data ≠ []) :
    ∃ body c k, encodeGroups t.encode data = body ++ c :: List.replicate k paddingChar ∧
      (∀ b ∈ body, IsChar t b) ∧ IsChar t c ∧ k ≤ 2 ∧
      (body ++ c :: List.replicate k paddingChar).length = (data.length + 2) / 3 * quantumSize ∧
      data.length + k = (data.length + 2) / 3 * inputGroupSize := by
  have hchar : ∀ n, IsChar t (charOf t.encode (n % 64)) := fun n => ⟨n % 64, Nat.mod_lt _ (by decide), rfl⟩
  induction data using encodeGroups.induct with
  | case1 a b c data ih =>
    rw [encodeGroups, encodeQuantum_full]
    generalize (a.toNat <<< 16 ||| b.toNat <<< 8 ||| c.toNat) = n
    by_cases hnil : data = []
    · subst hnil
      refine ⟨[charOf t.encode (n / 262144 % 64), charOf t.encode (n / 4096 % 64), charOf t.encode (n / 64 % 64)],
        charOf t.encode (n % 64), 0, rfl, ?_, hchar _, by decide, by simp [quantumSize], by simp [inputGroupSize]⟩
      intro x hx
      simp only [List.mem_cons, List.not_mem_nil, or_false] at hx
      rcases hx with rfl | rfl | rfl <;> exact hchar _
    · obtain ⟨body, last, k, htext, hbody, hlast, hk, hlen, hsize⟩ := ih hnil
      refine ⟨[charOf t.encode (n / 262144 % 64), charOf t.encode (n / 4096 % 64), charOf t.encode (n / 64 % 64),
        charOf t.encode (n % 64)] ++ body, last, k, by rw [htext, List.append_assoc], ?_, hlast, hk, ?_, ?_⟩
      · intro x hx
        simp only [List.mem_append, List.mem_cons, List.not_mem_nil, or_false] at hx
        rcases hx with (rfl | rfl | rfl | rfl) | hx
        · exact hchar _
        · exact hchar _
        · exact hchar _
        · exact hchar _
        · exact hbody x hx
      · rw [List.append_assoc, List.length_append, hlen]
        simp only [List.length_cons, List.length_nil, quantumSize]
        omega
      · simp only [List.length_cons, inputGroupSize] at hsize ⊢
        omega
  | case2 a b =>
    rw [encodeGroups, encodeQuantum_two]
    generalize (a.toNat <<< 16 ||| b.toNat <<< 8) = n
    refine ⟨[charOf t.encode (n / 262144 % 64), charOf t.encode (n / 4096 % 64)], charOf t.encode (n / 64 % 64), 1, rfl,
      ?_, hchar _, by decide, by simp [quantumSize], by simp [inputGroupSize]⟩
    intro x hx
    simp only [List.mem_cons, List.not_mem_nil, or_false] at hx
    rcases hx with rfl | rfl <;> exact hchar _
  | case3 a =>
    rw [encodeGroups, encodeQuantum_one]
    refine ⟨[charOf t.encode (a.toNat <<< 16 / 262144 % 64)], charOf t.encode (a.toNat <<< 16 / 4096 % 64), 2, rfl,
      ?_, hchar _, by decide, by simp [quantumSize], by simp [inputGroupSize]⟩
    intro x hx
    rw [List.mem_singleton.1 hx]
    exact hchar _
  | case4 => exact absurd rfl hdata

theorem IsChar.ne {c : UInt8} (h : IsChar t c) {b : UInt8} (hb : b ∈ [paddingChar, 46, 0]) : c ≠ b := by
  obtain ⟨v, hv, rfl⟩ := h
  exact charOf_ne hv hb

theorem not_mem_encodeGroups (data : Bytes) {b : UInt8} (hb : b ∈ [46, 0]) : b ∉ encodeGroups t.encode data := by
  intro hmem
  have hpad : b ≠ paddingChar := by
    rintro rfl
    revert hb
    decide
  by_cases hdata : data = []
  · subst hdata
    exact absurd hmem List.not_mem_nil
  · obtain ⟨body, c, k, htext, hbody, hc, -⟩ := encodeGroups_shape t hdata
    rw [htext, List.mem_append, List.mem_cons] at hmem
    rcases hmem with hmem | rfl | hmem
    · exact (hbody b hmem).ne (List.mem_cons_of_mem _ hb) rfl
    · exact hc.ne (List.mem_cons_of_mem _ hb) rfl
    · exact hpad (List.eq_of_mem_replicate hmem)

theorem length_encodeGroups (data : Bytes) : (encodeGroups t.encode data).length + 1 = encodedBufferSize data.length := by
  by_cases hdata : data = []
  · subst hdata
    rfl
  · obtain ⟨body, c, k, htext, -, -, -, hlen, -⟩ := encodeGroups_shape t hdata
    have hpos := List.length_pos_iff.2 hdata
    rw [htext, hlen, encodedBufferSize, inputGroupSize, quantumSize]
    by_cases hrest : data.length % 3 = 0
    · rw [if_neg (not_not.2 hrest)]
      omega
    · rw [if_pos hrest]
      omega

/-- What encoding comes to. -/
def encoded (t : Table) (data : Bytes) : CString :=
  ⟨encodeGroups t.encode data, not_mem_encodeGroups data (List.mem_cons_of_mem _ (List.mem_singleton.2 rfl))⟩

theorem encodeWithTable_eq (data : Bytes) : encodeWithTable t data true = some (.ok (encoded t data)) := by
  have hlen := length_encodeGroups (t := t) data
  have h0 : 0 ∉ encodeGroups t.encode data := not_mem_encodeGroups data (by decide)
  have hwrite : Bytes.write (List.replicate (encodedBufferSize data.length) 0) 0 (encodeGroups t.encode data) =
      some (encodeGroups t.encode data ++ [0]) := by
    rw [← hlen, Bytes.write_eq_some (by simp)]
    simp
  have hend : Bytes.write (encodeGroups t.encode data ++ [0]) (encodedBufferSize data.length - 1) [0] =
      some (encodeGroups t.encode data ++ [0]) := by
    rw [← hlen, Nat.add_sub_cancel, Bytes.write_eq_some (by simp)]
    simp
  have htext : (CString.ofBuffer (encodeGroups t.encode data ++ [0])).bytes = encodeGroups t.encode data := by
    show (encodeGroups t.encode data ++ [0]).takeWhile (· != 0) = _
    have hne : ∀ b ∈ encodeGroups t.encode data, (b != 0) = true := by
      intro b hb
      exact bne_iff_ne.2 fun h => h0 (h ▸ hb)
    rw [List.takeWhile_append_of_pos hne]
    simp
  rw [encodeWithTable, if_pos rfl]
  simp only [bind, Option.bind, hwrite, hend, pure]
  exact congrArg (fun s : CString => some (.ok s : Result CString)) (CString.ext htext)

/-! ## Decoding what was encoded -/

theorem readAt_eq {s : Bytes} {i : Nat} {c : UInt8} (h : s[i]? = some c) : readAt s i = pure c := by
  rw [readAt, h]
  rfl

theorem writeAt_append {l r : Bytes} {x : UInt8} {i : Nat} (h : i = l.length) (b : UInt8) :
    writeAt (l ++ x :: r) i b = pure (l ++ b :: r) := by
  subst h
  rw [writeAt, Bytes.write_eq_some (by simp)]
  simp
  rfl

theorem countPadding_eq {s : Bytes} {n : Nat} {c : UInt8} (hc : s[n]? = some c) (hne : c ≠ paddingChar) (k j : Nat)
    (hk : k + j ≤ 2) (hpadding : ∀ m < k, s[n + 1 + m]? = some paddingChar) :
    countPadding s (n + k) j = pure (k + j) := by
  induction k generalizing j with
  | zero =>
    rw [Nat.zero_add]
    cases n with
    | zero => rfl
    | succ n =>
      rw [Nat.add_zero, countPadding, readAt_eq hc, pure_bind, if_neg hne]
  | succ k ih =>
    have hlast := hpadding k (Nat.lt_succ_self k)
    rw [show n + 1 + k = n + k + 1 by omega] at hlast
    rw [show n + (k + 1) = n + k + 1 by omega, countPadding, readAt_eq hlast, pure_bind, if_pos rfl,
      if_neg (by simp only [maxPaddingCharCount]; omega),
      ih (j + 1) (by omega) fun m hm => hpadding m (Nat.lt_succ_of_lt hm)]
    congr 1
    omega

theorem checkNoPadding_eq {s : Bytes} (n index : Nat) (h : ∀ m < n, ∃ c, s[index + m]? = some c ∧ c ≠ paddingChar) :
    checkNoPadding s n index = pure () := by
  induction n generalizing index with
  | zero => rfl
  | succ n ih =>
    obtain ⟨c, hc, hne⟩ := h 0 (Nat.succ_pos n)
    rw [Nat.add_zero] at hc
    rw [checkNoPadding, readAt_eq hc, pure_bind, if_neg hne]
    apply ih
    intro m hm
    have := h (m + 1) (Nat.succ_lt_succ hm)
    rwa [show index + (m + 1) = index + 1 + m by omega] at this

theorem composeQuantum_char {s : Bytes} {i v : Nat} (hv : v < 64) (h : s[i]? = some (charOf t.encode v)) (n data p : Nat) :
    composeQuantum t.decode s (n + 1) i data p = composeQuantum t.decode s n (i + 1) (data * 64 + v) p := by
  have hindex := t.inverse v hv
  have hvalid : indexOf t.decode (charOf t.encode v) ≠ 0xFF := by
    intro he
    rw [he] at hindex
    simp at hindex
    omega
  rw [composeQuantum, readAt_eq h, pure_bind, if_neg (charOf_ne hv (by decide)), if_neg hvalid, hindex, Nat.shiftLeft_eq]

theorem composeQuantum_padding {s : Bytes} {i : Nat} (h : s[i]? = some paddingChar) (n data : Nat) {p : Nat} (hp : p < 2) :
    composeQuantum t.decode s (n + 1) i data p = composeQuantum t.decode s n (i + 1) (data * 64) (p + 1) := by
  rw [composeQuantum, readAt_eq h, pure_bind, if_pos rfl, if_neg (by simp only [maxPaddingCharCount]; omega), Nat.shiftLeft_eq]

/-- The bits of four characters put together. -/
theorem sextets (n : Nat) (hn : n < 2 ^ 24) :
    (((0 * 64 + n / 262144 % 64) * 64 + n / 4096 % 64) * 64 + n / 64 % 64) * 64 + n % 64 = n := by omega

theorem getElem?_at (before : Bytes) (text : Bytes) (i : Nat) (hi : before.length = i) (k : Nat) :
    (before ++ text)[i + k]? = text[k]? := by
  rw [List.getElem?_append_right (by omega)]
  congr 1
  omega

theorem writeGroup_full {l r : Bytes} {x y z : UInt8} {pos : Nat} (hpos : pos = l.length) (n : Nat) :
    writeGroup pos 0 inputGroupSize n (l ++ x :: y :: z :: r) =
      pure (l ++ UInt8.ofNat (n / 65536 % 256) :: UInt8.ofNat (n / 256 % 256) :: UInt8.ofNat (n % 256) :: r) := by
  have h2 := writeAt_append (l := l ++ [x, y]) (r := r) (x := z) (i := pos + 2) (by simp [hpos]) (UInt8.ofNat (n % 256))
  have h1 := writeAt_append (l := l ++ [x]) (r := UInt8.ofNat (n % 256) :: r) (x := y) (i := pos + 1) (by simp [hpos])
    (UInt8.ofNat (n / 256 % 256))
  have h0 := writeAt_append (l := l) (r := UInt8.ofNat (n / 256 % 256) :: UInt8.ofNat (n % 256) :: r) (x := x) (i := pos + 0)
    hpos (UInt8.ofNat (n / 65536 % 256))
  simp only [List.append_assoc, List.cons_append, List.nil_append] at h2 h1
  simp only [inputGroupSize, writeGroup, and_lowByte, Nat.shiftRight_eq_div_pow, Nat.div_div_eq_div_mul, Nat.zero_add,
    Nat.reduceLT, if_true, Nat.reducePow, Nat.reduceMul, h2, h1, h0, pure_bind]

theorem writeGroup_two {l r : Bytes} {x y : UInt8} {pos : Nat} (hpos : pos = l.length) (n : Nat) :
    writeGroup pos 1 inputGroupSize n (l ++ x :: y :: r) =
      pure (l ++ UInt8.ofNat (n / 65536 % 256) :: UInt8.ofNat (n / 256 % 256) :: r) := by
  have h1 := writeAt_append (l := l ++ [x]) (r := r) (x := y) (i := pos + 1) (by simp [hpos])
    (UInt8.ofNat (n / 256 % 256))
  have h0 := writeAt_append (l := l) (r := UInt8.ofNat (n / 256 % 256) :: r) (x := x) (i := pos + 0)
    hpos (UInt8.ofNat (n / 65536 % 256))
  simp only [List.append_assoc, List.cons_append, List.nil_append] at h1
  simp only [inputGroupSize, writeGroup, and_lowByte, Nat.shiftRight_eq_div_pow, Nat.div_div_eq_div_mul, Nat.reduceAdd,
    Nat.reduceLT, if_true, if_false, Nat.reducePow, Nat.reduceMul, h1, h0, pure_bind]

theorem writeGroup_one {l r : Bytes} {x : UInt8} {pos : Nat} (hpos : pos = l.length) (n : Nat) :
    writeGroup pos 2 inputGroupSize n (l ++ x :: r) = pure (l ++ UInt8.ofNat (n / 65536 % 256) :: r) := by
  have h0 := writeAt_append (l := l) (r := r) (x := x) (i := pos + 0) hpos (UInt8.ofNat (n / 65536 % 256))
  simp only [inputGroupSize, writeGroup, and_lowByte, Nat.shiftRight_eq_div_pow, Nat.div_div_eq_div_mul, Nat.reduceAdd,
    Nat.reduceLT, if_true, if_false, Nat.reducePow, Nat.reduceMul, h0, pure_bind]

section
variable {s : Bytes} {i n : Nat} (hn : n < 2 ^ 24) (h0 : s[i]? = some (charOf t.encode (n / 262144 % 64)))
  (h1 : s[i + 1]? = some (charOf t.encode (n / 4096 % 64)))
include hn h0 h1

theorem composeQuantum_full (h2 : s[i + 1 + 1]? = some (charOf t.encode (n / 64 % 64)))
    (h3 : s[i + 1 + 1 + 1]? = some (charOf t.encode (n % 64))) :
    composeQuantum t.decode s quantumSize i 0 0 = pure (n, 0) := by
  have hlt : ∀ m, m % 64 < 64 := fun m => Nat.mod_lt m (by decide)
  rw [show quantumSize = 0 + 1 + 1 + 1 + 1 from rfl, composeQuantum_char (hlt _) h0, composeQuantum_char (hlt _) h1,
    composeQuantum_char (hlt _) h2, composeQuantum_char (hlt _) h3, sextets n hn]
  rfl

theorem composeQuantum_two (hzero : n % 64 = 0) (h2 : s[i + 1 + 1]? = some (charOf t.encode (n / 64 % 64)))
    (h3 : s[i + 1 + 1 + 1]? = some paddingChar) : composeQuantum t.decode s quantumSize i 0 0 = pure (n, 1) := by
  have hlt : ∀ m, m % 64 < 64 := fun m => Nat.mod_lt m (by decide)
  have hsextets := sextets n hn
  rw [hzero, Nat.add_zero] at hsextets
  rw [show quantumSize = 0 + 1 + 1 + 1 + 1 from rfl, composeQuantum_char (hlt _) h0, composeQuantum_char (hlt _) h1,
    composeQuantum_char (hlt _) h2, composeQuantum_padding h3 _ _ (by decide), hsextets]
  rfl

theorem composeQuantum_one (hzero : n % 4096 = 0) (h2 : s[i + 1 + 1]? = some paddingChar)
    (h3 : s[i + 1 + 1 + 1]? = some paddingChar) : composeQuantum t.decode s quantumSize i 0 0 = pure (n, 2) := by
  have hlt : ∀ m, m % 64 < 64 := fun m => Nat.mod_lt m (by decide)
  have hsextets : ((0 * 64 + n / 262144 % 64) * 64 + n / 4096 % 64) * 64 * 64 = n := by omega
  rw [show quantumSize = 0 + 1 + 1 + 1 + 1 from rfl, composeQuantum_char (hlt _) h0, composeQuantum_char (hlt _) h1,
    composeQuantum_padding h2 _ _ (by decide), composeQuantum_padding h3 _ _ (by decide), hsextets]
  rfl

end

section
variable {before l r : Bytes} {i : Nat} (hbefore : before.length = i * quantumSize)
  (hl : l.length = i * inputGroupSize) {n : Nat} (hn : n < 2 ^ 24)
include hbefore hl hn

theorem decodeQuantum_full (after : Bytes) (x y z : UInt8) :
    decodeQuantum t.decode (before ++ (encodeQuantum t.encode 3 quantumSize n ++ after)) (i * quantumSize)
      (i * inputGroupSize) (l ++ x :: y :: z :: r) =
      pure (l ++ UInt8.ofNat (n / 65536 % 256) :: UInt8.ofNat (n / 256 % 256) :: UInt8.ofNat (n % 256) :: r) := by
  have hchar := getElem?_at before (encodeQuantum t.encode 3 quantumSize n ++ after) _ hbefore
  rw [encodeQuantum_full] at hchar ⊢
  rw [decodeQuantum, composeQuantum_full (i := i * quantumSize) hn (hchar 0) (hchar 1) (hchar 2) (hchar 3), pure_bind]
  exact writeGroup_full hl.symm n

theorem decodeQuantum_two (hzero : n % 64 = 0) (x y : UInt8) :
    decodeQuantum t.decode (before ++ encodeQuantum t.encode 2 quantumSize n) (i * quantumSize)
      (i * inputGroupSize) (l ++ x :: y :: r) =
      pure (l ++ UInt8.ofNat (n / 65536 % 256) :: UInt8.ofNat (n / 256 % 256) :: r) := by
  have hchar := getElem?_at before (encodeQuantum t.encode 2 quantumSize n) _ hbefore
  rw [encodeQuantum_two] at hchar ⊢
  rw [decodeQuantum, composeQuantum_two (i := i * quantumSize) hn (hchar 0) (hchar 1) hzero (hchar 2) (hchar 3), pure_bind]
  exact writeGroup_two hl.symm n

theorem decodeQuantum_one (hzero : n % 4096 = 0) (x : UInt8) :
    decodeQuantum t.decode (before ++ encodeQuantum t.encode 1 quantumSize n) (i * quantumSize)
      (i * inputGroupSize) (l ++ x :: r) = pure (l ++ UInt8.ofNat (n / 65536 % 256) :: r) := by
  have hchar := getElem?_at before (encodeQuantum t.encode 1 quantumSize n) _ hbefore
  rw [encodeQuantum_one] at hchar ⊢
  rw [decodeQuantum, composeQuantum_one (i := i * quantumSize) hn (hchar 0) (hchar 1) hzero (hchar 2) (hchar 3), pure_bind]
  exact writeGroup_one hl.symm n

end

theorem byte_of_eq {b : UInt8} {m : Nat} (h : m = b.toNat) : UInt8.ofNat m = b := by
  rw [h, UInt8.ofNat_toNat]

/-- Quantum after quantum, the data comes back. -/
theorem decodeQuantums_encodeGroups (data : Bytes) {before block : Bytes} (rest : Bytes) {index : Nat}
    (hbefore : before.length = index * quantumSize) (hblock : block.length = index * inputGroupSize) :
    decodeQuantums t.decode (before ++ encodeGroups t.encode data) ((data.length + 2) / 3) index
      (block ++ (List.replicate data.length 0 ++ rest)) = pure (block ++ (data ++ rest)) := by
  induction data using encodeGroups.induct generalizing before block index with
  | case1 a b c data ih =>
    have ha := a.toNat_lt
    have hb := b.toNat_lt
    have hc := c.toNat_lt
    have hcount : ((a :: b :: c :: data).length + 2) / 3 = (data.length + 2) / 3 + 1 := by
      simp only [List.length_cons]
      omega
    have hchars : (before ++ encodeQuantum t.encode 3 quantumSize (a.toNat * 65536 + b.toNat * 256 + c.toNat)).length =
        (index + 1) * quantumSize := by
      rw [List.length_append, hbefore, encodeQuantum_full, Nat.add_mul]
      rfl
    have hbytes : (block ++ [a, b, c]).length = (index + 1) * inputGroupSize := by
      rw [List.length_append, hblock, Nat.add_mul]
      rfl
    have hrest := ih hchars hbytes
    simp only [List.append_assoc, List.cons_append, List.nil_append] at hrest
    simp only [List.length_cons, List.replicate_succ, List.cons_append] at hcount ⊢
    rw [hcount, encodeGroups, group_value, decodeQuantums, decodeQuantum_full hbefore hblock (by omega), pure_bind,
      byte_of_eq (by omega : _ = a.toNat), byte_of_eq (by omega : _ = b.toNat), byte_of_eq (by omega : _ = c.toNat)]
    exact hrest
  | case2 a b =>
    have ha := a.toNat_lt
    have hb := b.toNat_lt
    have hcount : ([a, b].length + 2) / 3 = 0 + 1 := by simp
    rw [hcount]
    simp only [List.length_cons, List.length_nil, List.replicate_succ, List.cons_append]
    rw [encodeGroups, pair_value, decodeQuantums, decodeQuantum_two hbefore hblock (by omega) (by omega), pure_bind,
      byte_of_eq (by omega : _ = a.toNat), byte_of_eq (by omega : _ = b.toNat)]
    rfl
  | case3 a =>
    have ha := a.toNat_lt
    have hcount : ([a].length + 2) / 3 = 0 + 1 := by simp
    rw [hcount]
    simp only [List.length_cons, List.length_nil, List.replicate_succ, List.cons_append]
    rw [encodeGroups, Nat.shiftLeft_eq, decodeQuantums, decodeQuantum_one hbefore hblock (by omega) (by omega), pure_bind,
      byte_of_eq (by omega : _ = a.toNat)]
    rfl
  | case4 => rfl

/-- Decoding what was encoded gives the data back, whichever table it is. -/
theorem decodeWithTable_encoded {data : Bytes} (hdata : data ≠ []) :
    decodeWithTable t (encoded t data) true = pure (data ++ [0], data.length) := by
  obtain ⟨body, c, k, htext, hbody, hc, hk, hlen, hsize⟩ := encodeGroups_shape t hdata
  have hpos := List.length_pos_iff.2 hdata
  have hlength : (encoded t data).length = (data.length + 2) / 3 * quantumSize := by
    show (encodeGroups t.encode data).length = _
    rw [htext, hlen]
  have hlength' : (encoded t data).length = body.length + 1 + k := by
    rw [hlength, ← hlen]
    simp only [List.length_append, List.length_cons, List.length_replicate]
    omega
  have hchar := getElem?_at body (c :: List.replicate k paddingChar) body.length rfl
  have hpadding := countPadding_eq (s := encodeGroups t.encode data) (n := body.length) (c := c)
    (by rw [htext]; exact hchar 0) (hc.ne (by decide)) k 0 (by omega) (fun m hm => by
      rw [htext, Nat.add_assoc, hchar (1 + m), Nat.add_comm 1 m, List.getElem?_cons_succ, List.getElem?_replicate,
        if_pos hm])
  have hnoPadding := checkNoPadding_eq (s := encodeGroups t.encode data) body.length 0 (fun m hm => by
    refine ⟨body[m], ?_, (hbody _ (List.getElem_mem hm)).ne (by decide)⟩
    rw [htext, Nat.zero_add, List.getElem?_append_left hm, List.getElem?_eq_getElem hm])
  have hdecode := decodeQuantums_encodeGroups (t := t) data [0] (List.length_nil.trans (Nat.zero_mul _).symm)
    (List.length_nil.trans (Nat.zero_mul _).symm)
  rw [List.nil_append, List.nil_append, List.nil_append] at hdecode
  have hblock : (encoded t data).length / quantumSize * inputGroupSize - k = data.length := by
    rw [hlength, Nat.mul_div_cancel _ (by decide : 0 < quantumSize), ← hsize]
    omega
  have hvalid : 0 < (encoded t data).length ∧ (encoded t data).length % quantumSize = 0 := by
    rw [hlength]
    exact ⟨Nat.mul_pos (by omega) (by decide), Nat.mul_mod_left _ _⟩
  have hzeros : List.replicate (data.length + 1) (0 : UInt8) = List.replicate data.length 0 ++ [0] :=
    List.replicate_succ'
  have hbound : (encoded t data).length - (1 + k) = body.length := by omega
  have hcount : (encoded t data).length / quantumSize = (data.length + 2) / 3 := by
    rw [hlength, Nat.mul_div_cancel _ (by decide : 0 < quantumSize)]
  rw [decodeWithTable, if_pos hvalid, show (encoded t data).length - 1 = body.length + k by omega]
  show countPadding (encodeGroups t.encode data) _ _ >>= _ = _
  rw [hpadding, pure_bind, Nat.add_zero, hbound]
  show checkNoPadding (encodeGroups t.encode data) _ _ >>= _ = _
  rw [hnoPadding, pure_bind]
  simp only [if_true, hblock]
  rw [hcount, hzeros]
  show decodeQuantums _ (encodeGroups t.encode data) _ _ _ >>= _ = _
  rw [hdecode, pure_bind, writeAt_append rfl, pure_bind]

end

end MindConnect.Base64
