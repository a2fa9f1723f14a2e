import MindConnect.Core.Base64
import Mathlib.Data.List.Basic

/-!
# What base64 text is accepted, and what comes back

The padding is counted from the end, the characters before it are then searched for more of it from the start,
and each quantum counts its own. Together this accepts alphabet characters with up to two of padding behind them,
four for every three bytes.

| here | there |
| --- | --- |
| `Alphabet` | the two pairs of tables, `base64.c:33` to `:81` |
| `decodeOutputs` | `_decode_with_table` (`:147`) with its two output parameters |
| `Grammar` | the accepted texts |
| `groupsBytes` | the bytes that a text without padding stands for |
-/

namespace MindConnect.Base64

/-! ## The code -/

/-- `base64_encode_table` -/
def base64EncodeTable : Bytes := ascii "ABCDEFGHIJKLMNOPQRSTUVWXYZabcdefghijklmnopqrstuvwxyz0123456789+/"

/-- `base64_decode_table`, row by row -/
def base64DecodeTable : Bytes :=
  List.replicate 32 0xFF ++
  [0xFF, 0xFF, 0xFF, 0xFF, 0xFF, 0xFF, 0xFF, 0xFF, 0xFF, 0xFF, 0xFF, 0x3E, 0xFF, 0xFF, 0xFF, 0x3F,
    0x34, 0x35, 0x36, 0x37, 0x38, 0x39, 0x3A, 0x3B, 0x3C, 0x3D, 0xFF, 0xFF, 0xFF, 0xFF, 0xFF, 0xFF,
    0xFF, 0x00, 0x01, 0x02, 0x03, 0x04, 0x05, 0x06, 0x07, 0x08, 0x09, 0x0A, 0x0B, 0x0C, 0x0D, 0x0E,
    0x0F, 0x10, 0x11, 0x12, 0x13, 0x14, 0x15, 0x16, 0x17, 0x18, 0x19, 0xFF, 0xFF, 0xFF, 0xFF, 0xFF,
    0xFF, 0x1A, 0x1B, 0x1C, 0x1D, 0x1E, 0x1F, 0x20, 0x21, 0x22, 0x23, 0x24, 0x25, 0x26, 0x27, 0x28,
    0x29, 0x2A, 0x2B, 0x2C, 0x2D, 0x2E, 0x2F, 0x30, 0x31, 0x32, 0x33, 0xFF, 0xFF, 0xFF, 0xFF, 0xFF] ++
  List.replicate 128 0xFF

def standardTable : Table := ⟨base64EncodeTable, base64DecodeTable, by decide +kernel, by decide +kernel⟩

inductive Alphabet where
  | standard | url
deriving DecidableEq, Repr

def Alphabet.table : Alphabet → Table
  | .standard => standardTable
  | .url => urlTable

/-- A code, `*decoded_data` and `*decoded_data_size`. -/
structure Decoded where
  code : Result Unit
  data : Option Bytes
  size : Nat
deriving DecidableEq

/-- `if (MCL_OK != code)` the block is freed and the size is 0. -/
def Decoded.leave (code : Result Unit) (data : Option Bytes) (size : Nat) : Decoded :=
  match code with
  | .ok () => ⟨.ok (), data, size⟩
  | .error e => ⟨.error e, none, 0⟩

/-- `none` where a character is read or a byte written that is not there. -/
def decodeOutputs (table : Table) (encoded : CString) (allocated : Bool) : Option Decoded :=
  if 0 < encoded.length ∧ encoded.length % quantumSize = 0 then do
    let counted ← (countPadding encoded.bytes (encoded.length - 1) 0).run
    match counted with
    | .error e => return .leave (.error e) none 0
    | .ok paddingCount =>
      let checked ← (checkNoPadding encoded.bytes (encoded.length - (1 + paddingCount)) 0).run
      match checked with
      | .error e => return .leave (.error e) none 0
      | .ok () =>
        let numberOfQuantums := encoded.length / quantumSize
        let size := numberOfQuantums * inputGroupSize - paddingCount
        if allocated then
          let zeros := List.replicate (size + 1) 0
          let decoded ← (decodeQuantums table.decode encoded.bytes numberOfQuantums 0 zeros).run
          match decoded with
          | .error e => return .leave (.error e) (some zeros) size
          | .ok block => do
            let block ← Bytes.write block size [0]
            return .leave (.ok ()) (some block) size
        else return .leave (.error .outOfMemory) none size
  else return ⟨.error .badContentEncoding, none, 0⟩

/-! ## The grammar -/

/-- A positive multiple of four characters, those of the alphabet with at most two of padding behind them. -/
def Grammar (t : Table) (text : Bytes) : Prop :=
  0 < text.length ∧ text.length % quantumSize = 0 ∧
    ∃ body k, text = body ++ List.replicate k paddingChar ∧ k ≤ maxPaddingCharCount ∧ ∀ c ∈ body, c ∈ t.encode

/-- How many characters of padding a text ends with. -/
def paddingLength (text : Bytes) : Nat := (text.reverse.takeWhile (· == paddingChar)).length

/-- Letters, digits and two more. -/
def alphanumericAnd (last : Bytes) : Bytes :=
  (List.range' 65 26 ++ List.range' 97 26 ++ List.range' 48 10).map UInt8.ofNat ++ last

theorem base64EncodeTable_eq : base64EncodeTable = alphanumericAnd [43, 47] := by decide

theorem base64UrlEncodeTable_eq : base64UrlEncodeTable = alphanumericAnd [45, 95] := by decide

set_option maxRecDepth 2000 in
theorem Alphabet.index_of_mem (a : Alphabet) : ∀ entry ∈ a.table.decode.zipIdx, entry.1 ≠ 0xFF →
    entry.1.toNat < 64 ∧ charOf a.table.encode entry.1.toNat = UInt8.ofNat entry.2 := by
  cases a
  · simp only [Alphabet.table, standardTable, base64EncodeTable_eq]
    decide
  · simp only [Alphabet.table, urlTable, base64UrlEncodeTable_eq]
    decide

set_option maxRecDepth 2000 in
theorem Alphabet.length_decode (a : Alphabet) : a.table.decode.length = 256 := by
  cases a <;> decide

/-- Each index in a decoding table is that of the character. -/
theorem Alphabet.index_spec (a : Alphabet) {c : UInt8} (h : indexOf a.table.decode c ≠ 0xFF) :
    (indexOf a.table.decode c).toNat < 64 ∧ charOf a.table.encode (indexOf a.table.decode c).toNat = c := by
  have hentry : a.table.decode[c.toNat]? = some (indexOf a.table.decode c) := by
    have hlt : c.toNat < a.table.decode.length := by
      rw [a.length_decode]
      exact c.toNat_lt
    rw [indexOf, List.getD_eq_getElem?_getD, List.getElem?_eq_getElem hlt]
    rfl
  have hspec := a.index_of_mem (indexOf a.table.decode c, c.toNat) (List.mk_mem_zipIdx_iff_getElem?.2 hentry) h
  rwa [UInt8.ofNat_toNat] at hspec

theorem Alphabet.length_encode (a : Alphabet) : a.table.encode.length = 64 := by
  cases a
  · exact congrArg List.length base64EncodeTable_eq
  · exact congrArg List.length base64UrlEncodeTable_eq

/-- The decoding table knows the characters of the encoding table, and no other one. -/
theorem Alphabet.mem_encode_iff (a : Alphabet) (c : UInt8) :
    c ∈ a.table.encode ↔ indexOf a.table.decode c ≠ 0xFF := by
  constructor
  · intro hmem hunknown
    obtain ⟨v, hv, rfl⟩ := List.getElem_of_mem hmem
    have hindex := a.table.inverse v (a.length_encode ▸ hv)
    rw [charOf, List.getD_eq_getElem?_getD, List.getElem?_eq_getElem hv, Option.getD_some, hunknown] at hindex
    have := a.length_encode
    have h255 : (0xFF : UInt8).toNat = 255 := rfl
    omega
  · intro hknown
    obtain ⟨hlt, hchar⟩ := a.index_spec hknown
    rw [← a.length_encode] at hlt
    rw [← hchar, charOf, List.getD_eq_getElem?_getD, List.getElem?_eq_getElem hlt]
    exact List.getElem_mem hlt

/-! ## One quantum -/

section
variable {table : Bytes}

/-- All characters have an index. -/
abbrev Known (table chars : Bytes) : Prop := ∀ c ∈ chars, indexOf table c ≠ 0xFF

/-- The bits of some characters behind those of `data`. -/
def charsValue (table chars : Bytes) (data : Nat) : Nat :=
  chars.foldl (fun data c => data * 64 + (indexOf table c).toNat) data

theorem composeQuantum_chars (table : Bytes) {s chars : Bytes} (n i data p : Nat)
    (hs : ∀ m < chars.length, s[i + m]? = chars[m]?) (hfree : paddingChar ∉ chars) :
    composeQuantum table s (chars.length + n) i data p =
      if Known table chars then composeQuantum table s n (i + chars.length) (charsValue table chars data) p
      else throw .badContentEncoding := by
  induction chars generalizing i data with
  | nil => simp [charsValue]
  | cons c chars ih =>
    have hc := hs 0 (by simp)
    rw [Nat.add_zero, List.getElem?_cons_zero] at hc
    rw [List.mem_cons, not_or] at hfree
    have hrest : ∀ m < chars.length, s[i + 1 + m]? = chars[m]? := by
      intro m hm
      have := hs (m + 1) (by simpa using hm)
      rwa [List.getElem?_cons_succ, show i + (m + 1) = i + 1 + m by omega] at this
    have hcount : (c :: chars).length + n = chars.length + n + 1 := by
      simp only [List.length_cons]
      omega
    rw [hcount, composeQuantum, readAt_eq hc, pure_bind, if_neg (Ne.symm hfree.1), Nat.shiftLeft_eq]
    by_cases hknown : indexOf table c = 0xFF
    · rw [if_pos hknown, if_neg fun h => h c List.mem_cons_self hknown]
    · have hiff : Known table (c :: chars) ↔ Known table chars := by simp [Known, hknown]
      rw [if_neg hknown, ih (i + 1) _ hrest hfree.2]
      simp only [hiff, List.length_cons, charsValue, List.foldl_cons, Nat.reducePow]
      rw [show i + (chars.length + 1) = i + 1 + chars.length by omega]

theorem composeQuantum_paddings {s : Bytes} (k i data p : Nat) (hs : ∀ m < k, s[i + m]? = some paddingChar)
    (hp : p + k ≤ 2) : composeQuantum table s k i data p = pure (data * 64 ^ k, p + k) := by
  induction k generalizing i data p with
  | zero => simp [composeQuantum]
  | succ k ih =>
    have hc := hs 0 (Nat.succ_pos k)
    have hrest : ∀ m < k, s[i + 1 + m]? = some paddingChar := by
      intro m hm
      have := hs (m + 1) (by omega)
      rwa [show i + (m + 1) = i + 1 + m by omega] at this
    rw [Nat.add_zero] at hc
    have hpow : data * 2 ^ 6 * 64 ^ k = data * 64 ^ (k + 1) := by
      rw [Nat.mul_assoc, Nat.pow_succ' (n := k), show (2 : Nat) ^ 6 = 64 from rfl]
    rw [composeQuantum, readAt_eq hc, pure_bind, if_pos rfl, if_neg (by simp only [maxPaddingCharCount]; omega),
      Nat.shiftLeft_eq, ih (i + 1) _ _ hrest (by omega), hpow, Nat.add_assoc, Nat.add_comm 1 k]

/-- The bytes of a group. -/
def groupBytes (n : Nat) : Bytes :=
  [UInt8.ofNat (n / 65536 % 256), UInt8.ofNat (n / 256 % 256), UInt8.ofNat (n % 256)]

theorem writeGroup_eq {l zeros r : Bytes} {pos k : Nat} (hpos : pos = l.length) (hk : zeros.length + k = 3) (hk2 : k ≤ 2)
    (n : Nat) : writeGroup pos k inputGroupSize n (l ++ (zeros ++ r)) = pure (l ++ ((groupBytes n).take (3 - k) ++ r)) := by
  match zeros, hk with
  | [x, y, z], hk =>
    obtain rfl : k = 0 := by simpa using hk
    exact writeGroup_full hpos n
  | [x, y], hk =>
    obtain rfl : k = 1 := by simp at hk; omega
    exact writeGroup_two hpos n
  | [x], hk =>
    obtain rfl : k = 2 := by simp at hk; omega
    exact writeGroup_one hpos n
  | [], hk =>
    simp at hk
    omega
  | _ :: _ :: _ :: _ :: _, hk =>
    simp at hk
    omega

/-- A quantum of characters and padding: its bytes, if all characters are known. -/
theorem decodeQuantum_eq {before chars after l zeros r : Bytes} {i k : Nat} (hbefore : before.length = i * quantumSize)
    (hl : l.length = i * inputGroupSize) (hchars : chars.length + k = quantumSize) (hk : k ≤ 2)
    (hzeros : zeros.length + k = 3) (hfree : paddingChar ∉ chars) :
    decodeQuantum table (before ++ (chars ++ (List.replicate k paddingChar ++ after))) (i * quantumSize)
        (i * inputGroupSize) (l ++ (zeros ++ r)) =
      if Known table chars then pure (l ++ ((groupBytes (charsValue table chars 0 * 64 ^ k)).take (3 - k) ++ r))
      else throw .badContentEncoding := by
  have hat := getElem?_at before (chars ++ (List.replicate k paddingChar ++ after)) _ hbefore
  have hs : ∀ m < chars.length,
      (before ++ (chars ++ (List.replicate k paddingChar ++ after)))[i * quantumSize + m]? = chars[m]? := by
    intro m hm
    rw [hat, List.getElem?_append_left hm]
  have hpadding : ∀ m < k, (before ++ (chars ++ (List.replicate k paddingChar ++ after)))[
      i * quantumSize + chars.length + m]? = some paddingChar := by
    intro m hm
    rw [Nat.add_assoc, hat, List.getElem?_append_right (by omega), Nat.add_sub_cancel_left,
      List.getElem?_append_left (by rwa [List.length_replicate]), List.getElem?_replicate, if_pos hm]
  have hcompose := composeQuantum_chars table k (i * quantumSize) 0 0 hs hfree
  rw [hchars] at hcompose
  rw [decodeQuantum, hcompose]
  by_cases hknown : Known table chars
  · rw [if_pos hknown, if_pos hknown, composeQuantum_paddings k _ _ 0 hpadding (by omega), pure_bind, Nat.zero_add]
    exact writeGroup_eq hl.symm hzeros hk _
  · rw [if_neg hknown, if_neg hknown]
    rfl

/-! ## All quantums -/

/-- The bytes that characters stand for, four at a time. -/
def groupsBytes (table : Bytes) : Bytes → Bytes
  | a :: b :: c :: d :: rest => groupBytes (charsValue table [a, b, c, d] 0) ++ groupsBytes table rest
  | [a, b, c] => (groupBytes (charsValue table [a, b, c] 0 * 64)).take 2
  | [a, b] => (groupBytes (charsValue table [a, b] 0 * 4096)).take 1
  | _ => []

/-- What is left if the three long cases of `groupsBytes` are not it. -/
theorem short_body {body : Bytes} (hfour : ∀ a b c d rest, body = a :: b :: c :: d :: rest → False)
    (hthree : ∀ a b c, body = [a, b, c] → False) (htwo : ∀ a b, body = [a, b] → False) :
    body = [] ∨ ∃ a, body = [a] := by
  rcases body with _ | ⟨a, _ | ⟨b, _ | ⟨c, _ | ⟨d, rest⟩⟩⟩⟩
  · exact .inl rfl
  · exact .inr ⟨a, rfl⟩
  · exact (htwo a b rfl).elim
  · exact (hthree a b c rfl).elim
  · exact (hfour a b c d rest rfl).elim

/-- Quantum after quantum: the bytes of a text, if all its characters are known. -/
theorem decodeQuantums_eq {body : Bytes} (hfree : paddingChar ∉ body) {before block : Bytes} (rest : Bytes) {index k q : Nat}
    (hk : k ≤ 2) (hq : body.length + k = q * quantumSize) (hbefore : before.length = index * quantumSize)
    (hblock : block.length = index * inputGroupSize) :
    decodeQuantums table (before ++ (body ++ List.replicate k paddingChar)) q index
        (block ++ (List.replicate (q * inputGroupSize - k) 0 ++ rest)) =
      if Known table body then pure (block ++ (groupsBytes table body ++ rest)) else throw .badContentEncoding := by
  induction body using groupsBytes.induct generalizing before block index q with
  | case1 a b c d body ih =>
    obtain ⟨q, rfl⟩ : ∃ q', q = q' + 1 := ⟨q - 1, by simp only [List.length_cons, quantumSize] at hq; omega⟩
    have hsplit : (a :: b :: c :: d :: body) = [a, b, c, d] ++ body := rfl
    rw [hsplit, List.mem_append, not_or] at hfree
    have hq' : body.length + k = q * quantumSize := by
      simp only [List.length_cons, quantumSize] at hq ⊢
      omega
    have hzeros : List.replicate ((q + 1) * inputGroupSize - k) (0 : UInt8) =
        [0, 0, 0] ++ List.replicate (q * inputGroupSize - k) 0 := by
      have hcount : (q + 1) * inputGroupSize - k = q * inputGroupSize - k + 1 + 1 + 1 := by
        simp only [inputGroupSize, quantumSize] at hq' ⊢
        omega
      rw [hcount]
      rfl
    have hone : decodeQuantum table
        (before ++ ([a, b, c, d] ++ (List.replicate 0 paddingChar ++ (body ++ List.replicate k paddingChar))))
        (index * quantumSize) (index * inputGroupSize)
        (block ++ ([0, 0, 0] ++ (List.replicate (q * inputGroupSize - k) 0 ++ rest))) = _ :=
      decodeQuantum_eq hbefore hblock rfl (Nat.zero_le 2) rfl hfree.1
    have htake : (groupBytes (charsValue table [a, b, c, d] 0)).take 3 = groupBytes (charsValue table [a, b, c, d] 0) := rfl
    rw [List.replicate_zero, List.nil_append, Nat.pow_zero, Nat.mul_one, Nat.sub_zero, htake] at hone
    have hknown : Known table ([a, b, c, d] ++ body) ↔ Known table [a, b, c, d] ∧ Known table body :=
      List.forall_mem_append
    have hbefore' : (before ++ [a, b, c, d]).length = (index + 1) * quantumSize := by
      rw [List.length_append, hbefore, Nat.add_mul]
      rfl
    have hblock' : (block ++ groupBytes (charsValue table [a, b, c, d] 0)).length = (index + 1) * inputGroupSize := by
      rw [List.length_append, hblock, Nat.add_mul]
      rfl
    have hgo := ih hfree.2 hq' hbefore' hblock'
    rw [List.append_assoc, List.append_assoc] at hgo
    rw [decodeQuantums, hzeros, hsplit, List.append_assoc [a, b, c, d], List.append_assoc [0, 0, 0], hone]
    by_cases hfirst : Known table [a, b, c, d]
    · rw [if_pos hfirst, pure_bind, hgo]
      by_cases hrest : Known table body
      · rw [if_pos hrest, if_pos (hknown.2 ⟨hfirst, hrest⟩)]
        simp [groupsBytes]
      · rw [if_neg hrest, if_neg fun h => hrest (hknown.1 h).2]
    · rw [if_neg hfirst, if_neg fun h => hfirst (hknown.1 h).1]
      rfl
  | case2 a b c =>
    obtain ⟨rfl, rfl⟩ : k = 1 ∧ q = 1 := by
      simp only [List.length_cons, List.length_nil, quantumSize] at hq
      omega
    have hone : decodeQuantum table (before ++ ([a, b, c] ++ (List.replicate 1 paddingChar ++ []))) (index * quantumSize)
        (index * inputGroupSize) (block ++ ([0, 0] ++ rest)) = _ :=
      decodeQuantum_eq hbefore hblock rfl (by decide) rfl hfree
    rw [List.append_nil, Nat.pow_one] at hone
    rw [decodeQuantums]
    show decodeQuantum table _ _ _ (block ++ ([0, 0] ++ rest)) >>= _ = _
    rw [hone]
    by_cases hknown : Known table [a, b, c]
    · rw [if_pos hknown, if_pos hknown]
      rfl
    · rw [if_neg hknown, if_neg hknown]
      rfl
  | case3 a b =>
    obtain ⟨rfl, rfl⟩ : k = 2 ∧ q = 1 := by
      simp only [List.length_cons, List.length_nil, quantumSize] at hq
      omega
    have hone : decodeQuantum table (before ++ ([a, b] ++ (List.replicate 2 paddingChar ++ []))) (index * quantumSize)
        (index * inputGroupSize) (block ++ ([0] ++ rest)) = _ :=
      decodeQuantum_eq hbefore hblock rfl (by decide) rfl hfree
    rw [List.append_nil, show (64 : Nat) ^ 2 = 4096 from rfl] at hone
    rw [decodeQuantums]
    show decodeQuantum table _ _ _ (block ++ ([0] ++ rest)) >>= _ = _
    rw [hone]
    by_cases hknown : Known table [a, b]
    · rw [if_pos hknown, if_pos hknown]
      rfl
    · rw [if_neg hknown, if_neg hknown]
      rfl
  | case4 body hfour hthree htwo =>
    obtain rfl | ⟨a, rfl⟩ := short_body hfour hthree htwo
    · obtain rfl : q = 0 := by
        simp only [List.length_nil, quantumSize] at hq
        omega
      simp [decodeQuantums, groupsBytes]
    · simp only [List.length_cons, List.length_nil, quantumSize] at hq
      omega

/-- All quantums of a text, into a block of zeros. -/
theorem decodeQuantums_text (table : Bytes) {body : Bytes} (hfree : paddingChar ∉ body) {k q : Nat} (hk : k ≤ 2)
    (hq : body.length + k = q * quantumSize) :
    decodeQuantums table (body ++ List.replicate k paddingChar) q 0 (List.replicate (q * inputGroupSize - k + 1) 0) =
      if Known table body then pure (groupsBytes table body ++ [0]) else throw .badContentEncoding := by
  have h : decodeQuantums table ([] ++ (body ++ List.replicate k paddingChar)) q 0
      ([] ++ (List.replicate (q * inputGroupSize - k) 0 ++ [0])) = _ :=
    decodeQuantums_eq hfree [0] hk hq (Nat.zero_mul _).symm (Nat.zero_mul _).symm
  rwa [List.nil_append, List.nil_append, List.nil_append, ← List.replicate_succ'] at h

theorem length_groupsBytes (table : Bytes) {body : Bytes} {k q : Nat} (hk : k ≤ 2) (hq : body.length + k = q * quantumSize) :
    (groupsBytes table body).length = q * inputGroupSize - k := by
  induction body using groupsBytes.induct generalizing q with
  | case1 a b c d body ih =>
    obtain ⟨q, rfl⟩ : ∃ q', q = q' + 1 := ⟨q - 1, by simp only [List.length_cons, quantumSize] at hq; omega⟩
    have hq' : body.length + k = q * quantumSize := by
      simp only [List.length_cons, quantumSize] at hq ⊢
      omega
    rw [groupsBytes, List.length_append, ih hq']
    simp only [groupBytes, List.length_cons, List.length_nil, inputGroupSize, quantumSize] at hq' ⊢
    omega
  | case2 a b c =>
    simp only [List.length_cons, List.length_nil, quantumSize] at hq
    simp only [groupsBytes, groupBytes, List.take_succ_cons, List.take_zero, List.length_cons, List.length_nil, inputGroupSize]
    omega
  | case3 a b =>
    simp only [List.length_cons, List.length_nil, quantumSize] at hq
    simp only [groupsBytes, groupBytes, List.take_succ_cons, List.take_zero, List.length_cons, List.length_nil, inputGroupSize]
    omega
  | case4 body hfour hthree htwo =>
    obtain rfl | ⟨a, rfl⟩ := short_body hfour hthree htwo
    · simp only [List.length_nil, quantumSize] at hq
      simp only [groupsBytes, List.length_nil, inputGroupSize]
      omega
    · simp only [List.length_cons, List.length_nil, quantumSize] at hq
      omega

end

/-! ## The padding -/

/-- Nothing but padding, or padding behind a last other character. -/
theorem padding_split (text : Bytes) :
    ∃ k, text = List.replicate k paddingChar ∨
      ∃ body c, c ≠ paddingChar ∧ text = body ++ c :: List.replicate k paddingChar := by
  induction text using List.reverseRecOn with
  | nil => exact ⟨0, .inl rfl⟩
  | append_singleton text c ih =>
    by_cases hc : c = paddingChar
    · obtain ⟨k, rfl | ⟨body, d, hd, rfl⟩⟩ := ih
      · exact ⟨k + 1, .inl (by rw [hc, ← List.replicate_succ'])⟩
      · refine ⟨k + 1, .inr ⟨body, d, hd, ?_⟩⟩
        rw [hc, List.append_assoc, List.cons_append, ← List.replicate_succ']
    · exact ⟨0, .inr ⟨text, c, hc, rfl⟩⟩

theorem paddingLength_eq {body : Bytes} {c : UInt8} (hc : c ≠ paddingChar) (k : Nat) :
    paddingLength (body ++ c :: List.replicate k paddingChar) = k := by
  have hreverse : (body ++ c :: List.replicate k paddingChar).reverse =
      List.replicate k paddingChar ++ c :: body.reverse := by simp
  have htake : (c :: body.reverse).takeWhile (· == paddingChar) = [] := by
    rw [List.takeWhile_cons_of_neg (by simpa using hc)]
  rw [paddingLength, hreverse, List.takeWhile_append_of_pos, htake, List.append_nil, List.length_replicate]
  intro b hb
  rw [List.eq_of_mem_replicate hb]
  rfl

/-- Three characters of padding at the end are too many. -/
theorem countPadding_many {s : Bytes} {n : Nat} (h : ∀ m < 3, s[n + 1 + m]? = some paddingChar) :
    countPadding s (n + 3) 0 = throw .badContentEncoding := by
  have h0 : s[n + 1]? = some paddingChar := h 0 (by decide)
  have h1 : s[n + 1 + 1]? = some paddingChar := h 1 (by decide)
  have h2 : s[n + 1 + 1 + 1]? = some paddingChar := h 2 (by decide)
  rw [show n + 3 = n + 1 + 1 + 1 from rfl, countPadding, readAt_eq h2, pure_bind, if_pos rfl, if_neg (by decide),
    countPadding, readAt_eq h1, pure_bind, if_pos rfl, if_neg (by decide),
    countPadding, readAt_eq h0, pure_bind, if_pos rfl, if_pos (by decide)]

theorem checkNoPadding_chars {s chars : Bytes} (index : Nat) (h : ∀ m < chars.length, s[index + m]? = chars[m]?) :
    checkNoPadding s chars.length index = if paddingChar ∈ chars then throw .badContentEncoding else pure () := by
  induction chars generalizing index with
  | nil => rfl
  | cons c chars ih =>
    have hc := h 0 (by simp)
    have hrest : ∀ m < chars.length, s[index + 1 + m]? = chars[m]? := by
      intro m hm
      have := h (m + 1) (by simpa using hm)
      rwa [List.getElem?_cons_succ, show index + (m + 1) = index + 1 + m by omega] at this
    rw [Nat.add_zero, List.getElem?_cons_zero] at hc
    rw [List.length_cons, checkNoPadding, readAt_eq hc, pure_bind]
    by_cases hpadding : c = paddingChar
    · rw [if_pos hpadding, if_pos (by rw [hpadding]; exact List.mem_cons_self)]
    · have hiff : paddingChar ∈ c :: chars ↔ paddingChar ∈ chars := by
        rw [List.mem_cons]
        exact or_iff_right (Ne.symm hpadding)
      rw [if_neg hpadding, ih (index + 1) hrest]
      simp only [hiff]

/-! ## The decoder on a text -/

/-- Refused: no block, no size. -/
def refused : Decoded := ⟨.error .badContentEncoding, none, 0⟩

theorem decodeOutputs_length (t : Table) {text : CString} (allocated : Bool)
    (h : ¬ (0 < text.length ∧ text.length % quantumSize = 0)) : decodeOutputs t text allocated = some refused := by
  rw [decodeOutputs, if_neg h]
  rfl

theorem decodeOutputs_many (t : Table) {text : CString} (allocated : Bool) {before : Bytes} {k : Nat}
    (h : 0 < text.length ∧ text.length % quantumSize = 0) (hk : 3 ≤ k)
    (htext : text.bytes = before ++ List.replicate k paddingChar) : decodeOutputs t text allocated = some refused := by
  have hlength : text.length = before.length + k := by rw [CString.length, htext, List.length_append, List.length_replicate]
  have hfour : 4 ≤ text.length := by
    obtain ⟨hpos, hmod⟩ := h
    simp only [quantumSize] at hmod
    omega
  have hcount : countPadding text.bytes (text.length - 1) 0 = throw .badContentEncoding := by
    rw [show text.length - 1 = text.length - 4 + 3 by omega]
    apply countPadding_many
    intro m hm
    rw [htext, List.getElem?_append_right (by omega), List.getElem?_replicate, if_pos (by omega)]
  rw [decodeOutputs, if_pos h, hcount]
  rfl

section
variable {text : CString} {body : Bytes} {c : UInt8} {k : Nat}
  (h : 0 < text.length ∧ text.length % quantumSize = 0) (htext : text.bytes = body ++ c :: List.replicate k paddingChar)
  (hc : c ≠ paddingChar) (hk : k ≤ 2)
include h htext hc hk

/-- Up to two characters of padding behind a last other character: refused with more padding before, or with an
unknown character. -/
theorem decodeOutputs_body (t : Table) (allocated : Bool) :
    decodeOutputs t text allocated = some (
      if paddingChar ∈ body then refused
      else if allocated = false then ⟨.error .outOfMemory, none, 0⟩
      else if Known t.decode (body ++ [c]) then
        ⟨.ok (), some (groupsBytes t.decode (body ++ [c]) ++ [0]), (groupsBytes t.decode (body ++ [c])).length⟩
      else refused) := by
  have hlength : text.length = body.length + 1 + k := by
    rw [CString.length, htext, List.length_append, List.length_cons, List.length_replicate]
    omega
  have hcount : countPadding text.bytes (text.length - 1) 0 = pure k := by
    rw [hlength, show body.length + 1 + k - 1 = body.length + k by omega]
    refine countPadding_eq (c := c) (by simp [htext]) hc k 0 (by omega) ?_
    intro m hm
    rw [htext, List.getElem?_append_right (by omega), show body.length + 1 + m - body.length = m + 1 by omega,
      List.getElem?_cons_succ, List.getElem?_replicate, if_pos hm]
  have hcheck : checkNoPadding text.bytes (text.length - (1 + k)) 0 =
      if paddingChar ∈ body then throw .badContentEncoding else pure () := by
    rw [hlength, show body.length + 1 + k - (1 + k) = body.length by omega]
    apply checkNoPadding_chars
    intro m hm
    rw [htext, Nat.zero_add, List.getElem?_append_left hm]
  rw [decodeOutputs, if_pos h, hcount]
  show (checkNoPadding text.bytes (text.length - (1 + k)) 0).run >>= _ = _
  rw [hcheck]
  by_cases hpadding : paddingChar ∈ body
  · rw [if_pos hpadding, if_pos hpadding]
    rfl
  rw [if_neg hpadding, if_neg hpadding]
  cases allocated with
  | false => rfl
  | true =>
    have hfree : paddingChar ∉ body ++ [c] := by
      rw [List.mem_append, List.mem_singleton]
      exact not_or.2 ⟨hpadding, Ne.symm hc⟩
    have hq : (body ++ [c]).length + k = text.length / quantumSize * quantumSize := by
      rw [List.length_append, List.length_singleton, ← hlength]
      exact (Nat.div_mul_cancel (Nat.dvd_of_mod_eq_zero h.2)).symm
    have hdecode := decodeQuantums_text t.decode hfree hk hq
    have hwhole : text.bytes = body ++ [c] ++ List.replicate k paddingChar := by
      rw [htext, List.append_assoc, List.singleton_append]
    show (decodeQuantums t.decode text.bytes _ 0 (List.replicate (_ + 1) 0)).run >>= _ = _
    rw [hwhole, hdecode, ← length_groupsBytes t.decode hk hq, if_neg (by decide : ¬ true = false)]
    by_cases hknown : Known t.decode (body ++ [c])
    · rw [if_pos hknown, if_pos hknown]
      have hend : Bytes.write (groupsBytes t.decode (body ++ [c]) ++ [0]) (groupsBytes t.decode (body ++ [c])).length [0] =
          some (groupsBytes t.decode (body ++ [c]) ++ [0]) := by
        rw [Bytes.write_eq_some (by simp)]
        simp
      show Bytes.write (groupsBytes t.decode (body ++ [c]) ++ [0]) _ [0] >>= _ = _
      rw [hend]
      rfl
    · rw [if_neg hknown, if_neg hknown]
      rfl

end

/-! ## What is accepted -/

/-- What a call of the decoder comes to if it accepts the grammar. -/
structure FollowsGrammar (t : Table) (text : CString) (allocated : Bool) (d : Decoded) : Prop where
  accepts : d.code = .ok () ↔ Grammar t text.bytes ∧ allocated = true
  size : d.code = .ok () → d.size = 3 * text.length / 4 - paddingLength text.bytes
  block : d.code = .ok () → ∃ block, d.data = some block ∧ block.length = d.size + 1
  failure : d.code ≠ .ok () → d.data = none ∧ d.size = 0

theorem paddingChar_not_mem_encode (a : Alphabet) : paddingChar ∉ a.table.encode := by
  rw [a.mem_encode_iff, not_not]
  cases a <;> decide

theorem known_iff (a : Alphabet) (chars : Bytes) : Known a.table.decode chars ↔ ∀ c ∈ chars, c ∈ a.table.encode := by
  constructor
  · exact fun h c hc => (a.mem_encode_iff c).2 (h c hc)
  · exact fun h c hc => (a.mem_encode_iff c).1 (h c hc)

/-- A text of the grammar has a last character of the alphabet. -/
theorem Grammar.split {a : Alphabet} {text : Bytes} (h : Grammar a.table text) :
    ∃ body c k, text = body ++ c :: List.replicate k paddingChar ∧ k ≤ 2 ∧
      (∀ b ∈ body, b ∈ a.table.encode) ∧ c ∈ a.table.encode := by
  obtain ⟨hpos, hmod, whole, k, htext, hk, hwhole⟩ := h
  simp only [maxPaddingCharCount, quantumSize] at hk hmod
  rcases List.eq_nil_or_concat whole with rfl | ⟨body, c, rfl⟩
  · rw [htext, List.nil_append, List.length_replicate] at hpos hmod
    omega
  · rw [List.concat_eq_append] at htext hwhole
    refine ⟨body, c, k, by rw [htext, List.append_assoc, List.singleton_append], hk, ?_, ?_⟩
    · exact fun b hb => hwhole b (List.mem_append_left _ hb)
    · exact hwhole c (List.mem_append_right _ (List.mem_singleton.2 rfl))

theorem error_follows {t : Table} {text : CString} {allocated : Bool} (e : McError)
    (h : ¬ (Grammar t text.bytes ∧ allocated = true)) : FollowsGrammar t text allocated ⟨.error e, none, 0⟩ := by
  have hcode : ¬ (Except.error e : Result Unit) = .ok () := fun hcode => by cases hcode
  refine ⟨⟨?_, ?_⟩, ?_, ?_, ?_⟩
  · exact fun hok => absurd hok hcode
  · exact fun hgrammar => absurd hgrammar h
  · exact fun hok => absurd hok hcode
  · exact fun hok => absurd hok hcode
  · exact fun _ => ⟨rfl, rfl⟩

/-- Behind the last other character, the padding of a text is what it is. -/
theorem grammar_iff {a : Alphabet} {text body : Bytes} {c : UInt8} {k : Nat}
    (htext : text = body ++ c :: List.replicate k paddingChar) (hc : c ≠ paddingChar) :
    Grammar a.table text ↔
      (0 < text.length ∧ text.length % quantumSize = 0) ∧ k ≤ 2 ∧ Known a.table.decode (body ++ [c]) := by
  constructor
  · intro hgrammar
    obtain ⟨body', c', k', htext', hk', hbody', hc'⟩ := hgrammar.split
    have hne' : c' ≠ paddingChar := fun h => paddingChar_not_mem_encode a (h ▸ hc')
    have hlength : paddingLength (body ++ c :: List.replicate k paddingChar) = k := paddingLength_eq hc k
    rw [← htext, htext', paddingLength_eq hne' k'] at hlength
    subst hlength
    have hsame : body ++ [c] = body' ++ [c'] := by
      have hwhole : body ++ [c] ++ List.replicate k' paddingChar = body' ++ [c'] ++ List.replicate k' paddingChar := by
        rw [List.append_assoc, List.append_assoc, List.singleton_append, List.singleton_append, ← htext, ← htext']
      exact List.append_cancel_right hwhole
    refine ⟨⟨hgrammar.1, hgrammar.2.1⟩, hk', ?_⟩
    rw [hsame, known_iff, List.forall_mem_append]
    exact ⟨hbody', List.forall_mem_singleton.2 hc'⟩
  · rintro ⟨⟨hpos, hmod⟩, hk, hknown⟩
    refine ⟨hpos, hmod, body ++ [c], k, ?_, hk, (known_iff a _).1 hknown⟩
    rw [htext, List.append_assoc, List.singleton_append]

/-- A text of the grammar, taken apart where its padding begins. -/
structure Split (a : Alphabet) (text : CString) (body : Bytes) (c : UInt8) (k : Nat) : Prop where
  text_eq : text.bytes = body ++ c :: List.replicate k paddingChar
  last_ne : c ≠ paddingChar
  padding_le : k ≤ 2
  length_valid : 0 < text.length ∧ text.length % quantumSize = 0
  known : Known a.table.decode (body ++ [c])

theorem Split.grammar {a : Alphabet} {text : CString} {body : Bytes} {c : UInt8} {k : Nat} (h : Split a text body c k) :
    Grammar a.table text.bytes :=
  (grammar_iff h.text_eq h.last_ne).2 ⟨h.length_valid, h.padding_le, h.known⟩

theorem Split.length {a : Alphabet} {text : CString} {body : Bytes} {c : UInt8} {k : Nat} (h : Split a text body c k) :
    (body ++ [c]).length + k = text.length / quantumSize * quantumSize := by
  rw [Nat.div_mul_cancel (Nat.dvd_of_mod_eq_zero h.length_valid.2), CString.length, h.text_eq]
  simp only [List.length_append, List.length_cons, List.length_nil, List.length_replicate]
  omega

/-- A decoder never gets stuck: it refuses, runs out of memory on a text of the grammar, or decodes it. -/
theorem decodeOutputs_cases (a : Alphabet) (text : CString) (allocated : Bool) :
    (¬ Grammar a.table text.bytes ∧ decodeOutputs a.table text allocated = some refused) ∨
      (allocated = false ∧ decodeOutputs a.table text allocated = some ⟨.error .outOfMemory, none, 0⟩) ∨
      ∃ body c k, Split a text body c k ∧ allocated = true ∧ decodeOutputs a.table text allocated =
        some ⟨.ok (), some (groupsBytes a.table.decode (body ++ [c]) ++ [0]),
          (groupsBytes a.table.decode (body ++ [c])).length⟩ := by
  by_cases h : 0 < text.length ∧ text.length % quantumSize = 0
  swap
  · exact .inl ⟨fun hgrammar => h ⟨hgrammar.1, hgrammar.2.1⟩, decodeOutputs_length _ _ h⟩
  obtain ⟨k, htext | ⟨body, c, hc, htext⟩⟩ := padding_split text.bytes
  · have hk : 3 ≤ k := by
      have hlength : text.length = k := by rw [CString.length, htext, List.length_replicate]
      simp only [quantumSize] at h
      omega
    refine .inl ⟨fun hgrammar => ?_, decodeOutputs_many _ _ h hk (htext.trans (List.nil_append _).symm)⟩
    obtain ⟨body, c, k', htext', _, _, hc⟩ := hgrammar.split
    have hmem : c ∈ List.replicate k paddingChar := by
      rw [← htext, htext']
      exact List.mem_append_right _ List.mem_cons_self
    exact paddingChar_not_mem_encode a (List.eq_of_mem_replicate hmem ▸ hc)
  have hiff := grammar_iff (a := a) htext hc
  by_cases hk : k ≤ 2
  swap
  · have hsplit : text.bytes = (body ++ [c]) ++ List.replicate k paddingChar := by
      rw [htext, List.append_assoc, List.singleton_append]
    exact .inl ⟨fun hgrammar => hk (hiff.1 hgrammar).2.1, decodeOutputs_many _ _ h (by omega) hsplit⟩
  rw [decodeOutputs_body h htext hc hk a.table allocated]
  by_cases hknown : Known a.table.decode (body ++ [c])
  · have hfree : paddingChar ∉ body := fun hmem =>
      paddingChar_not_mem_encode a ((known_iff a _).1 hknown _ (List.mem_append_left _ hmem))
    rw [if_neg hfree]
    cases allocated with
    | false => exact .inr (.inl ⟨rfl, rfl⟩)
    | true => exact .inr (.inr ⟨body, c, k, ⟨htext, hc, hk, h, hknown⟩, rfl, by simp only [if_pos hknown]; rfl⟩)
  · have hnot : ¬ Grammar a.table text.bytes := fun hgrammar => hknown (hiff.1 hgrammar).2.2
    by_cases hpadding : paddingChar ∈ body
    · exact .inl ⟨hnot, by rw [if_pos hpadding]⟩
    · rw [if_neg hpadding]
      cases allocated with
      | false => exact .inr (.inl ⟨rfl, rfl⟩)
      | true => exact .inl ⟨hnot, by simp only [if_neg hknown]; rfl⟩

/-- For every text and both alphabets: no index leaves the text or the block, the grammar is accepted if there is memory,
and nothing else. -/
theorem decodeOutputs_grammar (a : Alphabet) (text : CString) (allocated : Bool) :
    ∃ d, decodeOutputs a.table text allocated = some d ∧ FollowsGrammar a.table text allocated d := by
  rcases decodeOutputs_cases a text allocated with ⟨hnot, hrefused⟩ | ⟨rfl, hmemory⟩ | ⟨body, c, k, hsplit, rfl, hok⟩
  · exact ⟨_, hrefused, error_follows _ fun hgrammar => hnot hgrammar.1⟩
  · exact ⟨_, hmemory, error_follows _ fun hgrammar => Bool.false_ne_true hgrammar.2⟩
  · refine ⟨_, hok, ⟨fun _ => ⟨hsplit.grammar, rfl⟩, fun _ => rfl⟩, fun _ => ?_, fun _ => ⟨_, rfl, ?_⟩,
      fun hcode => absurd rfl hcode⟩
    · show (groupsBytes a.table.decode (body ++ [c])).length = _
      rw [length_groupsBytes _ hsplit.padding_le hsplit.length, hsplit.text_eq, paddingLength_eq hsplit.last_ne]
      have hvalid := hsplit.length_valid
      simp only [quantumSize, inputGroupSize] at hvalid ⊢
      omega
    · rw [List.length_append, List.length_singleton]

/-- Without memory for the block, a text of the grammar is not accepted either. -/
theorem refused_without_memory :
    Grammar Alphabet.standard.table (CString.lit "QUJD").bytes ∧
      decodeOutputs Alphabet.standard.table (.lit "QUJD") false = some ⟨.error .outOfMemory, none, 0⟩ := by
  refine ⟨⟨by decide, by decide, (CString.lit "QUJD").bytes, 0, rfl, by decide, ?_⟩, by decide⟩
  decide

/-! ## There and back -/

/-- The bits that the last character holds beyond the bytes are 0: two for every character of padding. -/
def UnusedBitsZero (t : Table) (text : Bytes) : Prop :=
  ∀ body c k, text = body ++ c :: List.replicate k paddingChar → c ≠ paddingChar →
    (indexOf t.decode c).toNat % 4 ^ k = 0

/-- There is one last character before the padding. -/
theorem unusedBitsZero_of {t : Table} {text body : Bytes} {c : UInt8} {k : Nat}
    (htext : text = body ++ c :: List.replicate k paddingChar) (hc : c ≠ paddingChar)
    (hbits : (indexOf t.decode c).toNat % 4 ^ k = 0) : UnusedBitsZero t text := by
  intro body' c' k' htext' hc'
  have hlength : paddingLength (body' ++ c' :: List.replicate k' paddingChar) = k' := paddingLength_eq hc' k'
  rw [← htext', htext, paddingLength_eq hc k] at hlength
  subst hlength
  obtain ⟨_, hsame⟩ := List.append_inj' (htext.symm.trans htext') rfl
  cases hsame
  exact hbits

theorem toNat_ofNat_mod (n : Nat) : (UInt8.ofNat (n % 256)).toNat = n % 256 := by
  rw [UInt8.toNat_ofNat']
  omega

theorem Alphabet.charOf_index (a : Alphabet) {c : UInt8} (h : indexOf a.table.decode c ≠ 0xFF) {n : Nat}
    (hn : n = (indexOf a.table.decode c).toNat) : charOf a.table.encode n = c := by
  rw [hn]
  exact (a.index_spec h).2

/-- Encoding the bytes of a text gives the text. -/
theorem encodeGroups_groupsBytes (a : Alphabet) {body : Bytes} {k q : Nat} (hk : k ≤ 2)
    (hq : body.length + k = q * quantumSize) (hknown : Known a.table.decode body)
    (hbits : ∀ before c, body = before ++ [c] → (indexOf a.table.decode c).toNat % 4 ^ k = 0) :
    encodeGroups a.table.encode (groupsBytes a.table.decode body) = body ++ List.replicate k paddingChar := by
  induction body using groupsBytes.induct generalizing q with
  | case1 w x y z body ih =>
    have hw := hknown w (by simp)
    have hx := hknown x (by simp)
    have hy := hknown y (by simp)
    have hz := hknown z (by simp)
    have hw' := (a.index_spec hw).1
    have hx' := (a.index_spec hx).1
    have hy' := (a.index_spec hy).1
    have hz' := (a.index_spec hz).1
    have hrest := ih (q := q - 1) (by simp only [List.length_cons, quantumSize] at hq ⊢; omega)
      (fun c hc => hknown c (by simp [hc]))
      (fun before c hbody => hbits (w :: x :: y :: z :: before) c (by rw [hbody]; rfl))
    simp only [groupsBytes, groupBytes, charsValue, List.foldl_cons, List.foldl_nil, List.cons_append, List.nil_append,
      encodeGroups, encodeQuantum_full, group_value]
    simp only [toNat_ofNat_mod]
    rw [a.charOf_index hw (by omega), a.charOf_index hx (by omega), a.charOf_index hy (by omega),
      a.charOf_index hz (by omega), hrest]
  | case2 x y z =>
    obtain rfl : k = 1 := by
      simp only [List.length_cons, List.length_nil, quantumSize] at hq
      omega
    have hx := hknown x (by simp)
    have hy := hknown y (by simp)
    have hz := hknown z (by simp)
    have hx' := (a.index_spec hx).1
    have hy' := (a.index_spec hy).1
    have hz' := (a.index_spec hz).1
    have hzero := hbits [x, y] z rfl
    simp only [groupsBytes, groupBytes, charsValue, List.foldl_cons, List.foldl_nil, List.take_succ_cons, List.take_zero,
      encodeGroups, encodeQuantum_two, pair_value]
    simp only [toNat_ofNat_mod]
    rw [a.charOf_index hx (by omega), a.charOf_index hy (by omega), a.charOf_index hz (by omega)]
    rfl
  | case3 x y =>
    obtain rfl : k = 2 := by
      simp only [List.length_cons, List.length_nil, quantumSize] at hq
      omega
    have hx := hknown x (by simp)
    have hy := hknown y (by simp)
    have hx' := (a.index_spec hx).1
    have hy' := (a.index_spec hy).1
    have hzero := hbits [x] y rfl
    simp only [groupsBytes, groupBytes, charsValue, List.foldl_cons, List.foldl_nil, List.take_succ_cons, List.take_zero,
      encodeGroups, encodeQuantum_one, toNat_ofNat_mod, Nat.shiftLeft_eq]
    rw [a.charOf_index hx (by omega), a.charOf_index hy (by omega)]
    rfl
  | case4 body hfour hthree htwo =>
    obtain rfl | ⟨x, rfl⟩ := short_body hfour hthree htwo
    · obtain rfl : k = 0 := by
        simp only [List.length_nil, quantumSize] at hq
        omega
      rfl
    · simp only [List.length_cons, List.length_nil, quantumSize] at hq
      omega

/-- The decoder that stops at an error, with its two outputs. -/
theorem decodeOutputs_of_ok {t : Table} {text : CString} {allocated : Bool} {block : Bytes} {size : Nat}
    (h : (decodeWithTable t text allocated).run = some (.ok (block, size))) :
    decodeOutputs t text allocated = some ⟨.ok (), some block, size⟩ := by
  rw [decodeWithTable] at h
  by_cases hvalid : 0 < text.length ∧ text.length % quantumSize = 0
  swap
  · rw [if_neg hvalid] at h
    cases h
  rw [if_pos hvalid] at h
  obtain ⟨paddingCount, hcount, h⟩ := Run.bind_eq_ok h
  obtain ⟨⟨⟩, hcheck, h⟩ := Run.bind_eq_ok h
  cases allocated with
  | false => cases h
  | true =>
    obtain ⟨decoded, hdecode, h⟩ := Run.bind_eq_ok h
    obtain ⟨written, hwrite, h⟩ := Run.bind_eq_ok h
    cases h
    have hend : Bytes.write decoded (text.length / quantumSize * inputGroupSize - paddingCount) [0] = some block := by
      obtain ⟨_, hsome, hwritten⟩ := Option.map_eq_some_iff.1 hwrite
      cases hwritten
      exact hsome
    rw [decodeOutputs, if_pos hvalid, hcount]
    show (checkNoPadding text.bytes _ 0).run >>= _ = _
    rw [hcheck]
    show (decodeQuantums t.decode text.bytes _ 0 _).run >>= _ = _
    rw [hdecode]
    show Bytes.write decoded _ [0] >>= _ = _
    rw [hend]
    rfl

/-- With memory for both, decoding the encoding gives the data back, and encoding what was decoded gives the text back
if its unused bits are 0. -/
theorem base64_roundTrip (a : Alphabet) :
    (∀ data, data ≠ [] → ∃ text, encodeWithTable a.table data true = some (.ok text) ∧
        decodeOutputs a.table text true = some ⟨.ok (), some (data ++ [0]), data.length⟩) ∧
      ∀ text allocated block size, decodeOutputs a.table text allocated = some ⟨.ok (), some block, size⟩ →
        UnusedBitsZero a.table text.bytes → encodeWithTable a.table (block.take size) true = some (.ok text) := by
  constructor
  · intro data hdata
    refine ⟨encoded a.table data, encodeWithTable_eq data, ?_⟩
    apply decodeOutputs_of_ok
    rw [decodeWithTable_encoded hdata]
    rfl
  · intro text allocated block size hdecode hbits
    rcases decodeOutputs_cases a text allocated with ⟨_, hrefused⟩ | ⟨_, hmemory⟩ | ⟨body, c, k, hsplit, rfl, hok⟩
    · rw [hrefused] at hdecode
      cases hdecode
    · rw [hmemory] at hdecode
      cases hdecode
    rw [hok] at hdecode
    cases hdecode
    have hback := encodeGroups_groupsBytes a hsplit.padding_le hsplit.length hsplit.known fun before last hlast => by
      obtain ⟨_, hsame⟩ := List.append_inj' hlast rfl
      cases hsame
      exact hbits _ _ _ hsplit.text_eq hsplit.last_ne
    rw [List.take_left', encodeWithTable_eq]
    · congr 2
      ext1
      show encodeGroups a.table.encode _ = _
      rw [hback, hsplit.text_eq, List.append_assoc, List.singleton_append]
    · rfl

/-- Without memory for the block, what was encoded is not decoded. -/
theorem encoded_without_memory :
    ¬ ∃ text, encodeWithTable Alphabet.standard.table [0] true = some (.ok text) ∧
      decodeOutputs Alphabet.standard.table text false = some ⟨.ok (), some [0, 0], 1⟩ := by
  rintro ⟨text, _, hdecode⟩
  rcases decodeOutputs_cases .standard text false with ⟨_, hrefused⟩ | ⟨_, hmemory⟩ | ⟨_, _, _, _, htrue, _⟩
  · rw [hrefused] at hdecode
    cases hdecode
  · rw [hmemory] at hdecode
    cases hdecode
  · cases htrue

/-- Two bytes and their text in both directions. -/
theorem base64_roundTrip_twoBytes :
    (∃ text, encodeWithTable Alphabet.url.table [0xFB, 0xF0] true = some (.ok text) ∧
        decodeOutputs Alphabet.url.table text true = some ⟨.ok (), some [0xFB, 0xF0, 0], 2⟩) ∧
      encodeWithTable Alphabet.url.table ([0xFB, 0xF0, 0].take 2) true = some (.ok (.lit "-_A=")) := by
  refine ⟨(base64_roundTrip .url).1 [0xFB, 0xF0] (by decide), ?_⟩
  refine (base64_roundTrip .url).2 (.lit "-_A=") true [0xFB, 0xF0, 0] 2 (by decide) ?_
  have htext : (CString.lit "-_A=").bytes = [45, 95] ++ 65 :: List.replicate 1 paddingChar := rfl
  exact unusedBitsZero_of htext (by decide) (by decide)

end MindConnect.Base64
