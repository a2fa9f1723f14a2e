import MindConnect.Core.StringUtil
import MindConnect.Lib.Hex
import Mathlib.Algebra.Ring.Nat
import Mathlib.Data.Fintype.Basic
import Mathlib.Tactic.FinCases

/-!
# Random identifiers: `random.c`

| here | there |
| --- | --- |
| `GuidFields`, `guidFields` | `guid_t` (`random.c:22`): the fields that lie over the bytes `rnd`, without padding |
| `maskedFields` | the two assignments to fields (`:95`, `:96`) |
| `guidText` | the format `%08x-%04x-%04x-%02x%02x-%02x%02x%02x%02x%02x%02x` with its arguments (`:98`) |
| `randomGenerateGuid` | `random_generate_guid` (`:80`): the text behind `*guid`, which an error leaves as it was |

A field of several bytes is a number in the byte order of the machine, so the version falls on another of the random
bytes in each of them.
-/

namespace MindConnect.Random

open Hex (padded isLowerDigit)

/-! ## The code -/

abbrev RandomBytes := Fin 16 → UInt8

structure GuidFields where
  timeLow : UInt32
  timeMid : UInt16
  timeHiAndVersion : UInt16
  clkSeqHiRes : UInt8
  clkSeqLow : UInt8
  /-- Six bytes. -/
  node : Bytes
deriving DecidableEq, Repr

def guidFields (order : ByteOrder) (rnd : RandomBytes) : GuidFields where
  timeLow := .ofNat (order.number [rnd 0, rnd 1, rnd 2, rnd 3])
  timeMid := .ofNat (order.number [rnd 4, rnd 5])
  timeHiAndVersion := .ofNat (order.number [rnd 6, rnd 7])
  clkSeqHiRes := rnd 8
  clkSeqLow := rnd 9
  node := [rnd 10, rnd 11, rnd 12, rnd 13, rnd 14, rnd 15]

def maskedFields (guidContent : GuidFields) : GuidFields :=
  { guidContent with
    clkSeqHiRes := (guidContent.clkSeqHiRes &&& 0x3F) ||| 0x80
    timeHiAndVersion := (guidContent.timeHiAndVersion &&& 0x0FFF) ||| 0x4000 }

def guidText (guidContent : GuidFields) : Bytes :=
  padded 8 guidContent.timeLow.toNat ++ 45 ::
    (padded 4 guidContent.timeMid.toNat ++ 45 ::
      (padded 4 guidContent.timeHiAndVersion.toNat ++ 45 ::
        ((padded 2 guidContent.clkSeqHiRes.toNat ++ padded 2 guidContent.clkSeqLow.toNat) ++ 45 ::
          Hex.ofBytes guidContent.node)))

def guidLength : Nat := 36

def randomGenerateGuid (order : ByteOrder) (allocated : Bool) (random : Result RandomBytes) : Result Bytes :=
  if allocated then do
    let rnd ← random
    stringUtilSnprintf (guidLength + 1) (guidText (maskedFields (guidFields order rnd)))
  else .error .outOfMemory

/-! ## What a GUID looks like -/

/-- `xxxxxxxx-xxxx-4xxx-yxxx-xxxxxxxxxxxx` in lower-case digits, `y` one of 8, 9, a and b. -/
def IsVersion4 (text : Bytes) : Prop :=
  ∃ timeLow timeMid timeHi clkSeq node : Bytes,
    text = timeLow ++ 45 :: (timeMid ++ 45 :: (timeHi ++ 45 :: (clkSeq ++ 45 :: node))) ∧
    (timeLow.length = 8 ∧ timeMid.length = 4 ∧ timeHi.length = 4 ∧ clkSeq.length = 4 ∧ node.length = 12) ∧
    (∀ b ∈ timeLow ++ timeMid ++ timeHi ++ clkSeq ++ node, isLowerDigit b = true) ∧
    timeHi.head? = some 52 ∧ ∃ variant ∈ ascii "89ab", clkSeq.head? = some variant

theorem IsVersion4.length {text : Bytes} (h : IsVersion4 text) : text.length = guidLength := by
  obtain ⟨timeLow, timeMid, timeHi, clkSeq, node, rfl, ⟨hlow, hmid, hhi, hseq, hnode⟩, -⟩ := h
  simp only [List.length_append, List.length_cons, hlow, hmid, hhi, hseq, hnode]
  rfl

/-- The byte with the high digit of `time_hi_and_version`. -/
def versionByte : ByteOrder → Nat
  | .littleEndian => 7
  | .bigEndian => 6

/-- The bits of the random bytes that the version and the variant replace, as byte and bit. -/
def fixedBits (order : ByteOrder) : List (Nat × Nat) :=
  [(versionByte order, 4), (versionByte order, 5), (versionByte order, 6), (versionByte order, 7), (8, 6), (8, 7)]

/-! ## Masks -/

theorem mask_or {n k i : Nat} (h : k ≤ i) : (n &&& (2 ^ k - 1)) ||| 2 ^ i = 2 ^ i + n % 2 ^ k := by
  have hlt : n % 2 ^ k < 2 ^ i :=
    Nat.lt_of_lt_of_le (Nat.mod_lt _ (Nat.two_pow_pos k)) (Nat.pow_le_pow_right (by decide) h)
  have hor := Nat.two_pow_add_eq_or_of_lt hlt 1
  rw [Nat.mul_one] at hor
  rw [Nat.and_two_pow_sub_one_eq_mod, Nat.or_comm, hor]

theorem toNat_version (x : UInt16) : ((x &&& 0x0FFF) ||| 0x4000).toNat = 0x4000 + x.toNat % 0x1000 := by
  have hmask : (0x0FFF : UInt16).toNat = 2 ^ 12 - 1 := rfl
  have hone : (0x4000 : UInt16).toNat = 2 ^ 14 := rfl
  rw [UInt16.toNat_or, UInt16.toNat_and, hmask, hone, mask_or (by decide)]
  rfl

theorem toNat_variant (x : UInt8) : ((x &&& 0x3F) ||| 0x80).toNat = 0x80 + x.toNat % 0x40 := by
  have hmask : (0x3F : UInt8).toNat = 2 ^ 6 - 1 := rfl
  have hone : (0x80 : UInt8).toNat = 2 ^ 7 := rfl
  rw [UInt8.toNat_or, UInt8.toNat_and, hmask, hone, mask_or (by decide)]
  rfl

/-! ## The fields -/

section
variable (order : ByteOrder) (rnd : RandomBytes)

theorem toNat_timeLow :
    (maskedFields (guidFields order rnd)).timeLow.toNat = order.number [rnd 0, rnd 1, rnd 2, rnd 3] := by
  have hlt : order.number [rnd 0, rnd 1, rnd 2, rnd 3] < 256 ^ 4 := order.number_lt _
  exact UInt32.toNat_ofNat_of_lt' (Nat.lt_of_lt_of_eq hlt (by decide))

theorem toNat_ofNat_number (a b : UInt8) : (UInt16.ofNat (order.number [a, b])).toNat = order.number [a, b] := by
  have hlt : order.number [a, b] < 256 ^ 2 := order.number_lt _
  exact UInt16.toNat_ofNat_of_lt' (Nat.lt_of_lt_of_eq hlt (by decide))

theorem toNat_timeMid : (maskedFields (guidFields order rnd)).timeMid.toNat = order.number [rnd 4, rnd 5] :=
  toNat_ofNat_number order (rnd 4) (rnd 5)

theorem toNat_timeHiAndVersion :
    (maskedFields (guidFields order rnd)).timeHiAndVersion.toNat = 0x4000 + order.number [rnd 6, rnd 7] % 0x1000 := by
  rw [← toNat_ofNat_number order (rnd 6) (rnd 7)]
  exact toNat_version _

theorem toNat_clkSeqHiRes :
    (maskedFields (guidFields order rnd)).clkSeqHiRes.toNat = 0x80 + (rnd 8).toNat % 0x40 := toNat_variant _

end

/-! ## The layout -/

theorem isLowerDigit_of_mem_guid {g : GuidFields} {b : UInt8}
    (h : b ∈ padded 8 g.timeLow.toNat ++ padded 4 g.timeMid.toNat ++ padded 4 g.timeHiAndVersion.toNat ++
      (padded 2 g.clkSeqHiRes.toNat ++ padded 2 g.clkSeqLow.toNat) ++ Hex.ofBytes g.node) :
    isLowerDigit b = true := by
  simp only [List.mem_append] at h
  rcases h with (((h | h) | h) | h | h) | h
  · exact Hex.isLowerDigit_of_mem_padded (by decide) g.timeLow.toNat_lt h
  · exact Hex.isLowerDigit_of_mem_padded (by decide) g.timeMid.toNat_lt h
  · exact Hex.isLowerDigit_of_mem_padded (by decide) g.timeHiAndVersion.toNat_lt h
  · exact Hex.isLowerDigit_of_mem_padded (by decide) g.clkSeqHiRes.toNat_lt h
  · exact Hex.isLowerDigit_of_mem_padded (by decide) g.clkSeqLow.toNat_lt h
  · exact Hex.isLowerDigit_of_mem_ofBytes h

theorem digit_variant : ∀ d < 4, Hex.digit (8 + d) ∈ ascii "89ab" := by decide

theorem guidText_isVersion4 {g : GuidFields} (hnode : g.node.length = 6)
    (hversion : g.timeHiAndVersion.toNat / 0x1000 = 4)
    (hvariant : 8 ≤ g.clkSeqHiRes.toNat / 0x10 ∧ g.clkSeqHiRes.toNat / 0x10 < 12) : IsVersion4 (guidText g) := by
  have hlow := Hex.length_padded (by decide : 0 < 8) g.timeLow.toNat_lt
  have hmid := Hex.length_padded (by decide : 0 < 4) g.timeMid.toNat_lt
  have hhi := Hex.length_padded (by decide : 0 < 4) g.timeHiAndVersion.toNat_lt
  have hres := Hex.length_padded (by decide : 0 < 2) g.clkSeqHiRes.toNat_lt
  have hseq := Hex.length_padded (by decide : 0 < 2) g.clkSeqLow.toNat_lt
  refine ⟨_, _, _, _, _, rfl, ⟨hlow, hmid, hhi, ?_, ?_⟩, fun b => isLowerDigit_of_mem_guid, ?_, ?_⟩
  · rw [List.length_append, hres, hseq]
  · rw [Hex.length_ofBytes, hnode]
  · rw [Hex.head?_padded g.timeHiAndVersion.toNat_lt]
    simp only [Nat.reducePow, hversion]
    rfl
  · have hlt : g.clkSeqHiRes.toNat < 16 ^ (1 + 1) := g.clkSeqHiRes.toNat_lt
    have hhead := Hex.head?_padded hlt
    obtain ⟨d, hd⟩ := Nat.exists_eq_add_of_le hvariant.1
    rw [Nat.pow_one, hd] at hhead
    refine ⟨Hex.digit (8 + d), digit_variant d (by omega), ?_⟩
    rw [List.head?_append, hhead, Option.some_or]

theorem guid_isVersion4 (order : ByteOrder) (rnd : RandomBytes) :
    IsVersion4 (guidText (maskedFields (guidFields order rnd))) := by
  apply guidText_isVersion4
  · rfl
  · rw [toNat_timeHiAndVersion]
    omega
  · rw [toNat_clkSeqHiRes]
    omega

theorem randomGenerateGuid_eq (order : ByteOrder) (rnd : RandomBytes) :
    randomGenerateGuid order true (.ok rnd) = .ok (guidText (maskedFields (guidFields order rnd))) := by
  have hlength := (guid_isVersion4 order rnd).length
  simp only [randomGenerateGuid, if_true, bind, Except.bind]
  generalize guidText (maskedFields (guidFields order rnd)) = text at hlength ⊢
  have hne : text ≠ [] := by
    rintro rfl
    cases hlength
  exact stringUtilSnprintf_ok hne (hlength.trans_lt (Nat.lt_succ_self _))

/-! ## Which bits are kept -/

/-- The text has the fields in it, each at its place. -/
theorem guidText_eq_iff {g g' : GuidFields} (hnode : g.node.length = g'.node.length) :
    guidText g = guidText g' ↔
      g.timeLow.toNat = g'.timeLow.toNat ∧ g.timeMid.toNat = g'.timeMid.toNat ∧
        g.timeHiAndVersion.toNat = g'.timeHiAndVersion.toNat ∧
        (g.clkSeqHiRes.toNat = g'.clkSeqHiRes.toNat ∧ g.clkSeqLow.toNat = g'.clkSeqLow.toNat) ∧
        g.node = g'.node := by
  have hlength {width n m : Nat} (hwidth : 0 < width) (hn : n < 16 ^ width) (hm : m < 16 ^ width) :
      (padded width n).length = (padded width m).length := by
    rw [Hex.length_padded hwidth hn, Hex.length_padded hwidth hm]
  have hlow := hlength (by decide : 0 < 8) g.timeLow.toNat_lt g'.timeLow.toNat_lt
  have hmid := hlength (by decide : 0 < 4) g.timeMid.toNat_lt g'.timeMid.toNat_lt
  have hhi := hlength (by decide : 0 < 4) g.timeHiAndVersion.toNat_lt g'.timeHiAndVersion.toNat_lt
  have hres := hlength (by decide : 0 < 2) g.clkSeqHiRes.toNat_lt g'.clkSeqHiRes.toNat_lt
  have hseq := hlength (by decide : 0 < 2) g.clkSeqLow.toNat_lt g'.clkSeqLow.toNat_lt
  have hboth : (padded 2 g.clkSeqHiRes.toNat ++ padded 2 g.clkSeqLow.toNat).length =
      (padded 2 g'.clkSeqHiRes.toNat ++ padded 2 g'.clkSeqLow.toNat).length := by
    rw [List.length_append, List.length_append, hres, hseq]
  simp only [guidText, List.append_eq_append_iff_of_size_eq_left hlow, List.append_eq_append_iff_of_size_eq_left hmid,
    List.append_eq_append_iff_of_size_eq_left hhi, List.append_eq_append_iff_of_size_eq_left hboth,
    List.append_eq_append_iff_of_size_eq_left hres, List.cons.injEq, true_and, Hex.ofBytes_inj hnode,
    Hex.padded_inj (by decide : 0 < 8) g.timeLow.toNat_lt g'.timeLow.toNat_lt,
    Hex.padded_inj (by decide : 0 < 4) g.timeMid.toNat_lt g'.timeMid.toNat_lt,
    Hex.padded_inj (by decide : 0 < 4) g.timeHiAndVersion.toNat_lt g'.timeHiAndVersion.toNat_lt,
    Hex.padded_inj (by decide : 0 < 2) g.clkSeqHiRes.toNat_lt g'.clkSeqHiRes.toNat_lt,
    Hex.padded_inj (by decide : 0 < 2) g.clkSeqLow.toNat_lt g'.clkSeqLow.toNat_lt]

theorem mod_two_pow_eq_iff {n m k : Nat} : n % 2 ^ k = m % 2 ^ k ↔ ∀ j < k, n.testBit j = m.testBit j := by
  constructor
  · intro h j hj
    have hbit := congrArg (Nat.testBit · j) h
    simpa [Nat.testBit_mod_two_pow, hj] using hbit
  · intro h
    apply Nat.eq_of_testBit_eq
    intro j
    by_cases hj : j < k
    · simp [Nat.testBit_mod_two_pow, hj, h j hj]
    · simp [Nat.testBit_mod_two_pow, hj]

/-- How many low bits of a byte are kept. -/
def keptBits (order : ByteOrder) (i : Nat) : Nat := if i = 8 then 6 else if i = versionByte order then 4 else 8

theorem not_mem_fixedBits_iff (order : ByteOrder) {i j : Nat} (hj : j < 8) :
    (i, j) ∉ fixedBits order ↔ j < keptBits order i := by
  have hversion : versionByte order ≠ 8 := by cases order <;> decide
  simp only [fixedBits, keptBits, List.mem_cons, List.not_mem_nil, Prod.mk.injEq, or_false]
  by_cases hi : i = 8
  · rw [if_pos hi]
    omega
  · rw [if_neg hi]
    by_cases hv : i = versionByte order
    · rw [if_pos hv]
      omega
    · rw [if_neg hv]
      omega

theorem keptBits_le (order : ByteOrder) (i : Nat) : keptBits order i ≤ 8 := by
  unfold keptBits
  split_ifs <;> decide

/-- Agreement outside the fixed bits is agreement of the low bits of every byte. -/
theorem bits_agree_iff (order : ByteOrder) (rnd rnd' : RandomBytes) :
    (∀ (i : Fin 16) (j : Nat), j < 8 → (i.val, j) ∉ fixedBits order →
        (rnd i).toNat.testBit j = (rnd' i).toNat.testBit j) ↔
      ∀ i : Fin 16, (rnd i).toNat % 2 ^ keptBits order i = (rnd' i).toNat % 2 ^ keptBits order i := by
  simp only [mod_two_pow_eq_iff]
  constructor
  · intro h i j hj
    have hj8 := Nat.lt_of_lt_of_le hj (keptBits_le order i)
    exact h i j hj8 ((not_mem_fixedBits_iff order hj8).2 hj)
  · intro h i j hj8 hj
    exact h i j ((not_mem_fixedBits_iff order hj8).1 hj)

theorem forall_byte {p : Fin 16 → Prop} :
    (∀ i, p i) ↔ (p 0 ∧ p 1 ∧ p 2 ∧ p 3) ∧ (p 4 ∧ p 5) ∧ (p 6 ∧ p 7) ∧ (p 8 ∧ p 9) ∧
      p 10 ∧ p 11 ∧ p 12 ∧ p 13 ∧ p 14 ∧ p 15 := by
  constructor
  · intro h
    exact ⟨⟨h 0, h 1, h 2, h 3⟩, ⟨h 4, h 5⟩, ⟨h 6, h 7⟩, ⟨h 8, h 9⟩,
      h 10, h 11, h 12, h 13, h 14, h 15⟩
  · rintro ⟨⟨h0, h1, h2, h3⟩, ⟨h4, h5⟩, ⟨h6, h7⟩, ⟨h8, h9⟩, h10, h11, h12, h13, h14, h15⟩ i
    fin_cases i <;> assumption

/-- The two bytes of the version field, of which the one with the version keeps its low half. -/
theorem version_agrees_iff (order : ByteOrder) (rnd rnd' : RandomBytes) :
    order.number [rnd 6, rnd 7] % 0x1000 = order.number [rnd' 6, rnd' 7] % 0x1000 ↔
      (rnd 6).toNat % 2 ^ keptBits order 6 = (rnd' 6).toNat % 2 ^ keptBits order 6 ∧
        (rnd 7).toNat % 2 ^ keptBits order 7 = (rnd' 7).toNat % 2 ^ keptBits order 7 := by
  have h6 := (rnd 6).toNat_lt
  have h7 := (rnd 7).toNat_lt
  have h6' := (rnd' 6).toNat_lt
  have h7' := (rnd' 7).toNat_lt
  cases order with
  | littleEndian =>
    have hlow : keptBits .littleEndian 6 = 8 := rfl
    have hhigh : keptBits .littleEndian 7 = 4 := rfl
    rw [ByteOrder.number_pair_littleEndian, ByteOrder.number_pair_littleEndian, hlow, hhigh]
    omega
  | bigEndian =>
    have hhigh : keptBits .bigEndian 6 = 4 := rfl
    have hlow : keptBits .bigEndian 7 = 8 := rfl
    rw [ByteOrder.number_pair_bigEndian, ByteOrder.number_pair_bigEndian, hlow, hhigh]
    omega

section
variable {order : ByteOrder} {rnd rnd' : RandomBytes}

/-- A byte that is kept as a whole. -/
theorem whole_agrees_iff {i : Nat} (hi : i ≠ 8 ∧ i ≠ 6 ∧ i ≠ 7) (b c : UInt8) :
    b.toNat % 2 ^ keptBits order i = c.toNat % 2 ^ keptBits order i ↔ b = c := by
  have hversion : i ≠ versionByte order := by
    cases order with
    | littleEndian => exact hi.2.2
    | bigEndian => exact hi.2.1
  rw [keptBits, if_neg hi.1, if_neg hversion, Nat.mod_eq_of_lt b.toNat_lt, Nat.mod_eq_of_lt c.toNat_lt,
    UInt8.toNat_inj]

theorem guid_eq_iff :
    guidText (maskedFields (guidFields order rnd)) = guidText (maskedFields (guidFields order rnd')) ↔
      ∀ i : Fin 16, (rnd i).toNat % 2 ^ keptBits order i = (rnd' i).toNat % 2 ^ keptBits order i := by
  have hnode : (maskedFields (guidFields order rnd)).node.length = (maskedFields (guidFields order rnd')).node.length :=
    rfl
  rw [guidText_eq_iff hnode, forall_byte]
  refine and_congr ?_ (and_congr ?_ (and_congr ?_ (and_congr (and_congr ?_ ?_) ?_)))
  · rw [toNat_timeLow, toNat_timeLow, ByteOrder.number_inj]
    · simp [whole_agrees_iff]
    · rfl
  · rw [toNat_timeMid, toNat_timeMid, ByteOrder.number_inj]
    · simp [whole_agrees_iff]
    · rfl
  · rw [toNat_timeHiAndVersion, toNat_timeHiAndVersion, Nat.add_left_cancel_iff]
    exact version_agrees_iff order rnd rnd'
  · rw [toNat_clkSeqHiRes, toNat_clkSeqHiRes, Nat.add_left_cancel_iff]
    rfl
  · rw [UInt8.toNat_inj]
    simp [maskedFields, guidFields, whole_agrees_iff]
  · simp [maskedFields, guidFields, whole_agrees_iff]

end

/-- For either byte order: every text is a GUID of version 4, and two of them are equal if and only if the random bytes
agree outside six bits. -/
theorem guid_generated (order : ByteOrder) (rnd : RandomBytes) :
    (∃ text, randomGenerateGuid order true (.ok rnd) = .ok text ∧ text.length = 36 ∧ IsVersion4 text) ∧
      (fixedBits order).length = 6 ∧
      ∀ rnd', randomGenerateGuid order true (.ok rnd) = randomGenerateGuid order true (.ok rnd') ↔
        ∀ (i : Fin 16) (j : Nat), j < 8 → (i.val, j) ∉ fixedBits order →
          (rnd i).toNat.testBit j = (rnd' i).toNat.testBit j := by
  have hguid := guid_isVersion4 order rnd
  refine ⟨⟨_, randomGenerateGuid_eq order rnd, hguid.length, hguid⟩, rfl, ?_⟩
  intro rnd'
  rw [randomGenerateGuid_eq, randomGenerateGuid_eq, Except.ok.injEq, bits_agree_iff]
  exact guid_eq_iff

/-- The bytes and the text of the unit test of the generator. -/
example : randomGenerateGuid .littleEndian true (.ok fun i =>
      ([0xe4, 0x4c, 0xea, 0xb5, 0x5b, 0xb8, 0xe2, 0x45, 0x84, 0xff, 0xe2, 0xe6, 0xab, 0x21, 0xc7, 0x9c] : Bytes).getD
        i 0) = .ok (ascii "b5ea4ce4-b85b-45e2-84ff-e2e6ab21c79c") := by decide

/-! ## Every GUID is generated -/

theorem variant_of_mem : ∀ d < 16, Hex.digit d ∈ ascii "89ab" → 8 ≤ d ∧ d < 12 := by decide

/-- Random bytes for the fields of several bytes, the two single ones and the node. -/
theorem exists_random (order : ByteOrder) {timeLow timeMid timeHi : Nat} {clkSeq node : Bytes}
    (hlow : timeLow < 256 ^ 4) (hmid : timeMid < 256 ^ 2) (hhi : timeHi < 256 ^ 2) (hseq : clkSeq.length = 2)
    (hnode : node.length = 6) :
    ∃ rnd : RandomBytes, order.number [rnd 0, rnd 1, rnd 2, rnd 3] = timeLow ∧
      order.number [rnd 4, rnd 5] = timeMid ∧ order.number [rnd 6, rnd 7] = timeHi ∧ [rnd 8, rnd 9] = clkSeq ∧
      [rnd 10, rnd 11, rnd 12, rnd 13, rnd 14, rnd 15] = node := by
  obtain ⟨low, hlength, rfl⟩ := order.exists_bytes hlow
  obtain ⟨b0, b1, b2, b3, rfl⟩ := List.length_eq_four.1 hlength
  obtain ⟨mid, hlength, rfl⟩ := order.exists_bytes hmid
  obtain ⟨b4, b5, rfl⟩ := List.length_eq_two.1 hlength
  obtain ⟨hi, hlength, rfl⟩ := order.exists_bytes hhi
  obtain ⟨b6, b7, rfl⟩ := List.length_eq_two.1 hlength
  obtain ⟨b8, b9, rfl⟩ := List.length_eq_two.1 hseq
  obtain ⟨b10, tail, rfl⟩ := List.exists_cons_of_length_eq_add_one hnode
  obtain ⟨b11, tail, rfl⟩ := List.exists_cons_of_length_eq_add_one (Nat.succ.inj hnode)
  obtain ⟨b12, b13, b14, b15, rfl⟩ := List.length_eq_four.1 (Nat.succ.inj (Nat.succ.inj hnode))
  exact ⟨fun i => [b0, b1, b2, b3, b4, b5, b6, b7, b8, b9, b10, b11, b12, b13, b14, b15].getD i 0,
    rfl, rfl, rfl, rfl, rfl⟩

/-- No text of version 4 is left out, so there are as many as the bits that are kept allow. -/
theorem exists_guid (order : ByteOrder) {text : Bytes} (h : IsVersion4 text) :
    ∃ rnd, randomGenerateGuid order true (.ok rnd) = .ok text := by
  obtain ⟨timeLow, timeMid, timeHi, clkSeq, node, rfl, ⟨hlow, hmid, hhi, hseq, hnode⟩, hdigits, hversion,
    variant, hvariant, hhead⟩ := h
  simp only [List.mem_append] at hdigits
  obtain ⟨low, hlt, rfl⟩ := Hex.exists_padded (by decide : 0 < 8) hlow fun b hb => hdigits b (by simp [hb])
  obtain ⟨mid, hmidlt, rfl⟩ := Hex.exists_padded (by decide : 0 < 4) hmid fun b hb => hdigits b (by simp [hb])
  obtain ⟨hi, hhilt, rfl⟩ := Hex.exists_padded (by decide : 0 < 4) hhi fun b hb => hdigits b (by simp [hb])
  obtain ⟨seq, hseqlength, rfl⟩ := Hex.exists_ofBytes 2 hseq fun b hb => hdigits b (by simp [hb])
  obtain ⟨nodeBytes, hnodelength, rfl⟩ := Hex.exists_ofBytes 6 hnode fun b hb => hdigits b (by simp [hb])
  have hfour : hi / 16 ^ 3 = 4 := by
    rw [Hex.head?_padded hhilt] at hversion
    exact (Hex.digit_inj (by omega) (by decide)).1 (Option.some.inj hversion)
  obtain ⟨rnd, rfl, rfl, rfl, hseqbytes, rfl⟩ := exists_random order hlt hmidlt hhilt hseqlength hnodelength
  subst hseqbytes
  have hbound : 8 ≤ (rnd 8).toNat / 16 ∧ (rnd 8).toNat / 16 < 12 := by
    have hlt8 := (rnd 8).toNat_lt
    rw [Hex.ofBytes_cons, Hex.padded_byte, List.cons_append, List.head?_cons, Option.some.injEq] at hhead
    exact variant_of_mem _ (by omega) (hhead ▸ hvariant)
  refine ⟨rnd, ?_⟩
  rw [randomGenerateGuid_eq, guidText, toNat_timeLow, toNat_timeMid, toNat_timeHiAndVersion, toNat_clkSeqHiRes]
  have hhi' : 0x4000 + order.number [rnd 6, rnd 7] % 0x1000 = order.number [rnd 6, rnd 7] := by omega
  have hres' : 0x80 + (rnd 8).toNat % 0x40 = (rnd 8).toNat := by
    have hlt8 := (rnd 8).toNat_lt
    omega
  rw [hhi', hres', Hex.ofBytes_cons, Hex.ofBytes_singleton]
  rfl

/-- What the generator gives are the texts of version 4 and no others. -/
theorem generated_iff (order : ByteOrder) (text : Bytes) :
    (∃ rnd, randomGenerateGuid order true (.ok rnd) = .ok text) ↔ IsVersion4 text := by
  constructor
  · rintro ⟨rnd, hrnd⟩
    rw [randomGenerateGuid_eq] at hrnd
    cases hrnd
    exact guid_isVersion4 order rnd
  · exact exists_guid order

end MindConnect.Random
