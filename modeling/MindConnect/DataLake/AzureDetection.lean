import MindConnect.Core.StringUtil
import Mathlib.Algebra.Order.Ring.Nat
import Mathlib.Order.MinMax

/-!
# What is read of a signed URL to find out whether it is for Azure Storage

`_check_url_if_it_is_for_azure_storage` (`data_lake_processor.c:339`) with all that it reads. The comparison behind the
first dot wants one character more than the docs of the service do, and for a URL of fewer than 22 characters the
subtraction wraps around and the comparison runs over the end.

| here | there |
| --- | --- |
| `charAt` | `signed_url[index]` |
| `dotLoop` | the loop with the empty body; `index` is an `mcl_int32_t` |
| `memcmpIsEqual` | `mcl_string_util_memcmp`: the library may read all bytes of both blocks |

An index that overflows has no outcome. `outside` is what a comparison that runs over the terminator comes to; it
should not be asked for, so that for `Decides` it has none.
-/

namespace MindConnect.SignedUrl

/-! ## The code -/

def azureStorageUrl : Bytes := ascii "blob.core.windows.net"

def int32Max : Nat := 2147483647

def charAt (signedUrl : CString) (index : Nat) : Option UInt8 := (signedUrl.bytes ++ [0])[index]?

/-- The fuel is one more than the URL has characters. -/
def dotLoop (signedUrl : CString) : Nat → Nat → Option Nat
  | 0, _ => none
  | fuel + 1, index => do
    let c ← charAt signedUrl index
    if index = int32Max then none
    else if c ≠ 46 ∧ index + 1 < signedUrl.length then dotLoop signedUrl fuel (index + 1)
    else some (index + 1)

def memcmpIsEqual (outside : Option Bool) (signedUrl : CString) (index : Nat) (block : Bytes) : Option Bool :=
  if index + block.length ≤ signedUrl.length + 1 then
    some (((signedUrl.bytes ++ [0]).drop index).take block.length == block)
  else outside

/-- `url_length - sizeof(azure_storage_url)` wraps around for a shorter URL. -/
def checkUrlIfItIsForAzureStorage (w : Nat) (outside : Option Bool) (signedUrl : CString) : Option Bool := do
  let index ← dotLoop signedUrl (signedUrl.length + 1) 0
  let urlLength : BitVec w := .ofNat w signedUrl.length
  if index < (urlLength - .ofNat w (azureStorageUrl.length + 1)).toNat then
    memcmpIsEqual outside signedUrl index azureStorageUrl
  else some false

/-! ## What it is to decide -/

/-- Behind the first dot there is the domain and one more character at least. -/
def IsForAzure (signedUrl : CString) : Prop :=
  ∃ before c rest, signedUrl.bytes = before ++ 46 :: (azureStorageUrl ++ c :: rest) ∧ 46 ∉ before

/-- The function answers from the URL alone, and rightly. -/
def Decides (w : Nat) (signedUrl : CString) : Prop :=
  ∃ answer, checkUrlIfItIsForAzureStorage w none signedUrl = some answer ∧ (answer = true ↔ IsForAzure signedUrl)

/-- The URLs that it decides. -/
structure Decided (signedUrl : CString) : Prop where
  /-- A comparison that stays inside. -/
  long : 22 ≤ signedUrl.length ∨ signedUrl.length = 21 ∧ signedUrl.bytes.head? = some 46
  /-- An index that does not overflow. -/
  index : signedUrl.length ≤ int32Max ∨ 46 ∈ signedUrl.bytes.take int32Max
  /-- Not the domain with only one character behind it. -/
  room : ¬ ∃ before c, signedUrl.bytes = before ++ 46 :: (azureStorageUrl ++ [c]) ∧ 46 ∉ before

/-! ## The first dot -/

/-- How far the index gets in the rest of the URL: behind the first dot, or to the end, and once at least. -/
def behindFirstDot : Bytes → Nat
  | [] => 1
  | [_] => 1
  | b :: bs => if b = 46 then 1 else behindFirstDot bs + 1

theorem behindFirstDot_pos (bytes : Bytes) : 0 < behindFirstDot bytes := by
  rcases bytes with _ | ⟨b, _ | ⟨b', bs⟩⟩
  · decide
  · exact Nat.one_pos
  · rw [behindFirstDot]
    split_ifs
    · exact Nat.one_pos
    · exact Nat.succ_pos _
    · exact List.cons_ne_nil _ _

theorem behindFirstDot_dot (bs : Bytes) : behindFirstDot (46 :: bs) = 1 := by
  cases bs with
  | nil => rfl
  | cons b bs => rfl

theorem behindFirstDot_other {b : UInt8} {bs : Bytes} (hb : b ≠ 46) (hbs : bs ≠ []) :
    behindFirstDot (b :: bs) = behindFirstDot bs + 1 := by
  rw [behindFirstDot, if_neg hb]
  exact hbs

theorem dotLoop_eq {signedUrl : CString} {fuel index : Nat} (hend : index < signedUrl.length ∨ index = 0)
    (hfuel : signedUrl.length - index < fuel) (hint : index ≤ int32Max) :
    dotLoop signedUrl fuel index =
      if index + behindFirstDot (signedUrl.bytes.drop index) ≤ int32Max then
        some (index + behindFirstDot (signedUrl.bytes.drop index)) else none := by
  induction fuel generalizing index with
  | zero => omega
  | succ fuel ih =>
    have hlength : signedUrl.bytes.length = signedUrl.length := rfl
    rw [dotLoop]
    cases hdrop : signedUrl.bytes.drop index with
    | nil =>
      have hempty : signedUrl.bytes.length ≤ index := List.drop_eq_nil_iff.1 hdrop
      obtain rfl : index = 0 := by omega
      have hnil : signedUrl.bytes = [] := by simpa using hdrop
      have hzero : signedUrl.length = 0 := by omega
      simp [charAt, hnil, hzero, behindFirstDot, int32Max]
    | cons c rest =>
      have hlt : index < signedUrl.bytes.length := by
        by_contra hnot
        rw [List.drop_eq_nil_of_le (by omega)] at hdrop
        cases hdrop
      rw [List.drop_eq_getElem_cons hlt, List.cons.injEq] at hdrop
      obtain ⟨hc, hrest⟩ := hdrop
      have hchar : charAt signedUrl index = some c := by
        rw [charAt, List.getElem?_append_left hlt, List.getElem?_eq_getElem hlt, hc]
      have hpos := behindFirstDot_pos (c :: rest)
      simp only [hchar, bind, Option.bind]
      by_cases hmax : index = int32Max
      · rw [if_pos hmax, if_neg (by omega)]
      · rw [if_neg hmax]
        by_cases hgo : c ≠ 46 ∧ index + 1 < signedUrl.length
        · have hne : rest ≠ [] := by
            rw [← hrest]
            exact List.ne_nil_of_length_pos (by rw [List.length_drop]; omega)
          have hroom : signedUrl.length - (index + 1) < fuel := by omega
          rw [if_pos hgo, ih (.inl hgo.2) hroom (by omega), hrest, behindFirstDot_other hgo.1 hne,
            Nat.add_assoc index, Nat.add_comm 1]
        · have hone : behindFirstDot (c :: rest) = 1 := by
            by_cases hdot : c = 46
            · rw [hdot, behindFirstDot_dot]
            · have hlastIndex : ¬ index + 1 < signedUrl.length := fun hmore => hgo ⟨hdot, hmore⟩
              have hlast : rest = [] := by
                rw [← hrest]
                exact List.drop_eq_nil_of_le (by omega)
              rw [hlast]
              rfl
          rw [if_neg hgo, hone, if_pos (by omega)]

/-- No dot at all, or the characters before the first. -/
theorem behindFirstDot_cases (bytes : Bytes) :
    46 ∉ bytes ∧ behindFirstDot bytes = max 1 bytes.length ∨
      ∃ before rest, bytes = before ++ 46 :: rest ∧ 46 ∉ before ∧ behindFirstDot bytes = before.length + 1 := by
  induction bytes with
  | nil => exact .inl ⟨List.not_mem_nil, rfl⟩
  | cons b bs ih =>
    by_cases hb : b = 46
    · subst hb
      exact .inr ⟨[], bs, rfl, List.not_mem_nil, behindFirstDot_dot bs⟩
    · rcases ih with ⟨hnone, hindex⟩ | ⟨before, rest, rfl, hnone, hindex⟩
      · refine .inl ⟨by simp [Ne.symm hb, hnone], ?_⟩
        cases bs with
        | nil => rfl
        | cons b' bs =>
          rw [behindFirstDot_other hb (List.cons_ne_nil _ _), hindex]
          simp
      · refine .inr ⟨b :: before, rest, rfl, by simp [Ne.symm hb, hnone], ?_⟩
        rw [behindFirstDot_other hb (by simp), hindex, List.length_cons]

theorem behindFirstDot_le (bytes : Bytes) : behindFirstDot bytes ≤ max 1 bytes.length := by
  rcases behindFirstDot_cases bytes with ⟨-, hindex⟩ | ⟨before, rest, rfl, -, hindex⟩
  · exact Nat.le_of_eq hindex
  · rw [hindex, List.length_append, List.length_cons]
    omega

/-- Where the first dot is does not depend on how it is found. -/
theorem append_dot_inj {before before' rest rest' : Bytes} (hbefore : 46 ∉ before) (hbefore' : 46 ∉ before')
    (h : before ++ 46 :: rest = before' ++ 46 :: rest') : before = before' ∧ rest = rest' := by
  induction before generalizing before' with
  | nil =>
    cases before' with
    | nil => exact ⟨rfl, (List.cons.inj h).2⟩
    | cons b before' =>
      obtain ⟨rfl, -⟩ := List.cons.inj h
      exact absurd List.mem_cons_self hbefore'
  | cons b before ih =>
    cases before' with
    | nil =>
      obtain ⟨rfl, -⟩ := List.cons.inj h
      exact absurd List.mem_cons_self hbefore
    | cons b' before' =>
      rw [List.cons_append, List.cons_append] at h
      obtain ⟨rfl, htail⟩ := List.cons.inj h
      rw [List.mem_cons, not_or] at hbefore hbefore'
      obtain ⟨rfl, rfl⟩ := ih hbefore.2 hbefore'.2 htail
      exact ⟨rfl, rfl⟩

theorem isForAzure_append_dot {signedUrl : CString} {before rest : Bytes}
    (hbytes : signedUrl.bytes = before ++ 46 :: rest) (hbefore : 46 ∉ before) :
    IsForAzure signedUrl ↔ ∃ c more, rest = azureStorageUrl ++ c :: more := by
  constructor
  · rintro ⟨before', c, more, hbytes', hbefore'⟩
    exact ⟨c, more, (append_dot_inj hbefore hbefore' (hbytes.symm.trans hbytes')).2⟩
  · rintro ⟨c, more, rfl⟩
    exact ⟨before, c, more, hbytes, hbefore⟩

theorem not_isForAzure_of_not_mem {signedUrl : CString} (h : 46 ∉ signedUrl.bytes) : ¬ IsForAzure signedUrl := by
  rintro ⟨before, c, more, hbytes, -⟩
  exact h (by simp [hbytes])

/-! ## The comparison -/

theorem azureStorageUrl_ne_append_zero (rest : Bytes) : azureStorageUrl ≠ rest ++ [0] := by
  intro h
  have hlast : azureStorageUrl.getLast? = some 0 := by rw [h, List.getLast?_concat]
  revert hlast
  decide

theorem memcmpIsEqual_append_dot {signedUrl : CString} {before rest : Bytes}
    (hbytes : signedUrl.bytes = before ++ 46 :: rest) (hroom : azureStorageUrl.length ≤ rest.length + 1) :
    memcmpIsEqual none signedUrl (before.length + 1) azureStorageUrl = some (decide (azureStorageUrl <+: rest)) := by
  have hlength : signedUrl.length = before.length + (rest.length + 1) := by
    rw [CString.length, hbytes, List.length_append, List.length_cons]
  have hbehind : (signedUrl.bytes ++ [0]).drop (before.length + 1) = rest ++ [0] := by
    rw [hbytes, List.append_assoc, List.drop_append]
    simp
  have hprefix : azureStorageUrl <+: rest ++ [0] ↔ azureStorageUrl <+: rest := by
    rw [List.prefix_concat_iff, or_iff_right (azureStorageUrl_ne_append_zero rest)]
  rw [memcmpIsEqual, if_pos (by omega), hbehind]
  congr 1
  rw [Bool.eq_iff_iff, beq_iff_eq, decide_eq_true_iff, ← hprefix, List.prefix_iff_eq_take]
  exact eq_comm

/-- A URL long enough that the subtraction does not wrap around. -/
theorem urlLength_sub_of_le {w n : Nat} (hlen : n < 2 ^ w) (hlong : 22 ≤ n) :
    ((.ofNat w n : BitVec w) - .ofNat w (azureStorageUrl.length + 1)).toNat = n - 22 := by
  have hsize : azureStorageUrl.length + 1 = 22 := rfl
  rw [hsize, BitVec.toNat_sub_of_le]
  · simp [Nat.mod_eq_of_lt hlen, Nat.mod_eq_of_lt (Nat.lt_of_le_of_lt hlong hlen)]
  · simp [BitVec.le_def, Nat.mod_eq_of_lt hlen, Nat.mod_eq_of_lt (Nat.lt_of_le_of_lt hlong hlen), hlong]

/-- Every index that there is in a shorter URL is below what the subtraction wraps around to. -/
theorem lt_urlLength_sub_of_lt {w n : Nat} (hw : 32 ≤ w) (hshort : n < 22) :
    21 < ((.ofNat w n : BitVec w) - .ofNat w (azureStorageUrl.length + 1)).toNat := by
  have hsize : azureStorageUrl.length + 1 = 22 := rfl
  have hword : 2 ^ 32 ≤ 2 ^ w := Nat.pow_le_pow_right (by decide) hw
  rw [hsize, BitVec.toNat_sub, BitVec.toNat_ofNat, BitVec.toNat_ofNat, Nat.mod_eq_of_lt (by omega : n < 2 ^ w),
    Nat.mod_eq_of_lt (by omega : 22 < 2 ^ w), Nat.mod_eq_of_lt (by omega)]
  omega

theorem checkUrl_of_dotLoop {w : Nat} {signedUrl : CString} {index : Nat}
    (hloop : dotLoop signedUrl (signedUrl.length + 1) 0 = some index) :
    checkUrlIfItIsForAzureStorage w none signedUrl =
      if index < ((.ofNat w signedUrl.length : BitVec w) - .ofNat w (azureStorageUrl.length + 1)).toNat then
        memcmpIsEqual none signedUrl index azureStorageUrl
      else some false := by
  rw [checkUrlIfItIsForAzureStorage, hloop]
  rfl

theorem decides_iff_of_eq_some {w : Nat} {signedUrl : CString} {answer : Bool}
    (h : checkUrlIfItIsForAzureStorage w none signedUrl = some answer) :
    Decides w signedUrl ↔ (answer = true ↔ IsForAzure signedUrl) := by
  simp [Decides, h]

theorem not_decides_of_eq_none {w : Nat} {signedUrl : CString}
    (h : checkUrlIfItIsForAzureStorage w none signedUrl = none) : ¬ Decides w signedUrl := by
  simp [Decides, h]

/-! ## When it decides -/

theorem dotLoop_all (signedUrl : CString) :
    dotLoop signedUrl (signedUrl.length + 1) 0 =
      if behindFirstDot signedUrl.bytes ≤ int32Max then some (behindFirstDot signedUrl.bytes) else none := by
  rw [dotLoop_eq (.inr rfl) (by omega) (Nat.zero_le _), List.drop_zero, Nat.zero_add]

theorem decided_iff_of_not_mem {signedUrl : CString} (hnone : 46 ∉ signedUrl.bytes) :
    Decided signedUrl ↔ 22 ≤ signedUrl.length ∧ signedUrl.length ≤ int32Max := by
  constructor
  · rintro ⟨hlong, hindex, -⟩
    refine ⟨hlong.resolve_right ?_, hindex.resolve_right fun h => hnone (List.mem_of_mem_take h)⟩
    rintro ⟨-, hhead⟩
    exact hnone (List.mem_of_mem_head? hhead)
  · rintro ⟨hlong, hindex⟩
    refine ⟨.inl hlong, .inl hindex, ?_⟩
    rintro ⟨before, c, hbytes, -⟩
    exact hnone (by simp [hbytes])

theorem mem_take_dot {before rest : Bytes} (hbefore : 46 ∉ before) (n : Nat) :
    46 ∈ (before ++ 46 :: rest).take n ↔ before.length + 1 ≤ n := by
  rw [List.take_append, List.mem_append, or_iff_right fun h => hbefore (List.mem_of_mem_take h)]
  cases hroom : n - before.length with
  | zero => simp; omega
  | succ m => simp; omega

theorem decided_append_dot {signedUrl : CString} {before rest : Bytes}
    (hbytes : signedUrl.bytes = before ++ 46 :: rest) (hbefore : 46 ∉ before) :
    Decided signedUrl ↔
      (22 ≤ signedUrl.length ∨ signedUrl.length = 21 ∧ before = []) ∧ before.length + 1 ≤ int32Max ∧
        ¬ ∃ c, rest = azureStorageUrl ++ [c] := by
  have hlength : signedUrl.length = before.length + (rest.length + 1) := by
    rw [CString.length, hbytes, List.length_append, List.length_cons]
  have hhead : signedUrl.bytes.head? = some 46 ↔ before = [] := by
    rw [hbytes]
    cases before with
    | nil => simp
    | cons b before => simpa using fun h : b = 46 => hbefore (h ▸ List.mem_cons_self)
  have hindex : signedUrl.length ≤ int32Max ∨ 46 ∈ signedUrl.bytes.take int32Max ↔ before.length + 1 ≤ int32Max := by
    rw [hbytes, mem_take_dot hbefore, or_iff_right_of_imp]
    omega
  have hroom : (∃ before c, signedUrl.bytes = before ++ 46 :: (azureStorageUrl ++ [c]) ∧ 46 ∉ before) ↔
      ∃ c, rest = azureStorageUrl ++ [c] := by
    constructor
    · rintro ⟨before', c, hbytes', hbefore'⟩
      exact ⟨c, (append_dot_inj hbefore hbefore' (hbytes.symm.trans hbytes')).2⟩
    · rintro ⟨c, rfl⟩
      exact ⟨before, c, hbytes, hbefore⟩
  rw [← hhead, ← hindex, ← hroom]
  exact ⟨fun h => ⟨h.long, h.index, h.room⟩, fun h => ⟨h.1, h.2.1, h.2.2⟩⟩

/-- No dot: the scan ends at the terminator. -/
theorem decides_of_not_mem {w : Nat} {signedUrl : CString} (hw : 32 ≤ w) (hlen : signedUrl.length < 2 ^ w)
    (hnone : 46 ∉ signedUrl.bytes) (hindex : behindFirstDot signedUrl.bytes = max 1 signedUrl.length) :
    Decides w signedUrl ↔ 22 ≤ signedUrl.length ∧ signedUrl.length ≤ int32Max := by
  have hloop := dotLoop_all signedUrl
  rw [hindex] at hloop
  by_cases hmax : max 1 signedUrl.length ≤ int32Max
  · rw [if_pos hmax] at hloop
    have hcheck := checkUrl_of_dotLoop (w := w) hloop
    by_cases hlong : 22 ≤ signedUrl.length
    · rw [urlLength_sub_of_le hlen hlong, if_neg (by omega)] at hcheck
      rw [decides_iff_of_eq_some hcheck]
      simpa [hlong, not_isForAzure_of_not_mem hnone] using le_of_max_le_right hmax
    · have hbelow := lt_urlLength_sub_of_lt hw (Nat.lt_of_not_le hlong)
      have hover : ¬ max 1 signedUrl.length + azureStorageUrl.length ≤ signedUrl.length + 1 := by
        have hsize : azureStorageUrl.length = 21 := rfl
        omega
      rw [if_pos (by omega), memcmpIsEqual, if_neg hover] at hcheck
      exact iff_of_false (not_decides_of_eq_none hcheck) fun h => hlong h.1
  · rw [if_neg hmax] at hloop
    have hcheck : checkUrlIfItIsForAzureStorage w none signedUrl = none := by
      rw [checkUrlIfItIsForAzureStorage, hloop]
      rfl
    refine iff_of_false (not_decides_of_eq_none hcheck) fun h => hmax (max_le ?_ h.2)
    exact Nat.le_trans (by omega) h.2

theorem isForAzure_iff_prefix {signedUrl : CString} {before rest : Bytes}
    (hbytes : signedUrl.bytes = before ++ 46 :: rest) (hbefore : 46 ∉ before)
    (hroom : ¬ ∃ c, rest = azureStorageUrl ++ [c]) :
    IsForAzure signedUrl ↔ azureStorageUrl.length + 1 < rest.length ∧ azureStorageUrl <+: rest := by
  rw [isForAzure_append_dot hbytes hbefore]
  constructor
  · rintro ⟨c, more, rfl⟩
    refine ⟨?_, List.prefix_append _ _⟩
    cases more with
    | nil => exact absurd ⟨c, rfl⟩ hroom
    | cons c' more => simp
  · rintro ⟨hlength, suffix, rfl⟩
    cases suffix with
    | nil => simp at hlength
    | cons c more => exact ⟨c, more, rfl⟩

/-- A dot: the scan ends behind the first. -/
theorem decides_append_dot {w : Nat} {signedUrl : CString} {before rest : Bytes} (hw : 32 ≤ w)
    (hlen : signedUrl.length < 2 ^ w) (hbytes : signedUrl.bytes = before ++ 46 :: rest) (hbefore : 46 ∉ before)
    (hindex : behindFirstDot signedUrl.bytes = before.length + 1) :
    Decides w signedUrl ↔
      (22 ≤ signedUrl.length ∨ signedUrl.length = 21 ∧ before = []) ∧ before.length + 1 ≤ int32Max ∧
        ¬ ∃ c, rest = azureStorageUrl ++ [c] := by
  have hsize : azureStorageUrl.length = 21 := rfl
  have hlength : signedUrl.length = before.length + (rest.length + 1) := by
    rw [CString.length, hbytes, List.length_append, List.length_cons]
  have hloop := dotLoop_all signedUrl
  rw [hindex] at hloop
  by_cases hmax : before.length + 1 ≤ int32Max
  · rw [if_pos hmax] at hloop
    have hcheck := checkUrl_of_dotLoop (w := w) hloop
    by_cases hlong : 22 ≤ signedUrl.length
    · rw [urlLength_sub_of_le hlen hlong] at hcheck
      by_cases hdomain : 22 < rest.length
      · rw [if_pos (by omega), memcmpIsEqual_append_dot hbytes (by omega)] at hcheck
        have hroom : ¬ ∃ c, rest = azureStorageUrl ++ [c] := by
          rintro ⟨c, rfl⟩
          simp [hsize] at hdomain
        rw [decides_iff_of_eq_some hcheck, isForAzure_iff_prefix hbytes hbefore hroom]
        simp [hlong, hmax, hroom, hsize, hdomain]
      · -- Here nothing is compared, and the domain with one character behind it is missed.
        rw [if_neg (by omega)] at hcheck
        rw [decides_iff_of_eq_some hcheck, isForAzure_append_dot hbytes hbefore]
        simp only [Bool.false_eq_true, false_iff, hlong, true_or, hmax, true_and, not_iff_not]
        constructor
        · rintro ⟨c, more, rfl⟩
          obtain rfl : more = [] := List.eq_nil_of_length_eq_zero (by simp [hsize] at hdomain; omega)
          exact ⟨c, rfl⟩
        · rintro ⟨c, rfl⟩
          exact ⟨c, [], rfl⟩
    · have hbelow := lt_urlLength_sub_of_lt hw (Nat.lt_of_not_le hlong)
      rw [if_pos (by omega)] at hcheck
      have hroom : ¬ ∃ c, rest = azureStorageUrl ++ [c] := by
        rintro ⟨c, rfl⟩
        simp [hsize] at hlength
        omega
      by_cases hinside : azureStorageUrl.length ≤ rest.length + 1
      · rw [memcmpIsEqual_append_dot hbytes hinside] at hcheck
        obtain rfl : before = [] := List.eq_nil_of_length_eq_zero (by omega)
        rw [decides_iff_of_eq_some hcheck, isForAzure_iff_prefix hbytes hbefore hroom]
        have hshort : ¬ azureStorageUrl <+: rest := fun h => by
          have := h.length_le
          omega
        have hexact : signedUrl.length = 21 := by omega
        simp [hshort, hexact, hroom, int32Max]
      · rw [memcmpIsEqual, if_neg (by omega)] at hcheck
        refine iff_of_false (not_decides_of_eq_none hcheck) ?_
        rintro ⟨hcase, -, -⟩
        rcases hcase with hcase | ⟨hcase, rfl⟩
        · exact hlong hcase
        · simp only [List.length_nil] at hlength
          omega
  · rw [if_neg hmax] at hloop
    have hcheck : checkUrlIfItIsForAzureStorage w none signedUrl = none := by
      rw [checkUrlIfItIsForAzureStorage, hloop]
      rfl
    exact iff_of_false (not_decides_of_eq_none hcheck) fun h => hmax h.2.1

/-- It reads the URL only and decides rightly exactly for the URLs of `Decided`. -/
theorem checkUrl_decides_iff {w : Nat} (hw : 32 ≤ w) {signedUrl : CString} (hlen : signedUrl.length < 2 ^ w) :
    Decides w signedUrl ↔ Decided signedUrl := by
  rcases behindFirstDot_cases signedUrl.bytes with ⟨hnone, hindex⟩ | ⟨before, rest, hbytes, hbefore, hindex⟩
  · rw [decided_iff_of_not_mem hnone, decides_of_not_mem hw hlen hnone hindex]
  · rw [decided_append_dot hbytes hbefore, decides_append_dot hw hlen hbytes hbefore hindex]

/-- The domain and two characters. -/
theorem containerUrl_decides_iff :
    Decides 64 (.lit "https://a.blob.core.windows.net/c") ↔ Decided (.lit "https://a.blob.core.windows.net/c") :=
  checkUrl_decides_iff (by decide) (by decide)

/-- Behind the dot there is the domain with one character, and the answer is that there is not. -/
theorem oneCharacter_not_decides : ¬ Decides 64 (.lit "https://a.blob.core.windows.net/") := by
  have hcheck : checkUrlIfItIsForAzureStorage 64 none (.lit "https://a.blob.core.windows.net/") = some false := by
    decide
  rw [decides_iff_of_eq_some hcheck]
  simp only [Bool.false_eq_true, false_iff, not_not]
  exact ⟨ascii "https://a", 47, [], by decide, by decide⟩

/-- A URL of fewer than 21 characters is read behind its end. -/
theorem checkUrl_short {w : Nat} (hw : 32 ≤ w) {signedUrl : CString} (hshort : signedUrl.length < 21) :
    checkUrlIfItIsForAzureStorage w none signedUrl = none := by
  have hsize : azureStorageUrl.length = 21 := rfl
  have hpos := behindFirstDot_pos signedUrl.bytes
  have hle : behindFirstDot signedUrl.bytes ≤ max 1 signedUrl.length := behindFirstDot_le signedUrl.bytes
  have hloop := dotLoop_all signedUrl
  rw [if_pos (by simp only [int32Max]; omega)] at hloop
  have hbelow := lt_urlLength_sub_of_lt hw (Nat.lt_of_lt_of_le hshort (by decide))
  rw [checkUrl_of_dotLoop hloop, if_pos (by omega), memcmpIsEqual, if_neg (by omega)]

end MindConnect.SignedUrl
