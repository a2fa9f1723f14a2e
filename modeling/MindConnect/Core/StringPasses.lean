import MindConnect.Core.CjsonParse
import Mathlib.Data.List.Chain

/-!
# The two passes over a JSON string

The first pass finds the closing quote and counts the pairs it skips, the second writes what the string stands for into
a block of that size. Behind a `\u` without four digits the second pass may be one byte off the first, and may even take
the closing quote for an escaped one. It still saves a byte for every pair that the first one has skipped, so that the
NUL is inside the block (`convertLoop_meets`).
-/

namespace MindConnect.CjsonParse

open CjsonPrint Fallible

variable {content : Bytes}

/-! ## Pairs -/

/-- Where the first pass sees a backslash with a byte behind it. -/
def pairStarts : Bytes → List Bool
  | [] => []
  | b :: s =>
    if b = 34 then []
    else if b = 92 then
      match s with
      | [] => []
      | _ :: s => true :: false :: pairStarts s
    else false :: pairStarts s

theorem scanString_quote (s : Bytes) : scanString (34 :: s) = some (0, 0) := by rw [scanString.eq_def]; rfl

theorem scanString_pair (b : UInt8) (s : Bytes) :
    scanString (92 :: b :: s) = (scanString s).map fun r => (r.1 + 2, r.2 + 1) := by rw [scanString.eq_def]; rfl

theorem scanString_plain {b : UInt8} (hquote : b ≠ 34) (hbackslash : b ≠ 92) (s : Bytes) :
    scanString (b :: s) = (scanString s).map fun r => (r.1 + 1, r.2) := by
  rw [scanString.eq_def]
  simp only [if_neg hquote, if_neg hbackslash]

theorem pairStarts_quote (s : Bytes) : pairStarts (34 :: s) = [] := by rw [pairStarts.eq_def]; rfl

theorem pairStarts_pair (b : UInt8) (s : Bytes) : pairStarts (92 :: b :: s) = true :: false :: pairStarts s := by
  rw [pairStarts.eq_def]; rfl

theorem pairStarts_plain {b : UInt8} (hquote : b ≠ 34) (hbackslash : b ≠ 92) (s : Bytes) :
    pairStarts (b :: s) = false :: pairStarts s := by
  rw [pairStarts.eq_def]
  simp only [if_neg hquote, if_neg hbackslash]

/-- The first pass counts the bytes before the closing quote and the pairs in them. -/
theorem scanString_pairStarts (s : Bytes) {n skipped : Nat} (h : scanString s = some (n, skipped)) :
    (pairStarts s).length = n ∧ (pairStarts s).count true = skipped ∧ n < s.length := by
  induction s using pairStarts.induct generalizing n skipped with
  | case1 => cases h
  | case2 s =>
    rw [scanString_quote] at h
    cases h
    rw [pairStarts_quote]
    exact ⟨rfl, rfl, Nat.succ_pos _⟩
  | case3 => cases h
  | case4 hquote b s ih =>
    rw [scanString_pair] at h
    obtain ⟨r, hr, heq⟩ := Option.map_eq_some_iff.1 h
    cases heq
    obtain ⟨hlength, hcount, hlt⟩ := ih hr
    rw [pairStarts_pair]
    refine ⟨?_, ?_, ?_⟩
    · rw [List.length_cons, List.length_cons, hlength]
    · rw [List.count_cons_self, List.count_cons_of_ne (by decide), hcount]
    · simp only [List.length_cons]
      omega
  | case5 b s hquote hbackslash ih =>
    rw [scanString_plain hquote hbackslash] at h
    obtain ⟨r, hr, heq⟩ := Option.map_eq_some_iff.1 h
    cases heq
    obtain ⟨hlength, hcount, hlt⟩ := ih hr
    rw [pairStarts_plain hquote hbackslash]
    refine ⟨?_, ?_, ?_⟩
    · rw [List.length_cons, hlength]
    · rw [List.count_cons_of_ne (by decide), hcount]
    · simp only [List.length_cons]
      omega

theorem apart_false_cons {l : List Bool} (h : l.IsChain fun a b => ¬ (a = true ∧ b = true)) :
    (false :: l).IsChain fun a b => ¬ (a = true ∧ b = true) := by
  cases l with
  | nil => exact .singleton _
  | cons b l => exact List.isChain_cons_cons.2 ⟨fun hboth => Bool.false_ne_true hboth.1, h⟩

/-- Pairs do not overlap. -/
theorem pairStarts_apart (s : Bytes) : (pairStarts s).IsChain fun a b => ¬ (a = true ∧ b = true) := by
  induction s using pairStarts.induct with
  | case1 => exact .nil
  | case2 s =>
    rw [pairStarts_quote]
    exact .nil
  | case3 => exact .nil
  | case4 hquote b s ih =>
    rw [pairStarts_pair, List.isChain_cons_cons]
    exact ⟨fun hboth => Bool.false_ne_true hboth.2, apart_false_cons ih⟩
  | case5 b s hquote hbackslash ih =>
    rw [pairStarts_plain hquote hbackslash]
    exact apart_false_cons ih

/-- A pair starts with a backslash. -/
theorem backslash_of_pairStarts (s : Bytes) {k : Nat} (h : (pairStarts s)[k]? = some true) : s[k]? = some 92 := by
  induction s using pairStarts.induct generalizing k with
  | case1 => cases h
  | case2 s =>
    rw [pairStarts_quote] at h
    cases h
  | case3 => cases h
  | case4 hquote b s ih =>
    rw [pairStarts_pair] at h
    match k, h with
    | 0, _ => rfl
    | k + 2, h => exact ih h
  | case5 b s hquote hbackslash ih =>
    rw [pairStarts_plain hquote hbackslash] at h
    match k, h with
    | k + 1, h => exact ih h

/-- In a window of `2 * j` bytes at most `j` pairs start. -/
theorem count_take_le (j : Nat) {l : List Bool} (h : l.IsChain fun a b => ¬ (a = true ∧ b = true)) :
    (l.take (2 * j)).count true ≤ j := by
  induction j generalizing l with
  | zero => simp
  | succ j ih =>
    match l, h with
    | [], _ => simp
    | [a], _ => cases a <;> simp [Nat.mul_add]
    | a :: b :: l, h =>
      have hrest := ih h.of_cons.of_cons
      have htwo : 2 * (j + 1) = 2 * j + 1 + 1 := by omega
      have hfirst : ¬ (a = true ∧ b = true) := (List.isChain_cons_cons.1 h).1
      rw [htwo, List.take_succ_cons, List.take_succ_cons]
      cases a <;> cases b <;> simp at hfirst ⊢ <;> omega

/-- The pairs from a place on. -/
def pairsFrom (s : Bytes) (k : Nat) : Nat := ((pairStarts s).drop k).count true

theorem pairsFrom_le (s : Bytes) (k : Nat) : pairsFrom s k ≤ (pairStarts s).length - k := by
  rw [← List.length_drop]
  exact List.count_le_length

/-- The pairs behind a window are fewer by at most half of it. -/
theorem pairsFrom_add (s : Bytes) (k j : Nat) : pairsFrom s k ≤ j + pairsFrom s (k + 2 * j) := by
  have hsplit : (pairStarts s).drop k = ((pairStarts s).drop k).take (2 * j) ++ (pairStarts s).drop (k + 2 * j) := by
    rw [← List.drop_drop, List.take_append_drop]
  have hwindow := count_take_le j ((pairStarts_apart s).drop k)
  rw [pairsFrom, hsplit, List.count_append, pairsFrom]
  omega

/-- A byte that is no backslash starts no pair. -/
theorem pairsFrom_succ {s : Bytes} {k : Nat} {b : UInt8} (hb : s[k]? = some b) (hne : b ≠ 92) :
    pairsFrom s k = pairsFrom s (k + 1) := by
  cases hk : (pairStarts s)[k]? with
  | none =>
    have hend := List.getElem?_eq_none_iff.1 hk
    rw [pairsFrom, pairsFrom, List.drop_of_length_le hend, List.drop_of_length_le (Nat.le_succ_of_le hend)]
  | some start =>
    cases start with
    | true =>
      rw [backslash_of_pairStarts s hk] at hb
      exact absurd (Option.some.inj hb).symm hne
    | false =>
      obtain ⟨hlt, hget⟩ := List.getElem?_eq_some_iff.1 hk
      rw [pairsFrom, List.drop_eq_getElem_cons hlt, hget, List.count_cons_of_ne (by decide), pairsFrom]

/-! ## Escapes -/

theorem hexDigit_lt {b : UInt8} {d : Nat} (h : hexDigit b = some d) : d < 16 := by
  unfold hexDigit at h
  split_ifs at h with h1 h2 h3
  · have := UInt8.le_iff_toNat_le.1 h1.2
    cases h
    simp only [UInt8.reduceToNat] at this
    omega
  · have := UInt8.le_iff_toNat_le.1 h2.2
    cases h
    simp only [UInt8.reduceToNat] at this
    omega
  · have := UInt8.le_iff_toNat_le.1 h3.2
    cases h
    simp only [UInt8.reduceToNat] at this
    omega

/-- The hexadecimal digits so far are followed by a zero. -/
theorem parseHex4Loop_lt (input : Bytes) {h k : Nat} (hdvd : h % 16 = 0) (hlt : h < 16 ^ (k + 1)) :
    parseHex4Loop input h < 16 ^ (k + max input.length 1) := by
  induction input generalizing h k with
  | nil => exact hlt
  | cons b input ih =>
    have hpow : 16 ^ (k + 1) = 16 * 16 ^ k := Nat.pow_succ'
    have hgrow : 16 ^ (k + 1) ≤ 16 ^ (k + max (b :: input).length 1) :=
      Nat.pow_le_pow_right (by decide) (Nat.add_le_add_left (Nat.le_max_right _ _) k)
    rw [parseHex4Loop]
    cases hb : hexDigit b with
    | none => exact Nat.pow_pos (by decide)
    | some d =>
      have hd := hexDigit_lt hb
      by_cases hlast : input = []
      · subst hlast
        simp only [parseHex4Loop, if_true]
        omega
      · have hshift : (h + d) <<< 4 = 16 * (h + d) := by rw [Nat.shiftLeft_eq, Nat.mul_comm]
        have hpos := List.length_pos_of_ne_nil hlast
        have hrest := ih (h := (h + d) <<< 4) (k := k + 1) (by omega) (by rw [hshift, Nat.pow_succ']; omega)
        simp only [if_neg hlast]
        have hexponent : k + 1 + max input.length 1 = k + max (b :: input).length 1 := by
          rw [List.length_cons]
          omega
        rwa [hexponent] at hrest

theorem length_encodeTail (n c : Nat) : (encodeTail n c).length = n := by
  induction n generalizing c with
  | zero => rfl
  | succ n ih => rw [encodeTail, List.length_append, ih, List.length_singleton]

/-- Three bytes are enough for a code of 16 bits, four for any other. -/
theorem length_encodeUtf8 (c : Nat) : (encodeUtf8 c).length ≤ if c < 0x10000 then 3 else 4 := by
  unfold encodeUtf8
  split_ifs <;> simp only [List.length_cons, length_encodeTail, List.length_nil] <;> omega

/-- Four digits inside the text are read, and their value has 16 bits. -/
theorem parseHex4_meets {pos : Nat} (h : pos + 4 ≤ content.length) {P : Arena ParseBuffer → Prop}
    {E : Arena ParseBuffer → Prop} :
    Meets P (parseHex4 content pos) (fun code s => code < 0x10000 ∧ P s) E := by
  refine (Meets.accessed (if_pos h)).bind fun input => ?_
  rintro s ⟨rfl, hs⟩
  refine ⟨_, s, rfl, ?_, fun h => by cases h⟩
  rintro code ⟨⟩
  have hlength : ((content.drop pos).take 4).length = 4 := List.length_take_of_le (by rw [List.length_drop]; omega)
  have hlt := parseHex4Loop_lt ((content.drop pos).take 4) (h := 0) (k := 0) rfl (by decide)
  rw [hlength] at hlt
  exact ⟨hlt, hs⟩

/-- A sequence ends before the closing quote, and what it stands for is at most half as long. -/
theorem utf16LiteralToUtf8_meets {inputPointer inputEnd : Nat} (hend : inputEnd < content.length)
    {P : Arena ParseBuffer → Prop} :
    Meets P (utf16LiteralToUtf8 content inputPointer inputEnd)
      (fun r s => (0 < r.1 ∧ r.1 % 2 = 0 ∧ 2 * r.2.length ≤ r.1 ∧ inputPointer + r.1 ≤ inputEnd) ∧ P s) P := by
  refine (Meets.checked fun _ _ hs => hs).bind fun _ => Meets.assuming fun hsix => ?_
  refine (parseHex4_meets (by omega)).bind fun firstCode => Meets.assuming fun hfirst => ?_
  refine (Meets.checked fun _ _ hs => hs).bind fun _ => Meets.assuming fun _ => ?_
  refine Meets.ite (fun _ => ?_) fun _ => ?_
  · refine (Meets.checked fun _ _ hs => hs).bind fun _ => Meets.assuming fun htwelve => ?_
    have hbackslash : inputPointer + 6 < content.length := by omega
    have hletter : inputPointer + 6 + 1 < content.length := by omega
    refine (Meets.accessed (List.getElem?_eq_getElem hbackslash)).bind fun _ => Meets.assuming fun _ => ?_
    refine (Meets.accessed (List.getElem?_eq_getElem hletter)).bind fun _ => Meets.assuming fun _ => ?_
    refine (Meets.checked fun _ _ hs => hs).bind fun _ => Meets.assuming fun _ => ?_
    refine (parseHex4_meets (by omega)).bind fun secondCode => Meets.assuming fun _ => ?_
    refine (Meets.checked fun _ _ hs => hs).bind fun _ => Meets.assuming fun _ => ?_
    refine (Meets.checked fun _ _ hs => hs).bind fun _ => Meets.assuming fun _ => ?_
    have hlength := length_encodeUtf8 (0x10000 + ((firstCode &&& 0x3FF) <<< 10 ||| (secondCode &&& 0x3FF)))
    refine Meets.pure.pre fun s hs => ⟨?_, hs⟩
    simp only [true_and]
    split_ifs at hlength <;> omega
  · have hlength := length_encodeUtf8 firstCode
    rw [if_pos hfirst] at hlength
    refine Meets.pure.pre fun s hs => ⟨?_, hs⟩
    simp only [true_and]
    omega

/-! ## The output stays in its block -/

/-- The second pass has read `k` bytes and written `written`: all that is to be skipped has been saved or is to come. It
may read the closing quote. -/
structure InRoom (s : Bytes) (k written : Nat) : Prop where
  position : k ≤ (pairStarts s).length + 1
  saved : written + pairsFrom s 0 ≤ k + pairsFrom s k

theorem InRoom.start (s : Bytes) : InRoom s 0 0 := ⟨Nat.zero_le _, Nat.le_refl _⟩

/-- What was written leaves room for the NUL. -/
theorem InRoom.fits {s : Bytes} {k written : Nat} (h : InRoom s k written) :
    written + pairsFrom s 0 ≤ (pairStarts s).length + 1 := by
  have hle := pairsFrom_le s k
  have := h.position
  have := h.saved
  omega

/-- A byte that is copied keeps the balance. -/
theorem InRoom.plain {s : Bytes} {k written : Nat} (h : InRoom s k written) {b : UInt8} (hb : s[k]? = some b)
    (hne : b ≠ 92) (hlt : k < (pairStarts s).length) : InRoom s (k + 1) (written + 1) := by
  have hsame := pairsFrom_succ hb hne
  have := h.saved
  exact ⟨by omega, by omega⟩

/-- So does an escape that is written in at most half of its bytes. -/
theorem InRoom.escape {s : Bytes} {k written : Nat} (h : InRoom s k written) {c e : Nat} (heven : c % 2 = 0)
    (hhalf : 2 * e ≤ c) (hle : k + c ≤ (pairStarts s).length + 1) : InRoom s (k + c) (written + e) := by
  have hwindow := pairsFrom_add s k (c / 2)
  have htwice : 2 * (c / 2) = c := by omega
  rw [htwice] at hwindow
  have := h.saved
  exact ⟨hle, by omega⟩

theorem setOffset_meets {P E : Arena ParseBuffer → Prop} {Q : Unit → Arena ParseBuffer → Prop} {n : Nat}
    (hQ : ∀ s, P s → Q () { s with data := { s.data with offset := n } }) : Meets P (setOffset n) Q E :=
  Arena.meets_update hQ

/-- The second pass stays inside the text and the block, from every balanced place on. -/
theorem convertLoop_meets {start length skipped : Nat}
    (hscan : scanString (content.drop start) = some (length, skipped)) {P E : Arena ParseBuffer → Prop}
    (hE : ∀ s n, P s → E { s with data := { s.data with offset := n } }) (fuel : Nat) :
    ∀ (k written : Nat) (output : Bytes), InRoom (content.drop start) k written → length ≤ k + fuel →
      output.length = length + 2 - skipped →
      Meets P (convertLoop content (start + length) fuel (start + k) written output)
        (fun r s => r.1 + 1 ≤ r.2.length ∧ P s) E := by
  obtain ⟨hlength, hskipped, hlt⟩ := scanString_pairStarts _ hscan
  rw [List.length_drop] at hlt
  have hskips : pairsFrom (content.drop start) 0 = skipped := hskipped
  induction fuel with
  | zero =>
    intro k written output hroom hfuel houtput
    have hfits := hroom.fits
    rw [convertLoop, if_neg (by omega)]
    exact Meets.pure.pre fun s hs => ⟨by simp only [houtput]; omega, hs⟩
  | succ fuel ih =>
    intro k written output hroom hfuel houtput
    have hfits := hroom.fits
    rw [convertLoop]
    refine Meets.ite (fun hinside => ?_) fun _ => Meets.pure.pre fun s hs => ⟨by simp only [houtput]; omega, hs⟩
    have hread (j : Nat) (hj : j ≤ k + 1) : ∃ b, content[start + j]? = some b := by
      have hlt : start + j < content.length := by omega
      exact ⟨_, List.getElem?_eq_getElem hlt⟩
    -- every branch writes and goes on behind what it has read
    have hnext (bs : Bytes) (c : Nat) (hnext : InRoom (content.drop start) (k + c) (written + bs.length)) (hc : 0 < c) :
        Meets P (do
          let output ← access (Bytes.write output written bs)
          convertLoop content (start + length) fuel (start + k + c) (written + bs.length) output)
          (fun r s => r.1 + 1 ≤ r.2.length ∧ P s) E := by
      have hfits := hnext.fits
      refine (Meets.accessed (Bytes.write_eq_some (by omega))).bind fun output' => Meets.assuming fun houtput' => ?_
      have hlength' : output'.length = output.length := by
        rw [houtput']
        exact Bytes.length_of_write (Bytes.write_eq_some (by omega))
      rw [Nat.add_assoc start k c]
      exact ih (k + c) (written + bs.length) output' hnext (by omega) (hlength'.trans houtput)
    obtain ⟨b, hb⟩ := hread k (Nat.le_succ _)
    refine (Meets.accessed hb).bind fun b' => Meets.assuming ?_
    rintro rfl
    refine Meets.ite (fun hplain => ?_) fun _ => ?_
    · exact hnext [b'] 1 (hroom.plain (by rw [List.getElem?_drop]; exact hb) hplain (by omega)) Nat.one_pos
    obtain ⟨letter, hletter⟩ := hread (k + 1) (Nat.le_refl _)
    refine (Meets.accessed hletter).bind fun letter' => Meets.assuming ?_
    rintro rfl
    cases escaped letter' with
    | some c => exact hnext [c] 2 (hroom.escape rfl (Nat.le_refl _) (by omega)) Nat.two_pos
    | none =>
      refine Meets.ite (fun _ => ?_) fun _ => (setOffset_meets fun s hs => hE s _ hs).bind fun _ => Meets.fail
      refine (Meets.onFailure (utf16LiteralToUtf8_meets (by omega)) (setOffset_meets fun s hs => hE s _ hs)).bind
        fun r => ?_
      refine Meets.assuming fun ⟨hpos, heven, hhalf, hle⟩ => ?_
      exact hnext r.2 r.1 (hroom.escape heven hhalf (by omega)) hpos

end MindConnect.CjsonParse
