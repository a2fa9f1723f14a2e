import MindConnect.Core.StringPasses

/-!
# Strings that cJSON reads

On a string as JSON has it the two passes of `parse_string` go side by side, from escape to escape, and what the second
one writes is what the string stands for (`convertLoop_reads`).
-/

namespace MindConnect.CjsonParse

open JsonBuilder CjsonPrint Fallible
open Arena (allocate release update)

variable {content : Bytes}

/-! ## What an escape stands for -/

/-- Only the last eight bits of a number go into a byte. -/
theorem or_and_byte (c mark mask : Nat) (hmask : mask < 256) :
    (c ||| mark) &&& mask = (c % 256 ||| mark) &&& mask := by
  have hlow : mask = 255 &&& mask := by
    rw [Nat.and_comm, show 255 = 2 ^ 8 - 1 from rfl, Nat.and_two_pow_sub_one_eq_mod, Nat.mod_eq_of_lt hmask]
  have hmod (x : Nat) : x &&& mask = x % 256 &&& mask := by
    rw [show x % 256 = x &&& 255 from (Nat.and_two_pow_sub_one_eq_mod x 8).symm, Nat.and_assoc, ← hlow]
  rw [hmod (c ||| mark), hmod (c % 256 ||| mark), show 256 = 2 ^ 8 from rfl, Nat.or_mod_two_pow, Nat.or_mod_two_pow,
    Nat.mod_mod]

set_option maxRecDepth 2000 in
theorem continuation_byte (c : Nat) : (c ||| 0x80) &&& 0xBF = 0x80 + c % 64 := by
  have hbyte : ∀ n < 256, (n ||| 0x80) &&& 0xBF = 0x80 + n % 64 := by decide
  rw [or_and_byte c 0x80 0xBF (by decide), hbyte _ (Nat.mod_lt _ (by decide))]
  omega

theorem encodeUtf8_eq {c : Nat} (h : c ≤ 0x10FFFF) : encodeUtf8 c = Json.utf8 c := by
  have hfirst : ∀ n < 128, n &&& 0x7F = n := by decide
  have htwo : ∀ n < 32, (n ||| 0xC0) &&& 0xFF = 0xC0 + n := by decide
  have hthree : ∀ n < 16, (n ||| 0xE0) &&& 0xFF = 0xE0 + n := by decide
  have hfour : ∀ n < 8, (n ||| 0xF0) &&& 0xFF = 0xF0 + n := by decide
  unfold encodeUtf8 Json.utf8
  split_ifs with h1 h2 h3
  · rw [hfirst c h1]
  · simp only [encodeTail, continuation_byte, Nat.shiftRight_eq_div_pow, List.nil_append]
    rw [htwo _ (by omega)]
  · simp only [encodeTail, continuation_byte, Nat.shiftRight_eq_div_pow, List.nil_append]
    rw [hthree _ (by omega)]
    rfl
  · simp only [encodeTail, continuation_byte, Nat.shiftRight_eq_div_pow, List.nil_append, Nat.div_div_eq_div_mul]
    rw [hfour _ (by omega)]
    rfl

theorem hexDigit_of_isDigit {b : UInt8} (h : Scan.isDigit 16 b = true) : hexDigit b = Scan.digitValue b := by
  obtain ⟨d, hd, hlt⟩ := Scan.isDigit_eq_true.1 h
  unfold Scan.digitValue at hd ⊢
  simp only [Bool.and_eq_true, decide_eq_true_eq, hexDigit, UInt8.le_iff_toNat_le, UInt8.reduceToNat] at hd ⊢
  split_ifs at hd ⊢ <;> simp only [Option.some.injEq] at hd ⊢ <;> omega

theorem parseHex4Loop_eq {a b c d : UInt8} {code : Nat} (h : Json.readHex [a, b, c, d] = some code) :
    parseHex4Loop [a, b, c, d] 0 = code := by
  unfold Json.readHex at h
  simp only [List.all_cons, List.all_nil, Bool.and_true, Bool.and_eq_true] at h
  split_ifs at h with hdigits
  obtain ⟨ha, hb, hc, hd⟩ := hdigits
  obtain ⟨va, hva, hlta⟩ := Scan.isDigit_eq_true.1 ha
  obtain ⟨vb, hvb, hltb⟩ := Scan.isDigit_eq_true.1 hb
  obtain ⟨vc, hvc, hltc⟩ := Scan.isDigit_eq_true.1 hc
  obtain ⟨vd, hvd, hltd⟩ := Scan.isDigit_eq_true.1 hd
  cases h
  simp only [parseHex4Loop, hexDigit_of_isDigit ha, hexDigit_of_isDigit hb, hexDigit_of_isDigit hc,
    hexDigit_of_isDigit hd, hva, hvb, hvc, hvd, reduceCtorEq, if_false, if_true, Scan.value, List.foldl_cons,
    List.foldl_nil, Option.getD_some, Nat.shiftLeft_eq]
  omega

theorem surrogates_eq {first second : Nat} (hfirst : 0xD800 ≤ first ∧ first ≤ 0xDBFF)
    (hsecond : 0xDC00 ≤ second ∧ second ≤ 0xDFFF) :
    0x10000 + ((first &&& 0x3FF) <<< 10 ||| (second &&& 0x3FF)) =
      0x10000 + (first - 0xD800) * 0x400 + (second - 0xDC00) := by
  have hlow (n : Nat) : n &&& 0x3FF = n % 1024 := Nat.and_two_pow_sub_one_eq_mod n 10
  rw [hlow, hlow, ← Nat.shiftLeft_add_eq_or_of_lt (Nat.mod_lt _ (by decide) : second % 1024 < 2 ^ 10), Nat.shiftLeft_eq]
  omega

theorem isHex_of_readHex {digits : Bytes} {code : Nat} (h : Json.readHex digits = some code) :
    ∀ b ∈ digits, Scan.isDigit 16 b = true := by
  unfold Json.readHex at h
  split_ifs at h with hall
  exact List.all_eq_true.1 hall

theorem plain_of_isHex {b : UInt8} (h : Scan.isDigit 16 b = true) : b ≠ 34 ∧ b ≠ 92 := by
  constructor
  · rintro rfl
    cases h
  · rintro rfl
    cases h

/-- What the escape is, with what it stands for. -/
inductive Escape : Bytes → Bytes → Prop
  | letter {b c : UInt8} (h : escaped b = some c) : Escape [b] [c]
  | code {a b c d : UInt8} {code : Nat} (h : Json.readHex [a, b, c, d] = some code)
      (hrange : ¬ (0xD800 ≤ code ∧ code ≤ 0xDFFF)) : Escape [117, a, b, c, d] (Json.utf8 code)
  | pair {a b c d a' b' c' d' : UInt8} {first second : Nat} (hfirst : Json.readHex [a, b, c, d] = some first)
      (hfirstRange : 0xD800 ≤ first ∧ first ≤ 0xDBFF) (hsecond : Json.readHex [a', b', c', d'] = some second)
      (hsecondRange : 0xDC00 ≤ second ∧ second ≤ 0xDFFF) :
      Escape [117, a, b, c, d, 92, 117, a', b', c', d']
        (Json.utf8 (0x10000 + (first - 0xD800) * 0x400 + (second - 0xDC00)))

theorem escape_of_readEscape {s c rest : Bytes} (h : Json.readEscape s = some (c, rest)) :
    ∃ text, s = text ++ rest ∧ Escape text c := by
  unfold Json.readEscape at h
  split at h
  · cases h; exact ⟨[34], rfl, .letter rfl⟩
  · cases h; exact ⟨[92], rfl, .letter rfl⟩
  · cases h; exact ⟨[47], rfl, .letter rfl⟩
  · cases h; exact ⟨[98], rfl, .letter rfl⟩
  · cases h; exact ⟨[102], rfl, .letter rfl⟩
  · cases h; exact ⟨[110], rfl, .letter rfl⟩
  · cases h; exact ⟨[114], rfl, .letter rfl⟩
  · cases h; exact ⟨[116], rfl, .letter rfl⟩
  · rename_i a b x d s
    obtain ⟨code, hcode, h⟩ := Option.bind_eq_some_iff.1 h
    split_ifs at h with hlow hhigh
    · obtain ⟨⟨low, s'⟩, hread, h⟩ := Option.bind_eq_some_iff.1 h
      cases h
      unfold Json.readLow at hread
      split at hread
      · rename_i a' b' x' d' s'' _
        obtain ⟨second, hsecond, hread⟩ := Option.bind_eq_some_iff.1 hread
        split_ifs at hread with hrange
        simp only [Option.some.injEq, Prod.mk.injEq] at hread
        obtain ⟨rfl, rfl⟩ := hread
        exact ⟨[117, a, b, x, d, 92, 117, a', b', x', d'], rfl, .pair hcode hhigh hsecond hrange⟩
      · cases hread
    · cases h
      exact ⟨[117, a, b, x, d], rfl, .code hcode (by omega)⟩
  · cases h

theorem Escape.letter_or_code {text c : Bytes} (h : Escape text c) :
    (∃ letter b, text = [letter] ∧ escaped letter = some b ∧ c = [b]) ∨ ∃ digits, text = 117 :: digits := by
  cases h with
  | letter h => exact .inl ⟨_, _, rfl, h, rfl⟩
  | code => exact .inr ⟨_, rfl⟩
  | pair => exact .inr ⟨_, rfl⟩

theorem length_utf8 (c : Nat) : (Json.utf8 c).length ≤ if c < 0x10000 then 3 else 4 := by
  unfold Json.utf8
  split_ifs <;> simp only [List.length_cons, List.length_nil] <;> omega

theorem readHex_lt {a b c d : UInt8} {code : Nat} (h : Json.readHex [a, b, c, d] = some code) : code < 0x10000 := by
  rw [← parseHex4Loop_eq h]
  have hlt := parseHex4Loop_lt [a, b, c, d] (h := 0) (k := 0) rfl (by decide)
  simpa using hlt

theorem scanString_hex {digits s : Bytes} (h : ∀ b ∈ digits, Scan.isDigit 16 b = true) :
    scanString (digits ++ s) = (scanString s).map fun r => (r.1 + digits.length, r.2) := by
  induction digits with
  | nil => simp
  | cons b digits ih =>
    obtain ⟨hquote, hbackslash⟩ := plain_of_isHex (h b List.mem_cons_self)
    rw [List.cons_append, scanString_plain hquote hbackslash, ih fun c hc => h c (List.mem_cons_of_mem b hc),
      Option.map_map]
    rfl

/-- The first pass gets over an escape and skips enough. -/
theorem Escape.scan {text c : Bytes} (h : Escape text c) :
    ∃ skipped, c.length + skipped ≤ text.length + 1 ∧ ∀ s, scanString (92 :: (text ++ s)) =
      (scanString s).map fun r => (r.1 + (text.length + 1), r.2 + skipped) := by
  cases h with
  | letter h => exact ⟨1, Nat.le_refl _, fun s => scanString_pair _ s⟩
  | @code a b c d code h hrange =>
    have hlength := length_utf8 code
    rw [if_pos (readHex_lt h)] at hlength
    refine ⟨1, Nat.add_le_add_right hlength 1 |>.trans (by simp), fun s => ?_⟩
    rw [List.cons_append, scanString_pair, scanString_hex (isHex_of_readHex h), Option.map_map]
    rfl
  | @pair a b c d a' b' c' d' first second hfirst hfirstRange hsecond hsecondRange =>
    have hlength := length_utf8 (0x10000 + (first - 0xD800) * 0x400 + (second - 0xDC00))
    refine ⟨2, ?_, fun s => ?_⟩
    · simp only [List.length_cons, List.length_nil]
      split_ifs at hlength <;> omega
    · have hrest : scanString ([a, b, c, d] ++ 92 :: 117 :: ([a', b', c', d'] ++ s)) =
          (scanString s).map fun r => (r.1 + 4 + 2 + 4, r.2 + 1) := by
        rw [scanString_hex (isHex_of_readHex hfirst), scanString_pair, scanString_hex (isHex_of_readHex hsecond),
          Option.map_map, Option.map_map]
        rfl
      have hpair := scanString_pair 117 ([a, b, c, d] ++ 92 :: 117 :: ([a', b', c', d'] ++ s))
      rw [hrest, Option.map_map] at hpair
      exact hpair

theorem scanString_of_readChars (fuel : Nat) {s cs rest : Bytes} (h : Json.readChars fuel s = some (cs, rest)) :
    ∃ length skipped, scanString s = some (length, skipped) ∧ s.drop length = 34 :: rest ∧
      cs.length + skipped ≤ length := by
  induction fuel generalizing s cs with
  | zero => cases h
  | succ fuel ih =>
    cases s with
    | nil => cases h
    | cons b s =>
      rw [Json.readChars] at h
      split_ifs at h with hquote hbackslash hcontrol
      · cases h
        subst hquote
        exact ⟨0, 0, scanString_quote _, rfl, Nat.le_refl 0⟩
      · subst hbackslash
        obtain ⟨⟨c, s'⟩, hescape, h⟩ := Option.bind_eq_some_iff.1 h
        obtain ⟨⟨cs', rest'⟩, hchars, h⟩ := Option.bind_eq_some_iff.1 h
        cases h
        obtain ⟨text, rfl, htext⟩ := escape_of_readEscape hescape
        obtain ⟨skips, hskips, hscan⟩ := htext.scan
        obtain ⟨length, skipped, hlength, hdrop, hle⟩ := ih hchars
        refine ⟨length + (text.length + 1), skipped + skips, ?_, ?_, ?_⟩
        · rw [hscan, hlength]
          rfl
        · rw [← Nat.add_assoc, List.drop_succ_cons, Nat.add_comm, List.drop_length_add_append]
          exact hdrop
        · rw [List.length_append]
          omega
      · obtain ⟨⟨cs', rest'⟩, hchars, h⟩ := Option.bind_eq_some_iff.1 h
        cases h
        obtain ⟨length, skipped, hlength, hdrop, hle⟩ := ih hchars
        refine ⟨length + 1, skipped, ?_, hdrop, ?_⟩
        · rw [scanString_plain hquote hbackslash, hlength]
          rfl
        · rw [List.length_cons]
          omega

/-! ## What the second pass writes -/

theorem parseHex4_reads {pos : Nat} {a b c d : UInt8} {rest : Bytes} {code : Nat}
    (hdrop : content.drop pos = a :: b :: c :: d :: rest) (h : Json.readHex [a, b, c, d] = some code)
    {P E : Arena ParseBuffer → Prop} :
    Meets P (parseHex4 content pos) (fun r s => r = code ∧ P s) E := by
  have hlength := congrArg List.length hdrop
  simp only [List.length_drop, List.length_cons] at hlength
  refine (Meets.accessed (if_pos (by omega))).bind fun input => ?_
  rintro s ⟨rfl, hs⟩
  refine ⟨_, s, rfl, ?_, fun h => by cases h⟩
  rintro r ⟨⟩
  rw [hdrop]
  exact ⟨parseHex4Loop_eq h, hs⟩

theorem getElem?_of_drop {pos k : Nat} {s : Bytes} (h : content.drop pos = s) : content[pos + k]? = s[k]? := by
  rw [← h, List.getElem?_drop]

theorem utf16LiteralToUtf8_reads {text c rest : Bytes} (h : Escape (117 :: text) c) {inputPointer inputEnd : Nat}
    (hdrop : content.drop inputPointer = 92 :: 117 :: (text ++ rest)) (hend : inputPointer + text.length + 2 ≤ inputEnd)
    {P E : Arena ParseBuffer → Prop} :
    Meets P (utf16LiteralToUtf8 content inputPointer inputEnd) (fun r s => r = (text.length + 2, c) ∧ P s) E := by
  cases h with
  | letter h => cases h
  | @code a b c d code h hrange =>
    have hdigits : content.drop (inputPointer + 2) = a :: b :: c :: d :: rest := by
      rw [← List.drop_drop, hdrop]
      rfl
    simp only [List.length_cons, List.length_nil] at hend
    refine (Meets.checked fun _ hno _ => absurd (by omega) hno).bind fun _ => Meets.assuming fun _ => ?_
    refine (parseHex4_reads hdigits h).bind fun firstCode => Meets.assuming ?_
    rintro rfl
    refine (Meets.checked fun _ hno _ => absurd (by omega) hno).bind fun _ => Meets.assuming fun _ => ?_
    rw [if_neg (by omega), encodeUtf8_eq (by have := readHex_lt h; omega)]
    exact Meets.pure.pre fun s hs => ⟨rfl, hs⟩
  | @pair a b c d a' b' c' d' first second hfirst hfirstRange hsecond hsecondRange =>
    have hdigits : content.drop (inputPointer + 2) = a :: b :: c :: d :: 92 :: 117 :: a' :: b' :: c' :: d' :: rest := by
      rw [← List.drop_drop, hdrop]
      rfl
    have hdigits' : content.drop (inputPointer + 6 + 2) = a' :: b' :: c' :: d' :: rest := by
      rw [show inputPointer + 6 + 2 = inputPointer + 8 from rfl, ← List.drop_drop, hdrop]
      rfl
    have hbackslash : content[inputPointer + 6]? = some 92 := getElem?_of_drop hdrop
    have hletter : content[inputPointer + 7]? = some 117 := getElem?_of_drop hdrop
    simp only [List.length_cons, List.length_nil] at hend
    refine (Meets.checked fun _ hno _ => absurd (by omega) hno).bind fun _ => Meets.assuming fun _ => ?_
    refine (parseHex4_reads hdigits hfirst).bind fun firstCode => Meets.assuming ?_
    rintro rfl
    refine (Meets.checked fun _ hno _ => absurd (by omega) hno).bind fun _ => Meets.assuming fun _ => ?_
    rw [if_pos hfirstRange]
    refine (Meets.checked fun _ hno _ => absurd (by omega) hno).bind fun _ => Meets.assuming fun _ => ?_
    refine (Meets.accessed hbackslash).bind fun backslash => Meets.assuming fun hbackslash => ?_
    refine (Meets.accessed hletter).bind fun letter => Meets.assuming fun hletter => ?_
    refine (Meets.checked fun _ hno _ => absurd ⟨hbackslash, hletter⟩ hno).bind fun _ => Meets.assuming fun _ => ?_
    refine (parseHex4_reads hdigits' hsecond).bind fun secondCode => Meets.assuming ?_
    rintro rfl
    refine (Meets.checked fun _ hno _ => absurd (by omega) hno).bind fun _ => Meets.assuming fun _ => ?_
    have hcodepoint := surrogates_eq hfirstRange hsecondRange
    simp only [hcodepoint]
    refine (Meets.checked fun _ hno _ => absurd (by omega) hno).bind fun _ => Meets.assuming fun _ => ?_
    rw [encodeUtf8_eq (by omega)]
    exact Meets.pure.pre fun s hs => ⟨rfl, hs⟩

/-- The second pass writes what the strict reader reads. -/
theorem convertLoop_reads {P E : Arena ParseBuffer → Prop} (readFuel : Nat) :
    ∀ {cs rest : Bytes} {inputPointer length skipped written fuel : Nat} {output : Bytes},
      Json.readChars readFuel (content.drop inputPointer) = some (cs, rest) →
      scanString (content.drop inputPointer) = some (length, skipped) → length ≤ fuel →
      written + cs.length ≤ output.length →
      Meets P (convertLoop content (inputPointer + length) fuel inputPointer written output)
        (fun r s => (r.1 = written + cs.length ∧ r.2.length = output.length ∧
          r.2.take r.1 = output.take written ++ cs) ∧ P s) E := by
  induction readFuel with
  | zero => exact fun h => by cases h
  | succ readFuel ih =>
    intro cs rest inputPointer length skipped written fuel output h hscan hfuel hroom
    -- what is read and written first, and the rest of the loop
    have hnext {bs cs' : Bytes} {c length' skipped' fuel' : Nat} (hcs : cs = bs ++ cs')
        (hread : Json.readChars readFuel (content.drop (inputPointer + c)) = some (cs', rest))
        (hscan' : scanString (content.drop (inputPointer + c)) = some (length', skipped'))
        (hlength : length = length' + c) (hfuel' : length' ≤ fuel') :
        Meets P (do
          let output ← access (Bytes.write output written bs)
          convertLoop content (inputPointer + length) fuel' (inputPointer + c) (written + bs.length) output)
          (fun r s => (r.1 = written + cs.length ∧ r.2.length = output.length ∧
            r.2.take r.1 = output.take written ++ cs) ∧ P s) E := by
      subst hcs hlength
      rw [List.length_append] at hroom
      have hwrite := Bytes.write_eq_some (by omega : written + bs.length ≤ output.length)
      refine (Meets.accessed hwrite).bind fun output' => Meets.assuming fun houtput' => ?_
      have hsame : output'.length = output.length := by
        rw [houtput']
        exact Bytes.length_of_write hwrite
      have htake : output'.take (written + bs.length) = output.take written ++ bs := by
        rw [houtput']
        exact Bytes.take_of_write hwrite
      have hrest := ih hread hscan' hfuel' (by omega : written + bs.length + cs'.length ≤ output'.length)
      rw [Nat.add_assoc, Nat.add_comm c] at hrest
      refine hrest.post fun r s hs => ⟨⟨?_, hs.1.2.1.trans hsame, ?_⟩, hs.2⟩
      · rw [hs.1.1, List.length_append]
        omega
      · rw [hs.1.2.2, htake, List.append_assoc]
    cases hdrop : content.drop inputPointer with
    | nil =>
      rw [hdrop] at h
      cases h
    | cons b s =>
      rw [hdrop] at h hscan
      rw [Json.readChars] at h
      have hb : content[inputPointer]? = some b := getElem?_of_drop (k := 0) hdrop
      split_ifs at h with hquote hbackslash hcontrol
      · subst hquote
        rw [scanString_quote] at hscan
        cases h
        cases hscan
        have hdone : convertLoop content (inputPointer + 0) fuel inputPointer written output =
            pure (written, output) := by
          cases fuel <;> exact if_neg (Nat.lt_irrefl _)
        rw [hdone]
        exact Meets.pure.pre fun s hs => ⟨⟨rfl, rfl, (List.append_nil _).symm⟩, hs⟩
      · subst hbackslash
        obtain ⟨⟨c, s'⟩, hescape, h⟩ := Option.bind_eq_some_iff.1 h
        obtain ⟨⟨cs', rest'⟩, hchars, h⟩ := Option.bind_eq_some_iff.1 h
        cases h
        obtain ⟨text, rfl, htext⟩ := escape_of_readEscape hescape
        obtain ⟨length', skipped', hscan', -, -⟩ := scanString_of_readChars _ hchars
        obtain ⟨skips, -, hskips⟩ := htext.scan
        rw [hskips, hscan'] at hscan
        cases hscan
        obtain ⟨fuel, rfl⟩ := Nat.exists_eq_succ_of_ne_zero (by simp only [] at hfuel; omega : fuel ≠ 0)
        have hdrop' : content.drop (inputPointer + (text.length + 1)) = s' := by
          rw [← List.drop_drop, hdrop, List.drop_succ_cons, List.drop_left]
        rw [← hdrop'] at hchars hscan'
        rw [convertLoop, if_pos (by simp only []; omega)]
        refine (Meets.accessed hb).bind fun b' => Meets.assuming ?_
        rintro rfl
        rw [if_neg (by decide)]
        rcases htext.letter_or_code with ⟨letter, b, rfl, hescaped, rfl⟩ | ⟨digits, rfl⟩
        · have hletter : content[inputPointer + 1]? = some letter := getElem?_of_drop hdrop
          refine (Meets.accessed hletter).bind fun letter' => Meets.assuming ?_
          rintro rfl
          rw [hescaped]
          exact hnext rfl hchars hscan' rfl (by simp only [] at hfuel; omega)
        · have hletter : content[inputPointer + 1]? = some 117 := getElem?_of_drop hdrop
          refine (Meets.accessed hletter).bind fun letter' => Meets.assuming ?_
          rintro rfl
          have hliteral : Meets P (utf16LiteralToUtf8 content inputPointer _) _ fun _ => False :=
            utf16LiteralToUtf8_reads htext hdrop
              (by omega : inputPointer + digits.length + 2 ≤ inputPointer + (length' + (digits.length + 1 + 1)))
          refine (Meets.onFailure hliteral fun _ h => h.elim).bind fun r => Meets.assuming ?_
          rintro rfl
          exact hnext rfl hchars hscan' rfl (by simp only [List.length_cons] at hfuel; omega)
      · obtain ⟨⟨cs', rest'⟩, hchars, h⟩ := Option.bind_eq_some_iff.1 h
        cases h
        obtain ⟨length', skipped', hscan', -, -⟩ := scanString_of_readChars _ hchars
        rw [scanString_plain hquote hbackslash, hscan'] at hscan
        cases hscan
        obtain ⟨fuel, rfl⟩ := Nat.exists_eq_succ_of_ne_zero (by simp only [] at hfuel; omega : fuel ≠ 0)
        have hdrop' : content.drop (inputPointer + 1) = s := by
          rw [← List.drop_drop, hdrop]
          rfl
        rw [← hdrop'] at hchars hscan'
        rw [convertLoop, if_pos (by simp only []; omega)]
        refine (Meets.accessed hb).bind fun b' => Meets.assuming ?_
        rintro rfl
        rw [if_pos hbackslash]
        exact hnext (show _ = [b'] ++ cs' from rfl) hchars hscan' rfl
          (by simp only [] at hfuel; omega)

/-! ## Where the parser is -/

/-- With `s` ahead of it. -/
structure Ahead (content s : Bytes) (depth : Nat) (st : Arena ParseBuffer) : Prop where
  drop : content.drop st.data.offset = s
  offset : st.data.offset ≤ content.length
  depth : st.data.depth = depth

section
variable {s : Bytes} {depth : Nat} {E : Arena ParseBuffer → Prop}

theorem get_ahead : Meets (Ahead content s depth) get
    (fun start st => Ahead content s depth start ∧ Ahead content s depth st) E := by
  refine Meets.get.post ?_
  rintro start _ ⟨rfl, hst⟩
  exact ⟨hst, hst⟩

theorem Ahead.current {b : UInt8} {s : Bytes} {st : Arena ParseBuffer} (h : Ahead content (b :: s) depth st) :
    content[st.data.offset]? = some b := getElem?_of_drop (k := 0) h.drop

theorem byteAtOffset_ahead {b : UInt8} : Meets (Ahead content (b :: s) depth) (byteAtOffset content)
    (fun r st => r = b ∧ Ahead content (b :: s) depth st) E :=
  get_ahead.bind fun _ => Meets.assuming fun hstart => Meets.accessed hstart.current

theorem current_ahead {b : UInt8} : Meets (Ahead content (b :: s) depth) (current content)
    (fun r st => r = some b ∧ Ahead content (b :: s) depth st) E :=
  get_ahead.bind fun _ => Meets.assuming fun hstart => Meets.pure.pre fun _ hst => ⟨hstart.current, hst⟩

theorem advance_ahead {text : Bytes} {n : Nat} (hn : n = text.length) :
    Meets (Ahead content (text ++ s) depth) (advance n) (fun _ => Ahead content s depth) E := by
  refine Arena.meets_update fun st hst => ⟨?_, ?_, hst.depth⟩
  · simp only []
    rw [← List.drop_drop, hst.drop, hn, List.drop_left]
  · have hlength := congrArg List.length hst.drop
    have := hst.offset
    rw [List.length_drop, List.length_append] at hlength
    simp only []
    omega

/-- What cJSON skips ends where the strict white space ends. -/
theorem skipWhitespace_ahead {b : UInt8} {t : Bytes} (hskip : Json.skipWhite s = b :: t) (hb : 32 < b) :
    Meets (Ahead content s depth) (skipWhitespace content) (fun _ => Ahead content (b :: t) depth) E := by
  have hwhite : ∀ c ∈ s.takeWhile Json.isWhite, decide (c ≤ 32) = true := by
    intro c hc
    have hcase := List.mem_takeWhile_imp hc
    simp only [Json.isWhite, Bool.or_eq_true, beq_iff_eq] at hcase
    rcases hcase with ((rfl | rfl) | rfl) | rfl <;> rfl
  have hsplit : s.takeWhile Json.isWhite ++ b :: t = s := by
    rw [← hskip]
    exact List.takeWhile_append_dropWhile
  have hsame : s.takeWhile (· ≤ 32) = s.takeWhile Json.isWhite := by
    have hstop : ¬ b ≤ 32 := by simpa using hb
    conv_lhs => rw [← hsplit]
    rw [List.takeWhile_append_of_pos hwhite, List.takeWhile_cons, if_neg (by simpa using hstop), List.append_nil]
  refine get_ahead.bind fun start => Meets.assuming fun hstart => ?_
  have hlength := congrArg List.length hstart.drop
  rw [← hsplit, List.length_drop, List.length_append, List.length_cons] at hlength
  rw [if_pos (by omega), hstart.drop, hsame, ← hsplit]
  refine (advance_ahead (by rw [hsplit])).bind fun _ => get_ahead.bind fun moved => Meets.assuming fun hmoved => ?_
  have hrest := congrArg List.length hmoved.drop
  rw [List.length_drop, List.length_cons] at hrest
  rw [if_neg (by omega)]
  exact Meets.pure (Q := fun _ => Ahead content (b :: t) depth)

end

theorem ofBuffer_append_nul (cs rest : Bytes) : CString.ofBuffer (cs ++ 0 :: rest) = CString.ofBuffer cs := by
  apply CString.ext
  show (cs ++ 0 :: rest).takeWhile (· != 0) = cs.takeWhile (· != 0)
  induction cs with
  | nil => rfl
  | cons c cs ih =>
    by_cases hc : c = 0
    · subst hc
      rfl
    · rw [List.cons_append, List.takeWhile_cons, List.takeWhile_cons, ih]

theorem parseString_reads {m : Memory} (havailable : ∀ k, m.available k = true) {s rest : Bytes} {depth : Nat}
    {value : CString} (h : Json.readString s = some (value, rest)) {E : Arena ParseBuffer → Prop} :
    Meets (Ahead content (34 :: s) depth) (parseString content m)
      (fun r st => r = value ∧ Ahead content rest depth st) E := by
  obtain ⟨⟨cs, rest'⟩, hchars, hvalue⟩ := Option.bind_eq_some_iff.1 h
  cases hvalue
  obtain ⟨length, skipped, hscan, hclose, hle⟩ := scanString_of_readChars _ hchars
  refine get_ahead.bind fun start => Meets.assuming fun hstart => byteAtOffset_ahead.bind fun quote =>
    Meets.assuming fun hquote => ?_
  have hdrop : content.drop (start.data.offset + 1) = s := by
    rw [← List.drop_drop, hstart.drop]
    rfl
  simp only [hquote, if_true, hdrop, hscan]
  have hgranted : Meets (Ahead content (34 :: s) depth) (allocate m.available) (fun _ => Ahead content (34 :: s) depth)
      fun _ => False :=
    Arena.meets_allocate (fun st hst _ => ⟨hst.drop, hst.offset, hst.depth⟩) fun st _ hno => by
      rw [havailable] at hno
      cases hno
  refine (Meets.onFailure hgranted fun _ h => h.elim).bind fun _ => ?_
  have hblock : (m.block start.allocations (length + 1 - skipped + 1)).length = length + 1 - skipped + 1 := by
    simp [Memory.block]
  rw [← hdrop] at hchars hscan
  have hconvert : Meets (Ahead content (34 :: s) depth) (convertLoop content (start.data.offset + 1 + length) length
      (start.data.offset + 1) 0 (m.block start.allocations (length + 1 - skipped + 1))) _ fun _ => False :=
    convertLoop_reads _ hchars hscan (Nat.le_refl _) (by omega)
  refine (Meets.onFailure hconvert fun _ h => h.elim).bind fun r => Meets.assuming fun hconverted => ?_
  obtain ⟨hwritten, hsame, htake⟩ := hconverted
  have hwrite := Bytes.write_eq_some (by simp only [hwritten, hsame, hblock, List.length_singleton]; omega :
    r.1 + [(0 : UInt8)].length ≤ r.2.length)
  refine (Meets.accessed hwrite).bind fun output => Meets.assuming fun houtput => ?_
  have hstring : CString.ofBuffer output = CString.ofBuffer cs := by
    rw [houtput, htake, List.take_zero, List.nil_append, List.append_assoc]
    exact ofBuffer_append_nul cs _
  have hlength := congrArg List.length hclose
  have hstartLength := congrArg List.length hstart.drop
  rw [List.length_drop, List.length_cons] at hlength
  rw [List.length_drop, List.length_cons] at hstartLength
  refine (Arena.meets_update (Q := fun _ => Ahead content rest depth) fun st hst => ⟨?_, ?_, hst.depth⟩).bind fun _ =>
    Meets.pure.pre fun st hst => ⟨hstring, hst⟩
  · simp only []
    rw [Nat.add_assoc, ← List.drop_drop, hdrop, ← List.drop_drop, hclose]
    rfl
  · simp only []
    omega

end MindConnect.CjsonParse
