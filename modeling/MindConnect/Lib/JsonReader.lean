import MindConnect.Lib.JsonRead

/-!
# What the JSON reader has read

What a result of the reader says about the text: one lemma for each function tells its cases apart. A value starts with
a visible character, and what is left behind it is shorter than the text.
-/

namespace Json

/-! ## White space -/

theorem length_skipWhite_le (s : Bytes) : (skipWhite s).length ≤ s.length :=
  (List.dropWhile_sublist _).length_le

theorem skipWhite_idem (s : Bytes) : skipWhite (skipWhite s) = skipWhite s := List.dropWhile_idempotent ..

/-- White space before a value does not matter. -/
theorem readValue_skipWhite (fuel : Nat) (s : Bytes) : readValue fuel (skipWhite s) = readValue fuel s := by
  cases fuel with
  | zero => rfl
  | succ fuel => rw [readValue, readValue, skipWhite_idem]

theorem readElements_skipWhite (fuel : Nat) (s : Bytes) :
    readElements fuel (skipWhite s) = readElements fuel s := by
  cases fuel with
  | zero => rfl
  | succ fuel => rw [readElements, readElements, readValue_skipWhite]

theorem readMembers_skipWhite (fuel : Nat) (s : Bytes) :
    readMembers fuel (skipWhite s) = readMembers fuel s := by
  cases fuel with
  | zero => rfl
  | succ fuel => rw [readMembers, readMembers, skipWhite_idem]

/-! ## Words -/

/-- A literal that was found is a prefix, and the rest follows it. -/
theorem literal_eq_some {text s rest : Bytes} (h : Scan.literal text s = some rest) :
    text <+: s ∧ s = text ++ rest := by
  unfold Scan.literal at h
  split_ifs at h with hprefix
  cases h
  obtain ⟨t, rfl⟩ := hprefix
  exact ⟨List.prefix_append _ _, by rw [List.drop_left]⟩

theorem readWord_cases {s : Bytes} {j : Json} {rest : Bytes} (h : readWord s = some (j, rest)) :
    (j = .null ∧ s = ascii "null" ++ rest) ∨ (j = .bool true ∧ s = ascii "true" ++ rest) ∨
      (j = .bool false ∧ s = ascii "false" ++ rest) ∨
      ∃ text, j = .number text ∧ isNumber text = true ∧ (∀ b ∈ text, isNumberByte b = true) ∧
        EndsNumber rest ∧ s = text ++ rest := by
  unfold readWord at h
  split at h
  · rename_i hnull
    cases h
    exact .inl ⟨rfl, (literal_eq_some hnull).2⟩
  · rename_i htrue _
    cases h
    exact .inr (.inl ⟨rfl, (literal_eq_some htrue).2⟩)
  · rename_i hfalse _ _
    cases h
    exact .inr (.inr (.inl ⟨rfl, (literal_eq_some hfalse).2⟩))
  · simp only [] at h
    split_ifs at h with hnumber
    cases h
    refine .inr (.inr (.inr ⟨_, rfl, hnumber, List.all_eq_true.1 List.all_takeWhile, fun b hb => ?_,
      List.takeWhile_append_dropWhile.symm⟩))
    have hstop := List.head?_dropWhile_not isNumberByte s
    rw [Option.mem_def.1 hb] at hstop
    simpa using hstop

/-- The digits are `0` to `9`. -/
theorem digit_range {b : UInt8} (h : Scan.isDigit 10 b = true) : 48 ≤ b ∧ b ≤ 57 := by
  obtain ⟨d, hd, hlt⟩ := Scan.isDigit_eq_true.1 h
  unfold Scan.digitValue at hd
  simp only [Bool.and_eq_true, decide_eq_true_eq] at hd
  split_ifs at hd with h1 h2 h3
  · exact h1
  · have := UInt8.le_iff_toNat_le.1 h2.1
    cases hd
    simp only [UInt8.reduceToNat] at this
    omega
  · have := UInt8.le_iff_toNat_le.1 h3.1
    cases hd
    simp only [UInt8.reduceToNat] at this
    omega

/-- A number starts with a minus sign or a digit. -/
theorem number_head {b : UInt8} {s : Bytes} (h : isNumber (b :: s) = true) : b = 45 ∨ 48 ≤ b ∧ b ≤ 57 := by
  simp only [isNumber, Bool.and_eq_true, bne_iff_ne] at h
  unfold skipMinus at h
  split at h
  · rename_i hminus
    cases hminus
    exact .inl rfl
  · right
    by_contra hno
    have hdigit : Scan.isDigit 10 b = false := by
      cases hd : Scan.isDigit 10 b with
      | false => rfl
      | true => exact absurd (digit_range hd) hno
    rw [List.takeWhile_cons_of_neg (by simp [hdigit])] at h
    exact h.1 rfl

theorem readWord_length {s rest : Bytes} {j : Json} (h : readWord s = some (j, rest)) : rest.length < s.length := by
  rcases readWord_cases h with ⟨-, rfl⟩ | ⟨-, rfl⟩ | ⟨-, rfl⟩ | ⟨text, -, hnumber, -, -, rfl⟩
  · rw [List.length_append]
    exact Nat.lt_add_of_pos_left (by decide)
  · rw [List.length_append]
    exact Nat.lt_add_of_pos_left (by decide)
  · rw [List.length_append]
    exact Nat.lt_add_of_pos_left (by decide)
  · obtain ⟨b, text, rfl⟩ := number_cons hnumber
    rw [List.length_append, List.length_cons]
    omega

/-! ## Separators -/

/-- There was a comma, or the closing bracket. -/
theorem readSeparator_cases {close : UInt8} {s rest : Bytes} {more : Bool}
    (h : readSeparator close s = some (more, rest)) :
    skipWhite s = (if more then 44 else close) :: rest := by
  unfold readSeparator at h
  split at h
  · cases h
  · rename_i b t hskip
    split_ifs at h with hcomma hclose
    · cases h
      rw [hskip, hcomma]
      rfl
    · cases h
      rw [hskip, hclose]
      rfl

theorem readSeparator_length {close : UInt8} {s rest : Bytes} {more : Bool}
    (h : readSeparator close s = some (more, rest)) : rest.length < s.length := by
  have hle := length_skipWhite_le s
  rw [readSeparator_cases h, List.length_cons] at hle
  omega

/-- There was a colon. -/
theorem readColon_cases {s rest : Bytes} (h : readColon s = some rest) : skipWhite s = 58 :: rest := by
  unfold readColon at h
  split at h
  · cases h
  · rename_i b t hskip
    split_ifs at h with hcolon
    cases h
    rw [hskip, hcolon]

theorem readColon_length {s rest : Bytes} (h : readColon s = some rest) : rest.length < s.length := by
  have hle := length_skipWhite_le s
  rw [readColon_cases h, List.length_cons] at hle
  omega

/-! ## Strings -/

/-- An escape takes at least one byte. -/
theorem readEscape_length {s c rest : Bytes} (h : readEscape s = some (c, rest)) : rest.length < s.length := by
  unfold readEscape at h
  split at h
  on_goal 9 =>
    obtain ⟨code, -, h⟩ := Option.bind_eq_some_iff.1 h
    split_ifs at h
    · obtain ⟨⟨low, s'⟩, hread, h⟩ := Option.bind_eq_some_iff.1 h
      cases h
      unfold readLow at hread
      split at hread
      · obtain ⟨second, -, hread⟩ := Option.bind_eq_some_iff.1 hread
        split_ifs at hread
        simp only [Option.some.injEq, Prod.mk.injEq] at hread
        obtain ⟨-, rfl⟩ := hread
        simp only [List.length_cons]
        omega
      · cases hread
    · cases h
      simp only [List.length_cons]
      omega
  all_goals cases h
  all_goals exact Nat.lt_succ_self _

theorem readChars_length (fuel : Nat) {s cs rest : Bytes} (h : readChars fuel s = some (cs, rest)) :
    rest.length < s.length := by
  induction fuel generalizing s cs with
  | zero => cases h
  | succ fuel ih =>
    cases s with
    | nil => cases h
    | cons b s =>
      rw [readChars] at h
      rw [List.length_cons]
      split_ifs at h
      · cases h
        exact Nat.lt_succ_self _
      · obtain ⟨⟨c, s'⟩, hescape, h⟩ := Option.bind_eq_some_iff.1 h
        obtain ⟨⟨cs', rest'⟩, hchars, h⟩ := Option.bind_eq_some_iff.1 h
        cases h
        have := readEscape_length hescape
        have := ih hchars
        omega
      · obtain ⟨⟨cs', rest'⟩, hchars, h⟩ := Option.bind_eq_some_iff.1 h
        cases h
        have := ih hchars
        omega

/-- A string takes at least its closing quote. -/
theorem readString_length {s rest : Bytes} {value : CString} (h : readString s = some (value, rest)) :
    rest.length < s.length := by
  obtain ⟨⟨cs, rest'⟩, hchars, hvalue⟩ := Option.bind_eq_some_iff.1 h
  cases hvalue
  exact readChars_length _ hchars

/-! ## Values -/

/-- A string, an array, an object or a word, each by its first visible character. -/
theorem readValue_cases {fuel : Nat} {s rest : Bytes} {j : Json} (h : readValue (fuel + 1) s = some (j, rest)) :
    (∃ t value, skipWhite s = 34 :: t ∧ readString t = some (value, rest) ∧ j = .string value) ∨
    (∃ t, skipWhite s = 91 :: t ∧ (skipWhite t = 93 :: rest ∧ j = .array [] ∨
      (skipWhite t).head? ≠ some 93 ∧ ∃ es, readElements fuel t = some (es, rest) ∧ j = .array es)) ∨
    (∃ t, skipWhite s = 123 :: t ∧ (skipWhite t = 125 :: rest ∧ j = .object [] ∨
      (skipWhite t).head? ≠ some 125 ∧ ∃ ms, readMembers fuel t = some (ms, rest) ∧ j = .object ms)) ∨
    readWord (skipWhite s) = some (j, rest) := by
  rw [readValue] at h
  cases hskip : skipWhite s with
  | nil =>
    rw [hskip] at h
    cases h
  | cons b t =>
    rw [hskip] at h
    simp only [] at h
    split_ifs at h with hquote hbracket hempty hbrace hempty
    · obtain ⟨⟨value, rest'⟩, hstring, h⟩ := Option.bind_eq_some_iff.1 h
      cases h
      exact .inl ⟨t, value, by rw [hquote], hstring, rfl⟩
    · cases h
      exact .inr (.inl ⟨t, by rw [hbracket], .inl ⟨List.eq_cons_of_mem_head? hempty, rfl⟩⟩)
    · obtain ⟨⟨es, rest'⟩, helements, h⟩ := Option.bind_eq_some_iff.1 h
      cases h
      exact .inr (.inl ⟨t, by rw [hbracket], .inr ⟨hempty, es, helements, rfl⟩⟩)
    · cases h
      exact .inr (.inr (.inl ⟨t, by rw [hbrace], .inl ⟨List.eq_cons_of_mem_head? hempty, rfl⟩⟩))
    · obtain ⟨⟨ms, rest'⟩, hmembers, h⟩ := Option.bind_eq_some_iff.1 h
      cases h
      exact .inr (.inr (.inl ⟨t, by rw [hbrace], .inr ⟨hempty, ms, hmembers, rfl⟩⟩))
    · exact .inr (.inr (.inr h))

/-- An element and a separator, then the other elements or the end. -/
theorem readElements_cases {fuel : Nat} {s rest : Bytes} {es : List Json}
    (h : readElements (fuel + 1) s = some (es, rest)) :
    ∃ e s' more s'', readValue fuel s = some (e, s') ∧ readSeparator 93 s' = some (more, s'') ∧
      if more then ∃ es', readElements fuel s'' = some (es', rest) ∧ es = e :: es' else rest = s'' ∧ es = [e] := by
  rw [readElements] at h
  obtain ⟨⟨e, s'⟩, hvalue, h⟩ := Option.bind_eq_some_iff.1 h
  obtain ⟨⟨more, s''⟩, hseparator, h⟩ := Option.bind_eq_some_iff.1 h
  refine ⟨e, s', more, s'', hvalue, hseparator, ?_⟩
  cases more with
  | true =>
    obtain ⟨⟨es', rest'⟩, helements, h⟩ := Option.bind_eq_some_iff.1 h
    cases h
    exact ⟨es', helements, rfl⟩
  | false =>
    cases h
    exact ⟨rfl, rfl⟩

/-- A name, a colon, a value and a separator, then the other members or the end. -/
theorem readMembers_cases {fuel : Nat} {s rest : Bytes} {ms : List (CString × Json)}
    (h : readMembers (fuel + 1) s = some (ms, rest)) :
    ∃ t k s₁ s₂ v s₃ more s₄, skipWhite s = 34 :: t ∧ readString t = some (k, s₁) ∧
      readColon s₁ = some s₂ ∧ readValue fuel s₂ = some (v, s₃) ∧
      readSeparator 125 s₃ = some (more, s₄) ∧
      if more then ∃ ms', readMembers fuel s₄ = some (ms', rest) ∧ ms = (k, v) :: ms'
      else rest = s₄ ∧ ms = [(k, v)] := by
  rw [readMembers] at h
  cases hskip : skipWhite s with
  | nil =>
    rw [hskip] at h
    cases h
  | cons b t =>
    rw [hskip] at h
    simp only [] at h
    split_ifs at h with hquote
    obtain ⟨⟨k, s₁⟩, hstring, h⟩ := Option.bind_eq_some_iff.1 h
    obtain ⟨s₂, hcolon, h⟩ := Option.bind_eq_some_iff.1 h
    obtain ⟨⟨v, s₃⟩, hvalue, h⟩ := Option.bind_eq_some_iff.1 h
    obtain ⟨⟨more, s₄⟩, hseparator, h⟩ := Option.bind_eq_some_iff.1 h
    refine ⟨t, k, s₁, s₂, v, s₃, more, s₄, by rw [hquote], hstring, hcolon, hvalue, hseparator, ?_⟩
    cases more with
    | true =>
      obtain ⟨⟨ms', rest'⟩, hmembers, h⟩ := Option.bind_eq_some_iff.1 h
      cases h
      exact ⟨ms', hmembers, rfl⟩
    | false =>
      cases h
      exact ⟨rfl, rfl⟩

/-- A value starts with a visible character. -/
theorem readValue_head {fuel : Nat} {s : Bytes} {j : Json} {rest : Bytes} (h : readValue fuel s = some (j, rest)) :
    ∃ b t, skipWhite s = b :: t ∧ 32 < b ∧ b < 128 ∧ b ≠ 93 ∧ b ≠ 125 := by
  cases fuel with
  | zero => cases h
  | succ fuel =>
    rw [readValue] at h
    cases hskip : skipWhite s with
    | nil =>
      rw [hskip] at h
      cases h
    | cons b t =>
      rw [hskip] at h
      simp only [] at h
      refine ⟨b, t, rfl, ?_⟩
      split_ifs at h with hquote hbracket _ hbrace
      · subst hquote; decide
      · subst hbracket; decide
      · subst hbracket; decide
      · subst hbrace; decide
      · subst hbrace; decide
      · rcases readWord_cases h with ⟨-, hs⟩ | ⟨-, hs⟩ | ⟨-, hs⟩ | ⟨text, -, hnumber, hbytes, -, hs⟩
        · cases hs; decide
        · cases hs; decide
        · cases hs; decide
        · obtain ⟨c, text, rfl⟩ := number_cons hnumber
          cases hs
          have hrange := number_head hnumber
          simp only [UInt8.le_iff_toNat_le, UInt8.lt_iff_toNat_lt, ← UInt8.toNat_inj, UInt8.reduceToNat, ne_eq]
            at hrange ⊢
          omega

/-- The first element starts with a visible character. -/
theorem readElements_head {fuel : Nat} {s rest : Bytes} {es : List Json} (h : readElements fuel s = some (es, rest)) :
    ∃ b t, skipWhite s = b :: t ∧ 32 < b := by
  cases fuel with
  | zero => cases h
  | succ fuel =>
    obtain ⟨e, s', more, s'', hvalue, -⟩ := readElements_cases h
    obtain ⟨b, t, hskip, hb, -⟩ := readValue_head hvalue
    exact ⟨b, t, hskip, hb⟩

/-- The first name starts with its quote. -/
theorem readMembers_head {fuel : Nat} {s rest : Bytes} {ms : List (CString × Json)}
    (h : readMembers fuel s = some (ms, rest)) : ∃ t, skipWhite s = 34 :: t := by
  cases fuel with
  | zero => cases h
  | succ fuel =>
    obtain ⟨t, k, s₁, s₂, v, s₃, more, s₄, hs, -⟩ := readMembers_cases h
    exact ⟨t, hs⟩

/-! ## The rest is shorter -/

mutual

/-- A value takes at least one byte, and so does each list. -/
theorem readValue_length : ∀ (fuel : Nat) {s rest : Bytes} {j : Json}, readValue fuel s = some (j, rest) →
    rest.length < s.length
  | 0, _, _, _, h => by cases h
  | fuel + 1, s, rest, j, h => by
    have hle := length_skipWhite_le s
    rcases readValue_cases h with ⟨t, value, hs, hstring, -⟩ | ⟨t, hs, hcase⟩ | ⟨t, hs, hcase⟩ | hword
    · have := readString_length hstring
      rw [hs, List.length_cons] at hle
      omega
    · rw [hs, List.length_cons] at hle
      rcases hcase with ⟨ht, -⟩ | ⟨-, es, helements, -⟩
      · have := length_skipWhite_le t
        rw [ht, List.length_cons] at this
        omega
      · have := readElements_length fuel helements
        omega
    · rw [hs, List.length_cons] at hle
      rcases hcase with ⟨ht, -⟩ | ⟨-, ms, hmembers, -⟩
      · have := length_skipWhite_le t
        rw [ht, List.length_cons] at this
        omega
      · have := readMembers_length fuel hmembers
        omega
    · exact Nat.lt_of_lt_of_le (readWord_length hword) hle

theorem readElements_length : ∀ (fuel : Nat) {s rest : Bytes} {es : List Json},
    readElements fuel s = some (es, rest) → rest.length < s.length
  | 0, _, _, _, h => by cases h
  | fuel + 1, s, rest, es, h => by
    obtain ⟨e, s', more, s'', hvalue, hseparator, hmore⟩ := readElements_cases h
    have := readValue_length fuel hvalue
    have := readSeparator_length hseparator
    cases more with
    | true =>
      obtain ⟨es', helements, -⟩ := hmore
      have := readElements_length fuel helements
      omega
    | false =>
      obtain ⟨rfl, -⟩ := hmore
      omega

theorem readMembers_length : ∀ (fuel : Nat) {s rest : Bytes} {ms : List (CString × Json)},
    readMembers fuel s = some (ms, rest) → rest.length < s.length
  | 0, _, _, _, h => by cases h
  | fuel + 1, s, rest, ms, h => by
    obtain ⟨t, k, s₁, s₂, v, s₃, more, s₄, hs, hstring, hcolon, hvalue, hseparator, hmore⟩ := readMembers_cases h
    have hle := length_skipWhite_le s
    have := readString_length hstring
    have := readColon_length hcolon
    have := readValue_length fuel hvalue
    have := readSeparator_length hseparator
    rw [hs, List.length_cons] at hle
    cases more with
    | true =>
      obtain ⟨ms', hmembers, -⟩ := hmore
      have := readMembers_length fuel hmembers
      omega
    | false =>
      obtain ⟨rfl, -⟩ := hmore
      omega

end

end Json
