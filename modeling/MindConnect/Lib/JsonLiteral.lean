import MindConnect.Lib.JsonRead

/-!
# Strings put between quotes as they are

A string without quotes, backslashes and control characters may stand in JSON text as it is. No other may: the reader
gives a different string, or refuses the text (`readString_raw_iff`). The rest of the file takes apart what the reader
did, one lemma for each form of text.
-/

namespace Json

/-- Nothing in these bytes has to be escaped. -/
def Plain (bs : Bytes) : Prop := ∀ b ∈ bs, b ≠ 34 ∧ b ≠ 92 ∧ ¬ b < 32

instance (bs : Bytes) : Decidable (Plain bs) := inferInstanceAs (Decidable (∀ b ∈ bs, b ≠ 34 ∧ b ≠ 92 ∧ ¬ b < 32))

@[simp] theorem plain_nil : Plain [] := by simp [Plain]

@[simp] theorem plain_append {bs cs : Bytes} : Plain (bs ++ cs) ↔ Plain bs ∧ Plain cs := by
  unfold Plain
  exact List.forall_mem_append

@[simp] theorem plain_cons {b : UInt8} {bs : Bytes} : Plain (b :: bs) ↔ (b ≠ 34 ∧ b ≠ 92 ∧ ¬ b < 32) ∧ Plain bs := by
  simp only [Plain, List.forall_mem_cons]

theorem escapeByte_of_plain {b : UInt8} (h : b ≠ 34 ∧ b ≠ 92 ∧ ¬ b < 32) : escapeByte b = [b] := by
  obtain ⟨h34, h92, h32⟩ := h
  have hne : ∀ c : UInt8, c < 32 → b ≠ c := by
    rintro c hc rfl
    exact h32 hc
  rw [escapeByte, if_neg h34, if_neg h92, if_neg (hne 8 (by decide)), if_neg (hne 12 (by decide)),
    if_neg (hne 10 (by decide)), if_neg (hne 13 (by decide)), if_neg (hne 9 (by decide)), if_neg h32]

theorem Plain.escape {bs : Bytes} (h : Plain bs) : bs.flatMap escapeByte = bs := by
  induction bs with
  | nil => rfl
  | cons b bs ih =>
    obtain ⟨hb, hbs⟩ := plain_cons.1 h
    rw [List.flatMap_cons, escapeByte_of_plain hb, ih hbs]
    rfl

theorem Plain.escapes {s : CString} (h : Plain s.bytes) : escapes s = 0 := by
  have hlen := length_flatMap_escapeByte s.bytes
  rw [h.escape] at hlen
  show (s.bytes.map fun b => (escapeByte b).length - 1).sum = 0
  omega

theorem Plain.printString {s : CString} (h : Plain s.bytes) : printString s = 34 :: s.bytes ++ [34] := by
  rw [Json.printString, h.escape]

/-! ## What the reader makes of other strings -/

theorem length_utf8_le (c : Nat) : (utf8 c).length ≤ 4 := by
  unfold utf8
  split_ifs <;> simp

theorem quote_not_mem_of_readHex {digits : Bytes} {n : Nat} (h : readHex digits = some n) : 34 ∉ digits := by
  intro hmem
  unfold readHex at h
  split_ifs at h with hall
  have hquote := List.all_eq_true.1 hall 34 hmem
  revert hquote
  decide

/-- Digits that end before the quote. -/
theorem split_before_quote {u digits rest s : Bytes} (h : u ++ 34 :: rest = digits ++ s) (hdigits : 34 ∉ digits) :
    ∃ u', u = digits ++ u' ∧ s = u' ++ 34 :: rest := by
  rcases List.append_eq_append_iff.1 h with ⟨as, rfl, hrest⟩ | ⟨bs, hu, hs⟩
  · cases as with
    | nil => exact ⟨[], by simp, by simpa using hrest.symm⟩
    | cons a as =>
      obtain ⟨rfl, -⟩ := List.cons.inj hrest
      simp at hdigits
  · exact ⟨bs, hu, hs⟩

theorem readLow_within {u rest s : Bytes} {low : Nat} (h : readLow (u ++ 34 :: rest) = some (low, s)) :
    ∃ e u', e.length = 6 ∧ u = e ++ u' ∧ s = u' ++ 34 :: rest := by
  unfold readLow at h
  split at h
  · rename_i w x y z s' heq
    simp only [bind, Option.bind] at h
    split at h
    · cases h
    · rename_i code hcode
      have hfree : 34 ∉ [92, 117, w, x, y, z] := by
        have := quote_not_mem_of_readHex hcode
        simp only [List.mem_cons, not_or] at this ⊢
        exact ⟨by decide, by decide, this⟩
      obtain ⟨u', rfl, rfl⟩ := split_before_quote (show _ = [92, 117, w, x, y, z] ++ s' from heq) hfree
      dsimp only at h
      split_ifs at h
      obtain ⟨rfl, rfl⟩ := Prod.mk.inj (Option.some.inj h)
      exact ⟨_, u', rfl, rfl, rfl⟩
  · cases h

/-- An escape that starts before the quote takes at least as many bytes as it stands for, or takes the quote. -/
def EscapeWithin (u rest c s : Bytes) : Prop :=
  ∃ e u', u = e ++ u' ∧ s = u' ++ 34 :: rest ∧ c.length ≤ e.length

theorem readEscape_within {u rest c s : Bytes} (hu : 34 ∉ u) (h : readEscape (u ++ 34 :: rest) = some (c, s)) :
    (u = [] ∧ c = [34] ∧ s = rest) ∨ EscapeWithin u rest c s := by
  cases u with
  | nil =>
    simp only [List.nil_append, readEscape, Option.some.injEq, Prod.mk.injEq] at h
    exact .inl ⟨rfl, h.1.symm, h.2.symm⟩
  | cons b u =>
    refine .inr ?_
    have hone : ∀ d : UInt8, some ([d], u ++ 34 :: rest) = some (c, s) → EscapeWithin (b :: u) rest c s := by
      intro d hd
      obtain ⟨rfl, rfl⟩ := Prod.mk.inj (Option.some.inj hd)
      exact ⟨[b], u, rfl, rfl, le_rfl⟩
    rw [List.cons_append] at h
    unfold readEscape at h
    split at h
    case h_9 _ w x y z s' heq =>
      obtain ⟨rfl, htail⟩ := List.cons.inj heq
      simp only [bind, Option.bind] at h
      split at h
      · cases h
      · rename_i code hcode
        obtain ⟨u', rfl, rfl⟩ :=
          split_before_quote (show _ = [w, x, y, z] ++ s' from htail) (quote_not_mem_of_readHex hcode)
        dsimp only at h
        split_ifs at h with hlow hhigh
        · split at h
          · cases h
          · rename_i low hlowRead
            obtain ⟨lo, s''⟩ := low
            obtain ⟨rfl, rfl⟩ := Prod.mk.inj (Option.some.inj h)
            obtain ⟨e, u'', he, rfl, rfl⟩ := readLow_within hlowRead
            exact ⟨117 :: [w, x, y, z] ++ e, u'', by simp, rfl, (length_utf8_le _).trans (by simp)⟩
        · obtain ⟨rfl, rfl⟩ := Prod.mk.inj (Option.some.inj h)
          exact ⟨117 :: [w, x, y, z], u', rfl, rfl, (length_utf8_le _).trans (by simp)⟩
    case h_10 => cases h
    all_goals
      rename_i heq
      obtain ⟨rfl, rfl⟩ := List.cons.inj heq
      exact hone _ h

/-- Where the bytes before a quote are read to the end, what comes out is shorter than they are unless they are plain.
Where an escape takes the quote, it comes out earlier than it stood. -/
theorem readChars_within {fuel : Nat} {u rest out s : Bytes} (hu : 34 ∉ u)
    (h : readChars fuel (u ++ 34 :: rest) = some (out, s)) :
    (out.length ≤ u.length ∧ (out.length = u.length → Plain u ∧ s = rest)) ∨
      ∃ a c, out = a ++ 34 :: c ∧ a.length < u.length := by
  induction fuel generalizing u out s with
  | zero => cases h
  | succ fuel ih =>
    cases u with
    | nil =>
      rw [List.nil_append, readChars, if_pos rfl] at h
      obtain ⟨rfl, rfl⟩ := Prod.mk.inj (Option.some.inj h)
      exact .inl ⟨le_rfl, fun _ => ⟨plain_nil, rfl⟩⟩
    | cons b u =>
      obtain ⟨hb, hu'⟩ : b ≠ 34 ∧ 34 ∉ u := by
        simp only [List.mem_cons, not_or] at hu
        exact ⟨fun he => hu.1 he.symm, hu.2⟩
      rw [List.cons_append, readChars, if_neg hb] at h
      split_ifs at h with h92 h32
      · -- an escape
        simp only [bind, Option.bind] at h
        split at h
        · cases h
        · rename_i r hescape
          obtain ⟨c, s₁⟩ := r
          dsimp only at h
          split at h
          · cases h
          · rename_i r hchars
            obtain ⟨cs, s₂⟩ := r
            obtain ⟨rfl, rfl⟩ := Prod.mk.inj (Option.some.inj h)
            rcases readEscape_within hu' hescape with ⟨rfl, rfl, rfl⟩ | ⟨e, u', rfl, rfl, hle⟩
            · exact .inr ⟨[], cs, rfl, Nat.zero_lt_one⟩
            · have hu'' : 34 ∉ u' := fun hmem => hu' (List.mem_append_right _ hmem)
              rcases ih hu'' hchars with ⟨hlen, -⟩ | ⟨a, d, rfl, hlt⟩
              · refine .inl ⟨?_, fun heq => absurd heq ?_⟩ <;>
                  simp only [List.length_cons, List.length_append] <;> omega
              · refine .inr ⟨c ++ a, d, by rw [List.append_assoc], ?_⟩
                simp only [List.length_cons, List.length_append]
                omega
      · -- any other byte
        simp only [bind, Option.bind] at h
        split at h
        · cases h
        · rename_i r hchars
          obtain ⟨cs, s₁⟩ := r
          obtain ⟨rfl, rfl⟩ := Prod.mk.inj (Option.some.inj h)
          rcases ih hu' hchars with ⟨hlen, hplain⟩ | ⟨a, d, rfl, hlt⟩
          · refine .inl ⟨Nat.succ_le_succ hlen, fun heq => ?_⟩
            obtain ⟨hrest, rfl⟩ := hplain (Nat.succ.inj heq)
            exact ⟨plain_cons.2 ⟨⟨hb, h92, h32⟩, hrest⟩, rfl⟩
          · exact .inr ⟨b :: a, d, rfl, Nat.succ_lt_succ hlt⟩

/-- The quote that came out early is one of the bytes it was taken from. -/
theorem quote_mem_of_early {u v a c : Bytes} (h : u <+: v) (hv : v = a ++ 34 :: c) (hlt : a.length < u.length) :
    34 ∈ u := by
  obtain ⟨t, rfl⟩ := h
  have hget := congrArg (fun l : Bytes => l[a.length]?) hv
  simp only [List.getElem?_append_left hlt, List.getElem?_append_right le_rfl, Nat.sub_self,
    List.getElem?_cons_zero] at hget
  exact List.mem_of_getElem? hget

/-- A string read back with itself in front is plain. -/
theorem plain_of_readChars {fuel : Nat} {u rest out s : Bytes} (hhead : u <+: out)
    (h : readChars fuel (u ++ 34 :: rest) = some (out, s)) : Plain u ∧ s = rest := by
  have hfree : 34 ∉ u := by
    intro hmem
    obtain ⟨v, w, rfl, hv⟩ := List.eq_append_cons_of_mem hmem
    have hlen := hhead.length_le
    rw [List.length_append, List.length_cons] at hlen
    rw [List.append_assoc] at h
    rcases readChars_within hv h with ⟨hle, -⟩ | ⟨a, c, hout, hlt⟩
    · omega
    · exact hv (quote_mem_of_early ((List.prefix_append v _).trans hhead) hout hlt)
  rcases readChars_within hfree h with ⟨hle, hplain⟩ | ⟨a, c, hout, hlt⟩
  · exact hplain (le_antisymm hle hhead.length_le)
  · exact absurd (quote_mem_of_early hhead hout hlt) hfree

/-- **Text between quotes is its own string exactly if it is plain.** -/
theorem readString_raw_iff (s : CString) (rest r : Bytes) :
    readString (s.bytes ++ 34 :: rest) = some (s, r) ↔ Plain s.bytes ∧ r = rest := by
  constructor
  · intro h
    simp only [readString, bind, Option.bind] at h
    split at h
    · cases h
    · rename_i read hchars
      obtain ⟨cs, s'⟩ := read
      simp only [Option.some.injEq, Prod.mk.injEq] at h
      obtain ⟨hs, rfl⟩ := h
      refine plain_of_readChars ?_ hchars
      rw [← hs]
      exact List.takeWhile_prefix _
  · rintro ⟨hplain, rfl⟩
    have h := readString_print s r
    rwa [hplain.escape] at h

/-! ## Taking apart what was read -/

section

variable {fuel : Nat} {s s' : Bytes}

theorem readString_plain {name : CString} (h : Plain name.bytes) (rest : Bytes) :
    readString (name.bytes ++ 34 :: rest) = some (name, rest) :=
  (readString_raw_iff name rest rest).2 ⟨h, rfl⟩

theorem readValue_fuel {value : Json} (h : readValue fuel s = some (value, s')) : ∃ n, fuel = n + 1 :=
  Nat.exists_eq_succ_of_ne_zero fun h0 => by
    rw [h0] at h
    cases h

theorem readValue_string {value : Json} (h : readValue fuel (34 :: s) = some (value, s')) :
    ∃ text, value = string text ∧ readString s = some (text, s') := by
  obtain ⟨fuel, rfl⟩ := readValue_fuel h
  rw [readValue, skipWhite_of_not rfl] at h
  simp only [if_true, bind, Option.bind] at h
  split at h
  · cases h
  · rename_i r hread
    obtain ⟨rfl, rfl⟩ := Prod.mk.inj (Option.some.inj h)
    exact ⟨r.1, rfl, hread⟩

/-- An object that starts with a name. -/
theorem readValue_object {value : Json} (h : readValue fuel (123 :: 34 :: s) = some (value, s')) :
    ∃ fuel' members, value = object members ∧ readMembers fuel' (34 :: s) = some (members, s') := by
  obtain ⟨fuel, rfl⟩ := readValue_fuel h
  rw [readValue, skipWhite_of_not rfl] at h
  simp only at h
  rw [if_neg (by decide), if_neg (by decide), if_pos trivial, skipWhite_of_not rfl, List.head?_cons,
    if_neg (by decide)] at h
  simp only [bind, Option.bind] at h
  split at h
  · cases h
  · rename_i r hread
    obtain ⟨rfl, rfl⟩ := Prod.mk.inj (Option.some.inj h)
    exact ⟨fuel, r.1, rfl, hread⟩

/-- An array that starts with an object. -/
theorem readValue_array {value : Json} (h : readValue fuel (91 :: 123 :: s) = some (value, s')) :
    ∃ fuel' elements, value = array elements ∧ readElements fuel' (123 :: s) = some (elements, s') := by
  obtain ⟨fuel, rfl⟩ := readValue_fuel h
  rw [readValue, skipWhite_of_not rfl] at h
  simp only at h
  rw [if_neg (by decide), if_pos trivial, skipWhite_of_not rfl, List.head?_cons, if_neg (by decide)] at h
  simp only [bind, Option.bind] at h
  split at h
  · cases h
  · rename_i r hread
    obtain ⟨rfl, rfl⟩ := Prod.mk.inj (Option.some.inj h)
    exact ⟨fuel, r.1, rfl, hread⟩

/-- The first member, whose name is plain, and what is read behind it. -/
theorem readMembers_cons {name : CString} (hname : Plain name.bytes) {members : List (CString × Json)}
    (h : readMembers fuel (34 :: (name.bytes ++ 34 :: 58 :: s)) = some (members, s')) :
    ∃ fuel' value ms s₁ more s₂, members = (name, value) :: ms ∧ readValue fuel' s = some (value, s₁) ∧
      readSeparator 125 s₁ = some (more, s₂) ∧
      if more then readMembers fuel' s₂ = some (ms, s') else ms = [] ∧ s' = s₂ := by
  cases fuel with
  | zero => cases h
  | succ fuel =>
    rw [readMembers, skipWhite_of_not rfl] at h
    simp only [if_true, readString_plain hname, readColon_colon, bind, Option.bind] at h
    split at h
    · cases h
    · rename_i r hvalue
      dsimp only at h
      split at h
      · cases h
      · rename_i r' hseparator
        obtain ⟨more, s₂⟩ := r'
        cases more with
        | false =>
          obtain ⟨rfl, rfl⟩ := Prod.mk.inj (Option.some.inj h)
          exact ⟨fuel, r.1, [], r.2, false, _, rfl, hvalue, hseparator, rfl, rfl⟩
        | true =>
          simp only [if_true] at h
          split at h
          · cases h
          · rename_i r'' hmembers
            obtain ⟨rfl, rfl⟩ := Prod.mk.inj (Option.some.inj h)
            exact ⟨fuel, r.1, r''.1, r.2, true, s₂, rfl, hvalue, hseparator, hmembers⟩

theorem readElements_cons {elements : List Json} (h : readElements fuel s = some (elements, s')) :
    ∃ fuel' element es s₁ more s₂, elements = element :: es ∧ readValue fuel' s = some (element, s₁) ∧
      readSeparator 93 s₁ = some (more, s₂) ∧
      if more then readElements fuel' s₂ = some (es, s') else es = [] ∧ s' = s₂ := by
  cases fuel with
  | zero => cases h
  | succ fuel =>
    rw [readElements] at h
    simp only [bind, Option.bind] at h
    split at h
    · cases h
    · rename_i r hvalue
      dsimp only at h
      split at h
      · cases h
      · rename_i r' hseparator
        obtain ⟨more, s₂⟩ := r'
        cases more with
        | false =>
          obtain ⟨rfl, rfl⟩ := Prod.mk.inj (Option.some.inj h)
          exact ⟨fuel, r.1, [], r.2, false, _, rfl, hvalue, hseparator, rfl, rfl⟩
        | true =>
          simp only [if_true] at h
          split at h
          · cases h
          · rename_i r'' helements
            obtain ⟨rfl, rfl⟩ := Prod.mk.inj (Option.some.inj h)
            exact ⟨fuel, r.1, r''.1, r.2, true, s₂, rfl, hvalue, hseparator, helements⟩

theorem read_eq_some {text : Bytes} {value : Json} (h : read text = some value) :
    ∃ rest, readValue (text.length + 1) text = some (value, rest) ∧ skipWhite rest = [] := by
  simp only [read, bind, Option.bind] at h
  split at h
  · cases h
  · rename_i r hvalue
    dsimp only at h
    split_ifs at h with hrest
    obtain rfl := Option.some.inj h
    exact ⟨r.2, hvalue, hrest⟩

end

end Json
