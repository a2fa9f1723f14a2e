import MindConnect.Core.ParserSafety
import MindConnect.Core.PrintedText
import MindConnect.Core.StringReading
import MindConnect.Lib.JsonReader

/-!
# JSON that cJSON reads

The parser is followed along a reading of the strict reader: as long as it has the same text ahead (`Ahead`), each of
its functions gives what the reader gives, if containers and numbers fit (`Fits`). With what the printer prints that
makes a round trip (`jsonUtilParse_toString`).
-/

namespace MindConnect.CjsonParse

open JsonBuilder CjsonPrint Fallible
open Arena (allocate release update)

variable {content : Bytes}

/-! ## Numbers -/

/-- `strtod` takes the sign that the scanner takes. -/
theorem signLength_of_sign (s : Bytes) : s.drop (signLength s) = (Scan.sign s).2 := by
  unfold signLength Scan.sign
  split
  · rfl
  · rfl
  · rename_i hplus hminus
    split
    · exact absurd rfl (hminus _)
    · exact absurd rfl (hplus _)
    · rfl

/-- An exponent is read to its end. -/
theorem exponentLength_of_isExponent {s : Bytes} (h : Json.isExponent s = true) : exponentLength s = s.length := by
  cases s with
  | nil => rfl
  | cons b s =>
    simp only [Json.isExponent, Bool.and_eq_true, Bool.or_eq_true, beq_iff_eq] at h
    obtain ⟨hb, hdigits⟩ := h
    have hspec := Json.isDigits_spec hdigits
    have hsign := signLength_le s
    have hlength := congrArg List.length (signLength_of_sign s)
    rw [List.length_drop] at hlength
    have hall : (Scan.sign s).2.takeWhile (Scan.isDigit 10) = (Scan.sign s).2 := List.takeWhile_eq_self_iff.2 hspec.2
    have hpos := List.length_pos_of_ne_nil hspec.1
    simp only [exponentLength, if_pos hb, signLength_of_sign, hall]
    rw [if_neg (by omega), List.length_cons]
    omega

theorem signLength_of_isNumber {text : Bytes} (h : Json.isNumber text = true) :
    text.drop (signLength text) = Json.skipMinus text := by
  unfold signLength Json.skipMinus
  split
  · simp only [Json.isNumber, Json.skipMinus, Bool.and_eq_true, bne_iff_ne] at h
    exact absurd rfl h.1
  · rfl
  · rename_i hminus
    split
    · exact absurd rfl (hminus _)
    · rfl

theorem drop_takeWhile (p : UInt8 → Bool) (s : Bytes) : s.drop (s.takeWhile p).length = s.dropWhile p := by
  have hsplit := congrArg (List.drop (s.takeWhile p).length) (List.takeWhile_append_dropWhile (p := p) (l := s))
  rw [List.drop_left] at hsplit
  exact hsplit.symm

theorem length_takeWhile_add (p : UInt8 → Bool) (s : Bytes) :
    (s.takeWhile p).length + (s.dropWhile p).length = s.length := by
  rw [← List.length_append, List.takeWhile_append_dropWhile]

/-- Digits, a fraction and an exponent make up the whole number. -/
theorem mantissa_exponent {s : Bytes} (hwhole : s.takeWhile (Scan.isDigit 10) ≠ [])
    (hfraction : Json.isFraction (s.dropWhile (Scan.isDigit 10)) = true) :
    mantissaLength s ≠ 0 ∧ mantissaLength s + exponentLength (s.drop (mantissaLength s)) = s.length := by
  have hpos := List.length_pos_of_ne_nil hwhole
  have hdrop := drop_takeWhile (Scan.isDigit 10) s
  have hlength := length_takeWhile_add (Scan.isDigit 10) s
  unfold mantissaLength
  simp only [hdrop]
  split
  · rename_i f hpoint
    rw [hpoint] at hfraction hdrop hlength
    simp only [Json.isFraction, Bool.and_eq_true, bne_iff_ne] at hfraction
    have hrest : s.drop ((s.takeWhile (Scan.isDigit 10)).length + 1 + (f.takeWhile (Scan.isDigit 10)).length) =
        f.dropWhile (Scan.isDigit 10) := by
      rw [Nat.add_assoc, ← List.drop_drop, hdrop, Nat.add_comm, List.drop_succ_cons, drop_takeWhile]
    have hsplit := length_takeWhile_add (Scan.isDigit 10) f
    rw [List.length_cons] at hlength
    rw [if_neg (by omega), hrest, exponentLength_of_isExponent hfraction.2]
    exact ⟨by omega, by omega⟩
  · rename_i hnopoint
    have hexponent : Json.isExponent (s.dropWhile (Scan.isDigit 10)) = true := by
      unfold Json.isFraction at hfraction
      split at hfraction
      · rename_i hpoint
        exact absurd hpoint (hnopoint _)
      · exact hfraction
    rw [hdrop, exponentLength_of_isExponent hexponent]
    exact ⟨by omega, hlength⟩

/-- `strtod` converts the whole of a number. -/
theorem strtodLength_of_isNumber {text : Bytes} (h : Json.isNumber text = true) : strtodLength text = text.length := by
  have hsign := signLength_of_isNumber h
  have hsignLength := signLength_le text
  have hlength := congrArg List.length hsign
  rw [List.length_drop] at hlength
  simp only [Json.isNumber, Bool.and_eq_true, bne_iff_ne] at h
  obtain ⟨hne, htotal⟩ := mantissa_exponent h.1 h.2
  unfold strtodLength
  simp only [hsign]
  rw [if_neg hne, ← List.drop_drop, hsign]
  omega

/-- The copy of a number ends where the number does. -/
theorem parseNumber_reads {F : Type} {toDouble : Bytes → F} {text rest : Bytes} {depth : Nat}
    (h : Json.isNumber text = true) (hbytes : ∀ b ∈ text, Json.isNumberByte b = true) (hrest : Json.EndsNumber rest)
    (hshort : text.length < numberCStringSize) {E : Arena ParseBuffer → Prop} :
    Meets (Ahead content (text ++ rest) depth) (parseNumber content toDouble)
      (fun r st => r = .number (toDouble text) ∧ Ahead content rest depth st) E := by
  have hcopy : ((text ++ rest).take (numberCStringSize - 1)).takeWhile Json.isNumberByte = text := by
    rw [← List.take_takeWhile, (Json.span_append hbytes hrest).1, List.take_of_length_le (by omega)]
  have hlength := strtodLength_of_isNumber h
  have hne : text.length ≠ 0 := by
    obtain ⟨b, s, rfl⟩ := Json.number_cons h
    exact Nat.succ_ne_zero _
  refine get_ahead.bind fun start => Meets.assuming fun hstart => ?_
  rw [hstart.drop, hcopy]
  refine (Meets.checked fun _ hno _ => absurd (hlength ▸ hne) hno).bind fun _ => Meets.assuming fun _ => ?_
  refine (advance_ahead hlength).bind fun _ => Meets.pure.pre fun st hst => ⟨?_, hst⟩
  rw [hlength, List.take_length]

/-! ## Values -/

section
variable {F : Type} (toDouble : Bytes → F)

mutual

/-- The item that is parsed from a value. -/
def parsed : Json → Parsed F
  | .null => (.null, [])
  | .bool b => (.bool b, [])
  | .number text => (.number (toDouble text), [])
  | .string value => (.string value, [])
  | .array elements => (.array, parsedElements elements)
  | .object members => (.object, parsedMembers members)

/-- The items of an array, which have no names. -/
def parsedElements : List Json → List (Cjson F)
  | [] => []
  | e :: es => .node ⟨(parsed e).1, none⟩ (parsed e).2 :: parsedElements es

/-- The items of an object. -/
def parsedMembers : List (CString × Json) → List (Cjson F)
  | [] => []
  | (k, v) :: ms => .node ⟨(parsed v).1, some k⟩ (parsed v).2 :: parsedMembers ms

end

/-- A value as an item without a name. -/
def tree (j : Json) : Cjson F := .node ⟨(parsed toDouble j).1, none⟩ (parsed toDouble j).2

end

mutual

/-- At most so many containers in each other, and no longer numbers than cJSON copies. -/
def Fits : Nat → Json → Prop
  | _, .number text => text.length < numberCStringSize
  | levels, .array elements => 0 < levels ∧ FitsElements (levels - 1) elements
  | levels, .object members => 0 < levels ∧ FitsMembers (levels - 1) members
  | _, _ => True

/-- Each of the elements fits. -/
def FitsElements : Nat → List Json → Prop
  | _, [] => True
  | levels, e :: es => Fits levels e ∧ FitsElements levels es

def FitsMembers : Nat → List (CString × Json) → Prop
  | _, [] => True
  | levels, (_, v) :: ms => Fits levels v ∧ FitsMembers levels ms

end

/-! ## cJSON reads what the strict reader reads -/

section
variable {F : Type} {toDouble : Bytes → F} {m : Memory}

/-- With memory there is no failure. -/
def Never : Arena ParseBuffer → Prop := fun _ => False

/-- What is done on a failure does not matter. -/
theorem never_meets {y : Parse Unit} {Q : Unit → Arena ParseBuffer → Prop} {E : Arena ParseBuffer → Prop} :
    Meets Never y Q E := fun _ h => h.elim

/-- Memory is granted and the text ahead is the same. -/
theorem allocate_reads (havailable : ∀ k, m.available k = true) {s : Bytes} {depth : Nat}
    {E : Arena ParseBuffer → Prop} :
    Meets (Ahead content s depth) (allocate m.available) (fun _ => Ahead content s depth) E :=
  Arena.meets_allocate (fun _ hst _ => ⟨hst.drop, hst.offset, hst.depth⟩) fun _ _ hno => by
    rw [havailable] at hno
    cases hno

theorem checked_ahead {c : Prop} [Decidable c] (hc : c) {P E : Arena ParseBuffer → Prop} :
    Meets P (check c) (fun _ => P) E := Meets.check (fun _ _ h => h) fun _ hno _ => absurd hc hno

/-- There is a level left. -/
theorem enter_ahead {s : Bytes} {depth : Nat} (hdepth : depth < nestingLimit) {E : Arena ParseBuffer → Prop} :
    Meets (Ahead content s depth) enter (fun _ => Ahead content s (depth + 1)) E := by
  refine get_ahead.bind fun start => Meets.assuming fun hstart => ?_
  rw [hstart.depth]
  refine (checked_ahead hdepth).bind fun _ => Arena.meets_update fun st hst => ⟨hst.drop, hst.offset, ?_⟩
  simp only [hst.depth]

/-- The closing bracket is passed. -/
theorem leave_ahead {b : UInt8} {s : Bytes} {depth : Nat} {E : Arena ParseBuffer → Prop} :
    Meets (Ahead content (b :: s) (depth + 1)) leave (fun _ => Ahead content s depth) E := by
  refine Arena.meets_update fun st hst => ⟨?_, ?_, ?_⟩
  · simp only []
    rw [← List.drop_drop, hst.drop]
    rfl
  · have hlt := (List.getElem?_eq_some_iff.1 hst.current).1
    exact hlt
  · simp only [hst.depth, Nat.add_sub_cancel]

/-- The offset and what is ahead make up the buffer. -/
theorem Ahead.length {s : Bytes} {depth : Nat} {st : Arena ParseBuffer} (h : Ahead content s depth st) :
    st.data.offset + s.length = content.length := by
  have hlength := congrArg List.length h.drop
  have := h.offset
  rw [List.length_drop] at hlength
  omega

/-- Some byte is ahead again, whichever it was. -/
theorem stepBack_ahead {s : Bytes} {depth : Nat} (hlt : s.length < content.length) {E : Arena ParseBuffer → Prop} :
    Meets (Ahead content s depth) stepBack (fun _ st => ∃ x, Ahead content (x :: s) depth st) E := by
  refine Arena.meets_update fun st hst => ?_
  have hlength := hst.length
  have hoffset : st.data.offset - 1 < content.length := by omega
  refine ⟨content[st.data.offset - 1], ?_, ?_, hst.depth⟩
  · simp only []
    rw [List.drop_eq_getElem_cons hoffset, Nat.sub_add_cancel (by omega), hst.drop]
  · exact hoffset.le

/-- The byte before is of no interest. -/
theorem parseBracket_reads {open' close : UInt8} {s : Bytes} {depth : Nat} {b : UInt8} {t : Bytes}
    (hskip : Json.skipWhite s = b :: t) (hb : 32 < b) {loop : Parse (List (Cjson F))} {items : List (Cjson F)}
    {rest : Bytes}
    (hclosed : b = close → t = rest ∧ items = [])
    (hloop : b ≠ close → ∀ x, Meets (Ahead content (x :: b :: t) (depth + 1)) loop
      (fun r st => r = items ∧ Ahead content (close :: rest) (depth + 1) st) Never) :
    Meets (Ahead content (open' :: s) (depth + 1)) (parseBracket content close loop)
      (fun r st => r = items ∧ Ahead content rest depth st) Never := by
  have hshorter : ∀ st, Ahead content (open' :: s) (depth + 1) st → (b :: t).length < content.length := by
    intro st hst
    have hlength := hst.length
    have hle := Json.length_skipWhite_le s
    rw [hskip] at hle
    rw [List.length_cons] at hlength
    omega
  have hadvance : Meets (Ahead content ([open'] ++ s) (depth + 1)) (advance 1) (fun _ => Ahead content s (depth + 1))
      Never := advance_ahead rfl
  refine Meets.pre (Meets.assuming fun hlt => ?_) fun st hst => ⟨hshorter st hst, hst⟩
  refine hadvance.bind fun _ => (skipWhitespace_ahead hskip hb).bind fun _ => current_ahead.bind fun r =>
    Meets.assuming ?_
  rintro rfl
  refine Meets.ite (fun hclose => ?_) fun hclose => ?_
  · obtain ⟨rfl, rfl⟩ := hclosed hclose
    exact leave_ahead.bind fun _ => Meets.pure.pre fun st hst => ⟨rfl, hst⟩
  · refine (stepBack_ahead hlt).bind fun _ => Meets.exists_pre fun x => (hloop hclose x).bind fun r => Meets.assuming ?_
    rintro rfl
    exact leave_ahead.bind fun _ => Meets.pure.pre fun st hst => ⟨rfl, hst⟩

/-- The separator of the reader decides between the loop and its end. -/
theorem parseSeparator_reads {close : UInt8} {done : List (Cjson F)} {s rest : Bytes} {depth : Nat} {more : Bool}
    (h : Json.skipWhite s = (if more then 44 else close) :: rest) (hclose : 32 < close ∧ close ≠ 44)
    {loop : Parse (List (Cjson F))} {Q : List (Cjson F) → Arena ParseBuffer → Prop}
    (hloop : more = true → Meets (Ahead content (44 :: rest) depth) loop Q Never)
    (hdone : more = false → ∀ st, Ahead content (close :: rest) depth st → Q done st) :
    Meets (Ahead content s depth) (do skipWhitespace content; parseSeparator content close done loop) Q Never := by
  refine (skipWhitespace_ahead h ?_).bind fun _ => current_ahead.bind fun r => Meets.assuming ?_
  · cases more
    · exact hclose.1
    · exact (by decide : (32 : UInt8) < 44)
  · rintro rfl
    cases more with
    | true =>
      exact Meets.ite (fun _ => hloop rfl) fun hne => absurd rfl hne
    | false =>
      exact Meets.ite (fun h => absurd h hclose.2) fun _ =>
        Meets.ite (fun _ => Meets.pure.pre (hdone rfl)) fun hne => absurd rfl hne

/-- A name and its colon. -/
theorem parseName_reads (havailable : ∀ k, m.available k = true) {x : UInt8} {s t s₁ s₂ : Bytes} {k : CString}
    {depth : Nat} {done : List (Cjson F)} (hskip : Json.skipWhite s = 34 :: t)
    (hstring : Json.readString t = some (k, s₁)) (hcolon : Json.readColon s₁ = some s₂) :
    Meets (Ahead content (x :: s) depth) (parseName content m done)
      (fun r st => r = k ∧ Ahead content (58 :: s₂) depth st) Never := by
  have hle := Json.length_skipWhite_le s
  rw [hskip, List.length_cons] at hle
  have hadvance : Meets (Ahead content ([x] ++ s) depth) (advance 1) (fun _ => Ahead content s depth) Never :=
    advance_ahead rfl
  refine get_ahead.bind fun start => Meets.assuming fun hstart => ?_
  have hlength := hstart.length
  rw [List.length_cons] at hlength
  refine (Meets.onFailure (checked_ahead (by omega)) never_meets).bind fun _ => hadvance.bind fun _ =>
    (skipWhitespace_ahead hskip (by decide)).bind fun _ => ?_
  refine (Meets.onFailure (parseString_reads havailable hstring) never_meets).bind fun r => Meets.assuming ?_
  rintro rfl
  refine (skipWhitespace_ahead (Json.readColon_cases hcolon) (by decide)).bind fun _ => current_ahead.bind fun c =>
    Meets.assuming fun hc => ?_
  exact (Meets.onFailure (checked_ahead hc) never_meets).bind fun _ => Meets.pure.pre fun st hst => ⟨rfl, hst⟩

/-- A literal that starts with another byte is not ahead. -/
theorem starts_otherwise {b c : UInt8} (h : c ≠ b) {text s : Bytes} {p : Prop} : c :: text <+: b :: s → p :=
  fun hprefix => absurd (List.cons_prefix_cons.1 hprefix).1 h

/-- A literal is passed as a whole. -/
theorem literal_reads {text s : Bytes} {depth : Nat} {v : Parsed F} :
    Meets (Ahead content (text ++ s) depth) (do advance text.length; return v)
      (fun r st => r = v ∧ Ahead content s depth st) Never :=
  (advance_ahead rfl).bind fun _ => Meets.pure.pre fun _ hst => ⟨rfl, hst⟩

mutual

/-- The case of the reader decides the branch of `parse_value`. -/
theorem parseValue_reads (havailable : ∀ k, m.available k = true) : ∀ (fuel : Nat) {readFuel : Nat} {s rest : Bytes}
    {j : Json} {depth : Nat}, Json.readValue readFuel s = some (j, rest) → Fits (nestingLimit - depth) j →
    3 * (Json.skipWhite s).length < fuel →
    Meets (Ahead content (Json.skipWhite s) depth) (parseValue content toDouble m fuel)
      (fun v st => v = parsed toDouble j ∧ Ahead content rest depth st) Never
  | 0, _, _, _, _, _, _, _, hfuel => by cases hfuel
  | fuel + 1, 0, s, rest, j, depth, h, hfits, hfuel => by cases h
  | fuel + 1, readFuel + 1, s, rest, j, depth, h, hfits, hfuel => by
    rw [parseValue]
    refine get_ahead.bind fun start => Meets.assuming fun hstart => ?_
    simp only [hstart.drop]
    rcases Json.readValue_cases h with ⟨t, value, hs, hstring, rfl⟩ | ⟨t, hs, hcase⟩ | ⟨t, hs, hcase⟩ | hword
    · rw [hs]
      refine Meets.ite (starts_otherwise (by decide)) fun _ => Meets.ite (starts_otherwise (by decide)) fun _ =>
        Meets.ite (starts_otherwise (by decide)) fun _ => Meets.ite (fun _ => ?_) fun hne => absurd rfl hne
      refine (parseString_reads havailable hstring).bind fun r => Meets.assuming ?_
      rintro rfl
      exact Meets.pure.pre fun st hst => ⟨rfl, hst⟩
    · rw [hs] at hfuel ⊢
      refine Meets.ite (starts_otherwise (by decide)) fun _ => Meets.ite (starts_otherwise (by decide)) fun _ =>
        Meets.ite (starts_otherwise (by decide)) fun _ => Meets.ite (fun h => absurd h (by decide)) fun _ =>
        Meets.ite (fun h => absurd h (by decide)) fun _ => Meets.ite (fun _ => ?_) fun hne => absurd rfl hne
      rw [List.length_cons] at hfuel
      rcases hcase with ⟨ht, rfl⟩ | ⟨ht, es, hes, rfl⟩
      · exact parseArray_reads havailable fuel readFuel (.inl ⟨ht, rfl⟩) hfits (by omega)
      · exact parseArray_reads havailable fuel readFuel (.inr ⟨ht, hes⟩) hfits (by omega)
    · rw [hs] at hfuel ⊢
      refine Meets.ite (starts_otherwise (by decide)) fun _ => Meets.ite (starts_otherwise (by decide)) fun _ =>
        Meets.ite (starts_otherwise (by decide)) fun _ => Meets.ite (fun h => absurd h (by decide)) fun _ =>
        Meets.ite (fun h => absurd h (by decide)) fun _ => Meets.ite (fun h => absurd h (by decide)) fun _ =>
        Meets.ite (fun _ => ?_) fun hne => absurd rfl hne
      rw [List.length_cons] at hfuel
      rcases hcase with ⟨ht, rfl⟩ | ⟨ht, ms, hms, rfl⟩
      · exact parseObject_reads havailable fuel readFuel (.inl ⟨ht, rfl⟩) hfits (by omega)
      · exact parseObject_reads havailable fuel readFuel (.inr ⟨ht, hms⟩) hfits (by omega)
    · rcases Json.readWord_cases hword with ⟨rfl, hs⟩ | ⟨rfl, hs⟩ | ⟨rfl, hs⟩ | ⟨text, rfl, hnumber, hbytes, hends, hs⟩
      · rw [hs]
        exact Meets.ite (fun _ => literal_reads) fun hno => absurd (List.prefix_append _ _) hno
      · rw [hs]
        exact Meets.ite (starts_otherwise (by decide)) fun _ => Meets.ite (starts_otherwise (by decide)) fun _ =>
          Meets.ite (fun _ => literal_reads) fun hno => absurd (List.prefix_append _ _) hno
      · rw [hs]
        exact Meets.ite (starts_otherwise (by decide)) fun _ =>
          Meets.ite (fun _ => literal_reads) fun hno => absurd (List.prefix_append _ _) hno
      · obtain ⟨b, text, rfl⟩ := Json.number_cons hnumber
        have hb := Json.number_head hnumber
        have hplain : 110 ≠ b ∧ 102 ≠ b ∧ 116 ≠ b ∧ b ≠ 34 := by
          simp only [UInt8.le_iff_toNat_le, ← UInt8.toNat_inj, UInt8.reduceToNat, ne_eq] at hb ⊢
          omega
        rw [hs]
        refine Meets.ite (starts_otherwise hplain.1) fun _ => Meets.ite (starts_otherwise hplain.2.1) fun _ =>
          Meets.ite (starts_otherwise hplain.2.2.1) fun _ => Meets.ite (fun h => absurd h hplain.2.2.2) fun _ =>
          Meets.ite (fun _ => ?_) fun hno => absurd hb hno
        refine (parseNumber_reads hnumber hbytes hends hfits).bind fun r => Meets.assuming ?_
        rintro rfl
        exact Meets.pure.pre fun st hst => ⟨rfl, hst⟩

/-- The empty array or a list of elements. -/
theorem parseArray_reads (havailable : ∀ k, m.available k = true) : ∀ (fuel readFuel : Nat) {t rest : Bytes}
    {es : List Json} {depth : Nat}, (Json.skipWhite t = 93 :: rest ∧ es = [] ∨
      (Json.skipWhite t).head? ≠ some 93 ∧ Json.readElements readFuel t = some (es, rest)) →
    Fits (nestingLimit - depth) (.array es) → 3 * (t.length + 1) ≤ fuel →
    Meets (Ahead content (91 :: t) depth) (parseArray content toDouble m fuel)
      (fun v st => v = (.array, parsedElements toDouble es) ∧ Ahead content rest depth st) Never
  | 0, _, _, _, _, _, _, _, hfuel => by omega
  | fuel + 1, readFuel, t, rest, es, depth, h, hfits, hfuel => by
    rw [parseArray]
    refine (enter_ahead (by have := hfits.1; omega)).bind fun _ => byteAtOffset_ahead.bind fun bracket =>
      Meets.assuming fun hbracket => (checked_ahead hbracket).bind fun _ => ?_
    have hchild : Meets (Ahead content (91 :: t) (depth + 1))
        (parseBracket content 93 (parseElements content toDouble m fuel []))
        (fun r st => r = parsedElements toDouble es ∧ Ahead content rest depth st) Never := by
      rcases h with ⟨ht, rfl⟩ | ⟨hne, hes⟩
      · exact parseBracket_reads ht (by decide) (fun _ => ⟨rfl, rfl⟩) fun hclose => absurd rfl hclose
      · obtain ⟨b, u, hb⟩ : ∃ b u, Json.skipWhite t = b :: u ∧ 32 < b := Json.readElements_head hes
        rw [hb.1] at hne
        refine parseBracket_reads hb.1 hb.2 (fun hclose => absurd (congrArg some hclose) hne) fun _ x => ?_
        rw [← hb.1]
        exact parseElements_reads havailable fuel (by rw [Json.readElements_skipWhite]; exact hes) hfits.2
          (by have := Json.length_skipWhite_le t; omega)
    refine hchild.bind fun r => Meets.assuming ?_
    rintro rfl
    exact Meets.pure.pre fun st hst => ⟨rfl, hst⟩

/-- The elements so far, followed by those that the reader reads. -/
theorem parseElements_reads (havailable : ∀ k, m.available k = true) : ∀ (fuel : Nat) {readFuel : Nat} {x : UInt8}
    {s rest : Bytes} {es : List Json} {depth : Nat} {done : List (Cjson F)},
    Json.readElements readFuel s = some (es, rest) → FitsElements (nestingLimit - depth) es →
    3 * (s.length + 1) ≤ fuel + 1 →
    Meets (Ahead content (x :: s) depth) (parseElements content toDouble m fuel done)
      (fun items st => items = done ++ parsedElements toDouble es ∧ Ahead content (93 :: rest) depth st) Never
  | 0, _, _, _, _, _, _, _, _, _, hfuel => by omega
  | fuel + 1, 0, _, _, _, _, _, _, h, _, _ => by cases h
  | fuel + 1, readFuel + 1, x, s, rest, es, depth, done, h, hfits, hfuel => by
    obtain ⟨e, s', more, s'', hvalue, hseparator, hmore⟩ := Json.readElements_cases h
    obtain ⟨b, u, hskip, hb, -⟩ := Json.readValue_head hvalue
    have hshorter := Json.length_skipWhite_le s
    have hlength := Json.readValue_length _ hvalue
    have hlength' := Json.readSeparator_length hseparator
    have hadvance : Meets (Ahead content ([x] ++ s) depth) (advance 1) (fun _ => Ahead content s depth) Never :=
      advance_ahead rfl
    have hitem : Fits (nestingLimit - depth) e := by
      cases more
      · obtain ⟨-, rfl⟩ := hmore
        exact hfits.1
      · obtain ⟨es', -, rfl⟩ := hmore
        exact hfits.1
    have hread : Meets (Ahead content (Json.skipWhite s) depth) (parseValue content toDouble m fuel) _ _ :=
      parseValue_reads havailable fuel hvalue hitem (by omega)
    rw [parseElements]
    refine (Meets.onFailure (allocate_reads havailable) never_meets).bind fun _ => hadvance.bind fun _ =>
      (skipWhitespace_ahead hskip hb).bind fun _ => ?_
    rw [hskip] at hread
    refine (Meets.onFailure hread never_meets).bind fun v => Meets.assuming ?_
    rintro rfl
    refine parseSeparator_reads (Json.readSeparator_cases hseparator) (by decide) ?_ ?_
    · rintro rfl
      obtain ⟨es', hes', rfl⟩ := hmore
      refine (parseElements_reads havailable fuel hes' hfits.2 (by omega)).post fun items st hst => ⟨?_, hst.2⟩
      rw [hst.1, parsedElements, List.append_assoc]
      rfl
    · rintro rfl st hst
      obtain ⟨rfl, rfl⟩ := hmore
      exact ⟨rfl, hst⟩

/-- The empty object or a list of members. -/
theorem parseObject_reads (havailable : ∀ k, m.available k = true) : ∀ (fuel readFuel : Nat) {t rest : Bytes}
    {ms : List (CString × Json)} {depth : Nat}, (Json.skipWhite t = 125 :: rest ∧ ms = [] ∨
      (Json.skipWhite t).head? ≠ some 125 ∧ Json.readMembers readFuel t = some (ms, rest)) →
    Fits (nestingLimit - depth) (.object ms) → 3 * (t.length + 1) ≤ fuel →
    Meets (Ahead content (123 :: t) depth) (parseObject content toDouble m fuel)
      (fun v st => v = (.object, parsedMembers toDouble ms) ∧ Ahead content rest depth st) Never
  | 0, _, _, _, _, _, _, _, hfuel => by omega
  | fuel + 1, readFuel, t, rest, ms, depth, h, hfits, hfuel => by
    rw [parseObject]
    refine (enter_ahead (by have := hfits.1; omega)).bind fun _ => current_ahead.bind fun brace =>
      Meets.assuming fun hbrace => (checked_ahead hbrace).bind fun _ => ?_
    have hchild : Meets (Ahead content (123 :: t) (depth + 1))
        (parseBracket content 125 (parseMembers content toDouble m fuel []))
        (fun r st => r = parsedMembers toDouble ms ∧ Ahead content rest depth st) Never := by
      rcases h with ⟨ht, rfl⟩ | ⟨hne, hms⟩
      · exact parseBracket_reads ht (by decide) (fun _ => ⟨rfl, rfl⟩) fun hclose => absurd rfl hclose
      · obtain ⟨u, hb⟩ : ∃ u, Json.skipWhite t = 34 :: u := Json.readMembers_head hms
        refine parseBracket_reads hb (by decide) (fun hclose => absurd hclose (by decide)) fun _ x => ?_
        rw [← hb]
        exact parseMembers_reads havailable fuel (by rw [Json.readMembers_skipWhite]; exact hms) hfits.2
          (by have := Json.length_skipWhite_le t; omega)
    refine hchild.bind fun r => Meets.assuming ?_
    rintro rfl
    exact Meets.pure.pre fun st hst => ⟨rfl, hst⟩

/-- The members so far, followed by those that the reader reads. -/
theorem parseMembers_reads (havailable : ∀ k, m.available k = true) : ∀ (fuel : Nat) {readFuel : Nat} {x : UInt8}
    {s rest : Bytes} {ms : List (CString × Json)} {depth : Nat} {done : List (Cjson F)},
    Json.readMembers readFuel s = some (ms, rest) → FitsMembers (nestingLimit - depth) ms →
    3 * (s.length + 1) ≤ fuel + 1 →
    Meets (Ahead content (x :: s) depth) (parseMembers content toDouble m fuel done)
      (fun items st => items = done ++ parsedMembers toDouble ms ∧ Ahead content (125 :: rest) depth st) Never
  | 0, _, _, _, _, _, _, _, _, _, hfuel => by omega
  | fuel + 1, 0, _, _, _, _, _, _, h, _, _ => by cases h
  | fuel + 1, readFuel + 1, x, s, rest, ms, depth, done, h, hfits, hfuel => by
    obtain ⟨t, k, s₁, s₂, v, s₃, more, s₄, hs, hstring, hcolon, hvalue, hseparator, hmore⟩ := Json.readMembers_cases h
    obtain ⟨b, u, hskip, hb, -⟩ := Json.readValue_head hvalue
    have hle := Json.length_skipWhite_le s
    have hle' := Json.length_skipWhite_le s₂
    have hlength₁ := Json.readString_length hstring
    have hlength₂ := Json.readColon_length hcolon
    have hlength₃ := Json.readValue_length _ hvalue
    have hlength₄ := Json.readSeparator_length hseparator
    rw [hs, List.length_cons] at hle
    have hadvance : Meets (Ahead content ([58] ++ s₂) depth) (advance 1) (fun _ => Ahead content s₂ depth) Never :=
      advance_ahead rfl
    have hitem : Fits (nestingLimit - depth) v := by
      cases more
      · obtain ⟨-, rfl⟩ := hmore
        exact hfits.1
      · obtain ⟨ms', -, rfl⟩ := hmore
        exact hfits.1
    have hread : Meets (Ahead content (Json.skipWhite s₂) depth) (parseValue content toDouble m fuel) _ _ :=
      parseValue_reads havailable fuel hvalue hitem (by omega)
    rw [parseMembers]
    refine (Meets.onFailure (allocate_reads havailable) never_meets).bind fun _ =>
      (parseName_reads havailable hs hstring hcolon).bind fun name => Meets.assuming ?_
    rintro rfl
    refine hadvance.bind fun _ => (skipWhitespace_ahead hskip hb).bind fun _ => ?_
    rw [hskip] at hread
    refine (Meets.onFailure hread never_meets).bind fun w => Meets.assuming ?_
    rintro rfl
    refine parseSeparator_reads (Json.readSeparator_cases hseparator) (by decide) ?_ ?_
    · rintro rfl
      obtain ⟨ms', hms', rfl⟩ := hmore
      refine (parseMembers_reads havailable fuel hms' hfits.2 (by omega)).post fun items st hst => ⟨?_, hst.2⟩
      rw [hst.1, parsedMembers, List.append_assoc]
      rfl
    · rintro rfl st hst
      obtain ⟨rfl, rfl⟩ := hmore
      exact ⟨rfl, hst⟩

end

/-! ## The whole text -/

/-- JSON does not start with a byte order mark. -/
theorem parseWithLength_reads (havailable : ∀ k, m.available k = true) {readFuel : Nat} {j : Json} {rest : Bytes}
    (h : Json.readValue readFuel content = some (j, rest)) (hfits : Fits nestingLimit j)
    {P : Arena ParseBuffer → Prop} :
    Meets P (parseWithLength content toDouble m) (fun t _ => t = tree toDouble j) Never := by
  obtain ⟨b, t, hskip, hb, hascii, -⟩ := Json.readValue_head h
  have hle := Json.length_skipWhite_le content
  have hne : content ≠ [] := by
    rintro rfl
    cases hskip
  have hbom : ¬ [0xEF, 0xBB, 0xBF] <+: content := by
    rintro ⟨s, rfl⟩
    cases hskip
    exact absurd hascii (by decide)
  have hread : Meets (Ahead content (Json.skipWhite content) 0) (parseValue content toDouble m (3 * content.length + 1))
      _ _ := parseValue_reads havailable _ h hfits (by omega)
  rw [hskip] at hread
  have hvalue : Meets (Ahead content content 0)
      (do skipUtf8Bom content; skipWhitespace content; parseValue content toDouble m (3 * content.length + 1))
      (fun v _ => v = parsed toDouble j) Never := by
    have hskipBom : Meets (Ahead content content 0) (skipUtf8Bom content) (fun _ => Ahead content content 0) Never :=
      Meets.ite (fun h => absurd h.2 hbom) fun _ => Meets.pure (Q := fun _ => Ahead content content 0)
    exact hskipBom.bind fun _ => (skipWhitespace_ahead hskip hb).bind fun _ => hread.post fun v st hst => hst.1
  refine (checked_ahead hne).bind fun _ => (Arena.meets_update (Q := fun _ => Ahead content content 0) fun st _ =>
    ⟨rfl, Nat.zero_le _, rfl⟩).bind fun _ => (allocate_reads havailable).bind fun _ =>
    (Meets.onFailure hvalue never_meets).bind fun v => ?_
  rintro st rfl
  exact ⟨_, st, rfl, fun t ht => (Option.some.inj ht).symm, fun h => by cases h⟩

/-- **The parser of cJSON is complete.** With memory it reads every JSON text with at most 1000 containers in each other
and no number of more than 63 bytes, and what it makes of the text is the tree that the text stands for. -/
theorem jsonUtilParse_complete (havailable : ∀ k, m.available k = true) {text : Bytes} {j : Json}
    (h : Json.read text = some j) (hfits : Fits nestingLimit j) (hne : text ≠ []) (s : Arena ParseBuffer) :
    ∃ s', jsonUtilParse toDouble m (.buffer text hne) s = some (.ok (tree toDouble j), s') := by
  obtain ⟨⟨j', rest⟩, hvalue, h⟩ := Option.bind_eq_some_iff.1 h
  have hj : j' = j := by
    simp only [] at h
    split_ifs at h
    exact Option.some.inj h
  subst hj
  obtain ⟨r, s', hrun, hparsed, hfailed⟩ :=
    (parseWithLength_reads havailable hvalue hfits :
      Meets (fun _ => True) (parseWithLength text toDouble m) _ _) s trivial
  cases r with
  | none => exact (hfailed rfl).elim
  | some t =>
    rw [← hparsed t rfl, jsonUtilParse, parseInput, hrun]
    exact ⟨s', rfl⟩

/-- `[7,"a\n"]`, with the value of each number -/
theorem jsonUtilParse_complete_sample : ∃ s', jsonUtilParse Json.numberValue ⟨fun _ => true, fun _ _ => 0⟩
    (.buffer (ascii "[7,\"a\\n\"]") (by decide)) (Arena.start ⟨0, 0⟩) =
      some (.ok (tree Json.numberValue (.array [.number (ascii "7"), .string (.lit "a\n")])), s') := by
  have hread : Json.read (Json.array [.number (ascii "7"), .string (.lit "a\n")]).print = _ :=
    Json.read_print ⟨⟨by decide, by decide⟩, trivial, trivial⟩
  have hfits : Fits nestingLimit (.array [.number (ascii "7"), .string (.lit "a\n")]) :=
    ⟨by decide, (by decide : (ascii "7").length < 64), trivial, trivial⟩
  exact jsonUtilParse_complete (fun _ => rfl) hread hfits (by decide) _

/-! ## Printing and parsing -/

variable {format : NumberText F}

/-- Numbers are printed as JSON numbers that `strtod` reads back. -/
def NumbersRestored (format : NumberText F) (toDouble : Bytes → F) (t : Cjson F) : Prop :=
  t.Everywhere fun l _ => ∀ d, l.type = .number d → Json.isNumber (format.text d) = true ∧
    (∀ b ∈ format.text d, Json.isNumberByte b = true) ∧ toDouble (format.text d) = d

theorem NumbersRestored.child {l : Label F} {cs : List (Cjson F)} (h : NumbersRestored format toDouble (.node l cs)) :
    ∀ c ∈ cs, NumbersRestored format toDouble c := (Rose.everywhere_iff.1 h).2

mutual

/-- What is printed is a text that the strict reader reads. -/
theorem readable_member : ∀ t : Cjson F, NumbersRestored format toDouble t → Json.Readable (member format.text t).2
  | .node ⟨type, name⟩ cs, h => by
    rw [member_node]
    cases type with
    | number d =>
      obtain ⟨hnumber, hbytes, -⟩ := (Rose.everywhere_iff.1 h).1 d rfl
      exact ⟨hnumber, hbytes⟩
    | array => exact readableElements_members cs h.child
    | object => exact readableMembers_members cs h.child
    | _ => trivial

theorem readableElements_members : ∀ cs : List (Cjson F), (∀ c ∈ cs, NumbersRestored format toDouble c) →
    Json.ReadableElements (cs.map fun c => (member format.text c).2)
  | [], _ => trivial
  | c :: cs, h => ⟨readable_member c (h c (.head _)), readableElements_members cs fun d hd => h d (.tail _ hd)⟩

theorem readableMembers_members : ∀ cs : List (Cjson F), (∀ c ∈ cs, NumbersRestored format toDouble c) →
    Json.ReadableMembers (cs.map (member format.text))
  | [], _ => trivial
  | c :: cs, h => ⟨readable_member c (h c (.head _)), readableMembers_members cs fun d hd => h d (.tail _ hd)⟩

end

mutual

/-- Printing keeps the nesting, and `print_number` prints few bytes. -/
theorem fits_member : ∀ (t : Cjson F) {levels : Nat}, nesting t ≤ levels → Fits levels (member format.text t).2
  | .node ⟨type, name⟩ cs, levels, h => by
    rw [nesting_node] at h
    rw [member_node]
    cases type with
    | number d => exact Nat.lt_of_le_of_lt (format.length_text d) (by decide)
    | array => exact ⟨Nat.lt_of_lt_of_le (Nat.succ_pos _) h, fitsElements_members cs (Nat.le_sub_one_of_lt h)⟩
    | object => exact ⟨Nat.lt_of_lt_of_le (Nat.succ_pos _) h, fitsMembers_members cs (Nat.le_sub_one_of_lt h)⟩
    | _ => trivial

theorem fitsElements_members : ∀ (cs : List (Cjson F)) {levels : Nat}, (cs.map nesting).foldr max 0 ≤ levels →
    FitsElements levels (cs.map fun c => (member format.text c).2)
  | [], _, _ => trivial
  | c :: cs, levels, h => by
    obtain ⟨hhead, htail⟩ := max_le_iff.1 h
    exact ⟨fits_member c hhead, fitsElements_members cs htail⟩

theorem fitsMembers_members : ∀ (cs : List (Cjson F)) {levels : Nat}, (cs.map nesting).foldr max 0 ≤ levels →
    FitsMembers levels (cs.map (member format.text))
  | [], _, _ => trivial
  | c :: cs, levels, h => by
    obtain ⟨hhead, htail⟩ := max_le_iff.1 h
    exact ⟨fits_member c hhead, fitsMembers_members cs htail⟩

end

mutual

/-- The item that is parsed is the one that was printed. -/
theorem parsed_member : ∀ t : Cjson F, t.Everywhere Formed → NumbersRestored format toDouble t →
    parsed toDouble (member format.text t).2 = (t.label.type, t.children)
  | .node ⟨type, name⟩ cs, hformed, hnumbers => by
    obtain ⟨hroot, hchildren⟩ := Rose.everywhere_iff.1 hformed
    rw [member_node]
    cases type with
    | number d =>
      rw [List.map_eq_nil_iff.1 hroot]
      exact congrArg (fun d => (ItemType.number d, [])) ((Rose.everywhere_iff.1 hnumbers).1 d rfl).2.2
    | array =>
      exact congrArg (Prod.mk ItemType.array) (parsedElements_members cs hchildren hnumbers.child fun c hc =>
        hroot _ (List.mem_map_of_mem hc))
    | object =>
      exact congrArg (Prod.mk ItemType.object) (parsedMembers_members cs hchildren hnumbers.child fun c hc =>
        hroot _ (List.mem_map_of_mem hc))
    | _ => rw [List.map_eq_nil_iff.1 hroot]; rfl

theorem parsedElements_members : ∀ cs : List (Cjson F), (∀ c ∈ cs, c.Everywhere Formed) →
    (∀ c ∈ cs, NumbersRestored format toDouble c) → (∀ c ∈ cs, c.label.name = none) →
    parsedElements toDouble (cs.map fun c => (member format.text c).2) = cs
  | [], _, _, _ => rfl
  | .node l ds :: cs, hformed, hnumbers, hnames => by
    have hhead := parsed_member _ (hformed _ (.head _)) (hnumbers _ (.head _))
    have htail := parsedElements_members cs (fun d hd => hformed d (.tail _ hd)) (fun d hd => hnumbers d (.tail _ hd))
      fun d hd => hnames d (.tail _ hd)
    have hname : l.name = none := hnames _ (.head _)
    rw [List.map_cons, parsedElements, hhead, htail]
    obtain ⟨type, name⟩ := l
    cases hname
    rfl

theorem parsedMembers_members : ∀ cs : List (Cjson F), (∀ c ∈ cs, c.Everywhere Formed) →
    (∀ c ∈ cs, NumbersRestored format toDouble c) → (∀ c ∈ cs, c.label.name.isSome) →
    parsedMembers toDouble (cs.map (member format.text)) = cs
  | [], _, _, _ => rfl
  | .node l ds :: cs, hformed, hnumbers, hnames => by
    have hhead := parsed_member _ (hformed _ (.head _)) (hnumbers _ (.head _))
    have htail := parsedMembers_members cs (fun d hd => hformed d (.tail _ hd)) (fun d hd => hnumbers d (.tail _ hd))
      fun d hd => hnames d (.tail _ hd)
    obtain ⟨name, hname⟩ := Option.isSome_iff_exists.1 (hnames _ (.head _))
    obtain ⟨type, _⟩ := l
    cases hname
    have hkey : member format.text (.node ⟨type, some name⟩ ds) =
        (name, (member format.text (.node ⟨type, some name⟩ ds)).2) := by
      rw [member_node]
      rfl
    rw [List.map_cons, hkey, parsedMembers, hhead, htail]
    rfl

end

/-- The bytes the caller means, without the terminator. -/
def JsonInput.text : JsonInput → Bytes
  | .string jsonString => jsonString.bytes
  | .buffer bytes _ => bytes

/-- **Printing and parsing.** A tree as cJSON parses them is printed as a text from which cJSON parses it again, if
`strtod` reads its numbers back: `json_util_parse` undoes `json_util_to_string`, whether the text is passed on as a
string or as a buffer. -/
theorem jsonUtilParse_toString {w : Nat} {t : Cjson F} (hwell : WellFormed nestingLimit t) (hroot : t.label.name = none)
    (hnumbers : NumbersRestored format toDouble t) (hfits : EscapesFit w t) {text : Bytes} {printing : Memory}
    {s s' : Arena PrintBuffer} (hlive : s.live = 0) (hgranted : ¬ s.Refused printing.available)
    (hprinted : jsonUtilToString printing w format t s = some (.ok text, s')) (havailable : ∀ k, m.available k = true)
    {input : JsonInput} (hinput : input.text = text) (p : Arena ParseBuffer) :
    ∃ p', jsonUtilParse toDouble m input p = some (.ok t, p') := by
  have htext : text = (member format.text t).2.print := text_of_jsonUtilToString hfits hlive hgranted hprinted
  have hread (rest : Bytes) (hrest : Json.EndsNumber rest) : Json.readValue ((member format.text t).2.print.length + 1)
      (text ++ rest) = some ((member format.text t).2, rest) := by
    rw [htext]
    exact Json.readValue_print _ (readable_member t hnumbers) _ (Nat.lt_succ_self _) rest hrest
  have htree : tree toDouble (member format.text t).2 = t := by
    rw [tree, parsed_member t hwell.formed hnumbers, ← hroot]
    exact Rose.ext rfl rfl
  have hmeets : Meets (fun _ => True) (parseInput toDouble m input) (fun r _ => r = t) Never := by
    rw [← htree]
    cases input with
    | string jsonString =>
      obtain rfl : jsonString.bytes = text := hinput
      exact parseWithLength_reads havailable (hread [0] fun b hb => by cases hb; rfl) (fits_member t hwell.nested)
    | buffer bytes hne =>
      obtain rfl : bytes = text := hinput
      have hwhole := hread [] fun b hb => by cases hb
      rw [List.append_nil] at hwhole
      exact parseWithLength_reads havailable hwhole (fits_member t hwell.nested)
  obtain ⟨r, p', hrun, hparsed, hfailed⟩ := hmeets p trivial
  cases r with
  | none => exact (hfailed rfl).elim
  | some r =>
    rw [← hparsed r rfl, jsonUtilParse, hrun]
    exact ⟨p', rfl⟩

/-- The value of a number that has digits only. -/
def wholeNumber (text : Bytes) : Fin (2 ^ 31) := ⟨Scan.value 10 text % 2 ^ 31, Nat.mod_lt _ (Nat.two_pow_pos 31)⟩

theorem sampleTree_wellFormed : WellFormed nestingLimit sampleTree := by
  refine ⟨Rose.everywhere_iff.2 ⟨fun c hc => ?_, fun c hc => ?_⟩, by decide⟩
  · rw [List.mem_singleton.1 hc]
    rfl
  rw [List.mem_singleton.1 hc]
  refine Rose.everywhere_iff.2 ⟨fun c hc => ?_, fun c hc => ?_⟩
  · rcases List.mem_pair.1 hc with rfl | rfl <;> rfl
  · rcases List.mem_pair.1 hc with rfl | rfl <;> exact Rose.Everywhere.leaf rfl

theorem sampleTree_numbersRestored : NumbersRestored wholeNumbers wholeNumber sampleTree := by
  have hleaf {type : ItemType (Fin (2 ^ 31))} (htype : ∀ d, type = .number d → d = 7) :
      NumbersRestored wholeNumbers wholeNumber (.node ⟨type, none⟩ []) := by
    refine Rose.Everywhere.leaf fun d hd => ?_
    rw [htype d hd]
    decide
  refine Rose.everywhere_iff.2 ⟨fun d hd => (by cases hd), fun c hc => ?_⟩
  rw [List.mem_singleton.1 hc]
  refine Rose.everywhere_iff.2 ⟨fun d hd => (by cases hd), fun c hc => ?_⟩
  rcases List.mem_pair.1 hc with rfl | rfl
  · exact hleaf fun d h => (ItemType.number.inj h).symm
  · exact hleaf fun d h => (by cases h)

/-- `{"a":[7,"\n"]}`, printed and parsed again -/
theorem jsonUtilParse_toString_sample : ∃ s' p',
    jsonUtilToString ⟨fun _ => true, fun _ _ => 0⟩ 32 wholeNumbers sampleTree (Arena.start ⟨none, 0⟩) =
      some (.ok (ascii "\x7b\"a\":[7,\"\\n\"]\x7d"), s') ∧
    jsonUtilParse wholeNumber ⟨fun _ => true, fun _ _ => 0⟩ (.string (.lit "\x7b\"a\":[7,\"\\n\"]\x7d"))
      (Arena.start ⟨0, 0⟩) = some (.ok sampleTree, p') := by
  have hgranted : ¬ (Arena.start (⟨none, 0⟩ : PrintBuffer)).Refused fun _ => true := by
    rintro ⟨k, hk, -⟩
    cases hk
  obtain ⟨s', hprinted⟩ := @jsonUtilToString_granted _ 32 wholeNumbers (fun _ _ => 0) _ sampleTree_escapesFit
    (Arena.start ⟨none, 0⟩) rfl (by decide)
  obtain ⟨p', hparsed⟩ := @jsonUtilParse_toString _ _ ⟨fun _ => true, fun _ _ => 0⟩ wholeNumbers 32 sampleTree
    sampleTree_wellFormed rfl sampleTree_numbersRestored sampleTree_escapesFit _ _ _ _ rfl hgranted
    hprinted (fun _ => rfl) (.string (.lit "\x7b\"a\":[7,\"\\n\"]\x7d")) rfl (Arena.start ⟨0, 0⟩)
  exact ⟨s', p', hprinted, hparsed⟩

end

end MindConnect.CjsonParse
