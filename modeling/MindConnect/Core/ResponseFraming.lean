import MindConnect.Core.CompleteResponse
import MindConnect.Core.RequestRoundTrip
import Mathlib.Data.List.Perm.Basic

/-!
# Which framing the header lines choose

By their meaning `Transfer-Encoding: chunked` comes first, whatever else there is, and then `Content-Length`; names
have no case and lines no order. `get_response` goes by the first line that starts with `Content-Length:`, so
spelled, or that holds the text `Transfer-Encoding: chunked` anywhere. The two agree exactly when that line is a
length just where no field is a chunked `Transfer-Encoding`, and when without such a line no field frames the body.
-/

namespace MindConnect.HttpClientBasic

open PartialIO

/-- A field with whatever follows its colon, as a line. -/
def rawLine (field : Bytes × Bytes) : Bytes := field.1 ++ (58 :: field.2)

/-- A field as a parser reads it. -/
def readField (field : Bytes × Bytes) : Bytes × Bytes := (field.1, Http1.trim field.2)

def namedContentLength (field : Bytes × Bytes) : Bool := Http1.same field.1 (ascii "Content-Length")

def chunkedField (field : Bytes × Bytes) : Bool :=
  Http1.same field.1 (ascii "Transfer-Encoding") && Http1.same (ascii "chunked") (Http1.trim field.2)

/-- Well-formed header lines. Lengths are numbers, and two of them agree. -/
structure ResponseFields (fields : List (Bytes × Bytes)) : Prop where
  wellFormed : ∀ field ∈ fields, Http1.WellFormed field
  length : ∃ size, ∀ field ∈ fields, namedContentLength field = true →
    Http1.parseNumber (Http1.trim field.2) = some size

/-- The framing that the fields mean. -/
def meaning (fields : List (Bytes × Bytes)) : Framing :=
  match Http1.framing (fields.map readField) with
  | .chunked => ⟨none, true⟩
  | .contentLength size => ⟨some size, false⟩
  | .none => ⟨none, false⟩

/-- `sscanf` with `"Content-Length: %lu"` takes the line. -/
def startsContentLength (field : Bytes × Bytes) : Bool := field.1 == ascii "Content-Length"

/-- The search for `Transfer-Encoding: chunked` finds the text in the line. -/
def holdsTransferEncoding (field : Bytes × Bytes) : Bool :=
  (stringUtilFindCaseInsensitive (CString.ofBuffer (rawLine field ++ crlf)) transferEncodingHeader).isSome

def LinesFit (fields : List (Bytes × Bytes)) : Prop :=
  ∀ field ∈ fields, (rawLine field ++ crlf).length < httpParseBufferSize

/-- The number of a length is in the range of `mcl_size_t`. -/
def InRange (p : Platform) (field : Bytes × Bytes) : Prop := Scan.value 10 (Http1.trim field.2) < 2 ^ p.sizeWidth

def decides (field : Bytes × Bytes) : Bool := startsContentLength field || holdsTransferEncoding field

/-- The first line that decides. -/
def deciding (fields : List (Bytes × Bytes)) : Option (Bytes × Bytes) := fields.find? decides

/-- The deciding line is a length in range where no field is a chunked `Transfer-Encoding`, and no length where one
is. Without such a line no field frames the body. -/
def DecidedByMeaning (p : Platform) (fields : List (Bytes × Bytes)) : Prop :=
  (∀ field ∈ deciding fields, if startsContentLength field then fields.any chunkedField = false ∧ InRange p field
    else fields.any chunkedField = true) ∧
  (deciding fields = none → fields.any chunkedField = false ∧ fields.any namedContentLength = false)

instance (fields : List (Bytes × Bytes)) : Decidable (LinesFit fields) :=
  inferInstanceAs (Decidable (∀ field ∈ fields, _))

instance (p : Platform) (field : Bytes × Bytes) : Decidable (InRange p field) := inferInstanceAs (Decidable (_ < _))

instance (p : Platform) (fields : List (Bytes × Bytes)) : Decidable (DecidedByMeaning p fields) := by
  unfold DecidedByMeaning
  infer_instance

/-- The parse buffer holds every line and the deciding one means what it is taken for, or no field frames the body
and a line is too long. -/
def FramedAsMeant (p : Platform) (fields : List (Bytes × Bytes)) : Prop :=
  if LinesFit fields then DecidedByMeaning p fields
  else fields.any chunkedField = false ∧ fields.any namedContentLength = false

def linesOf (fields : List (Bytes × Bytes)) : List Bytes := fields.map fun field => rawLine field ++ crlf

/-- `get_response` behind the header lines. -/
def afterHeaders (p : Platform) (m : Memory) (statusCode : Nat) :
    Result Unit × List Bytes × Framing → Receive (Result Unit × Option Response)
  | (.error e, _) => return (.error e, none)
  | (.ok (), header, framing) => do
    let (code, payload, payloadSize) ← getBody p m framing
    match code with
    | .error e => return (.error e, none)
    | .ok () => return httpResponseInitialize m { statusCode, header, payload, payloadSize }

/-- Behind a status line and these header lines, `get_response` comes to read the body by `framing`, whatever follows.
Where that is no framing the lines themselves may be refused. -/
def ReadsBodyBy (p : Platform) (m : Memory) (fields : List (Bytes × Bytes)) (framing : Framing) : Prop :=
  ∀ ⦃rest : Bytes⦄ ⦃s : Source UInt8 McError⦄, s.rest = (linesOf fields).flatten ++ (crlf ++ rest) →
    ∃ code headers framing' s', getHeaders p m s = some ((code, headers, framing'), s') ∧
      (∀ s0 statusLine statusCode, receiveUntilLf httpParseBufferSize s0 = some ((.ok (), statusLine), s) →
        scanStatus p statusLine = some statusCode →
        getResponse p m s0 = afterHeaders p m statusCode (code, headers, framing') s') ∧
      ((code = .ok () ∧ framing' = framing ∧ s'.rest = rest) ∨ (framing = ⟨none, false⟩ ∧ code ≠ .ok ()))

/-! ## The meaning -/

theorem any_chunked_eq (fields : List (Bytes × Bytes)) :
    (Http1.valuesOf (ascii "Transfer-Encoding") (fields.map readField)).any (Http1.same (ascii "chunked")) =
      fields.any chunkedField := by
  induction fields with
  | nil => rfl
  | cons field fields ih =>
    simp only [Http1.valuesOf, List.map_cons, List.filter_cons, List.any_cons, chunkedField, readField] at ih ⊢
    by_cases h : Http1.same field.1 (ascii "Transfer-Encoding") = true
    · rw [if_pos h, List.map_cons, List.any_cons, ih, h, Bool.true_and]
    · rw [if_neg h, ih, Bool.eq_false_iff.2 h, Bool.false_and, Bool.false_or]

theorem meaning_of_chunked {fields : List (Bytes × Bytes)} (h : fields.any chunkedField = true) :
    meaning fields = ⟨none, true⟩ := by
  rw [meaning, Http1.framing, any_chunked_eq, if_pos h]

theorem lengthValues_eq (fields : List (Bytes × Bytes)) :
    Http1.valuesOf (ascii "Content-Length") (fields.map readField) =
      (fields.filter namedContentLength).map fun field => Http1.trim field.2 := by
  rw [Http1.valuesOf, List.filter_map, List.map_map]
  rfl

theorem meaning_of_length {fields : List (Bytes × Bytes)} (hfields : ResponseFields fields)
    (h : fields.any chunkedField = false) {field : Bytes × Bytes} (hmem : field ∈ fields)
    (hname : namedContentLength field = true) :
    meaning fields = ⟨Http1.parseNumber (Http1.trim field.2), false⟩ := by
  obtain ⟨size, hsize⟩ := hfields.length
  obtain ⟨first, others, hfirst⟩ := List.exists_cons_of_ne_nil
    (List.ne_nil_of_mem (List.mem_filter.2 ⟨hmem, hname⟩) : fields.filter namedContentLength ≠ [])
  have hmem' := List.mem_filter.1 (hfirst ▸ List.mem_cons_self : first ∈ fields.filter namedContentLength)
  have hvalue : ((fields.filter namedContentLength).map fun field => Http1.trim field.2).head?.bind Http1.parseNumber =
      some size := by
    rw [hfirst, List.map_cons, List.head?_cons, Option.bind_some]
    exact hsize first hmem'.1 hmem'.2
  rw [meaning, Http1.framing, any_chunked_eq, h, lengthValues_eq, hvalue, hsize field hmem hname]
  rfl

theorem meaning_of_none {fields : List (Bytes × Bytes)} (h : fields.any chunkedField = false)
    (hname : fields.any namedContentLength = false) : meaning fields = ⟨none, false⟩ := by
  have hnil : fields.filter namedContentLength = [] :=
    List.filter_eq_nil_iff.2 fun field hfield => List.any_eq_false.1 hname field hfield
  rw [meaning, Http1.framing, any_chunked_eq, h, lengthValues_eq, hnil]
  rfl

theorem meaning_chunked_iff {fields : List (Bytes × Bytes)} :
    meaning fields = ⟨none, true⟩ ↔ fields.any chunkedField = true := by
  refine ⟨fun h => ?_, meaning_of_chunked⟩
  cases hc : fields.any chunkedField with
  | true => rfl
  | false =>
    rw [meaning, Http1.framing, any_chunked_eq, hc, if_neg Bool.false_ne_true] at h
    cases hv : (Http1.valuesOf (ascii "Content-Length") (fields.map readField)).head?.bind Http1.parseNumber with
    | none => rw [hv] at h; cases h
    | some size => rw [hv] at h; cases h

theorem meaning_eq_none {fields : List (Bytes × Bytes)} (hfields : ResponseFields fields) :
    meaning fields = ⟨none, false⟩ ↔ fields.any chunkedField = false ∧ fields.any namedContentLength = false := by
  refine ⟨fun h => ?_, fun h => meaning_of_none h.1 h.2⟩
  cases hc : fields.any chunkedField with
  | true => rw [meaning_of_chunked hc] at h; cases h
  | false =>
    refine ⟨rfl, ?_⟩
    cases hn : fields.any namedContentLength with
    | false => rfl
    | true =>
      obtain ⟨size, hsize⟩ := hfields.length
      obtain ⟨field, hmem, hname⟩ := List.any_eq_true.1 hn
      rw [meaning_of_length hfields hc hmem hname, hsize field hmem hname] at h
      cases h

theorem ResponseFields.perm {fields fields' : List (Bytes × Bytes)} (h : ResponseFields fields)
    (hperm : fields.Perm fields') : ResponseFields fields' := by
  obtain ⟨size, hsize⟩ := h.length
  exact ⟨fun f hf => h.wellFormed f (hperm.mem_iff.2 hf), size, fun f hf => hsize f (hperm.mem_iff.2 hf)⟩

/-- The meaning does not depend on the order of the lines. -/
theorem meaning_perm {fields fields' : List (Bytes × Bytes)} (hfields : ResponseFields fields)
    (hperm : fields.Perm fields') : meaning fields = meaning fields' := by
  have hchunked := hperm.any_eq (f := chunkedField)
  have hnamed := hperm.any_eq (f := namedContentLength)
  cases hc : fields.any chunkedField with
  | true => rw [meaning_of_chunked hc, meaning_of_chunked (hchunked ▸ hc)]
  | false =>
    cases hn : fields.any namedContentLength with
    | false => rw [meaning_of_none hc hn, meaning_of_none (hchunked ▸ hc) (hnamed ▸ hn)]
    | true =>
      obtain ⟨field, hmem, hname⟩ := List.any_eq_true.1 hn
      rw [meaning_of_length hfields hc hmem hname,
        meaning_of_length (hfields.perm hperm) (hchunked ▸ hc) (hperm.mem_iff.1 hmem) hname]

/-- The names in another letter case. -/
def Recased : List (Bytes × Bytes) → List (Bytes × Bytes) → Prop :=
  List.Forall₂ fun f f' => Http1.same f.1 f'.1 = true ∧ f.2 = f'.2

/-- Nor on the case of the names. -/
theorem meaning_case {fields fields' : List (Bytes × Bytes)} (h : Recased fields fields') :
    meaning fields = meaning fields' := by
  have hvalues : ∀ name, Http1.valuesOf name (fields.map readField) = Http1.valuesOf name (fields'.map readField) := by
    intro name
    induction h with
    | nil => rfl
    | @cons f f' fields fields' hf _ ih =>
      have hsame : Http1.same f.1 name = Http1.same f'.1 name := by
        rw [Http1.same, Http1.same, beq_iff_eq.1 hf.1]
      simp only [Http1.valuesOf, List.map_cons, List.filter_cons, readField, hsame, hf.2] at ih ⊢
      by_cases hname : Http1.same f'.1 name = true
      · rw [if_pos hname, if_pos hname, List.map_cons, List.map_cons, ih]
      · rw [if_neg hname, if_neg hname, ih]
  rw [meaning, meaning, Http1.framing, Http1.framing, hvalues, hvalues]

/-! ## What the code makes of a line -/

theorem rawLine_nul_free {field : Bytes × Bytes} (h : Http1.WellFormed field) : 0 ∉ rawLine field ++ crlf := by
  have htext : 0 ∉ field.2 := by
    intro hmem
    have := List.all_eq_true.1 h.text 0 hmem
    cases this
  simp only [rawLine, List.mem_append, List.mem_cons, not_or]
  exact ⟨⟨Http1.not_mem_of_isToken h.token (by decide), by decide, htext⟩, by decide⟩

theorem contentLength_append (rest : Bytes) :
    ascii "Content-Length:" ++ rest = ascii "Content-Length" ++ 58 :: rest := by
  have hcolon : ascii "Content-Length:" = ascii "Content-Length" ++ [58] := by decide
  rw [hcolon, List.append_assoc, List.singleton_append]

/-- Only a line of this name, so spelled, starts with the text. -/
theorem prefix_rawLine {field : Bytes × Bytes} (h : Http1.WellFormed field) :
    ascii "Content-Length:" <+: rawLine field ++ crlf ↔ startsContentLength field = true := by
  have hcolon : 58 ∉ field.1 := Http1.not_mem_of_isToken h.token (by decide)
  constructor
  · rintro ⟨rest, hrest⟩
    have h1 := Http1.splitAt_append hcolon (field.2 ++ crlf)
    have h2 := Http1.splitAt_append (by decide : (58 : UInt8) ∉ ascii "Content-Length") rest
    have hline : rawLine field ++ crlf = field.1 ++ 58 :: (field.2 ++ crlf) := by
      simp only [rawLine, List.append_assoc, List.cons_append]
    rw [← hline, ← hrest, contentLength_append, h2] at h1
    exact beq_iff_eq.2 (congrArg Prod.fst (Option.some.inj h1)).symm
  · intro hname
    refine ⟨field.2 ++ crlf, ?_⟩
    rw [contentLength_append, rawLine, beq_iff_eq.1 hname]
    simp only [List.append_assoc, List.cons_append]

theorem scanContentLength_of_not {p : Platform} {field : Bytes × Bytes} (h : Http1.WellFormed field)
    (hname : startsContentLength field = false) : scanContentLength p (rawLine field ++ crlf) = none := by
  have hno : ¬ ascii "Content-Length:" <+: rawLine field ++ crlf := by
    rw [prefix_rawLine h, hname]
    exact Bool.false_ne_true
  rw [scanContentLength, CString.ofBuffer_bytes (rawLine_nul_free h), Scan.literal, if_neg hno]
  rfl

theorem isSpace_of_isBlank {b : UInt8} (h : Http1.isBlank b = true) : Scan.isSpace b = true := by
  simp only [Http1.isBlank, Bool.or_eq_true, beq_iff_eq] at h
  rcases h with rfl | rfl <;> decide

/-- A length is scanned to the number it is, whatever blanks stand around it. -/
theorem scanContentLength_of_number {p : Platform} {field : Bytes × Bytes} (hname : startsContentLength field = true)
    (h : Http1.WellFormed field) {size : Nat} (hsize : Http1.parseNumber (Http1.trim field.2) = some size) :
    scanContentLength p (rawLine field ++ crlf) = some (Scan.toUnsigned p.sizeWidth false size) := by
  obtain ⟨before, after, htext, hbefore, hafter⟩ := Http1.trim_spec field.2
  obtain ⟨⟨hne, hdigits⟩, hvalue⟩ := Http1.parseNumber_eq_some.1 hsize
  have hrest : ∀ b ∈ (after ++ crlf).head?, Scan.isSpace b = true := by
    intro b hb
    rcases List.mem_append.1 (List.mem_of_mem_head? hb) with hb | hb
    · exact isSpace_of_isBlank (hafter b hb)
    · rcases List.mem_cons.1 hb with rfl | hb
      · decide
      · rw [List.mem_singleton.1 hb]
        decide
  have hscan := Scan.unsigned_of_digits (w := p.sizeWidth) (fun b hb => isSpace_of_isBlank (hbefore b hb))
    hne hdigits hrest
  have hline : rawLine field ++ crlf =
      ascii "Content-Length:" ++ (before ++ (Http1.trim field.2 ++ (after ++ crlf))) := by
    rw [contentLength_append, rawLine, beq_iff_eq.1 hname]
    conv_lhs => rw [htext]
    simp only [List.append_assoc, List.cons_append]
  rw [hvalue] at hscan
  rw [scanContentLength, CString.ofBuffer_bytes (rawLine_nul_free h), hline, Scan.literal_append]
  show Scan.unsigned 10 p.sizeWidth (Scan.skipBlanks _) = _
  rw [Scan.unsigned_skipBlanks, hscan]

/-- The framing that the lines lead the code to. -/
def framingFrom (p : Platform) : Option (Bytes × Bytes) → Framing
  | none => ⟨none, false⟩
  | some field =>
    if startsContentLength field then
      ⟨some (Scan.toUnsigned p.sizeWidth false (Scan.value 10 (Http1.trim field.2))), false⟩
    else ⟨none, true⟩

theorem named_of_startsContentLength {field : Bytes × Bytes} (h : startsContentLength field = true) :
    namedContentLength field = true := by
  rw [namedContentLength, beq_iff_eq.1 h]
  rfl

/-- A line that decides, and one that does not. -/
theorem scanFraming_rawLine {fields : List (Bytes × Bytes)} (hfields : ResponseFields fields) {field : Bytes × Bytes}
    (hmem : field ∈ fields) (p : Platform) :
    scanFraming p ⟨none, false⟩ (rawLine field ++ crlf) =
      if decides field then framingFrom p (some field) else ⟨none, false⟩ := by
  have hwf := hfields.wellFormed field hmem
  obtain ⟨size, hsize⟩ := hfields.length
  rw [framingFrom, decides]
  cases hstarts : startsContentLength field with
  | true =>
    have hnumber := hsize field hmem (named_of_startsContentLength hstarts)
    have hscan := scanContentLength_of_number (p := p) hstarts hwf hnumber
    rw [(Http1.parseNumber_eq_some.1 hnumber).2]
    simp only [scanFraming, hscan]
    rfl
  | false =>
    have hscan := scanContentLength_of_not (p := p) hwf hstarts
    simp only [scanFraming, hscan]
    rfl

theorem foldl_scanFraming_of_decided {p : Platform} {framing : Framing}
    (h : (framing.contentLength.isSome || framing.chunked) = true) (lines : List Bytes) :
    lines.foldl (scanFraming p) framing = framing := by
  induction lines with
  | nil => rfl
  | cons line lines ih => rw [List.foldl_cons, scanFraming, if_pos h, ih]

theorem framingFrom_decided (p : Platform) (field : Bytes × Bytes) :
    ((framingFrom p (some field)).contentLength.isSome || (framingFrom p (some field)).chunked) = true := by
  rw [framingFrom]
  cases startsContentLength field <;> rfl

theorem ResponseFields.of_cons {field : Bytes × Bytes} {fields : List (Bytes × Bytes)}
    (h : ResponseFields (field :: fields)) : ResponseFields fields := by
  obtain ⟨size, hsize⟩ := h.length
  exact ⟨fun f hf => h.wellFormed f (List.mem_cons_of_mem field hf), size,
    fun f hf => hsize f (List.mem_cons_of_mem field hf)⟩

/-- The first line that decides is the only one that counts. -/
theorem framingOf_linesOf {fields : List (Bytes × Bytes)} (hfields : ResponseFields fields) (p : Platform) :
    framingOf p (linesOf fields) = framingFrom p (deciding fields) := by
  induction fields with
  | nil => rfl
  | cons field fields ih =>
    have hline := scanFraming_rawLine hfields List.mem_cons_self p
    rw [framingOf, linesOf, List.map_cons, List.foldl_cons, hline, deciding]
    by_cases h : decides field = true
    · rw [if_pos h, List.find?_cons_of_pos h, foldl_scanFraming_of_decided (framingFrom_decided p field)]
    · rw [if_neg h, List.find?_cons_of_neg h]
      exact ih hfields.of_cons

/-! ## The decision and the meaning -/

theorem framingFrom_eq_meaning {fields : List (Bytes × Bytes)} (hfields : ResponseFields fields) (p : Platform) :
    framingFrom p (deciding fields) = meaning fields ↔ DecidedByMeaning p fields := by
  obtain ⟨size, hsize⟩ := hfields.length
  cases hdeciding : deciding fields with
  | none =>
    have hleft : DecidedByMeaning p fields ↔ meaning fields = ⟨none, false⟩ := by
      rw [DecidedByMeaning, hdeciding, meaning_eq_none hfields]
      simp only [Option.mem_def, reduceCtorEq, false_implies, implies_true, true_and, true_implies]
    rw [hleft, framingFrom, eq_comm]
  | some field =>
    have hmem := List.mem_of_find?_eq_some hdeciding
    have hright : DecidedByMeaning p fields ↔ if startsContentLength field then
        fields.any chunkedField = false ∧ InRange p field else fields.any chunkedField = true := by
      rw [DecidedByMeaning, hdeciding]
      simp only [Option.mem_def, Option.some.injEq, forall_eq', reduceCtorEq, false_implies, and_true]
    rw [hright, framingFrom]
    cases hstarts : startsContentLength field with
    | false =>
      rw [if_neg Bool.false_ne_true, if_neg Bool.false_ne_true]
      cases hchunked : fields.any chunkedField with
      | true => simp only [meaning_of_chunked hchunked]
      | false => simp only [eq_comm (a := (⟨none, true⟩ : Framing)), meaning_chunked_iff, hchunked]
    | true =>
      have hname := named_of_startsContentLength hstarts
      rw [if_pos rfl, if_pos rfl]
      cases hchunked : fields.any chunkedField with
      | true =>
        rw [meaning_of_chunked hchunked]
        simp
      | false =>
        rw [meaning_of_length hfields hchunked hmem hname, Http1.parseNumber_eq_some.2 ⟨(Http1.parseNumber_eq_some.1
          (hsize field hmem hname)).1, rfl⟩]
        simp only [Framing.mk.injEq, Option.some.injEq, and_true, true_and, InRange, Scan.toUnsigned_eq_self]

/-! ## `get_response` -/

theorem isLine_rawLine {field : Bytes × Bytes} (h : Http1.WellFormed field) :
    PartialIO.IsLine (· == 10) (rawLine field ++ crlf) := by
  refine ⟨rawLine field ++ [13], 10, by rw [List.append_assoc]; rfl, rfl, ?_⟩
  have htext : 10 ∉ field.2 := by
    intro hmem
    have := List.all_eq_true.1 h.text 10 hmem
    cases this
  have hmem : 10 ∉ rawLine field ++ [13] := by
    simp only [rawLine, List.mem_append, List.mem_cons, not_or]
    exact ⟨⟨Http1.not_mem_of_isToken h.token (by decide), by decide, htext⟩, by decide, by decide⟩
  intro b hb
  exact beq_eq_false_iff_ne.2 fun he => hmem (he ▸ hb)

theorem crlf_length_lt (field : Bytes × Bytes) : crlf.length < (rawLine field ++ crlf).length := by
  simp only [rawLine, List.length_append, List.length_cons]
  omega

theorem emptyLine_crlf : EmptyLine crlf := by
  refine ⟨⟨⟨[13], 10, rfl, rfl, ?_⟩, by decide⟩, le_refl _⟩
  intro b hb
  rw [List.mem_singleton.1 hb]
  rfl

/-- Lines that are taken fit. -/
theorem linesFit_of_taken {fields : List (Bytes × Bytes)} (hwf : ∀ field ∈ fields, Http1.WellFormed field)
    {lines : List Bytes} {emptyLine rest rest' : Bytes} (hlines : ∀ line ∈ lines, HeaderLine line)
    (hempty : EmptyLine emptyLine) (h : (linesOf fields).flatten ++ rest = lines.flatten ++ (emptyLine ++ rest')) :
    LinesFit fields := by
  induction fields generalizing lines with
  | nil => exact fun _ hf => absurd hf List.not_mem_nil
  | cons field fields ih =>
    have hline := isLine_rawLine (hwf field List.mem_cons_self)
    have hcons : (linesOf (field :: fields)).flatten ++ rest =
        (rawLine field ++ crlf) ++ ((linesOf fields).flatten ++ rest) := by
      rw [linesOf, List.map_cons, List.flatten_cons, List.append_assoc]
      rfl
    rw [hcons] at h
    cases lines with
    | nil =>
      obtain ⟨rfl, -⟩ := hline.append_inj hempty.1.1 h
      exact absurd hempty.2 (Nat.not_le.2 (crlf_length_lt field))
    | cons line lines =>
      rw [List.flatten_cons, List.append_assoc line] at h
      obtain ⟨rfl, hrest⟩ := hline.append_inj (hlines line List.mem_cons_self).1.1 h
      intro f hf
      rcases List.mem_cons.1 hf with rfl | hf
      · exact (hlines _ List.mem_cons_self).1.2
      · exact ih (fun f hf => hwf f (List.mem_cons_of_mem field hf))
          (fun l hl => hlines l (List.mem_cons_of_mem _ hl)) hrest f hf

theorem headerLine_of_fits {fields : List (Bytes × Bytes)} (hwf : ∀ field ∈ fields, Http1.WellFormed field)
    (hfit : LinesFit fields) : ∀ line ∈ linesOf fields, HeaderLine line := by
  intro line hline
  obtain ⟨field, hmem, rfl⟩ := List.mem_map.1 hline
  exact ⟨⟨isLine_rawLine (hwf field hmem), hfit field hmem⟩, crlf_length_lt field⟩

theorem getResponse_of_head {p : Platform} {m : Memory} (hm : m.Available) {s0 s s' : Source UInt8 McError}
    {statusLine : Bytes} {statusCode : Nat} {outcome : Result Unit × List Bytes × Framing}
    (hline : receiveUntilLf httpParseBufferSize s0 = some ((.ok (), statusLine), s))
    (hstatus : scanStatus p statusLine = some statusCode) (hheaders : getHeaders p m s = some (outcome, s')) :
    getResponse p m s0 = afterHeaders p m statusCode outcome s' := by
  obtain ⟨code, headers, framing⟩ := outcome
  rw [getResponse, bind_apply hline]
  simp only [hstatus]
  rw [if_pos hm.headerList, bind_apply hheaders]
  cases code <;> rfl

/-- The framing is the one that the header lines mean exactly where they fit and the deciding one means what it is
taken for. -/
theorem readsBodyBy_meaning {p : Platform} {m : Memory} (hm : m.Available) {fields : List (Bytes × Bytes)}
    (hfields : ResponseFields fields) : ReadsBodyBy p m fields (meaning fields) ↔ FramedAsMeant p fields := by
  let start : Source UInt8 McError := ⟨(linesOf fields).flatten ++ (crlf ++ []), fun _ => 1, .fail⟩
  by_cases hfit : LinesFit fields
  · have hlines := headerLine_of_fits hfields.wellFormed hfit
    rw [FramedAsMeant, if_pos hfit, ← framingFrom_eq_meaning hfields, ← framingOf_linesOf hfields]
    constructor
    · intro h
      obtain ⟨s1, -, h1⟩ := getHeaders_of_lines (p := p) hm hlines emptyLine_crlf (s := start) rfl
      obtain ⟨code, headers, framing, s', h', -, hdecision⟩ := h (s := start) rfl
      rw [h1] at h'
      cases h'
      rcases hdecision with ⟨-, hframing, -⟩ | ⟨-, hcode⟩
      · exact hframing
      · exact absurd rfl hcode
    · intro h rest s hs
      obtain ⟨s', hs', h'⟩ := getHeaders_of_lines (p := p) hm hlines emptyLine_crlf hs
      exact ⟨_, _, _, s', h', fun s0 line code hline hcode => getResponse_of_head hm hline hcode h', .inl ⟨rfl, h, hs'⟩⟩
  · rw [FramedAsMeant, if_neg hfit, ← meaning_eq_none hfields]
    have hrefused : ∀ {rest : Bytes} {s s' : Source UInt8 McError} {code headers framing},
        s.rest = (linesOf fields).flatten ++ (crlf ++ rest) →
        getHeaders p m s = some ((code, headers, framing), s') → code ≠ .ok () := by
      intro rest s s' code headers framing hs h' hcode
      obtain ⟨code', headers', framing', s1, h1, hok⟩ := getHeaders_outcome hm p s
      rw [h'] at h1
      cases h1
      obtain ⟨lines, emptyLine, hs1, hlines, hempty, -, -⟩ := hok hcode
      exact hfit (linesFit_of_taken hfields.wellFormed hlines hempty (hs ▸ hs1))
    constructor
    · intro h
      obtain ⟨code, headers, framing, s', h', -, hdecision⟩ := h (s := start) rfl
      rcases hdecision with ⟨hcode, -, -⟩ | ⟨hnone, -⟩
      · exact absurd hcode (hrefused rfl h')
      · exact hnone
    · intro h rest s hs
      obtain ⟨code, headers, framing, s', h', -⟩ := getHeaders_outcome hm p s
      exact ⟨code, headers, framing, s', h', fun s0 line status hline hstatus => getResponse_of_head hm hline hstatus h',
        .inr ⟨h, hrefused hs h'⟩⟩

/-- Where that is so, another order of the lines and other letters in the names do not change the framing. -/
theorem readsBodyBy_meaning_iff {p : Platform} {m : Memory} (hm : m.Available) {fields : List (Bytes × Bytes)}
    (hfields : ResponseFields fields) :
    (ReadsBodyBy p m fields (meaning fields) ↔ FramedAsMeant p fields) ∧
      ∀ ordered recased, fields.Perm ordered → Recased ordered recased → ResponseFields recased →
        (ReadsBodyBy p m recased (meaning fields) ↔ FramedAsMeant p recased) := by
  refine ⟨readsBodyBy_meaning hm hfields, fun ordered recased hordered hrecased hfields' => ?_⟩
  rw [meaning_perm hfields hordered, meaning_case hrecased]
  exact readsBodyBy_meaning hm hfields'

def lengthFirst : List (Bytes × Bytes) :=
  [(ascii "Server", ascii " s"), (ascii "Content-Length", ascii " 5"), (ascii "X-Note", ascii " Transfer-Encoding: chunked")]

theorem lengthFirst_fields : ResponseFields lengthFirst := by
  refine ⟨?_, 5, ?_⟩
  · intro field hfield
    simp only [lengthFirst, List.mem_cons, List.not_mem_nil, or_false] at hfield
    rcases hfield with rfl | rfl | rfl <;> exact ⟨by decide, by decide⟩
  · decide

theorem lengthFirst_readsBodyBy :
    (ReadsBodyBy platform64 freshMemory lengthFirst (meaning lengthFirst) ↔ FramedAsMeant platform64 lengthFirst) ∧
      ∀ ordered recased, lengthFirst.Perm ordered → Recased ordered recased → ResponseFields recased →
        (ReadsBodyBy platform64 freshMemory recased (meaning lengthFirst) ↔ FramedAsMeant platform64 recased) :=
  readsBodyBy_meaning_iff freshMemory_available lengthFirst_fields

/-- A length in small letters, a length before `chunked` and the text inside another value. -/
def lowerLength : List (Bytes × Bytes) := [(ascii "content-length", ascii " 5")]
def lengthBeforeChunked : List (Bytes × Bytes) :=
  [(ascii "Content-Length", ascii " 5"), (ascii "Transfer-Encoding", ascii " chunked")]
def quotedChunked : List (Bytes × Bytes) :=
  [(ascii "X-Note", ascii " Transfer-Encoding: chunked"), (ascii "Content-Length", ascii " 5")]

/-- What is decided otherwise than it means is read otherwise. -/
theorem not_meant_of_not_decided {fields : List (Bytes × Bytes)} (hfields : ResponseFields fields)
    (hnot : LinesFit fields ∧ ¬ DecidedByMeaning platform64 fields) :
    ResponseFields fields ∧ ¬ ReadsBodyBy platform64 freshMemory fields (meaning fields) := by
  refine ⟨hfields, ?_⟩
  rw [readsBodyBy_meaning freshMemory_available hfields, FramedAsMeant, if_pos hnot.1]
  exact hnot.2

/-- Each of these is read otherwise than it means. -/
theorem not_readsBodyBy_meaning :
    (ResponseFields lowerLength ∧ ¬ ReadsBodyBy platform64 freshMemory lowerLength (meaning lowerLength)) ∧
    (ResponseFields lengthBeforeChunked ∧
      ¬ ReadsBodyBy platform64 freshMemory lengthBeforeChunked (meaning lengthBeforeChunked)) ∧
    (ResponseFields quotedChunked ∧
      ¬ ReadsBodyBy platform64 freshMemory quotedChunked (meaning quotedChunked)) := by
  refine ⟨not_meant_of_not_decided ⟨?_, 5, by decide⟩ (by decide),
    not_meant_of_not_decided ⟨?_, 5, by decide⟩ (by decide),
    not_meant_of_not_decided ⟨?_, 5, by decide⟩ (by decide)⟩ <;> intro field hfield
  · simp only [lowerLength, List.mem_singleton] at hfield
    subst hfield
    exact ⟨by decide, by decide⟩
  · simp only [lengthBeforeChunked, List.mem_cons, List.not_mem_nil, or_false] at hfield
    rcases hfield with rfl | rfl <;> exact ⟨by decide, by decide⟩
  · simp only [quotedChunked, List.mem_cons, List.not_mem_nil, or_false] at hfield
    rcases hfield with rfl | rfl <;> exact ⟨by decide, by decide⟩

end MindConnect.HttpClientBasic
