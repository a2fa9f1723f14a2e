import MindConnect.Connectivity.Exchange
import MindConnect.Lib.Mime

/-!
# Reading a multipart body back

What the encoder appends for a tuple is one part of a body with the main boundary, and in it a body of two parts
with the sub boundary (`tupleText_eq`); so the splitter of `Lib.Mime` gives back the tuples that were added
(`addTuples_roundTrip`). A delimiter must not show in a JSON text or a payload, nor right at its start: the line
break of the empty line before it would be the delimiter's own. And a content type goes into the header as it
is, so that a line break in it ends the header field.
-/

namespace MindConnect

open Mime (Quiet delimiter splitNested)

/-! ## Successive calls -/

/-- Calls of `multipart_add_tuple_with_callback` on one buffer, and the tuples of those that return `MCL_OK`;
`multipart_add_tuple` is the call without a callback. -/
def addTuples : List Tuple → Window → Option (List Tuple × Window)
  | [], w => some ([], w)
  | t :: ts, w =>
    match addTupleWithCallback t w with
    | none => none
    | some (.error _, w') => addTuples ts w'
    | some (.ok (), w') => (addTuples ts w').map fun r => (t :: r.1, r.2)

/-- What a receiver should find of a tuple: its two parts, each with its type. -/
def Tuple.contents (t : Tuple) : Result (List (Bytes × Bytes)) := do
  let json ← t.metaJson
  let payload ← t.payload
  return [(contentTypeMetaJson, json), (payloadContentType t, payload)]

/-- The texts of the tuples that were added are appended, and nothing else is. -/
theorem addTuples_appended {tuples added : List Tuple} {w w' : Window} (fits : w.Fits)
    (adds : addTuples tuples w = some (added, w')) :
    ∃ texts, List.Forall₂ (fun t text => t.text = .ok text) added texts ∧ w.Appended w' texts.flatten := by
  induction tuples generalizing w added with
  | nil =>
    cases adds
    exact ⟨[], .nil, .refl⟩
  | cons t ts ih =>
    obtain ⟨code, w₁, hcall, hcases⟩ := addTupleWithCallback_spec t fits
    rw [addTuples, hcall] at adds
    rcases hcases with ⟨text, htext, rfl, happ⟩ | ⟨e, rfl, hkept, hposition, hremaining, -⟩
    · obtain ⟨⟨rest, w₂⟩, hrest, heq⟩ := Option.map_eq_some_iff.1 adds
      cases heq
      obtain ⟨texts, hall, happ'⟩ := ih (happ.fits fits) hrest
      exact ⟨text :: texts, .cons htext hall, happ.trans happ'⟩
    · have happ : w.Appended w₁ [] := .of_kept hkept hposition hremaining
      obtain ⟨texts, hall, happ'⟩ := ih (happ.fits fits) adds
      exact ⟨texts, hall, happ.trans happ'⟩

/-- With room for their texts and the closing delimiter all tuples are added. -/
theorem addTuples_written (boundary : Boundary) {tuples : List Tuple} {texts : List Bytes}
    (htexts : List.Forall₂ (fun t text => t.text = .ok text) tuples texts) {w : Window} (fits : w.Fits)
    (room : texts.flatten.length + closeLength ≤ w.remaining) :
    ∃ w' w'', addTuples tuples w = some (tuples, w') ∧ close boundary w' = some (.ok (), w'') ∧
      w.Appended w'' (texts.flatten ++ closeText boundary) := by
  induction htexts generalizing w with
  | nil =>
    obtain ⟨code, w'', hclose, hcases⟩ := close_spec boundary fits
    rcases hcases with ⟨rfl, happ⟩ | ⟨-, -, hlt⟩
    · exact ⟨w, w'', rfl, hclose, happ⟩
    · rw [List.flatten_nil, List.length_nil, Nat.zero_add] at room
      omega
  | @cons t text ts texts htext _ ih =>
    rw [List.flatten_cons, List.length_append] at room
    obtain ⟨code, w₁, hcall, hcases⟩ := addTupleWithCallback_spec t fits
    rcases hcases with ⟨text', htext', rfl, happ⟩ | ⟨e, -, -, -, -, hfail⟩
    · obtain rfl := Except.ok.inj (htext.symm.trans htext')
      obtain ⟨w', w'', hadds, hcloses, happ'⟩ := ih (happ.fits fits) (by rw [happ.remaining]; omega)
      refine ⟨w', w'', by simp only [addTuples, hcall, hadds, Option.map_some], hcloses, ?_⟩
      rw [List.flatten_cons, List.append_assoc]
      exact happ.trans happ'
    · have := (hfail _ htext).2
      omega

/-! ## The text of a tuple as a part -/

/-- The part that holds the tuple. -/
def nestedOf (sub : Boundary) (contents : List (Bytes × Bytes)) : Mime.Nested :=
  ⟨tupleType sub, sub.bytes, contents⟩

theorem endline_eq : endline = Http1.crlf := by decide

theorem doubleEndline_eq : doubleEndline = Http1.crlf ++ Http1.crlf := by decide

theorem tupleText_eq (boundary sub : Boundary) (json type payload : Bytes) :
    tupleText boundary sub json type payload = Mime.delimited boundary.bytes (Mime.typedPart (tupleType sub)
      (nestedOf sub [(contentTypeMetaJson, json), (type, payload)]).body) := by
  have hsign : boundarySign = Mime.dashes := rfl
  have hkey : contentTypeKey = ascii "Content-Type: " := rfl
  simp only [tupleText, bodyPart, addBoundary, hsign, hkey, endline_eq, doubleEndline_eq, Mime.delimited,
    Mime.typedPart, nestedOf, Mime.Nested.body, Mime.typedBody, Mime.joined, List.map_cons, List.map_nil,
    List.flatMap_cons, List.flatMap_nil, Bool.false_eq_true, if_false, if_true, List.append_assoc, List.append_nil]

theorem boundary_bytes (b : Boundary) : ∀ x ∈ b.bytes, x ≠ 13 ∧ x ≠ 59 ∧ Http1.isBlank x = false := by
  have hall : ∀ x ∈ boundaryCharacters, x ≠ 13 ∧ x ≠ 59 ∧ Http1.isBlank x = false := by decide
  exact fun x hx => hall x (b.picked x hx)

theorem cr_not_mem (b : Boundary) : 13 ∉ b.bytes := fun h => (boundary_bytes b 13 h).1 rfl

theorem boundaryParameter_tupleType (sub : Boundary) :
    Mime.boundaryParameter (tupleType sub) = some sub.bytes := by
  have hparameters : Http1.splitAt 59 (tupleType sub) =
      some (contentTypeMultipartRelated, ascii "boundary" ++ 61 :: sub.bytes) := by
    have h := Http1.splitAt_append (by decide : 59 ∉ contentTypeMultipartRelated)
      (ascii "boundary" ++ 61 :: sub.bytes)
    simpa [tupleType, boundaryKey, ascii] using h
  have hname : Http1.splitAt 61 (ascii "boundary" ++ 61 :: sub.bytes) = some (ascii "boundary", sub.bytes) :=
    Http1.splitAt_append (by decide) sub.bytes
  have hwhole : sub.bytes.takeWhile (· != 59) = sub.bytes :=
    List.takeWhile_eq_self_iff.2 fun x hx => bne_iff_ne.2 (boundary_bytes sub x hx).2.1
  have htrim : Http1.trim sub.bytes = sub.bytes := Http1.trim_of_no_blank fun x hx => (boundary_bytes sub x hx).2.2
  have hsame : Http1.same (Http1.trim (ascii "boundary")) (ascii "boundary") = true := by decide
  simp only [Mime.boundaryParameter, hparameters, bind, Option.bind, hname, hsame, if_true, hwhole, htrim]
  rfl

theorem quiet_tupleType (sub : Boundary) : Quiet Http1.crlf (tupleType sub) := by
  apply Mime.quiet_of_not_mem
  have hkey : 13 ∉ contentTypeMultipartRelated ++ boundaryKey := by decide
  rw [tupleType, List.mem_append, not_or]
  exact ⟨hkey, cr_not_mem sub⟩

/-! ## The round trip -/

/-- What keeps a tuple apart from the framing: its sub boundary is not the main one, there is no line break in
its content type, and neither delimiter shows in a content, a line break before the content included. -/
structure Framed (boundary : Boundary) (t : Tuple) : Prop where
  ne : ∀ sub, t.subBoundary = .ok sub → sub ≠ boundary
  contentType : Quiet Http1.crlf (payloadContentType t)
  content : ∀ content, t.metaJson = .ok content ∨ t.payload = .ok content →
    ∀ b, b = boundary ∨ t.subBoundary = .ok b → Quiet (delimiter b.bytes) (Http1.crlf ++ content)

theorem framed_of_quiet {boundary sub : Boundary} {t : Tuple} {json payload : Bytes} (hsub : t.subBoundary = .ok sub)
    (hjson : t.metaJson = .ok json) (hpayload : t.payload = .ok payload) (hne : sub ≠ boundary)
    (htype : Quiet Http1.crlf (payloadContentType t))
    (hquiet : ∀ b ∈ [boundary, sub], ∀ content ∈ [json, payload], Quiet (delimiter b.bytes) (Http1.crlf ++ content)) :
    Framed boundary t := by
  refine ⟨fun sub' hsub' => ?_, htype, fun content hcontent b hb => hquiet b ?_ content ?_⟩
  · obtain rfl := Except.ok.inj (hsub.symm.trans hsub')
    exact hne
  · rw [hsub] at hb
    simpa [eq_comm] using hb
  · rw [hjson, hpayload] at hcontent
    simpa [eq_comm] using hcontent

theorem Boundary.ext {b b' : Boundary} (h : b.bytes = b'.bytes) : b = b' := by
  cases b
  cases b'
  cases h
  rfl

/-- A tuple that was added is a part that holds its contents. -/
theorem tuple_nested {boundary : Boundary} {t : Tuple} {text : Bytes} (hboundary : t.boundary = boundary)
    (framed : Framed boundary t) (htext : t.text = .ok text) :
    ∃ sub contents, t.contents = .ok contents ∧ (nestedOf sub contents).Frames boundary.bytes ∧
      text = Mime.delimited boundary.bytes (Mime.typedPart (tupleType sub) (nestedOf sub contents).body) := by
  obtain ⟨sub, hsub, htext⟩ := bind_eq_ok htext
  obtain ⟨json, hjson, htext⟩ := bind_eq_ok htext
  obtain ⟨payload, hpayload, htext⟩ := bind_eq_ok htext
  cases htext
  have hmeta : Quiet Http1.crlf contentTypeMetaJson := Mime.quiet_of_not_mem (by decide)
  have hframes : ∀ b, b = boundary ∨ t.subBoundary = .ok b →
      ∀ c ∈ [(contentTypeMetaJson, json), (payloadContentType t, payload)], Mime.Frames b.bytes c := by
    intro b hb c hc
    rcases List.mem_pair.1 hc with rfl | rfl
    · exact ⟨hmeta, framed.content json (.inl hjson) b hb⟩
    · exact ⟨framed.contentType, framed.content payload (.inr hpayload) b hb⟩
  refine ⟨sub, [(contentTypeMetaJson, json), (payloadContentType t, payload)], ?_,
    ⟨boundaryParameter_tupleType sub, quiet_tupleType sub, cr_not_mem sub, ?_, ?_, ?_, ?_⟩, ?_⟩
  · simp only [Tuple.contents, hjson, hpayload, bind, Except.bind, pure, Except.pure]
  · exact boundary.length_eq.trans sub.length_eq.symm
  · exact fun h => framed.ne sub hsub (Boundary.ext h.symm)
  · exact hframes boundary (.inl rfl)
  · exact hframes sub (.inr hsub)
  · rw [hboundary]
    exact tupleText_eq boundary sub json (payloadContentType t) payload

theorem tuples_nested {boundary : Boundary} {added : List Tuple} {texts : List Bytes}
    (same : ∀ t ∈ added, t.boundary = boundary) (framed : ∀ t ∈ added, Framed boundary t)
    (htexts : List.Forall₂ (fun t text => t.text = .ok text) added texts) :
    ∃ nested : List Mime.Nested, List.Forall₂ (fun t n => t.contents = .ok n.parts) added nested ∧
      (∀ n ∈ nested, n.Frames boundary.bytes) ∧
        texts = nested.map fun n => Mime.delimited boundary.bytes (Mime.typedPart n.type n.body) := by
  induction htexts with
  | nil => exact ⟨[], .nil, by simp, rfl⟩
  | @cons t text added texts htext _ ih =>
    obtain ⟨nested, hall, hframes, rfl⟩ := ih (fun t ht => same t (List.mem_cons_of_mem _ ht))
      fun t ht => framed t (List.mem_cons_of_mem _ ht)
    obtain ⟨sub, contents, hcontents, hframe, rfl⟩ :=
      tuple_nested (same t List.mem_cons_self) (framed t List.mem_cons_self) htext
    refine ⟨nestedOf sub contents :: nested, .cons hcontents hall, fun n hn => ?_, rfl⟩
    rcases List.mem_cons.1 hn with rfl | hn
    · exact hframe
    · exact hframes n hn

theorem flatten_close (boundary : Boundary) (nested : List Mime.Nested) :
    (nested.map fun n => Mime.delimited boundary.bytes (Mime.typedPart n.type n.body)).flatten ++ closeText boundary =
      Mime.typedBody boundary.bytes (nested.map fun n => (n.type, n.body)) := by
  simp [Mime.typedBody, Mime.joined, List.flatMap, closeText, boundarySign, Mime.dashes, Function.comp_def]

theorem addTuples_mem {tuples added : List Tuple} {w w' : Window} (adds : addTuples tuples w = some (added, w')) :
    ∀ t ∈ added, t ∈ tuples := by
  induction tuples generalizing w added with
  | nil =>
    cases adds
    simp
  | cons t ts ih =>
    rw [addTuples] at adds
    cases hcall : addTupleWithCallback t w with
    | none =>
      rw [hcall] at adds
      cases adds
    | some r =>
      obtain ⟨code, w₁⟩ := r
      rw [hcall] at adds
      cases code with
      | error e => exact fun t' ht' => List.mem_cons_of_mem _ (ih adds t' ht')
      | ok u =>
        obtain ⟨⟨rest, w₂⟩, hrest, heq⟩ := Option.map_eq_some_iff.1 adds
        cases heq
        exact List.forall_mem_cons.2 ⟨List.mem_cons_self, fun t' ht' => List.mem_cons_of_mem _ (ih hrest t' ht')⟩

/-- The tuples are what a receiver gets from what was written behind the window's position, in order and each
with its two parts. -/
def RoundTrips (boundary : Boundary) (added : List Tuple) (w w' : Window) : Prop :=
  ∃ body contents, w'.buffer.take w'.position = w.buffer.take w.position ++ body ∧
    List.Forall₂ (fun t c => t.contents = .ok c) added contents ∧
      splitNested boundary.bytes body = some contents

theorem addTuples_roundTrips {boundary : Boundary} {tuples added : List Tuple} {w w' w'' : Window} (fits : w.Fits)
    (same : ∀ t ∈ tuples, t.boundary = boundary) (framed : ∀ t ∈ tuples, Framed boundary t)
    (adds : addTuples tuples w = some (added, w')) (closes : close boundary w' = some (.ok (), w'')) :
    RoundTrips boundary added w w'' := by
  obtain ⟨texts, htexts, happ⟩ := addTuples_appended fits adds
  obtain ⟨code, w₁, hclose, hcases⟩ := close_spec boundary (happ.fits fits)
  rw [closes] at hclose
  cases hclose
  obtain ⟨-, happ'⟩ := hcases.resolve_right fun h => nomatch h.1
  have hmem := addTuples_mem adds
  obtain ⟨nested, hcontents, hframes, rfl⟩ :=
    tuples_nested (fun t ht => same t (hmem t ht)) (fun t ht => framed t (hmem t ht)) htexts
  refine ⟨_, nested.map Mime.Nested.parts, (happ.trans happ').take, List.forall₂_map_right_iff.2 hcontents, ?_⟩
  have hsplit := Mime.splitNested_typedBody (cr_not_mem boundary) hframes []
  rwa [List.append_nil, ← flatten_close] at hsplit

/-! ## Delimiters at the start of a content, line breaks in a type -/

def sampleSubBoundary : Boundary := ⟨ascii "abcdefghijabcdefghij", rfl, by decide⟩

def sampleTuple (contentType : Option CString) (payload : Bytes) : Tuple :=
  ⟨sampleBoundary, .ok sampleSubBoundary, .ok (ascii "\x7b\x7d"), contentType, .ok payload, none⟩

def sampleWindow : Window := emptyWindow 500

/-- The boundaries differ, and no delimiter occurs inside a content. -/
structure Separated (boundary : Boundary) (tuples : List Tuple) : Prop where
  ne_nil : tuples ≠ []
  same : ∀ t ∈ tuples, t.boundary = boundary
  distinct : (.ok boundary :: tuples.map Tuple.subBoundary).Nodup
  content : ∀ t ∈ tuples, ∀ content, t.metaJson = .ok content ∨ t.payload = .ok content →
    ∀ b, b = boundary ∨ (∃ t' ∈ tuples, t'.subBoundary = .ok b) → Quiet (delimiter b.bytes) content

instance {d s : Bytes} : Decidable (Quiet d s) := inferInstanceAs (Decidable (¬ d <:+: s))

theorem sampleTuple_separated {contentType : Option CString} {payload : Bytes}
    (h : Quiet (delimiter sampleBoundary.bytes) payload ∧ Quiet (delimiter sampleSubBoundary.bytes) payload) :
    Separated sampleBoundary [sampleTuple contentType payload] := by
  refine ⟨by simp, by simp [sampleTuple], ?_, ?_⟩
  · have hne : sampleBoundary ≠ sampleSubBoundary := fun h => absurd (congrArg Boundary.bytes h) (by decide)
    simp [sampleTuple, hne]
  · rintro t ht content hcontent b hb
    cases List.mem_singleton.1 ht
    have hb : b = sampleBoundary ∨ b = sampleSubBoundary := by
      simpa [sampleTuple, eq_comm] using hb
    rcases hcontent with hcontent | hcontent
    · cases hcontent
      rcases hb with rfl | rfl <;> decide
    · cases hcontent
      rcases hb with rfl | rfl
      · exact h.1
      · exact h.2

def sampleText (contentType : Option CString) (payload : Bytes) : Bytes :=
  tupleText sampleBoundary sampleSubBoundary (ascii "\x7b\x7d")
    (payloadContentType (sampleTuple contentType payload)) payload

/-- There is room for the sample tuple and the closing delimiter. -/
theorem sampleTuple_written (contentType : Option CString) (payload : Bytes)
    (room : (sampleText contentType payload).length + closeLength ≤ 500) :
    ∃ w' w'', addTuples [sampleTuple contentType payload] sampleWindow =
        some ([sampleTuple contentType payload], w') ∧ close sampleBoundary w' = some (.ok (), w'') ∧
      w''.buffer.take w''.position = sampleText contentType payload ++ closeText sampleBoundary := by
  have htext : (sampleTuple contentType payload).text = .ok (sampleText contentType payload) := rfl
  obtain ⟨w', w'', hadds, hcloses, happ⟩ := addTuples_written sampleBoundary (.cons htext .nil) (fits_emptyWindow 500)
    (by rw [List.flatten_singleton]; exact room)
  refine ⟨w', w'', hadds, hcloses, ?_⟩
  have htake := happ.take
  rwa [List.flatten_singleton] at htake

/-- A receiver of one sample tuple gets something else. -/
theorem sampleTuple_not_roundTrips {contentType : Option CString} {payload : Bytes} {w'' : Window}
    (hbody : w''.buffer.take w''.position = sampleText contentType payload ++ closeText sampleBoundary)
    (h : splitNested sampleBoundary.bytes (sampleText contentType payload ++ closeText sampleBoundary) ≠
      some [[(contentTypeMetaJson, ascii "\x7b\x7d"),
        (payloadContentType (sampleTuple contentType payload), payload)]]) :
    ¬ RoundTrips sampleBoundary [sampleTuple contentType payload] sampleWindow w'' := by
  rintro ⟨body, contents, hbody', hcontents, hsplit⟩
  cases hcontents with
  | cons hfirst hrest =>
    cases hrest
    cases hfirst
    have hbody' : w''.buffer.take w''.position = body := hbody'
    exact h (hbody.symm.trans hbody' ▸ hsplit)

/-- A payload that starts like a delimiter line, and a content type with a line break in it. -/
def dashedPayload : Bytes := Mime.dashes ++ sampleBoundary.bytes

def brokenType : CString := .lit "text/plain\r\nX: y"

set_option maxRecDepth 2000 in
/-- Either one is enough for a receiver to get something else. -/
theorem sampleTuples_not_roundTrips :
    (¬ ∀ (boundary : Boundary) (tuples added : List Tuple) (w w' w'' : Window), w.Fits →
      Separated boundary tuples → (∀ t ∈ tuples, Quiet Http1.crlf (payloadContentType t)) →
        addTuples tuples w = some (added, w') → close boundary w' = some (.ok (), w'') →
          RoundTrips boundary added w w'') ∧
    (¬ ∀ (boundary : Boundary) (tuples added : List Tuple) (w w' w'' : Window), w.Fits →
      Separated boundary tuples →
      (∀ t ∈ tuples, ∀ content, t.metaJson = .ok content ∨ t.payload = .ok content →
        ∀ b, b = boundary ∨ t.subBoundary = .ok b → Quiet (delimiter b.bytes) (Http1.crlf ++ content)) →
          addTuples tuples w = some (added, w') → close boundary w' = some (.ok (), w'') →
            RoundTrips boundary added w w'') := by
  have fits : sampleWindow.Fits := fits_emptyWindow 500
  constructor
  · intro hall
    obtain ⟨w', w'', hadds, hcloses, hbody⟩ := sampleTuple_written none dashedPayload (by decide)
    refine sampleTuple_not_roundTrips hbody (by decide)
      (hall _ _ _ _ _ _ fits (sampleTuple_separated (by decide)) ?_ hadds hcloses)
    intro t ht
    cases List.mem_singleton.1 ht
    decide
  · intro hall
    obtain ⟨w', w'', hadds, hcloses, hbody⟩ := sampleTuple_written (some brokenType) [] (by decide)
    refine sampleTuple_not_roundTrips hbody (by decide)
      (hall _ _ _ _ _ _ fits (sampleTuple_separated (by decide)) ?_ hadds hcloses)
    rintro t ht content hcontent b hb
    cases List.mem_singleton.1 ht
    have hb : b = sampleBoundary ∨ b = sampleSubBoundary := by simpa [sampleTuple, eq_comm] using hb
    rcases hcontent with hcontent | hcontent <;> cases hcontent <;> rcases hb with rfl | rfl <;> decide

/-- A tuple with a content type, its payload read from a file in two pieces. -/
def fileTuple : Tuple where
  boundary := sampleBoundary
  subBoundary := .ok ⟨ascii "klmnopqrstklmnopqrst", rfl, by decide⟩
  metaJson := .ok (ascii "\x7b\x7d")
  contentType := some (.lit "text/plain")
  payloadJson := .error .fail
  callback := some (filePayloadCallback [⟨ascii "--", by decide⟩, ⟨ascii "cd", by decide⟩])

set_option maxRecDepth 4000 in
theorem plainTuples_roundTrip :
    ∃ w'', RoundTrips sampleBoundary [sampleTuple none (ascii "[]"), fileTuple] (emptyWindow 800) w'' := by
  have htexts : List.Forall₂ (fun t text => Tuple.text t = .ok text) [sampleTuple none (ascii "[]"), fileTuple] _ :=
    .cons rfl (.cons rfl .nil)
  obtain ⟨w', w'', hadds, hcloses, -⟩ := addTuples_written sampleBoundary htexts (fits_emptyWindow 800) (by decide)
  have hsame : ∀ t ∈ [sampleTuple none (ascii "[]"), fileTuple], t.boundary = sampleBoundary :=
    List.forall_mem_cons.2 ⟨rfl, List.forall_mem_singleton.2 rfl⟩
  have hframed : ∀ t ∈ [sampleTuple none (ascii "[]"), fileTuple], Framed sampleBoundary t := by
    refine List.forall_mem_cons.2 ⟨?_, List.forall_mem_singleton.2 ?_⟩
    · exact framed_of_quiet rfl rfl rfl (fun h => absurd (congrArg Boundary.bytes h) (by decide)) (by decide)
        (by decide)
    · exact framed_of_quiet rfl rfl rfl (fun h => absurd (congrArg Boundary.bytes h) (by decide)) (by decide)
        (by decide)
  exact ⟨w'', addTuples_roundTrips (fits_emptyWindow 800) hsame hframed hadds hcloses⟩

end MindConnect
