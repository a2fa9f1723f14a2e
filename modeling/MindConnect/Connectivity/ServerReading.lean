import MindConnect.Connectivity.ExchangeRequest
import MindConnect.Connectivity.MultipartRoundTrip
import MindConnect.Lib.JsonRead

/-!
# What a server reads

A server takes what arrives on a connection for a request if it is a whole one, finds the boundary in its content type
and splits the body into items (`serverReceives`). The header that the processor composes names the boundary, and the
body splits into the items with their meta data and payloads (`splitNested_body`).
-/

namespace MindConnect

open PartialIO JsonUtil
open Json (readableMembers_append)
open Mime (Quiet)
open HttpClientBasic (Platform UriParts Writable bytesOf fieldOf Tame)

/-! ## The server -/

/-- Meta data, and a payload with its type. -/
structure ReceivedItem where
  metaData : Json
  payloadType : Bytes
  payload : Bytes

def receivedItem : List (Bytes × Bytes) → Option ReceivedItem
  | [(metaType, metaText), (payloadType, payload)] => do
    let metaData ← Json.read metaText
    if metaType = contentTypeMetaJson then some ⟨metaData, payloadType, payload⟩ else none
  | _ => none

/-- One whole request, and the items in its body. -/
def serverReceives (sent : Bytes) : Option (List ReceivedItem) := do
  let (request, rest) ← Http1.parseRequest sent
  if rest = [] then do
    let type ← (Http1.valuesOf (ascii "Content-Type") request.fields).head?
    let boundary ← Mime.boundaryParameter type
    let parts ← Mime.splitNested boundary request.body
    parts.mapM receivedItem
  else none

/-- What is to be read of an item. -/
def itemContents (content : Bytes) (item : Item) : ReceivedItem :=
  ⟨metaTree item, payloadTypeText item, payloadText content item⟩

/-! ## The header -/

/-- What the processor puts into a request stays on its line; the host is a name, the path has no blank. -/
structure ExchangeProcessor.Plain {p : Platform} (processor : ExchangeProcessor p) (host path : Bytes) : Prop where
  url : ∀ url, processor.exchangeUrl = some url → UriParts url host path
  accessToken : ∀ token, processor.accessToken = some token → Http1.isText token.bytes = true
  user_agent : Http1.isText (bytesOf processor.httpClient.userAgent) = true
  host_text : Http1.isText host = true
  host_no_blank : ∀ b ∈ host, Http1.isBlank b = false
  path_text : Http1.isText path = true
  path_no_space : 32 ∉ path

theorem hex_text (bytes : Bytes) : Http1.isText (CString.ofBuffer (Hex.ofBytes bytes ++ [0])).bytes = true := by
  apply List.all_eq_true.2
  intro b hb
  have hmem : b ∈ Hex.ofBytes bytes ++ [0] := List.takeWhile_subset _ hb
  have hne : (b != 0) = true := bne_iff_ne.2 fun h0 => (CString.ofBuffer (Hex.ofBytes bytes ++ [0])).nul_free (h0 ▸ hb)
  rcases List.mem_append.1 hmem with hmem | hmem
  · have hdigit := Hex.isLowerDigit_of_mem_ofBytes hmem
    simp only [Hex.isLowerDigit, Bool.or_eq_true, Bool.and_eq_true, decide_eq_true_eq] at hdigit
    have h10 : b ≠ 10 := by
      rintro rfl
      revert hdigit
      decide
    have h13 : b ≠ 13 := by
      rintro rfl
      revert hdigit
      decide
    rw [hne, bne_iff_ne.2 h10, bne_iff_ne.2 h13]
    rfl
  · rw [List.mem_singleton.1 hmem] at hne
    cases hne

theorem ExchangeProcessor.Plain.writable {p : Platform} {processor : ExchangeProcessor p} {host path : Bytes}
    (h : processor.Plain host path) {token : CString} (htoken : processor.accessToken = some token)
    (boundary : Boundary) (randomBytes : Bytes) :
    Writable processor.httpClient (exchangeHeaders boundary token randomBytes) host path := by
  have hbearer : Http1.isText (CString.ofBuffer (bearerFormat token)).bytes = true := by
    rw [CString.ofBuffer_bytes (bearerFormat_nul_free token)]
    exact isText_append (by decide) (h.accessToken token htoken)
  have htype : Http1.isText (CString.ofBuffer (multipartMixedText boundary)).bytes = true := by
    rw [CString.ofBuffer_bytes (nul_not_mem_of_isText (multipartMixedText_text boundary))]
    exact multipartMixedText_text boundary
  refine ⟨h.host_text, h.host_no_blank, h.path_text, h.path_no_space, ?_, ?_, h.user_agent⟩
  · intro header hheader
    simp only [exchangeHeaders, List.mem_cons, List.not_mem_nil, or_false] at hheader
    rcases hheader with rfl | rfl | rfl | rfl
    · exact ⟨show Http1.isToken (ascii "Content-Type") = true by decide, htype⟩
    · exact ⟨show Http1.isToken (ascii "Accept") = true by decide, by decide⟩
    · exact ⟨show Http1.isToken (ascii "Authorization") = true by decide, hbearer⟩
    · exact ⟨show Http1.isToken (ascii "Correlation-ID") = true by decide, hex_text randomBytes⟩
  · intro field hfield
    simp only [exchangeHeaders, List.map_cons, List.map_nil, List.mem_cons, List.not_mem_nil, or_false] at hfield
    rcases hfield with rfl | rfl | rfl | rfl
    · exact ⟨show Http1.same (ascii "Content-Type") _ = false by decide,
        show Http1.same (ascii "Content-Type") _ = false by decide⟩
    · exact ⟨show Http1.same (ascii "Accept") _ = false by decide, show Http1.same (ascii "Accept") _ = false by decide⟩
    · exact ⟨show Http1.same (ascii "Authorization") _ = false by decide,
        show Http1.same (ascii "Authorization") _ = false by decide⟩
    · exact ⟨show Http1.same (ascii "Correlation-ID") _ = false by decide,
        show Http1.same (ascii "Correlation-ID") _ = false by decide⟩

theorem boundaryParameter_multipartMixedText (boundary : Boundary) :
    Mime.boundaryParameter (multipartMixedText boundary) = some boundary.bytes := by
  have hparameters : Http1.splitAt 59 (multipartMixedText boundary) =
      some (contentTypeMultipartMixed.bytes, ascii "boundary" ++ 61 :: (boundary.bytes ++ ascii ";charset=utf-8")) :=
    Http1.splitAt_append (by decide : 59 ∉ contentTypeMultipartMixed.bytes) _
  have hname : Http1.splitAt 61 (ascii "boundary" ++ 61 :: (boundary.bytes ++ ascii ";charset=utf-8")) =
      some (ascii "boundary", boundary.bytes ++ ascii ";charset=utf-8") :=
    Http1.splitAt_append (by decide) _
  have hvalue : (boundary.bytes ++ ascii ";charset=utf-8").takeWhile (· != 59) = boundary.bytes := by
    rw [List.takeWhile_append_of_pos fun x hx => bne_iff_ne.2 (boundary_bytes boundary x hx).2.1]
    exact List.append_nil _
  have htrim : Http1.trim boundary.bytes = boundary.bytes :=
    Http1.trim_of_no_blank fun x hx => (boundary_bytes boundary x hx).2.2
  have hsame : Http1.same (Http1.trim (ascii "boundary")) (ascii "boundary") = true := by decide
  simp only [Mime.boundaryParameter, hparameters, bind, Option.bind, hname, hsame, if_true, hvalue, htrim]
  rfl

theorem trim_multipartMixedText (boundary : Boundary) :
    Http1.trim (multipartMixedText boundary) = multipartMixedText boundary := by
  apply Http1.trim_of_no_blank
  have h1 : ∀ b ∈ contentTypeMultipartMixed.bytes, Http1.isBlank b = false := by decide
  have h2 : ∀ b ∈ ascii ";boundary=", Http1.isBlank b = false := by decide
  have h3 : ∀ b ∈ ascii ";charset=utf-8", Http1.isBlank b = false := by decide
  simp only [multipartMixedText, List.mem_append]
  rintro b (hb | hb | hb | hb)
  · exact h1 b hb
  · exact h2 b hb
  · exact (boundary_bytes boundary b hb).2.2
  · exact h3 b hb

/-- The server finds the boundary of the body. -/
theorem head_contentType {p : Platform} (processor : ExchangeProcessor p) (boundary : Boundary) (token url : CString)
    (randomBytes body host : Bytes) : (Http1.valuesOf (ascii "Content-Type")
      (HttpClientBasic.readFields processor.httpClient (composedRequest p boundary body url token randomBytes)
        (exchangeHeaders boundary token randomBytes) host)).head? = some (multipartMixedText boundary) := by
  have hhost : Http1.same (ascii "Host") (ascii "Content-Type") = false := by decide
  have htype : Http1.same (CString.lit "Content-Type").bytes (ascii "Content-Type") = true := by decide
  have htext := CString.ofBuffer_bytes (nul_not_mem_of_isText (multipartMixedText_text boundary))
  simp only [HttpClientBasic.readFields, exchangeHeaders, List.map_cons, List.cons_append, Http1.valuesOf,
    List.filter_cons, hhost, htype, if_true, Bool.false_eq_true, if_false, List.head?_cons, htext,
    trim_multipartMixedText]

/-! ## The body -/

theorem readableMembers_field (name : CString) (value : Option CString) : Json.ReadableMembers (field name value) := by
  cases value with
  | none => trivial
  | some s => exact ⟨trivial, trivial⟩

theorem readableMembers_child (name : CString) {value : Option Json} (h : ∀ json ∈ value, Json.Readable json) :
    Json.ReadableMembers (child name value) := by
  cases value with
  | none => trivial
  | some json => exact ⟨h json rfl, trivial⟩

/-- Details that a user gives are to be printed as JSON. -/
def ReadableDetails : Item → Prop
  | .customData c => ∀ details ∈ c.details, Json.Readable details
  | _ => True

theorem readable_metaTree {item : Item} (h : ReadableDetails item) : Json.Readable (metaTree item) := by
  have hdetails : ∀ json ∈ detailsTree item, Json.Readable json := by
    intro json hjson
    cases item with
    | event e => cases hjson
    | dataSourceConfiguration c => cases hjson
    | timeseries t =>
      cases hjson
      exact readableMembers_field _ _
    | file f =>
      cases hjson
      exact readableMembers_append (readableMembers_append (readableMembers_field _ _) (readableMembers_field _ _))
        (readableMembers_field _ _)
    | customData c => exact h json hjson
  have hpayload : Json.Readable (metaPayloadTree item) :=
    readableMembers_append (readableMembers_append (readableMembers_field _ _) (readableMembers_field _ _))
      (readableMembers_child _ hdetails)
  refine readableMembers_append (readableMembers_append (readableMembers_field _ _) (readableMembers_field _ _))
    (readableMembers_child _ fun json hjson => ?_)
  cases hjson
  exact hpayload

/-- The item does not get mixed up with the framing of its request. -/
structure Separable (turn : Turn) (boundary : Boundary) (item : ItemRef) : Prop where
  framed : ∀ t, tupleOf (turn.tuple item) boundary item.item = some t → Framed boundary t
  details : ReadableDetails item.item

theorem tupleOf_boundary {env : TupleEnv} {boundary : Boundary} {item : Item} {t : Tuple}
    (h : tupleOf env boundary item = some t) : t.boundary = boundary := by
  unfold tupleOf at h
  split at h
  iterate 4
    cases h
    rfl
  split at h
  · cases h
  · cases h
    rfl

/-- The two parts of a tuple that the encoder could write. -/
theorem contents_of_tupleOf {turn : Turn} {boundary : Boundary} {item : ItemRef} (hvalid : item.item.validate = .ok ())
    {t : Tuple} (ht : tupleOf (turn.tuple item) boundary item.item = some t) {contents : List (Bytes × Bytes)}
    (hcontents : t.contents = .ok contents) :
    contents = [(contentTypeMetaJson, (metaTree item.item).print),
      (payloadTypeText item.item, payloadText (turn.file item).content item.item)] := by
  obtain ⟨json, hjson, hcontents⟩ := bind_eq_ok hcontents
  obtain ⟨payload, hpayload, hcontents⟩ := bind_eq_ok hcontents
  cases hcontents
  have hmeta {json : Bytes} (h : (turn.tuple item).metaJson = .ok json) : json = (metaTree item.item).print := by
    obtain ⟨-, -, h⟩ := bind_eq_ok h
    rw [jsonFromItemMeta_eq hvalid] at h
    exact (JsonUtil.toString_eq_ok.1 h).2
  have hprinted {payload : Bytes} {tree : Json} (htree : payloadTree item.item = some tree)
      (h : (turn.tuple item).payloadJson = .ok payload) : payload = tree.print := by
    obtain ⟨-, -, h⟩ := bind_eq_ok h
    rw [jsonFromItemPayload_eq hvalid htree] at h
    exact (JsonUtil.toString_eq_ok.1 h).2
  obtain ⟨key, item⟩ := item
  cases item with
  | event e =>
    cases ht
    rw [hmeta hjson, hprinted rfl hpayload]
    rfl
  | dataSourceConfiguration c =>
    cases ht
    rw [hmeta hjson, hprinted rfl hpayload]
    rfl
  | timeseries t =>
    cases ht
    rw [hmeta hjson, hprinted rfl hpayload]
    rfl
  | file f =>
    cases ht
    rw [hmeta hjson, ← Except.ok.inj hpayload]
    rfl
  | customData c =>
    obtain ⟨⟨buffer, hbuffer⟩, ⟨type, htype⟩, -⟩ := CustomData.of_validate hvalid
    obtain ⟨version, _, contentType, cType, size, details, readable⟩ := c
    subst hbuffer htype
    cases ht
    rw [hmeta hjson, ← Except.ok.inj hpayload]
    rfl

/-- The server reads the items of a body, each with its contents. -/
theorem splitNested_body {turn : Turn} {send : Result Nat} {boundary : Boundary} {items : List ItemRef} {body : Bytes}
    (hbody : IsBodyOf (turn.round send) boundary items body) (hvalid : ∀ item ∈ items, item.item.validate = .ok ())
    (hseparable : ∀ item ∈ items, Separable turn boundary item) :
    ∃ parts, Mime.splitNested boundary.bytes body = some parts ∧ parts.mapM receivedItem =
      some (items.map fun item => itemContents (turn.file item).content item.item) := by
  obtain ⟨texts, htexts, rfl⟩ := hbody.tuples
  obtain ⟨nested, hnested, hframes, rfl⟩ : ∃ nested : List Mime.Nested,
      List.Forall₂ (fun item n => n.parts = [(contentTypeMetaJson, (metaTree item.item).print),
        (payloadTypeText item.item, payloadText (turn.file item).content item.item)]) items nested ∧
      (∀ n ∈ nested, n.Frames boundary.bytes) ∧
        texts = nested.map fun n => Mime.delimited boundary.bytes (Mime.typedPart n.type n.body) := by
    clear hbody
    induction htexts with
    | nil => exact ⟨[], .nil, fun _ hn => (by cases hn), rfl⟩
    | @cons item text items texts hitem _ ih =>
      obtain ⟨nested, hall, hframes, rfl⟩ := ih (fun i hi => hvalid i (List.mem_cons_of_mem _ hi))
        fun i hi => hseparable i (List.mem_cons_of_mem _ hi)
      obtain ⟨t, ht, htext⟩ := hitem
      obtain ⟨sub, contents, hcontents, hframe, rfl⟩ :=
        tuple_nested (tupleOf_boundary ht) ((hseparable item List.mem_cons_self).framed t ht) htext
      have hparts := contents_of_tupleOf (hvalid item List.mem_cons_self) ht hcontents
      refine ⟨nestedOf sub contents :: nested, .cons hparts hall, fun n hn => ?_, rfl⟩
      rcases List.mem_cons.1 hn with rfl | hn
      · exact hframe
      · exact hframes n hn
  refine ⟨nested.map Mime.Nested.parts, ?_, ?_⟩
  · have h := Mime.splitNested_typedBody (cr_not_mem boundary) hframes []
    rwa [List.append_nil, ← flatten_close] at h
  · clear hframes hbody htexts
    induction hnested with
    | nil => rfl
    | @cons item n items nested hparts _ ih =>
      have hread := Json.read_print (readable_metaTree (hseparable item List.mem_cons_self).details)
      have hitem : receivedItem n.parts = some (itemContents (turn.file item).content item.item) := by
        rw [hparts]
        simp only [receivedItem, hread, Option.bind_eq_bind, Option.bind_some, if_true]
        rfl
      rw [List.map_cons, List.mapM_cons, hitem, ih (fun i hi => hvalid i (List.mem_cons_of_mem _ hi))
        fun i hi => hseparable i (List.mem_cons_of_mem _ hi)]
      rfl

end MindConnect
