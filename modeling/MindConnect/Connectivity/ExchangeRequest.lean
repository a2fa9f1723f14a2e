import MindConnect.Connectivity.CorrelationId
import MindConnect.Connectivity.PrepareBody
import MindConnect.Core.RequestOnWire

/-!
# The request of an exchange: `connectivity_processor.c`

| here | there |
| --- | --- |
| `ExchangeProcessor` | what `connectivity_processor_exchange` takes from `connectivity_processor_t` |
| `addHeader` | `mcl_http_request_add_header` (`http_request.c:57`) as one of the steps |
| `addMultipartMixedContentTypeHeader` | `_add_multipart_mixed_content_type_header` (`connectivity_processor.c:523`) |
| `addAuthorizationHeader` | `_add_authorization_header` (`:561`) |
| `addHttpHeadersForExchange` | `_add_http_headers_for_exchange` (`:499`) |
| `startRequest`, `composeRequest` | `connectivity_processor_exchange` (`:111`) from `mcl_http_request_initialize` on |
| `sendExchangeRequest` | the call of `mcl_http_client_send` and the status of the response |
| `evaluateResponseForExchange` | `_evaluate_response_for_exchange` (`:582`) |

A `Turn` is what memory, the random generator, the socket and the server do in one turn of the exchange loop. `none` is
a memory access outside an object.
-/

namespace MindConnect

open PartialIO
open HttpClientBasic (Platform SocketEnvironment Client addHeaders fieldOf httpRequestAddHeader mclHttpClientSend)

/-! ## The code -/

structure ExchangeProcessor (p : Platform) where
  accessToken : Option CString
  exchangeUrl : Option CString
  httpClient : Client
  maxHttpPayloadSize : BitVec p.sizeWidth

/-- Which allocations for one request are granted, for each header that of its line and that of its node. -/
structure RequestMemory where
  request : Bool
  headerList : Bool
  url : Bool
  contentType : Bool
  bearer : Bool
  line : Nat → Bool
  node : Nat → Bool

/-- What the callees and the connection come to. The random bytes are those of the boundaries and of the correlation
id. -/
structure Turn where
  boundaryBytes : Result {bytes : Bytes // bytes.length = boundaryLength}
  bodyAllocated : Bool
  subBoundaryBytes : ItemRef → Result {bytes : Bytes // bytes.length = boundaryLength}
  metaMemory : ItemRef → Result Unit
  payloadMemory : ItemRef → Result Unit
  file : ItemRef → FileStream
  requestMemory : RequestMemory
  correlationId : {buffer : Bytes // buffer.length = CorrelationId.correlationIdBufferLength}
  randomBytes : Result {bytes : Bytes // bytes.length = CorrelationId.correlationIdByteLength}
  socket : SocketEnvironment
  sends : Nat → Except McError Nat
  source : Source UInt8 McError
  responseMemory : HttpClientBasic.Memory

def Turn.boundary (turn : Turn) : Result Boundary := generateBoundary turn.boundaryBytes

def Turn.subBoundary (turn : Turn) (item : ItemRef) : Result Boundary := generateBoundary (turn.subBoundaryBytes item)

/-- What the callees of `_add_item_to_buffer` answer for the item. -/
def Turn.tuple (turn : Turn) (item : ItemRef) : TupleEnv :=
  ⟨turn.subBoundary item, (turn.metaMemory item).bind fun _ => jsonFromItemMeta item.item,
    (turn.payloadMemory item).bind fun _ => jsonFromItemPayload item.item, turn.file item⟩

/-- The turn as the exchange of a store sees it, with the answer to its request. -/
def Turn.round (turn : Turn) (send : Result Nat) : RoundEnv := ⟨turn.boundary, turn.bodyAllocated, turn.tuple, send⟩

def granted (allocated : Bool) : Result Unit := if allocated then .ok () else .error .outOfMemory

def addHeader (m : RequestMemory) (index : Nat) (header : CursorList CString) (name value : CString) :
    Result (CursorList CString) :=
  match httpRequestAddHeader (m.line index) (m.node index) header name value with
  | (.ok (), header) => .ok header
  | (.error e, _) => .error e

def contentTypeMultipartMixed : CString := .lit "multipart/mixed"

def multipartMixedText (boundary : Boundary) : Bytes :=
  contentTypeMultipartMixed.bytes ++ (ascii ";boundary=" ++ (boundary.bytes ++ ascii ";charset=utf-8"))

def addMultipartMixedContentTypeHeader (m : RequestMemory) (header : CursorList CString) (boundary : Boundary) :
    Result (CursorList CString) := do
  let constantPartLength := 24
  let headerValueLength := contentTypeMultipartMixed.length + boundary.bytes.length + constantPartLength
  granted m.contentType
  let headerValue ← stringUtilSnprintf (headerValueLength + 1) (multipartMixedText boundary)
  addHeader m 0 header (.lit "Content-Type") (.ofBuffer headerValue)

def addAuthorizationHeader (m : RequestMemory) (header : CursorList CString) (accessToken : Option CString) :
    Result (CursorList CString) :=
  match accessToken with
  | none => .error .triggeredWithNull
  | some accessToken => do
    granted m.bearer
    addHeader m 2 header (.lit "Authorization") (.ofBuffer (bearerFormat accessToken))

def addHttpHeadersForExchange (m : RequestMemory) (header : CursorList CString) (accessToken : Option CString)
    (boundary : Boundary) : Result (CursorList CString) := do
  let header ← addMultipartMixedContentTypeHeader m header boundary
  let header ← addHeader m 1 header (.lit "Accept") (.lit "application/json")
  addAuthorizationHeader m header accessToken

section
variable {p : Platform} (processor : ExchangeProcessor p) (turn : Turn) (boundary : Boundary) (body : Bytes)

/-- The URL and the header lines before the correlation id. -/
def startRequest : Result (CString × CursorList CString) := do
  granted turn.requestMemory.request
  granted turn.requestMemory.headerList
  match processor.exchangeUrl with
  | none => .error .triggeredWithNull
  | some url => do
    granted turn.requestMemory.url
    let header ← addHttpHeadersForExchange turn.requestMemory .empty processor.accessToken boundary
    return (url, header)

/-- The size of the body is a `mcl_size_t`. -/
def exchangeRequest (p : Platform) (body : Bytes) (url : CString) (header : CursorList CString) :
    HttpClientBasic.Request p where
  header := header
  payload := some body
  payloadSize := body.length % 2 ^ p.sizeWidth
  uri := some url
  method := .post
  streamCallback := none
  payload_readable := by
    rintro _ ⟨⟩
    exact Nat.mod_le _ _
  size_in_range := Nat.mod_lt _ (Nat.two_pow_pos _)

def composeRequest : Option (Result (HttpClientBasic.Request p)) :=
  match startRequest processor turn boundary with
  | .error e => some (.error e)
  | .ok (url, header) => do
    let (code, id) ← CorrelationId.Connectivity.generateCorrelationIdString turn.correlationId.val
      (turn.randomBytes.map fun bytes => bytes.val)
    return do
      code
      let header ← addHeader turn.requestMemory 3 header (.lit "Correlation-ID") (.ofBuffer id.bytes)
      return exchangeRequest p body url header

/-- The status that was answered or why there is none, and what has been sent. A response that is not there cannot be
asked for its status. -/
def sendExchangeRequest : Option (Result Nat × Bytes) := do
  match ← composeRequest processor turn boundary body with
  | .error e => return (.error e, [])
  | .ok request =>
    match ← mclHttpClientSend turn.responseMemory turn.socket processor.httpClient request ⟨[], turn.sends⟩
      turn.source with
    | ((.error e, _), sink) => return (.error e, sink.sent)
    | ((.ok (), none), _) => none
    | ((.ok (), some response), sink) => return (.ok response.statusCode, sink.sent)

end

def evaluateResponseForExchange (statusCode : Nat) : Result Unit :=
  if statusCode = 200 then .ok () else httpResponseGetStatus statusCode

theorem evaluateResponseForExchange_eq (statusCode : Nat) :
    evaluateResponseForExchange statusCode = httpResponseGetStatus statusCode := by
  rw [evaluateResponseForExchange, ite_eq_right_iff]
  rintro rfl
  rfl

/-! ## What the request says -/

theorem addHeader_ok {m : RequestMemory} {index : Nat} {header header' : CursorList CString} {name value : CString}
    (h : addHeader m index header name value = .ok header') :
    header' = (httpRequestAddHeader true true header name value).2 := by
  unfold addHeader httpRequestAddHeader at h
  unfold httpRequestAddHeader
  cases hline : m.line index with
  | false =>
    simp only [hline, if_neg Bool.false_ne_true] at h
    cases h
  | true =>
    cases hprint : stringUtilSnprintf (name.length + value.length + 2 + 1)
        (name.bytes ++ (ascii ": " ++ value.bytes)) with
    | error e =>
      simp only [hline, if_true, hprint] at h
      cases h
    | ok line =>
      cases hnode : m.node index with
      | false =>
        simp only [hline, if_true, hprint, hnode, if_neg Bool.false_ne_true] at h
        cases h
      | true =>
        simp only [hline, if_true, hprint, hnode] at h
        exact (Except.ok.inj h).symm

theorem boundary_text (boundary : Boundary) : Http1.isText boundary.bytes = true := by
  have hall : ∀ b ∈ boundaryCharacters, (b != 0 && b != 10 && b != 13) = true := by decide
  exact List.all_eq_true.2 fun b hb => hall b (boundary.picked b hb)

theorem isText_append {s t : Bytes} (hs : Http1.isText s = true) (ht : Http1.isText t = true) :
    Http1.isText (s ++ t) = true := by
  rw [Http1.isText, List.all_append, Bool.and_eq_true]
  exact ⟨hs, ht⟩

theorem nul_not_mem_of_isText {s : Bytes} (h : Http1.isText s = true) : 0 ∉ s := by
  intro hmem
  have := List.all_eq_true.1 h 0 hmem
  cases this

theorem multipartMixedText_text (boundary : Boundary) : Http1.isText (multipartMixedText boundary) = true :=
  isText_append (by decide) (isText_append (by decide) (isText_append (boundary_text boundary) (by decide)))

theorem bearerFormat_nul_free (token : CString) : 0 ∉ bearerFormat token := by
  rw [bearerFormat, List.mem_append, not_or]
  exact ⟨by decide, token.nul_free⟩

/-- The header of the request, with the digits of the random bytes. -/
def exchangeHeaders (boundary : Boundary) (accessToken : CString) (randomBytes : Bytes) : List (CString × CString) :=
  [(.lit "Content-Type", .ofBuffer (multipartMixedText boundary)), (.lit "Accept", .lit "application/json"),
    (.lit "Authorization", .ofBuffer (bearerFormat accessToken)),
    (.lit "Correlation-ID", .ofBuffer (Hex.ofBytes randomBytes ++ [0]))]

theorem addHttpHeadersForExchange_ok {m : RequestMemory} {accessToken : Option CString} {boundary : Boundary}
    {header : CursorList CString} (h : addHttpHeadersForExchange m .empty accessToken boundary = .ok header) :
    ∃ token, accessToken = some token ∧ header = addHeaders ((exchangeHeaders boundary token []).take 3) := by
  obtain ⟨header₁, h₁, h⟩ := bind_eq_ok h
  obtain ⟨header₂, h₂, h⟩ := bind_eq_ok h
  obtain ⟨-, -, h₁⟩ := bind_eq_ok h₁
  obtain ⟨value, hvalue, h₁⟩ := bind_eq_ok h₁
  have hlength : (multipartMixedText boundary).length <
      contentTypeMultipartMixed.length + boundary.bytes.length + 24 + 1 := by
    simp only [multipartMixedText, List.length_append]
    have h10 : (ascii ";boundary=").length = 10 := by decide
    have h14 : (ascii ";charset=utf-8").length = 14 := by decide
    have h15 : contentTypeMultipartMixed.length = contentTypeMultipartMixed.bytes.length := rfl
    omega
  have hne : multipartMixedText boundary ≠ [] := List.append_ne_nil_of_left_ne_nil (by decide) _
  rw [stringUtilSnprintf_ok hne hlength] at hvalue
  cases hvalue
  cases accessToken with
  | none => cases h
  | some token =>
    obtain ⟨-, -, h⟩ := bind_eq_ok h
    refine ⟨token, rfl, ?_⟩
    rw [addHeader_ok h, addHeader_ok h₂, addHeader_ok h₁]
    rfl

theorem connectivity_generateCorrelationIdString {buffer randomBytes : Bytes}
    (hbuffer : buffer.length = CorrelationId.correlationIdBufferLength)
    (hrandom : randomBytes.length = CorrelationId.correlationIdByteLength) :
    ∃ id, CorrelationId.Connectivity.generateCorrelationIdString buffer (.ok randomBytes) = some (.ok (), id) ∧
      id.bytes = Hex.ofBytes randomBytes ++ [0] := by
  have hfits : CorrelationId.correlationIdByteLength + randomBytes.length ≤ buffer.length := by
    rw [hrandom, hbuffer]
    decide
  have hwrite := Bytes.write_eq_some hfits
  obtain ⟨id, hloop, hid⟩ := CorrelationId.expandLoop_eq hrandom
    (CorrelationId.expanded_start hbuffer hrandom hwrite) (Nat.zero_add _)
  refine ⟨id, ?_, hid.printed.eq hrandom⟩
  simp only [CorrelationId.Connectivity.generateCorrelationIdString, hwrite, Option.bind_eq_bind, Option.bind_some,
    hloop]

/-- The request if all allocations are granted and random bytes are there. -/
def composedRequest (p : Platform) (boundary : Boundary) (body : Bytes) (url accessToken : CString)
    (randomBytes : Bytes) : HttpClientBasic.Request p :=
  exchangeRequest p body url (addHeaders (exchangeHeaders boundary accessToken randomBytes))

theorem composeRequest_spec {p : Platform} (processor : ExchangeProcessor p) (turn : Turn) (boundary : Boundary)
    (body : Bytes) : ∃ r, composeRequest processor turn boundary body = some r ∧
      ∀ request, r = .ok request → ∃ token url randomBytes, processor.accessToken = some token ∧
        processor.exchangeUrl = some url ∧ request = composedRequest p boundary body url token randomBytes := by
  unfold composeRequest
  cases hstart : startRequest processor turn boundary with
  | error e => exact ⟨_, rfl, fun _ h => by cases h⟩
  | ok start =>
    obtain ⟨-, -, hstart⟩ := bind_eq_ok hstart
    obtain ⟨-, -, hstart⟩ := bind_eq_ok hstart
    cases hurl : processor.exchangeUrl with
    | none =>
      rw [hurl] at hstart
      cases hstart
    | some url =>
      rw [hurl] at hstart
      obtain ⟨-, -, hstart⟩ := bind_eq_ok hstart
      obtain ⟨header, hheader, hstart⟩ := bind_eq_ok hstart
      cases hstart
      obtain ⟨token, htoken, rfl⟩ := addHttpHeadersForExchange_ok hheader
      cases hrandom : turn.randomBytes with
      | error e => exact ⟨_, rfl, fun _ h => by cases h⟩
      | ok randomBytes =>
        obtain ⟨id, hid, hbytes⟩ := connectivity_generateCorrelationIdString turn.correlationId.2 randomBytes.2
        simp only [Except.map, hid, Option.bind_eq_bind, Option.bind_some, hbytes]
        refine ⟨_, rfl, fun request h => ⟨token, url, randomBytes.val, htoken, rfl, ?_⟩⟩
        obtain ⟨-, -, h⟩ := bind_eq_ok h
        obtain ⟨header, hadd, h⟩ := bind_eq_ok h
        cases h
        rw [addHeader_ok hadd]
        rfl

end MindConnect
