import MindConnect.Core.ChunkedRoundTrip

/-!
# A request is read as it was given

The bytes of a request are a request line, the fields with `Host` first and `User-Agent` and the framing last,
an empty line and the body. A parser of HTTP/1.1 finds exactly this request in them, and nothing behind it.
-/

namespace MindConnect.HttpClientBasic

open PartialIO JsonUtil

/-! ## What is emitted -/

theorem liftM_emits {β : Type} {r : Result β} {b : β} (h : r = .ok b) : Emits (liftM r : Send β) [] b := by
  subst h
  exact Emits.pure b

theorem sendHeader_emits (name : CString) (value : Bytes) :
    Emits (sendHeader name value) (Http1.fieldLine (name.bytes, value) ++ crlf) () := by
  apply Emits.of_eq ((sendAll_emits name.bytes).bind ((sendAll_emits (ascii ": ")).bind
    ((sendAll_emits value).bind (sendAll_emits crlf))))
  simp only [Http1.fieldLine, List.append_assoc]

theorem sendHeaderLoop_emits (pre suf : List CString) :
    Emits (sendHeaderLoop suf.length (CursorList.split pre suf))
      (suf.flatMap fun header => header.bytes ++ crlf) () := by
  induction suf generalizing pre with
  | nil => exact Emits.pure ()
  | cons header suf ih =>
    have hget : (CursorList.split (pre ++ [header]) suf).seq[pre.length]? = some header := by
      simp [CursorList.split]
    rw [List.length_cons, sendHeaderLoop]
    simp only [CursorList.next_split_cons, hget]
    apply Emits.of_eq ((sendAll_emits header.bytes).bind ((sendAll_emits crlf).bind (ih (pre ++ [header]))))
    rw [List.flatMap_cons, List.append_assoc]

/-- Every header line, wherever the cursor was. -/
theorem sendHeaderList_emits (list : CursorList CString) :
    Emits (sendHeaderList list) (list.seq.flatMap fun header => header.bytes ++ crlf) () := by
  rw [sendHeaderList, CursorList.reset_eq_split]
  exact sendHeaderLoop_emits [] list.seq

/-- The value of the `Host` field. -/
def hostText (host : Bytes) (port : UInt16) : Bytes :=
  host ++ if port ≠ tlsDefaultPort then ascii ":" ++ numberText port.toNat else []

theorem sendPort_emits (port : UInt16) :
    Emits (sendPort port) (if port ≠ tlsDefaultPort then ascii ":" ++ numberText port.toNat else []) () := by
  have hlt : port.toNat < 10 ^ 5 := Nat.lt_of_lt_of_le (UInt16.toNat_lt port) (by decide)
  have hlen := length_numberText_le (by decide) hlt
  have hsnprintf : stringUtilSnprintf portStringBufferSize (numberText port.toNat) = .ok (numberText port.toNat) :=
    stringUtilSnprintf_ok (numberText_ne_nil _) (Nat.lt_succ_of_le hlen)
  apply Emits.ite
  · exact (liftM_emits hsnprintf).bind ((sendAll_emits (ascii ":")).bind (sendAll_emits (numberText port.toNat)))
  · exact Emits.pure ()

/-- The method of a request that the client can send. -/
def methodText : Method → Bytes
  | .get => ascii "GET"
  | .put => ascii "PUT"
  | .post => ascii "POST"
  | _ => []

/-- The URI in its parts. -/
structure UriParts (uri : CString) (host path : Bytes) : Prop where
  bytes : uri.bytes = httpsPrefix.bytes ++ (host ++ path)
  no_slash : 47 ∉ host
  slash : path.head? = some 47

theorem UriParts.hostname {uri : CString} {host path : Bytes} (h : UriParts uri host path) :
    hostnameOf uri = host := by
  obtain ⟨rest, rfl⟩ : ∃ rest, path = 47 :: rest := List.head?_eq_some_iff.1 h.slash
  have hdrop : uri.bytes.drop httpsPrefix.length = host ++ 47 :: rest := by
    rw [h.bytes]
    exact List.drop_left
  rw [hostnameOf, hdrop, List.takeWhile_append_of_pos]
  · rw [List.takeWhile_cons_of_neg (by decide), List.append_nil]
  · intro b hb
    refine bne_iff_ne.2 ?_
    rintro rfl
    exact h.no_slash hb

theorem UriParts.path {uri : CString} {host path : Bytes} (h : UriParts uri host path) :
    uri.bytes.drop (httpsPrefix.length + host.length) = path := by
  rw [h.bytes, ← List.append_assoc]
  exact List.drop_left' (List.length_append)

theorem sendMethod_emits {method : Method} (h : method = .get ∨ method = .put ∨ method = .post) :
    Emits (sendMethod method) (methodText method ++ ascii " ") () := by
  rcases h with rfl | rfl | rfl
  · exact sendAll_emits getString
  · exact sendAll_emits putString
  · exact sendAll_emits postString

structure SocketEnvironment.Working (env : SocketEnvironment) : Prop where
  initialized : env.initialized = .ok ()
  timeout : env.timeout = .ok ()
  certificateChain : env.certificateChain = .ok ()
  opened : env.opened = .ok ()
  hostnameAllocated : env.hostnameAllocated = true
  connect : ∀ host port, env.connect host port = .ok ()

theorem startHttp_emits {env : SocketEnvironment} (henv : env.Working) (client : Client) {method : Method}
    (hmethod : method = .get ∨ method = .put ∨ method = .post) {uri : CString} {host path : Bytes}
    (huri : UriParts uri host path) :
    Emits (startHttp env client method uri)
      (methodText method ++ (ascii " " ++ (path ++ (ascii " HTTP/1.1" ++ (crlf ++
        (Http1.fieldLine (ascii "Host", hostText host client.port) ++ crlf)))))) () := by
  unfold startHttp
  simp only [huri.hostname, huri.path, henv.hostnameAllocated, if_true]
  apply Emits.of_eq ((liftM_emits (henv.connect host client.port)).bind
    ((sendMethod_emits hmethod).bind ((sendAll_emits path).bind ((sendAll_emits httpString).bind
    ((sendAll_emits (ascii "Host: ")).bind ((sendAll_emits host).bind
    ((sendPort_emits client.port).bind (sendAll_emits crlf))))))))
  have h1 : httpString = ascii " HTTP/1.1" ++ crlf := by decide
  have h2 : ascii "Host: " = ascii "Host" ++ ascii ": " := by decide
  simp only [h1, h2, Http1.fieldLine, hostText, List.nil_append, List.append_assoc]

/-- The framing fields of a request with a body. -/
def framingFields (payloadSize : Nat) : List (Bytes × Bytes) :=
  if payloadSize ≠ 0 then [(ascii "Content-Length", numberText payloadSize)]
  else [(ascii "Transfer-Encoding", ascii "chunked")]

/-- Field lines, one after another. -/
def fieldsText (fields : List (Bytes × Bytes)) : Bytes := fields.flatMap fun field => Http1.fieldLine field ++ crlf

theorem fieldsText_append (fields fields' : List (Bytes × Bytes)) :
    fieldsText (fields ++ fields') = fieldsText fields ++ fieldsText fields' := List.flatMap_append

theorem fieldsText_cons (field : Bytes × Bytes) (fields : List (Bytes × Bytes)) :
    fieldsText (field :: fields) = fieldsText [field] ++ fieldsText fields := fieldsText_append [field] fields

theorem fieldsText_singleton (field : Bytes × Bytes) : fieldsText [field] = Http1.fieldLine field ++ crlf :=
  List.append_nil _

theorem sendFraming_emits {p : Platform} {payloadSize : Nat} (h : payloadSize < 2 ^ p.sizeWidth) :
    Emits (sendFraming p payloadSize) (fieldsText (framingFields payloadSize)) () := by
  have hpos : 0 < p.sizeMaxText.length := Nat.lt_of_lt_of_le (by decide) (ten_le_sizeMaxText p)
  have hlen := length_numberText_le hpos (Nat.lt_of_lt_of_le h p.size_max_fits)
  have hsnprintf : stringUtilSnprintf p.contentLengthBufferSize (numberText payloadSize) =
      .ok (numberText payloadSize) :=
    stringUtilSnprintf_ok (numberText_ne_nil _) (Nat.lt_succ_of_le hlen)
  unfold sendFraming framingFields
  by_cases hzero : payloadSize ≠ 0
  · rw [if_pos hzero, if_pos hzero, fieldsText_singleton]
    exact (liftM_emits hsnprintf).bind (sendHeader_emits contentLengthHeader _)
  · rw [if_neg hzero, if_neg hzero, fieldsText_singleton]
    apply Emits.of_eq ((sendAll_emits transferEncodingHeader.bytes).bind (sendAll_emits crlf))
    decide

/-- A body the client can send: a buffer of some size, or a callback that keeps to its buffer and to the size, if there
is one. -/
structure Request.HasBody {p : Platform} (request : Request p) : Prop where
  given : request.payload ≠ none ∨ request.streamCallback ≠ none
  buffer : request.payload ≠ none → request.payloadSize ≠ 0
  callback : ∀ outputs ∈ request.streamCallback, request.payload = none →
    (∀ output ∈ outputs, output.length ≤ httpCallbackBufferSize) ∧
      (request.payloadSize ≠ 0 → (beforeEnd outputs).flatten.length = request.payloadSize)

/-- The bytes of the body. -/
def Request.body {p : Platform} (request : Request p) : Bytes :=
  match request.payload with
  | some payload => payload.take request.payloadSize
  | none => (beforeEnd (request.streamCallback.getD [])).flatten

/-- How a body of a payload size is written. -/
inductive BodyText : Nat → Bytes → Bytes → Prop
  | sized {body : Bytes} (hne : body.length ≠ 0) : BodyText body.length body body
  | chunked {text body : Bytes} (h : Http1.Chunked (fun _ => True) text body) : BodyText 0 text body

theorem sendBody_emits {p : Platform} {request : Request p} (h : request.HasBody) :
    ∃ text, Emits (sendBody request) text () ∧ BodyText request.payloadSize text request.body := by
  cases hpayload : request.payload with
  | some payload =>
    have hlen : (payload.take request.payloadSize).length = request.payloadSize :=
      List.length_take_of_le (request.payload_readable payload hpayload)
    have hne := h.buffer (by rw [hpayload]; exact Option.some_ne_none payload)
    refine ⟨payload.take request.payloadSize, ?_, ?_⟩
    · rw [sendBody, hpayload]
      exact sendAll_emits _
    · have := BodyText.sized (hlen ▸ hne)
      rw [hlen] at this
      simpa only [Request.body, hpayload] using this
  | none =>
    obtain ⟨outputs, houtputs⟩ := Option.ne_none_iff_exists'.1 (h.given.resolve_left (fun hp => hp hpayload))
    obtain ⟨hbuffer, htotal⟩ := h.callback outputs houtputs hpayload
    have hsend : sendBody request = sendWithCallback outputs request.payloadSize := by
      rw [sendBody, hpayload, houtputs]
      rfl
    have hbody : request.body = (beforeEnd outputs).flatten := by
      rw [Request.body, hpayload, houtputs]
      rfl
    rw [hsend, hbody]
    by_cases hzero : request.payloadSize = 0
    · rw [hzero]
      refine ⟨_, sendWithCallback_emits hbuffer, .chunked (chunked_chunkText (fun _ _ => trivial) ?_)⟩
      intro output houtput
      exact ⟨hbuffer output (List.takeWhile_subset _ houtput),
        bne_iff_ne.1 (List.mem_takeWhile_imp (p := (· != [])) houtput)⟩
    · have htotal := htotal hzero
      refine ⟨(beforeEnd outputs).flatten, ?_, ?_⟩
      · exact sendWithCallback_contentLength_emits hbuffer htotal hzero
      · rw [← htotal]
        exact .sized (htotal ▸ hzero)

/-! ## The whole request -/

/-- The header list after adding these headers. -/
def addHeaders (headers : List (CString × CString)) : CursorList CString :=
  headers.foldl (fun list header => (httpRequestAddHeader true true list header.1 header.2).2) CursorList.empty

def fieldOf (header : CString × CString) : Bytes × Bytes := (header.1.bytes, header.2.bytes)

theorem httpRequestAddHeader_seq (list : CursorList CString) (name value : CString) :
    ∃ line : CString, (httpRequestAddHeader true true list name value).2.seq = list.seq ++ [line] ∧
      line.bytes = Http1.fieldLine (name.bytes, value.bytes) := by
  have hnul : 0 ∉ Http1.fieldLine (name.bytes, value.bytes) := by
    simp only [Http1.fieldLine, List.mem_append, not_or]
    exact ⟨name.nul_free, by decide, value.nul_free⟩
  have hsnprintf : stringUtilSnprintf (name.length + value.length + 2 + 1)
      (Http1.fieldLine (name.bytes, value.bytes)) = .ok (Http1.fieldLine (name.bytes, value.bytes)) := by
    refine stringUtilSnprintf_ok (Http1.fieldLine_ne_nil _) ?_
    simp only [Http1.fieldLine, List.length_append, CString.length, show (ascii ": ").length = 2 from rfl]
    omega
  refine ⟨CString.ofBuffer (Http1.fieldLine (name.bytes, value.bytes)), ?_, CString.ofBuffer_bytes hnul⟩
  have hmatch : httpRequestAddHeader true true list name value =
      (.ok (), list.add (CString.ofBuffer (Http1.fieldLine (name.bytes, value.bytes)))) := by
    unfold httpRequestAddHeader
    simp only [if_true]
    have hline : stringUtilSnprintf (name.length + value.length + 2 + 1) (name.bytes ++ (ascii ": " ++ value.bytes)) =
        .ok (Http1.fieldLine (name.bytes, value.bytes)) := hsnprintf
    rw [hline]
  rw [hmatch, CursorList.seq_add]

theorem addHeaders_text (headers : List (CString × CString)) :
    (addHeaders headers).seq.flatMap (fun header => header.bytes ++ crlf) = fieldsText (headers.map fieldOf) := by
  have hfold : ∀ (headers : List (CString × CString)) (list : CursorList CString),
      (headers.foldl (fun list header => (httpRequestAddHeader true true list header.1 header.2).2) list).seq.flatMap
        (fun header => header.bytes ++ crlf) =
      list.seq.flatMap (fun header => header.bytes ++ crlf) ++ fieldsText (headers.map fieldOf) := by
    intro headers
    induction headers with
    | nil => exact fun list => (List.append_nil _).symm
    | cons header headers ih =>
      intro list
      obtain ⟨line, hseq, hline⟩ := httpRequestAddHeader_seq list header.1 header.2
      rw [List.foldl_cons, ih, hseq, List.flatMap_append, List.flatMap_singleton, hline, List.append_assoc]
      rfl
  exact hfold headers CursorList.empty

/-- The fields in the order they are sent. -/
def requestFields {p : Platform} (client : Client) (request : Request p) (headers : List (CString × CString))
    (host : Bytes) : List (Bytes × Bytes) :=
  (ascii "Host", hostText host client.port) ::
    (headers.map fieldOf ++ [(ascii "User-Agent", bytesOf client.userAgent)] ++
      if request.method ≠ .get then framingFields request.payloadSize else [])

theorem fieldsText_requestFields {p : Platform} (client : Client) (request : Request p)
    (headers : List (CString × CString)) (host : Bytes) :
    fieldsText (requestFields client request headers host) =
      fieldsText [(ascii "Host", hostText host client.port)] ++ (fieldsText (headers.map fieldOf) ++
        (fieldsText [(ascii "User-Agent", bytesOf client.userAgent)] ++
          fieldsText (if request.method ≠ .get then framingFields request.payloadSize else []))) := by
  rw [requestFields, fieldsText_cons, fieldsText_append, fieldsText_append, List.append_assoc]

theorem sendRequest_emits {p : Platform} {env : SocketEnvironment} (henv : env.Working) (client : Client)
    {request : Request p} (hmethod : request.method = .get ∨ request.method = .put ∨ request.method = .post)
    {uri : CString} {host path : Bytes} (huri : UriParts uri host path) {headers : List (CString × CString)}
    (hheader : request.header.seq = (addHeaders headers).seq) {text : Bytes}
    (hbody : if request.method ≠ .get then Emits (sendBody request) text () else text = []) :
    Emits (sendRequest env client request uri)
      (methodText request.method ++ (ascii " " ++ (path ++ ascii " HTTP/1.1")) ++ (crlf ++
        (fieldsText (requestFields client request headers host) ++ (crlf ++ text)))) () := by
  have hlist : Emits (sendHeaderList request.header) (fieldsText (headers.map fieldOf)) () := by
    have := sendHeaderList_emits request.header
    rwa [hheader, addHeaders_text] at this
  have hagent := sendHeader_emits userAgentHeader (bytesOf client.userAgent)
  rw [← fieldsText_singleton] at hagent
  have hstart := startHttp_emits henv client hmethod huri
  rw [← fieldsText_singleton] at hstart
  unfold sendRequest
  by_cases hget : request.method ≠ .get
  · rw [if_pos hget] at hbody
    simp only [if_pos hget]
    apply Emits.of_eq (hstart.bind (hlist.bind (hagent.bind ((sendFraming_emits request.size_in_range).bind
      ((sendAll_emits crlf).bind hbody)))))
    rw [fieldsText_requestFields, if_pos hget]
    simp only [List.append_assoc]
    rfl
  · rw [if_neg hget] at hbody
    simp only [if_neg hget]
    apply Emits.of_eq (hstart.bind (hlist.bind (hagent.bind ((sendAll_emits crlf).bind (Emits.pure ())))))
    rw [fieldsText_requestFields, if_neg hget, hbody]
    simp only [List.append_assoc]
    rfl

/-! ## What a parser finds -/

theorem length_le_fieldsText (fields : List (Bytes × Bytes)) : fields.length ≤ (fieldsText fields).length := by
  induction fields with
  | nil => exact Nat.le_refl 0
  | cons field fields ih =>
    have := List.length_pos_iff.2 (Http1.fieldLine_ne_nil field)
    rw [fieldsText_cons, fieldsText_singleton, List.length_append, List.length_append, List.length_cons]
    omega

/-- A request written line by line, whose body is what its framing says. -/
theorem parseRequest_append {method target : Bytes} {fields : List (Bytes × Bytes)} {text body : Bytes}
    (hmethod : Http1.isToken method = true) (hne : target ≠ []) (hspace : 32 ∉ target) (htext : Http1.isText target = true)
    (hfields : ∀ field ∈ fields, Http1.WellFormed field)
    (hbody : Http1.parseBody (fields.map fun field => (field.1, Http1.trim field.2)) text = some (body, [])) :
    Http1.parseRequest (method ++ (ascii " " ++ (target ++ ascii " HTTP/1.1")) ++
        (crlf ++ (fieldsText fields ++ (crlf ++ text)))) =
      some (⟨method, target, fields.map fun field => (field.1, Http1.trim field.2), body⟩, []) := by
  have hline : 13 ∉ method ++ (ascii " " ++ (target ++ ascii " HTTP/1.1")) := by
    simp only [List.mem_append, not_or]
    exact ⟨Http1.not_mem_of_isToken hmethod (by decide), by decide, Http1.not_mem_of_isText htext, by decide⟩
  have hlen : fields.length < (fieldsText fields ++ (crlf ++ text)).length + 1 := by
    have := length_le_fieldsText fields
    rw [List.length_append]
    omega
  have hparse : Http1.parseFields ((fieldsText fields ++ (crlf ++ text)).length + 1)
      (fieldsText fields ++ (crlf ++ text)) = _ := Http1.parseFields_append hfields hlen text
  have hsplit := Http1.splitLine_append hline (fieldsText fields ++ (crlf ++ text))
  rw [Http1.parseRequest]
  show (Http1.splitLine (_ ++ (Http1.crlf ++ _))).bind _ = _
  rw [hsplit, Option.bind_some]
  simp only [Http1.parseRequestLine_append hmethod hne hspace htext, bind, Option.bind, hparse, hbody]
  rfl

theorem not_mem_numberText (n : Nat) {b : UInt8} (hb : Scan.isDigit 10 b = false) : b ∉ numberText n := by
  intro hmem
  rw [isDigit_numberText hmem] at hb
  cases hb

theorem parseNumber_numberText (n : Nat) : Http1.parseNumber (numberText n) = some n := by
  have hall : (numberText n).all (Scan.isDigit 10) = true := List.all_eq_true.2 fun b hb => isDigit_numberText hb
  rw [Http1.parseNumber, bne_iff_ne.2 (numberText_ne_nil n), hall, value_numberText]
  rfl

theorem trim_numberText (n : Nat) : Http1.trim (numberText n) = numberText n := by
  apply Http1.trim_of_no_blank
  intro b hb
  apply Bool.eq_false_iff.2
  intro hblank
  simp only [Http1.isBlank, Bool.or_eq_true, beq_iff_eq] at hblank
  rcases hblank with rfl | rfl
  · exact not_mem_numberText n (by decide) hb
  · exact not_mem_numberText n (by decide) hb

/-- The framing fields name the framing of the text. -/
theorem parseBody_bodyText {fields : List (Bytes × Bytes)} (hfields : Http1.NoFraming fields) {payloadSize : Nat}
    {text body : Bytes} (h : BodyText payloadSize text body) :
    Http1.parseBody (fields ++ (framingFields payloadSize).map fun field => (field.1, Http1.trim field.2)) text =
      some (body, []) := by
  cases h with
  | sized hne =>
    have hframing : Http1.framing [(ascii "Content-Length", numberText text.length)] =
        .contentLength text.length := by
      have hlength : (Http1.valuesOf (ascii "Content-Length")
          [(ascii "Content-Length", numberText text.length)]).head?.bind Http1.parseNumber = some text.length := by
        show (some (numberText text.length)).bind Http1.parseNumber = some text.length
        rw [Option.bind_some, parseNumber_numberText]
      have hnone : Http1.valuesOf (ascii "Transfer-Encoding") [(ascii "Content-Length", numberText text.length)] = [] :=
        rfl
      simp only [Http1.framing, hnone, List.any_nil, Bool.false_eq_true, if_false, hlength]
    rw [framingFields, if_pos hne, Http1.parseBody, Http1.framing_append hfields, List.map_singleton, trim_numberText,
      hframing]
    simp only [Nat.lt_irrefl, if_false, List.take_length, List.drop_length]
  | chunked h =>
    have hframing : Http1.framing [(ascii "Transfer-Encoding", Http1.trim (ascii "chunked"))] = .chunked := by decide
    have hdecode := Http1.decodeChunked_append h (Nat.le_succ text.length) []
    rw [List.append_nil] at hdecode
    rw [framingFields, if_neg (by decide), Http1.parseBody, Http1.framing_append hfields, List.map_singleton, hframing]
    exact hdecode

/-! ## The round trip -/

/-- A request that can be written: the host is a name, the path has no space, everything stays on its line. -/
structure Writable (client : Client) (headers : List (CString × CString)) (host path : Bytes) : Prop where
  host_text : Http1.isText host = true
  host_no_blank : ∀ b ∈ host, Http1.isBlank b = false
  path_text : Http1.isText path = true
  path_no_space : 32 ∉ path
  wellFormed : ∀ header ∈ headers, Http1.WellFormed (fieldOf header)
  no_framing : Http1.NoFraming (headers.map fieldOf)
  user_agent : Http1.isText (bytesOf client.userAgent) = true

/-- The fields as they are read: values without the blanks around them. -/
def readFields {p : Platform} (client : Client) (request : Request p) (headers : List (CString × CString))
    (host : Bytes) : List (Bytes × Bytes) :=
  (ascii "Host", hostText host client.port) ::
    (headers.map (fun header => (header.1.bytes, Http1.trim header.2.bytes)) ++
      [(ascii "User-Agent", Http1.trim (bytesOf client.userAgent))] ++
      if request.method ≠ .get then framingFields request.payloadSize else [])

theorem numberText_text (n : Nat) : Http1.isText (numberText n) = true := by
  apply List.all_eq_true.2
  intro b hb
  have hdigit := isDigit_numberText hb
  simp only [Bool.and_eq_true, bne_iff_ne]
  refine ⟨⟨?_, ?_⟩, ?_⟩ <;> rintro rfl <;> cases hdigit

theorem isText_append {s t : Bytes} (hs : Http1.isText s = true) (ht : Http1.isText t = true) :
    Http1.isText (s ++ t) = true := by
  rw [Http1.isText, List.all_append, Bool.and_eq_true]
  exact ⟨hs, ht⟩

theorem hostText_text {host : Bytes} (h : Http1.isText host = true) (port : UInt16) :
    Http1.isText (hostText host port) = true := by
  apply isText_append h
  by_cases hport : port ≠ tlsDefaultPort
  · rw [if_pos hport]
    exact isText_append (by decide) (numberText_text _)
  · rw [if_neg hport]
    rfl

theorem trim_hostText {host : Bytes} (h : ∀ b ∈ host, Http1.isBlank b = false) (port : UInt16) :
    Http1.trim (hostText host port) = hostText host port := by
  apply Http1.trim_of_no_blank
  intro b hb
  rcases List.mem_append.1 hb with hb | hb
  · exact h b hb
  · by_cases hport : port ≠ tlsDefaultPort
    · rw [if_pos hport] at hb
      rcases List.mem_append.1 hb with hb | hb
      · obtain rfl := List.mem_singleton.1 hb
        decide
      · apply Bool.eq_false_iff.2
        intro hblank
        simp only [Http1.isBlank, Bool.or_eq_true, beq_iff_eq] at hblank
        rcases hblank with rfl | rfl <;> cases isDigit_numberText hb
    · rw [if_neg hport] at hb
      cases hb

theorem framingFields_wellFormed (payloadSize : Nat) : ∀ field ∈ framingFields payloadSize, Http1.WellFormed field := by
  unfold framingFields
  by_cases h : payloadSize ≠ 0
  · rw [if_pos h]
    rintro field hfield
    obtain rfl := List.mem_singleton.1 hfield
    exact ⟨show Http1.isToken (ascii "Content-Length") = true by decide, numberText_text payloadSize⟩
  · rw [if_neg h]
    rintro field hfield
    obtain rfl := List.mem_singleton.1 hfield
    exact ⟨by decide, by decide⟩

theorem trim_framingFields (payloadSize : Nat) :
    (framingFields payloadSize).map (fun field => (field.1, Http1.trim field.2)) = framingFields payloadSize := by
  unfold framingFields
  by_cases h : payloadSize ≠ 0
  · rw [if_pos h, List.map_singleton, trim_numberText]
  · rw [if_neg h]
    decide

section
variable {p : Platform} {client : Client} {headers : List (CString × CString)} {host path : Bytes}

theorem requestFields_wellFormed (request : Request p) (h : Writable client headers host path) :
    ∀ field ∈ requestFields client request headers host, Http1.WellFormed field := by
  intro field hfield
  rcases List.mem_cons.1 hfield with rfl | hfield
  · exact ⟨show Http1.isToken (ascii "Host") = true by decide, hostText_text h.host_text client.port⟩
  · rcases List.mem_append.1 hfield with hfield | hfield
    · rcases List.mem_append.1 hfield with hfield | hfield
      · obtain ⟨header, hheader, rfl⟩ := List.mem_map.1 hfield
        exact h.wellFormed header hheader
      · obtain rfl := List.mem_singleton.1 hfield
        exact ⟨show Http1.isToken (ascii "User-Agent") = true by decide, h.user_agent⟩
    · by_cases hget : request.method ≠ .get
      · rw [if_pos hget] at hfield
        exact framingFields_wellFormed _ field hfield
      · rw [if_neg hget] at hfield
        cases hfield

theorem requestFields_trim (request : Request p) (h : Writable client headers host path) :
    (requestFields client request headers host).map (fun field => (field.1, Http1.trim field.2)) =
      readFields client request headers host := by
  have hframing : (if request.method ≠ .get then framingFields request.payloadSize else []).map
      (fun field : Bytes × Bytes => (field.1, Http1.trim field.2)) =
      if request.method ≠ .get then framingFields request.payloadSize else [] := by
    by_cases hget : request.method ≠ .get
    · rw [if_pos hget, trim_framingFields]
    · rw [if_neg hget]
      rfl
  rw [requestFields, readFields, List.map_cons, List.map_append, List.map_append, List.map_singleton, List.map_map,
    hframing, trim_hostText h.host_no_blank]
  rfl

theorem readFields_noFraming (h : Writable client headers host path) :
    Http1.NoFraming ((ascii "Host", hostText host client.port) ::
      (headers.map (fun header => (header.1.bytes, Http1.trim header.2.bytes)) ++
        [(ascii "User-Agent", Http1.trim (bytesOf client.userAgent))])) := by
  intro field hfield
  rcases List.mem_cons.1 hfield with rfl | hfield
  · exact ⟨show Http1.same (ascii "Host") _ = false by decide, show Http1.same (ascii "Host") _ = false by decide⟩
  · rcases List.mem_append.1 hfield with hfield | hfield
    · obtain ⟨header, hheader, rfl⟩ := List.mem_map.1 hfield
      exact h.no_framing (fieldOf header) (List.mem_map_of_mem hheader)
    · obtain rfl := List.mem_singleton.1 hfield
      exact ⟨show Http1.same (ascii "User-Agent") _ = false by decide,
        show Http1.same (ascii "User-Agent") _ = false by decide⟩

end

theorem prepareSocket_ok {p : Platform} {env : SocketEnvironment} (henv : env.Working) {request : Request p}
    {uri : CString} {host path : Bytes} (hrequest : request.uri = some uri) (huri : UriParts uri host path)
    (hgiven : request.method ≠ .get → request.payload ≠ none ∨ request.streamCallback ≠ none)
    (hbuffer : request.payload ≠ none → request.payloadSize ≠ 0) : prepareSocket env request = .ok uri := by
  have hscheme : stringUtilStrncmp uri httpsPrefix httpsPrefix.length = .ok () := by
    rw [stringUtilStrncmp, huri.bytes, if_pos]
    rw [show httpsPrefix.length = httpsPrefix.bytes.length from rfl, List.take_left, List.take_length]
  have h1 : ¬ (request.method ≠ .get ∧ request.payload = none ∧ request.streamCallback = none) := by
    rintro ⟨hget, hpayload, hcallback⟩
    exact (hgiven hget).elim (fun h => h hpayload) fun h => h hcallback
  have h2 : ¬ (request.payload ≠ none ∧ request.payloadSize = 0) := fun h => hbuffer h.1 h.2
  rw [prepareSocket, if_neg h1, if_neg h2, hrequest]
  simp only [hscheme, henv.initialized, henv.timeout, henv.certificateChain, henv.opened]
  rfl

/-- What the client sends is one request, the one given, however the sends cut it up; then it waits for the
response. -/
theorem mclHttpClientSend_roundTrip {p : Platform} (m : Memory) {env : SocketEnvironment} (henv : env.Working)
    (client : Client) (request : Request p)
    (hmethod : request.method = .get ∨ request.method = .put ∨ request.method = .post)
    {uri : CString} {host path : Bytes} (hrequest : request.uri = some uri) (huri : UriParts uri host path)
    {headers : List (CString × CString)} (hheader : request.header.seq = (addHeaders headers).seq)
    (hwritable : Writable client headers host path)
    (hbuffer : request.payload ≠ none → request.payloadSize ≠ 0)
    (hbody : request.method ≠ .get → request.HasBody)
    (source : Source UInt8 McError) {sink : Sink UInt8 McError} (hsink : sink.Reliable) (hempty : sink.sent = []) :
    ∃ sink', mclHttpClientSend m env client request sink source =
        (getResponse p m source).map (fun r => (r.1, sink')) ∧
      Http1.parseRequest sink'.sent =
        some (⟨methodText request.method, path, readFields client request headers host,
          if request.method ≠ .get then request.body else []⟩, []) := by
  have hprepare := prepareSocket_ok henv hrequest huri (fun hget => (hbody hget).given) hbuffer
  obtain ⟨text, hemits, hparse⟩ : ∃ text,
      (if request.method ≠ .get then Emits (sendBody request) text () else text = []) ∧
      Http1.parseBody (readFields client request headers host) text =
        some (if request.method ≠ .get then request.body else [], []) := by
    have hnone := readFields_noFraming hwritable
    by_cases hget : request.method ≠ .get
    · obtain ⟨text, hemits, htext⟩ := sendBody_emits (hbody hget)
      refine ⟨text, by rwa [if_pos hget], ?_⟩
      have := parseBody_bodyText hnone htext
      rw [trim_framingFields] at this
      rwa [readFields, if_pos hget, if_pos hget]
    · refine ⟨[], by rw [if_neg hget], ?_⟩
      rw [readFields, if_neg hget, if_neg hget, List.append_nil, Http1.parseBody,
        Http1.framing_of_noFraming hnone]
  have hsend := sendRequest_emits henv client hmethod huri hheader hemits
  obtain ⟨sink', hsent, htext, -⟩ := hsend hsink
  refine ⟨sink', ?_, ?_⟩
  · simp only [mclHttpClientSend, hprepare, hsent]
  · rw [htext, hempty, List.nil_append, ← requestFields_trim request hwritable]
    refine parseRequest_append ?_ ?_ hwritable.path_no_space hwritable.path_text
      (requestFields_wellFormed request hwritable) ?_
    · rcases hmethod with h | h | h <;> rw [h] <;> decide
    · intro hpath
      have := huri.slash
      rw [hpath] at this
      cases this
    · rwa [requestFields_trim request hwritable]

def workingEnvironment : SocketEnvironment :=
  ⟨.ok (), .ok (), .ok (), .ok (), true, fun _ _ => .ok ()⟩

theorem workingEnvironment_working : workingEnvironment.Working :=
  ⟨rfl, rfl, rfl, rfl, rfl, fun _ _ => rfl⟩

def sampleUri : CString := .lit "https://h/p"

theorem sampleUri_parts : UriParts sampleUri (ascii "h") (ascii "/p") := ⟨by decide, by decide, by decide⟩

/-- A request with a body of one byte. -/
def sampleRequest (method : Method) (uri : CString) (headers : List (CString × CString)) : Request platform64 where
  header := addHeaders headers
  payload := some (ascii "x")
  payloadSize := 1
  uri := some uri
  method := method
  streamCallback := none
  payload_readable := by
    intro bytes h
    cases h
    decide
  size_in_range := by decide

def sampleClient : Client := ⟨some (.lit "agent"), 8443⟩
def sampleHeaders : List (CString × CString) := [(.lit "Accept", .lit "text/plain")]
def sampleSource : Source UInt8 McError := ⟨[], fun _ => 1, .networkReceiveFail⟩
def sampleSink : Sink UInt8 McError := ⟨[], fun _ => .ok 1⟩

theorem sampleRequest_roundTrip :
    ∃ sink', mclHttpClientSend freshMemory workingEnvironment sampleClient (sampleRequest .put sampleUri sampleHeaders) sampleSink
        sampleSource = (getResponse platform64 freshMemory sampleSource).map (fun r => (r.1, sink')) ∧
      Http1.parseRequest sink'.sent =
        some (⟨ascii "PUT", ascii "/p",
          readFields sampleClient (sampleRequest .put sampleUri sampleHeaders) sampleHeaders (ascii "h"), ascii "x"⟩, []) := by
  refine mclHttpClientSend_roundTrip freshMemory workingEnvironment_working sampleClient
    (sampleRequest .put sampleUri sampleHeaders) (.inr (.inl rfl)) rfl sampleUri_parts rfl ?_ (fun _ => by decide)
    (fun _ => ⟨.inl (by decide), fun _ => by decide, fun _ h => by cases h⟩) sampleSource (fun _ => ⟨1, rfl⟩) rfl
  refine ⟨by decide, by decide, by decide, by decide, ?_, ?_, by decide⟩
  · intro header h
    obtain rfl := List.mem_singleton.1 h
    exact ⟨by decide, by decide⟩
  · intro field h
    obtain rfl := List.mem_singleton.1 h
    exact ⟨by decide, by decide⟩

/-- What a `GET` puts on the wire, whatever the headers and the user agent are. -/
theorem sampleRequest_get_emits (client : Client) (headers : List (CString × CString)) {uri : CString}
    {host path : Bytes} (huri : UriParts uri host path) :
    Emits (sendRequest workingEnvironment client (sampleRequest .get uri headers) uri)
      (ascii "GET " ++ (path ++ ascii " HTTP/1.1") ++ (crlf ++
        (fieldsText (requestFields client (sampleRequest .get uri headers) headers host) ++ crlf))) () :=
  sendRequest_emits workingEnvironment_working client (.inl rfl) huri rfl rfl

theorem blankHost_parts : UriParts (.lit "https:// h/p") (ascii " h") (ascii "/p") := ⟨by decide, by decide, by decide⟩

/-- The fields that a parser finds in a `GET`, and the body. -/
def readGet (client : Client) (uri : CString) (headers : List (CString × CString))
    (fields : List (Bytes × Bytes)) (body : Bytes) : Prop :=
  ∃ text, Emits (sendRequest workingEnvironment client (sampleRequest .get uri headers) uri) text () ∧
    Http1.parseRequest text = some (⟨ascii "GET", ascii "/p", fields, body⟩, [])

/-- Not every request is read as given: a user agent can go on to a field of its own, a colon ends a name, blanks around
a value and a host are lost, and a `GET` leaves its body out. -/
theorem sampleRequest_not_as_given :
    readGet ⟨some (.lit "a\r\nX: y"), 443⟩ sampleUri []
      [(ascii "Host", ascii "h"), (ascii "User-Agent", ascii "a"), (ascii "X", ascii "y")] [] ∧
    readGet ⟨none, 443⟩ sampleUri [(.lit "X:Y", .lit " z ")]
      [(ascii "Host", ascii "h"), (ascii "X", ascii "Y:  z"), (ascii "User-Agent", [])] [] ∧
    readGet ⟨none, 443⟩ (.lit "https:// h/p") []
      [(ascii "Host", ascii "h"), (ascii "User-Agent", [])] [] ∧
    (sampleRequest .get sampleUri []).payload = some (ascii "x") := by
  refine ⟨⟨_, sampleRequest_get_emits _ _ sampleUri_parts, by decide⟩,
    ⟨_, sampleRequest_get_emits _ _ sampleUri_parts, by decide⟩,
    ⟨_, sampleRequest_get_emits _ _ blankHost_parts,
      by decide⟩, rfl⟩

end MindConnect.HttpClientBasic
