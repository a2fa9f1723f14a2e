import MindConnect.Core.CompleteResponse
import MindConnect.Core.RequestRoundTrip

/-!
# Requests on a connection that may fail

However the sends come out, what is on the wire is the request or a part of it that was cut off, and a parser does not
take that for a request (`mclHttpClientSend_sends`). The client goes on to the response only after all of it.
-/

namespace MindConnect.HttpClientBasic

open PartialIO JsonUtil

/-! ## What is written -/

theorem liftM_writes {β : Type} {r : Result β} {b : β} (h : ∀ c, r = .ok c → c = b) :
    Writes (liftM r : Send β) [] b := by
  cases r with
  | error e => exact Writes.throw e [] b
  | ok c =>
    rw [← h c rfl]
    exact Writes.pure c

theorem liftM_unit_writes (r : Result Unit) : Writes (liftM r : Send Unit) [] () := liftM_writes fun _ _ => rfl

theorem sendHeader_writes (name : CString) (value : Bytes) :
    Writes (sendHeader name value) (Http1.fieldLine (name.bytes, value) ++ crlf) () := by
  apply Writes.of_eq ((sendAll_writes name.bytes).bind ((sendAll_writes (ascii ": ")).bind
    ((sendAll_writes value).bind (sendAll_writes crlf))))
  simp only [Http1.fieldLine, List.append_assoc]

theorem sendHeaderLoop_writes (pre suf : List CString) :
    Writes (sendHeaderLoop suf.length (CursorList.split pre suf))
      (suf.flatMap fun header => header.bytes ++ crlf) () := by
  induction suf generalizing pre with
  | nil => exact Writes.pure ()
  | cons header suf ih =>
    have hget : (CursorList.split (pre ++ [header]) suf).seq[pre.length]? = some header := by
      simp [CursorList.split]
    rw [List.length_cons, sendHeaderLoop]
    simp only [CursorList.next_split_cons, hget]
    apply Writes.of_eq ((sendAll_writes header.bytes).bind ((sendAll_writes crlf).bind (ih (pre ++ [header]))))
    rw [List.flatMap_cons, List.append_assoc]

theorem sendHeaderList_writes (list : CursorList CString) :
    Writes (sendHeaderList list) (list.seq.flatMap fun header => header.bytes ++ crlf) () := by
  rw [sendHeaderList, CursorList.reset_eq_split]
  exact sendHeaderLoop_writes [] list.seq

theorem stringUtilSnprintf_numberText {n k : Nat} (hk : 0 < k) (h : n < 10 ^ k) {b : Bytes} :
    stringUtilSnprintf (k + 1) (numberText n) = .ok b → b = numberText n := by
  rw [stringUtilSnprintf_ok (numberText_ne_nil n) (Nat.lt_succ_of_le (length_numberText_le hk h))]
  exact fun heq => (Except.ok.inj heq).symm

theorem sendPort_writes (port : UInt16) :
    Writes (sendPort port) (if port ≠ tlsDefaultPort then ascii ":" ++ numberText port.toNat else []) () := by
  have hlt : port.toNat < 10 ^ 5 := Nat.lt_of_lt_of_le (UInt16.toNat_lt port) (by decide)
  apply Writes.ite
  · exact (liftM_writes fun _ => stringUtilSnprintf_numberText (by decide) hlt).bind
      ((sendAll_writes (ascii ":")).bind (sendAll_writes (numberText port.toNat)))
  · exact Writes.pure ()

theorem sendMethod_writes (method : Method) : Writes (sendMethod method) (methodText method ++ ascii " ") () := by
  cases method with
  | get => exact sendAll_writes getString
  | put => exact sendAll_writes putString
  | post => exact sendAll_writes postString
  | _ => exact Writes.throw _ _ _

/-- The request line and the host, whatever the socket and memory do. -/
theorem startHttp_writes (env : SocketEnvironment) (client : Client) (method : Method) {uri : CString}
    {host path : Bytes} (huri : UriParts uri host path) :
    Writes (startHttp env client method uri)
      (methodText method ++ (ascii " " ++ (path ++ (ascii " HTTP/1.1" ++ (crlf ++
        (Http1.fieldLine (ascii "Host", hostText host client.port) ++ crlf)))))) () := by
  have hrest : Writes (do
      liftM (env.connect host client.port)
      sendMethod method
      sendBuffer path
      sendBuffer httpString
      sendBuffer (ascii "Host: ")
      sendBuffer host
      sendPort client.port
      sendBuffer crlf) (methodText method ++ (ascii " " ++ (path ++ (ascii " HTTP/1.1" ++ (crlf ++
        (Http1.fieldLine (ascii "Host", hostText host client.port) ++ crlf)))))) () := by
    apply Writes.of_eq ((liftM_unit_writes (env.connect host client.port)).bind ((sendMethod_writes method).bind
      ((sendAll_writes path).bind ((sendAll_writes httpString).bind ((sendAll_writes (ascii "Host: ")).bind
      ((sendAll_writes host).bind ((sendPort_writes client.port).bind (sendAll_writes crlf))))))))
    have h1 : httpString = ascii " HTTP/1.1" ++ crlf := by decide
    have h2 : ascii "Host: " = ascii "Host" ++ ascii ": " := by decide
    simp only [h1, h2, Http1.fieldLine, hostText, List.nil_append, List.append_assoc]
  unfold startHttp
  simp only [huri.hostname, huri.path]
  cases env.hostnameAllocated with
  | true => exact hrest
  | false => exact (Writes.throw McError.outOfMemory [] ()).bind hrest

theorem sendFraming_writes {p : Platform} {payloadSize : Nat} (h : payloadSize < 2 ^ p.sizeWidth) :
    Writes (sendFraming p payloadSize) (fieldsText (framingFields payloadSize)) () := by
  have hpos : 0 < p.sizeMaxText.length := Nat.lt_of_lt_of_le (by decide) (ten_le_sizeMaxText p)
  unfold sendFraming framingFields
  by_cases hzero : payloadSize ≠ 0
  · rw [if_pos hzero, if_pos hzero, fieldsText_singleton]
    exact (liftM_writes fun _ => stringUtilSnprintf_numberText hpos (Nat.lt_of_lt_of_le h p.size_max_fits)).bind
      (sendHeader_writes contentLengthHeader _)
  · rw [if_neg hzero, if_neg hzero, fieldsText_singleton]
    exact (sendAll_writes transferEncodingHeader.bytes).bind (sendAll_writes crlf)

/-! ## The whole request -/

theorem sendRequest_writes {p : Platform} (env : SocketEnvironment) (client : Client) (request : Request p)
    {uri : CString} {host path : Bytes} (huri : UriParts uri host path) {headers : List (CString × CString)}
    (hheader : request.header.seq = (addHeaders headers).seq) {text : Bytes}
    (hbody : if request.method ≠ .get then Writes (sendBody request) text () else text = []) :
    Writes (sendRequest env client request uri)
      (methodText request.method ++ (ascii " " ++ (path ++ ascii " HTTP/1.1")) ++ (crlf ++
        (fieldsText (requestFields client request headers host) ++ (crlf ++ text)))) () := by
  have hlist := sendHeaderList_writes request.header
  rw [hheader, addHeaders_text] at hlist
  have hagent := sendHeader_writes userAgentHeader (bytesOf client.userAgent)
  rw [← fieldsText_singleton] at hagent
  have hstart := startHttp_writes env client request.method huri
  rw [← fieldsText_singleton] at hstart
  unfold sendRequest
  by_cases hget : request.method ≠ .get
  · rw [if_pos hget] at hbody
    simp only [if_pos hget]
    apply Writes.of_eq (hstart.bind (hlist.bind (hagent.bind ((sendFraming_writes request.size_in_range).bind
      ((sendAll_writes crlf).bind hbody)))))
    rw [fieldsText_requestFields, if_pos hget]
    simp only [List.append_assoc]
    rfl
  · rw [if_neg hget] at hbody
    simp only [if_neg hget]
    apply Writes.of_eq (hstart.bind (hlist.bind (hagent.bind ((sendAll_writes crlf).bind (Writes.pure ())))))
    rw [fieldsText_requestFields, if_neg hget, hbody]
    simp only [List.append_assoc]
    rfl

/-- A body that is sent from a buffer, if there is to be one. -/
def Request.Buffered {p : Platform} (request : Request p) : Prop :=
  request.method ≠ .get → request.payload ≠ none ∧ request.payloadSize ≠ 0

theorem sendBody_writes {p : Platform} {request : Request p} (h : request.payload ≠ none) :
    Writes (sendBody request) request.body () := by
  obtain ⟨payload, hpayload⟩ := Option.ne_none_iff_exists'.1 h
  unfold sendBody Request.body
  simp only [hpayload]
  exact sendAll_writes _

theorem bodyText_of_payload {p : Platform} {request : Request p} (h : request.payload ≠ none)
    (hsize : request.payloadSize ≠ 0) : BodyText request.payloadSize request.body request.body := by
  obtain ⟨payload, hpayload⟩ := Option.ne_none_iff_exists'.1 h
  have hlength : request.body.length = request.payloadSize := by
    rw [Request.body, hpayload]
    exact List.length_take_of_le (request.payload_readable payload hpayload)
  rw [← hlength] at hsize ⊢
  exact .sized hsize

/-- The request that a parser finds. -/
def Request.read {p : Platform} (client : Client) (request : Request p) (headers : List (CString × CString))
    (host path : Bytes) : Http1.Request :=
  ⟨methodText request.method, path, readFields client request headers host,
    if request.method ≠ .get then request.body else []⟩

/-- The request on the wire. -/
def Request.text {p : Platform} (client : Client) (request : Request p) (headers : List (CString × CString))
    (host path : Bytes) : Bytes :=
  methodText request.method ++ (ascii " " ++ (path ++ ascii " HTTP/1.1")) ++ (crlf ++
    (fieldsText (requestFields client request headers host) ++
      (crlf ++ if request.method ≠ .get then request.body else [])))

section
variable {p : Platform} {client : Client} {request : Request p} {host path : Bytes} {headers : List (CString × CString)}

theorem parseRequest_text (hmethod : request.method = .get ∨ request.method = .put ∨ request.method = .post)
    {uri : CString} (huri : UriParts uri host path) (hwritable : Writable client headers host path)
    (hbuffered : request.Buffered) :
    Http1.parseRequest (request.text client headers host path) =
      some (request.read client headers host path, []) := by
  have hnone := readFields_noFraming hwritable
  have hbody : Http1.parseBody (readFields client request headers host)
      (if request.method ≠ .get then request.body else []) =
        some (if request.method ≠ .get then request.body else [], []) := by
    by_cases hget : request.method ≠ .get
    · obtain ⟨hpayload, hsize⟩ := hbuffered hget
      have := parseBody_bodyText hnone (bodyText_of_payload hpayload hsize)
      rw [trim_framingFields] at this
      rwa [readFields, if_pos hget, if_pos hget]
    · rw [readFields, if_neg hget, if_neg hget, List.append_nil, Http1.parseBody, Http1.framing_of_noFraming hnone]
  have htoken : Http1.isToken (methodText request.method) = true := by
    rcases hmethod with h | h | h <;> rw [h] <;> decide
  have hne : path ≠ [] := by
    rintro rfl
    cases huri.slash
  rw [Request.text, Request.read, ← requestFields_trim request hwritable]
  rw [← requestFields_trim request hwritable] at hbody
  exact parseRequest_append htoken hne hwritable.path_no_space hwritable.path_text
    (requestFields_wellFormed request hwritable) hbody

theorem prepareSocket_uri {env : SocketEnvironment} {uri : CString}
    (h : prepareSocket env request = .ok uri) : request.uri = some uri := by
  unfold prepareSocket at h
  split_ifs at h
  split at h
  · cases h
  · rename_i uri' huri
    split at h
    · cases h
    · obtain ⟨-, -, h⟩ := bind_eq_ok h
      obtain ⟨-, -, h⟩ := bind_eq_ok h
      obtain ⟨-, -, h⟩ := bind_eq_ok h
      obtain ⟨-, -, h⟩ := bind_eq_ok h
      rw [huri, ← Except.ok.inj h]

/-- The text of the request is on the wire as far as the sends got, all of it before the response is waited for. -/
theorem mclHttpClientSend_prefix (m : Memory) (env : SocketEnvironment) {uri : CString}
    (hrequest : request.uri = some uri) (huri : UriParts uri host path)
    (hheader : request.header.seq = (addHeaders headers).seq) (hbuffered : request.Buffered)
    {sink sink' : Sink UInt8 McError} {source : Source UInt8 McError} {outcome : Result Unit × Option Response}
    (h : mclHttpClientSend m env client request sink source = some (outcome, sink')) :
    ∃ sent, sink'.sent = sink.sent ++ sent ∧ sent <+: request.text client headers host path ∧
      (outcome.1 = .ok () → sent = request.text client headers host path) := by
  have hbody : if request.method ≠ .get then
      Writes (sendBody request) (if request.method ≠ .get then request.body else []) ()
      else (if request.method ≠ .get then request.body else []) = [] := by
    by_cases hget : request.method ≠ .get
    · rw [if_pos hget, if_pos hget]
      exact sendBody_writes (hbuffered hget).1
    · rw [if_neg hget, if_neg hget]
  obtain ⟨sent, r, t, hsend, hsent, hpre, hok⟩ := sendRequest_writes env client request huri hheader hbody sink
  unfold mclHttpClientSend at h
  cases hprepare : prepareSocket env request with
  | error e =>
    rw [hprepare] at h
    cases h
    exact ⟨[], (List.append_nil _).symm, List.nil_prefix, fun h => by cases h⟩
  | ok uri' =>
    obtain rfl : uri = uri' := Option.some.inj (hrequest.symm.trans (prepareSocket_uri hprepare))
    rw [hprepare] at h
    simp only [hsend] at h
    cases r with
    | error e =>
      cases h
      exact ⟨sent, hsent, hpre, fun h => by cases h⟩
    | ok u =>
      obtain ⟨r, -, hr⟩ := Option.map_eq_some_iff.1 h
      cases hr
      exact ⟨sent, hsent, hpre, fun _ => (hok u rfl).2⟩

theorem mclHttpClientSend_defined {m : Memory} (hm : m.Available) (env : SocketEnvironment) (client : Client)
    (request : Request p) (sink : Sink UInt8 McError) {source : Source UInt8 McError} (htame : Tame p m source.rest) :
    ∃ code response sink', mclHttpClientSend m env client request sink source = some ((code, response), sink') ∧
      (code = .ok () → ∃ r, response = some r) := by
  obtain ⟨code, response, s', hresponse, hok⟩ := getResponse_outcome hm htame
  unfold mclHttpClientSend
  cases prepareSocket env request with
  | error e => exact ⟨.error e, none, sink, rfl, fun h => by cases h⟩
  | ok uri =>
    cases hsend : sendRequest env client request uri sink with
    | mk r sink' =>
      cases r with
      | error e => exact ⟨.error e, none, sink', by simp only [hsend], fun h => by cases h⟩
      | ok u =>
        refine ⟨code, response, sink', by simp only [hsend, hresponse]; rfl, fun hcode => ?_⟩
        rcases hok with ⟨e, rfl, -⟩ | ⟨r, -, rfl, -⟩
        · cases hcode
        · exact ⟨r, rfl⟩

/-- **The whole request or none.** Whatever memory, the socket and the server do and however the sends cut up the
request or fail in it, a server reads either exactly the request or none at all from the connection, and the client
returns with a response only if the server can read the request. -/
theorem mclHttpClientSend_atomic (m : Memory) (env : SocketEnvironment)
    (hmethod : request.method = .get ∨ request.method = .put ∨ request.method = .post) {uri : CString}
    (hrequest : request.uri = some uri) (huri : UriParts uri host path)
    (hheader : request.header.seq = (addHeaders headers).seq) (hwritable : Writable client headers host path)
    (hbuffered : request.Buffered) {sink sink' : Sink UInt8 McError} (hempty : sink.sent = [])
    {source : Source UInt8 McError} {outcome : Result Unit × Option Response}
    (h : mclHttpClientSend m env client request sink source = some (outcome, sink')) :
    Http1.parseRequest sink'.sent = some (request.read client headers host path, []) ∨
      Http1.parseRequest sink'.sent = none ∧ outcome.1 ≠ .ok () := by
  obtain ⟨sent, hsent, hpre, hok⟩ := mclHttpClientSend_prefix m env hrequest huri hheader hbuffered h
  have hparse := parseRequest_text hmethod huri hwritable hbuffered
  rw [hsent, hempty, List.nil_append]
  by_cases hwhole : sent = request.text client headers host path
  · rw [hwhole]
    exact .inl hparse
  · exact .inr ⟨Http1.parseRequest_cut hparse hpre hwhole, fun h => hwhole (hok h)⟩

/-- The connection takes three bytes and fails then. -/
def failingSink : Sink UInt8 McError := ⟨[], fun i => if i = 0 then .ok 3 else .error .networkSendFail⟩

theorem mclHttpClientSend_atomic_sample : ∃ outcome sink',
    mclHttpClientSend freshMemory workingEnvironment sampleClient (sampleRequest .put sampleUri sampleHeaders)
      failingSink sampleSource = some (outcome, sink') ∧
    (Http1.parseRequest sink'.sent = some ((sampleRequest .put sampleUri sampleHeaders).read sampleClient
        sampleHeaders (ascii "h") (ascii "/p"), []) ∨
      Http1.parseRequest sink'.sent = none ∧ outcome.1 ≠ .ok ()) := by
  have hwritable : Writable sampleClient sampleHeaders (ascii "h") (ascii "/p") := by
    refine ⟨by decide, by decide, by decide, by decide, fun header h => ?_, fun field h => ?_, by decide⟩
    · obtain rfl := List.mem_singleton.1 h
      exact ⟨by decide, by decide⟩
    · obtain rfl := List.mem_singleton.1 h
      exact ⟨by decide, by decide⟩
  have hclean : freshMemory.Clean platform64 := fun _ => show 0 % 2 ^ 64 < 2 ^ 32 by decide
  have htame : Tame platform64 freshMemory sampleSource.rest := tame_of_length hclean (by decide)
  obtain ⟨code, response, sink', h, -⟩ := mclHttpClientSend_defined freshMemory_available workingEnvironment
    sampleClient (sampleRequest .put sampleUri sampleHeaders) failingSink htame
  exact ⟨_, sink', h, mclHttpClientSend_atomic freshMemory workingEnvironment (.inr (.inl rfl)) rfl
    sampleUri_parts rfl hwritable (fun _ => ⟨by decide, by decide⟩) rfl h⟩

end

end MindConnect.HttpClientBasic
