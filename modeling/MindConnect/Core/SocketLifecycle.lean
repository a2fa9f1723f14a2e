import MindConnect.Core.HttpSend
import MindConnect.Lib.Lifetime

/-!
# The socket of one request

`mcl_http_client_send` (`http_client_basic.c:125`) once more, with its local variable `tls_socket` and what is done to it.
Every way through the function ends in the same `mcl_tls_socket_destroy(&tls_socket)`, the ways on which
`mcl_tls_socket_init` was not called too.

| here | there |
| --- | --- |
| `SocketState` | `tls_socket` and the operations on the handle, in order; the handle is the only object |
| `mclTlsSocketInit`, `mclTlsSocketDestroy` | the same functions (`tls_socket_mbedtls.c:179`, `:489`) |
| `SocketStep` | the functions that get the handle and hand it on to `mcl_tls_socket_connect`, `_send` and `_receive` |
| `checkRequest` | the arguments that are rejected (`http_client_basic.c:136`-`:149`) |
| `sendSteps` | `:155` to `:213` |
| `sendOverSocket` | the whole function, null arguments included |

`sendOverSocket_refines`: without the variable, this is `mclHttpClientSend`.
-/

namespace MindConnect.HttpClientBasic

open PartialIO Lifetime

/-! ## The code -/

inductive SocketStep where
  | mbedtlsInit | timeout | certificateChain | open | startHttp | headerList | userAgent | framing | endOfHeader | body
  | getResponse
deriving DecidableEq, Repr

abbrev SocketState := State Unit SocketStep

/-- What `MCL_MALLOC`, `mbedtls_ssl_config_defaults` and `mbedtls_ctr_drbg_seed` come to. -/
structure SocketInitialization where
  allocated : Bool
  configDefaults : Bool
  seeded : Bool

def SocketInitialization.code (init : SocketInitialization) : Result Unit :=
  if init.allocated then if init.configDefaults && init.seeded then .ok () else .error .fail
  else .error .outOfMemory

def mclTlsSocketDestroy (s : SocketState) : SocketState :=
  let s := s.read ()
  if (s.slots ()).isNull then s else s.free ()

/-- On failure it destroys what it has allocated. -/
def mclTlsSocketInit (init : SocketInitialization) (s : SocketState) : Result Unit × SocketState :=
  let s := s.allocate () init.allocated
  let s := if init.allocated then s.apply .mbedtlsInit () else s
  (init.code, match init.code with | .ok () => s | .error _ => mclTlsSocketDestroy s)

/-- Steps up to the first that fails. -/
abbrev Steps := ExceptT McError (StateM (SocketState × Sink UInt8 McError))

/-- A step on the handle in `tls_socket`. -/
def onSocket (step : SocketStep) (program : Send Unit) : Steps Unit := fun c =>
  let r := program c.2
  (r.1, c.1.apply step (), r.2)

def sendSteps {p : Platform} (env : SocketEnvironment) (client : Client) (request : Request p) (uri : CString) :
    Steps Unit := do
  onSocket .timeout (liftM env.timeout)
  onSocket .certificateChain (liftM env.certificateChain)
  onSocket .open (liftM env.opened)
  onSocket .startHttp (startHttp env client request.method uri)
  onSocket .headerList (sendHeaderList request.header)
  onSocket .userAgent (sendHeader userAgentHeader (bytesOf client.userAgent))
  if request.method ≠ .get then onSocket .framing (sendFraming p request.payloadSize)
  onSocket .endOfHeader (sendBuffer crlf)
  if request.method ≠ .get then onSocket .body (sendBody request)

/-- The URI of a request that is not rejected. -/
def checkRequest {p : Platform} (request : Request p) : Result CString :=
  if request.method ≠ .get ∧ request.payload = none ∧ request.streamCallback = none then .error .invalidParameter
  else if request.payload ≠ none ∧ request.payloadSize = 0 then .error .invalidParameter
  else
    match request.uri with
    | none => .error .operationNotSupported
    | some uri =>
      match stringUtilStrncmp uri httpsPrefix httpsPrefix.length with
      | .error _ => .error .operationNotSupported
      | .ok () => .ok uri

/-- The code, `*http_response`, what has been sent and what was done to the socket. -/
structure SendOutcome where
  code : Result Unit
  response : Option Response
  sink : Sink UInt8 McError
  socket : SocketState

/-- The way through the function; `tls_socket` is not destroyed yet. -/
def sendBeforeDestroy {p : Platform} (m : Memory) (env : SocketEnvironment) (init : SocketInitialization) (client : Client)
    (request : Request p) (sink : Sink UInt8 McError) (source : Source UInt8 McError) (socket : SocketState) :
    Option SendOutcome :=
  match checkRequest request with
  | .error e => some ⟨.error e, none, sink, socket⟩
  | .ok uri =>
    match mclTlsSocketInit init socket with
    | (.error e, socket) => some ⟨.error e, none, sink, socket⟩
    | (.ok (), socket) =>
      match sendSteps env client request uri (socket, sink) with
      | (.error e, socket, sink) => some ⟨.error e, none, sink, socket⟩
      | (.ok (), socket, sink) =>
        (getResponse p m source).map fun r => ⟨r.1.1, r.1.2, sink, socket.apply .getResponse ()⟩

/-- `http_response` is only null or not; `stack` is what is in `tls_socket` before it is set. -/
def sendOverSocket {p : Platform} (m : Memory) (env : SocketEnvironment) (init : SocketInitialization) (stack : Option Nat)
    (httpResponse : Bool) (client : Option Client) (request : Option (Request p)) (sink : Sink UInt8 McError)
    (source : Source UInt8 McError) : Option SendOutcome :=
  let socket : SocketState := .start fun _ => .unset stack
  match httpResponse, client, request with
  | true, some client, some request =>
    (sendBeforeDestroy m env init client request sink source socket).map fun outcome =>
      { outcome with socket := mclTlsSocketDestroy outcome.socket }
  | _, _, _ => some ⟨.error .triggeredWithNull, none, sink, socket⟩

/-- What a call has to do with its socket: every operation is on a handle that `mcl_tls_socket_init` has set in this call,
each handle that was set is destroyed once, and an error leaves `*http_response` null. -/
structure SocketLifecycle (outcome : SendOutcome) : Prop where
  clean : Clean outcome.socket.trace
  destroyed_once : ∀ n, .created n ∈ outcome.socket.trace → outcome.socket.trace.count (.released (.object n)) = 1
  response_null : ∀ e, outcome.code = .error e → outcome.response = none

theorem SocketLifecycle.of_clean {outcome : SendOutcome} (hclean : Clean outcome.socket.trace)
    (hresponse : ∀ e, outcome.code = .error e → outcome.response = none) : SocketLifecycle outcome :=
  ⟨hclean, fun n hn => by rw [hclean.count_released, if_pos hn], hresponse⟩

/-! ## Requests that are not rejected -/

structure Request.Sendable {p : Platform} (request : Request p) : Prop where
  content : request.method = .get ∨ request.payload ≠ none ∨ request.streamCallback ≠ none
  sized : request.payload ≠ none → request.payloadSize ≠ 0
  https : ∃ uri, request.uri = some uri ∧ httpsPrefix.bytes <+: uri.bytes

theorem stringUtilStrncmp_prefix {uri scheme : CString} :
    stringUtilStrncmp uri scheme scheme.length = .ok () ↔ scheme.bytes <+: uri.bytes := by
  rw [stringUtilStrncmp, CString.length, List.take_length, List.prefix_iff_eq_take]
  split_ifs with h
  · exact ⟨fun _ => h.symm, fun _ => rfl⟩
  · exact ⟨(fun he => by cases he), fun he => absurd he.symm h⟩

theorem checkRequest_ok_iff {p : Platform} (request : Request p) :
    (∃ uri, checkRequest request = .ok uri) ↔ request.Sendable := by
  unfold checkRequest
  split_ifs with hcontent hsized
  · constructor
    · rintro ⟨uri, h⟩
      cases h
    · rintro ⟨hget | hpayload | hcallback, -, -⟩
      · exact absurd hget hcontent.1
      · exact absurd hcontent.2.1 hpayload
      · exact absurd hcontent.2.2 hcallback
  · constructor
    · rintro ⟨uri, h⟩
      cases h
    · rintro ⟨-, h, -⟩
      exact absurd hsized.2 (h hsized.1)
  · have hrest : request.method = .get ∨ request.payload ≠ none ∨ request.streamCallback ≠ none := by
      by_contra h
      simp only [not_or, not_not] at h
      exact hcontent h
    have hsize : request.payload ≠ none → request.payloadSize ≠ 0 := fun h hzero => hsized ⟨h, hzero⟩
    cases huri : request.uri with
    | none =>
      constructor
      · rintro ⟨uri, h⟩
        cases h
      · rintro ⟨-, -, uri, h, -⟩
        rw [huri] at h
        cases h
    | some uri =>
      have hscheme : stringUtilStrncmp uri httpsPrefix httpsPrefix.length = .ok () ↔ httpsPrefix.bytes <+: uri.bytes :=
        stringUtilStrncmp_prefix
      cases hcmp : stringUtilStrncmp uri httpsPrefix httpsPrefix.length with
      | ok u =>
        simp only [hcmp]
        exact ⟨fun _ => ⟨hrest, hsize, uri, huri, hscheme.1 hcmp⟩, fun _ => ⟨uri, rfl⟩⟩
      | error e =>
        simp only [hcmp]
        constructor
        · rintro ⟨uri, h⟩
          cases h
        · rintro ⟨-, -, uri', h, hprefix⟩
          rw [huri] at h
          cases h
          rw [hscheme.2 hprefix] at hcmp
          cases hcmp

/-! ## The socket along the way -/

/-- `tls_socket` holds the handle, which is there. -/
def Holds (s : SocketState) : Prop := s.slots () = .object 0 ∧ Kept s [0]

/-- The handle is gone, or there never was one. -/
def Gone (s : SocketState) : Prop := s.slots () = .null ∧ Kept s []

theorem Holds.apply {s : SocketState} (h : Holds s) (step : SocketStep) : Holds (s.apply step ()) :=
  ⟨h.1, h.2.apply h.1 List.mem_cons_self step⟩

theorem Holds.destroy {s : SocketState} (h : Holds s) : Gone (mclTlsSocketDestroy s) := by
  have hread : (s.read ()).slots () = .object 0 := h.1
  have hkept : Kept (s.read ()) [0] := h.2.read fun content he => by rw [h.1] at he; cases he
  rw [mclTlsSocketDestroy, hread]
  exact ⟨by simp [Slot.isNull, State.free], hkept.free_object hread List.mem_cons_self⟩

theorem Gone.destroy {s : SocketState} (h : Gone s) : Gone (mclTlsSocketDestroy s) := by
  have hread : (s.read ()).slots () = .null := h.1
  rw [mclTlsSocketDestroy, hread]
  exact ⟨h.1, h.2.read fun content he => by rw [h.1] at he; cases he⟩

theorem mclTlsSocketInit_spec (init : SocketInitialization) (slots : Unit → Slot) :
    (init.code = .ok () → Holds (mclTlsSocketInit init (.start slots)).2) ∧
      (∀ e, init.code = .error e → Gone (mclTlsSocketInit init (.start slots)).2) := by
  have hstart : Kept (State.start slots : SocketState) [] := Kept.start slots
  cases hallocated : init.allocated with
  | true =>
    have hholds : Holds ((State.allocate (.start slots) () true).apply .mbedtlsInit ()) :=
      Holds.apply ⟨by simp [State.allocate, State.start], hstart.allocate ()⟩ .mbedtlsInit
    rw [mclTlsSocketInit, hallocated]
    constructor
    · intro hcode
      rw [hcode]
      exact hholds
    · intro e hcode
      rw [hcode]
      exact hholds.destroy
  | false =>
    have hcode : init.code = .error .outOfMemory := by rw [SocketInitialization.code, hallocated]; rfl
    have hgone : Gone (State.allocate (.start slots) () false) :=
      ⟨by simp [State.allocate, State.set], hstart.set () .null⟩
    rw [mclTlsSocketInit, hallocated, hcode]
    exact ⟨(fun h => by cases h), fun e _ => hgone.destroy⟩

/-! ## The steps -/

/-- Steps that do the program's sending and, on the way, keep the handle. -/
structure Tracks {β : Type} (steps : Steps β) (program : Send β) : Prop where
  runs : ∀ c, ((steps c).1, (steps c).2.2) = program c.2
  holds : ∀ c, Holds c.1 → Holds (steps c).2.1

namespace Tracks

theorem onSocket (step : SocketStep) (program : Send Unit) : Tracks (onSocket step program) program :=
  ⟨fun _ => rfl, fun _ h => h.apply step⟩

theorem pure (b : Unit) : Tracks (pure b : Steps Unit) (pure b) := ⟨fun _ => rfl, fun _ h => h⟩

theorem bind {p q : Steps Unit} {program program' : Send Unit} (hp : Tracks p program) (hq : Tracks q program') :
    Tracks (p >>= fun _ => q) (program >>= fun _ => program') := by
  have hstep : ∀ c, (p >>= fun _ => q) c = match p c with
      | (.ok _, c) => q c
      | (.error e, c) => (.error e, c) := by
    intro c
    simp only [Bind.bind, ExceptT.bind, ExceptT.mk, StateT.bind]
    rcases p c with ⟨_ | _, c'⟩ <;> rfl
  have hsend : ∀ sink, (program >>= fun _ => program') sink = match program sink with
      | (.ok _, sink) => program' sink
      | (.error e, sink) => (.error e, sink) := by
    intro sink
    simp only [Bind.bind, ExceptT.bind, ExceptT.mk, StateT.bind]
    rcases program sink with ⟨_ | _, sink'⟩ <;> rfl
  constructor
  · intro c
    have hruns := hp.runs c
    rw [hstep, hsend, ← hruns]
    rcases p c with ⟨_ | u, c'⟩
    · rfl
    · exact hq.runs c'
  · intro c hc
    have hholds := hp.holds c hc
    rw [hstep]
    rcases hc' : p c with ⟨_ | u, c'⟩
    · rwa [hc'] at hholds
    · rw [hc'] at hholds
      exact hq.holds c' hholds

theorem ite {c : Prop} [Decidable c] {p q : Steps Unit} {program program' : Send Unit} (hp : Tracks p program)
    (hq : Tracks q program') : Tracks (if c then p else q) (if c then program else program') := by
  by_cases h : c
  · rwa [if_pos h, if_pos h]
  · rwa [if_neg h, if_neg h]

end Tracks

/-- The steps are those of the program that sends the request. -/
theorem sendSteps_tracks {p : Platform} (env : SocketEnvironment) (client : Client) (request : Request p) (uri : CString) :
    Tracks (sendSteps env client request uri)
      (do liftM env.timeout; liftM env.certificateChain; liftM env.opened; sendRequest env client request uri) := by
  have hend : Tracks
      (do onSocket .endOfHeader (sendBuffer crlf); if request.method ≠ .get then onSocket .body (sendBody request))
      (do sendBuffer crlf; if request.method ≠ .get then sendBody request) :=
    .bind (.onSocket _ _) (.ite (.onSocket _ _) (.pure ()))
  exact .bind (.onSocket _ _) (.bind (.onSocket _ _) (.bind (.onSocket _ _) (.bind (.onSocket _ _)
    (.bind (.onSocket _ _) (.bind (.onSocket _ _) (.ite (.bind (.onSocket _ _) hend) hend))))))

/-! ## The whole call -/

section

variable {p : Platform} (m : Memory) (env : SocketEnvironment) (init : SocketInitialization) (client : Client)
  (request : Request p) (sink : Sink UInt8 McError) (source : Source UInt8 McError)

theorem prepareSocket_eq :
    prepareSocket { env with initialized := init.code } request =
      match checkRequest request, init.code with
      | .error e, _ => .error e
      | .ok _, .error e => .error e
      | .ok uri, .ok () => (do env.timeout; env.certificateChain; env.opened : Result Unit).map fun _ => uri := by
  unfold prepareSocket checkRequest
  split_ifs
  · rfl
  · rfl
  · cases request.uri with
    | none => rfl
    | some uri =>
      cases hcmp : stringUtilStrncmp uri httpsPrefix httpsPrefix.length with
      | error e => simp only [hcmp]
      | ok u =>
        simp only [hcmp]
        cases init.code with
        | error e => rfl
        | ok u =>
          cases env.timeout with
          | error e => rfl
          | ok u =>
            cases env.certificateChain with
            | error e => rfl
            | ok u => cases env.opened <;> rfl

/-- The first three steps send nothing. -/
theorem run_parameters (program : Send Unit) :
    (do liftM env.timeout; liftM env.certificateChain; liftM env.opened; program : Send Unit) sink =
      match (do env.timeout; env.certificateChain; env.opened : Result Unit) with
      | .ok _ => program sink
      | .error e => (.error e, sink) := by
  cases env.timeout with
  | error e => rfl
  | ok u =>
    cases env.certificateChain with
    | error e => rfl
    | ok u =>
      cases env.opened with
      | error e => rfl
      | ok u => rfl

/-- With what is done to the socket forgotten, this is the function as it was modelled without. -/
theorem sendOverSocket_refines (stack : Option Nat) :
    (sendOverSocket m env init stack true (some client) (some request) sink source).map
        (fun outcome => ((outcome.code, outcome.response), outcome.sink)) =
      mclHttpClientSend m { env with initialized := init.code } client request sink source := by
  rw [mclHttpClientSend, prepareSocket_eq]
  simp only [sendOverSocket, Option.map_map, sendBeforeDestroy]
  cases hcheck : checkRequest request with
  | error e => rfl
  | ok uri =>
    have hfst : (mclTlsSocketInit init (.start fun _ => .unset stack)).1 = init.code := rfl
    rcases hinit : mclTlsSocketInit init (.start fun _ => .unset stack) with ⟨code, socket⟩
    rw [hinit] at hfst
    rw [← show code = init.code from hfst]
    cases code with
    | error e => rfl
    | ok u =>
      have hruns := (sendSteps_tracks env client request uri).runs (socket, sink)
      rw [run_parameters] at hruns
      rcases hsteps : sendSteps env client request uri (socket, sink) with ⟨sent, socket', sink'⟩
      rw [hsteps] at hruns
      simp only
      rw [hsteps]
      cases hset : (do env.timeout; env.certificateChain; env.opened : Result Unit) with
      | error e =>
        rw [hset] at hruns
        cases hruns
        rfl
      | ok u' =>
        rw [hset] at hruns
        have hruns : (sent, sink') = sendRequest { env with initialized := .ok u } client request uri sink := hruns
        simp only [Except.map]
        rw [← hruns]
        cases sent with
        | error e => rfl
        | ok u' =>
          simp only [Option.map_map]
          rfl

end

/-- A failed receive leaves no response. -/
theorem response_none_of_error {p : Platform} {m : Memory} {s s' : Source UInt8 McError} {e : McError}
    {response : Option Response} (h : getResponse p m s = some ((.error e, response), s')) : response = none := by
  unfold getResponse at h
  obtain ⟨⟨code, line⟩, s1, -, h⟩ := bind_eq_some.1 h
  cases code with
  | error e' =>
    cases h
    rfl
  | ok u =>
    cases hstatus : scanStatus p line with
    | none =>
      simp only [hstatus] at h
      cases h
      rfl
    | some statusCode =>
      simp only [hstatus] at h
      split_ifs at h
      · obtain ⟨⟨code, header, framing⟩, s2, -, h⟩ := bind_eq_some.1 h
        cases code with
        | error e' =>
          cases h
          rfl
        | ok u =>
          obtain ⟨⟨code, payload, payloadSize⟩, s3, -, h⟩ := bind_eq_some.1 h
          cases code with
          | error e' =>
            cases h
            rfl
          | ok u =>
            simp only [httpResponseInitialize] at h
            split_ifs at h
            · cases h
            · cases h
              rfl
      · cases h
        rfl

section

variable {p : Platform} {m : Memory} {env : SocketEnvironment} {init : SocketInitialization} {client : Client}
  {request : Request p} {sink : Sink UInt8 McError} {source : Source UInt8 McError} {outcome : SendOutcome}

/-- Once a request is not rejected, the handle is there or gone when the shared clean-up is reached. -/
theorem sendBeforeDestroy_socket {slots : Unit → Slot} (hsendable : request.Sendable)
    (h : sendBeforeDestroy m env init client request sink source (.start slots) = some outcome) :
    Holds outcome.socket ∨ Gone outcome.socket := by
  obtain ⟨uri, huri⟩ := (checkRequest_ok_iff request).2 hsendable
  obtain ⟨hholds, hgone⟩ := mclTlsSocketInit_spec init slots
  have hfst : (mclTlsSocketInit init (.start slots)).1 = init.code := rfl
  rw [sendBeforeDestroy, huri] at h
  rcases hinit : mclTlsSocketInit init (.start slots) with ⟨code, socket⟩
  rw [hinit] at hholds hgone hfst
  simp only [hinit] at h
  cases code with
  | error e =>
    cases h
    exact .inr (hgone e hfst.symm)
  | ok u =>
    have hsocket := (sendSteps_tracks env client request uri).holds (socket, sink) (hholds hfst.symm)
    rcases hsteps : sendSteps env client request uri (socket, sink) with ⟨sent, socket', sink'⟩
    rw [hsteps] at hsocket
    simp only [hsteps] at h
    cases sent with
    | error e =>
      cases h
      exact .inl hsocket
    | ok u =>
      obtain ⟨r, -, rfl⟩ := Option.map_eq_some_iff.1 h
      exact .inl (hsocket.apply .getResponse)

theorem sendBeforeDestroy_response {socket : SocketState} {e : McError}
    (h : sendBeforeDestroy m env init client request sink source socket = some outcome)
    (he : outcome.code = .error e) : outcome.response = none := by
  unfold sendBeforeDestroy at h
  split at h
  · cases h
    rfl
  · split at h
    · cases h
      rfl
    · split at h
      · cases h
        rfl
      · obtain ⟨⟨⟨code, response⟩, s'⟩, hresponse, rfl⟩ := Option.map_eq_some_iff.1 h
        have hcode : code = .error e := he
        rw [hcode] at hresponse
        exact response_none_of_error hresponse

end

/-- The clean-up of a socket that was never set reads what is there. -/
theorem destroy_unset_not_clean (stack : Option Nat) :
    ¬ Clean (mclTlsSocketDestroy (.start fun _ => .unset stack)).trace := by
  intro hclean
  have hread : .read (.unset stack) ∈ (mclTlsSocketDestroy (.start fun _ => .unset stack)).trace := by
    rw [mclTlsSocketDestroy]
    split_ifs <;> simp [State.read, State.free, State.start]
  obtain ⟨before, hallowed⟩ := hclean.sound.of_mem hread
  exact hallowed stack rfl

/-- The socket is treated as it should be but for the requests that are rejected before there is one. -/
theorem sendOverSocket_lifecycle_iff {p : Platform} (m : Memory) (env : SocketEnvironment) (init : SocketInitialization)
    (stack : Option Nat) (httpResponse : Bool) (client : Option Client) (request : Option (Request p))
    (sink : Sink UInt8 McError) (source : Source UInt8 McError) :
    (∀ outcome, sendOverSocket m env init stack httpResponse client request sink source = some outcome →
        SocketLifecycle outcome) ↔
      httpResponse = false ∨ client = none ∨ ∀ r ∈ request, r.Sendable := by
  have hnull : SocketLifecycle ⟨.error .triggeredWithNull, none, sink, .start fun _ => .unset stack⟩ :=
    .of_clean (Kept.start _).keeps.clean fun _ _ => rfl
  cases httpResponse with
  | false => simp [sendOverSocket, hnull]
  | true =>
    cases client with
    | none => simp [sendOverSocket, hnull]
    | some client =>
      cases request with
      | none => simp [sendOverSocket, hnull]
      | some request =>
        simp only [sendOverSocket, Option.mem_def, Option.some.injEq, forall_eq', reduceCtorEq, false_or]
        constructor
        · intro h
          by_contra hrejected
          cases hcheck : checkRequest request with
          | ok uri => exact hrejected ((checkRequest_ok_iff request).1 ⟨uri, hcheck⟩)
          | error e =>
            rw [sendBeforeDestroy, hcheck] at h
            exact destroy_unset_not_clean stack (h _ rfl).clean
        · intro hsendable outcome h
          obtain ⟨before, hbefore, rfl⟩ := Option.map_eq_some_iff.1 h
          have hresponse : ∀ e, before.code = .error e → before.response = none :=
            fun e he => sendBeforeDestroy_response hbefore he
          refine .of_clean ?_ hresponse
          rcases sendBeforeDestroy_socket hsendable hbefore with hholds | hgone
          · exact hholds.destroy.2.keeps.clean
          · exact hgone.destroy.2.keeps.clean

/-- A `POST` with neither a payload nor a callback. -/
def emptyPost : Request platform64 where
  header := .empty
  payload := none
  payloadSize := 0
  uri := some (.lit "https://h/p")
  method := .post
  streamCallback := none
  payload_readable := fun bytes h => by cases h
  size_in_range := by decide

/-- It is rejected, and the clean-up reads a variable that was never set. -/
theorem emptyPost_reads_unset :
    ¬ ∀ outcome, sendOverSocket freshMemory ⟨.ok (), .ok (), .ok (), .ok (), true, fun _ _ => .ok ()⟩ ⟨true, true, true⟩
        (some 1) true (some ⟨none, 443⟩) (some emptyPost) ⟨[], fun _ => .ok 1⟩ ⟨[], fun _ => 1, .fail⟩ = some outcome →
      SocketLifecycle outcome := by
  intro h
  exact destroy_unset_not_clean (some 1) (h _ rfl).clean

end MindConnect.HttpClientBasic
