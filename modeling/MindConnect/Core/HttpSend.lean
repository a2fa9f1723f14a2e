import MindConnect.Core.HttpResponse
import MindConnect.Core.CoreProcessor
import MindConnect.Lib.CursorList

/-!
# Sending a request: `http_client_basic.c`

| here | there |
| --- | --- |
| `Request`, `httpRequestAddHeader` | `mcl_http_request_t`, `mcl_http_request_add_header` (`http_request.c:57`) |
| `Client`, `SocketEnvironment` | `mcl_http_client_t`, what the socket's set-up comes to in one call |
| `sendBuffer`, `sendHeader`, `sendHeaderList` | `send_buffer` (`http_client_basic.c:417`), `send_header` (`:388`), `send_header_list` (`:358`) |
| `callbackTurn`, `callbackLoop`, `sendWithCallback` | `send_with_callback` (`:437`) |
| `startHttp` | `start_http` (`:252`) |
| `sendRequest`, `mclHttpClientSend` | `mcl_http_client_send` (`:125`) |

A callback is the list of what it returns before its first 0.
-/

namespace MindConnect.HttpClientBasic

open PartialIO JsonUtil

/-! ## Data -/

/-- `E_MCL_HTTP_METHOD` -/
inductive Method where
  | get | head | post | put | delete | patch | connect | options | trace
deriving DecidableEq, Repr

/-- A payload buffer holds `payload_size` bytes. -/
structure Request (p : Platform) where
  header : CursorList CString
  payload : Option Bytes
  payloadSize : Nat
  uri : Option CString
  method : Method
  streamCallback : Option (List Bytes)
  payload_readable : ∀ bytes ∈ payload, payloadSize ≤ bytes.length
  size_in_range : payloadSize < 2 ^ p.sizeWidth

structure Client where
  userAgent : Option CString
  port : UInt16

structure SocketEnvironment where
  initialized : Result Unit
  timeout : Result Unit
  certificateChain : Result Unit
  opened : Result Unit
  hostnameAllocated : Bool
  connect : Bytes → UInt16 → Result Unit

/-- The outcome and the list with the line, if the line and its node could be allocated. -/
def httpRequestAddHeader (lineAllocated nodeAllocated : Bool) (header : CursorList CString) (name value : CString) :
    Result Unit × CursorList CString :=
  if lineAllocated then
    match stringUtilSnprintf (name.length + value.length + 2 + 1) (name.bytes ++ (ascii ": " ++ value.bytes)) with
    | .error e => (.error e, header)
    | .ok line =>
      if nodeAllocated then (.ok (), header.add (CString.ofBuffer line)) else (.error .outOfMemory, header)
  else (.error .outOfMemory, header)

def httpsPrefix : CString := .lit "https://"
def getString : Bytes := ascii "GET "
def putString : Bytes := ascii "PUT "
def postString : Bytes := ascii "POST "
def httpString : Bytes := ascii " HTTP/1.1\r\n"
def contentLengthHeader : CString := .lit "Content-Length"
def userAgentHeader : CString := .lit "User-Agent"
def tlsDefaultPort : UInt16 := 443
def portStringBufferSize : Nat := 6

/-- `sizeof("1024") + CRLF_SIZE` -/
def chunkLengthInHexBufferSize : Nat := 7

def upperDigit (c : Char) : UInt8 := c.toUpper.toNat.toUInt8

/-- `"%X"` -/
def hexText (n : Nat) : Bytes := (Nat.toDigits 16 n).map upperDigit

/-- `mcl_string_util_strlen` is 0 for a null pointer. -/
def bytesOf (s : Option CString) : Bytes := s.elim [] CString.bytes

/-! ## The code -/

abbrev Send := Sender UInt8 McError

def sendBuffer (bytes : Bytes) : Send Unit := sendAll bytes

def sendHeader (name : CString) (value : Bytes) : Send Unit := do
  sendBuffer name.bytes
  sendBuffer (ascii ": ")
  sendBuffer value
  sendBuffer crlf

def sendHeaderLoop : Nat → CursorList CString → Send Unit
  | 0, _ => pure ()
  | n + 1, list =>
    match list.next with
    | (none, _) => throw .fail
    | (some i, list) => do
      match list.seq[i]? with
      | none => throw .fail
      | some header => do
        sendBuffer header.bytes
        sendBuffer crlf
        sendHeaderLoop n list

def sendHeaderList (list : CursorList CString) : Send Unit := sendHeaderLoop list.count list.reset

/-- What comes before the data of one callback result; answers `remaining_size`. -/
def callbackSize (usingTransferEncoding : Bool) (output : Bytes) (remainingSize : Nat) : Send Nat :=
  if httpCallbackBufferSize < output.length then throw .fail
  else if usingTransferEncoding then do
    let hexString ← liftM (stringUtilSnprintf chunkLengthInHexBufferSize (hexText output.length ++ crlf))
    sendBuffer hexString
    return remainingSize
  else if remainingSize < output.length then throw .fail
  else return remainingSize - output.length

def callbackTurn (usingTransferEncoding : Bool) (output : Bytes) (remainingSize : Nat) : Send Nat := do
  let remainingSize ← callbackSize usingTransferEncoding output remainingSize
  sendBuffer output
  if usingTransferEncoding then sendBuffer crlf
  return remainingSize

def callbackLoop (usingTransferEncoding : Bool) : List Bytes → Nat → Send Nat
  | [], remainingSize => callbackTurn usingTransferEncoding [] remainingSize
  | output :: outputs, remainingSize => do
    let remainingSize ← callbackTurn usingTransferEncoding output remainingSize
    if output = [] then return remainingSize else callbackLoop usingTransferEncoding outputs remainingSize

def sendWithCallback (outputs : List Bytes) (payloadSize : Nat) : Send Unit := do
  let remainingSize ← callbackLoop (payloadSize == 0) outputs payloadSize
  if remainingSize ≠ 0 then throw .fail

/-- The characters before the first slash behind `https://`. -/
def hostnameOf (uri : CString) : Bytes := (uri.bytes.drop httpsPrefix.length).takeWhile (· != 47)

def sendMethod : Method → Send Unit
  | .get => sendBuffer getString
  | .put => sendBuffer putString
  | .post => sendBuffer postString
  | _ => throw .fail

def sendPort (port : UInt16) : Send Unit :=
  if port ≠ tlsDefaultPort then do
    let portString ← liftM (stringUtilSnprintf portStringBufferSize (numberText port.toNat))
    sendBuffer (ascii ":")
    sendBuffer portString
  else pure ()

def startHttp (env : SocketEnvironment) (client : Client) (method : Method) (uri : CString) : Send Unit := do
  let hostname := hostnameOf uri
  if env.hostnameAllocated then pure () else throw .outOfMemory
  liftM (env.connect hostname client.port)
  sendMethod method
  sendBuffer (uri.bytes.drop (httpsPrefix.length + hostname.length))
  sendBuffer httpString
  sendBuffer (ascii "Host: ")
  sendBuffer hostname
  sendPort client.port
  sendBuffer crlf

/-- The framing header of a request with a body. -/
def sendFraming (p : Platform) (payloadSize : Nat) : Send Unit :=
  if payloadSize ≠ 0 then do
    let contentLength ← liftM (stringUtilSnprintf p.contentLengthBufferSize (numberText payloadSize))
    sendHeader contentLengthHeader contentLength
  else do
    sendBuffer transferEncodingHeader.bytes
    sendBuffer crlf

def sendBody {p : Platform} (request : Request p) : Send Unit :=
  match request.payload with
  | none => sendWithCallback (request.streamCallback.getD []) request.payloadSize
  | some payload => sendBuffer (payload.take request.payloadSize)

/-- What goes over the socket before the response. -/
def sendRequest {p : Platform} (env : SocketEnvironment) (client : Client) (request : Request p) (uri : CString) :
    Send Unit := do
  startHttp env client request.method uri
  sendHeaderList request.header
  sendHeader userAgentHeader (bytesOf client.userAgent)
  if request.method ≠ .get then sendFraming p request.payloadSize
  sendBuffer crlf
  if request.method ≠ .get then sendBody request

/-- The checks and the set-up of the socket; answers the URI. -/
def prepareSocket {p : Platform} (env : SocketEnvironment) (request : Request p) : Result CString :=
  if request.method ≠ .get ∧ request.payload = none ∧ request.streamCallback = none then .error .invalidParameter
  else if request.payload ≠ none ∧ request.payloadSize = 0 then .error .invalidParameter
  else
    match request.uri with
    | none => .error .operationNotSupported
    | some uri =>
      match stringUtilStrncmp uri httpsPrefix httpsPrefix.length with
      | .error _ => .error .operationNotSupported
      | .ok () => do
        env.initialized
        env.timeout
        env.certificateChain
        env.opened
        return uri

/-- The code with `*http_response`, and what has been sent. -/
def mclHttpClientSend {p : Platform} (m : Memory) (env : SocketEnvironment) (client : Client) (request : Request p)
    (sink : Sink UInt8 McError) (source : Source UInt8 McError) :
    Option ((Result Unit × Option Response) × Sink UInt8 McError) :=
  match prepareSocket env request with
  | .error e => some ((.error e, none), sink)
  | .ok uri =>
    match sendRequest env client request uri sink with
    | (.error e, sink) => some ((.error e, none), sink)
    | (.ok (), sink) => (getResponse p m source).map fun r => (r.1, sink)

end MindConnect.HttpClientBasic
