import MindConnect.Core.Memory
import MindConnect.Core.StringUtil
import MindConnect.Lib.PartialIO
import MindConnect.Lib.Scan

/-!
# Receiving a response: `http_client_basic.c`

| here | there |
| --- | --- |
| `Platform` | `mcl_size_t`, `unsigned long` and the text of `SIZE_MAX` |
| `receiveToBuffer`, `receiveUntilLf` | `receive_to_buffer` (`http_client_basic.c:722`), `receive_until_lf` (`:742`) |
| `getContentLengthResponse` | `get_content_length_response` (`:696`) |
| `chunkedLoop`, `getChunkedResponse` | `get_chunked_response` (`:623`) |
| `headerLoop`, `getResponse` | `get_response` (`:503`) |

A write outside its block has no outcome. `Memory` is what the allocations of one call come to, and what the
uninitialised `chunk_size` holds.
-/

namespace MindConnect.HttpClientBasic

open PartialIO

/-! ## The code -/

/-- `unsigned int` has 32 bits, `unsigned long` has those of `mcl_size_t`. -/
structure Platform where
  sizeWidth : Nat
  sizeMaxText : CString
  int_le_size : 32 ≤ sizeWidth
  size_max_fits : 2 ^ sizeWidth ≤ 10 ^ sizeMaxText.length

/-- `CONTENT_LENGTH_BUFFER_SIZE` -/
def Platform.contentLengthBufferSize (p : Platform) : Nat := p.sizeMaxText.length + 1

def httpParseBufferSize : Nat := 2048
def httpCallbackBufferSize : Nat := 1024
def crlf : Bytes := [13, 10]
def transferEncodingHeader : CString := .lit "Transfer-Encoding: chunked"

/-- The size of `chunk_string`. -/
def Platform.chunkLineSize (p : Platform) : Nat := p.contentLengthBufferSize + crlf.length

structure Memory where
  headerList : Bool
  header : Nat → Bool
  node : Nat → Bool
  body : Nat → Bool
  chunkSize : Nat → Nat
  response : Bool

/-- A usual machine with a `mcl_size_t` of 64 bits. -/
def platform64 : Platform := ⟨64, .lit "(18446744073709551615UL)", by decide, by decide⟩

/-- One of 32 bits, as many as `unsigned int` has. -/
def platform32 : Platform := ⟨32, .lit "(4294967295U)", by decide, by decide⟩

/-- All allocations succeed, all memory is zero before. -/
def freshMemory : Memory := ⟨true, fun _ => true, fun _ => true, fun _ => true, fun _ => 0, true⟩

/-- `mcl_http_response_t` -/
structure Response where
  statusCode : Nat
  header : List Bytes
  payload : Option Bytes
  payloadSize : Nat
deriving DecidableEq, Repr

abbrev Receive := Receiver UInt8 McError

def receiveToBuffer (size : Nat) : Receive (Result Unit × Bytes) := fun socket =>
  some (receiveExactly size socket)

/-- With a buffer of fewer than two bytes the loop runs past its end. -/
def receiveUntilLf (size : Nat) : Receive (Result Unit × Bytes) := fun socket =>
  if 2 ≤ size then some (receiveUntil (· == 10) .fail (size - 1) socket) else none

/-! ## Scanning lines -/

/-- `sscanf(line, "HTTP/1.1 %u", &status)` -/
def scanStatus (p : Platform) (line : Bytes) : Option Nat := do
  let s ← Scan.literal (ascii "HTTP/1.1") (CString.ofBuffer line).bytes
  let status ← Scan.unsigned 10 p.sizeWidth (Scan.skipBlanks s)
  return status % 2 ^ 32

/-- `sscanf(line, "Content-Length: %lu", &body_size)` -/
def scanContentLength (p : Platform) (line : Bytes) : Option Nat := do
  let s ← Scan.literal (ascii "Content-Length:") (CString.ofBuffer line).bytes
  Scan.unsigned 10 p.sizeWidth (Scan.skipBlanks s)

/-- `sscanf(line, "%x\r\n", (unsigned int *) &chunk_size)` on a little-endian machine: only the low 32 bits of
`chunk_size` are set. -/
def scanChunkSize (p : Platform) (chunkSize : Nat) (line : Bytes) : Option Nat := do
  let size ← Scan.unsigned 16 p.sizeWidth (CString.ofBuffer line).bytes
  return chunkSize % 2 ^ p.sizeWidth / 2 ^ 32 * 2 ^ 32 + size % 2 ^ 32

/-- `found_content_length` with `body_size`, and `using_transfer_encoding`. -/
structure Framing where
  contentLength : Option Nat
  chunked : Bool
deriving DecidableEq, Repr

/-- What one header line does to the decision: only the first that decides counts. -/
def scanFraming (p : Platform) (framing : Framing) (line : Bytes) : Framing :=
  if framing.contentLength.isSome || framing.chunked then framing
  else
    match scanContentLength p line with
    | some bodySize => { framing with contentLength := some bodySize }
    | none =>
      if (stringUtilFindCaseInsensitive (CString.ofBuffer line) transferEncodingHeader).isSome then
        { framing with chunked := true }
      else framing

/-! ## The body -/

/-- `MCL_MALLOC` for the first chunk, `MCL_RESIZE` for the others. -/
def bodyBlock (p : Platform) (granted : Bool) (body : Option Bytes) (bodySize chunkSize : Nat) : Option Bytes :=
  match body with
  | none => mclMemoryMalloc granted chunkSize
  | some block => mclMemoryRealloc granted block ((bodySize + chunkSize) % 2 ^ p.sizeWidth)

def write (block : Bytes) (pos : Nat) (bytes : Bytes) : Receive Bytes := fun socket =>
  (block.write pos bytes).map fun block => (block, socket)

theorem write_of_eq_some {block block' bytes : Bytes} {pos : Nat} (h : block.write pos bytes = some block')
    (s : Source UInt8 McError) : write block pos bytes s = some (block', s) := by
  simp only [write, h, Option.map_some]

/-- The code, `*response_body` and `*body_size`. -/
def chunkedLoop (p : Platform) (m : Memory) : Nat → Nat → Option Bytes → Nat →
    Receive (Result Unit × Option Bytes × Nat)
  | 0, _, _, _ => fun _ => none
  | fuel + 1, i, body, bodySize => do
    let (code, line) ← receiveUntilLf p.chunkLineSize
    match code, scanChunkSize p (m.chunkSize i) line with
    | .error e, _ => return (.error e, none, bodySize)
    | .ok (), none => return (.error .fail, none, bodySize)
    | .ok (), some chunkSize =>
      if chunkSize = 0 then do
        let (code, _) ← receiveToBuffer crlf.length
        match code with
        | .error e => return (.error e, none, bodySize)
        | .ok () => return (.ok (), body, bodySize)
      else do
        let bodySize' := (bodySize + chunkSize) % 2 ^ p.sizeWidth
        match bodyBlock p (m.body i) body bodySize chunkSize with
        | none => return (.error .outOfMemory, none, bodySize')
        | some block => do
          let (code, bytes) ← receiveToBuffer chunkSize
          let block ← write block bodySize bytes
          match code with
          | .error e => return (.error e, none, bodySize')
          | .ok () => do
            let (code, _) ← receiveToBuffer crlf.length
            match code with
            | .error e => return (.error e, none, bodySize')
            | .ok () => chunkedLoop p m fuel (i + 1) (some block) bodySize'

/-- Every turn takes at least one byte or is the last. -/
def getChunkedResponse (p : Platform) (m : Memory) : Receive (Result Unit × Option Bytes × Nat) :=
  fun socket => chunkedLoop p m (socket.rest.length + 1) 0 none 0 socket

def getContentLengthResponse (m : Memory) (bodySize : Nat) : Receive (Result Unit × Option Bytes) :=
  match mclMemoryMalloc (m.body 0) bodySize with
  | none => return (.error .outOfMemory, none)
  | some block => do
    let (code, bytes) ← receiveToBuffer bodySize
    let block ← write block 0 bytes
    match code with
    | .error e => return (.error e, none)
    | .ok () => return (.ok (), some block)

/-! ## The response -/

/-- The code, `header_list` and what the header lines decided. A failed receive ends the loop whatever else
happens, the `MCL_MALLOC` of the header comes first. -/
def headerLoop (p : Platform) (m : Memory) : Nat → Nat → List Bytes → Framing →
    Receive (Result Unit × List Bytes × Framing)
  | 0, _, _, _ => fun _ => none
  | fuel + 1, i, headers, framing => do
    let (code, line) ← receiveUntilLf httpParseBufferSize
    if line.length ≤ crlf.length then return (code, headers, framing)
    else if m.header i then
      match code with
      | .error e => return (.error e, headers, framing)
      | .ok () =>
        if m.node i then
          headerLoop p m fuel (i + 1) (headers ++ [line.take (line.length - crlf.length)])
            (scanFraming p framing line)
        else return (.error .outOfMemory, headers, framing)
    else return (.error .outOfMemory, headers, framing)

def getHeaders (p : Platform) (m : Memory) : Receive (Result Unit × List Bytes × Framing) := fun socket =>
  headerLoop p m (socket.rest.length + 1) 0 [] ⟨none, false⟩ socket

/-- The body under the framing that was chosen. -/
def getBody (p : Platform) (m : Memory) (framing : Framing) : Receive (Result Unit × Option Bytes × Nat) :=
  if framing.chunked then getChunkedResponse p m
  else
    match framing.contentLength with
    | none => return (.error .fail, none, 0)
    | some bodySize =>
      if bodySize = 0 then return (.ok (), none, 0)
      else do
        let (code, body) ← getContentLengthResponse m bodySize
        return (code, body, bodySize)

/-- `mcl_http_response_initialize` (`http_response.c:18`) -/
def httpResponseInitialize (m : Memory) (response : Response) : Result Unit × Option Response :=
  if m.response then (.ok (), some response) else (.error .outOfMemory, none)

/-- The code and `*http_response`, which is null before. -/
def getResponse (p : Platform) (m : Memory) : Receive (Result Unit × Option Response) := do
  let (code, line) ← receiveUntilLf httpParseBufferSize
  match code, scanStatus p line with
  | .error e, _ => return (.error e, none)
  | .ok (), none => return (.error .fail, none)
  | .ok (), some statusCode =>
    if m.headerList then do
      let (code, header, framing) ← getHeaders p m
      match code with
      | .error e => return (.error e, none)
      | .ok () => do
        let (code, payload, payloadSize) ← getBody p m framing
        match code with
        | .error e => return (.error e, none)
        | .ok () => return httpResponseInitialize m { statusCode, header, payload, payloadSize }
    else return (.error .outOfMemory, none)

/-! ## The cuts of the stream do not matter -/

theorem receiveToBuffer_uncut (size : Nat) : Uncut (receiveToBuffer size) := receiveExactly_uncut size

theorem receiveUntilLf_eq {size : Nat} (h : 2 ≤ size) :
    receiveUntilLf size = fun socket => some (receiveUntil (· == 10) .fail (size - 1) socket) :=
  funext fun _ => if_pos h

theorem receiveUntilLf_uncut (size : Nat) : Uncut (receiveUntilLf size) := by
  by_cases h : 2 ≤ size
  · rw [receiveUntilLf_eq h]
    exact receiveUntil_uncut _ _ _
  · rw [show receiveUntilLf size = fun _ => none from funext fun _ => if_neg h]
    exact Uncut.undefined

theorem write_uncut (block : Bytes) (pos : Nat) (bytes : Bytes) : Uncut (write block pos bytes) := by
  intro s t h b s' hs
  obtain ⟨block', hb, he⟩ := Option.map_eq_some_iff.1 hs
  cases he
  refine ⟨t, ?_, h⟩
  simp only [write, hb, Option.map_some]

theorem chunkedLoop_uncut (p : Platform) (m : Memory) (fuel i : Nat) (body : Option Bytes) (bodySize : Nat) :
    Uncut (chunkedLoop p m fuel i body bodySize) := by
  induction fuel generalizing i body bodySize with
  | zero => exact Uncut.undefined
  | succ fuel ih =>
    apply Uncut.bind (receiveUntilLf_uncut _)
    rintro ⟨code, line⟩
    cases code with
    | error e => exact Uncut.pure _
    | ok _ =>
      cases hscan : scanChunkSize p (m.chunkSize i) line with
      | none =>
        simp only [hscan]
        exact Uncut.pure _
      | some chunkSize =>
        simp only [hscan]
        apply Uncut.ite
        · apply Uncut.bind (receiveToBuffer_uncut _)
          rintro ⟨code, -⟩
          cases code <;> exact Uncut.pure _
        · cases bodyBlock p (m.body i) body bodySize chunkSize with
          | none => exact Uncut.pure _
          | some block =>
            apply Uncut.bind (receiveToBuffer_uncut _)
            rintro ⟨code, bytes⟩
            apply Uncut.bind (write_uncut _ _ _)
            intro block
            cases code with
            | error e => exact Uncut.pure _
            | ok _ =>
              apply Uncut.bind (receiveToBuffer_uncut _)
              rintro ⟨code, -⟩
              cases code with
              | error e => exact Uncut.pure _
              | ok _ => exact ih _ _ _

theorem headerLoop_uncut (p : Platform) (m : Memory) (fuel i : Nat) (headers : List Bytes) (framing : Framing) :
    Uncut (headerLoop p m fuel i headers framing) := by
  induction fuel generalizing i headers framing with
  | zero => exact Uncut.undefined
  | succ fuel ih =>
    apply Uncut.bind (receiveUntilLf_uncut _)
    rintro ⟨code, line⟩
    apply Uncut.ite (Uncut.pure _)
    apply Uncut.ite ?_ (Uncut.pure _)
    cases code with
    | error e => exact Uncut.pure _
    | ok _ => exact Uncut.ite (ih _ _ _) (Uncut.pure _)

theorem getChunkedResponse_uncut (p : Platform) (m : Memory) : Uncut (getChunkedResponse p m) := by
  intro s t h
  unfold getChunkedResponse
  rw [h.1]
  exact chunkedLoop_uncut p m _ _ _ _ h

theorem getHeaders_uncut (p : Platform) (m : Memory) : Uncut (getHeaders p m) := by
  intro s t h
  unfold getHeaders
  rw [h.1]
  exact headerLoop_uncut p m _ _ _ _ h

theorem getContentLengthResponse_uncut (m : Memory) (bodySize : Nat) :
    Uncut (getContentLengthResponse m bodySize) := by
  unfold getContentLengthResponse
  cases mclMemoryMalloc (m.body 0) bodySize with
  | none => exact Uncut.pure _
  | some block =>
    apply Uncut.bind (receiveToBuffer_uncut _)
    rintro ⟨code, bytes⟩
    apply Uncut.bind (write_uncut _ _ _)
    intro block
    cases code <;> exact Uncut.pure _

theorem getBody_uncut (p : Platform) (m : Memory) (framing : Framing) : Uncut (getBody p m framing) := by
  apply Uncut.ite (getChunkedResponse_uncut p m)
  cases framing.contentLength with
  | none => exact Uncut.pure _
  | some bodySize =>
    apply Uncut.ite (Uncut.pure _)
    apply Uncut.bind (getContentLengthResponse_uncut m bodySize)
    rintro ⟨code, body⟩
    exact Uncut.pure _

theorem getResponse_uncut (p : Platform) (m : Memory) : Uncut (getResponse p m) := by
  apply Uncut.bind (receiveUntilLf_uncut _)
  rintro ⟨code, line⟩
  cases code with
  | error e => exact Uncut.pure _
  | ok _ =>
    cases hscan : scanStatus p line with
    | none =>
      simp only [hscan]
      exact Uncut.pure _
    | some statusCode =>
      simp only [hscan]
      apply Uncut.ite ?_ (Uncut.pure _)
      apply Uncut.bind (getHeaders_uncut p m)
      rintro ⟨code, header, framing⟩
      cases code with
      | error e => exact Uncut.pure _
      | ok _ =>
        apply Uncut.bind (getBody_uncut p m framing)
        rintro ⟨code, payload, payloadSize⟩
        cases code <;> exact Uncut.pure _

end MindConnect.HttpClientBasic
