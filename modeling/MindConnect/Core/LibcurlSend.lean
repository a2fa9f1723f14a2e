import MindConnect.Core.StringUtil
import Mathlib.Algebra.Ring.Nat

/-!
# Requests through libcurl: `mcl_http_client_send` of `http_client_libcurl.c`

| here | there |
| --- | --- |
| `Method` | `E_MCL_HTTP_METHOD`; `mcl_http_request_set_parameter` (`http_request.c:97`) takes no other value |
| `EasyHandle` | the options of the easy handle; each call of `curl_easy_setopt` overwrites one and the others persist |
| `State.lists` | the lists that `curl_slist_append` made, by their order, `none` once they are freed |
| `State.append` | `curl_slist_append`: it may fail, then it gives null and leaves its argument as it was |
| `readAsLong` | an `int` constant among the variable arguments of `curl_easy_setopt`, which reads a `long` there |
| `setInFileSize`, `setPayloadOptions` | `_set_in_file_size` (`:735`), `_set_payload_options` (`:695`) |
| `setMethodOptions`, `setRequestOptions` | `_set_request_options` (`:606`), its `switch` and all of it |
| `mclHttpClientSend` | `mcl_http_client_send` (`:279`), with the state at `curl_easy_perform` if it comes to that |

`long` has `l` bits, at least the 32 of an `int`, and `curl_off_t` has 64. An unsupported method and a failed
`curl_slist_append` both end in a null list, which the caller takes for a request without headers.
-/

namespace MindConnect.Libcurl

/-! ## Data -/

abbrev Address := Nat

inductive Method where
  | get | head | post | put | delete | patch | connect | options | trace
deriving DecidableEq, Repr

structure HttpRequest where
  header : List CString
  payload : Option Address
  payloadSize : Nat
  method : Method
  uri : Option CString
  streamCallback : Option Address
  streamData : Option Address
deriving DecidableEq

inductive ReadFunction where
  | null
  | requestPayloadCallbackForPut
  | stream (callback : Address)
deriving DecidableEq

/-- `context` is the `default_callback_user_context` on the stack of a call. -/
inductive ReadData where
  | null
  | context (call : Nat)
  | stream (data : Option Address)
deriving DecidableEq

/-- `CURLOPT_INFILESIZE_LARGE` is `inFileSize` too. -/
structure EasyHandle where
  url : Option CString
  httpGet : Bool
  post : Bool
  upload : Bool
  customRequest : Option CString
  postFields : Option Address
  postFieldSize : Int
  inFileSize : Int
  readFunction : ReadFunction
  readData : ReadData
  httpHeader : Option Nat
deriving DecidableEq

structure State where
  handle : EasyHandle
  lists : List (Option (List CString))
  /-- The request and the offset of the current call's user context. -/
  context : Option (HttpRequest × Nat)

/-- What memory, the transfer and the response come to in one call. -/
structure CallOutcome where
  append : Nat → Bool
  listInitialized : Result Unit
  payloadAllocated : Bool
  perform : Result Unit
  response : Result Unit

/-! ## The code -/

def transferEncodingChunked : CString := .lit "Transfer-Encoding: chunked"
def expect : CString := .lit "Expect:"

def State.append (s : State) (appended : Bool) (list : Option Nat) (line : CString) : State × Option Nat :=
  if appended then
    match list with
    | none => ({ s with lists := s.lists ++ [some [line]] }, some s.lists.length)
    | some id => ({ s with lists := s.lists.modify id (Option.map (· ++ [line])) }, some id)
  else (s, none)

/-- `curl_slist_free_all` -/
def State.free (s : State) (list : Option Nat) : State :=
  match list with
  | none => s
  | some id => { s with lists := s.lists.set id none }

def setInFileSize (l : Nat) (h : EasyHandle) (payloadSize : Nat) : EasyHandle :=
  if payloadSize < 2147483648 then { h with inFileSize := (BitVec.ofNat l payloadSize).toInt }
  else { h with inFileSize := (BitVec.ofNat 64 payloadSize).toInt }

/-- The list it is given is null in all its calls, and so is what it gives back unless it makes a list. -/
def setPayloadOptions (l : Nat) (appended : Bool) (call : Nat) (s : State) (r : HttpRequest)
    (headerList : Option Nat) : State × Option Nat :=
  match r.streamCallback with
  | none =>
    let handle := { s.handle with readFunction := .requestPayloadCallbackForPut, readData := .context call }
    ({ s with handle := setInFileSize l handle r.payloadSize, context := some (r, 0) }, none)
  | some callback =>
    let handle := { s.handle with readFunction := .stream callback, readData := .stream r.streamData }
    if r.payloadSize = 0 then { s with handle }.append appended headerList transferEncodingChunked
    else ({ s with handle := setInFileSize l handle r.payloadSize }, none)

/-- Above its 32 bits there are zeros, so that a negative constant does not stay what it is in a wider `long`. -/
def readAsLong (l : Nat) (constant : Int) : Int := (BitVec.ofNat l (BitVec.ofInt 32 constant).toNat).toInt

/-- The options that are reset, and the URL. The truth values are 0 and 1 in a `long` of any width. -/
def resetOptions (l : Nat) (h : EasyHandle) (r : HttpRequest) : EasyHandle :=
  { h with
    url := r.uri
    httpGet := false
    post := false
    upload := false
    customRequest := none
    postFieldSize := readAsLong l (-1)
    inFileSize := readAsLong l (-1)
    readData := .null
    postFields := none }

/-- The state and the header list, nothing for an unsupported method. -/
def setMethodOptions (l : Nat) (appended : Bool) (call : Nat) (s : State) (r : HttpRequest) :
    Option (State × Option Nat) :=
  match r.method with
  | .get => some ({ s with handle := { s.handle with httpGet := true } }, none)
  | .post =>
    match r.streamCallback with
    | none =>
      some ({ s with handle := { s.handle with
        post := true, postFields := r.payload, postFieldSize := (BitVec.ofNat l r.payloadSize).toInt } }, none)
    | some callback =>
      some ({ s with handle := { s.handle with
        post := true, readFunction := .stream callback, readData := .stream r.streamData } }.append appended none
          transferEncodingChunked)
  | .put => some (setPayloadOptions l appended call { s with handle := { s.handle with upload := true } } r none)
  | .patch =>
    some (setPayloadOptions l appended call
      { s with handle := { s.handle with customRequest := some (.lit "PATCH"), upload := true } } r none)
  | _ => none

/-- `m k` is the outcome of an append: 0 for the transfer encoding, then the headers in order, then `Expect:`. -/
def setRequestOptions (l : Nat) (m : Nat → Bool) (call : Nat) (s : State) (r : HttpRequest) : State × Option Nat :=
  let s := { s with handle := resetOptions l s.handle r }
  match setMethodOptions l (m 0) call s r with
  | none => (s, none)
  | some start =>
    let (s, list) := r.header.zipIdx.foldl (fun at_ line => at_.1.append (m (line.2 + 1)) at_.2 line.1) start
    let (s, list) := s.append (m (r.header.length + 1)) list expect
    ({ s with handle := { s.handle with httpHeader := list } }, list)

/-- The state after the call, the state in which the transfer was performed, and the code. -/
def mclHttpClientSend (l : Nat) (o : CallOutcome) (call : Nat) (s : State) (r : HttpRequest) :
    State × Option State × Result Unit :=
  let (s, requestHeaderList) := setRequestOptions l o.append call { s with context := none } r
  match o.listInitialized with
  | .error e => (s.free requestHeaderList, none, .error e)
  | .ok () =>
    if o.payloadAllocated then (s.free requestHeaderList, some s, do o.perform; o.response)
    else (s.free requestHeaderList, none, .error .outOfMemory)

/-- A call: the state before it, its number, its request and what it came to. -/
structure Sent where
  before : State
  call : Nat
  request : HttpRequest
  performed : Option State
  code : Result Unit

/-- The calls on one client. -/
def sends (l : Nat) : Nat → State → List (CallOutcome × HttpRequest) → List Sent
  | _, _, [] => []
  | call, s, (o, r) :: calls =>
    let (s', performed, code) := mclHttpClientSend l o call s r
    ⟨s, call, r, performed, code⟩ :: sends l (call + 1) s' calls

/-! ## A transfer of the current request -/

/-- `CURLOPT_HTTPGET`, `CURLOPT_POST`, `CURLOPT_UPLOAD` and `CURLOPT_CUSTOMREQUEST` for a method. -/
def methodVariables : Method → Option (Bool × Bool × Bool × Option CString)
  | .get => some (true, false, false, none)
  | .post => some (false, true, false, none)
  | .put => some (false, false, true, none)
  | .patch => some (false, false, true, some (.lit "PATCH"))
  | _ => none

/-- A streamed body whose size the server is not told. -/
def needsChunked (r : HttpRequest) : Bool :=
  match r.method with
  | .post => r.streamCallback.isSome
  | .put | .patch => r.streamCallback.isSome && r.payloadSize == 0
  | _ => false

def requestLines (r : HttpRequest) : List CString :=
  (if needsChunked r then [transferEncodingChunked] else []) ++ r.header ++ [expect]

/-- Where the body comes from. -/
def BodyIs (s : State) (call : Nat) (r : HttpRequest) : Prop :=
  match r.method, r.streamCallback with
  | .get, _ => s.handle.postFields = none ∧ s.handle.readData = .null
  | .post, none => s.handle.postFields = r.payload ∧ s.handle.readData = .null
  | .post, some callback =>
    s.handle.postFields = none ∧ s.handle.readFunction = .stream callback ∧ s.handle.readData = .stream r.streamData
  | _, none =>
    s.handle.postFields = none ∧ s.handle.readFunction = .requestPayloadCallbackForPut ∧
      s.handle.readData = .context call ∧ s.context = some (r, 0)
  | _, some callback =>
    s.handle.postFields = none ∧ s.handle.readFunction = .stream callback ∧ s.handle.readData = .stream r.streamData

/-- The size variable that the method uses, -1 where the size is not known. -/
def SizeIs (h : EasyHandle) (r : HttpRequest) : Prop :=
  match r.method with
  | .post => h.postFieldSize = if needsChunked r then -1 else (r.payloadSize : Int)
  | .put | .patch => h.inFileSize = if needsChunked r then -1 else (r.payloadSize : Int)
  | _ => True

/-- At the transfer of `call`, before which there were the lists of `before`. -/
structure Current (before s : State) (call : Nat) (r : HttpRequest) : Prop where
  url : s.handle.url = r.uri
  header : ∃ id, s.handle.httpHeader = some id ∧ before.lists.length ≤ id ∧ s.lists[id]? = some (some (requestLines r))
  method : methodVariables r.method =
    some (s.handle.httpGet, s.handle.post, s.handle.upload, s.handle.customRequest)
  body : BodyIs s call r
  size : SizeIs s.handle r

/-- A transfer that is performed is one of the request, and otherwise there is an error. -/
structure Sent.Right (t : Sent) : Prop where
  current : ∀ s ∈ t.performed, Current t.before s t.call t.request
  error : t.performed = none → t.code ≠ .ok ()

/-! ## Requests that can be set up -/

/-- The calls of `curl_slist_append` with their outcomes. -/
def appendCalls (m : Nat → Bool) (r : HttpRequest) : List (Bool × CString) :=
  (if needsChunked r then [(m 0, transferEncodingChunked)] else []) ++
    r.header.zipIdx.map (fun line => (m (line.2 + 1), line.1)) ++ [(m (r.header.length + 1), expect)]

structure Settable (l : Nat) (m : Nat → Bool) (r : HttpRequest) : Prop where
  method : r.method = .get ∨ r.method = .post ∨ r.method = .put ∨ r.method = .patch
  appends : ∀ c ∈ appendCalls m r, c.1 = true
  /-- In a `long`. -/
  posted : r.method = .post → r.streamCallback = none → r.payloadSize < 2 ^ (l - 1)
  /-- In a `curl_off_t`. -/
  uploaded : r.method = .put ∨ r.method = .patch → r.payloadSize < 2 ^ 63
  /-- The constant that stands for an unknown size is read as it is. -/
  chunked : needsChunked r = true → l = 32

/-- The call returns before the transfer, or the request can be set up. -/
def Proper (l : Nat) (o : CallOutcome) (r : HttpRequest) : Prop :=
  o.listInitialized = .ok () → o.payloadAllocated = true → Settable l o.append r

/-! ## The header list -/

/-- `at_` is a state with a list of `lines` that is not among the first `n`, or with none and no lines. -/
structure Building (n : Nat) (handle : EasyHandle) (context : Option (HttpRequest × Nat)) (at_ : State × Option Nat)
    (lines : List CString) : Prop where
  length : n ≤ at_.1.lists.length
  handle : at_.1.handle = handle
  context : at_.1.context = context
  list : at_.2 = none ∧ lines = [] ∨ ∃ id, at_.2 = some id ∧ n ≤ id ∧ at_.1.lists[id]? = some (some lines)

/-- What a failed append leaves is an empty list. -/
def grow (lines : List CString) (c : Bool × CString) : List CString := if c.1 then lines ++ [c.2] else []

def State.appendTo (at_ : State × Option Nat) (c : Bool × CString) : State × Option Nat := at_.1.append c.1 at_.2 c.2

section

variable {n : Nat} {handle : EasyHandle} {context : Option (HttpRequest × Nat)} {at_ : State × Option Nat}
  {lines : List CString}

theorem Building.append (h : Building n handle context at_ lines) (c : Bool × CString) :
    Building n handle context (State.appendTo at_ c) (grow lines c) := by
  obtain ⟨s, list⟩ := at_
  obtain ⟨appended, line⟩ := c
  cases appended with
  | false => exact ⟨h.length, h.handle, h.context, .inl ⟨rfl, rfl⟩⟩
  | true =>
    rcases h.list with ⟨hnull, hlines⟩ | ⟨id, hid, hn, hlist⟩
    · simp only at hnull
      subst hnull hlines
      refine ⟨?_, h.handle, h.context, .inr ⟨s.lists.length, rfl, h.length, ?_⟩⟩
      · simpa [State.appendTo, State.append] using Nat.le_succ_of_le h.length
      · simp [State.appendTo, State.append, grow]
    · simp only at hid hlist
      subst hid
      refine ⟨?_, h.handle, h.context, .inr ⟨id, rfl, hn, ?_⟩⟩
      · simpa [State.appendTo, State.append] using h.length
      · simp [State.appendTo, State.append, grow, hlist]

theorem Building.appendAll (h : Building n handle context at_ lines) (calls : List (Bool × CString)) :
    Building n handle context (calls.foldl State.appendTo at_) (calls.foldl grow lines) := by
  induction calls generalizing at_ lines with
  | nil => exact h
  | cons c calls ih => exact ih (h.append c)

end

theorem length_foldl_grow (lines : List CString) (calls : List (Bool × CString)) :
    (calls.foldl grow lines).length ≤ lines.length + calls.length := by
  induction calls generalizing lines with
  | nil => exact Nat.le_refl _
  | cons c calls ih =>
    have hgrow : (grow lines c).length ≤ lines.length + 1 := by
      unfold grow
      split_ifs <;> simp
    have hrest := ih (grow lines c)
    rw [List.foldl_cons, List.length_cons]
    omega

/-- Nothing is lost if and only if every append succeeds. -/
theorem foldl_grow_eq_iff (lines : List CString) (calls : List (Bool × CString)) :
    calls.foldl grow lines = lines ++ calls.map Prod.snd ↔ ∀ c ∈ calls, c.1 = true := by
  induction calls generalizing lines with
  | nil => simp
  | cons c calls ih =>
    obtain ⟨appended, line⟩ := c
    rw [List.foldl_cons, List.forall_mem_cons]
    cases appended with
    | true =>
      have hgrow : grow lines (true, line) = lines ++ [line] := rfl
      rw [hgrow, eq_self_iff_true, true_and, ← ih (lines ++ [line]), List.append_assoc]
      rfl
    | false =>
      refine iff_of_false (fun h => ?_) (fun h => by cases h.1)
      have hlength := congrArg List.length h
      have hrest := length_foldl_grow [] calls
      simp only [grow, List.length_append, List.length_map, List.length_cons, List.length_nil, Bool.false_eq_true,
        if_false] at hlength hrest
      omega

/-! ## The options of one call -/

/-- The handle after the `switch`. -/
def methodHandle (l call : Nat) (h : EasyHandle) (r : HttpRequest) : EasyHandle :=
  match r.method, r.streamCallback with
  | .get, _ => { h with httpGet := true }
  | .post, none =>
    { h with post := true, postFields := r.payload, postFieldSize := (BitVec.ofNat l r.payloadSize).toInt }
  | .post, some callback =>
    { h with post := true, readFunction := .stream callback, readData := .stream r.streamData }
  | method, none =>
    setInFileSize l { h with
      customRequest := if method = .patch then some (.lit "PATCH") else h.customRequest
      upload := true
      readFunction := .requestPayloadCallbackForPut
      readData := .context call } r.payloadSize
  | method, some callback =>
    let h := { h with
      customRequest := if method = .patch then some (.lit "PATCH") else h.customRequest
      upload := true
      readFunction := .stream callback
      readData := .stream r.streamData }
    if r.payloadSize = 0 then h else setInFileSize l h r.payloadSize

/-- The user context is set for a body from memory that is uploaded. -/
def methodContext (context : Option (HttpRequest × Nat)) (r : HttpRequest) : Option (HttpRequest × Nat) :=
  if (r.method = .put ∨ r.method = .patch) ∧ r.streamCallback = none then some (r, 0) else context

def methodState (l call : Nat) (s : State) (r : HttpRequest) : State :=
  { s with handle := methodHandle l call s.handle r, context := methodContext s.context r }

theorem setMethodOptions_eq (l : Nat) (appended : Bool) (call : Nat) (s : State) (r : HttpRequest) :
    setMethodOptions l appended call s r =
      if (methodVariables r.method).isSome then
        some ((if needsChunked r then [(appended, transferEncodingChunked)] else []).foldl State.appendTo
          (methodState l call s r, none))
      else none := by
  obtain ⟨header, payload, payloadSize, method, uri, streamCallback, streamData⟩ := r
  cases method with
  | get => rfl
  | post => cases streamCallback <;> rfl
  | put | patch =>
    cases streamCallback with
    | none => rfl
    | some callback =>
      by_cases hsize : payloadSize = 0
      · subst hsize
        rfl
      · simp [setMethodOptions, setPayloadOptions, methodVariables, needsChunked, methodState, methodHandle,
          methodContext, hsize]
  | head | delete | connect | options | trace => rfl

/-- All appends of a call, from a null list on. -/
def built (l : Nat) (m : Nat → Bool) (call : Nat) (s : State) (r : HttpRequest) : State × Option Nat :=
  (appendCalls m r).foldl State.appendTo (methodState l call { s with handle := resetOptions l s.handle r } r, none)

theorem setRequestOptions_eq (l : Nat) (m : Nat → Bool) (call : Nat) (s : State) (r : HttpRequest) :
    setRequestOptions l m call s r =
      if (methodVariables r.method).isSome then
        ({ (built l m call s r).1 with
            handle := { (built l m call s r).1.handle with httpHeader := (built l m call s r).2 } },
          (built l m call s r).2)
      else ({ s with handle := resetOptions l s.handle r }, none) := by
  simp only [setRequestOptions, setMethodOptions_eq, built, appendCalls, List.foldl_append, List.foldl_map]
  split_ifs <;> rfl

theorem built_building (l : Nat) (m : Nat → Bool) (call : Nat) (s : State) (r : HttpRequest) :
    Building s.lists.length (methodHandle l call (resetOptions l s.handle r) r) (methodContext s.context r)
      (built l m call s r) ((appendCalls m r).foldl grow []) := by
  have hstart : Building s.lists.length (methodHandle l call (resetOptions l s.handle r) r) (methodContext s.context r)
      (methodState l call { s with handle := resetOptions l s.handle r } r, none) [] :=
    ⟨Nat.le_refl _, rfl, rfl, .inl ⟨rfl, rfl⟩⟩
  exact hstart.appendAll _

theorem appendCalls_lines (m : Nat → Bool) (r : HttpRequest) : (appendCalls m r).map Prod.snd = requestLines r := by
  have hheader : (r.header.zipIdx.map fun line => (m (line.2 + 1), line.1)).map Prod.snd = r.header := by
    rw [List.map_map]
    exact List.zipIdx_map_fst 0 r.header
  rw [appendCalls, requestLines, List.map_append, List.map_append, hheader]
  split_ifs <;> rfl

/-! ## Sizes -/

theorem toInt_ofNat_eq_iff {w : Nat} (hw : 0 < w) (n : Nat) : (BitVec.ofNat w n).toInt = n ↔ n < 2 ^ (w - 1) := by
  have hpow : 2 ^ w = 2 ^ (w - 1) * 2 := by
    rw [← Nat.pow_succ]
    congr 1
    omega
  constructor
  · intro h
    have hlt : (BitVec.ofNat w n).toInt < 2 ^ (w - 1) := BitVec.toInt_lt
    rw [h] at hlt
    exact_mod_cast hlt
  · intro h
    rw [BitVec.toInt_eq_toNat_of_lt] <;> rw [BitVec.toNat_ofNat, Nat.mod_eq_of_lt (by omega)]
    omega

/-- Only a `long` as wide as an `int` has the constant for an unknown size. -/
theorem readAsLong_minusOne {l : Nat} (hl : 32 ≤ l) : readAsLong l (-1) = -1 ↔ l = 32 := by
  have hconstant : (BitVec.ofInt 32 (-1)).toNat = 2 ^ 32 - 1 := by decide
  rw [readAsLong, hconstant]
  constructor
  · intro h
    by_contra hne
    have hpow : 2 ^ 32 ≤ 2 ^ (l - 1) := Nat.pow_le_pow_right (by decide) (by omega)
    rw [(toInt_ofNat_eq_iff (by omega) _).2 (by omega)] at h
    omega
  · rintro rfl
    decide

theorem setInFileSize_eq_iff {l : Nat} (hl : 32 ≤ l) (h : EasyHandle) (n : Nat) :
    (setInFileSize l h n).inFileSize = n ↔ n < 2 ^ 63 := by
  have hlong : 2 ^ 31 ≤ 2 ^ (l - 1) := Nat.pow_le_pow_right (by decide) (by omega)
  unfold setInFileSize
  split_ifs with hsmall
  · exact iff_of_true ((toInt_ofNat_eq_iff (by omega) n).2 (by omega)) (by omega)
  · exact toInt_ofNat_eq_iff (by decide) n

/-- Of the handle it only sets the size. -/
theorem setInFileSize_frame (l : Nat) (h : EasyHandle) (n : Nat) :
    setInFileSize l h n = { h with inFileSize := (setInFileSize l h n).inFileSize } := by
  unfold setInFileSize
  split_ifs <;> rfl

/-! ## When a transfer is current -/

/-- The state of the transfer, if the method is supported. -/
def transfer (l : Nat) (m : Nat → Bool) (call : Nat) (s : State) (r : HttpRequest) : State :=
  { (built l m call s r).1 with
    handle := { (built l m call s r).1.handle with httpHeader := (built l m call s r).2 } }

/-- The header list is whole if and only if no append fails. -/
theorem header_iff (l : Nat) (m : Nat → Bool) (call : Nat) (s : State) (r : HttpRequest) :
    (∃ id, (transfer l m call s r).handle.httpHeader = some id ∧ s.lists.length ≤ id ∧
        (transfer l m call s r).lists[id]? = some (some (requestLines r))) ↔
      ∀ c ∈ appendCalls m r, c.1 = true := by
  have hbuilding := built_building l m call s r
  have hgrow := foldl_grow_eq_iff [] (appendCalls m r)
  rw [List.nil_append, appendCalls_lines] at hgrow
  rw [← hgrow, transfer]
  rcases hbuilding.list with ⟨hnull, hlines⟩ | ⟨id, hid, hn, hlist⟩
  · rw [hnull, hlines]
    refine iff_of_false (fun ⟨id, hid, _⟩ => by cases hid) fun hempty => ?_
    rw [requestLines, eq_comm] at hempty
    exact List.append_ne_nil_of_right_ne_nil _ (List.cons_ne_nil _ _) hempty
  · simp only [hid, Option.some.injEq, exists_eq_left', hn, true_and, hlist]

/-- All options but the header list, of a handle set for `r`. -/
structure Options (l call : Nat) (h : EasyHandle) (context : Option (HttpRequest × Nat)) (r : HttpRequest) : Prop where
  url : h.url = r.uri
  method : methodVariables r.method = some (h.httpGet, h.post, h.upload, h.customRequest)
  body : BodyIs ⟨h, [], context⟩ call r
  size : SizeIs h r ↔
    (r.method = .post → r.streamCallback = none → r.payloadSize < 2 ^ (l - 1)) ∧
      (r.method = .put ∨ r.method = .patch → r.payloadSize < 2 ^ 63) ∧ (needsChunked r = true → l = 32)

theorem methodHandle_options {l : Nat} (hl : 32 ≤ l) (call : Nat) (h : EasyHandle)
    (context : Option (HttpRequest × Nat)) {r : HttpRequest} (hmethod : (methodVariables r.method).isSome) :
    Options l call (methodHandle l call (resetOptions l h r) r) (methodContext context r) r := by
  have hunknown := readAsLong_minusOne hl
  obtain ⟨header, payload, payloadSize, method, uri, streamCallback, streamData⟩ := r
  cases method with
  | get => exact ⟨rfl, rfl, ⟨rfl, rfl⟩, by simp [SizeIs, needsChunked]⟩
  | post =>
    cases streamCallback with
    | none =>
      refine ⟨rfl, rfl, ⟨rfl, rfl⟩, ?_⟩
      have hsize := toInt_ofNat_eq_iff (by omega : 0 < l) payloadSize
      simp [methodHandle, SizeIs, needsChunked, hsize]
    | some callback =>
      exact ⟨rfl, rfl, ⟨rfl, rfl, rfl⟩, by simp [methodHandle, resetOptions, SizeIs, needsChunked, hunknown]⟩
  | put | patch =>
    cases streamCallback with
    | none =>
      simp only [methodHandle]
      rw [setInFileSize_frame]
      refine ⟨rfl, rfl, ⟨rfl, rfl, rfl, rfl⟩, ?_⟩
      simp [setInFileSize_eq_iff hl, SizeIs, needsChunked]
    | some callback =>
      by_cases hsize : payloadSize = 0
      · subst hsize
        refine ⟨rfl, rfl, ⟨rfl, rfl, rfl⟩, ?_⟩
        simp [methodHandle, resetOptions, SizeIs, needsChunked, hunknown]
      · simp only [methodHandle, if_neg hsize]
        rw [setInFileSize_frame]
        refine ⟨rfl, rfl, ⟨rfl, rfl, rfl⟩, ?_⟩
        simp [setInFileSize_eq_iff hl, SizeIs, needsChunked, hsize]
  | _ => cases hmethod

theorem supported_iff (method : Method) :
    (methodVariables method).isSome ↔ method = .get ∨ method = .post ∨ method = .put ∨ method = .patch := by
  cases method <;> simp [methodVariables]

/-- A body does not depend on the lists and their variable. -/
theorem bodyIs_congr {s s' : State} {call : Nat} {r : HttpRequest} (hfields : s.handle.postFields = s'.handle.postFields)
    (hfunction : s.handle.readFunction = s'.handle.readFunction) (hdata : s.handle.readData = s'.handle.readData)
    (hcontext : s.context = s'.context) : BodyIs s call r ↔ BodyIs s' call r := by
  simp only [BodyIs, hfields, hfunction, hdata, hcontext]

theorem transfer_current_iff {l : Nat} (hl : 32 ≤ l) (m : Nat → Bool) (call : Nat) (s : State) {r : HttpRequest}
    (hmethod : (methodVariables r.method).isSome) :
    Current s (transfer l m call s r) call r ↔ Settable l m r := by
  have hbuilding := built_building l m call s r
  have hoptions := methodHandle_options hl call s.handle s.context hmethod
  have hhandle : (transfer l m call s r).handle =
      { methodHandle l call (resetOptions l s.handle r) r with httpHeader := (built l m call s r).2 } := by
    rw [transfer, hbuilding.handle]
  have hcontext : (transfer l m call s r).context = methodContext s.context r := hbuilding.context
  constructor
  · intro h
    have hsize : SizeIs (methodHandle l call (resetOptions l s.handle r) r) r := by
      have hsize := h.size
      rw [hhandle] at hsize
      exact hsize
    obtain ⟨hposted, huploaded, hchunked⟩ := hoptions.size.1 hsize
    exact ⟨(supported_iff r.method).1 hmethod, (header_iff l m call s r).1 h.header, hposted, huploaded, hchunked⟩
  · intro h
    have hsize := hoptions.size.2 ⟨h.posted, h.uploaded, h.chunked⟩
    refine ⟨?_, (header_iff l m call s r).2 h.appends, ?_, ?_, ?_⟩
    · rw [hhandle]
      exact hoptions.url
    · rw [hhandle]
      exact hoptions.method
    · refine (bodyIs_congr ?_ ?_ ?_ hcontext).2 hoptions.body
      all_goals rw [hhandle]
    · rw [hhandle]
      exact hsize

/-- One call, from any state that the calls before have left. -/
theorem send_right_iff {l : Nat} (hl : 32 ≤ l) (o : CallOutcome) (call : Nat) (s : State) (r : HttpRequest) :
    Sent.Right ⟨s, call, r, (mclHttpClientSend l o call s r).2.1, (mclHttpClientSend l o call s r).2.2⟩ ↔
      Proper l o r := by
  simp only [mclHttpClientSend, setRequestOptions_eq]
  cases hinitialized : o.listInitialized with
  | error e =>
    refine iff_of_true ⟨by simp, fun _ h => by cases h⟩ fun h => ?_
    rw [hinitialized] at h
    cases h
  | ok u =>
    cases hallocated : o.payloadAllocated with
    | false =>
      refine iff_of_true ⟨by simp, fun _ h => by cases h⟩ fun _ h => ?_
      rw [hallocated] at h
      cases h
    | true =>
      have hproper : Proper l o r ↔ Settable l o.append r := by simp [Proper, hinitialized, hallocated]
      rw [hproper]
      by_cases hmethod : (methodVariables r.method).isSome
      · rw [← transfer_current_iff hl o.append call { s with context := none } hmethod]
        simp only [hmethod, if_true]
        constructor
        · intro h
          obtain ⟨hurl, hheader, hmethod', hbody, hsize⟩ := h.current _ rfl
          exact ⟨hurl, hheader, hmethod', hbody, hsize⟩
        · rintro ⟨hurl, hheader, hmethod', hbody, hsize⟩
          refine ⟨fun snapshot hsnapshot => ?_, fun h => by cases h⟩
          obtain rfl := Option.some.inj hsnapshot
          exact ⟨hurl, hheader, hmethod', hbody, hsize⟩
      · -- the transfer is performed with what the options were before
        simp only [hmethod, if_true]
        refine iff_of_false (fun h => ?_) fun h => hmethod ((supported_iff r.method).2 h.method)
        have hvariables := (h.current _ rfl).method
        rw [hvariables] at hmethod
        exact hmethod rfl

theorem sends_right {l : Nat} (hl : 32 ≤ l) (call : Nat) (s : State) (calls : List (CallOutcome × HttpRequest)) :
    (∀ t ∈ sends l call s calls, t.Right) ↔ ∀ c ∈ calls, Proper l c.1 c.2 := by
  induction calls generalizing call s with
  | nil => simp [sends]
  | cons c calls ih =>
    rw [sends, List.forall_mem_cons, List.forall_mem_cons, ih]
    exact and_congr_left' (send_right_iff hl c.1 call s c.2)

/-- In every run on one client, whatever is left of the options before it, every transfer is one of its own request if
and only if each call ends before the transfer or has a request that can be set up. -/
theorem sends_right_iff (l : Nat) (hl : 32 ≤ l) (call : Nat) (s : State) (calls : List (CallOutcome × HttpRequest)) :
    (∀ t ∈ sends l call s calls, t.Right) ↔ ∀ c ∈ calls, Proper l c.1 c.2 :=
  sends_right hl call s calls

def easyHandle : EasyHandle := ⟨none, false, false, false, none, none, -1, -1, .null, .null, none⟩

/-- Everything succeeds. -/
def success : CallOutcome := ⟨fun _ => true, .ok (), true, .ok (), .ok ()⟩

def plainRequest (method : Method) : HttpRequest := ⟨[.lit "A: b"], none, 0, method, some (.lit "u"), none, none⟩

/-- Two transfers, the second behind what the first has left. -/
theorem getThenPut_right :
    (sends 64 0 ⟨easyHandle, [], none⟩ [(success, plainRequest .get), (success, plainRequest .put)]).length = 2 ∧
      ∀ t ∈ sends 64 0 ⟨easyHandle, [], none⟩ [(success, plainRequest .get), (success, plainRequest .put)],
        t.Right := by
  refine ⟨rfl, (sends_right_iff 64 (by decide) 0 _ _).2 fun c hc _ _ => ?_⟩
  simp only [List.mem_cons, List.not_mem_nil, or_false] at hc
  rcases hc with rfl | rfl
  · exact ⟨.inl rfl, by decide, nofun, by simp [plainRequest], by simp [plainRequest, needsChunked]⟩
  · exact ⟨.inr (.inr (.inl rfl)), by decide, nofun, fun _ => by decide, by simp [plainRequest, needsChunked]⟩

/-- The transfer of a DELETE is performed, with the freed header list of the GET before it. -/
theorem getThenDelete_not_right :
    ¬ ∀ t ∈ sends 64 0 ⟨easyHandle, [], none⟩ [(success, plainRequest .get), (success, plainRequest .delete)], t.Right := by
  rw [sends_right (by decide)]
  intro h
  have hdelete := h (success, plainRequest .delete) (by simp)
  simpa [plainRequest] using (hdelete rfl rfl).method

end MindConnect.Libcurl
