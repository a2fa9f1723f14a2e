import MindConnect.DataLake.AzureDetection
import MindConnect.DataLake.UploadUrls
import MindConnect.Lib.CriticalSection

/-!
# Where content is uploaded to

| here | there |
| --- | --- |
| `UploadParameters`, `DataLakeState` | `mcl_data_lake_object_t` (`data_lake_object.h`), all objects by address |
| `mclDataLakeObjectSetParameter` | `mcl_data_lake_object_set_parameter` (`data_lake_object.c:44`) |
| `dataLakeObjectValidate` | `data_lake_object_validate` (`:116`) |
| `uploadRequest`, `dataLakeProcessorUpload` | `data_lake_processor_upload` (`data_lake_processor.c:82`) |
| `mclDataLakeGenerateUploadUrl` | `mcl_data_lake_generate_upload_url` (`data_lake.c:71`), `_for_subtenant` |
| `DataLakeCall` | calls of these and of `mcl_data_lake_generate_upload_urls` |

A null object only gives a code and is left out. A URL generation frees the signed URLs it is about to replace;
setting a path does not free the one that was issued for the old path. `run_uploadsWhereIssued` is about runs in
which a path is not replaced under a signed URL.
-/

namespace MindConnect

open CriticalSection

/-! ## The code -/

/-- An address that the code only passes on. -/
abbrev Pointer := Nat

/-- What an upload needs of an object beside its two strings. -/
structure UploadParameters where
  uploadCallback : Option Pointer
  userContext : Option Pointer
  size : Nat

structure DataLakeState where
  objects : Objects
  parameters : Nat → UploadParameters

/-- Every object as `mcl_data_lake_object_initialize` leaves it. -/
def DataLakeState.initial : DataLakeState := ⟨fun _ => ⟨none, none⟩, fun _ => ⟨none, none, 0⟩⟩

def DataLakeState.setPath (s : DataLakeState) (object : Nat) (path : Option CString) : DataLakeState :=
  { s with objects := Function.update s.objects object { s.objects object with path } }

def DataLakeState.setParameters (s : DataLakeState) (object : Nat) (parameters : UploadParameters) : DataLakeState :=
  { s with parameters := Function.update s.parameters object parameters }

/-- A parameter with its value; `other` is none of the enumeration. -/
inductive ObjectParameter where
  | path (value : CString)
  | size (value : Nat)
  | uploadCallback (value : Pointer)
  | userContext (value : Pointer)
  | other

/-- A null value is `none`, `copied` is whether there was memory for a copy of the path. -/
def mclDataLakeObjectSetParameter (copied : Bool) (object : Nat) (value : Option ObjectParameter)
    (s : DataLakeState) : Result Unit × DataLakeState :=
  match value with
  | none => (.error .triggeredWithNull, s)
  | some (.path path) =>
    -- `mcl_string_util_reset` frees the old path before it copies.
    if copied then (.ok (), s.setPath object (some path)) else (.error .outOfMemory, s.setPath object none)
  | some (.uploadCallback callback) =>
    (.ok (), s.setParameters object { s.parameters object with uploadCallback := some callback })
  | some (.userContext context) =>
    (.ok (), s.setParameters object { s.parameters object with userContext := some context })
  | some (.size size) => (.ok (), s.setParameters object { s.parameters object with size })
  | some .other => (.error .invalidParameter, s)

def dataLakeObjectValidate (object : DataLakeObject) (parameters : UploadParameters) : Result Unit :=
  if object.path = none then .error .invalidParameter
  else if object.signedUrl = none then .error .invalidParameter
  else if parameters.uploadCallback = none then .error .invalidParameter
  else if parameters.size = 0 then .error .invalidParameter
  else .ok ()

structure UploadRequest where
  method : HttpMethod
  uri : CString
  streamCallback : Pointer
  streamData : Pointer
  payloadSize : Nat
  header : List (CString × CString)

/-- The steps of building the request that memory alone decides. -/
inductive UploadStep where
  | request | url | azureHeader
deriving DecidableEq, Repr

/-- `outside` is what comparing a URL over its end comes to. -/
structure UploadEnvironment where
  step : UploadStep → Result Unit
  outside : Option Bool
  send : UploadRequest → Result HttpResponse

def azureHeaderBlobType : CString := .lit "x-ms-blob-type"
def azureHeaderBlockBlob : CString := .lit "BlockBlob"

/-- The null check of `mcl_http_request_set_parameter`. -/
def parameterValue {α : Type} : Option α → Result α
  | some value => .ok value
  | none => .error .triggeredWithNull

/-- The request before the header for Azure Storage. -/
def preparedRequest (env : UploadEnvironment) (object : DataLakeObject) (parameters : UploadParameters) :
    Result UploadRequest := do
  dataLakeObjectValidate object parameters
  env.step .request
  let uri ← parameterValue object.signedUrl
  env.step .url
  let streamCallback ← parameterValue parameters.uploadCallback
  let streamData ← parameterValue parameters.userContext
  return { method := .put, uri, streamCallback, streamData, payloadSize := parameters.size, header := [] }

def uploadRequest (w : Nat) (env : UploadEnvironment) (object : DataLakeObject) (parameters : UploadParameters) :
    Option (Result UploadRequest) :=
  match preparedRequest env object parameters with
  | .error e => some (.error e)
  | .ok request => do
    if ← SignedUrl.checkUrlIfItIsForAzureStorage w env.outside request.uri then
      return (env.step .azureHeader).map fun () =>
        { request with header := [(azureHeaderBlobType, azureHeaderBlockBlob)] }
    else return .ok request

/-- The code, and the request if one was sent. -/
def dataLakeProcessorUpload (w : Nat) (env : UploadEnvironment) (object : DataLakeObject)
    (parameters : UploadParameters) : Option (Result Unit × Option UploadRequest) := do
  match ← uploadRequest w env object parameters with
  | .error e => return (.error e, none)
  | .ok request =>
    match env.send request with
    | .error e => return (.error e, some request)
    | .ok response =>
      if response.statusCode = 200 ∨ response.statusCode = 201 then return (.ok (), some request)
      else return (httpResponseGetStatus response.statusCode, some request)

/-- `token` is what `mcl_core_get_last_access_token` comes to. -/
def mclDataLakeGenerateUploadUrl (w : Nat) (env : DataLakeEnvironment) (clientId url : Option CString)
    (token : Result CString) (object : Nat) (subtenantId : Option CString) (objects : Objects) :
    Option (Result Unit × Objects) :=
  match token with
  | .error e => some (.error e, objects)
  | .ok token => processorGenerateUploadUrl w env ⟨clientId, token, url⟩ object subtenantId objects

/-! ## Runs -/

inductive DataLakeCall where
  | setParameter (copied : Bool) (object : Nat) (value : Option ObjectParameter)
  | generateUploadUrl (clientId url : Option CString) (call : UrlsCall) (object : Nat)
  | generateUploadUrls (clientId url : Option CString) (call : UrlsCall) (list : CursorList Nat)
  | upload (env : UploadEnvironment) (object : Nat)

/-- The code of a call, and the upload request it sent. -/
structure DataLakeOutcome where
  code : Result Unit
  sent : Option UploadRequest

def DataLakeCall.perform (w : Nat) : DataLakeCall → DataLakeState → Option (DataLakeOutcome × DataLakeState)
  | .setParameter copied object value, s =>
    let (code, s) := mclDataLakeObjectSetParameter copied object value s
    some (⟨code, none⟩, s)
  | .generateUploadUrl clientId url call object, s => do
    let (code, objects) ←
      mclDataLakeGenerateUploadUrl w call.env clientId url call.token object call.subtenantId s.objects
    return (⟨code, none⟩, { s with objects })
  | .generateUploadUrls clientId url call list, s => do
    let (code, _, objects) ← call.run w clientId url list s.objects
    return (⟨code, none⟩, { s with objects })
  | .upload env object, s => do
    let (code, sent) ← dataLakeProcessorUpload w env (s.objects object) (s.parameters object)
    return (⟨code, sent⟩, s)

def DataLakePerforms (w : Nat) (call : DataLakeCall) (s : DataLakeState) (out : DataLakeOutcome)
    (s' : DataLakeState) : Prop :=
  call.perform w s = some (out, s')

abbrev DoneDataLakeCall := Done DataLakeState DataLakeCall DataLakeOutcome

/-- A response to a URL generation, and the path one of its objects had when it was asked for. -/
structure Received where
  parse : Bytes → Option Json
  response : HttpResponse
  overhead : Nat
  path : Option CString

def UrlsCall.received (w : Nat) (clientId url : Option CString) (call : UrlsCall) (array : List Nat) (object : Nat)
    (objects : Objects) : Option Received :=
  match call.token with
  | .error _ => none
  | .ok token =>
    match answer w call.env ⟨clientId, token, url⟩ array call.subtenantId objects with
    | some (.ok response) => some ⟨call.env.parse, response, strlen clientId + 1, (objects object).path⟩
    | _ => none

/-- What a call that includes the object received. -/
def DataLakeCall.received (w object : Nat) (call : DataLakeCall) (objects : Objects) : Option Received :=
  match call with
  | .generateUploadUrl clientId url call a =>
    if object = a then call.received w clientId url [a] object objects else none
  | .generateUploadUrls clientId url call list =>
    if object ∈ list.seq ∧ call.env.arrayAllocated then call.received w clientId url list.seq object objects
    else none
  | _ => none

/-- The latest response to a call that includes the object. -/
def latestReceived (w object : Nat) (ds : List DoneDataLakeCall) : Option Received :=
  ds.foldl (fun latest d => (d.call.received w object d.before.objects).or latest) none

/-- Every upload of the object goes to a URL that the latest response pairs with the path the object has. -/
def UploadsWhereIssued (w object : Nat) (ds : List DoneDataLakeCall) : Prop :=
  ∀ pre d post env request, ds = pre ++ d :: post → d.call = .upload env object → d.out.sent = some request →
    ∃ received path, latestReceived w object pre = some received ∧
      (d.before.objects object).path = some path ∧
      PairedInResponse received.parse received.response received.overhead path request.uri

/-- A path that is set on the object while it has a signed URL is the path of the latest request for one. -/
def KeepsIssuedPath (w object : Nat) (ds : List DoneDataLakeCall) : Prop :=
  ∀ pre d post path, ds = pre ++ d :: post → d.call = .setParameter true object (some (.path path)) →
    (d.before.objects object).signedUrl.isSome →
    ∀ received, latestReceived w object pre = some received → received.path = some path

/-! ## One URL generation -/

section

variable {w : Nat} {env : DataLakeEnvironment} {processor : DataLakeProcessor} {array : List Nat}
  {subtenantId : Option CString} {objects objects' : Objects} {code : Result Unit} {a : Nat}

/-- A generation clears the signed URLs, and matches those of a response with status 201. -/
theorem generateUploadUrls_cases
    (h : generateUploadUrls w env processor array subtenantId objects = some (code, objects')) :
    objects' = clearSignedUrls array objects ∨
      ∃ response, answer w env processor array subtenantId objects = some (.ok response) ∧
        objects' = (matchSignedUrls w env.parse env.memory array (response.payload.getD [])
          (strlen processor.clientId) (clearSignedUrls array objects)).2 := by
  obtain ⟨answered, hanswer, hresult⟩ := answer_of_generateUploadUrls h
  cases answered with
  | error e =>
    cases hresult
    exact .inl rfl
  | ok response =>
    rw [concluded] at hresult
    by_cases hcreated : response.statusCode = 201
    · rw [if_pos hcreated] at hresult
      exact .inr ⟨response, hanswer, congrArg Prod.snd hresult⟩
    · rw [if_neg hcreated] at hresult
      cases hresult
      exact .inl rfl

/-- What is left of an object that a generation includes: its path, and a signed URL only if the response pairs it
with that path. -/
structure Reissued (answered : Option (Result HttpResponse)) (parse : Bytes → Option Json) (overhead : Nat)
    (before after : DataLakeObject) : Prop where
  path : after.path = before.path
  signedUrl : ∀ url, after.signedUrl = some url → ∃ response path, answered = some (.ok response) ∧
    before.path = some path ∧ PairedInResponse parse response overhead path url

theorem generateUploadUrls_reissued
    (h : generateUploadUrls w env processor array subtenantId objects = some (code, objects')) (ha : a ∈ array) :
    Reissued (answer w env processor array subtenantId objects) env.parse (strlen processor.clientId + 1)
      (objects a) (objects' a) := by
  have hpath : (clearSignedUrls array objects a).path = (objects a).path := by
    rw [clearSignedUrls_eq, if_pos ha]
  rcases generateUploadUrls_cases h with rfl | ⟨response, hanswer, rfl⟩
  · refine ⟨hpath, ?_⟩
    intro url hurl
    rw [signedUrl_clearSignedUrls ha] at hurl
    cases hurl
  · refine ⟨(path_matchSignedUrls _ _ _ _ _ _ _ _).trans hpath, ?_⟩
    intro url hurl
    obtain ⟨path, hsome, hpaired⟩ := matchSignedUrls_paired (signedUrl_clearSignedUrls ha) hurl
    exact ⟨response, path, hanswer, hpath.symm.trans hsome, hpaired⟩

theorem generateUploadUrls_of_notMem
    (h : generateUploadUrls w env processor array subtenantId objects = some (code, objects')) (ha : a ∉ array) :
    objects' a = objects a := by
  have hcleared : clearSignedUrls array objects a = objects a := by
    rw [clearSignedUrls_eq, if_neg ha]
  rcases generateUploadUrls_cases h with rfl | ⟨response, -, rfl⟩
  · exact hcleared
  · rw [matchSignedUrls_of_notMem _ _ _ _ _ _ ha, hcleared]

end

/-! ## The invariant -/

/-- A signed URL is paired by the latest response with the path it was asked for, and the object has no other path. -/
def Issued (latest : Option Received) (object : DataLakeObject) : Prop :=
  ∀ url, object.signedUrl = some url → ∃ received path, latest = some received ∧ received.path = some path ∧
    PairedInResponse received.parse received.response received.overhead path url ∧
    ∀ current, object.path = some current → current = path

theorem Issued.of_signedUrl_none {latest : Option Received} {object : DataLakeObject}
    (h : object.signedUrl = none) : Issued latest object := by
  intro url hurl
  rw [h] at hurl
  cases hurl

section

variable {w : Nat} {call : UrlsCall} {clientId url : Option CString} {array : List Nat}
  {objects objects' : Objects} {object : Nat} {latest : Option Received}

theorem Reissued.issued {token : CString} (htoken : call.token = .ok token)
    (h : Reissued (answer w call.env ⟨clientId, token, url⟩ array call.subtenantId objects) call.env.parse
      (strlen clientId + 1) (objects object) (objects' object)) :
    Issued ((call.received w clientId url array object objects).or latest) (objects' object) := by
  intro signedUrl hurl
  obtain ⟨response, path, hanswer, hpath, hpaired⟩ := h.signedUrl signedUrl hurl
  have hreceived : call.received w clientId url array object objects =
      some ⟨call.env.parse, response, strlen clientId + 1, (objects object).path⟩ := by
    simp only [UrlsCall.received, htoken, hanswer]
  refine ⟨_, path, by rw [hreceived]; rfl, hpath, hpaired, ?_⟩
  intro current hcurrent
  rw [h.path, hpath] at hcurrent
  exact (Option.some.inj hcurrent).symm

theorem received_of_error {e : McError} (htoken : call.token = .error e) :
    call.received w clientId url array object objects = none := by
  simp only [UrlsCall.received, htoken]

end

section

variable {w : Nat} {s s' : DataLakeState} {out : DataLakeOutcome} {object : Nat} {latest : Option Received}

theorem generateUploadUrl_issued {clientId url : Option CString} {call : UrlsCall} {a : Nat}
    (hissued : Issued latest (s.objects object))
    (h : DataLakePerforms w (.generateUploadUrl clientId url call a) s out s') :
    Issued (((DataLakeCall.generateUploadUrl clientId url call a).received w object s.objects).or latest)
      (s'.objects object) := by
  obtain ⟨⟨code, objects⟩, hgenerate, heq⟩ := Option.bind_eq_some_iff.1 h
  cases heq
  simp only [DataLakeCall.received]
  cases htoken : call.token with
  | error e =>
    simp only [mclDataLakeGenerateUploadUrl, htoken] at hgenerate
    cases hgenerate
    rw [received_of_error htoken, ite_self, Option.none_or]
    exact hissued
  | ok token =>
    simp only [mclDataLakeGenerateUploadUrl, htoken] at hgenerate
    by_cases hobject : object = a
    · subst hobject
      rw [if_pos rfl]
      exact (generateUploadUrls_reissued hgenerate (List.mem_singleton_self object)).issued htoken
    · have hkept := generateUploadUrls_of_notMem hgenerate (a := object) (by simpa using hobject)
      rw [if_neg hobject, Option.none_or]
      show Issued latest (objects object)
      rwa [hkept]

theorem generateUploadUrls_issued {clientId url : Option CString} {call : UrlsCall} {list : CursorList Nat}
    (hissued : Issued latest (s.objects object))
    (h : DataLakePerforms w (.generateUploadUrls clientId url call list) s out s') :
    Issued (((DataLakeCall.generateUploadUrls clientId url call list).received w object s.objects).or latest)
      (s'.objects object) := by
  obtain ⟨⟨code, list', objects⟩, hrun, heq⟩ := Option.bind_eq_some_iff.1 h
  cases heq
  simp only [DataLakeCall.received]
  by_cases hcollects : call.collects = true ∧ list.seq ≠ []
  · obtain ⟨hcollects, ne_nil⟩ := hcollects
    have hcursor : list.cursor = 0 := by
      by_contra hne
      rw [run_of_collects_later w clientId url hcollects hne] at hrun
      cases hrun
    obtain ⟨token, htoken, hcall⟩ := run_of_collects_first w clientId url hcollects ne_nil hcursor s.objects
    have harray : call.env.arrayAllocated = true := by
      simpa [UrlsCall.collects, htoken, Except.toBool] using hcollects
    rw [hcall] at hrun
    obtain ⟨result, hgenerate, heq⟩ := Option.map_eq_some_iff.1 hrun
    cases heq
    by_cases hobject : object ∈ list.seq
    · rw [if_pos ⟨hobject, harray⟩]
      exact (generateUploadUrls_reissued hgenerate hobject).issued htoken
    · have hkept := generateUploadUrls_of_notMem hgenerate hobject
      rw [if_neg fun h => hobject h.1, Option.none_or]
      show Issued latest (result.2 object)
      rwa [hkept]
  · have hends : call.collects = false ∨ list.seq = [] := by
      rcases Classical.not_and_iff_not_or_not.1 hcollects with h | h
      · exact .inl (Bool.eq_false_iff.2 h)
      · exact .inr (not_not.1 h)
    obtain ⟨code', hsame⟩ := run_of_not_collects w clientId url hends s.objects
    rw [hsame] at hrun
    cases hrun
    have hnone : (if object ∈ list.seq ∧ call.env.arrayAllocated = true then
        call.received w clientId url list.seq object s.objects else none) = none := by
      cases htoken : call.token with
      | error e => rw [received_of_error htoken, ite_self]
      | ok token =>
        rcases hends with hcollects | hnil
        · have harray : call.env.arrayAllocated = false := by
            simpa [UrlsCall.collects, htoken, Except.toBool] using hcollects
          simp [harray]
        · simp [hnil]
    rw [hnone, Option.none_or]
    exact hissued

/-- A parameter leaves the signed URL, and the path too unless it is the path of this object. -/
theorem setParameter_issued {copied : Bool} {a : Nat} {value : Option ObjectParameter}
    (hissued : Issued latest (s.objects object))
    (hkeeps : ∀ path, copied = true → a = object → value = some (.path path) →
      (s.objects object).signedUrl.isSome → ∀ received, latest = some received → received.path = some path) :
    Issued latest ((mclDataLakeObjectSetParameter copied a value s).2.objects object) := by
  cases value with
  | none => exact hissued
  | some parameter =>
    cases parameter with
    | path path =>
      by_cases ha : object = a
      · subst ha
        cases copied with
        | false =>
          intro url hurl
          simp only [mclDataLakeObjectSetParameter, Bool.false_eq_true, if_false, DataLakeState.setPath,
            Function.update_self] at hurl ⊢
          obtain ⟨received, issuedPath, hlatest, hpath, hpaired, -⟩ := hissued url hurl
          exact ⟨received, issuedPath, hlatest, hpath, hpaired, by simp⟩
        | true =>
          intro url hurl
          simp only [mclDataLakeObjectSetParameter, if_true, DataLakeState.setPath, Function.update_self] at hurl ⊢
          obtain ⟨received, issuedPath, hlatest, hpath, hpaired, -⟩ := hissued url hurl
          have hsame := hkeeps path rfl rfl rfl (by rw [hurl]; rfl) received hlatest
          refine ⟨received, issuedPath, hlatest, hpath, hpaired, ?_⟩
          rintro current ⟨⟩
          exact Option.some.inj (hsame.symm.trans hpath)
      · have hother : (mclDataLakeObjectSetParameter copied a (some (.path path)) s).2.objects object =
            s.objects object := by
          cases copied <;> simp [mclDataLakeObjectSetParameter, DataLakeState.setPath, ha]
        rwa [hother]
    | _ => exact hissued

theorem performs_issued {call : DataLakeCall} (hissued : Issued latest (s.objects object))
    (hkeeps : ∀ path, call = .setParameter true object (some (.path path)) →
      (s.objects object).signedUrl.isSome → ∀ received, latest = some received → received.path = some path)
    (h : DataLakePerforms w call s out s') :
    Issued ((call.received w object s.objects).or latest) (s'.objects object) := by
  cases call with
  | setParameter copied a value =>
    cases h
    refine setParameter_issued hissued ?_
    rintro path rfl rfl rfl
    exact hkeeps path rfl
  | generateUploadUrl clientId url call a => exact generateUploadUrl_issued hissued h
  | generateUploadUrls clientId url call list => exact generateUploadUrls_issued hissued h
  | upload env a =>
    obtain ⟨result, -, heq⟩ := Option.bind_eq_some_iff.1 h
    cases heq
    exact hissued

end

theorem latestReceived_concat (w object : Nat) (ds : List DoneDataLakeCall) (d : DoneDataLakeCall) :
    latestReceived w object (ds ++ [d]) =
      (d.call.received w object d.before.objects).or (latestReceived w object ds) := by
  simp [latestReceived, List.foldl_append]

theorem KeepsIssuedPath.of_append {w object : Nat} {pre post : List DoneDataLakeCall}
    (h : KeepsIssuedPath w object (pre ++ post)) : KeepsIssuedPath w object pre := by
  rintro pre' d post' path rfl
  exact h pre' d (post' ++ post) path (by simp)

theorem run_issued {w : Nat} {s s' : DataLakeState} {ds : List DoneDataLakeCall}
    (run : Serial (DataLakePerforms w) s ds s') {object : Nat} (hs : (s.objects object).signedUrl = none)
    (hkeeps : KeepsIssuedPath w object ds) : Issued (latestReceived w object ds) (s'.objects object) := by
  induction run with
  | nil => exact .of_signedUrl_none hs
  | @snoc s₁ s₂ ds call out run step ih =>
    rw [latestReceived_concat]
    refine performs_issued (ih hkeeps.of_append) ?_ step
    rintro path rfl
    exact hkeeps ds _ [] path rfl rfl

/-! ## Uploads -/

theorem dataLakeObjectValidate_eq_ok {object : DataLakeObject} {parameters : UploadParameters}
    (h : dataLakeObjectValidate object parameters = .ok ()) : object.path.isSome := by
  rw [dataLakeObjectValidate] at h
  split at h
  · cases h
  · next hpath => exact Option.isSome_iff_ne_none.2 hpath

theorem preparedRequest_eq_ok {env : UploadEnvironment} {object : DataLakeObject} {parameters : UploadParameters}
    {request : UploadRequest} (h : preparedRequest env object parameters = .ok request) :
    object.path.isSome ∧ object.signedUrl = some request.uri := by
  obtain ⟨_, hvalid, h⟩ := bind_eq_ok h
  obtain ⟨_, -, h⟩ := bind_eq_ok h
  obtain ⟨uri, huri, h⟩ := bind_eq_ok h
  obtain ⟨_, -, h⟩ := bind_eq_ok h
  obtain ⟨_, -, h⟩ := bind_eq_ok h
  obtain ⟨_, -, h⟩ := bind_eq_ok h
  cases h
  refine ⟨dataLakeObjectValidate_eq_ok hvalid, ?_⟩
  cases hurl : object.signedUrl with
  | none =>
    rw [hurl] at huri
    cases huri
  | some url =>
    rw [hurl] at huri
    cases huri
    rfl

/-- The header for Azure Storage leaves the rest of the request. -/
theorem uploadRequest_eq_ok {w : Nat} {env : UploadEnvironment} {object : DataLakeObject}
    {parameters : UploadParameters} {request : UploadRequest}
    (h : uploadRequest w env object parameters = some (.ok request)) :
    object.path.isSome ∧ object.signedUrl = some request.uri := by
  rw [uploadRequest] at h
  cases hprepared : preparedRequest env object parameters with
  | error e =>
    rw [hprepared] at h
    cases h
  | ok prepared =>
    rw [hprepared] at h
    obtain ⟨forAzure, -, h⟩ := Option.bind_eq_some_iff.1 h
    have huri : request.uri = prepared.uri := by
      cases forAzure with
      | false =>
        cases h
        rfl
      | true =>
        cases hstep : env.step .azureHeader with
        | error e => simp [hstep, Except.map] at h
        | ok u =>
          simp only [hstep, Except.map, if_true, Option.pure_def, Option.some.injEq, Except.ok.injEq] at h
          rw [← h]
    rw [huri]
    exact preparedRequest_eq_ok hprepared

theorem dataLakeProcessorUpload_sent {w : Nat} {env : UploadEnvironment} {object : DataLakeObject}
    {parameters : UploadParameters} {code : Result Unit} {request : UploadRequest}
    (h : dataLakeProcessorUpload w env object parameters = some (code, some request)) :
    object.path.isSome ∧ object.signedUrl = some request.uri := by
  obtain ⟨answered, hrequest, h⟩ := Option.bind_eq_some_iff.1 h
  cases answered with
  | error e => cases h
  | ok request' =>
    have hsame : request' = request := by
      dsimp only at h
      split at h
      · cases h
        rfl
      · split at h <;> (cases h; rfl)
    rw [← hsame]
    exact uploadRequest_eq_ok hrequest

/-- **Content goes where its path was issued a URL**, in any order of calls on any objects, as long as nobody replaces
the path of an object that has its URL. -/
theorem run_uploadsWhereIssued {w : Nat} {ds : List DoneDataLakeCall} {s : DataLakeState}
    (run : Serial (DataLakePerforms w) .initial ds s) (object : Nat) (hkeeps : KeepsIssuedPath w object ds) :
    UploadsWhereIssued w object ds := by
  rintro pre ⟨call, before, out, after⟩ post env request rfl rfl hsent
  have hissued := run_issued run.before rfl hkeeps.of_append
  have hperforms : DataLakePerforms w (.upload env object) before out after :=
    run.exec_of_mem (d := ⟨_, before, out, after⟩) (by simp)
  obtain ⟨⟨code, sent⟩, hupload, heq⟩ := Option.bind_eq_some_iff.1 hperforms
  cases heq
  obtain rfl : sent = some request := hsent
  obtain ⟨hpath, hurl⟩ := dataLakeProcessorUpload_sent hupload
  obtain ⟨path, hpath⟩ := Option.isSome_iff_exists.1 hpath
  obtain ⟨received, issuedPath, hlatest, -, hpaired, hcurrent⟩ := hissued request.uri hurl
  obtain rfl := hcurrent path hpath
  exact ⟨received, path, hlatest, hpath, hpaired⟩

/-! ## A second path -/

/-- A server that issues `ownEntry`. -/
def issuingUrls : DataLakeEnvironment :=
  { offlineUrls with
    send := fun _ => .ok ⟨201, some (ascii "response"), none⟩
    parse := responseWith [ownEntry] }

def acceptingUpload : UploadEnvironment := ⟨fun _ => .ok (), some false, fun _ => .ok ⟨201, none, none⟩⟩

/-- Object 0 is prepared as `file`, gets its URL, is given a path again, and is uploaded. -/
def uploadCalls (path : CString) : List DataLakeCall :=
  [.setParameter true 0 (some (.path (.lit "file"))), .setParameter true 0 (some (.size 5)),
    .setParameter true 0 (some (.uploadCallback 1)), .setParameter true 0 (some (.userContext 2)),
    .generateUploadUrl (some (.lit "me")) (some (.lit "https://host")) ⟨.ok (.lit "token"), issuingUrls, none⟩ 0,
    .setParameter true 0 (some (.path path)), .upload acceptingUpload 0]

def uploadRun (path : CString) : List DoneDataLakeCall × DataLakeState :=
  (performEach (DataLakeCall.perform 64) (uploadCalls path) .initial).getD ([], .initial)

theorem uploadRun_serial (path : CString) :
    Serial (DataLakePerforms 64) .initial (uploadRun path).1 (uploadRun path).2 := by
  have hrun : performEach (DataLakeCall.perform 64) (uploadCalls path) .initial = some (uploadRun path) := rfl
  have hserial : Serial (DataLakePerforms 64) .initial ([] ++ (uploadRun path).1) (uploadRun path).2 :=
    Serial.performEach (fun _ _ _ _ h => h) .nil hrun
  exact hserial

theorem samePath_keepsIssuedPath : KeepsIssuedPath 64 0 (uploadRun (.lit "file")).1 := by
  intro pre d post path hds hcall hurl received hlatest
  have hd : (uploadRun (.lit "file")).1[pre.length]? = some d := by simp [hds]
  have hpre : (uploadRun (.lit "file")).1.take pre.length = pre := by simp [hds]
  rw [← hpre] at hlatest
  generalize pre.length = n at hd hlatest
  rcases n with _ | _ | _ | _ | _ | _ | _ | n
  · cases hd
    cases hurl
  iterate 4
    · cases hd
      cases hcall
  · cases hd
    cases hcall
    cases hlatest
    rfl
  · cases hd
    cases hcall
  · cases hd

theorem samePath_uploadsWhereIssued : UploadsWhereIssued 64 0 (uploadRun (.lit "file")).1 :=
  run_uploadsWhereIssued (uploadRun_serial (.lit "file")) 0 samePath_keepsIssuedPath

/-- The content of `other` is sent to the URL of `file`. -/
theorem otherPath_not_uploadsWhereIssued :
    ¬ ∀ (w : Nat) (ds : List DoneDataLakeCall) (s : DataLakeState), Serial (DataLakePerforms w) .initial ds s →
      ∀ object, UploadsWhereIssued w object ds := by
  intro hall
  have huploads := hall 64 _ _ (uploadRun_serial (.lit "other")) 0
  obtain ⟨received, path, hlatest, hpath, payload, root, items, item, entryPath, -, hparse, hurls, hmem, hentry,
    hstripped⟩ := huploads ((uploadRun (.lit "other")).1.take 6) ((uploadRun (.lit "other")).1.get ⟨6, by decide⟩) []
      acceptingUpload ⟨.put, ownEntry.2, 1, 2, 5, []⟩ rfl rfl rfl
  cases hlatest
  cases hpath
  cases hparse
  cases hurls
  obtain rfl : item = entryItem ownEntry := List.mem_singleton.1 hmem
  cases hentry.1
  revert hstripped
  decide

end MindConnect
