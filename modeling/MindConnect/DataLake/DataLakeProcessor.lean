import MindConnect.DataLake.RequestSize
import MindConnect.DataLake.SignedUrls
import MindConnect.Lib.CursorList

/-!
# Generating upload URLs: `data_lake_processor.c` and `data_lake.c`

| here | there |
| --- | --- |
| `DataLakeEnvironment` | what memory, the HTTP client and cJSON come to in one call |
| `clearSignedUrls` | `_clear_signed_urls` (`data_lake_processor.c:295`) |
| `dataLakeObjectListToArray` | `_data_lake_object_list_to_array` (`:310`) |
| `uploadUrlsRequest`, `generateUploadUrls` | `_generate_upload_urls` (`:199`) |
| `processorGenerateUploadUrl`, `processorGenerateUploadUrls` | `data_lake_processor_generate_upload_url` (`:42`), `_urls` (`:57`) |
| `mclDataLakeGenerateUploadUrls` | `mcl_data_lake_generate_upload_urls_for_subtenant` (`data_lake.c:171`) and its sibling without subtenant |

Using the null node of a failed `next` is `none`, as is a write outside the body's allocation.
-/

namespace MindConnect

/-- The steps of building the request that memory alone decides. -/
inductive UrlStep where
  | request | method | url | body | bodySize | contentType | bearer | authorization
deriving DecidableEq, Repr

structure DataLakeEnvironment where
  arrayAllocated : Bool
  bodyAllocated : Bool
  step : UrlStep → Result Unit
  send : HttpRequest → Result HttpResponse
  parse : Bytes → Option Json
  memory : MatchMemory

structure DataLakeProcessor where
  clientId : Option CString
  accessToken : CString
  uploadUrlGenerationUrl : Option CString

/-! ## The code -/

def clearSignedUrls (array : List Nat) (objects : Objects) : Objects :=
  array.foldl (fun objects a => setSignedUrl objects a none) objects

/-- The request for a body, an allocation that holds a C string. -/
def uploadUrlsRequest (env : DataLakeEnvironment) (processor : DataLakeProcessor) (body : Bytes) :
    Result HttpRequest := do
  env.step .request
  env.step .method
  let uri ← match processor.uploadUrlGenerationUrl with
    | some uri => pure uri
    | none => .error .triggeredWithNull
  env.step .url
  env.step .body
  env.step .bodySize
  env.step .contentType
  env.step .bearer
  env.step .authorization
  return {
    method := .post
    uri
    payload := body.takeWhile (· ≠ 0)
    header := [(httpHeaderContentType, contentTypeValueApplicationJson),
      (httpHeaderAuthorization, bearerFormat processor.accessToken)] }

/-- What comes of composing, sending and answering the request. -/
def uploadUrlsExchange (env : DataLakeEnvironment) (processor : DataLakeProcessor) (body : Result Bytes) :
    Result HttpResponse :=
  body >>= uploadUrlsRequest env processor >>= env.send

def generateUploadUrls (w : Nat) (env : DataLakeEnvironment) (processor : DataLakeProcessor) (array : List Nat)
    (subtenantId : Option CString) (objects : Objects) : Option (Result Unit × Objects) := do
  let objects := clearSignedUrls array objects
  let clientIdLength := strlen processor.clientId
  let body ← dataLakeJsonFromObjects w env.bodyAllocated (array.map objects) processor.clientId subtenantId
  match uploadUrlsExchange env processor (body.map Prod.fst) with
  | .error e => return (.error e, objects)
  | .ok response =>
    if response.statusCode = 201 then
      return matchSignedUrls w env.parse env.memory array (response.payload.getD []) clientIdLength objects
    else return (httpResponseGetStatus response.statusCode, objects)

def processorGenerateUploadUrl (w : Nat) (env : DataLakeEnvironment) (processor : DataLakeProcessor)
    (object : Nat) (subtenantId : Option CString) (objects : Objects) : Option (Result Unit × Objects) :=
  generateUploadUrls w env processor [object] subtenantId objects

/-- `n` times the next node's data. -/
def collectLoop {α : Type} : Nat → CursorList α → Option (List α × CursorList α)
  | 0, list => some ([], list)
  | n + 1, list =>
    match list.next with
    | (none, _) => none
    | (some i, list) => do
      let data ← list.seq[i]?
      let (rest, list) ← collectLoop n list
      return (data :: rest, list)

/-- For an empty list no bytes are asked for, and there is no array. -/
def dataLakeObjectListToArray {α : Type} (allocated : Bool) (list : CursorList α) :
    Option (Option (List α) × CursorList α) :=
  if allocated ∧ list.count ≠ 0 then (collectLoop list.count list).map fun r => (some r.1, r.2)
  else some (none, list)

def processorGenerateUploadUrls (w : Nat) (env : DataLakeEnvironment) (processor : DataLakeProcessor)
    (list : CursorList Nat) (subtenantId : Option CString) (objects : Objects) :
    Option (Result Unit × CursorList Nat × Objects) := do
  match ← dataLakeObjectListToArray env.arrayAllocated list with
  | (none, list) => return (.error .outOfMemory, list, objects)
  | (some array, list) =>
    let (code, objects) ← generateUploadUrls w env processor array subtenantId objects
    return (code, list, objects)

/-- `token` is what `mcl_core_get_last_access_token` comes to. -/
def mclDataLakeGenerateUploadUrls (w : Nat) (env : DataLakeEnvironment) (clientId : Option CString)
    (url : Option CString) (token : Result CString) (list : CursorList Nat) (subtenantId : Option CString)
    (objects : Objects) : Option (Result Unit × CursorList Nat × Objects) :=
  match token with
  | .error e => some (.error e, list, objects)
  | .ok token => processorGenerateUploadUrls w env ⟨clientId, token, url⟩ list subtenantId objects

/-! ## Collecting -/

section

variable {α : Type}

theorem collectLoop_split (pre suf : List α) :
    collectLoop suf.length (.split pre suf) = some (suf, .split (pre ++ suf) []) := by
  induction suf generalizing pre with
  | nil => simp [collectLoop]
  | cons x suf ih =>
    have hx : (CursorList.split (pre ++ [x]) suf).seq[pre.length]? = some x := by simp [CursorList.split]
    rw [List.length_cons, collectLoop, CursorList.next_split_cons]
    simp only [hx, ih, bind, Option.bind, pure, List.append_assoc, List.singleton_append]

/-- One `next` too many: the node is null. -/
theorem collectLoop_past (pre suf : List α) {n : Nat} (h : suf.length < n) :
    collectLoop n (.split pre suf) = none := by
  induction suf generalizing pre n with
  | nil =>
    obtain ⟨n, rfl⟩ : ∃ m, n = m + 1 := ⟨n - 1, by simp at h; omega⟩
    rw [collectLoop, CursorList.next_split_nil]
  | cons x suf ih =>
    rw [List.length_cons] at h
    obtain ⟨n, rfl⟩ : ∃ m, n = m + 1 := ⟨n - 1, by omega⟩
    have hx : (CursorList.split (pre ++ [x]) suf).seq[pre.length]? = some x := by simp [CursorList.split]
    rw [collectLoop, CursorList.next_split_cons]
    simp only [hx, ih (pre ++ [x]) (n := n) (by omega), bind, Option.bind]

theorem eq_split (list : CursorList α) :
    list = .split (list.seq.take list.cursor) (list.seq.drop list.cursor) := by
  obtain ⟨seq, cursor, hle⟩ := list
  simp [CursorList.split, hle]

theorem count_ne_zero {list : CursorList α} (h : list.seq ≠ []) : list.count ≠ 0 :=
  fun hcount => h (List.length_eq_zero_iff.1 hcount)

/-- From the first element on, the array is the list, and the cursor ends past it. -/
theorem dataLakeObjectListToArray_first {list : CursorList α} (ne_nil : list.seq ≠ []) (h : list.cursor = 0) :
    dataLakeObjectListToArray true list = some (some list.seq, .split list.seq []) := by
  have hsplit : list = .split [] list.seq := by
    rw [eq_split list, h]
    rfl
  have hloop := collectLoop_split [] list.seq
  rw [← hsplit, List.nil_append] at hloop
  rw [dataLakeObjectListToArray, if_pos ⟨rfl, count_ne_zero ne_nil⟩]
  simp only [CursorList.count, hloop, Option.map_some]

/-- From any other position a null node is used. -/
theorem dataLakeObjectListToArray_later {list : CursorList α} (h : list.cursor ≠ 0) :
    dataLakeObjectListToArray true list = none := by
  have hle := list.cursor_le
  have ne_nil : list.seq ≠ [] := by
    intro hnil
    rw [hnil, List.length_nil] at hle
    exact h (Nat.le_zero.1 hle)
  have hloop := collectLoop_past (list.seq.take list.cursor) (list.seq.drop list.cursor)
    (n := list.seq.length) (by rw [List.length_drop]; omega)
  rw [← eq_split] at hloop
  rw [dataLakeObjectListToArray, if_pos ⟨rfl, count_ne_zero ne_nil⟩]
  simp only [CursorList.count, hloop, Option.map_none]

theorem dataLakeObjectListToArray_none {allocated : Bool} {list : CursorList α}
    (h : allocated = false ∨ list.seq = []) : dataLakeObjectListToArray allocated list = some (none, list) := by
  rw [dataLakeObjectListToArray, if_neg]
  rintro ⟨hallocated, hcount⟩
  rcases h with rfl | hnil
  · cases hallocated
  · exact hcount (List.length_eq_zero_iff.2 hnil)

end

theorem paths_clearSignedUrls (array : List Nat) (objects : Objects) :
    paths (array.map (clearSignedUrls array objects)) = paths (array.map objects) := by
  have hpath : ∀ (array : List Nat) (objects : Objects) (a : Nat),
      (clearSignedUrls array objects a).path = (objects a).path := by
    intro array
    induction array with
    | nil => exact fun _ _ => rfl
    | cons b array ih => exact fun objects a => (ih _ a).trans (path_setSignedUrl _ _ _ _)
  simp only [paths, List.filterMap_map, Function.comp_def, hpath]

theorem generateUploadUrls_isSome (env : DataLakeEnvironment) (processor : DataLakeProcessor) {w : Nat}
    {array : List Nat} {subtenantId : Option CString} {objects : Objects}
    (hfits : BodyFits w (paths (array.map objects)) processor.clientId subtenantId) :
    (generateUploadUrls w env processor array subtenantId objects).isSome := by
  rw [← paths_clearSignedUrls] at hfits
  obtain ⟨body, hbody⟩ := Option.isSome_iff_exists.1 (hfits.isSome env.bodyAllocated)
  simp only [generateUploadUrls, hbody, bind, Option.bind, pure]
  split
  · rfl
  · split <;> rfl

/-! ## A series of calls on one list -/

/-- A call of `mcl_data_lake_generate_upload_urls`: its token and its environment. -/
structure UrlsCall where
  token : Result CString
  env : DataLakeEnvironment
  subtenantId : Option CString

/-- The call gets as far as collecting the objects. -/
def UrlsCall.collects (call : UrlsCall) : Bool := call.token.toBool && call.env.arrayAllocated

def UrlsCall.run (w : Nat) (clientId url : Option CString) (call : UrlsCall) (list : CursorList Nat)
    (objects : Objects) : Option (Result Unit × CursorList Nat × Objects) :=
  mclDataLakeGenerateUploadUrls w call.env clientId url call.token list call.subtenantId objects

/-- No call of the series uses a null node, and each works on the list's objects, each once, in order. -/
def CollectsExactly (w : Nat) (clientId url : Option CString) :
    List UrlsCall → CursorList Nat → Objects → Prop
  | [], _, _ => True
  | call :: calls, list, objects =>
    ∃ code list' objects', call.run w clientId url list objects = some (code, list', objects') ∧
      (call.collects → ∃ list'', dataLakeObjectListToArray true list = some (some list.seq, list'')) ∧
      CollectsExactly w clientId url calls list' objects'

theorem run_of_not_collects (w : Nat) (clientId url : Option CString) {call : UrlsCall} {list : CursorList Nat}
    (h : call.collects = false ∨ list.seq = []) (objects : Objects) :
    ∃ code, call.run w clientId url list objects = some (code, list, objects) := by
  obtain ⟨token, env, subtenantId⟩ := call
  cases token with
  | error e => exact ⟨_, rfl⟩
  | ok token =>
    have harray : env.arrayAllocated = false ∨ list.seq = [] :=
      h.imp_left fun h => by simpa [UrlsCall.collects, Except.toBool] using h
    refine ⟨.error .outOfMemory, ?_⟩
    simp only [UrlsCall.run, mclDataLakeGenerateUploadUrls, processorGenerateUploadUrls,
      dataLakeObjectListToArray_none harray, bind, Option.bind, pure]

/-- With the cursor on the first element the call is the generation for the whole list. -/
theorem run_of_collects_first (w : Nat) (clientId url : Option CString) {call : UrlsCall}
    (h : call.collects = true) {list : CursorList Nat} (ne_nil : list.seq ≠ []) (hfirst : list.cursor = 0)
    (objects : Objects) :
    ∃ token, call.token = .ok token ∧ call.run w clientId url list objects =
      (generateUploadUrls w call.env ⟨clientId, token, url⟩ list.seq call.subtenantId objects).map fun r =>
        (r.1, .split list.seq [], r.2) := by
  obtain ⟨token, env, subtenantId⟩ := call
  cases token with
  | error e => simp [UrlsCall.collects, Except.toBool] at h
  | ok token =>
    have harray : env.arrayAllocated = true := by simpa [UrlsCall.collects, Except.toBool] using h
    refine ⟨token, rfl, ?_⟩
    simp only [UrlsCall.run, mclDataLakeGenerateUploadUrls, processorGenerateUploadUrls, harray,
      dataLakeObjectListToArray_first ne_nil hfirst, bind, Option.bind]
    cases generateUploadUrls w env ⟨clientId, token, url⟩ list.seq subtenantId objects <;> rfl

theorem run_of_collects_later (w : Nat) (clientId url : Option CString) {call : UrlsCall}
    (h : call.collects = true) {list : CursorList Nat} (hlater : list.cursor ≠ 0) (objects : Objects) :
    call.run w clientId url list objects = none := by
  obtain ⟨token, env, subtenantId⟩ := call
  cases token with
  | error e => simp [UrlsCall.collects, Except.toBool] at h
  | ok token =>
    have harray : env.arrayAllocated = true := by simpa [UrlsCall.collects, Except.toBool] using h
    simp only [UrlsCall.run, mclDataLakeGenerateUploadUrls, processorGenerateUploadUrls, harray,
      dataLakeObjectListToArray_later hlater, bind, Option.bind]

/-- A series is right exactly if at most one of its calls gets to collect, with the cursor on the first
element: nothing ever takes the cursor back. -/
theorem collectsExactly_iff (w : Nat) (clientId url : Option CString) (calls : List UrlsCall)
    {list : CursorList Nat} (ne_nil : list.seq ≠ []) (objects : Objects)
    (hfits : list.cursor = 0 → ∀ call ∈ calls, call.collects = true →
      BodyFits w (paths (list.seq.map objects)) clientId call.subtenantId) :
    CollectsExactly w clientId url calls list objects ↔
      (calls.countP UrlsCall.collects = 0 ∨ calls.countP UrlsCall.collects = 1 ∧ list.cursor = 0) := by
  induction calls generalizing list objects with
  | nil => simp [CollectsExactly]
  | cons call calls ih =>
    by_cases hcollects : call.collects
    · rw [List.countP_cons_of_pos hcollects]
      by_cases hcursor : list.cursor = 0
      · obtain ⟨token, -, hrun⟩ := run_of_collects_first w clientId url hcollects ne_nil hcursor objects
        have hfit := hfits hcursor call List.mem_cons_self hcollects
        obtain ⟨⟨code, objects'⟩, hgenerate⟩ := Option.isSome_iff_exists.1
          (generateUploadUrls_isSome call.env ⟨clientId, token, url⟩ hfit)
        rw [hgenerate, Option.map_some] at hrun
        have hpast : (CursorList.split list.seq []).cursor ≠ 0 := by
          intro h
          exact ne_nil (List.length_eq_zero_iff.1 h)
        have hseq : (CursorList.split list.seq []).seq ≠ [] := by simpa using ne_nil
        have hrest := ih hseq objects' fun h => absurd h hpast
        have harray := dataLakeObjectListToArray_first ne_nil hcursor
        constructor
        · rintro ⟨code', list', objects'', hrun', -, hcalls⟩
          rw [hrun] at hrun'
          cases hrun'
          rcases hrest.1 hcalls with h | ⟨-, h⟩
          · exact .inr ⟨by omega, hcursor⟩
          · exact absurd h hpast
        · rintro (h | ⟨h, -⟩)
          · omega
          · exact ⟨code, _, objects', hrun, fun _ => ⟨_, harray⟩, hrest.2 (.inl (by omega))⟩
      · constructor
        · rintro ⟨code', list', objects'', hrun, -⟩
          rw [run_of_collects_later w clientId url hcollects hcursor objects] at hrun
          cases hrun
        · rintro (h | ⟨-, h⟩)
          · omega
          · exact absurd h hcursor
    · rw [List.countP_cons_of_neg hcollects]
      obtain ⟨code, hrun⟩ := run_of_not_collects w clientId url (.inl (by simpa using hcollects)) objects
      rw [← ih ne_nil objects fun hcursor call hcall => hfits hcursor call (List.mem_cons_of_mem _ hcall)]
      constructor
      · rintro ⟨code', list', objects', hrun', -, hcalls⟩
        rw [hrun] at hrun'
        cases hrun'
        exact hcalls
      · intro hcalls
        exact ⟨code, list, objects, hrun, fun h => absurd h hcollects, hcalls⟩

/-! ## A retry -/

def offlineUrls : DataLakeEnvironment where
  arrayAllocated := true
  bodyAllocated := true
  step := fun _ => .ok ()
  send := fun _ => .error .couldNotConnect
  parse := fun _ => none
  memory := .available

/-- The token is there, the server is not. -/
def offlineUrlsCall : UrlsCall := ⟨.ok (.lit "token"), offlineUrls, none⟩

/-- There is no token yet. -/
def earlyUrlsCall : UrlsCall := ⟨.error .noAccessTokenExists, offlineUrls, none⟩

theorem firstCall_collectsExactly :
    CollectsExactly 64 (some (.lit "me")) (some (.lit "https://host")) [earlyUrlsCall, offlineUrlsCall] (.ofList [0, 1])
        (fun _ => ⟨some (.lit "file"), none⟩) ↔
      ([earlyUrlsCall, offlineUrlsCall].countP UrlsCall.collects = 0 ∨
        [earlyUrlsCall, offlineUrlsCall].countP UrlsCall.collects = 1 ∧ (CursorList.ofList [0, 1]).cursor = 0) :=
  collectsExactly_iff 64 _ _ [earlyUrlsCall, offlineUrlsCall] (by decide) _ (by decide)

/-- The same call again on a fresh list of one object. -/
theorem retry_not_collectsExactly :
    ¬ CollectsExactly 64 (some (.lit "me")) (some (.lit "https://host")) [offlineUrlsCall, offlineUrlsCall]
      (.ofList [0]) (fun _ => ⟨some (.lit "file"), none⟩) := by
  rintro ⟨code₁, list₁, objects₁, hrun₁, -, code₂, list₂, objects₂, hrun₂, -⟩
  have hcollects : offlineUrlsCall.collects = true := rfl
  have ne_nil : (CursorList.ofList [0]).seq ≠ [] := by decide
  obtain ⟨token, -, hrun⟩ := run_of_collects_first 64 (some (.lit "me")) (some (.lit "https://host")) hcollects ne_nil
    rfl fun _ => ⟨some (.lit "file"), none⟩
  rw [hrun] at hrun₁
  obtain ⟨⟨code, objects⟩, -, heq⟩ := Option.map_eq_some_iff.1 hrun₁
  cases heq
  rw [CursorList.seq_ofList, run_of_collects_later 64 _ _ hcollects (by decide)] at hrun₂
  cases hrun₂

end MindConnect
