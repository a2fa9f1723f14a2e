import MindConnect.DataLake.DataLakeProcessor

/-!
# What one call of the URL generation leaves

Whatever the outcome, the signed URLs of the objects are those of this call's response or null. `MCL_OK`
promises more, that every path got its URL: that is so unless the server answers with status 200, which
`mcl_http_response_get_status` takes for success although nothing was matched
(`generateUploadUrls_servedByThisCall_iff`).
-/

namespace MindConnect

section

variable {w : Nat} {env : DataLakeEnvironment} {processor : DataLakeProcessor} {array : List Nat}
  {subtenantId : Option CString} {objects : Objects}

theorem clearSignedUrls_eq (array : List Nat) (objects : Objects) (a : Nat) :
    clearSignedUrls array objects a =
      if a ∈ array then { objects a with signedUrl := none } else objects a := by
  induction array generalizing objects with
  | nil => rfl
  | cons b array ih =>
    show clearSignedUrls array (setSignedUrl objects b none) a = _
    rw [ih]
    by_cases hab : a = b
    · subst hab
      simp [setSignedUrl]
    · simp [setSignedUrl_of_ne hab, hab]

/-- A signed URL that stands in the response of this call. -/
def FromResponse (env : DataLakeEnvironment) (response : HttpResponse) (url : CString) : Prop :=
  ∃ payload root items item, response.payload = some payload ∧ env.parse payload = some root ∧
    JsonUtil.getObjectItem root objectUrlsKey = .ok (.array items) ∧ item ∈ items ∧
    JsonUtil.getObjectItem item signedUrlKey = .ok (.string url)

/-- A signed URL that the response pairs with a path, which stands behind the client id and the slash. -/
def PairedInResponse (parse : Bytes → Option Json) (response : HttpResponse) (overhead : Nat)
    (path url : CString) : Prop :=
  ∃ payload root items item entryPath, response.payload = some payload ∧ parse payload = some root ∧
    JsonUtil.getObjectItem root objectUrlsKey = .ok (.array items) ∧ item ∈ items ∧
    IsEntry item (entryPath, url) ∧ stripped overhead entryPath = some path

theorem PairedInResponse.fromResponse {response : HttpResponse} {overhead : Nat} {path url : CString}
    (h : PairedInResponse env.parse response overhead path url) : FromResponse env response url := by
  obtain ⟨payload, root, items, item, entryPath, hpayload, hparse, hurls, hmem, hentry, -⟩ := h
  exact ⟨payload, root, items, item, hpayload, hparse, hurls, hmem, hentry.2⟩

theorem getString_eq_some {json : Json} {copied : Bool} {s : CString}
    (h : JsonUtil.getString json copied = .ok (some s)) : json = .string s := by
  cases json with
  | string t =>
    cases copied with
    | true => cases h; rfl
    | false => cases h
  | _ => cases h

theorem findMatchingObject_from (copied : Bool) (item : Json) (path : CString) (size : Nat)
    (array : List Nat) (objects : Objects) {a : Nat} {url : CString}
    (h : (findMatchingObject copied item path size array objects a).signedUrl = some url) :
    (objects a).signedUrl = some url ∨ JsonUtil.getObjectItem item signedUrlKey = .ok (.string url) ∧
      mclStringUtilStrncmp path (objects a).path size = .ok () := by
  induction array with
  | nil => exact .inl h
  | cons b array ih =>
    rw [findMatchingObject] at h
    cases hurl : (objects b).signedUrl with
    | some other =>
      simp only [hurl] at h
      exact ih h
    | none =>
      cases hcompare : mclStringUtilStrncmp path (objects b).path size with
      | error e =>
        simp only [hurl, hcompare] at h
        exact ih h
      | ok u =>
        cases hget : JsonUtil.getObjectItem item signedUrlKey >>= fun json => JsonUtil.getString json copied with
        | error e =>
          simp only [hurl, hcompare, hget] at h
          exact .inl h
        | ok found =>
          simp only [hurl, hcompare, hget] at h
          obtain ⟨json, hjson, hstring⟩ := bind_eq_ok hget
          by_cases hab : a = b
          · subst hab
            rw [signedUrl_setSignedUrl_self] at h
            subst h
            exact .inr ⟨by rw [hjson, getString_eq_some hstring], hcompare⟩
          · rw [setSignedUrl_of_ne hab] at h
            exact .inl h

theorem findMatchingObject_of_notMem (copied : Bool) (item : Json) (path : CString) (size : Nat)
    {array : List Nat} (objects : Objects) {a : Nat} (ha : a ∉ array) :
    findMatchingObject copied item path size array objects a = objects a := by
  fun_induction findMatchingObject copied item path size array objects with
  | case1 objects => rfl
  | case2 objects b array url hurl ih => exact ih (List.not_mem_of_not_mem_cons ha)
  | case3 objects b array hurl e hcompare ih => exact ih (List.not_mem_of_not_mem_cons ha)
  | case4 objects b array hurl hcompare url hget => exact setSignedUrl_of_ne (List.ne_of_not_mem_cons ha) _ _
  | case5 objects b array hurl hcompare e hget => rfl

theorem path_findMatchingObject (copied : Bool) (item : Json) (path : CString) (size : Nat) (array : List Nat)
    (objects : Objects) (a : Nat) :
    (findMatchingObject copied item path size array objects a).path = (objects a).path := by
  fun_induction findMatchingObject copied item path size array objects with
  | case1 objects => rfl
  | case2 objects b array url hurl ih => exact ih
  | case3 objects b array hurl e hcompare ih => exact ih
  | case4 objects b array hurl hcompare url hget => exact path_setSignedUrl _ _ _ _
  | case5 objects b array hurl hcompare e hget => rfl

/-- One turn searches for an object or does nothing. -/
theorem serveItem_cases (copied : Bool) (overhead : Nat) (array : List Nat) (objects : Objects) (item : Json)
    (path : Option CString) :
    serveItem copied overhead array objects item path = objects ∨ ∃ entryPath, path = some entryPath ∧
      stripped overhead entryPath = some (entryPath.drop overhead) ∧
      serveItem copied overhead array objects item path = findMatchingObject copied item (entryPath.drop overhead)
        ((entryPath.drop overhead).length + 1) array objects := by
  cases path with
  | none => exact .inl rfl
  | some entryPath =>
    by_cases hlen : entryPath.length > overhead
    · have hdrop : (entryPath.drop overhead).length = entryPath.length - overhead := by
        simp [CString.length, CString.drop]
      refine .inr ⟨entryPath, rfl, if_pos hlen, ?_⟩
      rw [hdrop]
      exact if_pos hlen
    · exact .inl (if_neg hlen)

theorem path_serveItem (copied : Bool) (overhead : Nat) (array : List Nat) (objects : Objects) (item : Json)
    (path : Option CString) (a : Nat) :
    (serveItem copied overhead array objects item path a).path = (objects a).path := by
  rcases serveItem_cases copied overhead array objects item path with h | ⟨entryPath, -, -, h⟩
  · rw [h]
  · rw [h, path_findMatchingObject]

theorem readEntry_eq_ok {memory : MatchMemory} {objectUrls item : Json} {index : Nat} {path : Option CString}
    (h : readEntry memory objectUrls index = .ok (item, path)) :
    (∃ items, objectUrls = .array items ∧ item ∈ items) ∧
      ∀ entryPath, path = some entryPath →
        JsonUtil.getObjectItem item objectPathKey = .ok (.string entryPath) := by
  obtain ⟨item', hget, hrest⟩ := bind_eq_ok h
  obtain ⟨pathJson, hjson, hrest⟩ := bind_eq_ok hrest
  obtain ⟨path', hpath, hpure⟩ := bind_eq_ok hrest
  cases hpure
  constructor
  · cases objectUrls with
    | array items =>
      rw [JsonUtil.getArrayItem] at hget
      split at hget
      · cases hget
      · split at hget
        · next heq =>
          cases hget
          exact ⟨items, rfl, List.mem_of_getElem? heq⟩
        · cases hget
    | _ => cases hget
  · rintro entryPath rfl
    rw [hjson, getString_eq_some hpath]

theorem matchLoop_from (memory : MatchMemory) (objectUrls : Json) (overhead : Nat) (array : List Nat) (n : Nat) :
    ∀ {index : Nat} {objects : Objects} {a : Nat} {url : CString},
      ((matchLoop memory objectUrls overhead array n index objects).2 a).signedUrl = some url →
      (objects a).signedUrl = some url ∨ ∃ items item entryPath path,
        objectUrls = .array items ∧ item ∈ items ∧ IsEntry item (entryPath, url) ∧
          stripped overhead entryPath = some path ∧ (objects a).path = some path := by
  induction n with
  | zero =>
    intro index objects a url h
    exact .inl h
  | succ n ih =>
    intro index objects a url h
    rw [matchLoop] at h
    split at h
    · exact .inl h
    · next item path hentry =>
      obtain ⟨⟨items, harray, hmem⟩, hpath⟩ := readEntry_eq_ok hentry
      rcases ih h with hurl | ⟨items', item', entryPath, path', hlater⟩
      · rcases serveItem_cases (memory.urlCopied index) overhead array objects item path with
          heq | ⟨entryPath, hsome, hstripped, heq⟩
        · rw [heq] at hurl
          exact .inl hurl
        · rw [heq] at hurl
          rcases findMatchingObject_from _ _ _ _ _ _ hurl with hold | ⟨hkey, hcompare⟩
          · exact .inl hold
          · exact .inr ⟨items, item, entryPath, _, harray, hmem, ⟨hpath entryPath hsome, hkey⟩, hstripped,
              strncmp_eq_ok.1 hcompare⟩
      · rw [path_serveItem] at hlater
        exact .inr ⟨items', item', entryPath, path', hlater⟩

theorem path_matchLoop (memory : MatchMemory) (objectUrls : Json) (overhead : Nat) (array : List Nat)
    (n index : Nat) (objects : Objects) (a : Nat) :
    ((matchLoop memory objectUrls overhead array n index objects).2 a).path = (objects a).path := by
  induction n generalizing index objects with
  | zero => rfl
  | succ n ih =>
    rw [matchLoop]
    split
    · rfl
    · rw [ih, path_serveItem]

theorem matchLoop_of_notMem (memory : MatchMemory) (objectUrls : Json) (overhead : Nat) {array : List Nat}
    (n index : Nat) (objects : Objects) {a : Nat} (ha : a ∉ array) :
    (matchLoop memory objectUrls overhead array n index objects).2 a = objects a := by
  induction n generalizing index objects with
  | zero => rfl
  | succ n ih =>
    rw [matchLoop]
    split
    · rfl
    · next item path hentry =>
      rw [ih]
      rcases serveItem_cases (memory.urlCopied index) overhead array objects item path with h | ⟨_, -, -, h⟩
      · rw [h]
      · rw [h, findMatchingObject_of_notMem _ _ _ _ _ ha]

/-- The objects after the matching are those of a loop over the response's array, or the same. -/
theorem matchSignedUrls_loop (w : Nat) (parse : Bytes → Option Json) (memory : MatchMemory) (array : List Nat)
    (json : Bytes) (clientIdLength : Nat) (objects : Objects) :
    (matchSignedUrls w parse memory array json clientIdLength objects).2 = objects ∨
      ∃ objectUrls size, readObjectUrls w parse json = .ok (objectUrls, size) ∧
        (matchSignedUrls w parse memory array json clientIdLength objects).2 =
          (matchLoop memory objectUrls (clientIdLength + 1) array size.toNat 0 objects).2 := by
  rw [matchSignedUrls]
  split
  · exact .inl rfl
  · next objectUrls size hurls =>
    refine .inr ⟨objectUrls, size, hurls, ?_⟩
    split
    · next heq => rw [heq]
    · next heq => rw [heq]

theorem matchSignedUrls_paired {response : HttpResponse} {clientIdLength : Nat} {a : Nat} {url : CString}
    (hnone : (objects a).signedUrl = none)
    (h : ((matchSignedUrls w env.parse env.memory array (response.payload.getD []) clientIdLength objects).2
      a).signedUrl = some url) :
    ∃ path, (objects a).path = some path ∧
      PairedInResponse env.parse response (clientIdLength + 1) path url := by
  rcases matchSignedUrls_loop w env.parse env.memory array (response.payload.getD []) clientIdLength objects with
    hsame | ⟨objectUrls, size, hurls, hloop⟩
  · rw [hsame, hnone] at h
    cases h
  · rw [hloop] at h
    rcases matchLoop_from _ _ _ _ _ h with
      hold | ⟨items, item, entryPath, path, rfl, hmem, hentry, hstripped, hpath⟩
    · rw [hnone] at hold
      cases hold
    · obtain ⟨payload, hpayload⟩ : ∃ payload, response.payload = some payload := by
        cases hp : response.payload with
        | some payload => exact ⟨payload, rfl⟩
        | none =>
          rw [hp] at hurls
          cases hurls
      rw [hpayload, Option.getD_some, readObjectUrls] at hurls
      split at hurls
      · cases hurls
      · split at hurls
        · cases hurls
        · next root hparse =>
          obtain ⟨found, hfound, hurls⟩ := bind_eq_ok hurls
          obtain ⟨size', -, hpure⟩ := bind_eq_ok hurls
          cases hpure
          exact ⟨path, hpath, payload, root, items, item, entryPath, hpayload, hparse, hfound, hmem, hentry,
            hstripped⟩

theorem path_matchSignedUrls (w : Nat) (parse : Bytes → Option Json) (memory : MatchMemory) (array : List Nat)
    (json : Bytes) (clientIdLength : Nat) (objects : Objects) (a : Nat) :
    ((matchSignedUrls w parse memory array json clientIdLength objects).2 a).path = (objects a).path := by
  rcases matchSignedUrls_loop w parse memory array json clientIdLength objects with h | ⟨objectUrls, size, -, h⟩
  · rw [h]
  · rw [h, path_matchLoop]

theorem matchSignedUrls_of_notMem (w : Nat) (parse : Bytes → Option Json) (memory : MatchMemory)
    {array : List Nat} (json : Bytes) (clientIdLength : Nat) (objects : Objects) {a : Nat} (ha : a ∉ array) :
    (matchSignedUrls w parse memory array json clientIdLength objects).2 a = objects a := by
  rcases matchSignedUrls_loop w parse memory array json clientIdLength objects with h | ⟨objectUrls, size, -, h⟩
  · rw [h]
  · rw [h, matchLoop_of_notMem _ _ _ _ _ _ ha]

/-- What the server, or whatever fails before it, answers to the request for these objects, if its body is written
inside the block. -/
def answer (w : Nat) (env : DataLakeEnvironment) (processor : DataLakeProcessor) (array : List Nat)
    (subtenantId : Option CString) (objects : Objects) : Option (Result HttpResponse) :=
  (dataLakeJsonFromObjects w env.bodyAllocated (array.map objects) processor.clientId subtenantId).map fun body =>
    uploadUrlsExchange env processor (body.map Prod.fst)

/-- What the call makes of the answer. -/
def concluded (w : Nat) (env : DataLakeEnvironment) (processor : DataLakeProcessor) (array : List Nat)
    (objects : Objects) : Result HttpResponse → Result Unit × Objects
  | .error e => (.error e, clearSignedUrls array objects)
  | .ok response =>
    if response.statusCode = 201 then
      matchSignedUrls w env.parse env.memory array (response.payload.getD []) (strlen processor.clientId)
        (clearSignedUrls array objects)
    else (httpResponseGetStatus response.statusCode, clearSignedUrls array objects)

theorem generateUploadUrls_eq (w : Nat) (env : DataLakeEnvironment) (processor : DataLakeProcessor)
    (array : List Nat) (subtenantId : Option CString) (objects : Objects) :
    generateUploadUrls w env processor array subtenantId objects =
      (answer w env processor array subtenantId objects).map (concluded w env processor array objects) := by
  rw [generateUploadUrls, answer, dataLakeJsonFromObjects_congr (paths_clearSignedUrls array objects)]
  cases dataLakeJsonFromObjects w env.bodyAllocated (array.map objects) processor.clientId subtenantId with
  | none => rfl
  | some body =>
    simp only [bind, Option.bind, pure, Option.map_some]
    generalize uploadUrlsExchange env processor _ = exchange
    cases exchange with
    | error e => rfl
    | ok response =>
      by_cases hcreated : response.statusCode = 201 <;> simp only [concluded, hcreated, if_true, if_false]

/-- A call that comes to an end has an answer. -/
theorem answer_of_generateUploadUrls {result : Result Unit × Objects}
    (h : generateUploadUrls w env processor array subtenantId objects = some result) :
    ∃ answered, answer w env processor array subtenantId objects = some answered ∧
      result = concluded w env processor array objects answered := by
  rw [generateUploadUrls_eq] at h
  obtain ⟨answered, hanswer, heq⟩ := Option.map_eq_some_iff.1 h
  exact ⟨answered, hanswer, heq.symm⟩

end

/-! ## What a call promises -/

/-- `MCL_OK` only if this call served every path, of which there is one; and no URL that is not of this
call, whatever the code. -/
structure ServedByThisCall (env : DataLakeEnvironment) (array : List Nat) (objects : Objects)
    (answer : Result HttpResponse) (result : Result Unit × Objects) : Prop where
  ok : result.1 = .ok () → (∃ a ∈ array, (objects a).path.isSome) ∧
    ∀ a ∈ array, (objects a).path.isSome → ∃ response url, answer = .ok response ∧
      (result.2 a).signedUrl = some url ∧ FromResponse env response url
  fresh : ∀ a ∈ array, ∀ url, (result.2 a).signedUrl = some url →
    ∃ response, answer = .ok response ∧ FromResponse env response url

/-- No response with status 200. -/
def NotSuccess (answer : Result HttpResponse) : Prop :=
  ∀ response, answer = .ok response → response.statusCode ≠ 200

section

variable {w : Nat} {env : DataLakeEnvironment} {processor : DataLakeProcessor} {array : List Nat}
  {subtenantId : Option CString} {objects : Objects}

theorem exists_path_of_answer {response : HttpResponse}
    (h : answer w env processor array subtenantId objects = some (.ok response)) :
    ∃ a ∈ array, (objects a).path.isSome := by
  obtain ⟨body, hbody, hexchange⟩ := Option.map_eq_some_iff.1 h
  obtain ⟨request, hrequest, -⟩ := bind_eq_ok hexchange
  obtain ⟨text, htext, -⟩ := bind_eq_ok hrequest
  cases body with
  | error e => cases htext
  | ok body =>
    obtain ⟨hpaths, -⟩ := dataLakeJsonFromObjects_eq_ok_iff.1 hbody
    obtain ⟨path, hpath⟩ := List.exists_mem_of_ne_nil _ hpaths
    obtain ⟨object, hobject, hpath⟩ := List.mem_filterMap.1 hpath
    obtain ⟨a, ha, rfl⟩ := List.mem_map.1 hobject
    exact ⟨a, ha, by rw [hpath]; rfl⟩

theorem signedUrl_clearSignedUrls {a : Nat} (ha : a ∈ array) :
    (clearSignedUrls array objects a).signedUrl = none := by
  rw [clearSignedUrls_eq, if_pos ha]

/-- With nothing matched nothing is left. -/
theorem fresh_clearSignedUrls (answer : Result HttpResponse) (code : Result Unit) (hcode : code ≠ .ok ()) :
    ServedByThisCall env array objects answer (code, clearSignedUrls array objects) := by
  refine ⟨fun hok => absurd hok hcode, ?_⟩
  intro a ha url hurl
  rw [signedUrl_clearSignedUrls ha] at hurl
  cases hurl

theorem served_of_created {response : HttpResponse}
    (hanswer : answer w env processor array subtenantId objects = some (.ok response)) (clientIdLength : Nat) :
    ServedByThisCall env array objects (.ok response)
      (matchSignedUrls w env.parse env.memory array (response.payload.getD []) clientIdLength
        (clearSignedUrls array objects)) := by
  refine ⟨?_, ?_⟩
  · intro hok
    refine ⟨exists_path_of_answer hanswer, ?_⟩
    intro a ha hpath
    have hall := checkSignedUrls_eq_ok.1 (matchSignedUrls_check hok) a ha
    rw [path_matchSignedUrls, clearSignedUrls_eq, if_pos ha] at hall
    obtain ⟨url, hurl⟩ := Option.isSome_iff_exists.1 (hall hpath)
    obtain ⟨path, -, hpaired⟩ := matchSignedUrls_paired (signedUrl_clearSignedUrls ha) hurl
    exact ⟨response, url, rfl, hurl, hpaired.fromResponse⟩
  · intro a ha url hurl
    obtain ⟨path, -, hpaired⟩ := matchSignedUrls_paired (signedUrl_clearSignedUrls ha) hurl
    exact ⟨response, rfl, hpaired.fromResponse⟩

/-- Every outcome of the exchange but a status 200 is dealt with as promised. -/
theorem concluded_served {answered : Result HttpResponse}
    (hanswer : answer w env processor array subtenantId objects = some answered) :
    ServedByThisCall env array objects answered (concluded w env processor array objects answered) ↔
      NotSuccess answered := by
  cases answered with
  | error e =>
    refine iff_of_true (fresh_clearSignedUrls _ _ (by simp)) ?_
    intro response h
    cases h
  | ok response =>
    rw [concluded]
    by_cases hcreated : response.statusCode = 201
    · rw [if_pos hcreated]
      refine iff_of_true (served_of_created hanswer (strlen processor.clientId)) ?_
      rintro _ ⟨⟩
      omega
    · rw [if_neg hcreated]
      by_cases hsuccess : response.statusCode = 200
      · refine iff_of_false ?_ fun h => h response rfl hsuccess
        intro hserved
        obtain ⟨⟨a, ha, hpath⟩, hall⟩ := hserved.ok (by rw [hsuccess]; rfl)
        obtain ⟨_, url, _, hurl, _⟩ := hall a ha hpath
        rw [signedUrl_clearSignedUrls ha] at hurl
        cases hurl
      · refine iff_of_true (fresh_clearSignedUrls _ _ ?_) ?_
        · intro hok
          exact hsuccess (httpResponseGetStatus_ok hok)
        · rintro _ ⟨⟩
          exact hsuccess

theorem generateUploadUrls_served {result : Result Unit × Objects}
    (h : generateUploadUrls w env processor array subtenantId objects = some result) :
    ∃ answered, answer w env processor array subtenantId objects = some answered ∧
      (ServedByThisCall env array objects answered result ↔ NotSuccess answered) := by
  obtain ⟨answered, hanswer, rfl⟩ := answer_of_generateUploadUrls h
  exact ⟨answered, hanswer, concluded_served hanswer⟩

end

/-- **Success is the success of this call.** For one object, and for a list whose cursor stands on the
first element, as soon as the objects have been collected. A body that fits is written inside its block. -/
theorem generateUploadUrls_servedByThisCall_iff (w : Nat) (env : DataLakeEnvironment)
    (processor : DataLakeProcessor) (subtenantId : Option CString) (objects : Objects) :
    (∀ object, (BodyFits w (paths [objects object]) processor.clientId subtenantId →
        (processorGenerateUploadUrl w env processor object subtenantId objects).isSome) ∧
      ∀ result, processorGenerateUploadUrl w env processor object subtenantId objects = some result →
        ∃ answered, answer w env processor [object] subtenantId objects = some answered ∧
          (ServedByThisCall env [object] objects answered result ↔ NotSuccess answered)) ∧
    ∀ list : CursorList Nat, list.seq ≠ [] → list.cursor = 0 →
      (BodyFits w (paths (list.seq.map objects)) processor.clientId subtenantId →
        (processorGenerateUploadUrls w env processor list subtenantId objects).isSome) ∧
      ∀ code list' objects', processorGenerateUploadUrls w env processor list subtenantId objects =
          some (code, list', objects') →
        (env.arrayAllocated = false → code = .error .outOfMemory ∧ objects' = objects) ∧
        (env.arrayAllocated = true →
          ∃ answered, answer w env processor list.seq subtenantId objects = some answered ∧
            (ServedByThisCall env list.seq objects answered (code, objects') ↔ NotSuccess answered)) := by
  refine ⟨fun object => ⟨fun hfits => generateUploadUrls_isSome env processor hfits,
    fun result => generateUploadUrls_served⟩, ?_⟩
  intro list ne_nil hcursor
  cases harray : env.arrayAllocated with
  | false =>
    have hgenerate : processorGenerateUploadUrls w env processor list subtenantId objects =
        some (.error .outOfMemory, list, objects) := by
      simp only [processorGenerateUploadUrls, harray, dataLakeObjectListToArray_none (.inl rfl), bind, Option.bind,
        pure]
    rw [hgenerate]
    refine ⟨fun _ => rfl, ?_⟩
    rintro code list' objects' ⟨⟩
    exact ⟨fun _ => ⟨rfl, rfl⟩, Bool.noConfusion⟩
  | true =>
    have hgenerate : processorGenerateUploadUrls w env processor list subtenantId objects =
        (generateUploadUrls w env processor list.seq subtenantId objects).map fun r =>
          (r.1, .split list.seq [], r.2) := by
      simp only [processorGenerateUploadUrls, harray, dataLakeObjectListToArray_first ne_nil hcursor, bind, Option.bind]
      cases generateUploadUrls w env processor list.seq subtenantId objects <;> rfl
    rw [hgenerate]
    refine ⟨fun hfits => ?_, ?_⟩
    · rw [Option.isSome_map]
      exact generateUploadUrls_isSome env processor hfits
    · intro code list' objects' h
      obtain ⟨result, hresult, heq⟩ := Option.map_eq_some_iff.1 h
      cases heq
      exact ⟨Bool.noConfusion, fun _ => generateUploadUrls_served hresult⟩

/-! ## Status 200 -/

def successUrls : DataLakeEnvironment := { offlineUrls with send := fun _ => .ok ⟨200, none, none⟩ }

def sampleProcessor : DataLakeProcessor := ⟨some (.lit "me"), .lit "token", some (.lit "https://host")⟩

theorem answer_offline {array : List Nat} {objects : Objects} {answered : Result HttpResponse}
    (h : answer 64 offlineUrls sampleProcessor array none objects = some answered) : NotSuccess answered := by
  obtain ⟨body, -, rfl⟩ := Option.map_eq_some_iff.1 h
  intro response hok
  obtain ⟨request, -, hsend⟩ := bind_eq_ok hok
  cases hsend

theorem offlineUrls_servedByThisCall :
    (∃ answered result, processorGenerateUploadUrl 64 offlineUrls sampleProcessor 0 none fileObjects = some result ∧
      ServedByThisCall offlineUrls [0] fileObjects answered result) ∧
    ∃ answered code list objects, processorGenerateUploadUrls 64 offlineUrls sampleProcessor (.ofList [0, 1]) none
        fileObjects = some (code, list, objects) ∧
      ServedByThisCall offlineUrls [0, 1] fileObjects answered (code, objects) := by
  obtain ⟨hobject, hlist⟩ :=
    generateUploadUrls_servedByThisCall_iff 64 offlineUrls sampleProcessor none fileObjects
  obtain ⟨hends, hserved⟩ := hobject 0
  obtain ⟨result, hresult⟩ := Option.isSome_iff_exists.1 (hends (by decide))
  obtain ⟨answered, hanswer, hiff⟩ := hserved result hresult
  obtain ⟨hends', hserved'⟩ := hlist (.ofList [0, 1]) (by decide) rfl
  obtain ⟨⟨code, list, objects⟩, hresult'⟩ := Option.isSome_iff_exists.1 (hends' (by decide))
  obtain ⟨answered', hanswer', hiff'⟩ := (hserved' code list objects hresult').2 rfl
  exact ⟨⟨answered, result, hresult, hiff.2 (answer_offline hanswer)⟩,
    answered', code, list, objects, hresult', hiff'.2 (answer_offline hanswer')⟩

/-- An answer with status 200 and without a body is `MCL_OK`, and the object has no URL. -/
theorem success_not_servedByThisCall :
    ∃ answered objects', answer 64 successUrls sampleProcessor [0] none fileObjects = some answered ∧
      processorGenerateUploadUrl 64 successUrls sampleProcessor 0 none fileObjects = some (.ok (), objects') ∧
      (objects' 0).path = some (.lit "file") ∧ (objects' 0).signedUrl = none ∧
      ¬ ServedByThisCall successUrls [0] fileObjects answered (.ok (), objects') := by
  refine ⟨.ok ⟨200, none, none⟩, clearSignedUrls [0] fileObjects, rfl, rfl, rfl, rfl, ?_⟩
  intro hserved
  obtain ⟨-, hall⟩ := hserved.ok rfl
  obtain ⟨_, url, _, hurl, _⟩ := hall 0 (by decide) rfl
  cases hurl

end MindConnect
