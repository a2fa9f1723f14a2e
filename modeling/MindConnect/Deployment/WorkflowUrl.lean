import MindConnect.Core.StringUtil

/-!
# The URLs of the deployment module: `deployment_processor.c`

| here | there |
| --- | --- |
| `WorkflowFilter` | `deployment_workflow_filter_t` (`deployment_workflow_filter.h`) |
| `Malloc` | `MCL_MALLOC`: null, or a block of the size that was asked for with anything in it |
| `addQueryParameter` | `_add_query_parameter` (`deployment_processor.c:552`) |
| `calculateQueryStringLength` | `_calculate_query_string_length` (`:580`) |
| `getQueryStringForSingleWorkflow`, `getQueryStringForListOfWorkflows` | the functions of the same names (`:436`, `:498`) |
| `getUrlToGetPatchWorkflow`, `getUrlToListWorkflows` | the functions of the same names (`:324`, `:384`) |

Each `&` is written behind its parameter, and the terminator goes over the last one. The outcome `none` is an access
outside an allocation. Every string is a block of memory of its own, so that a sum of lengths does not wrap around.
-/

namespace MindConnect.Deployment

/-! ## The code -/

structure WorkflowFilter where
  model : Bool
  history : Bool
  currentState : Option CString
  group : Option CString
  deviceId : Option CString
  modelKey : Option CString

structure Malloc where
  block : Nat → Option Bytes
  length_block : ∀ {n : Nat} {bs : Bytes}, block n = some bs → bs.length = n

def addQueryParameter (to_ : Bytes × Nat) (key : CString) (value : Option CString) : Option (Bytes × Nat) :=
  if strlen value ≠ 0 then do
    let position ← put to_ key.bytes
    let position ← put position (ascii "=")
    let position ← put position (characters value)
    put position (ascii "&")
  else some to_

/-- The flags are written as `true`. -/
def addFlag (flag : Bool) (to_ : Bytes × Nat) (key : CString) : Option (Bytes × Nat) :=
  if flag then addQueryParameter to_ key (some (.lit "true")) else some to_

def calculateQueryStringLength (filter : WorkflowFilter) : Nat :=
  let modelLength := if filter.model then 11 else 0
  let historyLength := if filter.history then 13 else 0
  let overhead (length constant : Nat) : Nat := if length ≠ 0 then length + constant else length
  modelLength + historyLength + overhead (strlen filter.currentState) 14 + overhead (strlen filter.deviceId) 10 +
    overhead (strlen filter.group) 7 + overhead (strlen filter.modelKey) 10

/-- Both builders: the question mark, what `parameters` writes, and the terminator at the length. -/
def getQueryString (malloc : Malloc) (queryStringLength : Nat)
    (parameters : Bytes × Nat → Option (Bytes × Nat)) : Option (Result (Option Bytes)) :=
  if queryStringLength ≠ 0 then
    match malloc.block (queryStringLength + 1) with
    | none => some (.error .outOfMemory)
    | some queryString => do
      let position ← put (queryString, 0) (ascii "?")
      let position ← parameters position
      let queryString ← Bytes.write position.1 queryStringLength [0]
      return .ok (some queryString)
  else some (.ok none)

def getQueryStringForSingleWorkflow (malloc : Malloc) (filter : WorkflowFilter) : Option (Result (Option Bytes)) :=
  let modelQueryLength := 11
  let historyQueryLength := 13
  let queryStringLength :=
    (if filter.model then modelQueryLength else 0) + (if filter.history then historyQueryLength else 0)
  getQueryString malloc queryStringLength fun position => do
    let position ← addFlag filter.model position (.lit "model")
    addFlag filter.history position (.lit "history")

def getQueryStringForListOfWorkflows (malloc : Malloc) (filter : WorkflowFilter) : Option (Result (Option Bytes)) :=
  getQueryString malloc (calculateQueryStringLength filter) fun position => do
    let position ← addFlag filter.model position (.lit "model")
    let position ← addFlag filter.history position (.lit "history")
    let position ← addQueryParameter position (.lit "currentState") filter.currentState
    let position ← addQueryParameter position (.lit "deviceId") filter.deviceId
    let position ← addQueryParameter position (.lit "group") filter.group
    addQueryParameter position (.lit "modelKey") filter.modelKey

/-- `strlen` of an allocation, which has to have a terminator. -/
def strlenOf (block : Bytes) : Option Nat := if 0 ∈ block then some (CString.ofBuffer block).length else none

/-- The query of a filter that may be null, its string and its length; a query that failed is null. -/
def queryOf (query : WorkflowFilter → Option (Result (Option Bytes))) :
    Option WorkflowFilter → Option (Result Unit × Bytes × Nat)
  | none => some (.ok (), [], 0)
  | some filter => do
    match ← query filter with
    | .error e => return (.error e, [], 0)
    | .ok none => return (.ok (), [], 0)
    | .ok (some queryString) => return (.ok (), queryString, ← strlenOf queryString)

/-- `if (query_length != 0)`: the query with its terminator. -/
def copyQuery (position : Bytes × Nat) (queryString : Bytes) (queryLength : Nat) : Option Bytes :=
  if queryLength ≠ 0 then Bytes.write position.1 position.2 (queryString.take (queryLength + 1)) else some position.1

/-- The code and the URL. -/
def getUrlToGetPatchWorkflow (forQuery forUrl : Malloc) (path id : CString) (filter : Option WorkflowFilter) :
    Option (Result Unit × Option Bytes) := do
  let (code, queryString, queryLength) ← queryOf (getQueryStringForSingleWorkflow forQuery) filter
  let urlLength := path.length + (CString.lit "/").length + id.length + queryLength
  match forUrl.block (urlLength + 1) with
  | none => return (.error .outOfMemory, none)
  | some url =>
    let position ← put (url, 0) path.bytes
    let position ← put position (ascii "/")
    let url ← Bytes.write position.1 position.2 (id.bytes ++ [0])
    let url ← copyQuery (url, position.2 + id.length) queryString queryLength
    return (code, some url)

def getUrlToListWorkflows (forQuery forUrl : Malloc) (path : CString) (filter : Option WorkflowFilter) :
    Option (Result Unit × Option Bytes) := do
  let (code, queryString, queryLength) ← queryOf (getQueryStringForListOfWorkflows forQuery) filter
  let urlLength := path.length + queryLength
  match forUrl.block (urlLength + 1) with
  | none => return (.error .outOfMemory, none)
  | some url =>
    let url ← Bytes.write url 0 (path.bytes ++ [0])
    let url ← copyQuery (url, path.length) queryString queryLength
    return (code, some url)

/-! ## What is to be built -/

/-- A parameter with a value that is not empty. -/
def parameter (key : CString) (value : Option CString) : List (Bytes × Bytes) :=
  if strlen value ≠ 0 then [(key.bytes, characters value)] else []

def flagParameter (flag : Bool) (key : CString) : List (Bytes × Bytes) :=
  if flag then [(key.bytes, ascii "true")] else []

def singleParameters (filter : WorkflowFilter) : List (Bytes × Bytes) :=
  flagParameter filter.model (.lit "model") ++ flagParameter filter.history (.lit "history")

def listParameters (filter : WorkflowFilter) : List (Bytes × Bytes) :=
  singleParameters filter ++ parameter (.lit "currentState") filter.currentState ++
    parameter (.lit "deviceId") filter.deviceId ++ parameter (.lit "group") filter.group ++
    parameter (.lit "modelKey") filter.modelKey

def pair (p : Bytes × Bytes) : Bytes := p.1 ++ ascii "=" ++ p.2

/-- Nothing, or a question mark and the pairs with an ampersand between each two. -/
def queryText (parameters : List (Bytes × Bytes)) : Bytes :=
  if parameters = [] then [] else ascii "?" ++ (ascii "&").intercalate (parameters.map pair)

/-- The call stays inside its allocations; the code says whether they were made, and then the URL is `text`. -/
def Builds (result : Option (Result Unit × Option Bytes)) (allocated : Prop) (text : Bytes) : Prop :=
  ∃ code url, result = some (code, url) ∧ (code = .ok () ↔ allocated) ∧ (code = .ok () → url = some (text ++ [0]))

def QueryAllocated (malloc : Malloc) (parameters : List (Bytes × Bytes)) : Prop :=
  parameters = [] ∨ (malloc.block ((queryText parameters).length + 1)).isSome

instance (malloc : Malloc) (parameters : List (Bytes × Bytes)) : Decidable (QueryAllocated malloc parameters) :=
  inferInstanceAs (Decidable (_ ∨ _))

/-! ## The parameters as they are written -/

/-- Each pair with its ampersand. -/
def segments (parameters : List (Bytes × Bytes)) : Bytes := parameters.flatMap fun p => pair p ++ ascii "&"

@[simp] theorem segments_append (ps qs : List (Bytes × Bytes)) : segments (ps ++ qs) = segments ps ++ segments qs :=
  List.flatMap_append

theorem segments_eq_nil_iff (ps : List (Bytes × Bytes)) : segments ps = [] ↔ ps = [] := by
  cases ps with
  | nil => simp [segments]
  | cons p ps => simp [segments, ascii]

/-- The last ampersand is the one behind the text. -/
theorem segments_eq (ps : List (Bytes × Bytes)) (hne : ps ≠ []) :
    segments ps = (ascii "&").intercalate (ps.map pair) ++ ascii "&" := by
  induction ps with
  | nil => exact absurd rfl hne
  | cons p ps ih =>
    cases ps with
    | nil => simp [segments]
    | cons q ps =>
      have hrest := ih (List.cons_ne_nil _ _)
      rw [segments, List.flatMap_cons, ← segments, hrest]
      simp [List.intercalate]

theorem queryText_append_ampersand {ps : List (Bytes × Bytes)} (hne : ps ≠ []) :
    queryText ps ++ ascii "&" = ascii "?" ++ segments ps := by
  rw [queryText, if_neg hne, segments_eq ps hne, List.append_assoc]

theorem length_queryText (ps : List (Bytes × Bytes)) : (queryText ps).length = (segments ps).length := by
  by_cases hne : ps = []
  · simp [hne, queryText, segments]
  · have h := congrArg List.length (queryText_append_ampersand hne)
    have hends : (ascii "&").length = 1 ∧ (ascii "?").length = 1 := ⟨rfl, rfl⟩
    simp only [List.length_append, hends] at h
    omega

/-- A step of the builders writes the parameters `ps`. -/
def Writes (step : Bytes × Nat → Option (Bytes × Nat)) (ps : List (Bytes × Bytes)) : Prop :=
  ∀ (to_ : Bytes × Nat) (text : Bytes) (size : Nat), Written to_ text size → (text ++ segments ps).length ≤ size →
    ∃ position, step to_ = some position ∧ Written position (text ++ segments ps) size

theorem Writes.bind {step step' : Bytes × Nat → Option (Bytes × Nat)} {ps qs : List (Bytes × Bytes)}
    (h : Writes step ps) (h' : Writes step' qs) : Writes (fun to_ => step to_ >>= step') (ps ++ qs) := by
  intro to_ text size hwritten hroom
  rw [segments_append, ← List.append_assoc] at hroom ⊢
  have hfirst : (text ++ segments ps).length ≤ size := by
    rw [List.length_append] at hroom
    omega
  obtain ⟨position, hstep, hposition⟩ := h _ _ _ hwritten hfirst
  obtain ⟨position', hstep', hposition'⟩ := h' _ _ _ hposition hroom
  refine ⟨position', ?_, hposition'⟩
  simp only [hstep, Option.bind_eq_bind, Option.bind_some, hstep']

theorem addQueryParameter_writes (key : CString) (value : Option CString) :
    Writes (addQueryParameter · key value) (parameter key value) := by
  intro to_ text size hwritten hroom
  simp only [addQueryParameter, parameter] at hroom ⊢
  split_ifs at hroom ⊢ with hvalue
  · simp only [segments, pair, List.flatMap_cons, List.flatMap_nil, List.append_nil, ← List.append_assoc] at hroom ⊢
    have hsub : ∀ {xs ys : Bytes}, (xs ++ ys).length ≤ size → xs.length ≤ size := fun {xs ys} hle => by
      rw [List.length_append] at hle
      omega
    obtain ⟨to₁, hput₁, w₁⟩ := put_written hwritten key.bytes (hsub (hsub (hsub hroom)))
    obtain ⟨to₂, hput₂, w₂⟩ := put_written w₁ (ascii "=") (hsub (hsub hroom))
    obtain ⟨to₃, hput₃, w₃⟩ := put_written w₂ (characters value) (hsub hroom)
    obtain ⟨to₄, hput₄, w₄⟩ := put_written w₃ (ascii "&") hroom
    refine ⟨to₄, ?_, w₄⟩
    simp only [hput₁, hput₂, hput₃, hput₄, Option.bind_eq_bind, Option.bind_some]
  · exact ⟨to_, rfl, by simpa [segments] using hwritten⟩

theorem addFlag_writes (flag : Bool) (key : CString) : Writes (addFlag flag · key) (flagParameter flag key) := by
  cases flag with
  | false =>
    intro to_ text size hwritten _
    exact ⟨to_, rfl, by simpa [segments, flagParameter] using hwritten⟩
  | true => exact addQueryParameter_writes key (some (.lit "true"))

/-! ## The query -/

/-- What both builders come to: the last ampersand has given way to the terminator. -/
theorem getQueryString_eq {malloc : Malloc} {queryStringLength : Nat}
    {parameters : Bytes × Nat → Option (Bytes × Nat)} {ps : List (Bytes × Bytes)} (hwrites : Writes parameters ps)
    (hlength : queryStringLength = (segments ps).length) :
    getQueryString malloc queryStringLength parameters =
      some (if ps = [] then .ok none
        else if (malloc.block ((queryText ps).length + 1)).isSome then .ok (some (queryText ps ++ [0]))
        else .error .outOfMemory) := by
  have hzero : queryStringLength = 0 ↔ ps = [] := by
    rw [hlength, List.length_eq_zero_iff, segments_eq_nil_iff]
  rw [getQueryString]
  by_cases hps : ps = []
  · rw [if_neg (not_not_intro (hzero.2 hps)), if_pos hps]
  rw [if_pos (mt hzero.1 hps), if_neg hps, length_queryText, ← hlength]
  cases hblock : malloc.block (queryStringLength + 1) with
  | none => simp
  | some block =>
    have hstart : Written (block, 0) [] (queryStringLength + 1) := by
      simp [Written, malloc.length_block hblock]
    have hmark : (ascii "?").length = 1 := rfl
    obtain ⟨to₁, hput₁, w₁⟩ := put_written hstart (ascii "?") (by simp [hmark])
    have hall : ([] ++ ascii "?" ++ segments ps).length = queryStringLength + 1 := by
      simp only [List.nil_append, List.length_append, hmark, hlength]
      omega
    obtain ⟨to₂, hput₂, hlength₂, hposition₂, htake₂⟩ := hwrites _ _ _ w₁ (Nat.le_of_eq hall)
    have hbuffer : to₂.1 = queryText ps ++ ascii "&" := by
      rw [queryText_append_ampersand hps, ← List.nil_append (ascii "?"), ← htake₂, hposition₂, hall, ← hlength₂,
        List.take_length]
    have hterminated : Bytes.write to₂.1 queryStringLength [0] = some (queryText ps ++ [0]) := by
      have hlast : Bytes.write (queryText ps ++ (ascii "&" ++ [])) queryStringLength [0] =
          some (queryText ps ++ ([0] ++ [])) := Bytes.write_append (hlength.trans (length_queryText ps).symm) rfl
      simpa [hbuffer] using hlast
    simp only [hput₁, hput₂, hterminated, Option.isSome_some, if_true, Option.bind_eq_bind, Option.bind_some,
      Option.pure_def]

theorem length_flag (flag : Bool) (key : CString) :
    (segments (flagParameter flag key)).length = if flag then key.length + 6 else 0 := by
  cases flag with
  | false => rfl
  | true => simp [segments, flagParameter, pair, ascii, CString.length]

theorem length_parameter (key : CString) (value : Option CString) :
    (segments (parameter key value)).length = if strlen value ≠ 0 then strlen value + (key.length + 2) else strlen value := by
  by_cases hvalue : strlen value = 0
  · simp [segments, parameter, hvalue]
  · simp only [segments, parameter, pair, ascii, hvalue, ne_eq, not_false_eq_true, if_true, List.flatMap_cons,
      List.flatMap_nil, List.append_nil, List.length_append, length_characters, CString.length]
    simp
    omega

theorem getQueryStringForSingleWorkflow_eq (malloc : Malloc) (filter : WorkflowFilter) :
    getQueryStringForSingleWorkflow malloc filter =
      some (if singleParameters filter = [] then .ok none
        else if (malloc.block ((queryText (singleParameters filter)).length + 1)).isSome then
          .ok (some (queryText (singleParameters filter) ++ [0]))
        else .error .outOfMemory) := by
  apply getQueryString_eq ((addFlag_writes filter.model _).bind (addFlag_writes filter.history _))
  simp only [segments_append, List.length_append, length_flag]
  rfl

theorem getQueryStringForListOfWorkflows_eq (malloc : Malloc) (filter : WorkflowFilter) :
    getQueryStringForListOfWorkflows malloc filter =
      some (if listParameters filter = [] then .ok none
        else if (malloc.block ((queryText (listParameters filter)).length + 1)).isSome then
          .ok (some (queryText (listParameters filter) ++ [0]))
        else .error .outOfMemory) := by
  have hwrites := (addFlag_writes filter.model (.lit "model")).bind <|
    (addFlag_writes filter.history (.lit "history")).bind <|
    (addQueryParameter_writes (.lit "currentState") filter.currentState).bind <|
    (addQueryParameter_writes (.lit "deviceId") filter.deviceId).bind <|
    (addQueryParameter_writes (.lit "group") filter.group).bind <|
    addQueryParameter_writes (.lit "modelKey") filter.modelKey
  simp only [← List.append_assoc] at hwrites
  apply getQueryString_eq hwrites
  simp only [segments_append, List.length_append, length_flag, length_parameter]
  rfl

/-! ## A query has no terminator inside -/

theorem zero_not_mem_queryText {ps : List (Bytes × Bytes)} (hps : ∀ p ∈ ps, 0 ∉ p.1 ∧ 0 ∉ p.2) :
    0 ∉ queryText ps := by
  intro h
  by_cases hne : ps = []
  · rw [queryText, if_pos hne] at h
    cases h
  have hall : 0 ∈ ascii "?" ++ segments ps := by
    rw [← queryText_append_ampersand hne]
    exact List.mem_append_left _ h
  rcases List.mem_append.1 hall with hmark | hsegment
  · revert hmark
    decide
  · obtain ⟨p, hp, hsegment⟩ := List.mem_flatMap.1 hsegment
    obtain ⟨hkey, hvalue⟩ := hps p hp
    simp only [pair, List.mem_append, hkey, hvalue, false_or, or_false] at hsegment
    revert hsegment
    decide

theorem zero_not_mem_parameter {key : CString} {value : Option CString} :
    ∀ p ∈ parameter key value, 0 ∉ p.1 ∧ 0 ∉ p.2 := by
  intro p hp
  rw [parameter] at hp
  split_ifs at hp
  · obtain rfl := List.mem_singleton.1 hp
    refine ⟨key.nul_free, ?_⟩
    cases value with
    | none => exact List.not_mem_nil
    | some value => exact value.nul_free
  · cases hp

theorem zero_not_mem_flagParameter {flag : Bool} {key : CString} :
    ∀ p ∈ flagParameter flag key, 0 ∉ p.1 ∧ 0 ∉ p.2 := by
  intro p hp
  cases flag with
  | false => cases hp
  | true =>
    obtain rfl := List.mem_singleton.1 hp
    have htrue : 0 ∉ ascii "true" := by decide
    exact ⟨key.nul_free, htrue⟩

theorem zero_not_mem_singleParameters (filter : WorkflowFilter) :
    ∀ p ∈ singleParameters filter, 0 ∉ p.1 ∧ 0 ∉ p.2 := by
  intro p hp
  rcases List.mem_append.1 hp with hp | hp
  · exact zero_not_mem_flagParameter p hp
  · exact zero_not_mem_flagParameter p hp

theorem zero_not_mem_listParameters (filter : WorkflowFilter) :
    ∀ p ∈ listParameters filter, 0 ∉ p.1 ∧ 0 ∉ p.2 := by
  intro p hp
  simp only [listParameters, List.mem_append] at hp
  rcases hp with (((hp | hp) | hp) | hp) | hp
  · exact zero_not_mem_singleParameters filter p hp
  all_goals exact zero_not_mem_parameter p hp

theorem strlenOf_append_zero {text : Bytes} (h : 0 ∉ text) : strlenOf (text ++ [0]) = some text.length := by
  have hne : ∀ b ∈ text, (b != 0) = true := by
    intro b hb
    exact bne_iff_ne.2 fun hzero => h (hzero ▸ hb)
  have htake : (text ++ [0]).takeWhile (· != 0) = text := by
    rw [List.takeWhile_append_of_pos hne]
    simp
  rw [strlenOf, if_pos (by simp)]
  exact congrArg some (congrArg List.length htake)

/-! ## The URL -/

/-- The string of a query, null if there is none. -/
def stringOf (text : Bytes) : Bytes := if text = [] then [] else text ++ [0]

/-- The query is there or there is none to be, or its allocation failed. -/
theorem queryOf_eq {malloc : Malloc} {query : WorkflowFilter → Option (Result (Option Bytes))}
    {parameters : WorkflowFilter → List (Bytes × Bytes)}
    (hquery : ∀ filter, query filter =
      some (if parameters filter = [] then .ok none
        else if (malloc.block ((queryText (parameters filter)).length + 1)).isSome then
          .ok (some (queryText (parameters filter) ++ [0]))
        else .error .outOfMemory))
    (hzero : ∀ filter, ∀ p ∈ parameters filter, 0 ∉ p.1 ∧ 0 ∉ p.2) (filter : Option WorkflowFilter) :
    ∃ code text, queryOf query filter = some (code, stringOf text, text.length) ∧
      (code = .ok () ↔ QueryAllocated malloc (filter.elim [] parameters)) ∧
      (code = .ok () → text = queryText (filter.elim [] parameters)) := by
  cases filter with
  | none => exact ⟨.ok (), [], rfl, by simp [QueryAllocated], fun _ => rfl⟩
  | some filter =>
    simp only [queryOf, hquery, Option.elim_some]
    by_cases hnone : parameters filter = []
    · exact ⟨.ok (), [], by simp [hnone, stringOf], by simp [QueryAllocated, hnone], fun _ => by simp [hnone, queryText]⟩
    by_cases hblock : (malloc.block ((queryText (parameters filter)).length + 1)).isSome
    · have hne : queryText (parameters filter) ≠ [] := by simp [queryText, hnone, ascii]
      refine ⟨.ok (), queryText (parameters filter), ?_, by simp [QueryAllocated, hblock], fun _ => rfl⟩
      simp [hnone, hblock, stringOf, hne, strlenOf_append_zero (zero_not_mem_queryText (hzero filter))]
    · exact ⟨.error .outOfMemory, [], by simp [hnone, hblock, stringOf], by simp [QueryAllocated, hnone, hblock],
        fun h => by cases h⟩

/-- The query takes the place of the terminator behind what is there. -/
theorem copyQuery_eq {url before : Bytes} (text : Bytes) (hlength : url.length = before.length + text.length + 1)
    (htake : url.take (before.length + 1) = before ++ [0]) :
    copyQuery (url, before.length) (stringOf text) text.length = some (before ++ text ++ [0]) := by
  cases text with
  | nil =>
    rw [List.length_nil, Nat.add_zero] at hlength
    simp [copyQuery, ← htake, List.take_of_length_le (Nat.le_of_eq hlength)]
  | cons b text =>
    have hall : (stringOf (b :: text)).take ((b :: text).length + 1) = (b :: text) ++ [0] := by
      simp [stringOf]
    have hbefore : url.take before.length = before := by
      have h := congrArg (List.take before.length) htake
      rwa [List.take_take, Nat.min_eq_left (Nat.le_succ _), List.take_left' rfl] at h
    have hroom : before.length + ((b :: text) ++ [0]).length = url.length := by
      simp only [List.length_append, List.length_singleton]
      omega
    rw [copyQuery, if_pos (by simp), hall, Bytes.write_eq_some (Nat.le_of_eq hroom), hroom, List.drop_length, hbefore]
    simp

/-- A string that is copied with its terminator behind what has been written. -/
theorem write_terminated {to_ : Bytes × Nat} {text : Bytes} {size : Nat} (h : Written to_ text size) (bs : Bytes)
    (hroom : (text ++ bs).length + 1 ≤ size) :
    ∃ buffer, Bytes.write to_.1 to_.2 (bs ++ [0]) = some buffer ∧ buffer.length = size ∧
      buffer.take ((text ++ bs).length + 1) = text ++ bs ++ [0] := by
  have hroom' : (text ++ (bs ++ [0])).length ≤ size := by
    rwa [← List.append_assoc, List.length_append, List.length_singleton]
  obtain ⟨to', hput, hlength, hposition, htake⟩ := put_written h (bs ++ [0]) hroom'
  cases hwrite : Bytes.write to_.1 to_.2 (bs ++ [0]) with
  | none =>
    rw [put, hwrite] at hput
    cases hput
  | some buffer =>
    rw [put, hwrite] at hput
    cases hput
    refine ⟨buffer, rfl, hlength, ?_⟩
    have hlast : (text ++ bs ++ [0]).length = (text ++ bs).length + 1 := List.length_append
    rw [hposition, ← List.append_assoc, hlast] at htake
    exact htake

/-- A URL that is `before` and the query, if its block was there. -/
theorem builds_of_block {forQuery forUrl : Malloc} {parameters : List (Bytes × Bytes)} {before text : Bytes}
    {code : Result Unit} {result : Option (Result Unit × Option Bytes)}
    (hcode : code = .ok () ↔ QueryAllocated forQuery parameters) (htext : code = .ok () → text = queryText parameters)
    (hnull : forUrl.block (before.length + text.length + 1) = none → result = some (.error .outOfMemory, none))
    (hblock : ∀ url, forUrl.block (before.length + text.length + 1) = some url →
      result = some (code, some (before ++ text ++ [0]))) :
    Builds result
      (QueryAllocated forQuery parameters ∧ (forUrl.block ((before ++ queryText parameters).length + 1)).isSome)
      (before ++ queryText parameters) := by
  cases hurl : forUrl.block (before.length + text.length + 1) with
  | none =>
    refine ⟨_, _, hnull hurl, iff_of_false (by simp) ?_, fun h => by cases h⟩
    rintro ⟨hallocated, hsome⟩
    rw [List.length_append, ← htext (hcode.2 hallocated), hurl] at hsome
    cases hsome
  | some url =>
    refine ⟨_, _, hblock url hurl, ?_, fun h => by rw [htext h]⟩
    constructor
    · intro h
      rw [List.length_append, ← htext h, hurl]
      exact ⟨hcode.1 h, rfl⟩
    · rintro ⟨hallocated, -⟩
      exact hcode.2 hallocated

theorem getUrlToListWorkflows_builds (forQuery forUrl : Malloc) (path : CString) (filter : Option WorkflowFilter) :
    Builds (getUrlToListWorkflows forQuery forUrl path filter)
      (QueryAllocated forQuery (filter.elim [] listParameters) ∧
        (forUrl.block ((path.bytes ++ queryText (filter.elim [] listParameters)).length + 1)).isSome)
      (path.bytes ++ queryText (filter.elim [] listParameters)) := by
  obtain ⟨code, text, hquery, hcode, htext⟩ := queryOf_eq (getQueryStringForListOfWorkflows_eq forQuery)
    zero_not_mem_listParameters filter
  have hpath : path.length = path.bytes.length := rfl
  simp only [getUrlToListWorkflows, hquery, Option.bind_eq_bind, Option.bind_some, Option.pure_def, hpath]
  refine builds_of_block hcode htext (fun hnull => by simp only [hnull]) fun url hurl => ?_
  have hlength := forUrl.length_block hurl
  have hstart : Written (url, 0) [] url.length := by simp [Written]
  obtain ⟨url', hwrite, hlength', htake⟩ := write_terminated hstart path.bytes (by rw [List.nil_append]; omega)
  simp only [hurl, hwrite, Option.bind_some, copyQuery_eq text (hlength'.trans hlength) htake]

theorem getUrlToGetPatchWorkflow_builds (forQuery forUrl : Malloc) (path id : CString)
    (filter : Option WorkflowFilter) :
    Builds (getUrlToGetPatchWorkflow forQuery forUrl path id filter)
      (QueryAllocated forQuery (filter.elim [] singleParameters) ∧
        (forUrl.block ((path.bytes ++ ascii "/" ++ id.bytes ++
          queryText (filter.elim [] singleParameters)).length + 1)).isSome)
      (path.bytes ++ ascii "/" ++ id.bytes ++ queryText (filter.elim [] singleParameters)) := by
  obtain ⟨code, text, hquery, hcode, htext⟩ := queryOf_eq (getQueryStringForSingleWorkflow_eq forQuery)
    zero_not_mem_singleParameters filter
  have hbefore : path.length + (CString.lit "/").length + id.length = (path.bytes ++ ascii "/" ++ id.bytes).length := by
    simp only [List.length_append]
    rfl
  simp only [getUrlToGetPatchWorkflow, hquery, Option.bind_eq_bind, Option.bind_some, Option.pure_def, hbefore]
  refine builds_of_block hcode htext (fun hnull => by simp only [hnull]) fun url hurl => ?_
  have hlength := forUrl.length_block hurl
  have hstart : Written (url, 0) [] url.length := by simp [Written]
  have hroom : ([] ++ path.bytes ++ ascii "/" ++ id.bytes).length + 1 ≤ url.length := by
    rw [List.nil_append]
    omega
  have hsub : ∀ {xs ys : Bytes}, (xs ++ ys).length ≤ url.length → xs.length ≤ url.length := fun {xs ys} hle => by
    rw [List.length_append] at hle
    omega
  obtain ⟨to₁, hput₁, w₁⟩ := put_written hstart path.bytes (hsub (hsub (Nat.le_of_succ_le hroom)))
  obtain ⟨to₂, hput₂, w₂⟩ := put_written w₁ (ascii "/") (hsub (Nat.le_of_succ_le hroom))
  obtain ⟨url', hwrite, hlength', htake⟩ := write_terminated w₂ id.bytes hroom
  have hposition : to₂.2 + id.length = (path.bytes ++ ascii "/" ++ id.bytes).length := by
    have hid : (path.bytes ++ ascii "/" ++ id.bytes).length = (path.bytes ++ ascii "/").length + id.length :=
      List.length_append
    rw [w₂.2.1, List.nil_append, hid]
  simp only [hurl, hput₁, hput₂, hwrite, hposition, Option.bind_some,
    copyQuery_eq text (hlength'.trans hlength) htake]

/-! ## Both URLs -/

theorem getQueryString_single_eq_list (malloc : Malloc) {filter : WorkflowFilter}
    (hstate : strlen filter.currentState = 0) (hdevice : strlen filter.deviceId = 0) (hgroup : strlen filter.group = 0)
    (hkey : strlen filter.modelKey = 0) :
    getQueryStringForSingleWorkflow malloc filter = getQueryStringForListOfWorkflows malloc filter := by
  have hparameters : listParameters filter = singleParameters filter := by
    simp [listParameters, parameter, hstate, hdevice, hgroup, hkey]
  rw [getQueryStringForSingleWorkflow_eq, getQueryStringForListOfWorkflows_eq, hparameters]

/-- Both URLs are the path with the query of the parameters that are set, whatever the allocations come to, and the two
queries are one where only the model and the history are asked for. -/
theorem workflowUrls_built (forQuery forUrl : Malloc) (path id : CString) (filter : Option WorkflowFilter) :
    Builds (getUrlToListWorkflows forQuery forUrl path filter)
        (QueryAllocated forQuery (filter.elim [] listParameters) ∧
          (forUrl.block ((path.bytes ++ queryText (filter.elim [] listParameters)).length + 1)).isSome)
        (path.bytes ++ queryText (filter.elim [] listParameters)) ∧
      Builds (getUrlToGetPatchWorkflow forQuery forUrl path id filter)
        (QueryAllocated forQuery (filter.elim [] singleParameters) ∧
          (forUrl.block ((path.bytes ++ ascii "/" ++ id.bytes ++
            queryText (filter.elim [] singleParameters)).length + 1)).isSome)
        (path.bytes ++ ascii "/" ++ id.bytes ++ queryText (filter.elim [] singleParameters)) ∧
      ∀ f ∈ filter, strlen f.currentState = 0 → strlen f.deviceId = 0 → strlen f.group = 0 → strlen f.modelKey = 0 →
        getQueryStringForSingleWorkflow forQuery f = getQueryStringForListOfWorkflows forQuery f :=
  ⟨getUrlToListWorkflows_builds forQuery forUrl path filter,
    getUrlToGetPatchWorkflow_builds forQuery forUrl path id filter,
    fun _ _ => getQueryString_single_eq_list forQuery⟩

/-- A block of zeros of any size. -/
def zeros : Malloc := ⟨fun n => some (List.replicate n 0), fun h => by cases h; exact List.length_replicate⟩

theorem modelAndHistory_built :
    getQueryStringForSingleWorkflow zeros ⟨true, true, none, none, some (.lit ""), none⟩ =
      getQueryStringForListOfWorkflows zeros ⟨true, true, none, none, some (.lit ""), none⟩ :=
  (workflowUrls_built zeros zeros (.lit "u") (.lit "1") (some ⟨true, true, none, none, some (.lit ""), none⟩)).2.2 _ rfl
    rfl rfl rfl rfl

example :
    getUrlToListWorkflows zeros zeros (.lit "u") (some ⟨true, false, some (.lit "A"), none, none, some (.lit "k")⟩) =
      some (.ok (), some (ascii "u?model=true&currentState=A&modelKey=k" ++ [0])) := by decide

end MindConnect.Deployment
