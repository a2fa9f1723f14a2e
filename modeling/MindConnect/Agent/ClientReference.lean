import MindConnect.Core.HandlerObjects
import MindConnect.Connectivity.ConnectivityProcessor
import MindConnect.DataLake.DataLakeProcessor

/-!
# The client id that connectivity and data lake hold

One core and the handles made for it. A handle copies the pointer to the client id when it is initialized; the
string belongs to the security handler, which frees it with every registration that is taken over.

| here | there |
| --- | --- |
| `mclCoreGetClientId`, `mclCoreGetLastAccessToken` | `core.c:342`, `core.c:235` |
| `mclConnectivityInitialize` | `mcl_connectivity_initialize` (`connectivity.c:13`) |
| `mclDataLakeInitialize` | `mcl_data_lake_initialize` (`data_lake.c:15`) |
| `createMappingCall`, `getDataSourceConfigurationCall` | `mcl_connectivity_create_mapping` (`connectivity.c:90`), `_get_data_source_configuration` (`:117`) |
| `generateUploadUrlCall` | `mcl_data_lake_generate_upload_url_for_subtenant` (`data_lake.c:134`) and its sibling without subtenant |

A call that reads a released string has no result, and what it read is recorded.
-/

namespace MindConnect

open JsonUtil Ownership CriticalSection

/-! ## Handles -/

/-- `mcl_connectivity_t`: the processor and what the configuration has for it. -/
structure Connectivity where
  agentId : Option Nat
  hostname : Option CString
  mappingUrl : Option CString

/-- `mcl_data_lake_t` -/
structure DataLake where
  clientId : Option Nat
  uploadUrlGenerationUrl : Option CString

structure Agent where
  core : HandlerObjects
  hostname : Option CString
  connectivities : List Connectivity
  dataLakes : List DataLake

structure ConnectivityConfiguration where
  hasCore : Bool
  mappingUrl : Option CString

structure DataLakeConfiguration where
  hasCore : Bool
  uploadUrlGenerationUrl : Option CString
  hasCertificate : Bool

/-- `connectivity_configuration_validate`, `data_lake_configuration_validate` -/
def validateCore (hasCore : Bool) : Result Unit := if hasCore then .ok () else .error .invalidParameter

def mclCoreGetClientId (o : HandlerObjects) : Option Nat :=
  if isOnboarded (handlerOf o) then o.ref .clientId else none

def mclCoreGetLastAccessToken (allocated : Bool) (h : SecurityHandler) : Result CString :=
  if isOnboarded h = false then .error .notOnboarded
  else
    match h.accessToken with
    | none => .error .noAccessTokenExists
    | some token => if allocated then .ok token else .error .outOfMemory

def mclConnectivityInitialize (configuration : ConnectivityConfiguration) (allocated : Bool) (a : Agent) :
    Result Connectivity := do
  validateCore configuration.hasCore
  if allocated then .ok ⟨mclCoreGetClientId a.core, a.hostname, configuration.mappingUrl⟩
  else .error .outOfMemory

def mclDataLakeInitialize (configuration : DataLakeConfiguration) (allocated : Bool)
    (addCertificate : Result Unit) (a : Agent) : Result DataLake := do
  validateCore configuration.hasCore
  if allocated then
    (if configuration.hasCertificate then addCertificate else .ok ()).map fun _ =>
      ⟨mclCoreGetClientId a.core, configuration.uploadUrlGenerationUrl⟩
  else .error .outOfMemory

/-! ## Calls -/

/-- The reference whose string was read, if any, and the code. -/
structure Outcome where
  read : Option (Option Nat)
  code : Option (Result Unit)

/-- The call goes on with what is behind the reference. -/
def Outcome.reading (o : HandlerObjects) (ref : Option Nat) (rest : Option CString → Option (Result Unit)) :
    Outcome :=
  ⟨some ref, (o.deref ref).bind rest⟩

/-- The call ends before it reads. -/
def Outcome.done (code : Result Unit) : Outcome := ⟨none, some code⟩

def createMappingCall (tokenAllocated : Bool) (env : ConnectivityEnvironment) (mapping : Mapping)
    (core : HandlerObjects) (connectivity : Connectivity) : Outcome :=
  match mclCoreGetLastAccessToken tokenAllocated (handlerOf core) with
  | .error e => .done (.error e)
  | .ok token =>
    match mapping.validate >>= fun _ => env.step .jsonRoot with
    | .error e => .done (.error e)
    | .ok () => .reading core connectivity.agentId fun agentId =>
      some (createMapping env ⟨connectivity.hostname, connectivity.mappingUrl, token⟩ mapping agentId)

def getDataSourceConfigurationCall (w : Nat) (tokenAllocated : Bool) (env : ConnectivityEnvironment)
    (core : HandlerObjects) (connectivity : Connectivity) : Outcome :=
  match mclCoreGetLastAccessToken tokenAllocated (handlerOf core) with
  | .error e => .done (.error e)
  | .ok token => .reading core connectivity.agentId fun agentId =>
    some ((getDataSourceConfiguration w env ⟨connectivity.hostname, connectivity.mappingUrl, token⟩ agentId).map
      fun _ => ())

def generateUploadUrlCall (w : Nat) (tokenAllocated : Bool) (env : DataLakeEnvironment) (object : Nat)
    (subtenantId : Option CString) (objects : Objects) (core : HandlerObjects) (dataLake : DataLake) : Outcome :=
  match mclCoreGetLastAccessToken tokenAllocated (handlerOf core) with
  | .error e => .done (.error e)
  | .ok token => .reading core dataLake.clientId fun clientId =>
    (processorGenerateUploadUrl w env ⟨clientId, token, dataLake.uploadUrlGenerationUrl⟩ object subtenantId
      objects).map Prod.fst

inductive AgentOp where
  | core (op : CoreOp) (env : Environment)
  | connectivityInitialize (configuration : ConnectivityConfiguration) (allocated : Bool)
  | dataLakeInitialize (configuration : DataLakeConfiguration) (allocated : Bool) (addCertificate : Result Unit)
  | createMapping (i : Nat) (tokenAllocated : Bool) (env : ConnectivityEnvironment) (mapping : Mapping)
  | getDataSourceConfiguration (i : Nat) (w : Nat) (tokenAllocated : Bool) (env : ConnectivityEnvironment)
  | generateUploadUrl (i : Nat) (w : Nat) (tokenAllocated : Bool) (env : DataLakeEnvironment) (object : Nat)
      (subtenantId : Option CString) (objects : Objects)

def AgentOp.perform (c : CoreConfiguration) (op : AgentOp) (a : Agent) : Option (Outcome × Agent) :=
  match op with
  | .core op env => (op.performObjects c env a.core).map fun (code, o) => (.done code, { a with core := o })
  | .connectivityInitialize configuration allocated =>
    match mclConnectivityInitialize configuration allocated a with
    | .error e => some (.done (.error e), a)
    | .ok connectivity => some (.done (.ok ()), { a with connectivities := a.connectivities ++ [connectivity] })
  | .dataLakeInitialize configuration allocated addCertificate =>
    match mclDataLakeInitialize configuration allocated addCertificate a with
    | .error e => some (.done (.error e), a)
    | .ok dataLake => some (.done (.ok ()), { a with dataLakes := a.dataLakes ++ [dataLake] })
  | .createMapping i tokenAllocated env mapping =>
    a.connectivities[i]?.map fun connectivity => (createMappingCall tokenAllocated env mapping a.core connectivity, a)
  | .getDataSourceConfiguration i w tokenAllocated env =>
    a.connectivities[i]?.map fun connectivity =>
      (getDataSourceConfigurationCall w tokenAllocated env a.core connectivity, a)
  | .generateUploadUrl i w tokenAllocated env object subtenantId objects =>
    a.dataLakes[i]?.map fun dataLake =>
      (generateUploadUrlCall w tokenAllocated env object subtenantId objects a.core dataLake, a)

/-- Any calls one after the other, on handles that were made. -/
def AgentPerforms (c : CoreConfiguration) (op : AgentOp) (a : Agent) (out : Outcome) (a' : Agent) : Prop :=
  op.perform c a = some (out, a')

abbrev AgentCall := Done Agent AgentOp Outcome

/-! ## One call -/

inductive Handle where
  | connectivity (i : Nat)
  | dataLake (i : Nat)

/-- The reference that a handle holds. -/
def Agent.reference (a : Agent) : Handle → Option (Option Nat)
  | .connectivity i => a.connectivities[i]?.map Connectivity.agentId
  | .dataLake i => a.dataLakes[i]?.map DataLake.clientId

/-- The handle whose reference a call may read. -/
def AgentOp.handle : AgentOp → Option Handle
  | .createMapping i .. => some (.connectivity i)
  | .getDataSourceConfiguration i .. => some (.connectivity i)
  | .generateUploadUrl i .. => some (.dataLake i)
  | _ => none

/-- The core call in which the handler gets another client id. -/
def AgentOp.TakesOver (c : CoreConfiguration) (h : SecurityHandler) : AgentOp → Prop
  | .core op env => ReachesRegister c (op, env) h ∧ MindConnect.TakesOver c env h
  | _ => False

/-- The call gets as far as the string. -/
def AgentOp.Reads (h : SecurityHandler) : AgentOp → Prop
  | .createMapping _ tokenAllocated env mapping => (∃ token, mclCoreGetLastAccessToken tokenAllocated h = .ok token) ∧
      mapping.validate = .ok () ∧ env.step .jsonRoot = .ok ()
  | .getDataSourceConfiguration _ _ tokenAllocated _ => ∃ token, mclCoreGetLastAccessToken tokenAllocated h = .ok token
  | .generateUploadUrl _ _ tokenAllocated .. => ∃ token, mclCoreGetLastAccessToken tokenAllocated h = .ok token
  | _ => False

/-- What a call may do to the agent: the handles stay, a new one has the reference of the moment, and the
client id is replaced where a registration is taken over. -/
structure AgentStep (c : CoreConfiguration) (op : AgentOp) (a a' : Agent) : Prop where
  evolves : Owner.Evolves .clientId (op.TakesOver c (handlerOf a.core)) a.core a'.core
  kept : ∀ handle ref, a.reference handle = some ref → a'.reference handle = some ref
  made : ∀ handle ref, a.reference handle = none → a'.reference handle = some ref →
    a'.core = a.core ∧ ref = mclCoreGetClientId a.core

section

variable {c : CoreConfiguration} {op : AgentOp} {a a' : Agent} {out : Outcome}

theorem AgentStep.refl (hop : ¬ op.TakesOver c (handlerOf a.core)) : AgentStep c op a a :=
  ⟨.refl a.core hop, fun _ _ h => h, fun _ _ hnone h => by rw [hnone] at h; cases h⟩

/-- An entry of a list that another was added to is an old one or the new one. -/
theorem getElem?_snoc {α β : Type} {f : α → β} {xs : List α} {x : α} {i : Nat} :
    ((xs ++ [x])[i]?).map f = (xs[i]?.map f).or (if i = xs.length then some (f x) else none) := by
  by_cases hi : i < xs.length
  · simp [List.getElem?_append_left hi, hi]
  · rw [List.getElem?_append_right (Nat.le_of_not_lt hi), List.getElem?_eq_none (Nat.le_of_not_lt hi)]
    by_cases heq : i = xs.length
    · simp [heq]
    · rw [List.getElem?_eq_none (by simp; omega)]
      simp [heq]

theorem agentStep_connectivity {connectivity : Connectivity} (hid : connectivity.agentId = mclCoreGetClientId a.core)
    (hop : ¬ op.TakesOver c (handlerOf a.core)) :
    AgentStep c op a { a with connectivities := a.connectivities ++ [connectivity] } := by
  refine ⟨.refl a.core hop, fun handle ref h => ?_, fun handle ref hnone h => ?_⟩
  · cases handle with
    | connectivity i =>
      have h : a.connectivities[i]?.map Connectivity.agentId = some ref := h
      exact getElem?_snoc.trans (by rw [h]; rfl)
    | dataLake i => exact h
  · cases handle with
    | connectivity i =>
      have hnone : a.connectivities[i]?.map Connectivity.agentId = none := hnone
      have h := getElem?_snoc.symm.trans h
      rw [hnone, Option.none_or] at h
      split_ifs at h
      exact ⟨rfl, (Option.some.inj h).symm.trans hid⟩
    | dataLake i =>
      have h : a.reference (.dataLake i) = some ref := h
      rw [hnone] at h
      cases h

theorem agentStep_dataLake {dataLake : DataLake} (hid : dataLake.clientId = mclCoreGetClientId a.core)
    (hop : ¬ op.TakesOver c (handlerOf a.core)) :
    AgentStep c op a { a with dataLakes := a.dataLakes ++ [dataLake] } := by
  refine ⟨.refl a.core hop, fun handle ref h => ?_, fun handle ref hnone h => ?_⟩
  · cases handle with
    | connectivity i => exact h
    | dataLake i =>
      have h : a.dataLakes[i]?.map DataLake.clientId = some ref := h
      exact getElem?_snoc.trans (by rw [h]; rfl)
  · cases handle with
    | connectivity i =>
      have h : a.reference (.connectivity i) = some ref := h
      rw [hnone] at h
      cases h
    | dataLake i =>
      have hnone : a.dataLakes[i]?.map DataLake.clientId = none := hnone
      have h := getElem?_snoc.symm.trans h
      rw [hnone, Option.none_or] at h
      split_ifs at h
      exact ⟨rfl, (Option.some.inj h).symm.trans hid⟩

theorem agentId_of_initialized {configuration : ConnectivityConfiguration} {allocated : Bool}
    {connectivity : Connectivity} (h : mclConnectivityInitialize configuration allocated a = .ok connectivity) :
    connectivity.agentId = mclCoreGetClientId a.core := by
  obtain ⟨-, -, h⟩ := bind_eq_ok h
  split_ifs at h
  cases h
  rfl

theorem clientId_of_initialized {configuration : DataLakeConfiguration} {allocated : Bool}
    {addCertificate : Result Unit} {dataLake : DataLake}
    (h : mclDataLakeInitialize configuration allocated addCertificate a = .ok dataLake) :
    dataLake.clientId = mclCoreGetClientId a.core := by
  obtain ⟨-, -, h⟩ := bind_eq_ok h
  split_ifs at h with hallocated hcertificate
  · cases addCertificate with
    | error e => cases h
    | ok u =>
      cases h
      rfl
  · cases h
    rfl

theorem agentStep_of_performs (performs : AgentPerforms c op a out a') : AgentStep c op a a' := by
  unfold AgentPerforms AgentOp.perform at performs
  cases op with
  | core op env =>
    obtain ⟨⟨code, core⟩, hperform, heq⟩ := Option.map_eq_some_iff.1 performs
    cases heq
    refine ⟨performObjects_evolves hperform, fun handle ref h => ?_, fun handle ref hnone h => ?_⟩
    · cases handle <;> exact h
    · have h : a.reference handle = some ref := by cases handle <;> exact h
      rw [hnone] at h
      cases h
  | connectivityInitialize configuration allocated =>
    cases hinit : mclConnectivityInitialize configuration allocated a with
    | error e =>
      simp only [hinit] at performs
      cases performs
      exact .refl id
    | ok connectivity =>
      simp only [hinit] at performs
      cases performs
      exact agentStep_connectivity (agentId_of_initialized hinit) id
  | dataLakeInitialize configuration allocated addCertificate =>
    cases hinit : mclDataLakeInitialize configuration allocated addCertificate a with
    | error e =>
      simp only [hinit] at performs
      cases performs
      exact .refl id
    | ok dataLake =>
      simp only [hinit] at performs
      cases performs
      exact agentStep_dataLake (clientId_of_initialized hinit) id
  | createMapping =>
    obtain ⟨connectivity, -, heq⟩ := Option.map_eq_some_iff.1 performs
    cases heq
    exact .refl id
  | getDataSourceConfiguration =>
    obtain ⟨connectivity, -, heq⟩ := Option.map_eq_some_iff.1 performs
    cases heq
    exact .refl id
  | generateUploadUrl =>
    obtain ⟨dataLake, -, heq⟩ := Option.map_eq_some_iff.1 performs
    cases heq
    exact .refl id

theorem isOnboarded_of_token {allocated : Bool} {h : SecurityHandler} {token : CString}
    (ok : mclCoreGetLastAccessToken allocated h = .ok token) : isOnboarded h = true := by
  by_cases hon : isOnboarded h = false
  · rw [mclCoreGetLastAccessToken, if_pos hon] at ok
    cases ok
  · rwa [Bool.not_eq_false] at hon

/-- What a call reads is the reference of its handle, on an onboarded core. -/
structure ReadSpec (op : AgentOp) (a : Agent) (out : Outcome) : Prop where
  reads : ∀ ref, out.read = some ref → isOnboarded (handlerOf a.core) = true ∧ op.Reads (handlerOf a.core) ∧
    ∃ handle, op.handle = some handle ∧ a.reference handle = some ref
  read : op.Reads (handlerOf a.core) → ∃ ref, out.read = some ref

theorem ReadSpec.done {code : Result Unit} (hop : ¬ op.Reads (handlerOf a.core)) : ReadSpec op a (.done code) :=
  ⟨nofun, fun h => absurd h hop⟩

theorem ReadSpec.reading {handle : Handle} {ref : Option Nat} {rest : Option CString → Option (Result Unit)}
    (hop : op.Reads (handlerOf a.core)) (hon : isOnboarded (handlerOf a.core) = true)
    (hhandle : op.handle = some handle) (href : a.reference handle = some ref) :
    ReadSpec op a (.reading a.core ref rest) := by
  refine ⟨fun ref' h => ?_, fun _ => ⟨ref, rfl⟩⟩
  cases h
  exact ⟨hon, hop, handle, hhandle, href⟩

theorem readSpec_of_performs (performs : AgentPerforms c op a out a') : ReadSpec op a out := by
  unfold AgentPerforms AgentOp.perform at performs
  cases op with
  | core op env =>
    obtain ⟨p, -, heq⟩ := Option.map_eq_some_iff.1 performs
    cases heq
    exact .done id
  | connectivityInitialize configuration allocated =>
    cases hinit : mclConnectivityInitialize configuration allocated a <;> simp only [hinit] at performs <;>
      cases performs <;> exact .done id
  | dataLakeInitialize configuration allocated addCertificate =>
    cases hinit : mclDataLakeInitialize configuration allocated addCertificate a <;> simp only [hinit] at performs <;>
      cases performs <;> exact .done id
  | createMapping i tokenAllocated env mapping =>
    obtain ⟨connectivity, hget, heq⟩ := Option.map_eq_some_iff.1 performs
    cases heq
    have href : a.reference (.connectivity i) = some connectivity.agentId := by simp [Agent.reference, hget]
    unfold createMappingCall
    cases htoken : mclCoreGetLastAccessToken tokenAllocated (handlerOf a.core) with
    | error e => exact .done fun ⟨⟨token, hok⟩, _⟩ => by rw [htoken] at hok; cases hok
    | ok token =>
      simp only [bind, Except.bind]
      cases hvalid : mapping.validate with
      | error e => exact .done fun ⟨_, hok, _⟩ => by rw [hvalid] at hok; cases hok
      | ok u =>
        cases hroot : env.step .jsonRoot with
        | error e => exact .done fun ⟨_, _, hok⟩ => by rw [hroot] at hok; cases hok
        | ok u =>
          exact .reading ⟨⟨token, htoken⟩, hvalid, hroot⟩ (isOnboarded_of_token htoken) rfl href
  | getDataSourceConfiguration i w tokenAllocated env =>
    obtain ⟨connectivity, hget, heq⟩ := Option.map_eq_some_iff.1 performs
    cases heq
    have href : a.reference (.connectivity i) = some connectivity.agentId := by simp [Agent.reference, hget]
    unfold getDataSourceConfigurationCall
    cases htoken : mclCoreGetLastAccessToken tokenAllocated (handlerOf a.core) with
    | error e => exact .done fun ⟨token, hok⟩ => by rw [htoken] at hok; cases hok
    | ok token => exact .reading ⟨token, htoken⟩ (isOnboarded_of_token htoken) rfl href
  | generateUploadUrl i w tokenAllocated env object subtenantId objects =>
    obtain ⟨dataLake, hget, heq⟩ := Option.map_eq_some_iff.1 performs
    cases heq
    have href : a.reference (.dataLake i) = some dataLake.clientId := by simp [Agent.reference, hget]
    unfold generateUploadUrlCall
    cases htoken : mclCoreGetLastAccessToken tokenAllocated (handlerOf a.core) with
    | error e => exact .done fun ⟨token, hok⟩ => by rw [htoken] at hok; cases hok
    | ok token => exact .reading ⟨token, htoken⟩ (isOnboarded_of_token htoken) rfl href

end

/-! ## Runs -/

/-- The call that made the handle. -/
def Initializes (d : AgentCall) (handle : Handle) : Prop :=
  d.before.reference handle = none ∧ d.after.reference handle ≠ none

/-- The handle was made when the agent was onboarded and had a client id, and no registration was taken over
since. -/
def KeepsClientId (c : CoreConfiguration) (handle : Handle) (calls : List AgentCall) : Prop :=
  ∃ earlier init later, calls = earlier ++ init :: later ∧ Initializes init handle ∧
    isOnboarded (handlerOf init.before.core) = true ∧ (handlerOf init.before.core).clientId ≠ none ∧
      ∀ d ∈ later, ¬ d.call.TakesOver c (handlerOf d.before.core)

/-- If the call reads the string on an onboarded core, it is the one that the handler has. -/
def ReadsCurrent (d : AgentCall) : Prop :=
  ∀ ref, d.out.read = some ref → isOnboarded (handlerOf d.before.core) = true →
    d.before.core.Designates .clientId ref

section

variable {c : CoreConfiguration} {a₀ a : Agent} {calls : List AgentCall}

/-- Where a run has come to: every handle was made by one of its calls, and what its reference is worth. -/
structure Accounted (c : CoreConfiguration) (calls : List AgentCall) (a : Agent) : Prop where
  borrowed : ∀ handle ref, a.reference handle = some ref →
    a.core.Borrowed .clientId (¬ KeepsClientId c handle calls) ref
  made : ∀ d ∈ calls, ∀ handle, d.after.reference handle ≠ none → a.reference handle ≠ none

/-- An element of a list that another was added to: the new one, or an old one. -/
theorem eq_or_of_snoc_eq {α : Type} {xs pre post : List α} {x y : α} (h : xs ++ [x] = pre ++ y :: post) :
    (y = x ∧ post = []) ∨ ∃ post', post = post' ++ [x] ∧ xs = pre ++ y :: post' := by
  rcases List.eq_nil_or_concat post with rfl | ⟨post', z, rfl⟩
  · obtain ⟨-, hlast⟩ := List.append_inj' h rfl
    exact .inl ⟨(List.singleton_inj.1 hlast).symm, rfl⟩
  · rw [List.concat_eq_append, ← List.cons_append, ← List.append_assoc] at h
    obtain ⟨hinit, hlast⟩ := List.append_inj' h rfl
    obtain rfl := List.singleton_inj.1 hlast
    exact .inr ⟨post', List.concat_eq_append, hinit⟩

theorem keepsClientId_snoc_of_old {handle : Handle} {d : AgentCall} (hold : d.before.reference handle ≠ none) :
    KeepsClientId c handle (calls ++ [d]) ↔
      KeepsClientId c handle calls ∧ ¬ d.call.TakesOver c (handlerOf d.before.core) := by
  constructor
  · rintro ⟨earlier, init, later, hcalls, hinit, hon, hid, hlater⟩
    rcases eq_or_of_snoc_eq hcalls with ⟨rfl, -⟩ | ⟨later', rfl, hcalls'⟩
    · exact absurd hinit.1 hold
    · exact ⟨⟨earlier, init, later', hcalls', hinit, hon, hid, fun e he => hlater e (by simp [he])⟩,
        hlater d (by simp)⟩
  · rintro ⟨⟨earlier, init, later, rfl, hinit, hon, hid, hlater⟩, hd⟩
    refine ⟨earlier, init, later ++ [d], by simp, hinit, hon, hid, fun e he => ?_⟩
    rcases List.mem_append.1 he with he | he
    · exact hlater e he
    · rw [List.mem_singleton] at he
      exact he ▸ hd

theorem keepsClientId_snoc_of_new {handle : Handle} {d : AgentCall}
    (hfirst : ∀ e ∈ calls, e.after.reference handle = none) (hinit : Initializes d handle) :
    KeepsClientId c handle (calls ++ [d]) ↔
      isOnboarded (handlerOf d.before.core) = true ∧ (handlerOf d.before.core).clientId ≠ none := by
  constructor
  · rintro ⟨earlier, init, later, hcalls, hinit', hon, hid, -⟩
    rcases eq_or_of_snoc_eq hcalls with ⟨rfl, -⟩ | ⟨later', -, rfl⟩
    · exact ⟨hon, hid⟩
    · exact absurd (hfirst init (by simp)) hinit'.2
  · rintro ⟨hon, hid⟩
    exact ⟨calls, d, [], rfl, hinit, hon, hid, by simp⟩

/-- The pointer that `mcl_core_get_client_id` gives. -/
theorem borrowed_getClientId (o : HandlerObjects) :
    o.Borrowed .clientId (¬ (isOnboarded (handlerOf o) = true ∧ (handlerOf o).clientId ≠ none))
      (mclCoreGetClientId o) := by
  unfold mclCoreGetClientId
  refine ⟨fun hfresh => ?_, fun hlost => ?_⟩
  · obtain ⟨hon, hid⟩ := not_not.1 hfresh
    exact ⟨if_pos hon, hid⟩
  · intro r hr
    split_ifs at hr with hon
    have hnone : o.value .clientId = none := not_not.1 fun hid => hlost ⟨hon, hid⟩
    rw [(o.value_eq_none_iff .clientId).1 hnone] at hr
    cases hr

theorem Accounted.snoc {d : AgentCall} (h : Accounted c calls d.before)
    (step : AgentStep c d.call d.before d.after) : Accounted c (calls ++ [d]) d.after := by
  refine ⟨fun handle ref href => ?_, fun e he handle hmade => ?_⟩
  · cases hbefore : d.before.reference handle with
    | some ref' =>
      -- an old handle: one step later
      have hsame : ref' = ref := Option.some.inj ((step.kept handle ref' hbefore).symm.trans href)
      subst hsame
      refine ((h.borrowed handle ref' hbefore).evolves step.evolves).congr ?_
      rw [keepsClientId_snoc_of_old (by simp [hbefore]), not_and_or, not_not]
    | none =>
      -- a new handle, which no earlier call made
      obtain ⟨hcore, hget⟩ := step.made handle ref hbefore href
      have hfirst : ∀ e ∈ calls, e.after.reference handle = none := fun e he =>
        not_not.1 fun hmade => h.made e he handle hmade hbefore
      rw [hcore, hget]
      refine (borrowed_getClientId d.before.core).congr (not_congr ?_)
      exact (keepsClientId_snoc_of_new hfirst ⟨hbefore, by simp [href]⟩).symm
  · rcases List.mem_append.1 he with he | he
    · cases hbefore : d.before.reference handle with
      | none => exact absurd hbefore (h.made e he handle hmade)
      | some ref => simp [step.kept handle ref hbefore]
    · rw [List.mem_singleton] at he
      exact he ▸ hmade

theorem accounted_of_run (start : ∀ handle, a₀.reference handle = none)
    (run : Serial (AgentPerforms c) a₀ calls a) : Accounted c calls a := by
  induction run with
  | nil =>
    refine ⟨fun handle ref href => ?_, by simp⟩
    rw [start handle] at href
    cases href
  | snoc _ step ih => exact ih.snoc (agentStep_of_performs step)

/-- A call of a run reads the current string just if its handle keeps the client id. -/
theorem readsCurrent_call_iff {pre post : List AgentCall} {d : AgentCall}
    (start : ∀ handle, a₀.reference handle = none) (run : Serial (AgentPerforms c) a₀ (pre ++ d :: post) a)
    {handle : Handle} (hhandle : d.call.handle = some handle) {ref : Option Nat} (hread : d.out.read = some ref) :
    ReadsCurrent d ↔ KeepsClientId c handle pre := by
  have hspec := readSpec_of_performs (run.exec_of_mem (by simp : d ∈ pre ++ d :: post))
  obtain ⟨hon, -, handle', hhandle', href⟩ := hspec.reads ref hread
  obtain rfl : handle = handle' := Option.some.inj (hhandle.symm.trans hhandle')
  have hborrowed := (accounted_of_run start run.before).borrowed handle ref href
  rw [← not_not (a := KeepsClientId c handle pre), ← hborrowed.designates_iff]
  constructor
  · intro hcurrent
    exact hcurrent ref hread hon
  · rintro hdesignates ref' hread' -
    rw [hread] at hread'
    cases hread'
    exact hdesignates

/-- In a run that starts without handles, every call that reads the client id reads the current one just if each
of them comes on a handle that was made with a client id which no registration has replaced since. -/
theorem readsCurrent_iff (start : ∀ handle, a₀.reference handle = none)
    (run : Serial (AgentPerforms c) a₀ calls a) :
    (∀ d ∈ calls, ReadsCurrent d) ↔
      ∀ pre d post, calls = pre ++ d :: post → d.call.Reads (handlerOf d.before.core) →
        ∃ handle, d.call.handle = some handle ∧ KeepsClientId c handle pre := by
  constructor
  · rintro hall pre d post rfl hreads
    have hspec := readSpec_of_performs (run.exec_of_mem (by simp : d ∈ pre ++ d :: post))
    obtain ⟨ref, hread⟩ := hspec.read hreads
    obtain ⟨-, -, handle, hhandle, -⟩ := hspec.reads ref hread
    exact ⟨handle, hhandle, (readsCurrent_call_iff start run hhandle hread).1 (hall d (by simp))⟩
  · intro hkeeps d hd
    obtain ⟨pre, post, rfl⟩ := List.append_of_mem hd
    intro ref hread
    have hspec := readSpec_of_performs (run.exec_of_mem hd)
    obtain ⟨handle, hhandle, hkeep⟩ := hkeeps pre d post rfl (hspec.reads ref hread).2.1
    exact (readsCurrent_call_iff start run hhandle hread).2 hkeep ref hread

end

/-! ## A rotation in between -/

def agentMapping : Mapping :=
  ⟨some (.lit "point"), none, some (.lit "set"), some (.lit "property"), true⟩

def freshAgent : Agent := ⟨objectsOf emptySecurityHandler, some (.lit "https://host"), [], []⟩

def tokenEnvironment : Environment :=
  { offlineEnvironment with
    accessTokenPayload := .ok []
    send := fun _ => .ok ⟨200, some [], none⟩
    parse := fun _ => some (.object [(jsonNameAccessToken, .string (.lit "access"))]) }

def rotationEnvironment : Environment :=
  { serverEnvironment (registrationJson (.string (.lit "later token"))) with
    send := fun _ => .ok ⟨200, some [], none⟩ }

def connectivityOffline : ConnectivityEnvironment where
  step _ := .ok ()
  memberAdded _ := true
  urlAllocated := true
  randomBytes := .ok []
  send _ := .error .couldNotConnect
  parse _ := none

/-- The agent is onboarded, gets its access token and makes a connectivity handle. -/
def preparations : List AgentOp :=
  [.core .onboard (serverEnvironment (registrationJson (.string (.lit "token")))), .core .getAccessToken tokenEnvironment,
    .connectivityInitialize ⟨true, some (.lit "https://host/mappings")⟩ true]

def createAgentMapping : AgentOp := .createMapping 0 true connectivityOffline agentMapping

/-- What is left of `ReadsCurrent` once the calls are carried out. -/
def readsOther (d : AgentCall) : Bool :=
  isOnboarded (handlerOf d.before.core) && d.out.read.any fun ref => ref ≠ d.before.core.ref .clientId

theorem not_readsCurrent_of_readsOther {d : AgentCall} (hother : readsOther d = true) : ¬ ReadsCurrent d := by
  intro hcurrent
  obtain ⟨hon, hother⟩ := Bool.and_eq_true_iff.1 hother
  obtain ⟨ref, hread, hne⟩ := (Option.any_eq_true _ _).1 hother
  obtain ⟨r, s, rfl, href, -⟩ := hcurrent ref hread hon
  simp [href] at hne

/-- The key is rotated behind a connectivity handle, and the mapping is made for a string that was freed. -/
theorem rotation_not_readsCurrent : ¬ ∀ (c : CoreConfiguration) (a₀ a : Agent) (calls : List AgentCall),
    (∀ handle, a₀.reference handle = none) → Serial (AgentPerforms c) a₀ calls a →
      ∀ d ∈ calls, ReadsCurrent d := by
  intro hall
  have hsome : (performEach (fun op a => op.perform sharedSecretConfiguration a)
      (preparations ++ [.core .rotateKey rotationEnvironment, createAgentMapping]) freshAgent).any
        (fun r => r.1.any readsOther) = true := by decide
  obtain ⟨⟨calls, a⟩, hperform, hany⟩ := (Option.any_eq_true _ _).1 hsome
  obtain ⟨d, hd, hother⟩ := List.any_eq_true.1 hany
  have start : ∀ handle, freshAgent.reference handle = none := fun handle => by cases handle <;> rfl
  exact not_readsCurrent_of_readsOther hother
    (hall _ _ _ _ start (Serial.performEach (fun _ _ _ _ h => h) .nil hperform) d hd)

/-- Without the rotation it is made for the agent. -/
theorem preparations_readsCurrent_iff : ∃ calls a, Serial (AgentPerforms sharedSecretConfiguration) freshAgent calls a ∧
    (∃ d ∈ calls, d.out.read ≠ none) ∧ ((∀ d ∈ calls, ReadsCurrent d) ↔
      ∀ pre d post, calls = pre ++ d :: post → d.call.Reads (handlerOf d.before.core) →
        ∃ handle, d.call.handle = some handle ∧ KeepsClientId sharedSecretConfiguration handle pre) := by
  have hsome : (performEach (fun op a => op.perform sharedSecretConfiguration a) (preparations ++ [createAgentMapping])
      freshAgent).any (fun r => r.1.any fun d => d.out.read.isSome) = true := by decide
  obtain ⟨⟨calls, a⟩, hperform, hany⟩ := (Option.any_eq_true _ _).1 hsome
  obtain ⟨d, hd, hread⟩ := List.any_eq_true.1 hany
  have run : Serial (AgentPerforms sharedSecretConfiguration) freshAgent calls a :=
    Serial.performEach (fun _ _ _ _ h => h) .nil hperform
  exact ⟨calls, a, run, ⟨d, hd, Option.isSome_iff_ne_none.1 hread⟩,
    readsCurrent_iff (fun handle => by cases handle <;> rfl) run⟩

end MindConnect
