import MindConnect.Connectivity.ConfigurationRelease
import MindConnect.Deployment.DeploymentJson

/-!
# The objects of a parsed workflow

The parser of `DeploymentJson` once more, with what it creates, hands on and destroys. The allocations are found by the
same paths.

| here | there |
| --- | --- |
| `WorkflowObject`, … | `deployment_workflow_t`, its state, its model and what a model has, each with its pointers |
| `mclDeploymentWorkflowDestroy`, … | the destroy functions of these names, each in the file of its struct |
| `fillList`, `parseList` | a list that is made and filled, and one that is destroyed with its content behind an error |
| `forgive` | `MCL_OK` for `MCL_JSON_NON_EXISTING_CHILD` |
| `parseWorkflow` and the others of that name | the functions of the same names in `deployment_json.c` |

Here every loop destroys what the list refuses by the address of its pointer.
-/

namespace MindConnect.ParsedObjects

open JsonUtil ObjectStore Deployment

/-! ## Structs -/

structure WorkflowStateObject where
  ref : Nat
  state : Option StringObject
  progress : Bytes
  entered : Option StringObject
  updated : Option StringObject
  message : Option StringObject
  details : Option JsonObject

structure ModelStateObject where
  ref : Nat
  name : Option StringObject
  description : Option StringObject
  initial : Bool
  final : Bool
  cancel : Bool

structure ModelTransitionObject where
  ref : Nat
  from' : Option StringObject
  to' : Option StringObject
  type : Option StringObject
  details : Option JsonObject

structure ModelStateGroupObject where
  ref : Nat
  name : Option StringObject
  states : Option (ListObject StringObject)

structure WorkflowModelObject where
  ref : Nat
  key : Option StringObject
  states : Option (ListObject ModelStateObject)
  transitions : Option (ListObject ModelTransitionObject)
  stateGroups : Option (ListObject ModelStateGroupObject)

structure WorkflowObject where
  ref : Nat
  id : Option StringObject
  deviceId : Option StringObject
  createdAt : Option StringObject
  currentState : Option WorkflowStateObject
  history : Option (ListObject WorkflowStateObject)
  model : Option WorkflowModelObject
  data : Option JsonObject

instance : HasObjects WorkflowStateObject :=
  ⟨fun x => {(.workflowState, x.ref)} + [objects x.state, objects x.entered, objects x.updated, objects x.message,
    objects x.details].sum⟩

instance : HasObjects ModelStateObject :=
  ⟨fun x => {(.workflowModelState, x.ref)} + [objects x.name, objects x.description].sum⟩

instance : HasObjects ModelTransitionObject :=
  ⟨fun x => {(.workflowModelTransition, x.ref)} + [objects x.from', objects x.to', objects x.type,
    objects x.details].sum⟩

instance : HasObjects ModelStateGroupObject :=
  ⟨fun x => {(.workflowModelStateGroup, x.ref)} + [objects x.name, objects x.states].sum⟩

instance : HasObjects WorkflowModelObject :=
  ⟨fun x => {(.workflowModel, x.ref)} + [objects x.key, objects x.states, objects x.transitions,
    objects x.stateGroups].sum⟩

instance : HasObjects WorkflowObject :=
  ⟨fun x => {(.workflow, x.ref)} + [objects x.id, objects x.deviceId, objects x.createdAt, objects x.currentState,
    objects x.history, objects x.model, objects x.data].sum⟩

def mclDeploymentWorkflowStateDestroy : Option WorkflowStateObject → Store → Store :=
  destroyStruct .workflowState WorkflowStateObject.ref fun x =>
    [mclFree x.state, mclFree x.entered, mclFree x.updated, mclFree x.message, mclFree x.details]

def deploymentWorkflowModelStateDestroy : Option ModelStateObject → Store → Store :=
  destroyStruct .workflowModelState ModelStateObject.ref fun x => [mclFree x.name, mclFree x.description]

def deploymentWorkflowModelTransitionDestroy : Option ModelTransitionObject → Store → Store :=
  destroyStruct .workflowModelTransition ModelTransitionObject.ref fun x =>
    [mclFree x.from', mclFree x.to', mclFree x.type, mclFree x.details]

/-- The names of the states are destroyed by `_destroy_string`. -/
def deploymentWorkflowModelStateGroupDestroy : Option ModelStateGroupObject → Store → Store :=
  destroyStruct .workflowModelStateGroup ModelStateGroupObject.ref fun x =>
    [mclFree x.name, mclListDestroyWithContent mclFree x.states]

def deploymentWorkflowModelDestroy : Option WorkflowModelObject → Store → Store :=
  destroyStruct .workflowModel WorkflowModelObject.ref fun x =>
    [mclFree x.key, mclListDestroyWithContent deploymentWorkflowModelStateDestroy x.states,
      mclListDestroyWithContent deploymentWorkflowModelTransitionDestroy x.transitions,
      mclListDestroyWithContent deploymentWorkflowModelStateGroupDestroy x.stateGroups]

def mclDeploymentWorkflowDestroy : Option WorkflowObject → Store → Store :=
  destroyStruct .workflow WorkflowObject.ref fun x =>
    [mclFree x.id, mclFree x.deviceId, mclFree x.createdAt, mclDeploymentWorkflowStateDestroy x.currentState,
      mclListDestroyWithContent mclDeploymentWorkflowStateDestroy x.history, deploymentWorkflowModelDestroy x.model,
      mclFree x.data]

/-! ## The parser -/

def forgive : Result Unit → Result Unit
  | .error .jsonNonExistingChild => .ok ()
  | code => code

section
variable {α β : Type}

def parseStringField (allocated : Bool) (json : Json) (field : CString) : Run StringObject :=
  makes .string (parseStringValue allocated json field)

def duplicateField (allocated : Bool) (json : Json) (field : CString) : Run JsonObject :=
  makes .json (parseField json field (duplicate allocated))

/-- A child that is there is parsed. -/
def parseChild (json : Json) (field : CString) (parse : Json → Run α) : Run α := fun s =>
  match getObjectItem json field with
  | .error e => (.error e, none, s)
  | .ok object => parse object s

def forgiven (parse : Run α) : Run α := fun s => (forgive (parse s).1, (parse s).2.1, (parse s).2.2)

/-- The list is made and filled. -/
def fillList (w : Nat) (m : Memory) (parse : Memory → Json → Run α) (cleanUp : Option α → Store → Store)
    (array : Json) : Run (ListObject α) := fun s =>
  match mclListInitialize (m [0]) s with
  | (.error e, list, s) => (.error e, list, s)
  | (.ok (), list, s) =>
    match getArraySize w array with
    | .error e => (.error e, list, s)
    | .ok arraySize => parseItems (m.of 1) array parse cleanUp arraySize.toNat 0 list s

def parseList (w : Nat) (m : Memory) (json : Json) (field : CString) (parse : Memory → Json → Run α)
    (cleanUp : Option α → Store → Store) : Run (ListObject α) :=
  onError (mclListDestroyWithContent cleanUp) (parseChild json field (fillList w m parse cleanUp))

end

/-- `_parse_workflow_model_state` (`:538`) -/
def parseWorkflowModelState (m : Memory) (json : Json) : Run ModelStateObject :=
  construct (mclNew .workflowModelState (m [0]) (⟨·, none, none, false, false, false⟩)) [
    setting (parseStringField (m [1]) json (.lit "name")) fun name x => { x with name },
    setting (parseStringField (m [2]) json (.lit "description")) fun description x => { x with description },
    reading (parseBoolValue json (.lit "initial")) fun initial x => { x with initial },
    reading (parseBoolValue json (.lit "final")) fun final x => { x with final },
    reading (parseBoolValue json (.lit "cancel")) fun cancel x => { x with cancel }]
    forgive deploymentWorkflowModelStateDestroy

/-- `_parse_workflow_model_transition` (`:651`) -/
def parseWorkflowModelTransition (m : Memory) (json : Json) : Run ModelTransitionObject :=
  construct (mclNew .workflowModelTransition (m [0]) (⟨·, none, none, none, none⟩)) [
    setting (parseStringField (m [1]) json (.lit "from")) fun from' x => { x with from' },
    setting (parseStringField (m [2]) json (.lit "to")) fun to' x => { x with to' },
    setting (parseStringField (m [3]) json (.lit "type")) fun type x => { x with type },
    setting (duplicateField (m [4]) json (.lit "details")) fun details x => { x with details }]
    forgive deploymentWorkflowModelTransitionDestroy

/-- An element of the `states` of a group. -/
def parseStateName (m : Memory) (item : Json) : Run StringObject := makes .string (getString item (m [0]))

/-- `_parse_workflow_model_state_group` (`:765`): the list is destroyed with the group. -/
def parseWorkflowModelStateGroup (w : Nat) (m : Memory) (json : Json) : Run ModelStateGroupObject :=
  construct (mclNew .workflowModelStateGroup (m [0]) (⟨·, none, none⟩)) [
    setting (parseStringField (m [1]) json (.lit "name")) fun name x => { x with name },
    setting (parseChild json (.lit "states") (fillList w (m.of 2) parseStateName mclFree)) fun states x =>
      { x with states }]
    forgive deploymentWorkflowModelStateGroupDestroy

/-- `_parse_workflow_model` (`:422`) behind the child `model`. -/
def fillModel (w : Nat) (m : Memory) (object : Json) : Run WorkflowModelObject :=
  filled (mclNew .workflowModel (m [0]) (⟨·, none, none, none, none⟩)) [
    setting (parseStringField (m [1]) object (.lit "key")) fun key x => { x with key },
    setting (parseList w (m.of 2) object (.lit "states") parseWorkflowModelState deploymentWorkflowModelStateDestroy)
      fun states x => { x with states },
    setting (parseList w (m.of 3) object (.lit "transitions") parseWorkflowModelTransition
      deploymentWorkflowModelTransitionDestroy) fun transitions x => { x with transitions },
    setting (parseList w (m.of 4) object (.lit "stateGroups") (parseWorkflowModelStateGroup w)
      deploymentWorkflowModelStateGroupDestroy) fun stateGroups x => { x with stateGroups }] id

def parseWorkflowModel (w : Nat) (m : Memory) (json : Json) : Run WorkflowModelObject :=
  onError deploymentWorkflowModelDestroy (forgiven (parseChild json (.lit "model") (fillModel w m)))

/-- `_parse_workflow_state` (`:296`) -/
def parseWorkflowState (m : Memory) (json : Json) : Run WorkflowStateObject :=
  construct (mclNew .workflowState (m [0]) (⟨·, none, [], none, none, none, none⟩)) [
    setting (parseStringField (m [1]) json (.lit "state")) fun state x => { x with state },
    reading (parseFloatValue json (.lit "progress")) fun progress x => { x with progress },
    setting (parseStringField (m [2]) json (.lit "entered")) fun entered x => { x with entered },
    setting (parseStringField (m [3]) json (.lit "updated")) fun updated x => { x with updated },
    setting (parseStringField (m [4]) json (.lit "message")) fun message x => { x with message },
    setting (duplicateField (m [5]) json (.lit "details")) fun details x => { x with details }]
    id mclDeploymentWorkflowStateDestroy

/-- `_parse_workflow_history` (`:354`) -/
def parseWorkflowHistory (w : Nat) (m : Memory) (json : Json) : Run (ListObject WorkflowStateObject) :=
  parseList w m json (.lit "history") parseWorkflowState mclDeploymentWorkflowStateDestroy

/-- `_parse_workflow` (`:216`) -/
def parseWorkflow (w : Nat) (m : Memory) (json : Json) : Run WorkflowObject :=
  construct (mclNew .workflow (m [0]) (⟨·, none, none, none, none, none, none, none⟩)) [
    setting (parseStringField (m [1]) json (.lit "id")) fun id x => { x with id },
    setting (parseStringField (m [2]) json (.lit "deviceId")) fun deviceId x => { x with deviceId },
    setting (parseStringField (m [3]) json (.lit "createdAt")) fun createdAt x => { x with createdAt },
    setting (parseChild json (.lit "currentState") (parseWorkflowState (m.of 4))) fun currentState x =>
      { x with currentState },
    setting (forgiven (parseWorkflowHistory w (m.of 5) json)) fun history x => { x with history },
    setting (forgiven (parseWorkflowModel w (m.of 6) json)) fun model x => { x with model },
    setting (duplicateField (m [7]) json (.lit "data")) fun data x => { x with data }]
    id mclDeploymentWorkflowDestroy

/-- `deployment_json_parse_workflow` (`:126`) -/
def deploymentJsonParseWorkflow (w : Nat) (m : Memory) (parse : Bytes → Option Json) (text : Bytes) :
    Result Unit × Option (Option WorkflowObject) × Store :=
  parseText parse (parseWorkflow w m) text .empty

/-! ## What is kept -/

theorem objects_workflowState (x : WorkflowStateObject) : objects x = {(.workflowState, x.ref)} + [objects x.state,
    objects x.entered, objects x.updated, objects x.message, objects x.details].sum := rfl

theorem objects_modelState (x : ModelStateObject) : objects x = {(.workflowModelState, x.ref)} + [objects x.name,
    objects x.description].sum := rfl

theorem objects_modelTransition (x : ModelTransitionObject) : objects x = {(.workflowModelTransition, x.ref)} +
    [objects x.from', objects x.to', objects x.type, objects x.details].sum := rfl

theorem objects_modelStateGroup (x : ModelStateGroupObject) : objects x = {(.workflowModelStateGroup, x.ref)} +
    [objects x.name, objects x.states].sum := rfl

theorem objects_workflowModel (x : WorkflowModelObject) : objects x = {(.workflowModel, x.ref)} + [objects x.key,
    objects x.states, objects x.transitions, objects x.stateGroups].sum := rfl

theorem objects_workflow (x : WorkflowObject) : objects x = {(.workflow, x.ref)} + [objects x.id, objects x.deviceId,
    objects x.createdAt, objects x.currentState, objects x.history, objects x.model, objects x.data].sum := rfl

theorem destroys_workflowState : Destroys mclDeploymentWorkflowStateDestroy :=
  destroys_struct objects_workflowState fun x =>
    .cons (destroys_leaf.frees x.state) (.cons (destroys_leaf.frees x.entered) (.cons (destroys_leaf.frees x.updated)
      (.cons (destroys_leaf.frees x.message) (.cons (destroys_leaf.frees x.details) .nil))))

theorem destroys_modelState : Destroys deploymentWorkflowModelStateDestroy :=
  destroys_struct objects_modelState fun x =>
    .cons (destroys_leaf.frees x.name) (.cons (destroys_leaf.frees x.description) .nil)

theorem destroys_modelTransition : Destroys deploymentWorkflowModelTransitionDestroy :=
  destroys_struct objects_modelTransition fun x =>
    .cons (destroys_leaf.frees x.from') (.cons (destroys_leaf.frees x.to') (.cons (destroys_leaf.frees x.type)
      (.cons (destroys_leaf.frees x.details) .nil)))

theorem destroys_modelStateGroup : Destroys deploymentWorkflowModelStateGroupDestroy :=
  destroys_struct objects_modelStateGroup fun x =>
    .cons (destroys_leaf.frees x.name) (.cons ((destroys_list destroys_leaf).frees x.states) .nil)

theorem destroys_workflowModel : Destroys deploymentWorkflowModelDestroy :=
  destroys_struct objects_workflowModel fun x =>
    .cons (destroys_leaf.frees x.key) (.cons ((destroys_list destroys_modelState).frees x.states)
      (.cons ((destroys_list destroys_modelTransition).frees x.transitions)
        (.cons ((destroys_list destroys_modelStateGroup).frees x.stateGroups) .nil)))

theorem destroys_workflow : Destroys mclDeploymentWorkflowDestroy :=
  destroys_struct objects_workflow fun x =>
    .cons (destroys_leaf.frees x.id) (.cons (destroys_leaf.frees x.deviceId) (.cons (destroys_leaf.frees x.createdAt)
      (.cons (destroys_workflowState.frees x.currentState)
        (.cons ((destroys_list destroys_workflowState).frees x.history)
          (.cons (destroys_workflowModel.frees x.model) (.cons (destroys_leaf.frees x.data) .nil))))))

section
variable {α : Type} [HasObjects α] {w : Nat} {m : Memory} {json : Json} {field : CString}

theorem parseChild_keeps {parse : Json → Run α} (hparse : ∀ object, Keeps (parse object)) :
    Keeps (parseChild json field parse) := by
  intro s live h
  rw [parseChild]
  cases getObjectItem json field with
  | error e => simpa using h
  | ok object => exact hparse object s live h

theorem forgiven_keeps {parse : Run α} (hparse : Keeps parse) : Keeps (forgiven parse) := hparse

theorem fillList_keeps {parse : Memory → Json → Run α} {cleanUp : Option α → Store → Store}
    (hparse : ∀ m item, Keeps (parse m item)) (hclean : Destroys cleanUp) (array : Json) :
    Keeps (fillList w m parse cleanUp array) := by
  intro s live h
  have hkept := mclListInitialize_keeps (α := α) (m [0]) s live h
  rw [fillList]
  generalize mclListInitialize (m [0]) s = result at hkept ⊢
  obtain ⟨e | u, list, s'⟩ := result
  · exact hkept
  · cases getArraySize w array with
    | error e => exact hkept
    | ok arraySize => exact parseItems_keeps hparse hclean _ _ hkept

theorem parseList_keeps {parse : Memory → Json → Run α} {cleanUp : Option α → Store → Store}
    (hparse : ∀ m item, Keeps (parse m item)) (hclean : Destroys cleanUp) :
    Keeps (parseList w m json field parse cleanUp) :=
  onError_keeps (destroys_list hclean) (parseChild_keeps (fillList_keeps hparse hclean))

end

theorem parseWorkflowModelState_keeps (m : Memory) (json : Json) : Keeps (parseWorkflowModelState m json) := by
  refine onError_keeps destroys_modelState (filled_keeps (mclNew_keeps (fun n => ?_) _) fun s x hx => ?_)
  · simp [objects_modelState]
  obtain ⟨-, n, rfl⟩ := mclNew_some hx
  refine inRow_makes_keeps (fun name => ?_) fun name => ?_
  · simp only [objects_modelState, List.sum_cons, List.sum_nil, objects_none]
    abel
  refine inRow_makes_keeps (fun description => ?_) fun description => ?_
  · simp only [objects_modelState, List.sum_cons, List.sum_nil, objects_none]
    abel
  refine inRow_reading_keeps (fun _ => rfl) fun initial => ?_
  refine inRow_reading_keeps (fun _ => rfl) fun final => ?_
  exact inRow_reading_keeps (fun _ => rfl) fun cancel => inRow_nil_keeps _

theorem parseWorkflowModelTransition_keeps (m : Memory) (json : Json) :
    Keeps (parseWorkflowModelTransition m json) := by
  refine onError_keeps destroys_modelTransition (filled_keeps (mclNew_keeps (fun n => ?_) _) fun s x hx => ?_)
  · simp [objects_modelTransition]
  obtain ⟨-, n, rfl⟩ := mclNew_some hx
  refine inRow_makes_keeps (fun from' => ?_) fun from' => ?_
  · simp only [objects_modelTransition, List.sum_cons, List.sum_nil, objects_none]
    abel
  refine inRow_makes_keeps (fun to' => ?_) fun to' => ?_
  · simp only [objects_modelTransition, List.sum_cons, List.sum_nil, objects_none]
    abel
  refine inRow_makes_keeps (fun type => ?_) fun type => ?_
  · simp only [objects_modelTransition, List.sum_cons, List.sum_nil, objects_none]
    abel
  refine inRow_makes_keeps (fun details => ?_) fun details => inRow_nil_keeps _
  simp only [objects_modelTransition, List.sum_cons, List.sum_nil, objects_none]
  abel

theorem parseWorkflowModelStateGroup_keeps (w : Nat) (m : Memory) (json : Json) :
    Keeps (parseWorkflowModelStateGroup w m json) := by
  refine onError_keeps destroys_modelStateGroup (filled_keeps (mclNew_keeps (fun n => ?_) _) fun s x hx => ?_)
  · simp [objects_modelStateGroup]
  obtain ⟨-, n, rfl⟩ := mclNew_some hx
  refine inRow_makes_keeps (fun name => ?_) fun name => ?_
  · simp only [objects_modelStateGroup, List.sum_cons, List.sum_nil, objects_none]
    abel
  have hlist : ∀ array, Keeps (fillList w (m.of 2) parseStateName mclFree array) :=
    fillList_keeps (fun _ _ => makes_keeps _ _) destroys_leaf
  refine inRow_setting_keeps (parseChild_keeps hlist) (fun states => ?_) fun _ states _ => inRow_nil_keeps _
  simp only [objects_modelStateGroup, List.sum_cons, List.sum_nil, objects_none]
  abel

theorem fillModel_keeps (w : Nat) (m : Memory) (object : Json) : Keeps (fillModel w m object) := by
  refine filled_keeps (mclNew_keeps (fun n => ?_) _) fun s x hx => ?_
  · simp [objects_workflowModel]
  obtain ⟨-, n, rfl⟩ := mclNew_some hx
  refine inRow_makes_keeps (fun key => ?_) fun key => ?_
  · simp only [objects_workflowModel, List.sum_cons, List.sum_nil, objects_none]
    abel
  refine inRow_setting_keeps (parseList_keeps parseWorkflowModelState_keeps destroys_modelState) (fun states => ?_)
    fun _ states _ => ?_
  · simp only [objects_workflowModel, List.sum_cons, List.sum_nil, objects_none]
    abel
  refine inRow_setting_keeps (parseList_keeps parseWorkflowModelTransition_keeps destroys_modelTransition)
    (fun transitions => ?_) fun _ transitions _ => ?_
  · simp only [objects_workflowModel, List.sum_cons, List.sum_nil, objects_none]
    abel
  refine inRow_setting_keeps (parseList_keeps (parseWorkflowModelStateGroup_keeps w) destroys_modelStateGroup)
    (fun stateGroups => ?_) fun _ stateGroups _ => inRow_nil_keeps _
  simp only [objects_workflowModel, List.sum_cons, List.sum_nil, objects_none]
  abel

theorem parseWorkflowModel_keeps (w : Nat) (m : Memory) (json : Json) : Keeps (parseWorkflowModel w m json) :=
  onError_keeps destroys_workflowModel (forgiven_keeps (parseChild_keeps (fillModel_keeps w m)))

theorem parseWorkflowState_keeps (m : Memory) (json : Json) : Keeps (parseWorkflowState m json) := by
  refine onError_keeps destroys_workflowState (filled_keeps (mclNew_keeps (fun n => ?_) _) fun s x hx => ?_)
  · simp [objects_workflowState]
  obtain ⟨-, n, rfl⟩ := mclNew_some hx
  refine inRow_makes_keeps (fun state => ?_) fun state => ?_
  · simp only [objects_workflowState, List.sum_cons, List.sum_nil, objects_none]
    abel
  refine inRow_reading_keeps (fun _ => rfl) fun progress => ?_
  refine inRow_makes_keeps (fun entered => ?_) fun entered => ?_
  · simp only [objects_workflowState, List.sum_cons, List.sum_nil, objects_none]
    abel
  refine inRow_makes_keeps (fun updated => ?_) fun updated => ?_
  · simp only [objects_workflowState, List.sum_cons, List.sum_nil, objects_none]
    abel
  refine inRow_makes_keeps (fun message => ?_) fun message => ?_
  · simp only [objects_workflowState, List.sum_cons, List.sum_nil, objects_none]
    abel
  refine inRow_makes_keeps (fun details => ?_) fun details => inRow_nil_keeps _
  simp only [objects_workflowState, List.sum_cons, List.sum_nil, objects_none]
  abel

/-- No text and no failure of an allocation spoils it. -/
theorem parseWorkflow_keeps (w : Nat) (m : Memory) (json : Json) : Keeps (parseWorkflow w m json) := by
  refine onError_keeps destroys_workflow (filled_keeps (mclNew_keeps (fun n => ?_) _) fun s x hx => ?_)
  · simp [objects_workflow]
  obtain ⟨-, n, rfl⟩ := mclNew_some hx
  refine inRow_makes_keeps (fun id => ?_) fun id => ?_
  · simp only [objects_workflow, List.sum_cons, List.sum_nil, objects_none]
    abel
  refine inRow_makes_keeps (fun deviceId => ?_) fun deviceId => ?_
  · simp only [objects_workflow, List.sum_cons, List.sum_nil, objects_none]
    abel
  refine inRow_makes_keeps (fun createdAt => ?_) fun createdAt => ?_
  · simp only [objects_workflow, List.sum_cons, List.sum_nil, objects_none]
    abel
  refine inRow_setting_keeps (parseChild_keeps (parseWorkflowState_keeps _)) (fun currentState => ?_)
    fun _ currentState _ => ?_
  · simp only [objects_workflow, List.sum_cons, List.sum_nil, objects_none]
    abel
  refine inRow_setting_keeps (forgiven_keeps (parseList_keeps parseWorkflowState_keeps destroys_workflowState))
    (fun history => ?_) fun _ history _ => ?_
  · simp only [objects_workflow, List.sum_cons, List.sum_nil, objects_none]
    abel
  refine inRow_setting_keeps (forgiven_keeps (parseWorkflowModel_keeps w _ json)) (fun model => ?_) fun _ model _ => ?_
  · simp only [objects_workflow, List.sum_cons, List.sum_nil, objects_none]
    abel
  refine inRow_makes_keeps (fun data => ?_) fun data => inRow_nil_keeps _
  simp only [objects_workflow, List.sum_cons, List.sum_nil, objects_none]
  abel

theorem deploymentJsonParseWorkflow_released_iff (w : Nat) (m : Memory) (parse : Bytes → Option Json) (text : Bytes)
    (wasNull : Bool) :
    Released wasNull (deploymentJsonParseWorkflow w m parse text) ↔ (parse text = none → wasNull = true) :=
  parseText_released (fun json _ => parseWorkflow_keeps w m json) fun _ => construct_hands (mclNew_hands _ _ _).item

/-! ## Both parsers -/

/-- A workflow that fails leaves nothing behind. A configuration does so if no list refuses what was parsed for it.
Neither function writes to the pointer if the text is none. -/
theorem parsers_released_iff (w : Nat) (m : Memory) (parse : Bytes → Option Json) (text : Bytes) (wasNull : Bool) :
    (Released wasNull (jsonParseItem w m parse text) ↔
      (∀ json, parse text = some json → InsertsDataSources w m json) ∧ (parse text = none → wasNull = true)) ∧
      (Released wasNull (deploymentJsonParseWorkflow w m parse text) ↔ (parse text = none → wasNull = true)) :=
  ⟨jsonParseItem_released_iff w m parse text wasNull, deploymentJsonParseWorkflow_released_iff w m parse text wasNull⟩

/-- The allocation that fails is the node for the first data source. -/
def refusedDataSource : Result Unit × Option (Option ConfigurationObject) × Store :=
  jsonParseItem 64 (· != [4, 0, 1]) (fun text => if text = (dataSourceConfigurationTree sampleConfiguration).print then
    some (dataSourceConfigurationTree sampleConfiguration) else none)
    (dataSourceConfigurationTree sampleConfiguration).print

set_option maxRecDepth 1000 in
/-- The data source is taken for the address of its pointer. -/
theorem refusedDataSource_not_released : ¬Released true refusedDataSource := by
  have hcode : refusedDataSource.1 = .error .outOfMemory := by decide
  have hstained : Stained refusedDataSource.2.2 := ⟨.dataSource, 5, by decide⟩
  generalize refusedDataSource = result at hcode hstained ⊢
  obtain ⟨code, item, s⟩ := result
  obtain rfl : code = .error .outOfMemory := hcode
  rintro ⟨haccounted, -⟩
  exact hstained.not_sound haccounted.sound

end MindConnect.ParsedObjects
