import MindConnect.Connectivity.JsonParse
import MindConnect.Lib.FieldChain

/-!
# Parsing a workflow: `deployment_json.c`

| here | there |
| --- | --- |
| `ModelState`, `ModelTransition`, `ModelStateGroup`, `WorkflowModel` | `deployment_workflow_model_state_t`, `_transition_t`, `_state_group_t`, `deployment_workflow_model_t` |
| `WorkflowState`, `Workflow` | `deployment_workflow_state_t`, `deployment_workflow_t` |
| `parseStringValue`, `parseFloatValue`, `parseBoolValue` | `_parse_string_value` (`:861`), `_parse_float_value` (`:879`), `_parse_bool_value` (`:897`) |
| `parseItems`, `parseList` | the loop over an array, and `_parse_workflow_model_states` (`:474`), `_model_transitions` (`:586`), `_model_state_groups` (`:700`), which differ in what they parse |
| `fillOptional` | the chains that turn `MCL_JSON_NON_EXISTING_CHILD` into `MCL_OK` |
| `parseWorkflowModel` and the others of that name | the functions of the same names |
| `deploymentJsonParseWorkflow` | `deployment_json_parse_workflow` (`:126`), over `parse`, which stands for cJSON's parser |
| `deploymentJsonParseWorkflows` | `deployment_json_parse_workflows` (`:61`) |

`Memory` is what each allocation comes to, an allocation being found by the path of calls that leads to it. A number is
the text that it has.
-/

namespace MindConnect.Deployment

open JsonUtil FieldChain

/-! ## Data -/

structure ModelState where
  name : Option CString
  description : Option CString
  initial : Bool
  final : Bool
  cancel : Bool

structure ModelTransition where
  from' : Option CString
  to' : Option CString
  type : Option CString
  details : Option Json

structure ModelStateGroup where
  name : Option CString
  states : Option (CursorList CString)

structure WorkflowModel where
  key : Option CString
  states : Option (CursorList ModelState)
  transitions : Option (CursorList ModelTransition)
  stateGroups : Option (CursorList ModelStateGroup)

structure WorkflowState where
  state : Option CString
  progress : Bytes
  entered : Option CString
  updated : Option CString
  message : Option CString
  details : Option Json

structure Workflow where
  id : Option CString
  deviceId : Option CString
  createdAt : Option CString
  currentState : Option WorkflowState
  history : Option (CursorList WorkflowState)
  model : Option WorkflowModel
  data : Option Json

/-! ## Values -/

def getBoolValue : Json → Result Bool
  | .bool b => .ok b
  | _ => .error .jsonTypeMismatch

def getDoubleValue : Json → Result Bytes
  | .number text => .ok text
  | _ => .error .jsonTypeMismatch

/-- `mcl_json_util_duplicate` -/
def duplicate (allocated : Bool) (source : Json) : Result (Option Json) :=
  if allocated then .ok (some source) else .error .outOfMemory

/-- A field that is read from a child. -/
def parseField {β : Type} (json : Json) (field : CString) (read : Json → Result β) : Result β := do
  let object ← getObjectItem json field
  read object

def parseStringValue (allocated : Bool) (json : Json) (field : CString) : Result (Option CString) :=
  parseField json field (getString · allocated)

def parseFloatValue (json : Json) (field : CString) : Result Bytes := parseField json field getDoubleValue

def parseBoolValue (json : Json) (field : CString) : Result Bool := parseField json field getBoolValue

/-! ## Arrays -/

section

variable {α : Type}

/-- `mcl_list_add` of what is not null. -/
def listAdd (allocated : Bool) (list : CursorList α) (x : α) : Result (CursorList α) :=
  if allocated then .ok (list.add x) else .error .outOfMemory

/-- `n` turns of the loop, from `index` on. -/
def parseItems (m : Memory) (array : Json) (parse : Memory → Json → Result α) :
    Nat → Nat → CursorList α → Result (CursorList α)
  | 0, _, list => .ok list
  | n + 1, index, list => do
    let item ← getArrayItem array index
    let x ← parse ((m.of index).of 0) item
    let list ← listAdd (m [index, 1]) list x
    parseItems m array parse n (index + 1) list

/-- The array is there: the list is made and filled. -/
def parseArray (w : Nat) (m : Memory) (parse : Memory → Json → Result α) (array : Json) :
    Result (Option (CursorList α)) := do
  if m [0] then pure () else throw .outOfMemory
  let arraySize ← getArraySize w array
  let list ← parseItems (m.of 1) array parse arraySize.toNat 0 .empty
  return some list

def parseList (w : Nat) (m : Memory) (json : Json) (field : CString) (parse : Memory → Json → Result α) :
    Result (Option (CursorList α)) :=
  parseField json field (parseArray w m parse)

end

/-! ## Objects -/

/-- The failure that the chains of optional fields end with. -/
def absent : McError → Bool
  | .jsonNonExistingChild => true
  | _ => false

/-- `_initialize`, the fields in a row, and `MCL_OK` if a child is absent. -/
def fillOptional {σ : Type} (allocated : Bool) (steps : List (σ → Result σ)) (initial : σ) : Result σ :=
  if allocated then readAll absent steps initial else .error .outOfMemory

/-- `_parse_workflow_model_state` (`:538`) -/
def parseWorkflowModelState (m : Memory) (json : Json) : Result ModelState :=
  fillOptional (m [0]) [
    fun s => do return { s with name := ← parseStringValue (m [1]) json (.lit "name") },
    fun s => do return { s with description := ← parseStringValue (m [2]) json (.lit "description") },
    fun s => do return { s with initial := ← parseBoolValue json (.lit "initial") },
    fun s => do return { s with final := ← parseBoolValue json (.lit "final") },
    fun s => do return { s with cancel := ← parseBoolValue json (.lit "cancel") }] ⟨none, none, false, false, false⟩

/-- `_parse_workflow_model_transition` (`:651`) -/
def parseWorkflowModelTransition (m : Memory) (json : Json) : Result ModelTransition :=
  fillOptional (m [0]) [
    fun s => do return { s with from' := ← parseStringValue (m [1]) json (.lit "from") },
    fun s => do return { s with to' := ← parseStringValue (m [2]) json (.lit "to") },
    fun s => do return { s with type := ← parseStringValue (m [3]) json (.lit "type") },
    fun s => do return { s with details := ← parseField json (.lit "details") (duplicate (m [4])) }]
    ⟨none, none, none, none⟩

/-- An element of the `states` of a group; a null string is not added. -/
def parseStateName (m : Memory) (item : Json) : Result CString := do
  match ← getString item (m [0]) with
  | none => throw .triggeredWithNull
  | some name => return name

/-- `_parse_workflow_model_state_group` (`:765`) -/
def parseWorkflowModelStateGroup (w : Nat) (m : Memory) (json : Json) : Result ModelStateGroup :=
  fillOptional (m [0]) [
    fun s => do return { s with name := ← parseStringValue (m [1]) json (.lit "name") },
    fun s => do return { s with states := ← parseList w (m.of 2) json (.lit "states") parseStateName }] ⟨none, none⟩

/-- `_parse_workflow_model` (`:422`) behind the child `model`. -/
def parseModelObject (w : Nat) (m : Memory) (object : Json) : Result WorkflowModel :=
  fillOptional (m [0]) [
    fun s => do return { s with key := ← parseStringValue (m [1]) object (.lit "key") },
    fun s => do return { s with states := ← parseList w (m.of 2) object (.lit "states") parseWorkflowModelState },
    fun s => do return { s with
      transitions := ← parseList w (m.of 3) object (.lit "transitions") parseWorkflowModelTransition },
    fun s => do return { s with
      stateGroups := ← parseList w (m.of 4) object (.lit "stateGroups") (parseWorkflowModelStateGroup w) }]
    ⟨none, none, none, none⟩

/-- The model, null if there is no child of that name. -/
def parseWorkflowModel (w : Nat) (m : Memory) (json : Json) : Result (Option WorkflowModel) :=
  match getObjectItem json (.lit "model") with
  | .error .jsonNonExistingChild => .ok none
  | .error e => .error e
  | .ok object => (parseModelObject w m object).map some

/-- `_parse_workflow_state` (`:296`): here every child has to be there. -/
def parseWorkflowState (m : Memory) (json : Json) : Result WorkflowState := do
  if m [0] then pure () else throw .outOfMemory
  let state ← parseStringValue (m [1]) json (.lit "state")
  let progress ← parseFloatValue json (.lit "progress")
  let entered ← parseStringValue (m [2]) json (.lit "entered")
  let updated ← parseStringValue (m [3]) json (.lit "updated")
  let message ← parseStringValue (m [4]) json (.lit "message")
  let details ← parseField json (.lit "details") (duplicate (m [5]))
  return ⟨state, progress, entered, updated, message, details⟩

/-- `_parse_workflow_history` (`:354`); its caller takes any child that is absent, in an entry too, for no history. -/
def parseWorkflowHistory (w : Nat) (m : Memory) (json : Json) : Result (Option (CursorList WorkflowState)) :=
  match parseList w m json (.lit "history") parseWorkflowState with
  | .error .jsonNonExistingChild => .ok none
  | r => r

/-- `_parse_workflow` (`:216`) -/
def parseWorkflow (w : Nat) (m : Memory) (json : Json) : Result Workflow := do
  if m [0] then pure () else throw .outOfMemory
  let id ← parseStringValue (m [1]) json (.lit "id")
  let deviceId ← parseStringValue (m [2]) json (.lit "deviceId")
  let createdAt ← parseStringValue (m [3]) json (.lit "createdAt")
  let currentState ← parseField json (.lit "currentState") (parseWorkflowState (m.of 4))
  let history ← parseWorkflowHistory w (m.of 5) json
  let model ← parseWorkflowModel w (m.of 6) json
  let data ← parseField json (.lit "data") (duplicate (m [7]))
  return ⟨id, deviceId, createdAt, some currentState, history, model, data⟩

def deploymentJsonParseWorkflow (w : Nat) (m : Memory) (parse : Bytes → Option Json) (text : Bytes) : Result Workflow :=
  match parse text with
  | none => .error .fail
  | some json => parseWorkflow w m json

def deploymentJsonParseWorkflows (w : Nat) (m : Memory) (parse : Bytes → Option Json) (text : Bytes) :
    Result (CursorList Workflow) :=
  match parse text with
  | none => .error .fail
  | some json => do
    let workflowsJsonArray ← getObjectItem json (.lit "content")
    let arraySize ← getArraySize w workflowsJsonArray
    if m [0] then pure () else throw .outOfMemory
    parseItems (m.of 1) workflowsJsonArray (parseWorkflow w) arraySize.toNat 0 .empty

end MindConnect.Deployment
