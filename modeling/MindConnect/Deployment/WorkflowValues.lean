import MindConnect.Deployment.WorkflowMembers
import MindConnect.Deployment.WorkflowObjects

/-!
# What the parser of workflow objects reads

The parser of `WorkflowObjects` comes to the codes and values of the one of `DeploymentJson`, whatever its objects are:
`parseWorkflow_reads`. A chain that forgives an absent child keeps the fields in front of it; that the field itself is
still null is what `inRow_setting_fills` asks of its parser.
-/

namespace MindConnect.ParsedObjects

open JsonUtil ObjectStore Deployment FieldChain

/-- The members, without the objects they are kept in. -/
def WorkflowStateObject.workflowState (x : WorkflowStateObject) : WorkflowState :=
  ⟨x.state.map Leaf.value, x.progress, x.entered.map Leaf.value, x.updated.map Leaf.value, x.message.map Leaf.value,
    x.details.map Leaf.value⟩

def ModelStateObject.modelState (x : ModelStateObject) : ModelState :=
  ⟨x.name.map Leaf.value, x.description.map Leaf.value, x.initial, x.final, x.cancel⟩

def ModelTransitionObject.modelTransition (x : ModelTransitionObject) : ModelTransition :=
  ⟨x.from'.map Leaf.value, x.to'.map Leaf.value, x.type.map Leaf.value, x.details.map Leaf.value⟩

/-- The states of a group are names only. -/
def ModelStateGroupObject.modelStateGroup (x : ModelStateGroupObject) : ModelStateGroup :=
  ⟨x.name.map Leaf.value, x.states.map (ListObject.cursorList Leaf.value)⟩

/-- Each list as it is, its cursor included. -/
def WorkflowModelObject.workflowModel (x : WorkflowModelObject) : WorkflowModel :=
  ⟨x.key.map Leaf.value, x.states.map (ListObject.cursorList ModelStateObject.modelState),
    x.transitions.map (ListObject.cursorList ModelTransitionObject.modelTransition),
    x.stateGroups.map (ListObject.cursorList ModelStateGroupObject.modelStateGroup)⟩

/-- A workflow without its objects, which is what the parser of `DeploymentJson` returns. -/
def WorkflowObject.workflow (x : WorkflowObject) : Workflow :=
  ⟨x.id.map Leaf.value, x.deviceId.map Leaf.value, x.createdAt.map Leaf.value,
    x.currentState.map WorkflowStateObject.workflowState,
    x.history.map (ListObject.cursorList WorkflowStateObject.workflowState),
    x.model.map WorkflowModelObject.workflowModel, x.data.map Leaf.value⟩

/-! ## Children and lists -/

section
variable {α β : Type} {value : α → β} {w : Nat} {m : Memory} {json : Json} {field : CString}

/-- A child that is absent ends both parsers with the same code. -/
theorem parseChild_reads {r : Json → Result (Option β)} {parse : Json → Run α}
    (hparse : ∀ object, Reads value (r object) (parse object)) :
    Reads value (parseField json field r) (parseChild json field parse) := by
  intro s
  simp only [parseField, parseChild, bind, Except.bind]
  cases getObjectItem json field with
  | error e => exact ⟨rfl, fun v hv => by cases hv⟩
  | ok object => exact hparse object s

/-- The two loops over an array differ only in how they add an entry. -/
theorem deploymentParseItems_eq {array : Json} {of : Memory → Json → Result β} (n index : Nat) (list : CursorList β) :
    Deployment.parseItems m array of n index list = itemsOf m array of n index list := by
  induction n generalizing index list with
  | zero => rfl
  | succ n ih =>
    simp only [Deployment.parseItems, itemsOf, listAdd, ih]
    cases m [index, 1] <;> rfl

variable {of : Memory → Json → Result β} {found : Memory → Json → Result (Option β)} {parse : Memory → Json → Run α}
  {cleanUp : Option α → Store → Store}

/-- Filling a list comes to parsing the array, an entry that is null counting as missing. -/
theorem fillList_reads (hreads : ∀ m item, Reads value (found m item) (parse m item))
    (hof : ∀ m item, of m item = present (found m item)) (array : Json) :
    Reads (ListObject.cursorList value) (parseArray w m of array) (fillList w m parse cleanUp array) := by
  intro s
  rw [fillList, parseArray, mclListInitialize, mclNew]
  cases m [0] with
  | false => exact ⟨rfl, fun v hv => by cases hv⟩
  | true =>
    simp only [if_true, bind, Except.bind, pure, Except.pure]
    cases getArraySize w array with
    | error e => exact ⟨rfl, fun v hv => by cases hv⟩
    | ok arraySize =>
      obtain ⟨hcode, hvalue⟩ := @parseItems_reads α β value (m.of 1) array of parse cleanUp _ hreads hof
        arraySize.toNat 0 ⟨s.objects, []⟩ (s.create .list)
      have hempty : (ListObject.mk s.objects ([] : List (ListNode α))).cursorList value = .empty := rfl
      rw [hempty] at hcode hvalue
      simp only [deploymentParseItems_eq]
      generalize parseItems (m.of 1) array parse cleanUp arraySize.toNat 0 _ _ = result at hcode hvalue ⊢
      obtain ⟨code, p, s'⟩ := result
      obtain rfl : code = _ := hcode
      rcases hys : itemsOf (m.of 1) array of arraySize.toNat 0 .empty with e | ys
      · exact ⟨rfl, fun v hv => by cases hv⟩
      · obtain ⟨list, rfl, rfl⟩ := hvalue ys hys
        exact ⟨rfl, fun v hv => Except.ok.inj hv⟩

theorem parseList_reads (hreads : ∀ m item, Reads value (found m item) (parse m item))
    (hof : ∀ m item, of m item = present (found m item)) :
    Reads (ListObject.cursorList value) (Deployment.parseList w m json field of)
      (parseList w m json field parse cleanUp) :=
  onError_reads _ (parseChild_reads (fillList_reads hreads hof))

end

/-! ## Chains that forgive an absent child -/

/-- `fields` are the steps without objects. -/
def RowFills {σ τ : Type} (read : σ → τ) (fields : List (τ → Result τ)) (steps : List (Step σ)) (x : σ) : Prop :=
  ∀ s, forgive (inRow steps x s).1 = (readAll absent fields (read x)).map (fun _ => ()) ∧
    ∀ y, readAll absent fields (read x) = .ok y → read (inRow steps x s).2.1 = y

section
variable {α β γ σ τ : Type} {read : σ → τ} {fields : List (τ → Result τ)} {steps : List (Step σ)} {x : σ}

/-- Only a missing child is forgiven. -/
theorem forgive_of_absent {e : McError} (h : absent e = true) : forgive (.error e) = .ok () := by
  cases e <;> first | rfl | cases h

theorem forgive_of_not_absent {e : McError} (h : absent e = false) : forgive (.error e) = .error e := by
  cases e <;> first | rfl | cases h

/-- At the end of the row, everything is filled. -/
theorem inRow_nil_fills : RowFills read [] [] x := fun _ => ⟨rfl, fun _ hy => Except.ok.inj hy⟩

/-- A field that is missing is still null, so forgiving keeps what was there before the row came to it. -/
theorem inRow_setting_fills {readβ : β → γ} {r : Result (Option γ)} {parse : Run β} {set : Option β → σ → σ}
    {put : Option γ → τ → τ} (hparse : Reads readβ r parse)
    (hnull : ∀ s e, (parse s).1 = .error e → absent e = true → (parse s).2.1 = none)
    (hnone : read (set none x) = read x)
    (hput : ∀ v, read (set v x) = put (v.map readβ) (read x)) (hrest : ∀ v, RowFills read fields steps (set v x)) :
    RowFills read ((fun y => do return put (← r) y) :: fields) (setting parse set :: steps) x := by
  intro s
  obtain ⟨hcode, hvalue⟩ := hparse s
  have hnull := hnull s
  rw [inRow, setting, readAll]
  generalize parse s = result at hcode hvalue hnull ⊢
  obtain ⟨code, v, s'⟩ := result
  obtain rfl : code = _ := hcode
  rcases r with e | w
  · simp only [bind, Except.bind, Except.map]
    cases habsent : absent e with
    | true =>
      obtain rfl : v = none := hnull e rfl habsent
      exact ⟨forgive_of_absent habsent, fun y hy => hnone.trans (Except.ok.inj hy)⟩
    | false => exact ⟨forgive_of_not_absent habsent, fun y hy => by cases hy⟩
  · obtain rfl : v.map readβ = w := hvalue w rfl
    have hrest := hrest v s'
    rw [hput] at hrest
    exact hrest

/-- A failure makes no object. -/
theorem makes_null {kind : Kind} {r : Result (Option β)} {s : Store} {e : McError}
    (h : (makes kind r s).1 = .error e) : (makes kind r s).2.1 = none := by
  rcases r with e' | _ | value
  · rfl
  · rfl
  · cases h

/-- A field that holds a duplicate. -/
theorem inRow_makes_fills {kind : Kind} {r : Result (Option β)} {set : Option (Leaf kind β) → σ → σ}
    {put : Option β → τ → τ} (hnone : read (set none x) = read x)
    (hput : ∀ v, read (set v x) = put (v.map Leaf.value) (read x)) (hrest : ∀ v, RowFills read fields steps (set v x)) :
    RowFills read ((fun y => do return put (← r) y) :: fields) (setting (makes kind r) set :: steps) x :=
  inRow_setting_fills (makes_reads kind r) (fun _ _ h _ => makes_null h) hnone hput hrest

/-- A field without an object of its own, such as a flag. -/
theorem inRow_reading_fills {r : Result β} {set : β → σ → σ} {put : β → τ → τ}
    (hput : ∀ v, read (set v x) = put v (read x)) (hrest : ∀ v, RowFills read fields steps (set v x)) :
    RowFills read ((fun y => do return put (← r) y) :: fields) (reading r set :: steps) x := by
  intro s
  rcases r with e | v
  · simp only [inRow, reading, readAll, bind, Except.bind]
    cases habsent : absent e with
    | true => exact ⟨forgive_of_absent habsent, fun y hy => Except.ok.inj hy⟩
    | false => exact ⟨forgive_of_not_absent habsent, fun y hy => by cases hy⟩
  · have hrest := hrest v s
    rw [hput] at hrest
    exact hrest

/-- A struct that could be allocated is filled by its row. -/
theorem filled_fills {kind : Kind} {allocated : Bool} {new : Nat → σ} {initial : τ} (hnew : ∀ n, read (new n) = initial)
    (hrow : ∀ n, RowFills read fields steps (new n)) :
    Reads read ((fillOptional allocated fields initial).map some)
      (filled (mclNew kind allocated new) steps forgive) := by
  intro s
  rw [filled, mclNew, fillOptional]
  cases allocated with
  | false => exact ⟨rfl, fun v hv => by cases hv⟩
  | true =>
    obtain ⟨hcode, hvalue⟩ := hrow s.objects (s.create kind)
    rw [hnew] at hcode hvalue
    simp only [if_true, hcode]
    rcases hread : readAll absent fields initial with e | y
    · exact ⟨rfl, fun v hv => by cases hv⟩
    · exact ⟨rfl, fun v hv => by simpa [hvalue y hread, Except.map] using hv⟩

/-- It is the same to forgive at the end of the row or behind it. -/
theorem forgiven_filled (kind : Kind) (allocated : Bool) (new : Nat → σ) (steps : List (Step σ)) :
    forgiven (filled (mclNew kind allocated new) steps id) = filled (mclNew kind allocated new) steps forgive := by
  funext s
  cases allocated <;> rfl

end

/-! ## Structs -/

theorem parseWorkflowModelState_reads (m : Memory) (json : Json) :
    Reads ModelStateObject.modelState ((Deployment.parseWorkflowModelState m json).map some)
      (parseWorkflowModelState m json) := by
  refine onError_reads _ (filled_fills (fun _ => rfl) fun n => ?_)
  refine inRow_makes_fills rfl (fun _ => rfl) fun name => ?_
  refine inRow_makes_fills rfl (fun _ => rfl) fun description => ?_
  refine inRow_reading_fills (fun _ => rfl) fun initial => ?_
  refine inRow_reading_fills (fun _ => rfl) fun final => ?_
  exact inRow_reading_fills (fun _ => rfl) fun cancel => inRow_nil_fills

theorem parseWorkflowModelTransition_reads (m : Memory) (json : Json) :
    Reads ModelTransitionObject.modelTransition ((Deployment.parseWorkflowModelTransition m json).map some)
      (parseWorkflowModelTransition m json) := by
  refine onError_reads _ (filled_fills (fun _ => rfl) fun n => ?_)
  refine inRow_makes_fills rfl (fun _ => rfl) fun from' => ?_
  refine inRow_makes_fills rfl (fun _ => rfl) fun to' => ?_
  refine inRow_makes_fills rfl (fun _ => rfl) fun type => ?_
  exact inRow_makes_fills rfl (fun _ => rfl) fun details => inRow_nil_fills

/-- A name that is null is a missing name. -/
theorem parseStateName_present (m : Memory) (item : Json) :
    Deployment.parseStateName m item = present (getString item (m [0])) := by
  rw [Deployment.parseStateName]
  rcases getString item (m [0]) with e | _ | name <;> rfl

theorem fillStates_reads (w : Nat) (m : Memory) (array : Json) :
    Reads (ListObject.cursorList Leaf.value) (parseArray w m Deployment.parseStateName array)
      (fillList w m parseStateName mclFree array) :=
  fillList_reads (fun _ _ => makes_reads _ _) parseStateName_present array

/-- A group keeps a list that was not filled to the end, but no failure to fill it is forgiven. -/
theorem fillStates_null {w : Nat} {m : Memory} {json : Json} {field : CString} {s : Store} {e : McError}
    (h : (parseChild json field (fillList w m parseStateName mclFree) s).1 = .error e) (habsent : absent e = true) :
    (parseChild json field (fillList w m parseStateName mclFree) s).2.1 = none := by
  rw [parseChild] at h ⊢
  cases hobject : getObjectItem json field with
  | error e' => rfl
  | ok object =>
    rw [hobject] at h
    have hcode := (fillStates_reads w m object s).1
    rw [h] at hcode
    rcases harray : parseArray w m Deployment.parseStateName object with e' | list
    · rw [harray] at hcode
      cases hcode
      rw [parseArray_absent (fun _ _ _ _ _ => parseStateName_absent) harray] at habsent
      cases habsent
    · rw [harray] at hcode
      cases hcode

theorem parseWorkflowModelStateGroup_reads (w : Nat) (m : Memory) (json : Json) :
    Reads ModelStateGroupObject.modelStateGroup ((Deployment.parseWorkflowModelStateGroup w m json).map some)
      (parseWorkflowModelStateGroup w m json) := by
  refine onError_reads _ (filled_fills (fun _ => rfl) fun n => ?_)
  refine inRow_makes_fills rfl (fun _ => rfl) fun name => ?_
  exact inRow_setting_fills (parseChild_reads (fillStates_reads w (m.of 2))) (fun s e => fillStates_null) rfl
    (fun _ => rfl) fun states => inRow_nil_fills

theorem present_some {β : Type} {of : Memory → Json → Result β} (m : Memory) (item : Json) :
    of m item = present ((of m item).map some) := (present_map_some _).symm

/-- A model is kept as far as it was filled when a child is missing. -/
theorem fillModel_reads (w : Nat) (m : Memory) (object : Json) :
    Reads WorkflowModelObject.workflowModel ((parseModelObject w m object).map some)
      (forgiven (fillModel w m object)) := by
  rw [fillModel, forgiven_filled]
  refine filled_fills (fun _ => rfl) fun n => ?_
  refine inRow_makes_fills rfl (fun _ => rfl) fun key => ?_
  refine inRow_setting_fills (parseList_reads parseWorkflowModelState_reads present_some)
    (fun s e h _ => onError_null h) rfl (fun _ => rfl) fun states => ?_
  refine inRow_setting_fills (parseList_reads parseWorkflowModelTransition_reads present_some)
    (fun s e h _ => onError_null h) rfl (fun _ => rfl) fun transitions => ?_
  exact inRow_setting_fills (parseList_reads (parseWorkflowModelStateGroup_reads w) present_some)
    (fun s e h _ => onError_null h) rfl (fun _ => rfl) fun stateGroups => inRow_nil_fills

theorem parseWorkflowModel_reads (w : Nat) (m : Memory) (json : Json) :
    Reads WorkflowModelObject.workflowModel (Deployment.parseWorkflowModel w m json) (parseWorkflowModel w m json) := by
  refine onError_reads _ fun s => ?_
  rw [Deployment.parseWorkflowModel, forgiven, parseChild]
  rcases hobject : getObjectItem json (.lit "model") with e | object
  · obtain rfl := getObjectItem_error hobject
    exact ⟨rfl, fun v hv => Except.ok.inj hv⟩
  · exact fillModel_reads w m object s

/-- `construct_new_reads` for an allocation that is tried in front of a row. -/
theorem construct_new_reads_of_ite {σ τ : Type} {kind : Kind} {read : σ → τ} {r row : Result τ} {allocated : Bool}
    {new : Nat → σ} {steps : List (Step σ)} {destroy : Option σ → Store → Store}
    (hr : r = if allocated then row else .error .outOfMemory) (hnew : ∀ n, read (new n) = read (new 0))
    (hrow : ∀ n, RowReads read row steps (new n)) :
    Reads read (r.map some) (construct (mclNew kind allocated new) steps id destroy) := by
  have hreads : Reads read ((allocate allocated >>= fun _ => row).map some)
      (construct (mclNew kind allocated new) steps id destroy) := construct_new_reads hnew hrow
  rw [hr]
  cases allocated <;> exact hreads

/-- Nothing is forgiven in a state. -/
theorem parseWorkflowState_reads (m : Memory) (json : Json) :
    Reads WorkflowStateObject.workflowState ((Deployment.parseWorkflowState m json).map some)
      (parseWorkflowState m json) := by
  apply construct_new_reads_of_ite
  · exact rfl
  · exact fun _ => rfl
  intro n
  refine inRow_setting_reads (makes_reads _ _) fun state => ?_
  refine inRow_reading_reads fun progress => ?_
  refine inRow_setting_reads (makes_reads _ _) fun entered => ?_
  refine inRow_setting_reads (makes_reads _ _) fun updated => ?_
  refine inRow_setting_reads (makes_reads _ _) fun message => ?_
  refine inRow_setting_reads (makes_reads _ _) fun details => ?_
  exact inRow_nil_reads rfl

/-- A parser that leaves a null pointer where a child is absent. -/
theorem forgiven_reads {α β : Type} {read : α → β} {r r' : Result (Option β)} {parse : Run α}
    (hparse : Reads read r parse) (hnull : ∀ s e, (parse s).1 = .error e → (parse s).2.1 = none)
    (hok : ∀ v, r = .ok v → r' = .ok v) (habsent : r = .error .jsonNonExistingChild → r' = .ok none)
    (herror : ∀ e, r = .error e → absent e = false → r' = .error e) : Reads read r' (forgiven parse) := by
  intro s
  obtain ⟨hcode, hvalue⟩ := hparse s
  have hnull := hnull s
  rw [forgiven]
  generalize parse s = result at hcode hvalue hnull ⊢
  obtain ⟨code, p, s'⟩ := result
  obtain rfl : code = _ := hcode
  rcases r with e | v
  · obtain rfl : p = none := hnull e rfl
    cases he : absent e with
    | true =>
      obtain rfl : e = .jsonNonExistingChild := by cases e <;> first | rfl | cases he
      rw [habsent rfl]
      exact ⟨rfl, fun v hv => Except.ok.inj hv⟩
    | false =>
      rw [herror e rfl he]
      exact ⟨forgive_of_not_absent he, fun v hv => by cases hv⟩
  · rw [hok v rfl]
    exact ⟨rfl, fun v' hv => (hvalue v rfl).trans (Except.ok.inj hv)⟩

/-- The history that cannot be read for a missing child is a null pointer. -/
theorem parseWorkflowHistory_reads (w : Nat) (m : Memory) (json : Json) :
    Reads (ListObject.cursorList WorkflowStateObject.workflowState) (Deployment.parseWorkflowHistory w m json)
      (forgiven (parseWorkflowHistory w m json)) := by
  refine forgiven_reads (parseList_reads parseWorkflowState_reads present_some) (fun s e h => onError_null h) ?_ ?_ ?_
  · intro v hv
    rw [Deployment.parseWorkflowHistory, hv]
  · intro h
    rw [Deployment.parseWorkflowHistory, h]
  · intro e h hpresent
    rw [Deployment.parseWorkflowHistory, h]
    cases e <;> first | rfl | cases hpresent

/-- A missing model has already been forgiven, so forgiving again changes nothing. -/
theorem parseWorkflowModel_absent {w : Nat} {m : Memory} {json : Json} {e : McError}
    (h : Deployment.parseWorkflowModel w m json = .error e) : absent e = false := by
  rw [Deployment.parseWorkflowModel] at h
  rcases hobject : getObjectItem json (.lit "model") with e' | object
  · obtain rfl := getObjectItem_error hobject
    rw [hobject] at h
    cases h
  · rw [hobject] at h
    rcases hmodel : parseModelObject w m object with e' | model
    · simp only [hmodel, Except.map] at h
      cases h
      exact fillOptional_absent hmodel
    · simp only [hmodel, Except.map] at h
      cases h

theorem forgivenModel_reads (w : Nat) (m : Memory) (json : Json) :
    Reads WorkflowModelObject.workflowModel (Deployment.parseWorkflowModel w m json)
      (forgiven (parseWorkflowModel w m json)) := by
  refine forgiven_reads (parseWorkflowModel_reads w m json) (fun s e h => onError_null h) (fun v hv => hv) ?_
    (fun e he _ => he)
  intro h
  cases parseWorkflowModel_absent h

theorem parseField_map_some {β : Type} (json : Json) (field : CString) (of : Json → Result β) :
    (parseField json field of).map some = parseField json field fun object => (of object).map some := by
  simp only [parseField, bind, Except.bind]
  cases getObjectItem json field <;> rfl

/-- A field that is there whenever its parser succeeds. -/
theorem inRow_setting_some_reads {β γ σ τ : Type} {readβ : β → γ} {r : Result γ} {parse : Run β}
    {set : Option β → σ → σ} {read : σ → τ} {rest : γ → Result τ} {steps : List (Step σ)} {x : σ}
    (hparse : Reads readβ (r.map some) parse) (hrest : ∀ v, RowReads read (rest (readβ v)) steps (set (some v) x)) :
    RowReads read (r >>= rest) (setting parse set :: steps) x := by
  intro s
  obtain ⟨hcode, hvalue⟩ := hparse s
  rw [inRow, setting]
  generalize parse s = result at hcode hvalue ⊢
  obtain ⟨code, p, s'⟩ := result
  obtain rfl : code = _ := hcode
  rcases r with e | y
  · exact ⟨rfl, fun y hy => by cases hy⟩
  · obtain ⟨v, rfl, rfl⟩ : ∃ v, p = some v ∧ readβ v = y := by simpa using hvalue (some y) rfl
    exact hrest v s'

/-- Codes and values are those of the parser without objects, for every pattern of allocation failures. -/
theorem parseWorkflow_reads (w : Nat) (m : Memory) (json : Json) :
    Reads WorkflowObject.workflow ((Deployment.parseWorkflow w m json).map some) (parseWorkflow w m json) := by
  apply construct_new_reads_of_ite
  · exact rfl
  · exact fun _ => rfl
  intro n
  refine inRow_setting_reads (makes_reads _ _) fun id => ?_
  refine inRow_setting_reads (makes_reads _ _) fun deviceId => ?_
  refine inRow_setting_reads (makes_reads _ _) fun createdAt => ?_
  have hstate : Reads WorkflowStateObject.workflowState
      ((parseField json (.lit "currentState") (Deployment.parseWorkflowState (m.of 4))).map some)
      (parseChild json (.lit "currentState") (parseWorkflowState (m.of 4))) := by
    rw [parseField_map_some]
    exact parseChild_reads (parseWorkflowState_reads (m.of 4))
  refine inRow_setting_some_reads hstate fun currentState => ?_
  refine inRow_setting_reads (parseWorkflowHistory_reads w _ json) fun history => ?_
  refine inRow_setting_reads (forgivenModel_reads w _ json) fun model => ?_
  refine inRow_setting_reads (makes_reads _ _) fun data => ?_
  exact inRow_nil_reads rfl

end MindConnect.ParsedObjects
