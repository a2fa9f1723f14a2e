import MindConnect.Deployment.WorkflowMembers

/-!
# Whether the history of a workflow is kept

`_parse_workflow` (`deployment_json.c:216`) takes `MCL_JSON_NON_EXISTING_CHILD` from `_parse_workflow_history` for a
workflow without a history. An entry without one of its six members ends in the same code, and then the whole history is
gone while the result is `MCL_OK`. `HistoryKept` says what all or error comes to for a workflow that was returned, and
`WholeHistory` which documents have it.
-/

namespace MindConnect.Deployment

open JsonUtil FieldChain

/-! ## All or error -/

def ShowsNumber : Json → Bytes → Prop
  | .number text, v => v = text
  | _, _ => False

/-- The member is there and shows. -/
def Shown (json : Json) (name : CString) (P : Json → Prop) : Prop := ∃ child ∈ find json name, P child

structure WorkflowStateShows (json : Json) (s : WorkflowState) : Prop where
  state : Shown json (.lit "state") (ShowsString · s.state)
  progress : Shown json (.lit "progress") (ShowsNumber · s.progress)
  entered : Shown json (.lit "entered") (ShowsString · s.entered)
  updated : Shown json (.lit "updated") (ShowsString · s.updated)
  message : Shown json (.lit "message") (ShowsString · s.message)
  details : Shown json (.lit "details") (ShowsJson · s.details)

/-- The allocations of the `i`-th entry. -/
def entryMemory (m : Memory) (i : Nat) : Memory := (((m.of 5).of 1).of i).of 0

structure HistoryKept (m : Memory) (json : Json) (workflow : Workflow) : Prop where
  null_iff : workflow.history = none ↔ find json (.lit "history") = none
  shows : Present json (.lit "history") (ShowsList WorkflowStateShows · workflow.history)
  /-- No entry failed to be parsed. -/
  parsed : ∀ es, find json (.lit "history") = some (.array es) →
    ∀ e ∈ es.zipIdx, ∃ s, parseWorkflowState (entryMemory m e.2) e.1 = .ok s

/-- The workflows of a list, each from its element. -/
def WorkflowsKept (w : Nat) (m : Memory) (json : Json) (workflows : CursorList Workflow) : Prop :=
  ∃ content, find json (.lit "content") = some content ∧
    List.Forall₂ (fun item workflow => HistoryKept (((m.of 1).of item.2).of 0) item.1 workflow)
      (visited w content).zipIdx workflows.seq

/-! ## Whole documents -/

def workflowStateMembers : List CString :=
  [.lit "state", .lit "progress", .lit "entered", .lit "updated", .lit "message", .lit "details"]

def WholeWorkflowState (json : Json) : Prop := ∀ name ∈ workflowStateMembers, find json name ≠ none

/-- No history, or an array that the loop visits whole and whose entries have all members. -/
def WholeHistory (w : Nat) (json : Json) : Prop := Present json (.lit "history") (WholeArray w WholeWorkflowState)

def WholeHistories (w : Nat) (json : Json) : Prop :=
  Present json (.lit "content") fun content => ∀ item ∈ visited w content, WholeHistory w item

/-! ## An entry -/

theorem parseField_ok_iff {β : Type} {json : Json} {name : CString} {read : Json → Result β} {v : β} :
    parseField json name read = .ok v ↔ ∃ child ∈ find json name, read child = .ok v := by
  rw [parseField_eq]
  cases find json name with
  | none => simp
  | some child => simp

theorem parseField_shown {β : Type} {json : Json} {name : CString} {read : Json → Result β} {v : β} {P : Json → Prop}
    (hread : ∀ child, read child = .ok v → P child) (h : parseField json name read = .ok v) : Shown json name P := by
  obtain ⟨child, hchild, hv⟩ := parseField_ok_iff.1 h
  exact ⟨child, hchild, hread child hv⟩

theorem getDoubleValue_shows {child : Json} {v : Bytes} (h : getDoubleValue child = .ok v) : ShowsNumber child v := by
  cases child <;> cases h
  rfl

theorem getDoubleValue_absent {child : Json} {e : McError} (h : getDoubleValue child = .error e) :
    absent e = false := by
  cases child <;> cases h <;> rfl

theorem parseWorkflowState_shows {m : Memory} {json : Json} {s : WorkflowState}
    (h : parseWorkflowState m json = .ok s) : WorkflowStateShows json s := by
  unfold parseWorkflowState at h
  split_ifs at h
  · obtain ⟨state, hstate, h⟩ := bind_eq_ok h
    obtain ⟨progress, hprogress, h⟩ := bind_eq_ok h
    obtain ⟨entered, hentered, h⟩ := bind_eq_ok h
    obtain ⟨updated, hupdated, h⟩ := bind_eq_ok h
    obtain ⟨message, hmessage, h⟩ := bind_eq_ok h
    obtain ⟨details, hdetails, h⟩ := bind_eq_ok h
    cases h
    exact {
      state := parseField_shown (fun _ hv => (getString_shows hv).2 trivial) hstate
      progress := parseField_shown (fun _ hv => getDoubleValue_shows hv) hprogress
      entered := parseField_shown (fun _ hv => (getString_shows hv).2 trivial) hentered
      updated := parseField_shown (fun _ hv => (getString_shows hv).2 trivial) hupdated
      message := parseField_shown (fun _ hv => (getString_shows hv).2 trivial) hmessage
      details := parseField_shown (fun _ hv => (duplicate_shows hv).2 trivial) hdetails }
  · cases h

theorem Shown.find_ne {json : Json} {name : CString} {P : Json → Prop} (h : Shown json name P) :
    find json name ≠ none := by
  obtain ⟨child, hchild, -⟩ := h
  rw [Option.mem_def.1 hchild]
  exact Option.some_ne_none child

theorem WorkflowStateShows.whole {json : Json} {s : WorkflowState} (h : WorkflowStateShows json s) :
    WholeWorkflowState json := by
  simp only [WholeWorkflowState, workflowStateMembers, List.forall_mem_cons]
  exact ⟨h.state.find_ne, h.progress.find_ne, h.entered.find_ne, h.updated.find_ne, h.message.find_ne,
    h.details.find_ne, List.forall_mem_nil _⟩

theorem parseField_absent {β : Type} {json : Json} {name : CString} {read : Json → Result β} {e : McError}
    (hfind : find json name ≠ none) (hread : ∀ child e, read child = .error e → absent e = false)
    (h : parseField json name read = .error e) : absent e = false := by
  rw [parseField_eq] at h
  cases hchild : find json name with
  | none => exact absurd hchild hfind
  | some child =>
    rw [hchild] at h
    exact hread child e h

/-- An entry that has all its members does not fail because one is absent. -/
theorem parseWorkflowState_absent {m : Memory} {json : Json} (hwhole : WholeWorkflowState json) {e : McError}
    (h : parseWorkflowState m json = .error e) : absent e = false := by
  simp only [WholeWorkflowState, workflowStateMembers, List.forall_mem_cons] at hwhole
  obtain ⟨hstate, hprogress, hentered, hupdated, hmessage, hdetails, -⟩ := hwhole
  unfold parseWorkflowState at h
  split_ifs at h
  · rcases bind_eq_error h with h | ⟨_, -, h⟩
    · exact parseField_absent hstate (fun _ _ => getString_absent) h
    rcases bind_eq_error h with h | ⟨_, -, h⟩
    · exact parseField_absent hprogress (fun _ _ => getDoubleValue_absent) h
    rcases bind_eq_error h with h | ⟨_, -, h⟩
    · exact parseField_absent hentered (fun _ _ => getString_absent) h
    rcases bind_eq_error h with h | ⟨_, -, h⟩
    · exact parseField_absent hupdated (fun _ _ => getString_absent) h
    rcases bind_eq_error h with h | ⟨_, -, h⟩
    · exact parseField_absent hmessage (fun _ _ => getString_absent) h
    rcases bind_eq_error h with h | ⟨_, -, h⟩
    · exact parseField_absent hdetails (fun _ _ => duplicate_absent) h
    · cases h
  · cases h
    rfl

/-! ## A history -/

theorem mem_of_getArrayItem {es : List Json} {i : Nat} {e : Json} (h : getArrayItem (.array es) i = .ok e) :
    e ∈ es := by
  simp only [getArrayItem] at h
  split_ifs at h
  cases hitem : es[(toInt i).toNat]? with
  | none =>
    rw [hitem] at h
    cases h
  | some item =>
    rw [hitem] at h
    cases h
    exact List.mem_of_getElem? hitem

/-- Every element that the loop visited was parsed with the allocations of its turn. -/
theorem parseArray_each {α : Type} {parse : Memory → Json → Result α} {w : Nat} {m : Memory} {es : List Json}
    {v : Option (CursorList α)} (h : parseArray w m parse (.array es) = .ok v) :
    ∀ e ∈ (visited w (.array es)).zipIdx, ∃ y, parse (((m.of 1).of e.2).of 0) e.1 = .ok y := by
  unfold parseArray at h
  split_ifs at h
  · obtain ⟨arraySize, hsize, h⟩ := bind_eq_ok h
    obtain ⟨list, hlist, h⟩ := bind_eq_ok h
    obtain ⟨ys, hys, -⟩ := parseItems_each (Nat.zero_le _) hlist
    have hvisited : visited w (.array es) = es.take arraySize.toNat := by simp [visited, hsize]
    rw [hvisited]
    rw [List.drop_zero] at hys
    intro e he
    obtain ⟨i, hi, rfl⟩ := List.getElem_of_mem he
    have hi' : i < ys.length := hys.length_eq ▸ hi
    exact ⟨_, (List.forall₂_iff_get.1 hys).2 i hi hi'⟩
  · cases h

theorem parseWorkflowHistory_eq (w : Nat) (m : Memory) (json : Json) :
    parseWorkflowHistory w m json =
      match find json (.lit "history") with
      | none => .ok none
      | some child =>
        match parseArray w m parseWorkflowState child with
        | .error .jsonNonExistingChild => .ok none
        | r => r := by
  rw [parseWorkflowHistory, parseList, parseField_eq]
  cases find json (.lit "history") with
  | none => rfl
  | some child => rfl

theorem parseArray_absent_of_whole {w : Nat} {m : Memory} {child : Json}
    (hwhole : WholeArray w WholeWorkflowState child) {e : McError}
    (h : parseArray w m parseWorkflowState child = .error e) : absent e = false := by
  refine parseArray_absent (fun i entry hentry m e => ?_) h
  cases child with
  | array es => exact parseWorkflowState_absent (hwhole.2 entry (mem_of_getArrayItem hentry))
  | _ => cases hentry

/-- The history of a workflow that was returned is all or error if and only if the entries are whole. -/
theorem parseWorkflow_history_iff {w : Nat} {m : Memory} {json : Json} {workflow : Workflow}
    (h : parseWorkflow w m json = .ok workflow) : HistoryKept m json workflow ↔ WholeHistory w json := by
  obtain ⟨history, hparsed, hhistory⟩ : ∃ history, parseWorkflowHistory w (m.of 5) json = .ok history ∧
      workflow.history = history := by
    unfold parseWorkflow at h
    split_ifs at h
    · obtain ⟨id, -, h⟩ := bind_eq_ok h
      obtain ⟨deviceId, -, h⟩ := bind_eq_ok h
      obtain ⟨createdAt, -, h⟩ := bind_eq_ok h
      obtain ⟨currentState, -, h⟩ := bind_eq_ok h
      obtain ⟨history, hparsed, h⟩ := bind_eq_ok h
      obtain ⟨model, -, h⟩ := bind_eq_ok h
      obtain ⟨data, -, h⟩ := bind_eq_ok h
      cases h
      exact ⟨history, hparsed, rfl⟩
    · cases h
  rw [parseWorkflowHistory_eq] at hparsed
  cases hchild : find json (.lit "history") with
  | none =>
    rw [hchild] at hparsed
    cases hparsed
    refine iff_of_true ⟨by simp [hhistory, hchild], ?_, ?_⟩ ?_
    · simp [Present, hchild]
    · simp [hchild]
    · simp [WholeHistory, Present, hchild]
  | some child =>
    rw [hchild] at hparsed
    have hwhole : WholeHistory w json ↔ WholeArray w WholeWorkflowState child := by
      simp [WholeHistory, Present, hchild]
    rw [hwhole]
    cases hlist : parseArray w (m.of 5) parseWorkflowState child with
    | error e =>
      -- The member of an entry that is absent is taken for the history that is absent.
      have habsent : absent e = true ∧ history = none := by
        cases e with
        | jsonNonExistingChild =>
          simp only [hlist, Except.ok.injEq] at hparsed
          exact ⟨rfl, hparsed.symm⟩
        | _ =>
          simp only [hlist] at hparsed
          cases hparsed
      refine iff_of_false (fun hkept => ?_) fun hentries => ?_
      · have hnone : workflow.history = none := hhistory.trans habsent.2
        rw [hkept.null_iff, hchild] at hnone
        cases hnone
      · rw [parseArray_absent_of_whole hentries hlist] at habsent
        cases habsent.1
    | ok list =>
      simp only [hlist, Except.ok.injEq] at hparsed
      subst hparsed
      have hiff : ∀ m e y, parseWorkflowState m e = .ok y → (WorkflowStateShows e y ↔ WholeWorkflowState e) :=
        fun _ _ _ hy => iff_of_true (parseWorkflowState_shows hy) (parseWorkflowState_shows hy).whole
      rw [← parseArray_shows hiff hlist, ← hhistory]
      constructor
      · intro hkept
        exact hkept.shows child hchild
      · intro hshows
        obtain ⟨es, entries, rfl, hentries, -⟩ := parseArray_ok hlist
        refine ⟨by simp [hhistory, hentries, hchild], by simpa [Present, hchild] using hshows, ?_⟩
        intro es' hes' e he
        rw [hchild] at hes'
        cases hes'
        rw [hhistory, parseArray_shows hiff hlist] at hshows
        rw [← hshows.1] at he
        exact parseArray_each hlist e he

/-! ## Both functions -/

theorem parseWorkflows_kept_iff {w : Nat} {m : Memory} {parse : Bytes → Option Json} {text : Bytes} {json : Json}
    {workflows : CursorList Workflow} (hjson : parse text = some json)
    (h : deploymentJsonParseWorkflows w m parse text = .ok workflows) :
    WorkflowsKept w m json workflows ↔ WholeHistories w json := by
  simp only [deploymentJsonParseWorkflows, hjson] at h
  obtain ⟨content, hcontent, h⟩ := bind_eq_ok h
  obtain ⟨arraySize, hsize, h⟩ := bind_eq_ok h
  split_ifs at h
  · have hfind : find json (.lit "content") = some content := by simp [find, hcontent, Except.toOption]
    cases content with
    | array es =>
      obtain ⟨ys, hys, rfl⟩ := parseItems_each (Nat.zero_le _) h
      have hvisited : visited w (.array es) = es.take arraySize.toNat := by simp [visited, hsize]
      have hseq : (ys.foldl CursorList.add .empty).seq = ys := by simp
      rw [List.drop_zero, ← hvisited] at hys
      have hitem : ∀ (item : Json × Nat) (workflow : Workflow),
          parseWorkflow w (((m.of 1).of item.2).of 0) item.1 = .ok workflow →
            (HistoryKept (((m.of 1).of item.2).of 0) item.1 workflow ↔ WholeHistory w item.1) :=
        fun _ _ => parseWorkflow_history_iff
      have hall : (∀ item ∈ (visited w (.array es)).zipIdx, WholeHistory w item.1) ↔
          ∀ item ∈ visited w (.array es), WholeHistory w item := by
        conv_rhs => rw [← List.zipIdx_map_fst 0 (visited w (.array es)), List.forall_mem_map]
      simp only [WorkflowsKept, WholeHistories, Present, hfind, Option.mem_def, Option.some.injEq, exists_eq_left',
        forall_eq', hseq]
      rw [forall₂_iff_forall hitem hys, hall]
    | _ => cases hsize
  · cases h

/-- A workflow that is returned, alone or in a list, has its history all or error if and only if there is none, or the
loop visits the whole array and every entry has its six members. -/
theorem deploymentJson_historyKept_iff (w : Nat) (m : Memory) (parse : Bytes → Option Json) (text : Bytes) (json : Json)
    (hjson : parse text = some json) :
    (∀ workflow, deploymentJsonParseWorkflow w m parse text = .ok workflow →
        (HistoryKept m json workflow ↔ WholeHistory w json)) ∧
      ∀ workflows, deploymentJsonParseWorkflows w m parse text = .ok workflows →
        (WorkflowsKept w m json workflows ↔ WholeHistories w json) := by
  constructor
  · intro workflow h
    rw [deploymentJsonParseWorkflow, hjson] at h
    exact parseWorkflow_history_iff h
  · intro workflows h
    exact parseWorkflows_kept_iff hjson h

def sampleState : List (CString × Json) :=
  [(.lit "state", .string (.lit "A")), (.lit "progress", .number (ascii "0")), (.lit "entered", .null),
    (.lit "updated", .null), (.lit "message", .null), (.lit "details", .object [])]

def laterState : List (CString × Json) :=
  [(.lit "state", .string (.lit "B")), (.lit "progress", .number (ascii "50")), (.lit "entered", .null),
    (.lit "updated", .null), (.lit "message", .string (.lit "m")), (.lit "details", .object [(.lit "n", .bool true)])]

/-- A workflow with these entries in its history. -/
def workflowWith (entries : List (List (CString × Json))) : Json :=
  .object [(.lit "id", .string (.lit "1")), (.lit "deviceId", .string (.lit "d")),
    (.lit "createdAt", .string (.lit "2019-01-31T23:59:59.999Z")), (.lit "currentState", .object sampleState),
    (.lit "history", .array (entries.map .object)), (.lit "data", .object [])]

/-- Two workflows, the first with two entries. -/
def twoWorkflows : Json :=
  .object [(.lit "content", .array [workflowWith [sampleState, laterState], workflowWith [laterState]])]

theorem twoEntries_kept :
    (∃ workflow, deploymentJsonParseWorkflow 64 (fun _ => true)
          (fun _ => some (workflowWith [sampleState, laterState])) [] = .ok workflow ∧
        (HistoryKept (fun _ => true) (workflowWith [sampleState, laterState]) workflow ↔
          WholeHistory 64 (workflowWith [sampleState, laterState]))) ∧
      ∃ workflows, deploymentJsonParseWorkflows 64 (fun _ => true) (fun _ => some twoWorkflows) [] = .ok workflows ∧
        (WorkflowsKept 64 (fun _ => true) twoWorkflows workflows ↔ WholeHistories 64 twoWorkflows) := by
  obtain ⟨workflow, hworkflow⟩ : ∃ workflow, deploymentJsonParseWorkflow 64 (fun _ => true)
      (fun _ => some (workflowWith [sampleState, laterState])) [] = .ok workflow := ⟨_, rfl⟩
  obtain ⟨workflows, hworkflows⟩ : ∃ workflows, deploymentJsonParseWorkflows 64 (fun _ => true)
      (fun _ => some twoWorkflows) [] = .ok workflows := ⟨_, rfl⟩
  exact ⟨⟨workflow, hworkflow, (deploymentJson_historyKept_iff _ _ _ _ _ rfl).1 workflow hworkflow⟩,
    ⟨workflows, hworkflows, (deploymentJson_historyKept_iff _ _ _ _ _ rfl).2 workflows hworkflows⟩⟩

/-- An entry without details: the code is `MCL_OK`, and the workflow has no history. -/
theorem entryWithoutDetails_lost :
    ∃ workflow, deploymentJsonParseWorkflow 64 (fun _ => true)
        (fun _ => some (workflowWith [sampleState.dropLast])) [] = .ok workflow ∧
      workflow.history = none ∧ ¬ HistoryKept (fun _ => true) (workflowWith [sampleState.dropLast]) workflow := by
  obtain ⟨workflow, hok, hnone⟩ : ∃ workflow, deploymentJsonParseWorkflow 64 (fun _ => true)
      (fun _ => some (workflowWith [sampleState.dropLast])) [] = .ok workflow ∧ workflow.history = none :=
    ⟨_, rfl, rfl⟩
  refine ⟨workflow, hok, hnone, fun hkept => ?_⟩
  have hfind : find (workflowWith [sampleState.dropLast]) (.lit "history") = none := hkept.null_iff.1 hnone
  cases hfind

end MindConnect.Deployment
