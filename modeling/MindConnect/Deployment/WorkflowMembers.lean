import MindConnect.Deployment.DeploymentJson

/-!
# Which members of a workflow model are kept

At every level of the model the members are read in one row that ends at the first that is absent, and the result is
`MCL_OK`. `ModelShows` says that each member that is there appears in the structure, `WholeModel` what the members have
to be like for that: behind an absent one only defaults, null strings and false, and arrays whose size cJSON reports as
it is.
-/

namespace MindConnect.Deployment

open JsonUtil FieldChain

/-! ## Members that show -/

def find (json : Json) (name : CString) : Option Json := (getObjectItem json name).toOption

def ShowsString : Json → Option CString → Prop
  | .string s, v => v = some s
  | .null, v => v = none
  | _, _ => False

def ShowsBool : Json → Bool → Prop
  | .bool b, v => v = b
  | _, _ => False

def ShowsJson (child : Json) (v : Option Json) : Prop := v = some child

/-- The elements in order. -/
def ShowsList {α : Type} (Shows : Json → α → Prop) : Json → Option (CursorList α) → Prop
  | .array es, v => ∃ list, v = some list ∧ List.Forall₂ Shows es list.seq
  | _, _ => False

def Present (json : Json) (name : CString) (P : Json → Prop) : Prop := ∀ child ∈ find json name, P child

structure ModelStateShows (json : Json) (s : ModelState) : Prop where
  name : Present json (.lit "name") (ShowsString · s.name)
  description : Present json (.lit "description") (ShowsString · s.description)
  initial : Present json (.lit "initial") (ShowsBool · s.initial)
  final : Present json (.lit "final") (ShowsBool · s.final)
  cancel : Present json (.lit "cancel") (ShowsBool · s.cancel)

structure ModelTransitionShows (json : Json) (t : ModelTransition) : Prop where
  from' : Present json (.lit "from") (ShowsString · t.from')
  to' : Present json (.lit "to") (ShowsString · t.to')
  type : Present json (.lit "type") (ShowsString · t.type)
  details : Present json (.lit "details") (ShowsJson · t.details)

structure ModelStateGroupShows (json : Json) (g : ModelStateGroup) : Prop where
  name : Present json (.lit "name") (ShowsString · g.name)
  states : Present json (.lit "states") (ShowsList (fun item name => item = .string name) · g.states)

structure ModelShows (json : Json) (model : WorkflowModel) : Prop where
  key : Present json (.lit "key") (ShowsString · model.key)
  states : Present json (.lit "states") (ShowsList ModelStateShows · model.states)
  transitions : Present json (.lit "transitions") (ShowsList ModelTransitionShows · model.transitions)
  stateGroups : Present json (.lit "stateGroups") (ShowsList ModelStateGroupShows · model.stateGroups)

/-! ## Members that are whole -/

def stringMember (json : Json) (name : CString) : Member Json := ⟨find json name, fun _ => True, (· = .null)⟩

def boolMember (json : Json) (name : CString) : Member Json := ⟨find json name, fun _ => True, (· = .bool false)⟩

def jsonMember (json : Json) (name : CString) : Member Json := ⟨find json name, fun _ => True, fun _ => False⟩

/-- The loop visits all elements, and they are whole. -/
def WholeArray (w : Nat) (Whole : Json → Prop) : Json → Prop
  | .array es => visited w (.array es) = es ∧ ∀ e ∈ es, Whole e
  | _ => False

def arrayMember (w : Nat) (Whole : Json → Prop) (json : Json) (name : CString) : Member Json :=
  ⟨find json name, WholeArray w Whole, fun _ => False⟩

def WholeModelState (json : Json) : Prop :=
  WholeUpToAbsent [stringMember json (.lit "name"), stringMember json (.lit "description"),
    boolMember json (.lit "initial"), boolMember json (.lit "final"), boolMember json (.lit "cancel")]

def WholeModelTransition (json : Json) : Prop :=
  WholeUpToAbsent [stringMember json (.lit "from"), stringMember json (.lit "to"), stringMember json (.lit "type"),
    jsonMember json (.lit "details")]

def WholeModelStateGroup (w : Nat) (json : Json) : Prop :=
  WholeUpToAbsent [stringMember json (.lit "name"), arrayMember w (fun _ => True) json (.lit "states")]

def WholeModel (w : Nat) (json : Json) : Prop :=
  WholeUpToAbsent [stringMember json (.lit "key"), arrayMember w WholeModelState json (.lit "states"),
    arrayMember w WholeModelTransition json (.lit "transitions"),
    arrayMember w (WholeModelStateGroup w) json (.lit "stateGroups")]

/-! ## One field -/

section

variable {σ β γ : Type}

/-- A field of a record, with what it is before anything is read. -/
def field (json : Json) (name : CString) (read : Json → Result β) (set : σ → β → σ) (get : σ → β)
    (Shows : Json → β → Prop) (Whole Default : Json → Prop) : Field Json McError σ where
  member := find json name
  Whole := Whole
  Default := Default
  step s := do return set s (← parseField json name read)
  Shows child s := Shows child (get s)

theorem getObjectItem_error {json : Json} {name : CString} {e : McError} (h : getObjectItem json name = .error e) :
    e = .jsonNonExistingChild := by
  unfold getObjectItem at h
  split at h
  · split at h <;> cases h
    rfl
  · cases h
    rfl

theorem parseField_eq (json : Json) (name : CString) (read : Json → Result β) :
    parseField json name read =
      match find json name with
      | none => .error .jsonNonExistingChild
      | some child => read child := by
  rw [parseField, find]
  cases hitem : getObjectItem json name with
  | error e =>
    obtain rfl := getObjectItem_error hitem
    rfl
  | ok child => rfl

variable {json : Json} {name : CString} {read : Json → Result β} {set : σ → β → σ} {get : σ → β}
  {Shows : Json → β → Prop} {Whole Default : Json → Prop}

theorem field_lawful (hget : ∀ s v, get (set s v) = v) (hread : ∀ child e, read child = .error e → absent e = false)
    (hshows : ∀ child v, read child = .ok v → (Shows child v ↔ Whole child)) :
    (field json name read set get Shows Whole Default).Lawful absent := by
  constructor
  · intro hmember s
    have hmember : find json name = none := hmember
    refine ⟨.jsonNonExistingChild, ?_, rfl⟩
    simp only [field, parseField_eq, hmember]
    rfl
  · intro child hmember s e hstep
    have hmember : find json name = some child := hmember
    simp only [field, parseField_eq, hmember] at hstep
    cases hchild : read child with
    | ok v =>
      rw [hchild] at hstep
      cases hstep
    | error e' =>
      rw [hchild] at hstep
      cases hstep
      exact hread child e hchild
  · intro child hmember s s' hstep
    have hmember : find json name = some child := hmember
    simp only [field, parseField_eq, hmember] at hstep ⊢
    obtain ⟨v, hv, hset⟩ := bind_eq_ok hstep
    cases hset
    rw [hget]
    exact hshows child v hv

/-- A step leaves the fields that it does not set. -/
theorem field_spares {json' : Json} {name' : CString} {read' : Json → Result γ} {set' : σ → γ → σ} {get' : σ → γ}
    {Shows' : Json → γ → Prop} {Whole' Default' : Json → Prop} (h : ∀ s v, get' (set s v) = get' s) :
    (field json name read set get Shows Whole Default).Spares
      (field json' name' read' set' get' Shows' Whole' Default') := by
  intro child s s' hstep
  obtain ⟨v, -, hset⟩ := bind_eq_ok hstep
  cases hset
  simp only [field]
  rw [h]

end

/-! ## Values -/

theorem getString_absent {child : Json} {allocated : Bool} {e : McError} (h : getString child allocated = .error e) :
    absent e = false := by
  cases child with
  | string s =>
    cases allocated <;> cases h
    rfl
  | null => cases h
  | _ =>
    cases h
    rfl

theorem getString_shows {child : Json} {allocated : Bool} {v : Option CString}
    (h : getString child allocated = .ok v) : ShowsString child v ↔ True := by
  cases child with
  | string s =>
    cases allocated <;> cases h
    simp [ShowsString]
  | null =>
    cases h
    simp [ShowsString]
  | _ => cases h

theorem getBoolValue_absent {child : Json} {e : McError} (h : getBoolValue child = .error e) : absent e = false := by
  cases child <;> cases h <;> rfl

theorem getBoolValue_shows {child : Json} {v : Bool} (h : getBoolValue child = .ok v) : ShowsBool child v ↔ True := by
  cases child <;> cases h
  simp [ShowsBool]

theorem duplicate_absent {child : Json} {allocated : Bool} {e : McError} (h : duplicate allocated child = .error e) :
    absent e = false := by
  cases allocated <;> cases h
  rfl

theorem duplicate_shows {child : Json} {allocated : Bool} {v : Option Json} (h : duplicate allocated child = .ok v) :
    ShowsJson child v ↔ True := by
  cases allocated <;> cases h
  simp [ShowsJson]

/-! ## Arrays -/

section

variable {α : Type} {parse : Memory → Json → Result α}

/-- Each element, with its index and the allocations of its turn. -/
theorem parseItems_each {m : Memory} {es : List Json} {n index : Nat} (hi : index ≤ 2 ^ 31)
    {list list' : CursorList α} (h : parseItems m (.array es) parse n index list = .ok list') :
    ∃ ys, List.Forall₂ (fun e y => parse ((m.of e.2).of 0) e.1 = .ok y) (((es.drop index).take n).zipIdx index) ys ∧
      list' = ys.foldl CursorList.add list := by
  induction n generalizing index list with
  | zero =>
    cases h
    exact ⟨[], by simp, rfl⟩
  | succ n ih =>
    obtain ⟨item, hitem, h⟩ := bind_eq_ok h
    obtain ⟨x, hx, h⟩ := bind_eq_ok h
    obtain ⟨list1, hadd, h⟩ := bind_eq_ok h
    obtain ⟨hlt, hget⟩ := (getArrayItem_eq_ok hi).1 hitem
    obtain ⟨hindex, rfl⟩ := List.getElem?_eq_some_iff.1 hget
    unfold listAdd at hadd
    split_ifs at hadd
    cases hadd
    obtain ⟨ys, hys, rfl⟩ := ih (by omega) h
    refine ⟨x :: ys, ?_, rfl⟩
    rw [List.drop_eq_getElem_cons hindex, List.take_succ_cons, List.zipIdx_cons]
    exact .cons hx hys

theorem parseItems_ok {m : Memory} {es : List Json} {n index : Nat} (hi : index ≤ 2 ^ 31) {list list' : CursorList α}
    (h : parseItems m (.array es) parse n index list = .ok list') :
    ∃ ys, List.Forall₂ (fun e y => ∃ m', parse m' e = .ok y) ((es.drop index).take n) ys ∧
      list' = ys.foldl CursorList.add list := by
  obtain ⟨ys, hys, hlist⟩ := parseItems_each hi h
  refine ⟨ys, ?_, hlist⟩
  rw [← List.zipIdx_map_fst index ((es.drop index).take n), List.forall₂_map_left_iff]
  exact hys.imp fun e y hy => ⟨_, hy⟩

theorem parseArray_ok {w : Nat} {m : Memory} {child : Json} {v : Option (CursorList α)}
    (h : parseArray w m parse child = .ok v) :
    ∃ es list, child = .array es ∧ v = some list ∧
      List.Forall₂ (fun e y => ∃ m', parse m' e = .ok y) (visited w (.array es)) list.seq := by
  unfold parseArray at h
  split_ifs at h
  · obtain ⟨arraySize, hsize, h⟩ := bind_eq_ok h
    obtain ⟨list, hlist, h⟩ := bind_eq_ok h
    cases h
    cases child with
    | array es =>
      obtain ⟨ys, hys, rfl⟩ := parseItems_ok (by omega) hlist
      refine ⟨es, _, rfl, rfl, ?_⟩
      simpa [visited, hsize] using hys
    | _ => cases hsize
  · cases h

theorem parseItems_absent {array : Json}
    (hparse : ∀ i e', getArrayItem array i = .ok e' → ∀ m e, parse m e' = .error e → absent e = false) {m : Memory}
    {n index : Nat} {list : CursorList α} {e : McError} (h : parseItems m array parse n index list = .error e) :
    absent e = false := by
  induction n generalizing index list with
  | zero => cases h
  | succ n ih =>
    rw [parseItems] at h
    cases hitem : getArrayItem array index with
    | error e' =>
      rw [hitem] at h
      cases h
      unfold getArrayItem at hitem
      split at hitem
      · split_ifs at hitem
        · cases hitem
          rfl
        · split at hitem <;> cases hitem
          rfl
      · cases hitem
        rfl
    | ok item =>
      rw [hitem] at h
      cases hx : parse ((m.of index).of 0) item with
      | error e' =>
        simp only [bind, Except.bind, hx] at h
        cases h
        exact hparse _ _ hitem _ _ hx
      | ok x =>
        simp only [bind, Except.bind, hx, listAdd] at h
        split_ifs at h
        · exact ih h
        · cases h
          rfl

theorem parseArray_absent {child : Json}
    (hparse : ∀ i e', getArrayItem child i = .ok e' → ∀ m e, parse m e' = .error e → absent e = false) {w : Nat}
    {m : Memory} {e : McError} (h : parseArray w m parse child = .error e) : absent e = false := by
  unfold parseArray at h
  split_ifs at h
  · cases child with
    | array es =>
      simp only [getArraySize, bind, Except.bind, pure, Except.pure] at h
      cases hlist : parseItems (m.of 1) (.array es) parse (BitVec.ofInt w (toInt es.length)).toNat 0 .empty with
      | error e' =>
        rw [hlist] at h
        cases h
        exact parseItems_absent hparse hlist
      | ok list =>
        rw [hlist] at h
        cases h
    | _ =>
      cases h
      rfl
  · cases h
    rfl

theorem forall₂_iff_forall {β : Type} {Reads Shows : β → α → Prop} {Whole : β → Prop}
    (hiff : ∀ e y, Reads e y → (Shows e y ↔ Whole e)) {es : List β} {ys : List α} (h : List.Forall₂ Reads es ys) :
    List.Forall₂ Shows es ys ↔ ∀ e ∈ es, Whole e := by
  induction h with
  | nil => simp
  | cons hread _ ih => rw [List.forall₂_cons, List.forall_mem_cons, hiff _ _ hread, ih]

/-- A list shows its array if all elements are visited and show. -/
theorem parseArray_shows {Shows : Json → α → Prop} {Whole : Json → Prop}
    (hiff : ∀ m e y, parse m e = .ok y → (Shows e y ↔ Whole e)) {w : Nat} {m : Memory} {child : Json}
    {v : Option (CursorList α)} (h : parseArray w m parse child = .ok v) :
    ShowsList Shows child v ↔ WholeArray w Whole child := by
  obtain ⟨es, list, rfl, rfl, hparsed⟩ := parseArray_ok h
  have hreads : ∀ e y, (∃ m', parse m' e = .ok y) → (Shows e y ↔ Whole e) := by
    rintro e y ⟨m', hy⟩
    exact hiff m' e y hy
  simp only [ShowsList, WholeArray, Option.some.injEq, exists_eq_left']
  constructor
  · intro hshows
    -- as many elements as the array has, so the loop has visited them all
    have hlength : (visited w (.array es)).length = es.length := hparsed.length_eq.trans hshows.length_eq.symm
    have hall : visited w (.array es) = es := by
      simp only [visited, getArraySize] at hlength ⊢
      rw [List.length_take] at hlength
      exact List.take_of_length_le (by omega)
    rw [hall] at hparsed
    exact ⟨hall, (forall₂_iff_forall hreads hparsed).1 hshows⟩
  · rintro ⟨hall, hwhole⟩
    rw [hall] at hparsed
    exact (forall₂_iff_forall hreads hparsed).2 hwhole

end

/-! ## The levels of the model -/

section

variable {σ : Type}

def stringField (allocated : Bool) (json : Json) (name : CString) (set : σ → Option CString → σ)
    (get : σ → Option CString) : Field Json McError σ :=
  field json name (getString · allocated) set get ShowsString (fun _ => True) (· = .null)

def boolField (json : Json) (name : CString) (set : σ → Bool → σ) (get : σ → Bool) : Field Json McError σ :=
  field json name getBoolValue set get ShowsBool (fun _ => True) (· = .bool false)

def jsonField (allocated : Bool) (json : Json) (name : CString) (set : σ → Option Json → σ) (get : σ → Option Json) :
    Field Json McError σ :=
  field json name (duplicate allocated) set get ShowsJson (fun _ => True) fun _ => False

def arrayField {α : Type} (w : Nat) (m : Memory) (parse : Memory → Json → Result α) (Shows : Json → α → Prop)
    (Whole : Json → Prop) (json : Json) (name : CString) (set : σ → Option (CursorList α) → σ)
    (get : σ → Option (CursorList α)) : Field Json McError σ :=
  field json name (parseArray w m parse) set get (ShowsList Shows) (WholeArray w Whole) fun _ => False

variable {json : Json} {name : CString}

theorem showsString_none (child : Json) : ShowsString child none ↔ child = .null := by
  cases child <;> simp [ShowsString]

theorem showsBool_false (child : Json) : ShowsBool child false ↔ child = .bool false := by
  cases child <;> simp [ShowsBool, eq_comm]

theorem showsJson_none (child : Json) : ShowsJson child none ↔ False := by simp [ShowsJson]

theorem showsList_none {α : Type} (Shows : Json → α → Prop) (child : Json) : ShowsList Shows child none ↔ False := by
  cases child <;> simp [ShowsList]

variable {initial : σ}

theorem stringField_starts {allocated : Bool} {set : σ → Option CString → σ} {get : σ → Option CString}
    (hget : ∀ s v, get (set s v) = v) (hnone : get initial = none) :
    (stringField allocated json name set get).Starts absent initial where
  toLawful := field_lawful hget (fun _ _ => getString_absent) fun _ _ => getString_shows
  default child := (congrArg (ShowsString child) hnone).to_iff.trans (showsString_none child)

theorem boolField_starts {set : σ → Bool → σ} {get : σ → Bool} (hget : ∀ s v, get (set s v) = v)
    (hfalse : get initial = false) : (boolField json name set get).Starts absent initial where
  toLawful := field_lawful hget (fun _ _ => getBoolValue_absent) fun _ _ => getBoolValue_shows
  default child := (congrArg (ShowsBool child) hfalse).to_iff.trans (showsBool_false child)

theorem jsonField_starts {allocated : Bool} {set : σ → Option Json → σ} {get : σ → Option Json}
    (hget : ∀ s v, get (set s v) = v) (hnone : get initial = none) :
    (jsonField allocated json name set get).Starts absent initial where
  toLawful := field_lawful hget (fun _ _ => duplicate_absent) fun _ _ => duplicate_shows
  default child := (congrArg (ShowsJson child) hnone).to_iff.trans (showsJson_none child)

theorem arrayField_starts {α : Type} {w : Nat} {m : Memory} {parse : Memory → Json → Result α}
    {Shows : Json → α → Prop} {Whole : Json → Prop} {set : σ → Option (CursorList α) → σ}
    {get : σ → Option (CursorList α)} (hparse : ∀ m child e, parse m child = .error e → absent e = false)
    (hiff : ∀ m child y, parse m child = .ok y → (Shows child y ↔ Whole child)) (hget : ∀ s v, get (set s v) = v)
    (hnone : get initial = none) : (arrayField w m parse Shows Whole json name set get).Starts absent initial where
  toLawful := field_lawful hget (fun _ _ => parseArray_absent fun _ _ _ _ _ => hparse _ _ _)
    fun _ _ => parseArray_shows hiff
  default child := (congrArg (ShowsList Shows child) hnone).to_iff.trans (showsList_none Shows child)

/-- What the chain of a level has done, field by field. -/
theorem fillOptional_shows_iff {allocated : Bool} {fields : List (Field Json McError σ)}
    {initial s : σ} (hstarts : ∀ f ∈ fields, f.Starts absent initial)
    (hapart : fields.Pairwise fun f g => f.Spares g ∧ g.Spares f)
    (h : fillOptional allocated (fields.map Field.step) initial = .ok s) :
    (∀ f ∈ fields, ∀ child ∈ f.member, f.Shows child s) ↔ WholeUpToAbsent (fields.map Field.toMember) := by
  unfold fillOptional at h
  split_ifs at h
  exact readAll_shows_iff hstarts hapart h

/-- A chain does not fail because a child is absent. -/
theorem fillOptional_absent {allocated : Bool} {steps : List (σ → Result σ)} {initial : σ} {e : McError}
    (h : fillOptional allocated steps initial = .error e) : absent e = false := by
  unfold fillOptional at h
  split_ifs at h
  · exact absent_of_readAll_error h
  · cases h
    rfl

end

def modelStateFields (m : Memory) (json : Json) : List (Field Json McError ModelState) := [
  stringField (m [1]) json (.lit "name") (fun s v => { s with name := v }) ModelState.name,
  stringField (m [2]) json (.lit "description") (fun s v => { s with description := v }) ModelState.description,
  boolField json (.lit "initial") (fun s v => { s with initial := v }) ModelState.initial,
  boolField json (.lit "final") (fun s v => { s with final := v }) ModelState.final,
  boolField json (.lit "cancel") (fun s v => { s with cancel := v }) ModelState.cancel]

theorem parseWorkflowModelState_shows {m : Memory} {json : Json} {s : ModelState}
    (h : parseWorkflowModelState m json = .ok s) : ModelStateShows json s ↔ WholeModelState json := by
  have hstarts : ∀ f ∈ modelStateFields m json, f.Starts absent ⟨none, none, false, false, false⟩ := by
    simp only [modelStateFields, List.forall_mem_cons, List.not_mem_nil, false_implies, implies_true, and_true]
    exact ⟨stringField_starts (fun _ _ => rfl) rfl, stringField_starts (fun _ _ => rfl) rfl,
      boolField_starts (fun _ _ => rfl) rfl, boolField_starts (fun _ _ => rfl) rfl, boolField_starts (fun _ _ => rfl) rfl⟩
  have hapart : (modelStateFields m json).Pairwise fun f g => f.Spares g ∧ g.Spares f := by
    simp only [modelStateFields, List.pairwise_cons, List.forall_mem_cons, List.not_mem_nil, false_implies,
      implies_true, and_true, List.Pairwise.nil]
    and_intros <;> exact field_spares fun _ _ => rfl
  refine Iff.trans ?_ (fillOptional_shows_iff hstarts hapart h)
  simp only [modelStateFields, List.forall_mem_cons, List.not_mem_nil, false_implies, implies_true, and_true]
  exact ⟨fun ⟨h1, h2, h3, h4, h5⟩ => ⟨h1, h2, h3, h4, h5⟩, fun ⟨h1, h2, h3, h4, h5⟩ => ⟨h1, h2, h3, h4, h5⟩⟩

def modelTransitionFields (m : Memory) (json : Json) : List (Field Json McError ModelTransition) := [
  stringField (m [1]) json (.lit "from") (fun s v => { s with from' := v }) ModelTransition.from',
  stringField (m [2]) json (.lit "to") (fun s v => { s with to' := v }) ModelTransition.to',
  stringField (m [3]) json (.lit "type") (fun s v => { s with type := v }) ModelTransition.type,
  jsonField (m [4]) json (.lit "details") (fun s v => { s with details := v }) ModelTransition.details]

theorem parseWorkflowModelTransition_shows {m : Memory} {json : Json} {t : ModelTransition}
    (h : parseWorkflowModelTransition m json = .ok t) : ModelTransitionShows json t ↔ WholeModelTransition json := by
  have hstarts : ∀ f ∈ modelTransitionFields m json, f.Starts absent ⟨none, none, none, none⟩ := by
    simp only [modelTransitionFields, List.forall_mem_cons, List.not_mem_nil, false_implies, implies_true, and_true]
    exact ⟨stringField_starts (fun _ _ => rfl) rfl, stringField_starts (fun _ _ => rfl) rfl,
      stringField_starts (fun _ _ => rfl) rfl, jsonField_starts (fun _ _ => rfl) rfl⟩
  have hapart : (modelTransitionFields m json).Pairwise fun f g => f.Spares g ∧ g.Spares f := by
    simp only [modelTransitionFields, List.pairwise_cons, List.forall_mem_cons, List.not_mem_nil, false_implies,
      implies_true, and_true, List.Pairwise.nil]
    and_intros <;> exact field_spares fun _ _ => rfl
  refine Iff.trans ?_ (fillOptional_shows_iff hstarts hapart h)
  simp only [modelTransitionFields, List.forall_mem_cons, List.not_mem_nil, false_implies, implies_true, and_true]
  exact ⟨fun ⟨h1, h2, h3, h4⟩ => ⟨h1, h2, h3, h4⟩, fun ⟨h1, h2, h3, h4⟩ => ⟨h1, h2, h3, h4⟩⟩

theorem parseStateName_absent {m : Memory} {item : Json} {e : McError} (h : parseStateName m item = .error e) :
    absent e = false := by
  unfold parseStateName at h
  cases hitem : getString item (m [0]) with
  | error e' =>
    rw [hitem] at h
    cases h
    exact getString_absent hitem
  | ok v =>
    rw [hitem] at h
    cases v with
    | none =>
      cases h
      rfl
    | some name => cases h

theorem parseStateName_shows {m : Memory} {item : Json} {name : CString} (h : parseStateName m item = .ok name) :
    item = .string name ↔ True := by
  obtain ⟨v, hitem, h⟩ := bind_eq_ok h
  cases v with
  | none => cases h
  | some name' =>
    cases h
    cases item with
    | string s =>
      cases hm : m [0] <;> simp [getString, hm] at hitem
      simp [hitem]
    | _ => cases hitem

def modelStateGroupFields (w : Nat) (m : Memory) (json : Json) : List (Field Json McError ModelStateGroup) := [
  stringField (m [1]) json (.lit "name") (fun s v => { s with name := v }) ModelStateGroup.name,
  arrayField w (m.of 2) parseStateName (fun item name => item = .string name) (fun _ => True) json (.lit "states")
    (fun s v => { s with states := v }) ModelStateGroup.states]

theorem parseWorkflowModelStateGroup_shows {w : Nat} {m : Memory} {json : Json} {g : ModelStateGroup}
    (h : parseWorkflowModelStateGroup w m json = .ok g) : ModelStateGroupShows json g ↔ WholeModelStateGroup w json := by
  have hstarts : ∀ f ∈ modelStateGroupFields w m json, f.Starts absent ⟨none, none⟩ := by
    simp only [modelStateGroupFields, List.forall_mem_cons, List.not_mem_nil, false_implies, implies_true, and_true]
    exact ⟨stringField_starts (fun _ _ => rfl) rfl,
      arrayField_starts (fun _ _ _ => parseStateName_absent) (fun _ _ _ => parseStateName_shows) (fun _ _ => rfl) rfl⟩
  have hapart : (modelStateGroupFields w m json).Pairwise fun f g => f.Spares g ∧ g.Spares f := by
    simp only [modelStateGroupFields, List.pairwise_cons, List.forall_mem_cons, List.not_mem_nil, false_implies,
      implies_true, and_true, List.Pairwise.nil]
    and_intros <;> exact field_spares fun _ _ => rfl
  refine Iff.trans ?_ (fillOptional_shows_iff hstarts hapart h)
  simp only [modelStateGroupFields, List.forall_mem_cons, List.not_mem_nil, false_implies, implies_true, and_true]
  exact ⟨fun ⟨h1, h2⟩ => ⟨h1, h2⟩, fun ⟨h1, h2⟩ => ⟨h1, h2⟩⟩

def modelFields (w : Nat) (m : Memory) (json : Json) : List (Field Json McError WorkflowModel) := [
  stringField (m [1]) json (.lit "key") (fun s v => { s with key := v }) WorkflowModel.key,
  arrayField w (m.of 2) parseWorkflowModelState ModelStateShows WholeModelState json (.lit "states")
    (fun s v => { s with states := v }) WorkflowModel.states,
  arrayField w (m.of 3) parseWorkflowModelTransition ModelTransitionShows WholeModelTransition json (.lit "transitions")
    (fun s v => { s with transitions := v }) WorkflowModel.transitions,
  arrayField w (m.of 4) (parseWorkflowModelStateGroup w) ModelStateGroupShows (WholeModelStateGroup w) json
    (.lit "stateGroups") (fun s v => { s with stateGroups := v }) WorkflowModel.stateGroups]

theorem parseModelObject_shows {w : Nat} {m : Memory} {object : Json} {model : WorkflowModel}
    (h : parseModelObject w m object = .ok model) : ModelShows object model ↔ WholeModel w object := by
  have hstarts : ∀ f ∈ modelFields w m object, f.Starts absent ⟨none, none, none, none⟩ := by
    simp only [modelFields, List.forall_mem_cons, List.not_mem_nil, false_implies, implies_true, and_true]
    exact ⟨stringField_starts (fun _ _ => rfl) rfl,
      arrayField_starts (fun _ _ _ => fillOptional_absent) (fun _ _ _ => parseWorkflowModelState_shows)
        (fun _ _ => rfl) rfl,
      arrayField_starts (fun _ _ _ => fillOptional_absent) (fun _ _ _ => parseWorkflowModelTransition_shows)
        (fun _ _ => rfl) rfl,
      arrayField_starts (fun _ _ _ => fillOptional_absent) (fun _ _ _ => parseWorkflowModelStateGroup_shows)
        (fun _ _ => rfl) rfl⟩
  have hapart : (modelFields w m object).Pairwise fun f g => f.Spares g ∧ g.Spares f := by
    simp only [modelFields, List.pairwise_cons, List.forall_mem_cons, List.not_mem_nil, false_implies, implies_true,
      and_true, List.Pairwise.nil]
    and_intros <;> exact field_spares fun _ _ => rfl
  refine Iff.trans ?_ (fillOptional_shows_iff hstarts hapart h)
  simp only [modelFields, List.forall_mem_cons, List.not_mem_nil, false_implies, implies_true, and_true]
  exact ⟨fun ⟨h1, h2, h3, h4⟩ => ⟨h1, h2, h3, h4⟩, fun ⟨h1, h2, h3, h4⟩ => ⟨h1, h2, h3, h4⟩⟩

/-! ## A workflow -/

/-- A workflow that is parsed has its model, if there is one. -/
theorem model_of_parse {w : Nat} {m : Memory} {parse : Bytes → Option Json} {text : Bytes} {json object : Json}
    {workflow : Workflow} (hjson : parse text = some json) (hmodel : find json (.lit "model") = some object)
    (h : deploymentJsonParseWorkflow w m parse text = .ok workflow) :
    ∃ model, workflow.model = some model ∧ parseModelObject w (m.of 6) object = .ok model := by
  rw [deploymentJsonParseWorkflow, hjson] at h
  have hobject : getObjectItem json (.lit "model") = .ok object := by
    rw [find] at hmodel
    cases hitem : getObjectItem json (.lit "model") with
    | error e =>
      rw [hitem] at hmodel
      cases hmodel
    | ok child =>
      rw [hitem] at hmodel
      cases hmodel
      rfl
  simp only [parseWorkflow] at h
  split_ifs at h
  · obtain ⟨id, -, h⟩ := bind_eq_ok h
    obtain ⟨deviceId, -, h⟩ := bind_eq_ok h
    obtain ⟨createdAt, -, h⟩ := bind_eq_ok h
    obtain ⟨currentState, -, h⟩ := bind_eq_ok h
    obtain ⟨history, -, h⟩ := bind_eq_ok h
    obtain ⟨model, hparsed, h⟩ := bind_eq_ok h
    obtain ⟨data, -, h⟩ := bind_eq_ok h
    cases h
    simp only [parseWorkflowModel, hobject] at hparsed
    cases hresult : parseModelObject w (m.of 6) object with
    | error e =>
      rw [hresult] at hparsed
      cases hparsed
    | ok model' =>
      rw [hresult] at hparsed
      cases hparsed
      exact ⟨model', rfl, rfl⟩
  · cases h

/-- The workflow has a model, in which every member shows that is there. -/
def KeepsModel (object : Json) (workflow : Workflow) : Prop :=
  ∃ model, workflow.model = some model ∧ ModelShows object model

theorem keepsModel_of_parse {w : Nat} {m : Memory} {parse : Bytes → Option Json} {text : Bytes} {json object : Json}
    {workflow : Workflow} (hjson : parse text = some json) (hmodel : find json (.lit "model") = some object)
    (h : deploymentJsonParseWorkflow w m parse text = .ok workflow) :
    KeepsModel object workflow ↔ WholeModel w object := by
  obtain ⟨model, hworkflow, hparsed⟩ := model_of_parse hjson hmodel h
  rw [KeepsModel, hworkflow, ← parseModelObject_shows hparsed]
  simp only [Option.some.injEq, exists_eq_left']

/-- A parsed workflow keeps its model if and only if, at each level and in the order of reading, what stands behind the
first absent member is a default, and the arrays are as long as cJSON says. -/
theorem deploymentJsonParseWorkflow_keepsModel_iff (w : Nat) (m : Memory) (parse : Bytes → Option Json) (text : Bytes)
    (json object : Json) (workflow : Workflow) (hjson : parse text = some json)
    (hmodel : find json (.lit "model") = some object) (h : deploymentJsonParseWorkflow w m parse text = .ok workflow) :
    KeepsModel object workflow ↔ WholeModel w object :=
  keepsModel_of_parse hjson hmodel h

/-- A workflow with that model. -/
def sampleWorkflow (model : Json) : Json :=
  .object [(.lit "id", .string (.lit "1")), (.lit "deviceId", .string (.lit "d")),
    (.lit "createdAt", .string (.lit "2019-01-31T23:59:59.999Z")),
    (.lit "currentState", .object [(.lit "state", .string (.lit "A")), (.lit "progress", .number (ascii "0")),
      (.lit "entered", .null), (.lit "updated", .null), (.lit "message", .null), (.lit "details", .object [])]),
    (.lit "model", model), (.lit "data", .object [])]

/-- A key and these states. -/
def sampleModel (states : List (List (CString × Json))) : Json :=
  .object [(.lit "key", .string (.lit "k")), (.lit "states", .array (states.map .object))]

/-- A state with a description that is the initial one, and one with its name alone. -/
def twoStates : List (List (CString × Json)) :=
  [[(.lit "name", .string (.lit "A")), (.lit "description", .string (.lit "a")), (.lit "initial", .bool true)],
    [(.lit "name", .string (.lit "B"))]]

theorem twoStates_kept :
    ∃ workflow, deploymentJsonParseWorkflow 64 (fun _ => true)
        (fun _ => some (sampleWorkflow (sampleModel twoStates))) [] = .ok workflow ∧
      (KeepsModel (sampleModel twoStates) workflow ↔ WholeModel 64 (sampleModel twoStates)) := by
  obtain ⟨workflow, hok⟩ : ∃ workflow, deploymentJsonParseWorkflow 64 (fun _ => true)
      (fun _ => some (sampleWorkflow (sampleModel twoStates))) [] = .ok workflow := ⟨_, rfl⟩
  exact ⟨workflow, hok, deploymentJsonParseWorkflow_keepsModel_iff _ _ _ _ _ _ _ rfl rfl hok⟩

/-- A state without a description that is the initial one. -/
def initialState : List (CString × Json) := [(.lit "name", .string (.lit "A")), (.lit "initial", .bool true)]

/-- It is parsed, and the state is not the initial one any more. -/
theorem initialState_lost :
    ∃ workflow, deploymentJsonParseWorkflow 64 (fun _ => true)
        (fun _ => some (sampleWorkflow (sampleModel [initialState]))) [] = .ok workflow ∧
      ¬ KeepsModel (sampleModel [initialState]) workflow := by
  obtain ⟨workflow, hok⟩ : ∃ workflow, deploymentJsonParseWorkflow 64 (fun _ => true)
      (fun _ => some (sampleWorkflow (sampleModel [initialState]))) [] = .ok workflow := ⟨_, rfl⟩
  refine ⟨workflow, hok, fun hkeeps => ?_⟩
  have hwhole : WholeModel 64 (sampleModel [initialState]) := (keepsModel_of_parse rfl rfl hok).1 hkeeps
  have hstate : WholeModelState (.object initialState) := hwhole.2.1.2 _ List.mem_cons_self
  have hdefault := hstate.2 (boolMember (.object initialState) (.lit "initial")) List.mem_cons_self (.bool true) rfl
  cases hdefault

end MindConnect.Deployment
