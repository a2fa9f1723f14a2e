import MindConnect.Connectivity.JsonEncode
import MindConnect.Core.JsonForest

/-!
# The payload of an event when its steps fail

`EventSteps` says what each step of `_json_from_event_payload` comes to. A member may also be lost: without memory the
builder leaves it out and answers `MCL_OK` (`addString_outcome`). The branch that creates empty details runs after any earlier
error, and its code takes the place of that error.

| here | there |
| --- | --- |
| `addMember` | `mcl_json_util_add_string`, `_add_uint`, `_add_object` with their null checks (`json_util.c:257`, …) |
| `eventFields`, `addField` | the additions before the details (`json.c:617`-`:660`) |
| `createDetails` | `json.c:663`-`:670` |
| `addEventObject` | `_add_event_to_payload_array` (`json.c:606`) |
| `jsonFromEventPayload` | `_json_from_event_payload` (`json.c:399`): the code and `*json_string` |
-/

namespace MindConnect

open JsonUtil

/-! ## The code -/

inductive StepOutcome where
  | done
  | failed (e : McError)
  | lost
deriving DecidableEq

structure EventSteps where
  array : Result Unit
  object : Result Unit
  add : PayloadFieldName → StepOutcome
  duplicate : Result Unit
  emptyDetails : Result Unit
  text : Result Unit

/-- An addition to an object, or value, that may be null. -/
def addMember (outcome : StepOutcome) (root : Option Members) (name : CString) (value : Option Json) :
    Result Unit × Option Members :=
  match root, value with
  | some members, some value =>
    match checkName members name, outcome with
    | .error e, _ => (.error e, root)
    | .ok (), .failed e => (.error e, root)
    | .ok (), .lost => (.ok (), root)
    | .ok (), .done => (.ok (), some (members ++ [(name, value)]))
  | _, _ => (.error .triggeredWithNull, root)

/-- The fields in order; a correlation id and a description only if they are neither null nor empty. -/
def eventFields (e : Event) : List (PayloadFieldName × Option Json) :=
  [(.id, some (.string e.id))] ++
    (nonEmpty e.correlationId).toList.map (fun s => (.correlationId, some (.string s))) ++
    [(.timestamp, some (.string e.timestamp)), (.severity, some (.number (numberText e.severity)))] ++
    (nonEmpty e.description).toList.map (fun s => (.description, some (.string s))) ++
    [(.type, e.type.map .string), (.version, e.version.map .string)]

/-- `if (MCL_OK == code)` around one addition -/
def addField (steps : EventSteps) (state : Result Unit × Option Members)
    (field : PayloadFieldName × Option Json) : Result Unit × Option Members :=
  match state.1 with
  | .ok () => addMember (steps.add field.1) state.2 (payloadFieldNames field.1) field.2
  | .error _ => state

def createDetails (steps : EventSteps) (e : Event) (code : Result Unit) : Result Json :=
  match code, e.details with
  | .ok (), some details => steps.duplicate.map fun _ => details
  | _, _ => steps.emptyDetails.map fun _ => .object []

/-- The code and the elements of the array. -/
def addEventObject (steps : EventSteps) (e : Event) (array : List Json) : Result Unit × List Json :=
  let (code, object) := (eventFields e).foldl (addField steps)
    (steps.object, match steps.object with | .ok () => some [] | .error _ => none)
  match createDetails steps e code with
  | .error e => (.error e, array)
  | .ok details =>
    match addMember (steps.add .details) object (payloadFieldNames .details) (some details) with
    | (.error e, _) => (.error e, array)
    | (.ok (), none) => (.error .triggeredWithNull, array)
    | (.ok (), some members) => (.ok (), array ++ [.object members])

def jsonFromEventPayload (steps : EventSteps) (e : Event) : Result Unit × Option Bytes :=
  match steps.array with
  | .error e => (.error e, none)
  | .ok () =>
    match addEventObject steps e [] with
    | (.error e, _) => (.error e, none)
    | (.ok (), array) =>
      match steps.text with
      | .error e => (.error e, none)
      | .ok () => (.ok (), some (Json.array array).print)

/-! ## What is promised -/

/-- The step that ends in the details of this event. -/
def detailsOutcome (steps : EventSteps) (e : Event) : Result Unit :=
  match e.details with
  | some _ => steps.duplicate
  | none => steps.emptyDetails

/-- Every field has a value and gets added. -/
def FieldsDone (steps : EventSteps) (e : Event) : Prop :=
  ∀ field ∈ eventFields e, field.2.isSome ∧ steps.add field.1 = .done

/-- No step that the event takes fails. -/
structure AllDone (steps : EventSteps) (e : Event) : Prop where
  array : steps.array = .ok ()
  object : steps.object = .ok ()
  fields : FieldsDone steps e
  details : detailsOutcome steps e = .ok ()
  addDetails : steps.add .details = .done
  text : steps.text = .ok ()

/-- `MCL_OK` only with the whole event, and an error without text after any failure. -/
structure NothingDropped (steps : EventSteps) (e : Event) : Prop where
  text : (jsonFromEventPayload steps e).1 = .ok () → e.type.isSome ∧ e.version.isSome ∧
    (jsonFromEventPayload steps e).2 = some (Json.array [eventTree e]).print
  error : ¬ AllDone steps e → ∃ e', jsonFromEventPayload steps e = (.error e', none)

/-- An addition answers with an error, of its own or because its value is null. -/
def Reported (steps : EventSteps) (fields : List (PayloadFieldName × Option Json)) : Prop :=
  ∃ field ∈ fields, field.2 = none ∨ ∃ e, steps.add field.1 = .failed e

instance (outcome : StepOutcome) : Decidable (∃ e, outcome = .failed e) :=
  match outcome with
  | .failed e => .isTrue ⟨e, rfl⟩
  | .done => .isFalse nofun
  | .lost => .isFalse nofun

instance (steps : EventSteps) (fields : List (PayloadFieldName × Option Json)) :
    Decidable (Reported steps fields) :=
  inferInstanceAs (Decidable (∃ field ∈ fields, field.2 = none ∨ ∃ e, steps.add field.1 = .failed e))

/-- The step taken for the details: after a reported failure empty ones are created. -/
def detailsTaken (steps : EventSteps) (e : Event) : Result Unit :=
  if Reported steps (eventFields e) then steps.emptyDetails else detailsOutcome steps e

/-- Nothing is dropped where the array and the event's object are created, the details that come next as well, adding
them reports nothing, and there is a text. -/
def Caught (steps : EventSteps) (e : Event) : Prop :=
  steps.array = .ok () → steps.object = .ok () → detailsTaken steps e = .ok () →
    (∀ e', steps.add .details ≠ .failed e') → steps.text = .ok () →
    FieldsDone steps e ∧ steps.add .details = .done

/-! ## The fields -/

section

variable {steps : EventSteps} {ms : Members} {name : CString}

theorem addMember_eq (outcome : StepOutcome) (hnew : Json.lookup name ms = none) (value : Json) :
    addMember outcome (some ms) name (some value) =
      match outcome with
      | .failed e => (.error e, some ms)
      | .lost => (.ok (), some ms)
      | .done => (.ok (), some (ms ++ [(name, value)])) := by
  cases outcome <;> simp only [addMember, checkName_eq hnew]

/-- The member of a field whose value is not null. -/
def fieldMember (field : PayloadFieldName × Option Json) : CString × Json :=
  (payloadFieldNames field.1, field.2.getD .null)

theorem foldl_addField_error (e : McError) (object : Option Members)
    (fields : List (PayloadFieldName × Option Json)) :
    fields.foldl (addField steps) (.error e, object) = (.error e, object) := by
  induction fields with
  | nil => rfl
  | cons field fields ih => rw [List.foldl_cons, addField, ih]

/-- What the additions of these fields to `ms` come to: an error if one reports a failure, and members of the fields,
all of them if all are done. -/
structure AddsFields (steps : EventSteps) (fields : List (PayloadFieldName × Option Json)) (ms : Members)
    (code : Result Unit) (added : Members) : Prop where
  fold : fields.foldl (addField steps) (.ok (), some ms) = (code, some (ms ++ added))
  names : ∀ m ∈ added, ∃ field ∈ fields, m.1 = payloadFieldNames field.1
  error : Reported steps fields → ∃ e, code = .error e
  ok : ¬ Reported steps fields → code = .ok ()
  all : (∀ field ∈ fields, field.2.isSome ∧ steps.add field.1 = .done) → added = fields.map fieldMember

section

variable {field : PayloadFieldName × Option Json} {fields : List (PayloadFieldName × Option Json)}

/-- The first addition reports a failure: the others are left out. -/
theorem addsFields_stop {e : McError} (hstep : addField steps (.ok (), some ms) field = (.error e, some ms))
    (hreported : field.2 = none ∨ ∃ e, steps.add field.1 = .failed e) :
    AddsFields steps (field :: fields) ms (.error e) [] where
  fold := by rw [List.foldl_cons, hstep, foldl_addField_error, List.append_nil]
  names := by simp
  error _ := ⟨e, rfl⟩
  ok hnot := absurd ⟨field, List.mem_cons_self, hreported⟩ hnot
  all hdone := by
    obtain ⟨hsome, hadd⟩ := hdone field List.mem_cons_self
    rcases hreported with hnone | ⟨e, hfailed⟩
    · rw [hnone] at hsome
      cases hsome
    · rw [hfailed] at hadd
      cases hadd

/-- The first addition reports nothing, and has a member or none. -/
theorem addsFields_go {own : Members} (hstep : addField steps (.ok (), some ms) field = (.ok (), some (ms ++ own)))
    (hown : ∀ m ∈ own, m.1 = payloadFieldNames field.1)
    (hquiet : ¬ (field.2 = none ∨ ∃ e, steps.add field.1 = .failed e))
    (hdone : steps.add field.1 = .done → own = [fieldMember field]) {code : Result Unit} {added : Members}
    (hrest : AddsFields steps fields (ms ++ own) code added) :
    AddsFields steps (field :: fields) ms code (own ++ added) := by
  have hreported : Reported steps (field :: fields) ↔ Reported steps fields := by
    simp only [Reported, List.mem_cons, exists_eq_or_imp, hquiet, false_or]
  refine ⟨?_, fun m hm => ?_, ?_, ?_, fun h => ?_⟩
  · rw [List.foldl_cons, hstep, hrest.fold, List.append_assoc]
  · rcases List.mem_append.1 hm with hm | hm
    · exact ⟨field, List.mem_cons_self, hown m hm⟩
    · obtain ⟨g, hg, hname⟩ := hrest.names m hm
      exact ⟨g, List.mem_cons_of_mem _ hg, hname⟩
  · rw [hreported]
    exact hrest.error
  · rw [hreported]
    exact hrest.ok
  · obtain ⟨hfirst, hothers⟩ := List.forall_mem_cons.1 h
    rw [hdone hfirst.2, hrest.all hothers]
    rfl

end

variable (steps) in
/-- Additions under new names. -/
theorem addsFields (fields : List (PayloadFieldName × Option Json)) :
    ∀ ms : Members, (∀ field ∈ fields, Json.lookup (payloadFieldNames field.1) ms = none) →
      fields.Pairwise (fun f g => Json.sameName (payloadFieldNames g.1) (payloadFieldNames f.1) = false) →
      ∃ code added, AddsFields steps fields ms code added := by
  induction fields with
  | nil =>
    intro ms _ _
    refine ⟨.ok (), [], by simp, by simp, ?_, fun _ => rfl, fun _ => rfl⟩
    rintro ⟨field, hfield, -⟩
    cases hfield
  | cons field fields ih =>
    intro ms hnew hdistinct
    obtain ⟨f, value⟩ := field
    obtain ⟨hfirst, hrest⟩ := List.forall_mem_cons.1 hnew
    obtain ⟨hother, hdistinct⟩ := List.pairwise_cons.1 hdistinct
    have hgo : ∀ own : Members, (∀ m ∈ own, m.1 = payloadFieldNames f) →
        ∃ code added, AddsFields steps fields (ms ++ own) code added := by
      intro own hown
      refine ih (ms ++ own) (fun g hg => ?_) hdistinct
      rw [Json.lookup_append, hrest g hg, Option.none_or]
      refine Json.lookup_eq_none fun m hm => ?_
      rw [hown m hm]
      exact hother g hg
    cases value with
    | none => exact ⟨.error .triggeredWithNull, [], addsFields_stop rfl (.inl rfl)⟩
    | some v =>
      have hstep := addMember_eq (steps.add f) hfirst v
      cases hadd : steps.add f with
      | failed e =>
        rw [hadd] at hstep
        refine ⟨.error e, [], addsFields_stop ?_ (.inr ⟨e, hadd⟩)⟩
        rw [addField, hadd]
        exact hstep
      | lost =>
        obtain ⟨code, added, h⟩ := hgo [] (by simp)
        rw [hadd] at hstep
        refine ⟨code, [] ++ added, addsFields_go ?_ (by simp) (by simp [hadd]) ?_ h⟩
        · rw [addField, hadd, List.append_nil]
          exact hstep
        · rw [hadd]
          nofun
      | done =>
        obtain ⟨code, added, h⟩ := hgo [(payloadFieldNames f, v)] (by simp)
        rw [hadd] at hstep
        refine ⟨code, [(payloadFieldNames f, v)] ++ added, addsFields_go ?_ (by simp) (by simp [hadd]) ?_ h⟩
        · rw [addField, hadd]
          exact hstep
        · intro _
          rfl

theorem eventFields_names (e : Event) :
    ((eventFields e).map Prod.fst).Sublist [.id, .correlationId, .timestamp, .severity, .description, .type, .version] := by
  unfold eventFields
  cases nonEmpty e.correlationId <;> cases nonEmpty e.description <;>
    simp only [Option.toList_none, Option.toList_some, List.map_nil, List.map_cons, List.append_nil,
      List.cons_append, List.nil_append] <;>
    decide

theorem names_distinct : ([.id, .correlationId, .timestamp, .severity, .description, .type, .version, .details] :
    List PayloadFieldName).Pairwise
      (fun f g => Json.sameName (payloadFieldNames g) (payloadFieldNames f) = false) := by decide

/-- The fields of an event, added to a new object. -/
theorem addsEventFields (steps : EventSteps) (e : Event) :
    ∃ code added, AddsFields steps (eventFields e) [] code added ∧
      Json.lookup (payloadFieldNames .details) added = none := by
  obtain ⟨hdistinct, -, hdetails⟩ := List.pairwise_append.1
    (show ([.id, .correlationId, .timestamp, .severity, .description, .type, .version] ++ [.details] :
      List PayloadFieldName).Pairwise _ from names_distinct)
  have hsub := eventFields_names e
  obtain ⟨code, added, h⟩ := addsFields steps (eventFields e) [] (by simp)
    (List.pairwise_map.1 (hdistinct.sublist hsub))
  refine ⟨code, added, h, Json.lookup_eq_none fun m hm => ?_⟩
  obtain ⟨field, hfield, hname⟩ := h.names m hm
  rw [hname]
  exact hdetails _ (hsub.subset (List.mem_map_of_mem hfield)) _ (List.mem_singleton_self _)

end

/-! ## The whole payload -/

section

variable {steps : EventSteps} {e : Event}

/-- The details that are added, if the step for them succeeds. -/
def detailsAdded (steps : EventSteps) (e : Event) : Json :=
  if Reported steps (eventFields e) then .object [] else e.details.getD (.object [])

theorem createDetails_eq {code : Result Unit} (herror : Reported steps (eventFields e) → ∃ e', code = .error e')
    (hok : ¬ Reported steps (eventFields e) → code = .ok ()) :
    createDetails steps e code = (detailsTaken steps e).map fun _ => detailsAdded steps e := by
  by_cases hreported : Reported steps (eventFields e)
  · obtain ⟨e', rfl⟩ := herror hreported
    rw [detailsTaken, detailsAdded, if_pos hreported, if_pos hreported]
    rfl
  · rw [hok hreported, detailsTaken, detailsAdded, if_neg hreported, if_neg hreported, detailsOutcome]
    unfold createDetails
    cases e.details <;> rfl

/-- Without an object for the event there is always an error. -/
theorem addEventObject_of_error {e' : McError} (hobject : steps.object = .error e') (array : List Json) :
    ∃ e'', addEventObject steps e array = (.error e'', array) := by
  simp only [addEventObject, hobject, foldl_addField_error]
  cases createDetails steps e (.error e') with
  | error e'' => exact ⟨e'', rfl⟩
  | ok details => exact ⟨.triggeredWithNull, rfl⟩

theorem addEventObject_eq (hobject : steps.object = .ok ()) {code : Result Unit} {added : Members}
    (h : AddsFields steps (eventFields e) [] code added)
    (hnew : Json.lookup (payloadFieldNames .details) added = none) (array : List Json) :
    addEventObject steps e array =
      match detailsTaken steps e, steps.add .details with
      | .error e', _ => (.error e', array)
      | .ok (), .failed e' => (.error e', array)
      | .ok (), .lost => (.ok (), array ++ [.object added])
      | .ok (), .done => (.ok (), array ++ [.object (added ++ [(payloadFieldNames .details, detailsAdded steps e)])]) := by
  simp only [addEventObject, hobject, h.fold, List.nil_append, createDetails_eq h.error h.ok]
  cases detailsTaken steps e with
  | error e' => rfl
  | ok u =>
    simp only [Except.map, addMember_eq _ hnew]
    cases steps.add .details <;> rfl

/-- When the answer is `MCL_OK`. -/
theorem jsonFromEventPayload_ok_iff (steps : EventSteps) (e : Event) :
    (jsonFromEventPayload steps e).1 = .ok () ↔ steps.array = .ok () ∧ steps.object = .ok () ∧
      detailsTaken steps e = .ok () ∧ (∀ e', steps.add .details ≠ .failed e') ∧ steps.text = .ok () := by
  unfold jsonFromEventPayload
  cases harray : steps.array with
  | error e' => simp
  | ok u =>
    cases hobject : steps.object with
    | error e' =>
      obtain ⟨e'', h⟩ := addEventObject_of_error (e := e) hobject []
      simp [h]
    | ok u =>
      obtain ⟨code, added, h, hnew⟩ := addsEventFields steps e
      simp only [addEventObject_eq hobject h hnew]
      cases detailsTaken steps e with
      | error e' => simp
      | ok u =>
        cases steps.add .details with
        | failed e' => simp
        | lost => cases steps.text <;> simp
        | done => cases steps.text <;> simp

theorem jsonFromEventPayload_error {e' : McError} (h : (jsonFromEventPayload steps e).1 = .error e') :
    jsonFromEventPayload steps e = (.error e', none) := by
  revert h
  unfold jsonFromEventPayload
  split
  · rintro ⟨⟩
    rfl
  · split
    · rintro ⟨⟩
      rfl
    · split
      · rintro ⟨⟩
        rfl
      · intro h
        cases h

theorem not_reported (h : FieldsDone steps e) : ¬ Reported steps (eventFields e) := by
  rintro ⟨field, hfield, hnone | ⟨e', hfailed⟩⟩
  · have := (h field hfield).1
    rw [hnone] at this
    cases this
  · have := (h field hfield).2
    rw [hfailed] at this
    cases this

/-- Both last fields are there, and all together are the members of the event's tree. -/
theorem eventTree_eq (h : FieldsDone steps e) : e.type.isSome ∧ e.version.isSome ∧
    eventTree e = .object ((eventFields e).map fieldMember ++
      [(payloadFieldNames .details, e.details.getD (.object []))]) := by
  have htype := (h (.type, e.type.map .string) (by simp [eventFields])).1
  have hversion := (h (.version, e.version.map .string) (by simp [eventFields])).1
  rw [Option.isSome_map] at htype hversion
  refine ⟨htype, hversion, ?_⟩
  obtain ⟨type, htype⟩ := Option.isSome_iff_exists.1 htype
  obtain ⟨version, hversion⟩ := Option.isSome_iff_exists.1 hversion
  rw [eventTree, eventFields, htype, hversion]
  cases nonEmpty e.correlationId <;> cases nonEmpty e.description <;> rfl

/-- With every step done the text is the whole event. -/
theorem jsonFromEventPayload_done (h : AllDone steps e) :
    jsonFromEventPayload steps e = (.ok (), some (Json.array [eventTree e]).print) := by
  obtain ⟨code, added, hadds, hnew⟩ := addsEventFields steps e
  have hquiet := not_reported h.fields
  have htaken : detailsTaken steps e = .ok () := by rw [detailsTaken, if_neg hquiet, h.details]
  simp only [jsonFromEventPayload, h.array, addEventObject_eq h.object hadds hnew, htaken, h.addDetails, h.text,
    hadds.all h.fields, detailsAdded, if_neg hquiet, (eventTree_eq h.fields).2.2, List.nil_append]

theorem allDone_of_caught (hcaught : Caught steps e) (hok : (jsonFromEventPayload steps e).1 = .ok ()) :
    AllDone steps e := by
  obtain ⟨harray, hobject, htaken, hadd, htext⟩ := (jsonFromEventPayload_ok_iff steps e).1 hok
  obtain ⟨hfields, hdetails⟩ := hcaught harray hobject htaken hadd htext
  rw [detailsTaken, if_neg (not_reported hfields)] at htaken
  exact ⟨harray, hobject, hfields, htaken, hdetails, htext⟩

/-- **What an event's payload drops.** -/
theorem nothingDropped_iff (steps : EventSteps) (e : Event) : NothingDropped steps e ↔ Caught steps e := by
  constructor
  · intro h harray hobject htaken hadd htext
    have hok := (jsonFromEventPayload_ok_iff steps e).2 ⟨harray, hobject, htaken, hadd, htext⟩
    by_cases hall : AllDone steps e
    · exact ⟨hall.fields, hall.addDetails⟩
    · obtain ⟨e', herror⟩ := h.error hall
      rw [herror] at hok
      cases hok
  · intro hcaught
    refine ⟨fun hok => ?_, fun hnot => ?_⟩
    · have hall := allDone_of_caught hcaught hok
      obtain ⟨htype, hversion, -⟩ := eventTree_eq hall.fields
      exact ⟨htype, hversion, by rw [jsonFromEventPayload_done hall]⟩
    · cases hcode : (jsonFromEventPayload steps e).1 with
      | ok u => exact absurd (allDone_of_caught hcaught hcode) hnot
      | error e' => exact ⟨e', jsonFromEventPayload_error hcode⟩

end

/-! ## Dropped failures -/

def doneSteps : EventSteps := ⟨.ok (), .ok (), fun _ => .done, .ok (), .ok (), .ok ()⟩

/-- Nothing but the type is missing. -/
def untypedEvent : Event where
  itemVersion := .v1_0
  id := .lit "1"
  correlationId := none
  timestamp := .lit "2019-01-31T23:59:59.999Z"
  severity := 1
  description := none
  type := none
  version := some (.lit "1.0")
  details := some (.object [(.lit "a", .null)])
  severity_mem := List.mem_cons_self

/-- The error for the missing type is overwritten by the success of creating empty details: no type, no version and not the
event's details, with `MCL_OK`. The same event with a type loses its id where the builder has no memory for it. -/
theorem untypedEvent_dropped :
    (jsonFromEventPayload doneSteps untypedEvent = (.ok (), some (ascii
        "[\x7b\"id\":\"1\",\"timestamp\":\"2019-01-31T23:59:59.999Z\",\"severity\":1,\"details\":\x7b\x7d\x7d]")) ∧
      ¬ NothingDropped doneSteps untypedEvent) ∧
    ¬ NothingDropped { doneSteps with add := fun field => if field = .id then .lost else .done }
      { untypedEvent with type := some (.lit "t") } := by
  refine ⟨⟨rfl, fun h => ?_⟩, fun h => ?_⟩
  · obtain ⟨htype, -⟩ := h.text rfl
    cases htype
  · have hnot : ¬ AllDone { doneSteps with add := fun field => if field = .id then .lost else .done }
        { untypedEvent with type := some (.lit "t") } := by
      intro hall
      obtain ⟨-, hid⟩ := hall.fields (.id, some (.string (.lit "1"))) List.mem_cons_self
      cases hid
    obtain ⟨e', herror⟩ := h.error hnot
    cases herror

/-! ## The steps of the builder -/

/-- With every step done this is the encoder that has memory for everything. -/
theorem jsonFromEventPayload_of_validate {e : Event} (h : e.validate = .ok ()) {text : Bytes}
    (htext : jsonFromItemPayload (.event e) = .ok text) :
    jsonFromEventPayload doneSteps e = (.ok (), some text) := by
  obtain ⟨-, ⟨type, htype⟩, version, hversion⟩ := Event.of_validate h
  have hdone : AllDone doneSteps e := by
    refine ⟨rfl, rfl, fun field hfield => ⟨?_, rfl⟩, ?_, rfl, rfl⟩
    · unfold eventFields at hfield
      rw [htype, hversion] at hfield
      revert field
      cases nonEmpty e.correlationId <;> cases nonEmpty e.description <;> simp
    · unfold detailsOutcome
      cases e.details <;> rfl
  have heq := jsonFromItemPayload_eq (show Item.validate (.event e) = .ok () from h) rfl
  rw [heq, toString_eq_ok] at htext
  rw [jsonFromEventPayload_done hdone, htext.2]

/-- What `json_util_add_string` does with memory or without, to an object that does not have the name yet. -/
theorem addString_outcome {F : Type} (text : F → Bytes) (m : JsonBuilder.Allocation) {root : JsonBuilder.Cjson F}
    (hobject : root.label.type = .object) {name : CString} (value : CString)
    (hnew : JsonBuilder.getObjectItem root (some name) = none) :
    (JsonBuilder.addString m root (some name) (some value)).1 = .ok () ∧
      (JsonBuilder.members text (JsonBuilder.addString m root (some name) (some value)).2 =
          JsonBuilder.members text root ++ [(name, .string value)] ∨
        JsonBuilder.members text (JsonBuilder.addString m root (some name) (some value)).2 =
          JsonBuilder.members text root) := by
  simp only [JsonBuilder.addString, JsonBuilder.addValue, hobject, hnew, JsonBuilder.addNewItemToObject]
  refine ⟨trivial, ?_⟩
  obtain ⟨item, hasValue, hasName⟩ := m
  cases item <;> cases hasValue <;> cases hasName
  all_goals first
    | exact .inr rfl
    | exact .inl (by simp [JsonBuilder.members, JsonBuilder.createString, JsonBuilder.addItemToObject,
        JsonBuilder.member, Rose.fold_eq, JsonBuilder.named])

end MindConnect
