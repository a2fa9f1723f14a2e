import MindConnect.Core.JsonUtil
import MindConnect.Lib.ObjectStore
import Mathlib.Algebra.Order.Group.Multiset
import Mathlib.Tactic.Abel

/-!
# Parsers that build objects: strings, JSON duplicates, lists and what `json.c` and `deployment_json.c` share

| here | there |
| --- | --- |
| `Kind` | what has a destroy function of its own, with `MCL_FREE` for strings, nodes and payloads |
| `Leaf`, `ListObject` | a string or a JSON with its object, an `mcl_list_t` with its nodes |
| `Run` | a parser with an output pointer: its code, the pointer behind it and the store |
| `mclListAdd`, `mclListDestroyWithContent` | `mcl_list_add` (`list.c:36`) for lists that are not full, which those of an array never are, and `mcl_list_destroy_with_content` (`:302`) |
| `parseItems` | the loop over an array (`json.c:1427`, `deployment_json.c:381`, `:504`, `:616`, `:730`, `:797`): the loops differ in `cleanUp` |
| `construct` | `_initialize`, the fields up to the first that fails, and the destruction of what is there behind an error |

`Keeps` says that a parser leaves what it found and what its pointer refers to; `Released` is what that comes to for a
text.
-/

namespace MindConnect.ParsedObjects

open JsonUtil ObjectStore

/-! ## The code -/

inductive Kind where
  | string | json | list | node
  | dataPoint | dataSource | dataSourceConfiguration | dataSourceConfigurationPayload
  | workflow | workflowState | workflowModel | workflowModelState | workflowModelTransition | workflowModelStateGroup
deriving DecidableEq, Repr

abbrev Objects := Multiset (Kind × Nat)

abbrev Store := ObjectStore.Store Kind

structure Leaf (kind : Kind) (β : Type) where
  ref : Nat
  value : β

abbrev StringObject := Leaf .string CString

abbrev JsonObject := Leaf .json Json

structure ListNode (α : Type) where
  ref : Nat
  data : α

structure ListObject (α : Type) where
  ref : Nat
  nodes : List (ListNode α)

abbrev Run (α : Type) := Store → Result Unit × Option α × Store

section
variable {α β σ : Type} {kind : Kind}

/-- A string or a duplicate, if there is something to copy and memory for it. -/
def makes (kind : Kind) (r : Result (Option β)) : Run (Leaf kind β) := fun s =>
  match r with
  | .error e => (.error e, none, s)
  | .ok none => (.ok (), none, s)
  | .ok (some value) => (.ok (), some ⟨s.objects, value⟩, s.create kind)

def inOrder : List (Store → Store) → Store → Store
  | [], s => s
  | f :: fs, s => inOrder fs (f s)

/-- The destroy function of a struct, by the fields that it destroys. -/
def destroyStruct (kind : Kind) (ref : α → Nat) (fields : α → List (Store → Store)) (p : Option α) (s : Store) :
    Store :=
  let s := s.call kind (.pointer (p.map ref))
  match p with
  | none => s
  | some x => inOrder (fields x) s

/-- `MCL_FREE` of a string, `mcl_json_util_destroy` -/
def mclFree (p : Option (Leaf kind β)) (s : Store) : Store := s.call kind (.pointer (p.map Leaf.ref))

/-- `MCL_NEW`, and the fields set to null. -/
def mclNew (kind : Kind) (allocated : Bool) (new : Nat → α) : Run α := fun s =>
  if allocated then (.ok (), some (new s.objects), s.create kind) else (.error .outOfMemory, none, s)

def mclListInitialize (allocated : Bool) : Run (ListObject α) := mclNew .list allocated (⟨·, []⟩)

def mclListAdd (allocated : Bool) (list : Option (ListObject α)) (data : Option α) (s : Store) :
    Result Unit × Option (ListObject α) × Store :=
  match list, data with
  | none, _ => (.error .triggeredWithNull, none, s)
  | some list, none => (.error .triggeredWithNull, some list, s)
  | some list, some data =>
    if allocated then (.ok (), some { list with nodes := list.nodes ++ [⟨s.objects, data⟩] }, s.create .node)
    else (.error .outOfMemory, some list, s)

def destroyNodes (callback : Option α → Store → Store) : List (ListNode α) → Store → Store
  | [], s => s
  | node :: nodes, s =>
    destroyNodes callback nodes ((callback (some node.data) s).call .node (.pointer (some node.ref)))

def mclListDestroyWithContent (callback : Option α → Store → Store) (list : Option (ListObject α)) (s : Store) :
    Store :=
  let s := s.call .list (.pointer (list.map ListObject.ref))
  match list with
  | none => s
  | some list => destroyNodes callback list.nodes s

/-- `n` turns of the loop, from `index` on. -/
def parseItems (m : Memory) (array : Json) (parse : Memory → Json → Run α) (cleanUp : Option α → Store → Store) :
    Nat → Nat → Option (ListObject α) → Store → Result Unit × Option (ListObject α) × Store
  | 0, _, list, s => (.ok (), list, s)
  | n + 1, index, list, s =>
    match getArrayItem array index with
    | .error e => (.error e, list, cleanUp none s)
    | .ok item =>
      match parse ((m.of index).of 0) item s with
      | (.error e, x, s) => (.error e, list, cleanUp x s)
      | (.ok (), x, s) =>
        match mclListAdd (m [index, 1]) list x s with
        | (.error e, list, s) => (.error e, list, cleanUp x s)
        | (.ok (), list, s) => parseItems m array parse cleanUp n (index + 1) list s

/-- A field of a struct is filled. -/
abbrev Step (σ : Type) := σ → Store → Result Unit × σ × Store

def inRow : List (Step σ) → Step σ
  | [], x, s => (.ok (), x, s)
  | step :: steps, x, s =>
    match step x s with
    | (.ok (), x, s) => inRow steps x s
    | (.error e, x, s) => (.error e, x, s)

/-- A field that is a pointer. -/
def setting (parse : Run β) (set : Option β → σ → σ) : Step σ := fun x s =>
  ((parse s).1, set (parse s).2.1 x, (parse s).2.2)

/-- A field that is a number or a truth value. -/
def reading (r : Result β) (set : β → σ → σ) : Step σ := fun x s =>
  match r with
  | .ok value => (.ok (), set value x, s)
  | .error e => (.error e, x, s)

/-- `_initialize`, the fields, and `MCL_OK` for the errors that `close` forgives. -/
def filled (init : Run σ) (steps : List (Step σ)) (close : Result Unit → Result Unit) : Run σ := fun s =>
  match init s with
  | (.ok (), some x, s) => (close (inRow steps x s).1, some (inRow steps x s).2.1, (inRow steps x s).2.2)
  | r => r

/-- Behind an error all is destroyed; every destroy function leaves a null pointer. -/
def onError (destroy : Option α → Store → Store) (f : Run α) : Run α := fun s =>
  match f s with
  | (.ok (), x, s) => (.ok (), x, s)
  | (.error e, x, s) => (.error e, none, destroy x s)

/-- What the parser of a struct does. -/
def construct (init : Run σ) (steps : List (Step σ)) (close : Result Unit → Result Unit)
    (destroy : Option σ → Store → Store) : Run σ := onError destroy (filled init steps close)

/-- `mcl_json_util_parse` (`json_util.c:827`), over `parse`, which stands for cJSON's parser. -/
def mclJsonUtilParse (parse : Bytes → Option Json) (text : Bytes) : Run JsonObject := fun s =>
  match parse text with
  | none => (.error .fail, none, s)
  | some json => (.ok (), some ⟨s.objects, json⟩, s.create .json)

/-- A parser on a text. The second component is what is written to the output pointer, if it is written. -/
def parseText (parse : Bytes → Option Json) (parser : Json → Run α) (text : Bytes) (s : Store) :
    Result Unit × Option (Option α) × Store :=
  match mclJsonUtilParse parse text s with
  | (.ok (), some json, s) =>
    let result := parser json.value s
    (result.1, some result.2.1, mclFree (some json) result.2.2)
  | (code, json, s) => (code, none, mclFree json s)

end

/-! ## What is kept -/

/-- The objects that are reached from a value. -/
class HasObjects (α : Type) where
  objects : α → Objects

export HasObjects (objects)

section
variable {α β σ : Type} {kind : Kind}

instance : HasObjects (Leaf kind β) := ⟨fun x => {(kind, x.ref)}⟩

instance [HasObjects α] : HasObjects (Option α) := ⟨fun p => (p.map objects).getD 0⟩

instance [HasObjects α] : HasObjects (ListNode α) := ⟨fun node => objects node.data + {(.node, node.ref)}⟩

instance [HasObjects α] : HasObjects (ListObject α) := ⟨fun list => {(.list, list.ref)} + (list.nodes.map objects).sum⟩

theorem mclNew_some {kind : Kind} {allocated : Bool} {new : Nat → α} {s : Store} {x : α}
    (h : (mclNew kind allocated new s).2.1 = some x) : allocated = true ∧ ∃ n, x = new n := by
  cases allocated with
  | false => cases h
  | true => exact ⟨rfl, s.objects, (Option.some.inj h).symm⟩

variable [HasObjects α] [HasObjects σ]

@[simp] theorem objects_none : objects (none : Option α) = 0 := rfl

@[simp] theorem objects_some (x : α) : objects (some x) = objects x := rfl

theorem objects_node (node : ListNode α) : objects node = objects node.data + {(.node, node.ref)} := rfl

theorem objects_list (list : ListObject α) : objects list = {(.list, list.ref)} + (list.nodes.map objects).sum := rfl

/-- Everything that a pointer refers to is destroyed. -/
def Destroys (f : Option α → Store → Store) : Prop :=
  ∀ x s live, Holds s (objects x + live) → Holds (f x s) live

/-- Whatever the code is. -/
def Keeps (f : Run α) : Prop := ∀ s live, Holds s live → Holds (f s).2.2 (objects (f s).2.1 + live)

def StepKeeps (f : Step σ) (x : σ) : Prop :=
  ∀ s live, Holds s (objects x + live) → Holds (f x s).2.2 (objects (f x s).2.1 + live)

theorem destroys_leaf : Destroys (mclFree : Option (Leaf kind β) → Store → Store) := by
  intro x s live h
  cases x with
  | none => exact (by simpa using h : Holds s live).call_nothing kind (.inr rfl)
  | some x => exact Holds.call_object h

theorem makes_keeps (kind : Kind) (r : Result (Option β)) : Keeps (makes kind r) := by
  intro s live h
  rcases r with e | _ | value
  · simpa [makes] using h
  · simpa [makes] using h
  · exact h.create kind

theorem destroyNodes_spec {callback : Option α → Store → Store} (hcallback : Destroys callback)
    (nodes : List (ListNode α)) {s : Store} {live : Objects} (h : Holds s ((nodes.map objects).sum + live)) :
    Holds (destroyNodes callback nodes s) live := by
  induction nodes generalizing s with
  | nil => simpa [destroyNodes] using h
  | cons node nodes ih =>
    rw [List.map_cons, List.sum_cons, objects_node, add_assoc, add_assoc] at h
    exact ih (hcallback (some node.data) s _ h).call_object

theorem destroys_list {callback : Option α → Store → Store} (hcallback : Destroys callback) :
    Destroys (mclListDestroyWithContent callback) := by
  intro list s live h
  cases list with
  | none => exact (by simpa using h : Holds s live).call_nothing .list (.inr rfl)
  | some list =>
    rw [objects_some, objects_list, add_assoc] at h
    exact destroyNodes_spec hcallback list.nodes h.call_object

/-- What one of the calls in a destroy function does. -/
def Frees (f : Store → Store) (owned : Objects) : Prop := ∀ s live, Holds s (owned + live) → Holds (f s) live

theorem Destroys.frees {f : Option α → Store → Store} (h : Destroys f) (x : Option α) : Frees (f x) (objects x) := h x

theorem inOrder_frees {fs : List (Store → Store)} {owned : List Objects} (h : List.Forall₂ Frees fs owned) :
    Frees (inOrder fs) owned.sum := by
  intro s live hlive
  induction h generalizing s with
  | nil => simpa [inOrder] using hlive
  | cons hf _ ih =>
    rw [List.sum_cons, add_assoc] at hlive
    exact ih _ (hf s _ hlive)

theorem destroys_struct {kind : Kind} {ref : α → Nat} {fields : α → List (Store → Store)} {owned : α → List Objects}
    (hobjects : ∀ x : α, objects x = {(kind, ref x)} + (owned x).sum)
    (hfields : ∀ x, List.Forall₂ Frees (fields x) (owned x)) : Destroys (destroyStruct kind ref fields) := by
  intro p s live h
  cases p with
  | none => exact (by simpa using h : Holds s live).call_nothing kind (.inr rfl)
  | some x =>
    rw [objects_some, hobjects, add_assoc] at h
    exact inOrder_frees (hfields x) _ live h.call_object

theorem mclNew_keeps {kind : Kind} {new : Nat → α} (hnew : ∀ n, objects (new n) = {(kind, n)}) (allocated : Bool) :
    Keeps (mclNew kind allocated new) := by
  intro s live h
  cases allocated with
  | false => simpa [mclNew] using h
  | true => simpa [mclNew, hnew] using h.create kind

theorem mclListInitialize_keeps (allocated : Bool) : Keeps (mclListInitialize allocated : Run (ListObject α)) :=
  mclNew_keeps (fun n => by simp [objects_list]) allocated

/-- What is added is in the list, or still with the caller. -/
theorem mclListAdd_keeps {list : Option (ListObject α)} {data : Option α} {s : Store} {live : Objects}
    (h : Holds s (objects data + (objects list + live))) (allocated : Bool) :
    match mclListAdd allocated list data s with
    | (.ok (), list', s') => Holds s' (objects list' + live)
    | (.error _, list', s') => Holds s' (objects data + (objects list' + live)) := by
  cases list with
  | none => exact h
  | some list =>
    cases data with
    | none => exact h
    | some data =>
      cases allocated with
      | false => exact h
      | true =>
        have hcreated := h.create .node
        simp only [mclListAdd, if_true, objects_some, objects_list, List.map_append, List.map_cons, List.map_nil,
          List.sum_append, List.sum_cons, List.sum_nil, add_zero, objects_node] at hcreated ⊢
        convert hcreated using 1
        abel

theorem parseItems_keeps {m : Memory} {array : Json} {parse : Memory → Json → Run α}
    {cleanUp : Option α → Store → Store} (hparse : ∀ m item, Keeps (parse m item)) (hclean : Destroys cleanUp)
    (n index : Nat) {list : Option (ListObject α)} {s : Store} {live : Objects} (h : Holds s (objects list + live)) :
    Holds (parseItems m array parse cleanUp n index list s).2.2
      (objects (parseItems m array parse cleanUp n index list s).2.1 + live) := by
  induction n generalizing index list s with
  | zero => exact h
  | succ n ih =>
    rw [parseItems]
    cases getArrayItem array index with
    | error e => exact hclean none s _ (by simpa using h)
    | ok item =>
      have hparsed := hparse ((m.of index).of 0) item s _ h
      simp only
      generalize parse ((m.of index).of 0) item s = parsed at hparsed ⊢
      obtain ⟨e | u, x, s'⟩ := parsed
      · exact hclean x s' _ hparsed
      · have hadded := mclListAdd_keeps hparsed (m [index, 1])
        simp only at hadded ⊢
        generalize mclListAdd (m [index, 1]) list x s' = added at hadded ⊢
        obtain ⟨e | u, list', s''⟩ := added
        · exact hclean x s'' _ hadded
        · exact ih (index + 1) hadded

theorem onError_keeps {destroy : Option α → Store → Store} {f : Run α} (hdestroy : Destroys destroy) (hf : Keeps f) :
    Keeps (onError destroy f) := by
  intro s live h
  have hkept := hf s live h
  rw [onError]
  generalize f s = result at hkept ⊢
  obtain ⟨e | u, x, s'⟩ := result
  · simpa using hdestroy x s' live hkept
  · exact hkept

theorem inRow_nil_keeps (x : σ) : StepKeeps (inRow []) x := fun _ _ h => h

/-- The field was null before. -/
theorem inRow_setting_keeps [HasObjects β] {parse : Run β} {set : Option β → σ → σ} {steps : List (Step σ)} {x : σ}
    (hparse : Keeps parse) (hset : ∀ v, objects (set v x) = objects v + objects x)
    (hrest : ∀ s v, (parse s).1 = .ok () → StepKeeps (inRow steps) (set v x)) :
    StepKeeps (inRow (setting parse set :: steps)) x := by
  intro s live h
  have hkept := hparse s _ h
  have hrest := hrest s
  rw [← add_assoc, ← hset] at hkept
  rw [inRow, setting]
  generalize parse s = result at hkept hrest ⊢
  obtain ⟨e | u, v, s'⟩ := result
  · exact hkept
  · exact hrest v rfl s' live hkept

theorem inRow_makes_keeps {r : Result (Option β)} {set : Option (Leaf kind β) → σ → σ} {steps : List (Step σ)} {x : σ}
    (hset : ∀ v, objects (set v x) = objects v + objects x) (hrest : ∀ v, StepKeeps (inRow steps) (set v x)) :
    StepKeeps (inRow (setting (makes kind r) set :: steps)) x :=
  inRow_setting_keeps (makes_keeps kind r) hset fun _ v _ => hrest v

theorem inRow_reading_keeps {r : Result β} {set : β → σ → σ} {steps : List (Step σ)} {x : σ}
    (hset : ∀ v, objects (set v x) = objects x) (hrest : ∀ v, StepKeeps (inRow steps) (set v x)) :
    StepKeeps (inRow (reading r set :: steps)) x := by
  intro s live h
  rcases r with e | v
  · exact h
  · rw [← hset v] at h
    exact hrest v s live h

theorem filled_keeps {init : Run σ} {steps : List (Step σ)} {close : Result Unit → Result Unit} (hinit : Keeps init)
    (hrow : ∀ s x, (init s).2.1 = some x → StepKeeps (inRow steps) x) : Keeps (filled init steps close) := by
  intro s live h
  have hkept := hinit s live h
  have hfresh := hrow s
  rw [filled]
  generalize init s = result at hkept hfresh ⊢
  obtain ⟨e | u, _ | x, s'⟩ := result
  · exact hkept
  · exact hkept
  · exact hkept
  · exact hfresh x rfl s' live hkept

end

/-! ## What is stained -/

section
variable {α β σ : Type} {kind : Kind}

/-- What has been done stays done. -/
def Stains (f : Store → Store) : Prop := ∀ s, Stained s → Stained (f s)

theorem stains_call (k : Kind) (a : Argument) : Stains (ObjectStore.Store.call · k a) := fun _ h => h.call k a

theorem stains_inOrder {fs : List (Store → Store)} (h : ∀ f ∈ fs, Stains f) : Stains (inOrder fs) := by
  induction fs with
  | nil => exact fun s hs => hs
  | cons f fs ih =>
    rw [List.forall_mem_cons] at h
    exact fun s hs => ih h.2 _ (h.1 s hs)

theorem stains_struct {kind : Kind} {ref : α → Nat} {fields : α → List (Store → Store)}
    (hfields : ∀ x, ∀ f ∈ fields x, Stains f) (p : Option α) : Stains (destroyStruct kind ref fields p) := by
  intro s hs
  cases p with
  | none => exact hs.call _ _
  | some x => exact stains_inOrder (hfields x) _ (hs.call _ _)

theorem stains_leaf (p : Option (Leaf kind β)) : Stains (mclFree p) := stains_call _ _

theorem stains_list {callback : Option α → Store → Store} (hcallback : ∀ x, Stains (callback x))
    (list : Option (ListObject α)) : Stains (mclListDestroyWithContent callback list) := by
  have hnodes : ∀ nodes : List (ListNode α), Stains (destroyNodes callback nodes) := by
    intro nodes
    induction nodes with
    | nil => exact fun s hs => hs
    | cons node nodes ih => exact fun s hs => ih _ ((hcallback _ s hs).call _ _)
  intro s hs
  cases list with
  | none => exact hs.call _ _
  | some list => exact hnodes list.nodes _ (hs.call _ _)

/-- It fails and leaves a stain. -/
def Spoils (f : Run α) : Prop := ∀ s, (∃ e, (f s).1 = .error e) ∧ Stained (f s).2.2

def RowSpoils (steps : List (Step σ)) (x : σ) : Prop :=
  ∀ s, (∃ e, (inRow steps x s).1 = .error e) ∧ Stained (inRow steps x s).2.2

theorem onError_spoils {destroy : Option α → Store → Store} {f : Run α} (hdestroy : ∀ x, Stains (destroy x))
    (hf : Spoils f) : Spoils (onError destroy f) := by
  intro s
  obtain ⟨⟨e, he⟩, hstained⟩ := hf s
  rw [onError]
  generalize f s = result at he hstained ⊢
  obtain ⟨code, x, s'⟩ := result
  obtain rfl : code = .error e := he
  exact ⟨⟨e, rfl⟩, hdestroy x s' hstained⟩

theorem inRow_makes_spoils {r : Result (Option β)} {v : Option β} {set : Option (Leaf kind β) → σ → σ}
    {steps : List (Step σ)} {x : σ} (hr : r = .ok v) (hrest : ∀ p, RowSpoils steps (set p x)) :
    RowSpoils (setting (makes kind r) set :: steps) x := by
  subst hr
  intro s
  cases v with
  | none => exact hrest none s
  | some value => exact hrest _ _

theorem filled_spoils {init : Run σ} {steps : List (Step σ)}
    (hinit : ∀ s, ∃ x s', init s = (.ok (), some x, s') ∧ RowSpoils steps x) : Spoils (filled init steps id) := by
  intro s
  obtain ⟨x, s', hs, hrow⟩ := hinit s
  rw [filled, hs]
  exact hrow s'

end

/-! ## A text -/

/-- Everything that was built is reached from the item or, behind an error, destroyed; the pointer is then null. It was
null before the call if `wasNull`. -/
def Released {α : Type} [HasObjects α] (wasNull : Bool) : Result Unit × Option (Option α) × Store → Prop
  | (.ok (), item, s) => ∃ x, item = some (some x) ∧ Accounted s.trace (objects x)
  | (.error _, item, s) => Accounted s.trace 0 ∧ (item = some none ∨ (item = none ∧ wasNull = true))

/-- A success has an item, an error a null pointer. -/
structure Hands {α : Type} (f : Run α) : Prop where
  item : ∀ s, (f s).1 = .ok () → ∃ x, (f s).2.1 = some x
  null : ∀ s e, (f s).1 = .error e → (f s).2.1 = none

section
variable {α σ : Type}

/-- Behind an error the pointer is null. -/
theorem onError_null {f : Run α} {destroy : Option α → Store → Store} {s : Store} {e : McError}
    (h : (onError destroy f s).1 = .error e) : (onError destroy f s).2.1 = none := by
  rw [onError] at h ⊢
  generalize f s = result at h ⊢
  obtain ⟨e' | u, x, s'⟩ := result
  · rfl
  · cases h

theorem mclNew_hands (kind : Kind) (allocated : Bool) (new : Nat → α) : Hands (mclNew kind allocated new) := by
  cases allocated with
  | false => exact ⟨fun s h => (by cases h), fun s e _ => rfl⟩
  | true => exact ⟨fun s _ => ⟨new s.objects, rfl⟩, fun s e h => (by cases h)⟩

theorem construct_hands {init : Run σ} {steps : List (Step σ)} {close : Result Unit → Result Unit}
    {destroy : Option σ → Store → Store} (hinit : ∀ s, (init s).1 = .ok () → ∃ x, (init s).2.1 = some x) :
    Hands (construct init steps close destroy) := by
  refine ⟨fun s h => ?_, fun s e h => onError_null h⟩
  have hfresh := hinit s
  rw [construct, onError, filled] at h ⊢
  generalize init s = result at hfresh h ⊢
  obtain ⟨e | u, _ | x, s'⟩ := result
  · cases h
  · cases h
  · obtain ⟨x, hx⟩ := hfresh rfl
    cases hx
  · simp only at h ⊢
    generalize inRow steps x s' = row at h ⊢
    obtain ⟨code, y, s''⟩ := row
    cases hclose : close code with
    | error e =>
      rw [hclose] at h
      cases h
    | ok u => exact ⟨y, rfl⟩

variable {parse : Bytes → Option Json} {parser : Json → Run α} {text : Bytes} {wasNull : Bool} [HasObjects α]

theorem parseText_released (hkeeps : ∀ json, parse text = some json → Keeps (parser json))
    (hhands : ∀ json, Hands (parser json)) :
    Released wasNull (parseText parse parser text .empty) ↔ (parse text = none → wasNull = true) := by
  rw [parseText, mclJsonUtilParse]
  cases hparse : parse text with
  | none =>
    have hheld : Holds (mclFree (none : Option JsonObject) ObjectStore.Store.empty) 0 :=
      Holds.empty.call_nothing Kind.json (.inr rfl)
    simp [Released, hheld.accounted]
  | some json =>
    have hkept := hkeeps json hparse _ _ (Holds.empty.create Kind.json)
    obtain ⟨hitem, hnull⟩ := hhands json
    have hitem := hitem (ObjectStore.Store.empty.create .json)
    have hnull := hnull (ObjectStore.Store.empty.create .json)
    simp only [reduceCtorEq, false_implies, iff_true]
    generalize parser json (ObjectStore.Store.empty.create .json) = result at hkept hitem hnull ⊢
    obtain ⟨code, item, s⟩ := result
    have hfreed : Holds (mclFree (some (⟨0, json⟩ : JsonObject)) s) (objects item) := by
      rw [add_zero, add_comm] at hkept
      exact destroys_leaf (some (⟨0, json⟩ : JsonObject)) s _ hkept
    rcases code with e | u
    · obtain rfl : item = none := hnull e rfl
      exact ⟨hfreed.accounted, .inl rfl⟩
    · obtain ⟨x, rfl⟩ : ∃ x, item = some x := hitem rfl
      exact ⟨x, rfl, hfreed.accounted⟩

theorem parseText_not_released {json : Json} (hparse : parse text = some json) (hspoils : Spoils (parser json)) :
    ¬Released wasNull (parseText parse parser text .empty) := by
  rw [parseText, mclJsonUtilParse, hparse]
  obtain ⟨⟨e, he⟩, hstained⟩ := hspoils (ObjectStore.Store.empty.create .json)
  simp only
  generalize parser json (ObjectStore.Store.empty.create .json) = result at he hstained ⊢
  obtain ⟨code, item, s⟩ := result
  obtain rfl : code = .error e := he
  rintro ⟨haccounted, -⟩
  exact (stains_leaf (some (⟨0, json⟩ : JsonObject)) s hstained).not_sound haccounted.sound

end

end MindConnect.ParsedObjects
