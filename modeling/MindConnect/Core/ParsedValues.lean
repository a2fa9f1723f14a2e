import MindConnect.Core.ParsedObjects
import MindConnect.Lib.CursorList

/-!
# What parsers that build objects read

`Reads` says which code and which value a parser comes to, whatever the store; the value is that of a parser without
objects. `itemsOf` is `parseItems` (`ParsedObjects`) without objects.
-/

namespace MindConnect.ParsedObjects

open JsonUtil ObjectStore

def allocate (allocated : Bool) : Result Unit := if allocated then .ok () else .error .outOfMemory

/-- Code and value, whatever the store; `read` forgets the objects. -/
def Reads {α β : Type} (read : α → β) (r : Result (Option β)) (f : Run α) : Prop :=
  ∀ s, (f s).1 = r.map (fun _ => ()) ∧ ∀ v, r = .ok v → (f s).2.1.map read = v

def RowReads {σ τ : Type} (read : σ → τ) (r : Result τ) (steps : List (Step σ)) (x : σ) : Prop :=
  ∀ s, (inRow steps x s).1 = r.map (fun _ => ()) ∧ ∀ y, r = .ok y → read (inRow steps x s).2.1 = y

section
variable {α β σ τ γ : Type} {kind : Kind}

theorem makes_reads (kind : Kind) (r : Result (Option β)) : Reads Leaf.value r (makes kind r) := by
  intro s
  rcases r with e | _ | value <;> simp [makes, Except.map]

theorem mclNew_reads (kind : Kind) (allocated : Bool) {new : Nat → α} {read : α → β} {y : β}
    (hnew : ∀ n, read (new n) = y) :
    Reads read ((allocate allocated >>= fun _ => (.ok y : Result β)).map some) (mclNew kind allocated new) := by
  intro s
  cases allocated <;> simp [mclNew, allocate, Except.map, bind, Except.bind, hnew]

theorem onError_reads {read : α → β} {r : Result (Option β)} {f : Run α} (destroy : Option α → Store → Store)
    (hf : Reads read r f) : Reads read r (onError destroy f) := by
  intro s
  obtain ⟨hcode, hvalue⟩ := hf s
  rw [onError]
  generalize f s = result at hcode hvalue ⊢
  obtain ⟨e | u, x, s'⟩ := result
  · refine ⟨hcode, fun v hv => ?_⟩
    rw [hv] at hcode
    cases hcode
  · exact ⟨hcode, hvalue⟩

theorem inRow_nil_reads {read : σ → τ} {x : σ} {y : τ} (h : read x = y) : RowReads read (.ok y) [] x :=
  fun _ => ⟨rfl, fun _ hy => h.trans (Except.ok.inj hy)⟩

theorem inRow_setting_reads {readβ : β → γ} {r : Result (Option γ)} {parse : Run β} {set : Option β → σ → σ}
    {read : σ → τ} {rest : Option γ → Result τ} {steps : List (Step σ)} {x : σ} (hparse : Reads readβ r parse)
    (hrest : ∀ v, RowReads read (rest (v.map readβ)) steps (set v x)) :
    RowReads read (r >>= rest) (setting parse set :: steps) x := by
  intro s
  obtain ⟨hcode, hvalue⟩ := hparse s
  rw [inRow, setting]
  generalize parse s = result at hcode hvalue ⊢
  obtain ⟨e | u, v, s'⟩ := result
  · rcases r with e' | w
    · exact ⟨hcode, fun y hy => by cases hy⟩
    · cases hcode
  · rcases r with e' | w
    · cases hcode
    · obtain rfl : v.map readβ = w := hvalue w rfl
      exact hrest v s'

theorem inRow_reading_reads {r : Result β} {set : β → σ → σ} {read : σ → τ} {rest : β → Result τ}
    {steps : List (Step σ)} {x : σ} (hrest : ∀ v, RowReads read (rest v) steps (set v x)) :
    RowReads read (r >>= rest) (reading r set :: steps) x := by
  intro s
  rcases r with e | v
  · exact ⟨rfl, fun y hy => by cases hy⟩
  · exact hrest v s

theorem filled_reads {read : σ → τ} {r : Result τ} {rest : τ → Result τ} {init : Run σ} {steps : List (Step σ)}
    (hinit : Reads read (r.map some) init)
    (hrow : ∀ s x, (init s).2.1 = some x → RowReads read (rest (read x)) steps x) :
    Reads read ((r >>= rest).map some) (filled init steps id) := by
  intro s
  obtain ⟨hcode, hvalue⟩ := hinit s
  have hrow := hrow s
  rw [filled]
  generalize init s = result at hcode hvalue hrow ⊢
  obtain ⟨code, pointer, s'⟩ := result
  rcases r with e | y
  · obtain rfl : code = .error e := hcode
    exact ⟨rfl, fun v hv => by cases hv⟩
  · obtain rfl : code = .ok () := hcode
    obtain ⟨x, rfl, rfl⟩ : ∃ x, pointer = some x ∧ read x = y := by simpa using hvalue (some y) rfl
    obtain ⟨hrowCode, hrowValue⟩ := hrow x rfl s'
    cases hrest : rest (read x) with
    | error e =>
      rw [hrest] at hrowCode
      refine ⟨by simpa [bind, Except.bind, hrest, Except.map] using hrowCode, fun v hv => ?_⟩
      simp [bind, Except.bind, hrest, Except.map] at hv
    | ok y =>
      rw [hrest] at hrowCode
      refine ⟨by simpa [bind, Except.bind, hrest, Except.map] using hrowCode, fun v hv => ?_⟩
      obtain rfl : some y = v := by simpa [bind, Except.bind, hrest, Except.map] using hv
      simp [hrowValue y hrest]

theorem construct_reads {read : σ → τ} {r : Result τ} {rest : τ → Result τ} {init : Run σ} {steps : List (Step σ)}
    {destroy : Option σ → Store → Store} (hinit : Reads read (r.map some) init)
    (hrow : ∀ s x, (init s).2.1 = some x → RowReads read (rest (read x)) steps x) :
    Reads read ((r >>= rest).map some) (construct init steps id destroy) :=
  onError_reads destroy (filled_reads hinit hrow)

/-- A struct without a list of its own. -/
theorem construct_new_reads {read : σ → τ} {r : Result τ} {allocated : Bool} {new : Nat → σ} {steps : List (Step σ)}
    {destroy : Option σ → Store → Store} (hnew : ∀ n, read (new n) = read (new 0))
    (hrow : ∀ n, RowReads read r steps (new n)) :
    Reads read ((allocate allocated >>= fun _ => r).map some)
      (construct (mclNew kind allocated new) steps id destroy) := by
  have hfilled : Reads read
      (((allocate allocated >>= fun _ => (.ok (read (new 0)) : Result τ)) >>= fun _ => r).map some)
      (construct (mclNew kind allocated new) steps id destroy) := by
    refine construct_reads (mclNew_reads kind allocated hnew) fun s x hx => ?_
    obtain ⟨-, n, rfl⟩ := mclNew_some hx
    exact hrow n
  cases allocated <;> exact hfilled

/-- A step of a row that reads a value and sets a pointer has come to a value. -/
theorem makes_ok {β : Type} {kind : Kind} {r : Result (Option β)} {s : Store} (h : (makes kind r s).1 = .ok ()) :
    ∃ v, r = .ok v := by
  rcases r with e | v
  · cases h
  · exact ⟨v, rfl⟩

theorem allocate_eq_ok {allocated : Bool} {u : Unit} (h : allocate allocated = .ok u) : allocated = true := by
  cases allocated with
  | false => cases h
  | true => rfl

end

/-! ## Lists -/

section
variable {α β : Type} {value : α → β} {m : Memory} {array : Json} {of : Memory → Json → Result β}
  {parse : Memory → Json → Run α} {cleanUp : Option α → Store → Store}

def itemsOf (m : Memory) (array : Json) (of : Memory → Json → Result β) :
    Nat → Nat → CursorList β → Result (CursorList β)
  | 0, _, list => .ok list
  | n + 1, index, list => do
    let item ← getArrayItem array index
    let x ← of ((m.of index).of 0) item
    if m [index, 1] then itemsOf m array of n (index + 1) (list.add x) else .error .outOfMemory

/-- The list as its elements were added. -/
def ListObject.cursorList {α β : Type} (value : α → β) (list : ListObject α) : CursorList β :=
  (list.nodes.map fun node => value node.data).foldl CursorList.add .empty

theorem mclListInitialize_reads {α β : Type} {value : α → β} (allocated : Bool) :
    Reads (ListObject.cursorList value)
      ((allocate allocated >>= fun _ => (.ok .empty : Result (CursorList β))).map some)
      (mclListInitialize allocated : Run (ListObject α)) :=
  mclNew_reads .list allocated fun _ => rfl

/-- A list refuses a null pointer. -/
def present : Result (Option β) → Result β
  | .error e => .error e
  | .ok none => .error .triggeredWithNull
  | .ok (some x) => .ok x

theorem present_map_some (r : Result β) : present (r.map some) = r := by
  rcases r with e | x <;> rfl

theorem parseItems_reads {found : Memory → Json → Result (Option β)}
    (hreads : ∀ m item, Reads value (found m item) (parse m item)) (hof : ∀ m item, of m item = present (found m item))
    (n index : Nat) (list : ListObject α) (s : Store) :
    (parseItems m array parse cleanUp n index (some list) s).1 =
        (itemsOf m array of n index (list.cursorList value)).map (fun _ => ()) ∧
      ∀ ys, itemsOf m array of n index (list.cursorList value) = .ok ys →
        ∃ list', (parseItems m array parse cleanUp n index (some list) s).2.1 = some list' ∧
          list'.cursorList value = ys := by
  induction n generalizing index list s with
  | zero => exact ⟨rfl, fun ys hys => ⟨list, rfl, Except.ok.inj hys⟩⟩
  | succ n ih =>
    rw [parseItems, itemsOf]
    cases getArrayItem array index with
    | error e => exact ⟨rfl, fun ys hys => by cases hys⟩
    | ok item =>
      obtain ⟨hcode, hvalue⟩ := hreads ((m.of index).of 0) item s
      simp only [bind, Except.bind, hof]
      generalize parse ((m.of index).of 0) item s = result at hcode hvalue ⊢
      obtain ⟨code, p, s'⟩ := result
      rcases hfound : found ((m.of index).of 0) item with e | y
      · rw [hfound] at hcode
        obtain rfl : code = .error e := hcode
        exact ⟨rfl, fun ys hys => by cases hys⟩
      · rw [hfound] at hcode
        obtain rfl : code = .ok () := hcode
        obtain rfl : p.map value = y := hvalue y hfound
        cases p with
        | none => exact ⟨rfl, fun ys hys => by cases hys⟩
        | some x =>
          cases m [index, 1] with
          | false => exact ⟨rfl, fun ys hys => by cases hys⟩
          | true =>
            have hadded : (ListObject.mk list.ref (list.nodes ++ [⟨s'.objects, x⟩])).cursorList value =
                (list.cursorList value).add (value x) := by simp [ListObject.cursorList]
            have hrest := ih (index + 1) ⟨list.ref, list.nodes ++ [⟨s'.objects, x⟩]⟩ (s'.create .node)
            rw [hadded] at hrest
            exact hrest

/-- A parser that succeeds hands a struct over. -/
theorem Reads.exists_of_ok {json : Json} {s : Store} {x : β}
    (h : Reads value ((of m json).map some) (parse m json)) (hx : of m json = .ok x) :
    ∃ y s', parse m json s = (.ok (), some y, s') := by
  obtain ⟨hcode, hvalue⟩ := h s
  rw [hx] at hcode hvalue
  have hsome := hvalue (some x) rfl
  generalize parse m json s = result at hcode hsome ⊢
  obtain ⟨code, p, s'⟩ := result
  obtain ⟨y, rfl, -⟩ : ∃ y, p = some y ∧ value y = x := by simpa using hsome
  obtain rfl : code = .ok () := hcode
  exact ⟨y, s', rfl⟩

theorem Reads.of_ok {json : Json} {s : Store} (h : Reads value ((of m json).map some) (parse m json))
    (hok : (parse m json s).1 = .ok ()) : ∃ x, of m json = .ok x := by
  have hcode := (h s).1
  rw [hok] at hcode
  cases hof : of m json with
  | error e =>
    rw [hof] at hcode
    cases hcode
  | ok x => exact ⟨x, rfl⟩

end

end MindConnect.ParsedObjects
