import Mathlib.Data.List.Basic
import Mathlib.Data.List.Nodup
import Mathlib.Logic.Function.Basic

/-!
# Doubly linked nodes in a heap

A heap maps addresses to nodes; a node points to its neighbours. `Segment h p cells q` says that the
cells (an address and its datum each) stand in `h` one behind the other, linked in both directions, with
`p` before the first and `q` behind the last. `Linked` is a whole list: a segment between two null
pointers without repeated addresses.

Segments split and join (`segment_append`), survive writes elsewhere (`Segment.congr`), and are closed
again after a node was taken out (`Linked.unlink`) or put behind the last (`Linked.link`).
-/

universe u

structure LinkedNode (α : Type u) where
  data : α
  prev : Option Nat
  next : Option Nat
deriving Repr

abbrev LinkedHeap (α : Type u) := Nat → Option (LinkedNode α)

namespace LinkedHeap

variable {α : Type u} {h h' : LinkedHeap α} {p q : Option Nat} {cells xs ys : List (Nat × α)} {a : Nat}
  {x : α}

/-! ## Writes -/

/-- `a->next = v`, nothing for a null `a` -/
def setNext (h : LinkedHeap α) (a v : Option Nat) : LinkedHeap α :=
  match a with
  | none => h
  | some a => Function.update h a ((h a).map fun node => { node with next := v })

/-- `a->prev = v`, nothing for a null `a` -/
def setPrev (h : LinkedHeap α) (a v : Option Nat) : LinkedHeap α :=
  match a with
  | none => h
  | some a => Function.update h a ((h a).map fun node => { node with prev := v })

def free (h : LinkedHeap α) (a : Nat) : LinkedHeap α := Function.update h a none

theorem setNext_of_ne {b v : Option Nat} (hb : b ≠ some a) : setNext h b v a = h a := by
  cases b with
  | none => rfl
  | some b => exact Function.update_of_ne (fun e => hb (by rw [e])) _ _

theorem setPrev_of_ne {b v : Option Nat} (hb : b ≠ some a) : setPrev h b v a = h a := by
  cases b with
  | none => rfl
  | some b => exact Function.update_of_ne (fun e => hb (by rw [e])) _ _

theorem free_of_ne {b : Nat} (hb : a ≠ b) : free h b a = h a := Function.update_of_ne hb _ _

@[simp] theorem free_self : free h a a = none := by simp [free]

@[simp] theorem isSome_setNext (b v : Option Nat) : (setNext h b v a).isSome = (h a).isSome := by
  by_cases hb : b = some a
  · subst hb; simp [setNext]
  · rw [setNext_of_ne hb]

@[simp] theorem isSome_setPrev (b v : Option Nat) : (setPrev h b v a).isSome = (h a).isSome := by
  by_cases hb : b = some a
  · subst hb; simp [setPrev]
  · rw [setPrev_of_ne hb]

/-! ## Segments -/

/-- The address of the first cell, `q` if there is none. -/
def first (cells : List (Nat × α)) (q : Option Nat) : Option Nat :=
  match cells with
  | [] => q
  | (a, _) :: _ => some a

/-- The address of the last cell, `p` if there is none. -/
def final (cells : List (Nat × α)) (p : Option Nat) : Option Nat :=
  match cells with
  | [] => p
  | (a, _) :: cells => final cells (some a)

@[simp] theorem first_nil : first ([] : List (Nat × α)) q = q := rfl
@[simp] theorem final_nil : final ([] : List (Nat × α)) p = p := rfl
@[simp] theorem first_cons : first ((a, x) :: cells) q = some a := rfl
@[simp] theorem final_cons : final ((a, x) :: cells) p = final cells (some a) := rfl

theorem first_append : first (xs ++ ys) q = first xs (first ys q) := by
  cases xs <;> rfl

theorem final_append : final (xs ++ ys) p = final ys (final xs p) := by
  induction xs generalizing p with
  | nil => rfl
  | cons c xs ih => exact ih

def Segment (h : LinkedHeap α) (p : Option Nat) : List (Nat × α) → Option Nat → Prop
  | [], _ => True
  | (a, x) :: cells, q => h a = some ⟨x, p, first cells q⟩ ∧ Segment h (some a) cells q

theorem segment_append :
    Segment h p (xs ++ ys) q ↔ Segment h p xs (first ys q) ∧ Segment h (final xs p) ys q := by
  induction xs generalizing p with
  | nil => simp [Segment]
  | cons c xs ih =>
    obtain ⟨a, x⟩ := c
    simp only [List.cons_append, Segment, ih, first_append, final_cons, and_assoc]

/-- A segment only depends on its own addresses. -/
theorem Segment.congr (hs : Segment h p cells q) (heq : ∀ a ∈ cells.map Prod.fst, h' a = h a) :
    Segment h' p cells q := by
  induction cells generalizing p with
  | nil => trivial
  | cons c cells ih =>
    obtain ⟨a, x⟩ := c
    refine ⟨(heq a (by simp)).trans hs.1, ih hs.2 fun b hb => heq b ?_⟩
    rw [List.map_cons]
    exact List.mem_cons_of_mem _ hb

theorem Segment.setNext_of_notMem (hs : Segment h p cells q) {b v : Option Nat}
    (hb : ∀ a ∈ cells.map Prod.fst, b ≠ some a) : Segment (setNext h b v) p cells q :=
  hs.congr fun a ha => setNext_of_ne (hb a ha)

theorem Segment.setPrev_of_notMem (hs : Segment h p cells q) {b v : Option Nat}
    (hb : ∀ a ∈ cells.map Prod.fst, b ≠ some a) : Segment (setPrev h b v) p cells q :=
  hs.congr fun a ha => setPrev_of_ne (hb a ha)

theorem Segment.free_of_notMem (hs : Segment h p cells q) (ha : a ∉ cells.map Prod.fst) :
    Segment (free h a) p cells q :=
  hs.congr fun b hb => free_of_ne (by rintro rfl; exact ha hb)

/-- A segment gets another successor by a write to its last node. -/
theorem Segment.setNext_final (hs : Segment h p cells q) (nodup : (cells.map Prod.fst).Nodup)
    (v : Option Nat) : Segment (setNext h (final cells none) v) p cells v := by
  rcases List.eq_nil_or_concat cells with rfl | ⟨xs, ⟨a, x⟩, rfl⟩
  · trivial
  · rw [List.concat_eq_append] at hs nodup ⊢
    obtain ⟨hxs, ha, -⟩ := segment_append.1 hs
    have hfresh : ∀ b ∈ xs.map Prod.fst, some a ≠ some b := by
      rintro b hb ⟨⟩
      rw [List.map_append, List.nodup_append] at nodup
      exact nodup.2.2 a hb a (by simp) rfl
    rw [final_append]
    refine segment_append.2 ⟨hxs.setNext_of_notMem hfresh, ?_, trivial⟩
    simp [setNext, ha]

/-- A segment gets another predecessor by a write to its first node. -/
theorem Segment.setPrev_first (hs : Segment h p cells q) (nodup : (cells.map Prod.fst).Nodup)
    (v : Option Nat) : Segment (setPrev h (first cells none) v) v cells q := by
  cases cells with
  | nil => trivial
  | cons c ys =>
    obtain ⟨a, x⟩ := c
    obtain ⟨ha, hys⟩ := hs
    refine ⟨by simp [setPrev, ha], hys.setPrev_of_notMem ?_⟩
    rintro b hb ⟨⟩
    exact (List.nodup_cons.1 nodup).1 hb

theorem first_eq_some (h : first cells none = some a) : a ∈ cells.map Prod.fst := by
  cases cells with
  | nil => cases h
  | cons c cells => cases h; simp

theorem final_eq_some (h : final cells none = some a) : a ∈ cells.map Prod.fst := by
  rcases List.eq_nil_or_concat cells with rfl | ⟨xs, ⟨b, x⟩, rfl⟩
  · cases h
  · rw [List.concat_eq_append, final_append] at h
    cases h
    simp

/-! ## Whole lists -/

/-- The cells are the nodes of the heap, and they are linked in this order. -/
structure Linked (h : LinkedHeap α) (cells : List (Nat × α)) : Prop where
  segment : Segment h none cells none
  nodup : (cells.map Prod.fst).Nodup
  exact_nodes : ∀ a, (h a).isSome ↔ a ∈ cells.map Prod.fst

theorem Linked.empty : Linked (fun _ => none : LinkedHeap α) [] :=
  ⟨trivial, List.nodup_nil, by simp⟩

/-- The node of a cell, with the neighbours it has in the list. -/
theorem Linked.node (hl : Linked h (xs ++ (a, x) :: ys)) :
    h a = some ⟨x, final xs none, first ys none⟩ :=
  (segment_append.1 hl.segment).2.1

/-- Bridge the node at `a` in both directions, then free it. -/
def unlink (h : LinkedHeap α) (a : Nat) (prev next : Option Nat) : LinkedHeap α :=
  free (setPrev (setNext h prev next) next prev) a

theorem Linked.unlink (hl : Linked h (xs ++ (a, x) :: ys)) :
    Linked (unlink h a (final xs none) (first ys none)) (xs ++ ys) := by
  have hnodup := hl.nodup
  rw [List.map_append, List.map_cons, List.nodup_append, List.nodup_cons] at hnodup
  obtain ⟨hnx, ⟨hay, hny⟩, hdis⟩ := hnodup
  have hax : a ∉ xs.map Prod.fst := fun ha => hdis a ha a (by simp) rfl
  have hxy : ∀ b ∈ xs.map Prod.fst, b ∉ ys.map Prod.fst :=
    fun b hb hb' => hdis b hb b (List.mem_cons_of_mem _ hb') rfl
  obtain ⟨hxs, -, hys⟩ := segment_append.1 hl.segment
  refine ⟨segment_append.2 ⟨?_, ?_⟩, ?_, fun b => ?_⟩
  · refine Segment.free_of_notMem (Segment.setPrev_of_notMem (hxs.setNext_final hnx _) ?_) hax
    intro b hb hfirst
    exact hxy b hb (first_eq_some hfirst)
  · refine Segment.free_of_notMem (Segment.setPrev_first (hys.setNext_of_notMem ?_) hny _) hay
    intro b hb hfinal
    exact hxy b (final_eq_some hfinal) hb
  · rw [List.map_append]
    exact List.nodup_append.2 ⟨hnx, hny, fun b hb c hc => by rintro rfl; exact hxy b hb hc⟩
  · by_cases hb : b = a
    · subst hb
      simp [LinkedHeap.unlink, hax, hay]
    · have := hl.exact_nodes b
      simp only [List.map_append, List.map_cons, List.mem_append, List.mem_cons, hb, false_or] at this
      rw [LinkedHeap.unlink, free_of_ne hb]
      simpa using this

/-- Write a new node behind the last one. -/
def link (h : LinkedHeap α) (a : Nat) (x : α) (last : Option Nat) : LinkedHeap α :=
  setNext (Function.update h a (some ⟨x, last, none⟩)) last (some a)

theorem Linked.link (hl : Linked h cells) (ha : h a = none) :
    Linked (link h a x (final cells none)) (cells ++ [(a, x)]) := by
  have hnew : a ∉ cells.map Prod.fst := fun hm => by simpa [ha] using (hl.exact_nodes a).2 hm
  have hold : Segment (Function.update h a (some ⟨x, final cells none, none⟩)) none cells none := by
    refine hl.segment.congr fun b hb => Function.update_of_ne ?_ _ _
    rintro rfl
    exact hnew hb
  refine ⟨segment_append.2 ⟨hold.setNext_final hl.nodup _, ?_, trivial⟩, ?_, fun b => ?_⟩
  · rw [LinkedHeap.link, setNext_of_ne fun he => hnew (final_eq_some he)]
    simp
  · rw [List.map_append, List.nodup_append]
    refine ⟨hl.nodup, by simp, fun b hb c hc hbc => ?_⟩
    rw [List.map_singleton, List.mem_singleton] at hc
    rw [hbc, hc] at hb
    exact hnew hb
  · by_cases hb : b = a
    · subst hb
      simp [LinkedHeap.link]
    · simp [LinkedHeap.link, hl.exact_nodes b, hb]

end LinkedHeap
