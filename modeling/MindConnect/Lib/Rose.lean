import Mathlib.Data.List.Basic

/-!
# Rose trees and paths in them

A node has a label and any number of children; a path lists the child indices that lead from the root to a
node. `Everywhere P` says of every node what `P` says of its label and the labels of its children, so that
putting another tree with the same label in the place of a node (`replace`) only has to be looked at there.
-/

inductive Rose (α : Type) where
  | node (label : α) (children : List (Rose α))

namespace Rose

variable {α β : Type}

def label : Rose α → α
  | node a _ => a

def children : Rose α → List (Rose α)
  | node _ cs => cs

@[simp] theorem label_node (a : α) (cs : List (Rose α)) : (node a cs).label = a := rfl

@[simp] theorem children_node (a : α) (cs : List (Rose α)) : (node a cs).children = cs := rfl

@[ext] theorem ext {s t : Rose α} (hlabel : s.label = t.label) (hchildren : s.children = t.children) : s = t := by
  obtain ⟨a, cs⟩ := s
  obtain ⟨b, ds⟩ := t
  simp only [label_node, children_node] at hlabel hchildren
  rw [hlabel, hchildren]

/-! ## Subtrees -/

/-- The subtree that a path leads to. -/
def get? (t : Rose α) : List Nat → Option (Rose α)
  | [] => some t
  | i :: path => t.children[i]?.bind fun c => c.get? path

@[simp] theorem get?_nil (t : Rose α) : t.get? [] = some t := rfl

theorem get?_cons (t : Rose α) (i : Nat) (path : List Nat) :
    t.get? (i :: path) = t.children[i]?.bind fun c => c.get? path := rfl

/-- Another tree in the place that a path leads to. -/
def replace (t s : Rose α) : List Nat → Rose α
  | [] => s
  | i :: path =>
    match t.children[i]? with
    | some c => node t.label (t.children.set i (c.replace s path))
    | none => t

@[simp] theorem replace_nil (t s : Rose α) : t.replace s [] = s := rfl

theorem replace_cons_of_some {t c : Rose α} {i : Nat} (hc : t.children[i]? = some c) (s : Rose α)
    (path : List Nat) : t.replace s (i :: path) = node t.label (t.children.set i (c.replace s path)) := by
  rw [replace, hc]

theorem set_of_getElem? {l : List β} {i : Nat} {b : β} (h : l[i]? = some b) : l.set i b = l := by
  obtain ⟨hi, rfl⟩ := List.getElem?_eq_some_iff.1 h
  exact List.set_getElem_self hi

theorem replace_self {t s : Rose α} {path : List Nat} (h : t.get? path = some s) : t.replace s path = t := by
  induction path generalizing t with
  | nil => exact (Option.some.inj h).symm
  | cons i path ih =>
    rw [get?_cons] at h
    obtain ⟨c, hc, hs⟩ := Option.bind_eq_some_iff.1 h
    rw [replace_cons_of_some hc, ih hs]
    apply ext
    · rfl
    · exact set_of_getElem? hc

/-- A new last child. -/
def append (t c : Rose α) : Rose α := node t.label (t.children ++ [c])

@[simp] theorem label_append (t c : Rose α) : (t.append c).label = t.label := rfl

@[simp] theorem children_append (t c : Rose α) : (t.append c).children = t.children ++ [c] := rfl

theorem append_ne_self (t c : Rose α) : t.append c ≠ t := by
  intro h
  have hlen := congrArg (fun s : Rose α => s.children.length) h
  simp at hlen

def relabel (t : Rose α) (a : α) : Rose α := node a t.children

@[simp] theorem label_relabel (t : Rose α) (a : α) : (t.relabel a).label = a := rfl

@[simp] theorem children_relabel (t : Rose α) (a : α) : (t.relabel a).children = t.children := rfl

/-! ## What holds at every node -/

/-- `P` holds of the label and of the children's labels of every node. -/
def Everywhere (P : α → List α → Prop) (t : Rose α) : Prop :=
  ∀ path s, t.get? path = some s → P s.label (s.children.map label)

section
variable {P : α → List α → Prop}

theorem everywhere_iff {t : Rose α} :
    Everywhere P t ↔ P t.label (t.children.map label) ∧ ∀ c ∈ t.children, Everywhere P c := by
  constructor
  · intro h
    refine ⟨h [] t rfl, fun c hc path s hs => ?_⟩
    obtain ⟨i, hi⟩ := List.getElem?_of_mem hc
    exact h (i :: path) s (by rw [get?_cons, hi]; exact hs)
  · rintro ⟨hroot, hchildren⟩ path s hs
    cases path with
    | nil =>
      cases hs
      exact hroot
    | cons i path =>
      rw [get?_cons] at hs
      obtain ⟨c, hc, hs⟩ := Option.bind_eq_some_iff.1 hs
      exact hchildren c (List.mem_of_getElem? hc) path s hs

theorem Everywhere.get? {t s : Rose α} (h : Everywhere P t) {path : List Nat} (hs : t.get? path = some s) :
    Everywhere P s := by
  induction path generalizing t with
  | nil =>
    cases hs
    exact h
  | cons i path ih =>
    rw [get?_cons] at hs
    obtain ⟨c, hc, hs⟩ := Option.bind_eq_some_iff.1 hs
    exact ih ((everywhere_iff.1 h).2 c (List.mem_of_getElem? hc)) hs

theorem Everywhere.leaf {a : α} (h : P a []) : Everywhere P (node a []) :=
  everywhere_iff.2 ⟨h, by simp⟩

theorem Everywhere.append {t c : Rose α} (ht : Everywhere P t) (hc : Everywhere P c)
    (h : P t.label (t.children.map label ++ [c.label])) : Everywhere P (t.append c) := by
  refine everywhere_iff.2 ⟨by simpa using h, fun d hd => ?_⟩
  rcases List.mem_append.1 hd with hd | hd
  · exact (everywhere_iff.1 ht).2 d hd
  · rw [List.mem_singleton.1 hd]
    exact hc

theorem Everywhere.relabel {t : Rose α} (ht : Everywhere P t) {a : α} (h : P a (t.children.map label)) :
    Everywhere P (t.relabel a) :=
  everywhere_iff.2 ⟨h, (everywhere_iff.1 ht).2⟩

/-- A tree with the same label may take the place of a subtree. -/
theorem Everywhere.replace {t s s' : Rose α} (ht : Everywhere P t) {path : List Nat} (hs : t.get? path = some s)
    (hlabel : s'.label = s.label) (hs' : Everywhere P s') :
    (t.replace s' path).label = t.label ∧ Everywhere P (t.replace s' path) := by
  induction path generalizing t with
  | nil =>
    cases hs
    exact ⟨hlabel, hs'⟩
  | cons i path ih =>
    rw [get?_cons] at hs
    obtain ⟨c, hc, hs⟩ := Option.bind_eq_some_iff.1 hs
    obtain ⟨hroot, hchildren⟩ := everywhere_iff.1 ht
    obtain ⟨hsame, hrest⟩ := ih (hchildren c (List.mem_of_getElem? hc)) hs
    rw [replace_cons_of_some hc]
    refine ⟨rfl, everywhere_iff.2 ⟨?_, fun d hd => ?_⟩⟩
    · have hmap : (t.children.set i (c.replace s' path)).map label = t.children.map label := by
        rw [List.map_set, hsame]
        exact set_of_getElem? (by rw [List.getElem?_map, hc]; rfl)
      rw [label_node, children_node, hmap]
      exact hroot
    · rcases List.mem_or_eq_of_mem_set hd with hd | rfl
      · exact hchildren d hd
      · exact hrest

end

/-! ## Folding -/

mutual

/-- From the leaves up. -/
def fold (f : α → List β → β) : Rose α → β
  | node a cs => f a (foldAll f cs)

def foldAll (f : α → List β → β) : List (Rose α) → List β
  | [] => []
  | c :: cs => fold f c :: foldAll f cs

end

theorem foldAll_eq (f : α → List β → β) (cs : List (Rose α)) : foldAll f cs = cs.map (fold f) := by
  induction cs with
  | nil => rfl
  | cons c cs ih => rw [foldAll, ih, List.map_cons]

theorem fold_eq (f : α → List β → β) (t : Rose α) : fold f t = f t.label (t.children.map (fold f)) := by
  obtain ⟨a, cs⟩ := t
  rw [fold, foldAll_eq]
  rfl

end Rose
