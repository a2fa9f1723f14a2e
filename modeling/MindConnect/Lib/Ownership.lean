import Mathlib.Data.List.Basic
import Mathlib.Logic.Function.Basic

/-!
# Owned objects and borrowed references

An owner holds one object, or a null reference, for each of its fields. To replace an object it releases the
old one and allocates the new one. A reference is the number of its allocation, and the cell of a released
object stays empty, so that no reference is given out twice.

A borrower keeps a reference of a field. It designates the owner's object as long as the field is not replaced
(`Borrowed.evolves`), and once it was replaced never again.
-/

namespace Ownership

variable {φ α : Type}

/-- Every reference that the owner has is to an object of its own that is not released. -/
structure Owner (φ α : Type) where
  cells : List (Option α)
  ref : φ → Option Nat
  live : ∀ f r, ref f = some r → ∃ a, cells[r]? = some (some a)
  apart : ∀ f g r, ref f = some r → ref g = some r → f = g

/-- `free`, for which a null reference is nothing. -/
def release (cells : List (Option α)) : Option Nat → List (Option α)
  | none => cells
  | some r => cells.set r none

@[simp] theorem length_release (cells : List (Option α)) (b : Option Nat) :
    (release cells b).length = cells.length := by
  cases b <;> simp [release]

theorem getElem?_release_of_ne {cells : List (Option α)} {b : Option Nat} {r : Nat} (hne : b ≠ some r) :
    (release cells b)[r]? = cells[r]? := by
  cases b with
  | none => rfl
  | some s => rw [release, List.getElem?_set_ne fun h => hne (congrArg some h)]

namespace Owner

/-- Reading through a reference: a null pointer has no object, and what was released cannot be read. -/
def deref (o : Owner φ α) : Option Nat → Option (Option α)
  | none => some none
  | some r => (o.cells[r]?).join.map some

def value (o : Owner φ α) (f : φ) : Option α := (o.ref f).bind fun r => (o.cells[r]?).join

def empty : Owner φ α := ⟨[], fun _ => none, fun _ _ h => (nomatch h), fun _ _ _ h => (nomatch h)⟩

theorem ref_lt (o : Owner φ α) {f : φ} {r : Nat} (h : o.ref f = some r) : r < o.cells.length := by
  obtain ⟨a, ha⟩ := o.live f r h
  exact (List.getElem?_eq_some_iff.1 ha).1

theorem value_eq_none_iff (o : Owner φ α) (f : φ) : o.value f = none ↔ o.ref f = none := by
  unfold value
  cases href : o.ref f with
  | none => simp
  | some r =>
    obtain ⟨a, ha⟩ := o.live f r href
    simp [ha]

theorem deref_ref (o : Owner φ α) (f : φ) : o.deref (o.ref f) = some (o.value f) := by
  unfold deref value
  cases href : o.ref f with
  | none => rfl
  | some r =>
    obtain ⟨a, ha⟩ := o.live f r href
    simp [ha]

/-! ## Borrowed references -/

/-- The reference is to the object that the owner has for the field. -/
def Designates (o : Owner φ α) (f : φ) (b : Option Nat) : Prop :=
  ∃ r a, b = some r ∧ o.ref f = some r ∧ o.deref b = some (some a)

/-- The reference is null or to a released object. -/
def Dangling (o : Owner φ α) (b : Option Nat) : Prop := ∀ r, b = some r → o.cells[r]? = some none

theorem designates_iff (o : Owner φ α) {f : φ} {b : Option Nat} (hb : b = o.ref f) :
    o.Designates f b ↔ o.value f ≠ none := by
  subst hb
  unfold Designates
  rw [o.deref_ref]
  cases hvalue : o.value f with
  | none => simp
  | some a =>
    cases href : o.ref f with
    | none => rw [(o.value_eq_none_iff f).2 href] at hvalue; cases hvalue
    | some r => simp

theorem Dangling.not_designates {o : Owner φ α} {f : φ} {b : Option Nat} (hb : o.Dangling b) :
    ¬ o.Designates f b := by
  rintro ⟨r, a, rfl, -, hderef⟩
  simp [deref, hb r rfl] at hderef

/-! ## What a step does to one field -/

/-- A step to `o'` that replaces the object of `f`, or leaves it. -/
structure Evolves (f : φ) (replaced : Prop) (o o' : Owner φ α) : Prop where
  dangling : ∀ b, o.Dangling b → o'.Dangling b
  kept : ¬ replaced → o'.ref f = o.ref f ∧ o'.value f = o.value f
  gone : replaced → o'.Dangling (o.ref f)

theorem Evolves.refl {f : φ} {replaced : Prop} (o : Owner φ α) (h : ¬ replaced) : Evolves f replaced o o :=
  ⟨fun _ hb => hb, fun _ => ⟨rfl, rfl⟩, fun hr => absurd hr h⟩

theorem Evolves.congr {f : φ} {p q : Prop} {o o' : Owner φ α} (h : Evolves f p o o') (hpq : p ↔ q) :
    Evolves f q o o' :=
  ⟨h.dangling, fun hq => h.kept (mt hpq.1 hq), fun hq => h.gone (hpq.2 hq)⟩

theorem Evolves.trans {f : φ} {p q : Prop} {o o' o'' : Owner φ α} (h : Evolves f p o o')
    (h' : Evolves f q o' o'') : Evolves f (p ∨ q) o o'' := by
  refine ⟨fun b hb => h'.dangling b (h.dangling b hb), fun hneither => ?_, fun heither => ?_⟩
  · obtain ⟨hp, hq⟩ := not_or.1 hneither
    exact ⟨(h'.kept hq).1.trans (h.kept hp).1, (h'.kept hq).2.trans (h.kept hp).2⟩
  · by_cases hp : p
    · exact h'.dangling _ (h.gone hp)
    · rw [← (h.kept hp).1]
      exact h'.gone (heither.resolve_left hp)

/-- The life of a borrowed reference. It is `lost` if it was null from the first or the field was replaced
since it was taken. -/
structure Borrowed (o : Owner φ α) (f : φ) (lost : Prop) (b : Option Nat) : Prop where
  current : ¬ lost → b = o.ref f ∧ o.value f ≠ none
  dangling : lost → o.Dangling b

theorem Borrowed.designates_iff {o : Owner φ α} {f : φ} {lost : Prop} {b : Option Nat}
    (h : o.Borrowed f lost b) : o.Designates f b ↔ ¬ lost := by
  by_cases hlost : lost
  · simp [hlost, (h.dangling hlost).not_designates]
  · obtain ⟨hb, hvalue⟩ := h.current hlost
    simp [hlost, (o.designates_iff hb).2 hvalue]

/-- One step later. -/
theorem Borrowed.evolves {o o' : Owner φ α} {f : φ} {p q : Prop} {b : Option Nat} (h : o.Borrowed f p b)
    (hstep : Evolves f q o o') : o'.Borrowed f (p ∨ q) b := by
  refine ⟨fun hneither => ?_, fun heither => ?_⟩
  · obtain ⟨hp, hq⟩ := not_or.1 hneither
    obtain ⟨hb, hvalue⟩ := h.current hp
    obtain ⟨href, hkept⟩ := hstep.kept hq
    exact ⟨hb.trans href.symm, fun hnone => hvalue (hkept.symm.trans hnone)⟩
  · by_cases hp : p
    · exact hstep.dangling b (h.dangling hp)
    · rw [(h.current hp).1]
      exact hstep.gone (heither.resolve_left hp)

theorem Borrowed.congr {o : Owner φ α} {f : φ} {p q : Prop} {b : Option Nat} (h : o.Borrowed f p b)
    (hpq : p ↔ q) : o.Borrowed f q b :=
  ⟨fun hq => h.current (mt hpq.1 hq), fun hq => h.dangling (hpq.2 hq)⟩

/-! ## Replacing -/

/-- The cells once the object of `f` is released and the new one allocated. -/
def assignedCells (o : Owner φ α) (f : φ) (v : Option α) : List (Option α) :=
  release o.cells (o.ref f) ++ v.toList.map some

/-- The objects of the other fields are where they were. -/
theorem assignedCells_of_ne (o : Owner φ α) {f g : φ} (v : Option α) (hne : g ≠ f) {r : Nat}
    (hr : o.ref g = some r) : (o.assignedCells f v)[r]? = o.cells[r]? := by
  have hlt := o.ref_lt hr
  rw [assignedCells, List.getElem?_append_left (by simpa using hlt), getElem?_release_of_ne]
  intro hf
  exact hne (o.apart g f r hr hf)

theorem assignedCells_self (o : Owner φ α) (f : φ) (a : α) :
    (o.assignedCells f (some a))[o.cells.length]? = some (some a) := by
  rw [assignedCells, List.getElem?_append_right (by simp)]
  simp

variable [DecidableEq φ]

def assignedRef (o : Owner φ α) (f : φ) (v : Option α) : φ → Option Nat :=
  Function.update o.ref f (v.map fun _ => o.cells.length)

theorem assignedRef_self (o : Owner φ α) (f : φ) (v : Option α) :
    o.assignedRef f v f = v.map fun _ => o.cells.length := by
  rw [assignedRef, Function.update_self]

theorem assignedRef_of_ne (o : Owner φ α) {f g : φ} (v : Option α) (hne : g ≠ f) :
    o.assignedRef f v g = o.ref g := by
  rw [assignedRef, Function.update_of_ne hne]

/-- Free, allocate, set. -/
def assign (o : Owner φ α) (f : φ) (v : Option α) : Owner φ α where
  cells := o.assignedCells f v
  ref := o.assignedRef f v
  live := by
    intro g r hr
    by_cases hg : g = f
    · subst hg
      rw [assignedRef_self] at hr
      cases v with
      | none => cases hr
      | some a =>
        cases hr
        exact ⟨a, o.assignedCells_self g a⟩
    · rw [o.assignedRef_of_ne v hg] at hr
      rw [o.assignedCells_of_ne v hg hr]
      exact o.live g r hr
  apart := by
    -- a new reference is past the end, where no old one is
    have hnew : ∀ g r, o.assignedRef f v g = some r → (g = f ∧ r = o.cells.length) ∨ (g ≠ f ∧ o.ref g = some r) := by
      intro g r hr
      by_cases hg : g = f
      · subst hg
        rw [assignedRef_self] at hr
        cases v with
        | none => cases hr
        | some a => exact .inl ⟨rfl, (Option.some.inj hr).symm⟩
      · rw [o.assignedRef_of_ne v hg] at hr
        exact .inr ⟨hg, hr⟩
    intro g h r hg hh
    rcases hnew g r hg with ⟨hgf, hr⟩ | ⟨-, hg'⟩
    · rcases hnew h r hh with ⟨hhf, -⟩ | ⟨-, hh'⟩
      · exact hgf.trans hhf.symm
      · exact absurd (hr ▸ o.ref_lt hh') (Nat.lt_irrefl _)
    · rcases hnew h r hh with ⟨-, hr⟩ | ⟨-, hh'⟩
      · exact absurd (hr ▸ o.ref_lt hg') (Nat.lt_irrefl _)
      · exact o.apart g h r hg' hh'

/-- Several fields, one after the other. -/
def assignAll (o : Owner φ α) (fs : List φ) (v : φ → Option α) : Owner φ α :=
  fs.foldl (fun o f => o.assign f (v f)) o

@[simp] theorem value_assign_self (o : Owner φ α) (f : φ) (v : Option α) : (o.assign f v).value f = v := by
  show ((o.assignedRef f v f).bind fun r => ((o.assignedCells f v)[r]?).join) = v
  rw [assignedRef_self]
  cases v with
  | none => rfl
  | some a => simp [o.assignedCells_self f a]

theorem value_assign_of_ne (o : Owner φ α) {f g : φ} (v : Option α) (hne : g ≠ f) :
    (o.assign f v).value g = o.value g := by
  show ((o.assignedRef f v g).bind fun r => ((o.assignedCells f v)[r]?).join) = o.value g
  rw [o.assignedRef_of_ne v hne, value]
  cases hr : o.ref g with
  | none => rfl
  | some r => simp [o.assignedCells_of_ne v hne hr]

theorem value_assignAll (o : Owner φ α) (fs : List φ) (v : φ → Option α) (g : φ) :
    (o.assignAll fs v).value g = if g ∈ fs then v g else o.value g := by
  induction fs generalizing o with
  | nil => simp [assignAll]
  | cons f fs ih =>
    have hstep : o.assignAll (f :: fs) v = (o.assign f (v f)).assignAll fs v := rfl
    rw [hstep, ih]
    by_cases hmem : g ∈ fs
    · simp [hmem]
    · by_cases hg : g = f
      · subst hg
        simp [hmem]
      · simp [hmem, hg, o.value_assign_of_ne (v f) hg]

theorem Dangling.assign {o : Owner φ α} {b : Option Nat} (hb : o.Dangling b) (f : φ) (v : Option α) :
    (o.assign f v).Dangling b := by
  intro r hr
  have hcell := hb r hr
  have hlt : r < o.cells.length := (List.getElem?_eq_some_iff.1 hcell).1
  show (o.assignedCells f v)[r]? = some none
  rw [assignedCells, List.getElem?_append_left (by simpa using hlt), getElem?_release_of_ne, hcell]
  intro hf
  obtain ⟨a, ha⟩ := o.live f r hf
  rw [hcell] at ha
  cases ha

theorem dangling_assign_self (o : Owner φ α) (f : φ) (v : Option α) : (o.assign f v).Dangling (o.ref f) := by
  intro r hr
  have hlt := o.ref_lt hr
  show (o.assignedCells f v)[r]? = some none
  rw [assignedCells, List.getElem?_append_left (by simpa using hlt), hr, release]
  simp [hlt]

theorem evolves_assign (o : Owner φ α) (f g : φ) (v : Option α) : Evolves f (f = g) o (o.assign g v) := by
  refine ⟨fun b hb => hb.assign g v, fun hne => ?_, ?_⟩
  · exact ⟨o.assignedRef_of_ne v hne, o.value_assign_of_ne v hne⟩
  · rintro rfl
    exact o.dangling_assign_self f v

theorem evolves_assignAll (o : Owner φ α) (f : φ) (gs : List φ) (v : φ → Option α) :
    Evolves f (f ∈ gs) o (o.assignAll gs v) := by
  induction gs generalizing o with
  | nil => exact .refl o (by simp)
  | cons g gs ih =>
    have hstep : o.assignAll (g :: gs) v = (o.assign g (v g)).assignAll gs v := rfl
    rw [hstep]
    exact ((o.evolves_assign f g (v g)).trans (ih _)).congr List.mem_cons.symm

end Owner

end Ownership
