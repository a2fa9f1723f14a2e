import Mathlib.Logic.Basic

/-!
# Programs that may fail

A program runs on a state. It gives an answer, or it fails and leaves a state behind, or what it does has no meaning
(`none`), such as an access outside a buffer. `Meets P x Q E` is total: from a state in `P` the run of `x` has a meaning,
an answer is in `Q` and a failure in `E`.

An `Arena` counts what is allocated and not yet released. Whether an allocation succeeds is said by its number.
-/

def Fallible (σ α : Type) := σ → Option (Option α × σ)

namespace Fallible

variable {σ α β : Type}

protected def pure (a : α) : Fallible σ α := fun s => some (some a, s)

protected def bind (x : Fallible σ α) (f : α → Fallible σ β) : Fallible σ β := fun s =>
  match x s with
  | none => none
  | some (none, s) => some (none, s)
  | some (some a, s) => f a s

instance : Monad (Fallible σ) where
  pure := Fallible.pure
  bind := Fallible.bind

def fail : Fallible σ α := fun s => some (none, s)

def get : Fallible σ σ := fun s => some (some s, s)

def modify (f : σ → σ) : Fallible σ Unit := fun s => some (some (), f s)

/-- What has a meaning only if there is something. -/
def access (o : Option α) : Fallible σ α := fun s => o.map fun a => (some a, s)

/-- Goes on only if `c` holds. -/
def check (c : Prop) [Decidable c] : Fallible σ Unit := if c then pure () else fail

/-- `y` is done behind a failure of `x`, which stays one. -/
def onFailure (x : Fallible σ α) (y : Fallible σ Unit) : Fallible σ α := fun s =>
  match x s with
  | some (none, s) => (y s).map fun r => (none, r.2)
  | r => r

/-! ## What a program meets -/

def Meets (P : σ → Prop) (x : Fallible σ α) (Q : α → σ → Prop) (E : σ → Prop) : Prop :=
  ∀ s, P s → ∃ r s', x s = some (r, s') ∧ (∀ a, r = some a → Q a s') ∧ (r = none → E s')

namespace Meets

variable {P P' : σ → Prop} {x : Fallible σ α} {Q Q' : α → σ → Prop} {E E' : σ → Prop}

theorem weaken (h : Meets P' x Q' E') (hP : ∀ s, P s → P' s) (hQ : ∀ a s, Q' a s → Q a s) (hE : ∀ s, E' s → E s) :
    Meets P x Q E := by
  intro s hs
  obtain ⟨r, s', hrun, hanswer, hfailure⟩ := h s (hP s hs)
  exact ⟨r, s', hrun, fun a ha => hQ a s' (hanswer a ha), fun hr => hE s' (hfailure hr)⟩

theorem pre (h : Meets P' x Q E) (hP : ∀ s, P s → P' s) : Meets P x Q E := h.weaken hP (fun _ _ h => h) fun _ h => h

theorem post (h : Meets P x Q' E) (hQ : ∀ a s, Q' a s → Q a s) : Meets P x Q E := h.weaken (fun _ h => h) hQ fun _ h => h

theorem failure (h : Meets P x Q E') (hE : ∀ s, E' s → E s) : Meets P x Q E :=
  h.weaken (fun _ h => h) (fun _ _ h => h) hE

/-- What the precondition says beside the state. -/
theorem assuming {c : Prop} (h : c → Meets P x Q E) : Meets (fun s => c ∧ P s) x Q E := fun s hs => h hs.1 s hs.2

theorem exists_pre {ι : Type} {P : ι → σ → Prop} (h : ∀ i, Meets (P i) x Q E) : Meets (fun s => ∃ i, P i s) x Q E := by
  rintro s ⟨i, hs⟩
  exact h i s hs

protected theorem pure {a : α} : Meets (Q a) (pure a : Fallible σ α) Q E := by
  intro s hs
  refine ⟨some a, s, rfl, ?_, fun h => by cases h⟩
  rintro b ⟨⟩
  exact hs

protected theorem fail : Meets E (fail : Fallible σ α) Q E := by
  intro s hs
  exact ⟨none, s, rfl, fun a ha => (by cases ha), fun _ => hs⟩

protected theorem bind {f : α → Fallible σ β} {Q : β → σ → Prop} {R : α → σ → Prop} (hx : Meets P x R E)
    (hf : ∀ a, Meets (R a) (f a) Q E) : Meets P (x >>= f) Q E := by
  intro s hs
  obtain ⟨r, s', hrun, hanswer, hfailure⟩ := hx s hs
  cases r with
  | none =>
    have hbind : (x >>= f) s = some (none, s') := by
      show Fallible.bind x f s = _
      rw [Fallible.bind, hrun]
    exact ⟨none, s', hbind, fun b hb => (by cases hb), fun _ => hfailure rfl⟩
  | some a =>
    have hbind : (x >>= f) s = f a s' := by
      show Fallible.bind x f s = _
      rw [Fallible.bind, hrun]
    rw [hbind]
    exact hf a s' (hanswer a rfl)

protected theorem get : Meets P get (fun a s => a = s ∧ P s) E := by
  intro s hs
  refine ⟨some s, s, rfl, ?_, fun h => by cases h⟩
  rintro a ⟨⟩
  exact ⟨rfl, hs⟩

protected theorem modify {f : σ → σ} {Q : Unit → σ → Prop} : Meets (fun s => Q () (f s)) (modify f) Q E := by
  intro s hs
  refine ⟨some (), f s, rfl, ?_, fun h => by cases h⟩
  rintro u ⟨⟩
  exact hs

protected theorem access {o : Option α} {a : α} (h : o = some a) : Meets (Q a) (access o : Fallible σ α) Q E := by
  subst h
  exact Meets.pure

protected theorem check {c : Prop} [Decidable c] {Q : Unit → σ → Prop} (hyes : ∀ s, c → P s → Q () s)
    (hno : ∀ s, ¬ c → P s → E s) : Meets P (check c) Q E := by
  by_cases hc : c
  · rw [Fallible.check, if_pos hc]
    exact Meets.pure.pre fun s hs => hyes s hc hs
  · rw [Fallible.check, if_neg hc]
    exact Meets.fail.pre fun s hs => hno s hc hs

theorem checked {c : Prop} [Decidable c] (hno : ∀ s, ¬ c → P s → E s) : Meets P (check c) (fun _ s => c ∧ P s) E :=
  Meets.check (fun _ hc hs => ⟨hc, hs⟩) hno

theorem accessed {o : Option α} {a : α} (h : o = some a) : Meets P (access o) (fun b s => b = a ∧ P s) E :=
  (Meets.access h).pre fun _ hs => ⟨rfl, hs⟩

protected theorem ite {c : Prop} [Decidable c] {y : Fallible σ α} (hx : c → Meets P x Q E) (hy : ¬ c → Meets P y Q E) :
    Meets P (if c then x else y) Q E := by
  by_cases hc : c
  · rw [if_pos hc]
    exact hx hc
  · rw [if_neg hc]
    exact hy hc

protected theorem onFailure {y : Fallible σ Unit} {F : σ → Prop} (hx : Meets P x Q F)
    (hy : Meets F y (fun _ => E) E) : Meets P (onFailure x y) Q E := by
  intro s hs
  obtain ⟨r, s', hrun, hanswer, hfailure⟩ := hx s hs
  cases r with
  | some a =>
    refine ⟨some a, s', ?_, hanswer, fun h => by cases h⟩
    rw [Fallible.onFailure, hrun]
  | none =>
    obtain ⟨r, s'', hrun', hanswer', hfailure'⟩ := hy s' (hfailure rfl)
    refine ⟨none, s'', ?_, fun a ha => (by cases ha), fun _ => ?_⟩
    · rw [Fallible.onFailure, hrun]
      simp only [hrun', Option.map_some]
    · cases r with
      | some u => exact hanswer' u rfl
      | none => exact hfailure' rfl

end Meets

end Fallible

/-! ## Allocations -/

/-- The data of a program with the number of its allocations so far and of those it has not released. -/
structure Arena (τ : Type) where
  allocations : Nat
  live : Nat
  data : τ

namespace Arena

open Fallible

variable {τ : Type}

def start (data : τ) : Arena τ := ⟨0, 0, data⟩

/-- `available k` is whether allocation `k` succeeds. -/
def allocate (available : Nat → Bool) : Fallible (Arena τ) Unit := fun s =>
  if available s.allocations then some (some (), { s with allocations := s.allocations + 1, live := s.live + 1 })
  else some (none, { s with allocations := s.allocations + 1 })

/-- No more can be released than there is. -/
def release (n : Nat) : Fallible (Arena τ) Unit := fun s =>
  if n ≤ s.live then some (some (), { s with live := s.live - n }) else none

def update (f : τ → τ) : Fallible (Arena τ) Unit := modify fun s => { s with data := f s.data }

/-- An allocation did not succeed. -/
def Refused (available : Nat → Bool) (s : Arena τ) : Prop := ∃ k < s.allocations, available k = false

theorem refused_succ {available : Nat → Bool} {s s' : Arena τ} (h : s'.allocations = s.allocations + 1) :
    Refused available s' ↔ Refused available s ∨ available s.allocations = false := by
  simp only [Refused, h, Nat.lt_succ_iff_lt_or_eq, or_and_right, exists_or, exists_eq_left]

section
variable {available : Nat → Bool} {P : Arena τ → Prop} {Q : Unit → Arena τ → Prop} {E : Arena τ → Prop}

theorem meets_allocate
    (hyes : ∀ s, P s → available s.allocations = true →
      Q () { s with allocations := s.allocations + 1, live := s.live + 1 })
    (hno : ∀ s, P s → available s.allocations = false → E { s with allocations := s.allocations + 1 }) :
    Meets P (allocate available) Q E := by
  intro s hs
  rw [allocate]
  cases h : available s.allocations with
  | true =>
    refine ⟨some (), _, rfl, ?_, fun h => by cases h⟩
    rintro u ⟨⟩
    exact hyes s hs h
  | false => exact ⟨none, _, rfl, fun a ha => (by cases ha), fun _ => hno s hs h⟩

theorem meets_release {n : Nat} (hle : ∀ s, P s → n ≤ s.live) (hQ : ∀ s, P s → Q () { s with live := s.live - n }) :
    Meets P (release n) Q E := by
  intro s hs
  rw [release, if_pos (hle s hs)]
  refine ⟨some (), _, rfl, ?_, fun h => by cases h⟩
  rintro u ⟨⟩
  exact hQ s hs

theorem meets_update {f : τ → τ} (hQ : ∀ s, P s → Q () { s with data := f s.data }) : Meets P (update f) Q E :=
  Meets.modify.pre hQ

end

end Arena
