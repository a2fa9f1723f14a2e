import Mathlib.Data.List.Basic
import Mathlib.Logic.Function.Basic

/-!
# What a call does to objects

A call creates objects, reads the variables that point to them, works on them and releases them. `Slot` is what such a
variable holds: what was in it before, something that the caller has put there, null or an object of the call. The trace
of a call is `Clean` if no variable is read before it is set, if what is worked on and what is released is an object of
the call that is not released yet, and if in the end all are released.

`Keeps trace live` goes along with a call: the trace is clean so far and leaves the objects `live`. A `State` is the
variables of a call with its trace; `Kept` says what each of its operations keeps.
-/

namespace Lifetime

variable {ω : Type}

inductive Slot where
  /-- Never set; `content` is what happens to be there, null or a pointer. -/
  | unset (content : Option Nat)
  /-- Set by the caller. -/
  | given (content : Option Nat)
  | null
  | object (n : Nat)
deriving DecidableEq, Repr

def Slot.isNull : Slot → Bool
  | .unset content => content.isNone
  | .given content => content.isNone
  | .null => true
  | .object _ => false

/-- What is done, in order; `ω` names the operations on an object. -/
inductive Event (ω : Type) where
  | created (n : Nat)
  | read (s : Slot)
  | applied (operation : ω) (s : Slot)
  | released (s : Slot)
deriving DecidableEq, Repr

abbrev Trace (ω : Type) := List (Event ω)

def Alive (n : Nat) (t : Trace ω) : Prop := .created n ∈ t ∧ .released (.object n) ∉ t

/-- What may come next: a variable that is read has been set, and what is worked on or released is alive. -/
def Allowed (t : Trace ω) : Event ω → Prop
  | .created _ => True
  | .read s => ∀ content, s ≠ .unset content
  | .applied _ s => ∃ n, s = .object n ∧ Alive n t
  | .released s => ∃ n, s = .object n ∧ Alive n t

def Sound (t : Trace ω) : Prop := ∀ before e after, t = before ++ e :: after → Allowed before e

/-- All that a call does to objects, it does to its own, and it leaves none behind. -/
structure Clean (t : Trace ω) : Prop where
  sound : Sound t
  all_released : ∀ n, .created n ∈ t → .released (.object n) ∈ t

/-- A trace that is not over, with the objects that are left. -/
structure Keeps (t : Trace ω) (live : List Nat) : Prop where
  sound : Sound t
  alive_iff : ∀ n, Alive n t ↔ n ∈ live

theorem Sound.nil : Sound ([] : Trace ω) := by
  intro before e after h
  simp at h

theorem Sound.concat {t : Trace ω} {e : Event ω} (h : Sound t) (he : Allowed t e) : Sound (t ++ [e]) := by
  intro before f after ht
  rcases List.eq_nil_or_concat after with rfl | ⟨after', g, rfl⟩
  · obtain ⟨rfl, hf⟩ := List.append_inj' ht rfl
    cases hf
    exact he
  · have hassoc : before ++ f :: (after' ++ [g]) = (before ++ f :: after') ++ [g] := by simp
    rw [List.concat_eq_append, hassoc] at ht
    exact h before f after' (List.append_inj' ht rfl).1

theorem Sound.of_mem {t : Trace ω} {e : Event ω} (h : Sound t) (he : e ∈ t) : ∃ before, Allowed before e := by
  obtain ⟨before, after, ht⟩ := List.append_of_mem he
  exact ⟨before, h before e after ht⟩

namespace Keeps

variable {t : Trace ω} {live : List Nat}

theorem nil : Keeps ([] : Trace ω) [] := ⟨Sound.nil, fun n => by simp [Alive]⟩

theorem created (h : Keeps t live) {n : Nat} (hnever : .released (.object n) ∉ t) :
    Keeps (t ++ [.created n]) (n :: live) := by
  refine ⟨h.sound.concat trivial, fun m => ?_⟩
  rw [List.mem_cons, ← h.alive_iff]
  by_cases hm : m = n
  · subst hm
    simp [Alive, hnever]
  · simp [Alive, hm]

theorem read (h : Keeps t live) {s : Slot} (hset : ∀ content, s ≠ .unset content) : Keeps (t ++ [.read s]) live := by
  refine ⟨h.sound.concat hset, fun m => ?_⟩
  rw [← h.alive_iff]
  simp [Alive]

theorem applied (h : Keeps t live) {n : Nat} (hn : n ∈ live) (operation : ω) :
    Keeps (t ++ [.applied operation (.object n)]) live := by
  refine ⟨h.sound.concat ⟨n, rfl, (h.alive_iff n).2 hn⟩, fun m => ?_⟩
  rw [← h.alive_iff]
  simp [Alive]

theorem released (h : Keeps t live) {n : Nat} (hn : n ∈ live) :
    Keeps (t ++ [.released (.object n)]) (live.filter (· ≠ n)) := by
  refine ⟨h.sound.concat ⟨n, rfl, (h.alive_iff n).2 hn⟩, fun m => ?_⟩
  rw [List.mem_filter, ← h.alive_iff, decide_eq_true_eq]
  simp [Alive, and_assoc]

/-- A call that leaves nothing. -/
theorem clean (h : Keeps t []) : Clean t := by
  refine ⟨h.sound, fun n hn => ?_⟩
  by_contra hleft
  exact List.not_mem_nil ((h.alive_iff n).1 ⟨hn, hleft⟩)

end Keeps

/-- What a clean call has created it releases once, and nothing else. -/
theorem Clean.count_released [DecidableEq ω] {t : Trace ω} (h : Clean t) (n : Nat) :
    t.count (.released (.object n)) = if .created n ∈ t then 1 else 0 := by
  split_ifs with hn
  · obtain ⟨before, after, ht⟩ := List.append_of_mem (h.all_released n hn)
    obtain ⟨m, hm, halive⟩ := h.sound before _ after ht
    cases hm
    have hafter : .released (.object n) ∉ after := by
      intro hmem
      obtain ⟨before', after', ht'⟩ := List.append_of_mem hmem
      obtain ⟨m, hm, halive'⟩ := h.sound (before ++ .released (.object n) :: before') (.released (.object n)) after'
        (by rw [ht, ht']; simp)
      cases hm
      exact halive'.2 (by simp)
    rw [ht, List.count_append, List.count_eq_zero.2 halive.2, List.count_cons_self, List.count_eq_zero.2 hafter]
  · rw [List.count_eq_zero]
    intro hmem
    obtain ⟨before, after, ht⟩ := List.append_of_mem hmem
    obtain ⟨m, hm, halive⟩ := h.sound before _ after ht
    cases hm
    exact hn (by rw [ht]; simp [halive.1])

/-! ## The variables of a call -/

variable {φ : Type}

/-- Objects are numbered as they are created. -/
structure State (φ ω : Type) where
  slots : φ → Slot
  objects : Nat
  trace : Trace ω

namespace State

def start (slots : φ → Slot) : State φ ω := ⟨slots, 0, []⟩

def read (s : State φ ω) (l : φ) : State φ ω := { s with trace := s.trace ++ [.read (s.slots l)] }

def apply (s : State φ ω) (operation : ω) (l : φ) : State φ ω :=
  { s with trace := s.trace ++ [.applied operation (s.slots l)] }

variable [DecidableEq φ]

def set (s : State φ ω) (l : φ) (v : Slot) : State φ ω := { s with slots := Function.update s.slots l v }

/-- An allocation; null if it fails. -/
def allocate (s : State φ ω) (l : φ) (succeeds : Bool) : State φ ω :=
  if succeeds then
    { slots := Function.update s.slots l (.object s.objects), objects := s.objects + 1,
      trace := s.trace ++ [.created s.objects] }
  else s.set l .null

/-- The variable is read, its object released if there is one, and the variable set to null. -/
def free (s : State φ ω) (l : φ) : State φ ω :=
  let released := if (s.slots l).isNull then [] else [.released (s.slots l)]
  { s with slots := Function.update s.slots l .null, trace := s.trace ++ .read (s.slots l) :: released }

end State

/-- Clean so far, and the next number is new. -/
structure Kept (s : State φ ω) (live : List Nat) : Prop where
  keeps : Keeps s.trace live
  fresh : ∀ n, .created n ∈ s.trace → n < s.objects

namespace Kept

variable {s : State φ ω} {live : List Nat}

theorem start (slots : φ → Slot) : Kept (State.start slots : State φ ω) [] :=
  ⟨.nil, fun _ h => absurd h List.not_mem_nil⟩

theorem read (h : Kept s live) {l : φ} (hset : ∀ content, s.slots l ≠ .unset content) : Kept (s.read l) live :=
  ⟨h.keeps.read hset, fun n hn => h.fresh n (by simpa [State.read] using hn)⟩

theorem apply (h : Kept s live) {l : φ} {n : Nat} (hl : s.slots l = .object n) (hn : n ∈ live) (operation : ω) :
    Kept (s.apply operation l) live := by
  refine ⟨?_, fun m hm => h.fresh m (by simpa [State.apply] using hm)⟩
  rw [State.apply, hl]
  exact h.keeps.applied hn operation

variable [DecidableEq φ]

theorem set (h : Kept s live) (l : φ) (v : Slot) : Kept (s.set l v) live := ⟨h.keeps, h.fresh⟩

theorem allocate (h : Kept s live) (l : φ) : Kept (s.allocate l true) (s.objects :: live) := by
  have hnever : .released (.object s.objects) ∉ s.trace := by
    intro hmem
    obtain ⟨before, after, ht⟩ := List.append_of_mem hmem
    obtain ⟨m, hm, halive⟩ := h.keeps.sound before _ after ht
    cases hm
    exact Nat.lt_irrefl _ (h.fresh _ (by rw [ht]; simp [halive.1]))
  refine ⟨h.keeps.created hnever, fun m hm => ?_⟩
  simp only [State.allocate, if_true, List.mem_append, List.mem_singleton, Event.created.injEq] at hm ⊢
  rcases hm with hm | rfl
  · exact Nat.lt_succ_of_lt (h.fresh m hm)
  · exact Nat.lt_succ_self _

theorem free_object (h : Kept s live) {l : φ} {n : Nat} (hl : s.slots l = .object n) (hn : n ∈ live) :
    Kept (s.free l) (live.filter (· ≠ n)) := by
  have htrace : (s.free l).trace = s.trace ++ [.read (.object n)] ++ [.released (.object n)] := by
    rw [State.free, hl]
    simp [Slot.isNull]
  refine ⟨?_, fun m hm => h.fresh m (by simpa [htrace] using hm)⟩
  rw [htrace]
  exact (h.keeps.read fun _ he => by cases he).released hn

theorem free_null (h : Kept s live) {l : φ} (hset : ∀ content, s.slots l ≠ .unset content)
    (hl : (s.slots l).isNull = true) : Kept (s.free l) live := by
  have htrace : (s.free l).trace = s.trace ++ [.read (s.slots l)] := by
    rw [State.free, hl]
    simp
  refine ⟨?_, fun m hm => h.fresh m (by simpa [htrace] using hm)⟩
  rw [htrace]
  exact h.keeps.read hset

end Kept

end Lifetime
