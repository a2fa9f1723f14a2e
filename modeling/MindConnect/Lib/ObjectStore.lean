import Mathlib.Data.Multiset.Count
import Mathlib.Data.Multiset.MapFold
import Mathlib.Data.Multiset.UnionInter

/-!
# Objects that are created, handed on and destroyed

A `Store` numbers its objects as they are created; its trace has the creations and the calls of destroy functions, one
function for each kind `κ`. A call is `Allowed` on a null address, and on the address of a pointer that is null or refers
to a live object of that kind.

`Holds s live`: all calls so far were allowed, and `live` are the objects that are left, each once. A piece of code takes
`Holds s (mine + live)` to `Holds s' (mine' + live)`, whatever `live` is. `accounted` is what that comes to at the end.
-/

namespace ObjectStore

variable {κ : Type}

/-- What a destroy function is called with. -/
inductive Argument where
  | null
  /-- The address of a pointer, with what the pointer contains. -/
  | pointer (content : Option Nat)
  /-- An object, taken for the address of a pointer. -/
  | object (n : Nat)
deriving DecidableEq, Repr

inductive Event (κ : Type) where
  | created (kind : κ) (n : Nat)
  | destroy (function : κ) (argument : Argument)
deriving DecidableEq, Repr

abbrev Trace (κ : Type) := List (Event κ)

/-- The call that destroys object `n`, if it is one that destroys anything. -/
def Event.releases (n : Nat) : Event κ → Bool
  | .destroy _ (.pointer (some m)) => m == n
  | _ => false

/-- The object was created with this kind and has not been destroyed. -/
def Alive (k : κ) (n : Nat) (t : Trace κ) : Prop := .created k n ∈ t ∧ ∀ e ∈ t, e.releases n = false

/-- A destroy function gets the address of a pointer, and an object of its own kind behind it. -/
def Allowed (t : Trace κ) : Event κ → Prop
  | .created _ _ => True
  | .destroy _ .null => True
  | .destroy _ (.pointer none) => True
  | .destroy k (.pointer (some n)) => Alive k n t
  | .destroy _ (.object _) => False

/-- Every call is allowed where it is made. -/
def Sound (t : Trace κ) : Prop := ∀ before e after, t = before ++ e :: after → Allowed before e

/-- Every call is allowed, and every object is either destroyed once or reachable once. -/
structure Accounted (t : Trace κ) (reachable : Multiset (κ × Nat)) : Prop where
  sound : Sound t
  created : ∀ p ∈ reachable, .created p.1 p.2 ∈ t
  once : ∀ k n, .created k n ∈ t → (reachable.map Prod.snd).count n + t.countP (Event.releases n) = 1

/-- How many objects there have been, and what was done with them. -/
structure Store (κ : Type) where
  objects : Nat
  trace : Trace κ

namespace Store

def empty : Store κ := ⟨0, []⟩

/-- Objects are numbered in the order they are created in. -/
def create (s : Store κ) (kind : κ) : Store κ := ⟨s.objects + 1, s.trace ++ [.created kind s.objects]⟩

def call (s : Store κ) (function : κ) (argument : Argument) : Store κ :=
  { s with trace := s.trace ++ [.destroy function argument] }

end Store

/-- The objects that are left, each once; the numbers to come are new. -/
structure Holds (s : Store κ) (live : Multiset (κ × Nat)) : Prop where
  sound : Sound s.trace
  alive_iff : ∀ k n, Alive k n s.trace ↔ (k, n) ∈ live
  nodup : (live.map Prod.snd).Nodup
  fresh : ∀ e ∈ s.trace, ∀ k n, e = .created k n → n < s.objects
  known : ∀ e ∈ s.trace, ∀ n, e.releases n = true → n < s.objects

theorem Sound.nil : Sound ([] : Trace κ) := by
  intro before e after h
  simp at h

/-- One allowed event more. -/
theorem Sound.concat {t : Trace κ} {e : Event κ} (h : Sound t) (he : Allowed t e) : Sound (t ++ [e]) := by
  intro before f after ht
  rcases List.eq_nil_or_concat after with rfl | ⟨after', g, rfl⟩
  · obtain ⟨rfl, hf⟩ := List.append_inj' ht rfl
    cases hf
    exact he
  · have hassoc : before ++ f :: (after' ++ [g]) = (before ++ f :: after') ++ [g] := by simp
    rw [List.concat_eq_append, hassoc] at ht
    exact h before f after' (List.append_inj' ht rfl).1

theorem allowed_of_releases {t : Trace κ} {e : Event κ} {n : Nat} (h : Allowed t e) (he : e.releases n = true) :
    ∃ k, Alive k n t := by
  rcases e with ⟨k, m⟩ | ⟨k, _ | (_ | m) | m⟩
  · cases he
  · cases he
  · cases he
  · obtain rfl : m = n := by simpa [Event.releases] using he
    exact ⟨k, h⟩
  · cases he

/-- No object is destroyed twice. -/
theorem Sound.countP_le_one {t : Trace κ} (h : Sound t) (n : Nat) : t.countP (Event.releases n) ≤ 1 := by
  by_contra hmany
  -- the first of two calls is in front of the second, which finds the object dead
  obtain ⟨e, he, hreleases⟩ := List.countP_pos_iff.1 (by omega : 0 < t.countP (Event.releases n))
  obtain ⟨before, after, rfl⟩ := List.append_of_mem he
  rw [List.countP_append, List.countP_cons_of_pos hreleases] at hmany
  have hother : 0 < before.countP (Event.releases n) ∨ 0 < after.countP (Event.releases n) := by omega
  rcases hother with hbefore | hafter
  · obtain ⟨f, hf, hfirst⟩ := List.countP_pos_iff.1 hbefore
    obtain ⟨k, -, hdead⟩ := allowed_of_releases (h before e after rfl) hreleases
    simp [hdead f hf] at hfirst
  · obtain ⟨f, hf, hlater⟩ := List.countP_pos_iff.1 hafter
    obtain ⟨between, rest, rfl⟩ := List.append_of_mem hf
    obtain ⟨k, -, hdead⟩ := allowed_of_releases (h (before ++ e :: between) f rest (by simp)) hlater
    simp [hdead e (by simp)] at hreleases

namespace Holds

variable {s : Store κ} {live : Multiset (κ × Nat)} {k : κ} {n : Nat}

theorem empty : Holds (Store.empty : Store κ) 0 :=
  ⟨Sound.nil, fun k n => by simp [Alive, Store.empty], by simp, fun e he => absurd he List.not_mem_nil,
    fun e he => absurd he List.not_mem_nil⟩

theorem lt_of_mem (h : Holds s live) (hmem : (k, n) ∈ live) : n < s.objects :=
  h.fresh _ ((h.alive_iff k n).2 hmem).1 k n rfl

/-- A new object is held. -/
theorem create (h : Holds s live) (k : κ) : Holds (s.create k) ({(k, s.objects)} + live) := by
  have hreleases : ∀ n, (Event.created k s.objects).releases n = false := fun n => rfl
  refine ⟨h.sound.concat trivial, fun k' n => ?_, ?_, ?_, ?_⟩
  · rw [Multiset.mem_add, Multiset.mem_singleton, ← h.alive_iff]
    simp only [Alive, Store.create, List.mem_append, List.mem_singleton, or_imp, forall_and, forall_eq, hreleases,
      and_true, Event.created.injEq, Prod.mk.injEq]
    constructor
    · rintro ⟨hmem | ⟨rfl, rfl⟩, hnever⟩
      · exact .inr ⟨hmem, hnever⟩
      · exact .inl ⟨rfl, rfl⟩
    · rintro (⟨rfl, rfl⟩ | ⟨hmem, hnever⟩)
      · refine ⟨.inr ⟨rfl, rfl⟩, fun e he => ?_⟩
        by_contra hrel
        exact Nat.lt_irrefl _ (h.known e he s.objects (by simpa using hrel))
      · exact ⟨.inl hmem, hnever⟩
  · rw [Multiset.map_add, Multiset.map_singleton, Multiset.singleton_add, Multiset.nodup_cons]
    refine ⟨fun hmem => ?_, h.nodup⟩
    obtain ⟨⟨k', n⟩, hp, rfl⟩ := Multiset.mem_map.1 hmem
    exact Nat.lt_irrefl _ (h.lt_of_mem hp)
  · intro e he k' n hcreated
    rcases List.mem_append.1 he with hold | hnew
    · exact Nat.lt_succ_of_lt (h.fresh e hold k' n hcreated)
    · obtain rfl := List.mem_singleton.1 hnew
      cases hcreated
      exact Nat.lt_succ_self _
  · intro e he n hrel
    rcases List.mem_append.1 he with hold | hnew
    · exact Nat.lt_succ_of_lt (h.known e hold n hrel)
    · obtain rfl := List.mem_singleton.1 hnew
      cases hrel

/-- A call that finds nothing to destroy. -/
theorem call_nothing (h : Holds s live) (k : κ) {a : Argument} (ha : a = .null ∨ a = .pointer none) :
    Holds (s.call k a) live := by
  have hallowed : Allowed s.trace (.destroy k a) := by rcases ha with rfl | rfl <;> trivial
  have hreleases : ∀ n, (Event.destroy k a).releases n = false := by rcases ha with rfl | rfl <;> exact fun n => rfl
  refine ⟨h.sound.concat hallowed, fun k' n => ?_, h.nodup, ?_, ?_⟩
  · rw [← h.alive_iff]
    simp [Alive, Store.call, or_imp, forall_and, hreleases]
  · intro e he k' n hcreated
    rcases List.mem_append.1 he with hold | hnew
    · exact h.fresh e hold k' n hcreated
    · obtain rfl := List.mem_singleton.1 hnew
      cases hcreated
  · intro e he n hrel
    rcases List.mem_append.1 he with hold | hnew
    · exact h.known e hold n hrel
    · obtain rfl := List.mem_singleton.1 hnew
      rw [hreleases] at hrel
      cases hrel

/-- An object that is destroyed is no longer held. -/
theorem call_object (h : Holds s ({(k, n)} + live)) : Holds (s.call k (.pointer (some n))) live := by
  have halive : Alive k n s.trace := (h.alive_iff k n).2 (by simp)
  have hnodup := h.nodup
  rw [Multiset.map_add, Multiset.map_singleton, Multiset.singleton_add, Multiset.nodup_cons] at hnodup
  have hreleases : ∀ m, (Event.destroy k (.pointer (some n))).releases m = (n == m) := fun m => rfl
  refine ⟨h.sound.concat halive, fun k' m => ?_, hnodup.2, ?_, ?_⟩
  · have hold := h.alive_iff k' m
    rw [Multiset.mem_add, Multiset.mem_singleton] at hold
    have hsplit : Alive k' m (s.call k (.pointer (some n))).trace ↔ Alive k' m s.trace ∧ n ≠ m := by
      simp only [Alive, Store.call, List.mem_append, List.mem_singleton, or_imp, forall_and, forall_eq, hreleases,
        beq_eq_false_iff_ne, reduceCtorEq, or_false, and_assoc]
    rw [hsplit, hold]
    constructor
    · rintro ⟨heq | hmem, hne⟩
      · cases heq
        exact absurd rfl hne
      · exact hmem
    · refine fun hmem => ⟨.inr hmem, ?_⟩
      rintro rfl
      exact hnodup.1 (Multiset.mem_map.2 ⟨(k', n), hmem, rfl⟩)
  · intro e he k' m hcreated
    rcases List.mem_append.1 he with hold | hnew
    · exact h.fresh e hold k' m hcreated
    · obtain rfl := List.mem_singleton.1 hnew
      cases hcreated
  · intro e he m hrel
    rcases List.mem_append.1 he with hold | hnew
    · exact h.known e hold m hrel
    · obtain rfl := List.mem_singleton.1 hnew
      obtain rfl : n = m := by simpa [Event.releases] using hrel
      exact h.lt_of_mem (by simp : (k, n) ∈ {(k, n)} + live)

/-- Every object has been destroyed once or is still held. -/
theorem accounted (h : Holds s live) : Accounted s.trace live := by
  refine ⟨h.sound, fun p hp => ((h.alive_iff p.1 p.2).2 hp).1, fun k n hcreated => ?_⟩
  by_cases halive : Alive k n s.trace
  · have hmem : n ∈ live.map Prod.snd := Multiset.mem_map.2 ⟨(k, n), (h.alive_iff k n).1 halive, rfl⟩
    rw [Multiset.count_eq_one_of_mem h.nodup hmem, List.countP_eq_zero.2 fun e he => by simp [halive.2 e he]]
  · have hreleased : ∃ e ∈ s.trace, e.releases n = true := by
      by_contra hnever
      exact halive ⟨hcreated, fun e he => by simpa using fun hrel => hnever ⟨e, he, hrel⟩⟩
    have hnot : n ∉ live.map Prod.snd := by
      intro hmem
      obtain ⟨⟨k', m⟩, hp, rfl⟩ := Multiset.mem_map.1 hmem
      obtain ⟨e, he, hrel⟩ := hreleased
      simp [((h.alive_iff k' m).2 hp).2 e he] at hrel
    have hpos := List.countP_pos_iff.2 hreleased
    have hle := h.sound.countP_le_one n
    rw [Multiset.count_eq_zero_of_notMem hnot]
    omega

end Holds

/-! ## Stains -/

/-- An object has been taken for the address of a pointer. -/
def Stained (s : Store κ) : Prop := ∃ k n, .destroy k (.object n) ∈ s.trace

theorem Stained.not_sound {s : Store κ} (h : Stained s) : ¬Sound s.trace := by
  intro hsound
  obtain ⟨k, n, hmem⟩ := h
  obtain ⟨before, after, ht⟩ := List.append_of_mem hmem
  exact hsound before _ after ht

theorem stained_object (s : Store κ) (k : κ) (n : Nat) : Stained (s.call k (.object n)) :=
  ⟨k, n, by simp [Store.call]⟩

theorem Stained.call {s : Store κ} (h : Stained s) (k : κ) (a : Argument) : Stained (s.call k a) := by
  obtain ⟨k', n, hmem⟩ := h
  exact ⟨k', n, List.mem_append_left _ hmem⟩

end ObjectStore
