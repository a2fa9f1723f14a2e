import MindConnect.Lib.Lifetime

/-!
# Calls that hold their objects in variables

`Owning s`: the trace of `s` is clean so far, and the objects that are left are those that the variables hold, each in one
variable. Every operation on a variable keeps that, on a condition on what the variable holds; `Takes region P Q f` says
it of a whole piece of code that needs `P` of the variables, establishes `Q` and changes those of `region` alone.

A call is a `sequence` of steps that ends with the first that fails, with something done behind that step by
`onFailure`. A trace is `Stained` by an event that is not allowed after any other; what is appended to it does not help.
-/

namespace Lifetime

variable {φ ω ε : Type}

/-! ## What a variable holds -/

def Slot.IsObject : Slot → Prop
  | .object _ => True
  | _ => False

def Slot.IsUnset : Slot → Prop
  | .unset _ => True
  | _ => False

/-- What may be read and then released if it is not null. -/
def Slot.Freeable : Slot → Prop
  | .unset _ => False
  | .given content => content = none
  | .null => True
  | .object _ => True

/-- Null or an object of the call. -/
def Slot.IsOwn (v : Slot) : Prop := v = .null ∨ ∃ n, v = .object n

@[simp] theorem Slot.isObject_object (n : Nat) : (Slot.object n).IsObject := trivial

@[simp] theorem Slot.not_isObject_unset (content : Option Nat) : ¬ (Slot.unset content).IsObject := id

@[simp] theorem Slot.not_isUnset_object (n : Nat) : ¬ (Slot.object n).IsUnset := id

@[simp] theorem Slot.not_isUnset_null : ¬ Slot.null.IsUnset := id

@[simp] theorem Slot.freeable_given (content : Option Nat) : (Slot.given content).Freeable ↔ content = none := Iff.rfl

@[simp] theorem Slot.isOwn_object (n : Nat) : (Slot.object n).IsOwn := .inr ⟨n, rfl⟩

@[simp] theorem Slot.isOwn_null : Slot.null.IsOwn := .inl rfl

@[simp] theorem Slot.isNull_object (n : Nat) : (Slot.object n).isNull = false := rfl

@[simp] theorem Slot.isNull_null : Slot.null.isNull = true := rfl

theorem Slot.IsObject.exists {v : Slot} (h : v.IsObject) : ∃ n, v = .object n := by
  cases v with
  | object n => exact ⟨n, rfl⟩
  | _ => exact h.elim

theorem Slot.IsObject.isNull {v : Slot} (h : v.IsObject) : v.isNull = false := by
  obtain ⟨n, rfl⟩ := h.exists
  rfl

theorem Slot.Freeable.not_unset {v : Slot} (h : v.Freeable) : ¬ v.IsUnset := by
  intro hv
  cases v with
  | unset content => exact h
  | _ => exact hv

theorem Slot.Freeable.isObject {v : Slot} (h : v.Freeable) (hv : v.isNull = false) : v.IsObject := by
  cases v with
  | object n => trivial
  | unset content => exact h.elim
  | given content =>
    have hcontent : content = none := h
    rw [hcontent] at hv
    cases hv
  | null => cases hv

theorem Slot.not_unset_iff {v : Slot} : ¬ v.IsUnset ↔ ∀ content, v ≠ .unset content := by
  cases v <;> simp [Slot.IsUnset]

/-- No object in any of the variables. -/
def Vacant (region : List φ) (σ : φ → Slot) : Prop := ∀ l ∈ region, ¬ (σ l).IsObject

theorem Vacant.congr {region : List φ} {σ σ' : φ → Slot} (hvacant : Vacant region σ) (h : ∀ l ∈ region, σ' l = σ l) :
    Vacant region σ' := by
  intro l hl
  rw [h l hl]
  exact hvacant l hl

theorem Vacant.update [DecidableEq φ] {region : List φ} {σ : φ → Slot} (hvacant : Vacant region σ) (l : φ) {v : Slot}
    (hv : ¬ v.IsObject) : Vacant region (Function.update σ l v) := by
  intro l' hl'
  by_cases he : l' = l
  · subst he
    rwa [Function.update_self]
  · rw [Function.update_of_ne he]
    exact hvacant l' hl'

/-! ## Owning -/

structure Owning (s : State φ ω) : Prop where
  kept : ∃ live, Kept s live ∧ ∀ n, n ∈ live ↔ ∃ l, s.slots l = .object n
  apart : ∀ l l' n, s.slots l = .object n → s.slots l' = .object n → l = l'

namespace Owning

variable {s : State φ ω} {l : φ}

theorem start {slots : φ → Slot} (h : ∀ l, ¬ (slots l).IsObject) : Owning (State.start slots : State φ ω) := by
  refine ⟨⟨[], Kept.start slots, fun n => ?_⟩, fun l l' n hl => ?_⟩
  · simp only [List.not_mem_nil, false_iff, not_exists]
    intro l hl
    exact h l (by rw [show slots l = .object n from hl]; trivial)
  · exact absurd (show (slots l).IsObject by rw [show slots l = .object n from hl]; trivial) (h l)

/-- A call whose variables hold nothing in the end. -/
theorem clean (h : Owning s) (hnothing : ∀ l, ¬ (s.slots l).IsObject) : Clean s.trace := by
  obtain ⟨live, hkept, hlive⟩ := h.kept
  have hnil : live = [] := by
    rw [List.eq_nil_iff_forall_not_mem]
    intro n hn
    obtain ⟨l, hl⟩ := (hlive n).1 hn
    exact hnothing l (by rw [hl]; trivial)
  subst hnil
  exact hkept.keeps.clean

theorem read (h : Owning s) (hl : ¬ (s.slots l).IsUnset) : Owning (s.read l) := by
  obtain ⟨live, hkept, hlive⟩ := h.kept
  exact ⟨⟨live, hkept.read (Slot.not_unset_iff.1 hl), hlive⟩, h.apart⟩

theorem apply (h : Owning s) (hl : (s.slots l).IsObject) (operation : ω) : Owning (s.apply operation l) := by
  obtain ⟨live, hkept, hlive⟩ := h.kept
  obtain ⟨n, hn⟩ := hl.exists
  exact ⟨⟨live, hkept.apply hn ((hlive n).2 ⟨l, hn⟩) operation, hlive⟩, h.apart⟩

variable [DecidableEq φ]

/-- Nothing is lost if what the variable holds is not an object. -/
theorem update_iff {slots : φ → Slot} {v : Slot} (hl : ¬ (slots l).IsObject) (hv : ¬ v.IsObject) (l' : φ) (n : Nat) :
    Function.update slots l v l' = .object n ↔ slots l' = .object n := by
  by_cases hne : l' = l
  · subst hne
    rw [Function.update_self]
    constructor <;> intro he
    · exact absurd (he ▸ trivial) hv
    · exact absurd (he ▸ trivial) hl
  · rw [Function.update_of_ne hne]

theorem set (h : Owning s) (hl : ¬ (s.slots l).IsObject) {v : Slot} (hv : ¬ v.IsObject) : Owning (s.set l v) := by
  obtain ⟨live, hkept, hlive⟩ := h.kept
  have hslots : ∀ l' n, (s.set l v).slots l' = .object n ↔ s.slots l' = .object n := update_iff hl hv
  refine ⟨⟨live, hkept.set l v, fun n => ?_⟩, fun l' l'' n h' h'' => ?_⟩
  · simp only [hlive, hslots]
  · exact h.apart l' l'' n ((hslots l' n).1 h') ((hslots l'' n).1 h'')

theorem allocate (h : Owning s) (hl : ¬ (s.slots l).IsObject) (succeeds : Bool) : Owning (s.allocate l succeeds) := by
  cases succeeds with
  | false => exact h.set hl id
  | true =>
    obtain ⟨live, hkept, hlive⟩ := h.kept
    have hnew : ∀ l', s.slots l' ≠ .object s.objects := by
      intro l' hl'
      have halive : Alive s.objects s.trace := (hkept.keeps.alive_iff _).2 ((hlive _).2 ⟨l', hl'⟩)
      exact Nat.lt_irrefl _ (hkept.fresh _ halive.1)
    have hslots : ∀ l' n, (s.allocate l true).slots l' = .object n ↔
        (l' = l ∧ n = s.objects) ∨ s.slots l' = .object n := by
      intro l' n
      simp only [State.allocate, if_true]
      by_cases hne : l' = l
      · subst hne
        rw [Function.update_self, Slot.object.injEq]
        constructor
        · rintro rfl
          exact .inl ⟨rfl, rfl⟩
        · rintro (⟨-, rfl⟩ | he)
          · rfl
          · exact absurd (he ▸ trivial) hl
      · rw [Function.update_of_ne hne]
        simp [hne]
    refine ⟨⟨_, hkept.allocate l, fun n => ?_⟩, fun l' l'' n h' h'' => ?_⟩
    · simp only [List.mem_cons, hlive, hslots, exists_or, exists_and_right, exists_eq, true_and]
    · rw [hslots] at h' h''
      rcases h' with ⟨rfl, rfl⟩ | h' <;> rcases h'' with ⟨rfl, hn⟩ | h''
      · rfl
      · exact absurd h'' (hnew l'')
      · subst hn
        exact absurd h' (hnew l')
      · exact h.apart l' l'' n h' h''

theorem free (h : Owning s) (hl : (s.slots l).Freeable) : Owning (s.free l) := by
  obtain ⟨live, hkept, hlive⟩ := h.kept
  by_cases hnull : (s.slots l).isNull = true
  · have hnot : ¬ (s.slots l).IsObject := fun hobject => by rw [hobject.isNull] at hnull; cases hnull
    have hslots : ∀ l' n, (s.free l).slots l' = .object n ↔ s.slots l' = .object n := update_iff hnot id
    refine ⟨⟨live, hkept.free_null (Slot.not_unset_iff.1 hl.not_unset) hnull, fun n => ?_⟩, fun l' l'' n h' h'' => ?_⟩
    · simp only [hlive, hslots]
    · exact h.apart l' l'' n ((hslots l' n).1 h') ((hslots l'' n).1 h'')
  · obtain ⟨n, hn⟩ := (hl.isObject (Bool.eq_false_iff.2 hnull)).exists
    have hslots : ∀ l' m, (s.free l).slots l' = .object m ↔ l' ≠ l ∧ s.slots l' = .object m := by
      intro l' m
      by_cases hne : l' = l
      · subst hne
        simp [State.free]
      · simp [State.free, hne]
    refine ⟨⟨_, hkept.free_object hn ((hlive n).2 ⟨l, hn⟩), fun m => ?_⟩, fun l' l'' m h' h'' => ?_⟩
    · simp only [List.mem_filter, hlive, hslots, decide_eq_true_eq]
      constructor
      · rintro ⟨⟨l', hl'⟩, hm⟩
        refine ⟨l', ?_, hl'⟩
        rintro rfl
        rw [hn, Slot.object.injEq] at hl'
        exact hm hl'.symm
      · rintro ⟨l', hne, hl'⟩
        refine ⟨⟨l', hl'⟩, ?_⟩
        rintro rfl
        exact hne (h.apart l' l m hl' hn)
    · exact h.apart l' l'' m ((hslots l' m).1 h').2 ((hslots l'' m).1 h'').2

end Owning

/-! ## Pieces of code -/

def inOrder : List (State φ ω → State φ ω) → State φ ω → State φ ω
  | [], s => s
  | f :: fs, s => inOrder fs (f s)

/-- `if (NULL != l)` -/
def whenSet (l : φ) (f : State φ ω → State φ ω) (s : State φ ω) : State φ ω :=
  if (s.slots l).isNull then s.read l else f (s.read l)

/-- Needs `P` of the variables, establishes `Q` and changes those of `region` alone. -/
def Takes (region : List φ) (P Q : (φ → Slot) → Prop) (f : State φ ω → State φ ω) : Prop :=
  ∀ s, Owning s → P s.slots → Owning (f s) ∧ Q (f s).slots ∧ ∀ l, l ∉ region → (f s).slots l = s.slots l

namespace Takes

variable {region : List φ} {P Q R : (φ → Slot) → Prop} {f : State φ ω → State φ ω} {l : φ}

theorem weaken {P' Q' : (φ → Slot) → Prop} (h : Takes region P Q f) (hP : ∀ σ, P' σ → P σ) (hQ : ∀ σ, Q σ → Q' σ) :
    Takes region P' Q' f := by
  intro s hs hp
  obtain ⟨howning, hpost, hframe⟩ := h s hs (hP _ hp)
  exact ⟨howning, hQ _ hpost, hframe⟩

/-- In a larger region, with what is known of the rest. -/
theorem framed {smaller : List φ} (h : Takes smaller P R f) (hsub : ∀ l ∈ smaller, l ∈ region) :
    Takes region (fun σ => P σ ∧ ∀ σ', R σ' → (∀ l, l ∉ smaller → σ' l = σ l) → Q σ') Q f := by
  rintro s hs ⟨hp, hq⟩
  obtain ⟨howning, hpost, hframe⟩ := h s hs hp
  exact ⟨howning, hq _ hpost hframe, fun l hl => hframe l fun hmem => hl (hsub l hmem)⟩

theorem nil : Takes region Q Q (inOrder ([] : List (State φ ω → State φ ω))) := fun _ hs hq => ⟨hs, hq, fun _ _ => rfl⟩

theorem cons {fs : List (State φ ω → State φ ω)} (hf : Takes region P R f) (hfs : Takes region R Q (inOrder fs)) :
    Takes region P Q (inOrder (f :: fs)) := by
  intro s hs hp
  obtain ⟨h1, hr, hframe1⟩ := hf s hs hp
  obtain ⟨h2, hq, hframe2⟩ := hfs (f s) h1 hr
  exact ⟨h2, hq, fun l hl => (hframe2 l hl).trans (hframe1 l hl)⟩

theorem apply (operation : ω) : Takes region (fun σ => (σ l).IsObject ∧ Q σ) Q (State.apply · operation l) :=
  fun _ hs hp => ⟨hs.apply hp.1 operation, hp.2, fun _ _ => rfl⟩

/-- What is not null is taken to `Q`. -/
theorem whenSet (hf : Takes region P Q f) :
    Takes region (fun σ => ¬ (σ l).IsUnset ∧ if (σ l).isNull then Q σ else P σ) Q (whenSet l f) := by
  rintro s hs ⟨hl, hp⟩
  rw [Lifetime.whenSet]
  by_cases hnull : (s.slots l).isNull = true
  · rw [if_pos hnull] at hp ⊢
    exact ⟨hs.read hl, hp, fun _ _ => rfl⟩
  · rw [if_neg hnull] at hp ⊢
    exact hf (s.read l) (hs.read hl) hp

variable [DecidableEq φ]

theorem set (hl : l ∈ region) {v : Slot} (hv : ¬ v.IsObject) :
    Takes region (fun σ => ¬ (σ l).IsObject ∧ Q (Function.update σ l v)) Q (State.set (ω := ω) · l v) := by
  rintro s hs ⟨hp, hq⟩
  refine ⟨hs.set hp hv, hq, fun l' hl' => ?_⟩
  exact Function.update_of_ne (fun he => hl' (by rwa [he])) _ _

theorem free (hl : l ∈ region) :
    Takes region (fun σ => (σ l).Freeable ∧ Q (Function.update σ l .null)) Q (State.free (ω := ω) · l) := by
  rintro s hs ⟨hp, hq⟩
  refine ⟨hs.free hp, hq, fun l' hl' => ?_⟩
  exact Function.update_of_ne (fun he => hl' (by rwa [he])) _ _

end Takes

/-! ## Steps -/

/-- What a step comes to, and what it does. -/
structure Step (φ ω ε : Type) where
  code : Except ε Unit
  run : State φ ω → State φ ω

/-- Up to the first step that fails. -/
def sequence : List (Step φ ω ε) → Step φ ω ε
  | [] => ⟨.ok (), id⟩
  | p :: ps =>
    match p.code with
    | .ok _ => ⟨(sequence ps).code, fun s => (sequence ps).run (p.run s)⟩
    | .error _ => p

def Step.onFailure (p : Step φ ω ε) (f : State φ ω → State φ ω) : Step φ ω ε :=
  match p.code with
  | .ok _ => p
  | .error _ => { p with run := fun s => f (p.run s) }

/-- Whether it fails or not. -/
def Step.always (p : Step φ ω ε) (f : State φ ω → State φ ω) : Step φ ω ε := { p with run := fun s => f (p.run s) }

/-- Something that cannot fail. -/
def Step.does (f : State φ ω → State φ ω) : Step φ ω ε := ⟨.ok (), f⟩

/-- Something that works on none of the variables. -/
def Step.outcome (code : Except ε Unit) : Step φ ω ε := ⟨code, id⟩

def Step.provided (c : Bool) (p : Step φ ω ε) : Step φ ω ε := if c then p else .outcome (.ok ())

def Step.allocate [DecidableEq φ] (l : φ) (succeeds : Bool) (e : ε) : Step φ ω ε :=
  ⟨if succeeds then .ok () else .error e, fun s => s.allocate l succeeds⟩

theorem sequence_singleton (p : Step φ ω ε) : sequence [p] = p := by
  obtain ⟨code, run⟩ := p
  cases code <;> rfl

/-- `Q` is what the step establishes, by what it comes to. -/
def Leads (region : List φ) (P : (φ → Slot) → Prop) (Q : Except ε Unit → (φ → Slot) → Prop) (p : Step φ ω ε) : Prop :=
  Takes region P (Q p.code) p.run

/-- The first code that is not `ok`. -/
def firstFailure : List (Except ε Unit) → Except ε Unit
  | [] => .ok ()
  | .ok _ :: cs => firstFailure cs
  | .error e :: _ => .error e

@[simp] theorem firstFailure_nil : firstFailure ([] : List (Except ε Unit)) = .ok () := rfl

@[simp] theorem firstFailure_ok (u : Unit) (cs : List (Except ε Unit)) : firstFailure (.ok u :: cs) = firstFailure cs := rfl

@[simp] theorem firstFailure_error (e : ε) (cs : List (Except ε Unit)) :
    firstFailure (.error e :: cs) = .error e := rfl

@[simp] theorem code_does (f : State φ ω → State φ ω) : (Step.does f : Step φ ω ε).code = .ok () := rfl

@[simp] theorem code_outcome (c : Except ε Unit) : (Step.outcome c : Step φ ω ε).code = c := rfl

@[simp] theorem code_always (p : Step φ ω ε) (f : State φ ω → State φ ω) : (p.always f).code = p.code := rfl

namespace Leads

variable {region : List φ} {P P' : (φ → Slot) → Prop} {Q R : Except ε Unit → (φ → Slot) → Prop} {p : Step φ ω ε}
  {f : State φ ω → State φ ω} {l : φ}

/-- `P` if it goes on, and what `Q` says of an error. -/
def Next (P : (φ → Slot) → Prop) (Q : Except ε Unit → (φ → Slot) → Prop) : Except ε Unit → (φ → Slot) → Prop
  | .ok _ => P
  | .error e => Q (.error e)

theorem next {σ : φ → Slot} {c : Except ε Unit} (hP : P σ) (hQ : ∀ e, Q (.error e) σ) : Next P Q c σ := by
  cases c with
  | ok u => exact hP
  | error e => exact hQ e

theorem weaken {Q' : Except ε Unit → (φ → Slot) → Prop} (h : Leads region P Q p) (hP : ∀ σ, P' σ → P σ)
    (hQ : ∀ σ, Q p.code σ → Q' p.code σ) : Leads region P' Q' p :=
  Takes.weaken h hP hQ

theorem framed {smaller : List φ} (h : Leads smaller P R p) (hsub : ∀ l ∈ smaller, l ∈ region) :
    Leads region (fun σ => P σ ∧ ∀ σ', R p.code σ' → (∀ l, l ∉ smaller → σ' l = σ l) → Q p.code σ') Q p :=
  Takes.framed h hsub

theorem nil : Leads region (Q (.ok ())) Q (sequence ([] : List (Step φ ω ε))) := fun _ hs hq => ⟨hs, hq, fun _ _ => rfl⟩

theorem cons {ps : List (Step φ ω ε)} (hp : Leads region P (Next P' Q) p) (hps : Leads region P' Q (sequence ps)) :
    Leads region P Q (sequence (p :: ps)) := by
  intro s hs hP
  obtain ⟨h1, hnext, hframe1⟩ := hp s hs hP
  rw [sequence]
  cases hcode : p.code with
  | ok u =>
    rw [hcode] at hnext
    obtain ⟨h2, hq, hframe2⟩ := hps (p.run s) h1 hnext
    exact ⟨h2, hq, fun l hl => (hframe2 l hl).trans (hframe1 l hl)⟩
  | error e =>
    rw [hcode] at hnext
    simp only [hcode]
    exact ⟨h1, hnext, hframe1⟩

/-- `cons`, with an error of the first step as the whole has it. -/
theorem step {ps : List (Step φ ω ε)} (hp : Leads region P (Next P' R) p) (hR : ∀ e σ, R (.error e) σ → Q (.error e) σ)
    (hps : Leads region P' Q (sequence ps)) : Leads region P Q (sequence (p :: ps)) := by
  refine cons (hp.weaken (fun σ h => h) fun σ h => ?_) hps
  cases hcode : p.code with
  | ok u => rwa [hcode] at h
  | error e =>
    rw [hcode] at h
    exact hR e σ h

theorem last (hp : Leads region P Q p) : Leads region P Q (sequence [p]) := by
  rwa [sequence_singleton]

/-- The first step fails. -/
theorem stop {ps : List (Step φ ω ε)} {e : ε} (hcode : p.code = .error e) (hp : Leads region P Q p) :
    Leads region P Q (sequence (p :: ps)) := by
  rw [sequence, hcode]
  exact hp

theorem onFailure {C : ε → (φ → Slot) → Prop} (hf : ∀ e, Takes region (C e) (Q (.error e)) f)
    (hp : Leads region P (fun c σ => match c with | .ok u => Q (.ok u) σ | .error e => C e σ) p) :
    Leads region P Q (p.onFailure f) := by
  intro s hs hP
  obtain ⟨h1, hnext, hframe1⟩ := hp s hs hP
  rw [Step.onFailure]
  cases hcode : p.code with
  | ok u =>
    simp only [hcode] at hnext ⊢
    exact ⟨h1, hnext, hframe1⟩
  | error e =>
    simp only [hcode] at hnext ⊢
    obtain ⟨h2, hq, hframe2⟩ := hf e (p.run s) h1 hnext
    exact ⟨h2, hq, fun l hl => (hframe2 l hl).trans (hframe1 l hl)⟩

theorem always (hf : ∀ c, Takes region (R c) (Q c) f) (hp : Leads region P R p) : Leads region P Q (p.always f) := by
  intro s hs hP
  obtain ⟨h1, hr, hframe1⟩ := hp s hs hP
  obtain ⟨h2, hq, hframe2⟩ := hf p.code (p.run s) h1 hr
  exact ⟨h2, hq, fun l hl => (hframe2 l hl).trans (hframe1 l hl)⟩

theorem does (hf : Takes region P (Q (.ok ())) f) : Leads region P Q (.does f) := hf

theorem outcome (code : Except ε Unit) : Leads region (Q code) Q (.outcome code : Step φ ω ε) :=
  fun _ hs hq => ⟨hs, hq, fun _ _ => rfl⟩

theorem provided (c : Bool) (hp : Leads region P Q p) :
    Leads region (fun σ => if c then P σ else Q (.ok ()) σ) Q (p.provided c) := by
  cases c with
  | true => exact hp.weaken (fun σ h => h) fun σ h => h
  | false => exact (outcome (.ok ())).weaken (fun σ h => h) fun σ h => h

theorem allocate [DecidableEq φ] (hl : l ∈ region) (succeeds : Bool) (e : ε) :
    Leads region (fun σ => ¬ (σ l).IsObject ∧
        if succeeds then ∀ n, Q (.ok ()) (Function.update σ l (.object n)) else Q (.error e) (Function.update σ l .null))
      Q (.allocate l succeeds e : Step φ ω ε) := by
  rintro s hs ⟨hfree, hq⟩
  have hframe : ∀ l', l' ∉ region → l' ≠ l := fun l' hl' he => hl' (by rwa [he])
  cases succeeds with
  | true => exact ⟨hs.allocate hfree true, hq s.objects, fun l' hl' => Function.update_of_ne (hframe l' hl') _ _⟩
  | false => exact ⟨hs.allocate hfree false, hq, fun l' hl' => Function.update_of_ne (hframe l' hl') _ _⟩

/-- A call that leaves nothing in its region if it fails, and starts with nothing. -/
theorem clean {slots : φ → Slot} {e : ε} (h : Leads region P (Next (fun _ => True) fun _ => Vacant region) p)
    (hP : P slots) (hnothing : ∀ l, ¬ (slots l).IsObject) (he : p.code = .error e) :
    Clean (p.run (.start slots)).trace := by
  obtain ⟨howning, hvacant, hframe⟩ := h (.start slots) (.start hnothing) hP
  rw [he] at hvacant
  refine howning.clean fun l => ?_
  by_cases hl : l ∈ region
  · exact hvacant l hl
  · rw [hframe l hl]
    exact hnothing l

end Leads

/-! ## Stains -/

/-- Something has happened that is not allowed, whatever came before. -/
def Stained (t : Trace ω) : Prop := ∃ e ∈ t, ∀ before, ¬ Allowed before e

/-- The trace only gets longer. -/
def Grows (f : State φ ω → State φ ω) : Prop := ∀ s, ∀ e ∈ s.trace, e ∈ (f s).trace

namespace Grows

theorem inOrder {fs : List (State φ ω → State φ ω)} (h : ∀ f ∈ fs, Grows f) : Grows (inOrder fs) := by
  induction fs with
  | nil => exact fun s e he => he
  | cons f fs ih =>
    rw [List.forall_mem_cons] at h
    exact fun s e he => ih h.2 (f s) e (h.1 s e he)

theorem read (l : φ) : Grows (State.read (ω := ω) · l) := fun s e he => by simp [State.read, he]

theorem apply (operation : ω) (l : φ) : Grows (State.apply · operation l) := fun s e he => by simp [State.apply, he]

theorem free [DecidableEq φ] (l : φ) : Grows (State.free (ω := ω) · l) := fun s e he => by simp [State.free, he]

theorem whenSet {f : State φ ω → State φ ω} (l : φ) (hf : Grows f) : Grows (whenSet l f) := by
  intro s e he
  rw [Lifetime.whenSet]
  split_ifs
  · exact read l s e he
  · exact hf _ e (read l s e he)

end Grows

/-- It fails, and its trace is stained. -/
structure Spoils (P : (φ → Slot) → Prop) (p : Step φ ω ε) : Prop where
  fails : ∃ e, p.code = .error e
  stained : ∀ s, Owning s → P s.slots → Stained (p.run s).trace

namespace Spoils

variable {region : List φ} {P C : (φ → Slot) → Prop} {p : Step φ ω ε} {ps : List (Step φ ω ε)}
  {f : State φ ω → State φ ω}

theorem head (h : Spoils P p) : Spoils P (sequence (p :: ps)) := by
  obtain ⟨⟨e, he⟩, hstained⟩ := h
  rw [sequence, he]
  exact ⟨⟨e, he⟩, hstained⟩

theorem tail {Q : Except ε Unit → (φ → Slot) → Prop} (hcode : p.code = .ok ()) (hp : Leads region P Q p)
    (h : Spoils (Q (.ok ())) (sequence ps)) : Spoils P (sequence (p :: ps)) := by
  rw [sequence, hcode]
  refine ⟨h.fails, fun s hs hP => ?_⟩
  obtain ⟨howning, hq, -⟩ := hp s hs hP
  rw [hcode] at hq
  exact h.stained _ howning hq

theorem onFailure {Q : Except ε Unit → (φ → Slot) → Prop} {e : ε} (hcode : p.code = .error e) (hp : Leads region P Q p)
    (hf : ∀ s, Owning s → Q (.error e) s.slots → Stained (f s).trace) : Spoils P (p.onFailure f) := by
  rw [Step.onFailure, hcode]
  refine ⟨⟨e, rfl⟩, fun s hs hP => ?_⟩
  obtain ⟨howning, hq, -⟩ := hp s hs hP
  rw [hcode] at hq
  exact hf _ howning hq

end Spoils

end Lifetime
