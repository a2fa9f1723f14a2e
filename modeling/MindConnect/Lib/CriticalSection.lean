import Mathlib.Data.List.Induction
import Mathlib.Logic.Function.Basic
import Mathlib.Logic.Relation

/-!
# Threads around a critical section

Any number of threads run calls on one shared state. A call acquires a lock, which may be refused, acts on
the state, releases the lock and returns. `Program` is the code of the calls, with the locals that lie inside
the section; `Step` interleaves the threads.

* `Run.exclusive`: the holder of the lock is the one thread inside.
* `Run.events_of_thread`: in each call of a thread, a lock that was acquired is released once, and one that
  was refused never.
* `Run.serialized`: the completed sections, in the order of their releases, are a run of whole sections one
  after another.
* `Run.can_leave`: a thread inside can go on alone until it has released the lock, if its section ends.
-/

namespace CriticalSection

/-! ## One call after another -/

/-- A call that was made, and the states around it. -/
structure Done (σ α β : Type) where
  call : α
  before : σ
  out : β
  after : σ

section

variable {σ α β : Type} {exec : α → σ → β → σ → Prop}

inductive Serial (exec : α → σ → β → σ → Prop) : σ → List (Done σ α β) → σ → Prop where
  | nil {s : σ} : Serial exec s [] s
  | snoc {s s' s'' : σ} {ds : List (Done σ α β)} {a : α} {b : β} (run : Serial exec s ds s')
      (step : exec a s' b s'') : Serial exec s (ds ++ [⟨a, s', b, s''⟩]) s''

theorem Serial.exec_of_mem {s s' : σ} {ds : List (Done σ α β)} (run : Serial exec s ds s')
    {d : Done σ α β} (hd : d ∈ ds) : exec d.call d.before d.out d.after := by
  induction run with
  | nil => cases hd
  | snoc _ step ih =>
    rcases List.mem_append.1 hd with hd | hd
    · exact ih hd
    · rw [List.mem_singleton] at hd
      subst hd
      exact step

/-- What every call of a run preserves holds all along the run. -/
theorem Serial.preserved {I : σ → Prop} {s s' : σ} {ds : List (Done σ α β)} (run : Serial exec s ds s')
    (hs : I s) (hstep : ∀ d ∈ ds, I d.before → I d.after) :
    I s' ∧ ∀ d ∈ ds, I d.before ∧ I d.after := by
  induction run with
  | nil => exact ⟨hs, by simp⟩
  | @snoc s₁ s₂ ds a b run step ih =>
    obtain ⟨hs₁, hall⟩ := ih fun d hd => hstep d (List.mem_append_left _ hd)
    have hs₂ : I s₂ := hstep ⟨a, s₁, b, s₂⟩ (by simp) hs₁
    refine ⟨hs₂, fun d hd => ?_⟩
    rcases List.mem_append.1 hd with hd | hd
    · exact hall d hd
    · rw [List.mem_singleton] at hd
      subst hd
      exact ⟨hs₁, hs₂⟩

theorem Serial.split {s s' : σ} {pre post : List (Done σ α β)} (run : Serial exec s (pre ++ post) s') :
    ∃ s₁, Serial exec s pre s₁ ∧ Serial exec s₁ post s' := by
  induction post using List.reverseRecOn generalizing s' with
  | nil => exact ⟨s', by simpa using run, .nil⟩
  | append_singleton post d ih =>
    rw [← List.append_assoc] at run
    generalize hds : (pre ++ post) ++ [d] = ds at run
    cases run with
    | nil => simp at hds
    | snoc run step =>
      obtain ⟨hds, hd⟩ := List.append_inj' hds rfl
      subst hds
      cases hd
      obtain ⟨s₁, hpre, hpost⟩ := ih run
      exact ⟨s₁, hpre, .snoc hpost step⟩

theorem Serial.last {s s' : σ} {pre : List (Done σ α β)} {d : Done σ α β} (run : Serial exec s (pre ++ [d]) s') :
    Serial exec s pre d.before ∧ s' = d.after := by
  generalize hds : pre ++ [d] = ds at run
  cases run with
  | nil => simp at hds
  | snoc run step =>
    obtain ⟨rfl, hd⟩ := List.append_inj' hds rfl
    cases hd
    exact ⟨run, rfl⟩

/-- The run up to one of its calls. -/
theorem Serial.before {s s' : σ} {pre post : List (Done σ α β)} {d : Done σ α β}
    (run : Serial exec s (pre ++ d :: post) s') : Serial exec s pre d.before := by
  rw [List.append_cons] at run
  obtain ⟨s₁, hpre, -⟩ := run.split
  exact hpre.last.1

/-- What holds after a call and is preserved by the later ones holds before and after each of them. -/
theorem Serial.later {I : σ → Prop} {s s' : σ} {pre post : List (Done σ α β)} {d : Done σ α β}
    (run : Serial exec s (pre ++ d :: post) s') (hd : I d.after) (hstep : ∀ e ∈ post, I e.before → I e.after) :
    ∀ e ∈ post, I e.before ∧ I e.after := by
  rw [List.append_cons] at run
  obtain ⟨s₁, hpre, hpost⟩ := run.split
  have hs₁ : s₁ = d.after := hpre.last.2
  exact (hpost.preserved (hs₁ ▸ hd) hstep).2

/-- Calls one after the other, as far as they go. -/
def performEach (perform : α → σ → Option (β × σ)) : List α → σ → Option (List (Done σ α β) × σ)
  | [], s => some ([], s)
  | a :: as, s => do
    let (b, s') ← perform a s
    let (ds, s'') ← performEach perform as s'
    return (⟨a, s, b, s'⟩ :: ds, s'')

theorem Serial.performEach {perform : α → σ → Option (β × σ)}
    (hexec : ∀ a s b s', perform a s = some (b, s') → exec a s b s') {s₀ s s' : σ} {as : List α}
    {ds done : List (Done σ α β)} (run : Serial exec s₀ ds s)
    (h : CriticalSection.performEach perform as s = some (done, s')) : Serial exec s₀ (ds ++ done) s' := by
  induction as generalizing s ds done with
  | nil =>
    cases h
    rwa [List.append_nil]
  | cons a as ih =>
    obtain ⟨⟨b, s₁⟩, hperform, h⟩ := Option.bind_eq_some_iff.1 h
    obtain ⟨⟨done', s₂⟩, hrest, heq⟩ := Option.bind_eq_some_iff.1 h
    cases heq
    rw [List.append_cons]
    exact ih (run.snoc (hexec a s b s₁ hperform)) hrest

end

/-! ## Programs -/

/-- What a thread does next. -/
inductive Action (σ Local Out Err : Type) where
  | acquire (entered : Local) (refused : Err → Out)
  | act (f : σ → Option (Local × σ))
  | release (out : Out)

/-- The code of the calls. A call starts outside the section; acquiring leads inside, acting stays there. -/
structure Program (σ Call Local Out Err : Type) where
  start : Call → Local
  action : Local → Action σ Local Out Err
  inside : Local → Bool
  start_outside : ∀ c, inside (start c) = false
  acquire_inside : ∀ {l entered refused}, action l = .acquire entered refused →
    inside l = false ∧ inside entered = true
  act_inside : ∀ {l f}, action l = .act f → inside l = true ∧ ∀ s l' s', f s = some (l', s') → inside l' = true
  release_inside : ∀ {l out}, action l = .release out → inside l = true

inductive Control (Call Local Out : Type) where
  | idle
  | running (c : Call) (l : Local)
  | returning (c : Call) (out : Out)

structure State (T σ Call Local Out : Type) where
  shared : σ
  holder : Option T
  control : T → Control Call Local Out

inductive Event (T Call Out : Type) where
  | called (t : T) (c : Call)
  | entered (t : T) (c : Call)
  | refused (t : T) (c : Call) (out : Out)
  | acted (t : T)
  | left (t : T) (c : Call) (out : Out)
  | returned (t : T) (c : Call) (out : Out)

variable {T σ Call Local Out Err : Type}

def State.initial (s : σ) : State T σ Call Local Out := ⟨s, none, fun _ => .idle⟩

def Event.thread : Event T Call Out → T
  | .called t _ => t
  | .entered t _ => t
  | .refused t _ _ => t
  | .acted t => t
  | .left t _ _ => t
  | .returned t _ _ => t

/-! ## Exclusion -/

variable {P : Program σ Call Local Out Err}

/-- The holder is the one thread inside, and a thread outside is at the start of its call. -/
structure Exclusive (P : Program σ Call Local Out Err) (s : State T σ Call Local Out) : Prop where
  holder_iff : ∀ t, s.holder = some t ↔ ∃ c l, s.control t = .running c l ∧ P.inside l = true
  outside : ∀ t c l, s.control t = .running c l → P.inside l = false → l = P.start c

theorem Exclusive.initial (s : σ) : Exclusive P (State.initial s : State T σ Call Local Out) :=
  ⟨by simp [State.initial], by simp [State.initial]⟩

theorem Exclusive.holder {s : State T σ Call Local Out} (h : Exclusive P s) {t : T} {c : Call} {l : Local}
    (running : s.control t = .running c l) (inside : P.inside l = true) : s.holder = some t :=
  (h.holder_iff t).2 ⟨c, l, running, inside⟩

/-- Two threads inside are one. -/
theorem Exclusive.eq_of_inside {s : State T σ Call Local Out} (h : Exclusive P s) {t t' : T} {c c' : Call}
    {l l' : Local} (running : s.control t = .running c l) (inside : P.inside l = true)
    (running' : s.control t' = .running c' l') (inside' : P.inside l' = true) : t = t' := by
  have := (h.holder running inside).symm.trans (h.holder running' inside')
  exact Option.some.inj this

/-! ## Steps -/

variable [DecidableEq T]

/-- The thread goes on. -/
def State.goto (s : State T σ Call Local Out) (t : T) (k : Control Call Local Out) : State T σ Call Local Out :=
  { s with control := Function.update s.control t k }

@[simp] theorem State.shared_goto (s : State T σ Call Local Out) (t : T) (k : Control Call Local Out) :
    (s.goto t k).shared = s.shared := rfl

@[simp] theorem State.holder_goto (s : State T σ Call Local Out) (t : T) (k : Control Call Local Out) :
    (s.goto t k).holder = s.holder := rfl

@[simp] theorem State.control_goto_self (s : State T σ Call Local Out) (t : T) (k : Control Call Local Out) :
    (s.goto t k).control t = k := Function.update_self ..

theorem State.control_goto_of_ne (s : State T σ Call Local Out) {t t' : T} (k : Control Call Local Out)
    (h : t' ≠ t) : (s.goto t k).control t' = s.control t' := Function.update_of_ne h ..

/-- One step of one thread. The lock can be acquired when nobody holds it, and refused at any time. -/
inductive Step (P : Program σ Call Local Out Err) :
    State T σ Call Local Out → Event T Call Out → State T σ Call Local Out → Prop where
  | call {s} {t : T} (c : Call) (idle : s.control t = .idle) :
      Step P s (.called t c) (s.goto t (.running c (P.start c)))
  | enter {s} {t : T} {c l entered refused} (running : s.control t = .running c l)
      (action : P.action l = .acquire entered refused) (free : s.holder = none) :
      Step P s (.entered t c) ({ s with holder := some t }.goto t (.running c entered))
  | refuse {s} {t : T} {c l entered refused} (running : s.control t = .running c l)
      (action : P.action l = .acquire entered refused) (e : Err) :
      Step P s (.refused t c (refused e)) (s.goto t (.returning c (refused e)))
  | act {s} {t : T} {c l f l' shared} (running : s.control t = .running c l)
      (action : P.action l = .act f) (result : f s.shared = some (l', shared)) :
      Step P s (.acted t) ({ s with shared := shared }.goto t (.running c l'))
  | leave {s} {t : T} {c l out} (running : s.control t = .running c l) (action : P.action l = .release out) :
      Step P s (.left t c out) ({ s with holder := none }.goto t (.returning c out))
  | ret {s} {t : T} {c out} (returning : s.control t = .returning c out) :
      Step P s (.returned t c out) (s.goto t .idle)

inductive Run (P : Program σ Call Local Out Err) :
    State T σ Call Local Out → List (Event T Call Out) → State T σ Call Local Out → Prop where
  | nil {s} : Run P s [] s
  | snoc {s s' s'' es e} (run : Run P s es s') (step : Step P s' e s'') : Run P s (es ++ [e]) s''

theorem Run.trans {s s' s'' : State T σ Call Local Out} {es fs : List (Event T Call Out)} (run : Run P s es s')
    (run' : Run P s' fs s'') : Run P s (es ++ fs) s'' := by
  induction run' with
  | nil => simpa using run
  | snoc _ step ih =>
    rw [← List.append_assoc]
    exact .snoc ih step

/-- A step of one thread that leaves it as far inside as the lock says. -/
theorem Exclusive.of_goto {s : State T σ Call Local Out} (h : Exclusive P s) {t : T} {k : Control Call Local Out}
    {shared : σ} {holder : Option T} (others : ∀ t', t' ≠ t → (holder = some t' ↔ s.holder = some t'))
    (self : holder = some t ↔ ∃ c l, k = .running c l ∧ P.inside l = true)
    (outside : ∀ c l, k = .running c l → P.inside l = false → l = P.start c) :
    Exclusive P (State.goto ⟨shared, holder, s.control⟩ t k) := by
  constructor
  · intro t'
    by_cases ht : t' = t
    · subst ht
      simpa using self
    · rw [State.control_goto_of_ne _ _ ht, State.holder_goto, others t' ht]
      exact h.holder_iff t'
  · intro t' c l hrunning hinside
    by_cases ht : t' = t
    · subst ht
      exact outside c l (by simpa using hrunning) hinside
    · rw [State.control_goto_of_ne _ _ ht] at hrunning
      exact h.outside t' c l hrunning hinside

theorem Step.exclusive {s s' : State T σ Call Local Out} {e : Event T Call Out} (h : Exclusive P s)
    (step : Step P s e s') : Exclusive P s' := by
  cases step with
  | @call t c idle =>
    have hnot : s.holder ≠ some t := by
      intro hholder
      obtain ⟨c', l', hrunning, -⟩ := (h.holder_iff t).1 hholder
      rw [idle] at hrunning
      cases hrunning
    refine h.of_goto (fun t' _ => Iff.rfl) ⟨fun hholder => absurd hholder hnot, ?_⟩ ?_
    · rintro ⟨_, _, hk, hinside⟩
      cases hk
      rw [P.start_outside] at hinside
      cases hinside
    · rintro _ _ hk -
      cases hk
      rfl
  | @enter t c l entered refused running action free =>
    obtain ⟨-, hentered⟩ := P.acquire_inside action
    refine h.of_goto (fun t' ht => ?_) ⟨fun _ => ⟨c, entered, rfl, hentered⟩, fun _ => rfl⟩ ?_
    · rw [free]
      simp [Ne.symm ht]
    · intro _ _ hk hinside
      cases hk
      rw [hentered] at hinside
      cases hinside
  | @refuse t c l entered refused running action e =>
    obtain ⟨houtside, -⟩ := P.acquire_inside action
    have hnot : s.holder ≠ some t := by
      intro hholder
      obtain ⟨c', l', hrunning, hinside⟩ := (h.holder_iff t).1 hholder
      rw [running] at hrunning
      cases hrunning
      rw [houtside] at hinside
      cases hinside
    exact h.of_goto (fun t' _ => Iff.rfl) ⟨fun hholder => absurd hholder hnot, by simp⟩ (by simp)
  | @act t c l f l' shared running action result =>
    obtain ⟨hinside, hstay⟩ := P.act_inside action
    have hl' := hstay _ _ _ result
    refine h.of_goto (fun t' _ => Iff.rfl) ⟨fun _ => ⟨c, l', rfl, hl'⟩, fun _ => h.holder running hinside⟩ ?_
    intro _ _ hk houtside
    cases hk
    rw [hl'] at houtside
    cases houtside
  | @leave t c l out running action =>
    have hholder := h.holder running (P.release_inside action)
    refine h.of_goto (fun t' ht => ?_) (by simp) (by simp)
    rw [hholder]
    simp [Ne.symm ht]
  | @ret t c out returning =>
    have hnot : s.holder ≠ some t := by
      intro hholder
      obtain ⟨c', l', hrunning, -⟩ := (h.holder_iff t).1 hholder
      rw [returning] at hrunning
      cases hrunning
    exact h.of_goto (fun t' _ => Iff.rfl) ⟨fun hholder => absurd hholder hnot, by simp⟩ (by simp)

theorem Run.exclusive {s s' : State T σ Call Local Out} {es : List (Event T Call Out)} (run : Run P s es s')
    (h : Exclusive P s) : Exclusive P s' := by
  induction run with
  | nil => exact h
  | snoc _ step ih => exact step.exclusive ih

/-- The shared state changes only under the lock. -/
theorem Step.holder_of_shared_ne {s s' : State T σ Call Local Out} {e : Event T Call Out} (h : Exclusive P s)
    (step : Step P s e s') (hne : s'.shared ≠ s.shared) :
    ∃ t, e = .acted t ∧ s.holder = some t ∧ s'.holder = some t := by
  cases step with
  | @act t c l f l' shared running action result =>
    have hholder := h.holder running (P.act_inside action).1
    exact ⟨t, rfl, hholder, hholder⟩
  | _ => exact absurd rfl hne

/-! ## The events of one thread -/

/-- All events of one call: the lock was refused, or acquired and released. -/
inductive CallEvents (t : T) : List (Event T Call Out) → Prop where
  | refused (c : Call) (out : Out) : CallEvents t [.called t c, .refused t c out, .returned t c out]
  | entered (c : Call) (n : Nat) (out : Out) :
      CallEvents t (.called t c :: .entered t c :: List.replicate n (.acted t) ++
        [.left t c out, .returned t c out])

/-- The events so far of the call a thread is in. -/
inductive Pending (P : Program σ Call Local Out Err) (t : T) :
    Control Call Local Out → List (Event T Call Out) → Prop where
  | idle : Pending P t .idle []
  | called (c : Call) (l : Local) (outside : P.inside l = false) : Pending P t (.running c l) [.called t c]
  | entered (c : Call) (l : Local) (n : Nat) (inside : P.inside l = true) :
      Pending P t (.running c l) (.called t c :: .entered t c :: List.replicate n (.acted t))
  | refused (c : Call) (out : Out) : Pending P t (.returning c out) [.called t c, .refused t c out]
  | left (c : Call) (n : Nat) (out : Out) :
      Pending P t (.returning c out)
        (.called t c :: .entered t c :: List.replicate n (.acted t) ++ [.left t c out])

/-- The events of a thread are those of complete calls, and of the call it is in. -/
def Bracketed (P : Program σ Call Local Out Err) (t : T) (k : Control Call Local Out)
    (es : List (Event T Call Out)) : Prop :=
  ∃ (calls : List (List (Event T Call Out))) (pending : List (Event T Call Out)),
    es = calls.flatten ++ pending ∧ (∀ call ∈ calls, CallEvents t call) ∧ Pending P t k pending

omit [DecidableEq T] in
/-- A step of the thread adds its event to the call it is in. -/
theorem Bracketed.snoc {t : T} {k k' : Control Call Local Out} {es : List (Event T Call Out)}
    {e : Event T Call Out} (h : Bracketed P t k es)
    (hpending : ∀ pending, Pending P t k pending → Pending P t k' (pending ++ [e])) :
    Bracketed P t k' (es ++ [e]) := by
  obtain ⟨calls, pending, rfl, hcalls, hk⟩ := h
  exact ⟨calls, pending ++ [e], by rw [List.append_assoc], hcalls, hpending pending hk⟩

omit [DecidableEq T] in
/-- The last event completes the call. -/
theorem Bracketed.complete {t : T} {c : Call} {out : Out} {es : List (Event T Call Out)}
    (h : Bracketed P t (.returning c out) es) :
    Bracketed P t .idle (es ++ [.returned t c out]) := by
  obtain ⟨calls, pending, rfl, hcalls, hk⟩ := h
  have hcall : CallEvents t (pending ++ [.returned t c out]) := by
    cases hk with
    | refused => exact .refused c out
    | left _ n _ => simpa using CallEvents.entered (t := t) c n out
  refine ⟨calls ++ [pending ++ [.returned t c out]], [], by simp, ?_, .idle⟩
  intro call hcall'
  rcases List.mem_append.1 hcall' with hcall' | hcall'
  · exact hcalls call hcall'
  · rw [List.mem_singleton] at hcall'
    subst hcall'
    exact hcall

theorem Step.bracketed {s s' : State T σ Call Local Out} {e : Event T Call Out} (step : Step P s e s')
    {es : List (Event T Call Out)} (h : Bracketed P e.thread (s.control e.thread) es) :
    Bracketed P e.thread (s'.control e.thread) (es ++ [e]) := by
  cases step with
  | @call t c idle =>
    simp only [Event.thread, State.control_goto_self, idle] at h ⊢
    refine h.snoc fun pending hk => ?_
    cases hk
    exact .called c _ (P.start_outside c)
  | @enter t c l entered refused running action free =>
    obtain ⟨houtside, hentered⟩ := P.acquire_inside action
    simp only [Event.thread, State.control_goto_self, running] at h ⊢
    refine h.snoc fun pending hk => ?_
    cases hk with
    | called => exact .entered c entered 0 hentered
    | entered _ _ _ hinside =>
      rw [houtside] at hinside
      cases hinside
  | @refuse t c l entered refused running action e =>
    obtain ⟨houtside, -⟩ := P.acquire_inside action
    simp only [Event.thread, State.control_goto_self, running] at h ⊢
    refine h.snoc fun pending hk => ?_
    cases hk with
    | called => exact .refused c (refused e)
    | entered _ _ _ hinside =>
      rw [houtside] at hinside
      cases hinside
  | @act t c l f l' shared running action result =>
    obtain ⟨hinside, hstay⟩ := P.act_inside action
    simp only [Event.thread, State.control_goto_self, running] at h ⊢
    refine h.snoc fun pending hk => ?_
    cases hk with
    | called _ _ houtside =>
      rw [hinside] at houtside
      cases houtside
    | entered _ _ n _ =>
      have := Pending.entered (P := P) (t := t) c l' (n + 1) (hstay _ _ _ result)
      simpa [List.replicate_succ'] using this
  | @leave t c l out running action =>
    simp only [Event.thread, State.control_goto_self, running] at h ⊢
    refine h.snoc fun pending hk => ?_
    cases hk with
    | called _ _ houtside =>
      rw [P.release_inside action] at houtside
      cases houtside
    | entered _ _ n _ => exact .left c n out
  | @ret t c out returning =>
    simp only [Event.thread, State.control_goto_self, returning] at h ⊢
    exact h.complete

/-- A step of another thread leaves a thread where it is. -/
theorem Step.control_of_ne {s s' : State T σ Call Local Out} {e : Event T Call Out} (step : Step P s e s')
    {t : T} (h : t ≠ e.thread) : s'.control t = s.control t := by
  cases step <;> exact State.control_goto_of_ne _ _ h

theorem Run.events_of_thread {s : σ} {s' : State T σ Call Local Out} {es : List (Event T Call Out)}
    (run : Run P (.initial s) es s') (t : T) :
    Bracketed P t (s'.control t) (es.filter fun e => e.thread = t) := by
  generalize hs : State.initial s = s₀ at run
  induction run with
  | nil =>
    subst hs
    exact ⟨[], [], rfl, by simp, .idle⟩
  | @snoc s₁ s₂ es e run step ih =>
    rw [List.filter_append]
    by_cases ht : e.thread = t
    · subst ht
      rw [List.filter_cons_of_pos (by simp), List.filter_nil]
      exact step.bracketed ih
    · rw [List.filter_cons_of_neg (by simpa using ht), List.filter_nil, List.append_nil,
        step.control_of_ne (Ne.symm ht)]
      exact ih

omit [DecidableEq T] in
theorem CallEvents.called_of_left {t : T} {call : List (Event T Call Out)} (h : CallEvents t call) {c : Call}
    {out : Out} (left : .left t c out ∈ call) : .called t c ∈ call := by
  cases h with
  | refused c' out' => simp at left
  | entered c' n out' =>
    simp [List.mem_replicate] at left
    simp [left.1]

omit [DecidableEq T] in
theorem Pending.called_of_left {t : T} {k : Control Call Local Out} {pending : List (Event T Call Out)}
    (h : Pending P t k pending) {c : Call} {out : Out} (left : .left t c out ∈ pending) :
    .called t c ∈ pending := by
  cases h with
  | left c' n out' =>
    simp [List.mem_replicate] at left
    simp [left.1]
  | entered c' l n inside => simp [List.mem_replicate] at left
  | _ => simp at left

/-- A section that was left belongs to a call that was made. -/
theorem Run.called_of_left {s : σ} {s' : State T σ Call Local Out} {es : List (Event T Call Out)}
    (run : Run P (.initial s) es s') {t : T} {c : Call} {out : Out} (left : .left t c out ∈ es) :
    .called t c ∈ es := by
  obtain ⟨calls, pending, heq, hcalls, hpending⟩ := run.events_of_thread t
  have hleft : .left t c out ∈ calls.flatten ++ pending := by
    rw [← heq]
    exact List.mem_filter.2 ⟨left, by simp [Event.thread]⟩
  have hcalled : .called t c ∈ calls.flatten ++ pending := by
    rcases List.mem_append.1 hleft with hleft | hleft
    · obtain ⟨call, hcall, hleft⟩ := List.mem_flatten.1 hleft
      exact List.mem_append_left _ (List.mem_flatten.2 ⟨call, hcall, (hcalls call hcall).called_of_left hleft⟩)
    · exact List.mem_append_right _ (hpending.called_of_left hleft)
  rw [← heq] at hcalled
  exact (List.mem_filter.1 hcalled).1

/-! ## Whole sections -/

/-- What the locals and the state may become inside the section. -/
def Acts (P : Program σ Call Local Out Err) : Local × σ → Local × σ → Prop :=
  Relation.ReflTransGen fun p q => ∃ f, P.action p.1 = .act f ∧ f p.2 = some q

/-- The section of a call as one step. -/
def Atomic (P : Program σ Call Local Out Err) (c : Call) (s : σ) (out : Out) (s' : σ) : Prop :=
  ∃ entered refused l, P.action (P.start c) = .acquire entered refused ∧ Acts P (entered, s) (l, s') ∧
    P.action l = .release out

/-- The section that an event completes. -/
def Event.section? : Event T Call Out → Option (Call × Out)
  | .left _ c out => some (c, out)
  | _ => none

/-- Where the section of the holder stands. -/
def Open (P : Program σ Call Local Out Err) (s : σ) (s' : State T σ Call Local Out) (t : T) : Prop :=
  ∃ c entered refused l, P.action (P.start c) = .acquire entered refused ∧ s'.control t = .running c l ∧
    Acts P (entered, s) (l, s'.shared)

/-- The completed sections lead to a state; from it the holder, if there is one, has gone on. -/
structure Serialized (P : Program σ Call Local Out Err) (s : σ) (es : List (Event T Call Out))
    (s' : State T σ Call Local Out) (ds : List (Done σ Call Out)) (s₁ : σ) : Prop where
  serial : Serial (Atomic P) s ds s₁
  events : ds.map (fun d => (d.call, d.out)) = es.filterMap Event.section?
  free : s'.holder = none → s'.shared = s₁
  taken : ∀ t, s'.holder = some t → Open P s₁ s' t

theorem Serialized.of_outside {s s₁ : σ} {es : List (Event T Call Out)} {s' : State T σ Call Local Out}
    {ds : List (Done σ Call Out)} (h : Serialized P s es s' ds s₁) {e : Event T Call Out}
    (hsection : e.section? = none) (t : T) (k : Control Call Local Out) (hnot : s'.holder ≠ some t) :
    Serialized P s (es ++ [e]) (s'.goto t k) ds s₁ := by
  refine ⟨h.serial, ?_, h.free, fun t' hholder => ?_⟩
  · rw [h.events, List.filterMap_append]
    simp [hsection]
  · have ht : t' ≠ t := by
      rintro rfl
      exact hnot hholder
    obtain ⟨c, entered, refused, l, haction, hrunning, hacts⟩ := h.taken t' hholder
    exact ⟨c, entered, refused, l, haction, by rw [State.control_goto_of_ne _ _ ht, hrunning], hacts⟩

theorem Step.serialized {s s₁ : σ} {es : List (Event T Call Out)} {s' s'' : State T σ Call Local Out}
    {ds : List (Done σ Call Out)} {e : Event T Call Out} (h : Serialized P s es s' ds s₁)
    (hexclusive : Exclusive P s') (step : Step P s' e s'') :
    ∃ ds' s₂, Serialized P s (es ++ [e]) s'' ds' s₂ := by
  have hnot : ∀ t, (∀ c l, s'.control t = .running c l → P.inside l = false) → s'.holder ≠ some t := by
    intro t houtside hholder
    obtain ⟨c, l, hrunning, hinside⟩ := (hexclusive.holder_iff t).1 hholder
    rw [houtside c l hrunning] at hinside
    cases hinside
  cases step with
  | @call t c idle => exact ⟨ds, s₁, h.of_outside rfl t _ (hnot t (by simp [idle]))⟩
  | @enter t c l entered refused running action free =>
    have hl := hexclusive.outside t c l running (P.acquire_inside action).1
    subst hl
    refine ⟨ds, s₁, h.serial, ?_, by simp, fun t' hholder => ?_⟩
    · rw [h.events, List.filterMap_append]
      simp [Event.section?]
    · cases hholder
      refine ⟨c, entered, refused, entered, action, by simp, ?_⟩
      rw [State.shared_goto, h.free free]
      exact .refl
  | @refuse t c l entered refused running action e =>
    refine ⟨ds, s₁, h.of_outside rfl t _ (hnot t ?_)⟩
    intro c' l' hrunning
    rw [running] at hrunning
    cases hrunning
    exact (P.acquire_inside action).1
  | @act t c l f l' shared running action result =>
    have hholder := hexclusive.holder running (P.act_inside action).1
    refine ⟨ds, s₁, h.serial, ?_, fun hfree => ?_, fun t' ht' => ?_⟩
    · rw [h.events, List.filterMap_append]
      simp [Event.section?]
    · rw [State.holder_goto, hholder] at hfree
      cases hfree
    · have ht : t' = t := by
        rw [State.holder_goto, hholder] at ht'
        exact (Option.some.inj ht').symm
      subst ht
      obtain ⟨c', entered, refused, l'', haction, hrunning, hacts⟩ := h.taken t' hholder
      rw [running] at hrunning
      cases hrunning
      exact ⟨c, entered, refused, l', haction, by simp, hacts.tail ⟨f, action, result⟩⟩
  | @leave t c l out running action =>
    have hholder := hexclusive.holder running (P.release_inside action)
    obtain ⟨c', entered, refused, l', haction, hrunning, hacts⟩ := h.taken t hholder
    rw [running] at hrunning
    cases hrunning
    refine ⟨_, s'.shared, h.serial.snoc ⟨entered, refused, l, haction, hacts, action⟩, ?_, fun _ => rfl, by simp⟩
    rw [List.map_append, h.events, List.filterMap_append]
    simp [Event.section?]
  | @ret t c out returning => exact ⟨ds, s₁, h.of_outside rfl t _ (hnot t (by simp [returning]))⟩

theorem Run.serialized {s : σ} {s' : State T σ Call Local Out} {es : List (Event T Call Out)}
    (run : Run P (.initial s) es s') : ∃ ds s₁, Serialized P s es s' ds s₁ := by
  generalize hs : State.initial s = s₀ at run
  induction run with
  | nil =>
    subst hs
    exact ⟨[], s, .nil, rfl, fun _ => rfl, by simp [State.initial]⟩
  | @snoc s₁ s₂ es e run step ih =>
    obtain ⟨ds, s₃, h⟩ := ih
    subst hs
    exact step.serialized h (run.exclusive (.initial s))

/-! ## Leaving -/

/-- The section ends. -/
def Ends (P : Program σ Call Local Out Err) (l : Local) (s : σ) : Prop :=
  ∃ l' s' out, Acts P (l, s) (l', s') ∧ P.action l' = .release out

theorem Run.can_leave {s : State T σ Call Local Out} {t : T} {c : Call} {l : Local}
    (running : s.control t = .running c l) (ends : Ends P l s.shared) :
    ∃ n out s', Run P s (List.replicate n (.acted t) ++ [.left t c out]) s' := by
  obtain ⟨l', shared', out, hacts, hrelease⟩ := ends
  generalize hp : (l, s.shared) = p at hacts
  generalize hq : (l', shared') = q at hacts
  induction hacts using Relation.ReflTransGen.head_induction_on generalizing s l with
  | refl =>
    subst hq
    cases hp
    exact ⟨0, out, _, .snoc .nil (.leave running hrelease)⟩
  | @head p r hstep hacts ih =>
    subst hp
    obtain ⟨f, haction, hresult⟩ := hstep
    obtain ⟨l₁, shared₁⟩ := r
    obtain ⟨n, out, s', run⟩ := ih (s := { s with shared := shared₁ }.goto t (.running c l₁))
      (State.control_goto_self ..) rfl
    refine ⟨n + 1, out, s', ?_⟩
    have := (Run.snoc .nil (.act running haction hresult)).trans run
    simpa [List.replicate_succ] using this

end CriticalSection
