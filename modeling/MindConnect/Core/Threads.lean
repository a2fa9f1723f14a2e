import MindConnect.Core.Usable

/-!
# Threads on one core

`mcl_core_onboard`, `mcl_core_rotate_key` and `mcl_core_update_credentials` step by step, as a program for any
number of threads: enter, check, send, receive, replace, leave. The enter callback is a lock, which may also
fail. What one thread's section does is what the function does between its callbacks (`atomic_section`), so
that a run of the threads is a run of whole sections (`threads_sound`).
-/

namespace MindConnect

open JsonUtil CriticalSection

/-! ## The program -/

inductive Local where
  | enter (op : SectionOp) (env : Environment)
  | check (op : SectionOp) (env : Environment)
  | register (env : Environment)
  | send (env : Environment) (request : HttpRequest)
  | receive (env : Environment) (request : HttpRequest)
  | replace (env : Environment) (response : HttpResponse)
  | update (env : Environment)
  | leave (code : Result Unit)

/-- From the return of the enter callback to the call of the leave callback. -/
def Local.inside : Local → Bool
  | .enter _ _ => false
  | _ => true

/-- The branch on `mcl_core_is_onboarded`. -/
def checkOnboarded (env : Environment) : SectionOp → Bool → Local
  | .onboard, false => .register env
  | .onboard, true => .leave (.error .alreadyOnboarded)
  | .rotateKey, true => .register env
  | .rotateKey, false => .leave (.error .notOnboarded)
  | .updateCredentials, true => .update env
  | .updateCredentials, false => .leave (.error .notOnboarded)

/-- A request is in flight between `send` and `receive`. -/
def Local.action (c : CoreConfiguration) : Local → Action SecurityHandler Local (Result Unit) McError
  | .enter op env => .acquire (.check op env) .error
  | .check op env => .act fun h => some (checkOnboarded env op (isOnboarded h), h)
  | .register env => .act fun h =>
    match prepareRegistration c env h with
    | none => none
    | some (.error e, h') => some (.leave (.error e), h')
    | some (.ok request, h') => some (.send env request, h')
  | .send env request => .act fun h => some (.receive env request, h)
  | .receive env request => .act fun h =>
    match env.send request with
    | .error e => some (.leave (.error e), h)
    | .ok response => some (.replace env response, h)
  | .replace env response => .act fun h =>
    some (.leave (processRegistrationResponse c env response h).1, (processRegistrationResponse c env response h).2)
  | .update env => .act fun h => (updateCredentials c env h).map fun r => (.leave r.1, r.2)
  | .leave code => .release code

theorem inside_checkOnboarded (env : Environment) (op : SectionOp) (b : Bool) :
    (checkOnboarded env op b).inside = true := by
  cases op <;> cases b <;> rfl

/-- Once inside, a call stays inside until it leaves. -/
theorem inside_of_act {c : CoreConfiguration} {l : Local} {f : SecurityHandler → Option (Local × SecurityHandler)}
    (action : l.action c = .act f) :
    l.inside = true ∧ ∀ h l' h', f h = some (l', h') → l'.inside = true := by
  cases l with
  | enter op env => cases action
  | leave code => cases action
  | check op env =>
    cases action
    refine ⟨rfl, fun h l' h' heq => ?_⟩
    cases heq
    exact inside_checkOnboarded env op _
  | register env =>
    cases action
    refine ⟨rfl, fun h l' h' heq => ?_⟩
    dsimp only at heq
    split at heq
    · cases heq
    · cases heq
      rfl
    · cases heq
      rfl
  | send env request =>
    cases action
    refine ⟨rfl, fun h l' h' heq => ?_⟩
    cases heq
    rfl
  | receive env request =>
    cases action
    refine ⟨rfl, fun h l' h' heq => ?_⟩
    dsimp only at heq
    split at heq <;> cases heq <;> rfl
  | replace env response =>
    cases action
    refine ⟨rfl, fun h l' h' heq => ?_⟩
    cases heq
    rfl
  | update env =>
    cases action
    refine ⟨rfl, fun h l' h' heq => ?_⟩
    obtain ⟨r, -, heq⟩ := Option.map_eq_some_iff.1 heq
    cases heq
    rfl

def coreProgram (c : CoreConfiguration) :
    Program SecurityHandler (SectionOp × Environment) Local (Result Unit) McError where
  start call := .enter call.1 call.2
  action l := l.action c
  inside := Local.inside
  start_outside _ := rfl
  acquire_inside {l _ _} action := by cases l <;> cases action; exact ⟨rfl, rfl⟩
  act_inside := inside_of_act
  release_inside {l _} action := by cases l <;> cases action; rfl

/-! ## One section is one function -/

section

variable {c : CoreConfiguration}

/-- What is still to come of a call inside the section. -/
def finish (c : CoreConfiguration) : Local → SecurityHandler → Option (Result Unit × SecurityHandler)
  | .enter op env, h => op.section c env h
  | .check op env, h => op.section c env h
  | .register env, h => register c env h
  | .send env request, h => sent env request h
  | .receive env request, h => sent env request h
  | .replace env response, h => some (processRegistrationResponse c env response h)
  | .update env, h => updateCredentials c env h
  | .leave code, h => some (code, h)
where
  sent (env : Environment) (request : HttpRequest) (h : SecurityHandler) : Option (Result Unit × SecurityHandler) :=
    match env.send request with
    | .error e => some (.error e, h)
    | .ok response => some (processRegistrationResponse c env response h)

theorem finish_checkOnboarded (env : Environment) (op : SectionOp) (h : SecurityHandler) :
    finish c (checkOnboarded env op (isOnboarded h)) h = op.section c env h := by
  cases op <;> cases hon : isOnboarded h <;>
    simp [checkOnboarded, finish, SectionOp.section, onboardSection, rotateKeySection, updateCredentialsSection, hon]

/-- A step inside the section changes nothing about what is to come of the call. -/
theorem finish_of_act {l l' : Local} {h h' : SecurityHandler}
    {f : SecurityHandler → Option (Local × SecurityHandler)} (action : l.action c = .act f)
    (result : f h = some (l', h')) : finish c l h = finish c l' h' := by
  cases l with
  | enter op env => cases action
  | leave code => cases action
  | check op env =>
    cases action
    cases result
    exact (finish_checkOnboarded env op h).symm
  | register env =>
    cases action
    change register c env h = _
    dsimp only at result
    cases hprep : prepareRegistration c env h with
    | none =>
      rw [hprep] at result
      cases result
    | some r =>
      obtain ⟨request, h₁⟩ := r
      rw [hprep] at result
      rw [register, hprep]
      cases request with
      | error e =>
        cases result
        rfl
      | ok request =>
        cases result
        rfl
  | send env request =>
    cases action
    cases result
    rfl
  | receive env request =>
    cases action
    simp only [finish, finish.sent]
    cases hsend : env.send request with
    | error e =>
      rw [hsend] at result
      cases result
      rfl
    | ok response =>
      rw [hsend] at result
      cases result
      rfl
  | replace env response =>
    cases action
    cases result
    rfl
  | update env =>
    cases action
    obtain ⟨r, hupdate, heq⟩ := Option.map_eq_some_iff.1 result
    cases heq
    simp only [finish, hupdate]

theorem finish_of_acts {p q : Local × SecurityHandler} (acts : Acts (coreProgram c) p q) :
    finish c p.1 p.2 = finish c q.1 q.2 := by
  induction acts with
  | refl => rfl
  | tail _ step ih =>
    obtain ⟨f, action, result⟩ := step
    rw [ih]
    exact finish_of_act action result

theorem atomic_section {op : SectionOp} {env : Environment} {h h' : SecurityHandler} {code : Result Unit}
    (atomic : Atomic (coreProgram c) (op, env) h code h') : op.section c env h = some (code, h') := by
  obtain ⟨entered, refused, l, start, acts, release⟩ := atomic
  cases start
  have hfinish := finish_of_acts acts
  cases l <;> cases release
  exact hfinish

/-- A section that comes to something ends. -/
theorem ends_of_finish {l : Local} {h : SecurityHandler} (inside : l.inside = true)
    (hfinish : finish c l h ≠ none) : Ends (coreProgram c) l h := by
  have step : ∀ {l l' : Local} {h h' : SecurityHandler} {f}, l.action c = .act f → f h = some (l', h') →
      Ends (coreProgram c) l' h' → Ends (coreProgram c) l h := by
    rintro l l' h h' f action result ⟨l'', h'', code, acts, release⟩
    exact ⟨l'', h'', code, .head ⟨f, action, result⟩ acts, release⟩
  have leave : ∀ code h, Ends (coreProgram c) (.leave code) h :=
    fun code h => ⟨.leave code, h, code, .refl, rfl⟩
  have replace : ∀ env response h, Ends (coreProgram c) (.replace env response) h :=
    fun env response h => step rfl rfl (leave _ _)
  have receive : ∀ env request h, Ends (coreProgram c) (.receive env request) h := by
    intro env request h
    cases hsend : env.send request with
    | error e => exact step rfl (by rw [hsend]) (leave (.error e) h)
    | ok response => exact step rfl (by rw [hsend]) (replace env response h)
  have send : ∀ env request h, Ends (coreProgram c) (.send env request) h :=
    fun env request h => step rfl rfl (receive env request h)
  have register : ∀ env h, register c env h ≠ none → Ends (coreProgram c) (.register env) h := by
    intro env h hne
    cases hprep : prepareRegistration c env h with
    | none =>
      rw [MindConnect.register, hprep] at hne
      exact absurd rfl hne
    | some r =>
      obtain ⟨request, h'⟩ := r
      cases request with
      | error e => exact step rfl (by rw [hprep]) (leave (.error e) h')
      | ok request => exact step rfl (by rw [hprep]) (send env request h')
  have update : ∀ env h, updateCredentials c env h ≠ none → Ends (coreProgram c) (.update env) h := by
    intro env h hne
    obtain ⟨r, hr⟩ := Option.ne_none_iff_exists'.1 hne
    exact step rfl (by rw [hr]; rfl) (leave r.1 r.2)
  cases l with
  | enter op env => cases inside
  | check op env =>
    refine step rfl rfl ?_
    rw [finish, ← finish_checkOnboarded] at hfinish
    cases op <;> cases hon : isOnboarded h <;> rw [hon] at hfinish
    · exact register env h hfinish
    · exact leave _ h
    · exact leave _ h
    · exact register env h hfinish
    · exact leave _ h
    · exact update env h hfinish
  | register env => exact register env h hfinish
  | send env request => exact send env request h
  | receive env request => exact receive env request h
  | replace env response => exact replace env response h
  | update env => exact update env h hfinish
  | leave code => exact leave code h

end

/-! ## The threads -/

section

variable {T : Type}

/-- The thread has sent its request and waits for the answer. -/
def InFlight (s : State T SecurityHandler (SectionOp × Environment) Local (Result Unit)) (t : T) : Prop :=
  ∃ call env request, s.control t = .running call (.receive env request)

variable [DecidableEq T]

/-- What holds after every run of the threads. -/
structure ThreadsSound (c : CoreConfiguration)
    (es : List (CriticalSection.Event T (SectionOp × Environment) (Result Unit)))
    (s : State T SecurityHandler (SectionOp × Environment) Local (Result Unit)) : Prop where
  bracketed : ∀ t, Bracketed (coreProgram c) t (s.control t) (es.filter fun e => e.thread = t)
  refused_error : ∀ t call code, .refused t call code ∈ es → ∃ e, code = .error e
  one_in_flight : ∀ t t', InFlight s t → InFlight s t' → t = t'
  locked : ∀ e s', CriticalSection.Step (coreProgram c) s e s' → s'.shared ≠ s.shared →
    ∃ t call l, e = .acted t ∧ s.control t = .running call l ∧ l.inside = true
  onboarded_once : ∀ pre call post, es.filterMap CriticalSection.Event.section? = pre ++ (call, .ok ()) :: post →
    call.1 = .onboard → ∀ later ∈ post, later.1.1 = .onboard → later.2 = .error .alreadyOnboarded
  leaves : (c.securityProfile = .rsa3072 → ∀ t call, .called t call ∈ es →
      ∃ keys, call.2.generateRsaKey = .ok keys) →
    ∀ t call l, s.control t = .running call l → l.inside = true →
      ∃ n code s', Run (coreProgram c) s (List.replicate n (.acted t) ++ [.left t call code]) s'

variable {c : CoreConfiguration} {h₀ : SecurityHandler}
  {es : List (CriticalSection.Event T (SectionOp × Environment) (Result Unit))}
  {s : State T SecurityHandler (SectionOp × Environment) Local (Result Unit)}

theorem refused_error {s₀ : State T SecurityHandler (SectionOp × Environment) Local (Result Unit)}
    (run : Run (coreProgram c) s₀ es s) {t : T} {call : SectionOp × Environment} {code : Result Unit}
    (refused : .refused t call code ∈ es) : ∃ e, code = .error e := by
  induction run with
  | nil => cases refused
  | @snoc s₁ s₂ es e run step ih =>
    rcases List.mem_append.1 refused with refused | refused
    · exact ih refused
    · rw [List.mem_singleton] at refused
      subst refused
      cases step with
      | @refuse _ _ l _ _ running action e =>
        cases l <;> cases action
        exact ⟨e, rfl⟩

/-- The completed sections of a run, each with what its function does. -/
theorem sections_of_run {ds : List (Done SecurityHandler (SectionOp × Environment) (Result Unit))}
    {h₁ : SecurityHandler} (run : Run (coreProgram c) (.initial h₀) es s)
    (serialized : Serialized (coreProgram c) h₀ es s ds h₁)
    {d : Done SecurityHandler (SectionOp × Environment) (Result Unit)} (hd : d ∈ ds) :
    d.call.1.section c d.call.2 d.before = some (d.out, d.after) ∧ ∃ t, .called t d.call ∈ es := by
  refine ⟨atomic_section (serialized.serial.exec_of_mem hd), ?_⟩
  have hmem : (d.call, d.out) ∈ es.filterMap CriticalSection.Event.section? := by
    rw [← serialized.events]
    exact List.mem_map_of_mem hd
  obtain ⟨e, he, hsection⟩ := List.mem_filterMap.1 hmem
  cases e with
  | left t call code =>
    cases hsection
    exact ⟨t, run.called_of_left he⟩
  | _ => cases hsection

theorem onboarded_once (run : Run (coreProgram c) (.initial h₀) es s)
    (complete : ∀ t call, .called t call ∈ es → CompleteResponses c call.2)
    {pre post : List ((SectionOp × Environment) × Result Unit)} {call : SectionOp × Environment}
    (sections : es.filterMap CriticalSection.Event.section? = pre ++ (call, .ok ()) :: post)
    (hcall : call.1 = .onboard) :
    ∀ later ∈ post, later.1.1 = .onboard → later.2 = .error .alreadyOnboarded := by
  obtain ⟨ds, h₁, serialized⟩ := run.serialized
  have hevents := serialized.events
  rw [sections] at hevents
  obtain ⟨dpre, dmid, rfl, rfl, hmid⟩ := List.map_eq_append_iff.1 hevents
  obtain ⟨d, dpost, rfl, hd, rfl⟩ := List.map_eq_cons_iff.1 hmid
  obtain ⟨rfl, hout⟩ := Prod.mk.inj hd
  have spec : ∀ e ∈ dpre ++ d :: dpost,
      (isOnboarded e.before = true → isOnboarded e.after = true) ∧
        (e.call.1 ≠ .updateCredentials → e.out = .ok () →
          ∃ json, Success c e.call.2 e.before json ∧ RegisteredFrom c.securityProfile json e.after) := by
    intro e he
    obtain ⟨hsection, t, hcalled⟩ := sections_of_run run serialized he
    exact section_spec hsection fun _ => (complete t e.call hcalled).noNullAccepted
  have hafter : isOnboarded d.after = true := by
    obtain ⟨json, -, hfrom⟩ := (spec d (by simp)).2 (by simp [hcall]) hout
    exact hfrom.isOnboarded
  have hlater := serialized.serial.later (I := fun h => isOnboarded h = true) hafter
    fun e he => (spec e (by simp [he])).1
  intro later hmem honboard
  obtain ⟨e, he, rfl⟩ := List.mem_map.1 hmem
  have hmem : e ∈ dpre ++ d :: dpost := by simp [he]
  obtain ⟨hsection, -⟩ := sections_of_run run serialized hmem
  have honboarded := (hlater e he).1
  simp only at honboard
  simp only [honboard, SectionOp.section, onboardSection, honboarded, Bool.true_eq_false, if_false,
    Option.some.injEq, Prod.mk.injEq] at hsection
  exact hsection.1.symm

theorem can_leave {env₀ : Environment} (created : initializeSecurityHandler c env₀ = .ok h₀)
    (run : Run (coreProgram c) (.initial h₀) es s)
    (complete : ∀ t call, .called t call ∈ es → CompleteResponses c call.2)
    (generated : c.securityProfile = .rsa3072 → ∀ t call, .called t call ∈ es →
      ∃ keys, call.2.generateRsaKey = .ok keys)
    {t : T} {call : SectionOp × Environment} {l : Local} (running : s.control t = .running call l)
    (inside : l.inside = true) :
    ∃ n code s', Run (coreProgram c) s (List.replicate n (.acted t) ++ [.left t call code]) s' := by
  obtain ⟨ds, h₁, serialized⟩ := run.serialized
  have usable : Usable c h₁ := by
    refine (serialized.serial.preserved (initializeSecurityHandler_usable created) fun d hd husable => ?_).1
    obtain ⟨hsection, t', hcalled⟩ := sections_of_run run serialized hd
    exact section_usable husable (complete t' d.call hcalled).noNullAccepted
      (fun hprofile => generated hprofile t' d.call hcalled) hsection
  have hholder := (run.exclusive (.initial h₀)).holder running inside
  obtain ⟨call', entered, refused, l', start, running', acts⟩ := serialized.taken t hholder
  rw [running] at running'
  cases running'
  cases start
  have hfinish : finish c l s.shared ≠ none := by
    rw [← finish_of_acts acts]
    exact section_ne_none usable
  exact Run.can_leave running (ends_of_finish inside hfinish)

/-- Whatever the threads do with a core, and in whatever order: every lock that is taken is given back once by
the same call, one registration is under way at a time, the handler changes under the lock only, and the agent
is onboarded once. -/
theorem threads_sound {env₀ : Environment} (created : initializeSecurityHandler c env₀ = .ok h₀)
    (run : Run (coreProgram c) (.initial h₀) es s)
    (complete : ∀ t call, .called t call ∈ es → CompleteResponses c call.2) : ThreadsSound c es s where
  bracketed := run.events_of_thread
  refused_error _ _ _ := refused_error run
  one_in_flight := by
    rintro t t' ⟨call, env, request, running⟩ ⟨call', env', request', running'⟩
    exact (run.exclusive (.initial h₀)).eq_of_inside running rfl running' rfl
  locked := by
    intro e s' step hne
    have exclusive := run.exclusive (.initial h₀)
    obtain ⟨t, rfl, hholder, -⟩ := step.holder_of_shared_ne exclusive hne
    obtain ⟨call, l, running, inside⟩ := (exclusive.holder_iff t).1 hholder
    exact ⟨t, call, l, rfl, running, inside⟩
  onboarded_once _ _ _ sections hcall := onboarded_once run complete sections hcall
  leaves generated _ _ _ running inside := can_leave created run complete generated running inside

end

/-- A server that answers every registration in full. -/
theorem serverEnvironment_complete : CompleteResponses sharedSecretConfiguration
    (serverEnvironment (registrationJson (.string (.lit "token")))) := by
  intro request response json hsend _ hparse name hname
  cases hsend
  cases hparse
  have hstring : ∀ name ∈ registrationNames .sharedSecret,
      (stringOf (registrationJson (.string (.lit "token"))) name).isSome = true := by decide
  obtain ⟨s, hs⟩ := Option.isSome_iff_exists.1 (hstring name hname)
  refine ⟨s, ?_⟩
  unfold stringOf at hs
  split at hs
  · rename_i hitem
    cases hs
    exact hitem
  · cases hs

def onboardCall : SectionOp × Environment := (.onboard, serverEnvironment (registrationJson (.string (.lit "token"))))

/-- Two threads onboard the agent. The second is refused while the first is inside, and comes too late when it tries
again. -/
theorem twoThreads_sound : ∃ s, ThreadsSound sharedSecretConfiguration
    ([.called false onboardCall, .called true onboardCall, .entered false onboardCall,
        .refused true onboardCall (.error .cannotEnterCriticalSection),
        .returned true onboardCall (.error .cannotEnterCriticalSection)] ++ List.replicate 5 (.acted false) ++
      [.left false onboardCall (.ok ()), .called true onboardCall, .entered true onboardCall, .acted true,
        .left true onboardCall (.error .alreadyOnboarded)]) s := by
  have hcreated : initializeSecurityHandler sharedSecretConfiguration offlineEnvironment =
      .ok emptySecurityHandler := rfl
  have run := Run.nil (P := coreProgram sharedSecretConfiguration) (T := Bool) (s := State.initial emptySecurityHandler)
  have run := run.snoc (.call (t := false) onboardCall rfl)
  have run := run.snoc (.call (t := true) onboardCall rfl)
  have run := run.snoc (.enter (t := false) rfl rfl rfl)
  have run := run.snoc (.refuse (t := true) rfl rfl .cannotEnterCriticalSection)
  have run := run.snoc (.ret (t := true) rfl)
  have run := run.snoc (.act (t := false) rfl rfl rfl)
  have run := run.snoc (.act (t := false) rfl rfl rfl)
  have run := run.snoc (.act (t := false) rfl rfl rfl)
  have run := run.snoc (.act (t := false) rfl rfl rfl)
  have run := run.snoc (.act (t := false) rfl rfl rfl)
  have run := run.snoc (.leave (t := false) rfl rfl)
  have run := run.snoc (.call (t := true) onboardCall rfl)
  have run := run.snoc (.enter (t := true) rfl rfl rfl)
  have run := run.snoc (.act (t := true) rfl rfl rfl)
  have run := run.snoc (.leave (t := true) rfl rfl)
  refine ⟨_, threads_sound hcreated run fun t call hcalled => ?_⟩
  have hcall : t = false ∧ call = onboardCall ∨ t = true ∧ call = onboardCall := by simpa using hcalled
  rcases hcall with ⟨-, rfl⟩ | ⟨-, rfl⟩ <;> exact serverEnvironment_complete

end MindConnect
