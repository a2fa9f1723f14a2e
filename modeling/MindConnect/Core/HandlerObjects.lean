import MindConnect.Core.Core
import MindConnect.Lib.Ownership

/-!
# The strings of the security handler as objects

The functions of `CoreProcessor` and `Core` once more, with what each frees and sets.

| here | there |
| --- | --- |
| `HandlerObjects` | `security_handler_t`, each string an allocation |
| `registerObjects` | `core_processor_register` (`core_processor.c:252`) |
| `processRegistrationResponseObjects` | `_process_registration_response` (`:415`); the two profiles replace at `:837` and `:907` |
| `updateCredentialsObjects`, `getAccessTokenObjects` | `core_processor_update_credentials` (`:480`), `core_processor_get_access_token` (`:622`) |
| `CoreOp.performObjects` | the functions of `core.c` |

`performObjects_refines`: with the identities forgotten, these are the functions of `Core`.
-/

namespace MindConnect

open JsonUtil Ownership

/-- The strings that a security handler owns. -/
inductive HandlerString where
  | clientId | clientSecret | registrationAccessToken | registrationUri | publicKey | privateKey
  | accessToken | lastTokenTime
deriving DecidableEq, Repr

def SecurityHandler.string (h : SecurityHandler) : HandlerString → Option CString
  | .clientId => h.clientId
  | .clientSecret => h.clientSecret
  | .registrationAccessToken => h.registrationAccessToken
  | .registrationUri => h.registrationUri
  | .publicKey => h.rsa.publicKey
  | .privateKey => h.rsa.privateKey
  | .accessToken => h.accessToken
  | .lastTokenTime => h.lastTokenTime

abbrev HandlerObjects := Owner HandlerString CString

/-- What the strings say. -/
def handlerOf (o : HandlerObjects) : SecurityHandler where
  clientId := o.value .clientId
  clientSecret := o.value .clientSecret
  registrationAccessToken := o.value .registrationAccessToken
  registrationUri := o.value .registrationUri
  rsa := ⟨o.value .publicKey, o.value .privateKey⟩
  accessToken := o.value .accessToken
  lastTokenTime := o.value .lastTokenTime

@[simp] theorem string_handlerOf (o : HandlerObjects) (f : HandlerString) : (handlerOf o).string f = o.value f := by
  cases f <;> rfl

theorem SecurityHandler.ext_string {h h' : SecurityHandler} (heq : ∀ f, h.string f = h'.string f) : h = h' := by
  obtain ⟨clientId, clientSecret, token, uri, ⟨publicKey, privateKey⟩, accessToken, lastTokenTime⟩ := h
  obtain ⟨clientId', clientSecret', token', uri', ⟨publicKey', privateKey'⟩, accessToken', lastTokenTime'⟩ := h'
  obtain rfl : clientId = clientId' := heq .clientId
  obtain rfl : clientSecret = clientSecret' := heq .clientSecret
  obtain rfl : token = token' := heq .registrationAccessToken
  obtain rfl : uri = uri' := heq .registrationUri
  obtain rfl : publicKey = publicKey' := heq .publicKey
  obtain rfl : privateKey = privateKey' := heq .privateKey
  obtain rfl : accessToken = accessToken' := heq .accessToken
  obtain rfl : lastTokenTime = lastTokenTime' := heq .lastTokenTime
  rfl

/-- The strings `fs` are freed and set to those of `h`. -/
def replace (o : HandlerObjects) (fs : List HandlerString) (h : SecurityHandler) : HandlerObjects :=
  o.assignAll fs h.string

/-- The objects of a handler that was just set up. -/
def objectsOf (h : SecurityHandler) : HandlerObjects :=
  replace .empty [.clientId, .clientSecret, .registrationAccessToken, .registrationUri, .publicKey, .privateKey,
    .accessToken, .lastTokenTime] h

/-- The handler that is meant, if nothing else changes in it. -/
theorem handlerOf_replace {o : HandlerObjects} {fs : List HandlerString} {h : SecurityHandler}
    (hsame : ∀ f, f ∉ fs → h.string f = (handlerOf o).string f) : handlerOf (replace o fs h) = h := by
  apply SecurityHandler.ext_string
  intro f
  rw [string_handlerOf, replace, Owner.value_assignAll]
  by_cases hf : f ∈ fs
  · rw [if_pos hf]
  · rw [if_neg hf, ← string_handlerOf, hsame f hf]

theorem handlerOf_objectsOf (h : SecurityHandler) : handlerOf (objectsOf h) = h := by
  apply handlerOf_replace
  intro f hf
  cases f <;> simp at hf

/-! ## The code -/

/-- `_compose_rsa_key_rotation_json` (`core_processor.c:966`) gives up the key pair. -/
def rotatedStrings (c : CoreConfiguration) (h : SecurityHandler) : List HandlerString :=
  match h.registrationAccessToken, c.securityProfile with
  | some _, .rsa3072 => [.publicKey, .privateKey]
  | _, _ => []

def registrationStrings : SecurityProfile → List HandlerString
  | .sharedSecret => [.clientId, .clientSecret, .registrationAccessToken, .registrationUri]
  | .rsa3072 => [.clientId, .registrationAccessToken, .registrationUri]

def processRegistrationResponseObjects (c : CoreConfiguration) (env : Environment) (response : HttpResponse)
    (o : HandlerObjects) : Result Unit × HandlerObjects :=
  match registrationStatus (handlerOf o) response with
  | .error e => (.error e, o)
  | .ok () =>
    let processed := match c.securityProfile with
      | .sharedSecret => processRegistrationResponseSharedSecret env response (handlerOf o)
      | .rsa3072 => processRegistrationResponseRsa3072 env response (handlerOf o)
    match processed with
    | .error e => (.error e, o)
    | .ok h' => (saveCredentials c env h', replace o (registrationStrings c.securityProfile) h')

def registerObjects (c : CoreConfiguration) (env : Environment) (o : HandlerObjects) :
    Option (Result Unit × HandlerObjects) :=
  match prepareRegistration c env (handlerOf o) with
  | none => none
  | some (.error e, h') => some (.error e, replace o (rotatedStrings c (handlerOf o)) h')
  | some (.ok request, h') =>
    let o := replace o (rotatedStrings c (handlerOf o)) h'
    match env.send request with
    | .error e => some (.error e, o)
    | .ok response => some (processRegistrationResponseObjects c env response o)

def updateCredentialsObjects (c : CoreConfiguration) (env : Environment) (o : HandlerObjects) :
    Option (Result Unit × HandlerObjects) :=
  (updateCredentials c env (handlerOf o)).map fun
    | (.error e, _) => (.error e, o)
    | (.ok (), h') => (.ok (), replace o [.registrationAccessToken, .clientSecret, .publicKey, .privateKey] h')

/-- The time of the server is replaced only if the response has one. -/
def tokenStrings (c : CoreConfiguration) (env : Environment) : List HandlerString :=
  match accessTokenRequest c env >>= env.send with
  | .error _ => [.accessToken]
  | .ok response => if response.serverTime.isSome then [.lastTokenTime, .accessToken] else [.accessToken]

def getAccessTokenObjects (c : CoreConfiguration) (env : Environment) (o : HandlerObjects) :
    Result Unit × HandlerObjects :=
  let (code, h') := getAccessToken c env (handlerOf o)
  (code, replace o (tokenStrings c env) h')

def criticalSectionObjects (c : CoreConfiguration) (env : Environment) (o : HandlerObjects)
    (part : Option (Result Unit × HandlerObjects)) : Option (Result Unit × HandlerObjects) :=
  if c.criticalSectionCallbacksAreUsed then
    match env.enter with
    | .ok () => part
    | .error e => some (.error e, o)
  else part

def CoreOp.performObjects (c : CoreConfiguration) (env : Environment) (op : CoreOp) (o : HandlerObjects) :
    Option (Result Unit × HandlerObjects) :=
  let onboarded := isOnboarded (handlerOf o)
  match op with
  | .onboard => criticalSectionObjects c env o
      (if onboarded = false then registerObjects c env o else some (.error .alreadyOnboarded, o))
  | .rotateKey => criticalSectionObjects c env o
      (if onboarded then registerObjects c env o else some (.error .notOnboarded, o))
  | .updateCredentials => criticalSectionObjects c env o
      (if onboarded then updateCredentialsObjects c env o else some (.error .notOnboarded, o))
  | .getAccessToken =>
      if onboarded then some (getAccessTokenObjects c env o) else some (.error .notOnboarded, o)

/-! ## The identities forgotten -/

section

variable {c : CoreConfiguration} {env : Environment} {o o' : HandlerObjects} {code : Result Unit}

def ObjectsRefine (r : Option (Result Unit × HandlerObjects)) (r' : Option (Result Unit × SecurityHandler)) : Prop :=
  r.map (Prod.map id handlerOf) = r'

theorem processRegistrationResponseObjects_refines (response : HttpResponse) :
    Prod.map id handlerOf (processRegistrationResponseObjects c env response o) =
      processRegistrationResponse c env response (handlerOf o) := by
  unfold processRegistrationResponseObjects processRegistrationResponse
  cases hstatus : registrationStatus (handlerOf o) response with
  | error e => rfl
  | ok u =>
    cases hprofile : c.securityProfile with
    | sharedSecret =>
      cases hprocessed : processRegistrationResponseSharedSecret env response (handlerOf o) with
      | error e => rfl
      | ok h' =>
        obtain ⟨json, -, -, rfl⟩ := processShared_eq_ok.1 hprocessed
        refine Prod.ext rfl (handlerOf_replace fun f hf => ?_)
        cases f <;> first | rfl | simp [registrationStrings] at hf
    | rsa3072 =>
      cases hprocessed : processRegistrationResponseRsa3072 env response (handlerOf o) with
      | error e => rfl
      | ok h' =>
        obtain ⟨json, -, -, rfl⟩ := processRsa_eq_ok.1 hprocessed
        refine Prod.ext rfl (handlerOf_replace fun f hf => ?_)
        cases f <;> first | rfl | simp [registrationStrings] at hf

theorem keysAfter_eq_or (c : CoreConfiguration) (env : Environment) (h : SecurityHandler) :
    keysAfter c env h = h.rsa ∨ rotatedStrings c h = [.publicKey, .privateKey] := by
  unfold keysAfter rotatedStrings
  cases h.registrationAccessToken with
  | none => exact .inl rfl
  | some token =>
    cases c.securityProfile with
    | sharedSecret => exact .inl rfl
    | rsa3072 => exact .inr rfl

theorem handlerOf_rotated {request : Result HttpRequest} {h' : SecurityHandler}
    (hprep : prepareRegistration c env (handlerOf o) = some (request, h')) :
    handlerOf (replace o (rotatedStrings c (handlerOf o)) h') = h' := by
  rw [prepareRegistration_handler hprep]
  apply handlerOf_replace
  intro f hf
  rcases keysAfter_eq_or c env (handlerOf o) with hkeys | hrotated
  · rw [hkeys]
  · rw [hrotated] at hf
    cases f <;> first | rfl | simp at hf

theorem registerObjects_refines : ObjectsRefine (registerObjects c env o) (register c env (handlerOf o)) := by
  unfold ObjectsRefine registerObjects register
  cases hprep : prepareRegistration c env (handlerOf o) with
  | none => rfl
  | some p =>
    obtain ⟨request, h'⟩ := p
    have hrotated := handlerOf_rotated hprep
    cases request with
    | error e => exact congrArg some (Prod.ext rfl hrotated)
    | ok request =>
      cases hsend : env.send request with
      | error e =>
        simp only [hsend]
        exact congrArg some (Prod.ext rfl hrotated)
      | ok response =>
        simp only [hsend]
        refine congrArg some ((processRegistrationResponseObjects_refines response).trans ?_)
        rw [hrotated]

theorem updateCredentials_cases {h h' : SecurityHandler} (hupdate : updateCredentials c env h = some (code, h')) :
    ((∃ e, code = .error e) ∧ h' = h) ∨ (code = .ok () ∧ ∃ loaded, h' = adopt c loaded h) := by
  cases hload : loadedCredentials c env with
  | none =>
    obtain ⟨e, he⟩ := updateCredentials_of_none (h := h) hload
    rw [he] at hupdate
    cases hupdate
    exact .inl ⟨⟨e, rfl⟩, rfl⟩
  | some loaded =>
    rw [updateCredentials_of_some hload] at hupdate
    obtain ⟨clientId, -, hupdate⟩ := Option.bind_eq_some_iff.1 hupdate
    cases hcompare : compareStrings loaded.clientId clientId with
    | error e =>
      rw [hcompare] at hupdate
      cases hupdate
      exact .inl ⟨⟨e, rfl⟩, rfl⟩
    | ok u =>
      rw [hcompare] at hupdate
      obtain ⟨checked, -, hupdate⟩ := Option.map_eq_some_iff.1 hupdate
      cases checked with
      | ok u =>
        cases hupdate
        exact .inl ⟨⟨_, rfl⟩, rfl⟩
      | error e =>
        cases hupdate
        exact .inr ⟨rfl, loaded, rfl⟩

theorem updateCredentialsObjects_refines :
    ObjectsRefine (updateCredentialsObjects c env o) (updateCredentials c env (handlerOf o)) := by
  unfold ObjectsRefine updateCredentialsObjects
  cases hupdate : updateCredentials c env (handlerOf o) with
  | none => rfl
  | some p =>
    obtain ⟨code, h'⟩ := p
    rcases updateCredentials_cases hupdate with ⟨⟨e, rfl⟩, rfl⟩ | ⟨rfl, loaded, rfl⟩
    · rfl
    · refine congrArg some (Prod.ext rfl (handlerOf_replace fun f hf => ?_))
      unfold adopt
      cases c.securityProfile <;> cases f <;> first | rfl | simp at hf

theorem getAccessToken_string {h : SecurityHandler} {f : HandlerString} (hf : f ∉ tokenStrings c env) :
    (getAccessToken c env h).2.string f = h.string f := by
  unfold tokenStrings at hf
  unfold getAccessToken
  cases hexchange : accessTokenRequest c env >>= env.send with
  | error e =>
    rw [hexchange] at hf
    cases f <;> first | rfl | simp at hf
  | ok response =>
    rw [hexchange] at hf
    dsimp only at hf ⊢
    cases htime : response.serverTime with
    | none =>
      rw [htime] at hf
      split <;> cases f <;> first | rfl | simp at hf
    | some time =>
      rw [htime] at hf
      split <;> cases f <;> first | rfl | simp at hf

theorem getAccessTokenObjects_refines :
    Prod.map id handlerOf (getAccessTokenObjects c env o) = getAccessToken c env (handlerOf o) :=
  Prod.ext rfl (handlerOf_replace fun _ hf => getAccessToken_string hf)

theorem criticalSectionObjects_refines {part : Option (Result Unit × HandlerObjects)}
    {part' : Option (Result Unit × SecurityHandler)} (hpart : ObjectsRefine part part') :
    ObjectsRefine (criticalSectionObjects c env o part) (criticalSection c env (handlerOf o) part') := by
  unfold criticalSectionObjects criticalSection
  by_cases hused : c.criticalSectionCallbacksAreUsed = true
  · rw [if_pos hused, if_pos hused]
    cases env.enter with
    | ok u => exact hpart
    | error e => rfl
  · rw [if_neg hused, if_neg hused]
    exact hpart

theorem performObjects_refines (op : CoreOp) :
    ObjectsRefine (op.performObjects c env o) (op.perform c env (handlerOf o)) := by
  cases op with
  | onboard =>
    apply criticalSectionObjects_refines
    unfold onboardSection
    split_ifs
    · exact registerObjects_refines
    · rfl
  | rotateKey =>
    apply criticalSectionObjects_refines
    unfold rotateKeySection
    split_ifs
    · exact registerObjects_refines
    · rfl
  | updateCredentials =>
    apply criticalSectionObjects_refines
    unfold updateCredentialsSection
    split_ifs
    · exact updateCredentialsObjects_refines
    · rfl
  | getAccessToken =>
    simp only [CoreOp.performObjects, CoreOp.perform, mclCoreGetAccessToken]
    split_ifs
    · exact congrArg some getAccessTokenObjects_refines
    · rfl

/-! ## The client id -/

/-- A success response is taken over, whether or not the credentials are saved afterwards. -/
def TakesOver (c : CoreConfiguration) (env : Environment) (h : SecurityHandler) : Prop :=
  ∃ json, Success c env h json ∧ ∀ name ∈ registrationNames c.securityProfile, readable env json name = true

theorem clientId_mem_registrationStrings (profile : SecurityProfile) : .clientId ∈ registrationStrings profile := by
  cases profile <;> exact List.mem_cons_self

theorem clientId_not_mem_rotatedStrings (c : CoreConfiguration) (h : SecurityHandler) :
    .clientId ∉ rotatedStrings c h := by
  unfold rotatedStrings
  split <;> simp

theorem evolves_replace (f : HandlerString) (o : HandlerObjects) (fs : List HandlerString) (h : SecurityHandler) :
    Owner.Evolves f (f ∈ fs) o (replace o fs h) :=
  o.evolves_assignAll f fs h.string

/-- This response is what is taken over. -/
def AcceptedAnswer (c : CoreConfiguration) (env : Environment) (h : SecurityHandler) (response : HttpResponse) : Prop :=
  registrationStatus h response = .ok () ∧ ∃ json, parsePayload env response = .ok json ∧
    ∀ name ∈ registrationNames c.securityProfile, readable env json name = true

theorem processRegistrationResponseObjects_evolves (response : HttpResponse) :
    Owner.Evolves .clientId (AcceptedAnswer c env (handlerOf o) response) o
      (processRegistrationResponseObjects c env response o).2 := by
  have hreplaced : ∀ h', Owner.Evolves .clientId (AcceptedAnswer c env (handlerOf o) response ∨ True) o
      (replace o (registrationStrings c.securityProfile) h') := fun h' =>
    (evolves_replace .clientId o _ h').congr
      (iff_of_true (clientId_mem_registrationStrings c.securityProfile) (.inr trivial))
  unfold processRegistrationResponseObjects
  cases hstatus : registrationStatus (handlerOf o) response with
  | error e =>
    refine .refl o ?_
    rintro ⟨hok, -⟩
    rw [hstatus] at hok
    cases hok
  | ok u =>
    cases hprofile : c.securityProfile with
    | sharedSecret =>
      cases hprocessed : processRegistrationResponseSharedSecret env response (handlerOf o) with
      | error e =>
        refine .refl o ?_
        rintro ⟨-, json, hparse, hall⟩
        rw [hprofile] at hall
        rw [processShared_eq_ok.2 ⟨json, hparse, hall, rfl⟩] at hprocessed
        cases hprocessed
      | ok h' =>
        obtain ⟨json, hparse, hall, -⟩ := processShared_eq_ok.1 hprocessed
        have haccepted : AcceptedAnswer c env (handlerOf o) response := ⟨hstatus, json, hparse, hprofile ▸ hall⟩
        exact (hprofile ▸ hreplaced h').congr (iff_of_true (.inr trivial) haccepted)
    | rsa3072 =>
      cases hprocessed : processRegistrationResponseRsa3072 env response (handlerOf o) with
      | error e =>
        refine .refl o ?_
        rintro ⟨-, json, hparse, hall⟩
        rw [hprofile] at hall
        rw [processRsa_eq_ok.2 ⟨json, hparse, hall, rfl⟩] at hprocessed
        cases hprocessed
      | ok h' =>
        obtain ⟨json, hparse, hall, -⟩ := processRsa_eq_ok.1 hprocessed
        have haccepted : AcceptedAnswer c env (handlerOf o) response := ⟨hstatus, json, hparse, hprofile ▸ hall⟩
        exact (hprofile ▸ hreplaced h').congr (iff_of_true (.inr trivial) haccepted)

theorem registrationStatus_prepared {h h' : SecurityHandler} {request : Result HttpRequest}
    (hprep : prepareRegistration c env h = some (request, h')) (response : HttpResponse) :
    registrationStatus h' response = registrationStatus h response := by
  rw [prepareRegistration_handler hprep]
  rfl

theorem takesOver_iff {h h' : SecurityHandler} {request : HttpRequest} {response : HttpResponse}
    (hprep : prepareRegistration c env h = some (.ok request, h')) (hsend : env.send request = .ok response) :
    TakesOver c env h ↔ AcceptedAnswer c env h' response := by
  unfold AcceptedAnswer
  rw [registrationStatus_prepared hprep]
  constructor
  · rintro ⟨json, ⟨request', h'', response', hprep', hsend', hstatus, hparse⟩, hall⟩
    rw [hprep] at hprep'
    cases hprep'
    rw [hsend] at hsend'
    cases hsend'
    exact ⟨hstatus, json, hparse, hall⟩
  · rintro ⟨hstatus, json, hparse, hall⟩
    exact ⟨json, ⟨request, h', response, hprep, hsend, hstatus, hparse⟩, hall⟩

theorem registerObjects_evolves (hreg : registerObjects c env o = some (code, o')) :
    Owner.Evolves .clientId (TakesOver c env (handlerOf o)) o o' := by
  have hrotated : ∀ h', Owner.Evolves .clientId False o (replace o (rotatedStrings c (handlerOf o)) h') := fun h' =>
    (evolves_replace .clientId o _ h').congr (iff_of_false (clientId_not_mem_rotatedStrings c _) id)
  unfold registerObjects at hreg
  cases hprep : prepareRegistration c env (handlerOf o) with
  | none =>
    rw [hprep] at hreg
    cases hreg
  | some p =>
    obtain ⟨request, h'⟩ := p
    rw [hprep] at hreg
    cases request with
    | error e =>
      cases hreg
      refine (hrotated h').congr (iff_of_false id ?_)
      rintro ⟨json, ⟨request, h'', response, hprep', -⟩, -⟩
      rw [hprep] at hprep'
      cases hprep'
    | ok request =>
      cases hsend : env.send request with
      | error e =>
        simp only [hsend] at hreg
        cases hreg
        refine (hrotated h').congr (iff_of_false id ?_)
        rintro ⟨json, ⟨request', h'', response, hprep', hsend', -⟩, -⟩
        rw [hprep] at hprep'
        cases hprep'
        rw [hsend] at hsend'
        cases hsend'
      | ok response =>
        simp only [hsend, Option.some.injEq] at hreg
        obtain rfl : (processRegistrationResponseObjects c env response
            (replace o (rotatedStrings c (handlerOf o)) h')).2 = o' := congrArg Prod.snd hreg
        refine ((hrotated h').trans (processRegistrationResponseObjects_evolves response)).congr ?_
        rw [handlerOf_rotated hprep, takesOver_iff hprep hsend]
        exact ⟨fun h => h.resolve_left id, .inr⟩

theorem updateCredentialsObjects_evolves (hupdate : updateCredentialsObjects c env o = some (code, o')) :
    Owner.Evolves .clientId False o o' := by
  obtain ⟨⟨updated, h'⟩, -, heq⟩ := Option.map_eq_some_iff.1 hupdate
  cases updated with
  | error e =>
    cases heq
    exact .refl o id
  | ok u =>
    cases heq
    exact (evolves_replace .clientId o _ h').congr (iff_of_false (by simp) id)

theorem getAccessTokenObjects_evolves : Owner.Evolves .clientId False o (getAccessTokenObjects c env o).2 := by
  refine (evolves_replace .clientId o (tokenStrings c env) _).congr (iff_of_false ?_ id)
  unfold tokenStrings
  split
  · simp
  · split_ifs <;> simp

theorem criticalSectionObjects_evolves {replaced : Prop} {part : Option (Result Unit × HandlerObjects)}
    (hcall : criticalSectionObjects c env o part = some (code, o'))
    (hpart : part = some (code, o') → Owner.Evolves .clientId replaced o o') :
    Owner.Evolves .clientId ((c.criticalSectionCallbacksAreUsed = true → env.enter = .ok ()) ∧ replaced) o o' := by
  unfold criticalSectionObjects at hcall
  by_cases hused : c.criticalSectionCallbacksAreUsed = true
  · rw [if_pos hused] at hcall
    cases henter : env.enter with
    | ok u =>
      rw [henter] at hcall
      exact (hpart hcall).congr ⟨fun h => ⟨fun _ => rfl, h⟩, And.right⟩
    | error e =>
      rw [henter] at hcall
      cases hcall
      refine .refl o ?_
      rintro ⟨hok, -⟩
      cases hok hused
  · rw [if_neg hused] at hcall
    exact (hpart hcall).congr ⟨fun h => ⟨fun h' => absurd h' hused, h⟩, And.right⟩

/-- The part of a call that registers, and the refusal in its place. -/
theorem register_or_refuse_evolves {p : Prop} [Decidable p] {e : McError}
    (hpart : (if p then registerObjects c env o else some (.error e, o)) = some (code, o')) :
    Owner.Evolves .clientId (p ∧ TakesOver c env (handlerOf o)) o o' := by
  by_cases hp : p
  · rw [if_pos hp] at hpart
    exact (registerObjects_evolves hpart).congr ⟨fun h => ⟨hp, h⟩, And.right⟩
  · rw [if_neg hp] at hpart
    cases hpart
    exact .refl o fun h => hp h.1

/-- A call replaces the client id just if it gets to `core_processor_register` and a response is taken over. -/
theorem performObjects_evolves {op : CoreOp} (hperform : op.performObjects c env o = some (code, o')) :
    Owner.Evolves .clientId (ReachesRegister c (op, env) (handlerOf o) ∧ TakesOver c env (handlerOf o)) o o' := by
  cases op with
  | onboard =>
    refine (criticalSectionObjects_evolves hperform register_or_refuse_evolves).congr (and_assoc.symm.trans ?_)
    simp [ReachesRegister, SectionOp.Registers]
  | rotateKey =>
    refine (criticalSectionObjects_evolves hperform register_or_refuse_evolves).congr (and_assoc.symm.trans ?_)
    simp [ReachesRegister, SectionOp.Registers]
  | updateCredentials =>
    refine (criticalSectionObjects_evolves hperform fun hpart => ?_).congr (iff_of_false (fun h => h.2) ?_)
    · split_ifs at hpart
      · exact updateCredentialsObjects_evolves hpart
      · cases hpart
        exact .refl o id
    · rintro ⟨⟨-, hop⟩, -⟩
      exact hop
  | getAccessToken =>
    simp only [CoreOp.performObjects] at hperform
    split_ifs at hperform
    · obtain rfl : (getAccessTokenObjects c env o).2 = o' := congrArg Prod.snd (Option.some.inj hperform)
      exact getAccessTokenObjects_evolves.congr (iff_of_false id fun h => h.1.2)
    · cases hperform
      exact .refl o fun h => h.1.2

end

end MindConnect
