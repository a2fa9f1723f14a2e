import MindConnect.Core.CoreProcessor

/-!
# Replacing credentials: all or nothing?

What `core_processor_register` does to the security handler, said by what goes in: the key pair it leaves
(`keysAfter`), the strings it takes from a success response (`replaceCredentials`), and when it takes them
(`register_of_success`, `register_of_not_success`). A key rotation under RSA gives up the old key pair before
it sends anything, and a JSON `null` passes for a string; `allOrNothing_iff` is what is left of the promise.
-/

namespace MindConnect

open JsonUtil

variable {c : CoreConfiguration} {env : Environment} {h : SecurityHandler}

/-! ## The strings of a response -/

/-- The members that a response needs. -/
def registrationNames : SecurityProfile → List CString
  | .sharedSecret => [jsonNameClientId, jsonNameClientSecret, jsonNameRegistrationAccessToken,
      jsonNameRegistrationClientUri]
  | .rsa3072 => [jsonNameClientId, jsonNameRegistrationAccessToken, jsonNameRegistrationClientUri]

/-- The string under a name; a null pointer if there is none. -/
def stringOf (json : Json) (name : CString) : Option CString :=
  match getObjectItem json name with
  | .ok (.string s) => some s
  | _ => none

/-- The code gets something for the name: a string it can copy, or the null pointer for `null`. -/
def readable (env : Environment) (json : Json) (name : CString) : Bool :=
  match getObjectItem json name with
  | .ok (.string _) => env.stringCopied name
  | .ok .null => true
  | _ => false

theorem readable_iff {json : Json} {name : CString} :
    readable env json name = true ↔
      ∃ child, getObjectItem json name = .ok child ∧
        getString child (env.stringCopied name) = .ok (stringOf json name) := by
  unfold readable stringOf
  cases hitem : getObjectItem json name with
  | error e => simp
  | ok child => cases child <;> simp [getString]

/-- Whatever the code gets for a name is the string under it. -/
theorem readable_of_getString {json child : Json} {name : CString} {value : Option CString}
    (hitem : getObjectItem json name = .ok child) (hvalue : getString child (env.stringCopied name) = .ok value) :
    readable env json name = true ∧ value = stringOf json name := by
  unfold readable stringOf
  rw [hitem]
  cases child with
  | string s =>
    cases hcopied : env.stringCopied name with
    | false => simp [getString, hcopied] at hvalue
    | true =>
      simp only [getString, hcopied, if_true, Except.ok.injEq] at hvalue
      exact ⟨rfl, hvalue.symm⟩
  | null =>
    cases hvalue
    exact ⟨rfl, rfl⟩
  | _ => cases hvalue

/-- The handler after the strings of the response replaced its own. -/
def replaceCredentials (profile : SecurityProfile) (json : Json) (h : SecurityHandler) : SecurityHandler :=
  match profile with
  | .sharedSecret => { h with
      clientId := stringOf json jsonNameClientId
      clientSecret := stringOf json jsonNameClientSecret
      registrationAccessToken := stringOf json jsonNameRegistrationAccessToken
      registrationUri := stringOf json jsonNameRegistrationClientUri }
  | .rsa3072 => { h with
      clientId := stringOf json jsonNameClientId
      registrationAccessToken := stringOf json jsonNameRegistrationAccessToken
      registrationUri := stringOf json jsonNameRegistrationClientUri }

@[simp] theorem rsa_replaceCredentials {profile : SecurityProfile} {json : Json} :
    (replaceCredentials profile json h).rsa = h.rsa := by
  cases profile <;> rfl

theorem processShared_eq_ok {response : HttpResponse} {h' : SecurityHandler} :
    processRegistrationResponseSharedSecret env response h = .ok h' ↔
      ∃ json, parsePayload env response = .ok json ∧
        (∀ name ∈ registrationNames .sharedSecret, readable env json name = true) ∧
          h' = replaceCredentials .sharedSecret json h := by
  constructor
  · intro hok
    obtain ⟨json, hparse, hok⟩ := bind_eq_ok hok
    obtain ⟨clientId, hid, hok⟩ := bind_eq_ok hok
    obtain ⟨clientSecret, hsecret, hok⟩ := bind_eq_ok hok
    obtain ⟨token, htoken, hok⟩ := bind_eq_ok hok
    obtain ⟨uri, huri, hok⟩ := bind_eq_ok hok
    obtain ⟨_, hid', hok⟩ := bind_eq_ok hok
    obtain ⟨_, hsecret', hok⟩ := bind_eq_ok hok
    obtain ⟨_, htoken', hok⟩ := bind_eq_ok hok
    obtain ⟨_, huri', hok⟩ := bind_eq_ok hok
    obtain ⟨hid, rfl⟩ := readable_of_getString hid hid'
    obtain ⟨hsecret, rfl⟩ := readable_of_getString hsecret hsecret'
    obtain ⟨htoken, rfl⟩ := readable_of_getString htoken htoken'
    obtain ⟨huri, rfl⟩ := readable_of_getString huri huri'
    cases hok
    refine ⟨json, hparse, ?_, rfl⟩
    simp [registrationNames, hid, hsecret, htoken, huri]
  · rintro ⟨json, hparse, hall, rfl⟩
    simp only [registrationNames, List.forall_mem_cons, readable_iff] at hall
    obtain ⟨⟨_, hid, hid'⟩, ⟨_, hsecret, hsecret'⟩, ⟨_, htoken, htoken'⟩, ⟨_, huri, huri'⟩, -⟩ := hall
    simp only [processRegistrationResponseSharedSecret, hparse, hid, hid', hsecret, hsecret', htoken, htoken',
      huri, huri', bind, Except.bind, pure, Except.pure, replaceCredentials]

theorem processRsa_eq_ok {response : HttpResponse} {h' : SecurityHandler} :
    processRegistrationResponseRsa3072 env response h = .ok h' ↔
      ∃ json, parsePayload env response = .ok json ∧
        (∀ name ∈ registrationNames .rsa3072, readable env json name = true) ∧
          h' = replaceCredentials .rsa3072 json h := by
  constructor
  · intro hok
    obtain ⟨json, hparse, hok⟩ := bind_eq_ok hok
    obtain ⟨clientId, hid, hok⟩ := bind_eq_ok hok
    obtain ⟨token, htoken, hok⟩ := bind_eq_ok hok
    obtain ⟨uri, huri, hok⟩ := bind_eq_ok hok
    obtain ⟨_, hid', hok⟩ := bind_eq_ok hok
    obtain ⟨_, htoken', hok⟩ := bind_eq_ok hok
    obtain ⟨_, huri', hok⟩ := bind_eq_ok hok
    obtain ⟨hid, rfl⟩ := readable_of_getString hid hid'
    obtain ⟨htoken, rfl⟩ := readable_of_getString htoken htoken'
    obtain ⟨huri, rfl⟩ := readable_of_getString huri huri'
    cases hok
    refine ⟨json, hparse, ?_, rfl⟩
    simp [registrationNames, hid, htoken, huri]
  · rintro ⟨json, hparse, hall, rfl⟩
    simp only [registrationNames, List.forall_mem_cons, readable_iff] at hall
    obtain ⟨⟨_, hid, hid'⟩, ⟨_, htoken, htoken'⟩, ⟨_, huri, huri'⟩, -⟩ := hall
    simp only [processRegistrationResponseRsa3072, hparse, hid, hid', htoken, htoken', huri, huri', bind,
      Except.bind, pure, Except.pure, replaceCredentials]

/-! ## One call -/

/-- The key pair that the call leaves in the handler. -/
def keysAfter (c : CoreConfiguration) (env : Environment) (h : SecurityHandler) : Rsa :=
  match h.registrationAccessToken, c.securityProfile with
  | some _, .rsa3072 => generatedKeys env
  | _, _ => h.rsa

theorem composePayload_handler {payload : Result Bytes} {h' : SecurityHandler}
    (heq : composePayload c env h = some (payload, h')) : h' = { h with rsa := keysAfter c env h } := by
  obtain ⟨clientId, clientSecret, token, uri, rsa, accessToken, lastTokenTime⟩ := h
  unfold composePayload at heq
  unfold keysAfter
  cases token with
  | none =>
    cases hprofile : c.securityProfile with
    | sharedSecret =>
      simp only [hprofile] at heq
      cases heq
      rfl
    | rsa3072 =>
      simp only [hprofile] at heq
      obtain ⟨_, -, heq⟩ := Option.map_eq_some_iff.1 heq
      cases heq
      rfl
  | some token =>
    cases hprofile : c.securityProfile with
    | sharedSecret =>
      simp only [hprofile] at heq
      obtain ⟨_, -, heq⟩ := Option.map_eq_some_iff.1 heq
      cases heq
      rfl
    | rsa3072 =>
      simp only [hprofile] at heq
      cases heq
      rfl

theorem prepareRegistration_handler {request : Result HttpRequest} {h' : SecurityHandler}
    (heq : prepareRegistration c env h = some (request, h')) : h' = { h with rsa := keysAfter c env h } := by
  unfold prepareRegistration at heq
  split at heq
  · cases heq
  · rename_i hcompose
    cases heq
    exact composePayload_handler hcompose
  · rename_i hcompose
    obtain ⟨_, -, heq⟩ := Option.map_eq_some_iff.1 heq
    cases heq
    exact composePayload_handler hcompose

/-- The request was sent and answered with success, and the body of the answer is this JSON. -/
def Success (c : CoreConfiguration) (env : Environment) (h : SecurityHandler) (json : Json) : Prop :=
  ∃ request h' response, prepareRegistration c env h = some (.ok request, h') ∧ env.send request = .ok response ∧
    registrationStatus h response = .ok () ∧ parsePayload env response = .ok json

theorem Success.unique {json json' : Json} (hs : Success c env h json) (hs' : Success c env h json') :
    json = json' := by
  obtain ⟨request, h₁, response, hprep, hsend, -, hparse⟩ := hs
  obtain ⟨request', h₂, response', hprep', hsend', -, hparse'⟩ := hs'
  rw [hprep] at hprep'
  cases hprep'
  rw [hsend] at hsend'
  cases hsend'
  rw [hparse] at hparse'
  cases hparse'
  rfl

/-- The handler once the strings of a success response are in. -/
def registered (c : CoreConfiguration) (env : Environment) (h : SecurityHandler) (json : Json) :
    SecurityHandler :=
  replaceCredentials c.securityProfile json { h with rsa := keysAfter c env h }

theorem processRegistrationResponse_of_ok {response : HttpResponse} {json : Json}
    (hstatus : registrationStatus h response = .ok ()) (hparse : parsePayload env response = .ok json)
    (hall : ∀ name ∈ registrationNames c.securityProfile, readable env json name = true) :
    processRegistrationResponse c env response h =
      (saveCredentials c env (replaceCredentials c.securityProfile json h),
        replaceCredentials c.securityProfile json h) := by
  unfold processRegistrationResponse
  rw [hstatus]
  cases hprofile : c.securityProfile with
  | sharedSecret =>
    rw [hprofile] at hall
    rw [processShared_eq_ok.2 ⟨json, hparse, hall, rfl⟩]
  | rsa3072 =>
    rw [hprofile] at hall
    rw [processRsa_eq_ok.2 ⟨json, hparse, hall, rfl⟩]

theorem processRegistrationResponse_of_not {response : HttpResponse}
    (hnot : registrationStatus h response = .ok () → ∀ json, parsePayload env response = .ok json →
      ¬ ∀ name ∈ registrationNames c.securityProfile, readable env json name = true) :
    ∃ e, processRegistrationResponse c env response h = (.error e, h) := by
  unfold processRegistrationResponse
  cases hstatus : registrationStatus h response with
  | error e => exact ⟨e, rfl⟩
  | ok u =>
    have hnot := hnot hstatus
    cases hprofile : c.securityProfile with
    | sharedSecret =>
      rw [hprofile] at hnot
      cases hprocess : processRegistrationResponseSharedSecret env response h with
      | error e => exact ⟨e, rfl⟩
      | ok h' =>
        obtain ⟨json, hparse, hall, -⟩ := processShared_eq_ok.1 hprocess
        exact absurd hall (hnot json hparse)
    | rsa3072 =>
      rw [hprofile] at hnot
      cases hprocess : processRegistrationResponseRsa3072 env response h with
      | error e => exact ⟨e, rfl⟩
      | ok h' =>
        obtain ⟨json, hparse, hall, -⟩ := processRsa_eq_ok.1 hprocess
        exact absurd hall (hnot json hparse)

theorem register_of_success {json : Json} (success : Success c env h json)
    (hall : ∀ name ∈ registrationNames c.securityProfile, readable env json name = true) :
    register c env h = some (saveCredentials c env (registered c env h json), registered c env h json) := by
  obtain ⟨request, h', response, hprep, hsend, hstatus, hparse⟩ := success
  have hh := prepareRegistration_handler hprep
  subst hh
  unfold register
  rw [hprep]
  simp only [hsend]
  rw [processRegistrationResponse_of_ok (h := { h with rsa := keysAfter c env h }) hstatus hparse hall]
  rfl

theorem register_of_not_success (prepared : prepareRegistration c env h ≠ none)
    (hnot : ∀ json, Success c env h json →
      ¬ ∀ name ∈ registrationNames c.securityProfile, readable env json name = true) :
    ∃ e, register c env h = some (.error e, { h with rsa := keysAfter c env h }) := by
  unfold register
  cases hprep : prepareRegistration c env h with
  | none => exact absurd hprep prepared
  | some p =>
    obtain ⟨request, h'⟩ := p
    have hh := prepareRegistration_handler hprep
    subst hh
    cases request with
    | error e => exact ⟨e, rfl⟩
    | ok request =>
      cases hsend : env.send request with
      | error e => exact ⟨e, by simp only [hsend]⟩
      | ok response =>
        simp only [hsend]
        have hprocess : ∃ e, processRegistrationResponse c env response { h with rsa := keysAfter c env h } =
            (.error e, { h with rsa := keysAfter c env h }) := by
          apply processRegistrationResponse_of_not
          intro hstatus json hparse
          exact hnot json ⟨request, _, response, hprep, hsend, hstatus, hparse⟩
        obtain ⟨e, he⟩ := hprocess
        exact ⟨e, congrArg some he⟩

theorem prepared_of_register {r : Result Unit × SecurityHandler} (hr : register c env h = some r) :
    prepareRegistration c env h ≠ none := by
  intro hnone
  rw [register, hnone] at hr
  cases hr

/-! ## All or nothing -/

/-- Every member that is needed is a string, and there is memory to copy it. -/
def Complete (c : CoreConfiguration) (env : Environment) (json : Json) : Prop :=
  ∀ name ∈ registrationNames c.securityProfile, ∃ s, getObjectItem json name = .ok (.string s) ∧
    env.stringCopied name = true

/-- A `null` stands for at least one string, and nothing else is wrong. -/
def NullAccepted (c : CoreConfiguration) (env : Environment) (json : Json) : Prop :=
  (∀ name ∈ registrationNames c.securityProfile, readable env json name = true) ∧
    ∃ name ∈ registrationNames c.securityProfile, getObjectItem json name = .ok .null

theorem Complete.readable {json : Json} (hc : Complete c env json) {name : CString}
    (hname : name ∈ registrationNames c.securityProfile) : readable env json name = true := by
  obtain ⟨s, hs, hcopied⟩ := hc name hname
  simp only [MindConnect.readable, hs, hcopied]

theorem complete_or_nullAccepted {json : Json}
    (hall : ∀ name ∈ registrationNames c.securityProfile, readable env json name = true) :
    Complete c env json ∨ NullAccepted c env json := by
  by_cases hnull : ∃ name ∈ registrationNames c.securityProfile, getObjectItem json name = .ok .null
  · exact .inr ⟨hall, hnull⟩
  · refine .inl fun name hname => ?_
    have hread := hall name hname
    unfold readable at hread
    split at hread
    · rename_i s hs
      exact ⟨s, hs, hread⟩
    · rename_i hs
      exact absurd ⟨name, hname, hs⟩ hnull
    · cases hread

theorem NullAccepted.not_complete {json : Json} (hn : NullAccepted c env json) : ¬ Complete c env json := by
  intro hc
  obtain ⟨-, name, hname, hnull⟩ := hn
  obtain ⟨s, hs, -⟩ := hc name hname
  rw [hnull] at hs
  cases hs

/-- The call gets a complete success response. -/
def AcceptedResponse (c : CoreConfiguration) (env : Environment) (h : SecurityHandler) (json : Json) : Prop :=
  Success c env h json ∧ Complete c env json

/-- A complete success response replaces the credentials together; short of one, the call returns an error
and leaves the handler as it was. -/
def AllOrNothing (c : CoreConfiguration) (env : Environment) (h : SecurityHandler) : Prop :=
  ∃ code h', register c env h = some (code, h') ∧
    ((∃ json, AcceptedResponse c env h json ∧ h' = registered c env h json) ∨
      ((∀ json, ¬ AcceptedResponse c env h json) ∧ (∃ e, code = .error e) ∧ h' = h))

theorem allOrNothing_iff (c : CoreConfiguration) (env : Environment) (h : SecurityHandler) :
    AllOrNothing c env h ↔
      prepareRegistration c env h ≠ none ∧
        ((∀ json, ¬ AcceptedResponse c env h json) → keysAfter c env h = h.rsa) ∧
          ∀ json, Success c env h json → NullAccepted c env json →
            (∃ e, saveCredentials c env (registered c env h json) = .error e) ∧ registered c env h json = h := by
  constructor
  · rintro ⟨code, h', hreg, hcases⟩
    refine ⟨prepared_of_register hreg, fun hnone => ?_, fun json hsuccess hnull => ?_⟩
    · rcases hcases with ⟨json, haccepted, -⟩ | ⟨-, -, hsame⟩
      · exact absurd haccepted (hnone json)
      · by_cases hread : ∃ json, Success c env h json ∧
            ∀ name ∈ registrationNames c.securityProfile, readable env json name = true
        · obtain ⟨json, hsuccess, hall⟩ := hread
          rw [register_of_success hsuccess hall] at hreg
          cases hreg
          have := congrArg SecurityHandler.rsa hsame
          simpa [registered] using this
        · obtain ⟨e, he⟩ := register_of_not_success (prepared_of_register hreg)
            fun json hsuccess hall => hread ⟨json, hsuccess, hall⟩
          rw [he] at hreg
          cases hreg
          exact congrArg SecurityHandler.rsa hsame
    · rw [register_of_success hsuccess hnull.1] at hreg
      cases hreg
      rcases hcases with ⟨json', haccepted, -⟩ | ⟨-, herror, hsame⟩
      · rw [haccepted.1.unique hsuccess] at haccepted
        exact absurd haccepted.2 hnull.not_complete
      · exact ⟨herror, hsame⟩
  · rintro ⟨hprep, hkeys, hnull⟩
    by_cases hread : ∃ json, Success c env h json ∧
        ∀ name ∈ registrationNames c.securityProfile, readable env json name = true
    · obtain ⟨json, hsuccess, hall⟩ := hread
      refine ⟨_, _, register_of_success hsuccess hall, ?_⟩
      rcases complete_or_nullAccepted hall with hcomplete | hnullAccepted
      · exact .inl ⟨json, ⟨hsuccess, hcomplete⟩, rfl⟩
      · obtain ⟨herror, hsame⟩ := hnull json hsuccess hnullAccepted
        refine .inr ⟨fun json' haccepted => ?_, herror, hsame⟩
        rw [haccepted.1.unique hsuccess] at haccepted
        exact hnullAccepted.not_complete haccepted.2
    · obtain ⟨e, he⟩ := register_of_not_success hprep fun json hsuccess hall => hread ⟨json, hsuccess, hall⟩
      have hnone : ∀ json, ¬ AcceptedResponse c env h json := fun json haccepted =>
        hread ⟨json, haccepted.1, fun name hname => haccepted.2.readable hname⟩
      refine ⟨_, _, he, .inr ⟨hnone, ⟨e, rfl⟩, ?_⟩⟩
      rw [hkeys hnone]

def rsaConfiguration : CoreConfiguration where
  securityProfile := .rsa3072
  initialAccessToken := some (.lit "iat")
  registerEndpoint := .lit "https://host/api/agentmanagement/v3/register"
  tokenEndpoint := .lit "https://host/api/agentmanagement/v3/oauth/token"
  callbacksAreUsed := false
  criticalSectionCallbacksAreUsed := false

def rsaHandler : SecurityHandler where
  clientId := some (.lit "agent")
  clientSecret := none
  registrationAccessToken := some (.lit "rat")
  registrationUri := some (.lit "https://host/api/agentmanagement/v3/register/agent")
  rsa := ⟨some (.lit "old public key"), some (.lit "old private key")⟩
  accessToken := none
  lastTokenTime := none

/-- Every step goes through, but the request cannot be sent. -/
def offlineEnvironment : Environment where
  step _ := .ok ()
  memberAdded _ := true
  stringCopied _ := true
  generateRsaKey := .ok (.lit "new public key", .lit "new private key")
  modulusAndExponent _ := .ok (.lit "modulus", .lit "AQAB")
  guid := .ok (.lit "00000000-0000-4000-8000-000000000000")
  randomBytes := .ok (List.replicate 16 0)
  send _ := .error .couldNotConnect
  parse _ := none
  save _ := .ok ()
  load := .error .credentialsNotLoaded
  enter := .ok ()
  accessTokenPayload := .error .fail

set_option maxRecDepth 1000 in
/-- The agent cannot be reached, and has lost its keys: the server knows the old ones only. -/
theorem offlineRotation_not_allOrNothing : ¬ AllOrNothing rsaConfiguration offlineEnvironment rsaHandler := by
  have hreg : register rsaConfiguration offlineEnvironment rsaHandler =
      some (.error .couldNotConnect, { rsaHandler with
        rsa := ⟨some (.lit "new public key"), some (.lit "new private key")⟩ }) := by decide
  rintro ⟨code, h', hcall, ⟨json, ⟨⟨request, _, response, -, hsend, -⟩, -⟩, -⟩ | ⟨-, -, rfl⟩⟩
  · cases hsend
  · rw [hreg] at hcall
    simp [rsaHandler, CString.lit, ascii] at hcall

end MindConnect
