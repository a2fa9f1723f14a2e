import MindConnect.Core.StoredCredentials
import MindConnect.Lib.CriticalSection

/-!
# The core: onboarding, key rotation, credential update, access token

| here | there |
| --- | --- |
| `onboardSection`, `rotateKeySection`, `updateCredentialsSection` | what `core.c` does between the two callbacks |
| `mclCoreOnboard`, … | `mcl_core_onboard` (`core.c:54`), `mcl_core_rotate_key` (`:101`), `mcl_core_update_credentials` (`:149`), `mcl_core_get_access_token` (`:188`) |
| `isOnboarded` | `mcl_core_is_onboarded` (`:220`) |

The core is not null. An agent is onboarded when its handler has a registration access token; a JSON `null`
for the token passes for a success, so that staying onboarded (`run_staysOnboarded`) depends on the responses.
-/

namespace MindConnect

open JsonUtil CriticalSection

def isOnboarded (h : SecurityHandler) : Bool := h.registrationAccessToken.isSome

/-- The two callbacks around a part of a function: if entering fails, so does the function. -/
def criticalSection (c : CoreConfiguration) (env : Environment) (h : SecurityHandler)
    (part : Option (Result Unit × SecurityHandler)) : Option (Result Unit × SecurityHandler) :=
  if c.criticalSectionCallbacksAreUsed then
    match env.enter with
    | .ok () => part
    | .error e => some (.error e, h)
  else part

def onboardSection (c : CoreConfiguration) (env : Environment) (h : SecurityHandler) :
    Option (Result Unit × SecurityHandler) :=
  if isOnboarded h = false then register c env h else some (.error .alreadyOnboarded, h)

def rotateKeySection (c : CoreConfiguration) (env : Environment) (h : SecurityHandler) :
    Option (Result Unit × SecurityHandler) :=
  if isOnboarded h then register c env h else some (.error .notOnboarded, h)

def updateCredentialsSection (c : CoreConfiguration) (env : Environment) (h : SecurityHandler) :
    Option (Result Unit × SecurityHandler) :=
  if isOnboarded h then updateCredentials c env h else some (.error .notOnboarded, h)

def mclCoreOnboard (c : CoreConfiguration) (env : Environment) (h : SecurityHandler) :
    Option (Result Unit × SecurityHandler) :=
  criticalSection c env h (onboardSection c env h)

def mclCoreRotateKey (c : CoreConfiguration) (env : Environment) (h : SecurityHandler) :
    Option (Result Unit × SecurityHandler) :=
  criticalSection c env h (rotateKeySection c env h)

def mclCoreUpdateCredentials (c : CoreConfiguration) (env : Environment) (h : SecurityHandler) :
    Option (Result Unit × SecurityHandler) :=
  criticalSection c env h (updateCredentialsSection c env h)

def mclCoreGetAccessToken (c : CoreConfiguration) (env : Environment) (h : SecurityHandler) :
    Option (Result Unit × SecurityHandler) :=
  if isOnboarded h then some (getAccessToken c env h) else some (.error .notOnboarded, h)

/-- The three functions with a critical section. -/
inductive SectionOp where
  | onboard | rotateKey | updateCredentials
deriving DecidableEq, Repr

def SectionOp.section (c : CoreConfiguration) (env : Environment) :
    SectionOp → SecurityHandler → Option (Result Unit × SecurityHandler)
  | .onboard => onboardSection c env
  | .rotateKey => rotateKeySection c env
  | .updateCredentials => updateCredentialsSection c env

inductive CoreOp where
  | onboard | rotateKey | updateCredentials | getAccessToken
deriving DecidableEq, Repr

def CoreOp.perform (c : CoreConfiguration) (env : Environment) :
    CoreOp → SecurityHandler → Option (Result Unit × SecurityHandler)
  | .onboard => mclCoreOnboard c env
  | .rotateKey => mclCoreRotateKey c env
  | .updateCredentials => mclCoreUpdateCredentials c env
  | .getAccessToken => mclCoreGetAccessToken c env

/-- A call with what its environment comes to; none is made that takes the length of a null pointer. -/
def Performs (c : CoreConfiguration) (call : CoreOp × Environment) (h : SecurityHandler) (code : Result Unit)
    (h' : SecurityHandler) : Prop :=
  call.1.perform c call.2 h = some (code, h')

abbrev CoreCall := Done SecurityHandler (CoreOp × Environment) (Result Unit)

/-! ## One section -/

variable {c : CoreConfiguration} {env : Environment} {h h' : SecurityHandler} {code : Result Unit}

/-- No success response to this call has `null` for a string that is needed. -/
def NoNullAccepted (c : CoreConfiguration) (env : Environment) (h : SecurityHandler) : Prop :=
  ∀ json, Success c env h json → ¬ NullAccepted c env json

/-- The handler has every string of the profile from the response. -/
structure RegisteredFrom (profile : SecurityProfile) (json : Json) (h : SecurityHandler) : Prop where
  clientId : ∃ s, getObjectItem json jsonNameClientId = .ok (.string s) ∧ h.clientId = some s
  clientSecret : profile = .sharedSecret →
    ∃ s, getObjectItem json jsonNameClientSecret = .ok (.string s) ∧ h.clientSecret = some s
  registrationAccessToken : ∃ s, getObjectItem json jsonNameRegistrationAccessToken = .ok (.string s) ∧
    h.registrationAccessToken = some s
  registrationUri : ∃ s, getObjectItem json jsonNameRegistrationClientUri = .ok (.string s) ∧
    h.registrationUri = some s

theorem RegisteredFrom.isOnboarded {profile : SecurityProfile} {json : Json}
    (hr : RegisteredFrom profile json h) : isOnboarded h = true := by
  obtain ⟨s, -, hs⟩ := hr.registrationAccessToken
  rw [MindConnect.isOnboarded, hs]
  rfl

theorem stringOf_of_string {json : Json} {name s : CString} (hs : getObjectItem json name = .ok (.string s)) :
    stringOf json name = some s := by
  rw [stringOf, hs]

theorem registered_registeredFrom {json : Json} (hcomplete : Complete c env json) :
    RegisteredFrom c.securityProfile json (registered c env h json) := by
  unfold Complete at hcomplete
  unfold registered
  cases hprofile : c.securityProfile with
  | sharedSecret =>
    simp only [hprofile, registrationNames, List.forall_mem_cons] at hcomplete
    obtain ⟨⟨id, hid, -⟩, ⟨secret, hsecret, -⟩, ⟨token, htoken, -⟩, ⟨uri, huri, -⟩, -⟩ := hcomplete
    exact ⟨⟨id, hid, stringOf_of_string hid⟩, fun _ => ⟨secret, hsecret, stringOf_of_string hsecret⟩,
      ⟨token, htoken, stringOf_of_string htoken⟩, ⟨uri, huri, stringOf_of_string huri⟩⟩
  | rsa3072 =>
    simp only [hprofile, registrationNames, List.forall_mem_cons] at hcomplete
    obtain ⟨⟨id, hid, -⟩, ⟨token, htoken, -⟩, ⟨uri, huri, -⟩, -⟩ := hcomplete
    exact ⟨⟨id, hid, stringOf_of_string hid⟩, (fun hne => by cases hne),
      ⟨token, htoken, stringOf_of_string htoken⟩, ⟨uri, huri, stringOf_of_string huri⟩⟩

/-- What a registration comes to if no `null` is accepted: the strings of a success response, or an error and
at most another key pair. -/
theorem register_cases (hnull : NoNullAccepted c env h) (hreg : register c env h = some (code, h')) :
    (∃ json, Success c env h json ∧ h' = registered c env h json ∧ RegisteredFrom c.securityProfile json h') ∨
      ((∃ e, code = .error e) ∧ h' = { h with rsa := keysAfter c env h }) := by
  by_cases hread : ∃ json, Success c env h json ∧
      ∀ name ∈ registrationNames c.securityProfile, readable env json name = true
  · obtain ⟨json, hsuccess, hall⟩ := hread
    rw [register_of_success hsuccess hall] at hreg
    cases hreg
    rcases complete_or_nullAccepted hall with hcomplete | hnullAccepted
    · exact .inl ⟨json, hsuccess, rfl, registered_registeredFrom hcomplete⟩
    · exact absurd hnullAccepted (hnull json hsuccess)
  · obtain ⟨e, he⟩ := register_of_not_success (prepared_of_register hreg)
      fun json hsuccess hall => hread ⟨json, hsuccess, hall⟩
    rw [he] at hreg
    cases hreg
    exact .inr ⟨⟨e, rfl⟩, rfl⟩

theorem updateCredentials_isOnboarded (hupdate : updateCredentials c env h = some (code, h'))
    (hon : isOnboarded h = true) : isOnboarded h' = true := by
  cases hload : loadedCredentials c env with
  | none =>
    obtain ⟨e, he⟩ := updateCredentials_of_none (h := h) hload
    rw [he] at hupdate
    cases hupdate
    exact hon
  | some loaded =>
    rw [updateCredentials_of_some hload] at hupdate
    obtain ⟨clientId, -, hupdate⟩ := Option.bind_eq_some_iff.1 hupdate
    split at hupdate
    · cases hupdate
      exact hon
    · obtain ⟨checked, -, hupdate⟩ := Option.map_eq_some_iff.1 hupdate
      cases checked with
      | ok u =>
        cases hupdate
        exact hon
      | error e =>
        cases hupdate
        rw [isOnboarded, (adopt_hasLoaded c loaded h).1]
        rfl

theorem getAccessToken_isOnboarded (c : CoreConfiguration) (env : Environment) (h : SecurityHandler) :
    isOnboarded (getAccessToken c env h).2 = isOnboarded h := by
  unfold getAccessToken isOnboarded
  split
  · rfl
  · dsimp only
    split <;> rfl

/-- The part of the function that calls `core_processor_register`. -/
def SectionOp.Registers (op : SectionOp) (h : SecurityHandler) : Prop :=
  (op = .onboard ∧ isOnboarded h = false) ∨ (op = .rotateKey ∧ isOnboarded h = true)

/-- What a section keeps and what it promises, if no `null` is accepted. -/
theorem section_spec {op : SectionOp} (hsection : op.section c env h = some (code, h'))
    (hnull : op.Registers h → NoNullAccepted c env h) :
    (isOnboarded h = true → isOnboarded h' = true) ∧
      (op ≠ .updateCredentials → code = .ok () →
        ∃ json, Success c env h json ∧ RegisteredFrom c.securityProfile json h') := by
  have hregister : op.Registers h → register c env h = some (code, h') →
      (isOnboarded h = true → isOnboarded h' = true) ∧
        (code = .ok () → ∃ json, Success c env h json ∧ RegisteredFrom c.securityProfile json h') := by
    intro hop hreg
    rcases register_cases (hnull hop) hreg with ⟨json, hsuccess, -, hfrom⟩ | ⟨⟨e, rfl⟩, rfl⟩
    · exact ⟨fun _ => hfrom.isOnboarded, fun _ => ⟨json, hsuccess, hfrom⟩⟩
    · exact ⟨id, nofun⟩
  cases op with
  | onboard =>
    simp only [SectionOp.section, onboardSection] at hsection
    split_ifs at hsection with hon
    · obtain ⟨hkeep, hok⟩ := hregister (.inl ⟨rfl, hon⟩) hsection
      exact ⟨hkeep, fun _ => hok⟩
    · cases hsection
      exact ⟨id, fun _ => nofun⟩
  | rotateKey =>
    simp only [SectionOp.section, rotateKeySection] at hsection
    split_ifs at hsection with hon
    · obtain ⟨hkeep, hok⟩ := hregister (.inr ⟨rfl, hon⟩) hsection
      exact ⟨hkeep, fun _ => hok⟩
    · cases hsection
      exact ⟨id, fun _ => nofun⟩
  | updateCredentials =>
    refine ⟨fun hon => ?_, fun hne => absurd rfl hne⟩
    simp only [SectionOp.section, updateCredentialsSection, hon, if_true] at hsection
    exact updateCredentials_isOnboarded hsection hon

/-! ## One call -/

/-- The call gets as far as `core_processor_register`. -/
def ReachesRegister (c : CoreConfiguration) (call : CoreOp × Environment) (h : SecurityHandler) : Prop :=
  (c.criticalSectionCallbacksAreUsed = true → call.2.enter = .ok ()) ∧
    match call.1 with
    | .onboard => SectionOp.onboard.Registers h
    | .rotateKey => SectionOp.rotateKey.Registers h
    | _ => False

/-- A call with a critical section fails to enter it and does nothing, or does what the section does. -/
theorem criticalSection_spec (op : SectionOp)
    (hcall : criticalSection c env h (op.section c env h) = some (code, h'))
    (hnull : (c.criticalSectionCallbacksAreUsed = true → env.enter = .ok ()) → op.Registers h →
      NoNullAccepted c env h) :
    (isOnboarded h = true → isOnboarded h' = true) ∧
      (op ≠ .updateCredentials → code = .ok () →
        ∃ json, Success c env h json ∧ RegisteredFrom c.securityProfile json h') := by
  unfold criticalSection at hcall
  split_ifs at hcall with hused
  · cases henter : env.enter with
    | ok u =>
      rw [henter] at hcall
      exact section_spec hcall (hnull fun _ => henter)
    | error e =>
      rw [henter] at hcall
      cases hcall
      exact ⟨id, fun _ => nofun⟩
  · exact section_spec hcall (hnull fun h => absurd h hused)

/-- What a call keeps and what it promises, if no `null` is accepted. -/
theorem performs_spec {call : CoreOp × Environment} (performs : Performs c call h code h')
    (hnull : ReachesRegister c call h → NoNullAccepted c call.2 h) :
    (isOnboarded h = true → isOnboarded h' = true) ∧
      (call.1 = .onboard ∨ call.1 = .rotateKey → code = .ok () →
        ∃ json, Success c call.2 h json ∧ RegisteredFrom c.securityProfile json h') := by
  obtain ⟨op, env⟩ := call
  cases op with
  | onboard =>
    obtain ⟨hkeep, hok⟩ := criticalSection_spec .onboard performs fun he hr => hnull ⟨he, hr⟩
    exact ⟨hkeep, fun _ => hok nofun⟩
  | rotateKey =>
    obtain ⟨hkeep, hok⟩ := criticalSection_spec .rotateKey performs fun he hr => hnull ⟨he, hr⟩
    exact ⟨hkeep, fun _ => hok nofun⟩
  | updateCredentials =>
    refine ⟨(criticalSection_spec .updateCredentials performs ?_).1, by simp⟩
    rintro - (⟨hop, -⟩ | ⟨hop, -⟩) <;> cases hop
  | getAccessToken =>
    refine ⟨fun hon => ?_, by simp⟩
    have hsome : some (getAccessToken c env h) = some (code, h') := by
      simpa [Performs, CoreOp.perform, mclCoreGetAccessToken, hon] using performs
    have := getAccessToken_isOnboarded c env h
    rwa [Option.some.inj hsome, hon] at this

/-! ## Runs -/

/-- In a run without an accepted `null`, every success of onboarding and of key rotation leaves the strings of
the response, and an onboarded agent stays onboarded. -/
theorem run_staysOnboarded {h₀ : SecurityHandler} {calls : List CoreCall}
    (run : Serial (Performs c) h₀ calls h)
    (noNull : ∀ call ∈ calls, ReachesRegister c call.call call.before →
      NoNullAccepted c call.call.2 call.before) :
    (∀ call ∈ calls, call.call.1 = .onboard ∨ call.call.1 = .rotateKey → call.out = .ok () →
        isOnboarded call.after = true ∧
          ∃ json, Success c call.call.2 call.before json ∧ RegisteredFrom c.securityProfile json call.after) ∧
      ∀ pre call post, calls = pre ++ call :: post → isOnboarded call.before = true →
        ∀ later ∈ call :: post, isOnboarded later.after = true := by
  have hspec : ∀ call ∈ calls, _ := fun call hcall => performs_spec (run.exec_of_mem hcall) (noNull call hcall)
  constructor
  · intro call hcall hop hok
    obtain ⟨json, hsuccess, hfrom⟩ := (hspec call hcall).2 hop hok
    exact ⟨hfrom.isOnboarded, json, hsuccess, hfrom⟩
  · rintro pre call post rfl hon later hlater
    have hafter := (hspec call (by simp)).1 hon
    rcases List.mem_cons.1 hlater with rfl | hlater
    · exact hafter
    · have hpost : ∀ e ∈ post, isOnboarded e.before = true → isOnboarded e.after = true :=
        fun e he => (hspec e (by simp [he])).1
      exact (run.later (I := fun h => isOnboarded h = true) hafter hpost later hlater).2

def sharedSecretConfiguration : CoreConfiguration := { rsaConfiguration with securityProfile := .sharedSecret }

/-- A response of a server that registers the agent with this token. -/
def registrationJson (token : Json) : Json :=
  .object [(jsonNameClientId, .string (.lit "agent")), (jsonNameClientSecret, .string (.lit "secret")),
    (jsonNameRegistrationAccessToken, token), (jsonNameRegistrationClientUri, .string (.lit "https://host/agent"))]

def serverEnvironment (json : Json) : Environment :=
  { offlineEnvironment with
    send := fun _ => .ok ⟨201, some json.print, none⟩
    parse := fun _ => some json }

theorem firstOnboarding_staysOnboarded :
    ∃ h calls, Serial (Performs sharedSecretConfiguration) emptySecurityHandler calls h ∧ calls.length = 1 ∧
      ∀ call ∈ calls, call.call.1 = .onboard ∨ call.call.1 = .rotateKey → call.out = .ok () →
        isOnboarded call.after = true := by
  have hperforms : ∃ h, Performs sharedSecretConfiguration
      (.onboard, serverEnvironment (registrationJson (.string (.lit "token")))) emptySecurityHandler (.ok ()) h :=
    ⟨_, rfl⟩
  obtain ⟨h, hperforms⟩ := hperforms
  refine ⟨h, _, .snoc .nil hperforms, rfl, fun call hcall hop hok => ?_⟩
  refine ((run_staysOnboarded (.snoc .nil hperforms) ?_).1 call hcall hop hok).1
  rintro call hcall - json ⟨_, _, _, -, hsend, -, hparse⟩ ⟨-, name, hname, hnull⟩
  cases List.mem_singleton.1 hcall
  cases hsend
  cases hparse
  have hstring : ∀ name ∈ registrationNames .sharedSecret,
      stringOf (registrationJson (.string (.lit "token"))) name ≠ none := by decide
  refine hstring name hname ?_
  rw [stringOf, hnull]

/-- An agent whose token is `null` is told that it is onboarded, and is not. -/
theorem nullToken_not_onboarded : ¬ ∀ (c : CoreConfiguration) (h₀ h : SecurityHandler) (calls : List CoreCall),
    Serial (Performs c) h₀ calls h → ∀ call ∈ calls, call.call.1 = .onboard ∨ call.call.1 = .rotateKey →
      call.out = .ok () → isOnboarded call.after = true := by
  intro hall
  have hperforms : ∃ h, Performs sharedSecretConfiguration (.onboard, serverEnvironment (registrationJson .null))
      emptySecurityHandler (.ok ()) h ∧ isOnboarded h = false := ⟨_, rfl, rfl⟩
  obtain ⟨h, hperforms, hnot⟩ := hperforms
  have := hall _ _ _ _ (.snoc .nil hperforms) _ (List.mem_append_right _ (List.mem_singleton_self _)) (.inl rfl) rfl
  rw [hnot] at this
  cases this

end MindConnect
