import MindConnect.Core.Registration

/-!
# Adopting stored credentials

`core_processor_update_credentials` compares what the load callback returns with what the handler holds and
takes it over if it differs. Under RSA only the private key is compared, so that a new access token or public
key beside the same private key goes unnoticed; `adoptsStored_iff` says when every change is adopted.
-/

namespace MindConnect

variable {c : CoreConfiguration} {env : Environment} {h : SecurityHandler}

/-- Equal lengths and equal bytes up to that length: equal strings. -/
theorem compareStrings_eq_ok {loaded current : CString} :
    compareStrings loaded current = .ok () ↔ current = loaded := by
  unfold compareStrings stringUtilStrncmp CString.length
  constructor
  · intro hok
    split_ifs at hok with hlen htake
    rw [List.take_length, ← hlen, List.take_length] at htake
    exact (CString.ext htake).symm
  · rintro rfl
    simp

theorem compareStrings_error {loaded current : CString} (hne : current ≠ loaded) :
    ∃ e, compareStrings loaded current = .error e := by
  cases hcompare : compareStrings loaded current with
  | error e => exact ⟨e, rfl⟩
  | ok u => exact absurd (compareStrings_eq_ok.1 hcompare) hne

/-- What the call loads, if the callbacks are set and loading succeeds. -/
def loadedCredentials (c : CoreConfiguration) (env : Environment) : Option LoadedCredentials :=
  if c.callbacksAreUsed then env.load.toOption else none

/-- The handler has the loaded strings of the profile. -/
def HasLoaded (profile : SecurityProfile) (loaded : LoadedCredentials) (h : SecurityHandler) : Prop :=
  h.registrationAccessToken = some loaded.registrationAccessToken ∧
    match profile with
    | .sharedSecret => h.clientSecret = some loaded.clientSecret
    | .rsa3072 => h.rsa = ⟨some loaded.publicKey, some loaded.privateKey⟩

theorem adopt_hasLoaded (c : CoreConfiguration) (loaded : LoadedCredentials) (h : SecurityHandler) :
    HasLoaded c.securityProfile loaded (adopt c loaded h) := by
  unfold HasLoaded adopt
  cases c.securityProfile <;> exact ⟨rfl, rfl⟩

/-- No null pointer is compared, and what is not compared is not different. -/
def Distinguishable (profile : SecurityProfile) (loaded : LoadedCredentials) (h : SecurityHandler) : Prop :=
  match profile with
  | .sharedSecret => ∃ secret, h.clientSecret = some secret ∧
      (secret = loaded.clientSecret → h.registrationAccessToken ≠ none)
  | .rsa3072 => ∃ key, h.rsa.privateKey = some key ∧
      (key = loaded.privateKey →
        h.registrationAccessToken = some loaded.registrationAccessToken ∧ h.rsa.publicKey = some loaded.publicKey)

theorem checkClientSecret_spec {loaded : LoadedCredentials} :
    Distinguishable .sharedSecret loaded h ↔
      ∃ checked, checkClientSecret h loaded.registrationAccessToken loaded.clientSecret = some checked ∧
        (checked = .ok () → HasLoaded .sharedSecret loaded h) := by
  unfold Distinguishable checkClientSecret HasLoaded
  cases hsecret : h.clientSecret with
  | none => simp
  | some secret =>
    by_cases hsame : secret = loaded.clientSecret
    · subst hsame
      have hok : compareStrings loaded.clientSecret loaded.clientSecret = .ok () := compareStrings_eq_ok.2 rfl
      cases htoken : h.registrationAccessToken with
      | none => simp [hok, bind]
      | some token => simp [hok, bind, compareStrings_eq_ok]
    · obtain ⟨e, he⟩ := compareStrings_error hsame
      simp [hsame, he, bind, pure]

theorem checkRsaPrivateKey_spec {loaded : LoadedCredentials} :
    Distinguishable .rsa3072 loaded h ↔
      ∃ checked, checkRsaPrivateKey h loaded.privateKey = some checked ∧
        (checked = .ok () → HasLoaded .rsa3072 loaded h) := by
  unfold Distinguishable checkRsaPrivateKey HasLoaded
  obtain ⟨clientId, clientSecret, token, uri, ⟨publicKey, privateKey⟩, accessToken, lastTokenTime⟩ := h
  cases privateKey with
  | none => simp
  | some key =>
    simp only [Option.some.injEq, exists_eq_left', Option.map_some, compareStrings_eq_ok, Rsa.mk.injEq]
    constructor
    · intro hkey hsame
      exact ⟨(hkey hsame).1, (hkey hsame).2, hsame⟩
    · intro hloaded hsame
      exact ⟨(hloaded hsame).1, (hloaded hsame).2.1⟩

/-- The comparison serves its purpose exactly where it can tell. -/
theorem distinguishable_iff {loaded : LoadedCredentials} :
    Distinguishable c.securityProfile loaded h ↔
      ∃ checked, checkLoaded c loaded h = some checked ∧
        (checked = .ok () → HasLoaded c.securityProfile loaded h) := by
  unfold checkLoaded
  cases c.securityProfile with
  | sharedSecret => exact checkClientSecret_spec
  | rsa3072 => exact checkRsaPrivateKey_spec

/-! ## One call -/

theorem updateCredentials_of_none (hload : loadedCredentials c env = none) :
    ∃ e, updateCredentials c env h = some (.error e, h) := by
  unfold loadedCredentials at hload
  unfold updateCredentials
  cases hused : c.callbacksAreUsed with
  | false => exact ⟨.fail, by simp⟩
  | true =>
    cases henv : env.load with
    | error e => exact ⟨e, by simp⟩
    | ok loaded => simp [hused, henv, Except.toOption] at hload

theorem updateCredentials_of_some {loaded : LoadedCredentials} (hload : loadedCredentials c env = some loaded) :
    updateCredentials c env h =
      h.clientId.bind fun clientId =>
        match compareStrings loaded.clientId clientId with
        | .error e => some (.error e, h)
        | .ok () => (checkLoaded c loaded h).map fun checked =>
          match checked with
          | .ok () => (.error .credentialsUpToDate, h)
          | .error _ => (.ok (), adopt c loaded h) := by
  unfold loadedCredentials at hload
  unfold updateCredentials
  cases hused : c.callbacksAreUsed with
  | false => simp [hused] at hload
  | true =>
    cases henv : env.load with
    | error e => simp [hused, henv, Except.toOption] at hload
    | ok loaded' =>
      simp only [hused, henv, Except.toOption, if_true, Option.some.injEq] at hload
      subst hload
      simp only [Bool.true_eq_false, if_false]
      cases h.clientId with
      | none => rfl
      | some clientId =>
        simp only [Option.bind_some, bind]
        cases compareStrings loaded'.clientId clientId with
        | error e => rfl
        | ok u =>
          cases checkLoaded c loaded' h with
          | none => rfl
          | some checked => cases checked <;> rfl

/-- After the call the handler has what was loaded for its client; if nothing was, or for another client, the
call returns an error and changes nothing. -/
def AdoptsStored (c : CoreConfiguration) (env : Environment) (h : SecurityHandler) : Prop :=
  ∃ code h', updateCredentials c env h = some (code, h') ∧
    match loadedCredentials c env with
    | none => (∃ e, code = .error e) ∧ h' = h
    | some loaded =>
      if h.clientId = some loaded.clientId then
        (code = .ok () ∨ code = .error .credentialsUpToDate) ∧ HasLoaded c.securityProfile loaded h'
      else (∃ e, code = .error e) ∧ h' = h

theorem adoptsStored_iff (c : CoreConfiguration) (env : Environment) (h : SecurityHandler) :
    AdoptsStored c env h ↔
      ∀ loaded, loadedCredentials c env = some loaded → h.clientId ≠ none ∧
        (h.clientId = some loaded.clientId → Distinguishable c.securityProfile loaded h) := by
  unfold AdoptsStored
  cases hload : loadedCredentials c env with
  | none =>
    obtain ⟨e, he⟩ := updateCredentials_of_none (h := h) hload
    simp [he]
  | some loaded =>
    simp only [Option.some.injEq, forall_eq', updateCredentials_of_some hload]
    cases hid : h.clientId with
    | none => simp
    | some clientId =>
      simp only [Option.bind_some, ne_eq, reduceCtorEq, not_false_eq_true, true_and, Option.some.injEq]
      by_cases hsame : clientId = loaded.clientId
      · -- the same client: what matters is what the comparison sees
        rw [compareStrings_eq_ok.2 hsame, distinguishable_iff]
        simp only [hsame, if_true, true_implies, Option.map_eq_some_iff]
        constructor
        · rintro ⟨code, h', ⟨checked, hchecked, heq⟩, -, hhas⟩
          refine ⟨checked, hchecked, ?_⟩
          rintro rfl
          cases heq
          exact hhas
        · rintro ⟨checked, hchecked, hhas⟩
          cases checked with
          | ok u => exact ⟨_, _, ⟨_, hchecked, rfl⟩, .inr rfl, hhas rfl⟩
          | error e => exact ⟨_, _, ⟨_, hchecked, rfl⟩, .inl rfl, adopt_hasLoaded c loaded h⟩
      · obtain ⟨e, he⟩ := compareStrings_error hsame
        simp [hsame, he]

/-- The stored credentials of the same key pair, with the token of a later registration. -/
def laterToken : LoadedCredentials where
  clientId := .lit "agent"
  clientSecret := .lit ""
  publicKey := .lit "old public key"
  privateKey := .lit "old private key"
  registrationAccessToken := .lit "later token"
  registrationUri := .lit "https://host/api/agentmanagement/v3/register/agent"

/-- The token of the handler is out of date, and is said to be up to date. -/
theorem laterToken_not_adoptsStored :
    ¬ AdoptsStored { rsaConfiguration with callbacksAreUsed := true }
      { offlineEnvironment with load := .ok laterToken } rsaHandler := by
  have hcall : updateCredentials { rsaConfiguration with callbacksAreUsed := true }
      { offlineEnvironment with load := .ok laterToken } rsaHandler =
        some (.error .credentialsUpToDate, rsaHandler) := by decide
  rintro ⟨code, h', hupdate, hadopts⟩
  rw [hcall] at hupdate
  cases hupdate
  have hsame : rsaHandler.clientId = some laterToken.clientId := by decide
  have htoken : rsaHandler.registrationAccessToken ≠ some laterToken.registrationAccessToken := by decide
  simp only [loadedCredentials, Except.toOption, if_true, hsame] at hadopts
  exact htoken hadopts.2.1

end MindConnect
