import MindConnect.Core.Core

/-!
# Handlers whose strings can be measured

`strlen` of a null pointer ends the process. A handler is `Usable` when no function of the core comes to that;
`core_processor_initialize` leaves a usable handler, and so does every function, as long as the server answers
in full and RSA keys can be generated.
-/

namespace MindConnect

open JsonUtil

variable {c : CoreConfiguration} {env : Environment} {h h' : SecurityHandler} {code : Result Unit}

/-- No function of the core takes the length of a null pointer of this handler. -/
structure Usable (c : CoreConfiguration) (h : SecurityHandler) : Prop where
  initialAccessToken : isOnboarded h = false → c.initialAccessToken ≠ none
  clientId : isOnboarded h = true → h.clientId ≠ none
  clientSecret : isOnboarded h = true → c.securityProfile = .sharedSecret → h.clientSecret ≠ none
  keys : c.securityProfile = .rsa3072 → h.rsa.publicKey ≠ none ∧ h.rsa.privateKey ≠ none

theorem loadInitialCredentials_usable (loaded : loadInitialCredentials c env = .ok h) : Usable c h := by
  unfold loadInitialCredentials at loaded
  cases htoken : c.initialAccessToken with
  | none =>
    rw [htoken] at loaded
    cases loaded
  | some token =>
    cases hprofile : c.securityProfile with
    | sharedSecret =>
      simp only [htoken, hprofile] at loaded
      cases loaded
      exact ⟨by simp [htoken], nofun, nofun, by simp [hprofile]⟩
    | rsa3072 =>
      simp only [htoken, hprofile] at loaded
      cases hkeys : env.generateRsaKey with
      | error e =>
        rw [hkeys] at loaded
        cases loaded
      | ok keys =>
        rw [hkeys] at loaded
        cases loaded
        exact ⟨by simp [htoken], nofun, nofun, by simp⟩

/-- A handler is usable when the core has been initialized. -/
theorem initializeSecurityHandler_usable (created : initializeSecurityHandler c env = .ok h) : Usable c h := by
  unfold initializeSecurityHandler at created
  split_ifs at created with hused
  · cases hload : env.load with
    | error e =>
      simp only [customLoadRegisterInfo, hload, Except.map] at created
      split at created
      · exact loadInitialCredentials_usable created
      · cases created
    | ok loaded =>
      simp only [customLoadRegisterInfo, hload, Except.map] at created
      cases created
      constructor <;> cases c.securityProfile <;> simp [isOnboarded]
  · exact loadInitialCredentials_usable created

theorem keysAfter_ne_none (usable : Usable c h) (rsa : c.securityProfile = .rsa3072)
    (generated : ∃ keys, env.generateRsaKey = .ok keys) :
    (keysAfter c env h).publicKey ≠ none ∧ (keysAfter c env h).privateKey ≠ none := by
  obtain ⟨⟨publicKey, privateKey⟩, hkeys⟩ := generated
  unfold keysAfter
  split
  · simp [generatedKeys, hkeys]
  · exact usable.keys rsa

theorem register_usable (usable : Usable c h) (noNull : NoNullAccepted c env h)
    (generated : c.securityProfile = .rsa3072 → ∃ keys, env.generateRsaKey = .ok keys)
    (hreg : register c env h = some (code, h')) : Usable c h' := by
  rcases register_cases noNull hreg with ⟨json, -, rfl, hfrom⟩ | ⟨-, rfl⟩
  · have hon := hfrom.isOnboarded
    refine ⟨by simp [hon], fun _ => ?_, fun _ hprofile => ?_, fun hprofile => ?_⟩
    · obtain ⟨s, -, hs⟩ := hfrom.clientId
      simp [hs]
    · obtain ⟨s, -, hs⟩ := hfrom.clientSecret hprofile
      simp [hs]
    · rw [registered, rsa_replaceCredentials]
      exact keysAfter_ne_none usable hprofile (generated hprofile)
  · exact ⟨usable.initialAccessToken, usable.clientId, usable.clientSecret,
      fun hprofile => keysAfter_ne_none usable hprofile (generated hprofile)⟩

theorem updateCredentials_usable (usable : Usable c h)
    (hupdate : updateCredentials c env h = some (code, h')) : Usable c h' := by
  cases hload : loadedCredentials c env with
  | none =>
    obtain ⟨e, he⟩ := updateCredentials_of_none (h := h) hload
    rw [he] at hupdate
    cases hupdate
    exact usable
  | some loaded =>
    rw [updateCredentials_of_some hload] at hupdate
    obtain ⟨clientId, hid, hupdate⟩ := Option.bind_eq_some_iff.1 hupdate
    split at hupdate
    · cases hupdate
      exact usable
    · obtain ⟨checked, -, hupdate⟩ := Option.map_eq_some_iff.1 hupdate
      cases checked with
      | ok u =>
        cases hupdate
        exact usable
      | error e =>
        cases hupdate
        have hadopted := adopt_hasLoaded c loaded h
        have hadoptedId : (adopt c loaded h).clientId = some clientId := by
          unfold adopt
          cases c.securityProfile <;> exact hid
        unfold HasLoaded at hadopted
        refine ⟨by simp [isOnboarded, hadopted.1], fun _ => by simp [hadoptedId], fun _ hprofile => ?_,
          fun hprofile => ?_⟩
        · rw [hprofile] at hadopted
          simp [hadopted.2]
        · rw [hprofile] at hadopted
          simp [hadopted.2]

theorem section_usable {op : SectionOp} (usable : Usable c h) (noNull : NoNullAccepted c env h)
    (generated : c.securityProfile = .rsa3072 → ∃ keys, env.generateRsaKey = .ok keys)
    (hsection : op.section c env h = some (code, h')) : Usable c h' := by
  cases op with
  | onboard =>
    simp only [SectionOp.section, onboardSection] at hsection
    split_ifs at hsection
    · exact register_usable usable noNull generated hsection
    · cases hsection
      exact usable
  | rotateKey =>
    simp only [SectionOp.section, rotateKeySection] at hsection
    split_ifs at hsection
    · exact register_usable usable noNull generated hsection
    · cases hsection
      exact usable
  | updateCredentials =>
    simp only [SectionOp.section, updateCredentialsSection] at hsection
    split_ifs at hsection
    · exact updateCredentials_usable usable hsection
    · cases hsection
      exact usable

theorem register_ne_none (usable : Usable c h) : register c env h ≠ none := by
  have hpayload : composePayload c env h ≠ none := by
    unfold composePayload composeRsaOnboardingJson
    cases htoken : h.registrationAccessToken <;> cases hprofile : c.securityProfile
    · simp
    · obtain ⟨publicKey, hkey⟩ := Option.ne_none_iff_exists'.1 (usable.keys hprofile).1
      cases env.step .jsonRoot <;> simp [hkey]
    · simpa using usable.clientId (by simp [isOnboarded, htoken])
    · simp
  have htoken : tokenForAuth c h ≠ none := by
    unfold tokenForAuth
    cases htoken : h.registrationAccessToken with
    | none => simpa using usable.initialAccessToken (by simp [isOnboarded, htoken])
    | some token => simp
  have hprep : prepareRegistration c env h ≠ none := by
    unfold prepareRegistration
    split
    · exact absurd ‹_› hpayload
    · simp
    · simpa using htoken
  unfold register
  split
  · exact absurd ‹_› hprep
  · simp
  · split <;> simp

theorem updateCredentials_ne_none (usable : Usable c h) (hon : isOnboarded h = true) :
    updateCredentials c env h ≠ none := by
  have hchecked : ∀ loaded, checkLoaded c loaded h ≠ none := by
    intro loaded
    unfold checkLoaded
    cases hprofile : c.securityProfile with
    | sharedSecret =>
      obtain ⟨secret, hsecret⟩ := Option.ne_none_iff_exists'.1 (usable.clientSecret hon hprofile)
      obtain ⟨token, htoken⟩ := Option.isSome_iff_exists.1 hon
      simp only [checkClientSecret, hsecret, htoken, Option.bind_some, bind]
      split <;> simp
    | rsa3072 => simpa [checkRsaPrivateKey] using (usable.keys hprofile).2
  cases hload : loadedCredentials c env with
  | none =>
    obtain ⟨e, he⟩ := updateCredentials_of_none (h := h) hload
    simp [he]
  | some loaded =>
    obtain ⟨clientId, hid⟩ := Option.ne_none_iff_exists'.1 (usable.clientId hon)
    rw [updateCredentials_of_some hload, hid, Option.bind_some]
    split
    · simp
    · simpa using hchecked loaded

theorem section_ne_none {op : SectionOp} (usable : Usable c h) : op.section c env h ≠ none := by
  cases op with
  | onboard =>
    simp only [SectionOp.section, onboardSection]
    split_ifs
    · exact register_ne_none usable
    · simp
  | rotateKey =>
    simp only [SectionOp.section, rotateKeySection]
    split_ifs
    · exact register_ne_none usable
    · simp
  | updateCredentials =>
    simp only [SectionOp.section, updateCredentialsSection]
    split_ifs with hon
    · exact updateCredentials_ne_none usable hon
    · simp

/-! ## Servers that answer in full -/

/-- A success response that can be parsed has every string that is needed. -/
def CompleteResponses (c : CoreConfiguration) (env : Environment) : Prop :=
  ∀ request response json, env.send request = .ok response →
    (httpResponseGetStatus response.statusCode = .ok () ∨
      httpResponseGetStatus response.statusCode = .error .created) →
    parsePayload env response = .ok json →
      ∀ name ∈ registrationNames c.securityProfile, ∃ s, getObjectItem json name = .ok (.string s)

theorem success_of_registrationStatus {response : HttpResponse} (hstatus : registrationStatus h response = .ok ()) :
    httpResponseGetStatus response.statusCode = .ok () ∨
      httpResponseGetStatus response.statusCode = .error .created := by
  unfold registrationStatus at hstatus
  split at hstatus
  · cases hstatus
  · exact .inr ‹_›
  · exact .inl hstatus

theorem CompleteResponses.noNullAccepted (complete : CompleteResponses c env) : NoNullAccepted c env h := by
  rintro json ⟨request, h', response, -, hsend, hstatus, hparse⟩ ⟨-, name, hname, hnull⟩
  obtain ⟨s, hs⟩ := complete request response json hsend (success_of_registrationStatus hstatus) hparse name hname
  rw [hnull] at hs
  cases hs

end MindConnect
