import MindConnect.Core.Core
import MindConnect.Lib.JsonLiteral

/-!
# The payload of a key rotation

The two security profiles compose the same member in two ways: with a format, and with the JSON builder.

| here | there |
| --- | --- |
| `clientIdFormat` | `_client_id_format` (`core_processor.c:49`), the shared secret profile (`:301`) |
| `composeRsaKeyRotationJson` | `_compose_rsa_key_rotation_json` (`:966`), the RSA profile (`:317`) |
| `NamesClient` | what the server has to find in either |
-/

namespace MindConnect

open JsonUtil
open Json (Plain Readable ReadableMembers readableMembers_append)

variable {env : Environment} {root root' : Members} {name : CString}

/-- The text is an object whose client id is this one. -/
def NamesClient (payload : Bytes) (clientId : CString) : Prop :=
  ∃ members, Json.read payload = some (.object members) ∧
    Json.lookup jsonNameClientId members = some (.string clientId)

/-! ## The builder's payload -/

/-- What one addition appends: at most one member, of this name and readable. -/
def Adds (root root' : Members) (name : CString) : Prop :=
  ∃ own, root' = root ++ own ∧ ReadableMembers own ∧ ∀ m ∈ own, m.1 = name

theorem Adds.readable (h : Adds root root' name) (hroot : ReadableMembers root) : ReadableMembers root' := by
  obtain ⟨own, rfl, hown, -⟩ := h
  exact readableMembers_append hroot hown

theorem adds_ite (added : Bool) {child : Json} (h : Readable child) :
    Adds root (if added then root ++ [(name, child)] else root) name := by
  cases added with
  | false => exact ⟨[], by simp, trivial, by simp⟩
  | true => exact ⟨[(name, child)], rfl, ⟨h, trivial⟩, by simp⟩

theorem addStringIfMemory_adds {value : Option CString} (h : addStringIfMemory env root name value = .ok root') :
    Adds root root' name := by
  obtain ⟨-, -, h⟩ := bind_eq_ok h
  cases value with
  | none =>
    obtain rfl := Except.ok.inj h
    exact ⟨[], by simp, trivial, by simp⟩
  | some value =>
    obtain rfl := Except.ok.inj h
    exact adds_ite _ (show Readable (.string value) from trivial)

theorem startChildIfMemory_adds {content : Result Json} (h : startChildIfMemory env root name content = .ok root')
    (hcontent : ∀ child, content = .ok child → Readable child) : Adds root root' name := by
  obtain ⟨-, -, h⟩ := bind_eq_ok h
  obtain ⟨child, hchild, h⟩ := bind_eq_ok h
  obtain rfl := Except.ok.inj h
  exact adds_ite _ (hcontent child hchild)

theorem addJwks_adds {publicKey : CString} (h : addJwks env publicKey root = .ok root') :
    Adds root root' jsonNameJwks := by
  obtain ⟨⟨modulus, exponent⟩, -, h⟩ := bind_eq_ok h
  refine startChildIfMemory_adds h fun jwks hjwks => ?_
  obtain ⟨-, -, hjwks⟩ := bind_eq_ok hjwks
  obtain ⟨members, hkeys, hjwks⟩ := bind_eq_ok hjwks
  obtain rfl := Except.ok.inj hjwks
  refine (startChildIfMemory_adds hkeys fun keys hkeys => ?_).readable trivial
  obtain ⟨-, -, hkeys⟩ := bind_eq_ok hkeys
  obtain ⟨-, -, hkeys⟩ := bind_eq_ok hkeys
  obtain ⟨key₁, he, hkeys⟩ := bind_eq_ok hkeys
  obtain ⟨key₂, hn, hkeys⟩ := bind_eq_ok hkeys
  obtain ⟨key₃, hkty, hkeys⟩ := bind_eq_ok hkeys
  obtain ⟨kid, -, hkeys⟩ := bind_eq_ok hkeys
  obtain ⟨key₄, hkid, hkeys⟩ := bind_eq_ok hkeys
  obtain rfl := Except.ok.inj hkeys
  have h₁ := (addStringIfMemory_adds he).readable trivial
  have h₂ := (addStringIfMemory_adds hn).readable h₁
  have h₃ := (addStringIfMemory_adds hkty).readable h₂
  exact ⟨(addStringIfMemory_adds hkid).readable h₃, trivial⟩

/-- The text that the builder composes, with the client id or without. -/
theorem composeRsaKeyRotationJson_eq {h : SecurityHandler} {clientId : CString} (hclient : h.clientId = some clientId)
    {payload : Bytes} (hpayload : (composeRsaKeyRotationJson env h).1 = .ok payload) :
    ∃ own, ReadableMembers own ∧ (∀ m ∈ own, m.1 = jsonNameJwks) ∧
      payload = (Json.object ((if env.memberAdded jsonNameClientId then [(jsonNameClientId, .string clientId)]
        else []) ++ own)).print := by
  obtain ⟨⟨publicKey, privateKey⟩, -, hpayload⟩ := bind_eq_ok hpayload
  obtain ⟨-, -, hpayload⟩ := bind_eq_ok hpayload
  obtain ⟨root, hroot, hpayload⟩ := bind_eq_ok hpayload
  obtain ⟨root', hjwks, hpayload⟩ := bind_eq_ok hpayload
  obtain ⟨-, -, hpayload⟩ := bind_eq_ok hpayload
  obtain ⟨own, rfl, hreadable, hnames⟩ := addJwks_adds hjwks
  refine ⟨own, hreadable, hnames, ?_⟩
  rw [hclient] at hroot
  obtain rfl := Except.ok.inj hroot
  exact (toString_eq_ok.1 hpayload).2

theorem builder_namesClient_iff {h : SecurityHandler} {clientId : CString} (hclient : h.clientId = some clientId)
    {payload : Bytes} (hpayload : (composeRsaKeyRotationJson env h).1 = .ok payload) :
    NamesClient payload clientId ↔ env.memberAdded jsonNameClientId = true := by
  obtain ⟨own, hreadable, hnames, rfl⟩ := composeRsaKeyRotationJson_eq hclient hpayload
  have hnone : Json.lookup jsonNameClientId own = none := by
    refine Json.lookup_eq_none fun m hm => ?_
    rw [hnames m hm]
    decide
  cases env.memberAdded jsonNameClientId with
  | true =>
    simp only [if_true, iff_true]
    have hclient : ReadableMembers [(jsonNameClientId, .string clientId)] := ⟨trivial, trivial⟩
    refine ⟨_, Json.read_print ?_, ?_⟩
    · exact readableMembers_append hclient hreadable
    · rw [List.singleton_append, Json.lookup_cons, if_pos (by decide)]
  | false =>
    simp only [Bool.false_eq_true, if_false, iff_false, List.nil_append]
    rintro ⟨members, hread, hlookup⟩
    rw [Json.read_print (show Readable (.object own) from hreadable)] at hread
    obtain rfl := Json.object.inj (Option.some.inj hread)
    rw [hnone] at hlookup
    cases hlookup

/-! ## The format's payload -/

theorem clientIdFormat_eq (clientId : CString) : clientIdFormat clientId =
    123 :: 34 :: (jsonNameClientId.bytes ++ 34 :: 58 :: 34 :: (clientId.bytes ++ 34 :: [125])) := by
  simp only [clientIdFormat, List.append_assoc]
  rfl

theorem format_namesClient_iff (clientId : CString) : NamesClient (clientIdFormat clientId) clientId ↔
    Plain clientId.bytes := by
  constructor
  · rintro ⟨members, hread, hlookup⟩
    obtain ⟨rest, hvalue, -⟩ := Json.read_eq_some hread
    rw [clientIdFormat_eq] at hvalue
    obtain ⟨fuel, ms, heq, hmembers⟩ := Json.readValue_object hvalue
    obtain rfl := Json.object.inj heq
    obtain ⟨fuel', value, others, s₁, more, s₂, rfl, hstring, -⟩ := Json.readMembers_cons (by decide) hmembers
    rw [Json.lookup_cons, if_pos (by decide)] at hlookup
    obtain rfl := Option.some.inj hlookup
    obtain ⟨text, heq, hstring⟩ := Json.readValue_string hstring
    obtain rfl := Json.string.inj heq
    exact ((Json.readString_raw_iff _ _ _).1 hstring).1
  · intro hplain
    have hname : Json.printString jsonNameClientId = 34 :: jsonNameClientId.bytes ++ [34] :=
      Json.Plain.printString (by decide)
    have hprint : clientIdFormat clientId = (Json.object [(jsonNameClientId, .string clientId)]).print := by
      rw [clientIdFormat_eq]
      simp only [Json.print, Json.printMembers, hname, hplain.printString, List.append_assoc, List.cons_append]
      rfl
    refine ⟨_, by rw [hprint]; exact Json.read_print ⟨trivial, trivial⟩, ?_⟩
    rw [Json.lookup_cons, if_pos (by decide)]

/-! ## Both profiles -/

/-- The payloads that a handler composes for a rotation, one for each profile. -/
structure RotationPayloads (env₁ env₂ : Environment) (h : SecurityHandler) (formatted built : Bytes) : Prop where
  rotation : ∃ token, h.registrationAccessToken = some token
  formatted : ∃ c h', c.securityProfile = .sharedSecret ∧ composePayload c env₁ h = some (.ok formatted, h')
  built : ∃ c h', c.securityProfile = .rsa3072 ∧ composePayload c env₂ h = some (.ok built, h')

/-- **The two encoders agree on plain client ids**, and where the builder has memory for the member. -/
theorem rotationPayloads_nameClient_iff {env₁ env₂ : Environment} {h : SecurityHandler} {clientId : CString}
    (hclient : h.clientId = some clientId) {formatted built : Bytes}
    (hpayloads : RotationPayloads env₁ env₂ h formatted built) :
    NamesClient formatted clientId ∧ NamesClient built clientId ↔
      Plain clientId.bytes ∧ env₂.memberAdded jsonNameClientId = true := by
  obtain ⟨⟨token, htoken⟩, ⟨c₁, h₁, hprofile₁, hformatted⟩, c₂, h₂, hprofile₂, hbuilt⟩ := hpayloads
  simp only [composePayload, htoken, hprofile₁, hclient, Option.map_some, Option.some.injEq,
    Prod.mk.injEq] at hformatted
  simp only [composePayload, htoken, hprofile₂, Option.some.injEq] at hbuilt
  rw [builder_namesClient_iff hclient (congrArg Prod.fst hbuilt), ← format_namesClient_iff]
  obtain ⟨hformatted, -⟩ := hformatted
  cases hstep : env₁.step .payload with
  | error e =>
    rw [hstep] at hformatted
    cases hformatted
  | ok u =>
    rw [hstep] at hformatted
    obtain rfl := Except.ok.inj hformatted
    rfl

/-! ## Two handlers -/

def rotatingHandler (clientId : CString) : SecurityHandler := { rsaHandler with clientId := some clientId }

theorem rotatingHandler_payloads {clientId : CString} {built : Bytes}
    (hbuilt : (composeRsaKeyRotationJson offlineEnvironment (rotatingHandler clientId)).1 = .ok built) :
    RotationPayloads offlineEnvironment offlineEnvironment (rotatingHandler clientId) (clientIdFormat clientId)
      built where
  rotation := ⟨_, rfl⟩
  formatted := ⟨sharedSecretConfiguration, _, rfl, rfl⟩
  built := ⟨rsaConfiguration, _, rfl, congrArg some (Prod.ext hbuilt rfl)⟩

def builtText (clientIdText : Bytes) : Bytes :=
  ascii "\x7b\"client_id\":\"" ++ clientIdText ++
    ascii "\",\"jwks\":\x7b\"keys\":[\x7b\"e\":\"AQAB\",\"n\":\"modulus\",\"kty\":\"RSA\"," ++
    ascii "\"kid\":\"00000000-0000-4000-8000-000000000000\"\x7d]\x7d\x7d"

set_option maxRecDepth 1000 in
theorem rotatingHandler_nameClient :
    NamesClient (clientIdFormat (.lit "agent")) (.lit "agent") ∧ NamesClient (builtText (ascii "agent")) (.lit "agent") :=
  (rotationPayloads_nameClient_iff (h := rotatingHandler (.lit "agent")) rfl
    (rotatingHandler_payloads (by decide))).2 ⟨by decide, rfl⟩

set_option maxRecDepth 1000 in
/-- A client id with a quote: the builder escapes it, the format does not. -/
theorem quotedClientId_not_agree :
    ∃ built, RotationPayloads offlineEnvironment offlineEnvironment (rotatingHandler (.lit "a\"b"))
        (clientIdFormat (.lit "a\"b")) built ∧
      NamesClient built (.lit "a\"b") ∧ ¬ NamesClient (clientIdFormat (.lit "a\"b")) (.lit "a\"b") ∧
      Json.read (clientIdFormat (.lit "a\"b")) = none := by
  have hbuilt : (composeRsaKeyRotationJson offlineEnvironment (rotatingHandler (.lit "a\"b"))).1 =
      .ok (builtText (ascii "a\\\"b")) := by decide
  refine ⟨_, rotatingHandler_payloads hbuilt, (builder_namesClient_iff rfl hbuilt).2 rfl, ?_, by decide +kernel⟩
  rw [format_namesClient_iff]
  decide

end MindConnect
