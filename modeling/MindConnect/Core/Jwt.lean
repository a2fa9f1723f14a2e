import MindConnect.Core.Base64
import MindConnect.Core.CoreProcessor
import MindConnect.Core.Hmac
import MindConnect.Core.JsonNumber

/-!
# The self issued token: `jwt.c`

| here | there |
| --- | --- |
| `JwtEnvironment` | what memory, the clock, the random generator and the crypto library come to |
| `createSelfIssuedJwtHeader`, `createSelfIssuedJwtPayload` | `_create_self_issued_jwt_header` (`jwt.c:152`), `_payload` (`:196`) |
| `jwtInitialize`, `jwtGetToken` | `jwt_initialize` (`:64`), `jwt_get_token` (`:90`) |
| `generateToken`, `calculateSignature`, `joinWithDot` | `_generate_token` (`:274`), `_calculate_signature` (`:358`), `_join_with_dot` (`:324`) |

The length of a null pointer and an overflow of the time have no outcome.
-/

namespace MindConnect

open JsonUtil Base64

/-! ## Names and values -/

def jwtHeaderNameAlg : CString := .lit "alg"
def jwtHeaderNameType : CString := .lit "typ"
def jwtPayloadNameIss : CString := .lit "iss"
def jwtPayloadNameSub : CString := .lit "sub"
def jwtPayloadNameAud : CString := .lit "aud"
def jwtPayloadNameIat : CString := .lit "iat"
def jwtPayloadNameNbf : CString := .lit "nbf"
def jwtPayloadNameExp : CString := .lit "exp"
def jwtPayloadNameSchemas : CString := .lit "schemas"
def jwtPayloadNameTen : CString := .lit "ten"
def jwtPayloadNameJti : CString := .lit "jti"
def jwtHeaderValueTyp : CString := .lit "JWT"
def jwtPayloadValueSchemas : CString := .lit "urn:siemens:mindsphere:v1"
def jwtPayloadValueAud : CString := .lit "southgate"

/-- `JWT_HEADER_VALUE_ALG_SHARED_SECRET`, `JWT_HEADER_VALUE_ALG_RSA_3072` -/
def jwtHeaderValueAlg : SecurityProfile → CString
  | .sharedSecret => .lit "HS256"
  | .rsa3072 => .lit "RS256"

/-- `JWT_EXPIRATION_TIME` -/
def jwtExpirationTime : Int := 86400

/-! ## The token -/

/-- The allocations whose failure is reported. -/
inductive JwtStep where
  | jwt | header | payload | schemas | schema | headerText | payloadText
  | headerEncoded | payloadEncoded | headerAndPayload | signatureEncoded | token
deriving DecidableEq, Repr

/-- `memberAdded` is whether there was memory for a member, which the JSON utility does not report. `hash` stands for
`security_hash_sha256` and `rsaSign` for `security_rsa_sign`. A `time_t` has 64 bits. -/
structure JwtEnvironment where
  allocated : JwtStep → Bool
  memberAdded : CString → Bool
  jti : Result CString
  time : Int
  time_range : -2 ^ 63 ≤ time ∧ time < 2 ^ 63
  hash : Nat → Bytes → Result Bytes
  hmacMemory : HmacMemory
  rsaSign : CString → Bytes → Result Bytes

structure Jwt where
  header : Json
  payload : Json
  securityHandler : SecurityHandler
  securityProfile : SecurityProfile
  issuedAt : Int

def JwtEnvironment.step (env : JwtEnvironment) (step : JwtStep) (code : McError) : Result Unit :=
  if env.allocated step then .ok () else .error code

/-- `json_util_add_string` on an object: a null value or missing memory leaves the member out. -/
def JwtEnvironment.addString (env : JwtEnvironment) (root : Members) (name : CString) (value : Option CString) :
    Result Members := do
  checkName root name
  match value with
  | some value => return if env.memberAdded name then root ++ [(name, .string value)] else root
  | none => return root

def createSelfIssuedJwtHeader (env : JwtEnvironment) (securityProfile : SecurityProfile) : Result Json := do
  env.step .header .outOfMemory
  let header ← env.addString [] jwtHeaderNameType (some jwtHeaderValueTyp)
  let header ← env.addString header jwtHeaderNameAlg (some (jwtHeaderValueAlg securityProfile))
  return .object header

/-- `_add_schema_to_jwt` (`jwt.c:391`). Without memory for its name the array is filled, but is no member. -/
def addSchemaToJwt (env : JwtEnvironment) (payload : Members) : Result Members := do
  checkName payload jwtPayloadNameSchemas
  env.step .schemas .outOfMemory
  env.step .schema .outOfMemory
  return if env.memberAdded jwtPayloadNameSchemas then
    payload ++ [(jwtPayloadNameSchemas, .array [.string jwtPayloadValueSchemas])] else payload

/-- `current_time + JWT_EXPIRATION_TIME` -/
def expiration (env : JwtEnvironment) : Run Int :=
  ExceptT.mk (if env.time + jwtExpirationTime < 2 ^ 63 then some (.ok (env.time + jwtExpirationTime)) else none)

def createSelfIssuedJwtPayload (env : JwtEnvironment) (securityHandler : SecurityHandler) (tenant : Option CString) :
    Run Json := do
  let jti ← Run.of env.jti
  Run.of (env.step .payload .outOfMemory)
  let payload ← Run.of (env.addString [] jwtPayloadNameIss securityHandler.clientId)
  let payload ← Run.of (env.addString payload jwtPayloadNameSub securityHandler.clientId)
  let payload ← Run.of (env.addString payload jwtPayloadNameAud (some jwtPayloadValueAud))
  let payload ← Run.of (addDouble payload jwtPayloadNameIat env.time (env.memberAdded jwtPayloadNameIat))
  let payload ← Run.of (addDouble payload jwtPayloadNameNbf env.time (env.memberAdded jwtPayloadNameNbf))
  let expiration ← expiration env
  let payload ← Run.of (addDouble payload jwtPayloadNameExp expiration (env.memberAdded jwtPayloadNameExp))
  let payload ← Run.of (addSchemaToJwt env payload)
  let payload ← Run.of (env.addString payload jwtPayloadNameTen tenant)
  let payload ← Run.of (env.addString payload jwtPayloadNameJti (some jti))
  return .object payload

def jwtInitialize (env : JwtEnvironment) (securityHandler : SecurityHandler) (securityProfile : SecurityProfile)
    (tenant : Option CString) : Run Jwt := do
  Run.of (env.step .jwt .outOfMemory)
  let header ← Run.of (createSelfIssuedJwtHeader env securityProfile)
  let payload ← createSelfIssuedJwtPayload env securityHandler tenant
  return ⟨header, payload, securityHandler, securityProfile, env.time⟩

def joinWithDot (stringA stringB : CString) (allocated : Bool) : Result CString :=
  if allocated then
    .ok ⟨stringA.bytes ++ 46 :: stringB.bytes, by
      simp only [List.mem_append, List.mem_cons, not_or]
      exact ⟨stringA.nul_free, by decide, stringB.nul_free⟩⟩
  else .error .outOfMemory

/-- The HMAC keyed with the client secret, or the RSA signature. -/
def sign (env : JwtEnvironment) (jwt : Jwt) (text : Bytes) : Run Bytes :=
  match jwt.securityProfile with
  | .sharedSecret =>
    ExceptT.mk (jwt.securityHandler.clientSecret.map fun secret => hmacSha256 env.hash env.hmacMemory text secret.bytes)
  | .rsa3072 => ExceptT.mk (jwt.securityHandler.rsa.privateKey.map fun key => env.rsaSign key text)

def calculateSignature (env : JwtEnvironment) (jwt : Jwt) (headerAndPayload : CString) : Run CString := do
  let hash ← sign env jwt headerAndPayload.bytes
  ExceptT.mk (base64UrlEncode hash (env.allocated .signatureEncoded))

def generateToken (env : JwtEnvironment) (jwt : Jwt) (header payload : CString) : Run CString := do
  let headerEncoded ← ExceptT.mk (base64UrlEncode header.bytes (env.allocated .headerEncoded))
  let payloadEncoded ← ExceptT.mk (base64UrlEncode payload.bytes (env.allocated .payloadEncoded))
  let headerAndPayload ← Run.of (joinWithDot headerEncoded payloadEncoded (env.allocated .headerAndPayload))
  let signature ← calculateSignature env jwt headerAndPayload
  Run.of (joinWithDot headerAndPayload signature (env.allocated .token))

/-- The text of a tree as a string. -/
def textOf (env : JwtEnvironment) (step : JwtStep) (json : Json) : Result CString := do
  env.step step .fail
  let text ← JsonUtil.toString json
  return CString.ofBuffer text

/-- The token, or the code for which it is null. -/
def tokenOf (env : JwtEnvironment) (jwt : Jwt) : Run CString := do
  let headerJson ← Run.of (textOf env .headerText jwt.header)
  let payloadJson ← Run.of (textOf env .payloadText jwt.payload)
  generateToken env jwt headerJson payloadJson

/-- `some none` is the null pointer. -/
def jwtGetToken (env : JwtEnvironment) (jwt : Jwt) : Option (Option CString) := (tokenOf env jwt).run.map Except.toOption

/-- `jwt_initialize` and `jwt_get_token` one after the other, as `_get_access_token_request_payload`
(`core_processor.c:1187`) calls them. -/
def issueToken (env : JwtEnvironment) (securityHandler : SecurityHandler) (securityProfile : SecurityProfile)
    (tenant : Option CString) : Option (Jwt × CString) := do
  let jwt ← (← (jwtInitialize env securityHandler securityProfile tenant).run).toOption
  let token ← (← jwtGetToken env jwt)
  return (jwt, token)

/-! ## What the trees hold -/

section
variable {env : JwtEnvironment}

/-- A name that is not there yet is added with its value. -/
theorem addString_ok (hmembers : ∀ name, env.memberAdded name = true) {root root' : Members} {name value : CString}
    (h : env.addString root name (some value) = .ok root') : root' = root ++ [(name, .string value)] := by
  obtain ⟨-, -, h⟩ := bind_eq_ok h
  simp only [hmembers, if_true] at h
  cases h
  rfl

theorem addDouble_ok (hmembers : ∀ name, env.memberAdded name = true) {root root' : Members} {name : CString} {number : Int}
    (h : addDouble root name number (env.memberAdded name) = .ok root') :
    root' = root ++ [(name, .number (printNumber (toDouble number)))] := by
  obtain ⟨-, -, h⟩ := bind_eq_ok h
  simp only [hmembers, if_true] at h
  cases h
  rfl

theorem addSchemaToJwt_ok (hmembers : ∀ name, env.memberAdded name = true) {root root' : Members}
    (h : addSchemaToJwt env root = .ok root') :
    root' = root ++ [(jwtPayloadNameSchemas, .array [.string jwtPayloadValueSchemas])] := by
  obtain ⟨-, -, h⟩ := bind_eq_ok h
  obtain ⟨-, -, h⟩ := bind_eq_ok h
  obtain ⟨-, -, h⟩ := bind_eq_ok h
  simp only [hmembers, if_true] at h
  cases h
  rfl

/-- The header with its two members. -/
def headerTree (securityProfile : SecurityProfile) : Json :=
  .object [(jwtHeaderNameType, .string jwtHeaderValueTyp), (jwtHeaderNameAlg, .string (jwtHeaderValueAlg securityProfile))]

def numberOf (n : Int) : Json := .number (printNumber (toDouble n))

def payloadMembers (clientId tenant jti : CString) (time : Int) : Members :=
  [(jwtPayloadNameIss, .string clientId), (jwtPayloadNameSub, .string clientId),
    (jwtPayloadNameAud, .string jwtPayloadValueAud), (jwtPayloadNameIat, numberOf time), (jwtPayloadNameNbf, numberOf time),
    (jwtPayloadNameExp, numberOf (time + jwtExpirationTime)),
    (jwtPayloadNameSchemas, .array [.string jwtPayloadValueSchemas]), (jwtPayloadNameTen, .string tenant),
    (jwtPayloadNameJti, .string jti)]

theorem createSelfIssuedJwtHeader_ok (hmembers : ∀ name, env.memberAdded name = true) {securityProfile : SecurityProfile}
    {header : Json} (h : createSelfIssuedJwtHeader env securityProfile = .ok header) : header = headerTree securityProfile := by
  obtain ⟨-, -, h⟩ := bind_eq_ok h
  obtain ⟨root, hroot, h⟩ := bind_eq_ok h
  obtain ⟨root', hroot', h⟩ := bind_eq_ok h
  cases h
  rw [addString_ok hmembers hroot', addString_ok hmembers hroot]
  rfl

theorem createSelfIssuedJwtPayload_ok (hmembers : ∀ name, env.memberAdded name = true) {securityHandler : SecurityHandler}
    {clientId tenant : CString} (hclient : securityHandler.clientId = some clientId) {payload : Json}
    (h : (createSelfIssuedJwtPayload env securityHandler (some tenant)).run = some (.ok payload)) :
    ∃ jti, env.jti = .ok jti ∧ payload = .object (payloadMembers clientId tenant jti env.time) := by
  obtain ⟨jti, hjti, h⟩ := Run.bind_eq_ok h
  obtain ⟨-, -, h⟩ := Run.bind_eq_ok h
  obtain ⟨p1, h1, h⟩ := Run.bind_eq_ok h
  obtain ⟨p2, h2, h⟩ := Run.bind_eq_ok h
  obtain ⟨p3, h3, h⟩ := Run.bind_eq_ok h
  obtain ⟨p4, h4, h⟩ := Run.bind_eq_ok h
  obtain ⟨p5, h5, h⟩ := Run.bind_eq_ok h
  obtain ⟨e, he, h⟩ := Run.bind_eq_ok h
  obtain ⟨p6, h6, h⟩ := Run.bind_eq_ok h
  obtain ⟨p7, h7, h⟩ := Run.bind_eq_ok h
  obtain ⟨p8, h8, h⟩ := Run.bind_eq_ok h
  obtain ⟨p9, h9, h⟩ := Run.bind_eq_ok h
  cases h
  rw [hclient] at h1 h2
  have hexp : e = env.time + jwtExpirationTime := by
    by_cases hlt : env.time + jwtExpirationTime < 2 ^ 63
    · rw [expiration, if_pos hlt] at he
      cases he
      rfl
    · rw [expiration, if_neg hlt] at he
      cases he
  refine ⟨jti, Run.of_eq_ok hjti, ?_⟩
  rw [addString_ok hmembers (Run.of_eq_ok h9), addString_ok hmembers (Run.of_eq_ok h8),
    addSchemaToJwt_ok hmembers (Run.of_eq_ok h7), addDouble_ok hmembers (Run.of_eq_ok h6), hexp,
    addDouble_ok hmembers (Run.of_eq_ok h5), addDouble_ok hmembers (Run.of_eq_ok h4),
    addString_ok hmembers (Run.of_eq_ok h3), addString_ok hmembers (Run.of_eq_ok h2), addString_ok hmembers (Run.of_eq_ok h1)]
  rfl

theorem headerTree_readable (securityProfile : SecurityProfile) : Json.Readable (headerTree securityProfile) :=
  ⟨trivial, trivial, trivial⟩

theorem payload_readable (clientId tenant jti : CString) (time : Int) :
    Json.Readable (.object (payloadMembers clientId tenant jti time)) :=
  ⟨trivial, trivial, trivial, printNumber_readable _, printNumber_readable _, printNumber_readable _,
    ⟨trivial, trivial⟩, trivial, trivial, trivial⟩

/-! ## With or without memory for the members -/

theorem addString_readable {root root' : Members} (hroot : Json.ReadableMembers root) {name : CString}
    {value : Option CString} (h : env.addString root name value = .ok root') : Json.ReadableMembers root' := by
  obtain ⟨-, -, h⟩ := bind_eq_ok h
  cases value with
  | none =>
    cases h
    exact hroot
  | some value =>
    cases hadded : env.memberAdded name with
    | false =>
      simp only [hadded, Bool.false_eq_true, if_false] at h
      cases h
      exact hroot
    | true =>
      simp only [hadded, if_true] at h
      cases h
      exact Json.readableMembers_append hroot ⟨trivial, trivial⟩

theorem addDouble_readable {root root' : Members} (hroot : Json.ReadableMembers root) {name : CString} {number : Int}
    {added : Bool} (h : addDouble root name number added = .ok root') : Json.ReadableMembers root' := by
  obtain ⟨-, -, h⟩ := bind_eq_ok h
  cases added with
  | false =>
    cases h
    exact hroot
  | true =>
    cases h
    exact Json.readableMembers_append hroot ⟨printNumber_readable _, trivial⟩

theorem addSchemaToJwt_readable {root root' : Members} (hroot : Json.ReadableMembers root)
    (h : addSchemaToJwt env root = .ok root') : Json.ReadableMembers root' := by
  obtain ⟨-, -, h⟩ := bind_eq_ok h
  obtain ⟨-, -, h⟩ := bind_eq_ok h
  obtain ⟨-, -, h⟩ := bind_eq_ok h
  cases hadded : env.memberAdded jwtPayloadNameSchemas with
  | false =>
    simp only [hadded, Bool.false_eq_true, if_false] at h
    cases h
    exact hroot
  | true =>
    simp only [hadded, if_true] at h
    cases h
    exact Json.readableMembers_append hroot ⟨⟨trivial, trivial⟩, trivial⟩

/-- Whatever members are left out, the header is an object that can be read. -/
theorem createSelfIssuedJwtHeader_readable {securityProfile : SecurityProfile} {header : Json}
    (h : createSelfIssuedJwtHeader env securityProfile = .ok header) :
    ∃ members, header = .object members ∧ Json.ReadableMembers members := by
  obtain ⟨-, -, h⟩ := bind_eq_ok h
  obtain ⟨root, hroot, h⟩ := bind_eq_ok h
  obtain ⟨root', hroot', h⟩ := bind_eq_ok h
  cases h
  have hnil : Json.ReadableMembers ([] : Members) := trivial
  exact ⟨root', rfl, addString_readable (addString_readable hnil hroot) hroot'⟩

/-- The payload too; the client and the tenant may be missing. -/
theorem createSelfIssuedJwtPayload_readable {securityHandler : SecurityHandler} {tenant : Option CString}
    {payload : Json} (h : (createSelfIssuedJwtPayload env securityHandler tenant).run = some (.ok payload)) :
    ∃ members, payload = .object members ∧ Json.ReadableMembers members := by
  obtain ⟨jti, -, h⟩ := Run.bind_eq_ok h
  obtain ⟨-, -, h⟩ := Run.bind_eq_ok h
  obtain ⟨p1, h1, h⟩ := Run.bind_eq_ok h
  obtain ⟨p2, h2, h⟩ := Run.bind_eq_ok h
  obtain ⟨p3, h3, h⟩ := Run.bind_eq_ok h
  obtain ⟨p4, h4, h⟩ := Run.bind_eq_ok h
  obtain ⟨p5, h5, h⟩ := Run.bind_eq_ok h
  obtain ⟨e, -, h⟩ := Run.bind_eq_ok h
  obtain ⟨p6, h6, h⟩ := Run.bind_eq_ok h
  obtain ⟨p7, h7, h⟩ := Run.bind_eq_ok h
  obtain ⟨p8, h8, h⟩ := Run.bind_eq_ok h
  obtain ⟨p9, h9, h⟩ := Run.bind_eq_ok h
  cases h
  have hnil : Json.ReadableMembers ([] : Members) := trivial
  have hr3 := addString_readable (addString_readable (addString_readable hnil (Run.of_eq_ok h1)) (Run.of_eq_ok h2))
    (Run.of_eq_ok h3)
  have hr6 := addDouble_readable (addDouble_readable (addDouble_readable hr3 (Run.of_eq_ok h4)) (Run.of_eq_ok h5))
    (Run.of_eq_ok h6)
  have hr7 := addSchemaToJwt_readable hr6 (Run.of_eq_ok h7)
  exact ⟨p9, rfl, addString_readable (addString_readable hr7 (Run.of_eq_ok h8)) (Run.of_eq_ok h9)⟩

/-! ## What a token is made of -/

theorem base64UrlEncode_ok {data : Bytes} {allocated : Bool} {text : CString}
    (h : base64UrlEncode data allocated = some (.ok text)) : text = encoded urlTable data := by
  cases allocated with
  | false => cases h
  | true =>
    rw [base64UrlEncode, encodeWithTable_eq] at h
    cases h
    rfl

theorem joinWithDot_ok {a b joined : CString} {allocated : Bool} (h : joinWithDot a b allocated = .ok joined) :
    joined.bytes = a.bytes ++ 46 :: b.bytes := by
  cases allocated with
  | false => cases h
  | true =>
    cases h
    rfl

theorem textOf_ok {step : JwtStep} {json : Json} (hreadable : Json.Readable json) {text : CString}
    (h : textOf env step json = .ok text) : text.bytes = json.print := by
  obtain ⟨-, -, h⟩ := bind_eq_ok h
  obtain ⟨printed, hprinted, h⟩ := bind_eq_ok h
  cases h
  rw [(toString_eq_ok.1 hprinted).2]
  exact CString.ofBuffer_bytes (Json.zero_not_mem_print json hreadable)

/-- The signature of a text under the profile's algorithm, with `H` for SHA-256. -/
def SignatureOf (env : JwtEnvironment) (H : Bytes → Bytes) (securityHandler : SecurityHandler)
    (text signature : Bytes) : SecurityProfile → Prop
  | .sharedSecret => ∃ secret, securityHandler.clientSecret = some secret ∧
      signature = Hmac.hmac H hmacMaximumKeySize secret.bytes text
  | .rsa3072 => ∃ key, securityHandler.rsa.privateKey = some key ∧ env.rsaSign key text = .ok signature

/-- The hash function is `H` wherever it succeeds, no RSA signature is empty. -/
structure JwtEnvironment.Crypto (env : JwtEnvironment) (H : Bytes → Bytes) : Prop where
  hash : ∀ i text digest, env.hash i text = .ok digest → digest = H text
  sign : ∀ key text signature, env.rsaSign key text = .ok signature → signature ≠ []

theorem sign_ok {H : Bytes → Bytes} (hcrypto : env.Crypto H) {jwt : Jwt} {text signature : Bytes}
    (h : (sign env jwt text).run = some (.ok signature)) :
    SignatureOf env H jwt.securityHandler text signature jwt.securityProfile ∧ signature ≠ [] := by
  unfold sign at h
  cases hprofile : jwt.securityProfile with
  | sharedSecret =>
    rw [hprofile] at h
    obtain ⟨secret, hsecret, hsign⟩ := Option.map_eq_some_iff.1 h
    obtain ⟨rfl, hlen⟩ := hmacSha256_ok hcrypto.hash hsign
    refine ⟨⟨secret, hsecret, rfl⟩, fun hnil => ?_⟩
    rw [hnil] at hlen
    cases hlen
  | rsa3072 =>
    rw [hprofile] at h
    obtain ⟨key, hkey, hsign⟩ := Option.map_eq_some_iff.1 h
    exact ⟨⟨key, hkey, hsign⟩, hcrypto.sign _ _ _ hsign⟩

/-- Decoding the text gives the data and its size. -/
def DecodesTo (text : CString) (data : Bytes) : Prop :=
  (base64UrlDecode text true).run = some (.ok (data ++ [0], data.length))

theorem decodesTo_encoded {data : Bytes} (h : data ≠ []) : DecodesTo (encoded urlTable data) data := by
  rw [DecodesTo, base64UrlDecode, decodeWithTable_encoded h]
  rfl

/-- Three segments, and what they decode to. -/
structure Segments (env : JwtEnvironment) (H : Bytes → Bytes) (jwt : Jwt) (token : CString) : Prop where
  intro ::
  parts : ∃ (header payload signature : CString) (hash : Bytes),
    token.bytes = header.bytes ++ 46 :: payload.bytes ++ 46 :: signature.bytes ∧
    46 ∉ header.bytes ∧ 46 ∉ payload.bytes ∧ 46 ∉ signature.bytes ∧
    DecodesTo header jwt.header.print ∧ DecodesTo payload jwt.payload.print ∧ DecodesTo signature hash ∧
    SignatureOf env H jwt.securityHandler (header.bytes ++ 46 :: payload.bytes) hash jwt.securityProfile

theorem print_ne_nil {members : Members} : Json.print (.object members) ≠ [] := by
  rw [Json.print]
  exact List.cons_ne_nil _ _

theorem no_dot_encoded (data : Bytes) : 46 ∉ (encoded urlTable data).bytes := not_mem_encodeGroups data List.mem_cons_self

theorem jwtGetToken_segments {H : Bytes → Bytes} (hcrypto : env.Crypto H) {jwt : Jwt} {header payload : Members}
    (hheader : jwt.header = .object header) (hpayload : jwt.payload = .object payload)
    (hreadable : Json.Readable jwt.header ∧ Json.Readable jwt.payload) {token : CString}
    (h : jwtGetToken env jwt = some (some token)) : Segments env H jwt token := by
  obtain ⟨r, hr, htoken⟩ := Option.map_eq_some_iff.1 h
  obtain ⟨rfl⟩ : r = .ok token := by
    cases r with
    | error e => cases htoken
    | ok t => rw [Option.some.inj htoken]
  obtain ⟨headerJson, hheaderJson, hr⟩ := Run.bind_eq_ok hr
  obtain ⟨payloadJson, hpayloadJson, hr⟩ := Run.bind_eq_ok hr
  obtain ⟨headerEncoded, hheaderEncoded, hr⟩ := Run.bind_eq_ok hr
  obtain ⟨payloadEncoded, hpayloadEncoded, hr⟩ := Run.bind_eq_ok hr
  obtain ⟨headerAndPayload, hjoin, hr⟩ := Run.bind_eq_ok hr
  obtain ⟨signatureEncoded, hsignature, hr⟩ := Run.bind_eq_ok hr
  obtain ⟨hash, hsign, hsignatureEncoded⟩ := Run.bind_eq_ok hsignature
  have hheaderText := textOf_ok hreadable.1 (Run.of_eq_ok hheaderJson)
  have hpayloadText := textOf_ok hreadable.2 (Run.of_eq_ok hpayloadJson)
  have hjoined := joinWithDot_ok (Run.of_eq_ok hjoin)
  have htext := joinWithDot_ok (Run.of_eq_ok hr)
  obtain rfl := base64UrlEncode_ok hheaderEncoded
  obtain rfl := base64UrlEncode_ok hpayloadEncoded
  obtain rfl := base64UrlEncode_ok hsignatureEncoded
  obtain ⟨hsignatureOf, hne⟩ := sign_ok hcrypto hsign
  rw [hheaderText, hpayloadText] at hjoined
  rw [hjoined] at htext hsignatureOf
  exact ⟨encoded urlTable jwt.header.print, encoded urlTable jwt.payload.print, encoded urlTable hash, hash, htext,
    no_dot_encoded _, no_dot_encoded _, no_dot_encoded _, decodesTo_encoded (hheader ▸ print_ne_nil),
    decodesTo_encoded (hpayload ▸ print_ne_nil), decodesTo_encoded hne, hsignatureOf⟩

theorem Segments.count_dot {H : Bytes → Bytes} {jwt : Jwt} {token : CString} (h : Segments env H jwt token) :
    token.bytes.count 46 = 2 := by
  obtain ⟨header, payload, signature, hash, htext, hheader, hpayload, hsignature, -⟩ := h
  simp only [htext, List.count_append, List.count_cons_self, List.count_eq_zero_of_not_mem hheader,
    List.count_eq_zero_of_not_mem hpayload, List.count_eq_zero_of_not_mem hsignature]

/-- What the header says when it is read. -/
def NamesAlgorithm (header : Bytes) (securityProfile : SecurityProfile) : Prop :=
  ∃ members, Json.read header = some (.object members) ∧
    Json.lookup jwtHeaderNameAlg members = some (.string (jwtHeaderValueAlg securityProfile))

/-- What the payload says when it is read: the times are the doubles of the time and of its sum with the lifetime, as
they are printed. -/
structure Claims (payload : Bytes) (clientId tenant : CString) (time : Int) : Prop where
  intro ::
  parts : ∃ members iat exp, Json.read payload = some (.object members) ∧
    Json.lookup jwtPayloadNameIss members = some (.string clientId) ∧
    Json.lookup jwtPayloadNameSub members = some (.string clientId) ∧
    Json.lookup jwtPayloadNameTen members = some (.string tenant) ∧
    Json.lookup jwtPayloadNameIat members = some (.number iat) ∧
    Json.lookup jwtPayloadNameNbf members = some (.number iat) ∧
    Json.lookup jwtPayloadNameExp members = some (.number exp) ∧
    iat = printNumber (toDouble time) ∧ exp = printNumber (toDouble (time + jwtExpirationTime)) ∧
    (time.natAbs < 10 ^ 15 → (time + jwtExpirationTime).natAbs < 10 ^ 15 →
      Json.numberValue iat = time ∧ Json.numberValue exp = Json.numberValue iat + jwtExpirationTime)

theorem claims_payload (clientId tenant jti : CString) (time : Int) :
    Claims (Json.object (payloadMembers clientId tenant jti time)).print clientId tenant time := by
  refine ⟨payloadMembers clientId tenant jti time, printNumber (toDouble time),
    printNumber (toDouble (time + jwtExpirationTime)), Json.read_print (payload_readable clientId tenant jti time), rfl, rfl,
    rfl, rfl, rfl, rfl, rfl, rfl, fun htime hexp => ?_⟩
  rw [numberValue_printNumber htime, numberValue_printNumber hexp]
  exact ⟨rfl, Int.cast_add _ _⟩

theorem issueToken_ok {securityHandler : SecurityHandler} {securityProfile : SecurityProfile} {tenant : Option CString}
    {jwt : Jwt} {token : CString} (h : issueToken env securityHandler securityProfile tenant = some (jwt, token)) :
    (jwtInitialize env securityHandler securityProfile tenant).run = some (.ok jwt) ∧
      jwtGetToken env jwt = some (some token) := by
  obtain ⟨r, hr, h⟩ := Option.bind_eq_some_iff.1 h
  obtain ⟨jwt', hjwt, h⟩ := Option.bind_eq_some_iff.1 h
  obtain ⟨t, ht, h⟩ := Option.bind_eq_some_iff.1 h
  obtain ⟨token', rfl, h⟩ := Option.bind_eq_some_iff.1 h
  cases h
  cases r with
  | error e => cases hjwt
  | ok j =>
    obtain rfl := Option.some.inj hjwt
    exact ⟨hr, ht⟩

/-- Every token has three segments that decode to its header, its payload and the signature of what is in front of the
second dot. With memory for the members the header names the algorithm, and the payload says who, for whom and when. -/
theorem issueToken_structure {H : Bytes → Bytes} (hcrypto : env.Crypto H) {securityHandler : SecurityHandler}
    {clientId tenant : CString} (hclient : securityHandler.clientId = some clientId) {securityProfile : SecurityProfile}
    {jwt : Jwt} {token : CString} (h : issueToken env securityHandler securityProfile (some tenant) = some (jwt, token)) :
    token.bytes.count 46 = 2 ∧ Segments env H jwt token ∧ jwt.securityHandler = securityHandler ∧
      jwt.securityProfile = securityProfile ∧
      ((∀ name, env.memberAdded name = true) →
        NamesAlgorithm jwt.header.print securityProfile ∧ Claims jwt.payload.print clientId tenant env.time) := by
  obtain ⟨hjwt, htoken⟩ := issueToken_ok h
  obtain ⟨-, -, hjwt⟩ := Run.bind_eq_ok hjwt
  obtain ⟨header, hheader, hjwt⟩ := Run.bind_eq_ok hjwt
  obtain ⟨payload, hpayload, hjwt⟩ := Run.bind_eq_ok hjwt
  cases hjwt
  obtain ⟨headerMembers, rfl, hheaderReadable⟩ := createSelfIssuedJwtHeader_readable (Run.of_eq_ok hheader)
  obtain ⟨members, rfl, hreadable⟩ := createSelfIssuedJwtPayload_readable hpayload
  have hreadables : Json.Readable (.object headerMembers) ∧ Json.Readable (.object members) :=
    ⟨hheaderReadable, hreadable⟩
  have hsegments := jwtGetToken_segments hcrypto rfl rfl hreadables htoken
  refine ⟨hsegments.count_dot, hsegments, rfl, rfl, fun hmembers => ?_⟩
  have hheaderTree := createSelfIssuedJwtHeader_ok hmembers (Run.of_eq_ok hheader)
  obtain ⟨jti, -, hpayloadTree⟩ := createSelfIssuedJwtPayload_ok hmembers hclient hpayload
  simp only [hheaderTree, hpayloadTree]
  exact ⟨⟨_, Json.read_print (headerTree_readable securityProfile), rfl⟩, claims_payload clientId tenant jti env.time⟩

end

/-- A shared secret, all memory except for the members not in `memberAdded`, and a hash function of zeros. -/
def sampleEnvironment (time : Int) (time_range : -2 ^ 63 ≤ time ∧ time < 2 ^ 63) (memberAdded : CString → Bool) :
    JwtEnvironment :=
  ⟨fun _ => true, memberAdded, .ok (.lit "0"), time, time_range, fun _ _ => .ok (List.replicate 32 0), ⟨true, true⟩,
    fun _ _ => .ok [1]⟩

def sampleSecurityHandler : SecurityHandler :=
  ⟨some (.lit "id"), some (.lit "secret"), none, none, ⟨none, none⟩, none, none⟩

theorem sampleEnvironment_crypto (time : Int) (time_range : -2 ^ 63 ≤ time ∧ time < 2 ^ 63) (memberAdded : CString → Bool) :
    (sampleEnvironment time time_range memberAdded).Crypto fun _ => List.replicate 32 0 := by
  refine ⟨fun i text digest h => ?_, fun key text signature h => ?_⟩
  · cases h
    rfl
  · cases h
    exact List.cons_ne_nil _ _

def usualEnvironment : JwtEnvironment := sampleEnvironment 1700000000 (by decide) fun _ => true

set_option maxRecDepth 2000 in
theorem usualEnvironment_token : ∃ jwt token,
    issueToken usualEnvironment sampleSecurityHandler .sharedSecret (some (.lit "t")) = some (jwt, token) ∧
      token.bytes.count 46 = 2 ∧ Segments usualEnvironment (fun _ => List.replicate 32 0) jwt token ∧
      jwt.securityHandler = sampleSecurityHandler ∧ jwt.securityProfile = .sharedSecret ∧
      NamesAlgorithm jwt.header.print .sharedSecret ∧ Claims jwt.payload.print (.lit "id") (.lit "t") 1700000000 := by
  have hissued : (issueToken usualEnvironment sampleSecurityHandler .sharedSecret (some (.lit "t"))).isSome = true := by
    decide
  obtain ⟨⟨jwt, token⟩, h⟩ := Option.isSome_iff_exists.1 hissued
  obtain ⟨hcount, hsegments, hhandler, hprofile, hclaims⟩ := issueToken_structure (sampleEnvironment_crypto _ _ _) rfl h
  exact ⟨jwt, token, h, hcount, hsegments, hhandler, hprofile, hclaims fun _ => rfl⟩

/-- The number of a member of the payload, as it is read. -/
def payloadNumber (jwt : Jwt) (name : CString) : Option ℚ :=
  match Json.read jwt.payload.print with
  | some (.object members) =>
    match Json.lookup name members with
    | some (.number text) => some (Json.numberValue text)
    | _ => none
  | _ => none

/-- The sixtieth power of two is a double, but 86400 more is not. -/
def lateEnvironment : JwtEnvironment := sampleEnvironment (2 ^ 60) (by decide) fun _ => true

theorem lateEnvironment_lifetime : ∃ jwt token iat exp,
    issueToken lateEnvironment sampleSecurityHandler .sharedSecret (some (.lit "t")) = some (jwt, token) ∧
      payloadNumber jwt jwtPayloadNameIat = some iat ∧ payloadNumber jwt jwtPayloadNameExp = some exp ∧
      exp ≠ iat + jwtExpirationTime := by
  have hissued : (issueToken lateEnvironment sampleSecurityHandler .sharedSecret (some (.lit "t"))).map (fun issued =>
      (payloadNumber issued.1 jwtPayloadNameIat, payloadNumber issued.1 jwtPayloadNameExp)) =
      some (some 1152921504606847000, some 1152921504606933500) := by decide +kernel
  obtain ⟨⟨jwt, token⟩, h, hnumbers⟩ := Option.map_eq_some_iff.1 hissued
  obtain ⟨hiat, hexp⟩ := Prod.mk.inj hnumbers
  exact ⟨jwt, token, _, _, h, hiat, hexp, by decide +kernel⟩

/-- Whether the payload has a member when it is read. -/
def payloadHas (jwt : Jwt) (name : CString) : Bool :=
  match Json.read jwt.payload.print with
  | some (.object members) => (Json.lookup name members).isSome
  | _ => false

/-- There is no memory for the issuer. -/
def tightEnvironment : JwtEnvironment := sampleEnvironment 1700000000 (by decide) fun name => name ≠ jwtPayloadNameIss

set_option maxRecDepth 1000 in
theorem tightEnvironment_noIssuer : ∃ jwt token,
    issueToken tightEnvironment sampleSecurityHandler .sharedSecret (some (.lit "t")) = some (jwt, token) ∧
      payloadHas jwt jwtPayloadNameIss = false := by
  have hissued : (issueToken tightEnvironment sampleSecurityHandler .sharedSecret (some (.lit "t"))).map (fun issued =>
      payloadHas issued.1 jwtPayloadNameIss) = some false := by decide
  obtain ⟨⟨jwt, token⟩, h, hhas⟩ := Option.map_eq_some_iff.1 hissued
  exact ⟨jwt, token, h, hhas⟩

/-- A token whose times differ by another number than the lifetime, and one without an issuer. -/
theorem issueToken_exceptions :
    (∃ jwt token iat exp,
      issueToken lateEnvironment sampleSecurityHandler .sharedSecret (some (.lit "t")) = some (jwt, token) ∧
        payloadNumber jwt jwtPayloadNameIat = some iat ∧ payloadNumber jwt jwtPayloadNameExp = some exp ∧
        exp ≠ iat + jwtExpirationTime) ∧
      ∃ jwt token, issueToken tightEnvironment sampleSecurityHandler .sharedSecret (some (.lit "t")) = some (jwt, token) ∧
        payloadHas jwt jwtPayloadNameIss = false :=
  ⟨lateEnvironment_lifetime, tightEnvironment_noIssuer⟩

end MindConnect
