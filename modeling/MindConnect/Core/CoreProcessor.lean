import MindConnect.Core.JsonUtil

/-!
# The core processor: registration, stored credentials, access token

| here | there |
| --- | --- |
| `SecurityHandler` | `security_handler_t` (`security_handler.h`) |
| `Environment` | what memory, the crypto library, the HTTP client, cJSON and the callbacks come to in one call |
| `initializeSecurityHandler` | `core_processor_initialize` (`core_processor.c:125`), the credentials |
| `composePayload`, `prepareRegistration`, `register` | `core_processor_register` (`core_processor.c:252`) |
| `processRegistrationResponse` | `_process_registration_response` (`:415`), with the two profiles (`:780`, `:865`) |
| `updateCredentials` | `core_processor_update_credentials` (`:480`) |
| `getAccessToken` | `core_processor_get_access_token` (`:622`) |

The length of a null pointer has no value: such a call is `none`.
-/

namespace MindConnect

open JsonUtil

inductive SecurityProfile where
  | sharedSecret | rsa3072
deriving DecidableEq, Repr

/-- `rsa_t` -/
structure Rsa where
  publicKey : Option CString
  privateKey : Option CString
deriving DecidableEq, Repr

structure SecurityHandler where
  clientId : Option CString
  clientSecret : Option CString
  registrationAccessToken : Option CString
  registrationUri : Option CString
  rsa : Rsa
  accessToken : Option CString
  lastTokenTime : Option CString
deriving DecidableEq, Repr

/-- `callbacksAreUsed`: both the callback that loads credentials and the one that saves them are set;
`criticalSectionCallbacksAreUsed` likewise for entering and leaving. -/
structure CoreConfiguration where
  securityProfile : SecurityProfile
  initialAccessToken : Option CString
  registerEndpoint : CString
  tokenEndpoint : CString
  callbacksAreUsed : Bool
  criticalSectionCallbacksAreUsed : Bool

inductive HttpMethod where
  | post | put
deriving DecidableEq, Repr

structure HttpRequest where
  method : HttpMethod
  uri : CString
  payload : Bytes
  header : List (CString × Bytes)

/-- `serverTime` is what `mcl_http_response_get_header` copies from the header of that name, if it does. -/
structure HttpResponse where
  statusCode : Nat
  payload : Option Bytes
  serverTime : Option CString

/-- The steps of a call that memory or a library alone decides. -/
inductive Step where
  | payload | jsonRoot | jwks | keys | key | payloadText | authHeader
  | request | method | url | body | bodySize | contentType | accept | authorization
  | correlationId | correlationIdHeader
deriving DecidableEq, Repr

/-- What a load callback hands over with `MCL_OK`. The strings of the other profile stay null. -/
structure LoadedCredentials where
  clientId : CString
  clientSecret : CString
  publicKey : CString
  privateKey : CString
  registrationAccessToken : CString
  registrationUri : CString
deriving DecidableEq, Repr

/-- `memberAdded` is whether there was memory for a member of the payload, which `json_util_add_string`
does not report; `stringCopied` whether there was memory for a string of the response. -/
structure Environment where
  step : Step → Result Unit
  memberAdded : CString → Bool
  stringCopied : CString → Bool
  generateRsaKey : Result (CString × CString)
  modulusAndExponent : CString → Result (CString × CString)
  guid : Result CString
  randomBytes : Result Bytes
  send : HttpRequest → Result HttpResponse
  parse : Bytes → Option Json
  save : SecurityHandler → Result Unit
  load : Result LoadedCredentials
  enter : Result Unit
  accessTokenPayload : Result Bytes

/-! ## Names and texts -/

def jsonNameClientId : CString := .lit "client_id"
def jsonNameClientSecret : CString := .lit "client_secret"
def jsonNameRegistrationAccessToken : CString := .lit "registration_access_token"
def jsonNameRegistrationClientUri : CString := .lit "registration_client_uri"
def jsonNameJwks : CString := .lit "jwks"
def jsonNameKeys : CString := .lit "keys"
def jsonNameE : CString := .lit "e"
def jsonNameN : CString := .lit "n"
def jsonNameKty : CString := .lit "kty"
def jsonNameKid : CString := .lit "kid"
def jsonNameAccessToken : CString := .lit "access_token"

def httpHeaderContentType : CString := .lit "Content-Type"
def httpHeaderAccept : CString := .lit "Accept"
def httpHeaderAuthorization : CString := .lit "Authorization"
def httpHeaderCorrelationId : CString := .lit "Correlation-ID"

def contentTypeValueApplicationJson : Bytes := ascii "application/json"
def contentTypeValueUrlEncoded : Bytes := ascii "application/x-www-form-urlencoded"

/-- `_bearer_format` -/
def bearerFormat (token : CString) : Bytes := ascii "Bearer " ++ token.bytes

/-- `_client_id_format` -/
def clientIdFormat (clientId : CString) : Bytes :=
  ascii "\x7b\"client_id\":\"" ++ clientId.bytes ++ ascii "\"\x7d"

/-! ## Initialization -/

def emptySecurityHandler : SecurityHandler := ⟨none, none, none, none, ⟨none, none⟩, none, none⟩

/-- `_load_initial_credentials` (`core_processor.c:224`) -/
def loadInitialCredentials (c : CoreConfiguration) (env : Environment) : Result SecurityHandler :=
  match c.initialAccessToken, c.securityProfile with
  | none, _ => .error .noAccessTokenProvided
  | some _, .sharedSecret => .ok emptySecurityHandler
  | some _, .rsa3072 => env.generateRsaKey.map fun (publicKey, privateKey) =>
    { emptySecurityHandler with rsa := ⟨some publicKey, some privateKey⟩ }

/-- `_custom_load_register_info` (`core_processor.c:1087`) -/
def customLoadRegisterInfo (c : CoreConfiguration) (env : Environment) : Result SecurityHandler :=
  env.load.map fun loaded =>
    match c.securityProfile with
    | .sharedSecret => { emptySecurityHandler with
        clientId := some loaded.clientId
        clientSecret := some loaded.clientSecret
        registrationAccessToken := some loaded.registrationAccessToken
        registrationUri := some loaded.registrationUri }
    | .rsa3072 => { emptySecurityHandler with
        clientId := some loaded.clientId
        rsa := ⟨some loaded.publicKey, some loaded.privateKey⟩
        registrationAccessToken := some loaded.registrationAccessToken
        registrationUri := some loaded.registrationUri }

def initializeSecurityHandler (c : CoreConfiguration) (env : Environment) : Result SecurityHandler :=
  if c.callbacksAreUsed then
    match customLoadRegisterInfo c env with
    | .error .credentialsNotLoaded => loadInitialCredentials c env
    | r => r
  else loadInitialCredentials c env

/-! ## The payload of a registration -/

/-- `json_util_add_string`: without memory, or for a null value, the member is missing afterwards. -/
def addStringIfMemory (env : Environment) (root : Members) (name : CString) (value : Option CString) :
    Result Members := do
  checkName root name
  match value with
  | some value => return if env.memberAdded name then root ++ [(name, .string value)] else root
  | none => return root

/-- Without memory for its name the child is filled, but it is no member of the object. -/
def startChildIfMemory (env : Environment) (root : Members) (name : CString) (content : Result Json) :
    Result Members := do
  checkName root name
  let child ← content
  return if env.memberAdded name then root ++ [(name, child)] else root

/-- `_add_jwks` (`core_processor.c:1008`), for a public key that is not null -/
def addJwks (env : Environment) (publicKey : CString) (root : Members) : Result Members := do
  let (modulus, publicExponent) ← env.modulusAndExponent publicKey
  startChildIfMemory env root jsonNameJwks do
    env.step .jwks
    let jwks ← startChildIfMemory env [] jsonNameKeys do
      env.step .keys
      env.step .key
      let key ← addStringIfMemory env [] jsonNameE (some publicExponent)
      let key ← addStringIfMemory env key jsonNameN (some modulus)
      let key ← addStringIfMemory env key jsonNameKty (some (.lit "RSA"))
      let kid ← env.guid
      let key ← addStringIfMemory env key jsonNameKid (some kid)
      return .array [.object key]
    return .object jwks

/-- `_compose_rsa_onboarding_json` (`core_processor.c:936`) -/
def composeRsaOnboardingJson (env : Environment) (h : SecurityHandler) : Option (Result Bytes) :=
  match env.step .jsonRoot, h.rsa.publicKey with
  | .error e, _ => some (.error e)
  | .ok (), none => none
  | .ok (), some publicKey => some do
    let root ← addJwks env publicKey []
    env.step .payloadText
    toString (.object root)

/-- The keys that `security_handler_generate_rsa_key` leaves where both were null. -/
def generatedKeys (env : Environment) : Rsa :=
  match env.generateRsaKey with
  | .ok (publicKey, privateKey) => ⟨some publicKey, some privateKey⟩
  | .error _ => ⟨none, none⟩

/-- `_compose_rsa_key_rotation_json` (`core_processor.c:966`): the old keys are gone in any case. -/
def composeRsaKeyRotationJson (env : Environment) (h : SecurityHandler) : Result Bytes × SecurityHandler :=
  (do
    let (publicKey, _) ← env.generateRsaKey
    env.step .jsonRoot
    let root ← addStringIfMemory env [] jsonNameClientId h.clientId
    let root ← addJwks env publicKey root
    env.step .payloadText
    toString (.object root), { h with rsa := generatedKeys env })

def composePayload (c : CoreConfiguration) (env : Environment) (h : SecurityHandler) :
    Option (Result Bytes × SecurityHandler) :=
  match h.registrationAccessToken, c.securityProfile with
  | none, .sharedSecret => some (env.step .payload |>.map fun _ => ascii "\x7b\x7d", h)
  | none, .rsa3072 => (composeRsaOnboardingJson env h).map fun payload => (payload, h)
  | some _, .sharedSecret =>
    h.clientId.map fun clientId => (env.step .payload |>.map fun _ => clientIdFormat clientId, h)
  | some _, .rsa3072 => some (composeRsaKeyRotationJson env h)

/-! ## Registration -/

/-- `_generate_correlation_id_string` (`core_processor.c:1115`) -/
def generateCorrelationIdString (env : Environment) : Result Bytes := do
  let randomBytes ← env.randomBytes
  env.step .correlationId
  return randomBytes.flatMap fun b => [Json.hexDigit (b / 16), Json.hexDigit (b % 16)]

/-- `token_for_auth` -/
def tokenForAuth (c : CoreConfiguration) (h : SecurityHandler) : Option CString :=
  h.registrationAccessToken.or c.initialAccessToken

/-- The method and the address; a registration may have left no address. -/
def registrationTarget (c : CoreConfiguration) (h : SecurityHandler) : HttpMethod × Option CString :=
  match h.registrationAccessToken with
  | none => (.post, some c.registerEndpoint)
  | some _ => (.put, h.registrationUri)

/-- The request as `mcl_http_request_set_parameter` and `_add_header` build it. -/
def registrationRequest (env : Environment) (target : HttpMethod × Option CString) (token : CString)
    (payload : Bytes) : Result HttpRequest := do
  env.step .authHeader
  env.step .request
  env.step .method
  let uri ← match target.2 with
    | some uri => pure uri
    | none => .error .triggeredWithNull
  env.step .url
  env.step .body
  env.step .bodySize
  env.step .contentType
  env.step .accept
  env.step .authorization
  let correlationId ← generateCorrelationIdString env
  env.step .correlationIdHeader
  return {
    method := target.1
    uri
    payload
    header := [(httpHeaderContentType, contentTypeValueApplicationJson),
      (httpHeaderAccept, contentTypeValueApplicationJson), (httpHeaderAuthorization, bearerFormat token),
      (httpHeaderCorrelationId, correlationId)] }

/-- `core_processor_register` up to the call of `mcl_http_client_send`. -/
def prepareRegistration (c : CoreConfiguration) (env : Environment) (h : SecurityHandler) :
    Option (Result HttpRequest × SecurityHandler) :=
  match composePayload c env h with
  | none => none
  | some (.error e, h') => some (.error e, h')
  | some (.ok payload, h') =>
    (tokenForAuth c h).map fun token => (registrationRequest env (registrationTarget c h) token payload, h')

/-- The code for the HTTP status: an onboarding is answered with 201, a key rotation with 200. -/
def registrationStatus (h : SecurityHandler) (response : HttpResponse) : Result Unit :=
  match h.registrationAccessToken, httpResponseGetStatus response.statusCode with
  | none, .ok () => .error .unexpectedResultCode
  | none, .error .created => .ok ()
  | _, serverResponse => serverResponse

/-- `json_util_parse`; nothing parses without a payload. -/
def parsePayload (env : Environment) (response : HttpResponse) : Result Json :=
  match response.payload.bind env.parse with
  | some json => .ok json
  | none => .error .fail

/-- `_process_registration_response_shared_secret` (`core_processor.c:780`) -/
def processRegistrationResponseSharedSecret (env : Environment) (response : HttpResponse)
    (h : SecurityHandler) : Result SecurityHandler := do
  let jsonRoot ← parsePayload env response
  let clientId ← getObjectItem jsonRoot jsonNameClientId
  let clientSecret ← getObjectItem jsonRoot jsonNameClientSecret
  let registrationAccessToken ← getObjectItem jsonRoot jsonNameRegistrationAccessToken
  let registrationClientUri ← getObjectItem jsonRoot jsonNameRegistrationClientUri
  let clientId ← getString clientId (env.stringCopied jsonNameClientId)
  let clientSecret ← getString clientSecret (env.stringCopied jsonNameClientSecret)
  let registrationAccessToken ←
    getString registrationAccessToken (env.stringCopied jsonNameRegistrationAccessToken)
  let registrationUri ← getString registrationClientUri (env.stringCopied jsonNameRegistrationClientUri)
  return { h with clientId, clientSecret, registrationAccessToken, registrationUri }

/-- `_process_registration_response_rsa_3072` (`core_processor.c:865`) -/
def processRegistrationResponseRsa3072 (env : Environment) (response : HttpResponse) (h : SecurityHandler) :
    Result SecurityHandler := do
  let jsonRoot ← parsePayload env response
  let clientId ← getObjectItem jsonRoot jsonNameClientId
  let registrationAccessToken ← getObjectItem jsonRoot jsonNameRegistrationAccessToken
  let registrationClientUri ← getObjectItem jsonRoot jsonNameRegistrationClientUri
  let clientId ← getString clientId (env.stringCopied jsonNameClientId)
  let registrationAccessToken ←
    getString registrationAccessToken (env.stringCopied jsonNameRegistrationAccessToken)
  let registrationUri ← getString registrationClientUri (env.stringCopied jsonNameRegistrationClientUri)
  return { h with clientId, registrationAccessToken, registrationUri }

/-- `_save_credentials` (`core_processor.c:1150`) -/
def saveCredentials (c : CoreConfiguration) (env : Environment) (h : SecurityHandler) : Result Unit :=
  if c.callbacksAreUsed then env.save h else .ok ()

def processRegistrationResponse (c : CoreConfiguration) (env : Environment) (response : HttpResponse)
    (h : SecurityHandler) : Result Unit × SecurityHandler :=
  match registrationStatus h response with
  | .error e => (.error e, h)
  | .ok () =>
    let processed := match c.securityProfile with
      | .sharedSecret => processRegistrationResponseSharedSecret env response h
      | .rsa3072 => processRegistrationResponseRsa3072 env response h
    match processed with
    | .error e => (.error e, h)
    | .ok h' => (saveCredentials c env h', h')

def register (c : CoreConfiguration) (env : Environment) (h : SecurityHandler) :
    Option (Result Unit × SecurityHandler) :=
  match prepareRegistration c env h with
  | none => none
  | some (.error e, h') => some (.error e, h')
  | some (.ok request, h') =>
    match env.send request with
    | .error e => some (.error e, h')
    | .ok response => some (processRegistrationResponse c env response h')

/-! ## Stored credentials -/

/-- `string_util_strncmp`; neither string goes on behind its NUL. -/
def stringUtilStrncmp (string1 string2 : CString) (count : Nat) : Result Unit :=
  if string1.bytes.take count = string2.bytes.take count then .ok () else .error .fail

/-- Equal lengths first, then the bytes: the comparison of all four places. -/
def compareStrings (loaded current : CString) : Result Unit :=
  if loaded.length = current.length then stringUtilStrncmp loaded current current.length
  else .error .fail

/-- `_check_client_secret` (`core_processor.c:573`) -/
def checkClientSecret (h : SecurityHandler) (registrationAccessToken clientSecret : CString) :
    Option (Result Unit) := do
  let current ← h.clientSecret
  match compareStrings clientSecret current with
  | .error e => return .error e
  | .ok () => h.registrationAccessToken.map (compareStrings registrationAccessToken)

/-- `_check_rsa_private_key` (`core_processor.c:604`) -/
def checkRsaPrivateKey (h : SecurityHandler) (privateKey : CString) : Option (Result Unit) :=
  h.rsa.privateKey.map (compareStrings privateKey)

/-- `MCL_OK` if the handler has what was loaded, as far as it is compared -/
def checkLoaded (c : CoreConfiguration) (loaded : LoadedCredentials) (h : SecurityHandler) :
    Option (Result Unit) :=
  match c.securityProfile with
  | .sharedSecret => checkClientSecret h loaded.registrationAccessToken loaded.clientSecret
  | .rsa3072 => checkRsaPrivateKey h loaded.privateKey

/-- The handler takes over what was loaded; the strings of the other profile become null. -/
def adopt (c : CoreConfiguration) (loaded : LoadedCredentials) (h : SecurityHandler) : SecurityHandler :=
  match c.securityProfile with
  | .sharedSecret => { h with
      registrationAccessToken := some loaded.registrationAccessToken
      clientSecret := some loaded.clientSecret
      rsa := ⟨none, none⟩ }
  | .rsa3072 => { h with
      registrationAccessToken := some loaded.registrationAccessToken
      clientSecret := none
      rsa := ⟨some loaded.publicKey, some loaded.privateKey⟩ }

def updateCredentials (c : CoreConfiguration) (env : Environment) (h : SecurityHandler) :
    Option (Result Unit × SecurityHandler) :=
  if c.callbacksAreUsed = false then some (.error .fail, h)
  else
    match env.load with
    | .error e => some (.error e, h)
    | .ok loaded => do
      let clientId ← h.clientId
      match compareStrings loaded.clientId clientId with
      | .error e => return (.error e, h)
      | .ok () =>
        let checked ← checkLoaded c loaded h
        match checked with
        | .ok () => return (.error .credentialsUpToDate, h)
        | .error _ => return (.ok (), adopt c loaded h)

/-! ## Access token -/

def accessTokenRequest (c : CoreConfiguration) (env : Environment) : Result HttpRequest := do
  let payload ← env.accessTokenPayload
  env.step .request
  env.step .method
  env.step .url
  env.step .contentType
  let correlationId ← generateCorrelationIdString env
  env.step .correlationIdHeader
  env.step .body
  env.step .bodySize
  return {
    method := .post
    uri := c.tokenEndpoint
    payload
    header := [(httpHeaderContentType, contentTypeValueUrlEncoded), (httpHeaderCorrelationId, correlationId)] }

/-- The old token is given up whatever comes of the request. -/
def getAccessToken (c : CoreConfiguration) (env : Environment) (h : SecurityHandler) :
    Result Unit × SecurityHandler :=
  match accessTokenRequest c env >>= env.send with
  | .error e => (.error e, { h with accessToken := none })
  | .ok response =>
    let h := { h with lastTokenTime := response.serverTime.or h.lastTokenTime }
    let accessToken : Result (Option CString) := do
      httpResponseGetStatus response.statusCode
      let json ← parsePayload env response
      let accessToken ← getObjectItem json jsonNameAccessToken
      getString accessToken (env.stringCopied jsonNameAccessToken)
    match accessToken with
    | .error e => (.error e, { h with accessToken := none })
    | .ok accessToken => (.ok (), { h with accessToken })

end MindConnect
