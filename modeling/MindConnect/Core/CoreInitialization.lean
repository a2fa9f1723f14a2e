import MindConnect.Core.CoreProcessor
import MindConnect.Core.HttpClientObjects

/-!
# The objects of a core that is initialized

| here | there |
| --- | --- |
| `Configuration` | `core_configuration_t` (`core_configuration.h`), as far as it is read here; an endpoint is the pointer that is there before |
| `coreConfigurationValidate` | `core_configuration_validate` (`core_configuration.c:196`) |
| `securityHandlerInitialize`, `securityHandlerDestroy` | the same functions (`security_handler.c:18`, `:177`) |
| `libcryptoGenerateRsaKey`, `getRsaKey` | `security_generate_rsa_key`, `_get_rsa_private_key`, `_get_rsa_public_key` (`security_libcrypto.c:122`, `:254`, `:293`) |
| `loadInitialCredentials`, `customLoadRegisterInfo` | `_load_initial_credentials` (`core_processor.c:224`), `_custom_load_register_info` (`:1087`) |
| `coreProcessorInitialize`, `coreProcessorDestroy` | the same functions (`:125`, `:752`) |
| `mclCoreInitialize`, `mclCoreDestroy` | the same functions (`core.c:17`, `:358`) |
| `CoreOutcomes` | what memory, the libraries and the load callback come to in one call |

The strings that the load callback hands over count as created by the call. It has to leave nothing if it answers that
there is nothing to load (`mcl_core_common.h:173`); beyond that any of its parameters may be left null.
-/

namespace MindConnect.Initialization

open Lifetime

/-! ## The configuration -/

/-- `callbacksAreUsed`: both the callback that loads credentials and the one that saves them are set. -/
structure Configuration where
  mindsphereHostname : Option CString
  proxyPassword : Option CString
  userAgent : Option CString
  tenant : Option CString
  initialAccessToken : Option CString
  securityProfile : SecurityProfile
  callbacksAreUsed : Bool
  httpClient : HttpClientConfiguration
  registerEndpoint : Option Nat
  tokenEndpoint : Option Nat

def stringUtilStrnlen (s : CString) (maximumLength : Nat) : Nat := min s.length maximumLength

def maximumHostNameLength : Nat := 256
def maximumProxyUserNameLength : Nat := 32
def maximumProxyPasswordLength : Nat := 32
def maximumProxyDomainLength : Nat := 256
def maximumUserAgentLength : Nat := 512

/-- There, not empty and not too long. -/
def validateLength (s : Option CString) (maximum : Nat) : Result Unit :=
  match s with
  | none => .error .invalidParameter
  | some s =>
    if 0 < stringUtilStrnlen s (maximum + 1) ∧ stringUtilStrnlen s (maximum + 1) ≤ maximum then .ok ()
    else .error .invalidParameter

/-- What belongs to the proxy is looked at only if there is one. -/
def coreConfigurationValidate (c : Configuration) : Result Unit := do
  validateLength c.mindsphereHostname maximumHostNameLength
  if c.httpClient.proxyHostname.isSome then
    validateLength c.httpClient.proxyHostname maximumHostNameLength
    if c.httpClient.proxyUsername.isSome then
      validateLength c.httpClient.proxyUsername maximumProxyUserNameLength
      validateLength c.proxyPassword maximumProxyPasswordLength
      if c.httpClient.proxyDomain.isSome then
        validateLength c.httpClient.proxyDomain maximumProxyDomainLength
  validateLength c.userAgent maximumUserAgentLength
  if c.tenant.isNone then throw .invalidParameter

/-! ## The security handler -/

/-- All strings are null at first. -/
def securityHandlerInitialize (succeeds : Bool) : InitializeStep :=
  sequence [
    mclNew .securityHandler succeeds,
    .does (access .securityHandler),
    .does (inOrder ([Location.privateKey, .publicKey, .lastTokenTime, .accessToken, .registrationAccessToken, .clientSecret,
      .registrationUri, .clientId].map fun l s => s.set l .null))]

/-- In the order in which they are freed. -/
def handlerStrings : List Location :=
  [.accessToken, .registrationAccessToken, .registrationUri, .clientId, .lastTokenTime, .clientSecret, .privateKey,
    .publicKey]

/-- The strings, then the handler. -/
def securityHandlerDestroy : Variables → Variables :=
  whenSet .securityHandler (inOrder [
    access .securityHandler, inOrder (handlerStrings.map fun l s => s.free l), release .securityHandler])

/-! ## Keys -/

/-- One key as text: the buffer, the key written to it, memory for the text, and the text read from the buffer. -/
structure PemOutcomes where
  bio : Bool
  written : Bool
  text : Bool
  read : Bool

structure LibcryptoOutcomes where
  rsa : Bool
  exponent : Bool
  generated : Bool
  privateKey : PemOutcomes
  publicKey : PemOutcomes

def unlessFailed (succeeds : Bool) : Result Unit := if succeeds then .ok () else .error .fail

/-- The last step is `BIO_read`, behind which a text that is not complete is freed. -/
def getRsaKey (l : Location) (o : PemOutcomes) : InitializeStep :=
  sequence [
    mclNew .bio o.bio,
    (sequence [
      .does (access .bio), .outcome (unlessFailed o.written),
      mclNew l o.text,
      (Step.outcome (unlessFailed o.read)).onFailure (release l)]).always (release .bio)]

/-- The keys are freed if one of them fails, and the structure of OpenSSL is freed in any case. -/
def libcryptoGenerateRsaKey (o : LibcryptoOutcomes) : InitializeStep :=
  sequence [
    mclNew .rsa o.rsa,
    (mclNew .exponent o.exponent).onFailure (release .rsa),
    .does (access .exponent), .does (access .rsa), .does (release .exponent),
    ((sequence [
      .outcome (unlessFailed o.generated), getRsaKey .privateKey o.privateKey,
      getRsaKey .publicKey o.publicKey]).onFailure (inOrder [release .privateKey, release .publicKey])).always
        (release .rsa)]

/-- The crypto library that is built in; with mbed TLS there are no keys. -/
inductive KeyGeneration where
  | mbedtls
  | libcrypto (o : LibcryptoOutcomes)

def securityHandlerGenerateRsaKey : KeyGeneration → InitializeStep
  | .mbedtls => .outcome (.error .fail)
  | .libcrypto o => libcryptoGenerateRsaKey o

/-! ## Credentials -/

/-- The code of the callback, and which of its parameters it leaves allocated. -/
structure LoadCallback where
  code : Result Unit
  allocates : Location → Bool
  leaves_nothing : code = .error .credentialsNotLoaded → ∀ l, allocates l = false

def LoadCallback.notLoaded (load : LoadCallback) : Bool :=
  match load.code with
  | .error .credentialsNotLoaded => true
  | _ => false

/-- The parameters of the callback. -/
def loadParameters : SecurityProfile → List Location
  | .sharedSecret => [.clientId, .clientSecret, .registrationAccessToken, .registrationUri]
  | .rsa3072 => [.clientId, .publicKey, .privateKey, .registrationAccessToken, .registrationUri]

/-- The strings are created by the callback, whatever its code. -/
def customLoadRegisterInfo (profile : SecurityProfile) (load : LoadCallback) : InitializeStep :=
  sequence [
    sequence ((loadParameters profile).map fun l => .provided (load.allocates l) (mclNew l true)),
    .outcome load.code]

structure CoreOutcomes where
  core : Bool
  security : Result Unit
  coreProcessor : Bool
  httpClient : HttpClientOutcomes
  securityHandler : Bool
  load : LoadCallback
  keys : KeyGeneration
  registerEndpoint : Bool
  tokenEndpoint : Bool

/-- With a shared secret the initial access token is enough; with RSA there have to be keys. -/
def loadInitialCredentials (c : Configuration) (o : CoreOutcomes) : InitializeStep :=
  match c.initialAccessToken, c.securityProfile with
  | none, _ => .outcome (.error .noAccessTokenProvided)
  | some _, .sharedSecret => .outcome (.ok ())
  | some _, .rsa3072 => securityHandlerGenerateRsaKey o.keys

/-! ## The core -/

/-- The client, the handler and the endpoints, then the processor. -/
def coreProcessorDestroy (o : CoreOutcomes) : Variables → Variables :=
  whenSet .coreProcessor (inOrder [
    access .coreProcessor,
    mclHttpClientDestroy o.httpClient,
    securityHandlerDestroy,
    access .coreProcessor,
    release .tokenEndpoint, release .registerEndpoint,
    release .coreProcessor])

/-- The branches on the callbacks (`core_processor.c:184` to `:207`); the processor is destroyed in the last. -/
def loadCredentials (c : Configuration) (o : CoreOutcomes) : InitializeStep :=
  if c.callbacksAreUsed then
    if o.load.notLoaded then
      sequence [.does (customLoadRegisterInfo c.securityProfile o.load).run, loadInitialCredentials c o]
    else (customLoadRegisterInfo c.securityProfile o.load).onFailure (coreProcessorDestroy o)
  else loadInitialCredentials c o

/-- Every failure behind the allocation destroys the processor. -/
def coreProcessorInitialize (c : Configuration) (o : CoreOutcomes) : InitializeStep :=
  sequence [
    .outcome o.security,
    mclNew .coreProcessor o.coreProcessor,
    .does (access .coreProcessor), .does (setNull .httpClient), .does (setNull .securityHandler),
    (mclHttpClientInitialize c.httpClient o.httpClient).onFailure (coreProcessorDestroy o),
    (securityHandlerInitialize o.securityHandler).onFailure (coreProcessorDestroy o),
    (sequence [
      loadCredentials c o,
      .does (access .coreProcessor), mclNew .registerEndpoint o.registerEndpoint,
      .does (access .coreProcessor), mclNew .tokenEndpoint o.tokenEndpoint]).onFailure (coreProcessorDestroy o)]

def mclCoreDestroy (o : CoreOutcomes) : Variables → Variables :=
  whenSet .core (inOrder [access .core, coreProcessorDestroy o, release .core])

/-- `core` is only null or not. -/
def mclCoreInitialize (configuration : Option Configuration) (core : Bool) (o : CoreOutcomes) : InitializeStep :=
  match configuration, core with
  | some c, true =>
    sequence [
      .outcome (coreConfigurationValidate c),
      mclNew .core o.core,
      .does (access .core),
      (coreProcessorInitialize c o).onFailure (mclCoreDestroy o)]
  | _, _ => .outcome (.error .triggeredWithNull)

/-! ## Where it can fail -/

def PemOutcomes.points (o : PemOutcomes) : List (Result Unit) :=
  [memory o.bio, unlessFailed o.written, memory o.text, unlessFailed o.read]

def KeyGeneration.points : KeyGeneration → List (Result Unit)
  | mbedtls => [.error .fail]
  | libcrypto o =>
    [memory o.rsa, memory o.exponent, unlessFailed o.generated, firstFailure o.privateKey.points,
      firstFailure o.publicKey.points]

def initialCredentialsPoints (c : Configuration) (o : CoreOutcomes) : List (Result Unit) :=
  match c.initialAccessToken, c.securityProfile with
  | none, _ => [.error .noAccessTokenProvided]
  | some _, .sharedSecret => []
  | some _, .rsa3072 => o.keys.points

/-- The load callback, or what is done where it has nothing to load. -/
def credentialsPoints (c : Configuration) (o : CoreOutcomes) : List (Result Unit) :=
  if c.callbacksAreUsed && !o.load.notLoaded then [o.load.code] else initialCredentialsPoints c o

/-- From the HTTP client to the credentials. -/
def processorPoints (c : Configuration) (o : CoreOutcomes) : List (Result Unit) :=
  [firstFailure (o.httpClient.points c.httpClient), memory o.securityHandler, firstFailure (credentialsPoints c o)]

/-- The outcomes in the order in which they are asked for. -/
def corePoints (configuration : Option Configuration) (core : Bool) (o : CoreOutcomes) : List (Result Unit) :=
  match configuration, core with
  | some c, true =>
    [coreConfigurationValidate c, memory o.core, o.security, memory o.coreProcessor, firstFailure (processorPoints c o),
      memory o.registerEndpoint, memory o.tokenEndpoint]
  | _, _ => [.error .triggeredWithNull]

/-! ## What the calls come to -/

def handlerRegion : List Location := .securityHandler :: handlerStrings

/-- Before a handler is made, and behind its destruction. -/
@[mk_iff]
structure HandlerAbsent (σ : Location → Slot) : Prop where
  handler : σ .securityHandler = .null
  vacant : Vacant handlerRegion σ

/-- Its strings may be null or its own. -/
structure HandlerPresent (σ : Location → Slot) : Prop where
  handler : (σ .securityHandler).IsObject
  strings : ∀ l ∈ handlerStrings, (σ l).IsOwn

def HandlerReady (σ : Location → Slot) : Prop := HandlerAbsent σ ∨ HandlerPresent σ

/-- The strings are null. -/
structure HandlerFresh (σ : Location → Slot) : Prop where
  handler : (σ .securityHandler).IsObject
  strings : ∀ l ∈ handlerStrings, σ l = .null

theorem HandlerFresh.present {σ : Location → Slot} (h : HandlerFresh σ) : HandlerPresent σ :=
  ⟨h.handler, fun l hl => .inl (h.strings l hl)⟩

theorem HandlerReady.congr {σ σ' : Location → Slot} (h : ∀ l ∈ handlerRegion, σ' l = σ l) (hready : HandlerReady σ) :
    HandlerReady σ' := by
  have hhandler : σ' .securityHandler = σ .securityHandler := h _ (by decide)
  rcases hready with ⟨hnull, hvacant⟩ | ⟨hobject, hstrings⟩
  · exact .inl ⟨hhandler.trans hnull, hvacant.congr h⟩
  · refine .inr ⟨by rwa [hhandler], fun l hl => ?_⟩
    rw [h l (List.mem_cons_of_mem _ hl)]
    exact hstrings l hl

def keyLocals : List Location := [.rsa, .exponent, .bio]

def endpoints : List Location := [.registerEndpoint, .tokenEndpoint]

def processorRegion : List Location := .coreProcessor :: (clientRegion ++ handlerRegion ++ keyLocals ++ endpoints)

/-- What a core processor is made of, there or not; nothing of the endpoints, which belong to the configuration. -/
structure ProcessorParts (o : CoreOutcomes) (σ : Location → Slot) : Prop where
  processor : (σ .coreProcessor).IsObject
  client : HttpClientReady o.httpClient σ
  handler : HandlerReady σ
  locals : Vacant keyLocals σ

end MindConnect.Initialization
