import MindConnect.Core.StringUtil
import MindConnect.Lib.Holding
import Mathlib.Tactic.MkIffOfInductiveProp

/-!
# The objects of an HTTP client

There are two HTTP clients, of which one is built in: over a TLS socket (`http_client/basic`) and over libcurl
(`http_client/curl`).

| here | there |
| --- | --- |
| `Location` | the variables and fields that hold the objects of a call that initializes something |
| `access` | what goes on behind a pointer: a field of its object is read or written, or a library gets the object |
| `mclNew`, `release` | `MCL_NEW` and `MCL_MALLOC`; `MCL_FREE` |
| `mclTlsCaChainInit`, `mclTlsCaChainDestroy` | the same functions (`tls_socket_mbedtls.c:99`, `:165`) |
| `basicInitialize`, `basicDestroy` | `mcl_http_client_initialize`, `mcl_http_client_destroy` (`http_client_basic.c:59`, `:239`) |
| `libcurlInitialize`, `libcurlAddCertificate`, `libcurlDestroy` | the same functions of `http_client_libcurl.c` (`:70`, `:219`, `:356`) |
| `BasicOutcomes`, `LibcurlOutcomes` | what memory, mbed TLS and libcurl come to in one call |

The pointers that a client is given are not null. The item of a certificate and its node in the list are one variable
each: a client that is being initialized gets one certificate at most.
-/

namespace MindConnect.Initialization

open Lifetime

inductive Location where
  | core | coreProcessor
  | httpClient | certificateChain | certificates | certificateNode | certificateItem | certificateContent | curl
  | proxyUsername
  | securityHandler | accessToken | registrationAccessToken | registrationUri | clientId | lastTokenTime | clientSecret
  | privateKey | publicKey
  | rsa | exponent | bio
  | registerEndpoint | tokenEndpoint
  | connectivity | dataLake | processorAccessToken
deriving DecidableEq, Repr

abbrev Variables := State Location Unit

abbrev InitializeStep := Step Location Unit McError

/-- What the location holds is recorded; that it is an object is to be proved. -/
def access (l : Location) (s : Variables) : Variables := s.apply () l

def release (l : Location) (s : Variables) : Variables := s.free l

def setNull (l : Location) (s : Variables) : Variables := s.set l .null

/-- Without memory the location is null and the code is `MCL_OUT_OF_MEMORY`. -/
def mclNew (l : Location) (succeeds : Bool) : InitializeStep := .allocate l succeeds .outOfMemory

/-- `mcl_http_client_configuration_t` -/
structure HttpClientConfiguration where
  certificate : Option CString
  proxyHostname : Option CString
  proxyUsername : Option CString
  proxyDomain : Option CString

/-- What an allocation comes to. -/
def memory (succeeds : Bool) : Result Unit := if succeeds then .ok () else .error .outOfMemory

/-! ## The client over a TLS socket -/

/-- What `mcl_tls_ca_chain_add_certificate` comes to: mbed TLS, or that it reads no files. -/
inductive CertificateParsing where
  | parsed | allocFailed | improper | noFiles
deriving DecidableEq, Repr

def CertificateParsing.code : CertificateParsing → Result Unit
  | parsed => .ok ()
  | allocFailed => .error .outOfMemory
  | improper => .error .improperCertificate
  | noFiles => .error .operationNotSupported

structure BasicOutcomes where
  client : Bool
  chain : Bool
  certificate : CertificateParsing

def mclTlsCaChainInit (succeeds : Bool) : InitializeStep :=
  sequence [mclNew .certificateChain succeeds, .does (access .certificateChain)]

/-- Nothing, if there is no chain. -/
def mclTlsCaChainDestroy : Variables → Variables :=
  whenSet .certificateChain (inOrder [access .certificateChain, release .certificateChain])

/-- The chain goes with the client. -/
def basicDestroy : Variables → Variables :=
  whenSet .httpClient (inOrder [access .httpClient, mclTlsCaChainDestroy, release .httpClient])

/-- This client knows no proxy. What has been made is destroyed on every failure. -/
def basicInitialize (configuration : HttpClientConfiguration) (o : BasicOutcomes) : InitializeStep :=
  (sequence [
    .does (setNull .httpClient),
    .outcome (if configuration.proxyHostname.isSome then .error .invalidParameter else .ok ()),
    mclNew .httpClient o.client,
    .does (access .httpClient),
    mclTlsCaChainInit o.chain,
    .provided configuration.certificate.isSome
      (sequence [.does (access .certificateChain), .outcome o.certificate.code])]).onFailure basicDestroy

/-! ## The client over libcurl -/

structure CertificateOutcomes where
  item : Bool
  content : Bool
  /-- The list of the client has room. -/
  room : Bool
  node : Bool

/-- One outcome for each thing that can fail, in the order of the code. -/
structure LibcurlOutcomes where
  client : Bool
  certificates : Bool
  curl : Bool
  certificate : CertificateOutcomes
  proxyUsername : Bool

/-- `_certificate_list_destroy_callback` -/
def certificateListDestroyCallback : Variables → Variables :=
  whenSet .certificateItem (inOrder [access .certificateItem, release .certificateContent, release .certificateItem])

/-- `mcl_list_destroy_with_content` of the certificates. -/
def certificatesDestroy : Variables → Variables :=
  whenSet .certificates (inOrder [
    access .certificates,
    whenSet .certificateNode (inOrder [
      access .certificateNode, certificateListDestroyCallback, release .certificateNode]),
    release .certificates])

def libcurlDestroy : Variables → Variables :=
  whenSet .httpClient (inOrder [
    access .httpClient, whenSet .curl (release .curl), certificatesDestroy, release .httpClient])

/-- A certificate that does not get into the list is destroyed by the callback of the list. -/
def libcurlAddCertificate (o : CertificateOutcomes) : InitializeStep :=
  (sequence [
    .does (setNull .certificateItem),
    mclNew .certificateItem o.item,
    .does (access .certificateItem),
    mclNew .certificateContent o.content,
    .outcome (if o.room then .ok () else .error .limitExceeded),
    mclNew .certificateNode o.node,
    .does (access .certificateNode)]).onFailure certificateListDestroyCallback

/-- The user name with its domain, which libcurl copies. -/
def setProxyUsername (succeeds : Bool) : InitializeStep :=
  sequence [mclNew .proxyUsername succeeds, .does (access .curl), .does (release .proxyUsername)]

/-- The certificate comes before the proxy, and `curl` is freed with the rest. -/
def libcurlInitialize (configuration : HttpClientConfiguration) (o : LibcurlOutcomes) : InitializeStep :=
  sequence [
    .does (setNull .httpClient),
    mclNew .httpClient o.client,
    (sequence [
      .does (access .httpClient), .does (setNull .certificates), .does (setNull .curl),
      mclNew .certificates o.certificates, .does (access .certificates), .does (setNull .certificateNode),
      .allocate .curl o.curl .fail, .does (access .curl),
      .provided configuration.certificate.isSome (libcurlAddCertificate o.certificate),
      .provided configuration.proxyHostname.isSome ((Step.provided
        (configuration.proxyUsername.isSome && configuration.proxyDomain.isSome)
        (setProxyUsername o.proxyUsername)).always (access .curl))]).onFailure libcurlDestroy]

/-! ## Either -/

/-- The client that is built in. -/
inductive HttpClientOutcomes where
  | basic (o : BasicOutcomes)
  | libcurl (o : LibcurlOutcomes)

def mclHttpClientInitialize (configuration : HttpClientConfiguration) : HttpClientOutcomes → InitializeStep
  | .basic o => basicInitialize configuration o
  | .libcurl o => libcurlInitialize configuration o

def mclHttpClientDestroy : HttpClientOutcomes → Variables → Variables
  | .basic _ => basicDestroy
  | .libcurl _ => libcurlDestroy

/-! ## Where it can fail -/

/-- The outcomes in the order in which they are asked for. -/
def basicPoints (configuration : HttpClientConfiguration) (o : BasicOutcomes) : List (Result Unit) :=
  [if configuration.proxyHostname.isSome then .error .invalidParameter else .ok (), memory o.client, memory o.chain,
    if configuration.certificate.isSome then o.certificate.code else .ok ()]

def CertificateOutcomes.points (o : CertificateOutcomes) : List (Result Unit) :=
  [memory o.item, memory o.content, if o.room then .ok () else .error .limitExceeded, memory o.node]

/-- A proxy needs memory only for a user name with a domain. -/
def libcurlPoints (configuration : HttpClientConfiguration) (o : LibcurlOutcomes) : List (Result Unit) :=
  [memory o.client, memory o.certificates, if o.curl then .ok () else .error .fail,
    if configuration.certificate.isSome then firstFailure o.certificate.points else .ok (),
    if configuration.proxyHostname.isSome && configuration.proxyUsername.isSome && configuration.proxyDomain.isSome then
      memory o.proxyUsername else .ok ()]

def HttpClientOutcomes.points (configuration : HttpClientConfiguration) : HttpClientOutcomes → List (Result Unit)
  | basic o => basicPoints configuration o
  | libcurl o => libcurlPoints configuration o

section

variable {region : List Location} {Q : (Location → Slot) → Prop} {E : Result Unit → (Location → Slot) → Prop}
  {l : Location}

end

def certificateRegion : List Location := [.certificateNode, .certificateItem, .certificateContent]

def clientRegion : List Location :=
  [.httpClient, .certificateChain, .certificates, .certificateNode, .certificateItem, .certificateContent, .curl,
    .proxyUsername]

/-- Behind a failure, and behind the destruction of a client. -/
@[mk_iff]
structure HttpClientAbsent (σ : Location → Slot) : Prop where
  client : σ .httpClient = .null
  vacant : Vacant clientRegion σ

/-- The chain may be null, as before `mcl_tls_ca_chain_init`. -/
@[mk_iff]
structure BasicPresent (σ : Location → Slot) : Prop where
  client : (σ .httpClient).IsObject
  chain : (σ .certificateChain).IsOwn
  vacant : Vacant [.certificates, .certificateNode, .certificateItem, .certificateContent, .curl, .proxyUsername] σ

/-- The parts may be missing while the client is being made. -/
@[mk_iff]
structure LibcurlPresent (σ : Location → Slot) : Prop where
  client : (σ .httpClient).IsObject
  curl : (σ .curl).IsOwn
  certificates : σ .certificates = .null ∧ Vacant certificateRegion σ ∨
    (σ .certificates).IsObject ∧ (σ .certificateNode = .null ∧ Vacant certificateRegion σ ∨
      ∀ l ∈ certificateRegion, (σ l).IsObject)
  vacant : Vacant [.certificateChain, .proxyUsername] σ

def HttpClientPresent : HttpClientOutcomes → (Location → Slot) → Prop
  | .basic _ => BasicPresent
  | .libcurl _ => LibcurlPresent

/-- The client may be destroyed. -/
def HttpClientReady (o : HttpClientOutcomes) (σ : Location → Slot) : Prop := HttpClientAbsent σ ∨ HttpClientPresent o σ

section

variable {σ σ' : Location → Slot} (h : ∀ l ∈ clientRegion, σ' l = σ l)

include h

theorem HttpClientAbsent.congr (habsent : HttpClientAbsent σ) : HttpClientAbsent σ' := by
  refine ⟨(h _ (by decide)).trans habsent.client, fun l hl => ?_⟩
  rw [h l hl]
  exact habsent.vacant l hl

theorem HttpClientReady.congr {o : HttpClientOutcomes} (hready : HttpClientReady o σ) : HttpClientReady o σ' := by
  rcases hready with habsent | hpresent
  · exact .inl (habsent.congr h)
  · simp only [clientRegion, List.forall_mem_cons] at h
    cases o with
    | basic o =>
      obtain ⟨hclient, hchain, hvacant⟩ := hpresent
      refine .inr ⟨by simpa [h] using hclient, by simpa [h] using hchain, ?_⟩
      simpa [Vacant, h] using hvacant
    | libcurl o =>
      obtain ⟨hclient, hcurl, hcertificates, hvacant⟩ := hpresent
      refine .inr ⟨by simpa [h] using hclient, by simpa [h] using hcurl, ?_, by simpa [Vacant, h] using hvacant⟩
      simpa [Vacant, certificateRegion, h] using hcertificates

end

end MindConnect.Initialization
