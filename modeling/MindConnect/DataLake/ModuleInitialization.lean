import MindConnect.Core.FailedInitialization

/-!
# The calls that initialize a module

| here | there |
| --- | --- |
| `connectivityConfigurationValidate` | `connectivity_configuration_validate` (`connectivity_configuration.c:104`) |
| `mclConnectivityInitialize`, `mclConnectivityDestroy` | the same functions (`connectivity.c:13`, `:145`) |
| `dataLakeConfigurationValidate` | `data_lake_configuration_validate` (`data_lake_configuration.c:91`) |
| `mclHttpClientAddCertificate` | the same function of either client (`http_client_basic.c:109`, `http_client_libcurl.c:219`) |
| `mclDataLakeInitialize`, `mclDataLakeDestroy` | the same functions (`data_lake.c:15`, `:239`) |
| `InitializeCall` | a call of one of these or of `mcl_core_initialize` |

The data lake is set to null before anything can fail; connectivity is not, so that `mcl_connectivity_destroy` finds what
the caller has left in its variable if the configuration is not valid.
-/

namespace MindConnect.Initialization

open Lifetime

/-- A module with its access token. -/
def moduleDestroy (l : Location) : Variables → Variables :=
  whenSet l (inOrder [access l, release .processorAccessToken, release l])

/-! ## Connectivity -/

/-- `core` is only null or not. -/
structure ConnectivityConfiguration where
  core : Bool

def connectivityConfigurationValidate (c : ConnectivityConfiguration) : Result Unit :=
  if c.core then .ok () else .error .invalidParameter

def mclConnectivityDestroy : Variables → Variables := moduleDestroy .connectivity

/-- `connectivity` is only null or not. -/
def mclConnectivityInitialize (configuration : Option ConnectivityConfiguration) (connectivity allocated : Bool) :
    InitializeStep :=
  match configuration, connectivity with
  | some c, true =>
    (sequence [
      .outcome (connectivityConfigurationValidate c),
      mclNew .connectivity allocated,
      .does (access .connectivity), .does (setNull .processorAccessToken)]).onFailure mclConnectivityDestroy
  | _, _ => .outcome (.error .triggeredWithNull)

/-! ## The data lake -/

/-- `core` is only null or not. -/
structure DataLakeConfiguration where
  core : Bool
  certificate : Option CString

def dataLakeConfigurationValidate (c : DataLakeConfiguration) : Result Unit :=
  if c.core then .ok () else .error .invalidParameter

/-- The HTTP client of a core, `present` or null, and what becomes of a certificate that it gets. -/
inductive CoreHttpClient where
  | basic (present : Bool) (certificate : CertificateParsing)
  | libcurl (present : Bool) (certificate : CertificateOutcomes)

def mclHttpClientAddCertificate : CoreHttpClient → InitializeStep
  | .basic true certificate => .outcome certificate.code
  | .basic false _ => .outcome (.error .triggeredWithNull)
  | .libcurl true certificate => libcurlAddCertificate certificate
  | .libcurl false _ =>
    (Lifetime.sequence [.does (setNull .certificateItem), .outcome (.error .triggeredWithNull)]).onFailure
      certificateListDestroyCallback

def mclDataLakeDestroy : Variables → Variables := moduleDestroy .dataLake

/-- `dataLake` is only null or not. -/
def mclDataLakeInitialize (configuration : Option DataLakeConfiguration) (dataLake allocated : Bool)
    (httpClient : CoreHttpClient) : InitializeStep :=
  if dataLake then
    (sequence [
      .does (setNull .dataLake),
      .outcome (if configuration.isNone then .error .triggeredWithNull else .ok ()),
      .outcome (configuration.elim (.ok ()) dataLakeConfigurationValidate),
      mclNew .dataLake allocated,
      .does (access .dataLake), .does (setNull .processorAccessToken),
      .provided (configuration.bind DataLakeConfiguration.certificate).isSome
        (mclHttpClientAddCertificate httpClient)]).onFailure mclDataLakeDestroy
  else .outcome (.error .triggeredWithNull)

/-! ## Where they can fail -/

def connectivityPoints (configuration : Option ConnectivityConfiguration) (connectivity allocated : Bool) :
    List (Result Unit) :=
  match configuration, connectivity with
  | some c, true => [connectivityConfigurationValidate c, memory allocated]
  | _, _ => [.error .triggeredWithNull]

def CoreHttpClient.points : CoreHttpClient → List (Result Unit)
  | basic true certificate => [certificate.code]
  | libcurl true certificate => certificate.points
  | _ => [.error .triggeredWithNull]

def dataLakePoints (configuration : Option DataLakeConfiguration) (dataLake allocated : Bool)
    (httpClient : CoreHttpClient) : List (Result Unit) :=
  match configuration, dataLake with
  | some c, true =>
    [dataLakeConfigurationValidate c, memory allocated,
      if c.certificate.isSome then firstFailure httpClient.points else .ok ()]
  | _, _ => [.error .triggeredWithNull]

/-- With what it gets, what the variable for the result is (null or not), and what memory and the libraries come to. -/
inductive InitializeCall where
  | core (configuration : Option Configuration) (core : Bool) (o : CoreOutcomes)
  | connectivity (configuration : Option ConnectivityConfiguration) (connectivity allocated : Bool)
  | dataLake (configuration : Option DataLakeConfiguration) (dataLake allocated : Bool) (httpClient : CoreHttpClient)

namespace InitializeCall

def step : InitializeCall → InitializeStep
  | .core configuration pointer o => mclCoreInitialize configuration pointer o
  | .connectivity configuration pointer allocated => mclConnectivityInitialize configuration pointer allocated
  | .dataLake configuration pointer allocated httpClient =>
    mclDataLakeInitialize configuration pointer allocated httpClient

def points : InitializeCall → List (Result Unit)
  | .core configuration pointer o => corePoints configuration pointer o
  | .connectivity configuration pointer allocated => connectivityPoints configuration pointer allocated
  | .dataLake configuration pointer allocated httpClient => dataLakePoints configuration pointer allocated httpClient

/-- Before the call, `content` is what happens to be in a variable. Only the endpoints of a configuration are set. -/
def slots (content : Location → Option Nat) : InitializeCall → Location → Slot
  | .core (some c) _ _ =>
    Function.update (Function.update (fun l => .unset (content l)) .registerEndpoint (.given c.registerEndpoint))
      .tokenEndpoint (.given c.tokenEndpoint)
  | _ => fun l => .unset (content l)

variable {content : Location → Option Nat} {call : InitializeCall}

end InitializeCall

end MindConnect.Initialization
