import MindConnect.Connectivity.JsonParse
import MindConnect.Core.HttpSend
import MindConnect.DataLake.DataLakeJson

/-!
# Requests that name the agent: `connectivity_processor.c`

| here | there |
| --- | --- |
| `Mapping`, `Mapping.validate` | `mapping_t` (`mapping.h`), `mapping_validate` (`mapping.c:98`) |
| `addMappingString` | `mcl_json_util_add_string` (`json_util.c:256`) |
| `mappingJson` | `_prepare_mapping_json` (`connectivity_processor.c:1017`) once it has its root |
| `createMapping` | `connectivity_processor_create_mapping` (`:256`) from there on |
| `dataSourceConfigurationUrl`, `getDataSourceConfiguration` | `connectivity_processor_get_data_source_configuration` (`:373`) |

The agent id is what is read through the pointer of the processor.
-/

namespace MindConnect

open JsonUtil

structure Mapping where
  dataPointId : Option CString
  entityId : Option CString
  propertySetName : Option CString
  propertyName : Option CString
  keepMapping : Bool

def Mapping.validate (mapping : Mapping) : Result Unit :=
  if mapping.dataPointId = none ∨ mapping.propertyName = none ∨ mapping.propertySetName = none then
    .error .invalidParameter
  else .ok ()

/-- The steps of a call that memory or a library alone decides. -/
inductive ConnectivityStep where
  | jsonRoot | jsonText | request | body | bodySize | method | url | correlationIdHeader | contentType | accept
  | bearer | authorization
deriving DecidableEq, Repr

structure ConnectivityRequest where
  method : HttpClientBasic.Method
  uri : CString
  payload : Option Bytes
  header : List (CString × Bytes)

structure ConnectivityEnvironment where
  step : ConnectivityStep → Result Unit
  memberAdded : CString → Bool
  urlAllocated : Bool
  randomBytes : Result Bytes
  send : ConnectivityRequest → Result HttpResponse
  parse : Bytes → Option Json

/-- What the requests take from the processor and its configuration. -/
structure ConnectivityProcessor where
  hostname : Option CString
  mappingUrl : Option CString
  accessToken : CString

/-! ## Mappings -/

/-- A null value is refused; without memory the member is missing afterwards. -/
def addMappingString (env : ConnectivityEnvironment) (root : Members) (name : CString) (value : Option CString) :
    Result Members :=
  match value with
  | none => .error .triggeredWithNull
  | some value => do
    checkName root name
    return if env.memberAdded name then root ++ [(name, .string value)] else root

def addMappingBool (env : ConnectivityEnvironment) (root : Members) (name : CString) (value : Bool) :
    Result Members := do
  checkName root name
  return if env.memberAdded name then root ++ [(name, .bool value)] else root

/-- The agent itself is the entity if the mapping has none. -/
def mappingJson (env : ConnectivityEnvironment) (mapping : Mapping) (agentId : Option CString) : Result Bytes := do
  let root ← addMappingString env [] (.lit "agentId") agentId
  let root ← addMappingString env root (.lit "dataPointId") mapping.dataPointId
  let root ← addMappingString env root (.lit "entityId") (mapping.entityId.or agentId)
  let root ← addMappingString env root (.lit "propertySetName") mapping.propertySetName
  let root ← addMappingString env root (.lit "propertyName") mapping.propertyName
  let root ← addMappingBool env root (.lit "keepMapping") mapping.keepMapping
  env.step .jsonText
  toString (.object root)

/-- `_generate_correlation_id_string` (`connectivity_processor.c:609`) -/
def correlationIdString (env : ConnectivityEnvironment) : Result Bytes :=
  env.randomBytes.map fun randomBytes =>
    randomBytes.flatMap fun b => [Json.hexDigit (b / 16), Json.hexDigit (b % 16)]

def mappingRequest (env : ConnectivityEnvironment) (processor : ConnectivityProcessor) (json : Bytes) :
    Result ConnectivityRequest := do
  env.step .request
  env.step .body
  env.step .bodySize
  env.step .method
  let uri ← match processor.mappingUrl with
    | some uri => pure uri
    | none => .error .triggeredWithNull
  env.step .url
  let correlationId ← correlationIdString env
  env.step .correlationIdHeader
  env.step .contentType
  env.step .accept
  env.step .bearer
  env.step .authorization
  return {
    method := .post
    uri
    payload := some json
    header := [(httpHeaderCorrelationId, correlationId), (httpHeaderContentType, contentTypeValueApplicationJson),
      (httpHeaderAccept, contentTypeValueApplicationJson),
      (httpHeaderAuthorization, bearerFormat processor.accessToken)] }

/-- A mapping is answered with 201, and 200 is not expected. -/
def mappingStatus (response : HttpResponse) : Result Unit :=
  if response.statusCode = 201 then .ok ()
  else
    match httpResponseGetStatus response.statusCode with
    | .ok () => .error .unexpectedResultCode
    | .error e => .error e

def createMapping (env : ConnectivityEnvironment) (processor : ConnectivityProcessor) (mapping : Mapping)
    (agentId : Option CString) : Result Unit := do
  let json ← mappingJson env mapping agentId
  let request ← mappingRequest env processor json
  let response ← env.send request
  mappingStatus response

/-! ## Data source configurations -/

def dataSourceConfigurationUrl (processor : ConnectivityProcessor) (agentId : Option CString) : Bytes :=
  characters processor.hostname ++ (ascii "/api/agentmanagement/v3/agents/" ++ (characters agentId ++
    ascii "/dataSourceConfiguration"))

def dataSourceConfigurationRequest (env : ConnectivityEnvironment) (processor : ConnectivityProcessor)
    (url : Bytes) : Result ConnectivityRequest := do
  env.step .request
  env.step .url
  env.step .method
  env.step .bearer
  env.step .authorization
  env.step .accept
  return {
    method := .get
    uri := .ofBuffer url
    payload := none
    header := [(httpHeaderAuthorization, bearerFormat processor.accessToken),
      (httpHeaderAccept, contentTypeValueApplicationJson)] }

/-- Any other status than 200 leaves no configuration. -/
def getDataSourceConfiguration (w : Nat) (env : ConnectivityEnvironment) (processor : ConnectivityProcessor)
    (agentId : Option CString) : Result (Option DataSourceConfiguration) := do
  let url ← if env.urlAllocated then pure (dataSourceConfigurationUrl processor agentId) else .error .outOfMemory
  let request ← dataSourceConfigurationRequest env processor url
  let response ← env.send request
  if response.statusCode = 200 then
    (jsonParseItem w env.parse (response.payload.getD [])).map some
  else (httpResponseGetStatus response.statusCode).map fun _ => none

end MindConnect
