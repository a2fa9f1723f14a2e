import MindConnect.Connectivity.Item
import MindConnect.Connectivity.Multipart
import MindConnect.Core.JsonUtil

/-!
# Predicted sizes: `json_get_item_size` and `multipart_get_tuple_size`

The size functions of `json.c` (`:368`, `:1041`-`:1315`) add up, in `mcl_size_t`, what the JSON text of an
item should take: the length of a template with empty fields, plus the lengths of the fields. `w` is the
width of `mcl_size_t`, all sums are modulo `2 ^ w`. The loops over a list start with `mcl_list_reset`, so
they visit `seq` in order (`CursorList.forEach_reset`).
-/

namespace MindConnect

/-! ## The base sizes (`json.c:20`-`:77`) -/

/-- `sizeof(template) - MCL_NULL_CHAR_SIZE` -/
def templateSize (template : String) : Nat := (ascii template).length

theorem templateSize_ofList (l : List Char) : templateSize (String.ofList l) = l.length := by
  simp [templateSize, ascii]

def doubleBraceSize : Nat := 2
def delimiterSize : Nat := 1

def itemMetaBaseSize : Nat := templateSize "\x7b\"type\":\"item\",\"version\":\"1.0\",\"payload\":\x7d"
def itemTimeseriesMetaPayloadBaseSize : Nat :=
  templateSize "\x7b\"type\":\"standardTimeSeries\",\"version\":\"\",\"details\":\x7b\"configurationId\":\"\"\x7d\x7d"
def itemTimeseriesValueBaseSize : Nat :=
  templateSize "\x7b\"dataPointId\":\"\",\"value\":\"\",\"qualityCode\":\"\"\x7d"
def itemTimeseriesValueListBaseSize : Nat :=
  templateSize "\x7b\"timestamp\":\"\",\"values\":[]\x7d" + timestampLength
def itemEventMetaPayloadBaseSize : Nat := templateSize "\x7b\"type\":\"businessEvent\",\"version\":\"\"\x7d"
def itemEventPayloadBaseSize : Nat :=
  templateSize "\x7b\"id\":\"\",\"timestamp\":\"\",\"severity\":,\"type\":\"\",\"version\":\"\",\"details\":\x7d" + timestampLength
def itemEventPayloadCorrelationIdSize : Nat := templateSize ",\"correlationId\":\"\""
def itemEventPayloadDescriptionSize : Nat := templateSize ",\"description\":\"\""
def itemFileMetaPayloadBaseSize : Nat :=
  templateSize "\x7b\"type\":\"file\",\"version\":\"\",\"details\":\x7b\"fileName\":\"\",\"creationDate\":\"\"\x7d\x7d" + timestampLength
def itemFileMetaPayloadFileTypeSize : Nat := templateSize ",\"fileType\":\"\""
def itemCustomDataMetaPayloadBaseSize : Nat := templateSize "\x7b\"type\":\"\",\"version\":\"\"\x7d"
def itemCustomDataMetaPayloadDetailsSize : Nat := templateSize ",\"details\":"
def itemDataSourceConfigurationMetaPayloadBaseSize : Nat :=
  templateSize "\x7b\"type\":\"dataSourceConfiguration\",\"version\":\"\"\x7d"
def itemDataSourceConfigurationPayloadBaseSize : Nat :=
  templateSize "\x7b\"configurationId\":\"\",\"dataSources\":[]\x7d"
def itemDataSourceBaseSize : Nat := templateSize "\x7b\"name\":\"\",\"description\":\"\",\"dataPoints\":[]\x7d"
def itemDataPointBaseSize : Nat :=
  templateSize "\x7b\"id\":\"\",\"name\":\"\",\"description\":\"\",\"type\":\"\",\"unit\":\"\"\x7d"
def itemDataSourceConfigurationPayloadCustomDataSize : Nat := templateSize ",\"customData\":"

/-! ## The size functions -/

variable (w : Nat)

/-- `mcl_string_util_strlen`, zero for a null pointer -/
def stringSize (s : Option CString) : BitVec w :=
  match s with
  | none => 0
  | some s => BitVec.ofNat w s.length

/-- The length of a JSON's text; of an empty object when it cannot be printed. -/
def jsonSize (json : Json) : BitVec w :=
  match JsonUtil.toString json with
  | .ok text => BitVec.ofNat w text.length
  | .error _ => BitVec.ofNat w doubleBraceSize

/-- The loop over a list, and its delimiters. -/
def listSize {α : Type} (size : α → BitVec w) (l : CursorList α) (base : BitVec w) : BitVec w :=
  l.seq.foldl (fun total x => total + size x) base +
    (BitVec.ofNat w l.count - 1) * BitVec.ofNat w delimiterSize

/-- What an optional field adds, its name included. -/
def optionalSize {α : Type} (size : α → BitVec w) (name : Nat) : Option α → BitVec w
  | none => 0
  | some x => BitVec.ofNat w name + size x

def itemPayloadSizeForTimeseriesValue (v : TimeseriesValue) : BitVec w :=
  BitVec.ofNat w itemTimeseriesValueBaseSize + stringSize w v.dataPointId + stringSize w v.qualityCode +
    stringSize w v.value

def itemPayloadSizeForTimeseriesValueList (l : TimeseriesValueList) : BitVec w :=
  listSize w (itemPayloadSizeForTimeseriesValue w) l.values (BitVec.ofNat w itemTimeseriesValueListBaseSize)

def itemPayloadSizeForTimeseries (t : Timeseries) : BitVec w :=
  listSize w (itemPayloadSizeForTimeseriesValueList w) t.valueLists (BitVec.ofNat w doubleBraceSize)

/-- `MCL_EVENT_VERSION_1_0` has a severity of one digit, `MCL_EVENT_VERSION_2_0` of two. -/
def severitySize : EventVersion → BitVec w
  | .v1_0 => 1
  | .v2_0 => 2

def itemPayloadSizeForEvent (e : Event) : BitVec w :=
  BitVec.ofNat w (itemEventPayloadBaseSize + doubleBraceSize) + stringSize w (some e.id) + stringSize w e.type +
    stringSize w e.version + severitySize w e.itemVersion +
    optionalSize w (fun s => stringSize w (some s)) itemEventPayloadCorrelationIdSize e.correlationId +
    optionalSize w (fun s => stringSize w (some s)) itemEventPayloadDescriptionSize e.description +
    match e.details with
    | none => BitVec.ofNat w doubleBraceSize
    | some details => jsonSize w details

def itemPayloadSizeForDataPoint (p : DataPoint) : BitVec w :=
  BitVec.ofNat w itemDataPointBaseSize + stringSize w p.id + stringSize w p.name + stringSize w p.description +
    stringSize w p.type + stringSize w p.unit +
    optionalSize w (jsonSize w) itemDataSourceConfigurationPayloadCustomDataSize p.customData

def itemPayloadSizeForDataSource (s : DataSource) : BitVec w :=
  listSize w (itemPayloadSizeForDataPoint w) s.dataPoints
      (BitVec.ofNat w itemDataSourceBaseSize + stringSize w s.name + stringSize w s.description) +
    optionalSize w (jsonSize w) itemDataSourceConfigurationPayloadCustomDataSize s.customData

def itemPayloadSizeForDataSourceConfiguration (c : DataSourceConfiguration) : BitVec w :=
  listSize w (itemPayloadSizeForDataSource w) c.dataSources
    (BitVec.ofNat w itemDataSourceConfigurationPayloadBaseSize + stringSize w c.configurationId)

def customDataMetaSize (c : CustomData) : BitVec w :=
  BitVec.ofNat w itemCustomDataMetaPayloadBaseSize + stringSize w c.type + stringSize w c.version +
    optionalSize w (jsonSize w) itemCustomDataMetaPayloadDetailsSize c.details

def itemMetaSize (item : Item) : BitVec w :=
  BitVec.ofNat w itemMetaBaseSize +
    match item with
    | .timeseries t =>
      BitVec.ofNat w itemTimeseriesMetaPayloadBaseSize + stringSize w t.configurationId +
        stringSize w (some version1_0)
    | .event e =>
      BitVec.ofNat w itemEventMetaPayloadBaseSize + stringSize w (some (eventVersionText e.itemVersion))
    | .file f =>
      BitVec.ofNat w itemFileMetaPayloadBaseSize + stringSize w f.remoteName +
        optionalSize w (fun s => stringSize w (some s)) itemFileMetaPayloadFileTypeSize f.type +
        stringSize w (some version1_0)
    | .customData c => customDataMetaSize w c
    | .dataSourceConfiguration _ =>
      BitVec.ofNat w itemDataSourceConfigurationMetaPayloadBaseSize + stringSize w (some version1_0)

/-- `json_get_item_size` -/
def jsonGetItemSize (item : Item) : BitVec w :=
  itemMetaSize w item +
    match item with
    | .timeseries t => itemPayloadSizeForTimeseries w t
    | .event e => itemPayloadSizeForEvent w e
    | .file f => BitVec.ofNat w f.size
    | .customData c => BitVec.ofNat w c.size
    | .dataSourceConfiguration c => itemPayloadSizeForDataSourceConfiguration w c

/-- `multipart_get_tuple_size` -/
def multipartGetTupleSize (item : Item) (payloadContentType : Option CString) : BitVec w :=
  BitVec.ofNat w multipartBaseSize + jsonGetItemSize w item + stringSize w payloadContentType

/-- `content_type_values` (`connectivity_processor.c:44`), the two that are used for items -/
def contentTypeApplicationOctetStream : CString := .lit "application/octet-stream"
def applicationJson : CString := .lit "application/json"

/-- `_get_item_size` (`connectivity_processor.c:699`) -/
def getItemSize (item : Item) : BitVec w :=
  match item with
  | .event _ => multipartGetTupleSize w item (some applicationJson)
  | .dataSourceConfiguration _ => multipartGetTupleSize w item (some applicationJson)
  | .timeseries _ => multipartGetTupleSize w item (some applicationJson)
  | .file _ => multipartGetTupleSize w item (some contentTypeApplicationOctetStream)
  | .customData c => multipartGetTupleSize w item c.contentType

/-- `multipart_get_overhead_size` -/
def multipartGetOverheadSize : BitVec w := BitVec.ofNat w closeLength

end MindConnect
