import MindConnect.Connectivity.Item
import MindConnect.Core.JsonUtil

/-!
# The JSON of an item: `json_from_item_meta` and `json_from_item_payload`

| here | there |
| --- | --- |
| `metaFieldNames`, `metaFieldValues`, `payloadFieldNames` | the tables of `json.c:168`-`:248`, the entries in use |
| `fillArrayUsingList` | `_fill_array_using_list` (`json.c:797`) |
| `jsonFromDataPoint`, `jsonFromDataSource`, … | `_json_from_data_point` (`:840`), `_json_from_data_source` (`:900`), … |
| `addEventToPayloadArray` | `_add_event_to_payload_array` (`:606`) |
| `itemMetaJson`, `itemPayloadJson` | the trees that `json_from_item_meta` (`:324`), `json_from_item_payload` (`:370`) print |

The second half says what the trees are: an object lists the fields that are present (`field`, `child`), so
the tree of a valid item is `dataPointTree`, `dataSourceTree` and so on.
-/

namespace MindConnect

open JsonUtil

/-! ## Names -/

/-- `E_META_FIELD_NAMES`. `META_FIELD_TYPE` and `META_FIELD_PAYLOAD_TYPE`, and the two versions, share a name. -/
inductive MetaFieldName where
  | type | version | payload | payloadType | payloadVersion | payloadDetails
  | payloadDetailsConfigurationId | payloadDetailsFileName | payloadDetailsFileType
  | payloadDetailsCreationDate
deriving DecidableEq, Repr

def metaFieldNames : MetaFieldName → CString
  | .type => .lit "type"
  | .version => .lit "version"
  | .payload => .lit "payload"
  | .payloadType => .lit "type"
  | .payloadVersion => .lit "version"
  | .payloadDetails => .lit "details"
  | .payloadDetailsConfigurationId => .lit "configurationId"
  | .payloadDetailsFileName => .lit "fileName"
  | .payloadDetailsFileType => .lit "fileType"
  | .payloadDetailsCreationDate => .lit "creationDate"

/-- `E_META_FIELD_VALUES` -/
inductive MetaFieldValue where
  | payloadTypeTimeSeries | payloadTypeBusinessEvent | payloadTypeFile | payloadTypeDataSourceConfiguration
deriving DecidableEq, Repr

def metaFieldValues : MetaFieldValue → CString
  | .payloadTypeTimeSeries => .lit "standardTimeSeries"
  | .payloadTypeBusinessEvent => .lit "businessEvent"
  | .payloadTypeFile => .lit "file"
  | .payloadTypeDataSourceConfiguration => .lit "dataSourceConfiguration"

/-- `E_PAYLOAD_FIELD_NAMES` -/
inductive PayloadFieldName where
  | timestamp | values | valuesDataPointId | valuesValue | valuesQualityCode | id | correlationId
  | severity | description | type | version | customData | details | configurationId | dataSources
  | dataSourcesName | dataSourcesDataPoints | dataSourcesDataPointsName | dataSourcesDataPointsType
  | dataSourcesDataPointsUnit
deriving DecidableEq, Repr

def payloadFieldNames : PayloadFieldName → CString
  | .timestamp => .lit "timestamp"
  | .values => .lit "values"
  | .valuesDataPointId => .lit "dataPointId"
  | .valuesValue => .lit "value"
  | .valuesQualityCode => .lit "qualityCode"
  | .id => .lit "id"
  | .correlationId => .lit "correlationId"
  | .severity => .lit "severity"
  | .description => .lit "description"
  | .type => .lit "type"
  | .version => .lit "version"
  | .customData => .lit "customData"
  | .details => .lit "details"
  | .configurationId => .lit "configurationId"
  | .dataSources => .lit "dataSources"
  | .dataSourcesName => .lit "name"
  | .dataSourcesDataPoints => .lit "dataPoints"
  | .dataSourcesDataPointsName => .lit "name"
  | .dataSourcesDataPointsType => .lit "type"
  | .dataSourcesDataPointsUnit => .lit "unit"

/-- `ITEM_TYPE` and `ITEM_VERSION` -/
def itemType : CString := .lit "item"
def itemVersion : CString := .lit "1.0"

/-! ## The encoders -/

/-- `if (MCL_NULL != value)` around `mcl_json_util_add_string` -/
def addStringIfPresent (root : Members) (name : CString) (value : Option CString) : Result Members :=
  match value with
  | none => .ok root
  | some _ => addString root name value

/-- `if (MCL_NULL != object)` around the duplication of `object` and `mcl_json_util_add_object` -/
def addObjectIfPresent (root : Members) (name : CString) (object : Option Json) : Result Members :=
  match object with
  | none => .ok root
  | some object => addObject root name object

def fillArrayUsingList {α : Type} (callback : α → Result Json) (list : CursorList α) : Result Json :=
  (CursorList.forEach (fun array x => (callback x).map fun json => array ++ [json]) McError.fail list.count []
    list.reset).map Json.array

def jsonFromTimeseriesValue (v : TimeseriesValue) : Result Json := do
  let json ← addString [] (payloadFieldNames .valuesDataPointId) v.dataPointId
  let json ← addString json (payloadFieldNames .valuesValue) v.value
  let json ← addString json (payloadFieldNames .valuesQualityCode) v.qualityCode
  return .object json

def jsonFromTimeseriesValueList (l : TimeseriesValueList) : Result Json := do
  let json ← addString [] (payloadFieldNames .timestamp) (some l.timestamp)
  let json ← startChild json (payloadFieldNames .values) (fillArrayUsingList jsonFromTimeseriesValue l.values)
  return .object json

/-- `_json_from_timeseries_payload` (`json.c:768`), before it is printed -/
def timeseriesPayloadJson (t : Timeseries) : Result Json :=
  fillArrayUsingList jsonFromTimeseriesValueList t.valueLists

def jsonFromDataPoint (p : DataPoint) : Result Json := do
  let json ← addString [] (payloadFieldNames .id) p.id
  let json ← addString json (payloadFieldNames .dataSourcesDataPointsName) p.name
  let json ← addStringIfPresent json (payloadFieldNames .description) p.description
  let json ← addString json (payloadFieldNames .dataSourcesDataPointsType) p.type
  let json ← addString json (payloadFieldNames .dataSourcesDataPointsUnit) p.unit
  let json ← addObjectIfPresent json (payloadFieldNames .customData) p.customData
  return .object json

def jsonFromDataSource (s : DataSource) : Result Json := do
  let json ← addString [] (payloadFieldNames .dataSourcesName) s.name
  let json ← addStringIfPresent json (payloadFieldNames .description) s.description
  let json ← startChild json (payloadFieldNames .dataSourcesDataPoints)
    (fillArrayUsingList jsonFromDataPoint s.dataPoints)
  let json ← addObjectIfPresent json (payloadFieldNames .customData) s.customData
  return .object json

/-- `_json_from_data_source_configuration_payload` (`json.c:723`), before it is printed -/
def dataSourceConfigurationPayloadJson (c : DataSourceConfiguration) : Result Json := do
  let json ← addString [] (payloadFieldNames .configurationId) c.configurationId
  let json ← startChild json (payloadFieldNames .dataSources)
    (fillArrayUsingList jsonFromDataSource c.dataSources)
  return .object json

/-- The null check and the check of the first character of an optional event field. -/
def nonEmpty (s : Option CString) : Option CString := s.filter fun s => s.bytes ≠ []

/-- The code and the members so far, after a step that runs only on `MCL_OK`. -/
def addStep (r : Result Unit × Members) (add : Members → Result Members) : Result Unit × Members :=
  match r.1 with
  | .error e => (.error e, r.2)
  | .ok () =>
    match add r.2 with
    | .ok members => (.ok (), members)
    | .error e => (.error e, r.2)

/-- The fields of an event up to its details. -/
def eventMembers (e : Event) : Result Unit × Members :=
  let r := addStep (.ok (), []) fun m => addString m (payloadFieldNames .id) (some e.id)
  let r := addStep r fun m => addStringIfPresent m (payloadFieldNames .correlationId) (nonEmpty e.correlationId)
  let r := addStep r fun m => addString m (payloadFieldNames .timestamp) (some e.timestamp)
  let r := addStep r fun m => addUint m (payloadFieldNames .severity) e.severity
  let r := addStep r fun m => addStringIfPresent m (payloadFieldNames .description) (nonEmpty e.description)
  let r := addStep r fun m => addString m (payloadFieldNames .type) e.type
  addStep r fun m => addString m (payloadFieldNames .version) e.version

/-- The `else` of the duplication of the details also runs when an earlier field failed, and its code takes
the place of the failure. -/
def addEventToPayloadArray (e : Event) : Result Json :=
  let (code, members) := eventMembers e
  let details :=
    match code, e.details with
    | .ok (), some details => details
    | _, _ => .object []
  (addObject members (payloadFieldNames .details) details).map Json.object

/-- `_json_from_event_payload` (`json.c:398`), before it is printed -/
def eventPayloadJson (e : Event) : Result Json := (addEventToPayloadArray e).map fun json => .array [json]

def itemPayloadJson : Item → Result Json
  | .event e => eventPayloadJson e
  | .dataSourceConfiguration c => dataSourceConfigurationPayloadJson c
  | .timeseries t => timeseriesPayloadJson t
  | .file _ => .error .fail
  | .customData _ => .error .fail

def payloadType : Item → Option CString
  | .event _ => some (metaFieldValues .payloadTypeBusinessEvent)
  | .dataSourceConfiguration _ => some (metaFieldValues .payloadTypeDataSourceConfiguration)
  | .timeseries _ => some (metaFieldValues .payloadTypeTimeSeries)
  | .file _ => some (metaFieldValues .payloadTypeFile)
  | .customData c => c.type

def payloadVersion : Item → Option CString
  | .event e => some (eventVersionText e.itemVersion)
  | .dataSourceConfiguration _ => some version1_0
  | .timeseries _ => some version1_0
  | .file _ => some version1_0
  | .customData c => c.version

/-- `_add_item_meta_payload_timeseries_details` (`json.c:1361`) -/
def timeseriesDetails (t : Timeseries) : Result Json := do
  let details ← addString [] (metaFieldNames .payloadDetailsConfigurationId) t.configurationId
  return .object details

/-- `_add_item_meta_payload_file_details` (`json.c:1380`) -/
def fileDetails (f : File) : Result Json := do
  let details ← addString [] (metaFieldNames .payloadDetailsFileName) f.remoteName
  let details ← addString details (metaFieldNames .payloadDetailsCreationDate) f.creationDate
  let details ← addStringIfPresent details (metaFieldNames .payloadDetailsFileType) f.type
  return .object details

def addItemMetaPayloadDetails (item : Item) (payload : Members) : Result Members :=
  match item with
  | .event _ => .ok payload
  | .dataSourceConfiguration _ => .ok payload
  | .timeseries t => startChild payload (metaFieldNames .payloadDetails) (timeseriesDetails t)
  | .file f => startChild payload (metaFieldNames .payloadDetails) (fileDetails f)
  | .customData c => addObjectIfPresent payload (metaFieldNames .payloadDetails) c.details

/-- `_add_item_meta_payload` (`json.c:488`) -/
def itemMetaPayload (item : Item) : Result Json := do
  let payload ← addString [] (metaFieldNames .payloadType) (payloadType item)
  let payload ← addString payload (metaFieldNames .payloadVersion) (payloadVersion item)
  let payload ← addItemMetaPayloadDetails item payload
  return .object payload

def itemMetaJson (item : Item) : Result Json := do
  let root ← addString [] (metaFieldNames .type) (some itemType)
  let root ← addString root (metaFieldNames .version) (some itemVersion)
  let root ← startChild root (metaFieldNames .payload) (itemMetaPayload item)
  return .object root

def jsonFromItemMeta (item : Item) : Result Bytes := (itemMetaJson item).bind JsonUtil.toString

def jsonFromItemPayload (item : Item) : Result Bytes := (itemPayloadJson item).bind JsonUtil.toString

/-! ## The trees of valid items -/

/-- A member for a string that may be absent. -/
def field (name : CString) (value : Option CString) : Members := value.toList.map fun s => (name, .string s)

def child (name : CString) (value : Option Json) : Members := value.toList.map fun json => (name, json)

@[simp] theorem lookup_field (name k : CString) (value : Option CString) :
    Json.lookup name (field k value) = if Json.sameName name k then value.map Json.string else none := by
  cases value with
  | none => simp [field]
  | some s => simp [field, Json.lookup_cons]

@[simp] theorem lookup_child (name k : CString) (value : Option Json) :
    Json.lookup name (child k value) = if Json.sameName name k then value else none := by
  cases value with
  | none => simp [child]
  | some json => simp [child, Json.lookup_cons]

section
variable {root : Members} {name : CString} (h : Json.lookup name root = none)
include h

theorem checkName_eq : checkName root name = .ok () := by rw [checkName, h]

@[simp] theorem addString_eq (s : CString) : addString root name (some s) = .ok (root ++ field name (some s)) := by
  rw [addString, checkName_eq h]
  rfl

@[simp] theorem addStringIfPresent_eq (s : Option CString) :
    addStringIfPresent root name s = .ok (root ++ field name s) := by
  cases s with
  | none => simp [addStringIfPresent, field]
  | some s => exact addString_eq h s

@[simp] theorem addUint_eq (n : Nat) :
    addUint root name n = .ok (root ++ child name (some (.number (numberText n)))) := by
  rw [addUint, checkName_eq h]
  rfl

@[simp] theorem addObject_eq (json : Json) : addObject root name json = .ok (root ++ child name (some json)) := by
  rw [addObject, checkName_eq h]
  rfl

@[simp] theorem addObjectIfPresent_eq (json : Option Json) :
    addObjectIfPresent root name json = .ok (root ++ child name json) := by
  cases json with
  | none => simp [addObjectIfPresent, child]
  | some json => exact addObject_eq h json

@[simp] theorem startChild_eq (json : Json) :
    startChild root name (.ok json) = .ok (root ++ child name (some json)) := by
  rw [startChild, checkName_eq h]
  rfl

end

theorem fillArrayUsingList_eq {α : Type} {callback : α → Result Json} {tree : α → Json} {list : CursorList α}
    (h : ∀ x ∈ list.seq, callback x = .ok (tree x)) :
    fillArrayUsingList callback list = .ok (.array (list.seq.map tree)) := by
  have hfold : ∀ (xs : List α) (array : List Json), (∀ x ∈ xs, callback x = .ok (tree x)) →
      xs.foldlM (fun array x => (callback x).map fun json => array ++ [json]) array =
        .ok (array ++ xs.map tree) := by
    intro xs
    induction xs with
    | nil => intro array _; simp [pure, Except.pure]
    | cons x xs ih =>
      intro array hxs
      rw [List.foldlM_cons, hxs x List.mem_cons_self]
      have := ih (array ++ [tree x]) fun y hy => hxs y (List.mem_cons_of_mem x hy)
      simpa [bind, Except.bind, Except.map] using this
  rw [fillArrayUsingList, CursorList.forEach_reset, hfold _ _ h]
  rfl

def timeseriesValueTree (v : TimeseriesValue) : Json :=
  .object (field (payloadFieldNames .valuesDataPointId) v.dataPointId ++
    field (payloadFieldNames .valuesValue) v.value ++
    field (payloadFieldNames .valuesQualityCode) v.qualityCode)

def timeseriesValueListTree (l : TimeseriesValueList) : Json :=
  .object (field (payloadFieldNames .timestamp) (some l.timestamp) ++
    child (payloadFieldNames .values) (some (.array (l.values.seq.map timeseriesValueTree))))

def timeseriesTree (t : Timeseries) : Json := .array (t.valueLists.seq.map timeseriesValueListTree)

def dataPointTree (p : DataPoint) : Json :=
  .object (field (payloadFieldNames .id) p.id ++
    field (payloadFieldNames .dataSourcesDataPointsName) p.name ++
    field (payloadFieldNames .description) p.description ++
    field (payloadFieldNames .dataSourcesDataPointsType) p.type ++
    field (payloadFieldNames .dataSourcesDataPointsUnit) p.unit ++
    child (payloadFieldNames .customData) p.customData)

def dataSourceTree (s : DataSource) : Json :=
  .object (field (payloadFieldNames .dataSourcesName) s.name ++
    field (payloadFieldNames .description) s.description ++
    child (payloadFieldNames .dataSourcesDataPoints) (some (.array (s.dataPoints.seq.map dataPointTree))) ++
    child (payloadFieldNames .customData) s.customData)

def dataSourceConfigurationTree (c : DataSourceConfiguration) : Json :=
  .object (field (payloadFieldNames .configurationId) c.configurationId ++
    child (payloadFieldNames .dataSources) (some (.array (c.dataSources.seq.map dataSourceTree))))

def eventTree (e : Event) : Json :=
  .object (field (payloadFieldNames .id) (some e.id) ++
    field (payloadFieldNames .correlationId) (nonEmpty e.correlationId) ++
    field (payloadFieldNames .timestamp) (some e.timestamp) ++
    child (payloadFieldNames .severity) (some (.number (numberText e.severity))) ++
    field (payloadFieldNames .description) (nonEmpty e.description) ++
    field (payloadFieldNames .type) e.type ++
    field (payloadFieldNames .version) e.version ++
    child (payloadFieldNames .details) (some (e.details.getD (.object []))))

/-- The details of the meta payload, for the items that have some. -/
def detailsTree : Item → Option Json
  | .event _ => none
  | .dataSourceConfiguration _ => none
  | .timeseries t => some (.object (field (metaFieldNames .payloadDetailsConfigurationId) t.configurationId))
  | .file f =>
    some (.object (field (metaFieldNames .payloadDetailsFileName) f.remoteName ++
      field (metaFieldNames .payloadDetailsCreationDate) f.creationDate ++
      field (metaFieldNames .payloadDetailsFileType) f.type))
  | .customData c => c.details

def metaPayloadTree (item : Item) : Json :=
  .object (field (metaFieldNames .payloadType) (payloadType item) ++
    field (metaFieldNames .payloadVersion) (payloadVersion item) ++
    child (metaFieldNames .payloadDetails) (detailsTree item))

def metaTree (item : Item) : Json :=
  .object (field (metaFieldNames .type) (some itemType) ++
    field (metaFieldNames .version) (some itemVersion) ++
    child (metaFieldNames .payload) (some (metaPayloadTree item)))

theorem jsonFromTimeseriesValue_eq {v : TimeseriesValue} (h : v.validate = .ok ()) :
    jsonFromTimeseriesValue v = .ok (timeseriesValueTree v) := by
  obtain ⟨i, q, x, rfl⟩ := TimeseriesValue.of_validate h
  simp +decide [jsonFromTimeseriesValue, timeseriesValueTree, Json.lookup_append, bind, Except.bind, pure,
    Except.pure]

theorem jsonFromTimeseriesValueList_eq {l : TimeseriesValueList} (h : l.validate = .ok ()) :
    jsonFromTimeseriesValueList l = .ok (timeseriesValueListTree l) := by
  obtain ⟨-, -, hvalues⟩ := TimeseriesValueList.of_validate h
  have hfill := fillArrayUsingList_eq fun v hv => jsonFromTimeseriesValue_eq (hvalues v hv)
  rw [jsonFromTimeseriesValueList, hfill]
  simp +decide [timeseriesValueListTree, bind, Except.bind, pure, Except.pure]

theorem timeseriesPayloadJson_eq {t : Timeseries} (h : t.validate = .ok ()) :
    timeseriesPayloadJson t = .ok (timeseriesTree t) :=
  fillArrayUsingList_eq fun l hl => jsonFromTimeseriesValueList_eq ((Timeseries.of_validate h).2.2 l hl)

theorem jsonFromDataPoint_eq {p : DataPoint} (h : p.validate = .ok ()) :
    jsonFromDataPoint p = .ok (dataPointTree p) := by
  obtain ⟨_ | id, _ | name, description, _ | type, _ | unit, customData⟩ := p <;>
    simp only [DataPoint.validate_eq_ok, ne_eq, not_true_eq_false, false_and, and_false] at h
  simp +decide [jsonFromDataPoint, dataPointTree, Json.lookup_append, bind, Except.bind, pure, Except.pure]

theorem jsonFromDataSource_eq {s : DataSource} (h : s.validate = .ok ()) :
    jsonFromDataSource s = .ok (dataSourceTree s) := by
  obtain ⟨name, description, dataPoints, customData⟩ := s
  obtain ⟨hname, -, hpoints⟩ := DataSource.validate_eq_ok.1 h
  obtain ⟨name, rfl⟩ := Option.ne_none_iff_exists'.1 hname
  have hfill := fillArrayUsingList_eq fun p hp => jsonFromDataPoint_eq (hpoints p hp)
  rw [jsonFromDataSource, hfill]
  simp +decide [dataSourceTree, Json.lookup_append, bind, Except.bind, pure, Except.pure]

theorem dataSourceConfigurationPayloadJson_eq {c : DataSourceConfiguration} (h : c.validate = .ok ()) :
    dataSourceConfigurationPayloadJson c = .ok (dataSourceConfigurationTree c) := by
  obtain ⟨configurationId, dataSources⟩ := c
  obtain ⟨hid, -, hsources⟩ := DataSourceConfiguration.validate_eq_ok.1 h
  obtain ⟨id, rfl⟩ := Option.ne_none_iff_exists'.1 hid
  have hfill := fillArrayUsingList_eq fun s hs => jsonFromDataSource_eq (hsources s hs)
  rw [dataSourceConfigurationPayloadJson, hfill]
  simp +decide [dataSourceConfigurationTree, bind, Except.bind, pure, Except.pure]

theorem addEventToPayloadArray_eq {e : Event} (h : e.validate = .ok ()) :
    addEventToPayloadArray e = .ok (eventTree e) := by
  obtain ⟨-, ⟨type, htype⟩, version, hversion⟩ := Event.of_validate h
  simp only [addEventToPayloadArray, eventMembers, eventTree, htype, hversion]
  simp +decide [addStep, Json.lookup_append, Except.map]
  cases e.details <;> rfl

theorem addItemMetaPayloadDetails_eq {item : Item} (h : item.validate = .ok ()) {payload : Members}
    (hnew : Json.lookup (metaFieldNames .payloadDetails) payload = none) :
    addItemMetaPayloadDetails item payload =
      .ok (payload ++ child (metaFieldNames .payloadDetails) (detailsTree item)) := by
  cases item with
  | event e => simp [addItemMetaPayloadDetails, detailsTree, child]
  | dataSourceConfiguration c => simp [addItemMetaPayloadDetails, detailsTree, child]
  | timeseries t =>
    obtain ⟨⟨id, hid⟩, -⟩ := Timeseries.of_validate h
    have hdetails : timeseriesDetails t =
        .ok (.object (field (metaFieldNames .payloadDetailsConfigurationId) t.configurationId)) := by
      simp [timeseriesDetails, hid, bind, Except.bind, pure, Except.pure]
    rw [addItemMetaPayloadDetails, hdetails, startChild_eq hnew, detailsTree]
  | file f =>
    obtain ⟨⟨name, hname⟩, date, hdate, -⟩ := File.of_validate h
    have hdetails : fileDetails f = .ok (.object (field (metaFieldNames .payloadDetailsFileName) f.remoteName ++
        field (metaFieldNames .payloadDetailsCreationDate) f.creationDate ++
        field (metaFieldNames .payloadDetailsFileType) f.type)) := by
      simp +decide [fileDetails, hname, hdate, Json.lookup_append, bind, Except.bind, pure, Except.pure]
    rw [addItemMetaPayloadDetails, hdetails, startChild_eq hnew, detailsTree]
  | customData c => exact addObjectIfPresent_eq hnew c.details

theorem payloadType_isSome {item : Item} (h : item.validate = .ok ()) :
    (∃ type, payloadType item = some type) ∧ ∃ version, payloadVersion item = some version := by
  cases item with
  | customData c =>
    obtain ⟨-, -, htype, hversion, -⟩ := CustomData.of_validate h
    exact ⟨htype, hversion⟩
  | _ => exact ⟨⟨_, rfl⟩, ⟨_, rfl⟩⟩

theorem itemMetaJson_eq {item : Item} (h : item.validate = .ok ()) :
    itemMetaJson item = .ok (metaTree item) := by
  obtain ⟨⟨type, htype⟩, version, hversion⟩ := payloadType_isSome h
  simp +decide [itemMetaJson, itemMetaPayload, metaTree, metaPayloadTree, htype, hversion,
    addItemMetaPayloadDetails_eq h, Json.lookup_append, bind, Except.bind, pure, Except.pure]

/-- The JSON payload, for the items that have one. -/
def payloadTree : Item → Option Json
  | .event e => some (.array [eventTree e])
  | .dataSourceConfiguration c => some (dataSourceConfigurationTree c)
  | .timeseries t => some (timeseriesTree t)
  | .file _ => none
  | .customData _ => none

theorem jsonFromItemMeta_eq {item : Item} (h : item.validate = .ok ()) :
    jsonFromItemMeta item = JsonUtil.toString (metaTree item) := by
  rw [jsonFromItemMeta, itemMetaJson_eq h, Except.bind]

theorem jsonFromItemPayload_eq {item : Item} (h : item.validate = .ok ()) {json : Json}
    (hjson : payloadTree item = some json) : jsonFromItemPayload item = JsonUtil.toString json := by
  cases item with
  | event e =>
    obtain rfl : Json.array [eventTree e] = json := by simpa [payloadTree] using hjson
    rw [jsonFromItemPayload, itemPayloadJson, eventPayloadJson, addEventToPayloadArray_eq h, Except.map, Except.bind]
  | dataSourceConfiguration c =>
    obtain rfl : dataSourceConfigurationTree c = json := by simpa [payloadTree] using hjson
    rw [jsonFromItemPayload, itemPayloadJson, dataSourceConfigurationPayloadJson_eq h, Except.bind]
  | timeseries t =>
    obtain rfl : timeseriesTree t = json := by simpa [payloadTree] using hjson
    rw [jsonFromItemPayload, itemPayloadJson, timeseriesPayloadJson_eq h, Except.bind]
  | file f => cases hjson
  | customData c => cases hjson

end MindConnect
