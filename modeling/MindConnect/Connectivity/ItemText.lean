import MindConnect.Connectivity.JsonEncode
import MindConnect.Lib.JsonRead

/-!
# What serialization reads and what it leaves: the lists and cursors of an item behind `json.c`

| here | there |
| --- | --- |
| `fillArrayUsingList` | `_fill_array_using_list` (`json.c:797`) with the list behind it: every `mcl_list_next` moves its cursor |
| `startArray` | `mcl_json_util_start_array` and the filling of the new array |
| `jsonFromTimeseriesValueList`, … | the callbacks (`:1002`, `:900`) with the object behind them, whose own list is walked too |
| `jsonFromItemPayload`, `jsonFromItemMeta` | `json_from_item_payload` (`:370`), `json_from_item_meta` (`:324`) |
| `toString`, `PrintSpec` | **cJSON boundary**: `mcl_json_util_to_string`, taken to print what a JSON reader reads back |

The encoders of `JsonEncode` forget the cursors; `fst_…` says that the codes and trees are the same. `contents` of an
item is what is left of it without its cursors.
-/

namespace MindConnect.ItemText

open JsonUtil

/-! ## The code -/

/-- The loop; its array is the content so far. -/
def fillEach {α : Type} (callback : α → Result Json × α) : Nat → List Json → CursorList α →
    Result (List Json) × CursorList α
  | 0, array, list => (.ok array, list)
  | n + 1, array, list =>
    match list.next with
    | (none, list) => (.error .fail, list)
    | (some i, list) =>
      match list.seq[i]? with
      | none => (.error .fail, list)
      | some data =>
        match callback data with
        | (.error e, data) => (.error e, list.set i data)
        | (.ok json, data) => fillEach callback n (array ++ [json]) (list.set i data)

def fillArrayUsingList {α : Type} (callback : α → Result Json × α) (list : CursorList α) :
    Result Json × CursorList α :=
  let filled := fillEach callback list.count [] list.reset
  (filled.1.map Json.array, filled.2)

/-- A new member with the elements of a list; the list is not touched if the name exists. -/
def startArray {α : Type} (root : Members) (name : CString) (callback : α → Result Json × α)
    (list : CursorList α) : Result Members × CursorList α :=
  match checkName root name with
  | .error e => (.error e, list)
  | .ok () =>
    let filled := fillArrayUsingList callback list
    (filled.1.map fun array => root ++ [(name, array)], filled.2)

/-- A value has no list. -/
def jsonFromTimeseriesValue (v : TimeseriesValue) : Result Json × TimeseriesValue :=
  (MindConnect.jsonFromTimeseriesValue v, v)

def jsonFromTimeseriesValueList (l : TimeseriesValueList) : Result Json × TimeseriesValueList :=
  match addString [] (payloadFieldNames .timestamp) (some l.timestamp) with
  | .error e => (.error e, l)
  | .ok json =>
    let started := startArray json (payloadFieldNames .values) jsonFromTimeseriesValue l.values
    (started.1.map Json.object, { l with values := started.2 })

def timeseriesPayloadJson (t : Timeseries) : Result Json × Timeseries :=
  let filled := fillArrayUsingList jsonFromTimeseriesValueList t.valueLists
  (filled.1, { t with valueLists := filled.2 })

/-- A data point has no list. -/
def jsonFromDataPoint (p : DataPoint) : Result Json × DataPoint := (MindConnect.jsonFromDataPoint p, p)

def jsonFromDataSource (s : DataSource) : Result Json × DataSource :=
  match (addString [] (payloadFieldNames .dataSourcesName) s.name).bind fun json =>
      addStringIfPresent json (payloadFieldNames .description) s.description with
  | .error e => (.error e, s)
  | .ok json =>
    let started := startArray json (payloadFieldNames .dataSourcesDataPoints) jsonFromDataPoint s.dataPoints
    ((started.1.bind fun json => addObjectIfPresent json (payloadFieldNames .customData) s.customData).map Json.object,
      { s with dataPoints := started.2 })

def dataSourceConfigurationPayloadJson (c : DataSourceConfiguration) : Result Json × DataSourceConfiguration :=
  match addString [] (payloadFieldNames .configurationId) c.configurationId with
  | .error e => (.error e, c)
  | .ok json =>
    let started := startArray json (payloadFieldNames .dataSources) jsonFromDataSource c.dataSources
    (started.1.map Json.object, { c with dataSources := started.2 })

def itemPayloadJson : Item → Result Json × Item
  | .event e => (eventPayloadJson e, .event e)
  | .dataSourceConfiguration c =>
    let json := dataSourceConfigurationPayloadJson c
    (json.1, .dataSourceConfiguration json.2)
  | .timeseries t =>
    let json := timeseriesPayloadJson t
    (json.1, .timeseries json.2)
  | .file f => (.error .fail, .file f)
  | .customData c => (.error .fail, .customData c)

section
variable (toString : Json → Result Bytes)

def jsonFromItemPayload (item : Item) : Result Bytes × Item :=
  let json := itemPayloadJson item
  (json.1.bind toString, json.2)

/-- Nothing of the meta is behind a cursor. -/
def jsonFromItemMeta (item : Item) : Result Bytes := (itemMetaJson item).bind toString

end

/-- What is printed of a tree is read back as that tree. -/
def Prints (toString : Json → Result Bytes) (json : Json) : Prop :=
  ∃ text, toString json = .ok text ∧ Json.read text = some json

/-- The numbers of a tree come as texts of numbers; every string is allowed. -/
def PrintSpec (toString : Json → Result Bytes) : Prop := ∀ json, Json.Readable json → Prints toString json

/-! ## The same trees -/

section
variable {α β : Type} {callback : α → Result Json × α}

theorem fillEach_fst (array : List Json) (pre suf : List α) :
    (fillEach callback suf.length array (.split pre suf)).1 =
      suf.foldlM (fun array x => ((callback x).1).map fun json => array ++ [json]) array := by
  induction suf generalizing array pre with
  | nil => rfl
  | cons x suf ih =>
    have hx : (CursorList.split (pre ++ [x]) suf).seq[pre.length]? = some x := by simp [CursorList.split]
    simp only [List.length_cons, fillEach, CursorList.next_split_cons, hx, List.foldlM_cons]
    rcases callback x with ⟨e | json, data⟩
    · rfl
    · simp only [CursorList.set_split, ih]
      rfl

/-- What a callback leaves of an element, the loop leaves of the whole list, also where it stops. -/
theorem fillEach_map {contents : α → β} (h : ∀ x, contents (callback x).2 = contents x) (array : List Json)
    (pre suf : List α) :
    (fillEach callback suf.length array (.split pre suf)).2.seq.map contents = (pre ++ suf).map contents := by
  induction suf generalizing array pre with
  | nil => simp [fillEach]
  | cons x suf ih =>
    have hx : (CursorList.split (pre ++ [x]) suf).seq[pre.length]? = some x := by simp [CursorList.split]
    have hdata := h x
    simp only [List.length_cons, fillEach, CursorList.next_split_cons, hx]
    generalize callback x = result at hdata
    obtain ⟨e | json, data⟩ := result
    · simp [CursorList.set_split, hdata]
    · simp only [CursorList.set_split, ih]
      simp [hdata]

theorem fillArrayUsingList_fst (list : CursorList α) :
    (fillArrayUsingList callback list).1 = MindConnect.fillArrayUsingList (fun x => (callback x).1) list := by
  rw [fillArrayUsingList, MindConnect.fillArrayUsingList, CursorList.forEach_reset, CursorList.reset_eq_split,
    CursorList.count, fillEach_fst]

theorem fillArrayUsingList_map {contents : α → β} (h : ∀ x, contents (callback x).2 = contents x)
    (list : CursorList α) : (fillArrayUsingList callback list).2.seq.map contents = list.seq.map contents :=
  fillEach_map h [] [] list.seq

theorem startArray_fst (root : Members) (name : CString) (list : CursorList α) :
    (startArray root name callback list).1 =
      startChild root name (MindConnect.fillArrayUsingList (fun x => (callback x).1) list) := by
  rw [startArray, startChild, ← fillArrayUsingList_fst]
  rcases checkName root name with e | u
  · rfl
  · rcases fillArrayUsingList callback list with ⟨e | array, list'⟩ <;> rfl

theorem startArray_map {contents : α → β} (h : ∀ x, contents (callback x).2 = contents x) (root : Members)
    (name : CString) (list : CursorList α) :
    (startArray root name callback list).2.seq.map contents = list.seq.map contents := by
  rw [startArray]
  rcases checkName root name with e | u
  · rfl
  · exact fillArrayUsingList_map h list

/-- A callback that leaves the element alone. -/
theorem seq_startArray (h : ∀ x, (callback x).2 = x) (root : Members) (name : CString) (list : CursorList α) :
    (startArray root name callback list).2.seq = list.seq := by
  have hid : ∀ x, id (callback x).2 = id x := h
  simpa using startArray_map hid root name list

end

theorem fst_timeseriesValueList (l : TimeseriesValueList) :
    (jsonFromTimeseriesValueList l).1 = MindConnect.jsonFromTimeseriesValueList l := by
  rw [jsonFromTimeseriesValueList, MindConnect.jsonFromTimeseriesValueList]
  rcases addString [] (payloadFieldNames .timestamp) (some l.timestamp) with e | json
  · rfl
  · simp only [startArray_fst]
    rfl

theorem fst_timeseries (t : Timeseries) : (timeseriesPayloadJson t).1 = MindConnect.timeseriesPayloadJson t := by
  simp only [timeseriesPayloadJson, fillArrayUsingList_fst, fst_timeseriesValueList]
  rfl

theorem fst_dataSource (s : DataSource) : (jsonFromDataSource s).1 = MindConnect.jsonFromDataSource s := by
  rw [jsonFromDataSource, MindConnect.jsonFromDataSource]
  rcases addString [] (payloadFieldNames .dataSourcesName) s.name with e | json
  · rfl
  · simp only [bind, Except.bind]
    rcases addStringIfPresent json (payloadFieldNames .description) s.description with e | json
    · rfl
    · simp only [startArray_fst, jsonFromDataPoint]
      rcases startChild json (payloadFieldNames .dataSourcesDataPoints) _ with e | json
      · rfl
      · rfl

theorem fst_dataSourceConfiguration (c : DataSourceConfiguration) :
    (dataSourceConfigurationPayloadJson c).1 = MindConnect.dataSourceConfigurationPayloadJson c := by
  rw [dataSourceConfigurationPayloadJson, MindConnect.dataSourceConfigurationPayloadJson]
  rcases addString [] (payloadFieldNames .configurationId) c.configurationId with e | json
  · rfl
  · simp only [startArray_fst, fst_dataSource]
    rfl

theorem fst_itemPayload (item : Item) : (itemPayloadJson item).1 = MindConnect.itemPayloadJson item := by
  cases item with
  | event e => rfl
  | dataSourceConfiguration c => exact fst_dataSourceConfiguration c
  | timeseries t => exact fst_timeseries t
  | file f => rfl
  | customData c => rfl

/-! ## The same contents -/

def valueListContents (l : TimeseriesValueList) : CString × List TimeseriesValue := (l.timestamp, l.values.seq)

def timeseriesContents (t : Timeseries) : Option CString × List (CString × List TimeseriesValue) :=
  (t.configurationId, t.valueLists.seq.map valueListContents)

def dataSourceContents (s : DataSource) : Option CString × Option CString × List DataPoint × Option Json :=
  (s.name, s.description, s.dataPoints.seq, s.customData)

def configurationContents (c : DataSourceConfiguration) :
    Option CString × List (Option CString × Option CString × List DataPoint × Option Json) :=
  (c.configurationId, c.dataSources.seq.map dataSourceContents)

/-- Up to the cursors. -/
def SameContents : Item → Item → Prop
  | .timeseries t, .timeseries t' => timeseriesContents t = timeseriesContents t'
  | .dataSourceConfiguration c, .dataSourceConfiguration c' => configurationContents c = configurationContents c'
  | item, item' => item = item'

theorem contents_timeseriesValueList (l : TimeseriesValueList) :
    valueListContents (jsonFromTimeseriesValueList l).2 = valueListContents l := by
  rw [jsonFromTimeseriesValueList]
  rcases addString [] (payloadFieldNames .timestamp) (some l.timestamp) with e | json
  · rfl
  · have hvalues := seq_startArray (fun v => rfl : ∀ v, (jsonFromTimeseriesValue v).2 = v) json
      (payloadFieldNames .values) l.values
    simp only [valueListContents, hvalues]

theorem contents_timeseries (t : Timeseries) :
    timeseriesContents (timeseriesPayloadJson t).2 = timeseriesContents t := by
  simp only [timeseriesPayloadJson, timeseriesContents, fillArrayUsingList_map contents_timeseriesValueList]

theorem contents_dataSource (s : DataSource) : dataSourceContents (jsonFromDataSource s).2 = dataSourceContents s := by
  rw [jsonFromDataSource]
  generalize Except.bind _ _ = root
  rcases root with e | json
  · rfl
  · have hpoints := seq_startArray (fun p => rfl : ∀ p, (jsonFromDataPoint p).2 = p) json
      (payloadFieldNames .dataSourcesDataPoints) s.dataPoints
    simp only [dataSourceContents, hpoints]

theorem contents_dataSourceConfiguration (c : DataSourceConfiguration) :
    configurationContents (dataSourceConfigurationPayloadJson c).2 = configurationContents c := by
  rw [dataSourceConfigurationPayloadJson]
  rcases addString [] (payloadFieldNames .configurationId) c.configurationId with e | json
  · rfl
  · simp only [configurationContents, startArray_map contents_dataSource]

/-- Serialization moves cursors and nothing else, for every item and whatever its code. -/
theorem itemPayloadJson_contents (item : Item) : SameContents (itemPayloadJson item).2 item := by
  cases item with
  | event e => rfl
  | dataSourceConfiguration c => exact contents_dataSourceConfiguration c
  | timeseries t => exact contents_timeseries t
  | file f => rfl
  | customData c => rfl

/-! ## What a timeseries is decoded to -/

/-- One object with exactly the three strings of a value. -/
def IsValue (json : Json) (v : TimeseriesValue) : Prop :=
  ∃ dataPointId value qualityCode, v = ⟨some dataPointId, some qualityCode, some value⟩ ∧
    json = .object [(.lit "dataPointId", .string dataPointId), (.lit "value", .string value),
      (.lit "qualityCode", .string qualityCode)]

/-- One object with exactly the timestamp and, in order, the values of a list. -/
def IsValueList (json : Json) (l : TimeseriesValueList) : Prop :=
  ∃ values, json = .object [(.lit "timestamp", .string l.timestamp), (.lit "values", .array values)] ∧
    List.Forall₂ IsValue values l.values.seq

/-- The meta of a timeseries with this configuration id. -/
def timeseriesMeta (configurationId : CString) : Json :=
  .object [(.lit "type", .string (.lit "item")), (.lit "version", .string (.lit "1.0")),
    (.lit "payload", .object [(.lit "type", .string (.lit "standardTimeSeries")),
      (.lit "version", .string (.lit "1.0")),
      (.lit "details", .object [(.lit "configurationId", .string configurationId)])])]

theorem isValue_tree {v : TimeseriesValue} (h : v.validate = .ok ()) : IsValue (timeseriesValueTree v) v := by
  obtain ⟨dataPointId, qualityCode, value, rfl⟩ := TimeseriesValue.of_validate h
  exact ⟨dataPointId, value, qualityCode, rfl, rfl⟩

theorem isValueList_tree {l : TimeseriesValueList} (h : l.validate = .ok ()) :
    IsValueList (timeseriesValueListTree l) l := by
  obtain ⟨-, -, hvalues⟩ := TimeseriesValueList.of_validate h
  refine ⟨l.values.seq.map timeseriesValueTree, rfl, ?_⟩
  rw [List.forall₂_map_left_iff]
  exact List.forall₂_same.2 fun v hv => isValue_tree (hvalues v hv)

theorem readable_timeseriesValueTree (v : TimeseriesValue) : Json.Readable (timeseriesValueTree v) := by
  obtain ⟨_ | i, _ | q, _ | x⟩ := v <;>
    simp [timeseriesValueTree, field, Json.Readable, Json.ReadableMembers]

theorem readableElements_map {α : Type} {tree : α → Json} (h : ∀ x, Json.Readable (tree x)) (xs : List α) :
    Json.ReadableElements (xs.map tree) := by
  induction xs with
  | nil => trivial
  | cons x xs ih => exact ⟨h x, ih⟩

theorem readable_timeseriesTree (t : Timeseries) : Json.Readable (timeseriesTree t) := by
  refine readableElements_map (fun l => ?_) t.valueLists.seq
  exact ⟨trivial, readableElements_map readable_timeseriesValueTree l.values.seq, trivial⟩

theorem metaTree_timeseries {t : Timeseries} {id : CString} (h : t.configurationId = some id) :
    metaTree (.timeseries t) = timeseriesMeta id := by
  rw [metaTree, metaPayloadTree, detailsTree, h]
  rfl

theorem readable_timeseriesMeta (id : CString) : Json.Readable (timeseriesMeta id) := by
  simp [timeseriesMeta, Json.Readable, Json.ReadableMembers]

variable {toString : Json → Result Bytes}

/-- With a printer that does its work on the two trees of a valid timeseries. -/
theorem timeseries_faithful_of_prints {t : Timeseries} (h : t.validate = .ok ()) {id : CString}
    (hid : t.configurationId = some id) (hpayload : Prints toString (timeseriesTree t))
    (hmeta : Prints toString (timeseriesMeta id)) :
    (∃ text lists, (jsonFromItemPayload toString (.timeseries t)).1 = .ok text ∧
      Json.read text = some (.array lists) ∧ List.Forall₂ IsValueList lists t.valueLists.seq) ∧
    (∃ t', (jsonFromItemPayload toString (.timeseries t)).2 = .timeseries t' ∧
      timeseriesContents t' = timeseriesContents t) ∧
    ∃ text, jsonFromItemMeta toString (.timeseries t) = .ok text ∧ Json.read text = some (timeseriesMeta id) := by
  obtain ⟨text, htext, hread⟩ := hpayload
  obtain ⟨metaText, hmetaText, hmetaRead⟩ := hmeta
  obtain ⟨-, -, hlists⟩ := Timeseries.of_validate h
  refine ⟨⟨text, t.valueLists.seq.map timeseriesValueListTree, ?_, hread, ?_⟩,
    ⟨(timeseriesPayloadJson t).2, rfl, contents_timeseries t⟩, metaText, ?_, hmetaRead⟩
  · have htree : (itemPayloadJson (.timeseries t)).1 = .ok (timeseriesTree t) :=
      (fst_timeseries t).trans (timeseriesPayloadJson_eq h)
    rw [jsonFromItemPayload, htree]
    exact htext
  · rw [List.forall₂_map_left_iff]
    exact List.forall₂_same.2 fun l hl => isValueList_tree (hlists l hl)
  · have htree : itemMetaJson (.timeseries t) = .ok (metaTree (.timeseries t)) := itemMetaJson_eq h
    rw [jsonFromItemMeta, htree, metaTree_timeseries hid]
    exact hmetaText

/-- The text of a valid timeseries is decoded to its lists and values in order, its meta to its configuration id, and
the contents of its lists are as before. -/
theorem timeseries_faithful (hprint : PrintSpec toString) {t : Timeseries} (h : t.validate = .ok ()) :
    (∃ text lists, (jsonFromItemPayload toString (.timeseries t)).1 = .ok text ∧
      Json.read text = some (.array lists) ∧ List.Forall₂ IsValueList lists t.valueLists.seq) ∧
    (∃ t', (jsonFromItemPayload toString (.timeseries t)).2 = .timeseries t' ∧
      timeseriesContents t' = timeseriesContents t) ∧
    ∃ text id, jsonFromItemMeta toString (.timeseries t) = .ok text ∧ t.configurationId = some id ∧
      Json.read text = some (timeseriesMeta id) := by
  obtain ⟨⟨id, hid⟩, -⟩ := Timeseries.of_validate h
  obtain ⟨hpayload, hcontents, text, htext, hread⟩ := timeseries_faithful_of_prints h hid
    (hprint _ (readable_timeseriesTree t)) (hprint _ (readable_timeseriesMeta id))
  exact ⟨hpayload, hcontents, text, id, htext, hid, hread⟩

/-- Two values, then one; the cursors stand past the end, on the second value and on the only one. -/
private def sampleTimeseries : Timeseries where
  configurationId := some (.lit "cfg")
  valueLists :=
    { seq :=
        [{ timestamp := .lit "2019-01-31T23:59:59.999Z"
           values := ⟨[⟨some (.lit "p"), some (.lit "0"), some (.lit "1")⟩,
            ⟨some (.lit "q"), some (.lit "0"), some (.lit "\"2\"")⟩], 1, by decide⟩ },
          { timestamp := .lit "2019-02-01T00:00:00.000Z"
            values := ⟨[⟨some (.lit "p"), some (.lit "1"), some (.lit "3")⟩], 0, by decide⟩ }]
      cursor := 2
      cursor_le := by decide }

theorem sampleTimeseries_faithful :
    (∃ text lists, (jsonFromItemPayload (fun json => .ok json.print) (.timeseries sampleTimeseries)).1 = .ok text ∧
      Json.read text = some (.array lists) ∧ List.Forall₂ IsValueList lists sampleTimeseries.valueLists.seq) ∧
    (∃ t', (jsonFromItemPayload (fun json => .ok json.print) (.timeseries sampleTimeseries)).2 = .timeseries t' ∧
      timeseriesContents t' = timeseriesContents sampleTimeseries) ∧
    ∃ text id, jsonFromItemMeta (fun json => .ok json.print) (.timeseries sampleTimeseries) = .ok text ∧
      sampleTimeseries.configurationId = some id ∧ Json.read text = some (timeseriesMeta id) :=
  timeseries_faithful (fun json hreadable => ⟨json.print, rfl, Json.read_print hreadable⟩) (by decide)

/-! ## The printer of `JsonUtil` -/

theorem jsonFromItemPayload_toString (item : Item) :
    (jsonFromItemPayload JsonUtil.toString item).1 = MindConnect.jsonFromItemPayload item := by
  rw [jsonFromItemPayload, MindConnect.jsonFromItemPayload, fst_itemPayload]

/-- What cJSON itself prints, as long as its buffer has room for it. -/
theorem prints_toString {json : Json} (hreadable : Json.Readable json) (hroom : json.print.length + 2 ≤ intMax) :
    Prints JsonUtil.toString json :=
  ⟨json.print, if_pos hroom, Json.read_print hreadable⟩

end MindConnect.ItemText
