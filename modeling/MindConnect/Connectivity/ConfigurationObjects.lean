import MindConnect.Connectivity.JsonParse
import MindConnect.Core.ParsedValues

/-!
# The objects of a parsed data source configuration

The parser of `JsonParse` once more, with what it creates, hands on and destroys, and with every allocation that may
fail.

| here | there |
| --- | --- |
| `DataPointObject`, … | `data_point_t`, `data_source_t`, `data_source_configuration_t` and its payload, each with its pointers |
| `mclDataPointDestroy`, … | `mcl_data_point_destroy` (`data_point.c:108`), `mcl_data_source_destroy` (`data_source.c:147`), `mcl_data_source_configuration_destroy` (`data_source_configuration.c:155`) |
| `mclDataSourceInitialize`, … | the functions of these names |
| `destroyCallback` | `destroy_callback(a_struct)` (`json.c:1446`): the struct itself, not the address of its pointer |
| `parseDataPoint`, `parseDataSource`, `parseDataSourceConfiguration` | the functions of these names (`json.c:1454`, `:1522`, `:1588`) |

`dataPointOf`, … are the values alone; `parseDataSourceConfiguration_reads` says that the parser comes to them.
-/

namespace MindConnect.ParsedObjects

open JsonUtil ObjectStore

/-! ## Structs -/

/-- A data point at its address, with a pointer for each string. -/
structure DataPointObject where
  ref : Nat
  id : Option StringObject
  name : Option StringObject
  description : Option StringObject
  type : Option StringObject
  unit : Option StringObject
  customData : Option JsonObject

/-- The list of data points is an object as well. -/
structure DataSourceObject where
  ref : Nat
  name : Option StringObject
  description : Option StringObject
  dataPoints : Option (ListObject DataPointObject)
  customData : Option JsonObject

/-- The payload is a struct behind a pointer, so it may be missing. -/
structure PayloadObject where
  ref : Nat
  configurationId : Option StringObject
  dataSources : Option (ListObject DataSourceObject)

structure ConfigurationObject where
  ref : Nat
  payload : Option PayloadObject

instance : HasObjects DataPointObject :=
  ⟨fun p => {(.dataPoint, p.ref)} + [objects p.id, objects p.name, objects p.description, objects p.type,
    objects p.unit, objects p.customData].sum⟩

instance : HasObjects DataSourceObject :=
  ⟨fun x => {(.dataSource, x.ref)} + [objects x.name, objects x.description, objects x.dataPoints,
    objects x.customData].sum⟩

instance : HasObjects PayloadObject :=
  ⟨fun x => {(.dataSourceConfigurationPayload, x.ref)} + [objects x.configurationId, objects x.dataSources].sum⟩

instance : HasObjects ConfigurationObject :=
  ⟨fun x => {(.dataSourceConfiguration, x.ref)} + [objects x.payload].sum⟩

/-- Every string, the custom data and then the struct. -/
def mclDataPointDestroy : Option DataPointObject → Store → Store :=
  destroyStruct .dataPoint DataPointObject.ref fun p =>
    [mclFree p.id, mclFree p.name, mclFree p.description, mclFree p.type, mclFree p.unit, mclFree p.customData]

/-- The list goes with its data points. -/
def mclDataSourceDestroy : Option DataSourceObject → Store → Store :=
  destroyStruct .dataSource DataSourceObject.ref fun x =>
    [mclFree x.name, mclFree x.description, mclListDestroyWithContent mclDataPointDestroy x.dataPoints,
      mclFree x.customData]

/-- The payload has no destroy function of its own; it is destroyed if it is there. -/
def destroyPayload : Option PayloadObject → Store → Store :=
  destroyStruct .dataSourceConfigurationPayload PayloadObject.ref fun x =>
    [mclFree x.configurationId, mclListDestroyWithContent mclDataSourceDestroy x.dataSources]

def mclDataSourceConfigurationDestroy : Option ConfigurationObject → Store → Store :=
  destroyStruct .dataSourceConfiguration ConfigurationObject.ref fun x =>
    x.payload.toList.map fun payload => destroyPayload (some payload)

/-- A data point whose members are all null pointers. -/
def mclDataPointInitialize (allocated : Bool) : Run DataPointObject :=
  mclNew .dataPoint allocated (⟨·, none, none, none, none, none, none⟩)

/-- The list is created with the data source, and the data source is destroyed if it could not be. -/
def mclDataSourceInitialize (m : Memory) : Run DataSourceObject :=
  construct (mclNew .dataSource (m [0]) (⟨·, none, none, none, none⟩))
    [setting (mclListInitialize (m [1])) fun dataPoints x => { x with dataPoints }] id mclDataSourceDestroy

/-- The payload stays where its list could not be created. -/
def initializePayload (m : Memory) : Run PayloadObject :=
  filled (mclNew .dataSourceConfigurationPayload (m [1]) (⟨·, none, none⟩))
    [setting (mclListInitialize (m [2])) fun dataSources x => { x with dataSources }] id

/-- Three allocations: the struct, its payload and the list of the payload. -/
def mclDataSourceConfigurationInitialize (m : Memory) : Run ConfigurationObject :=
  construct (mclNew .dataSourceConfiguration (m [0]) (⟨·, none⟩))
    [setting (initializePayload m) fun payload x => { x with payload }] id mclDataSourceConfigurationDestroy

/-! ## The parser -/

/-- `_parse_and_get_string_value` -/
def stringValue (allocated : Bool) (json : Json) (name : CString) : Result (Option CString) := do
  let object ← getObjectItem json name
  getString object allocated

/-- Custom data that is absent needs no memory. -/
def customDataValue (allocated : Bool) (json : Json) : Result (Option Json) := do
  match ← parseCustomData json with
  | none => return none
  | some customData => if allocated then return some customData else throw .outOfMemory

/-- A mandatory string, which is duplicated. -/
def parseString (allocated : Bool) (json : Json) (name : PayloadFieldName) : Run StringObject :=
  makes .string (stringValue allocated json (payloadFieldNames name))

/-- A missing string is a null pointer. -/
def parseStringIfExists (allocated : Bool) (json : Json) (name : PayloadFieldName) : Run StringObject :=
  makes .string (ifExists (stringValue allocated json (payloadFieldNames name)))

def duplicateCustomData (allocated : Bool) (json : Json) : Run JsonObject :=
  makes .json (customDataValue allocated json)

/-- The callback gets the struct where it expects the address of the pointer to it. -/
def destroyCallback {α : Type} (kind : Kind) (ref : α → Nat) (aStruct : Option α) (s : Store) : Store :=
  s.call kind ((aStruct.map fun x => Argument.object (ref x)).getD .null)

/-- `_fill_list_using_json_array` (`json.c:1411`) -/
def fillListUsingJsonArray {α : Type} (w : Nat) (m : Memory) (jsonArray : Json) (parse : Memory → Json → Run α)
    (callback : Option α → Store → Store) (list : Option (ListObject α)) (s : Store) :
    Result Unit × Option (ListObject α) × Store :=
  match getArraySize w jsonArray with
  | .error e => (.error e, list, s)
  | .ok arraySize => parseItems m jsonArray parse callback arraySize.toNat 0 list s

/-- The last step of two parsers: the list of the struct is filled in place. -/
def fillField {α σ : Type} (w : Nat) (m : Memory) (json : Json) (name : PayloadFieldName)
    (parse : Memory → Json → Run α) (callback : Option α → Store → Store) (list : σ → Option (ListObject α))
    (set : Option (ListObject α) → σ → σ) : Step σ := fun x s =>
  match getObjectItem json (payloadFieldNames name) with
  | .error e => (.error e, x, s)
  | .ok array =>
    let filled := fillListUsingJsonArray w m array parse callback (list x) s
    (filled.1, set filled.2.1 x, filled.2.2)

/-- A data point that was not read to its end is destroyed. -/
def parseDataPoint (m : Memory) (json : Json) : Run DataPointObject :=
  construct (mclDataPointInitialize (m [0])) [
    setting (parseString (m [1]) json .id) fun id p => { p with id },
    setting (parseString (m [2]) json .dataSourcesDataPointsName) fun name p => { p with name },
    setting (parseString (m [3]) json .dataSourcesDataPointsType) fun type p => { p with type },
    setting (parseString (m [4]) json .dataSourcesDataPointsUnit) fun unit p => { p with unit },
    setting (parseStringIfExists (m [5]) json .description) fun description p => { p with description },
    setting (duplicateCustomData (m [6]) json) fun customData p => { p with customData }] id mclDataPointDestroy

/-- The data points come last, into the list that is already there. -/
def parseDataSource (w : Nat) (m : Memory) (json : Json) : Run DataSourceObject :=
  construct (mclDataSourceInitialize m) [
    setting (parseString (m [2]) json .dataSourcesName) fun name x => { x with name },
    setting (parseStringIfExists (m [3]) json .description) fun description x => { x with description },
    setting (duplicateCustomData (m [4]) json) fun customData x => { x with customData },
    fillField w (m.of 5) json .dataSourcesDataPoints parseDataPoint (destroyCallback .dataPoint DataPointObject.ref)
      DataSourceObject.dataPoints fun dataPoints x => { x with dataPoints }] id mclDataSourceDestroy

/-- Fields of the payload. -/
def ConfigurationObject.withPayload (f : PayloadObject → PayloadObject) (x : ConfigurationObject) :
    ConfigurationObject :=
  { x with payload := x.payload.map f }

def ConfigurationObject.dataSources (x : ConfigurationObject) : Option (ListObject DataSourceObject) :=
  x.payload.bind PayloadObject.dataSources

def parseDataSourceConfiguration (w : Nat) (m : Memory) (json : Json) : Run ConfigurationObject :=
  construct (mclDataSourceConfigurationInitialize m) [
    setting (parseString (m [3]) json .configurationId) fun configurationId =>
      .withPayload ({ · with configurationId }),
    fillField w (m.of 4) json .dataSources (parseDataSource w) (destroyCallback .dataSource DataSourceObject.ref)
      ConfigurationObject.dataSources fun dataSources => .withPayload ({ · with dataSources })]
    id mclDataSourceConfigurationDestroy

/-- `json_parse_item` (`json.c:467`) -/
def jsonParseItem (w : Nat) (m : Memory) (parse : Bytes → Option Json) (text : Bytes) :
    Result Unit × Option (Option ConfigurationObject) × Store :=
  parseText parse (parseDataSourceConfiguration w m) text .empty

/-! ## The values alone -/

/-- The allocations are numbered as in `parseDataPoint`. -/
def dataPointOf (m : Memory) (json : Json) : Result DataPoint := do
  allocate (m [0])
  let id ← stringValue (m [1]) json (payloadFieldNames .id)
  let name ← stringValue (m [2]) json (payloadFieldNames .dataSourcesDataPointsName)
  let type ← stringValue (m [3]) json (payloadFieldNames .dataSourcesDataPointsType)
  let unit ← stringValue (m [4]) json (payloadFieldNames .dataSourcesDataPointsUnit)
  let description ← ifExists (stringValue (m [5]) json (payloadFieldNames .description))
  let customData ← customDataValue (m [6]) json
  return ⟨id, name, description, type, unit, customData⟩

/-- What a data source has before its data points, and the array of these. -/
def dataSourceHead (m : Memory) (json : Json) :
    Result (Option CString × Option CString × Option Json × Json) := do
  allocate (m [0])
  allocate (m [1])
  let name ← stringValue (m [2]) json (payloadFieldNames .dataSourcesName)
  let description ← ifExists (stringValue (m [3]) json (payloadFieldNames .description))
  let customData ← customDataValue (m [4]) json
  let dataPointArray ← getObjectItem json (payloadFieldNames .dataSourcesDataPoints)
  return (name, description, customData, dataPointArray)

/-- The data points are read behind everything else. -/
def dataSourceOf (w : Nat) (m : Memory) (json : Json) : Result DataSource := do
  let (name, description, customData, dataPointArray) ← dataSourceHead m json
  let arraySize ← getArraySize w dataPointArray
  let dataPoints ← itemsOf (m.of 5) dataPointArray dataPointOf arraySize.toNat 0 .empty
  return ⟨name, description, dataPoints, customData⟩

def configurationHead (m : Memory) (json : Json) : Result (Option CString × Json) := do
  allocate (m [0])
  allocate (m [1])
  allocate (m [2])
  let configurationId ← stringValue (m [3]) json (payloadFieldNames .configurationId)
  let dataSourceArray ← getObjectItem json (payloadFieldNames .dataSources)
  return (configurationId, dataSourceArray)

/-- The allocations are those of `parseDataSourceConfiguration`. -/
def configurationOf (w : Nat) (m : Memory) (json : Json) : Result DataSourceConfiguration := do
  let (configurationId, dataSourceArray) ← configurationHead m json
  let arraySize ← getArraySize w dataSourceArray
  let dataSources ← itemsOf (m.of 4) dataSourceArray (dataSourceOf w) arraySize.toNat 0 .empty
  return ⟨configurationId, dataSources⟩

/-! ## What is read -/

/-- A data point without its objects. -/
def DataPointObject.dataPoint (p : DataPointObject) : DataPoint :=
  ⟨p.id.map Leaf.value, p.name.map Leaf.value, p.description.map Leaf.value, p.type.map Leaf.value,
    p.unit.map Leaf.value, p.customData.map Leaf.value⟩

def DataSourceObject.dataSource (x : DataSourceObject) : DataSource :=
  ⟨x.name.map Leaf.value, x.description.map Leaf.value,
    (x.dataPoints.map (ListObject.cursorList DataPointObject.dataPoint)).getD .empty, x.customData.map Leaf.value⟩

/-- A payload that is missing has no data sources. -/
def ConfigurationObject.configuration (x : ConfigurationObject) : DataSourceConfiguration :=
  ⟨(x.payload.bind PayloadObject.configurationId).map Leaf.value,
    (x.dataSources.map (ListObject.cursorList DataSourceObject.dataSource)).getD .empty⟩

/-- One lemma for each member, in the order of the chain. -/
theorem parseDataPoint_reads (m : Memory) (json : Json) :
    Reads DataPointObject.dataPoint ((dataPointOf m json).map some) (parseDataPoint m json) := by
  refine construct_new_reads (fun _ => rfl) fun n => ?_
  refine inRow_setting_reads (makes_reads _ _) fun id => ?_
  refine inRow_setting_reads (makes_reads _ _) fun name => ?_
  refine inRow_setting_reads (makes_reads _ _) fun type => ?_
  refine inRow_setting_reads (makes_reads _ _) fun unit => ?_
  refine inRow_setting_reads (makes_reads _ _) fun description => ?_
  refine inRow_setting_reads (makes_reads _ _) fun customData => ?_
  exact inRow_nil_reads rfl

section
variable {α β σ τ : Type} {value : α → β} {m : Memory} {array : Json} {of : Memory → Json → Result β}
  {parse : Memory → Json → Run α} {cleanUp : Option α → Store → Store}

/-- Filling a list that is empty comes to reading the items of the array. -/
theorem fillField_reads (hreads : ∀ m item, Reads value ((of m item).map some) (parse m item)) {w : Nat} {json : Json}
    {name : PayloadFieldName} {list : σ → Option (ListObject α)} {set : Option (ListObject α) → σ → σ} {x : σ}
    {l : ListObject α} (hlist : list x = some l) (hempty : l.cursorList value = .empty) {read : σ → τ}
    {rest : CursorList β → Result τ} (hrest : ∀ l', rest (l'.cursorList value) = .ok (read (set (some l') x))) :
    RowReads read (do
      let array ← getObjectItem json (payloadFieldNames name)
      let arraySize ← getArraySize w array
      let ys ← itemsOf m array of arraySize.toNat 0 .empty
      rest ys) [fillField w m json name parse cleanUp list set] x := by
  intro s
  simp only [inRow, fillField, bind, Except.bind]
  cases getObjectItem json (payloadFieldNames name) with
  | error e => exact ⟨rfl, fun y hy => by cases hy⟩
  | ok array =>
    simp only [fillListUsingJsonArray, hlist]
    cases getArraySize w array with
    | error e => exact ⟨rfl, fun y hy => by cases hy⟩
    | ok arraySize =>
      have hof : ∀ m item, of m item = present ((of m item).map some) := fun m item => (present_map_some _).symm
      obtain ⟨hcode, hvalue⟩ := @parseItems_reads α β value m array of parse cleanUp _ hreads hof arraySize.toNat 0 l s
      rw [hempty] at hcode hvalue
      simp only
      generalize parseItems m array parse cleanUp arraySize.toNat 0 (some l) s = result at hcode hvalue ⊢
      obtain ⟨code, p, s'⟩ := result
      cases hof : itemsOf m array of arraySize.toNat 0 .empty with
      | error e =>
        rw [hof] at hcode
        obtain rfl : code = .error e := hcode
        exact ⟨rfl, fun ys hys => by cases hys⟩
      | ok ys =>
        rw [hof] at hcode
        obtain rfl : code = .ok () := hcode
        obtain ⟨l', rfl, rfl⟩ := hvalue ys hof
        refine ⟨by simp only [hrest]; rfl, fun y hy => ?_⟩
        exact Except.ok.inj ((hrest l').symm.trans hy)

end

/-- What was initialized is empty, and both allocations were granted. -/
theorem mclDataSourceInitialize_some {m : Memory} {s : Store} {x : DataSourceObject}
    (h : (mclDataSourceInitialize m s).2.1 = some x) :
    m [0] = true ∧ m [1] = true ∧ ∃ n l, x = ⟨n, none, none, some ⟨l, []⟩, none⟩ := by
  cases h0 : m [0] <;> cases h1 : m [1] <;>
    simp [mclDataSourceInitialize, construct, onError, filled, mclNew, mclListInitialize, inRow, setting, h0, h1] at h
  exact ⟨rfl, rfl, _, _, h.symm⟩

theorem mclDataSourceInitialize_reads (m : Memory) :
    Reads DataSourceObject.dataSource
      ((do allocate (m [0]); allocate (m [1]); return ⟨none, none, .empty, none⟩ : Result DataSource).map some)
      (mclDataSourceInitialize m) := by
  refine construct_new_reads (fun _ => rfl) fun n => ?_
  have hrow : RowReads DataSourceObject.dataSource
      ((allocate (m [1]) >>= fun _ => (.ok .empty : Result (CursorList DataPoint))).map some >>= fun dataPoints =>
        .ok ⟨none, none, dataPoints.getD .empty, none⟩)
      [setting (mclListInitialize (m [1])) fun dataPoints x => { x with dataPoints }] ⟨n, none, none, none, none⟩ :=
    inRow_setting_reads (mclListInitialize_reads _) fun _ => inRow_nil_reads rfl
  generalize m [1] = allocated at hrow ⊢
  cases allocated <;> exact hrow

/-- What `_parse_data_source` does behind `mcl_data_source_initialize`. -/
def dataSourceFields (w : Nat) (m : Memory) (json : Json) : Result DataSource := do
  let name ← stringValue (m [2]) json (payloadFieldNames .dataSourcesName)
  let description ← ifExists (stringValue (m [3]) json (payloadFieldNames .description))
  let customData ← customDataValue (m [4]) json
  let array ← getObjectItem json (payloadFieldNames .dataSourcesDataPoints)
  let arraySize ← getArraySize w array
  let dataPoints ← itemsOf (m.of 5) array dataPointOf arraySize.toNat 0 .empty
  return ⟨name, description, dataPoints, customData⟩

/-- The fields behind the initialization, whose list is then filled. -/
theorem parseDataSource_reads (w : Nat) (m : Memory) (json : Json) :
    Reads DataSourceObject.dataSource ((dataSourceOf w m json).map some) (parseDataSource w m json) := by
  have hparser : Reads DataSourceObject.dataSource
      (((do allocate (m [0]); allocate (m [1]); return ⟨none, none, .empty, none⟩ : Result DataSource) >>= fun _ =>
        dataSourceFields w m json).map some) (parseDataSource w m json) := by
    refine construct_reads (mclDataSourceInitialize_reads m) fun s x hx => ?_
    obtain ⟨-, -, n, l, rfl⟩ := mclDataSourceInitialize_some hx
    refine inRow_setting_reads (makes_reads _ _) fun name => ?_
    refine inRow_setting_reads (makes_reads _ _) fun description => ?_
    refine inRow_setting_reads (makes_reads _ _) fun customData => ?_
    have hempty : (ListObject.mk l []).cursorList DataPointObject.dataPoint = .empty := rfl
    refine fillField_reads parseDataPoint_reads ?_ hempty ?_
    · rfl
    · exact fun l' => rfl
  simpa only [dataSourceOf, dataSourceHead, dataSourceFields, bind_assoc, pure_bind] using hparser

/-- The payload is there, with an empty list. -/
theorem mclDataSourceConfigurationInitialize_some {m : Memory} {s : Store} {x : ConfigurationObject}
    (h : (mclDataSourceConfigurationInitialize m s).2.1 = some x) :
    m [0] = true ∧ m [1] = true ∧ m [2] = true ∧ ∃ n p l, x = ⟨n, some ⟨p, none, some ⟨l, []⟩⟩⟩ := by
  cases h0 : m [0] <;> cases h1 : m [1] <;> cases h2 : m [2] <;>
    simp [mclDataSourceConfigurationInitialize, initializePayload, construct, onError, filled, mclNew,
      mclListInitialize, inRow, setting, h0, h1, h2] at h
  exact ⟨rfl, rfl, rfl, _, _, _, h.symm⟩

theorem mclDataSourceConfigurationInitialize_reads (m : Memory) :
    Reads ConfigurationObject.configuration
      ((do allocate (m [0]); allocate (m [1]); allocate (m [2]); return ⟨none, .empty⟩ :
        Result DataSourceConfiguration).map some) (mclDataSourceConfigurationInitialize m) := by
  intro s
  cases h0 : m [0] <;> cases h1 : m [1] <;> cases h2 : m [2] <;>
    simp [mclDataSourceConfigurationInitialize, initializePayload, construct, onError, filled, mclNew, allocate,
      mclListInitialize, inRow, setting, h0, h1, h2, bind, Except.bind, pure, Except.pure, Except.map,
      ConfigurationObject.configuration, ConfigurationObject.dataSources, ListObject.cursorList]

/-- What `_parse_data_source_configuration` does behind `mcl_data_source_configuration_initialize`. -/
def configurationFields (w : Nat) (m : Memory) (json : Json) : Result DataSourceConfiguration := do
  let configurationId ← stringValue (m [3]) json (payloadFieldNames .configurationId)
  let array ← getObjectItem json (payloadFieldNames .dataSources)
  let arraySize ← getArraySize w array
  let dataSources ← itemsOf (m.of 4) array (dataSourceOf w) arraySize.toNat 0 .empty
  return ⟨configurationId, dataSources⟩

/-- Codes and values are those of `configurationOf`, for every pattern of allocation failures. -/
theorem parseDataSourceConfiguration_reads (w : Nat) (m : Memory) (json : Json) :
    Reads ConfigurationObject.configuration ((configurationOf w m json).map some)
      (parseDataSourceConfiguration w m json) := by
  have hparser : Reads ConfigurationObject.configuration
      (((do allocate (m [0]); allocate (m [1]); allocate (m [2]); return ⟨none, .empty⟩ :
        Result DataSourceConfiguration) >>= fun _ => configurationFields w m json).map some)
      (parseDataSourceConfiguration w m json) := by
    refine construct_reads (mclDataSourceConfigurationInitialize_reads m) fun s x hx => ?_
    obtain ⟨-, -, -, n, p, l, rfl⟩ := mclDataSourceConfigurationInitialize_some hx
    refine inRow_setting_reads (makes_reads _ _) fun configurationId => ?_
    have hempty : (ListObject.mk l []).cursorList DataSourceObject.dataSource = .empty := rfl
    refine fillField_reads (parseDataSource_reads w) ?_ hempty ?_
    · rfl
    · exact fun l' => rfl
  simpa only [configurationOf, configurationHead, configurationFields, bind_assoc, pure_bind] using hparser

/-! ## With memory for everything -/

/-- No allocation is refused. -/
def available : Memory := fun _ => true

@[simp] theorem available_of (k : Nat) : available.of k = available := rfl

@[simp] theorem available_apply (path : List Nat) : available path = true := rfl

theorem stringValue_true (json : Json) (name : CString) :
    stringValue true json name = parseAndGetStringValue json name := rfl

theorem customDataValue_true (json : Json) : customDataValue true json = parseCustomData json := by
  rw [customDataValue]
  rcases parseCustomData json with e | _ | customData <;> rfl

theorem allocate_true_bind {β : Type} (r : Result β) : (allocate true >>= fun _ => r) = r := rfl

/-- The loop of `JsonParse`. -/
theorem itemsOf_available {β : Type} {array : Json} {of : Memory → Json → Result β} {callback : Json → Result β}
    (h : ∀ item, of available item = callback item) (n index : Nat) (list : CursorList β) :
    itemsOf available array of n index list = fillLoop array callback n index list := by
  induction n generalizing index list with
  | zero => rfl
  | succ n ih => simp only [itemsOf, fillLoop, available_of, available_apply, h, ih, if_true]

theorem dataPointOf_available (json : Json) : dataPointOf available json = MindConnect.parseDataPoint json := by
  simp only [dataPointOf, MindConnect.parseDataPoint, available_apply, stringValue_true, customDataValue_true,
    allocate_true_bind]

theorem dataSourceOf_available (w : Nat) (json : Json) :
    dataSourceOf w available json = MindConnect.parseDataSource w json := by
  simp only [dataSourceOf, dataSourceHead, MindConnect.parseDataSource, MindConnect.fillListUsingJsonArray,
    available_apply, available_of, stringValue_true, customDataValue_true, allocate_true_bind, bind_assoc, pure_bind,
    itemsOf_available dataPointOf_available]

/-- The values are those of the parser without objects. -/
theorem configurationOf_available (w : Nat) (json : Json) :
    configurationOf w available json = MindConnect.parseDataSourceConfiguration w json := by
  simp only [configurationOf, configurationHead, MindConnect.parseDataSourceConfiguration,
    MindConnect.fillListUsingJsonArray, available_apply, available_of, stringValue_true, allocate_true_bind, bind_assoc,
    pure_bind, itemsOf_available (dataSourceOf_available w)]

end MindConnect.ParsedObjects
