import MindConnect.Core.Common
import MindConnect.Core.TimeUtil
import MindConnect.Lib.CursorList
import MindConnect.Lib.Json

/-!
# Items and their validation

The five kinds of item a client exchanges, as their `_initialize` and `_set_parameter` functions leave
them, and the `_validate` function of each (`event.c`, `timeseries*.c`, `data_source*.c`, `data_point.c`,
`file.c`, `custom_data.c`). A `char *` that may be null is an `Option CString`. What the setters
guarantee beyond types is a field of the structure.
-/

namespace MindConnect

/-! ## Event -/

inductive EventVersion where
  | v1_0 | v2_0
deriving DecidableEq, Repr

/-- `mcl_event_versions` -/
def eventVersionText : EventVersion → CString
  | .v1_0 => .lit "1.0"
  | .v2_0 => .lit "2.0"

/-- The only entry of `mcl_timeseries_versions`, `mcl_file_versions` and
`mcl_data_source_configuration_versions`. -/
def version1_0 : CString := .lit "1.0"

/-- `_event_severity_values` (`event.c:26`) -/
def eventSeverityValues : EventVersion → List Nat
  | .v1_0 => [1, 2, 3]
  | .v2_0 => [20, 30, 40]

/-- `event_payload_t`, with the version of the item base. -/
structure Event where
  itemVersion : EventVersion
  id : CString
  correlationId : Option CString
  timestamp : CString
  severity : Nat
  description : Option CString
  type : Option CString
  version : Option CString
  details : Option Json
  severity_mem : severity ∈ eventSeverityValues itemVersion

def Event.validate (e : Event) : Result Unit :=
  if validateTimestamp e.timestamp = false then .error .invalidParameter
  else if e.type = none then .error .invalidParameter
  else if e.version = none then .error .invalidParameter
  else .ok ()

/-! ## Timeseries -/

structure TimeseriesValue where
  dataPointId : Option CString
  qualityCode : Option CString
  value : Option CString
deriving DecidableEq, Repr

structure TimeseriesValueList where
  values : CursorList TimeseriesValue
  timestamp : CString

structure Timeseries where
  configurationId : Option CString
  valueLists : CursorList TimeseriesValueList

def TimeseriesValue.validate (v : TimeseriesValue) : Result Unit :=
  if v.dataPointId = none then .error .invalidParameter
  else if v.qualityCode = none then .error .invalidParameter
  else if v.value = none then .error .invalidParameter
  else .ok ()

/-- The loop of all `_validate` functions over a list: every failure is `MCL_INVALID_PARAMETER`. -/
def validateEach {α : Type} (validate : α → Result Unit) (l : CursorList α) : Result Unit :=
  CursorList.forEach
    (fun _ x => match validate x with | .ok () => .ok () | .error _ => .error .invalidParameter)
    .invalidParameter l.count () l.reset

theorem validateEach_eq_ok {α : Type} {validate : α → Result Unit} {l : CursorList α} :
    validateEach validate l = .ok () ↔ ∀ x ∈ l.seq, validate x = .ok () := by
  rw [validateEach, CursorList.forEach_reset]
  induction l.seq with
  | nil => simp [pure, Except.pure]
  | cons x xs ih =>
    rw [List.foldlM_cons, List.forall_mem_cons]
    match validate x with
    | .ok () => simpa [bind, Except.bind] using ih
    | .error e => simp [bind, Except.bind]

def TimeseriesValueList.validate (l : TimeseriesValueList) : Result Unit :=
  if validateTimestamp l.timestamp = false then .error .invalidParameter
  else if l.values.count = 0 then .error .invalidParameter
  else validateEach TimeseriesValue.validate l.values

def Timeseries.validate (t : Timeseries) : Result Unit :=
  if t.configurationId = none then .error .invalidParameter
  else if t.valueLists.count = 0 then .error .invalidParameter
  else validateEach TimeseriesValueList.validate t.valueLists

/-! ## Data source configuration -/

structure DataPoint where
  id : Option CString
  name : Option CString
  description : Option CString
  type : Option CString
  unit : Option CString
  customData : Option Json

structure DataSource where
  name : Option CString
  description : Option CString
  dataPoints : CursorList DataPoint
  customData : Option Json

structure DataSourceConfiguration where
  configurationId : Option CString
  dataSources : CursorList DataSource

def DataPoint.validate (p : DataPoint) : Result Unit :=
  if p.id = none ∨ p.name = none ∨ p.type = none ∨ p.unit = none then .error .invalidParameter
  else .ok ()

def DataSource.validate (s : DataSource) : Result Unit :=
  if s.name = none then .error .invalidParameter
  else if s.dataPoints.count = 0 then .error .invalidParameter
  else validateEach DataPoint.validate s.dataPoints

def DataSourceConfiguration.validate (c : DataSourceConfiguration) : Result Unit :=
  if c.configurationId = none then .error .invalidParameter
  else if c.dataSources.count = 0 then .error .invalidParameter
  else validateEach DataSource.validate c.dataSources

/-! ## File and custom data -/

/-- `file_payload_t`. `_set_file_local_path` (`file.c:198`) sets the local path together with the
creation date, a string of `mcl_time_util_convert_to_iso_8601_format`, or clears both. -/
structure File where
  creationDate : Option CString
  localPath : Option CString
  remoteName : Option CString
  type : Option CString
  size : Nat
  dated : localPath ≠ none → ∃ d, creationDate = some d ∧ d.length ≤ timestampLength

def File.validate (f : File) : Result Unit :=
  if f.localPath = none then .error .invalidParameter
  else if f.remoteName = none then .error .invalidParameter
  else .ok ()

/-- `custom_data_payload_t`. The client keeps `size` bytes readable behind `buffer`. -/
structure CustomData where
  version : Option CString
  buffer : Option Bytes
  contentType : Option CString
  type : Option CString
  size : Nat
  details : Option Json
  readable : ∀ b, buffer = some b → size ≤ b.length

def CustomData.validate (c : CustomData) : Result Unit :=
  if c.buffer = none ∨ c.contentType = none ∨ c.type = none ∨ c.version = none ∨ c.size = 0 then
    .error .invalidParameter
  else .ok ()

/-! ## What validation guarantees -/

theorem Event.of_validate {e : Event} (h : e.validate = .ok ()) :
    e.timestamp.length = timestampLength ∧ (∃ t, e.type = some t) ∧ ∃ v, e.version = some v := by
  unfold Event.validate at h
  split_ifs at h with hts hty hv
  exact ⟨length_of_validateTimestamp (by simpa using hts), Option.ne_none_iff_exists'.1 hty,
    Option.ne_none_iff_exists'.1 hv⟩

theorem TimeseriesValue.of_validate {v : TimeseriesValue} (h : v.validate = .ok ()) :
    ∃ i q x, v = ⟨some i, some q, some x⟩ := by
  obtain ⟨_ | i, _ | q, _ | x⟩ := v <;> simp [TimeseriesValue.validate] at h ⊢

theorem TimeseriesValueList.of_validate {l : TimeseriesValueList} (h : l.validate = .ok ()) :
    l.timestamp.length = timestampLength ∧ 0 < l.values.seq.length ∧
      ∀ v ∈ l.values.seq, v.validate = .ok () := by
  unfold TimeseriesValueList.validate at h
  split_ifs at h with hts hn
  exact ⟨length_of_validateTimestamp (by simpa using hts), Nat.pos_of_ne_zero hn, validateEach_eq_ok.1 h⟩

theorem Timeseries.of_validate {t : Timeseries} (h : t.validate = .ok ()) :
    (∃ i, t.configurationId = some i) ∧ 0 < t.valueLists.seq.length ∧
      ∀ l ∈ t.valueLists.seq, l.validate = .ok () := by
  unfold Timeseries.validate at h
  split_ifs at h with hi hn
  exact ⟨Option.ne_none_iff_exists'.1 hi, Nat.pos_of_ne_zero hn, validateEach_eq_ok.1 h⟩

theorem DataPoint.validate_eq_ok {p : DataPoint} :
    p.validate = .ok () ↔ p.id ≠ none ∧ p.name ≠ none ∧ p.type ≠ none ∧ p.unit ≠ none := by
  unfold DataPoint.validate
  split_ifs with h <;> simp <;> tauto

theorem DataSource.validate_eq_ok {s : DataSource} :
    s.validate = .ok () ↔
      s.name ≠ none ∧ s.dataPoints.seq ≠ [] ∧ ∀ p ∈ s.dataPoints.seq, p.validate = .ok () := by
  unfold DataSource.validate
  split_ifs with hn hc
  · simp [hn]
  · simp [List.length_eq_zero_iff.1 hc]
  · rw [validateEach_eq_ok]
    exact ⟨fun h => ⟨hn, fun he => hc (by simp [CursorList.count, he]), h⟩, fun h => h.2.2⟩

theorem DataSourceConfiguration.validate_eq_ok {c : DataSourceConfiguration} :
    c.validate = .ok () ↔ c.configurationId ≠ none ∧ c.dataSources.seq ≠ [] ∧
      ∀ s ∈ c.dataSources.seq, s.validate = .ok () := by
  unfold DataSourceConfiguration.validate
  split_ifs with hn hc
  · simp [hn]
  · simp [List.length_eq_zero_iff.1 hc]
  · rw [validateEach_eq_ok]
    exact ⟨fun h => ⟨hn, fun he => hc (by simp [CursorList.count, he]), h⟩, fun h => h.2.2⟩

theorem File.of_validate {f : File} (h : f.validate = .ok ()) :
    (∃ n, f.remoteName = some n) ∧ ∃ d, f.creationDate = some d ∧ d.length ≤ timestampLength := by
  unfold File.validate at h
  split_ifs at h with hp hr
  exact ⟨Option.ne_none_iff_exists'.1 hr, f.dated hp⟩

theorem CustomData.of_validate {c : CustomData} (h : c.validate = .ok ()) :
    (∃ b, c.buffer = some b) ∧ (∃ t, c.contentType = some t) ∧ (∃ t, c.type = some t) ∧
      (∃ v, c.version = some v) ∧ 0 < c.size := by
  unfold CustomData.validate at h
  split_ifs at h with hn
  simp only [not_or] at hn
  obtain ⟨hb, hct, hty, hv, hs⟩ := hn
  exact ⟨Option.ne_none_iff_exists'.1 hb, Option.ne_none_iff_exists'.1 hct,
    Option.ne_none_iff_exists'.1 hty, Option.ne_none_iff_exists'.1 hv, Nat.pos_of_ne_zero hs⟩

/-- An item other than a store (`E_MCL_ITEM_TYPE`, `item.h`). -/
inductive Item where
  | event (event : Event)
  | timeseries (timeseries : Timeseries)
  | file (file : File)
  | customData (customData : CustomData)
  | dataSourceConfiguration (configuration : DataSourceConfiguration)

def Item.validate : Item → Result Unit
  | .event e => e.validate
  | .timeseries t => t.validate
  | .file f => f.validate
  | .customData c => c.validate
  | .dataSourceConfiguration c => c.validate

end MindConnect
