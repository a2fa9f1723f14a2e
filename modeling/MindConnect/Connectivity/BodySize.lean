import MindConnect.Connectivity.JsonEncode
import MindConnect.Connectivity.JsonSize
import Mathlib.Algebra.BigOperators.Ring.Finset
import Mathlib.Data.BitVec
import Mathlib.Tactic.Ring

/-!
# Predicted and actual sizes

The size that `json_get_item_size` predicts, against the length of the text that the encoders print. They
differ by the item's surplus. A description that the template counts and the encoder leaves out makes the
prediction too large; a byte that the printer escapes makes it too small, and so does a JSON value that
cannot be printed alone. Everything is in the integers, and cast to `mcl_size_t` at the end.
-/

namespace MindConnect

open JsonUtil

/-! ## The surplus -/

/-- Two braces are counted for a value that cannot be printed. -/
def jsonSurplus (json : Json) : Int := if json.print.length + 2 ≤ intMax then 0 else 2 - json.print.length

def optionalJsonSurplus : Option Json → Int
  | none => 0
  | some json => jsonSurplus json

/-- The bytes that escaping adds to a string, if it is there. -/
def optionalEscapes : Option CString → Int
  | none => 0
  | some s => Json.escapes s

theorem optionalEscapes_some (s : CString) : optionalEscapes (some s) = Json.escapes s := rfl

/-- What a template counts for an empty string that the encoder leaves out. -/
def leftOut (size : Int) : Option CString → Int
  | none => 0
  | some s => if s.bytes = [] then size else 0

def timeseriesValueSurplus (v : TimeseriesValue) : Int :=
  -(optionalEscapes v.dataPointId + optionalEscapes v.value + optionalEscapes v.qualityCode)

def timeseriesValueListSurplus (l : TimeseriesValueList) : Int :=
  (l.values.seq.map timeseriesValueSurplus).sum - Json.escapes l.timestamp

def timeseriesSurplus (t : Timeseries) : Int := (t.valueLists.seq.map timeseriesValueListSurplus).sum

/-- `,"correlationId":""` takes 19 bytes and `,"description":""` takes 17. -/
def eventSurplus (e : Event) : Int :=
  leftOut 19 e.correlationId + leftOut 17 e.description + optionalJsonSurplus e.details -
    (Json.escapes e.id + optionalEscapes e.correlationId + Json.escapes e.timestamp +
      optionalEscapes e.description + optionalEscapes e.type + optionalEscapes e.version)

/-- The template of a data point, and of a data source, counts a description that may be absent. -/
def descriptionSurplus : Option CString → Int
  | none => 17
  | some s => -Json.escapes s

def dataPointSurplus (p : DataPoint) : Int :=
  descriptionSurplus p.description + optionalJsonSurplus p.customData -
    (optionalEscapes p.id + optionalEscapes p.name + optionalEscapes p.type + optionalEscapes p.unit)

def dataSourceSurplus (s : DataSource) : Int :=
  descriptionSurplus s.description + (s.dataPoints.seq.map dataPointSurplus).sum +
    optionalJsonSurplus s.customData - optionalEscapes s.name

def dataSourceConfigurationSurplus (c : DataSourceConfiguration) : Int :=
  (c.dataSources.seq.map dataSourceSurplus).sum - optionalEscapes c.configurationId

/-! ## Lengths of members -/

theorem length_payloadFieldNames (f : PayloadFieldName) :
    (payloadFieldNames f).length =
      match f with
      | .id => 2
      | .type | .dataSourcesName | .dataSourcesDataPointsName | .dataSourcesDataPointsType
      | .dataSourcesDataPointsUnit => 4
      | .valuesValue => 5
      | .values => 6
      | .version | .details => 7
      | .severity => 8
      | .timestamp => 9
      | .customData | .dataSourcesDataPoints => 10
      | .valuesDataPointId | .valuesQualityCode | .description | .dataSources => 11
      | .correlationId => 13
      | .configurationId => 15 := by
  cases f <;> rfl

theorem escapes_payloadFieldNames (f : PayloadFieldName) : Json.escapes (payloadFieldNames f) = 0 := by
  cases f <;> decide

theorem length_metaFieldNames (f : MetaFieldName) :
    (metaFieldNames f).length =
      match f with
      | .type | .payloadType => 4
      | .version | .payload | .payloadVersion | .payloadDetails => 7
      | .payloadDetailsFileName | .payloadDetailsFileType => 8
      | .payloadDetailsCreationDate => 12
      | .payloadDetailsConfigurationId => 15 := by
  cases f <;> rfl

theorem escapes_metaFieldNames (f : MetaFieldName) : Json.escapes (metaFieldNames f) = 0 := by
  cases f <;> decide

/-- What the members take. -/
def membersLength (ms : Members) : Nat := (ms.map Json.memberLength).sum

@[simp] theorem membersLength_append (ms ns : Members) :
    membersLength (ms ++ ns) = membersLength ms + membersLength ns := by
  simp [membersLength]

@[simp] theorem membersLength_field_none (name : CString) : membersLength (field name none) = 0 := rfl

@[simp] theorem membersLength_field_some (name s : CString) :
    membersLength (field name (some s)) =
      name.length + Json.escapes name + s.length + Json.escapes s + 6 := by
  simp only [membersLength, field, Option.toList_some, List.map_cons, List.map_nil, List.sum_cons,
    List.sum_nil, Json.memberLength, Json.print, Json.length_printString]
  omega

@[simp] theorem membersLength_child_none (name : CString) : membersLength (child name none) = 0 := rfl

@[simp] theorem membersLength_child_some (name : CString) (json : Json) :
    membersLength (child name (some json)) = name.length + Json.escapes name + json.print.length + 4 := by
  simp only [membersLength, child, Option.toList_some, List.map_cons, List.map_nil, List.sum_cons,
    List.sum_nil, Json.memberLength, Json.length_printString]
  omega

theorem length_print_members {ms : Members} (h : ms ≠ []) :
    (Json.object ms).print.length = membersLength ms + 1 := Json.length_print_object_of_ne_nil h

/-! ## The size functions as casts -/

variable (w : Nat)

theorem ofNat_eq (n : Nat) : BitVec.ofNat w n = ((n : Int) : BitVec w) := by
  rw [Int.cast_natCast]
  rfl

/-- What the templates of `json.c` amount to. -/
theorem baseSizes : itemMetaBaseSize = 42 ∧ itemTimeseriesMetaPayloadBaseSize = 75 ∧
    itemTimeseriesValueBaseSize = 46 ∧ itemTimeseriesValueListBaseSize = 52 ∧
    itemEventMetaPayloadBaseSize = 37 ∧ itemEventPayloadBaseSize = 94 ∧
    itemEventPayloadCorrelationIdSize = 19 ∧ itemEventPayloadDescriptionSize = 17 ∧
    itemFileMetaPayloadBaseSize = 96 ∧ itemFileMetaPayloadFileTypeSize = 14 ∧
    itemCustomDataMetaPayloadBaseSize = 24 ∧ itemCustomDataMetaPayloadDetailsSize = 11 ∧
    itemDataSourceConfigurationMetaPayloadBaseSize = 47 ∧ itemDataSourceConfigurationPayloadBaseSize = 39 ∧
    itemDataSourceBaseSize = 44 ∧ itemDataPointBaseSize = 56 ∧
    itemDataSourceConfigurationPayloadCustomDataSize = 14 ∧ doubleBraceSize = 2 ∧ delimiterSize = 1 := by
  -- a literal is the list of its characters, so none of them is run through `String.toList`
  have timed {template : String} {n : Nat} (h : templateSize template = n) :
      templateSize template + timestampLength = n + 24 := congrArg (· + timestampLength) h
  refine ⟨templateSize_ofList _, templateSize_ofList _, templateSize_ofList _, ?valueList,
    templateSize_ofList _, ?event, templateSize_ofList _, templateSize_ofList _, ?file,
    templateSize_ofList _, templateSize_ofList _, templateSize_ofList _, templateSize_ofList _,
    templateSize_ofList _, templateSize_ofList _, templateSize_ofList _, templateSize_ofList _, rfl, rfl⟩
  case valueList => exact timed (templateSize_ofList _)
  case event => exact timed (templateSize_ofList _)
  case file => exact timed (templateSize_ofList _)

@[simp] theorem stringSize_none : stringSize w none = 0 := rfl

@[simp] theorem stringSize_some (s : CString) : stringSize w (some s) = ((s.length : Int) : BitVec w) :=
  ofNat_eq w s.length

theorem jsonSize_eq (json : Json) :
    jsonSize w json = ((json.print.length + jsonSurplus json : Int) : BitVec w) := by
  unfold jsonSize jsonSurplus JsonUtil.toString
  by_cases h : json.print.length + 2 ≤ intMax
  · simp only [h, if_true, add_zero, ofNat_eq]
  · simp only [h, if_false, doubleBraceSize, ofNat_eq]
    push_cast
    ring

theorem foldl_add_size {α : Type} {size : α → BitVec w} {length : α → Int} {xs : List α}
    (h : ∀ x ∈ xs, size x = (length x : BitVec w)) (base : BitVec w) :
    xs.foldl (fun total x => total + size x) base = base + ((xs.map length).sum : BitVec w) := by
  induction xs generalizing base with
  | nil => simp
  | cons x xs ih =>
    rw [List.foldl_cons, ih fun y hy => h y (List.mem_cons_of_mem x hy), h x List.mem_cons_self]
    simp only [List.map_cons, List.sum_cons]
    push_cast
    ring

/-- A list's size is that of an array of its elements' trees, two brackets aside. -/
theorem listSize_eq {α : Type} {size : α → BitVec w} {tree : α → Json} {surplus : α → Int}
    {l : CursorList α} (hne : l.seq ≠ [])
    (h : ∀ x ∈ l.seq, size x = (((tree x).print.length + surplus x : Int) : BitVec w)) (base : BitVec w) :
    listSize w size l base = base +
      (((Json.array (l.seq.map tree)).print.length + (l.seq.map surplus).sum - 2 : Int) : BitVec w) := by
  have hlen : ((Json.array (l.seq.map tree)).print.length : Int) =
      (l.seq.map fun x => ((tree x).print.length : Int)).sum + l.seq.length + 1 := by
    rw [Json.length_print_array_of_ne_nil (by simpa using hne)]
    rw [List.map_map, List.length_map]
    push_cast [Nat.cast_list_sum]
    simp [Function.comp_def]
  have hcount : BitVec.ofNat w l.count = ((l.seq.length : Int) : BitVec w) := ofNat_eq w l.count
  have hsum : (l.seq.map fun x => ((tree x).print.length : Int) + surplus x).sum =
      (l.seq.map fun x => ((tree x).print.length : Int)).sum + (l.seq.map surplus).sum := List.sum_map_add
  rw [listSize, foldl_add_size w h, hlen, hsum, hcount, delimiterSize, ofNat_eq]
  push_cast
  ring

theorem sizeForTimeseriesValue_eq {v : TimeseriesValue} (h : v.validate = .ok ()) :
    itemPayloadSizeForTimeseriesValue w v =
      (((timeseriesValueTree v).print.length + timeseriesValueSurplus v : Int) : BitVec w) := by
  obtain ⟨i, q, x, rfl⟩ := TimeseriesValue.of_validate h
  rw [timeseriesValueTree, length_print_members (by simp [field])]
  simp only [itemPayloadSizeForTimeseriesValue, ofNat_eq, baseSizes, stringSize_some,
    membersLength_append, membersLength_field_some, length_payloadFieldNames, escapes_payloadFieldNames,
    timeseriesValueSurplus, optionalEscapes]
  push_cast
  ring

theorem sizeForTimeseriesValueList_eq {l : TimeseriesValueList} (h : l.validate = .ok ()) :
    itemPayloadSizeForTimeseriesValueList w l =
      (((timeseriesValueListTree l).print.length + timeseriesValueListSurplus l : Int) : BitVec w) := by
  obtain ⟨htime, hpos, hvalues⟩ := TimeseriesValueList.of_validate h
  rw [timeseriesValueListTree, length_print_members (by simp [field]), itemPayloadSizeForTimeseriesValueList,
    listSize_eq w (List.ne_nil_of_length_pos hpos) fun v hv => sizeForTimeseriesValue_eq w (hvalues v hv)]
  simp only [ofNat_eq, baseSizes, membersLength_append,
    membersLength_field_some, membersLength_child_some, length_payloadFieldNames, escapes_payloadFieldNames,
    timeseriesValueListSurplus, htime, timestampLength]
  push_cast
  ring

theorem sizeForTimeseries_eq {t : Timeseries} (h : t.validate = .ok ()) :
    itemPayloadSizeForTimeseries w t =
      (((timeseriesTree t).print.length + timeseriesSurplus t : Int) : BitVec w) := by
  obtain ⟨-, hpos, hlists⟩ := Timeseries.of_validate h
  rw [timeseriesTree, itemPayloadSizeForTimeseries,
    listSize_eq w (List.ne_nil_of_length_pos hpos) fun l hl => sizeForTimeseriesValueList_eq w (hlists l hl),
    timeseriesSurplus, doubleBraceSize, ofNat_eq]
  push_cast
  ring

theorem sizeForDataPoint_eq {p : DataPoint} (h : p.validate = .ok ()) :
    itemPayloadSizeForDataPoint w p =
      (((dataPointTree p).print.length + dataPointSurplus p : Int) : BitVec w) := by
  obtain ⟨_ | id, _ | name, description, _ | type, _ | unit, customData⟩ := p <;>
    simp only [DataPoint.validate_eq_ok, ne_eq, not_true_eq_false, false_and, and_false] at h
  rw [dataPointTree, length_print_members (by simp [field])]
  simp only [itemPayloadSizeForDataPoint, ofNat_eq, baseSizes, stringSize_some, membersLength_append, membersLength_field_some,
    length_payloadFieldNames, escapes_payloadFieldNames, dataPointSurplus, optionalEscapes]
  cases description <;> cases customData <;>
    simp only [stringSize_none, stringSize_some, optionalSize, ofNat_eq, jsonSize_eq, membersLength_field_none,
      membersLength_field_some, membersLength_child_none, membersLength_child_some, length_payloadFieldNames,
      escapes_payloadFieldNames, descriptionSurplus, optionalJsonSurplus] <;>
    push_cast <;> ring

theorem sizeForDataSource_eq {s : DataSource} (h : s.validate = .ok ()) :
    itemPayloadSizeForDataSource w s =
      (((dataSourceTree s).print.length + dataSourceSurplus s : Int) : BitVec w) := by
  obtain ⟨name, description, dataPoints, customData⟩ := s
  obtain ⟨hname, hne, hpoints⟩ := DataSource.validate_eq_ok.1 h
  obtain ⟨name, rfl⟩ := Option.ne_none_iff_exists'.1 hname
  rw [dataSourceTree, length_print_members (by simp [field]), itemPayloadSizeForDataSource,
    listSize_eq w hne fun p hp => sizeForDataPoint_eq w (hpoints p hp)]
  simp only [ofNat_eq, baseSizes,
    stringSize_some, membersLength_append, membersLength_field_some, membersLength_child_some,
    length_payloadFieldNames, escapes_payloadFieldNames, dataSourceSurplus, optionalEscapes]
  cases description <;> cases customData <;>
    simp only [stringSize_none, stringSize_some, optionalSize, ofNat_eq, jsonSize_eq, membersLength_field_none,
      membersLength_field_some, membersLength_child_none, membersLength_child_some, length_payloadFieldNames,
      escapes_payloadFieldNames, descriptionSurplus, optionalJsonSurplus] <;>
    push_cast <;> ring

theorem sizeForDataSourceConfiguration_eq {c : DataSourceConfiguration} (h : c.validate = .ok ()) :
    itemPayloadSizeForDataSourceConfiguration w c =
      (((dataSourceConfigurationTree c).print.length + dataSourceConfigurationSurplus c : Int) : BitVec w) := by
  obtain ⟨configurationId, dataSources⟩ := c
  obtain ⟨hid, hne, hsources⟩ := DataSourceConfiguration.validate_eq_ok.1 h
  obtain ⟨id, rfl⟩ := Option.ne_none_iff_exists'.1 hid
  rw [dataSourceConfigurationTree, length_print_members (by simp [field]),
    itemPayloadSizeForDataSourceConfiguration,
    listSize_eq w hne fun s hs => sizeForDataSource_eq w (hsources s hs)]
  simp only [ofNat_eq, baseSizes, stringSize_some, membersLength_append,
    membersLength_field_some, membersLength_child_some, length_payloadFieldNames, escapes_payloadFieldNames,
    dataSourceConfigurationSurplus, optionalEscapes]
  push_cast
  ring

theorem length_numberText_severity (e : Event) :
    BitVec.ofNat w (numberText e.severity).length = severitySize w e.itemVersion := by
  have h := e.severity_mem
  cases hv : e.itemVersion <;>
    simp only [hv, eventSeverityValues, List.mem_cons, List.not_mem_nil, or_false] at h <;>
    rcases h with h | h | h <;> rw [h] <;> rfl

/-- An optional field of an event: counted whenever it is there, written only if it is not empty. -/
theorem eventField_eq (f : PayloadFieldName) (name : Nat) (hname : name = (payloadFieldNames f).length + 6)
    (o : Option CString) :
    optionalSize w (fun s => stringSize w (some s)) name o =
      ((membersLength (field (payloadFieldNames f) (nonEmpty o)) + leftOut name o - optionalEscapes o : Int) :
        BitVec w) := by
  subst hname
  cases o with
  | none => simp [optionalSize, nonEmpty, leftOut, optionalEscapes]
  | some s =>
    by_cases hs : s.bytes = []
    · have hlen : s.length = 0 := by rw [CString.length, hs]; rfl
      have hescapes : Json.escapes s = 0 := by rw [Json.escapes, hs]; rfl
      simp only [optionalSize, nonEmpty, leftOut, optionalEscapes, hs, hlen, hescapes, ofNat_eq, stringSize_some,
        ne_eq, not_true_eq_false, decide_false, Bool.false_eq_true, if_false, if_true, Option.filter_some,
        membersLength_field_none]
      push_cast
      ring
    · simp only [optionalSize, nonEmpty, leftOut, optionalEscapes, hs, ofNat_eq, stringSize_some, ne_eq,
        not_false_eq_true, decide_true, Option.filter_some, if_true, if_false, membersLength_field_some,
        escapes_payloadFieldNames]
      push_cast
      ring

theorem sizeForEvent_eq {e : Event} (h : e.validate = .ok ()) :
    itemPayloadSizeForEvent w e =
      (((Json.array [eventTree e]).print.length + eventSurplus e : Int) : BitVec w) := by
  obtain ⟨htime, ⟨type, htype⟩, version, hversion⟩ := Event.of_validate h
  have hseverity := length_numberText_severity w e
  have hcorrelation := eventField_eq w .correlationId itemEventPayloadCorrelationIdSize
    (by simp only [baseSizes, length_payloadFieldNames]) e.correlationId
  have hdescription := eventField_eq w .description itemEventPayloadDescriptionSize
    (by simp only [baseSizes, length_payloadFieldNames]) e.description
  rw [Json.length_print_array_of_ne_nil (by simp), List.map_cons, List.map_nil, List.sum_cons, List.sum_nil,
    List.length_singleton, eventTree, length_print_members (by simp [field]), itemPayloadSizeForEvent,
    ← hseverity, hcorrelation, hdescription]
  simp only [baseSizes, htype, hversion, ofNat_eq, stringSize_some, eventSurplus, optionalEscapes_some,
    Nat.cast_ofNat, membersLength_append, membersLength_field_some, membersLength_child_some,
    length_payloadFieldNames, escapes_payloadFieldNames, htime, timestampLength, Json.print]
  cases e.details with
  | none =>
    simp only [Option.getD_none, optionalJsonSurplus, Json.length_print_object, Json.printMembers,
      List.length_nil]
    push_cast
    ring
  | some details =>
    simp only [Option.getD_some, optionalJsonSurplus, jsonSize_eq]
    push_cast
    ring

/-! ## Meta data -/

/-- For the creation date of a file the full length of a timestamp is counted. -/
def metaSurplus : Item → Int
  | .event _ => 0
  | .dataSourceConfiguration _ => 0
  | .timeseries t => -optionalEscapes t.configurationId
  | .file f =>
    (match f.creationDate with | none => 0 | some date => (timestampLength : Int) - date.length) -
      (optionalEscapes f.creationDate + optionalEscapes f.remoteName + optionalEscapes f.type)
  | .customData c => optionalJsonSurplus c.details - (optionalEscapes c.type + optionalEscapes c.version)

theorem length_metaPayloadTree {item : Item} {type version : CString} (htype : payloadType item = some type)
    (hversion : payloadVersion item = some version) :
    (metaPayloadTree item).print.length =
      type.length + Json.escapes type + version.length + Json.escapes version +
        membersLength (child (metaFieldNames .payloadDetails) (detailsTree item)) + 24 := by
  rw [metaPayloadTree, htype, hversion, length_print_members (by simp [field])]
  simp only [membersLength_append, membersLength_field_some, length_metaFieldNames, escapes_metaFieldNames]
  omega

theorem length_metaTree (item : Item) : (metaTree item).print.length = (metaPayloadTree item).print.length + 42 := by
  have htype : itemType.length = 4 ∧ Json.escapes itemType = 0 := by decide
  have hversion : itemVersion.length = 3 ∧ Json.escapes itemVersion = 0 := by decide
  rw [metaTree, length_print_members (by simp [field])]
  simp only [membersLength_append, membersLength_field_some, membersLength_child_some, length_metaFieldNames,
    escapes_metaFieldNames, htype, hversion]
  omega

theorem itemMetaSize_eq {item : Item} (h : item.validate = .ok ()) :
    itemMetaSize w item = (((metaTree item).print.length + metaSurplus item : Int) : BitVec w) := by
  have hversion : version1_0.length = 3 ∧ Json.escapes version1_0 = 0 := by decide
  rw [length_metaTree]
  unfold itemMetaSize
  cases item with
  | event e =>
    have htype : (metaFieldValues .payloadTypeBusinessEvent).length = 13 ∧
        Json.escapes (metaFieldValues .payloadTypeBusinessEvent) = 0 := by decide
    have hevent : (eventVersionText e.itemVersion).length = 3 ∧
        Json.escapes (eventVersionText e.itemVersion) = 0 := by cases e.itemVersion <;> decide
    rw [length_metaPayloadTree rfl rfl]
    simp only [baseSizes, ofNat_eq, stringSize_some, htype, hevent, detailsTree, membersLength_child_none,
      metaSurplus]
    push_cast
    ring
  | dataSourceConfiguration c =>
    have htype : (metaFieldValues .payloadTypeDataSourceConfiguration).length = 23 ∧
        Json.escapes (metaFieldValues .payloadTypeDataSourceConfiguration) = 0 := by decide
    rw [length_metaPayloadTree rfl rfl]
    simp only [baseSizes, ofNat_eq, stringSize_some, htype, hversion, detailsTree, membersLength_child_none,
      metaSurplus]
    push_cast
    ring
  | timeseries t =>
    have htype : (metaFieldValues .payloadTypeTimeSeries).length = 18 ∧
        Json.escapes (metaFieldValues .payloadTypeTimeSeries) = 0 := by decide
    obtain ⟨⟨id, hid⟩, -⟩ := Timeseries.of_validate h
    rw [length_metaPayloadTree rfl rfl, detailsTree, membersLength_child_some, hid,
      length_print_members (by simp [field])]
    simp only [baseSizes, ofNat_eq, stringSize_some, htype, hversion, hid, membersLength_field_some,
      length_metaFieldNames, escapes_metaFieldNames, metaSurplus, optionalEscapes_some]
    push_cast
    ring
  | file f =>
    have htype : (metaFieldValues .payloadTypeFile).length = 4 ∧
        Json.escapes (metaFieldValues .payloadTypeFile) = 0 := by decide
    obtain ⟨⟨name, hname⟩, date, hdate, hlen⟩ := File.of_validate h
    rw [length_metaPayloadTree rfl rfl, detailsTree, membersLength_child_some, hname, hdate,
      length_print_members (by simp [field])]
    simp only [baseSizes, ofNat_eq, stringSize_some, htype, hversion, hname, hdate, membersLength_append,
      membersLength_field_some, length_metaFieldNames, escapes_metaFieldNames, metaSurplus, optionalEscapes_some,
      timestampLength]
    cases f.type <;>
      simp only [optionalSize, ofNat_eq, optionalEscapes, membersLength_field_none, membersLength_field_some,
        length_metaFieldNames, escapes_metaFieldNames] <;>
      push_cast <;> ring
  | customData c =>
    obtain ⟨-, -, ⟨type, htype⟩, ⟨version, hversion⟩, -⟩ := CustomData.of_validate h
    have hpayload := length_metaPayloadTree (show payloadType (.customData c) = some type from htype) hversion
    rw [hpayload]
    simp only [customDataMetaSize, baseSizes, ofNat_eq, stringSize_some, htype, hversion, detailsTree, metaSurplus,
      optionalEscapes_some]
    cases c.details <;>
      simp only [optionalSize, ofNat_eq, jsonSize_eq, membersLength_child_none, membersLength_child_some,
        length_metaFieldNames, escapes_metaFieldNames, optionalJsonSurplus] <;>
      push_cast <;> ring

/-! ## The whole item -/

/-- The payload as it is serialized; `content` is what a file has when it is read. -/
def payloadText (content : Bytes) : Item → Bytes
  | .event e => (Json.array [eventTree e]).print
  | .dataSourceConfiguration c => (dataSourceConfigurationTree c).print
  | .timeseries t => (timeseriesTree t).print
  | .file _ => content
  | .customData c => (c.buffer.getD []).take c.size

def payloadTypeText : Item → Bytes
  | .file _ => contentTypeApplicationOctetStream.bytes
  | .customData c => c.contentType.elim contentTypeApplicationJson fun type => type.bytes
  | _ => contentTypeApplicationJson

/-- The body of a request with one item. -/
def itemBody (boundary sub : Boundary) (content : Bytes) (item : Item) : Bytes :=
  tupleText boundary sub (metaTree item).print (payloadTypeText item) (payloadText content item) ++
    closeText boundary

/-- What the size function predicts beyond the length of the body. -/
def itemSurplus (content : Bytes) (item : Item) : Int :=
  metaSurplus item +
    match item with
    | .event e => eventSurplus e
    | .dataSourceConfiguration c => dataSourceConfigurationSurplus c
    | .timeseries t => timeseriesSurplus t
    | .file f => (f.size : Int) - content.length
    | .customData _ => 0

theorem jsonGetItemSize_eq {item : Item} (h : item.validate = .ok ()) (content : Bytes) :
    jsonGetItemSize w item = (((metaTree item).print.length + (payloadText content item).length +
      itemSurplus content item : Int) : BitVec w) := by
  unfold jsonGetItemSize itemSurplus
  rw [itemMetaSize_eq w h]
  cases item with
  | event e => simp only [sizeForEvent_eq w h, payloadText]; push_cast; ring
  | dataSourceConfiguration c => simp only [sizeForDataSourceConfiguration_eq w h, payloadText]; push_cast; ring
  | timeseries t => simp only [sizeForTimeseries_eq w h, payloadText]; push_cast; ring
  | file f => simp only [ofNat_eq, payloadText]; push_cast; ring
  | customData c =>
    obtain ⟨⟨buffer, hbuffer⟩, -⟩ := CustomData.of_validate h
    have hlen : ((c.buffer.getD []).take c.size).length = c.size := by
      rw [hbuffer, Option.getD_some, List.length_take, Nat.min_eq_left (c.readable buffer hbuffer)]
    simp only [ofNat_eq, payloadText, hlen]
    push_cast
    ring

theorem length_itemBody (boundary sub : Boundary) (content : Bytes) (item : Item) :
    (itemBody boundary sub content item).length =
      multipartBaseSize + (metaTree item).print.length + (payloadTypeText item).length +
        (payloadText content item).length + closeLength := by
  rw [itemBody, List.length_append, length_tupleText, length_closeText]

/-- The buffer that `_prepare_body` allocates, against the body. -/
theorem bodySize_eq {item : Item} (h : item.validate = .ok ()) (boundary sub : Boundary) (content : Bytes) :
    getItemSize w item + multipartGetOverheadSize w =
      (((itemBody boundary sub content item).length + itemSurplus content item : Int) : BitVec w) := by
  have htuple : getItemSize w item = (((multipartBaseSize + (payloadTypeText item).length : Nat) : Int) : BitVec w) +
      jsonGetItemSize w item := by
    have happlication : (applicationJson.length : Int) = (contentTypeApplicationJson.length : Int) := by decide
    have hoctet : (contentTypeApplicationOctetStream.length : Int) =
        (contentTypeApplicationOctetStream.bytes.length : Int) := rfl
    cases item with
    | customData c =>
      obtain ⟨-, ⟨type, htype⟩, -⟩ := CustomData.of_validate h
      have hlen : (type.length : Int) = (type.bytes.length : Int) := rfl
      simp only [getItemSize, multipartGetTupleSize, payloadTypeText, htype, Option.elim_some, ofNat_eq,
        stringSize_some, hlen]
      push_cast
      ring
    | file f =>
      simp only [getItemSize, multipartGetTupleSize, payloadTypeText, ofNat_eq, stringSize_some, hoctet]
      push_cast
      ring
    | _ =>
      simp only [getItemSize, multipartGetTupleSize, payloadTypeText, ofNat_eq, stringSize_some, happlication]
      push_cast
      ring
  rw [htuple, jsonGetItemSize_eq w h content, length_itemBody, multipartGetOverheadSize, ofNat_eq]
  push_cast
  ring

end MindConnect
