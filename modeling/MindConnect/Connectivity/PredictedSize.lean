import MindConnect.Connectivity.BodySize
import MindConnect.Lib.JsonLiteral

/-!
# What the size of an item is made of

`json_get_item_size` against the meta JSON and the payload that are produced, for items whose strings stand in JSON
as they are. Beyond the two lengths it counts a description for every data source and data point without one, the
member of a correlation id or description that is set but empty, and for a file the size and the length of the
creation date it expects in place of those it finds (`predictedSize`). The sum is modulo `2 ^ w`; where the payload
is JSON it does not wrap around, since texts are printed into an `int`.

| here | there |
| --- | --- |
| `Item.strings` | the fields that the macros of `json.c:28`-`:80` leave empty |
| `PayloadProduced` | `json_from_item_payload` (`json.c:370`), the buffer of custom data, the bytes read from a file |
| `Item.listCounts` | `list_count` of the size functions (`:1041`, `:1071`, `:1182`, `:1234`) |
-/

namespace MindConnect

open JsonUtil

/-! ## The strings -/

def TimeseriesValue.strings (v : TimeseriesValue) : List CString :=
  v.dataPointId.toList ++ v.qualityCode.toList ++ v.value.toList

def TimeseriesValueList.strings (l : TimeseriesValueList) : List CString :=
  l.timestamp :: l.values.seq.flatMap TimeseriesValue.strings

def Event.strings (e : Event) : List CString :=
  e.id :: e.timestamp :: (e.correlationId.toList ++ e.description.toList ++ e.type.toList ++ e.version.toList)

def DataPoint.strings (p : DataPoint) : List CString :=
  p.id.toList ++ p.name.toList ++ p.description.toList ++ p.type.toList ++ p.unit.toList

def DataSource.strings (s : DataSource) : List CString :=
  s.name.toList ++ s.description.toList ++ s.dataPoints.seq.flatMap DataPoint.strings

/-- The strings that go into the JSON of an item; embedded JSON is not among them. -/
def Item.strings : Item → List CString
  | .event e => e.strings
  | .timeseries t => t.configurationId.toList ++ t.valueLists.seq.flatMap TimeseriesValueList.strings
  | .file f => f.creationDate.toList ++ f.remoteName.toList ++ f.type.toList
  | .customData c => c.type.toList ++ c.version.toList
  | .dataSourceConfiguration c => c.configurationId.toList ++ c.dataSources.seq.flatMap DataSource.strings

/-- JSON escapes no character of these strings. -/
def PlainStrings (ss : List CString) : Prop := ∀ s ∈ ss, Json.Plain s.bytes

instance (ss : List CString) : Decidable (PlainStrings ss) :=
  inferInstanceAs (Decidable (∀ s ∈ ss, Json.Plain s.bytes))

@[simp] theorem plainStrings_append {ss ts : List CString} :
    PlainStrings (ss ++ ts) ↔ PlainStrings ss ∧ PlainStrings ts := by
  unfold PlainStrings
  exact List.forall_mem_append

@[simp] theorem plainStrings_cons {s : CString} {ss : List CString} :
    PlainStrings (s :: ss) ↔ Json.Plain s.bytes ∧ PlainStrings ss := by
  unfold PlainStrings
  exact List.forall_mem_cons

@[simp] theorem plainStrings_flatMap {α : Type} {f : α → List CString} {xs : List α} :
    PlainStrings (xs.flatMap f) ↔ ∀ x ∈ xs, PlainStrings (f x) := by
  constructor
  · intro h x hx s hs
    exact h s (List.mem_flatMap.2 ⟨x, hx, hs⟩)
  · intro h s hs
    obtain ⟨x, hx, hs⟩ := List.mem_flatMap.1 hs
    exact h x hx s hs

theorem optionalEscapes_of_plain {o : Option CString} (h : PlainStrings o.toList) : optionalEscapes o = 0 := by
  cases o with
  | none => rfl
  | some s =>
    have hplain : Json.Plain s.bytes := h s (by simp)
    rw [optionalEscapes_some, hplain.escapes]
    rfl

/-! ## What is counted beyond the texts -/

def nullDescription (description : Option CString) : Nat := if description = none then 1 else 0

def DataSource.nullDescriptions (s : DataSource) : Nat :=
  nullDescription s.description + (s.dataPoints.seq.map fun p => nullDescription p.description).sum

/-- The data sources and data points without a description. -/
def Item.nullDescriptions : Item → Nat
  | .dataSourceConfiguration c => (c.dataSources.seq.map DataSource.nullDescriptions).sum
  | _ => 0

/-- What the member of a field would take that is set but empty. -/
def emptyMember (f : PayloadFieldName) : Option CString → Nat
  | none => 0
  | some s => if s.bytes = [] then membersLength (field (payloadFieldNames f) (some s)) else 0

def Item.emptyMembers : Item → Nat
  | .event e => emptyMember .correlationId e.correlationId + emptyMember .description e.description
  | _ => 0

/-- How much shorter than expected the creation date of a file is. -/
def dateDifference : Option CString → Int
  | none => 0
  | some date => (timestampLength : Int) - date.length

/-- What is counted for a file in place of the bytes that were read and of its date. -/
def fileDifference (payload : Bytes) : Item → Int
  | .file f => ((f.size : Int) - payload.length) + dateDifference f.creationDate
  | _ => 0

def predictedSize (item : Item) (metaJson payload : Bytes) : Int :=
  metaJson.length + payload.length + 17 * item.nullDescriptions + item.emptyMembers + fileDifference payload item

/-- The payload of a request; `content` is what a file has when it is read. -/
def PayloadProduced (content : Bytes) (item : Item) (payload : Bytes) : Prop :=
  match item with
  | .file _ => payload = content
  | .customData c => payload = (c.buffer.getD []).take c.size
  | item => jsonFromItemPayload item = .ok payload

/-- The lengths of the lists that the size functions go through. -/
def Item.listCounts : Item → List Nat
  | .timeseries t => t.valueLists.count :: t.valueLists.seq.map fun l => l.values.count
  | .dataSourceConfiguration c => c.dataSources.count :: c.dataSources.seq.map fun s => s.dataPoints.count
  | _ => []

/-! ## The surplus of plain items -/

/-- Embedded JSON is counted as it is when the tree around it can be printed. -/
theorem optionalJsonSurplus_eq {o : Option Json} {root : Json}
    (h : ∀ json, o = some json → json.print.length ≤ root.print.length) (hroot : root.print.length + 2 ≤ intMax) :
    optionalJsonSurplus o = 0 := by
  cases o with
  | none => rfl
  | some json =>
    have hjson := h json rfl
    rw [optionalJsonSurplus, jsonSurplus, if_pos (by omega)]

theorem emptyMember_of_nil (f : PayloadFieldName) {s : CString} (hs : s.bytes = []) :
    emptyMember f (some s) = (payloadFieldNames f).length + 6 := by
  have hlen : s.length = 0 := by rw [CString.length, hs]; rfl
  have hescapes : Json.escapes s = 0 := by rw [Json.escapes, hs]; rfl
  simp [emptyMember, hs, hlen, hescapes, escapes_payloadFieldNames]

theorem emptyMember_le (f : PayloadFieldName) (o : Option CString) :
    emptyMember f o ≤ (payloadFieldNames f).length + 6 := by
  cases o with
  | none => simp [emptyMember]
  | some s =>
    by_cases hs : s.bytes = []
    · rw [emptyMember_of_nil f hs]
    · simp [emptyMember, hs]

/-- What an event's size counts for a member that is left out is the length of that member. -/
theorem leftOut_eq (f : PayloadFieldName) {size : Int} (hsize : size = (payloadFieldNames f).length + 6)
    (o : Option CString) : leftOut size o = emptyMember f o := by
  cases o with
  | none => rfl
  | some s =>
    by_cases hs : s.bytes = []
    · simp [leftOut, emptyMember_of_nil f hs, hs, hsize]
    · simp [leftOut, emptyMember, hs]

theorem descriptionSurplus_eq {description : Option CString} (plain : PlainStrings description.toList) :
    descriptionSurplus description = 17 * nullDescription description := by
  cases description with
  | none => rfl
  | some s =>
    have hplain : Json.Plain s.bytes := plain s (by simp)
    simp [descriptionSurplus, nullDescription, hplain.escapes]

theorem sum_map_eq {α : Type} {xs : List α} {f : α → Int} {g : α → Nat} {k : Int}
    (h : ∀ x ∈ xs, f x = k * g x) : (xs.map f).sum = k * (xs.map g).sum := by
  induction xs with
  | nil => simp
  | cons x xs ih =>
    have hxs := ih fun y hy => h y (List.mem_cons_of_mem x hy)
    rw [List.map_cons, List.sum_cons, List.map_cons, List.sum_cons, hxs, h x List.mem_cons_self]
    push_cast
    ring

theorem timeseriesSurplus_eq {t : Timeseries} (plain : PlainStrings (Item.timeseries t).strings) :
    timeseriesSurplus t = 0 := by
  simp only [Item.strings, plainStrings_append, plainStrings_flatMap] at plain
  have hvalue : ∀ v : TimeseriesValue, PlainStrings v.strings → timeseriesValueSurplus v = 0 := by
    intro v hv
    simp only [TimeseriesValue.strings, plainStrings_append] at hv
    obtain ⟨⟨hid, hquality⟩, hvalue⟩ := hv
    simp only [timeseriesValueSurplus, optionalEscapes_of_plain hid, optionalEscapes_of_plain hquality,
      optionalEscapes_of_plain hvalue, add_zero, neg_zero]
  have hlist : ∀ l ∈ t.valueLists.seq, timeseriesValueListSurplus l = 0 := by
    intro l hl
    have hplain := plain.2 l hl
    simp only [TimeseriesValueList.strings, plainStrings_cons, plainStrings_flatMap] at hplain
    obtain ⟨htime, hvalues⟩ := hplain
    have hsum : (l.values.seq.map timeseriesValueSurplus).sum = 0 := by
      refine List.sum_eq_zero ?_
      intro n hn
      obtain ⟨v, hv, rfl⟩ := List.mem_map.1 hn
      exact hvalue v (hvalues v hv)
    rw [timeseriesValueListSurplus, hsum, htime.escapes]
    rfl
  refine List.sum_eq_zero ?_
  intro n hn
  obtain ⟨l, hl, rfl⟩ := List.mem_map.1 hn
  exact hlist l hl

theorem dataPointSurplus_eq {p : DataPoint} (plain : PlainStrings p.strings)
    (hlen : (dataPointTree p).print.length + 2 ≤ intMax) :
    dataPointSurplus p = 17 * nullDescription p.description := by
  simp only [DataPoint.strings, plainStrings_append] at plain
  obtain ⟨⟨⟨⟨hid, hname⟩, hdescription⟩, htype⟩, hunit⟩ := plain
  have hcustom : optionalJsonSurplus p.customData = 0 := by
    refine optionalJsonSurplus_eq ?_ hlen
    intro json hdata
    exact Json.length_print_le_object (k := payloadFieldNames .customData) (by simp [child, hdata])
  simp only [dataPointSurplus, descriptionSurplus_eq hdescription, hcustom, optionalEscapes_of_plain hid,
    optionalEscapes_of_plain hname, optionalEscapes_of_plain htype, optionalEscapes_of_plain hunit]
  omega

/-- The array of the elements' trees, and each tree, is no longer than the object they are in. -/
theorem length_element_le {α : Type} {tree : α → Json} {xs : List α} {x : α} (hx : x ∈ xs) {k : CString}
    {ms : Members} (h : (k, Json.array (xs.map tree)) ∈ ms) :
    (tree x).print.length ≤ (Json.object ms).print.length :=
  Nat.le_trans (Json.length_print_le_array (List.mem_map_of_mem hx)) (Json.length_print_le_object h)

theorem dataSourceSurplus_eq {s : DataSource} (plain : PlainStrings s.strings)
    (hlen : (dataSourceTree s).print.length + 2 ≤ intMax) : dataSourceSurplus s = 17 * s.nullDescriptions := by
  simp only [DataSource.strings, plainStrings_append, plainStrings_flatMap] at plain
  obtain ⟨⟨hname, hdescription⟩, hpoints⟩ := plain
  have hcustom : optionalJsonSurplus s.customData = 0 := by
    refine optionalJsonSurplus_eq ?_ hlen
    intro json hdata
    exact Json.length_print_le_object (k := payloadFieldNames .customData) (by simp [child, hdata])
  have hsum : (s.dataPoints.seq.map dataPointSurplus).sum =
      17 * (s.dataPoints.seq.map fun p => nullDescription p.description).sum := by
    refine sum_map_eq fun p hp => dataPointSurplus_eq (hpoints p hp) ?_
    have hle : (dataPointTree p).print.length ≤ (dataSourceTree s).print.length :=
      length_element_le hp (k := payloadFieldNames .dataSourcesDataPoints) (by simp [child])
    omega
  simp only [dataSourceSurplus, descriptionSurplus_eq hdescription, hsum, hcustom, optionalEscapes_of_plain hname,
    DataSource.nullDescriptions]
  push_cast
  ring

theorem dataSourceConfigurationSurplus_eq {c : DataSourceConfiguration}
    (plain : PlainStrings (Item.dataSourceConfiguration c).strings)
    (hlen : (dataSourceConfigurationTree c).print.length + 2 ≤ intMax) :
    dataSourceConfigurationSurplus c = 17 * (Item.dataSourceConfiguration c).nullDescriptions := by
  simp only [Item.strings, plainStrings_append, plainStrings_flatMap] at plain
  obtain ⟨hid, hsources⟩ := plain
  have hsum : (c.dataSources.seq.map dataSourceSurplus).sum =
      17 * (c.dataSources.seq.map DataSource.nullDescriptions).sum := by
    refine sum_map_eq fun s hs => dataSourceSurplus_eq (hsources s hs) ?_
    have hle : (dataSourceTree s).print.length ≤ (dataSourceConfigurationTree c).print.length :=
      length_element_le hs (k := payloadFieldNames .dataSources) (by simp [child])
    omega
  rw [dataSourceConfigurationSurplus, hsum, optionalEscapes_of_plain hid, sub_zero, Item.nullDescriptions]

theorem eventSurplus_eq {e : Event} (plain : PlainStrings e.strings)
    (hlen : (Json.array [eventTree e]).print.length + 2 ≤ intMax) :
    eventSurplus e = (Item.event e).emptyMembers := by
  simp only [Event.strings, plainStrings_cons, plainStrings_append] at plain
  obtain ⟨hid, htime, ⟨⟨hcorrelation, hdescription⟩, htype⟩, hversion⟩ := plain
  have hdetails : optionalJsonSurplus e.details = 0 := by
    refine optionalJsonSurplus_eq ?_ hlen
    intro json he
    have hmember : json.print.length ≤ (eventTree e).print.length :=
      Json.length_print_le_object (k := payloadFieldNames .details) (by simp [child, he])
    exact Nat.le_trans hmember (Json.length_print_le_array List.mem_cons_self)
  have hleft₁ : leftOut 19 e.correlationId = emptyMember .correlationId e.correlationId :=
    leftOut_eq .correlationId (by simp [length_payloadFieldNames]) _
  have hleft₂ : leftOut 17 e.description = emptyMember .description e.description :=
    leftOut_eq .description (by simp [length_payloadFieldNames]) _
  simp only [eventSurplus, hleft₁, hleft₂, hdetails, hid.escapes, htime.escapes,
    optionalEscapes_of_plain hcorrelation, optionalEscapes_of_plain hdescription, optionalEscapes_of_plain htype,
    optionalEscapes_of_plain hversion, Item.emptyMembers]
  push_cast
  ring

theorem metaSurplus_eq {item : Item} :
    PlainStrings item.strings → (metaTree item).print.length + 2 ≤ intMax →
    metaSurplus item =
      match item with
      | .file f => dateDifference f.creationDate
      | _ => 0 := by
  intro plain hlen
  cases item with
  | event e => rfl
  | dataSourceConfiguration c => rfl
  | timeseries t =>
    simp only [Item.strings, plainStrings_append] at plain
    simp only [metaSurplus, optionalEscapes_of_plain plain.1, neg_zero]
  | file f =>
    simp only [Item.strings, plainStrings_append] at plain
    obtain ⟨⟨hdate, hname⟩, htype⟩ := plain
    simp only [metaSurplus, optionalEscapes_of_plain hdate, optionalEscapes_of_plain hname,
      optionalEscapes_of_plain htype, add_zero, sub_zero]
    cases f.creationDate <;> rfl
  | customData c =>
    simp only [Item.strings, plainStrings_append] at plain
    obtain ⟨htype, hversion⟩ := plain
    have hdetails : optionalJsonSurplus c.details = 0 := by
      refine optionalJsonSurplus_eq ?_ hlen
      intro json hc
      have hmember : json.print.length ≤ (metaPayloadTree (.customData c)).print.length :=
        Json.length_print_le_object (k := metaFieldNames .payloadDetails) (by simp [child, detailsTree, hc])
      refine Nat.le_trans hmember ?_
      exact Json.length_print_le_object (k := metaFieldNames .payload) (by simp [child])
    simp only [metaSurplus, hdetails, optionalEscapes_of_plain htype, optionalEscapes_of_plain hversion, add_zero,
      sub_zero]

/-- The surplus of a plain item whose texts can be printed. -/
theorem itemSurplus_eq {item : Item} (plain : PlainStrings item.strings)
    (hmeta : (metaTree item).print.length + 2 ≤ intMax)
    (hpayload : ∀ json, payloadTree item = some json → json.print.length + 2 ≤ intMax) (content : Bytes) :
    itemSurplus content item = 17 * item.nullDescriptions + item.emptyMembers + fileDifference content item := by
  unfold itemSurplus
  rw [metaSurplus_eq plain hmeta]
  cases item with
  | event e =>
    simp only [eventSurplus_eq plain (hpayload _ rfl), Item.nullDescriptions, fileDifference]
    omega
  | dataSourceConfiguration c =>
    simp only [dataSourceConfigurationSurplus_eq plain (hpayload _ rfl), Item.emptyMembers, fileDifference]
    omega
  | timeseries t => simp [timeseriesSurplus_eq plain, Item.nullDescriptions, Item.emptyMembers, fileDifference]
  | file f =>
    simp only [Item.nullDescriptions, Item.emptyMembers, fileDifference]
    omega
  | customData c => simp [Item.nullDescriptions, Item.emptyMembers, fileDifference]

/-! ## The texts -/

theorem payload_of_printed {item : Item} (h : item.validate = .ok ()) {json : Json}
    (hjson : payloadTree item = some json) {payload : Bytes} (hprinted : jsonFromItemPayload item = .ok payload) :
    payload = json.print ∧ ∀ root, payloadTree item = some root → root.print.length + 2 ≤ intMax := by
  obtain ⟨hlen, htext⟩ := toString_eq_ok.1 ((jsonFromItemPayload_eq h hjson).symm.trans hprinted)
  refine ⟨htext, ?_⟩
  intro root hroot
  obtain rfl : json = root := Option.some.inj (hjson.symm.trans hroot)
  exact hlen

theorem payload_of_produced {item : Item} (h : item.validate = .ok ()) {content payload : Bytes}
    (hproduced : PayloadProduced content item payload) :
    payload = payloadText content item ∧
      ∀ json, payloadTree item = some json → json.print.length + 2 ≤ intMax := by
  cases item with
  | file f => exact ⟨hproduced, by simp [payloadTree]⟩
  | customData c => exact ⟨hproduced, by simp [payloadTree]⟩
  | event e => exact payload_of_printed h rfl hproduced
  | dataSourceConfiguration c => exact payload_of_printed h rfl hproduced
  | timeseries t => exact payload_of_printed h rfl hproduced

theorem jsonGetItemSize_predicted (w : Nat) {item : Item} (h : item.validate = .ok ())
    (plain : PlainStrings item.strings) {metaJson payload content : Bytes}
    (hmeta : jsonFromItemMeta item = .ok metaJson) (hproduced : PayloadProduced content item payload) :
    jsonGetItemSize w item = (predictedSize item metaJson payload : BitVec w) := by
  obtain ⟨hlen, rfl⟩ := toString_eq_ok.1 ((jsonFromItemMeta_eq h).symm.trans hmeta)
  obtain ⟨hpayload, hlens⟩ := payload_of_produced h hproduced
  have hdifference : fileDifference content item = fileDifference payload item := by
    cases item with
    | file f => rw [show payload = content from hproduced]
    | _ => rfl
  rw [jsonGetItemSize_eq w h content, itemSurplus_eq plain hlen hlens, ← hpayload, hdifference, predictedSize]
  congr 1
  ring

/-- An integer in range survives the cast. -/
theorem toNat_intCast_eq {w : Nat} {n : Int} (h : 0 ≤ n) (hlt : n < 2 ^ w) : ((n : BitVec w).toNat : Int) = n := by
  rw [BitVec.toNat_intCast, Int.emod_eq_of_lt h hlt, Int.toNat_of_nonneg h]

/-! ## No wrapping -/

/-- A data point without description takes 39 bytes at least, a data source 27 beside its data points. -/
theorem nullDescription_le_dataPoint {p : DataPoint} (h : p.validate = .ok ()) :
    68 * nullDescription p.description ≤ 3 * (dataPointTree p).print.length := by
  obtain ⟨_ | id, _ | name, description, _ | type, _ | unit, customData⟩ := p <;>
    simp only [DataPoint.validate_eq_ok, ne_eq, not_true_eq_false, false_and, and_false] at h
  cases description with
  | some s => simp [nullDescription]
  | none =>
    rw [dataPointTree, length_print_members (by simp [field])]
    simp only [membersLength_append, membersLength_field_some, membersLength_field_none, length_payloadFieldNames,
      nullDescription, if_true]
    omega

theorem sum_le_length_array {α : Type} {tree : α → Json} {nulls : α → Nat} {xs : List α}
    (h : ∀ x ∈ xs, 68 * nulls x ≤ 3 * (tree x).print.length) :
    68 * (xs.map nulls).sum ≤ 3 * (Json.array (xs.map tree)).print.length := by
  have hsum : 68 * (xs.map nulls).sum ≤ 3 * ((xs.map tree).map fun e => e.print.length).sum := by
    induction xs with
    | nil => simp
    | cons x xs ih =>
      have hx := h x List.mem_cons_self
      have hxs := ih fun y hy => h y (List.mem_cons_of_mem x hy)
      simp only [List.map_cons, List.sum_cons]
      omega
  rw [Json.length_print_array, Json.length_printElements]
  omega

theorem nullDescriptions_le_dataSource {s : DataSource} (h : s.validate = .ok ()) :
    68 * s.nullDescriptions ≤ 3 * (dataSourceTree s).print.length := by
  obtain ⟨name, description, dataPoints, customData⟩ := s
  obtain ⟨hname, -, hpoints⟩ := DataSource.validate_eq_ok.1 h
  obtain ⟨name, rfl⟩ := Option.ne_none_iff_exists'.1 hname
  have harray : 68 * (dataPoints.seq.map fun p => nullDescription p.description).sum ≤
      3 * (Json.array (dataPoints.seq.map dataPointTree)).print.length :=
    sum_le_length_array fun p hp => nullDescription_le_dataPoint (hpoints p hp)
  have hone : nullDescription description ≤ 1 := by
    unfold nullDescription
    split <;> simp
  rw [dataSourceTree, length_print_members (by simp [field])]
  simp only [membersLength_append, membersLength_field_some, membersLength_child_some, length_payloadFieldNames,
    DataSource.nullDescriptions]
  omega

theorem nullDescriptions_le_dataSourceConfiguration {c : DataSourceConfiguration} (h : c.validate = .ok ()) :
    68 * (Item.dataSourceConfiguration c).nullDescriptions ≤ 3 * (dataSourceConfigurationTree c).print.length := by
  obtain ⟨-, -, hsources⟩ := DataSourceConfiguration.validate_eq_ok.1 h
  have harray : 68 * (c.dataSources.seq.map DataSource.nullDescriptions).sum ≤
      3 * (Json.array (c.dataSources.seq.map dataSourceTree)).print.length :=
    sum_le_length_array fun s hs => nullDescriptions_le_dataSource (hsources s hs)
  have hle : (Json.array (c.dataSources.seq.map dataSourceTree)).print.length ≤
      (dataSourceConfigurationTree c).print.length :=
    Json.length_print_le_object (k := payloadFieldNames .dataSources) (by simp [child])
  simp only [Item.nullDescriptions]
  omega

/-- Two texts that were printed leave room for what is counted beside them. -/
theorem predictedSize_lt {item : Item} (h : item.validate = .ok ()) {json : Json}
    (hjson : payloadTree item = some json) (hmeta : (metaTree item).print.length + 2 ≤ intMax)
    (hlen : json.print.length + 2 ≤ intMax) : predictedSize item (metaTree item).print json.print < 2 ^ 32 := by
  have hintMax : intMax = 2147483647 := rfl
  cases item with
  | event e =>
    have hevent : (metaTree (.event e)).print.length = 82 := by
      have htype : (metaFieldValues .payloadTypeBusinessEvent).length = 13 ∧
          Json.escapes (metaFieldValues .payloadTypeBusinessEvent) = 0 := by decide
      have hversion : (eventVersionText e.itemVersion).length = 3 ∧
          Json.escapes (eventVersionText e.itemVersion) = 0 := by cases e.itemVersion <;> decide
      rw [length_metaTree, length_metaPayloadTree rfl rfl, htype.1, htype.2, hversion.1, hversion.2, detailsTree,
        membersLength_child_none]
    have hcorrelation := emptyMember_le .correlationId e.correlationId
    have hdescription := emptyMember_le .description e.description
    simp only [length_payloadFieldNames] at hcorrelation hdescription
    simp only [predictedSize, Item.nullDescriptions, Item.emptyMembers, fileDifference, hevent]
    push_cast
    omega
  | dataSourceConfiguration c =>
    have hconfiguration : (metaTree (.dataSourceConfiguration c)).print.length = 92 := by
      have htype : (metaFieldValues .payloadTypeDataSourceConfiguration).length = 23 ∧
          Json.escapes (metaFieldValues .payloadTypeDataSourceConfiguration) = 0 := by decide
      have hversion : version1_0.length = 3 ∧ Json.escapes version1_0 = 0 := by decide
      rw [length_metaTree, length_metaPayloadTree rfl rfl, htype.1, htype.2, hversion.1, hversion.2, detailsTree,
        membersLength_child_none]
    have hnulls := nullDescriptions_le_dataSourceConfiguration h
    obtain rfl : dataSourceConfigurationTree c = json := Option.some.inj hjson
    simp only [predictedSize, Item.emptyMembers, fileDifference, hconfiguration]
    push_cast
    omega
  | timeseries t =>
    simp only [predictedSize, Item.nullDescriptions, Item.emptyMembers, fileDifference]
    push_cast
    omega
  | file f => cases hjson
  | customData c => cases hjson

theorem listCounts_pos {item : Item} (h : item.validate = .ok ()) : ∀ n ∈ item.listCounts, 0 < n := by
  intro n hn
  cases item with
  | timeseries t =>
    obtain ⟨-, hpos, hlists⟩ := Timeseries.of_validate h
    rcases List.mem_cons.1 hn with rfl | hn
    · exact hpos
    · obtain ⟨l, hl, rfl⟩ := List.mem_map.1 hn
      exact (TimeseriesValueList.of_validate (hlists l hl)).2.1
  | dataSourceConfiguration c =>
    obtain ⟨-, hne, hsources⟩ := DataSourceConfiguration.validate_eq_ok.1 h
    rcases List.mem_cons.1 hn with rfl | hn
    · exact List.length_pos_of_ne_nil hne
    · obtain ⟨s, hs, rfl⟩ := List.mem_map.1 hn
      exact List.length_pos_of_ne_nil (DataSource.validate_eq_ok.1 (hsources s hs)).2.1
  | _ => cases hn

/-- `list_count - 1` in `mcl_size_t`. -/
theorem toNat_count_sub_one {w n : Nat} (hpos : 0 < n) (hlt : n < 2 ^ w) :
    (BitVec.ofNat w n - 1).toNat = n - 1 := by
  have hsub : BitVec.ofNat w n - 1 = BitVec.ofNat w (n - 1) := BitVec.ofNat_sub_ofNat_of_le n 1 (by omega) hpos
  rw [hsub, BitVec.toNat_ofNat, Nat.mod_eq_of_lt (by omega)]

/-! ## The law -/

/-- The size of an item against its two texts. -/
structure SizeLaw (w : Nat) (item : Item) (metaJson payload : Bytes) : Prop where
  size : jsonGetItemSize w item = (predictedSize item metaJson payload : BitVec w)
  exact : 0 ≤ predictedSize item metaJson payload → predictedSize item metaJson payload < 2 ^ w →
    ((jsonGetItemSize w item).toNat : Int) = predictedSize item metaJson payload
  notSmaller : 0 ≤ fileDifference payload item → predictedSize item metaJson payload < 2 ^ w →
    metaJson.length + payload.length ≤ (jsonGetItemSize w item).toNat
  fits : (payloadTree item).isSome → predictedSize item metaJson payload < 2 ^ w
  delimiters : ∀ n ∈ item.listCounts, 0 < n ∧ (n < 2 ^ w → (BitVec.ofNat w n - 1).toNat = n - 1)

/-- **The size is the sum of the lengths and of what is counted beside them.** -/
theorem jsonGetItemSize_sizeLaw {w : Nat} (width : 32 ≤ w) {item : Item} (h : item.validate = .ok ())
    (plain : PlainStrings item.strings) {metaJson payload content : Bytes}
    (hmeta : jsonFromItemMeta item = .ok metaJson) (hproduced : PayloadProduced content item payload) :
    SizeLaw w item metaJson payload := by
  have hsize := jsonGetItemSize_predicted w h plain hmeta hproduced
  have hexact : 0 ≤ predictedSize item metaJson payload → predictedSize item metaJson payload < 2 ^ w →
      ((jsonGetItemSize w item).toNat : Int) = predictedSize item metaJson payload := by
    intro hpos hlt
    rw [hsize]
    exact toNat_intCast_eq hpos hlt
  refine ⟨hsize, hexact, ?_, ?_, ?_⟩
  · intro hfile hlt
    have hpos : (metaJson.length + payload.length : Int) ≤ predictedSize item metaJson payload := by
      rw [predictedSize]
      omega
    have := hexact (by omega) hlt
    omega
  · intro hjson
    obtain ⟨json, hjson⟩ := Option.isSome_iff_exists.1 hjson
    obtain ⟨hlen, rfl⟩ := toString_eq_ok.1 ((jsonFromItemMeta_eq h).symm.trans hmeta)
    obtain ⟨hpayload, hlens⟩ := payload_of_produced h hproduced
    have htext : payload = json.print := by
      rw [hpayload]
      cases item <;> cases hjson <;> rfl
    have hpow : (2 : Int) ^ 32 ≤ 2 ^ w := by
      exact_mod_cast Nat.pow_le_pow_right (by decide) width
    rw [htext]
    exact lt_of_lt_of_le (predictedSize_lt h hjson hlen (hlens json hjson)) hpow
  · intro n hn
    have hpos := listCounts_pos h n hn
    exact ⟨hpos, toNat_count_sub_one hpos⟩

theorem jsonFromItemMeta_printed {item : Item} (h : item.validate = .ok ())
    (hlen : (metaTree item).print.length + 2 ≤ intMax) : jsonFromItemMeta item = .ok (metaTree item).print :=
  (jsonFromItemMeta_eq h).trans (toString_eq_ok.2 ⟨hlen, rfl⟩)

/-- One data source with one data point, both without a description. -/
def undescribedConfiguration : DataSourceConfiguration where
  configurationId := some (.lit "c")
  dataSources := .ofList [{
    name := some (.lit "s")
    description := none
    dataPoints := .ofList
      [⟨some (.lit "1"), some (.lit "p"), none, some (.lit "INT"), some (.lit "V"), some (.string (.lit "\""))⟩]
    customData := none }]

set_option maxRecDepth 1000 in
theorem undescribedConfiguration_sizeLaw :
    SizeLaw 32 (.dataSourceConfiguration undescribedConfiguration)
      (metaTree (.dataSourceConfiguration undescribedConfiguration)).print
      (dataSourceConfigurationTree undescribedConfiguration).print := by
  have hvalid : (Item.dataSourceConfiguration undescribedConfiguration).validate = .ok () := by decide
  have hpayload : PayloadProduced [] (.dataSourceConfiguration undescribedConfiguration)
      (dataSourceConfigurationTree undescribedConfiguration).print :=
    (jsonFromItemPayload_eq hvalid rfl).trans (toString_eq_ok.2 ⟨by decide, rfl⟩)
  exact jsonGetItemSize_sizeLaw (by decide) hvalid (by decide)
    (jsonFromItemMeta_printed hvalid (by decide)) hpayload

/-! ## Files -/

/-- The two lengths and what is counted for descriptions and empty members, as a number. -/
def SizeIsSum (w : Nat) (item : Item) (metaJson payload : Bytes) : Prop :=
  (jsonGetItemSize w item).toNat =
    metaJson.length + payload.length + 17 * item.nullDescriptions + item.emptyMembers

def datedFile (size : Nat) (date : CString) (h : date.length ≤ timestampLength) : Item := .file {
  creationDate := some date
  localPath := some (.lit "/tmp/a")
  remoteName := some (.lit "a")
  type := none
  size
  dated := fun _ => ⟨_, rfl, h⟩ }

def date2019 : CString := .lit "2019-01-31T23:59:59.000Z"

/-- A year of three digits. -/
def date999 : CString := .lit "999-01-31T23:59:59.000Z"

/-- Without wrapping, a file's size is counted with the size it had and a date of full length. -/
theorem datedFile_size (size : Nat) (date : CString) (h : date.length ≤ timestampLength)
    (plain : Json.Plain date.bytes) (hmeta : (metaTree (datedFile size date h)).print.length + 2 ≤ intMax)
    (hsize : size < 2 ^ 32) :
    (jsonGetItemSize 64 (datedFile size date h)).toNat + date.length =
      (metaTree (datedFile size date h)).print.length + size + timestampLength := by
  have hplain : PlainStrings (datedFile size date h).strings := by
    simp only [datedFile, Item.strings, Option.toList_some, List.singleton_append, Option.toList_none,
      List.append_nil, plainStrings_cons]
    exact ⟨plain, by decide⟩
  have hpredicted : predictedSize (datedFile size date h) (metaTree (datedFile size date h)).print [] =
      (metaTree (datedFile size date h)).print.length + size + (timestampLength - date.length) := by
    simp only [datedFile, predictedSize, Item.nullDescriptions, Item.emptyMembers, fileDifference, dateDifference,
      List.length_nil]
    omega
  have hproduced : PayloadProduced [] (datedFile size date h) [] := rfl
  have hintMax : intMax = 2147483647 := rfl
  have htimestamp : timestampLength = 24 := rfl
  have hexact := toNat_intCast_eq (w := 64)
    (n := predictedSize (datedFile size date h) (metaTree (datedFile size date h)).print [])
    (by rw [hpredicted]; omega) (by rw [hpredicted]; omega)
  rw [← jsonGetItemSize_predicted 64 rfl hplain (jsonFromItemMeta_printed rfl hmeta) hproduced,
    hpredicted] at hexact
  omega

set_option maxRecDepth 1000 in
/-- A file of nearly 4 GiB with a 32 bit `mcl_size_t`, one that has grown since its size was taken, and one with a
shorter date. -/
theorem files_not_sizeIsSum :
    (¬ ∀ (w : Nat) (item : Item) (content metaJson payload : Bytes), 32 ≤ w → item.validate = .ok () →
      PlainStrings item.strings → jsonFromItemMeta item = .ok metaJson → PayloadProduced content item payload →
      fileDifference payload item = 0 → SizeIsSum w item metaJson payload) ∧
    (¬ ∀ (item : Item) (content metaJson payload : Bytes), item.validate = .ok () →
      PlainStrings item.strings → jsonFromItemMeta item = .ok metaJson → PayloadProduced content item payload →
      (∀ f, item = .file f → dateDifference f.creationDate = 0) → SizeIsSum 64 item metaJson payload) ∧
    ¬ ∀ (item : Item) (content metaJson payload : Bytes), item.validate = .ok () →
      PlainStrings item.strings → jsonFromItemMeta item = .ok metaJson → PayloadProduced content item payload →
      (∀ f, item = .file f → f.size = payload.length) → SizeIsSum 64 item metaJson payload := by
  refine ⟨fun hall => ?_, fun hall => ?_, fun hall => ?_⟩
  · obtain ⟨payload, hlen⟩ : ∃ payload : Bytes, payload.length = 4294967295 :=
      ⟨List.replicate 4294967295 0, List.length_replicate⟩
    have hnone : fileDifference payload (datedFile 4294967295 date2019 (by decide)) = 0 := by
      have hdate : dateDifference (some date2019) = 0 := rfl
      simp only [datedFile, fileDifference, hlen, hdate]
      omega
    have hsum := hall 32 (datedFile 4294967295 date2019 (by decide)) payload _ _ (by decide) rfl (by decide)
      (jsonFromItemMeta_printed rfl (by decide)) rfl hnone
    have hlt := (jsonGetItemSize 32 (datedFile 4294967295 date2019 (by decide))).isLt
    rw [SizeIsSum, hlen, length_metaTree] at hsum
    omega
  · have hsum := hall (datedFile 5 date2019 (by decide)) [1, 2, 3, 4, 5, 6] _ _ rfl (by decide)
      (jsonFromItemMeta_printed rfl (by decide)) rfl (by rintro f ⟨⟩; rfl)
    have hsize := datedFile_size 5 date2019 (by decide) (by decide) (by decide) (by decide)
    have hdate : date2019.length = timestampLength := rfl
    have hnone : (datedFile 5 date2019 (by decide)).nullDescriptions = 0 ∧
        (datedFile 5 date2019 (by decide)).emptyMembers = 0 := ⟨rfl, rfl⟩
    rw [SizeIsSum, hnone.1, hnone.2] at hsum
    simp only [List.length_cons, List.length_nil] at hsum
    omega
  · have hsum := hall (datedFile 5 date999 (by decide)) [1, 2, 3, 4, 5] _ _ rfl (by decide)
      (jsonFromItemMeta_printed rfl (by decide)) rfl (by rintro f ⟨⟩; rfl)
    have hsize := datedFile_size 5 date999 (by decide) (by decide) (by decide) (by decide)
    have hdate : date999.length + 1 = timestampLength := rfl
    have hnone : (datedFile 5 date999 (by decide)).nullDescriptions = 0 ∧
        (datedFile 5 date999 (by decide)).emptyMembers = 0 := ⟨rfl, rfl⟩
    rw [SizeIsSum, hnone.1, hnone.2] at hsum
    simp only [List.length_cons, List.length_nil] at hsum
    omega

end MindConnect
