import MindConnect.Connectivity.JsonEncode

/-!
# Parsing a data source configuration: `json_parse_item`

| here | there |
| --- | --- |
| `fillListUsingJsonArray` | `_fill_list_using_json_array` (`json.c:1411`) |
| `parseDataPoint`, `parseDataSource` | `_parse_data_point` (`:1454`), `_parse_data_source` (`:1522`) |
| `parseDataSourceConfiguration` | `_parse_data_source_configuration` (`:1588`) |
| `jsonParseItem` | `json_parse_item` (`:411`), over `parse`, which stands for cJSON's parser |

An array is read through cJSON's `int` size and index, so a size of `2 ^ 31` and more is not what it seems
(`visited`). Memory is available.
-/

namespace MindConnect

open JsonUtil

/-! ## The parser -/

section

variable {α : Type}

/-- `n` turns of the loop, from `index` on. -/
def fillLoop (array : Json) (callback : Json → Result α) :
    Nat → Nat → CursorList α → Result (CursorList α)
  | 0, _, list => .ok list
  | n + 1, index, list => do
    let item ← getArrayItem array index
    let x ← callback item
    fillLoop array callback n (index + 1) (list.add x)

def fillListUsingJsonArray (w : Nat) (array : Json) (callback : Json → Result α) (list : CursorList α) :
    Result (CursorList α) := do
  let arraySize ← getArraySize w array
  fillLoop array callback arraySize.toNat 0 list

end

/-- `_parse_and_get_string_value` (`json.c:1625`) -/
def parseAndGetStringValue (json : Json) (name : CString) : Result (Option CString) := do
  let object ← getObjectItem json name
  getString object

/-- A missing child is not an error, the field stays null. -/
def ifExists {α : Type} : Result (Option α) → Result (Option α)
  | .error .jsonNonExistingChild => .ok none
  | r => r

/-- Any other failure would duplicate a null pointer. -/
def parseCustomData (json : Json) : Result (Option Json) :=
  match getObjectItem json (payloadFieldNames .customData) with
  | .ok customData => .ok (some customData)
  | .error .jsonNonExistingChild => .ok none
  | .error _ => .error .triggeredWithNull

def parseDataPoint (json : Json) : Result DataPoint := do
  let id ← parseAndGetStringValue json (payloadFieldNames .id)
  let name ← parseAndGetStringValue json (payloadFieldNames .dataSourcesDataPointsName)
  let type ← parseAndGetStringValue json (payloadFieldNames .dataSourcesDataPointsType)
  let unit ← parseAndGetStringValue json (payloadFieldNames .dataSourcesDataPointsUnit)
  let description ← ifExists (parseAndGetStringValue json (payloadFieldNames .description))
  let customData ← parseCustomData json
  return ⟨id, name, description, type, unit, customData⟩

def parseDataSource (w : Nat) (json : Json) : Result DataSource := do
  let name ← parseAndGetStringValue json (payloadFieldNames .dataSourcesName)
  let description ← ifExists (parseAndGetStringValue json (payloadFieldNames .description))
  let customData ← parseCustomData json
  let dataPointArray ← getObjectItem json (payloadFieldNames .dataSourcesDataPoints)
  let dataPoints ← fillListUsingJsonArray w dataPointArray parseDataPoint .empty
  return ⟨name, description, dataPoints, customData⟩

def parseDataSourceConfiguration (w : Nat) (json : Json) : Result DataSourceConfiguration := do
  let configurationId ← parseAndGetStringValue json (payloadFieldNames .configurationId)
  let dataSourceArray ← getObjectItem json (payloadFieldNames .dataSources)
  let dataSources ← fillListUsingJsonArray w dataSourceArray (parseDataSource w) .empty
  return ⟨configurationId, dataSources⟩

def jsonParseItem (w : Nat) (parse : Bytes → Option Json) (text : Bytes) : Result DataSourceConfiguration :=
  match parse text with
  | none => .error .fail
  | some json => parseDataSourceConfiguration w json

/-! ## The loop over an array -/

section

variable {α : Type} {callback : Json → Result α} {es : List Json}

/-- What the loop parsed and what it parsed it from. -/
def Parsed (callback : Json → Result α) (es : List Json) (ys : List α) : Prop :=
  List.Forall₂ (fun e y => callback e = .ok y) es ys

@[simp] theorem seq_foldl_add (ys : List α) (list : CursorList α) :
    (ys.foldl CursorList.add list).seq = list.seq ++ ys := by
  induction ys generalizing list with
  | nil => simp
  | cons y ys ih => simp [ih]

theorem fillLoop_eq_ok {n index : Nat} (hi : index ≤ 2 ^ 31) {list list' : CursorList α} :
    fillLoop (.array es) callback n index list = .ok list' ↔
      (n = 0 ∨ index + n ≤ 2 ^ 31) ∧ (n = 0 ∨ index + n ≤ es.length) ∧
        ∃ ys, Parsed callback ((es.drop index).take n) ys ∧ list' = ys.foldl CursorList.add list := by
  induction n generalizing index list with
  | zero =>
    simp only [fillLoop, Except.ok.injEq, true_or, List.take_zero, true_and]
    constructor
    · rintro rfl
      exact ⟨[], .nil, rfl⟩
    · rintro ⟨ys, hys, rfl⟩
      cases hys
      rfl
  | succ n ih =>
    constructor
    · intro h
      rw [fillLoop] at h
      cases hitem : getArrayItem (.array es) index with
      | error e => simp [hitem, bind, Except.bind] at h
      | ok item =>
        cases hx : callback item with
        | error e => simp [hitem, hx, bind, Except.bind] at h
        | ok x =>
          simp only [hitem, hx, bind, Except.bind] at h
          obtain ⟨hlt, hget⟩ := (getArrayItem_eq_ok hi).1 hitem
          obtain ⟨hint, hlen, ys, hys, rfl⟩ := (ih (by omega)).1 h
          obtain ⟨hindex, rfl⟩ := List.getElem?_eq_some_iff.1 hget
          refine ⟨.inr (by omega), .inr (by omega), x :: ys, ?_, rfl⟩
          rw [List.drop_eq_getElem_cons hindex, List.take_succ_cons]
          exact .cons hx hys
    · rintro ⟨hint, hlen, ys, hys, rfl⟩
      have hindex : index < es.length := by omega
      rw [List.drop_eq_getElem_cons hindex, List.take_succ_cons] at hys
      cases hys with
      | cons hx hys =>
        have hitem : getArrayItem (.array es) index = .ok es[index] :=
          (getArrayItem_eq_ok hi).2 ⟨by omega, List.getElem?_eq_getElem hindex⟩
        rw [fillLoop]
        simp only [hitem, hx, bind, Except.bind]
        exact (ih (by omega)).2 ⟨by omega, by omega, _, hys, rfl⟩

end

/-- The elements that the loop over an array visits. -/
def visited (w : Nat) (array : Json) : List Json :=
  match array, getArraySize w array with
  | .array es, .ok size => es.take size.toNat
  | _, _ => []

theorem fillListUsingJsonArray_ok {α : Type} {w : Nat} {array : Json} {callback : Json → Result α}
    {list : CursorList α} (h : fillListUsingJsonArray w array callback .empty = .ok list) :
    Parsed callback (visited w array) list.seq := by
  cases array with
  | array es =>
    simp only [fillListUsingJsonArray, getArraySize, bind, Except.bind] at h
    obtain ⟨-, -, ys, hys, rfl⟩ := (fillLoop_eq_ok (by omega)).1 h
    simpa [visited, getArraySize] using hys
  | _ => simp [fillListUsingJsonArray, getArraySize, bind, Except.bind] at h

/-- An array of fewer than `2 ^ 31` elements is read as a whole, if `mcl_size_t` is as wide as `int`. -/
theorem fillListUsingJsonArray_eq {α : Type} {w : Nat} (width : 32 ≤ w) {callback : Json → Result α}
    {es : List Json} {ys : List α} (hlen : es.length < 2 ^ 31) (h : Parsed callback es ys) :
    fillListUsingJsonArray w (.array es) callback .empty = .ok (ys.foldl CursorList.add .empty) := by
  simp only [fillListUsingJsonArray, getArraySize, bind, Except.bind, toNat_ofInt_toInt width hlen]
  refine (fillLoop_eq_ok (by omega)).2 ⟨.inr (by omega), .inr (by omega), ys, ?_, rfl⟩
  simpa using h

/-! ## Round trip -/

/-- A data source without the cursor of its list. -/
def DataSource.content (s : DataSource) : Option CString × Option CString × List DataPoint × Option Json :=
  (s.name, s.description, s.dataPoints.seq, s.customData)

/-- What a configuration says, wherever the cursors of its lists stand. -/
def DataSourceConfiguration.content (c : DataSourceConfiguration) :
    Option CString × List (Option CString × Option CString × List DataPoint × Option Json) :=
  (c.configurationId, c.dataSources.seq.map DataSource.content)

theorem parseDataPoint_tree {p : DataPoint} (h : p.validate = .ok ()) :
    parseDataPoint (dataPointTree p) = .ok p := by
  obtain ⟨_ | id, _ | name, description, _ | type, _ | unit, customData⟩ := p <;>
    simp only [DataPoint.validate_eq_ok, ne_eq, not_true_eq_false, false_and, and_false] at h
  cases description <;> cases customData <;>
    simp +decide [parseDataPoint, parseAndGetStringValue, parseCustomData, ifExists, getObjectItem, getString,
      dataPointTree, Json.lookup_append, bind, Except.bind, pure, Except.pure]

theorem parseDataSource_tree {w : Nat} (width : 32 ≤ w) {s : DataSource} (h : s.validate = .ok ())
    (hlen : s.dataPoints.seq.length < 2 ^ 31) :
    parseDataSource w (dataSourceTree s) =
      .ok { s with dataPoints := s.dataPoints.seq.foldl CursorList.add .empty } := by
  obtain ⟨name, description, dataPoints, customData⟩ := s
  obtain ⟨hname, -, hpoints⟩ := DataSource.validate_eq_ok.1 h
  obtain ⟨name, rfl⟩ := Option.ne_none_iff_exists'.1 hname
  have hparsed : Parsed parseDataPoint (dataPoints.seq.map dataPointTree) dataPoints.seq := by
    rw [Parsed, List.forall₂_map_left_iff, List.forall₂_same]
    exact fun p hp => parseDataPoint_tree (hpoints p hp)
  have hfill := fillListUsingJsonArray_eq width (by simpa using hlen) hparsed
  cases description <;> cases customData <;>
    simp +decide [parseDataSource, parseAndGetStringValue, parseCustomData, ifExists, getObjectItem, getString,
      dataSourceTree, Json.lookup_append, bind, Except.bind, pure, Except.pure, hfill]

/-- A list whose array can be printed has fewer than `2 ^ 31` elements. -/
theorem length_lt_of_printable {α : Type} {tree : α → Json} {xs : List α}
    (htree : ∀ x, 1 ≤ (tree x).print.length) (h : (Json.array (xs.map tree)).print.length ≤ intMax) :
    xs.length < 2 ^ 31 := by
  have hone : ∀ e ∈ xs.map tree, 1 ≤ e.print.length := by
    intro e he
    obtain ⟨x, -, rfl⟩ := List.mem_map.1 he
    exact htree x
  have hle := Json.length_le_length_printElements hone
  rw [Json.length_print_array] at h
  rw [List.length_map] at hle
  have : intMax < 2 ^ 31 := by decide
  omega

theorem one_le_length_print_object (ms : Members) : 1 ≤ (Json.object ms).print.length := by
  rw [Json.length_print_object]
  omega

/-- The lists of a configuration that can be printed are short. -/
theorem lengths_of_printable {c : DataSourceConfiguration}
    (h : (dataSourceConfigurationTree c).print.length ≤ intMax) :
    c.dataSources.seq.length < 2 ^ 31 ∧ ∀ s ∈ c.dataSources.seq, s.dataPoints.seq.length < 2 ^ 31 := by
  have harray : (Json.array (c.dataSources.seq.map dataSourceTree)).print.length ≤ intMax :=
    Nat.le_trans (Json.length_print_le_object (k := payloadFieldNames .dataSources) (by simp [child])) h
  refine ⟨length_lt_of_printable (fun s => one_le_length_print_object _) harray, fun s hs => ?_⟩
  have hsource : (dataSourceTree s).print.length ≤ intMax :=
    Nat.le_trans (Json.length_print_le_array (List.mem_map_of_mem (f := dataSourceTree) hs)) harray
  have hpoints : (Json.array (s.dataPoints.seq.map dataPointTree)).print.length ≤ intMax :=
    Nat.le_trans (Json.length_print_le_object (k := payloadFieldNames .dataSourcesDataPoints) (by simp [child]))
      hsource
  exact length_lt_of_printable (fun p => one_le_length_print_object _) hpoints

theorem parseDataSourceConfiguration_tree {w : Nat} (width : 32 ≤ w) {c : DataSourceConfiguration}
    (h : c.validate = .ok ()) (hlen : (dataSourceConfigurationTree c).print.length ≤ intMax) :
    ∃ c', parseDataSourceConfiguration w (dataSourceConfigurationTree c) = .ok c' ∧ c'.content = c.content := by
  obtain ⟨configurationId, dataSources⟩ := c
  obtain ⟨hid, -, hsources⟩ := DataSourceConfiguration.validate_eq_ok.1 h
  obtain ⟨id, rfl⟩ := Option.ne_none_iff_exists'.1 hid
  obtain ⟨hcount, hcounts⟩ := lengths_of_printable hlen
  let reset (s : DataSource) : DataSource :=
    { s with dataPoints := s.dataPoints.seq.foldl CursorList.add .empty }
  have hparsed : Parsed (parseDataSource w) (dataSources.seq.map dataSourceTree) (dataSources.seq.map reset) := by
    rw [Parsed, List.forall₂_map_left_iff, List.forall₂_map_right_iff, List.forall₂_same]
    exact fun s hs => parseDataSource_tree width (hsources s hs) (hcounts s hs)
  have hfill := fillListUsingJsonArray_eq width (by simpa using hcount) hparsed
  refine ⟨⟨some id, (dataSources.seq.map reset).foldl CursorList.add .empty⟩, ?_, ?_⟩
  · simp +decide [parseDataSourceConfiguration, parseAndGetStringValue, getObjectItem, getString,
      dataSourceConfigurationTree, Json.lookup_append, bind, Except.bind, pure, Except.pure, hfill]
  · simp [DataSourceConfiguration.content, DataSource.content, reset, Function.comp_def]

/-- What `json_from_item_payload` writes, `json_parse_item` reads back, if the parser of the library gives
the tree back that its printer wrote. -/
theorem jsonParseItem_of_jsonFromItemPayload {w : Nat} (width : 32 ≤ w) (parse : Bytes → Option Json)
    {c : DataSourceConfiguration} (valid : c.validate = .ok ())
    (inverse : parse (dataSourceConfigurationTree c).print = some (dataSourceConfigurationTree c)) {text : Bytes}
    (encoded : jsonFromItemPayload (.dataSourceConfiguration c) = .ok text) :
    ∃ c', jsonParseItem w parse text = .ok c' ∧ c'.content = c.content := by
  have hvalid : (Item.dataSourceConfiguration c).validate = .ok () := valid
  rw [jsonFromItemPayload_eq hvalid rfl, toString_eq_ok] at encoded
  obtain ⟨hlen, rfl⟩ := encoded
  obtain ⟨c', hparse, hcontent⟩ := parseDataSourceConfiguration_tree width valid (by omega)
  exact ⟨c', by rw [jsonParseItem, inverse]; exact hparse, hcontent⟩

def sampleConfiguration : DataSourceConfiguration where
  configurationId := some (.lit "c")
  dataSources := .ofList [{
    name := some (.lit "s")
    description := none
    dataPoints := .ofList [⟨some (.lit "1"), some (.lit "p"), none, some (.lit "INT"), some (.lit "V"), none⟩]
    customData := some (.array [.null]) }]

set_option maxRecDepth 1000 in
theorem sampleConfiguration_roundTrip : ∃ c', jsonParseItem 64
    (fun text => if text = (dataSourceConfigurationTree sampleConfiguration).print then
      some (dataSourceConfigurationTree sampleConfiguration) else none)
    (dataSourceConfigurationTree sampleConfiguration).print = .ok c' ∧
      c'.content = sampleConfiguration.content :=
  jsonParseItem_of_jsonFromItemPayload (by decide) _ (by decide) (if_pos rfl) (by decide)

/-! ## What a parsed configuration guarantees -/

/-- The first member of that name is not `null`. -/
def nonNull (json : Json) (name : CString) : Bool :=
  match getObjectItem json name with
  | .ok .null => false
  | _ => true

/-- The elements of an array member that the parser visits. -/
def visitedOf (w : Nat) (json : Json) (name : CString) : List Json :=
  match getObjectItem json name with
  | .ok array => visited w array
  | .error _ => []

def UsableDataPoint (json : Json) : Prop :=
  nonNull json (payloadFieldNames .id) ∧ nonNull json (payloadFieldNames .dataSourcesDataPointsName) ∧
    nonNull json (payloadFieldNames .dataSourcesDataPointsType) ∧
      nonNull json (payloadFieldNames .dataSourcesDataPointsUnit)

def UsableDataSource (w : Nat) (json : Json) : Prop :=
  nonNull json (payloadFieldNames .dataSourcesName) ∧
    visitedOf w json (payloadFieldNames .dataSourcesDataPoints) ≠ [] ∧
      ∀ p ∈ visitedOf w json (payloadFieldNames .dataSourcesDataPoints), UsableDataPoint p

/-- No mandatory member is `null`, and no array counts as empty. -/
def UsableDataSourceConfiguration (w : Nat) (json : Json) : Prop :=
  nonNull json (payloadFieldNames .configurationId) ∧
    visitedOf w json (payloadFieldNames .dataSources) ≠ [] ∧
      ∀ s ∈ visitedOf w json (payloadFieldNames .dataSources), UsableDataSource w s

instance (json : Json) : Decidable (UsableDataPoint json) :=
  inferInstanceAs (Decidable (_ ∧ _ ∧ _ ∧ _))

instance (w : Nat) (json : Json) : Decidable (UsableDataSource w json) :=
  inferInstanceAs (Decidable (_ ∧ _ ∧ _))

instance (w : Nat) (json : Json) : Decidable (UsableDataSourceConfiguration w json) :=
  inferInstanceAs (Decidable (_ ∧ _ ∧ _))

theorem parseAndGetStringValue_ne_none {json : Json} {name : CString} {value : Option CString}
    (h : parseAndGetStringValue json name = .ok value) : value ≠ none ↔ nonNull json name := by
  obtain ⟨object, hobject, hstring⟩ := bind_eq_ok h
  rw [nonNull, hobject]
  cases object with
  | null =>
    cases hstring
    simp
  | string s =>
    cases hstring
    simp
  | _ => cases hstring

theorem parseDataPoint_usable {json : Json} {p : DataPoint} (h : parseDataPoint json = .ok p) :
    p.validate = .ok () ↔ UsableDataPoint json := by
  obtain ⟨id, hid, h⟩ := bind_eq_ok h
  obtain ⟨name, hname, h⟩ := bind_eq_ok h
  obtain ⟨type, htype, h⟩ := bind_eq_ok h
  obtain ⟨unit, hunit, h⟩ := bind_eq_ok h
  obtain ⟨description, -, h⟩ := bind_eq_ok h
  obtain ⟨customData, -, h⟩ := bind_eq_ok h
  cases h
  rw [DataPoint.validate_eq_ok, UsableDataPoint, ← parseAndGetStringValue_ne_none hid,
    ← parseAndGetStringValue_ne_none hname, ← parseAndGetStringValue_ne_none htype,
    ← parseAndGetStringValue_ne_none hunit]

/-- The elements of a parsed list are valid if what they were parsed from is usable, and so is the list. -/
theorem parsed_usable {α : Type} {callback : Json → Result α} {Valid : α → Prop} {Usable : Json → Prop}
    (hcallback : ∀ e y, callback e = .ok y → (Valid y ↔ Usable e)) {es : List Json} {ys : List α}
    (h : Parsed callback es ys) : (ys ≠ [] ∧ ∀ y ∈ ys, Valid y) ↔ (es ≠ [] ∧ ∀ e ∈ es, Usable e) := by
  induction h with
  | nil => simp
  | @cons e y es ys hey _ ih =>
    have hall : (∀ y ∈ ys, Valid y) ↔ ∀ e ∈ es, Usable e := by
      by_cases hes : es = []
      · subst hes
        cases ‹List.Forall₂ _ _ _›
        simp
      · have hys : ys ≠ [] := by
          rintro rfl
          cases ‹List.Forall₂ _ _ _›
          exact hes rfl
        simpa [hes, hys] using ih
    simp only [ne_eq, reduceCtorEq, not_false_eq_true, List.forall_mem_cons, true_and, hall,
      hcallback e y hey]

theorem parseDataSource_usable {w : Nat} {json : Json} {s : DataSource} (h : parseDataSource w json = .ok s) :
    s.validate = .ok () ↔ UsableDataSource w json := by
  obtain ⟨name, hname, h⟩ := bind_eq_ok h
  obtain ⟨description, -, h⟩ := bind_eq_ok h
  obtain ⟨customData, -, h⟩ := bind_eq_ok h
  obtain ⟨array, harray, h⟩ := bind_eq_ok h
  obtain ⟨dataPoints, hfill, h⟩ := bind_eq_ok h
  cases h
  have hparsed := parsed_usable (fun _ _ => parseDataPoint_usable) (fillListUsingJsonArray_ok hfill)
  have hvisited : visitedOf w json (payloadFieldNames .dataSourcesDataPoints) = visited w array := by
    simp only [visitedOf, harray]
  rw [DataSource.validate_eq_ok, UsableDataSource, hvisited, parseAndGetStringValue_ne_none hname]
  exact and_congr_right fun _ => hparsed

/-- A configuration that was parsed passes its validation exactly when no member that it needs was `null`
and no array counts as empty. -/
theorem jsonParseItem_validate_iff {w : Nat} {parse : Bytes → Option Json} {text : Bytes} {json : Json}
    (parsed : parse text = some json) {c : DataSourceConfiguration} (ok : jsonParseItem w parse text = .ok c) :
    c.validate = .ok () ↔ UsableDataSourceConfiguration w json := by
  simp only [jsonParseItem, parsed] at ok
  obtain ⟨configurationId, hid, h⟩ := bind_eq_ok ok
  obtain ⟨array, harray, h⟩ := bind_eq_ok h
  obtain ⟨dataSources, hfill, h⟩ := bind_eq_ok h
  cases h
  have hparsed := parsed_usable (fun _ _ => parseDataSource_usable) (fillListUsingJsonArray_ok hfill)
  have hvisited : visitedOf w json (payloadFieldNames .dataSources) = visited w array := by
    simp only [visitedOf, harray]
  rw [DataSourceConfiguration.validate_eq_ok, UsableDataSourceConfiguration, hvisited,
    parseAndGetStringValue_ne_none hid]
  exact and_congr_right fun _ => hparsed

def configurationJson (configurationId : Json) : Json :=
  .object [(payloadFieldNames .configurationId, configurationId),
    (payloadFieldNames .dataSources, .array (sampleConfiguration.dataSources.seq.map dataSourceTree))]

theorem configurationJson_validate : ∃ c, jsonParseItem 64
    (fun _ => some (configurationJson (.string (.lit "c")))) (configurationJson (.string (.lit "c"))).print =
      .ok c ∧ c.validate = .ok () := by
  have hparse : ∃ c, jsonParseItem 64 (fun _ => some (configurationJson (.string (.lit "c"))))
      (configurationJson (.string (.lit "c"))).print = .ok c := ⟨_, rfl⟩
  obtain ⟨c, ok⟩ := hparse
  exact ⟨c, ok, (jsonParseItem_validate_iff rfl ok).2 (by decide)⟩

/-- The arrays of a configuration have elements. -/
def ArraysNonEmpty (json : Json) : Prop :=
  ∃ sources, getObjectItem json (payloadFieldNames .dataSources) = .ok (.array sources) ∧ sources ≠ [] ∧
    ∀ s ∈ sources, ∃ points, getObjectItem s (payloadFieldNames .dataSourcesDataPoints) = .ok (.array points) ∧
      points ≠ []

/-- An id that is `null` is taken for an id. -/
theorem nullConfigurationId_not_validate : ¬ ∀ (w : Nat), 32 ≤ w → ∀ (parse : Bytes → Option Json) (text : Bytes)
    (json : Json), parse text = some json → ArraysNonEmpty json → ∀ c, jsonParseItem w parse text = .ok c →
      c.validate = .ok () := by
  intro h
  have hnonempty : ArraysNonEmpty (configurationJson .null) := by
    refine ⟨_, rfl, List.cons_ne_nil _ _, ?_⟩
    intro s hs
    cases hs with
    | head => exact ⟨_, rfl, List.cons_ne_nil _ _⟩
    | tail _ hs => cases hs
  have hinvalid : ∃ c, jsonParseItem 64 (fun _ => some (configurationJson .null))
      (configurationJson .null).print = .ok c ∧ c.validate = .error .invalidParameter := ⟨_, rfl, rfl⟩
  obtain ⟨c, hparse, hc⟩ := hinvalid
  rw [h 64 (by decide) _ _ _ rfl hnonempty c hparse] at hc
  cases hc

end MindConnect
