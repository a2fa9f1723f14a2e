import MindConnect.Connectivity.ConfigurationObjects

/-!
# What a data source configuration that is parsed leaves behind

`_fill_list_using_json_array` destroys what the list refuses, but hands the struct over in place of the address of its
pointer. `Inserts`, … say of a JSON and of what the allocations come to that no list refuses anything;
`jsonParseItem_released_iff` says that this is all that can go wrong.
-/

namespace MindConnect.ParsedObjects

open JsonUtil ObjectStore

/-! ## Where the parser is right -/

/-- No element that is parsed in `n` turns from `index` on is refused by the list, and all of them are `good`. -/
def Inserts {β : Type} (m : Memory) (array : Json) (of : Memory → Json → Result β) (good : Memory → Json → Prop) :
    Nat → Nat → Prop
  | 0, _ => True
  | n + 1, index => ∀ item, getArrayItem array index = .ok item →
    good ((m.of index).of 0) item ∧
      ∀ x, of ((m.of index).of 0) item = .ok x → m [index, 1] = true ∧ Inserts m array of good n (index + 1)

def InsertsAll {β : Type} (w : Nat) (m : Memory) (array : Json) (of : Memory → Json → Result β)
    (good : Memory → Json → Prop) : Prop :=
  ∀ arraySize, getArraySize w array = .ok arraySize → Inserts m array of good arraySize.toNat 0

/-- The data points of a data source. -/
def InsertsDataPoints (w : Nat) (m : Memory) (json : Json) : Prop :=
  ∀ head, dataSourceHead m json = .ok head → InsertsAll w (m.of 5) head.2.2.2 dataPointOf fun _ _ => True

/-- The data sources of a configuration, and the data points of each. -/
def InsertsDataSources (w : Nat) (m : Memory) (json : Json) : Prop :=
  ∀ head, configurationHead m json = .ok head →
    InsertsAll w (m.of 4) head.2 (dataSourceOf w) (InsertsDataPoints w)

/-! ## What is kept -/

theorem objects_dataPoint (p : DataPointObject) : objects p = {(.dataPoint, p.ref)} + [objects p.id, objects p.name,
    objects p.description, objects p.type, objects p.unit, objects p.customData].sum := rfl

theorem objects_dataSource (x : DataSourceObject) : objects x = {(.dataSource, x.ref)} + [objects x.name,
    objects x.description, objects x.dataPoints, objects x.customData].sum := rfl

theorem objects_payload (x : PayloadObject) : objects x = {(.dataSourceConfigurationPayload, x.ref)} +
    [objects x.configurationId, objects x.dataSources].sum := rfl

theorem objects_configuration (x : ConfigurationObject) :
    objects x = {(.dataSourceConfiguration, x.ref)} + [objects x.payload].sum := rfl

theorem destroys_dataPoint : Destroys mclDataPointDestroy :=
  destroys_struct objects_dataPoint fun p =>
    .cons (destroys_leaf.frees p.id) (.cons (destroys_leaf.frees p.name) (.cons (destroys_leaf.frees p.description)
      (.cons (destroys_leaf.frees p.type) (.cons (destroys_leaf.frees p.unit)
        (.cons (destroys_leaf.frees p.customData) .nil)))))

theorem destroys_dataSource : Destroys mclDataSourceDestroy :=
  destroys_struct objects_dataSource fun x =>
    .cons (destroys_leaf.frees x.name) (.cons (destroys_leaf.frees x.description)
      (.cons ((destroys_list destroys_dataPoint).frees x.dataPoints) (.cons (destroys_leaf.frees x.customData) .nil)))

theorem destroys_payload : Destroys destroyPayload :=
  destroys_struct objects_payload fun x =>
    .cons (destroys_leaf.frees x.configurationId)
      (.cons ((destroys_list destroys_dataSource).frees x.dataSources) .nil)

theorem destroys_configuration : Destroys mclDataSourceConfigurationDestroy := by
  have hobjects : ∀ x : ConfigurationObject,
      objects x = {(.dataSourceConfiguration, x.ref)} + (x.payload.toList.map objects).sum := by
    rintro ⟨n, _ | payload⟩ <;> rfl
  refine destroys_struct hobjects fun x => ?_
  rcases x with ⟨n, _ | payload⟩
  · exact .nil
  · exact .cons (destroys_payload.frees (some payload)) .nil

theorem parseDataPoint_keeps (m : Memory) (json : Json) : Keeps (parseDataPoint m json) := by
  refine onError_keeps destroys_dataPoint (filled_keeps (mclNew_keeps (fun n => ?_) _) fun s x hx => ?_)
  · simp [objects_dataPoint]
  obtain ⟨-, n, rfl⟩ := mclNew_some hx
  refine inRow_makes_keeps (fun id => ?_) fun id => ?_
  · simp only [objects_dataPoint, List.sum_cons, List.sum_nil, objects_none]
    abel
  refine inRow_makes_keeps (fun name => ?_) fun name => ?_
  · simp only [objects_dataPoint, List.sum_cons, List.sum_nil, objects_none]
    abel
  refine inRow_makes_keeps (fun type => ?_) fun type => ?_
  · simp only [objects_dataPoint, List.sum_cons, List.sum_nil, objects_none]
    abel
  refine inRow_makes_keeps (fun unit => ?_) fun unit => ?_
  · simp only [objects_dataPoint, List.sum_cons, List.sum_nil, objects_none]
    abel
  refine inRow_makes_keeps (fun description => ?_) fun description => ?_
  · simp only [objects_dataPoint, List.sum_cons, List.sum_nil, objects_none]
    abel
  refine inRow_makes_keeps (fun customData => ?_) fun customData => inRow_nil_keeps _
  · simp only [objects_dataPoint, List.sum_cons, List.sum_nil, objects_none]
    abel

theorem parseDataPoint_null (m : Memory) (json : Json) (s : Store) (e : McError)
    (h : (parseDataPoint m json s).1 = .error e) : (parseDataPoint m json s).2.1 = none := onError_null h

/-! ## The lists -/

section
variable {α β σ : Type} {kind : Kind} {ref : α → Nat} {value : α → β} {m : Memory} {array : Json}
  {of : Memory → Json → Result β} {good : Memory → Json → Prop} {parse : Memory → Json → Run α}

variable (hreads : ∀ m item, Reads value ((of m item).map some) (parse m item))
  (hnull : ∀ m item s e, (parse m item s).1 = .error e → (parse m item s).2.1 = none)
include hreads hnull

theorem parseItems_keeps_of_inserts [HasObjects α] (hkeeps : ∀ m item, good m item → Keeps (parse m item))
    {n index : Nat} (hins : Inserts m array of good n index) {list : ListObject α} {s : Store} {live : Objects}
    (h : Holds s (objects list + live)) :
    Holds (parseItems m array parse (destroyCallback kind ref) n index (some list) s).2.2
      (objects (parseItems m array parse (destroyCallback kind ref) n index (some list) s).2.1 + live) := by
  induction n generalizing index list s with
  | zero => exact h
  | succ n ih =>
    rw [parseItems]
    cases hitem : getArrayItem array index with
    | error e => exact h.call_nothing kind (.inl rfl)
    | ok item =>
      obtain ⟨hgood, hrest⟩ := hins item hitem
      have hkept := hkeeps _ item hgood s _ h
      have hnone := hnull ((m.of index).of 0) item s
      have hof := (hreads ((m.of index).of 0) item).of_ok (s := s)
      have hsome := fun x => (hreads ((m.of index).of 0) item).exists_of_ok (s := s) (x := x)
      simp only
      generalize parse ((m.of index).of 0) item s = result at hkept hnone hof hsome ⊢
      obtain ⟨e | u, x, s'⟩ := result
      · obtain rfl : x = none := hnone e rfl
        exact (by simpa using hkept : Holds s' (objects list + live)).call_nothing kind (.inl rfl)
      · obtain ⟨y, hy⟩ := hof rfl
        obtain ⟨x', s'', hx'⟩ := hsome y hy
        cases hx'
        obtain ⟨hallocated, hins'⟩ := hrest y hy
        have hkept : Holds s' (objects (some x') + (objects (some list) + live)) := hkept
        have hadded := mclListAdd_keeps hkept (m [index, 1])
        simp only [mclListAdd, hallocated, if_true] at hadded ⊢
        exact ih hins' hadded

/-- The struct that the list refuses is taken for the address of its pointer. -/
theorem parseItems_spoils (hspoils : ∀ m item, ¬good m item → Spoils (parse m item)) {n index : Nat}
    (hins : ¬Inserts m array of good n index) (list : ListObject α) (s : Store) :
    (∃ e, (parseItems m array parse (destroyCallback kind ref) n index (some list) s).1 = .error e) ∧
      Stained (parseItems m array parse (destroyCallback kind ref) n index (some list) s).2.2 := by
  induction n generalizing index list s with
  | zero => exact absurd trivial hins
  | succ n ih =>
    rw [Inserts] at hins
    push Not at hins
    obtain ⟨item, hitem, hrest⟩ := hins
    rw [parseItems, hitem]
    by_cases hgood : good ((m.of index).of 0) item
    · obtain ⟨y, hy, hrest⟩ := hrest hgood
      obtain ⟨x, s', hx⟩ := (hreads ((m.of index).of 0) item).exists_of_ok (s := s) hy
      simp only [hx]
      cases hallocated : m [index, 1] with
      | false =>
        simp only [mclListAdd, Bool.false_eq_true, if_false]
        exact ⟨⟨_, rfl⟩, stained_object _ _ _⟩
      | true =>
        simp only [mclListAdd, if_true]
        exact ih (hrest hallocated) _ _
    · obtain ⟨⟨e, he⟩, hstained⟩ := hspoils _ item hgood s
      have hnone := hnull _ item s e he
      simp only
      generalize parse ((m.of index).of 0) item s = result at he hstained hnone ⊢
      obtain ⟨code, x, s'⟩ := result
      obtain rfl : code = .error e := he
      exact ⟨⟨e, rfl⟩, hstained.call _ _⟩

variable {w : Nat} {json : Json} {name : PayloadFieldName} {list : σ → Option (ListObject α)}
  {set : Option (ListObject α) → σ → σ} {x : σ} {l : ListObject α}

theorem fillField_keeps [HasObjects α] [HasObjects σ] (hkeeps : ∀ m item, good m item → Keeps (parse m item))
    (hlist : list x = some l) {rest : Objects} (hx : objects x = objects l + rest)
    (hset : ∀ v, objects (set v x) = objects v + rest)
    (hins : ∀ array, getObjectItem json (payloadFieldNames name) = .ok array → InsertsAll w m array of good) :
    StepKeeps (inRow [fillField w m json name parse (destroyCallback kind ref) list set]) x := by
  intro s live h
  simp only [inRow, fillField]
  cases harray : getObjectItem json (payloadFieldNames name) with
  | error e => exact h
  | ok array =>
    rw [hx, add_assoc] at h
    have hfilled : Holds (fillListUsingJsonArray w m array parse (destroyCallback kind ref) (list x) s).2.2
        (objects (set (fillListUsingJsonArray w m array parse (destroyCallback kind ref) (list x) s).2.1 x) +
          live) := by
      rw [hset, add_assoc, hlist, fillListUsingJsonArray]
      cases hsize : getArraySize w array with
      | error e => exact h
      | ok arraySize =>
        exact parseItems_keeps_of_inserts hreads hnull hkeeps (hins array harray arraySize hsize) h
    simp only
    generalize fillListUsingJsonArray w m array parse (destroyCallback kind ref) (list x) s = result at hfilled ⊢
    obtain ⟨e | u, v, s'⟩ := result <;> exact hfilled

theorem fillField_spoils (hspoils : ∀ m item, ¬good m item → Spoils (parse m item)) (hlist : list x = some l)
    {array : Json} (harray : getObjectItem json (payloadFieldNames name) = .ok array)
    (hins : ¬InsertsAll w m array of good) :
    RowSpoils [fillField w m json name parse (destroyCallback kind ref) list set] x := by
  intro s
  rw [InsertsAll] at hins
  push Not at hins
  obtain ⟨arraySize, hsize, hins⟩ := hins
  have hspoiled :
      (∃ e, (parseItems m array parse (destroyCallback kind ref) arraySize.toNat 0 (some l) s).1 = .error e) ∧
      Stained (parseItems m array parse (destroyCallback kind ref) arraySize.toNat 0 (some l) s).2.2 :=
    parseItems_spoils hreads hnull hspoils hins l s
  obtain ⟨⟨e, he⟩, hstained⟩ := hspoiled
  simp only [inRow, fillField, harray, fillListUsingJsonArray, hsize, hlist]
  generalize parseItems m array parse (destroyCallback kind ref) arraySize.toNat 0 (some l) s = result at he hstained ⊢
  obtain ⟨code, v, s'⟩ := result
  obtain rfl : code = .error e := he
  exact ⟨⟨e, rfl⟩, hstained⟩

end

/-! ## A data source -/

theorem mclDataSourceInitialize_ok {m : Memory} (h0 : m [0] = true) (h1 : m [1] = true) (s : Store) :
    ∃ n l s', mclDataSourceInitialize m s = (.ok (), some ⟨n, none, none, some ⟨l, []⟩, none⟩, s') := by
  simp [mclDataSourceInitialize, construct, onError, filled, mclNew, mclListInitialize, inRow, setting, h0, h1]

theorem dataSourceHead_eq_ok {m : Memory} {json : Json} {head : Option CString × Option CString × Option Json × Json} :
    dataSourceHead m json = .ok head ↔
      m [0] = true ∧ m [1] = true ∧ stringValue (m [2]) json (payloadFieldNames .dataSourcesName) = .ok head.1 ∧
        ifExists (stringValue (m [3]) json (payloadFieldNames .description)) = .ok head.2.1 ∧
          customDataValue (m [4]) json = .ok head.2.2.1 ∧
            getObjectItem json (payloadFieldNames .dataSourcesDataPoints) = .ok head.2.2.2 := by
  obtain ⟨name, description, customData, array⟩ := head
  constructor
  · intro h
    obtain ⟨_, h0, h⟩ := bind_eq_ok h
    obtain ⟨_, h1, h⟩ := bind_eq_ok h
    obtain ⟨name, hname, h⟩ := bind_eq_ok h
    obtain ⟨description, hdescription, h⟩ := bind_eq_ok h
    obtain ⟨customData, hcustomData, h⟩ := bind_eq_ok h
    obtain ⟨array, harray, h⟩ := bind_eq_ok h
    cases h
    exact ⟨allocate_eq_ok h0, allocate_eq_ok h1, hname, hdescription, hcustomData, harray⟩
  · rintro ⟨h0, h1, hname, hdescription, hcustomData, harray⟩
    simp only [dataSourceHead, allocate, h0, h1, hname, hdescription, hcustomData, harray, if_true]
    rfl

theorem stains_dataPoint (p : Option DataPointObject) : Stains (mclDataPointDestroy p) := by
  refine stains_struct (fun x => ?_) p
  simp only [List.forall_mem_cons]
  exact ⟨stains_leaf _, stains_leaf _, stains_leaf _, stains_leaf _, stains_leaf _, stains_leaf _, by simp⟩

theorem stains_dataSource (p : Option DataSourceObject) : Stains (mclDataSourceDestroy p) := by
  refine stains_struct (fun x => ?_) p
  simp only [List.forall_mem_cons]
  exact ⟨stains_leaf _, stains_leaf _, stains_list stains_dataPoint _, stains_leaf _, by simp⟩

theorem stains_payload (p : Option PayloadObject) : Stains (destroyPayload p) := by
  refine stains_struct (fun x => ?_) p
  simp only [List.forall_mem_cons]
  exact ⟨stains_leaf _, stains_list stains_dataSource _, by simp⟩

theorem stains_configuration (p : Option ConfigurationObject) : Stains (mclDataSourceConfigurationDestroy p) := by
  refine stains_struct (fun x => ?_) p
  rintro f hf
  obtain ⟨payload, -, rfl⟩ := List.mem_map.1 hf
  exact stains_payload _

theorem mclDataSourceInitialize_keeps (m : Memory) : Keeps (mclDataSourceInitialize m) := by
  refine onError_keeps destroys_dataSource (filled_keeps (mclNew_keeps (fun n => ?_) _) fun s x hx => ?_)
  · simp [objects_dataSource]
  obtain ⟨-, n, rfl⟩ := mclNew_some hx
  refine inRow_setting_keeps (mclListInitialize_keeps _) (fun dataPoints => ?_) fun _ _ _ => inRow_nil_keeps _
  simp only [objects_dataSource, List.sum_cons, List.sum_nil, objects_none]
  abel

theorem parseDataSource_keeps {w : Nat} {m : Memory} {json : Json} (h : InsertsDataPoints w m json) :
    Keeps (parseDataSource w m json) := by
  refine onError_keeps destroys_dataSource (filled_keeps (mclDataSourceInitialize_keeps m) fun s x hx => ?_)
  obtain ⟨h0, h1, n, l, rfl⟩ := mclDataSourceInitialize_some hx
  refine inRow_setting_keeps (makes_keeps _ _) (fun name => ?_) fun _ name hname => ?_
  · simp only [objects_dataSource, List.sum_cons, List.sum_nil, objects_none]
    abel
  refine inRow_setting_keeps (makes_keeps _ _) (fun description => ?_) fun _ description hdescription => ?_
  · simp only [objects_dataSource, List.sum_cons, List.sum_nil, objects_none]
    abel
  refine inRow_setting_keeps (makes_keeps _ _) (fun customData => ?_) fun _ customData hcustomData => ?_
  · simp only [objects_dataSource, List.sum_cons, List.sum_nil, objects_none]
    abel
  obtain ⟨nameValue, hname⟩ := makes_ok hname
  obtain ⟨descriptionValue, hdescription⟩ := makes_ok hdescription
  obtain ⟨customDataJson, hcustomData⟩ := makes_ok hcustomData
  have hobjects : ∀ dataPoints, objects (DataSourceObject.mk n name description dataPoints customData) =
      objects dataPoints + objects (DataSourceObject.mk n name description none customData) := by
    intro dataPoints
    simp only [objects_dataSource, List.sum_cons, List.sum_nil, objects_none]
    abel
  have hinserts : ∀ array, getObjectItem json (payloadFieldNames .dataSourcesDataPoints) = .ok array →
      InsertsAll w (m.of 5) array dataPointOf fun _ _ => True := by
    intro array harray
    exact h (nameValue, descriptionValue, customDataJson, array)
      (dataSourceHead_eq_ok.2 ⟨h0, h1, hname, hdescription, hcustomData, harray⟩)
  exact fillField_keeps parseDataPoint_reads parseDataPoint_null (fun m item _ => parseDataPoint_keeps m item) rfl
    (hobjects (some _)) hobjects hinserts

/-- A data point that is parsed and refused. -/
theorem parseDataSource_spoils {w : Nat} {m : Memory} {json : Json} (h : ¬InsertsDataPoints w m json) :
    Spoils (parseDataSource w m json) := by
  rw [InsertsDataPoints] at h
  push Not at h
  obtain ⟨⟨name, description, customData, array⟩, hhead, hinserts⟩ := h
  obtain ⟨h0, h1, hname, hdescription, hcustomData, harray⟩ := dataSourceHead_eq_ok.1 hhead
  refine onError_spoils stains_dataSource (filled_spoils fun s => ?_)
  obtain ⟨n, l, s', hs⟩ := mclDataSourceInitialize_ok h0 h1 s
  refine ⟨_, _, hs, ?_⟩
  refine inRow_makes_spoils hname fun name => ?_
  refine inRow_makes_spoils hdescription fun description => ?_
  refine inRow_makes_spoils hcustomData fun customData => ?_
  exact fillField_spoils parseDataPoint_reads parseDataPoint_null (fun m item hnot => absurd trivial hnot) rfl harray
    hinserts

theorem parseDataSource_null (w : Nat) (m : Memory) (json : Json) (s : Store) (e : McError)
    (h : (parseDataSource w m json s).1 = .error e) : (parseDataSource w m json s).2.1 = none := onError_null h

/-! ## The configuration -/

theorem mclDataSourceConfigurationInitialize_ok {m : Memory} (h0 : m [0] = true) (h1 : m [1] = true)
    (h2 : m [2] = true) (s : Store) :
    ∃ n p l s', mclDataSourceConfigurationInitialize m s = (.ok (), some ⟨n, some ⟨p, none, some ⟨l, []⟩⟩⟩, s') := by
  simp [mclDataSourceConfigurationInitialize, initializePayload, construct, onError, filled, mclNew,
    mclListInitialize, inRow, setting, h0, h1, h2]

theorem configurationHead_eq_ok {m : Memory} {json : Json} {head : Option CString × Json} :
    configurationHead m json = .ok head ↔
      m [0] = true ∧ m [1] = true ∧ m [2] = true ∧
        stringValue (m [3]) json (payloadFieldNames .configurationId) = .ok head.1 ∧
          getObjectItem json (payloadFieldNames .dataSources) = .ok head.2 := by
  obtain ⟨configurationId, array⟩ := head
  constructor
  · intro h
    obtain ⟨_, h0, h⟩ := bind_eq_ok h
    obtain ⟨_, h1, h⟩ := bind_eq_ok h
    obtain ⟨_, h2, h⟩ := bind_eq_ok h
    obtain ⟨configurationId, hid, h⟩ := bind_eq_ok h
    obtain ⟨array, harray, h⟩ := bind_eq_ok h
    cases h
    exact ⟨allocate_eq_ok h0, allocate_eq_ok h1, allocate_eq_ok h2, hid, harray⟩
  · rintro ⟨h0, h1, h2, hid, harray⟩
    simp only [configurationHead, allocate, h0, h1, h2, hid, harray, if_true]
    rfl

theorem initializePayload_keeps (m : Memory) : Keeps (initializePayload m) := by
  refine filled_keeps (mclNew_keeps (fun n => ?_) _) fun s x hx => ?_
  · simp [objects_payload]
  obtain ⟨-, n, rfl⟩ := mclNew_some hx
  refine inRow_setting_keeps (mclListInitialize_keeps _) (fun dataSources => ?_) fun _ _ _ => inRow_nil_keeps _
  simp only [objects_payload, List.sum_cons, List.sum_nil, objects_none]
  abel

theorem mclDataSourceConfigurationInitialize_keeps (m : Memory) : Keeps (mclDataSourceConfigurationInitialize m) := by
  refine onError_keeps destroys_configuration (filled_keeps (mclNew_keeps (fun n => ?_) _) fun s x hx => ?_)
  · simp [objects_configuration]
  obtain ⟨-, n, rfl⟩ := mclNew_some hx
  refine inRow_setting_keeps (initializePayload_keeps m) (fun payload => ?_) fun _ _ _ => inRow_nil_keeps _
  simp only [objects_configuration, List.sum_cons, List.sum_nil, objects_none]
  abel

theorem parseDataSourceConfiguration_keeps {w : Nat} {m : Memory} {json : Json} (h : InsertsDataSources w m json) :
    Keeps (parseDataSourceConfiguration w m json) := by
  refine onError_keeps destroys_configuration
    (filled_keeps (mclDataSourceConfigurationInitialize_keeps m) fun s x hx => ?_)
  obtain ⟨h0, h1, h2, n, p, l, rfl⟩ := mclDataSourceConfigurationInitialize_some hx
  refine inRow_setting_keeps (makes_keeps _ _) (fun id => ?_) fun _ id hid => ?_
  · simp only [ConfigurationObject.withPayload, Option.map_some, objects_configuration, objects_payload, List.sum_cons,
      List.sum_nil, objects_none, objects_some]
    abel
  obtain ⟨idValue, hid⟩ := makes_ok hid
  have hinserts : ∀ array, getObjectItem json (payloadFieldNames .dataSources) = .ok array →
      InsertsAll w (m.of 4) array (dataSourceOf w) (InsertsDataPoints w) := by
    intro array harray
    exact h (idValue, array) (configurationHead_eq_ok.2 ⟨h0, h1, h2, hid, harray⟩)
  have hlist : ∀ list, objects (ConfigurationObject.mk n (some ⟨p, id, list⟩)) =
      objects list + objects (ConfigurationObject.mk n (some ⟨p, id, none⟩)) := by
    intro list
    simp only [objects_configuration, objects_payload, List.sum_cons, List.sum_nil, objects_none, objects_some]
    abel
  exact fillField_keeps (parseDataSource_reads w) (parseDataSource_null w)
    (fun m item hgood => parseDataSource_keeps hgood) rfl (hlist (some _)) hlist hinserts

/-- A data source that is parsed and refused, or a data point in one of them. -/
theorem parseDataSourceConfiguration_spoils {w : Nat} {m : Memory} {json : Json} (h : ¬InsertsDataSources w m json) :
    Spoils (parseDataSourceConfiguration w m json) := by
  rw [InsertsDataSources] at h
  push Not at h
  obtain ⟨⟨configurationId, array⟩, hhead, hinserts⟩ := h
  obtain ⟨h0, h1, h2, hid, harray⟩ := configurationHead_eq_ok.1 hhead
  refine onError_spoils stains_configuration (filled_spoils fun s => ?_)
  obtain ⟨n, p, l, s', hs⟩ := mclDataSourceConfigurationInitialize_ok h0 h1 h2 s
  refine ⟨_, _, hs, ?_⟩
  refine inRow_makes_spoils hid fun id => ?_
  exact fillField_spoils (parseDataSource_reads w) (parseDataSource_null w) (fun m item => parseDataSource_spoils) rfl
    harray hinserts

theorem parseDataSourceConfiguration_hands (w : Nat) (m : Memory) (json : Json) :
    Hands (parseDataSourceConfiguration w m json) :=
  construct_hands (construct_hands (mclNew_hands _ _ _).item).item

/-- It releases what it built if no list refuses what was parsed for it, and a text that is none finds a null
pointer. -/
theorem jsonParseItem_released_iff (w : Nat) (m : Memory) (parse : Bytes → Option Json) (text : Bytes)
    (wasNull : Bool) :
    Released wasNull (jsonParseItem w m parse text) ↔
      (∀ json, parse text = some json → InsertsDataSources w m json) ∧ (parse text = none → wasNull = true) := by
  by_cases h : ∀ json, parse text = some json → InsertsDataSources w m json
  · have hreleased : Released wasNull (jsonParseItem w m parse text) ↔ (parse text = none → wasNull = true) :=
      parseText_released (fun json hjson => parseDataSourceConfiguration_keeps (h json hjson))
        (parseDataSourceConfiguration_hands w m)
    rw [hreleased, and_iff_right h]
  · have hnot := h
    push Not at h
    obtain ⟨json, hjson, hrefused⟩ := h
    exact iff_of_false (parseText_not_released hjson (parseDataSourceConfiguration_spoils hrefused)) fun hboth =>
      hnot hboth.1

end MindConnect.ParsedObjects
