import MindConnect.Core.JsonUtil
import MindConnect.Lib.CriticalSection
import MindConnect.Lib.Rose

/-!
# Building JSON: the `json_util_add_` and `json_util_start_` functions over cJSON's trees

Here memory may be short in every call, and the target may be any node of any tree: an array may get children
that have a name, an object children that have none.

| here | there |
| --- | --- |
| `Cjson` | `cJSON` (`cJSON.h:103`): type with value, name, children |
| `Allocation` | what the allocations of one call come to: the item, the copy of a string value, the copy of the name |
| `createItem`, `createString` | `cJSON_CreateNull` (`cJSON.c:2408`), …, `cJSON_CreateString` (`:2478`) |
| `addItemToArray`, `addItemToObject` | `add_item_to_array` (`:1974`), `add_item_to_object` (`:2029`) |
| `getObjectItem` | `cJSON_GetObjectItem` (`:1930`) |
| `addString`, `addBool`, `addNull`, `addNumber` | `json_util_add_string` (`json_util.c:273`), `_add_bool` (`:392`), `_add_null` (`:455`), `_add_number` (`:926`) |
| `startArray`, `startObject`, `addObject` | `json_util_start_array` (`:107`), `_start_object` (`:226`), `_add_object` (`:512`) |

`F` stands for `double`, `toDouble` for the cast to it. The targets are not null.
-/

namespace MindConnect.JsonBuilder

variable {F : Type}

/-! ## Trees -/

/-- `type` of a `cJSON`, with its `valuedouble` or `valuestring` -/
inductive ItemType (F : Type) where
  | bool (value : Bool)
  | null
  | number (valuedouble : F)
  | string (valuestring : CString)
  | array
  | object
deriving DecidableEq

/-- `name` is the `string` of a `cJSON`, which the root of a tree does not have. -/
structure Label (F : Type) where
  type : ItemType F
  name : Option CString
deriving DecidableEq

abbrev Cjson (F : Type) := Rose (Label F)

structure Allocation where
  item : Bool
  value : Bool
  name : Bool
deriving DecidableEq

/-- Memory for everything. -/
def Allocation.available : Allocation := ⟨true, true, true⟩

/-! ## cJSON -/

def createItem (m : Allocation) (type : ItemType F) : Option (Cjson F) :=
  if m.item then some (.node ⟨type, none⟩ []) else none

/-- There is no copy of a null pointer. -/
def createString (m : Allocation) (value : Option CString) : Option (Cjson F) :=
  value.bind fun s => if m.item && m.value then some (.node ⟨.string s, none⟩ []) else none

def addItemToArray (array : Cjson F) (item : Option (Cjson F)) : Cjson F :=
  match item with
  | none => array
  | some item => array.append item

def named (name : CString) (item : Cjson F) : Cjson F := item.relabel ⟨item.label.type, some name⟩

/-- The object afterwards, if the item could be added. -/
def addItemToObject (m : Allocation) (object : Cjson F) (name : Option CString) (item : Option (Cjson F)) :
    Option (Cjson F) := do
  let name ← name
  let item ← item
  if m.name then some (object.append (named name item)) else none

/-- `cJSON_AddStringToObject` and its siblings (`cJSON.c:2097`-`:2167`): an item that could not be added is deleted. -/
def addNewItemToObject (m : Allocation) (object : Cjson F) (name : Option CString) (item : Option (Cjson F)) :
    Cjson F :=
  (addItemToObject m object name item).getD object

/-- The first child of that name in whatever case; children without a name are passed over. -/
def getObjectItem (root : Cjson F) (name : Option CString) : Option (Cjson F) :=
  name.bind fun name => root.children.find? fun c => c.label.name.any (Json.sameName name)

/-! ## Values -/

/-- What `json_util_add_string`, `_add_bool` and `_add_number` do with the item they want to add. -/
def addValue (m : Allocation) (root : Cjson F) (name : Option CString) (item : Option (Cjson F)) :
    Result Unit × Cjson F :=
  match root.label.type, name with
  | .array, none =>
    match item with
    | none => (.error .outOfMemory, root)
    | some item => (.ok (), addItemToArray root (some item))
  | .object, some name =>
    match getObjectItem root (some name) with
    | none => (.ok (), addNewItemToObject m root (some name) item)
    | some _ => (.error .jsonNameDuplication, root)
  | _, _ => (.error .invalidParameter, root)

def addString (m : Allocation) (root : Cjson F) (name value : Option CString) : Result Unit × Cjson F :=
  addValue m root name (createString m value)

def addBool (m : Allocation) (root : Cjson F) (name : Option CString) (value : Bool) : Result Unit × Cjson F :=
  addValue m root name (createItem m (.bool value))

def addNumber (m : Allocation) (root : Cjson F) (name : Option CString) (number : F) : Result Unit × Cjson F :=
  addValue m root name (createItem m (.number number))

/-- `json_util_add_uint` (`json_util.c:336`) -/
def addUint (toDouble : Nat → F) (m : Allocation) (root : Cjson F) (name : Option CString) (number : Nat) :
    Result Unit × Cjson F :=
  addNumber m root name (toDouble number)

/-- `json_util_add_double` (`json_util.c:364`) -/
def addDouble (m : Allocation) (root : Cjson F) (name : Option CString) (number : F) : Result Unit × Cjson F :=
  addNumber m root name number

/-- To an array nothing is added without memory, and nothing is reported. -/
def addNull (m : Allocation) (root : Cjson F) (name : Option CString) : Result Unit × Cjson F :=
  match root.label.type, name with
  | .array, none => (.ok (), addItemToArray root (createItem m .null))
  | .object, some name =>
    match getObjectItem root (some name) with
    | none => (.ok (), addNewItemToObject m root (some name) (createItem m .null))
    | some _ => (.error .jsonNameDuplication, root)
  | _, _ => (.error .invalidParameter, root)

/-! ## Children -/

/-- `json_util_start_array` and `_start_object`: the code, the target afterwards, and the child if it is handed out
without being in the tree. -/
def startChild (type : ItemType F) (m : Allocation) (root : Cjson F) (name : Option CString) :
    Result Unit × Cjson F × Option (Cjson F) :=
  match getObjectItem root name with
  | some _ => (.error .jsonNameDuplication, root, none)
  | none =>
    match createItem m type with
    | none => (.error .outOfMemory, root, none)
    | some child =>
      match addItemToObject m root name (some child) with
      | some root => (.ok (), root, none)
      | none => (.ok (), root, some child)

def startArray (m : Allocation) (root : Cjson F) (name : Option CString) :
    Result Unit × Cjson F × Option (Cjson F) :=
  startChild .array m root name

def startObject (m : Allocation) (root : Cjson F) (name : Option CString) :
    Result Unit × Cjson F × Option (Cjson F) :=
  startChild .object m root name

/-- The code, the target afterwards, and the object if it still stands alone. -/
def addObject (m : Allocation) (root : Cjson F) (name : Option CString) (object : Cjson F) :
    Result Unit × Cjson F × Option (Cjson F) :=
  match getObjectItem root name with
  | some _ => (.error .jsonNameDuplication, root, some object)
  | none =>
    match addItemToObject m root name (some object) with
    | some root => (.ok (), root, none)
    | none => (.ok (), root, some object)

/-! ## Success and the new member -/

/-- A call of one of the functions that add a value. -/
inductive Addition (F : Type) where
  | string (value : Option CString)
  | uint (number : Nat)
  | double (number : F)
  | bool (value : Bool)
  | null
deriving DecidableEq

def Addition.perform (toDouble : Nat → F) (m : Allocation) (root : Cjson F) (name : Option CString) :
    Addition F → Result Unit × Cjson F
  | .string value => addString m root name value
  | .uint number => addUint toDouble m root name number
  | .double number => addDouble m root name number
  | .bool value => addBool m root name value
  | .null => addNull m root name

/-- The type and value of the new member; a null string has none. -/
def Addition.type? (toDouble : Nat → F) : Addition F → Option (ItemType F)
  | .string value => value.map .string
  | .uint number => some (.number (toDouble number))
  | .double number => some (.number number)
  | .bool value => some (.bool value)
  | .null => some .null

/-- The old members, and the new one at the end. -/
def Addition.Added (toDouble : Nat → F) (addition : Addition F) (root : Cjson F) (name : Option CString)
    (root' : Cjson F) : Prop :=
  ∃ type, addition.type? toDouble = some type ∧ root' = root.append (.node ⟨type, name⟩ [])

/-- `MCL_OK` exactly if the member was added, else an error and the tree as it was. -/
def Addition.ReportsAdded (toDouble : Nat → F) (m : Allocation) (addition : Addition F) (root : Cjson F)
    (name : Option CString) : Prop :=
  ((addition.perform toDouble m root name).1 = .ok () ↔
      addition.Added toDouble root name (addition.perform toDouble m root name).2) ∧
    ((addition.perform toDouble m root name).1 ≠ .ok () → (addition.perform toDouble m root name).2 = root)

/-- cJSON has the memory for the item of this addition, and there is a value. -/
def Addition.creates (m : Allocation) : Addition F → Bool
  | .string value => value.isSome && m.item && m.value
  | _ => m.item

/-- Where the library's answer is not looked at: any addition to an object under a new name, and `null` at the end
of an array. -/
def Addition.unchecked (addition : Addition F) (root : Cjson F) (name : Option CString) : Bool :=
  match root.label.type, name, addition with
  | .object, some name, _ => (getObjectItem root (some name)).isNone
  | .array, none, .null => true
  | _, _, _ => false

/-- The memory that an unchecked addition takes: the item, and to an object the copy of the name. -/
def Addition.suffices (m : Allocation) (addition : Addition F) (name : Option CString) : Bool :=
  addition.creates m && (name.isNone || m.name)

def Addition.item (toDouble : Nat → F) (m : Allocation) : Addition F → Option (Cjson F)
  | .string value => createString m value
  | .uint number => createItem m (.number (toDouble number))
  | .double number => createItem m (.number number)
  | .bool value => createItem m (.bool value)
  | .null => createItem m .null

section

variable {toDouble : Nat → F} {m : Allocation} {addition : Addition F} {root : Cjson F} {name : Option CString}

theorem createItem_eq_some {type : ItemType F} (h : m.item = true) :
    createItem m type = some (.node ⟨type, none⟩ []) := by
  rw [createItem, if_pos h]

theorem createItem_eq_none {type : ItemType F} (h : m.item = false) : createItem m type = none := by
  rw [createItem, h]
  rfl

variable (toDouble) in
theorem item_of_creates (h : addition.creates m = true) :
    ∃ type, addition.type? toDouble = some type ∧ addition.item toDouble m = some (.node ⟨type, none⟩ []) := by
  cases addition with
  | string value =>
    cases value with
    | none => cases h
    | some s =>
      have hmem : (m.item && m.value) = true := by simpa [Addition.creates] using h
      exact ⟨.string s, rfl, by simp [Addition.item, createString, hmem]⟩
  | uint number => exact ⟨_, rfl, createItem_eq_some h⟩
  | double number => exact ⟨_, rfl, createItem_eq_some h⟩
  | bool value => exact ⟨_, rfl, createItem_eq_some h⟩
  | null => exact ⟨_, rfl, createItem_eq_some h⟩

variable (toDouble) in
theorem item_of_not_creates (h : addition.creates m = false) : addition.item toDouble m = none := by
  cases addition with
  | string value =>
    cases value with
    | none => rfl
    | some s =>
      have hmem : (m.item && m.value) = false := by simpa [Addition.creates] using h
      simp [Addition.item, createString, hmem]
  | uint number => exact createItem_eq_none h
  | double number => exact createItem_eq_none h
  | bool value => exact createItem_eq_none h
  | null => exact createItem_eq_none h

/-- `null` apart, an addition is `addValue`. -/
theorem perform_eq (hnull : addition ≠ .null) :
    addition.perform toDouble m root name = addValue m root name (addition.item toDouble m) := by
  cases addition with
  | null => exact absurd rfl hnull
  | _ => rfl

/-- To an object, `null` included, nothing is checked but the name. -/
theorem perform_object {s : CString} (htype : root.label.type = .object) :
    addition.perform toDouble m root (some s) =
      match getObjectItem root (some s) with
      | none => (.ok (), addNewItemToObject m root (some s) (addition.item toDouble m))
      | some _ => (.error .jsonNameDuplication, root) := by
  cases addition with
  | null => simp only [Addition.perform, Addition.item, addNull, htype]
  | _ => simp only [perform_eq, ne_eq, reduceCtorEq, not_false_eq_true, addValue, htype]

theorem perform_array_of_some {item : Cjson F} (htype : root.label.type = .array)
    (hitem : addition.item toDouble m = some item) :
    addition.perform toDouble m root none = (.ok (), root.append item) := by
  cases addition with
  | null =>
    simp only [Addition.item] at hitem
    simp only [Addition.perform, addNull, htype, hitem, addItemToArray]
  | _ => simp only [perform_eq, ne_eq, reduceCtorEq, not_false_eq_true, addValue, htype, hitem, addItemToArray]

/-- Without an item the array stays as it is; that is an error except for `null`. -/
theorem perform_array_of_none (htype : root.label.type = .array) (hitem : addition.item toDouble m = none) :
    (addition = .null → addition.perform toDouble m root none = (.ok (), root)) ∧
      (addition ≠ .null → addition.perform toDouble m root none = (.error .outOfMemory, root)) := by
  constructor
  · rintro rfl
    simp only [Addition.item] at hitem
    simp only [Addition.perform, addNull, htype, hitem, addItemToArray]
  · intro hnull
    simp only [perform_eq hnull, addValue, htype, hitem]

theorem perform_other (harray : root.label.type = .array → name ≠ none)
    (hobject : root.label.type = .object → name = none) :
    addition.perform toDouble m root name = (.error .invalidParameter, root) := by
  have hvalue : ∀ item, addValue m root name item = (.error .invalidParameter, root) := by
    intro item
    unfold addValue
    split
    · next htype => exact absurd rfl (harray htype)
    · next htype => exact absurd (hobject htype) (by simp)
    · rfl
  cases addition with
  | null =>
    simp only [Addition.perform]
    unfold addNull
    split
    · next htype => exact absurd rfl (harray htype)
    · next htype => exact absurd (hobject htype) (by simp)
    · rfl
  | _ =>
    rw [perform_eq (by simp)]
    exact hvalue _

theorem unchecked_iff : addition.unchecked root name = true ↔
    (root.label.type = .object ∧ ∃ s, name = some s ∧ getObjectItem root (some s) = none) ∨
      (root.label.type = .array ∧ name = none ∧ addition = .null) := by
  unfold Addition.unchecked
  split <;> simp_all

/-- An addition to an object under a new name answers `MCL_OK` in any case. -/
theorem reportsAdded_object {s : CString} (htype : root.label.type = .object)
    (hnew : getObjectItem root (some s) = none) :
    addition.ReportsAdded toDouble m root (some s) ↔ addition.suffices m (some s) = true := by
  have hperform : addition.perform toDouble m root (some s) =
      (.ok (), addNewItemToObject m root (some s) (addition.item toDouble m)) := by
    rw [perform_object htype, hnew]
  cases hcreates : addition.creates m with
  | true =>
    obtain ⟨type, hvalue, hitem⟩ := item_of_creates toDouble hcreates
    cases hname : m.name with
    | true =>
      have hadded : addNewItemToObject m root (some s) (addition.item toDouble m) =
          root.append (.node ⟨type, some s⟩ []) := by
        rw [hitem]
        simp [addNewItemToObject, addItemToObject, hname, named, Rose.relabel]
      refine iff_of_true ⟨?_, ?_⟩ (by simp [Addition.suffices, hcreates, hname])
      · rw [hperform, hadded]
        exact iff_of_true rfl ⟨type, hvalue, rfl⟩
      · rw [hperform]
        exact fun h => absurd rfl h
    | false =>
      have hkept : addNewItemToObject m root (some s) (addition.item toDouble m) = root := by
        rw [hitem]
        simp [addNewItemToObject, addItemToObject, hname]
      refine iff_of_false ?_ (by simp [Addition.suffices, hname])
      rintro ⟨hok, -⟩
      rw [hperform, hkept] at hok
      obtain ⟨type, -, happend⟩ := hok.1 rfl
      exact Rose.append_ne_self _ _ happend.symm
  | false =>
    have hkept : addNewItemToObject m root (some s) (addition.item toDouble m) = root := by
      rw [item_of_not_creates toDouble hcreates]
      rfl
    refine iff_of_false ?_ (by simp [Addition.suffices, hcreates])
    rintro ⟨hok, -⟩
    rw [hperform, hkept] at hok
    obtain ⟨type, -, happend⟩ := hok.1 rfl
    exact Rose.append_ne_self _ _ happend.symm

theorem reportsAdded_array (htype : root.label.type = .array) :
    addition.ReportsAdded toDouble m root none ↔ (addition = .null → addition.suffices m none = true) := by
  have hsuffices : addition.suffices m none = addition.creates m := by simp [Addition.suffices]
  rw [hsuffices]
  cases hcreates : addition.creates m with
  | true =>
    obtain ⟨type, hvalue, hitem⟩ := item_of_creates toDouble hcreates
    refine iff_of_true ⟨?_, ?_⟩ fun _ => rfl
    · rw [perform_array_of_some htype hitem]
      exact iff_of_true rfl ⟨type, hvalue, rfl⟩
    · rw [perform_array_of_some htype hitem]
      exact fun h => absurd rfl h
  | false =>
    obtain ⟨hnull, hother⟩ := perform_array_of_none htype (item_of_not_creates toDouble hcreates)
    have hnot : ¬ addition.Added toDouble root none root := by
      rintro ⟨type, -, happend⟩
      exact Rose.append_ne_self _ _ happend.symm
    constructor
    · rintro ⟨hok, -⟩ h
      rw [hnull h] at hok
      exact absurd (hok.1 rfl) hnot
    · intro h
      have hne : addition ≠ .null := fun he => absurd (h he) (by simp)
      refine ⟨?_, ?_⟩
      · rw [hother hne]
        exact iff_of_false (by simp) hnot
      · rw [hother hne]
        exact fun _ => rfl

/-- A refused addition changes nothing. -/
theorem reportsAdded_refused {e : McError}
    (hperform : addition.perform toDouble m root name = (.error e, root)) :
    addition.ReportsAdded toDouble m root name := by
  refine ⟨?_, fun _ => by rw [hperform]⟩
  rw [hperform]
  refine iff_of_false (by simp) ?_
  rintro ⟨type, -, happend⟩
  exact Rose.append_ne_self _ _ happend.symm

/-- **What is reported.** The additions tell the truth exactly if an unchecked one has the memory it takes. -/
theorem reportsAdded_iff (toDouble : Nat → F) (m : Allocation) (addition : Addition F) (root : Cjson F)
    (name : Option CString) :
    addition.ReportsAdded toDouble m root name ↔
      (addition.unchecked root name = true → addition.suffices m name = true) := by
  rw [unchecked_iff]
  cases name with
  | none =>
    by_cases harray : root.label.type = .array
    · rw [reportsAdded_array harray]
      simp [harray]
    · refine iff_of_true (reportsAdded_refused (perform_other (fun h => absurd h harray) fun _ => rfl)) ?_
      rintro (⟨-, s, hs, -⟩ | ⟨h, -⟩)
      · cases hs
      · exact absurd h harray
  | some s =>
    by_cases hobject : root.label.type = .object
    · cases hchild : getObjectItem root (some s) with
      | none =>
        rw [reportsAdded_object hobject hchild]
        simp [hobject, hchild]
      | some child =>
        refine iff_of_true (reportsAdded_refused (e := .jsonNameDuplication) ?_) ?_
        · rw [perform_object hobject, hchild]
        · rintro (⟨-, t, ht, hnone⟩ | ⟨-, hname, -⟩)
          · cases ht
            rw [hchild] at hnone
            cases hnone
          · cases hname
    · refine iff_of_true (reportsAdded_refused (perform_other (by simp) fun h => absurd h hobject)) ?_
      rintro (⟨h, -⟩ | ⟨-, hname, -⟩)
      · exact absurd h hobject
      · cases hname

end

def emptyObject : Cjson F := .node ⟨.object, none⟩ []

/-- With memory for the item and not for its name, the object stays empty and the answer is `MCL_OK`. -/
theorem lostString_not_reportsAdded :
    (Addition.string (some (.lit "agent"))).perform id ⟨true, true, false⟩ emptyObject (some (.lit "client_id")) =
        (.ok (), emptyObject) ∧
      ¬ (Addition.string (some (.lit "agent"))).ReportsAdded id ⟨true, true, false⟩ emptyObject
        (some (.lit "client_id")) := by
  refine ⟨rfl, ?_⟩
  rintro ⟨hok, -⟩
  obtain ⟨type, -, happend⟩ := hok.1 rfl
  exact Rose.append_ne_self _ _ happend.symm

end MindConnect.JsonBuilder
