import MindConnect.Core.Common
import MindConnect.Lib.Json
import MindConnect.Lib.Scan

/-!
# The JSON utility: `mcl_core/src/json_util.c` over cJSON

| here | there |
| --- | --- |
| `Json`, `Json.print` | a `cJSON` tree, `cJSON_PrintUnformatted` (`cJSON.c:911`, `:1380`, `:1552`, `:1732`) |
| `Json.lookup` | `cJSON_GetObjectItem`, case-insensitive (`cJSON.c:1898`) |
| `addString`, `addUint`, `addObject` | `mcl_json_util_add_string`, `_add_uint`, `_add_object` on an object |
| `startChild` | `mcl_json_util_start_object` / `_start_array`, with the child's final content |
| `getString` | `json_util_get_string`: a string is copied, `null` gives a null pointer with `MCL_OK` |
| `getArraySize`, `getArrayItem` | the same functions with cJSON's `int` size and index |
| `toString` | `json_util_to_string`: cJSON's print buffer never grows beyond `INT_MAX` |

Memory is available throughout, except where an `allocated` flag says otherwise. `Memory` is for the parsers of whole
texts, what each of their allocations comes to.
-/

namespace MindConnect.JsonUtil

open Json (lookup)

/-- What an allocation comes to, found by the path of calls that leads to it. -/
abbrev Memory := List Nat → Bool

/-- The allocations of the `k`-th call. -/
def Memory.of (m : Memory) (k : Nat) : Memory := fun path => m (k :: path)

/-- The members of an object under construction, in the order they were added. -/
abbrev Members := List (CString × Json)

/-- The check all functions that add a named child share: `MCL_JSON_NAME_DUPLICATION`. -/
def checkName (root : Members) (name : CString) : Result Unit :=
  match lookup name root with
  | none => .ok ()
  | some _ => .error .jsonNameDuplication

def addString (root : Members) (name : CString) (value : Option CString) : Result Members :=
  match value with
  | none => .error .triggeredWithNull
  | some value => do
    checkName root name
    return root ++ [(name, .string value)]

/-- The text of a number that `print_number` writes with `"%d"`. -/
def numberText (n : Nat) : Bytes := (Nat.toDigits 10 n).map fun c => c.toNat.toUInt8

def addUint (root : Members) (name : CString) (number : Nat) : Result Members := do
  checkName root name
  return root ++ [(name, .number (numberText number))]

def addObject (root : Members) (name : CString) (object : Json) : Result Members := do
  checkName root name
  return root ++ [(name, object)]

/-- Start a child, then fill it in place: if filling fails, so does the whole. -/
def startChild (root : Members) (name : CString) (content : Result Json) : Result Members := do
  checkName root name
  let child ← content
  return root ++ [(name, child)]

/-- Only an object has named children. -/
def getObjectItem (parent : Json) (name : CString) : Result Json :=
  match parent with
  | .object members =>
    match lookup name members with
    | some child => .ok child
    | none => .error .jsonNonExistingChild
  | _ => .error .jsonNonExistingChild

def getString (json : Json) (allocated : Bool := true) : Result (Option CString) :=
  match json with
  | .string value => if allocated then .ok (some value) else .error .outOfMemory
  | .null => .ok none
  | _ => .error .jsonTypeMismatch

/-- `(int) n` on the usual two's complement machines. -/
def toInt (n : Nat) : Int := (BitVec.ofNat 32 n).toInt

/-- `(mcl_size_t) cJSON_GetArraySize(array)` for a size type of `w` bits. -/
def getArraySize (w : Nat) : Json → Result (BitVec w)
  | .array elements => .ok (BitVec.ofInt w (toInt elements.length))
  | _ => .error .jsonTypeMismatch

/-- `cJSON_GetArrayItem(array, (int) index)`: a negative index finds nothing. -/
def getArrayItem (array : Json) (index : Nat) : Result Json :=
  match array with
  | .array elements =>
    if toInt index < 0 then .error .invalidParameter
    else
      match elements[(toInt index).toNat]? with
      | some item => .ok item
      | none => .error .invalidParameter
  | _ => .error .jsonTypeMismatch

def intMax : Nat := 2147483647

/-- The print buffer has room for the text, its terminator and one byte more, or printing fails. -/
def toString (root : Json) : Result Bytes :=
  if root.print.length + 2 ≤ intMax then .ok root.print else .error .fail

theorem toString_eq_ok {root : Json} {text : Bytes} :
    toString root = .ok text ↔ root.print.length + 2 ≤ intMax ∧ text = root.print := by
  unfold toString
  split_ifs with h
  · simp [h, eq_comm]
  · simp [h]

theorem toString_error {root : Json} {e : McError} (h : toString root = .error e) : e = .fail := by
  unfold toString at h
  split_ifs at h
  cases h
  rfl

/-! ## Numbers -/

theorem numberText_ne_nil (n : Nat) : numberText n ≠ [] := Scan.toDigits_map_ne_nil 10 n _

theorem length_numberText_le {n k : Nat} (hk : 0 < k) (h : n < 10 ^ k) : (numberText n).length ≤ k := by
  rw [numberText, List.length_map]
  exact (Nat.length_toDigits_le_iff (by decide) hk).2 h

theorem isDigit_numberText {n : Nat} {b : UInt8} (h : b ∈ numberText n) : Scan.isDigit 10 b = true := by
  have hf : ∀ d < 10, Scan.digitValue (Nat.digitChar d).toNat.toUInt8 = some d := by decide
  exact Scan.isDigit_toDigits (by decide) hf n b h

theorem value_numberText (n : Nat) : Scan.value 10 (numberText n) = n := by
  have hf : ∀ d < 10, Scan.digitValue (Nat.digitChar d).toNat.toUInt8 = some d := by decide
  exact Scan.value_toDigits (by decide) hf n

/-! ## Arrays -/

theorem toInt_of_lt {n : Nat} (h : n < 2 ^ 31) : toInt n = n := by
  rw [toInt, BitVec.toInt_eq_toNat_of_lt (by rw [BitVec.toNat_ofNat]; omega), BitVec.toNat_ofNat]
  omega

theorem toNat_ofInt_toInt {w : Nat} (width : 32 ≤ w) {n : Nat} (h : n < 2 ^ 31) :
    (BitVec.ofInt w (toInt n)).toNat = n := by
  have hpow : 2 ^ 32 ≤ 2 ^ w := Nat.pow_le_pow_right (by omega) width
  rw [toInt_of_lt h, BitVec.ofInt_natCast, BitVec.toNat_ofNat, Nat.mod_eq_of_lt (by omega)]

/-- The elements an index loop over the array can reach. -/
theorem getArrayItem_eq_ok {es : List Json} {index : Nat} (hi : index ≤ 2 ^ 31) {item : Json} :
    getArrayItem (.array es) index = .ok item ↔ index < 2 ^ 31 ∧ es[index]? = some item := by
  rcases Nat.lt_or_eq_of_le hi with h | rfl
  · have hneg : ¬ ((index : Int) < 0) := by omega
    simp only [getArrayItem, toInt_of_lt h, hneg, if_false, Int.toNat_natCast, h, true_and]
    cases es[index]? <;> simp
  · have hneg : toInt (2 ^ 31) < 0 := by decide
    simp only [getArrayItem, hneg, if_true, reduceCtorEq, Nat.lt_irrefl, false_and]

end MindConnect.JsonUtil
