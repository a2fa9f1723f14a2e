import MindConnect.Lib.Bytes
import Mathlib.Algebra.Order.BigOperators.Group.List
import Mathlib.Algebra.Order.Group.Nat
import Mathlib.Algebra.Ring.Nat

/-!
# JSON trees and their compact text

A tree keeps what a printer needs: a number is the text it prints as, an object the list of its
members in order (names may repeat). `print` writes the tree without any white space. The lemmas are
about lengths: how long each form is, and that a tree is at least as long as its parts.
-/

inductive Json where
  | null
  | bool (b : Bool)
  | number (text : Bytes)
  | string (value : CString)
  | array (elements : List Json)
  | object (members : List (CString × Json))
deriving Repr

namespace Json

/-! ## Printing -/

def hexDigit (n : UInt8) : UInt8 := if n < 10 then 48 + n else 87 + n

/-- A control character, a quote or a backslash is escaped; every other byte stands for itself. -/
def escapeByte (b : UInt8) : Bytes :=
  if b = 34 then [92, 34]
  else if b = 92 then [92, 92]
  else if b = 8 then [92, 98]
  else if b = 12 then [92, 102]
  else if b = 10 then [92, 110]
  else if b = 13 then [92, 114]
  else if b = 9 then [92, 116]
  else if b < 32 then [92, 117, 48, 48, hexDigit (b / 16), hexDigit (b % 16)]
  else [b]

def printString (s : CString) : Bytes := 34 :: s.bytes.flatMap escapeByte ++ [34]

mutual

def print : Json → Bytes
  | null => ascii "null"
  | bool true => ascii "true"
  | bool false => ascii "false"
  | number text => text
  | string value => printString value
  | array elements => 91 :: printElements elements ++ [93]
  | object members => 123 :: printMembers members ++ [125]

/-- The elements of an array, a comma after each but the last. -/
def printElements : List Json → Bytes
  | [] => []
  | [e] => print e
  | e :: f :: es => print e ++ 44 :: printElements (f :: es)

/-- The members of an object, a comma after each but the last. -/
def printMembers : List (CString × Json) → Bytes
  | [] => []
  | [(k, v)] => printString k ++ 58 :: print v
  | (k, v) :: m :: ms => printString k ++ 58 :: print v ++ 44 :: printMembers (m :: ms)

end

/-! ## Lengths -/

/-- The bytes that escaping adds to a string. -/
def escapes (s : CString) : Nat := (s.bytes.map fun b => (escapeByte b).length - 1).sum

theorem length_escapeByte_pos (b : UInt8) : 0 < (escapeByte b).length := by
  unfold escapeByte; split_ifs <;> simp

theorem length_flatMap_escapeByte (bs : Bytes) :
    (bs.flatMap escapeByte).length = bs.length + (bs.map fun b => (escapeByte b).length - 1).sum := by
  induction bs with
  | nil => rfl
  | cons b bs ih =>
    have := length_escapeByte_pos b
    simp only [List.flatMap_cons, List.length_append, List.length_cons, List.map_cons, List.sum_cons, ih]
    omega

@[simp] theorem length_printString (s : CString) :
    (printString s).length = s.length + escapes s + 2 := by
  simp only [printString, List.length_cons, List.length_append, List.length_nil,
    length_flatMap_escapeByte, CString.length, escapes]

@[simp] theorem length_print_array (es : List Json) :
    (print (array es)).length = (printElements es).length + 2 := by simp [print]

@[simp] theorem length_print_object (ms : List (CString × Json)) :
    (print (object ms)).length = (printMembers ms).length + 2 := by simp [print]

theorem length_printElements (es : List Json) :
    (printElements es).length = (es.map fun e => (print e).length).sum + (es.length - 1) := by
  induction es with
  | nil => rfl
  | cons e es ih =>
    cases es with
    | nil => simp [printElements]
    | cons f es =>
      rw [printElements, List.length_append, List.length_cons, ih]
      simp only [List.map_cons, List.sum_cons, List.length_cons]
      omega

theorem length_printMembers (ms : List (CString × Json)) :
    (printMembers ms).length =
      (ms.map fun m => (printString m.1).length + (print m.2).length + 1).sum + (ms.length - 1) := by
  induction ms with
  | nil => rfl
  | cons m ms ih =>
    obtain ⟨k, v⟩ := m
    cases ms with
    | nil => simp only [printMembers, List.length_append, List.length_cons, List.map_cons, List.map_nil,
        List.sum_cons, List.sum_nil, List.length_nil]; omega
    | cons m ms =>
      rw [printMembers]
      simp only [List.length_append, List.length_cons, ih, List.map_cons, List.sum_cons]
      omega

/-- What a member takes in the text of an object, with its colon and one comma or brace. -/
def memberLength (m : CString × Json) : Nat := (printString m.1).length + (print m.2).length + 2

theorem length_print_object_of_ne_nil {ms : List (CString × Json)} (h : ms ≠ []) :
    (print (object ms)).length = (ms.map memberLength).sum + 1 := by
  have hsum : ∀ ns : List (CString × Json), (ns.map memberLength).sum =
      (ns.map fun m => (printString m.1).length + (print m.2).length + 1).sum + ns.length := by
    intro ns
    induction ns with
    | nil => rfl
    | cons n ns ih =>
      simp only [List.map_cons, List.sum_cons, List.length_cons, memberLength] at ih ⊢
      omega
  have hpos := List.length_pos_of_ne_nil h
  have := hsum ms
  rw [length_print_object, length_printMembers]
  omega

theorem length_print_array_of_ne_nil {es : List Json} (h : es ≠ []) :
    (print (array es)).length = (es.map fun e => (print e).length).sum + es.length + 1 := by
  have hpos := List.length_pos_of_ne_nil h
  rw [length_print_array, length_printElements]
  omega

theorem length_print_le_of_mem_elements {e : Json} {es : List Json} (h : e ∈ es) :
    (print e).length ≤ (printElements es).length := by
  rw [length_printElements]
  have := List.single_le_sum (l := es.map fun e => (print e).length) (by simp) _ (List.mem_map_of_mem h)
  omega

theorem length_print_le_of_mem_members {m : CString × Json} {ms : List (CString × Json)} (h : m ∈ ms) :
    (print m.2).length ≤ (printMembers ms).length := by
  rw [length_printMembers]
  have := List.single_le_sum (l := ms.map fun m => (printString m.1).length + (print m.2).length + 1)
    (by simp) _ (List.mem_map_of_mem h)
  omega

theorem length_print_le_array {e : Json} {es : List Json} (h : e ∈ es) :
    (print e).length ≤ (print (array es)).length := by
  have := length_print_le_of_mem_elements h
  rw [length_print_array]
  omega

theorem length_print_le_object {k : CString} {v : Json} {ms : List (CString × Json)} (h : (k, v) ∈ ms) :
    (print v).length ≤ (print (object ms)).length := by
  have : (print v).length ≤ _ := length_print_le_of_mem_members h
  rw [length_print_object]
  omega

/-- An array of objects is at least as long as it has elements. -/
theorem length_le_length_printElements {es : List Json} (h : ∀ e ∈ es, 1 ≤ (print e).length) :
    es.length ≤ (printElements es).length := by
  rw [length_printElements]
  have := List.length_le_sum_of_one_le (es.map fun e => (print e).length) (by simpa using h)
  rw [List.length_map] at this
  omega

/-! ## Member lookup -/

/-- `tolower` in the C locale -/
def toLower (b : UInt8) : UInt8 := if 65 ≤ b ∧ b ≤ 90 then b + 32 else b

/-- Equality of names up to the case of ASCII letters. -/
def sameName (s t : CString) : Bool := s.bytes.map toLower == t.bytes.map toLower

/-- The first member of that name, the case of letters ignored. -/
def lookup (name : CString) (ms : List (CString × Json)) : Option Json :=
  (ms.find? fun m => sameName name m.1).map Prod.snd

@[simp] theorem lookup_nil (name : CString) : lookup name [] = none := by simp [lookup]

theorem lookup_cons (name k : CString) (v : Json) (ms : List (CString × Json)) :
    lookup name ((k, v) :: ms) = if sameName name k then some v else lookup name ms := by
  unfold lookup
  by_cases h : sameName name k <;> simp [h]

theorem lookup_eq_none {name : CString} {ms : List (CString × Json)} (h : ∀ m ∈ ms, sameName name m.1 = false) :
    lookup name ms = none := by
  rw [lookup, Option.map_eq_none_iff, List.find?_eq_none]
  intro m hm
  simp [h m hm]

theorem lookup_append (name : CString) (ms ns : List (CString × Json)) :
    lookup name (ms ++ ns) = (lookup name ms).or (lookup name ns) := by
  induction ms with
  | nil => simp
  | cons m ms ih =>
    obtain ⟨k, v⟩ := m
    rw [List.cons_append, lookup_cons, lookup_cons, ih]
    split <;> simp

end Json
