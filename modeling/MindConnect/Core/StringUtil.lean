import MindConnect.Core.Common
import MindConnect.Lib.Bytes
import MindConnect.Lib.OnePass
import Mathlib.Data.List.Forall2

/-!
# String utilities: `string_util.c`

The two searches are one pass with a state, the number of target characters matched so far. A mismatch
sends the state back to 0 and the character that caused it is not looked at again.
-/

namespace MindConnect

/-- `mcl_string_util_strlen`, 0 for a null pointer -/
def strlen (s : Option CString) : Nat := (s.map CString.length).getD 0

/-- The characters `memcpy` takes from a string, none from a null pointer. -/
def characters (s : Option CString) : Bytes := (s.map CString.bytes).getD []

@[simp] theorem length_characters (s : Option CString) : (characters s).length = strlen s := by
  cases s <;> rfl

/-- `memcpy(position, bs, n); position += n;` on the allocation and the position in it -/
def put (at_ : Bytes × Nat) (bs : Bytes) : Option (Bytes × Nat) :=
  (Bytes.write at_.1 at_.2 bs).map fun buffer => (buffer, at_.2 + bs.length)

/-- `text` has been written into an allocation of `size` bytes. -/
def Written (at_ : Bytes × Nat) (text : Bytes) (size : Nat) : Prop :=
  at_.1.length = size ∧ at_.2 = text.length ∧ at_.1.take at_.2 = text

theorem put_written {at_ : Bytes × Nat} {text : Bytes} {size : Nat} (h : Written at_ text size) (bs : Bytes)
    (hroom : (text ++ bs).length ≤ size) : ∃ at', put at_ bs = some at' ∧ Written at' (text ++ bs) size := by
  obtain ⟨hlen, hpos, htake⟩ := h
  rw [List.length_append] at hroom
  have hwrite : Bytes.write at_.1 at_.2 bs = some _ := Bytes.write_eq_some (by omega)
  refine ⟨_, by rw [put, hwrite]; rfl, ?_, ?_, ?_⟩
  · exact (Bytes.length_of_write hwrite).trans hlen
  · rw [List.length_append, hpos]
  · rw [Bytes.take_of_write hwrite, htake]

theorem put_append (at_ : Bytes × Nat) (xs ys : Bytes) : put at_ (xs ++ ys) = (put at_ xs).bind (put · ys) := by
  have hlength : (xs ++ ys).length = xs.length + ys.length := List.length_append
  simp only [put, ← Bytes.write_bind_write, hlength]
  cases Bytes.write at_.1 at_.2 xs with
  | none => rfl
  | some buffer => simp [Nat.add_assoc]

theorem put_nil (at_ : Bytes × Nat) (hinside : at_.2 ≤ at_.1.length) : put at_ [] = some at_ := by
  rw [put, Bytes.write_eq_some (by simpa using hinside)]
  simp

theorem room_of_put {at_ at' : Bytes × Nat} {bs : Bytes} (h : put at_ bs = some at') :
    at_.2 + bs.length ≤ at_.1.length := by
  by_contra hout
  rw [put, Bytes.write_eq_none hout] at h
  cases h

theorem inside_of_put {at_ at' : Bytes × Nat} {bs : Bytes} (h : put at_ bs = some at') : at'.2 ≤ at'.1.length := by
  have hroom := room_of_put h
  rw [put, Bytes.write_eq_some hroom] at h
  cases h
  rw [Bytes.length_of_write (Bytes.write_eq_some hroom)]
  exact hroom

/-- The text goes into its block and the terminator behind it. -/
theorem put_all (text : Bytes) :
    put (List.replicate (text.length + 1) 0, 0) text = some (text ++ [0], text.length) := by
  have hroom : 0 + text.length ≤ (List.replicate (text.length + 1) (0 : UInt8)).length := by simp
  rw [put, Bytes.write_eq_some hroom]
  simp

/-- `_print_formatted_string` (`string_util.c:492`) for a `vsnprintf` that would print `text`. A text as long
as the buffer loses its last character and still counts as written. -/
def stringUtilSnprintf (length : Nat) (text : Bytes) : Result Bytes :=
  if 0 < text.length ∧ text.length ≤ length then .ok (text.take (length - 1)) else .error .fail

theorem stringUtilSnprintf_ok {length : Nat} {text : Bytes} (hne : text ≠ []) (hlt : text.length < length) :
    stringUtilSnprintf length text = .ok text := by
  have hpos := List.length_pos_iff.2 hne
  rw [stringUtilSnprintf, if_pos ⟨hpos, by omega⟩, List.take_of_length_le (by omega)]

/-- `LOWERCASE(n)` -/
def lowercase (n : UInt8) : UInt8 := if 65 ≤ n && n ≤ 90 then n + 32 else n

def findLoop (same : UInt8 → UInt8 → Bool) (target : Bytes) : Nat → Nat → Bytes → Option Nat
  | _, _, [] => none
  | index, state, c :: source =>
    let state := if target[state]?.any (same c) then state + 1 else 0
    if state = target.length then some (index - (target.length - 1))
    else findLoop same target (index + 1) state source

/-- The start index if the target is found. -/
def find (same : UInt8 → UInt8 → Bool) (source target : Bytes) : Option Nat :=
  if target.length ≠ 0 ∧ target.length ≤ source.length then findLoop same target 0 0 source else none

/-- `string_util_find` (`string_util.c:308`) -/
def stringUtilFind (source target : CString) : Option Nat :=
  find (fun a b => a == b) source.bytes target.bytes

/-- `string_util_find_case_insensitive` (`string_util.c:357`) -/
def stringUtilFindCaseInsensitive (source target : CString) : Option Nat :=
  find (fun a b => a == b || lowercase a == lowercase b) source.bytes target.bytes

/-! ## The searches are passes without falling back -/

open OnePass

theorem findLoop_eq_pass (same : UInt8 → UInt8 → Bool) {target : Bytes} (source : Bytes) :
    ∀ (matched missing : Bytes) (index : Nat), target = matched ++ missing → missing ≠ [] →
      findLoop same target index matched.length source =
        (pass same target missing source).map fun rest => index + source.length - rest.length - target.length := by
  induction source with
  | nil =>
    intro matched missing index _ hne
    cases missing with
    | nil => exact absurd rfl hne
    | cons t missing => rfl
  | cons c source ih =>
    intro matched missing index hsplit hne
    cases missing with
    | nil => exact absurd rfl hne
    | cons t missing =>
      have hget : target[matched.length]? = some t := by simp [hsplit]
      have hlength : target.length = matched.length + (missing.length + 1) := by simp [hsplit]
      rw [findLoop, hget, Option.any_some, OnePass.pass]
      by_cases hc : same c t = true
      · simp only [hc, if_true]
        cases missing with
        | nil =>
          rw [if_pos (by simpa using hlength.symm), pass_nil, Option.map_some]
          congr 1
          simp only [List.length_cons]
          omega
        | cons t' missing =>
          rw [if_neg (by simp only [List.length_cons] at hlength; omega)]
          have hnext := ih (matched ++ [t]) (t' :: missing) (index + 1) (by simpa using hsplit) (List.cons_ne_nil _ _)
          rw [List.length_append, List.length_singleton] at hnext
          rw [hnext]
          congr 1
          funext rest
          simp only [List.length_cons]
          omega
      · simp only [hc, Bool.false_eq_true, if_false]
        have hne' : target ≠ [] := by simp [hsplit]
        have hnext := ih [] target (index + 1) rfl hne'
        rw [List.length_nil] at hnext
        rw [if_neg (by omega), hnext]
        congr 1
        funext rest
        simp only [List.length_cons]
        omega

/-- The check of the lengths saves a pass that would find nothing. -/
theorem find_eq_search (same : UInt8 → UInt8 → Bool) (source target : Bytes) :
    find same source target = search same source target := by
  by_cases hne : target = []
  · simp [find, search, hne]
  by_cases hlength : target.length ≤ source.length
  · have hloop := findLoop_eq_pass same source [] target 0 (List.nil_append target).symm hne
    rw [List.length_nil] at hloop
    rw [find, if_pos ⟨by simpa using hne, hlength⟩, search, if_neg hne, hloop]
    simp only [Nat.zero_add]
  · rw [find, if_neg fun h => hlength h.2]
    cases hsearch : search same source target with
    | none => rfl
    | some position =>
      obtain ⟨_, ⟨before, found, rest, rfl, _, hfound⟩, _⟩ := search_eq_some hsearch
      have := hfound.length_eq
      simp only [List.length_append] at hlength
      omega

/-- A source that starts with the target. -/
theorem find_start {same : UInt8 → UInt8 → Bool} {target found rest : Bytes} (hne : target ≠ [])
    (hsame : Agree same found target) : find same (found ++ rest) target = some 0 := by
  rw [find_eq_search]
  exact search_failed hne .nil hsame

/-! ## Where they are exact -/

/-- The comparison of `string_util_find` -/
abbrev sameChar (a b : UInt8) : Bool := a == b

/-- The comparison of `string_util_find_case_insensitive` -/
abbrev sameLetter (a b : UInt8) : Bool := a == b || lowercase a == lowercase b

/-- Nothing but failed attempts stands before the first occurrence of the target. -/
def NoLostAttempt (same : UInt8 → UInt8 → Bool) (source target : Bytes) : Prop :=
  ∀ position, FirstAt same target source position → Failed same target (source.take position)

/-- Each search finds the first occurrence, and only that, if and only if no other attempt is under way where
the first occurrence begins. -/
theorem stringUtilFind_exact_iff (source target : CString) :
    (Exact sameChar target.bytes source.bytes (stringUtilFind source target) ↔
        NoLostAttempt sameChar source.bytes target.bytes) ∧
      (Exact sameLetter target.bytes source.bytes (stringUtilFindCaseInsensitive source target) ↔
        NoLostAttempt sameLetter source.bytes target.bytes) := by
  constructor
  · rw [stringUtilFind, find_eq_search]
    exact exact_search_iff source.bytes
  · rw [stringUtilFindCaseInsensitive, find_eq_search]
    exact exact_search_iff source.bytes

/-- `"aab"` holds `"ab"`, but the second `a` ends the attempt that the first one began. -/
theorem stringUtilFind_inexact :
    ¬ Exact sameChar (CString.lit "ab").bytes (CString.lit "aab").bytes
      (stringUtilFind (CString.lit "aab") (CString.lit "ab")) := by
  intro hexact
  have hoccurs : OccursAt sameChar (CString.lit "ab").bytes (CString.lit "aab").bytes 1 :=
    ⟨[97], [97, 98], [], rfl, rfl, .cons rfl (.cons rfl .nil)⟩
  have hfound := hexact.1.2 ⟨by decide, 1, hoccurs⟩
  exact absurd hfound (by decide)

end MindConnect
