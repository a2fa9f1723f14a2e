import MindConnect.Core.Memory
import MindConnect.Core.StringUtil
import MindConnect.Lib.CursorList

/-!
# Looking up a response header: `mcl_http_response_get_header` (`http_response.c:44`)

The lookup takes the first line in which the name stands anywhere, in another header's name or in a value as
well, and hands out what is behind that line's first colon.

| here | there |
| --- | --- |
| `headerValueBlock`, `copyBehind` | the value's position, and its block with the copy (`:74` to `:94`) |
| `getHeader` | the loop over `mcl_list_next` (`:61`) |
| `mclHttpResponseGetHeader` | the same on the lines alone |

`allocated` is whether there is memory for the value.
-/

namespace MindConnect

def colon : CString := .lit ":"

/-- The value in a line: what is behind the colon, or behind the start of the name if there is none, and behind one space. -/
def headerValue (header : CString) (index : Nat) : CString :=
  let index := (stringUtilFind header colon).getD index
  let index := if header.bytes[index + 1]? = some 32 then index + 1 else index
  header.drop (index + 1)

def mclHttpResponseGetHeader (allocated : Bool) (headerName : CString) : List CString → Result CString
  | [] => .error .fail
  | header :: headers =>
    match stringUtilFindCaseInsensitive header headerName with
    | none => mclHttpResponseGetHeader allocated headerName headers
    | some index => if allocated then .ok (headerValue header index) else .error .outOfMemory

/-- `string_util_strncpy` (`string_util.c:83`) to the start of a block -/
def stringUtilStrncpy (destination : Bytes) (source : CString) (count : Nat) : Option Bytes :=
  Bytes.write destination 0 (source.bytes.take count ++ List.replicate (count - source.length) 0)

/-- The block with what is behind a position, and its terminator. -/
def copyBehind (allocated : Bool) (header : CString) (index : Nat) : Option (Result Bytes) :=
  match mclMemoryCalloc allocated (header.length - index) 1 with
  | none => return .error .outOfMemory
  | some block => do
    let valueLength := header.length - index - 1
    let block ← stringUtilStrncpy block (header.drop (index + 1)) valueLength
    return .ok (← Bytes.write block valueLength [0])

/-- The block with the value. Where a character is read or written that is not there, there is no outcome. -/
def headerValueBlock (allocated : Bool) (header : CString) (index : Nat) : Option (Result Bytes) := do
  let index := (stringUtilFind header colon).getD index
  let character ← (header.bytes ++ [0])[index + 1]?
  copyBehind allocated header (if character = 32 then index + 1 else index)

/-- The outcome and the header list with its cursor. -/
def getHeader (allocated : Bool) (headerName : CString) (headers : CursorList CString) :
    Option (Result Bytes × CursorList CString) :=
  match headers.reset.findNext fun header => (stringUtilFindCaseInsensitive header headerName).isSome with
  | (none, headers) => some (.error .fail, headers)
  | (some i, headers) => do
    let header ← headers.seq[i]?
    let index ← stringUtilFindCaseInsensitive header headerName
    return (← headerValueBlock allocated header index, headers)

/-! ## Fields -/

/-- The name of a header line. -/
def fieldName (line : CString) : Bytes := line.bytes.takeWhile (· != 58)

/-- What stands behind the character at `position`, and behind one space. -/
def valueBehind (line : CString) (position : Nat) : CString :=
  let value := line.drop (position + 1)
  if value.bytes.head? = some 32 then value.drop 1 else value

/-- What stands behind the colon, and behind one space. -/
def fieldValue (line : CString) : CString :=
  let value := line.drop ((fieldName line).length + 1)
  if value.bytes.head? = some 32 then value.drop 1 else value

/-- A line `name:…`, in upper or lower case. -/
def named (name line : CString) : Bool :=
  (fieldName line).map lowercase == name.bytes.map lowercase && line.bytes.contains 58

/-- The name stands somewhere in the line. -/
def holdsName (name line : CString) : Bool := (stringUtilFindCaseInsensitive line name).isSome

/-- What the lookup hands out of a line that holds the name: it reads behind the first colon, and behind the
start of the name where there is none. -/
def carriedValue (name line : CString) : CString :=
  if 58 ∈ line.bytes then fieldValue line
  else valueBehind line ((stringUtilFindCaseInsensitive line name).getD 0)

theorem fieldName_split {line : CString} (h : 58 ∈ line.bytes) :
    ∃ rest, line.bytes = fieldName line ++ 58 :: rest ∧ ∀ b ∈ fieldName line, b ≠ 58 := by
  have hfree : ∀ b ∈ fieldName line, b ≠ 58 := fun b hb => by simpa using List.mem_takeWhile_imp hb
  refine ⟨(line.bytes.dropWhile (· != 58)).tail, ?_, hfree⟩
  have hsplit := List.takeWhile_append_dropWhile (p := (· != (58 : UInt8))) (l := line.bytes)
  cases hdrop : line.bytes.dropWhile (· != 58) with
  | nil =>
    rw [hdrop, List.append_nil] at hsplit
    rw [← hsplit] at h
    exact absurd rfl (hfree 58 h)
  | cons b rest =>
    have hb : b = 58 := by
      have := List.head?_dropWhile_not (· != (58 : UInt8)) line.bytes
      rw [hdrop, List.head?_cons] at this
      simpa using this
    rw [hdrop, hb] at hsplit
    exact hsplit.symm

theorem colon_bytes : colon.bytes = [58] := rfl

/-- A single character is searched for without a lost attempt. -/
theorem stringUtilFind_colon (line : CString) :
    stringUtilFind line colon = if 58 ∈ line.bytes then some (fieldName line).length else none := by
  rw [stringUtilFind, find_eq_search, colon_bytes]
  by_cases hcolon : 58 ∈ line.bytes
  · obtain ⟨rest, hsplit, hfree⟩ := fieldName_split hcolon
    rw [if_pos hcolon, hsplit]
    have hbefore : OnePass.Failed sameChar [58] (fieldName line) :=
      .of_forall [] fun b hb => by simpa using hfree b hb
    have hfound : OnePass.Agree sameChar [58] [58] := .cons rfl .nil
    have hsearch : OnePass.search sameChar (fieldName line ++ [58] ++ rest) [58] = some (fieldName line).length :=
      OnePass.search_failed (List.cons_ne_nil _ _) hbefore hfound
    rwa [List.append_assoc, List.singleton_append] at hsearch
  · rw [if_neg hcolon]
    cases hsearch : OnePass.search (fun a b => a == b) line.bytes [58] with
    | none => rfl
    | some position =>
      obtain ⟨_, ⟨before, found, rest, hsource, _, hfound⟩, _⟩ := OnePass.search_eq_some hsearch
      have hfound : found = [58] := by
        obtain ⟨c, found, hc, hrest, rfl⟩ := List.forall₂_cons_right_iff.1 hfound
        obtain rfl := List.forall₂_nil_right_iff.1 hrest
        simpa using hc
      exact absurd (by simp [hsource, hfound]) hcolon

theorem headerValue_eq (line : CString) (index : Nat) :
    headerValue line index = valueBehind line (if 58 ∈ line.bytes then (fieldName line).length else index) := by
  have hhead (i : Nat) : line.bytes[i]? = (line.drop i).bytes.head? := by rw [CString.drop, List.head?_drop]
  have hdrop (i : Nat) : line.drop (i + 1) = (line.drop i).drop 1 := by
    ext1
    simp only [CString.drop, List.drop_drop]
  have hindex : (stringUtilFind line colon).getD index =
      if 58 ∈ line.bytes then (fieldName line).length else index := by
    rw [stringUtilFind_colon]
    split_ifs <;> rfl
  simp only [headerValue, valueBehind, hindex, hhead]
  split_ifs
  · exact hdrop _
  · rfl
  · exact hdrop _
  · rfl

theorem headerValue_eq_carriedValue {name line : CString} {index : Nat}
    (h : stringUtilFindCaseInsensitive line name = some index) : headerValue line index = carriedValue name line := by
  rw [headerValue_eq, carriedValue, h]
  split_ifs <;> rfl

/-- The position that the value is counted from stands inside the line. -/
theorem valuePosition_lt {name line : CString} {index : Nat}
    (h : stringUtilFindCaseInsensitive line name = some index) :
    (if 58 ∈ line.bytes then (fieldName line).length else index) < line.length := by
  split_ifs with hcolon
  · obtain ⟨rest, hsplit, _⟩ := fieldName_split hcolon
    rw [CString.length, hsplit, List.length_append, List.length_cons]
    omega
  · rw [stringUtilFindCaseInsensitive, find_eq_search] at h
    obtain ⟨hne, hoccurs, _⟩ := OnePass.search_eq_some h
    exact hoccurs.lt_length hne

theorem stringUtilStrncpy_zeros {source : CString} {n : Nat} (h : source.length ≤ n) :
    stringUtilStrncpy (List.replicate n 0) source source.length =
      some (source.bytes ++ List.replicate (n - source.length) 0) := by
  rw [CString.length] at h
  rw [stringUtilStrncpy, CString.length, List.take_length, Nat.sub_self, List.replicate_zero, List.append_nil]
  rw [Bytes.write_eq_some (by rw [List.length_replicate]; omega)]
  simp

/-- A character of the string or its terminator. -/
theorem getElem?_terminated {text : Bytes} {i : Nat} (h : i ≤ text.length) :
    (text ++ [0])[i]? = some (text[i]?.getD 0) := by
  by_cases hin : i < text.length
  · rw [List.getElem?_append_left hin, List.getElem?_eq_getElem hin]
    rfl
  · have hend : i = text.length := by omega
    simp [hend]

/-- The copy of what is behind a position fills the block up to the terminator. -/
theorem copyBehind_eq (allocated : Bool) {line : CString} {position : Nat} (h : position < line.length) :
    copyBehind allocated line position =
      some (if allocated then .ok ((line.drop (position + 1)).bytes ++ [0]) else .error .outOfMemory) := by
  cases allocated with
  | false => simp [copyBehind]
  | true =>
    have hlength : (line.drop (position + 1)).length = line.length - position - 1 := by
      simp only [CString.length, CString.drop, List.length_drop]
      omega
    have hone : line.length - position - (line.drop (position + 1)).length = 1 := by omega
    rw [copyBehind, mclMemoryCalloc_granted (by omega) Nat.one_ne_zero, Nat.mul_one]
    simp only [← hlength]
    rw [stringUtilStrncpy_zeros (by omega), hone, Option.bind_eq_bind, Option.bind_some]
    simp [CString.length, Bytes.write]

/-- The block holds the value and its terminator: nothing is read or written outside. -/
theorem headerValueBlock_eq (allocated : Bool) {name line : CString} {index : Nat}
    (h : stringUtilFindCaseInsensitive line name = some index) :
    headerValueBlock allocated line index =
      some (if allocated then .ok ((headerValue line index).bytes ++ [0]) else .error .outOfMemory) := by
  have hlt := valuePosition_lt h
  have hindex : (stringUtilFind line colon).getD index =
      if 58 ∈ line.bytes then (fieldName line).length else index := by
    rw [stringUtilFind_colon]
    split_ifs <;> rfl
  rw [← hindex] at hlt
  rw [headerValueBlock, headerValue]
  generalize (stringUtilFind line colon).getD index = position at hlt ⊢
  have hspace : line.bytes[position + 1]?.getD 0 = 32 ↔ line.bytes[position + 1]? = some 32 := by
    cases line.bytes[position + 1]? <;> simp
  simp only [Option.bind_eq_bind, getElem?_terminated (show position + 1 ≤ line.bytes.length from hlt),
    Option.bind_some, hspace]
  by_cases hcharacter : line.bytes[position + 1]? = some 32
  · have hlt' : position + 1 < line.length := (List.getElem?_eq_some_iff.1 hcharacter).1
    simp only [if_pos hcharacter]
    exact copyBehind_eq allocated hlt'
  · simp only [if_neg hcharacter]
    exact copyBehind_eq allocated hlt

/-! ## The loop -/

/-- What a lookup comes to: the first line that holds the name decides. -/
def lookupOutcome (allocated : Bool) (name : CString) (lines : List CString) : Result Bytes :=
  match lines.find? (holdsName name) with
  | none => .error .fail
  | some line => if allocated then .ok ((carriedValue name line).bytes ++ [0]) else .error .outOfMemory

theorem getHeader_eq (allocated : Bool) (name : CString) (headers : CursorList CString) :
    ∃ headers', headers'.seq = headers.seq ∧ getHeader allocated name headers =
      some (lookupOutcome allocated name headers.seq, headers') := by
  obtain ⟨hnone, hsome⟩ := CursorList.findNext_reset (holdsName name) headers
  have hseq := CursorList.seq_findNext (holdsName name) headers.reset
  rw [CursorList.seq_reset] at hseq
  have hloop : (fun header => (stringUtilFindCaseInsensitive header name).isSome) = holdsName name := rfl
  rw [getHeader, hloop]
  cases hstop : headers.reset.findNext (holdsName name) with
  | mk stop headers' =>
    rw [hstop] at hnone hsome hseq
    have hcontent : headers'.seq = headers.seq := hseq
    refine ⟨headers', hcontent, ?_⟩
    rw [lookupOutcome]
    cases hfind : headers.seq.find? (holdsName name) with
    | none =>
      obtain rfl : stop = none := hnone hfind
      rfl
    | some line =>
      obtain ⟨i, hi, hline⟩ := hsome line hfind
      obtain rfl : stop = some i := hi
      have hholds := List.find?_some hfind
      obtain ⟨index, hindex⟩ := Option.isSome_iff_exists.1 hholds
      have hvalue := headerValue_eq_carriedValue hindex
      simp only [Option.bind_eq_bind, hcontent, hline, Option.bind_some, hindex, headerValueBlock_eq allocated hindex,
        hvalue]
      rfl

/-- The lookup on the lines alone. -/
theorem mclHttpResponseGetHeader_eq (allocated : Bool) (name : CString) (lines : List CString) :
    mclHttpResponseGetHeader allocated name lines =
      match lines.find? (holdsName name) with
      | none => .error .fail
      | some line => if allocated then .ok (carriedValue name line) else .error .outOfMemory := by
  induction lines with
  | nil => rfl
  | cons line lines ih =>
    rw [mclHttpResponseGetHeader, List.find?_cons]
    cases hindex : stringUtilFindCaseInsensitive line name with
    | none =>
      have hholds : holdsName name line = false := by rw [holdsName, hindex]; rfl
      rw [hholds]
      exact ih
    | some index =>
      have hholds : holdsName name line = true := by rw [holdsName, hindex]; rfl
      simp only [hholds, headerValue_eq_carriedValue hindex]

/-! ## By name -/

theorem named_split {name line : CString} (h : named name line = true) :
    ∃ rest, line.bytes = fieldName line ++ 58 :: rest ∧
      (fieldName line).map lowercase = name.bytes.map lowercase := by
  simp only [named, Bool.and_eq_true, beq_iff_eq, List.contains_iff_mem] at h
  obtain ⟨hname, hcolon⟩ := h
  obtain ⟨rest, hsplit, _⟩ := fieldName_split hcolon
  exact ⟨rest, hsplit, hname⟩

/-- The search finds the name of a field where it is. -/
theorem find_of_named {name line : CString} (hne : name.bytes ≠ []) (h : named name line = true) :
    stringUtilFindCaseInsensitive line name = some 0 := by
  obtain ⟨rest, hsplit, hname⟩ := named_split h
  have hsame : OnePass.Agree sameLetter (fieldName line) name.bytes := by
    rw [← List.forall₂_eq_eq_eq] at hname
    rw [List.forall₂_map_left_iff, List.forall₂_map_right_iff] at hname
    exact hname.imp fun c t heq => by simp [heq]
  rw [stringUtilFindCaseInsensitive, hsplit]
  exact find_start hne hsame

theorem carriedValue_of_named {name line : CString} (h : named name line = true) :
    carriedValue name line = fieldValue line := by
  simp only [named, Bool.and_eq_true, List.contains_iff_mem] at h
  rw [carriedValue, if_pos h.2]

/-- A lookup by name. -/
structure ByName (allocated : Bool) (name : CString) (headers : CursorList CString) (result : Result Bytes)
    (headers' : CursorList CString) : Prop where
  found : (∃ block, result = .ok block) ↔ ∃ line ∈ headers.seq, named name line = true
  value : ∀ block, result = .ok block →
    ∃ line, headers.seq.find? (named name) = some line ∧ block = (fieldValue line).bytes ++ [0]
  content : headers'.seq = headers.seq
  /-- Wherever the cursor was before. -/
  anyCursor : ∀ other : CursorList CString, other.seq = headers.seq →
    ∃ other', getHeader allocated name other = some (result, other')

/-- The lookup answers by name. -/
def LooksUpByName (allocated : Bool) (name : CString) (headers : CursorList CString) : Prop :=
  ∃ result headers', getHeader allocated name headers = some (result, headers') ∧
    ByName allocated name headers result headers'

/-- A text without its first character if that is a space. -/
def behindSpace (text : Bytes) : Bytes := if text.head? = some 32 then text.drop 1 else text

/-- The text behind the first colon of `line`, or behind the first character of the name in it if it has no colon, is
that behind the first colon of `field`; one space at the start of either does not count. -/
def SameText (name line field : CString) : Prop :=
  ∃ before c text fieldBefore fieldText,
    line.bytes = before ++ c :: text ∧ field.bytes = fieldBefore ++ 58 :: fieldText ∧ 58 ∉ fieldBefore ∧
    (if 58 ∈ line.bytes then c = 58 ∧ 58 ∉ before
      else stringUtilFindCaseInsensitive line name = some before.length) ∧
    behindSpace text = behindSpace fieldText

/-- The first line that holds the name anywhere is itself so named, or has the same text as the first line so named.
Without such a line, or without memory, there is no line so named. -/
def HeldByItsField (allocated : Bool) (name : CString) (lines : List CString) : Prop :=
  match lines.find? (holdsName name) with
  | none => ∀ line ∈ lines, named name line = false
  | some line =>
    if allocated then
      named name line = true ∨ ∃ field, lines.find? (named name) = some field ∧ SameText name line field
    else ∀ line ∈ lines, named name line = false

theorem valueBehind_bytes {line : CString} {before text : Bytes} {c : UInt8} (h : line.bytes = before ++ c :: text) :
    (valueBehind line before.length).bytes = behindSpace text := by
  have hdrop : (line.drop (before.length + 1)).bytes = text := by simp [CString.drop, h]
  rw [valueBehind, behindSpace, hdrop]
  split_ifs
  · exact congrArg (List.drop 1) hdrop
  · exact hdrop

theorem fieldValue_bytes {line : CString} {before text : Bytes} (h : line.bytes = before ++ 58 :: text)
    (hfree : 58 ∉ before) : (fieldValue line).bytes = behindSpace text := by
  have hname : fieldName line = before := by
    have hbefore : ∀ b ∈ before, (b != 58) = true := fun b hb => bne_iff_ne.2 fun heq => hfree (heq ▸ hb)
    rw [fieldName, h, List.takeWhile_append_of_pos hbefore]
    simp
  have hvalue := valueBehind_bytes h
  rw [← hname] at hvalue
  exact hvalue

theorem carriedValue_bytes {name line : CString} {before text : Bytes} {c : UInt8}
    (hsplit : line.bytes = before ++ c :: text)
    (hposition : if 58 ∈ line.bytes then c = 58 ∧ 58 ∉ before
      else stringUtilFindCaseInsensitive line name = some before.length) :
    (carriedValue name line).bytes = behindSpace text := by
  rw [carriedValue]
  split_ifs at hposition ⊢ with hcolon
  · obtain ⟨rfl, hfree⟩ := hposition
    exact fieldValue_bytes hsplit hfree
  · rw [hposition, Option.getD_some]
    exact valueBehind_bytes hsplit

/-- Where the value is counted from in a line that holds the name. -/
theorem exists_position {name line : CString} (hholds : holdsName name line = true) :
    ∃ before c text, line.bytes = before ++ c :: text ∧
      (if 58 ∈ line.bytes then c = 58 ∧ 58 ∉ before
        else stringUtilFindCaseInsensitive line name = some before.length) := by
  by_cases hcolon : 58 ∈ line.bytes
  · obtain ⟨text, hsplit, hfree⟩ := fieldName_split hcolon
    refine ⟨fieldName line, 58, text, hsplit, ?_⟩
    rw [if_pos hcolon]
    exact ⟨rfl, fun hmem => hfree 58 hmem rfl⟩
  · obtain ⟨index, hindex⟩ := Option.isSome_iff_exists.1 hholds
    have hlt := valuePosition_lt hindex
    rw [if_neg hcolon, CString.length] at hlt
    refine ⟨line.bytes.take index, line.bytes[index], line.bytes.drop (index + 1), ?_, ?_⟩
    · rw [← List.drop_eq_getElem_cons hlt, List.take_append_drop]
    · rw [if_neg hcolon, List.length_take_of_le (Nat.le_of_lt hlt), hindex]

theorem sameText_iff {name line field : CString} (hholds : holdsName name line = true)
    (hfield : named name field = true) : SameText name line field ↔ carriedValue name line = fieldValue field := by
  constructor
  · rintro ⟨before, c, text, fieldBefore, fieldText, hsplit, hfieldSplit, hfree, hposition, htext⟩
    ext1
    rw [carriedValue_bytes hsplit hposition, fieldValue_bytes hfieldSplit hfree, htext]
  · intro hvalue
    obtain ⟨before, c, text, hsplit, hposition⟩ := exists_position hholds
    simp only [named, Bool.and_eq_true, List.contains_iff_mem] at hfield
    obtain ⟨fieldText, hfieldSplit, hfree⟩ := fieldName_split hfield.2
    have hname : 58 ∉ fieldName field := fun hmem => hfree 58 hmem rfl
    refine ⟨before, c, text, fieldName field, fieldText, hsplit, hfieldSplit, hname, hposition, ?_⟩
    rw [← carriedValue_bytes hsplit hposition, ← fieldValue_bytes hfieldSplit hname, hvalue]

/-- A line so named holds the name, so that the first line that does is the first so named if it is so named itself. -/
theorem held_iff {name line : CString} {lines : List CString} (hfind : lines.find? (holdsName name) = some line) :
    (∃ field, lines.find? (named name) = some field ∧ carriedValue name line = fieldValue field) ↔
      named name line = true ∨ ∃ field, lines.find? (named name) = some field ∧ SameText name line field := by
  obtain ⟨hholds, before, after, hlines, hbefore⟩ := List.find?_eq_some_iff_append.1 hfind
  have hsame : ∀ field, lines.find? (named name) = some field →
      (SameText name line field ↔ carriedValue name line = fieldValue field) :=
    fun field hfield => sameText_iff hholds (List.find?_some hfield)
  constructor
  · rintro ⟨field, hfield, hvalue⟩
    exact .inr ⟨field, hfield, (hsame field hfield).2 hvalue⟩
  · rintro (hnamed | ⟨field, hfield, htext⟩)
    · obtain ⟨index, hindex⟩ := Option.isSome_iff_exists.1 hholds
      have hne : name.bytes ≠ [] := by
        rw [stringUtilFindCaseInsensitive, find_eq_search] at hindex
        exact (OnePass.search_eq_some hindex).1
      have hfirst : lines.find? (named name) = some line := by
        refine List.find?_eq_some_iff_append.2 ⟨hnamed, before, after, hlines, fun other hother => ?_⟩
        cases hnot : named name other with
        | false => rfl
        | true =>
          have hfound : holdsName name other = true := by rw [holdsName, find_of_named hne hnot]; rfl
          have hmissed := hbefore other hother
          rw [hfound] at hmissed
          cases hmissed
      exact ⟨line, hfirst, carriedValue_of_named hnamed⟩
    · exact ⟨field, hfield, (hsame field hfield).1 htext⟩

/-- An error is the answer by name where no line is so named. -/
theorem byName_error_iff {allocated : Bool} {name : CString} {headers headers' : CursorList CString} {e : McError}
    (content : headers'.seq = headers.seq) (anyCursor : ∀ other : CursorList CString, other.seq = headers.seq →
      ∃ other', getHeader allocated name other = some (.error e, other')) :
    ByName allocated name headers (.error e) headers' ↔ ∀ line ∈ headers.seq, named name line = false := by
  constructor
  · intro h line hline
    rw [← Bool.not_eq_true]
    intro hnamed
    obtain ⟨block, hblock⟩ := h.found.2 ⟨line, hline, hnamed⟩
    cases hblock
  · intro hnone
    refine ⟨⟨?_, ?_⟩, ?_, content, anyCursor⟩
    · rintro ⟨block, hblock⟩
      cases hblock
    · rintro ⟨line, hline, hnamed⟩
      rw [hnone line hline] at hnamed
      cases hnamed
    · intro block hblock
      cases hblock

/-- A value is the answer by name where it is the value of the first line so named. -/
theorem byName_ok_iff {allocated : Bool} {name value : CString} {headers headers' : CursorList CString}
    (content : headers'.seq = headers.seq) (anyCursor : ∀ other : CursorList CString, other.seq = headers.seq →
      ∃ other', getHeader allocated name other = some (.ok (value.bytes ++ [0]), other')) :
    ByName allocated name headers (.ok (value.bytes ++ [0])) headers' ↔
      ∃ field, headers.seq.find? (named name) = some field ∧ value = fieldValue field := by
  constructor
  · intro h
    obtain ⟨field, hfield, hblock⟩ := h.value _ rfl
    refine ⟨field, hfield, ?_⟩
    ext1
    exact List.append_cancel_right hblock
  · rintro ⟨field, hfield, hvalue⟩
    refine ⟨⟨fun _ => ?_, fun _ => ⟨_, rfl⟩⟩, ?_, content, anyCursor⟩
    · exact ⟨field, List.mem_of_find?_eq_some hfield, List.find?_some hfield⟩
    · rintro block ⟨⟩
      exact ⟨field, hfield, by rw [hvalue]⟩

/-- The lookup is by name if and only if the first line that holds the name is the first so named or has its text. -/
theorem looksUpByName_iff (allocated : Bool) (name : CString) (headers : CursorList CString) :
    LooksUpByName allocated name headers ↔ HeldByItsField allocated name headers.seq := by
  obtain ⟨headers', content, hget⟩ := getHeader_eq allocated name headers
  have anyCursor : ∀ other : CursorList CString, other.seq = headers.seq →
      ∃ other', getHeader allocated name other = some (lookupOutcome allocated name headers.seq, other') := by
    intro other hother
    obtain ⟨other', _, hother'⟩ := getHeader_eq allocated name other
    exact ⟨other', hother ▸ hother'⟩
  have hrun : LooksUpByName allocated name headers ↔
      ByName allocated name headers (lookupOutcome allocated name headers.seq) headers' := by
    constructor
    · rintro ⟨result, after, hrun, hby⟩
      rw [hget] at hrun
      cases hrun
      exact hby
    · exact fun hby => ⟨_, _, hget, hby⟩
  rw [hrun, HeldByItsField]
  rw [lookupOutcome] at anyCursor ⊢
  cases hfind : headers.seq.find? (holdsName name) with
  | none =>
    simp only [hfind] at anyCursor
    exact byName_error_iff content anyCursor
  | some line =>
    simp only [hfind] at anyCursor
    cases allocated with
    | true => exact (byName_ok_iff content anyCursor).trans (held_iff hfind)
    | false => exact byName_error_iff content anyCursor

/-- The value of the first line is the name of the second one. -/
theorem date_looked_up_in_age :
    ¬ LooksUpByName true (.lit "Date") (.ofList [.lit "Age:Date", .lit "Date:x"]) := by
  rintro ⟨result, headers', hget, hby⟩
  obtain ⟨after, _, hrun⟩ := getHeader_eq true (.lit "Date") (.ofList [.lit "Age:Date", .lit "Date:x"])
  rw [hrun] at hget
  cases hget
  obtain ⟨field, hfield, hblock⟩ := hby.value ((CString.lit "Date").bytes ++ [0]) (by decide)
  have hfirst : [CString.lit "Age:Date", .lit "Date:x"].find? (named (.lit "Date")) = some (.lit "Date:x") := by decide
  rw [CursorList.seq_ofList, hfirst] at hfield
  cases hfield
  exact absurd hblock (by decide)

end MindConnect
