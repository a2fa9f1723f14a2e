import MindConnect.Core.CjsonPrint
import MindConnect.Lib.JsonRead

/-!
# The parser of cJSON

`json_util_parse` reads a buffer that need not end with a NUL. What is read or written outside a buffer has no meaning
here, and no more can be freed than is allocated.

| here | there |
| --- | --- |
| `ParseBuffer` | `parse_buffer` (`cJSON.c:292`); `content` has `length` bytes |
| `skipWhitespace`, `skipUtf8Bom` | `buffer_skip_whitespace` (`:1047`), `skip_utf8_bom` (`:1073`) |
| `parseNumber`, `strtodLength` | `parse_number` (`:309`), how much of a text `strtod` converts |
| `scanString`, `convertLoop`, `parseString` | the two passes of `parse_string` (`:776`) |
| `parseHex4`, `utf16LiteralToUtf8` | `parse_hex4` (`:623`), `utf16_literal_to_utf8` (`:658`) |
| `parseValue` | `parse_value` (`:1322`) |
| `parseArray`, `parseObject` | `parse_array` (`:1453`), `parse_object` (`:1613`) |
| `parseElements`, `parseMembers` | their `do` loops |
| `parseWithLength`, `cjsonParse` | `cJSON_ParseWithLengthOpts` (`:1106`) without options, `cJSON_Parse` (`:1180`) |
| `deleteItem`, `deleteItems` | `cJSON_Delete` (`:252`) |

The caller of `parse_value` has the item; here it is given what it is to have. `F` stands for `double`, `toDouble` for
what `strtod` gives for the text it converts. Sums of sizes do not overflow, since the buffer is in memory.
-/

namespace MindConnect.CjsonParse

open JsonBuilder CjsonPrint Fallible
open Arena (allocate release update)

structure ParseBuffer where
  offset : Nat
  depth : Nat

abbrev Parse := Fallible (Arena ParseBuffer)

def setOffset (n : Nat) : Parse Unit := update fun p => { p with offset := n }

def advance (n : Nat) : Parse Unit := update fun p => { p with offset := p.offset + n }

def stepBack : Parse Unit := update fun p => { p with offset := p.offset - 1 }

variable {F : Type}

/-! ## Deleting -/

def hasValuestring : ItemType F → Bool
  | .string _ => true
  | _ => false

mutual

def deleteItem : Cjson F → Parse Unit
  | .node l cs => do
    deleteItems cs
    release (if hasValuestring l.type then 1 else 0)
    release (if l.name.isSome then 1 else 0)
    release 1

def deleteItems : List (Cjson F) → Parse Unit
  | [] => pure ()
  | c :: cs => do
    deleteItem c
    deleteItems cs

end

/-! ## Numbers -/

/-- Digits with a point among them; there must be digits. -/
def mantissaLength (s : Bytes) : Nat :=
  let whole := (s.takeWhile (Scan.isDigit 10)).length
  match s.drop whole with
  | 46 :: s =>
    let fraction := (s.takeWhile (Scan.isDigit 10)).length
    if whole + fraction = 0 then 0 else whole + 1 + fraction
  | _ => whole

def signLength : Bytes → Nat
  | 43 :: _ => 1
  | 45 :: _ => 1
  | _ => 0

/-- Without digits it is no exponent. -/
def exponentLength (s : Bytes) : Nat :=
  match s with
  | b :: s =>
    if b = 101 ∨ b = 69 then
      let digits := ((s.drop (signLength s)).takeWhile (Scan.isDigit 10)).length
      if digits = 0 then 0 else 1 + signLength s + digits
    else 0
  | [] => 0

def strtodLength (s : Bytes) : Nat :=
  let mantissa := mantissaLength (s.drop (signLength s))
  if mantissa = 0 then 0
  else signLength s + mantissa + exponentLength (s.drop (signLength s + mantissa))

section
variable (content : Bytes) (toDouble : Bytes → F)

def numberCStringSize : Nat := 64

def parseNumber : Parse (ItemType F) := do
  let s ← get
  let numberCString := ((content.drop s.data.offset).take (numberCStringSize - 1)).takeWhile Json.isNumberByte
  check (strtodLength numberCString ≠ 0)
  advance (strtodLength numberCString)
  return .number (toDouble (numberCString.take (strtodLength numberCString)))

/-! ## Strings -/

def hexDigit (b : UInt8) : Option Nat :=
  if 48 ≤ b ∧ b ≤ 57 then some (b.toNat - 48)
  else if 65 ≤ b ∧ b ≤ 70 then some (10 + b.toNat - 65)
  else if 97 ≤ b ∧ b ≤ 102 then some (10 + b.toNat - 97)
  else none

/-- Zero for what is no hexadecimal number. -/
def parseHex4Loop : Bytes → Nat → Nat
  | [], h => h
  | b :: input, h =>
    match hexDigit b with
    | none => 0
    | some d => parseHex4Loop input (if input = [] then h + d else (h + d) <<< 4)

def parseHex4 (pos : Nat) : Parse Nat := do
  let input ← access (if pos + 4 ≤ content.length then some ((content.drop pos).take 4) else none)
  return parseHex4Loop input 0

/-- So many bytes behind the first one, the last one first. -/
def encodeTail : Nat → Nat → Bytes
  | 0, _ => []
  | n + 1, codepoint => encodeTail n (codepoint >>> 6) ++ [((codepoint ||| 0x80) &&& 0xBF).toUInt8]

def encodeUtf8 (codepoint : Nat) : Bytes :=
  if codepoint < 0x80 then [(codepoint &&& 0x7F).toUInt8]
  else if codepoint < 0x800 then ((codepoint >>> 6 ||| 0xC0) &&& 0xFF).toUInt8 :: encodeTail 1 codepoint
  else if codepoint < 0x10000 then ((codepoint >>> 12 ||| 0xE0) &&& 0xFF).toUInt8 :: encodeTail 2 codepoint
  else ((codepoint >>> 18 ||| 0xF0) &&& 0xFF).toUInt8 :: encodeTail 3 codepoint

/-- How long the sequence is, and what it stands for. -/
def utf16LiteralToUtf8 (inputPointer inputEnd : Nat) : Parse (Nat × Bytes) := do
  check (6 ≤ inputEnd - inputPointer)
  let firstCode ← parseHex4 content (inputPointer + 2)
  check (¬ (0xDC00 ≤ firstCode ∧ firstCode ≤ 0xDFFF))
  if 0xD800 ≤ firstCode ∧ firstCode ≤ 0xDBFF then do
    let secondSequence := inputPointer + 6
    check (6 ≤ inputEnd - secondSequence)
    let backslash ← access content[secondSequence]?
    let letter ← access content[secondSequence + 1]?
    check (backslash = 92 ∧ letter = 117)
    let secondCode ← parseHex4 content (secondSequence + 2)
    check (¬ (secondCode < 0xDC00 ∨ 0xDFFF < secondCode))
    let codepoint := 0x10000 + ((firstCode &&& 0x3FF) <<< 10 ||| (secondCode &&& 0x3FF))
    check (codepoint ≤ 0x10FFFF)
    return (12, encodeUtf8 codepoint)
  else return (6, encodeUtf8 firstCode)

/-- The letters behind a backslash but `u`. -/
def escaped (b : UInt8) : Option UInt8 :=
  if b = 98 then some 8 else if b = 102 then some 12 else if b = 110 then some 10 else if b = 114 then some 13
  else if b = 116 then some 9 else if b = 34 ∨ b = 92 ∨ b = 47 then some b else none

/-- From behind the opening quote: how far it is to the closing one, and how many bytes are skipped. -/
def scanString : Bytes → Option (Nat × Nat)
  | [] => none
  | b :: s =>
    if b = 34 then some (0, 0)
    else if b = 92 then
      match s with
      | [] => none
      | _ :: s => (scanString s).map fun r => (r.1 + 2, r.2 + 1)
    else (scanString s).map fun r => (r.1 + 1, r.2)

/-- The `while` loop. `outputPointer` is an index into `output`; both are given back. -/
def convertLoop (inputEnd : Nat) : Nat → Nat → Nat → Bytes → Parse (Nat × Bytes)
  | 0, inputPointer, outputPointer, output =>
    if inputPointer < inputEnd then access none else pure (outputPointer, output)
  | fuel + 1, inputPointer, outputPointer, output =>
    if inputPointer < inputEnd then do
      let b ← access content[inputPointer]?
      if b ≠ 92 then do
        let output ← access (Bytes.write output outputPointer [b])
        convertLoop inputEnd fuel (inputPointer + 1) (outputPointer + 1) output
      else do
        let letter ← access content[inputPointer + 1]?
        match escaped letter with
        | some c => do
          let output ← access (Bytes.write output outputPointer [c])
          convertLoop inputEnd fuel (inputPointer + 2) (outputPointer + 1) output
        | none =>
          if letter = 117 then do
            let sequence ← onFailure (utf16LiteralToUtf8 content inputPointer inputEnd) (setOffset inputPointer)
            let output ← access (Bytes.write output outputPointer sequence.2)
            convertLoop inputEnd fuel (inputPointer + sequence.1) (outputPointer + sequence.2.length) output
          else do
            setOffset inputPointer
            fail
    else pure (outputPointer, output)

def byteAtOffset : Parse UInt8 := do
  let s ← get
  access content[s.data.offset]?

variable (m : Memory)

/-- The new string, which is the `valuestring` of the item. -/
def parseString : Parse CString := do
  let s ← get
  let inputPointer := s.data.offset + 1
  let quote ← byteAtOffset content
  match if quote = 34 then scanString (content.drop inputPointer) else none with
  | none => do
    setOffset inputPointer
    fail
  | some (length, skippedBytes) => do
    let inputEnd := inputPointer + length
    let allocationLength := length + 1 - skippedBytes
    onFailure (allocate m.available) (setOffset inputPointer)
    let output := m.block s.allocations (allocationLength + 1)
    let (outputPointer, output) ← onFailure (convertLoop content inputEnd length inputPointer 0 output) (release 1)
    let output ← access (Bytes.write output outputPointer [0])
    setOffset (inputEnd + 1)
    return CString.ofBuffer output

/-! ## Values -/

def skipWhitespace : Parse Unit := do
  let s ← get
  if s.data.offset < content.length then do
    advance ((content.drop s.data.offset).takeWhile (· ≤ 32)).length
    let s ← get
    if s.data.offset = content.length then stepBack else pure ()
  else pure ()

/-- Only at the start of the buffer. -/
def skipUtf8Bom : Parse Unit :=
  if 4 < content.length ∧ [0xEF, 0xBB, 0xBF] <+: content then advance 3 else pure ()

/-- The byte at the offset, if it can be accessed. -/
def current : Parse (Option UInt8) := do
  let s ← get
  return content[s.data.offset]?

/-- Type and value of an item, and its children. -/
abbrev Parsed (F : Type) := ItemType F × List (Cjson F)

def nestingLimit : Nat := 1000

def enter : Parse Unit := do
  let s ← get
  check (s.data.depth < nestingLimit)
  update fun p => { p with depth := p.depth + 1 }

def leave : Parse Unit := update fun p => { p with offset := p.offset + 1, depth := p.depth - 1 }

/-- Behind the opening bracket. It is closed at once, or `loop` is to start at the byte before the first element. -/
def parseBracket (close : UInt8) (loop : Parse (List (Cjson F))) : Parse (List (Cjson F)) := do
  advance 1
  skipWhitespace content
  match ← current content with
  | none => do
    stepBack
    fail
  | some b =>
    if b = close then do
      leave
      return []
    else do
      stepBack
      let items ← loop
      leave
      return items

/-- Behind an element or a member: the loop goes on, or the bracket is closed. -/
def parseSeparator (close : UInt8) (done : List (Cjson F)) (loop : Parse (List (Cjson F))) :
    Parse (List (Cjson F)) := do
  match ← current content with
  | some b =>
    if b = 44 then loop
    else if b = close then pure done
    else do
      deleteItems done
      fail
  | none => do
    deleteItems done
    fail

/-- The name of a member and the colon behind it. The items so far are deleted if there is none. -/
def parseName (done : List (Cjson F)) : Parse CString := do
  let s ← get
  onFailure (check (s.data.offset + 1 < content.length)) (do deleteItems done; release 1)
  advance 1
  skipWhitespace content
  let name ← onFailure (parseString content m) (do deleteItems done; release 1)
  skipWhitespace content
  let colon ← current content
  onFailure (check (colon = some 58)) (do deleteItems done; release 1; release 1)
  return name

mutual

def parseValue : Nat → Parse (Parsed F)
  | 0 => access none
  | fuel + 1 => do
    let s ← get
    let rest := content.drop s.data.offset
    if ascii "null" <+: rest then do
      advance 4
      return (.null, [])
    else if ascii "false" <+: rest then do
      advance 5
      return (.bool false, [])
    else if ascii "true" <+: rest then do
      advance 4
      return (.bool true, [])
    else
      match rest with
      | [] => fail
      | b :: _ =>
        if b = 34 then do
          let valuestring ← parseString content m
          return (.string valuestring, [])
        else if b = 45 ∨ 48 ≤ b ∧ b ≤ 57 then do
          let number ← parseNumber content toDouble
          return (number, [])
        else if b = 91 then parseArray fuel
        else if b = 123 then parseObject fuel
        else fail

def parseArray : Nat → Parse (Parsed F)
  | 0 => access none
  | fuel + 1 => do
    enter
    let bracket ← byteAtOffset content
    check (bracket = 91)
    let child ← parseBracket content 93 (parseElements fuel [])
    return (.array, child)

/-- The elements so far are in the list. -/
def parseElements : Nat → List (Cjson F) → Parse (List (Cjson F))
  | 0, _ => access none
  | fuel + 1, done => do
    onFailure (allocate m.available) (deleteItems done)
    advance 1
    skipWhitespace content
    let value ← onFailure (parseValue fuel) (do deleteItems done; release 1)
    skipWhitespace content
    parseSeparator content 93 (done ++ [.node ⟨value.1, none⟩ value.2])
      (parseElements fuel (done ++ [.node ⟨value.1, none⟩ value.2]))

def parseObject : Nat → Parse (Parsed F)
  | 0 => access none
  | fuel + 1 => do
    enter
    let bracket ← current content
    check (bracket = some 123)
    let child ← parseBracket content 125 (parseMembers fuel [])
    return (.object, child)

def parseMembers : Nat → List (Cjson F) → Parse (List (Cjson F))
  | 0, _ => access none
  | fuel + 1, done => do
    onFailure (allocate m.available) (deleteItems done)
    let name ← parseName content m done
    advance 1
    skipWhitespace content
    let value ← onFailure (parseValue fuel) (do deleteItems done; release 1; release 1)
    skipWhitespace content
    parseSeparator content 125 (done ++ [.node ⟨value.1, some name⟩ value.2])
      (parseMembers fuel (done ++ [.node ⟨value.1, some name⟩ value.2]))

end

def parseWithLength : Parse (Cjson F) := do
  check (content ≠ [])
  update fun _ => ⟨0, 0⟩
  allocate m.available
  let value ← onFailure
    (do
      skipUtf8Bom content
      skipWhitespace content
      parseValue content toDouble m (3 * content.length + 1))
    (release 1)
  return .node ⟨value.1, none⟩ value.2

end

def cjsonParse (value : CString) (toDouble : Bytes → F) (m : Memory) : Parse (Cjson F) :=
  parseWithLength (value.bytes ++ [0]) toDouble m

/-- The argument of `json_util_parse`: a string for the size zero, else a buffer of that size. -/
inductive JsonInput where
  | string (jsonString : CString)
  | buffer (bytes : Bytes) (nonempty : bytes ≠ [])

def parseInput (toDouble : Bytes → F) (m : Memory) : JsonInput → Parse (Cjson F)
  | .string jsonString => cjsonParse jsonString toDouble m
  | .buffer bytes _ => parseWithLength bytes toDouble m

/-- `json_util_parse` (`json_util.c:844`) -/
def jsonUtilParse (toDouble : Bytes → F) (m : Memory) (input : JsonInput) (s : Arena ParseBuffer) :
    Option (Result (Cjson F) × Arena ParseBuffer) :=
  (parseInput toDouble m input s).map fun r =>
    (match r.1 with
     | some root => .ok root
     | none => .error .fail, r.2)

end MindConnect.CjsonParse
