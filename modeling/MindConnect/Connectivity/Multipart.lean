import MindConnect.Core.Common
import MindConnect.Lib.Bytes
import Mathlib.Data.List.GetD

/-!
# The multipart encoder: `mcl_connectivity/src/multipart.c`

| here | there |
| --- | --- |
| `Window` | `buffer`, `position` and `remaining_size` of one call; `*buffer_size` is `remaining` on return |
| `MultipartState`, `spaceNeededForState` | `E_MULTIPART_STATE` (`multipart.c:40`), `_space_needed_for_state` (`:66`) |
| `Tuple` | the arguments of `multipart_add_tuple_with_callback` and what its callees return for them |
| `runState`, `addTupleLoop` | one turn of the `switch`, the `while` (`multipart.c:142`) |
| `addTupleWithCallback`, `close` | `multipart_add_tuple_with_callback` (`:130`), `multipart_close` (`:250`) |

A memory access outside the buffer, or through the null `sub_boundary`, is `none`. `Tuple.text` says what
a tuple is, without any cursor; `addTupleWithCallback_spec` relates the two.
-/

namespace MindConnect

/-! ## Boundaries -/

def boundaryLength : Nat := 20

def boundaryCharacters : Bytes := ascii "1234567890abcdefghijklmnopqrstuvwxyzABCDEFGHIJKLMNOPQRSTUVWXYZ"

structure Boundary where
  bytes : Bytes
  length_eq : bytes.length = boundaryLength
  picked : ∀ b ∈ bytes, b ∈ boundaryCharacters

def sampleBoundary : Boundary := ⟨ascii "01234567890123456789", rfl, by decide⟩

/-- `boundary_characters[byte % (sizeof(boundary_characters) - 1)]` -/
def boundaryCharacter (byte : UInt8) : UInt8 :=
  boundaryCharacters.getD (byte.toNat % boundaryCharacters.length) 0

theorem boundaryCharacter_mem (byte : UInt8) : boundaryCharacter byte ∈ boundaryCharacters := by
  have h : byte.toNat % boundaryCharacters.length < boundaryCharacters.length :=
    Nat.mod_lt _ (by decide)
  rw [boundaryCharacter, List.getD_eq_getElem _ _ h]
  exact List.getElem_mem h

/-- `multipart_generate_boundary`: `random` is what the allocation and the random generator give. -/
def generateBoundary (random : Result {r : Bytes // r.length = boundaryLength}) : Result Boundary :=
  random.map fun r => ⟨r.val.map boundaryCharacter, by simpa using r.property, by
    simp only [List.mem_map, forall_exists_index, and_imp, forall_apply_eq_imp_iff₂]
    exact fun b _ => boundaryCharacter_mem b⟩

/-! ## The texts of the encoder -/

def boundarySign : Bytes := ascii "--"
def contentTypeKey : Bytes := ascii "Content-Type: "
def boundaryKey : Bytes := ascii ";boundary="
def endline : Bytes := ascii "\r\n"
def doubleEndline : Bytes := ascii "\r\n\r\n"
def contentTypeMultipartRelated : Bytes := ascii "multipart/related"
def contentTypeMetaJson : Bytes := ascii "application/vnd.siemens.mindsphere.meta+json"
def contentTypeApplicationJson : Bytes := ascii "application/json"

/-- `_add_boundary`: a delimiter line, or a close delimiter line. -/
def addBoundary (boundary : Boundary) (addAndClose : Bool) : Bytes :=
  boundarySign ++ boundary.bytes ++ (if addAndClose then boundarySign else []) ++ endline

inductive MultipartState where
  | openMainBoundary
  | contentTypeKeyForMultipartRelated
  | contentTypeValueMultipartRelated
  | boundaryKey
  | boundaryValueSubBoundary
  | doubleEndlineFirst
  | openSubBoundaryFirst
  | contentTypeKeyForMetaJson
  | contentTypeValueMetaJson
  | doubleEndlineSecond
  | itemMetaJson
  | endlineFirst
  | openSubBoundarySecond
  | contentTypeKeyForPayload
  | contentTypeValuePayload
  | doubleEndlineThird
  | itemPayload
  | endlineSecond
  | closeSubBoundary
deriving DecidableEq, Repr

/-- `++multipart_state` from the first state up to `MULTIPART_STATE_END`. -/
def multipartStates : List MultipartState :=
  [.openMainBoundary, .contentTypeKeyForMultipartRelated, .contentTypeValueMultipartRelated,
    .boundaryKey, .boundaryValueSubBoundary, .doubleEndlineFirst, .openSubBoundaryFirst,
    .contentTypeKeyForMetaJson, .contentTypeValueMetaJson, .doubleEndlineSecond, .itemMetaJson,
    .endlineFirst, .openSubBoundarySecond, .contentTypeKeyForPayload, .contentTypeValuePayload,
    .doubleEndlineThird, .itemPayload, .endlineSecond, .closeSubBoundary]

/-- Zero for the three states whose functions move the cursor themselves. -/
def spaceNeededForState : MultipartState → Nat
  | .openMainBoundary => boundarySign.length + boundaryLength + endline.length
  | .contentTypeKeyForMultipartRelated => contentTypeKey.length
  | .contentTypeValueMultipartRelated => contentTypeMultipartRelated.length
  | .boundaryKey => boundaryKey.length
  | .boundaryValueSubBoundary => boundaryLength
  | .doubleEndlineFirst => doubleEndline.length
  | .openSubBoundaryFirst => boundarySign.length + boundaryLength + endline.length
  | .contentTypeKeyForMetaJson => contentTypeKey.length
  | .contentTypeValueMetaJson => contentTypeMetaJson.length
  | .doubleEndlineSecond => doubleEndline.length
  | .itemMetaJson => 0
  | .endlineFirst => endline.length
  | .openSubBoundarySecond => boundarySign.length + boundaryLength + endline.length
  | .contentTypeKeyForPayload => contentTypeKey.length
  | .contentTypeValuePayload => 0
  | .doubleEndlineThird => doubleEndline.length
  | .itemPayload => 0
  | .endlineSecond => endline.length
  | .closeSubBoundary => 2 * boundarySign.length + boundaryLength + endline.length

/-! ## The cursor -/

structure Window where
  buffer : Bytes
  position : Nat
  remaining : Nat
deriving DecidableEq, Repr

namespace Window

/-- What is left lies inside the buffer. -/
def Fits (w : Window) : Prop := w.position + w.remaining ≤ w.buffer.length

/-- `memcpy(position, bs, length)`; the cursor stays. -/
def write (w : Window) (bs : Bytes) : Option Window :=
  (Bytes.write w.buffer w.position bs).map fun b => { w with buffer := b }

def advance (w : Window) (n : Nat) : Window :=
  { w with position := w.position + n, remaining := w.remaining - n }

def append (w : Window) (bs : Bytes) : Option Window := (w.write bs).map (·.advance bs.length)

/-- `w'` is `w` after `bs` was put at its position. -/
structure Appended (w w' : Window) (bs : Bytes) : Prop where
  le : bs.length ≤ w.remaining
  position : w'.position = w.position + bs.length
  remaining : w'.remaining = w.remaining - bs.length
  length : w'.buffer.length = w.buffer.length
  take : w'.buffer.take w'.position = w.buffer.take w.position ++ bs

/-- `w'` has the bytes of `w` before its position. -/
structure Kept (w w' : Window) : Prop where
  length : w'.buffer.length = w.buffer.length
  take : w'.buffer.take w.position = w.buffer.take w.position

theorem Kept.refl (w : Window) : Kept w w := ⟨rfl, rfl⟩

theorem Appended.fits {w w' : Window} {bs : Bytes} (h : Appended w w' bs) (hw : w.Fits) : w'.Fits := by
  have := h.le
  simp only [Fits, h.position, h.remaining, h.length] at hw ⊢
  omega

theorem Appended.kept {w w' : Window} {bs : Bytes} (h : Appended w w' bs) (hw : w.Fits) : Kept w w' := by
  refine ⟨h.length, ?_⟩
  have hp : w.position ≤ w.buffer.length := Nat.le_trans (Nat.le_add_right _ _) hw
  have := congrArg (List.take w.position) h.take
  rw [List.take_take, Nat.min_eq_left (by rw [h.position]; omega),
    List.take_append_of_le_length (by simp [hp]), List.take_take, Nat.min_self] at this
  exact this

theorem Appended.trans {w w' w'' : Window} {bs cs : Bytes} (h : Appended w w' bs)
    (h' : Appended w' w'' cs) : Appended w w'' (bs ++ cs) := by
  have hle := h.le
  have hle' := h'.le
  have hrem := h.remaining
  refine ⟨by simp; omega, ?_, ?_, h'.length.trans h.length, ?_⟩
  · rw [h'.position, h.position, List.length_append, Nat.add_assoc]
  · rw [h'.remaining, hrem, List.length_append, Nat.sub_add_eq]
  · rw [h'.take, h.take, List.append_assoc]

/-- Losing what was appended last loses nothing before it. -/
theorem Kept.of_appended {w w' w'' : Window} {bs : Bytes} (h : Appended w w' bs) (h' : Kept w' w'')
    (hw : w.Fits) : Kept w w'' := by
  refine ⟨h'.length.trans h.length, ?_⟩
  have := congrArg (List.take w.position) h'.take
  rwa [List.take_take, List.take_take, Nat.min_eq_left (by rw [h.position]; omega),
    (h.kept hw).take] at this

theorem write_spec {w : Window} {bs : Bytes} (hw : w.Fits) (h : bs.length ≤ w.remaining) :
    ∃ w', w.write bs = some w' ∧ Appended w (w'.advance bs.length) bs := by
  have hb : w.position + bs.length ≤ w.buffer.length := by simp only [Fits] at hw; omega
  obtain ⟨b, hwr⟩ : ∃ b, Bytes.write w.buffer w.position bs = some b := ⟨_, Bytes.write_eq_some hb⟩
  exact ⟨{ w with buffer := b }, by rw [write, hwr]; rfl, h, rfl, rfl, Bytes.length_of_write hwr,
    Bytes.take_of_write hwr⟩

theorem append_spec {w : Window} {bs : Bytes} (hw : w.Fits) (h : bs.length ≤ w.remaining) :
    ∃ w', w.append bs = some w' ∧ Appended w w' bs := by
  obtain ⟨w', hwr, happ⟩ := write_spec hw h
  exact ⟨_, by rw [append, hwr]; rfl, happ⟩

theorem remaining_of_append {w w' : Window} {bs : Bytes} (h : w.append bs = some w') :
    w'.remaining = w.remaining - bs.length := by
  simp only [append, write, Option.map_map, Option.map_eq_some_iff, Function.comp] at h
  obtain ⟨_, _, rfl⟩ := h
  rfl

end Window

def emptyWindow (size : Nat) : Window := ⟨List.replicate size 0, 0, size⟩

theorem fits_emptyWindow (size : Nat) : (emptyWindow size).Fits := by
  rw [Window.Fits, emptyWindow, List.length_replicate, Nat.zero_add]

/-- What is put into an empty window is the front of its buffer. -/
theorem front_of_emptyWindow {size : Nat} {v : Window} {text : Bytes} (h : (emptyWindow size).Appended v text) :
    text.length ≤ size ∧ v.remaining = size - text.length ∧ v.position = text.length ∧
      v.buffer.take v.position = text := by
  refine ⟨h.le, h.remaining, ?_, ?_⟩
  · rw [h.position, emptyWindow, Nat.zero_add]
  · rw [h.take, emptyWindow, List.take_zero, List.nil_append]

/-! ## One tuple -/

/-- A payload callback with its context: `call` copies at most as many bytes as it is asked for and
returns them. `rest` is what it has still to deliver, it delivers something as long as there is some. -/
structure PayloadCallback where
  State : Type
  userContext : State
  call : State → Nat → Bytes × State
  rest : State → Bytes
  call_le : ∀ x n, (call x n).1.length ≤ n
  call_rest : ∀ x n, (call x n).1 ++ rest (call x n).2 = rest x
  call_progress : ∀ x n, 0 < n → rest x ≠ [] → (call x n).1 ≠ []

/-- The arguments `boundary`, `payload_content_type`, `callback` and `user_context`, and what
`multipart_generate_boundary`, `json_from_item_meta` and `json_from_item_payload` return in the call (a
JSON text is the bytes that `strlen` counts). -/
structure Tuple where
  boundary : Boundary
  subBoundary : Result Boundary
  metaJson : Result Bytes
  contentType : Option CString
  payloadJson : Result Bytes
  callback : Option PayloadCallback

/-- The tail shared by `_add_item_meta_json`, `_add_item_payload_content_type` and `_add_item_payload`. -/
def addText (text : Bytes) (w : Window) : Option (Result Unit × Window) :=
  if text.length ≤ w.remaining then (w.append text).map fun w' => (.ok (), w')
  else some (.error .fail, w)

def addItemMetaJson (t : Tuple) (w : Window) : Option (Result Unit × Window) :=
  match t.metaJson with
  | .ok json => addText json w
  | .error e => some (.error e, w)

def payloadContentType (t : Tuple) : Bytes :=
  match t.contentType with
  | none => contentTypeApplicationJson
  | some type => type.bytes

def addItemPayloadContentType (t : Tuple) (w : Window) : Option (Result Unit × Window) :=
  addText (payloadContentType t) w

/-- The `do … while` of `_add_item_payload` (`multipart.c:423`). -/
def callbackLoop (c : PayloadCallback) (x : c.State) (w : Window) : Option (Result Unit × Window) :=
  match _h : w.append (c.call x w.remaining).1 with
  | none => none
  | some w' =>
    if _hv : (c.call x w.remaining).1 ≠ [] ∧ w'.remaining ≠ 0 then
      callbackLoop c (c.call x w.remaining).2 w'
    else if (c.call x w.remaining).1 ≠ [] then some (.error .fail, w')
    else some (.ok (), w')
termination_by w.remaining
decreasing_by
  have := List.length_pos_of_ne_nil _hv.1
  have := Window.remaining_of_append _h
  omega

def addItemPayload (t : Tuple) (w : Window) : Option (Result Unit × Window) :=
  match t.callback with
  | none =>
    match t.payloadJson with
    | .ok payload => addText payload w
    | .error e => some (.error e, w)
  | some c => callbackLoop c c.userContext w

/-- What the other branches of the `switch` copy. The sub boundary is null if it was not generated. -/
def copiedText (t : Tuple) : MultipartState → Option Bytes
  | .openMainBoundary => some (addBoundary t.boundary false)
  | .contentTypeKeyForMultipartRelated => some contentTypeKey
  | .contentTypeKeyForMetaJson => some contentTypeKey
  | .contentTypeKeyForPayload => some contentTypeKey
  | .contentTypeValueMultipartRelated => some contentTypeMultipartRelated
  | .boundaryKey => some boundaryKey
  | .boundaryValueSubBoundary => subBoundary.map fun sub => sub.bytes
  | .doubleEndlineFirst => some doubleEndline
  | .doubleEndlineSecond => some doubleEndline
  | .doubleEndlineThird => some doubleEndline
  | .openSubBoundaryFirst => subBoundary.map fun sub => addBoundary sub false
  | .openSubBoundarySecond => subBoundary.map fun sub => addBoundary sub false
  | .closeSubBoundary => subBoundary.map fun sub => addBoundary sub true
  | .contentTypeValueMetaJson => some contentTypeMetaJson
  | .endlineFirst => some endline
  | .endlineSecond => some endline
  | .itemMetaJson => some []
  | .contentTypeValuePayload => some []
  | .itemPayload => some []
where
  subBoundary : Option Boundary := t.subBoundary.toOption

/-- One turn of the `switch`. Only the three functions set the code. -/
def runState (t : Tuple) (code : Result Unit) (w : Window) : MultipartState → Option (Result Unit × Window)
  | .itemMetaJson => addItemMetaJson t w
  | .contentTypeValuePayload => addItemPayloadContentType t w
  | .itemPayload => addItemPayload t w
  | s =>
    match copiedText t s with
    | none => none
    | some bs => (w.write bs).map fun w' => (code, w')

/-- The `while` over the states still to come. -/
def addTupleLoop (t : Tuple) : List MultipartState → Result Unit → Window → Option (Result Unit × Window)
  | [], code, w => some (code, w)
  | s :: ss, code, w =>
    if w.remaining = 0 ∨ spaceNeededForState s > w.remaining then some (.error .fail, w)
    else
      match runState t code w s with
      | none => none
      | some (.error e, w') => some (.error e, w')
      | some (.ok (), w') => addTupleLoop t ss (.ok ()) (w'.advance (spaceNeededForState s))

/-- `multipart_add_tuple_with_callback`. The caller finds its window moved on only after `MCL_OK`. -/
def addTupleWithCallback (t : Tuple) (w : Window) : Option (Result Unit × Window) :=
  match addTupleLoop t multipartStates (t.subBoundary.map fun _ => ()) w with
  | none => none
  | some (.ok (), w') => some (.ok (), w')
  | some (.error e, w') => some (.error e, { w with buffer := w'.buffer })

/-- `MULTIPART_CLOSE_LENGTH`, also `multipart_get_overhead_size()` -/
def closeLength : Nat := boundaryLength + 2 * boundarySign.length

def closeText (boundary : Boundary) : Bytes := boundarySign ++ boundary.bytes ++ boundarySign

/-- `multipart_close` -/
def close (boundary : Boundary) (w : Window) : Option (Result Unit × Window) :=
  if closeLength ≤ w.remaining then (w.append (closeText boundary)).map fun w' => (.ok (), w')
  else some (.error .fail, w)

/-! ## What a tuple is -/

/-- The payload's bytes: the JSON text, or what the callback delivers. -/
def Tuple.payload (t : Tuple) : Result Bytes :=
  match t.callback with
  | none => t.payloadJson
  | some c => .ok (c.rest c.userContext)

/-- The type of a tuple, which announces the sub boundary. -/
def tupleType (sub : Boundary) : Bytes := contentTypeMultipartRelated ++ boundaryKey ++ sub.bytes

/-- A delimiter line, the header, an empty line and the content with the line break behind it. -/
def bodyPart (sub : Boundary) (type content : Bytes) : Bytes :=
  addBoundary sub false ++ contentTypeKey ++ type ++ doubleEndline ++ content ++ endline

def tupleText (boundary sub : Boundary) (metaJson type payload : Bytes) : Bytes :=
  addBoundary boundary false ++ contentTypeKey ++ tupleType sub ++ doubleEndline ++
    bodyPart sub contentTypeMetaJson metaJson ++ bodyPart sub type payload ++ addBoundary sub true

/-- The bytes of the tuple, or the error of the part that cannot be had. -/
def Tuple.text (t : Tuple) : Result Bytes := do
  let sub ← t.subBoundary
  let json ← t.metaJson
  let payload ← t.payload
  return tupleText t.boundary sub json (payloadContentType t) payload

/-- The part that one state contributes. -/
def Tuple.part (t : Tuple) : MultipartState → Result Bytes
  | .itemMetaJson => t.metaJson
  | .contentTypeValuePayload => .ok (payloadContentType t)
  | .itemPayload => t.payload
  | s => .ok ((copiedText t s).getD [])

def Tuple.parts (t : Tuple) : List MultipartState → Result Bytes
  | [] => .ok []
  | s :: ss => do
    let b ← t.part s
    let bs ← t.parts ss
    return b ++ bs

theorem Tuple.parts_eq_text (t : Tuple) {sub : Boundary} (h : t.subBoundary = .ok sub) :
    t.parts multipartStates = t.text := by
  simp only [parts, multipartStates, part, copiedText, copiedText.subBoundary, text, h, bind, Except.bind,
    Except.toOption, Option.map_some, Option.getD_some]
  cases t.metaJson with
  | error e => rfl
  | ok json =>
    cases t.payload with
    | error e => rfl
    | ok payload =>
      simp only [pure, Except.pure, tupleText, tupleType, bodyPart, List.append_nil, List.append_assoc]

/-! ## What the encoder writes -/

theorem addText_spec (text : Bytes) {w : Window} (hw : w.Fits) :
    ∃ code w', addText text w = some (code, w') ∧
      ((code = .ok () ∧ w.Appended w' text) ∨
        (code = .error .fail ∧ w.Kept w' ∧ w.remaining < text.length)) := by
  unfold addText
  split_ifs with h
  · obtain ⟨w', happ, hsp⟩ := Window.append_spec hw h
    exact ⟨_, w', by rw [happ]; rfl, .inl ⟨rfl, hsp⟩⟩
  · exact ⟨_, w, rfl, .inr ⟨rfl, .refl w, by omega⟩⟩

/-- The callback's bytes are appended if they leave a byte free behind them. -/
theorem callbackLoop_spec (c : PayloadCallback) (x : c.State) {w : Window} (hw : w.Fits)
    (hpos : 0 < w.remaining) :
    ∃ code w', callbackLoop c x w = some (code, w') ∧
      ((code = .ok () ∧ w.Appended w' (c.rest x)) ∨
        (code = .error .fail ∧ w.Kept w' ∧ w.remaining ≤ (c.rest x).length)) := by
  induction hn : w.remaining using Nat.strong_induction_on generalizing w x with
  | _ n ih =>
    subst hn
    obtain ⟨w₁, happ, hsp⟩ := Window.append_spec hw (c.call_le x w.remaining)
    have hrest := c.call_rest x w.remaining
    have hlen := congrArg List.length hrest
    rw [List.length_append] at hlen
    rw [callbackLoop, happ]
    by_cases hv : (c.call x w.remaining).1 = []
    · -- nothing copied although there was room: the callback is at its end
      have hend : c.rest x = [] := by
        by_contra hne
        exact c.call_progress x _ hpos hne hv
      rw [hv] at hsp
      exact ⟨_, w₁, by simp [hv], .inl ⟨rfl, by rw [hend]; exact hsp⟩⟩
    · have hle := c.call_le x w.remaining
      have hlt := List.length_pos_of_ne_nil hv
      have hr := hsp.remaining
      by_cases hz : w₁.remaining = 0
      · exact ⟨_, w₁, by simp [hv, hz], .inr ⟨rfl, hsp.kept hw, by omega⟩⟩
      · obtain ⟨code, w', hrun, h⟩ := ih w₁.remaining (by omega) (c.call x w.remaining).2
          (hsp.fits hw) (by omega) rfl
        refine ⟨code, w', by simpa [hv, hz] using hrun, ?_⟩
        rcases h with ⟨rfl, h⟩ | ⟨rfl, h, hle'⟩
        · left
          exact ⟨rfl, by rw [← hrest]; exact hsp.trans h⟩
        · right
          exact ⟨rfl, .of_appended hsp h hw, by omega⟩

theorem length_addBoundary (b : Boundary) (close : Bool) :
    (addBoundary b close).length = if close then 26 else 24 := by
  cases close <;> simp [addBoundary, b.length_eq] <;> rfl

/-- The table of lengths agrees with what the `switch` copies. -/
theorem copiedText_spec {t : Tuple} {sub : Boundary} (hsub : t.subBoundary = .ok sub) (s : MultipartState) :
    ∃ bs, copiedText t s = some bs ∧ bs.length = spaceNeededForState s := by
  cases s <;> simp only [copiedText, copiedText.subBoundary, hsub, Except.toOption, Option.map_some,
      Option.some.injEq, exists_eq_left', length_addBoundary, sub.length_eq] <;> rfl

theorem copiedText_turn {t : Tuple} {sub : Boundary} (hsub : t.subBoundary = .ok sub) {w : Window}
    (hw : w.Fits) {s : MultipartState} (hs : spaceNeededForState s ≤ w.remaining) {bs : Bytes}
    (hbs : copiedText t s = some bs) :
    ∃ w', (w.write bs).map (fun w' => (Except.ok (), w')) = some ((.ok (), w') : Result Unit × Window) ∧
      w.Appended (w'.advance (spaceNeededForState s)) bs := by
  obtain ⟨bs', hbs', hlen⟩ := copiedText_spec hsub s
  obtain rfl : bs = bs' := by simpa [hbs] using hbs'
  have hle : bs.length ≤ w.remaining := by omega
  obtain ⟨w', hwr, hsp⟩ := Window.write_spec hw hle
  exact ⟨w', by rw [hwr]; rfl, by rw [← hlen]; exact hsp⟩

/-- One turn either appends the state's part, or fails: with the error of the part, or because the
part does not fit, or (the callback) because it leaves no room behind it. -/
theorem runState_spec {t : Tuple} {sub : Boundary} (hsub : t.subBoundary = .ok sub) {w : Window}
    (hw : w.Fits) (hpos : 0 < w.remaining) {s : MultipartState} (hs : spaceNeededForState s ≤ w.remaining) :
    ∃ code w', runState t (.ok ()) w s = some (code, w') ∧
      ((∃ b, t.part s = .ok b ∧ code = .ok () ∧ w.Appended (w'.advance (spaceNeededForState s)) b) ∨
        (∃ e, code = .error e ∧ w.Kept w' ∧ s ≠ .closeSubBoundary ∧
          ∀ b, t.part s = .ok b → e = .fail ∧ w.remaining ≤ b.length)) := by
  have hadv : ∀ w' : Window, w'.advance 0 = w' := fun _ => rfl
  have htext : ∀ text : Bytes, ∃ code w', addText text w = some (code, w') ∧
      ((code = .ok () ∧ w.Appended (w'.advance 0) text) ∨
        ∃ e, code = .error e ∧ w.Kept w' ∧ e = .fail ∧ w.remaining ≤ text.length) := by
    intro text
    obtain ⟨code, w', hrun, h⟩ := addText_spec text hw
    refine ⟨code, w', hrun, ?_⟩
    rcases h with ⟨rfl, h⟩ | ⟨rfl, h, hlt⟩
    · exact .inl ⟨rfl, h⟩
    · exact .inr ⟨_, rfl, h, rfl, hlt.le⟩
  cases s with
  | itemMetaJson =>
    simp only [runState, addItemMetaJson, Tuple.part]
    cases t.metaJson with
    | error e => exact ⟨_, w, rfl, .inr ⟨e, rfl, .refl w, by simp, fun b hb => by cases hb⟩⟩
    | ok json =>
      obtain ⟨code, w', hrun, h⟩ := htext json
      refine ⟨code, w', hrun, ?_⟩
      rcases h with ⟨rfl, h⟩ | ⟨e, rfl, h, rfl, hle⟩
      · exact .inl ⟨_, rfl, rfl, h⟩
      · exact .inr ⟨_, rfl, h, by simp, fun b hb => by cases hb; exact ⟨rfl, hle⟩⟩
  | contentTypeValuePayload =>
    obtain ⟨code, w', hrun, h⟩ := htext (payloadContentType t)
    refine ⟨code, w', hrun, ?_⟩
    rcases h with ⟨rfl, h⟩ | ⟨e, rfl, h, rfl, hle⟩
    · exact .inl ⟨_, rfl, rfl, h⟩
    · exact .inr ⟨_, rfl, h, by simp, fun b hb => by cases hb; exact ⟨rfl, hle⟩⟩
  | itemPayload =>
    simp only [runState, addItemPayload, Tuple.part, Tuple.payload]
    cases t.callback with
    | some c =>
      obtain ⟨code, w', hrun, h⟩ := callbackLoop_spec c c.userContext hw hpos
      refine ⟨code, w', hrun, ?_⟩
      rcases h with ⟨rfl, h⟩ | ⟨rfl, h, hle⟩
      · exact .inl ⟨_, rfl, rfl, h⟩
      · exact .inr ⟨_, rfl, h, by simp, fun b hb => by cases hb; exact ⟨rfl, hle⟩⟩
    | none =>
      cases t.payloadJson with
      | error e => exact ⟨_, w, rfl, .inr ⟨e, rfl, .refl w, by simp, fun b hb => by cases hb⟩⟩
      | ok json =>
        obtain ⟨code, w', hrun, h⟩ := htext json
        refine ⟨code, w', hrun, ?_⟩
        rcases h with ⟨rfl, h⟩ | ⟨e, rfl, h, rfl, hle⟩
        · exact .inl ⟨_, rfl, rfl, h⟩
        · exact .inr ⟨_, rfl, h, by simp, fun b hb => by cases hb; exact ⟨rfl, hle⟩⟩
  | _ =>
    obtain ⟨bs, hbs, -⟩ := copiedText_spec hsub _
    obtain ⟨w', hwr, hsp⟩ := copiedText_turn hsub hw hs hbs
    exact ⟨_, w', by simp only [runState, hbs]; exact hwr, .inl ⟨bs, by simp [Tuple.part, hbs], rfl, hsp⟩⟩

theorem Tuple.parts_cons {t : Tuple} {s : MultipartState} {ss : List MultipartState} {text : Bytes}
    (h : t.parts (s :: ss) = .ok text) :
    ∃ b bs, t.part s = .ok b ∧ t.parts ss = .ok bs ∧ text = b ++ bs := by
  simp only [parts, bind, Except.bind] at h
  cases hb : t.part s with
  | error e => simp [hb] at h
  | ok b =>
    cases hbs : t.parts ss with
    | error e => simp [hb, hbs] at h
    | ok bs => exact ⟨b, bs, rfl, rfl, by simpa [hb, hbs, pure, Except.pure] using h.symm⟩

theorem Tuple.spaceNeeded_le_part {t : Tuple} {sub : Boundary} (hsub : t.subBoundary = .ok sub)
    {s : MultipartState} {b : Bytes} (h : t.part s = .ok b) : spaceNeededForState s ≤ b.length := by
  obtain ⟨bs, hbs, hlen⟩ := copiedText_spec hsub s
  cases s <;> first
    | exact Nat.zero_le _
    | (simp only [part, hbs, Option.getD_some, Except.ok.injEq] at h; subst h; exact hlen.ge)

theorem Tuple.parts_pos {t : Tuple} {sub : Boundary} (hsub : t.subBoundary = .ok sub) :
    ∀ {ss : List MultipartState} {text : Bytes}, .closeSubBoundary ∈ ss → t.parts ss = .ok text →
      0 < text.length
  | s :: ss, text, hmem, h => by
    obtain ⟨b, bs, hb, hbs, rfl⟩ := parts_cons h
    rw [List.length_append]
    rcases List.mem_cons.1 hmem with rfl | hmem
    · have hspace : 0 < spaceNeededForState .closeSubBoundary := by decide
      have := spaceNeeded_le_part hsub hb
      omega
    · have := parts_pos hsub hmem hbs
      omega

/-- The loop appends all its parts, or fails and keeps what was there; with all parts at hand, it fails
exactly when they do not fit. The last state has a part of its own, so no state may fill the window. -/
theorem addTupleLoop_spec {t : Tuple} {sub : Boundary} (hsub : t.subBoundary = .ok sub)
    (ss : List MultipartState) (hlast : ∀ h : ss ≠ [], ss.getLast h = .closeSubBoundary) {w : Window}
    (hw : w.Fits) :
    ∃ code w', addTupleLoop t ss (.ok ()) w = some (code, w') ∧
      ((∃ text, t.parts ss = .ok text ∧ code = .ok () ∧ w.Appended w' text) ∨
        (∃ e, code = .error e ∧ w.Kept w' ∧
          ∀ text, t.parts ss = .ok text → e = .fail ∧ w.remaining < text.length)) := by
  induction ss generalizing w with
  | nil =>
    exact ⟨_, w, rfl, .inl ⟨[], rfl, rfl, ⟨Nat.zero_le _, rfl, rfl, rfl, by simp⟩⟩⟩
  | cons s ss ih =>
    have hclose : .closeSubBoundary ∈ s :: ss := by
      have := List.getLast_mem (List.cons_ne_nil s ss)
      rwa [hlast] at this
    rw [addTupleLoop]
    split_ifs with hfull
    · refine ⟨_, w, rfl, .inr ⟨.fail, rfl, .refl w, fun text htext => ⟨rfl, ?_⟩⟩⟩
      obtain ⟨b, bs, hb, hbs, rfl⟩ := Tuple.parts_cons htext
      have hpos := Tuple.parts_pos hsub hclose htext
      have hspace := Tuple.spaceNeeded_le_part hsub hb
      rw [List.length_append] at hpos ⊢
      omega
    · obtain ⟨hpos, hspace⟩ : 0 < w.remaining ∧ spaceNeededForState s ≤ w.remaining := by omega
      obtain ⟨code, w₁, hrun, h⟩ := runState_spec hsub hw hpos hspace
      rcases h with ⟨b, hb, rfl, happ⟩ | ⟨e, rfl, hkept, hne, hfail⟩
      · -- the part was appended: the rest of the loop decides
        have hlast' : ∀ h : ss ≠ [], ss.getLast h = .closeSubBoundary := fun h => by
          rw [← hlast (List.cons_ne_nil s ss), List.getLast_cons h]
        obtain ⟨code, w', hrun', h'⟩ := ih hlast' (happ.fits hw)
        refine ⟨code, w', by rw [hrun]; exact hrun', ?_⟩
        rcases h' with ⟨text, htext, rfl, happ'⟩ | ⟨e, rfl, hkept, hfail⟩
        · exact .inl ⟨b ++ text, by simp [Tuple.parts, hb, htext, bind, Except.bind, pure, Except.pure],
            rfl, happ.trans happ'⟩
        · refine .inr ⟨e, rfl, .of_appended happ hkept hw, fun text htext => ?_⟩
          obtain ⟨b', bs, hb', hbs, rfl⟩ := Tuple.parts_cons htext
          obtain rfl : b = b' := by simpa [hb] using hb'
          obtain ⟨he, hlt⟩ := hfail bs hbs
          have hle := happ.le
          have hr := happ.remaining
          exact ⟨he, by rw [List.length_append]; omega⟩
      · -- the part failed or did not fit; it is not the last one, so more was to come
        refine ⟨_, w₁, by rw [hrun], .inr ⟨e, rfl, hkept, fun text htext => ?_⟩⟩
        obtain ⟨b, bs, hb, hbs, rfl⟩ := Tuple.parts_cons htext
        have hmem : .closeSubBoundary ∈ ss := (List.mem_cons.1 hclose).resolve_left fun h => hne h.symm
        have hpos' := Tuple.parts_pos hsub hmem hbs
        obtain ⟨he, hle⟩ := hfail b hb
        exact ⟨he, by rw [List.length_append]; omega⟩

/-- Without a sub boundary the first state copies the main boundary and the loop stops. -/
theorem addTupleLoop_error (t : Tuple) (e : McError) (ss : List MultipartState) {w : Window} (hw : w.Fits) :
    ∃ e' w', addTupleLoop t (.openMainBoundary :: ss) (.error e) w = some (.error e', w') ∧ w.Kept w' := by
  rw [addTupleLoop]
  split_ifs with hfull
  · exact ⟨_, w, rfl, .refl w⟩
  · have hspace : (addBoundary t.boundary false).length ≤ w.remaining := by
      rw [length_addBoundary]
      exact Nat.le_of_not_gt fun h => hfull (.inr h)
    obtain ⟨w₁, hwr, happ⟩ := Window.write_spec hw hspace
    have hkept := happ.kept hw
    exact ⟨e, w₁, by simp [runState, copiedText, hwr], ⟨hkept.length, hkept.take⟩⟩

/-- `multipart_add_tuple_with_callback` never leaves the buffer. It appends the whole tuple, or it fails,
moves nothing and keeps the bytes before its position; if the tuple's parts can be had, it fails exactly
when the tuple does not fit, with `MCL_FAIL`. -/
theorem addTupleWithCallback_spec (t : Tuple) {w : Window} (hw : w.Fits) :
    ∃ code w', addTupleWithCallback t w = some (code, w') ∧
      ((∃ text, t.text = .ok text ∧ code = .ok () ∧ w.Appended w' text) ∨
        (∃ e, code = .error e ∧ w.Kept w' ∧ w'.position = w.position ∧ w'.remaining = w.remaining ∧
          ∀ text, t.text = .ok text → e = .fail ∧ w.remaining < text.length)) := by
  cases hsub : t.subBoundary with
  | error e =>
    -- without a sub boundary the first state copies the main boundary and stops
    have htext : ∀ text, t.text ≠ .ok text := by simp [Tuple.text, hsub, bind, Except.bind]
    obtain ⟨e', w', hrun, hkept⟩ := addTupleLoop_error t e multipartStates.tail hw
    have hstates : multipartStates = .openMainBoundary :: multipartStates.tail := rfl
    rw [← hstates] at hrun
    simp only [addTupleWithCallback, hsub, Except.map, hrun]
    exact ⟨_, _, rfl, .inr ⟨e', rfl, ⟨hkept.length, hkept.take⟩, rfl, rfl, fun text h => absurd h (htext text)⟩⟩
  | ok sub =>
    obtain ⟨code, w', hrun, h⟩ := addTupleLoop_spec hsub multipartStates (fun _ => rfl) hw
    rw [t.parts_eq_text hsub] at h
    simp only [addTupleWithCallback, hsub, Except.map, hrun]
    rcases h with ⟨text, htext, rfl, happ⟩ | ⟨e, rfl, hkept, hfail⟩
    · exact ⟨_, w', rfl, .inl ⟨text, htext, rfl, happ⟩⟩
    · exact ⟨_, _, rfl, .inr ⟨e, rfl, ⟨hkept.length, hkept.take⟩, rfl, rfl, hfail⟩⟩

theorem length_closeText (boundary : Boundary) : (closeText boundary).length = closeLength := by
  simp only [closeText, List.length_append, boundary.length_eq, closeLength]; omega

theorem close_spec (boundary : Boundary) {w : Window} (hw : w.Fits) :
    ∃ code w', close boundary w = some (code, w') ∧
      ((code = .ok () ∧ w.Appended w' (closeText boundary)) ∨
        (code = .error .fail ∧ w' = w ∧ w.remaining < closeLength)) := by
  unfold close
  split_ifs with h
  · obtain ⟨w', happ, hsp⟩ := Window.append_spec hw (by rwa [length_closeText boundary])
    exact ⟨_, w', by rw [happ]; rfl, .inl ⟨rfl, hsp⟩⟩
  · exact ⟨_, w, rfl, .inr ⟨rfl, rfl, by omega⟩⟩

/-- `MULTIPART_BASE_SIZE` (`multipart.c:35`) -/
def multipartBaseSize : Nat :=
  5 * boundarySign.length + 5 * boundaryLength + 3 * contentTypeKey.length +
    contentTypeMultipartRelated.length + boundaryKey.length + contentTypeMetaJson.length +
    12 * endline.length

theorem length_tupleText (boundary sub : Boundary) (json type payload : Bytes) :
    (tupleText boundary sub json type payload).length =
      multipartBaseSize + json.length + type.length + payload.length := by
  simp only [tupleText, tupleType, bodyPart, List.length_append, length_addBoundary, sub.length_eq]
  simp only [multipartBaseSize, boundaryLength, show boundarySign.length = 2 from rfl,
    show endline.length = 2 from rfl, show doubleEndline.length = 4 from rfl, Bool.false_eq_true, if_false,
    if_true]
  omega

/-! ## The errors of the encoder -/

theorem addText_error {text : Bytes} {w w' : Window} {e : McError}
    (h : addText text w = some (.error e, w')) : e = .fail := by
  unfold addText at h
  split_ifs at h
  · simp at h
  · simp only [Option.some.injEq, Prod.mk.injEq, Except.error.injEq] at h
    exact h.1.symm

theorem callbackLoop_error {c : PayloadCallback} {x : c.State} {w w' : Window} {e : McError}
    (h : callbackLoop c x w = some (.error e, w')) : e = .fail := by
  fun_induction callbackLoop c x w with
  | case1 x w happ => cases h
  | case2 x w w₁ happ hv ih => exact ih h
  | case3 x w w₁ happ hv hne =>
    simp only [Option.some.injEq, Prod.mk.injEq, Except.error.injEq] at h
    exact h.1.symm
  | case4 x w w₁ happ hv hne => simp at h

/-- An error of the encoder's own, or one that was handed to it. -/
def OwnError (t : Tuple) (e : McError) : Prop :=
  e = .fail ∨ t.metaJson = .error e ∨ t.payloadJson = .error e

theorem runState_error {t : Tuple} {code : Result Unit} {w w' : Window} {s : MultipartState} {e : McError}
    (h : runState t code w s = some (.error e, w')) : code = .error e ∨ OwnError t e := by
  cases s with
  | itemMetaJson =>
    simp only [runState, addItemMetaJson] at h
    cases hm : t.metaJson with
    | ok json => rw [hm] at h; exact .inr (.inl (addText_error h))
    | error e' =>
      simp only [hm, Option.some.injEq, Prod.mk.injEq, Except.error.injEq] at h
      exact .inr (.inr (.inl (by rw [hm, h.1])))
  | contentTypeValuePayload => exact .inr (.inl (addText_error h))
  | itemPayload =>
    simp only [runState, addItemPayload] at h
    cases hc : t.callback with
    | some c => rw [hc] at h; exact .inr (.inl (callbackLoop_error h))
    | none =>
      cases hp : t.payloadJson with
      | ok json => rw [hc, hp] at h; exact .inr (.inl (addText_error h))
      | error e' =>
        simp only [hc, hp, Option.some.injEq, Prod.mk.injEq, Except.error.injEq] at h
        exact .inr (.inr (.inr (by rw [hp, h.1])))
  | _ =>
    simp only [runState] at h
    cases hcopied : copiedText t _ with
    | none => rw [hcopied] at h; cases h
    | some bs =>
      simp only [hcopied, Option.map_eq_some_iff, Prod.mk.injEq] at h
      obtain ⟨_, _, hcode, _⟩ := h
      exact .inl hcode

theorem error_of_addTupleLoop {t : Tuple} {e : McError} {w' : Window} :
    ∀ {ss : List MultipartState} {code : Result Unit} {w : Window},
      addTupleLoop t ss code w = some (.error e, w') → code = .error e ∨ OwnError t e
  | [], code, w, h => by
    simp only [addTupleLoop, Option.some.injEq, Prod.mk.injEq] at h
    exact .inl h.1
  | s :: ss, code, w, h => by
    rw [addTupleLoop] at h
    split_ifs at h with hfull
    · simp only [Option.some.injEq, Prod.mk.injEq, Except.error.injEq] at h
      exact .inr (.inl h.1.symm)
    · match hrun : runState t code w s with
      | none => simp [hrun] at h
      | some (.error e', w₁) =>
        simp only [hrun, Option.some.injEq, Prod.mk.injEq, Except.error.injEq] at h
        obtain ⟨rfl, -⟩ := h
        exact runState_error hrun
      | some (.ok (), w₁) =>
        simp only [hrun] at h
        rcases error_of_addTupleLoop h with hcode | he
        · cases hcode
        · exact .inr he

theorem addTupleWithCallback_error {t : Tuple} {sub : Boundary} (hsub : t.subBoundary = .ok sub)
    {w w' : Window} {e : McError} (h : addTupleWithCallback t w = some (.error e, w')) : OwnError t e := by
  simp only [addTupleWithCallback, hsub, Except.map] at h
  match hrun : addTupleLoop t multipartStates (.ok ()) w with
  | none => simp [hrun] at h
  | some (.ok (), v) => simp [hrun] at h
  | some (.error e', v) =>
    simp only [hrun, Option.some.injEq, Prod.mk.injEq, Except.error.injEq] at h
    obtain ⟨rfl, -⟩ := h
    exact (error_of_addTupleLoop hrun).resolve_left (by simp)

end MindConnect
