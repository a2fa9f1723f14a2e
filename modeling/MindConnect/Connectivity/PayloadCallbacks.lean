import MindConnect.Connectivity.Store
import MindConnect.Core.LibcurlCallbacks
import MindConnect.Core.LibcurlSend
import MindConnect.Lib.ReadCursor
import Mathlib.Algebra.Ring.Nat

/-!
# The callbacks that hand out a payload

| here | there |
| --- | --- |
| `ReadCall` | the buffer that the caller offers, with `size` and `count` |
| `Answer` | the buffer after the call and the size the callback gives back |
| `copyInto` | `string_util_memcpy(buffer, source + offset, n)`; none if it leaves a block |
| `requestPayloadCallbackForPut` | `_request_payload_callback_for_put` (`http_client_libcurl.c:568`) |
| `customDataPayloadCallback` | `_custom_data_payload_callback` (`connectivity_processor.c:640`) |

Sizes have `w` bits, and the remaining size is a difference of two of them. That it never wraps is the invariant of a
run: the offset stays in the payload, it is the position of a `ReadCursor.Cursor`.
-/

namespace MindConnect.PayloadCallbacks

open Libcurl (Address HttpRequest sizeSub sizeSub_of_le)
open ReadCursor (Cursor Simulates)

/-! ## The code -/

def sizeAdd (w a b : Nat) : Nat := (.ofNat w a + .ofNat w b : BitVec w).toNat

def sizeMul (w a b : Nat) : Nat := (.ofNat w a * .ofNat w b : BitVec w).toNat

/-- The caller has room for `size * count` bytes, which is a size. -/
structure ReadCall (w : Nat) where
  buffer : Bytes
  size : Nat
  count : Nat
  product_lt : size * count < 2 ^ w
  fits : size * count ≤ buffer.length

def ReadCall.room {w : Nat} (k : ReadCall w) : Nat := k.size * k.count

structure Answer where
  buffer : Bytes
  size : Nat
deriving DecidableEq, Repr

/-- What the caller takes out of its buffer. -/
def Answer.output (a : Answer) : Bytes := a.buffer.take a.size

def copyInto (buffer source : Bytes) (offset n : Nat) : Option Bytes :=
  if offset + n ≤ source.length then Bytes.write buffer 0 ((source.drop offset).take n) else none

/-- The block behind an address; null has none. -/
def blockAt (memory : Address → Bytes) : Option Address → Bytes
  | none => []
  | some address => memory address

def requestPayloadCallbackForPut (w : Nat) (memory : Address → Bytes) (k : ReadCall w)
    (context : HttpRequest × Nat) : Option (Answer × (HttpRequest × Nat)) := do
  let bufferSize := sizeMul w k.size k.count
  let remainingSize := sizeSub w context.1.payloadSize context.2
  let payloadSize := if bufferSize > remainingSize then remainingSize else bufferSize
  let buffer ←
    if payloadSize = 0 then some k.buffer
    else copyInto k.buffer (blockAt memory context.1.payload) context.2 payloadSize
  return (⟨buffer, payloadSize⟩, (context.1, sizeAdd w context.2 payloadSize))

/-- `custom_data_callback_user_context` -/
structure CustomDataContext where
  customData : CustomData
  offset : Nat

def customDataPayloadCallback (w : Nat) (k : ReadCall w) (context : CustomDataContext) :
    Option (Answer × CustomDataContext) :=
  let remainingSize := sizeSub w context.customData.size context.offset
  let writeSize := if remainingSize < sizeMul w k.size k.count then remainingSize else sizeMul w k.size k.count
  if writeSize ≠ 0 then do
    let buffer ← copyInto k.buffer (context.customData.buffer.getD []) context.offset writeSize
    return (⟨buffer, writeSize⟩, { context with offset := sizeAdd w context.offset writeSize })
  else some (⟨k.buffer, writeSize⟩, context)

/-! ## What a callback is for -/

/-- Whatever calls have been made, the outputs are the payload up to the offset, which is as far as the room went, and
the remaining size is what is left. The next call hands out as much of this as it has room for and leaves the buffer
behind it alone. -/
def Partitions (w : Nat) {σ : Type} (callback : ReadCall w → σ → Option (Answer × σ)) (offset : σ → Nat)
    (initial : σ) (payload : Bytes) : Prop :=
  ∀ calls, ∃ answers s, ReadCursor.run callback calls initial = some (answers, s) ∧
    (answers.map Answer.output).flatten = payload.take (offset s) ∧
    offset s = min (calls.map ReadCall.room).sum payload.length ∧
    offset s ≤ payload.length ∧
    sizeSub w payload.length (offset s) + offset s = payload.length ∧
    ∀ k, ∃ a s', callback k s = some (a, s') ∧
      a.size = min k.room (payload.length - offset s) ∧
      (offset s = payload.length → a.size = 0) ∧
      offset s' = offset s + a.size ∧
      a.buffer.drop a.size = k.buffer.drop a.size

/-! ## Sizes and copies -/

variable {w : Nat}

theorem sizeAdd_of_lt {a b : Nat} (h : a + b < 2 ^ w) : sizeAdd w a b = a + b := by
  rw [sizeAdd, ← BitVec.ofNat_add, BitVec.toNat_ofNat, Nat.mod_eq_of_lt h]

theorem sizeMul_room (k : ReadCall w) : sizeMul w k.size k.count = k.room := by
  rw [sizeMul, ← BitVec.ofNat_mul, BitVec.toNat_ofNat, Nat.mod_eq_of_lt k.product_lt, ReadCall.room]

theorem copyInto_eq {buffer source : Bytes} {offset n : Nat} (hsource : offset + n ≤ source.length)
    (hbuffer : n ≤ buffer.length) :
    copyInto buffer source offset n = some ((source.drop offset).take n ++ buffer.drop n) := by
  have hlength : ((source.drop offset).take n).length = n := by
    rw [List.length_take, List.length_drop]
    omega
  rw [copyInto, if_pos hsource, Bytes.write_eq_some (by omega), hlength, List.take_zero, List.nil_append, Nat.zero_add]

/-! ## One call -/

section
variable {payload : Bytes}

/-- What a call answers at a position of the payload. -/
def answerAt (c : Cursor payload) (k : ReadCall w) : Answer :=
  ⟨c.output k.room ++ k.buffer.drop (min k.room c.left), min k.room c.left⟩

theorem output_answerAt (c : Cursor payload) (k : ReadCall w) : (answerAt c k).output = c.output k.room := by
  have hlength : (c.output k.room).length = min k.room c.left := c.length_output k.room
  simp only [Answer.output, answerAt]
  rw [← hlength, List.take_left]

theorem drop_answerAt (c : Cursor payload) (k : ReadCall w) :
    (answerAt c k).buffer.drop (answerAt c k).size = k.buffer.drop (answerAt c k).size := by
  have hlength : (c.output k.room).length = min k.room c.left := c.length_output k.room
  simp only [answerAt]
  rw [← hlength, List.drop_left]

theorem output_of_none (c : Cursor payload) (k : ReadCall w) (h : min k.room c.left = 0) :
    answerAt c k = ⟨k.buffer, min k.room c.left⟩ := by
  have hnil : c.output k.room = [] := List.eq_nil_of_length_eq_zero ((c.length_output k.room).trans h)
  rw [answerAt, hnil, h, List.nil_append, List.drop_zero]

end

/-! ## A payload at the start of its block -/

section
variable {source : Bytes} {size : Nat} (hreadable : size ≤ source.length) (c : Cursor (source.take size))
include hreadable

theorem offset_add_left : c.offset + c.left = size := by
  rw [c.offset_add_left, List.length_take, Nat.min_eq_left hreadable]

/-- The remaining size does not wrap. -/
theorem sizeSub_offset (hsize : size < 2 ^ w) : sizeSub w size c.offset = c.left := by
  have hleft := offset_add_left hreadable c
  rw [sizeSub_of_le hsize (by omega)]
  omega

theorem sizeAdd_offset (hsize : size < 2 ^ w) (room : Nat) :
    sizeAdd w c.offset (min room c.left) = (c.advance room).offset := by
  have hleft := offset_add_left hreadable c
  exact sizeAdd_of_lt (by omega)

/-- The part of the block behind the payload is never copied. -/
theorem copyInto_cursor (k : ReadCall w) :
    copyInto k.buffer source c.offset (min k.room c.left) =
      some (c.output k.room ++ k.buffer.drop (min k.room c.left)) := by
  have hleft := offset_add_left hreadable c
  have hroom : k.room ≤ k.buffer.length := k.fits
  have hout : (source.drop c.offset).take (min k.room c.left) = c.output k.room := by
    rw [Cursor.output, Cursor.rest, List.drop_take, List.take_take]
    congr 1
    omega
  rw [copyInto_eq (by omega) (by omega), hout]

end

theorem requestPayloadCallbackForPut_eq {memory : Address → Bytes} {r : HttpRequest}
    (hsize : r.payloadSize < 2 ^ w) (hreadable : r.payloadSize ≤ (blockAt memory r.payload).length)
    (c : Cursor ((blockAt memory r.payload).take r.payloadSize)) (k : ReadCall w) :
    requestPayloadCallbackForPut w memory k (r, c.offset) =
      some (answerAt c k, (r, (c.advance k.room).offset)) := by
  have hmin : (if k.room > c.left then c.left else k.room) = min k.room c.left := by
    split <;> omega
  simp only [requestPayloadCallbackForPut, sizeMul_room, sizeSub_offset hreadable c hsize, hmin,
    sizeAdd_offset hreadable c hsize, copyInto_cursor hreadable]
  by_cases hn : min k.room c.left = 0
  · rw [if_pos hn, output_of_none c k hn]
    rfl
  · rw [if_neg hn]
    rfl

theorem customDataPayloadCallback_eq {customData : CustomData} {buffer : Bytes}
    (hsize : customData.size < 2 ^ w) (hbuffer : customData.buffer = some buffer)
    (c : Cursor (buffer.take customData.size)) (k : ReadCall w) :
    customDataPayloadCallback w k ⟨customData, c.offset⟩ =
      some (answerAt c k, ⟨customData, (c.advance k.room).offset⟩) := by
  have hreadable := customData.readable buffer hbuffer
  have hmin : (if c.left < k.room then c.left else k.room) = min k.room c.left := by
    split <;> omega
  simp only [customDataPayloadCallback, sizeMul_room, sizeSub_offset hreadable c hsize, hmin, hbuffer,
    Option.getD_some]
  by_cases hn : min k.room c.left = 0
  · -- the offset stays as it is, which is where the cursor goes too
    rw [if_neg (not_not.2 hn), output_of_none c k hn, Cursor.offset_advance, hn, Nat.add_zero]
  · rw [if_pos hn, copyInto_cursor hreadable, sizeAdd_offset hreadable c hsize]
    rfl

/-! ## Every run -/

/-- A callback that answers as a cursor does partitions the payload. -/
theorem partitions_of_eq {σ : Type} {payload : Bytes} {callback : ReadCall w → σ → Option (Answer × σ)}
    {offset : σ → Nat} (state : Nat → σ) (hoffset : ∀ n, offset (state n) = n) (hsize : payload.length < 2 ^ w)
    (hcall : ∀ (c : Cursor payload) k,
      callback k (state c.offset) = some (answerAt c k, state (c.advance k.room).offset)) :
    Partitions w callback offset (state 0) payload := by
  have hsimulates : Simulates callback ReadCall.room Answer.output
      fun s (c : Cursor payload) => s = state c.offset := by
    rintro k s c rfl
    exact ⟨answerAt c k, _, hcall c k, output_answerAt c k, rfl⟩
  intro calls
  obtain ⟨answers, s, hrun, houts, rfl⟩ := hsimulates.run calls (c := Cursor.start) rfl
  have hle := (Cursor.start.final (calls.map ReadCall.room) : Cursor payload).le
  refine ⟨answers, _, hrun, ?_, ?_, ?_, ?_, ?_⟩
  · rw [houts, hoffset, Cursor.outputs_start]
  · rw [hoffset, Cursor.offset_final, Cursor.offset_start, Nat.zero_add]
  · rw [hoffset]
    exact hle
  · rw [hoffset, sizeSub_of_le hsize hle]
    omega
  · intro k
    refine ⟨_, _, hcall _ k, ?_, ?_, ?_, ?_⟩
    · rw [hoffset]
      rfl
    · intro hend
      rw [hoffset] at hend
      simp only [answerAt, Cursor.left, hend]
      omega
    · rw [hoffset, hoffset]
      rfl
    · exact drop_answerAt _ k

theorem requestPayloadCallbackForPut_partitions {memory : Address → Bytes} {r : HttpRequest}
    (hsize : r.payloadSize < 2 ^ w) (hreadable : r.payloadSize ≤ (blockAt memory r.payload).length) :
    Partitions w (requestPayloadCallbackForPut w memory) Prod.snd (r, 0)
      ((blockAt memory r.payload).take r.payloadSize) := by
  refine partitions_of_eq (fun n => (r, n)) (fun _ => rfl) ?_
    (requestPayloadCallbackForPut_eq hsize hreadable)
  rw [List.length_take]
  omega

theorem customDataPayloadCallback_partitions {customData : CustomData} {buffer : Bytes}
    (hsize : customData.size < 2 ^ w) (hbuffer : customData.buffer = some buffer) :
    Partitions w (customDataPayloadCallback w) CustomDataContext.offset ⟨customData, 0⟩
      (buffer.take customData.size) := by
  refine partitions_of_eq (fun n => (⟨customData, n⟩ : CustomDataContext)) (fun _ => rfl) ?_
    (customDataPayloadCallback_eq hsize hbuffer)
  rw [List.length_take]
  omega

/-- The payload of an upload or of a custom data is partitioned by the calls, whatever room each of them has. -/
theorem payload_callbacks_partition (w : Nat) :
    (∀ (memory : Address → Bytes) (r : HttpRequest), r.payloadSize < 2 ^ w →
      r.payloadSize ≤ (blockAt memory r.payload).length →
      Partitions w (requestPayloadCallbackForPut w memory) Prod.snd (r, 0)
        ((blockAt memory r.payload).take r.payloadSize)) ∧
    (∀ (customData : CustomData) (buffer : Bytes), customData.size < 2 ^ w → customData.buffer = some buffer →
      Partitions w (customDataPayloadCallback w) CustomDataContext.offset ⟨customData, 0⟩
        (buffer.take customData.size)) :=
  ⟨fun _ _ => requestPayloadCallbackForPut_partitions, fun _ _ => customDataPayloadCallback_partitions⟩

def helloRequest : HttpRequest := ⟨[], some 1, 5, .put, none, none, none⟩

def helloData : CustomData where
  version := some (.lit "1.0")
  buffer := some (ascii "hello")
  contentType := some (.lit "text/plain")
  type := some (.lit "greeting")
  size := 5
  details := none
  readable := by
    intro b hb
    cases hb
    decide

theorem hello_partitioned :
    Partitions 64 (requestPayloadCallbackForPut 64 fun _ => ascii "hello") Prod.snd (helloRequest, 0)
        ((blockAt (fun _ => ascii "hello") helloRequest.payload).take helloRequest.payloadSize) ∧
      Partitions 64 (customDataPayloadCallback 64) CustomDataContext.offset ⟨helloData, 0⟩
        ((ascii "hello").take helloData.size) :=
  ⟨(payload_callbacks_partition 64).1 (fun _ => ascii "hello") helloRequest (by decide) (by decide),
    (payload_callbacks_partition 64).2 helloData (ascii "hello") (by decide) rfl⟩

/-! ## Where the callbacks are called -/

/-- libcurl starts an upload from memory with the whole payload to come. -/
theorem upload_partitions {before s : Libcurl.State} {call : Nat} {r : HttpRequest}
    (h : Libcurl.Current before s call r) (hmethod : r.method = .put ∨ r.method = .patch)
    (hstream : r.streamCallback = none) {memory : Address → Bytes} (hsize : r.payloadSize < 2 ^ w)
    (hreadable : r.payloadSize ≤ (blockAt memory r.payload).length) :
    ∃ context, s.context = some context ∧ s.handle.readFunction = .requestPayloadCallbackForPut ∧
      Partitions w (requestPayloadCallbackForPut w memory) Prod.snd context
        ((blockAt memory r.payload).take r.payloadSize) := by
  have hbody := h.body
  have hcontext : s.handle.readFunction = .requestPayloadCallbackForPut ∧ s.context = some (r, 0) := by
    rcases hmethod with hmethod | hmethod <;>
      · simp only [Libcurl.BodyIs, hmethod, hstream] at hbody
        exact ⟨hbody.2.1, hbody.2.2.2⟩
  exact ⟨(r, 0), hcontext.2, hcontext.1, requestPayloadCallbackForPut_partitions hsize hreadable⟩

/-- In a tuple the callback has what is left of the body as its room, and sizes are numbers there. -/
theorem tuple_callback_eq {customData : CustomData} {buffer : Bytes} (hsize : customData.size < 2 ^ w)
    (hbuffer : customData.buffer = some buffer) (x : {offset : Nat // offset ≤ customData.size}) (k : ReadCall w) :
    let callback := MindConnect.customDataPayloadCallback buffer customData.size (customData.readable buffer hbuffer)
    (customDataPayloadCallback w k ⟨customData, x.val⟩).map (fun p => (p.1.output, p.2.offset)) =
      some ((callback.call x k.room).1, (callback.call x k.room).2.val) := by
  have hreadable := customData.readable buffer hbuffer
  obtain ⟨offset, hoffset⟩ := x
  have hlength : (buffer.take customData.size).length = customData.size := List.length_take_of_le hreadable
  let c : Cursor (buffer.take customData.size) := ⟨offset, hoffset.trans_eq hlength.symm⟩
  have hleft : c.left = customData.size - offset := by
    rw [Cursor.left, hlength]
  have hcall := customDataPayloadCallback_eq hsize hbuffer c k
  have hout : c.output k.room = (buffer.drop offset).take (min (customData.size - offset) k.room) := by
    rw [Cursor.output, Cursor.rest, List.drop_take, List.take_take, Nat.min_comm]
  simp only [MindConnect.customDataPayloadCallback]
  rw [hcall, Option.map_some, output_answerAt, hout, Cursor.offset_advance, hleft, Nat.min_comm k.room]

end MindConnect.PayloadCallbacks
