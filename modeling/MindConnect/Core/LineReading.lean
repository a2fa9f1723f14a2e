import MindConnect.Core.ChunkedBody

/-!
# Reading a line: `receive_until_lf`

The loop of `http_client_basic.c:742` with its buffer. `receiveUntilLf` is what comes of it for the callers, the code and
the bytes; here each byte is written where the code writes it, and the terminator behind them.

| here | there |
| --- | --- |
| `lineLoop` | the loop; `size` is `*size`, which counts what is stored |
| `receiveUntilLfInto` | the whole function on a buffer, which has as many bytes as are announced |

A write outside the buffer has no outcome. The fuel is one more than the bytes that are to come, so it does not run out.
-/

namespace MindConnect.HttpClientBasic

open PartialIO

/-- The code, the buffer and `*size`. -/
def lineLoop (requestedSize : Nat) : Nat → Bytes → Nat → Receive (Result Unit × Bytes × Nat)
  | 0, _, _ => fun _ => none
  | fuel + 1, buffer, size => fun socket =>
    match receive 1 socket with
    | (.error e, socket) => some ((.error e, buffer, size), socket)
    | (.ok receivedChar, socket) =>
      match buffer.write size receivedChar with
      | none => none
      | some buffer =>
        if receivedChar = [10] then some ((.ok (), buffer, size + 1), socket)
        else if requestedSize - 1 = size + 1 then some ((.error .fail, buffer, size + 1), socket)
        else lineLoop requestedSize fuel buffer (size + 1) socket

def receiveUntilLfInto (buffer : Bytes) : Receive (Result Unit × Bytes × Nat) := fun socket => do
  let ((code, buffer, size), rest) ← lineLoop buffer.length (socket.rest.length + 1) buffer 0 socket
  match code with
  | .error e => return ((.error e, buffer, size), rest)
  | .ok () =>
    let buffer ← buffer.write size [0]
    return ((.ok (), buffer, size), rest)

/-! ## What the loop stores -/

/-- The buffer holds what it held up to `size`, and the line behind it. -/
structure Stored (before : Bytes) (size : Nat) (line : Bytes) (buffer : Bytes) : Prop where
  length : buffer.length = before.length
  text : buffer.take (size + line.length) = before.take size ++ line

theorem Stored.nil (buffer : Bytes) (size : Nat) : Stored buffer size [] buffer := ⟨rfl, by simp⟩

theorem Stored.cons {before between buffer line : Bytes} {size : Nat} {x : UInt8}
    (hwrite : before.write size [x] = some between) (h : Stored between (size + 1) line buffer) :
    Stored before size (x :: line) buffer := by
  refine ⟨h.length.trans (Bytes.length_of_write hwrite), ?_⟩
  have htext := h.text
  have hfirst : between.take (size + 1) = before.take size ++ [x] := Bytes.take_of_write hwrite
  rw [hfirst, List.append_assoc, List.singleton_append] at htext
  rw [List.length_cons, show size + (line.length + 1) = size + 1 + line.length by omega]
  exact htext

/-- The loop is `receiveUntil`, as long as there is room for one more byte and the terminator. -/
theorem lineLoop_eq {requestedSize : Nat} {fuel room size : Nat} {buffer : Bytes} {s : Source UInt8 McError}
    (hrequested : requestedSize = size + (room + 1) + 1) (hbuffer : buffer.length = requestedSize)
    (hfuel : s.rest.length < fuel) :
    ∃ buffer', lineLoop requestedSize fuel buffer size s =
        some (((receiveUntil (· == 10) .fail (room + 1) s).1.1, buffer',
          size + (receiveUntil (· == 10) .fail (room + 1) s).1.2.length),
          (receiveUntil (· == 10) .fail (room + 1) s).2) ∧
      Stored buffer size (receiveUntil (· == 10) McError.fail (room + 1) s).1.2 buffer' := by
  induction fuel generalizing room size buffer s with
  | zero => omega
  | succ fuel ih =>
    simp only [lineLoop]
    cases hs : s.rest with
    | nil =>
      simp only [receive_nil hs, receiveUntil_nil _ _ _ hs]
      exact ⟨buffer, rfl, .nil buffer size⟩
    | cons x xs =>
      have hwrite : buffer.write size [x] = some _ := Bytes.write_eq_some (by simp only [List.length_singleton]; omega)
      simp only [receive_one hs, receiveUntil_cons _ _ _ hs, hwrite, List.cons.injEq, and_true, beq_iff_eq]
      by_cases hx : x = 10
      · rw [if_pos hx, if_pos hx]
        exact ⟨_, rfl, .cons hwrite (.nil _ _)⟩
      · rw [if_neg hx, if_neg hx]
        cases room with
        | zero =>
          rw [if_pos (by omega)]
          exact ⟨_, rfl, .cons hwrite (.nil _ _)⟩
        | succ room =>
          have hlength := Bytes.length_of_write hwrite
          rw [hs, List.length_cons] at hfuel
          have hfuel' : (s.next xs).rest.length < fuel := by simpa [Source.next] using hfuel
          obtain ⟨buffer', hloop, hstored⟩ := @ih room (size + 1) _ (s.next xs) (by omega) (hlength.trans hbuffer) hfuel'
          rw [if_neg (by omega), hloop]
          refine ⟨buffer', ?_, .cons hwrite hstored⟩
          simp only [List.length_cons, Option.some.injEq, Prod.mk.injEq, and_true, true_and]
          omega

/-! ## The line -/

/-- What a call with `buffer` on the socket `s` comes to: a line if there is a line feed in the room that the terminator
leaves, and of the stream exactly that line is gone. -/
structure ReadsLine (buffer : Bytes) (s : Source UInt8 McError) (code : Result Unit) (buffer' : Bytes) (size : Nat)
    (s' : Source UInt8 McError) : Prop where
  length : buffer'.length = buffer.length
  ok_iff : code = .ok () ↔ (10 : UInt8) ∈ s.rest.take (buffer.length - 1)
  line : code = .ok () → ∃ line, PartialIO.IsLine (· == 10) line ∧ s.rest = line ++ s'.rest ∧
    size = line.length ∧ buffer'.take (size + 1) = line ++ [0]

/-- The callers' view: the code and the bytes in front of the terminator. -/
theorem receiveUntilLfInto_eq {buffer : Bytes} (hsize : 2 ≤ buffer.length) (s : Source UInt8 McError) :
    ∃ code buffer' line s', receiveUntilLf buffer.length s = some ((code, line), s') ∧
      receiveUntilLfInto buffer s = some ((code, buffer', line.length), s') ∧ buffer'.length = buffer.length ∧
      (code = .ok () → buffer'.take (line.length + 1) = line ++ [0]) := by
  obtain ⟨room, hroom⟩ : ∃ room, buffer.length = 0 + (room + 1) + 1 := ⟨buffer.length - 2, by omega⟩
  obtain ⟨buffer₁, hloop, hstored⟩ := lineLoop_eq hroom rfl (Nat.lt_succ_self s.rest.length)
  rw [receiveUntilLf_eq hsize, show buffer.length - 1 = room + 1 by omega]
  simp only [receiveUntilLfInto, hloop, bind, Option.bind, pure]
  -- what the loop leaves is the terminator's place
  have hline : (receiveUntil (· == 10) McError.fail (room + 1) s).1.1 = .ok () →
      (receiveUntil (· == 10) McError.fail (room + 1) s).1.2.length ≤ room + 1 :=
    fun hok => (isLine_of_receiveUntil (· == 10) McError.fail hok).2
  generalize receiveUntil (· == 10) McError.fail (room + 1) s = r at hstored hline ⊢
  obtain ⟨⟨code, line⟩, s'⟩ := r
  simp only [Nat.zero_add] at hline ⊢
  cases code with
  | error e => exact ⟨_, buffer₁, line, s', rfl, rfl, hstored.length, fun h => by cases h⟩
  | ok u =>
    have hroom' := hline rfl
    have hwrite : buffer₁.write line.length [0] = some _ :=
      Bytes.write_eq_some (by rw [hstored.length, List.length_singleton]; omega)
    have htext := hstored.text
    simp only [Nat.zero_add, List.take_zero, List.nil_append] at htext
    refine ⟨_, _, line, s', rfl, by rw [hwrite], (Bytes.length_of_write hwrite).trans hstored.length, fun _ => ?_⟩
    exact (Bytes.take_of_write hwrite).trans (by rw [htext])

/-- A line is read if and only if its feed is among the bytes that leave room for the terminator. -/
theorem receiveUntilLfInto_readsLine (buffer : Bytes) (hsize : 2 ≤ buffer.length) (s : Source UInt8 McError) :
    ∃ code buffer' size s', receiveUntilLfInto buffer s = some ((code, buffer', size), s') ∧
      ReadsLine buffer s code buffer' size s' := by
  obtain ⟨code, buffer', line, s', hcalled, hinto, hlength, hstored⟩ := receiveUntilLfInto_eq hsize s
  refine ⟨code, buffer', line.length, s', hinto, hlength, ?_, fun hok => ?_⟩
  · rw [receiveUntilLf_eq hsize] at hcalled
    obtain ⟨hanswer, -⟩ := Prod.mk.inj (Option.some.inj hcalled)
    have hiff := receiveUntil_ok_iff (· == 10) McError.fail (buffer.length - 1) s
    have hcode : (receiveUntil (· == 10) McError.fail (buffer.length - 1) s).1.1 = code := congrArg Prod.fst hanswer
    rw [hcode] at hiff
    simpa using hiff
  · subst hok
    obtain ⟨hisLine, hrest⟩ := receiveUntilLf_ok hcalled
    exact ⟨line, hisLine.1, hrest, rfl, hstored rfl⟩

/-- A line whose feed is the last byte that fits. -/
theorem shortLine_readsLine : ∃ code buffer' size s',
    receiveUntilLfInto [7, 7, 7] ⟨[65, 10, 66], fun _ => 0, .fail⟩ = some ((code, buffer', size), s') ∧
      ReadsLine [7, 7, 7] ⟨[65, 10, 66], fun _ => 0, .fail⟩ code buffer' size s' :=
  receiveUntilLfInto_readsLine [7, 7, 7] (by decide) ⟨[65, 10, 66], fun _ => 0, .fail⟩

end MindConnect.HttpClientBasic
