import Mathlib.Data.List.Basic
import Mathlib.Data.List.Infix
import Mathlib.Algebra.Ring.Nat

/-!
# Reading data piece by piece

A reader chooses how much room it offers and is handed the next elements, as many as fit. `Cursor` is what
this comes to: a position that never leaves the data. A function with a state of its own that hands out
the same is related to it by `Simulates`, and its runs then hand out a prefix of the data.
-/

namespace ReadCursor

variable {α : Type}

/-! ## The cursor -/

/-- How much of the data has been handed out. -/
structure Cursor (data : List α) where
  offset : Nat
  le : offset ≤ data.length

namespace Cursor

variable {data : List α}

@[ext] theorem ext {c d : Cursor data} (h : c.offset = d.offset) : c = d := by
  cases c
  cases d
  simpa using h

def start : Cursor data := ⟨0, Nat.zero_le _⟩

def left (c : Cursor data) : Nat := data.length - c.offset

def rest (c : Cursor data) : List α := data.drop c.offset

def output (c : Cursor data) (room : Nat) : List α := c.rest.take room

def advance (c : Cursor data) (room : Nat) : Cursor data where
  offset := c.offset + min room c.left
  le := by
    have := c.le
    unfold left
    omega

@[simp] theorem offset_start : (start : Cursor data).offset = 0 := rfl

@[simp] theorem rest_start : (start : Cursor data).rest = data := rfl

@[simp] theorem length_rest (c : Cursor data) : c.rest.length = c.left := List.length_drop

@[simp] theorem length_output (c : Cursor data) (room : Nat) : (c.output room).length = min room c.left := by
  simp [output]

@[simp] theorem offset_advance (c : Cursor data) (room : Nat) :
    (c.advance room).offset = c.offset + min room c.left := rfl

theorem offset_add_left (c : Cursor data) : c.offset + c.left = data.length := Nat.add_sub_cancel' c.le

/-- Nothing is lost and nothing comes twice. -/
theorem output_append_rest (c : Cursor data) (room : Nat) : c.output room ++ (c.advance room).rest = c.rest := by
  have hrest : (c.advance room).rest = c.rest.drop room := by
    simp only [rest, offset_advance, List.drop_drop]
    rcases Nat.le_total room c.left with h | h
    · rw [Nat.min_eq_left h]
    · rw [Nat.min_eq_right h, c.offset_add_left, List.drop_length, List.drop_of_length_le]
      have := c.offset_add_left
      omega
  rw [hrest]
  exact List.take_append_drop room c.rest

/-- After a read for each of the rooms. -/
def final (c : Cursor data) (rooms : List Nat) : Cursor data := rooms.foldl advance c

@[simp] theorem final_nil (c : Cursor data) : c.final [] = c := rfl

@[simp] theorem final_cons (c : Cursor data) (room : Nat) (rooms : List Nat) :
    c.final (room :: rooms) = (c.advance room).final rooms := rfl

/-- What the reads hand out, one after the other. -/
def outputs (c : Cursor data) : List Nat → List (List α)
  | [] => []
  | room :: rooms => c.output room :: (c.advance room).outputs rooms

theorem outputs_append_rest (rooms : List Nat) (c : Cursor data) :
    (c.outputs rooms).flatten ++ (c.final rooms).rest = c.rest := by
  induction rooms generalizing c with
  | nil => rfl
  | cons room rooms ih =>
    rw [outputs, List.flatten_cons, List.append_assoc, final_cons, ih]
    exact c.output_append_rest room

/-- From the start the reads hand out what lies before the position they come to. -/
theorem outputs_start (rooms : List Nat) :
    ((start : Cursor data).outputs rooms).flatten = data.take (start.final rooms : Cursor data).offset := by
  have h := outputs_append_rest rooms (start : Cursor data)
  rw [rest_start] at h
  refine List.append_cancel_right (h.trans ?_)
  exact (List.take_append_drop _ _).symm

/-- The position the reads come to depends on all the room there was, not on how it was cut. -/
theorem offset_final (rooms : List Nat) (c : Cursor data) :
    (c.final rooms).offset = min (c.offset + rooms.sum) data.length := by
  induction rooms generalizing c with
  | nil =>
    have := c.le
    simp only [final_nil, List.sum_nil]
    omega
  | cons room rooms ih =>
    have := c.offset_add_left
    rw [final_cons, ih, offset_advance, List.sum_cons]
    omega

end Cursor

/-! ## A function that does the same -/

variable {σ κ β : Type}

/-- The calls one after the other, none if one of them has no outcome. -/
def run (call : κ → σ → Option (β × σ)) : List κ → σ → Option (List β × σ)
  | [], s => some ([], s)
  | k :: ks, s => do
    let (b, s) ← call k s
    let (bs, s) ← run call ks s
    return (b :: bs, s)

/-- A state stands for a position, and a call with room for `room k` elements hands out the next ones. -/
def Simulates (call : κ → σ → Option (β × σ)) (room : κ → Nat) (output : β → List α) {data : List α}
    (stands : σ → Cursor data → Prop) : Prop :=
  ∀ k s c, stands s c →
    ∃ b s', call k s = some (b, s') ∧ output b = c.output (room k) ∧ stands s' (c.advance (room k))

theorem Simulates.run {call : κ → σ → Option (β × σ)} {room : κ → Nat} {output : β → List α} {data : List α}
    {stands : σ → Cursor data → Prop} (h : Simulates call room output stands) (ks : List κ) {s : σ}
    {c : Cursor data} (hs : stands s c) :
    ∃ bs s', ReadCursor.run call ks s = some (bs, s') ∧ bs.map output = c.outputs (ks.map room) ∧
      stands s' (c.final (ks.map room)) := by
  induction ks generalizing s c with
  | nil => exact ⟨[], s, rfl, rfl, hs⟩
  | cons k ks ih =>
    obtain ⟨b, t, hcall, hout, ht⟩ := h k s c hs
    obtain ⟨bs, s', hrun, houts, hs'⟩ := ih ht
    refine ⟨b :: bs, s', ?_, ?_, hs'⟩
    · simp [ReadCursor.run, hcall, hrun]
    · rw [List.map_cons, List.map_cons, Cursor.outputs, hout, houts]

end ReadCursor
