import Mathlib.Data.List.Basic
import Mathlib.Data.List.Forall2

/-!
# A sequence with one cursor

The cursor is a position of the sequence, or past the end. `next` hands out the position under the
cursor and moves on; past the end it fails and returns to the first element. The two loops a client
writes over such a list are `whileNext` (until `next` fails) and `forNext` (a fixed number of times,
each step keeping, rewriting or removing the element just handed out).

`whileNext_reset`, `forNext_reset` and `forEach_reset` are the rules the clients use: the loops, started
by `reset`, visit every element exactly once, in order, wherever the cursor was left before.
-/

universe u v w

/-- A sequence and the position of its cursor; `cursor = seq.length` is past the end. -/
structure CursorList (α : Type u) where
  seq : List α
  cursor : Nat
  cursor_le : cursor ≤ seq.length
deriving DecidableEq, Repr

namespace CursorList

variable {α : Type u} {σ : Type v} {ε : Type w}

/-! ## Operations -/

def empty : CursorList α := ⟨[], 0, Nat.le_refl 0⟩

def ofList (xs : List α) : CursorList α := ⟨xs, 0, Nat.zero_le _⟩

def count (l : CursorList α) : Nat := l.seq.length

def reset (l : CursorList α) : CursorList α := ⟨l.seq, 0, Nat.zero_le _⟩

/-- Hand out the position under the cursor and advance; past the end, fail and go to the first. -/
def next (l : CursorList α) : Option Nat × CursorList α :=
  if h : l.cursor < l.seq.length then (some l.cursor, ⟨l.seq, l.cursor + 1, h⟩) else (none, l.reset)

/-- Append. The cursor moves only if it was past the end of a non-empty list, where it stays past
the end; on the empty list it comes to stand on the new element. -/
def add (l : CursorList α) (x : α) : CursorList α :=
  if l.seq ≠ [] ∧ l.cursor = l.seq.length then ⟨l.seq ++ [x], l.seq.length + 1, by simp⟩
  else ⟨l.seq ++ [x], l.cursor, by have := l.cursor_le; simp; omega⟩

/-- Overwrite the element at a position. -/
def set (l : CursorList α) (i : Nat) (x : α) : CursorList α :=
  ⟨l.seq.set i x, l.cursor, by simpa using l.cursor_le⟩

/-- Delete the element at a position; a cursor standing on it comes to stand on its successor. -/
def remove (l : CursorList α) (i : Nat) : CursorList α :=
  if h : i < l.cursor then ⟨l.seq.eraseIdx i, l.cursor - 1, by
      have := l.cursor_le; rw [List.length_eraseIdx_of_lt (by omega)]; omega⟩
  else if hi : i < l.seq.length then
    ⟨l.seq.eraseIdx i, l.cursor, by rw [List.length_eraseIdx_of_lt hi]; omega⟩
  else l

@[simp] theorem seq_reset (l : CursorList α) : l.reset.seq = l.seq := rfl
@[simp] theorem reset_reset (l : CursorList α) : l.reset.reset = l.reset := rfl
@[simp] theorem seq_empty : (empty : CursorList α).seq = [] := rfl
@[simp] theorem seq_ofList (xs : List α) : (ofList xs).seq = xs := rfl
@[simp] theorem seq_set (l : CursorList α) (i : Nat) (x : α) : (l.set i x).seq = l.seq.set i x := rfl

@[simp] theorem seq_add (l : CursorList α) (x : α) : (l.add x).seq = l.seq ++ [x] := by
  unfold add; split <;> rfl

theorem seq_remove (l : CursorList α) (i : Nat) : (l.remove i).seq = l.seq.eraseIdx i := by
  unfold remove
  split_ifs with h hi
  · rfl
  · rfl
  · rw [List.eraseIdx_of_length_le (by omega)]

theorem seq_remove_eq {l : CursorList α} {xs ys : List α} {x : α} (h : l.seq = xs ++ x :: ys) :
    (l.remove xs.length).seq = xs ++ ys := by
  rw [seq_remove, h, List.eraseIdx_append_of_length_le (Nat.le_refl _)]
  simp

theorem cursor_remove (l : CursorList α) (i : Nat) :
    (l.remove i).cursor = if i < l.cursor then l.cursor - 1 else l.cursor := by
  unfold remove
  split_ifs <;> rfl

/-- The list with elements `pre` behind the cursor and `suf` ahead of it. -/
def split (pre suf : List α) : CursorList α := ⟨pre ++ suf, pre.length, by simp⟩

@[simp] theorem seq_split (pre suf : List α) : (split pre suf).seq = pre ++ suf := rfl

theorem reset_eq_split (l : CursorList α) : l.reset = split [] l.seq := rfl

theorem next_split_nil (pre : List α) : (split pre []).next = (none, split [] pre) := by
  simp [next, split, reset]

theorem next_split_cons (pre suf : List α) (x : α) :
    (split pre (x :: suf)).next = (some pre.length, split (pre ++ [x]) suf) := by
  simp [next, split]

theorem set_split (pre suf : List α) (x y : α) :
    (split (pre ++ [x]) suf).set pre.length y = split (pre ++ [y]) suf := by
  simp [set, split]

theorem remove_split (pre suf : List α) (x : α) :
    (split (pre ++ [x]) suf).remove pre.length = split pre suf := by
  simp only [remove, split, List.length_append, List.length_singleton, Nat.lt_add_one, ↓reduceDIte,
    Nat.add_sub_cancel, List.append_assoc, List.singleton_append, mk.injEq, and_true]
  rw [List.eraseIdx_append_of_length_le (Nat.le_refl _)]
  simp

/-! ## `while (next succeeds)` -/

/-- One pass over a list, threading a state and rewriting each element. -/
def sweep (f : σ → α → σ × α) : σ → List α → σ × List α
  | s, [] => (s, [])
  | s, x :: xs =>
    let (s', y) := f s x
    let (s'', ys) := sweep f s' xs
    (s'', y :: ys)

/-- `sweep` with a rewriting that does not depend on the state. -/
theorem sweep_snd_eq_map {f : σ → α → σ × α} {g : α → α} (h : ∀ s x, (f s x).2 = g x) (s : σ)
    (xs : List α) : (sweep f s xs).2 = xs.map g := by
  induction xs generalizing s with
  | nil => rfl
  | cons x xs ih => simp only [sweep, List.map_cons, h, ih]

theorem sweep_forall₂ {f : σ → α → σ × α} {R : α → α → Prop} (h : ∀ s x, R x (f s x).2) (s : σ)
    (xs : List α) : List.Forall₂ R xs (sweep f s xs).2 := by
  induction xs generalizing s with
  | nil => exact .nil
  | cons x xs ih => exact .cons (h s x) (ih _)

/-- `while (next(list, &node)) { … }` with a body that reads and rewrites the node's data. -/
def whileNext (f : σ → α → σ × α) (s : σ) (l : CursorList α) : σ × CursorList α :=
  if h : l.cursor < l.seq.length then
    let r := f s l.seq[l.cursor]
    whileNext f r.1 (l.next.2.set l.cursor r.2)
  else (s, l.next.2)
termination_by l.seq.length - l.cursor
decreasing_by simp [next, h, set]; omega

theorem whileNext_split (f : σ → α → σ × α) (s : σ) (pre suf : List α) :
    whileNext f s (split pre suf) =
      ((sweep f s suf).1, split [] (pre ++ (sweep f s suf).2)) := by
  induction suf generalizing s pre with
  | nil => rw [whileNext]; simp [sweep, split, next, reset]
  | cons x suf ih =>
    have hlt : (split pre (x :: suf)).cursor < (split pre (x :: suf)).seq.length := by simp [split]
    have hx : (split pre (x :: suf)).seq[(split pre (x :: suf)).cursor] = x := by simp [split]
    rw [whileNext, dif_pos hlt]
    simp only [hx]
    rw [next_split_cons]
    show whileNext f _ ((split (pre ++ [x]) suf).set pre.length _) = _
    rw [set_split, ih]
    simp [sweep]

/-- A `while` loop started by `reset` sweeps the whole list and leaves the cursor on the first. -/
theorem whileNext_reset (f : σ → α → σ × α) (s : σ) (l : CursorList α) :
    whileNext f s l.reset = ((sweep f s l.seq).1, ofList (sweep f s l.seq).2) := by
  rw [reset_eq_split, whileNext_split]; rfl

/-! ## `while (next succeeds) { if (p) break; }` -/

/-- The position of the first element from the cursor on that satisfies `p`; the cursor is left
behind it, or on the first element if there is none. -/
def findNext (p : α → Bool) (l : CursorList α) : Option Nat × CursorList α :=
  if h : l.cursor < l.seq.length then
    if p l.seq[l.cursor] then (some l.cursor, l.next.2) else findNext p l.next.2
  else (none, l.next.2)
termination_by l.seq.length - l.cursor
decreasing_by simp [next, h]; omega

theorem findNext_nil (p : α → Bool) (pre : List α) :
    findNext p (split pre []) = (none, split [] pre) := by
  rw [findNext, dif_neg (by simp [split]), next_split_nil]

theorem findNext_cons_pos (p : α → Bool) (pre suf : List α) (x : α) (h : p x = true) :
    findNext p (split pre (x :: suf)) = (some pre.length, split (pre ++ [x]) suf) := by
  rw [findNext, dif_pos (by simp [split]), next_split_cons]
  simp [split, h]

theorem findNext_cons_neg (p : α → Bool) (pre suf : List α) (x : α) (h : p x = false) :
    findNext p (split pre (x :: suf)) = findNext p (split (pre ++ [x]) suf) := by
  rw [findNext, dif_pos (by simp [split]), next_split_cons]
  simp [split, h]

theorem findNext_split (p : α → Bool) (pre suf : List α) :
    (suf.find? p = none → (findNext p (split pre suf)).1 = none) ∧
      ∀ x, suf.find? p = some x → ∃ i, (findNext p (split pre suf)).1 = some i ∧ (pre ++ suf)[i]? = some x := by
  induction suf generalizing pre with
  | nil =>
    rw [findNext_nil]
    exact ⟨fun _ => rfl, fun x h => by simp at h⟩
  | cons y suf ih =>
    cases hp : p y with
    | true =>
      rw [findNext_cons_pos p pre suf y hp, List.find?_cons_of_pos hp]
      refine ⟨(fun h => by cases h), ?_⟩
      rintro x ⟨⟩
      exact ⟨pre.length, rfl, by simp⟩
    | false =>
      rw [findNext_cons_neg p pre suf y hp, List.find?_cons_of_neg (by simp [hp])]
      simpa using ih (pre ++ [y])

/-- A search started by `reset` stops at the first element that satisfies `p`. -/
theorem findNext_reset (p : α → Bool) (l : CursorList α) :
    (l.seq.find? p = none → (findNext p l.reset).1 = none) ∧
      ∀ x, l.seq.find? p = some x → ∃ i, (findNext p l.reset).1 = some i ∧ l.seq[i]? = some x :=
  findNext_split p [] l.seq

theorem seq_findNext (p : α → Bool) (l : CursorList α) : (findNext p l).2.seq = l.seq := by
  fun_induction findNext p l with
  | case1 l h hp => simp [next, h]
  | case2 l h hp ih => rw [ih]; simp [next, h]
  | case3 l h => simp [next, h]

theorem cursor_lt_of_findNext {p : α → Bool} {l : CursorList α} {i : Nat}
    (h : (findNext p l).1 = some i) : l.cursor < (findNext p l).2.cursor := by
  fun_induction findNext p l with
  | case1 l hl hp => simp [next, hl]
  | case2 l hl hp ih =>
    have := ih h
    simp only [next, hl, ↓reduceDIte] at this ⊢
    omega
  | case3 l hl => cases h

/-- One pass that may get stuck, threading a state and rewriting each element. -/
def sweepM (f : σ → α → Option (σ × α)) : σ → List α → Option (σ × List α)
  | s, [] => some (s, [])
  | s, x :: xs => do
    let (s', y) ← f s x
    let (s'', ys) ← sweepM f s' xs
    return (s'', y :: ys)

/-- `for (;;) { find the next p; if (none) break; … }` with a body that rewrites the node found. -/
def whileFind (p : α → Bool) (f : σ → α → Option (σ × α)) (s : σ) (l : CursorList α) :
    Option (σ × CursorList α) :=
  match _h : (findNext p l).1 with
  | none => some (s, (findNext p l).2)
  | some i =>
    match (findNext p l).2.seq[i]? with
    | none => none
    | some x =>
      match f s x with
      | none => none
      | some (s', y) => whileFind p f s' ((findNext p l).2.set i y)
termination_by l.seq.length - l.cursor
decreasing_by
  have hlt := cursor_lt_of_findNext _h
  have hle := (findNext p l).2.cursor_le
  rw [seq_findNext] at hle
  simp only [set, List.length_set, seq_findNext]
  omega

theorem whileFind_eq (p : α → Bool) (f : σ → α → Option (σ × α)) (s : σ) (l : CursorList α) :
    whileFind p f s l =
      match findNext p l with
      | (none, l') => some (s, l')
      | (some i, l') =>
        l'.seq[i]?.bind fun x => (f s x).bind fun r => whileFind p f r.1 (l'.set i r.2) := by
  rw [whileFind]
  rcases findNext p l with ⟨_ | i, l'⟩
  · rfl
  · simp only
    cases l'.seq[i]? with
    | none => rfl
    | some x => cases hf : f s x <;> simp [hf]

theorem whileFind_split (p : α → Bool) (f : σ → α → Option (σ × α)) (s : σ) (pre suf : List α) :
    whileFind p f s (split pre suf) =
      (sweepM (fun s x => if p x then f s x else some (s, x)) s suf).map
        fun r => (r.1, split [] (pre ++ r.2)) := by
  induction suf generalizing s pre with
  | nil => rw [whileFind_eq, findNext_nil]; simp [sweepM]
  | cons x suf ih =>
    cases hp : p x with
    | false =>
      rw [whileFind_eq, findNext_cons_neg p pre suf x hp, ← whileFind_eq, ih]
      simp only [sweepM, hp, Bool.false_eq_true, if_false, Option.bind_eq_bind, Option.bind_some]
      cases sweepM (fun s x => if p x then f s x else some (s, x)) s suf <;> simp
    | true =>
      have hx : (split (pre ++ [x]) suf).seq[pre.length]? = some x := by simp [split]
      rw [whileFind_eq, findNext_cons_pos p pre suf x hp]
      simp only [hx, sweepM, hp, if_true, Option.bind_some, Option.bind_eq_bind]
      cases f s x with
      | none => rfl
      | some r =>
        simp only [Option.bind_some, set_split, ih]
        cases sweepM (fun s x => if p x then f s x else some (s, x)) r.1 suf <;> simp

theorem whileFind_reset (p : α → Bool) (f : σ → α → Option (σ × α)) (s : σ) (l : CursorList α) :
    whileFind p f s l.reset =
      (sweepM (fun s x => if p x then f s x else some (s, x)) s l.seq).map fun r => (r.1, ofList r.2) := by
  rw [reset_eq_split, whileFind_split]; rfl

/-! ## `for (i = 0; i < n; ++i) { next; … }` -/

/-- One pass that may also drop elements: `some y` writes `y` back, `none` drops. -/
def sift (f : σ → α → σ × Option α) : σ → List α → σ × List α
  | s, [] => (s, [])
  | s, x :: xs =>
    let (s', o) := f s x
    let (s'', ys) := sift f s' xs
    (s'', o.toList ++ ys)

/-- `n` times: take the next node and rewrite or remove it. `none` is the use of a null node, which
the client's code does not guard against. -/
def forNext (f : σ → α → σ × Option α) : Nat → σ → CursorList α → Option (σ × CursorList α)
  | 0, s, l => some (s, l)
  | n + 1, s, l =>
    match l.next with
    | (none, _) => none
    | (some i, l') =>
      match l'.seq[i]? with
      | none => none
      | some x =>
        match f s x with
        | (s', some y) => forNext f n s' (l'.set i y)
        | (s', none) => forNext f n s' (l'.remove i)

theorem forNext_split (f : σ → α → σ × Option α) (s : σ) (pre suf : List α) :
    forNext f suf.length s (split pre suf) =
      some ((sift f s suf).1, split (pre ++ (sift f s suf).2) []) := by
  induction suf generalizing s pre with
  | nil => simp [forNext, sift]
  | cons x suf ih =>
    have hx : (split (pre ++ [x]) suf).seq[pre.length]? = some x := by simp [split]
    simp only [List.length_cons, forNext, next_split_cons, hx, sift]
    match hf : f s x with
    | (s', some y) => simp only [set_split, ih]; simp
    | (s', none) => simp only [remove_split, ih]; simp

/-- A counted loop started by `reset` visits every element exactly once, removals included, and
never meets a null node. -/
theorem forNext_reset (f : σ → α → σ × Option α) (s : σ) (l : CursorList α) :
    forNext f l.count s l.reset = some ((sift f s l.seq).1, split (sift f s l.seq).2 []) := by
  rw [reset_eq_split, count, forNext_split]; rfl

/-! ## `for (i = 0; i < n && ok; ++i) { next; … }` -/

/-- `n` times: take the next node and read it, up to the first error. `onNull` is the error of `next`. -/
def forEach (step : σ → α → Except ε σ) (onNull : ε) : Nat → σ → CursorList α → Except ε σ
  | 0, s, _ => .ok s
  | n + 1, s, l =>
    match l.next with
    | (none, _) => .error onNull
    | (some i, l') =>
      match l'.seq[i]? with
      | none => .error onNull
      | some x => step s x >>= fun s' => forEach step onNull n s' l'

theorem forEach_split (step : σ → α → Except ε σ) (onNull : ε) (s : σ) (pre suf : List α) :
    forEach step onNull suf.length s (split pre suf) = suf.foldlM step s := by
  induction suf generalizing s pre with
  | nil => rfl
  | cons x suf ih =>
    have hx : (split (pre ++ [x]) suf).seq[pre.length]? = some x := by simp [split]
    simp only [List.length_cons, forEach, next_split_cons, hx, List.foldlM_cons, ih]

theorem forEach_reset (step : σ → α → Except ε σ) (onNull : ε) (s : σ) (l : CursorList α) :
    forEach step onNull l.count s l.reset = l.seq.foldlM step s := by
  rw [reset_eq_split, count, forEach_split]

end CursorList
