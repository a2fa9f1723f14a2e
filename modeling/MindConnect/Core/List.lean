import MindConnect.Core.Common
import MindConnect.Lib.CursorList
import MindConnect.Lib.LinkedHeap
import Mathlib.Algebra.Ring.Nat

/-!
# The linked list: `mcl_core/src/list.c`

| here | there |
| --- | --- |
| `MclList` | `mcl_list_t` (`mcl_list.h:38`) with the nodes it owns, by their addresses |
| `mclListInitialize`, `mclListAdd`, `mclListNext` | `mcl_list_initialize` (`list.c:13`), `_add` (`:34`), `_next` (`:76`) |
| `mclListRemove`, `mclListRemoveWithContent` | `mcl_list_remove` (`:117`), `_remove_with_content` (`:208`) |
| `mclListExist`, `mclListReset` | `mcl_list_exist` (`:239`), `mcl_list_reset` (`:276`) |

A null or dangling pointer that is dereferenced makes a call `none`. `mcl_size_t` has `w` bits. The
handle itself is not null.

Below the code stands what it implements: a `CursorList` of cells, each an address and its datum.
-/

namespace MindConnect

open LinkedHeap

variable {α : Type}

structure MclList (α : Type) where
  nodes : LinkedHeap α
  head : Option Nat
  last : Option Nat
  current : Option Nat
  count : Nat

/-- `a->next = v` -/
def storeNext (nodes : LinkedHeap α) (a : Nat) (v : Option Nat) : Option (LinkedHeap α) :=
  (nodes a).map fun node => Function.update nodes a (some { node with next := v })

/-- `a->prev = v` -/
def storePrev (nodes : LinkedHeap α) (a : Nat) (v : Option Nat) : Option (LinkedHeap α) :=
  (nodes a).map fun node => Function.update nodes a (some { node with prev := v })

def mclListInitialize (allocated : Bool) : Result (MclList α) :=
  if allocated then .ok ⟨fun _ => none, none, none, none, 0⟩ else .error .outOfMemory

/-- `newNode` is what `MCL_NEW` comes to. -/
def mclListAdd (w : Nat) (newNode : Option Nat) (list : MclList α) (data : Option α) :
    Option (Result Unit × MclList α) :=
  match data with
  | none => some (.error .triggeredWithNull, list)
  | some data =>
    if list.count < 2 ^ w - 1 then
      match newNode with
      | none => some (.error .outOfMemory, list)
      | some newNode =>
        let nodes := Function.update list.nodes newNode (some ⟨data, list.last, none⟩)
        if list.count = 0 then
          some (.ok (), ⟨nodes, some newNode, some newNode, some newNode, list.count + 1⟩)
        else do
          let last ← list.last
          let nodes ← storeNext nodes last (some newNode)
          return (.ok (), { list with nodes, last := some newNode, count := list.count + 1 })
    else some (.error .limitExceeded, list)

def mclListNext (list : MclList α) : Option (Result Nat × MclList α) :=
  match list.current with
  | none => some (.error .fail, { list with current := list.head })
  | some current => do
    let node ← list.nodes current
    return (.ok current, { list with current := node.next })

/-- "Node connection handling" -/
def connectNeighbours (nodes : LinkedHeap α) (node : LinkedNode α) : Option (LinkedHeap α) :=
  match node.prev, node.next with
  | none, none => some nodes
  | none, some next => storePrev nodes next none
  | some prev, none => storeNext nodes prev none
  | some prev, some next => do
    let nodes ← storeNext nodes prev (some next)
    storePrev nodes next (some prev)

def mclListRemove (list : MclList α) (node : Option Nat) : Option (Result Unit × MclList α) :=
  match node with
  | none => some (.error .triggeredWithNull, list)
  | some a =>
    if list.count > 0 then do
      let node ← list.nodes a
      let nodes ← connectNeighbours list.nodes node
      return (.ok (), {
        nodes := free nodes a
        head := if list.head = some a then node.next else list.head
        last := if list.last = some a then node.prev else list.last
        current := if list.current = some a then node.next else list.current
        count := list.count - 1 })
    else some (.error .listIsEmpty, list)

/-- The second component is the content handed to the callback, if it is called. -/
def mclListRemoveWithContent (list : MclList α) (node : Option Nat) (callbackIsSet : Bool) :
    Option ((Result Unit × Option α) × MclList α) :=
  match node, callbackIsSet with
  | some a, true => do
    let node ← list.nodes a
    match ← mclListRemove list (some a) with
    | (.ok (), list) => return ((.ok (), some node.data), list)
    | (.error e, list) => return ((.error e, none), list)
  | _, _ => some ((.error .triggeredWithNull, none), list)

/-- `fuel` bounds the nodes visited; running out of it is `none`. -/
def existLoop (nodes : LinkedHeap α) (compareFunction : α → Bool) : Nat → Option Nat → Option (Result α)
  | _, none => some (.error .fail)
  | 0, some _ => none
  | fuel + 1, some a => do
    let node ← nodes a
    if compareFunction node.data then return .ok node.data
    else existLoop nodes compareFunction fuel node.next

def mclListExist (list : MclList α) (compareFunction : α → Bool) : Option (Result α) :=
  existLoop list.nodes compareFunction list.count list.head

def mclListReset (list : MclList α) : MclList α := { list with current := list.head }

/-! ## What a list stands for -/

/-- The list is the sequence of cells, and its current node is the cell under the cursor. -/
structure Refines (list : MclList α) (c : CursorList (Nat × α)) : Prop where
  linked : Linked list.nodes c.seq
  head : list.head = first c.seq none
  last : list.last = final c.seq none
  count : list.count = c.count
  current : list.current = first (c.seq.drop c.cursor) none

theorem refines_empty : Refines (⟨fun _ => none, none, none, none, 0⟩ : MclList α) .empty :=
  ⟨.empty, rfl, rfl, rfl, rfl⟩

theorem storeNext_eq {nodes : LinkedHeap α} {a : Nat} (ha : (nodes a).isSome) (v : Option Nat) :
    storeNext nodes a v = some (setNext nodes (some a) v) := by
  obtain ⟨node, hn⟩ := Option.isSome_iff_exists.1 ha
  simp [storeNext, setNext, hn]

theorem storePrev_eq {nodes : LinkedHeap α} {a : Nat} (ha : (nodes a).isSome) (v : Option Nat) :
    storePrev nodes a v = some (setPrev nodes (some a) v) := by
  obtain ⟨node, hn⟩ := Option.isSome_iff_exists.1 ha
  simp [storePrev, setPrev, hn]

/-- The four cases of the code are one: both neighbours, as far as there are any, are bridged. -/
theorem connectNeighbours_eq (nodes : LinkedHeap α) (node : LinkedNode α)
    (hprev : ∀ a, node.prev = some a → (nodes a).isSome)
    (hnext : ∀ a, node.next = some a → (nodes a).isSome) :
    connectNeighbours nodes node =
      some (setPrev (setNext nodes node.prev node.next) node.next node.prev) := by
  obtain ⟨data, prev, next⟩ := node
  cases prev with
  | none =>
    cases next with
    | none => rfl
    | some b => exact storePrev_eq (hnext b rfl) none
  | some a =>
    have hstore := storeNext_eq (hprev a rfl)
    cases next with
    | none => exact hstore none
    | some b =>
      have hb : (setNext nodes (some a) (some b) b).isSome := by
        rw [isSome_setNext]
        exact hnext b rfl
      simp only [connectNeighbours, hstore, Option.bind_eq_bind, Option.bind_some]
      exact storePrev_eq hb (some a)

theorem mclListReset_refines {list : MclList α} {c : CursorList (Nat × α)} (h : Refines list c) :
    Refines (mclListReset list) c.reset :=
  ⟨h.linked, h.head, h.last, h.count, h.head⟩

/-! ## Next -/

/-- The cell that `next` hands out, by its address. -/
def cursorNext (c : CursorList (Nat × α)) : Result Nat × CursorList (Nat × α) :=
  match c.seq[c.cursor]? with
  | some cell => (.ok cell.1, c.next.2)
  | none => (.error .fail, c.next.2)

theorem mclListNext_refines {list : MclList α} {c : CursorList (Nat × α)} (h : Refines list c) :
    ∃ list', mclListNext list = some ((cursorNext c).1, list') ∧ Refines list' (cursorNext c).2 := by
  by_cases hlt : c.cursor < c.seq.length
  · obtain ⟨⟨a, x⟩, hcell⟩ : ∃ cell, c.seq[c.cursor] = cell := ⟨_, rfl⟩
    have hdrop := List.drop_eq_getElem_cons hlt
    have hget := List.getElem?_eq_getElem hlt
    rw [hcell] at hdrop hget
    have hl := h.linked
    rw [← List.take_append_drop c.cursor c.seq, hdrop] at hl
    have hcurrent : list.current = some a := by rw [h.current, hdrop]; rfl
    refine ⟨{ list with current := first (c.seq.drop (c.cursor + 1)) none }, ?_, ?_⟩
    · simp only [mclListNext, hcurrent, hl.node, cursorNext, hget, bind, Option.bind, pure]
    · simp only [cursorNext, hget, CursorList.next, hlt, ↓reduceDIte]
      exact ⟨h.linked, h.head, h.last, h.count, rfl⟩
  · have hnone : c.seq[c.cursor]? = none := List.getElem?_eq_none (by omega)
    have hcurrent : list.current = none := by
      rw [h.current, List.drop_eq_nil_of_le (by omega)]
      rfl
    refine ⟨{ list with current := list.head }, ?_, ?_⟩
    · simp only [mclListNext, hcurrent, cursorNext, hnone]
    · simp only [cursorNext, hnone, CursorList.next, hlt, ↓reduceDIte]
      exact ⟨h.linked, h.head, h.last, h.count, h.head⟩

/-! ## Add -/

theorem drop_add (c : CursorList (Nat × α)) (cell : Nat × α) (hne : c.seq ≠ []) :
    first ((c.add cell).seq.drop (c.add cell).cursor) none = first (c.seq.drop c.cursor) none := by
  have hle := c.cursor_le
  by_cases hend : c.cursor = c.seq.length
  · simp [CursorList.add, hne, hend]
  · have hlt : c.cursor < c.seq.length := by omega
    have hadd : (c.add cell).cursor = c.cursor := by simp [CursorList.add, hend]
    rw [hadd, CursorList.seq_add, List.drop_append_of_le_length hle, first_append,
      List.drop_eq_getElem_cons hlt]
    rfl

theorem mclListAdd_refines {w : Nat} {list : MclList α} {c : CursorList (Nat × α)} (h : Refines list c)
    {a : Nat} (fresh : list.nodes a = none) (room : c.count < 2 ^ w - 1) (data : α) :
    ∃ list', mclListAdd w (some a) list (some data) = some (.ok (), list') ∧
      Refines list' (c.add (a, data)) := by
  have hlink := h.linked.link (x := data) fresh
  rw [← CursorList.seq_add] at hlink
  have hcount : list.count + 1 = (c.add (a, data)).count := by
    simp [h.count, CursorList.count]
  by_cases hne : c.seq = []
  · have hzero : list.count = 0 := by simp [h.count, CursorList.count, hne]
    have hlast : list.last = none := by rw [h.last, hne]; rfl
    have hroom : (0 : Nat) < 2 ^ w - 1 := by rw [← hzero, h.count]; exact room
    refine ⟨⟨Function.update list.nodes a (some ⟨data, list.last, none⟩), some a, some a, some a, 1⟩, ?_, ?_⟩
    · simp only [mclListAdd, hzero, hroom, if_true]
    refine ⟨?_, ?_, ?_, by rw [← hcount, hzero], ?_⟩
    · simpa [LinkedHeap.link, hne, hlast, setNext] using hlink
    · simp [hne]
    · simp [hne]
    · have hcursor : c.cursor = 0 := by
        have := c.cursor_le
        simp only [hne, List.length_nil] at this
        omega
      simp [CursorList.add, hne, hcursor]
  · have hpos : list.count ≠ 0 := by
      rw [h.count]
      exact fun h0 => hne (List.length_eq_zero_iff.1 h0)
    have hroom : list.count < 2 ^ w - 1 := by rw [h.count]; exact room
    obtain ⟨b, hb⟩ : ∃ b, list.last = some b := by
      rcases List.eq_nil_or_concat c.seq with hnil | ⟨xs, ⟨b, x⟩, hconcat⟩
      · exact absurd hnil hne
      · exact ⟨b, by rw [h.last, hconcat, List.concat_eq_append, final_append]; rfl⟩
    have hlive : (Function.update list.nodes a (some ⟨data, list.last, none⟩) b).isSome := by
      by_cases hba : b = a
      · subst hba; simp
      · rw [Function.update_of_ne hba, h.linked.exact_nodes]
        exact final_eq_some (h.last.symm.trans hb)
    refine ⟨{ list with
      nodes := link list.nodes a data (some b), last := some a, count := list.count + 1 }, ?_, ?_⟩
    · simp only [mclListAdd, hroom, hpos, if_true, if_false, hb, bind, Option.bind, pure]
      rw [← hb, storeNext_eq hlive, hb]
      rfl
    · refine ⟨?_, ?_, ?_, hcount, ?_⟩
      · rw [← h.last, hb] at hlink
        exact hlink
      · rw [CursorList.seq_add, first_append]
        cases hseq : c.seq with
        | nil => exact absurd hseq hne
        | cons cell cells =>
          have hhead := h.head
          rw [hseq] at hhead
          exact hhead
      · rw [CursorList.seq_add, final_append]
        rfl
      · rw [drop_add c (a, data) hne]
        exact h.current

/-! ## Remove -/

/-- Where the cell at an address stands. -/
def position (c : CursorList (Nat × α)) (a : Nat) : Nat := c.seq.findIdx fun cell => cell.1 == a

theorem position_eq {c : CursorList (Nat × α)} {xs ys : List (Nat × α)} {a : Nat} {x : α}
    (hseq : c.seq = xs ++ (a, x) :: ys) (ha : a ∉ xs.map Prod.fst) : position c a = xs.length := by
  have hxs : ∀ cell ∈ xs, (cell.1 == a) = false := by
    intro cell hcell
    rw [beq_eq_false_iff_ne]
    rintro rfl
    exact ha (List.mem_map_of_mem hcell)
  rw [position, hseq]
  clear hseq ha
  induction xs with
  | nil => simp [List.findIdx_cons]
  | cons cell xs ih =>
    rw [List.cons_append, List.findIdx_cons, hxs cell (by simp), cond_false,
      ih fun d hd => hxs d (List.mem_cons_of_mem _ hd), List.length_cons]

/-- The cell under the cursor after a removal: the old one, or its successor if it was removed. -/
theorem first_drop_remove {c : CursorList (Nat × α)} {xs ys : List (Nat × α)} {a : Nat} {x : α}
    (hseq : c.seq = xs ++ (a, x) :: ys) (hnodup : (c.seq.map Prod.fst).Nodup) :
    first ((c.remove xs.length).seq.drop (c.remove xs.length).cursor) none =
      if first (c.seq.drop c.cursor) none = some a then first ys none
      else first (c.seq.drop c.cursor) none := by
  rw [hseq, List.map_append, List.map_cons, List.nodup_append, List.nodup_cons] at hnodup
  obtain ⟨-, ⟨hay, -⟩, hdis⟩ := hnodup
  rw [CursorList.seq_remove_eq hseq, CursorList.cursor_remove, hseq]
  rcases Nat.lt_trichotomy xs.length c.cursor with hlt | heq | hgt
  · obtain ⟨k, hk⟩ : ∃ k, c.cursor = xs.length + (k + 1) := ⟨c.cursor - xs.length - 1, by omega⟩
    have hsub : c.cursor - 1 = xs.length + k := by omega
    have hne : first (ys.drop k) none ≠ some a := by
      intro hf
      obtain ⟨cell, hcell, rfl⟩ := List.mem_map.1 (first_eq_some hf)
      exact hay (List.mem_map.2 ⟨cell, List.drop_subset _ _ hcell, rfl⟩)
    have hdrop : (xs ++ (a, x) :: ys).drop (xs.length + (k + 1)) = ys.drop k := by
      rw [← List.drop_drop, List.drop_left, List.drop_succ_cons]
    rw [if_pos hlt, hsub, hk, hdrop, if_neg hne, ← List.drop_drop, List.drop_left]
  · rw [if_neg (by omega), ← heq, List.drop_left, List.drop_left, first_cons, if_pos rfl]
  · have hne : some xs[c.cursor].1 ≠ some a := by
      rintro ⟨⟩
      exact hdis _ (List.mem_map_of_mem (List.getElem_mem hgt)) _ (by simp) rfl
    rw [if_neg (by omega), List.drop_append_of_le_length (by omega),
      List.drop_append_of_le_length (by omega), List.drop_eq_getElem_cons hgt, List.cons_append,
      List.cons_append, first_cons, first_cons, if_neg hne]

theorem exists_split {list : MclList α} {c : CursorList (Nat × α)} (h : Refines list c) {a : Nat}
    (live : (list.nodes a).isSome) :
    ∃ xs x ys, c.seq = xs ++ (a, x) :: ys ∧ a ∉ xs.map Prod.fst := by
  obtain ⟨⟨_, x⟩, hcell, rfl⟩ := List.mem_map.1 ((h.linked.exact_nodes a).1 live)
  obtain ⟨xs, ys, hseq⟩ := List.append_of_mem hcell
  refine ⟨xs, x, ys, hseq, fun ha => ?_⟩
  have hnodup := h.linked.nodup
  rw [hseq, List.map_append, List.nodup_append] at hnodup
  exact hnodup.2.2 _ ha _ (by simp) rfl

theorem mclListRemove_refines {list : MclList α} {c : CursorList (Nat × α)} (h : Refines list c)
    {a : Nat} (live : (list.nodes a).isSome) :
    ∃ list', mclListRemove list (some a) = some (.ok (), list') ∧ Refines list' (c.remove (position c a)) := by
  obtain ⟨xs, x, ys, hseq, ha⟩ := exists_split h live
  have hnodup := h.linked.nodup
  have hl := h.linked
  rw [hseq] at hl
  have hremoved := CursorList.seq_remove_eq hseq
  have hpos : list.count > 0 := by
    rw [h.count, CursorList.count, hseq, List.length_append, List.length_cons]
    omega
  have hconnect := connectNeighbours_eq list.nodes ⟨x, final xs none, first ys none⟩
    (fun b hb => by rw [hl.exact_nodes]; simp [final_eq_some hb])
    (fun b hb => by rw [hl.exact_nodes]; simp [first_eq_some hb])
  rw [position_eq hseq ha]
  refine ⟨{
    nodes := unlink list.nodes a (final xs none) (first ys none)
    head := if list.head = some a then first ys none else list.head
    last := if list.last = some a then final xs none else list.last
    current := if list.current = some a then first ys none else list.current
    count := list.count - 1 }, ?_, ?_⟩
  · simp only [mclListRemove, hpos, if_true, hl.node, hconnect, bind, Option.bind, pure]
    rfl
  · refine ⟨?_, ?_, ?_, ?_, ?_⟩
    · rw [hremoved]
      exact hl.unlink
    · rw [hremoved, h.head, hseq]
      cases xs with
      | nil => simp
      | cons cell xs =>
        have hne : some cell.1 ≠ some a := by
          rintro ⟨⟩
          exact ha (by simp)
        exact if_neg hne
    · rw [hremoved]
      show (if list.last = some a then final xs none else list.last) = final (xs ++ ys) none
      rw [h.last, hseq, final_append, final_append, final_cons]
      rcases List.eq_nil_or_concat ys with rfl | ⟨zs, ⟨b, y⟩, rfl⟩
      · exact if_pos rfl
      · have hne : some b ≠ some a := by
          rintro ⟨⟩
          rw [hseq, List.map_append, List.nodup_append, List.map_cons, List.nodup_cons] at hnodup
          exact hnodup.2.1.1 (by simp)
        rw [List.concat_eq_append, final_append, final_append]
        exact if_neg hne
    · have hcount : list.count = xs.length + (ys.length + 1) := by
        rw [h.count, CursorList.count, hseq]
        simp
      rw [CursorList.count, hremoved, List.length_append]
      show list.count - 1 = _
      omega
    · rw [first_drop_remove hseq hnodup, h.current]

theorem mclListRemoveWithContent_refines {list : MclList α} {c : CursorList (Nat × α)} (h : Refines list c)
    {a : Nat} (live : (list.nodes a).isSome) :
    ∃ list' content, c.seq[position c a]? = some (a, content) ∧
      mclListRemoveWithContent list (some a) true = some ((.ok (), some content), list') ∧
      Refines list' (c.remove (position c a)) := by
  obtain ⟨xs, x, ys, hseq, ha⟩ := exists_split h live
  obtain ⟨list', hremove, hrefines⟩ := mclListRemove_refines h live
  have hl := h.linked
  rw [hseq] at hl
  refine ⟨list', x, ?_, ?_, hrefines⟩
  · rw [position_eq hseq ha, hseq]
    simp
  · simp only [mclListRemoveWithContent, hl.node, hremove, bind, Option.bind, pure]

/-! ## Exist -/

theorem existLoop_eq {nodes : LinkedHeap α} {p : Option Nat} {cells : List (Nat × α)}
    (hs : Segment nodes p cells none) (compareFunction : α → Bool) :
    existLoop nodes compareFunction cells.length (first cells none) =
      some (match cells.find? fun cell => compareFunction cell.2 with
        | some cell => .ok cell.2
        | none => .error .fail) := by
  induction cells generalizing p with
  | nil => rfl
  | cons cell cells ih =>
    obtain ⟨a, x⟩ := cell
    obtain ⟨ha, hs⟩ := hs
    rw [List.length_cons, first_cons, existLoop, ha]
    by_cases hx : compareFunction x
    · simp [hx]
    · simp only [Option.bind_eq_bind, Option.bind_some, hx, Bool.false_eq_true, if_false, ih hs,
        List.find?_cons]

end MindConnect
