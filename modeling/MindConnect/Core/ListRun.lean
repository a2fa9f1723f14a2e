import MindConnect.Core.List

/-!
# Runs of list calls

Any sequence of calls, on a list that `mcl_list_initialize` made, is a sequence of calls on the
`CursorList`: `call_refines` is the step, `run_refines` the run. `visitLoop` is the loop that the
library's clients write, `reset` and then `count` times `next`, each time removing the node or not;
`visitLoop_refines` takes it to `CursorList.forNext`.
-/

namespace MindConnect

open LinkedHeap

variable {α σ : Type}

/-- A call with its arguments and with what memory comes to. -/
inductive ListCall (α : Type) where
  | add (data : Option α) (newNode : Option Nat)
  | remove (node : Option Nat)
  | removeWithContent (node : Option Nat) (callbackIsSet : Bool)
  | next
  | reset
  | exist (compareFunction : α → Bool)

/-- What a call returns; a removal also what it handed to the callback. -/
inductive ListAnswer (α : Type) where
  | code (code : Result Unit)
  | removed (code : Result Unit) (content : Option α)
  | node (node : Result Nat)
  | item (item : Result α)
  | none

def MclList.call (w : Nat) (list : MclList α) : ListCall α → Option (ListAnswer α × MclList α)
  | .add data newNode => (mclListAdd w newNode list data).map fun r => (.code r.1, r.2)
  | .remove node => (mclListRemove list node).map fun r => (.code r.1, r.2)
  | .removeWithContent node callbackIsSet =>
    (mclListRemoveWithContent list node callbackIsSet).map fun r => (.removed r.1.1 r.1.2, r.2)
  | .next => (mclListNext list).map fun r => (.node r.1, r.2)
  | .reset => some (.none, mclListReset list)
  | .exist compareFunction => (mclListExist list compareFunction).map fun r => (.item r, list)

/-- New memory is memory not in use; what is removed is a node of the list. -/
def Admissible (list : MclList α) : ListCall α → Prop
  | .add _ (some newNode) => list.nodes newNode = none
  | .remove (some node) => (list.nodes node).isSome
  | .removeWithContent (some node) _ => (list.nodes node).isSome
  | _ => True

/-- The same call on the sequence of cells. -/
def cursorCall (w : Nat) (c : CursorList (Nat × α)) : ListCall α → ListAnswer α × CursorList (Nat × α)
  | .add none _ => (.code (.error .triggeredWithNull), c)
  | .add (some data) newNode =>
    if c.count < 2 ^ w - 1 then
      match newNode with
      | none => (.code (.error .outOfMemory), c)
      | some newNode => (.code (.ok ()), c.add (newNode, data))
    else (.code (.error .limitExceeded), c)
  | .remove none => (.code (.error .triggeredWithNull), c)
  | .remove (some node) => (.code (.ok ()), c.remove (position c node))
  | .removeWithContent (some node) true =>
    (.removed (.ok ()) (c.seq[position c node]?.map Prod.snd), c.remove (position c node))
  | .removeWithContent _ _ => (.removed (.error .triggeredWithNull) none, c)
  | .next => (.node (cursorNext c).1, (cursorNext c).2)
  | .reset => (.none, c.reset)
  | .exist compareFunction =>
    (.item (match c.seq.find? fun cell => compareFunction cell.2 with
      | some cell => .ok cell.2
      | none => .error .fail), c)

theorem call_refines {w : Nat} {list : MclList α} {c : CursorList (Nat × α)} (h : Refines list c)
    {call : ListCall α} (admissible : Admissible list call) :
    ∃ list', list.call w call = some ((cursorCall w c call).1, list') ∧
      Refines list' (cursorCall w c call).2 := by
  cases call with
  | add data newNode =>
    cases data with
    | none => exact ⟨list, rfl, h⟩
    | some data =>
      by_cases hroom : c.count < 2 ^ w - 1
      · cases newNode with
        | none =>
          simp only [MclList.call, mclListAdd, h.count, cursorCall, hroom, if_true]
          exact ⟨list, rfl, h⟩
        | some newNode =>
          obtain ⟨list', hadd, hrefines⟩ := mclListAdd_refines h admissible hroom data
          simp only [MclList.call, hadd, cursorCall, hroom, if_true]
          exact ⟨list', rfl, hrefines⟩
      · simp only [MclList.call, mclListAdd, h.count, cursorCall, hroom, if_false]
        exact ⟨list, rfl, h⟩
  | remove node =>
    cases node with
    | none => exact ⟨list, rfl, h⟩
    | some node =>
      obtain ⟨list', hremove, hrefines⟩ := mclListRemove_refines h admissible
      simp only [MclList.call, hremove]
      exact ⟨list', rfl, hrefines⟩
  | removeWithContent node callbackIsSet =>
    cases node with
    | none => exact ⟨list, rfl, h⟩
    | some node =>
      cases callbackIsSet with
      | false => exact ⟨list, rfl, h⟩
      | true =>
        obtain ⟨list', content, hcontent, hremove, hrefines⟩ := mclListRemoveWithContent_refines h admissible
        simp only [MclList.call, hremove, cursorCall, hcontent]
        exact ⟨list', rfl, hrefines⟩
  | next =>
    obtain ⟨list', hnext, hrefines⟩ := mclListNext_refines h
    simp only [MclList.call, hnext]
    exact ⟨list', rfl, hrefines⟩
  | reset => exact ⟨_, rfl, mclListReset_refines h⟩
  | exist compareFunction =>
    have hexist := existLoop_eq h.linked.segment compareFunction
    rw [← h.head] at hexist
    have hcount : list.count = c.seq.length := h.count
    simp only [MclList.call, mclListExist, hcount, hexist]
    exact ⟨list, rfl, h⟩

/-- The calls made since `mcl_list_initialize` and what they returned. -/
inductive ListRun (w : Nat) : List (ListCall α × ListAnswer α) → MclList α → Prop where
  | initialized {list} : mclListInitialize true = .ok list → ListRun w [] list
  | call {trace list answer list'} (call) : ListRun w trace list → Admissible list call →
      list.call w call = some (answer, list') → ListRun w (trace ++ [(call, answer)]) list'

inductive CursorRun (w : Nat) : List (ListCall α × ListAnswer α) → CursorList (Nat × α) → Prop where
  | initialized : CursorRun w [] .empty
  | call {trace c} (call) : CursorRun w trace c →
      CursorRun w (trace ++ [(call, (cursorCall w c call).1)]) (cursorCall w c call).2

theorem run_refines {w : Nat} {trace : List (ListCall α × ListAnswer α)} {list : MclList α}
    (run : ListRun w trace list) : ∃ c, CursorRun w trace c ∧ Refines list c := by
  induction run with
  | initialized hinit =>
    cases hinit
    exact ⟨.empty, .initialized, refines_empty⟩
  | call call _ admissible hcall ih =>
    obtain ⟨c, hrun, hrefines⟩ := ih
    obtain ⟨list'', hcall', hrefines'⟩ := call_refines (w := w) hrefines admissible
    rw [hcall] at hcall'
    cases hcall'
    exact ⟨_, .call call hrun, hrefines'⟩

/-! ## The visiting loop -/

/-- `n` times: take the next node, read its data, remove it if `body` says so. Using the node when
`next` failed is a null dereference. -/
def visitLoop (body : σ → α → σ × Bool) : Nat → σ → MclList α → Option (σ × MclList α)
  | 0, s, list => some (s, list)
  | n + 1, s, list => do
    match ← mclListNext list with
    | (.error _, _) => none
    | (.ok a, list) =>
      let node ← list.nodes a
      if (body s node.data).2 then
        let (_, list) ← mclListRemove list (some a)
        visitLoop body n (body s node.data).1 list
      else visitLoop body n (body s node.data).1 list

def visitAll (body : σ → α → σ × Bool) (s : σ) (list : MclList α) : Option (σ × MclList α) :=
  visitLoop body list.count s (mclListReset list)

/-- The body on a cell: `none` drops it. -/
def visitCell (body : σ → α → σ × Bool) (s : σ) (cell : Nat × α) : σ × Option (Nat × α) :=
  ((body s cell.2).1, if (body s cell.2).2 then none else some cell)

theorem visitLoop_refines (body : σ → α → σ × Bool) {n : Nat} {s s' : σ} {list : MclList α}
    {c c' : CursorList (Nat × α)} (h : Refines list c)
    (hfor : CursorList.forNext (visitCell body) n s c = some (s', c')) :
    ∃ list', visitLoop body n s list = some (s', list') ∧ Refines list' c' := by
  induction n generalizing s list c with
  | zero =>
    cases hfor
    exact ⟨list, rfl, h⟩
  | succ n ih =>
    by_cases hlt : c.cursor < c.seq.length
    · obtain ⟨⟨a, x⟩, hcell⟩ : ∃ cell, c.seq[c.cursor] = cell := ⟨_, rfl⟩
      have hget := List.getElem?_eq_getElem hlt
      rw [hcell] at hget
      obtain ⟨list₁, hnext, hrefines⟩ := mclListNext_refines h
      simp only [cursorNext, hget] at hnext hrefines
      have hseq : c.next.2.seq = c.seq := by simp [CursorList.next, hlt]
      have hsplit : c.next.2.seq = c.seq.take c.cursor ++ (a, x) :: c.seq.drop (c.cursor + 1) := by
        rw [hseq, ← hcell, ← List.drop_eq_getElem_cons hlt, List.take_append_drop]
      have hl := hrefines.linked
      rw [hsplit] at hl
      have hfst : c.next.1 = some c.cursor := by simp [CursorList.next, hlt]
      have hpair : c.next = (some c.cursor, c.next.2) := by rw [← hfst]
      rw [CursorList.forNext, hpair] at hfor
      simp only [hseq, hget, visitCell] at hfor
      simp only [visitLoop, hnext, hl.node, Option.bind_eq_bind, Option.bind_some]
      by_cases hbody : (body s x).2
      · obtain ⟨list₂, hremove, hrefines₂⟩ :=
          mclListRemove_refines hrefines (a := a) (by rw [hl.node]; rfl)
        have hposition : position c.next.2 a = c.cursor := by
          have hnodup := hl.nodup
          rw [List.map_append, List.nodup_append] at hnodup
          rw [position_eq hsplit fun ha => hnodup.2.2 a ha a (by simp) rfl, List.length_take]
          omega
        rw [hposition] at hrefines₂
        simp only [hbody, if_true] at hfor
        simp only [hbody, if_true, hremove, Option.bind_some]
        exact ih hrefines₂ hfor
      · have hset : c.next.2.set c.cursor (a, x) = c.next.2 := by
          have hlt' : c.cursor < c.next.2.seq.length := by rw [hseq]; exact hlt
          have hget' : c.next.2.seq[c.cursor] = (a, x) := by simp only [hseq, hcell]
          simp only [CursorList.set, ← hget', List.set_getElem_self]
        simp only [hbody, Bool.false_eq_true, if_false, hset] at hfor
        simp only [hbody, Bool.false_eq_true, if_false]
        exact ih hrefines hfor
    · have hnone : c.next.1 = none := by simp [CursorList.next, hlt]
      have hpair : c.next = (none, c.next.2) := by rw [← hnone]
      rw [CursorList.forNext, hpair] at hfor
      cases hfor

theorem sift_visitCell_fst (body : σ → α → σ × Bool) (s : σ) (cells : List (Nat × α)) :
    (CursorList.sift (visitCell body) s cells).1 =
      (cells.map Prod.snd).foldl (fun s x => (body s x).1) s := by
  induction cells generalizing s with
  | nil => rfl
  | cons cell cells ih => exact ih _

/-- The body sees every element once, in order, whatever is removed on the way. -/
theorem visitAll_eq (body : σ → α → σ × Bool) (s : σ) {list : MclList α} {c : CursorList (Nat × α)}
    (h : Refines list c) :
    ∃ list', visitAll body s list =
        some ((c.seq.map Prod.snd).foldl (fun s x => (body s x).1) s, list') ∧
      Refines list' (.split (CursorList.sift (visitCell body) s c.seq).2 []) := by
  have hfor := CursorList.forNext_reset (visitCell body) s c
  rw [sift_visitCell_fst] at hfor
  obtain ⟨list', hvisit, hrefines⟩ := visitLoop_refines body (mclListReset_refines h) hfor
  refine ⟨list', ?_, hrefines⟩
  rw [visitAll, h.count]
  exact hvisit

/-- What it means that the list, after these calls, is the sequence `c` with its cursor. -/
structure Implements (w : Nat) (trace : List (ListCall α × ListAnswer α)) (list : MclList α)
    (c : CursorList (Nat × α)) : Prop where
  answers : CursorRun w trace c
  state : Refines list c
  call_defined : ∀ call, Admissible list call →
    ∃ list', list.call w call = some ((cursorCall w c call).1, list') ∧ Refines list' (cursorCall w c call).2
  visits_once : ∀ {σ : Type} (body : σ → α → σ × Bool) (s : σ),
    ∃ list', visitAll body s list = some ((c.seq.map Prod.snd).foldl (fun s x => (body s x).1) s, list') ∧
      Refines list' (.split (CursorList.sift (visitCell body) s c.seq).2 [])

/-- **The list is a sequence with a cursor.** Every run of calls is a run on the sequence of cells, with
the same answers; the next call is defined whatever it is; and a loop that visits the list sees every
element exactly once. -/
theorem mclList_implements_cursorList {w : Nat} {trace : List (ListCall α × ListAnswer α)} {list : MclList α}
    (run : ListRun w trace list) : ∃ c, Implements w trace list c := by
  obtain ⟨c, hrun, hrefines⟩ := run_refines run
  exact ⟨c, hrun, hrefines, fun _ admissible => call_refines hrefines admissible,
    fun body s => visitAll_eq body s hrefines⟩

/-- Two elements are added, one is handed out and removed. -/
def sampleTrace : List (ListCall Nat × ListAnswer Nat) :=
  [(.add (some 7) (some 100), .code (.ok ())), (.add (some 8) (some 200), .code (.ok ())),
    (.next, .node (.ok 100)), (.remove (some 100), .code (.ok ()))]

theorem sampleTrace_implements : ∃ list c, ListRun 32 sampleTrace list ∧ Implements 32 sampleTrace list c := by
  have h₀ : ListRun (α := Nat) 32 [] _ := .initialized rfl
  have h₁ := h₀.call (.add (some 7) (some 100)) rfl rfl
  have h₂ := h₁.call (.add (some 8) (some 200)) rfl rfl
  have h₃ := h₂.call .next trivial rfl
  have h₄ := h₃.call (.remove (some 100)) rfl rfl
  obtain ⟨c, hc⟩ := mclList_implements_cursorList h₄
  exact ⟨_, c, h₄, hc⟩

end MindConnect
