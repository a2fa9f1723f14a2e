import MindConnect.Connectivity.Store
import Mathlib.Data.List.Forall2
import Mathlib.Data.List.Perm.Basic

/-!
# What an exchange does to the store

Each of the functions that rewrite item statuses is reduced to what it does to the sequence of store
items (`checked`, `Selection`, `Building`, `remaining`), one turn of the loop to a `Round`, and the loop to
an `Exchanged`: the store keeps a sublist of its items, and the items it lost are, item for item, the
contents of the requests that were answered with 200.
-/

namespace MindConnect

variable {w : Nat}

/-! ## The status functions -/

/-- What `_check_store_size` makes of an item. -/
def checked (max : BitVec w) (x : StoreItem w) : StoreItem w :=
  let x := { x with itemSize := getItemSize w x.item.item }
  if max < multipartGetOverheadSize w + x.itemSize then x.setStatus .ignored else x

@[simp] theorem setStatus_item (x : StoreItem w) (s : StoreItemStatus) : (x.setStatus s).item = x.item := rfl
@[simp] theorem setStatus_status (x : StoreItem w) (s : StoreItemStatus) : (x.setStatus s).status = s := rfl
@[simp] theorem setStatus_itemSize (x : StoreItem w) (s : StoreItemStatus) :
    (x.setStatus s).itemSize = x.itemSize := rfl

@[simp] theorem checked_item (max : BitVec w) (x : StoreItem w) : (checked max x).item = x.item := by
  simp only [checked]; split <;> rfl

theorem checkStoreSize_seq (max : BitVec w) (s : Store w) :
    (checkStoreSize max s).2.itemList.seq = s.itemList.seq.map (checked max) := by
  unfold checkStoreSize
  split_ifs with h
  · have : s.itemList.seq = [] := List.length_eq_zero_iff.1 h
    simp [this]
  · simp only [CursorList.whileNext_reset, CursorList.seq_ofList]
    refine CursorList.sweep_snd_eq_map (fun b x => ?_) _ _
    simp only [checked]
    split <;> rfl

theorem checkStoreSize_items (max : BitVec w) (s : Store w) : (checkStoreSize max s).2.items = s.items := by
  simp [Store.items, checkStoreSize_seq, Function.comp_def]

/-- The statuses between the check and the selection, and again after each turn. -/
def Idle (x : StoreItem w) : Prop := x.status = .ready ∨ x.status = .ignored

def AllReady (s : Store w) : Prop := ∀ x ∈ s.itemList.seq, x.status = .ready
def AllIdle (s : Store w) : Prop := ∀ x ∈ s.itemList.seq, Idle x

theorem AllReady.checkStoreSize {s : Store w} (h : AllReady s) (max : BitVec w) :
    AllIdle (checkStoreSize max s).2 := by
  intro y hy
  rw [checkStoreSize_seq] at hy
  obtain ⟨x, hx, rfl⟩ := List.mem_map.1 hy
  simp only [checked]
  split
  · exact .inr rfl
  · exact .inl (h x hx)

theorem checkStoreSize_storeIsEmpty {max : BitVec w} {s : Store w} (h : s.items = []) :
    MindConnect.checkStoreSize max s = (.error .storeIsEmpty, s) := by
  have : s.itemList.count = 0 := by simpa [Store.items, CursorList.count] using h
  simp [MindConnect.checkStoreSize, this]

/-- The selection takes an item or leaves it. -/
def Selection (x y : StoreItem w) : Prop := y = x ∨ y = x.setStatus .selected

theorem selectStoreItemsToExchange_selection (max : BitVec w) (s : Store w) :
    List.Forall₂ Selection s.itemList.seq (selectStoreItemsToExchange max s).2.itemList.seq := by
  simp only [selectStoreItemsToExchange, CursorList.whileNext_reset, CursorList.seq_reset,
    CursorList.seq_ofList]
  refine CursorList.sweep_forall₂ (fun r x => ?_) _ _
  split
  · exact .inr rfl
  · exact .inl rfl

theorem items_eq_of_forall₂ {R : StoreItem w → StoreItem w → Prop} (h : ∀ x y, R x y → y.item = x.item)
    {xs ys : List (StoreItem w)} (hR : List.Forall₂ R xs ys) :
    ys.map (fun x => x.item) = xs.map fun x => x.item := by
  induction hR with
  | nil => rfl
  | cons hxy _ ih => rw [List.map_cons, List.map_cons, h _ _ hxy, ih]

/-- Reverting loses nothing and leaves every item ready. -/
theorem revertStoreItemStatus_spec (s : Store w) :
    ∃ s', revertStoreItemStatus s = some s' ∧ s'.items = s.items ∧ AllReady s' := by
  have hsift : ∀ xs : List (StoreItem w),
      (CursorList.sift (fun _ x => ((), some (x.setStatus .ready))) () xs).2 =
        xs.map fun x => x.setStatus .ready := by
    intro xs
    induction xs with
    | nil => rfl
    | cons x xs ih => simp [CursorList.sift, ih]
  rw [revertStoreItemStatus, CursorList.forNext_reset]
  refine ⟨_, rfl, ?_, ?_⟩
  · simp [Store.items, hsift, Function.comp_def]
  · intro y hy
    rw [CursorList.seq_split, List.append_nil, hsift] at hy
    obtain ⟨x, -, rfl⟩ := List.mem_map.1 hy
    rfl

/-- What is left of the items after the processed ones are gone. -/
def remaining (xs : List (StoreItem w)) : List (StoreItem w) :=
  (xs.filter fun x => x.status != .processed).map fun x =>
    if x.status = .selected then x.setStatus .ready else x

/-- Nothing is left to be sent: every item is on its way or too large. -/
def fullyProcessed (xs : List (StoreItem w)) : Bool :=
  xs.all fun x => x.status == .processed || x.status == .ignored

theorem removeUploadedStoreItems_eq (s : Store w) : ∃ s',
    removeUploadedStoreItems s = some (fullyProcessed s.itemList.seq, s') ∧
      s'.itemList.seq = remaining s.itemList.seq := by
  have hsift : ∀ (xs : List (StoreItem w)) (b : Bool),
      CursorList.sift removeUploadedStoreItem b xs = (b && fullyProcessed xs, remaining xs) := by
    intro xs
    induction xs with
    | nil => intro b; simp [CursorList.sift, fullyProcessed, remaining]
    | cons x xs ih =>
      intro b
      simp only [CursorList.sift, removeUploadedStoreItem, fullyProcessed, remaining] at ih ⊢
      cases hx : x.status <;> simp [hx, ih]
  rw [removeUploadedStoreItems, CursorList.forNext_reset, hsift, Bool.true_and]
  exact ⟨_, rfl, by simp⟩

/-! ## The body -/

theorem Window.Appended.refl {v : Window} : v.Appended v [] :=
  ⟨Nat.zero_le _, rfl, rfl, rfl, by simp⟩

/-- A tuple that failed appended nothing. -/
theorem Window.Appended.of_kept {v v' : Window} (h : v.Kept v') (hp : v'.position = v.position)
    (hr : v'.remaining = v.remaining) : v.Appended v' [] :=
  ⟨Nat.zero_le _, by simp [hp], by simp [hr], h.length, by rw [hp, h.take, List.append_nil]⟩

/-- `text` is the tuple of the item in a request of this turn. -/
def IsTupleOf (env : RoundEnv) (boundary : Boundary) (item : ItemRef) (text : Bytes) : Prop :=
  ∃ t, tupleOf (env.tuple item) boundary item.item = some t ∧ t.text = .ok text

theorem tupleOf_isSome {item : Item} (h : item.validate = .ok ()) (env : TupleEnv) (boundary : Boundary) :
    ∃ t, tupleOf env boundary item = some t := by
  cases item with
  | customData c =>
    obtain ⟨⟨b, hb⟩, -⟩ := CustomData.of_validate h
    simp only [tupleOf]
    split
    · simp_all
    · exact ⟨_, rfl⟩
  | _ => exact ⟨_, rfl⟩

/-- Adding an item appends its tuple and marks it, or appends nothing and leaves it. -/
theorem addSelectedItem_spec (env : RoundEnv) (boundary : Boundary) {b : BodyState} (hb : b.window.Fits)
    (x : StoreItem w) : ∃ b' y, addSelectedItem env boundary b x = some (b', y) ∧
      ((∃ text, IsTupleOf env boundary x.item text ∧ b.window.Appended b'.window text ∧
          b'.items = b.items ++ [x.item] ∧ y = x.setStatus .processed) ∨
        (b.window.Appended b'.window [] ∧ b'.items = b.items ∧ y = x)) := by
  obtain ⟨t, ht⟩ := tupleOf_isSome x.valid (env.tuple x.item) boundary
  obtain ⟨code, v, hrun, h⟩ := addTupleWithCallback_spec t hb
  simp only [addSelectedItem, addItemToBuffer, ht, Option.bind_some, hrun]
  rcases h with ⟨text, htext, rfl, happ⟩ | ⟨e, rfl, hkept, hp, hr, -⟩
  · exact ⟨_, _, rfl, .inl ⟨text, ⟨t, ht, htext⟩, happ, rfl, rfl⟩⟩
  · exact ⟨_, _, rfl, .inr ⟨.of_kept hkept hp hr, rfl, rfl⟩⟩

/-- The body takes a selected item or leaves it. -/
def Building (x y : StoreItem w) : Prop := y = x ∨ (x.status = .selected ∧ y = x.setStatus .processed)

theorem Building.item_eq {x y : StoreItem w} (h : Building x y) : y.item = x.item := by
  rcases h with rfl | ⟨-, rfl⟩ <;> rfl

/-- The items on their way. -/
def processedItems (xs : List (StoreItem w)) : List ItemRef :=
  (xs.filter fun x => x.status == .processed).map fun x => x.item

theorem processedItems_cons_of_eq {x : StoreItem w} (xs : List (StoreItem w)) (h : x.status = .processed) :
    processedItems (x :: xs) = x.item :: processedItems xs := by simp [processedItems, h]

theorem processedItems_cons_of_ne {x : StoreItem w} (xs : List (StoreItem w)) (h : x.status ≠ .processed) :
    processedItems (x :: xs) = processedItems xs := by simp [processedItems, h]

/-- The loop appends the tuples of the items it marks, in their order. -/
theorem addSelectedItems_sweep (env : RoundEnv) (boundary : Boundary) :
    ∀ (xs : List (StoreItem w)) (b : BodyState), b.window.Fits → (∀ x ∈ xs, x.status ≠ .processed) →
      ∃ b' ys texts,
        CursorList.sweepM
          (fun b x => if x.status == .selected then addSelectedItem env boundary b x else some (b, x))
          b xs = some (b', ys) ∧
        List.Forall₂ Building xs ys ∧ b'.items = b.items ++ processedItems ys ∧
        List.Forall₂ (IsTupleOf env boundary) (processedItems ys) texts ∧
        b.window.Appended b'.window texts.flatten
  | [], b, _, _ => ⟨b, [], [], rfl, .nil, by simp [processedItems], .nil, .refl⟩
  | x :: xs, b, hb, hxs => by
    have hx := hxs x List.mem_cons_self
    have htail : ∀ z ∈ xs, z.status ≠ .processed := fun z hz => hxs z (List.mem_cons_of_mem x hz)
    by_cases hsel : x.status = .selected
    · obtain ⟨b₁, y, hadd, h⟩ := addSelectedItem_spec env boundary hb x
      have hfits : b₁.window.Fits := by
        rcases h with ⟨_, -, happ, -⟩ | ⟨happ, -⟩ <;> exact happ.fits hb
      obtain ⟨b', ys, texts, hrun, hbuild, hitems, htexts, happ'⟩ :=
        addSelectedItems_sweep env boundary xs b₁ hfits htail
      have hsweep : CursorList.sweepM
          (fun b x => if x.status == .selected then addSelectedItem env boundary b x else some (b, x))
          b (x :: xs) = some (b', y :: ys) := by
        simp only [CursorList.sweepM, hsel, beq_self_eq_true, if_true, hadd, Option.bind_eq_bind,
          Option.bind_some, hrun]
        rfl
      rcases h with ⟨text, htext, happ, hit, rfl⟩ | ⟨happ, hit, rfl⟩
      · refine ⟨b', _, text :: texts, hsweep, .cons (.inr ⟨hsel, rfl⟩) hbuild, ?_, ?_, happ.trans happ'⟩
        · rw [processedItems_cons_of_eq _ rfl, hitems, hit, List.append_assoc]; rfl
        · rw [processedItems_cons_of_eq _ rfl]
          exact .cons htext htexts
      · refine ⟨b', _, texts, hsweep, .cons (.inl rfl) hbuild, ?_, ?_, happ.trans happ'⟩
        · rw [processedItems_cons_of_ne _ hx, hitems, hit]
        · rwa [processedItems_cons_of_ne _ hx]
    · obtain ⟨b', ys, texts, hrun, hbuild, hitems, htexts, happ'⟩ :=
        addSelectedItems_sweep env boundary xs b hb htail
      refine ⟨b', x :: ys, texts, ?_, .cons (.inl rfl) hbuild, ?_, ?_, happ'⟩
      · simp only [CursorList.sweepM, beq_eq_false_iff_ne.2 hsel, Bool.false_eq_true, if_false,
          Option.bind_eq_bind, Option.bind_some, hrun]
        rfl
      · rw [processedItems_cons_of_ne _ hx, hitems]
      · rwa [processedItems_cons_of_ne _ hx]

/-- From the check to the end of the body, an item is selected or not, and, if so, added or not. -/
def Prepared (x z : StoreItem w) : Prop := ∃ y, Selection x y ∧ Building y z

theorem Prepared.item_eq {x z : StoreItem w} (h : Prepared x z) : z.item = x.item := by
  obtain ⟨y, hxy, hyz⟩ := h
  rcases hxy with rfl | rfl <;> exact hyz.item_eq

theorem forall₂_comp {α : Type} {R S : α → α → Prop} {xs ys zs : List α} (h : List.Forall₂ R xs ys)
    (h' : List.Forall₂ S ys zs) : List.Forall₂ (fun x z => ∃ y, R x y ∧ S y z) xs zs := by
  induction h generalizing zs with
  | nil => cases h'; exact .nil
  | cons hxy _ ih =>
    cases h' with
    | cons hyz h' => exact .cons ⟨_, hxy, hyz⟩ (ih h')

theorem forall₂_exists_left {α : Type} {R : α → α → Prop} {xs ys : List α} (h : List.Forall₂ R xs ys)
    {y : α} (hy : y ∈ ys) : ∃ x ∈ xs, R x y := by
  induction h with
  | nil => cases hy
  | cons hxy _ ih =>
    rcases List.mem_cons.1 hy with rfl | hy
    · exact ⟨_, List.mem_cons_self, hxy⟩
    · obtain ⟨x, hx, hR⟩ := ih hy
      exact ⟨x, List.mem_cons_of_mem _ hx, hR⟩

/-- The body of a request: a non-empty run of tuples and the closing delimiter. -/
structure IsBodyOf (env : RoundEnv) (boundary : Boundary) (items : List ItemRef) (body : Bytes) : Prop where
  nonempty : items ≠ []
  tuples : ∃ texts, List.Forall₂ (IsTupleOf env boundary) items texts ∧
    body = texts.flatten ++ closeText boundary

theorem prepareBodyForStore_spec (env : RoundEnv) (boundary : Boundary) (max : BitVec w) {s : Store w}
    (hs : AllIdle s) : ∃ result s', prepareBodyForStore env boundary max s = some (result, s') ∧
      List.Forall₂ Building (selectStoreItemsToExchange max s).2.itemList.seq s'.itemList.seq ∧
      ∀ body items, result = .ok (body, items) →
        items = processedItems s'.itemList.seq ∧ IsBodyOf env boundary items body ∧
          body.length ≤ (selectStoreItemsToExchange max s).1.toNat := by
  have hsel := selectStoreItemsToExchange_selection max s
  have hunprocessed : ∀ y ∈ (selectStoreItemsToExchange max s).2.itemList.seq, y.status ≠ .processed := by
    intro y hy
    obtain ⟨x, hx, hxy⟩ := forall₂_exists_left hsel hy
    rcases hxy with rfl | rfl
    · rcases hs _ hx with h | h <;> simp [h]
    · simp
  have hreset : (selectStoreItemsToExchange max s).2.itemList =
      (selectStoreItemsToExchange max s).2.itemList.reset := rfl
  simp only [prepareBodyForStore]
  set size := (selectStoreItemsToExchange max s).1.toNat
  rcases hbuffer : mclMemoryMalloc env.allocated size with _ | buffer
  · refine ⟨_, _, rfl, List.forall₂_same.2 fun _ _ => .inl rfl, ?_⟩
    intro _ _ h
    cases h
  obtain ⟨-, -, rfl⟩ := mclMemoryMalloc_eq_some.1 hbuffer
  have hwindow : (⟨List.replicate size 0, 0, size⟩ : Window) = emptyWindow size := rfl
  have hfits := fits_emptyWindow size
  obtain ⟨b, ys, texts, hrun, hbuild, hitems, htexts, happ⟩ := addSelectedItems_sweep env boundary
    (selectStoreItemsToExchange max s).2.itemList.seq ⟨emptyWindow size, []⟩ hfits hunprocessed
  have hadd : addSelectedItems env boundary ⟨emptyWindow size, []⟩ (selectStoreItemsToExchange max s).2 =
      some (b, { (selectStoreItemsToExchange max s).2 with itemList := .ofList ys }) := by
    rw [addSelectedItems, hreset, CursorList.whileFind_reset, hrun]
    rfl
  simp only [hwindow, hadd, Option.bind_eq_bind, Option.bind_some]
  split_ifs with hrem
  · -- something was added, so the texts are not all empty
    obtain ⟨code, v, hclose, h⟩ := close_spec boundary (happ.fits hfits)
    have hne : processedItems ys ≠ [] := by
      intro hnil
      rw [hnil] at htexts
      cases htexts
      exact hrem happ.remaining.symm
    rw [List.nil_append] at hitems
    rcases h with ⟨rfl, hclosed⟩ | ⟨rfl, -, -⟩
    · refine ⟨_, _, by rw [hclose]; rfl, hbuild, ?_⟩
      intro body items h
      simp only [Except.ok.injEq, Prod.mk.injEq] at h
      obtain ⟨rfl, rfl⟩ := h
      obtain ⟨hle, -, -, htake⟩ := front_of_emptyWindow (happ.trans hclosed)
      refine ⟨hitems, ⟨by rwa [hitems], texts, by rwa [hitems], htake⟩, ?_⟩
      rw [htake]
      exact hle
    · refine ⟨_, _, by rw [hclose]; rfl, hbuild, ?_⟩
      intro _ _ h
      cases h
  · refine ⟨_, _, rfl, hbuild, ?_⟩
    intro _ _ h
    cases h

/-! ## One turn -/

/-- The contents of the requests answered with 200, in the order they were sent. -/
def delivered (requests : List Request) : List ItemRef :=
  (requests.filter fun r => r.status == 200).flatMap fun r => r.items

@[simp] theorem delivered_nil : delivered [] = [] := rfl

theorem delivered_append (rs rs' : List Request) : delivered (rs ++ rs') = delivered rs ++ delivered rs' := by
  simp [delivered]

/-- From `s` to `s'` the store kept its order and lost exactly what was delivered. -/
structure Exchanged (s s' : Store w) (requests : List Request) : Prop where
  sublist : s'.items.Sublist s.items
  perm : s.items.Perm (s'.items ++ delivered requests)
  bodies : ∀ r ∈ requests, IsBodyOf r.env r.boundary r.items r.body

theorem Exchanged.of_items_eq {s s' : Store w} {requests : List Request} (h : s'.items = s.items)
    (hd : delivered requests = []) (hb : ∀ r ∈ requests, IsBodyOf r.env r.boundary r.items r.body) :
    Exchanged s s' requests :=
  ⟨by rw [h], by rw [h, hd, List.append_nil], hb⟩

theorem Exchanged.trans {s s' s'' : Store w} {rs rs' : List Request} (h : Exchanged s s' rs)
    (h' : Exchanged s' s'' rs') : Exchanged s s'' (rs ++ rs') := by
  refine ⟨h'.sublist.trans h.sublist, ?_, fun r hr => ?_⟩
  · rw [delivered_append]
    calc s.items.Perm (s'.items ++ delivered rs) := h.perm
      _ |>.Perm (s''.items ++ delivered rs' ++ delivered rs) := h'.perm.append_right _
      _ |>.Perm (s''.items ++ (delivered rs' ++ delivered rs)) := by rw [List.append_assoc]
      _ |>.Perm (s''.items ++ (delivered rs ++ delivered rs')) := List.perm_append_comm.append_left _
  · rcases List.mem_append.1 hr with hr | hr
    · exact h.bodies r hr
    · exact h'.bodies r hr

theorem remaining_items (xs : List (StoreItem w)) :
    (remaining xs).map (fun x => x.item) = (xs.filter fun x => x.status != .processed).map fun x => x.item := by
  rw [remaining, List.map_map]
  refine List.map_congr_left fun x _ => ?_
  simp only [Function.comp]
  split <;> rfl

theorem items_perm_remaining (xs : List (StoreItem w)) :
    (xs.map fun x => x.item).Perm ((remaining xs).map (fun x => x.item) ++ processedItems xs) := by
  rw [remaining_items, processedItems, ← List.map_append]
  refine (List.Perm.map _ ?_).symm
  have h := List.filter_append_perm (fun x : StoreItem w => x.status != .processed) xs
  simpa only [bne, Bool.not_not] using h

theorem idle_of_mem_remaining {xs : List (StoreItem w)} {y : StoreItem w} (h : y ∈ remaining xs) :
    Idle y := by
  simp only [remaining, List.mem_map, List.mem_filter] at h
  obtain ⟨x, ⟨-, hx⟩, rfl⟩ := h
  cases hs : x.status <;> simp [hs, Idle] at hx ⊢

theorem remaining_ne_nil {xs : List (StoreItem w)} (h : fullyProcessed xs = false) : remaining xs ≠ [] := by
  simp only [fullyProcessed, List.all_eq_false, Bool.or_eq_true, beq_iff_eq, not_or] at h
  obtain ⟨x, hx, hp, -⟩ := h
  intro hnil
  simp only [remaining, List.map_eq_nil_iff, List.filter_eq_nil_iff] at hnil
  exact hnil x hx (by simpa using hp)

/-- The request of one turn: on `MCL_OK` it was answered with 200 and carries the processed items. -/
theorem sendStore_spec (env : RoundEnv) (max : BitVec w) {s : Store w} (hs : AllIdle s) :
    ∃ code s' requests, sendStore env max s = some (code, s', requests) ∧
      List.Forall₂ Prepared s.itemList.seq s'.itemList.seq ∧
      (∀ r ∈ requests, IsBodyOf r.env r.boundary r.items r.body) ∧
      ((code = .ok () ∧ processedItems s'.itemList.seq ≠ [] ∧
          delivered requests = processedItems s'.itemList.seq ∧
          List.Forall₂ Building (selectStoreItemsToExchange max s).2.itemList.seq s'.itemList.seq) ∨
        ∃ e, code = .error e ∧ delivered requests = []) := by
  have hrefl : List.Forall₂ Prepared s.itemList.seq s.itemList.seq :=
    List.forall₂_same.2 fun x _ => ⟨x, .inl rfl, .inl rfl⟩
  unfold sendStore
  cases env.boundary with
  | error e => exact ⟨_, s, [], rfl, hrefl, by simp, .inr ⟨e, rfl, rfl⟩⟩
  | ok boundary =>
    obtain ⟨result, s', hprep, hbuild, hbody⟩ := prepareBodyForStore_spec env boundary max hs
    have hrel : List.Forall₂ Prepared s.itemList.seq s'.itemList.seq :=
      forall₂_comp (selectStoreItemsToExchange_selection max s) hbuild
    simp only [hprep, Option.bind_eq_bind, Option.bind_some]
    rcases result with e | ⟨body, items⟩
    · exact ⟨_, s', [], rfl, hrel, by simp, .inr ⟨e, rfl, rfl⟩⟩
    · obtain ⟨hitems, hb, -⟩ := hbody body items rfl
      cases env.send with
      | error e => exact ⟨_, s', [], rfl, hrel, by simp, .inr ⟨e, rfl, rfl⟩⟩
      | ok status =>
        refine ⟨_, s', _, rfl, hrel, by simpa using hb, ?_⟩
        by_cases hst : status = 200
        · subst hst
          exact .inl ⟨rfl, hitems ▸ hb.nonempty, by simp [delivered, hitems], hbuild⟩
        · cases hcode : httpResponseGetStatus status with
          | ok u => exact absurd (httpResponseGetStatus_ok hcode) hst
          | error e => exact .inr ⟨e, rfl, by simp [delivered, hst]⟩

theorem items_nonempty_iff {s : Store w} : s.items = [] ↔ s.itemList.seq = [] := by simp [Store.items]

/-- One turn of the loop. It either goes on, with fewer items and some to go, or ends with all items
ready, and with `MCL_OK` exactly if none is left. -/
theorem exchangeRound_spec (env : RoundEnv) (max : BitVec w) {s : Store w} (hs : AllIdle s)
    (hne : s.items ≠ []) : ∃ code fully s' requests,
      exchangeRound env max (.ok ()) s = some (code, fully, s', requests) ∧ Exchanged s s' requests ∧
      ((code = .ok () ∧ fully = false ∧ AllIdle s' ∧ s'.items ≠ [] ∧ s'.items.length < s.items.length) ∨
        (¬(code = .ok () ∧ fully = false) ∧ AllReady s' ∧ (code = .ok () ↔ s'.items = []))) := by
  obtain ⟨code, s₁, requests, hsend, hrel, hbodies, hcode⟩ := sendStore_spec env max hs
  have hitems : s₁.items = s.items := items_eq_of_forall₂ (fun _ _ => Prepared.item_eq) hrel
  simp only [exchangeRound, hsend, Option.bind_eq_bind, Option.bind_some]
  rcases hcode with ⟨rfl, hproc, hdel, -⟩ | ⟨e, rfl, hdel⟩
  · obtain ⟨s₂, hremove, hseq⟩ := removeUploadedStoreItems_eq s₁
    have hsub : s₂.items.Sublist s.items := by
      rw [← hitems, Store.items, hseq, remaining_items]
      exact List.filter_sublist.map _
    have hperm : s.items.Perm (s₂.items ++ delivered requests) := by
      rw [← hitems, hdel, Store.items, Store.items, hseq]
      exact items_perm_remaining _
    have hlt : s₂.items.length < s.items.length := by
      have := hperm.length_eq
      have := List.length_pos_of_ne_nil (hdel ▸ hproc)
      rw [List.length_append] at *
      omega
    simp only [scanStoreAfterExchange, hremove, Option.bind_eq_bind, Option.bind_some]
    cases hfull : fullyProcessed s₁.itemList.seq with
    | false =>
      have hrem : s₂.items ≠ [] := by
        rw [Ne, items_nonempty_iff, hseq]
        exact remaining_ne_nil hfull
      exact ⟨_, _, s₂, requests, by simp, ⟨hsub, hperm, hbodies⟩,
        .inl ⟨rfl, rfl, fun y hy => idle_of_mem_remaining (hseq ▸ hy), hrem, hlt⟩⟩
    | true =>
      by_cases hcount : s₂.itemList.count = 0
      · have hnil : s₂.itemList.seq = [] := List.length_eq_zero_iff.1 hcount
        have hready : AllReady s₂ := fun y hy => by rw [hnil] at hy; cases hy
        exact ⟨.ok (), true, s₂, requests, by simp [hcount], ⟨hsub, hperm, hbodies⟩,
          .inr ⟨by simp, hready, by simp [items_nonempty_iff, hnil]⟩⟩
      · -- only items too large are left: they are reverted and reported
        obtain ⟨s₃, hrevert, hitems₃, hready⟩ := revertStoreItemStatus_spec s₂
        have hne₃ : s₃.items ≠ [] := by
          rw [hitems₃, Ne, items_nonempty_iff]
          exact fun h => hcount (by simp [CursorList.count, h])
        exact ⟨.error .itemExceedsMaxHttpRequestSize, true, s₃, requests, by simp [hcount, hrevert],
          ⟨hitems₃ ▸ hsub, hitems₃ ▸ hperm, hbodies⟩, .inr ⟨by simp, hready, by simp [hne₃]⟩⟩
  · obtain ⟨s₂, hrevert, hitems₂, hready⟩ := revertStoreItemStatus_spec s₁
    rw [hitems] at hitems₂
    exact ⟨.error e, false, s₂, requests, by simp [scanStoreAfterExchange, hrevert],
      .of_items_eq hitems₂ hdel hbodies, .inr ⟨by simp, hready, by simp [hitems₂, hne]⟩⟩

/-! ## The whole exchange -/

theorem exchangeLoop_spec (env : Nat → RoundEnv) (max : BitVec w) (turns k : Nat) {s : Store w}
    (hs : AllIdle s) (hne : s.items ≠ []) (hturns : s.items.length < turns) :
    ∃ code s' requests, exchangeLoop env max turns k (.ok ()) s = some (code, s', requests) ∧
      Exchanged s s' requests ∧ AllReady s' ∧ (code = .ok () ↔ s'.items = []) := by
  induction turns generalizing k s with
  | zero => omega
  | succ turns ih =>
    obtain ⟨code, fully, s₁, requests, hround, hex, h⟩ := exchangeRound_spec (env k) max hs hne
    simp only [exchangeLoop, hround, Option.bind_eq_bind, Option.bind_some]
    rcases h with ⟨rfl, rfl, hidle, hne₁, hlt⟩ | ⟨hstop, hready, hok⟩
    · obtain ⟨code, s', requests', hloop, hex', h⟩ := ih (k + 1) hidle hne₁ (by omega)
      exact ⟨code, s', requests ++ requests', by simp [hloop], hex.trans hex', h⟩
    · refine ⟨code, s₁, requests, ?_, hex, hready, hok⟩
      split
      · exact absurd ⟨rfl, rfl⟩ hstop
      · rfl

/-- Every exchange of a store whose items are ready ends, with its items ready again. -/
theorem exchange_spec (env : Nat → RoundEnv) (max : BitVec w) {s : Store w} (hs : AllReady s) :
    ∃ code s' requests, exchange env max s = some (code, s', requests) ∧ Exchanged s s' requests ∧
      AllReady s' ∧ (s.items ≠ [] → (code = .ok () ↔ s'.items = [])) := by
  have hitems := checkStoreSize_items max s
  have hcount : (checkStoreSize max s).2.itemList.count = (checkStoreSize max s).2.items.length := by
    simp [CursorList.count, Store.items]
  unfold exchange
  cases hcode : (checkStoreSize max s).1 with
  | error e =>
    obtain ⟨s', hrevert, hitems', hready⟩ := revertStoreItemStatus_spec (checkStoreSize max s).2
    rw [hitems] at hitems'
    refine ⟨.error e, s', [], ?_, .of_items_eq hitems' rfl (by simp), hready, fun hne => by simp [hitems', hne]⟩
    simp [exchangeLoop, exchangeRound, scanStoreAfterExchange, hcode, hrevert]
  | ok u =>
    have hne : s.items ≠ [] := by
      intro hnil
      rw [checkStoreSize_storeIsEmpty hnil] at hcode
      cases hcode
    rw [← hitems] at hne
    obtain ⟨code, s', requests, hloop, hex, hready, hok⟩ := exchangeLoop_spec env max
      ((checkStoreSize max s).2.itemList.count + 1) 0 (hs.checkStoreSize max) hne (by omega)
    refine ⟨code, s', requests, by simpa [hcode] using hloop, ?_, hready, fun _ => hok⟩
    exact ⟨hitems ▸ hex.sublist, hitems ▸ hex.perm, hex.bodies⟩

end MindConnect
