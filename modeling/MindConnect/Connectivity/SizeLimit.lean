import MindConnect.Connectivity.StoreRun
import MindConnect.Lib.FirstFit

/-!
# The size limit of a request

A selection is first fit (`FirstFit.run`) over the sizes that `_check_store_size` computed, with the
payload limit less the closing delimiter as its budget. `roundStart_withinLimit` follows a store through
the turns of an exchange. The sum in the check is one of `mcl_size_t`: an item that passes the check only
because the sum wrapped around (`SizesFit` excludes it) is too large for every turn.
-/

namespace MindConnect

variable {w : Nat}

/-! ## The selection is first fit -/

/-- A subtraction that must not wrap around. -/
def checkedSub (a b : BitVec w) : Option (BitVec w) := if b ≤ a then some (a - b) else none

/-- `_select_store_items_to_exchange` with its three subtractions checked. -/
def selectChecked (max : BitVec w) (store : Store w) : Option (BitVec w × Store w) := do
  let remaining ← checkedSub max (multipartGetOverheadSize w)
  let (remaining, xs) ← CursorList.sweepM
    (fun remaining x =>
      if x.itemSize ≤ remaining then (checkedSub remaining x.itemSize).map fun r => (r, x.setStatus .selected)
      else some (remaining, x))
    remaining store.itemList.seq
  let needed ← checkedSub max remaining
  return (needed, { store with itemList := .ofList xs })

def natSize (x : StoreItem w) : Nat := x.itemSize.toNat

/-- What the selection makes of an item that was taken or not. -/
def marked (y : StoreItem w × Bool) : StoreItem w := if y.2 then y.1.setStatus .selected else y.1

/-- The loop is first fit, and its subtraction is guarded. -/
theorem selection_firstFit (remaining : BitVec w) (xs : List (StoreItem w)) :
    ∃ left : BitVec w, left.toNat = (FirstFit.run natSize remaining.toNat xs).1 ∧
      CursorList.sweep
        (fun remaining x =>
          if x.itemSize ≤ remaining then (remaining - x.itemSize, x.setStatus .selected) else (remaining, x))
        remaining xs = (left, (FirstFit.run natSize remaining.toNat xs).2.map marked) ∧
      CursorList.sweepM
        (fun remaining x =>
          if x.itemSize ≤ remaining then
            (checkedSub remaining x.itemSize).map fun r => (r, x.setStatus .selected)
          else some (remaining, x))
        remaining xs = some (left, (FirstFit.run natSize remaining.toNat xs).2.map marked) := by
  induction xs generalizing remaining with
  | nil => exact ⟨remaining, rfl, rfl, rfl⟩
  | cons x xs ih =>
    by_cases h : x.itemSize ≤ remaining
    · obtain ⟨left, hleft, hsweep, hchecked⟩ := ih (remaining - x.itemSize)
      have hle : natSize x ≤ remaining.toNat := h
      have hsub : checkedSub remaining x.itemSize = some (remaining - x.itemSize) := if_pos h
      rw [BitVec.toNat_sub_of_le h] at hleft hsweep hchecked
      rw [FirstFit.run_cons_of_le natSize hle]
      refine ⟨left, hleft, ?_, ?_⟩
      · simp [CursorList.sweep, h, hsweep, marked, natSize]
      · simp [CursorList.sweepM, h, hsub, hchecked, marked, natSize]
    · obtain ⟨left, hleft, hsweep, hchecked⟩ := ih remaining
      have hlt : remaining.toNat < natSize x := Nat.lt_of_not_le h
      rw [FirstFit.run_cons_of_lt natSize hlt]
      refine ⟨left, hleft, ?_, ?_⟩
      · simp [CursorList.sweep, h, hsweep, marked]
      · simp [CursorList.sweepM, h, hchecked, marked]

/-! ## What a turn relies on -/

/-- The check counts the item as one that fits. -/
def Accepted (max : BitVec w) (item : Item) : Prop := ¬ max < multipartGetOverheadSize w + getItemSize w item

/-- No item of the store is accepted only because its size and the overhead wrapped around. -/
def SizesFit (max : BitVec w) (s : Store w) : Prop :=
  ∀ item ∈ s.items, Accepted max item.item → closeLength + (getItemSize w item.item).toNat < 2 ^ w

/-- The store at the beginning of a turn that can send something. -/
structure Sized (max : BitVec w) (s : Store w) : Prop where
  computed : ∀ x ∈ s.itemList.seq, x.itemSize = getItemSize w x.item.item
  idle : AllIdle s
  ignored_iff : ∀ x ∈ s.itemList.seq, x.status = .ignored ↔ ¬ Accepted max x.item.item
  ready : ∃ x ∈ s.itemList.seq, x.status = .ready

/-- The stores at the beginning of the turns of one exchange that passed the check. -/
inductive RoundStart (max : BitVec w) (s₀ : Store w) : Store w → Prop where
  | first : (checkStoreSize max s₀).1 = .ok () → RoundStart max s₀ (checkStoreSize max s₀).2
  | next {env : RoundEnv} {s s' : Store w} {requests : List Request} : RoundStart max s₀ s →
      exchangeRound env max (.ok ()) s = some (.ok (), false, s', requests) → RoundStart max s₀ s'

theorem checkStoreSize_ok {max : BitVec w} {s : Store w} (h : (checkStoreSize max s).1 = .ok ()) :
    ∃ x ∈ s.itemList.seq, Accepted max x.item.item := by
  have hsweep : ∀ (xs : List (StoreItem w)) (b : Bool), (CursorList.sweep
      (fun allIgnored x =>
        let x := { x with itemSize := getItemSize w x.item.item }
        if max < multipartGetOverheadSize w + x.itemSize then (allIgnored, x.setStatus .ignored)
        else (false, x)) b xs).1 = false → b = false ∨ ∃ x ∈ xs, Accepted max x.item.item := by
    intro xs
    induction xs with
    | nil => exact fun b h => .inl h
    | cons x xs ih =>
      intro b h
      by_cases hx : max < multipartGetOverheadSize w + getItemSize w x.item.item
      · simp only [CursorList.sweep, hx, if_true] at h
        rcases ih b h with hb | ⟨y, hy, hacc⟩
        · exact .inl hb
        · exact .inr ⟨y, List.mem_cons_of_mem x hy, hacc⟩
      · exact .inr ⟨x, List.mem_cons_self, hx⟩
  unfold checkStoreSize at h
  split_ifs at h with hcount
  simp only [CursorList.whileNext_reset] at h
  split_ifs at h with hall
  rcases hsweep _ true (Bool.eq_false_iff.2 hall) with htrue | hacc
  · cases htrue
  · exact hacc

theorem checkStoreSize_sized {max : BitVec w} {s : Store w} (hs : AllReady s)
    (h : (checkStoreSize max s).1 = .ok ()) : Sized max (checkStoreSize max s).2 := by
  have hcheck : ∀ x ∈ s.itemList.seq, (checked max x).status = .ignored ↔ ¬ Accepted max x.item.item := by
    intro x hx
    simp only [checked, Accepted, not_not]
    split <;> rename_i hlt
    · exact ⟨fun _ => hlt, fun _ => rfl⟩
    · simp [hs x hx, hlt]
  refine ⟨?_, hs.checkStoreSize max, ?_, ?_⟩
  · intro y hy
    rw [checkStoreSize_seq] at hy
    obtain ⟨x, -, rfl⟩ := List.mem_map.1 hy
    simp only [checked]
    split <;> rfl
  · intro y hy
    rw [checkStoreSize_seq] at hy
    obtain ⟨x, hx, rfl⟩ := List.mem_map.1 hy
    rw [checked_item]
    exact hcheck x hx
  · obtain ⟨x, hx, hacc⟩ := checkStoreSize_ok h
    have hmem : checked max x ∈ (checkStoreSize max s).2.itemList.seq := by
      rw [checkStoreSize_seq]
      exact List.mem_map_of_mem hx
    refine ⟨_, hmem, ((hs.checkStoreSize max) _ hmem).resolve_right fun hig => ?_⟩
    exact (hcheck x hx).1 hig hacc

/-- A turn that goes on leaves what was selected and not sent. -/
theorem exchangeRound_continues {env : RoundEnv} {max : BitVec w} {s s' : Store w} {requests : List Request}
    (hs : AllIdle s) (h : exchangeRound env max (.ok ()) s = some (.ok (), false, s', requests)) :
    ∃ xs, List.Forall₂ Building (selectStoreItemsToExchange max s).2.itemList.seq xs ∧
      s'.itemList.seq = MindConnect.remaining xs ∧ fullyProcessed xs = false := by
  obtain ⟨code, s₁, requests₁, hsend, -, -, hcode⟩ := sendStore_spec env max hs
  simp only [exchangeRound, hsend, Option.bind_eq_bind, Option.bind_some] at h
  rcases hcode with ⟨rfl, -, -, hbuild⟩ | ⟨e, rfl, -⟩
  · obtain ⟨s₂, hremove, hseq⟩ := removeUploadedStoreItems_eq s₁
    simp only [scanStoreAfterExchange, hremove, Option.bind_eq_bind, Option.bind_some] at h
    cases hfull : fullyProcessed s₁.itemList.seq with
    | false =>
      simp only [hfull, Bool.false_eq_true, false_and, if_false, Option.pure_def, Option.bind_some,
        Option.some.injEq, Prod.mk.injEq] at h
      obtain ⟨-, -, rfl, -⟩ := h
      exact ⟨_, hbuild, hseq, hfull⟩
    | true =>
      obtain ⟨s₃, hrevert, -⟩ := revertStoreItemStatus_spec s₂
      simp only [hfull, true_and, hrevert] at h
      split_ifs at h <;> simp at h
  · obtain ⟨s₂, hrevert, -⟩ := revertStoreItemStatus_spec s₁
    simp [scanStoreAfterExchange, hrevert] at h

/-! ## Sizes as numbers -/

theorem toNat_overhead {max : BitVec w} (h : closeLength ≤ max.toNat) :
    (multipartGetOverheadSize w).toNat = closeLength := by
  have := max.isLt
  rw [multipartGetOverheadSize, BitVec.toNat_ofNat, Nat.mod_eq_of_lt (by omega)]

/-- An item that passes the check and does not wrap around fits. -/
theorem Accepted.le {max : BitVec w} {item : Item} (h : Accepted max item)
    (hsize : closeLength + (getItemSize w item).toNat < 2 ^ w) :
    closeLength + (getItemSize w item).toNat ≤ max.toNat := by
  have hover : (multipartGetOverheadSize w).toNat = closeLength := by
    rw [multipartGetOverheadSize, BitVec.toNat_ofNat, Nat.mod_eq_of_lt (by omega)]
  have hle := Nat.le_of_not_lt (show ¬ max.toNat < (multipartGetOverheadSize w + getItemSize w item).toNat from h)
  rwa [BitVec.toNat_add, hover, Nat.mod_eq_of_lt hsize] at hle

/-- An item that does not pass the check does not fit. -/
theorem lt_of_not_accepted {max : BitVec w} {item : Item} (hmax : closeLength ≤ max.toNat)
    (h : ¬ Accepted max item) : max.toNat < closeLength + (getItemSize w item).toNat := by
  have hlt : max.toNat < (multipartGetOverheadSize w + getItemSize w item).toNat := not_not.1 h
  rw [BitVec.toNat_add, toNat_overhead hmax] at hlt
  exact Nat.lt_of_lt_of_le hlt (Nat.mod_le _ _)

theorem Sized.closeLength_le {max : BitVec w} {s : Store w} (hs : Sized max s) (hfit : SizesFit max s) :
    closeLength ≤ max.toNat := by
  obtain ⟨x, hx, hready⟩ := hs.ready
  have hacc : Accepted max x.item.item := by
    by_contra h
    rw [← hs.ignored_iff x hx, hready] at h
    cases h
  have := hacc.le (hfit x.item (List.mem_map_of_mem hx) hacc)
  omega

/-! ## What a turn keeps -/

/-- The budget of the selection. -/
def budget (max : BitVec w) : Nat := max.toNat - closeLength

/-- The run of first fit that the selection is. -/
def selectionRun (max : BitVec w) (s : Store w) : Nat × List (StoreItem w × Bool) :=
  FirstFit.run natSize (budget max) s.itemList.seq

theorem selectStoreItemsToExchange_spec {max : BitVec w} (hmax : closeLength ≤ max.toNat) (s : Store w) :
    (selectStoreItemsToExchange max s).1.toNat = max.toNat - (selectionRun max s).1 ∧
      (selectStoreItemsToExchange max s).2.itemList.seq = (selectionRun max s).2.map marked ∧
      selectChecked max s = some (selectStoreItemsToExchange max s) := by
  have hover := toNat_overhead hmax
  have hle : multipartGetOverheadSize w ≤ max := by
    show (multipartGetOverheadSize w).toNat ≤ max.toNat
    omega
  have hbudget : (max - multipartGetOverheadSize w).toNat = budget max := by
    rw [BitVec.toNat_sub_of_le hle, hover, budget]
  obtain ⟨left, hleft, hsweep, hchecked⟩ :=
    selection_firstFit (max - multipartGetOverheadSize w) s.itemList.seq
  rw [hbudget] at hleft hsweep hchecked
  have hleftmax : left ≤ max := by
    have := FirstFit.left_add_used natSize (budget max) s.itemList.seq
    show left.toNat ≤ max.toNat
    rw [budget] at *
    omega
  have hselect : selectStoreItemsToExchange max s =
      (max - left, { s with itemList := .ofList ((selectionRun max s).2.map marked) }) := by
    simp only [selectStoreItemsToExchange, CursorList.whileNext_reset, hsweep, selectionRun]
    rfl
  refine ⟨?_, ?_, ?_⟩
  · rw [hselect]
    simp only [BitVec.toNat_sub_of_le hleftmax, hleft, selectionRun]
  · rw [hselect]
    simp
  · rw [hselect, selectChecked]
    simp only [checkedSub, hle, if_true, Option.bind_eq_bind, Option.bind_some]
    simp only [checkedSub] at hchecked
    rw [hchecked]
    simp only [hleftmax, if_true, Option.bind_some, selectionRun]
    rfl

/-- What the selection leaves of the items, in terms of those before it. -/
theorem forall₂_marked {max : BitVec w} {s : Store w} {R : StoreItem w → StoreItem w → Prop}
    (h : ∀ y ∈ (selectionRun max s).2, R y.1 (marked y)) :
    List.Forall₂ R s.itemList.seq ((selectionRun max s).2.map marked) := by
  have hfst : (selectionRun max s).2.map Prod.fst = s.itemList.seq := FirstFit.map_fst_run _ _ _
  rw [← hfst, List.forall₂_map_left_iff, List.forall₂_map_right_iff, List.forall₂_same]
  exact h

/-- An ignored item is not selected. -/
theorem Sized.ready_of_taken {max : BitVec w} {s : Store w} (hs : Sized max s)
    (hmax : closeLength ≤ max.toNat) {x : StoreItem w} (hx : x ∈ s.itemList.seq)
    (htaken : (x, true) ∈ (selectionRun max s).2) : x.status = .ready := by
  refine (hs.idle x hx).resolve_right fun hig => ?_
  have hlt := lt_of_not_accepted hmax ((hs.ignored_iff x hx).1 hig)
  have hle := FirstFit.size_le_of_taken natSize htaken
  rw [natSize, hs.computed x hx, budget] at hle
  omega

/-- The sizes of the selected items. -/
def selectedSize (xs : List (StoreItem w)) : Nat :=
  ((xs.filter fun x => x.status == .selected).map natSize).sum

theorem selectedSize_marked {ys : List (StoreItem w × Bool)} (h : ∀ y ∈ ys, Idle y.1) :
    selectedSize (ys.map marked) = FirstFit.used natSize ys := by
  induction ys with
  | nil => rfl
  | cons y ys ih =>
    obtain ⟨x, taken⟩ := y
    have hx : Idle x := h (x, taken) List.mem_cons_self
    have htail := ih fun y hy => h y (List.mem_cons_of_mem _ hy)
    cases taken with
    | true =>
      rw [FirstFit.used_cons_true, ← htail]
      simp [selectedSize, marked, natSize]
    | false =>
      have hne : x.status ≠ .selected := by rcases hx with hx | hx <;> simp [hx]
      rw [FirstFit.used_cons_false, ← htail]
      simp [selectedSize, marked, hne]

theorem Sized.idle_of_mem {max : BitVec w} {s : Store w} (hs : Sized max s) :
    ∀ y ∈ (selectionRun max s).2, y.1 ∈ s.itemList.seq ∧ Idle y.1 := by
  intro y hy
  have hmem : y.1 ∈ (selectionRun max s).2.map Prod.fst := List.mem_map_of_mem hy
  rw [selectionRun, FirstFit.map_fst_run] at hmem
  exact ⟨hmem, hs.idle _ hmem⟩

/-- What holds of one turn: the sizes are those the code computes, no subtraction wraps around, the
buffer is what the selected items need and not above the limit, ignored items are not selected, something
is selected as long as something fits, and whatever the callees answer (so whatever the bytes of the
items are) no write leaves the buffer and the body is not above the limit. -/
structure WithinLimit (max : BitVec w) (s : Store w) : Prop where
  computed : ∀ x ∈ s.itemList.seq, x.itemSize = getItemSize w x.item.item
  noWrap : selectChecked max s = some (selectStoreItemsToExchange max s)
  buffer : (selectStoreItemsToExchange max s).1.toNat =
    closeLength + selectedSize (selectStoreItemsToExchange max s).2.itemList.seq
  limit : closeLength + selectedSize (selectStoreItemsToExchange max s).2.itemList.seq ≤ max.toNat
  ignored : List.Forall₂ (fun x y => x.status = .ignored → y.status = .ignored) s.itemList.seq
    (selectStoreItemsToExchange max s).2.itemList.seq
  progress : (∃ x ∈ s.itemList.seq, x.status ≠ .ignored) →
    ∃ y ∈ (selectStoreItemsToExchange max s).2.itemList.seq, y.status = .selected
  body : ∀ env boundary, ∃ result s', prepareBodyForStore env boundary max s = some (result, s') ∧
    ∀ body items, result = .ok (body, items) → body.length ≤ max.toNat

theorem Sized.withinLimit {max : BitVec w} {s : Store w} (hs : Sized max s) (hfit : SizesFit max s) :
    WithinLimit max s := by
  have hmax := hs.closeLength_le hfit
  obtain ⟨hneeded, hseq, hchecked⟩ := selectStoreItemsToExchange_spec hmax s
  have hsize : selectedSize (selectStoreItemsToExchange max s).2.itemList.seq =
      FirstFit.used natSize (selectionRun max s).2 := by
    rw [hseq]
    exact selectedSize_marked fun y hy => (hs.idle_of_mem y hy).2
  have hbudget : (selectionRun max s).1 + FirstFit.used natSize (selectionRun max s).2 = budget max :=
    FirstFit.left_add_used _ _ _
  rw [budget] at hbudget
  refine ⟨hs.computed, hchecked, by omega, by omega, ?_, ?_, ?_⟩
  · rw [hseq]
    refine forall₂_marked fun y hy hig => ?_
    obtain ⟨x, taken⟩ := y
    cases taken with
    | false => exact hig
    | true =>
      have hready := hs.ready_of_taken hmax (hs.idle_of_mem _ hy).1 hy
      rw [hready] at hig
      cases hig
  · rintro -
    obtain ⟨x, hx, hready⟩ := hs.ready
    have hacc : Accepted max x.item.item := by
      by_contra h
      rw [← hs.ignored_iff x hx, hready] at h
      cases h
    have hle := hacc.le (hfit x.item (List.mem_map_of_mem hx) hacc)
    have hfits : natSize x ≤ budget max := by rw [natSize, hs.computed x hx, budget]; omega
    obtain ⟨z, -, htaken⟩ := FirstFit.exists_taken natSize ⟨x, hx, hfits⟩
    exact ⟨marked (z, true), by rw [hseq]; exact List.mem_map_of_mem htaken, rfl⟩
  · intro env boundary
    obtain ⟨result, s', hprep, -, hbody⟩ := prepareBodyForStore_spec env boundary max hs.idle
    refine ⟨result, s', hprep, fun body items h => ?_⟩
    obtain ⟨-, -, hle⟩ := hbody body items h
    omega

/-! ## From turn to turn -/

/-- What a turn leaves of an item has its item, its size and, ready or ignored, the same claim to be sent. -/
theorem exchangeRound_sized {env : RoundEnv} {max : BitVec w} {s s' : Store w} {requests : List Request}
    (hs : Sized max s) (hfit : SizesFit max s)
    (h : exchangeRound env max (.ok ()) s = some (.ok (), false, s', requests)) : Sized max s' := by
  obtain ⟨xs, hbuild, hseq, hfull⟩ := exchangeRound_continues hs.idle h
  have hmax := hs.closeLength_le hfit
  -- every item left stems from one that was ready or ignored, and an ignored one was left alone
  have horigin : ∀ y ∈ xs, y.status ≠ .processed → ∃ x ∈ s.itemList.seq, y.item = x.item ∧
      y.itemSize = x.itemSize ∧ (y = x ∨ (x.status = .ready ∧ y.status = .selected)) := by
    intro y hy hproc
    obtain ⟨z, hz, hzy⟩ := forall₂_exists_left hbuild hy
    rw [(selectStoreItemsToExchange_spec hmax s).2.1] at hz
    obtain ⟨⟨x, taken⟩, hx, rfl⟩ := List.mem_map.1 hz
    obtain rfl : y = marked (x, taken) := by
      rcases hzy with h | ⟨-, rfl⟩
      · exact h
      · exact absurd rfl hproc
    have hmem := (hs.idle_of_mem _ hx).1
    cases taken with
    | false => exact ⟨x, hmem, rfl, rfl, .inl rfl⟩
    | true => exact ⟨x, hmem, rfl, rfl, .inr ⟨hs.ready_of_taken hmax hmem hx, rfl⟩⟩
  have hleft : ∀ z ∈ s'.itemList.seq, ∃ x ∈ s.itemList.seq, z.item = x.item ∧ z.itemSize = x.itemSize ∧
      z.status = x.status := by
    intro z hz
    rw [hseq] at hz
    simp only [remaining, List.mem_map, List.mem_filter, bne_iff_ne] at hz
    obtain ⟨y, ⟨hy, hproc⟩, rfl⟩ := hz
    obtain ⟨x, hx, hitem, hsize, hxy⟩ := horigin y hy hproc
    refine ⟨x, hx, by split <;> exact hitem, by split <;> exact hsize, ?_⟩
    rcases hxy with rfl | ⟨hready, hsel⟩
    · rcases hs.idle y hx with hst | hst <;> simp [hst]
    · simp [hsel, hready]
  refine ⟨fun z hz => ?_, fun z hz => ?_, fun z hz => ?_, ?_⟩
  · obtain ⟨x, hx, hitem, hsize, -⟩ := hleft z hz
    rw [hsize, hitem, hs.computed x hx]
  · obtain ⟨x, hx, -, -, hstatus⟩ := hleft z hz
    rw [Idle, hstatus]
    exact hs.idle x hx
  · obtain ⟨x, hx, hitem, -, hstatus⟩ := hleft z hz
    rw [hstatus, hitem]
    exact hs.ignored_iff x hx
  · simp only [fullyProcessed, List.all_eq_false, Bool.or_eq_true, beq_iff_eq, not_or] at hfull
    obtain ⟨y, hy, hproc, hig⟩ := hfull
    have hmem : (if y.status = .selected then y.setStatus .ready else y) ∈ s'.itemList.seq := by
      rw [hseq, remaining]
      exact List.mem_map.2 ⟨y, List.mem_filter.2 ⟨hy, by simpa using hproc⟩, rfl⟩
    refine ⟨_, hmem, ?_⟩
    cases hst : y.status <;> simp_all

theorem exchangeRound_items {env : RoundEnv} {max : BitVec w} {s s' : Store w} {requests : List Request}
    (hs : Sized max s) (h : exchangeRound env max (.ok ()) s = some (.ok (), false, s', requests)) :
    ∀ item ∈ s'.items, item ∈ s.items := by
  have hne : s.items ≠ [] := by
    obtain ⟨x, hx, -⟩ := hs.ready
    exact List.ne_nil_of_mem (List.mem_map_of_mem hx)
  obtain ⟨code, fully, s₁, requests₁, hround, hex, -⟩ := exchangeRound_spec env max hs.idle hne
  simp only [h, Option.some.injEq, Prod.mk.injEq] at hround
  obtain ⟨-, -, rfl, -⟩ := hround
  exact fun item hitem => hex.sublist.subset hitem

theorem roundStart_sized {max : BitVec w} {s₀ s : Store w} (hready : AllReady s₀) (hfit : SizesFit max s₀)
    (h : RoundStart max s₀ s) : Sized max s ∧ SizesFit max s := by
  induction h with
  | first hok =>
    refine ⟨checkStoreSize_sized hready hok, ?_⟩
    rw [SizesFit, checkStoreSize_items]
    exact hfit
  | next _ hround ih =>
    obtain ⟨hs, hfit⟩ := ih
    exact ⟨exchangeRound_sized hs hfit hround,
      fun item hitem => hfit item (exchangeRound_items hs hround item hitem)⟩

theorem runStore_allReady (ops : List (StoreOp w)) {s s' : Store w} {calls : List (ExchangeCall w)}
    (hs : AllReady s) (h : runStore ops s = some (s', calls)) : AllReady s' := by
  induction ops generalizing s calls with
  | nil =>
    simp only [runStore, Option.some.injEq, Prod.mk.injEq] at h
    obtain ⟨rfl, -⟩ := h
    exact hs
  | cons op ops ih =>
    cases op with
    | add item allocated => exact ih (storeAdd_spec hs item allocated).1 h
    | exchange max env =>
      obtain ⟨code, s₁, requests, hrun, -, hready, -⟩ := exchange_spec env max hs
      simp only [runStore, hrun, Option.bind_eq_bind, Option.bind_some] at h
      cases hrest : runStore ops s₁ with
      | none => simp [hrest] at h
      | some r =>
        simp only [hrest, Option.bind_some, Option.pure_def, Option.some.injEq, Prod.mk.injEq] at h
        obtain ⟨rfl, -⟩ := h
        exact ih hready hrest

/-- Every turn of an exchange, at any point of the life of a store, keeps within the limit, if no item of
the store passes the check by a sum that wraps around. -/
theorem roundStart_withinLimit (ops : List (StoreOp w)) {s₀ s : Store w} {calls : List (ExchangeCall w)}
    (run : runStore ops .empty = some (s₀, calls)) {max : BitVec w} (sizes : SizesFit max s₀)
    (round : RoundStart max s₀ s) : WithinLimit max s := by
  have hready := runStore_allReady ops allReady_empty run
  obtain ⟨hsized, hfit⟩ := roundStart_sized hready sizes round
  exact hsized.withinLimit hfit

theorem sampleRun_withinLimit : ∃ s : Store 32, ∃ calls, runStore (sampleRun.take 3) .empty = some (s, calls) ∧
    WithinLimit 1000 (checkStoreSize 1000 s).2 := by
  refine ⟨_, _, rfl, roundStart_withinLimit (sampleRun.take 3) rfl ?_ (.first ?_)⟩
  · intro item hitem _
    have hmem : item ∈ [sampleItem 1, sampleItem 2] := hitem
    simp only [List.mem_cons, List.not_mem_nil, or_false] at hmem
    rcases hmem with rfl | rfl <;> decide
  · simp only [checkStoreSize, CursorList.whileNext_reset]
    decide

/-- A file of nearly 4 GiB, stored with a 32 bit `mcl_size_t`. -/
def hugeFile : ItemRef where
  key := 1
  item := .file {
    creationDate := some (.lit "2019-01-31T23:59:59.999Z")
    localPath := some (.lit "/tmp/a")
    remoteName := some (.lit "a")
    type := none
    size := 4294966873
    dated := fun _ => ⟨_, rfl, by decide⟩ }

def hugeStoreItem (status : StoreItemStatus) (itemSize : BitVec 32) : StoreItem 32 :=
  ⟨hugeFile, status, 1, itemSize, by decide⟩

/-- Its size is ten below `2 ^ 32`; with the overhead the sum is 14. The file passes the check and is
never selected. -/
theorem hugeFile_not_withinLimit : ¬ ∀ (ops : List (StoreOp 32)) (s₀ s : Store 32)
    (calls : List (ExchangeCall 32)) (max : BitVec 32), runStore ops .empty = some (s₀, calls) →
      RoundStart max s₀ s → WithinLimit max s := by
  intro h
  have hround : RoundStart 1000 (storeAdd (w := 32) .empty hugeFile true).2 _ := .first (by
    simp only [checkStoreSize, CursorList.whileNext_reset]
    decide)
  have hlimit := h [.add hugeFile true] _ _ [] 1000 rfl hround
  have hmax : closeLength ≤ (1000 : BitVec 32).toNat := by decide
  have hseq : (checkStoreSize 1000 (storeAdd (w := 32) .empty hugeFile true).2).2.itemList.seq =
      [hugeStoreItem .ready 4294967286] := by
    rw [checkStoreSize_seq]
    rfl
  obtain ⟨y, hy, hsel⟩ := hlimit.progress ⟨_, by rw [hseq]; exact List.mem_cons_self, by decide⟩
  rw [(selectStoreItemsToExchange_spec hmax _).2.1, selectionRun, hseq,
    FirstFit.run_cons_of_lt natSize (by decide)] at hy
  obtain rfl : y = hugeStoreItem .ready 4294967286 := by simpa [FirstFit.run, marked] using hy
  cases hsel

end MindConnect
