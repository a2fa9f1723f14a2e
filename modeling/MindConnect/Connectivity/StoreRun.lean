import MindConnect.Connectivity.Exchange

/-!
# A store over its life

Additions and exchanges in any order, from an empty store. `runStore_spec` is the accounting: what was in
the store and what was added is, item for item, what is left and what was delivered. That no item is lost,
duplicated or left with a status of a past request follows for every exchange of the run.
-/

namespace MindConnect

variable {w : Nat}

inductive StoreOp (w : Nat) where
  | add (item : ItemRef) (allocated : Bool)
  | exchange (max : BitVec w) (env : Nat → RoundEnv)

/-- One call of `connectivity_processor_exchange`. -/
structure ExchangeCall (w : Nat) where
  before : Store w
  code : Result Unit
  after : Store w
  requests : List Request

def runStore : List (StoreOp w) → Store w → Option (Store w × List (ExchangeCall w))
  | [], s => some (s, [])
  | .add item allocated :: ops, s => runStore ops (storeAdd s item allocated).2
  | .exchange max env :: ops, s => do
    let (code, s', requests) ← exchange env max s
    let (s'', calls) ← runStore ops s'
    return (s'', ⟨s, code, s', requests⟩ :: calls)

/-- The item an operation puts into the store, if it succeeds. -/
def StoreOp.added : StoreOp w → Option ItemRef
  | .add item allocated =>
    match item.item.validate with
    | .ok () => if allocated then some item else none
    | .error _ => none
  | .exchange _ _ => none

/-- Exactly one of the requests was answered with 200 and carried the item. -/
def DeliveredOnce (item : ItemRef) (requests : List Request) : Prop :=
  ∃ pre r post, requests = pre ++ r :: post ∧ r.status = 200 ∧ item ∈ r.items ∧
    ∀ r' ∈ pre ++ post, r'.status = 200 → item ∉ r'.items

def NotDelivered (item : ItemRef) (requests : List Request) : Prop :=
  ∀ r ∈ requests, r.status = 200 → item ∉ r.items

/-- What an exchange may do to a store. The items of a request are those whose tuples make up its body. -/
structure ExchangeCall.Sound (c : ExchangeCall w) : Prop where
  ready : AllReady c.after
  order : c.after.items.Sublist c.before.items
  once : c.after.items.Nodup
  accounted : ∀ item ∈ c.before.items,
    (item ∉ c.after.items ∧ DeliveredOnce item c.requests) ∨
      (item ∈ c.after.items ∧ NotDelivered item c.requests)
  ok_iff : c.before.items ≠ [] → (c.code = .ok () ↔ c.after.items = [])
  bodies : ∀ r ∈ c.requests, IsBodyOf r.env r.boundary r.items r.body

theorem mem_delivered {item : ItemRef} {requests : List Request} :
    item ∈ delivered requests ↔ ∃ r ∈ requests, r.status = 200 ∧ item ∈ r.items := by
  simp [delivered, and_assoc]

theorem deliveredOnce_of_mem {item : ItemRef} {requests : List Request} (hd : (delivered requests).Nodup)
    (h : item ∈ delivered requests) : DeliveredOnce item requests := by
  obtain ⟨r, hr, hst, hit⟩ := mem_delivered.1 h
  obtain ⟨pre, post, rfl⟩ := List.append_of_mem hr
  refine ⟨pre, r, post, rfl, hst, hit, fun r' hr' hst' hit' => ?_⟩
  have hrd : item ∈ delivered [r] := mem_delivered.2 ⟨r, by simp, hst, hit⟩
  rw [List.append_cons, delivered_append, delivered_append] at hd
  obtain ⟨hd₁, -, hdisj⟩ := List.nodup_append.1 hd
  rcases List.mem_append.1 hr' with hpre | hpost
  · exact (List.nodup_append.1 hd₁).2.2 item (mem_delivered.2 ⟨r', hpre, hst', hit'⟩) item hrd rfl
  · exact hdisj item (List.mem_append_right _ hrd) item (mem_delivered.2 ⟨r', hpost, hst', hit'⟩) rfl

theorem Exchanged.sound {s s' : Store w} {requests : List Request} (h : Exchanged s s' requests)
    (hs : s.items.Nodup) (hready : AllReady s') {code : Result Unit}
    (hok : s.items ≠ [] → (code = .ok () ↔ s'.items = [])) :
    ExchangeCall.Sound ⟨s, code, s', requests⟩ := by
  have hnd := h.perm.nodup_iff.1 hs
  obtain ⟨hnd', hdel, hdisj⟩ := List.nodup_append.1 hnd
  refine ⟨hready, h.sublist, hnd', fun item hitem => ?_, hok, h.bodies⟩
  rcases List.mem_append.1 (h.perm.mem_iff.1 hitem) with hleft | hgone
  · refine .inr ⟨hleft, fun r hr hst hit => ?_⟩
    exact hdisj item hleft item (mem_delivered.2 ⟨r, hr, hst, hit⟩) rfl
  · refine .inl ⟨fun hleft => hdisj item hleft item hgone rfl, deliveredOnce_of_mem hdel hgone⟩

theorem storeAdd_spec {s : Store w} (hs : AllReady s) (item : ItemRef) (allocated : Bool) :
    AllReady (storeAdd s item allocated).2 ∧
      (storeAdd s item allocated).2.items = s.items ++ (StoreOp.added (w := w) (.add item allocated)).toList := by
  unfold storeAdd StoreOp.added
  split
  · rename_i e h
    simp [h, hs]
  · rename_i h
    cases allocated with
    | false => simp [h, hs]
    | true =>
      simp only [h, if_true, Store.items, CursorList.seq_add, List.map_append, Option.toList_some]
      refine ⟨fun x hx => ?_, rfl⟩
      rw [CursorList.seq_add] at hx
      rcases List.mem_append.1 hx with hx | hx
      · exact hs x hx
      · simp only [List.mem_singleton] at hx
        rw [hx]

/-- The accounting of a run. -/
theorem runStore_spec (ops : List (StoreOp w)) {s : Store w} (hs : AllReady s)
    (hd : (s.items ++ ops.filterMap StoreOp.added).Nodup) :
    ∃ s' calls, runStore ops s = some (s', calls) ∧ AllReady s' ∧
      (s.items ++ ops.filterMap StoreOp.added).Perm
        (s'.items ++ calls.flatMap fun c => delivered c.requests) ∧
      ∀ c ∈ calls, c.Sound := by
  induction ops generalizing s with
  | nil => exact ⟨s, [], rfl, hs, by simp, by simp⟩
  | cons op ops ih =>
    cases op with
    | add item allocated =>
      obtain ⟨hs₁, hitems⟩ := storeAdd_spec hs item allocated
      have hsplit : s.items ++ (StoreOp.add item allocated :: ops).filterMap StoreOp.added =
          (storeAdd s item allocated).2.items ++ ops.filterMap StoreOp.added := by
        rw [hitems, List.append_assoc, List.filterMap_cons]
        cases (StoreOp.add item allocated : StoreOp w).added <;> rfl
      rw [hsplit] at hd ⊢
      exact ih hs₁ hd
    | exchange max env =>
      have hnone : (StoreOp.exchange max env :: ops).filterMap StoreOp.added =
          ops.filterMap StoreOp.added := rfl
      rw [hnone] at hd ⊢
      obtain ⟨code, s₁, requests, hrun, hex, hready, hok⟩ := exchange_spec env max hs
      obtain ⟨s', calls, hrest, hready', hperm, hsound⟩ :=
        ih hready (hd.sublist (hex.sublist.append_right _))
      refine ⟨s', ⟨s, code, s₁, requests⟩ :: calls, by simp [runStore, hrun, hrest], hready', ?_, ?_⟩
      · rw [List.flatMap_cons]
        calc (s.items ++ ops.filterMap StoreOp.added).Perm
              (s₁.items ++ delivered requests ++ ops.filterMap StoreOp.added) := hex.perm.append_right _
          _ |>.Perm (delivered requests ++ (s₁.items ++ ops.filterMap StoreOp.added)) := by
              rw [← List.append_assoc]; exact List.perm_append_comm.append_right _
          _ |>.Perm (delivered requests ++ (s'.items ++ calls.flatMap fun c => delivered c.requests)) :=
              hperm.append_left _
          _ |>.Perm (s'.items ++ (delivered requests ++ calls.flatMap fun c => delivered c.requests)) := by
              rw [← List.append_assoc, ← List.append_assoc]; exact List.perm_append_comm.append_right _
      · refine List.forall_mem_cons.2 ⟨hex.sound ?_ hready hok, hsound⟩
        exact (List.nodup_append.1 hd).1

@[simp] theorem items_empty : (Store.empty : Store w).items = [] := rfl

theorem allReady_empty : AllReady (Store.empty : Store w) := by simp [AllReady, Store.empty]

/-- Store exchange loses nothing, delivers nothing twice and always ends. -/
theorem runStore_sound (ops : List (StoreOp w)) (distinct : (ops.filterMap StoreOp.added).Nodup) :
    ∃ s calls, runStore ops .empty = some (s, calls) ∧ (∀ c ∈ calls, c.Sound) ∧
      (calls.flatMap fun c => delivered c.requests).Nodup := by
  obtain ⟨s, calls, hrun, -, hperm, hsound⟩ := runStore_spec ops allReady_empty (by simpa using distinct)
  have hnd := hperm.nodup_iff.1 (by simpa using distinct)
  exact ⟨s, calls, hrun, hsound, (List.nodup_append.1 hnd).2.1⟩

/-- An item of three bytes. -/
def sampleItem (key : Nat) : ItemRef where
  key := key
  item := .customData {
    version := some (.lit "1.0")
    buffer := some [1, 2, 3]
    contentType := some (.lit "text/plain")
    type := some (.lit "sample")
    size := 3
    details := none
    readable := by rintro b ⟨⟩; decide }

def sampleRound (status : Nat) : RoundEnv where
  boundary := .ok sampleBoundary
  allocated := true
  tuple _ := ⟨.ok sampleBoundary, .ok (ascii "[]"), .ok (ascii "[]"), []⟩
  send := .ok status

/-- A failed addition may be repeated, and an exchange that was refused too. -/
def sampleRun : List (StoreOp 32) :=
  [.add (sampleItem 1) true, .add (sampleItem 2) false, .add (sampleItem 2) true,
    .exchange 1000 fun _ => sampleRound 500, .exchange 1000 fun _ => sampleRound 200]

theorem sampleRun_added : sampleRun.filterMap StoreOp.added = [sampleItem 1, sampleItem 2] := rfl

theorem sampleRun_sound : ∃ s calls, runStore sampleRun .empty = some (s, calls) ∧ (∀ c ∈ calls, c.Sound) ∧
    (calls.flatMap fun c => delivered c.requests).Nodup :=
  runStore_sound sampleRun (by simp [sampleRun_added, sampleItem])

end MindConnect
