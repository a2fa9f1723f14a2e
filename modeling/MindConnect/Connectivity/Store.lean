import MindConnect.Connectivity.JsonSize
import MindConnect.Core.Memory

/-!
# The store and its exchange

| here | there |
| --- | --- |
| `Store`, `StoreItem`, `storeAdd` | `store_t`, `store_item_t` (`store.h`), `mcl_store_add` (`store.c`) |
| `addItemToBuffer`, `prepareBodyForStore` | `connectivity_processor.c:665`, `:821` |
| `checkStoreSize`, `selectStoreItemsToExchange` | `connectivity_processor.c:727`, `:768` |
| `revertStoreItemStatus`, `removeUploadedStoreItems`, `scanStoreAfterExchange` | `:937`, `:956`, `:472` |
| `exchangeRound`, `exchange` | the body of the `do … while`, `connectivity_processor_exchange` (`:111`) |

An item object is known by its `key`; two items are the same object if they are equal as `ItemRef`s. What
the callees outside this file answer in one turn of the loop is a `RoundEnv`; `none` is a memory access
outside an object, and, for the loop, running out of turns. Beside what the code returns, an exchange
gives the requests that were sent with what the server answered.
-/

namespace MindConnect

/-! ## The store -/

/-- `void *item` of a store item. -/
structure ItemRef where
  key : Nat
  item : Item

inductive StoreItemStatus where
  | ready | selected | processed | ignored
deriving DecidableEq, Repr

/-- `store_item_t`. Only items that pass their validation are ever added. -/
structure StoreItem (w : Nat) where
  item : ItemRef
  status : StoreItemStatus
  id : BitVec w
  itemSize : BitVec w
  valid : item.item.validate = .ok ()

structure Store (w : Nat) where
  itemList : CursorList (StoreItem w)
  lastItemId : BitVec w

variable {w : Nat}

def StoreItem.setStatus (s : StoreItem w) (status : StoreItemStatus) : StoreItem w :=
  { s with status := status }

/-- The items of the store, in order. -/
def Store.items (s : Store w) : List ItemRef := s.itemList.seq.map fun x => x.item

def Store.empty : Store w := ⟨.empty, 0⟩

/-- `mcl_store_add`; `allocated` is whether the store item and its list node could be allocated. The
size is left open until an exchange computes it. -/
def storeAdd (store : Store w) (item : ItemRef) (allocated : Bool) : Result Unit × Store w :=
  match h : item.item.validate with
  | .error _ => (.error .invalidParameter, store)
  | .ok () =>
    if allocated then
      let id := store.lastItemId + 1
      (.ok (), ⟨store.itemList.add ⟨item, .ready, id, 0, h⟩, id⟩)
    else (.error .outOfMemory, store)

/-! ## One item into a buffer -/

/-- What a file delivers after `rewind`, read by read, until a read gives nothing. -/
abbrev FileStream := List {chunk : Bytes // chunk ≠ []}

def FileStream.content (stream : FileStream) : Bytes := (stream.map fun c => c.val).flatten

/-- `mcl_file_util_fread(buffer, 1, count, …)`: a read gives at most one chunk. -/
def fread : FileStream → Nat → Bytes × FileStream
  | [], _ => ([], [])
  | chunk :: chunks, count =>
    if h : chunk.val.length ≤ count then (chunk.val, chunks)
    else (chunk.val.take count, ⟨chunk.val.drop count, by simpa using Nat.lt_of_not_le h⟩ :: chunks)

/-- `_file_payload_callback` (`connectivity_processor.c:628`) -/
def filePayloadCallback (stream : FileStream) : PayloadCallback where
  State := FileStream
  userContext := stream
  call := fread
  rest := FileStream.content
  call_le x n := by
    cases x with
    | nil => simp [fread]
    | cons c cs => simp only [fread]; split <;> simp_all
  call_rest x n := by
    cases x with
    | nil => simp [fread, FileStream.content]
    | cons c cs =>
      simp only [fread]
      split <;> simp [FileStream.content, ← List.append_assoc]
  call_progress x n hn hx := by
    cases x with
    | nil => simp [FileStream.content] at hx
    | cons c cs =>
      have hc := c.property
      simp only [fread]
      split
      · exact hc
      · simp only [ne_eq, List.take_eq_nil_iff, hc, or_false]
        omega

/-- `_custom_data_payload_callback` (`connectivity_processor.c:641`): the context is the offset. -/
def customDataPayloadCallback (buffer : Bytes) (size : Nat) (readable : size ≤ buffer.length) :
    PayloadCallback where
  State := {offset : Nat // offset ≤ size}
  userContext := ⟨0, Nat.zero_le _⟩
  call := fun offset count =>
    let writeSize := min (size - offset.val) count
    ((buffer.drop offset.val).take writeSize, ⟨offset.val + writeSize, by have := offset.property; omega⟩)
  rest := fun offset => (buffer.take size).drop offset.val
  call_le x n := by simp
  call_rest x n := by
    obtain ⟨x, hx⟩ := x
    have hbuf : (buffer.take size).drop x = (buffer.drop x).take (size - x) := List.drop_take
    rw [hbuf, List.drop_take, ← List.drop_drop]
    have : size - (x + min (size - x) n) = (size - x) - min (size - x) n := by omega
    rw [this, ← List.drop_take]
    conv_rhs => rw [← List.take_append_drop (min (size - x) n) ((buffer.drop x).take (size - x))]
    rw [List.take_take, Nat.min_eq_left (by omega : min (size - x) n ≤ size - x)]
  call_progress x n hn hx := by
    obtain ⟨x, hx'⟩ := x
    simp only [ne_eq, List.drop_eq_nil_iff, List.length_take, List.take_eq_nil_iff, not_or] at hx ⊢
    omega

/-- What the callees of one `_add_item_to_buffer` answer: for every kind of item the sub boundary and the
JSON texts, for a file its content. -/
structure TupleEnv where
  subBoundary : Result Boundary
  metaJson : Result Bytes
  payloadJson : Result Bytes
  file : FileStream

/-- The arguments of the call that `_add_item_to_buffer` makes for an item; without a buffer there is
nothing the callback of a custom data could read. -/
def tupleOf (env : TupleEnv) (boundary : Boundary) : Item → Option Tuple
  | .event _ => some ⟨boundary, env.subBoundary, env.metaJson, none, env.payloadJson, none⟩
  | .dataSourceConfiguration _ => some ⟨boundary, env.subBoundary, env.metaJson, none, env.payloadJson, none⟩
  | .timeseries _ => some ⟨boundary, env.subBoundary, env.metaJson, none, env.payloadJson, none⟩
  | .file _ =>
    some ⟨boundary, env.subBoundary, env.metaJson, some contentTypeApplicationOctetStream, env.payloadJson,
      some (filePayloadCallback env.file)⟩
  | .customData c =>
    match h : c.buffer with
    | none => none
    | some buffer =>
      some ⟨boundary, env.subBoundary, env.metaJson, c.contentType, env.payloadJson,
        some (customDataPayloadCallback buffer c.size (c.readable buffer h))⟩

/-- `_add_item_to_buffer` -/
def addItemToBuffer (env : TupleEnv) (boundary : Boundary) (item : Item) (w : Window) :
    Option (Result Unit × Window) :=
  (tupleOf env boundary item).bind fun t => addTupleWithCallback t w

/-! ## One request -/

/-- What the callees answer in one turn of the exchange loop. `send` is everything between the finished
body and the status of the response: composing the request, the correlation id, the HTTP client. -/
structure RoundEnv where
  boundary : Result Boundary
  allocated : Bool
  tuple : ItemRef → TupleEnv
  send : Result Nat

/-- A request that was sent: its body, the items added to it in order, the status answered. -/
structure Request where
  env : RoundEnv
  boundary : Boundary
  items : List ItemRef
  body : Bytes
  status : Nat

/-- `_check_store_size` -/
def checkStoreSize (max : BitVec w) (store : Store w) : Result Unit × Store w :=
  if store.itemList.count = 0 then (.error .storeIsEmpty, store)
  else
    let r := CursorList.whileNext
      (fun allIgnored x =>
        let x := { x with itemSize := getItemSize w x.item.item }
        if max < multipartGetOverheadSize w + x.itemSize then (allIgnored, x.setStatus .ignored)
        else (false, x))
      true store.itemList.reset
    (if r.1 then .error .itemExceedsMaxHttpRequestSize else .ok (), { store with itemList := r.2 })

/-- `_select_store_items_to_exchange`: the size of the buffer to allocate. -/
def selectStoreItemsToExchange (max : BitVec w) (store : Store w) : BitVec w × Store w :=
  let r := CursorList.whileNext
    (fun remaining x =>
      if x.itemSize ≤ remaining then (remaining - x.itemSize, x.setStatus .selected) else (remaining, x))
    (max - multipartGetOverheadSize w) store.itemList.reset
  (max - r.1, { store with itemList := r.2.reset })

/-- The body under construction and the items added so far. -/
structure BodyState where
  window : Window
  items : List ItemRef

/-- One turn of the `for (;;)` of `_prepare_body_for_store` (`connectivity_processor.c:844`). -/
def addSelectedItem (env : RoundEnv) (boundary : Boundary) (b : BodyState) (x : StoreItem w) :
    Option (BodyState × StoreItem w) :=
  match addItemToBuffer (env.tuple x.item) boundary x.item.item b.window with
  | none => none
  | some (.ok (), window) => some (⟨window, b.items ++ [x.item]⟩, x.setStatus .processed)
  | some (.error _, window) => some (⟨window, b.items⟩, x)

/-- The loop starts where `_select_store_items_to_exchange` left the cursor. -/
def addSelectedItems (env : RoundEnv) (boundary : Boundary) (b : BodyState) (store : Store w) :
    Option (BodyState × Store w) :=
  (CursorList.whileFind (fun x => x.status == .selected) (addSelectedItem env boundary) b store.itemList).map
    fun r => (r.1, { store with itemList := r.2 })

/-- `_prepare_body_for_store`. A body is what the window holds up to its position. -/
def prepareBodyForStore (env : RoundEnv) (boundary : Boundary) (max : BitVec w) (store : Store w) :
    Option (Result (Bytes × List ItemRef) × Store w) :=
  let (bufferSize, store) := selectStoreItemsToExchange max store
  match mclMemoryMalloc env.allocated bufferSize.toNat with
  | none => some (.error .outOfMemory, store)
  | some buffer => do
    let (b, store) ← addSelectedItems env boundary ⟨⟨buffer, 0, bufferSize.toNat⟩, []⟩ store
    if bufferSize.toNat ≠ b.window.remaining then
      match ← close boundary b.window with
      | (.ok (), window) => return (.ok (window.buffer.take window.position, b.items), store)
      | (.error _, _) => return (.error .fail, store)
    else return (.error .fail, store)

/-- `_revert_store_item_status` -/
def revertStoreItemStatus (store : Store w) : Option (Store w) :=
  (CursorList.forNext (fun _ x => ((), some (x.setStatus .ready))) store.itemList.count ()
    store.itemList.reset).map fun r => { store with itemList := r.2 }

/-- The `switch` of `_remove_uploaded_store_items`. -/
def removeUploadedStoreItem (fullyProcessed : Bool) (x : StoreItem w) : Bool × Option (StoreItem w) :=
  match x.status with
  | .processed => (fullyProcessed, none)
  | .selected => (false, some (x.setStatus .ready))
  | .ready => (false, some x)
  | .ignored => (fullyProcessed, some x)

/-- `_remove_uploaded_store_items`: whether nothing is left to be sent. -/
def removeUploadedStoreItems (store : Store w) : Option (Bool × Store w) :=
  (CursorList.forNext removeUploadedStoreItem store.itemList.count true store.itemList.reset).map
    fun r => (r.1, { store with itemList := r.2 })

/-- `_scan_store_after_exchange`. The flag is still false when the exchange failed. -/
def scanStoreAfterExchange (response : Result Unit) (store : Store w) :
    Option (Result Unit × Bool × Store w) :=
  match response with
  | .error e => (revertStoreItemStatus store).map fun store => (.error e, false, store)
  | .ok () => do
    let (fullyProcessed, store) ← removeUploadedStoreItems store
    if fullyProcessed ∧ store.itemList.count ≠ 0 then
      let store ← revertStoreItemStatus store
      return (.error .itemExceedsMaxHttpRequestSize, fullyProcessed, store)
    else return (.ok (), fullyProcessed, store)

/-- Boundary, body, request and response of one turn, up to the evaluation of the response. -/
def sendStore (env : RoundEnv) (max : BitVec w) (store : Store w) :
    Option (Result Unit × Store w × List Request) :=
  match env.boundary with
  | .error e => some (.error e, store, [])
  | .ok boundary => do
    let (body, store) ← prepareBodyForStore env boundary max store
    match body with
    | .error e => return (.error e, store, [])
    | .ok (body, items) =>
      match env.send with
      | .error e => return (.error e, store, [])
      | .ok status => return (httpResponseGetStatus status, store, [⟨env, boundary, items, body, status⟩])

/-- The body of the `do … while`, entered with the code of the check or of the turn before. -/
def exchangeRound (env : RoundEnv) (max : BitVec w) (code : Result Unit) (store : Store w) :
    Option (Result Unit × Bool × Store w × List Request) :=
  match code with
  | .error e =>
    (scanStoreAfterExchange (.error e) store).map fun r => (r.1, r.2.1, r.2.2, [])
  | .ok () => do
    let (code, store, requests) ← sendStore env max store
    let (code, fullyProcessed, store) ← scanStoreAfterExchange code store
    return (code, fullyProcessed, store, requests)

/-- The loop goes on while a turn returned `MCL_OK` and left something to be sent. `env k` is what the
callees answer in turn `k`. -/
def exchangeLoop (env : Nat → RoundEnv) (max : BitVec w) :
    Nat → Nat → Result Unit → Store w → Option (Result Unit × Store w × List Request)
  | 0, _, _, _ => none
  | turns + 1, k, code, store => do
    let (code, fullyProcessed, store, requests) ← exchangeRound (env k) max code store
    match code, fullyProcessed with
    | .ok (), false =>
      let (code, store, requests') ← exchangeLoop env max turns (k + 1) code store
      return (code, store, requests ++ requests')
    | _, _ => return (code, store, requests)

/-- `connectivity_processor_exchange` of a store: the loop needs at most one turn per item and the last. -/
def exchange (env : Nat → RoundEnv) (max : BitVec w) (store : Store w) :
    Option (Result Unit × Store w × List Request) :=
  let (code, store) := checkStoreSize max store
  exchangeLoop env max (store.itemList.count + 1) 0 code store

end MindConnect
