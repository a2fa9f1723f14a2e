import MindConnect.Connectivity.ServerReading
import MindConnect.Connectivity.StoreRun

/-!
# From the store to the server

The exchange of a store with the requests it composes and the connections they go over. With the answers that come it is
the exchange of `Store` (`runOnWire_refines`), and from each connection the server reads all items of the request or
nothing (`Transfer.Made.received`). Together an item leaves the store if and only if the server has answered a request
with 200 in which it read the item (`runOnWire_sound`).
-/

namespace MindConnect

open PartialIO JsonUtil
open HttpClientBasic (Platform UriParts Tame)

/-! ## The code -/

/-- A body for some items, what of the request went over the connection, and the status answered or why there is
none. -/
structure Transfer where
  turn : Turn
  boundary : Boundary
  items : List ItemRef
  body : Bytes
  sent : Bytes
  answer : Result Nat

structure WireCall (w : Nat) where
  before : Store w
  code : Result Unit
  after : Store w
  transfers : List Transfer

inductive WireOp where
  | add (item : ItemRef) (allocated : Bool)
  | exchange (turns : Nat → Turn)

section
variable {p : Platform} (processor : ExchangeProcessor p)

/-- Boundary, body, request and response of one turn. -/
def sendStoreOnWire (turn : Turn) (store : Store p.sizeWidth) :
    Option (Result Unit × Store p.sizeWidth × List Transfer) :=
  match turn.boundary with
  | .error e => some (.error e, store, [])
  | .ok boundary => do
    let (body, store) ←
      prepareBodyForStore (turn.round (.error .fail)) boundary processor.maxHttpPayloadSize store
    match body with
    | .error e => return (.error e, store, [])
    | .ok (body, items) => do
      let (answer, sent) ← sendExchangeRequest processor turn boundary body
      return (answer.bind evaluateResponseForExchange, store, [⟨turn, boundary, items, body, sent, answer⟩])

/-- The body of the `do … while` (`connectivity_processor.c:160`). -/
def exchangeRoundOnWire (turn : Turn) (code : Result Unit) (store : Store p.sizeWidth) :
    Option (Result Unit × Bool × Store p.sizeWidth × List Transfer) :=
  match code with
  | .error e => (scanStoreAfterExchange (.error e) store).map fun r => (r.1, r.2.1, r.2.2, [])
  | .ok () => do
    let (code, store, transfers) ← sendStoreOnWire processor turn store
    let (code, fullyProcessed, store) ← scanStoreAfterExchange code store
    return (code, fullyProcessed, store, transfers)

def exchangeLoopOnWire (turns : Nat → Turn) :
    Nat → Nat → Result Unit → Store p.sizeWidth → Option (Result Unit × Store p.sizeWidth × List Transfer)
  | 0, _, _, _ => none
  | fuel + 1, k, code, store => do
    let (code, fullyProcessed, store, transfers) ← exchangeRoundOnWire processor (turns k) code store
    match code, fullyProcessed with
    | .ok (), false =>
      let (code, store, transfers') ← exchangeLoopOnWire turns fuel (k + 1) code store
      return (code, store, transfers ++ transfers')
    | _, _ => return (code, store, transfers)

/-- `connectivity_processor_exchange` of a store. -/
def exchangeOnWire (turns : Nat → Turn) (store : Store p.sizeWidth) :
    Option (Result Unit × Store p.sizeWidth × List Transfer) :=
  let (code, store) := checkStoreSize processor.maxHttpPayloadSize store
  exchangeLoopOnWire processor turns (store.itemList.count + 1) 0 code store

def runOnWire : List WireOp → Store p.sizeWidth → Option (Store p.sizeWidth × List (WireCall p.sizeWidth))
  | [], s => some (s, [])
  | .add item allocated :: ops, s => runOnWire ops (storeAdd s item allocated).2
  | .exchange turns :: ops, s => do
    let (code, s', transfers) ← exchangeOnWire processor turns s
    let (s'', calls) ← runOnWire ops s'
    return (s'', ⟨s, code, s', transfers⟩ :: calls)

end

/-! ## One transfer -/

def Transfer.Separable (t : Transfer) : Prop := ∀ item ∈ t.items, MindConnect.Separable t.turn t.boundary item

/-- What there is to be read of the items. -/
def Transfer.contents (t : Transfer) : List ReceivedItem :=
  t.items.map fun item => itemContents (t.turn.file item).content item.item

/-- The transfer is what a turn makes of items of the store. -/
structure Transfer.Made {p : Platform} (processor : ExchangeProcessor p) (t : Transfer) : Prop where
  body : IsBodyOf (t.turn.round t.answer) t.boundary t.items t.body
  valid : ∀ item ∈ t.items, item.item.validate = .ok ()
  size : t.body.length < 2 ^ p.sizeWidth
  sent : sendExchangeRequest processor t.turn t.boundary t.body = some (t.answer, t.sent)

/-- The whole request, or a part of it without an answer. -/
inductive SentRequest {p : Platform} (processor : ExchangeProcessor p) (boundary : Boundary) (body host path : Bytes) :
    Result Nat → Bytes → Prop
  | whole {token url : CString} {randomBytes sent : Bytes} {answer : Result Nat}
      (htoken : processor.accessToken = some token) (hread : Http1.parseRequest sent = some ((composedRequest p boundary body url token randomBytes).read
        processor.httpClient (exchangeHeaders boundary token randomBytes) host path, [])) :
      SentRequest processor boundary body host path answer sent
  | cut {sent : Bytes} {e : McError} (hread : Http1.parseRequest sent = none) :
      SentRequest processor boundary body host path (.error e) sent

theorem closeText_ne_nil (boundary : Boundary) : closeText boundary ≠ [] := by
  simp [closeText, boundarySign, ascii]

theorem IsBodyOf.ne_nil {env : RoundEnv} {boundary : Boundary} {items : List ItemRef} {body : Bytes}
    (h : IsBodyOf env boundary items body) : body ≠ [] := by
  obtain ⟨texts, -, rfl⟩ := h.tuples
  exact List.append_ne_nil_of_right_ne_nil _ (closeText_ne_nil boundary)

section
variable {p : Platform} {processor : ExchangeProcessor p} {boundary : Boundary} {body : Bytes}

theorem composedRequest_buffered (hne : body ≠ []) (hsize : body.length < 2 ^ p.sizeWidth) (url token : CString)
    (randomBytes : Bytes) : (composedRequest p boundary body url token randomBytes).Buffered := by
  refine fun _ => ⟨Option.some_ne_none _, ?_⟩
  show body.length % 2 ^ p.sizeWidth ≠ 0
  rw [Nat.mod_eq_of_lt hsize]
  exact fun h => hne (List.length_eq_zero_iff.1 h)

theorem composedRequest_body (hsize : body.length < 2 ^ p.sizeWidth) (url token : CString) (randomBytes : Bytes)
    (client : HttpClientBasic.Client) (headers : List (CString × CString)) (host path : Bytes) :
    ((composedRequest p boundary body url token randomBytes).read client headers host path).body = body := by
  have hpost : HttpClientBasic.Method.post ≠ .get := by decide
  show (if HttpClientBasic.Method.post ≠ .get then body.take (body.length % 2 ^ p.sizeWidth) else []) = body
  rw [if_pos hpost, Nat.mod_eq_of_lt hsize, List.take_length]

theorem sendExchangeRequest_sent {turn : Turn} {host path sent : Bytes} {answer : Result Nat}
    (hplain : processor.Plain host path) (hne : body ≠ []) (hsize : body.length < 2 ^ p.sizeWidth)
    (h : sendExchangeRequest processor turn boundary body = some (answer, sent)) :
    SentRequest processor boundary body host path answer sent := by
  obtain ⟨r, hcompose, hrequest⟩ := composeRequest_spec processor turn boundary body
  unfold sendExchangeRequest at h
  rw [hcompose] at h
  cases r with
  | error e =>
    cases h
    exact .cut rfl
  | ok request =>
    obtain ⟨token, url, randomBytes, htoken, hurl, rfl⟩ := hrequest request rfl
    simp only [Option.bind_eq_bind, Option.bind_some] at h
    obtain ⟨⟨⟨code, response⟩, sink'⟩, hsend, h⟩ := Option.bind_eq_some_iff.1 h
    have hbuffered : (composedRequest p boundary body url token randomBytes).Buffered :=
      composedRequest_buffered hne hsize url token randomBytes
    have hheader : (composedRequest p boundary body url token randomBytes).header.seq =
      (HttpClientBasic.addHeaders (exchangeHeaders boundary token randomBytes)).seq := rfl
    obtain ⟨sent', hsent', hpre, hok⟩ := HttpClientBasic.mclHttpClientSend_prefix turn.responseMemory turn.socket rfl
      (hplain.url url hurl) hheader hbuffered hsend
    have hparse := HttpClientBasic.parseRequest_text (.inr (.inr rfl)) (hplain.url url hurl)
      (hplain.writable htoken boundary randomBytes) hbuffered
    rw [List.nil_append] at hsent'
    -- what was sent is what the sink has, whether there is an answer or not
    have hsame : sent = sink'.sent ∧ (code ≠ .ok () → ∃ e, answer = .error e) := by
      rcases code with e | u
      · cases h
        exact ⟨rfl, fun _ => ⟨e, rfl⟩⟩
      · cases response with
        | none => cases h
        | some response =>
          cases h
          exact ⟨rfl, fun hne => absurd rfl hne⟩
    obtain ⟨rfl, herror⟩ := hsame
    by_cases hwhole : sent' = (composedRequest p boundary body url token randomBytes).text processor.httpClient
        (exchangeHeaders boundary token randomBytes) host path
    · rw [← hwhole, ← hsent'] at hparse
      exact .whole htoken hparse
    · have hcut := Http1.parseRequest_cut hparse hpre hwhole
      obtain ⟨e, rfl⟩ := herror fun hcode => hwhole (hok hcode)
      rw [← hsent'] at hcut
      exact .cut hcut

/-- The server reads all items of a transfer or none, and none only if the client has got no answer. -/
theorem Transfer.Made.received {host path : Bytes} (hplain : processor.Plain host path) {t : Transfer}
    (h : t.Made processor) (hseparable : t.Separable) :
    serverReceives t.sent = some t.contents ∨ serverReceives t.sent = none ∧ ∃ e, t.answer = .error e := by
  obtain ⟨turn, boundary, items, body, sent, answer⟩ := t
  cases sendExchangeRequest_sent hplain h.body.ne_nil h.size h.sent with
  | @cut sent e hread =>
    refine .inr ⟨?_, e, rfl⟩
    rw [serverReceives, hread]
    rfl
  | @whole token url randomBytes sent answer htoken hread =>
    left
    obtain ⟨parts, hsplit, hitems⟩ := splitNested_body h.body h.valid hseparable
    have htype : (Http1.valuesOf (ascii "Content-Type") ((composedRequest p boundary body url token randomBytes).read
        processor.httpClient (exchangeHeaders boundary token randomBytes) host path).fields).head? = _ :=
      head_contentType processor boundary token url randomBytes body host
    simp only [serverReceives, hread, Option.bind_eq_bind, Option.bind_some, if_true, htype,
      boundaryParameter_multipartMixedText, composedRequest_body h.size, hsplit, hitems]
    rfl

/-! ## Turn by turn -/

/-- The allocations for the response are granted, and if it comes in chunks their sizes are in range. -/
structure Turn.Served (p : Platform) (turn : Turn) : Prop where
  available : turn.responseMemory.Available
  tame : Tame p turn.responseMemory turn.source.rest

variable (processor)

theorem sendExchangeRequest_defined {turn : Turn} (h : turn.Served p) (boundary : Boundary) (body : Bytes) :
    ∃ r, sendExchangeRequest processor turn boundary body = some r := by
  obtain ⟨r, hcompose, -⟩ := composeRequest_spec processor turn boundary body
  unfold sendExchangeRequest
  rw [hcompose]
  cases r with
  | error e => exact ⟨_, rfl⟩
  | ok request =>
    obtain ⟨code, response, sink', hsend, hok⟩ := HttpClientBasic.mclHttpClientSend_defined h.available turn.socket
      processor.httpClient request ⟨[], turn.sends⟩ h.tame
    simp only [Option.bind_eq_bind, Option.bind_some, hsend]
    rcases code with e | u
    · exact ⟨_, rfl⟩
    · obtain ⟨r, rfl⟩ := hok rfl
      exact ⟨_, rfl⟩

/-- A transfer that was answered is a request of the exchange as the store sees it. -/
def Transfer.request (t : Transfer) : Option Request :=
  match t.answer with
  | .ok status => some ⟨t.turn.round t.answer, t.boundary, t.items, t.body, status⟩
  | .error _ => none

def requestsOf (transfers : List Transfer) : List Request := transfers.filterMap Transfer.request

theorem prepareBodyForStore_send {w : Nat} (turn : Turn) (send send' : Result Nat) (boundary : Boundary)
    (max : BitVec w) (s : Store w) : prepareBodyForStore (turn.round send) boundary max s =
      prepareBodyForStore (turn.round send') boundary max s := rfl

theorem processedItems_valid {w : Nat} {xs : List (StoreItem w)} :
    ∀ item ∈ processedItems xs, item.item.validate = .ok () := by
  intro item hitem
  obtain ⟨x, -, rfl⟩ := List.mem_map.1 hitem
  exact x.valid

theorem sendStoreOnWire_refines {turn : Turn} (hserved : turn.Served p) {s : Store p.sizeWidth} (hs : AllIdle s) :
    ∃ send code s' transfers, sendStoreOnWire processor turn s = some (code, s', transfers) ∧
      sendStore (turn.round send) processor.maxHttpPayloadSize s = some (code, s', requestsOf transfers) ∧
      ∀ t ∈ transfers, t.Made processor := by
  unfold sendStoreOnWire sendStore
  cases hboundary : turn.boundary with
  | error e => exact ⟨.error .fail, .error e, s, [], rfl, by simp only [Turn.round, hboundary]; rfl, by simp⟩
  | ok boundary =>
    obtain ⟨result, s', hprepare, -, hbody⟩ :=
      prepareBodyForStore_spec (turn.round (.error .fail)) boundary processor.maxHttpPayloadSize hs
    simp only [hprepare, Option.bind_eq_bind, Option.bind_some]
    cases result with
    | error e =>
      refine ⟨.error .fail, .error e, s', [], rfl, ?_, by simp⟩
      simp only [Turn.round, hboundary] at hprepare ⊢
      rw [hprepare]
      rfl
    | ok r =>
      obtain ⟨body, items⟩ := r
      obtain ⟨rfl, hisBody, hsize⟩ := hbody body items rfl
      obtain ⟨⟨answer, sent⟩, hsend⟩ := sendExchangeRequest_defined processor hserved boundary body
      simp only [hsend, Option.bind_some]
      refine ⟨answer, _, s', _, rfl, ?_, ?_⟩
      · rw [show (turn.round answer).boundary = .ok boundary from hboundary]
        simp only [prepareBodyForStore_send turn answer (.error .fail), hprepare, Option.bind_some]
        cases answer with
        | error e => rfl
        | ok status =>
          simp only [Except.bind, evaluateResponseForExchange_eq]
          rfl
      · intro t ht
        rw [List.mem_singleton.1 ht]
        exact ⟨⟨hisBody.nonempty, hisBody.tuples⟩, processedItems_valid, Nat.lt_of_le_of_lt hsize (BitVec.isLt _),
          hsend⟩

theorem exchangeRoundOnWire_refines {turn : Turn} (hserved : turn.Served p) {s : Store p.sizeWidth} (hs : AllIdle s) :
    ∃ send, exchangeRound (turn.round send) processor.maxHttpPayloadSize (.ok ()) s =
        (exchangeRoundOnWire processor turn (.ok ()) s).map (fun r => (r.1, r.2.1, r.2.2.1, requestsOf r.2.2.2)) ∧
      ∀ r ∈ exchangeRoundOnWire processor turn (.ok ()) s, ∀ t ∈ r.2.2.2, t.Made processor := by
  obtain ⟨send, code, s₁, transfers, hwire, hstore, hmade⟩ := sendStoreOnWire_refines processor hserved hs
  refine ⟨send, ?_, ?_⟩
  · simp only [exchangeRound, exchangeRoundOnWire, hwire, hstore, Option.bind_eq_bind, Option.bind_some]
    cases scanStoreAfterExchange code s₁ <;> rfl
  · simp only [exchangeRoundOnWire, hwire, Option.bind_eq_bind, Option.bind_some]
    intro r hr
    obtain ⟨r', -, hr⟩ := Option.bind_eq_some_iff.1 hr
    cases hr
    exact hmade

theorem exchangeLoop_congr {w : Nat} {env env' : Nat → RoundEnv} (max : BitVec w) (fuel k : Nat) (code : Result Unit)
    (s : Store w) (h : ∀ j, k ≤ j → env j = env' j) :
    exchangeLoop env max fuel k code s = exchangeLoop env' max fuel k code s := by
  induction fuel generalizing k code s with
  | zero => rfl
  | succ fuel ih =>
    have hloop : exchangeLoop env max fuel (k + 1) = exchangeLoop env' max fuel (k + 1) :=
      funext fun code => funext fun s => ih (k + 1) code s fun j hj => h j (by omega)
    rw [exchangeLoop, exchangeLoop, h k (Nat.le_refl k), hloop]

/-- What an exchange leaves out of the transfers. -/
def storeView {w : Nat} (r : Result Unit × Store w × List Transfer) : Result Unit × Store w × List Request :=
  (r.1, r.2.1, requestsOf r.2.2)

theorem exchangeLoopOnWire_refines {turns : Nat → Turn} (hserved : ∀ k, (turns k).Served p) (fuel k : Nat)
    {s : Store p.sizeWidth} (hs : AllIdle s) (hne : s.items ≠ []) :
    ∃ env, exchangeLoop env processor.maxHttpPayloadSize fuel k (.ok ()) s =
        (exchangeLoopOnWire processor turns fuel k (.ok ()) s).map storeView ∧
      ∀ r ∈ exchangeLoopOnWire processor turns fuel k (.ok ()) s, ∀ t ∈ r.2.2, t.Made processor := by
  induction fuel generalizing k s with
  | zero => exact ⟨fun _ => (turns k).round (.error .fail), rfl, fun _ h => by cases h⟩
  | succ fuel ih =>
    obtain ⟨send, hround, hmade⟩ := exchangeRoundOnWire_refines processor (hserved k) hs
    obtain ⟨code, fully, s₀, requests, hstore, -, h⟩ :=
      exchangeRound_spec ((turns k).round send) processor.maxHttpPayloadSize hs hne
    rw [hstore] at hround
    obtain ⟨⟨code', fully', s₁, transfers⟩, hwire, heq⟩ := Option.map_eq_some_iff.1 hround.symm
    cases heq
    have hfirst := hmade _ hwire
    simp only at hstore h hfirst
    rcases h with ⟨rfl, rfl, hidle, hne₁, -⟩ | ⟨hstop, -⟩
    · obtain ⟨env, hloop, hrest⟩ := ih (k + 1) hidle hne₁
      refine ⟨fun j => if j = k then (turns k).round send else env j, ?_, ?_⟩
      · have hcongr : exchangeLoop (fun j => if j = k then (turns k).round send else env j)
            processor.maxHttpPayloadSize fuel (k + 1) (.ok ()) s₁ = exchangeLoop env _ fuel (k + 1) (.ok ()) s₁ :=
          exchangeLoop_congr processor.maxHttpPayloadSize fuel (k + 1) (.ok ()) s₁ fun j hj => if_neg (by omega)
        simp only [exchangeLoop, exchangeLoopOnWire, if_true, hstore, hwire, Option.bind_eq_bind, Option.bind_some,
          hcongr, hloop]
        cases exchangeLoopOnWire processor turns fuel (k + 1) (.ok ()) s₁ with
        | none => rfl
        | some r =>
          simp only [Option.map_some, Option.bind_some, storeView, requestsOf, List.filterMap_append, Option.pure_def]
      · intro r hr
        simp only [exchangeLoopOnWire, hwire, Option.bind_eq_bind, Option.bind_some] at hr
        obtain ⟨r', hr', hr⟩ := Option.bind_eq_some_iff.1 hr
        cases hr
        intro t ht
        rcases List.mem_append.1 ht with ht | ht
        · exact hfirst t ht
        · exact hrest r' hr' t ht
    · have hend : exchangeLoopOnWire processor turns (fuel + 1) k (.ok ()) s = some (code', s₁, transfers) := by
        simp only [exchangeLoopOnWire, hwire, Option.bind_eq_bind, Option.bind_some]
        split
        · exact absurd ⟨rfl, rfl⟩ hstop
        · rfl
      refine ⟨fun _ => (turns k).round send, ?_, ?_⟩
      · simp only [hend, exchangeLoop, hstore, Option.bind_eq_bind, Option.bind_some]
        split
        · exact absurd ⟨rfl, rfl⟩ hstop
        · rfl
      · intro r hr
        rw [hend] at hr
        cases hr
        exact hfirst

/-- An exchange over the connection is one of the store, with the answers that came. -/
theorem exchangeOnWire_refines {turns : Nat → Turn} (hserved : ∀ k, (turns k).Served p) {s : Store p.sizeWidth}
    (hs : AllReady s) :
    ∃ env, exchange env processor.maxHttpPayloadSize s = (exchangeOnWire processor turns s).map storeView ∧
      ∀ r ∈ exchangeOnWire processor turns s, ∀ t ∈ r.2.2, t.Made processor := by
  have hitems := checkStoreSize_items processor.maxHttpPayloadSize s
  unfold exchange exchangeOnWire
  cases hcode : (checkStoreSize processor.maxHttpPayloadSize s).1 with
  | error e =>
    refine ⟨fun k => (turns k).round (.error .fail), ?_, ?_⟩
    · simp only [hcode, exchangeLoop, exchangeLoopOnWire, exchangeRound, exchangeRoundOnWire]
      cases hscan : scanStoreAfterExchange (.error e) (checkStoreSize processor.maxHttpPayloadSize s).2 with
      | none => rfl
      | some r =>
        obtain ⟨s', -, heq⟩ := Option.map_eq_some_iff.1 hscan
        cases heq
        rfl
    · intro r hr
      simp only [hcode, exchangeLoopOnWire, exchangeRoundOnWire] at hr
      cases hscan : scanStoreAfterExchange (.error e) (checkStoreSize processor.maxHttpPayloadSize s).2 with
      | none =>
        rw [hscan] at hr
        cases hr
      | some r' =>
        obtain ⟨s', -, heq⟩ := Option.map_eq_some_iff.1 hscan
        cases heq
        rw [hscan] at hr
        cases hr
        exact fun _ h => by cases h
  | ok u =>
    have hne : s.items ≠ [] := by
      intro hnil
      rw [checkStoreSize_storeIsEmpty hnil] at hcode
      cases hcode
    rw [← hitems] at hne
    obtain ⟨env, hloop, hmade⟩ := exchangeLoopOnWire_refines processor hserved
      ((checkStoreSize processor.maxHttpPayloadSize s).2.itemList.count + 1) 0
      (hs.checkStoreSize processor.maxHttpPayloadSize) hne
    exact ⟨env, by simpa only [hcode] using hloop, by simpa only [hcode] using hmade⟩

/-! ## Runs -/

/-- The item an operation puts into the store, if it succeeds. -/
def WireOp.added : WireOp → Option ItemRef
  | .add item allocated =>
    match item.item.validate with
    | .ok () => if allocated then some item else none
    | .error _ => none
  | .exchange _ => none

def WireOp.Served (p : Platform) : WireOp → Prop
  | .add _ _ => True
  | .exchange turns => ∀ k, (turns k).Served p

/-- The exchange as the store sees it. -/
def WireCall.call {w : Nat} (c : WireCall w) : ExchangeCall w := ⟨c.before, c.code, c.after, requestsOf c.transfers⟩

theorem runOnWire_refines (ops : List WireOp) (hserved : ∀ op ∈ ops, op.Served p) {s : Store p.sizeWidth}
    (hs : AllReady s) :
    ∃ (storeOps : List (StoreOp p.sizeWidth)) (s' : Store p.sizeWidth) (calls : List (WireCall p.sizeWidth)),
      storeOps.filterMap StoreOp.added = ops.filterMap WireOp.added ∧
      runOnWire processor ops s = some (s', calls) ∧ runStore storeOps s = some (s', calls.map WireCall.call) ∧
      ∀ c ∈ calls, ∀ t ∈ c.transfers, t.Made processor := by
  induction ops generalizing s with
  | nil => exact ⟨[], s, [], rfl, rfl, rfl, by simp⟩
  | cons op ops ih =>
    have hrest := fun o ho => hserved o (List.mem_cons_of_mem op ho)
    cases op with
    | add item allocated =>
      obtain ⟨storeOps, s', calls, hadded, hwire, hstore, hmade⟩ := ih hrest (storeAdd_spec hs item allocated).1
      refine ⟨.add item allocated :: storeOps, s', calls, ?_, hwire, hstore, hmade⟩
      rw [List.filterMap_cons, List.filterMap_cons, hadded]
      rfl
    | exchange turns =>
      obtain ⟨env, hrefines, hmade⟩ := exchangeOnWire_refines processor (hserved _ List.mem_cons_self) hs
      obtain ⟨code, s₁, requests, hexchange, -, hready, -⟩ := exchange_spec env processor.maxHttpPayloadSize hs
      rw [hexchange] at hrefines
      obtain ⟨⟨code', s₁', transfers⟩, hfirst, heq⟩ := Option.map_eq_some_iff.1 hrefines.symm
      cases heq
      obtain ⟨storeOps, s', calls, hadded, hwire, hstore, hmade'⟩ := ih hrest hready
      refine ⟨.exchange processor.maxHttpPayloadSize env :: storeOps, s', ⟨s, code', s₁', transfers⟩ :: calls, hadded,
        ?_, ?_, List.forall_mem_cons.2 ⟨hmade _ hfirst, hmade'⟩⟩
      · simp only [runOnWire, hfirst, Option.bind_eq_bind, Option.bind_some, hwire, Option.pure_def]
      · simp only [runStore, hexchange, Option.bind_eq_bind, Option.bind_some, hstore, Option.pure_def, List.map_cons]
        rfl

/-- What an exchange may do, and what the server has of it. -/
structure WireCall.Sound {w : Nat} (c : WireCall w) : Prop where
  store : c.call.Sound
  received : ∀ t ∈ c.transfers, t.Separable →
    serverReceives t.sent = some t.contents ∨ serverReceives t.sent = none ∧ ∃ e, t.answer = .error e
  delivered : ∀ item ∈ c.before.items, item ∉ c.after.items →
    ∃ t ∈ c.transfers, t.answer = .ok 200 ∧ item ∈ t.items ∧ (t.Separable → serverReceives t.sent = some t.contents)

theorem request_eq_some {t : Transfer} {r : Request} (h : t.request = some r) :
    t.answer = .ok r.status ∧ r.items = t.items := by
  unfold Transfer.request at h
  split at h
  · rename_i hanswer
    cases h
    exact ⟨hanswer, rfl⟩
  · cases h

theorem WireCall.sound_of_made {w : Nat} {c : WireCall w} (hstore : c.call.Sound)
    (hreceived : ∀ t ∈ c.transfers, t.Separable →
      serverReceives t.sent = some t.contents ∨ serverReceives t.sent = none ∧ ∃ e, t.answer = .error e) : c.Sound := by
  refine ⟨hstore, hreceived, fun item hitem hgone => ?_⟩
  rcases hstore.accounted item hitem with ⟨-, pre, r, post, hrequests, hstatus, hmem, -⟩ | ⟨hkept, -⟩
  · have hr : r ∈ c.transfers.filterMap Transfer.request := by
      show r ∈ c.call.requests
      rw [hrequests]
      exact List.mem_append_right _ List.mem_cons_self
    obtain ⟨t, ht, hrequest⟩ := List.mem_filterMap.1 hr
    obtain ⟨hanswer, hitems⟩ := request_eq_some hrequest
    rw [hstatus] at hanswer
    refine ⟨t, ht, hanswer, hitems ▸ hmem, fun hseparable => (hreceived t ht hseparable).resolve_right ?_⟩
    rintro ⟨-, e, herror⟩
    rw [hanswer] at herror
    cases herror
  · exact absurd hkept hgone

/-- **Delivery.** In every run of additions and exchanges over connections that may fail at any point, an item leaves
the store if and only if a request that carried it was answered with 200, exactly one of them, and then the server has
read the item with its contents from the connection. From no connection the server reads anything but all items of the
request, and where it reads none there was no answer. -/
theorem runOnWire_sound {host path : Bytes} (hplain : processor.Plain host path) (ops : List WireOp)
    (hserved : ∀ op ∈ ops, op.Served p) (distinct : (ops.filterMap WireOp.added).Nodup) :
    ∃ s calls, runOnWire processor ops .empty = some (s, calls) ∧ (∀ c ∈ calls, c.Sound) ∧
      (ops.filterMap WireOp.added).Perm (s.items ++ calls.flatMap fun c => delivered c.call.requests) := by
  obtain ⟨storeOps, s, calls, hadded, hwire, hstore, hmade⟩ := runOnWire_refines processor ops hserved allReady_empty
  have hnodup : ((Store.empty : Store p.sizeWidth).items ++ storeOps.filterMap StoreOp.added).Nodup := by
    rw [items_empty, List.nil_append, hadded]
    exact distinct
  obtain ⟨s', calls', hrun, -, hperm, hsound⟩ := runStore_spec storeOps allReady_empty hnodup
  rw [hstore] at hrun
  cases hrun
  refine ⟨s, calls, hwire, fun c hc => WireCall.sound_of_made (hsound _ (List.mem_map_of_mem hc)) fun t ht => ?_, ?_⟩
  · exact (hmade c hc t ht).received hplain
  · rw [items_empty, List.nil_append, hadded, List.flatMap_map] at hperm
    exact hperm

end

def sampleExchangeProcessor : ExchangeProcessor HttpClientBasic.platform64 where
  accessToken := some (.lit "token")
  exchangeUrl := some HttpClientBasic.sampleUri
  httpClient := HttpClientBasic.sampleClient
  maxHttpPayloadSize := 1000

/-- All goes well, and the server answers at once. -/
def sampleTurn : Turn where
  boundaryBytes := .ok ⟨List.replicate 20 0, rfl⟩
  bodyAllocated := true
  subBoundaryBytes _ := .ok ⟨List.replicate 20 1, rfl⟩
  metaMemory _ := .ok ()
  payloadMemory _ := .ok ()
  file _ := []
  requestMemory := ⟨true, true, true, true, true, fun _ => true, fun _ => true⟩
  correlationId := ⟨List.replicate 33 0, rfl⟩
  randomBytes := .ok ⟨List.replicate 16 7, rfl⟩
  socket := HttpClientBasic.workingEnvironment
  sends _ := .ok 4
  source := ⟨ascii "HTTP/1.1 200 OK\r\nContent-Length: 0\r\n\r\n", fun _ => 2, .networkReceiveFail⟩
  responseMemory := HttpClientBasic.freshMemory

theorem sampleExchangeProcessor_plain : sampleExchangeProcessor.Plain (ascii "h") (ascii "/p") := by
  refine ⟨fun url hurl => ?_, fun token htoken => ?_, by decide, by decide, by decide, by decide, by decide⟩
  · cases hurl
    exact HttpClientBasic.sampleUri_parts
  · cases htoken
    decide

theorem sampleTurn_served : sampleTurn.Served HttpClientBasic.platform64 := by
  have hclean : HttpClientBasic.freshMemory.Clean HttpClientBasic.platform64 :=
    fun _ => show 0 % 2 ^ 64 < 2 ^ 32 by decide
  exact ⟨HttpClientBasic.freshMemory_available, HttpClientBasic.tame_of_length hclean (by decide)⟩

/-- The connection breaks behind the first bytes. -/
def lostTurn : Turn := { sampleTurn with sends := fun i => if i = 0 then .ok 4 else .error .networkSendFail }

/-- An addition that fails is repeated, and so is an exchange. -/
def sampleWireRun : List WireOp :=
  [.add (sampleItem 1) true, .add (sampleItem 2) false, .add (sampleItem 2) true, .exchange fun _ => lostTurn,
    .exchange fun _ => sampleTurn]

theorem runOnWire_sample : ∃ s calls, runOnWire sampleExchangeProcessor sampleWireRun .empty = some (s, calls) ∧
    (∀ c ∈ calls, c.Sound) ∧
      [sampleItem 1, sampleItem 2].Perm (s.items ++ calls.flatMap fun c => delivered c.call.requests) := by
  refine runOnWire_sound sampleExchangeProcessor sampleExchangeProcessor_plain sampleWireRun (fun op hop => ?_) ?_
  · simp only [sampleWireRun, List.mem_cons, List.not_mem_nil, or_false] at hop
    rcases hop with rfl | rfl | rfl | rfl | rfl
    · trivial
    · trivial
    · trivial
    · exact fun _ => ⟨sampleTurn_served.available, sampleTurn_served.tame⟩
    · exact fun _ => sampleTurn_served
  · show [sampleItem 1, sampleItem 2].Nodup
    simp [sampleItem]

end MindConnect
