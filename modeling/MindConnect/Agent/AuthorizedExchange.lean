import MindConnect.Agent.ClientReference
import MindConnect.Connectivity.ExchangeOnWire

/-!
# Exchanges under the access token of the moment

A core and a store, used in any order. `mcl_connectivity_exchange` (`connectivity.c:63`) takes the token of the core
anew for every exchange. Whatever happens to registrations and tokens in between, a request that the server can read
carries the token of the latest token request, and without one nothing is sent (`run_authorized`).
-/

namespace MindConnect

open JsonUtil CriticalSection
open HttpClientBasic (Platform)

/-! ## The code -/

structure StoreAgent (w : Nat) where
  handler : SecurityHandler
  store : Store w

inductive StoreAgentOp where
  | core (op : CoreOp) (env : Environment)
  | add (item : ItemRef) (allocated : Bool)
  | exchange (tokenAllocated : Bool) (turns : Nat → Turn)

/-- The code, and what went over connections. -/
structure StoreAgentOutcome where
  code : Result Unit
  transfers : List Transfer

section
variable (c : CoreConfiguration) {p : Platform} (processor : ExchangeProcessor p)

/-- The token that the processor had before is freed. -/
def mclConnectivityExchange (tokenAllocated : Bool) (turns : Nat → Turn) (a : StoreAgent p.sizeWidth) :
    Option (Result Unit × Store p.sizeWidth × List Transfer) :=
  match mclCoreGetLastAccessToken tokenAllocated a.handler with
  | .error e => some (.error e, a.store, [])
  | .ok token => exchangeOnWire { processor with accessToken := some token } turns a.store

def StoreAgentOp.perform (op : StoreAgentOp) (a : StoreAgent p.sizeWidth) :
    Option (StoreAgentOutcome × StoreAgent p.sizeWidth) :=
  match op with
  | .core op env => (op.perform c env a.handler).map fun (code, h) => (⟨code, []⟩, { a with handler := h })
  | .add item allocated =>
    let (code, store) := storeAdd a.store item allocated
    some (⟨code, []⟩, { a with store })
  | .exchange tokenAllocated turns => (mclConnectivityExchange processor tokenAllocated turns a).map
      fun (code, store, transfers) => (⟨code, transfers⟩, { a with store })

def StoreAgentPerforms (op : StoreAgentOp) (a : StoreAgent p.sizeWidth) (out : StoreAgentOutcome)
    (a' : StoreAgent p.sizeWidth) : Prop :=
  op.perform c processor a = some (out, a')

end

abbrev StoreAgentCall (w : Nat) := Done (StoreAgent w) StoreAgentOp StoreAgentOutcome

/-! ## Tokens -/

/-- The token of the answer to a token request. -/
def IssuesToken (c : CoreConfiguration) (env : Environment) (token : CString) : Prop :=
  ∃ response, (accessTokenRequest c env >>= env.send) = .ok response ∧
    httpResponseGetStatus response.statusCode = .ok () ∧
      (parsePayload env response >>= fun json => getObjectItem json jsonNameAccessToken) = .ok (.string token)

/-- A request for a token, on a core that is onboarded. -/
def StoreAgentOp.requestsToken (h : SecurityHandler) : StoreAgentOp → Bool
  | .core .getAccessToken _ => isOnboarded h
  | _ => false

/-- The latest token request was answered with the token. -/
def LatestToken {w : Nat} (c : CoreConfiguration) (calls : List (StoreAgentCall w)) (token : CString) : Prop :=
  ∃ earlier g later env, calls = earlier ++ g :: later ∧ g.call = .core .getAccessToken env ∧ g.out.code = .ok () ∧
    IssuesToken c env token ∧ ∀ d ∈ later, d.call.requestsToken d.before.handler = false

theorem LatestToken.snoc {w : Nat} {c : CoreConfiguration} {calls : List (StoreAgentCall w)} {token : CString}
    (h : LatestToken c calls token) {d : StoreAgentCall w} (hd : d.call.requestsToken d.before.handler = false) :
    LatestToken c (calls ++ [d]) token := by
  obtain ⟨earlier, g, later, env, rfl, hg, hcode, hissues, hlater⟩ := h
  refine ⟨earlier, g, later ++ [d], env, by simp, hg, hcode, hissues, fun e he => ?_⟩
  rcases List.mem_append.1 he with he | he
  · exact hlater e he
  · rw [List.mem_singleton.1 he]
    exact hd

section
variable {c : CoreConfiguration} {env : Environment} {h h' : SecurityHandler} {code : Result Unit}

theorem initialize_accessToken (hinit : initializeSecurityHandler c env = .ok h) : h.accessToken = none := by
  have hload {h : SecurityHandler} (hload : loadInitialCredentials c env = .ok h) : h.accessToken = none := by
    unfold loadInitialCredentials at hload
    split at hload
    · cases hload
    · cases hload
      rfl
    · cases hkeys : env.generateRsaKey with
      | error e =>
        rw [hkeys] at hload
        cases hload
      | ok keys =>
        rw [hkeys] at hload
        cases hload
        rfl
  have hcustom {h : SecurityHandler} (hcustom : customLoadRegisterInfo c env = .ok h) : h.accessToken = none := by
    unfold customLoadRegisterInfo at hcustom
    cases hloaded : env.load with
    | error e =>
      rw [hloaded] at hcustom
      cases hcustom
    | ok loaded =>
      rw [hloaded] at hcustom
      cases hcustom
      cases c.securityProfile <;> rfl
  unfold initializeSecurityHandler at hinit
  split at hinit
  · split at hinit
    · exact hload hinit
    · exact hcustom hinit
  · exact hload hinit

theorem replaceCredentials_accessToken (profile : SecurityProfile) (json : Json) :
    (replaceCredentials profile json h).accessToken = h.accessToken := by
  cases profile <;> rfl

theorem register_accessToken (hreg : register c env h = some (code, h')) : h'.accessToken = h.accessToken := by
  by_cases hread : ∃ json, Success c env h json ∧
      ∀ name ∈ registrationNames c.securityProfile, readable env json name = true
  · obtain ⟨json, hsuccess, hall⟩ := hread
    rw [register_of_success hsuccess hall] at hreg
    cases hreg
    exact replaceCredentials_accessToken c.securityProfile json
  · have hprepared : prepareRegistration c env h ≠ none := by
      intro hnone
      unfold register at hreg
      rw [hnone] at hreg
      cases hreg
    obtain ⟨e, herror⟩ := register_of_not_success hprepared fun json hsuccess hall => hread ⟨json, hsuccess, hall⟩
    rw [herror] at hreg
    cases hreg
    rfl

theorem updateCredentials_accessToken (hupdate : updateCredentials c env h = some (code, h')) :
    h'.accessToken = h.accessToken := by
  unfold updateCredentials at hupdate
  split at hupdate
  · cases hupdate
    rfl
  · cases hload : env.load with
    | error e =>
      rw [hload] at hupdate
      cases hupdate
      rfl
    | ok loaded =>
      rw [hload] at hupdate
      obtain ⟨clientId, -, hupdate⟩ := Option.bind_eq_some_iff.1 hupdate
      split at hupdate
      · cases hupdate
        rfl
      · obtain ⟨checked, -, hupdate⟩ := Option.bind_eq_some_iff.1 hupdate
        split at hupdate
        · cases hupdate
          rfl
        · cases hupdate
          unfold adopt
          split <;> rfl

/-- Registrations and stored credentials leave the token as it is. -/
theorem perform_accessToken {op : CoreOp} (hop : op ≠ .getAccessToken)
    (hperform : op.perform c env h = some (code, h')) : h'.accessToken = h.accessToken := by
  have hsection {part : Option (Result Unit × SecurityHandler)}
      (hpart : part = some (code, h') → h'.accessToken = h.accessToken)
      (hcritical : criticalSection c env h part = some (code, h')) : h'.accessToken = h.accessToken := by
    unfold criticalSection at hcritical
    split at hcritical
    · split at hcritical
      · exact hpart hcritical
      · cases hcritical
        rfl
    · exact hpart hcritical
  cases op with
  | onboard =>
    refine hsection (fun hpart => ?_) hperform
    unfold onboardSection at hpart
    split at hpart
    · exact register_accessToken hpart
    · cases hpart
      rfl
  | rotateKey =>
    refine hsection (fun hpart => ?_) hperform
    unfold rotateKeySection at hpart
    split at hpart
    · exact register_accessToken hpart
    · cases hpart
      rfl
  | updateCredentials =>
    refine hsection (fun hpart => ?_) hperform
    unfold updateCredentialsSection at hpart
    split at hpart
    · exact updateCredentials_accessToken hpart
    · cases hpart
      rfl
  | getAccessToken => exact absurd rfl hop

/-- A token that a request leaves behind is that of its answer. -/
theorem getAccessToken_issues {token : CString} (htoken : (getAccessToken c env h).2.accessToken = some token) :
    (getAccessToken c env h).1 = .ok () ∧ IssuesToken c env token := by
  unfold getAccessToken at htoken ⊢
  cases hsend : accessTokenRequest c env >>= env.send with
  | error e =>
    rw [hsend] at htoken
    cases htoken
  | ok response =>
    simp only [hsend] at htoken ⊢
    split at htoken
    · cases htoken
    · rename_i accessToken hread
      obtain rfl : accessToken = some token := htoken
      obtain ⟨u, hstatus, hread⟩ := bind_eq_ok hread
      obtain ⟨json, hparse, hread⟩ := bind_eq_ok hread
      obtain ⟨item, hitem, hread⟩ := bind_eq_ok hread
      refine ⟨rfl, response, hsend, hstatus, ?_⟩
      rw [hparse]
      change getObjectItem json jsonNameAccessToken = _
      rw [hitem]
      cases item with
      | string s =>
        by_cases hcopied : env.stringCopied jsonNameAccessToken = true
        · simp only [getString, hcopied, if_true] at hread
          cases hread
          rfl
        · simp only [getString, hcopied] at hread
          cases hread
      | _ => cases hread

end

/-! ## One exchange -/

section
variable {p : Platform} {processor : ExchangeProcessor p} {host path : Bytes}

theorem ExchangeProcessor.Plain.withToken (hplain : processor.Plain host path) {token : CString}
    (htext : Http1.isText token.bytes = true) :
    ({ processor with accessToken := some token } : ExchangeProcessor p).Plain host path where
  url := hplain.url
  accessToken := by
    rintro _ ⟨⟩
    exact htext
  user_agent := hplain.user_agent
  host_text := hplain.host_text
  host_no_blank := hplain.host_no_blank
  path_text := hplain.path_text
  path_no_space := hplain.path_no_space

/-- The server finds one authorization, that of the processor's token. -/
theorem valuesOf_authorization (boundary : Boundary) (token url : CString) (randomBytes body host : Bytes) :
    Http1.valuesOf (ascii "Authorization") (HttpClientBasic.readFields processor.httpClient
      (composedRequest p boundary body url token randomBytes) (exchangeHeaders boundary token randomBytes) host) =
      [Http1.trim (bearerFormat token)] := by
  have hhost : Http1.same (ascii "Host") (ascii "Authorization") = false := by decide
  have htype : Http1.same (CString.lit "Content-Type").bytes (ascii "Authorization") = false := by decide
  have haccept : Http1.same (CString.lit "Accept").bytes (ascii "Authorization") = false := by decide
  have hown : Http1.same (CString.lit "Authorization").bytes (ascii "Authorization") = true := by decide
  have hid : Http1.same (CString.lit "Correlation-ID").bytes (ascii "Authorization") = false := by decide
  have hagent : Http1.same (ascii "User-Agent") (ascii "Authorization") = false := by decide
  have hlength : Http1.same (ascii "Content-Length") (ascii "Authorization") = false := by decide
  have hchunked : Http1.same (ascii "Transfer-Encoding") (ascii "Authorization") = false := by decide
  have hframing : ∀ size, Http1.valuesOf (ascii "Authorization") (HttpClientBasic.framingFields size) = [] := by
    intro size
    unfold HttpClientBasic.framingFields
    split
    · simp only [Http1.valuesOf, List.filter_cons, hlength, Bool.false_eq_true, if_false, List.filter_nil, List.map_nil]
    · simp only [Http1.valuesOf, List.filter_cons, hchunked, Bool.false_eq_true, if_false, List.filter_nil,
        List.map_nil]
  have hpost : (composedRequest p boundary body url token randomBytes).method ≠ .get := by
    show HttpClientBasic.Method.post ≠ .get
    decide
  have htext := CString.ofBuffer_bytes (bearerFormat_nul_free token)
  have hrest := hframing (composedRequest p boundary body url token randomBytes).payloadSize
  unfold Http1.valuesOf at hrest ⊢
  simp only [HttpClientBasic.readFields, exchangeHeaders, List.map_cons, List.map_nil, List.cons_append,
    List.nil_append, List.filter_cons, hhost, htype, haccept, hown, hid, hagent, if_true, Bool.false_eq_true, if_false,
    if_pos hpost, hrest, htext]

theorem Transfer.Made.authorization (hplain : processor.Plain host path) {t : Transfer} (h : t.Made processor)
    {request : Http1.Request} {rest : Bytes} (hread : Http1.parseRequest t.sent = some (request, rest)) :
    ∃ token, processor.accessToken = some token ∧
      Http1.valuesOf (ascii "Authorization") request.fields = [Http1.trim (bearerFormat token)] := by
  obtain ⟨turn, boundary, items, body, sent, answer⟩ := t
  cases sendExchangeRequest_sent hplain h.body.ne_nil h.size h.sent with
  | cut hcut =>
    rw [hcut] at hread
    cases hread
  | @whole token url randomBytes sent answer htoken hwhole =>
    rw [hwhole] at hread
    cases hread
    exact ⟨token, htoken, valuesOf_authorization boundary token url randomBytes body host⟩

/-- What an exchange comes to: that of the store under the handler's token, or an error and nothing sent. -/
structure ExchangeDone (processor : ExchangeProcessor p) (a : StoreAgent p.sizeWidth) (code : Result Unit)
    (store : Store p.sizeWidth) (transfers : List Transfer) : Prop where
  exchanged : Exchanged a.store store (requestsOf transfers)
  ready : AllReady store
  ok_iff : a.store.items ≠ [] → (code = .ok () ↔ store.items = [])
  made : ∀ t ∈ transfers, ∃ token, a.handler.accessToken = some token ∧
    t.Made { processor with accessToken := some token }
  silent : a.handler.accessToken = none → (∃ e, code = .error e) ∧ store = a.store ∧ transfers = []

theorem mclConnectivityExchange_spec (processor : ExchangeProcessor p) (tokenAllocated : Bool) {turns : Nat → Turn}
    (hserved : ∀ k, (turns k).Served p) {a : StoreAgent p.sizeWidth} (hready : AllReady a.store) :
    ∃ code store transfers, mclConnectivityExchange processor tokenAllocated turns a = some (code, store, transfers) ∧
      ExchangeDone processor a code store transfers := by
  unfold mclConnectivityExchange
  cases hlast : mclCoreGetLastAccessToken tokenAllocated a.handler with
  | error e =>
    refine ⟨.error e, a.store, [], rfl, .of_items_eq rfl rfl fun r hr => (by cases hr), hready,
      fun hne => iff_of_false (fun h => by cases h) hne, fun t ht => (by cases ht), fun _ => ⟨⟨e, rfl⟩, rfl, rfl⟩⟩
  | ok token =>
    have htoken : a.handler.accessToken = some token := by
      unfold mclCoreGetLastAccessToken at hlast
      split at hlast
      · cases hlast
      · cases hstored : a.handler.accessToken with
        | none =>
          rw [hstored] at hlast
          cases hlast
        | some stored =>
          simp only [hstored] at hlast
          split at hlast <;> cases hlast
          rfl
    obtain ⟨env, hrefines, hmade⟩ :=
      exchangeOnWire_refines { processor with accessToken := some token } hserved hready
    obtain ⟨code, store, requests, hexchange, hexchanged, hready', hok⟩ :=
      exchange_spec env processor.maxHttpPayloadSize hready
    rw [hexchange] at hrefines
    obtain ⟨⟨code', store', transfers⟩, hwire, heq⟩ := Option.map_eq_some_iff.1 hrefines.symm
    cases heq
    refine ⟨code', store', transfers, hwire, hexchanged, hready', hok, fun t ht => ⟨token, htoken, hmade _ hwire t ht⟩,
      fun hnone => ?_⟩
    rw [htoken] at hnone
    cases hnone

end

/-! ## Runs -/

/-- The item that a call puts into the store, if it succeeds. -/
def StoreAgentOp.added : StoreAgentOp → Option ItemRef
  | .add item allocated => (WireOp.add item allocated).added
  | _ => none

/-- The tokens of answers fit on a header line, and the connections of an exchange have a memory for responses. -/
def StoreAgentOp.Served (c : CoreConfiguration) (p : Platform) : StoreAgentOp → Prop
  | .core .getAccessToken env => ∀ token, IssuesToken c env token → Http1.isText token.bytes = true
  | .exchange _ turns => ∀ k, (turns k).Served p
  | _ => True

/-- The exchange as one over connections. -/
def StoreAgentCall.wireCall {w : Nat} (d : StoreAgentCall w) : WireCall w :=
  ⟨d.before.store, d.out.code, d.after.store, d.out.transfers⟩

def addedItems {w : Nat} (calls : List (StoreAgentCall w)) : List ItemRef := calls.filterMap fun d => d.call.added

def deliveredItems {w : Nat} (calls : List (StoreAgentCall w)) : List ItemRef :=
  calls.flatMap fun d => delivered d.wireCall.call.requests

/-- What an exchange behind `calls` may do. -/
structure AuthorizedExchange {w : Nat} (c : CoreConfiguration) (calls : List (StoreAgentCall w))
    (d : StoreAgentCall w) : Prop where
  sound : d.wireCall.Sound
  authorized : ∀ t ∈ d.out.transfers, ∀ request rest, Http1.parseRequest t.sent = some (request, rest) →
    ∃ token, LatestToken c calls token ∧
      Http1.valuesOf (ascii "Authorization") request.fields = [Http1.trim (bearerFormat token)]
  silent : (∀ token, ¬ LatestToken c calls token) →
    (∃ e, d.out.code = .error e) ∧ d.after = d.before ∧ d.out.transfers = []

/-- Where a run has come to. -/
structure StoreAgentReached {w : Nat} (c : CoreConfiguration) (calls : List (StoreAgentCall w)) (a : StoreAgent w) :
    Prop where
  ready : AllReady a.store
  accounted : (addedItems calls).Perm (a.store.items ++ deliveredItems calls)
  token : ∀ token, a.handler.accessToken = some token → LatestToken c calls token ∧ Http1.isText token.bytes = true

theorem addedItems_snoc {w : Nat} (calls : List (StoreAgentCall w)) (d : StoreAgentCall w) :
    addedItems (calls ++ [d]) = addedItems calls ++ d.call.added.toList := by
  rw [addedItems, addedItems, List.filterMap_append, List.filterMap_cons]
  cases d.call.added <;> rfl

theorem deliveredItems_snoc {w : Nat} (calls : List (StoreAgentCall w)) (d : StoreAgentCall w) :
    deliveredItems (calls ++ [d]) = deliveredItems calls ++ delivered d.wireCall.call.requests := by
  rw [deliveredItems, deliveredItems, List.flatMap_append, List.flatMap_singleton]

section
variable {c : CoreConfiguration} {p : Platform} {processor : ExchangeProcessor p}
  {calls : List (StoreAgentCall p.sizeWidth)} {a a' : StoreAgent p.sizeWidth}

theorem StoreAgentReached.core (h : StoreAgentReached c calls a) {op : CoreOp} {env : Environment}
    (hserved : (StoreAgentOp.core op env).Served c p) {code : Result Unit} {handler : SecurityHandler}
    (hperform : op.perform c env a.handler = some (code, handler)) :
    StoreAgentReached c (calls ++ [⟨.core op env, a, ⟨code, []⟩, { a with handler }⟩]) { a with handler } := by
  refine ⟨h.ready, ?_, fun token htoken => ?_⟩
  · rw [addedItems_snoc, deliveredItems_snoc]
    show (addedItems calls ++ []).Perm (a.store.items ++ (deliveredItems calls ++ []))
    rw [List.append_nil, List.append_nil]
    exact h.accounted
  · change handler.accessToken = some token at htoken
    by_cases hrequests : (StoreAgentOp.core op env).requestsToken a.handler = true
    · cases op with
      | getAccessToken =>
        have honboarded : isOnboarded a.handler = true := hrequests
        change mclCoreGetAccessToken c env a.handler = _ at hperform
        rw [mclCoreGetAccessToken, if_pos honboarded, Option.some.injEq] at hperform
        have hstored : (getAccessToken c env a.handler).2.accessToken = some token := by
          rw [hperform]
          exact htoken
        obtain ⟨hok, hissues⟩ := getAccessToken_issues hstored
        rw [hperform] at hok
        exact ⟨⟨calls, _, [], env, rfl, rfl, hok, hissues, fun d hd => by cases hd⟩, hserved token hissues⟩
      | _ => cases hrequests
    · have hsame : handler.accessToken = a.handler.accessToken := by
        by_cases hop : op = .getAccessToken
        · subst hop
          have honboarded : ¬ isOnboarded a.handler = true := hrequests
          change mclCoreGetAccessToken c env a.handler = _ at hperform
          rw [mclCoreGetAccessToken, if_neg honboarded] at hperform
          cases hperform
          rfl
        · exact perform_accessToken hop hperform
      obtain ⟨hlatest, htext⟩ := h.token token (hsame ▸ htoken)
      exact ⟨hlatest.snoc (Bool.eq_false_iff.2 hrequests), htext⟩

theorem StoreAgentReached.add (h : StoreAgentReached c calls a) (item : ItemRef) (allocated : Bool) :
    StoreAgentReached c (calls ++ [⟨.add item allocated, a, ⟨(storeAdd a.store item allocated).1, []⟩,
      { a with store := (storeAdd a.store item allocated).2 }⟩])
      { a with store := (storeAdd a.store item allocated).2 } := by
  obtain ⟨hready, hitems⟩ := storeAdd_spec h.ready item allocated
  refine ⟨hready, ?_, fun token htoken => ?_⟩
  · rw [addedItems_snoc, deliveredItems_snoc, hitems]
    show (addedItems calls ++ (StoreOp.add item allocated : StoreOp p.sizeWidth).added.toList).Perm
      (a.store.items ++ (StoreOp.add item allocated : StoreOp p.sizeWidth).added.toList ++ (deliveredItems calls ++ []))
    rw [List.append_nil]
    refine (h.accounted.append_right _).trans ?_
    rw [List.append_assoc, List.append_assoc]
    exact List.perm_append_comm.append_left _
  · obtain ⟨hlatest, htext⟩ := h.token token htoken
    exact ⟨hlatest.snoc rfl, htext⟩

theorem StoreAgentReached.exchange (h : StoreAgentReached c calls a) {tokenAllocated : Bool} {turns : Nat → Turn}
    {code : Result Unit} {store : Store p.sizeWidth} {transfers : List Transfer}
    (hdone : ExchangeDone processor a code store transfers) :
    StoreAgentReached c (calls ++ [⟨.exchange tokenAllocated turns, a, ⟨code, transfers⟩, { a with store }⟩])
      { a with store } := by
  refine ⟨hdone.ready, ?_, fun token htoken => ?_⟩
  · rw [addedItems_snoc, deliveredItems_snoc]
    show (addedItems calls ++ []).Perm (store.items ++ (deliveredItems calls ++ delivered (requestsOf transfers)))
    rw [List.append_nil]
    refine h.accounted.trans ((hdone.exchanged.perm.append_right _).trans ?_)
    rw [List.append_assoc]
    exact List.perm_append_comm.append_left _
  · obtain ⟨hlatest, htext⟩ := h.token token htoken
    exact ⟨hlatest.snoc rfl, htext⟩

/-- Whatever was called, the store is accounted for and the token is that of the latest request. -/
theorem storeAgentReached_of_run {h₀ : SecurityHandler} (hnone : h₀.accessToken = none)
    (run : Serial (StoreAgentPerforms c processor) ⟨h₀, .empty⟩ calls a)
    (hserved : ∀ d ∈ calls, d.call.Served c p) : StoreAgentReached c calls a := by
  induction run with
  | nil =>
    refine ⟨allReady_empty, .nil, fun token htoken => ?_⟩
    rw [hnone] at htoken
    cases htoken
  | @snoc a a' calls op out run performs ih =>
    have hreached := ih fun d hd => hserved d (List.mem_append_left _ hd)
    have hown := hserved ⟨op, a, out, a'⟩ (List.mem_append_right _ List.mem_cons_self)
    cases op with
    | core op env =>
      obtain ⟨⟨code, handler⟩, hperform, heq⟩ := Option.map_eq_some_iff.1 performs
      cases heq
      exact hreached.core hown hperform
    | add item allocated =>
      cases performs
      exact hreached.add item allocated
    | exchange tokenAllocated turns =>
      obtain ⟨⟨code, store, transfers⟩, hperform, heq⟩ := Option.map_eq_some_iff.1 performs
      cases heq
      obtain ⟨code', store', transfers', hspec, hdone⟩ :=
        mclConnectivityExchange_spec processor tokenAllocated hown hreached.ready
      rw [hspec] at hperform
      cases hperform
      exact hreached.exchange hdone

/-- **Authorization.** In every run of registrations, rotations, credential updates, token requests, additions and
exchanges on one agent, over connections that may fail at any point, each item that was added is in the store or was
delivered once, and every request of an exchange that the server can read carries the token of the latest token request
that was answered; while there is none, nothing is sent and nothing changes. Every exchange ends. -/
theorem run_authorized {host path : Bytes} (hplain : processor.Plain host path) {env₀ : Environment}
    {h₀ : SecurityHandler} (hinit : initializeSecurityHandler c env₀ = .ok h₀)
    (run : Serial (StoreAgentPerforms c processor) ⟨h₀, .empty⟩ calls a)
    (hserved : ∀ d ∈ calls, d.call.Served c p) (distinct : (addedItems calls).Nodup) :
    (∀ pre d post, calls = pre ++ d :: post →
      ∀ tokenAllocated turns, d.call = .exchange tokenAllocated turns → AuthorizedExchange c pre d) ∧
    (addedItems calls).Perm (a.store.items ++ deliveredItems calls) ∧
    ∀ tokenAllocated turns, (∀ k, (turns k).Served p) →
      ∃ out a', StoreAgentPerforms c processor (.exchange tokenAllocated turns) a out a' := by
  have hnone := initialize_accessToken hinit
  have hreached := storeAgentReached_of_run hnone run hserved
  refine ⟨?_, hreached.accounted, fun tokenAllocated turns hturns => ?_⟩
  · rintro pre ⟨op, before, out, after⟩ post rfl tokenAllocated turns hop
    obtain rfl : op = .exchange tokenAllocated turns := hop
    have hmem : ⟨.exchange tokenAllocated turns, before, out, after⟩ ∈
        pre ++ (⟨.exchange tokenAllocated turns, before, out, after⟩ : StoreAgentCall p.sizeWidth) :: post :=
      List.mem_append_right _ List.mem_cons_self
    have hexec : (StoreAgentOp.exchange tokenAllocated turns).perform c processor before = some (out, after) :=
      run.exec_of_mem hmem
    have hpre := storeAgentReached_of_run hnone run.before fun d hd => hserved d (List.mem_append_left _ hd)
    have hown := hserved _ hmem
    obtain ⟨⟨code, store, transfers⟩, hperform, heq⟩ := Option.map_eq_some_iff.1 hexec
    cases heq
    obtain ⟨code', store', transfers', hspec, hdone⟩ :=
      mclConnectivityExchange_spec processor tokenAllocated hown hpre.ready
    rw [hspec] at hperform
    cases hperform
    have hnodup : before.store.items.Nodup := by
      rw [addedItems, List.filterMap_append] at distinct
      exact (List.nodup_append.1 (hpre.accounted.nodup_iff.1 (List.nodup_append.1 distinct).1)).1
    have hplainly : ∀ t ∈ transfers, ∃ token, before.handler.accessToken = some token ∧
        t.Made { processor with accessToken := some token } ∧
        ({ processor with accessToken := some token } : ExchangeProcessor p).Plain host path := by
      intro t ht
      obtain ⟨token, htoken, hmade⟩ := hdone.made t ht
      exact ⟨token, htoken, hmade, hplain.withToken (hpre.token token htoken).2⟩
    refine ⟨WireCall.sound_of_made (hdone.exchanged.sound hnodup hdone.ready hdone.ok_iff) ?_, ?_, fun hlatest => ?_⟩
    · intro t ht
      obtain ⟨token, -, hmade, htext⟩ := hplainly t ht
      exact hmade.received htext
    · intro t ht request rest hread
      obtain ⟨token, htoken, hmade, htext⟩ := hplainly t ht
      obtain ⟨token', htoken', hvalues⟩ := hmade.authorization htext hread
      cases htoken'
      exact ⟨token, (hpre.token token htoken).1, hvalues⟩
    · have hno : before.handler.accessToken = none := by
        cases hstored : before.handler.accessToken with
        | none => rfl
        | some token => exact absurd (hpre.token token hstored).1 (hlatest token)
      obtain ⟨hcode, hstore, htransfers⟩ := hdone.silent hno
      refine ⟨hcode, ?_, htransfers⟩
      change StoreAgent.mk before.handler store = before
      rw [hstore]
  · obtain ⟨code, store, transfers, hspec, -⟩ :=
      mclConnectivityExchange_spec processor tokenAllocated hturns hreached.ready
    refine ⟨⟨code, transfers⟩, { a with store }, ?_⟩
    simp only [StoreAgentPerforms, StoreAgentOp.perform, hspec, Option.map_some]

end

/-- Onboarding, a token, an item and its exchange. -/
def sampleAgentOps : List StoreAgentOp :=
  [.core .onboard (serverEnvironment (registrationJson (.string (.lit "token")))),
    .core .getAccessToken tokenEnvironment, .add (sampleItem 1) true, .exchange true fun _ => sampleTurn]

theorem tokenEnvironment_issues {token : CString} (h : IssuesToken sharedSecretConfiguration tokenEnvironment token) :
    token = .lit "access" := by
  obtain ⟨response, hsend, -, hjson⟩ := h
  cases hsend
  cases hjson
  rfl

theorem run_authorized_sample : ∃ (calls : List (StoreAgentCall 64)) (a : StoreAgent 64),
    Serial (StoreAgentPerforms sharedSecretConfiguration sampleExchangeProcessor) ⟨emptySecurityHandler, .empty⟩ calls
      a ∧
    calls.map Done.call = sampleAgentOps ∧
    (∀ pre d post, calls = pre ++ d :: post →
      ∀ tokenAllocated turns, d.call = .exchange tokenAllocated turns →
        AuthorizedExchange sharedSecretConfiguration pre d) ∧
    (addedItems calls).Perm (a.store.items ++ deliveredItems calls) := by
  obtain ⟨h₁, honboard⟩ : ∃ h₁, CoreOp.onboard.perform sharedSecretConfiguration
      (serverEnvironment (registrationJson (.string (.lit "token")))) emptySecurityHandler = some (.ok (), h₁) :=
    ⟨_, rfl⟩
  obtain ⟨⟨code₂, h₂⟩, hrequest⟩ : ∃ r, CoreOp.getAccessToken.perform sharedSecretConfiguration tokenEnvironment h₁ =
      some r := by
    change ∃ r, mclCoreGetAccessToken sharedSecretConfiguration tokenEnvironment h₁ = some r
    unfold mclCoreGetAccessToken
    split
    · exact ⟨_, rfl⟩
    · exact ⟨_, rfl⟩
  have performs₁ : StoreAgentPerforms (p := HttpClientBasic.platform64) sharedSecretConfiguration
      sampleExchangeProcessor (.core .onboard (serverEnvironment (registrationJson (.string (.lit "token")))))
      ⟨emptySecurityHandler, .empty⟩ ⟨.ok (), []⟩ ⟨h₁, .empty⟩ := by
    rw [StoreAgentPerforms, StoreAgentOp.perform, honboard]
    rfl
  have performs₂ : StoreAgentPerforms sharedSecretConfiguration sampleExchangeProcessor
      (.core .getAccessToken tokenEnvironment) ⟨h₁, .empty⟩ ⟨code₂, []⟩ ⟨h₂, .empty⟩ := by
    rw [StoreAgentPerforms, StoreAgentOp.perform, hrequest]
    rfl
  have performs₃ : StoreAgentPerforms sharedSecretConfiguration sampleExchangeProcessor (.add (sampleItem 1) true)
      ⟨h₂, .empty⟩ ⟨(storeAdd .empty (sampleItem 1) true).1, []⟩ ⟨h₂, (storeAdd .empty (sampleItem 1) true).2⟩ := rfl
  have hready : AllReady (storeAdd (.empty : Store 64) (sampleItem 1) true).2 :=
    (storeAdd_spec allReady_empty (sampleItem 1) true).1
  obtain ⟨code, store, transfers, hexchange, -⟩ := mclConnectivityExchange_spec sampleExchangeProcessor true
    (fun _ => sampleTurn_served) (a := ⟨h₂, (storeAdd .empty (sampleItem 1) true).2⟩) hready
  have performs₄ : StoreAgentPerforms sharedSecretConfiguration sampleExchangeProcessor
      (.exchange true fun _ => sampleTurn) ⟨h₂, (storeAdd .empty (sampleItem 1) true).2⟩ ⟨code, transfers⟩
      ⟨h₂, store⟩ := by
    rw [StoreAgentPerforms, StoreAgentOp.perform, hexchange]
    rfl
  have run := (((Serial.nil.snoc performs₁).snoc performs₂).snoc performs₃).snoc performs₄
  have hinit : initializeSecurityHandler sharedSecretConfiguration offlineEnvironment = .ok emptySecurityHandler := rfl
  obtain ⟨hauthorized, haccounted, -⟩ := run_authorized sampleExchangeProcessor_plain hinit run
    (by
      intro d hd
      simp only [List.nil_append, List.cons_append, List.mem_cons, List.not_mem_nil, or_false] at hd
      rcases hd with rfl | rfl | rfl | rfl
      · trivial
      · intro token htoken
        rw [tokenEnvironment_issues htoken]
        decide
      · trivial
      · exact fun _ => sampleTurn_served)
    (List.nodup_singleton (sampleItem 1))
  exact ⟨_, _, run, rfl, hauthorized, haccounted⟩

end MindConnect
