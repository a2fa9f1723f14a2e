import MindConnect.Agent.ClientReference
import MindConnect.Core.HeaderLookup
import Mathlib.Data.List.Find

/-!
# How fresh an access token is

A core with nothing but token calls. Whatever fails in a request for a token, the handler is left without one, so that the
token handed out later is that of the latest request; the server time belongs to the latest response that had one.

| here | there |
| --- | --- |
| `Answer` | `mcl_http_response_t` with its header list |
| `mclCoreGetLastTokenTime` | `mcl_core_get_last_token_time` (`core.c:272`) |
| `TokenOp` | calls of these, of `mcl_core_get_access_token` (`:188`) and of `mcl_core_get_last_access_token` (`:235`) |

The header search takes the first line that holds the name anywhere. What is said of the time is about answers in which
no line but a field of that name does (`ServerTimeOnlyInItsField`).
-/

namespace MindConnect

open JsonUtil CriticalSection

/-! ## The code -/

def httpHeaderServerTime : CString := .lit "Server-Time"
/-- `headerCopied` is whether there was memory for the header's value. -/
structure Answer where
  statusCode : Nat
  payload : Option Bytes
  header : List CString
  headerCopied : Bool

def Answer.response (a : Answer) : HttpResponse where
  statusCode := a.statusCode
  payload := a.payload
  serverTime := (mclHttpResponseGetHeader a.headerCopied httpHeaderServerTime a.header).toOption

def mclCoreGetLastTokenTime (allocated : Bool) (h : SecurityHandler) : Result CString :=
  match h.lastTokenTime with
  | none => .error .noServerTime
  | some time => if allocated then .ok time else .error .outOfMemory

inductive TokenOp where
  | getAccessToken (env : Environment) (answer : Result Answer)
  | getLastAccessToken (allocated : Bool)
  | getLastTokenTime (allocated : Bool)

inductive TokenOutcome where
  | code (code : Result Unit)
  | string (string : Result CString)

/-- The environment with this answer to the request. -/
def answering (env : Environment) (answer : Result Answer) : Environment :=
  { env with send := fun _ => answer.map Answer.response }

def TokenOp.perform (c : CoreConfiguration) (op : TokenOp) (h : SecurityHandler) :
    Option (TokenOutcome × SecurityHandler) :=
  match op with
  | .getAccessToken env answer =>
    (mclCoreGetAccessToken c (answering env answer) h).map fun (code, h') => (.code code, h')
  | .getLastAccessToken allocated => some (.string (mclCoreGetLastAccessToken allocated h), h)
  | .getLastTokenTime allocated => some (.string (mclCoreGetLastTokenTime allocated h), h)

def TokenPerforms (c : CoreConfiguration) (op : TokenOp) (h : SecurityHandler) (out : TokenOutcome)
    (h' : SecurityHandler) : Prop :=
  op.perform c h = some (out, h')

abbrev TokenCall := Done SecurityHandler TokenOp TokenOutcome

/-! ## The server time of an answer -/

/-- The value of the first field `Server-Time`, in upper or lower case. -/
def Answer.serverTime (a : Answer) : Option CString := (a.header.find? (named httpHeaderServerTime)).map fieldValue

/-- No line holds the name but a field of that name. -/
def ServerTimeOnlyInItsField (a : Answer) : Prop :=
  ∀ line ∈ a.header, holdsName httpHeaderServerTime line = true → named httpHeaderServerTime line = true

instance (a : Answer) : Decidable (ServerTimeOnlyInItsField a) := inferInstanceAs (Decidable (∀ line ∈ a.header, _))

/-- The search finds the field of the answer. -/
theorem response_serverTime {a : Answer} (honly : ServerTimeOnlyInItsField a) :
    a.response.serverTime = if a.headerCopied then a.serverTime else none := by
  have hholds : ∀ line ∈ a.header, holdsName httpHeaderServerTime line = named httpHeaderServerTime line := by
    intro line hline
    by_cases hnamed : named httpHeaderServerTime line = true
    · have hfind := find_of_named (by decide) hnamed
      rw [holdsName, hfind]
      exact hnamed.symm
    · have hnone : holdsName httpHeaderServerTime line = false := by
        rw [← Bool.not_eq_true]
        exact fun hsome => hnamed (honly line hline hsome)
      rw [hnone]
      exact (Bool.eq_false_iff.2 hnamed).symm
  have hfirst : a.header.find? (holdsName httpHeaderServerTime) = a.header.find? (named httpHeaderServerTime) :=
    List.find?_congr hholds
  rw [Answer.serverTime, Answer.response, mclHttpResponseGetHeader_eq, hfirst]
  cases hfind : a.header.find? (named httpHeaderServerTime) with
  | none => cases a.headerCopied <;> rfl
  | some line =>
    have hnamed : named httpHeaderServerTime line = true := List.find?_some hfind
    rw [Option.map_some, ← carriedValue_of_named hnamed]
    cases a.headerCopied <;> rfl

/-! ## One call -/

/-- The access token string of an answer. -/
def Answer.accessToken (env : Environment) (a : Answer) : Option CString :=
  match parsePayload env a.response >>= fun json => getObjectItem json jsonNameAccessToken with
  | .ok (.string token) => some token
  | _ => none

/-- The answer that a call received: there is none where the request was not sent. -/
def TokenOp.received (c : CoreConfiguration) : TokenOp → Option Answer
  | .getAccessToken env answer => (accessTokenRequest c env >>= fun _ => answer).toOption
  | _ => none

/-- The access token of an answer is not JSON's `null`. -/
def TokenOp.TokenNotNull : TokenOp → Prop
  | .getAccessToken env (.ok a) =>
    (parsePayload env a.response >>= fun json => getObjectItem json jsonNameAccessToken) ≠ .ok .null
  | _ => True

/-- The server time that a call leaves behind, if it leaves one. -/
def TokenOp.serverTime (c : CoreConfiguration) (op : TokenOp) : Option CString :=
  (op.received c).bind fun a => a.response.serverTime

section

variable {c : CoreConfiguration} {env : Environment} {answer : Result Answer} {h h' : SecurityHandler}
  {code : Result Unit}

/-- What a request for a token comes to. -/
structure Requested (c : CoreConfiguration) (env : Environment) (answer : Result Answer) (h : SecurityHandler)
    (code : Result Unit) (h' : SecurityHandler) : Prop where
  onboarded : isOnboarded h' = isOnboarded h
  time : h'.lastTokenTime = ((TokenOp.getAccessToken env answer).serverTime c).or h.lastTokenTime
  error : ∀ e, code = .error e → h'.accessToken = none
  ok : code = .ok () → ∃ a json, answer = .ok a ∧
    (parsePayload env a.response >>= fun json => getObjectItem json jsonNameAccessToken) = .ok json ∧
    getString json (env.stringCopied jsonNameAccessToken) = .ok h'.accessToken

theorem getAccessToken_requested (hcall : getAccessToken c (answering env answer) h = (code, h')) :
    Requested c env answer h code h' := by
  unfold getAccessToken at hcall
  split at hcall
  · rename_i e hsend
    obtain ⟨rfl, rfl⟩ := Prod.mk.inj hcall
    refine ⟨rfl, ?_, fun _ _ => rfl, nofun⟩
    have hnone : (TokenOp.getAccessToken env answer).received c = none := by
      change (accessTokenRequest c env >>= fun _ => answer.map Answer.response) = .error e at hsend
      simp only [TokenOp.received]
      cases hrequest : accessTokenRequest c env with
      | error e' => rfl
      | ok request =>
        rw [hrequest] at hsend
        cases answer with
        | error e' => rfl
        | ok a => cases hsend
    rw [TokenOp.serverTime, hnone]
    rfl
  · rename_i response hsend
    obtain ⟨request, hrequest, hanswer⟩ := bind_eq_ok hsend
    obtain ⟨a, rfl⟩ : ∃ a, answer = .ok a := by
      cases answer with
      | error e => cases hanswer
      | ok a => exact ⟨a, rfl⟩
    obtain rfl := Except.ok.inj hanswer
    have htime : (TokenOp.getAccessToken env (.ok a)).serverTime c = a.response.serverTime := by
      change accessTokenRequest c env = .ok request at hrequest
      rw [TokenOp.serverTime, TokenOp.received, hrequest]
      rfl
    dsimp only at hcall
    split at hcall
    · obtain ⟨rfl, rfl⟩ := Prod.mk.inj hcall
      exact ⟨rfl, by rw [htime], fun _ _ => rfl, nofun⟩
    · rename_i token htoken
      obtain ⟨rfl, rfl⟩ := Prod.mk.inj hcall
      obtain ⟨-, -, htoken⟩ := bind_eq_ok htoken
      obtain ⟨json, hjson, htoken⟩ := bind_eq_ok htoken
      obtain ⟨child, hchild, htoken⟩ := bind_eq_ok htoken
      refine ⟨rfl, by rw [htime], nofun, fun _ => ⟨a, child, rfl, ?_, htoken⟩⟩
      change parsePayload env a.response = .ok json at hjson
      rw [hjson]
      exact hchild

/-- With a token that is not null, success leaves that string. -/
theorem Requested.accessToken (hrequested : Requested c env answer h code h')
    (hnull : (TokenOp.getAccessToken env answer).TokenNotNull) (hok : code = .ok ()) :
    ∃ a token, answer = .ok a ∧ a.accessToken env = some token ∧ h'.accessToken = some token := by
  obtain ⟨a, json, rfl, hjson, hstring⟩ := hrequested.ok hok
  cases json with
  | string token =>
    refine ⟨a, token, rfl, by rw [Answer.accessToken, hjson], ?_⟩
    unfold getString at hstring
    split_ifs at hstring
    exact (Except.ok.inj hstring).symm
  | null => exact absurd hjson hnull
  | bool b => cases hstring
  | number text => cases hstring
  | array elements => cases hstring
  | object members => cases hstring

end

/-! ## A run -/

/-- Whether a call sends for a token. -/
def TokenOp.isRequest : TokenOp → Bool
  | .getAccessToken .. => true
  | _ => false

/-- The last request before `l` is `g`. -/
def LastRequest (calls : List TokenCall) (g l : TokenCall) : Prop :=
  g.call.isRequest = true ∧
    ∃ xs ys zs, calls = (xs ++ g :: ys) ++ l :: zs ∧ ∀ d ∈ ys, d.call.isRequest = false

/-- The server time of the answer that a call received, if its value could be copied. -/
def TokenOp.answeredTime (c : CoreConfiguration) (op : TokenOp) : Option CString :=
  (op.received c).bind fun a => if a.headerCopied then a.serverTime else none

/-- The server time of the latest answer that had one. -/
def latestServerTime (c : CoreConfiguration) (calls : List TokenCall) : Option CString :=
  (calls.filterMap fun d => d.call.answeredTime c).getLast?

/-- What the token and its time are worth in a run from `h₀` to `h`. -/
structure TokensFresh (c : CoreConfiguration) (h₀ : SecurityHandler) (calls : List TokenCall) (h : SecurityHandler) :
    Prop where
  succeeds : ∀ g l allocated, LastRequest calls g l → l.call = .getLastAccessToken allocated →
    ((∃ token, l.out = .string (.ok token)) ↔ g.out = .code (.ok ()) ∧ allocated = true)
  token : ∀ g l env answer allocated, LastRequest calls g l → g.call = .getAccessToken env answer →
    l.call = .getLastAccessToken allocated → ∀ token, l.out = .string (.ok token) →
      ∃ a, answer = .ok a ∧ a.accessToken env = some token
  time : (∀ d ∈ calls, ∀ a, d.call.received c = some a → ServerTimeOnlyInItsField a) →
    h.lastTokenTime = (latestServerTime c calls).or h₀.lastTokenTime

section

variable {c : CoreConfiguration} {h₀ h h' : SecurityHandler} {op : TokenOp} {out : TokenOutcome}
  {calls : List TokenCall}

theorem performs_request {env : Environment} {answer : Result Answer} (honboarded : isOnboarded h = true)
    (hperforms : TokenPerforms c (.getAccessToken env answer) h out h') :
    ∃ code, out = .code code ∧ Requested c env answer h code h' := by
  simp only [TokenPerforms, TokenOp.perform, mclCoreGetAccessToken, if_pos honboarded, Option.map_some,
    Option.some.injEq, Prod.mk.injEq] at hperforms
  obtain ⟨rfl, rfl⟩ := hperforms
  exact ⟨_, rfl, getAccessToken_requested rfl⟩

/-- The other calls change nothing. -/
theorem performs_other (hop : op.isRequest = false) (hperforms : TokenPerforms c op h out h') : h' = h := by
  cases op with
  | getAccessToken env answer => cases hop
  | getLastAccessToken allocated => cases hperforms; rfl
  | getLastTokenTime allocated => cases hperforms; rfl

theorem performs_onboarded (honboarded : isOnboarded h = true) (hperforms : TokenPerforms c op h out h') :
    isOnboarded h' = true := by
  cases hop : op.isRequest with
  | false => rwa [performs_other hop hperforms]
  | true =>
    cases op with
    | getAccessToken env answer =>
      obtain ⟨code, -, hrequested⟩ := performs_request honboarded hperforms
      rw [hrequested.onboarded, honboarded]
    | getLastAccessToken allocated => cases hop
    | getLastTokenTime allocated => cases hop

theorem performs_time (honboarded : isOnboarded h = true) (hperforms : TokenPerforms c op h out h') :
    h'.lastTokenTime = (op.serverTime c).or h.lastTokenTime := by
  cases op with
  | getAccessToken env answer =>
    obtain ⟨code, -, hrequested⟩ := performs_request honboarded hperforms
    exact hrequested.time
  | getLastAccessToken allocated => rw [performs_other rfl hperforms]; rfl
  | getLastTokenTime allocated => rw [performs_other rfl hperforms]; rfl

theorem run_onboarded (run : Serial (TokenPerforms c) h₀ calls h) (honboarded : isOnboarded h₀ = true) :
    isOnboarded h = true ∧ ∀ d ∈ calls, isOnboarded d.before = true := by
  obtain ⟨hlast, hall⟩ := run.preserved (I := fun h => isOnboarded h = true) honboarded fun d hd hbefore =>
    performs_onboarded hbefore (run.exec_of_mem hd)
  exact ⟨hlast, fun d hd => (hall d hd).1⟩

theorem getLast?_or_snoc {α : Type} (xs : List α) (last : Option α) (first : Option α) :
    (xs ++ last.toList).getLast?.or first = last.or (xs.getLast?.or first) := by
  cases last with
  | none => simp
  | some a => simp

theorem run_time (run : Serial (TokenPerforms c) h₀ calls h) (honboarded : isOnboarded h₀ = true)
    (honly : ∀ d ∈ calls, ∀ a, d.call.received c = some a → ServerTimeOnlyInItsField a) :
    h.lastTokenTime = (latestServerTime c calls).or h₀.lastTokenTime := by
  induction run with
  | nil => rfl
  | @snoc h₁ h₂ calls op out run step ih =>
    have htime := performs_time (run_onboarded run honboarded).1 step
    have hop : op.serverTime c = op.answeredTime c := by
      unfold TokenOp.serverTime TokenOp.answeredTime
      cases hreceived : op.received c with
      | none => rfl
      | some a => exact response_serverTime (honly ⟨op, h₁, out, h₂⟩ (by simp) a hreceived)
    have hone : [(⟨op, h₁, out, h₂⟩ : TokenCall)].filterMap (fun d => d.call.answeredTime c) =
        (op.answeredTime c).toList := by
      rw [List.filterMap_cons]
      cases op.answeredTime c <;> rfl
    have hlast := ih fun d hd => honly d (List.mem_append_left _ hd)
    rw [latestServerTime] at hlast
    rw [htime, hop, hlast, latestServerTime, List.filterMap_append, hone, getLast?_or_snoc]

/-- Between the last request and `l` the token stays. -/
theorem lastRequest_accessToken (run : Serial (TokenPerforms c) h₀ calls h) {g l : TokenCall}
    (hlast : LastRequest calls g l) : l.before.accessToken = g.after.accessToken := by
  obtain ⟨-, xs, ys, zs, rfl, hys⟩ := hlast
  have hbefore := run.before
  rw [List.append_cons] at hbefore
  obtain ⟨s, hg, hrest⟩ := hbefore.split
  have hs : s = g.after := hg.last.2
  refine (hrest.preserved (I := fun s => s.accessToken = g.after.accessToken) (by rw [hs]) ?_).1
  intro d hd hI
  rw [performs_other (hys d hd) (hrest.exec_of_mem hd)]
  exact hI

/-- **Tokens are fresh.** -/
theorem run_tokensFresh (run : Serial (TokenPerforms c) h₀ calls h) (honboarded : isOnboarded h₀ = true)
    (hnull : ∀ d ∈ calls, d.call.TokenNotNull) : TokensFresh c h₀ calls h := by
  have hon := (run_onboarded run honboarded).2
  -- what a call for the last token hands out
  have houtcome : ∀ g l env answer allocated, LastRequest calls g l → g.call = .getAccessToken env answer →
      l.call = .getLastAccessToken allocated →
      (∃ code, g.out = .code code ∧ Requested c env answer g.before code g.after) ∧
        l.out = .string (match g.after.accessToken with
          | none => .error .noAccessTokenExists
          | some token => if allocated then .ok token else .error .outOfMemory) := by
    intro g l env answer allocated hlast hg hl
    have htoken := lastRequest_accessToken run hlast
    obtain ⟨-, xs, ys, zs, hcalls, -⟩ := hlast
    have hgmem : g ∈ calls := by rw [hcalls]; simp
    have hlmem : l ∈ calls := by rw [hcalls]; simp
    have hgexec := run.exec_of_mem hgmem
    have hlexec := run.exec_of_mem hlmem
    rw [hg] at hgexec
    simp only [TokenPerforms, hl, TokenOp.perform, mclCoreGetLastAccessToken, hon l hlmem, htoken,
      Bool.true_eq_false, if_false, Option.some.injEq, Prod.mk.injEq] at hlexec
    exact ⟨performs_request (hon g hgmem) hgexec, hlexec.1.symm⟩
  have hmem : ∀ g l, LastRequest calls g l → g ∈ calls := by
    rintro g l ⟨-, xs, ys, zs, rfl, -⟩
    simp
  refine ⟨fun g l allocated hlast hl => ?_, fun g l env answer allocated hlast hg hl token hout => ?_,
    run_time run honboarded⟩
  · obtain ⟨env, answer, hg⟩ : ∃ env answer, g.call = .getAccessToken env answer := by
      have hrequest := hlast.1
      cases hcall : g.call with
      | getAccessToken env answer => exact ⟨env, answer, rfl⟩
      | getLastAccessToken allocated => rw [hcall] at hrequest; cases hrequest
      | getLastTokenTime allocated => rw [hcall] at hrequest; cases hrequest
    obtain ⟨⟨code, hcode, hrequested⟩, hout⟩ := houtcome g l env answer allocated hlast hg hl
    have hnot := hnull g (hmem g l hlast)
    rw [hg] at hnot
    cases code with
    | error e =>
      rw [hout, hcode, hrequested.error e rfl]
      simp
    | ok u =>
      obtain ⟨a, token, -, -, htoken⟩ := hrequested.accessToken hnot rfl
      rw [hout, hcode, htoken]
      cases allocated <;> simp
  · obtain ⟨⟨code, hcode, hrequested⟩, hlout⟩ := houtcome g l env answer allocated hlast hg hl
    have hnot := hnull g (hmem g l hlast)
    rw [hg] at hnot
    rw [hlout] at hout
    cases code with
    | error e =>
      rw [hrequested.error e rfl] at hout
      cases hout
    | ok u =>
      obtain ⟨a, token', hanswer, hjson, htoken⟩ := hrequested.accessToken hnot rfl
      rw [htoken] at hout
      cases allocated with
      | false => cases hout
      | true =>
        obtain rfl : token' = token := by simpa using hout
        exact ⟨a, hanswer, hjson⟩

end

/-! ## Two calls -/

def timedAnswer (headerCopied : Bool) : Answer where
  statusCode := 200
  payload := some []
  header := [.lit "Server: host", .lit "server-time: 2019-01-31T23:59:59Z"]
  headerCopied

def tokenRequest (headerCopied : Bool) : TokenOp :=
  .getAccessToken tokenEnvironment (.ok (timedAnswer headerCopied))

def afterRequest (headerCopied : Bool) : SecurityHandler :=
  { rsaHandler with
    accessToken := some (.lit "access")
    lastTokenTime := if headerCopied then some (.lit "2019-01-31T23:59:59Z") else none }

/-- A request, and a call for its token. -/
def tokenCalls (headerCopied allocated : Bool) : List TokenCall :=
  [⟨tokenRequest headerCopied, rsaHandler, .code (.ok ()), afterRequest headerCopied⟩,
    ⟨.getLastAccessToken allocated, afterRequest headerCopied,
      .string (if allocated then .ok (.lit "access") else .error .outOfMemory), afterRequest headerCopied⟩]

theorem tokenCalls_run (headerCopied allocated : Bool) : Serial (TokenPerforms sharedSecretConfiguration) rsaHandler
    (tokenCalls headerCopied allocated) (afterRequest headerCopied) := by
  have hrequest : TokenPerforms sharedSecretConfiguration (tokenRequest headerCopied) rsaHandler (.code (.ok ()))
      (afterRequest headerCopied) := by cases headerCopied <;> rfl
  have htoken : TokenPerforms sharedSecretConfiguration (.getLastAccessToken allocated) (afterRequest headerCopied)
      (.string (if allocated then .ok (.lit "access") else .error .outOfMemory)) (afterRequest headerCopied) := by
    cases allocated <;> rfl
  exact (Serial.nil.snoc hrequest).snoc htoken

theorem tokenCalls_notNull (headerCopied allocated : Bool) :
    ∀ d ∈ tokenCalls headerCopied allocated, d.call.TokenNotNull := by
  intro d hd
  simp only [tokenCalls, List.mem_cons, List.not_mem_nil, or_false] at hd
  rcases hd with rfl | rfl
  · nofun
  · trivial

theorem tokenCalls_fresh :
    TokensFresh sharedSecretConfiguration rsaHandler (tokenCalls true true) (afterRequest true) ∧
      (afterRequest true).lastTokenTime =
        (latestServerTime sharedSecretConfiguration (tokenCalls true true)).or rsaHandler.lastTokenTime := by
  have hfresh := run_tokensFresh (tokenCalls_run true true) rfl (tokenCalls_notNull true true)
  refine ⟨hfresh, hfresh.time fun d hd a ha => ?_⟩
  simp only [tokenCalls, List.mem_cons, List.not_mem_nil, or_false] at hd
  rcases hd with rfl | rfl
  · obtain rfl : timedAnswer true = a := Option.some.inj ha
    decide
  · cases ha

/-- Without memory for the copy of the token, or for that of the header. -/
theorem tokenCalls_without_memory :
    (¬ ∀ (c : CoreConfiguration) (h₀ h : SecurityHandler) (calls : List TokenCall),
      Serial (TokenPerforms c) h₀ calls h → isOnboarded h₀ = true → (∀ d ∈ calls, d.call.TokenNotNull) →
      ∀ g l allocated, LastRequest calls g l → l.call = .getLastAccessToken allocated →
        ((∃ token, l.out = .string (.ok token)) ↔ g.out = .code (.ok ()))) ∧
    ¬ ∀ (c : CoreConfiguration) (h₀ h : SecurityHandler) (calls : List TokenCall),
      Serial (TokenPerforms c) h₀ calls h → isOnboarded h₀ = true → (∀ d ∈ calls, d.call.TokenNotNull) →
      h.lastTokenTime =
        (calls.filterMap fun d => (d.call.received c).bind Answer.serverTime).getLast?.or h₀.lastTokenTime := by
  constructor
  · intro hall
    have hiff := hall _ _ _ _ (tokenCalls_run true false) rfl (tokenCalls_notNull true false) _ _ false
      ⟨rfl, [], [], [], rfl, by simp⟩ rfl
    obtain ⟨token, htoken⟩ := hiff.2 rfl
    cases htoken
  · intro hall
    have htime := hall _ _ _ _ (tokenCalls_run false true) rfl (tokenCalls_notNull false true)
    revert htime
    decide

end MindConnect
