import MindConnect.Connectivity.BodySize
import MindConnect.Connectivity.Store

/-!
# A single item: `_prepare_body`

The buffer is allocated with the predicted size and the item is refused if that is above the limit. So an
item whose prediction is too small is refused with `MCL_FAIL` when it does not fit into its own buffer, and
one whose prediction is too large although it would fit. A prediction that wraps around to 0 gets no memory.
`prepareBody_spec` has the outcomes; `sentExactlyWhenFits_iff` says for which limits they are the right ones.
-/

namespace MindConnect

open JsonUtil

variable {w : Nat}

/-- What the callees answer in one `_prepare_body`. -/
structure BodyEnv where
  boundary : Boundary
  subBoundary : Result Boundary
  allocated : Bool
  file : FileStream

def BodyEnv.tupleEnv (env : BodyEnv) (item : Item) : TupleEnv :=
  ⟨env.subBoundary, jsonFromItemMeta item, jsonFromItemPayload item, env.file⟩

/-- `_prepare_body` (`connectivity_processor.c:879`) of an item that is not a store. -/
def prepareBody (env : BodyEnv) (max : BitVec w) (item : Item) : Option (Result Bytes) :=
  let bodySize := getItemSize w item + multipartGetOverheadSize w
  if max < bodySize then some (.error .itemExceedsMaxHttpRequestSize)
  else
    match mclMemoryMalloc env.allocated bodySize.toNat with
    | none => some (.error .outOfMemory)
    | some body => do
      let (code, window) ← addItemToBuffer (env.tupleEnv item) env.boundary item ⟨body, 0, bodySize.toNat⟩
      match code with
      | .error e => return .error e
      | .ok () =>
        let (code, window) ← close env.boundary window
        match code with
        | .error e => return .error e
        | .ok () => return .ok (window.buffer.take (bodySize.toNat - window.remaining))

/-- The JSON texts of the item fit into a print buffer. -/
def Printable (item : Item) : Prop :=
  (metaTree item).print.length + 2 ≤ intMax ∧
    ∀ json, payloadTree item = some json → json.print.length + 2 ≤ intMax

instance (item : Item) : Decidable (Printable item) :=
  match h : payloadTree item with
  | none => decidable_of_iff ((metaTree item).print.length + 2 ≤ intMax) (by simp [Printable, h])
  | some json =>
    decidable_of_iff ((metaTree item).print.length + 2 ≤ intMax ∧ json.print.length + 2 ≤ intMax)
      (by simp [Printable, h])

theorem Tuple.text_eq_ok {t : Tuple} {sub : Boundary} (hsub : t.subBoundary = .ok sub) {text : Bytes} :
    t.text = .ok text ↔ ∃ json payload, t.metaJson = .ok json ∧ t.payload = .ok payload ∧
      text = tupleText t.boundary sub json (payloadContentType t) payload := by
  simp only [Tuple.text, hsub, bind, Except.bind]
  cases t.metaJson with
  | error e => simp
  | ok json =>
    cases t.payload with
    | error e => simp
    | ok payload => simp [pure, Except.pure, eq_comm]

/-- The arguments of the call for the item. -/
theorem tupleOf_fields (env : BodyEnv) {item : Item} (h : item.validate = .ok ()) :
    ∃ t, tupleOf (env.tupleEnv item) env.boundary item = some t ∧ t.boundary = env.boundary ∧
      t.subBoundary = env.subBoundary ∧ t.metaJson = jsonFromItemMeta item ∧
      t.payloadJson = jsonFromItemPayload item ∧ payloadContentType t = payloadTypeText item ∧
      ∀ payload, t.payload = .ok payload ↔ (∀ json, payloadTree item = some json →
        json.print.length + 2 ≤ intMax) ∧ payload = payloadText env.file.content item := by
  -- an item with a JSON payload is sent without a callback
  have hjson : ∀ json, payloadTree item = some json → payloadText env.file.content item = json.print →
      ∀ payload, jsonFromItemPayload item = .ok payload ↔ (∀ json, payloadTree item = some json →
        json.print.length + 2 ≤ intMax) ∧ payload = payloadText env.file.content item := by
    intro json htree htext payload
    rw [jsonFromItemPayload_eq h htree, toString_eq_ok, htext]
    simp [htree]
  cases item with
  | event e => exact ⟨_, rfl, rfl, rfl, rfl, rfl, rfl, hjson _ rfl rfl⟩
  | dataSourceConfiguration c => exact ⟨_, rfl, rfl, rfl, rfl, rfl, rfl, hjson _ rfl rfl⟩
  | timeseries t => exact ⟨_, rfl, rfl, rfl, rfl, rfl, rfl, hjson _ rfl rfl⟩
  | file f =>
    refine ⟨_, rfl, rfl, rfl, rfl, rfl, rfl, fun payload => ?_⟩
    simp [Tuple.payload, filePayloadCallback, payloadTree, payloadText, BodyEnv.tupleEnv, eq_comm]
  | customData c =>
    obtain ⟨⟨buffer, hbuffer⟩, ⟨type, htype⟩, -⟩ := CustomData.of_validate h
    obtain ⟨version, _, contentType, cType, size, details, readable⟩ := c
    subst hbuffer htype
    refine ⟨_, rfl, rfl, rfl, rfl, rfl, rfl, fun payload => ?_⟩
    simp [Tuple.payload, customDataPayloadCallback, payloadTree, payloadText, eq_comm]

/-- The tuple of the item: its sub boundary, its errors and, if it can be printed, its text. -/
theorem tupleOf_spec {env : BodyEnv} {sub : Boundary} (hsub : env.subBoundary = .ok sub) {item : Item}
    (h : item.validate = .ok ()) : ∃ t, tupleOf (env.tupleEnv item) env.boundary item = some t ∧
      t.subBoundary = .ok sub ∧ (∀ e, OwnError t e → e = .fail) ∧
      ∀ text, t.text = .ok text ↔ Printable item ∧ text = tupleText env.boundary sub (metaTree item).print
        (payloadTypeText item) (payloadText env.file.content item) := by
  have hmeta := jsonFromItemMeta_eq h
  have hmetaError : ∀ e, jsonFromItemMeta item = .error e → e = .fail := fun e he =>
    toString_error (hmeta ▸ he)
  have hpayloadError : ∀ e, jsonFromItemPayload item = .error e → e = .fail := by
    intro e he
    cases hjson : payloadTree item with
    | some json => exact toString_error (jsonFromItemPayload_eq h hjson ▸ he)
    | none =>
      cases item <;> simp only [payloadTree, reduceCtorEq] at hjson <;>
        simpa [jsonFromItemPayload, itemPayloadJson, Except.bind] using he.symm
  obtain ⟨t, ht, hboundary, htsub, htmeta, htpayload, htype, hpayload⟩ := tupleOf_fields env h
  rw [hsub] at htsub
  refine ⟨t, ht, htsub, ?_, fun text => ?_⟩
  · rintro e (he | he | he)
    · exact he
    · exact hmetaError e (htmeta ▸ he)
    · exact hpayloadError e (htpayload ▸ he)
  · rw [Tuple.text_eq_ok htsub, hboundary, htype]
    simp only [htmeta, hmeta, toString_eq_ok, hpayload, Printable]
    constructor
    · rintro ⟨_, _, ⟨hm, rfl⟩, ⟨hp, rfl⟩, rfl⟩
      exact ⟨⟨hm, hp⟩, rfl⟩
    · rintro ⟨⟨hm, hp⟩, rfl⟩
      exact ⟨_, _, ⟨hm, rfl⟩, ⟨hp, rfl⟩, rfl⟩

/-! ## The outcomes -/

/-- With a block for it, the body is the tuple of the item and the closing delimiter. -/
theorem prepareBody_granted {env : BodyEnv} (halloc : env.allocated = true) {max : BitVec w} {item : Item}
    (hmax : ¬ max < getItemSize w item + multipartGetOverheadSize w)
    (hsize : (getItemSize w item + multipartGetOverheadSize w).toNat ≠ 0) :
    prepareBody env max item =
      addItemToBuffer (env.tupleEnv item) env.boundary item
        (emptyWindow (getItemSize w item + multipartGetOverheadSize w).toNat) >>= fun r =>
          match r.1 with
          | .error e => some (.error e)
          | .ok () => close env.boundary r.2 >>= fun r =>
            match r.1 with
            | .error e => some (.error e)
            | .ok () => some (.ok (r.2.buffer.take
                ((getItemSize w item + multipartGetOverheadSize w).toNat - r.2.remaining))) := by
  simp only [prepareBody]
  rw [if_neg hmax, halloc, mclMemoryMalloc_granted hsize]
  rfl

theorem prepareBody_spec (env : BodyEnv) {sub : Boundary} (hsub : env.subBoundary = .ok sub)
    (halloc : env.allocated = true) (max : BitVec w) {item : Item} (h : item.validate = .ok ()) :
    let bodySize := getItemSize w item + multipartGetOverheadSize w
    let body := itemBody env.boundary sub env.file.content item
    (max < bodySize ∧ prepareBody env max item = some (.error .itemExceedsMaxHttpRequestSize)) ∨
      (¬ max < bodySize ∧ Printable item ∧ body.length ≤ bodySize.toNat ∧
        prepareBody env max item = some (.ok body)) ∨
      (¬ max < bodySize ∧ ¬ (Printable item ∧ body.length ≤ bodySize.toNat) ∧
        prepareBody env max item = some (.error (if bodySize.toNat = 0 then .outOfMemory else .fail))) := by
  intro bodySize body
  by_cases hmax : max < bodySize
  · exact .inl ⟨hmax, if_pos hmax⟩
  refine .inr ?_
  have hlen : body.length = _ := length_itemBody env.boundary sub env.file.content item
  by_cases hzero : bodySize.toNat = 0
  · -- the prediction has wrapped around to nothing
    have hpos : 0 < body.length := by
      have hclose : 0 < closeLength := by decide
      rw [hlen]
      omega
    refine .inr ⟨hmax, fun hfit => by omega, ?_⟩
    simp only [prepareBody]
    rw [if_neg hmax, if_pos hzero, show (getItemSize w item + multipartGetOverheadSize w).toNat = 0 from hzero]
    rfl
  · rw [if_neg hzero]
    obtain ⟨t, ht, htsub, herror, htext⟩ := tupleOf_spec hsub h
    have hfits := fits_emptyWindow bodySize.toNat
    obtain ⟨code, v, hadd, hadded⟩ := addTupleWithCallback_spec t hfits
    rw [prepareBody_granted halloc hmax hzero, addItemToBuffer, ht, Option.bind_some, hadd, Option.bind_eq_bind,
      Option.bind_some]
    rcases hadded with ⟨text, hok, rfl, happ⟩ | ⟨e, rfl, -, -, -, hnofit⟩
    · obtain ⟨hprint, rfl⟩ := (htext text).1 hok
      obtain ⟨code, v', hclose, hclosed⟩ := close_spec env.boundary (happ.fits hfits)
      simp only [hclose, Option.bind_some]
      rcases hclosed with ⟨rfl, hclosed⟩ | ⟨rfl, -, hlt⟩
      · left
        obtain ⟨hle, hremaining, hposition, htake⟩ := front_of_emptyWindow (happ.trans hclosed)
        have hfront : v'.position = bodySize.toNat - v'.remaining := by omega
        rw [hfront] at htake
        exact ⟨hmax, hprint, hle, congrArg (fun text : Bytes => some (Except.ok text)) htake⟩
      · right
        obtain ⟨-, hremaining, -, -⟩ := front_of_emptyWindow happ
        refine ⟨hmax, fun hfit => ?_, rfl⟩
        rw [length_tupleText] at hremaining
        omega
    · right
      obtain rfl := herror e (addTupleWithCallback_error htsub hadd)
      refine ⟨hmax, ?_, rfl⟩
      rintro ⟨hprint, hle⟩
      obtain ⟨-, hlt⟩ := hnofit _ ((htext _).2 ⟨hprint, rfl⟩)
      rw [length_tupleText] at hlt
      change bodySize.toNat < _ at hlt
      omega

/-! ## When the outcome is the right one -/

/-- An item is sent if its body is within the limit, and refused as too large if not. -/
def SentExactlyWhenFits (boundary sub : Boundary) (file : FileStream) (max : BitVec w) (item : Item) : Prop :=
  let body := itemBody boundary sub file.content item
  let result := prepareBody ⟨boundary, .ok sub, true, file⟩ max item
  ((∃ sent, result = some (.ok sent)) ↔ body.length ≤ max.toNat) ∧
    (max.toNat < body.length → result = some (.error .itemExceedsMaxHttpRequestSize))

/-- The limit is below the length of the body and below the prediction, or the body can be printed, is no
longer than predicted and the prediction is within the limit. The prediction is the length and the surplus,
in a `mcl_size_t` of `w` bits. -/
def PredictionServes (boundary sub : Boundary) (file : FileStream) (max : BitVec w) (item : Item) : Prop :=
  let length : Int := (itemBody boundary sub file.content item).length
  let predicted : Int := (length + itemSurplus file.content item) % 2 ^ w
  (max.toNat < predicted ∧ max.toNat < length) ∨
    (Printable item ∧ length ≤ predicted ∧ predicted ≤ max.toNat)

instance (boundary sub : Boundary) (file : FileStream) (max : BitVec w) (item : Item) :
    Decidable (PredictionServes boundary sub file max item) :=
  inferInstanceAs (Decidable (_ ∨ _))

theorem predicted_eq (boundary sub : Boundary) (file : FileStream) {item : Item}
    (h : item.validate = .ok ()) :
    ((getItemSize w item + multipartGetOverheadSize w).toNat : Int) =
      ((itemBody boundary sub file.content item).length + itemSurplus file.content item : Int) % 2 ^ w := by
  rw [bodySize_eq w h boundary sub file.content]
  change ((BitVec.ofInt w _).toNat : Int) = _
  have hpow : ((2 ^ w : Nat) : Int) ≠ 0 := by exact_mod_cast (Nat.two_pow_pos w).ne'
  rw [BitVec.toNat_ofInt, Int.toNat_of_nonneg (Int.emod_nonneg _ hpow)]
  push_cast
  rfl

/-- An item is sent exactly when it fits, or refused as too large, if and only if the prediction serves. -/
theorem sentExactlyWhenFits_iff (boundary sub : Boundary) (file : FileStream) (max : BitVec w) {item : Item}
    (valid : item.validate = .ok ()) :
    SentExactlyWhenFits boundary sub file max item ↔ PredictionServes boundary sub file max item := by
  have hpredicted := predicted_eq (w := w) boundary sub file valid
  have houtcome := prepareBody_spec ⟨boundary, .ok sub, true, file⟩ rfl rfl max valid
  simp only [SentExactlyWhenFits, PredictionServes]
  rw [← hpredicted]
  set size := getItemSize w item + multipartGetOverheadSize w
  set body := itemBody boundary sub file.content item
  have hlt : max < size ↔ max.toNat < size.toNat := Iff.rfl
  have hrefused : ∀ e, ¬ ∃ sent, (some (.error e) : Option (Result Bytes)) = some (.ok sent) := by simp
  rcases houtcome with ⟨hmax, hrun⟩ | ⟨hmax, hprint, hle, hrun⟩ | ⟨hmax, hnot, hrun⟩ <;> rw [hlt] at hmax <;>
    rw [hrun]
  · constructor
    · rintro ⟨hiff, -⟩
      refine .inl ⟨by omega, ?_⟩
      by_contra hfits
      exact hrefused _ (hiff.2 (by omega))
    · rintro (⟨-, hbody⟩ | ⟨-, -, hsize⟩)
      · exact ⟨⟨fun h => absurd h (hrefused _), fun h => by omega⟩, fun _ => rfl⟩
      · omega
  · constructor
    · rintro -
      exact .inr ⟨hprint, by omega, by omega⟩
    · rintro -
      exact ⟨⟨fun _ => by omega, fun _ => ⟨_, rfl⟩⟩, fun h => by omega⟩
  · constructor
    · rintro ⟨hiff, hlarge⟩
      by_cases hfits : body.length ≤ max.toNat
      · exact absurd (hiff.2 hfits) (hrefused _)
      · have := hlarge (by omega)
        split_ifs at this <;> simp at this
    · rintro (⟨hsize, -⟩ | ⟨hprint, hbody, -⟩)
      · omega
      · exact absurd ⟨hprint, by omega⟩ hnot

def sampleEvent (description : CString) : Item := .event {
  itemVersion := .v1_0
  id := .lit "1"
  correlationId := none
  timestamp := .lit "2019-01-31T23:59:59.999Z"
  severity := 1
  description := some description
  type := some (.lit "t")
  version := some (.lit "1")
  details := none
  severity_mem := by decide }

set_option maxRecDepth 2000 in
theorem plainEvent_sentExactlyWhenFits :
    SentExactlyWhenFits sampleBoundary sampleBoundary [] (489 : BitVec 32) (sampleEvent (.lit "d")) :=
  (sentExactlyWhenFits_iff _ _ _ _ (by decide)).2 (by decide)

set_option maxRecDepth 1000 in
/-- A quote is one byte in the prediction and two in the text, so the buffer of the event is one byte short
and it can never be sent. -/
theorem quotedEvent_not_sentExactlyWhenFits : ¬ ∀ (boundary sub : Boundary) (file : FileStream)
    (max : BitVec 32) (item : Item), item.validate = .ok () →
      SentExactlyWhenFits boundary sub file max item := by
  intro h
  obtain ⟨hiff, -⟩ := h sampleBoundary sampleBoundary [] 1000 (sampleEvent (.lit "\"")) (by decide)
  have hfits : (itemBody sampleBoundary sampleBoundary [] (sampleEvent (.lit "\""))).length ≤
      (1000 : BitVec 32).toNat := by
    rw [length_itemBody]
    decide
  obtain ⟨sent, hsent⟩ := hiff.2 hfits
  have hspec := prepareBody_spec ⟨sampleBoundary, .ok sampleBoundary, true, []⟩ rfl rfl (1000 : BitVec 32)
    (show (sampleEvent (.lit "\"")).validate = .ok () by decide)
  rcases hspec with ⟨-, hrun⟩ | ⟨-, -, hle, -⟩ | ⟨-, -, hrun⟩
  · cases hrun.symm.trans hsent
  · have hlt : (getItemSize 32 (sampleEvent (.lit "\"")) + multipartGetOverheadSize 32).toNat <
        (itemBody sampleBoundary sampleBoundary [] (sampleEvent (.lit "\""))).length := by
      rw [length_itemBody]
      decide
    exact absurd hle (Nat.not_le_of_lt hlt)
  · cases hrun.symm.trans hsent

end MindConnect
