import MindConnect.Connectivity.Multipart

/-!
# The space a tuple takes

`Ahead` says that a window was moved on and that the bytes from its new position on are as they were: every step of the
encoder is one, so an error leaves the bytes behind the window alone and a success those behind the tuple.

| here | there |
| --- | --- |
| `addTuple` | `multipart_add_tuple` (`multipart.c:117`) |
| `tupleSize` | `MULTIPART_BASE_SIZE` and the lengths of the three variable parts |
| `ExactOnSpace` | what `*buffer_size` and the bytes from `buffer` on are after a call |
-/

namespace MindConnect

/-- `multipart_add_tuple`: no content type, no callback. -/
def addTuple (boundary : Boundary) (subBoundary : Result Boundary) (metaJson payloadJson : Result Bytes)
    (w : Window) : Option (Result Unit × Window) :=
  addTupleWithCallback ⟨boundary, subBoundary, metaJson, none, payloadJson, none⟩ w

/-! ## Moving on -/

namespace Window

/-- The end stays, and so do the bytes from the new position on. -/
structure Ahead (w w' : Window) : Prop where
  position : w.position ≤ w'.position
  limit : w'.position + w'.remaining = w.position + w.remaining
  rest : w'.buffer.drop w'.position = w.buffer.drop w'.position

/-- The bytes behind the window. -/
def behind (w : Window) : Bytes := w.buffer.drop (w.position + w.remaining)

theorem drop_of_le {bs cs : Bytes} {m n : Nat} (h : bs.drop m = cs.drop m) (hle : m ≤ n) :
    bs.drop n = cs.drop n := by
  have := congrArg (List.drop (n - m)) h
  rwa [List.drop_drop, List.drop_drop, Nat.add_sub_cancel' hle] at this

theorem Ahead.refl (w : Window) : Ahead w w := ⟨le_rfl, rfl, rfl⟩

theorem Ahead.trans {w w' w'' : Window} (h : Ahead w w') (h' : Ahead w' w'') : Ahead w w'' where
  position := h.position.trans h'.position
  limit := h'.limit.trans h.limit
  rest := h'.rest.trans (drop_of_le h.rest h'.position)

theorem Ahead.behind {w w' : Window} (h : Ahead w w') : w'.behind = w.behind := by
  have hlimit := h.limit
  unfold Window.behind
  rw [hlimit]
  exact drop_of_le h.rest (by omega)

theorem write_ahead {w w' : Window} {bs : Bytes} (h : w.write bs = some w') (hle : bs.length ≤ w.remaining) :
    Ahead w (w'.advance bs.length) := by
  simp only [write, Option.map_eq_some_iff] at h
  obtain ⟨buffer, hwrite, rfl⟩ := h
  refine ⟨Nat.le_add_right _ _, ?_, Bytes.drop_of_write hwrite le_rfl⟩
  show w.position + bs.length + (w.remaining - bs.length) = w.position + w.remaining
  omega

theorem append_ahead {w w' : Window} {bs : Bytes} (h : w.append bs = some w') (hle : bs.length ≤ w.remaining) :
    Ahead w w' := by
  simp only [append, Option.map_eq_some_iff] at h
  obtain ⟨w₁, hwrite, rfl⟩ := h
  exact write_ahead hwrite hle

end Window

section

open Window (Ahead)

variable {t : Tuple} {w w' : Window} {code code' : Result Unit}

theorem addText_ahead {text : Bytes} (h : addText text w = some (code, w')) : Ahead w w' := by
  unfold addText at h
  split_ifs at h with hle
  · simp only [Option.map_eq_some_iff, Prod.mk.injEq] at h
    obtain ⟨w₁, happ, -, rfl⟩ := h
    exact Window.append_ahead happ hle
  · simp only [Option.some.injEq, Prod.mk.injEq] at h
    obtain ⟨-, rfl⟩ := h
    exact .refl w

theorem callbackLoop_ahead {c : PayloadCallback} {x : c.State} (h : callbackLoop c x w = some (code, w')) :
    Ahead w w' := by
  fun_induction callbackLoop c x w with
  | case1 x w happ => cases h
  | case2 x w w₁ happ hv ih => exact (Window.append_ahead happ (c.call_le x w.remaining)).trans (ih h)
  | case3 x w w₁ happ hv hne =>
    simp only [Option.some.injEq, Prod.mk.injEq] at h
    obtain ⟨-, rfl⟩ := h
    exact Window.append_ahead happ (c.call_le x w.remaining)
  | case4 x w w₁ happ hv hne =>
    simp only [Option.some.injEq, Prod.mk.injEq] at h
    obtain ⟨-, rfl⟩ := h
    exact Window.append_ahead happ (c.call_le x w.remaining)

theorem addItemMetaJson_ahead (h : addItemMetaJson t w = some (code, w')) : Ahead w w' := by
  unfold addItemMetaJson at h
  split at h
  · exact addText_ahead h
  · simp only [Option.some.injEq, Prod.mk.injEq] at h
    obtain ⟨-, rfl⟩ := h
    exact .refl w

theorem addItemPayload_ahead (h : addItemPayload t w = some (code, w')) : Ahead w w' := by
  unfold addItemPayload at h
  split at h
  · split at h
    · exact addText_ahead h
    · simp only [Option.some.injEq, Prod.mk.injEq] at h
      obtain ⟨-, rfl⟩ := h
      exact .refl w
  · exact callbackLoop_ahead h

/-- What is copied has the length that the cursor moves on. -/
theorem length_copiedText {s : MultipartState} {bs : Bytes} (h : copiedText t s = some bs) :
    bs.length = spaceNeededForState s := by
  cases hsub : t.subBoundary with
  | ok sub =>
    obtain ⟨bs', hbs', hlen⟩ := copiedText_spec hsub s
    obtain rfl : bs' = bs := by simpa [hbs'] using h
    exact hlen
  | error e =>
    cases s <;> simp only [copiedText, copiedText.subBoundary, hsub, Except.toOption, Option.map_none,
      Option.some.injEq, reduceCtorEq] at h <;> subst h <;> first | rfl | exact length_addBoundary _ _

theorem copied_ahead {s : MultipartState} {bs : Bytes} (hbs : copiedText t s = some bs)
    (hspace : spaceNeededForState s ≤ w.remaining)
    (h : (w.write bs).map (fun w' => (code, w')) = some (code', w')) :
    Ahead w (w'.advance (spaceNeededForState s)) := by
  simp only [Option.map_eq_some_iff, Prod.mk.injEq] at h
  obtain ⟨w₁, hwrite, -, rfl⟩ := h
  rw [← length_copiedText hbs] at hspace ⊢
  exact Window.write_ahead hwrite hspace

/-- One turn of the loop with the move behind the `switch`. -/
theorem runState_ahead {s : MultipartState} (hspace : spaceNeededForState s ≤ w.remaining)
    (h : runState t code w s = some (code', w')) : Ahead w (w'.advance (spaceNeededForState s)) := by
  cases s with
  | itemMetaJson => exact addItemMetaJson_ahead h
  | contentTypeValuePayload => exact addText_ahead h
  | itemPayload => exact addItemPayload_ahead h
  | _ =>
    simp only [runState] at h
    split at h
    · cases h
    · rename_i bs hbs
      exact copied_ahead hbs hspace h

/-- Where the loop breaks, only the bytes of its window may have changed. -/
theorem addTupleLoop_ahead {ss : List MultipartState} (h : addTupleLoop t ss code w = some (code', w')) :
    (code' = .ok () → Ahead w w') ∧ w'.buffer.drop (w.position + w.remaining) = w.behind := by
  induction ss generalizing code w with
  | nil =>
    simp only [addTupleLoop, Option.some.injEq, Prod.mk.injEq] at h
    obtain ⟨-, rfl⟩ := h
    exact ⟨fun _ => .refl w, rfl⟩
  | cons s ss ih =>
    rw [addTupleLoop] at h
    split_ifs at h with hfull
    · simp only [Option.some.injEq, Prod.mk.injEq] at h
      obtain ⟨rfl, rfl⟩ := h
      exact ⟨(fun hcode => by cases hcode), rfl⟩
    · have hspace : spaceNeededForState s ≤ w.remaining := by omega
      split at h
      · cases h
      · rename_i e w₁ hrun
        simp only [Option.some.injEq, Prod.mk.injEq] at h
        obtain ⟨rfl, rfl⟩ := h
        have hahead := runState_ahead hspace hrun
        refine ⟨(fun hcode => by cases hcode), ?_⟩
        rw [← hahead.limit, ← hahead.behind]
        rfl
      · rename_i w₁ hrun
        have hahead := runState_ahead hspace hrun
        obtain ⟨hok, hbehind⟩ := ih h
        refine ⟨fun hcode => hahead.trans (hok hcode), ?_⟩
        rw [← hahead.limit, hbehind, hahead.behind]

end

/-! ## The size of a tuple -/

/-- `MULTIPART_BASE_SIZE` and what the variable parts take. -/
def tupleSize (t : Tuple) (metaJson payload : Bytes) : Nat :=
  multipartBaseSize + metaJson.length + (payloadContentType t).length + payload.length

theorem Tuple.text_eq {t : Tuple} {json payload : Bytes} (hjson : t.metaJson = .ok json)
    (hpayload : t.payload = .ok payload) :
    t.text = t.subBoundary.map fun sub => tupleText t.boundary sub json (payloadContentType t) payload := by
  simp only [text, hjson, hpayload, bind, Except.bind, pure, Except.pure]
  cases t.subBoundary <;> rfl

/-- What a call with the window `w` comes to where a tuple takes `size` bytes. -/
structure ExactOnSpace (t : Tuple) (size : Nat) (w : Window) (code : Result Unit) (w' : Window) : Prop where
  succeeds : code = .ok () ↔ (∃ sub, t.subBoundary = .ok sub) ∧ size ≤ w.remaining
  counted : code = .ok () → w'.remaining + size = w.remaining
  written : code = .ok () → ∃ text, t.text = .ok text ∧ text.length = size ∧
    w'.buffer = w.buffer.take w.position ++ text ++ w.buffer.drop (w.position + size)
  kept : code ≠ .ok () → w'.remaining = w.remaining ∧
    w'.buffer.take w.position = w.buffer.take w.position ∧
    w'.buffer.drop (w.position + w.remaining) = w.buffer.drop (w.position + w.remaining)

/-- The call never leaves its buffer, and is exact on space. -/
def CallExactOnSpace (call : Window → Option (Result Unit × Window)) (t : Tuple) (size : Nat) : Prop :=
  ∀ w : Window, w.Fits → ∃ code w', call w = some (code, w') ∧ ExactOnSpace t size w code w'

theorem addTupleWithCallback_frame {t : Tuple} {w w' : Window} {code : Result Unit}
    (h : addTupleWithCallback t w = some (code, w')) :
    (code = .ok () → Window.Ahead w w') ∧ w'.buffer.drop (w.position + w.remaining) = w.behind := by
  unfold addTupleWithCallback at h
  split at h
  · cases h
  · rename_i w₁ hloop
    simp only [Option.some.injEq, Prod.mk.injEq] at h
    obtain ⟨rfl, rfl⟩ := h
    exact addTupleLoop_ahead hloop
  · rename_i e w₁ hloop
    simp only [Option.some.injEq, Prod.mk.injEq] at h
    obtain ⟨rfl, rfl⟩ := h
    exact ⟨nofun, (addTupleLoop_ahead hloop).2⟩

theorem addTupleWithCallback_exact {t : Tuple} {json payload : Bytes} (hjson : t.metaJson = .ok json)
    (hpayload : t.payload = .ok payload) :
    CallExactOnSpace (addTupleWithCallback t) t (tupleSize t json payload) := by
  intro w hw
  obtain ⟨code, w', hcall, hcases⟩ := addTupleWithCallback_spec t hw
  obtain ⟨hahead, hbehind⟩ := addTupleWithCallback_frame hcall
  have htext := Tuple.text_eq hjson hpayload
  refine ⟨code, w', hcall, ?_⟩
  rcases hcases with ⟨text, hok, rfl, happ⟩ | ⟨e, rfl, hkept, -, hremaining, hfail⟩
  · -- the tuple was appended
    rw [htext] at hok
    obtain ⟨sub, hsub⟩ : ∃ sub, t.subBoundary = .ok sub := by
      cases hsub : t.subBoundary with
      | ok sub => exact ⟨sub, rfl⟩
      | error e => rw [hsub] at hok; cases hok
    have hlen : text.length = tupleSize t json payload := by
      rw [hsub] at hok
      obtain rfl := Except.ok.inj hok
      exact length_tupleText _ _ _ _ _
    have hle := happ.le
    refine ⟨⟨fun _ => ⟨⟨sub, hsub⟩, by omega⟩, fun _ => rfl⟩, fun _ => ?_, fun _ => ⟨text, ?_, hlen, ?_⟩, ?_⟩
    · have := happ.remaining
      omega
    · rw [htext, hok]
    · rw [← List.take_append_drop w'.position w'.buffer, happ.take, (hahead rfl).rest, happ.position, hlen]
    · intro hne
      exact absurd rfl hne
  · -- without a sub boundary there is no text, and with one it does not fit
    refine ⟨⟨nofun, ?_⟩, nofun, nofun, fun _ => ⟨hremaining, hkept.take, hbehind⟩⟩
    rintro ⟨⟨sub, hsub⟩, hle⟩
    rw [htext, hsub] at hfail
    obtain ⟨-, hlt⟩ := hfail _ rfl
    rw [length_tupleText] at hlt
    unfold tupleSize at hle
    omega

/-- **Both calls are exact on space.** -/
theorem addTuple_exactOnSpace (t : Tuple) {json payload : Bytes} (hjson : t.metaJson = .ok json)
    (hpayload : t.payload = .ok payload) :
    CallExactOnSpace (addTupleWithCallback t) t (tupleSize t json payload) ∧
      (t.contentType = none → t.callback = none →
        CallExactOnSpace (addTuple t.boundary t.subBoundary t.metaJson t.payloadJson) t
          (tupleSize t json payload)) := by
  have hexact := addTupleWithCallback_exact hjson hpayload
  refine ⟨hexact, fun htype hcallback => ?_⟩
  obtain ⟨boundary, subBoundary, metaJson, contentType, payloadJson, callback⟩ := t
  cases htype
  cases hcallback
  exact hexact

/-! ## One tuple, and one without a sub boundary -/

def smallTuple (subBoundary : Result Boundary) : Tuple where
  boundary := sampleBoundary
  subBoundary := subBoundary
  metaJson := .ok (ascii "\x7b\x7d")
  contentType := none
  payloadJson := .ok (ascii "[]")
  callback := none

theorem smallTuple_exactOnSpace :
    CallExactOnSpace (addTupleWithCallback (smallTuple (.ok sampleBoundary))) (smallTuple (.ok sampleBoundary))
      (multipartBaseSize + 2 + 16 + 2) :=
  (addTuple_exactOnSpace (smallTuple (.ok sampleBoundary)) rfl rfl).1

/-- Whatever the buffer has room for, a tuple whose sub boundary could not be generated is not added. -/
theorem noSubBoundary_not_added : ¬ ∀ (t : Tuple) (json payload : Bytes), t.metaJson = .ok json →
    t.payload = .ok payload → ∀ w : Window, w.Fits → ∃ code w', addTupleWithCallback t w = some (code, w') ∧
      (code = .ok () ↔ tupleSize t json payload ≤ w.remaining) := by
  intro hall
  obtain ⟨code, w', hcall, hiff⟩ := hall (smallTuple (.error .outOfMemory)) _ _ rfl rfl _ (fits_emptyWindow 500)
  have hok := hiff.2 (by decide)
  obtain ⟨code', w₁, hcall', hcases⟩ :=
    addTupleWithCallback_spec (smallTuple (.error .outOfMemory)) (fits_emptyWindow 500)
  rw [hcall] at hcall'
  cases hcall'
  rcases hcases with ⟨text, htext, -⟩ | ⟨e, he, -⟩
  · cases htext
  · rw [he] at hok
    cases hok

end MindConnect
