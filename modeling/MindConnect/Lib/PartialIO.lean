import Mathlib.Data.List.Basic

/-!
# Partial receives and sends

A connection hands over what it likes: a receive answers between one and the requested number of elements,
a send takes at least one of those offered. The loops around them hide this. What `receiveExactly` and
`receiveUntil` answer depends on the stream alone, and `sendAll` puts on the wire all it is given.
-/

namespace PartialIO

variable {α ε : Type}

/-! ## Receiving -/

/-- What is to come of a stream, how much each coming receive hands over at most, and what a receive
answers once the stream has ended. -/
structure Source (α ε : Type) where
  rest : List α
  fragment : Nat → Nat
  ended : ε

namespace Source

/-- The source after one receive. -/
def next (s : Source α ε) (rest : List α) : Source α ε :=
  { s with rest := rest, fragment := fun i => s.fragment (i + 1) }

/-- Both have the same stream to come, cut in whatever way. -/
def Same (s t : Source α ε) : Prop := s.rest = t.rest ∧ s.ended = t.ended

/-- How many of `n` requested elements the next receive takes. -/
def taken (s : Source α ε) (n : Nat) : Nat := min (min n s.rest.length) (max 1 (s.fragment 0))

theorem Same.symm {s t : Source α ε} (h : s.Same t) : t.Same s := ⟨h.1.symm, h.2.symm⟩

theorem taken_le (s : Source α ε) (n : Nat) : s.taken n ≤ n ∧ s.taken n ≤ s.rest.length := by
  unfold taken
  omega

theorem taken_pos {s : Source α ε} (hs : s.rest ≠ []) {n : Nat} (hn : n ≠ 0) : 0 < s.taken n := by
  have := List.length_pos_iff.2 hs
  unfold taken
  omega

end Source

open Source

def receive (n : Nat) (s : Source α ε) : Except ε (List α) × Source α ε :=
  match s.rest with
  | [] => (.error s.ended, s.next [])
  | x :: xs => (.ok ((x :: xs).take (s.taken n)), s.next ((x :: xs).drop (s.taken n)))

theorem receive_nil {s : Source α ε} (h : s.rest = []) (n : Nat) :
    receive n s = (.error s.ended, s.next []) := by
  simp only [receive, h]

theorem receive_of_ne_nil {s : Source α ε} (h : s.rest ≠ []) (n : Nat) :
    receive n s = (.ok (s.rest.take (s.taken n)), s.next (s.rest.drop (s.taken n))) := by
  obtain ⟨x, xs, hx⟩ := List.exists_cons_of_ne_nil h
  simp only [receive, hx]

theorem receive_one {s : Source α ε} {x : α} {xs : List α} (h : s.rest = x :: xs) :
    receive 1 s = (.ok [x], s.next xs) := by
  have ht : s.taken 1 = 1 := by
    unfold taken
    rw [h, List.length_cons]
    omega
  simp only [receive, h, ht, List.take_succ_cons, List.take_zero, List.drop_succ_cons, List.drop_zero]

theorem length_pos_of_receive {n : Nat} (hn : n ≠ 0) {s t : Source α ε} {xs : List α}
    (h : receive n s = (.ok xs, t)) : 0 < xs.length := by
  by_cases hs : s.rest = []
  · rw [receive_nil hs] at h
    cases h
  · rw [receive_of_ne_nil hs] at h
    cases h
    have := taken_pos hs hn
    have := taken_le s n
    rw [List.length_take]
    omega

/-- Receive until `n` elements are there: the answer, what has arrived, and the source after it. -/
def receiveExactly (n : Nat) (s : Source α ε) : (Except ε Unit × List α) × Source α ε :=
  if _hn : n = 0 then ((.ok (), []), s)
  else
    match _h : receive n s with
    | (.error e, t) => ((.error e, []), t)
    | (.ok xs, t) =>
      let r := receiveExactly (n - xs.length) t
      ((r.1.1, xs ++ r.1.2), r.2)
termination_by n
decreasing_by
  have := length_pos_of_receive _hn _h
  omega

theorem receiveExactly_zero (s : Source α ε) : receiveExactly 0 s = ((.ok (), []), s) := by
  rw [receiveExactly, dif_pos rfl]

theorem receiveExactly_nil {n : Nat} (hn : n ≠ 0) {s : Source α ε} (hs : s.rest = []) :
    receiveExactly n s = ((.error s.ended, []), s.next []) := by
  rw [receiveExactly, dif_neg hn]
  split
  next h =>
    rw [receive_nil hs] at h
    cases h
    rfl
  next h =>
    rw [receive_nil hs] at h
    cases h

theorem receiveExactly_step {n : Nat} (hn : n ≠ 0) {s : Source α ε} (hs : s.rest ≠ []) :
    receiveExactly n s =
      let xs := s.rest.take (s.taken n)
      let r := receiveExactly (n - xs.length) (s.next (s.rest.drop (s.taken n)))
      ((r.1.1, xs ++ r.1.2), r.2) := by
  rw [receiveExactly, dif_neg hn]
  split
  next h =>
    rw [receive_of_ne_nil hs] at h
    cases h
  next h =>
    rw [receive_of_ne_nil hs] at h
    cases h
    rfl

/-- However the stream is cut, exactly the first `n` elements arrive, or all there are and the error. -/
theorem receiveExactly_spec (n : Nat) (s : Source α ε) :
    (receiveExactly n s).1 = (if n ≤ s.rest.length then .ok () else .error s.ended, s.rest.take n) ∧
      (receiveExactly n s).2.rest = s.rest.drop n ∧ (receiveExactly n s).2.ended = s.ended := by
  induction n using Nat.strongRecOn generalizing s with
  | ind n ih =>
    by_cases hn : n = 0
    · subst hn
      rw [receiveExactly_zero]
      exact ⟨rfl, rfl, rfl⟩
    · by_cases hs : s.rest = []
      · rw [receiveExactly_nil hn hs, if_neg (by simp [hs]; omega), hs]
        simp [Source.next]
      · obtain ⟨hle, hlen⟩ := taken_le s n
        have hpos := taken_pos hs hn
        have hk : (s.rest.take (s.taken n)).length = s.taken n := List.length_take_of_le hlen
        obtain ⟨h1, h2, h3⟩ := ih (n - s.taken n) (by omega) (s.next (s.rest.drop (s.taken n)))
        rw [receiveExactly_step hn hs]
        simp only [hk, h1, h2, h3]
        simp only [Source.next, List.length_drop, List.drop_drop, Nat.add_sub_cancel' hle]
        refine ⟨Prod.ext ?_ ?_, trivial, trivial⟩
        · by_cases h : n ≤ s.rest.length
          · rw [if_pos (by omega), if_pos h]
          · rw [if_neg (by omega), if_neg h]
        · show s.rest.take (s.taken n) ++ (s.rest.drop (s.taken n)).take (n - s.taken n) = s.rest.take n
          rw [← List.take_add, Nat.add_sub_cancel' hle]

/-- Receive one by one up to the first element that stops: at most `room`, past which the answer is
`full`. -/
def receiveUntil (stop : α → Bool) (full : ε) : Nat → Source α ε → (Except ε Unit × List α) × Source α ε
  | 0, s => ((.error full, []), s)
  | room + 1, s =>
    match receive 1 s with
    | (.error e, s) => ((.error e, []), s)
    | (.ok xs, s) =>
      if xs.any stop then ((.ok (), xs), s)
      else
        let r := receiveUntil stop full room s
        ((r.1.1, xs ++ r.1.2), r.2)

section
variable (stop : α → Bool) (full : ε)

theorem receiveUntil_nil (room : Nat) {s : Source α ε} (h : s.rest = []) :
    receiveUntil stop full (room + 1) s = ((.error s.ended, []), s.next []) := by
  rw [receiveUntil, receive_nil h]

theorem receiveUntil_cons (room : Nat) {s : Source α ε} {x : α} {xs : List α} (h : s.rest = x :: xs) :
    receiveUntil stop full (room + 1) s =
      if stop x then ((.ok (), [x]), s.next xs)
      else
        (((receiveUntil stop full room (s.next xs)).1.1, x :: (receiveUntil stop full room (s.next xs)).1.2),
          (receiveUntil stop full room (s.next xs)).2) := by
  rw [receiveUntil, receive_one h]
  simp only [List.any_cons, List.any_nil, Bool.or_false, List.cons_append, List.nil_append]

/-- What is consumed is what is handed out. -/
theorem receiveUntil_consumes (room : Nat) (s : Source α ε) :
    s.rest = (receiveUntil stop full room s).1.2 ++ (receiveUntil stop full room s).2.rest ∧
      (receiveUntil stop full room s).2.ended = s.ended := by
  induction room generalizing s with
  | zero => exact ⟨rfl, rfl⟩
  | succ room ih =>
    cases hs : s.rest with
    | nil =>
      rw [receiveUntil_nil stop full room hs]
      exact ⟨rfl, rfl⟩
    | cons x xs =>
      rw [receiveUntil_cons stop full room hs]
      by_cases hx : stop x
      · rw [if_pos hx]
        exact ⟨rfl, rfl⟩
      · obtain ⟨h1, h2⟩ := ih (s.next xs)
        rw [if_neg hx]
        exact ⟨congrArg (x :: ·) h1, h2⟩

/-- Elements before the first that stops, and that one. -/
def IsLine (stop : α → Bool) (line : List α) : Prop :=
  ∃ text x, line = text ++ [x] ∧ stop x = true ∧ ∀ y ∈ text, stop y = false

theorem isLine_of_receiveUntil {room : Nat} {s : Source α ε}
    (h : (receiveUntil stop full room s).1.1 = .ok ()) :
    IsLine stop (receiveUntil stop full room s).1.2 ∧
      (receiveUntil stop full room s).1.2.length ≤ room := by
  induction room generalizing s with
  | zero => cases h
  | succ room ih =>
    cases hs : s.rest with
    | nil =>
      rw [receiveUntil_nil stop full room hs] at h
      cases h
    | cons x xs =>
      rw [receiveUntil_cons stop full room hs] at h ⊢
      by_cases hx : stop x
      · rw [if_pos hx]
        exact ⟨⟨[], x, rfl, hx, by simp⟩, Nat.succ_le_succ (Nat.zero_le _)⟩
      · rw [if_neg hx] at h ⊢
        obtain ⟨⟨text, y, he, hy, htext⟩, hlen⟩ := ih h
        refine ⟨⟨x :: text, y, congrArg (x :: ·) he, hy, ?_⟩, Nat.succ_le_succ hlen⟩
        intro z hz
        rcases List.mem_cons.1 hz with rfl | hz
        · exact Bool.eq_false_iff.2 hx
        · exact htext z hz

/-- It stops if and only if there is something to stop at within the room. -/
theorem receiveUntil_ok_iff (room : Nat) (s : Source α ε) :
    (receiveUntil stop full room s).1.1 = .ok () ↔ ∃ x ∈ s.rest.take room, stop x = true := by
  induction room generalizing s with
  | zero => simp [receiveUntil]
  | succ room ih =>
    cases hs : s.rest with
    | nil =>
      rw [receiveUntil_nil stop full room hs]
      simp
    | cons x xs =>
      rw [receiveUntil_cons stop full room hs, List.take_succ_cons, List.exists_mem_cons_iff]
      by_cases hx : stop x = true
      · simp [hx]
      · simpa [hx, Source.next] using ih (s.next xs)

theorem receiveUntil_of_isLine {room : Nat} {s : Source α ε} {line rest : List α} (hline : IsLine stop line)
    (hroom : line.length ≤ room) (hs : s.rest = line ++ rest) :
    (receiveUntil stop full room s).1 = (.ok (), line) ∧ (receiveUntil stop full room s).2.rest = rest := by
  obtain ⟨text, y, rfl, hy, htext⟩ := hline
  induction text generalizing room s with
  | nil =>
    cases room with
    | zero => cases hroom
    | succ room =>
      rw [receiveUntil_cons stop full room hs, if_pos hy]
      exact ⟨rfl, rfl⟩
  | cons x text ih =>
    cases room with
    | zero => cases hroom
    | succ room =>
      have hx : ¬ stop x = true := Bool.eq_false_iff.1 (htext x List.mem_cons_self)
      obtain ⟨h1, h2⟩ := ih (Nat.le_of_succ_le_succ hroom) (s := s.next (text ++ [y] ++ rest)) rfl
        fun z hz => htext z (List.mem_cons_of_mem x hz)
      rw [receiveUntil_cons stop full room (show s.rest = x :: (text ++ [y] ++ rest) from hs), if_neg hx, h1]
      exact ⟨rfl, h2⟩

end

theorem IsLine.ne_nil {stop : α → Bool} {line : List α} (h : IsLine stop line) : line ≠ [] := by
  obtain ⟨text, x, rfl, -⟩ := h
  exact List.append_ne_nil_of_right_ne_nil text (List.cons_ne_nil x [])

/-- Where the first line ends is determined. -/
theorem IsLine.append_inj {stop : α → Bool} {line line' rest rest' : List α} (h : IsLine stop line)
    (h' : IsLine stop line') (he : line ++ rest = line' ++ rest') : line = line' ∧ rest = rest' := by
  let s : Source α Unit := ⟨line ++ rest, fun _ => 1, ()⟩
  have h1 := receiveUntil_of_isLine stop () h (Nat.le_max_left _ line'.length) (s := s) rfl
  have h2 := receiveUntil_of_isLine stop () h' (Nat.le_max_right line.length _) (s := s) he
  have hline : line = line' := congrArg Prod.snd (h1.1.symm.trans h2.1)
  exact ⟨hline, h1.2.symm.trans h2.2⟩

/-! ## What does not depend on how the stream is cut -/

/-- A program that receives: `none` when it has no defined outcome. -/
abbrev Receiver (α ε β : Type) := StateT (Source α ε) Option β

/-- The same outcome for every way to cut the stream, and the same stream left. -/
def Uncut {β : Type} (p : Receiver α ε β) : Prop :=
  ∀ ⦃s t⦄, s.Same t → ∀ ⦃b s'⦄, p s = some (b, s') → ∃ t', p t = some (b, t') ∧ s'.Same t'

section
variable {β γ : Type}

theorem bind_eq_some {p : Receiver α ε β} {f : β → Receiver α ε γ} {s s'' : Source α ε} {c : γ} :
    (p >>= f) s = some (c, s'') ↔ ∃ b s', p s = some (b, s') ∧ f b s' = some (c, s'') := by
  show (p s).bind (fun r => f r.1 r.2) = some (c, s'') ↔ _
  rw [Option.bind_eq_some_iff, Prod.exists]

theorem bind_apply {p : Receiver α ε β} {s s' : Source α ε} {b : β} (h : p s = some (b, s'))
    (f : β → Receiver α ε γ) : (p >>= f) s = f b s' := by
  show (p s).bind (fun r => f r.1 r.2) = f b s'
  rw [h]
  rfl

theorem Uncut.pure (b : β) : Uncut (pure b : Receiver α ε β) := by
  intro s t h c s' hs
  cases hs
  exact ⟨t, rfl, h⟩

theorem Uncut.undefined : Uncut (fun _ => none : Receiver α ε β) := by
  intro s t _ c s' hs
  cases hs

theorem Uncut.bind {p : Receiver α ε β} {f : β → Receiver α ε γ} (hp : Uncut p) (hf : ∀ b, Uncut (f b)) :
    Uncut (p >>= f) := by
  intro s t h c s'' hs
  obtain ⟨b, s', hb, hc⟩ := bind_eq_some.1 hs
  obtain ⟨t', hb', h'⟩ := hp h hb
  obtain ⟨t'', hc', h''⟩ := hf b h' hc
  exact ⟨t'', bind_eq_some.2 ⟨b, t', hb', hc'⟩, h''⟩

theorem Uncut.ite {c : Prop} [Decidable c] {p q : Receiver α ε β} (hp : Uncut p) (hq : Uncut q) :
    Uncut (if c then p else q) := by
  by_cases h : c
  · rwa [if_pos h]
  · rwa [if_neg h]

theorem Uncut.map_fst_eq {p : Receiver α ε β} (hp : Uncut p) {s t : Source α ε} (h : s.Same t) :
    (p s).map Prod.fst = (p t).map Prod.fst := by
  cases hs : p s with
  | some r =>
    obtain ⟨t', ht, -⟩ := hp h hs
    rw [ht]
    rfl
  | none =>
    cases ht : p t with
    | none => rfl
    | some r =>
      obtain ⟨s', hs', -⟩ := hp h.symm ht
      rw [hs] at hs'
      cases hs'

end

theorem receiveExactly_uncut (n : Nat) :
    Uncut (fun s => some (receiveExactly n s) : Receiver α ε (Except ε Unit × List α)) := by
  intro s t h b s' hs
  obtain ⟨h1, h2, h3⟩ := receiveExactly_spec n s
  obtain ⟨k1, k2, k3⟩ := receiveExactly_spec n t
  have hfst : (receiveExactly n t).1 = (receiveExactly n s).1 := by rw [h1, k1, h.1, h.2]
  obtain ⟨rfl, rfl⟩ := Prod.mk.inj (Option.some.inj hs).symm
  refine ⟨(receiveExactly n t).2, congrArg some (Prod.ext hfst rfl), ?_, ?_⟩
  · rw [h2, k2, h.1]
  · rw [h3, k3, h.2]

theorem receiveUntil_same (stop : α → Bool) (full : ε) (room : Nat) {s t : Source α ε} (h : s.Same t) :
    (receiveUntil stop full room s).1 = (receiveUntil stop full room t).1 ∧
      (receiveUntil stop full room s).2.Same (receiveUntil stop full room t).2 := by
  induction room generalizing s t with
  | zero => exact ⟨rfl, h⟩
  | succ room ih =>
    cases hs : s.rest with
    | nil =>
      rw [receiveUntil_nil stop full room hs, receiveUntil_nil stop full room (h.1 ▸ hs), h.2]
      exact ⟨rfl, rfl, h.2⟩
    | cons x xs =>
      have hnext : (s.next xs).Same (t.next xs) := ⟨rfl, h.2⟩
      obtain ⟨h1, h2⟩ := ih hnext
      rw [receiveUntil_cons stop full room hs, receiveUntil_cons stop full room (h.1 ▸ hs)]
      by_cases hx : stop x
      · rw [if_pos hx, if_pos hx]
        exact ⟨rfl, hnext⟩
      · rw [if_neg hx, if_neg hx, h1]
        exact ⟨rfl, h2⟩

theorem receiveUntil_uncut (stop : α → Bool) (full : ε) (room : Nat) :
    Uncut (fun s => some (receiveUntil stop full room s) : Receiver α ε (Except ε Unit × List α)) := by
  intro s t h b s' hs
  obtain ⟨h1, h2⟩ := receiveUntil_same stop full room h
  obtain ⟨rfl, rfl⟩ := Prod.mk.inj (Option.some.inj hs).symm
  exact ⟨(receiveUntil stop full room t).2, congrArg some (Prod.ext h1.symm rfl), h2⟩

/-! ## Sending -/

/-- What has been put on the wire, and what each coming send comes to: how many elements it takes at most. -/
structure Sink (α ε : Type) where
  sent : List α
  outcome : Nat → Except ε Nat

namespace Sink

def next (s : Sink α ε) (xs : List α) : Sink α ε := ⟨s.sent ++ xs, fun i => s.outcome (i + 1)⟩

/-- No send fails. -/
def Reliable (s : Sink α ε) : Prop := ∀ i, ∃ k, s.outcome i = .ok k

theorem Reliable.next {s : Sink α ε} (h : s.Reliable) (xs : List α) : (s.next xs).Reliable :=
  fun i => h (i + 1)

end Sink

/-- Offers `xs`, which are not empty: the number of elements taken. -/
def send (xs : List α) (s : Sink α ε) : Except ε Nat × Sink α ε :=
  match s.outcome 0 with
  | .error e => (.error e, s.next [])
  | .ok k => (.ok (min xs.length (max 1 k)), s.next (xs.take (min xs.length (max 1 k))))

def sendAll (xs : List α) (s : Sink α ε) : Except ε Unit × Sink α ε :=
  if _hxs : xs = [] then (.ok (), s)
  else
    match _h : send xs s with
    | (.error e, t) => (.error e, t)
    | (.ok k, t) => sendAll (xs.drop k) t
termination_by xs.length
decreasing_by
  have hlen := List.length_pos_iff.2 _hxs
  unfold send at _h
  split at _h
  · cases _h
  · cases _h
    rw [List.length_drop]
    omega

theorem sendAll_nil (s : Sink α ε) : sendAll [] s = (.ok (), s) := by
  rw [sendAll, dif_pos rfl]

theorem sendAll_error {xs : List α} (hxs : xs ≠ []) {s : Sink α ε} {e : ε} (h : s.outcome 0 = .error e) :
    sendAll xs s = (.error e, s.next []) := by
  have hsend : send xs s = (.error e, s.next []) := by simp only [send, h]
  rw [sendAll, dif_neg hxs]
  split
  next h' => rw [hsend] at h'; cases h'; rfl
  next h' => rw [hsend] at h'; cases h'

theorem sendAll_step {xs : List α} (hxs : xs ≠ []) {s : Sink α ε} {k : Nat} (h : s.outcome 0 = .ok k) :
    sendAll xs s =
      sendAll (xs.drop (min xs.length (max 1 k))) (s.next (xs.take (min xs.length (max 1 k)))) := by
  have hsend : send xs s =
      (.ok (min xs.length (max 1 k)), s.next (xs.take (min xs.length (max 1 k)))) := by
    simp only [send, h]
  rw [sendAll, dif_neg hxs]
  split
  next h' => rw [hsend] at h'; cases h'
  next h' => rw [hsend] at h'; cases h'; rfl

/-- Whatever the sends come to, a prefix of `xs` is put on the wire, all of it when none fails. -/
theorem sendAll_spec (xs : List α) (s : Sink α ε) :
    ∃ sent, sent <+: xs ∧ (sendAll xs s).2.sent = s.sent ++ sent ∧
      ((sendAll xs s).1 = .ok () → sent = xs) ∧
      (s.Reliable → (sendAll xs s).1 = .ok () ∧ (sendAll xs s).2.Reliable) := by
  induction h : xs.length using Nat.strongRecOn generalizing xs s with
  | ind n ih =>
    by_cases hxs : xs = []
    · subst hxs
      rw [sendAll_nil]
      exact ⟨[], List.prefix_rfl, (List.append_nil _).symm, fun _ => rfl, fun hs => ⟨rfl, hs⟩⟩
    · cases ho : s.outcome 0 with
      | error e =>
        rw [sendAll_error hxs ho]
        refine ⟨[], List.nil_prefix, rfl, (fun h => by cases h), ?_⟩
        intro hs
        obtain ⟨k, hk⟩ := hs 0
        rw [ho] at hk
        cases hk
      | ok k =>
        have hlen := List.length_pos_iff.2 hxs
        rw [sendAll_step hxs ho]
        generalize hj : min xs.length (max 1 k) = j
        obtain ⟨sent, hpre, hsent, hok, hrel⟩ :=
          ih (xs.drop j).length (by rw [List.length_drop]; omega) (xs.drop j) (s.next (xs.take j)) rfl
        refine ⟨xs.take j ++ sent, ?_, ?_, ?_, ?_⟩
        · obtain ⟨rest, hrest⟩ := hpre
          exact ⟨rest, by rw [List.append_assoc, hrest, List.take_append_drop]⟩
        · rw [hsent, Sink.next, List.append_assoc]
        · intro h
          rw [hok h, List.take_append_drop]
        · exact fun hs => hrel (hs.next _)

theorem sendAll_of_reliable (xs : List α) {s : Sink α ε} (hs : s.Reliable) :
    (sendAll xs s).1 = .ok () ∧ (sendAll xs s).2.sent = s.sent ++ xs ∧ (sendAll xs s).2.Reliable := by
  obtain ⟨sent, -, hsent, hok, hrel⟩ := sendAll_spec xs s
  obtain ⟨h1, h2⟩ := hrel hs
  exact ⟨h1, by rw [hsent, hok h1], h2⟩

/-! ## Programs that send -/

/-- A program that sends; what has been sent stays sent when it fails. -/
abbrev Sender (α ε β : Type) := ExceptT ε (StateM (Sink α ε)) β

section
variable {β γ : Type}

/-- Where no send fails, the program puts `text` on the wire and returns `b`. -/
def Emits (p : Sender α ε β) (text : List α) (b : β) : Prop :=
  ∀ ⦃s : Sink α ε⦄, s.Reliable → ∃ t, p s = (.ok b, t) ∧ t.sent = s.sent ++ text ∧ t.Reliable

theorem Emits.pure (b : β) : Emits (pure b : Sender α ε β) [] b :=
  fun s hs => ⟨s, rfl, (List.append_nil _).symm, hs⟩

theorem Emits.bind {p : Sender α ε β} {f : β → Sender α ε γ} {text text' : List α} {b : β} {c : γ}
    (hp : Emits p text b) (hf : Emits (f b) text' c) : Emits (p >>= f) (text ++ text') c := by
  intro s hs
  obtain ⟨t, ht, hsent, hrel⟩ := hp hs
  obtain ⟨u, hu, hsent', hrel'⟩ := hf hrel
  refine ⟨u, ?_, by rw [hsent', hsent, List.append_assoc], hrel'⟩
  simp only [Bind.bind, ExceptT.bind, ExceptT.mk, StateT.bind, ht, ExceptT.bindCont, hu]

theorem Emits.of_eq {p : Sender α ε β} {text text' : List α} {b : β} (h : Emits p text b) (ht : text = text') :
    Emits p text' b := ht ▸ h

theorem Emits.ite {c : Prop} [Decidable c] {p q : Sender α ε β} {text text' : List α} {b : β} (hp : Emits p text b)
    (hq : Emits q text' b) : Emits (if c then p else q) (if c then text else text') b := by
  by_cases h : c
  · simpa only [if_pos h] using hp
  · simpa only [if_neg h] using hq

theorem sendAll_emits (xs : List α) : Emits (sendAll xs : Sender α ε Unit) xs () := by
  intro s hs
  obtain ⟨h1, h2, h3⟩ := sendAll_of_reliable xs hs
  exact ⟨(sendAll xs s).2, Prod.ext h1 rfl, h2, h3⟩

/-- Whatever the sends come to, the program puts a prefix of `text` on the wire, all of it if it returns, and then it
returns `b`. -/
def Writes (p : Sender α ε β) (text : List α) (b : β) : Prop :=
  ∀ s : Sink α ε, ∃ sent r t, p s = (r, t) ∧ t.sent = s.sent ++ sent ∧ sent <+: text ∧
    ∀ c, r = .ok c → c = b ∧ sent = text

theorem Writes.pure (b : β) : Writes (pure b : Sender α ε β) [] b :=
  fun s => ⟨[], .ok b, s, rfl, (List.append_nil _).symm, List.prefix_rfl, fun _ hc => ⟨(Except.ok.inj hc).symm, rfl⟩⟩

theorem Writes.throw (e : ε) (text : List α) (b : β) : Writes (throw e : Sender α ε β) text b :=
  fun s => ⟨[], .error e, s, rfl, (List.append_nil _).symm, List.nil_prefix, fun _ hc => by cases hc⟩

theorem Writes.bind {p : Sender α ε β} {f : β → Sender α ε γ} {text text' : List α} {b : β} {c : γ}
    (hp : Writes p text b) (hf : Writes (f b) text' c) : Writes (p >>= f) (text ++ text') c := by
  intro s
  obtain ⟨sent, r, t, ht, hsent, hpre, hok⟩ := hp s
  cases r with
  | error e =>
    refine ⟨sent, .error e, t, ?_, hsent, hpre.trans (List.prefix_append text text'), fun _ hc => by cases hc⟩
    simp only [Bind.bind, ExceptT.bind, ExceptT.mk, StateT.bind, ht, ExceptT.bindCont]
    rfl
  | ok d =>
    obtain ⟨rfl, rfl⟩ := hok d rfl
    obtain ⟨sent', r', u, hu, hsent', hpre', hok'⟩ := hf t
    refine ⟨sent ++ sent', r', u, ?_, by rw [hsent', hsent, List.append_assoc],
      (List.prefix_append_right_inj sent).2 hpre', fun c hc => ?_⟩
    · simp only [Bind.bind, ExceptT.bind, ExceptT.mk, StateT.bind, ht, ExceptT.bindCont, hu]
    · exact ⟨(hok' c hc).1, by rw [(hok' c hc).2]⟩

theorem Writes.of_eq {p : Sender α ε β} {text text' : List α} {b : β} (h : Writes p text b) (ht : text = text') :
    Writes p text' b := ht ▸ h

theorem Writes.ite {c : Prop} [Decidable c] {p q : Sender α ε β} {text text' : List α} {b : β} (hp : Writes p text b)
    (hq : Writes q text' b) : Writes (if c then p else q) (if c then text else text') b := by
  by_cases h : c
  · simpa only [if_pos h] using hp
  · simpa only [if_neg h] using hq

theorem sendAll_writes (xs : List α) : Writes (sendAll xs : Sender α ε Unit) xs () := by
  intro s
  obtain ⟨sent, hpre, hsent, hok, -⟩ := sendAll_spec xs s
  exact ⟨sent, (sendAll xs s).1, (sendAll xs s).2, rfl, hsent, hpre, fun _ h => ⟨rfl, hok h⟩⟩

end

end PartialIO
