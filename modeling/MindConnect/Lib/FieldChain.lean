import Mathlib.Data.List.Basic

/-!
# Reading fields in a row until one is absent

A record starts with defaults and is filled by steps, one for each field. A step that fails ends the row; if it failed
because its member is absent, the record stays as it is. So a member behind an absent one is never looked at, and shows
in the record only if it is what the record has by default.

`readAll_shows_iff` says so for fields whose steps do not disturb each other.
-/

namespace FieldChain

variable {ν ε σ : Type}

/-- The steps up to the first that fails; the failures that `absent` names are none. -/
def readAll (absent : ε → Bool) : List (σ → Except ε σ) → σ → Except ε σ
  | [], s => .ok s
  | step :: steps, s =>
    match step s with
    | .ok s' => readAll absent steps s'
    | .error e => if absent e then .ok s else .error e

/-- A field of what is read. -/
structure Member (ν : Type) where
  member : Option ν
  /-- Once read, the member shows in the record. -/
  Whole : ν → Prop
  /-- The member shows in a record that was not filled. -/
  Default : ν → Prop

/-- The same with its step; `Shows` says that the record has the value of the member. -/
structure Field (ν ε σ : Type) extends Member ν where
  step : σ → Except ε σ
  Shows : ν → σ → Prop

/-- The step fails as absent exactly when the member is, and shows a member that is whole. -/
structure Field.Lawful (absent : ε → Bool) (f : Field ν ε σ) : Prop where
  of_absent : f.member = none → ∀ s, ∃ e, f.step s = .error e ∧ absent e = true
  of_present : ∀ child, f.member = some child → ∀ s e, f.step s = .error e → absent e = false
  shows : ∀ child, f.member = some child → ∀ s s', f.step s = .ok s' → (f.Shows child s' ↔ f.Whole child)

/-- The record `s` has the default of the field. -/
structure Field.Starts (absent : ε → Bool) (s : σ) (f : Field ν ε σ) : Prop extends Field.Lawful absent f where
  default : ∀ child, f.Shows child s ↔ f.Default child

/-- The step of `g` leaves what `f` shows. -/
def Field.Spares (g f : Field ν ε σ) : Prop := ∀ child s s', g.step s = .ok s' → (f.Shows child s' ↔ f.Shows child s)

/-- Every member is whole as long as none is absent, and from there on a default. -/
def WholeUpToAbsent : List (Member ν) → Prop
  | [] => True
  | f :: fields =>
    match f.member with
    | some child => f.Whole child ∧ WholeUpToAbsent fields
    | none => ∀ g ∈ fields, ∀ child ∈ g.member, g.Default child

theorem absent_of_readAll_error {absent : ε → Bool} {steps : List (σ → Except ε σ)} {s : σ} {e : ε}
    (h : readAll absent steps s = .error e) : absent e = false := by
  induction steps generalizing s with
  | nil => cases h
  | cons step steps ih =>
    rw [readAll] at h
    cases hstep : step s with
    | ok s' =>
      rw [hstep] at h
      exact ih h
    | error e' =>
      simp only [hstep] at h
      split_ifs at h with habsent
      cases h
      simpa using habsent

theorem readAll_spares {absent : ε → Bool} {f : Field ν ε σ} {fields : List (Field ν ε σ)}
    (hspares : ∀ g ∈ fields, g.Spares f) {s s' : σ} (h : readAll absent (fields.map Field.step) s = .ok s') (child : ν) :
    f.Shows child s' ↔ f.Shows child s := by
  induction fields generalizing s with
  | nil =>
    cases h
    rfl
  | cons g fields ih =>
    obtain ⟨hg, hrest⟩ := List.forall_mem_cons.1 hspares
    rw [List.map_cons, readAll] at h
    cases hstep : g.step s with
    | ok s1 =>
      rw [hstep] at h
      rw [ih hrest h, hg child s s1 hstep]
    | error e =>
      simp only [hstep] at h
      split_ifs at h
      cases h
      rfl

theorem Field.Starts.of_step {absent : ε → Bool} {f g : Field ν ε σ} {s s' : σ} (h : g.Starts absent s)
    (hspares : f.Spares g) (hstep : f.step s = .ok s') : g.Starts absent s' :=
  ⟨h.toLawful, fun child => (hspares child s s' hstep).trans (h.default child)⟩

/-- What is read shows, but for what stands behind an absent member. -/
theorem readAll_shows_iff {absent : ε → Bool} {fields : List (Field ν ε σ)} {s s' : σ}
    (hstarts : ∀ f ∈ fields, f.Starts absent s) (hapart : fields.Pairwise fun f g => f.Spares g ∧ g.Spares f)
    (h : readAll absent (fields.map Field.step) s = .ok s') :
    (∀ f ∈ fields, ∀ child ∈ f.member, f.Shows child s') ↔
      WholeUpToAbsent (fields.map Field.toMember) := by
  induction fields generalizing s with
  | nil => exact ⟨fun _ => trivial, fun _ f hf => absurd hf List.not_mem_nil⟩
  | cons f fields ih =>
    obtain ⟨hf, hrest⟩ := List.forall_mem_cons.1 hstarts
    obtain ⟨hfapart, hapart⟩ := List.pairwise_cons.1 hapart
    rw [List.map_cons, readAll] at h
    rw [List.forall_mem_cons, List.map_cons, WholeUpToAbsent, List.forall_mem_map]
    cases hmember : f.member with
    | none =>
      -- the row ends here, and the record is still the one it was
      obtain ⟨e, hstep, habsent⟩ := hf.of_absent hmember s
      simp only [hstep, habsent, if_true, Except.ok.injEq] at h
      subst h
      simp only [Option.mem_def, reduceCtorEq, false_implies, implies_true, true_and]
      constructor
      · exact fun hshows g hg child hchild => ((hrest g hg).default child).1 (hshows g hg child hchild)
      · exact fun hall g hg child hchild => ((hrest g hg).default child).2 (hall g hg child hchild)
    | some child =>
      cases hstep : f.step s with
      | error e =>
        simp [hstep, hf.of_present child hmember s e hstep] at h
      | ok s1 =>
        simp only [hstep] at h
        have hnext : ∀ g ∈ fields, g.Starts absent s1 := fun g hg => (hrest g hg).of_step (hfapart g hg).1 hstep
        have hshown : f.Shows child s' ↔ f.Whole child := by
          rw [readAll_spares (fun g hg => (hfapart g hg).2) h child, hf.shows child hmember s s1 hstep]
        simp only [Option.mem_def, Option.some.injEq, forall_eq']
        rw [hshown]
        exact and_congr_right fun _ => ih hnext hapart h

end FieldChain
