import Mathlib.Data.List.Forall2

/-!
# Searching in one pass, without falling back

A text is read once. A character that continues the match so far brings the search one step on, any other
character throws the whole match away and is gone too. Such a search finds an occurrence only if no other
attempt is under way where it begins, so it is exact on the texts whose first occurrence stands behind
failed attempts only.

| here              | there                                                         |
|-------------------|---------------------------------------------------------------|
| `OccursAt`        | the target stands at a position                               |
| `Failed`          | a text that the search reads without a match and ends at rest |
| `pass`            | the search                                                    |
| `exact_search_iff`| where the search is the search for the first occurrence       |
-/

namespace OnePass

variable {α β : Type*}

/-- Two texts agree character for character. -/
abbrev Agree (same : α → β → Bool) (found : List α) (target : List β) : Prop :=
  List.Forall₂ (fun c t => same c t = true) found target

/-- The target stands in the source at `position`. -/
def OccursAt (same : α → β → Bool) (target : List β) (source : List α) (position : Nat) : Prop :=
  ∃ before found rest, source = before ++ found ++ rest ∧ before.length = position ∧ Agree same found target

/-- The first place where the target stands. -/
def FirstAt (same : α → β → Bool) (target : List β) (source : List α) (position : Nat) : Prop :=
  OccursAt same target source position ∧ ∀ earlier < position, ¬ OccursAt same target source earlier

/-- The answer of a search that is right: a target that is not empty is found if it occurs, and where it
stands first. -/
def Exact (same : α → β → Bool) (target : List β) (source : List α) (answer : Option Nat) : Prop :=
  (answer.isSome ↔ target ≠ [] ∧ ∃ position, OccursAt same target source position) ∧
    ∀ position, answer = some position → FirstAt same target source position

/-- Failed attempts, one after the other. Each reads a beginning of the target and one character more that
does not continue it. -/
inductive Failed (same : α → β → Bool) (target : List β) : List α → Prop
  | nil : Failed same target []
  | attempt {tried rest : List α} {c : α} {matched missing : List β} {t : β}
      (split : target = matched ++ t :: missing) (agree : Agree same tried matched) (differs : same c t = false)
      (behind : Failed same target rest) : Failed same target (tried ++ c :: rest)

/-- The search with the part of the target that is still missing. The answer is what stands behind the
match. -/
def pass (same : α → β → Bool) (target : List β) : List β → List α → Option (List α)
  | [], source => some source
  | _ :: _, [] => none
  | t :: missing, c :: source =>
    if same c t then pass same target missing source else pass same target target source

/-- The search for a target that is not empty, with the position where the match begins. -/
def search (same : α → β → Bool) (source : List α) (target : List β) : Option Nat :=
  if target = [] then none
  else (pass same target target source).map fun rest => source.length - rest.length - target.length

variable {same : α → β → Bool} {target : List β}

@[simp] theorem pass_nil (source : List α) : pass same target [] source = some source := by
  cases source <;> rfl

/-! ## Occurrences -/

theorem occursAt_nil (source : List α) : OccursAt same [] source 0 :=
  ⟨[], [], source, rfl, rfl, .nil⟩

theorem FirstAt.unique {source : List α} {p q : Nat} (hp : FirstAt same target source p)
    (hq : FirstAt same target source q) : p = q := by
  rcases Nat.lt_trichotomy p q with h | h | h
  · exact absurd hp.1 (hq.2 p h)
  · exact h
  · exact absurd hq.1 (hp.2 q h)

/-- What occurs somewhere occurs somewhere first. -/
theorem exists_firstAt {source : List α} {position : Nat} (h : OccursAt same target source position) :
    ∃ p ≤ position, FirstAt same target source p := by
  induction position using Nat.strongRecOn with
  | ind position ih =>
    by_cases hearlier : ∃ p < position, OccursAt same target source p
    · obtain ⟨p, hp, hoccurs⟩ := hearlier
      obtain ⟨q, hq, hfirst⟩ := ih p hp hoccurs
      exact ⟨q, by omega, hfirst⟩
    · refine ⟨position, Nat.le_refl _, h, fun p hp hoccurs => ?_⟩
      exact hearlier ⟨p, hp, hoccurs⟩

theorem OccursAt.lt_length {source : List α} {position : Nat} (h : OccursAt same target source position)
    (hne : target ≠ []) : position < source.length := by
  obtain ⟨before, found, rest, rfl, rfl, hfound⟩ := h
  have := hfound.length_eq
  have := List.length_pos_of_ne_nil hne
  simp only [List.length_append]
  omega

/-- Characters that do not begin the target are failed attempts. -/
theorem Failed.of_forall {t : β} (missing : List β) {before : List α} (h : ∀ c ∈ before, same c t = false) :
    Failed same (t :: missing) before := by
  induction before with
  | nil => exact .nil
  | cons c before ih =>
    obtain ⟨hc, hbefore⟩ := List.forall_mem_cons.1 h
    exact Failed.attempt (List.nil_append _).symm .nil hc (ih hbefore)

/-! ## The search step by step -/

theorem pass_agree {found : List α} {missing : List β} (rest : List α) (h : Agree same found missing) :
    pass same target missing (found ++ rest) = some rest := by
  induction h with
  | nil => simp
  | cons hc _ ih =>
    rw [List.cons_append, pass, if_pos hc]
    exact ih

/-- A beginning of the target leaves the end of the target missing. -/
theorem pass_beginning {tried : List α} {matched : List β} (missing : List β) (rest : List α)
    (h : Agree same tried matched) :
    pass same target (matched ++ missing) (tried ++ rest) = pass same target missing rest := by
  induction h with
  | nil => rfl
  | cons hc _ ih =>
    rw [List.cons_append, List.cons_append, pass, if_pos hc]
    exact ih

/-- Failed attempts leave no trace. -/
theorem pass_failed {before : List α} (rest : List α) (h : Failed same target before) :
    pass same target target (before ++ rest) = pass same target target rest := by
  induction h with
  | nil => rfl
  | @attempt tried after c matched missing t split agree differs _ ih =>
    rw [List.append_assoc, List.cons_append]
    nth_rewrite 2 [split]
    rw [pass_beginning _ _ agree, pass, differs, if_neg Bool.false_ne_true]
    exact ih

theorem search_failed {before found rest : List α} (hne : target ≠ []) (hbefore : Failed same target before)
    (hfound : Agree same found target) :
    search same (before ++ found ++ rest) target = some before.length := by
  rw [search, if_neg hne, List.append_assoc, pass_failed _ hbefore, pass_agree _ hfound, Option.map_some]
  have := hfound.length_eq
  congr 1
  simp only [List.length_append]
  omega

/-- What the search says it has found, with what it has read so far of the target put back. -/
theorem exists_of_pass {source rest : List α} :
    ∀ {tried : List α} {matched missing : List β}, target = matched ++ missing → Agree same tried matched →
      pass same target missing source = some rest →
      ∃ before found, tried ++ source = before ++ found ++ rest ∧ Failed same target before ∧
        Agree same found target := by
  induction source with
  | nil =>
    intro tried matched missing hsplit hagree h
    cases missing with
    | nil =>
      obtain rfl : [] = rest := by simpa using h
      rw [List.append_nil] at hsplit
      exact ⟨[], tried, by simp, .nil, hsplit ▸ hagree⟩
    | cons t missing => simp [pass] at h
  | cons c source ih =>
    intro tried matched missing hsplit hagree h
    cases missing with
    | nil =>
      obtain rfl : c :: source = rest := by simpa using h
      rw [List.append_nil] at hsplit
      exact ⟨[], tried, by simp, .nil, hsplit ▸ hagree⟩
    | cons t missing =>
      rw [pass] at h
      by_cases hc : same c t = true
      · rw [if_pos hc] at h
        have hagree' : Agree same (tried ++ [c]) (matched ++ [t]) := List.rel_append hagree (.cons hc .nil)
        have hsplit' : target = (matched ++ [t]) ++ missing := by simpa using hsplit
        simpa using ih hsplit' hagree' h
      · rw [if_neg hc] at h
        obtain ⟨before, found, hsource, hbefore, hfound⟩ := ih (List.nil_append target).symm .nil h
        rw [List.nil_append] at hsource
        refine ⟨tried ++ c :: before, found, by simp [hsource], ?_, hfound⟩
        exact .attempt hsplit hagree (by simpa using hc) hbefore

/-- The search finds occurrences only, and each of them behind failed attempts. -/
theorem search_eq_some {source : List α} {position : Nat} (h : search same source target = some position) :
    target ≠ [] ∧ OccursAt same target source position ∧ Failed same target (source.take position) := by
  by_cases hne : target = []
  · rw [search, if_pos hne] at h
    cases h
  rw [search, if_neg hne] at h
  obtain ⟨rest, hpass, hposition⟩ := Option.map_eq_some_iff.1 h
  obtain ⟨before, found, hsource, hbefore, hfound⟩ :=
    exists_of_pass (List.nil_append target).symm .nil hpass
  rw [List.nil_append] at hsource
  obtain rfl : before.length = position := by
    have := hfound.length_eq
    simp only [hsource, List.length_append] at hposition
    omega
  refine ⟨hne, ⟨before, found, rest, hsource, rfl, hfound⟩, ?_⟩
  rwa [hsource, List.append_assoc, List.take_left]

/-- An occurrence behind failed attempts is what the search answers. -/
theorem search_of_failed {source : List α} {position : Nat} (hne : target ≠ [])
    (hoccurs : OccursAt same target source position) (hfailed : Failed same target (source.take position)) :
    search same source target = some position := by
  obtain ⟨before, found, rest, rfl, rfl, hfound⟩ := hoccurs
  rw [List.append_assoc, List.take_left] at hfailed
  exact search_failed hne hfailed hfound

/-- The search is exact if and only if the text before the first occurrence consists of failed attempts. -/
theorem exact_search_iff (source : List α) :
    Exact same target source (search same source target) ↔
      ∀ position, FirstAt same target source position → Failed same target (source.take position) := by
  by_cases hne : target = []
  · subst hne
    have hfirst : FirstAt same [] source 0 := ⟨occursAt_nil source, fun _ h => absurd h (Nat.not_lt_zero _)⟩
    constructor
    · intro _ position hposition
      obtain rfl := hposition.unique hfirst
      exact .nil
    · intro _
      simp [Exact, search]
  constructor
  · intro hexact position hfirst
    obtain ⟨answer, hanswer⟩ := Option.isSome_iff_exists.1 (hexact.1.2 ⟨hne, position, hfirst.1⟩)
    obtain rfl := (hexact.2 answer hanswer).unique hfirst
    exact (search_eq_some hanswer).2.2
  · intro hfailed
    have hsearch : ∀ position, FirstAt same target source position → search same source target = some position :=
      fun position hfirst => search_of_failed hne hfirst.1 (hfailed position hfirst)
    refine ⟨⟨fun h => ?_, ?_⟩, ?_⟩
    · obtain ⟨answer, hanswer⟩ := Option.isSome_iff_exists.1 h
      exact ⟨hne, answer, (search_eq_some hanswer).2.1⟩
    · rintro ⟨_, position, hoccurs⟩
      obtain ⟨first, _, hfirst⟩ := exists_firstAt hoccurs
      rw [hsearch first hfirst]
      rfl
    · intro position hposition
      obtain ⟨first, _, hfirst⟩ := exists_firstAt (search_eq_some hposition).2.1
      obtain rfl : first = position := by
        rw [hsearch first hfirst] at hposition
        simpa using hposition
      exact hfirst

end OnePass
