import MindConnect.Core.JsonBuilder

/-!
# The trees a program builds

A program has several trees in hand and points to any node of any of them; a tree that was added to another one is
in hand no more. The names of an object's members stay different up to the case of letters (`run_namesUnique`),
whatever the calls and whatever memory there is. `json_util_add_item_to_array` does not look at its target: to an object it adds
a member without a name, which is printed with the empty one (`namelessMembers_sameName`).

| here | there |
| --- | --- |
| `Forest`, `Pointer` | the trees from `json_util_initialize` (`json_util.c:59`) and the `mcl_json_t *` into them |
| `Call.perform` | one call of a builder function with what memory there is |
| `member` | what `print_object` (`cJSON.c:1732`) prints of a child |
-/

namespace MindConnect.JsonBuilder

open CriticalSection

variable {F : Type}

/-! ## Runs -/

/-- The trees in the order they came into hand; `none` for one that is part of another now. -/
abbrev Forest (F : Type) := List (Option (Cjson F))

structure Pointer where
  tree : Nat
  path : List Nat
deriving DecidableEq

def Forest.get? (f : Forest F) (p : Pointer) : Option (Cjson F) := f[p.tree]?.join.bind fun t => t.get? p.path

/-- The node behind a pointer becomes another. -/
def Forest.put (f : Forest F) (p : Pointer) (s : Cjson F) : Forest F :=
  match f[p.tree]?.join with
  | some t => f.set p.tree (some (t.replace s p.path))
  | none => f

/-- `E_MCL_JSON_TYPE`, the two that are valid -/
inductive JsonType where
  | array | object
deriving DecidableEq

def JsonType.itemType : JsonType → ItemType F
  | .array => .array
  | .object => .object

/-- `object` is the number of a tree that stands alone, and is not the one the target is in. -/
inductive Call (F : Type) where
  | jsonInitialize (m : Allocation) (type : JsonType)
  | startArray (m : Allocation) (target : Pointer) (name : Option CString)
  | startObject (m : Allocation) (target : Pointer) (name : Option CString)
  | add (m : Allocation) (target : Pointer) (name : Option CString) (addition : Addition F)
  | addObject (m : Allocation) (target : Pointer) (name : Option CString) (object : Nat)
  | addItemToArray (target : Pointer) (object : Nat)

/-- The tree of that number, unless the target is in it. -/
def Forest.freeStanding (f : Forest F) (object : Nat) (target : Pointer) : Option (Cjson F) :=
  if object = target.tree then none else f[object]?.join

def Call.perform (toDouble : Nat → F) (f : Forest F) : Call F → Option (Result Unit × Forest F)
  | .jsonInitialize m type =>
    match createItem m type.itemType with
    | some t => some (.ok (), f ++ [some t])
    | none => some (.error .outOfMemory, f)
  | .startArray m target name =>
    (f.get? target).map fun root =>
      let (code, root', child) := JsonBuilder.startArray m root name
      (code, f.put target root' ++ child.toList.map some)
  | .startObject m target name =>
    (f.get? target).map fun root =>
      let (code, root', child) := JsonBuilder.startObject m root name
      (code, f.put target root' ++ child.toList.map some)
  | .add m target name addition =>
    (f.get? target).map fun root =>
      let (code, root') := addition.perform toDouble m root name
      (code, f.put target root')
  | .addObject m target name object => do
    let root ← f.get? target
    let t ← f.freeStanding object target
    let (code, root', alone) := JsonBuilder.addObject m root name t
    return (code, (f.put target root').set object alone)
  | .addItemToArray target object => do
    let root ← f.get? target
    let t ← f.freeStanding object target
    return (.ok (), (f.put target (JsonBuilder.addItemToArray root (some t))).set object none)

def Performs (toDouble : Nat → F) (call : Call F) (f : Forest F) (code : Result Unit) (f' : Forest F) : Prop :=
  call.perform toDouble f = some (code, f')

abbrev BuilderCall (F : Type) := Done (Forest F) (Call F) (Result Unit)

/-- The call adds to an object what only an array should get. -/
def Call.AddsToObject (f : Forest F) : Call F → Prop
  | .addItemToArray target _ => ∃ root, f.get? target = some root ∧ root.label.type = .object
  | _ => False

/-! ## Names -/

def memberNames (t : Cjson F) : List CString := t.children.filterMap fun c => c.label.name

/-- Different names, the case of letters ignored. -/
def DistinctNames (names : List CString) : Prop := names.Pairwise fun a b => Json.sameName a b = false

/-- The children of an object that have names have different ones. -/
def NamesUnique (l : Label F) (children : List (Label F)) : Prop :=
  l.type = .object → DistinctNames (children.filterMap Label.name)

/-- All children of an object have names. -/
def AllNamed (l : Label F) (children : List (Label F)) : Prop :=
  l.type = .object → ∀ c ∈ children, c.name.isSome

/-- What a node may say of its children so that the builder keeps it. -/
structure Kept (P : Label F → List (Label F) → Prop) : Prop where
  leaf : ∀ l, P l []
  renamed : ∀ {type name name' children}, P ⟨type, name⟩ children → P ⟨type, name'⟩ children
  member : ∀ {l children type name}, P l children → (∀ c ∈ children, c.name.any (Json.sameName name) = false) →
    P l (children ++ [⟨type, some name⟩])
  element : ∀ {l children c}, P l children → l.type = .array → P l (children ++ [c])

theorem sameName_comm (s t : CString) : Json.sameName s t = Json.sameName t s := by
  unfold Json.sameName
  exact Bool.beq_comm

theorem namesUnique_append {l : Label F} {children : List (Label F)} (h : NamesUnique l children) {c : Label F}
    (hc : ∀ name, c.name = some name → ∀ d ∈ children, d.name.any (Json.sameName name) = false) :
    NamesUnique l (children ++ [c]) := by
  intro hobject
  unfold DistinctNames
  rw [List.filterMap_append, List.pairwise_append]
  refine ⟨h hobject, ?_, fun a ha b hb => ?_⟩
  · cases hname : c.name <;> simp [hname]
  · obtain ⟨d, hd, hname⟩ := List.mem_filterMap.1 ha
    obtain ⟨c', hc', hb⟩ := List.mem_filterMap.1 hb
    rw [List.mem_singleton.1 hc'] at hb
    have hother := hc b hb d hd
    rw [hname] at hother
    rw [sameName_comm]
    exact hother

theorem namesUnique_kept : Kept (NamesUnique (F := F)) where
  leaf l _ := List.Pairwise.nil
  renamed h := h
  member h hnew := namesUnique_append h fun name hname d hd => by
    cases hname
    exact hnew d hd
  element h harray := fun hobject => by
    rw [harray] at hobject
    cases hobject

theorem allNamed_kept : Kept (AllNamed (F := F)) where
  leaf l _ := by simp
  renamed h := h
  member h _ := fun hobject c hc => by
    rcases List.mem_append.1 hc with hc | hc
    · exact h hobject c hc
    · rw [List.mem_singleton.1 hc]
      rfl
  element h harray := fun hobject => by
    rw [harray] at hobject
    cases hobject

/-! ## One call -/

section

variable {P : Label F → List (Label F) → Prop} {toDouble : Nat → F} {m : Allocation} {root root' : Cjson F}
  {name : Option CString}

theorem getObjectItem_eq_none {s : CString} (h : getObjectItem root (some s) = none) :
    ∀ c ∈ root.children.map Rose.label, c.name.any (Json.sameName s) = false := by
  intro l hl
  obtain ⟨c, hc, rfl⟩ := List.mem_map.1 hl
  simpa using List.find?_eq_none.1 h c hc

theorem addItemToObject_kept (hP : Kept P) (hroot : Rose.Everywhere P root) {s : CString}
    (hnew : getObjectItem root (some s) = none) {item : Option (Cjson F)}
    (hitem : ∀ i, item = some i → Rose.Everywhere P i)
    (h : addItemToObject m root (some s) item = some root') :
    root'.label = root.label ∧ Rose.Everywhere P root' := by
  cases item with
  | none => cases h
  | some i =>
    have hi := hitem i rfl
    simp only [addItemToObject, bind, Option.bind] at h
    split at h
    · cases h
      refine ⟨rfl, hroot.append ?_ ?_⟩
      · exact hi.relabel (hP.renamed (Rose.everywhere_iff.1 hi).1)
      · exact hP.member (Rose.everywhere_iff.1 hroot).1 (getObjectItem_eq_none hnew)
    · cases h

theorem item_kept (hP : Kept P) (addition : Addition F) (i : Cjson F)
    (hi : addition.item toDouble m = some i) : Rose.Everywhere P i ∧ i.label.name = none := by
  cases hcreates : addition.creates m with
  | true =>
    obtain ⟨type, -, hitem⟩ := item_of_creates toDouble hcreates
    rw [hitem] at hi
    cases hi
    exact ⟨.leaf (hP.leaf _), rfl⟩
  | false =>
    rw [item_of_not_creates toDouble hcreates] at hi
    cases hi

variable (toDouble m name) in
theorem addition_kept (hP : Kept P) (hroot : Rose.Everywhere P root) (addition : Addition F) :
    (addition.perform toDouble m root name).2.label = root.label ∧
      Rose.Everywhere P (addition.perform toDouble m root name).2 := by
  cases name with
  | none =>
    by_cases harray : root.label.type = .array
    · cases hitem : addition.item toDouble m with
      | some i =>
        rw [perform_array_of_some harray hitem]
        exact ⟨rfl, hroot.append (item_kept hP addition i hitem).1
          (hP.element (Rose.everywhere_iff.1 hroot).1 harray)⟩
      | none =>
        obtain ⟨hnull, hother⟩ := perform_array_of_none harray hitem
        cases addition with
        | null =>
          rw [hnull rfl]
          exact ⟨rfl, hroot⟩
        | _ =>
          rw [hother (by simp)]
          exact ⟨rfl, hroot⟩
    · rw [perform_other (fun h => absurd h harray) fun _ => rfl]
      exact ⟨rfl, hroot⟩
  | some s =>
    by_cases hobject : root.label.type = .object
    · rw [perform_object hobject]
      cases hchild : getObjectItem root (some s) with
      | some child => exact ⟨rfl, hroot⟩
      | none =>
        simp only [addNewItemToObject]
        cases hadd : addItemToObject m root (some s) (addition.item toDouble m) with
        | none => exact ⟨rfl, hroot⟩
        | some root' =>
          exact addItemToObject_kept hP hroot hchild (fun i hi => (item_kept hP addition i hi).1) hadd
    · rw [perform_other (by simp) fun h => absurd h hobject]
      exact ⟨rfl, hroot⟩

variable (m name) in
/-- What may be said of the child that is handed out. -/
theorem startChild_kept (hP : Kept P) (hroot : Rose.Everywhere P root) (type : ItemType F) :
    (startChild type m root name).2.1.label = root.label ∧
      Rose.Everywhere P (startChild type m root name).2.1 ∧
      ∀ child ∈ (startChild type m root name).2.2, child.label.name = none ∧ Rose.Everywhere P child := by
  unfold startChild
  split
  · exact ⟨rfl, hroot, by simp⟩
  · next hnew =>
    split
    · exact ⟨rfl, hroot, by simp⟩
    · next child hchild =>
      have hleaf : child.label.name = none ∧ Rose.Everywhere P child := by
        unfold createItem at hchild
        split at hchild
        · cases hchild
          exact ⟨rfl, .leaf (hP.leaf _)⟩
        · cases hchild
      split
      · next root' hadd =>
        obtain ⟨s, rfl⟩ : ∃ s, name = some s := by
          cases name with
          | none => cases hadd
          | some s => exact ⟨s, rfl⟩
        obtain ⟨hlabel, hkept⟩ := addItemToObject_kept hP hroot hnew (by rintro i ⟨⟩; exact hleaf.2) hadd
        exact ⟨hlabel, hkept, by simp⟩
      · refine ⟨rfl, hroot, ?_⟩
        rintro c ⟨⟩
        exact hleaf

variable (m name) in
theorem addObject_kept (hP : Kept P) (hroot : Rose.Everywhere P root) {object : Cjson F}
    (hobject : Rose.Everywhere P object) :
    (addObject m root name object).2.1.label = root.label ∧
      Rose.Everywhere P (addObject m root name object).2.1 ∧
      ∀ alone ∈ (addObject m root name object).2.2, alone = object := by
  unfold addObject
  split
  · exact ⟨rfl, hroot, by simp⟩
  · next hnew =>
    split
    · next root' hadd =>
      obtain ⟨s, rfl⟩ : ∃ s, name = some s := by
        cases name with
        | none => cases hadd
        | some s => exact ⟨s, rfl⟩
      obtain ⟨hlabel, hkept⟩ := addItemToObject_kept hP hroot hnew (by rintro i ⟨⟩; exact hobject) hadd
      exact ⟨hlabel, hkept, by simp⟩
    · exact ⟨rfl, hroot, by simp⟩

end

/-! ## The forest -/

section

variable {P : Label F → List (Label F) → Prop} {toDouble : Nat → F} {f f' : Forest F} {target : Pointer}
  {root root' : Cjson F} {code : Result Unit}

/-- Every tree in hand has a root without a name, and `P` holds at all its nodes. -/
def Forest.Keeps (P : Label F → List (Label F) → Prop) (f : Forest F) : Prop :=
  ∀ t, some t ∈ f → t.label.name = none ∧ Rose.Everywhere P t

theorem get?_eq_some (h : f.get? target = some root) :
    ∃ t, f[target.tree]? = some (some t) ∧ t.get? target.path = some root := by
  obtain ⟨t, ht, hroot⟩ := Option.bind_eq_some_iff.1 h
  exact ⟨t, Option.join_eq_some_iff.1 ht, hroot⟩

theorem put_eq {t : Cjson F} (ht : f[target.tree]? = some (some t)) (s : Cjson F) :
    f.put target s = f.set target.tree (some (t.replace s target.path)) := by
  rw [Forest.put, ht]
  rfl

/-- To put back what is there changes nothing. -/
theorem put_self (h : f.get? target = some root) : f.put target root = f := by
  obtain ⟨t, ht, hroot⟩ := get?_eq_some h
  rw [put_eq ht, Rose.replace_self hroot, Rose.set_of_getElem? ht]

theorem Forest.Keeps.get? (hf : f.Keeps P) (h : f.get? target = some root) : Rose.Everywhere P root := by
  obtain ⟨t, ht, hroot⟩ := get?_eq_some h
  exact (hf t (List.mem_of_getElem? ht)).2.get? hroot

theorem Forest.Keeps.put (hf : f.Keeps P) (h : f.get? target = some root) (hlabel : root'.label = root.label)
    (hroot' : Rose.Everywhere P root') : (f.put target root').Keeps P := by
  obtain ⟨t, ht, hroot⟩ := get?_eq_some h
  obtain ⟨hname, hkept⟩ := hf t (List.mem_of_getElem? ht)
  obtain ⟨hsame, hrest⟩ := hkept.replace hroot hlabel hroot'
  rw [put_eq ht]
  intro u hu
  rcases List.mem_or_eq_of_mem_set hu with hu | hu
  · exact hf u hu
  · cases hu
    exact ⟨by rw [hsame, hname], hrest⟩

theorem Forest.Keeps.append (hf : f.Keeps P) {child : Option (Cjson F)}
    (hchild : ∀ c ∈ child, c.label.name = none ∧ Rose.Everywhere P c) :
    Forest.Keeps P (f ++ child.toList.map some) := by
  intro t ht
  rcases List.mem_append.1 ht with ht | ht
  · exact hf t ht
  · cases child with
    | none => cases ht
    | some c =>
      have hc : t = c := by simpa using ht
      rw [hc]
      exact hchild c rfl

theorem Forest.Keeps.set (hf : f.Keeps P) (object : Nat) {alone : Option (Cjson F)}
    (halone : ∀ t ∈ alone, t.label.name = none ∧ Rose.Everywhere P t) :
    Forest.Keeps P (f.set object alone) := by
  intro t ht
  rcases List.mem_or_eq_of_mem_set ht with ht | rfl
  · exact hf t ht
  · exact halone t rfl

theorem freeStanding_eq_some {object : Nat} {t : Cjson F} (h : f.freeStanding object target = some t) :
    object ≠ target.tree ∧ f[object]? = some (some t) := by
  unfold Forest.freeStanding at h
  split at h
  · cases h
  · next hne => exact ⟨hne, Option.join_eq_some_iff.1 h⟩

/-- A call keeps what its node functions keep; of an item that is added to an array or to an object in place of one,
`hitem` has to be known. -/
theorem performs_keeps (hP : Kept P) {call : Call F} (hperform : Performs toDouble call f code f')
    (hitem : ∀ target object root type, call = .addItemToArray target object → f.get? target = some root →
      P root.label (root.children.map Rose.label ++ [⟨type, none⟩]))
    (hf : f.Keeps P) : f'.Keeps P := by
  unfold Performs at hperform
  cases call with
  | jsonInitialize m type =>
    by_cases hm : m.item = true
    · simp only [Call.perform, createItem_eq_some hm] at hperform
      cases hperform
      have hleaf : ∀ c ∈ some (Rose.node (⟨type.itemType, none⟩ : Label F) []),
          c.label.name = none ∧ Rose.Everywhere P c := by
        rintro c ⟨⟩
        exact ⟨rfl, .leaf (hP.leaf _)⟩
      exact hf.append hleaf
    · simp only [Call.perform, createItem_eq_none (Bool.eq_false_iff.2 hm)] at hperform
      cases hperform
      exact hf
  | startArray m target name =>
    obtain ⟨root, hroot, hresult⟩ := Option.map_eq_some_iff.1 hperform
    obtain ⟨hlabel, hkept, hchild⟩ := startChild_kept m name hP (hf.get? hroot) .array
    cases hresult
    exact (hf.put hroot hlabel hkept).append hchild
  | startObject m target name =>
    obtain ⟨root, hroot, hresult⟩ := Option.map_eq_some_iff.1 hperform
    obtain ⟨hlabel, hkept, hchild⟩ := startChild_kept m name hP (hf.get? hroot) .object
    cases hresult
    exact (hf.put hroot hlabel hkept).append hchild
  | add m target name addition =>
    obtain ⟨root, hroot, hresult⟩ := Option.map_eq_some_iff.1 hperform
    obtain ⟨hlabel, hkept⟩ := addition_kept toDouble m name hP (hf.get? hroot) addition
    cases hresult
    exact hf.put hroot hlabel hkept
  | addObject m target name object =>
    obtain ⟨root, hroot, hresult⟩ := Option.bind_eq_some_iff.1 hperform
    obtain ⟨t, ht, hresult⟩ := Option.bind_eq_some_iff.1 hresult
    obtain ⟨-, hobject⟩ := freeStanding_eq_some ht
    have htree := hf t (List.mem_of_getElem? hobject)
    obtain ⟨hlabel, hkept, halone⟩ := addObject_kept m name hP (hf.get? hroot) htree.2
    cases hresult
    exact (hf.put hroot hlabel hkept).set object fun u hu => by rw [halone u hu]; exact htree
  | addItemToArray target object =>
    obtain ⟨root, hroot, hresult⟩ := Option.bind_eq_some_iff.1 hperform
    obtain ⟨t, ht, hresult⟩ := Option.bind_eq_some_iff.1 hresult
    obtain ⟨-, hobject⟩ := freeStanding_eq_some ht
    obtain ⟨hname, htree⟩ := hf t (List.mem_of_getElem? hobject)
    have hlabel : t.label = ⟨t.label.type, none⟩ := by rw [← hname]
    have happend : Rose.Everywhere P (root.append t) := by
      refine (hf.get? hroot).append htree ?_
      rw [hlabel]
      exact hitem target object root t.label.type rfl hroot
    cases hresult
    exact (hf.put hroot (Rose.label_append root t) happend).set object (by simp)

/-- An addition that answers with an error has left its target as it was. -/
theorem addition_of_error {m : Allocation} {name : Option CString} {addition : Addition F}
    (h : (addition.perform toDouble m root name).1 ≠ .ok ()) :
    (addition.perform toDouble m root name).2 = root := by
  by_cases hunchecked : addition.unchecked root name = true
  · rcases unchecked_iff.1 hunchecked with ⟨hobject, s, rfl, hnew⟩ | ⟨harray, rfl, rfl⟩
    · rw [perform_object hobject, hnew] at h
      exact absurd rfl h
    · refine absurd ?_ h
      simp only [Addition.perform, addNull, harray]
  · exact ((reportsAdded_iff toDouble m addition root name).2 fun hu => absurd hu hunchecked).2 h

theorem startChild_of_error {type : ItemType F} {m : Allocation} {name : Option CString}
    (h : (startChild type m root name).1 ≠ .ok ()) : (startChild type m root name).2 = (root, none) := by
  unfold startChild at h ⊢
  split
  · rfl
  · next hnew =>
    rw [hnew] at h
    split
    · rfl
    · next child hchild =>
      rw [hchild] at h
      dsimp only at h
      split at h <;> exact absurd rfl h

theorem addObject_of_error {m : Allocation} {name : Option CString} {object : Cjson F}
    (h : (addObject m root name object).1 ≠ .ok ()) : (addObject m root name object).2 = (root, some object) := by
  unfold addObject at h ⊢
  split
  · rfl
  · next hnew =>
    rw [hnew] at h
    dsimp only at h
    split at h <;> exact absurd rfl h

/-- A call that answers with an error has changed nothing. -/
theorem performs_of_error {call : Call F} (hperform : Performs toDouble call f code f') (hcode : code ≠ .ok ()) :
    f' = f := by
  unfold Performs at hperform
  cases call with
  | jsonInitialize m type =>
    by_cases hm : m.item = true
    · simp only [Call.perform, createItem_eq_some hm] at hperform
      cases hperform
      exact absurd rfl hcode
    · simp only [Call.perform, createItem_eq_none (Bool.eq_false_iff.2 hm)] at hperform
      cases hperform
      rfl
  | startArray m target name =>
    obtain ⟨root, hroot, hresult⟩ := Option.map_eq_some_iff.1 hperform
    have hkept : (JsonBuilder.startArray m root name).1 ≠ .ok () →
      (JsonBuilder.startArray m root name).2 = (root, none) := startChild_of_error
    dsimp only at hresult
    generalize JsonBuilder.startArray m root name = result at hresult hkept
    obtain ⟨code', root', child⟩ := result
    cases hresult
    obtain ⟨rfl, rfl⟩ := Prod.mk.inj (hkept hcode)
    rw [put_self hroot]
    exact List.append_nil f
  | startObject m target name =>
    obtain ⟨root, hroot, hresult⟩ := Option.map_eq_some_iff.1 hperform
    have hkept : (JsonBuilder.startObject m root name).1 ≠ .ok () →
      (JsonBuilder.startObject m root name).2 = (root, none) := startChild_of_error
    dsimp only at hresult
    generalize JsonBuilder.startObject m root name = result at hresult hkept
    obtain ⟨code', root', child⟩ := result
    cases hresult
    obtain ⟨rfl, rfl⟩ := Prod.mk.inj (hkept hcode)
    rw [put_self hroot]
    exact List.append_nil f
  | add m target name addition =>
    obtain ⟨root, hroot, hresult⟩ := Option.map_eq_some_iff.1 hperform
    have hkept : (addition.perform toDouble m root name).1 ≠ .ok () →
      (addition.perform toDouble m root name).2 = root := addition_of_error
    dsimp only at hresult
    generalize addition.perform toDouble m root name = result at hresult hkept
    cases hresult
    rw [hkept hcode, put_self hroot]
  | addObject m target name object =>
    obtain ⟨root, hroot, hresult⟩ := Option.bind_eq_some_iff.1 hperform
    obtain ⟨t, ht, hresult⟩ := Option.bind_eq_some_iff.1 hresult
    obtain ⟨-, hobject⟩ := freeStanding_eq_some ht
    have hkept : (JsonBuilder.addObject m root name t).1 ≠ .ok () →
      (JsonBuilder.addObject m root name t).2 = (root, some t) := addObject_of_error
    dsimp only at hresult
    generalize JsonBuilder.addObject m root name t = result at hresult hkept
    obtain ⟨code', root', alone⟩ := result
    cases hresult
    obtain ⟨rfl, rfl⟩ := Prod.mk.inj (hkept hcode)
    rw [put_self hroot]
    exact Rose.set_of_getElem? hobject
  | addItemToArray target object =>
    obtain ⟨root, hroot, hresult⟩ := Option.bind_eq_some_iff.1 hperform
    obtain ⟨t, ht, hresult⟩ := Option.bind_eq_some_iff.1 hresult
    cases hresult
    exact absurd rfl hcode

/-! ## Every run -/

theorem run_keeps (hP : Kept P) {calls : List (BuilderCall F)} (run : Serial (Performs toDouble) [] calls f)
    (hitem : ∀ call ∈ calls, ∀ target object root type, call.call = .addItemToArray target object →
      call.before.get? target = some root → Rose.Everywhere P root →
      P root.label (root.children.map Rose.label ++ [⟨type, none⟩])) : f.Keeps P := by
  have hempty : Forest.Keeps P ([] : Forest F) := by
    intro t ht
    cases ht
  refine (run.preserved hempty fun call hcall hbefore => ?_).1
  refine performs_keeps hP (run.exec_of_mem hcall) (fun target object root type hc hroot => ?_) hbefore
  exact hitem call hcall target object root type hc hroot (hbefore.get? hroot)

/-- **The names of an object's members stay different.** Among the members that have a name; all have one as long as
nothing was added to an object as to an array. An error leaves all trees as they are. -/
theorem run_namesUnique {calls : List (BuilderCall F)} (run : Serial (Performs toDouble) [] calls f) :
    (∀ t, some t ∈ f → ∀ path s, t.get? path = some s → s.label.type = .object → DistinctNames (memberNames s)) ∧
      ((∀ call ∈ calls, ¬ call.call.AddsToObject call.before) → ∀ t, some t ∈ f → ∀ path s, t.get? path = some s →
        s.label.type = .object → ∀ c ∈ s.children, c.label.name.isSome) ∧
      ∀ call ∈ calls, call.out = .error .jsonNameDuplication ∨ call.out = .error .invalidParameter →
        call.after = call.before := by
  refine ⟨?_, ?_, ?_⟩
  · intro t ht path s hs hobject
    have hkeeps := run_keeps namesUnique_kept run fun call _ target object root type _ _ hroot =>
      namesUnique_append (Rose.everywhere_iff.1 hroot).1 fun name hname => by cases hname
    have hunique := (hkeeps t ht).2 path s hs hobject
    rw [List.filterMap_map] at hunique
    exact hunique
  · intro hnever t ht path s hs hobject c hc
    have hkeeps := run_keeps allNamed_kept run fun call hcall target object root type hadd hroot _ hobject =>
      absurd (by rw [hadd]; exact ⟨root, hroot, hobject⟩) (hnever call hcall)
    exact (hkeeps t ht).2 path s hs hobject c.label (List.mem_map_of_mem hc)
  · rintro call hcall (hcode | hcode)
    · exact performs_of_error (run.exec_of_mem hcall) (by simp [hcode])
    · exact performs_of_error (run.exec_of_mem hcall) (by simp [hcode])

end

/-- A name twice, once in another case, and then under another parent. -/
def sampleCalls : List (Call Nat) :=
  [.jsonInitialize .available .object, .startObject .available ⟨0, []⟩ (some (.lit "a")),
    .add .available ⟨0, []⟩ (some (.lit "A")) .null, .add .available ⟨0, [0]⟩ (some (.lit "A")) (.uint 7)]

theorem sampleCalls_namesUnique : ∃ (calls : List (BuilderCall Nat)) (f : Forest Nat),
    Serial (Performs id) [] calls f ∧ calls.map Done.call = sampleCalls ∧
      calls.map Done.out = [.ok (), .ok (), .error .jsonNameDuplication, .ok ()] ∧
      ∀ t, some t ∈ f → ∀ path s, t.get? path = some s → s.label.type = .object → DistinctNames (memberNames s) := by
  have run : Serial (Performs id) [] _ _ := .snoc (.snoc (.snoc (.snoc .nil
    (show Performs id (sampleCalls[0]) [] _ _ from rfl)) (show Performs id (sampleCalls[1]) _ _ _ from rfl))
    (show Performs id (sampleCalls[2]) _ _ _ from rfl)) (show Performs id (sampleCalls[3]) _ _ _ from rfl)
  exact ⟨_, _, run, rfl, rfl, (run_namesUnique run).1⟩

/-! ## What is printed -/

/-- Name and value, as they are printed: a null name as an empty string. -/
def member (text : F → Bytes) : Cjson F → CString × Json :=
  Rose.fold fun l members =>
    (l.name.getD (.lit ""),
      match l.type with
      | .bool b => .bool b
      | .null => .null
      | .number d => .number (text d)
      | .string s => .string s
      | .array => .array (members.map Prod.snd)
      | .object => .object members)

def members (text : F → Bytes) (t : Cjson F) : JsonUtil.Members := t.children.map (member text)

/-- Two objects are added to an object as if it were an array: both get the empty name. -/
theorem namelessMembers_sameName : ¬ ∀ (calls : List (BuilderCall Nat)) (f : Forest Nat),
    Serial (Performs id) [] calls f → ∀ t, some t ∈ f → ∀ path s, t.get? path = some s →
      s.label.type = .object → DistinctNames ((members JsonUtil.numberText s).map Prod.fst) := by
  intro h
  have hunique := h _ _ (.snoc (.snoc (.snoc (.snoc (.snoc .nil
    (show Performs id (.jsonInitialize .available .object) [] _ _ from rfl))
    (show Performs id (.jsonInitialize .available .object) _ _ _ from rfl))
    (show Performs id (.jsonInitialize .available .object) _ _ _ from rfl))
    (show Performs id (.addItemToArray ⟨0, []⟩ 1) _ _ _ from rfl))
    (show Performs id (.addItemToArray ⟨0, []⟩ 2) _ _ _ from rfl))
  have htwice : DistinctNames [.lit "", .lit ""] := hunique _ List.mem_cons_self [] _ rfl rfl
  exact absurd (List.rel_of_pairwise_cons htwice List.mem_cons_self) (by decide)

/-! ## With memory, on objects whose children have names

There the builder does to the printed members what `JsonUtil` says. -/

section

variable {text : F → Bytes} {root : Cjson F} (hnamed : ∀ c ∈ root.children, c.label.name.isSome)
include hnamed

theorem lookup_members (s : CString) :
    Json.lookup s (members text root) = (getObjectItem root (some s)).map fun c => (member text c).2 := by
  have hfind : ∀ cs : List (Cjson F), (∀ c ∈ cs, c.label.name.isSome) →
      (cs.map (member text)).find? (fun m => Json.sameName s m.1) =
        (cs.find? fun c => c.label.name.any (Json.sameName s)).map (member text) := by
    intro cs hcs
    induction cs with
    | nil => rfl
    | cons c cs ih =>
      obtain ⟨name, hname⟩ := Option.isSome_iff_exists.1 (hcs c List.mem_cons_self)
      have hfst : (member text c).1 = name := by
        rw [member, Rose.fold_eq, hname]
        rfl
      have hrest := ih fun d hd => hcs d (List.mem_cons_of_mem c hd)
      rw [List.map_cons, List.find?_cons, List.find?_cons, hfst, hname, Option.any_some, hrest]
      cases Json.sameName s name <;> rfl
  rw [Json.lookup, members, hfind root.children hnamed, Option.map_map]
  rfl

variable (text) in
theorem addValue_members (hobject : root.label.type = .object) (s : CString) (item : Cjson F) :
    ((addValue .available root (some s) (some item)).1.map fun _ =>
        members text (addValue .available root (some s) (some item)).2) =
      (JsonUtil.checkName (members text root) s).map fun _ => members text root ++ [(s, (member text item).2)] := by
  have hmember : member text (named s item) = (s, (member text item).2) := by
    rw [member, Rose.fold_eq, Rose.fold_eq]
    rfl
  have happend : members text (root.append (named s item)) = members text root ++ [(s, (member text item).2)] := by
    rw [members, Rose.children_append, List.map_append, List.map_singleton, hmember]
    rfl
  rw [JsonUtil.checkName, lookup_members hnamed]
  simp only [addValue, hobject]
  cases getObjectItem root (some s) with
  | none => exact congrArg Except.ok happend
  | some child => rfl

theorem addString_members (hobject : root.label.type = .object) (s value : CString) :
    ((addString .available root (some s) (some value)).1.map fun _ =>
        members text (addString .available root (some s) (some value)).2) =
      JsonUtil.addString (members text root) s (some value) := by
  have h := addValue_members text hnamed hobject s (.node ⟨.string value, none⟩ [])
  rw [JsonUtil.addString]
  refine h.trans ?_
  cases JsonUtil.checkName (members text root) s <;> rfl

end

end MindConnect.JsonBuilder
