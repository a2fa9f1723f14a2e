import MindConnect.DataLake.DataLakeJson

/-!
# The size of an upload request

`data_lake_json_from_objects` predicts the size of its text modulo `2 ^ w`. An object may stand in the array any number
of times, so that the text can be longer than a size can say: then the block is too small for it, or is not there at
all. With its terminator in range the text is what is written (`dataLakeJsonFromObjects_of_lt`), and only then there is
a body (`dataLakeJsonFromObjects_eq_ok_iff`).
-/

namespace MindConnect

variable {w : Nat} {objects : List DataLakeObject} {clientId subtenantId : Option CString}

/-! ## The writes -/

theorem putDelimiter_eq (at_ : Bytes × Nat) (hinside : at_.2 ≤ at_.1.length) (isFirst : Bool) :
    putDelimiter isFirst at_ = put at_ (if isFirst then [] else ascii ",") := by
  cases isFirst with
  | true => exact (put_nil at_ hinside).symm
  | false => rfl

theorem putPath_eq {clientId : Option CString} {at_ : Bytes × Nat} {isFirst : Bool} {object : DataLakeObject}
    {path : CString} (hpath : object.path = some path) (hinside : at_.2 ≤ at_.1.length) :
    putPath clientId (at_, isFirst) object =
      (put at_ ((if isFirst then [] else ascii ",") ++ generateUrlBodyPrePathObject ++ characters clientId ++ ascii "/"
        ++ path.bytes ++ generateUrlBodyPostPathObject)).map fun position => (position, false) := by
  simp only [putPath, hpath, putDelimiter_eq at_ hinside, put_append, Option.bind_eq_bind, Option.pure_def,
    Option.map_eq_bind, Option.bind_assoc]
  rfl

/-- The loop over the objects is one write. -/
theorem foldlM_putPath (clientId : Option CString) (objects : List DataLakeObject) (at_ : Bytes × Nat)
    (hinside : at_.2 ≤ at_.1.length) (isFirst : Bool) :
    (objects.foldlM (putPath clientId) (at_, isFirst)).map Prod.fst =
      put at_ (pathsText clientId isFirst (paths objects)) := by
  induction objects generalizing at_ isFirst with
  | nil => exact (put_nil at_ hinside).symm
  | cons object objects ih =>
    rw [List.foldlM_cons]
    cases hpath : object.path with
    | none =>
      have hpaths : paths (object :: objects) = paths objects := by simp [paths, hpath]
      rw [hpaths, ← ih at_ hinside isFirst]
      simp [putPath, hpath]
    | some path =>
      have hpaths : paths (object :: objects) = path :: paths objects := by simp [paths, hpath]
      rw [hpaths, pathsText, put_append, putPath_eq hpath hinside]
      generalize hput : put at_ _ = position
      cases position with
      | none => rfl
      | some position => exact ih position (inside_of_put hput) false

theorem putSubtenantId_eq (subtenantId : Option CString) (at_ : Bytes × Nat) (hinside : at_.2 ≤ at_.1.length) :
    putSubtenantId subtenantId at_ = put at_ (subtenantText subtenantId) := by
  rw [putSubtenantId, subtenantText]
  split_ifs
  · simp only [put_append, Option.bind_eq_bind, Option.bind_assoc]
  · exact (put_nil at_ hinside).symm

/-- All writes before the terminator are one of the whole text. -/
theorem dataLakeJsonFromObjects_eq (w : Nat) (allocated : Bool) (objects : List DataLakeObject)
    (clientId subtenantId : Option CString) :
    dataLakeJsonFromObjects w allocated objects clientId subtenantId =
      let bodySize := getBodySize w objects (.ofNat w (strlen clientId)) (.ofNat w (strlen subtenantId))
      if bodySize = 0 then some (.error .invalidParameter)
      else
        match mclMemoryMalloc allocated (bodySize + 1).toNat with
        | none => some (.error .outOfMemory)
        | some json => (put (json, 0) (requestText (paths objects) clientId subtenantId)).bind fun position =>
          (Bytes.write position.1 bodySize.toNat [0]).map fun json => .ok (json, position.2) := by
  simp only [dataLakeJsonFromObjects, requestText, put_append, Option.bind_assoc, Option.bind_eq_bind, Option.pure_def]
  generalize getBodySize w objects _ _ = bodySize
  split_ifs
  · rfl
  cases mclMemoryMalloc allocated (bodySize + 1).toNat with
  | none => rfl
  | some json =>
    simp only
    generalize hlist : put _ generateUrlBodyPrePathList = at₁
    cases at₁ with
    | none => rfl
    | some at₁ =>
      rw [Option.bind_some, Option.bind_some, ← foldlM_putPath clientId objects at₁ (inside_of_put hlist) true]
      generalize objects.foldlM (putPath clientId) (at₁, true) = at₂
      cases at₂ with
      | none => rfl
      | some at₂ =>
        simp only [Option.bind_some, Option.map_some]
        generalize hclose : put _ (ascii "]") = at₃
        cases at₃ with
        | none => rfl
        | some at₃ =>
          simp only [Option.bind_some, putSubtenantId_eq subtenantId at₃ (inside_of_put hclose), Option.map_eq_bind]
          rfl

/-! ## The size modulo `2 ^ w` -/

/-- A loop that passes over an object without a path, and counts any other with its length. -/
theorem foldl_paths {step : BitVec w × BitVec w → DataLakeObject → BitVec w × BitVec w}
    (hnone : ∀ x object, object.path = none → step x object = x)
    (hsome : ∀ x object path, object.path = some path → step x object = (x.1 + .ofNat w path.length, x.2 + 1))
    (objects : List DataLakeObject) (total count : Nat) :
    objects.foldl step (.ofNat w total, .ofNat w count) =
      (.ofNat w (total + ((paths objects).map CString.length).sum), .ofNat w (count + (paths objects).length)) := by
  induction objects generalizing total count with
  | nil => rfl
  | cons object objects ih =>
    rw [List.foldl_cons]
    cases hpath : object.path with
    | none =>
      have hpaths : paths (object :: objects) = paths objects := by simp [paths, hpath]
      rw [hnone _ _ hpath, ih, hpaths]
    | some path =>
      have hnext : ((.ofNat w total : BitVec w) + .ofNat w path.length, (.ofNat w count : BitVec w) + 1) =
          (.ofNat w (total + path.length), .ofNat w (count + 1)) := by
        rw [BitVec.ofNat_add, BitVec.ofNat_add]
        rfl
      have hpaths : paths (object :: objects) = path :: paths objects := by simp [paths, hpath]
      have hcount : count + 1 + (paths objects).length = count + ((paths objects).length + 1) := by omega
      rw [hsome _ _ _ hpath, hnext, ih, hpaths, List.map_cons, List.sum_cons, List.length_cons, Nat.add_assoc, hcount]

/-- The loop depends on the paths alone. -/
theorem calculateTotalPathSize_eq (w : Nat) (objects : List DataLakeObject) :
    calculateTotalPathSize w objects =
      (.ofNat w ((paths objects).map CString.length).sum, .ofNat w (paths objects).length) := by
  rw [← Nat.zero_add ((paths objects).map CString.length).sum, ← Nat.zero_add (paths objects).length]
  refine foldl_paths (fun x object hpath => ?_) (fun x object path hpath => ?_) objects 0 0
  · simp only [hpath]
  · simp only [hpath]

theorem getBodySize_no_path (hpaths : paths objects = []) (clientIdLength subtenantIdLength : BitVec w) :
    getBodySize w objects clientIdLength subtenantIdLength = 0 := by
  simp [getBodySize, calculateTotalPathSize_eq, hpaths]

/-- Objects with the same paths have the same body. -/
theorem dataLakeJsonFromObjects_congr {objects' : List DataLakeObject} (h : paths objects = paths objects') (w : Nat)
    (allocated : Bool) (clientId subtenantId : Option CString) :
    dataLakeJsonFromObjects w allocated objects clientId subtenantId =
      dataLakeJsonFromObjects w allocated objects' clientId subtenantId := by
  simp only [dataLakeJsonFromObjects_eq, getBodySize, calculateTotalPathSize_eq, h]

theorem length_pathsText (clientId : Option CString) (isFirst : Bool) (ps : List CString) :
    (pathsText clientId isFirst ps).length =
      (strlen clientId + 12) * ps.length + (ps.map CString.length).sum +
        (if isFirst then ps.length - 1 else ps.length) := by
  induction ps generalizing isFirst with
  | nil => cases isFirst <;> rfl
  | cons path ps ih =>
    have hpre : generateUrlBodyPrePathObject.length = 9 := rfl
    have hpost : generateUrlBodyPostPathObject.length = 2 := rfl
    have hslash : (ascii "/").length = 1 := rfl
    have hcomma : (ascii ",").length = 1 := rfl
    have hbytes : path.bytes.length = path.length := rfl
    cases isFirst
    all_goals
      simp only [pathsText, Bool.false_eq_true, if_true, if_false, List.length_append, List.length_nil,
        length_characters, ih, List.length_cons, List.map_cons, List.sum_cons, Nat.mul_add, Nat.mul_one, hpre,
        hpost, hslash, hcomma, hbytes]
      omega

theorem length_requestText (ps : List CString) (clientId subtenantId : Option CString) :
    (requestText ps clientId subtenantId).length = 12 + ((strlen clientId + 12) * ps.length +
      (ps.map CString.length).sum + (ps.length - 1)) +
        (if strlen subtenantId ≠ 0 then 17 + strlen subtenantId else 0) := by
  have hlist : generateUrlBodyPrePathList.length = 10 := rfl
  have hkey : subtenantIdKey.length = 16 := rfl
  have hquote : (ascii "\"").length = 1 := rfl
  have hclose : (ascii "]").length = 1 := rfl
  have hbrace : (ascii "\x7d").length = 1 := rfl
  simp only [requestText, subtenantText, List.length_append, length_pathsText, if_true, hlist, hclose, hbrace]
  split_ifs
  · simp only [List.length_append, length_characters, hkey, hquote]
    omega
  · simp only [List.length_nil]
    omega

theorem length_le_requestText (ps : List CString) (clientId subtenantId : Option CString) :
    ps.length + 12 ≤ (requestText ps clientId subtenantId).length ∧
      strlen subtenantId ≤ (requestText ps clientId subtenantId).length := by
  have hmul : ps.length ≤ (strlen clientId + 12) * ps.length := Nat.le_mul_of_pos_left _ (by omega)
  rw [length_requestText]
  constructor
  · omega
  · split_ifs <;> omega

theorem ofNat_eq_zero_iff {n : Nat} (hn : n < 2 ^ w) : (.ofNat w n : BitVec w) = 0 ↔ n = 0 := by
  rw [← BitVec.toNat_inj, BitVec.toNat_ofNat, Nat.mod_eq_of_lt hn]
  simp

/-- The predicted size is the size of the text, if it is a size. -/
theorem getBodySize_eq (hpaths : paths objects ≠ [])
    (hsize : (requestText (paths objects) clientId subtenantId).length < 2 ^ w) :
    getBodySize w objects (.ofNat w (strlen clientId)) (.ofNat w (strlen subtenantId)) =
      .ofNat w (requestText (paths objects) clientId subtenantId).length := by
  obtain ⟨hcount, hsubtenant⟩ := length_le_requestText (paths objects) clientId subtenantId
  have hcount : (paths objects).length < 2 ^ w := by omega
  have hsubtenant : strlen subtenantId < 2 ^ w := Nat.lt_of_le_of_lt hsubtenant hsize
  have hpos : (paths objects).length ≠ 0 := fun h => hpaths (List.length_eq_zero_iff.1 h)
  have hone : (1 : BitVec w) = .ofNat w 1 := rfl
  have htwo : (2 : BitVec w) = .ofNat w 2 := rfl
  have hpred : (.ofNat w (paths objects).length : BitVec w) - .ofNat w 1 = .ofNat w ((paths objects).length - 1) := by
    rw [BitVec.sub_eq_iff_eq_add, ← BitVec.ofNat_add, Nat.sub_add_cancel (Nat.one_le_iff_ne_zero.2 hpos)]
  have hlist : generateUrlBodyPrePathList.length = 10 := rfl
  have hpre : generateUrlBodyPrePathObject.length = 9 := rfl
  have hpost : generateUrlBodyPostPathObject.length = 2 := rfl
  have hkey : subtenantIdKey.length = 16 := rfl
  have hoverhead : (9 + 2 + (strlen clientId + 1)) * (paths objects).length =
      (strlen clientId + 12) * (paths objects).length := by congr 1; omega
  simp only [getBodySize, calculateTotalPathSize_eq, ofNat_eq_zero_iff hcount, ne_eq, ofNat_eq_zero_iff hsubtenant,
    hpos,
    if_false, hone, htwo, hpred, ← BitVec.ofNat_add, ← BitVec.ofNat_mul, hlist, hpre, hpost, hkey, hoverhead,
    length_requestText]
  split_ifs <;> congr 1 <;> omega

/-! ## The body -/

theorem dataLakeJsonFromObjects_no_path (hpaths : paths objects = []) (w : Nat) (allocated : Bool)
    (clientId subtenantId : Option CString) :
    dataLakeJsonFromObjects w allocated objects clientId subtenantId = some (.error .invalidParameter) := by
  simp only [dataLakeJsonFromObjects_eq, getBodySize_no_path hpaths, if_true]

/-- The whole block and the number of characters of a body that a size can say. -/
theorem dataLakeJsonFromObjects_of_lt (hpaths : paths objects ≠ [])
    (hroom : (requestText (paths objects) clientId subtenantId).length + 1 < 2 ^ w) (allocated : Bool) :
    dataLakeJsonFromObjects w allocated objects clientId subtenantId =
      some (if allocated then .ok (requestText (paths objects) clientId subtenantId ++ [0],
        (requestText (paths objects) clientId subtenantId).length) else .error .outOfMemory) := by
  rw [dataLakeJsonFromObjects_eq, getBodySize_eq hpaths (Nat.lt_of_succ_lt hroom)]
  have hpos := (length_le_requestText (paths objects) clientId subtenantId).1
  generalize requestText (paths objects) clientId subtenantId = text at hroom hpos ⊢
  have hne : (.ofNat w text.length : BitVec w) ≠ 0 := by
    rw [ne_eq, ofNat_eq_zero_iff (by omega)]
    omega
  have hblock : ((.ofNat w text.length : BitVec w) + 1).toNat = text.length + 1 := by
    have hone : (1 : BitVec w) = .ofNat w 1 := rfl
    rw [hone, ← BitVec.ofNat_add, BitVec.toNat_ofNat, Nat.mod_eq_of_lt hroom]
  have hsize : (.ofNat w text.length : BitVec w).toNat = text.length := by
    rw [BitVec.toNat_ofNat, Nat.mod_eq_of_lt (by omega)]
  have hend : Bytes.write (text ++ ([0] ++ [])) text.length [0] = some (text ++ ([0] ++ [])) :=
    Bytes.write_append rfl rfl
  rw [List.append_nil] at hend
  simp only [if_neg hne, hblock, hsize]
  cases allocated with
  | false => simp
  | true =>
    simp only [mclMemoryMalloc_granted (Nat.succ_ne_zero _), put_all, Option.bind_some, hend, Option.map_some,
      if_true]

/-- A text that is written lies in a block below `2 ^ w`, and one of `2 ^ w - 1` bytes gets none. -/
theorem room_of_body {allocated : Bool} {body : Bytes × Nat} (hpaths : paths objects ≠ [])
    (h : dataLakeJsonFromObjects w allocated objects clientId subtenantId = some (.ok body)) :
    (requestText (paths objects) clientId subtenantId).length + 1 < 2 ^ w := by
  rw [dataLakeJsonFromObjects_eq] at h
  dsimp only at h
  split_ifs at h with hzero
  · cases h
  · split at h
    · cases h
    · next json hjson =>
      obtain ⟨position, hput, -⟩ := Option.bind_eq_some_iff.1 h
      obtain ⟨hblock, -, -⟩ := mclMemoryMalloc_eq_some.1 hjson
      have hinside := room_of_put hput
      rw [length_of_mclMemoryMalloc hjson, Nat.zero_add] at hinside
      have hbelow := Nat.lt_of_le_of_lt hinside (BitVec.isLt _)
      have hone : (1 : BitVec w) = .ofNat w 1 := rfl
      rw [getBodySize_eq hpaths hbelow, hone, ← BitVec.ofNat_add, BitVec.toNat_ofNat] at hblock
      by_contra hover
      have hlast : (requestText (paths objects) clientId subtenantId).length + 1 = 2 ^ w := by omega
      rw [hlast, Nat.mod_self] at hblock
      exact hblock rfl

/-- There is a body exactly if there is a path, memory, and a size for the text with its terminator. -/
theorem dataLakeJsonFromObjects_eq_ok_iff {allocated : Bool} {body : Bytes × Nat} :
    dataLakeJsonFromObjects w allocated objects clientId subtenantId = some (.ok body) ↔
      paths objects ≠ [] ∧ allocated = true ∧
        (requestText (paths objects) clientId subtenantId).length + 1 < 2 ^ w ∧
        body = (requestText (paths objects) clientId subtenantId ++ [0],
          (requestText (paths objects) clientId subtenantId).length) := by
  constructor
  · intro h
    have hpaths : paths objects ≠ [] := by
      intro hnone
      rw [dataLakeJsonFromObjects_no_path hnone] at h
      cases h
    have hroom := room_of_body hpaths h
    rw [dataLakeJsonFromObjects_of_lt hpaths hroom] at h
    cases allocated with
    | false => cases h
    | true => exact ⟨hpaths, rfl, hroom, (Except.ok.inj (Option.some.inj h)).symm⟩
  · rintro ⟨hpaths, rfl, hroom, rfl⟩
    rw [dataLakeJsonFromObjects_of_lt hpaths hroom, if_pos rfl]

/-- The body of a request for these paths is written inside its block; without a path there is none. -/
def BodyFits (w : Nat) (ps : List CString) (clientId subtenantId : Option CString) : Prop :=
  ps = [] ∨ (requestText ps clientId subtenantId).length + 1 < 2 ^ w

instance (w : Nat) (ps : List CString) (clientId subtenantId : Option CString) :
    Decidable (BodyFits w ps clientId subtenantId) := instDecidableOr

theorem BodyFits.isSome (h : BodyFits w (paths objects) clientId subtenantId) (allocated : Bool) :
    (dataLakeJsonFromObjects w allocated objects clientId subtenantId).isSome := by
  by_cases hpaths : paths objects = []
  · rw [dataLakeJsonFromObjects_no_path hpaths]
    rfl
  · rw [dataLakeJsonFromObjects_of_lt hpaths (h.resolve_left hpaths)]
    rfl

namespace RequestSize

/-! ## An exact size -/

/-- Whatever the allocation comes to: no path is an invalid parameter, and a body ends directly in front of the terminator
that stands at the predicted size, the last byte of the allocation. -/
structure BodyExact (w : Nat) (objects : List DataLakeObject) (clientId subtenantId : Option CString) : Prop where
  no_path : paths objects = [] →
    ∀ allocated, dataLakeJsonFromObjects w allocated objects clientId subtenantId = some (.error .invalidParameter)
  no_memory : paths objects ≠ [] →
    dataLakeJsonFromObjects w false objects clientId subtenantId = some (.error .outOfMemory)
  body : paths objects ≠ [] → ∃ text,
    dataLakeJsonFromObjects w true objects clientId subtenantId = some (.ok (text ++ [0], text.length)) ∧
    text.length = (getBodySize w objects (.ofNat w (strlen clientId)) (.ofNat w (strlen subtenantId))).toNat

theorem bodyExact_iff (w : Nat) (objects : List DataLakeObject) (clientId subtenantId : Option CString) :
    BodyExact w objects clientId subtenantId ↔
      paths objects = [] ∨ (requestText (paths objects) clientId subtenantId).length + 1 < 2 ^ w := by
  by_cases hpaths : paths objects = []
  · refine iff_of_true ⟨fun _ allocated => ?_, fun h => absurd hpaths h, fun h => absurd hpaths h⟩ (.inl hpaths)
    exact dataLakeJsonFromObjects_no_path hpaths w allocated clientId subtenantId
  · rw [or_iff_right hpaths]
    constructor
    · intro hexact
      obtain ⟨text, hok, -⟩ := hexact.body hpaths
      exact (dataLakeJsonFromObjects_eq_ok_iff.1 hok).2.2.1
    · intro hroom
      have hall := dataLakeJsonFromObjects_of_lt hpaths hroom
      refine ⟨fun h => absurd h hpaths, fun _ => hall false, fun _ => ⟨_, hall true, ?_⟩⟩
      rw [getBodySize_eq hpaths (Nat.lt_of_succ_lt hroom), BitVec.toNat_ofNat,
        Nat.mod_eq_of_lt (Nat.lt_of_succ_lt hroom)]

/-- The predicted size is exact if and only if there is no path, or the body with its terminator has fewer bytes than a
size can say. -/
theorem dataLakeJsonFromObjects_exact_iff (w : Nat) (objects : List DataLakeObject)
    (clientId subtenantId : Option CString) :
    BodyExact w objects clientId subtenantId ↔
      paths objects = [] ∨ (requestText (paths objects) clientId subtenantId).length + 1 < 2 ^ w :=
  bodyExact_iff w objects clientId subtenantId

/-- 244 characters. -/
def longClientId : CString := ⟨List.replicate 244 97, fun h => absurd (List.eq_of_mem_replicate h) (by decide)⟩

def manyTimes : List DataLakeObject := List.replicate 16777216 ⟨some (.lit "a"), none⟩

theorem paths_manyTimes : paths manyTimes = List.replicate 16777216 (.lit "a") :=
  List.filterMap_replicate_of_some rfl

/-- One object `2 ^ 24` times in the array, with sizes of 32 bits: the body has more than `2 ^ 32` bytes. -/
theorem manyTimes_not_exact : ¬ BodyExact 32 manyTimes (some longClientId) none := by
  have hclient : strlen (some longClientId) = 244 := List.length_replicate
  have hcount : (List.replicate 16777216 (CString.lit "a")).length = 16777216 := List.length_replicate
  rw [bodyExact_iff, paths_manyTimes, not_or]
  generalize List.replicate 16777216 (CString.lit "a") = ps at hcount
  constructor
  · intro h
    rw [h] at hcount
    cases hcount
  · rw [length_requestText, hclient, hcount]
    omega

end RequestSize

end MindConnect
