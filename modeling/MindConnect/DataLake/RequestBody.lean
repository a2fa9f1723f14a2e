import MindConnect.DataLake.RequestSize
import MindConnect.Lib.JsonLiteral

/-!
# The request body read back

`data_lake_json_from_objects` puts its strings between quotes as they are. What a reader finds is what was meant exactly if
no string has a character that JSON escapes, and a size can say how long the text is.

| here | there |
| --- | --- |
| `objectPath` | client id, slash, path (`data_lake_json.c:109`-`:118`) |
| `requestTree` | what the text stands for where nothing is escaped |
| `RequestMeans` | what the server has to find in the text |
-/

namespace MindConnect

open Json (Plain)

variable {clientId subtenantId : Option CString}

theorem characters_nul_free (s : Option CString) : 0 ∉ characters s := by
  cases s with
  | none => exact List.not_mem_nil
  | some s => exact s.nul_free

def objectPath (clientId : Option CString) (path : CString) : CString where
  bytes := characters clientId ++ ascii "/" ++ path.bytes
  nul_free := by
    simp only [List.mem_append, not_or]
    exact ⟨⟨characters_nul_free clientId, by decide⟩, path.nul_free⟩

def pathsKey : CString := .lit "paths"
def pathKey : CString := .lit "path"
def subtenantIdName : CString := .lit "subtenantId"

/-- The subtenant id that gets a member. -/
def givenSubtenantId (subtenantId : Option CString) : Option CString :=
  subtenantId.filter fun s => s.length ≠ 0

/-- What the text of a request body has to say. -/
structure RequestMeans (text : Bytes) (ps : List CString) (clientId subtenantId : Option CString) : Prop where
  reads : ∃ members elements, Json.read text = some (.object members) ∧
    Json.lookup pathsKey members = some (.array elements) ∧
    List.Forall₂ (fun path element => ∃ ms, element = .object ms ∧
      Json.lookup pathKey ms = some (.string (objectPath clientId path))) ps elements ∧
    Json.lookup subtenantIdName members = (givenSubtenantId subtenantId).map .string

/-- No string of the request has a quote, a backslash or a control character. -/
structure PlainRequest (ps : List CString) (clientId subtenantId : Option CString) : Prop where
  clientId : Plain (characters clientId)
  paths : ∀ path ∈ ps, Plain path.bytes
  subtenantId : Plain (characters subtenantId)

instance (ps : List CString) (clientId subtenantId : Option CString) :
    Decidable (PlainRequest ps clientId subtenantId) :=
  decidable_of_iff
    (Plain (characters clientId) ∧ (∀ path ∈ ps, Plain path.bytes) ∧ Plain (characters subtenantId))
    ⟨fun ⟨hc, hp, hs⟩ => ⟨hc, hp, hs⟩, fun ⟨hc, hp, hs⟩ => ⟨hc, hp, hs⟩⟩

theorem plain_objectPath {path : CString} :
    Plain (objectPath clientId path).bytes ↔ Plain (characters clientId) ∧ Plain path.bytes := by
  have hslash : Plain (ascii "/") := by decide
  simp only [objectPath, Json.plain_append, hslash, and_true]

/-! ## The text where nothing is escaped -/

def pathTree (clientId : Option CString) (path : CString) : Json :=
  .object [(pathKey, .string (objectPath clientId path))]

def requestTree (ps : List CString) (clientId subtenantId : Option CString) : Json :=
  .object ((pathsKey, .array (ps.map (pathTree clientId))) ::
    (givenSubtenantId subtenantId).toList.map fun s => (subtenantIdName, .string s))

/-- One object of the array. -/
def pathText (clientId : Option CString) (path : CString) : Bytes :=
  generateUrlBodyPrePathObject ++ (objectPath clientId path).bytes ++ generateUrlBodyPostPathObject

theorem pathsText_cons (path : CString) (ps : List CString) :
    pathsText clientId true (path :: ps) = pathText clientId path ++ pathsText clientId false ps := by
  simp only [pathsText, pathText, objectPath, if_true, List.nil_append, List.append_assoc]

theorem pathsText_next (path : CString) (ps : List CString) :
    pathsText clientId false (path :: ps) = 44 :: (pathText clientId path ++ pathsText clientId false ps) := by
  simp only [pathsText, pathText, objectPath, Bool.false_eq_true, if_false, List.append_assoc]
  rfl

theorem subtenantText_eq (subtenantId : Option CString) : subtenantText subtenantId =
    match givenSubtenantId subtenantId with
    | none => []
    | some s => subtenantIdKey ++ s.bytes ++ ascii "\"" := by
  cases subtenantId with
  | none => rfl
  | some s =>
    rw [givenSubtenantId, Option.filter_some]
    by_cases hlength : s.length ≠ 0
    · rw [if_pos (by simpa using hlength)]
      exact if_pos hlength
    · rw [if_neg (by simpa using hlength)]
      exact if_neg hlength

theorem print_pathTree {path : CString} (h : Plain (objectPath clientId path).bytes) :
    (pathTree clientId path).print = pathText clientId path := by
  have hkey : Json.printString pathKey = 34 :: pathKey.bytes ++ [34] := Json.Plain.printString (by decide)
  simp only [pathTree, Json.print, Json.printMembers, h.printString, hkey, pathText, List.append_assoc,
    List.cons_append]
  rfl

theorem printElements_paths (hclient : Plain (characters clientId)) (ps : List CString)
    (hps : ∀ path ∈ ps, Plain path.bytes) :
    Json.printElements (ps.map (pathTree clientId)) = pathsText clientId true ps := by
  induction ps with
  | nil => rfl
  | cons path ps ih =>
    obtain ⟨hpath, hrest⟩ := List.forall_mem_cons.1 hps
    have hprint := print_pathTree (plain_objectPath.2 ⟨hclient, hpath⟩)
    rw [pathsText_cons]
    cases ps with
    | nil => simpa only [List.map_cons, List.map_nil, Json.printElements, pathsText, List.append_nil] using hprint
    | cons next ps =>
      have hnext := ih hrest
      rw [pathsText_cons, List.map_cons] at hnext
      rw [List.map_cons, List.map_cons, Json.printElements, hprint, hnext, pathsText_next]

theorem requestText_eq_print {ps : List CString} (h : PlainRequest ps clientId subtenantId) :
    requestText ps clientId subtenantId = (requestTree ps clientId subtenantId).print := by
  have hpaths : Json.printString pathsKey = 34 :: pathsKey.bytes ++ [34] := Json.Plain.printString (by decide)
  have hname : Json.printString subtenantIdName = 34 :: subtenantIdName.bytes ++ [34] :=
    Json.Plain.printString (by decide)
  rw [requestText, requestTree, subtenantText_eq, ← printElements_paths h.clientId ps h.paths]
  cases hs : givenSubtenantId subtenantId with
  | none =>
    simp only [Option.toList_none, List.map_nil, Json.print, Json.printMembers, hpaths, List.append_nil]
    rfl
  | some s =>
    have hplain : Plain s.bytes := by
      have hsub := h.subtenantId
      obtain ⟨hsome, -⟩ := Option.filter_eq_some_iff.1 hs
      rwa [hsome] at hsub
    simp only [Option.toList_some, List.map_cons, List.map_nil, Json.print, Json.printMembers, hpaths, hname,
      hplain.printString, List.append_assoc, List.cons_append]
    rfl

variable (clientId subtenantId) in
theorem readable_requestTree (ps : List CString) : Json.Readable (requestTree ps clientId subtenantId) := by
  have hpaths : ∀ ps : List CString, Json.ReadableElements (ps.map (pathTree clientId)) := by
    intro ps
    induction ps with
    | nil => trivial
    | cons path ps ih => exact ⟨⟨trivial, trivial⟩, ih⟩
  refine ⟨hpaths ps, ?_⟩
  cases givenSubtenantId subtenantId with
  | none => trivial
  | some s => exact ⟨trivial, trivial⟩

theorem requestMeans_of_plain {ps : List CString} (h : PlainRequest ps clientId subtenantId) :
    RequestMeans (requestText ps clientId subtenantId) ps clientId subtenantId := by
  have hread := Json.read_print (readable_requestTree clientId subtenantId ps)
  rw [← requestText_eq_print h, requestTree] at hread
  refine ⟨_, ps.map (pathTree clientId), hread, ?_, ?_, ?_⟩
  · rw [Json.lookup_cons, if_pos (by decide)]
  · rw [List.forall₂_map_right_iff]
    refine List.forall₂_same.2 fun path _ => ⟨_, rfl, ?_⟩
    rw [Json.lookup_cons, if_pos (by decide)]
  · rw [Json.lookup_cons, if_neg (by decide)]
    cases givenSubtenantId subtenantId with
    | none => rfl
    | some s => rw [Option.toList_some, List.map_cons, Json.lookup_cons, if_pos (by decide)]; rfl

/-! ## What reading the text tells of its strings -/

/-- What is expected of an element. -/
def ElementMeans (clientId : Option CString) (path : CString) (element : Json) : Prop :=
  ∃ ms, element = .object ms ∧ Json.lookup pathKey ms = some (.string (objectPath clientId path))

theorem pathText_append (path : CString) (rest : Bytes) : pathText clientId path ++ rest =
    123 :: 34 :: (pathKey.bytes ++ 34 :: 58 :: 34 :: ((objectPath clientId path).bytes ++ 34 :: 125 :: rest)) := by
  simp only [pathText, List.append_assoc]
  rfl

theorem readValue_pathText {fuel : Nat} {path : CString} {rest s' : Bytes} {element : Json}
    (h : Json.readValue fuel (pathText clientId path ++ rest) = some (element, s'))
    (hmeans : ElementMeans clientId path element) : Plain (objectPath clientId path).bytes ∧ s' = rest := by
  obtain ⟨ms, rfl, hlookup⟩ := hmeans
  rw [pathText_append] at h
  obtain ⟨fuel', members, heq, hmembers⟩ := Json.readValue_object h
  obtain rfl := Json.object.inj heq
  obtain ⟨fuel'', value, others, s₁, more, s₂, rfl, hvalue, hseparator, hrest⟩ :=
    Json.readMembers_cons (by decide) hmembers
  rw [Json.lookup_cons, if_pos (by decide)] at hlookup
  obtain rfl := Option.some.inj hlookup
  obtain ⟨text, heq, hstring⟩ := Json.readValue_string hvalue
  obtain rfl := Json.string.inj heq
  obtain ⟨hplain, rfl⟩ := (Json.readString_raw_iff _ _ _).1 hstring
  rw [Json.readSeparator_close rfl (by decide)] at hseparator
  obtain ⟨rfl, rfl⟩ := Prod.mk.inj (Option.some.inj hseparator)
  exact ⟨hplain, hrest.2⟩

theorem readElements_pathsText {rest s' : Bytes} (ps : List CString) :
    ∀ {path : CString} {fuel : Nat} {elements : List Json},
      Json.readElements fuel (pathText clientId path ++ (pathsText clientId false ps ++ 93 :: rest)) =
        some (elements, s') →
      List.Forall₂ (ElementMeans clientId) (path :: ps) elements →
      (∀ p ∈ path :: ps, Plain (objectPath clientId p).bytes) ∧ s' = rest := by
  induction ps with
  | nil =>
    intro path fuel elements h hmeans
    obtain ⟨fuel', element, es, s₁, more, s₂, rfl, hvalue, hseparator, hrest⟩ := Json.readElements_cons h
    obtain ⟨hfirst, -⟩ := List.forall₂_cons.1 hmeans
    obtain ⟨hplain, rfl⟩ := readValue_pathText hvalue hfirst
    rw [pathsText, List.nil_append, Json.readSeparator_close rfl (by decide)] at hseparator
    obtain ⟨rfl, rfl⟩ := Prod.mk.inj (Option.some.inj hseparator)
    exact ⟨by simpa using hplain, hrest.2⟩
  | cons next ps ih =>
    intro path fuel elements h hmeans
    obtain ⟨fuel', element, es, s₁, more, s₂, rfl, hvalue, hseparator, hrest⟩ := Json.readElements_cons h
    obtain ⟨hfirst, hothers⟩ := List.forall₂_cons.1 hmeans
    obtain ⟨hplain, rfl⟩ := readValue_pathText hvalue hfirst
    rw [pathsText_next, List.cons_append, Json.readSeparator_comma, List.append_assoc] at hseparator
    obtain ⟨rfl, rfl⟩ := Prod.mk.inj (Option.some.inj hseparator)
    obtain ⟨hall, hend⟩ := ih hrest hothers
    exact ⟨List.forall_mem_cons.2 ⟨hplain, hall⟩, hend⟩

theorem subtenantText_append {s : CString} (h : givenSubtenantId subtenantId = some s) (rest : Bytes) :
    subtenantText subtenantId ++ rest =
      44 :: 34 :: (subtenantIdName.bytes ++ 34 :: 58 :: 34 :: (s.bytes ++ 34 :: rest)) := by
  rw [subtenantText_eq, h]
  simp only [List.append_assoc]
  rfl

theorem requestText_cons (path : CString) (ps : List CString) : requestText (path :: ps) clientId subtenantId =
    123 :: 34 :: (pathsKey.bytes ++ 34 :: 58 :: 91 :: (pathText clientId path ++
      (pathsText clientId false ps ++ 93 :: (subtenantText subtenantId ++ [125])))) := by
  simp only [requestText, pathsText_cons, List.append_assoc]
  rfl

theorem characters_of_not_given (h : givenSubtenantId subtenantId = none) : characters subtenantId = [] := by
  cases subtenantId with
  | none => rfl
  | some s =>
    rw [givenSubtenantId, Option.filter_some] at h
    split_ifs at h with hlength
    have hempty : s.length = 0 := by simpa using hlength
    exact List.eq_nil_of_length_eq_zero hempty

theorem plain_of_requestMeans {path : CString} {ps : List CString}
    (h : RequestMeans (requestText (path :: ps) clientId subtenantId) (path :: ps) clientId subtenantId) :
    PlainRequest (path :: ps) clientId subtenantId := by
  obtain ⟨members, elements, hread, hpaths, hmeans, hsubtenant⟩ := h.reads
  obtain ⟨rest, hvalue, -⟩ := Json.read_eq_some hread
  rw [requestText_cons] at hvalue
  obtain ⟨fuel, ms, heq, hmembers⟩ := Json.readValue_object hvalue
  obtain rfl := Json.object.inj heq
  obtain ⟨fuel', value, others, s₁, more, s₂, rfl, harray, hseparator, hrest⟩ :=
    Json.readMembers_cons (by decide) hmembers
  rw [Json.lookup_cons, if_pos (by decide)] at hpaths
  obtain rfl := Option.some.inj hpaths
  rw [pathText_append] at harray
  obtain ⟨fuel'', es, heq, helements⟩ := Json.readValue_array harray
  obtain rfl := Json.array.inj heq
  rw [← pathText_append] at helements
  obtain ⟨hplain, rfl⟩ := readElements_pathsText ps helements hmeans
  have hclient := (plain_objectPath.1 (hplain path List.mem_cons_self)).1
  refine ⟨hclient, fun p hp => (plain_objectPath.1 (hplain p hp)).2, ?_⟩
  -- the member behind the array
  cases hgiven : givenSubtenantId subtenantId with
  | none =>
    rw [characters_of_not_given hgiven]
    exact Json.plain_nil
  | some s =>
    rw [subtenantText_append hgiven, Json.readSeparator_comma] at hseparator
    obtain ⟨rfl, rfl⟩ := Prod.mk.inj (Option.some.inj hseparator)
    obtain ⟨fuel₃, value, others', s₃, more, s₄, rfl, hstring, -⟩ := Json.readMembers_cons (by decide) hrest
    rw [Json.lookup_cons, if_neg (by decide), Json.lookup_cons, if_pos (by decide), hgiven] at hsubtenant
    obtain rfl := Option.some.inj hsubtenant
    obtain ⟨text, heq, hstring⟩ := Json.readValue_string hstring
    obtain rfl := Json.string.inj heq
    obtain ⟨hsome, -⟩ := Option.filter_eq_some_iff.1 hgiven
    rw [hsome]
    exact ((Json.readString_raw_iff _ _ _).1 hstring).1

/-! ## The body -/

/-- The produced text, in front of its terminator, means the request. -/
def BodyReadsBack (w : Nat) (objects : List DataLakeObject) (clientId subtenantId : Option CString) : Prop :=
  ∃ text, dataLakeJsonFromObjects w true objects clientId subtenantId = some (.ok (text ++ [0], text.length)) ∧
    RequestMeans text (paths objects) clientId subtenantId

theorem readsBack_iff {w : Nat} {objects : List DataLakeObject} (hpaths : paths objects ≠ []) :
    BodyReadsBack w objects clientId subtenantId ↔
      (requestText (paths objects) clientId subtenantId).length + 1 < 2 ^ w ∧
        PlainRequest (paths objects) clientId subtenantId := by
  obtain ⟨path, ps, hcons⟩ := List.exists_cons_of_ne_nil hpaths
  constructor
  · rintro ⟨text, htext, hmeans⟩
    obtain ⟨-, -, hroom, heq⟩ := dataLakeJsonFromObjects_eq_ok_iff.1 htext
    obtain rfl := List.append_cancel_right (congrArg Prod.fst heq)
    refine ⟨hroom, ?_⟩
    rw [hcons] at hmeans ⊢
    exact plain_of_requestMeans hmeans
  · rintro ⟨hroom, hplain⟩
    exact ⟨_, dataLakeJsonFromObjects_eq_ok_iff.2 ⟨hpaths, rfl, hroom, rfl⟩, requestMeans_of_plain hplain⟩

/-- **When a request body reads back.** -/
theorem bodyReadsBack_iff (w : Nat) (objects : List DataLakeObject) (clientId subtenantId : Option CString)
    (hpaths : paths objects ≠ []) :
    BodyReadsBack w objects clientId subtenantId ↔
      (requestText (paths objects) clientId subtenantId).length + 1 < 2 ^ w ∧
        PlainRequest (paths objects) clientId subtenantId :=
  readsBack_iff hpaths

def reportObject : DataLakeObject := ⟨some (.lit "report.txt"), none⟩

theorem reportObject_readsBack :
    BodyReadsBack 32 [reportObject, ⟨none, none⟩, ⟨some (.lit "log.txt"), none⟩] (some (.lit "client"))
      (some (.lit "tenant")) :=
  (bodyReadsBack_iff 32 [reportObject, ⟨none, none⟩, ⟨some (.lit "log.txt"), none⟩] (some (.lit "client"))
    (some (.lit "tenant")) (by decide)).2 (by decide)

/-- A path with a quote: the text is not even JSON. -/
theorem quotedPath_not_readsBack :
    ¬ BodyReadsBack 64 [⟨some (.lit "a\"b"), none⟩] (some (.lit "client")) none ∧
      Json.read (requestText [.lit "a\"b"] (some (.lit "client")) none) = none := by
  refine ⟨?_, by decide +kernel⟩
  rw [readsBack_iff (by decide)]
  decide

end MindConnect
