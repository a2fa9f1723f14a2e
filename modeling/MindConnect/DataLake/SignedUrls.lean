import MindConnect.DataLake.DataLakeJson

/-!
# Which object gets which signed URL

A response pairs paths with URLs. `serve` is what one entry does: the first object of the array that has
the entry's path behind the client id, and no URL yet, gets the entry's URL. The loop of
`data_lake_json_match_signed_urls_with_objects` serves a part of the entries, in order (`ServedFrom`),
and with memory available all of them (`matchLoop_available`).

`SafelyServed` is what holds for any part; `serveAll_signedUrl` says who got what in the end, which does
not depend on the order when the paths differ.
-/

namespace MindConnect

open JsonUtil

/-- A path and its URL. -/
abbrev UrlEntry := CString × CString

def IsEntry (item : Json) (entry : UrlEntry) : Prop :=
  getObjectItem item objectPathKey = .ok (.string entry.1) ∧
    getObjectItem item signedUrlKey = .ok (.string entry.2)

/-- A text whose `objectUrls` is an array of these entries. -/
structure IsResponse (parse : Bytes → Option Json) (json : Bytes) (items : List Json)
    (entries : List UrlEntry) : Prop where
  ne_nil : json ≠ []
  parsed : ∃ root, parse json = some root ∧ getObjectItem root objectUrlsKey = .ok (.array items)
  entries_of_items : List.Forall₂ IsEntry items entries

/-- The path without the client id and the slash; nothing for a path that is not longer. -/
def stripped (overhead : Nat) (path : CString) : Option CString :=
  if path.length > overhead then some (path.drop overhead) else none

/-- The object an entry for this path goes to. -/
def recipient (array : List Nat) (objects : Objects) (path : CString) : Option Nat :=
  array.find? fun a => (objects a).signedUrl.isNone && (objects a).path == some path

def serve (overhead : Nat) (array : List Nat) (objects : Objects) (entry : UrlEntry) : Objects :=
  match (stripped overhead entry.1).bind (recipient array objects) with
  | some a => setSignedUrl objects a (some entry.2)
  | none => objects

def serveAll (overhead : Nat) (array : List Nat) (entries : List UrlEntry) (objects : Objects) : Objects :=
  entries.foldl (serve overhead array) objects

/-! ## The loop serves -/

/-- Comparing one byte more than the entry's path has compares the terminators. -/
theorem strncmp_eq_ok {path : CString} {other : Option CString} :
    mclStringUtilStrncmp path other (path.length + 1) = .ok () ↔ other = some path := by
  cases other with
  | none => simp [mclStringUtilStrncmp]
  | some other =>
    have htake : path.bytes.take (path.length + 1) = path.bytes :=
      List.take_of_length_le (Nat.le_succ _)
    rw [mclStringUtilStrncmp, stringUtilStrncmp, htake]
    constructor
    · intro h
      split at h
      · next heq =>
        have hlen := congrArg List.length heq
        rw [List.length_take] at hlen
        have hle : other.bytes.length ≤ path.length + 1 := by
          have : path.bytes.length = path.length := rfl
          omega
        rw [List.take_of_length_le hle] at heq
        rw [CString.ext heq]
      · cases h
    · rintro ⟨⟩
      rw [htake, if_pos rfl]

theorem findMatchingObject_eq {item : Json} {entry : UrlEntry} (hitem : IsEntry item entry) (copied : Bool)
    (path : CString) (array : List Nat) (objects : Objects) :
    findMatchingObject copied item path (path.length + 1) array objects =
      match copied, recipient array objects path with
      | true, some a => setSignedUrl objects a (some entry.2)
      | _, _ => objects := by
  induction array with
  | nil => cases copied <;> rfl
  | cons a array ih =>
    cases hurl : (objects a).signedUrl with
    | some url =>
      have hskip : recipient (a :: array) objects path = recipient array objects path := by
        simp [recipient, hurl]
      simp only [findMatchingObject, hurl, ih, hskip]
    | none =>
      by_cases hpath : (objects a).path = some path
      · have hfind : recipient (a :: array) objects path = some a := by
          simp [recipient, hurl, hpath]
        simp only [findMatchingObject, hurl, strncmp_eq_ok.2 hpath, hfind, hitem.2, bind, Except.bind, getString]
        cases copied <;> rfl
      · have hskip : recipient (a :: array) objects path = recipient array objects path := by
          simp [recipient, hpath]
        cases hcmp : mclStringUtilStrncmp path (objects a).path (path.length + 1) with
        | ok u => exact absurd (strncmp_eq_ok.1 hcmp) hpath
        | error e => simp only [findMatchingObject, hurl, hcmp, ih, hskip]

/-- Some of the entries are served, in order. -/
inductive ServedFrom (overhead : Nat) (array : List Nat) : List UrlEntry → Objects → Objects → Prop where
  | stop {entries objects} : ServedFrom overhead array entries objects objects
  | skip {entry entries objects objects'} : ServedFrom overhead array entries objects objects' →
      ServedFrom overhead array (entry :: entries) objects objects'
  | serve {entry entries objects objects'} :
      ServedFrom overhead array entries (serve overhead array objects entry) objects' →
      ServedFrom overhead array (entry :: entries) objects objects'

theorem servedFrom_serveAll (overhead : Nat) (array : List Nat) (entries : List UrlEntry)
    (objects : Objects) : ServedFrom overhead array entries objects (serveAll overhead array entries objects) := by
  induction entries generalizing objects with
  | nil => exact .stop
  | cons entry entries ih => exact .serve (ih _)

section

variable {items : List Json} {entries : List UrlEntry} {overhead : Nat} {array : List Nat}

/-- One turn, when the path could be copied. -/
theorem serveItem_eq {item : Json} {entry : UrlEntry} (hitem : IsEntry item entry) (copied : Bool)
    (objects : Objects) :
    serveItem copied overhead array objects item (some entry.1) =
      if copied then serve overhead array objects entry else objects := by
  by_cases hlen : entry.1.length > overhead
  · have hdrop : (entry.1.drop overhead).length = entry.1.length - overhead := by
      simp [CString.length, CString.drop]
    rw [serveItem, if_pos hlen, ← hdrop, findMatchingObject_eq hitem]
    simp only [serve, stripped, if_pos hlen, Option.bind_some]
    cases copied with
    | false => rfl
    | true => cases recipient array objects (entry.1.drop overhead) <;> rfl
  · cases copied <;> simp [serveItem, serve, stripped, hlen]

theorem readEntry_eq {memory : MatchMemory} {index : Nat} {item : Json} {entry : UrlEntry}
    (hget : getArrayItem (.array items) index = .ok item) (hitem : IsEntry item entry) :
    readEntry memory (.array items) index =
      if memory.pathCopied index then .ok (item, some entry.1) else .error .outOfMemory := by
  simp only [readEntry, hget, hitem.1, bind, Except.bind, pure, Except.pure, getString]
  by_cases hcopied : memory.pathCopied index
  · simp only [hcopied, if_true]
  · simp only [hcopied, Bool.false_eq_true, if_false]

theorem matchLoop_servedFrom (memory : MatchMemory) (n : Nat) : ∀ {index : Nat} {items : List Json}
    {entries : List UrlEntry} {all : List Json} {objects : Objects}, all.drop index = items → index ≤ 2 ^ 31 →
    List.Forall₂ IsEntry items entries →
    ServedFrom overhead array entries objects (matchLoop memory (.array all) overhead array n index objects).2 := by
  induction n with
  | zero =>
    intro index items entries all objects _ _ _
    exact .stop
  | succ n ih =>
    intro index items entries all objects hdrop hindex hentries
    rw [matchLoop]
    cases hget : getArrayItem (.array all) index with
    | error e =>
      simp only [readEntry, hget, bind, Except.bind]
      exact .stop
    | ok item =>
      obtain ⟨hlt, hitem⟩ := (getArrayItem_eq_ok hindex).1 hget
      obtain ⟨hlen, rfl⟩ := List.getElem?_eq_some_iff.1 hitem
      rw [List.drop_eq_getElem_cons hlen] at hdrop
      subst hdrop
      obtain ⟨entry, entries, hentry, hrest, rfl⟩ := List.forall₂_cons_left_iff.1 hentries
      rw [readEntry_eq hget hentry]
      by_cases hcopied : memory.pathCopied index
      · simp only [hcopied, if_true, serveItem_eq hentry]
        by_cases hurl : memory.urlCopied index
        · rw [if_pos hurl]
          exact .serve (ih rfl hlt hrest)
        · rw [if_neg hurl]
          exact .skip (ih rfl hlt hrest)
      · simp only [hcopied, Bool.false_eq_true, if_false]
        exact .stop

theorem matchLoop_available (n : Nat) : ∀ {index : Nat} {items : List Json} {entries : List UrlEntry}
    {all : List Json} {objects : Objects}, all.drop index = items → index + n = all.length →
    all.length ≤ 2 ^ 31 → List.Forall₂ IsEntry items entries →
    matchLoop .available (.array all) overhead array n index objects =
      (.ok (), serveAll overhead array entries objects) := by
  induction n with
  | zero =>
    intro index items entries all objects hdrop hn _ hentries
    rw [List.drop_eq_nil_of_le (by omega)] at hdrop
    subst hdrop
    cases hentries
    rfl
  | succ n ih =>
    intro index items entries all objects hdrop hn hsize hentries
    have hlen : index < all.length := by omega
    have hget : getArrayItem (.array all) index = .ok all[index] :=
      (getArrayItem_eq_ok (by omega)).2 ⟨by omega, List.getElem?_eq_getElem hlen⟩
    rw [List.drop_eq_getElem_cons hlen] at hdrop
    subst hdrop
    obtain ⟨entry, entries, hentry, hrest, rfl⟩ := List.forall₂_cons_left_iff.1 hentries
    rw [matchLoop, readEntry_eq hget hentry]
    simp only [MatchMemory.available, if_true, serveItem_eq hentry]
    exact ih rfl (by omega) hsize hrest

/-- Beyond cJSON's `int` an array is never read to its end. -/
theorem matchLoop_ok_bound (memory : MatchMemory) (n : Nat) : ∀ {index : Nat} {all : List Json}
    {objects : Objects}, index ≤ 2 ^ 31 →
    (matchLoop memory (.array all) overhead array n index objects).1 = .ok () → n = 0 ∨ index + n ≤ 2 ^ 31 := by
  induction n with
  | zero =>
    intro index all objects _ _
    exact .inl rfl
  | succ n ih =>
    intro index all objects hindex hok
    rw [matchLoop] at hok
    cases hget : getArrayItem (.array all) index with
    | error e => simp [readEntry, hget, bind, Except.bind] at hok
    | ok item =>
      obtain ⟨hlt, -⟩ := (getArrayItem_eq_ok hindex).1 hget
      refine .inr ?_
      split at hok
      · cases hok
      · rcases ih hlt hok with rfl | hle <;> omega

end

/-! ## What serving does -/

section

variable {overhead : Nat} {array : List Nat} {entries : List UrlEntry} {objects objects' : Objects} {a : Nat}

theorem recipient_eq_some {path : CString} (h : recipient array objects path = some a) :
    a ∈ array ∧ (objects a).signedUrl = none ∧ (objects a).path = some path := by
  have hfound := List.find?_some h
  simp only [Bool.and_eq_true, Option.isNone_iff_eq_none, beq_iff_eq] at hfound
  exact ⟨List.mem_of_find?_eq_some h, hfound⟩

theorem recipient_eq_none {path : CString} (h : recipient array objects path = none) (ha : a ∈ array)
    (hpath : (objects a).path = some path) : (objects a).signedUrl ≠ none := by
  intro hurl
  have := List.find?_eq_none.1 h a ha
  simp [hurl, hpath] at this

/-- An entry serves one object or none. -/
theorem serve_cases (overhead : Nat) (array : List Nat) (objects : Objects) (entry : UrlEntry) :
    serve overhead array objects entry = objects ∨
      ∃ a ∈ array, serve overhead array objects entry = setSignedUrl objects a (some entry.2) ∧
        (objects a).signedUrl = none ∧ (objects a).path.isSome ∧
        (objects a).path = stripped overhead entry.1 := by
  cases hbind : (stripped overhead entry.1).bind (recipient array objects) with
  | none =>
    refine .inl ?_
    rw [serve, hbind]
  | some a =>
    obtain ⟨path, hpath, hfound⟩ := Option.bind_eq_some_iff.1 hbind
    obtain ⟨hmem, hurl, ha⟩ := recipient_eq_some hfound
    refine .inr ⟨a, hmem, by rw [serve, hbind], hurl, by rw [ha]; rfl, by rw [ha, hpath]⟩

@[simp] theorem path_setSignedUrl (objects : Objects) (a b : Nat) (url : Option CString) :
    (setSignedUrl objects a url b).path = (objects b).path := by
  by_cases h : b = a
  · subst h; simp [setSignedUrl]
  · simp [setSignedUrl, h]

@[simp] theorem signedUrl_setSignedUrl_self (objects : Objects) (a : Nat) (url : Option CString) :
    (setSignedUrl objects a url a).signedUrl = url := by simp [setSignedUrl]

theorem setSignedUrl_of_ne {b : Nat} (h : b ≠ a) (objects : Objects) (url : Option CString) :
    setSignedUrl objects a url b = objects b := by simp [setSignedUrl, h]

@[simp] theorem path_serve (entry : UrlEntry) : (serve overhead array objects entry a).path = (objects a).path := by
  rcases serve_cases overhead array objects entry with h | ⟨b, -, h, -⟩
  · rw [h]
  · rw [h, path_setSignedUrl]

/-- What holds of the objects after any part of the entries was served: `servedBy i` is the object the
`i`-th entry went to. -/
structure SafelyServed (overhead : Nat) (array : List Nat) (entries : List UrlEntry)
    (objects objects' : Objects) (servedBy : Nat → Option Nat) : Prop where
  path_kept : ∀ a, (objects' a).path = (objects a).path
  not_overwritten : ∀ a url, (objects a).signedUrl = some url → objects' a = objects a
  others_kept : ∀ a, a ∉ array → objects' a = objects a
  from_entry : ∀ a url, (objects a).signedUrl = none → (objects' a).signedUrl = some url →
    ∃ i entry, servedBy i = some a ∧ entries[i]? = some entry ∧ entry.2 = url ∧
      (objects a).path.isSome ∧ (objects a).path = stripped overhead entry.1
  one_entry : ∀ i j a, servedBy i = some a → servedBy j = some a → i = j
  was_null : ∀ i a, servedBy i = some a → (objects a).signedUrl = none ∧ (objects' a).signedUrl.isSome

theorem SafelyServed.refl : SafelyServed overhead array entries objects objects fun _ => none := by
  refine ⟨fun _ => rfl, fun _ _ _ => rfl, fun _ _ => rfl, ?_, ?_, ?_⟩
  · intro a url hnone hsome
    rw [hnone] at hsome
    cases hsome
  · intro i j a hi
    cases hi
  · intro i a hi
    cases hi

/-- A first entry that serves nobody. -/
theorem SafelyServed.skip {entry : UrlEntry} {servedBy : Nat → Option Nat}
    (h : SafelyServed overhead array entries objects objects' servedBy) :
    SafelyServed overhead array (entry :: entries) objects objects' fun i => i.casesOn none servedBy := by
  refine ⟨h.path_kept, h.not_overwritten, h.others_kept, ?_, ?_, ?_⟩
  · intro a url hnone hsome
    obtain ⟨i, e, hi, he⟩ := h.from_entry a url hnone hsome
    exact ⟨i + 1, e, hi, he⟩
  · intro i j a hi hj
    cases i with
    | zero => cases hi
    | succ i =>
      cases j with
      | zero => cases hj
      | succ j => rw [h.one_entry i j a hi hj]
  · intro i a hi
    cases i with
    | zero => cases hi
    | succ i => exact h.was_null i a hi

/-- A first entry that serves `b`, which keeps what it got. -/
theorem SafelyServed.serve {entry : UrlEntry} {servedBy : Nat → Option Nat} {b : Nat} (hb : b ∈ array)
    (hnone : (objects b).signedUrl = none) (hsome : (objects b).path.isSome)
    (hpath : (objects b).path = stripped overhead entry.1)
    (h : SafelyServed overhead array entries (setSignedUrl objects b (some entry.2)) objects' servedBy) :
    SafelyServed overhead array (entry :: entries) objects objects' fun i => i.casesOn (some b) servedBy := by
  have hb' : objects' b = setSignedUrl objects b (some entry.2) b :=
    h.not_overwritten b entry.2 (signedUrl_setSignedUrl_self _ _ _)
  have hne : ∀ {i}, servedBy i ≠ some b := by
    intro i hi
    have := (h.was_null i b hi).1
    rw [signedUrl_setSignedUrl_self] at this
    cases this
  refine ⟨?_, ?_, ?_, ?_, ?_, ?_⟩
  · intro a
    rw [h.path_kept, path_setSignedUrl]
  · intro a url ha
    have hab : a ≠ b := by
      rintro rfl
      rw [hnone] at ha
      cases ha
    rw [← setSignedUrl_of_ne hab objects (some entry.2)] at ha ⊢
    exact h.not_overwritten a url ha
  · intro a ha
    have hab : a ≠ b := by
      rintro rfl
      exact ha hb
    rw [h.others_kept a ha, setSignedUrl_of_ne hab]
  · intro a url ha hurl
    by_cases hab : a = b
    · subst hab
      rw [hb', signedUrl_setSignedUrl_self] at hurl
      cases hurl
      exact ⟨0, entry, rfl, rfl, rfl, hsome, hpath⟩
    · rw [← setSignedUrl_of_ne hab objects (some entry.2)] at ha
      obtain ⟨i, e, hi, he, heq, hs, hp⟩ := h.from_entry a url ha hurl
      rw [path_setSignedUrl] at hs hp
      exact ⟨i + 1, e, hi, he, heq, hs, hp⟩
  · intro i j a hi hj
    cases i with
    | zero =>
      cases hi
      cases j with
      | zero => rfl
      | succ j => exact absurd hj hne
    | succ i =>
      cases j with
      | zero =>
        cases hj
        exact absurd hi hne
      | succ j => rw [h.one_entry i j a hi hj]
  · intro i a hi
    cases i with
    | zero =>
      cases hi
      rw [hb', signedUrl_setSignedUrl_self]
      exact ⟨hnone, rfl⟩
    | succ i =>
      obtain ⟨ha, hurl⟩ := h.was_null i a hi
      have hab : a ≠ b := by
        rintro rfl
        exact hne hi
      rw [setSignedUrl_of_ne hab] at ha
      exact ⟨ha, hurl⟩

theorem ServedFrom.safe (h : ServedFrom overhead array entries objects objects') :
    ∃ servedBy, SafelyServed overhead array entries objects objects' servedBy := by
  induction h with
  | stop => exact ⟨_, .refl⟩
  | skip _ ih =>
    obtain ⟨servedBy, hsafe⟩ := ih
    exact ⟨_, hsafe.skip⟩
  | @serve entry entries objects objects' _ ih =>
    obtain ⟨servedBy, hsafe⟩ := ih
    rcases serve_cases overhead array objects entry with heq | ⟨b, hb, heq, hnone, hsome, hpath⟩
    · rw [heq] at hsafe
      exact ⟨_, hsafe.skip⟩
    · rw [heq] at hsafe
      exact ⟨_, hsafe.serve hb hnone hsome hpath⟩

/-! ## Who gets what -/

/-- No two objects of the array have the same path. -/
def DistinctPaths (array : List Nat) (objects : Objects) : Prop :=
  ∀ a ∈ array, ∀ b ∈ array, (objects a).path.isSome → (objects a).path = (objects b).path → a = b

/-- The URL of the first entry for a path. -/
def firstUrl (overhead : Nat) (entries : List UrlEntry) (path : CString) : Option CString :=
  (entries.find? fun entry => stripped overhead entry.1 == some path).map Prod.snd

theorem serveAll_signedUrl (overhead : Nat) (entries : List UrlEntry) (distinct : DistinctPaths array objects)
    (ha : a ∈ array) :
    (serveAll overhead array entries objects a).signedUrl =
      (objects a).signedUrl.or ((objects a).path.bind (firstUrl overhead entries)) := by
  induction entries generalizing objects with
  | nil => cases (objects a).path <;> simp [serveAll, firstUrl]
  | cons entry entries ih =>
    have hnext : DistinctPaths array (serve overhead array objects entry) := by
      intro b hb c hc hsome heq
      rw [path_serve] at hsome heq
      rw [path_serve] at heq
      exact distinct b hb c hc hsome heq
    show (serveAll overhead array entries (serve overhead array objects entry) a).signedUrl = _
    rw [ih hnext, path_serve]
    cases hpath : (objects a).path with
    | none =>
      rcases serve_cases overhead array objects entry with heq | ⟨b, -, heq, -, hsome, -⟩
      · rw [heq]
        simp
      · have hab : a ≠ b := by
          rintro rfl
          rw [hpath] at hsome
          cases hsome
        rw [heq, setSignedUrl_of_ne hab]
        simp
    | some path =>
      by_cases hentry : stripped overhead entry.1 = some path
      · -- The entry is for this object, and no other object has its path.
        have hfirst : firstUrl overhead (entry :: entries) path = some entry.2 := by
          simp [firstUrl, hentry]
        rw [Option.bind_some, Option.bind_some, hfirst]
        cases hfound : recipient array objects path with
        | none =>
          have hserve : serve overhead array objects entry = objects := by
            simp only [serve, hentry, Option.bind_some, hfound]
          obtain ⟨url, hurl⟩ := Option.ne_none_iff_exists'.1 (recipient_eq_none hfound ha hpath)
          rw [hserve, hurl]
          rfl
        | some b =>
          obtain ⟨hb, hnone, hbpath⟩ := recipient_eq_some hfound
          have hab : a = b := distinct a ha b hb (by rw [hpath]; rfl) (by rw [hpath, hbpath])
          subst hab
          have hserve : serve overhead array objects entry = setSignedUrl objects a (some entry.2) := by
            simp only [serve, hentry, Option.bind_some, hfound]
          rw [hserve, signedUrl_setSignedUrl_self, hnone]
          rfl
      · have hfirst : firstUrl overhead (entry :: entries) path = firstUrl overhead entries path := by
          simp [firstUrl, hentry]
        rw [Option.bind_some, Option.bind_some, hfirst]
        rcases serve_cases overhead array objects entry with heq | ⟨b, -, heq, -, -, hb⟩
        · rw [heq]
        · have hab : a ≠ b := by
            rintro rfl
            exact hentry (hb.symm.trans hpath)
          rw [heq, setSignedUrl_of_ne hab]

/-- With the client id and the slash dropped, no two paths are the same. -/
def DistinctEntries (overhead : Nat) (entries : List UrlEntry) : Prop :=
  (entries.filterMap fun entry => stripped overhead entry.1).Nodup

theorem firstUrl_eq_some (distinct : DistinctEntries overhead entries) {path url : CString} :
    firstUrl overhead entries path = some url ↔
      ∃ entry ∈ entries, stripped overhead entry.1 = some path ∧ entry.2 = url := by
  induction entries with
  | nil => simp [firstUrl]
  | cons entry entries ih =>
    by_cases hentry : stripped overhead entry.1 = some path
    · have hfirst : firstUrl overhead (entry :: entries) path = some entry.2 := by simp [firstUrl, hentry]
      rw [DistinctEntries, List.filterMap_cons, hentry, List.nodup_cons] at distinct
      rw [hfirst]
      constructor
      · rintro ⟨⟩
        exact ⟨entry, List.mem_cons_self, hentry, rfl⟩
      · rintro ⟨other, hother, hpath, rfl⟩
        rcases List.mem_cons.1 hother with rfl | hother
        · rfl
        · exact absurd (List.mem_filterMap.2 ⟨other, hother, hpath⟩) distinct.1
    · have hfirst : firstUrl overhead (entry :: entries) path = firstUrl overhead entries path := by
        simp [firstUrl, hentry]
      have hrest : DistinctEntries overhead entries := by
        rw [DistinctEntries, List.filterMap_cons] at distinct
        split at distinct
        · exact distinct
        · exact (List.nodup_cons.1 distinct).2
      rw [hfirst, ih hrest]
      simp [hentry]

theorem firstUrl_perm {entries' : List UrlEntry} (hperm : entries.Perm entries')
    (distinct : DistinctEntries overhead entries) (path : CString) :
    firstUrl overhead entries path = firstUrl overhead entries' path := by
  have distinct' : DistinctEntries overhead entries' := (hperm.filterMap _).nodup_iff.1 distinct
  ext url
  rw [firstUrl_eq_some distinct, firstUrl_eq_some distinct']
  simp only [hperm.mem_iff]

theorem serveAll_perm {entries' : List UrlEntry} (hperm : entries.Perm entries')
    (distinct : DistinctEntries overhead entries) (paths : DistinctPaths array objects) :
    serveAll overhead array entries objects = serveAll overhead array entries' objects := by
  obtain ⟨_, hsafe⟩ := (servedFrom_serveAll overhead array entries objects).safe
  obtain ⟨_, hsafe'⟩ := (servedFrom_serveAll overhead array entries' objects).safe
  funext a
  by_cases ha : a ∈ array
  · have hurl := serveAll_signedUrl overhead entries paths ha
    have hurl' := serveAll_signedUrl overhead entries' paths ha
    have hfirst : firstUrl overhead entries = firstUrl overhead entries' :=
      funext (firstUrl_perm hperm distinct)
    have hpath := (hsafe.path_kept a).trans (hsafe'.path_kept a).symm
    rw [hfirst, ← hurl'] at hurl
    cases h : serveAll overhead array entries objects a
    cases h' : serveAll overhead array entries' objects a
    rw [h, h'] at hpath hurl
    simp only at hpath hurl
    rw [hpath, hurl]
  · rw [hsafe.others_kept a ha, hsafe'.others_kept a ha]

end

/-! ## The whole function -/

theorem checkSignedUrls_eq_ok {array : List Nat} {objects : Objects} :
    checkSignedUrls array objects = .ok () ↔
      ∀ a ∈ array, (objects a).path.isSome → (objects a).signedUrl.isSome := by
  unfold checkSignedUrls
  split
  · next h =>
    obtain ⟨a, ha, hmissing⟩ := List.any_eq_true.1 h
    simp only [Bool.and_eq_true, Option.isNone_iff_eq_none] at hmissing
    constructor
    · intro h
      cases h
    · intro hall
      have := hall a ha hmissing.1
      rw [hmissing.2] at this
      cases this
  · next h =>
    simp only [true_iff]
    intro a ha hpath
    by_contra hnone
    refine h (List.any_eq_true.2 ⟨a, ha, ?_⟩)
    simp only [Bool.and_eq_true, hpath, true_and]
    simpa using hnone

section

variable {w : Nat} {parse : Bytes → Option Json} {json : Bytes} {items : List Json} {entries : List UrlEntry}

/-- Past the checks of the text, the function is the loop and the final check. -/
theorem matchSignedUrls_eq (response : IsResponse parse json items entries) (memory : MatchMemory)
    (array : List Nat) (clientIdLength : Nat) (objects : Objects) :
    matchSignedUrls w parse memory array json clientIdLength objects =
      match matchLoop memory (.array items) (clientIdLength + 1) array
        (BitVec.ofInt w (toInt items.length)).toNat 0 objects with
      | (.error e, objects) => (.error e, objects)
      | (.ok (), objects) => (checkSignedUrls array objects, objects) := by
  obtain ⟨hne, ⟨root, hparse, hitem⟩, -⟩ := response
  have hlen : json.length ≠ 0 := fun h => hne (List.length_eq_zero_iff.1 h)
  have hread : readObjectUrls w parse json = .ok (.array items, BitVec.ofInt w (toInt items.length)) := by
    simp only [readObjectUrls, hlen, if_false, hparse, hitem]
    simp [getArraySize, bind, Except.bind, pure, Except.pure]
  cases hloop : matchLoop memory (.array items) (clientIdLength + 1) array
    (BitVec.ofInt w (toInt items.length)).toNat 0 objects with
  | mk code objects' => cases code <;> simp only [matchSignedUrls, hread, hloop]

theorem matchSignedUrls_servedFrom (response : IsResponse parse json items entries) (memory : MatchMemory)
    (array : List Nat) (clientIdLength : Nat) (objects : Objects) :
    ServedFrom (clientIdLength + 1) array entries objects
      (matchSignedUrls w parse memory array json clientIdLength objects).2 := by
  have hserved : ServedFrom (clientIdLength + 1) array entries objects
      (matchLoop memory (.array items) (clientIdLength + 1) array
        (BitVec.ofInt w (toInt items.length)).toNat 0 objects).2 :=
    matchLoop_servedFrom memory _ (List.drop_zero (l := items)) (Nat.zero_le _) response.entries_of_items
  rw [matchSignedUrls_eq response]
  split
  · next heq => rwa [heq] at hserved
  · next heq => rwa [heq] at hserved

theorem matchSignedUrls_check {memory : MatchMemory} {array : List Nat} {clientIdLength : Nat} {objects : Objects}
    (hok : (matchSignedUrls w parse memory array json clientIdLength objects).1 = .ok ()) :
    checkSignedUrls array (matchSignedUrls w parse memory array json clientIdLength objects).2 = .ok () := by
  rw [matchSignedUrls] at hok ⊢
  split at hok
  · cases hok
  · split at hok
    · cases hok
    · exact hok

theorem matchSignedUrls_available (width : 32 ≤ w) (response : IsResponse parse json items entries)
    (hsize : items.length < 2 ^ 31) (array : List Nat) (clientIdLength : Nat) (objects : Objects) :
    matchSignedUrls w parse .available array json clientIdLength objects =
      (checkSignedUrls array (serveAll (clientIdLength + 1) array entries objects),
        serveAll (clientIdLength + 1) array entries objects) := by
  rw [matchSignedUrls_eq response, toNat_ofInt_toInt width hsize,
    matchLoop_available items.length (List.drop_zero (l := items)) (by omega) (by omega)
      response.entries_of_items]

/-- What the matching promises: for any outcome of memory nothing is served twice, overwritten or served
from an entry of another path; with memory available, and as many entries as cJSON can count, `MCL_OK`
means that every path got its URL, and the order of the entries does not matter. -/
structure MatchesObjects (w : Nat) (parse : Bytes → Option Json) (json : Bytes) (entries : List UrlEntry)
    (array : List Nat) (clientIdLength : Nat) (objects : Objects) : Prop where
  safe : ∀ memory, ∃ servedBy, SafelyServed (clientIdLength + 1) array entries objects
    (matchSignedUrls w parse memory array json clientIdLength objects).2 servedBy
  served_of_ok : ∀ memory, (matchSignedUrls w parse memory array json clientIdLength objects).1 = .ok () →
    checkSignedUrls array (matchSignedUrls w parse memory array json clientIdLength objects).2 = .ok ()
  ok_iff : entries.length < 2 ^ 31 →
    ((matchSignedUrls w parse .available array json clientIdLength objects).1 = .ok () ↔
      ∀ a ∈ array, (objects a).path.isSome →
        ((matchSignedUrls w parse .available array json clientIdLength objects).2 a).signedUrl.isSome)
  any_order : entries.length < 2 ^ 31 → DistinctEntries (clientIdLength + 1) entries →
    DistinctPaths array objects → ∀ {json' items' entries'}, IsResponse parse json' items' entries' →
      entries.Perm entries' →
      matchSignedUrls w parse .available array json' clientIdLength objects =
        matchSignedUrls w parse .available array json clientIdLength objects

theorem matchSignedUrls_matches (width : 32 ≤ w) (response : IsResponse parse json items entries)
    (array : List Nat) (clientIdLength : Nat) (objects : Objects) :
    MatchesObjects w parse json entries array clientIdLength objects := by
  have hitems := response.entries_of_items.length_eq
  refine ⟨fun memory => (matchSignedUrls_servedFrom response memory array clientIdLength objects).safe,
    fun memory => matchSignedUrls_check, ?_, ?_⟩
  · intro hsize
    rw [matchSignedUrls_available width response (by omega)]
    obtain ⟨_, hsafe⟩ := (servedFrom_serveAll (clientIdLength + 1) array entries objects).safe
    rw [checkSignedUrls_eq_ok]
    simp only [hsafe.path_kept]
  · intro hsize hentries hpaths json' items' entries' response' hperm
    have hitems' := response'.entries_of_items.length_eq
    have hlen := hperm.length_eq
    rw [matchSignedUrls_available width response (by omega),
      matchSignedUrls_available width response' (by omega), serveAll_perm hperm hentries hpaths]

end

/-! ## Two paths with one suffix -/

def entryItem (entry : UrlEntry) : Json :=
  .object [(objectPathKey, .string entry.1), (signedUrlKey, .string entry.2)]

theorem isEntry_entryItem (entry : UrlEntry) : IsEntry (entryItem entry) entry := ⟨rfl, rfl⟩

/-- A parser that reads every text as the response with these entries. -/
def responseWith (entries : List UrlEntry) (_ : Bytes) : Option Json :=
  some (.object [(objectUrlsKey, .array (entries.map entryItem))])

theorem isResponse_responseWith (entries : List UrlEntry) :
    IsResponse (responseWith entries) (ascii "response") (entries.map entryItem) entries := by
  refine ⟨by decide, ⟨_, rfl, rfl⟩, ?_⟩
  rw [List.forall₂_map_left_iff]
  exact List.forall₂_same.2 fun entry _ => isEntry_entryItem entry

/-- Every object has the path `file`. -/
def fileObjects : Objects := fun _ => ⟨some (.lit "file"), none⟩

def ownEntry : UrlEntry := (.lit "me/file", .lit "https://own")
def otherEntry : UrlEntry := (.lit "us/file", .lit "https://other")

def logEntry : UrlEntry := (.lit "me/log", .lit "https://log")

/-- The object at 0 has the path `file`, the others have `log`. -/
def fileAndLogs : Objects := fun a => ⟨some (if a = 0 then .lit "file" else .lit "log"), none⟩

theorem fileAndLogs_matches :
    MatchesObjects 64 (responseWith [logEntry, ownEntry]) (ascii "response") [logEntry, ownEntry] [0, 1] 2
      fileAndLogs :=
  matchSignedUrls_matches (by decide) (isResponse_responseWith [logEntry, ownEntry]) [0, 1] 2 fileAndLogs

/-- Distinct paths of entries, distinct paths of objects, and yet the order decides: the client id in an
entry's path is not looked at. And the code is not `MCL_OK`, although every path has its URL, when the
path of a later entry cannot be copied, or when the array is too long for `int`. -/
theorem otherClient_not_any_order :
    ([ownEntry, otherEntry].Perm [otherEntry, ownEntry] ∧ ([ownEntry, otherEntry].map Prod.fst).Nodup ∧
      DistinctPaths [0] fileObjects ∧
      ((matchSignedUrls 64 (responseWith [ownEntry, otherEntry]) .available [0] (ascii "response") 2
        fileObjects).2 0).signedUrl = some ownEntry.2 ∧
      ((matchSignedUrls 64 (responseWith [otherEntry, ownEntry]) .available [0] (ascii "response") 2
        fileObjects).2 0).signedUrl = some otherEntry.2) ∧
    ((matchSignedUrls 64 (responseWith [ownEntry, otherEntry]) ⟨fun i => i = 0, fun _ => true⟩ [0]
        (ascii "response") 2 fileObjects).1 = .error .outOfMemory ∧
      ((matchSignedUrls 64 (responseWith [ownEntry, otherEntry]) ⟨fun i => i = 0, fun _ => true⟩ [0]
        (ascii "response") 2 fileObjects).2 0).signedUrl = some ownEntry.2) ∧
    (matchSignedUrls 64 (responseWith (List.replicate (2 ^ 31) ownEntry)) .available [0] (ascii "response") 2
      fun _ => ⟨none, none⟩).1 ≠ .ok () := by
  refine ⟨⟨by decide, by decide, ?_, by decide, by decide⟩, ⟨by decide, by decide⟩, ?_⟩
  · intro a ha b hb _ _
    rw [List.mem_singleton.1 ha, List.mem_singleton.1 hb]
  · intro hok
    rw [matchSignedUrls_eq (isResponse_responseWith _)] at hok
    split at hok
    · cases hok
    · next heq =>
      have hbound := matchLoop_ok_bound _ _ (Nat.zero_le _) (congrArg Prod.fst heq)
      rw [List.length_map, List.length_replicate] at hbound
      revert hbound
      decide

end MindConnect
