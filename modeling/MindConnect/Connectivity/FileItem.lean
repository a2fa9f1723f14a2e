import MindConnect.Connectivity.Timestamps

/-!
# The file behind a file item: `mcl_connectivity/src/file.c`

| here | there |
| --- | --- |
| `FilePayload` | `file_payload_t` (`file.h`) |
| `OpenFile` | what a `FILE *` stands for, by the order of the `fopen` calls, with the answers that it gave |
| `Outcome` | what the file system and memory come to in one call |
| `fclose`, `fopen` | `mcl_file_util_fclose`, `mcl_file_util_fopen` (`file_util.c:66`, `:27`) |
| `openFile`, `setPathBehindClose`, `setFileLocalPath` | `_set_file_local_path` (`file.c:172`), from setting the path to the clean-up, from the close on, and all of it |
| `mclFileSetParameter`, `fileValidate` | `mcl_file_set_parameter` (`:76`), `file_validate` (`:121`) |

`fclose` ends the use of a descriptor, whatever it returns. `fstat` may tell no size or no time; the item then gets the
0 of `mcl_file_util_get_file_size` or `mcl_file_util_get_time_of_last_status_change`, and nobody learns of it. A null
value is refused before anything is done, so that it leaves the path that there is.
-/

namespace MindConnect.FileSystem

/-! ## The code -/

structure FilePayload where
  creationDate : Option CString
  localPath : Option CString
  remoteName : Option CString
  type : Option CString
  size : Nat
  fileDescriptor : Option Nat

/-- `size` and `time` are what `fstat` told of it. -/
structure OpenFile where
  path : CString
  isOpen : Bool
  size : Option Nat
  time : Option Int

structure FileState where
  item : FilePayload
  files : List OpenFile

structure Outcome where
  /-- `fclose` of the previous file. -/
  closed : Bool
  copied : Bool
  opened : Bool
  regular : Bool
  size : Option Nat
  time : Option Int
  allocated : Bool
  /-- What is in a new buffer. -/
  indeterminate : CString
  /-- `fclose` of the clean-up. -/
  cleaned : Bool

/-- A change of the file behind a descriptor. -/
def FileState.modify (s : FileState) (d : Nat) (f : OpenFile → OpenFile) : FileState :=
  { s with files := s.files.modify d f }

def fclose (closed : Bool) (s : FileState) : Option Nat → Result Unit × FileState
  | none => (.ok (), s)
  | some d => (if closed then .ok () else .error .fail, s.modify d fun f => { f with isOpen := false })

/-- The descriptor is null if the file cannot be opened. -/
def fopen (opened : Bool) (s : FileState) (path : CString) : FileState :=
  if opened then
    { item := { s.item with fileDescriptor := some s.files.length }
      files := s.files ++ [⟨path, true, none, none⟩] }
  else { s with item := { s.item with fileDescriptor := none } }

/-- `mcl_file_util_get_file_size` on the descriptor -/
def readSize (size : Option Nat) (s : FileState) (d : Nat) : FileState :=
  { s with item := { s.item with size := size.getD 0 } }.modify d fun f => { f with size }

/-- The creation date, in a new buffer if there is none. -/
def readCreationDate (o : Outcome) (s : FileState) (d : Nat) : Result Unit × FileState :=
  let creationDate := o.time.getD 0
  let s := s.modify d fun f => { f with time := o.time }
  if s.item.creationDate = none ∧ o.allocated = false then (.error .outOfMemory, s)
  else
    let buffer := s.item.creationDate.getD o.indeterminate
    stored (mclTimeUtilConvertToIso8601Format o.indeterminate creationDate buffer) fun text =>
      { s with item := { s.item with creationDate := some text } }

def openFile (o : Outcome) (s : FileState) (path : CString) : Result Unit × FileState :=
  match stringUtilReset o.copied path with
  | (.error e, localPath) => (.error e, { s with item := { s.item with localPath } })
  | (.ok (), localPath) =>
    let s := fopen o.opened { s with item := { s.item with localPath } } path
    match s.item.fileDescriptor with
    | none => (.error .fileCannotBeOpened, s)
    | some d => if o.regular then readCreationDate o (readSize o.size s d) d else (.error .fileCannotBeOpened, s)

/-- What is done behind the close, with the clean-up. -/
def setPathBehindClose (o : Outcome) (s : FileState) (path : CString) : Result Unit × FileState :=
  match openFile o s path with
  | (.ok (), s) => (.ok (), s)
  | (.error e, s) =>
    let s := (fclose o.cleaned s s.item.fileDescriptor).2
    (.error e, { s with
      item := { s.item with localPath := none, creationDate := none, fileDescriptor := none, size := 0 } })

def setFileLocalPath (o : Outcome) (s : FileState) (path : CString) : Result Unit × FileState :=
  match fclose o.closed s s.item.fileDescriptor with
  | (.error e, s) => (.error e, s)
  | (.ok (), s) => setPathBehindClose o { s with item := { s.item with fileDescriptor := none } } path

/-- `E_MCL_FILE_PARAMETER` -/
inductive FileParameter where
  | localPath | remoteName | type | unknown
deriving DecidableEq

def mclFileSetParameter (o : Outcome) (s : FileState) (parameter : FileParameter) (value : Option CString) :
    Result Unit × FileState :=
  match value with
  | none => (.error .triggeredWithNull, s)
  | some value =>
    match parameter with
    | .localPath => setFileLocalPath o s value
    | .remoteName =>
      stored (stringUtilReset o.copied value) fun remoteName => { s with item := { s.item with remoteName } }
    | .type => stored (stringUtilReset o.copied value) fun type => { s with item := { s.item with type } }
    | .unknown => (.error .invalidParameter, s)

def fileValidate (item : FilePayload) : Result Unit :=
  if item.localPath = none then .error .invalidParameter
  else if item.remoteName = none then .error .invalidParameter
  else .ok ()

/-- After `mcl_file_initialize` (`file.c:20`). -/
def FileState.initial : FileState := ⟨⟨none, none, none, none, 0, none⟩, []⟩

/-! ## A consistent item -/

/-- The descriptor is one of the open file that the path names, and size and date are its answers. -/
def Attached (s : FileState) : Prop :=
  ∃ path d f t date, s.item.localPath = some path ∧ s.item.fileDescriptor = some d ∧ s.files[d]? = some f ∧
    f.path = path ∧ f.isOpen = true ∧ f.size = some s.item.size ∧ f.time = some t ∧
    s.item.creationDate = some date ∧
    ∀ indeterminate buffer, mclTimeUtilConvertToIso8601Format indeterminate t buffer = (.ok (), date)

structure Call where
  outcome : Outcome
  parameter : FileParameter
  value : Option CString

def Call.run (c : Call) (s : FileState) : Result Unit × FileState :=
  mclFileSetParameter c.outcome s c.parameter c.value

/-- A call with its code and the state behind it. -/
structure Done where
  parameter : FileParameter
  code : Result Unit
  state : FileState

def Call.done (c : Call) (s : FileState) : Done := ⟨c.parameter, (c.run s).1, (c.run s).2⟩

/-- The calls on one item. -/
def calls : FileState → List Call → List Done
  | _, [] => []
  | s, c :: rest => c.done s :: calls (c.run s).2 rest

/-! ## What keeps it so -/

/-- The time has a text in the format of a creation date. -/
def Dateable (t : Int) : Prop := (mclTimeUtilConvertToIso8601Format (.ofBuffer []) t (.ofBuffer [])).1 = .ok ()

/-- Every step of setting a local path succeeds; a time that is not told is dated by 0. -/
structure Outcome.Succeeds (o : Outcome) (s : FileState) : Prop where
  closed : s.item.fileDescriptor ≠ none → o.closed = true
  copied : o.copied = true
  opened : o.opened = true
  regular : o.regular = true
  allocated : s.item.creationDate = none → o.allocated = true
  dated : Dateable (o.time.getD 0)

/-- Both queries were answered. -/
def OpenFile.Told (f : OpenFile) : Prop := f.size ≠ none ∧ f.time ≠ none

/-- What a call must not do to the item that it finds. -/
@[mk_iff]
structure Call.Keeps (c : Call) (s : FileState) : Prop where
  /-- No null for a path that there is. -/
  value : c.parameter = .localPath → c.value = none → s.item.localPath = none
  /-- No descriptor that cannot be closed. -/
  closed : c.parameter = .localPath → c.value ≠ none → s.item.fileDescriptor ≠ none → c.outcome.closed = true
  /-- No path for a named item by a setting that succeeds although a query fails. -/
  path : c.parameter = .localPath → c.value ≠ none → s.item.remoteName ≠ none → c.outcome.Succeeds s →
    c.outcome.size ≠ none ∧ c.outcome.time ≠ none
  /-- No name for an item whose file told no size or no time. -/
  name : c.parameter = .remoteName → c.value ≠ none → c.outcome.copied = true →
    ∀ d f, s.item.fileDescriptor = some d → s.files[d]? = some f → f.Told

/-- A text that the C library writes does not depend on what was in the buffer. -/
theorem convert_ok {indeterminate : CString} {t : Int} {buffer text : CString}
    (h : mclTimeUtilConvertToIso8601Format indeterminate t buffer = (.ok (), text)) (indeterminate' buffer' : CString) :
    mclTimeUtilConvertToIso8601Format indeterminate' t buffer' = (.ok (), text) := by
  simp only [mclTimeUtilConvertToIso8601Format] at h ⊢
  cases htm : gmtime t with
  | none =>
    rw [htm] at h
    cases h
  | some tm =>
    rw [htm] at h
    simp only at h ⊢
    cases htext : strftime mclTimestampLength (ascii "%Y-%m-%dT%H:%M:%S.000Z") tm with
    | none =>
      rw [htext] at h
      cases h
    | some text' =>
      rw [htext] at h
      exact h

theorem dateable_iff {t : Int} :
    Dateable t ↔ ∃ date, ∀ indeterminate buffer,
      mclTimeUtilConvertToIso8601Format indeterminate t buffer = (.ok (), date) :=
  ⟨fun h => ⟨_, convert_ok (Prod.ext h rfl)⟩, fun ⟨_, h⟩ => by rw [Dateable, h]⟩

/-- The item has the descriptor of the open file that its path names, with what the two queries came to. -/
structure Holding (s : FileState) (d : Nat) (f : OpenFile) : Prop where
  path : s.item.localPath = some f.path
  descriptor : s.item.fileDescriptor = some d
  file : s.files[d]? = some f
  isOpen : f.isOpen = true
  size : s.item.size = f.size.getD 0
  date : ∃ date, s.item.creationDate = some date ∧
    ∀ indeterminate buffer, mclTimeUtilConvertToIso8601Format indeterminate (f.time.getD 0) buffer = (.ok (), date)

/-- With a buffer the code is that of the conversion. -/
theorem readCreationDate_eq {o : Outcome} {s : FileState} (d : Nat)
    (hbuffer : ¬ (s.item.creationDate = none ∧ o.allocated = false)) :
    readCreationDate o s d = stored (mclTimeUtilConvertToIso8601Format o.indeterminate (o.time.getD 0)
      (s.item.creationDate.getD o.indeterminate)) fun text =>
        ⟨{ s.item with creationDate := some text }, s.files.modify d fun f => { f with time := o.time }⟩ :=
      if_neg hbuffer

/-- What is read of an open file: the date, if it has one and there is a buffer for it. -/
theorem readCreationDate_ok_iff (o : Outcome) (s : FileState) (d : Nat) :
    (readCreationDate o s d).1 = .ok () ↔
      (s.item.creationDate = none → o.allocated = true) ∧ Dateable (o.time.getD 0) := by
  by_cases hbuffer : s.item.creationDate = none ∧ o.allocated = false
  · have hrefused : (readCreationDate o s d).1 = .error .outOfMemory := congrArg Prod.fst (if_pos hbuffer)
    simp [hrefused, hbuffer]
  · have hallocated : s.item.creationDate = none → o.allocated = true := fun h => by simpa [h] using hbuffer
    rw [readCreationDate_eq d hbuffer, and_iff_right hallocated, dateable_iff]
    exact ⟨fun h => ⟨_, convert_ok (Prod.ext h rfl)⟩, fun ⟨_, h⟩ => by simp only [stored, h]⟩

/-- With a descriptor of an open file, named by the path, the reading of size and date completes the item. -/
theorem readCreationDate_holding {o : Outcome} {s : FileState} {path : CString} {d : Nat} {f : OpenFile}
    (hpath : s.item.localPath = some path) (hd : s.item.fileDescriptor = some d) (hf : s.files[d]? = some f)
    (hnamed : f.path = path) (hopen : f.isOpen = true)
    (h : (readCreationDate o (readSize o.size s d) d).1 = .ok ()) :
    Holding (readCreationDate o (readSize o.size s d) d).2 d { f with size := o.size, time := o.time } := by
  obtain ⟨hallocated, hdateable⟩ := (readCreationDate_ok_iff o (readSize o.size s d) d).1 h
  obtain ⟨date, hdate⟩ := dateable_iff.1 hdateable
  have hbuffer : ¬ ((readSize o.size s d).item.creationDate = none ∧ o.allocated = false) := by
    rintro ⟨hnone, hrefused⟩
    rw [hallocated hnone] at hrefused
    cases hrefused
  rw [readCreationDate_eq d hbuffer, hdate]
  refine ⟨?_, hd, ?_, hopen, rfl, date, rfl, hdate⟩
  · rw [hnamed]
    exact hpath
  · simp [readSize, FileState.modify, stored, hf]

theorem openFile_ok_iff (o : Outcome) (s : FileState) (path : CString) :
    (openFile o s path).1 = .ok () ↔ o.copied = true ∧ o.opened = true ∧ o.regular = true ∧
      (s.item.creationDate = none → o.allocated = true) ∧ Dateable (o.time.getD 0) := by
  cases hcopied : o.copied with
  | false => simp [openFile, stringUtilReset, hcopied]
  | true =>
    cases hopened : o.opened with
    | false => simp [openFile, stringUtilReset, fopen, hcopied, hopened]
    | true =>
      cases hregular : o.regular with
      | false => simp [openFile, stringUtilReset, fopen, hcopied, hopened, hregular]
      | true =>
        simp only [openFile, stringUtilReset, fopen, hcopied, hopened, hregular, if_true, readCreationDate_ok_iff,
          true_and]
        exact Iff.rfl

/-- A file that is opened and read is the item's. -/
theorem openFile_holding {o : Outcome} {s : FileState} {path : CString} (h : (openFile o s path).1 = .ok ()) :
    Holding (openFile o s path).2 s.files.length ⟨path, true, o.size, o.time⟩ := by
  obtain ⟨hcopied, hopened, hregular, -⟩ := (openFile_ok_iff o s path).1 h
  simp only [openFile, stringUtilReset, fopen, hcopied, hopened, hregular, if_true] at h ⊢
  exact readCreationDate_holding (f := ⟨path, true, none, none⟩) rfl rfl (by simp) rfl rfl h

theorem openFile_remoteName (o : Outcome) (s : FileState) (path : CString) :
    (openFile o s path).2.item.remoteName = s.item.remoteName := by
  cases hcopied : o.copied with
  | false => simp [openFile, stringUtilReset, hcopied]
  | true =>
    cases hopened : o.opened with
    | false => simp [openFile, stringUtilReset, fopen, hcopied, hopened]
    | true =>
      cases hregular : o.regular with
      | false => simp [openFile, stringUtilReset, fopen, hcopied, hopened, hregular]
      | true =>
        simp only [openFile, stringUtilReset, fopen, hcopied, hopened, hregular, if_true, readCreationDate]
        split_ifs <;> rfl

/-! ## Setting a local path -/

theorem setFileLocalPath_eq {o : Outcome} {s : FileState} (path : CString)
    (hcloses : s.item.fileDescriptor ≠ none → o.closed = true) :
    ∃ s₁, s₁.item = { s.item with fileDescriptor := none } ∧
      setFileLocalPath o s path = setPathBehindClose o s₁ path := by
  cases hd : s.item.fileDescriptor with
  | none => exact ⟨_, rfl, by simp only [setFileLocalPath, fclose, hd]; rfl⟩
  | some d =>
    have hclosed : o.closed = true := hcloses (by simp [hd])
    exact ⟨_, rfl, by simp only [setFileLocalPath, fclose, hd, hclosed, if_true]; rfl⟩

/-- Behind the close: the file is the item's, or the clean-up leaves no path and no descriptor, whatever was done before
the error. -/
theorem setFileLocalPath_closed {o : Outcome} {s : FileState} (path : CString)
    (hcloses : s.item.fileDescriptor ≠ none → o.closed = true) :
    ((setFileLocalPath o s path).1 = .ok () ↔ o.Succeeds s) ∧
    (setFileLocalPath o s path).2.item.remoteName = s.item.remoteName ∧
    ((setFileLocalPath o s path).1 = .ok () ∧
        (∃ d, Holding (setFileLocalPath o s path).2 d ⟨path, true, o.size, o.time⟩) ∨
      (setFileLocalPath o s path).1 ≠ .ok () ∧ (setFileLocalPath o s path).2.item.localPath = none ∧
        (setFileLocalPath o s path).2.item.fileDescriptor = none) := by
  obtain ⟨s₁, hitem, heq⟩ := setFileLocalPath_eq path hcloses
  have hname := openFile_remoteName o s₁ path
  have hholding := @openFile_holding o s₁ path
  have hsucceeds : (openFile o s₁ path).1 = .ok () ↔ o.Succeeds s := by
    rw [openFile_ok_iff, hitem]
    constructor
    · rintro ⟨hcopied, hopened, hregular, hallocated, hdated⟩
      exact ⟨hcloses, hcopied, hopened, hregular, hallocated, hdated⟩
    · intro h
      exact ⟨h.copied, h.opened, h.regular, h.allocated, h.dated⟩
  rw [hitem] at hname
  rw [heq, setPathBehindClose, ← hsucceeds]
  generalize openFile o s₁ path = opened at hname hholding
  obtain ⟨code | _, s₂⟩ := opened
  · have hkept : (fclose o.cleaned s₂ s₂.item.fileDescriptor).2.item = s₂.item := by
      cases s₂.item.fileDescriptor <;> rfl
    refine ⟨by simp, ?_, .inr ⟨by simp, rfl, rfl⟩⟩
    simp only [hkept]
    exact hname
  · exact ⟨Iff.rfl, hname, .inl ⟨rfl, _, hholding rfl⟩⟩

/-- Without the close, nothing else is done: the item keeps its path behind the error. -/
theorem setFileLocalPath_notClosed {o : Outcome} {s : FileState} {d : Nat} (path : CString)
    (hd : s.item.fileDescriptor = some d) (hclosed : o.closed = false) :
    (setFileLocalPath o s path).1 = .error .fail ∧ (setFileLocalPath o s path).2.item = s.item := by
  simp [setFileLocalPath, fclose, hd, hclosed, FileState.modify]

/-! ## One call -/

/-- The item is not valid without the file that its path names. -/
def Valid (s : FileState) : Prop := fileValidate s.item = .ok () → Attached s

section

variable {o : Outcome} {s : FileState}

end

/-! ## All calls -/

/-- All steps succeed. -/
private def succeeds : Outcome := ⟨true, true, true, true, some 4, some 0, true, .ofBuffer [], true⟩

/-- What `File` takes for granted of its two fields. -/
def Dated (item : FilePayload) : Prop :=
  item.localPath ≠ none → ∃ date, item.creationDate = some date ∧ date.length ≤ timestampLength

def FilePayload.toFile (item : FilePayload) (dated : Dated item) : File :=
  ⟨item.creationDate, item.localPath, item.remoteName, item.type, item.size, dated⟩

theorem toFile_validate {item : FilePayload} (dated : Dated item) :
    (item.toFile dated).validate = fileValidate item := rfl

/-- A text that was written fits in the buffer. -/
theorem length_of_convert_ok {indeterminate buffer text : CString} {t : Int}
    (h : mclTimeUtilConvertToIso8601Format indeterminate t buffer = (.ok (), text)) :
    text.length ≤ timestampLength := by
  simp only [mclTimeUtilConvertToIso8601Format, strftime] at h
  split at h
  · cases h
  · split_ifs at h with hfits
    · obtain rfl : CString.ofBuffer _ = text := congrArg Prod.snd h
      have hlength := (List.takeWhile_sublist (fun b => b != 0) (l := _)).length_le.trans_lt hfits
      simp only [CString.length, CString.ofBuffer, timestampLength, mclTimestampLength] at hlength ⊢
      omega
    · cases h

theorem Holding.dated {s : FileState} {d : Nat} {f : OpenFile} (h : Holding s d f) : Dated s.item := by
  obtain ⟨date, hdate, hconverted⟩ := h.date
  exact fun _ => ⟨date, hdate, length_of_convert_ok (hconverted date date)⟩

theorem run_dated (c : Call) {s : FileState} (h : Dated s.item) : Dated (c.run s).2.item := by
  obtain ⟨o, parameter, value⟩ := c
  cases value with
  | none => exact h
  | some value =>
    cases parameter with
    | localPath =>
      by_cases hcloses : s.item.fileDescriptor ≠ none → o.closed = true
      · rcases (setFileLocalPath_closed value hcloses).2.2 with ⟨-, d, hholding⟩ | ⟨-, hnone, -⟩
        · exact hholding.dated
        · exact fun hpath => absurd hnone hpath
      · obtain ⟨hd, hclosed⟩ : s.item.fileDescriptor ≠ none ∧ o.closed = false := by simpa using hcloses
        obtain ⟨d, hd⟩ := Option.ne_none_iff_exists'.1 hd
        have hitem := (setFileLocalPath_notClosed value hd hclosed).2
        simpa only [Call.run, mclFileSetParameter, hitem] using h
    | _ => exact h

/-- Whatever is called on an item and whatever fails, it stays a `File`. -/
theorem calls_dated (cs : List Call) {s : FileState} (h : Dated s.item) : ∀ c ∈ calls s cs, Dated c.state.item := by
  induction cs generalizing s with
  | nil => simp [calls]
  | cons c rest ih =>
    have hstep := run_dated c h
    exact List.forall_mem_cons.2 ⟨hstep, ih hstep⟩

end MindConnect.FileSystem
