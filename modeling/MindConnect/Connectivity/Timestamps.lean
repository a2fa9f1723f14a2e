import MindConnect.Lib.Calendar
import MindConnect.Core.JsonUtil
import MindConnect.Connectivity.Item

/-!
# Setting a timestamp

A timestamp is set as a text, which `mcl_time_util_validate_timestamp` has to accept, or as a count of seconds, whose
text the C library writes and nothing checks. `strftime` writes the year as it is, `%Y` having no width: with three digits,
with five, or with a minus; the validation wants four and ends with the year 2999.

| here | there |
| --- | --- |
| `Tm`, `gmtime` | `struct tm` and the C library's `gmtime_r`: null when the year does not fit into `tm_year` |
| `strftime` | the same, for the conversions of the one format there is; `none` for its 0 |
| `mclTimeUtilConvertToIso8601Format` | `mcl_time_util_convert_to_iso_8601_format` (`time_util.c:22`) |
| `mclEventSetParameter` | `mcl_event_set_parameter` (`event.c:75`) |
| `mclTimeseriesValueListSetParameter` | `mcl_timeseries_value_list_set_parameter` (`timeseries_value_list.c:49`) |
-/

namespace MindConnect

open JsonUtil (numberText)

/-! ## The code -/

structure Tm where
  /-- Years since 1900. -/
  year : Int
  mon : Nat
  mday : Nat
  hour : Nat
  min : Nat
  sec : Nat

def tmOf (m : Calendar.Moment) : Tm :=
  ⟨m.date.year - 1900, m.date.month - 1, m.date.day, m.hour, m.minute, m.second⟩

def gmtime (timeValue : Int) : Option Tm :=
  let tm := tmOf (Calendar.utc timeValue)
  if -2 ^ 31 ≤ tm.year ∧ tm.year < 2 ^ 31 then some tm else none

def twoDigits (n : Nat) : Bytes := [48 + (n / 10).toUInt8, 48 + (n % 10).toUInt8]

/-- The year as a decimal number, without a width. -/
def yearText (year : Int) : Bytes := if year < 0 then 45 :: numberText year.natAbs else numberText year.natAbs

/-- What a conversion character behind a `%` writes. -/
def conversion (tm : Tm) (c : UInt8) : Bytes :=
  if c = 89 then yearText (tm.year + 1900)
  else if c = 109 then twoDigits (tm.mon + 1)
  else if c = 100 then twoDigits tm.mday
  else if c = 72 then twoDigits tm.hour
  else if c = 77 then twoDigits tm.min
  else if c = 83 then twoDigits tm.sec
  else []

def strftimeText (tm : Tm) : Bytes → Bytes
  | [] => []
  | [c] => [c]
  | c :: d :: format =>
    if c = 37 then conversion tm d ++ strftimeText tm format else c :: strftimeText tm (d :: format)

/-- The text, if it fits with its terminator. -/
def strftime (maxsize : Nat) (format : Bytes) (tm : Tm) : Option Bytes :=
  if (strftimeText tm format).length < maxsize then some (strftimeText tm format) else none

/-- `MCL_TIMESTAMP_LENGTH` (`mcl_time_util.h:23`) -/
def mclTimestampLength : Nat := 25

/-- The code and the buffer behind it; `indeterminate` is what a text that does not fit leaves there. -/
def mclTimeUtilConvertToIso8601Format (indeterminate : CString) (timeValue : Int) (buffer : CString) :
    Result Unit × CString :=
  match gmtime timeValue with
  | none => (.error .fail, buffer)
  | some tm =>
    match strftime mclTimestampLength (ascii "%Y-%m-%dT%H:%M:%S.000Z") tm with
    | none => (.error .fail, indeterminate)
    | some text => (.ok (), CString.ofBuffer text)

/-- The code of a step, and the object with what the step wrote into a field of it. -/
def stored {β γ : Type} (result : Result Unit × β) (store : β → γ) : Result Unit × γ := (result.1, store result.2)

/-- The case of a timestamp as a text, the same in both setters. -/
def setTimestampIso8601 (value timestamp : CString) : Result Unit × CString :=
  if validateTimestamp value then (.ok (), value) else (.error .invalidParameter, timestamp)

/-- `E_MCL_EVENT_PARAMETER` with what its value points to. -/
inductive EventParameter where
  | type (value : CString)
  | version (value : CString)
  | severity (value : Int)
  | timestampIso8601 (value : CString)
  | timestampEpoch (value : Int)
  | description (value : CString)
  | correlationId (value : CString)
  | details (value : Json)
  | unknown

/-- `MCL_EVENT_PARAMETER_DESCRIPTION_MAXIMUM_LENGTH` -/
def eventDescriptionMaximumLength : Nat := 256

/-- `string_util_reset` (`string_util.c:431`): the old text is freed first. -/
def stringUtilReset (allocated : Bool) (value : CString) : Result Unit × Option CString :=
  if allocated then (.ok (), some value) else (.error .outOfMemory, none)

/-- A severity of the item's version; `none` where the assertion fails. -/
def eventSeverity (version : EventVersion) (value : Int) : Option {s // s ∈ eventSeverityValues version} :=
  if value < 0 then none
  else
    match h : (eventSeverityValues version)[value.toNat]? with
    | none => none
    | some s => some ⟨s, List.mem_of_getElem? h⟩

/-- The `switch` of `mcl_event_set_parameter`. -/
def Event.setParameter (allocated : Bool) (indeterminate : CString) (event : Event) :
    EventParameter → Result Unit × Event
  | .type value => stored (stringUtilReset allocated value) fun type => { event with type }
  | .version value => stored (stringUtilReset allocated value) fun version => { event with version }
  | .severity value =>
    match eventSeverity event.itemVersion value with
    | none => (.error .invalidParameter, event)
    | some severity => (.ok (), { event with severity, severity_mem := severity.2 })
  | .timestampIso8601 value =>
    stored (setTimestampIso8601 value event.timestamp) fun timestamp => { event with timestamp }
  | .timestampEpoch value =>
    stored (mclTimeUtilConvertToIso8601Format indeterminate value event.timestamp) fun timestamp =>
      { event with timestamp }
  | .description value =>
    if value.length < eventDescriptionMaximumLength then
      stored (stringUtilReset allocated value) fun description => { event with description }
    else (.error .invalidParameter, event)
  | .correlationId value =>
    stored (stringUtilReset allocated value) fun correlationId => { event with correlationId }
  | .details value =>
    if allocated then (.ok (), { event with details := some value })
    else (.error .outOfMemory, { event with details := none })
  | .unknown => (.error .invalidParameter, event)

/-- Null is `none`, for the value too. -/
def mclEventSetParameter (allocated : Bool) (indeterminate : CString) (event : Option Event)
    (parameter : Option EventParameter) : Result Unit × Option Event :=
  match event, parameter with
  | some event, some parameter => stored (event.setParameter allocated indeterminate parameter) some
  | _, _ => (.error .triggeredWithNull, event)

/-- `E_MCL_TIMESERIES_VALUE_LIST_PARAMETER` with what its value points to. -/
inductive ValueListParameter where
  | timestampIso8601 (value : CString)
  | timestampEpoch (value : Int)
  | unknown

def TimeseriesValueList.setParameter (indeterminate : CString) (list : TimeseriesValueList) :
    ValueListParameter → Result Unit × TimeseriesValueList
  | .timestampIso8601 value =>
    stored (setTimestampIso8601 value list.timestamp) fun timestamp => { list with timestamp }
  | .timestampEpoch value =>
    stored (mclTimeUtilConvertToIso8601Format indeterminate value list.timestamp) fun timestamp =>
      { list with timestamp }
  | .unknown => (.error .invalidParameter, list)

def mclTimeseriesValueListSetParameter (indeterminate : CString) (list : Option TimeseriesValueList)
    (parameter : Option ValueListParameter) : Result Unit × Option TimeseriesValueList :=
  match list, parameter with
  | some list, some parameter => stored (list.setParameter indeterminate parameter) some
  | _, _ => (.error .triggeredWithNull, list)

/-- A set timestamp passes the validation: whenever the setter answers `MCL_OK`, the text in the object does. -/
def SetsValid {α : Type} (timestamp : α → CString) (result : Result Unit × Option α) : Prop :=
  result.1 = .ok () → ∃ a, result.2 = some a ∧ validateTimestamp (timestamp a) = true

/-- So do both setters for a count of seconds. -/
def SettersAgree (allocated : Bool) (indeterminate : CString) (event : Option Event) (list : Option TimeseriesValueList)
    (epoch : Int) : Prop :=
  SetsValid Event.timestamp (mclEventSetParameter allocated indeterminate event (some (.timestampEpoch epoch))) ∧
    SetsValid TimeseriesValueList.timestamp
      (mclTimeseriesValueListSetParameter indeterminate list (some (.timestampEpoch epoch)))

namespace Timestamp

/-! ## The text of a year -/

theorem isDigit_of_scan {d : UInt8} (h : Scan.isDigit 10 d = true) :
    isDigit d = true ∧ Scan.digitValue d = some (d.toNat - 48) := by
  obtain ⟨v, hv, hlt⟩ := Scan.isDigit_eq_true.1 h
  by_cases hdigit : (48 ≤ d && d ≤ 57) = true
  · exact ⟨hdigit, by rw [Scan.digitValue, if_pos hdigit]⟩
  · rw [Scan.digitValue, if_neg hdigit] at hv
    simp only [Bool.and_eq_true, decide_eq_true_eq, UInt8.le_iff_toNat_le, UInt8.reduceToNat] at hv
    split_ifs at hv with h97 h65
    · simp only [Option.some.injEq] at hv
      omega
    · simp only [Option.some.injEq] at hv
      omega

theorem isDigit_of_mem_numberText {n : Nat} {d : UInt8} (h : d ∈ numberText n) : isDigit d = true :=
  (isDigit_of_scan (JsonUtil.isDigit_numberText h)).1

theorem foldl_decimal {digits : Bytes} (h : ∀ d ∈ digits, Scan.isDigit 10 d = true) (n : Nat) :
    digits.foldl (fun (n : Nat) d => 10 * n + (d.toNat - 48)) n =
      digits.foldl (fun n d => 10 * n + (Scan.digitValue d).getD 0) n := by
  induction digits generalizing n with
  | nil => rfl
  | cons d digits ih =>
    obtain ⟨hd, hdigits⟩ := List.forall_mem_cons.1 h
    rw [List.foldl_cons, List.foldl_cons, ih hdigits, (isDigit_of_scan hd).2, Option.getD_some]

theorem decimal_numberText (n : Nat) : decimal (numberText n) = n := by
  rw [decimal, foldl_decimal fun _ hd => JsonUtil.isDigit_numberText hd]
  exact JsonUtil.value_numberText n

theorem length_numberText_le_iff {n k : Nat} (hk : 0 < k) : (numberText n).length ≤ k ↔ n < 10 ^ k := by
  rw [numberText, List.length_map]
  exact Nat.length_toDigits_le_iff (by decide) hk

theorem twoDigits_spec {n : Nat} (h : n < 100) :
    (twoDigits n).length = 2 ∧ (∀ d ∈ twoDigits n, isDigit d = true) ∧ decimal (twoDigits n) = n := by
  have hall : ∀ n < 100, (∀ d ∈ twoDigits n, isDigit d = true) ∧ decimal (twoDigits n) = n := by decide
  exact ⟨rfl, hall n h⟩

/-! ## The text of a moment -/

/-- Everything behind the year. -/
def dayText (m : Calendar.Moment) : Bytes :=
  twoDigits m.date.month ++ 45 :: (twoDigits m.date.day ++ 84 :: (twoDigits m.hour ++ 58 :: (twoDigits m.minute ++
    58 :: (twoDigits m.second ++ 46 :: ([48, 48, 48] ++ 90 :: [])))))

theorem strftimeText_iso (m : Calendar.Moment) :
    strftimeText (tmOf m) (ascii "%Y-%m-%dT%H:%M:%S.000Z") = yearText m.date.year ++ 45 :: dayText m := by
  have hformat : ascii "%Y-%m-%dT%H:%M:%S.000Z" =
      [37, 89, 45, 37, 109, 45, 37, 100, 84, 37, 72, 58, 37, 77, 58, 37, 83, 46, 48, 48, 48, 90] := rfl
  have hmonth : m.date.month - 1 + 1 = m.date.month := Nat.sub_add_cancel m.date.month_pos
  rw [hformat]
  simp [strftimeText, conversion, tmOf, hmonth, dayText]

/-- The format behind the year. -/
theorem documented_dayText (m : Calendar.Moment) : Documented timestampFormat.tail (dayText m) := by
  have hmonth := m.date.month_le
  have hday := m.date.day_le_31
  have hpart : ∀ {n : Nat} {least greatest : Nat}, least ≤ n → n ≤ greatest → greatest < 100 →
      (twoDigits n).length = 2 ∧
        (∀ d ∈ twoDigits n, isDigit d = true) ∧ least ≤ decimal (twoDigits n) ∧ decimal (twoDigits n) ≤ greatest := by
    intro n least greatest hleast hgreatest hlt
    obtain ⟨hlength, hdigits, hvalue⟩ := twoDigits_spec (n := n) (by omega)
    rw [hvalue]
    exact ⟨hlength, hdigits, hleast, hgreatest⟩
  obtain ⟨hl1, hp1⟩ := hpart m.date.month_pos hmonth (by decide)
  obtain ⟨hl2, hp2⟩ := hpart m.date.day_pos hday (by decide)
  obtain ⟨hl3, hp3⟩ := hpart (Nat.zero_le _) m.hour_le (by decide)
  obtain ⟨hl4, hp4⟩ := hpart (Nat.zero_le _) m.minute_le (by decide)
  obtain ⟨hl5, hp5⟩ := hpart (Nat.zero_le _) m.second_le (by decide)
  exact .cons hl1 hp1 (.cons hl2 hp2 (.cons hl3 hp3 (.cons hl4 hp4 (.cons hl5 hp5
    (.cons rfl (by decide) .nil)))))

theorem length_dayText (m : Calendar.Moment) : (dayText m).length = 19 := rfl

theorem nul_notMem_of_digits {text : Bytes} (h : ∀ d ∈ text, isDigit d = true) : (0 : UInt8) ∉ text := by
  intro hmem
  exact absurd (h 0 hmem) (by decide)

theorem AllDigits.nul_notMem {format : List FieldFormat} (hformat : ∀ f ∈ format, f.separator ≠ 0) {text : Bytes}
    (h : AllDigits format text) : (0 : UInt8) ∉ text := by
  induction h with
  | nil => exact List.not_mem_nil
  | cons _ hdigits _ ih =>
    obtain ⟨hseparator, hrest⟩ := List.forall_mem_cons.1 hformat
    intro hmem
    rcases List.mem_append.1 hmem with hpart | hmem
    · exact nul_notMem_of_digits hdigits hpart
    · rcases List.mem_cons.1 hmem with hzero | hmem
      · exact hseparator hzero.symm
      · exact ih hrest hmem

theorem nul_notMem_yearText (year : Int) : (0 : UInt8) ∉ yearText year := by
  have hdigits : (0 : UInt8) ∉ numberText year.natAbs := nul_notMem_of_digits fun _ => isDigit_of_mem_numberText
  rw [yearText]
  split_ifs with h
  · simpa using hdigits
  · exact hdigits

/-- The text has no NUL, the buffer ends where it does. -/
theorem ofBuffer_isoText (m : Calendar.Moment) :
    (CString.ofBuffer (yearText m.date.year ++ 45 :: dayText m)).bytes = yearText m.date.year ++ 45 :: dayText m := by
  have hday : (0 : UInt8) ∉ dayText m := by
    have hall := ((documented_iff (fun f hf => timestampFormat_sound f (List.mem_of_mem_tail hf)) _).1
      (documented_dayText m)).1
    exact AllDigits.nul_notMem (by decide) hall
  apply CString.ofBuffer_bytes
  simp only [List.mem_append, List.mem_cons, not_or]
  exact ⟨nul_notMem_yearText _, by decide, hday⟩

/-- A written year passes exactly from 1000 to 2999. -/
theorem validateTimestamp_isoText (m : Calendar.Moment) :
    validateTimestamp (CString.ofBuffer (yearText m.date.year ++ 45 :: dayText m)) = true ↔
      1000 ≤ m.date.year ∧ m.date.year ≤ 2999 := by
  have hsplit : timestampFormat = ⟨4, 45, 1, 2999⟩ :: timestampFormat.tail := rfl
  have hrest := documented_dayText m
  have htail := (documented_iff (fun f hf => timestampFormat_sound f (List.mem_of_mem_tail hf)) _).1 hrest
  rw [validateTimestamp_iff, ofBuffer_isoText, hsplit]
  by_cases hneg : m.date.year < 0
  · -- the minus is read as a sign, and the year has to be positive
    rw [yearText, if_pos hneg]
    constructor
    · rintro ⟨-, _ | ⟨reads, hleast, -, -⟩⟩
      have hread : Reads ([] ++ ([45] ++ (numberText m.date.year.natAbs ++ 45 :: dayText m)))
          (if [45] = [45] then -(decimal (numberText m.date.year.natAbs) : Int)
            else decimal (numberText m.date.year.natAbs)) (45 :: dayText m) :=
        .number ⟨(fun b hb => by cases hb), .inr (.inr rfl)⟩ (JsonUtil.numberText_ne_nil _)
          (fun _ => isDigit_of_mem_numberText) (by simp; decide)
      have hsame := (reads_iff.1 reads).symm.trans (reads_iff.1 hread)
      rw [if_pos rfl, Prod.mk.injEq] at hsame
      obtain ⟨hvalue, -⟩ := hsame
      have : (0 : Int) ≤ decimal (numberText m.date.year.natAbs) := Int.natCast_nonneg _
      simp only at hleast
      omega
    · rintro ⟨hle, -⟩
      omega
  · rw [yearText, if_neg hneg]
    have hcuts : Cuts (⟨4, 45, 1, 2999⟩ :: timestampFormat.tail) (numberText m.date.year.natAbs ++ 45 :: dayText m) ↔ _ :=
      cuts_part (JsonUtil.numberText_ne_nil _) (fun _ => isDigit_of_mem_numberText) rfl
    have h3 := length_numberText_le_iff (n := m.date.year.natAbs) (k := 3) (by decide)
    have h4 := length_numberText_le_iff (n := m.date.year.natAbs) (k := 4) (by decide)
    rw [hcuts, decimal_numberText]
    constructor
    · rintro ⟨hframed, ⟨-, hgreatest⟩, -⟩
      have hlength := ((framed_iff _ [] _).1 hframed).1
      rw [List.length_append, List.length_cons, length_dayText] at hlength
      have h24 : formatLength (⟨4, 45, 1, 2999⟩ :: timestampFormat.tail) = 24 := rfl
      simp only at hgreatest
      omega
    · rintro ⟨hleast, hgreatest⟩
      have hlength : (numberText m.date.year.natAbs).length = 4 := by omega
      refine ⟨.cons hlength trivial (hrest.imp fun _ _ _ => trivial), ⟨?_, ?_⟩, htail.2⟩
      · simp only
        omega
      · simp only
        omega

/-- It fits into the buffer from -999 to 9999. -/
theorem length_isoText_iff (m : Calendar.Moment) :
    (yearText m.date.year ++ 45 :: dayText m).length < mclTimestampLength ↔
      -999 ≤ m.date.year ∧ m.date.year ≤ 9999 := by
  have hlength : (yearText m.date.year ++ 45 :: dayText m).length = (yearText m.date.year).length + 20 := by
    rw [List.length_append, List.length_cons, length_dayText]
  rw [hlength, mclTimestampLength, yearText]
  have h3 := length_numberText_le_iff (n := m.date.year.natAbs) (k := 3) (by decide)
  have h4 := length_numberText_le_iff (n := m.date.year.natAbs) (k := 4) (by decide)
  split_ifs with hneg
  · rw [List.length_cons]
    omega
  · omega

/-! ## The setters -/

/-- What becomes of a count of seconds: a text in the buffer that fits, or a failure. -/
theorem convert_ok_iff (indeterminate : CString) (timeValue : Int) (buffer : CString) :
    (mclTimeUtilConvertToIso8601Format indeterminate timeValue buffer).1 = .ok () ↔
      -999 ≤ (Calendar.utc timeValue).date.year ∧ (Calendar.utc timeValue).date.year ≤ 9999 := by
  rw [mclTimeUtilConvertToIso8601Format, gmtime]
  by_cases hyear : -2 ^ 31 ≤ (tmOf (Calendar.utc timeValue)).year ∧ (tmOf (Calendar.utc timeValue)).year < 2 ^ 31
  · rw [if_pos hyear]
    simp only [strftime, strftimeText_iso]
    have hlength := length_isoText_iff (Calendar.utc timeValue)
    split_ifs with hfits
    · exact ⟨fun _ => hlength.1 hfits, fun _ => rfl⟩
    · exact ⟨(fun h => by cases h), fun h => absurd (hlength.2 h) hfits⟩
  · rw [if_neg hyear]
    simp only [tmOf] at hyear
    constructor
    · intro h
      cases h
    · intro h
      omega

theorem convert_text (indeterminate : CString) (timeValue : Int) (buffer : CString)
    (h : (mclTimeUtilConvertToIso8601Format indeterminate timeValue buffer).1 = .ok ()) :
    (mclTimeUtilConvertToIso8601Format indeterminate timeValue buffer).2 =
      CString.ofBuffer (yearText (Calendar.utc timeValue).date.year ++ 45 :: dayText (Calendar.utc timeValue)) := by
  rw [mclTimeUtilConvertToIso8601Format] at h ⊢
  cases htm : gmtime timeValue with
  | none =>
    rw [htm] at h
    cases h
  | some tm =>
    rw [htm] at h
    simp only at h ⊢
    have heq : tm = tmOf (Calendar.utc timeValue) := by
      rw [gmtime] at htm
      split_ifs at htm
      exact (Option.some.inj htm).symm
    rw [heq, strftime, strftimeText_iso] at h ⊢
    split_ifs at h ⊢ with hfits
    rfl

/-- The counts of seconds whose text the validation accepts or the conversion refuses: the years from 1000 to 2999, and
those before -999 and after 9999. -/
def Agreed (epoch : Int) : Prop :=
  epoch < -93692592000 ∨ (-30610224000 ≤ epoch ∧ epoch < 32503680000) ∨ 253402300800 ≤ epoch

theorem agreed_iff (epoch : Int) :
    Agreed epoch ↔
      (-999 ≤ (Calendar.utc epoch).date.year ∧ (Calendar.utc epoch).date.year ≤ 9999 →
        1000 ≤ (Calendar.utc epoch).date.year ∧ (Calendar.utc epoch).date.year ≤ 2999) := by
  have hm999 := Calendar.le_year_utc_iff (-999) epoch
  have h1000 := Calendar.le_year_utc_iff 1000 epoch
  have h3000 := Calendar.le_year_utc_iff 3000 epoch
  have h10000 := Calendar.le_year_utc_iff 10000 epoch
  have hstarts : Calendar.yearStart (-999) - Calendar.yearStart 1970 = -1084405 ∧
      Calendar.yearStart 1000 - Calendar.yearStart 1970 = -354285 ∧
      Calendar.yearStart 3000 - Calendar.yearStart 1970 = 376200 ∧
      Calendar.yearStart 10000 - Calendar.yearStart 1970 = 2932897 := by decide
  obtain ⟨hs1, hs2, hs3, hs4⟩ := hstarts
  rw [hs1] at hm999
  rw [hs2] at h1000
  rw [hs3] at h3000
  rw [hs4] at h10000
  rw [Agreed]
  omega

/-- What a conversion into a field stores, whatever the object. -/
theorem setsValid_convert_iff {α : Type} (timestamp : α → CString) (store : CString → α)
    (hstore : ∀ text, timestamp (store text) = text) (indeterminate : CString) (epoch : Int) (buffer : CString) :
    SetsValid timestamp
        (stored (stored (mclTimeUtilConvertToIso8601Format indeterminate epoch buffer) store) some) ↔ Agreed epoch := by
  rw [agreed_iff, ← convert_ok_iff indeterminate epoch buffer]
  have htext := convert_text indeterminate epoch buffer
  simp only [SetsValid, stored, Option.some.injEq, exists_eq_left', hstore]
  constructor
  · intro h hok
    rw [← validateTimestamp_isoText, ← htext hok]
    exact h hok
  · intro h hok
    rw [htext hok, validateTimestamp_isoText]
    exact h hok

theorem setsValid_of_null {α : Type} (timestamp : α → CString) (a : Option α) :
    SetsValid timestamp (.error .triggeredWithNull, a) := by
  intro h
  cases h

/-- The text that a setter takes is one that passes. -/
theorem setsValid_iso8601 {α : Type} (timestamp : α → CString) (store : CString → α)
    (hstore : ∀ text, timestamp (store text) = text) (value old : CString) :
    SetsValid timestamp (stored (stored (setTimestampIso8601 value old) store) some) := by
  intro hok
  simp only [stored, setTimestampIso8601] at hok ⊢
  split_ifs at hok ⊢ with hvalid
  exact ⟨_, rfl, by rw [hstore, hvalid]⟩

/-- Set as a text, a timestamp passes, whatever the object and the text. -/
theorem iso8601_setters_valid (allocated : Bool) (indeterminate : CString) (event : Option Event)
    (list : Option TimeseriesValueList) (value : CString) :
    SetsValid Event.timestamp (mclEventSetParameter allocated indeterminate event (some (.timestampIso8601 value))) ∧
      SetsValid TimeseriesValueList.timestamp
        (mclTimeseriesValueListSetParameter indeterminate list (some (.timestampIso8601 value))) := by
  constructor
  · cases event with
    | none => exact setsValid_of_null _ _
    | some event =>
      exact setsValid_iso8601 Event.timestamp (fun timestamp => { event with timestamp }) (fun _ => rfl) _ _
  · cases list with
    | none => exact setsValid_of_null _ _
    | some list =>
      exact setsValid_iso8601 TimeseriesValueList.timestamp (fun timestamp => { list with timestamp })
        (fun _ => rfl) _ _

theorem event_setsValid_iff (allocated : Bool) (indeterminate : CString) (event : Event) (epoch : Int) :
    SetsValid Event.timestamp
        (mclEventSetParameter allocated indeterminate (some event) (some (.timestampEpoch epoch))) ↔ Agreed epoch :=
  setsValid_convert_iff _ (fun timestamp => { event with timestamp }) (fun _ => rfl) _ _ _

theorem list_setsValid_iff (indeterminate : CString) (list : TimeseriesValueList) (epoch : Int) :
    SetsValid TimeseriesValueList.timestamp
        (mclTimeseriesValueListSetParameter indeterminate (some list) (some (.timestampEpoch epoch))) ↔ Agreed epoch :=
  setsValid_convert_iff _ (fun timestamp => { list with timestamp }) (fun _ => rfl) _ _ _

/-- Set as a count of seconds, a timestamp that is accepted passes for these counts and no others. -/
theorem settersAgree_iff (allocated : Bool) (indeterminate : CString) (event : Option Event)
    (list : Option TimeseriesValueList) (epoch : Int) :
    SettersAgree allocated indeterminate event list epoch ↔ (event = none ∧ list = none) ∨ Agreed epoch := by
  rw [SettersAgree]
  cases event with
  | none =>
    cases list with
    | none => simp [mclEventSetParameter, mclTimeseriesValueListSetParameter, setsValid_of_null]
    | some list =>
      rw [list_setsValid_iff]
      simp [mclEventSetParameter, setsValid_of_null]
  | some event =>
    rw [event_setsValid_iff]
    cases list with
    | none => simp [mclTimeseriesValueListSetParameter, setsValid_of_null]
    | some list =>
      rw [list_setsValid_iff]
      simp

/-- A value list as `mcl_timeseries_value_list_initialize` leaves it. -/
def newValueList : TimeseriesValueList := ⟨.empty, .lit ""⟩

/-- The first second of the year 3000. -/
theorem year3000_disagrees : ¬ SettersAgree true (.lit "") none (some newValueList) 32503680000 := by
  rintro ⟨-, hlist⟩
  have hagreed := (list_setsValid_iff _ _ _).1 hlist
  rw [Agreed] at hagreed
  omega

end Timestamp

end MindConnect
