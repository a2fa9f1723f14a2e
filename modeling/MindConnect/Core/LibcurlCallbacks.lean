import MindConnect.Core.Memory
import MindConnect.Core.StringUtil
import Mathlib.Algebra.Ring.Nat

/-!
# What libcurl delivers: the receive callbacks of `http_client_libcurl.c`

| here | there |
| --- | --- |
| `Delivery` | a call of one of the two callbacks, with the `size * count` bytes of `received_data` |
| `Received` | `response_header`, a block for each line, and `response_payload` |
| `responsePayloadCallback` | `_response_payload_callback` (`http_client_libcurl.c:492`) |
| `responseHeaderCallback`, `isEmptyLine` | `_response_header_callback` (`:522`), `_is_empty_line` (`:593`) |

A callback gives back how many bytes it took; libcurl goes on if these are all. The lines end with CRLF or with LF alone,
and the code cuts two characters off every line. Of an LF that is the whole line nothing can be cut off: the block would
have no byte, and the line is refused. A copy that leaves the received data or the block has no outcome.
-/

namespace MindConnect.Libcurl

/-! ## The code -/

inductive Delivery where
  | header (line : Bytes)
  | payload (fragment : Bytes)
deriving DecidableEq, Repr

structure Received where
  headers : List Bytes
  data : Option Bytes
  size : Nat
deriving DecidableEq, Repr

/-- What memory comes to in one call: the block, and the node of the list. -/
structure Outcome where
  allocated : Bool
  added : Bool

/-- A difference of sizes of `w` bits. -/
def sizeSub (w a b : Nat) : Nat := (.ofNat w a - .ofNat w b : BitVec w).toNat

/-- The first `count` bytes, if there are so many. -/
def readBytes (bytes : Bytes) (count : Nat) : Option Bytes :=
  if count ≤ bytes.length then some (bytes.take count) else none

/-- The new count and the bytes taken. A block that could not be resized is lost. -/
def responsePayloadCallback (o : Outcome) (r : Received) (fragment : Bytes) : Option (Received × Nat) :=
  let data :=
    match r.data with
    | some data => mclMemoryRealloc o.allocated data (r.size + fragment.length)
    | none => mclMemoryMalloc o.allocated fragment.length
  match data with
  | none => some ({ r with data := none }, 0)
  | some data => do
    let data ← Bytes.write data r.size fragment
    return ({ r with data := some data, size := r.size + fragment.length }, fragment.length)

def isEmptyLine (header : Bytes) : Bool := header[0]? = some 13 && header[1]? = some 10

def responseHeaderCallback (w : Nat) (o : Outcome) (r : Received) (line : Bytes) : Option (Received × Nat) :=
  if line.length = 2 ∧ isEmptyLine line then some (r, line.length)
  else
    match mclMemoryMalloc o.allocated (sizeSub w line.length 1) with
    | none => some (r, 0)
    | some headerLine => do
      let text ← readBytes line (sizeSub w line.length 2)
      let headerLine ← Bytes.write headerLine 0 text
      let headerLine ← Bytes.write headerLine (sizeSub w line.length 2) [0]
      if o.added then return ({ r with headers := r.headers ++ [headerLine] }, line.length)
      else return (r, 0)

def callback (w : Nat) (o : Outcome) (r : Received) : Delivery → Option (Received × Nat)
  | .header line => responseHeaderCallback w o r line
  | .payload fragment => responsePayloadCallback o r fragment

/-! ## What is to be received -/

def Delivery.bytes : Delivery → Bytes
  | .header line => line
  | .payload fragment => fragment

/-- A line without CRLF, or without the LF alone. -/
def withoutTerminator (line : Bytes) : Bytes :=
  if [13, 10] <:+ line then line.take (line.length - 2) else line.take (line.length - 1)

/-- The block of a line, none if it is empty. -/
def headerOf : Delivery → Option Bytes
  | .header line => if withoutTerminator line = [] then none else some (withoutTerminator line ++ [0])
  | .payload _ => none

def fragmentOf : Delivery → Bytes
  | .header _ => []
  | .payload fragment => fragment

/-- After the deliveries `past`. -/
structure Holds (past : List Delivery) (r : Received) : Prop where
  headers : r.headers = past.filterMap headerOf
  data : r.data.getD [] = past.flatMap fragmentOf
  size : r.size = (past.flatMap fragmentOf).length

/-- With every call there is an outcome, and as long as libcurl goes on everything holds. -/
def Exact (w : Nat) : (Nat → Outcome) → List Delivery → Received → List Delivery → Prop
  | _, _, _, [] => True
  | m, past, r, d :: ds => ∃ r' taken, callback w (m 0) r d = some (r', taken) ∧
      (taken = d.bytes.length → Holds (past ++ [d]) r' ∧ Exact w (fun i => m (i + 1)) (past ++ [d]) r' ds)

/-- Before the first delivery. -/
def Received.initial : Received := ⟨[], none, 0⟩

/-- As libcurl delivers them. -/
def EndsWithLf : Delivery → Prop
  | .header line => [10] <:+ line
  | .payload _ => True

/-! ## What comes out right -/

/-- Lines with CRLF, and no empty fragment after data. Behind a line that is LF alone nothing is delivered. -/
def Clean : Bool → List Delivery → Prop
  | _, [] => True
  | hasData, .header line :: ds => line = [10] ∨ [13, 10] <:+ line ∧ Clean hasData ds
  | hasData, .payload fragment :: ds => (hasData = true → fragment ≠ []) ∧ Clean (hasData || !fragment.isEmpty) ds

/-! ## The payload -/

/-- The block of a payload: none without bytes. -/
def blockOf (payload : Bytes) : Option Bytes := if payload = [] then none else some payload

theorem getD_blockOf (payload : Bytes) : (blockOf payload).getD [] = payload := by
  rw [blockOf]
  split_ifs with h
  · exact h.symm
  · rfl

theorem payload_allocated {past : List Delivery} {r : Received} (hr : Holds past r) {o : Outcome}
    (ho : o.allocated = true) (fragment : Bytes) :
    responsePayloadCallback o r fragment =
      some (⟨r.headers, blockOf (past.flatMap fragmentOf ++ fragment), r.size + fragment.length⟩, fragment.length) := by
  obtain ⟨headers, data, size⟩ := r
  obtain ⟨-, hdata, hsize⟩ := hr
  simp only at hdata hsize
  generalize past.flatMap fragmentOf = received at hdata hsize ⊢
  subst hsize
  simp only [responsePayloadCallback, ho]
  by_cases htotal : received ++ fragment = []
  · -- nothing so far, and nothing is asked for
    obtain ⟨rfl, rfl⟩ := List.append_eq_nil_iff.1 htotal
    cases data with
    | none => rfl
    | some data => rfl
  · have hsize : received.length + fragment.length ≠ 0 := by
      rw [← List.length_append]
      exact fun h => htotal (List.length_eq_zero_iff.1 h)
    have hwrite : Bytes.write (received ++ (List.replicate fragment.length 0 ++ [])) received.length fragment =
        some (received ++ (fragment ++ [])) := Bytes.write_append rfl List.length_replicate
    simp only [List.append_nil] at hwrite
    rw [blockOf, if_neg htotal]
    cases data with
    | none =>
      obtain rfl : [] = received := hdata
      have hfragment : fragment.length ≠ 0 := by simpa using hsize
      simp only [List.nil_append, List.length_nil] at hwrite
      simp only [mclMemoryMalloc_granted hfragment, List.length_nil, hwrite, Option.bind_eq_bind, Option.bind_some,
        Option.pure_def, List.nil_append]
    | some data =>
      obtain rfl : data = received := hdata
      have hblock := mclMemoryRealloc_granted hsize (Nat.le_add_right data.length fragment.length)
      rw [Nat.add_sub_cancel_left] at hblock
      simp only [hblock, hwrite, Option.bind_eq_bind, Option.bind_some, Option.pure_def]

theorem payload_failed {o : Outcome} (ho : o.allocated = false) (r : Received) (fragment : Bytes) :
    responsePayloadCallback o r fragment = some (⟨r.headers, none, r.size⟩, 0) := by
  cases hdata : r.data <;> simp [responsePayloadCallback, ho, hdata]

/-! ## A header line -/

theorem sizeSub_of_le {w a b : Nat} (ha : a < 2 ^ w) (hba : b ≤ a) : sizeSub w a b = a - b := by
  have hle : (.ofNat w b : BitVec w) ≤ .ofNat w a := by
    simpa [BitVec.le_def, Nat.mod_eq_of_lt ha, Nat.mod_eq_of_lt (Nat.lt_of_le_of_lt hba ha)] using hba
  rw [sizeSub, BitVec.toNat_sub_of_le hle, BitVec.toNat_ofNat, BitVec.toNat_ofNat, Nat.mod_eq_of_lt ha,
    Nat.mod_eq_of_lt (Nat.lt_of_le_of_lt hba ha)]

/-- Two characters of the line are cut off, whatever they are. -/
theorem header_eq {w : Nat} {line : Bytes} (hlength : line.length < 2 ^ w) (htwo : 2 ≤ line.length)
    (hline : ¬ (line.length = 2 ∧ isEmptyLine line = true)) (o : Outcome) (r : Received) :
    responseHeaderCallback w o r line =
      if o.allocated = true ∧ o.added = true then
        some ({ r with headers := r.headers ++ [line.take (line.length - 2) ++ [0]] }, line.length)
      else some (r, 0) := by
  have htext : (line.take (line.length - 2)).length = line.length - 2 := by simp
  have hsize : line.length - 1 ≠ 0 := by omega
  have hblock : List.replicate (line.length - 1) (0 : UInt8) = List.replicate (line.length - 2) 0 ++ ([0] ++ []) := by
    have hcount : line.length - 1 = line.length - 2 + 1 := by omega
    rw [List.append_nil, hcount, List.replicate_succ']
  have hcopy : Bytes.write ([] ++ (List.replicate (line.length - 2) 0 ++ ([0] ++ []))) 0 (line.take (line.length - 2)) =
      some ([] ++ (line.take (line.length - 2) ++ ([0] ++ []))) :=
    Bytes.write_append rfl (by rw [List.length_replicate, htext])
  have hterminator : Bytes.write (line.take (line.length - 2) ++ ([0] ++ [])) (line.length - 2) [0] =
      some (line.take (line.length - 2) ++ ([0] ++ [])) := Bytes.write_append htext.symm rfl
  simp only [List.nil_append] at hcopy
  rw [responseHeaderCallback, if_neg hline, sizeSub_of_le hlength htwo, sizeSub_of_le hlength (by omega)]
  cases o.allocated with
  | false => simp
  | true =>
    simp only [mclMemoryMalloc_granted hsize, hblock, readBytes, if_pos (Nat.sub_le _ _), hcopy, hterminator,
      Option.bind_eq_bind, Option.bind_some, Option.pure_def, true_and]
    split_ifs <;> simp

/-- The block of an LF alone would have no byte. -/
theorem header_refused (w : Nat) (o : Outcome) (r : Received) : responseHeaderCallback w o r [10] = some (r, 0) := by
  have hsize : sizeSub w 1 1 = 0 := by simp [sizeSub]
  simp [responseHeaderCallback, hsize]

theorem withoutTerminator_crlf (text : Bytes) : withoutTerminator (text ++ [13, 10]) = text := by
  rw [withoutTerminator, if_pos (List.suffix_append _ _)]
  simp

theorem withoutTerminator_lf {text : Bytes} (h : ¬ [13, 10] <:+ text ++ [10]) : withoutTerminator (text ++ [10]) = text := by
  rw [withoutTerminator, if_neg h]
  simp

theorem Holds.header {past : List Delivery} {r : Received} (hr : Holds past r) {line : Bytes} {headers : List Bytes}
    (hheaders : headers = r.headers ++ (headerOf (.header line)).toList) :
    Holds (past ++ [.header line]) { r with headers := headers } where
  headers := by
    rw [hheaders, hr.headers, List.filterMap_append]
    congr 1
  data := by simpa [fragmentOf] using hr.data
  size := by simpa [fragmentOf] using hr.size

/-- A line with CRLF is taken whole, or the transfer ends. -/
theorem header_crlf {w : Nat} {line : Bytes} (hlength : line.length < 2 ^ w) (hcrlf : [13, 10] <:+ line)
    {past : List Delivery} {r : Received} (hr : Holds past r) (o : Outcome) :
    ∃ r' taken, responseHeaderCallback w o r line = some (r', taken) ∧
      (taken = line.length → Holds (past ++ [.header line]) r') ∧
      (o.allocated = true → o.added = true → taken = line.length) := by
  obtain ⟨text, rfl⟩ := hcrlf
  have hsize : (text ++ [13, 10]).length = text.length + 2 := List.length_append
  by_cases hline : (text ++ [13, 10]).length = 2 ∧ isEmptyLine (text ++ [13, 10]) = true
  · obtain rfl : text = [] := List.eq_nil_of_length_eq_zero (by omega)
    refine ⟨r, 2, by rw [responseHeaderCallback, if_pos hline]; rfl, fun _ => ?_, fun _ _ => rfl⟩
    exact hr.header (by simp [headerOf, withoutTerminator])
  · rw [header_eq hlength (by omega) hline]
    have htext : text ≠ [] := by
      rintro rfl
      exact hline ⟨rfl, rfl⟩
    split_ifs with ho
    · refine ⟨_, _, rfl, fun _ => ?_, fun _ _ => rfl⟩
      apply hr.header
      simp [headerOf, withoutTerminator_crlf, htext]
    · refine ⟨_, _, rfl, fun htaken => ?_, fun hallocated hadded => absurd ⟨hallocated, hadded⟩ ho⟩
      omega

/-- A longer line with LF alone loses its last character. -/
theorem header_lf {w : Nat} {line : Bytes} (hlength : line.length < 2 ^ w) (hlf : [10] <:+ line) (halone : line ≠ [10])
    (hcrlf : ¬ [13, 10] <:+ line) {past : List Delivery} {r : Received} (hr : Holds past r) {o : Outcome}
    (hallocated : o.allocated = true) (hadded : o.added = true) :
    ¬ ∃ r' taken, responseHeaderCallback w o r line = some (r', taken) ∧
      (taken = line.length → Holds (past ++ [.header line]) r') := by
  obtain ⟨text, rfl⟩ := hlf
  have hsize : (text ++ [10]).length = text.length + 1 := List.length_append
  have htext : text ≠ [] := by
    rintro rfl
    exact halone rfl
  have hpos := List.length_pos_iff.2 htext
  rintro ⟨r', taken, hcallback, hholds⟩
  have hline : ¬ ((text ++ [10]).length = 2 ∧ isEmptyLine (text ++ [10]) = true) := by
    rintro ⟨htwo, hempty⟩
    obtain ⟨c, rfl⟩ := List.length_eq_one_iff.1 (by omega : text.length = 1)
    simp only [isEmptyLine, Bool.and_eq_true, decide_eq_true_eq] at hempty
    obtain ⟨hcr, -⟩ := hempty
    cases hcr
    exact hcrlf (List.suffix_refl _)
  rw [header_eq hlength (by omega) hline, if_pos ⟨hallocated, hadded⟩] at hcallback
  cases hcallback
  have hheaders := (hholds rfl).headers
  have hlast : headerOf (.header (text ++ [10])) = some (text ++ [0]) := by
    simp [headerOf, withoutTerminator_lf hcrlf, htext]
  simp only [hr.headers, List.filterMap_append, List.filterMap_cons, List.filterMap_nil, hlast,
    List.append_cancel_left_eq, List.cons.injEq, and_true, List.append_cancel_right_eq] at hheaders
  have hlost := congrArg List.length hheaders
  rw [List.length_take] at hlost
  omega

/-! ## Every delivery -/

def hasData (past : List Delivery) : Bool := !(past.flatMap fragmentOf).isEmpty

theorem hasData_append (past : List Delivery) (d : Delivery) :
    hasData (past ++ [d]) = (hasData past || !(fragmentOf d).isEmpty) := by
  rw [hasData, hasData, List.flatMap_append, List.flatMap_singleton]
  cases past.flatMap fragmentOf with
  | nil => simp
  | cons b bs => simp

theorem filterMap_payload (past : List Delivery) (fragment : Bytes) :
    (past ++ [Delivery.payload fragment]).filterMap headerOf = past.filterMap headerOf := by
  rw [List.filterMap_append, List.filterMap_cons_none rfl, List.filterMap_nil, List.append_nil]

theorem Holds.payload {past : List Delivery} {r : Received} (hr : Holds past r) (fragment : Bytes) :
    Holds (past ++ [.payload fragment])
      ⟨r.headers, blockOf (past.flatMap fragmentOf ++ fragment), r.size + fragment.length⟩ where
  headers := by rw [filterMap_payload, hr.headers]
  data := by
    rw [getD_blockOf]
    simp [fragmentOf]
  size := by simp [fragmentOf, hr.size]

/-- An empty fragment whose block cannot be resized is taken all the same. -/
theorem Holds.lost {past : List Delivery} {r : Received} (hr : Holds past r) :
    Holds (past ++ [.payload []]) ⟨r.headers, none, r.size⟩ ↔ hasData past = false := by
  have hdata : hasData past = false ↔ past.flatMap fragmentOf = [] := by simp [hasData]
  rw [hdata]
  constructor
  · intro h
    have hnone := h.data.symm
    rw [List.flatMap_append] at hnone
    exact (List.append_eq_nil_iff.1 hnone).1
  · intro h
    exact ⟨by rw [filterMap_payload, hr.headers], by simp [fragmentOf, h], by simpa [fragmentOf] using hr.size⟩

/-- What memory comes to when there is enough. -/
def plenty : Outcome := ⟨true, true⟩

/-- One delivery, for all that memory may come to. -/
theorem step_iff {w : Nat} {d : Delivery} (hlength : d.bytes.length < 2 ^ w) (hlf : EndsWithLf d)
    (htaken : d ≠ .header [10]) {past : List Delivery} {r : Received} (hr : Holds past r) :
    (∀ o, ∃ r' taken, callback w o r d = some (r', taken) ∧ (taken = d.bytes.length → Holds (past ++ [d]) r')) ↔
      Clean (hasData past) [d] := by
  cases d with
  | header line =>
    have halone : line ≠ [10] := fun h => htaken (h ▸ rfl)
    simp only [Clean, and_true, or_iff_right halone]
    constructor
    · intro h
      by_contra hcrlf
      exact header_lf hlength hlf halone hcrlf hr rfl rfl (h plenty)
    · intro hcrlf o
      obtain ⟨r', taken, hcallback, hholds, -⟩ := header_crlf hlength hcrlf hr o
      exact ⟨r', taken, hcallback, hholds⟩
  | payload fragment =>
    simp only [Clean, and_true]
    constructor
    · rintro h hdata rfl
      obtain ⟨r', taken, hcallback, hholds⟩ := h ⟨false, true⟩
      rw [callback, payload_failed rfl] at hcallback
      cases hcallback
      rw [hr.lost.1 (hholds rfl)] at hdata
      cases hdata
    · intro hclean o
      cases ho : o.allocated with
      | true => exact ⟨_, _, payload_allocated hr ho fragment, fun _ => hr.payload fragment⟩
      | false =>
        refine ⟨_, _, payload_failed ho r fragment, fun htaken => ?_⟩
        obtain rfl : fragment = [] := List.eq_nil_of_length_eq_zero htaken.symm
        rw [hr.lost]
        by_contra hdata
        exact hclean (by simpa using hdata) rfl

/-- With enough memory libcurl goes on. -/
theorem step_plenty {w : Nat} {d : Delivery} (hlength : d.bytes.length < 2 ^ w) (htaken : d ≠ .header [10])
    {past : List Delivery} {r : Received} (hr : Holds past r) (hclean : Clean (hasData past) [d]) :
    ∃ r', callback w plenty r d = some (r', d.bytes.length) ∧ Holds (past ++ [d]) r' := by
  cases d with
  | header line =>
    obtain ⟨hcrlf, -⟩ := hclean.resolve_left fun h => htaken (h ▸ rfl)
    obtain ⟨r', taken, hcallback, hholds, htaken⟩ := header_crlf hlength hcrlf hr plenty
    obtain rfl := htaken rfl rfl
    exact ⟨r', hcallback, hholds rfl⟩
  | payload fragment => exact ⟨_, payload_allocated hr rfl fragment, hr.payload fragment⟩

theorem clean_cons (b : Bool) {d : Delivery} (htaken : d ≠ .header [10]) (ds : List Delivery) :
    Clean b (d :: ds) ↔ Clean b [d] ∧ Clean (b || !(fragmentOf d).isEmpty) ds := by
  cases d with
  | header line =>
    have halone : line ≠ [10] := fun h => htaken (h ▸ rfl)
    simp [Clean, fragmentOf, halone]
  | payload fragment => simp [Clean, fragmentOf]

/-- The outcomes of a run whose first one is `o`. -/
def outcomes (o : Outcome) (m : Nat → Outcome) : Nat → Outcome
  | 0 => o
  | i + 1 => m i

/-- Where an LF alone is delivered the transfer ends, and what was received before it stays as it was. -/
theorem exact_refused (w : Nat) (m : Nat → Outcome) (past : List Delivery) (r : Received) (ds : List Delivery) :
    Exact w m past r (.header [10] :: ds) :=
  ⟨r, 0, header_refused w (m 0) r, fun h => absurd h (by simp [Delivery.bytes])⟩

theorem exact_iff {w : Nat} {ds : List Delivery} (hlength : ∀ d ∈ ds, d.bytes.length < 2 ^ w)
    (hlf : ∀ d ∈ ds, EndsWithLf d) {past : List Delivery} {r : Received} (hr : Holds past r) :
    (∀ m, Exact w m past r ds) ↔ Clean (hasData past) ds := by
  induction ds generalizing past r with
  | nil => exact iff_of_true (fun _ => trivial) trivial
  | cons d ds ih =>
    rw [List.forall_mem_cons] at hlength hlf
    by_cases htaken : d = .header [10]
    · subst htaken
      exact iff_of_true (fun m => exact_refused w m past r ds) (.inl rfl)
    rw [clean_cons _ htaken, ← hasData_append, ← step_iff hlength.1 hlf.1 htaken hr]
    constructor
    · intro h
      have hstep : ∀ o, ∃ r' taken, callback w o r d = some (r', taken) ∧
          (taken = d.bytes.length → Holds (past ++ [d]) r') := by
        intro o
        obtain ⟨r', taken, hcallback, hholds⟩ := h (outcomes o fun _ => plenty)
        exact ⟨r', taken, hcallback, fun htaken => (hholds htaken).1⟩
      refine ⟨hstep, ?_⟩
      obtain ⟨r', hcallback, hr'⟩ :=
        step_plenty hlength.1 htaken hr ((step_iff hlength.1 hlf.1 htaken hr).1 hstep)
      rw [← ih hlength.2 hlf.2 hr']
      intro m
      obtain ⟨r'', taken, hcallback', hholds⟩ := h (outcomes plenty m)
      rw [outcomes, hcallback] at hcallback'
      cases hcallback'
      exact (hholds rfl).2
    · rintro ⟨hstep, hrest⟩ m
      obtain ⟨r', taken, hcallback, hholds⟩ := hstep (m 0)
      refine ⟨r', taken, hcallback, fun htaken => ⟨hholds htaken, ?_⟩⟩
      exact (ih hlength.2 hlf.2 (hholds htaken)).2 hrest _

/-- For every run of deliveries and all that memory may come to, the callbacks are exact if and only if, up to the first
line that is LF alone, each header line ends with CRLF and no empty fragment comes after data. -/
theorem callbacks_exact_iff (w : Nat) (ds : List Delivery) (hlength : ∀ d ∈ ds, d.bytes.length < 2 ^ w)
    (hlf : ∀ d ∈ ds, EndsWithLf d) : (∀ m, Exact w m [] .initial ds) ↔ Clean false ds :=
  exact_iff hlength hlf ⟨rfl, rfl, rfl⟩

theorem crlfLines_exact_iff :
    (∀ m, Exact 64 m [] .initial [.header (ascii "A: b\r\n"), .header (ascii "\r\n"), .payload (ascii "x")]) ↔
      Clean false [.header (ascii "A: b\r\n"), .header (ascii "\r\n"), .payload (ascii "x")] := by
  refine callbacks_exact_iff 64 _ (by decide) ?_
  simp only [List.forall_mem_cons]
  exact ⟨⟨ascii "A: b\r", rfl⟩, ⟨ascii "\r", rfl⟩, trivial, List.forall_mem_nil _⟩

/-- A line with LF alone loses its last character. -/
theorem lfLine_not_exact : ¬ ∀ m, Exact 64 m [] .initial [.header (ascii "A: b\n")] := by
  have hlf : ∀ d ∈ [Delivery.header (ascii "A: b\n")], EndsWithLf d := by
    simp only [List.forall_mem_singleton]
    exact ⟨ascii "A: b", rfl⟩
  have hnot : ¬ (ascii "A: b\n" = [10] ∨ [13, 10] <:+ ascii "A: b\n") := by decide
  rw [exact_iff (by decide) hlf ⟨rfl, rfl, rfl⟩]
  exact fun hclean => hnot (hclean.imp_right And.left)

end MindConnect.Libcurl
