import MindConnect.Lib.Scan

/-!
# HTTP/1.1 requests

A reference parser for one request: the request line, header fields up to the empty line, and the body under
the framing that the fields name. A field's value is without the blanks around it. `Chunked` is the grammar of
chunked bodies without extensions and trailers, which the parser decodes.
-/

namespace Http1

def crlf : Bytes := [13, 10]

/-! ## Lines and fields -/

/-- The line before the first CRLF and what follows it. -/
def splitLine : Bytes → Option (Bytes × Bytes)
  | [] => none
  | 13 :: 10 :: rest => some ([], rest)
  | b :: rest => (splitLine rest).map fun r => (b :: r.1, r.2)

/-- What is before the first `sep` and what is behind it. -/
def splitAt (sep : UInt8) : Bytes → Option (Bytes × Bytes)
  | [] => none
  | b :: rest => if b = sep then some ([], rest) else (splitAt sep rest).map fun r => (b :: r.1, r.2)

def isBlank (b : UInt8) : Bool := b == 32 || b == 9

def trim (s : Bytes) : Bytes := ((s.dropWhile isBlank).reverse.dropWhile isBlank).reverse

def isLetter (b : UInt8) : Bool := (65 ≤ b && b ≤ 90) || (97 ≤ b && b ≤ 122)

/-- `tchar` -/
def isTokenByte (b : UInt8) : Bool :=
  isLetter b || (48 ≤ b && b ≤ 57) || (ascii "!#$%&'*+-.^_\x60|~").contains b

def isToken (s : Bytes) : Bool := s != [] && s.all isTokenByte

/-- No NUL and nothing that could end a line. -/
def isText (s : Bytes) : Bool := s.all fun b => b != 0 && b != 10 && b != 13

def parseField (line : Bytes) : Option (Bytes × Bytes) := do
  let (name, value) ← splitAt 58 line
  if isToken name && isText value then return (name, trim value) else none

/-- Fields up to the empty line; at most `fuel` lines. -/
def parseFields : Nat → Bytes → Option (List (Bytes × Bytes) × Bytes)
  | 0, _ => none
  | fuel + 1, s => do
    let (line, rest) ← splitLine s
    if line = [] then return ([], rest)
    else do
      let field ← parseField line
      let (fields, rest) ← parseFields fuel rest
      return (field :: fields, rest)

/-! ## Framing -/

def lower (b : UInt8) : UInt8 := if 65 ≤ b && b ≤ 90 then b + 32 else b

/-- Equal up to the case of letters. -/
def same (s t : Bytes) : Bool := s.map lower == t.map lower

inductive Framing where
  | chunked | contentLength (size : Nat) | none
deriving DecidableEq, Repr

def parseNumber (s : Bytes) : Option Nat :=
  if s != [] && s.all (Scan.isDigit 10) then some (Scan.value 10 s) else Option.none

theorem parseNumber_eq_some {s : Bytes} {size : Nat} :
    parseNumber s = some size ↔ (s ≠ [] ∧ ∀ b ∈ s, Scan.isDigit 10 b = true) ∧ Scan.value 10 s = size := by
  simp only [parseNumber, Option.ite_none_right_eq_some, Option.some.injEq, Bool.and_eq_true, bne_iff_ne,
    List.all_eq_true]

/-- The values of the fields of a name. -/
def valuesOf (name : Bytes) (fields : List (Bytes × Bytes)) : List Bytes :=
  (fields.filter fun field => same field.1 name).map Prod.snd

/-- `Transfer-Encoding` overrides `Content-Length`. -/
def framing (fields : List (Bytes × Bytes)) : Framing :=
  if (valuesOf (ascii "Transfer-Encoding") fields).any (same (ascii "chunked")) then .chunked
  else
    match (valuesOf (ascii "Content-Length") fields).head?.bind parseNumber with
    | some size => .contentLength size
    | Option.none => .none

/-! ## Bodies -/

def isHex (digits : Bytes) : Bool := digits != [] && digits.all (Scan.isDigit 16)

/-- Chunks up to the one of size 0, its trailers and the empty line; at most `fuel` chunks. -/
def decodeChunked : Nat → Bytes → Option (Bytes × Bytes)
  | 0, _ => none
  | fuel + 1, s => do
    let (line, rest) ← splitLine s
    let digits := line.takeWhile (· != 59)
    if isHex digits then
      let size := Scan.value 16 digits
      if size = 0 then do
        let (_, rest) ← parseFields (rest.length + 1) rest
        return ([], rest)
      else if rest.length < size then none
      else do
        let rest' ← Scan.literal crlf (rest.drop size)
        let (payload, rest'') ← decodeChunked fuel rest'
        return (rest.take size ++ payload, rest'')
    else none

def parseBody (fields : List (Bytes × Bytes)) (s : Bytes) : Option (Bytes × Bytes) :=
  match framing fields with
  | .chunked => decodeChunked (s.length + 1) s
  | .contentLength size => if s.length < size then none else some (s.take size, s.drop size)
  | .none => some ([], s)

/-! ## Requests -/

structure Request where
  method : Bytes
  target : Bytes
  fields : List (Bytes × Bytes)
  body : Bytes
deriving DecidableEq, Repr

def parseRequestLine (line : Bytes) : Option (Bytes × Bytes) := do
  let (method, rest) ← splitAt 32 line
  let (target, version) ← splitAt 32 rest
  if isToken method && target != [] && isText target && version == ascii "HTTP/1.1" then return (method, target)
  else none

/-- One request and what follows it. -/
def parseRequest (s : Bytes) : Option (Request × Bytes) := do
  let (line, rest) ← splitLine s
  let (method, target) ← parseRequestLine line
  let (fields, rest) ← parseFields (rest.length + 1) rest
  let (body, rest) ← parseBody fields rest
  return (⟨method, target, fields, body⟩, rest)

/-! ## Reading what was written -/

theorem splitLine_append {line : Bytes} (h : 13 ∉ line) (rest : Bytes) :
    splitLine (line ++ (crlf ++ rest)) = some (line, rest) := by
  induction line with
  | nil => rfl
  | cons b line ih =>
    obtain ⟨hb, hline⟩ := not_or.1 (mt List.mem_cons.2 h)
    have hstep : splitLine (b :: (line ++ (crlf ++ rest))) =
        (splitLine (line ++ (crlf ++ rest))).map fun r => (b :: r.1, r.2) := by
      rw [splitLine]
      rintro rest' rfl
      exact absurd rfl hb
    rw [List.cons_append, hstep, ih hline]
    rfl

theorem splitAt_append {sep : UInt8} {s : Bytes} (h : sep ∉ s) (rest : Bytes) :
    splitAt sep (s ++ sep :: rest) = some (s, rest) := by
  induction s with
  | nil => rw [List.nil_append, splitAt, if_pos rfl]
  | cons b s ih =>
    obtain ⟨hb, hs⟩ := not_or.1 (mt List.mem_cons.2 h)
    rw [List.cons_append, splitAt, if_neg (Ne.symm hb), ih hs]
    rfl

theorem not_mem_of_isToken {name : Bytes} (h : isToken name = true) {b : UInt8} (hb : isTokenByte b = false) :
    b ∉ name := by
  intro hmem
  simp only [isToken, Bool.and_eq_true, List.all_eq_true] at h
  rw [h.2 b hmem] at hb
  cases hb

theorem trim_cons_blank {b : UInt8} (hb : isBlank b = true) (s : Bytes) : trim (b :: s) = trim s := by
  rw [trim, List.dropWhile_cons_of_pos hb, trim]

/-- A field's line, as it is usually written. -/
def fieldLine (field : Bytes × Bytes) : Bytes := field.1 ++ (ascii ": " ++ field.2)

/-- A field that can be written on a line of its own. -/
structure WellFormed (field : Bytes × Bytes) : Prop where
  token : isToken field.1 = true
  text : isText field.2 = true

theorem not_mem_of_isText {s : Bytes} (h : isText s = true) : 13 ∉ s := by
  intro hmem
  have := List.all_eq_true.1 h 13 hmem
  cases this

theorem parseField_fieldLine {field : Bytes × Bytes} (h : WellFormed field) :
    parseField (fieldLine field) = some (field.1, trim field.2) := by
  have hsplit := splitAt_append (not_mem_of_isToken h.token (by decide : isTokenByte 58 = false)) (32 :: field.2)
  have htrim : trim (32 :: field.2) = trim field.2 := trim_cons_blank (by decide) field.2
  show (splitAt 58 (field.1 ++ 58 :: 32 :: field.2)).bind _ = _
  have htext : isText (32 :: field.2) = true := h.text
  rw [hsplit, Option.bind_some]
  simp only [h.token, htext, htrim, Bool.and_self, if_true]
  rfl

theorem not_mem_fieldLine {field : Bytes × Bytes} (h : WellFormed field) : 13 ∉ fieldLine field := by
  simp only [fieldLine, List.mem_append, not_or]
  exact ⟨not_mem_of_isToken h.token (by decide), by decide, not_mem_of_isText h.text⟩

theorem fieldLine_ne_nil (field : Bytes × Bytes) : fieldLine field ≠ [] := by
  refine List.append_ne_nil_of_right_ne_nil _ (List.append_ne_nil_of_left_ne_nil ?_ _)
  decide

/-- Fields written line by line are read back, without the blanks around their values. -/
theorem parseFields_append {fields : List (Bytes × Bytes)} (h : ∀ field ∈ fields, WellFormed field) {fuel : Nat}
    (hfuel : fields.length < fuel) (rest : Bytes) :
    parseFields fuel ((fields.flatMap fun field => fieldLine field ++ crlf) ++ (crlf ++ rest)) =
      some (fields.map fun field => (field.1, trim field.2), rest) := by
  induction fields generalizing fuel with
  | nil =>
    obtain ⟨fuel, rfl⟩ := Nat.exists_eq_succ_of_ne_zero (by omega : fuel ≠ 0)
    rfl
  | cons field fields ih =>
    obtain ⟨fuel, rfl⟩ := Nat.exists_eq_succ_of_ne_zero (by omega : fuel ≠ 0)
    have hfield := h field List.mem_cons_self
    have hrest := ih (fun f hf => h f (List.mem_cons_of_mem field hf)) (Nat.lt_of_succ_lt_succ hfuel)
    rw [List.flatMap_cons, List.append_assoc, List.append_assoc, parseFields,
      splitLine_append (not_mem_fieldLine hfield)]
    simp only [bind, Option.bind, if_neg (fieldLine_ne_nil field), parseField_fieldLine hfield, hrest]
    rfl

theorem trim_of_no_blank {s : Bytes} (h : ∀ b ∈ s, isBlank b = false) : trim s = s := by
  have hdrop : ∀ t : Bytes, (∀ b ∈ t, isBlank b = false) → t.dropWhile isBlank = t := by
    intro t ht
    cases t with
    | nil => rfl
    | cons b t => rw [List.dropWhile_cons_of_neg (by simp [ht b List.mem_cons_self])]
  rw [trim, hdrop s h, hdrop s.reverse fun b hb => h b (List.mem_reverse.1 hb), List.reverse_reverse]

/-- What `trim` takes away on either side are blanks. -/
theorem trim_spec (s : Bytes) :
    ∃ before after, s = before ++ (trim s ++ after) ∧ (∀ b ∈ before, isBlank b = true) ∧
      ∀ b ∈ after, isBlank b = true := by
  refine ⟨s.takeWhile isBlank, ((s.dropWhile isBlank).reverse.takeWhile isBlank).reverse, ?_,
    fun b hb => List.mem_takeWhile_imp hb, fun b hb => List.mem_takeWhile_imp (List.mem_reverse.1 hb)⟩
  rw [trim, ← List.reverse_append, List.takeWhile_append_dropWhile, List.reverse_reverse,
    List.takeWhile_append_dropWhile]

theorem valuesOf_append (name : Bytes) (fields fields' : List (Bytes × Bytes)) :
    valuesOf name (fields ++ fields') = valuesOf name fields ++ valuesOf name fields' := by
  rw [valuesOf, List.filter_append, List.map_append, valuesOf, valuesOf]

theorem valuesOf_eq_nil {name : Bytes} {fields : List (Bytes × Bytes)} (h : ∀ field ∈ fields, same field.1 name = false) :
    valuesOf name fields = [] := by
  rw [valuesOf, List.filter_eq_nil_iff.2 fun field hfield => Bool.eq_false_iff.1 (h field hfield)]
  rfl

/-- Fields that say nothing about the framing. -/
def NoFraming (fields : List (Bytes × Bytes)) : Prop :=
  ∀ field ∈ fields, same field.1 (ascii "Transfer-Encoding") = false ∧ same field.1 (ascii "Content-Length") = false

theorem framing_append {fields : List (Bytes × Bytes)} (h : NoFraming fields) (fields' : List (Bytes × Bytes)) :
    framing (fields ++ fields') = framing fields' := by
  simp only [framing, valuesOf_append, valuesOf_eq_nil fun f hf => (h f hf).1,
    valuesOf_eq_nil fun f hf => (h f hf).2, List.nil_append]

theorem framing_of_noFraming {fields : List (Bytes × Bytes)} (h : NoFraming fields) : framing fields = .none := by
  have := framing_append h []
  rw [List.append_nil] at this
  rw [this]
  decide

theorem parseRequestLine_append {method target : Bytes} (hmethod : isToken method = true) (hne : target ≠ [])
    (htarget : 32 ∉ target) (htext : isText target = true) :
    parseRequestLine (method ++ (ascii " " ++ (target ++ ascii " HTTP/1.1"))) = some (method, target) := by
  have h1 := splitAt_append (not_mem_of_isToken hmethod (by decide : isTokenByte 32 = false))
    (target ++ ascii " HTTP/1.1")
  have h2 := splitAt_append htarget (ascii "HTTP/1.1")
  show (splitAt 32 (method ++ 32 :: (target ++ ascii " HTTP/1.1"))).bind _ = _
  rw [h1, Option.bind_some]
  show (splitAt 32 (target ++ 32 :: ascii "HTTP/1.1")).bind _ = _
  rw [h2, Option.bind_some]
  simp only [hmethod, bne_iff_ne.2 hne, htext, beq_self_eq_true, Bool.and_self, if_true]
  rfl

/-- Chunked bodies without extensions and trailers; `fits` restricts how long a size is written. -/
inductive Chunked (fits : Nat → Prop) : Bytes → Bytes → Prop
  | last {digits : Bytes} (hhex : isHex digits = true) (hfits : fits digits.length)
      (hzero : Scan.value 16 digits = 0) : Chunked fits (digits ++ (crlf ++ crlf)) []
  | chunk {digits data text payload : Bytes} (hhex : isHex digits = true) (hfits : fits digits.length)
      (hsize : Scan.value 16 digits = data.length) (hdata : data ≠ []) (rest : Chunked fits text payload) :
      Chunked fits (digits ++ (crlf ++ (data ++ (crlf ++ text)))) (data ++ payload)

theorem isDigit_of_isHex {digits : Bytes} (h : isHex digits = true) :
    digits ≠ [] ∧ ∀ b ∈ digits, Scan.isDigit 16 b = true := by
  simp only [isHex, Bool.and_eq_true, bne_iff_ne, List.all_eq_true] at h
  exact h

theorem not_mem_of_isHex {digits : Bytes} (h : isHex digits = true) {b : UInt8}
    (hb : Scan.isDigit 16 b = false) : b ∉ digits := by
  intro hmem
  rw [(isDigit_of_isHex h).2 b hmem] at hb
  cases hb

theorem takeWhile_of_isHex {digits : Bytes} (h : isHex digits = true) : digits.takeWhile (· != 59) = digits := by
  apply List.takeWhile_eq_self_iff.2
  intro b hb
  refine bne_iff_ne.2 ?_
  rintro rfl
  exact not_mem_of_isHex h (by decide) hb

/-- The parser decodes every such body, whatever follows it. -/
theorem decodeChunked_append {fits : Nat → Prop} {text payload : Bytes} (h : Chunked fits text payload) {fuel : Nat}
    (hfuel : text.length ≤ fuel) (rest : Bytes) : decodeChunked fuel (text ++ rest) = some (payload, rest) := by
  induction h generalizing fuel with
  | @last digits hhex _ hzero =>
    obtain ⟨fuel, rfl⟩ : ∃ k, fuel = k + 1 :=
      ⟨fuel - 1, by simp only [List.length_append, crlf, List.length_cons] at hfuel; omega⟩
    have hsplit := splitLine_append (not_mem_of_isHex hhex (by decide : Scan.isDigit 16 13 = false)) (crlf ++ rest)
    rw [List.append_assoc, List.append_assoc, decodeChunked, hsplit]
    simp only [bind, Option.bind, takeWhile_of_isHex hhex, hhex, if_true, hzero]
    rfl
  | @chunk digits data text payload hhex _ hsize hdata _ ih =>
    obtain ⟨fuel, rfl⟩ : ∃ k, fuel = k + 1 :=
      ⟨fuel - 1, by simp only [List.length_append, crlf, List.length_cons] at hfuel; omega⟩
    have hsplit := splitLine_append (not_mem_of_isHex hhex (by decide : Scan.isDigit 16 13 = false))
      (data ++ (crlf ++ (text ++ rest)))
    have hrest := ih (show text.length ≤ fuel by
      simp only [List.length_append, crlf, List.length_cons] at hfuel
      omega)
    have hlen : ¬ (data ++ (crlf ++ (text ++ rest))).length < data.length := by
      rw [List.length_append]
      omega
    have hne : data.length ≠ 0 := fun h => hdata (List.length_eq_zero_iff.1 h)
    have htext : digits ++ (crlf ++ (data ++ (crlf ++ text))) ++ rest =
        digits ++ (crlf ++ (data ++ (crlf ++ (text ++ rest)))) := by
      simp only [List.append_assoc]
    rw [htext, decodeChunked, hsplit]
    simp only [bind, Option.bind, takeWhile_of_isHex hhex, hhex, if_true, hsize, if_neg hne, if_neg hlen,
      List.drop_left, List.take_left, Scan.literal_append, hrest]
    rfl

/-! ## Requests that were cut off -/

theorem splitLine_extend {s line rest : Bytes} (h : splitLine s = some (line, rest)) (more : Bytes) :
    splitLine (s ++ more) = some (line, rest ++ more) := by
  fun_induction splitLine s generalizing line rest with
  | case1 => cases h
  | case2 s =>
    cases h
    rfl
  | case3 b s hne ih =>
    obtain ⟨⟨line', rest'⟩, hline, heq⟩ := Option.map_eq_some_iff.1 h
    cases heq
    have hstep : splitLine (b :: (s ++ more)) = (splitLine (s ++ more)).map fun r => (b :: r.1, r.2) := by
      rw [splitLine]
      rintro rest' rfl hs
      cases s with
      | nil => cases hline
      | cons c s =>
        obtain ⟨rfl, -⟩ := List.cons.inj hs
        exact hne s rfl rfl
    rw [List.cons_append, hstep, ih hline]
    rfl

theorem parseFields_extend {fuel fuel' : Nat} (hfuel : fuel ≤ fuel') {s rest : Bytes} {fields : List (Bytes × Bytes)}
    (h : parseFields fuel s = some (fields, rest)) (more : Bytes) :
    parseFields fuel' (s ++ more) = some (fields, rest ++ more) := by
  induction fuel generalizing fuel' s fields with
  | zero => cases h
  | succ fuel ih =>
    obtain ⟨fuel', rfl⟩ := Nat.exists_eq_succ_of_ne_zero (by omega : fuel' ≠ 0)
    obtain ⟨⟨line, s'⟩, hline, h⟩ := Option.bind_eq_some_iff.1 h
    rw [parseFields, splitLine_extend hline]
    simp only [bind, Option.bind_some] at h ⊢
    by_cases hempty : line = []
    · rw [if_pos hempty] at h ⊢
      cases h
      rfl
    · rw [if_neg hempty] at h ⊢
      obtain ⟨field, hfield, h⟩ := Option.bind_eq_some_iff.1 h
      obtain ⟨⟨fields', rest'⟩, hfields, h⟩ := Option.bind_eq_some_iff.1 h
      cases h
      rw [hfield, Option.bind_some, ih (Nat.le_of_succ_le_succ hfuel) hfields]
      rfl

theorem literal_extend {text s rest : Bytes} (h : Scan.literal text s = some rest) (more : Bytes) :
    Scan.literal text (s ++ more) = some (rest ++ more) := by
  rw [Scan.literal] at h
  split_ifs at h with hpre
  obtain ⟨s, rfl⟩ := hpre
  rw [List.drop_left] at h
  cases h
  rw [List.append_assoc, Scan.literal_append]

theorem decodeChunked_extend {fuel fuel' : Nat} (hfuel : fuel ≤ fuel') {s payload rest : Bytes}
    (h : decodeChunked fuel s = some (payload, rest)) (more : Bytes) :
    decodeChunked fuel' (s ++ more) = some (payload, rest ++ more) := by
  induction fuel generalizing fuel' s payload with
  | zero => cases h
  | succ fuel ih =>
    obtain ⟨fuel', rfl⟩ := Nat.exists_eq_succ_of_ne_zero (by omega : fuel' ≠ 0)
    obtain ⟨⟨line, s'⟩, hline, h⟩ := Option.bind_eq_some_iff.1 h
    rw [decodeChunked, splitLine_extend hline]
    simp only [bind, Option.bind_some] at h ⊢
    split_ifs at h ⊢ with hhex hzero hmore hshort hshort
    · obtain ⟨⟨fields, rest'⟩, hfields, h⟩ := Option.bind_eq_some_iff.1 h
      cases h
      rw [parseFields_extend (by rw [List.length_append]; omega) hfields]
      rfl
    · rw [List.length_append] at hmore
      omega
    · obtain ⟨s'', hcrlf, h⟩ := Option.bind_eq_some_iff.1 h
      obtain ⟨⟨payload', rest'⟩, hrest, h⟩ := Option.bind_eq_some_iff.1 h
      cases h
      have hsize := Nat.le_of_not_lt hshort
      rw [List.drop_append_of_le_length hsize, literal_extend hcrlf, Option.bind_some,
        ih (Nat.le_of_succ_le_succ hfuel) hrest, List.take_append_of_le_length hsize]
      rfl

theorem parseBody_extend {fields : List (Bytes × Bytes)} {s body rest : Bytes}
    (h : parseBody fields s = some (body, rest)) (more : Bytes) :
    parseBody fields (s ++ more) = some (body, rest ++ more) := by
  unfold parseBody at h ⊢
  split at h
  · exact decodeChunked_extend (by rw [List.length_append]; omega) h more
  · split_ifs at h with hshort
    cases h
    have hsize := Nat.le_of_not_lt hshort
    rw [if_neg (by rw [List.length_append]; omega), List.take_append_of_le_length hsize,
      List.drop_append_of_le_length hsize]
  · cases h
    rfl

/-- What follows a request does not matter to it. -/
theorem parseRequest_extend {s rest : Bytes} {request : Request} (h : parseRequest s = some (request, rest))
    (more : Bytes) : parseRequest (s ++ more) = some (request, rest ++ more) := by
  obtain ⟨⟨line, s₁⟩, hline, h⟩ := Option.bind_eq_some_iff.1 h
  obtain ⟨⟨method, target⟩, hrequest, h⟩ := Option.bind_eq_some_iff.1 h
  obtain ⟨⟨fields, s₂⟩, hfields, h⟩ := Option.bind_eq_some_iff.1 h
  obtain ⟨⟨body, s₃⟩, hbody, h⟩ := Option.bind_eq_some_iff.1 h
  cases h
  have hle : s₁.length + 1 ≤ (s₁ ++ more).length + 1 := by
    rw [List.length_append]
    omega
  have hfields' := parseFields_extend hle hfields more
  rw [parseRequest, splitLine_extend hline]
  simp only [bind, Option.bind_some, hrequest, hfields', parseBody_extend hbody]
  rfl

/-- A request that was cut off is not taken for another one. -/
theorem parseRequest_cut {text sent : Bytes} {request : Request} (h : parseRequest text = some (request, []))
    (hsent : sent <+: text) (hne : sent ≠ text) : parseRequest sent = none := by
  obtain ⟨more, rfl⟩ := hsent
  cases hcut : parseRequest sent with
  | none => rfl
  | some r =>
    have hwhole := parseRequest_extend hcut more
    rw [h] at hwhole
    have hmore : r.2 ++ more = [] := (Prod.mk.inj (Option.some.inj hwhole)).2.symm
    exact absurd (by rw [(List.append_eq_nil_iff.1 hmore).2, List.append_nil]) hne

end Http1
