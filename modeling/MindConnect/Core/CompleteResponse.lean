import MindConnect.Core.ChunkedBody
import Mathlib.Algebra.BigOperators.Group.List.Basic

/-!
# A response is accepted only when complete

`Accepted` is what `get_response` takes for a response: a line that `"HTTP/1.1 %u"` scans, header lines of more
than two bytes, a line of at most two, and a body complete under the framing that the header lines chose. With
memory and sizes in range the client answers `MCL_OK` exactly on streams that begin with one.
-/

namespace MindConnect.HttpClientBasic

open PartialIO

structure Memory.Available (m : Memory) : Prop where
  headerList : m.headerList = true
  header : ∀ i, m.header i = true
  node : ∀ i, m.node i = true
  body : ∀ i, m.body i = true
  response : m.response = true

def HeaderLine (line : Bytes) : Prop := IsLine httpParseBufferSize line ∧ crlf.length < line.length
def EmptyLine (line : Bytes) : Prop := IsLine httpParseBufferSize line ∧ line.length ≤ crlf.length

/-- What the header list holds for a line. -/
def headerText (line : Bytes) : Bytes := line.take (line.length - crlf.length)

/-- `found_content_length` and `using_transfer_encoding` after the header lines. -/
def framingOf (p : Platform) (lines : List Bytes) : Framing := lines.foldl (scanFraming p) ⟨none, false⟩

/-- A body under its framing, and what it carries. -/
def BodyUnder (p : Platform) (framing : Framing) (body payload : Bytes) : Prop :=
  if framing.chunked then ChunkedBody p body payload
  else body = payload ∧ framing.contentLength = some payload.length

/-- The status line and the header lines up to the empty one. -/
structure Head (p : Platform) (text : Bytes) (statusCode : Nat) (lines : List Bytes) : Prop where
  intro ::
  parts : ∃ statusLine emptyLine, text = statusLine ++ (lines.flatten ++ emptyLine) ∧
    IsLine httpParseBufferSize statusLine ∧ scanStatus p statusLine = some statusCode ∧
    (∀ line ∈ lines, HeaderLine line) ∧ EmptyLine emptyLine

/-- The stream begins with the response, `rest` follows it. -/
structure Accepted (p : Platform) (stream : Bytes) (response : Response) (rest : Bytes) : Prop where
  intro ::
  parts : ∃ head lines body payload, stream = head ++ (body ++ rest) ∧ Head p head response.statusCode lines ∧
    BodyUnder p (framingOf p lines) body payload ∧ response.header = lines.map headerText ∧
    response.payload = bodyPointer payload ∧ response.payloadSize = payload.length

/-- Where the header lines choose chunks, the sizes are in range and read as they stand. -/
def Tame (p : Platform) (m : Memory) (stream : Bytes) : Prop :=
  ∀ ⦃head statusCode lines rest⦄, stream = head ++ rest → Head p head statusCode lines →
    (framingOf p lines).chunked = true → m.Clean p ∧ SizesInRange p 0 rest

/-! ## The header lines -/

section
variable {p : Platform} {m : Memory} (hm : m.Available)
include hm

theorem headerLoop_of_lines {lines : List Bytes} {emptyLine rest : Bytes} (hlines : ∀ line ∈ lines, HeaderLine line)
    (hempty : EmptyLine emptyLine) (fuel i : Nat) (headers : List Bytes) (framing : Framing)
    (hfuel : lines.length < fuel) {s : Source UInt8 McError} (hs : s.rest = lines.flatten ++ (emptyLine ++ rest)) :
    ∃ s', s'.rest = rest ∧ headerLoop p m fuel i headers framing s =
      some ((.ok (), headers ++ lines.map headerText, lines.foldl (scanFraming p) framing), s') := by
  induction lines generalizing fuel i headers framing s with
  | nil =>
    obtain ⟨fuel, rfl⟩ := Nat.exists_eq_succ_of_ne_zero (by omega : fuel ≠ 0)
    obtain ⟨s', h', hs'⟩ := receiveUntilLf_of_isLine hempty.1 hs
    refine ⟨s', hs', ?_⟩
    rw [headerLoop, bind_apply h']
    simp only
    rw [if_pos hempty.2, List.map_nil, List.append_nil]
    rfl
  | cons line lines ih =>
    obtain ⟨fuel, rfl⟩ := Nat.exists_eq_succ_of_ne_zero (by omega : fuel ≠ 0)
    have hline := hlines line List.mem_cons_self
    rw [List.flatten_cons, List.append_assoc] at hs
    obtain ⟨s1, h1, hs1⟩ := receiveUntilLf_of_isLine hline.1 hs
    obtain ⟨s', hs', h'⟩ := ih (fun l hl => hlines l (List.mem_cons_of_mem line hl)) fuel (i + 1)
      (headers ++ [headerText line]) (scanFraming p framing line) (Nat.lt_of_succ_lt_succ hfuel) hs1
    refine ⟨s', hs', ?_⟩
    rw [headerLoop, bind_apply h1]
    simp only
    rw [if_neg (Nat.not_le.2 hline.2), if_pos (hm.header i), if_pos (hm.node i)]
    rw [List.append_assoc] at h'
    exact h'

theorem headerLoop_outcome (fuel i : Nat) (headers : List Bytes) (framing : Framing) {s : Source UInt8 McError}
    (hfuel : s.rest.length < fuel) :
    ∃ code headers' framing' s', headerLoop p m fuel i headers framing s = some ((code, headers', framing'), s') ∧
      (code = .ok () → ∃ (lines : List Bytes) (emptyLine : Bytes), s.rest = lines.flatten ++ (emptyLine ++ s'.rest) ∧
        (∀ line ∈ lines, HeaderLine line) ∧ EmptyLine emptyLine ∧
        headers' = headers ++ lines.map headerText ∧ framing' = lines.foldl (scanFraming p) framing) := by
  induction fuel generalizing i headers framing s with
  | zero => cases hfuel
  | succ fuel ih =>
    obtain ⟨code, line, s1, h1⟩ := receiveUntilLf_total (by decide : 2 ≤ httpParseBufferSize) s
    rw [headerLoop, bind_apply h1]
    simp only
    by_cases hlen : line.length ≤ crlf.length
    · rw [if_pos hlen]
      refine ⟨code, headers, framing, s1, rfl, ?_⟩
      rintro rfl
      obtain ⟨hline, hs⟩ := receiveUntilLf_ok h1
      exact ⟨[], line, hs, fun _ h => absurd h List.not_mem_nil, ⟨hline, hlen⟩, (List.append_nil _).symm, rfl⟩
    · rw [if_neg hlen, if_pos (hm.header i)]
      cases code with
      | error e => exact ⟨_, _, _, _, rfl, fun h => by cases h⟩
      | ok _ =>
        obtain ⟨hline, hs⟩ := receiveUntilLf_ok h1
        have hpos := List.length_pos_iff.2 hline.1.ne_nil
        have hlen' := congrArg List.length hs
        rw [List.length_append] at hlen'
        obtain ⟨code, headers', framing', s', h', hok⟩ := ih (i + 1) (headers ++ [headerText line])
          (scanFraming p framing line) (s := s1) (by omega)
        simp only
        rw [if_pos (hm.node i)]
        refine ⟨code, headers', framing', s', h', fun hcode => ?_⟩
        obtain ⟨lines, emptyLine, hs', hlines, hempty, hheaders, hframing⟩ := hok hcode
        refine ⟨line :: lines, emptyLine, ?_, ?_, hempty, ?_, hframing⟩
        · rw [hs, hs', List.flatten_cons, List.append_assoc]
        · intro l hl
          rcases List.mem_cons.1 hl with rfl | hl
          · exact ⟨hline, Nat.lt_of_not_le hlen⟩
          · exact hlines l hl
        · rw [hheaders, List.append_assoc]
          rfl

/-! ## The body -/

theorem getContentLengthResponse_of_length {body rest : Bytes} (hne : body.length ≠ 0) {s : Source UInt8 McError}
    (hs : s.rest = body ++ rest) :
    ∃ s', s'.rest = rest ∧ getContentLengthResponse m body.length s = some ((.ok (), some body), s') := by
  obtain ⟨s', h', hs'⟩ := receiveToBuffer_of_length hs rfl
  obtain ⟨block, hwrite, hblock⟩ := write_behind [] (Nat.le_refl body.length) s'
  rw [List.nil_append, List.length_nil] at hwrite
  obtain rfl : block = body := hblock rfl
  refine ⟨s', hs', ?_⟩
  rw [getContentLengthResponse, hm.body 0, mclMemoryMalloc_granted hne]
  simp only
  rw [bind_apply h']
  simp only
  rw [bind_apply hwrite]
  rfl

theorem getContentLengthResponse_outcome {bodySize : Nat} (hne : bodySize ≠ 0) (s : Source UInt8 McError) :
    ∃ code payload s', getContentLengthResponse m bodySize s = some ((code, payload), s') ∧
      (code = .ok () → ∃ body, s.rest = body ++ s'.rest ∧ body.length = bodySize ∧ payload = some body) := by
  obtain ⟨code, bytes, s', h'⟩ := receiveToBuffer_total bodySize s
  obtain ⟨block, hwrite, hblock⟩ := write_behind [] (length_of_receiveToBuffer h') s'
  rw [List.nil_append, List.length_nil] at hwrite
  rw [getContentLengthResponse, hm.body 0, mclMemoryMalloc_granted hne]
  simp only
  rw [bind_apply h']
  simp only
  rw [bind_apply hwrite]
  cases code with
  | error e => exact ⟨_, _, _, rfl, fun h => by cases h⟩
  | ok _ =>
    obtain ⟨rfl, hs⟩ := receiveToBuffer_ok h'
    exact ⟨_, _, _, rfl, fun _ => ⟨bytes, hs, rfl, congrArg some (hblock rfl)⟩⟩

theorem getBody_of_body {framing : Framing} {body payload rest : Bytes} (h : BodyUnder p framing body payload)
    {s : Source UInt8 McError} (hs : s.rest = body ++ rest)
    (hchunked : framing.chunked = true → m.Clean p ∧ SizesInRange p 0 s.rest) :
    ∃ s', s'.rest = rest ∧ getBody p m framing s = some ((.ok (), bodyPointer payload, payload.length), s') := by
  cases hc : framing.chunked with
  | true =>
    obtain ⟨hclean, hrange⟩ := hchunked hc
    rw [BodyUnder, if_pos hc] at h
    rw [getBody, if_pos hc]
    exact getChunkedResponse_of_body hm.body hclean h (h.length_lt (hs ▸ hrange)) hs
  | false =>
    have hc' : ¬ framing.chunked = true := Bool.eq_false_iff.1 hc
    rw [BodyUnder, if_neg hc'] at h
    obtain ⟨rfl, hl⟩ := h
    rw [getBody, if_neg hc', hl]
    simp only
    by_cases hzero : body.length = 0
    · obtain rfl := List.length_eq_zero_iff.1 hzero
      rw [if_pos hzero]
      exact ⟨s, hs, rfl⟩
    · obtain ⟨s', hs', h'⟩ := getContentLengthResponse_of_length hm hzero hs
      refine ⟨s', hs', ?_⟩
      rw [if_neg hzero, bind_apply h', bodyPointer, if_neg fun h => hzero (List.length_eq_zero_iff.2 h)]
      rfl

theorem getBody_outcome {framing : Framing} {s : Source UInt8 McError}
    (hchunked : framing.chunked = true → m.Clean p ∧ SizesInRange p 0 s.rest) :
    ∃ code payload size s', getBody p m framing s = some ((code, payload, size), s') ∧
      (code = .ok () → ∃ body data, BodyUnder p framing body data ∧ s.rest = body ++ s'.rest ∧
        payload = bodyPointer data ∧ size = data.length) := by
  cases hc : framing.chunked with
  | true =>
    obtain ⟨hclean, hrange⟩ := hchunked hc
    obtain ⟨code, payload, size, s', h', hok⟩ := getChunkedResponse_outcome hm.body hclean hrange
    refine ⟨code, payload, size, s', by rw [getBody, if_pos hc]; exact h', fun hcode => ?_⟩
    obtain ⟨body, data, hbody, hs', hpayload, hsize⟩ := hok hcode
    exact ⟨body, data, by rw [BodyUnder, if_pos hc]; exact hbody, hs', hpayload, hsize⟩
  | false =>
    have hc' : ¬ framing.chunked = true := Bool.eq_false_iff.1 hc
    rw [getBody, if_neg hc']
    cases hl : framing.contentLength with
    | none => exact ⟨_, _, _, _, rfl, fun h => by cases h⟩
    | some bodySize =>
      by_cases hzero : bodySize = 0
      · subst hzero
        simp only
        rw [if_pos trivial]
        refine ⟨_, _, _, _, rfl, fun _ => ⟨[], [], ?_, rfl, rfl, rfl⟩⟩
        rw [BodyUnder, if_neg hc']
        exact ⟨rfl, hl⟩
      · obtain ⟨code, payload, s', h', hok⟩ := getContentLengthResponse_outcome hm hzero s
        simp only
        rw [if_neg hzero, bind_apply h']
        refine ⟨code, payload, bodySize, s', rfl, fun hcode => ?_⟩
        obtain ⟨body, hs', rfl, hpayload⟩ := hok hcode
        refine ⟨body, body, ?_, hs', ?_, rfl⟩
        · rw [BodyUnder, if_neg hc']
          exact ⟨rfl, hl⟩
        · rw [hpayload, bodyPointer, if_neg fun h => hzero (List.length_eq_zero_iff.2 h)]

/-! ## The response -/

theorem getHeaders_of_lines {lines : List Bytes} {emptyLine rest : Bytes} (hlines : ∀ line ∈ lines, HeaderLine line)
    (hempty : EmptyLine emptyLine) {s : Source UInt8 McError} (hs : s.rest = lines.flatten ++ (emptyLine ++ rest)) :
    ∃ s', s'.rest = rest ∧
      getHeaders p m s = some ((.ok (), lines.map headerText, framingOf p lines), s') := by
  have hlen := congrArg List.length hs
  have hcount : lines.length ≤ lines.flatten.length := by
    rw [List.length_flatten]
    have hone : ∀ n ∈ lines.map List.length, 1 ≤ n := by
      intro n hn
      obtain ⟨line, hline, rfl⟩ := List.mem_map.1 hn
      exact List.length_pos_iff.2 (hlines line hline).1.1.ne_nil
    simpa using List.length_le_sum_of_one_le _ hone
  rw [List.length_append] at hlen
  exact headerLoop_of_lines hm hlines hempty _ 0 [] ⟨none, false⟩ (by omega) hs

theorem getHeaders_outcome (p : Platform) (s : Source UInt8 McError) :
    ∃ code headers framing s', getHeaders p m s = some ((code, headers, framing), s') ∧
      (code = .ok () → ∃ (lines : List Bytes) (emptyLine : Bytes), s.rest = lines.flatten ++ (emptyLine ++ s'.rest) ∧
        (∀ line ∈ lines, HeaderLine line) ∧ EmptyLine emptyLine ∧
        headers = lines.map headerText ∧ framing = framingOf p lines) :=
  headerLoop_outcome hm _ 0 [] ⟨none, false⟩ (Nat.lt_succ_self s.rest.length)

/-- A stream that begins with a response is taken for it. -/
theorem getResponse_of_accepted {response : Response} {rest : Bytes} {s : Source UInt8 McError}
    (h : Accepted p s.rest response rest) (htame : Tame p m s.rest) :
    ∃ s', s'.rest = rest ∧ getResponse p m s = some ((.ok (), some response), s') := by
  obtain ⟨head, lines, body, payload, hs, hhead, hbody, hheader, hpayload, hsize⟩ := h
  obtain ⟨statusLine, emptyLine, hhead', hstatusLine, hstatus, hlines, hempty⟩ := hhead
  have hs0 : s.rest = statusLine ++ (lines.flatten ++ (emptyLine ++ (body ++ rest))) := by
    rw [hs, hhead']
    simp only [List.append_assoc]
  obtain ⟨s1, h1, hs1⟩ := receiveUntilLf_of_isLine hstatusLine hs0
  obtain ⟨s2, hs2, h2⟩ := getHeaders_of_lines hm hlines hempty hs1
  obtain ⟨s3, hs3, h3⟩ := getBody_of_body hm hbody hs2
    fun hc => hs2 ▸ htame hs ⟨statusLine, emptyLine, hhead', hstatusLine, hstatus, hlines, hempty⟩ hc
  refine ⟨s3, hs3, ?_⟩
  rw [getResponse, bind_apply h1]
  simp only [hstatus]
  rw [if_pos hm.headerList, bind_apply h2]
  simp only
  rw [bind_apply h3]
  simp only [httpResponseInitialize]
  rw [if_pos hm.response, ← hheader, ← hpayload, ← hsize]
  rfl

/-- The client comes to an end on every stream. It answers `MCL_OK` with a response that the stream begins with, or
an error and no response. -/
theorem getResponse_outcome {s : Source UInt8 McError} (htame : Tame p m s.rest) :
    ∃ code response s', getResponse p m s = some ((code, response), s') ∧
      ((∃ e, code = .error e ∧ response = none) ∨
        ∃ r, code = .ok () ∧ response = some r ∧ Accepted p s.rest r s'.rest) := by
  obtain ⟨code, statusLine, s1, h1⟩ := receiveUntilLf_total (by decide : 2 ≤ httpParseBufferSize) s
  rw [getResponse, bind_apply h1]
  cases code with
  | error e => exact ⟨_, _, _, rfl, .inl ⟨e, rfl, rfl⟩⟩
  | ok _ =>
    obtain ⟨hstatusLine, hs1⟩ := receiveUntilLf_ok h1
    cases hstatus : scanStatus p statusLine with
    | none =>
      simp only [hstatus]
      exact ⟨_, _, _, rfl, .inl ⟨_, rfl, rfl⟩⟩
    | some statusCode =>
      obtain ⟨code, header, framing, s2, h2, hok2⟩ := getHeaders_outcome hm p s1
      simp only [hstatus]
      rw [if_pos hm.headerList, bind_apply h2]
      cases code with
      | error e => exact ⟨_, _, _, rfl, .inl ⟨e, rfl, rfl⟩⟩
      | ok _ =>
        obtain ⟨lines, emptyLine, hs2, hlines, hempty, rfl, rfl⟩ := hok2 rfl
        have hhead : Head p (statusLine ++ (lines.flatten ++ emptyLine)) statusCode lines :=
          ⟨statusLine, emptyLine, rfl, hstatusLine, hstatus, hlines, hempty⟩
        have hs : s.rest = statusLine ++ (lines.flatten ++ emptyLine) ++ s2.rest := by
          rw [hs1, hs2]
          simp only [List.append_assoc]
        obtain ⟨code, payload, size, s3, h3, hok3⟩ := getBody_outcome hm (htame hs hhead)
        simp only
        rw [bind_apply h3]
        cases code with
        | error e => exact ⟨_, _, _, rfl, .inl ⟨e, rfl, rfl⟩⟩
        | ok _ =>
          obtain ⟨body, data, hbody, hs3, rfl, rfl⟩ := hok3 rfl
          simp only [httpResponseInitialize]
          rw [if_pos hm.response]
          refine ⟨_, _, _, rfl, .inr ⟨_, rfl, rfl, ?_⟩⟩
          exact ⟨_, lines, body, data, by rw [hs, hs3], hhead, hbody, rfl, rfl, rfl⟩

end

/-! ## Complete or not at all -/

theorem Accepted.extend {p : Platform} {stream rest : Bytes} {response : Response}
    (h : Accepted p stream response rest) (more : Bytes) : Accepted p (stream ++ more) response (rest ++ more) := by
  obtain ⟨head, lines, body, payload, rfl, hrest⟩ := h
  exact ⟨head, lines, body, payload, by simp only [List.append_assoc], hrest⟩

theorem Tame.of_prefix {p : Platform} {m : Memory} {stream cut : Bytes} (h : Tame p m stream)
    (hcut : cut <+: stream) : Tame p m cut := by
  obtain ⟨more, rfl⟩ := hcut
  rintro head statusCode lines rest rfl hhead hchunked
  obtain ⟨hclean, hrange⟩ := h (List.append_assoc _ _ _) hhead hchunked
  refine ⟨hclean, ?_⟩
  rintro text payload line rest' size rfl hchunks hline hsize
  exact hrange (by simp only [List.append_assoc]; rfl) hchunks hline hsize

/-- The header list: line by line the text without the CRLF that ends the line. -/
def HoldsLines (lines header : List Bytes) : Prop :=
  List.Forall₂ (fun line text => ∀ t, line = t ++ crlf → text = t) lines header

theorem holdsLines_headerText (lines : List Bytes) : HoldsLines lines (lines.map headerText) := by
  refine List.forall₂_map_right_iff.2 (List.forall₂_same.2 ?_)
  rintro _ - t rfl
  simp [headerText]

/-- What the client promises of a response: the stream begins with its status line, its header lines, an empty line
and its body, complete under the framing that the header lines chose. -/
structure Complete (p : Platform) (stream : Bytes) (response : Response) (rest : Bytes) : Prop where
  intro ::
  parts : ∃ head lines body payload, stream = head ++ (body ++ rest) ∧ Head p head response.statusCode lines ∧
    BodyUnder p (framingOf p lines) body payload ∧ HoldsLines lines response.header ∧
    response.payload = bodyPointer payload ∧ response.payloadSize = payload.length

theorem Accepted.complete {p : Platform} {stream rest : Bytes} {response : Response}
    (h : Accepted p stream response rest) : Complete p stream response rest := by
  obtain ⟨head, lines, body, payload, hstream, hhead, hbody, hheader, hpayload⟩ := h
  exact ⟨head, lines, body, payload, hstream, hhead, hbody, hheader ▸ holdsLines_headerText lines, hpayload⟩

/-- However a stream is cut into receives, the outcome is the same; with memory and sizes in range it is `MCL_OK` with
a complete response or an error without one, and an error on every stream that ends before the response does. -/
theorem getResponse_complete (p : Platform) (m : Memory) :
    (∀ ⦃s t : Source UInt8 McError⦄, s.Same t → (getResponse p m s).map Prod.fst = (getResponse p m t).map Prod.fst) ∧
    (m.Available → ∀ s : Source UInt8 McError, Tame p m s.rest →
      ∃ code response s', getResponse p m s = some ((code, response), s') ∧
        ((∃ e, code = .error e ∧ response = none) ∨
          ∃ r, code = .ok () ∧ response = some r ∧ Complete p s.rest r s'.rest ∧
            ∀ cut : Source UInt8 McError, cut.rest <+: s.rest → cut.rest.length + s'.rest.length < s.rest.length →
              ∃ e cut', getResponse p m cut = some ((.error e, none), cut'))) := by
  refine ⟨fun s t h => (getResponse_uncut p m).map_fst_eq h, fun hm s htame => ?_⟩
  obtain ⟨code, response, s', h, herror | ⟨r, rfl, rfl, hr⟩⟩ := getResponse_outcome hm htame
  · exact ⟨code, response, s', h, .inl herror⟩
  · refine ⟨.ok (), some r, s', h, .inr ⟨r, rfl, rfl, hr.complete, fun cut hcut hlen => ?_⟩⟩
    obtain ⟨code, response, cut', hc, ⟨e, rfl, rfl⟩ | ⟨r', rfl, rfl, hr'⟩⟩ :=
      getResponse_outcome hm (htame.of_prefix hcut)
    · exact ⟨e, cut', hc⟩
    · -- a response that ends in the cut stream would leave more of the whole one than is left
      exfalso
      obtain ⟨more, hmore⟩ := hcut
      obtain ⟨s'', hs'', h''⟩ := getResponse_of_accepted hm (hmore ▸ hr'.extend more) htame
      obtain rfl : s' = s'' := congrArg Prod.snd (Option.some.inj (h.symm.trans h''))
      have hlen' := congrArg List.length hmore
      rw [List.length_append] at hlen'
      rw [hs'', List.length_append] at hlen
      omega

theorem freshMemory_available : freshMemory.Available := ⟨rfl, fun _ => rfl, fun _ => rfl, fun _ => rfl, rfl⟩

theorem tame_of_length {p : Platform} {m : Memory} {stream : Bytes} (hm : m.Clean p)
    (h : stream.length + 2 ^ 32 ≤ 2 ^ p.sizeWidth) : Tame p m stream := by
  rintro head statusCode lines rest rfl - -
  rw [List.length_append] at h
  exact ⟨hm, sizesInRange_of_length (by omega)⟩

/-- A response of which two bytes arrive at a time. -/
def helloSource : Source UInt8 McError :=
  ⟨ascii "HTTP/1.1 200 OK\r\nContent-Length: 5\r\n\r\nhello", fun _ => 2, .networkReceiveFail⟩

theorem helloSource_complete :
    ∃ code response s', getResponse platform64 freshMemory helloSource = some ((code, response), s') ∧
      ((∃ e, code = .error e ∧ response = none) ∨
        ∃ r, code = .ok () ∧ response = some r ∧ Complete platform64 helloSource.rest r s'.rest ∧
          ∀ cut : Source UInt8 McError, cut.rest <+: helloSource.rest →
            cut.rest.length + s'.rest.length < helloSource.rest.length →
            ∃ e cut', getResponse platform64 freshMemory cut = some ((.error e, none), cut')) :=
  (getResponse_complete platform64 freshMemory).2 freshMemory_available helloSource
    (tame_of_length (fun _ => show 0 % 2 ^ 64 < 2 ^ 32 by decide)
      (show 43 + 2 ^ 32 ≤ 2 ^ 64 by decide))

/-- A response with a line of one letter where the empty line belongs. -/
def noEmptyLineSource : Source UInt8 McError :=
  ⟨ascii "HTTP/1.1 200 OK\nContent-Length: 0\nx\n", fun _ => 1, .networkReceiveFail⟩

theorem noEmptyLineSource_accepted :
    (getResponse platform64 freshMemory noEmptyLineSource).map Prod.fst =
        some (.ok (), some ⟨200, [ascii "Content-Length: "], none, 0⟩) ∧
      ¬ [10, 10] <:+: noEmptyLineSource.rest ∧ ¬ [10, 13, 10] <:+: noEmptyLineSource.rest := by
  decide +kernel

end MindConnect.HttpClientBasic
