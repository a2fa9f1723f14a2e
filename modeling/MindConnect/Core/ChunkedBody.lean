import MindConnect.Core.HttpResponse

/-!
# What the chunked decoder accepts

`Chunks` is the grammar `get_chunked_response` follows: a line of which `%x` scans the size, that many bytes,
two more bytes that nobody looks at; the first size 0 ends the body. With memory, with the announced sizes
below the range of `mcl_size_t` and with nothing left in the bits of `chunk_size` that the scan does not set,
the decoder answers `MCL_OK` exactly on such a body and hands out its data.
-/

namespace MindConnect.HttpClientBasic

open PartialIO

/-! ## Lines and blocks -/

/-- A line that a buffer of `size` bytes can hold with its terminator. -/
def IsLine (size : Nat) (line : Bytes) : Prop := PartialIO.IsLine (· == 10) line ∧ line.length < size

theorem receiveUntilLf_ok {size : Nat} {s s' : Source UInt8 McError} {line : Bytes}
    (h : receiveUntilLf size s = some ((.ok (), line), s')) : IsLine size line ∧ s.rest = line ++ s'.rest := by
  by_cases h2 : 2 ≤ size
  · rw [receiveUntilLf_eq h2] at h
    obtain ⟨hr, rfl⟩ := Prod.mk.inj (Option.some.inj h)
    have hcode : (receiveUntil (· == 10) .fail (size - 1) s).1.1 = .ok () := congrArg Prod.fst hr
    obtain rfl : (receiveUntil (· == 10) .fail (size - 1) s).1.2 = line := congrArg Prod.snd hr
    obtain ⟨hline, hlen⟩ := isLine_of_receiveUntil _ _ hcode
    exact ⟨⟨hline, by omega⟩, (receiveUntil_consumes _ _ _ s).1⟩
  · rw [receiveUntilLf, if_neg h2] at h
    cases h

theorem receiveUntilLf_total {size : Nat} (h : 2 ≤ size) (s : Source UInt8 McError) :
    ∃ code line s', receiveUntilLf size s = some ((code, line), s') := by
  rw [receiveUntilLf_eq h]
  exact ⟨_, _, _, rfl⟩

theorem receiveUntilLf_of_isLine {size : Nat} {s : Source UInt8 McError} {line rest : Bytes}
    (hline : IsLine size line) (hs : s.rest = line ++ rest) :
    ∃ s', receiveUntilLf size s = some ((.ok (), line), s') ∧ s'.rest = rest := by
  have hpos := List.length_pos_iff.2 hline.1.ne_nil
  have hlt := hline.2
  obtain ⟨h1, h2⟩ := receiveUntil_of_isLine (· == 10) McError.fail hline.1 (by omega : line.length ≤ size - 1) hs
  rw [receiveUntilLf_eq (by omega)]
  exact ⟨_, congrArg some (Prod.ext h1 rfl), h2⟩

theorem receiveToBuffer_total (size : Nat) (s : Source UInt8 McError) :
    ∃ code bytes s', receiveToBuffer size s = some ((code, bytes), s') := ⟨_, _, _, rfl⟩

theorem receiveToBuffer_ok {size : Nat} {s s' : Source UInt8 McError} {bytes : Bytes}
    (h : receiveToBuffer size s = some ((.ok (), bytes), s')) :
    bytes.length = size ∧ s.rest = bytes ++ s'.rest := by
  obtain ⟨hr, rfl⟩ := Prod.mk.inj (Option.some.inj h)
  obtain ⟨h1, h2, -⟩ := receiveExactly_spec size s
  rw [h1] at hr
  obtain ⟨hcode, rfl⟩ := Prod.mk.inj hr
  by_cases hle : size ≤ s.rest.length
  · exact ⟨List.length_take_of_le hle, by rw [h2, List.take_append_drop]⟩
  · rw [if_neg hle] at hcode
    cases hcode

theorem receiveToBuffer_of_length {size : Nat} {s : Source UInt8 McError} {bytes rest : Bytes}
    (hs : s.rest = bytes ++ rest) (hlen : bytes.length = size) :
    ∃ s', receiveToBuffer size s = some ((.ok (), bytes), s') ∧ s'.rest = rest := by
  subst hlen
  obtain ⟨h1, h2, -⟩ := receiveExactly_spec bytes.length s
  rw [hs, if_pos (by simp), List.take_left] at h1
  rw [hs, List.drop_left] at h2
  exact ⟨_, congrArg some (Prod.ext h1 rfl), h2⟩

theorem length_of_receiveToBuffer {size : Nat} {s s' : Source UInt8 McError} {code : Result Unit} {bytes : Bytes}
    (h : receiveToBuffer size s = some ((code, bytes), s')) : bytes.length ≤ size := by
  obtain ⟨hr, -⟩ := Prod.mk.inj (Option.some.inj h)
  rw [(receiveExactly_spec size s).1] at hr
  obtain rfl := (Prod.mk.inj hr).2
  rw [List.length_take]
  exact Nat.min_le_left _ _

theorem two_le_chunkLineSize (p : Platform) : 2 ≤ p.chunkLineSize :=
  Nat.le_add_left 2 p.contentLengthBufferSize

/-- `*response_body` for the bytes collected so far. -/
def bodyPointer (data : Bytes) : Option Bytes := if data = [] then none else some data

theorem bodyBlock_of_fits {p : Platform} {data : Bytes} {size : Nat} (hne : size ≠ 0)
    (hfit : data.length + size < 2 ^ p.sizeWidth) :
    bodyBlock p true (bodyPointer data) data.length size = some (data ++ List.replicate size 0) := by
  by_cases h : data = []
  · subst h
    exact mclMemoryMalloc_granted hne
  · rw [bodyPointer, if_neg h]
    simp only [bodyBlock, Nat.mod_eq_of_lt hfit]
    rw [mclMemoryRealloc_granted (by omega) (by omega), Nat.add_sub_cancel_left]

/-- What arrives is written behind the data into a block that is just large enough. -/
theorem write_behind (data : Bytes) {bytes : Bytes} {size : Nat} (hle : bytes.length ≤ size)
    (s : Source UInt8 McError) :
    ∃ block, write (data ++ List.replicate size 0) data.length bytes s = some (block, s) ∧
      (bytes.length = size → block = data ++ bytes) := by
  have hroom : data.length + bytes.length ≤ (data ++ List.replicate size (0 : UInt8)).length := by
    rw [List.length_append, List.length_replicate]
    omega
  have hw := Bytes.write_eq_some hroom
  rw [List.take_left] at hw
  refine ⟨_, write_of_eq_some hw s, fun he => ?_⟩
  rw [List.drop_eq_nil_of_le (by rw [List.length_append, List.length_replicate]; omega), List.append_nil]

/-! ## The grammar -/

/-- Chunks of at least one byte, and their data. -/
inductive Chunks (p : Platform) : Bytes → Bytes → Prop
  | nil : Chunks p [] []
  | cons {line data ending text payload : Bytes} (hline : IsLine p.chunkLineSize line)
      (hsize : scanChunkSize p 0 line = some data.length) (hdata : data ≠ [])
      (hending : ending.length = crlf.length) (rest : Chunks p text payload) :
      Chunks p (line ++ (data ++ (ending ++ text))) (data ++ payload)

/-- A whole body: chunks, then a line of size 0 and two bytes. -/
structure ChunkedBody (p : Platform) (body payload : Bytes) : Prop where
  intro ::
  parts : ∃ text line ending, body = text ++ (line ++ ending) ∧ Chunks p text payload ∧
    IsLine p.chunkLineSize line ∧ scanChunkSize p 0 line = some 0 ∧ ending.length = crlf.length

/-- After `start` bytes no chunk that the stream announces behind complete ones takes the total out of the range
of `mcl_size_t`. -/
def SizesInRange (p : Platform) (start : Nat) (stream : Bytes) : Prop :=
  ∀ ⦃text payload line rest size⦄, stream = text ++ (line ++ rest) → Chunks p text payload →
    IsLine p.chunkLineSize line → scanChunkSize p 0 line = some size →
    start + payload.length + size < 2 ^ p.sizeWidth

/-- The bits of `chunk_size` above those of `unsigned int`, if there are any, are zero. -/
def Memory.Clean (p : Platform) (m : Memory) : Prop := ∀ i, m.chunkSize i % 2 ^ p.sizeWidth < 2 ^ 32

/-- Behind a chunk the rest of the stream announces as little. -/
theorem SizesInRange.rest {p : Platform} {start : Nat} {line data ending rest : Bytes}
    (h : SizesInRange p start (line ++ (data ++ (ending ++ rest)))) (hline : IsLine p.chunkLineSize line)
    (hsize : scanChunkSize p 0 line = some data.length) (hdata : data ≠ [])
    (hending : ending.length = crlf.length) : SizesInRange p (start + data.length) rest := by
  rintro text payload line' rest' size rfl hchunks hline' hsize'
  have hstream : line ++ (data ++ (ending ++ (text ++ (line' ++ rest')))) =
      line ++ (data ++ (ending ++ text)) ++ (line' ++ rest') := by
    simp only [List.append_assoc]
  have := h hstream (Chunks.cons hline hsize hdata hending hchunks) hline' hsize'
  rw [List.length_append] at this
  omega

theorem ChunkedBody.cons {p : Platform} {line data ending body payload : Bytes} (h : ChunkedBody p body payload)
    (hline : IsLine p.chunkLineSize line) (hsize : scanChunkSize p 0 line = some data.length) (hdata : data ≠ [])
    (hending : ending.length = crlf.length) :
    ChunkedBody p (line ++ (data ++ (ending ++ body))) (data ++ payload) := by
  obtain ⟨text, last, ending', rfl, hchunks, hlast, hzero, hending'⟩ := h
  refine ⟨line ++ (data ++ (ending ++ text)), last, ending', ?_, ?_, hlast, hzero, hending'⟩
  · simp only [List.append_assoc]
  · exact hchunks.cons hline hsize hdata hending

theorem ChunkedBody.length_lt {p : Platform} {body payload rest : Bytes} (h : ChunkedBody p body payload)
    (hrange : SizesInRange p 0 (body ++ rest)) : payload.length < 2 ^ p.sizeWidth := by
  obtain ⟨text, line, ending, rfl, hchunks, hline, hzero, -⟩ := h
  have hstream : text ++ (line ++ ending) ++ rest = text ++ (line ++ (ending ++ rest)) := by
    simp only [List.append_assoc]
  have := hrange hstream hchunks hline hzero
  omega

/-- What the scan leaves of `chunk_size` does not matter. -/
theorem scanChunkSize_clean {p : Platform} {m : Memory} (hm : m.Clean p) (i : Nat) (line : Bytes) :
    scanChunkSize p (m.chunkSize i) line = scanChunkSize p 0 line := by
  have h0 : m.chunkSize i % 2 ^ p.sizeWidth / 2 ^ 32 = 0 := Nat.div_eq_of_lt (hm i)
  simp only [scanChunkSize, h0, Nat.zero_mod, Nat.zero_div]

theorem scanChunkSize_lt {p : Platform} {line : Bytes} {size : Nat} (h : scanChunkSize p 0 line = some size) :
    size < 2 ^ 32 := by
  simp only [scanChunkSize, Nat.zero_mod, Nat.zero_div, Nat.zero_mul, Nat.zero_add] at h
  obtain ⟨n, -, hn⟩ := Option.bind_eq_some_iff.1 h
  cases hn
  exact Nat.mod_lt _ (by decide)

theorem Chunks.length_le {p : Platform} {text payload : Bytes} (h : Chunks p text payload) :
    payload.length ≤ text.length := by
  induction h with
  | nil => exact Nat.le_refl 0
  | cons _ _ _ _ _ ih =>
    simp only [List.length_append]
    omega

/-- On a machine of 64 bits no stream that fits into it announces too much. -/
theorem sizesInRange_of_length {p : Platform} {stream : Bytes} (h : stream.length + 2 ^ 32 ≤ 2 ^ p.sizeWidth) :
    SizesInRange p 0 stream := by
  rintro text payload line rest size rfl hchunks hline hsize
  have h1 := scanChunkSize_lt hsize
  have h2 := hchunks.length_le
  simp only [List.length_append] at h
  omega

theorem clean_of_sizeWidth {p : Platform} (h : p.sizeWidth = 32) (m : Memory) : m.Clean p := by
  intro i
  rw [h]
  exact Nat.mod_lt _ (by decide)

/-! ## The decoder on a body -/

section
variable {p : Platform} {m : Memory} (hbody : ∀ i, m.body i = true) (hclean : m.Clean p)
include hbody hclean

/-- One chunk: the decoder is behind it, with its data. -/
theorem chunkedLoop_chunk (fuel i : Nat) (done : Bytes) {line data ending rest : Bytes}
    (hline : IsLine p.chunkLineSize line) (hsize : scanChunkSize p 0 line = some data.length)
    (hdata : data ≠ []) (hending : ending.length = crlf.length)
    (hfit : done.length + data.length < 2 ^ p.sizeWidth) {s : Source UInt8 McError}
    (hs : s.rest = line ++ (data ++ (ending ++ rest))) :
    ∃ s', s'.rest = rest ∧ chunkedLoop p m (fuel + 1) i (bodyPointer done) done.length s =
      chunkedLoop p m fuel (i + 1) (bodyPointer (done ++ data)) (done ++ data).length s' := by
  obtain ⟨s1, h1, hs1⟩ := receiveUntilLf_of_isLine hline hs
  obtain ⟨s2, h2, hs2⟩ := receiveToBuffer_of_length hs1 rfl
  obtain ⟨s3, h3, hs3⟩ := receiveToBuffer_of_length hs2 hending
  obtain ⟨block, hwrite, hblock⟩ := write_behind done (Nat.le_refl data.length) s2
  have hpointer : bodyPointer (done ++ data) = some (done ++ data) :=
    if_neg (List.append_ne_nil_of_right_ne_nil done hdata)
  have hne : data.length ≠ 0 := fun h => hdata (List.length_eq_zero_iff.1 h)
  refine ⟨s3, hs3, ?_⟩
  rw [chunkedLoop, bind_apply h1]
  simp only [scanChunkSize_clean hclean, hsize]
  simp only [if_neg hne, hbody i, bodyBlock_of_fits hne hfit]
  rw [bind_apply h2, bind_apply hwrite]
  simp only
  rw [bind_apply h3, hblock rfl, hpointer, List.length_append, Nat.mod_eq_of_lt hfit]

omit hbody in
/-- The size 0 ends the loop. -/
theorem chunkedLoop_last (fuel i : Nat) (done : Bytes) {line ending rest : Bytes} (hline : IsLine p.chunkLineSize line)
    (hsize : scanChunkSize p 0 line = some 0) (hending : ending.length = crlf.length)
    {s : Source UInt8 McError} (hs : s.rest = line ++ (ending ++ rest)) :
    ∃ s', s'.rest = rest ∧ chunkedLoop p m (fuel + 1) i (bodyPointer done) done.length s =
      some ((.ok (), bodyPointer done, done.length), s') := by
  obtain ⟨s1, h1, hs1⟩ := receiveUntilLf_of_isLine hline hs
  obtain ⟨s2, h2, hs2⟩ := receiveToBuffer_of_length hs1 hending
  refine ⟨s2, hs2, ?_⟩
  rw [chunkedLoop, bind_apply h1]
  simp only [scanChunkSize_clean hclean, hsize]
  rw [if_pos trivial, bind_apply h2]
  rfl

/-- On a whole body the loop ends behind it. -/
theorem chunkedLoop_of_body {body payload : Bytes} (h : ChunkedBody p body payload) (fuel i : Nat) (done : Bytes)
    {rest : Bytes} (hfuel : body.length ≤ fuel) (hfit : done.length + payload.length < 2 ^ p.sizeWidth)
    {s : Source UInt8 McError} (hs : s.rest = body ++ rest) :
    ∃ s', s'.rest = rest ∧ chunkedLoop p m fuel i (bodyPointer done) done.length s =
      some ((.ok (), bodyPointer (done ++ payload), (done ++ payload).length), s') := by
  obtain ⟨text, last, ending, rfl, hchunks, hlast, hsize, hending⟩ := h
  have hpos := List.length_pos_iff.2 hlast.1.ne_nil
  induction hchunks generalizing fuel i done s with
  | nil =>
    simp only [List.nil_append, List.length_append] at hfuel
    obtain ⟨fuel, rfl⟩ := Nat.exists_eq_succ_of_ne_zero (by omega : fuel ≠ 0)
    rw [List.append_nil]
    exact chunkedLoop_last hclean fuel i done hlast hsize hending (by rw [hs]; simp only [List.nil_append, List.append_assoc])
  | @cons line data ending' text payload hline hdataSize hdata hending' _ ih =>
    have hlinePos := List.length_pos_iff.2 hline.1.ne_nil
    simp only [List.length_append] at hfuel hfit
    obtain ⟨fuel, rfl⟩ := Nat.exists_eq_succ_of_ne_zero (by omega : fuel ≠ 0)
    have hs : s.rest = line ++ (data ++ (ending' ++ (text ++ (last ++ ending) ++ rest))) := by
      rw [hs]
      simp only [List.append_assoc]
    obtain ⟨s1, hs1, h1⟩ := chunkedLoop_chunk hbody hclean fuel i done hline hdataSize hdata hending'
      (by omega) hs
    obtain ⟨s', hs', h'⟩ := ih fuel (i + 1) (done ++ data) (by rw [List.length_append]; omega)
      (by simp only [List.length_append]; omega) hs1
    exact ⟨s', hs', by rw [h1, h', List.append_assoc]⟩

/-- Whatever the stream is, the loop comes to an end, and with `MCL_OK` only behind a whole body. -/
theorem chunkedLoop_outcome (fuel i : Nat) (done : Bytes) {s : Source UInt8 McError} (hfuel : s.rest.length < fuel)
    (hrange : SizesInRange p done.length s.rest) :
    ∃ code payload size s', chunkedLoop p m fuel i (bodyPointer done) done.length s = some ((code, payload, size), s') ∧
      (code = .ok () → ∃ body data, ChunkedBody p body data ∧ s.rest = body ++ s'.rest ∧
        payload = bodyPointer (done ++ data) ∧ size = (done ++ data).length) := by
  induction fuel generalizing i done s with
  | zero => cases hfuel
  | succ fuel ih =>
    obtain ⟨code, line, s1, h1⟩ := receiveUntilLf_total (two_le_chunkLineSize p) s
    rw [chunkedLoop, bind_apply h1]
    cases code with
    | error e => exact ⟨_, _, _, _, rfl, fun h => by cases h⟩
    | ok _ =>
      obtain ⟨hline, hs1⟩ := receiveUntilLf_ok h1
      cases hscan : scanChunkSize p 0 line with
      | none =>
        simp only [scanChunkSize_clean hclean, hscan]
        exact ⟨_, _, _, _, rfl, fun h => by cases h⟩
      | some size =>
        simp only [scanChunkSize_clean hclean, hscan]
        by_cases hzero : size = 0
        · subst hzero
          obtain ⟨code, ending, s2, h2⟩ := receiveToBuffer_total crlf.length s1
          rw [if_pos rfl, bind_apply h2]
          cases code with
          | error e => exact ⟨_, _, _, _, rfl, fun h => by cases h⟩
          | ok _ =>
            obtain ⟨hending, hs2⟩ := receiveToBuffer_ok h2
            refine ⟨_, _, _, _, rfl, fun _ => ⟨line ++ ending, [], ?_, ?_, ?_, ?_⟩⟩
            · exact ⟨[], line, ending, rfl, .nil, hline, hscan, hending⟩
            · rw [hs1, hs2, List.append_assoc]
            · rw [List.append_nil]
            · rw [List.append_nil]
        · have hfit : done.length + size < 2 ^ p.sizeWidth :=
            hrange (show s.rest = [] ++ (line ++ s1.rest) from hs1) .nil hline hscan
          obtain ⟨code, data, s2, h2⟩ := receiveToBuffer_total size s1
          obtain ⟨block, hwrite, hblock⟩ := write_behind done (length_of_receiveToBuffer h2) s2
          simp only [if_neg hzero, hbody i, bodyBlock_of_fits hzero hfit]
          rw [bind_apply h2]
          simp only
          rw [bind_apply hwrite]
          cases code with
          | error e => exact ⟨_, _, _, _, rfl, fun h => by cases h⟩
          | ok _ =>
            obtain ⟨rfl, hs2⟩ := receiveToBuffer_ok h2
            obtain ⟨code, ending, s3, h3⟩ := receiveToBuffer_total crlf.length s2
            simp only
            rw [bind_apply h3]
            cases code with
            | error e => exact ⟨_, _, _, _, rfl, fun h => by cases h⟩
            | ok _ =>
              obtain ⟨hending, hs3⟩ := receiveToBuffer_ok h3
              have hdata : data ≠ [] := fun h => hzero (List.length_eq_zero_iff.2 h)
              have hrest : s.rest = line ++ (data ++ (ending ++ s3.rest)) := by rw [hs1, hs2, hs3]
              have hpos := List.length_pos_iff.2 hline.1.ne_nil
              have hlen := congrArg List.length hrest
              simp only [List.length_append] at hlen
              have hpointer : bodyPointer (done ++ data) = some block := by
                rw [hblock rfl]
                exact if_neg (List.append_ne_nil_of_right_ne_nil done hdata)
              obtain ⟨code, payload, size, s', h', hok⟩ := ih (i + 1) (done ++ data) (s := s3) (by omega)
                (by rw [List.length_append]; exact (hrest ▸ hrange).rest hline hscan hdata hending)
              rw [hpointer, List.length_append] at h'
              refine ⟨code, payload, size, s', ?_, fun hcode => ?_⟩
              · simp only
                rw [Nat.mod_eq_of_lt hfit]
                exact h'
              · obtain ⟨body, data', hbody', hs', hpayload, hsize⟩ := hok hcode
                refine ⟨line ++ (data ++ (ending ++ body)), data ++ data', ?_, ?_, ?_, ?_⟩
                · exact hbody'.cons hline hscan hdata hending
                · rw [hrest, hs']
                  simp only [List.append_assoc]
                · rw [hpayload, List.append_assoc]
                · rw [hsize, List.append_assoc]

theorem getChunkedResponse_of_body {body payload rest : Bytes} (h : ChunkedBody p body payload)
    (hfit : payload.length < 2 ^ p.sizeWidth) {s : Source UInt8 McError} (hs : s.rest = body ++ rest) :
    ∃ s', s'.rest = rest ∧
      getChunkedResponse p m s = some ((.ok (), bodyPointer payload, payload.length), s') := by
  have hlen := congrArg List.length hs
  rw [List.length_append] at hlen
  exact chunkedLoop_of_body hbody hclean h _ 0 [] (by omega) (by simpa using hfit) hs

theorem getChunkedResponse_outcome {s : Source UInt8 McError} (hrange : SizesInRange p 0 s.rest) :
    ∃ code payload size s', getChunkedResponse p m s = some ((code, payload, size), s') ∧
      (code = .ok () → ∃ body data, ChunkedBody p body data ∧ s.rest = body ++ s'.rest ∧
        payload = bodyPointer data ∧ size = data.length) :=
  chunkedLoop_outcome hbody hclean _ 0 [] (Nat.lt_succ_self _) hrange

end

end MindConnect.HttpClientBasic
