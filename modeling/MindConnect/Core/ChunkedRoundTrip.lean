import MindConnect.Core.ChunkedBody
import MindConnect.Core.HttpSend
import MindConnect.Lib.Http1

/-!
# Chunks sent and received

What `send_with_callback` emits in chunked mode is a chunked body of the callback's outputs, and
`get_chunked_response` returns the data of every chunked body whose size lines fit its line buffer. With a
`Content-Length` the callback must come to exactly that many bytes, and no more are ever sent.
-/

namespace MindConnect.HttpClientBasic

open PartialIO JsonUtil

/-! ## The encoder -/

theorem digitValue_hexText {d : Nat} (h : d < 16) :
    Scan.digitValue (upperDigit (Nat.digitChar d)) = some d := by
  revert d
  decide

theorem isHex_hexText (n : Nat) : Http1.isHex (hexText n) = true := by
  have hne : hexText n ≠ [] := Scan.toDigits_map_ne_nil 16 n _
  have hdigits := Scan.isDigit_toDigits (by decide : 1 < 16) (fun d hd => digitValue_hexText hd) n
  simp only [Http1.isHex, Bool.and_eq_true, bne_iff_ne, List.all_eq_true]
  exact ⟨hne, hdigits⟩

theorem value_hexText (n : Nat) : Scan.value 16 (hexText n) = n :=
  Scan.value_toDigits (by decide : 1 < 16) (fun _ hd => digitValue_hexText hd) n

theorem length_hexText_le {n : Nat} (h : n ≤ httpCallbackBufferSize) : (hexText n).length ≤ 3 := by
  have hlt : n < 16 ^ 3 := Nat.lt_of_le_of_lt h (by decide)
  rw [hexText, List.length_map]
  exact (Nat.length_toDigits_le_iff (by decide) (by decide)).2 hlt

/-- The results of a callback up to the first 0. -/
def beforeEnd (outputs : List Bytes) : List Bytes := outputs.takeWhile (· != [])

theorem beforeEnd_cons {output : Bytes} (h : output ≠ []) (outputs : List Bytes) :
    beforeEnd (output :: outputs) = output :: beforeEnd outputs :=
  List.takeWhile_cons_of_pos (bne_iff_ne.2 h)

/-- One chunk as it is sent. -/
def chunkText (output : Bytes) : Bytes := hexText output.length ++ (crlf ++ (output ++ crlf))

theorem callbackTurn_emits {output : Bytes} (h : output.length ≤ httpCallbackBufferSize) (remainingSize : Nat) :
    Emits (callbackTurn true output remainingSize) (chunkText output) remainingSize := by
  have hhex := length_hexText_le h
  have hsnprintf : stringUtilSnprintf chunkLengthInHexBufferSize (hexText output.length ++ crlf) =
      .ok (hexText output.length ++ crlf) := by
    apply stringUtilSnprintf_ok
    · exact List.append_ne_nil_of_right_ne_nil _ (by decide)
    · rw [List.length_append, show crlf.length = 2 from rfl, chunkLengthInHexBufferSize]
      omega
  have hsize : Emits (callbackSize true output remainingSize) (hexText output.length ++ crlf) remainingSize := by
    rw [callbackSize, if_neg (Nat.not_lt.2 h), if_pos rfl, hsnprintf]
    apply Emits.of_eq (Emits.bind (sendAll_emits (hexText output.length ++ crlf)) (Emits.pure remainingSize))
    exact List.append_nil _
  unfold callbackTurn
  simp only [if_true]
  apply Emits.of_eq (hsize.bind ((sendAll_emits output).bind ((sendAll_emits crlf).bind (Emits.pure remainingSize))))
  simp only [chunkText, List.append_assoc, List.append_nil]

theorem callbackLoop_emits {outputs : List Bytes} (h : ∀ output ∈ outputs, output.length ≤ httpCallbackBufferSize)
    (remainingSize : Nat) :
    Emits (callbackLoop true outputs remainingSize)
      ((beforeEnd outputs).flatMap chunkText ++ chunkText []) remainingSize := by
  induction outputs with
  | nil => exact callbackTurn_emits (Nat.zero_le _) remainingSize
  | cons output outputs ih =>
    have hturn := callbackTurn_emits (h output List.mem_cons_self) remainingSize
    by_cases hend : output = []
    · subst hend
      exact (hturn.bind (Emits.pure remainingSize)).of_eq (by simp [beforeEnd])
    · have hrest := ih fun o ho => h o (List.mem_cons_of_mem output ho)
      have := hturn.bind (f := fun r => if output = [] then pure r else callbackLoop true outputs r)
        (by rw [if_neg hend]; exact hrest)
      exact this.of_eq (by rw [beforeEnd_cons hend, List.flatMap_cons, List.append_assoc])

/-- In chunked mode the encoder emits a chunked body of the callback's outputs. -/
theorem sendWithCallback_emits {outputs : List Bytes}
    (h : ∀ output ∈ outputs, output.length ≤ httpCallbackBufferSize) :
    Emits (sendWithCallback outputs 0) ((beforeEnd outputs).flatMap chunkText ++ chunkText []) () := by
  apply Emits.of_eq ((callbackLoop_emits h 0).bind (Emits.pure ()))
  exact List.append_nil _

theorem chunked_chunkText {fits : Nat → Prop} (hfits : ∀ n ≤ 3, fits n) {outputs : List Bytes}
    (h : ∀ output ∈ outputs, output.length ≤ httpCallbackBufferSize ∧ output ≠ []) :
    Http1.Chunked fits (outputs.flatMap chunkText ++ chunkText []) outputs.flatten := by
  induction outputs with
  | nil =>
    exact .last (isHex_hexText 0) (hfits _ (length_hexText_le (Nat.zero_le _))) (value_hexText 0)
  | cons output outputs ih =>
    obtain ⟨hle, hne⟩ := h output List.mem_cons_self
    have hrest := ih fun o ho => h o (List.mem_cons_of_mem output ho)
    have := Http1.Chunked.chunk (isHex_hexText output.length) (hfits _ (length_hexText_le hle))
      (value_hexText output.length) hne hrest
    have htext : (output :: outputs).flatMap chunkText ++ chunkText [] =
        hexText output.length ++
          (Http1.crlf ++ (output ++ (Http1.crlf ++ (outputs.flatMap chunkText ++ chunkText [])))) := by
      rw [List.flatMap_cons, chunkText]
      simp only [List.append_assoc]
      rfl
    rw [htext]
    exact this

/-! ## The decoder -/

theorem ten_le_sizeMaxText (p : Platform) : 10 ≤ p.sizeMaxText.length := by
  by_contra h
  have h1 : 2 ^ 32 ≤ 2 ^ p.sizeWidth := Nat.pow_le_pow_right (by decide) p.int_le_size
  have h2 : 10 ^ p.sizeMaxText.length ≤ 10 ^ 9 := Nat.pow_le_pow_right (by decide) (by omega)
  have h3 : 2 ^ 32 ≤ 10 ^ 9 := h1.trans (p.size_max_fits.trans h2)
  exact absurd h3 (by decide)

/-- A size line: where it ends, and what the scan makes of it. -/
theorem sizeLine {p : Platform} (hw : p.sizeWidth = 32) {digits : Bytes} (hhex : Http1.isHex digits = true)
    (hfits : digits.length ≤ p.sizeMaxText.length) (hlt : Scan.value 16 digits < 2 ^ 32) :
    IsLine p.chunkLineSize (digits ++ crlf) ∧
      scanChunkSize p 0 (digits ++ crlf) = some (Scan.value 16 digits) := by
  obtain ⟨hne, hdigits⟩ := Http1.isDigit_of_isHex hhex
  have hnul : 0 ∉ digits ++ crlf := by
    rw [List.mem_append, not_or]
    exact ⟨Http1.not_mem_of_isHex hhex (by decide), by decide⟩
  constructor
  · refine ⟨⟨digits ++ [13], 10, by simp [crlf], rfl, ?_⟩, ?_⟩
    · intro b hb
      rw [List.mem_append, List.mem_singleton] at hb
      apply beq_eq_false_iff_ne.2
      rcases hb with hb | rfl
      · rintro rfl
        exact Http1.not_mem_of_isHex hhex (by decide) hb
      · decide
    · rw [List.length_append, Platform.chunkLineSize, Platform.contentLengthBufferSize]
      omega
  · have hscan : Scan.unsigned 16 32 ([] ++ (digits ++ crlf)) = _ :=
      Scan.unsigned_of_digits (by simp) hne hdigits (by simp [crlf]; decide)
    rw [List.nil_append, Scan.toUnsigned_of_lt hlt] at hscan
    simp only [scanChunkSize, CString.ofBuffer_bytes hnul, hw, hscan, bind, Option.bind, pure,
      Nat.zero_mod, Nat.zero_div, Nat.zero_mul, Nat.zero_add, Nat.mod_eq_of_lt hlt]

/-- Every chunked body whose size lines fit the line buffer is one that the decoder takes. -/
theorem chunkedBody_of_chunked {p : Platform} (hw : p.sizeWidth = 32) {text payload : Bytes}
    (h : Http1.Chunked (· ≤ p.sizeMaxText.length) text payload) (hlt : payload.length < 2 ^ 32) :
    ChunkedBody p text payload := by
  induction h with
  | @last digits hhex hfits hzero =>
    obtain ⟨hline, hsize⟩ := sizeLine hw hhex hfits (by rw [hzero]; decide)
    rw [hzero] at hsize
    exact ⟨[], digits ++ crlf, crlf, by simp [crlf, Http1.crlf], .nil, hline, hsize, rfl⟩
  | @chunk digits data text payload hhex hfits hvalue hdata _ ih =>
    rw [List.length_append] at hlt
    obtain ⟨hline, hsize⟩ := sizeLine hw hhex hfits (by omega)
    rw [hvalue] at hsize
    have := (ih (by omega)).cons hline hsize hdata (rfl : crlf.length = crlf.length)
    rw [List.append_assoc] at this
    exact this

/-! ## A body of a known length -/

/-- Of `budget` bytes the program sends some and, when it succeeds, says how many it leaves at most. -/
def Spends (p : Send Nat) (budget : Nat) : Prop :=
  ∀ s, ∃ sent, (p s).2.sent = s.sent ++ sent ∧ sent.length ≤ budget ∧
    ∀ left, (p s).1 = .ok left → sent.length + left ≤ budget

theorem sendBuffer_sends (bytes : Bytes) (s : Sink UInt8 McError) :
    ∃ sent, (sendBuffer bytes s).2.sent = s.sent ++ sent ∧ sent.length ≤ bytes.length := by
  obtain ⟨sent, hpre, hsent, -⟩ := sendAll_spec bytes s
  exact ⟨sent, hsent, hpre.length_le⟩

theorem bind_eq {β γ : Type} (p : Send β) (f : β → Send γ) (s : Sink UInt8 McError) :
    (p >>= f) s = match p s with
      | (.ok b, t) => f b t
      | (.error e, t) => (.error e, t) := by
  simp only [Bind.bind, ExceptT.bind, ExceptT.mk, StateT.bind]
  rcases p s with ⟨_ | _, t⟩ <;> rfl

theorem callbackTurn_of_lt {output : Bytes} {remainingSize : Nat}
    (h : httpCallbackBufferSize < output.length ∨ remainingSize < output.length) (s : Sink UInt8 McError) :
    callbackTurn false output remainingSize s = (.error .fail, s) := by
  have hsize : callbackSize false output remainingSize = throw .fail := by
    unfold callbackSize
    by_cases hbuffer : httpCallbackBufferSize < output.length
    · rw [if_pos hbuffer]
    · rw [if_neg hbuffer, if_neg (by decide), if_pos (h.resolve_left hbuffer)]
  rw [callbackTurn, hsize]
  rfl

theorem callbackTurn_of_le {output : Bytes} {remainingSize : Nat} (hbuffer : output.length ≤ httpCallbackBufferSize)
    (h : output.length ≤ remainingSize) :
    callbackTurn false output remainingSize = do
      sendBuffer output
      return remainingSize - output.length := by
  have hsize : callbackSize false output remainingSize = pure (remainingSize - output.length) := by
    unfold callbackSize
    rw [if_neg (Nat.not_lt.2 hbuffer), if_neg (by decide), if_neg (Nat.not_lt.2 h)]
  unfold callbackTurn
  rw [hsize, pure_bind]
  rfl

theorem callbackTurn_ok {output : Bytes} {remainingSize left : Nat} {s : Sink UInt8 McError}
    (h : (callbackTurn false output remainingSize s).1 = .ok left) : output.length + left = remainingSize := by
  by_cases hfail : httpCallbackBufferSize < output.length ∨ remainingSize < output.length
  · rw [callbackTurn_of_lt hfail] at h
    cases h
  · obtain ⟨hbuffer, hle⟩ := not_or.1 hfail
    rw [callbackTurn_of_le (Nat.not_lt.1 hbuffer) (Nat.not_lt.1 hle), bind_eq] at h
    generalize sendBuffer output s = r at h
    rcases r with ⟨_ | _, t⟩
    · cases h
    · cases h
      omega

theorem callbackTurn_spends (output : Bytes) (remainingSize : Nat) :
    Spends (callbackTurn false output remainingSize) remainingSize := by
  intro s
  have hok : ∀ left, (callbackTurn false output remainingSize s).1 = .ok left → output.length + left = remainingSize :=
    fun left h => callbackTurn_ok h
  by_cases h : httpCallbackBufferSize < output.length ∨ remainingSize < output.length
  · rw [callbackTurn_of_lt h]
    exact ⟨[], (List.append_nil _).symm, Nat.zero_le _, fun left hleft => by cases hleft⟩
  · obtain ⟨hbuffer, hle⟩ := not_or.1 h
    obtain ⟨sent, hsent, hlen⟩ := sendBuffer_sends output s
    refine ⟨sent, ?_, by omega, fun left hleft => ?_⟩
    · rw [callbackTurn_of_le (Nat.not_lt.1 hbuffer) (Nat.not_lt.1 hle), bind_eq, ← hsent]
      generalize sendBuffer output s = r
      rcases r with ⟨_ | _, t⟩ <;> rfl
    · have := hok left hleft
      omega

theorem callbackLoop_spends (outputs : List Bytes) (remainingSize : Nat) :
    Spends (callbackLoop false outputs remainingSize) remainingSize := by
  induction outputs generalizing remainingSize with
  | nil => exact callbackTurn_spends [] remainingSize
  | cons output outputs ih =>
    intro s
    obtain ⟨sent, hsent, hlen, hleft⟩ := callbackTurn_spends output remainingSize s
    rw [callbackLoop, bind_eq]
    generalize callbackTurn false output remainingSize s = r at hsent hleft ⊢
    rcases r with ⟨_ | left, t⟩
    · exact ⟨sent, hsent, hlen, fun left h => by cases h⟩
    · have hbudget := hleft left rfl
      by_cases hend : output = []
      · simp only
        rw [if_pos hend]
        refine ⟨sent, hsent, hlen, fun left' h => ?_⟩
        cases h
        exact hbudget
      · obtain ⟨sent', hsent', hlen', hleft'⟩ := ih left t
        simp only
        rw [if_neg hend]
        refine ⟨sent ++ sent', by rw [hsent', hsent, List.append_assoc], ?_, fun left' h => ?_⟩
        · rw [List.length_append]
          omega
        · have := hleft' left' h
          rw [List.length_append]
          omega

/-- Never more than `payload_size` bytes are sent, whatever the sends come to. -/
theorem sendWithCallback_spends (outputs : List Bytes) {payloadSize : Nat} (hsize : payloadSize ≠ 0)
    (s : Sink UInt8 McError) :
    ∃ sent, (sendWithCallback outputs payloadSize s).2.sent = s.sent ++ sent ∧ sent.length ≤ payloadSize := by
  obtain ⟨sent, hsent, hlen, -⟩ := callbackLoop_spends outputs payloadSize s
  refine ⟨sent, ?_, hlen⟩
  rw [sendWithCallback, beq_eq_false_iff_ne.2 hsize, bind_eq]
  generalize callbackLoop false outputs payloadSize s = r at hsent ⊢
  rcases r with ⟨_ | left, t⟩
  · exact hsent
  · simp only
    by_cases h : left ≠ 0
    · rw [if_pos h]
      exact hsent
    · rw [if_neg h]
      exact hsent

theorem callbackLoop_ok {outputs : List Bytes} {remainingSize left : Nat} {s : Sink UInt8 McError}
    (h : (callbackLoop false outputs remainingSize s).1 = .ok left) :
    (beforeEnd outputs).flatten.length + left = remainingSize := by
  induction outputs generalizing remainingSize s with
  | nil => exact callbackTurn_ok h
  | cons output outputs ih =>
    have hok : ∀ left, (callbackTurn false output remainingSize s).1 = .ok left →
        output.length + left = remainingSize := fun left h => callbackTurn_ok h
    rw [callbackLoop, bind_eq] at h
    generalize callbackTurn false output remainingSize s = r at h hok
    rcases r with ⟨_ | left', t⟩
    · cases h
    · have hturn := hok left' rfl
      simp only at h
      by_cases hend : output = []
      · subst hend
        rw [if_pos rfl] at h
        cases h
        exact hturn
      · rw [if_neg hend] at h
        have := ih h
        rw [beforeEnd_cons hend, List.flatten_cons, List.length_append]
        omega

theorem callbackTurn_contentLength_emits {output : Bytes} {remainingSize : Nat}
    (hbuffer : output.length ≤ httpCallbackBufferSize) (h : output.length ≤ remainingSize) :
    Emits (callbackTurn false output remainingSize) output (remainingSize - output.length) := by
  rw [callbackTurn_of_le hbuffer h]
  apply Emits.of_eq ((sendAll_emits output).bind (Emits.pure (remainingSize - output.length)))
  exact List.append_nil output

theorem callbackLoop_contentLength_emits {outputs : List Bytes}
    (h : ∀ output ∈ outputs, output.length ≤ httpCallbackBufferSize) {remainingSize : Nat}
    (hle : (beforeEnd outputs).flatten.length ≤ remainingSize) :
    Emits (callbackLoop false outputs remainingSize) (beforeEnd outputs).flatten
      (remainingSize - (beforeEnd outputs).flatten.length) := by
  induction outputs generalizing remainingSize with
  | nil => exact callbackTurn_contentLength_emits (Nat.zero_le _) (Nat.zero_le _)
  | cons output outputs ih =>
    have hbuffer := h output List.mem_cons_self
    by_cases hend : output = []
    · subst hend
      apply Emits.of_eq ((callbackTurn_contentLength_emits hbuffer (Nat.zero_le _)).bind (Emits.pure _))
      rfl
    · rw [beforeEnd_cons hend, List.flatten_cons, List.length_append] at hle ⊢
      have hrest := ih (fun o ho => h o (List.mem_cons_of_mem output ho)) (by omega : _ ≤ remainingSize - output.length)
      rw [← Nat.sub_sub, callbackLoop]
      apply (callbackTurn_contentLength_emits hbuffer (by omega)).bind
      rw [if_neg hend]
      exact hrest

theorem sendWithCallback_contentLength_emits {outputs : List Bytes}
    (h : ∀ output ∈ outputs, output.length ≤ httpCallbackBufferSize) {payloadSize : Nat}
    (htotal : (beforeEnd outputs).flatten.length = payloadSize) (hsize : payloadSize ≠ 0) :
    Emits (sendWithCallback outputs payloadSize) (beforeEnd outputs).flatten () := by
  rw [sendWithCallback, beq_eq_false_iff_ne.2 hsize]
  apply Emits.of_eq ((callbackLoop_contentLength_emits h (Nat.le_of_eq htotal)).bind ?_) (List.append_nil _)
  rw [htotal, Nat.sub_self]
  exact Emits.pure ()

/-- With a length the callback must come to exactly that many bytes. -/
theorem sendWithCallback_ok_iff {outputs : List Bytes} (h : ∀ output ∈ outputs, output.length ≤ httpCallbackBufferSize)
    {payloadSize : Nat} (hsize : payloadSize ≠ 0) {s : Sink UInt8 McError} (hs : s.Reliable) :
    (sendWithCallback outputs payloadSize s).1 = .ok () ↔ (beforeEnd outputs).flatten.length = payloadSize := by
  constructor
  · intro hok
    rw [sendWithCallback, beq_eq_false_iff_ne.2 hsize, bind_eq] at hok
    have hloop : ∀ left, (callbackLoop false outputs payloadSize s).1 = .ok left →
        (beforeEnd outputs).flatten.length + left = payloadSize := fun left h => callbackLoop_ok h
    generalize callbackLoop false outputs payloadSize s = r at hok hloop
    rcases r with ⟨_ | left, t⟩
    · cases hok
    · have := hloop left rfl
      simp only at hok
      by_cases hleft : left ≠ 0
      · rw [if_pos hleft] at hok
        cases hok
      · omega
  · intro htotal
    obtain ⟨t, ht, -⟩ := sendWithCallback_contentLength_emits h htotal hsize hs
    rw [ht]

/-! ## The round trip -/

/-- The decoder takes `text` for a body of this payload, from every source and whatever follows. -/
def Decodes (p : Platform) (m : Memory) (text payload : Bytes) : Prop :=
  ∀ (source : Source UInt8 McError) (rest : Bytes), source.rest = text ++ rest →
    ∃ source', source'.rest = rest ∧
      getChunkedResponse p m source = some ((.ok (), bodyPointer payload, payload.length), source')

theorem decodes_of_chunked {p : Platform} (hw : p.sizeWidth = 32) {m : Memory} (hbody : ∀ i, m.body i = true)
    {text payload : Bytes} (h : Http1.Chunked (· ≤ p.sizeMaxText.length) text payload)
    (hlt : payload.length < 2 ^ p.sizeWidth) : Decodes p m text payload := by
  intro source rest hs
  exact getChunkedResponse_of_body hbody (clean_of_sizeWidth hw m)
    (chunkedBody_of_chunked hw h (by rwa [hw] at hlt)) hlt hs

/-- Chunks sent are chunks received; the decoder takes all chunked bodies whose size lines fit its buffer; a length is
kept to. -/
theorem chunked_roundTrip {p : Platform} (hw : p.sizeWidth = 32) {m : Memory} (hbody : ∀ i, m.body i = true) :
    (∀ outputs : List Bytes, (∀ output ∈ outputs, output.length ≤ httpCallbackBufferSize) →
      (beforeEnd outputs).flatten.length < 2 ^ p.sizeWidth →
      ∃ text, Emits (sendWithCallback outputs 0) text () ∧ Decodes p m text (beforeEnd outputs).flatten) ∧
    (∀ text payload, Http1.Chunked (· ≤ p.sizeMaxText.length) text payload → payload.length < 2 ^ p.sizeWidth →
      Decodes p m text payload) ∧
    (∀ (outputs : List Bytes) (payloadSize : Nat) (sink : Sink UInt8 McError), payloadSize ≠ 0 →
      (∀ output ∈ outputs, output.length ≤ httpCallbackBufferSize) → sink.Reliable →
      ((sendWithCallback outputs payloadSize sink).1 = .ok () ↔ (beforeEnd outputs).flatten.length = payloadSize)) ∧
    (∀ (outputs : List Bytes) (payloadSize : Nat) (sink : Sink UInt8 McError), payloadSize ≠ 0 →
      ∃ sent, (sendWithCallback outputs payloadSize sink).2.sent = sink.sent ++ sent ∧ sent.length ≤ payloadSize) := by
  refine ⟨fun outputs houtputs hlt => ?_, fun text payload h hlt => decodes_of_chunked hw hbody h hlt,
    fun outputs payloadSize sink hsize houtputs hs => sendWithCallback_ok_iff houtputs hsize hs,
    fun outputs payloadSize sink hsize => sendWithCallback_spends outputs hsize sink⟩
  refine ⟨_, sendWithCallback_emits houtputs, decodes_of_chunked hw hbody (chunked_chunkText ?_ ?_) hlt⟩
  · intro n hn
    exact hn.trans ((by decide : 3 ≤ 10).trans (ten_le_sizeMaxText p))
  · intro output houtput
    exact ⟨houtputs output (List.takeWhile_subset _ houtput), bne_iff_ne.1 (List.mem_takeWhile_imp (p := (· != [])) houtput)⟩

def helloOutputs : List Bytes := [ascii "hel", ascii "lo"]

theorem helloOutputs_roundTrip :
    (∃ text, Emits (sendWithCallback helloOutputs 0) text () ∧
      Decodes platform32 freshMemory text (beforeEnd helloOutputs).flatten) ∧
    Decodes platform32 freshMemory (ascii "0\r\n\r\n") [] ∧
    ((sendWithCallback helloOutputs 5 ⟨[], fun _ => .ok 1⟩).1 = .ok () ↔
      (beforeEnd helloOutputs).flatten.length = 5) ∧
    ∃ sent, (sendWithCallback helloOutputs 4 ⟨[], fun _ => .error .networkSendFail⟩).2.sent = [] ++ sent ∧
      sent.length ≤ 4 := by
  obtain ⟨h1, h2, h3, h4⟩ :=
    chunked_roundTrip (p := platform32) rfl (m := freshMemory) fun _ => rfl
  refine ⟨h1 helloOutputs (by decide) (by decide), ?_, ?_, h4 helloOutputs 4 _ (by decide)⟩
  · exact h2 (ascii "0" ++ (Http1.crlf ++ Http1.crlf)) [] (.last (by decide) (by decide) (by decide)) (by decide)
  · exact h3 helloOutputs 5 _ (by decide) (by decide) fun _ => ⟨1, rfl⟩

/-- A size 0 of 14 digits, one more than the line buffer takes on this machine. -/
def longSizeLine : Bytes := List.replicate 14 48 ++ (Http1.crlf ++ Http1.crlf)

theorem longSizeLine_not_decoded :
    Http1.Chunked (fun _ => True) longSizeLine [] ∧
      (getChunkedResponse platform32 freshMemory ⟨longSizeLine, fun _ => 1, .networkReceiveFail⟩).map Prod.fst =
        some (.error .fail, none, 0) :=
  ⟨.last (by decide) trivial (by decide), by decide⟩

end MindConnect.HttpClientBasic
