import MindConnect.Core.ChunkedBody

/-!
# Where the chunked decoder writes

`Reached` are the states in which `get_chunked_response` asks for the next size line. In each of them the size it acts
on should be the number on the line, the size of the next block the bytes so far and that number, and the bytes that
arrive should fall inside the block. This is so exactly if no line has a number that is out of range, or whose high
half differs from what `chunk_size` happens to hold there (`staysInside_iff`).

| here | there |
| --- | --- |
| `Reached` | the top of the `while` (`http_client_basic.c:633`) |
| `requestedSize` | the argument of `MCL_MALLOC` or `MCL_RESIZE` (`:661`, `:665`) |
| `lineNumber` | the hexadecimal number in `chunk_string` |
-/

namespace MindConnect.HttpClientBasic

open PartialIO

variable {p : Platform} {m : Memory} {s : Source UInt8 McError}

/-- The number on a size line. -/
def lineNumber (line : Bytes) : Option Int := Scan.number 16 (CString.ofBuffer line).bytes

/-- What is asked for before a chunk of `chunkSize` bytes is received. -/
def requestedSize (p : Platform) (body : Option Bytes) (bodySize chunkSize : Nat) : Nat :=
  match body with
  | none => chunkSize
  | some _ => (bodySize + chunkSize) % 2 ^ p.sizeWidth

theorem length_of_bodyBlock {granted : Bool} {body : Option Bytes} {bodySize chunkSize : Nat} {block : Bytes}
    (h : bodyBlock p granted body bodySize chunkSize = some block) :
    block.length = requestedSize p body bodySize chunkSize := by
  cases body with
  | none => exact length_of_mclMemoryMalloc h
  | some _ => exact length_of_mclMemoryRealloc h

theorem granted_of_bodyBlock {granted : Bool} {body : Option Bytes} {bodySize chunkSize : Nat} {block : Bytes}
    (h : bodyBlock p granted body bodySize chunkSize = some block) : granted = true := by
  cases body with
  | none => exact (mclMemoryMalloc_eq_some.1 h).2.1
  | some _ => exact (mclMemoryRealloc_eq_some.1 h).2.1

/-- The state at the top of a turn: how many chunks there were, the body with its size, how many bytes have been
received for it, and what is to come. -/
inductive Reached (p : Platform) (m : Memory) (s : Source UInt8 McError) :
    Nat → Option Bytes → Nat → Nat → Source UInt8 McError → Prop
  | start : Reached p m s 0 none 0 0 s
  | next {i bodySize received chunkSize : Nat} {body : Option Bytes} {t t₁ t₂ t₃ : Source UInt8 McError}
      {line bytes block filled ending : Bytes} (turn : Reached p m s i body bodySize received t)
      (hline : receiveUntilLf p.chunkLineSize t = some ((.ok (), line), t₁))
      (hsize : scanChunkSize p (m.chunkSize i) line = some chunkSize) (hne : chunkSize ≠ 0)
      (hblock : bodyBlock p (m.body i) body bodySize chunkSize = some block)
      (hbytes : receiveToBuffer chunkSize t₁ = some ((.ok (), bytes), t₂))
      (hfilled : block.write bodySize bytes = some filled)
      (hending : receiveToBuffer crlf.length t₂ = some ((.ok (), ending), t₃)) :
      Reached p m s (i + 1) (some filled) ((bodySize + chunkSize) % 2 ^ p.sizeWidth) (received + chunkSize) t₃

/-- A turn that acts on the number of its line, asks for what it needs and writes inside what it has. -/
structure TurnInside (p : Platform) (m : Memory) (i : Nat) (body : Option Bytes) (bodySize received : Nat)
    (line : Bytes) (chunkSize : Nat) (t₁ : Source UInt8 McError) : Prop where
  number : lineNumber line = some (chunkSize : Int)
  requested : chunkSize ≠ 0 → requestedSize p body bodySize chunkSize = received + chunkSize
  written : chunkSize ≠ 0 → ∀ block, bodyBlock p (m.body i) body bodySize chunkSize = some block →
    ∀ code bytes t₂, receiveToBuffer chunkSize t₁ = some ((code, bytes), t₂) → bodySize + bytes.length ≤ block.length

def StaysInside (p : Platform) (m : Memory) (s : Source UInt8 McError) : Prop :=
  ∀ ⦃i body bodySize received t line t₁ chunkSize⦄, Reached p m s i body bodySize received t →
    receiveUntilLf p.chunkLineSize t = some ((.ok (), line), t₁) →
    scanChunkSize p (m.chunkSize i) line = some chunkSize →
    TurnInside p m i body bodySize received line chunkSize t₁

/-- Chunks whose lines have the numbers of their bytes. -/
inductive NumberedChunks (p : Platform) : Nat → Bytes → Bytes → Prop
  | nil : NumberedChunks p 0 [] []
  | snoc {i : Nat} {text payload line data ending : Bytes} (chunks : NumberedChunks p i text payload)
      (hline : IsLine p.chunkLineSize line) (hnumber : lineNumber line = some (data.length : Int)) (hdata : data ≠ [])
      (hending : ending.length = crlf.length) :
      NumberedChunks p (i + 1) (text ++ (line ++ (data ++ ending))) (payload ++ data)

/-- Behind `i` complete chunks the number of the next line is not negative, the bytes received and it are in range,
and its high half is what `chunk_size` has there before. -/
def NumbersInRange (p : Platform) (m : Memory) (s : Source UInt8 McError) : Prop :=
  ∀ ⦃i text payload line rest number⦄, s.rest = text ++ (line ++ rest) → NumberedChunks p i text payload →
    (∀ j < i, m.body j = true) → IsLine p.chunkLineSize line → lineNumber line = some number →
    ∃ n : Nat, number = n ∧ n / 2 ^ 32 = m.chunkSize i % 2 ^ p.sizeWidth / 2 ^ 32 ∧
      payload.length + n < 2 ^ p.sizeWidth

/-! ## The states and the loop -/

/-- The loop comes through every state that is reached, with turns left for all that may follow. -/
theorem Reached.loop {i bodySize received : Nat} {body : Option Bytes} {t : Source UInt8 McError}
    (h : Reached p m s i body bodySize received t) :
    ∃ fuel, t.rest.length < fuel ∧ getChunkedResponse p m s = chunkedLoop p m fuel i body bodySize t := by
  induction h with
  | start => exact ⟨s.rest.length + 1, Nat.lt_succ_self _, rfl⟩
  | @next i bodySize received chunkSize body t t₁ t₂ t₃ line bytes block filled ending turn hline hsize hne hblock
      hbytes hfilled hending ih =>
    obtain ⟨fuel, hfuel, hloop⟩ := ih
    obtain ⟨hisLine, ht⟩ := receiveUntilLf_ok hline
    obtain ⟨-, ht₁⟩ := receiveToBuffer_ok hbytes
    obtain ⟨-, ht₂⟩ := receiveToBuffer_ok hending
    have hpos := List.length_pos_iff.2 hisLine.1.ne_nil
    rw [ht, ht₁, ht₂] at hfuel
    simp only [List.length_append] at hfuel
    obtain ⟨fuel, rfl⟩ := Nat.exists_eq_succ_of_ne_zero (by omega : fuel ≠ 0)
    refine ⟨fuel, by omega, ?_⟩
    rw [hloop, chunkedLoop, bind_apply hline]
    simp only [hsize, if_neg hne, hblock]
    rw [bind_apply hbytes]
    simp only
    rw [bind_apply (write_of_eq_some hfilled t₂), bind_apply hending]

/-- A write outside the block has no outcome. -/
theorem Reached.outside {i bodySize received chunkSize : Nat} {body : Option Bytes} {t t₁ t₂ : Source UInt8 McError}
    {line block bytes : Bytes} {code : Result Unit} (h : Reached p m s i body bodySize received t)
    (hline : receiveUntilLf p.chunkLineSize t = some ((.ok (), line), t₁))
    (hsize : scanChunkSize p (m.chunkSize i) line = some chunkSize) (hne : chunkSize ≠ 0)
    (hblock : bodyBlock p (m.body i) body bodySize chunkSize = some block)
    (hbytes : receiveToBuffer chunkSize t₁ = some ((code, bytes), t₂))
    (hout : block.length < bodySize + bytes.length) :
    getChunkedResponse p m s = none := by
  obtain ⟨fuel, hfuel, hloop⟩ := h.loop
  obtain ⟨fuel, rfl⟩ := Nat.exists_eq_succ_of_ne_zero (by omega : fuel ≠ 0)
  have hwrite : block.write bodySize bytes = none := Bytes.write_eq_none (Nat.not_le_of_lt hout)
  rw [hloop, chunkedLoop, bind_apply hline]
  simp only [hsize, if_neg hne, hblock]
  rw [bind_apply hbytes]
  show (write block bodySize bytes t₂).bind _ = none
  rw [write, hwrite]
  rfl

/-- Inside its blocks the decoder comes to an end. -/
theorem StaysInside.defined (hinside : StaysInside p m s) : ∃ r, getChunkedResponse p m s = some r := by
  have hloop : ∀ (fuel i bodySize received : Nat) (body : Option Bytes) (t : Source UInt8 McError),
      Reached p m s i body bodySize received t → t.rest.length < fuel →
      ∃ r, chunkedLoop p m fuel i body bodySize t = some r := by
    intro fuel
    induction fuel with
    | zero =>
      intro _ _ _ _ t _ hfuel
      cases hfuel
    | succ fuel ih =>
      intro i bodySize received body t hreached hfuel
      obtain ⟨code, line, t₁, hline⟩ := receiveUntilLf_total (two_le_chunkLineSize p) t
      rw [chunkedLoop, bind_apply hline]
      cases code with
      | error e => exact ⟨_, rfl⟩
      | ok u =>
        cases hscan : scanChunkSize p (m.chunkSize i) line with
        | none =>
          simp only [hscan]
          exact ⟨_, rfl⟩
        | some chunkSize =>
          have hturn := hinside hreached hline hscan
          simp only [hscan]
          by_cases hne : chunkSize = 0
          · obtain ⟨code, ending, t₂, hending⟩ := receiveToBuffer_total crlf.length t₁
            rw [if_pos hne, bind_apply hending]
            cases code <;> exact ⟨_, rfl⟩
          · rw [if_neg hne]
            cases hblock : bodyBlock p (m.body i) body bodySize chunkSize with
            | none => exact ⟨_, rfl⟩
            | some block =>
              obtain ⟨code, bytes, t₂, hbytes⟩ := receiveToBuffer_total chunkSize t₁
              have hfilled := Bytes.write_eq_some (hturn.written hne block hblock code bytes t₂ hbytes)
              simp only
              rw [bind_apply hbytes]
              simp only
              rw [bind_apply (write_of_eq_some hfilled t₂)]
              cases code with
              | error e => exact ⟨_, rfl⟩
              | ok u =>
                obtain ⟨code, ending, t₃, hending⟩ := receiveToBuffer_total crlf.length t₂
                simp only
                rw [bind_apply hending]
                cases code with
                | error e => exact ⟨_, rfl⟩
                | ok u =>
                  obtain ⟨hisLine, ht⟩ := receiveUntilLf_ok hline
                  obtain ⟨-, ht₁⟩ := receiveToBuffer_ok hbytes
                  obtain ⟨-, ht₂⟩ := receiveToBuffer_ok hending
                  have hpos := List.length_pos_iff.2 hisLine.1.ne_nil
                  rw [ht, ht₁, ht₂] at hfuel
                  simp only [List.length_append] at hfuel
                  exact ih _ _ _ _ _ (hreached.next hline hscan hne hblock hbytes hfilled hending) (by omega)
  exact hloop _ _ _ _ _ _ .start (Nat.lt_succ_self _)

/-! ## The size of a line -/

theorem scanChunkSize_of_number {chunkSize n : Nat} {line : Bytes} (hnumber : lineNumber line = some (n : Int))
    (hlt : n < 2 ^ p.sizeWidth) (hhigh : n / 2 ^ 32 = chunkSize % 2 ^ p.sizeWidth / 2 ^ 32) :
    scanChunkSize p chunkSize line = some n := by
  have hscan : Scan.unsigned 16 p.sizeWidth (CString.ofBuffer line).bytes = some n :=
    Scan.unsigned_of_number hnumber hlt
  simp only [scanChunkSize, hscan, ← hhigh, bind, Option.bind, pure]
  congr 1
  omega

theorem scanChunkSize_isSome (chunkSize : Nat) (line : Bytes) :
    (scanChunkSize p chunkSize line).isSome = (lineNumber line).isSome := by
  rw [lineNumber, ← Scan.unsigned_isSome (w := p.sizeWidth), scanChunkSize]
  cases Scan.unsigned 16 p.sizeWidth (CString.ofBuffer line).bytes <;> rfl

/-- The scan sets the low half. -/
theorem high_of_scanChunkSize {chunkSize n : Nat} {line : Bytes} (h : scanChunkSize p chunkSize line = some n) :
    n / 2 ^ 32 = chunkSize % 2 ^ p.sizeWidth / 2 ^ 32 ∧ n < 2 ^ p.sizeWidth := by
  obtain ⟨size, -, hsize⟩ := Option.bind_eq_some_iff.1 h
  obtain rfl := Option.some.inj hsize
  have hpow : 2 ^ p.sizeWidth = 2 ^ 32 * 2 ^ (p.sizeWidth - 32) := by
    rw [← Nat.pow_add, Nat.add_sub_cancel' p.int_le_size]
  have hlt : chunkSize % 2 ^ p.sizeWidth / 2 ^ 32 < 2 ^ (p.sizeWidth - 32) := by
    apply Nat.div_lt_of_lt_mul
    rw [← hpow]
    exact Nat.mod_lt _ (Nat.two_pow_pos _)
  have hlow : size % 2 ^ 32 < 2 ^ 32 := Nat.mod_lt _ (Nat.two_pow_pos _)
  generalize chunkSize % 2 ^ p.sizeWidth / 2 ^ 32 = high at hlt ⊢
  generalize size % 2 ^ 32 = low at hlow ⊢
  refine ⟨by omega, ?_⟩
  rw [hpow]
  generalize 2 ^ (p.sizeWidth - 32) = k at hlt ⊢
  omega

/-- A request for the sum says that the sum is in range, unless nothing was added. -/
theorem fits_of_requested {payload : Bytes} {n : Nat} (hn : n < 2 ^ p.sizeWidth)
    (h : requestedSize p (bodyPointer payload) payload.length n = payload.length + n) :
    payload.length + n < 2 ^ p.sizeWidth := by
  unfold bodyPointer at h
  split_ifs at h with hnil
  · rw [hnil]
    simpa using hn
  · rw [← h]
    exact Nat.mod_lt _ (Nat.two_pow_pos _)

/-! ## Numbers in range -/

/-- The size scanned from the next line is its number. -/
theorem NumbersInRange.chunkSize (hrange : NumbersInRange p m s) {i chunkSize : Nat}
    {text payload line rest : Bytes} (hs : s.rest = text ++ (line ++ rest)) (hchunks : NumberedChunks p i text payload)
    (hall : ∀ j < i, m.body j = true) (hline : IsLine p.chunkLineSize line)
    (hsize : scanChunkSize p (m.chunkSize i) line = some chunkSize) :
    lineNumber line = some (chunkSize : Int) ∧ payload.length + chunkSize < 2 ^ p.sizeWidth := by
  obtain ⟨number, hnumber⟩ : ∃ number, lineNumber line = some number := by
    rw [← Option.isSome_iff_exists, ← scanChunkSize_isSome (m.chunkSize i) line, hsize]
    rfl
  obtain ⟨n, rfl, hhigh, hfit⟩ := hrange hs hchunks hall hline hnumber
  have hscan := scanChunkSize_of_number hnumber (by omega) hhigh
  obtain rfl : chunkSize = n := Option.some.inj (hsize.symm.trans hscan)
  exact ⟨hnumber, hfit⟩

/-- The states reached lie behind chunks with the numbers of their bytes. -/
theorem Reached.chunks (hrange : NumbersInRange p m s) {i bodySize received : Nat} {body : Option Bytes}
    {t : Source UInt8 McError} (h : Reached p m s i body bodySize received t) :
    ∃ text payload, s.rest = text ++ t.rest ∧ NumberedChunks p i text payload ∧ (∀ j < i, m.body j = true) ∧
      body = bodyPointer payload ∧ bodySize = payload.length ∧ received = payload.length := by
  induction h with
  | start => exact ⟨[], [], rfl, .nil, by simp, rfl, rfl, rfl⟩
  | @next i bodySize received chunkSize body t t₁ t₂ t₃ line bytes block filled ending turn hline hsize hne hblock
      hbytes hfilled hending ih =>
    obtain ⟨text, payload, hs, hchunks, hall, rfl, rfl, rfl⟩ := ih
    obtain ⟨hisLine, ht⟩ := receiveUntilLf_ok hline
    obtain ⟨hlength, ht₁⟩ := receiveToBuffer_ok hbytes
    obtain ⟨hlength', ht₂⟩ := receiveToBuffer_ok hending
    obtain ⟨hnumber, hfit⟩ := hrange.chunkSize (by rw [hs, ht]) hchunks hall hisLine hsize
    subst hlength
    have hdata : bytes ≠ [] := fun h => hne (by rw [h]; rfl)
    have hgranted := granted_of_bodyBlock hblock
    rw [hgranted, bodyBlock_of_fits hne hfit] at hblock
    obtain rfl := Option.some.inj hblock
    obtain ⟨filled', hwrite, hfull⟩ := write_behind payload (Nat.le_refl bytes.length) t
    obtain rfl : filled = filled' := by
      simp only [write, hfilled, Option.map_some, Option.some.injEq, Prod.mk.injEq] at hwrite
      exact hwrite.1
    refine ⟨_, payload ++ bytes, ?_, hchunks.snoc hisLine hnumber hdata hlength', fun j hj => ?_, ?_, ?_, ?_⟩
    · rw [hs, ht, ht₁, ht₂]
      simp only [List.append_assoc]
    · rcases Nat.lt_succ_iff_lt_or_eq.1 hj with hj | rfl
      · exact hall j hj
      · exact hgranted
    · rw [hfull rfl]
      exact (if_neg (List.append_ne_nil_of_right_ne_nil payload hdata)).symm
    · rw [Nat.mod_eq_of_lt hfit, List.length_append]
    · rw [List.length_append]

theorem requestedSize_eq {payload : Bytes} {n : Nat} (hfit : payload.length + n < 2 ^ p.sizeWidth) :
    requestedSize p (bodyPointer payload) payload.length n = payload.length + n := by
  unfold bodyPointer
  split_ifs with hnil
  · rw [hnil]
    exact (Nat.zero_add n).symm
  · exact Nat.mod_eq_of_lt hfit

theorem staysInside_of_range (hrange : NumbersInRange p m s) : StaysInside p m s := by
  intro i body bodySize received t line t₁ chunkSize hreached hline hsize
  obtain ⟨text, payload, hs, hchunks, hall, rfl, rfl, rfl⟩ := hreached.chunks hrange
  obtain ⟨hisLine, ht⟩ := receiveUntilLf_ok hline
  obtain ⟨hnumber, hfit⟩ := hrange.chunkSize (by rw [hs, ht]) hchunks hall hisLine hsize
  refine ⟨hnumber, fun _ => requestedSize_eq hfit, fun _ block hblock code bytes t₂ hbytes => ?_⟩
  rw [length_of_bodyBlock hblock, requestedSize_eq hfit]
  exact Nat.add_le_add_left (length_of_receiveToBuffer hbytes) _

/-! ## What staying inside takes -/

/-- Behind chunks with the numbers of their bytes there is a turn. -/
theorem NumberedChunks.reached (hinside : StaysInside p m s) {i : Nat} {text payload : Bytes}
    (h : NumberedChunks p i text payload) : ∀ {rest : Bytes}, s.rest = text ++ rest → (∀ j < i, m.body j = true) →
      payload.length < 2 ^ p.sizeWidth ∧
        ∃ t, t.rest = rest ∧ Reached p m s i (bodyPointer payload) payload.length payload.length t := by
  induction h with
  | nil =>
    intro rest hs _
    exact ⟨Nat.two_pow_pos _, s, hs, .start⟩
  | @snoc i text payload line data ending chunks hline hnumber hdata hending ih =>
    intro rest hs hall
    have hstream : s.rest = text ++ (line ++ (data ++ (ending ++ rest))) := by
      rw [hs]
      simp only [List.append_assoc]
    obtain ⟨hlt, t, ht, hreached⟩ := ih hstream fun j hj => hall j (Nat.lt_succ_of_lt hj)
    obtain ⟨t₁, hreceived, ht₁⟩ := receiveUntilLf_of_isLine hline ht
    obtain ⟨n, hscan⟩ : ∃ n, scanChunkSize p (m.chunkSize i) line = some n := by
      rw [← Option.isSome_iff_exists, scanChunkSize_isSome, hnumber]
      rfl
    have hturn := hinside hreached hreceived hscan
    obtain rfl : n = data.length := by
      have := hturn.number.symm.trans hnumber
      simpa using this
    have hne : data.length ≠ 0 := fun h => hdata (List.length_eq_zero_iff.1 h)
    have hfit : payload.length + data.length < 2 ^ p.sizeWidth :=
      fits_of_requested (high_of_scanChunkSize hscan).2 (hturn.requested hne)
    obtain ⟨t₂, hbytes, ht₂⟩ := receiveToBuffer_of_length ht₁ rfl
    obtain ⟨t₃, hlast, ht₃⟩ := receiveToBuffer_of_length ht₂ hending
    obtain ⟨filled, hwrite, hfull⟩ := write_behind payload (Nat.le_refl data.length) t
    have hfilled : (payload ++ List.replicate data.length 0).write payload.length data = some filled := by
      obtain ⟨filled', hb, heq⟩ := Option.map_eq_some_iff.1 hwrite
      obtain rfl := (Prod.mk.inj heq).1
      exact hb
    have hblock := bodyBlock_of_fits hne hfit
    rw [← hall i (Nat.lt_succ_self i)] at hblock
    have hnext := hreached.next hreceived hscan hne hblock hbytes hfilled hlast
    have hpointer : bodyPointer (payload ++ data) = some filled := by
      rw [hfull rfl]
      exact if_neg (List.append_ne_nil_of_right_ne_nil payload hdata)
    rw [Nat.mod_eq_of_lt hfit, ← List.length_append, ← hpointer] at hnext
    rw [← List.length_append] at hfit
    exact ⟨hfit, t₃, ht₃, hnext⟩

theorem range_of_staysInside (hinside : StaysInside p m s) : NumbersInRange p m s := by
  intro i text payload line rest number hs hchunks hall hline hnumber
  obtain ⟨hlt, t, ht, hreached⟩ := hchunks.reached hinside hs hall
  obtain ⟨t₁, hreceived, -⟩ := receiveUntilLf_of_isLine hline ht
  obtain ⟨n, hscan⟩ : ∃ n, scanChunkSize p (m.chunkSize i) line = some n := by
    rw [← Option.isSome_iff_exists, scanChunkSize_isSome, hnumber]
    rfl
  have hturn := hinside hreached hreceived hscan
  obtain ⟨hhigh, hlow⟩ := high_of_scanChunkSize hscan
  refine ⟨n, Option.some.inj (hnumber.symm.trans hturn.number), hhigh, ?_⟩
  by_cases hne : n = 0
  · rw [hne]
    exact hlt
  · exact fits_of_requested hlow (hturn.requested hne)

/-- **When the decoder stays inside its block.** -/
theorem staysInside_iff (p : Platform) (m : Memory) (s : Source UInt8 McError) :
    StaysInside p m s ↔ NumbersInRange p m s :=
  ⟨range_of_staysInside, staysInside_of_range⟩

/-! ## Sizes at the far end -/

/-- A chunk of 16 bytes, and one that takes the sum of 32 bits around to 8. -/
def wrappingSource : Source UInt8 McError :=
  ⟨ascii "10\r\n" ++ (ascii "0123456789abcdef" ++ (crlf ++ (ascii "fffffff8\r\n" ++ ascii "x"))), fun _ => 1,
    .networkReceiveFail⟩

def fiveBytes : Source UInt8 McError := ⟨ascii "5\r\n" ++ ascii "hello\r\n0\r\n\r\n", fun _ => 1, .networkReceiveFail⟩

/-- The high half of `chunk_size` is not zero before the first scan. -/
def usedMemory : Memory := { freshMemory with chunkSize := fun _ => 2 ^ 32 }

theorem wrappingSource_outside : getChunkedResponse platform32 freshMemory wrappingSource = none := by
  have hline : IsLine platform32.chunkLineSize (ascii "10\r\n") :=
    ⟨⟨ascii "10\r", 10, rfl, rfl, by decide⟩, by decide⟩
  have hline' : IsLine platform32.chunkLineSize (ascii "fffffff8\r\n") :=
    ⟨⟨ascii "fffffff8\r", 10, rfl, rfl, by decide⟩, by decide⟩
  obtain ⟨t₁, h₁, hr₁⟩ := receiveUntilLf_of_isLine hline (s := wrappingSource) rfl
  obtain ⟨t₂, h₂, hr₂⟩ := receiveToBuffer_of_length hr₁ rfl
  obtain ⟨t₃, h₃, hr₃⟩ := receiveToBuffer_of_length hr₂ rfl
  obtain ⟨t₄, h₄, hr₄⟩ := receiveUntilLf_of_isLine hline' hr₃
  have hfilled : Bytes.write (List.replicate 16 0) 0 (ascii "0123456789abcdef") =
      some (ascii "0123456789abcdef") := by decide
  have hreached : Reached platform32 freshMemory wrappingSource 1 (some (ascii "0123456789abcdef")) 16 16 t₃ :=
    Reached.start.next h₁ (by decide) (by decide) rfl h₂ hfilled h₃
  obtain ⟨code, bytes, t₅, h₅⟩ := receiveToBuffer_total 0xfffffff8 t₄
  have hblock : bodyBlock platform32 true (some (ascii "0123456789abcdef")) 16 0xfffffff8 =
      some (ascii "01234567") := by decide
  exact hreached.outside h₄ (by decide) (by decide) hblock h₅
    (Nat.lt_of_lt_of_le (by decide : (ascii "01234567").length < 16) (Nat.le_add_right 16 _))

/-- On 32 bits the sum wraps around and the second chunk is written behind its block; on 64 bits `%x` leaves the high
half of `chunk_size` as it was. -/
theorem farSizes_not_inside : ¬ StaysInside platform32 freshMemory wrappingSource ∧
    getChunkedResponse platform32 freshMemory wrappingSource = none ∧
    ¬ StaysInside platform64 usedMemory fiveBytes := by
  refine ⟨fun h => ?_, wrappingSource_outside, fun h => ?_⟩
  · obtain ⟨r, hr⟩ := h.defined
    rw [wrappingSource_outside] at hr
    cases hr
  · have hline : IsLine platform64.chunkLineSize (ascii "5\r\n") :=
      ⟨⟨ascii "5\r", 10, rfl, rfl, by decide⟩, by decide⟩
    obtain ⟨n, hn, hhigh, -⟩ := range_of_staysInside h (show fiveBytes.rest = [] ++ _ from rfl) .nil (by simp) hline
      (by decide : lineNumber (ascii "5\r\n") = some 5)
    obtain rfl : n = 5 := by omega
    revert hhigh
    decide

end MindConnect.HttpClientBasic
