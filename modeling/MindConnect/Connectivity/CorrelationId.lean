import MindConnect.Connectivity.ConnectivityProcessor
import MindConnect.Core.CoreProcessor
import MindConnect.Lib.Hex
import MindConnect.Lib.LoggedBuffer
import Mathlib.Algebra.Ring.Nat

/-!
# Correlation ids in memory

| here | there |
| --- | --- |
| `snprintf` | `mcl_string_util_snprintf`, `string_util_snprintf` (`string_util.c:158`, `:177`), at a position |
| `Connectivity.generateCorrelationIdString` | `_generate_correlation_id_string` (`connectivity_processor.c:609`) |
| `Core.generateCorrelationIdString` | `_generate_correlation_id_string` (`core_processor.c:1115`) |
| `expandLoop`, `printLoop` | their loops |

The connectivity processor has one buffer: the random bytes are put behind its first half, and the digits are written
from its start on, twice as fast as the bytes are read. The core processor reads from an array of its own. A byte is an
argument of `snprintf`, so it is read before anything is written.
-/

namespace MindConnect.CorrelationId

/-! ## The code -/

def correlationIdByteLength : Nat := 16

/-- With the terminator. -/
def correlationIdBufferLength : Nat := correlationIdByteLength * 2 + 1

def snprintf (buffer : LoggedBuffer) (pos length : Nat) (text : Bytes) : Option (Result Unit × LoggedBuffer) := do
  let buffer ← buffer.write pos (text.take (length - 1) ++ [0])
  return ((stringUtilSnprintf length text).map fun _ => (), buffer)

def expandLoop : Nat → Nat → LoggedBuffer → Option (Result Unit × LoggedBuffer)
  | 0, _, id => some (.ok (), id)
  | rounds + 1, index, id => do
    let (byte, id) ← id.read (index + correlationIdByteLength)
    let (code, id) ← snprintf id (index * 2) 3 (Hex.padded 2 byte.toNat)
    match code with
    | .ok () => expandLoop rounds (index + 1) id
    | .error e => some (.error e, id)

/-- The code and the caller's buffer with the accesses of the loop. -/
def Connectivity.generateCorrelationIdString (correlationId : Bytes) (random : Result Bytes) :
    Option (Result Unit × LoggedBuffer) :=
  match random with
  | .error e => some (.error e, ⟨correlationId, []⟩)
  | .ok randomBytes => do
    let id ← Bytes.write correlationId correlationIdByteLength randomBytes
    expandLoop correlationIdByteLength 0 ⟨id, []⟩

def printLoop (randomBytes : Bytes) : Nat → Nat → LoggedBuffer → Option (Result Unit × LoggedBuffer)
  | 0, _, correlationId => some (.ok (), correlationId)
  | rounds + 1, index, correlationId => do
    let byte ← randomBytes[index]?
    let (code, correlationId) ← snprintf correlationId (index * 2) 3 (Hex.padded 2 byte.toNat)
    match code with
    | .ok () => printLoop randomBytes rounds (index + 1) correlationId
    | .error e => some (.error e, correlationId)

/-- `block` is what `MCL_MALLOC` gives; after an error it is freed. -/
def Core.generateCorrelationIdString (random : Result Bytes) (block : Option Bytes) : Option (Result Bytes) :=
  match random, block with
  | .error e, _ => some (.error e)
  | .ok _, none => some (.error .outOfMemory)
  | .ok randomBytes, some block => do
    let (code, correlationId) ← printLoop randomBytes correlationIdByteLength 0 ⟨block, []⟩
    return code.map fun _ => correlationId.bytes

/-! ## One turn -/

/-- The digits of the first `count` bytes and, once there are some, the terminator behind them. -/
structure Printed (randomBytes : Bytes) (count : Nat) (buffer : Bytes) : Prop where
  length : buffer.length = correlationIdBufferLength
  digits : buffer.take (2 * count) = Hex.ofBytes (randomBytes.take count)
  terminated : 0 < count → buffer[2 * count]? = some 0

theorem Printed.start {randomBytes buffer : Bytes} (h : buffer.length = correlationIdBufferLength) :
    Printed randomBytes 0 buffer :=
  ⟨h, rfl, fun hpos => absurd hpos (Nat.lt_irrefl 0)⟩

theorem snprintf_byte (buffer : LoggedBuffer) {randomBytes : Bytes} {index : Nat}
    (h : Printed randomBytes index buffer.bytes) {byte : UInt8} (hbyte : randomBytes[index]? = some byte)
    (hindex : index < correlationIdByteLength) :
    ∃ bytes, snprintf buffer (index * 2) 3 (Hex.padded 2 byte.toNat) =
        some (.ok (), ⟨bytes, buffer.log ++ [.write (2 * index) 3]⟩) ∧
      Printed randomBytes (index + 1) bytes ∧
      ∀ k, 2 * index + 3 ≤ k → bytes[k]? = buffer.bytes[k]? := by
  have hlength := h.length
  unfold correlationIdBufferLength correlationIdByteLength at hlength
  unfold correlationIdByteLength at hindex
  have hdigits : (Hex.padded 2 byte.toNat).length = 2 := Hex.length_padded (by decide) byte.toNat_lt
  have hthree : (Hex.padded 2 byte.toNat ++ [0]).length = 3 := by
    rw [List.length_append, hdigits, List.length_singleton]
  have hne : Hex.padded 2 byte.toNat ≠ [] := by
    rw [Hex.padded_byte]
    exact List.cons_ne_nil _ _
  have hok : stringUtilSnprintf 3 (Hex.padded 2 byte.toNat) = .ok (Hex.padded 2 byte.toNat) :=
    stringUtilSnprintf_ok hne (by omega)
  have hfits : 2 * index + (Hex.padded 2 byte.toNat ++ [0]).length ≤ buffer.bytes.length := by omega
  obtain ⟨bytes, hwrite, hlogged⟩ := LoggedBuffer.write_eq hfits
  -- the digits so far, the two new ones and the terminator
  have htake : bytes.take (2 * index + 3) = Hex.ofBytes (randomBytes.take (index + 1)) ++ [0] := by
    have hnew : randomBytes.take (index + 1) = randomBytes.take index ++ [byte] := by
      rw [List.take_add_one, hbyte, Option.toList_some]
    have hwritten := Bytes.take_of_write hwrite
    rw [hthree] at hwritten
    rw [hwritten, h.digits, hnew, Hex.ofBytes_append, Hex.ofBytes_singleton, List.append_assoc]
  have hold : (Hex.ofBytes (randomBytes.take (index + 1))).length = 2 * (index + 1) := by
    have hcount := congrArg List.length htake
    have hsame := Bytes.length_of_write hwrite
    rw [List.length_take, List.length_append, List.length_singleton] at hcount
    omega
  refine ⟨bytes, ?_, ⟨?_, ?_, ?_⟩, ?_⟩
  · rw [hthree] at hlogged
    rw [snprintf, hok, List.take_of_length_le hdigits.le, Nat.mul_comm, hlogged]
    rfl
  · exact (Bytes.length_of_write hwrite).trans h.length
  · have hprefix := congrArg (List.take (2 * (index + 1))) htake
    rw [List.take_take, Nat.min_eq_left (by omega), ← hold, List.take_left] at hprefix
    rw [← hold]
    exact hprefix
  · intro _
    have hlast : (bytes.take (2 * index + 3))[2 * (index + 1)]? = some 0 := by
      rw [htake, ← hold, List.getElem?_append_right (Nat.le_refl _), Nat.sub_self]
      rfl
    rwa [List.getElem?_take_of_lt (by omega)] at hlast
  · intro k hk
    have hdrop := Bytes.drop_of_write hwrite (by omega : _ ≤ k)
    rw [← List.head?_drop, hdrop, List.head?_drop]

/-- The whole text. -/
theorem Printed.eq {randomBytes buffer : Bytes} (h : Printed randomBytes correlationIdByteLength buffer)
    (hrandom : randomBytes.length = correlationIdByteLength) : buffer = Hex.ofBytes randomBytes ++ [0] := by
  obtain ⟨hlength, hdigits, hterminated⟩ := h
  have hlast := hterminated (by decide)
  unfold correlationIdBufferLength at hlength
  have hdrop : buffer.drop (2 * correlationIdByteLength) = [0] := by
    rw [List.drop_eq_getElem?_toList_append, hlast, List.drop_of_length_le (by omega)]
    rfl
  rw [List.take_of_length_le hrandom.le] at hdigits
  rw [← hdigits, ← hdrop, List.take_append_drop]

/-! ## Two cursors in one buffer -/

/-- After `count` turns: the rest of the random bytes lies where it was put, and the log has `count` turns. -/
structure Expanded (randomBytes : Bytes) (count : Nat) (buffer : LoggedBuffer) : Prop where
  printed : Printed randomBytes count buffer.bytes
  unread : ∀ i, count ≤ i → i < correlationIdByteLength →
    buffer.bytes[i + correlationIdByteLength]? = randomBytes[i]?
  log : buffer.log = Access.turns (fun index => index + correlationIdByteLength) (fun index => 2 * index) 3 count

theorem expandLoop_eq {randomBytes : Bytes} (hrandom : randomBytes.length = correlationIdByteLength) {rounds : Nat} :
    ∀ {index : Nat} {buffer : LoggedBuffer}, Expanded randomBytes index buffer →
      index + rounds = correlationIdByteLength →
      ∃ id, expandLoop rounds index buffer = some (.ok (), id) ∧
        Expanded randomBytes correlationIdByteLength id := by
  induction rounds with
  | zero =>
    intro index buffer h hindex
    obtain rfl : index = correlationIdByteLength := hindex
    exact ⟨buffer, rfl, h⟩
  | succ rounds ih =>
    intro index buffer h hindex
    have hlt : index < correlationIdByteLength := by omega
    have hlength : index < randomBytes.length := by omega
    obtain ⟨byte, hbyte⟩ : ∃ byte, randomBytes[index]? = some byte := ⟨_, List.getElem?_eq_getElem hlength⟩
    have hread := LoggedBuffer.read_eq ((h.unread index (Nat.le_refl index) hlt).trans hbyte)
    obtain ⟨bytes, hsnprintf, hprinted, hframe⟩ :=
      snprintf_byte ⟨buffer.bytes, buffer.log ++ [.read (index + correlationIdByteLength)]⟩ h.printed hbyte hlt
    have hnext : Expanded randomBytes (index + 1)
        ⟨bytes, buffer.log ++ [.read (index + correlationIdByteLength)] ++ [.write (2 * index) 3]⟩ := by
      refine ⟨hprinted, ?_, ?_⟩
      · -- the terminator of this turn lies at most on the byte that the turn has read
        intro i hi hlast
        rw [hframe _ (by omega)]
        exact h.unread i (by omega) hlast
      · rw [h.log, Access.turns_succ, List.append_assoc]
        rfl
    obtain ⟨id, hloop, hid⟩ := ih hnext (by omega)
    refine ⟨id, ?_, hid⟩
    rw [expandLoop, hread]
    simp only [Option.bind_eq_bind, Option.bind_some, hsnprintf, hloop]

/-- A loop that has an array of its own to read from. -/
theorem printLoop_eq {randomBytes : Bytes} (hrandom : randomBytes.length = correlationIdByteLength) {rounds : Nat} :
    ∀ {index : Nat} (buffer : LoggedBuffer), Printed randomBytes index buffer.bytes →
      index + rounds = correlationIdByteLength →
      ∃ id, printLoop randomBytes rounds index buffer = some (.ok (), id) ∧
        Printed randomBytes correlationIdByteLength id.bytes := by
  induction rounds with
  | zero =>
    intro index buffer h hindex
    obtain rfl : index = correlationIdByteLength := hindex
    exact ⟨buffer, rfl, h⟩
  | succ rounds ih =>
    intro index buffer h hindex
    have hlt : index < correlationIdByteLength := by omega
    have hlength : index < randomBytes.length := by omega
    obtain ⟨byte, hbyte⟩ : ∃ byte, randomBytes[index]? = some byte := ⟨_, List.getElem?_eq_getElem hlength⟩
    obtain ⟨bytes, hsnprintf, hprinted, -⟩ := snprintf_byte buffer h hbyte hlt
    obtain ⟨id, hloop, hid⟩ := ih ⟨bytes, buffer.log ++ [.write (2 * index) 3]⟩ hprinted (by omega)
    refine ⟨id, ?_, hid⟩
    rw [printLoop, hbyte]
    simp only [Option.bind_eq_bind, Option.bind_some, hsnprintf, hloop]

/-! ## Both ids -/

/-- Right behind the random bytes. -/
theorem expanded_start {buffer randomBytes id : Bytes} (hbuffer : buffer.length = correlationIdBufferLength)
    (hrandom : randomBytes.length = correlationIdByteLength)
    (hwrite : Bytes.write buffer correlationIdByteLength randomBytes = some id) :
    Expanded randomBytes 0 ⟨id, []⟩ := by
  refine ⟨.start ((Bytes.length_of_write hwrite).trans hbuffer), ?_, rfl⟩
  intro i _ hi
  have htake := Bytes.take_of_write hwrite
  have hlength : (buffer.take correlationIdByteLength).length = correlationIdByteLength := by
    rw [List.length_take, hbuffer]
    rfl
  calc id[i + correlationIdByteLength]?
      = (id.take (correlationIdByteLength + randomBytes.length))[i + correlationIdByteLength]? := by
        rw [List.getElem?_take_of_lt (by omega)]
    _ = randomBytes[i]? := by
        rw [htake, List.getElem?_append_right (by omega), hlength, Nat.add_sub_cancel]

theorem core_generateCorrelationIdString {randomBytes block : Bytes}
    (hrandom : randomBytes.length = correlationIdByteLength) (hblock : block.length = correlationIdBufferLength) :
    Core.generateCorrelationIdString (.ok randomBytes) (some block) = some (.ok (Hex.ofBytes randomBytes ++ [0])) := by
  obtain ⟨id, hloop, hid⟩ := printLoop_eq hrandom ⟨block, []⟩ (.start hblock) (Nat.zero_add _)
  simp only [Core.generateCorrelationIdString, hloop, Option.bind_eq_bind, Option.bind_some, Except.map,
    hid.eq hrandom, Option.pure_def]

/-- The loop of the connectivity processor leaves the digits of the random bytes, each of which it reads before it
writes over it, and the core processor gets the same text. -/
theorem correlation_ids_agree {buffer randomBytes block : Bytes} (hbuffer : buffer.length = correlationIdBufferLength)
    (hrandom : randomBytes.length = correlationIdByteLength) (hblock : block.length = correlationIdBufferLength) :
    ∃ id, Connectivity.generateCorrelationIdString buffer (.ok randomBytes) = some (.ok (), id) ∧
      Access.ReadsFirst id.log ∧
      (∀ index < correlationIdByteLength, Access.read (index + correlationIdByteLength) ∈ id.log) ∧
      (∀ a ∈ id.log, a.Within correlationIdBufferLength) ∧
      id.bytes = Hex.ofBytes randomBytes ++ [0] ∧
      (Hex.ofBytes randomBytes).length = 32 ∧ (∀ b ∈ Hex.ofBytes randomBytes, Hex.isLowerDigit b = true) ∧
      Core.generateCorrelationIdString (.ok randomBytes) (some block) = some (.ok id.bytes) := by
  have hfits : correlationIdByteLength + randomBytes.length ≤ buffer.length := by
    rw [hrandom, hbuffer]
    decide
  have hwrite := Bytes.write_eq_some hfits
  obtain ⟨id, hloop, hid⟩ := expandLoop_eq hrandom (expanded_start hbuffer hrandom hwrite) (Nat.zero_add _)
  have hbytes := hid.printed.eq hrandom
  refine ⟨id, ?_, ?_, ?_, ?_, hbytes, ?_, fun b => Hex.isLowerDigit_of_mem_ofBytes, ?_⟩
  · simp only [Connectivity.generateCorrelationIdString, hwrite, Option.bind_eq_bind, Option.bind_some, hloop]
  · rw [hid.log]
    apply Access.turns_readsFirst
    intro i j hij hj
    omega
  · intro index hindex
    rw [hid.log]
    exact Access.mem_turns.2 ⟨index, hindex, .inl rfl⟩
  · intro a ha
    rw [hid.log] at ha
    obtain ⟨i, hi, rfl | rfl⟩ := Access.mem_turns.1 ha
    · show i + correlationIdByteLength < correlationIdBufferLength
      unfold correlationIdBufferLength
      omega
    · show 2 * i + 3 ≤ correlationIdBufferLength
      unfold correlationIdBufferLength
      omega
  · rw [Hex.length_ofBytes, hrandom]
    rfl
  · rw [hbytes]
    exact core_generateCorrelationIdString hrandom hblock

def sampleBytes : Bytes := (List.range 16).map fun i => (17 * i).toUInt8

theorem sample_ids_agree :
    ∃ id, Connectivity.generateCorrelationIdString (List.replicate 33 170) (.ok sampleBytes) = some (.ok (), id) ∧
      Access.ReadsFirst id.log ∧
      (∀ index < correlationIdByteLength, Access.read (index + correlationIdByteLength) ∈ id.log) ∧
      (∀ a ∈ id.log, a.Within correlationIdBufferLength) ∧
      id.bytes = Hex.ofBytes sampleBytes ++ [0] ∧
      (Hex.ofBytes sampleBytes).length = 32 ∧ (∀ b ∈ Hex.ofBytes sampleBytes, Hex.isLowerDigit b = true) ∧
      Core.generateCorrelationIdString (.ok sampleBytes) (some (List.replicate 33 0)) = some (.ok id.bytes) :=
  correlation_ids_agree List.length_replicate rfl List.length_replicate

example : Hex.ofBytes sampleBytes = ascii "00112233445566778899aabbccddeeff" := by decide

/-! ## The ids of the requests -/

theorem hexDigits_eq (b : UInt8) : [Json.hexDigit (b / 16), Json.hexDigit (b % 16)] = Hex.padded 2 b.toNat := by
  have hdigit : ∀ d < 16, Json.hexDigit (UInt8.ofNat d) = Hex.digit d := by decide
  have hb := b.toNat_lt
  have hhigh : b / 16 = UInt8.ofNat (b.toNat / 16) := by
    apply UInt8.toNat_inj.1
    rw [UInt8.toNat_div, UInt8.toNat_ofNat_of_lt' (Nat.lt_of_le_of_lt (Nat.div_le_self _ _) hb)]
    rfl
  have hlow : b % 16 = UInt8.ofNat (b.toNat % 16) := by
    apply UInt8.toNat_inj.1
    rw [UInt8.toNat_mod, UInt8.toNat_ofNat_of_lt' (Nat.lt_of_le_of_lt (Nat.mod_le _ _) hb)]
    rfl
  rw [hhigh, hlow, hdigit _ (by omega), hdigit _ (by omega), Hex.padded_byte]

/-- The header of a request to the connectivity service has the text that is left in the buffer. -/
theorem correlationIdString_eq {env : ConnectivityEnvironment} {randomBytes : Bytes}
    (h : env.randomBytes = .ok randomBytes) : correlationIdString env = .ok (Hex.ofBytes randomBytes) := by
  simp only [correlationIdString, h, Except.map, hexDigits_eq]
  rfl

theorem generateCorrelationIdString_eq {env : Environment} {randomBytes : Bytes}
    (h : env.randomBytes = .ok randomBytes) (hstep : env.step .correlationId = .ok ()) :
    MindConnect.generateCorrelationIdString env = .ok (Hex.ofBytes randomBytes) := by
  simp only [MindConnect.generateCorrelationIdString, h, hstep, hexDigits_eq]
  rfl

end MindConnect.CorrelationId
