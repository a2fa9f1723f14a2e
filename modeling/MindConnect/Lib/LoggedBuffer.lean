import MindConnect.Lib.Bytes
import Mathlib.Data.List.Range

/-!
# A buffer that logs its accesses

A loop that reads from the buffer it writes to is right as long as no position is read after a step has written it. The
log says in which order the accesses came; an access outside the buffer has no outcome.
-/

inductive Access where
  | read (pos : Nat)
  | write (pos length : Nat)
deriving DecidableEq, Repr

namespace Access

/-- A write to a position that is read later. -/
def Spoils : Access → Access → Prop
  | write start length, read pos => start ≤ pos ∧ pos < start + length
  | _, _ => False

/-- In the first `size` bytes. -/
def Within (size : Nat) : Access → Prop
  | read pos => pos < size
  | write start length => start + length ≤ size

/-- Everything that is read is as it was before the first access. -/
def ReadsFirst (log : List Access) : Prop := log.Pairwise fun earlier later => ¬ earlier.Spoils later

/-- A loop whose turn `i` reads at `source i` and then writes `length` bytes at `target i`. -/
def turns (source target : Nat → Nat) (length count : Nat) : List Access :=
  (List.range count).flatMap fun i => [read (source i), write (target i) length]

variable {source target : Nat → Nat} {length count : Nat}

@[simp] theorem turns_zero : turns source target length 0 = [] := rfl

theorem turns_succ : turns source target length (count + 1) =
    turns source target length count ++ [read (source count), write (target count) length] := by
  rw [turns, List.range_succ, List.flatMap_append]
  simp [turns]

theorem mem_turns {a : Access} :
    a ∈ turns source target length count ↔
      ∃ i < count, a = read (source i) ∨ a = write (target i) length := by
  simp [turns]

/-- Such a loop reads first if no turn writes where a later one reads. -/
theorem turns_readsFirst
    (h : ∀ i j, i < j → j < count → ¬ (target i ≤ source j ∧ source j < target i + length)) :
    ReadsFirst (turns source target length count) := by
  induction count with
  | zero => exact List.Pairwise.nil
  | succ count ih =>
    have hturn : ReadsFirst [read (source count), write (target count) length] := by
      simp [ReadsFirst, Spoils]
    rw [turns_succ]
    refine List.pairwise_append.2 ⟨ih fun i j hij hj => h i j hij (Nat.lt_succ_of_lt hj), hturn, ?_⟩
    intro earlier hearlier later hlater
    obtain ⟨i, hi, rfl | rfl⟩ := mem_turns.1 hearlier
    · simp [Spoils]
    · simp only [List.mem_cons, List.not_mem_nil, or_false] at hlater
      rcases hlater with rfl | rfl
      · exact h i count hi (Nat.lt_succ_self count)
      · simp [Spoils]

end Access

structure LoggedBuffer where
  bytes : Bytes
  log : List Access
deriving DecidableEq, Repr

namespace LoggedBuffer

def read (buffer : LoggedBuffer) (pos : Nat) : Option (UInt8 × LoggedBuffer) :=
  buffer.bytes[pos]?.map fun b => (b, { buffer with log := buffer.log ++ [.read pos] })

def write (buffer : LoggedBuffer) (pos : Nat) (bs : Bytes) : Option LoggedBuffer :=
  (Bytes.write buffer.bytes pos bs).map fun bytes => ⟨bytes, buffer.log ++ [.write pos bs.length]⟩

theorem read_eq {buffer : LoggedBuffer} {pos : Nat} {b : UInt8} (h : buffer.bytes[pos]? = some b) :
    buffer.read pos = some (b, { buffer with log := buffer.log ++ [.read pos] }) := by
  rw [read, h, Option.map_some]

theorem write_eq {buffer : LoggedBuffer} {pos : Nat} {bs : Bytes} (h : pos + bs.length ≤ buffer.bytes.length) :
    ∃ bytes, Bytes.write buffer.bytes pos bs = some bytes ∧
      buffer.write pos bs = some ⟨bytes, buffer.log ++ [.write pos bs.length]⟩ := by
  have hwrite := Bytes.write_eq_some h
  exact ⟨_, hwrite, by rw [write, hwrite, Option.map_some]⟩

end LoggedBuffer
