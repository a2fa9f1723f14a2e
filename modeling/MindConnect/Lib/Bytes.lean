import Mathlib.Data.List.Basic
import Mathlib.Data.List.Infix
import Mathlib.Data.List.TakeWhile

/-!
# Bytes, C strings and writes into a buffer

A C string is a byte list without NUL, so that `strlen` is the length of the list. A buffer is a byte
list of fixed length; `write` answers `none` when a byte would fall outside it.
-/

abbrev Bytes := List UInt8

/-- What holds of every byte of a text is decided along the text, not over the 256 bytes there are. -/
instance (priority := 1100) decidableForallBytes (p : UInt8 → Prop) [DecidablePred p] (text : Bytes) :
    Decidable (∀ b ∈ text, p b) :=
  List.decidableBAll p text

/-- The bytes of an ASCII literal. -/
def ascii (s : String) : Bytes := s.toList.map fun c => c.toNat.toUInt8

/-- The bytes before the terminating NUL of a `char *`. -/
structure CString where
  bytes : Bytes
  nul_free : 0 ∉ bytes
deriving DecidableEq, Repr

namespace CString

/-- The string of a literal. -/
def lit (s : String) (h : (ascii s).contains 0 = false := by exact Eq.refl false) : CString :=
  ⟨ascii s, by simpa using h⟩

/-- `strlen` -/
def length (s : CString) : Nat := s.bytes.length

/-- The string at the start of a buffer. -/
def ofBuffer (buffer : Bytes) : CString :=
  ⟨buffer.takeWhile (· != 0), fun h => by simpa using List.mem_takeWhile_imp h⟩

theorem ofBuffer_bytes {buffer : Bytes} (h : 0 ∉ buffer) : (ofBuffer buffer).bytes = buffer := by
  apply List.takeWhile_eq_self_iff.2
  intro b hb
  exact bne_iff_ne.2 fun he => h (he ▸ hb)

/-- `s + n` -/
def drop (s : CString) (n : Nat) : CString :=
  ⟨s.bytes.drop n, fun h => s.nul_free (List.drop_subset _ _ h)⟩

@[ext] theorem ext {s t : CString} (h : s.bytes = t.bytes) : s = t := by
  cases s; cases t; simpa using h

end CString

namespace Bytes

/-- `memcpy(buffer + pos, bs, length bs)` -/
def write (buffer : Bytes) (pos : Nat) (bs : Bytes) : Option Bytes :=
  if pos + bs.length ≤ buffer.length then
    some (buffer.take pos ++ bs ++ buffer.drop (pos + bs.length))
  else none

theorem write_eq_some {buffer : Bytes} {pos : Nat} {bs : Bytes} (h : pos + bs.length ≤ buffer.length) :
    write buffer pos bs = some (buffer.take pos ++ bs ++ buffer.drop (pos + bs.length)) := if_pos h

theorem write_eq_none {buffer : Bytes} {pos : Nat} {bs : Bytes} (h : ¬ pos + bs.length ≤ buffer.length) :
    write buffer pos bs = none := if_neg h

theorem length_of_write {buffer buffer' : Bytes} {pos : Nat} {bs : Bytes}
    (h : write buffer pos bs = some buffer') : buffer'.length = buffer.length := by
  unfold write at h
  split at h
  · cases h; simp; omega
  · cases h

theorem take_of_write {buffer buffer' : Bytes} {pos : Nat} {bs : Bytes}
    (h : write buffer pos bs = some buffer') :
    buffer'.take (pos + bs.length) = buffer.take pos ++ bs := by
  unfold write at h
  split at h
  · cases h
    have hlen : (buffer.take pos ++ bs).length = pos + bs.length := by
      rw [List.length_append, List.length_take]
      omega
    rw [List.take_append_of_le_length hlen.ge]
    exact List.take_of_length_le hlen.le
  · cases h

theorem drop_of_write {buffer buffer' : Bytes} {pos k : Nat} {bs : Bytes}
    (h : write buffer pos bs = some buffer') (hk : pos + bs.length ≤ k) : buffer'.drop k = buffer.drop k := by
  unfold write at h
  split at h
  · cases h
    have hlen : (buffer.take pos ++ bs).length = pos + bs.length := by simp; omega
    rw [List.drop_append, hlen, List.drop_of_length_le (by omega), List.drop_drop, List.nil_append,
      Nat.add_sub_cancel' hk]
  · cases h

/-- A write over a part of the same length. -/
theorem write_append {l part r bs : Bytes} {pos : Nat} (hpos : pos = l.length) (hlen : part.length = bs.length) :
    write (l ++ (part ++ r)) pos bs = some (l ++ (bs ++ r)) := by
  subst hpos
  rw [write_eq_some (by simp only [List.length_append]; omega)]
  simp [← hlen]

/-- Two writes one behind the other are one. -/
theorem write_bind_write (buffer : Bytes) (pos : Nat) (xs ys : Bytes) :
    ((write buffer pos xs).bind fun b => write b (pos + xs.length) ys) =
      write buffer pos (xs ++ ys) := by
  have hlength : (xs ++ ys).length = xs.length + ys.length := List.length_append
  by_cases hxs : pos + xs.length ≤ buffer.length
  · have hwrite := write_eq_some hxs
    have hbuffer := length_of_write hwrite
    have htake := take_of_write hwrite
    rw [hwrite, Option.bind_some]
    by_cases hys : pos + xs.length + ys.length ≤ buffer.length
    · rw [write_eq_some (hbuffer ▸ hys), write_eq_some (by omega), htake,
        drop_of_write hwrite (Nat.le_add_right _ _), hlength]
      simp only [List.append_assoc, Nat.add_assoc]
    · rw [write_eq_none (hbuffer ▸ hys), write_eq_none (by omega)]
  · rw [write_eq_none hxs, write_eq_none (by omega), Option.bind_none]

end Bytes
