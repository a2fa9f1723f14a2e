import MindConnect.Lib.Bytes

/-!
# Memory: `mcl_core/src/memory/standard/memory.c`

| here | there |
| --- | --- |
| `mclMemoryMalloc` | `mcl_memory_malloc` (`memory.c:15`), `MCL_MALLOC` |
| `mclMemoryCalloc` | `mcl_memory_calloc` (`:25`), `MCL_CALLOC` |
| `mclMemoryRealloc` | `mcl_memory_realloc` (`:35`), `MCL_RESIZE` |

`granted` is whether the C library has the memory; null is `none`, and there is no block of 0 bytes. What `malloc`
leaves in a block is 0 here.
-/

namespace MindConnect

def mclMemoryMalloc (granted : Bool) (size : Nat) : Option Bytes :=
  if size = 0 then none
  else if granted then some (List.replicate size 0)
  else none

def mclMemoryCalloc (granted : Bool) (count bytes : Nat) : Option Bytes :=
  if count = 0 ∨ bytes = 0 then none
  else if granted then some (List.replicate (count * bytes) 0)
  else none

/-- Without bytes the block is freed. -/
def mclMemoryRealloc (granted : Bool) (p : Bytes) (bytes : Nat) : Option Bytes :=
  if bytes = 0 then none
  else if granted then some (p.take bytes ++ List.replicate (bytes - p.length) 0)
  else none

variable {granted : Bool} {size count bytes : Nat} {p block : Bytes}

/-- A block is there only where memory was granted and some was asked for. -/
theorem mclMemoryMalloc_eq_some :
    mclMemoryMalloc granted size = some block ↔
      size ≠ 0 ∧ granted = true ∧ List.replicate size 0 = block := by
  rw [mclMemoryMalloc]
  by_cases hsize : size = 0
  · simp [hsize]
  · cases granted <;> simp [hsize]

theorem mclMemoryMalloc_granted (h : size ≠ 0) : mclMemoryMalloc true size = some (List.replicate size 0) :=
  mclMemoryMalloc_eq_some.2 ⟨h, rfl, rfl⟩

/-- A block of no bytes is a null pointer. -/
@[simp] theorem mclMemoryMalloc_zero (granted : Bool) : mclMemoryMalloc granted 0 = none := rfl

@[simp] theorem mclMemoryMalloc_refused (size : Nat) : mclMemoryMalloc false size = none := by
  simp [mclMemoryMalloc]

/-- A block is as long as what was asked for. -/
theorem length_of_mclMemoryMalloc (h : mclMemoryMalloc granted size = some block) : block.length = size := by
  obtain ⟨-, -, rfl⟩ := mclMemoryMalloc_eq_some.1 h
  exact List.length_replicate

theorem mclMemoryCalloc_granted (hcount : count ≠ 0) (hbytes : bytes ≠ 0) :
    mclMemoryCalloc true count bytes = some (List.replicate (count * bytes) 0) := by
  rw [mclMemoryCalloc, if_neg (by tauto), if_pos rfl]

@[simp] theorem mclMemoryCalloc_refused (count bytes : Nat) : mclMemoryCalloc false count bytes = none := by
  simp [mclMemoryCalloc]

/-- What fits of the block is kept. -/
theorem mclMemoryRealloc_eq_some :
    mclMemoryRealloc granted p bytes = some block ↔
      bytes ≠ 0 ∧ granted = true ∧ p.take bytes ++ List.replicate (bytes - p.length) 0 = block := by
  rw [mclMemoryRealloc]
  by_cases hbytes : bytes = 0
  · simp [hbytes]
  · cases granted <;> simp [hbytes]

/-- A block that grows keeps what it has. -/
theorem mclMemoryRealloc_granted (h : bytes ≠ 0) (hgrows : p.length ≤ bytes) :
    mclMemoryRealloc true p bytes = some (p ++ List.replicate (bytes - p.length) 0) :=
  mclMemoryRealloc_eq_some.2 ⟨h, rfl, by rw [List.take_of_length_le hgrows]⟩

@[simp] theorem mclMemoryRealloc_refused (p : Bytes) (bytes : Nat) : mclMemoryRealloc false p bytes = none := by
  simp [mclMemoryRealloc]

theorem length_of_mclMemoryRealloc (h : mclMemoryRealloc granted p bytes = some block) : block.length = bytes := by
  obtain ⟨-, -, rfl⟩ := mclMemoryRealloc_eq_some.1 h
  rw [List.length_append, List.length_take, List.length_replicate]
  omega

end MindConnect
