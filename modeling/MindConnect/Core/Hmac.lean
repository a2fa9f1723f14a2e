import MindConnect.Core.Common
import MindConnect.Lib.Bytes

/-!
# HMAC: `hmac.c`

`Hmac.hmac` is the construction over any hash function. `hmacSha256` is the code: `hash i` is what the `i`-th call of
`security_hash_sha256` comes to, for the key, the inner and the outer text. `hmacSha256Outputs` is the same with its two
buffers, filled byte by byte, and with what it leaves in its output parameters.
-/

namespace Hmac

/-- The key as one block: hashed if it is longer, then filled with zeros. -/
def blockKey (H : Bytes → Bytes) (blockSize : Nat) (key : Bytes) : Bytes :=
  let key := if blockSize < key.length then H key else key
  key ++ List.replicate (blockSize - key.length) 0

def hmac (H : Bytes → Bytes) (blockSize : Nat) (key data : Bytes) : Bytes :=
  H ((blockKey H blockSize key).map (· ^^^ 0x5C) ++ H ((blockKey H blockSize key).map (· ^^^ 0x36) ++ data))

end Hmac

namespace MindConnect

def hmacMaximumKeySize : Nat := 64
def hmacSha256Size : Nat := 32
def hmacIpad : UInt8 := 0x36
def hmacOpad : UInt8 := 0x5C

/-- The memory for `key_ipad` and `key_opad`. -/
structure HmacMemory where
  keyIpad : Bool
  keyOpad : Bool

/-- A hash of another size than expected is no hash. -/
def checkHashSize (hash : Bytes) : Result Bytes :=
  if hash.length = hmacSha256Size then .ok hash else .error .sha256CalculationFail

/-- The first 64 bytes of `key_ipad` or `key_opad`. -/
def keyPad (pad : UInt8) (key : Bytes) : Bytes :=
  key.map (· ^^^ pad) ++ List.replicate (hmacMaximumKeySize - key.length) pad

/-- `key_local` -/
def localKey (hash : Nat → Bytes → Result Bytes) (key : Bytes) : Result Bytes :=
  if hmacMaximumKeySize < key.length then hash 0 key >>= checkHashSize else .ok key

/-- `hmac_sha256` (`hmac.c:22`) -/
def hmacSha256 (hash : Nat → Bytes → Result Bytes) (m : HmacMemory) (data key : Bytes) : Result Bytes :=
  if key.length = 0 then .error .invalidParameter
  else do
    let keyLocal ← localKey hash key
    if m.keyIpad && m.keyOpad then do
      let shaOutput ← hash 1 (keyPad hmacIpad keyLocal ++ data) >>= checkHashSize
      hash 2 (keyPad hmacOpad keyLocal ++ shaOutput) >>= checkHashSize
    else .error .outOfMemory

theorem checkHashSize_ok {hash hash' : Bytes} (h : checkHashSize hash = .ok hash') :
    hash' = hash ∧ hash.length = hmacSha256Size := by
  unfold checkHashSize at h
  split_ifs at h with hlen
  cases h
  exact ⟨rfl, hlen⟩

theorem keyPad_eq (pad : UInt8) (key : Bytes) :
    keyPad pad key = (key ++ List.replicate (hmacMaximumKeySize - key.length) 0).map (· ^^^ pad) := by
  rw [keyPad, List.map_append, List.map_replicate, UInt8.zero_xor]

/-- Where the hashes are those of `H`, a result is the HMAC over `H`, and has 32 bytes. -/
theorem hmacSha256_ok {hash : Nat → Bytes → Result Bytes} {H : Bytes → Bytes}
    (hhash : ∀ i text digest, hash i text = .ok digest → digest = H text) {m : HmacMemory} {data key result : Bytes}
    (h : hmacSha256 hash m data key = .ok result) :
    result = Hmac.hmac H hmacMaximumKeySize key data ∧ result.length = hmacSha256Size := by
  have hchecked : ∀ {i text digest}, (hash i text >>= checkHashSize) = .ok digest →
      digest = H text ∧ digest.length = hmacSha256Size := by
    intro i text digest hd
    obtain ⟨digest', hd', hcheck⟩ := bind_eq_ok hd
    obtain ⟨rfl, hlen⟩ := checkHashSize_ok hcheck
    exact ⟨hhash _ _ _ hd', hlen⟩
  have hlocal : ∀ {keyLocal}, localKey hash key = .ok keyLocal →
      keyLocal = if hmacMaximumKeySize < key.length then H key else key := by
    intro keyLocal hkey
    rw [localKey] at hkey
    by_cases hlong : hmacMaximumKeySize < key.length
    · rw [if_pos hlong] at hkey ⊢
      exact (hchecked hkey).1
    · rw [if_neg hlong] at hkey ⊢
      cases hkey
      rfl
  rw [hmacSha256] at h
  by_cases hempty : key.length = 0
  · rw [if_pos hempty] at h
    cases h
  · rw [if_neg hempty] at h
    obtain ⟨keyLocal, hkey, h⟩ := bind_eq_ok h
    by_cases hmemory : (m.keyIpad && m.keyOpad) = true
    · rw [if_pos hmemory] at h
      obtain ⟨inner, hinner, houter⟩ := bind_eq_ok h
      obtain ⟨rfl, -⟩ := hchecked hinner
      obtain ⟨rfl, hlen⟩ := hchecked houter
      refine ⟨?_, hlen⟩
      rw [keyPad_eq, keyPad_eq, hlocal hkey]
      rfl
    · rw [if_neg hmemory] at h
      cases h

/-! ## The buffers -/

/-- What a call leaves: its code, `*hash` and `*hash_size`, and what the hash computations it made came to. -/
structure HmacOutputs where
  code : Result Unit
  hash : Option Bytes
  hashSize : Nat
  computed : List (Result Bytes)

/-- A block as `malloc` gives it. -/
def freshBlock (garbage : Nat → UInt8) (size : Nat) : Bytes := (List.range size).map garbage

/-- The loop over the key (`hmac.c:84`), for `key_ipad` and `key_opad`. -/
def xorKey : Bytes → Nat → Bytes × Bytes → Option (Bytes × Bytes)
  | [], _, blocks => some blocks
  | k :: key, index, (ipad, opad) => do
    let ipad ← ipad.write index [k ^^^ hmacIpad]
    let opad ← opad.write index [k ^^^ hmacOpad]
    xorKey key (index + 1) (ipad, opad)

/-- The loop behind the key (`hmac.c:97`), for `n` bytes from `index` on. -/
def padRest : Nat → Nat → Bytes × Bytes → Option (Bytes × Bytes)
  | 0, _, blocks => some blocks
  | n + 1, index, (ipad, opad) => do
    let ipad ← ipad.write index [hmacIpad]
    let opad ← opad.write index [hmacOpad]
    padRest n (index + 1) (ipad, opad)

/-- The same with the two buffers and the outputs; `before` is what `*hash` and `*hash_size` were. -/
def hmacSha256Outputs (hash : Nat → Bytes → Result Bytes) (m : HmacMemory) (garbage : Nat → UInt8) (data key : Bytes)
    (before : Option Bytes × Nat) : Option HmacOutputs :=
  if key.length = 0 then some ⟨.error .invalidParameter, before.1, before.2, []⟩
  else
    let resized := if hmacMaximumKeySize < key.length then [hash 0 key] else []
    match localKey hash key with
    | .error e => some ⟨.error e, before.1, before.2, resized⟩
    | .ok keyLocal =>
      if m.keyIpad && m.keyOpad then do
        let blocks ← xorKey keyLocal 0 (freshBlock garbage (hmacMaximumKeySize + data.length),
          freshBlock garbage (hmacMaximumKeySize + hmacSha256Size))
        let (ipad, opad) ← padRest (hmacMaximumKeySize - keyLocal.length) keyLocal.length blocks
        let ipad ← ipad.write hmacMaximumKeySize data
        let inner := hash 1 ipad
        match inner >>= checkHashSize with
        | .error e => some ⟨.error e, before.1, before.2, resized ++ [inner]⟩
        | .ok shaOutput => do
          let opad ← opad.write hmacMaximumKeySize shaOutput
          let outer := hash 2 opad
          match outer >>= checkHashSize with
          | .error e => some ⟨.error e, none, 0, resized ++ [inner, outer]⟩
          | .ok digest => some ⟨.ok (), some digest, digest.length, resized ++ [inner, outer]⟩
      else some ⟨.error .outOfMemory, before.1, before.2, resized⟩

theorem xorKey_eq {key a b x y r s : Bytes} {index : Nat} (ha : index = a.length) (hb : index = b.length)
    (hx : x.length = key.length) (hy : y.length = key.length) :
    xorKey key index (a ++ (x ++ r), b ++ (y ++ s)) =
      some (a ++ (key.map (· ^^^ hmacIpad) ++ r), b ++ (key.map (· ^^^ hmacOpad) ++ s)) := by
  induction key generalizing a b x y index with
  | nil =>
    obtain rfl := List.length_eq_zero_iff.1 hx
    obtain rfl := List.length_eq_zero_iff.1 hy
    rfl
  | cons k key ih =>
    obtain ⟨x0, x, rfl⟩ := List.exists_cons_of_length_eq_add_one hx
    obtain ⟨y0, y, rfl⟩ := List.exists_cons_of_length_eq_add_one hy
    have hipad : (a ++ ([x0] ++ (x ++ r))).write index [k ^^^ hmacIpad] = some (a ++ ([k ^^^ hmacIpad] ++ (x ++ r))) :=
      Bytes.write_append ha rfl
    have hopad : (b ++ ([y0] ++ (y ++ s))).write index [k ^^^ hmacOpad] = some (b ++ ([k ^^^ hmacOpad] ++ (y ++ s))) :=
      Bytes.write_append hb rfl
    have hrest : xorKey key (index + 1) (a ++ [k ^^^ hmacIpad] ++ (x ++ r), b ++ [k ^^^ hmacOpad] ++ (y ++ s)) = _ :=
      ih (by simp [ha]) (by simp [hb]) (Nat.succ.inj hx) (Nat.succ.inj hy)
    simp only [List.append_assoc, List.singleton_append] at hrest
    rw [xorKey]
    show (Bytes.write (a ++ ([x0] ++ (x ++ r))) index _).bind _ = _
    rw [hipad, Option.bind_some]
    show (Bytes.write (b ++ ([y0] ++ (y ++ s))) index _).bind _ = _
    rw [hopad, Option.bind_some]
    exact hrest

theorem padRest_eq {a b x y r s : Bytes} {n index : Nat} (ha : index = a.length) (hb : index = b.length)
    (hx : x.length = n) (hy : y.length = n) :
    padRest n index (a ++ (x ++ r), b ++ (y ++ s)) =
      some (a ++ (List.replicate n hmacIpad ++ r), b ++ (List.replicate n hmacOpad ++ s)) := by
  induction n generalizing a b x y index with
  | zero =>
    obtain rfl := List.length_eq_zero_iff.1 hx
    obtain rfl := List.length_eq_zero_iff.1 hy
    rfl
  | succ n ih =>
    obtain ⟨x0, x, rfl⟩ := List.exists_cons_of_length_eq_add_one hx
    obtain ⟨y0, y, rfl⟩ := List.exists_cons_of_length_eq_add_one hy
    have hipad : (a ++ ([x0] ++ (x ++ r))).write index [hmacIpad] = some (a ++ ([hmacIpad] ++ (x ++ r))) :=
      Bytes.write_append ha rfl
    have hopad : (b ++ ([y0] ++ (y ++ s))).write index [hmacOpad] = some (b ++ ([hmacOpad] ++ (y ++ s))) :=
      Bytes.write_append hb rfl
    have hrest : padRest n (index + 1) (a ++ [hmacIpad] ++ (x ++ r), b ++ [hmacOpad] ++ (y ++ s)) = _ :=
      ih (by simp [ha]) (by simp [hb]) (Nat.succ.inj hx) (Nat.succ.inj hy)
    simp only [List.append_assoc, List.singleton_append] at hrest
    rw [padRest]
    show (Bytes.write (a ++ ([x0] ++ (x ++ r))) index _).bind _ = _
    rw [hipad, Option.bind_some]
    show (Bytes.write (b ++ ([y0] ++ (y ++ s))) index _).bind _ = _
    rw [hopad, Option.bind_some]
    exact hrest

/-- A block in three parts. -/
theorem split_three {block : Bytes} {n k rest : Nat} (h : block.length = n + k + rest) :
    ∃ x y z, block = x ++ (y ++ z) ∧ x.length = n ∧ y.length = k ∧ z.length = rest := by
  refine ⟨block.take n, (block.drop n).take k, (block.drop n).drop k, by simp, ?_, ?_, ?_⟩ <;>
    simp only [List.length_take, List.length_drop] <;> omega

/-- The two loops fill the first 64 bytes of both buffers, whatever was in them. -/
theorem pads_eq {key ipad opad : Bytes} (hkey : key.length ≤ hmacMaximumKeySize) (n k : Nat)
    (hipad : ipad.length = hmacMaximumKeySize + n) (hopad : opad.length = hmacMaximumKeySize + k) :
    ∃ x y, x.length = n ∧ y.length = k ∧
      (xorKey key 0 (ipad, opad) >>= padRest (hmacMaximumKeySize - key.length) key.length) =
        some (keyPad hmacIpad key ++ x, keyPad hmacOpad key ++ y) := by
  rw [hmacMaximumKeySize] at hkey hipad hopad ⊢
  obtain ⟨x, x', r, rfl, hx, hx', hr⟩ :=
    split_three (n := key.length) (k := 64 - key.length) (show ipad.length = _ + n by omega)
  obtain ⟨y, y', s, rfl, hy, hy', hs⟩ :=
    split_three (n := key.length) (k := 64 - key.length) (show opad.length = _ + k by omega)
  have hxor : xorKey key 0 ([] ++ (x ++ (x' ++ r)), [] ++ (y ++ (y' ++ s))) = _ := xorKey_eq rfl rfl hx hy
  rw [List.nil_append, List.nil_append, List.nil_append, List.nil_append] at hxor
  refine ⟨r, s, hr, hs, ?_⟩
  rw [hxor, Option.bind_eq_bind, Option.bind_some, padRest_eq (by simp) (by simp) hx' hy']
  simp only [keyPad, List.append_assoc, hmacMaximumKeySize]

/-! ## The outcome -/

/-- A computation that failed or came to another size. -/
def NoHash (computed : Result Bytes) : Prop := ∀ digest, computed = .ok digest → digest.length ≠ hmacSha256Size

theorem not_noHash {computed : Result Bytes} {digest : Bytes} (h : (computed >>= checkHashSize) = .ok digest) :
    ¬ NoHash computed := by
  obtain ⟨digest', hcomputed, hcheck⟩ := bind_eq_ok h
  exact fun hno => hno digest' hcomputed (checkHashSize_ok hcheck).2

section
variable {hash : Nat → Bytes → Result Bytes} {key keyLocal : Bytes}

theorem length_localKey (h : localKey hash key = .ok keyLocal) : keyLocal.length ≤ hmacMaximumKeySize := by
  rw [localKey] at h
  by_cases hlong : hmacMaximumKeySize < key.length
  · rw [if_pos hlong] at h
    obtain ⟨digest, _, hcheck⟩ := bind_eq_ok h
    obtain ⟨rfl, hsize⟩ := checkHashSize_ok hcheck
    rw [hsize]
    decide
  · rw [if_neg hlong] at h
    cases h
    omega

/-- The hash of a long key is among those computed, and was one if the local key is. -/
theorem resized_hashes (h : localKey hash key = .ok keyLocal) :
    ∀ computed ∈ (if hmacMaximumKeySize < key.length then [hash 0 key] else []), ¬ NoHash computed := by
  rw [localKey] at h
  intro computed hmem
  by_cases hlong : hmacMaximumKeySize < key.length
  · rw [if_pos hlong] at h hmem
    rw [List.mem_singleton.1 hmem]
    exact not_noHash h
  · rw [if_neg hlong] at hmem
    cases hmem

end

/-- What a call comes to: the HMAC, if the hashes are those of a function and there is memory for the buffers; an
error and no hash, if a hash computation fails or has another size. -/
structure ConformsToRfc2104 (hash : Nat → Bytes → Result Bytes) (m : HmacMemory) (data key : Bytes)
    (before : Option Bytes × Nat) (d : HmacOutputs) : Prop where
  hmac : ∀ H : Bytes → Bytes, (∀ text, (H text).length = hmacSha256Size) → (∀ i text, hash i text = .ok (H text)) →
    m.keyIpad = true → m.keyOpad = true →
    d.code = .ok () ∧ d.hash = some (Hmac.hmac H hmacMaximumKeySize key data) ∧ d.hashSize = hmacSha256Size
  failure : (∃ computed ∈ d.computed, NoHash computed) → ∃ e, d.code = .error e
  nothing : ∀ e, d.code = .error e → (d.hash, d.hashSize) = before ∨ (d.hash, d.hashSize) = (none, 0)

/-- A call that ends with an error where a total hash function and enough memory would not have made it. -/
theorem conforms_error {hash : Nat → Bytes → Result Bytes} {m : HmacMemory} {data key : Bytes}
    {before : Option Bytes × Nat} (after : Option Bytes × Nat) {e : McError} {computed : List (Result Bytes)}
    (hafter : after = before ∨ after = (none, 0))
    (h : ∀ H : Bytes → Bytes, (∀ text, (H text).length = hmacSha256Size) → (∀ i text, hash i text = .ok (H text)) →
      m.keyIpad = true → m.keyOpad = true → False) :
    ConformsToRfc2104 hash m data key before ⟨.error e, after.1, after.2, computed⟩ where
  hmac H hH hhash hipad hopad := (h H hH hhash hipad hopad).elim
  failure _ := ⟨e, rfl⟩
  nothing _ _ := hafter

theorem hash_total {hash : Nat → Bytes → Result Bytes} {H : Bytes → Bytes}
    (hH : ∀ text, (H text).length = hmacSha256Size) (hhash : ∀ i text, hash i text = .ok (H text)) (i : Nat) (text : Bytes) :
    (hash i text >>= checkHashSize) = .ok (H text) := by
  rw [hhash]
  exact if_pos (hH text)

theorem localKey_total {hash : Nat → Bytes → Result Bytes} {H : Bytes → Bytes}
    (hH : ∀ text, (H text).length = hmacSha256Size) (hhash : ∀ i text, hash i text = .ok (H text)) (key : Bytes) :
    localKey hash key = .ok (if hmacMaximumKeySize < key.length then H key else key) := by
  rw [localKey, hash_total hH hhash]
  split_ifs <;> rfl

/-- For every key that is not empty, any data and any outcome of the hash computations. -/
theorem hmacSha256_conforms (hash : Nat → Bytes → Result Bytes) (m : HmacMemory) (garbage : Nat → UInt8)
    (data key : Bytes) (before : Option Bytes × Nat) (hkey : key ≠ []) :
    ∃ d, hmacSha256Outputs hash m garbage data key before = some d ∧ ConformsToRfc2104 hash m data key before d := by
  have hpos : ¬ key.length = 0 := fun h => hkey (List.length_eq_zero_iff.1 h)
  rw [hmacSha256Outputs, if_neg hpos]
  cases hlocal : localKey hash key with
  | error e =>
    refine ⟨_, rfl, conforms_error before (.inl rfl) fun H hH hhash _ _ => ?_⟩
    rw [localKey_total hH hhash] at hlocal
    cases hlocal
  | ok keyLocal =>
    by_cases hmemory : (m.keyIpad && m.keyOpad) = true
    swap
    · simp only [if_neg hmemory]
      refine ⟨_, rfl, conforms_error before (.inl rfl) fun H _ _ hipad hopad => hmemory ?_⟩
      rw [hipad, hopad]
      rfl
    obtain ⟨x, y, hx, hy, hpads⟩ := pads_eq (length_localKey hlocal) data.length hmacSha256Size
      (show (freshBlock garbage (hmacMaximumKeySize + data.length)).length = _ by simp [freshBlock])
      (show (freshBlock garbage (hmacMaximumKeySize + hmacSha256Size)).length = _ by simp [freshBlock])
    have hlength (pad : UInt8) : (keyPad pad keyLocal).length = hmacMaximumKeySize := by
      have := length_localKey hlocal
      simp only [keyPad, List.length_append, List.length_map, List.length_replicate]
      omega
    have hipad : (keyPad hmacIpad keyLocal ++ x).write hmacMaximumKeySize data = some (keyPad hmacIpad keyLocal ++ data) := by
      have h : (keyPad hmacIpad keyLocal ++ (x ++ [])).write hmacMaximumKeySize data = _ :=
        Bytes.write_append (hlength _).symm hx
      rwa [List.append_nil, List.append_nil] at h
    have hopad (inner : Bytes) (hinner : inner.length = hmacSha256Size) :
        (keyPad hmacOpad keyLocal ++ y).write hmacMaximumKeySize inner = some (keyPad hmacOpad keyLocal ++ inner) := by
      have h : (keyPad hmacOpad keyLocal ++ (y ++ [])).write hmacMaximumKeySize inner = _ :=
        Bytes.write_append (hlength _).symm (hy.trans hinner.symm)
      rwa [List.append_nil, List.append_nil] at h
    obtain ⟨blocks, hxor, hrest⟩ := Option.bind_eq_some_iff.1 hpads
    simp only [if_pos hmemory, Option.bind_eq_bind, hxor, hrest, hipad, Option.bind_some]
    cases hinner : hash 1 (keyPad hmacIpad keyLocal ++ data) >>= checkHashSize with
    | error e =>
      refine ⟨_, rfl, conforms_error before (.inl rfl) fun H hH hhash _ _ => ?_⟩
      rw [hash_total hH hhash] at hinner
      cases hinner
    | ok inner =>
      obtain ⟨inner', hinner', hcheck⟩ := bind_eq_ok hinner
      obtain ⟨rfl, hsize⟩ := checkHashSize_ok hcheck
      simp only [hopad inner hsize, Option.bind_some]
      cases houter : hash 2 (keyPad hmacOpad keyLocal ++ inner) >>= checkHashSize with
      | error e =>
        refine ⟨_, rfl, conforms_error (none, 0) (.inr rfl) fun H hH hhash _ _ => ?_⟩
        rw [hash_total hH hhash] at houter
        cases houter
      | ok outer =>
        refine ⟨_, rfl, ⟨fun H hH hhash _ _ => ?_, ?_, fun e he => by cases he⟩⟩
        · rw [hash_total hH hhash] at hinner houter
          rw [localKey_total hH hhash] at hlocal
          cases hinner
          cases houter
          cases hlocal
          refine ⟨rfl, ?_, hH _⟩
          rw [keyPad_eq, keyPad_eq]
          rfl
        · rintro ⟨computed, hmem, hno⟩
          rcases List.mem_append.1 hmem with hmem | hmem
          · exact absurd hno (resized_hashes hlocal computed hmem)
          · simp only [List.mem_cons, List.not_mem_nil, or_false] at hmem
            rcases hmem with rfl | rfl
            · exact absurd hno (not_noHash hinner)
            · exact absurd hno (not_noHash houter)

/-- A hash function of a kind: the first 32 bytes, filled up. -/
def firstBytes (text : Bytes) : Bytes := text.take 32 ++ List.replicate (32 - text.length) 7

/-- A key that is longer than a block, so that it is hashed before it is used. -/
theorem longKey_conforms :
    ∃ d, hmacSha256Outputs (fun _ text => .ok (firstBytes text)) ⟨true, true⟩ (fun _ => 0) (ascii "data")
        (List.replicate 70 5) (none, 0) = some d ∧
      ConformsToRfc2104 (fun _ text => .ok (firstBytes text)) ⟨true, true⟩ (ascii "data") (List.replicate 70 5)
        (none, 0) d :=
  hmacSha256_conforms _ _ _ (ascii "data") (List.replicate 70 5) (none, 0) (by decide)

/-- Without memory for `key_ipad` there is no HMAC, though every hash could be computed. -/
theorem no_hmac_without_memory :
    ∃ d, hmacSha256Outputs (fun _ _ => .ok (List.replicate 32 7)) ⟨false, true⟩ (fun _ => 0) [] [1] (none, 0) = some d ∧
      d.code ≠ .ok () ∧ d.hash = none :=
  ⟨⟨.error .outOfMemory, none, 0, []⟩, rfl, (fun h => by cases h), rfl⟩

end MindConnect
