import Cboot.Lib.ByteMemory

/-!
`memset`, `memcpy` and `memmove` of `lib/clib/string.c`. An address is a number, and the null pointer is 0.
-/

namespace Cboot.Clib.Memory

open Cboot.Lib

def lsize : Nat := 8
def lmask : Nat := lsize - 1

/-- What `tegrabl_clib_dma_register` was given. -/
structure ClibDma where
  memcpyCallback : Option (Nat → Nat → Nat → Mem → Int × Mem)
  memcpyThreshold : Nat
  memsetCallback : Option (Nat → UInt32 → Nat → Mem → Int × Mem)
  memsetThreshold : Nat

/-- The loops that store `len` values of `size` bytes. -/
def setUp (size val : Nat) : Nat → Nat → Mem → Mem
  | 0, _, m => m
  | len + 1, xs, m => setUp size val len (xs + size) (writeLE m xs size val)

/-- The loops that move `len` values of `size` bytes, each one loaded and then stored. -/
def copyUp (size : Nat) : Nat → Nat → Nat → Mem → Mem
  | 0, _, _, m => m
  | len + 1, d, s, m => copyUp size len (d + size) (s + size) (writeLE m d size (readLE m s size))

def copyDown (size : Nat) : Nat → Nat → Nat → Mem → Mem
  | 0, _, _, m => m
  | len + 1, d, s, m =>
    let d := d - size
    let s := s - size
    copyDown size len d s (writeLE m d size (readLE m s size))

def spread (c : UInt32) : Nat :=
  let cc := c.toNat &&& 0xff
  let cc := cc ||| cc <<< 8
  let cc := cc ||| cc <<< 16
  cc ||| cc <<< 32

/-- The words of `memset`, given to the callback first. -/
def setWords (dma : ClibDma) (xs : Nat) (c : UInt32) (len : Nat) (m : Mem) : Mem :=
  let (notDone, m) := match dma.memsetCallback with
    | some callback => if len * lsize ≥ dma.memsetThreshold then callback xs c (len * lsize) m else (1, m)
    | none => (1, m)
  if notDone ≠ 0 then setUp lsize (spread c) len xs m else m

def memset (dma : ClibDma) (s : Nat) (c : UInt32) (n : Nat) (m : Mem) : Nat × Mem :=
  let len := (2 ^ 64 - s % 2 ^ 64) &&& lmask
  if n > len then
    let n := n - len
    let m := setUp 1 c.toNat len s m
    let xs := s + len
    let len := n / lsize
    let m := setWords dma xs c len m
    let xs := xs + len * lsize
    (s, setUp 1 c.toNat (n &&& lmask) xs m)
  else (s, setUp 1 c.toNat n s m)

def copyWords (dma : ClibDma) (d s len : Nat) (m : Mem) : Mem :=
  let (notDone, m) := match dma.memcpyCallback with
    | some callback => if len * lsize ≥ dma.memcpyThreshold then callback d s (len * lsize) m else (1, m)
    | none => (1, m)
  if notDone ≠ 0 then copyUp lsize len d s m else m

def memcpy (dma : ClibDma) (dest src n : Nat) (m : Mem) : Nat × Mem :=
  if n = 0 ∨ dest = src then (dest, m)
  else if src = 0 ∨ dest = 0 then (0, m)
  else
    let len :=
      if (dest ||| src) &&& lmask ≠ 0 then
        if (dest ^^^ src) &&& lmask ≠ 0 ∨ n < lsize then n else lsize - (dest &&& lmask)
      else 0
    let n := n - len
    let m := copyUp 1 len dest src m
    let d := dest + len
    let s := src + len
    let len := n / lsize
    let m := copyWords dma d s len m
    (dest, copyUp 1 (n &&& lmask) (d + len * lsize) (s + len * lsize) m)

/-- `len` has 32 bits here. -/
def rmemcpy (dest src n : Nat) (m : Mem) : Nat × Mem :=
  let d := dest + n
  let s := src + n
  if n = 0 ∨ dest = src then (dest, m)
  else if src = 0 ∨ dest = 0 then (0, m)
  else
    let len :=
      if (d ||| s) &&& lmask ≠ 0 then
        if (d ^^^ s) &&& lmask ≠ 0 ∨ n < lsize then n % 2 ^ 32 else d &&& lmask
      else 0
    let n := n - len
    let m := copyDown 1 len d s m
    let d := d - len
    let s := s - len
    let len := n / lsize % 2 ^ 32
    let m := copyDown lsize len d s m
    (dest, copyDown 1 (n &&& lmask) (d - len * lsize) (s - len * lsize) m)

def memmove (dma : ClibDma) (dest src n : Nat) (m : Mem) : Nat × Mem :=
  if dest = 0 ∨ src = 0 then (0, m)
  else if dest = src then (dest, m)
  else if dest < src ∨ dest > src + n then memcpy dma dest src n m
  else rmemcpy dest src n m

/-- A callback that returns 0 has done all of it, and another one has left the memory alone. -/
structure ClibDma.Exact (dma : ClibDma) : Prop where
  copies : ∀ callback ∈ dma.memcpyCallback, ∀ d s len m,
    (callback d s len m).2 = if (callback d s len m).1 = 0 then blit m d m s len else m
  sets : ∀ callback ∈ dma.memsetCallback, ∀ xs c len m,
    (callback xs c len m).2 = if (callback xs c len m).1 = 0 then fillBytes m xs len c.toUInt8 else m

theorem and_lmask (n : Nat) : n &&& lmask = n % lsize := Nat.and_two_pow_sub_one_eq_mod n 3

theorem setUp_spec {size val : Nat} {b : UInt8} (bytes : ∀ i < size, UInt8.ofNat (val / 256 ^ i) = b)
    (len xs : Nat) (m : Mem) : setUp size val len xs m = fillBytes m xs (len * size) b := by
  induction len generalizing xs m with
  | zero =>
    funext x
    simp [setUp, fillBytes]
  | succ len ih =>
    have first : writeLE m xs size val = fillBytes m xs size b := by
      funext x
      by_cases inside : xs ≤ x ∧ x < xs + size
      · rw [writeLE, fillBytes, if_pos inside, if_pos inside, bytes _ (by omega)]
      · rw [writeLE, fillBytes, if_neg inside, if_neg inside]
    rw [setUp, ih, first, fillBytes_append, Nat.succ_mul, Nat.add_comm]

theorem setUp_bytes (c : UInt32) (len xs : Nat) (m : Mem) :
    setUp 1 c.toNat len xs m = fillBytes m xs len c.toUInt8 := by
  have bytes : ∀ i < 1, UInt8.ofNat (c.toNat / 256 ^ i) = c.toUInt8 := by
    intro i low
    rw [Nat.lt_one_iff.mp low, pow_zero, Nat.div_one]
    rfl
  rw [setUp_spec bytes, Nat.mul_one]

theorem spread_byte (c : UInt32) : ∀ i < lsize, UInt8.ofNat (spread c / 256 ^ i) = c.toUInt8 := by
  have each : ∀ b : Fin 256, ∀ i < lsize, UInt8.ofNat (spread (UInt32.ofNat b) / 256 ^ i) = UInt8.ofNat b := by
    decide +kernel
  have low : spread (UInt32.ofNat (c.toNat % 256)) = spread c := by
    have small : c.toNat % 256 % 2 ^ 32 = c.toNat % 256 := Nat.mod_eq_of_lt (by omega)
    have byte (n : Nat) : n &&& 0xff = n % 256 := Nat.and_two_pow_sub_one_eq_mod n 8
    rw [spread, spread, UInt32.toNat_ofNat', small, byte, byte, Nat.mod_mod]
  intro i inside
  have this := each ⟨c.toNat % 256, Nat.mod_lt _ (by decide)⟩ i inside
  rw [low] at this
  rw [this]
  exact UInt8.toNat_inj.mp (by simp)

variable {dma : ClibDma}

theorem setWords_spec (exact : dma.Exact) (xs : Nat) (c : UInt32) (len : Nat) (m : Mem) :
    setWords dma xs c len m = fillBytes m xs (len * lsize) c.toUInt8 := by
  have words := setUp_spec (spread_byte c) len xs
  unfold setWords
  cases set : dma.memsetCallback with
  | none => exact words m
  | some callback =>
    by_cases enough : len * lsize ≥ dma.memsetThreshold
    · have result := exact.sets callback set xs c (len * lsize) m
      simp only [if_pos enough, result]
      by_cases done : (callback xs c (len * lsize) m).1 = 0
      · rw [if_neg (not_not_intro done), if_pos done]
      · rw [if_pos done, if_neg done, words]
    · simp only [if_neg enough]
      exact words m

theorem memset_spec (exact : dma.Exact) (s : Nat) (c : UInt32) (n : Nat) (m : Mem) :
    memset dma s c n m = (s, fillBytes m s n c.toUInt8) := by
  unfold memset
  generalize (2 ^ 64 - s % 2 ^ 64) &&& lmask = len
  by_cases more : n > len
  · have size : len + (n - len) / lsize * lsize + (n - len) % lsize = n := by
      have := Nat.div_add_mod' (n - len) lsize
      omega
    simp only [if_pos more, setUp_bytes, setWords_spec exact, and_lmask]
    rw [fillBytes_append, fillBytes_append, ← Nat.add_assoc, size]
  · rw [if_neg more, setUp_bytes]

theorem copyUp_spec (size len : Nat) {d s : Nat} (m : Mem) (apart : d ≤ s ∨ s + len * size ≤ d) :
    copyUp size len d s m = blit m d m s (len * size) := by
  induction len generalizing d s m with
  | zero => rw [copyUp, Nat.zero_mul, blit_none]
  | succ len ih =>
    have total : (len + 1) * size = size + len * size := by rw [Nat.succ_mul, Nat.add_comm]
    rw [total] at apart ⊢
    rw [copyUp, writeLE_readLE, ih _ (by omega), blit_up m _ _ apart]

theorem copyDown_spec (size len : Nat) {d s : Nat} (m : Mem) (apart : s ≤ d ∨ d + len * size ≤ s) :
    copyDown size len (d + len * size) (s + len * size) m = blit m d m s (len * size) := by
  induction len generalizing m with
  | zero => rw [copyDown, Nat.zero_mul, blit_none]
  | succ len ih =>
    have below (a : Nat) : a + (len + 1) * size - size = a + len * size := by
      rw [Nat.succ_mul, ← Nat.add_assoc, Nat.add_sub_cancel]
    rw [Nat.succ_mul] at apart
    simp only [copyDown, below, writeLE_readLE]
    rw [ih _ (by omega), blit_down m _ _ apart, Nat.succ_mul]

theorem copyWords_spec (exact : dma.Exact) {d s : Nat} (len : Nat) (m : Mem)
    (apart : d ≤ s ∨ s + len * lsize ≤ d) : copyWords dma d s len m = blit m d m s (len * lsize) := by
  have words := copyUp_spec lsize len m apart
  unfold copyWords
  cases set : dma.memcpyCallback with
  | none => exact words
  | some callback =>
    by_cases enough : len * lsize ≥ dma.memcpyThreshold
    · have result := exact.copies callback set d s (len * lsize) m
      simp only [if_pos enough, result]
      by_cases done : (callback d s (len * lsize) m).1 = 0
      · rw [if_neg (not_not_intro done), if_pos done]
      · rw [if_pos done, if_neg done, words]
    · simp only [if_neg enough]
      exact words

theorem first_le {P Q : Prop} [Decidable P] [Decidable Q] {n off : Nat} (short : off ≤ lsize) :
    (if P then if Q ∨ n < lsize then n else off else 0) ≤ n := by
  split_ifs with odd few
  · exact le_rfl
  · exact le_trans short (Nat.not_lt.mp fun less => few (.inr less))
  · exact Nat.zero_le n

theorem memcpy_spec (exact : dma.Exact) {dest src : Nat} (n : Nat) (m : Mem)
    (destThere : dest ≠ 0) (srcThere : src ≠ 0) (apart : dest < src ∨ dest + n ≤ src ∨ src + n ≤ dest) :
    memcpy dma dest src n m = (dest, blit m dest m src n) := by
  unfold memcpy
  by_cases nothing : n = 0 ∨ dest = src
  · have empty : n = 0 := by omega
    rw [if_pos nothing, empty, blit_none]
  · rw [if_neg nothing, if_neg (by omega)]
    have before := first_le (P := (dest ||| src) &&& lmask ≠ 0) (Q := (dest ^^^ src) &&& lmask ≠ 0) (n := n)
      (Nat.sub_le lsize (dest &&& lmask))
    revert before
    generalize (if (dest ||| src) &&& lmask ≠ 0 then
      if (dest ^^^ src) &&& lmask ≠ 0 ∨ n < lsize then n else lsize - (dest &&& lmask) else 0) = len
    intro before
    have cut := Nat.div_add_mod' (n - len) lsize
    simp only [and_lmask]
    generalize (n - len) / lsize = words at cut ⊢
    generalize (n - len) % lsize = rest at cut ⊢
    have total : len + words * lsize + rest = n := by omega
    have small := copyUp_spec 1 len m (d := dest) (s := src) (by omega)
    rw [Nat.mul_one] at small
    rw [small, copyWords_spec exact _ _ (by omega), blit_up m _ _ (by omega)]
    have last := copyUp_spec 1 rest (blit m dest m src (len + words * lsize)) (d := dest + len + words * lsize)
      (s := src + len + words * lsize) (by omega)
    rw [last, Nat.mul_one, Nat.add_assoc, Nat.add_assoc src, blit_up m _ _ (by omega), total]

theorem rmemcpy_spec {dest src n : Nat} (m : Mem) (srcThere : src ≠ 0) (above : src < dest)
    (small : n < 2 ^ 32) : rmemcpy dest src n m = (dest, blit m dest m src n) := by
  unfold rmemcpy
  by_cases nothing : n = 0 ∨ dest = src
  · have empty : n = 0 := by omega
    rw [if_pos nothing, empty, blit_none]
  · simp only [if_neg nothing, if_neg (show ¬(src = 0 ∨ dest = 0) by omega), Nat.mod_eq_of_lt small, and_lmask]
    have before := first_le (P := (dest + n ||| src + n) % lsize ≠ 0) (Q := (dest + n ^^^ src + n) % lsize ≠ 0) (n := n)
      (Nat.mod_lt (dest + n) (by decide : 0 < lsize)).le
    revert before
    generalize (if (dest + n ||| src + n) % lsize ≠ 0 then
      if (dest + n ^^^ src + n) % lsize ≠ 0 ∨ n < lsize then n else (dest + n) % lsize else 0) = len
    intro before
    have cut := Nat.div_add_mod' (n - len) lsize
    have fits : (n - len) / lsize % 2 ^ 32 = (n - len) / lsize := by
      have := Nat.div_le_self (n - len) lsize
      exact Nat.mod_eq_of_lt (by omega)
    rw [fits]
    generalize (n - len) / lsize = words at cut ⊢
    generalize (n - len) % lsize = rest at cut ⊢
    obtain rfl : n = rest + words * lsize + len := by omega
    simp only [← Nat.add_assoc, Nat.add_sub_cancel]
    have bytes := copyDown_spec 1 len (d := dest + rest + words * lsize) (s := src + rest + words * lsize) m (by omega)
    rw [Nat.mul_one] at bytes
    rw [bytes]
    have whole := copyDown_spec lsize words (d := dest + rest) (s := src + rest)
      (blit m (dest + rest + words * lsize) m (src + rest + words * lsize) len) (by omega)
    rw [whole, blit_down m _ _ (by omega)]
    have last := copyDown_spec 1 rest (d := dest) (s := src)
      (blit m (dest + rest) m (src + rest) (words * lsize + len)) (by omega)
    rw [Nat.mul_one] at last
    rw [last, blit_down m _ _ (by omega), Nat.add_assoc]

theorem memmove_spec (exact : dma.Exact) {dest src n : Nat} (m : Mem)
    (destThere : dest ≠ 0) (srcThere : src ≠ 0) (small : n < 2 ^ 32) :
    memmove dma dest src n m = (dest, blit m dest m src n) := by
  unfold memmove
  rw [if_neg (by omega)]
  by_cases same : dest = src
  · have itself : blit m src m src n = m := by
      funext x
      by_cases inside : src ≤ x ∧ x < src + n
      · rw [blit_inside _ _ inside.1 inside.2, Nat.add_sub_cancel' inside.1]
      · exact blit_outside _ _ (by omega)
    rw [if_pos same, same, itself]
  · rw [if_neg same]
    by_cases forward : dest < src ∨ dest > src + n
    · rw [if_pos forward]
      exact memcpy_spec exact n m destThere srcThere (by omega)
    · rw [if_neg forward]
      exact rmemcpy_spec m srcThere (by omega) small

/-- The routines that go by words leave the memory as those that go by bytes do. -/
theorem memory_routines {dma : ClibDma} (exact : dma.Exact) {dest src n : Nat} (c : UInt32) (m : Mem)
    (destThere : dest ≠ 0) (srcThere : src ≠ 0) (small : n < 2 ^ 32) :
    memset dma dest c n m = (dest, fillBytes m dest n c.toUInt8) ∧
      (dest < src ∨ dest + n ≤ src ∨ src + n ≤ dest → memcpy dma dest src n m = (dest, blit m dest m src n)) ∧
      memmove dma dest src n m = (dest, blit m dest m src n) :=
  ⟨memset_spec exact dest c n m, memcpy_spec exact n m destThere srcThere, memmove_spec exact m destThere srcThere small⟩

/-- The ranges overlap. The callback copies them, and the one for `memset` leaves it to the loops. -/
theorem memory_routines_overlap :
    let dma : ClibDma := ⟨some fun d s len m => (0, blit m d m s len), 16, some fun _ _ _ m => (1, m), 0⟩
    memset dma 11 0x15a 21 UInt8.ofNat = (11, fillBytes UInt8.ofNat 11 21 0x5a) ∧
      memcpy dma 11 13 21 UInt8.ofNat = (11, blit UInt8.ofNat 11 UInt8.ofNat 13 21) := by
  intro dma
  have exact : dma.Exact :=
    ⟨fun _ same _ _ _ _ => by cases same; rfl, fun _ same _ _ _ _ => by cases same; rfl⟩
  obtain ⟨filled, copied, _⟩ :=
    memory_routines exact 0x15a UInt8.ofNat (by decide : 11 ≠ 0) (by decide : 13 ≠ 0) (by decide : 21 < 2 ^ 32)
  exact ⟨filled, copied (by decide)⟩

end Cboot.Clib.Memory
