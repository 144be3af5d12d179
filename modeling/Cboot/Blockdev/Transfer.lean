import Cboot.Lib.Spans
import Cboot.Blockdev.Range

/-!
A byte request is cut into a partial first block, whole blocks and a partial last block.
-/

namespace Cboot.Blockdev
open Lib

def Bdev.unit (dev : Bdev) : Nat := 2 ^ dev.blockSizeLog2.toNat

theorem unit_pos (dev : Bdev) : 0 < dev.unit := Nat.two_pow_pos _

section
variable {dev : Bdev} (setUp : SetUp dev)
include setUp

theorem unit_lt : dev.unit < 2 ^ 32 := Nat.pow_lt_pow_right (by decide) setUp.log2_lt

theorem blockSize_toNat : dev.blockSize.toNat = dev.unit := by
  have small := setUp.log2_lt
  have power := unit_lt setUp
  rw [Bdev.blockSize, UInt64.toNat_shiftLeft, UInt32.toNat_toUInt64,
    Nat.mod_eq_of_lt (a := dev.blockSizeLog2.toNat) (by omega), Nat.shiftLeft_eq, UInt64.toNat_one, Nat.one_mul]
  exact Nat.mod_eq_of_lt (Nat.lt_trans power (by decide))

theorem modLog2_toNat (n : UInt64) : (modLog2 n dev.blockSizeLog2).toNat = n.toNat % dev.unit := by
  have size := blockSize_toNat setUp
  have pos := unit_pos dev
  have one : 1 ≤ dev.blockSize := by
    rw [UInt64.le_iff_toNat_le, size]
    exact pos
  rw [modLog2, UInt64.toNat_and]
  change n.toNat &&& (dev.blockSize - 1).toNat = _
  rw [UInt64.toNat_sub_of_le _ _ one, size, UInt64.toNat_one, Bdev.unit, Nat.and_two_pow_sub_one_eq_mod]

theorem modLog2_ne_zero (n : UInt64) : modLog2 n dev.blockSizeLog2 ≠ 0 ↔ n.toNat % dev.unit ≠ 0 := by
  rw [← modLog2_toNat setUp, ← UInt64.toNat_zero, ne_eq, ne_eq, UInt64.toNat_inj]

theorem divFloorLog2_toNat (n : UInt64) : (divFloorLog2 n dev.blockSizeLog2).toNat = n.toNat / dev.unit := by
  have small := setUp.log2_lt
  rw [divFloorLog2, UInt64.toNat_shiftRight, UInt32.toNat_toUInt64,
    Nat.mod_eq_of_lt (a := dev.blockSizeLog2.toNat) (by omega), Nat.shiftRight_eq_div_pow, Bdev.unit]

theorem startBlock_toNat {offset : UInt64} (inside : offset.toNat < dev.capacity) :
    (startBlock dev offset).toNat = offset.toNat / dev.unit := by
  have count := dev.blockCount.toNat_lt
  have block : offset.toNat / dev.unit < dev.blockCount.toNat :=
    Nat.div_lt_of_lt_mul (by rwa [Nat.mul_comm])
  rw [startBlock, UInt64.toNat_toUInt32, divFloorLog2_toNat setUp]
  exact Nat.mod_eq_of_lt (by omega)

theorem headCopy_toNat (offset len : UInt64) :
    (headCopy dev offset len).toNat = min (dev.unit - offset.toNat % dev.unit) len.toNat := by
  have size := blockSize_toNat setUp
  have rest := modLog2_toNat setUp offset
  have short : modLog2 offset dev.blockSizeLog2 ≤ dev.blockSize := by
    rw [UInt64.le_iff_toNat_le, size, rest]
    exact (Nat.mod_lt _ (unit_pos dev)).le
  rw [headCopy, UInt64.toNat_min, UInt64.toNat_sub_of_le _ _ short, size, rest]

theorem hasMiddle_iff (c : Cursor) : hasMiddle dev c = true ↔ dev.unit ≤ c.len.toNat := by
  have small := setUp.log2_lt
  have power := unit_lt setUp
  have one : ((1 : UInt32) <<< dev.blockSizeLog2).toNat = dev.unit := by
    rw [UInt32.toNat_shiftLeft, Nat.mod_eq_of_lt (a := dev.blockSizeLog2.toNat) small,
      Nat.shiftLeft_eq, UInt32.toNat_one, Nat.one_mul]
    exact Nat.mod_eq_of_lt power
  rw [hasMiddle, decide_eq_true_iff, ge_iff_le, UInt64.le_iff_toNat_le, UInt32.toNat_toUInt64, one]

theorem middleCount_toNat (c : Cursor) : (middleCount dev c).toNat = c.len.toNat / dev.unit :=
  divFloorLog2_toNat setUp c.len

theorem middleBytes_toNat (c : Cursor) : (middleBytes dev c).toNat = c.len.toNat / dev.unit * dev.unit := by
  have small := setUp.log2_lt
  have len := c.len.toNat_lt
  have whole := Nat.div_mul_le_self c.len.toNat dev.unit
  rw [middleBytes, UInt64.toNat_shiftLeft, UInt32.toNat_toUInt64,
    Nat.mod_eq_of_lt (a := dev.blockSizeLog2.toNat) (by omega), Nat.shiftLeft_eq, middleCount_toNat setUp]
  exact Nat.mod_eq_of_lt (by rw [← Bdev.unit]; omega)

theorem middleBytes_le (c : Cursor) : middleBytes dev c ≤ c.len := by
  rw [UInt64.le_iff_toNat_le, middleBytes_toNat setUp]
  exact Nat.div_mul_le_self _ _

theorem middleSize_eq (c : Cursor) : middleCount dev c * dev.blockSize = middleBytes dev c := by
  have len := c.len.toNat_lt
  have whole := Nat.div_mul_le_self c.len.toNat dev.unit
  apply UInt64.toNat_inj.mp
  rw [UInt64.toNat_mul, middleCount_toNat setUp, blockSize_toNat setUp, middleBytes_toNat setUp]
  exact Nat.mod_eq_of_lt (by omega)

end

theorem aligned_of_dvd {dev : Bdev} {buf : Nat} (one : 1 ≤ dev.bufAlignSize)
    (eight : dev.bufAlignSize.toNat ≤ memAlignSize) (multiple : memAlignSize ∣ buf) :
    tegrablBlockdevBufferAligned dev buf = true := by
  have mask : (dev.bufAlignSize - 1).toNat < 2 ^ 3 := by
    have positive : 1 ≤ dev.bufAlignSize.toNat := UInt32.le_iff_toNat_le.mp one
    rw [UInt32.toNat_sub_of_le _ _ one, UInt32.toNat_one]
    rw [memAlignSize] at eight
    omega
  have rest : buf % 2 ^ 3 = 0 := Nat.mod_eq_zero_of_dvd multiple
  have low : (buf &&& (dev.bufAlignSize - 1).toNat) % 2 ^ 3 = 0 := by
    rw [Nat.and_mod_two_pow, rest, Nat.zero_and]
  have bound : buf &&& (dev.bufAlignSize - 1).toNat < 2 ^ 3 :=
    Nat.lt_of_le_of_lt Nat.and_le_right mask
  rw [Nat.mod_eq_of_lt bound] at low
  rw [tegrablBlockdevBufferAligned, low]
  rfl

section
variable {σ α β : Type}

/-- The call returns without an error, and then `Q` holds. -/
def Yields (c : Call σ α) (s : σ) (Q : α → σ → Prop) : Prop :=
  ∃ a s', c.run s = (.ok a, s') ∧ Q a s'

theorem Yields.pure {a : α} {s : σ} {Q : α → σ → Prop} (h : Q a s) :
    Yields (Pure.pure a : Call σ α) s Q := ⟨a, s, rfl, h⟩

theorem Yields.bind {c : Call σ α} {f : α → Call σ β} {s : σ} {Q : α → σ → Prop}
    {R : β → σ → Prop} (first : Yields c s Q) (next : ∀ a s', Q a s' → Yields (f a) s' R) : Yields (c >>= f) s R := by
  obtain ⟨a, s', run, holds⟩ := first
  obtain ⟨b, s'', run', holds'⟩ := next a s' holds
  exact ⟨b, s'', (Call.run_bind_ok run).trans run', holds'⟩

theorem Yields.mono {c : Call σ α} {s : σ} {Q R : α → σ → Prop} (h : Yields c s Q)
    (weaken : ∀ a s', Q a s' → R a s') : Yields c s R := by
  obtain ⟨a, s', run, holds⟩ := h
  exact ⟨a, s', run, weaken a s' holds⟩

end

section
variable {π : Type}

structure Faithful (driver : Hooks (Machine π)) (dev : Bdev) : Prop where
  readBlock : ∀ buf block count s, count ≠ 0 → tegrablBlockdevBufferAligned dev buf →
    (Request.blocks block count).Inside dev → ∃ priv, (driver.readBlock dev buf block count).run s =
      (.ok (), ⟨blit s.mem buf s.disk (block.toNat * dev.unit) (count.toNat * dev.unit), s.disk, priv⟩)
  writeBlock : ∀ buf block count s, count ≠ 0 → tegrablBlockdevBufferAligned dev buf →
    (Request.blocks block count).Inside dev → ∃ priv, (driver.writeBlock dev buf block count).run s =
      (.ok (), ⟨s.mem, blit s.disk (block.toNat * dev.unit) s.mem buf (count.toNat * dev.unit), priv⟩)

theorem passes_of_inside {dev : Bdev} {block count : UInt32}
    (inside : (Request.blocks block count).Inside dev) : (Request.blocks block count).Passes dev := by
  have limit := dev.blockCount.toNat_lt
  have stop : block.toNat + count.toNat ≤ dev.blockCount.toNat := inside
  rintro (late | long)
  · have late' := UInt32.lt_iff_toNat_lt.mp late
    omega
  · have long' := UInt32.lt_iff_toNat_lt.mp long
    rw [UInt32.toNat_add] at long'
    omega

variable {driver : Hooks (Machine π)} {dev : Bdev} {buf : Nat} {block count : UInt32}

theorem yields_readBlock (faithful : Faithful driver dev) (opened : dev.ref ≠ 0)
    (nonempty : count ≠ 0) (aligned : tegrablBlockdevBufferAligned dev buf)
    (inside : (Request.blocks block count).Inside dev) (s : Machine π) :
    Yields (tegrablBlockdevReadBlock driver (some dev) buf block count) s fun _ s' =>
      s'.mem = blit s.mem buf s.disk (block.toNat * dev.unit) (count.toNat * dev.unit) ∧ s'.disk = s.disk := by
  rw [readBlock_eq nonempty aligned opened (passes_of_inside inside)]
  obtain ⟨priv, run⟩ := faithful.readBlock buf block count s nonempty aligned inside
  exact ⟨(), _, run, rfl, rfl⟩

theorem yields_writeBlock (faithful : Faithful driver dev) (opened : dev.ref ≠ 0)
    (nonempty : count ≠ 0) (present : buf ≠ 0) (aligned : tegrablBlockdevBufferAligned dev buf)
    (inside : (Request.blocks block count).Inside dev) (s : Machine π) :
    Yields (tegrablBlockdevWriteBlock driver (some dev) buf block count) s fun _ s' =>
      s'.mem = s.mem ∧ s'.disk = blit s.disk (block.toNat * dev.unit) s.mem buf (count.toNat * dev.unit) := by
  rw [writeBlock_eq nonempty present aligned opened (passes_of_inside inside)]
  obtain ⟨priv, run⟩ := faithful.writeBlock buf block count s nonempty aligned inside
  exact ⟨(), _, run, rfl, rfl⟩

theorem yields_memcpy (dst src : Nat) (n : UInt64) (s : Machine π) : Yields (memcpy dst src n) s fun _ s' =>
      s'.mem = blit s.mem dst s.mem src n.toNat ∧ s'.disk = s.disk := ⟨(), _, rfl, rfl, rfl⟩

end

structure Done (dev : Bdev) (buf : Nat) (offset len : UInt64) (k : Nat) (c : Cursor) : Prop where
  le : k ≤ len.toNat
  buf_eq : c.buf = buf + k
  len_eq : c.len.toNat = len.toNat - k
  block_eq : 0 < c.len.toNat → c.block.toNat * dev.unit = offset.toNat + k

section
variable {dev : Bdev} {buf : Nat} {offset len : UInt64} {k : Nat} {c : Cursor}

theorem Done.advance {n : UInt64} {blocks : UInt32} (done : Done dev buf offset len k c) (left : n.toNat ≤ c.len.toNat)
    (block : n.toNat < c.len.toNat → (c.block + blocks).toNat * dev.unit = offset.toNat + (k + n.toNat)) :
    Done dev buf offset len (k + n.toNat) (c.advance n blocks) := by
  obtain ⟨le, buf_eq, len_eq, block_eq⟩ := done
  have len' : (c.len - n).toNat = c.len.toNat - n.toNat :=
    UInt64.toNat_sub_of_le _ _ (UInt64.le_iff_toNat_le.mpr left)
  refine ⟨by omega, ?_, ?_, ?_⟩
  · change c.buf + n.toNat = _
    omega
  · change (c.len - n).toNat = _
    omega
  · intro more
    change 0 < (c.len - n).toNat at more
    exact block (by omega)

theorem len_pos_iff (c : Cursor) : c.len > 0 ↔ 0 < c.len.toNat := UInt64.lt_iff_toNat_lt

theorem partial_of_tail {j : Nat} (done : Done dev buf offset len (k + j) c)
    (start : offset.toNat % dev.unit = 0 → k = 0) (whole : j % dev.unit = 0)
    (short : c.len.toNat < dev.unit) (more : 0 < c.len.toNat) :
    offset.toNat % dev.unit ≠ 0 ∨ len.toNat % dev.unit ≠ 0 := by
  by_contra blocks
  obtain ⟨first, last⟩ := not_or.mp blocks
  have none := start (not_not.mp first)
  subst none
  have multiple : dev.unit ∣ len.toNat - (0 + j) := by
    rw [Nat.zero_add]
    exact Nat.dvd_sub (Nat.dvd_of_mod_eq_zero (not_not.mp last)) (Nat.dvd_of_mod_eq_zero whole)
  rw [← done.len_eq] at multiple
  exact absurd (Nat.le_of_dvd more multiple) (by omega)

theorem add_one_toNat {block bound : UInt32} (h : block.toNat < bound.toNat) : (block + 1).toNat = block.toNat + 1 := by
  have := bound.toNat_lt
  rw [UInt32.toNat_add, UInt32.toNat_one]
  omega

variable (inside : offset.toNat + len.toNat ≤ dev.capacity)
include inside

theorem done_inside (done : Done dev buf offset len k c) (more : 0 < c.len.toNat) {n : Nat}
    (fits : n * dev.unit ≤ c.len.toNat + (dev.unit - 1)) : c.block.toNat + n ≤ dev.blockCount.toNat := by
  have pos := unit_pos dev
  have block := done.block_eq more
  have left := done.len_eq
  have bound : (c.block.toNat + n) * dev.unit < (dev.blockCount.toNat + 1) * dev.unit := by
    change _ ≤ dev.blockCount.toNat * dev.unit at inside
    rw [Nat.add_mul, Nat.add_mul, block]
    omega
  exact Nat.le_of_lt_succ (Nat.lt_of_mul_lt_mul_right bound)

theorem middle_inside (done : Done dev buf offset len k c) (middle : dev.unit ≤ c.len.toNat) :
    c.block.toNat + c.len.toNat / dev.unit ≤ dev.blockCount.toNat := by
  have pos := unit_pos dev
  have whole := Nat.div_mul_le_self c.len.toNat dev.unit
  exact done_inside inside done (by omega) (by omega)

variable (setUp : SetUp dev)
include setUp

theorem done_start (nonempty : 0 < len.toNat) (whole : offset.toNat % dev.unit = 0) :
    Done dev buf offset len 0 ⟨buf, len, startBlock dev offset⟩ := by
  refine ⟨Nat.zero_le _, rfl, rfl, ?_⟩
  intro more
  change (startBlock dev offset).toNat * dev.unit = _
  rw [startBlock_toNat setUp (by omega), Nat.add_zero]
  exact Nat.div_mul_cancel (Nat.dvd_of_mod_eq_zero whole)

theorem head_inside (nonempty : 0 < len.toNat) : (Request.blocks (startBlock dev offset) 1).Inside dev := by
  change (startBlock dev offset).toNat + 1 ≤ dev.blockCount.toNat
  rw [startBlock_toNat setUp (by omega)]
  exact Nat.div_lt_of_lt_mul (by rw [Nat.mul_comm]; change _ < dev.capacity; omega)

theorem done_head (nonempty : 0 < len.toNat) : Done dev buf offset len (headCopy dev offset len).toNat
      (Cursor.advance ⟨buf, len, startBlock dev offset⟩ (headCopy dev offset len) 1) := by
  have pos := unit_pos dev
  have copy := headCopy_toNat setUp offset len
  have first : offset.toNat < dev.capacity := by omega
  have start := startBlock_toNat setUp first
  have part : offset.toNat % dev.unit < dev.unit := Nat.mod_lt _ pos
  have split : offset.toNat / dev.unit * dev.unit + offset.toNat % dev.unit = offset.toNat :=
    Nat.div_add_mod' _ _
  have left : (headCopy dev offset len).toNat ≤ len.toNat := by omega
  have next := add_one_toNat (Nat.lt_of_succ_le (head_inside inside setUp nonempty))
  refine ⟨left, rfl, UInt64.toNat_sub_of_le _ _ (UInt64.le_iff_toNat_le.mpr left), ?_⟩
  intro more
  change 0 < (len - headCopy dev offset len).toNat at more
  rw [UInt64.toNat_sub_of_le _ _ (UInt64.le_iff_toNat_le.mpr left)] at more
  change (startBlock dev offset + 1).toNat * dev.unit = _
  rw [next, start, Nat.add_mul]
  omega

theorem middle_count (done : Done dev buf offset len k c) (middle : dev.unit ≤ c.len.toNat) :
    (middleCount dev c).toUInt32.toNat = c.len.toNat / dev.unit := by
  have bound := middle_inside inside done middle
  have count := dev.blockCount.toNat_lt
  rw [UInt64.toNat_toUInt32, middleCount_toNat setUp]
  exact Nat.mod_eq_of_lt (by omega)

theorem middle_nonempty (done : Done dev buf offset len k c) (middle : dev.unit ≤ c.len.toNat) :
    (middleCount dev c).toUInt32 ≠ 0 := by
  have count := middle_count inside setUp done middle
  intro zero
  rw [zero] at count
  exact absurd count.symm (Nat.div_pos middle (unit_pos dev)).ne'

theorem middle_blocks (done : Done dev buf offset len k c) (middle : dev.unit ≤ c.len.toNat) :
    (Request.blocks c.block (middleCount dev c).toUInt32).Inside dev := by
  change c.block.toNat + (middleCount dev c).toUInt32.toNat ≤ _
  rw [middle_count inside setUp done middle]
  exact middle_inside inside done middle

theorem done_middle (done : Done dev buf offset len k c) (middle : dev.unit ≤ c.len.toNat) :
    Done dev buf offset len (k + c.len.toNat / dev.unit * dev.unit)
      (c.advance (middleBytes dev c) (middleCount dev c).toUInt32) := by
  have bytes := middleBytes_toNat setUp c
  have whole := Nat.div_mul_le_self c.len.toNat dev.unit
  have count := middle_count inside setUp done middle
  have bound := middle_inside inside done middle
  have limit := dev.blockCount.toNat_lt
  have pos := unit_pos dev
  rw [← bytes]
  refine done.advance (by omega) ?_
  intro more
  have block := done.block_eq (by omega)
  have next : (c.block + (middleCount dev c).toUInt32).toNat = c.block.toNat + c.len.toNat / dev.unit := by
    rw [UInt32.toNat_add, count]
    exact Nat.mod_eq_of_lt (by omega)
  rw [next, Nat.add_mul, block, bytes]
  omega

theorem middle_rest (done : Done dev buf offset len k c) (middle : dev.unit ≤ c.len.toNat) :
    (c.advance (middleBytes dev c) (middleCount dev c).toUInt32).len.toNat < dev.unit := by
  have rest := Nat.mod_lt c.len.toNat (unit_pos dev)
  have split := Nat.div_add_mod' c.len.toNat dev.unit
  have left := done.len_eq
  rw [(done_middle inside setUp done middle).len_eq]
  omega

end

end Cboot.Blockdev
