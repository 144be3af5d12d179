import Cboot.Blockdev.Transfer

/-!
`tegrabl_blockdev_read` and `tegrabl_blockdev_write` on the default byte hooks.
-/

namespace Cboot.Blockdev
open Lib

structure Usable (p : Nat) (size : UInt64) (buf : Nat) (len : UInt64) : Prop where
  present : p ≠ 0
  aligned : memAlignSize ∣ p
  clear : Span.Clear ⟨p, size.toNat⟩ ⟨buf, len.toNat⟩

structure Granted (alloc : Alloc) (dev : Bdev) (buf : Nat) (len : UInt64) : Prop where
  partialBlock : Usable (alloc .partialBlock dev.blockSize) dev.blockSize buf len
  temp : ∀ size, size ≤ len → Usable (alloc .temp size) size buf len

def Scratch (alloc : Alloc) (dev : Bdev) (len : UInt64) (x : Nat) : Prop :=
  (alloc .partialBlock dev.blockSize ≤ x ∧ x < alloc .partialBlock dev.blockSize + dev.blockSize.toNat) ∨
  ∃ size ≤ len, alloc .temp size ≤ x ∧ x < alloc .temp size + size.toNat

structure Ready (dev : Bdev) : Prop where
  setUp : SetUp dev
  opened : dev.ref ≠ 0
  align_pos : 1 ≤ dev.bufAlignSize
  align_le : dev.bufAlignSize.toNat ≤ memAlignSize

section
variable {π : Type} {driver : Hooks (Machine π)} {alloc : Alloc} {dev : Bdev} {buf : Nat}
variable {offset len : UInt64} {s₀ s s' : Machine π} {k : Nat} {c : Cursor}

theorem not_scratch (granted : Granted alloc dev buf len) {x : Nat} (lo : buf ≤ x)
    (hi : x < buf + len.toNat) : ¬ Scratch alloc dev len x := by
  rintro (⟨lo', hi'⟩ | ⟨size, le, lo', hi'⟩)
  · have clear := granted.partialBlock.clear
    simp only [Span.Clear, Span.stop_mk] at clear
    omega
  · have clear := (granted.temp size le).clear
    simp only [Span.Clear, Span.stop_mk] at clear
    omega

structure Fetched (alloc : Alloc) (dev : Bdev) (buf : Nat) (offset len : UInt64) (s₀ : Machine π)
    (k : Nat) (s : Machine π) : Prop where
  disk : s.disk = s₀.disk
  arrived : ∀ x, buf ≤ x → x < buf + k → s.mem x = s₀.disk (offset.toNat + (x - buf))
  others : ∀ x, x < buf ∨ buf + k ≤ x → ¬ Scratch alloc dev len x → s.mem x = s₀.mem x

theorem fetched_start : Fetched alloc dev buf offset len s₀ 0 s₀ :=
  ⟨rfl, fun x lo hi => by omega, fun _ _ _ => rfl⟩

theorem Fetched.extend (fetched : Fetched alloc dev buf offset len s₀ k s)
    (granted : Granted alloc dev buf len) {j : Nat} (le : k + j ≤ len.toNat) (disk : s'.disk = s.disk)
    (arrived : ∀ x, buf + k ≤ x → x < buf + k + j → s'.mem x = s.disk (offset.toNat + (x - buf)))
    (others : ∀ x, x < buf + k ∨ buf + k + j ≤ x → ¬ Scratch alloc dev len x → s'.mem x = s.mem x) :
    Fetched alloc dev buf offset len s₀ (k + j) s' := by
  refine ⟨disk.trans fetched.disk, ?_, ?_⟩
  · intro x lo hi
    by_cases new : buf + k ≤ x
    · rw [arrived x new (by omega), fetched.disk]
    · rw [others x (by omega) (not_scratch granted lo (by omega))]
      exact fetched.arrived x lo (by omega)
  · intro x out free
    rw [others x (by omega) free]
    exact fetched.others x (by omega) free

theorem Fetched.bounce (fetched : Fetched alloc dev buf offset len s₀ k s)
    (granted : Granted alloc dev buf len) {p d n a j : Nat} (le : k + j ≤ len.toNat)
    (scratch : ∀ x, p ≤ x → x < p + n → Scratch alloc dev len x) (part : a + j ≤ n)
    (place : d + a = offset.toNat + k) (disk : s'.disk = s.disk)
    (mem : s'.mem = blit (blit s.mem p s.disk d n) (buf + k) (blit s.mem p s.disk d n) (p + a) j) :
    Fetched alloc dev buf offset len s₀ (k + j) s' := by
  refine fetched.extend granted le disk ?_ ?_
  · intro x lo hi
    rw [mem, blit_inside _ _ lo hi, blit_inside _ _ (by omega) (by omega)]
    congr 1
    omega
  · intro x out free
    rw [mem, blit_outside _ _ out]
    refine blit_outside _ _ ?_
    by_contra within
    exact free (scratch x (by omega) (by omega))

theorem partial_scratch (ready : Ready dev) (x : Nat) (lo : alloc .partialBlock dev.blockSize ≤ x)
    (hi : x < alloc .partialBlock dev.blockSize + dev.unit) : Scratch alloc dev len x := by
  rw [← blockSize_toNat ready.setUp] at hi
  exact .inl ⟨lo, hi⟩

theorem partial_aligned (ready : Ready dev) (granted : Granted alloc dev buf len) :
    tegrablBlockdevBufferAligned dev (alloc .partialBlock dev.blockSize) = true :=
  aligned_of_dvd ready.align_pos ready.align_le granted.partialBlock.aligned

theorem yields_allocPartial (ready : Ready dev) (granted : Granted alloc dev buf len) (s : Machine π) :
    Yields (allocPartial alloc dev offset len) s fun p s' => s' = s ∧
      (offset.toNat % dev.unit ≠ 0 ∨ len.toNat % dev.unit ≠ 0 → p = alloc .partialBlock dev.blockSize) := by
  have nonzero := modLog2_ne_zero ready.setUp
  unfold allocPartial
  by_cases part : modLog2 offset dev.blockSizeLog2 ≠ 0 ∨ modLog2 len dev.blockSizeLog2 ≠ 0
  · rw [if_pos part, if_neg granted.partialBlock.present]
    exact .pure ⟨rfl, fun _ => rfl⟩
  · rw [if_neg part]
    rw [nonzero, nonzero] at part
    exact .pure ⟨rfl, fun h => absurd h part⟩

section
variable (faithful : Faithful driver dev) (ready : Ready dev) (granted : Granted alloc dev buf len)
variable (inside : offset.toNat + len.toNat ≤ dev.capacity) (nonempty : 0 < len.toNat)
include faithful ready granted inside

include nonempty in
theorem yields_readHead {partialBuf : Nat}
    (given : offset.toNat % dev.unit ≠ 0 → partialBuf = alloc .partialBlock dev.blockSize) :
    Yields (readHead driver dev partialBuf offset ⟨buf, len, startBlock dev offset⟩) s₀ fun c s =>
      ∃ k, Done dev buf offset len k c ∧ Fetched alloc dev buf offset len s₀ k s ∧
        (offset.toNat % dev.unit = 0 → k = 0) := by
  have setUp := ready.setUp
  have rest := modLog2_toNat setUp offset
  unfold readHead
  by_cases whole : offset.toNat % dev.unit = 0
  · rw [if_neg (mt (modLog2_ne_zero setUp offset).mp (not_not.mpr whole))]
    exact .pure ⟨0, done_start inside setUp nonempty whole, fetched_start, fun _ => rfl⟩
  · have copy := headCopy_toNat setUp offset len
    have short : offset.toNat % dev.unit < dev.unit := Nat.mod_lt _ (unit_pos dev)
    rw [if_pos ((modLog2_ne_zero setUp offset).mpr whole), given whole]
    refine (yields_readBlock faithful ready.opened (by decide) (partial_aligned ready granted)
      (head_inside inside setUp nonempty) s₀).bind ?_
    rintro - s₁ ⟨mem₁, disk₁⟩
    refine (yields_memcpy _ _ _ s₁).bind ?_
    rintro - s₂ ⟨mem₂, disk₂⟩
    refine .pure ⟨_, done_head inside setUp nonempty, ?_, fun h => absurd h whole⟩
    have fetched : Fetched alloc dev buf offset len s₀ 0 s₀ := fetched_start
    rw [mem₁, rest] at mem₂
    have step := fetched.bounce granted (p := alloc .partialBlock dev.blockSize)
      (d := (startBlock dev offset).toNat * dev.unit) (n := (1 : UInt32).toNat * dev.unit)
      (a := offset.toNat % dev.unit) (j := (headCopy dev offset len).toNat) (by omega)
      (fun x lo hi => partial_scratch ready x lo (by simpa using hi))
      (by rw [UInt32.toNat_one]; omega)
      (by rw [startBlock_toNat setUp (by omega)]; exact Nat.div_add_mod' _ _)
      (disk₂.trans disk₁) mem₂
    rwa [Nat.zero_add] at step

theorem yields_readBlocks (done : Done dev buf offset len k c) (middle : dev.unit ≤ c.len.toNat)
    (fetched : Fetched alloc dev buf offset len s₀ k s) : Yields (readBlocks driver alloc dev c) s fun _ s' =>
      Fetched alloc dev buf offset len s₀ (k + c.len.toNat / dev.unit * dev.unit) s' := by
  have setUp := ready.setUp
  have pos := unit_pos dev
  have bytes := middleBytes_toNat setUp c
  have count := middle_count inside setUp done middle
  have place := done.block_eq (by omega)
  have whole := Nat.div_mul_le_self c.len.toNat dev.unit
  have left := done.len_eq
  have le := done.le
  have some := middle_nonempty inside setUp done middle
  have blocks := middle_blocks inside setUp done middle
  unfold readBlocks
  rw [if_neg (UInt64.not_lt.mpr (middleBytes_le setUp c)), middleSize_eq setUp]
  by_cases aligned : tegrablBlockdevBufferAligned dev c.buf = true
  · rw [if_neg (not_not.mpr aligned)]
    refine (yields_readBlock faithful ready.opened some aligned blocks s).mono ?_
    rintro - s' ⟨mem, disk⟩
    rw [count, place, done.buf_eq] at mem
    refine fetched.extend granted (by omega) disk ?_ ?_
    · intro x lo hi
      rw [mem, blit_inside _ _ lo hi]
      congr 1
      omega
    · intro x out free
      rw [mem, blit_outside _ _ out]
  · have small : middleBytes dev c ≤ len := UInt64.le_iff_toNat_le.mpr (by omega)
    obtain ⟨present, multiple, -⟩ := granted.temp _ small
    rw [if_pos aligned, if_neg present]
    refine (yields_readBlock faithful ready.opened some
      (aligned_of_dvd ready.align_pos ready.align_le multiple) blocks s).bind ?_
    rintro - s₁ ⟨mem₁, disk₁⟩
    refine (yields_memcpy _ _ _ s₁).mono ?_
    rintro - s₂ ⟨mem₂, disk₂⟩
    rw [mem₁, count, place, done.buf_eq, bytes] at mem₂
    refine fetched.bounce granted (a := 0) (by omega) ?_ (by omega) (Nat.add_zero _)
      (disk₂.trans disk₁) mem₂
    intro x lo hi
    exact .inr ⟨_, small, lo, by omega⟩

theorem yields_readMiddle (done : Done dev buf offset len k c) (fetched : Fetched alloc dev buf offset len s₀ k s) :
    Yields (readMiddle driver alloc dev c) s fun c' s' => ∃ j, Done dev buf offset len (k + j) c' ∧
      Fetched alloc dev buf offset len s₀ (k + j) s' ∧ c'.len.toNat < dev.unit ∧ j % dev.unit = 0 := by
  have setUp := ready.setUp
  unfold readMiddle
  by_cases middle : dev.unit ≤ c.len.toNat
  · rw [if_pos ((hasMiddle_iff setUp c).mpr middle)]
    refine (yields_readBlocks faithful ready granted inside done middle fetched).bind ?_
    intro _ s' fetched'
    exact .pure ⟨_, done_middle inside setUp done middle, fetched',
      middle_rest inside setUp done middle, Nat.mul_mod_left _ _⟩
  · rw [if_neg (mt (hasMiddle_iff setUp c).mp middle)]
    exact .pure ⟨0, done, fetched, by omega, Nat.zero_mod _⟩

theorem yields_readTail {partialBuf : Nat} (done : Done dev buf offset len k c) (short : c.len.toNat < dev.unit)
    (given : 0 < c.len.toNat → partialBuf = alloc .partialBlock dev.blockSize)
    (fetched : Fetched alloc dev buf offset len s₀ k s) : Yields (readTail driver dev partialBuf c) s fun _ s' =>
      Fetched alloc dev buf offset len s₀ len.toNat s' := by
  have left := done.len_eq
  have le := done.le
  unfold readTail
  by_cases more : 0 < c.len.toNat
  · have place := done.block_eq more
    have block : (Request.blocks c.block 1).Inside dev :=
      done_inside inside done more (n := 1) (by omega)
    rw [if_pos ((len_pos_iff c).mpr more), given more, if_neg granted.partialBlock.present]
    refine (yields_readBlock faithful ready.opened (by decide) (partial_aligned ready granted)
      block s).bind ?_
    rintro - s₁ ⟨mem₁, disk₁⟩
    refine (yields_memcpy _ _ _ s₁).mono ?_
    rintro - s₂ ⟨mem₂, disk₂⟩
    rw [mem₁, place, done.buf_eq, UInt32.toNat_one, Nat.one_mul] at mem₂
    have step := fetched.bounce granted (a := 0) (j := c.len.toNat) (by omega)
      (fun x lo hi => partial_scratch ready x lo hi) (by omega) (Nat.add_zero _)
      (disk₂.trans disk₁) mem₂
    rwa [show k + c.len.toNat = len.toNat by omega] at step
  · rw [if_neg (mt (len_pos_iff c).mp more)]
    rw [show len.toNat = k by omega]
    exact .pure fetched

include nonempty in
theorem yields_defaultRead (present : buf ≠ 0) (s₀ : Machine π) :
    Yields (tegrablBlockdevDefaultRead driver alloc (some dev) buf offset len) s₀ fun _ s =>
      Fetched alloc dev buf offset len s₀ len.toNat s := by
  unfold tegrablBlockdevDefaultRead
  dsimp only
  rw [if_neg present]
  refine (yields_allocPartial ready granted s₀).bind ?_
  rintro partialBuf - ⟨rfl, given⟩
  refine (yields_readHead faithful ready granted inside nonempty
    fun part => given (.inl part)).bind ?_
  rintro c s₁ ⟨k, done, fetched, start⟩
  refine (yields_readMiddle faithful ready granted inside done fetched).bind ?_
  rintro c' s₂ ⟨j, done', fetched', short, whole⟩
  refine yields_readTail faithful ready granted inside done' short ?_ fetched'
  intro more
  exact given (partial_of_tail done' start whole short more)

end

structure Stored (alloc : Alloc) (dev : Bdev) (buf : Nat) (offset len : UInt64) (s₀ : Machine π)
    (k : Nat) (s : Machine π) : Prop where
  disk : s.disk = blit s₀.disk offset.toNat s₀.mem buf k
  others : ∀ x, ¬ Scratch alloc dev len x → s.mem x = s₀.mem x

theorem stored_start : Stored alloc dev buf offset len s₀ 0 s₀ := by
  refine ⟨?_, fun _ _ => rfl⟩
  funext x
  exact (blit_outside _ _ (by omega)).symm

theorem Stored.extend (stored : Stored alloc dev buf offset len s₀ k s)
    (granted : Granted alloc dev buf len) {j : Nat} (le : k + j ≤ len.toNat)
    (disk : s'.disk = blit s.disk (offset.toNat + k) s.mem (buf + k) j)
    (others : ∀ x, ¬ Scratch alloc dev len x → s'.mem x = s.mem x) : Stored alloc dev buf offset len s₀ (k + j) s' := by
  refine ⟨?_, fun x free => (others x free).trans (stored.others x free)⟩
  -- The caller's bytes are still those of the start.
  have same : blit s.disk (offset.toNat + k) s.mem (buf + k) j = blit s.disk (offset.toNat + k) s₀.mem (buf + k) j := by
    refine blit_congr _ _ fun i lt => ?_
    exact stored.others _ (not_scratch granted (by omega) (by omega))
  rw [disk, same, stored.disk, blit_append]

theorem Stored.patch (stored : Stored alloc dev buf offset len s₀ k s)
    (granted : Granted alloc dev buf len) {p d n a j : Nat} (le : k + j ≤ len.toNat)
    (scratch : ∀ x, p ≤ x → x < p + n → Scratch alloc dev len x) (part : a + j ≤ n)
    (clear : p + n ≤ buf + k ∨ buf + k + j ≤ p) (place : d + a = offset.toNat + k)
    (mem : s'.mem = blit (blit s.mem p s.disk d n) (p + a) (blit s.mem p s.disk d n) (buf + k) j)
    (disk : s'.disk = blit s.disk d s'.mem p n) : Stored alloc dev buf offset len s₀ (k + j) s' := by
  refine stored.extend granted le ?_ ?_
  · rw [disk, mem, blit_patch _ _ part clear, place]
  · intro x free
    have outside : x < p ∨ p + n ≤ x := by
      by_contra within
      exact free (scratch x (by omega) (by omega))
    rw [mem, blit_outside _ _ (by omega), blit_outside _ _ outside]

theorem partial_clear (ready : Ready dev) (granted : Granted alloc dev buf len) :
    alloc .partialBlock dev.blockSize + dev.unit ≤ buf ∨ buf + len.toNat ≤ alloc .partialBlock dev.blockSize := by
  have clear := granted.partialBlock.clear
  rwa [blockSize_toNat ready.setUp] at clear

section
variable (faithful : Faithful driver dev) (ready : Ready dev) (granted : Granted alloc dev buf len)
variable (inside : offset.toNat + len.toNat ≤ dev.capacity) (nonempty : 0 < len.toNat)
include faithful ready granted inside

include nonempty in
theorem yields_writeHead {partialBuf : Nat}
    (given : offset.toNat % dev.unit ≠ 0 → partialBuf = alloc .partialBlock dev.blockSize) :
    Yields (writeHead driver dev partialBuf offset ⟨buf, len, startBlock dev offset⟩) s₀ fun c s =>
      ∃ k, Done dev buf offset len k c ∧ Stored alloc dev buf offset len s₀ k s ∧
        (offset.toNat % dev.unit = 0 → k = 0) := by
  have setUp := ready.setUp
  have rest := modLog2_toNat setUp offset
  unfold writeHead
  by_cases whole : offset.toNat % dev.unit = 0
  · rw [if_neg (mt (modLog2_ne_zero setUp offset).mp (not_not.mpr whole))]
    exact .pure ⟨0, done_start inside setUp nonempty whole, stored_start, fun _ => rfl⟩
  · have copy := headCopy_toNat setUp offset len
    have short : offset.toNat % dev.unit < dev.unit := Nat.mod_lt _ (unit_pos dev)
    have clear := partial_clear ready granted
    have block := head_inside inside setUp nonempty
    have aligned := partial_aligned ready granted
    rw [if_pos ((modLog2_ne_zero setUp offset).mpr whole), given whole]
    refine (yields_readBlock faithful ready.opened (by decide) aligned block s₀).bind ?_
    rintro - s₁ ⟨mem₁, disk₁⟩
    refine (yields_memcpy _ _ _ s₁).bind ?_
    rintro - s₂ ⟨mem₂, disk₂⟩
    refine (yields_writeBlock faithful ready.opened (by decide) granted.partialBlock.present aligned
      block s₂).bind ?_
    rintro - s₃ ⟨mem₃, disk₃⟩
    refine .pure ⟨_, done_head inside setUp nonempty, ?_, fun h => absurd h whole⟩
    have stored : Stored alloc dev buf offset len s₀ 0 s₀ := stored_start
    rw [mem₁, rest, UInt32.toNat_one, Nat.one_mul, ← mem₃] at mem₂
    rw [UInt32.toNat_one, Nat.one_mul, disk₂, disk₁, ← mem₃] at disk₃
    have step := stored.patch granted (j := (headCopy dev offset len).toNat) (by omega)
      (fun x lo hi => partial_scratch ready x lo hi) (by omega) (by omega)
      (by rw [startBlock_toNat setUp (by omega)]; exact Nat.div_add_mod' _ _) mem₂ disk₃
    rwa [Nat.zero_add] at step

theorem yields_writeBlocks (present : buf ≠ 0) (done : Done dev buf offset len k c)
    (middle : dev.unit ≤ c.len.toNat) (stored : Stored alloc dev buf offset len s₀ k s) :
    Yields (writeBlocks driver alloc dev c) s fun _ s' =>
      Stored alloc dev buf offset len s₀ (k + c.len.toNat / dev.unit * dev.unit) s' := by
  have setUp := ready.setUp
  have pos := unit_pos dev
  have bytes := middleBytes_toNat setUp c
  have count := middle_count inside setUp done middle
  have place := done.block_eq (by omega)
  have whole := Nat.div_mul_le_self c.len.toNat dev.unit
  have left := done.len_eq
  have le := done.le
  have some := middle_nonempty inside setUp done middle
  have blocks := middle_blocks inside setUp done middle
  have start := done.buf_eq
  unfold writeBlocks
  rw [if_neg (UInt64.not_lt.mpr (middleBytes_le setUp c)), middleSize_eq setUp]
  by_cases aligned : tegrablBlockdevBufferAligned dev c.buf = true
  · rw [if_neg (not_not.mpr aligned)]
    refine (yields_writeBlock faithful ready.opened some (by omega) aligned blocks s).mono ?_
    rintro - s' ⟨mem, disk⟩
    rw [count, place, start] at disk
    exact stored.extend granted (by omega) disk fun x _ => by rw [mem]
  · have small : middleBytes dev c ≤ len := UInt64.le_iff_toNat_le.mpr (by omega)
    obtain ⟨exists_, multiple, clear⟩ := granted.temp _ small
    simp only [Span.Clear, Span.stop_mk] at clear
    rw [if_pos aligned, if_neg exists_]
    refine (yields_memcpy _ _ _ s).bind ?_
    rintro - s₁ ⟨mem₁, disk₁⟩
    refine (yields_writeBlock faithful ready.opened some exists_
      (aligned_of_dvd ready.align_pos ready.align_le multiple) blocks s₁).mono ?_
    rintro - s₂ ⟨mem₂, disk₂⟩
    rw [count, place, disk₁] at disk₂
    rw [start, bytes] at mem₁
    refine stored.extend granted (by omega) ?_ ?_
    · rw [disk₂]
      refine blit_congr _ _ fun i lt => ?_
      rw [mem₁, blit_inside _ _ (by omega) (by omega), Nat.add_sub_cancel_left]
    · intro x free
      rw [mem₂, mem₁, blit_outside _ _ ?_]
      by_contra within
      exact free (.inr ⟨_, small, by omega, by omega⟩)

theorem yields_writeMiddle (present : buf ≠ 0) (done : Done dev buf offset len k c)
    (stored : Stored alloc dev buf offset len s₀ k s) : Yields (writeMiddle driver alloc dev c) s fun c' s' => ∃ j,
      Done dev buf offset len (k + j) c' ∧ Stored alloc dev buf offset len s₀ (k + j) s' ∧
        c'.len.toNat < dev.unit ∧ j % dev.unit = 0 := by
  have setUp := ready.setUp
  unfold writeMiddle
  by_cases middle : dev.unit ≤ c.len.toNat
  · rw [if_pos ((hasMiddle_iff setUp c).mpr middle)]
    refine (yields_writeBlocks faithful ready granted inside present done middle stored).bind ?_
    intro _ s' stored'
    exact .pure ⟨_, done_middle inside setUp done middle, stored',
      middle_rest inside setUp done middle, Nat.mul_mod_left _ _⟩
  · rw [if_neg (mt (hasMiddle_iff setUp c).mp middle)]
    exact .pure ⟨0, done, stored, by omega, Nat.zero_mod _⟩

theorem yields_writeTail {partialBuf : Nat} (done : Done dev buf offset len k c) (short : c.len.toNat < dev.unit)
    (given : 0 < c.len.toNat → partialBuf = alloc .partialBlock dev.blockSize)
    (stored : Stored alloc dev buf offset len s₀ k s) : Yields (writeTail driver dev partialBuf c) s fun _ s' =>
      Stored alloc dev buf offset len s₀ len.toNat s' := by
  have left := done.len_eq
  have le := done.le
  unfold writeTail
  by_cases more : 0 < c.len.toNat
  · have place := done.block_eq more
    have clear := partial_clear ready granted
    have aligned := partial_aligned ready granted
    have block : (Request.blocks c.block 1).Inside dev :=
      done_inside inside done more (n := 1) (by omega)
    rw [if_pos ((len_pos_iff c).mpr more), given more, if_neg granted.partialBlock.present]
    refine (yields_readBlock faithful ready.opened (by decide) aligned block s).bind ?_
    rintro - s₁ ⟨mem₁, disk₁⟩
    refine (yields_memcpy _ _ _ s₁).bind ?_
    rintro - s₂ ⟨mem₂, disk₂⟩
    refine (yields_writeBlock faithful ready.opened (by decide) granted.partialBlock.present aligned
      block s₂).mono ?_
    rintro - s₃ ⟨mem₃, disk₃⟩
    rw [mem₁, place, done.buf_eq, UInt32.toNat_one, Nat.one_mul, ← mem₃] at mem₂
    rw [place, UInt32.toNat_one, Nat.one_mul, disk₂, disk₁, ← mem₃] at disk₃
    have step := stored.patch granted (a := 0) (j := c.len.toNat) (by omega)
      (fun x lo hi => partial_scratch ready x lo hi) (by omega) (by omega) (Nat.add_zero _)
      mem₂ disk₃
    rwa [show k + c.len.toNat = len.toNat by omega] at step
  · rw [if_neg (mt (len_pos_iff c).mp more)]
    rw [show len.toNat = k by omega]
    exact .pure stored

include nonempty in
theorem yields_defaultWrite (present : buf ≠ 0) (s₀ : Machine π) :
    Yields (tegrablBlockdevDefaultWrite driver alloc (some dev) buf offset len) s₀ fun _ s =>
      Stored alloc dev buf offset len s₀ len.toNat s := by
  unfold tegrablBlockdevDefaultWrite
  dsimp only
  rw [if_neg present]
  refine (yields_allocPartial ready granted s₀).bind ?_
  rintro partialBuf - ⟨rfl, given⟩
  refine (yields_writeHead faithful ready granted inside nonempty
    fun part => given (.inl part)).bind ?_
  rintro c s₁ ⟨k, done, stored, start⟩
  refine (yields_writeMiddle faithful ready granted inside present done stored).bind ?_
  rintro c' s₂ ⟨j, done', stored', short, whole⟩
  refine yields_writeTail faithful ready granted inside done' short ?_ stored'
  intro more
  exact given (partial_of_tail done' start whole short more)

end

end

end Cboot.Blockdev
