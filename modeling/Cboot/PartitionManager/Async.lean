import Cboot.PartitionManager.Confinement

/-!
`tegrabl_partition_async_read` and `tegrabl_partition_async_write` against a seek and a read or a write of the same
sectors.
-/

namespace Cboot.PartitionManager
open Blockdev

section
variable {σ : Type}

def watchedHooks (hooks : Hooks σ) : Hooks (List XferInfo × σ) where
  read dev buf offset len := passed (hooks.read dev buf offset len)
  write dev buf offset len := passed (hooks.write dev buf offset len)
  readBlock dev buf block count := passed (hooks.readBlock dev buf block count)
  writeBlock dev buf block count := passed (hooks.writeBlock dev buf block count)
  erase dev block count isSecure := passed (hooks.erase dev block count isSecure)
  xfer xfer := fun s => (((hooks.xfer xfer).run s.2).1, s.1 ++ [xfer], ((hooks.xfer xfer).run s.2).2)
where
  passed {α : Type} (c : Call σ α) : Call (List XferInfo × σ) α :=
    fun s => ((c.run s.2).1, s.1, (c.run s.2).2)

def touchedBySync (hooks : Hooks σ) (transfer : UInt64 → Op) (p : Partition) (dev : Bdev)
    (startSector numSectors : UInt64) (s : σ) : List Request :=
  let sought := tegrablPartitionSeek (some p)
    (startSector <<< dev.blockSizeLog2.toUInt64).toInt64 0 (([], s) : List Request × σ)
  match sought.result with
  | .error _ => []
  | .ok _ =>
    let op := transfer (numSectors <<< dev.blockSizeLog2.toUInt64)
    (op.call (Io.blockdev hooks.recorded) sought.partition sought.rest).rest.1

def SameRange (dev : Bdev) (xfer : XferInfo) (touched : List Request) : Prop :=
  ∃ offset len, touched = [.bytes offset len] ∧ offset.toNat = xfer.startBlock.toNat * 2 ^ dev.blockSizeLog2.toNat ∧
    len.toNat = xfer.blockCount.toNat * 2 ^ dev.blockSizeLog2.toNat

/-- The call fails and submits nothing, or submits one transfer in the direction of the call, of what
the synchronous calls touch. -/
def AsyncAgrees (info : PartitionInfo) (dev : Bdev) (direction : UInt8) (touched : List Request)
    (out : Except Error Unit × List XferInfo × σ) : Prop :=
  (out.2.1 = [] ∧ ∃ e, out.1 = .error e) ∨
    ∃ xfer, out.2.1 = [xfer] ∧ xfer.xferType = direction ∧ SameRange dev xfer touched ∧
      Within info dev (.blocks xfer.startBlock xfer.blockCount)

/-- The call passes its own checks and those of `tegrabl_blockdev_xfer`. -/
structure Submits (info : PartitionInfo) (dev : Bdev) (buf : Nat) (startSector numSectors : UInt64)
    (memory : Option XferInfo) : Prop where
  given : ¬ (buf = 0 ∨ numSectors = 0)
  short : ¬ info.numSectors < startSector + numSectors
  allocated : memory.isSome
  passes : (Request.blocks (info.startSector + startSector).toUInt32 numSectors.toUInt32).Passes dev
  opened : dev.ref ≠ 0

def shiftedSectors (dev : Bdev) (n : UInt64) : Nat := n.toNat % 2 ^ (64 - dev.blockSizeLog2.toNat)

def StaysInside (info : PartitionInfo) (dev : Bdev) (startSector numSectors : UInt64) : Prop :=
  shiftedSectors dev numSectors ≠ 0 ∧
    shiftedSectors dev startSector + shiftedSectors dev numSectors ≤ info.numSectors.toNat

variable {hooks : Hooks σ} {info : PartitionInfo} {dev : Bdev} {buf : Nat}
  {startSector numSectors : UInt64} {memory : Option XferInfo}

theorem asyncXfer_submits (hooks : Hooks σ) (xferId : UInt32) (xferType : UInt8) (detail : Nat)
    (offset : UInt64) (s : σ) (submits : Submits info dev buf startSector numSectors memory) :
    ∃ xfer, (asyncXfer (watchedHooks hooks) xferId xferType detail (some (opened info dev offset))
        buf startSector numSectors memory ([], s)).2.1 = [xfer] ∧ xfer.xferType = xferType ∧
      xfer.startBlock = (info.startSector + startSector).toUInt32 ∧ xfer.blockCount = numSectors.toUInt32 := by
  obtain ⟨given, short, allocated, passes, opened⟩ := submits
  obtain ⟨memory, rfl⟩ := Option.isSome_iff_exists.mp allocated
  unfold asyncXfer PartitionManager.opened tegrablBlockdevXfer
  dsimp only
  rw [if_neg given, if_neg short]
  dsimp only
  rw [if_neg passes, if_neg opened, Call.run_bind_pure]
  exact ⟨_, rfl, rfl, rfl, rfl⟩

theorem asyncXfer_refused (hooks : Hooks σ) (xferId : UInt32) (xferType : UInt8) (detail : Nat)
    (offset : UInt64) (s : σ) (refused : ¬ Submits info dev buf startSector numSectors memory) :
    ∃ e, asyncXfer (watchedHooks hooks) xferId xferType detail (some (opened info dev offset))
        buf startSector numSectors memory ([], s) = (.error e, [], s) := by
  unfold asyncXfer PartitionManager.opened
  dsimp only
  by_cases given : buf = 0 ∨ numSectors = 0
  · exact ⟨_, if_pos given⟩
  rw [if_neg given]
  by_cases short : info.numSectors < startSector + numSectors
  · exact ⟨_, if_pos short⟩
  rw [if_neg short]
  cases memory with
  | none => exact ⟨_, rfl⟩
  | some memory =>
    unfold tegrablBlockdevXfer
    dsimp only
    split
    · exact ⟨_, rfl⟩
    · rename_i passes
      split
      · exact ⟨_, rfl⟩
      · rename_i opened
        exact absurd ⟨given, short, rfl, passes, opened⟩ refused

theorem toNat_shift (small : dev.blockSizeLog2.toNat < 64) (n : UInt64) : (n <<< dev.blockSizeLog2.toUInt64).toNat =
      shiftedSectors dev n * 2 ^ dev.blockSizeLog2.toNat := by
  have split : 2 ^ 64 = 2 ^ (64 - dev.blockSizeLog2.toNat) * 2 ^ dev.blockSizeLog2.toNat := by
    rw [← Nat.pow_add]
    congr 1
    omega
  rw [UInt64.toNat_shiftLeft, UInt32.toNat_toUInt64, Nat.mod_eq_of_lt small, Nat.shiftLeft_eq, split,
    Nat.mul_mod_mul_right]
  rfl

theorem seek_set (info : PartitionInfo) (dev : Bdev) (offset place : UInt64) (s : σ)
    (size : info.totalSize.toNat < 2 ^ 63) (near : place ≤ info.totalSize) :
    tegrablPartitionSeek (some (opened info dev offset)) place.toInt64 0 s =
      ⟨.ok (), some (opened info dev place), s⟩ := by
  have here : ¬ place.toInt64 < 0 := by
    have bound := UInt64.le_iff_toNat_le.mp near
    have signed := toInt_toInt64 place
    rw [Int64.lt_iff_toInt_lt]
    change ¬ _ < (0 : Int)
    omega
  unfold tegrablPartitionSeek opened seekBase
  dsimp only
  rw [if_pos rfl]
  dsimp only
  rw [Int64.zero_add, if_neg here, UInt64.toUInt64_toInt64, if_neg (UInt64.not_lt.mpr near)]

theorem seek_set_far (info : PartitionInfo) (dev : Bdev) (offset place : UInt64) (s : σ)
    (far : ¬ place ≤ info.totalSize) : ∃ e, tegrablPartitionSeek (some (opened info dev offset)) place.toInt64 0 s =
      ⟨.error e, some (opened info dev offset), s⟩ := by
  rcases seek_cases info dev offset s place.toInt64 0 with refused | ⟨base, known, -, near, -⟩
  · exact refused
  · cases known
    rw [Int64.zero_add, UInt64.toUInt64_toInt64] at near
    exact absurd near far

theorem touchedBySync_near (hooks : Hooks σ) (transfer : UInt64 → Op) (offset : UInt64)
    (startSector numSectors : UInt64) (s : σ) (size : info.totalSize.toNat < 2 ^ 63)
    (near : startSector <<< dev.blockSizeLog2.toUInt64 ≤ info.totalSize) :
    touchedBySync hooks transfer (opened info dev offset) dev startSector numSectors s =
      ((transfer (numSectors <<< dev.blockSizeLog2.toUInt64)).call (Io.blockdev hooks.recorded)
        (some (opened info dev (startSector <<< dev.blockSizeLog2.toUInt64))) ([], s)).rest.1 := by
  have sought := seek_set info dev offset _ (([], s) : List Request × σ) size near
  unfold touchedBySync
  dsimp only
  rw [sought]

theorem touchedBySync_far (hooks : Hooks σ) (transfer : UInt64 → Op) (offset : UInt64)
    (startSector numSectors : UInt64) (s : σ) (far : ¬ startSector <<< dev.blockSizeLog2.toUInt64 ≤ info.totalSize) :
    touchedBySync hooks transfer (opened info dev offset) dev startSector numSectors s = [] := by
  obtain ⟨e, refused⟩ := seek_set_far info dev offset _ (([], s) : List Request × σ) far
  unfold touchedBySync
  dsimp only
  rw [refused]

theorem read_recorded (hooks : Hooks σ) (place numBytes : UInt64) (s : σ)
    (reaches : (Op.read buf numBytes).Reaches info place) :
    ((Op.read buf numBytes).call (Io.blockdev hooks.recorded) (some (opened info dev place)) ([], s)).rest.1 =
      (((Entry.read buf (place + startByte info dev) numBytes).run hooks.recorded dev).run ([], s)).2.1 := by
  unfold Op.call
  dsimp only
  rw [read_reaches_rest reaches]
  rfl

theorem touchedBySync_read (hooks : Hooks σ) (buf : Nat) (offset : UInt64)
    (startSector numSectors : UInt64) (s : σ) (size : info.totalSize.toNat < 2 ^ 63) :
    let place := startSector <<< dev.blockSizeLog2.toUInt64
    let numBytes := numSectors <<< dev.blockSizeLog2.toUInt64
    let touched := touchedBySync hooks (.read buf) (opened info dev offset) dev startSector
      numSectors s
    touched = [] ∨ (place ≤ info.totalSize ∧ numBytes ≠ 0 ∧
      touched = [.bytes (place + startByte info dev) numBytes]) := by
  intro place numBytes touched
  by_cases near : place ≤ info.totalSize
  · have shape : touched = _ := touchedBySync_near hooks _ offset startSector numSectors s size near
    rw [shape]
    by_cases reaches : (Op.read buf numBytes).Reaches info place
    · rw [read_recorded hooks place numBytes s reaches]
      let entry := Entry.read buf (place + startByte info dev) numBytes
      by_cases through : entry.Admitted dev ∧ entry.request.Passes dev
      · exact .inr ⟨near, reaches.2.1, entry.run_admitted hooks dev [] s through.1 through.2⟩
      · obtain ⟨e, refused⟩ := entry.run_refused hooks.recorded dev ([], s) through
        exact .inl (congrArg (fun out => out.2.1) refused)
    · obtain ⟨e, refused⟩ := transfer_refused (Io.blockdev hooks.recorded) dev
        (([], s) : List Request × σ) (fun _ _ same => Op.noConfusion same) reaches
      rw [refused]
      exact .inl rfl
  · exact .inl (touchedBySync_far hooks _ offset startSector numSectors s near)

theorem totalSize_lt (setUp : SetUp dev) (fits : OnDevice info dev) : info.totalSize.toNat < 2 ^ 63 := by
  have small := setUp.log2_lt
  have count := dev.blockCount.toNat_lt
  have power : 2 ^ dev.blockSizeLog2.toNat ≤ 2 ^ 31 := Nat.pow_le_pow_right (by decide) (by omega)
  have sectors : info.numSectors.toNat < 2 ^ 32 := by have := fits.inside; omega
  rw [fits.totalSize_toNat]
  calc info.numSectors.toNat * 2 ^ dev.blockSizeLog2.toNat
      ≤ (2 ^ 32 - 1) * 2 ^ 31 := Nat.mul_le_mul (by omega) power
    _ < 2 ^ 63 := by decide

theorem touchedBySync_inside (hooks : Hooks σ) (offset : UInt64) (s : σ) (setUp : SetUp dev)
    (fits : OnDevice info dev) (present : buf ≠ 0) (opened : dev.ref ≠ 0)
    (inside : StaysInside info dev startSector numSectors) :
    touchedBySync hooks (.read buf) (PartitionManager.opened info dev offset) dev startSector numSectors s =
      [.bytes (startSector <<< dev.blockSizeLog2.toUInt64 + startByte info dev)
        (numSectors <<< dev.blockSizeLog2.toUInt64)] := by
  obtain ⟨nonzero, short⟩ := inside
  have place := toNat_shift fits.log2_lt startSector
  have bytes := toNat_shift fits.log2_lt numSectors
  have block : 0 < 2 ^ dev.blockSizeLog2.toNat := Nat.two_pow_pos _
  have some := Nat.mul_pos (Nat.pos_of_ne_zero nonzero) block
  have within := Nat.mul_le_mul_right (2 ^ dev.blockSizeLog2.toNat) short
  rw [Nat.add_mul, ← place, ← bytes, ← fits.totalSize_toNat] at within
  have size := totalSize_lt setUp fits
  have nonempty : numSectors <<< dev.blockSizeLog2.toUInt64 ≠ 0 := by
    intro zero
    rw [zero] at bytes
    exact absurd bytes (by simpa using (Nat.ne_of_gt some).symm)
  have near : startSector <<< dev.blockSizeLog2.toUInt64 ≤ info.totalSize :=
    UInt64.le_iff_toNat_le.mpr (by omega)
  have reaches : (Op.read buf (numSectors <<< dev.blockSizeLog2.toUInt64)).Reaches info
      (startSector <<< dev.blockSizeLog2.toUInt64) := by
    refine ⟨present, nonempty, UInt64.not_lt.mpr (UInt64.le_iff_toNat_le.mpr ?_)⟩
    rw [UInt64.toNat_add]
    omega
  have passes : (Request.bytes (startSector <<< dev.blockSizeLog2.toUInt64 + startByte info dev)
      (numSectors <<< dev.blockSizeLog2.toUInt64)).Passes dev := by
    have last := fits.end_lt
    have device : (startByte info dev).toNat + info.totalSize.toNat ≤ dev.size.toNat := by
      rw [fits.startByte_toNat, fits.totalSize_toNat, ← Nat.add_mul, size_setUp setUp]
      exact Nat.mul_le_mul_right _ fits.inside
    refine not_or.mpr ⟨?_, ?_⟩
    · rw [ge_iff_le, UInt64.le_iff_toNat_le, UInt64.toNat_add]
      omega
    · rw [gt_iff_lt, UInt64.lt_iff_toNat_lt, UInt64.toNat_add, UInt64.toNat_add]
      omega
  rw [touchedBySync_near hooks _ offset startSector numSectors s size near, read_recorded hooks _ _ s reaches]
  exact (Entry.read buf _ _).run_admitted hooks dev [] s ⟨nonempty, opened⟩ passes

theorem shifted_add (dev : Bdev) (startSector numSectors : UInt64) :
    (shiftedSectors dev startSector + shiftedSectors dev numSectors) % 2 ^ (64 - dev.blockSizeLog2.toNat) =
      (startSector + numSectors).toNat % 2 ^ (64 - dev.blockSizeLog2.toNat) := by
  unfold shiftedSectors
  rw [UInt64.toNat_add, Nat.mod_mod_of_dvd _ (Nat.pow_dvd_pow 2 (Nat.sub_le _ _)), ← Nat.add_mod]

theorem toUInt32_shifted (small : dev.blockSizeLog2.toNat < 32) (n : UInt64) :
    n.toUInt32.toNat = shiftedSectors dev n % 2 ^ 32 := by
  unfold shiftedSectors
  rw [UInt64.toNat_toUInt32, Nat.mod_mod_of_dvd _ (Nat.pow_dvd_pow 2 (by omega))]

theorem sameRange_iff (hooks : Hooks σ) (offset : UInt64) (s : σ) (setUp : SetUp dev)
    (fits : OnDevice info dev) (submits : Submits info dev buf startSector numSectors memory)
    {xfer : XferInfo} (start : xfer.startBlock = (info.startSector + startSector).toUInt32)
    (count : xfer.blockCount = numSectors.toUInt32) :
    (SameRange dev xfer (touchedBySync hooks (.read buf) (opened info dev offset) dev startSector
      numSectors s) ∧ Within info dev (.blocks xfer.startBlock xfer.blockCount)) ↔
      StaysInside info dev startSector numSectors := by
  have place := toNat_shift fits.log2_lt startSector
  have bytes := toNat_shift fits.log2_lt numSectors
  have block : 0 < 2 ^ dev.blockSizeLog2.toNat := Nat.two_pow_pos _
  have sectors : info.startSector.toNat + info.numSectors.toNat < 2 ^ 32 :=
    Nat.lt_of_le_of_lt fits.inside dev.blockCount.toNat_lt
  constructor
  · rintro ⟨⟨o, n, touched, -, length⟩, -⟩
    rcases touchedBySync_read hooks buf offset startSector numSectors s (totalSize_lt setUp fits) with
      silent | ⟨near, nonempty, asked⟩
    · rw [silent] at touched
      cases touched
    rw [asked] at touched
    cases touched
    -- Both numbers are below `2 ^ 32`, so the shift has cut nothing off their sum.
    have counted : shiftedSectors dev numSectors = xfer.blockCount.toNat :=
      Nat.eq_of_mul_eq_mul_right block (bytes.symm.trans length)
    have started : shiftedSectors dev startSector ≤ info.numSectors.toNat := by
      refine Nat.le_of_mul_le_mul_right ?_ block
      rw [← place, ← fits.totalSize_toNat]
      exact UInt64.le_iff_toNat_le.mp near
    have sum := shifted_add dev startSector numSectors
    have short : (startSector + numSectors).toNat ≤ info.numSectors.toNat :=
      UInt64.le_iff_toNat_le.mp (UInt64.not_lt.mp submits.short)
    have wide : 2 ^ 33 ≤ 2 ^ (64 - dev.blockSizeLog2.toNat) :=
      Nat.pow_le_pow_right (by decide) (by have := setUp.log2_lt; omega)
    have := xfer.blockCount.toNat_lt
    rw [Nat.mod_eq_of_lt (by omega), Nat.mod_eq_of_lt (by omega)] at sum
    refine ⟨?_, by omega⟩
    intro zero
    rw [zero, Nat.zero_mul] at bytes
    exact nonempty (UInt64.toNat_inj.mp bytes)
  · intro inside
    obtain ⟨nonzero, short⟩ := inside
    have first : xfer.startBlock.toNat = info.startSector.toNat + shiftedSectors dev startSector := by
      have low := toUInt32_shifted setUp.log2_lt startSector
      rw [UInt64.toNat_toUInt32] at low
      rw [start, UInt64.toNat_toUInt32, UInt64.toNat_add]
      omega
    have counted : xfer.blockCount.toNat = shiftedSectors dev numSectors := by
      rw [count, toUInt32_shifted setUp.log2_lt, Nat.mod_eq_of_lt (by omega)]
    refine ⟨⟨_, _, touchedBySync_inside hooks offset s setUp fits ?_ submits.opened
      ⟨nonzero, short⟩, ?_, ?_⟩, ?_, ?_⟩
    · exact (not_or.mp submits.given).1
    · have last := fits.end_lt
      have within := Nat.mul_le_mul_right (2 ^ dev.blockSizeLog2.toNat) short
      rw [Nat.add_mul, ← place, ← bytes, ← fits.totalSize_toNat] at within
      rw [UInt64.toNat_add, Nat.mod_eq_of_lt (by omega), place, fits.startByte_toNat, first,
        ← Nat.add_mul, Nat.add_comm]
    · rw [bytes, counted]
    · rw [first]
      omega
    · rw [first, counted]
      omega

/-- The asynchronous read agrees with the synchronous one exactly when it submits nothing or the
sectors stay inside the partition. The asynchronous write agrees only when it submits nothing. -/
theorem async_agreement (hooks : Hooks σ) (xferId : UInt32) (info : PartitionInfo) (dev : Bdev)
    (offset : UInt64) (buf : Nat) (startSector numSectors : UInt64) (memory : Option XferInfo)
    (s : σ) (setUp : SetUp dev) (fits : OnDevice info dev) : (AsyncAgrees info dev blockdevRead
        (touchedBySync hooks (.read buf) (opened info dev offset) dev startSector numSectors s)
        (tegrablPartitionAsyncRead (watchedHooks hooks) xferId (some (opened info dev offset)) buf
          startSector numSectors memory ([], s)) ↔ (Submits info dev buf startSector numSectors memory →
        StaysInside info dev startSector numSectors)) ∧ (AsyncAgrees info dev blockdevWrite
        (touchedBySync hooks (.write buf) (opened info dev offset) dev startSector numSectors s)
        (tegrablPartitionAsyncWrite (watchedHooks hooks) xferId (some (opened info dev offset)) buf
          startSector numSectors memory ([], s)) ↔ ¬ Submits info dev buf startSector numSectors memory) := by
  unfold tegrablPartitionAsyncRead tegrablPartitionAsyncWrite AsyncAgrees
  by_cases submits : Submits info dev buf startSector numSectors memory
  · obtain ⟨xfer, sent, direction, start, count⟩ :=
      asyncXfer_submits hooks xferId blockdevRead 7 offset s submits
    obtain ⟨other, sentWrite, directionWrite, -⟩ :=
      asyncXfer_submits hooks xferId blockdevRead 11 offset s submits
    have same := sameRange_iff hooks offset s setUp fits submits start count
    rw [sent, sentWrite]
    refine ⟨⟨?_, ?_⟩, ?_, fun refused => absurd submits refused⟩
    · rintro (⟨silent, -⟩ | ⟨x, one, -, range⟩) -
      · cases silent
      · cases one
        exact same.mp range
    · intro stays
      exact .inr ⟨xfer, rfl, direction, same.mpr (stays submits)⟩
    · rintro (⟨silent, -⟩ | ⟨x, one, wrong, -⟩)
      · cases silent
      · cases one
        rw [directionWrite] at wrong
        exact absurd wrong (by decide)
  · obtain ⟨e, refused⟩ := asyncXfer_refused hooks xferId blockdevRead 7 offset s submits
    obtain ⟨e', refusedWrite⟩ := asyncXfer_refused hooks xferId blockdevRead 11 offset s submits
    rw [refused, refusedWrite]
    exact ⟨⟨fun _ passed => absurd passed submits, fun _ => .inl ⟨rfl, e, rfl⟩⟩,
      fun _ => submits, fun _ => .inl ⟨rfl, e', rfl⟩⟩

end

/-- Memory from `tegrabl_malloc`. -/
def freshXfer : XferInfo := ⟨none, 0, 0, 0, 0, false, false, 0, 0⟩

theorem smallPartition_submits : Submits smallPartition smallDisk 0x1000 1 2 (some freshXfer) :=
  ⟨by decide, by decide, rfl, by unfold Request.Passes; decide, by decide⟩

theorem async_agreement_sectors : SetUp smallDisk ∧ OnDevice smallPartition smallDisk ∧
      Submits smallPartition smallDisk 0x1000 1 2 (some freshXfer) ∧ AsyncAgrees smallPartition smallDisk blockdevRead
        (touchedBySync idleHooks (.read 0x1000) (opened smallPartition smallDisk 0) smallDisk 1 2 ())
        (tegrablPartitionAsyncRead (watchedHooks idleHooks) 0
          (some (opened smallPartition smallDisk 0)) 0x1000 1 2 (some freshXfer) ([], ())) :=
  ⟨smallDisk_setUp, smallPartition_onDevice, smallPartition_submits,
    (async_agreement idleHooks 0 smallPartition smallDisk 0 0x1000 1 2 (some freshXfer) ()
      smallDisk_setUp smallPartition_onDevice).1.mpr fun _ => ⟨by decide, by decide⟩⟩

/-- Two sectors of the partition are to be written, and a read of them is submitted. -/
theorem async_agreement_direction :
    ¬ ∀ (σ : Type) (hooks : Hooks σ) (xferId : UInt32) (info : PartitionInfo) (dev : Bdev)
      (offset : UInt64) (buf : Nat) (startSector numSectors : UInt64) (memory : Option XferInfo)
      (s : σ), SetUp dev → OnDevice info dev → AsyncAgrees info dev blockdevWrite
        (touchedBySync hooks (.write buf) (opened info dev offset) dev startSector numSectors s)
        (tegrablPartitionAsyncWrite (watchedHooks hooks) xferId (some (opened info dev offset)) buf
          startSector numSectors memory ([], s)) := by
  intro claim
  have agrees := claim Unit idleHooks 0 smallPartition smallDisk 0 0x1000 1 2 (some freshXfer) ()
    smallDisk_setUp smallPartition_onDevice
  rcases agrees with ⟨silent, -⟩ | ⟨xfer, one, direction, -⟩
  · exact absurd silent (by decide)
  · have read : xfer.xferType = blockdevRead := by
      cases one
      rfl
    rw [read] at direction
    exact absurd direction (by decide)

end Cboot.PartitionManager
