import Cboot.Blockdev.Session
import Cboot.PartitionManager.Confinement
import Cboot.PartitionManager.Cursor

/-!
The handles of any number of partitions of one device, on top of the byte access. Partitions that share no sector are
files that know nothing of each other.
-/

namespace Cboot.PartitionManager
open Blockdev Lib

def Op.Fits (info : PartitionInfo) (cursor : Nat) (op : Op) : Prop :=
  (match op with
    | seek _ origin => origin = 0 ∨ origin = 1 ∨ origin = 2
    | read buf numBytes | write buf numBytes => buf ≠ 0 ∧ numBytes ≠ 0) ∧
  0 ≤ op.target info cursor ∧ op.target info cursor ≤ info.totalSize.toNat

instance (info : PartitionInfo) (cursor : Nat) (op : Op) : Decidable (op.Fits info cursor) := by
  cases op <;> unfold Op.Fits <;> infer_instance

/-- What a call makes of the bytes it is at. -/
def Op.onto (op : Op) (mem : Mem) (cursor : Nat) (content : Mem) : Mem :=
  match op with
  | write buf numBytes => blit content cursor mem buf numBytes.toNat
  | _ => content

/-- The bytes of each partition, and a cursor for each handle. -/
structure Files (ι η : Type) where
  content : ι → Mem
  cursor : η → Nat

structure Mounted (ι η π : Type) where
  handles : η → Option Partition
  machine : Machine π
  files : Files ι η

/-- A call on a handle, with the memory and the DMA heap that it meets. -/
structure Use (η : Type) where
  handle : η
  op : Op
  mem : Mem
  alloc : Alloc

section
variable {ι η π : Type} [DecidableEq ι] [DecidableEq η]
variable (driver : Hooks (Machine π)) (dev : Bdev) (infos : ι → PartitionInfo) (place : η → ι)

def Files.step (f : Files ι η) (u : Use η) : Files ι η :=
  let i := place u.handle
  let cursor := f.cursor u.handle
  if u.op.Fits (infos i) cursor then
    ⟨Function.update f.content i (u.op.onto u.mem cursor (f.content i)),
      Function.update f.cursor u.handle (u.op.target (infos i) cursor).toNat⟩
  else f

def Mounted.call (t : Mounted ι η π) (u : Use η) : Ended (Machine π) :=
  u.op.call (Io.blockdev (driver.default u.alloc)) (t.handles u.handle) { t.machine with mem := u.mem }

def Mounted.step (t : Mounted ι η π) (u : Use η) : Mounted ι η π :=
  let done := t.call driver u
  ⟨Function.update t.handles u.handle done.partition, done.rest, t.files.step infos place u⟩

/-- The handles are at their cursors, and the sectors of the partitions hold the files. -/
structure HoldsFiles (t : Mounted ι η π) : Prop where
  handles : ∀ h, ∃ offset, t.handles h = some (opened (infos (place h)) dev offset) ∧ offset.toNat = t.files.cursor h
  cursors : ∀ h, t.files.cursor h ≤ (infos (place h)).totalSize.toNat
  bytes : ∀ i, ∀ x < (infos i).totalSize.toNat,
    t.machine.disk ((startByte (infos i) dev).toNat + x) = t.files.content i x

def Use.Fair (u : Use η) : Prop :=
  match u.op with
  | .seek _ _ => True
  | .read buf numBytes | .write buf numBytes => numBytes.toNat < 2 ^ 63 ∧ Granted u.alloc dev buf numBytes

/-- A call succeeds where the file says so, and what is read are the bytes of the file. -/
def Answers (t : Mounted ι η π) (u : Use η) : Prop :=
  let done := t.call driver u
  (done.result = .ok () ↔ u.op.Fits (infos (place u.handle)) (t.files.cursor u.handle)) ∧
    ∀ buf numBytes, u.op = .read buf numBytes → done.result = .ok () → ∀ i < numBytes.toNat,
      done.rest.mem (buf + i) = t.files.content (place u.handle) (t.files.cursor u.handle + i)

structure Laid : Prop where
  onDevice : ∀ i, OnDevice (infos i) dev
  apart : ∀ i j, i ≠ j → (infos i).startSector.toNat + (infos i).numSectors.toNat ≤ (infos j).startSector.toNat ∨
    (infos j).startSector.toNat + (infos j).numSectors.toNat ≤ (infos i).startSector.toNat

inductive Served (info : PartitionInfo) (offset : UInt64) (op : Op) (s : Machine π) : Ended (Machine π) → Prop
  | refused (e : Error) (unfit : ¬ op.Fits info offset.toNat) :
    Served info offset op s ⟨.error e, some (opened info dev offset), s⟩
  | done (s' : Machine π) (next : UInt64) (fits : op.Fits info offset.toNat)
      (moved : (next.toNat : Int) = op.target info offset.toNat)
      (disk : s'.disk = op.onto s.mem ((startByte info dev).toNat + offset.toNat) s.disk)
      (bytes : ∀ buf numBytes, op = .read buf numBytes → ∀ i < numBytes.toNat,
        s'.mem (buf + i) = s.disk ((startByte info dev).toNat + offset.toNat + i)) :
    Served info offset op s ⟨.ok (), some (opened info dev next), s'⟩

end

section
variable {π : Type} {driver : Hooks (Machine π)} {dev : Bdev} {info : PartitionInfo} {offset : UInt64}

theorem served_seek (small : info.totalSize.toNat < 2 ^ 63) (place : offset.toNat ≤ info.totalSize.toNat) (s : Machine π)
    (distance : Int64) (origin : UInt32) : Served dev info offset (.seek distance origin) s
      (tegrablPartitionSeek (some (opened info dev offset)) distance origin s) := by
  unfold tegrablPartitionSeek
  cases base : seekBase info (opened info dev offset) origin with
  | none =>
    simp only [opened] at base ⊢
    rw [base]
    refine .refused _ fun fits => ?_
    unfold seekBase at base
    obtain rfl | rfl | rfl := fits.1 <;> cases base
  | some b =>
    have origins : origin = 0 ∨ origin = 1 ∨ origin = 2 := by
      by_contra none
      simp only [not_or] at none
      simp [seekBase, none] at base
    have start := seek_base_toInt (by omega) base
    have size := toInt_toInt64 info.totalSize
    have sum := toInt_add_eq b distance
    have := distance.toInt_lt
    rw [if_pos small] at size
    rw [size] at start
    have low : 0 ≤ b.toInt ∧ b.toInt < 2 ^ 63 := by
      rw [start]
      split_ifs <;> omega
    -- A seek forward can wrap, and then ends below zero.
    have := distance.le_toInt
    rw [if_neg (by omega)] at sum
    have target : Op.target info offset.toNat (.seek distance origin) = b.toInt + distance.toInt := by
      rw [start]
      rfl
    have fits_iff : (Op.seek distance origin).Fits info offset.toNat ↔
        0 ≤ (b + distance).toInt ∧ (b + distance).toInt ≤ info.totalSize.toNat := by
      unfold Op.Fits
      rw [target]
      constructor
      · intro ⟨_, _, _⟩
        omega
      · intro ⟨_, _⟩
        exact ⟨origins, by omega, by omega⟩
    simp only [opened] at base ⊢
    rw [base]
    dsimp only
    by_cases negative : b + distance < 0
    · rw [if_pos negative]
      rw [Int64.lt_iff_toInt_lt, Int64.toInt_zero] at negative
      exact .refused _ fun fits => absurd (fits_iff.mp fits).1 (by omega)
    · have there : (b + distance).toUInt64.toNat = (b + distance).toInt.toNat :=
        Int64.toNat_toUInt64_of_le (Int64.not_lt.mp negative)
      rw [if_neg negative]
      rw [Int64.lt_iff_toInt_lt, Int64.toInt_zero] at negative
      by_cases far : info.totalSize < (b + distance).toUInt64
      · rw [if_pos far]
        rw [UInt64.lt_iff_toNat_lt, there] at far
        exact .refused _ fun fits => absurd (fits_iff.mp fits).2 (by omega)
      · rw [if_neg far]
        rw [UInt64.lt_iff_toNat_lt, there] at far
        exact .done s _ (fits_iff.mpr ⟨by omega, by omega⟩) (by omega) rfl fun _ _ same => by cases same

theorem reaches_iff (info : PartitionInfo) {op : Op} (transfer : ∀ distance origin, op ≠ .seek distance origin)
    (few : op.bytes.toNat < 2 ^ 63) (place : offset.toNat < 2 ^ 63) :
    op.Reaches info offset ↔ op.Fits info offset.toNat := by
  cases op with
  | seek distance origin => exact absurd rfl (transfer distance origin)
  | read buf numBytes | write buf numBytes =>
    have few : numBytes.toNat < 2 ^ 63 := few
    unfold Op.Reaches Op.Fits Op.target
    dsimp only
    rw [UInt64.lt_iff_toNat_lt, UInt64.toNat_add, Nat.mod_eq_of_lt (by omega)]
    constructor
    · intro ⟨present, nonempty, short⟩
      exact ⟨⟨present, nonempty⟩, by omega, by omega⟩
    · intro ⟨⟨present, nonempty⟩, _, _⟩
      exact ⟨present, nonempty, by omega⟩

theorem size_le (ready : Blockdev.Ready dev) (onDevice : OnDevice info dev) :
    (startByte info dev).toNat + info.totalSize.toNat ≤ dev.capacity ∧ dev.capacity < 2 ^ 63 := by
  have count := dev.blockCount.toNat_lt
  have power : 2 ^ dev.blockSizeLog2.toNat ≤ 2 ^ 31 :=
    Nat.pow_le_pow_right (by decide) (Nat.le_of_lt_succ ready.setUp.log2_lt)
  constructor
  · rw [onDevice.startByte_toNat, onDevice.totalSize_toNat, ← Nat.add_mul]
    exact Nat.mul_le_mul_right _ onDevice.inside
  · calc dev.capacity ≤ (2 ^ 32 - 1) * 2 ^ 31 := Nat.mul_le_mul (by omega) power
      _ < 2 ^ 63 := by decide

theorem valid_of_fits (ready : Blockdev.Ready dev) (onDevice : OnDevice info dev) {alloc : Alloc} {buf : Nat}
    {numBytes : UInt64} (present : buf ≠ 0) (nonempty : numBytes ≠ 0)
    (short : (offset.toNat : Int) + numBytes.toNat ≤ info.totalSize.toNat) (granted : Granted alloc dev buf numBytes) :
    (offset + startByte info dev).toNat = (startByte info dev).toNat + offset.toNat ∧
      ((offset + numBytes).toNat : Int) = offset.toNat + numBytes.toNat ∧
      ByteCall.Valid dev ⟨alloc, buf, offset + startByte info dev, numBytes⟩ := by
  obtain ⟨inside, small⟩ := size_le ready onDevice
  have sum : (offset + startByte info dev).toNat = (startByte info dev).toNat + offset.toNat := by
    rw [UInt64.toNat_add]
    omega
  refine ⟨sum, ?_, UInt64.pos_iff_ne_zero.mpr nonempty, ?_, present, granted⟩
  · rw [UInt64.toNat_add]
    omega
  · dsimp only
    rw [sum, size_setUp ready.setUp]
    omega

theorem disk_written {r : ByteCall} {s s' : Machine π} (done : WriteDone dev r s s') :
    s'.disk = blit s.disk r.offset.toNat s.mem r.buf r.len.toNat := by
  funext x
  by_cases covered : r.offset.toNat ≤ x ∧ x < r.offset.toNat + r.len.toNat
  · have byte := done.bytes (x - r.offset.toNat) (by omega)
    rw [Nat.add_sub_cancel' covered.1] at byte
    rw [blit_inside _ _ covered.1 covered.2]
    exact byte
  · rw [blit_outside _ _ (by omega)]
    exact done.disk x (by omega)

theorem served_unfit {op : Op} (unfit : ¬ op.Fits info offset.toNat) (few : op.bytes.toNat < 2 ^ 63)
    (transfer : ∀ distance origin, op ≠ .seek distance origin) (early : offset.toNat < 2 ^ 63) (alloc : Alloc)
    (s : Machine π) : Served dev info offset op s
      (op.call (Io.blockdev (driver.default alloc)) (some (opened info dev offset)) s) := by
  obtain ⟨e, refused⟩ := transfer_refused (Io.blockdev (driver.default alloc)) dev s transfer
    (mt (reaches_iff info transfer few early).mp unfit)
  rw [refused]
  exact .refused e unfit

/-- Whatever is called on a handle of the partition, the byte access under it does what the file says. -/
theorem served (faithful : Faithful driver dev) (ready : Blockdev.Ready dev) (onDevice : OnDevice info dev)
    (place : offset.toNat ≤ info.totalSize.toNat) {η : Type} (u : Use η) (fair : u.Fair dev) (s : Machine π) :
    Served dev info offset u.op s
      (u.op.call (Io.blockdev (driver.default u.alloc)) (some (opened info dev offset)) s) := by
  obtain ⟨inside, limit⟩ := size_le ready onDevice
  have early : offset.toNat < 2 ^ 63 := by omega
  obtain ⟨h, op, mem, alloc⟩ := u
  cases op with
  | seek distance origin => exact served_seek (by omega) place s distance origin
  | read buf numBytes =>
    have reaches := reaches_iff info (show ∀ _ _, Op.read buf numBytes ≠ _ by simp) fair.1 early
    by_cases fits : (Op.read buf numBytes).Fits info offset.toNat
    · obtain ⟨sum, moved, valid⟩ := valid_of_fits ready onDevice fits.1.1 fits.1.2 fits.2.2 fair.2
      obtain ⟨s', ran, done⟩ := read_done faithful ready valid s
      rw [Op.call, read_reaches_ok (reaches.mpr fits) ran]
      refine .done s' _ fits moved done.disk fun _ _ same i below => ?_
      cases same
      rw [done.bytes i below, sum]
    · exact served_unfit fits fair.1 (by simp) early alloc s
  | write buf numBytes =>
    have reaches := reaches_iff info (show ∀ _ _, Op.write buf numBytes ≠ _ by simp) fair.1 early
    by_cases fits : (Op.write buf numBytes).Fits info offset.toNat
    · obtain ⟨sum, moved, valid⟩ := valid_of_fits ready onDevice fits.1.1 fits.1.2 fits.2.2 fair.2
      obtain ⟨s', ran, done⟩ := write_done faithful ready valid s
      have written : ((Io.blockdev (driver.default alloc)).write dev buf (offset + startByte info dev) numBytes).run s =
        (.ok (), s') := ran
      have disk := disk_written done
      rw [sum] at disk
      rw [Op.call, write_reaches (reaches.mpr fits), written]
      exact .done s' _ fits moved disk fun _ _ same => by cases same
    · exact served_unfit fits fair.1 (by simp) early alloc s

end

section
variable {ι η π : Type} [DecidableEq ι] {driver : Hooks (Machine π)} {dev : Bdev} {infos : ι → PartitionInfo} {place : η → ι}

theorem HoldsFiles.onto (laid : Laid dev infos) {t : Mounted ι η π} (holds : HoldsFiles dev infos place t) {h : η} {op : Op}
    (fits : op.Fits (infos (place h)) (t.files.cursor h)) (mem : Mem) {i : ι} {x : Nat}
    (inside : x < (infos i).totalSize.toNat) :
    op.onto mem ((startByte (infos (place h)) dev).toNat + t.files.cursor h) t.machine.disk
        ((startByte (infos i) dev).toNat + x) =
      Function.update t.files.content (place h) (op.onto mem (t.files.cursor h) (t.files.content (place h))) i x := by
  have same := holds.bytes i x inside
  cases op with
  | seek distance origin | read buf numBytes =>
    change t.machine.disk _ = Function.update t.files.content (place h) (t.files.content (place h)) i x
    rw [Function.update_eq_self]
    exact same
  | write buf numBytes =>
    have short : (t.files.cursor h : Int) + numBytes.toNat ≤ (infos (place h)).totalSize.toNat := fits.2.2
    unfold Op.onto
    by_cases own : i = place h
    · subst own
      simp only [Function.update_self, blit, Nat.add_assoc, Nat.add_le_add_iff_left, Nat.add_lt_add_iff_left,
        Nat.add_sub_add_left, same]
    · rw [Function.update_of_ne own]
      refine (blit_outside _ _ ?_).trans same
      -- Both end at whole sectors.
      rw [(laid.onDevice i).startByte_toNat, (laid.onDevice (place h)).startByte_toNat]
      rw [(laid.onDevice i).totalSize_toNat] at inside
      rw [(laid.onDevice (place h)).totalSize_toNat] at short
      generalize 2 ^ dev.blockSizeLog2.toNat = unit at *
      refine (laid.apart i (place h) own).imp (fun before => ?_) fun behind => ?_
      · have := Nat.mul_le_mul_right unit before
        rw [Nat.add_mul] at this
        omega
      · have := Nat.mul_le_mul_right unit behind
        rw [Nat.add_mul] at this
        omega

variable [DecidableEq η]

end

end Cboot.PartitionManager
