import Cboot.Lib.Runs
import Cboot.PartitionManager.Model

/-!
The check of a read or a write compares a 64-bit sum. A call that ends past `2 ^ 64` can pass it, and
the block device is then asked for bytes beyond the partition.
-/

namespace Cboot.PartitionManager
open Blockdev Lib

structure OnDevice (info : PartitionInfo) (dev : Bdev) : Prop where
  log2_lt : dev.blockSizeLog2.toNat < 64
  addressable : dev.capacity < 2 ^ 64
  inside : info.startSector.toNat + info.numSectors.toNat ≤ dev.blockCount.toNat
  totalSize_eq : info.totalSize = info.numSectors <<< dev.blockSizeLog2.toUInt64

def Within (info : PartitionInfo) (dev : Bdev) : Request → Prop
  | .bytes offset len =>
    info.startSector.toNat * 2 ^ dev.blockSizeLog2.toNat ≤ offset.toNat ∧
      offset.toNat + len.toNat ≤
        (info.startSector.toNat + info.numSectors.toNat) * 2 ^ dev.blockSizeLog2.toNat
  | .blocks block count =>
    info.startSector.toNat ≤ block.toNat ∧
      block.toNat + count.toNat ≤ info.startSector.toNat + info.numSectors.toNat

theorem toNat_shiftLeft_of_le {n : UInt64} {dev : Bdev} (small : dev.blockSizeLog2.toNat < 64)
    (addressable : dev.capacity < 2 ^ 64) (few : n.toNat ≤ dev.blockCount.toNat) :
    (n <<< dev.blockSizeLog2.toUInt64).toNat = n.toNat * 2 ^ dev.blockSizeLog2.toNat := by
  have fits : n.toNat * 2 ^ dev.blockSizeLog2.toNat < 2 ^ 64 :=
    Nat.lt_of_le_of_lt (Nat.mul_le_mul_right _ few) addressable
  rw [UInt64.toNat_shiftLeft, UInt32.toNat_toUInt64, Nat.mod_eq_of_lt small, Nat.shiftLeft_eq,
    Nat.mod_eq_of_lt fits]

namespace OnDevice
variable {info : PartitionInfo} {dev : Bdev}

theorem startByte_toNat (fits : OnDevice info dev) :
    (startByte info dev).toNat = info.startSector.toNat * 2 ^ dev.blockSizeLog2.toNat :=
  toNat_shiftLeft_of_le fits.log2_lt fits.addressable (by have := fits.inside; omega)

theorem totalSize_toNat (fits : OnDevice info dev) :
    info.totalSize.toNat = info.numSectors.toNat * 2 ^ dev.blockSizeLog2.toNat := by
  rw [fits.totalSize_eq]
  exact toNat_shiftLeft_of_le fits.log2_lt fits.addressable (by have := fits.inside; omega)

theorem end_lt (fits : OnDevice info dev) :
    (startByte info dev).toNat + info.totalSize.toNat < 2 ^ 64 := by
  rw [fits.startByte_toNat, fits.totalSize_toNat, ← Nat.add_mul]
  exact Nat.lt_of_le_of_lt (Nat.mul_le_mul_right _ fits.inside) fits.addressable

theorem within_bytes_iff (fits : OnDevice info dev) {offset numBytes : UInt64}
    (place : offset ≤ info.totalSize) :
    Within info dev (.bytes (offset + startByte info dev) numBytes) ↔
      offset.toNat + numBytes.toNat ≤ info.totalSize.toNat := by
  have start := fits.startByte_toNat
  have size := fits.totalSize_toNat
  have last := fits.end_lt
  have here : offset.toNat ≤ info.totalSize.toNat := UInt64.le_iff_toNat_le.mp place
  have sum : (offset + startByte info dev).toNat = offset.toNat + (startByte info dev).toNat := by
    rw [UInt64.toNat_add, Nat.mod_eq_of_lt (by omega)]
  unfold Within
  dsimp only
  rw [sum, Nat.add_mul, ← start, ← size]
  omega

end OnDevice

section
variable {σ : Type}

def Io.recorded (io : Io σ) : Io (List Request × σ) where
  read dev buf offset len := noted (.bytes offset len) (io.read dev buf offset len)
  write dev buf offset len := noted (.bytes offset len) (io.write dev buf offset len)

/-- The end of the call does not fit 64 bits, and what is left of it passes the check. -/
def SlipsThrough (info : PartitionInfo) (offset : UInt64) : Op → Prop
  | .seek _ _ => False
  | .read buf numBytes | .write buf numBytes =>
    buf ≠ 0 ∧ 2 ^ 64 ≤ offset.toNat + numBytes.toNat ∧
      offset.toNat + numBytes.toNat - 2 ^ 64 ≤ info.totalSize.toNat

def AtPlace (info : PartitionInfo) (dev : Bdev) (t : Session σ) : Prop :=
  ∃ offset, t.partition = some (opened info dev offset) ∧ offset ≤ info.totalSize

def Confined (info : PartitionInfo) (dev : Bdev) (t : Session (List Request × σ)) : Prop :=
  ∀ q ∈ t.rest.1, Within info dev q

def Tame (info : PartitionInfo) (t : Session σ) (op : Op) : Prop :=
  ∀ p, t.partition = some p → ¬ SlipsThrough info p.offset op

def Op.bytes : Op → UInt64
  | seek _ _ => 0
  | read _ numBytes | write _ numBytes => numBytes

variable {io : Io σ} {info : PartitionInfo} {dev : Bdev} {offset : UInt64}

theorem slipsThrough_iff {op : Op} (reaches : op.Reaches info offset) :
    SlipsThrough info offset op ↔ ¬ offset.toNat + op.bytes.toNat ≤ info.totalSize.toNat := by
  cases op with
  | seek distance origin => exact reaches.elim
  | read buf numBytes | write buf numBytes =>
    obtain ⟨present, -, short⟩ := reaches
    have sum : (numBytes.toNat + offset.toNat) % 2 ^ 64 ≤ info.totalSize.toNat := by
      rw [← UInt64.toNat_add]
      exact UInt64.le_iff_toNat_le.mp (UInt64.not_lt.mp short)
    have := info.totalSize.toNat_lt
    have := offset.toNat_lt
    have := numBytes.toNat_lt
    unfold SlipsThrough Op.bytes
    dsimp only
    constructor
    · rintro ⟨-, wraps, -⟩
      omega
    · intro outside
      exact ⟨present, by omega, by omega⟩

theorem reaches_of_slipsThrough {op : Op} (slips : SlipsThrough info offset op) :
    op.Reaches info offset := by
  cases op with
  | seek distance origin => exact slips
  | read buf numBytes | write buf numBytes =>
    obtain ⟨present, wraps, short⟩ := slips
    have := offset.toNat_lt
    have := numBytes.toNat_lt
    have sum : (numBytes + offset).toNat = offset.toNat + numBytes.toNat - 2 ^ 64 := by
      rw [UInt64.toNat_add]
      omega
    refine ⟨present, ?_, ?_⟩
    · rintro rfl
      exact absurd wraps (by simp; omega)
    · rw [UInt64.not_lt, UInt64.le_iff_toNat_le, sum]
      exact short

variable {t : Session (List Request × σ)}

theorem step_recorded (io : Io σ) (op : Op)
    (place : offset ≤ info.totalSize) (here : t.partition = some (opened info dev offset)) :
    AtPlace info dev (t.step io.recorded op) ∧
      ((¬ op.Reaches info offset ∧ (t.step io.recorded op).rest.1 = t.rest.1) ∨
        (op.Reaches info offset ∧ (t.step io.recorded op).rest.1 =
          t.rest.1 ++ [.bytes (offset + startByte info dev) op.bytes])) := by
  obtain ⟨partition, log, s⟩ := t
  cases here
  by_cases reaches : op.Reaches info offset
  · -- The check compares the sum as it wraps, and the handle takes the same sum.
    have moved : offset + op.bytes ≤ info.totalSize := by
      cases op with
      | seek distance origin => exact reaches.elim
      | read buf numBytes | write buf numBytes =>
        rw [UInt64.add_comm]
        exact UInt64.not_lt.mp reaches.2.2
    cases op with
    | seek distance origin => exact reaches.elim
    | read buf numBytes =>
      unfold Session.step Op.call
      dsimp only
      cases done : (io.read dev buf (offset + startByte info dev) numBytes).run s with
      | mk result s' =>
        have noted : (io.recorded.read dev buf (offset + startByte info dev) numBytes).run (log, s) =
            (result, log ++ [.bytes (offset + startByte info dev) numBytes], s') := run_noted done
        cases result with
        | error e =>
          rw [read_reaches_error reaches noted]
          exact ⟨⟨offset, rfl, place⟩, .inr ⟨reaches, rfl⟩⟩
        | ok done =>
          rw [read_reaches_ok reaches noted]
          exact ⟨⟨_, rfl, moved⟩, .inr ⟨reaches, rfl⟩⟩
    | write buf numBytes =>
      unfold Session.step Op.call
      dsimp only
      rw [write_reaches reaches]
      exact ⟨⟨_, rfl, moved⟩, .inr ⟨reaches, rfl⟩⟩
  · cases op with
    | seek distance origin =>
      unfold Session.step Op.call
      dsimp only
      rcases seek_cases info dev offset (log, s) distance origin with
        ⟨e, refused⟩ | ⟨base, -, -, near, sought⟩
      · rw [refused]
        exact ⟨⟨offset, rfl, place⟩, .inl ⟨reaches, rfl⟩⟩
      · rw [sought]
        exact ⟨⟨_, rfl, near⟩, .inl ⟨reaches, rfl⟩⟩
    | read buf numBytes | write buf numBytes =>
      obtain ⟨e, refused⟩ := transfer_refused io.recorded dev (log, s) (fun _ _ same => Op.noConfusion same) reaches
      unfold Session.step
      dsimp only
      rw [refused]
      exact ⟨⟨offset, rfl, place⟩, .inl ⟨reaches, rfl⟩⟩

theorem confined_step_iff (fits : OnDevice info dev) (op : Op)
    (here : AtPlace info dev t) (before : Confined info dev t) :
    Confined info dev (t.step io.recorded op) ↔ Tame info t op := by
  obtain ⟨offset, handle, place⟩ := here
  have tame : Tame info t op ↔ ¬ SlipsThrough info offset op := by
    unfold Tame
    rw [handle]
    constructor
    · intro tame
      exact tame _ rfl
    · rintro tame p ⟨⟩
      exact tame
  obtain ⟨-, ⟨stopped, same⟩ | ⟨reaches, asked⟩⟩ := step_recorded io op place handle
  · have idle : ¬ SlipsThrough info offset op := fun slips => stopped (reaches_of_slipsThrough slips)
    unfold Confined
    rw [same, tame]
    exact ⟨fun _ => idle, fun _ => before⟩
  · rw [tame, slipsThrough_iff reaches, not_not, ← fits.within_bytes_iff place]
    unfold Confined
    rw [asked]
    constructor
    · intro all
      exact all _ (by simp)
    · intro part q member
      rcases List.mem_append.mp member with old | new
      · exact before q old
      · rw [List.mem_singleton.mp new]
        exact part

/-- Whatever is called on the handle, it stays at a place of the partition. -/
theorem partition_confinement (io : Io σ) (info : PartitionInfo) (dev : Bdev) (s : σ)
    (ops : List Op) (fits : OnDevice info dev) :
    let start : Session (List Request × σ) := ⟨some (opened info dev 0), [], s⟩
    Throughout (Session.step io.recorded) (AtPlace info dev) start ops ∧
      (Throughout (Session.step io.recorded) (Confined info dev) start ops ↔
        EachStep (Session.step io.recorded) (Tame info) start ops) := by
  intro start
  have first : AtPlace info dev start := ⟨0, rfl, UInt64.zero_le⟩
  have keeps : ∀ t op, AtPlace info dev t → AtPlace info dev (Session.step io.recorded t op) := by
    rintro t op ⟨offset, handle, place⟩
    exact (step_recorded io op place handle).1
  refine ⟨throughout_of_step keeps first ops, ?_⟩
  refine throughout_iff_eachStep (fun t op here _ _ => keeps t op here)
    (fun t op => confined_step_iff fits op) first ?_ ops
  intro q member
  cases member

end

def smallPartition : PartitionInfo := ⟨[65], [], [], 2, 4, 2048⟩

theorem smallPartition_onDevice : OnDevice smallPartition smallDisk :=
  ⟨by decide, by decide, by decide, rfl⟩

def sectorRead : List Op := [.seek 512 0, .read 0x1000 512]

theorem partition_confinement_sector :
    OnDevice smallPartition smallDisk ∧
      Throughout (Session.step (Io.blockdev idleHooks).recorded) (Confined smallPartition smallDisk)
        ⟨some (opened smallPartition smallDisk 0), [], ()⟩ sectorRead := by
  refine ⟨smallPartition_onDevice, (partition_confinement (Io.blockdev idleHooks) smallPartition
    smallDisk () sectorRead smallPartition_onDevice).2.mpr ?_⟩
  refine eachStep_cons.mpr ⟨?_, eachStep_cons.mpr ⟨?_, eachStep_nil⟩⟩
  · rintro p -
    exact id
  · rintro p ⟨⟩ ⟨-, wraps, -⟩
    exact absurd wraps (by decide)

def wrappedRead : List Op := [.seek 1 0, .read 0x1000 0xFFFFFFFFFFFFFFFF]

theorem partition_confinement_wrapped :
    ¬ ∀ (σ : Type) (io : Io σ) (info : PartitionInfo) (dev : Bdev) (s : σ) (ops : List Op),
      OnDevice info dev →
      Throughout (Session.step io.recorded) (fun t => AtPlace info dev t ∧ Confined info dev t)
        ⟨some (opened info dev 0), [], s⟩ ops := by
  intro claim
  have always := claim Unit (Io.blockdev idleHooks) smallPartition smallDisk () wrappedRead
    smallPartition_onDevice
  have asked := (always wrappedRead (List.prefix_refl _)).2 (.bytes 1025 0xFFFFFFFFFFFFFFFF)
    (by decide)
  have part : 1025 + 0xFFFFFFFFFFFFFFFF ≤ (2 + 4) * 2 ^ 9 := asked.2
  omega

end Cboot.PartitionManager
