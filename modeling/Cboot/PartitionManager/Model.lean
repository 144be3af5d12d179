import Cboot.Blockdev.Range

/-!
The handle functions of `lib/partition_manager/tegrabl_partition_manager.c`. A pointer that may be
null is an `Option`, or 0 for a buffer. Signed sums wrap. The offset of a handle is a 64-bit word, and
so are the sums that the range checks compare.
-/

namespace Cboot.PartitionManager
open Blockdev

inductive Reason where
  | invalid
  | notInitialized
  | overflow
  | underflow
  | notFound
  | noMemory
  | notSupported
  deriving DecidableEq, Repr

/-- An error of the partition manager, or one of the block device with the module number raised. -/
inductive Error where
  | own (reason : Reason) (detail : Nat)
  | device (e : Blockdev.Error)
  deriving DecidableEq, Repr

/-- `struct tegrabl_partition_info`. The texts are arrays of characters. -/
structure PartitionInfo where
  name : List UInt8
  guid : List UInt8
  ptypeGuid : List UInt8
  startSector : UInt64
  numSectors : UInt64
  totalSize : UInt64
  deriving DecidableEq, Repr

structure Partition where
  info : Option PartitionInfo
  blockDevice : Option Bdev
  offset : UInt64
  deriving DecidableEq, Repr

/-- The byte access of a block device. `σ` is all that it can reach. -/
structure Io (σ : Type) where
  read : Bdev → Nat → UInt64 → UInt64 → Call σ Unit
  write : Bdev → Nat → UInt64 → UInt64 → Call σ Unit

section
variable {σ : Type}

/-- `tegrabl_blockdev_read` and `tegrabl_blockdev_write` on the hooks of a driver. -/
def Io.blockdev (hooks : Hooks σ) : Io σ where
  read dev buf offset len := tegrablBlockdevRead hooks (some dev) buf offset len
  write dev buf offset len := tegrablBlockdevWrite hooks (some dev) buf offset len

structure Ended (σ : Type) where
  result : Except Error Unit
  partition : Option Partition
  rest : σ

def refuse (reason : Reason) (detail : Nat) (partition : Option Partition) (s : σ) : Ended σ :=
  ⟨.error (.own reason detail), partition, s⟩

/-- The byte of the device at which the partition starts, as `off_t`. -/
def startByte (info : PartitionInfo) (dev : Bdev) : UInt64 :=
  info.startSector <<< dev.blockSizeLog2.toUInt64

def tegrablPartitionWrite (io : Io σ) (partition : Option Partition) (buf : Nat)
    (numBytes : UInt64) (s : σ) : Ended σ :=
  match partition with
  | none => refuse .invalid 2 none s
  | some p =>
    if buf = 0 ∨ numBytes = 0 then refuse .invalid 2 p s
    else
      match p.info, p.blockDevice with
      | some info, some dev =>
        if info.totalSize < numBytes + p.offset then refuse .overflow 0 p s
        else
          let done := (io.write dev buf (p.offset + startByte info dev) numBytes).run s
          -- The offset moves also when the write failed.
          ⟨done.1.mapError .device, some { p with offset := p.offset + numBytes }, done.2⟩
      | _, _ => refuse .notInitialized 3 p s

def tegrablPartitionRead (io : Io σ) (partition : Option Partition) (buf : Nat)
    (numBytes : UInt64) (s : σ) : Ended σ :=
  match partition with
  | none => refuse .invalid 4 none s
  | some p =>
    if buf = 0 ∨ numBytes = 0 then refuse .invalid 4 p s
    else
      match p.info, p.blockDevice with
      | some info, some dev =>
        if info.totalSize < numBytes + p.offset then refuse .overflow 1 p s
        else
          match (io.read dev buf (p.offset + startByte info dev) numBytes).run s with
          | (.error e, s) => ⟨.error (.device e), p, s⟩
          | (.ok (), s) => ⟨.ok (), some { p with offset := p.offset + numBytes }, s⟩
      | _, _ => refuse .notInitialized 4 p s

/-- The base of a seek, `none` for an origin that is not known. -/
def seekBase (info : PartitionInfo) (p : Partition) (origin : UInt32) : Option Int64 :=
  if origin = 0 then some 0
  else if origin = 1 then some p.offset.toInt64
  else if origin = 2 then some info.totalSize.toInt64
  else none

def tegrablPartitionSeek (partition : Option Partition) (offset : Int64) (origin : UInt32) (s : σ) :
    Ended σ :=
  match partition with
  | none => refuse .invalid 5 none s
  | some p =>
    match p.info, p.blockDevice with
    | some info, some _ =>
      match seekBase info p origin with
      | none => refuse .invalid 6 p s
      | some base =>
        let newOffset := base + offset
        if newOffset < 0 then refuse .underflow 0 p s
        else if info.totalSize < newOffset.toUInt64 then refuse .overflow 2 p s
        else ⟨.ok (), some { p with offset := newOffset.toUInt64 }, s⟩
    | _, _ => refuse .notInitialized 5 p s

def tegrablPartitionTell (partition : Option Partition) : Int64 :=
  match partition with
  | none => -1
  | some p =>
    match p.info, p.blockDevice with
    | some _, some _ => p.offset.toInt64
    | _, _ => -1

/-- `TEGRABL_BLOCKDEV_WRITE` and `TEGRABL_BLOCKDEV_READ`. -/
def blockdevWrite : UInt8 := 1
def blockdevRead : UInt8 := 2

/-- What the asynchronous functions share. They count in sectors and cut both numbers to 32 bits. -/
def asyncXfer (hooks : Hooks σ) (xferId : UInt32) (xferType : UInt8) (detail : Nat)
    (partition : Option Partition) (buf : Nat) (startSector numSectors : UInt64)
    (memory : Option XferInfo) (s : σ) : Except Error Unit × σ :=
  match partition with
  | none => (.error (.own .invalid detail), s)
  | some p =>
    if buf = 0 ∨ numSectors = 0 then (.error (.own .invalid detail), s)
    else
      match p.info, p.blockDevice with
      | some info, some dev =>
        if info.numSectors < startSector + numSectors then (.error (.own .invalid (detail + 2)), s)
        else
          match memory with
          | none => (.error (.own .invalid (detail + 3)), s)
          | some memory =>
            let xfer := { memory with
              dev := some dev
              buf := buf
              xferType := xferType
              isNonBlocking := true
              startBlock := (info.startSector + startSector).toUInt32
              blockCount := numSectors.toUInt32 }
            let done := (tegrablBlockdevXfer hooks xferId (some xfer)).run s
            ((done.1.mapError .device).map fun _ => (), done.2)
      | _, _ => (.error (.own .invalid (detail + 1)), s)

def tegrablPartitionAsyncRead (hooks : Hooks σ) (xferId : UInt32) :=
  asyncXfer hooks xferId blockdevRead 7

def tegrablPartitionAsyncWrite (hooks : Hooks σ) (xferId : UInt32) :=
  asyncXfer hooks xferId blockdevRead 11

end

theorem toInt_toInt64 (u : UInt64) :
    u.toInt64.toInt = if u.toNat < 2 ^ 63 then (u.toNat : Int) else u.toNat - 2 ^ 64 := by
  have := u.toNat_lt
  change u.toInt64.toBitVec.toInt = _
  rw [UInt64.toBitVec_toInt64, BitVec.toInt_eq_toNat_bmod]
  change (u.toNat : Int).bmod (2 ^ 64) = _
  rw [Int.bmod_def]
  omega

inductive Op where
  | seek (offset : Int64) (origin : UInt32)
  | read (buf : Nat) (numBytes : UInt64)
  | write (buf : Nat) (numBytes : UInt64)
  deriving DecidableEq, Repr

/-- A handle as `tegrabl_partition_open` fills it, later moved to `offset`. -/
def opened (info : PartitionInfo) (dev : Bdev) (offset : UInt64) : Partition :=
  ⟨some info, some dev, offset⟩

section
variable {σ : Type}

def Op.call (io : Io σ) : Op → Option Partition → σ → Ended σ
  | seek offset origin, p, s => tegrablPartitionSeek p offset origin s
  | read buf numBytes, p, s => tegrablPartitionRead io p buf numBytes s
  | write buf numBytes, p, s => tegrablPartitionWrite io p buf numBytes s

structure Session (σ : Type) where
  partition : Option Partition
  rest : σ

def Session.step (io : Io σ) (t : Session σ) (op : Op) : Session σ :=
  let done := op.call io t.partition t.rest
  ⟨done.partition, done.rest⟩

def Op.Reaches (info : PartitionInfo) (offset : UInt64) : Op → Prop
  | seek _ _ => False
  | read buf numBytes | write buf numBytes =>
    buf ≠ 0 ∧ numBytes ≠ 0 ∧ ¬ info.totalSize < numBytes + offset

variable {io : Io σ} {info : PartitionInfo} {dev : Bdev} {offset : UInt64} {s : σ} {numBytes : UInt64} {buf : Nat}

theorem write_reaches (reaches : (Op.write buf numBytes).Reaches info offset) :
    tegrablPartitionWrite io (some (opened info dev offset)) buf numBytes s =
      ⟨((io.write dev buf (offset + startByte info dev) numBytes).run s).1.mapError .device,
        some (opened info dev (offset + numBytes)),
        ((io.write dev buf (offset + startByte info dev) numBytes).run s).2⟩ := by
  obtain ⟨present, nonempty, short⟩ := reaches
  unfold tegrablPartitionWrite opened
  dsimp only
  rw [if_neg (not_or.mpr ⟨present, nonempty⟩), if_neg short]

theorem read_reaches_ok {s' : σ} (reaches : (Op.read buf numBytes).Reaches info offset)
    (done : (io.read dev buf (offset + startByte info dev) numBytes).run s = (.ok (), s')) :
    tegrablPartitionRead io (some (opened info dev offset)) buf numBytes s =
      ⟨.ok (), some (opened info dev (offset + numBytes)), s'⟩ := by
  obtain ⟨present, nonempty, short⟩ := reaches
  unfold tegrablPartitionRead opened
  dsimp only
  rw [if_neg (not_or.mpr ⟨present, nonempty⟩), if_neg short, done]

theorem read_reaches_error {e : Blockdev.Error} {s' : σ}
    (reaches : (Op.read buf numBytes).Reaches info offset)
    (failed : (io.read dev buf (offset + startByte info dev) numBytes).run s = (.error e, s')) :
    tegrablPartitionRead io (some (opened info dev offset)) buf numBytes s =
      ⟨.error (.device e), some (opened info dev offset), s'⟩ := by
  obtain ⟨present, nonempty, short⟩ := reaches
  unfold tegrablPartitionRead opened
  dsimp only
  rw [if_neg (not_or.mpr ⟨present, nonempty⟩), if_neg short, failed]

theorem transfer_refused (io : Io σ) (dev : Bdev) (s : σ) {op : Op}
    (transfer : ∀ offset origin, op ≠ .seek offset origin) (stopped : ¬ op.Reaches info offset) :
    ∃ e, op.call io (some (opened info dev offset)) s = ⟨.error e, some (opened info dev offset), s⟩ := by
  cases op with
  | seek place origin => exact absurd rfl (transfer place origin)
  | read buf numBytes =>
    unfold Op.call tegrablPartitionRead opened
    dsimp only
    by_cases given : buf = 0 ∨ numBytes = 0
    · exact ⟨_, if_pos given⟩
    · obtain ⟨present, nonempty⟩ := not_or.mp given
      rw [if_neg given, if_pos (by_contra fun short => stopped ⟨present, nonempty, short⟩)]
      exact ⟨_, rfl⟩
  | write buf numBytes =>
    unfold Op.call tegrablPartitionWrite opened
    dsimp only
    by_cases given : buf = 0 ∨ numBytes = 0
    · exact ⟨_, if_pos given⟩
    · obtain ⟨present, nonempty⟩ := not_or.mp given
      rw [if_neg given, if_pos (by_contra fun short => stopped ⟨present, nonempty, short⟩)]
      exact ⟨_, rfl⟩

theorem read_ok
    (ok : (tegrablPartitionRead io (some (opened info dev offset)) buf numBytes s).result = .ok ()) :
    (Op.read buf numBytes).Reaches info offset ∧
      ∃ s', (io.read dev buf (offset + startByte info dev) numBytes).run s = (.ok (), s') ∧
        tegrablPartitionRead io (some (opened info dev offset)) buf numBytes s =
          ⟨.ok (), some (opened info dev (offset + numBytes)), s'⟩ := by
  by_cases reaches : (Op.read buf numBytes).Reaches info offset
  · cases done : (io.read dev buf (offset + startByte info dev) numBytes).run s with
    | mk result s' =>
      cases result with
      | error e =>
        rw [read_reaches_error reaches done] at ok
        cases ok
      | ok _ => exact ⟨reaches, s', rfl, read_reaches_ok reaches done⟩
  · have refused := transfer_refused io dev s (fun _ _ same => Op.noConfusion same) reaches
    obtain ⟨e, refused⟩ := refused
    rw [show tegrablPartitionRead io (some (opened info dev offset)) buf numBytes s = _ from refused]
      at ok
    cases ok

theorem read_reaches_rest (reaches : (Op.read buf numBytes).Reaches info offset) :
    (tegrablPartitionRead io (some (opened info dev offset)) buf numBytes s).rest =
      ((io.read dev buf (offset + startByte info dev) numBytes).run s).2 := by
  cases done : (io.read dev buf (offset + startByte info dev) numBytes).run s with
  | mk result s' =>
    cases result with
    | error e => rw [read_reaches_error reaches done]
    | ok _ => rw [read_reaches_ok reaches done]

theorem seek_cases (info : PartitionInfo) (dev : Bdev) (offset : UInt64) (s : σ) (distance : Int64) (origin : UInt32) :
    (∃ e, tegrablPartitionSeek (some (opened info dev offset)) distance origin s =
      ⟨.error e, some (opened info dev offset), s⟩) ∨
    ∃ base, seekBase info (opened info dev offset) origin = some base ∧ 0 ≤ base + distance ∧
      (base + distance).toUInt64 ≤ info.totalSize ∧
      tegrablPartitionSeek (some (opened info dev offset)) distance origin s =
        ⟨.ok (), some (opened info dev (base + distance).toUInt64), s⟩ := by
  unfold tegrablPartitionSeek opened
  dsimp only
  cases known : seekBase info ⟨some info, some dev, offset⟩ origin with
  | none => exact .inl ⟨_, rfl⟩
  | some base =>
    dsimp only
    by_cases negative : base + distance < 0
    · exact .inl ⟨_, if_pos negative⟩
    by_cases far : info.totalSize < (base + distance).toUInt64
    · refine .inl ⟨.own .overflow 2, ?_⟩
      rw [if_neg negative, if_pos far]
      rfl
    refine .inr ⟨base, rfl, Int64.not_lt.mp negative, UInt64.not_lt.mp far, ?_⟩
    rw [if_neg negative, if_neg far]

end

end Cboot.PartitionManager
