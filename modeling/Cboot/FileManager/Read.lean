import Cboot.Ext4.File
import Cboot.PartitionManager.Registry

/-!
`lib/file_manager/tegrabl_file_manager.c`. A file is read from the file system that is mounted, and where that fails
from a partition of its device.
-/

namespace Cboot.FileManager
open Lib PartitionManager

abbrev Buffer : Type := List (Piece UInt8)

/-- The address of a byte of the buffer stays below `size`. -/
def Within (written : Buffer) (size : Nat) : Prop := ∀ p ∈ written, p.Inside size

def Holds (written : Buffer) (content : Nat → UInt8) (size : Nat) : Prop := ∀ x < size, Piece.held written x = some (content x)

/-- What `fs_read_file` returns, and what it has put in the buffer. -/
structure FsRead where
  status : Int64
  written : Buffer

/-- A file that could be opened: what `fs_stat_file` finds, where it succeeds, what is in the file, and how the file system
reads it. -/
structure File where
  stat : Option UInt64
  content : Nat → UInt8
  read : UInt64 → FsRead

/-- The block devices: what is on them, and what `tegrabl_blockdev_read` makes of a request. It fills the buffer or fails, and
does not write beyond the length. -/
structure Storage where
  byte : Blockdev.Bdev → Nat → UInt8
  read : Blockdev.Bdev → UInt64 → UInt64 → Except Blockdev.Error Unit × Buffer
  inside : ∀ dev offset len, Within (read dev offset len).2 len.toNat
  filled : ∀ dev offset len, (read dev offset len).1 = .ok () →
    Holds (read dev offset len).2 (fun x => byte dev (offset.toNat + x)) len.toNat

def Storage.io (storage : Storage) : Io Buffer where
  read dev _ offset len := ExceptT.mk fun written =>
    ((storage.read dev offset len).1, written ++ (storage.read dev offset len).2)
  write _ _ _ _ := pure ()

inductive Reason where
  | invalid
  | overflow
  | openFailed
  | readFailed
  deriving DecidableEq, Repr

inductive Error where
  | own (reason : Reason) (detail : Nat)
  | partition (e : PartitionManager.Error)
  deriving DecidableEq, Repr

section
variable {D : Type} [DecidableEq D]

/-- `struct tegrabl_fm_handle`, as far as it is read. -/
structure Handle (D : Type) where
  bdev : Option D
  mountPath : Option (List UInt8)

structure World (D : Type) where
  record : D → Blockdev.Bdev
  registry : Registry D
  storage : Storage
  /-- `fs_open_file`. -/
  openFile : List UInt8 → Option File

structure Ended where
  result : Except Error Unit
  /-- `*size`, where there is one. -/
  size : Option UInt32
  written : Buffer

/-- `*size < partition_size`, where there is a size. -/
def tooSmall (size : Option UInt32) (partitionSize : UInt32) : Prop := ∃ n, size = some n ∧ n < partitionSize

instance (size : Option UInt32) (partitionSize : UInt32) : Decidable (tooSmall size partitionSize) :=
  match size with
  | none => .isFalse (by simp [tooSmall])
  | some n => decidable_of_iff (n < partitionSize) (by simp [tooSmall])

variable (world : World D)

def tegrablFmReadPartition (bdev : Option D) (partitionName : Option (List UInt8)) (loadAddress : Nat) (size : Option UInt32)
    (written : Buffer) : Ended :=
  if bdev = none ∨ partitionName = none ∨ loadAddress = 0 then ⟨.error (.own .invalid 3), size, written⟩
  else
    match tegrablPartitionLookupBdev world.record world.registry partitionName (some ⟨none, none, 0⟩) bdev with
    | (.error e, _) => ⟨.error (.partition e), size, written⟩
    | (.ok (), partition) =>
      -- `partition_size` has 32 bits.
      let partitionSize := ((partition.bind (·.info)).elim 0 (·.totalSize)).toUInt32
      if partitionSize = 0 then ⟨.error (.own .invalid 4), size, written⟩
      else if tooSmall size partitionSize then ⟨.error (.own .overflow 1), size, written⟩
      else
        let read := tegrablPartitionRead world.storage.io partition loadAddress partitionSize.toUInt64 written
        match read.result with
        | .error e => ⟨.error (.partition e), size, read.rest⟩
        | .ok () => ⟨.ok (), size.map fun _ => partitionSize, read.rest⟩

/-- What `tegrabl_fm_read` leaves, with `*is_file_loaded_from_fs`. -/
structure FmEnded extends Ended where
  fromFs : Bool

/-- `ssize_t` to `int32_t`. -/
def statusOf (status : Int64) : Int32 := status.toInt32

def readFile (mountPath filePath : List UInt8) (size : UInt32) : Except Error UInt32 × Buffer :=
  if 200 ≤ mountPath.length + filePath.length then (.error (.own .overflow 2), [])
  else
    match world.openFile (mountPath ++ filePath) with
    | none => (.error (.own .openFailed 0), [])
    | some file =>
      match file.stat with
      | none => (.error (.own .openFailed 1), [])
      | some length =>
        if size.toUInt64 < length then (.error (.own .overflow 0), [])
        else
          let read := file.read length
          if statusOf read.status < 0 then (.error (.own .readFailed 1), read.written)
          else (.ok length.toUInt32, read.written)

/-- From `load_from_partition` on. -/
def loadFromPartition (handle : Handle D) (partitionName : Option (List UInt8)) (loadAddress : Nat) (size : UInt32)
    (err : Except Error Unit) (written : Buffer) : FmEnded :=
  match partitionName with
  | none => ⟨⟨err, size, written⟩, false⟩
  | some name => ⟨tegrablFmReadPartition world handle.bdev (some name) loadAddress (some size) written, false⟩

def tegrablFmRead (handle : Option (Handle D)) (filePath partitionName : Option (List UInt8)) (loadAddress : Nat)
    (size : UInt32) : FmEnded :=
  match handle with
  | none => ⟨⟨.error (.own .invalid 3), size, []⟩, false⟩
  | some handle =>
    match filePath, handle.mountPath with
    | some filePath, some mountPath =>
      match readFile world mountPath filePath size with
      | (.ok length, written) => ⟨⟨.ok (), length, written⟩, true⟩
      | (.error e, written) => loadFromPartition world handle partitionName loadAddress size (.error e) written
    | _, _ => loadFromPartition world handle partitionName loadAddress size (.ok ()) []

def namedPartition (bdev : D) (name : List UInt8) : Option (StorageInfo D × PartitionInfo) :=
  world.registry.storageList.bind (findPartition fun entry info => entry.bdev = bdev && sameText info.name name)

def partitionContent (bdev : D) (info : PartitionInfo) (x : Nat) : UInt8 :=
  world.storage.byte (world.record bdev) ((startByte info (world.record bdev)).toNat + x)

/-- The buffer holds the whole partition of this name, and its length is what is in `*size`. -/
def PartitionLoaded (bdev : Option D) (partitionName : Option (List UInt8)) (size : Option UInt32) (written : Buffer) : Prop :=
  ∃ dev name entry info, bdev = some dev ∧ partitionName = some name ∧ namedPartition world dev name = some (entry, info) ∧
    Holds written (partitionContent world dev info) info.totalSize.toNat ∧ ∀ n ∈ size, n.toNat = info.totalSize.toNat

def FileLoaded (handle : Handle D) (filePath : Option (List UInt8)) (size : Option UInt32) (written : Buffer) : Prop :=
  ∃ mount path file length, handle.mountPath = some mount ∧ filePath = some path ∧
    world.openFile (mount ++ path) = some file ∧ file.stat = some length ∧
    Holds written file.content length.toNat ∧ ∀ n ∈ size, n.toNat = length.toNat

def PartitionComplete (bdev : Option D) (partitionName : Option (List UInt8)) (size : Option UInt32) (ended : Ended) : Prop :=
  ended.result = .ok () →
    PartitionLoaded world bdev partitionName ended.size ended.written ∧ ∀ n ∈ size, Within ended.written n.toNat

def Complete (handle : Option (Handle D)) (filePath partitionName : Option (List UInt8)) (size : UInt32) (ended : FmEnded) : Prop :=
  ended.result = .ok () → (∃ h, handle = some h ∧
      if ended.fromFs then FileLoaded world h filePath ended.size ended.written
      else PartitionLoaded world h.bdev partitionName ended.size ended.written) ∧ Within ended.written size.toNat

/-- The partition is found, its length in 32 bits is not 0 and fits, and the read of that length succeeds. -/
structure Loads (dev : D) (name : List UInt8) (loadAddress : Nat) (size : Option UInt32) (info : PartitionInfo) : Prop where
  found : ∃ entry, namedPartition world dev name = some (entry, info)
  address : loadAddress ≠ 0
  some_bytes : info.totalSize.toUInt32 ≠ 0
  room : ∀ n ∈ size, info.totalSize.toUInt32 ≤ n
  read : (world.storage.read (world.record dev) (startByte info (world.record dev)) info.totalSize.toUInt32.toUInt64).1 = .ok ()

def Small (bdev : Option D) (partitionName : Option (List UInt8)) (loadAddress : Nat) (size : Option UInt32) : Prop :=
  ∀ dev name info, bdev = some dev → partitionName = some name → Loads world dev name loadAddress size info →
    info.totalSize.toNat < 2 ^ 32

structure Asked (handle : Handle D) (filePath : Option (List UInt8)) (size : UInt32) (file : File) (length : UInt64) : Prop where
  opened : ∃ mount path, handle.mountPath = some mount ∧ filePath = some path ∧ mount.length + path.length < 200 ∧
    world.openFile (mount ++ path) = some file
  stat : file.stat = some length
  room : length ≤ size.toUInt64

structure Sound (handle : Handle D) (filePath partitionName : Option (List UInt8)) (loadAddress : Nat) (size : UInt32) : Prop where
  file : ∀ file length, Asked world handle filePath size file length → 0 ≤ statusOf (file.read length).status →
    Holds (file.read length).written file.content length.toNat ∧ Within (file.read length).written size.toNat
  named : partitionName = none → filePath ≠ none ∧ handle.mountPath ≠ none
  partition : (∀ file length, Asked world handle filePath size file length → statusOf (file.read length).status < 0) →
    Small world handle.bdev partitionName loadAddress (some size) ∧
      ((∃ dev name info, handle.bdev = some dev ∧ partitionName = some name ∧ Loads world dev name loadAddress (some size) info) →
        ∀ file length, Asked world handle filePath size file length → Within (file.read length).written size.toNat)

variable {world} {dev : D} {name : List UInt8} {bdev : Option D} {partitionName filePath : Option (List UInt8)}
variable {loadAddress : Nat} {info : PartitionInfo} {written before : Buffer}

theorem holds_append {content : Nat → UInt8} {n : Nat} (holds : Holds written content n) : Holds (before ++ written) content n :=
  fun x less => Piece.held_append (holds x less)

theorem within_append {n : Nat} : Within (before ++ written) n ↔ Within before n ∧ Within written n := List.forall_mem_append

theorem within_mono {m n : Nat} (within : Within written m) (le : m ≤ n) : Within written n := fun p member =>
  (within p member).imp_right fun fits => Nat.le_trans fits le

variable {entry : StorageInfo D}

theorem bdev_of_named (found : namedPartition world dev name = some (entry, info)) : entry.bdev = dev := by
  obtain ⟨list, -, found⟩ := Option.bind_eq_some_iff.mp found
  obtain ⟨other, -, found⟩ := List.exists_of_findSome?_eq_some found
  obtain ⟨candidate, first, same⟩ := Option.map_eq_some_iff.mp found
  obtain ⟨rfl, rfl⟩ := Prod.mk.inj same
  have fits := List.find?_some first
  simp only [Bool.and_eq_true, decide_eq_true_eq] at fits
  exact fits.1

theorem lookup_named {p : Partition} (found : namedPartition world dev name = some (entry, info)) :
    tegrablPartitionLookupBdev world.record world.registry (some name) (some p) (some dev) =
      (.ok (), some ⟨some info, some (world.record dev), 0⟩) := by
  have same := bdev_of_named found
  obtain ⟨list, stored, found⟩ := Option.bind_eq_some_iff.mp found
  simp only [tegrablPartitionLookupBdev, stored, found, fillPartition, same]

theorem lookup_missing {p : Partition} (missing : namedPartition world dev name = none) :
    ∃ e q, tegrablPartitionLookupBdev world.record world.registry (some name) (some p) (some dev) = (.error e, q) := by
  cases stored : world.registry.storageList with
  | none => simp [tegrablPartitionLookupBdev, stored]
  | some list =>
    rw [namedPartition, stored, Option.bind_some] at missing
    simp [tegrablPartitionLookupBdev, stored, missing, fillPartition]

omit [DecidableEq D] in
theorem partitionRead_eq {d : Blockdev.Bdev} {n : UInt64} (address : loadAddress ≠ 0) (some_bytes : n ≠ 0) (room : n ≤ info.totalSize) :
    let read := world.storage.read d (startByte info d) n
    let ended := tegrablPartitionRead world.storage.io (some ⟨some info, some d, 0⟩) loadAddress n written
    ended.result = read.1.mapError .device ∧ ended.rest = written ++ read.2 := by
  have fits : ¬ info.totalSize < n + 0 := by simpa using room
  have refused : ¬ (loadAddress = 0 ∨ n = 0) := not_or.mpr ⟨address, some_bytes⟩
  intro read ended
  have run : (world.storage.io.read d loadAddress (0 + startByte info d) n).run written = (read.1, written ++ read.2) := by
    rw [UInt64.zero_add]
    rfl
  simp only [ended, tegrablPartitionRead, if_neg refused, if_neg fits, run]
  cases read.1 with
  | error e => exact ⟨rfl, rfl⟩
  | ok => exact ⟨rfl, rfl⟩

theorem toUInt64_le (n : UInt64) : n.toUInt32.toUInt64 ≤ n := by
  rw [UInt64.le_iff_toNat_le, UInt32.toNat_toUInt64, UInt64.toNat_toUInt32]
  exact Nat.mod_le _ _

theorem toUInt64_ne_zero {n : UInt32} (some_bytes : n ≠ 0) : n.toUInt64 ≠ 0 := by
  intro zero
  refine some_bytes (UInt32.toNat_inj.mp ?_)
  rw [← UInt32.toNat_toUInt64, zero]
  rfl

variable {size : Option UInt32}

theorem room_iff {n : UInt32} : ¬ tooSmall size n ↔ ∀ m ∈ size, n ≤ m := by
  simp only [tooSmall, not_exists, not_and, UInt32.not_lt, Option.mem_def]

def partitionLoad (world : World D) (dev : D) (info : PartitionInfo) : Except Blockdev.Error Unit × Buffer :=
  world.storage.read (world.record dev) (startByte info (world.record dev)) info.totalSize.toUInt32.toUInt64

theorem tegrablFmReadPartition_named (size : Option UInt32)
    (found : namedPartition world dev name = some (entry, info)) (address : loadAddress ≠ 0)
    (some_bytes : info.totalSize.toUInt32 ≠ 0) (room : ∀ n ∈ size, info.totalSize.toUInt32 ≤ n) :
    tegrablFmReadPartition world (some dev) (some name) loadAddress size before =
      match (partitionLoad world dev info).1 with
      | .error e => ⟨.error (.partition (.device e)), size, before ++ (partitionLoad world dev info).2⟩
      | .ok () => ⟨.ok (), size.map fun _ => info.totalSize.toUInt32, before ++ (partitionLoad world dev info).2⟩ := by
  have given : ¬ (some dev = none ∨ some name = none ∨ loadAddress = 0) := by simp [address]
  obtain ⟨result, rest⟩ := @partitionRead_eq D world loadAddress info before (world.record dev) _ address
    (toUInt64_ne_zero some_bytes) (toUInt64_le info.totalSize)
  simp only [tegrablFmReadPartition, if_neg given, lookup_named found, Option.bind_some, Option.elim_some, if_neg some_bytes,
    result, rest]
  rw [if_neg (room_iff.mpr room), partitionLoad]
  cases (world.storage.read (world.record dev) (startByte info (world.record dev)) info.totalSize.toUInt32.toUInt64).1 <;> rfl

theorem tegrablFmReadPartition_loads (loads : Loads world dev name loadAddress size info) :
    tegrablFmReadPartition world (some dev) (some name) loadAddress size before =
      ⟨.ok (), size.map fun _ => info.totalSize.toUInt32, before ++ (partitionLoad world dev info).2⟩ := by
  obtain ⟨⟨entry, found⟩, address, some_bytes, room, read⟩ := loads
  rw [tegrablFmReadPartition_named size found address some_bytes room, partitionLoad, read]

theorem loads_of_ok
    (done : (tegrablFmReadPartition world bdev partitionName loadAddress size before).result = .ok ()) :
    ∃ dev name info, bdev = some dev ∧ partitionName = some name ∧ Loads world dev name loadAddress size info := by
  have whole := done
  unfold tegrablFmReadPartition at done
  split at done
  · cases done
  · rename_i given
    simp only [not_or] at given
    obtain ⟨some_dev, some_name, address⟩ := given
    obtain ⟨dev, rfl⟩ := Option.ne_none_iff_exists'.mp some_dev
    obtain ⟨name, rfl⟩ := Option.ne_none_iff_exists'.mp some_name
    cases named : namedPartition world dev name with
    | none =>
      obtain ⟨e, q, missing⟩ := lookup_missing named
      rw [missing] at done
      cases done
    | some found =>
      obtain ⟨entry, info⟩ := found
      rw [lookup_named named] at done
      dsimp only at done
      split at done
      · cases done
      · rename_i some_bytes
        split at done
        · cases done
        · rename_i room
          have fits := room_iff.mp room
          rw [tegrablFmReadPartition_named size named address some_bytes fits] at whole
          cases read : (partitionLoad world dev info).1 with
          | error e =>
            rw [read] at whole
            cases whole
          | ok => exact ⟨dev, name, info, rfl, rfl, ⟨entry, named⟩, address, some_bytes, fits, read⟩

omit [DecidableEq D] in
theorem partitionLoad_within (world : World D) (dev : D) (info : PartitionInfo) :
    Within (partitionLoad world dev info).2 info.totalSize.toUInt32.toNat := by
  have inside := world.storage.inside (world.record dev) (startByte info (world.record dev)) info.totalSize.toUInt32.toUInt64
  rwa [UInt32.toNat_toUInt64] at inside

theorem loaded_of_small (loads : Loads world dev name loadAddress size info)
    (small : info.totalSize.toNat < 2 ^ 32) :
    PartitionLoaded world (some dev) (some name) (size.map fun _ => info.totalSize.toUInt32)
      (before ++ (partitionLoad world dev info).2) := by
  have exact : info.totalSize.toUInt32.toNat = info.totalSize.toNat := by
    rw [UInt64.toNat_toUInt32, Nat.mod_eq_of_lt small]
  obtain ⟨⟨entry, found⟩, -, -, -, read⟩ := loads
  have filled := world.storage.filled _ _ _ read
  rw [UInt32.toNat_toUInt64, exact] at filled
  refine ⟨dev, name, entry, info, rfl, rfl, found, holds_append filled, fun n member => ?_⟩
  obtain ⟨m, -, rfl⟩ := Option.map_eq_some_iff.mp member
  exact exact

theorem small_of_loaded (loads : Loads world dev name loadAddress size info)
    (loaded : PartitionLoaded world (some dev) (some name) (size.map fun _ => info.totalSize.toUInt32)
      (before ++ (partitionLoad world dev info).2)) (alone : before = [] ∨ size ≠ none) : info.totalSize.toNat < 2 ^ 32 := by
  obtain ⟨entry, found⟩ := loads.found
  obtain ⟨dev', name', entry', info', sameDev, sameName, found', holds, length⟩ := loaded
  obtain rfl := Option.some.inj sameDev
  obtain rfl := Option.some.inj sameName
  obtain ⟨-, rfl⟩ := Prod.mk.inj (Option.some.inj (found.symm.trans found'))
  have bound := info.totalSize.toUInt32.toNat_lt
  cases size with
  | some n => exact length _ rfl ▸ bound
  | none =>
    obtain rfl := alone.resolve_right (not_not.mpr rfl)
    by_contra large
    have last := holds info.totalSize.toUInt32.toNat (by omega)
    obtain ⟨p, member, cover, -⟩ := Piece.exists_of_held last
    exact Nat.lt_irrefl _ (Piece.inside_iff.mp (partitionLoad_within world dev info p member) _ cover)

theorem partition_complete_iff (world : World D) (bdev : Option D) (partitionName : Option (List UInt8)) (loadAddress : Nat)
    (size : Option UInt32) :
    PartitionComplete world bdev partitionName size (tegrablFmReadPartition world bdev partitionName loadAddress size []) ↔
      Small world bdev partitionName loadAddress size := by
  constructor
  · intro complete dev name info sameDev sameName loads
    subst sameDev sameName
    rw [tegrablFmReadPartition_loads loads] at complete
    exact small_of_loaded loads (complete rfl).1 (.inl rfl)
  · intro small done
    obtain ⟨dev, name, info, rfl, rfl, loads⟩ := loads_of_ok done
    rw [tegrablFmReadPartition_loads loads]
    refine ⟨loaded_of_small loads (small dev name info rfl rfl loads), fun n member => ?_⟩
    exact within_mono (partitionLoad_within world dev info) (UInt32.le_iff_toNat_le.mp (loads.room n member))

end

section
variable {D : Type} [DecidableEq D] {world : World D} {partitionName filePath : Option (List UInt8)} {loadAddress : Nat}
  {size : UInt32} {handle : Handle D}

omit [DecidableEq D] in
theorem readFile_asked {mount path : List UInt8} {file : File} {length : UInt64}
    (mounted : handle.mountPath = some mount) (asked : Asked world handle (some path) size file length) :
    readFile world mount path size =
      if statusOf (file.read length).status < 0 then (.error (.own .readFailed 1), (file.read length).written)
      else (.ok length.toUInt32, (file.read length).written) := by
  obtain ⟨⟨mount', path', mounted', given, short, opened⟩, stat, room⟩ := asked
  obtain rfl := Option.some.inj (mounted.symm.trans mounted')
  obtain rfl := Option.some.inj given
  simp [readFile, Nat.not_le.mpr short, opened, stat, UInt64.not_lt.mpr room]

omit [DecidableEq D] in
theorem readFile_unasked {mount path : List UInt8}
    (mounted : handle.mountPath = some mount) (unasked : ¬ ∃ file length, Asked world handle (some path) size file length) :
    ∃ e, readFile world mount path size = (.error e, []) := by
  unfold readFile
  split
  · exact ⟨_, rfl⟩
  · rename_i short
    split
    · exact ⟨_, rfl⟩
    · rename_i file opened
      split
      · exact ⟨_, rfl⟩
      · rename_i length stat
        split
        · exact ⟨_, rfl⟩
        · rename_i room
          exact absurd ⟨file, length, ⟨mount, path, mounted, rfl, Nat.not_le.mp short, opened⟩, stat, UInt64.not_lt.mp room⟩ unasked

theorem fallback_complete_iff (h : Handle D) (size : UInt32) (err : Except Error Unit) :
    Complete world (some h) filePath partitionName size (loadFromPartition world h partitionName loadAddress size err before) ↔
      (partitionName = none → err ≠ .ok ()) ∧ Small world h.bdev partitionName loadAddress (some size) ∧
        ((∃ dev name info, h.bdev = some dev ∧ partitionName = some name ∧ Loads world dev name loadAddress (some size) info) →
          Within before size.toNat) := by
  cases partitionName with
  | none =>
    constructor
    · intro complete
      refine ⟨fun _ done => ?_, nofun, nofun⟩
      obtain ⟨⟨h', -, loaded⟩, -⟩ := complete done
      obtain ⟨dev, name, entry, info, -, given, -⟩ := loaded
      cases given
    · intro conditions done
      exact absurd done (conditions.1 rfl)
  | some name =>
    constructor
    · intro complete
      have each : ∀ dev info, h.bdev = some dev → Loads world dev name loadAddress (some size) info →
          info.totalSize.toNat < 2 ^ 32 ∧ Within before size.toNat := by
        intro dev info sameDev loads
        simp only [Complete, loadFromPartition, sameDev, tegrablFmReadPartition_loads loads] at complete
        obtain ⟨⟨h', same, loaded⟩, within⟩ := complete trivial
        obtain rfl := Option.some.inj same
        rw [if_neg Bool.false_ne_true, sameDev] at loaded
        exact ⟨small_of_loaded loads loaded (.inr nofun), (within_append.mp within).1⟩
      refine ⟨nofun, ?_, ?_⟩
      · rintro dev _ info sameDev ⟨⟩ loads
        exact (each dev info sameDev loads).1
      · rintro ⟨dev, _, info, sameDev, ⟨⟩, loads⟩
        exact (each dev info sameDev loads).2
    · intro ⟨_, small, within⟩ done
      obtain ⟨dev, _, info, sameDev, ⟨⟩, loads⟩ := loads_of_ok done
      have loaded := @loaded_of_small D _ world dev name loadAddress info before _ loads (small dev name info sameDev rfl loads)
      have room := UInt32.le_iff_toNat_le.mp (loads.room size rfl)
      simp only [loadFromPartition, sameDev, tegrablFmReadPartition_loads loads]
      refine ⟨⟨h, rfl, ?_⟩, within_append.mpr ⟨within ⟨dev, name, info, sameDev, rfl, loads⟩, ?_⟩⟩
      · rw [if_neg Bool.false_ne_true, sameDev]
        exact loaded
      · exact within_mono (partitionLoad_within world dev info) room

omit [DecidableEq D] in
theorem asked_inj {file file' : File} {length length' : UInt64}
    (asked : Asked world handle filePath size file length) (asked' : Asked world handle filePath size file' length') :
    file = file' ∧ length = length' := by
  obtain ⟨⟨mount, path, mounted, given, -, opened⟩, stat, -⟩ := asked
  obtain ⟨⟨mount', path', mounted', given', -, opened'⟩, stat', -⟩ := asked'
  obtain rfl := Option.some.inj (mounted.symm.trans mounted')
  obtain rfl := Option.some.inj (given.symm.trans given')
  obtain rfl := Option.some.inj (opened.symm.trans opened')
  exact ⟨rfl, Option.some.inj (stat.symm.trans stat')⟩

theorem within_nil (n : Nat) : Within [] n := fun _ member => absurd member List.not_mem_nil

theorem sound_unread {h : Handle D}
    (unread : ∀ file length, Asked world h filePath size file length → statusOf (file.read length).status < 0) :
    Sound world h filePath partitionName loadAddress size ↔
      (partitionName = none → filePath ≠ none ∧ h.mountPath ≠ none) ∧
        Small world h.bdev partitionName loadAddress (some size) ∧
        ((∃ dev name info, h.bdev = some dev ∧ partitionName = some name ∧ Loads world dev name loadAddress (some size) info) →
          ∀ file length, Asked world h filePath size file length → Within (file.read length).written size.toNat) := by
  constructor
  · intro sound
    exact ⟨sound.named, sound.partition unread⟩
  · intro ⟨named, partition⟩
    exact ⟨fun file length asked good => absurd (unread file length asked) (Int32.not_lt.mpr good), named, fun _ => partition⟩

theorem sound_of_file {h : Handle D} {file : File} {length : UInt64}
    (asked : Asked world h filePath size file length) (good : 0 ≤ statusOf (file.read length).status) :
    Sound world h filePath partitionName loadAddress size ↔
      Holds (file.read length).written file.content length.toNat ∧ Within (file.read length).written size.toNat := by
  constructor
  · intro sound
    exact sound.file file length asked good
  · intro complete
    obtain ⟨mount, path, mounted, given, -⟩ := asked.opened
    refine ⟨?_, fun _ => ⟨by rw [given]; nofun, by rw [mounted]; nofun⟩, ?_⟩
    · intro file' length' asked' _
      obtain ⟨rfl, rfl⟩ := asked_inj asked asked'
      exact complete
    · intro unread
      exact absurd (unread file length asked) (Int32.not_lt.mpr good)

theorem fmRead_complete_iff (h : Handle D) (filePath partitionName : Option (List UInt8)) (loadAddress : Nat) (size : UInt32) :
    Complete world (some h) filePath partitionName size (tegrablFmRead world (some h) filePath partitionName loadAddress size) ↔
      Sound world h filePath partitionName loadAddress size := by
  by_cases given : filePath ≠ none ∧ h.mountPath ≠ none
  · obtain ⟨some_path, mounted⟩ := given
    obtain ⟨path, rfl⟩ := Option.ne_none_iff_exists'.mp some_path
    obtain ⟨mount, mounted⟩ := Option.ne_none_iff_exists'.mp mounted
    have both : partitionName = none → some path ≠ none ∧ h.mountPath ≠ none := fun _ => ⟨nofun, by rw [mounted]; nofun⟩
    by_cases some_asked : ∃ file length, Asked world h (some path) size file length
    · obtain ⟨file, length, asked⟩ := some_asked
      have read := readFile_asked mounted asked
      by_cases bad : statusOf (file.read length).status < 0
      · rw [if_pos bad] at read
        have unread : ∀ file length, Asked world h (some path) size file length → statusOf (file.read length).status < 0 := by
          intro file' length' asked'
          obtain ⟨rfl, rfl⟩ := asked_inj asked asked'
          exact bad
        have run : tegrablFmRead world (some h) (some path) partitionName loadAddress size =
            loadFromPartition world h partitionName loadAddress size (.error (.own .readFailed 1)) (file.read length).written := by
          simp only [tegrablFmRead, mounted, read]
        rw [run, fallback_complete_iff, sound_unread unread]
        constructor
        · rintro ⟨-, small, within⟩
          refine ⟨both, small, fun loads file' length' asked' => ?_⟩
          obtain ⟨rfl, rfl⟩ := asked_inj asked asked'
          exact within loads
        · rintro ⟨-, small, within⟩
          exact ⟨fun _ => nofun, small, fun loads => within loads file length asked⟩
      · rw [if_neg bad] at read
        have good := Int32.not_lt.mp bad
        have exact_length : length.toUInt32.toNat = length.toNat := by
          have room := UInt64.le_iff_toNat_le.mp asked.room
          rw [UInt32.toNat_toUInt64] at room
          have bound := size.toNat_lt
          rw [UInt64.toNat_toUInt32, Nat.mod_eq_of_lt (by omega)]
        have run : tegrablFmRead world (some h) (some path) partitionName loadAddress size =
            ⟨⟨.ok (), length.toUInt32, (file.read length).written⟩, true⟩ := by
          simp only [tegrablFmRead, mounted, read]
        rw [run, sound_of_file asked good]
        constructor
        · intro complete
          obtain ⟨⟨h', same, loaded⟩, within⟩ := complete rfl
          obtain rfl := Option.some.inj same
          obtain ⟨mount', path', file', length', mounted', given', opened', stat', holds, -⟩ := loaded
          obtain ⟨mount'', path'', mounted'', given'', short, opened⟩ := asked.opened
          obtain rfl := Option.some.inj (mounted'.symm.trans mounted'')
          obtain rfl := Option.some.inj (given'.symm.trans given'')
          obtain rfl := Option.some.inj (opened'.symm.trans opened)
          obtain rfl := Option.some.inj (stat'.symm.trans asked.stat)
          exact ⟨holds, within⟩
        · rintro ⟨holds, within⟩ _
          obtain ⟨mount', path', mounted', given', -, opened⟩ := asked.opened
          refine ⟨⟨h, rfl, mount', path', file, length, mounted', given', opened, asked.stat, holds, fun n member => ?_⟩, within⟩
          obtain rfl := Option.some.inj member
          exact exact_length
    · obtain ⟨e, read⟩ := readFile_unasked mounted some_asked
      have run : tegrablFmRead world (some h) (some path) partitionName loadAddress size =
          loadFromPartition world h partitionName loadAddress size (.error e) [] := by
        simp only [tegrablFmRead, mounted, read]
      rw [run, fallback_complete_iff, sound_unread fun file length asked => absurd ⟨file, length, asked⟩ some_asked]
      constructor
      · rintro ⟨-, small, -⟩
        exact ⟨both, small, fun _ file length asked => absurd ⟨file, length, asked⟩ some_asked⟩
      · rintro ⟨-, small, -⟩
        exact ⟨fun _ => nofun, small, fun _ => within_nil _⟩
  · have run : tegrablFmRead world (some h) filePath partitionName loadAddress size =
        loadFromPartition world h partitionName loadAddress size (.ok ()) [] := by
      unfold tegrablFmRead
      dsimp only
      split
      · rename_i mounted
        exact absurd ⟨nofun, by rw [mounted]; nofun⟩ given
      · rfl
    have some_asked : ¬ ∃ file length, Asked world h filePath size file length := by
      rintro ⟨file, length, ⟨mount, path, mounted, rfl, -⟩, -⟩
      exact given ⟨nofun, by rw [mounted]; nofun⟩
    rw [run, fallback_complete_iff, sound_unread fun file length asked => absurd ⟨file, length, asked⟩ some_asked]
    constructor
    · rintro ⟨named, small, -⟩
      exact ⟨fun none => absurd rfl (named none), small, fun _ file length asked => absurd ⟨file, length, asked⟩ some_asked⟩
    · rintro ⟨named, small, -⟩
      exact ⟨fun none => absurd (named none) given, small, fun _ => within_nil _⟩

end

section
open Ext4

variable (fs : Ext2) (dev : Device) (inode : Inode) (disk : UInt64 → UInt8) (size : UInt64)

def ext4File (content : Nat → UInt8) : File where
  stat := some size
  content := content
  read len :=
    let read := ext4ReadFile fs dev inode 0 len.toNat
    ⟨match read.2 with | .ok n => Int64.ofNat n | .error _ => -1,
      read.1.map fun p => ⟨p.dest, p.len, fun i => disk (p.item i)⟩⟩

variable {fs dev inode disk size} {content : Nat → UInt8}

theorem held_map {α β : Type} (f : α → β) (ps : List (Piece α)) (x : Nat) :
    Piece.held (ps.map fun p => ⟨p.dest, p.len, fun i => f (p.item i)⟩) x = (Piece.held ps x).map f := by
  induction ps using List.reverseRecOn with
  | nil => rfl
  | append_singleton ps p ih =>
    rw [List.map_append, List.map_singleton, Piece.held_concat, Piece.held_concat, Piece.put, Piece.put]
    by_cases cover : p.Covers x
    · rw [if_pos cover, if_pos (show Piece.Covers ⟨p.dest, p.len, fun i => f (p.item i)⟩ x from cover), Option.map_some]
    · rw [if_neg cover, if_neg (show ¬ Piece.Covers ⟨p.dest, p.len, fun i => f (p.item i)⟩ x from cover), ih]

variable (fs dev inode disk size content) in
/-- A well-formed file of which each byte is read to its place. -/
structure Readable : Prop where
  formed : WellFormed fs dev inode 0 size.toNat
  fits : Fits fs dev inode 0 size.toNat
  plain : Plain fs dev inode
  mapped : ∀ x addr, Maps fs dev inode x addr → content x = disk addr

theorem Readable.held (readable : Readable fs dev inode disk size content) {x : Nat}
    (inside : x < fileBlocks fs size.toNat * fs.blockSize) :
    Piece.held ((ext4File fs dev inode disk size content).read size).written x = some (content x) := by
  have block : x / fs.blockSize < fileBlocks fs size.toNat := (Nat.div_lt_iff_lt_mul fs.blockSize_pos).mpr inside
  obtain ⟨e, member, low, high⟩ := readable.formed.tiles.exists_cover (Nat.zero_le _) block
  have mapped := maps_of_mem member ((in_blocks fs _ _ x).mpr ⟨low, high⟩)
  change Piece.held (List.map _ _) x = _
  rw [held_map disk, held_eq readable.formed readable.plain mapped, Option.map_some, readable.mapped x _ mapped]

theorem Readable.holds (readable : Readable fs dev inode disk size content) :
    Holds ((ext4File fs dev inode disk size content).read size).written content size.toNat := by
  intro x less
  have whole := Nat.div_add_mod (size.toNat + fs.blockSize - 1) fs.blockSize
  have rest := Nat.mod_lt (size.toNat + fs.blockSize - 1) fs.blockSize_pos
  rw [Nat.mul_comm] at whole
  refine readable.held ?_
  rw [fileBlocks]
  omega

theorem Readable.within_iff (readable : Readable fs dev inode disk size content) {room : Nat} :
    Within ((ext4File fs dev inode disk size content).read size).written room ↔
      fileBlocks fs size.toNat * fs.blockSize ≤ room := by
  constructor
  · intro within
    by_contra short
    -- The last byte of the last block arrives, too.
    have last : fileBlocks fs size.toNat * fs.blockSize - 1 < fileBlocks fs size.toNat * fs.blockSize := by omega
    obtain ⟨p, member, covers, -⟩ := Piece.exists_of_held (readable.held last)
    have below := Piece.inside_iff.mp (within p member) _ covers
    omega
  · intro room p member
    obtain ⟨q, found, rfl⟩ := List.mem_map.mp member
    have inside : q.Inside (fileBlocks fs size.toNat * fs.blockSize) := inside_iff_fits.mpr readable.fits q found
    exact inside.imp_right fun le => Nat.le_trans le room

end

section
variable {D : Type} [DecidableEq D] {world : World D}

/-- A read of a file or a partition is complete exactly under these conditions. Of a readable `ext4` file they ask for room
up to the end of its last block. -/
theorem tegrablFm_complete_iff (world : World D) (handle : Option (Handle D)) (bdev : Option D)
    (filePath partitionName : Option (List UInt8)) (loadAddress : Nat) (size : UInt32) (room : Option UInt32) :
    (Complete world handle filePath partitionName size
        (tegrablFmRead world handle filePath partitionName loadAddress size) ↔
      ∀ h, handle = some h → Sound world h filePath partitionName loadAddress size) ∧
    (∀ h fs dev inode disk length content, handle = some h → Readable fs dev inode disk length content →
      Asked world h filePath size (ext4File fs dev inode disk length content) length →
      0 ≤ statusOf ((ext4File fs dev inode disk length content).read length).status →
      (Complete world handle filePath partitionName size
          (tegrablFmRead world handle filePath partitionName loadAddress size) ↔
        Ext4.fileBlocks fs length.toNat * fs.blockSize ≤ size.toNat)) ∧
    (PartitionComplete world bdev partitionName room
        (tegrablFmReadPartition world bdev partitionName loadAddress room []) ↔
      Small world bdev partitionName loadAddress room) := by
  refine ⟨?_, ?_, partition_complete_iff world bdev partitionName loadAddress room⟩
  · cases handle with
    | none => exact ⟨fun _ => nofun, fun _ => nofun⟩
    | some h =>
      rw [fmRead_complete_iff]
      exact ⟨fun sound _ same => Option.some.inj same ▸ sound, fun sound => sound h rfl⟩
  · rintro h fs dev inode disk length content rfl readable asked good
    rw [fmRead_complete_iff, sound_of_file asked good, ← readable.within_iff]
    exact and_iff_right readable.holds

end

def zeros : Storage where
  byte _ _ := 0
  read _ _ len := (.ok (), [⟨0, len.toNat, fun _ => 0⟩])
  inside _ _ len p member := by
    rw [List.mem_singleton.mp member]
    exact .inr (Nat.le_of_eq (Nat.zero_add _))
  filled _ _ len _ x less := by
    change Piece.put (Piece.held []) _ x = _
    exact Piece.put_covered ⟨Nat.zero_le _, by rwa [Nat.zero_add]⟩

def bigPartition : PartitionInfo := ⟨[75], [], [], 34, 8388609, 0x100000200⟩

def shortFile : File :=
  ext4File Ext4.smallBlocks Ext4.twoLeafDevice ⟨0x81A4, 0x80000, Ext4.leafAt 10⟩ (fun _ => 0) 100 fun _ => 0

def smallWorld : World Unit where
  record _ := ⟨0, 0, 0, 9, 0x1000000, 8⟩
  registry := ⟨some [⟨(), [bigPartition]⟩], fun _ => true⟩
  storage := zeros
  openFile _ := some shortFile

theorem bigPartition_loads : Loads smallWorld () [75] 0x80000000 (some 512) bigPartition where
  found := ⟨⟨(), [bigPartition]⟩, by decide⟩
  address := by decide
  some_bytes := by decide
  room n member := by
    obtain rfl := Option.some.inj member
    decide
  read := rfl

/-- Success without anything to read, with 512 bytes of a partition, and with 1024 bytes in a buffer of 100. -/
theorem tegrablFm_incomplete :
    ((tegrablFmRead smallWorld (some ⟨some (), none⟩) none none 0x80000000 4096).result = .ok () ∧
      ¬ Complete smallWorld (some ⟨some (), none⟩) none none 4096
        (tegrablFmRead smallWorld (some ⟨some (), none⟩) none none 0x80000000 4096)) ∧
    ((tegrablFmReadPartition smallWorld (some ()) (some [75]) 0x80000000 (some 512) []).result = .ok () ∧
      ¬ PartitionComplete smallWorld (some ()) (some [75]) (some 512)
        (tegrablFmReadPartition smallWorld (some ()) (some [75]) 0x80000000 (some 512) [])) ∧
    ((tegrablFmRead smallWorld (some ⟨some (), some [47]⟩) (some [97]) none 0x80000000 100).result = .ok () ∧
      ¬ Complete smallWorld (some ⟨some (), some [47]⟩) (some [97]) none 100
        (tegrablFmRead smallWorld (some ⟨some (), some [47]⟩) (some [97]) none 0x80000000 100)) := by
  refine ⟨⟨rfl, fun complete => ?_⟩, ⟨?_, fun complete => ?_⟩, ?_, fun complete => ?_⟩
  · exact ((fmRead_complete_iff _ _ _ _ _).mp complete).named rfl |>.1 rfl
  · rw [tegrablFmReadPartition_loads bigPartition_loads]
  · have small := (partition_complete_iff _ _ _ _ _).mp complete () [75] bigPartition rfl rfl bigPartition_loads
    exact absurd small (by decide)
  · decide
  · have asked : Asked smallWorld ⟨some (), some [47]⟩ (some [97]) 100 shortFile 100 :=
      ⟨⟨[47], [97], rfl, rfl, by decide, rfl⟩, rfl, by decide⟩
    have within := (((fmRead_complete_iff _ _ _ _ _).mp complete).file _ _ asked (by decide)).2
    have written : (shortFile.read 100).written.map (fun p => (p.dest, p.len)) = [(0, 1024)] := by decide
    obtain ⟨p, member, same⟩ := List.mem_map.mp (written ▸ List.mem_singleton_self (0, 1024))
    obtain ⟨start, length⟩ := Prod.mk.inj same
    have inside := within p member
    rw [Piece.Inside, start, length] at inside
    exact absurd inside (by decide)

end Cboot.FileManager
