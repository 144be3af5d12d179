import Cboot.Blockdev.Registry
import Cboot.PartitionManager.Model

/-!
The lists of partitions that `lib/partition_manager/tegrabl_partition_manager.c` keeps for the storage devices.
-/

namespace Cboot.PartitionManager
open Blockdev

section
variable {D : Type}

structure StorageInfo (D : Type) where
  bdev : D
  partitions : List PartitionInfo
  deriving DecidableEq, Repr

/-- `storage_list`, which is null before the first `tegrabl_partition_manager_init`, and the flags of
the devices. -/
structure Registry (D : Type) where
  storageList : Option (List (StorageInfo D))
  published : D → Bool

/-- What the world answers to one attempt to publish a device: what each publisher finds, where a null
publisher is `none`, and whether there is memory for the entry. -/
structure Attempt where
  tables : List (Option (Except Error (List PartitionInfo)))
  memory : Bool

def firstTable : List (Option (Except Error (List PartitionInfo))) → Option (List PartitionInfo)
  | [] => none
  | none :: rest => firstTable rest
  | some (.error _) :: rest => firstTable rest
  | some (.ok partitions) :: _ => some partitions

variable [DecidableEq D]

def Registry.setPublished (r : Registry D) (dev : D) (flag : Bool) : Registry D :=
  { r with published := Function.update r.published dev flag }

/-- There is no answer when the entry is added to a null list. -/
def tegrablPartitionPublish (r : Registry D) (dev : Option D) (attempt : Attempt) :
    Option (Except Error Unit × Registry D) :=
  match dev with
  | none => some (.error (.own .invalid 15), r)
  | some dev =>
    if r.published dev then some (.ok (), r)
    else
      match firstTable attempt.tables with
      | none => some (.error (.own .notSupported 0), r.setPublished dev false)
      | some partitions =>
        if ¬ attempt.memory then some (.error (.own .noMemory 0), r)
        else
          match r.storageList with
          | none => none
          | some list =>
            some (.ok (), { r with storageList := some (⟨dev, partitions⟩ :: list) }.setPublished
              dev true)

def tegrablPartitionsUnpublish (record : D → Bdev) (r : Registry D) (dev : Option D) :
    Except Error Unit × Registry D :=
  match dev with
  | none => (.error (.own .invalid 16), r)
  | some dev =>
    if r.published dev then
      match r.storageList with
      | none => (.error (.own .notInitialized 0), r)
      | some list =>
        let rest := list.eraseP fun entry => (record entry.bdev).deviceId == (record dev).deviceId
        (.ok (), { r with storageList := some rest }.setPublished dev false)
    else (.ok (), r)

def storageSdmmcRpmb : UInt32 := 2

def tegrablBlockdevGetStorageType (dev : Bdev) : UInt32 :=
  min (dev.deviceId >>> 16 &&& 0xFF) storageInvalid

/-- The loop over the devices in the order of `tegrabl_blockdev_next_device`. What
`tegrabl_partition_publish` returns is dropped. -/
def publishAll (record : D → Bdev) (attempts : D → Attempt) : List D → Registry D → Option (Registry D)
  | [], r => some r
  | dev :: devices, r =>
    if tegrablBlockdevGetStorageType (record dev) = storageSdmmcRpmb then
      publishAll record attempts devices r
    else do
      let done ← tegrablPartitionPublish r (some dev) (attempts dev)
      publishAll record attempts devices done.2

def tegrablPartitionManagerInit (record : D → Bdev) (devices : List D) (r : Registry D)
    (memory : Bool) (attempts : D → Attempt) : Option (Except Error Unit × Registry D) :=
  if ¬ memory then some (.error (.own .noMemory 1), { r with storageList := none })
  else do
    let r ← publishAll record attempts devices { r with storageList := some [] }
    return (.ok (), r)

/-- `strcmp(a, b) == 0`. -/
def sameText (a b : List UInt8) : Bool := a.takeWhile (· ≠ 0) == b.takeWhile (· ≠ 0)

def findPartition (fits : StorageInfo D → PartitionInfo → Bool) (list : List (StorageInfo D)) :
    Option (StorageInfo D × PartitionInfo) :=
  list.findSome? fun entry => (entry.partitions.find? (fits entry)).map (entry, ·)

def fillPartition (record : D → Bdev) (found : Option (StorageInfo D × PartitionInfo)) (detail : Nat) :
    Except Error Unit × Option Partition :=
  match found with
  | none => (.error (.own .notFound detail), some ⟨none, none, 0⟩)
  | some (entry, info) => (.ok (), some ⟨some info, some (record entry.bdev), 0⟩)

def tegrablPartitionLookupBdev (record : D → Bdev) (r : Registry D) (name : Option (List UInt8))
    (partition : Option Partition) (bdev : Option D) : Except Error Unit × Option Partition :=
  match name, partition, bdev with
  | some name, some partition, some bdev =>
    match r.storageList with
    | none => (.error (.own .notInitialized 23), partition)
    | some list =>
      fillPartition record
        (findPartition (fun entry info => entry.bdev = bdev && sameText info.name name) list) 22
  | _, _, _ => (.error (.own .invalid 20), partition)

/-- `matchPartitionName` is `strcmp`, or the naming of the A/B slots. -/
def tegrablPartitionOpen (record : D → Bdev) (matchPartitionName : List UInt8 → List UInt8 → Bool)
    (r : Registry D) (name : Option (List UInt8)) (partition : Option Partition) :
    Except Error Unit × Option Partition :=
  match name, partition with
  | some name, some partition =>
    match r.storageList with
    | none => (.error (.own .notInitialized 23), partition)
    | some list =>
      fillPartition record (findPartition (fun _ info => matchPartitionName info.name name) list) 0
  | _, _ => (.error (.own .invalid 19), partition)

end

end Cboot.PartitionManager
