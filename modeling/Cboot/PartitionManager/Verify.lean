import Cboot.Utils.Crc32
import Cboot.PartitionManager.Registry

/-!
The verify list of `lib/partition_manager/tegrabl_partition_manager.c`: partitions are enabled for verification, each
gets the size and the CRC-32 of what was written, and `tegrabl_partition_verify_write` reads them back.
-/

namespace Cboot.PartitionManager
open Blockdev Utils

structure VerifyInfo where
  size : UInt64
  crc32 : UInt32
  name : List UInt8
  deriving DecidableEq, Repr

inductive VerifyError where
  | verifyFailed
  | other (e : Error)
  deriving DecidableEq, Repr

structure Verification where
  setVerifyFlag : Bool
  verifyAllPartitions : Bool
  verifyList : List VerifyInfo
  deriving DecidableEq, Repr

/-- `memory` says whether `tegrabl_malloc` succeeds. -/
def tegrablPartitionAddVerifyNode (v : Verification) (name : List UInt8) (memory : Bool) :
    Except Error Unit × Verification :=
  if v.verifyList.any fun entry => sameText entry.name name then (.ok (), v)
  else if ¬ memory then (.error (.own .noMemory 0), v)
  else (.ok (), { v with verifyList := ⟨0, 0, name⟩ :: v.verifyList })

def allText : List UInt8 := [97, 108, 108]

def tegrablPartitionVerifyEnable (v : Verification) (name : List UInt8) (memory : Bool) :
    Except Error Unit × Verification :=
  if sameText name allText then
    (.ok (), { v with verifyAllPartitions := true, setVerifyFlag := true })
  else
    match tegrablPartitionAddVerifyNode v name memory with
    | (.ok _, v) => (.ok (), { v with setVerifyFlag := true })
    | (.error e, v) => (.error e, v)

def modifyFirst (fits : VerifyInfo → Bool) (f : VerifyInfo → List VerifyInfo) :
    List VerifyInfo → Option (List VerifyInfo)
  | [] => none
  | entry :: rest =>
    if fits entry then some (f entry ++ rest)
    else (modifyFirst fits f rest).map (entry :: ·)

def tegrablPartitionSetCrc (v : Verification) (name : List UInt8) (verifyCrc verifySize : UInt32)
    (isSparse : Bool) : Option Verification :=
  (modifyFirst (fun entry => sameText entry.name name)
    (fun entry => if isSparse then []
      else [{ entry with size := verifySize.toUInt64, crc32 := verifyCrc }])
    v.verifyList).map fun list => { v with verifyList := list }

inductive ListOp where
  | enable (name : List UInt8) (memory : Bool)
  | setCrc (name : List UInt8) (verifyCrc verifySize : UInt32)
  deriving DecidableEq, Repr

def ListOp.run (v : Verification) : ListOp → Option Verification
  | enable name memory => some (tegrablPartitionVerifyEnable v name memory).2
  | setCrc name verifyCrc verifySize => tegrablPartitionSetCrc v name verifyCrc verifySize false

def buildList (ops : List ListOp) : Option (List VerifyInfo) :=
  (ops.foldlM ListOp.run ⟨false, false, []⟩).map (·.verifyList)

def readBufferSize : UInt64 := 10 * 1024 * 1024

section
variable {σ : Type}

def bufferBytes (memory : σ → Nat → UInt8) (buffer : Nat) (len : UInt64) (s : σ) : List UInt8 :=
  (List.range len.toNat).map fun i => memory s (buffer + i)

/-- The loop that reads the partition in pieces of `READ_BUFFER_SIZE`. -/
def readCrc (io : Io σ) (memory : σ → Nat → UInt8) (buffer : Nat) :
    Nat → Option Partition → UInt64 → UInt32 → σ → Except Error UInt32 × σ
  | 0, _, _, crc, s => (.ok crc, s)
  | fuel + 1, partition, size, crc, s =>
    if size = 0 then (.ok crc, s)
    else
      let chunkSize := min readBufferSize size
      let done := tegrablPartitionRead io partition buffer chunkSize s
      match done.result with
      | .error e => (.error e, done.rest)
      | .ok _ =>
        readCrc io memory buffer fuel done.partition (size - chunkSize)
          (tegrablUtilsCrc32 crc (bufferBytes memory buffer chunkSize done.rest)) done.rest

def readRounds (size : UInt64) : Nat := size.toNat / readBufferSize.toNat + 1

def readVerifyPartition (io : Io σ) (memory : σ → Nat → UInt8) (partition : Partition)
    (verifyInfo : VerifyInfo) (buffer : Nat) (s : σ) : Except VerifyError Unit × σ :=
  let sought := tegrablPartitionSeek (some partition) partition.offset.toInt64 0 s
  match sought.result with
  | .error e => (.error (.other e), sought.rest)
  | .ok _ =>
    match readCrc io memory buffer (readRounds verifyInfo.size) sought.partition verifyInfo.size 0
        sought.rest with
    | (.error e, s) => (.error (.other e), s)
    | (.ok crc, s) => (if verifyInfo.crc32 = crc then .ok () else .error .verifyFailed, s)

def compareEntry (io : Io σ) (memory : σ → Nat → UInt8) (buffer : Nat) (partition : Partition)
    (entry : VerifyInfo) (s : σ) : Except VerifyError Unit × σ :=
  if entry.crc32 ≠ 0 then readVerifyPartition io memory partition entry buffer s
  else (.error (.other (.own .invalid 18)), s)

/-- How the loop over the list ends: the variable `error`, the variable `verify_status`, what is left
of the list. -/
structure Verified (σ : Type) where
  error : Except VerifyError Unit
  verifyStatus : Bool
  verifyList : List VerifyInfo
  rest : σ

/-- `openPartition` is `tegrabl_partition_open` into the local handle. -/
def verifyEntries (openPartition : List UInt8 → Except Error Partition) (io : Io σ)
    (memory : σ → Nat → UInt8) (buffer : Nat) :
    List VerifyInfo → Except VerifyError Unit → Bool → σ → Verified σ
  | [], error, verifyStatus, s => ⟨error, verifyStatus, [], s⟩
  | entry :: rest, _, verifyStatus, s =>
    match openPartition entry.name with
    | .error e => ⟨.error (.other e), verifyStatus, entry :: rest, s⟩
    | .ok partition =>
      let compared := compareEntry io memory buffer partition entry s
      verifyEntries openPartition io memory buffer rest compared.1
        (verifyStatus || compared.1 == .error .verifyFailed) compared.2

/-- `buffer` is what `tegrabl_memalign` gives. -/
def tegrablPartitionVerifyWrite (openPartition : List UInt8 → Except Error Partition) (io : Io σ)
    (memory : σ → Nat → UInt8) (buffer : Nat) (list : List VerifyInfo) (s : σ) :
    Except VerifyError Unit × List VerifyInfo × σ :=
  if list = [] then (.error (.other (.own .invalid 17)), list, s)
  else if buffer = 0 then (.error (.other (.own .noMemory 0)), list, s)
  else
    let done := verifyEntries openPartition io memory buffer list (.ok ()) false s
    (if done.verifyStatus then .error .verifyFailed else done.error, done.verifyList, done.rest)

end

/-- `tegrabl_partition_open` on the registry, into a handle of the caller. -/
def openIn {D : Type} (record : D → Bdev)
    (matchPartitionName : List UInt8 → List UInt8 → Bool) (r : Registry D) (name : List UInt8) :
    Except Error Partition :=
  let done := tegrablPartitionOpen record matchPartitionName r (some name) (some ⟨none, none, 0⟩)
  done.1.map fun _ => done.2.getD ⟨none, none, 0⟩

end Cboot.PartitionManager
