import Cboot.PartitionManager.Registry

/-!
`lib/fastboot/tegrabl_fastboot_partinfo.c` and `lib/a_b_boot/tegrabl_a_b_partition_naming.c`, in the build with A/B
slots.
-/

namespace Cboot.Fastboot
open PartitionManager Blockdev

abbrev Text := List UInt8

def ascii (s : String) : Text := s.toList.map fun c => c.toNat.toUInt8

def text (chars : List UInt8) : Text := chars.takeWhile (· ≠ 0)

inductive Slot where
  | a
  | b
  deriving DecidableEq, Repr

/-- `BOOT_CHAIN_SUFFIX_A` and `BOOT_CHAIN_SUFFIX_B`. -/
def Slot.suffix : Slot → Text
  | a => ascii "_a"
  | b => ascii "_b"

def tegrablABMatchPartName (partName fullPartName : Text) : Bool :=
  partName.isPrefixOf fullPartName &&
    (partName.length == fullPartName.length ||
      fullPartName.drop partName.length == Slot.a.suffix)

def tegrablABMatchPartNameWithSuffix (partName fullPartName : Text) : Bool :=
  partName.isPrefixOf fullPartName &&
    (fullPartName.length == partName.length ||
      Slot.a.suffix == fullPartName.drop partName.length ||
      Slot.b.suffix == fullPartName.drop partName.length)

/-- `&part[strlen(part) - BOOT_CHAIN_SUFFIX_LEN]`, for a `part` with other characters before it. -/
def lastTwo (before part : Text) : Text := (before ++ part).drop (before.length + part.length - 2)

def tegrablABGetPartSuffix (before part : Text) : Slot :=
  if lastTwo before part = Slot.b.suffix then .b else .a

/-- The places that `strcmp` reads of its first text, which stands at `place`. Both end in a zero. -/
def strcmpReads : Int → List UInt8 → List UInt8 → List Int
  | place, c :: s, d :: t => place :: if c = d ∧ c ≠ 0 then strcmpReads (place + 1) s t else []
  | _, _, _ => []

/-- The places, counted from the start of `part`, that `tegrabl_a_b_get_part_suffix` compares. -/
def suffixReads (before part : Text) : List Int :=
  strcmpReads (part.length - 2) (lastTwo before part ++ [0]) (Slot.b.suffix ++ [0])

structure FastbootPartitionInfo where
  fastbootPartName : Text
  tegraPartName : Text
  tegraPartNameB : Option Text
  fastbootPartType : Text
  deriving DecidableEq, Repr

def fsTypeBasic : Text := ascii "basic"
def fsTypeExt4 : Text := ascii "ext4"

def fastbootPartitionMapTable : List FastbootPartitionInfo := [
  ⟨ascii "recovery", ascii "recovery_a", some (ascii "recovery_b"), fsTypeBasic⟩,
  ⟨ascii "boot", ascii "boot_a", some (ascii "boot_b"), fsTypeBasic⟩,
  ⟨ascii "dtb", ascii "kernel-dtb_a", some (ascii "kernel-dtb_b"), fsTypeBasic⟩,
  ⟨ascii "dtbo", ascii "kernel-dtbo_a", some (ascii "kernel-dtbo_b"), fsTypeBasic⟩,
  ⟨ascii "system", ascii "system_a", some (ascii "system_b"), fsTypeExt4⟩,
  ⟨ascii "userdata", ascii "userdata", none, fsTypeExt4⟩,
  ⟨ascii "vendor", ascii "vendor_a", some (ascii "vendor_b"), fsTypeExt4⟩,
  ⟨ascii "bootlogo", ascii "bootlogo", some (ascii "bootlogo_b"), fsTypeBasic⟩,
  ⟨ascii "rpb", ascii "RPB", none, fsTypeBasic⟩, ⟨ascii "odm", ascii "odm_a", some (ascii "odm_b"), fsTypeExt4⟩,
  ⟨ascii "avb_custom_key", ascii "avb_custom_key", none, fsTypeBasic⟩,
  ⟨ascii "super", ascii "super", none, fsTypeBasic⟩]

def tegrablNvPrivatePartitionList : List Text := [
  ascii "BCT", ascii "MB1_BCT", ascii "mb1", ascii "mts-preboot", ascii "mts-bootpack",
  ascii "sce-fw", ascii "eks", ascii "sc7", ascii "bpmp-fw", ascii "NCT", ascii "primary_gpt", ascii "secondary_gpt"]

/-- `none` is a null pointer. -/
def tegrablFastbootGetTegraPartName (suffix : Slot) (partInfo : FastbootPartitionInfo) : Option Text :=
  match suffix with
  | .b => partInfo.tegraPartNameB
  | .a => some partInfo.tegraPartName

def unlisted (partitionName : Text) : FastbootPartitionInfo :=
  ⟨partitionName, partitionName, some partitionName, fsTypeBasic⟩

def tegrablFastbootGetPartinfo (partitionName : Text) : Option FastbootPartitionInfo :=
  match fastbootPartitionMapTable.find? fun row =>
      tegrablABMatchPartNameWithSuffix row.fastbootPartName partitionName with
  | some row => some row
  | none =>
    if tegrablNvPrivatePartitionList.any (tegrablABMatchPartNameWithSuffix · partitionName) then none
    else some (unlisted partitionName)

/-- `match_partition_name` on the name in a table of partitions. -/
def matchPartitionName (partitionName name : List UInt8) : Bool :=
  tegrablABMatchPartName (text partitionName) name

abbrev Published := Option (List (StorageInfo Bdev))

/-- `tegrabl_partition_open` into a handle of the caller: the handle, `none` if the call fails. -/
def openPartition (published : Published) (name : Option Text) : Option Partition :=
  match tegrablPartitionOpen id matchPartitionName ⟨published, fun _ => false⟩ name
      (some ⟨none, none, 0⟩) with
  | (.ok (), handle) => handle
  | (.error _, _) => none

end Cboot.Fastboot
