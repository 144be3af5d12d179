import Cboot.Lib.Codec
import Cboot.Utils.Crc32

/-!
The packed structures of `tegrabl_a_b_boot_control.h` and their checksums. `smd_log` is kept as
bytes.
-/

namespace Cboot.Smd
open Lib Utils

def bootChainMagic : UInt32 := 0x43424E00

def bootChainVersionOne : UInt16 := 1
def bootChainVersionRootfsAb : UInt16 := 4
def bootChainVersionUnifyRfBlAb : UInt16 := 5

def bootChainVersionGet (version : UInt16) : UInt16 := version &&& 0xFF

def bootctrlSupportRedundancyUser (version : UInt16) : Bool := version &&& ((1 : UInt16) <<< 9) != 0
def bootctrlSupportRootfsAb (version : UInt16) : Bool := version &&& ((1 : UInt16) <<< 10) != 0
def bootctrlSupportUnifiedAb (version : UInt16) : Bool := version &&& ((1 : UInt16) <<< 13) != 0

def bootctrlFeatureUnifiedAb (version : UInt16) : Bool :=
  decide (bootChainVersionUnifyRfBlAb ≤ bootChainVersionGet version)

def bootctrlIsUnifiedAbEnabled (version : UInt16) : Bool :=
  bootctrlSupportUnifiedAb version && bootctrlSupportRootfsAb version &&
    bootctrlFeatureUnifiedAb version

structure BootSlotInfo where
  priority : UInt8
  suffix : Bytes 2
  retryCount : UInt8
  bootSuccessful : UInt8
  deriving DecidableEq

structure SlotMetaData where
  magic : UInt32
  version : UInt16
  numSlots : UInt16
  slotInfo : BootSlotInfo × BootSlotInfo
  crc32 : UInt32
  deriving DecidableEq

structure SlotMetaDataExt where
  crc32 : UInt32
  crc32Len : UInt32
  magic : UInt32
  version : UInt32
  rootfsSelect : UInt8
  rootfsStatus : UInt8 × UInt8
  rootfsUpdateMode : UInt8 × UInt8
  rootfsMiscInfo : UInt8
  reserved : UInt8 × UInt8
  maxBlRetryCount : UInt8
  smdLog : Bytes 144
  deriving DecidableEq

structure SlotMetaDataV2 where
  smd : SlotMetaData
  smdExt : SlotMetaDataExt
  deriving DecidableEq

def BootSlotInfo.codec : Codec BootSlotInfo :=
  (Codec.u8.pair ((Codec.bytes 2).pair (Codec.u8.pair Codec.u8))).record
    { toFun := fun s => (s.priority, s.suffix, s.retryCount, s.bootSuccessful)
      invFun := fun (priority, suffix, retryCount, bootSuccessful) =>
        ⟨priority, suffix, retryCount, bootSuccessful⟩
      left_inv := fun _ => rfl
      right_inv := fun _ => rfl }

/-- What the first checksum is taken of: everything before `crc32`. -/
def payloadCodec : Codec (UInt32 × UInt16 × UInt16 × BootSlotInfo × BootSlotInfo) :=
  Codec.u32.pair (Codec.u16.pair (Codec.u16.pair (BootSlotInfo.codec.pair BootSlotInfo.codec)))

def SlotMetaData.payload (s : SlotMetaData) : UInt32 × UInt16 × UInt16 × BootSlotInfo × BootSlotInfo :=
  (s.magic, s.version, s.numSlots, s.slotInfo)

def SlotMetaData.codec : Codec SlotMetaData :=
  (payloadCodec.pair Codec.u32).record
    { toFun := fun s => (s.payload, s.crc32)
      invFun := fun ((magic, version, numSlots, slotInfo), crc32) =>
        ⟨magic, version, numSlots, slotInfo, crc32⟩
      left_inv := fun _ => rfl
      right_inv := fun _ => rfl }

/-- What the second checksum is taken of: everything from `crc32_len` on. -/
def extPayloadCodec : Codec (UInt32 × UInt32 × UInt32 × UInt8 × (UInt8 × UInt8) × (UInt8 × UInt8) ×
    UInt8 × (UInt8 × UInt8) × UInt8 × Bytes 144) :=
  Codec.u32.pair (Codec.u32.pair (Codec.u32.pair (Codec.u8.pair ((Codec.u8.pair Codec.u8).pair
    ((Codec.u8.pair Codec.u8).pair (Codec.u8.pair ((Codec.u8.pair Codec.u8).pair
      (Codec.u8.pair (Codec.bytes 144)))))))))

def SlotMetaDataExt.payload (s : SlotMetaDataExt) : UInt32 × UInt32 × UInt32 × UInt8 ×
    (UInt8 × UInt8) × (UInt8 × UInt8) × UInt8 × (UInt8 × UInt8) × UInt8 × Bytes 144 :=
  (s.crc32Len, s.magic, s.version, s.rootfsSelect, s.rootfsStatus, s.rootfsUpdateMode,
    s.rootfsMiscInfo, s.reserved, s.maxBlRetryCount, s.smdLog)

def SlotMetaDataExt.codec : Codec SlotMetaDataExt :=
  (Codec.u32.pair extPayloadCodec).record
    { toFun := fun s => (s.crc32, s.payload)
      invFun := fun (crc32, crc32Len, magic, version, rootfsSelect, rootfsStatus, rootfsUpdateMode,
          rootfsMiscInfo, reserved, maxBlRetryCount, smdLog) =>
        ⟨crc32, crc32Len, magic, version, rootfsSelect, rootfsStatus, rootfsUpdateMode,
          rootfsMiscInfo, reserved, maxBlRetryCount, smdLog⟩
      left_inv := fun _ => rfl
      right_inv := fun _ => rfl }

def SlotMetaDataV2.codec : Codec SlotMetaDataV2 :=
  (SlotMetaData.codec.pair SlotMetaDataExt.codec).record
    { toFun := fun s => (s.smd, s.smdExt)
      invFun := fun (smd, smdExt) => ⟨smd, smdExt⟩
      left_inv := fun _ => rfl
      right_inv := fun _ => rfl }

example : SlotMetaData.codec.width = 22 := rfl
example : SlotMetaDataExt.codec.width = 169 := rfl
example : SlotMetaDataV2.codec.width = 191 := rfl

def SlotMetaDataV2.toBytes (s : SlotMetaDataV2) : List UInt8 := SlotMetaDataV2.codec.encode s

/-- The checksum over the buffer up to the first `crc32`. -/
def smdCrc (s : SlotMetaDataV2) : UInt32 :=
  tegrablUtilsCrc32 0 (s.toBytes.take (SlotMetaData.codec.width - 4))

/-- The checksum over the buffer from `crc32_len` on. -/
def extCrc (s : SlotMetaDataV2) : UInt32 :=
  tegrablUtilsCrc32 0
    ((s.toBytes.drop (SlotMetaData.codec.width + 4)).take (SlotMetaDataExt.codec.width - 4))

theorem smdCrc_eq (s : SlotMetaDataV2) : smdCrc s = tegrablUtilsCrc32 0 (payloadCodec.encode s.smd.payload) := by
  have bytes : s.toBytes = payloadCodec.encode s.smd.payload ++
      (Codec.u32.encode s.smd.crc32 ++ SlotMetaDataExt.codec.encode s.smdExt) :=
    List.append_assoc _ _ _
  have front : (payloadCodec.encode s.smd.payload).length = SlotMetaData.codec.width - 4 :=
    payloadCodec.length_encode _
  unfold smdCrc
  rw [bytes, List.take_left' front]

theorem extCrc_eq (s : SlotMetaDataV2) : extCrc s = tegrablUtilsCrc32 0 (extPayloadCodec.encode s.smdExt.payload) := by
  have bytes : s.toBytes = (SlotMetaData.codec.encode s.smd ++ Codec.u32.encode s.smdExt.crc32) ++
      extPayloadCodec.encode s.smdExt.payload := (List.append_assoc _ _ _).symm
  have front : (SlotMetaData.codec.encode s.smd ++ Codec.u32.encode s.smdExt.crc32).length =
      SlotMetaData.codec.width + 4 := by
    rw [List.length_append, SlotMetaData.codec.length_encode, Codec.u32.length_encode]
    rfl
  have back : (extPayloadCodec.encode s.smdExt.payload).length = SlotMetaDataExt.codec.width - 4 :=
    extPayloadCodec.length_encode _
  unfold extCrc
  rw [bytes, List.drop_left' front, ← back, List.take_length]

end Cboot.Smd
