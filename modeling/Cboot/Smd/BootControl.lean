import Cboot.Smd.Model

/-!
The rest of `lib/a_b_boot/tegrabl_a_b_boot_control.c` that decides which slot boots: the two scratch registers, the
choice of the slot, its retry counts and priorities, and `tegrabl_a_b_update_smd`.
-/

namespace Cboot.Smd
open Lib

def slotRetryCountDefault : UInt8 := 7
def slotPriorityDefault : UInt8 := 15
def rootfsAbRotateCount : UInt8 := 4

def bootctrlSupportRedundancy (version : UInt16) : Bool := version &&& ((1 : UInt16) <<< 8) != 0

def bootChainRegMagic : UInt32 := 0xCAFE
def bootChainRegMagicGet (reg : UInt32) : UInt32 := reg &&& 0xFFFF
def bootChainRegMagicSet (reg : UInt32) : UInt32 :=
  (reg &&& ~~~(0xFFFF : UInt32)) ||| bootChainRegMagic

def bootChainRegSlotNumGet (reg : UInt32) : UInt32 := (reg >>> 16) &&& 0x07
def bootChainRegSlotNumSet (slot reg : UInt32) : UInt32 :=
  (reg &&& ~~~((0x07 : UInt32) <<< 16)) ||| ((slot &&& 0x07) <<< 16)

def bootChainRegMaxSlotsSet (maxSlots reg : UInt32) : UInt32 :=
  (reg &&& ~~~((0x07 : UInt32) <<< 19)) ||| ((maxSlots &&& 0x07) <<< 19)

def bootChainRegBRetryCountGet (reg : UInt32) : UInt32 := (reg >>> 22) &&& 0x0F
def bootChainRegBRetryCountSet (count reg : UInt32) : UInt32 :=
  (reg &&& ~~~((0x0F : UInt32) <<< 22)) ||| ((count &&& 0x0F) <<< 22)

def bootChainRegARetryCountGet (reg : UInt32) : UInt32 := (reg >>> 26) &&& 0x0F
def bootChainRegARetryCountSet (count reg : UInt32) : UInt32 :=
  (reg &&& ~~~((0x0F : UInt32) <<< 26)) ||| ((count &&& 0x0F) <<< 26)

def bootChainRegUpdateFlagGet (reg : UInt32) : UInt32 := (reg >>> 30) &&& 0x03
def bootChainRegUpdateFlagSet (flag reg : UInt32) : UInt32 :=
  (reg &&& ~~~((0x03 : UInt32) <<< 30)) ||| ((flag &&& 0x03) <<< 30)

def bcFlagRedundancyBoot : UInt32 := 0x01
def bcFlagOtaOn : UInt32 := 0x03

def rootfsAbRegRotateCountGet (reg : UInt32) : UInt32 := (reg &&& ((0x0F : UInt32) <<< 16)) >>> 16
def rootfsAbRegRotateCountSet (count reg : UInt32) : UInt32 :=
  (reg &&& ~~~((0x0F : UInt32) <<< 16)) ||| ((count &&& 0x0F) <<< 16)

def otherSlot (slot : Nat) : Nat := if slot = 0 then 1 else 0

namespace SlotMetaDataV2

def slot (smd : SlotMetaDataV2) (slot : Nat) : BootSlotInfo :=
  if slot = 0 then smd.smd.slotInfo.1 else smd.smd.slotInfo.2

def modifySlot (smd : SlotMetaDataV2) (slot : Nat) (f : BootSlotInfo → BootSlotInfo) :
    SlotMetaDataV2 :=
  let (a, b) := smd.smd.slotInfo
  { smd with smd := { smd.smd with slotInfo := if slot = 0 then (f a, b) else (a, f b) } }

/-- `slot_info[slot]` for any index: past the array it is what lies behind it, `beyond` being the
memory behind the buffer. -/
def slotInfoAt (smd : SlotMetaDataV2) (beyond : Nat → UInt8) (slot : Nat) : BootSlotInfo :=
  if slot < 2 then smd.slot slot
  else
    let byte := fun i => (smd.toBytes[i]?).getD (beyond (i - SlotMetaDataV2.codec.width))
    BootSlotInfo.codec.decode
      ((List.range BootSlotInfo.codec.width).map fun i => byte (8 + BootSlotInfo.codec.width * slot + i))

end SlotMetaDataV2

def tegrablGetMaxRetryCount (smd : SlotMetaDataV2) : UInt8 :=
  let count :=
    if bootChainVersionGet (tegrablABGetVersion smd) < bootChainVersionRootfsAb then
      slotRetryCountDefault
    else smd.smdExt.maxBlRetryCount
  if count = 0 ∨ slotRetryCountDefault < count then slotRetryCountDefault else count

def getMaxRotateCount (smd : SlotMetaDataV2) : UInt8 :=
  let count := tegrablGetMaxRetryCount smd
  if count * 2 < rootfsAbRotateCount then count * 2 else rootfsAbRotateCount

/-- The loop of `boot_chain_get_bootslot_from_smd` over the first slots: the highest priority of a
bootable slot and that slot. -/
def highestPriority (info : Nat → BootSlotInfo) : Nat → UInt8 × Nat
  | 0 => (0, 0)
  | i + 1 =>
    let best := highestPriority info i
    if (info i).retryCount ≠ 0 ∧ (info i).priority ≠ 0 ∧ best.1 < (info i).priority then
      ((info i).priority, i)
    else best

def bootChainGetBootslotFromSmd (smd : SlotMetaDataV2) (beyond : Nat → UInt8) : Except Error Nat :=
  if smd.smd.magic ≠ bootChainMagic then .error .invalid
  else
    let best := highestPriority (smd.slotInfoAt beyond) smd.smd.numSlots.toNat
    if best.1 = 0 then .error .invalid else .ok best.2

/-- `tegrabl_a_b_get_active_slot` of a buffer. -/
def tegrablABGetActiveSlot (smd : SlotMetaDataV2) (beyond : Nat → UInt8) : Except Error Nat :=
  bootChainGetBootslotFromSmd smd beyond

def tegrablABGetPriority (smd : SlotMetaDataV2) (slot : Nat) : Except Error UInt8 :=
  if maxSlots.toNat ≤ slot then .error .invalid else .ok (smd.slot slot).priority

def tegrablABGetRetryCount (smd : SlotMetaDataV2) (slot : Nat) : Except Error UInt8 :=
  if maxSlots.toNat ≤ slot then .error .invalid else .ok (smd.slot slot).retryCount

def tegrablABIsUnbootable (smd : SlotMetaDataV2) (slot : Nat) : Except Error Bool := do
  let priority ← tegrablABGetPriority smd slot
  let retryCount ← tegrablABGetRetryCount smd slot
  return priority == 0 || retryCount == 0

def tegrablABSetPriority (smd : SlotMetaDataV2) (slot : Nat) (priority : UInt8) :
    Except Error SlotMetaDataV2 :=
  if maxSlots.toNat ≤ slot then .error .invalid
  else .ok (smd.modifySlot slot fun info => { info with priority := priority })

def tegrablABSetRetryCount (smd : SlotMetaDataV2) (slot : Nat) (retryCount : UInt8) :
    Except Error SlotMetaDataV2 :=
  if maxSlots.toNat ≤ slot then .error .invalid
  else .ok (smd.modifySlot slot fun info => { info with retryCount := retryCount })

def tegrablABSetSuccessful (smd : SlotMetaDataV2) (slot : Nat) (successful : UInt8) :
    Except Error SlotMetaDataV2 :=
  if maxSlots.toNat ≤ slot then .error .invalid
  else .ok (smd.modifySlot slot fun info => { info with bootSuccessful := successful })

def lowerPriority (info : BootSlotInfo) : BootSlotInfo :=
  if 1 < info.priority then { info with priority := info.priority - 1 } else info

def tegrablABSetActiveSlot (smd : SlotMetaDataV2) (slotId : Nat) : Except Error SlotMetaDataV2 := do
  if maxSlots.toNat ≤ slotId then
    throw .invalid
  let smd := (smd.modifySlot 0 lowerPriority).modifySlot 1 lowerPriority
  let smd ← tegrablABSetPriority smd slotId slotPriorityDefault
  let smd ← tegrablABSetRetryCount smd slotId (tegrablGetMaxRetryCount smd)
  tegrablABSetSuccessful smd slotId 0

def tegrablABSetRetryCountReg (slot : Nat) (retryCount : UInt8) (reg : UInt32) : UInt32 :=
  match slot with
  | 0 => bootChainRegARetryCountSet retryCount.toUInt32 reg
  | 1 => bootChainRegBRetryCountSet retryCount.toUInt32 reg
  | _ => reg

/-- `tegrabl_a_b_get_retry_count_reg` of one of the two slots. -/
def tegrablABGetRetryCountReg (slot : Nat) (reg : UInt32) : UInt8 :=
  if slot = 0 then (bootChainRegARetryCountGet reg).toUInt8
  else (bootChainRegBRetryCountGet reg).toUInt8

/-- `tegrabl_a_b_copy_retry_count` with `FROM_REG_TO_SMD`. -/
def copyRetryCountToSmd (smd : SlotMetaDataV2) (reg : UInt32) : SlotMetaDataV2 :=
  let smd := smd.modifySlot 0 fun info =>
    { info with retryCount := (bootChainRegARetryCountGet reg).toUInt8 }
  smd.modifySlot 1 fun info => { info with retryCount := (bootChainRegBRetryCountGet reg).toUInt8 }

/-- `tegrabl_a_b_copy_retry_count` with `FROM_SMD_TO_REG`. -/
def copyRetryCountToReg (smd : SlotMetaDataV2) (reg : UInt32) : UInt32 :=
  let reg := bootChainRegARetryCountSet (smd.slot 0).retryCount.toUInt32 reg
  bootChainRegBRetryCountSet (smd.slot 1).retryCount.toUInt32 reg

def tegrablABSaveBootSlotReg (smd : SlotMetaDataV2) (beyond : Nat → UInt8) (slot : Nat)
    (reg : UInt32) : UInt32 :=
  let reg := bootChainRegSlotNumSet (UInt32.ofNat slot) reg
  let reg := bootChainRegMaxSlotsSet smd.smd.numSlots.toUInt32 reg
  let reg := copyRetryCountToReg smd reg
  if (smd.slotInfoAt beyond slot).bootSuccessful = 0 then bootChainRegUpdateFlagSet bcFlagOtaOn reg
  else if bootctrlSupportRedundancy smd.smd.version then
    bootChainRegUpdateFlagSet bcFlagRedundancyBoot reg
  else reg

/-- `tegrabl_a_b_init_boot_slot_reg`: the result and the new value of the register. -/
def tegrablABInitBootSlotReg (smd : SlotMetaDataV2) (beyond : Nat → UInt8) (reg : UInt32) :
    Except Error Unit × UInt32 :=
  if bootChainRegMagicGet reg = bootChainRegMagic then (.ok (), reg)
  else
    let reg := bootChainRegMagicSet 0
    match tegrablABGetActiveSlot smd beyond with
    | .error e => (.error e, reg)
    | .ok slot => (.ok (), tegrablABSaveBootSlotReg smd beyond slot reg)

inductive Assertion where
  | retryCount
  | rootfsMagic
  | priority
  deriving DecidableEq, Repr

/-- `tegrabl_a_b_check_and_update_retry_count` of one of the two slots. -/
def tegrablABCheckAndUpdateRetryCount (smd : SlotMetaDataV2) (slot : Nat) :
    Except Assertion SlotMetaDataV2 :=
  if bootctrlSupportRedundancy smd.smd.version ∨ (smd.slot slot).bootSuccessful = 0 then
    if (smd.slot slot).retryCount = 0 then .error .retryCount
    else .ok (smd.modifySlot slot fun info => { info with retryCount := info.retryCount - 1 })
  else .ok smd

def tegrablABGetCurrentRootfsId (smd : SlotMetaDataV2) (beyond : Nat → UInt8) : Except Error UInt8 :=
  let version := tegrablABGetVersion smd
  if !bootctrlSupportRootfsAb version then .error .invalid
  else if bootctrlIsUnifiedAbEnabled version then
    (tegrablABGetActiveSlot smd beyond).map fun slot => UInt8.ofNat slot
  else .ok (getRootfsActive smd.smdExt.rootfsSelect)

/-- `tegrabl_a_b_rootfs_is_all_unbootable` of a buffer: the result and the new value of the rootfs
register. -/
def tegrablABRootfsIsAllUnbootable (smd : SlotMetaDataV2) (beyond : Nat → UInt8) (rfReg : UInt32) :
    Except Assertion (Bool × UInt32) :=
  let version := tegrablABGetVersion smd
  if bootctrlIsUnifiedAbEnabled version || bootctrlSupportRedundancyUser version then
    if rootfsAbRegMagicGet rfReg ≠ rootfsAbRegMagic then .error .rootfsMagic
    else if getMaxRotateCount smd ≤ (rootfsAbRegRotateCountGet rfReg).toUInt8 then
      .ok (true, rootfsAbRegRotateCountSet 0 rfReg)
    else .ok (false, rfReg)
  else
    match tegrablABGetCurrentRootfsId smd beyond with
    | .error _ => .ok (false, rfReg)
    | .ok rootfsId => .ok (decide (rootfsId = rootfsInvalid), rfReg)

structure Boot where
  bootReg : UInt32
  rfReg : UInt32
  smd : SlotMetaDataV2
  deriving DecidableEq

/-- Why a check does not go on. After an error the registers and the buffer are as before it. -/
inductive Stop where
  | error (e : Error)
  | hang (a : Assertion)
  deriving DecidableEq, Repr

/-- `check_non_user_redundancy_status` and `check_rootfs_ab_status`. -/
def restoreRetryCount (b : Boot) : Boot :=
  let currentSlot := (bootChainRegSlotNumGet b.bootReg).toNat
  { b with
    bootReg := tegrablABSetRetryCountReg currentSlot (tegrablGetMaxRetryCount b.smd) b.bootReg }

def checkNonUserRedundancyStatus (b : Boot) : Except Stop Boot := .ok (restoreRetryCount b)

def checkRootfsAbStatus (b : Boot) : Except Stop Boot := .ok (restoreRetryCount b)

def switchSlot (b : Boot) (currentSlot : Nat) (slot1Priority slot2Priority rotateCount : UInt8) :
    Except Stop SlotMetaDataV2 :=
  let maxRotateCount := getMaxRotateCount b.smd
  if rotateCount = maxRotateCount / 2 ∨ rotateCount = maxRotateCount then
    if tegrablABGetRetryCountReg (otherSlot currentSlot) b.bootReg ≠ 0 ∧ slot1Priority ≠ 0 ∧ slot2Priority ≠ 0 then
      if slot1Priority < slot2Priority then .error (.hang .priority)
      else
        let smd := orUnchanged b.smd (tegrablABSetPriority b.smd currentSlot 14)
        .ok (orUnchanged smd (tegrablABSetPriority smd (otherSlot currentSlot) 15))
    else .ok b.smd
  else .ok b.smd

def checkUserRedundancyStatus (b : Boot) : Except Stop Boot := do
  let currentSlot := (bootChainRegSlotNumGet b.bootReg).toNat
  let b := restoreRetryCount b
  let slot1Priority ← (tegrablABGetPriority b.smd currentSlot).mapError .error
  let slot2Priority ← (tegrablABGetPriority b.smd (otherSlot currentSlot)).mapError .error
  if rootfsAbRegMagicGet b.rfReg ≠ rootfsAbRegMagic then
    throw (.hang .rootfsMagic)
  let rotateCount := (rootfsAbRegRotateCountGet b.rfReg).toUInt8 + 1
  let smd ← switchSlot b currentSlot slot1Priority slot2Priority rotateCount
  return { b with smd := smd, rfReg := rootfsAbRegRotateCountSet rotateCount.toUInt32 b.rfReg }

def checkRedundancyStatus (b : Boot) : Except Stop Boot :=
  let version := tegrablABGetVersion b.smd
  if !bootctrlSupportRedundancyUser version && !bootctrlSupportRootfsAb version then
    checkNonUserRedundancyStatus b
  else if bootctrlSupportRedundancyUser version || bootctrlIsUnifiedAbEnabled version then
    checkUserRedundancyStatus b
  else if bootctrlSupportRootfsAb version then
    checkRootfsAbStatus b
  else .error (.error .invalid)

/-- How `tegrabl_a_b_update_smd` ends. -/
inductive UpdateEnd where
  | returned (result : Except Error Unit)
  | reset
  | hang (a : Assertion)

/-- What `tegrabl_a_b_update_smd` leaves. -/
structure Updated where
  ended : UpdateEnd
  store : Storage
  statics : Statics
  bootReg : UInt32
  rfReg : UInt32

def clearedReg (reg : UInt32) : UInt32 :=
  if bootChainRegMagicGet reg = bootChainRegMagic then 0 else reg

/-- The flush at the end of `tegrabl_a_b_update_smd`. The checksums are updated in the buffer. -/
def flushIfChanged (st : Storage) (vars : Statics) (first second : WriteEnd) (b : Boot) : Updated :=
  if vars.smdBackup = some b.smd then
    ⟨.returned (.ok ()), st, { vars with smdLoadaddress := some b.smd }, clearedReg b.bootReg, b.rfReg⟩
  else
    let vars := { vars with smdLoadaddress := some (updateCrc b.smd) }
    match tegrablABFlushSmd st vars first second (some b.smd) with
    | (.returned result, st) => ⟨.returned result, st, vars, clearedReg b.bootReg, b.rfReg⟩
    | (.reset, st) => ⟨.reset, st, vars, b.bootReg, b.rfReg⟩

def updateRequested (reg : UInt32) : Bool :=
  bootChainRegMagicGet reg == bootChainRegMagic &&
    (bootChainRegUpdateFlagGet reg == bcFlagOtaOn ||
      bootChainRegUpdateFlagGet reg == bcFlagRedundancyBoot)

/-- The check that `tegrabl_a_b_update_smd` makes for a redundancy boot. -/
def checkIfRedundancyBoot (b : Boot) : Except Stop Boot :=
  if bootChainRegUpdateFlagGet b.bootReg = bcFlagRedundancyBoot ∧
      bootctrlSupportRedundancy (tegrablABGetVersion b.smd) then
    checkRedundancyStatus b
  else .ok b

/-- `tegrabl_a_b_update_smd` after `tegrabl_a_b_get_smd`, given how the two writes end. -/
def updateLoaded (st : Storage) (vars : Statics) (first second : WriteEnd) (b : Boot) : Updated :=
  if updateRequested b.bootReg then
    match checkIfRedundancyBoot b with
    | .error (.hang a) => ⟨.hang a, st, vars, b.bootReg, b.rfReg⟩
    | .error (.error e) => ⟨.returned (.error e), st, vars, clearedReg b.bootReg, b.rfReg⟩
    | .ok b =>
      flushIfChanged st vars first second { b with smd := copyRetryCountToSmd b.smd b.bootReg }
  else ⟨.returned (.ok ()), st, vars, clearedReg b.bootReg, b.rfReg⟩

/-- `tegrabl_a_b_update_smd`, given which memory there is to load the buffer and how the two writes
end. -/
def tegrablABUpdateSmd (st : Storage) (vars : Statics) (bootReg rfReg : UInt32)
    (loadMem backupMem : Bool) (first second : WriteEnd) : Updated :=
  let get := tegrablABGetSmd st vars rfReg loadMem backupMem
  match get.result with
  | .error e => ⟨.returned (.error e), st, get.statics, clearedReg bootReg, get.rfReg⟩
  | .ok smd => updateLoaded st get.statics first second ⟨bootReg, get.rfReg, smd⟩

end Cboot.Smd
