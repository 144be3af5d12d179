import Cboot.Smd.Image

/-!
`lib/a_b_boot/tegrabl_a_b_boot_control.c`. The two partitions are byte strings, the rootfs scratch
register is a word, and the static variables of the file are one record that a reset clears.
-/

namespace Cboot.Smd
open Lib

inductive Error where
  | invalid
  | noMemory
  | verifyFailed
  | partition
  deriving DecidableEq, Repr

inductive SmdBinCopy where
  | primary
  | secondary
  deriving DecidableEq, Repr

structure Storage where
  smd : List UInt8
  smdB : List UInt8
  deriving DecidableEq, Repr

namespace Storage

def get (st : Storage) : SmdBinCopy → List UInt8
  | .primary => st.smd
  | .secondary => st.smdB

def set (st : Storage) (copy : SmdBinCopy) (bytes : List UInt8) : Storage :=
  match copy with
  | .primary => { st with smd := bytes }
  | .secondary => { st with smdB := bytes }

@[simp] theorem get_set_same (st : Storage) (copy : SmdBinCopy) (bytes : List UInt8) :
    (st.set copy bytes).get copy = bytes := by
  cases copy <;> rfl

@[simp] theorem get_set_other (st : Storage) {copy other : SmdBinCopy} (bytes : List UInt8)
    (different : other ≠ copy) : (st.set copy bytes).get other = st.get other := by
  cases copy <;> cases other <;> first | rfl | exact absurd rfl different

end Storage

/-- The static variables: `current_smd`, with `none` for `SMD_INVALID`, and the contents behind
`smd_loadaddress` and `smd_backup`. -/
structure Statics where
  currentSmd : Option SmdBinCopy := some .primary
  smdLoadaddress : Option SlotMetaDataV2 := none
  smdBackup : Option SlotMetaDataV2 := none
  deriving DecidableEq

def tegrablABGetVersion (smd : SlotMetaDataV2) : UInt16 := smd.smd.version

def rootfsA : UInt8 := 0
def rootfsB : UInt8 := 1
def rootfsInvalid : UInt8 := 3
def rootfsRetryCountDefault : UInt8 := 3
def rootfsStatusNormal : UInt8 := 0
def rootfsStatusBootFailed : UInt8 := 3
def rootfsStatusEnd : UInt8 := rootfsStatusBootFailed
def maxSlots : UInt8 := 2

def getRootfsActive (rfSel : UInt8) : UInt8 := (rfSel &&& 0x0C) >>> 2
def setRootfsActive (slot rfSel : UInt8) : UInt8 := (rfSel &&& ~~~(0x0C : UInt8)) ||| (slot <<< 2)
def getRootfsRetryCount (rfSel : UInt8) : UInt8 := rfSel &&& 0x03
def setRootfsRetryCount (cnt rfSel : UInt8) : UInt8 := (rfSel &&& ~~~(0x03 : UInt8)) ||| cnt

def rootfsAbRegMagic : UInt32 := 0xFACE
def rootfsAbRegMagicGet (reg : UInt32) : UInt32 := reg &&& 0xFFFF
def rootfsAbRegMagicSet (reg : UInt32) : UInt32 := (reg &&& ~~~(0xFFFF : UInt32)) ||| rootfsAbRegMagic

def rootfsAbRegRetryCountGet (reg : UInt32) : UInt32 := (reg &&& 0x300000) >>> 20
def rootfsAbRegRetryCountSet (count reg : UInt32) : UInt32 :=
  (reg &&& ~~~(0x300000 : UInt32)) ||| ((count &&& 0x03) <<< 20)

def tegrablABGetRootfsRetryCount (smd : SlotMetaDataV2) : UInt8 :=
  getRootfsRetryCount smd.smdExt.rootfsSelect

/-- `tegrabl_a_b_init_rootfs_slot_reg`: the new value of the rootfs scratch register. -/
def tegrablABInitRootfsSlotReg (smd : SlotMetaDataV2) (rfReg : UInt32) : UInt32 :=
  let version := tegrablABGetVersion smd
  if !bootctrlSupportRedundancyUser version && !bootctrlSupportRootfsAb version then rfReg
  else if rootfsAbRegMagicGet rfReg = rootfsAbRegMagic then rfReg
  else
    let reg := rootfsAbRegMagicSet 0
    if bootctrlSupportRootfsAb version && !bootctrlSupportUnifiedAb version then
      rootfsAbRegRetryCountSet (tegrablABGetRootfsRetryCount smd).toUInt32 reg
    else reg

def tegrablGetRootfsMaxRetryCount (smd : SlotMetaDataV2) : UInt8 :=
  let count :=
    if bootChainVersionGet (tegrablABGetVersion smd) < bootChainVersionUnifyRfBlAb then
      rootfsRetryCountDefault
    else getRootfsRetryCount smd.smdExt.rootfsMiscInfo
  if rootfsRetryCountDefault < count ∨ count = 0 then rootfsRetryCountDefault else count

def tegrablABSetActiveRootfs (smd : SlotMetaDataV2) (rootfsId : UInt8) :
    Except Error SlotMetaDataV2 :=
  if rootfsId ≠ rootfsA ∧ rootfsId ≠ rootfsB ∧ rootfsId ≠ rootfsInvalid then .error .invalid
  else
    let select := setRootfsActive rootfsId smd.smdExt.rootfsSelect
    let select := setRootfsRetryCount (tegrablGetRootfsMaxRetryCount smd) select
    .ok { smd with smdExt := { smd.smdExt with rootfsSelect := select } }

def tegrablABGetRootfsStatus (smd : SlotMetaDataV2) (slotId : UInt8) : Except Error UInt8 :=
  if maxSlots ≤ slotId then .error .invalid
  else .ok (if slotId = 0 then smd.smdExt.rootfsStatus.1 else smd.smdExt.rootfsStatus.2)

def tegrablABSetRootfsStatus (smd : SlotMetaDataV2) (slotId status : UInt8) :
    Except Error SlotMetaDataV2 :=
  if maxSlots ≤ slotId then .error .invalid
  else if rootfsStatusEnd < status then .error .invalid
  else
    let (a, b) := smd.smdExt.rootfsStatus
    let status := if slotId = 0 then (status, b) else (a, status)
    .ok { smd with smdExt := { smd.smdExt with rootfsStatus := status } }

def orUnchanged (smd : SlotMetaDataV2) : Except Error SlotMetaDataV2 → SlotMetaDataV2
  | .ok smd' => smd'
  | .error _ => smd

/-- `tegrabl_a_b_select_active_rootfs`: the buffer and the rootfs scratch register after it. -/
def tegrablABSelectActiveRootfs (smd : SlotMetaDataV2) (rfReg : UInt32) : SlotMetaDataV2 × UInt32 :=
  let version := tegrablABGetVersion smd
  if !bootctrlSupportRootfsAb version || bootctrlIsUnifiedAbEnabled version then (smd, rfReg)
  else
    let rfsId := getRootfsActive smd.smdExt.rootfsSelect
    let next : UInt8 := if rfsId = 0 then 1 else 0
    let retryCount := rootfsAbRegRetryCountGet rfReg
    if retryCount = 0 then
      let smd := orUnchanged smd (tegrablABSetRootfsStatus smd rfsId rootfsStatusBootFailed)
      let rfsStatus :=
        match tegrablABGetRootfsStatus smd next with
        | .ok status => status
        | .error _ => rootfsStatusNormal
      if rfsStatus = rootfsStatusNormal then
        let smd := orUnchanged smd (tegrablABSetActiveRootfs smd next)
        let retryCount := (tegrablABGetRootfsRetryCount smd).toUInt32
        (smd, rootfsAbRegRetryCountSet (retryCount - 1) rfReg)
      else
        (orUnchanged smd (tegrablABSetActiveRootfs smd rootfsInvalid), rfReg)
    else
      (smd, rootfsAbRegRetryCountSet (retryCount - 1) rfReg)

def tegrablPartitionRead (part : List UInt8) (numBytes : Nat) : Except Error (List UInt8) :=
  if part.length < numBytes then .error .partition else .ok (part.take numBytes)

/-- The checks of `load_smd_bin_copy` on the buffer. -/
def checkSmd (smd : SlotMetaDataV2) : Except Error Unit := do
  let version := bootChainVersionGet (tegrablABGetVersion smd)
  if version = bootChainVersionOne then
    if smd.smd.magic ≠ bootChainMagic then
      throw .verifyFailed
  else
    if smdCrc smd ≠ smd.smd.crc32 then
      throw .verifyFailed
  if bootChainVersionRootfsAb ≤ version then
    if extCrc smd ≠ smd.smdExt.crc32 then
      throw .verifyFailed

def loadSmdBinCopy (part : List UInt8) : Except Error SlotMetaDataV2 := do
  let bytes ← tegrablPartitionRead part SlotMetaDataV2.codec.width
  let smd := SlotMetaDataV2.codec.decode bytes
  checkSmd smd
  return smd

/-- What `tegrabl_a_b_get_smd` returns: the result, the static variables and the rootfs scratch
register. -/
structure GetSmd where
  result : Except Error SlotMetaDataV2
  statics : Statics
  rfReg : UInt32

/-- The part of `tegrabl_a_b_get_smd` after a copy was loaded. -/
def initSmd (copy : SmdBinCopy) (smd : SlotMetaDataV2) (rfReg : UInt32) : GetSmd :=
  let rfReg := tegrablABInitRootfsSlotReg smd rfReg
  let selected := tegrablABSelectActiveRootfs smd rfReg
  { result := .ok selected.1
    statics := ⟨some copy, some selected.1, some smd⟩
    rfReg := selected.2 }

/-- `tegrabl_a_b_get_smd`, given which of its two `tegrabl_malloc` calls succeed. -/
def tegrablABGetSmd (st : Storage) (vars : Statics) (rfReg : UInt32)
    (loadMem backupMem : Bool) : GetSmd :=
  match vars.smdLoadaddress with
  | some smd => ⟨.ok smd, vars, rfReg⟩
  | none =>
    if !loadMem || !backupMem then ⟨.error .noMemory, vars, rfReg⟩
    else
      match loadSmdBinCopy st.smd with
      | .ok smd => initSmd .primary smd rfReg
      | .error _ =>
        match loadSmdBinCopy st.smdB with
        | .ok smd => initSmd .secondary smd rfReg
        | .error e => ⟨.error e, ⟨none, none, none⟩, rfReg⟩

inductive WriteEnd where
  | done
  | failed (left : List UInt8)
  | cut (left : List UInt8)
  deriving DecidableEq, Repr

inductive Ended where
  | returned (result : Except Error Unit)
  | reset

def overwritten (part : List UInt8) (smd : SlotMetaDataV2) : List UInt8 :=
  smd.toBytes ++ part.drop SlotMetaDataV2.codec.width

def flushSmdBinCopy (st : Storage) (smd : SlotMetaDataV2) (copy : SmdBinCopy) :
    WriteEnd → Ended × Storage
  | .done => (.returned (.ok ()), st.set copy (overwritten (st.get copy) smd))
  | .failed left => (.returned (.error .partition), st.set copy left)
  | .cut left => (.reset, st.set copy left)

/-- The checksum updates of `tegrabl_a_b_flush_smd`. -/
def updateCrc (smd : SlotMetaDataV2) : SlotMetaDataV2 :=
  let smd := { smd with smd := { smd.smd with crc32 := smdCrc smd } }
  if bootChainVersionRootfsAb ≤ bootChainVersionGet (tegrablABGetVersion smd) then
    { smd with smdExt := { smd.smdExt with crc32 := extCrc smd } }
  else smd

def firstCopy (currentSmd : Option SmdBinCopy) : SmdBinCopy :=
  if currentSmd = some .primary then .secondary else .primary

def secondCopy (currentSmd : Option SmdBinCopy) : SmdBinCopy :=
  if currentSmd = some .primary then .primary else .secondary

/-- `tegrabl_a_b_flush_smd` of a buffer, `none` for `NULL`, given how its two writes end. -/
def tegrablABFlushSmd (st : Storage) (vars : Statics) (first second : WriteEnd) :
    Option SlotMetaDataV2 → Ended × Storage
  | none => (.returned (.error .invalid), st)
  | some smd =>
    let smd := updateCrc smd
    match flushSmdBinCopy st smd (firstCopy vars.currentSmd) first with
    | (.returned (.ok ()), st') => flushSmdBinCopy st' smd (secondCopy vars.currentSmd) second
    | (ended, st') => (ended, st')

end Cboot.Smd
