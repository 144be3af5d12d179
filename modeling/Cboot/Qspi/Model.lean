import Cboot.Lib.Codec
import Cboot.Lib.Trace

/-!
`drivers/qspi_flash/tegrabl_qspi_flash.c`. The flash is erased a sector at a time, in larger pieces than the blocks of
the block device, and programmed a page at a time.
-/

namespace Cboot.Qspi
open Lib

structure ChipInfo where
  flashSizeLog2 : UInt32
  blockSizeLog2 : UInt32
  blockCount : UInt32
  sectorSizeLog2 : UInt32
  sectorCount : UInt32
  parameterSectorSizeLog2 : UInt32
  parameterSectorCount : UInt32
  addressLength : UInt32
  pageWriteSize : UInt32

/-- The entry of `device_info_list` that the chip was found to be. -/
structure DeviceInfo where
  manufactureId : UInt8
  flag : UInt8

def manufactureIdSpansion : UInt8 := 0x01
def manufactureIdMicron : UInt8 := 0x20
def manufactureIdMacronix : UInt8 := 0xC2

def flagQpi : UInt8 := 0x02
def flagBulk : UInt8 := 0x08

structure DriverInfo where
  chipInfo : ChipInfo
  device : DeviceInfo
  /-- `plat_params.max_bus_width` is `QSPI_BUS_WIDTH_X4`. -/
  maxBusWidthX4 : Bool

structure Bdev where
  privData : Option DriverInfo

inductive Error where
  | invalid (aux : Nat)
  | noMemory (aux : Nat)
  | badAddress (aux : Nat)
  | timeout (aux : Nat)
  | transaction
  | assertion
  /-- A loop of the driver does not end. -/
  | endless
  deriving DecidableEq, Repr

inductive Command where
  | parameterErase (address : Nat)
  | sectorErase (address : Nat)
  | bulkErase
  | program (address length : Nat)
  deriving DecidableEq, Repr

def Command.apply (chip : ChipInfo) (data : Nat → UInt8) (flash : Nat → UInt8) : Command → Nat → UInt8
  | .parameterErase address, x =>
    if x / 2 ^ chip.parameterSectorSizeLog2.toNat = address / 2 ^ chip.parameterSectorSizeLog2.toNat then 0xFF else flash x
  | .sectorErase address, x =>
    if x / 2 ^ chip.sectorSizeLog2.toNat = address / 2 ^ chip.sectorSizeLog2.toNat then 0xFF else flash x
  | .bulkErase, _ => 0xFF
  | .program address length, x =>
    if address ≤ x ∧ x < address + length then flash x &&& data (x - address) else flash x

inductive Transaction where
  | writeEnable
  | writeDisable
  | readReg (command : UInt32)
  | writeReg (command : UInt32) (value : UInt8)
  | qpiMode (command : UInt8)
  | read (address length : Nat)
  | command (c : Command)

structure Answer where
  ok : Bool
  reg : UInt8

structure Env where
  answer : Nat → Transaction → Answer
  /-- `qspi_flash_x4_enable_spansion`: whether it succeeds, and how many transactions it makes. Its wait has no bound. -/
  x4EnableSpansion : Nat → Bool → Bool × Nat
  /-- An address, or 0. -/
  calloc : Nat → UInt32 → Nat

inductive Stage where
  | erase
  | read
  | parameterErase
  | sectorErase
  | bulkErase
  | write
  deriving DecidableEq, Repr

inductive Op where
  | argument
  | assertion
  | alignment
  | memory
  | read
  | mode (set : Bool)
  /-- The wait after the mode has been switched. -/
  | settle
  | writeEnable
  /-- With the number of sectors that are still to be erased. -/
  | writeDisable (left : Nat)
  | command (c : Command)
  | ready (c : Command)
  deriving DecidableEq, Repr

structure Event where
  stage : Stage
  op : Op
  ok : Bool
  deriving DecidableEq, Repr

/-- The flash, the number of transactions that have been made, and `bqpiset`. -/
structure State where
  flash : Nat → UInt8
  now : Nat
  bqpiset : Bool

abbrev Driver := Act State Error Event

abbrev Probe := ExceptT Error (StateM Nat)

def cmdRdsr1 : UInt32 := 0x05
def welEnable : UInt8 := 0x02
def wipField : UInt8 := 0x01
def weRetryCount : Nat := 2000
def wipRetryCount : Nat := 2000

section
variable (env : Env)

def transaction (t : Transaction) : Probe UInt8 := ExceptT.mk fun now =>
  (if (env.answer now t).ok then .ok (env.answer now t).reg else .error .transaction, now + 1)

def qspiReadReg (command : UInt32) : Probe UInt8 := transaction env (.readReg command)

def qspiWriteEnFrom (benable : Bool) : Nat → Probe Unit
  | 0 => throw (.timeout 16)
  | tries + 1 => do
    let _ ← transaction env (if benable then .writeEnable else .writeDisable)
    let reg ← qspiReadReg env cmdRdsr1
    if reg &&& welEnable = (if benable then welEnable else 0) then pure () else qspiWriteEnFrom benable tries

def qspiWriteEn (benable : Bool) : Probe Unit := qspiWriteEnFrom env benable weRetryCount

def qspiWriteinProgressFrom (benable : Bool) : Nat → Probe Unit
  | 0 => throw (.timeout 15)
  | tries + 1 => do
    let reg ← qspiReadReg env cmdRdsr1
    if reg &&& wipField = (if benable then wipField else 0) then pure () else qspiWriteinProgressFrom benable tries

def qspiWriteinProgress (benable : Bool) : Probe Unit := qspiWriteinProgressFrom env benable wipRetryCount

def qspiWriteReg (command : UInt32) (value : UInt8) : Probe Unit := do
  qspiWriteEn env true
  let _ ← transaction env (.writeReg command value)

/-- What `qspi_flash_qpi_mode_enable_spansion` and `qspi_flash_qpi_mode_enable_micron` have in common. -/
def qpiModeEnable (readCfgCmd writeCfgCmd : UInt32) (qpiBit enable disable : UInt8) (benable : Bool) : Probe Unit := do
  let inputCfg := if benable then enable else disable
  let reg ← qspiReadReg env readCfgCmd
  if reg &&& qpiBit = inputCfg then pure ()
  else qspiWriteReg env writeCfgCmd (reg &&& ~~~qpiBit ||| inputCfg)

def qspiFlashQpiModeEnableSpansion : Bool → Probe Unit := qpiModeEnable env 0x800003 0x800003 0x40 0x40 0x00

def qspiFlashQpiModeEnableMicron : Bool → Probe Unit := qpiModeEnable env 0x65 0x61 0x80 0x00 0x80

def qspiFlashQpiModeEnableMacronix (benable : Bool) : Probe Unit := do
  let _ ← transaction env (.qpiMode (if benable then 0x35 else 0xF5))

def qspiFlashX4EnableSpansion (bset : Bool) : Probe Unit := ExceptT.mk fun now =>
  (if (env.x4EnableSpansion now bset).1 then .ok () else .error .transaction, now + (env.x4EnableSpansion now bset).2)

end

def ask {α : Type} (stage : Stage) (op : Op) (f : State → Except Error α × State) : Driver α :=
  Act.step (fun r => ⟨stage, op, r.isOk⟩) f

def probe (stage : Stage) (op : Op) (p : Probe Unit) : Driver Unit := ask stage op fun s =>
  ((p.run.run s.now).1, { s with now := (p.run.run s.now).2 })

def require (stage : Stage) (op : Op) (error : Error) (condition : Prop) [Decidable condition] : Driver Unit :=
  ask stage op fun s => (if condition then .ok () else .error error, s)

section
variable (env : Env) (d : DriverInfo)

def command (stage : Stage) (c : Command) (data : Nat → UInt8) : Driver Unit := ask stage (.command c) fun s =>
  if (env.answer s.now (.command c)).ok then
    (.ok (), { s with flash := c.apply d.chipInfo data s.flash, now := s.now + 1 })
  else (.error .transaction, { s with now := s.now + 1 })

def waitReady (stage : Stage) (c : Command) : Driver Unit := probe stage (.ready c) (qspiWriteinProgress env false)

def qspiQuadFlagSet (stage : Stage) (bset : Bool) : Driver Unit :=
  if d.maxBusWidthX4 ∧ d.device.manufactureId = manufactureIdSpansion then
    probe stage (.mode bset) (qspiFlashX4EnableSpansion env bset)
  else pure ()

def switchQpi (bset : Bool) : Probe Unit :=
  if d.device.manufactureId = manufactureIdMicron then qspiFlashQpiModeEnableMicron env bset
  else if d.device.manufactureId = manufactureIdMacronix then qspiFlashQpiModeEnableMacronix env bset
  else if d.device.manufactureId = manufactureIdSpansion then qspiFlashQpiModeEnableSpansion env bset
  else pure ()

/-- `qspi_qpi_flag_set`. The result of the wait is not looked at. -/
def qspiQpiFlagSet (bset : Bool) : Driver Unit :=
  if ¬ d.maxBusWidthX4 ∨ d.device.flag &&& flagQpi = 0 then pure ()
  else Act.choose (fun s => s.bqpiset = bset) (pure ()) do
    ask .write (.mode bset) fun s =>
      match (switchQpi env d bset).run.run s.now with
      | (.ok _, now) => (.ok (), { s with now := now, bqpiset := bset })
      | (.error e, now) => (.error e, { s with now := now })
    let _ ← (probe .write .settle (qspiWriteinProgress env false)).attempt

def addressData (address : UInt32) : List UInt8 :=
  if d.chipInfo.addressLength = 4 then
    [(address >>> 24).toUInt8, (address >>> 16).toUInt8, (address >>> 8).toUInt8, address.toUInt8]
  else [(address >>> 16).toUInt8, (address >>> 8).toUInt8, address.toUInt8]

/-- The address that the chip gets, from the `address_length` bytes that are sent. -/
def sentAddress (address : UInt32) : Nat :=
  Positional.encode 256 (((addressData d address).take d.chipInfo.addressLength.toNat).map UInt8.toNat)

/-- The loop that `tegrabl_qspi_flash_parameter_sector_erase` and `tegrabl_qspi_flash_sector_erase` have in common, with
the number of sectors that are to be erased. -/
def eraseLoop (stage : Stage) (erase : Nat → Command) (sizeLog2 : UInt32) : Nat → UInt32 → Driver Unit
  | 0, _ => pure ()
  | left + 1, address => do
    probe stage .writeEnable (qspiWriteEn env true)
    let err ← (command env d stage (erase (sentAddress d address)) fun _ => 0).attempt
    match err with
    | .error _ => probe stage (.writeDisable left) (qspiWriteEn env false)
    | .ok _ => do
      let _ ← (waitReady env stage (erase (sentAddress d address))).attempt
      probe stage (.writeDisable left) (qspiWriteEn env false)
      eraseLoop stage erase sizeLog2 left (address + ((1 : UInt64) <<< sizeLog2.toUInt64).toUInt32)

def tegrablQspiFlashParameterSectorErase (startParameterSectorNum numOfParameterSectors : UInt32) (isTop : Bool) :
    Driver Unit := do
  require .parameterErase .argument (.invalid 2) (startParameterSectorNum ≤ d.chipInfo.parameterSectorCount)
  require .parameterErase .argument (.invalid 3)
    (numOfParameterSectors ≠ 0 ∧ numOfParameterSectors ≤ d.chipInfo.parameterSectorCount)
  require .parameterErase .argument (.invalid 4)
    (startParameterSectorNum + numOfParameterSectors ≤ d.chipInfo.parameterSectorCount)
  qspiQuadFlagSet env d .parameterErase false
  eraseLoop env d .parameterErase .parameterErase d.chipInfo.parameterSectorSizeLog2 numOfParameterSectors.toNat
    (if isTop then ((1 : UInt64) <<< d.chipInfo.flashSizeLog2.toUInt64).toUInt32 -
        d.chipInfo.parameterSectorCount <<< d.chipInfo.parameterSectorSizeLog2
      else startParameterSectorNum <<< d.chipInfo.parameterSectorSizeLog2)
  qspiQuadFlagSet env d .parameterErase true

def tegrablQspiFlashSectorErase (startSectorNum numOfSectors : UInt32) : Driver Unit := do
  require .sectorErase .argument (.invalid 5) (numOfSectors ≠ 0)
  require .sectorErase .assertion .assertion (startSectorNum + numOfSectors ≤ d.chipInfo.sectorCount)
  qspiQuadFlagSet env d .sectorErase false
  eraseLoop env d .sectorErase .sectorErase d.chipInfo.sectorSizeLog2 numOfSectors.toNat
    (startSectorNum <<< d.chipInfo.sectorSizeLog2)
  qspiQuadFlagSet env d .sectorErase true

def tegrablQspiFlashBulkErase : Driver Unit := do
  probe .bulkErase .writeEnable (qspiWriteEn env true)
  command env d .bulkErase .bulkErase fun _ => 0
  waitReady env .bulkErase .bulkErase

structure Buffer where
  address : Nat
  data : Nat → UInt8

/-- The loop of `tegrabl_qspi_flash_write`. After a page that failed it is left as the other loops are. -/
def writeLoop (buf : Buffer) : Nat → UInt32 → UInt32 → Nat → Driver Unit
  | 0, bytesToWrite, _, _ => if bytesToWrite = 0 then pure () else Act.fail .endless
  | fuel + 1, bytesToWrite, address, offset =>
    if bytesToWrite = 0 then pure () else do
      let page := d.chipInfo.pageWriteSize
      let program := Command.program (sentAddress d address) (min bytesToWrite page).toNat
      probe .write .writeEnable (qspiWriteEn env true)
      require .write .alignment (.badAddress 18) ((buf.address + offset) % 4 = 0)
      let err ← (command env d .write program fun i => buf.data (offset + i)).attempt
      match err with
      | .error _ => probe .write (.writeDisable 0) (qspiWriteEn env false)
      | .ok _ => do
        let _ ← (waitReady env .write program).attempt
        if bytesToWrite > page then
          writeLoop buf fuel (bytesToWrite - page) (address + page) (offset + page.toNat)
        else writeLoop buf fuel 0 address offset

def tegrablQspiFlashWrite (startPageNum numOfPages : UInt32) (buf : Buffer) : Driver Unit := do
  require .write .argument (.invalid 7) (numOfPages ≠ 0)
  qspiQpiFlagSet env d true
  let bytesToWrite := numOfPages <<< d.chipInfo.blockSizeLog2
  writeLoop env d buf bytesToWrite.toNat bytesToWrite (startPageNum <<< d.chipInfo.blockSizeLog2) 0
  qspiQpiFlagSet env d false

def tegrablQspiFlashRead (startPageNum numOfPages : UInt32) (dest : Nat) : Driver Buffer := do
  require .read .argument (.invalid 0) (numOfPages ≠ 0)
  require .read .alignment (.badAddress 0) (dest % 4 = 0)
  let address := sentAddress d (startPageNum <<< d.chipInfo.blockSizeLog2)
  ask .read .read fun s =>
    if (env.answer s.now (.read address (numOfPages <<< d.chipInfo.blockSizeLog2).toNat)).ok then
      (.ok ⟨dest, fun i => s.flash (address + i)⟩, { s with now := s.now + 1 })
    else (.error .transaction, { s with now := s.now + 1 })

end

section
variable (env : Env)

def qspiBdevReadBlock (dev : Option Bdev) (buf : Nat) (block count : UInt32) : Driver Buffer :=
  match dev with
  | some ⟨some d⟩ => do
    require .read .argument (.invalid 1) (buf ≠ 0)
    tegrablQspiFlashRead env d block count buf
  | _ => Act.fail (.invalid 1)

def qspiBdevWriteBlock (dev : Option Bdev) (buf : Buffer) (block count : UInt32) : Driver Unit :=
  match dev with
  | some ⟨some d⟩ => do
    require .write .argument (.invalid 3) (buf.address ≠ 0)
    tegrablQspiFlashWrite env d block count buf
  | _ => Act.fail (.invalid 3)

/-- The variables of `qspi_bdev_erase`. -/
structure Plan where
  sectorNum : UInt32
  sectorCnt : UInt32
  headStart : UInt32
  headCount : UInt32
  tailStart : UInt32
  tailCount : UInt32
  deriving DecidableEq, Repr

def blockNumToSectorNum (chip : ChipInfo) (blk : UInt32) : UInt32 := (blk <<< chip.blockSizeLog2) >>> chip.sectorSizeLog2

/-- With the addition in `unsigned long`. -/
def blockCntToSectorCnt (chip : ChipInfo) (cnt : UInt32) : UInt32 :=
  (((cnt <<< chip.blockSizeLog2).toUInt64 + (1 <<< chip.sectorSizeLog2.toUInt64) - 1) >>> chip.sectorSizeLog2.toUInt64).toUInt32

def pagesInSectorLog2 (chip : ChipInfo) : UInt32 := chip.sectorSizeLog2 - chip.blockSizeLog2

def pagesMask (chip : ChipInfo) : UInt64 := (1 <<< (pagesInSectorLog2 chip).toUInt64) - 1

def planOf (chip : ChipInfo) (block count : UInt32) : Plan :=
  let sectorNum := blockNumToSectorNum chip block
  if count ≠ chip.blockCount then
    let tailStart := block + count
    let sectorEnd := blockNumToSectorNum chip (tailStart.toUInt64 + pagesMask chip).toUInt32
    { sectorNum := sectorNum
      sectorCnt := sectorEnd - sectorNum
      headStart := sectorNum <<< pagesInSectorLog2 chip
      headCount := (block.toUInt64 &&& pagesMask chip).toUInt32
      tailStart := tailStart
      tailCount := sectorEnd <<< pagesInSectorLog2 chip - tailStart }
  else
    { sectorNum := sectorNum
      sectorCnt := blockCntToSectorCnt chip count
      headStart := 0
      headCount := 0
      tailStart := 0
      tailCount := 0 }

def backUp (dev : Option Bdev) (chip : ChipInfo) (aux : Nat) (start count : UInt32) : Driver Buffer :=
  if count ≠ 0 then do
    let size := count <<< chip.blockSizeLog2
    let backup ← ask .erase .memory fun s =>
      (if env.calloc s.now size ≠ 0 then .ok (env.calloc s.now size) else .error (.noMemory aux), s)
    qspiBdevReadBlock env dev backup start count
  else pure ⟨0, fun _ => 0⟩

def restore (dev : Option Bdev) (backup : Buffer) (start count : UInt32) : Driver Unit :=
  if count ≠ 0 then qspiBdevWriteBlock env dev backup start count else pure ()

def qspiBdevErase (dev : Option Bdev) (block count : UInt32) : Driver Unit :=
  match dev with
  | some ⟨some d⟩ => do
    require .erase .argument (.invalid 6) (count ≠ 0)
    if block = 0 ∧ count = d.chipInfo.blockCount ∧ d.device.flag &&& flagBulk ≠ 0 then tegrablQspiFlashBulkErase env d
    else do
      let plan := planOf d.chipInfo block count
      let head ← backUp env dev d.chipInfo 11 plan.headStart plan.headCount
      let tail ← backUp env dev d.chipInfo 12 plan.tailStart plan.tailCount
      -- What comes of the parameter sectors is not looked at.
      let _ ← (if plan.sectorNum = 0 then tegrablQspiFlashParameterSectorErase env d 0 8 false else pure ()).attempt
      tegrablQspiFlashSectorErase env d plan.sectorNum plan.sectorCnt
      restore env dev head plan.headStart plan.headCount
      restore env dev tail plan.tailStart plan.tailCount
  | _ => Act.fail (.invalid 6)

end

end Cboot.Qspi
