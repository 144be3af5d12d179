import Cboot.Lib.Attempt
import Cboot.Lib.ByteMemory
import Cboot.Smd.BootControl

/-!
`lib/linuxboot/extlinux_boot.c`, `lib/linuxboot/linuxboot_utils.c` and what they use of
`lib/file_manager/tegrabl_file_manager.c`. A binary is read from the file system of a device, with its
signature from a file next to it, or else from a partition. Everything outside of these files may fail at any
time: `σ` is what it can reach.
-/

namespace Cboot.Linuxboot
open Lib Utils

inductive Reason where
  | invalid
  | notSupported
  | notFound
  | noMemory
  | overflow
  | tooLarge
  | openFailed
  | initFailed
  | readFailed
  | verifyFailed
  deriving DecidableEq, Repr

/-- `TEGRABL_ERROR`, a reason that is returned without it, an error of what is called, a reset of the device,
an assertion that does not hold, and a heap that is found corrupted. The last three do not come back. -/
inductive Error where
  | own (reason : Reason) (detail : Nat)
  | raw (reason : Reason)
  | lower (e : UInt32)
  | reset
  | hang (a : Smd.Assertion)
  | corrupted
  deriving DecidableEq, Repr

abbrev Text := List UInt8

inductive BinType where
  | kernel
  | kernelDtb
  | kernelDtbo
  | kernelBootctrl
  | recoveryKernel
  | recoveryImg
  | recoveryDtb
  | invalid
  | other (n : UInt32)
  deriving DecidableEq, Repr

structure Config where
  secureBoot : Bool
  extlinuxBoot : Bool
  dtSupport : Bool
  dtbOverlay : Bool
  l4tRecovery : Bool
  abSlot : Bool
  osIsAndroid : Bool
  ethernetBoot : Bool
  usbSdBoot : Bool
  nvmeBoot : Bool
  deriving DecidableEq, Repr

inductive Device where
  | network
  | sd
  | usb
  | nvme (ctrl : UInt8)
  | fixed
  deriving DecidableEq, Repr

inductive SizeVar where
  | kernel
  | dtb
  | ramdisk
  | conf
  deriving DecidableEq, Repr

/-- A call of `tegrabl_validate_binary`: where the binary is, how the call ended, and the memory after it. -/
structure Validation where
  addr : Nat
  result : Except Error Unit
  mem : Mem

/-- How a loader decides between the normal and the recovery kernel: from the boot control data and the slots. -/
inductive Decision where
  | asked (recoveryMode allUnbootable : Bool)
  | network
  deriving DecidableEq, Repr

def Decision.toRecovery (d : Decision) : Bool :=
  match d with
  | .asked recoveryMode allUnbootable => recoveryMode || allUnbootable
  | .network => false

/-- One try of a device: whether its loader returned `TEGRABL_NO_ERROR`, and whether it loaded a kernel and
a device tree. -/
structure Try where
  device : Device
  returned : Bool
  loaded : Bool
  deriving DecidableEq, Repr

structure State (σ : Type) where
  mem : Mem
  env : σ
  rfReg : UInt32
  bootImgLoadAddr : Nat
  kernelDtb : Nat
  kernelDtbo : Nat
  ramdiskLoadAddr : Nat
  kernelEntryPoint : Nat
  sizes : SizeVar → UInt32
  ramdiskLoad : Nat
  ramdiskSize : Nat
  ramdiskPath : Option Text
  /-- `section[]` of `extlinux_conf` up to `num_boot_entries`. -/
  sections : List (Option Nat)
  extlinuxBootIsSuccess : Bool
  fdtKernel : Nat
  validated : Option Validation
  kernelOf : Option Nat
  dtbOf : Option Nat
  decisions : List Decision
  tries : List Try

abbrev LoadM (σ α : Type) := Attempt Error (State σ) α

/-- `struct tegrabl_fm_handle`, with what is published of its device. -/
structure FmHandle where
  device : Device
  mountPath : Option Text
  published : Bool
  deriving DecidableEq, Repr

/-- What `extlinux.conf` has for the entry that is booted. -/
structure BootEntry where
  linuxPath : Option Text
  dtbPath : Option Text
  initrdPath : Option Text
  deriving DecidableEq, Repr

inductive Copy where
  | primary
  | recovery
  deriving DecidableEq, Repr

structure Platform (σ : Type) where
  fsOpenFile : Text → σ → Bool × σ
  fsStatFile : Text → σ → Option UInt64 × σ
  fsReadFile : Text → UInt64 → σ → (Bool × List UInt8) × σ
  partitionLookup : Device → Text → σ → Except UInt32 UInt64 × σ
  partitionRead : Device → Text → UInt32 → σ → (Except UInt32 Unit × List UInt8) × σ
  loadBinary : BinType → Nat → Option UInt32 → Mem → σ → Except UInt32 (Nat × UInt32) × Mem × σ
  loadBinaryCopy : Copy → σ → Except UInt32 (List UInt8) × σ
  doRatchetCheck : BinType → Nat → Mem → σ → Bool × σ
  authGetBinaryLen : Nat → Mem → UInt32
  authPayload : BinType → Text → Nat → UInt32 → Mem → σ → Except UInt32 Unit × Mem × σ
  authComplete : σ → Except UInt32 Unit × σ
  sigheaderSize : UInt32
  odmProductionMode : Bool
  alloc : UInt32 → σ → Option Nat × σ
  memory : σ → Bool × σ
  free : Nat → σ → Bool × σ
  parseConf : Nat → UInt32 → Mem → List (Option Nat) → σ → (Except UInt32 BootEntry × List (Option Nat)) × σ
  bootImgLoadAddr : σ → Except UInt32 Nat × σ
  dtbLoadAddr : Nat
  ramdiskLoadAddr : Nat
  kernelLoadAddr : Nat
  kernelTextOffset : Nat
  bootImageMaxSize : UInt32
  dtbMaxSize : UInt32
  ramdiskMaxSize : UInt32
  maxKernelImageSize : UInt32
  initStorageDevice : Device → σ → Except UInt32 Unit × σ
  blockdevOpen : Device → σ → Bool × σ
  partitionPublish : Device → σ → Bool × σ
  bootGuidLookup : Device → σ → Bool × σ
  fsDetect : Device → σ → Bool × σ
  fsMount : Device → σ → Bool × σ
  mountPrefix : Device → Option Text
  smd : Except Smd.Error Smd.SlotMetaDataV2
  beyond : Nat → UInt8
  netBootStackInit : σ → Bool × σ
  downloadFromTftp : Nat → Nat → Mem → σ → Except UInt32 UInt32 × Mem × σ
  isCompressedContent : Nat → Mem → Bool
  doDecompress : Nat → UInt32 → Nat → UInt32 → Mem → σ → Except UInt32 Unit × Mem × σ
  dtCreateSpace : Nat → Mem → σ → Except UInt32 Unit × Mem × σ
  dtSetFdtHandle : Nat → σ → Except UInt32 Unit × σ
  updateDtb : Nat → Mem → σ → Except UInt32 Unit × Mem × σ
  updateBootargs : Nat → Mem → σ → Except UInt32 Unit × Mem × σ
  dtbOverlay : Nat → Nat → Mem → σ → Except UInt32 Nat × Mem × σ
  pcieCtrlNums : Nat → Text → Option (List UInt8)
  verifyBoot : Option (Nat → Nat → Nat → Mem → σ → Mem × σ)

section
variable {σ α : Type}

def outside (f : σ → α × σ) : LoadM σ α :=
  Attempt.call fun s => (.ok (f s.env).1, { s with env := (f s.env).2 })

def attempting (f : σ → Except UInt32 α × σ) : LoadM σ α :=
  Attempt.call fun s => ((f s.env).1.mapError .lower, { s with env := (f s.env).2 })

def onMemory (f : Mem → σ → Except UInt32 α × Mem × σ) : LoadM σ α :=
  Attempt.call fun s =>
    ((f s.mem s.env).1.mapError .lower, { s with mem := (f s.mem s.env).2.1, env := (f s.mem s.env).2.2 })

def get : LoadM σ (State σ) := Attempt.call fun s => (.ok s, s)

def modify (f : State σ → State σ) : LoadM σ Unit := Attempt.call fun s => (.ok (), f s)

def caught (c : LoadM σ α) : LoadM σ (Except Error α) :=
  Attempt.call fun s =>
    match c.run s with
    | (.error .reset, t) => (.error .reset, t)
    | (.error (.hang a), t) => (.error (.hang a), t)
    | (.error .corrupted, t) => (.error .corrupted, t)
    | (result, t) => (.ok result, t)

def ofExcept (result : Except Error α) : LoadM σ α :=
  match result with
  | .ok a => pure a
  | .error e => throw e

def refuse (bad : Bool) (e : Error) : LoadM σ Unit := if bad then throw e else pure ()

def onlyIf (condition : Bool) (c : LoadM σ Unit) : LoadM σ Unit := if condition then c else pure ()

def setMem (f : Mem → Mem) : LoadM σ Unit := modify fun s => { s with mem := f s.mem }

def setSize (var : SizeVar) (size : UInt32) : LoadM σ Unit :=
  modify fun s => { s with sizes := Function.update s.sizes var size }

variable (cfg : Config) (P : Platform σ)

def tegrablFmReadPartition (device : Device) (partitionName : Text) (loadAddress : Nat) (size : UInt32) :
    LoadM σ UInt32 := do
  let partitionSize := (← attempting (P.partitionLookup device partitionName)).toUInt32
  refuse (partitionSize = 0) (.own .invalid 4)
  refuse (size < partitionSize) (.own .overflow 1)
  let (result, bytes) ← outside (P.partitionRead device partitionName partitionSize)
  setMem fun m => storeBytes m loadAddress bytes
  ofExcept (result.mapError .lower)
  return partitionSize

/-- The file of `tegrabl_fm_read`: its size. -/
def fmReadFile (mountPath filePath : Text) (loadAddress : Nat) (size : UInt32) : LoadM σ UInt32 := do
  refuse (200 ≤ mountPath.length + filePath.length) (.own .overflow 2)
  let opened ← outside (P.fsOpenFile (mountPath ++ filePath))
  refuse (!opened) (.own .openFailed 0)
  match ← outside (P.fsStatFile (mountPath ++ filePath)) with
  | none => throw (.own .openFailed 1)
  | some statSize =>
    refuse (size.toUInt64 < statSize) (.own .overflow 0)
    let (done, bytes) ← outside (P.fsReadFile (mountPath ++ filePath) statSize)
    setMem fun m => storeBytes m loadAddress bytes
    refuse (!done) (.own .readFailed 1)
    return statSize.toUInt32

/-- What is left of `tegrabl_fm_read` where the file is not read: `err` is the error so far. -/
def fmReadElse (handle : FmHandle) (partitionName : Option Text) (loadAddress : Nat) (size : UInt32)
    (err : Option Error) : LoadM σ UInt32 :=
  match partitionName, err with
  | some name, _ => tegrablFmReadPartition P handle.device name loadAddress size
  | none, some e => throw e
  | none, none => pure size

/-- `tegrabl_fm_read`: what it leaves in `*size`. -/
def tegrablFmRead (handle : Option FmHandle) (filePath partitionName : Option Text) (loadAddress : Nat)
    (size : UInt32) : LoadM σ UInt32 :=
  match handle with
  | none => throw (.own .invalid 3)
  | some handle =>
    match filePath, handle.mountPath with
    | some filePath, some mountPath => do
      match ← caught (fmReadFile P mountPath filePath loadAddress size) with
      | .ok fileSize => return fileSize
      | .error e => fmReadElse P handle partitionName loadAddress size (some e)
    | _, _ => fmReadElse P handle partitionName loadAddress size none

/-- The checks of `tegrabl_validate_binary`, with what is left in `*bin_len`. -/
def authenticate (binType : BinType) (binName : Text) (binMaxSize : UInt32) (loadAddr : Nat) (binLen : UInt32)
    (ratchet : Bool) : LoadM σ (Except Error Unit × UInt32) := do
  let s ← get
  if ratchet then do
    let result ← caught (onMemory (P.authPayload binType binName loadAddr binMaxSize))
    return (result, P.authGetBinaryLen loadAddr s.mem)
  else return (.error (.own .verifyFailed 2), binLen)

/-- `tegrabl_validate_binary`: its result, and what it leaves in `*bin_len`. -/
def tegrablValidateBinary (binType : BinType) (binName : Text) (binMaxSize : UInt32) (loadAddr : Nat)
    (binLen : UInt32) : LoadM σ (Except Error Unit × UInt32) := do
  let s ← get
  let ratchet ← outside (P.doRatchetCheck binType loadAddr s.mem)
  let answer ← authenticate P binType binName binMaxSize loadAddr binLen ratchet
  modify fun s => { s with validated := some ⟨loadAddr, answer.1, s.mem⟩ }
  return answer

def androidMagic : List UInt8 := [65, 78, 68, 82, 79, 73, 68, 33]
def androidHeaderSize : Nat := 2048

def field (m : Mem) (addr offset : Nat) : UInt32 := UInt32.ofNat (readLE m (addr + offset) 4)

def hasBootImgHdr (m : Mem) (addr : Nat) : Bool := bytesAt m addr 8 == androidMagic
def kernelsize (m : Mem) (addr : Nat) : UInt32 := field m addr 8
def ramdisksize (m : Mem) (addr : Nat) : UInt32 := field m addr 16
def secondsize (m : Mem) (addr : Nat) : UInt32 := field m addr 24
def pagesize (m : Mem) (addr : Nat) : UInt32 := field m addr 36
def knownCrc (m : Mem) (addr : Nat) : UInt32 := field m addr (androidHeaderSize - 4)

/-- The sum of the sizes is of 32 bits before it is compared. -/
def tegrablVerifyBootImgHdr (m : Mem) (addr : Nat) (imgSize : UInt32) : Except Error Unit := do
  if !hasBootImgHdr m addr then
    throw (.own .verifyFailed 0)
  if (pagesize m addr).toNat < androidHeaderSize then
    throw (.own .invalid 0)
  if imgSize < pagesize m addr + kernelsize m addr + ramdisksize m addr + secondsize m addr then
    throw (.own .invalid 1)
  if knownCrc m addr ≠ 0 ∧ tegrablUtilsCrc32 0 (bytesAt m addr androidHeaderSize) ≠ knownCrc m addr then
    throw (.own .verifyFailed 1)

/-- `FS_MAX_PATH_LEN`, and the path of the signature file, which is cut there. -/
def fsMaxPathLen : Nat := 128
def sigFilePath (binPath : Text) : Text := (binPath ++ [46, 115, 105, 103]).take (fsMaxPathLen - 1)

def loadSigFile (handle : Option FmHandle) (binPath : Text) (binLoadAddr : Nat) (fileSize : UInt32) :
    LoadM σ Bool := do
  setMem fun m => blit m (binLoadAddr + P.sigheaderSize.toNat) m binLoadAddr fileSize.toNat
  let read ← caught (tegrablFmRead P handle (some (sigFilePath binPath)) none binLoadAddr P.sigheaderSize)
  let failFlag :=
    match read with
    | .ok size => decide (size ≠ P.sigheaderSize)
    | .error _ => true
  onlyIf failFlag (setMem fun m => fillBytes m binLoadAddr P.sigheaderSize.toNat 0)
  return failFlag

/-- The binary and its signature are checked. The answer is whether the binary is taken. -/
def checkSigned (binType : BinType) (binTypeName : Text) (binMaxSize : UInt32) (binLoadAddr : Nat)
    (loadSize : SizeVar) (fileSize : UInt32) (failFlag : Bool) : LoadM σ Bool := do
  let s ← get
  let origFileSize := field s.mem binLoadAddr 8
  onlyIf (origFileSize ≠ 0 ∧ origFileSize < fileSize) (setSize loadSize origFileSize)
  let (result, _) ← tegrablValidateBinary P binType binTypeName binMaxSize binLoadAddr 0
  if result.isOk && !failFlag then return true
  else if P.odmProductionMode then do
    refuse (binType = .invalid) (.own .verifyFailed 0)
    return false
  else do
    setSize loadSize fileSize
    setMem fun m => blit m binLoadAddr m (binLoadAddr + P.sigheaderSize.toNat) fileSize.toNat
    return true

/-- The part of `load_binary_with_sig` for a binary with a path. The answer is false where it goes on to the
partition. -/
def loadFromRootfs (handle : Option FmHandle) (binType : BinType) (binTypeName : Text) (binMaxSize : UInt32)
    (binPath : Text) (binLoadAddr : Nat) (loadSize : SizeVar) : LoadM σ Bool := do
  refuse (binLoadAddr % 65536 ≠ 0) (.raw .invalid)
  match ← caught (tegrablFmRead P handle (some binPath) none binLoadAddr binMaxSize) with
  | .error _ =>
    refuse (binType = .invalid) (.own .readFailed 0)
    return false
  | .ok fileSize =>
    setSize loadSize fileSize
    if cfg.secureBoot then do
      let failFlag ← loadSigFile P handle binPath binLoadAddr fileSize
      checkSigned P binType binTypeName binMaxSize binLoadAddr loadSize fileSize failFlag
    else return true

def fetchFromPartition (binType : BinType) (binMaxSize : UInt32) (binLoadAddr : Nat) (loadSize : SizeVar) :
    LoadM σ UInt32 := do
  let (loadAddr, fileSize) ← onMemory (P.loadBinary binType binLoadAddr (some binMaxSize))
  onlyIf (loadAddr ≠ binLoadAddr) (setMem fun m => blit m binLoadAddr m loadAddr binMaxSize.toNat)
  setSize loadSize fileSize
  return fileSize

def checkFetched (binType : BinType) (binTypeName : Text) (binMaxSize : UInt32) (binLoadAddr : Nat)
    (fileSize : UInt32) : LoadM σ (Except Error Unit × UInt32) :=
  if cfg.secureBoot then tegrablValidateBinary P binType binTypeName binMaxSize binLoadAddr fileSize
  else pure (.ok (), if binType = .kernel then binMaxSize else fileSize)

/-- The part of `load_binary_with_sig` for a binary of a partition. For a kernel the check of the header
decides, also where the validation failed. -/
def loadBinaryFromPartition (binType : BinType) (binTypeName : Text) (binMaxSize : UInt32) (binLoadAddr : Nat)
    (loadSize : SizeVar) : LoadM σ Unit := do
  let fileSize ← fetchFromPartition P binType binMaxSize binLoadAddr loadSize
  let (result, len) ← checkFetched cfg P binType binTypeName binMaxSize binLoadAddr fileSize
  let s ← get
  ofExcept (if binType = .kernel then tegrablVerifyBootImgHdr s.mem binLoadAddr len else result)

/-- The types that `load_binary_with_sig` takes. -/
def supported (binType : BinType) : Bool :=
  binType == .kernel || binType == .kernelDtb || binType == .invalid

def tryRootfs (handle : Option FmHandle) (binType : BinType) (binTypeName : Text) (binMaxSize : UInt32)
    (binPath : Option Text) (binLoadAddr : Nat) (loadSize : SizeVar) : LoadM σ Bool :=
  match binPath with
  | some path => loadFromRootfs cfg P handle binType binTypeName binMaxSize path binLoadAddr loadSize
  | none => pure false

/-- `load_binary_with_sig`: whether the binary is from the file system. -/
def loadBinaryWithSig (handle : Option FmHandle) (binType : BinType) (binTypeName : Text) (binMaxSize : UInt32)
    (binPath : Option Text) (binLoadAddr : Nat) (loadSize : SizeVar) : LoadM σ Bool := do
  refuse (!supported binType) (.own .notSupported 0)
  let taken ← tryRootfs cfg P handle binType binTypeName binMaxSize binPath binLoadAddr loadSize
  onlyIf (!taken) (loadBinaryFromPartition cfg P binType binTypeName binMaxSize binLoadAddr loadSize)
  return taken

end

end Cboot.Linuxboot
