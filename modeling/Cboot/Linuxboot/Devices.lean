import Cboot.Linuxboot.Model

/-!
`lib/linuxboot/removable_boot.c`, `lib/linuxboot/fixed_boot.c`, `lib/linuxboot/net_boot.c` and
`lib/linuxboot/linux_load.c`, in the build that selects a boot device.
-/

namespace Cboot.Linuxboot
open Lib Utils

/-- `struct tegrabl_kernel_bin`, as far as it is looked at. -/
structure KernelBin where
  binType : BinType
  loadFromStorage : Bool
  deriving DecidableEq, Repr

structure Request where
  kernel : KernelBin
  data : Option (Nat × UInt32)
  deriving DecidableEq, Repr

section
variable {σ : Type} (cfg : Config) (P : Platform σ)

def noteKernel : LoadM σ Unit := modify fun s => { s with kernelOf := some s.tries.length }
def noteDtb : LoadM σ Unit := modify fun s => { s with dtbOf := some s.tries.length }

/-- `boot`, `kernel-dtb`, `recovery` and `recovery-dtb`. -/
def bootName : Text := [98, 111, 111, 116]
def kernelDtbName : Text := [107, 101, 114, 110, 101, 108, 45, 100, 116, 98]
def recoveryName : Text := [114, 101, 99, 111, 118, 101, 114, 121]
def recoveryDtbName : Text := [114, 101, 99, 111, 118, 101, 114, 121, 45, 100, 116, 98]

/-- A row of `img_dtb_table` or `img_dtb_fdt_table`. -/
structure ImgDtb where
  imgName : Text
  dtbName : Text
  imgBinType : BinType
  dtbBinType : BinType
  preloaded : Bool
  deriving DecidableEq, Repr

def normalRow : ImgDtb := ⟨bootName, kernelDtbName, .kernel, .kernelDtb, true⟩
def l4tRecoveryRow : ImgDtb := ⟨recoveryName, recoveryDtbName, .recoveryImg, .recoveryDtb, false⟩
def androidRecoveryRow : ImgDtb := ⟨recoveryName, kernelDtbName, .recoveryKernel, .kernelDtb, true⟩

structure KernelBootctrl where
  magicNumber : UInt32
  mode : UInt32
  command : UInt32
  version : UInt32
  crc32 : UInt32
  deriving DecidableEq, Repr

def bootToRecoveryMode : UInt32 := 1
def dummyKernelBootctrl : KernelBootctrl := ⟨0x4C544342, 0, 0, 1, 0x1cd6a971⟩

def kernelBootctrlOf (bytes : List UInt8) : KernelBootctrl :=
  let m : Mem := fun i => bytes.getD i 0
  ⟨field m 0 0, field m 0 4, field m 0 8, field m 0 12, field m 0 16⟩

def validBootctrl (bytes : List UInt8) : Bool :=
  let control := kernelBootctrlOf bytes
  decide (control.magicNumber = 0x4C544342 ∧ tegrablUtilsCrc32 0 (bytes.take 16) = control.crc32 ∧
    control.version = 1 ∧ control.mode ≤ 1 ∧ control.command ≤ 2)

def controlOr (bytes : Except UInt32 (List UInt8)) : KernelBootctrl :=
  match bytes with
  | .ok bytes => if validBootctrl bytes then kernelBootctrlOf bytes else dummyKernelBootctrl
  | .error _ => dummyKernelBootctrl

def tegrablGetKernelBootctrl : LoadM σ KernelBootctrl := do
  match ← outside (P.loadBinaryCopy .primary) with
  | .ok bytes => return controlOr (.ok bytes)
  | .error _ => return controlOr (← outside (P.loadBinaryCopy .recovery))

/-- `tegrabl_a_b_rootfs_is_all_unbootable(NULL)`. -/
def rootfsIsAllUnbootable : LoadM σ Bool :=
  Attempt.call fun s =>
    match P.smd with
    | .error _ => (.ok false, s)
    | .ok smd =>
      match Smd.tegrablABRootfsIsAllUnbootable smd P.beyond s.rfReg with
      | .error a => (.error (.hang a), s)
      | .ok (all, rfReg) => (.ok all, { s with rfReg := rfReg })

def askRootfs : LoadM σ Bool := if cfg.abSlot then rootfsIsAllUnbootable P else pure false

def noteDecision (d : Decision) : LoadM σ Unit := modify fun s => { s with decisions := s.decisions ++ [d] }

def bootToRecovery : LoadM σ Bool :=
  if cfg.l4tRecovery then do
    let bootctrl ← tegrablGetKernelBootctrl P
    let all ← askRootfs cfg P
    noteDecision (.asked (bootctrl.mode == bootToRecoveryMode) all)
    return (Decision.asked (bootctrl.mode == bootToRecoveryMode) all).toRecovery
  else pure false

/-- `EXTLINUX_CONF_MAX_SIZE`, and the path and the name of the file. -/
def extlinuxConfMaxSize : UInt32 := 4096
def extlinuxConfPath : Text :=
  [47, 98, 111, 111, 116, 47, 101, 120, 116, 108, 105, 110, 117, 120, 47, 101, 120, 116, 108, 105, 110, 117, 120, 46,
    99, 111, 110, 102]
def extlinuxConfName : Text := extlinuxConfPath.drop 15

def getBootDetails (handle : FmHandle) : LoadM σ BootEntry := do
  match ← outside (P.alloc (extlinuxConfMaxSize + P.sigheaderSize)) with
  | none => throw (.own .noMemory 0)
  | some confLoadAddr =>
    setSize .conf (extlinuxConfMaxSize + P.sigheaderSize)
    let _ ← loadBinaryWithSig cfg P (some handle) .invalid extlinuxConfName (extlinuxConfMaxSize + P.sigheaderSize)
      (some extlinuxConfPath) confLoadAddr .conf
    let s ← get
    refuse (extlinuxConfMaxSize < s.sizes .conf) (.own .invalid 0)
    setMem fun m => Function.update m (confLoadAddr + (s.sizes .conf).toNat) 0
    let s ← get
    let (entry, sections) ← outside (P.parseConf confLoadAddr (s.sizes .conf) s.mem s.sections)
    modify fun s => { s with sections := sections }
    ofExcept (entry.mapError .lower)

/-- The paths of the kernel and of the device tree, where there is a file system with a configuration. -/
def bootPaths (handle : Option FmHandle) : LoadM σ (Option Text × Option Text) :=
  match handle with
  | none => pure (none, none)
  | some handle =>
    match handle.mountPath with
    | none => pure (none, none)
    | some _ => do
      match ← caught (getBootDetails cfg P handle) with
      | .error _ => return (none, none)
      | .ok entry =>
        modify fun s => { s with ramdiskPath := entry.initrdPath }
        return (entry.linuxPath, entry.dtbPath)

/-- The device tree of `extlinux_boot_load_kernel_and_dtb`. -/
def extlinuxLoadDtb (handle : Option FmHandle) (dtbPath : Option Text) : LoadM σ Unit := do
  let s ← get
  if s.fdtKernel ≠ 0 then do
    modify fun s => { s with kernelDtb := s.fdtKernel }
    noteDtb
  else do
    let _ ← loadBinaryWithSig cfg P handle .kernelDtb kernelDtbName P.dtbMaxSize dtbPath s.kernelDtb .dtb
    noteDtb

/-- A null pointer is nothing to `tegrabl_free`, and a block that is not allocated makes it hang. -/
def tegrablFree (ptr : Option Nat) : LoadM σ Unit :=
  match ptr with
  | none => pure ()
  | some ptr => do
    let freed ← outside (P.free ptr)
    refuse (!freed) .corrupted

def freeSections : List (Option Nat) → LoadM σ Unit
  | [] => pure ()
  | ptr :: sections => do
    tegrablFree P ptr
    freeSections sections

/-- `extlinux_boot_load_kernel_and_dtb` up to its label `fail`. -/
def extlinuxLoadKernelAndDtb (handle : Option FmHandle) : LoadM σ Bool := do
  let (linuxPath, dtbPath) ← bootPaths cfg P handle
  let addr ← attempting P.bootImgLoadAddr
  modify fun s => { s with bootImgLoadAddr := addr, kernelDtb := P.dtbLoadAddr }
  let fromRootfs ← loadBinaryWithSig cfg P handle .kernel bootName P.bootImageMaxSize linuxPath addr .kernel
  noteKernel
  onlyIf cfg.dtSupport (extlinuxLoadDtb cfg P handle dtbPath)
  return fromRootfs

/-- `extlinux_boot_load_kernel_and_dtb`: whether the kernel is from the file system. The sections of an earlier
configuration are freed again where none is parsed. -/
def extlinuxBootLoadKernelAndDtb (handle : Option FmHandle) : LoadM σ Bool := do
  let result ← caught (extlinuxLoadKernelAndDtb cfg P handle)
  let s ← get
  freeSections P s.sections
  ofExcept result

def ramdiskName : Text := [114, 97, 109, 100, 105, 115, 107]

def extlinuxBootLoadRamdisk (handle : Option FmHandle) : LoadM σ Unit := do
  refuse handle.isNone (.own .invalid 0)
  let s ← get
  match s.ramdiskPath with
  | none => pure ()
  | some path =>
    modify fun s => { s with ramdiskLoadAddr := P.ramdiskLoadAddr }
    setSize .ramdisk P.ramdiskMaxSize
    let _ ← loadBinaryWithSig cfg P handle .invalid ramdiskName P.ramdiskMaxSize (some path) P.ramdiskLoadAddr .ramdisk
    modify fun s => { s with ramdiskSize := (s.sizes .ramdisk).toNat }

/-- What both kinds of storage do with `extlinux`. -/
def extlinuxBoot (handle : Option FmHandle) : LoadM σ Unit := do
  let fromRootfs ← extlinuxBootLoadKernelAndDtb cfg P handle
  onlyIf fromRootfs do
    extlinuxBootLoadRamdisk cfg P handle
    modify fun s => { s with extlinuxBootIsSuccess := true }

def validated (binType : BinType) (binName : Text) (binMaxSize : UInt32) (loadAddr : Nat) (binLen : UInt32) :
    LoadM σ UInt32 := do
  let (result, len) ← tegrablValidateBinary P binType binName binMaxSize loadAddr binLen
  ofExcept result
  return len

def checkPair (row : ImgDtb) (addr : Nat) (imgSize : UInt32) : LoadM σ Unit :=
  if cfg.secureBoot then do
    let len ← validated P row.imgBinType row.imgName P.bootImageMaxSize addr imgSize
    let _ ← validated P row.dtbBinType row.dtbName P.dtbMaxSize P.dtbLoadAddr 0
    let s ← get
    ofExcept (tegrablVerifyBootImgHdr s.mem addr len)
  else do
    let s ← get
    ofExcept (tegrablVerifyBootImgHdr s.mem addr P.bootImageMaxSize)

/-- `load_from_partition` of a removable device. -/
def loadFromPartition (handle : FmHandle) (isRecovery : Bool) : LoadM σ Unit := do
  let addr ← attempting P.bootImgLoadAddr
  modify fun s => { s with bootImgLoadAddr := addr, kernelDtb := P.dtbLoadAddr }
  let row := if cfg.l4tRecovery && isRecovery then l4tRecoveryRow else normalRow
  let imgSize ← tegrablFmReadPartition P handle.device row.imgName addr P.bootImageMaxSize
  noteKernel
  let _ ← tegrablFmReadPartition P handle.device row.dtbName P.dtbLoadAddr P.dtbMaxSize
  noteDtb
  checkPair cfg P row addr imgSize

def lookForFs (device : Device) (published : Bool) : LoadM σ Bool :=
  if published then outside (P.bootGuidLookup device) else pure true

def mountFs (device : Device) (published : Bool) : LoadM σ (Option Text) := do
  let there ← lookForFs P device published
  if there then do
    let detected ← outside (P.fsDetect device)
    if detected then
      match P.mountPrefix device with
      | none => return none
      | some path => do
        let mounted ← outside (P.fsMount device)
        return if mounted then some path else none
    else return none
  else return none

def tegrablFmPublish (device : Device) : LoadM σ (Option FmHandle) := do
  let memory ← outside P.memory
  if memory then do
    let published ← outside (P.partitionPublish device)
    if cfg.extlinuxBoot then do
      let path ← mountFs P device published
      return some ⟨device, path, published⟩
    else return some ⟨device, none, published⟩
  else return none

def openRemovable (device : Device) : LoadM σ (Option FmHandle) := do
  attempting (P.initStorageDevice device)
  let opened ← outside (P.blockdevOpen device)
  refuse (!opened) (.own .openFailed 0)
  tegrablFmPublish cfg P device

def loadNormal (handle : FmHandle) : LoadM σ Unit :=
  if cfg.extlinuxBoot && handle.mountPath.isSome then extlinuxBoot cfg P (some handle)
  else do
    refuse (!handle.published) (.own .notFound 0)
    loadFromPartition cfg P handle false

/-- `removable_boot_load_kernel_and_dtb`. Without a handle there is nothing to load from, and no error. -/
def removableBootLoadKernelAndDtb (device : Device) : LoadM σ Unit := do
  match ← openRemovable cfg P device with
  | none => pure ()
  | some handle =>
    let recovery ← bootToRecovery cfg P
    if recovery then loadFromPartition cfg P handle true else loadNormal cfg P handle

variable (request : Request)

def bootImageSize (row : ImgDtb) (addr : Nat) (size : UInt32) : LoadM σ UInt32 :=
  if cfg.secureBoot then validated P row.imgBinType row.imgName P.bootImageMaxSize addr size
  else pure P.bootImageMaxSize

def loadBootImage (row : ImgDtb) : LoadM σ Unit :=
  if request.kernel.loadFromStorage then do
    let s ← get
    let (addr, size) ← onMemory (P.loadBinary row.imgBinType s.bootImgLoadAddr none)
    modify fun s => { s with bootImgLoadAddr := addr }
    noteKernel
    let len ← bootImageSize cfg P row addr size
    let s ← get
    ofExcept (tegrablVerifyBootImgHdr s.mem addr len)
  else
    match request.data with
    | none => throw (.own .invalid 0)
    | some (addr, _) => do
      modify fun s => { s with bootImgLoadAddr := addr }
      noteKernel

def findDtb (row : ImgDtb) : LoadM σ Unit := do
  let s ← get
  if row.preloaded && s.fdtKernel != 0 then modify fun s => { s with kernelDtb := s.fdtKernel }
  else do
    let (addr, _) ← onMemory (P.loadBinary row.dtbBinType s.kernelDtb none)
    modify fun s => { s with kernelDtb := addr }

def loadDtb (row : ImgDtb) : LoadM σ Unit := do
  findDtb P row
  noteDtb
  let s ← get
  onlyIf cfg.secureBoot do
    let _ ← validated P row.dtbBinType row.dtbName P.dtbMaxSize s.kernelDtb 0

/-- The overlay of `tegrabl_load_from_partition`. -/
def loadDtbo : LoadM σ Unit := do
  match ← outside (P.alloc 0x100000) with
  | none => throw (.own .noMemory 0)
  | some buffer =>
    modify fun s => { s with kernelDtbo := buffer }
    let (addr, _) ← onMemory (P.loadBinary .kernelDtbo buffer none)
    modify fun s => { s with kernelDtbo := addr }

def rowOf (bootToRecovery : Bool) : ImgDtb :=
  if cfg.l4tRecovery then if bootToRecovery then l4tRecoveryRow else normalRow
  else if cfg.osIsAndroid && request.kernel.binType == .recoveryKernel then androidRecoveryRow
  else normalRow

def tegrablLoadFromPartition (bootToRecovery : Bool) : LoadM σ Unit := do
  loadBootImage cfg P request (rowOf cfg request bootToRecovery)
  if cfg.dtSupport then do
    loadDtb cfg P (rowOf cfg request bootToRecovery)
    onlyIf cfg.dtbOverlay (loadDtbo P)
  else modify fun s => { s with kernelDtb := 0 }

def orReset (condition : Bool) (c : LoadM σ Unit) : LoadM σ Unit := do
  match ← caught c with
  | .ok () => pure ()
  | .error e => if condition then throw .reset else throw e

def fixedBootLoadKernelAndDtb : LoadM σ Unit := do
  let recovery ← bootToRecovery cfg P
  if recovery then orReset true (tegrablLoadFromPartition cfg P request true)
  else if cfg.extlinuxBoot then do
    let opened ← outside (P.blockdevOpen .fixed)
    refuse (!opened) (.own .openFailed 0)
    let handle ← tegrablFmPublish cfg P .fixed
    extlinuxBoot cfg P handle
  else orReset cfg.abSlot (tegrablLoadFromPartition cfg P request false)

def netBootLoadKernelAndDtb : LoadM σ Unit := do
  let up ← outside P.netBootStackInit
  refuse (!up) (.own .initFailed 0)
  modify fun s => { s with kernelDtb := P.dtbLoadAddr }
  let addr ← attempting P.bootImgLoadAddr
  modify fun s => { s with bootImgLoadAddr := addr }
  noteDecision .network
  let size ← onMemory (P.downloadFromTftp addr P.dtbLoadAddr)
  noteKernel
  noteDtb
  checkPair cfg P normalRow addr size

end

inductive DeviceId where
  | network
  | sd
  | usb
  | builtinStorage
  | nvme
  deriving DecidableEq, Repr

/-- `sd`, `usb`, `net`, `emmc`, `ufs`, `sata` and `nvme`. -/
def bootDevices : List (Text × DeviceId) :=
  [([115, 100], .sd), ([117, 115, 98], .usb), ([110, 101, 116], .network), ([101, 109, 109, 99], .builtinStorage),
    ([117, 102, 115], .builtinStorage), ([115, 97, 116, 97], .builtinStorage), ([110, 118, 109, 101], .nvme)]

/-- `tegrabl_cbo_map_boot_dev`: the device, and what follows its name. -/
def tegrablCboMapBootDev (bootDev : Text) : Option (DeviceId × Text) :=
  (bootDevices.find? fun row => row.1.isPrefixOf bootDev).map fun row => (row.2, bootDev.drop row.1.length)

section
variable {σ : Type} (cfg : Config) (P : Platform σ) (request : Request)

def kernelPayload (s : State σ) : Nat × UInt32 × Nat :=
  let addr := s.bootImgLoadAddr
  if hasBootImgHdr s.mem addr then
    (addr + (pagesize s.mem addr).toNat, kernelsize s.mem addr, P.kernelTextOffset)
  else if field s.mem addr 56 = 0x644d5241 then (addr, s.sizes .kernel, readLE s.mem (addr + 8) 8)
  else (addr, s.sizes .kernel, P.kernelTextOffset)

def extractKernel : LoadM σ Unit := do
  let s ← get
  let (payloadAddr, size, textOffset) := kernelPayload P s
  refuse (P.maxKernelImageSize < size) (.own .tooLarge 0)
  let entry := P.kernelLoadAddr + textOffset
  modify fun s => { s with kernelEntryPoint := entry }
  if P.isCompressedContent payloadAddr s.mem then
    onMemory (P.doDecompress payloadAddr size entry P.maxKernelImageSize)
  else setMem fun m => blit m entry m payloadAddr size.toNat

def roundUpPow2 (n w : UInt32) : UInt32 := ((n - 1) &&& ~~~(w - 1)) + w

def extractRamdisk : LoadM σ Unit := do
  modify fun s => { s with ramdiskLoad := P.ramdiskLoadAddr }
  let s ← get
  let addr := s.bootImgLoadAddr
  refuse (P.ramdiskMaxSize < ramdisksize s.mem addr) (.own .tooLarge 1)
  let offset := addr + (roundUpPow2 (pagesize s.mem addr + kernelsize s.mem addr) (pagesize s.mem addr)).toNat
  modify fun s => { s with ramdiskSize := (ramdisksize s.mem addr).toNat }
  onlyIf (offset ≠ P.ramdiskLoadAddr)
    (setMem fun m => blit m P.ramdiskLoadAddr m offset (ramdisksize s.mem addr).toNat)

/-- An overlay that fails leaves the device tree as it is. -/
def applyOverlay : LoadM σ Unit := do
  let s ← get
  match ← caught (onMemory (P.dtbOverlay s.kernelDtb s.kernelDtbo)) with
  | .ok addr => modify fun s => { s with kernelDtb := addr }
  | .error _ => pure ()

def extractKernelDtb : LoadM σ Unit :=
  if cfg.dtSupport then do
    let s ← get
    onMemory (P.dtCreateSpace s.kernelDtb)
    attempting (P.dtSetFdtHandle s.kernelDtb)
    modify fun t => { t with fdtKernel := s.kernelDtb }
    onMemory (P.updateDtb s.kernelDtb)
    onlyIf (cfg.extlinuxBoot && s.extlinuxBootIsSuccess) (onMemory (P.updateBootargs s.kernelDtb))
    onlyIf cfg.dtbOverlay (applyOverlay P)
  else pure ()

def verifyBoot : LoadM σ Unit :=
  match P.verifyBoot with
  | none => pure ()
  | some callback =>
    modify fun s =>
      let after := callback s.bootImgLoadAddr s.kernelDtb s.kernelDtbo s.mem s.env
      { s with mem := after.1, env := after.2 }

/-- The end of `tegrabl_load_kernel_and_dtb`, once something is loaded. -/
def extract : LoadM σ Unit := do
  modify fun s => { s with ramdiskLoad := s.ramdiskLoadAddr }
  verifyBoot P
  extractKernel P
  let s ← get
  onlyIf (hasBootImgHdr s.mem s.bootImgLoadAddr) (extractRamdisk P)
  extractKernelDtb cfg P

def loader (device : Device) : LoadM σ Unit :=
  match device with
  | .network => netBootLoadKernelAndDtb cfg P
  | .fixed => fixedBootLoadKernelAndDtb cfg P request
  | device => removableBootLoadKernelAndDtb cfg P device

def hasLoaded (s : State σ) : Bool :=
  s.kernelOf == some s.tries.length && (!cfg.dtSupport || s.dtbOf == some s.tries.length)

def tryDevice (device : Device) : LoadM σ (Except Error Unit) := do
  let result ← caught (loader cfg P request device)
  modify fun s => { s with tries := s.tries ++ [⟨device, result.isOk, result.isOk && hasLoaded cfg s⟩] }
  return result

def tryNext (device : Device) : LoadM σ Bool := do
  let result ← tryDevice cfg P request device
  return result.isOk

def tryFixed : LoadM σ Bool := do
  let result ← tryDevice cfg P request .fixed
  ofExcept result
  return true

/-- `nvme_load_kernel_and_dtb`, from a controller on. -/
def nvmeLoadKernelAndDtb : List UInt8 → LoadM σ Bool
  | [] => pure false
  | ctrl :: ctrls => do
    let done ← tryNext cfg P request (.nvme ctrl)
    if done then return true else nvmeLoadKernelAndDtb ctrls

def loadFrom (i : Nat) (id : DeviceId) (suffix : Text) : LoadM σ Bool :=
  match id with
  | .network => if cfg.ethernetBoot then tryNext cfg P request .network else tryFixed cfg P request
  | .sd => if cfg.usbSdBoot then tryNext cfg P request .sd else tryFixed cfg P request
  | .usb => if cfg.usbSdBoot then tryNext cfg P request .usb else tryFixed cfg P request
  | .nvme =>
    if cfg.nvmeBoot then
      match P.pcieCtrlNums i suffix with
      | none => pure false
      | some ctrls => nvmeLoadKernelAndDtb cfg P request ctrls
    else tryFixed cfg P request
  | .builtinStorage => tryFixed cfg P request

/-- The loop over the boot order, from its `i`-th device on: whether something is loaded. -/
def loadInOrder : Nat → List Text → LoadM σ Bool
  | _, [] => pure false
  | i, bootDev :: order =>
    match tegrablCboMapBootDev bootDev with
    | none => loadInOrder (i + 1) order
    | some (id, suffix) => do
      let done ← loadFrom cfg P request i id suffix
      if done then return true else loadInOrder (i + 1) order

/-- `tegrabl_load_kernel_and_dtb` before its last step. -/
def loadAndExtract (bootDevOrder : List Text) : LoadM σ Unit := do
  let done ← loadInOrder cfg P request 0 bootDevOrder
  onlyIf (!done) do
    let _ ← tryFixed cfg P request
  extract cfg P

def tegrablLoadKernelAndDtb (bootDevOrder : List Text) : LoadM σ Unit := do
  let result ← caught (loadAndExtract cfg P request bootDevOrder)
  if cfg.secureBoot then attempting P.authComplete else ofExcept result

end

end Cboot.Linuxboot
