import Cboot.Fastboot.Partinfo
import Cboot.Lib.Attempt
import Cboot.Sparse.Model

/-!
`lib/fastboot/tegrabl_fastboot_protocol.c`, with the hooks of `tegrabl_fastboot_oem.c` and `tegrabl_fastboot_a_b.c`.
What lies outside is a `Platform` on a world of its own. A handler that resets the board or enters a kernel may not come
back.
-/

namespace Cboot.Fastboot
open PartitionManager Blockdev Lib

/-- A `tegrabl_error_t` that is not `TEGRABL_NO_ERROR`, or a value. -/
abbrev Result (α : Type) := Except UInt32 α

abbrev Hook (σ α : Type) := σ → α × σ

inductive FastbootState where
  | offline
  | command
  | complete
  | error
  deriving DecidableEq, Repr

inductive Code where
  | info
  | data
  | okay
  | fail
  deriving DecidableEq, Repr

def Code.text : Code → Text
  | info => ascii "INFO"
  | data => ascii "DATA"
  | okay => ascii "OKAY"
  | fail => ascii "FAIL"

inductive Command where
  | reboot
  | rebootBootloader
  | rebootFastboot
  | rebootRecovery
  | getvar
  | erase
  | download
  | flash
  | boot
  | resume
  | oem
  | flashing
  | setActive
  deriving DecidableEq, Repr

inductive LockCmd where
  | lock
  | unlock
  deriving DecidableEq, Repr

inductive Event where
  | received (command : List UInt8)
  | dispatched (command : Option Command)
  | sent (code : Code) (reason : Text)
  /-- `len` bytes were asked for, with `room` bytes allocated, and came in full or not. -/
  | bulk (room len : Nat) (bytes : List UInt8) (full : Bool)
  | opened (partition : Partition)
  | erased (partition : Partition)
  | wrote (partition : Partition) (bytes : List UInt8)
  | flashed (image : List UInt8)
  | updated (payload : List UInt8) (slot : Slot)
  | activated (slot : Text)
  | booted (image : List UInt8)
  deriving DecidableEq, Repr

abbrev Storage := Bdev → UInt64 → UInt8

structure Fault where
  error : Blockdev.Error
  damage : Storage → Storage

/-- The memory at `download_base`, of which `room` bytes were allocated. -/
structure Buffer where
  room : Nat
  content : List UInt8
  deriving DecidableEq, Repr

structure State (σ : Type) where
  fastbootState : FastbootState
  downloadBase : Option Buffer
  downloadSize : Nat
  isAllocated : Bool
  storage : Storage
  world : σ
  log : List Event

/-- A hook of `tegrabl_fastboot_oem_ops` or `tegrabl_fastboot_a_b_ops` may be null. What does not come
back answers false. -/
structure Platform (σ : Type) where
  isDeviceUnlocked : Option (Hook σ Bool)
  changeDeviceState : Option (LockCmd → Hook σ (Result Unit))
  getFuseEcid : Option (Hook σ (Result Text))
  getCurrentSlot : Option (Hook σ (Result Text))
  getSlotNum : Option (Hook σ (Result UInt8))
  getSlotSuffix : Option (Nat → Hook σ (Result Text))
  isSlotSuccessful : Option (Text → Hook σ (Result Bool))
  isSlotUnbootable : Option (Text → Hook σ (Result Bool))
  getSlotRetryCount : Option (Text → Hook σ (Result UInt8))
  slotSetActive : Option (Text → Hook σ (Result Unit))
  usbfSend : Text → Hook σ (Result Unit)
  usbfReceive : Nat → Hook σ (Result Unit × List UInt8)
  memalign : Nat → Hook σ Bool
  getSerialNo : Hook σ (Result Text)
  dtGetFdtHandle : Hook σ (Result Unit)
  dtGetDtsFilename : Hook σ (Result Text)
  deviceWrite : Bdev → UInt64 → List UInt8 → Hook σ (Option Fault)
  partitionErase : Partition → Storage → Hook σ (Result Unit × Storage)
  checkAndUpdateBlPayload : List UInt8 → Slot → Storage → Hook σ (Result Unit × Storage)
  loadKernelAndDtb : List UInt8 → Hook σ (Result Unit)
  kernelEntry : Hook σ Bool
  reset : Hook σ Bool
  rebootFastboot : Hook σ Bool
  rebootForcedRecovery : Hook σ Bool
  setRecoveryFlag : Hook σ Unit
  published : Published
  product : Text
  sparseCrc : Bool

/-- Why a handler does not come back: the board is reset or a kernel runs, or memory is overrun. -/
inductive Gone where
  | away
  | lost
  deriving DecidableEq, Repr

abbrev FastbootM (σ : Type) := Attempt Gone (State σ)

section
variable {σ α : Type}

def get : FastbootM σ (State σ) := Attempt.call fun s => (.ok s, s)

def modify (f : State σ → State σ) : FastbootM σ Unit := Attempt.call fun s => (.ok (), f s)

def note (e : Event) : FastbootM σ Unit := modify fun s => { s with log := s.log ++ [e] }

def outside (f : Hook σ α) : FastbootM σ α := Attempt.call fun s =>
  let done := f s.world
  (.ok done.1, { s with world := done.2 })

def onStorage (f : Storage → Hook σ (α × Storage)) : FastbootM σ α := Attempt.call fun s =>
  let done := f s.storage s.world
  (.ok done.1.1, { s with storage := done.1.2, world := done.2 })

def departing (f : Hook σ Bool) : FastbootM σ Unit := do
  let back ← outside f
  if back then pure () else throw .away

/-- A hook that may be null: `TEGRABL_ERR_NOT_SUPPORTED`. -/
def optional (hook : Option (Hook σ (Result α))) : FastbootM σ (Result α) :=
  match hook with
  | none => pure (.error 1)
  | some hook => outside hook

def forEach {ι : Type} (f : ι → FastbootM σ Unit) : List ι → FastbootM σ Unit
  | [] => pure ()
  | i :: rest => do
    f i
    forEach f rest

end

section
variable {σ : Type} (P : Platform σ)

def maxResponseSize : Nat := 64

def usbfSend (code : Code) (reason : Text) : FastbootM σ (Result Unit) := do
  note (.sent code reason)
  outside (P.usbfSend (code.text ++ reason))

def fastbootAck (code : Code) (reason : Text) : FastbootM σ Unit := do
  let s ← get
  if s.fastbootState = .command then do
    modify fun s => { s with fastbootState := if code = .info then .command else .complete }
    let _ ← usbfSend P code (reason.take (maxResponseSize - 1 - code.text.length))
  else pure ()

def fastbootFail (reason : String) : FastbootM σ Unit := fastbootAck P .fail (ascii reason)
def fastbootOkay (info : Text) : FastbootM σ Unit := fastbootAck P .okay info

def tegrablIsDeviceUnlocked : FastbootM σ (Result Bool) :=
  optional (P.isDeviceUnlocked.map fun hook w => ((.ok (hook w).1), (hook w).2))

def tegrablChangeDeviceState (cmd : LockCmd) : FastbootM σ (Result Unit) :=
  optional (P.changeDeviceState.map fun hook => hook cmd)

def whenUnlocked (body : FastbootM σ Unit) : FastbootM σ Unit := do
  match ← tegrablIsDeviceUnlocked P with
  | .error _ => fastbootFail P "Bootloader lock state unknown"
  | .ok false => fastbootFail P "Bootloader is locked."
  | .ok true => body

def isVarType (arg : Text) (var : String) : Bool := (ascii var).isPrefixOf arg

def varArg (arg : Text) (var : String) : Text := arg.drop (ascii var).length

def copyResponse (response msg : Text) : Text :=
  response ++ msg.take (maxResponseSize - 1 - response.length)

def copyText (response : Text) (msg : String) : Text := copyResponse response (ascii msg)

def digits (base n : Nat) : Text := (Nat.toDigits base n).map fun c => c.toNat.toUInt8

def hexWord (n : Nat) : Text := List.replicate (8 - (digits 16 n).length) 48 ++ digits 16 n

def maxDownloadSize : Nat := 0x2000000

def yesNo (b : Bool) : Text := ascii (if b then "yes" else "no")

def lockVar (unlocked locked : String) (response : Text) : FastbootM σ Text := do
  match ← tegrablIsDeviceUnlocked P with
  | .error _ => pure response
  | .ok is => pure (copyText response (if is then unlocked else locked))

def askedPartition (name : Text) : FastbootM σ (Option (FastbootPartitionInfo × Partition)) :=
  match tegrablFastbootGetPartinfo name with
  | none => pure none
  | some partinfo =>
    pure ((openPartition P.published (some partinfo.tegraPartName)).map (partinfo, ·))

def partitionSize (partition : Partition) : Nat :=
  (partition.info.map fun info => info.totalSize.toNat).getD 0

def partitionSizeVar (name response : Text) : FastbootM σ Text := do
  match ← askedPartition P name with
  | none => pure response
  | some (_, partition) =>
    if 0 < partitionSize partition then
      pure (response ++ ascii "0x" ++ digits 16 (partitionSize partition))
    else pure response

def partitionTypeVar (name response : Text) : FastbootM σ Text := do
  match ← askedPartition P name with
  | none => pure response
  | some (partinfo, _) => pure (response ++ partinfo.fastbootPartType)

def fastbootABVarList : List String := [
  "slot-successful:", "slot-unbootable:", "slot-retry-count:", "current-slot", "slot-suffixes",
  "has-slot", "slot-count", "is-logical"]

def isABVarType (arg : Text) : Bool := fastbootABVarList.any (isVarType arg)

def noPartition : String := "No partition present with this name."
def noSlot : String := "No slot present with this suffix."

/-- A name that has no entry is reported without an error, and the answer follows the report. -/
def hasSlotVar (name response : Text) : Text :=
  let name := if name = ascii "bootloader" then ascii "cpu-bootloader" else name
  match tegrablFastbootGetPartinfo name with
  | none => copyResponse (copyText response noPartition) (yesNo false)
  | some partinfo =>
    match openPartition P.published (some partinfo.tegraPartName) with
    | none => copyText response noPartition
    | some _ =>
      copyResponse response (yesNo (openPartition P.published partinfo.tegraPartNameB).isSome)

def isLogicalVar (name response : Text) : Text :=
  match tegrablFastbootGetPartinfo name with
  | none => copyResponse (copyText response noPartition) (yesNo false)
  | some partinfo =>
    match openPartition P.published (some partinfo.tegraPartName) with
    | none => copyText response noPartition
    | some _ => copyResponse response (yesNo false)

/-- The suffixes from the `i`-th of `n` slots on, with commas between them. -/
def slotSuffixes (n : Nat) : Nat → Text → FastbootM σ (Result Text)
  | 0, slot => pure (.ok slot)
  | left + 1, slot => do
    match ← optional (P.getSlotSuffix.map fun hook => hook (n - (left + 1))) with
    | .error e => pure (.error e)
    | .ok suffix => slotSuffixes n left (slot ++ suffix ++ if left = 0 then [] else ascii ",")

def tegrablGetSlotSuffixes : FastbootM σ (Result Text) := do
  if P.getSlotSuffix.isNone then pure (.error 1)
  else do
    match ← optional P.getSlotNum with
    | .error e => pure (.error e)
    | .ok n => slotSuffixes P n.toNat n.toNat []

def slotVar {α : Type} (hook : Option (Hook σ (Result α))) (shown : α → Text) (response : Text) :
    FastbootM σ Text := do
  match ← optional hook with
  | .error _ => pure (copyText response noSlot)
  | .ok a => pure (copyResponse response (shown a))

def plainVar {α : Type} (ask : FastbootM σ (Result α)) (shown : α → Text) (response : Text) :
    FastbootM σ Text := do
  match ← ask with
  | .error _ => pure response
  | .ok a => pure (copyResponse response (shown a))

/-- `tegrabl_fastboot_a_b_var_handler`. What it returns is not used. -/
def tegrablFastbootABVarHandler (arg response : Text) : FastbootM σ Text :=
  if isVarType arg "has-slot:" then pure (hasSlotVar P (varArg arg "has-slot:") response)
  else if isVarType arg "current-slot" then plainVar (optional P.getCurrentSlot) id response
  else if isVarType arg "slot-suffixes" then plainVar (tegrablGetSlotSuffixes P) id response
  else if isVarType arg "slot-count" then
    plainVar (optional P.getSlotNum) (fun n => digits 10 n.toNat) response
  else if isVarType arg "slot-successful:" then
    slotVar (P.isSlotSuccessful.map fun hook => hook (varArg arg "slot-successful:")) yesNo response
  else if isVarType arg "slot-unbootable:" then
    slotVar (P.isSlotUnbootable.map fun hook => hook (varArg arg "slot-unbootable:")) yesNo response
  else if isVarType arg "slot-retry-count:" then
    slotVar (P.getSlotRetryCount.map fun hook => hook (varArg arg "slot-retry-count:"))
      (fun n => digits 10 n.toNat) response
  else if isVarType arg "is-logical:" then pure (isLogicalVar P (varArg arg "is-logical:") response)
  else pure response

def serialVar (response : Text) : FastbootM σ Text := do
  match ← outside P.getSerialNo with
  | .error _ => pure (copyText response "not valid")
  | .ok serialNo => pure (copyResponse response serialNo)

def fastbootGetvar (arg response : Text) : FastbootM σ Text :=
  if isVarType arg "version-bootloader" then pure (copyText response "1.0")
  else if isVarType arg "max-download-size" then pure (ascii "0x" ++ hexWord maxDownloadSize)
  else if isVarType arg "product" then pure (copyResponse response P.product)
  else if isVarType arg "serialno" then serialVar P response
  else if isVarType arg "secure" then lockVar P "No" "Yes" response
  else if isVarType arg "unlocked" then lockVar P "Yes" "No" response
  else if isVarType arg "partition-size:" then
    partitionSizeVar P (varArg arg "partition-size:") response
  else if isVarType arg "partition-type:" then
    partitionTypeVar P (varArg arg "partition-type:") response
  else if isABVarType arg then tegrablFastbootABVarHandler P arg response
  else pure (copyText response "Unknown var!")

def fastbootVarList : List String := [
  "version-bootloader", "serialno", "product", "secure", "unlocked", "current-slot", "slot-suffixes"]

def fastbootPartitionVarList : List String := ["partition-size:", "partition-type:", "has-slot:"]

def fastbootABSlotVarList : List String := ["slot-successful:", "slot-unbootable:", "slot-retry-count:"]

/-- One line of `getvar:all`: the name of the variable, and its value. -/
def infoVar (cmd : Text) : FastbootM σ Unit := do
  let response ← fastbootGetvar P cmd (copyText cmd ": ")
  fastbootAck P .info response

def infoSlotVar (var : String) (slot : Nat) : FastbootM σ Unit := do
  match ← optional (P.getSlotSuffix.map fun hook => hook slot) with
  | .error _ => pure ()
  | .ok suffix => infoVar P (copyText [] var ++ suffix)

def getvarAll : FastbootM σ Unit := do
  forEach (fun var => infoVar P (copyText [] var)) fastbootVarList
  forEach (fun row => forEach
    (fun var => infoVar P (copyResponse (copyText [] var) row.fastbootPartName))
    fastbootPartitionVarList) fastbootPartitionMapTable
  match ← optional P.getSlotNum with
  | .error _ => pure ()
  | .ok numSlots => do
    forEach (fun var => forEach (infoSlotVar P var) (List.range numSlots.toNat)) fastbootABSlotVarList
    fastbootOkay P []

def cmdGetvar (arg : Text) : FastbootM σ Unit :=
  if isVarType arg "all" then getvarAll P
  else do
    let response ← fastbootGetvar P arg []
    fastbootOkay P response

def cmdReboot : FastbootM σ Unit := do
  fastbootOkay P []
  departing P.reset

def cmdRebootBootloader : FastbootM σ Unit := do
  fastbootOkay P []
  departing P.rebootFastboot

def cmdRebootFastboot : FastbootM σ Unit := fastbootFail P "Rebooting to fastbootd is not implemented"

def cmdRebootRecovery : FastbootM σ Unit := do
  fastbootOkay P []
  outside P.setRecoveryFlag
  departing P.reset

def cmdContinue : FastbootM σ Unit := fastbootOkay P []

def tegrablSetActiveSlot (slot : Text) : FastbootM σ (Result Unit) := do
  note (.activated slot)
  optional (P.slotSetActive.map fun hook => hook slot)

def cmdSetActiveSlot (arg : Text) : FastbootM σ Unit := whenUnlocked P do
  match ← tegrablSetActiveSlot P arg with
  | .error _ => fastbootFail P "Failed to set slot active"
  | .ok () => fastbootOkay P []

def lockCmd (arg : Text) : Option LockCmd :=
  if isVarType arg "lock" then some .lock
  else if isVarType arg "unlock" then some .unlock
  else none

/-- What `tegrabl_change_device_state` returns is dropped. -/
def cmdFlashing (arg : Text) : FastbootM σ Unit :=
  match lockCmd arg with
  | some cmd => do
    let _ ← tegrablChangeDeviceState P cmd
    fastbootOkay P []
  | none => fastbootOkay P []

def dtbName (path : Text) : Text :=
  (((path.reverse.takeWhile (· ≠ 47)).reverse).take (maxResponseSize - 1)).dropLast ++ ascii "b"

def oemDtbname : FastbootM σ (Result Unit) := do
  match ← outside P.dtGetFdtHandle with
  | .error e => do
    fastbootFail P "DTB name not found!"
    pure (.error e)
  | .ok () => do
    match ← outside P.dtGetDtsFilename with
    | .error e => do
      fastbootFail P "DTB name not found!"
      pure (.error e)
    | .ok path => do
      fastbootAck P .info (dtbName path)
      pure (.ok ())

def oemEcid : FastbootM σ (Result Unit) := do
  match ← optional P.getFuseEcid with
  | .error e => do
    fastbootFail P "Get ecid failed!"
    pure (.error e)
  | .ok ecid => do
    fastbootAck P .info ecid
    pure (.ok ())

def tegrablFastbootOemHandler (arg : Text) : FastbootM σ (Result Unit) :=
  match lockCmd arg with
  | some cmd => tegrablChangeDeviceState P cmd
  | none =>
    if isVarType arg "dtbname" then oemDtbname P
    else if isVarType arg "ecid" then oemEcid P
    else if isVarType arg "force-recovery" then do
      fastbootOkay P []
      departing P.rebootForcedRecovery
      pure (.ok ())
    else pure (.ok ())

def cmdOem (arg : Text) : FastbootM σ Unit := do
  match ← tegrablFastbootOemHandler P arg with
  | .error _ => pure ()
  | .ok () => fastbootOkay P []

/-- `tegrabl_partition_open`, with what it opened in the log. -/
def tegrablFastbootOpen (name : Option Text) : FastbootM σ (Option Partition) :=
  match openPartition P.published name with
  | none => pure none
  | some partition => do
    note (.opened partition)
    pure (some partition)

def erasePartition (partition : Partition) : FastbootM σ (Result Unit) := do
  note (.erased partition)
  onStorage (P.partitionErase partition)

def cmdErase (arg : Text) : FastbootM σ Unit := whenUnlocked P do
  match tegrablFastbootGetPartinfo arg with
  | none => fastbootFail P noPartition
  | some partinfo => do
    match ← tegrablFastbootOpen P (some partinfo.tegraPartName) with
    | none => fastbootFail P "Partition erase failed!"
    | some partition => do
      match ← erasePartition P partition with
      | .error _ => fastbootFail P "Partition erase failed!"
      | .ok () => fastbootOkay P []

def hexDigit (x : UInt8) : Option UInt32 :=
  if 48 ≤ x ∧ x ≤ 57 then some (x - 48).toUInt32
  else if 97 ≤ x ∧ x ≤ 102 then some (x - 97 + 10).toUInt32
  else if 65 ≤ x ∧ x ≤ 70 then some (x - 65 + 10).toUInt32
  else none

def hexFrom (n : UInt32) : Text → UInt32
  | [] => n
  | x :: rest =>
    match hexDigit x with
    | some d => hexFrom (n <<< 4 ||| d) rest
    | none => n

def hex2uint32 (x : Text) : UInt32 := hexFrom 0 x

def allocateOnce (len : Nat) : FastbootM σ Unit := do
  let s ← get
  if s.isAllocated then pure ()
  else do
    let memory ← outside (P.memalign len)
    modify fun s => { s with
      downloadBase := if memory then some ⟨len, []⟩ else none
      isAllocated := true }

/-- `tegrabl_transport_usbf_receive` to the buffer: whether all the bytes came. -/
def receiveBulk (base : Buffer) (len : Nat) : FastbootM σ Bool := do
  let got ← outside (P.usbfReceive len)
  let bytes := got.2.take len
  let full := got.1.isOk && bytes.length == len
  note (.bulk base.room len bytes full)
  modify fun s => { s with
    downloadBase := some { base with content := bytes ++ base.content.drop bytes.length } }
  pure full

def receiveDownload (len : Nat) : FastbootM σ Unit := do
  let s ← get
  match s.downloadBase with
  | none => fastbootFail P "Memory Insufficient"
  | some base => do
    let full ← receiveBulk P base len
    if full then do
      modify fun s => { s with downloadSize := len }
      fastbootOkay P []
    else do
      fastbootFail P "USB read Failed"
      modify fun s => { s with fastbootState := .error }

def cmdDownload (arg : Text) : FastbootM σ Unit :=
  let len := (hex2uint32 arg).toNat
  whenUnlocked P do
    modify fun s => { s with downloadSize := 0 }
    if maxDownloadSize < len then fastbootFail P "data too large"
    else do
      match ← usbfSend P .data (hexWord len) with
      | .error _ => pure ()
      | .ok () => do
        allocateOnce P len
        receiveDownload P len

/-- The first `download_size` bytes at `download_base`. -/
def State.image (s : State σ) : List UInt8 :=
  (s.downloadBase.map fun base => base.content.take s.downloadSize).getD []

/-- The handler is given `download_base` and uses the current `download_size`. -/
def cmdBoot : FastbootM σ Unit := whenUnlocked P do
  fastbootOkay P []
  let s ← get
  note (.booted s.image)
  match ← outside (P.loadKernelAndDtb s.image) with
  | .error _ => pure ()
  | .ok () => departing P.kernelEntry

def Storage.put (storage : Storage) (dev : Bdev) (offset : UInt64) (bytes : List UInt8) : Storage :=
  fun d i => if d = dev then bytes.getD (i - offset).toNat (storage d i) else storage d i

def mediaWrite (bytes : List UInt8) (dev : Bdev) (offset : UInt64) (s : State σ) :
    Except Blockdev.Error Unit × State σ :=
  let done := P.deviceWrite dev offset bytes s.world
  match done.1 with
  | none => (.ok (), { s with storage := s.storage.put dev offset bytes, world := done.2 })
  | some fault =>
    (.error fault.error, { s with storage := fault.damage s.storage, world := done.2 })

def mediaIo (bytes : List UInt8) : Io (State σ) where
  read _ _ _ _ := Blockdev.fail .invalid 0
  write dev _ offset _ := ExceptT.mk (mediaWrite P bytes dev offset)

/-- `tegrabl_fastboot_partition_write` of bytes at an address that is not null. -/
def tegrablFastbootPartitionWrite (bytes : List UInt8) (partition : Partition) (s : State σ) :
    PartitionManager.Ended (State σ) :=
  tegrablPartitionWrite (mediaIo P bytes) (some partition) 1 (UInt64.ofNat bytes.length)
    { s with log := s.log ++ [.wrote partition bytes] }

def seekCur : UInt32 := 1

def tegrablFastbootPartitionSeek (size : Nat) (partition : Partition) (s : State σ) :
    PartitionManager.Ended (State σ) :=
  tegrablPartitionSeek (some partition) (Int64.ofNat size) seekCur s

def called (partition : Partition) (ended : PartitionManager.Ended (State σ)) :
    Option UInt32 × Partition × State σ :=
  ((if ended.result.isOk then none else some 1), ended.partition.getD partition, ended.rest)

def flashCallbacks : Sparse.Callbacks (Partition × State σ) where
  writer bytes aux := called aux.1 (tegrablFastbootPartitionWrite P bytes aux.1 aux.2)
  seeker size aux := called aux.1 (tegrablFastbootPartitionSeek size aux.1 aux.2)

def tegrablSparseImageCheck (image : List UInt8) : Bool :=
  decide (4 ≤ image.length) &&
    UInt32.ofNat (ofLeDigits (image.take 4)) == Sparse.sparseHeaderMagic

def flashExit (error : Bool) : FastbootM σ Unit :=
  if error then fastbootFail P "Partition write failed!" else fastbootOkay P []

def unsparseEnd (done : Sparse.Result (Partition × State σ)) : Except Gone Bool × State σ :=
  match done.outcome with
  | .returns error => (.ok error.isSome, done.aux.2)
  | .overrun => (.error .lost, done.aux.2)
  | .hangs => (.error .away, done.aux.2)

def unsparseTo (partition : Partition) (st : Sparse.UnsparseState) (image : List UInt8) :
    FastbootM σ Bool := Attempt.call fun s => unsparseEnd
  (Sparse.tegrablSparseUnsparse P.sparseCrc (flashCallbacks P) st image (partition, s))

def flashSparse (partition : Partition) (image : List UInt8) : FastbootM σ Unit :=
  match Sparse.tegrablSparseInitUnsparseState (UInt64.ofNat (partitionSize partition)) true with
  | .error _ => pure ()
  | .ok st => do
    let error ← unsparseTo P partition st image
    flashExit P error

def flashRaw (partition : Partition) (image : List UInt8) : FastbootM σ Unit := do
  modify fun s => (tegrablFastbootPartitionWrite P image partition s).rest
  flashExit P false

def flashImage (partition : Partition) (image : List UInt8) : FastbootM σ Unit := do
  note (.flashed image)
  if tegrablSparseImageCheck image then flashSparse P partition image
  else flashRaw P partition image

def flashPartition (suffix : Slot) (arg : Text) (image : List UInt8) : FastbootM σ Unit :=
  match tegrablFastbootGetPartinfo arg with
  | none => fastbootFail P noPartition
  | some partinfo => do
    match ← tegrablFastbootOpen P (tegrablFastbootGetTegraPartName suffix partinfo) with
    | none => fastbootFail P "Partition may not exist or can not be accessed."
    | some partition => flashImage P partition image

def flashPayload (suffix : Slot) (image : List UInt8) : FastbootM σ Unit := do
  note (.updated image suffix)
  let result ← onStorage (P.checkAndUpdateBlPayload image suffix)
  flashExit P (!result.isOk)

def flashPrefix : Text := ascii "flash:"

def cmdFlash (arg : Text) : FastbootM σ Unit := whenUnlocked P do
  let s ← get
  if s.downloadBase.isNone || s.downloadSize == 0 then pure ()
  else
    let suffix := tegrablABGetPartSuffix flashPrefix arg
    if tegrablABMatchPartNameWithSuffix (ascii "bootloader") arg then flashPayload P suffix s.image
    else flashPartition P suffix arg s.image

/-- Each prefix is put in front of those registered before it. -/
def fastbootRegister (cmdlist : List (Text × Command)) (cmd : String × Command) :
    List (Text × Command) := (ascii cmd.1, cmd.2) :: cmdlist

def fastbootCommands : List (String × Command) := [
  ("reboot", .reboot), ("reboot-bootloader", .rebootBootloader), ("reboot-fastboot", .rebootFastboot),
  ("reboot-recovery", .rebootRecovery), ("getvar:", .getvar), ("erase:", .erase), ("download:", .download),
  ("flash:", .flash), ("boot", .boot), ("continue", .resume), ("oem ", .oem), ("flashing ", .flashing),
  ("set_active:", .setActive)]

/-- `cmdlist` when no allocation fails. -/
def tegrablFastbootCmdInit : List (Text × Command) := fastbootCommands.foldl fastbootRegister []

def Command.handle (cmd : Command) (arg : Text) : FastbootM σ Unit :=
  match cmd with
  | .reboot => cmdReboot P
  | .rebootBootloader => cmdRebootBootloader P
  | .rebootFastboot => cmdRebootFastboot P
  | .rebootRecovery => cmdRebootRecovery P
  | .getvar => cmdGetvar P arg
  | .erase => cmdErase P arg
  | .download => cmdDownload P arg
  | .flash => cmdFlash P arg
  | .boot => cmdBoot P
  | .resume => cmdContinue P
  | .oem => cmdOem P arg
  | .flashing => cmdFlashing P arg
  | .setActive => cmdSetActiveSlot P arg

/-- The first entry of `cmdlist` whose prefix the command has. The buffer has a zero behind the
command, which no prefix has. -/
def findCommand (buffer : List UInt8) : Option (Text × Command) :=
  tegrablFastbootCmdInit.find? fun cmd => cmd.1.isPrefixOf buffer

def afterHandle (buffer : List UInt8) : FastbootM σ Bool :=
  if (ascii "continue").isPrefixOf buffer then pure true
  else do
    let s ← get
    if s.fastbootState = .command then do
      fastbootFail P "unknown reason"
      pure false
    else pure false

def dispatch (buffer : List UInt8) : FastbootM σ Bool := do
  modify fun s => { s with fastbootState := .command }
  match findCommand buffer with
  | none => do
    note (.dispatched none)
    fastbootFail P "unknown command"
    pure false
  | some cmd => do
    note (.dispatched cmd.2)
    cmd.2.handle P (text (buffer.drop cmd.1.length))
    afterHandle P buffer

def commandSize : Nat := 64

/-- One turn of the loop of `tegrabl_fastboot_command_handler`: what the function returns, `none` if
the loop goes on. -/
def turn : FastbootM σ (Option (Result Unit)) := do
  let got ← outside (P.usbfReceive commandSize)
  match got.1 with
  | .error e => do
    modify fun s => { s with fastbootState := .offline }
    pure (some (.error e))
  | .ok () => do
    note (.received (got.2.take commandSize))
    let returns ← dispatch P (got.2.take commandSize)
    if returns then pure (some (.ok ()))
    else do
      let s ← get
      if s.fastbootState = .error then do
        modify fun s => { s with fastbootState := .offline }
        pure (some (.ok ()))
      else pure none

/-- The loop, for as many turns as there is fuel: `none` if it is not over then. -/
def loop : Nat → FastbootM σ (Option (Result Unit))
  | 0 => pure none
  | fuel + 1 => do
    match ← turn P with
    | some result => pure (some result)
    | none => loop fuel

def tegrablFastbootCommandHandler (fuel : Nat) : FastbootM σ (Option (Result Unit)) := do
  let memory ← outside (P.memalign 512)
  if memory then do
    let s ← get
    if s.fastbootState = .error then do
      modify fun s => { s with fastbootState := .offline }
      pure (some (.ok ()))
    else loop P fuel
  else do
    modify fun s => { s with fastbootState := .offline }
    pure (some (.error 2))

end

structure Script where
  unlocked : Bool
  inputs : List (List UInt8)
  deriving DecidableEq, Repr

def scripted (published : Published) : Platform Script where
  isDeviceUnlocked := some fun w => (w.unlocked, w)
  changeDeviceState := some fun cmd w => (.ok (), { w with unlocked := cmd = .unlock })
  getFuseEcid := none
  getCurrentSlot := none
  getSlotNum := none
  getSlotSuffix := none
  isSlotSuccessful := none
  isSlotUnbootable := none
  getSlotRetryCount := none
  slotSetActive := none
  usbfSend _ w := (.ok (), w)
  usbfReceive _ w :=
    match w.inputs with
    | [] => ((.error 3, []), w)
    | bytes :: inputs => ((.ok (), bytes), { w with inputs := inputs })
  memalign _ w := (true, w)
  getSerialNo w := (.error 1, w)
  dtGetFdtHandle w := (.error 1, w)
  dtGetDtsFilename w := (.error 1, w)
  deviceWrite _ _ _ w := (none, w)
  partitionErase _ storage w := ((.ok (), storage), w)
  checkAndUpdateBlPayload _ _ storage w := ((.ok (), storage), w)
  loadKernelAndDtb _ w := (.error 1, w)
  kernelEntry w := (false, w)
  reset w := (false, w)
  rebootFastboot w := (false, w)
  rebootForcedRecovery w := (false, w)
  setRecoveryFlag w := ((), w)
  published := published
  product := ascii "tegra"
  sparseCrc := false

def scriptStart (inputs : List (List UInt8)) : State Script where
  fastbootState := .offline
  downloadBase := none
  downloadSize := 0
  isAllocated := false
  storage _ _ := 0
  world := ⟨true, inputs⟩
  log := []

end Cboot.Fastboot
