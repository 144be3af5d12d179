import Cboot.Fs.Normalize

/-!
`lib/fs/fs.c` as far as `lib/file_manager/tegrabl_file_manager.c` uses it, in a build with
`CONFIG_ENABLE_EXTLINUX_BOOT`. The file systems themselves, the partitions and the memory that is left
are what a call meets.
-/

namespace Cboot.Fs

def ascii (s : String) : Text := s.toList.map fun c => c.toNat.toUInt8

structure CString where
  text : Text
  plain : 0 ∉ text

structure Bdev where
  self : Nat
  deviceId : UInt32
  deriving DecidableEq, Repr

inductive FsType where
  | ext2
  | ext4
  deriving DecidableEq, Repr

inductive FsError where
  | notFound
  | badPath
  | alreadyMounted
  | noMemory
  | fs
  deriving DecidableEq, Repr

inductive Reason where
  | noMemory
  | invalid
  | openFailed
  | readFailed
  | overflow
  deriving DecidableEq, Repr

inductive Error where
  | own (reason : Reason) (detail : Nat)
  | lower (code : UInt32)
  deriving DecidableEq, Repr

structure Mount where
  self : Nat
  path : Text
  dev : Bdev
  ref : Int
  deriving DecidableEq, Repr

structure Handle where
  self : Nat
  bdev : Bdev
  fsType : Option FsType
  mountPath : Option Text
  startSector : UInt32
  deriving DecidableEq, Repr

/-- `handles` are those that were not closed, and `next` is where the next structure goes. -/
structure State where
  mounts : List Mount
  handles : List Handle
  fmHandle : Option Nat
  next : Nat
  deriving DecidableEq, Repr

def fsMaxPathLen : Nat := 128

def strlcpy (text : Text) (n : Nat) : Text := text.take (n - 1)

def Mount.setRef (self : Nat) (ref : Int → Int) (mount : Mount) : Mount :=
  if mount.self = self then { mount with ref := ref mount.ref } else mount

def State.setRef (s : State) (self : Nat) (ref : Int → Int) : State :=
  { s with mounts := s.mounts.map (Mount.setRef self ref) }

def findMount (path : Text) (s : State) : Option (Mount × Text) × State :=
  match s.mounts.find? fun mount => mount.path.isPrefixOf path with
  | none => (none, s)
  | some mount => (some (mount, path.drop mount.path.length), s.setRef mount.self (· + 1))

def putMount (self : Nat) (s : State) : State :=
  match s.mounts.find? fun mount => mount.self = self with
  | none => s
  | some mount =>
    if mount.ref - 1 = 0 then { s with mounts := s.mounts.filter fun mount => mount.self ≠ self }
    else s.setRef self (· - 1)

/-- What a call of `tegrabl_fm_publish` meets. -/
structure PublishEnv where
  memory : Bool
  partitionPublish : Except UInt32 Unit
  bootGuidLookup : Except UInt32 UInt32
  fsDetect : UInt32 → Option FsType
  findFs : FsType → Bool
  mountMemory : Bool
  mounts : Bool

def mount (path : Text) (dev : Bdev) (env : PublishEnv) (s : State) : Except FsError Unit × State :=
  let temppath := fsNormalizePath (strlcpy path fsMaxPathLen)
  if temppath.head? ≠ some slash then (.error .badPath, s)
  else
    match findMount temppath s with
    | (some (mount, _), s) => (.error .alreadyMounted, putMount mount.self s)
    | (none, s) =>
      if !env.mountMemory then (.error .noMemory, s)
      else if !env.mounts then (.error .fs, s)
      else (.ok (), { s with mounts := ⟨s.next, temppath, dev, 1⟩ :: s.mounts, next := s.next + 1 })

def fsMount (path : Text) (fsType : FsType) (dev : Bdev) (env : PublishEnv) (s : State) :
    Except FsError Unit × State :=
  if !env.findFs fsType then (.error .notFound, s) else mount path dev env s

/-- The reference that `find_mount` adds is returned, and one more. -/
def fsUnmount (path : Text) (s : State) : Except FsError Unit × State :=
  match findMount (fsNormalizePath (strlcpy path fsMaxPathLen)) s with
  | (none, s) => (.error .notFound, s)
  | (some (mount, _), s) => (.ok (), putMount mount.self (putMount mount.self s))

/-- What a call of `tegrabl_fm_read` meets. -/
structure ReadEnv where
  opens : Bool
  memory : Bool
  stat : Option UInt64
  reads : Bool
  closes : Bool
  partition : Except Error UInt32

/-- What `fs_open_file` gives, and the file that a file system opened for it. Without memory for the
handle the reference to the mount stays. -/
structure Opened where
  result : Except FsError Mount
  file : Option (Mount × Text)

def fsOpenFile (path : Text) (env : ReadEnv) (s : State) : Opened × State :=
  match findMount (fsNormalizePath (strlcpy path fsMaxPathLen)) s with
  | (none, s) => (⟨.error .notFound, none⟩, s)
  | (some (mount, newpath), s) =>
    if !env.opens then (⟨.error .fs, none⟩, putMount mount.self s)
    else if !env.memory then (⟨.error .noMemory, some (mount, newpath)⟩, s)
    else (⟨.ok mount, some (mount, newpath)⟩, s)

def fsCloseFile (mount : Mount) (env : ReadEnv) (s : State) : State :=
  if !env.closes then s else putMount mount.self s

def closeOpened (fh : Option Mount) (env : ReadEnv) (s : State) : State :=
  match fh with
  | none => s
  | some fh => fsCloseFile fh env s

def usbPath : Text := ascii "/usb"
def sdcardPath : Text := ascii "/sd"
def sdmmcUserPath : Text := ascii "/sdmmc_user"
def sdmmcBootPath : Text := ascii "/sdmmc_boot"
def nvmePath : Text := ascii "/nvme"

def getPrefix (deviceId : UInt32) : Option Text :=
  let bdevId := deviceId >>> 16
  if bdevId = 5 then some usbPath
  else if bdevId = 6 then some sdcardPath
  else if bdevId = 1 then some sdmmcUserPath
  else if bdevId = 0 then some sdmmcBootPath
  else if bdevId = 10 then some nvmePath
  else none

/-- From `detect_fs` on: `err` is the error so far, which success does not clear. -/
def detectFs (handle : Handle) (sector : UInt32) (err : Option Error) (env : PublishEnv) (s : State) :
    (Option Error × Handle) × State :=
  match env.fsDetect sector with
  | none => ((some (.own .invalid 0), handle), s)
  | some fsType =>
    match getPrefix handle.bdev.deviceId with
    | none => ((some (.own .invalid 1), handle), s)
    | some path =>
      match fsMount path fsType handle.bdev env s with
      | (.error _, s) => ((some (.own .invalid 2), handle), s)
      | (.ok (), s) =>
        ((err, { handle with fsType := some fsType, startSector := sector, mountPath := some path }), s)

def publishHandle (handle : Handle) (env : PublishEnv) (s : State) : (Option Error × Handle) × State :=
  match env.partitionPublish with
  | .error e => detectFs handle 0 (some (.lower e)) env s
  | .ok () =>
    match env.bootGuidLookup with
    | .error e => ((some (.lower e), handle), s)
    | .ok sector => detectFs handle sector none env s

/-- `tegrabl_fm_publish`: the error, and what is in `*handle`. -/
def tegrablFmPublish (bdev : Bdev) (env : PublishEnv) (s : State) :
    (Option Error × Option Handle) × State :=
  if !env.memory then ((some (.own .noMemory 0), none), { s with fmHandle := none })
  else
    let published := publishHandle ⟨s.next, bdev, none, none, 0⟩ env { s with next := s.next + 1 }
    let handle := published.1.2
    ((published.1.1, some handle),
      { published.2 with handles := published.2.handles ++ [handle], fmHandle := some handle.self })

/-- The file of `tegrabl_fm_read`, with the file handle that is closed at the end. -/
structure FileRead where
  result : Except Error UInt32
  fh : Option Mount
  file : Option (Mount × Text)

def fmReadFile (mountPath filePath : Text) (size : UInt32) (env : ReadEnv) (s : State) : FileRead × State :=
  if 200 ≤ mountPath.length + filePath.length then (⟨.error (.own .overflow 2), none, none⟩, s)
  else
    let opened := fsOpenFile (mountPath ++ filePath) env s
    let file := opened.1.file
    match opened.1.result with
    | .error _ => (⟨.error (.own .openFailed 0), none, file⟩, opened.2)
    | .ok fh =>
      match env.stat with
      | none => (⟨.error (.own .openFailed 1), some fh, file⟩, opened.2)
      | some statSize =>
        if size.toUInt64 < statSize then (⟨.error (.own .overflow 0), some fh, file⟩, opened.2)
        else if !env.reads then (⟨.error (.own .readFailed 1), some fh, file⟩, opened.2)
        else (⟨.ok statSize.toUInt32, some fh, file⟩, opened.2)

/-- `file` is the file that was opened, if one was. -/
structure ReadResult where
  err : Option Error
  size : UInt32
  isFileLoadedFromFs : Bool
  file : Option (Mount × Text)

/-- `load_from_partition`, with the error so far. -/
def loadFromPartition (partitionName : Option Text) (size : UInt32) (err : Option Error) (env : ReadEnv)
    (file : Option (Mount × Text)) : ReadResult :=
  match partitionName with
  | none => ⟨err, size, false, file⟩
  | some _ =>
    match env.partition with
    | .error e => ⟨some e, size, false, file⟩
    | .ok partitionSize => ⟨none, partitionSize, false, file⟩

def tegrablFmRead (handle : Option Handle) (filePath : Option CString) (partitionName : Option Text)
    (size : UInt32) (env : ReadEnv) (s : State) : ReadResult × State :=
  match handle with
  | none => (⟨some (.own .invalid 3), size, false, none⟩, s)
  | some handle =>
    match filePath, handle.mountPath with
    | some filePath, some mountPath =>
      let read := fmReadFile mountPath filePath.text size env s
      let s := closeOpened read.1.fh env read.2
      match read.1.result with
      | .ok fileSize => (⟨none, fileSize, true, read.1.file⟩, { s with fmHandle := some handle.self })
      | .error e => (loadFromPartition partitionName size (some e) env read.1.file, s)
    | _, _ => (loadFromPartition partitionName size none env none, s)

def tegrablFmClose (handle : Option Handle) (s : State) : State :=
  match handle with
  | none => s
  | some handle =>
    let s :=
      match handle.mountPath with
      | none => s
      | some mountPath => (fsUnmount mountPath s).2
    { s with handles := s.handles.filter fun other => other.self ≠ handle.self, fmHandle := none }

def State.handle (s : State) (self : Nat) : Option Handle := s.handles.find? fun handle => handle.self = self

inductive Op where
  | publish (bdev : Bdev) (env : PublishEnv)
  | close (handle : Nat)
  | read (handle : Nat) (filePath : Option CString) (partitionName : Option Text) (size : UInt32)
    (env : ReadEnv)

def step (s : State) : Op → State
  | .publish bdev env => (tegrablFmPublish bdev env s).2
  | .close handle => tegrablFmClose (s.handle handle) s
  | .read handle filePath partitionName size env =>
    (tegrablFmRead (s.handle handle) filePath partitionName size env s).2

def State.start : State := ⟨[], [], none, 1⟩

end Cboot.Fs
