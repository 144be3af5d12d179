import Cboot.Lib.ByteMemory

/-!
`lib/blockdev/tegrabl_blockdev.c`: the checked entry points in front of the driver's hooks, and the
byte access that `tegrabl_blockdev_default_read` and `tegrabl_blockdev_default_write` build from
whole blocks. `off_t` and `size_t` are 64 bits wide and `bnum_t` is 32. An address is a natural
number, and the null pointer is 0.
-/

namespace Cboot.Blockdev
open Lib

inductive Reason where
  | invalid
  | overflow
  | noMemory
  | alreadyExists
  deriving DecidableEq, Repr

/-- `TEGRABL_ERROR(reason, detail)`. -/
structure Error where
  reason : Reason
  detail : Nat
  deriving DecidableEq, Repr

abbrev Call (σ α : Type) := ExceptT Error (StateM σ) α

def fail {σ α : Type} (reason : Reason) (detail : Nat) : Call σ α := throw ⟨reason, detail⟩

namespace Call

section
variable {σ α β : Type}

def run (c : Call σ α) (s : σ) : Except Error α × σ := StateT.run (ExceptT.run c) s

@[simp] theorem run_pure (a : α) (s : σ) : Call.run (pure a : Call σ α) s = (.ok a, s) := rfl

theorem run_bind_ok {c : Call σ α} {f : α → Call σ β} {s s' : σ} {a : α}
    (first : Call.run c s = (.ok a, s')) : Call.run (c >>= f) s = Call.run (f a) s' := by
  unfold Call.run at first ⊢
  rw [ExceptT.run_bind, StateT.run_bind, first]
  rfl

theorem run_bind_error {c : Call σ α} {f : α → Call σ β} {s s' : σ} {e : Error}
    (first : Call.run c s = (.error e, s')) : Call.run (c >>= f) s = (.error e, s') := by
  unfold Call.run at first ⊢
  rw [ExceptT.run_bind, StateT.run_bind, first]
  rfl

theorem run_bind_pure (c : Call σ α) (f : α → β) (s : σ) :
    (Call.run (c >>= fun a => pure (f a)) s).2 = (Call.run c s).2 := by
  cases first : c.run s with
  | mk result s' =>
    cases result with
    | ok a => rw [run_bind_ok first, run_pure]
    | error e => rw [run_bind_error first]

end

end Call

structure Bdev where
  ref : UInt32
  deviceId : UInt32
  size : UInt64
  blockSizeLog2 : UInt32
  blockCount : UInt32
  bufAlignSize : UInt32
  deriving DecidableEq, Repr

def memAlignSize : Nat := 8

def modLog2 (n : UInt64) (logd : UInt32) : UInt64 := n &&& (1 <<< logd.toUInt64 - 1)
def divFloorLog2 (n : UInt64) (logd : UInt32) : UInt64 := n >>> logd.toUInt64

def Bdev.blockSize (dev : Bdev) : UInt64 := 1 <<< dev.blockSizeLog2.toUInt64

/-- `MOD_POW2(buf, dev->buf_align_size) == 0`. -/
def tegrablBlockdevBufferAligned (dev : Bdev) (buf : Nat) : Bool :=
  buf &&& (dev.bufAlignSize - 1).toNat == 0

def tegrablBlockdevInitializeBdev (dev : Option Bdev) (deviceId blockSizeLog2 blockCount : UInt32) :
    Except Error Bdev :=
  match dev with
  | none => .error ⟨.invalid, 18⟩
  | some dev => .ok { dev with
      deviceId := deviceId
      blockSizeLog2 := blockSizeLog2
      blockCount := blockCount
      size := blockCount.toUInt64 <<< blockSizeLog2.toUInt64
      ref := 0 }

structure XferInfo where
  dev : Option Bdev
  xferType : UInt8
  buf : Nat
  startBlock : UInt32
  blockCount : UInt32
  isNonBlocking : Bool
  isSecureErase : Bool
  id : UInt32
  xferStatus : UInt8
  deriving DecidableEq, Repr

/-- The function pointers of a device. `σ` is all that they can reach. -/
structure Hooks (σ : Type) where
  read : Bdev → Nat → UInt64 → UInt64 → Call σ Unit
  write : Bdev → Nat → UInt64 → UInt64 → Call σ Unit
  readBlock : Bdev → Nat → UInt32 → UInt32 → Call σ Unit
  writeBlock : Bdev → Nat → UInt32 → UInt32 → Call σ Unit
  erase : Bdev → UInt32 → UInt32 → Bool → Call σ Unit
  xfer : XferInfo → Call σ XferInfo

/-! ### The entry points

Each has its own copy of the range check, in the width of its arguments, and its own order of the
checks. -/

section
variable {σ : Type}

def tegrablBlockdevRead (hooks : Hooks σ) (dev : Option Bdev) (buf : Nat) (offset len : UInt64) :
    Call σ Unit :=
  match dev with
  | none => fail .invalid 6
  | some dev =>
    if len = 0 then fail .invalid 6
    else if dev.ref = 0 then fail .invalid 7
    else if offset ≥ dev.size ∨ offset + len > dev.size then fail .overflow 0
    else hooks.read dev buf offset len

def tegrablBlockdevReadBlock (hooks : Hooks σ) (dev : Option Bdev) (buf : Nat)
    (block count : UInt32) : Call σ Unit :=
  match dev with
  | none => fail .invalid 8
  | some dev =>
    if count = 0 then fail .invalid 8
    else if ¬ tegrablBlockdevBufferAligned dev buf then fail .invalid 25
    else if dev.ref = 0 then fail .invalid 9
    else if block > dev.blockCount ∨ block + count > dev.blockCount then fail .overflow 1
    else hooks.readBlock dev buf block count

def tegrablBlockdevWrite (hooks : Hooks σ) (dev : Option Bdev) (buf : Nat) (offset len : UInt64) :
    Call σ Unit :=
  match dev with
  | none => fail .invalid 10
  | some dev =>
    if len = 0 then fail .invalid 10
    else if dev.ref = 0 then fail .invalid 11
    else if offset ≥ dev.size ∨ offset + len > dev.size then fail .overflow 2
    else hooks.write dev buf offset len

def tegrablBlockdevWriteBlock (hooks : Hooks σ) (dev : Option Bdev) (buf : Nat)
    (block count : UInt32) : Call σ Unit :=
  match dev with
  | none => fail .invalid 12
  | some dev =>
    if count = 0 ∨ buf = 0 then fail .invalid 12
    else if ¬ tegrablBlockdevBufferAligned dev buf then fail .invalid 26
    else if block > dev.blockCount ∨ block + count > dev.blockCount then fail .overflow 3
    else if dev.ref = 0 then fail .invalid 13
    else hooks.writeBlock dev buf block count

def tegrablBlockdevErase (hooks : Hooks σ) (dev : Option Bdev) (block count : UInt32)
    (isSecure : Bool) : Call σ Unit :=
  match dev with
  | none => fail .invalid 14
  | some dev =>
    if count = 0 then fail .invalid 14
    else if block > dev.blockCount ∨ block + count > dev.blockCount then fail .overflow 4
    else if dev.ref = 0 then fail .invalid 15
    else hooks.erase dev block count isSecure

/-- An empty transfer is not refused. `xferId` is the static counter. -/
def tegrablBlockdevXfer (hooks : Hooks σ) (xferId : UInt32) (xfer : Option XferInfo) :
    Call σ (XferInfo × UInt32) :=
  match xfer with
  | none => fail .invalid 22
  | some xfer =>
    match xfer.dev with
    | none => fail .invalid 22
    | some dev =>
      if xfer.startBlock > dev.blockCount ∨ xfer.startBlock + xfer.blockCount > dev.blockCount then
        fail .overflow 5
      else if dev.ref = 0 then fail .invalid 23
      else do
        let xfer ← hooks.xfer xfer
        return ({ xfer with id := xferId }, xferId + 1)

end

structure Machine (π : Type) where
  mem : Mem
  disk : Mem
  priv : π

/-- The buffers that one transfer may ask the DMA heap for. -/
inductive Bounce where
  | partialBlock
  | temp
  deriving DecidableEq, Repr

/-- What `tegrabl_alloc_align(TEGRABL_HEAP_DMA, TEGRABL_BLOCKDEV_MEM_ALIGN_SIZE, size)` answers. -/
abbrev Alloc := Bounce → UInt64 → Nat

structure Cursor where
  buf : Nat
  len : UInt64
  block : UInt32
  deriving DecidableEq, Repr

/-- After `n` bytes and `blocks` blocks. -/
def Cursor.advance (c : Cursor) (n : UInt64) (blocks : UInt32) : Cursor :=
  ⟨c.buf + n.toNat, c.len - n, c.block + blocks⟩

section
variable {π : Type}

def memcpy (dst src : Nat) (n : UInt64) : Call (Machine π) Unit :=
  modify fun s => { s with mem := blit s.mem dst s.mem src n.toNat }

/-- `partial_block_buf`, which is null for a request of whole blocks. -/
def allocPartial (alloc : Alloc) (dev : Bdev) (offset len : UInt64) : Call (Machine π) Nat :=
  if modLog2 offset dev.blockSizeLog2 ≠ 0 ∨ modLog2 len dev.blockSizeLog2 ≠ 0 then
    if alloc .partialBlock dev.blockSize = 0 then fail .noMemory 0
    else return alloc .partialBlock dev.blockSize
  else return 0

/-- The block that holds `offset`, as a `bnum_t`. -/
def startBlock (dev : Bdev) (offset : UInt64) : UInt32 :=
  (divFloorLog2 offset dev.blockSizeLog2).toUInt32

def headCopy (dev : Bdev) (offset len : UInt64) : UInt64 :=
  min (dev.blockSize - modLog2 offset dev.blockSizeLog2) len

def readHead (hooks : Hooks (Machine π)) (dev : Bdev) (partialBuf : Nat) (offset : UInt64)
    (c : Cursor) : Call (Machine π) Cursor :=
  if modLog2 offset dev.blockSizeLog2 ≠ 0 then do
    tegrablBlockdevReadBlock hooks (some dev) partialBuf c.block 1
    memcpy c.buf (partialBuf + (modLog2 offset dev.blockSizeLog2).toNat) (headCopy dev offset c.len)
    return c.advance (headCopy dev offset c.len) 1
  else return c

def middleCount (dev : Bdev) (c : Cursor) : UInt64 := divFloorLog2 c.len dev.blockSizeLog2

def middleBytes (dev : Bdev) (c : Cursor) : UInt64 :=
  middleCount dev c <<< dev.blockSizeLog2.toUInt64

/-- `len >= (1U << dev->block_size_log2)`, where the shift is 32 bits wide. -/
def hasMiddle (dev : Bdev) (c : Cursor) : Bool :=
  decide (c.len ≥ ((1 : UInt32) <<< dev.blockSizeLog2).toUInt64)

/-- Straight to the caller where its buffer suits the device, else by way of `temp_buf`. -/
def readBlocks (hooks : Hooks (Machine π)) (alloc : Alloc) (dev : Bdev) (c : Cursor) :
    Call (Machine π) Unit :=
  if middleBytes dev c > c.len then fail .invalid 1
  else if ¬ tegrablBlockdevBufferAligned dev c.buf then
    let tempBuf := alloc .temp (middleCount dev c * dev.blockSize)
    if tempBuf = 0 then fail .noMemory 1
    else do
      tegrablBlockdevReadBlock hooks (some dev) tempBuf c.block (middleCount dev c).toUInt32
      memcpy c.buf tempBuf (middleBytes dev c)
  else tegrablBlockdevReadBlock hooks (some dev) c.buf c.block (middleCount dev c).toUInt32

def readMiddle (hooks : Hooks (Machine π)) (alloc : Alloc) (dev : Bdev) (c : Cursor) :
    Call (Machine π) Cursor :=
  if hasMiddle dev c then do
    readBlocks hooks alloc dev c
    return c.advance (middleBytes dev c) (middleCount dev c).toUInt32
  else return c

def readTail (hooks : Hooks (Machine π)) (dev : Bdev) (partialBuf : Nat) (c : Cursor) :
    Call (Machine π) Unit :=
  if c.len > 0 then
    if partialBuf = 0 then fail .noMemory 0
    else do
      tegrablBlockdevReadBlock hooks (some dev) partialBuf c.block 1
      memcpy c.buf partialBuf c.len
  else return ()

def tegrablBlockdevDefaultRead (hooks : Hooks (Machine π)) (alloc : Alloc) (dev : Option Bdev)
    (buffer : Nat) (offset len : UInt64) : Call (Machine π) Unit :=
  match dev with
  | none => fail .invalid 0
  | some dev =>
    if buffer = 0 then fail .invalid 0
    else do
      let partialBuf ← allocPartial alloc dev offset len
      let c ← readHead hooks dev partialBuf offset ⟨buffer, len, startBlock dev offset⟩
      let c ← readMiddle hooks alloc dev c
      readTail hooks dev partialBuf c

def writeHead (hooks : Hooks (Machine π)) (dev : Bdev) (partialBuf : Nat) (offset : UInt64)
    (c : Cursor) : Call (Machine π) Cursor :=
  if modLog2 offset dev.blockSizeLog2 ≠ 0 then do
    tegrablBlockdevReadBlock hooks (some dev) partialBuf c.block 1
    memcpy (partialBuf + (modLog2 offset dev.blockSizeLog2).toNat) c.buf (headCopy dev offset c.len)
    tegrablBlockdevWriteBlock hooks (some dev) partialBuf c.block 1
    return c.advance (headCopy dev offset c.len) 1
  else return c

def writeBlocks (hooks : Hooks (Machine π)) (alloc : Alloc) (dev : Bdev) (c : Cursor) :
    Call (Machine π) Unit :=
  if middleBytes dev c > c.len then fail .invalid 3
  else if ¬ tegrablBlockdevBufferAligned dev c.buf then
    let tempBuf := alloc .temp (middleCount dev c * dev.blockSize)
    if tempBuf = 0 then fail .noMemory 2
    else do
      memcpy tempBuf c.buf (middleBytes dev c)
      tegrablBlockdevWriteBlock hooks (some dev) tempBuf c.block (middleCount dev c).toUInt32
  else tegrablBlockdevWriteBlock hooks (some dev) c.buf c.block (middleCount dev c).toUInt32

def writeMiddle (hooks : Hooks (Machine π)) (alloc : Alloc) (dev : Bdev) (c : Cursor) :
    Call (Machine π) Cursor :=
  if hasMiddle dev c then do
    writeBlocks hooks alloc dev c
    return c.advance (middleBytes dev c) (middleCount dev c).toUInt32
  else return c

def writeTail (hooks : Hooks (Machine π)) (dev : Bdev) (partialBuf : Nat) (c : Cursor) :
    Call (Machine π) Unit :=
  if c.len > 0 then
    if partialBuf = 0 then fail .noMemory 0
    else do
      tegrablBlockdevReadBlock hooks (some dev) partialBuf c.block 1
      memcpy partialBuf c.buf c.len
      tegrablBlockdevWriteBlock hooks (some dev) partialBuf c.block 1
  else return ()

def tegrablBlockdevDefaultWrite (hooks : Hooks (Machine π)) (alloc : Alloc) (dev : Option Bdev)
    (buffer : Nat) (offset len : UInt64) : Call (Machine π) Unit :=
  match dev with
  | none => fail .invalid 2
  | some dev =>
    if buffer = 0 then fail .invalid 2
    else do
      let partialBuf ← allocPartial alloc dev offset len
      let c ← writeHead hooks dev partialBuf offset ⟨buffer, len, startBlock dev offset⟩
      let c ← writeMiddle hooks alloc dev c
      writeTail hooks dev partialBuf c

/-- The hooks after `tegrabl_blockdev_initialize_bdev`, with the block operations of the driver in
place of the defaults that only report `TEGRABL_ERR_NOT_SUPPORTED`. -/
def Hooks.default (driver : Hooks (Machine π)) (alloc : Alloc) : Hooks (Machine π) :=
  { driver with
    read := fun dev => tegrablBlockdevDefaultRead driver alloc (some dev)
    write := fun dev => tegrablBlockdevDefaultWrite driver alloc (some dev) }

end

end Cboot.Blockdev
