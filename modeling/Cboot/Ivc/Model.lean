import Mathlib.Algebra.Group.Nat.Defs
import Cboot.Lib.Interleaving

/-!
`lib/ipc/tegra-ivc.c`. Every function is a program of accesses to the two channel headers, the
frames behind them and the position fields of `struct ivc`. Stores take effect in program order,
which is what the barriers and the cache flushes of the source are for; invalidations are kept,
because a load of the peer's counter may be served from the cache. `IVC_ASSERT` is empty outside
debug builds.
-/

namespace Cboot.Ivc
open Lib

def add32 (a b : Nat) : Nat := (a + b) % 2 ^ 32
def sub32 (a b : Nat) : Nat := (a + (2 ^ 32 - b % 2 ^ 32)) % 2 ^ 32
def mul32 (a b : Nat) : Nat := a * b % 2 ^ 32

def ivcStateEstablished : Nat := 0
def ivcStateSync : Nat := 1
def ivcStateAck : Nat := 2

inductive Errno where
  | e2big
  | econnreset
  | enomem
  | eagain
  | einval
  deriving DecidableEq, Repr

/-- The channel header reached through `tx_channel` or `rx_channel`. -/
inductive Side where
  | tx
  | rx
  deriving DecidableEq, Repr

inductive Word where
  | wCount
  | state
  | rCount
  deriving DecidableEq, Repr

inductive Pos where
  | w
  | r
  deriving DecidableEq, Repr

inductive Op where
  | load (c : Side) (f : Word)
  | store (c : Side) (f : Word) (v : Nat)
  | loadByte (c : Side) (i : Nat)
  | storeByte (c : Side) (i : Nat) (b : UInt8)
  | invalidate (c : Side) (f : Word)
  | loadPos (p : Pos)
  | storePos (p : Pos) (v : Nat)
  | notify
  deriving DecidableEq, Repr

def Ans : Op → Type
  | .load _ _ => Nat
  | .store _ _ _ => Unit
  | .loadByte _ _ => UInt8
  | .storeByte _ _ _ => Unit
  | .invalidate _ _ => Unit
  | .loadPos _ => Nat
  | .storePos _ _ => Unit
  | .notify => Unit

abbrev IvcM : Type → Type := Prog Op Ans

def load (c : Side) (f : Word) : IvcM Nat := Prog.perform (Op.load c f)
def store (c : Side) (f : Word) (v : Nat) : IvcM Unit := Prog.perform (Op.store c f v)
def loadByte (c : Side) (i : Nat) : IvcM UInt8 := Prog.perform (Op.loadByte c i)
def storeByte (c : Side) (i : Nat) (b : UInt8) : IvcM Unit := Prog.perform (Op.storeByte c i b)
def ivcCacheInvalidate (c : Side) (f : Word) : IvcM Unit := Prog.perform (Op.invalidate c f)
def loadPos (p : Pos) : IvcM Nat := Prog.perform (Op.loadPos p)
def storePos (p : Pos) (v : Nat) : IvcM Unit := Prog.perform (Op.storePos p v)
def notify : IvcM Unit := Prog.perform Op.notify

/-- The fields of `struct ivc` that do not change. -/
structure IvcParams where
  nframes : Nat
  frameSize : Nat
  deriving DecidableEq, Repr

section
variable (ivc : IvcParams)

def ivcChannelEmpty (c : Side) : IvcM Bool := do
  let wCount ← load c .wCount
  let rCount ← load c .rCount
  -- An over-full channel is reported as empty.
  if ivc.nframes < sub32 wCount rCount then
    return true
  return wCount == rCount

def ivcChannelFull (c : Side) : IvcM Bool := do
  let wCount ← load c .wCount
  let rCount ← load c .rCount
  return decide (ivc.nframes ≤ sub32 wCount rCount)

def ivcChannelAvailCount (c : Side) : IvcM Nat := do
  let wCount ← load c .wCount
  let rCount ← load c .rCount
  return sub32 wCount rCount

def nextPos (pos : Nat) : Nat := if pos = sub32 ivc.nframes 1 then 0 else add32 pos 1

def ivcAdvanceTx : IvcM Unit := do
  let wCount ← load .tx .wCount
  store .tx .wCount (add32 wCount 1)
  let wPos ← loadPos .w
  storePos .w (nextPos ivc wPos)

def ivcAdvanceRx : IvcM Unit := do
  let rCount ← load .rx .rCount
  store .rx .rCount (add32 rCount 1)
  let rPos ← loadPos .r
  storePos .r (nextPos ivc rPos)

/-- `ivc_check_read`: `none` is the result 0. -/
def ivcCheckRead : IvcM (Option Errno) := do
  let state ← load .tx .state
  if state ≠ ivcStateEstablished then
    return some .econnreset
  let empty ← ivcChannelEmpty ivc .rx
  if ¬ empty then
    return none
  ivcCacheInvalidate .rx .wCount
  let empty ← ivcChannelEmpty ivc .rx
  return if empty then some .enomem else none

def ivcCheckWrite : IvcM (Option Errno) := do
  let state ← load .tx .state
  if state ≠ ivcStateEstablished then
    return some .econnreset
  let full ← ivcChannelFull ivc .tx
  if ¬ full then
    return none
  ivcCacheInvalidate .tx .rCount
  let full ← ivcChannelFull ivc .tx
  return if full then some .enomem else none

/-- `ivc_frame_pointer`: the offset of a frame behind the header. -/
def ivcFramePointer (frame : Nat) : Nat := mul32 ivc.frameSize frame

def storeBytes (c : Side) (p : Nat) : List UInt8 → IvcM Unit
  | [] => pure ()
  | b :: bs => do
    storeByte c p b
    storeBytes c (p + 1) bs

def loadBytes (c : Side) (p : Nat) : Nat → IvcM (List UInt8)
  | 0 => pure []
  | n + 1 => do
    let b ← loadByte c p
    let bs ← loadBytes c (p + 1) n
    return b :: bs

/-- `tegra_ivc_read`: the bytes copied to `buf`, or the error. -/
def tegraIvcRead (maxRead : Nat) : IvcM (Except Errno (List UInt8)) := do
  if ivc.frameSize < maxRead then
    return .error .e2big
  match ← ivcCheckRead ivc with
  | some e => return .error e
  | none =>
    let rPos ← loadPos .r
    let buf ← loadBytes .rx (ivcFramePointer ivc rPos) maxRead
    ivcAdvanceRx ivc
    ivcCacheInvalidate .rx .wCount
    let count ← ivcChannelAvailCount .rx
    if count = sub32 ivc.nframes 1 then
      notify
    return .ok buf

/-- `tegra_ivc_read_get_next_frame`: the offset of the frame, `none` for `NULL`. -/
def tegraIvcReadGetNextFrame : IvcM (Option Nat) := do
  match ← ivcCheckRead ivc with
  | some _ => return none
  | none =>
    let rPos ← loadPos .r
    return some (ivcFramePointer ivc rPos)

def tegraIvcReadAdvance : IvcM (Except Errno Unit) := do
  match ← ivcCheckRead ivc with
  | some e => return .error e
  | none =>
    ivcAdvanceRx ivc
    ivcCacheInvalidate .rx .wCount
    let count ← ivcChannelAvailCount .rx
    if count = sub32 ivc.nframes 1 then
      notify
    return .ok ()

/-- `tegra_ivc_write` of a buffer: the number of bytes written, or the error. -/
def tegraIvcWrite (buf : List UInt8) : IvcM (Except Errno Nat) := do
  if ivc.frameSize < buf.length then
    return .error .e2big
  match ← ivcCheckWrite ivc with
  | some e => return .error e
  | none =>
    let wPos ← loadPos .w
    let p := ivcFramePointer ivc wPos
    storeBytes .tx p buf
    storeBytes .tx (p + buf.length) (List.replicate (ivc.frameSize - buf.length) 0)
    ivcAdvanceTx ivc
    ivcCacheInvalidate .tx .rCount
    let count ← ivcChannelAvailCount .tx
    if count = 1 then
      notify
    return .ok buf.length

def tegraIvcWriteGetNextFrame : IvcM (Option Nat) := do
  match ← ivcCheckWrite ivc with
  | some _ => return none
  | none =>
    let wPos ← loadPos .w
    return some (ivcFramePointer ivc wPos)

def tegraIvcWriteAdvance : IvcM (Except Errno Unit) := do
  match ← ivcCheckWrite ivc with
  | some e => return .error e
  | none =>
    ivcAdvanceTx ivc
    ivcCacheInvalidate .tx .rCount
    let count ← ivcChannelAvailCount .tx
    if count = 1 then
      notify
    return .ok ()

end

def tegraIvcChannelReset : IvcM Unit := do
  store .tx .state ivcStateSync
  notify

def clearAndMove (state : Nat) : IvcM Unit := do
  store .tx .wCount 0
  store .rx .rCount 0
  storePos .w 0
  storePos .r 0
  store .tx .state state
  notify

/-- `tegra_ivc_channel_notified`: `none` is the result 0. -/
def tegraIvcChannelNotified : IvcM (Option Errno) := do
  ivcCacheInvalidate .rx .state
  let peerState ← load .rx .state
  if peerState = ivcStateSync then
    clearAndMove ivcStateAck
  else if (← load .tx .state) = ivcStateSync ∧ peerState = ivcStateAck then
    clearAndMove ivcStateEstablished
  else if (← load .tx .state) = ivcStateAck then
    store .tx .state ivcStateEstablished
    notify
  let state ← load .tx .state
  return if state = ivcStateEstablished then none else some .eagain

/-- `tegra_ivc_channel_sync` of an `ivc` that is not `NULL`. -/
def tegraIvcChannelSync (ivc : IvcParams) : IvcM (Option Errno) := do
  if ivc.nframes = 0 then
    return some .einval
  let wCount ← load .tx .wCount
  storePos .w (wCount % ivc.nframes)
  let rCount ← load .rx .rCount
  storePos .r (rCount % ivc.nframes)
  return none

/-- `struct ivc`, without the callback. -/
structure IvcInstance extends IvcParams where
  rxChannel : UInt64
  txChannel : UInt64
  wPos : Nat
  rPos : Nat
  deriving DecidableEq, Repr

def ivcAlign : Nat := 64

/-- `check_ivc_params`: `none` is the result 0. The sum of a base and a size is one of
`uintptr_t`. -/
def checkIvcParams (queueBase1 queueBase2 : UInt64) (nframes frameSize : UInt32) : Option Errno :=
  if 0x100000000 ≤ nframes.toNat * frameSize.toNat then some .einval
  else if queueBase1.toNat % ivcAlign ≠ 0 then some .einval
  else if queueBase2.toNat % ivcAlign ≠ 0 then some .einval
  else if frameSize.toNat % ivcAlign ≠ 0 then some .einval
  else if queueBase1 < queueBase2 then
    if queueBase2 < queueBase1 + (frameSize * nframes).toUInt64 then some .einval else none
  else if queueBase1 < queueBase2 + (frameSize * nframes).toUInt64 then some .einval
  else none

def tegraIvcInit (rxBase txBase : UInt64) (nframes frameSize : UInt32) : Except Errno IvcInstance :=
  match checkIvcParams rxBase txBase nframes frameSize with
  | some e => .error e
  | none =>
    if 2 ^ 31 < frameSize.toNat then .error .e2big
    else .ok {
      rxChannel := rxBase, txChannel := txBase, frameSize := frameSize.toNat,
      nframes := nframes.toNat, wPos := 0, rPos := 0 }

end Cboot.Ivc
