import Cboot.Lib.Attempt
import Mathlib.Data.List.Basic

/-!
`drivers/sdmmc/tegrabl_sdmmc_rpmb.c`: requests to the replay protected partition of an eMMC, and the checks of
what comes back. The device, and whoever sits between, returns any frame; a call is given what it meets.
-/

namespace Cboot.Rpmb
open Lib

def rpmbReqGetCounter : UInt16 := 2
def rpmbReqWrite : UInt16 := 3
def rpmbReqRead : UInt16 := 4
def rpmbReqGetResult : UInt16 := 5

def rpmbRespGetCounter : UInt16 := 0x0200
def rpmbRespWrite : UInt16 := 0x0300
def rpmbRespRead : UInt16 := 0x0400

def rpmbResOk : UInt16 := 0
def rpmbResNoAuthKey : UInt16 := 7

def rpmbDataSize : Nat := 256
def rpmbMacMsgSize : Nat := 284
def rpmbKeyOrMacSize : Nat := 32

abbrev Bytes (n : Nat) := Vector UInt8 n

/-- `sdmmc_rpmb_frame_t`. -/
structure RpmbFrame where
  stuff : Bytes 196
  keyOrMac : Bytes 32
  data : Bytes 256
  nonce : Bytes 16
  writeCounter : Bytes 4
  address : Bytes 2
  blockCount : Bytes 2
  result : Bytes 2
  reqOrResp : Bytes 2
  deriving DecidableEq

def RpmbFrame.macMsg (frame : RpmbFrame) : List UInt8 :=
  frame.data.toList ++ frame.nonce.toList ++ frame.writeCounter.toList ++ frame.address.toList ++
    frame.blockCount.toList ++ frame.result.toList ++ frame.reqOrResp.toList

def zeroFrame : RpmbFrame where
  stuff := .replicate 196 0
  keyOrMac := .replicate 32 0
  data := .replicate 256 0
  nonce := .replicate 16 0
  writeCounter := .replicate 4 0
  address := .replicate 2 0
  blockCount := .replicate 2 0
  result := .replicate 2 0
  reqOrResp := .replicate 2 0

def rpmbNonce : Bytes 16 :=
  #v[0x01, 0xFF, 0x3E, 0x26, 0x49, 0x67, 0x80, 0x63, 0x99, 0xE1, 0xCB, 0x11, 0xDA, 0xD6, 0x05, 0x00]

def convertToRpmbU16 (n : UInt16) : Bytes 2 := #v[(n >>> 8).toUInt8, n.toUInt8]

def convertToRpmbU32 (n : UInt32) : Bytes 4 :=
  #v[((n >>> 24) &&& 0xff).toUInt8, ((n >>> 16) &&& 0xff).toUInt8, ((n >>> 8) &&& 0xff).toUInt8, (n &&& 0xff).toUInt8]

def convertFromRpmbU16 (x : Bytes 2) : UInt16 := (x[0].toUInt16 <<< 8) ||| x[1].toUInt16

def convertFromRpmbU32 (x : Bytes 4) : UInt32 :=
  (x[0].toUInt32 <<< 24) ||| (x[1].toUInt32 <<< 16) ||| (x[2].toUInt32 <<< 8) ||| x[3].toUInt32

inductive Reason where
  | invalid
  | notProgrammed
  | noMemory
  deriving DecidableEq, Repr

/-- `TEGRABL_ERROR`, or an error of what is called. -/
inductive Error where
  | own (reason : Reason) (detail : Nat)
  | lower (e : UInt32)
  deriving DecidableEq, Repr

/-- What is handed to `sdmmc_rpmb_io`. -/
structure Request where
  isWrite : Bool
  reqFrame : RpmbFrame
  reqRespFrame : RpmbFrame

abbrev RpmbM := Attempt Error (List Request)

/-- What a computation of a MAC meets: memory for its two buffers, and the hash engine. -/
structure MacEnv where
  buffer : Bool
  digest : Bool
  inner : Option UInt32
  outer : Option UInt32

def refuse (bad : Bool) (e : Error) : RpmbM Unit := if bad then throw e else pure ()

def compareMac (frame : RpmbFrame) (mac : Bytes 32) : RpmbM Unit :=
  if frame.keyOrMac ≠ mac then throw (.own .invalid 0) else pure ()

def compareNonce (frame : RpmbFrame) (nonce : Bytes 16) : RpmbM Unit :=
  if frame.nonce ≠ nonce then throw (.own .invalid 0) else pure ()

def checkResponse (frame : RpmbFrame) (resp : UInt16) : RpmbM Unit :=
  let result := convertFromRpmbU16 frame.result
  if result ≠ rpmbResOk then
    throw (.own (if result = rpmbResNoAuthKey then .notProgrammed else .invalid) 0)
  else if convertFromRpmbU16 frame.reqOrResp ≠ resp then
    throw (.own .invalid 0)
  else
    pure ()

def hmacBlockSize : Nat := 64

def memcpy (buf : List UInt8) (offset : Nat) (bytes : List UInt8) : List UInt8 :=
  buf.take offset ++ bytes ++ buf.drop (offset + bytes.length)

def fillPad (mkey : List UInt8) (pad : UInt8) (buf : List UInt8) : List UInt8 :=
  (List.range hmacBlockSize).foldl (fun buf count => buf.set count (mkey.getD count 0 ^^^ pad)) buf

section
variable (sha256 : List UInt8 → Bytes 32)

def generateSha256Hash (input : List UInt8) (error : Option UInt32) : RpmbM (Bytes 32) :=
  match error with
  | some e => throw (.lower e)
  | none => pure (sha256 input)

def calculateMac (key : Option (Bytes 32)) (frame : RpmbFrame) (env : MacEnv) : RpmbM (Bytes 32) :=
  match key with
  | none => throw (.own .invalid 0)
  | some key => do
    refuse (!env.buffer) (.own .noMemory 11)
    refuse (!env.digest) (.own .noMemory 12)
    let buf := List.replicate (hmacBlockSize + rpmbMacMsgSize) 0
    let mkey := memcpy (List.replicate hmacBlockSize 0) 0 key.toList
    let buf := memcpy (fillPad mkey 0x36 buf) hmacBlockSize frame.macMsg
    let digest ← generateSha256Hash sha256 buf env.inner
    let buf := memcpy (fillPad mkey 0x5c buf) hmacBlockSize digest.toList
    generateSha256Hash sha256 (buf.take (hmacBlockSize + rpmbKeyOrMacSize)) env.outer

def sdmmcRpmbIo (request : Request) (reply : Except UInt32 RpmbFrame) : RpmbM RpmbFrame :=
  Attempt.call fun sent => (reply.mapError .lower, sent ++ [request])

def counterRequest : RpmbFrame :=
  { zeroFrame with reqOrResp := convertToRpmbU16 rpmbReqGetCounter, nonce := rpmbNonce }

/-- What `sdmmc_rpmb_get_write_counter` meets; `context` is the memory for the frames, where it is given none. -/
structure CounterEnv where
  context : Bool
  reply : Except UInt32 RpmbFrame
  mac : MacEnv

def sdmmcRpmbGetWriteCounter (key : Option (Bytes 32)) (contextGiven : Bool) (env : CounterEnv) :
    RpmbM UInt32 := do
  refuse (!contextGiven && !env.context) (.own .noMemory 10)
  let frame ← sdmmcRpmbIo ⟨false, counterRequest, zeroFrame⟩ env.reply
  checkResponse frame rpmbRespGetCounter
  let mac ← calculateMac sha256 key frame env.mac
  compareMac frame mac
  return convertFromRpmbU32 frame.writeCounter

def readRequest (addr : UInt16) : RpmbFrame :=
  { zeroFrame with
    address := convertToRpmbU16 addr
    reqOrResp := convertToRpmbU16 rpmbReqRead
    nonce := rpmbNonce }

structure ReadEnv where
  reply : Except UInt32 RpmbFrame
  mac : MacEnv

def sdmmcRpmbRead (key : Option (Bytes 32)) (addr : UInt16) (bufp : Bool) (buflen : UInt32) (env : ReadEnv) :
    RpmbM (List UInt8) := do
  refuse key.isNone (.own .invalid 0)
  refuse (!bufp || buflen == 0 || rpmbDataSize < buflen.toNat) (.own .invalid 1)
  let frame ← sdmmcRpmbIo ⟨false, readRequest addr, zeroFrame⟩ env.reply
  checkResponse frame rpmbRespRead
  compareNonce frame rpmbNonce
  let mac ← calculateMac sha256 key frame env.mac
  compareMac frame mac
  return frame.data.toList.take buflen.toNat

def frameData (bytes : List UInt8) : Bytes 256 := .ofFn fun i => bytes.getD i 0

def writeRequest (counter : UInt32) (addr : UInt16) (bytes : List UInt8) : RpmbFrame :=
  { zeroFrame with
    writeCounter := convertToRpmbU32 counter
    address := convertToRpmbU16 addr
    blockCount := convertToRpmbU16 1
    reqOrResp := convertToRpmbU16 rpmbReqWrite
    data := frameData bytes }

def resultRequest : RpmbFrame := { zeroFrame with reqOrResp := convertToRpmbU16 rpmbReqGetResult }

structure WriteEnv where
  counter : CounterEnv
  mac : MacEnv
  reply : Except UInt32 RpmbFrame

/-- `bufp` is the buffer of the caller, `buflen` bytes of it are written. -/
def sdmmcRpmbWrite (key : Option (Bytes 32)) (addr : UInt16) (bufp : Option (List UInt8)) (buflen : UInt32)
    (env : WriteEnv) : RpmbM Unit := do
  refuse key.isNone (.own .invalid 0)
  refuse (bufp.isNone || buflen == 0 || rpmbDataSize < buflen.toNat) (.own .invalid 0)
  let counter ← sdmmcRpmbGetWriteCounter sha256 key true env.counter
  let req := writeRequest counter addr ((bufp.getD []).take buflen.toNat)
  let mac ← calculateMac sha256 key req env.mac
  let frame ← sdmmcRpmbIo ⟨true, { req with keyOrMac := mac }, resultRequest⟩ env.reply
  checkResponse frame rpmbRespWrite

end

end Cboot.Rpmb
