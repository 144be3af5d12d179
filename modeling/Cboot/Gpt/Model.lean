import Cboot.Utils.Crc32
import Cboot.PartitionManager.Model

/-!
`lib/gpt/tegrabl_gpt.c`. The GPT is read into a buffer of memory and decoded there: the header at the start of the
buffer, the table one block behind it.
-/

namespace Cboot.Gpt
open Lib Utils Blockdev PartitionManager

inductive Reason where
  | invalid
  | verifyFailed
  | noMemory
  | tooLarge
  | notFound
  deriving DecidableEq, Repr

inductive Error where
  | own (reason : Reason) (detail : Nat)
  | device (e : Blockdev.Error)
  deriving DecidableEq, Repr

/-- `TEGRABL_GPT_MAX_PARTITION_ENTRIES`, `TEGRABL_GPT_MAX_PARTITION_NAME` and the size of
`struct tegrabl_gpt_entry`. -/
def maxPartitionEntries : Nat := 128
def maxPartitionName : Nat := 36
def entryBytes : Nat := 128

def bytesAt (m : Mem) (a n : Nat) : List UInt8 := (List.range n).map fun i => m (a + i)
def u32At (m : Mem) (a : Nat) : UInt32 := UInt32.ofNat (readLE m a 4)
def u64At (m : Mem) (a : Nat) : UInt64 := UInt64.ofNat (readLE m a 8)

/-- The fields of `struct tegrabl_gpt_header` that are looked at. -/
structure Header where
  signature : List UInt8
  hdrSize : UInt32
  hdrCrc32 : UInt32
  firstLba : UInt64
  lastLba : UInt64
  tableStartLba : UInt64
  numEntries : UInt32
  entrySize : UInt32
  tableCrc32 : UInt32
  deriving DecidableEq, Repr

def Header.decode (m : Mem) (a : Nat) : Header where
  signature := bytesAt m a 8
  hdrSize := u32At m (a + 12)
  hdrCrc32 := u32At m (a + 16)
  firstLba := u64At m (a + 40)
  lastLba := u64At m (a + 48)
  tableStartLba := u64At m (a + 72)
  numEntries := u32At m (a + 80)
  entrySize := u32At m (a + 84)
  tableCrc32 := u32At m (a + 88)

/-- The fields of `struct tegrabl_gpt_entry` that are looked at. -/
structure Entry where
  ptypeGuid : List UInt8
  uniqueGuid : List UInt8
  firstLba : UInt64
  lastLba : UInt64
  pname : List UInt16
  deriving DecidableEq, Repr

def Entry.decode (m : Mem) (a : Nat) : Entry where
  ptypeGuid := bytesAt m a 16
  uniqueGuid := bytesAt m (a + 16) 16
  firstLba := u64At m (a + 32)
  lastLba := u64At m (a + 40)
  pname := (List.range maxPartitionName).map fun i => UInt16.ofNat (readLE m (a + 56 + 2 * i) 2)

def gptSignature : List UInt8 := [69, 70, 73, 32, 80, 65, 82, 84]

def tegrablGptValidateHeader (buf : Nat) (totalBlocks : UInt64) (m : Mem) : Except Error Unit × Mem :=
  if buf = 0 ∨ totalBlocks = 0 then (.error (.own .invalid 0), m)
  else
    let hdr := Header.decode m buf
    if hdr.signature ≠ gptSignature then (.error (.own .verifyFailed 0), m)
    else if hdr.hdrSize ≠ 0x5C then (.error (.own .invalid 1), m)
    else
      let cleared := writeLE m (buf + 16) 4 0
      if hdr.hdrCrc32 ≠ tegrablUtilsCrc32 0 (bytesAt cleared buf hdr.hdrSize.toNat) then
        (.error (.own .verifyFailed 1), cleared)
      else
        let m := writeLE cleared (buf + 16) 4 hdr.hdrCrc32.toNat
        if hdr.firstLba ≥ totalBlocks ∨ hdr.lastLba ≥ totalBlocks then (.error (.own .invalid 2), m)
        else (.ok (), m)

def divCeilLog2 (n : UInt64) (logd : UInt32) : UInt64 := (n + 1 <<< logd.toUInt64 - 1) >>> logd.toUInt64

structure Medium where
  content : Mem
  fails : UInt32 → UInt32 → Option Blockdev.Error

def Medium.hooks (medium : Medium) : Hooks Mem where
  read _ _ _ _ := fail .invalid 0
  write _ _ _ _ := fail .invalid 0
  readBlock dev buf block count :=
    match medium.fails block count with
    | some e => throw e
    | none => modify fun m =>
      blit m buf medium.content (block.toNat * dev.blockSize.toNat) (count.toNat * dev.blockSize.toNat)
  writeBlock _ _ _ _ := fail .invalid 0
  erase _ _ _ _ := fail .invalid 0
  xfer _ := fail .invalid 0

def readBlock (dev : Bdev) (medium : Medium) (buf : Nat) (block count : UInt32) (m : Mem) :
    Except Error Unit × Mem :=
  let done := (tegrablBlockdevReadBlock medium.hooks (some dev) buf block count).run m
  (done.1.mapError .device, done.2)

def bufferSize (dev : Bdev) : UInt32 :=
  (entryBytes * maxPartitionEntries).toUInt32 + dev.blockSize.toUInt32

def readTable (dev : Bdev) (medium : Medium) (buffer : Nat) (m : Mem) : Except Error Unit × Mem :=
  let hdr := Header.decode m buffer
  if hdr.numEntries > maxPartitionEntries.toUInt32 then (.error (.own .tooLarge 1), m)
  else if hdr.entrySize > entryBytes.toUInt32 then (.error (.own .tooLarge 2), m)
  else
    let tableSize := hdr.numEntries * hdr.entrySize
    let entries := buffer + dev.blockSize.toNat
    match readBlock dev medium entries hdr.tableStartLba.toUInt32
        (divCeilLog2 tableSize.toUInt64 dev.blockSizeLog2).toUInt32 m with
    | (.error e, m) => (.error e, m)
    | (.ok _, m) =>
      -- The header is looked at again after the read.
      if (Header.decode m buffer).tableCrc32 ≠ tegrablUtilsCrc32 0 (bytesAt m entries tableSize.toNat) then
        (.error (.own .verifyFailed 2), m)
      else (.ok (), m)

/-- `buffer` is what `tegrabl_alloc_align` gives. -/
def tegrablGptReadValidate (dev : Bdev) (medium : Medium) (offset : UInt64) (buffer : Nat) (m : Mem) :
    Except Error Unit × Mem :=
  if buffer = 0 then (.error (.own .noMemory 0), m)
  else
    let m := fillBytes m buffer (bufferSize dev).toNat 0
    match readBlock dev medium buffer (divCeilLog2 offset dev.blockSizeLog2).toUInt32 1 m with
    | (.error e, m) => (.error e, m)
    | (.ok _, m) =>
      match tegrablGptValidateHeader buffer dev.blockCount.toUInt64 m with
      | (.error e, m) => (.error e, m)
      | (.ok _, m) => readTable dev medium buffer m

def gptOffsets (dev : Bdev) (offset : UInt64) : List UInt64 :=
  if offset > 0 then [offset] else [dev.blockSize, dev.size - dev.blockSize]

/-- Each attempt has a buffer of its own, since a failed one does not hand its buffer back. -/
def readFirst (dev : Bdev) (medium : Medium) (alloc : Nat → Nat) :
    List UInt64 → Nat → Mem → Except Error Nat × Mem
  | [], _, m => (.error (.own .notFound 0), m)
  | offset :: offsets, i, m =>
    match tegrablGptReadValidate dev medium offset (alloc i) m with
    | (.ok _, m) => (.ok (alloc i), m)
    | (.error _, m) => readFirst dev medium alloc offsets (i + 1) m

def tegrablGptRead (dev : Bdev) (medium : Medium) (offset : UInt64) (alloc : Nat → Nat) (m : Mem) :
    Except Error Nat × Mem :=
  readFirst dev medium alloc (gptOffsets dev offset) 0 m

def hexDigit (d : UInt8) : UInt8 := if d > 9 then 97 + d - 10 else 48 + d

def setHex (guid : UInt8) (k : Nat) (str : List UInt8) : List UInt8 :=
  (str.set k (hexDigit (guid >>> 4))).set (k + 1) (hexDigit (guid &&& 0x0F))

/-- Where the digits of each byte go, in the order of the source. -/
def guidPlaces : List (Nat × Nat) :=
  [(0, 6), (1, 4), (2, 2), (3, 0), (4, 11), (5, 9), (6, 16), (7, 14), (8, 19), (9, 21), (10, 24),
    (11, 26), (12, 28), (13, 30), (14, 32), (15, 34)]

def guidToStr (guid : List UInt8) : List UInt8 :=
  let digits := guidPlaces.foldl (fun str p => setHex (guid.getD p.1 0) p.2 str) (List.replicate 37 0)
  [8, 13, 18, 23].foldl (fun str k => str.set k 45) digits

def Entry.inUse (e : Entry) : Bool := e.lastLba > e.firstLba

def Entry.info (dev : Bdev) (e : Entry) : PartitionInfo :=
  let numSectors := e.lastLba - e.firstLba + 1
  { name := e.pname.map (fun c => (c &&& 0xFF).toUInt8) ++ [0]
    guid := guidToStr e.uniqueGuid
    ptypeGuid := guidToStr e.ptypeGuid
    startSector := e.firstLba
    numSectors := numSectors
    totalSize := numSectors <<< dev.blockSizeLog2.toUInt64 }

def fillPartitions (dev : Bdev) (numEntries : Nat) : List Entry → Nat → List PartitionInfo
  | [], _ => []
  | e :: rest, j =>
    if e.lastLba ≤ e.firstLba then fillPartitions dev numEntries rest j
    else e.info dev :: if j + 1 = numEntries then [] else fillPartitions dev numEntries rest (j + 1)

/-- The entries that are walked, whatever the header says. -/
def slots (dev : Bdev) (buffer : Nat) (m : Mem) : List Entry :=
  (List.range maxPartitionEntries).map fun i =>
    Entry.decode m (buffer + dev.blockSize.toNat + i * entryBytes)

/-- What is made of the GPT in the buffer. `tegrabl_malloc` gives nothing for an array of no
entries. -/
def publishEntries (dev : Bdev) (memory : Bool) (buffer : Nat) (m : Mem) :
    Except Error (List PartitionInfo) :=
  let numEntries := (slots dev buffer m).countP Entry.inUse
  if numEntries = 0 ∨ ¬ memory then .error (.own .noMemory 1)
  else .ok (fillPartitions dev numEntries (slots dev buffer m) 0)

def tegrablGptPublish (dev : Bdev) (medium : Medium) (offset : UInt64) (alloc : Nat → Nat)
    (memory : Bool) (m : Mem) : Except Error (List PartitionInfo) :=
  match tegrablGptRead dev medium offset alloc m with
  | (.error e, _) => .error e
  | (.ok buffer, m) => publishEntries dev memory buffer m

end Cboot.Gpt
