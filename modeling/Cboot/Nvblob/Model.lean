import Cboot.Lib.ByteMemory

/-!
`lib/nvblob/tegrabl_nvblob.c`. A blob is a header, a table of entries and the images that the entries point to, all at
offsets that the blob gives. A signed blob has a header of its own in front.
-/

namespace Cboot.Nvblob
open Lib

inductive Reason where
  | invalid
  | noMemory
  deriving DecidableEq, Repr

inductive Error where
  | own (reason : Reason) (detail : Nat)
  | lower (e : UInt32)
  deriving DecidableEq, Repr

def wordAt (m : Mem) (a : Nat) : UInt32 := UInt32.ofNat (readLE m a 4)

def updateMagic : List UInt8 := [78, 86, 73, 68, 73, 65, 95, 95, 66, 76, 79, 66, 95, 95, 86, 50]
def signedUpdateMagic : List UInt8 :=
  [83, 73, 71, 78, 69, 68, 45, 66, 89, 45, 84, 69, 71, 82, 65, 83, 73, 71, 78, 45]

def legacyBlobHeaderLen : UInt32 := 36
def maxBlobSize : UInt32 := 60 * 1024 * 1024

def blobUpdate : UInt32 := 0
def blobBmp : UInt32 := 1

/-- `struct signed_header`, without its magic number. -/
structure SignedHeader where
  actualBlobSize : UInt32
  signatureSize : UInt32
  deriving DecidableEq, Repr

def SignedHeader.decode (m : Mem) (a : Nat) : SignedHeader where
  actualBlobSize := wordAt m (a + 20)
  signatureSize := wordAt m (a + 24)

def signedHeaderBytes : Nat := 28

/-- The fields of `struct blob_header` that are looked at. -/
structure BlobHeader where
  size : UInt32
  entriesOffset : UInt32
  numEntries : UInt32
  type : UInt32
  uncompSize : UInt32
  deriving DecidableEq, Repr

def BlobHeader.decode (m : Mem) (a : Nat) : BlobHeader where
  size := wordAt m (a + 20)
  entriesOffset := wordAt m (a + 24)
  numEntries := wordAt m (a + 28)
  type := wordAt m (a + 32)
  uncompSize := wordAt m (a + 36)

def blobHeaderBytes : Nat := 48

/-- `struct tegrabl_image_entry`. The texts are arrays of characters. -/
structure ImageEntry where
  partname : List UInt8
  imageOffset : UInt32
  imageSize : UInt32
  opMode : UInt32
  specInfo : List UInt8
  deriving DecidableEq, Repr

def ImageEntry.decode (m : Mem) (a : Nat) : ImageEntry where
  partname := bytesAt m a 40
  imageOffset := wordAt m (a + 40)
  imageSize := wordAt m (a + 44)
  opMode := wordAt m (a + 52)
  specInfo := bytesAt m (a + 56) 64

/-- The sizes of `struct tegrabl_image_entry` and `struct tegrabl_bmp_entry`. -/
def imageEntryBytes : Nat := 120
def bmpEntryBytes : Nat := 52

structure BlobInfo where
  start : Nat
  offset : UInt32
  dataMemSize : UInt32
  infoMemSize : UInt32
  deriving DecidableEq, Repr

/-- A method of decompression: what it makes of its input, given the size of the output buffer. -/
structure Decompressor where
  magic : UInt8 × UInt8
  decompress : List UInt8 → UInt32 → Except UInt32 (List UInt8)

def isCompressedContent (methods : List Decompressor) (m : Mem) (a : Nat) : Option Decompressor :=
  methods.find? fun dc => dc.magic.1 == m a && dc.magic.2 == m (a + 1)

def outbufSize (blobheader : BlobHeader) : UInt32 :=
  if blobheader.entriesOffset = legacyBlobHeaderLen then maxBlobSize else blobheader.uncompSize

/-- The buffer and its size. The capacity that is given to the method is that of the whole buffer,
though its output starts behind the header. -/
def blobDecompress (malloc : Nat → Nat → Nat) (header : Nat) (hdrSize dataSize : UInt32)
    (decomp : Decompressor) (m : Mem) : Except Error (Nat × UInt32) × Mem :=
  let asize := outbufSize (BlobHeader.decode m header)
  let outbuf := malloc 3 asize.toNat
  if outbuf = 0 then (.error (.own .noMemory 0), m)
  else
    let m := blit m outbuf m header hdrSize.toNat
    match decomp.decompress (bytesAt m (header + hdrSize.toNat) (dataSize - hdrSize).toNat) asize
        with
    | .error e => (.error (.lower e), m)
    | .ok bytes =>
      let m := storeBytes m (outbuf + hdrSize.toNat) bytes
      (.ok (outbuf, asize), writeLE m (outbuf + 20) 4 asize.toNat)

structure Source where
  content : Mem
  opens : Option UInt32
  reads : Nat → Option UInt32
  seeks : Option UInt32

def blobExtent (m : Mem) (header : Nat) : Except Error (UInt32 × UInt32) :=
  if bytesAt m header 20 = signedUpdateMagic then
    let shdr := SignedHeader.decode m header
    .ok (signedHeaderBytes.toUInt32, shdr.actualBlobSize + shdr.signatureSize + signedHeaderBytes.toUInt32)
  else if bytesAt m header 16 = updateMagic then .ok (0, (BlobHeader.decode m header).size)
  else .error (.own .invalid 0)

structure Opened where
  info : BlobInfo
  headerAsize : Nat
  deriving DecidableEq, Repr

/-- What is done with the bytes of the partition once they are in memory. -/
def expandBlob (malloc : Nat → Nat → Nat) (methods : List Decompressor) (header : Nat)
    (dataSize : UInt32) (m : Mem) : Except Error (Nat × Nat) × Mem :=
  let blobheader := BlobHeader.decode m header
  match isCompressedContent methods m (header + blobheader.entriesOffset.toNat) with
  | none => (.ok (header, dataSize.toNat), m)
  | some decomp =>
    if blobheader.entriesOffset = legacyBlobHeaderLen ∧ maxBlobSize < blobheader.entriesOffset then
      (.error (.own .invalid 1), m)
    else if blobheader.entriesOffset ≠ legacyBlobHeaderLen ∧ blobheader.uncompSize < blobheader.entriesOffset then
      (.error (.own .invalid 2), m)
    else if dataSize < blobheader.entriesOffset then (.error (.own .invalid 3), m)
    else
      match blobDecompress malloc header blobheader.entriesOffset dataSize decomp m with
      | (.error e, m) => (.error e, m)
      | (.ok (buf, asize), m) => (.ok (buf, asize.toNat), m)

/-- The part of `tegrabl_blob_init` that reads the blob from a partition. -/
def readBlob (malloc : Nat → Nat → Nat) (methods : List Decompressor) (source : Source) (m : Mem) :
    Except Error Opened × Mem :=
  match source.opens with
  | some e => (.error (.lower e), m)
  | none =>
    let header := malloc 1 blobHeaderBytes
    if header = 0 then (.error (.own .noMemory 0), m)
    else
      match source.reads 0 with
      | some e => (.error (.lower e), m)
      | none =>
        let m := blit m header source.content 0 blobHeaderBytes
        match blobExtent m header with
        | .error e => (.error e, m)
        | .ok (offset, dataSize) =>
          let header := malloc 2 dataSize.toNat
          if header = 0 then (.error (.own .noMemory 0), m)
          else
            match source.seeks with
            | some e => (.error (.lower e), m)
            | none =>
              match source.reads 1 with
              | some e => (.error (.lower e), m)
              | none =>
                let m := blit m header source.content 0 dataSize.toNat
                match expandBlob malloc methods header dataSize m with
                | (.error e, m) => (.error e, m)
                | (.ok (start, asize), m) => (.ok ⟨⟨start, offset, dataSize, 24⟩, asize⟩, m)

/-- `malloc` gives the address of the `k`-th block, or null. The blob is at `bptr`, or in the partition
where that is null. -/
def tegrablBlobInit (malloc : Nat → Nat → Nat) (methods : List Decompressor) (source : Source)
    (bptr : Nat) (m : Mem) : Except Error Opened × Mem :=
  if malloc 0 24 = 0 then (.error (.own .noMemory 0), m)
  else if bptr ≠ 0 then
    match blobExtent m bptr with
    | .error e => (.error e, m)
    | .ok (offset, dataSize) => (.ok ⟨⟨bptr, offset, dataSize, 24⟩, 0⟩, m)
  else readBlob malloc methods source m

def checked (b : Option BlobInfo) : Except Error BlobInfo :=
  match b with
  | none => .error (.own .invalid 0)
  | some bh => if bh.start = 0 then .error (.own .invalid 0) else .ok bh

def BlobInfo.blob (bh : BlobInfo) : Nat := bh.start + bh.offset.toNat

def BlobInfo.header (bh : BlobInfo) (m : Mem) : BlobHeader := BlobHeader.decode m bh.blob

/-- The bytes of the structure, which was cleared before its fields were set. -/
def BlobInfo.stored (bh : BlobInfo) : Mem :=
  let m := writeLE (fun _ => 0) 0 8 bh.start
  let m := writeLE m 8 4 bh.offset.toNat
  let m := writeLE m 12 4 bh.dataMemSize.toNat
  writeLE m 16 4 bh.infoMemSize.toNat

def tegrablBlobGetSize (bh : BlobInfo) : UInt32 := (BlobHeader.decode bh.stored 0).size

def tegrablBlobIsSigned (b : Option BlobInfo) : Bool :=
  match b with
  | none => false
  | some bh => bh.start != 0 && bh.offset > 0

def tegrablBlobGetType (b : Option BlobInfo) (m : Mem) : Except Error UInt32 := do
  let bh ← checked b
  return (bh.header m).type

def tegrablBlobGetDetails (b : Option BlobInfo) (m : Mem) : Except Error (Nat × UInt32) := do
  let bh ← checked b
  return (bh.blob, (bh.header m).size)

def tegrablBlobGetSignature (b : Option BlobInfo) (m : Mem) : Except Error (Nat × UInt32) := do
  let bh ← checked b
  if bh.offset = 0 ∨ ¬ tegrablBlobIsSigned b then throw (.own .invalid 0)
  else
    let shdr := SignedHeader.decode m bh.start
    return (bh.start + signedHeaderBytes + shdr.actualBlobSize.toNat, shdr.signatureSize)

def tegrablBlobGetNumEntries (b : Option BlobInfo) (m : Mem) : Except Error UInt32 := do
  let bh ← checked b
  return (bh.header m).numEntries

def entryBytes (type : UInt32) : Option Nat :=
  if type = blobUpdate then some imageEntryBytes
  else if type = blobBmp then some bmpEntryBytes
  else none

def tegrablBlobGetEntry (b : Option BlobInfo) (index : UInt32) (m : Mem) : Except Error Nat := do
  let bh ← checked b
  match entryBytes (bh.header m).type with
  | none => throw (.own .invalid 0)
  | some size => return bh.blob + (bh.header m).entriesOffset.toNat + index.toNat * size

def parseEntry (type : UInt32) (m : Mem) (entry : Nat) : Option (UInt32 × UInt32) :=
  if type = blobUpdate then some (wordAt m (entry + 40), wordAt m (entry + 44))
  else if type = blobBmp then some (wordAt m (entry + 4), wordAt m (entry + 8))
  else none

def tegrablBlobGetEntryData (b : Option BlobInfo) (index : UInt32) (m : Mem) :
    Except Error (Nat × UInt32) := do
  let bh ← checked b
  let entry ← tegrablBlobGetEntry b index m
  match parseEntry (bh.header m).type m entry with
  | none => throw (.own .invalid 0)
  | some (offset, length) => return (bh.blob + offset.toNat, length)

end Cboot.Nvblob
