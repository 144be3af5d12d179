import Cboot.Lib.ByteMemory
import Cboot.Lib.Loop
import Cboot.Utils.Crc32

/-!
`lib/decompress/tegrabl_lzf_decompress.c`. A stream is a sequence of blocks, each with a header of five bytes in front
of its data or one of seven bytes in front of its compressed data, and a CRC of what comes out of it.
-/

namespace Cboot.Lzf
open Lib Utils

inductive Error where
  | invalid
  | overflow
  | badParameter
  deriving DecidableEq, Repr

/-- `lzf_decompress`: what it returns for an input and the size of the output, and what it has written then. -/
abbrev Decoder := List UInt8 → Nat → UInt32 × List UInt8

def minHdrSize : Nat := 5
def type0HdrSize : Nat := 5
def type1HdrSize : Nat := 7

/-- `struct lzf_context`. Null pointers are 0. -/
structure Context where
  hdr : Nat
  hRem : UInt32
  data : Nat
  dataCompressed : Bool
  dataRemSize : UInt32
  dataCsize : Int
  dataUcsize : Nat
  dataRead : UInt32
  csum : UInt32
  csumOffset : UInt32
  deriving DecidableEq, Repr

def lzfInit (compressedSize : UInt32) : Context where
  hdr := 0
  hRem := 0
  data := 0
  dataCompressed := false
  dataRemSize := 0
  dataCsize := 0
  dataUcsize := 0
  dataRead := 0
  csum := 0
  csumOffset := compressedSize - 4

structure Extent where
  start : Nat
  size : Nat
  deriving DecidableEq, Repr

def Extent.Inside (x : Extent) (start size : Nat) : Prop :=
  x.size = 0 ∨ start ≤ x.start ∧ x.start + x.size ≤ start + size

instance (x : Extent) (start size : Nat) : Decidable (x.Inside start size) := inferInstanceAs (Decidable (_ ∨ _ ∧ _))

/-- The local variables of the loop, with the context. Reads are extents of memory, writes extents of the output. -/
structure State where
  context : Context
  inBuffer : Nat
  processed : UInt32
  out : Nat
  written : UInt32
  reads : List Extent
  writes : List Extent
  deriving DecidableEq, Repr

structure Result where
  error : Option Error
  context : Context
  written : UInt32
  reads : List Extent
  writes : List Extent
  deriving DecidableEq, Repr

def State.read (s : State) (start size : Nat) : State := { s with reads := s.reads ++ [⟨start, size⟩] }

def State.write (s : State) (size : Nat) : State := { s with writes := s.writes ++ [⟨s.out, size⟩] }

/-- `goto fail`, or a return. -/
def State.fail (s : State) (error : Error) : Result := ⟨some error, s.context, s.written, s.reads, s.writes⟩

section
variable (lzfDecompress : Decoder) (m : Mem)

def shortAt (a : Nat) : Nat := (m a).toNat * 256 + (m (a + 1)).toNat

def checkCrc (s : State) : Result :=
  if s.context.csumOffset ≤ s.context.dataRead then
    { error := if readLE m s.inBuffer 4 ≠ s.context.csum.toNat then some .invalid else none
      context := s.context
      written := s.written
      reads := s.reads ++ [⟨s.inBuffer, 4⟩]
      writes := s.writes }
  else ⟨none, s.context, s.written, s.reads, s.writes⟩

/-- `break` leaves the loop. -/
def State.quit (s : State) : Pass State Result := .leave (checkCrc m s)

def blockSizes (unprocessed : UInt32) (s : State) : Pass State Result :=
  let hdr := s.context.hdr
  let s := s.read (hdr + 2) 1
  if m (hdr + 2) = 0 then
    let s := s.read (hdr + 3) 2
    .next { s with
      processed := s.processed + UInt32.ofNat type0HdrSize
      context := { s.context with
        dataCsize := -1
        dataUcsize := shortAt m (hdr + 3)
        dataRead := s.context.dataRead + UInt32.ofNat type0HdrSize
        data := hdr + type0HdrSize } }
  else if m (hdr + 2) = 1 then
    if unprocessed.toNat < type1HdrSize then
      .next { s with context := { s.context with hRem := UInt32.ofNat type1HdrSize - unprocessed } }
    else
      let s := s.read (hdr + 3) 4
      .next { s with
        processed := s.processed + UInt32.ofNat type1HdrSize
        context := { s.context with
          dataCsize := shortAt m (hdr + 3)
          dataUcsize := shortAt m (hdr + 5)
          dataRead := s.context.dataRead + UInt32.ofNat type1HdrSize
          data := hdr + type1HdrSize } }
  else .leave (s.fail .invalid)

def blockStart (unprocessed : UInt32) (s : State) : Pass State Result :=
  if s.context.hdr = 0 then
    let s := { s with context := { s.context with hdr := s.inBuffer } }
    if unprocessed.toNat < minHdrSize then
      State.quit m { s with context := { s.context with hRem := UInt32.ofNat minHdrSize - unprocessed } }
    else
      let s := s.read s.context.hdr 1
      if m s.context.hdr = 0 then State.quit m s
      else if m s.context.hdr ≠ 90 then .leave (s.fail .invalid)
      else
        let s := s.read (s.context.hdr + 1) 1
        if m (s.context.hdr + 1) ≠ 86 then .leave (s.fail .invalid) else .next s
  else .next s

def Context.sized (context : Context) : Context :=
  { context with
    dataCompressed := decide (context.dataCsize ≠ -1)
    dataRemSize :=
      if context.dataCsize = -1 then UInt32.ofNat context.dataUcsize else UInt32.ofNat context.dataCsize.toNat }

def blockHeader (unprocessed : UInt32) (s : State) : Pass State Result :=
  if s.context.data = 0 then
    (blockStart m unprocessed s).andThen fun s =>
      (blockSizes m unprocessed s).andThen fun s => .next { s with context := s.context.sized }
  else .next s

def State.advance (s : State) (taken : Nat) (csum : UInt32) : State :=
  { s with
    inBuffer := s.context.data + taken
    processed := s.processed + s.context.dataRemSize
    out := s.out + s.context.dataUcsize
    written := s.written + UInt32.ofNat s.context.dataUcsize
    context := { s.context with
      dataRead := s.context.dataRead + UInt32.ofNat taken
      csum := csum
      data := 0
      hdr := 0 } }

def blockData (outbufSize unprocessed : UInt32) (s : State) : Pass State Result :=
  if unprocessed < s.context.dataRemSize then
    State.quit m { s with context := { s.context with dataRemSize := s.context.dataRemSize - unprocessed } }
  else if (outbufSize.toNat : Int) - s.out < s.context.dataUcsize then .leave (s.fail .overflow)
  else if ¬ s.context.dataCompressed then
    let bytes := bytesAt m s.context.data s.context.dataUcsize
    let s := (s.read s.context.data s.context.dataUcsize).write s.context.dataUcsize
    .next (s.advance s.context.dataUcsize (tegrablUtilsCrc32 s.context.csum bytes))
  else
    let answer := lzfDecompress (bytesAt m s.context.data s.context.dataCsize.toNat) s.context.dataUcsize
    let s := (s.read s.context.data s.context.dataCsize.toNat).write answer.2.length
    if answer.1 ≠ UInt32.ofNat s.context.dataUcsize then .leave (s.fail .badParameter)
    else .next (s.advance s.context.dataCsize.toNat (tegrablUtilsCrc32 s.context.csum answer.2))

def lzfPass (inSize outbufSize : UInt32) (s : State) : Pass State Result :=
  if s.processed < inSize ∧ s.context.dataRead < s.context.csumOffset then
    let unprocessed := inSize - s.processed
    (blockHeader m unprocessed s).andThen (blockData lzfDecompress m outbufSize unprocessed)
  else State.quit m s

def State.initial (context : Context) (inBuffer : Nat) : State := ⟨context, inBuffer, 0, 0, 0, [], []⟩

def doLzfDecompress (context : Context) (inBuffer : Nat) (inSize outbufSize : UInt32) (result : Result) : Prop :=
  LoopReturns (lzfPass lzfDecompress m inSize outbufSize) (.initial context inBuffer) result

end

end Cboot.Lzf
