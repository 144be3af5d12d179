import Cboot.Ext4.Lookup

/-!
The whole directory goes into the buffer of one block, so what fits is the first block of its last extent.
-/

namespace Cboot.Ext4
open Lib

section
variable (fs : Ext2) (vol : Volume) (inode : Inode)

def passes : Nat := if inode.blocks.header.depth = 0 then 1 else inode.blocks.header.entries.toNat

/-- The directory can be read, and has some bytes. -/
def fetched : Bool :=
  let es := (leafOf fs vol.toDevice inode).extents
  (inode.blocks.header.depth == 0 || vol.reads (inode.blocks.extentIdx.blkAddr fs) fs.blockSize &&
    (List.range inode.blocks.header.entries.toNat).all vol.memalign) &&
    es.all (fun e => e.reads fs vol.toDevice) && positiveInt (passes inode * span fs es)

/-- The first block of the last extent that has bytes. -/
def lastShown (es : List Ext4Extent) : Mem := fun x =>
  match (es.filter fun e => e.lenBytes fs ≠ 0).getLast? with
  | some e => if x < fs.blockSize then vol.byte (e.blkAddr fs + UInt64.ofNat x) else vol.memory x
  | none => vol.memory x

/-- It is looked through in every round. -/
def linearShown : List Mem :=
  if fetched fs vol inode then List.replicate 1025 (lastShown fs vol (leafOf fs vol.toDevice inode).extents) else []

/-- Each extent that is come to, in every pass, is put inside of the one block. -/
def LinearFits : Prop :=
  ∀ k, Reached fs vol.toDevice inode 0 k → ∀ e ∈ visited fs vol.toDevice (leafOf fs vol.toDevice inode).extents,
    (e.piece fs vol.toDevice (k * stride fs vol.toDevice (leafOf fs vol.toDevice inode).extents)).Inside fs.blockSize

end

section
variable {fs : Ext2} {vol : Volume} {inode : Inode} {name : List UInt8} {es : List Ext4Extent}

variable {dev : Device}

variable (magic : validateExtentsMagic inode.blocks.header)
include magic

end

end Cboot.Ext4
