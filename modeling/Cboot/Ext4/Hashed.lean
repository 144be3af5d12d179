import Cboot.Ext4.File
import Cboot.Ext4.Linear

/-!
The blocks that the hash entries name are read one after another, each over the one before it, so that what lies
behind the buffer stays as it was.
-/

namespace Cboot.Ext4
open Lib

section
variable (fs : Ext2) (vol : Volume) (inode : Inode)

/-- A block of the device over what was there before. -/
def arrived (before : Mem) (addr : UInt64) : Mem := fun x =>
  if x < vol.put addr fs.blockSize then vol.byte (addr + UInt64.ofNat x) else before x

/-- A block of the file is at its place in the first extent that ends behind it, or else at block 0. -/
def fileBlockAddr (num : UInt32) : UInt64 :=
  match (leafOf fs vol.toDevice inode).extents.find? fun e => num < e.blockNo + e.len.toUInt32 with
  | some e => e.blkAddr fs + (num - e.blockNo).toUInt64 * UInt64.ofNat fs.blockSize
  | none => fs.fsOffset

def rootBlock : Mem := arrived fs vol vol.memory (fileBlockAddr fs vol inode 0)

/-- The hash entries are to be had. -/
def Counted : Prop := Looked fs inode vol 0 ∧ vol.allocEntries (rootCount (rootBlock fs vol inode) * 8)

instance : Decidable (Counted fs vol inode) := inferInstanceAs (Decidable (_ ∧ _))

def CountFits : Prop := Counted fs vol inode →
  1 ≤ rootCount (rootBlock fs vol inode) ∧ 32 + 8 * rootCount (rootBlock fs vol inode) ≤ fs.blockSize

/-- The blocks of the hash entries, up to the first that is not to be had. -/
def hashedShown : List Mem :=
  if Counted fs vol inode then
    ((List.range (rootCount (rootBlock fs vol inode))).takeWhile fun i => Looked fs inode vol (i + 1)).map fun i =>
      arrived fs vol (clearBlock fs vol.memory) (fileBlockAddr fs vol inode (entryBlock (rootBlock fs vol inode) i))
  else []

/-- What is in the buffer each time that it is looked through. -/
def shown : List Mem := if isHashedIndex inode.flags then hashedShown fs vol inode else linearShown fs vol inode

def Admitted : Prop := sIsDir inode.mode ∧ validateExtentsMagic inode.blocks.header ∧ vol.allocBuf

def FetchFits : Prop := if isHashedIndex inode.flags then CountFits fs vol inode else LinearFits fs vol inode

/-- What is fetched fits, the records that are passed fit, and the first of the name is a live one, and is there where
one is. -/
structure Suits (name : List UInt8) : Prop where
  fetch : Admitted vol inode → FetchFits fs vol inode
  entries : Admitted vol inode → ∀ content, Opened fs (soughtName inode name) (shown fs vol inode) content →
    ∀ pos, Passed fs (soughtName inode name) content 0 pos → EntryFits fs (soughtName inode name) content pos
  live : Admitted vol inode → ∀ content, Opened fs (soughtName inode name) (shown fs vol inode) content →
    ∀ pos, Met fs (soughtName inode name) content 0 pos → Live fs vol inode name (entInode content pos)
  present : Healthy vol → IsDirectory inode → (∃ inum, Live fs vol inode name inum) →
    ∃ content ∈ shown fs vol inode, ∃ pos, Met fs (soughtName inode name) content 0 pos

end

section
variable {fs : Ext2} {vol : Volume} {inode : Inode} {name : List UInt8} {namelen : Nat}

end

end Cboot.Ext4
