import Cboot.Lib.Pieces

/-!
`ext4_read_file` of `lib/fs/ext4/ext4.c` and what it calls. A buffer is known by the offsets from its start, and a
byte of the device by its address. The device stays as it is during a call, and so does what it answers.
-/

namespace Cboot.Ext4
open Lib

/-- `ERR_GENERIC` is -1, which is also what is returned in plain numbers. -/
inductive Error where
  | generic
  | noMemory
  | notValid
  | notDir
  | notFound
  deriving DecidableEq, Repr

structure Ext4ExtentHeader where
  magic : UInt16
  entries : UInt16
  maxEntries : UInt16
  depth : UInt16
  generation : UInt32
  deriving DecidableEq, Repr

structure Ext4ExtentIdx where
  block : UInt32
  leafLo : UInt32
  leafHi : UInt16
  unused : UInt16
  deriving DecidableEq, Repr

structure Ext4Extent where
  blockNo : UInt32
  len : UInt16
  startHi : UInt16
  startLo : UInt32
  deriving DecidableEq, Repr

/-- The twelve bytes after a header, and after one another, are read in one of two ways. -/
structure Slot where
  word0 : UInt32
  word1 : UInt32
  word2 : UInt32
  deriving DecidableEq, Repr

def Slot.extent (s : Slot) : Ext4Extent := ⟨s.word0, s.word1.toUInt16, (s.word1 >>> 16).toUInt16, s.word2⟩
def Slot.idx (s : Slot) : Ext4ExtentIdx := ⟨s.word0, s.word1, s.word2.toUInt16, (s.word2 >>> 16).toUInt16⟩

/-- A header and the memory behind it, which does not end where the block does. -/
structure Node where
  header : Ext4ExtentHeader
  slot : Nat → Slot

def Node.extents (node : Node) : List Ext4Extent :=
  (List.range node.header.entries.toNat).map fun i => (node.slot i).extent

def Node.indices (node : Node) : List Ext4ExtentIdx :=
  (List.range node.header.entries.toNat).map fun i => (node.slot i).idx

structure Ext2 where
  logBsize : Nat
  fsOffset : UInt64
  /-- A block has a size. -/
  logBsize_lt : logBsize < 22

def Ext2.blockSize (fs : Ext2) : Nat := 1024 * 2 ^ fs.logBsize

theorem Ext2.blockSize_pos (fs : Ext2) : 0 < fs.blockSize := Nat.mul_pos (by decide) (Nat.two_pow_pos _)

/-- `e2di_mode`, `e2di_flags` and `e2di_blocks`. -/
structure Inode where
  mode : UInt16
  flags : UInt32
  blocks : Node

def sIsReg (mode : UInt16) : Bool := mode &&& 0xF000 == 0x8000

/-- `tegrabl_blockdev_read` returns no error when it `reads`; what of the bytes it has `put` in the buffer otherwise
is up to the driver. A block of the device read as a `node`, and `memalign` in its order. -/
structure Device where
  reads : UInt64 → Nat → Bool
  put : UInt64 → Nat → Nat
  node : UInt64 → Node
  memalign : Nat → Bool
  put_le : ∀ addr len, put addr len ≤ len
  put_eq : ∀ addr len, reads addr len → put addr len = len

def Device.piece (dev : Device) (dest : Nat) (addr : UInt64) (len : Nat) : Piece UInt64 :=
  ⟨dest, dev.put addr len, fun i => addr + UInt64.ofNat i⟩

def validateExtentsMagic (header : Ext4ExtentHeader) : Bool := header.magic == 0xF30A

section
variable (fs : Ext2)

/-- `((hi << 32U) | lo) * E2FS_BLOCK_SIZE + ext2->fs_offset`. -/
def Ext2.address (hi : UInt16) (lo : UInt32) : UInt64 :=
  (hi.toUInt64 <<< 32 ||| lo.toUInt64) * UInt64.ofNat fs.blockSize + fs.fsOffset

def Ext4Extent.blkAddr (e : Ext4Extent) : UInt64 := fs.address e.startHi e.startLo

def Ext4ExtentIdx.blkAddr (idx : Ext4ExtentIdx) : UInt64 := fs.address idx.leafHi idx.leafLo

/-- `extent->block_no * E2FS_BLOCK_SIZE`, 32 bits wide. -/
def Ext4Extent.dest (e : Ext4Extent) : Nat := e.blockNo.toNat * fs.blockSize % 2 ^ 32

/-- `extent->len * E2FS_BLOCK_SIZE`, 32 bits wide. -/
def Ext4Extent.lenBytes (e : Ext4Extent) : Nat := e.len.toNat * fs.blockSize % 2 ^ 32

/-- `buf_ptr`, `extent_len_bytes` and `bytes_read`. -/
structure Cursor where
  bufPtr : Nat
  extentLenBytes : Nat
  bytesRead : Nat

variable (dev : Device)

/-- The `for` loop of `ext4_read_extent`, and where it stands at its end. -/
def readExtents (buf : Nat) : Cursor → List Ext4Extent → List (Piece UInt64) × Option Cursor
  | c, [] => ([], some c)
  | c, e :: rest =>
    let bufPtr := buf + e.dest fs
    let extentLenBytes := e.lenBytes fs
    let piece := dev.piece bufPtr (e.blkAddr fs) extentLenBytes
    if dev.reads (e.blkAddr fs) extentLenBytes then
      let (pieces, last) := readExtents buf ⟨bufPtr, extentLenBytes, c.bytesRead + extentLenBytes⟩ rest
      (piece :: pieces, last)
    else ([piece], none)

/-- `*total_bytes_read`. -/
def Cursor.total (c : Cursor) (buf : Nat) : Nat :=
  if c.bufPtr = buf then c.bytesRead else c.bufPtr + c.extentLenBytes - buf

def ext4ReadExtent (node : Node) (buf : Nat) : List (Piece UInt64) × Except Error Nat :=
  let (pieces, last) := readExtents fs dev buf ⟨buf, 0, 0⟩ node.extents
  match last with
  | some c => (pieces, .ok (c.total buf))
  | none => (pieces, .error .generic)

/-- Bytes in blocks, as a `uint32_t`. -/
def blocksOf (bytes : Nat) : Nat := (bytes + fs.blockSize - 1) / fs.blockSize % 2 ^ 32

/-- `(len != 0) && (total_blocks_read > file_len_in_blocks)`. -/
def tooMany (total len : Nat) : Bool := len ≠ 0 ∧ blocksOf fs total > blocksOf fs len

/-- `buf_ptr`, `total_bytes_read`, `bytes_read` and `err`. -/
structure Progress where
  bufPtr : Nat
  totalBytesRead : Nat
  bytesRead : Nat
  err : Option Error

/-- After `ext4_read_extent`, which leaves `bytes_read` as it was when it fails. -/
def Progress.advance (p : Progress) (result : Except Error Nat) : Progress :=
  match result with
  | .ok n => ⟨p.bufPtr + n, p.totalBytesRead + n, n, none⟩
  | .error e => ⟨p.bufPtr + p.bytesRead, p.totalBytesRead + p.bytesRead, p.bytesRead, some e⟩

def Progress.result (p : Progress) : Except Error Nat :=
  match p.err with
  | some e => .error e
  | none => .ok p.totalBytesRead

/-- The first index entry: `extent_idx` does not move. -/
def Node.extentIdx (node : Node) : Ext4ExtentIdx := (node.slot 0).idx

/-- The `for` loop of `ext4_read_data_from_extent`, with the passes that are left. -/
def readLeaves (root : Node) (len : Nat) : Nat → Nat → Progress → List (Piece UInt64) × Except Error Nat
  | 0, _, p => ([], p.result)
  | n + 1, i, p =>
    if ¬ dev.memalign i then ([], .error .noMemory)
    else if ¬ dev.reads (root.extentIdx.blkAddr fs) fs.blockSize then ([], .error .generic)
    else
      let (pieces, read) := ext4ReadExtent fs dev (dev.node (root.extentIdx.blkAddr fs)) p.bufPtr
      let p := p.advance read
      if tooMany fs p.totalBytesRead len then (pieces, .error .notValid)
      else
        let (more, result) := readLeaves root len n (i + 1) p
        (pieces ++ more, result)

def ext4ReadDataFromExtent (inode : Inode) (len : Nat) : List (Piece UInt64) × Except Error Nat :=
  let root := inode.blocks
  if ¬ validateExtentsMagic root.header then ([], .error .notValid)
  else if root.header.depth > 0 then
    readLeaves fs dev root len root.header.entries.toNat 0 ⟨0, 0, 0, none⟩
  else
    let (pieces, read) := ext4ReadExtent fs dev root 0
    let p := Progress.advance ⟨0, 0, 0, none⟩ read
    if tooMany fs p.totalBytesRead len then (pieces, .error .notValid) else (pieces, p.result)

def ext4ReadFile (inode : Inode) (offset : UInt64) (len : Nat) : List (Piece UInt64) × Except Error Nat :=
  if len = 0 then ([], .error .generic)
  else if offset ≠ 0 then ([], .error .generic)
  else if ¬ sIsReg inode.mode then ([], .error .generic)
  else ext4ReadDataFromExtent fs dev inode len

end

end Cboot.Ext4
