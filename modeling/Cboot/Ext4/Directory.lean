import Cboot.Lib.ByteMemory
import Cboot.Ext4.Model

/-!
`ext4_dir_lookup` of `lib/fs/ext4/ext4.c` with its two ways of going through a directory.
-/

namespace Cboot.Ext4
open Lib

/-- `len` bytes from `start` on. -/
structure Access where
  start : Nat
  len : Nat
  deriving DecidableEq, Repr

def Access.Inside (a : Access) (size : Nat) : Prop := a.len = 0 ∨ a.start + a.len ≤ size

def Access.ofPiece (p : Piece UInt64) : Access := ⟨p.dest, p.len⟩

/-- A device with its bytes, what the memory holds before the call, and which allocations it has room for. -/
structure Volume extends Device where
  byte : UInt64 → UInt8
  memory : Mem
  allocBuf : Bool
  allocIndex : Nat → Bool
  allocEntries : Nat → Bool

inductive Outcome where
  | found (inum : Nat)
  | failed (e : Error)
  | hangs
  deriving DecidableEq, Repr

def sIsDir (mode : UInt16) : Bool := mode &&& 0xF000 == 0x4000

def isHashedIndex (flags : UInt32) : Bool := flags &&& 0x1000 == 0x1000

def roundUp4 (n : Nat) : Nat := (n + 3) / 4 * 4

section
variable (fs : Ext2) (vol : Volume) (inode : Inode) (name : List UInt8)

def Volume.arrive (mem : Mem) (pieces : List (Piece UInt64)) : Mem := fun x =>
  match Piece.held pieces x with
  | some addr => vol.byte addr
  | none => mem x

def blkNum (num : UInt32) (es : List Ext4Extent) : UInt64 :=
  match es.find? fun e => e.blockNo + e.len.toUInt32 > num with
  | some e => (e.startHi.toUInt64 <<< 32 ||| e.startLo.toUInt64) + (num - e.blockNo).toUInt64
  | none => 0

def extentsBlkLookup (node : Node) (num : UInt32) : List (Piece UInt64) :=
  [vol.piece 0 (blkNum num node.extents * UInt64.ofNat fs.blockSize + fs.fsOffset) fs.blockSize]

/-- What `extents_blk_lookup` returns is not looked at. -/
def getExtentsBlk (call : Nat) (num : UInt32) : List (Piece UInt64) × Except Error Unit :=
  let root := inode.blocks
  if root.header.depth > 0 then
    if ¬ vol.allocIndex call then ([], .error .noMemory)
    else if ¬ vol.reads (root.extentIdx.blkAddr fs) fs.blockSize then ([], .error .generic)
    else (extentsBlkLookup fs vol (vol.node (root.extentIdx.blkAddr fs)) num, .ok ())
  else (extentsBlkLookup fs vol root num, .ok ())

def entInode (mem : Mem) (pos : Nat) : Nat := readLE mem pos 4
def entRecLen (mem : Mem) (pos : Nat) : Nat := readLE mem (pos + 4) 2
def entNameLen (mem : Mem) (pos : Nat) : Nat := readLE mem (pos + 6) 1
def entName (mem : Mem) (pos : Nat) : List UInt8 := bytesAt mem (pos + 8) (entNameLen mem pos)

/-- `e2d_name_len == namelen` and `memcmp(name, e2d_name, e2d_name_len) == 0`. -/
def entMatches (mem : Mem) (namelen pos : Nat) : Bool :=
  entNameLen mem pos = namelen ∧ entName mem pos = name.take (entNameLen mem pos)

def entAccesses (mem : Mem) (namelen pos : Nat) : List Access :=
  if entRecLen mem pos = 0 then [⟨pos + 4, 2⟩]
  else if entNameLen mem pos ≠ namelen then [⟨pos + 4, 2⟩, ⟨pos + 6, 1⟩]
  else if ¬ entMatches name mem namelen pos then [⟨pos + 4, 2⟩, ⟨pos + 6, 1⟩, ⟨pos + 8, entNameLen mem pos⟩]
  else [⟨pos + 4, 2⟩, ⟨pos + 6, 1⟩, ⟨pos + 8, entNameLen mem pos⟩, ⟨pos, 4⟩]

inductive Scan where
  | found (inum : Nat)
  | absent
  | hangs
  deriving DecidableEq, Repr

/-- The `while` loop over the entries, which both ways share. -/
def scan (mem : Mem) (namelen : Nat) : Nat → Nat → List Access × Scan
  | 0, _ => ([], .hangs)
  | fuel + 1, pos =>
    if pos < fs.blockSize then
      let log := entAccesses name mem namelen pos
      if entRecLen mem pos = 0 then (log, .absent)
      else if entMatches name mem namelen pos then (log, .found (entInode mem pos))
      else
        let (more, result) := scan mem namelen fuel (pos + roundUp4 (entRecLen mem pos))
        (log ++ more, result)
    else ([], .absent)

def scanBlock (mem : Mem) (namelen : Nat) : List Access × Scan := scan fs name mem namelen (fs.blockSize + 1) 0

def rootCount (mem : Mem) : Nat := readLE mem 34 2

def entryBlock (mem : Mem) (i : Nat) : UInt32 := UInt32.ofNat (readLE mem (36 + 8 * i) 4)

/-- `(hash_entries_count - 1) * sizeof(struct dx_entry)`. -/
def entriesCopied (count : Nat) : Nat := (count + (2 ^ 32 - 1)) % 2 ^ 32 * 8

def clearBlock (mem : Mem) : Mem := fillBytes mem 0 fs.blockSize 0

def scanHashBlocks (namelen : Nat) : Mem → Nat → List UInt32 → List Access × Outcome
  | _, _, [] => ([], .failed .notFound)
  | mem, call, block :: rest =>
    let (pieces, read) := getExtentsBlk fs vol inode call block
    let mem := vol.arrive (clearBlock fs mem) pieces
    let log := ⟨0, fs.blockSize⟩ :: pieces.map Access.ofPiece
    match read with
    | .error e => (log, .failed e)
    | .ok () =>
      let (walked, result) := scanBlock fs name mem namelen
      match result with
      | .found inum => (log ++ walked, .found inum)
      | .hangs => (log ++ walked, .hangs)
      | .absent =>
        let (more, outcome) := scanHashBlocks namelen mem (call + 1) rest
        (log ++ walked ++ more, outcome)

def lookupHashedDir : List Access × Outcome :=
  let (pieces, read) := getExtentsBlk fs vol inode 0 0
  let mem := vol.arrive vol.memory pieces
  let log := pieces.map Access.ofPiece
  match read with
  | .error e => (log, .failed e)
  | .ok () =>
    let count := rootCount mem
    if ¬ vol.allocEntries (count * 8) then (log ++ [⟨34, 2⟩], .failed .noMemory)
    else
      let log := log ++ [⟨34, 2⟩, ⟨36, 4⟩, ⟨40, entriesCopied count⟩]
      let blocks := (List.range count).map (entryBlock mem)
      let (more, outcome) := scanHashBlocks fs vol inode name (name.length % 2 ^ 32) mem 1 blocks
      (log ++ more, outcome)

def positiveInt (bytes : Nat) : Bool := 0 < bytes % 2 ^ 32 ∧ bytes % 2 ^ 32 < 2 ^ 31

/-- The `for` loop, with the rounds that are left. -/
def linearRounds : Nat → Mem → List Access × Outcome
  | 0, _ => ([], .failed .generic)
  | n + 1, mem =>
    let (pieces, read) := ext4ReadDataFromExtent fs vol.toDevice inode 0
    let mem := vol.arrive mem pieces
    let log := pieces.map Access.ofPiece
    match read with
    | .error _ => (log, .failed .generic)
    | .ok bytes =>
      if ¬ positiveInt bytes then (log, .failed .generic)
      else
        let (walked, result) := scanBlock fs name mem name.length
        match result with
        | .found inum => (log ++ walked, .found inum)
        | .hangs => (log ++ walked, .hangs)
        | .absent =>
          let (more, outcome) := linearRounds n mem
          (log ++ walked ++ more, outcome)

/-- `file_blocknum` goes from 0 to 1024. -/
def lookupLinearDir : List Access × Outcome := linearRounds fs vol inode name 1025 vol.memory

def ext4DirLookup : List Access × Outcome :=
  if ¬ sIsDir inode.mode then ([], .failed .notDir)
  else if ¬ validateExtentsMagic inode.blocks.header then ([], .failed .notValid)
  else if ¬ vol.allocBuf then ([], .failed .noMemory)
  else if isHashedIndex inode.flags then lookupHashedDir fs vol inode name
  else lookupLinearDir fs vol inode name

end

section
variable (fs : Ext2) (sought : List UInt8) (content : Mem)

/-- The records from one on, until one has no length or the name. -/
inductive Passed : Nat → Nat → Prop where
  | here (pos : Nat) : Passed pos pos
  | step {pos later : Nat} : entRecLen content pos ≠ 0 → entName content pos ≠ sought →
      pos + roundUp4 (entRecLen content pos) < fs.blockSize →
      Passed (pos + roundUp4 (entRecLen content pos)) later → Passed pos later

structure Met (start pos : Nat) : Prop where
  passed : Passed fs sought content start pos
  record : entRecLen content pos ≠ 0
  name : entName content pos = sought

def EntryFits (pos : Nat) : Prop := pos + 8 ≤ fs.blockSize ∧
  (entRecLen content pos ≠ 0 → entNameLen content pos = sought.length → pos + 8 + entNameLen content pos ≤ fs.blockSize)

structure Scans (start : Nat) (run : List Access × Scan) : Prop where
  ends : run.2 ≠ .hangs
  found : ∀ inum, run.2 = .found inum ↔ ∃ pos, Met fs sought content start pos ∧ entInode content pos = inum
  inside : (∀ a ∈ run.1, a.Inside fs.blockSize) ↔
    ∀ pos, Passed fs sought content start pos → EntryFits fs sought content pos

end

section
variable {fs : Ext2} {name sought : List UInt8} {mem : Mem} {namelen fuel pos later : Nat}

theorem passed_iff : Passed fs sought mem pos later ↔ later = pos ∨ entRecLen mem pos ≠ 0 ∧ entName mem pos ≠ sought ∧
    pos + roundUp4 (entRecLen mem pos) < fs.blockSize ∧
    Passed fs sought mem (pos + roundUp4 (entRecLen mem pos)) later := by
  constructor
  · intro passed
    cases passed with
    | here => exact .inl rfl
    | step some_len other inside rest => exact .inr ⟨some_len, other, inside, rest⟩
  · rintro (rfl | ⟨some_len, other, inside, rest⟩)
    · exact .here later
    · exact .step some_len other inside rest

/-- Nothing is passed after a record without a length, one of the name, or the last of the block. -/
theorem Scans.stops (only : ∀ p, Passed fs sought mem pos p → p = pos) {log : List Access} {result : Scan}
    (ends : result ≠ .hangs)
    (found : ∀ inum, result = .found inum ↔ entRecLen mem pos ≠ 0 ∧ entName mem pos = sought ∧ entInode mem pos = inum)
    (inside : (∀ a ∈ log, a.Inside fs.blockSize) ↔ EntryFits fs sought mem pos) :
    Scans fs sought mem pos (log, result) := by
  refine ⟨ends, fun inum => (found inum).trans ⟨?_, ?_⟩, inside.trans ⟨?_, ?_⟩⟩
  · rintro ⟨some_len, same, inode⟩
    exact ⟨pos, ⟨.here pos, some_len, same⟩, inode⟩
  · rintro ⟨p, ⟨passed, some_len, same⟩, inode⟩
    obtain rfl := only p passed
    exact ⟨some_len, same, inode⟩
  · intro fits p passed
    exact only p passed ▸ fits
  · exact fun all => all pos (.here pos)

theorem Scans.next (some_len : entRecLen mem pos ≠ 0) (other : entName mem pos ≠ sought)
    (more : pos + roundUp4 (entRecLen mem pos) < fs.blockSize) {log : List Access} {run : List Access × Scan}
    (inside : (∀ a ∈ log, a.Inside fs.blockSize) ↔ EntryFits fs sought mem pos)
    (rest : Scans fs sought mem (pos + roundUp4 (entRecLen mem pos)) run) :
    Scans fs sought mem pos (log ++ run.1, run.2) := by
  refine ⟨rest.ends, fun inum => (rest.found inum).trans ⟨?_, ?_⟩, ?_⟩
  · rintro ⟨p, ⟨passed, record, same⟩, inode⟩
    exact ⟨p, ⟨.step some_len other more passed, record, same⟩, inode⟩
  · rintro ⟨p, ⟨passed, record, same⟩, inode⟩
    rcases passed_iff.mp passed with rfl | later
    · exact absurd same other
    · exact ⟨p, ⟨later.2.2.2, record, same⟩, inode⟩
  · rw [List.forall_mem_append, inside, rest.inside]
    constructor
    · rintro ⟨first, later⟩ p passed
      rcases passed_iff.mp passed with rfl | after
      · exact first
      · exact later p after.2.2.2
    · intro all
      exact ⟨all pos (.here pos), fun p passed => all p (.step some_len other more passed)⟩

end

end Cboot.Ext4
