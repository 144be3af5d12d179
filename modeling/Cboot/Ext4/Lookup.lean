import Cboot.Ext4.Directory
import Cboot.Ext4.Extents

/-!
A directory is the blocks that its extent tree names, at whatever depth.
-/

namespace Cboot.Ext4
open Lib

section
variable (fs : Ext2) (vol : Volume) (inode : Inode) (name : List UInt8)

def treeExtents (dev : Device) : Nat → Node → List Ext4Extent
  | 0, node => node.extents
  | depth + 1, node => node.indices.flatMap fun idx => treeExtents dev depth (dev.node (idx.blkAddr fs))

def dirExtents : List Ext4Extent := treeExtents fs vol.toDevice inode.blocks.header.depth.toNat inode.blocks

def DirBlock (content : Mem) : Prop := ∃ e ∈ dirExtents fs vol inode, ∃ k < e.len.toNat,
  content = fun x => vol.byte (e.blkAddr fs + UInt64.ofNat (k * fs.blockSize + x))

inductive RecordAt (content : Mem) : Nat → Prop where
  | first : RecordAt content 0
  | next {pos : Nat} : RecordAt content pos → entRecLen content pos ≠ 0 →
      pos + roundUp4 (entRecLen content pos) + 8 ≤ fs.blockSize →
      RecordAt content (pos + roundUp4 (entRecLen content pos))

def Live (inum : Nat) : Prop := inum ≠ 0 ∧ ∃ content, DirBlock fs vol inode content ∧
  ∃ pos, RecordAt fs content pos ∧ entRecLen content pos ≠ 0 ∧ pos + 8 + entNameLen content pos ≤ fs.blockSize ∧
    entName content pos = name ∧ entInode content pos = inum

def IsDirectory : Prop := sIsDir inode.mode ∧ validateExtentsMagic inode.blocks.header

structure Healthy : Prop where
  reads : ∀ addr n, 0 < n → vol.reads addr n
  memalign : ∀ i, vol.memalign i
  buf : vol.allocBuf
  index : ∀ call, vol.allocIndex call
  entries : ∀ n, 0 < n → vol.allocEntries n

structure LooksUp : Prop where
  ends : (ext4DirLookup fs vol inode name).2 ≠ .hangs
  inside : ∀ a ∈ (ext4DirLookup fs vol inode name).1, a.Inside fs.blockSize
  sound : ∀ inum, (ext4DirLookup fs vol inode name).2 = .found inum → Live fs vol inode name inum
  complete : Healthy vol → IsDirectory inode → (∃ inum, Live fs vol inode name inum) →
    ∃ inum, (ext4DirLookup fs vol inode name).2 = .found inum

/-- `namelen`, which is 32 bits wide for a hashed directory. -/
def namelenOf : Nat := if isHashedIndex inode.flags then name.length % 2 ^ 32 else name.length

def soughtName : List UInt8 := name.take (namelenOf inode name)

end

section
variable {fs : Ext2} {vol : Volume} {inode : Inode} {call : Nat} {num : UInt32}

def Looked (fs : Ext2) (inode : Inode) (vol : Volume) (call : Nat) : Prop :=
  inode.blocks.header.depth = 0 ∨ vol.allocIndex call ∧ vol.reads (inode.blocks.extentIdx.blkAddr fs) fs.blockSize

instance (fs : Ext2) (inode : Inode) (vol : Volume) (call : Nat) : Decidable (Looked fs inode vol call) :=
  inferInstanceAs (Decidable (_ ∨ _))

def lookupAddr (fs : Ext2) (num : UInt32) (node : Node) : UInt64 :=
  blkNum num node.extents * UInt64.ofNat fs.blockSize + fs.fsOffset

theorem getExtentsBlk_looked (looked : Looked fs inode vol call) : getExtentsBlk fs vol inode call num =
    ([vol.piece 0 (lookupAddr fs num (leafOf fs vol.toDevice inode)) fs.blockSize], .ok ()) := by
  rw [getExtentsBlk]
  by_cases flat : inode.blocks.header.depth = 0
  · rw [if_neg (by rw [flat]; decide), leafOf, if_pos flat]
    rfl
  · obtain ⟨memory, read⟩ := looked.resolve_left flat
    rw [if_pos (UInt16.pos_iff_ne_zero.mpr flat), if_neg (not_not_intro memory), if_neg (not_not_intro read), leafOf,
      if_neg flat]
    rfl

theorem getExtentsBlk_refused (num : UInt32) (refused : ¬ Looked fs inode vol call) :
    ∃ e, getExtentsBlk fs vol inode call num = ([], .error e) := by
  obtain ⟨deep, unread⟩ := not_or.mp refused
  rw [getExtentsBlk, if_pos (UInt16.pos_iff_ne_zero.mpr deep)]
  by_cases memory : vol.allocIndex call
  · rw [if_neg (not_not_intro memory), if_pos fun read => unread ⟨memory, read⟩]
    exact ⟨_, rfl⟩
  · rw [if_pos memory]
    exact ⟨_, rfl⟩

end

section
variable (fs : Ext2) (sought : List UInt8)

/-- A block that is looked through, for none before it has a record of the name. -/
inductive Opened : List Mem → Mem → Prop where
  | first (content : Mem) (rest : List Mem) : Opened (content :: rest) content
  | later {before content : Mem} {rest : List Mem} : (∀ pos, ¬ Met fs sought before 0 pos) → Opened rest content →
      Opened (before :: rest) content

/-- What a lookup through these blocks finds, and what it reads of them. -/
structure Tells (run : List Access × Outcome) (blocks : List Mem) : Prop where
  ends : run.2 ≠ .hangs
  found : ∀ inum, run.2 = .found inum ↔ ∃ content, Opened fs sought blocks content ∧
    ∃ pos, Met fs sought content 0 pos ∧ entInode content pos = inum
  inside : (∀ a ∈ run.1, a.Inside fs.blockSize) ↔ ∀ content, Opened fs sought blocks content →
    ∀ pos, Passed fs sought content 0 pos → EntryFits fs sought content pos

end

section
variable {fs : Ext2} {sought : List UInt8} {log : List Access} {mem content : Mem} {blocks : List Mem}

theorem opened_cons : Opened fs sought (mem :: blocks) content ↔
    content = mem ∨ (∀ pos, ¬ Met fs sought mem 0 pos) ∧ Opened fs sought blocks content := by
  constructor
  · intro opened
    cases opened with
    | first => exact .inl rfl
    | later none rest => exact .inr ⟨none, rest⟩
  · rintro (rfl | ⟨none, rest⟩)
    · exact .first content blocks
    · exact .later none rest

theorem Tells.fails (kept : ∀ a ∈ log, a.Inside fs.blockSize) (e : Error) : Tells fs sought (log, .failed e) [] := by
  refine ⟨nofun, fun inum => ⟨nofun, nofun⟩, fun _ => nofun, fun _ => kept⟩

theorem Tells.after {run : List Access × Outcome} (rest : Tells fs sought run blocks)
    (kept : ∀ a ∈ log, a.Inside fs.blockSize) : Tells fs sought (log ++ run.1, run.2) blocks := by
  refine ⟨rest.ends, rest.found, ?_⟩
  rw [List.forall_mem_append, rest.inside]
  exact and_iff_right kept

theorem Tells.scans {scanned : List Access × Scan} {more : List Access × Outcome}
    (kept : ∀ a ∈ log, a.Inside fs.blockSize) (here : Scans fs sought mem 0 scanned) (rest : Tells fs sought more blocks) :
    Tells fs sought (match scanned.2 with
      | .found inum => (log ++ scanned.1, .found inum)
      | .hangs => (log ++ scanned.1, .hangs)
      | .absent => (log ++ scanned.1 ++ more.1, more.2)) (mem :: blocks) := by
  obtain ⟨walked, result⟩ := scanned
  obtain ⟨ends, found, inside⟩ := here
  cases result with
  | hangs => exact absurd rfl ends
  | found inum =>
    obtain ⟨pos, met, -⟩ := (found inum).mp rfl
    have only : ∀ content, Opened fs sought (mem :: blocks) content ↔ content = mem := by
      intro content
      rw [opened_cons]
      exact or_iff_left fun later => later.1 pos met
    refine ⟨nofun, fun other => ?_, ?_⟩
    · simp only [only, exists_eq_left, Outcome.found.injEq]
      simpa only [Scan.found.injEq] using found other
    · simp only [only, forall_eq, List.forall_mem_append, ← inside]
      exact and_iff_right kept
  | absent =>
    have none : ∀ pos, ¬ Met fs sought mem 0 pos := by
      intro pos met
      cases (found _).mpr ⟨pos, met, rfl⟩
    refine ⟨rest.ends, fun other => (rest.found other).trans ⟨?_, ?_⟩, ?_⟩
    · rintro ⟨content, opened, met⟩
      exact ⟨content, .later none opened, met⟩
    · rintro ⟨content, opened, pos, met, inode⟩
      rcases opened_cons.mp opened with rfl | later
      · exact absurd met (none pos)
      · exact ⟨content, later.2, pos, met, inode⟩
    · simp only [List.forall_mem_append, opened_cons, or_imp, forall_and, forall_eq, ← inside, rest.inside]
      constructor
      · rintro ⟨⟨-, first⟩, later⟩
        exact ⟨first, fun content opened => later content opened.2⟩
      · rintro ⟨first, later⟩
        exact ⟨⟨kept, first⟩, fun content opened => later content ⟨none, opened⟩⟩

end

end Cboot.Ext4
