import Mathlib.Algebra.BigOperators.Ring.List
import Mathlib.Algebra.Ring.Nat
import Cboot.Ext4.Extents

/-!
The extents of a well-formed inode tile the blocks of its file, and no two bytes of the file are one byte of the device.
-/

namespace Cboot.Ext4
open Lib

section
variable (fs : Ext2) (dev : Device) (inode : Inode)

def fileExtents : List Ext4Extent :=
  if inode.blocks.header.depth = 0 then inode.blocks.extents
  else inode.blocks.indices.flatMap fun idx => (dev.node (idx.blkAddr fs)).extents

/-- The byte `x` of the file is at this address of the device. -/
def Maps (x : Nat) (addr : UInt64) : Prop :=
  ∃ e ∈ fileExtents fs dev inode, e.blockNo.toNat * fs.blockSize ≤ x ∧
    x < (e.blockNo.toNat + e.len.toNat) * fs.blockSize ∧
    addr = e.blkAddr fs + UInt64.ofNat (x - e.blockNo.toNat * fs.blockSize)

def fileBlocks (len : Nat) : Nat := (len + fs.blockSize - 1) / fs.blockSize

structure LeafFormed (idx : Ext4ExtentIdx) (leaf : Node) : Prop where
  magic : validateExtentsMagic leaf.header
  depth : leaf.header.depth = 0
  fits : 12 + 12 * leaf.header.entries.toNat ≤ fs.blockSize
  first : leaf.extents.head?.map (·.blockNo) = some idx.block
  readable : dev.reads (idx.blkAddr fs) fs.blockSize

structure WellFormed (offset : UInt64) (len : Nat) : Prop where
  accepted : Accepted inode offset len
  depth : inode.blocks.header.depth.toNat ≤ 1
  entries : inode.blocks.header.entries.toNat ≤ 4
  leaves : inode.blocks.header.depth ≠ 0 →
    ∀ idx ∈ inode.blocks.indices, LeafFormed fs dev idx (dev.node (idx.blkAddr fs))
  tiles : Tiles (fun e => e.blockNo.toNat) (fun e => e.len.toNat) 0 (fileBlocks fs len) (fileExtents fs dev inode)
  apart : ∀ x y addr, Maps fs dev inode x addr → Maps fs dev inode y addr → x = y
  readable : ∀ e ∈ fileExtents fs dev inode, ∀ n, 0 < n → n ≤ e.len.toNat * fs.blockSize → dev.reads (e.blkAddr fs) n
  memory : ∀ i, dev.memalign i

structure ReadsWell (offset : UInt64) (len : Nat) : Prop where
  inside : ∀ p ∈ (ext4ReadFile fs dev inode offset len).1, p.Inside (fileBlocks fs len * fs.blockSize)
  fills : WellFormed fs dev inode offset len →
    (ext4ReadFile fs dev inode offset len).2 = .ok (fileBlocks fs len * fs.blockSize) ∧
    ∀ x addr, Maps fs dev inode x addr → Piece.held (ext4ReadFile fs dev inode offset len).1 x = some addr

def Fits (offset : UInt64) (len : Nat) : Prop :=
  Accepted inode offset len → ∀ k, Reached fs dev inode len k → ∀ e ∈ visited fs dev (leafOf fs dev inode).extents,
      (e.piece fs dev (k * stride fs dev (leafOf fs dev inode).extents)).Inside (fileBlocks fs len * fs.blockSize)

structure Plain : Prop where
  single : inode.blocks.header.depth = 0 ∨ inode.blocks.header.entries = 1
  low : ∀ e ∈ fileExtents fs dev inode, e.blockNo.toNat * fs.blockSize < 2 ^ 32 ∧ e.len.toNat * fs.blockSize < 2 ^ 32

end

section
variable {fs : Ext2} {dev : Device} {inode : Inode} {offset : UInt64} {len : Nat} {e : Ext4Extent} {x : Nat}

theorem inside_iff_fits : (∀ p ∈ (ext4ReadFile fs dev inode offset len).1,
    p.Inside (fileBlocks fs len * fs.blockSize)) ↔ Fits fs dev inode offset len := by
  simp only [mem_ext4ReadFile]
  constructor
  · intro inside accepted k reached e seen
    exact inside _ ⟨accepted, k, reached, List.mem_map.mpr ⟨e, seen, rfl⟩⟩
  · intro fits p found
    obtain ⟨accepted, k, reached, put⟩ := found
    obtain ⟨e, seen, rfl⟩ := List.mem_map.mp put
    exact fits accepted k reached e seen

theorem in_blocks (fs : Ext2) (first count x : Nat) : first * fs.blockSize ≤ x ∧ x < (first + count) * fs.blockSize ↔
    first ≤ x / fs.blockSize ∧ x / fs.blockSize < first + count := by
  rw [Nat.le_div_iff_mul_le fs.blockSize_pos, Nat.div_lt_iff_lt_mul fs.blockSize_pos]

theorem Ext4Extent.lenBytes_le (fs : Ext2) (e : Ext4Extent) : e.lenBytes fs ≤ e.len.toNat * fs.blockSize :=
  Nat.mod_le _ _

theorem indices_eq {node : Node} (some_entries : node.header.entries ≠ 0) : node.indices = node.extentIdx ::
    (List.range (node.header.entries.toNat - 1)).map fun i => (node.slot (i + 1)).idx := by
  have positive : 0 < node.header.entries.toNat := UInt16.pos_iff_ne_zero.mpr some_entries
  have count : node.header.entries.toNat = node.header.entries.toNat - 1 + 1 := by omega
  rw [Node.indices, count, List.range_succ_eq_map, List.map_cons, List.map_map]
  rfl

theorem leafOf_extents_subset {k : Nat} (reached : Reached fs dev inode len k)
    (member : e ∈ (leafOf fs dev inode).extents) : e ∈ fileExtents fs dev inode := by
  unfold leafOf at member
  unfold fileExtents
  unfold Reached at reached
  split at reached
  · rename_i flat
    rw [if_pos flat] at member ⊢
    exact member
  · rename_i deep
    have some_entries : inode.blocks.header.entries ≠ 0 := by
      intro none
      rw [none] at reached
      exact absurd reached.1 (Nat.not_lt_zero k)
    rw [if_neg deep] at member ⊢
    rw [indices_eq some_entries, List.flatMap_cons]
    exact List.mem_append_left _ member

theorem maps_of_mem (member : e ∈ fileExtents fs dev inode)
    (inE : e.blockNo.toNat * fs.blockSize ≤ x ∧ x < (e.blockNo.toNat + e.len.toNat) * fs.blockSize) :
    Maps fs dev inode x (e.blkAddr fs + UInt64.ofNat (x - e.blockNo.toNat * fs.blockSize)) :=
  ⟨e, member, inE.1, inE.2, rfl⟩

theorem fileBlocks_pos (some_bytes : len ≠ 0) : 0 < fileBlocks fs len :=
  Nat.div_pos (by omega) fs.blockSize_pos

theorem reached_single {k : Nat} (single : inode.blocks.header.depth = 0 ∨ inode.blocks.header.entries = 1)
    (reached : Reached fs dev inode len k) : k = 0 := by
  unfold Reached at reached
  split at reached
  · exact reached
  · rename_i deep
    rw [single.resolve_left deep] at reached
    exact Nat.lt_one_iff.mp reached.1

variable (formed : WellFormed fs dev inode offset len)
include formed

theorem eq_of_same_byte {e' : Ext4Extent}
    (memE : e ∈ fileExtents fs dev inode) (memE' : e' ∈ fileExtents fs dev inode)
    (inE : e.blockNo.toNat * fs.blockSize ≤ x ∧ x < (e.blockNo.toNat + e.len.toNat) * fs.blockSize)
    (inE' : e'.blockNo.toNat * fs.blockSize ≤ x ∧ x < (e'.blockNo.toNat + e'.len.toNat) * fs.blockSize) : e = e' :=
  formed.tiles.eq_of_meet memE memE' ((in_blocks fs _ _ x).mp inE) ((in_blocks fs _ _ x).mp inE')

variable {addr : UInt64}

theorem source_of_held (mapped : Maps fs dev inode x addr)
    (arrived : Piece.held (ext4ReadFile fs dev inode offset len).1 x = some addr) :
    ∃ k e i, Reached fs dev inode len k ∧ e ∈ (leafOf fs dev inode).extents ∧ i < e.lenBytes fs ∧
      x = k * stride fs dev (leafOf fs dev inode).extents + e.dest fs + i ∧ x = e.blockNo.toNat * fs.blockSize + i := by
  obtain ⟨q, found, cover, same⟩ := Piece.exists_of_held arrived
  obtain ⟨-, k, reached, put⟩ := mem_ext4ReadFile.mp found
  obtain ⟨e, seen, rfl⟩ := List.mem_map.mp put
  have member := mem_of_visited seen
  have short := dev.put_le (e.blkAddr fs) (e.lenBytes fs)
  obtain ⟨low, high⟩ := cover
  simp only [Ext4Extent.piece, Device.piece] at low high same
  refine ⟨k, e, x - (k * stride fs dev (leafOf fs dev inode).extents + e.dest fs), reached, member, by omega, by omega, ?_⟩
  have inExtent := e.lenBytes_le fs
  refine formed.apart _ _ addr mapped ⟨e, leafOf_extents_subset reached member, by omega, ?_, ?_⟩
  · rw [Nat.add_mul]
    omega
  · rw [← same, Nat.add_sub_cancel_left]

theorem entries_ne_zero (deep : inode.blocks.header.depth ≠ 0) :
    inode.blocks.header.entries ≠ 0 := by
  intro none
  have tiles := formed.tiles
  have empty : fileExtents fs dev inode = [] := by
    rw [fileExtents, if_neg deep, Node.indices, none]
    rfl
  rw [empty] at tiles
  exact absurd tiles (Nat.ne_of_lt (fileBlocks_pos formed.accepted.1))

theorem single_of_fills
    (fills : ∀ x addr, Maps fs dev inode x addr → Piece.held (ext4ReadFile fs dev inode offset len).1 x = some addr) :
    inode.blocks.header.depth = 0 ∨ inode.blocks.header.entries = 1 := by
  by_contra several
  obtain ⟨deep, notOne⟩ := not_or.mp several
  have indices := indices_eq (entries_ne_zero formed deep)
  cases later : (List.range (inode.blocks.header.entries.toNat - 1)).map fun i => (inode.blocks.slot (i + 1)).idx with
  | nil =>
    have count := congrArg List.length later
    rw [List.length_map, List.length_range, List.length_nil] at count
    have some_entries := UInt16.pos_iff_ne_zero.mpr (entries_ne_zero formed deep)
    have positive : 0 < inode.blocks.header.entries.toNat := some_entries
    exact notOne (UInt16.toNat_inj.mp (show _ = 1 by omega))
  | cons second more =>
    rw [later] at indices
    have all : fileExtents fs dev inode = (firstLeaf fs dev inode.blocks).extents ++
        ((dev.node (second.blkAddr fs)).extents ++ more.flatMap fun idx => (dev.node (idx.blkAddr fs)).extents) := by
      rw [fileExtents, if_neg deep, indices]
      rfl
    -- The second leaf is not empty, and its first byte is not one of the first leaf.
    have leaf := formed.leaves deep second (by rw [indices]; simp)
    obtain ⟨e, first, -⟩ := Option.map_eq_some_iff.mp leaf.first
    have inLeaf := List.mem_of_head? first
    have member : e ∈ fileExtents fs dev inode := by
      rw [all]
      exact List.mem_append_right _ (List.mem_append_left _ inLeaf)
    have tiles := formed.tiles
    rw [all] at tiles
    obtain ⟨m, front, back⟩ := tiles.split
    have bounds := back.bounds (List.mem_append_left _ inLeaf)
    have positive := Nat.mul_pos bounds.2.1 fs.blockSize_pos
    have mapped := maps_of_mem (x := e.blockNo.toNat * fs.blockSize) member ⟨Nat.le_refl _, by rw [Nat.add_mul]; omega⟩
    obtain ⟨k, e', i, reached, memE', small, place, source⟩ := source_of_held formed mapped (fills _ _ mapped)
    rw [leafOf, if_neg deep] at memE'
    have before := (front.bounds memE').2.2
    have stop := Nat.mul_le_mul_right fs.blockSize (Nat.le_trans before bounds.1)
    have inExtent := e'.lenBytes_le fs
    rw [Nat.add_mul] at stop
    omega

theorem low_of_fills
    (single : inode.blocks.header.depth = 0 ∨ inode.blocks.header.entries = 1)
    (fills : ∀ x addr, Maps fs dev inode x addr → Piece.held (ext4ReadFile fs dev inode offset len).1 x = some addr)
    (member : e ∈ fileExtents fs dev inode) :
    e.blockNo.toNat * fs.blockSize < 2 ^ 32 ∧ e.len.toNat * fs.blockSize < 2 ^ 32 := by
  have positive := Nat.mul_pos (formed.tiles.bounds member).2.1 fs.blockSize_pos
  have last : e.blockNo.toNat * fs.blockSize ≤ (e.blockNo.toNat + e.len.toNat) * fs.blockSize - 1 ∧
      (e.blockNo.toNat + e.len.toNat) * fs.blockSize - 1 < (e.blockNo.toNat + e.len.toNat) * fs.blockSize := by
    rw [Nat.add_mul]
    omega
  have mapped := maps_of_mem member last
  obtain ⟨k, e', i, reached, memE', small, place, source⟩ := source_of_held formed mapped (fills _ _ mapped)
  have inE' : e'.blockNo.toNat * fs.blockSize ≤ (e.blockNo.toNat + e.len.toNat) * fs.blockSize - 1 ∧
      (e.blockNo.toNat + e.len.toNat) * fs.blockSize - 1 < (e'.blockNo.toNat + e'.len.toNat) * fs.blockSize := by
    have inExtent := e'.lenBytes_le fs
    rw [Nat.add_mul e'.blockNo.toNat]
    omega
  have same := eq_of_same_byte formed member (leafOf_extents_subset reached memE') last inE'
  subst same
  rw [reached_single single reached, Nat.zero_mul, Nat.zero_add] at place
  have dest := Nat.mod_lt (e.blockNo.toNat * fs.blockSize) (Nat.two_pow_pos 32)
  have bytes := Nat.mod_lt (e.len.toNat * fs.blockSize) (Nat.two_pow_pos 32)
  rw [Nat.add_mul] at source
  simp only [Ext4Extent.dest, Ext4Extent.lenBytes] at place small
  omega

variable (plain : Plain fs dev inode)
include plain

theorem leafOf_extents :
    (leafOf fs dev inode).extents = fileExtents fs dev inode := by
  rcases plain.single with flat | one
  · rw [leafOf, fileExtents, if_pos flat, if_pos flat]
  · by_cases flat : inode.blocks.header.depth = 0
    · rw [leafOf, fileExtents, if_pos flat, if_pos flat]
    · rw [leafOf, fileExtents, if_neg flat, if_neg flat, indices_eq (entries_ne_zero formed flat), one]
      exact (List.append_nil _).symm

omit formed in
theorem dest_eq (member : e ∈ fileExtents fs dev inode) : e.dest fs = e.blockNo.toNat * fs.blockSize :=
  Nat.mod_eq_of_lt (plain.low e member).1

omit formed in
theorem lenBytes_eq (member : e ∈ fileExtents fs dev inode) :
    e.lenBytes fs = e.len.toNat * fs.blockSize :=
  Nat.mod_eq_of_lt (plain.low e member).2

theorem reads_all :
    ∀ e ∈ fileExtents fs dev inode, e.reads fs dev := by
  intro e member
  have positive := Nat.mul_pos (formed.tiles.bounds member).2.1 fs.blockSize_pos
  rw [Ext4Extent.reads, lenBytes_eq plain member]
  exact formed.readable e member _ positive (Nat.le_refl _)

theorem span_eq :
    span fs (fileExtents fs dev inode) = fileBlocks fs len * fs.blockSize := by
  have dests := fun e member => dest_eq (e := e) plain member
  have lens := fun e member => lenBytes_eq (e := e) plain member
  have tiles := formed.tiles
  generalize fileExtents fs dev inode = es at dests lens tiles
  cases es using List.reverseRecOn with
  | nil =>
    have none : 0 = fileBlocks fs len := tiles
    rw [← none, Nat.zero_mul]
    rfl
  | append_singleton front last =>
    have inLast : last ∈ front ++ [last] := by simp
    simp only [span, List.getLast?_concat]
    rw [dests last inLast, lens last inLast]
    split
    · have total : ((front ++ [last]).map fun e => e.lenBytes fs) =
          (front ++ [last]).map fun e => e.len.toNat * fs.blockSize := List.map_congr_left lens
      have sum := tiles.sum_size
      rw [total, List.sum_map_mul_right, ← sum, Nat.zero_add]
    · rw [← Nat.add_mul, tiles.last]

omit plain formed in
theorem blocksOf_whole (fs : Ext2) (len : Nat) : blocksOf fs (fileBlocks fs len * fs.blockSize) = blocksOf fs len := by
  have whole : (fileBlocks fs len * fs.blockSize + fs.blockSize - 1) / fs.blockSize = fileBlocks fs len := by
    have positive := fs.blockSize_pos
    rw [Nat.add_sub_assoc positive, Nat.mul_comm, Nat.mul_add_div positive, Nat.div_eq_of_lt (by omega), Nat.add_zero]
  rw [blocksOf, whole]
  rfl

omit plain formed in
theorem not_tooMany (fs : Ext2) (len : Nat) : ¬ tooMany fs (fileBlocks fs len * fs.blockSize) len := by
  simp [tooMany, blocksOf_whole]

omit plain in
theorem reached_zero : Reached fs dev inode len 0 := by
  unfold Reached
  split
  · rfl
  · rename_i deep
    have some_entries := entries_ne_zero formed deep
    have leaf := formed.leaves deep inode.blocks.extentIdx (by rw [indices_eq some_entries]; simp)
    exact ⟨UInt16.pos_iff_ne_zero.mpr some_entries, reachedFrom_self.mpr ⟨leaf.readable, formed.memory 0⟩⟩

theorem result_eq :
    (ext4ReadFile fs dev inode offset len).2 = .ok (fileBlocks fs len * fs.blockSize) := by
  have read : ∀ buf, (ext4ReadExtent fs dev (leafOf fs dev inode) buf).2 = .ok (fileBlocks fs len * fs.blockSize) := by
    intro buf
    rw [ext4ReadExtent_result, leafOf_extents formed plain, if_pos (List.all_eq_true.mpr (reads_all formed plain)),
      span_eq formed plain]
  have magic := formed.accepted.2.2.2
  rw [ext4ReadFile_accepts formed.accepted]
  by_cases flat : inode.blocks.header.depth = 0
  · rw [leafOf, if_pos flat] at read
    rw [readData_leaf len magic flat]
    simp only [read, Progress.advance, Nat.zero_add, not_tooMany, Progress.result]
    rfl
  · have one := plain.single.resolve_left flat
    have reached := reached_zero formed
    rw [Reached, if_neg flat] at reached
    rw [leafOf, if_neg flat] at read
    rw [readData_index len magic flat, one]
    rw [show (1 : UInt16).toNat = 0 + 1 from rfl, readLeaves_passes _ reached.2]
    simp only [read, Progress.advance, Nat.zero_add, not_tooMany, readLeaves, Progress.result]
    rfl

theorem held_eq
    (mapped : Maps fs dev inode x addr) : Piece.held (ext4ReadFile fs dev inode offset len).1 x = some addr := by
  have same := leafOf_extents formed plain
  have all := reads_all formed plain
  obtain ⟨e, member, low, high, rfl⟩ := mapped
  have placed : ∀ e ∈ fileExtents fs dev inode, e.piece fs dev (0 * stride fs dev (leafOf fs dev inode).extents) =
      ⟨e.blockNo.toNat * fs.blockSize, e.len.toNat * fs.blockSize, fun i => e.blkAddr fs + UInt64.ofNat i⟩ := by
    intro e member
    rw [Ext4Extent.piece, Device.piece, dev.put_eq _ _ (all e member), dest_eq plain member, lenBytes_eq plain member,
      Nat.zero_mul, Nat.zero_add]
  apply Piece.held_of_agree
  · refine ⟨_, mem_ext4ReadFile.mpr ⟨formed.accepted, 0, reached_zero formed, List.mem_map.mpr ⟨e, ?_, rfl⟩⟩, ?_⟩
    · rw [same, visited_all all]
      exact member
    · rw [placed e member]
      exact ⟨low, by rw [← Nat.add_mul]; exact high⟩
  · intro q found cover
    obtain ⟨-, k, reached, put⟩ := mem_ext4ReadFile.mp found
    obtain ⟨e', seen, rfl⟩ := List.mem_map.mp put
    have member' : e' ∈ fileExtents fs dev inode := same ▸ mem_of_visited seen
    rw [reached_single plain.single reached, placed e' member'] at cover ⊢
    obtain ⟨low', high'⟩ := cover
    rw [← Nat.add_mul] at high'
    rw [eq_of_same_byte formed member member' ⟨low, high⟩ ⟨low', high'⟩]

omit plain formed

/-- `Fits` has the places that extents are read to, `Plain` the shapes of the tree that are read as they are meant. -/
theorem reads_well_iff : ReadsWell fs dev inode offset len ↔
    Fits fs dev inode offset len ∧ (WellFormed fs dev inode offset len → Plain fs dev inode) := by
  constructor
  · intro well
    refine ⟨inside_iff_fits.mp well.inside, fun formed => ?_⟩
    have fills := (well.fills formed).2
    have single := single_of_fills formed fills
    exact ⟨single, fun e member => low_of_fills formed single fills member⟩
  · intro conditions
    obtain ⟨fits, plain⟩ := conditions
    exact ⟨inside_iff_fits.mpr fits, fun formed =>
      ⟨result_eq formed (plain formed), fun x addr mapped => held_eq formed (plain formed) mapped⟩⟩

def leafAt (block : Nat) : Node where
  header := ⟨0xF30A, 1, 84, 0, 0⟩
  slot _ := ⟨UInt32.ofNat (block - 10), 1, UInt32.ofNat (90 + block)⟩

def twoLeaves : Inode where
  mode := 0x81A4
  flags := 0x80000
  blocks := ⟨⟨0xF30A, 2, 4, 1, 0⟩, fun i => ⟨UInt32.ofNat i, UInt32.ofNat (10 + i), 0⟩⟩

def soundDevice (node : UInt64 → Node) : Device where
  reads _ len := 0 < len
  put _ len := len
  node := node
  memalign _ := true
  put_le _ _ := Nat.le_refl _
  put_eq _ _ _ := rfl

def twoLeafDevice : Device := soundDevice fun addr => leafAt (addr.toNat / 1024)

def smallBlocks : Ext2 := ⟨0, 0, by decide⟩

theorem twoLeaves_maps (mapped : Maps smallBlocks twoLeafDevice twoLeaves x addr) :
    x < 2048 ∧ addr.toNat = 102400 + x := by
  obtain ⟨e, member, low, high, rfl⟩ := mapped
  have extents : fileExtents smallBlocks twoLeafDevice twoLeaves = [⟨0, 1, 0, 100⟩, ⟨1, 1, 0, 101⟩] := by decide
  rw [extents] at member
  rcases List.mem_cons.mp member with rfl | member
  · have place : (⟨0, 1, 0, 100⟩ : Ext4Extent).blkAddr smallBlocks = 102400 := by decide
    change x < 1024 at high
    rw [place, UInt64.toNat_add, UInt64.toNat_ofNat', show (102400 : UInt64).toNat = 102400 from rfl]
    change x < 2048 ∧ (102400 + (x - 0) % 2 ^ 64) % 2 ^ 64 = 102400 + x
    omega
  · have place : (⟨1, 1, 0, 101⟩ : Ext4Extent).blkAddr smallBlocks = 103424 := by decide
    rw [List.mem_singleton.mp member] at low high ⊢
    change 1024 ≤ x at low
    change x < 2048 at high
    rw [place, UInt64.toNat_add, UInt64.toNat_ofNat', show (103424 : UInt64).toNat = 103424 from rfl]
    change x < 2048 ∧ (103424 + (x - 1024) % 2 ^ 64) % 2 ^ 64 = 102400 + x
    omega

theorem twoLeaves_wellFormed : WellFormed smallBlocks twoLeafDevice twoLeaves 0 2048 where
  accepted := ⟨by decide, rfl, rfl, rfl⟩
  depth := by decide
  entries := by decide
  leaves := by
    intro deep idx member
    have indices : twoLeaves.blocks.indices = [⟨0, 10, 0, 0⟩, ⟨1, 11, 0, 0⟩] := by decide
    rw [indices] at member
    rcases List.mem_cons.mp member with rfl | member
    · exact ⟨by decide, by decide, by decide, by decide, by decide⟩
    · rw [List.mem_singleton.mp member]
      exact ⟨by decide, by decide, by decide, by decide, by decide⟩
  tiles := by decide
  apart x y addr mappedX mappedY := by
    have placeX := twoLeaves_maps mappedX
    have placeY := twoLeaves_maps mappedY
    omega
  readable e member n positive short := by
    simpa [twoLeafDevice, soundDevice] using positive
  memory i := rfl

/-- The second block of the file is the first one again. -/
theorem second_leaf_is_first : WellFormed smallBlocks twoLeafDevice twoLeaves 0 2048 ∧
    Maps smallBlocks twoLeafDevice twoLeaves 1024 103424 ∧
    Piece.held (ext4ReadFile smallBlocks twoLeafDevice twoLeaves 0 2048).1 1024 = some 102400 ∧
    ¬ ReadsWell smallBlocks twoLeafDevice twoLeaves 0 2048 := by
  have mapped : Maps smallBlocks twoLeafDevice twoLeaves 1024 103424 :=
    ⟨⟨1, 1, 0, 101⟩, by decide, by decide, by decide, by decide⟩
  have arrived : Piece.held (ext4ReadFile smallBlocks twoLeafDevice twoLeaves 0 2048).1 1024 = some 102400 := by
    decide
  refine ⟨twoLeaves_wellFormed, mapped, arrived, fun well => ?_⟩
  have whole := (well.fills twoLeaves_wellFormed).2 1024 103424 mapped
  rw [arrived] at whole
  exact absurd whole (by decide)

end

end Cboot.Ext4
