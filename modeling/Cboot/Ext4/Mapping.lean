import Mathlib.Data.List.Pairwise
import Cboot.Ext4.File
import Cboot.Ext4.Lookup

/-!
What an extent tree of one or two levels says, against `get_extents_blk`.
-/

namespace Cboot.Ext4
open Lib

def Ext4Extent.start (e : Ext4Extent) : Nat := e.startHi.toNat * 2 ^ 32 + e.startLo.toNat
def Ext4Extent.stop (e : Ext4Extent) : Nat := e.blockNo.toNat + e.len.toNat

def Ext4Extent.Covers (e : Ext4Extent) (num : UInt32) : Prop := e.blockNo.toNat ≤ num.toNat ∧ num.toNat < e.stop

def Ext4Extent.physical (e : Ext4Extent) (num : UInt32) : Nat := e.start + (num.toNat - e.blockNo.toNat)

instance (e : Ext4Extent) (num : UInt32) : Decidable (e.Covers num) := inferInstanceAs (Decidable (_ ∧ _))

def Sorted (es : List Ext4Extent) : Prop := es.Pairwise fun a b => a.stop ≤ b.blockNo.toNat

instance (es : List Ext4Extent) : Decidable (Sorted es) := inferInstanceAs (Decidable (es.Pairwise _))

section
variable (fs : Ext2) (dev : Device) (inode : Inode)

def Ext2.blockAddr (blk : Nat) : UInt64 := UInt64.ofNat blk * UInt64.ofNat fs.blockSize + fs.fsOffset

def indexLeaf (idx : Ext4ExtentIdx) : Node := dev.node (idx.blkAddr fs)

def leaves : List (List UInt64 × Node) :=
  if inode.blocks.header.depth = 0 then [([], inode.blocks)]
  else inode.blocks.indices.map fun idx => ([idx.blkAddr fs], indexLeaf fs dev idx)

def Mapped (num : UInt32) (way : List UInt64) (addr : UInt64) : Prop :=
  ∃ leaf ∈ leaves fs dev inode, way = leaf.1 ∧ ∃ e ∈ leaf.2.extents, e.Covers num ∧ addr = fs.blockAddr (e.physical num)

def Resolved (num : UInt32) : Prop :=
  ∃ way addr, Mapped fs dev inode num way addr ∧ ∀ a ∈ way ++ [addr], dev.reads a fs.blockSize

structure Tree : Prop where
  depth : inode.blocks.header.depth ≤ 1
  leaf : ∀ leaf ∈ leaves fs dev inode, leaf.2.header.depth = 0
  sorted : ∀ leaf ∈ leaves fs dev inode, Sorted leaf.2.extents
  from_index : inode.blocks.header.depth ≠ 0 → ∀ idx ∈ inode.blocks.indices, ∀ e ∈ (indexLeaf fs dev idx).extents,
    idx.block.toNat ≤ e.blockNo.toNat
  to_index : inode.blocks.header.depth ≠ 0 → inode.blocks.indices.Pairwise fun a b =>
    ∀ e ∈ (indexLeaf fs dev a).extents, e.stop ≤ b.block.toNat

structure Faithful (num : UInt32) (outcome : List (Piece UInt64) × Except Error Unit) : Prop where
  succeeds : outcome.2 = .ok () ↔ Resolved fs dev inode num
  read : outcome.2 = .ok () → outcome.1 ≠ []
  own : ∀ p ∈ outcome.1, ∃ way addr, Mapped fs dev inode num way addr ∧ p = dev.piece 0 addr fs.blockSize

def Meets (vol : Volume) (call : Nat) (num : UInt32) : Prop :=
  if Looked fs inode vol call then
    Resolved fs vol.toDevice inode num ∧
      ((∃ e ∈ (leafOf fs vol.toDevice inode).extents, e.Covers num ∧ e.stop < 2 ^ 32) ∨
        ∃ way, Mapped fs vol.toDevice inode num way (fs.blockAddr 0))
  else ¬ Resolved fs vol.toDevice inode num

end

section
variable {fs : Ext2} {dev : Device} {vol : Volume} {inode : Inode} {es : List Ext4Extent} {e f : Ext4Extent}
  {num : UInt32} {call : Nat} {way way' : List UInt64} {addr addr' : UInt64}

theorem pairwise_or {α : Type} {R : α → α → Prop} {l : List α} (ordered : l.Pairwise R) {a b : α} (ha : a ∈ l)
    (hb : b ∈ l) : a = b ∨ R a b ∨ R b a := by
  have symm : Std.Symm fun a b => a = b ∨ R a b ∨ R b a := by
    refine ⟨?_⟩
    rintro x y (rfl | xy | yx)
    · exact .inl rfl
    · exact .inr (.inr xy)
    · exact .inr (.inl yx)
  have either : l.Pairwise fun a b => a = b ∨ R a b ∨ R b a := ordered.imp fun xy => .inr (.inl xy)
  exact either.forall_of_forall (fun x _ => .inl rfl) ha hb

theorem Sorted.unique (sorted : Sorted es) (he : e ∈ es) (hf : f ∈ es) (covers : e.Covers num) (covers' : f.Covers num) :
    e = f := by
  obtain ⟨low, high⟩ := covers
  obtain ⟨low', high'⟩ := covers'
  rcases pairwise_or sorted he hf with same | before | behind
  · exact same
  · omega
  · omega

theorem Tree.unique (good : Tree fs dev inode) (mapped : Mapped fs dev inode num way addr)
    (mapped' : Mapped fs dev inode num way' addr') : addr = addr' := by
  obtain ⟨leaf, member, -, e, he, covers, rfl⟩ := mapped
  obtain ⟨leaf', member', -, f, hf, covers', rfl⟩ := mapped'
  have sorted := good.sorted leaf member
  by_cases flat : inode.blocks.header.depth = 0
  · rw [leaves, if_pos flat, List.mem_singleton] at member member'
    rw [member'] at hf
    rw [member] at he sorted
    rw [sorted.unique he hf covers covers']
  · rw [leaves, if_neg flat, List.mem_map] at member member'
    obtain ⟨a, ha, rfl⟩ := member
    obtain ⟨b, hb, rfl⟩ := member'
    have low := good.from_index flat a ha e he
    have low' := good.from_index flat b hb f hf
    rcases pairwise_or (good.to_index flat) ha hb with rfl | before | behind
    · rw [sorted.unique he hf covers covers']
    · have stop := before e he
      exact absurd covers.2 (by have := covers'.1; omega)
    · have stop := behind f hf
      exact absurd covers'.2 (by have := covers.1; omega)

theorem ends_behind (e : Ext4Extent) (num : UInt32) :
    e.blockNo + e.len.toUInt32 > num ↔ num.toNat < e.stop % 2 ^ 32 := by
  rw [GT.gt, UInt32.lt_iff_toNat_lt, UInt32.toNat_add, UInt16.toNat_toUInt32, Ext4Extent.stop]

theorem ends_behind_of_covers (covers : e.Covers num) : num.toNat < e.stop % 2 ^ 32 ↔ e.stop < 2 ^ 32 := by
  have low := covers.1
  have high := covers.2
  have short := e.len.toNat_lt
  have stop : e.stop = e.blockNo.toNat + e.len.toNat := rfl
  have bound := e.blockNo.toNat_lt
  by_cases fits : e.stop < 2 ^ 32
  · rw [Nat.mod_eq_of_lt fits]
    exact ⟨fun _ => fits, fun _ => high⟩
  · have wraps : e.stop % 2 ^ 32 = e.stop - 2 ^ 32 := by omega
    rw [wraps]
    omega

theorem find_covering (sorted : Sorted es) (member : e ∈ es) (covers : e.Covers num) (fits : e.stop < 2 ^ 32) :
    (es.find? fun e => e.blockNo + e.len.toUInt32 > num) = some e := by
  obtain ⟨front, behind, rfl⟩ := List.append_of_mem member
  refine List.find?_eq_some_iff_append.mpr ⟨?_, front, behind, rfl, fun a before => ?_⟩
  · rw [decide_eq_true_eq, ends_behind, ends_behind_of_covers covers]
    exact fits
  · have order := (List.pairwise_append.mp sorted).2.2 a before e List.mem_cons_self
    have low := covers.1
    rw [Bool.not_eq_true', decide_eq_false_iff_not, ends_behind, Nat.not_lt]
    exact Nat.le_trans (Nat.mod_le _ _) (Nat.le_trans order low)

theorem blkNum_covering (covers : e.Covers num) :
    (e.startHi.toUInt64 <<< 32 ||| e.startLo.toUInt64) + (num - e.blockNo).toUInt64 = UInt64.ofNat (e.physical num) := by
  have hi := e.startHi.toNat_lt
  have lo := e.startLo.toNat_lt
  have bound := num.toNat_lt
  have low := covers.1
  have delta : (num - e.blockNo).toNat = num.toNat - e.blockNo.toNat :=
    UInt32.toNat_sub_of_le _ _ (UInt32.le_iff_toNat_le.mpr low)
  have start : (e.startHi.toUInt64 <<< 32 ||| e.startLo.toUInt64).toNat = e.start := by
    have shifted : e.startHi.toNat <<< 32 % 2 ^ 64 = e.startHi.toNat <<< 32 := by
      rw [Nat.shiftLeft_eq]
      exact Nat.mod_eq_of_lt (by omega)
    simp only [UInt64.toNat_or, UInt64.toNat_shiftLeft, UInt16.toNat_toUInt64, UInt32.toNat_toUInt64,
      UInt64.reduceToNat, Nat.reduceMod]
    rw [shifted, ← Nat.shiftLeft_add_eq_or_of_lt lo, Nat.shiftLeft_eq]
    rfl
  have small : e.physical num < 2 ^ 64 := by
    rw [Ext4Extent.physical, Ext4Extent.start]
    omega
  rw [← UInt64.toNat_inj, UInt64.toNat_add, start, UInt32.toNat_toUInt64, delta, UInt64.toNat_ofNat_of_lt' small]
  exact Nat.mod_eq_of_lt small

theorem indices_cons (root : Node) (some_entry : root.indices ≠ []) :
    ∃ rest, root.indices = root.extentIdx :: rest := by
  refine ⟨_, indices_eq fun none => some_entry ?_⟩
  rw [Node.indices, none]
  rfl

theorem leafOf_mem (mapped : Mapped fs dev inode num way addr) :
    ∃ way, (way, leafOf fs dev inode) ∈ leaves fs dev inode := by
  obtain ⟨leaf, member, -⟩ := mapped
  by_cases flat : inode.blocks.header.depth = 0
  · rw [leaves, if_pos flat, leafOf, if_pos flat]
    exact ⟨_, List.mem_cons_self⟩
  · rw [leaves, if_neg flat] at member ⊢
    rw [leafOf, if_neg flat]
    have some_entry : inode.blocks.indices ≠ [] := List.ne_nil_of_mem (List.mem_map.mp member).choose_spec.1
    obtain ⟨rest, first⟩ := indices_cons inode.blocks some_entry
    rw [first]
    exact ⟨_, List.mem_cons_self⟩

theorem Tree.found_covers (good : Tree fs dev inode) (mapped : Mapped fs dev inode num way addr)
    (found : ((leafOf fs dev inode).extents.find? fun e => e.blockNo + e.len.toUInt32 > num) = some f) :
    f.Covers num ∧ f.stop < 2 ^ 32 := by
  have member := List.mem_of_find?_eq_some found
  have behind : num.toNat < f.stop % 2 ^ 32 := by
    have answer := List.find?_some found
    rw [decide_eq_true_eq] at answer
    exact (ends_behind f num).mp answer
  have short : num.toNat < f.stop := Nat.lt_of_lt_of_le behind (Nat.mod_le _ _)
  have starts : f.blockNo.toNat ≤ num.toNat := by
    obtain ⟨leaf, leafMember, -, e, he, covers, -⟩ := mapped
    have sorted := good.sorted leaf leafMember
    have inside := covers.1
    have same_node : leaf.2 = leafOf fs dev inode → f.blockNo.toNat ≤ num.toNat := by
      intro same
      rw [← same] at member found
      rcases pairwise_or sorted he member with rfl | after | before
      · exact inside
      · have fits : e.stop < 2 ^ 32 := Nat.lt_of_le_of_lt after f.blockNo.toNat_lt
        rw [find_covering sorted he covers fits] at found
        cases found
        exact inside
      · omega
    by_cases flat : inode.blocks.header.depth = 0
    · rw [leaves, if_pos flat, List.mem_singleton] at leafMember
      exact same_node (by rw [leafMember, leafOf, if_pos flat])
    · rw [leaves, if_neg flat, List.mem_map] at leafMember
      obtain ⟨idx, hidx, rfl⟩ := leafMember
      obtain ⟨rest, first⟩ := indices_cons inode.blocks (List.ne_nil_of_mem hidx)
      rw [leafOf, if_neg flat] at same_node member
      have order := good.to_index flat
      have low := good.from_index flat idx hidx e he
      rw [first] at hidx order
      rcases List.mem_cons.mp hidx with rfl | later
      · exact same_node rfl
      · have stop := (List.pairwise_cons.mp order).1 idx later f member
        omega
  exact ⟨⟨starts, short⟩, (ends_behind_of_covers ⟨starts, short⟩).mp behind⟩

theorem lookupAddr_some {node : Node} (covers : f.Covers num)
    (found : (node.extents.find? fun e => e.blockNo + e.len.toUInt32 > num) = some f) :
    lookupAddr fs num node = fs.blockAddr (f.physical num) := by
  rw [lookupAddr, blkNum, found, Ext2.blockAddr, ← blkNum_covering covers]

theorem lookupAddr_none {node : Node} (none : (node.extents.find? fun e => e.blockNo + e.len.toUInt32 > num) = none) :
    lookupAddr fs num node = fs.blockAddr 0 := by
  rw [lookupAddr, blkNum, none]
  rfl

theorem piece_inj {a b : UInt64} {len : Nat} (same : dev.piece 0 a len = dev.piece 0 b len) : a = b := by
  have first := congrFun (congrArg Piece.item same) 0
  exact (UInt64.add_left_inj _).mp first

theorem Tree.lookupAddr_iff (good : Tree fs dev inode) (mapped : Mapped fs dev inode num way addr) :
    lookupAddr fs num (leafOf fs dev inode) = addr ↔
      (∃ e ∈ (leafOf fs dev inode).extents, e.Covers num ∧ e.stop < 2 ^ 32) ∨ addr = fs.blockAddr 0 := by
  obtain ⟨here, leafMember⟩ := leafOf_mem mapped
  have by_extent : ∀ e ∈ (leafOf fs dev inode).extents, e.Covers num → fs.blockAddr (e.physical num) = addr :=
    fun e he covers => good.unique ⟨_, leafMember, rfl, e, he, covers, rfl⟩ mapped
  cases found : (leafOf fs dev inode).extents.find? fun e => e.blockNo + e.len.toUInt32 > num with
  | some f =>
    obtain ⟨covers, fits⟩ := good.found_covers mapped found
    have member := List.mem_of_find?_eq_some found
    rw [lookupAddr_some covers found, by_extent f member covers]
    exact ⟨fun _ => .inl ⟨f, member, covers, fits⟩, fun _ => rfl⟩
  | none =>
    rw [lookupAddr_none found]
    constructor
    · intro same
      exact .inr same.symm
    · rintro (⟨e, he, covers, fits⟩ | same)
      · rw [find_covering (good.sorted _ leafMember) he covers fits] at found
        cases found
      · exact same.symm

/-- The code does what the tree says as long as it looks in the right node, at an extent that covers the block. -/
theorem getExtentsBlk_iff (fs : Ext2) (vol : Volume) (inode : Inode) (call : Nat) (num : UInt32)
    (good : Tree fs vol.toDevice inode) :
    Faithful fs vol.toDevice inode num (getExtentsBlk fs vol inode call num) ↔ Meets fs inode vol call num := by
  rw [Meets]
  by_cases looked : Looked fs inode vol call
  · rw [if_pos looked, getExtentsBlk_looked looked]
    constructor
    · intro faithful
      obtain ⟨way, addr, mapped, same⟩ := faithful.own _ List.mem_cons_self
      refine ⟨faithful.succeeds.mp rfl, ?_⟩
      refine ((good.lookupAddr_iff mapped).mp (piece_inj same)).imp_right fun zero => ?_
      rw [zero] at mapped
      exact ⟨way, mapped⟩
    · rintro ⟨resolved, right⟩
      obtain ⟨way, addr, mapped, -⟩ := id resolved
      refine ⟨⟨fun _ => resolved, fun _ => rfl⟩, fun _ => List.cons_ne_nil _ _, fun p member => ⟨way, addr, mapped, ?_⟩⟩
      have same := (good.lookupAddr_iff mapped).mpr
        (right.imp_right fun zero => good.unique mapped zero.choose_spec)
      rw [List.mem_singleton.mp member, same]
  · rw [if_neg looked]
    obtain ⟨e, refused⟩ := getExtentsBlk_refused num looked
    rw [refused]
    constructor
    · intro faithful resolved
      cases faithful.succeeds.mpr resolved
    · intro unresolved
      exact ⟨⟨nofun, fun resolved => absurd resolved unresolved⟩, nofun, nofun⟩

def twoLeafVolume : Volume where
  toDevice := twoLeafDevice
  byte _ := 0
  memory _ := 0
  allocBuf := true
  allocIndex _ := true
  allocEntries _ := true

theorem twoLeaves_tree : Tree smallBlocks twoLeafVolume.toDevice twoLeaves where
  depth := by decide
  leaf := by decide
  sorted := by decide
  from_index _ := by decide
  to_index _ := by decide

theorem twoLeaves_leaves : leaves smallBlocks twoLeafVolume.toDevice twoLeaves =
    [([10240], leafAt 10), ([11264], leafAt 11)] := rfl

theorem twoLeaves_mapped (mapped : Mapped smallBlocks twoLeafVolume.toDevice twoLeaves num way addr) :
    num = 0 ∧ addr = 102400 ∨ num = 1 ∧ addr = 103424 := by
  obtain ⟨leaf, member, -, e, he, ⟨low, high⟩, rfl⟩ := mapped
  have first : (leafAt 10).extents = [⟨0, 1, 0, 100⟩] := by decide
  have second : (leafAt 11).extents = [⟨1, 1, 0, 101⟩] := by decide
  rw [twoLeaves_leaves, List.mem_cons, List.mem_singleton] at member
  rcases member with rfl | rfl
  · rw [first, List.mem_singleton] at he
    subst he
    have zero : num = 0 := UInt32.toNat_inj.mp (Nat.lt_one_iff.mp high)
    subst zero
    exact .inl ⟨rfl, by decide⟩
  · rw [second, List.mem_singleton] at he
    subst he
    have one : num = 1 := UInt32.toNat_inj.mp (Nat.le_antisymm (Nat.le_of_lt_succ high) low)
    subst one
    exact .inr ⟨rfl, by decide⟩

theorem getExtentsBlk_first :
    Faithful smallBlocks twoLeafVolume.toDevice twoLeaves 0 (getExtentsBlk smallBlocks twoLeafVolume twoLeaves 0 0) := by
  refine (getExtentsBlk_iff smallBlocks twoLeafVolume twoLeaves 0 0 twoLeaves_tree).mpr ?_
  have mapped : Mapped smallBlocks twoLeafVolume.toDevice twoLeaves 0 [10240] 102400 :=
    ⟨([10240], leafAt 10), List.mem_cons_self, rfl, ⟨0, 1, 0, 100⟩, by decide, by decide, by decide⟩
  have looked : Looked smallBlocks twoLeaves twoLeafVolume 0 := by decide
  rw [Meets, if_pos looked]
  have reads : ∀ a ∈ ([10240, 102400] : List UInt64), twoLeafVolume.reads a smallBlocks.blockSize = true :=
    List.forall_mem_cons.mpr ⟨by decide, List.forall_mem_singleton.mpr (by decide)⟩
  exact ⟨⟨[10240], 102400, mapped, reads⟩, .inl ⟨⟨0, 1, 0, 100⟩, by decide, by decide, by decide⟩⟩

/-- The second block of the file is in the second leaf, the third one in none: block 0 of the device is read for both. -/
theorem getExtentsBlk_second : Tree smallBlocks twoLeafVolume.toDevice twoLeaves ∧
    (∀ num ∈ [1, 2], getExtentsBlk smallBlocks twoLeafVolume twoLeaves 0 num = ([twoLeafVolume.piece 0 0 1024], .ok ())) ∧
    ∀ num ∈ [1, 2], ¬ Faithful smallBlocks twoLeafVolume.toDevice twoLeaves num
      (getExtentsBlk smallBlocks twoLeafVolume twoLeaves 0 num) := by
  have zero : ∀ num ∈ [1, 2],
      getExtentsBlk smallBlocks twoLeafVolume twoLeaves 0 num = ([twoLeafVolume.piece 0 0 1024], .ok ()) := by
    intro num member
    have looked : Looked smallBlocks twoLeaves twoLeafVolume 0 := by decide
    have addr : ∀ num ∈ [1, 2], lookupAddr smallBlocks num (leafOf smallBlocks twoLeafVolume.toDevice twoLeaves) = 0 :=
      List.forall_mem_cons.mpr ⟨by decide, List.forall_mem_singleton.mpr (by decide)⟩
    rw [getExtentsBlk_looked looked, addr num member]
    rfl
  refine ⟨twoLeaves_tree, zero, fun num member faithful => ?_⟩
  rw [zero num member] at faithful
  obtain ⟨way, addr, mapped, same⟩ := faithful.own _ List.mem_cons_self
  have same : 0 = addr := piece_inj same
  rcases twoLeaves_mapped mapped with ⟨-, place⟩ | ⟨-, place⟩
  all_goals
    rw [place] at same
    exact absurd same (by decide)

end

end Cboot.Ext4
