import Cboot.Ext4.Model

/-!
The leaf of the first index entry is put at one base after another, each a leaf further on.
-/

namespace Cboot.Ext4
open Lib

section
variable (fs : Ext2) (dev : Device)

def Ext4Extent.reads (e : Ext4Extent) : Bool := dev.reads (e.blkAddr fs) (e.lenBytes fs)

/-- What `ext4_read_extent` does with an extent of a node that goes to `buf`. -/
def Ext4Extent.piece (e : Ext4Extent) (buf : Nat) : Piece UInt64 :=
  dev.piece (buf + e.dest fs) (e.blkAddr fs) (e.lenBytes fs)

def visited : List Ext4Extent → List Ext4Extent
  | [] => []
  | e :: es => if e.reads fs dev then e :: visited es else [e]

def span (es : List Ext4Extent) : Nat :=
  match es.getLast? with
  | none => 0
  | some e => if e.dest fs = 0 then (es.map fun e => e.lenBytes fs).sum else e.dest fs + e.lenBytes fs

def stride (es : List Ext4Extent) : Nat := if es.all fun e => e.reads fs dev then span fs es else 0

def pass (node : Node) (k : Nat) : List (Piece UInt64) :=
  (visited fs dev node.extents).map fun e => e.piece fs dev (k * stride fs dev node.extents)

def firstLeaf (root : Node) : Node := dev.node (root.extentIdx.blkAddr fs)

def leafOf (inode : Inode) : Node :=
  if inode.blocks.header.depth = 0 then inode.blocks else firstLeaf fs dev inode.blocks

end

section
variable {fs : Ext2} {dev : Device} {es : List Ext4Extent} {e : Ext4Extent} {buf : Nat}

theorem mem_of_visited (seen : e ∈ visited fs dev es) : e ∈ es := by
  induction es with
  | nil => cases seen
  | cons first rest ih =>
    rw [visited] at seen
    split at seen
    · rcases List.mem_cons.mp seen with rfl | later
      · exact List.mem_cons_self
      · exact List.mem_cons_of_mem _ (ih later)
    · rw [List.mem_singleton.mp seen]
      exact List.mem_cons_self

theorem visited_all (all : ∀ e ∈ es, e.reads fs dev) : visited fs dev es = es := by
  induction es with
  | nil => rfl
  | cons first rest ih =>
    rw [visited, if_pos (all first List.mem_cons_self), ih fun e member => all e (List.mem_cons_of_mem _ member)]

def Cursor.next (fs : Ext2) (buf : Nat) (c : Cursor) (e : Ext4Extent) : Cursor :=
  ⟨buf + e.dest fs, e.lenBytes fs, c.bytesRead + e.lenBytes fs⟩

theorem readExtents_read (c : Cursor) (rest : List Ext4Extent) (read : e.reads fs dev = true) :
    readExtents fs dev buf c (e :: rest) = (e.piece fs dev buf :: (readExtents fs dev buf (c.next fs buf e) rest).1,
      (readExtents fs dev buf (c.next fs buf e) rest).2) := if_pos read

theorem readExtents_refused (c : Cursor) (rest : List Ext4Extent) (refused : ¬ e.reads fs dev = true) :
    readExtents fs dev buf c (e :: rest) = ([e.piece fs dev buf], none) := if_neg refused

theorem readExtents_pieces (fs : Ext2) (dev : Device) (buf : Nat) (c : Cursor) (es : List Ext4Extent) :
    (readExtents fs dev buf c es).1 = (visited fs dev es).map fun e => e.piece fs dev buf := by
  induction es generalizing c with
  | nil => rfl
  | cons first rest ih =>
    by_cases read : first.reads fs dev = true
    · rw [visited, if_pos read, readExtents_read c rest read, List.map_cons, ih]
    · rw [visited, if_neg read, readExtents_refused c rest read, List.map_singleton]

def Cursor.after (fs : Ext2) (buf : Nat) (c : Cursor) (es : List Ext4Extent) : Cursor :=
  es.foldl (Cursor.next fs buf) c

theorem readExtents_last (fs : Ext2) (dev : Device) (buf : Nat) (c : Cursor) (es : List Ext4Extent) : (readExtents fs dev buf c es).2 =
    if es.all fun e => e.reads fs dev then some (c.after fs buf es) else none := by
  induction es generalizing c with
  | nil => rfl
  | cons first rest ih =>
    by_cases read : first.reads fs dev = true
    · rw [readExtents_read c rest read, List.all_cons, read, Bool.true_and, ih]
      rfl
    · rw [readExtents_refused c rest read, List.all_cons, Bool.eq_false_iff.mpr read]
      rfl

theorem after_bytesRead (fs : Ext2) (buf : Nat) (c : Cursor) (es : List Ext4Extent) :
    (c.after fs buf es).bytesRead = c.bytesRead + (es.map fun e => e.lenBytes fs).sum := by
  induction es generalizing c with
  | nil => rfl
  | cons first rest ih =>
    have later := ih (c.next fs buf first)
    simp only [Cursor.after, List.foldl_cons, List.map_cons, List.sum_cons] at later ⊢
    rw [later, Cursor.next, Nat.add_assoc]

theorem total_after (es : List Ext4Extent) : ((⟨buf, 0, 0⟩ : Cursor).after fs buf es).total buf = span fs es := by
  have read := after_bytesRead fs buf ⟨buf, 0, 0⟩ es
  cases es using List.reverseRecOn with
  | nil => simp [Cursor.after, Cursor.total, span]
  | append_singleton front last =>
    have place : ((⟨buf, 0, 0⟩ : Cursor).after fs buf (front ++ [last])).bufPtr = buf + last.dest fs ∧
        ((⟨buf, 0, 0⟩ : Cursor).after fs buf (front ++ [last])).extentLenBytes = last.lenBytes fs := by
      simp [Cursor.after, Cursor.next]
    simp only [Cursor.total, read, place, span, List.getLast?_concat]
    by_cases start : last.dest fs = 0
    · simp [start]
    · rw [if_neg (by omega), if_neg start]
      omega

theorem ext4ReadExtent_pieces (node : Node) : (ext4ReadExtent fs dev node buf).1 =
    (visited fs dev node.extents).map fun e => e.piece fs dev buf := by
  have pieces := readExtents_pieces fs dev buf ⟨buf, 0, 0⟩ node.extents
  have last := readExtents_last fs dev buf ⟨buf, 0, 0⟩ node.extents
  rw [← pieces]
  by_cases all : (node.extents.all fun e => e.reads fs dev) = true
  · rw [if_pos all] at last
    simp only [ext4ReadExtent, last]
  · rw [if_neg all] at last
    simp only [ext4ReadExtent, last]

theorem ext4ReadExtent_result (node : Node) : (ext4ReadExtent fs dev node buf).2 =
    if node.extents.all fun e => e.reads fs dev then .ok (span fs node.extents) else .error .generic := by
  have last := readExtents_last fs dev buf ⟨buf, 0, 0⟩ node.extents
  by_cases all : (node.extents.all fun e => e.reads fs dev) = true
  · rw [if_pos all] at last ⊢
    simp only [ext4ReadExtent, last, total_after]
  · rw [if_neg all] at last ⊢
    simp only [ext4ReadExtent, last]

structure Progress.At (fs : Ext2) (dev : Device) (es : List Ext4Extent) (p : Progress) (place : Nat) : Prop where
  bufPtr : p.bufPtr = place
  total : p.totalBytesRead = place
  stale : (es.all fun e => e.reads fs dev) = false → p.bytesRead = 0

variable {node : Node} {p : Progress} {place i k n len : Nat} {inode : Inode} {offset : UInt64} {q : Piece UInt64}

theorem Progress.at_advance (here : p.At fs dev node.extents place) :
    (p.advance (ext4ReadExtent fs dev node p.bufPtr).2).At fs dev node.extents
      (place + stride fs dev node.extents) := by
  obtain ⟨buf, total, stale⟩ := here
  rw [ext4ReadExtent_result]
  by_cases all : (node.extents.all fun e => e.reads fs dev) = true
  · rw [if_pos all, stride, if_pos all]
    refine ⟨?_, ?_, fun failed => absurd all (Bool.eq_false_iff.mp failed)⟩
    · simp only [Progress.advance, buf]
    · simp only [Progress.advance, total]
  · have nothing := stale (Bool.eq_false_iff.mpr all)
    rw [if_neg all, stride, if_neg all]
    refine ⟨?_, ?_, fun _ => nothing⟩
    · simp only [Progress.advance, buf, nothing]
    · simp only [Progress.advance, total, nothing]

/-- Pass `k` is made after pass `i` is begun. -/
def ReachedFrom (fs : Ext2) (dev : Device) (root : Node) (len i k : Nat) : Prop :=
  dev.reads (root.extentIdx.blkAddr fs) fs.blockSize ∧ (∀ j, i ≤ j → j ≤ k → dev.memalign j) ∧
    ∀ j, i ≤ j → j < k → ¬ tooMany fs ((j + 1) * stride fs dev (firstLeaf fs dev root).extents) len

theorem reachedFrom_self {root : Node} : ReachedFrom fs dev root len i i ↔
    dev.reads (root.extentIdx.blkAddr fs) fs.blockSize ∧ dev.memalign i := by
  constructor
  · intro reached
    exact ⟨reached.1, reached.2.1 i (Nat.le_refl i) (Nat.le_refl i)⟩
  · intro reached
    obtain ⟨leaf, memory⟩ := reached
    exact ⟨leaf, fun j low high => Nat.le_antisymm low high ▸ memory, fun j low high => by omega⟩

theorem reachedFrom_succ {root : Node} (later : i < k) : ReachedFrom fs dev root len i k ↔
    ReachedFrom fs dev root len i i ∧ ¬ tooMany fs ((i + 1) * stride fs dev (firstLeaf fs dev root).extents) len ∧
      ReachedFrom fs dev root len (i + 1) k := by
  constructor
  · intro reached
    obtain ⟨leaf, memory, few⟩ := reached
    exact ⟨reachedFrom_self.mpr ⟨leaf, memory i (Nat.le_refl i) (Nat.le_of_lt later)⟩, few i (Nat.le_refl i) later,
      leaf, fun j low => memory j (Nat.le_of_succ_le low), fun j low => few j (Nat.le_of_succ_le low)⟩
  · intro parts
    obtain ⟨now, fewNow, leaf, memory, few⟩ := parts
    refine ⟨leaf, fun j low high => ?_, fun j low high => ?_⟩
    · rcases Nat.eq_or_lt_of_le low with rfl | above
      · exact (reachedFrom_self.mp now).2
      · exact memory j above high
    · rcases Nat.eq_or_lt_of_le low with rfl | above
      · exact fewNow
      · exact few j above high

theorem readLeaves_stops (root : Node) (stopped : ¬ ReachedFrom fs dev root len i i) :
    (readLeaves fs dev root len (n + 1) i p).1 = [] := by
  rw [reachedFrom_self, Classical.not_and_iff_not_or_not] at stopped
  simp only [readLeaves]
  by_cases memory : dev.memalign i = true
  · have unread := stopped.resolve_right (not_not_intro memory)
    simp [memory, unread]
  · simp [memory]

theorem readLeaves_passes (root : Node) (reached : ReachedFrom fs dev root len i i) :
    readLeaves fs dev root len (n + 1) i p = let read := ext4ReadExtent fs dev (firstLeaf fs dev root) p.bufPtr
      if tooMany fs (p.advance read.2).totalBytesRead len then (read.1, .error .notValid)
      else (read.1 ++ (readLeaves fs dev root len n (i + 1) (p.advance read.2)).1,
        (readLeaves fs dev root len n (i + 1) (p.advance read.2)).2) := by
  obtain ⟨leaf, memory⟩ := reachedFrom_self.mp reached
  rw [readLeaves, if_neg (not_not_intro memory), if_neg (not_not_intro leaf)]
  rfl

theorem mem_readLeaves (root : Node) (here : p.At fs dev (firstLeaf fs dev root).extents
    (i * stride fs dev (firstLeaf fs dev root).extents)) : q ∈ (readLeaves fs dev root len n i p).1 ↔
      ∃ k, i ≤ k ∧ k < i + n ∧ ReachedFrom fs dev root len i k ∧ q ∈ pass fs dev (firstLeaf fs dev root) k := by
  induction n generalizing i p with
  | zero =>
    simp only [readLeaves, List.not_mem_nil, false_iff, Nat.add_zero]
    intro found
    obtain ⟨k, low, high, -⟩ := found
    omega
  | succ n ih =>
    have next := Progress.at_advance here
    rw [← Nat.succ_mul] at next
    have now : (ext4ReadExtent fs dev (firstLeaf fs dev root) p.bufPtr).1 = pass fs dev (firstLeaf fs dev root) i := by
      rw [ext4ReadExtent_pieces, here.bufPtr]
      rfl
    by_cases reached : ReachedFrom fs dev root len i i
    · rw [readLeaves_passes root reached]
      simp only [next.total, now]
      constructor
      · intro found
        split at found
        · exact ⟨i, Nat.le_refl i, by omega, reached, found⟩
        · rename_i few
          rcases List.mem_append.mp found with first | rest
          · exact ⟨i, Nat.le_refl i, by omega, reached, first⟩
          · obtain ⟨k, low, high, reachedK, put⟩ := (ih next).mp rest
            exact ⟨k, Nat.le_of_succ_le low, by omega, (reachedFrom_succ low).mpr ⟨reached, few, reachedK⟩, put⟩
      · intro found
        obtain ⟨k, low, high, reachedK, put⟩ := found
        rcases Nat.eq_or_lt_of_le low with rfl | above
        · split
          · exact put
          · exact List.mem_append_left _ put
        · obtain ⟨-, few, later⟩ := (reachedFrom_succ above).mp reachedK
          rw [if_neg few]
          exact List.mem_append_right _ ((ih next).mpr ⟨k, above, by omega, later, put⟩)
    · rw [readLeaves_stops root reached]
      constructor
      · intro found
        cases found
      · intro found
        obtain ⟨k, low, high, reachedK, -⟩ := found
        rcases Nat.eq_or_lt_of_le low with rfl | above
        · exact absurd reachedK reached
        · exact absurd ((reachedFrom_succ above).mp reachedK).1 reached

def Accepted (inode : Inode) (offset : UInt64) (len : Nat) : Prop :=
  len ≠ 0 ∧ offset = 0 ∧ sIsReg inode.mode ∧ validateExtentsMagic inode.blocks.header

/-- A node of extents has one pass; for index entries there is one each, as long as memory and the leaf's block are
to be had and the bytes so far are not too many. -/
def Reached (fs : Ext2) (dev : Device) (inode : Inode) (len k : Nat) : Prop :=
  if inode.blocks.header.depth = 0 then k = 0
  else k < inode.blocks.header.entries.toNat ∧ ReachedFrom fs dev inode.blocks len 0 k

theorem start_at (fs : Ext2) (dev : Device) (es : List Ext4Extent) :
    (⟨0, 0, 0, none⟩ : Progress).At fs dev es (0 * stride fs dev es) := by
  rw [Nat.zero_mul]
  exact ⟨rfl, rfl, fun _ => rfl⟩

theorem ext4ReadFile_refuses (refused : ¬ Accepted inode offset len) :
    (ext4ReadFile fs dev inode offset len).1 = [] := by
  simp only [Accepted, not_and] at refused
  unfold ext4ReadFile
  split
  · rfl
  · split
    · rfl
    · split
      · rfl
      · rename_i some_bytes start regular
        have magic := refused some_bytes (not_not.mp start) (not_not.mp regular)
        rw [ext4ReadDataFromExtent, if_pos magic]

theorem ext4ReadFile_accepts (accepted : Accepted inode offset len) :
    ext4ReadFile fs dev inode offset len = ext4ReadDataFromExtent fs dev inode len := by
  obtain ⟨some_bytes, start, regular, -⟩ := accepted
  rw [ext4ReadFile, if_neg some_bytes, if_neg (not_not_intro start), if_neg (not_not_intro regular)]

theorem readData_leaf (len : Nat) (magic : validateExtentsMagic inode.blocks.header)
    (flat : inode.blocks.header.depth = 0) : ext4ReadDataFromExtent fs dev inode len =
      let read := ext4ReadExtent fs dev inode.blocks 0
      let p := Progress.advance ⟨0, 0, 0, none⟩ read.2
      if tooMany fs p.totalBytesRead len then (read.1, .error .notValid) else (read.1, p.result) := by
  rw [ext4ReadDataFromExtent, if_neg (not_not_intro magic), if_neg (by rw [flat]; decide)]

theorem readData_index (len : Nat) (magic : validateExtentsMagic inode.blocks.header)
    (deep : inode.blocks.header.depth ≠ 0) : ext4ReadDataFromExtent fs dev inode len =
      readLeaves fs dev inode.blocks len inode.blocks.header.entries.toNat 0 ⟨0, 0, 0, none⟩ := by
  have positive : inode.blocks.header.depth > 0 := UInt16.pos_iff_ne_zero.mpr deep
  rw [ext4ReadDataFromExtent, if_neg (not_not_intro magic), if_pos positive]

theorem mem_readData (magic : validateExtentsMagic inode.blocks.header) :
    q ∈ (ext4ReadDataFromExtent fs dev inode len).1 ↔
      ∃ k, Reached fs dev inode len k ∧ q ∈ pass fs dev (leafOf fs dev inode) k := by
  by_cases flat : inode.blocks.header.depth = 0
  · have only : (ext4ReadDataFromExtent fs dev inode len).1 = pass fs dev inode.blocks 0 := by
      rw [readData_leaf len magic flat, pass, Nat.zero_mul, ← ext4ReadExtent_pieces]
      dsimp only
      split <;> rfl
    simp [only, Reached, leafOf, flat]
  · rw [readData_index len magic flat, mem_readLeaves _ (start_at fs dev _)]
    simp [Reached, leafOf, flat, and_assoc]

theorem mem_ext4ReadFile : q ∈ (ext4ReadFile fs dev inode offset len).1 ↔ Accepted inode offset len ∧
    ∃ k, Reached fs dev inode len k ∧ q ∈ pass fs dev (leafOf fs dev inode) k := by
  by_cases accepted : Accepted inode offset len
  · rw [ext4ReadFile_accepts accepted, mem_readData accepted.2.2.2]
    simp [accepted]
  · simp [ext4ReadFile_refuses accepted, accepted]

end

end Cboot.Ext4
