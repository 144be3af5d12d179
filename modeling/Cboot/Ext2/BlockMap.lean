import Cboot.Lib.ByteMemory

/-!
The block map of `lib/fs/ext2/io.c`. A number has 32 bits on the device, but the tables of tables are read as if it had 64.
-/

namespace Cboot.Ext2
open Lib

/-- The numbers of the inode with what is behind them, and what `ext2_get_block` finds from the start of a block on. -/
structure Volume where
  blockSize : UInt32
  e2diBlocks : Nat → UInt32
  getBlock : UInt32 → Option Mem

def addrPerBlock (v : Volume) : UInt32 := v.blockSize / 4

/-- `pos` as far as the level, and nothing for a block that is too big. -/
def calculateBlockPointerPos (v : Volume) (blockToFind : Nat) : Option (List Nat) :=
  let per := addrPerBlock v
  let single := blockToFind - 12
  let double := single - per.toNat
  let triple := double - (per * per).toNat
  if blockToFind < 12 then some [blockToFind]
  else if single < per.toNat then some [12, single]
  else if double < (per * per).toNat then some [13, double / per.toNat, double % per.toNat]
  else if triple < (per * per * per).toNat then
    some [14, triple / (per * per).toNat, triple % (per * per).toNat / per.toNat, triple % (per * per).toNat % per.toNat]
  else none

def entry (table : Mem) (k : Nat) : UInt32 := .ofNat (readLE table (4 * k) 4)

def Volume.table (v : Volume) (currentBlock : UInt32) : Option Mem :=
  if currentBlock = 0 then none else v.getBlock currentBlock

/-- The loop from `current_block` on: the last table, and the place in it. -/
def getIndirectBlockPointerCacheBlock (v : Volume) (currentBlock : UInt32) : List Nat → Option (Mem × Nat)
  | [] => none
  | [pos] => (v.table currentBlock).map fun block => (block, pos)
  | pos :: next :: more => (v.table currentBlock).bind fun block =>
    getIndirectBlockPointerCacheBlock v (UInt64.ofNat (readLE block (8 * pos) 8)).toUInt32 (next :: more)

/-- A block that is too big leaves `level` at 0. -/
def fileBlockToFsBlock (v : Volume) (fileblock : UInt32) : UInt32 :=
  match calculateBlockPointerPos v fileblock.toNat with
  | some (first :: pos :: more) =>
    match getIndirectBlockPointerCacheBlock v (v.e2diBlocks first) (pos :: more) with
    | none => 0
    | some (indTable, last) => entry indTable last
  | _ => v.e2diBlocks fileblock.toNat

/-- Where the format has a block of the file, with `p` numbers to a block. -/
def path (p n : Nat) : List Nat :=
  if n < 12 then [n]
  else if n < 12 + p then [12, n - 12]
  else if n < 12 + p + p ^ 2 then [13, (n - 12 - p) / p, (n - 12 - p) % p]
  else [14, (n - 12 - p - p ^ 2) / p ^ 2, (n - 12 - p - p ^ 2) / p % p, (n - 12 - p - p ^ 2) % p]

/-- The number behind a path. In tables of tables only every `stride`-th number counts. -/
def Volume.follow (v : Volume) (stride : Nat) (block : UInt32) : List Nat → UInt32
  | [] => block
  | pos :: more =>
    match v.table block with
    | none => 0
    | some table => v.follow stride (entry table (if more = [] then pos else stride * pos)) more

def Volume.mapped (v : Volume) (stride n : Nat) : UInt32 :=
  let places := path (addrPerBlock v).toNat n
  v.follow stride (v.e2diBlocks (places.headD 0)) places.tail

section
variable {v : Volume}

theorem entry_long (m : Mem) (k : Nat) : (UInt64.ofNat (readLE m (8 * k) 8)).toUInt32 = entry m (2 * k) := by
  rw [entry, show 4 * (2 * k) = 8 * k by omega, ← UInt32.toNat_inj]
  generalize 8 * k = a
  have := (m a).toNat_lt
  have := (m (a + 1)).toNat_lt
  have := (m (a + 2)).toNat_lt
  have := (m (a + 3)).toNat_lt
  simp only [UInt64.toNat_toUInt32, UInt64.toNat_ofNat', UInt32.toNat_ofNat', readLE]
  omega

theorem indirect_eq (block : UInt32) (pos : Nat) (more : List Nat) :
    (match getIndirectBlockPointerCacheBlock v block (pos :: more) with
      | none => 0
      | some (table, last) => entry table last) = v.follow 2 block (pos :: more) := by
  induction more generalizing block pos with
  | nil => cases found : v.table block <;> simp [getIndirectBlockPointerCacheBlock, Volume.follow, found]
  | cons next more ih =>
    unfold getIndirectBlockPointerCacheBlock
    cases found : v.table block with
    | none => simp [Volume.follow, found]
    | some table =>
      rw [Option.bind_some, entry_long, ih]
      simp [Volume.follow, found]

theorem calculate_path (n : Nat) (some_places : 0 < (addrPerBlock v).toNat)
    (small : (addrPerBlock v).toNat ^ 3 < 2 ^ 32) : let p := (addrPerBlock v).toNat
    calculateBlockPointerPos v n = if n < 12 + p + p ^ 2 + p ^ 3 then some (path p n) else none := by
  unfold calculateBlockPointerPos path
  generalize addrPerBlock v = per at *
  have square : (per * per).toNat = per.toNat ^ 2 := by
    rw [UInt32.toNat_mul, ← Nat.pow_two]
    exact Nat.mod_eq_of_lt (lt_of_le_of_lt (Nat.pow_le_pow_right some_places (by decide)) small)
  have cube : (per * per * per).toNat = per.toNat ^ 3 := by
    rw [UInt32.toNat_mul, square, ← Nat.pow_succ]
    exact Nat.mod_eq_of_lt small
  dsimp only
  rw [square, cube]
  generalize per.toNat = p at *
  have middle : ∀ m, m % p ^ 2 / p = m / p % p := fun m => by rw [Nat.pow_two, Nat.mod_mul_right_div_self]
  have last : ∀ m, m % p ^ 2 % p = m % p := fun m => Nat.mod_mod_of_dvd m (Dvd.intro_left p (Nat.pow_two p).symm)
  rw [middle, last]
  split_ifs <;> first | rfl | omega

theorem follow_same (stride : Nat) {block : UInt32} {places : List Nat} (zero : ∀ d ∈ places.dropLast, d = 0) :
    v.follow stride block places = v.follow 1 block places := by
  induction places generalizing block with
  | nil => rfl
  | cons pos more ih =>
    unfold Volume.follow
    cases v.table block with
    | none => rfl
    | some table =>
      cases more with
      | nil => rfl
      | cons next more =>
        obtain ⟨rfl, others⟩ := List.forall_mem_cons.mp zero
        simpa using ih others

theorem upper_of_early {p n : Nat} (early : n < 12 + 2 * p ∨ 12 + p + p ^ 2 ≤ n ∧ n < 12 + 2 * p + p ^ 2) :
    ∀ d ∈ (path p n).tail.dropLast, d = 0 := by
  have square : p ≤ p ^ 2 := Nat.le_pow (by decide)
  unfold path
  split_ifs
  · simp
  · simp
  · have inner : (n - 12 - p) / p = 0 := Nat.div_eq_of_lt (by omega)
    simp [inner]
  · have inner : n - 12 - p - p ^ 2 < p := by omega
    simp [Nat.div_eq_of_lt inner, Nat.div_eq_of_lt (inner.trans_le square)]

/-- A table of tables is entered at twice the place. So a file is mapped as the format says up to its block `12 + 2 * p`,
and in the `p` blocks that come first below the last number of the inode. -/
theorem file_block_mapped (v : Volume) (n : UInt32) (some_places : 0 < (addrPerBlock v).toNat)
    (small : (addrPerBlock v).toNat ^ 3 < 2 ^ 32) : let p := (addrPerBlock v).toNat
    fileBlockToFsBlock v n = (if n.toNat < 12 + p + p ^ 2 + p ^ 3 then v.mapped 2 n.toNat else v.e2diBlocks n.toNat) ∧
      (n.toNat < 12 + 2 * p ∨ 12 + p + p ^ 2 ≤ n.toNat ∧ n.toNat < 12 + 2 * p + p ^ 2 →
        v.mapped 2 n.toNat = v.mapped 1 n.toNat) := by
  intro p
  have found := calculate_path n.toNat some_places small
  constructor
  · unfold fileBlockToFsBlock Volume.mapped
    rw [found]
    by_cases within : n.toNat < 12 + p + p ^ 2 + p ^ 3
    · rw [if_pos within, if_pos within]
      unfold path
      split_ifs
      · rfl
      all_goals exact indirect_eq _ _ _
    · rw [if_neg within, if_neg within]
  · exact fun early => follow_same 2 (upper_of_early early)

end

/-- In the table at block `b` the `k`-th number is `b + k`. -/
def countingVolume : Volume where
  blockSize := 4096
  e2diBlocks _ := 1
  getBlock block := some fun x => if x % 4 = 0 then .ofNat (block.toNat + x / 4) else 0

theorem file_block_mapped_large :
    fileBlockToFsBlock countingVolume 2060 = 3 ∧ countingVolume.mapped 1 2060 = 2 :=
  ⟨(file_block_mapped countingVolume 2060 (by decide) (by decide)).1.trans (by decide), by decide⟩

end Cboot.Ext2
