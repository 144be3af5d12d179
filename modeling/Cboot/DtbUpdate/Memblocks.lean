import Cboot.Lib.BitField

/-!
`tegrabl_get_memblk_info_array`. The blocks of memory that the platform reports are cut to whole units of 2 MB before the
kernel gets them.
-/

namespace Cboot.DtbUpdate.Memblocks
open Lib.Align

structure Memblock where
  base : UInt64
  size : UInt64
  deriving DecidableEq, Repr

def maxMemChunks : Nat := 20

def roundUpPow2 (n w : UInt64) : UInt64 := ((n - 1) &&& ~~~(w - 1)) + w

def shrink (memblock : Memblock) : Option Memblock :=
  let tmp := roundUpPow2 memblock.base 0x200000
  if tmp ≥ memblock.base + memblock.size then none
  else
    let size := (memblock.size - (tmp - memblock.base)) &&& ~~~0x1FFFFF
    if size > 0 then some ⟨tmp, size⟩ else none

/-- `memblock_info_array` and `blk_info_array_cnt`. -/
structure MemblkInfo where
  infoArray : List Memblock
  cnt : Nat
  deriving DecidableEq, Repr

section
variable (getInfo : Nat → Option Memblock)

/-- The loop, with the number of turns that are left. -/
def collect : Nat → Nat → MemblkInfo → MemblkInfo
  | 0, _, s => s
  | turns + 1, idx, s =>
    match getInfo idx with
    | none => s
    | some memblock =>
      if memblock.size = 0 ∨ s.cnt ≥ maxMemChunks then s
      else
        match shrink memblock with
        | none => collect turns (idx + 1) s
        | some memblock => collect turns (idx + 1) ⟨s.infoArray.set s.cnt memblock, s.cnt + 1⟩

def tegrablGetMemblkInfoArray (s : MemblkInfo) : MemblkInfo :=
  if s.cnt > 0 then s else collect getInfo maxMemChunks 0 s

def MemblkInfo.blkArr (s : MemblkInfo) : List Memblock := s.infoArray.take s.cnt

def reportedFrom : Nat → Nat → List Memblock
  | 0, _ => []
  | turns + 1, idx =>
    match getInfo idx with
    | none => []
    | some memblock => if memblock.size = 0 then [] else memblock :: reportedFrom turns (idx + 1)

def reported : List Memblock := reportedFrom getInfo maxMemChunks 0

end

def unit : Nat := 0x200000

def Within (base size : Nat) (m : Memblock) : Prop :=
  m.base.toNat ≤ base ∧ base + size ≤ m.base.toNat + m.size.toNat

def Aligned (base size : Nat) : Prop := base % unit = 0 ∧ size % unit = 0

def HasUnit (m : Memblock) : Prop := ∃ base, base % unit = 0 ∧ Within base unit m

structure Largest (m b : Memblock) : Prop where
  some : 0 < b.size.toNat
  aligned : Aligned b.base.toNat b.size.toNat
  within : Within b.base.toNat b.size.toNat m
  all : ∀ base size, 0 < size → Aligned base size → Within base size m → Within base size b

def Shrunk (m : Memblock) : Option Memblock → Prop
  | some b => HasUnit m ∧ Largest m b
  | none => ¬ HasUnit m

def Disjoint (m m' : Memblock) : Prop :=
  m.base.toNat + m.size.toNat ≤ m'.base.toNat ∨ m'.base.toNat + m'.size.toNat ≤ m.base.toNat

section
variable {m b : Memblock}

theorem toNat_roundUp {n : UInt64} (small : n.toNat < 2 ^ 63) : (roundUpPow2 n 0x200000).toNat =
    if n.toNat = 0 then 0 else (n.toNat - 1) - (n.toNat - 1) % unit + unit := by
  have cleared : ((n - 1) &&& ~~~(0x200000 - 1)).toNat = (n - 1).toNat - (n - 1).toNat % 2 ^ 21 := toNat_clear (n - 1) _ rfl
  have sum : (roundUpPow2 n 0x200000).toNat = ((n - 1).toNat - (n - 1).toNat % 2 ^ 21 + 0x200000) % 2 ^ 64 := by
    rw [← cleared]
    exact UInt64.toNat_add _ _
  by_cases zero : n.toNat = 0
  · have none : n = 0 := UInt64.toNat_inj.mp zero
    rw [if_pos zero, none]
    decide
  · have before : (n - 1).toNat = n.toNat - 1 := by
      have one : (1 : UInt64) ≤ n := by
        rw [UInt64.le_iff_toNat_le]
        exact Nat.one_le_iff_ne_zero.mpr zero
      rw [UInt64.toNat_sub_of_le _ _ one]
      rfl
    rw [if_neg zero, sum, before, unit]
    omega

theorem roundUp_spec {n : UInt64} (small : n.toNat < 2 ^ 63) : n.toNat ≤ (roundUpPow2 n 0x200000).toNat ∧
    (roundUpPow2 n 0x200000).toNat < n.toNat + unit ∧ (roundUpPow2 n 0x200000).toNat % unit = 0 := by
  rw [toNat_roundUp small]
  unfold unit
  by_cases zero : n.toNat = 0
  · rw [if_pos zero]
    omega
  · rw [if_neg zero]
    omega

theorem shrink_shrunk (small : m.base.toNat + m.size.toNat < 2 ^ 63) : Shrunk m (shrink m) := by
  obtain ⟨above, near, whole⟩ := roundUp_spec (Nat.lt_of_le_of_lt (Nat.le_add_right _ _) small)
  unfold shrink
  generalize roundUpPow2 m.base 0x200000 = tmp at *
  have last : (m.base + m.size).toNat = m.base.toNat + m.size.toNat := by
    rw [UInt64.toNat_add]
    exact Nat.mod_eq_of_lt (by omega)
  by_cases outside : tmp ≥ m.base + m.size
  · have beyond : m.base.toNat + m.size.toNat ≤ tmp.toNat := last ▸ outside
    simp only [if_pos outside]
    rintro ⟨base, aligned, low, high⟩
    unfold unit at *
    omega
  · have inside : tmp.toNat < m.base.toNat + m.size.toNat := last ▸ UInt64.not_le.mp outside
    have gap : (tmp - m.base).toNat = tmp.toNat - m.base.toNat := UInt64.toNat_sub_of_le _ _ above
    have fits : tmp - m.base ≤ m.size := by
      rw [UInt64.le_iff_toNat_le, gap]
      omega
    have left : ((m.size - (tmp - m.base)) &&& ~~~0x1FFFFF).toNat =
        m.size.toNat - (tmp.toNat - m.base.toNat) - (m.size.toNat - (tmp.toNat - m.base.toNat)) % 2 ^ 21 := by
      rw [← gap, ← UInt64.toNat_sub_of_le _ _ fits]
      exact toNat_clear _ _ rfl
    simp only [if_neg outside]
    generalize (m.size - (tmp - m.base)) &&& ~~~0x1FFFFF = size at *
    by_cases some : size > 0
    · have some' : 0 < size.toNat := some
      rw [if_pos some]
      refine ⟨⟨tmp.toNat, whole, above, ?_⟩, some', ⟨whole, ?_⟩, ⟨above, ?_⟩, ?_⟩
      · unfold unit at *
        omega
      · unfold unit at *
        simp only
        omega
      · simp only
        omega
      · rintro base length more ⟨aligned, units⟩ ⟨low, high⟩
        refine ⟨?_, ?_⟩
        · unfold unit at *
          simp only
          omega
        · unfold unit at *
          simp only
          omega
    · have none : size.toNat = 0 := Nat.eq_zero_of_not_pos some
      rw [if_neg some]
      rintro ⟨base, aligned, low, high⟩
      unfold unit at *
      omega

theorem take_set (info : List Memblock) {cnt : Nat} (inside : cnt < info.length) (m : Memblock) :
    (info.set cnt m).take (cnt + 1) = info.take cnt ++ [m] := by
  rw [List.take_add_one, List.take_set_of_le (Nat.le_refl cnt), List.getElem?_set_self inside]
  rfl

variable (getInfo : Nat → Option Memblock)

theorem collect_spec {turns idx : Nat} {s : MemblkInfo} (last : idx + turns = maxMemChunks)
    (fewer : s.cnt ≤ idx) (size : s.infoArray.length = maxMemChunks) :
    (collect getInfo turns idx s).blkArr = s.blkArr ++ (reportedFrom getInfo turns idx).filterMap shrink ∧
      (collect getInfo turns idx s).infoArray.length = maxMemChunks ∧
      (collect getInfo turns idx s).cnt = s.cnt + ((reportedFrom getInfo turns idx).filterMap shrink).length := by
  induction turns generalizing idx s with
  | zero => simp [collect, reportedFrom, size]
  | succ turns ih =>
    rw [collect, reportedFrom]
    cases info : getInfo idx with
    | none => simp [size]
    | some memblock =>
      simp only
      by_cases empty : memblock.size = 0
      · simp [empty, size]
      · have room : ¬ (memblock.size = 0 ∨ s.cnt ≥ maxMemChunks) := by
          rintro (none | full)
          · exact empty none
          · omega
        rw [if_neg room, if_neg empty, List.filterMap_cons]
        cases cutTo : shrink memblock with
        | none => exact ih (by omega) (by omega) size
        | some b =>
          have inside : s.cnt < s.infoArray.length := by omega
          have next : idx + 1 + turns = maxMemChunks := by omega
          obtain ⟨blocks, length, count⟩ := ih (s := ⟨s.infoArray.set s.cnt b, s.cnt + 1⟩) next
            (Nat.succ_le_succ fewer) (by rw [List.length_set, size])
          simp only at count
          refine ⟨?_, length, ?_⟩
          · rw [blocks, MemblkInfo.blkArr, take_set s.infoArray inside b, List.append_assoc]
            rfl
          · rw [count, List.length_cons]
            omega

theorem first_call {info : List Memblock} (size : info.length = maxMemChunks) :
    (tegrablGetMemblkInfoArray getInfo ⟨info, 0⟩).blkArr = (reported getInfo).filterMap shrink ∧
      (tegrablGetMemblkInfoArray getInfo ⟨info, 0⟩).infoArray.length = maxMemChunks ∧
      (tegrablGetMemblkInfoArray getInfo ⟨info, 0⟩).cnt = ((reported getInfo).filterMap shrink).length := by
  obtain ⟨blocks, length, count⟩ := collect_spec getInfo (s := ⟨info, 0⟩) (Nat.zero_add maxMemChunks) (Nat.le_refl 0) size
  exact ⟨blocks, length, count.trans (Nat.zero_add _)⟩

theorem second_call {info : List Memblock} (size : info.length = maxMemChunks) :
    (tegrablGetMemblkInfoArray getInfo (tegrablGetMemblkInfoArray getInfo ⟨info, 0⟩)).blkArr =
      (tegrablGetMemblkInfoArray getInfo ⟨info, 0⟩).blkArr := by
  obtain ⟨blocks, length, count⟩ := first_call getInfo size
  generalize tegrablGetMemblkInfoArray getInfo ⟨info, 0⟩ = s at *
  by_cases cached : s.cnt > 0
  · rw [tegrablGetMemblkInfoArray, if_pos cached]
  · obtain ⟨info', cnt⟩ := s
    obtain rfl : cnt = 0 := Nat.eq_zero_of_not_pos cached
    rw [(first_call getInfo length).1, blocks]

theorem forall₂_shrunk {blocks : List Memblock} (small : ∀ m ∈ blocks, m.base.toNat + m.size.toNat < 2 ^ 63) :
    List.Forall₂ Shrunk blocks (blocks.map shrink) := by
  induction blocks with
  | nil => exact .nil
  | cons m blocks ih =>
    exact .cons (shrink_shrunk (small m List.mem_cons_self)) (ih fun m' later => small m' (List.mem_cons_of_mem m later))

theorem disjoint_of_within {m m' b b' : Memblock} (apart : Disjoint m m')
    (inside : Within b.base.toNat b.size.toNat m) (inside' : Within b'.base.toNat b'.size.toNat m') : Disjoint b b' := by
  obtain ⟨low, high⟩ := inside
  obtain ⟨low', high'⟩ := inside'
  unfold Disjoint at *
  omega

/-- The kernel gets of each block in its turn the largest range of whole units, and nothing of a block without one. -/
theorem memblkInfo_spec (getInfo : Nat → Option Memblock) {info : List Memblock} (size : info.length = maxMemChunks)
    (small : ∀ m ∈ reported getInfo, m.base.toNat + m.size.toNat < 2 ^ 63) (apart : (reported getInfo).Pairwise Disjoint) :
    (∃ picks, List.Forall₂ Shrunk (reported getInfo) picks ∧
      (tegrablGetMemblkInfoArray getInfo ⟨info, 0⟩).blkArr = picks.filterMap id) ∧
    (tegrablGetMemblkInfoArray getInfo ⟨info, 0⟩).blkArr.Pairwise Disjoint ∧
    (∀ b ∈ (tegrablGetMemblkInfoArray getInfo ⟨info, 0⟩).blkArr,
      ∃ m ∈ reported getInfo, Within b.base.toNat b.size.toNat m) ∧
    (tegrablGetMemblkInfoArray getInfo (tegrablGetMemblkInfoArray getInfo ⟨info, 0⟩)).blkArr =
      (tegrablGetMemblkInfoArray getInfo ⟨info, 0⟩).blkArr := by
  have inside : ∀ m ∈ reported getInfo, ∀ b, shrink m = some b → Within b.base.toNat b.size.toNat m := by
    intro m member b shrunk
    have known := shrink_shrunk (small m member)
    rw [shrunk] at known
    exact known.2.within
  refine ⟨⟨(reported getInfo).map shrink, forall₂_shrunk small, ?_⟩, ?_, ?_, second_call getInfo size⟩
  · rw [(first_call getInfo size).1, List.filterMap_map]
    rfl
  · rw [(first_call getInfo size).1, List.pairwise_filterMap]
    refine apart.imp_of_mem fun member member' disjoint b shrunk b' shrunk' => ?_
    exact disjoint_of_within disjoint (inside _ member b shrunk) (inside _ member' b' shrunk')
  · intro b member
    rw [(first_call getInfo size).1] at member
    obtain ⟨m, known, shrunk⟩ := List.mem_filterMap.mp member
    exact ⟨m, known, inside m known b shrunk⟩

/-- The second bank is at a whole unit, the first one is not. -/
def twoBanks (idx : Nat) : Option Memblock :=
  if idx = 0 then some ⟨0x80100000, 0x8000000⟩ else if idx = 1 then some ⟨0x90000000, 0x300000⟩ else none

theorem memblkInfo_twoBanks : ∃ arr, tegrablGetMemblkInfoArray twoBanks ⟨List.replicate 20 ⟨0, 0⟩, 0⟩ = arr ∧
    arr.blkArr = [⟨0x80200000, 0x7e00000⟩, ⟨0x90000000, 0x200000⟩] ∧
    (∃ picks, List.Forall₂ Shrunk (reported twoBanks) picks ∧ arr.blkArr = picks.filterMap id) ∧
    arr.blkArr.Pairwise Disjoint ∧
    (∀ b ∈ arr.blkArr, ∃ m ∈ reported twoBanks, Within b.base.toNat b.size.toNat m) ∧
    (tegrablGetMemblkInfoArray twoBanks arr).blkArr = arr.blkArr := by
  have apart : (reported twoBanks).Pairwise Disjoint := by
    refine List.pairwise_pair.mpr ?_
    unfold Disjoint
    decide
  exact ⟨_, rfl, by decide, memblkInfo_spec twoBanks (by decide) (by decide) apart⟩

end

end Cboot.DtbUpdate.Memblocks
