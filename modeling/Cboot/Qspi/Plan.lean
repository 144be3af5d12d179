import Cboot.Qspi.Model

/-!
Blocks are counted in one size and sectors in another, and the driver goes from one to the other by shifts.
-/

namespace Cboot.Qspi
open Lib

namespace ChipInfo
variable (chip : ChipInfo)

def flashSize : Nat := 2 ^ chip.flashSizeLog2.toNat
def blockSize : Nat := 2 ^ chip.blockSizeLog2.toNat
def sectorSize : Nat := 2 ^ chip.sectorSizeLog2.toNat
def parameterSize : Nat := 2 ^ chip.parameterSectorSizeLog2.toNat

theorem blockSize_pos : 0 < chip.blockSize := Nat.two_pow_pos _

theorem sectorSize_pos : 0 < chip.sectorSize := Nat.two_pow_pos _

def blocksInSector : Nat := 2 ^ (chip.sectorSizeLog2.toNat - chip.blockSizeLog2.toNat)

end ChipInfo

/-- Sizes that fit together. `read_device_id_info` gives addresses of three or of four bytes. -/
structure Geometry (chip : ChipInfo) : Prop where
  flash : chip.flashSizeLog2.toNat ≤ 31
  sector : chip.sectorSizeLog2.toNat ≤ chip.flashSizeLog2.toNat
  block : chip.blockSizeLog2.toNat ≤ chip.sectorSizeLog2.toNat
  blocks : chip.blockCount.toNat = 2 ^ (chip.flashSizeLog2.toNat - chip.blockSizeLog2.toNat)
  sectors : chip.sectorCount.toNat = 2 ^ (chip.flashSizeLog2.toNat - chip.sectorSizeLog2.toNat)
  page : chip.pageWriteSize.toNat ∣ chip.blockSize
  address : chip.addressLength = 3 ∨ chip.addressLength = 4
  addressable : chip.flashSizeLog2.toNat ≤ 8 * chip.addressLength.toNat
  /-- The eight parameter sectors that are erased are inside sector 0. -/
  parameters : 8 ≤ chip.parameterSectorCount.toNat → chip.parameterSize * 8 ≤ chip.sectorSize

def firstSector (chip : ChipInfo) (block : Nat) : Nat := block * chip.blockSize / chip.sectorSize

def endSector (chip : ChipInfo) (block count : Nat) : Nat :=
  ((block + count) * chip.blockSize + chip.sectorSize - 1) / chip.sectorSize

def erases (erase : Nat → Command) (size n address : Nat) : List Command :=
  (List.range n).map fun i => erase (address + i * size)

def programs (page address length : Nat) : List Command :=
  (List.range ((length + page - 1) / page)).map fun i => .program (address + i * page) (min page (length - i * page))

def parametersNeeded (chip : ChipInfo) (first : Nat) : List Command :=
  if first = 0 ∧ 8 ≤ chip.parameterSectorCount.toNat then erases .parameterErase chip.parameterSize 8 0 else []

def neededErase (d : DriverInfo) (block count : Nat) : List Command :=
  let chip := d.chipInfo
  let first := firstSector chip block
  let last := endSector chip block count
  if block = 0 ∧ count = chip.blockCount.toNat ∧ d.device.flag &&& flagBulk ≠ 0 then [.bulkErase]
  else parametersNeeded chip first ++ erases .sectorErase chip.sectorSize (last - first) (first * chip.sectorSize) ++
    programs chip.pageWriteSize.toNat (first * chip.sectorSize) (block * chip.blockSize - first * chip.sectorSize) ++
    programs chip.pageWriteSize.toNat ((block + count) * chip.blockSize)
      (last * chip.sectorSize - (block + count) * chip.blockSize)

def neededWrite (d : DriverInfo) (block count : Nat) : List Command :=
  programs d.chipInfo.pageWriteSize.toNat (block * d.chipInfo.blockSize) (count * d.chipInfo.blockSize)

section
variable {erase : Nat → Command} {size n address page length : Nat}

theorem erases_succ : erases erase size (n + 1) address = erase address :: erases erase size n (address + size) := by
  simp only [erases, List.range_succ_eq_map, List.map_cons, List.map_map, Nat.zero_mul, Nat.add_zero, List.cons.injEq,
    true_and]
  refine List.map_congr_left fun i _ => congrArg erase ?_
  rw [Nat.succ_mul]
  omega

theorem programs_nil (some : 0 < page) : programs page address 0 = [] := by
  rw [programs, Nat.div_eq_of_lt (by omega), List.range_zero, List.map_nil]

theorem programs_last (some : 0 < length) (fits : length ≤ page) : programs page address length = [.program address length] := by
  have one : (length + page - 1) / page = 1 := Nat.div_eq_of_lt_le (by omega) (by omega)
  rw [programs, one]
  simp [Nat.min_eq_right fits]

theorem programs_cons (some : 0 < page) (more : page < length) :
    programs page address length = .program address page :: programs page (address + page) (length - page) := by
  have count : (length + page - 1) / page = (length - page + page - 1) / page + 1 := by
    rw [show length + page - 1 = length - page + page - 1 + page by omega, Nat.add_div_right _ some]
  rw [programs, count, List.range_succ_eq_map, List.map_cons, List.map_map]
  refine List.cons_eq_cons.mpr ⟨by simp [Nat.min_eq_left (Nat.le_of_lt more)], ?_⟩
  refine List.map_congr_left fun i _ => ?_
  change Command.program (address + (i + 1) * page) (min page (length - (i + 1) * page)) = _
  rw [Nat.succ_mul, ← Nat.add_assoc, Nat.add_right_comm address, Nat.add_comm (i * page), Nat.sub_add_eq]

end

theorem toNat_pos {n : UInt32} (some_ : n ≠ 0) : 0 < n.toNat := Nat.pos_of_ne_zero fun no => some_ (UInt32.toNat_inj.mp no)

theorem whole_iff {d : DriverInfo} {block count : UInt32} :
    (block = 0 ∧ count = d.chipInfo.blockCount ∧ d.device.flag &&& flagBulk ≠ 0) ↔
      block.toNat = 0 ∧ count.toNat = d.chipInfo.blockCount.toNat ∧ d.device.flag &&& flagBulk ≠ 0 := by
  rw [UInt32.toNat_inj, ← UInt32.toNat_inj (a := block)]
  rfl

variable {chip : ChipInfo}

theorem parametersNeeded_eight (eight : 8 ≤ chip.parameterSectorCount.toNat) :
    parametersNeeded chip 0 = erases .parameterErase chip.parameterSize 8 0 := if_pos ⟨rfl, eight⟩

theorem parametersNeeded_few (few : ¬ 8 ≤ chip.parameterSectorCount.toNat) (first : Nat) :
    parametersNeeded chip first = [] := if_neg fun both => few both.2

theorem eight_iff : ((8 : UInt32) ≠ 0 ∧ 8 ≤ chip.parameterSectorCount) ↔ 8 ≤ chip.parameterSectorCount.toNat :=
  ⟨fun both => UInt32.le_iff_toNat_le.mp both.2, fun eight => ⟨by decide, UInt32.le_iff_toNat_le.mpr eight⟩⟩

theorem toNat_shl {x n : UInt32} (small : n.toNat < 32) (fits : x.toNat * 2 ^ n.toNat < 2 ^ 32) :
    (x <<< n).toNat = x.toNat * 2 ^ n.toNat := by
  rw [UInt32.toNat_shiftLeft, Nat.mod_eq_of_lt small, Nat.shiftLeft_eq, Nat.mod_eq_of_lt fits]

theorem toNat_shr {x n : UInt32} (small : n.toNat < 32) : (x >>> n).toNat = x.toNat / 2 ^ n.toNat := by
  rw [UInt32.toNat_shiftRight, Nat.mod_eq_of_lt small, Nat.shiftRight_eq_div_pow]

theorem toNat_bit {n : UInt32} (small : n.toNat < 32) : ((1 : UInt64) <<< n.toUInt64).toNat = 2 ^ n.toNat := by
  have below : 2 ^ n.toNat < 2 ^ 64 := Nat.pow_lt_pow_right (by decide) (by omega)
  rw [UInt64.toNat_shiftLeft, UInt32.toNat_toUInt64, Nat.mod_eq_of_lt (by omega : n.toNat < 64), Nat.shiftLeft_eq]
  rw [show (1 : UInt64).toNat = 1 from rfl, Nat.one_mul, Nat.mod_eq_of_lt below]

theorem toNat_bit32 {n : UInt32} (small : n.toNat < 32) : ((1 : UInt64) <<< n.toUInt64).toUInt32.toNat = 2 ^ n.toNat := by
  have below : 2 ^ n.toNat < 2 ^ 32 := Nat.pow_lt_pow_right (by decide) small
  rw [UInt64.toNat_toUInt32, toNat_bit small, Nat.mod_eq_of_lt below]

section
variable {block count : Nat}

theorem firstSector_mul_le : firstSector chip block * chip.sectorSize ≤ block * chip.blockSize := Nat.div_mul_le_self _ _

theorem le_endSector_mul : (block + count) * chip.blockSize ≤ endSector chip block count * chip.sectorSize := by
  have split := Nat.div_add_mod ((block + count) * chip.blockSize + chip.sectorSize - 1) chip.sectorSize
  have below := Nat.mod_lt ((block + count) * chip.blockSize + chip.sectorSize - 1) chip.sectorSize_pos
  rw [endSector, Nat.mul_comm (_ / _)]
  omega

theorem firstSector_lt_endSector (some : 0 < count) : firstSector chip block < endSector chip block count := by
  have less : block * chip.blockSize < (block + count) * chip.blockSize :=
    Nat.mul_lt_mul_of_pos_right (by omega) chip.blockSize_pos
  exact Nat.lt_of_mul_lt_mul_right (Nat.lt_of_le_of_lt firstSector_mul_le (Nat.lt_of_lt_of_le less le_endSector_mul))

end

structure Planned (chip : ChipInfo) (block count : Nat) (p : Plan) : Prop where
  sectorNum : p.sectorNum.toNat = firstSector chip block
  sectorCnt : p.sectorCnt.toNat = endSector chip block count - firstSector chip block
  headStart : p.headCount ≠ 0 → p.headStart.toNat * chip.blockSize = firstSector chip block * chip.sectorSize
  headCount : p.headCount.toNat * chip.blockSize = block * chip.blockSize - firstSector chip block * chip.sectorSize
  tailStart : p.tailCount ≠ 0 → p.tailStart.toNat = block + count
  tailCount : p.tailCount.toNat * chip.blockSize =
    endSector chip block count * chip.sectorSize - (block + count) * chip.blockSize

namespace Geometry
variable (geometry : Geometry chip) {block count : Nat}
include geometry

theorem flashSize_le : chip.flashSize ≤ 2 ^ 31 := Nat.pow_le_pow_right (by decide) geometry.flash

theorem sectorSize_eq : chip.sectorSize = chip.blocksInSector * chip.blockSize := by
  rw [ChipInfo.blockSize, ChipInfo.blocksInSector, ← Nat.pow_add, Nat.sub_add_cancel geometry.block, ChipInfo.sectorSize]

theorem blocks_mul : chip.blockCount.toNat * chip.blockSize = chip.flashSize := by
  have le := Nat.le_trans geometry.block geometry.sector
  rw [geometry.blocks, ChipInfo.blockSize, ← Nat.pow_add, Nat.sub_add_cancel le, ChipInfo.flashSize]

theorem sectors_mul : chip.sectorCount.toNat * chip.sectorSize = chip.flashSize := by
  rw [geometry.sectors, ChipInfo.sectorSize, ← Nat.pow_add, Nat.sub_add_cancel geometry.sector, ChipInfo.flashSize]

theorem sectorSize_le : chip.sectorSize ≤ 2 ^ 31 :=
  Nat.pow_le_pow_right (by decide) (Nat.le_trans geometry.sector geometry.flash)

theorem page_pos : 0 < chip.pageWriteSize.toNat := Nat.pos_of_dvd_of_pos geometry.page chip.blockSize_pos

theorem toNat_bytes (num : UInt32) (fits : num.toNat * chip.blockSize ≤ chip.flashSize) :
    (num <<< chip.blockSizeLog2).toNat = num.toNat * chip.blockSize := by
  have small : chip.blockSizeLog2.toNat < 32 :=
    Nat.lt_succ_of_le (Nat.le_trans geometry.block (Nat.le_trans geometry.sector geometry.flash))
  exact toNat_shl small (Nat.lt_of_le_of_lt (Nat.le_trans fits geometry.flashSize_le) (by decide))

theorem firstSector_eq : firstSector chip block = block / chip.blocksInSector := by
  rw [firstSector, geometry.sectorSize_eq, Nat.mul_div_mul_right _ _ chip.blockSize_pos]

theorem endSector_eq : endSector chip block count = firstSector chip (block + count + chip.blocksInSector - 1) := by
  have pages : 0 < chip.blocksInSector := Nat.two_pow_pos _
  rw [geometry.firstSector_eq, endSector, geometry.sectorSize_eq, Nat.mul_comm chip.blocksInSector, ← Nat.div_div_eq_div_mul]
  congr 1
  have split : (block + count) * chip.blockSize + chip.blockSize * chip.blocksInSector - 1 =
      chip.blockSize - 1 + (block + count + chip.blocksInSector - 1) * chip.blockSize := by
    have more : chip.blockSize ≤ (block + count + chip.blocksInSector) * chip.blockSize :=
      Nat.le_mul_of_pos_left _ (by omega)
    have := chip.blockSize_pos
    rw [Nat.sub_mul, Nat.add_mul _ chip.blocksInSector, Nat.mul_comm chip.blockSize chip.blocksInSector]
    rw [Nat.add_mul _ chip.blocksInSector] at more
    omega
  rw [split, Nat.add_mul_div_right _ _ chip.blockSize_pos, Nat.div_eq_of_lt (by have := chip.blockSize_pos; omega),
    Nat.zero_add]

section
variable (inside : block + count ≤ chip.blockCount.toNat)
include inside

theorem bytes_le : (block + count) * chip.blockSize ≤ chip.flashSize :=
  geometry.blocks_mul ▸ Nat.mul_le_mul_right _ inside

theorem end_le : endSector chip block count ≤ chip.sectorCount.toNat := by
  have most := geometry.bytes_le inside
  have := chip.sectorSize_pos
  rw [← geometry.sectors_mul] at most
  refine Nat.le_of_lt_succ ((Nat.div_lt_iff_lt_mul chip.sectorSize_pos).mpr ?_)
  rw [Nat.succ_mul]
  omega

theorem end_mul_le : endSector chip block count * chip.sectorSize ≤ chip.flashSize :=
  geometry.sectors_mul ▸ Nat.mul_le_mul_right _ (geometry.end_le inside)

end

theorem toNat_pagesInSectorLog2 :
    (pagesInSectorLog2 chip).toNat = chip.sectorSizeLog2.toNat - chip.blockSizeLog2.toNat :=
  UInt32.toNat_sub_of_le _ _ (UInt32.le_iff_toNat_le.mpr geometry.block)

theorem pagesInSectorLog2_lt : (pagesInSectorLog2 chip).toNat < 32 := by
  have := geometry.toNat_pagesInSectorLog2
  have := geometry.flash
  have := geometry.sector
  omega

theorem toNat_pagesMask : (pagesMask chip).toNat = chip.blocksInSector - 1 := by
  have bit := toNat_bit geometry.pagesInSectorLog2_lt
  have some : (1 : UInt64) ≤ 1 <<< (pagesInSectorLog2 chip).toUInt64 :=
    UInt64.le_iff_toNat_le.mpr (by rw [bit]; exact Nat.two_pow_pos _)
  rw [pagesMask, UInt64.toNat_sub_of_le _ _ some, bit, geometry.toNat_pagesInSectorLog2]
  rfl

theorem toNat_blockNumToSectorNum {blk : UInt32} (fits : blk.toNat * chip.blockSize < 2 ^ 32) :
    (blockNumToSectorNum chip blk).toNat = firstSector chip blk.toNat := by
  have small := geometry.flash
  have := geometry.sector
  have := geometry.block
  rw [blockNumToSectorNum, toNat_shr (by omega), toNat_shl (by omega) fits]
  rfl

theorem toNat_sectorStart (sector : UInt32) (inside : sector.toNat * chip.sectorSize ≤ chip.flashSize) :
    (sector <<< pagesInSectorLog2 chip).toNat = sector.toNat * chip.blocksInSector := by
  have flash := geometry.flashSize_le
  have pow : 2 ^ (pagesInSectorLog2 chip).toNat = chip.blocksInSector := by
    rw [geometry.toNat_pagesInSectorLog2]
    rfl
  rw [geometry.sectorSize_eq, ← Nat.mul_assoc] at inside
  have le := Nat.le_mul_of_pos_right (sector.toNat * chip.blocksInSector) chip.blockSize_pos
  rw [toNat_shl geometry.pagesInSectorLog2_lt (by rw [pow]; omega), pow]

theorem toNat_headCount (block : UInt32) :
    (block.toUInt64 &&& pagesMask chip).toUInt32.toNat = block.toNat % chip.blocksInSector := by
  rw [UInt64.toNat_toUInt32, UInt64.toNat_and, UInt32.toNat_toUInt64, geometry.toNat_pagesMask, ChipInfo.blocksInSector,
    Nat.and_two_pow_sub_one_eq_mod]
  exact Nat.mod_eq_of_lt (Nat.lt_of_le_of_lt (Nat.mod_le _ _) block.toNat_lt)

section
variable {block count : UInt32} (inside : block.toNat + count.toNat ≤ chip.blockCount.toNat)
include inside

theorem toNat_tailStart : (block + count).toNat = block.toNat + count.toNat := by
  have flash := geometry.flashSize_le
  have bytes := geometry.bytes_le inside
  have le := Nat.le_mul_of_pos_right (block.toNat + count.toNat) chip.blockSize_pos
  rw [UInt32.toNat_add, Nat.mod_eq_of_lt (by omega)]

theorem toNat_sectorEnd : (blockNumToSectorNum chip ((block + count).toUInt64 + pagesMask chip).toUInt32).toNat =
    endSector chip block.toNat count.toNat := by
  have flash := geometry.flashSize_le
  have sector := geometry.sectorSize_le
  have bytes := geometry.bytes_le inside
  have pages : 0 < chip.blocksInSector := Nat.two_pow_pos _
  have size := chip.blockSize_pos
  have more : (block.toNat + count.toNat + chip.blocksInSector - 1) * chip.blockSize < 2 ^ 32 := by
    rw [Nat.sub_mul, Nat.add_mul _ chip.blocksInSector, ← geometry.sectorSize_eq]
    omega
  have le := Nat.le_mul_of_pos_right (block.toNat + count.toNat + chip.blocksInSector - 1) size
  have sum : ((block + count).toUInt64 + pagesMask chip).toUInt32.toNat =
      block.toNat + count.toNat + chip.blocksInSector - 1 := by
    rw [UInt64.toNat_toUInt32, UInt64.toNat_add, UInt32.toNat_toUInt64, geometry.toNat_tailStart inside,
      geometry.toNat_pagesMask]
    omega
  rw [geometry.toNat_blockNumToSectorNum (by rw [sum]; exact more), sum, geometry.endSector_eq]

theorem planned_of_ne (part : count ≠ chip.blockCount) :
    Planned chip block.toNat count.toNat (planOf chip block count) := by
  have flash := geometry.flashSize_le
  have bytes := geometry.bytes_le inside
  have last := geometry.end_mul_le inside
  have sectorSize := geometry.sectorSize_eq
  have blockBytes : block.toNat * chip.blockSize ≤ (block.toNat + count.toNat) * chip.blockSize :=
    Nat.mul_le_mul_right _ (Nat.le_add_right _ _)
  have lower := @firstSector_mul_le chip block.toNat
  have upper := @le_endSector_mul chip block.toNat count.toNat
  have tail := geometry.toNat_tailStart inside
  have first : (blockNumToSectorNum chip block).toNat = firstSector chip block.toNat :=
    geometry.toNat_blockNumToSectorNum (by omega)
  have end_ := geometry.toNat_sectorEnd inside
  have head := geometry.toNat_sectorStart (blockNumToSectorNum chip block) (by rw [first]; omega)
  have stop := geometry.toNat_sectorStart
    (blockNumToSectorNum chip ((block + count).toUInt64 + pagesMask chip).toUInt32) (by rw [end_]; exact last)
  rw [planOf, if_pos part]
  refine ⟨first, ?_, fun _ => ?_, ?_, fun _ => tail, ?_⟩
  · have ordered : firstSector chip block.toNat ≤ endSector chip block.toNat count.toNat :=
      Nat.le_of_mul_le_mul_right (Nat.le_trans lower (Nat.le_trans blockBytes upper)) chip.sectorSize_pos
    change (_ - _ : UInt32).toNat = _
    rw [UInt32.toNat_sub_of_le _ _ (UInt32.le_iff_toNat_le.mpr (by rw [first, end_]; exact ordered)), first, end_]
  · rw [head, first, sectorSize, Nat.mul_assoc]
  · change (block.toUInt64 &&& pagesMask chip).toUInt32.toNat * chip.blockSize = _
    rw [geometry.toNat_headCount, geometry.firstSector_eq, sectorSize, ← Nat.mul_assoc, ← Nat.sub_mul, Nat.mod_eq_sub,
      Nat.mul_comm chip.blocksInSector]
  · change (_ <<< _ - (block + count) : UInt32).toNat * chip.blockSize = _
    have le : block.toNat + count.toNat ≤ endSector chip block.toNat count.toNat * chip.blocksInSector := by
      rw [sectorSize, ← Nat.mul_assoc] at upper
      exact Nat.le_of_mul_le_mul_right upper chip.blockSize_pos
    rw [UInt32.toNat_sub_of_le _ _ (UInt32.le_iff_toNat_le.mpr (by rw [stop, end_, tail]; exact le)), stop, end_, tail,
      Nat.sub_mul, Nat.mul_assoc, ← sectorSize]

end

theorem toNat_blockCntToSectorCnt {count : UInt32} (fits : count.toNat * chip.blockSize ≤ chip.flashSize) :
    (blockCntToSectorCnt chip count).toNat = endSector chip 0 count.toNat := by
  have flash := geometry.flashSize_le
  have sector := geometry.sectorSize_le
  have size := chip.sectorSize_pos
  have small : chip.sectorSizeLog2.toNat < 32 := by
    have := geometry.flash
    have := geometry.sector
    omega
  have bytes := geometry.toNat_bytes count fits
  have sum : ((count <<< chip.blockSizeLog2).toUInt64 + (1 <<< chip.sectorSizeLog2.toUInt64) - 1).toNat =
      count.toNat * chip.blockSize + chip.sectorSize - 1 := by
    rw [UInt64.toNat_sub, UInt64.toNat_add, UInt32.toNat_toUInt64, bytes, toNat_bit small]
    change (2 ^ 64 - 1 + (count.toNat * chip.blockSize + chip.sectorSize) % 2 ^ 64) % 2 ^ 64 = _
    omega
  have quotient := Nat.div_le_self (count.toNat * chip.blockSize + chip.sectorSize - 1) chip.sectorSize
  rw [blockCntToSectorCnt, UInt64.toNat_toUInt32, UInt64.toNat_shiftRight, sum, UInt32.toNat_toUInt64,
    Nat.mod_eq_of_lt (by omega : chip.sectorSizeLog2.toNat < 64), Nat.shiftRight_eq_div_pow, endSector, Nat.zero_add]
  exact Nat.mod_eq_of_lt (by change _ / chip.sectorSize < _; omega)

theorem planned {block count : UInt32} (inside : block.toNat + count.toNat ≤ chip.blockCount.toNat) :
    Planned chip block.toNat count.toNat (planOf chip block count) := by
  by_cases part : count ≠ chip.blockCount
  · exact geometry.planned_of_ne inside part
  · have whole : count = chip.blockCount := Classical.not_not.mp part
    have zero : block.toNat = 0 := by rw [whole] at inside; omega
    have bytes : count.toNat * chip.blockSize = chip.flashSize := by rw [whole]; exact geometry.blocks_mul
    have last := geometry.end_mul_le inside
    have flash := geometry.flashSize_le
    have first : firstSector chip 0 = 0 := by rw [firstSector, Nat.zero_mul, Nat.zero_div]
    rw [planOf, if_neg part]
    refine ⟨geometry.toNat_blockNumToSectorNum (by rw [zero]; omega), ?_, nofun, ?_, nofun, ?_⟩
    · rw [zero, first, Nat.sub_zero]
      exact geometry.toNat_blockCntToSectorCnt bytes.le
    · rw [zero, Nat.zero_mul, Nat.zero_sub]
      exact Nat.zero_mul _
    · change 0 * _ = _
      rw [zero] at last ⊢
      rw [Nat.zero_add, bytes, Nat.zero_mul]
      omega

end Geometry

theorem sentAddress_eq {d : DriverInfo} (geometry : Geometry d.chipInfo) {address : UInt32}
    (inside : address.toNat < d.chipInfo.flashSize) : sentAddress d address = address.toNat := by
  have whole := address.toNat_lt
  rcases geometry.address with three | four
  · have small : address.toNat < 2 ^ 24 := by
      refine Nat.lt_of_lt_of_le inside (Nat.pow_le_pow_right (by decide) ?_)
      have := geometry.addressable
      rw [three] at this
      exact this
    rw [sentAddress, addressData, if_neg (by rw [three]; decide), three]
    simp [Positional.encode, Positional.encodeFrom, UInt32.toNat_shiftRight, Nat.shiftRight_eq_div_pow]
    omega
  · rw [sentAddress, addressData, if_pos four, four]
    simp [Positional.encode, Positional.encodeFrom, UInt32.toNat_shiftRight, Nat.shiftRight_eq_div_pow]
    omega

end Cboot.Qspi
