import Cboot.PartitionManager.Confinement
import Cboot.Gpt.Accepted

/-!
The usable range of the header is checked against the device, but the entries are not checked against the usable range.
-/

namespace Cboot.Gpt
open Lib Blockdev PartitionManager

structure InBounds (dev : Bdev) (hdr : Header) (p : PartitionInfo) : Prop where
  on_device : p.startSector.toNat + p.numSectors.toNat ≤ dev.blockCount.toNat
  total_size : p.totalSize.toNat = p.numSectors.toNat * 2 ^ dev.blockSizeLog2.toNat
  from_first : hdr.firstLba.toNat ≤ p.startSector.toNat
  to_last : p.startSector.toNat + p.numSectors.toNat ≤ hdr.lastLba.toNat + 1

/-- The entry lies in the usable range. -/
def Entry.Usable (hdr : Header) (e : Entry) : Prop :=
  (hdr.firstLba ≤ e.firstLba ∧ e.lastLba ≤ hdr.lastLba) ∨
    (e.firstLba = 0 ∧ e.lastLba = 0xFFFFFFFFFFFFFFFF ∧ hdr.firstLba = 0)

section
variable {dev : Bdev} {buffer : Nat} {m : Mem}

theorem numSectors_toNat (dev : Bdev) {e : Entry} (used : e.inUse) : (e.info dev).numSectors.toNat =
      if e.firstLba = 0 ∧ e.lastLba = 0xFFFFFFFFFFFFFFFF then 0 else e.lastLba.toNat - e.firstLba.toNat + 1 := by
  have order : e.firstLba.toNat < e.lastLba.toNat := UInt64.lt_iff_toNat_lt.mp (of_decide_eq_true used)
  have bound := e.lastLba.toNat_lt
  have wraps : (e.firstLba = 0 ∧ e.lastLba = 0xFFFFFFFFFFFFFFFF) ↔
      e.firstLba.toNat = 0 ∧ e.lastLba.toNat = 0xFFFFFFFFFFFFFFFF := by
    rw [← UInt64.toNat_inj, ← UInt64.toNat_inj]
    rfl
  have difference : (e.lastLba - e.firstLba).toNat = e.lastLba.toNat - e.firstLba.toNat :=
    UInt64.toNat_sub_of_le _ _ (UInt64.le_iff_toNat_le.mpr order.le)
  change (e.lastLba - e.firstLba + 1).toNat = _
  rw [UInt64.toNat_add, difference, UInt64.toNat_one]
  by_cases all : e.firstLba = 0 ∧ e.lastLba = 0xFFFFFFFFFFFFFFFF
  · rw [if_pos all]
    have := wraps.mp all
    omega
  · rw [if_neg all]
    have := mt wraps.mpr all
    omega

theorem totalSize_of_few (setUp : SetUp dev) {n : UInt64} (few : n.toNat ≤ dev.blockCount.toNat) :
    (n <<< dev.blockSizeLog2.toUInt64).toNat = n.toNat * 2 ^ dev.blockSizeLog2.toNat := by
  have log := setUp.log2_lt
  refine toNat_shiftLeft_of_le (by omega) ?_ few
  rw [← size_setUp setUp]
  exact dev.size.toNat_lt

theorem inBounds_iff (setUp : SetUp dev) (accepted : Accepted dev buffer m) {e : Entry} (used : e.inUse) :
    InBounds dev (Header.decode m buffer) (e.info dev) ↔ e.Usable (Header.decode m buffer) := by
  have order : e.firstLba.toNat < e.lastLba.toNat := UInt64.lt_iff_toNat_lt.mp (of_decide_eq_true used)
  have count := numSectors_toNat dev used
  have start : (e.info dev).startSector = e.firstLba := rfl
  have last := accepted.last_lt
  have blocks := dev.blockCount.toNat_lt
  unfold Entry.Usable
  by_cases all : e.firstLba = 0 ∧ e.lastLba = 0xFFFFFFFFFFFFFFFF
  · rw [if_pos all] at count
    have none : (e.info dev).numSectors = 0 := UInt64.toNat_inj.mp count
    have far : e.lastLba.toNat = 2 ^ 64 - 1 := congrArg UInt64.toNat all.2
    constructor
    · intro inside
      have first := inside.from_first
      rw [start, all.1] at first
      exact .inr ⟨all.1, all.2, UInt64.toNat_inj.mp (Nat.le_zero.mp first)⟩
    · rintro (⟨-, late⟩ | ⟨-, -, zero⟩)
      · have := UInt64.le_iff_toNat_le.mp late
        omega
      · refine ⟨?_, ?_, ?_, ?_⟩
        · rw [start, count, all.1]
          exact Nat.zero_le _
        · change ((e.info dev).numSectors <<< dev.blockSizeLog2.toUInt64).toNat = _
          rw [none, UInt64.zero_shiftLeft, UInt64.toNat_zero, Nat.zero_mul]
        · rw [zero]
          exact Nat.zero_le _
        · rw [start, count, all.1]
          exact Nat.zero_le _
  · rw [if_neg all] at count
    constructor
    · intro inside
      have first := inside.from_first
      have behind := inside.to_last
      rw [start] at first behind
      exact .inl ⟨UInt64.le_iff_toNat_le.mpr first, UInt64.le_iff_toNat_le.mpr (by omega)⟩
    · rintro (⟨first, late⟩ | ⟨zero, full, -⟩)
      · have before := UInt64.le_iff_toNat_le.mp first
        have behind := UInt64.le_iff_toNat_le.mp late
        have few : (e.info dev).numSectors.toNat ≤ dev.blockCount.toNat := by
          rw [count]
          omega
        refine ⟨?_, totalSize_of_few setUp few, ?_, ?_⟩
        · rw [start, count]
          omega
        · rw [start]
          exact before
        · rw [start, count]
          omega
      · exact absurd ⟨zero, full⟩ all

/-- The partitions that are published lie on the device exactly when every slot in use lies in the
usable range, or nothing is published. -/
theorem gpt_partitions_in_bounds (dev : Bdev) (medium : Medium) (offset : UInt64)
    (alloc : Nat → Nat) (memory : Bool) (m m' : Mem) (buffer : Nat) (setUp : SetUp dev)
    (read : tegrablGptRead dev medium offset alloc m = (.ok buffer, m')) :
    (∀ partitions, tegrablGptPublish dev medium offset alloc memory m = .ok partitions →
        ∀ p ∈ partitions, InBounds dev (Header.decode m' buffer) p) ↔
      (memory = true → ∀ e ∈ slots dev buffer m', e.inUse → e.Usable (Header.decode m' buffer)) := by
  have accepted := gptRead_accepted setUp read
  have out : tegrablGptPublish dev medium offset alloc memory m = publishEntries dev memory buffer m' := by
    unfold tegrablGptPublish
    rw [read]
  rw [out, publishEntries_eq]
  constructor
  · intro bounded allocated e slot used
    have member : e ∈ published dev buffer m' := List.mem_filter.mpr ⟨slot, used⟩
    have some : ¬ (published dev buffer m' = [] ∨ ¬ memory = true) :=
      not_or.mpr ⟨List.ne_nil_of_mem member, not_not.mpr allocated⟩
    rw [if_neg some] at bounded
    exact (inBounds_iff setUp accepted used).mp (bounded _ rfl _ (List.mem_map_of_mem member))
  · intro usable partitions done p listed
    by_cases none : published dev buffer m' = [] ∨ ¬ memory = true
    · rw [if_pos none] at done
      cases done
    rw [if_neg none] at done
    rw [← Except.ok.inj done] at listed
    obtain ⟨e, member, rfl⟩ := List.mem_map.mp listed
    obtain ⟨slot, used⟩ := List.mem_filter.mp member
    have allocated := not_not.mp (not_or.mp none).2
    exact (inBounds_iff setUp accepted used).mpr (usable allocated e slot used)

end

instance (hdr : Header) (e : Entry) : Decidable (e.Usable hdr) :=
  inferInstanceAs (Decidable (_ ∨ _))

theorem goodRead_usable : goodRead.1 = .ok 0x1000 ∧ ∀ e ∈ slots tinyDisk 0x1000 goodRead.2, e.inUse →
      e.Usable (Header.decode goodRead.2 0x1000) := by
  decide +kernel

theorem gpt_partitions_in_bounds_one : SetUp tinyDisk ∧ goodRead.1 = .ok 0x1000 ∧
      ∀ partitions, tegrablGptPublish tinyDisk goodMedium 0 oneBuffer true (fun _ => 7) =
        .ok partitions → ∀ p ∈ partitions, InBounds tinyDisk (Header.decode goodRead.2 0x1000) p := by
  obtain ⟨read, usable⟩ := goodRead_usable
  exact ⟨tinyDisk_setUp, read, (gpt_partitions_in_bounds tinyDisk goodMedium 0 oneBuffer true
    (fun _ => 7) goodRead.2 0x1000 tinyDisk_setUp (eq_mk_of_fst read)).mpr fun _ => usable⟩

def farMedium : Medium := imageMedium (headerImage 0x9D7C208D 1 0xB85723DC) (entryImage 4 500 65)

def farRead : Except Error Nat × Mem := tegrablGptRead tinyDisk farMedium 0 oneBuffer fun _ => 7

theorem farRead_slot : farRead.1 = .ok 0x1000 ∧ (Entry.decode farRead.2 0x1080).firstLba = 4 ∧
    (Entry.decode farRead.2 0x1080).lastLba = 500 := by
  decide +kernel

/-- The entry ends far behind the device and is published all the same. -/
theorem gpt_partitions_in_bounds_far :
    ¬ ∀ (dev : Bdev) (medium : Medium) (offset : UInt64) (alloc : Nat → Nat) (memory : Bool)
      (m m' : Mem) (buffer : Nat), SetUp dev → tegrablGptRead dev medium offset alloc m = (.ok buffer, m') →
      ∀ partitions, tegrablGptPublish dev medium offset alloc memory m = .ok partitions →
        ∀ p ∈ partitions, InBounds dev (Header.decode m' buffer) p := by
  intro claim
  obtain ⟨read, first, last⟩ := farRead_slot
  have pair : tegrablGptRead tinyDisk farMedium 0 oneBuffer (fun _ => 7) = (.ok 0x1000, farRead.2) :=
    eq_mk_of_fst read
  have used : (Entry.decode farRead.2 0x1080).inUse := by
    unfold Entry.inUse
    rw [first, last]
    rfl
  have slot : Entry.decode farRead.2 0x1080 ∈ published tinyDisk 0x1000 farRead.2 :=
    List.mem_filter.mpr ⟨List.mem_map.mpr ⟨0, by decide, rfl⟩, used⟩
  have done : tegrablGptPublish tinyDisk farMedium 0 oneBuffer true (fun _ => 7) =
      .ok ((published tinyDisk 0x1000 farRead.2).map (Entry.info tinyDisk)) := by
    unfold tegrablGptPublish
    rw [pair]
    dsimp only
    rw [publishEntries_eq, if_neg (not_or.mpr ⟨List.ne_nil_of_mem slot, by decide⟩)]
  have inside := (claim tinyDisk farMedium 0 oneBuffer true (fun _ => 7) farRead.2 0x1000
    tinyDisk_setUp pair _ done _ (List.mem_map_of_mem slot)).on_device
  have count : (Entry.info tinyDisk (Entry.decode farRead.2 0x1080)).numSectors.toNat = 497 := by
    change ((Entry.decode farRead.2 0x1080).lastLba - (Entry.decode farRead.2 0x1080).firstLba + 1).toNat = 497
    rw [first, last]
    rfl
  have blocks : tinyDisk.blockCount.toNat = 8 := rfl
  omega

end Cboot.Gpt
