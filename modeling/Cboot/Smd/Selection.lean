import Cboot.Smd.Rotation

/-!
The loop of `boot_chain_get_bootslot_from_smd` runs to `num_slots`, which no check of the contents bounds.
-/

namespace Cboot.Smd
open Lib

/-- The loop of `boot_chain_get_bootslot_from_smd`, with the indices of the slots that it reads. -/
structure Search where
  maxPriority : UInt8
  slot : Nat
  reads : List Nat
  deriving DecidableEq

def searchSlots (info : Nat → BootSlotInfo) : Nat → Search
  | 0 => ⟨0, 0, []⟩
  | i + 1 =>
    let s := searchSlots info i
    let s := { s with reads := s.reads ++ [i] }
    if (info i).retryCount ≠ 0 ∧ (info i).priority ≠ 0 then
      if s.maxPriority < (info i).priority then { s with maxPriority := (info i).priority, slot := i } else s
    else s

def slotReads (smd : SlotMetaDataV2) (beyond : Nat → UInt8) : List Nat :=
  if smd.smd.magic ≠ bootChainMagic then []
  else (searchSlots (smd.slotInfoAt beyond) smd.smd.numSlots.toNat).reads

def IsBootable (smd : SlotMetaDataV2) (i : Nat) : Prop := tegrablABIsUnbootable smd i = .ok false

structure SelectsFrom (slots : Nat → Prop) (smd : SlotMetaDataV2) (beyond : Nat → UInt8) : Prop where
  reads : ∀ i ∈ slotReads smd beyond, i < maxSlots.toNat
  valid : ∀ slot, tegrablABGetActiveSlot smd beyond = .ok slot → slot < maxSlots.toNat ∧ IsBootable smd slot
  best : ∀ slot, tegrablABGetActiveSlot smd beyond = .ok slot →
    ∀ i < maxSlots.toNat, slots i → IsBootable smd i → (smd.slot i).priority ≤ (smd.slot slot).priority
  fails : (∃ e, tegrablABGetActiveSlot smd beyond = .error e) ↔
    smd.smd.magic ≠ bootChainMagic ∨ ∀ i < maxSlots.toNat, slots i → tegrablABIsUnbootable smd i = .ok true

section
variable {info : Nat → BootSlotInfo} {n i : Nat}

theorem searchSlots_best (info : Nat → BootSlotInfo) (n : Nat) :
    ((searchSlots info n).maxPriority, (searchSlots info n).slot) = highestPriority info n := by
  induction n with
  | zero => rfl
  | succ n ih =>
    rw [highestPriority, ← ih, searchSlots]
    dsimp only
    by_cases bootable : (info n).retryCount ≠ 0 ∧ (info n).priority ≠ 0
    · by_cases higher : (searchSlots info n).maxPriority < (info n).priority
      · rw [if_pos bootable, if_pos higher, if_pos ⟨bootable.1, bootable.2, higher⟩]
      · rw [if_pos bootable, if_neg higher, if_neg fun all => higher all.2.2]
    · rw [if_neg bootable, if_neg fun all => bootable ⟨all.1, all.2.1⟩]

theorem searchSlots_reads (info : Nat → BootSlotInfo) (n : Nat) : (searchSlots info n).reads = List.range n := by
  induction n with
  | zero => rfl
  | succ n ih =>
    rw [List.range_succ, ← ih, searchSlots]
    dsimp only
    split
    · split
      · rfl
      · rfl
    · rfl

theorem le_highestPriority (before : i < n) (bootable : (info i).Bootable) :
    (info i).priority ≤ (highestPriority info n).1 := by
  induction n with
  | zero => omega
  | succ n ih =>
    rw [highestPriority]
    rcases Nat.lt_succ_iff_lt_or_eq.mp before with earlier | rfl
    · split
      · rename_i higher
        exact UInt8.le_trans (ih earlier) (UInt8.le_of_lt higher.2.2)
      · exact ih earlier
    · split
      · exact UInt8.le_refl _
      · rename_i lower
        exact UInt8.not_lt.mp fun higher => lower ⟨bootable.1, bootable.2, higher⟩

theorem highestPriority_bootable (found : (highestPriority info n).1 ≠ 0) :
    (highestPriority info n).2 < n ∧ (info (highestPriority info n).2).Bootable ∧
      (info (highestPriority info n).2).priority = (highestPriority info n).1 := by
  induction n with
  | zero => exact absurd rfl found
  | succ n ih =>
    rw [highestPriority] at found ⊢
    by_cases higher : (info n).retryCount ≠ 0 ∧ (info n).priority ≠ 0 ∧ (highestPriority info n).1 < (info n).priority
    · rw [if_pos higher]
      exact ⟨Nat.lt_succ_self n, ⟨higher.1, higher.2.1⟩, rfl⟩
    · rw [if_neg higher] at found ⊢
      obtain ⟨before, rest⟩ := ih found
      exact ⟨Nat.lt_succ_of_lt before, rest⟩

end

section
variable {smd : SlotMetaDataV2} {beyond : Nat → UInt8} {i slot : Nat}

theorem isUnbootable_eq (valid : i < 2) : tegrablABIsUnbootable smd i = .ok (decide ¬ (smd.slot i).Bootable) := by
  have past : ¬ maxSlots.toNat ≤ i := Nat.not_le.mpr valid
  unfold tegrablABIsUnbootable tegrablABGetPriority tegrablABGetRetryCount
  rw [if_neg past, if_neg past]
  change Except.ok ((smd.slot i).priority == 0 || (smd.slot i).retryCount == 0) = _
  by_cases priority : (smd.slot i).priority = 0 <;> by_cases retry : (smd.slot i).retryCount = 0 <;>
    simp [BootSlotInfo.Bootable, priority, retry]

theorem isBootable_iff (valid : i < 2) : IsBootable smd i ↔ (smd.slot i).Bootable := by
  rw [IsBootable, isUnbootable_eq valid]
  simp

theorem isUnbootable_iff (valid : i < 2) : tegrablABIsUnbootable smd i = .ok true ↔ ¬ (smd.slot i).Bootable := by
  rw [isUnbootable_eq valid]
  simp

variable (magic : smd.smd.magic = bootChainMagic)
include magic

theorem slotReads_eq :
    slotReads smd beyond = List.range smd.smd.numSlots.toNat := by
  rw [slotReads, if_neg (not_not.mpr magic), searchSlots_reads]

theorem activeSlot_eq : tegrablABGetActiveSlot smd beyond =
    if (highestPriority (smd.slotInfoAt beyond) smd.smd.numSlots.toNat).1 = 0 then .error .invalid
    else .ok (highestPriority (smd.slotInfoAt beyond) smd.smd.numSlots.toNat).2 := by
  rw [tegrablABGetActiveSlot, bootChainGetBootslotFromSmd, if_neg (not_not.mpr magic)]

theorem activeSlot_ok (few : smd.smd.numSlots.toNat ≤ 2)
    (active : tegrablABGetActiveSlot smd beyond = .ok slot) : slot < smd.smd.numSlots.toNat ∧ (smd.slot slot).Bootable ∧
      ∀ i < smd.smd.numSlots.toNat, (smd.slot i).Bootable → (smd.slot i).priority ≤ (smd.slot slot).priority := by
  rw [activeSlot_eq magic] at active
  split at active
  · cases active
  · rename_i found
    cases active
    obtain ⟨before, bootable, same⟩ := highestPriority_bootable found
    rw [smd.slotInfoAt_valid beyond (by omega)] at bootable same
    refine ⟨before, bootable, ?_⟩
    intro i counted good
    rw [same, ← smd.slotInfoAt_valid beyond (show i < 2 by omega)] at *
    exact le_highestPriority counted good

theorem activeSlot_error (few : smd.smd.numSlots.toNat ≤ 2) :
    (∃ e, tegrablABGetActiveSlot smd beyond = .error e) ↔ ∀ i < smd.smd.numSlots.toNat, ¬ (smd.slot i).Bootable := by
  rw [activeSlot_eq magic]
  constructor
  · rintro ⟨e, failed⟩ i counted bootable
    split at failed
    · rename_i none
      rw [← smd.slotInfoAt_valid beyond (show i < 2 by omega)] at bootable
      have least := le_highestPriority counted bootable
      rw [none] at least
      exact bootable.2 (UInt8.le_zero_iff.mp least)
    · cases failed
  · intro none
    by_cases found : (highestPriority (smd.slotInfoAt beyond) smd.smd.numSlots.toNat).1 = 0
    · exact ⟨_, if_pos found⟩
    · obtain ⟨before, bootable, -⟩ := highestPriority_bootable found
      rw [smd.slotInfoAt_valid beyond (by omega)] at bootable
      exact absurd bootable (none _ before)

omit magic

theorem selectsFrom_iff {slots : Nat → Prop} (counted : ∀ i < smd.smd.numSlots.toNat, slots i) :
    SelectsFrom slots smd beyond ↔ smd.smd.magic ≠ bootChainMagic ∨ smd.smd.numSlots.toNat ≤ 2 ∧
      ∀ i < 2, slots i → smd.smd.numSlots.toNat ≤ i → (smd.slot i).Bootable →
        ∃ j < smd.smd.numSlots.toNat, (smd.slot j).Bootable ∧ (smd.slot i).priority ≤ (smd.slot j).priority := by
  by_cases magic : smd.smd.magic = bootChainMagic
  · constructor
    · intro selects
      right
      have few : smd.smd.numSlots.toNat ≤ 2 := by
        by_contra many
        have read : 2 ∈ slotReads smd beyond := by
          rw [slotReads_eq magic]
          exact List.mem_range.mpr (Nat.not_le.mp many)
        exact absurd (selects.reads 2 read) (by decide)
      refine ⟨few, ?_⟩
      intro i valid among outside bootable
      cases active : tegrablABGetActiveSlot smd beyond with
      | error e =>
        rcases selects.fails.mp ⟨e, active⟩ with wrong | none
        · exact absurd magic wrong
        · exact absurd bootable ((isUnbootable_iff valid).mp (none i valid among))
      | ok slot =>
        obtain ⟨before, chosen, -⟩ := activeSlot_ok magic few active
        exact ⟨slot, before, chosen, selects.best slot active i valid among ((isBootable_iff valid).mpr bootable)⟩
    · rintro (wrong | ⟨few, matched⟩)
      · exact absurd magic wrong
      · refine ⟨?_, ?_, ?_, ?_⟩
        · intro i read
          rw [slotReads_eq magic] at read
          exact Nat.lt_of_lt_of_le (List.mem_range.mp read) few
        · intro slot active
          obtain ⟨before, chosen, -⟩ := activeSlot_ok magic few active
          have valid : slot < 2 := by omega
          exact ⟨valid, (isBootable_iff valid).mpr chosen⟩
        · intro slot active i valid among bootable
          have bootable := (isBootable_iff valid).mp bootable
          obtain ⟨-, -, highest⟩ := activeSlot_ok magic few active
          by_cases before : i < smd.smd.numSlots.toNat
          · exact highest i before bootable
          · obtain ⟨j, inside, good, higher⟩ := matched i valid among (Nat.not_lt.mp before) bootable
            exact UInt8.le_trans higher (highest j inside good)
        · rw [activeSlot_error magic few]
          constructor
          · intro none
            refine .inr fun i valid among => (isUnbootable_iff valid).mpr fun bootable => ?_
            by_cases before : i < smd.smd.numSlots.toNat
            · exact none i before bootable
            · obtain ⟨j, inside, good, -⟩ := matched i valid among (Nat.not_lt.mp before) bootable
              exact none j inside good
          · rintro (wrong | none) i before
            · exact absurd magic wrong
            · have valid : i < 2 := by omega
              exact (isUnbootable_iff valid).mp (none i valid (counted i before))
  · have failed : tegrablABGetActiveSlot smd beyond = .error .invalid := by
      rw [tegrablABGetActiveSlot, bootChainGetBootslotFromSmd, if_pos magic]
    have unread : slotReads smd beyond = [] := by
      rw [slotReads, if_pos magic]
    refine ⟨fun _ => .inl magic, fun _ => ⟨?_, ?_, ?_, ?_⟩⟩
    · rw [unread]
      exact nofun
    · rw [failed]
      exact nofun
    · rw [failed]
      exact nofun
    · exact ⟨fun _ => .inl magic, fun _ => ⟨_, failed⟩⟩

end

/-- Of the slots that are counted, the best is chosen exactly when there are no more than the array holds. -/
theorem selection_iff (smd : SlotMetaDataV2) (beyond : Nat → UInt8) :
    (SelectsFrom (· < smd.smd.numSlots.toNat) smd beyond ↔
      smd.smd.magic ≠ bootChainMagic ∨ smd.smd.numSlots.toNat ≤ maxSlots.toNat) ∧
    (SelectsFrom (fun _ => True) smd beyond ↔ smd.smd.magic ≠ bootChainMagic ∨ smd.smd.numSlots.toNat ≤ maxSlots.toNat ∧
        ∀ i < maxSlots.toNat, smd.smd.numSlots.toNat ≤ i → (smd.slot i).Bootable →
          ∃ j < smd.smd.numSlots.toNat, (smd.slot j).Bootable ∧ (smd.slot i).priority ≤ (smd.slot j).priority) := by
  constructor
  · rw [selectsFrom_iff fun i counted => counted]
    refine or_congr_right ⟨fun both => both.1, fun few => ⟨few, ?_⟩⟩
    intro i _ counted outside
    omega
  · rw [selectsFrom_iff fun i counted => trivial]
    refine or_congr_right (and_congr_right fun few => ?_)
    exact ⟨fun all i valid => all i valid trivial, fun all i valid _ => all i valid⟩

def threeSlots : SlotMetaDataV2 :=
  let slot : BootSlotInfo := ⟨15, .two 95 97, 7, 1⟩
  { smd := ⟨bootChainMagic, 1, 3, (slot, slot), 0⟩
    smdExt := ⟨0, 0, 0, 0, 0, (0, 0), (0, 0), 0, (0, 0), 0, .zeros 144⟩ }

theorem selection_leaves_table : loadSmdBinCopy (overwritten [] threeSlots) = .ok threeSlots ∧
    2 ∈ slotReads threeSlots (fun _ => 0) ∧ ∀ slots, ¬ SelectsFrom slots threeSlots (fun _ => 0) := by
  have read : 2 ∈ slotReads threeSlots (fun _ => 0) := by
    rw [slotReads_eq rfl]
    decide
  refine ⟨by decide +kernel, read, ?_⟩
  intro slots selects
  exact absurd (selects.reads 2 read) (by decide)

end Cboot.Smd
