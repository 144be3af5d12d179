import Cboot.Lib.BitField
import Cboot.Smd.BootControl

/-!
What each store to a scratch register or to a slot does to everything that is read later.
-/

namespace Cboot.Smd
open Lib Lib.BitField

section
variable (reg : UInt32)

theorem magicGet_eq : bootChainRegMagicGet reg = get32 0 16 reg := by
  show reg &&& 0xFFFF = ⟨(reg.toBitVec >>> 0) &&& _⟩
  rw [BitVec.ushiftRight_zero]
  rfl

theorem slotNumGet_eq : bootChainRegSlotNumGet reg = get32 16 3 reg := rfl
theorem bRetryCountGet_eq : bootChainRegBRetryCountGet reg = get32 22 4 reg := rfl
theorem aRetryCountGet_eq : bootChainRegARetryCountGet reg = get32 26 4 reg := rfl
theorem updateFlagGet_eq : bootChainRegUpdateFlagGet reg = get32 30 2 reg := rfl

variable (v : UInt32)

theorem slotNumSet_eq : bootChainRegSlotNumSet v reg = set32 16 3 v reg := rfl
theorem maxSlotsSet_eq : bootChainRegMaxSlotsSet v reg = set32 19 3 v reg := rfl
theorem bRetryCountSet_eq : bootChainRegBRetryCountSet v reg = set32 22 4 v reg := rfl
theorem aRetryCountSet_eq : bootChainRegARetryCountSet v reg = set32 26 4 v reg := rfl
theorem updateFlagSet_eq : bootChainRegUpdateFlagSet v reg = set32 30 2 v reg := rfl

theorem rfMagicGet_eq : rootfsAbRegMagicGet reg = get32 0 16 reg := magicGet_eq reg

theorem rotateGet_eq : rootfsAbRegRotateCountGet reg = get32 16 4 reg :=
  congrArg UInt32.ofBitVec (shift_mask (s := 16) (w := 4) reg.toBitVec)

theorem rfRetryGet_eq : rootfsAbRegRetryCountGet reg = get32 20 2 reg :=
  congrArg UInt32.ofBitVec (shift_mask (s := 20) (w := 2) reg.toBitVec)

theorem rotateSet_eq : rootfsAbRegRotateCountSet v reg = set32 16 4 v reg := rfl
theorem rfRetrySet_eq : rootfsAbRegRetryCountSet v reg = set32 20 2 v reg := rfl

end

theorem toUInt8_mask : (mask32 4).toUInt8 = 15 := rfl

theorem nibble_small {c : UInt8} (small : c ≤ 15) : c &&& 15 = c := by
  have bound : c.toNat < 2 ^ 4 := Nat.lt_succ_of_le small
  apply UInt8.toNat_inj.mp
  rw [UInt8.toNat_and]
  exact Nat.and_two_pow_sub_one_of_lt_two_pow bound

theorem eq_zero_or_one {slot : Nat} (valid : slot < 2) : slot = 0 ∨ slot = 1 := by omega

section
variable (slot i : Nat) (c : UInt8) (reg : UInt32)

theorem getRetryCountReg_set {slot i : Nat} (valid : slot < 2) (valid' : i < 2) :
    tegrablABGetRetryCountReg i (tegrablABSetRetryCountReg slot c reg) =
      if i = slot then c &&& 15 else tegrablABGetRetryCountReg i reg := by
  unfold tegrablABGetRetryCountReg tegrablABSetRetryCountReg
  rcases eq_zero_or_one valid with rfl | rfl <;> rcases eq_zero_or_one valid' with rfl | rfl <;>
    simp (disch := decide) [bRetryCountGet_eq, aRetryCountGet_eq, aRetryCountSet_eq,
      bRetryCountSet_eq, get32_set32_other, get32_set32_same, toUInt8_mask]

end

section
variable (smd : SlotMetaDataV2) (beyond : Nat → UInt8) (slot : Nat) (reg : UInt32)

@[simp] theorem magicGet_save : bootChainRegMagicGet (tegrablABSaveBootSlotReg smd beyond slot reg) =
      bootChainRegMagicGet reg := by
  unfold tegrablABSaveBootSlotReg copyRetryCountToReg
  dsimp only
  split_ifs <;> simp (disch := decide) only [magicGet_eq, slotNumSet_eq, maxSlotsSet_eq,
    aRetryCountSet_eq, bRetryCountSet_eq, updateFlagSet_eq, get32_set32_other]

theorem slotNumGet_save : bootChainRegSlotNumGet (tegrablABSaveBootSlotReg smd beyond slot reg) =
    UInt32.ofNat slot &&& mask32 3 := by
  unfold tegrablABSaveBootSlotReg copyRetryCountToReg
  dsimp only
  split_ifs <;> simp (disch := decide) only [slotNumGet_eq, slotNumSet_eq, maxSlotsSet_eq,
    aRetryCountSet_eq, bRetryCountSet_eq, updateFlagSet_eq, get32_set32_other, get32_set32_same]

theorem slotNumGet_save_valid {slot : Nat} (valid : slot < 2) :
    (bootChainRegSlotNumGet (tegrablABSaveBootSlotReg smd beyond slot reg)).toNat = slot := by
  rw [slotNumGet_save]
  rcases eq_zero_or_one valid with rfl | rfl <;> rfl

theorem getRetryCountReg_save {i : Nat} (valid : i < 2) :
    tegrablABGetRetryCountReg i (tegrablABSaveBootSlotReg smd beyond slot reg) = (smd.slot i).retryCount &&& 15 := by
  unfold tegrablABGetRetryCountReg tegrablABSaveBootSlotReg copyRetryCountToReg
  dsimp only
  rcases eq_zero_or_one valid with rfl | rfl <;> split_ifs <;>
    simp (disch := decide) [bRetryCountGet_eq, aRetryCountGet_eq, aRetryCountSet_eq,
      bRetryCountSet_eq, updateFlagSet_eq, get32_set32_other, get32_set32_same, toUInt8_mask] at *

theorem updateFlagGet_save : bootChainRegUpdateFlagGet (tegrablABSaveBootSlotReg smd beyond slot reg) =
      if (smd.slotInfoAt beyond slot).bootSuccessful = 0 then bcFlagOtaOn
      else if bootctrlSupportRedundancy smd.smd.version then bcFlagRedundancyBoot
      else bootChainRegUpdateFlagGet reg := by
  unfold tegrablABSaveBootSlotReg copyRetryCountToReg
  dsimp only
  split_ifs
  · simp (disch := decide) only [updateFlagGet_eq, updateFlagSet_eq, get32_set32_same]
    rfl
  · simp (disch := decide) only [updateFlagGet_eq, updateFlagSet_eq, get32_set32_same]
    rfl
  · simp (disch := decide) only [updateFlagGet_eq, slotNumSet_eq, maxSlotsSet_eq,
      aRetryCountSet_eq, bRetryCountSet_eq, get32_set32_other]

end

namespace SlotMetaDataV2
variable (smd : SlotMetaDataV2) (s : Nat) (f : BootSlotInfo → BootSlotInfo)

theorem slot_modifySlot {s i : Nat} (valid : s < 2) (valid' : i < 2) :
    (smd.modifySlot s f).slot i = if i = s then f (smd.slot i) else smd.slot i := by
  rcases eq_zero_or_one valid with rfl | rfl <;> rcases eq_zero_or_one valid' with rfl | rfl <;> rfl

theorem slotInfoAt_valid (beyond : Nat → UInt8) {i : Nat} (valid : i < 2) :
    smd.slotInfoAt beyond i = smd.slot i := if_pos valid

end SlotMetaDataV2

theorem slot_copyRetryCount (smd : SlotMetaDataV2) (reg : UInt32) {i : Nat} (valid : i < 2) :
    (copyRetryCountToSmd smd reg).slot i = { smd.slot i with retryCount := tegrablABGetRetryCountReg i reg } := by
  rcases eq_zero_or_one valid with rfl | rfl <;> rfl

theorem otherSlot_lt (slot : Nat) : otherSlot slot < 2 := by
  unfold otherSlot
  split <;> omega

theorem otherSlot_ne (slot : Nat) : otherSlot slot ≠ slot := by
  unfold otherSlot
  split <;> omega

theorem otherSlot_otherSlot {slot : Nat} (valid : slot < 2) : otherSlot (otherSlot slot) = slot := by
  rcases eq_zero_or_one valid with rfl | rfl <;> rfl

def BootSlotInfo.Bootable (info : BootSlotInfo) : Prop := info.retryCount ≠ 0 ∧ info.priority ≠ 0

instance (info : BootSlotInfo) : Decidable info.Bootable := inferInstanceAs (Decidable (_ ∧ _))

theorem getActiveSlot_two {smd : SlotMetaDataV2} (beyond : Nat → UInt8)
    (magic : smd.smd.magic = bootChainMagic) (two : smd.smd.numSlots = 2) : tegrablABGetActiveSlot smd beyond =
      if (smd.slot 1).Bootable ∧ ((smd.slot 0).Bootable → (smd.slot 0).priority < (smd.slot 1).priority) then .ok 1
      else if (smd.slot 0).Bootable then .ok 0 else .error .invalid := by
  have first : smd.slotInfoAt beyond 0 = smd.slot 0 := smd.slotInfoAt_valid beyond (by decide)
  have second : smd.slotInfoAt beyond 1 = smd.slot 1 := smd.slotInfoAt_valid beyond (by decide)
  have count : smd.smd.numSlots.toNat = 2 := by
    rw [two]
    rfl
  unfold tegrablABGetActiveSlot bootChainGetBootslotFromSmd
  rw [if_neg (not_not.mpr magic), count]
  have one : highestPriority (smd.slotInfoAt beyond) 1 =
      if (smd.slot 0).Bootable then ((smd.slot 0).priority, 0) else (0, 0) := by
    simp only [highestPriority, first, BootSlotInfo.Bootable]
    by_cases retry : (smd.slot 0).retryCount = 0 <;> by_cases priority : (smd.slot 0).priority = 0 <;>
      simp [retry, priority, UInt8.pos_iff_ne_zero]
  have bootable : ∀ p : UInt8, p < (smd.slot 1).priority → (smd.slot 1).priority ≠ 0 := by
    intro p below same
    rw [same] at below
    exact absurd below UInt8.not_lt_zero
  simp only [highestPriority.eq_2 _ 1, one, second]
  by_cases zero : (smd.slot 0).Bootable
  · have positive := zero.2
    simp only [zero, if_true, true_implies]
    by_cases higher : (smd.slot 0).priority < (smd.slot 1).priority
    · have nonzero := bootable _ higher
      by_cases retry : (smd.slot 1).retryCount = 0
      · simp [BootSlotInfo.Bootable, retry, positive]
      · simp [BootSlotInfo.Bootable, retry, nonzero, higher]
    · simp [higher, positive]
  · simp only [zero, if_false, false_implies, and_true]
    by_cases one : (smd.slot 1).Bootable
    · have nonzero := one.2
      have retry := one.1
      simp [one, retry, nonzero, UInt8.pos_iff_ne_zero]
    · have refused : ¬ ((smd.slot 1).retryCount ≠ 0 ∧ (smd.slot 1).priority ≠ 0 ∧
          0 < (smd.slot 1).priority) := fun bootable => one ⟨bootable.1, bootable.2.1⟩
      rw [if_neg one, if_neg refused]
      rfl

section
variable {smd : SlotMetaDataV2} (beyond : Nat → UInt8)

theorem active_spec (magic : smd.smd.magic = bootChainMagic) (two : smd.smd.numSlots = 2) {slot : Nat}
    (active : tegrablABGetActiveSlot smd beyond = .ok slot) :
    slot < 2 ∧ (smd.slot slot).Bootable ∧ ((smd.slot (otherSlot slot)).Bootable →
      ¬ (smd.slot slot).priority < (smd.slot (otherSlot slot)).priority) := by
  rw [getActiveSlot_two beyond magic two] at active
  split_ifs at active with second first
  · cases active
    refine ⟨by decide, second.1, ?_⟩
    intro bootable lower
    exact absurd lower (UInt8.lt_asymm (second.2 bootable))
  · cases active
    refine ⟨by decide, first, ?_⟩
    intro bootable lower
    exact second ⟨bootable, fun _ => lower⟩

theorem active_bootable (magic : smd.smd.magic = bootChainMagic) (two : smd.smd.numSlots = 2)
    (bootable : ∀ i < 2, (smd.slot i).Bootable) : tegrablABGetActiveSlot smd beyond =
      .ok (if (smd.slot 0).priority < (smd.slot 1).priority then 1 else 0) := by
  rw [getActiveSlot_two beyond magic two]
  by_cases lower : (smd.slot 0).priority < (smd.slot 1).priority
  · rw [if_pos ⟨bootable 1 (by decide), fun _ => lower⟩, if_pos lower]
  · have stays : ¬ ((smd.slot 1).Bootable ∧ ((smd.slot 0).Bootable → (smd.slot 0).priority < (smd.slot 1).priority)) :=
      fun higher => lower (higher.2 (bootable 0 (by decide)))
    rw [if_neg stays, if_pos (bootable 0 (by decide)), if_neg lower]

end

section
variable (smd : SlotMetaDataV2)

theorem maxRetryCount_bounds :
    0 < (tegrablGetMaxRetryCount smd).toNat ∧ (tegrablGetMaxRetryCount smd).toNat ≤ 7 := by
  unfold tegrablGetMaxRetryCount
  dsimp only
  generalize (if bootChainVersionGet (tegrablABGetVersion smd) < bootChainVersionRootfsAb then
    slotRetryCountDefault else smd.smdExt.maxBlRetryCount) = count
  split
  · decide
  · rename_i valid
    rw [not_or] at valid
    obtain ⟨zero, above⟩ := valid
    constructor
    · exact Nat.pos_of_ne_zero fun none => zero (UInt8.toNat_inj.mp none)
    · exact UInt8.le_iff_toNat_le.mp (UInt8.not_lt.mp above)

theorem maxRetryCount_nibble :
    tegrablGetMaxRetryCount smd &&& 15 = tegrablGetMaxRetryCount smd := by
  have bounds := maxRetryCount_bounds smd
  exact nibble_small (UInt8.le_iff_toNat_le.mpr (bounds.2.trans (by decide)))

theorem maxRetryCount_ne_zero : tegrablGetMaxRetryCount smd ≠ 0 := by
  intro zero
  have positive := (maxRetryCount_bounds smd).1
  rw [zero] at positive
  exact absurd positive (by decide)

theorem maxRotateCount_cases : getMaxRotateCount smd = 2 ∨ getMaxRotateCount smd = 4 := by
  obtain ⟨positive, small⟩ := maxRetryCount_bounds smd
  unfold getMaxRotateCount
  dsimp only
  generalize tegrablGetMaxRetryCount smd = count at positive small
  have all : ∀ c < 8, 0 < c →
      (if UInt8.ofNat c * 2 < rootfsAbRotateCount then UInt8.ofNat c * 2 else rootfsAbRotateCount) = 2 ∨
      (if UInt8.ofNat c * 2 < rootfsAbRotateCount then UInt8.ofNat c * 2 else rootfsAbRotateCount) = 4 := by
    decide
  have found := all count.toNat (by omega) positive
  rwa [UInt8.ofNat_toNat] at found

end

section
variable {smd smd' : SlotMetaDataV2}

theorem maxRetryCount_congr (sameVersion : smd'.smd.version = smd.smd.version)
    (sameMax : smd'.smdExt.maxBlRetryCount = smd.smdExt.maxBlRetryCount) :
    tegrablGetMaxRetryCount smd' = tegrablGetMaxRetryCount smd := by
  unfold tegrablGetMaxRetryCount tegrablABGetVersion
  rw [sameVersion, sameMax]

theorem maxRotateCount_congr (sameVersion : smd'.smd.version = smd.smd.version)
    (sameMax : smd'.smdExt.maxBlRetryCount = smd.smdExt.maxBlRetryCount) :
    getMaxRotateCount smd' = getMaxRotateCount smd := by
  unfold getMaxRotateCount
  rw [maxRetryCount_congr sameVersion sameMax]

end

end Cboot.Smd
