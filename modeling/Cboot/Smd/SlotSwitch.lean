import Cboot.Smd.Rotation

/-!
`tegrabl_a_b_set_active_slot` edits the buffer, while the boot slot register still holds the slot and the retry counts
of the start of the boot.
-/

namespace Cboot.Smd
open Lib

/-- The buffer after `tegrabl_a_b_set_active_slot` calls. -/
def edited (smd : SlotMetaDataV2) (slotIds : List Nat) : SlotMetaDataV2 :=
  slotIds.foldl (fun smd slotId => orUnchanged smd (tegrablABSetActiveSlot smd slotId)) smd

def RedundancyBoot (smd : SlotMetaDataV2) (slot : Nat) : Prop :=
  (smd.slot slot).bootSuccessful ≠ 0 ∧ bootctrlSupportRedundancy smd.smd.version = true

def RotateDue (smd : SlotMetaDataV2) (rfReg : UInt32) : Prop :=
  nextRotate rfReg = getMaxRotateCount smd / 2 ∨ nextRotate rfReg = getMaxRotateCount smd

theorem setActiveSlot_eq (smd : SlotMetaDataV2) {slotId : Nat} (valid : slotId < 2) :
    tegrablABSetActiveSlot smd slotId =
      .ok (((smd.modifySlot 0 lowerPriority).modifySlot 1 lowerPriority).modifySlot slotId fun info =>
        { info with
          priority := slotPriorityDefault
          retryCount := tegrablGetMaxRetryCount smd
          bootSuccessful := 0 }) := by
  rcases eq_zero_or_one valid with rfl | rfl <;> rfl

theorem slotsOnly_setActiveSlot (smd : SlotMetaDataV2) (slotId : Nat) :
    SlotsOnly smd (orUnchanged smd (tegrablABSetActiveSlot smd slotId)) := by
  by_cases valid : slotId < 2
  · rw [setActiveSlot_eq smd valid]
    exact ⟨rfl, rfl, rfl, rfl⟩
  · have past : maxSlots.toNat ≤ slotId := Nat.not_lt.mp valid
    unfold tegrablABSetActiveSlot
    rw [if_pos past]
    exact .refl smd

theorem slotsOnly_edited (smd : SlotMetaDataV2) (slotIds : List Nat) : SlotsOnly smd (edited smd slotIds) := by
  induction slotIds generalizing smd with
  | nil => exact .refl smd
  | cons slotId slotIds ih => exact (slotsOnly_setActiveSlot smd slotId).trans (ih _)

section
variable {smd : SlotMetaDataV2} (beyond : Nat → UInt8) {slot : Nat} (oldReg : UInt32)

theorem flag_redundancyBoot (valid : slot < 2) :
    bootChainRegUpdateFlagGet (tegrablABSaveBootSlotReg smd beyond slot oldReg) = bcFlagRedundancyBoot ∧
      bootctrlSupportRedundancy smd.smd.version = true ↔ RedundancyBoot smd slot := by
  unfold RedundancyBoot
  rw [updateFlagGet_save, SlotMetaDataV2.slotInfoAt_valid _ _ valid]
  by_cases failed : (smd.slot slot).bootSuccessful = 0
  · rw [if_pos failed]
    exact ⟨fun both => absurd both.1 (by decide), fun both => absurd failed both.1⟩
  · rw [if_neg failed]
    constructor
    · exact fun both => ⟨failed, both.2⟩
    · rintro ⟨-, redundant⟩
      rw [if_pos redundant]
      exact ⟨rfl, redundant⟩

theorem magic_of_requested (requested : updateRequested (tegrablABSaveBootSlotReg smd beyond slot oldReg) = true) :
    bootChainRegMagicGet oldReg = bootChainRegMagic := by
  unfold updateRequested at requested
  rw [magicGet_save, Bool.and_eq_true, beq_iff_eq] at requested
  exact requested.1

theorem requested_redundancyBoot (valid : slot < 2)
    (magic : bootChainRegMagicGet oldReg = bootChainRegMagic) (boot : RedundancyBoot smd slot) :
    updateRequested (tegrablABSaveBootSlotReg smd beyond slot oldReg) = true := by
  have flag := ((flag_redundancyBoot beyond oldReg valid).mpr boot).1
  unfold updateRequested
  rw [flag, magicGet_save, magic]
  decide

end

theorem flushIfChanged_no_hang {st : Storage} {vars : Statics} {first second : WriteEnd} {b : Boot}
    {a : Assertion} : (flushIfChanged st vars first second b).ended ≠ .hang a := by
  unfold flushIfChanged
  split
  · nofun
  · dsimp only
    split <;> nofun

theorem updateLoaded_hang {st : Storage} {vars : Statics} {first second : WriteEnd} {b : Boot}
    {a : Assertion} : (updateLoaded st vars first second b).ended = .hang a ↔
      updateRequested b.bootReg = true ∧ checkIfRedundancyBoot b = .error (.hang a) := by
  unfold updateLoaded
  by_cases requested : updateRequested b.bootReg = true
  · rw [if_pos requested]
    cases checked : checkIfRedundancyBoot b with
    | error stop =>
      cases stop with
      | error e => exact ⟨nofun, fun both => nomatch both.2⟩
      | hang other =>
        constructor
        · intro same
          cases same
          exact ⟨requested, rfl⟩
        · rintro ⟨-, same⟩
          cases same
          rfl
    | ok b' =>
      constructor
      · exact fun hangs => absurd hangs flushIfChanged_no_hang
      · rintro ⟨-, same⟩
        cases same
  · rw [if_neg requested]
    exact ⟨nofun, fun both => absurd both.1 requested⟩

/-- The assertion fails exactly when the update comes to a switch away from a boot slot that was
given the lower priority. -/
theorem priority_assertion {smd : SlotMetaDataV2} {beyond : Nat → UInt8} {slot : Nat}
    (magic : smd.smd.magic = bootChainMagic) (two : smd.smd.numSlots = 2)
    (active : tegrablABGetActiveSlot smd beyond = .ok slot) (oldReg : UInt32) {rfReg : UInt32}
    (rfMagic : rootfsAbRegMagicGet rfReg = rootfsAbRegMagic) (slotIds : List Nat) {st : Storage}
    {vars : Statics} (loaded : vars.smdLoadaddress = some (edited smd slotIds)) (first second : WriteEnd) :
    (tegrablABUpdateSmd st vars (tegrablABSaveBootSlotReg smd beyond slot oldReg) rfReg true true
      first second).ended ≠ .hang .priority ↔
    ¬ (bootChainRegMagicGet oldReg = bootChainRegMagic ∧ RedundancyBoot smd slot ∧
      userRedundancy smd.smd.version = true ∧ RotateDue smd rfReg ∧ (smd.slot (otherSlot slot)).retryCount &&& 15 ≠ 0 ∧
      ((edited smd slotIds).slot slot).priority ≠ 0 ∧ ((edited smd slotIds).slot slot).priority <
        ((edited smd slotIds).slot (otherSlot slot)).priority) := by
  obtain ⟨valid, -, -⟩ := active_spec beyond magic two active
  obtain ⟨ext, -, version, -⟩ := slotsOnly_edited smd slotIds
  have rotate : getMaxRotateCount (edited smd slotIds) = getMaxRotateCount smd :=
    maxRotateCount_congr version (congrArg _ ext)
  generalize edited smd slotIds = buffer at *
  have nonzero : (buffer.slot slot).priority < (buffer.slot (otherSlot slot)).priority →
      (buffer.slot (otherSlot slot)).priority ≠ 0 := by
    intro lower zero
    rw [zero] at lower
    exact absurd lower UInt8.not_lt_zero
  have switches : Switches buffer (tegrablABSaveBootSlotReg smd beyond slot oldReg) rfReg slot ↔
      RotateDue smd rfReg ∧ (smd.slot (otherSlot slot)).retryCount &&& 15 ≠ 0 ∧
        (buffer.slot slot).priority ≠ 0 ∧ (buffer.slot (otherSlot slot)).priority ≠ 0 := by
    unfold Switches RotateDue
    rw [rotate, getRetryCountReg_save smd beyond slot oldReg (otherSlot_lt slot)]
  rw [updateSmd_loaded loaded, ne_eq, updateLoaded_hang, checkIfRedundancyBoot_eq]
  dsimp only
  rw [version]
  apply not_congr
  by_cases boot : RedundancyBoot smd slot
  · have flag := (flag_redundancyBoot beyond oldReg valid).mpr boot
    rw [if_pos flag]
    cases user : userRedundancy smd.smd.version with
    | false =>
      rw [if_neg (by decide)]
      exact ⟨fun both => (nomatch both.2), fun all => (nomatch all.2.2.1)⟩
    | true =>
      have check := checkUser_eq
        (b := ⟨tegrablABSaveBootSlotReg smd beyond slot oldReg, rfReg, buffer⟩)
        (slotNumGet_save_valid smd beyond oldReg valid) valid rfMagic
      rw [if_pos rfl, check]
      constructor
      · rintro ⟨requested, hangs⟩
        split at hangs
        · rename_i both
          obtain ⟨due, retry, priority, -⟩ := switches.mp both.1
          have lower := both.2
          exact ⟨magic_of_requested beyond oldReg requested, boot, rfl, due, retry, priority, lower⟩
        · cases hangs
      · rintro ⟨oldMagic, -, -, due, retry, priority, lower⟩
        refine ⟨requested_redundancyBoot beyond oldReg valid oldMagic boot, ?_⟩
        rw [if_pos ⟨switches.mpr ⟨due, retry, priority, nonzero lower⟩, lower⟩]
  · rw [if_neg (mt (flag_redundancyBoot beyond oldReg valid).mp boot)]
    exact ⟨fun both => (nomatch both.2), fun all => absurd all.2.1 boot⟩

def rotatedReg : UInt32 := 0x1FACE

def bootVars (buffer : SlotMetaDataV2) : Statics := ⟨some .primary, some buffer, some redundantImage⟩

theorem active_redundantImage : tegrablABGetActiveSlot redundantImage (fun _ => 0) = .ok 0 :=
  getActiveSlot_two _ rfl rfl

/-- Without an edit the boot slot has the higher priority. -/
theorem priority_assertion_unedited : (tegrablABUpdateSmd redundantDevice.store (bootVars redundantImage)
      (tegrablABSaveBootSlotReg redundantImage (fun _ => 0) 0 0xCAFE) rotatedReg true true .done
      .done).ended ≠ .hang .priority := by
  apply (priority_assertion rfl rfl active_redundantImage 0xCAFE (by decide) [] rfl .done .done).mpr
  rintro ⟨-, -, -, -, -, -, lower⟩
  exact absurd lower (by decide)

/-- The slot is switched in the boot in which the rotate count comes to two. -/
theorem priority_assertion_set_active : redundantImage.smd.magic = bootChainMagic ∧ redundantImage.smd.numSlots = 2 ∧
    tegrablABGetActiveSlot redundantImage (fun _ => 0) = .ok 0 ∧ rootfsAbRegMagicGet rotatedReg = rootfsAbRegMagic ∧
    (tegrablABUpdateSmd redundantDevice.store (bootVars (edited redundantImage [1]))
      (tegrablABSaveBootSlotReg redundantImage (fun _ => 0) 0 0xCAFE) rotatedReg true true .done
      .done).ended = .hang .priority := by
  refine ⟨rfl, rfl, active_redundantImage, by decide, ?_⟩
  rw [updateSmd_loaded rfl, updateLoaded_hang]
  exact ⟨by decide, rfl⟩

def Survives (smd : SlotMetaDataV2) (slotId : Nat) : Prop :=
  tegrablABIsUnbootable smd slotId = .ok false ∧ (smd.slot slotId).retryCount = tegrablGetMaxRetryCount smd ∧
    ∀ beyond, tegrablABGetActiveSlot smd beyond = .ok slotId

def SwitchDue (smd : SlotMetaDataV2) (slot : Nat) (rfReg : UInt32) (slotId : Nat) : Prop :=
  RedundancyBoot smd slot ∧ userRedundancy smd.smd.version = true ∧ RotateDue smd rfReg ∧
    (smd.slot (otherSlot slot)).retryCount &&& 15 ≠ 0 ∧ (smd.slot (otherSlot slotId)).priority ≠ 0

def Outranks (smd : SlotMetaDataV2) (slotId : Nat) : Prop :=
  16 < (smd.slot (otherSlot slotId)).priority ∨ (smd.slot (otherSlot slotId)).priority = 16 ∧ slotId = 1

def Beats (slotId : Nat) (priority other : UInt8) : Prop :=
  if slotId = 0 then ¬ priority < other else other < priority

instance (slotId : Nat) (priority other : UInt8) : Decidable (Beats slotId priority other) :=
  inferInstanceAs (Decidable (if slotId = 0 then ¬ priority < other else other < priority))

section
variable {smd : SlotMetaDataV2} {slotId : Nat}

theorem active_iff (beyond : Nat → UInt8) (magic : smd.smd.magic = bootChainMagic)
    (two : smd.smd.numSlots = 2) (valid : slotId < 2) :
    tegrablABGetActiveSlot smd beyond = .ok slotId ↔ (smd.slot slotId).Bootable ∧
      ((smd.slot (otherSlot slotId)).Bootable →
        Beats slotId (smd.slot slotId).priority (smd.slot (otherSlot slotId)).priority) := by
  rw [getActiveSlot_two beyond magic two]
  rcases eq_zero_or_one valid with rfl | rfl
  · show _ ↔ (smd.slot 0).Bootable ∧ ((smd.slot 1).Bootable → ¬ (smd.slot 0).priority < (smd.slot 1).priority)
    by_cases second : (smd.slot 1).Bootable <;> by_cases first : (smd.slot 0).Bootable <;>
      by_cases lower : (smd.slot 0).priority < (smd.slot 1).priority <;> simp [first, second, lower]
  · show _ ↔ (smd.slot 1).Bootable ∧ ((smd.slot 0).Bootable → (smd.slot 0).priority < (smd.slot 1).priority)
    by_cases second : (smd.slot 1).Bootable <;> by_cases first : (smd.slot 0).Bootable <;>
      by_cases lower : (smd.slot 0).priority < (smd.slot 1).priority <;> simp [first, second, lower]

theorem survives_iff (magic : smd.smd.magic = bootChainMagic) (two : smd.smd.numSlots = 2)
    (valid : slotId < 2) : Survives smd slotId ↔
      (smd.slot slotId).retryCount = tegrablGetMaxRetryCount smd ∧ (smd.slot slotId).priority ≠ 0 ∧
      ((smd.slot (otherSlot slotId)).Bootable →
        Beats slotId (smd.slot slotId).priority (smd.slot (otherSlot slotId)).priority) := by
  constructor
  · rintro ⟨-, full, active⟩
    obtain ⟨bootable, beats⟩ := (active_iff (fun _ => 0) magic two valid).mp (active _)
    exact ⟨full, bootable.2, beats⟩
  · rintro ⟨full, priority, beats⟩
    have bootable : (smd.slot slotId).Bootable := by
      refine ⟨?_, priority⟩
      rw [full]
      exact maxRetryCount_ne_zero smd
    exact ⟨notUnbootable valid bootable, full, fun beyond => (active_iff beyond magic two valid).mpr ⟨bootable, beats⟩⟩

theorem lowerPriority_toNat (info : BootSlotInfo) : (lowerPriority info).priority.toNat =
    if 1 < info.priority.toNat then info.priority.toNat - 1 else info.priority.toNat := by
  unfold lowerPriority
  by_cases above : 1 < info.priority
  · have bound : 1 < info.priority.toNat := UInt8.lt_iff_toNat_lt.mp above
    rw [if_pos above, if_pos bound]
    exact UInt8.toNat_sub_of_le _ _ (UInt8.le_of_lt above)
  · have bound : ¬ 1 < info.priority.toNat := fun more => above (UInt8.lt_iff_toNat_lt.mpr more)
    rw [if_neg above, if_neg bound]

theorem lowerPriority_ne_zero (info : BootSlotInfo) : (lowerPriority info).priority ≠ 0 ↔ info.priority ≠ 0 := by
  have lowered := lowerPriority_toNat info
  rw [ne_eq, ne_eq, ← UInt8.toNat_inj, ← UInt8.toNat_inj, lowered]
  show ¬ _ = 0 ↔ ¬ _ = 0
  split <;> omega

theorem lowerPriority_retryCount (info : BootSlotInfo) : (lowerPriority info).retryCount = info.retryCount := by
  unfold lowerPriority
  split <;> rfl

theorem not_beats_iff (smd : SlotMetaDataV2) (valid : slotId < 2) :
    ¬ Beats slotId 15 (lowerPriority (smd.slot (otherSlot slotId))).priority ↔ Outranks smd slotId := by
  have lowered := lowerPriority_toNat (smd.slot (otherSlot slotId))
  unfold Beats Outranks
  rw [UInt8.lt_iff_toNat_lt, UInt8.lt_iff_toNat_lt, UInt8.lt_iff_toNat_lt, ← UInt8.toNat_inj, lowered]
  generalize (smd.slot (otherSlot slotId)).priority.toNat = p
  rcases eq_zero_or_one valid with rfl | rfl
  · show ¬ ¬ 15 < _ ↔ 16 < p ∨ p = 16 ∧ _
    split <;> omega
  · show ¬ _ < 15 ↔ 16 < p ∨ p = 16 ∧ _
    split <;> omega

end

section
variable {smd buffer : SlotMetaDataV2} {slotId : Nat}

theorem slot_setActive (validId : slotId < 2) (set : tegrablABSetActiveSlot smd slotId = .ok buffer) :
    ((buffer.slot slotId).priority = 15 ∧ (buffer.slot slotId).retryCount = tegrablGetMaxRetryCount smd) ∧
    buffer.slot (otherSlot slotId) = lowerPriority (smd.slot (otherSlot slotId)) := by
  rw [setActiveSlot_eq smd validId] at set
  cases set
  rcases eq_zero_or_one validId with rfl | rfl <;> exact ⟨⟨rfl, rfl⟩, rfl⟩

theorem slotsOnly_setActive (set : tegrablABSetActiveSlot smd slotId = .ok buffer) : SlotsOnly smd buffer := by
  have only := slotsOnly_setActiveSlot smd slotId
  rw [set] at only
  exact only

variable {final : SlotMetaDataV2} {beyond : Nat → UInt8} {slot : Nat} {oldReg rfReg : UInt32}

/-- What the check leaves of the edited buffer, before the retry counts are copied. -/
structure Checked (smd : SlotMetaDataV2) (slot : Nat) (buffer : SlotMetaDataV2) (rfReg : UInt32)
    (slotId : Nat) (final : SlotMetaDataV2) : Prop where
  only : SlotsOnly smd final
  switched : SwitchDue smd slot rfReg slotId → ∀ i < 2, (final.slot i).priority = if i = slot then 14 else 15
  kept : ¬ SwitchDue smd slot rfReg slotId → ∀ i < 2, (final.slot i).priority = (buffer.slot i).priority
  restored : ∀ i < 2, RedundancyBoot smd slot ∧ i = slot → (final.slot i).retryCount = tegrablGetMaxRetryCount smd
  saved : ∀ i < 2, ¬ (RedundancyBoot smd slot ∧ i = slot) → (final.slot i).retryCount = (smd.slot i).retryCount &&& 15

theorem survives_checked (magic : smd.smd.magic = bootChainMagic) (two : smd.smd.numSlots = 2)
    (valid : slot < 2) (validId : slotId < 2) (set : tegrablABSetActiveSlot smd slotId = .ok buffer)
    (checked : Checked smd slot buffer rfReg slotId final) : Survives final slotId ↔
      (RedundancyBoot smd slot ∧ slotId = slot ∨ (smd.slot slotId).retryCount &&& 15 = tegrablGetMaxRetryCount smd) ∧
      (SwitchDue smd slot rfReg slotId → slotId ≠ slot) ∧ (¬ SwitchDue smd slot rfReg slotId →
        ¬ ((RedundancyBoot smd slot ∧ otherSlot slotId = slot ∨
          (smd.slot (otherSlot slotId)).retryCount &&& 15 ≠ 0) ∧ Outranks smd slotId)) := by
  obtain ⟨⟨priority, -⟩, other⟩ := slot_setActive validId set
  obtain ⟨ext, sameMagic, version, numSlots⟩ := checked.only
  have validOther := otherSlot_lt slotId
  have max : tegrablGetMaxRetryCount final = tegrablGetMaxRetryCount smd :=
    maxRetryCount_congr version (congrArg _ ext)
  have full : (final.slot slotId).retryCount = tegrablGetMaxRetryCount final ↔
      (RedundancyBoot smd slot ∧ slotId = slot ∨
        (smd.slot slotId).retryCount &&& 15 = tegrablGetMaxRetryCount smd) := by
    rw [max]
    by_cases current : RedundancyBoot smd slot ∧ slotId = slot
    · exact ⟨fun _ => .inl current, fun _ => checked.restored _ validId current⟩
    · rw [checked.saved _ validId current]
      exact ⟨.inr, fun either => either.resolve_left current⟩
  have otherRetry : (final.slot (otherSlot slotId)).retryCount ≠ 0 ↔
      (RedundancyBoot smd slot ∧ otherSlot slotId = slot ∨ (smd.slot (otherSlot slotId)).retryCount &&& 15 ≠ 0) := by
    by_cases current : RedundancyBoot smd slot ∧ otherSlot slotId = slot
    · rw [checked.restored _ validOther current]
      exact ⟨fun _ => .inl current, fun _ => maxRetryCount_ne_zero smd⟩
    · rw [checked.saved _ validOther current]
      exact ⟨.inr, fun either => either.resolve_left current⟩
  rw [survives_iff (sameMagic.trans magic) (numSlots.trans two) validId, full]
  apply and_congr_right
  intro _
  by_cases due : SwitchDue smd slot rfReg slotId
  · have first := checked.switched due slotId validId
    have second := checked.switched due (otherSlot slotId) validOther
    by_cases same : slotId = slot
    · have boots : (final.slot (otherSlot slotId)).retryCount ≠ 0 := by
        rw [otherRetry, same]
        exact .inr due.2.2.2.1
      rw [if_pos same] at first
      rw [if_neg (same ▸ otherSlot_ne slotId)] at second
      rw [first, second]
      constructor
      · rintro ⟨-, beats⟩
        have lost : Beats slotId 14 15 := beats ⟨boots, by rw [second]; decide⟩
        rcases eq_zero_or_one validId with rfl | rfl <;> exact absurd lost (by decide)
      · exact fun stays => absurd same (stays.1 due)
    · have other : otherSlot slotId = slot := by
        rcases eq_zero_or_one valid with rfl | rfl <;> rcases eq_zero_or_one validId with rfl | rfl <;>
          first | rfl | exact absurd rfl same
      rw [if_neg same] at first
      rw [if_pos other] at second
      rw [first, second]
      have wins : Beats slotId 15 14 := by
        rcases eq_zero_or_one validId with rfl | rfl <;> decide
      exact ⟨fun _ => ⟨fun _ => same, fun stays => absurd due stays⟩, fun _ => ⟨by decide, fun _ => wins⟩⟩
  · have first := (checked.kept due slotId validId).trans priority
    have second := checked.kept due (otherSlot slotId) validOther
    rw [other] at second
    have outranks := not_beats_iff smd validId
    rw [first, second]
    constructor
    · rintro ⟨-, beats⟩
      refine ⟨fun stays => absurd stays due, ?_⟩
      rintro - ⟨boots, outranked⟩
      have lost := outranks.mpr outranked
      apply lost
      apply beats
      refine ⟨otherRetry.mpr boots, ?_⟩
      rw [second]
      intro zero
      rw [zero] at lost
      exact lost (by rcases eq_zero_or_one validId with rfl | rfl <;> decide)
    · rintro ⟨-, stays⟩
      refine ⟨by decide, ?_⟩
      rintro bootable
      by_contra lost
      exact stays due ⟨otherRetry.mp bootable.1, outranks.mp lost⟩

theorem priorities_setActive (valid : slot < 2) (validId : slotId < 2)
    (set : tegrablABSetActiveSlot smd slotId = .ok buffer) :
    (buffer.slot slot).priority ≠ 0 ∧ (buffer.slot (otherSlot slot)).priority ≠ 0 ↔
      (smd.slot (otherSlot slotId)).priority ≠ 0 := by
  obtain ⟨⟨priority, -⟩, other⟩ := slot_setActive validId set
  have own : (buffer.slot slotId).priority ≠ 0 := by
    rw [priority]
    decide
  rw [← lowerPriority_ne_zero (smd.slot (otherSlot slotId)), ← other]
  rcases eq_zero_or_one valid with rfl | rfl <;> rcases eq_zero_or_one validId with rfl | rfl
  · exact ⟨fun both => both.2, fun second => ⟨own, second⟩⟩
  · exact ⟨fun both => both.1, fun first => ⟨first, own⟩⟩
  · exact ⟨fun both => both.1, fun first => ⟨first, own⟩⟩
  · exact ⟨fun both => both.2, fun second => ⟨own, second⟩⟩

structure SavedReg (smd : SlotMetaDataV2) (slot : Nat) (bootReg : UInt32) : Prop where
  current : (bootChainRegSlotNumGet bootReg).toNat = slot
  retry : ∀ i < 2, tegrablABGetRetryCountReg i bootReg = (smd.slot i).retryCount &&& 15
  flag : bootChainRegUpdateFlagGet bootReg = bcFlagRedundancyBoot ∧
    bootctrlSupportRedundancy smd.smd.version = true ↔ RedundancyBoot smd slot

theorem savedReg (smd : SlotMetaDataV2) (beyond : Nat → UInt8) (oldReg : UInt32) (valid : slot < 2) :
    SavedReg smd slot (tegrablABSaveBootSlotReg smd beyond slot oldReg) :=
  ⟨slotNumGet_save_valid smd beyond oldReg valid,
    fun _ => getRetryCountReg_save smd beyond slot oldReg, flag_redundancyBoot beyond oldReg valid⟩

variable {bootReg : UInt32}

theorem switches_iff (rfReg : UInt32) (reg : SavedReg smd slot bootReg) (valid : slot < 2)
    (validId : slotId < 2) (set : tegrablABSetActiveSlot smd slotId = .ok buffer) : Switches buffer bootReg rfReg slot ↔
      RotateDue smd rfReg ∧ (smd.slot (otherSlot slot)).retryCount &&& 15 ≠ 0 ∧
        (smd.slot (otherSlot slotId)).priority ≠ 0 := by
  obtain ⟨ext, -, version, -⟩ := slotsOnly_setActive set
  have rotate : getMaxRotateCount buffer = getMaxRotateCount smd :=
    maxRotateCount_congr version (congrArg _ ext)
  unfold Switches RotateDue
  rw [rotate, reg.retry _ (otherSlot_lt slot), priorities_setActive valid validId set]

theorem priority_switched (buffer : SlotMetaDataV2) {i : Nat} (valid : slot < 2) (valid' : i < 2) :
    ((switched buffer slot).slot i).priority = if i = slot then 14 else 15 := by
  rcases eq_zero_or_one valid with rfl | rfl <;> rcases eq_zero_or_one valid' with rfl | rfl <;> rfl

theorem magic_of_checkUser {b b' : Boot} (checked : checkUserRedundancyStatus b = .ok b') :
    rootfsAbRegMagicGet b.rfReg = rootfsAbRegMagic := by
  by_contra absent
  rw [checkUserRedundancyStatus_eq] at checked
  dsimp only at checked
  split_ifs at checked

theorem checked_of {left : SlotMetaDataV2} {reg : UInt32} (only : SlotsOnly smd (copyRetryCountToSmd left reg))
    (full : ∀ i < 2, RedundancyBoot smd slot ∧ i = slot → tegrablABGetRetryCountReg i reg = tegrablGetMaxRetryCount smd)
    (saved : ∀ i < 2, ¬ (RedundancyBoot smd slot ∧ i = slot) →
      tegrablABGetRetryCountReg i reg = (smd.slot i).retryCount &&& 15) (switched : SwitchDue smd slot rfReg slotId →
      ∀ i < 2, (left.slot i).priority = if i = slot then 14 else 15) (kept : ¬ SwitchDue smd slot rfReg slotId →
      ∀ i < 2, (left.slot i).priority = (buffer.slot i).priority) :
    Checked smd slot buffer rfReg slotId (copyRetryCountToSmd left reg) := by
  have slots := fun i valid => slot_copyRetryCount left reg (i := i) valid
  refine ⟨only, ?_, ?_, ?_, ?_⟩
  · intro due i valid
    rw [slots i valid]
    exact switched due i valid
  · intro stays i valid
    rw [slots i valid]
    exact kept stays i valid
  · intro i valid current
    rw [slots i valid]
    exact full i valid current
  · intro i valid other
    rw [slots i valid]
    exact saved i valid other

theorem checked_update {b : Boot} (reg : SavedReg smd slot bootReg) (valid : slot < 2)
    (validId : slotId < 2) (set : tegrablABSetActiveSlot smd slotId = .ok buffer)
    (checked : checkIfRedundancyBoot ⟨bootReg, rfReg, buffer⟩ = .ok b) :
    Checked smd slot buffer rfReg slotId (copyRetryCountToSmd b.smd b.bootReg) := by
  have only := (slotsOnly_setActive set).trans
    ((slotsOnly_check checked).trans (slotsOnly_copyRetryCount b.smd b.bootReg))
  obtain ⟨ext, -, version, -⟩ := slotsOnly_setActive set
  have max : tegrablGetMaxRetryCount buffer = tegrablGetMaxRetryCount smd :=
    maxRetryCount_congr version (congrArg _ ext)
  have restored : ∀ i < 2, tegrablABGetRetryCountReg i (restoreRetryCount ⟨bootReg, rfReg, buffer⟩).bootReg =
      if i = slot then tegrablGetMaxRetryCount smd else (smd.slot i).retryCount &&& 15 := by
    intro i valid'
    rw [getRetryCountReg_restore (b := ⟨bootReg, rfReg, buffer⟩) reg.current valid valid', max,
      maxRetryCount_nibble, reg.retry i valid']
  have switches := switches_iff rfReg reg valid validId set
  rw [checkIfRedundancyBoot_eq] at checked
  dsimp only at checked
  rw [version] at checked
  by_cases boot : RedundancyBoot smd slot
  · rw [if_pos (reg.flag.mpr boot)] at checked
    -- either kind of check restores the retry count of the boot slot
    have counts : b.bootReg = (restoreRetryCount ⟨bootReg, rfReg, buffer⟩).bootReg →
        (∀ i < 2, RedundancyBoot smd slot ∧ i = slot →
          tegrablABGetRetryCountReg i b.bootReg = tegrablGetMaxRetryCount smd) ∧
        ∀ i < 2, ¬ (RedundancyBoot smd slot ∧ i = slot) →
          tegrablABGetRetryCountReg i b.bootReg = (smd.slot i).retryCount &&& 15 := by
      intro same
      rw [same]
      constructor
      · intro i valid' current
        rw [restored i valid', if_pos current.2]
      · intro i valid' other
        rw [restored i valid', if_neg fun same => other ⟨boot, same⟩]
    cases user : userRedundancy smd.smd.version with
    | false =>
      rw [user, if_neg (by decide)] at checked
      have stays : ¬ SwitchDue smd slot rfReg slotId := by
        rintro ⟨-, yes, -⟩
        exact absurd (user.symm.trans yes) (by decide)
      cases checked
      obtain ⟨full, kept⟩ := counts rfl
      exact checked_of only full kept (fun due => absurd due stays) fun _ _ _ => rfl
    | true =>
      rw [user, if_pos rfl] at checked
      have rfMagic : rootfsAbRegMagicGet rfReg = rootfsAbRegMagic := magic_of_checkUser checked
      rw [checkUser_eq (b := ⟨bootReg, rfReg, buffer⟩) reg.current valid rfMagic] at checked
      split at checked
      · cases checked
      · cases checked
        obtain ⟨full, kept⟩ := counts rfl
        have due : Switches buffer bootReg rfReg slot ↔ SwitchDue smd slot rfReg slotId :=
          switches.trans ⟨fun rest => ⟨boot, user, rest⟩, fun all => all.2.2⟩
        apply checked_of only full kept
        · intro yes i valid'
          dsimp only
          rw [if_pos (due.mpr yes)]
          exact priority_switched buffer valid valid'
        · intro no i valid'
          dsimp only
          rw [if_neg (mt due.mp no)]
  · rw [if_neg (mt reg.flag.mp boot)] at checked
    have stays : ¬ SwitchDue smd slot rfReg slotId := fun due => boot due.1
    cases checked
    exact checked_of only (fun _ _ current => absurd current.1 boot)
      (fun i valid' _ => reg.retry i valid') (fun due => absurd due stays) fun _ _ _ => rfl

theorem survives_unchecked (magic : smd.smd.magic = bootChainMagic) (two : smd.smd.numSlots = 2)
    (validId : slotId < 2) (set : tegrablABSetActiveSlot smd slotId = .ok buffer) : Survives buffer slotId ↔
      ¬ ((smd.slot (otherSlot slotId)).retryCount ≠ 0 ∧ Outranks smd slotId) := by
  obtain ⟨⟨priority, retry⟩, other⟩ := slot_setActive validId set
  obtain ⟨ext, sameMagic, version, numSlots⟩ := slotsOnly_setActive set
  have max : tegrablGetMaxRetryCount buffer = tegrablGetMaxRetryCount smd :=
    maxRetryCount_congr version (congrArg _ ext)
  have outranks := not_beats_iff smd validId
  rw [survives_iff (sameMagic.trans magic) (numSlots.trans two) validId, priority, retry, max, other]
  constructor
  · rintro ⟨-, -, beats⟩ ⟨boots, outranked⟩
    have lost := outranks.mpr outranked
    apply lost
    apply beats
    refine ⟨(lowerPriority_retryCount _).trans_ne boots, ?_⟩
    intro zero
    rw [zero] at lost
    exact lost (by rcases eq_zero_or_one validId with rfl | rfl <;> decide)
  · intro stays
    refine ⟨rfl, by decide, ?_⟩
    intro bootable
    by_contra lost
    exact stays ⟨(lowerPriority_retryCount _).symm.trans_ne bootable.1, outranks.mp lost⟩

theorem survives_congr {x y : SlotMetaDataV2} (magic : y.smd.magic = bootChainMagic)
    (two : y.smd.numSlots = 2) (validId : slotId < 2) (payload : x.smd.payload = y.smd.payload)
    (max : x.smdExt.maxBlRetryCount = y.smdExt.maxBlRetryCount) : Survives x slotId ↔ Survives y slotId := by
  have sameMagic : x.smd.magic = y.smd.magic := congrArg (·.1) payload
  have version : x.smd.version = y.smd.version := congrArg (·.2.1) payload
  have numSlots : x.smd.numSlots = y.smd.numSlots := congrArg (·.2.2.1) payload
  have slotInfo : x.smd.slotInfo = y.smd.slotInfo := congrArg (·.2.2.2) payload
  have slots : ∀ i, x.slot i = y.slot i := by
    intro i
    unfold SlotMetaDataV2.slot
    rw [slotInfo]
  rw [survives_iff magic two validId, survives_iff (sameMagic.trans magic) (numSlots.trans two) validId, slots, slots,
    maxRetryCount_congr version max]

theorem survives_samePayload {x y : SlotMetaDataV2} (magic : y.smd.magic = bootChainMagic)
    (two : y.smd.numSlots = 2) (validId : slotId < 2) (same : SamePayload x y) :
    Survives x slotId ↔ Survives y slotId :=
  survives_congr magic two validId same.1 (congrArg (·.2.2.2.2.2.2.2.2.1) same.2)

end

def SwitchSurvives (u : Updated) (slotId : Nat) : Prop :=
  (∃ left, u.statics.smdLoadaddress = some left ∧ Survives left slotId) ∧
    ∃ stored, Loads u.store stored ∧ Survives stored slotId

/-- A switch survives an update that returns exactly when the register restores or holds the full
retry count and neither the rotation nor the priority of the other slot turns it back. Without an
update it survives when the slot was the active one before. -/
theorem slot_switch_survives {st : Storage} {vars : Statics} {backup smd buffer : SlotMetaDataV2}
    {slot slotId : Nat} (beyond : Nat → UInt8) (oldReg : UInt32) {rfReg : UInt32}
    (loads : Loads st backup) (kept : vars.smdBackup = some backup)
    (loaded : vars.smdLoadaddress = some buffer) (only : RootfsOnly backup smd)
    (magic : smd.smd.magic = bootChainMagic) (two : smd.smd.numSlots = 2) (valid : slot < 2)
    (validId : slotId < 2) (set : tegrablABSetActiveSlot smd slotId = .ok buffer)
    (returned : (tegrablABUpdateSmd st vars (tegrablABSaveBootSlotReg smd beyond slot oldReg) rfReg
      true true .done .done).ended = .returned (.ok ())) :
    SwitchSurvives (tegrablABUpdateSmd st vars (tegrablABSaveBootSlotReg smd beyond slot oldReg) rfReg
      true true .done .done) slotId ↔ (updateRequested (tegrablABSaveBootSlotReg smd beyond slot oldReg) = true →
      (RedundancyBoot smd slot ∧ slotId = slot ∨ (smd.slot slotId).retryCount &&& 15 = tegrablGetMaxRetryCount smd) ∧
      (SwitchDue smd slot rfReg slotId → slotId ≠ slot) ∧ (¬ SwitchDue smd slot rfReg slotId →
        ¬ ((RedundancyBoot smd slot ∧ otherSlot slotId = slot ∨
          (smd.slot (otherSlot slotId)).retryCount &&& 15 ≠ 0) ∧ Outranks smd slotId))) ∧
    (updateRequested (tegrablABSaveBootSlotReg smd beyond slot oldReg) = false → Survives smd slotId ∧
        ¬ ((smd.slot (otherSlot slotId)).retryCount ≠ 0 ∧ Outranks smd slotId)) := by
  have reg := savedReg smd beyond oldReg valid
  rw [updateSmd_loaded loaded] at returned ⊢
  generalize tegrablABSaveBootSlotReg smd beyond slot oldReg = bootReg at *
  have edit := slotsOnly_setActive set
  cases requested : updateRequested bootReg with
  | false =>
    have same : Survives backup slotId ↔ Survives smd slotId :=
      survives_congr magic two validId (congrArg _ only.smd.symm) only.maxBlRetryCount.symm
    rw [updateLoaded_off requested]
    constructor
    · rintro ⟨⟨left, inMemory, survives⟩, stored, loads', survives'⟩
      cases loaded.symm.trans inMemory
      cases loads_unique loads loads'
      exact ⟨nofun, fun _ => ⟨same.mp survives', (survives_unchecked magic two validId set).mp survives⟩⟩
    · rintro ⟨-, rest⟩
      obtain ⟨before, stays⟩ := rest rfl
      exact ⟨⟨buffer, loaded, (survives_unchecked magic two validId set).mpr stays⟩, backup, loads, same.mpr before⟩
  | true =>
    obtain ⟨b, checked⟩ := checked_of_returned requested returned
    have done := checked_update reg valid validId set checked
    have recognised := edit.recognised (only.recognised (recognised_of_loads loads))
    obtain ⟨updated, after, -, -, stored, loads', same⟩ :=
      updateLoaded_loads loads kept recognised requested checked
    obtain ⟨left, inMemory, same'⟩ := flushIfChanged_buffer st vars
      { b with smd := copyRetryCountToSmd b.smd b.bootReg }
    rw [← updateLoaded_checked requested checked] at inMemory
    have finalMagic := done.only.2.1.trans magic
    have finalTwo := done.only.2.2.2.trans two
    have inStore := survives_samePayload finalMagic finalTwo validId same
    have inBuffer := survives_samePayload finalMagic finalTwo validId same'
    have condition_iff := survives_checked magic two valid validId set done
    constructor
    · rintro ⟨⟨left', inMemory', survives⟩, -⟩
      cases inMemory.symm.trans inMemory'
      exact ⟨fun _ => condition_iff.mp (inBuffer.mp survives), nofun⟩
    · rintro ⟨condition, -⟩
      have survives := condition_iff.mpr (condition rfl)
      refine ⟨⟨left, inMemory, inBuffer.mpr survives⟩, stored, ?_, inStore.mpr survives⟩
      rw [after]
      exact loads'

def otaImage : SlotMetaDataV2 where
  smd := ⟨bootChainMagic, 2, 2, (⟨15, .two 95 97, 7, 0⟩, ⟨14, .two 95 98, 0, 0⟩), 3867099098⟩
  smdExt := ⟨0, 0, 0, 0, 0, (0, 0), (0, 0), 0, (0, 0), 0, .zeros 144⟩

def switchVars (smd : SlotMetaDataV2) : Statics := ⟨some .primary, some (edited smd [1]), some smd⟩

def switchReg (smd : SlotMetaDataV2) : UInt32 := tegrablABSaveBootSlotReg smd (fun _ => 0) 0 0xCAFE

def switchUpdate (smd : SlotMetaDataV2) : Updated :=
  tegrablABUpdateSmd ⟨overwritten erased smd, overwritten erased smd⟩ (switchVars smd) (switchReg smd)
    0xFACE true true .done .done

theorem switchUpdate_returned {smd : SlotMetaDataV2} (valid : (checkSmd smd).toOption = some ())
    (requested : updateRequested (switchReg smd) = true) {b : Boot}
    (checked : checkIfRedundancyBoot ⟨switchReg smd, 0xFACE, edited smd [1]⟩ = .ok b) :
    (switchUpdate smd).ended = .returned (.ok ()) := by
  have loads : Loads ⟨overwritten erased smd, overwritten erased smd⟩ smd := loads_of_check valid _ _
  have recognised := (slotsOnly_edited smd [1]).recognised (recognised_of_loads loads)
  have kept : (switchVars smd).smdBackup = some smd := rfl
  have loaded : (switchVars smd).smdLoadaddress = some (edited smd [1]) := rfl
  obtain ⟨updated, after, returned, -⟩ := updateLoaded_loads
    (b := ⟨switchReg smd, 0xFACE, edited smd [1]⟩) loads kept recognised requested checked
  unfold switchUpdate
  rw [updateSmd_loaded loaded, after]
  exact returned

theorem slot_switch_survives_redundant : (switchUpdate redundantImage).ended = .returned (.ok ()) ∧
      SwitchSurvives (switchUpdate redundantImage) 1 := by
  have loads : Loads ⟨overwritten erased redundantImage, overwritten erased redundantImage⟩
      redundantImage := loads_of_check (by decide +kernel) _ _
  have returned : (switchUpdate redundantImage).ended = .returned (.ok ()) :=
    switchUpdate_returned (by decide +kernel) (by decide) rfl
  have kept : (switchVars redundantImage).smdBackup = some redundantImage := rfl
  have early : ¬ RotateDue redundantImage 0xFACE := by
    unfold RotateDue
    decide
  refine ⟨returned, ?_⟩
  apply (slot_switch_survives (fun _ => 0) 0xCAFE loads kept rfl ⟨rfl, rfl, rfl⟩ rfl rfl (by decide)
    (by decide) rfl returned).mpr
  refine ⟨fun _ => ⟨.inr (by decide), fun due => absurd due.2.2.1 early, ?_⟩, ?_⟩
  · rintro - ⟨-, outranks⟩
    revert outranks
    unfold Outranks
    decide
  · intro off
    exact absurd off (by decide)

/-- The retry count of slot B is copied back from the register, which holds the one of the start of
the boot: the slot that was made active is unbootable. -/
theorem slot_switch_survives_lost : otaImage.smd.magic = bootChainMagic ∧ otaImage.smd.numSlots = 2 ∧
    tegrablABGetActiveSlot otaImage (fun _ => 0) = .ok 0 ∧
    tegrablABSetActiveSlot otaImage 1 = .ok (edited otaImage [1]) ∧ bootChainRegMagicGet 0xCAFE = bootChainRegMagic ∧
    (switchUpdate otaImage).ended = .returned (.ok ()) ∧ ¬ SwitchSurvives (switchUpdate otaImage) 1 := by
  refine ⟨rfl, rfl, getActiveSlot_two _ rfl rfl, rfl, by decide,
    switchUpdate_returned (by decide +kernel) (by decide) rfl, ?_⟩
  rintro ⟨⟨left, inMemory, -, full, -⟩, -⟩
  have loaded : (switchVars otaImage).smdLoadaddress = some (edited otaImage [1]) := rfl
  have requested : updateRequested (switchReg otaImage) = true := by decide
  have checked : checkIfRedundancyBoot ⟨switchReg otaImage, 0xFACE, edited otaImage [1]⟩ =
    .ok ⟨switchReg otaImage, 0xFACE, edited otaImage [1]⟩ := rfl
  unfold switchUpdate at inMemory
  rw [updateSmd_loaded loaded, updateLoaded_checked requested checked] at inMemory
  obtain ⟨left', inMemory', payload, -⟩ := flushIfChanged_buffer
    ⟨overwritten erased otaImage, overwritten erased otaImage⟩ (switchVars otaImage)
    ⟨switchReg otaImage, 0xFACE, copyRetryCountToSmd (edited otaImage [1]) (switchReg otaImage)⟩
  cases inMemory.symm.trans inMemory'
  have slotInfo : left.smd.slotInfo = (copyRetryCountToSmd (edited otaImage [1]) (switchReg otaImage)).smd.slotInfo :=
    congrArg (·.2.2.2) payload
  have spent : (left.slot 1).retryCount = 0 := by
    unfold SlotMetaDataV2.slot
    rw [slotInfo]
    decide
  exact maxRetryCount_ne_zero left (full.symm.trans spent)

end Cboot.Smd
