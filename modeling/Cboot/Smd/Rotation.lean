import Cboot.Smd.Update

/-!
With redundancy of user space, or with unified A/B, a device that never reaches user space tries its slots in turn: half
the maximal rotate count on the slot it started with, half on the other one.
-/

namespace Cboot.Smd
open Lib Lib.BitField

structure FailedBoot where
  slot : Nat
  allUnbootable : Bool
  updated : Updated

/-- One failing boot, on a boot slot register that held `oldReg`. -/
def Device.failingBoot (d : Device) (beyond : Nat → UInt8) (oldReg : UInt32) :
    Except Stop FailedBoot := do
  let smd ← d.get.result.mapError .error
  let slot ← (tegrablABGetActiveSlot smd beyond).mapError .error
  let smd ← (tegrablABCheckAndUpdateRetryCount smd slot).mapError .hang
  let bootReg := tegrablABSaveBootSlotReg smd beyond slot oldReg
  let (allUnbootable, rfReg) ← (tegrablABRootfsIsAllUnbootable smd beyond d.get.rfReg).mapError .hang
  let vars := { d.get.statics with smdLoadaddress := some smd }
  return ⟨slot, allUnbootable, tegrablABUpdateSmd d.store vars bootReg rfReg true true .done .done⟩

def Device.afterFailing (d : Device) (beyond : Nat → UInt8) (oldRegs : Nat → UInt32) :
    Nat → Except Stop Device
  | 0 => .ok d
  | n + 1 => do
    let d ← d.afterFailing beyond oldRegs n
    let boot ← d.failingBoot beyond (oldRegs n)
    return ⟨boot.updated.store, boot.updated.rfReg⟩

structure BootSlotInfo.Fit (info : BootSlotInfo) : Prop where
  retry : info.retryCount ≠ 0
  small : info.retryCount ≤ 15
  priority : info.priority ≠ 0
  successful : info.bootSuccessful ≠ 0

structure Rotating (version : UInt16) (maxBl : UInt8) (smd : SlotMetaDataV2) : Prop where
  magic : smd.smd.magic = bootChainMagic
  two : smd.smd.numSlots = 2
  version : smd.smd.version = version
  maxBl : smd.smdExt.maxBlRetryCount = maxBl
  slots : ∀ i < 2, (smd.slot i).Fit

theorem BootSlotInfo.Fit.bootable {info : BootSlotInfo} (fit : info.Fit) : info.Bootable :=
  ⟨fit.retry, fit.priority⟩

section
variable {smd : SlotMetaDataV2}

def tried (smd : SlotMetaDataV2) (slot : Nat) : SlotMetaDataV2 :=
  smd.modifySlot slot fun info => { info with retryCount := info.retryCount - 1 }

theorem checkAndUpdate_eq {slot : Nat} (redundant : bootctrlSupportRedundancy smd.smd.version = true)
    (retry : (smd.slot slot).retryCount ≠ 0) : tegrablABCheckAndUpdateRetryCount smd slot = .ok (tried smd slot) := by
  unfold tegrablABCheckAndUpdateRetryCount
  rw [if_pos (.inl redundant), if_neg retry]
  rfl

variable {slot i : Nat}

theorem slot_tried (valid : slot < 2) (valid' : i < 2) : (tried smd slot).slot i =
    if i = slot then { smd.slot i with retryCount := (smd.slot i).retryCount - 1 }
    else smd.slot i := smd.slot_modifySlot _ valid valid'

theorem priority_tried (valid : slot < 2) (valid' : i < 2) :
    ((tried smd slot).slot i).priority = (smd.slot i).priority := by
  rw [slot_tried valid valid']
  split <;> rfl

theorem successful_tried (valid : slot < 2) (valid' : i < 2) :
    ((tried smd slot).slot i).bootSuccessful = (smd.slot i).bootSuccessful := by
  rw [slot_tried valid valid']
  split <;> rfl

def turns (smd : SlotMetaDataV2) (rfReg : UInt32) : Bool :=
  decide (nextRotate rfReg = getMaxRotateCount smd / 2 ∨ nextRotate rfReg = getMaxRotateCount smd)

def turnBoot (smd : SlotMetaDataV2) (beyond : Nat → UInt8) (slot : Nat) (oldReg rfReg : UInt32) : Boot :=
  ⟨tegrablABSaveBootSlotReg (tried smd slot) beyond slot oldReg, rfReg, tried smd slot⟩

def turned (smd : SlotMetaDataV2) (slot : Nat) (turn : Bool) : SlotMetaDataV2 :=
  if turn then switched (tried smd slot) slot else tried smd slot

end

section
variable {version : UInt16} {maxBl : UInt8} {smd : SlotMetaDataV2} {beyond : Nat → UInt8}
  {slot : Nat} {oldReg rfReg : UInt32}

variable (rotating : Rotating version maxBl smd)
include rotating

theorem flag_turnBoot
    (redundant : bootctrlSupportRedundancy version = true) (valid : slot < 2) :
    bootChainRegUpdateFlagGet (turnBoot smd beyond slot oldReg rfReg).bootReg = bcFlagRedundancyBoot := by
  have successful := (rotating.slots slot valid).successful
  have same : (tried smd slot).smd.version = version := rotating.version
  show bootChainRegUpdateFlagGet (tegrablABSaveBootSlotReg _ _ _ _) = _
  rw [updateFlagGet_save, SlotMetaDataV2.slotInfoAt_valid _ _ valid, successful_tried valid valid,
    if_neg successful, same, if_pos redundant]

theorem requested_turnBoot
    (redundant : bootctrlSupportRedundancy version = true) (valid : slot < 2)
    (magic : bootChainRegMagicGet oldReg = bootChainRegMagic) :
    updateRequested (turnBoot smd beyond slot oldReg rfReg).bootReg = true := by
  have kept : bootChainRegMagicGet (turnBoot smd beyond slot oldReg rfReg).bootReg =
      bootChainRegMagic := (magicGet_save _ _ _ _).trans magic
  unfold updateRequested
  rw [flag_turnBoot rotating redundant valid, kept]
  decide

variable {i : Nat}

theorem saved_other (valid : slot < 2)
    (valid' : i < 2) (other : i ≠ slot) : tegrablABGetRetryCountReg i (turnBoot smd beyond slot oldReg rfReg).bootReg =
      (smd.slot i).retryCount := by
  show tegrablABGetRetryCountReg i (tegrablABSaveBootSlotReg _ _ _ _) = _
  rw [getRetryCountReg_save _ _ _ _ valid', slot_tried valid valid', if_neg other]
  exact nibble_small (rotating.slots i valid').small

omit rotating in
theorem current_turnBoot (valid : slot < 2) :
    (bootChainRegSlotNumGet (turnBoot smd beyond slot oldReg rfReg).bootReg).toNat = slot :=
  slotNumGet_save_valid _ _ _ valid

theorem check_turnBoot
    (redundant : bootctrlSupportRedundancy version = true) (user : userRedundancy version = true)
    (active : tegrablABGetActiveSlot smd beyond = .ok slot) (rfMagic : rootfsAbRegMagicGet rfReg = rootfsAbRegMagic) :
    checkIfRedundancyBoot (turnBoot smd beyond slot oldReg rfReg) =
      .ok ⟨(restoreRetryCount (turnBoot smd beyond slot oldReg rfReg)).bootReg,
        rootfsAbRegRotateCountSet (nextRotate rfReg).toUInt32 rfReg, turned smd slot (turns smd rfReg)⟩ := by
  obtain ⟨valid, -, highest⟩ := active_spec beyond rotating.magic rotating.two active
  have other := otherSlot_lt slot
  have notLower := highest (rotating.slots _ other).bootable
  have same : (turnBoot smd beyond slot oldReg rfReg).smd.smd.version = version := rotating.version
  have rotate : getMaxRotateCount (tried smd slot) = getMaxRotateCount smd :=
    maxRotateCount_congr rfl rfl
  have switches : Switches (tried smd slot) (turnBoot smd beyond slot oldReg rfReg).bootReg rfReg slot ↔
      turns smd rfReg = true := by
    unfold Switches turns
    rw [saved_other rotating valid other (otherSlot_ne slot), priority_tried valid valid,
      priority_tried valid other, rotate, decide_eq_true_eq]
    have bootable := (rotating.slots _ other).bootable
    have priority := (rotating.slots _ valid).priority
    exact ⟨fun all => all.1, fun due => ⟨due, bootable.1, priority, bootable.2⟩⟩
  rw [checkIfRedundancyBoot_eq, if_pos ⟨flag_turnBoot rotating redundant valid, same ▸ redundant⟩,
    if_pos (same ▸ user), checkUser_eq (current_turnBoot valid) valid rfMagic]
  have stays : ¬ (Switches (turnBoot smd beyond slot oldReg rfReg).smd
      (turnBoot smd beyond slot oldReg rfReg).bootReg
      (turnBoot smd beyond slot oldReg rfReg).rfReg slot ∧
      ((turnBoot smd beyond slot oldReg rfReg).smd.slot slot).priority <
        ((turnBoot smd beyond slot oldReg rfReg).smd.slot (otherSlot slot)).priority) := by
    rintro ⟨-, lower⟩
    have lower : ((tried smd slot).slot slot).priority < ((tried smd slot).slot (otherSlot slot)).priority := lower
    rw [priority_tried valid valid, priority_tried valid other] at lower
    exact notLower lower
  rw [if_neg stays]
  congr 2
  unfold turned
  exact if_congr switches rfl rfl

theorem restored_turnBoot (valid : slot < 2) (valid' : i < 2) :
    tegrablABGetRetryCountReg i (restoreRetryCount (turnBoot smd beyond slot oldReg rfReg)).bootReg =
      if i = slot then tegrablGetMaxRetryCount smd else (smd.slot i).retryCount := by
  have max : tegrablGetMaxRetryCount (turnBoot smd beyond slot oldReg rfReg).smd =
      tegrablGetMaxRetryCount smd := maxRetryCount_congr rfl rfl
  rw [getRetryCountReg_restore (current_turnBoot valid) valid valid', max, maxRetryCount_nibble]
  split
  · rfl
  · rename_i other
    exact saved_other rotating valid valid' other

omit rotating

def final (smd : SlotMetaDataV2) (beyond : Nat → UInt8) (slot : Nat) (oldReg rfReg : UInt32) :
    SlotMetaDataV2 :=
  copyRetryCountToSmd (turned smd slot (turns smd rfReg))
    (restoreRetryCount (turnBoot smd beyond slot oldReg rfReg)).bootReg

theorem slotsOnly_final (smd : SlotMetaDataV2) (beyond : Nat → UInt8) (slot : Nat)
    (oldReg rfReg : UInt32) : SlotsOnly smd (final smd beyond slot oldReg rfReg) := by
  unfold final turned
  split <;> exact ⟨rfl, rfl, rfl, rfl⟩

theorem slot_turned (smd : SlotMetaDataV2) (turn : Bool) (valid : slot < 2) (valid' : i < 2) :
    ((turned smd slot turn).slot i).priority =
        (if turn then if i = slot then 14 else 15 else (smd.slot i).priority) ∧
      ((turned smd slot turn).slot i).bootSuccessful = (smd.slot i).bootSuccessful := by
  unfold turned
  cases turn with
  | false => exact ⟨priority_tried valid valid', successful_tried valid valid'⟩
  | true =>
    unfold switched
    rw [if_pos rfl, SlotMetaDataV2.slot_modifySlot _ _ (otherSlot_lt slot) valid',
      SlotMetaDataV2.slot_modifySlot _ _ valid valid', slot_tried valid valid']
    rcases eq_zero_or_one valid with rfl | rfl <;> rcases eq_zero_or_one valid' with rfl | rfl <;> exact ⟨rfl, rfl⟩

theorem slot_final (beyond : Nat → UInt8) (oldReg rfReg : UInt32)
    (rotating : Rotating version maxBl smd) (valid : slot < 2) (valid' : i < 2) :
    ((final smd beyond slot oldReg rfReg).slot i).priority =
        (if turns smd rfReg then if i = slot then 14 else 15 else (smd.slot i).priority) ∧
      ((final smd beyond slot oldReg rfReg).slot i).bootSuccessful = (smd.slot i).bootSuccessful ∧
      ((final smd beyond slot oldReg rfReg).slot i).retryCount =
        (if i = slot then tegrablGetMaxRetryCount smd else (smd.slot i).retryCount) := by
  obtain ⟨priority, successful⟩ := slot_turned smd (turns smd rfReg) valid valid'
  unfold final
  rw [slot_copyRetryCount _ _ valid']
  exact ⟨priority, successful, restored_turnBoot rotating valid valid'⟩

theorem rotating_final (beyond : Nat → UInt8) (oldReg rfReg : UInt32)
    (rotating : Rotating version maxBl smd) (valid : slot < 2) :
    Rotating version maxBl (final smd beyond slot oldReg rfReg) := by
  obtain ⟨ext, magic, sameVersion, numSlots⟩ := slotsOnly_final smd beyond slot oldReg rfReg
  refine ⟨magic.trans rotating.magic, numSlots.trans rotating.two, sameVersion.trans rotating.version,
    (congrArg _ ext).trans rotating.maxBl, ?_⟩
  intro i valid'
  have fit := rotating.slots i valid'
  obtain ⟨priority, successful, retry⟩ :=
    slot_final beyond oldReg rfReg rotating valid valid'
  constructor
  · rw [retry]
    split
    · exact maxRetryCount_ne_zero smd
    · exact fit.retry
  · rw [retry]
    split
    · exact UInt8.le_iff_toNat_le.mpr ((maxRetryCount_bounds smd).2.trans (by decide))
    · exact fit.small
  · rw [priority]
    split
    · split <;> decide
    · exact fit.priority
  · rw [successful]
    exact fit.successful

theorem active_final (rotating : Rotating version maxBl smd)
    (active : tegrablABGetActiveSlot smd beyond = .ok slot) (beyond' : Nat → UInt8) :
    tegrablABGetActiveSlot (final smd beyond slot oldReg rfReg) beyond' =
      .ok (if turns smd rfReg then otherSlot slot else slot) := by
  obtain ⟨valid, -, -⟩ := active_spec beyond rotating.magic rotating.two active
  have next := rotating_final beyond oldReg rfReg rotating valid
  have first := (slot_final beyond oldReg rfReg rotating valid (i := 0) (by decide)).1
  have second := (slot_final beyond oldReg rfReg rotating valid (i := 1) (by decide)).1
  rw [active_bootable beyond' next.magic next.two fun i valid' => (next.slots i valid').bootable, first, second]
  rw [active_bootable beyond rotating.magic rotating.two
    fun i valid' => (rotating.slots i valid').bootable] at active
  cases turns smd rfReg with
  | false => exact active
  | true =>
    rcases eq_zero_or_one valid with rfl | rfl <;> rfl

end

theorem rotateOf_lt (rfReg : UInt32) : rotateOf rfReg < 16 := by
  unfold rotateOf
  rw [rotateGet_eq]
  exact get32_lt rfReg 16 4

theorem rotateGet_toNat (rfReg : UInt32) : (rootfsAbRegRotateCountGet rfReg).toUInt8.toNat = rotateOf rfReg := by
  have small := rotateOf_lt rfReg
  rw [UInt32.toNat_toUInt8]
  exact Nat.mod_eq_of_lt (small.trans (by decide))

theorem nextRotate_toNat (rfReg : UInt32) : (nextRotate rfReg).toNat = rotateOf rfReg + 1 := by
  have small := rotateOf_lt rfReg
  unfold nextRotate
  rw [UInt8.toNat_add, rotateGet_toNat]
  exact Nat.mod_eq_of_lt (show rotateOf rfReg + 1 < 256 by omega)

theorem rotateOf_set {count : UInt32} (small : count.toNat < 16) (rfReg : UInt32) :
    rotateOf (rootfsAbRegRotateCountSet count rfReg) = count.toNat := by
  unfold rotateOf
  simp (disch := decide) only [rotateGet_eq, rotateSet_eq, get32_set32_same]
  rw [UInt32.toNat_and]
  exact Nat.and_two_pow_sub_one_of_lt_two_pow (n := 4) small

theorem magic_setRotate (count rfReg : UInt32) :
    rootfsAbRegMagicGet (rootfsAbRegRotateCountSet count rfReg) = rootfsAbRegMagicGet rfReg := by
  simp (disch := decide) only [rfMagicGet_eq, rotateSet_eq, get32_set32_other]

theorem turns_iff (smd : SlotMetaDataV2) (rfReg : UInt32) : turns smd rfReg = true ↔
    rotateOf rfReg + 1 = (getMaxRotateCount smd).toNat / 2 ∨ rotateOf rfReg + 1 = (getMaxRotateCount smd).toNat := by
  unfold turns
  rw [decide_eq_true_eq, ← UInt8.toNat_inj, ← UInt8.toNat_inj, nextRotate_toNat, UInt8.toNat_div]
  rfl

theorem allUnbootable_user {smd : SlotMetaDataV2} {rfReg : UInt32} (beyond : Nat → UInt8)
    (user : userRedundancy smd.smd.version = true) (magic : rootfsAbRegMagicGet rfReg = rootfsAbRegMagic) :
    ∃ rfReg', tegrablABRootfsIsAllUnbootable smd beyond rfReg =
        .ok (decide ((getMaxRotateCount smd).toNat ≤ rotateOf rfReg), rfReg') ∧
      rootfsAbRegMagicGet rfReg' = rootfsAbRegMagic ∧ rotateOf rfReg' =
        if (getMaxRotateCount smd).toNat ≤ rotateOf rfReg then 0 else rotateOf rfReg := by
  have kind : (bootctrlIsUnifiedAbEnabled smd.smd.version ||
      bootctrlSupportRedundancyUser smd.smd.version) = true := (Bool.or_comm _ _).trans user
  have full : getMaxRotateCount smd ≤ (rootfsAbRegRotateCountGet rfReg).toUInt8 ↔
      (getMaxRotateCount smd).toNat ≤ rotateOf rfReg := by
    rw [UInt8.le_iff_toNat_le, rotateGet_toNat]
  unfold tegrablABRootfsIsAllUnbootable tegrablABGetVersion
  dsimp only
  rw [if_pos kind, if_neg (not_not.mpr magic)]
  by_cases round : (getMaxRotateCount smd).toNat ≤ rotateOf rfReg
  · rw [if_pos (full.mpr round), decide_eq_true round, if_pos round]
    exact ⟨_, rfl, (magic_setRotate _ _).trans magic, rotateOf_set (by decide) _⟩
  · rw [if_neg (mt full.mp round), decide_eq_false round, if_neg round]
    exact ⟨_, rfl, magic, rfl⟩

def rotateBefore (r n : Nat) : Nat := if n = 0 then 0 else (n - 1) % r + 1

def slotAt (r first n : Nat) : Nat := if n % r < r / 2 then first else otherSlot first

structure Round where
  version : UInt16
  maxBl : UInt8
  first : Nat
  /-- The maximal rotate count. -/
  r : Nat

structure Round.Valid (round : Round) : Prop where
  redundant : bootctrlSupportRedundancy round.version = true
  user : userRedundancy round.version = true
  first : round.first < 2
  r : ∀ smd, Rotating round.version round.maxBl smd → (getMaxRotateCount smd).toNat = round.r

def InRound (round : Round) (n : Nat) (d : Device) : Prop :=
  ∃ smd, Loads d.store smd ∧ Rotating round.version round.maxBl smd ∧
    (∀ beyond, tegrablABGetActiveSlot smd beyond = .ok (slotAt round.r round.first n)) ∧
    rotateOf (tegrablABInitRootfsSlotReg smd d.rfReg) = rotateBefore round.r n

section
variable {r n : Nat}

theorem rotate_cleared (two : r = 2 ∨ r = 4) :
    (if r ≤ rotateBefore r n then 0 else rotateBefore r n) = n % r := by
  unfold rotateBefore
  rcases two with rfl | rfl <;> split_ifs <;> omega

theorem rotate_next : n % r + 1 = rotateBefore r (n + 1) := by
  unfold rotateBefore
  rw [if_neg (by omega), Nat.add_sub_cancel]

theorem rotate_reported (two : r = 2 ∨ r = 4) : r ≤ rotateBefore r n ↔ n ≠ 0 ∧ n % r = 0 := by
  unfold rotateBefore
  rcases two with rfl | rfl <;> split_ifs <;> omega

theorem slotAt_next (two : r = 2 ∨ r = 4) {first : Nat} (valid : first < 2) :
    (if n % r + 1 = r / 2 ∨ n % r + 1 = r then otherSlot (slotAt r first n) else slotAt r first n) =
      slotAt r first (n + 1) := by
  have back := otherSlot_otherSlot valid
  unfold slotAt
  rcases two with rfl | rfl <;> split_ifs <;> first | rfl | exact back | omega

end

theorem Round.Valid.two {round : Round} (valid : round.Valid) {smd : SlotMetaDataV2}
    (rotating : Rotating round.version round.maxBl smd) : round.r = 2 ∨ round.r = 4 := by
  rw [← valid.r smd rotating]
  rcases maxRotateCount_cases smd with two | four
  · exact .inl (congrArg UInt8.toNat two)
  · exact .inr (congrArg UInt8.toNat four)

section
variable {version : UInt16} {maxBl : UInt8} {smd buffer : SlotMetaDataV2}

theorem rotating_select (only : RootfsOnly smd buffer) (rotating : Rotating version maxBl smd) :
    Rotating version maxBl buffer := by
  have slots : ∀ i, buffer.slot i = smd.slot i := by
    intro i
    unfold SlotMetaDataV2.slot
    rw [only.smd]
  refine ⟨?_, ?_, ?_, only.maxBlRetryCount.trans rotating.maxBl, ?_⟩
  · rw [only.smd, rotating.magic]
  · rw [only.smd, rotating.two]
  · rw [only.smd, rotating.version]
  · intro i valid
    rw [slots]
    exact rotating.slots i valid

theorem rotating_stored (same : SamePayload buffer smd) (rotating : Rotating version maxBl smd) :
    Rotating version maxBl buffer := by
  obtain ⟨payload, extPayload⟩ := same
  have magic : buffer.smd.magic = smd.smd.magic := congrArg (·.1) payload
  have sameVersion : buffer.smd.version = smd.smd.version := congrArg (·.2.1) payload
  have numSlots : buffer.smd.numSlots = smd.smd.numSlots := congrArg (·.2.2.1) payload
  have slotInfo : buffer.smd.slotInfo = smd.smd.slotInfo := congrArg (·.2.2.2) payload
  have max : buffer.smdExt.maxBlRetryCount = smd.smdExt.maxBlRetryCount :=
    congrArg (·.2.2.2.2.2.2.2.2.1) extPayload
  refine ⟨magic.trans rotating.magic, numSlots.trans rotating.two,
    sameVersion.trans rotating.version, max.trans rotating.maxBl, ?_⟩
  intro i valid
  have same : buffer.slot i = smd.slot i := by
    unfold SlotMetaDataV2.slot
    rw [slotInfo]
  rw [same]
  exact rotating.slots i valid

theorem active_same (rotating : Rotating version maxBl smd) (rotating' : Rotating version maxBl buffer)
    (same : buffer.smd.slotInfo = smd.smd.slotInfo) (beyond beyond' : Nat → UInt8) :
    tegrablABGetActiveSlot buffer beyond = tegrablABGetActiveSlot smd beyond' := by
  have slots : ∀ i, buffer.slot i = smd.slot i := by
    intro i
    unfold SlotMetaDataV2.slot
    rw [same]
  rw [active_bootable beyond rotating'.magic rotating'.two fun i valid => (rotating'.slots i valid).bootable,
    active_bootable beyond' rotating.magic rotating.two fun i valid => (rotating.slots i valid).bootable, slots, slots]

end

variable {d : Device}

theorem failingBoot_eq {smd buffer : SlotMetaDataV2} {copy : SmdBinCopy} {slot : Nat}
    {rfReg rfReg' : UInt32} {beyond : Nat → UInt8} {all : Bool}
    (got : d.get = ⟨.ok buffer, ⟨some copy, some buffer, some smd⟩, rfReg⟩)
    (active : tegrablABGetActiveSlot buffer beyond = .ok slot)
    (checked : tegrablABCheckAndUpdateRetryCount buffer slot = .ok (tried buffer slot))
    (reported : tegrablABRootfsIsAllUnbootable (tried buffer slot) beyond rfReg = .ok (all, rfReg')) (oldReg : UInt32) :
    d.failingBoot beyond oldReg = .ok ⟨slot, all,
      updateLoaded d.store ⟨some copy, some (tried buffer slot), some smd⟩ .done .done
        (turnBoot buffer beyond slot oldReg rfReg')⟩ := by
  unfold Device.failingBoot
  rw [got]
  show ((tegrablABGetActiveSlot buffer beyond).mapError _ >>= _) = _
  rw [active]
  show ((tegrablABCheckAndUpdateRetryCount buffer slot).mapError _ >>= _) = _
  rw [checked]
  show ((tegrablABRootfsIsAllUnbootable (tried buffer slot) beyond rfReg).mapError _ >>= _) = _
  rw [reported]
  rfl

variable {round : Round}

theorem get_inRound {n : Nat} (valid : round.Valid) (inRound : InRound round n d) :
    ∃ smd buffer copy rfReg, Loads d.store smd ∧ Recognised buffer ∧ Rotating round.version round.maxBl buffer ∧
      d.get = ⟨.ok buffer, ⟨some copy, some buffer, some smd⟩, rfReg⟩ ∧
      (∀ beyond, tegrablABGetActiveSlot buffer beyond = .ok (slotAt round.r round.first n)) ∧
      rootfsAbRegMagicGet rfReg = rootfsAbRegMagic ∧ rotateOf rfReg = rotateBefore round.r n := by
  obtain ⟨smd, loads, rotating, active, rotate⟩ := inRound
  have uses : usesRootfsReg smd.smd.version = true := by
    rw [rotating.version]
    exact usesRootfsReg_of_user valid.user
  have only := rootfsOnly_select smd (tegrablABInitRootfsSlotReg smd d.rfReg)
  have magic := (magic_select smd (tegrablABInitRootfsSlotReg smd d.rfReg)).trans
    (magic_initReg uses)
  have kept := (rotateOf_select smd (tegrablABInitRootfsSlotReg smd d.rfReg)).trans rotate
  have rotating' := rotating_select only rotating
  have slots : (tegrablABSelectActiveRootfs smd (tegrablABInitRootfsSlotReg smd d.rfReg)).1.smd.slotInfo =
      smd.smd.slotInfo := by
    rw [only.smd]
  obtain ⟨copy, get⟩ := getSmd_of_loads loads
  refine ⟨smd, _, copy, _, loads, only.recognised (recognised_of_loads loads), rotating', get d.rfReg, ?_, magic, kept⟩
  intro beyond
  exact (active_same rotating rotating' slots beyond beyond).trans (active beyond)

theorem inRound_stored {n : Nat} {stored buffer : SlotMetaDataV2} {st : Storage}
    {oldReg rfReg rfReg' : UInt32} {beyond : Nat → UInt8} {slot : Nat} (valid : round.Valid)
    (rotating : Rotating round.version round.maxBl buffer) (active : tegrablABGetActiveSlot buffer beyond = .ok slot)
    (chosen : slotAt round.r round.first n = slot) (rotate : rotateOf rfReg = n % round.r)
    (loads : Loads st stored) (same : SamePayload stored (final buffer beyond slot oldReg rfReg))
    (magic : rootfsAbRegMagicGet rfReg' = rootfsAbRegMagic) (next : rotateOf rfReg' = rotateBefore round.r (n + 1)) :
    InRound round (n + 1) ⟨st, rfReg'⟩ := by
  obtain ⟨slotValid, -, -⟩ := active_spec beyond rotating.magic rotating.two active
  have two := valid.two rotating
  have rotating' := rotating_final beyond oldReg rfReg rotating slotValid
  have storedRotating := rotating_stored same rotating'
  have slots : stored.smd.slotInfo = (final buffer beyond slot oldReg rfReg).smd.slotInfo :=
    congrArg (·.2.2.2) same.1
  have turn : turns buffer rfReg = true ↔ n % round.r + 1 = round.r / 2 ∨ n % round.r + 1 = round.r := by
    rw [turns_iff, valid.r buffer rotating, rotate]
  refine ⟨stored, loads, storedRotating, ?_, ?_⟩
  · intro beyond'
    rw [active_same rotating' storedRotating slots beyond' beyond', active_final rotating active,
      ← slotAt_next two valid.first, chosen, if_congr turn rfl rfl]
  · rw [initReg_present magic, next]

theorem failingBoot_inRound {n : Nat} {oldReg : UInt32}
    (beyond : Nat → UInt8) (valid : round.Valid)
    (oldMagic : bootChainRegMagicGet oldReg = bootChainRegMagic) (inRound : InRound round n d) :
    ∃ boot, d.failingBoot beyond oldReg = .ok boot ∧ boot.updated.ended = .returned (.ok ()) ∧
      boot.slot = slotAt round.r round.first n ∧ boot.allUnbootable = decide (n ≠ 0 ∧ n % round.r = 0) ∧
      rotateOf boot.updated.rfReg = rotateBefore round.r (n + 1) ∧
      InRound round (n + 1) ⟨boot.updated.store, boot.updated.rfReg⟩ := by
  obtain ⟨smd, buffer, copy, rfReg, loads, recognised, rotating, got, active, magic, rotate⟩ :=
    get_inRound valid inRound
  have two := valid.two rotating
  have active := active beyond
  generalize chosen : slotAt round.r round.first n = slot at active
  obtain ⟨slotValid, -, -⟩ := active_spec beyond rotating.magic rotating.two active
  have redundant : bootctrlSupportRedundancy buffer.smd.version = true := by
    rw [rotating.version]
    exact valid.redundant
  have user : userRedundancy (tried buffer slot).smd.version = true := by
    rw [show (tried buffer slot).smd.version = round.version from rotating.version]
    exact valid.user
  have max : (getMaxRotateCount (tried buffer slot)).toNat = round.r :=
    (congrArg UInt8.toNat (maxRotateCount_congr rfl rfl)).trans (valid.r buffer rotating)
  obtain ⟨rfReg', reported, magic', rotate'⟩ := allUnbootable_user beyond user magic
  rw [max, rotate] at reported rotate'
  rw [rotate_cleared two] at rotate'
  have checked := checkAndUpdate_eq redundant (rotating.slots slot slotValid).retry
  have boot := failingBoot_eq got active checked reported oldReg
  let vars : Statics := ⟨some copy, some (tried buffer slot), some smd⟩
  have kept : vars.smdBackup = some smd := rfl
  obtain ⟨updated, after, returned, rf, stored, loads', same⟩ :=
    updateLoaded_loads loads kept ((SlotsOnly.modifySlot buffer slot _).recognised recognised)
      (requested_turnBoot rotating valid.redundant slotValid oldMagic)
      (check_turnBoot rotating valid.redundant valid.user active magic')
  have small : (nextRotate rfReg').toUInt32.toNat < 16 := by
    show (nextRotate rfReg').toNat < 16
    rw [nextRotate_toNat, rotate']
    rcases two with two | two <;> rw [two] <;> omega
  have next : rotateOf updated.rfReg = rotateBefore round.r (n + 1) := by
    rw [rf, rotateOf_set small]
    show (nextRotate rfReg').toNat = _
    rw [nextRotate_toNat, rotate', rotate_next]
  have magic'' : rootfsAbRegMagicGet updated.rfReg = rootfsAbRegMagic := by
    rw [rf, magic_setRotate, magic']
  rw [boot, after]
  refine ⟨_, rfl, returned, rfl, ?_, next, ?_⟩
  · exact decide_eq_decide.mpr (rotate_reported two)
  · exact inRound_stored valid rotating active chosen rotate' loads' same magic'' next

theorem afterFailing_inRound {oldRegs : Nat → UInt32}
    (beyond : Nat → UInt8) (valid : round.Valid)
    (oldMagic : ∀ n, bootChainRegMagicGet (oldRegs n) = bootChainRegMagic) (start : InRound round 0 d)
    (n : Nat) : ∃ dn, d.afterFailing beyond oldRegs n = .ok dn ∧ InRound round n dn := by
  induction n with
  | zero => exact ⟨d, rfl, start⟩
  | succ n ih =>
    obtain ⟨dn, run, inRound⟩ := ih
    obtain ⟨boot, failing, -, -, -, -, next⟩ :=
      failingBoot_inRound beyond valid (oldMagic n) inRound
    refine ⟨_, ?_, next⟩
    show (d.afterFailing beyond oldRegs n >>= _) = _
    rw [run]
    show (dn.failingBoot beyond (oldRegs n) >>= _) = _
    rw [failing]
    rfl

theorem notUnbootable {smd : SlotMetaDataV2} {i : Nat} (valid : i < 2) (bootable : (smd.slot i).Bootable) :
    tegrablABIsUnbootable smd i = .ok false := by
  have past : ¬ maxSlots.toNat ≤ i := Nat.not_le.mpr valid
  unfold tegrablABIsUnbootable tegrablABGetPriority tegrablABGetRetryCount
  rw [if_neg past, if_neg past]
  show Except.ok ((smd.slot i).priority == 0 || (smd.slot i).retryCount == 0) = _
  rw [beq_false_of_ne bootable.2, beq_false_of_ne bootable.1]
  rfl

/-- Over any number of failing boots each slot has its half of a round in turn, all are reported as
unbootable once a round from the second on, the rotate count stays within the round and both slots
stay bootable from boot to boot. -/
theorem slot_rotation {d : Device} {smd : SlotMetaDataV2} (loads : Loads d.store smd)
    (magic : smd.smd.magic = bootChainMagic) (two : smd.smd.numSlots = 2)
    (redundant : bootctrlSupportRedundancy smd.smd.version = true)
    (user : bootctrlSupportRedundancyUser smd.smd.version = true ∨ bootctrlIsUnifiedAbEnabled smd.smd.version = true)
    (slots : ∀ i < 2, 1 ≤ (smd.slot i).priority ∧ (smd.slot i).priority ≤ 15 ∧
      1 ≤ (smd.slot i).retryCount ∧ (smd.slot i).retryCount ≤ 15 ∧ (smd.slot i).bootSuccessful = 1)
    (rotate : rootfsAbRegMagicGet d.rfReg = rootfsAbRegMagic → rootfsAbRegRotateCountGet d.rfReg = 0)
    {oldRegs : Nat → UInt32} (oldMagic : ∀ n, bootChainRegMagicGet (oldRegs n) = bootChainRegMagic)
    (beyond : Nat → UInt8) : let r := (getMaxRotateCount smd).toNat
    ∃ first < 2, tegrablABGetActiveSlot smd beyond = .ok first ∧
      ∀ n, ∃ dn boot, d.afterFailing beyond oldRegs n = .ok dn ∧ dn.failingBoot beyond (oldRegs n) = .ok boot ∧
        boot.updated.ended = .returned (.ok ()) ∧
        boot.slot = (if n % r < r / 2 then first else otherSlot first) ∧
        boot.allUnbootable = decide (n ≠ 0 ∧ n % r = 0) ∧ (rootfsAbRegRotateCountGet boot.updated.rfReg).toNat ≤ r ∧
        ∃ stored, Loads boot.updated.store stored ∧ ∀ i < 2, tegrablABIsUnbootable stored i = .ok false := by
  intro r
  have positive : ∀ c : UInt8, 1 ≤ c → c ≠ 0 := by
    rintro c above rfl
    exact absurd above (by decide)
  have rotating : Rotating smd.smd.version smd.smdExt.maxBlRetryCount smd := by
    refine ⟨magic, two, rfl, rfl, ?_⟩
    intro i valid
    obtain ⟨priority, -, retry, small, successful⟩ := slots i valid
    refine ⟨positive _ retry, small, positive _ priority, ?_⟩
    rw [successful]
    decide
  have active : ∀ beyond, tegrablABGetActiveSlot smd beyond =
      .ok (if (smd.slot 0).priority < (smd.slot 1).priority then 1 else 0) := fun beyond =>
    active_bootable beyond magic two fun i valid => (rotating.slots i valid).bootable
  generalize (if (smd.slot 0).priority < (smd.slot 1).priority then 1 else 0) = first at active
  obtain ⟨firstValid, -, -⟩ := active_spec beyond magic two (active beyond)
  let round : Round := ⟨smd.smd.version, smd.smdExt.maxBlRetryCount, first, r⟩
  have valid : round.Valid := by
    refine ⟨redundant, ?_, firstValid, ?_⟩
    · show (_ || _) = true
      rw [Bool.or_eq_true]
      exact user
    · intro smd' rotating'
      exact congrArg UInt8.toNat (maxRotateCount_congr rotating'.version rotating'.maxBl)
  have rounds : r = 2 ∨ r = 4 := valid.two rotating
  have start : InRound round 0 d := by
    refine ⟨smd, loads, rotating, ?_, ?_⟩
    · intro beyond
      have half : slotAt r first 0 = first := by
        unfold slotAt
        rw [Nat.zero_mod, if_pos]
        rcases rounds with two | four <;> omega
      exact (active beyond).trans (congrArg _ half.symm)
    · exact rotateOf_initReg (usesRootfsReg_of_user valid.user)
        fun present => congrArg UInt32.toNat (rotate present)
  refine ⟨first, firstValid, active beyond, ?_⟩
  intro n
  obtain ⟨dn, run, inRound⟩ := afterFailing_inRound beyond valid oldMagic start n
  obtain ⟨boot, failing, returned, slot, reported, count, next⟩ :=
    failingBoot_inRound beyond valid (oldMagic n) inRound
  refine ⟨dn, boot, run, failing, returned, slot, reported, ?_, ?_⟩
  · have bound : rotateBefore r (n + 1) ≤ r := by
      rw [← rotate_next]
      exact Nat.mod_lt n (by omega)
    exact count.trans_le bound
  · obtain ⟨stored, loads', rotating', -⟩ := next
    exact ⟨stored, loads', fun i valid => notUnbootable valid (rotating'.slots i valid).bootable⟩

def redundantImage : SlotMetaDataV2 :=
  let slot : BootSlotInfo := ⟨15, .two 95 97, 7, 1⟩
  { smd := ⟨bootChainMagic, 0x0302, 2, (slot, slot), 2542383369⟩
    smdExt := ⟨0, 0, 0, 0, 0, (0, 0), (0, 0), 0, (0, 0), 0, .zeros 144⟩ }

def redundantDevice : Device where
  store := ⟨overwritten erased redundantImage, overwritten erased redundantImage⟩
  rfReg := 0

def magicReg (_ : Nat) : UInt32 := 0xCAFE

/-- The third boot is on the other slot, the fifth is on the first again and reports. -/
theorem slot_rotation_round : (∃ d boot, redundantDevice.afterFailing (fun _ => 0) magicReg 2 = .ok d ∧
      d.failingBoot (fun _ => 0) (magicReg 2) = .ok boot ∧ boot.slot = 1 ∧ boot.allUnbootable = false) ∧
    ∃ d boot, redundantDevice.afterFailing (fun _ => 0) magicReg 4 = .ok d ∧
      d.failingBoot (fun _ => 0) (magicReg 4) = .ok boot ∧ boot.slot = 0 ∧ boot.allUnbootable = true := by
  have loads : Loads redundantDevice.store redundantImage := loads_of_check (by decide +kernel) _ _
  have slots : ∀ i < 2, 1 ≤ (redundantImage.slot i).priority ∧ (redundantImage.slot i).priority ≤ 15 ∧
      1 ≤ (redundantImage.slot i).retryCount ∧ (redundantImage.slot i).retryCount ≤ 15 ∧
      (redundantImage.slot i).bootSuccessful = 1 := by
    decide
  have round : (getMaxRotateCount redundantImage).toNat = 4 := by decide
  have present : ∀ n, bootChainRegMagicGet (magicReg n) = bootChainRegMagic := by
    intro n
    show bootChainRegMagicGet 0xCAFE = bootChainRegMagic
    decide
  obtain ⟨first, -, active, boots⟩ := slot_rotation loads rfl rfl (by decide) (.inl (by decide)) slots
    (fun _ => by decide) present (fun _ => 0)
  have zero : first = 0 := Except.ok.inj (active.symm.trans (getActiveSlot_two _ rfl rfl))
  rw [zero] at boots
  simp only [round] at boots
  obtain ⟨d, boot, run, failing, -, slot, reported, -⟩ := boots 2
  obtain ⟨d', boot', run', failing', -, slot', reported', -⟩ := boots 4
  exact ⟨⟨d, boot, run, failing, slot, reported⟩, ⟨d', boot', run', failing', slot', reported'⟩⟩

end Cboot.Smd
