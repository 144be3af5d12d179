import Cboot.Smd.Slots
import Cboot.Smd.CrashSafety

/-!
A boot loads the contents once and then works on its buffer.
-/

namespace Cboot.Smd
open Lib Lib.BitField

def Loads (st : Storage) (smd : SlotMetaDataV2) : Prop :=
  loadSmdBinCopy st.smd = .ok smd ∨ Rejects st.smd ∧ loadSmdBinCopy st.smdB = .ok smd

def SamePayload (x y : SlotMetaDataV2) : Prop :=
  x.smd.payload = y.smd.payload ∧ x.smdExt.payload = y.smdExt.payload

def SlotsOnly (x y : SlotMetaDataV2) : Prop :=
  y.smdExt = x.smdExt ∧ y.smd.magic = x.smd.magic ∧ y.smd.version = x.smd.version ∧ y.smd.numSlots = x.smd.numSlots

structure Device where
  store : Storage
  rfReg : UInt32

namespace Device

def get (d : Device) : GetSmd := tegrablABGetSmd d.store {} d.rfReg true true

def update (d : Device) (bootReg : UInt32) : Updated :=
  tegrablABUpdateSmd d.store d.get.statics bootReg d.get.rfReg true true .done .done

end Device

variable {smd : SlotMetaDataV2} {st : Storage}

theorem getSmd_of_loads (loads : Loads st smd) :
    ∃ copy, ∀ rfReg, tegrablABGetSmd st {} rfReg true true = initSmd copy smd rfReg := by
  let system : System := ⟨st, none, smd, []⟩
  rcases loads with primary | ⟨rejects, secondary⟩
  · exact ⟨.primary, fun rfReg => boot_primary (s := system) rfReg primary⟩
  · exact ⟨.secondary, fun rfReg => boot_secondary (s := system) rfReg rejects secondary⟩

theorem updateSmd_loaded {vars : Statics}
    (loaded : vars.smdLoadaddress = some smd) (bootReg rfReg : UInt32) (first second : WriteEnd) :
    tegrablABUpdateSmd st vars bootReg rfReg true true first second =
      updateLoaded st vars first second ⟨bootReg, rfReg, smd⟩ := by
  unfold tegrablABUpdateSmd tegrablABGetSmd
  rw [loaded]

theorem updateSmd_of_loads (loads : Loads st smd) : ∃ copy, ∀ bootReg rfReg,
      let get := tegrablABGetSmd st {} rfReg true true
      let selected := tegrablABSelectActiveRootfs smd (tegrablABInitRootfsSlotReg smd rfReg)
      get.result = .ok selected.1 ∧ get.rfReg = selected.2 ∧
      tegrablABUpdateSmd st get.statics bootReg get.rfReg true true .done .done =
        updateLoaded st ⟨some copy, some selected.1, some smd⟩ .done .done
          ⟨bootReg, selected.2, selected.1⟩ := by
  obtain ⟨copy, get⟩ := getSmd_of_loads loads
  refine ⟨copy, ?_⟩
  intro bootReg rfReg
  dsimp only
  rw [get]
  exact ⟨rfl, rfl, updateSmd_loaded rfl _ _ _ _⟩

theorem recognised_of_load {part : List UInt8}
    (loads : loadSmdBinCopy part = .ok smd) : Recognised smd := by
  intro one
  unfold loadSmdBinCopy at loads
  cases read : tegrablPartitionRead part SlotMetaDataV2.codec.width with
  | error e =>
    rw [read] at loads
    cases loads
  | ok bytes =>
    rw [read] at loads
    cases check : checkSmd (SlotMetaDataV2.codec.decode bytes) with
    | error e =>
      change (checkSmd (SlotMetaDataV2.codec.decode bytes) >>= _) = _ at loads
      rw [check] at loads
      cases loads
    | ok done =>
      change (checkSmd (SlotMetaDataV2.codec.decode bytes) >>= _) = _ at loads
      rw [check] at loads
      cases loads
      by_contra wrong
      unfold checkSmd at check
      dsimp only at check
      rw [if_pos one, if_pos wrong] at check
      cases check

theorem recognised_of_loads (loads : Loads st smd) : Recognised smd := by
  rcases loads with primary | ⟨-, secondary⟩
  · exact recognised_of_load primary
  · exact recognised_of_load secondary

theorem loads_of_check (valid : (checkSmd smd).toOption = some ())
    (part part' : List UInt8) : Loads ⟨overwritten part smd, part'⟩ smd := by
  have check : checkSmd smd = .ok () := by
    cases check : checkSmd smd with
    | ok done => rfl
    | error e =>
      rw [check] at valid
      cases valid
  exact .inl (load_of_check check part)

theorem loads_unique {x y : SlotMetaDataV2} (first : Loads st x) (second : Loads st y) : x = y := by
  rcases first with primary | ⟨rejects, secondary⟩ <;> rcases second with primary' | ⟨rejects', secondary'⟩
  · exact Except.ok.inj (primary.symm.trans primary')
  · exact absurd primary (rejects' x)
  · exact absurd primary' (rejects y)
  · exact Except.ok.inj (secondary.symm.trans secondary')

namespace SlotsOnly
variable {x y z : SlotMetaDataV2}

theorem refl (x : SlotMetaDataV2) : SlotsOnly x x := ⟨rfl, rfl, rfl, rfl⟩

theorem trans (first : SlotsOnly x y) (second : SlotsOnly y z) : SlotsOnly x z :=
  ⟨second.1.trans first.1, second.2.1.trans first.2.1, second.2.2.1.trans first.2.2.1, second.2.2.2.trans first.2.2.2⟩

theorem modifySlot (smd : SlotMetaDataV2) (slot : Nat) (f : BootSlotInfo → BootSlotInfo) :
    SlotsOnly smd (smd.modifySlot slot f) := ⟨rfl, rfl, rfl, rfl⟩

theorem recognised (same : SlotsOnly x y) (recognised : Recognised x) : Recognised y := by
  intro one
  obtain ⟨-, magic, version, -⟩ := same
  unfold tegrablABGetVersion at one
  rw [version] at one
  exact magic.trans (recognised one)

end SlotsOnly

theorem samePayload_updateCrc (smd : SlotMetaDataV2) : SamePayload (updateCrc smd) smd := by
  obtain ⟨payload, extPayload, -, -⟩ := updateCrc_payload smd
  exact ⟨payload, extPayload⟩

section
variable {vars : Statics} {b : Boot}

theorem flushIfChanged_same (same : vars.smdBackup = some b.smd) :
    flushIfChanged st vars .done .done b = ⟨.returned (.ok ()), st,
      { vars with smdLoadaddress := some b.smd }, clearedReg b.bootReg, b.rfReg⟩ := if_pos same

theorem flushIfChanged_changed (st : Storage) (changed : vars.smdBackup ≠ some b.smd) :
    ∃ st', flushIfChanged st vars .done .done b = ⟨.returned (.ok ()), st',
        { vars with smdLoadaddress := some (updateCrc b.smd) }, clearedReg b.bootReg, b.rfReg⟩ ∧
      ∀ copy, st'.get copy = overwritten (st.get copy) (updateCrc b.smd) := by
  unfold flushIfChanged
  rw [if_neg changed]
  dsimp only
  have flushed : tegrablABFlushSmd st { vars with smdLoadaddress := some (updateCrc b.smd) } .done
      .done (some b.smd) = (.returned (.ok ()), _) := rfl
  rw [flushed]
  exact ⟨_, rfl, fun copy => written_of_flushed flushed copy⟩

theorem flushIfChanged_buffer (st : Storage) (vars : Statics) (b : Boot) :
    ∃ left, (flushIfChanged st vars .done .done b).statics.smdLoadaddress = some left ∧ SamePayload left b.smd := by
  by_cases same : vars.smdBackup = some b.smd
  · rw [flushIfChanged_same same]
    exact ⟨_, rfl, rfl, rfl⟩
  · obtain ⟨st', after, -⟩ := flushIfChanged_changed st same
    rw [after]
    exact ⟨_, rfl, samePayload_updateCrc b.smd⟩

theorem flushIfChanged_loads {backup : SlotMetaDataV2} (loads : Loads st backup)
    (kept : vars.smdBackup = some backup) (recognised : Recognised b.smd) :
    ∃ updated : Updated, flushIfChanged st vars .done .done b = updated ∧
      updated.ended = .returned (.ok ()) ∧ updated.rfReg = b.rfReg ∧
      ∃ stored, Loads updated.store stored ∧ SamePayload stored b.smd := by
  by_cases same : vars.smdBackup = some b.smd
  · have contents : backup = b.smd := Option.some.inj (kept.symm.trans same)
    refine ⟨_, flushIfChanged_same same, rfl, rfl, b.smd, ?_, rfl, rfl⟩
    rw [← contents]
    exact loads
  · obtain ⟨st', after, written⟩ := flushIfChanged_changed st same
    refine ⟨_, after, rfl, rfl, updateCrc b.smd, .inl ?_, samePayload_updateCrc b.smd⟩
    exact (congrArg loadSmdBinCopy (written .primary)).trans (load_overwritten recognised _)

end

theorem slotsOnly_copyRetryCount (smd : SlotMetaDataV2) (reg : UInt32) :
    SlotsOnly smd (copyRetryCountToSmd smd reg) := ⟨rfl, rfl, rfl, rfl⟩

theorem slotsOnly_setPriority (smd : SlotMetaDataV2) (slot : Nat) (priority : UInt8) :
    SlotsOnly smd (orUnchanged smd (tegrablABSetPriority smd slot priority)) := by
  unfold tegrablABSetPriority
  split
  · exact .refl smd
  · exact .modifySlot smd slot fun info => { info with priority := priority }

variable {b : Boot}

theorem slotsOnly_switchSlot {slot : Nat} {p1 p2 rotate : UInt8} {smd : SlotMetaDataV2}
    (switched : switchSlot b slot p1 p2 rotate = .ok smd) : SlotsOnly b.smd smd := by
  unfold switchSlot at switched
  dsimp only at switched
  split_ifs at switched
  · cases switched
    exact (slotsOnly_setPriority _ _ _).trans (slotsOnly_setPriority _ _ _)
  · cases switched
    exact .refl _
  · cases switched
    exact .refl _

/-- The count that `check_user_redundancy_status` saves. -/
def nextRotate (rfReg : UInt32) : UInt8 := (rootfsAbRegRotateCountGet rfReg).toUInt8 + 1

theorem checkUserRedundancyStatus_eq (b : Boot) : checkUserRedundancyStatus b =
    let slot := (bootChainRegSlotNumGet b.bootReg).toNat
    if 2 ≤ slot then .error (.error .invalid)
    else if rootfsAbRegMagicGet b.rfReg ≠ rootfsAbRegMagic then .error (.hang .rootfsMagic)
    else
      (switchSlot (restoreRetryCount b) slot (b.smd.slot slot).priority
        (b.smd.slot (otherSlot slot)).priority (nextRotate b.rfReg)).map fun smd =>
          ⟨(restoreRetryCount b).bootReg, rootfsAbRegRotateCountSet (nextRotate b.rfReg).toUInt32 b.rfReg, smd⟩ := by
  have two : maxSlots.toNat = 2 := rfl
  unfold checkUserRedundancyStatus tegrablABGetPriority
  dsimp only
  generalize (bootChainRegSlotNumGet b.bootReg).toNat = slot
  have other : ¬ 2 ≤ otherSlot slot := Nat.not_le.mpr (otherSlot_lt slot)
  by_cases past : 2 ≤ slot
  · rw [two, if_pos past, if_pos past]
    rfl
  rw [two, if_neg past, if_neg past, if_neg other]
  by_cases magic : rootfsAbRegMagicGet b.rfReg = rootfsAbRegMagic
  · rw [if_neg (not_not.mpr magic)]
    have magic' : ¬ rootfsAbRegMagicGet (restoreRetryCount b).rfReg ≠ rootfsAbRegMagic :=
      not_not.mpr magic
    show (if rootfsAbRegMagicGet (restoreRetryCount b).rfReg ≠ rootfsAbRegMagic then _ else _) = _
    rw [if_neg magic']
    show (switchSlot (restoreRetryCount b) slot (b.smd.slot slot).priority
      (b.smd.slot (otherSlot slot)).priority (nextRotate b.rfReg) >>= fun smd => .ok _) = _
    cases switchSlot (restoreRetryCount b) slot (b.smd.slot slot).priority
      (b.smd.slot (otherSlot slot)).priority (nextRotate b.rfReg) <;> rfl
  · rw [if_pos magic]
    have magic' : rootfsAbRegMagicGet (restoreRetryCount b).rfReg ≠ rootfsAbRegMagic := magic
    show (if rootfsAbRegMagicGet (restoreRetryCount b).rfReg ≠ rootfsAbRegMagic then _ else _) = _
    rw [if_pos magic']
    rfl

def Switches (smd : SlotMetaDataV2) (bootReg rfReg : UInt32) (slot : Nat) : Prop :=
  (nextRotate rfReg = getMaxRotateCount smd / 2 ∨ nextRotate rfReg = getMaxRotateCount smd) ∧
    tegrablABGetRetryCountReg (otherSlot slot) bootReg ≠ 0 ∧ (smd.slot slot).priority ≠ 0 ∧
    (smd.slot (otherSlot slot)).priority ≠ 0

instance (smd : SlotMetaDataV2) (bootReg rfReg : UInt32) (slot : Nat) :
    Decidable (Switches smd bootReg rfReg slot) := inferInstanceAs (Decidable (_ ∧ _))

def switched (smd : SlotMetaDataV2) (slot : Nat) : SlotMetaDataV2 :=
  (smd.modifySlot slot fun info => { info with priority := 14 }).modifySlot (otherSlot slot)
    fun info => { info with priority := 15 }

theorem getRetryCountReg_restore {slot i : Nat}
    (current : (bootChainRegSlotNumGet b.bootReg).toNat = slot) (valid : slot < 2) (valid' : i < 2) :
    tegrablABGetRetryCountReg i (restoreRetryCount b).bootReg =
      if i = slot then tegrablGetMaxRetryCount b.smd &&& 15 else tegrablABGetRetryCountReg i b.bootReg := by
  unfold restoreRetryCount
  dsimp only
  rw [current]
  exact getRetryCountReg_set _ _ valid valid'

theorem switchSlot_eq {slot : Nat}
    (current : (bootChainRegSlotNumGet b.bootReg).toNat = slot) (valid : slot < 2) :
    switchSlot (restoreRetryCount b) slot (b.smd.slot slot).priority
        (b.smd.slot (otherSlot slot)).priority (nextRotate b.rfReg) =
      if Switches b.smd b.bootReg b.rfReg slot then
        if (b.smd.slot slot).priority < (b.smd.slot (otherSlot slot)).priority then .error (.hang .priority)
        else .ok (switched b.smd slot) else .ok b.smd := by
  have other := getRetryCountReg_restore current valid (otherSlot_lt slot)
  rw [if_neg (otherSlot_ne slot)] at other
  have past : ¬ maxSlots.toNat ≤ slot := Nat.not_le.mpr valid
  have past' : ¬ maxSlots.toNat ≤ otherSlot slot := Nat.not_le.mpr (otherSlot_lt slot)
  unfold switchSlot
  dsimp only
  rw [other]
  have same : (restoreRetryCount b).smd = b.smd := rfl
  rw [same]
  by_cases due : nextRotate b.rfReg = getMaxRotateCount b.smd / 2 ∨ nextRotate b.rfReg = getMaxRotateCount b.smd
  · rw [if_pos due]
    by_cases bootable : tegrablABGetRetryCountReg (otherSlot slot) b.bootReg ≠ 0 ∧
        (b.smd.slot slot).priority ≠ 0 ∧ (b.smd.slot (otherSlot slot)).priority ≠ 0
    · have switches : Switches b.smd b.bootReg b.rfReg slot := ⟨due, bootable⟩
      rw [if_pos bootable, if_pos switches]
      unfold tegrablABSetPriority switched
      rw [if_neg past, if_neg past']
      rfl
    · have stays : ¬ Switches b.smd b.bootReg b.rfReg slot := fun switches => bootable switches.2
      rw [if_neg bootable, if_neg stays]
  · have stays : ¬ Switches b.smd b.bootReg b.rfReg slot := fun switches => due switches.1
    rw [if_neg due, if_neg stays]

theorem checkUser_eq {slot : Nat}
    (current : (bootChainRegSlotNumGet b.bootReg).toNat = slot) (valid : slot < 2)
    (magic : rootfsAbRegMagicGet b.rfReg = rootfsAbRegMagic) : checkUserRedundancyStatus b =
      if Switches b.smd b.bootReg b.rfReg slot ∧
          (b.smd.slot slot).priority < (b.smd.slot (otherSlot slot)).priority then .error (.hang .priority)
      else .ok ⟨(restoreRetryCount b).bootReg, rootfsAbRegRotateCountSet (nextRotate b.rfReg).toUInt32 b.rfReg,
        if Switches b.smd b.bootReg b.rfReg slot then switched b.smd slot else b.smd⟩ := by
  rw [checkUserRedundancyStatus_eq]
  dsimp only
  rw [current, if_neg (Nat.not_le.mpr valid), if_neg (not_not.mpr magic), switchSlot_eq current valid]
  by_cases switches : Switches b.smd b.bootReg b.rfReg slot
  · by_cases lower : (b.smd.slot slot).priority < (b.smd.slot (otherSlot slot)).priority
    · rw [if_pos switches, if_pos lower, if_pos ⟨switches, lower⟩]
      rfl
    · rw [if_pos switches, if_neg lower, if_neg fun both => lower both.2, if_pos switches]
      rfl
  · rw [if_neg switches, if_neg fun both => switches both.1, if_neg switches]
    rfl

def userRedundancy (version : UInt16) : Bool :=
  bootctrlSupportRedundancyUser version || bootctrlIsUnifiedAbEnabled version

theorem rootfsAb_of_unified {version : UInt16} (enabled : bootctrlIsUnifiedAbEnabled version = true) :
    bootctrlSupportRootfsAb version = true := by
  unfold bootctrlIsUnifiedAbEnabled at enabled
  rw [Bool.and_eq_true, Bool.and_eq_true] at enabled
  exact enabled.1.2

theorem checkIfRedundancyBoot_eq (b : Boot) : checkIfRedundancyBoot b =
    if bootChainRegUpdateFlagGet b.bootReg = bcFlagRedundancyBoot ∧ bootctrlSupportRedundancy b.smd.smd.version then
      if userRedundancy b.smd.smd.version then checkUserRedundancyStatus b else .ok (restoreRetryCount b)
    else .ok b := by
  unfold checkIfRedundancyBoot checkRedundancyStatus checkNonUserRedundancyStatus
    checkRootfsAbStatus userRedundancy tegrablABGetVersion
  split
  · dsimp only
    cases user : bootctrlSupportRedundancyUser b.smd.smd.version <;>
      cases unified : bootctrlIsUnifiedAbEnabled b.smd.smd.version <;>
      cases rootfs : bootctrlSupportRootfsAb b.smd.smd.version <;>
      first | rfl | exact absurd (rootfsAb_of_unified unified) (Bool.eq_false_iff.mp rootfs)
  · rfl

theorem slotsOnly_check {b b' : Boot} (checked : checkIfRedundancyBoot b = .ok b') : SlotsOnly b.smd b'.smd := by
  rw [checkIfRedundancyBoot_eq] at checked
  split_ifs at checked
  · rw [checkUserRedundancyStatus_eq] at checked
    dsimp only at checked
    split_ifs at checked
    cases switch : switchSlot (restoreRetryCount b) (bootChainRegSlotNumGet b.bootReg).toNat
        (b.smd.slot (bootChainRegSlotNumGet b.bootReg).toNat).priority
        (b.smd.slot (otherSlot (bootChainRegSlotNumGet b.bootReg).toNat)).priority
        (nextRotate b.rfReg) with
    | error stop =>
      rw [switch] at checked
      cases checked
    | ok smd =>
      rw [switch] at checked
      cases checked
      have same : SlotsOnly (restoreRetryCount b).smd smd := slotsOnly_switchSlot switch
      exact same
  · cases checked
    exact .refl _
  · cases checked
    exact .refl _

section
variable {vars : Statics}

theorem updateLoaded_off (off : updateRequested b.bootReg = false) : updateLoaded st vars .done .done b =
      ⟨.returned (.ok ()), st, vars, clearedReg b.bootReg, b.rfReg⟩ := by
  unfold updateLoaded
  rw [off]
  rfl

theorem updateLoaded_checked {b' : Boot} (requested : updateRequested b.bootReg = true)
    (checked : checkIfRedundancyBoot b = .ok b') : updateLoaded st vars .done .done b =
      flushIfChanged st vars .done .done { b' with smd := copyRetryCountToSmd b'.smd b'.bootReg } := by
  unfold updateLoaded
  rw [if_pos requested, checked]

theorem checked_of_returned (requested : updateRequested b.bootReg = true)
    (returned : (updateLoaded st vars .done .done b).ended = .returned (.ok ())) :
    ∃ b', checkIfRedundancyBoot b = .ok b' := by
  unfold updateLoaded at returned
  rw [if_pos requested] at returned
  cases checked : checkIfRedundancyBoot b with
  | ok b' => exact ⟨b', rfl⟩
  | error stop =>
    rw [checked] at returned
    cases stop <;> cases returned

theorem updateLoaded_loads {b' : Boot} {backup : SlotMetaDataV2} (loads : Loads st backup)
    (kept : vars.smdBackup = some backup) (recognised : Recognised b.smd)
    (requested : updateRequested b.bootReg = true) (checked : checkIfRedundancyBoot b = .ok b') :
    ∃ updated : Updated, updateLoaded st vars .done .done b = updated ∧
      updated.ended = .returned (.ok ()) ∧ updated.rfReg = b'.rfReg ∧ ∃ stored, Loads updated.store stored ∧
        SamePayload stored (copyRetryCountToSmd b'.smd b'.bootReg) := by
  have only := (slotsOnly_check checked).trans (slotsOnly_copyRetryCount b'.smd b'.bootReg)
  rw [updateLoaded_checked requested checked]
  exact flushIfChanged_loads loads kept (only.recognised recognised)

end

structure RootfsOnly (x y : SlotMetaDataV2) : Prop where
  smd : y.smd = x.smd
  crc32 : y.smdExt.crc32 = x.smdExt.crc32
  maxBlRetryCount : y.smdExt.maxBlRetryCount = x.smdExt.maxBlRetryCount

theorem RootfsOnly.trans {x y z : SlotMetaDataV2} (first : RootfsOnly x y) (second : RootfsOnly y z) : RootfsOnly x z :=
  ⟨second.smd.trans first.smd, second.crc32.trans first.crc32, second.maxBlRetryCount.trans first.maxBlRetryCount⟩

theorem RootfsOnly.recognised {x y : SlotMetaDataV2} (same : RootfsOnly x y)
    (recognised : Recognised x) : Recognised y := by
  unfold Recognised tegrablABGetVersion at recognised ⊢
  rw [same.smd]
  exact recognised

theorem rootfsOnly_setActiveRootfs (smd : SlotMetaDataV2) (rootfsId : UInt8) :
    RootfsOnly smd (orUnchanged smd (tegrablABSetActiveRootfs smd rootfsId)) := by
  unfold tegrablABSetActiveRootfs
  split <;> exact ⟨rfl, rfl, rfl⟩

theorem rootfsOnly_setRootfsStatus (smd : SlotMetaDataV2) (slotId status : UInt8) :
    RootfsOnly smd (orUnchanged smd (tegrablABSetRootfsStatus smd slotId status)) := by
  unfold tegrablABSetRootfsStatus
  split
  · exact ⟨rfl, rfl, rfl⟩
  · split <;> exact ⟨rfl, rfl, rfl⟩

theorem rootfsOnly_select (smd : SlotMetaDataV2) (rfReg : UInt32) :
    RootfsOnly smd (tegrablABSelectActiveRootfs smd rfReg).1 := by
  unfold tegrablABSelectActiveRootfs
  dsimp only
  split
  · exact ⟨rfl, rfl, rfl⟩
  · split
    · split <;> split <;> dsimp only <;> exact (rootfsOnly_setRootfsStatus _ _ _).trans (rootfsOnly_setActiveRootfs _ _)
    · exact ⟨rfl, rfl, rfl⟩

theorem eq_of_rootfsOnly {x y : SlotMetaDataV2} (only : RootfsOnly x y)
    (payload : y.smdExt.payload = x.smdExt.payload) : y = x := by
  obtain ⟨smd, crc, -⟩ := only
  obtain ⟨_, ext⟩ := x
  obtain ⟨_, ext'⟩ := y
  cases ext
  cases ext'
  simp only [SlotMetaDataExt.payload, Prod.mk.injEq] at smd crc payload
  obtain ⟨rfl, rfl, rfl, rfl, rfl, rfl, rfl, rfl, rfl, rfl⟩ := payload
  rw [smd, crc]

def rotateOf (rfReg : UInt32) : Nat := (rootfsAbRegRotateCountGet rfReg).toNat

theorem magic_setRetry (count rfReg : UInt32) :
    rootfsAbRegMagicGet (rootfsAbRegRetryCountSet count rfReg) = rootfsAbRegMagicGet rfReg := by
  simp (disch := decide) only [rfMagicGet_eq, rfRetrySet_eq, get32_set32_other]

theorem rotateOf_setRetry (count rfReg : UInt32) :
    rotateOf (rootfsAbRegRetryCountSet count rfReg) = rotateOf rfReg := by
  unfold rotateOf
  simp (disch := decide) only [rotateGet_eq, rfRetrySet_eq, get32_set32_other]

theorem select_reg (smd : SlotMetaDataV2) (rfReg : UInt32) : (tegrablABSelectActiveRootfs smd rfReg).2 = rfReg ∨
      ∃ count, (tegrablABSelectActiveRootfs smd rfReg).2 = rootfsAbRegRetryCountSet count rfReg := by
  unfold tegrablABSelectActiveRootfs
  dsimp only
  split
  · exact .inl rfl
  · split
    · split <;> split
      · exact .inr ⟨_, rfl⟩
      · exact .inl rfl
      · exact .inr ⟨_, rfl⟩
      · exact .inl rfl
    · exact .inr ⟨_, rfl⟩

theorem magic_select (smd : SlotMetaDataV2) (rfReg : UInt32) :
    rootfsAbRegMagicGet (tegrablABSelectActiveRootfs smd rfReg).2 = rootfsAbRegMagicGet rfReg := by
  rcases select_reg smd rfReg with same | ⟨count, set⟩
  · rw [same]
  · rw [set, magic_setRetry]

theorem rotateOf_select (smd : SlotMetaDataV2) (rfReg : UInt32) :
    rotateOf (tegrablABSelectActiveRootfs smd rfReg).2 = rotateOf rfReg := by
  rcases select_reg smd rfReg with same | ⟨count, set⟩
  · rw [same]
  · rw [set, rotateOf_setRetry]

def usesRootfsReg (version : UInt16) : Bool :=
  bootctrlSupportRedundancyUser version || bootctrlSupportRootfsAb version

theorem usesRootfsReg_of_user {version : UInt16} (user : userRedundancy version = true) :
    usesRootfsReg version = true := by
  unfold userRedundancy at user
  unfold usesRootfsReg
  rw [Bool.or_eq_true] at user ⊢
  exact user.imp_right rootfsAb_of_unified

section
variable {rfReg : UInt32}

theorem initReg_present (present : rootfsAbRegMagicGet rfReg = rootfsAbRegMagic) :
    tegrablABInitRootfsSlotReg smd rfReg = rfReg := by
  unfold tegrablABInitRootfsSlotReg
  dsimp only
  rw [if_pos present, ite_self]

theorem initReg_absent (uses : usesRootfsReg smd.smd.version = true)
    (absent : rootfsAbRegMagicGet rfReg ≠ rootfsAbRegMagic) : tegrablABInitRootfsSlotReg smd rfReg =
      if bootctrlSupportRootfsAb smd.smd.version && !bootctrlSupportUnifiedAb smd.smd.version then
        rootfsAbRegRetryCountSet (tegrablABGetRootfsRetryCount smd).toUInt32 (rootfsAbRegMagicSet 0)
      else rootfsAbRegMagicSet 0 := by
  unfold tegrablABInitRootfsSlotReg tegrablABGetVersion
  dsimp only
  rw [if_neg, if_neg absent]
  unfold usesRootfsReg at uses
  rw [← Bool.not_or, uses]
  decide

theorem magic_initReg (uses : usesRootfsReg smd.smd.version = true) :
    rootfsAbRegMagicGet (tegrablABInitRootfsSlotReg smd rfReg) = rootfsAbRegMagic := by
  by_cases present : rootfsAbRegMagicGet rfReg = rootfsAbRegMagic
  · rw [initReg_present present, present]
  · rw [initReg_absent uses present]
    split
    · rw [magic_setRetry]
      decide
    · decide

theorem rotateOf_initReg (uses : usesRootfsReg smd.smd.version = true)
    (fresh : rootfsAbRegMagicGet rfReg = rootfsAbRegMagic → rotateOf rfReg = 0) :
    rotateOf (tegrablABInitRootfsSlotReg smd rfReg) = 0 := by
  by_cases present : rootfsAbRegMagicGet rfReg = rootfsAbRegMagic
  · rw [initReg_present present, fresh present]
  · rw [initReg_absent uses present]
    split
    · rw [rotateOf_setRetry]
      decide
    · decide

end

end Cboot.Smd
