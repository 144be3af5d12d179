import Cboot.Smd.Update

/-!
`tegrabl_a_b_get_smd` may mark a rootfs as failed and switch to the other one, in the buffer only.
-/

namespace Cboot.Smd
open Lib

/-- Both partitions hold the rootfs fields of the buffer, and the next boot loads them. -/
def Persisted (st : Storage) (smd : SlotMetaDataV2) : Prop :=
  (∀ copy, ∃ stored, loadSmdBinCopy (st.get copy) = .ok stored ∧ stored.smdExt.payload = smd.smdExt.payload) ∧
  ∀ rfReg, ∃ stored, (tegrablABGetSmd st {} rfReg true true).statics.smdBackup = some stored ∧
    stored.smdExt.payload = smd.smdExt.payload

theorem initBootSlotReg_reset {oldReg : UInt32} (smd : SlotMetaDataV2) (beyond : Nat → UInt8)
    (reset : bootChainRegMagicGet oldReg ≠ bootChainRegMagic) :
    updateRequested (tegrablABInitBootSlotReg smd beyond oldReg).2 = true ↔
      ∃ slot, tegrablABGetActiveSlot smd beyond = .ok slot ∧ ((smd.slotInfoAt beyond slot).bootSuccessful = 0 ∨
          bootctrlSupportRedundancy smd.smd.version = true) := by
  have magic : bootChainRegMagicGet (bootChainRegMagicSet 0) = bootChainRegMagic := by decide
  have off : bootChainRegUpdateFlagGet (bootChainRegMagicSet 0) = 0 := by decide
  unfold tegrablABInitBootSlotReg
  rw [if_neg reset]
  dsimp only
  cases active : tegrablABGetActiveSlot smd beyond with
  | error e =>
    constructor
    · intro requested
      have none : updateRequested (bootChainRegMagicSet 0) = false := by decide
      exact absurd requested (Bool.eq_false_iff.mp none)
    · rintro ⟨slot, found, -⟩
      cases found
  | ok slot =>
    have flag := updateFlagGet_save smd beyond slot (bootChainRegMagicSet 0)
    have saved := magicGet_save smd beyond slot (bootChainRegMagicSet 0)
    unfold updateRequested
    rw [saved, magic, flag, off]
    by_cases failed : (smd.slotInfoAt beyond slot).bootSuccessful = 0
    · rw [if_pos failed]
      simp [failed]
    · rw [if_neg failed]
      cases redundancy : bootctrlSupportRedundancy smd.smd.version with
      | true => simp
      | false => simp [failed]; decide

theorem persisted_of_written {st st' : Storage} {final smd : SlotMetaDataV2}
    (recognised : Recognised final) (ext : final.smdExt.payload = smd.smdExt.payload)
    (written : ∀ copy, st'.get copy = overwritten (st.get copy) (updateCrc final)) : Persisted st' smd := by
  have loads : ∀ copy, loadSmdBinCopy (st'.get copy) = .ok (updateCrc final) := by
    intro copy
    rw [written copy]
    exact load_overwritten recognised _
  have same := (samePayload_updateCrc final).2.trans ext
  refine ⟨fun copy => ⟨_, loads copy, same⟩, ?_⟩
  intro rfReg
  obtain ⟨copy, get⟩ := getSmd_of_loads (.inl (loads .primary))
  rw [get]
  exact ⟨_, rfl, same⟩

theorem not_persisted {st : Storage} {smd buffer : SlotMetaDataV2} (loads : Loads st smd)
    (ext : RootfsOnly smd buffer) (changed : buffer ≠ smd) : ¬ Persisted st buffer := by
  rintro ⟨copies, -⟩
  obtain ⟨stored, found, same⟩ := copies .primary
  rcases loads with primary | ⟨rejects, -⟩
  · cases found.symm.trans primary
    exact changed (eq_of_rootfsOnly ext same.symm)
  · exact rejects stored found

/-- A switch of the rootfs is flushed exactly when the boot slot was not yet successful or the
bootloader is redundant. -/
theorem rootfs_switch_persisted {st : Storage} {smd buffer : SlotMetaDataV2} {rfReg oldReg : UInt32}
    (beyond : Nat → UInt8) (loads : Loads st smd)
    (got : (tegrablABGetSmd st {} rfReg true true).result = .ok buffer) (changed : buffer ≠ smd)
    (reset : bootChainRegMagicGet oldReg ≠ bootChainRegMagic)
    (returned : (tegrablABUpdateSmd st (tegrablABGetSmd st {} rfReg true true).statics
      (tegrablABInitBootSlotReg smd beyond oldReg).2 (tegrablABGetSmd st {} rfReg true true).rfReg
      true true .done .done).ended = .returned (.ok ())) :
    Persisted (tegrablABUpdateSmd st (tegrablABGetSmd st {} rfReg true true).statics
      (tegrablABInitBootSlotReg smd beyond oldReg).2 (tegrablABGetSmd st {} rfReg true true).rfReg
      true true .done .done).store buffer ↔ ∃ slot, tegrablABGetActiveSlot smd beyond = .ok slot ∧
      ((smd.slotInfoAt beyond slot).bootSuccessful = 0 ∨ bootctrlSupportRedundancy smd.smd.version = true) := by
  rw [← initBootSlotReg_reset smd beyond reset]
  generalize (tegrablABInitBootSlotReg smd beyond oldReg).2 = bootReg at returned ⊢
  have ext := rootfsOnly_select smd (tegrablABInitRootfsSlotReg smd rfReg)
  obtain ⟨copy, update⟩ := updateSmd_of_loads loads
  obtain ⟨result, -, update⟩ := update bootReg rfReg
  obtain rfl := Except.ok.inj (result.symm.trans got)
  rw [update] at returned ⊢
  generalize tegrablABSelectActiveRootfs smd (tegrablABInitRootfsSlotReg smd rfReg) = selected at *
  obtain ⟨buffer, rfReg'⟩ := selected
  constructor
  · intro persisted
    by_contra off
    rw [updateLoaded_off (Bool.eq_false_iff.mpr off)] at persisted
    exact not_persisted loads ext changed persisted
  · intro requested
    obtain ⟨b, checked⟩ := checked_of_returned requested returned
    have only := (slotsOnly_check checked).trans (slotsOnly_copyRetryCount b.smd b.bootReg)
    have recognised := ext.recognised (recognised_of_loads loads)
    let vars : Statics := ⟨some copy, some buffer, some smd⟩
    have differs : vars.smdBackup ≠ some (copyRetryCountToSmd b.smd b.bootReg) := by
      intro same
      have whole : buffer.smdExt = smd.smdExt := by
        rw [Option.some.inj same]
        exact only.1.symm
      exact changed (eq_of_rootfsOnly ext (congrArg _ whole))
    obtain ⟨st', after, written⟩ := flushIfChanged_changed
      (b := { b with smd := copyRetryCountToSmd b.smd b.bootReg }) st differs
    rw [updateLoaded_checked requested checked, after]
    exact persisted_of_written (only.recognised recognised) (congrArg _ only.1) written

def rootfsImage (bootSuccessful : Bool) : SlotMetaDataV2 :=
  let slot : BootSlotInfo := ⟨15, .two 95 97, 7, if bootSuccessful then 1 else 0⟩
  { smd := ⟨bootChainMagic, 0x0404, 2, (slot, slot), if bootSuccessful then 305724647 else 2925731796⟩
    smdExt := ⟨3697022760, 0, 0, 0, 3, (0, 0), (0, 0), 0, (0, 0), 7, .zeros 144⟩ }

def rootfsStore (bootSuccessful : Bool) : Storage :=
  ⟨overwritten erased (rootfsImage bootSuccessful), overwritten erased (rootfsImage bootSuccessful)⟩

def zeros (_ : Nat) : UInt8 := 0

def spentReg : UInt32 := 0xFACE

def rootfsSwitched (bootSuccessful : Bool) : SlotMetaDataV2 :=
  (tegrablABSelectActiveRootfs (rootfsImage bootSuccessful) spentReg).1

def rootfsUpdate (bootSuccessful : Bool) : Updated :=
  let get := tegrablABGetSmd (rootfsStore bootSuccessful) {} spentReg true true
  tegrablABUpdateSmd (rootfsStore bootSuccessful) get.statics
    (tegrablABInitBootSlotReg (rootfsImage bootSuccessful) zeros 0).2 get.rfReg true true
    .done .done

variable (bootSuccessful : Bool)

theorem loads_rootfsStore :
    Loads (rootfsStore bootSuccessful) (rootfsImage bootSuccessful) := by
  apply loads_of_check
  cases bootSuccessful <;> decide +kernel

theorem got_rootfsStore :
    (tegrablABGetSmd (rootfsStore bootSuccessful) {} spentReg true true).result =
      .ok (rootfsSwitched bootSuccessful) := by
  obtain ⟨copy, get⟩ := getSmd_of_loads (loads_rootfsStore bootSuccessful)
  rw [get]
  cases bootSuccessful <;> rfl

theorem rootfsSwitched_ne : rootfsSwitched bootSuccessful ≠ rootfsImage bootSuccessful := by
  cases bootSuccessful <;> decide

def rootfsBoot : Boot :=
  ⟨(tegrablABInitBootSlotReg (rootfsImage false) zeros 0).2,
    (tegrablABSelectActiveRootfs (rootfsImage false) spentReg).2, rootfsSwitched false⟩

theorem requested_rootfsBoot : updateRequested rootfsBoot.bootReg = true := by decide

theorem check_rootfsBoot : checkIfRedundancyBoot rootfsBoot = .ok rootfsBoot := by
  have ota : ¬ (bootChainRegUpdateFlagGet rootfsBoot.bootReg = bcFlagRedundancyBoot ∧
      bootctrlSupportRedundancy (tegrablABGetVersion rootfsBoot.smd)) := by decide
  exact if_neg ota

theorem rootfsUpdate_returned : (rootfsUpdate bootSuccessful).ended = .returned (.ok ()) := by
  have loads := loads_rootfsStore bootSuccessful
  obtain ⟨copy, update⟩ := updateSmd_of_loads loads
  unfold rootfsUpdate
  dsimp only
  rw [(update _ _).2.2]
  cases bootSuccessful with
  | true =>
    rw [updateLoaded_off (by decide)]
  | false =>
    have recognised : Recognised (rootfsSwitched false) := fun _ => rfl
    have kept : (⟨some copy, some (rootfsSwitched false), some (rootfsImage false)⟩ :
        Statics).smdBackup = some (rootfsImage false) := rfl
    obtain ⟨updated, after, returned, -⟩ := updateLoaded_loads loads kept recognised
      requested_rootfsBoot check_rootfsBoot
    exact (congrArg Updated.ended after).trans returned

/-- The slot was not yet successful: the switch is flushed. -/
theorem rootfs_switch_persisted_ota : (rootfsUpdate false).ended = .returned (.ok ()) ∧
    Persisted (rootfsUpdate false).store (rootfsSwitched false) := by
  have returned := rootfsUpdate_returned false
  have active : tegrablABGetActiveSlot (rootfsImage false) zeros = .ok 0 :=
    getActiveSlot_two _ rfl rfl
  refine ⟨returned, ?_⟩
  have reset : bootChainRegMagicGet 0 ≠ bootChainRegMagic := by decide
  apply (rootfs_switch_persisted zeros (loads_rootfsStore false) (got_rootfsStore false)
    (rootfsSwitched_ne false) reset returned).mpr
  exact ⟨0, active, .inl rfl⟩

/-- The slot was successful and the bootloader is not redundant: the switch is lost. -/
theorem rootfs_switch_persisted_lost : Loads (rootfsStore true) (rootfsImage true) ∧
    (tegrablABGetSmd (rootfsStore true) {} spentReg true true).result = .ok (rootfsSwitched true) ∧
    rootfsSwitched true ≠ rootfsImage true ∧ (rootfsUpdate true).ended = .returned (.ok ()) ∧
    ¬ Persisted (rootfsUpdate true).store (rootfsSwitched true) := by
  have same : (rootfsUpdate true).store = rootfsStore true := by
    obtain ⟨copy, update⟩ := updateSmd_of_loads (loads_rootfsStore true)
    unfold rootfsUpdate
    dsimp only
    rw [(update _ _).2.2, updateLoaded_off (by decide)]
  refine ⟨loads_rootfsStore true, got_rootfsStore true, rootfsSwitched_ne true, rootfsUpdate_returned true, ?_⟩
  rw [same]
  exact not_persisted (loads_rootfsStore true) (rootfsOnly_select _ _) (rootfsSwitched_ne true)

end Cboot.Smd
