import Cboot.Smd.Failover

/-!
The register is set up for the selection by `tegrabl_a_b_init_rootfs_slot_reg`, which looks at the bit for unified A/B
only, while `tegrabl_a_b_select_active_rootfs` looks at the version as well.
-/

namespace Cboot.Smd

def unifiedAgree (version : UInt16) : Bool :=
  !bootctrlSupportUnifiedAb version || bootctrlFeatureUnifiedAb version

structure Kept (smd : SlotMetaDataV2) (get : GetSmd) : Prop where
  buffer : ∃ buffer, get.result = .ok buffer ∧ buffer.smdExt.rootfsStatus = smd.smdExt.rootfsStatus ∧
    activeOf buffer = activeOf smd
  retry : bootctrlIsUnifiedAbEnabled smd.smd.version = false →
    retryOf get.rfReg = (tegrablABGetRootfsRetryCount smd).toNat - 1

section
variable {smd : SlotMetaDataV2} {rfReg : UInt32}

variable (rootfsAb : bootctrlSupportRootfsAb smd.smd.version = true)
include rootfsAb

theorem enabled_eq :
    bootctrlIsUnifiedAbEnabled smd.smd.version =
      (bootctrlSupportUnifiedAb smd.smd.version && bootctrlFeatureUnifiedAb smd.smd.version) := by
  unfold bootctrlIsUnifiedAbEnabled
  rw [rootfsAb, Bool.and_true]

omit rootfsAb in
theorem select_enabled (enabled : bootctrlIsUnifiedAbEnabled smd.smd.version = true) :
    tegrablABSelectActiveRootfs smd rfReg = (smd, rfReg) := by
  unfold tegrablABSelectActiveRootfs tegrablABGetVersion
  dsimp only
  rw [enabled, Bool.or_true, if_pos rfl]

theorem retry_initReg_unified
    (unified : bootctrlSupportUnifiedAb smd.smd.version = true)
    (absent : rootfsAbRegMagicGet rfReg ≠ rootfsAbRegMagic) : retryOf (tegrablABInitRootfsSlotReg smd rfReg) = 0 := by
  rw [initReg_absent (usesRootfsReg_of_rootfsAb rootfsAb) absent, rootfsAb, unified, if_neg (by decide)]
  decide

theorem active_of_spent
    (notEnabled : bootctrlIsUnifiedAbEnabled smd.smd.version = false) (spent : retryOf rfReg = 0)
    (known : activeOf smd = rootfsA ∨ activeOf smd = rootfsB) :
    activeOf (tegrablABSelectActiveRootfs smd rfReg).1 ≠ activeOf smd := by
  rw [select_spent rootfsAb notEnabled spent rfl]
  split
  · have other := otherRootfs_valid (activeOf smd)
    have switched := activeOf_activate (markFailed smd (activeOf smd)) (other.imp_right Or.inl)
    exact fun same => otherRootfs_ne known (switched.symm.trans same)
  · have switched := activeOf_activate (markFailed smd (activeOf smd)) (.inr (.inr rfl))
    exact fun same => ne_invalid known (same.symm.trans switched)

omit rootfsAb in
theorem kept_of_agree (copy : SmdBinCopy) (rootfsAb : bootctrlSupportRootfsAb smd.smd.version = true)
    (left : tegrablABGetRootfsRetryCount smd ≠ 0) (absent : rootfsAbRegMagicGet rfReg ≠ rootfsAbRegMagic)
    (agree : unifiedAgree smd.smd.version = true) : Kept smd (initSmd copy smd rfReg) := by
  unfold initSmd
  dsimp only
  cases unified : bootctrlSupportUnifiedAb smd.smd.version with
  | true =>
    have enabled : bootctrlIsUnifiedAbEnabled smd.smd.version = true := by
      rw [enabled_eq rootfsAb, unified, Bool.true_and]
      simpa [unifiedAgree, unified] using agree
    rw [select_enabled enabled]
    refine ⟨⟨smd, rfl, rfl, rfl⟩, fun notEnabled => ?_⟩
    rw [enabled] at notEnabled
    cases notEnabled
  | false =>
    have notEnabled : bootctrlIsUnifiedAbEnabled smd.smd.version = false := by
      rw [enabled_eq rootfsAb, unified, Bool.false_and]
    have count := retry_initReg rootfsAb unified absent
    have positive : 0 < (tegrablABGetRootfsRetryCount smd).toNat :=
      Nat.pos_of_ne_zero fun zero => left (UInt8.toNat_inj.mp zero)
    rw [select_retry rootfsAb notEnabled (by omega)]
    refine ⟨⟨smd, rfl, rfl, rfl⟩, fun _ => ?_⟩
    have small := retryCount_lt smd
    unfold retryOf at count
    exact (retryOf_pred (by omega) (by omega) _).trans (by rw [count])

theorem agree_of_kept {copy : SmdBinCopy}
    (known : activeOf smd = rootfsA ∨ activeOf smd = rootfsB)
    (absent : rootfsAbRegMagicGet rfReg ≠ rootfsAbRegMagic) (kept : Kept smd (initSmd copy smd rfReg)) :
    unifiedAgree smd.smd.version = true := by
  by_contra disagree
  simp only [unifiedAgree, Bool.or_eq_true, Bool.not_eq_true', not_or, Bool.not_eq_false, Bool.not_eq_true]
    at disagree
  obtain ⟨unified, old⟩ := disagree
  have notEnabled : bootctrlIsUnifiedAbEnabled smd.smd.version = false := by
    rw [enabled_eq rootfsAb, old, Bool.and_false]
  obtain ⟨buffer, result, -, active⟩ := kept.buffer
  have same : (tegrablABSelectActiveRootfs smd (tegrablABInitRootfsSlotReg smd rfReg)).1 = buffer :=
    Except.ok.inj result
  rw [← same] at active
  exact active_of_spent rootfsAb notEnabled (retry_initReg_unified rootfsAb unified absent) known active

end

/-- A rootfs with tries left is kept by a power-on if and only if the bit for unified A/B is clear or the
version has unified A/B. -/
theorem power_on_iff {st : Storage} {smd : SlotMetaDataV2} {rfReg : UInt32} (loads : Loads st smd)
    (rootfsAb : bootctrlSupportRootfsAb smd.smd.version = true)
    (known : activeOf smd = rootfsA ∨ activeOf smd = rootfsB) (left : tegrablABGetRootfsRetryCount smd ≠ 0)
    (absent : rootfsAbRegMagicGet rfReg ≠ rootfsAbRegMagic) :
    Kept smd (tegrablABGetSmd st {} rfReg true true) ↔ unifiedAgree smd.smd.version = true := by
  obtain ⟨copy, get⟩ := getSmd_of_loads loads
  rw [get]
  exact ⟨agree_of_kept rootfsAb known absent, kept_of_agree copy rootfsAb left absent⟩

theorem power_on_kept : Loads (rootfsStore true) (rootfsImage true) ∧
      Kept (rootfsImage true) (tegrablABGetSmd (rootfsStore true) {} 0 true true) :=
  ⟨loads_rootfsStore true,
    (power_on_iff (loads_rootfsStore true) (by decide) (.inl (by decide)) (by decide) (by decide)).mpr (by decide)⟩

def mixedImage : SlotMetaDataV2 :=
  updateCrc { rootfsImage true with smd := { (rootfsImage true).smd with version := 0x2404 } }

def mixedStore : Storage := ⟨overwritten erased mixedImage, overwritten erased mixedImage⟩

/-- Rootfs A has three tries, and rootfs B is active after the first boot. -/
theorem power_on_failed : ¬ ∀ (st : Storage) (smd : SlotMetaDataV2) (rfReg : UInt32), Loads st smd →
      bootctrlSupportRootfsAb smd.smd.version = true → (activeOf smd = rootfsA ∨ activeOf smd = rootfsB) →
        tegrablABGetRootfsRetryCount smd ≠ 0 → rootfsAbRegMagicGet rfReg ≠ rootfsAbRegMagic →
          Kept smd (tegrablABGetSmd st {} rfReg true true) := by
  intro claim
  have loads : Loads mixedStore mixedImage := loads_of_check (by decide +kernel) _ _
  have kept := claim mixedStore mixedImage 0 loads (by decide +kernel) (.inl (by decide))
    (by decide) (by decide)
  obtain ⟨copy, get⟩ := getSmd_of_loads loads
  rw [get] at kept
  obtain ⟨buffer, result, -, active⟩ := kept.buffer
  have switched : activeOf (tegrablABSelectActiveRootfs mixedImage (tegrablABInitRootfsSlotReg mixedImage 0)).1 ≠
      activeOf mixedImage := by
    decide
  rw [show buffer = _ from (Except.ok.inj result).symm] at active
  exact switched active

end Cboot.Smd
