import Cboot.Smd.Persist

/-!
A device boots again and again, without user space ever clearing the rootfs register.
-/

namespace Cboot.Smd
open Lib Lib.BitField

namespace Device

def boot (d : Device) (bootReg : UInt32) : Device :=
  ⟨(d.update bootReg).store, (d.update bootReg).rfReg⟩

def after (d : Device) (bootRegs : Nat → UInt32) : Nat → Device
  | 0 => d
  | n + 1 => (d.after bootRegs n).boot (bootRegs n)

end Device

def otherRootfs (id : UInt8) : UInt8 := if id = 0 then 1 else 0

structure RootfsAb (version : UInt16) : Prop where
  rootfsAb : bootctrlSupportRootfsAb version = true
  notUnified : bootctrlSupportUnifiedAb version = false
  notUser : bootctrlSupportRedundancyUser version = false

def statusOf (smd : SlotMetaDataV2) (id : UInt8) : UInt8 :=
  if id = 0 then smd.smdExt.rootfsStatus.1 else smd.smdExt.rootfsStatus.2

def activeOf (smd : SlotMetaDataV2) : UInt8 := getRootfsActive smd.smdExt.rootfsSelect

def retryOf (rfReg : UInt32) : Nat := (rootfsAbRegRetryCountGet rfReg).toNat

theorem active_setRetry {m : UInt8} (small : m.toNat < 4) (select : UInt8) :
    getRootfsActive (setRootfsRetryCount m select) = getRootfsActive select := by
  have all : ∀ m < 4, ∀ select < 256, getRootfsActive (setRootfsRetryCount (UInt8.ofNat m) (UInt8.ofNat select)) =
        getRootfsActive (UInt8.ofNat select) := by
    decide +kernel
  have at_ := all m.toNat small select.toNat select.toNat_lt
  rwa [UInt8.ofNat_toNat, UInt8.ofNat_toNat] at at_

theorem active_setActive {id : UInt8} (small : id.toNat < 4) (select : UInt8) :
    getRootfsActive (setRootfsActive id select) = id := by
  have all : ∀ id < 4, ∀ select < 256,
      getRootfsActive (setRootfsActive (UInt8.ofNat id) (UInt8.ofNat select)) = UInt8.ofNat id := by
    decide +kernel
  have at_ := all id.toNat small select.toNat select.toNat_lt
  rwa [UInt8.ofNat_toNat, UInt8.ofNat_toNat] at at_

theorem retry_setRetry {m : UInt8} (small : m.toNat < 4) (select : UInt8) :
    getRootfsRetryCount (setRootfsRetryCount m select) = m := by
  have all : ∀ m < 4, ∀ select < 256, getRootfsRetryCount (setRootfsRetryCount (UInt8.ofNat m) (UInt8.ofNat select)) =
        UInt8.ofNat m := by
    decide +kernel
  have at_ := all m.toNat small select.toNat select.toNat_lt
  rwa [UInt8.ofNat_toNat, UInt8.ofNat_toNat] at at_

theorem maxRetry_bounds (smd : SlotMetaDataV2) :
    0 < (tegrablGetRootfsMaxRetryCount smd).toNat ∧ (tegrablGetRootfsMaxRetryCount smd).toNat < 4 := by
  unfold tegrablGetRootfsMaxRetryCount
  dsimp only
  generalize (if bootChainVersionGet (tegrablABGetVersion smd) < bootChainVersionUnifyRfBlAb then
    rootfsRetryCountDefault else getRootfsRetryCount smd.smdExt.rootfsMiscInfo) = count
  split
  · decide
  · rename_i valid
    rw [not_or] at valid
    obtain ⟨above, zero⟩ := valid
    constructor
    · exact Nat.pos_of_ne_zero fun none => zero (UInt8.toNat_inj.mp none)
    · exact Nat.lt_succ_of_le (UInt8.le_iff_toNat_le.mp (UInt8.not_lt.mp above))

theorem retryOf_set {count : UInt32} (small : count.toNat < 4) (rfReg : UInt32) :
    retryOf (rootfsAbRegRetryCountSet count rfReg) = count.toNat := by
  unfold retryOf
  simp (disch := decide) only [rfRetryGet_eq, rfRetrySet_eq, get32_set32_same]
  rw [UInt32.toNat_and]
  exact Nat.and_two_pow_sub_one_of_lt_two_pow (n := 2) small

theorem retryCount_lt (smd : SlotMetaDataV2) : (tegrablABGetRootfsRetryCount smd).toNat < 4 := by
  unfold tegrablABGetRootfsRetryCount getRootfsRetryCount
  rw [UInt8.toNat_and]
  exact Nat.lt_succ_of_le Nat.and_le_right

theorem retryOf_pred {count : UInt32} (positive : 0 < count.toNat) (small : count.toNat < 5) (rfReg : UInt32) :
    retryOf (rootfsAbRegRetryCountSet (count - 1) rfReg) = count.toNat - 1 := by
  have pred : (count - 1).toNat = count.toNat - 1 := UInt32.toNat_sub_of_le _ _ positive
  rw [retryOf_set (by omega), pred]

theorem RootfsAb.notEnabled {version : UInt16} (kind : RootfsAb version) :
    bootctrlIsUnifiedAbEnabled version = false := by
  unfold bootctrlIsUnifiedAbEnabled
  rw [kind.notUnified]
  rfl

theorem usesRootfsReg_of_rootfsAb {version : UInt16} (rootfsAb : bootctrlSupportRootfsAb version = true) :
    usesRootfsReg version = true := by
  unfold usesRootfsReg
  rw [rootfsAb, Bool.or_true]

def markFailed (smd : SlotMetaDataV2) (id : UInt8) : SlotMetaDataV2 :=
  orUnchanged smd (tegrablABSetRootfsStatus smd id rootfsStatusBootFailed)

def activate (smd : SlotMetaDataV2) (id : UInt8) : SlotMetaDataV2 :=
  orUnchanged smd (tegrablABSetActiveRootfs smd id)

section
variable (smd : SlotMetaDataV2)

theorem getRootfsStatus_eq {id : UInt8} (valid : id = 0 ∨ id = 1) :
    tegrablABGetRootfsStatus smd id = .ok (statusOf smd id) := by
  rcases valid with rfl | rfl <;> rfl

theorem id_of_status {smd : SlotMetaDataV2} {id status : UInt8}
    (found : tegrablABGetRootfsStatus smd id = .ok status) : id = 0 ∨ id = 1 := by
  have below : id < 2 := by
    by_contra above
    have past : maxSlots ≤ id := UInt8.not_lt.mp above
    unfold tegrablABGetRootfsStatus at found
    rw [if_pos past] at found
    cases found
  have small : id.toNat < 2 := UInt8.lt_iff_toNat_lt.mp below
  rcases Nat.lt_succ_iff_lt_or_eq.mp small with zero | one
  · exact .inl (UInt8.toNat_inj.mp (Nat.lt_one_iff.mp zero))
  · exact .inr (UInt8.toNat_inj.mp one)

theorem statusOf_markFailed {id other : UInt8} (valid : id = 0 ∨ id = 1) (valid' : other = 0 ∨ other = 1) :
    statusOf (markFailed smd id) other =
      if other = id then rootfsStatusBootFailed else statusOf smd other := by
  rcases valid with rfl | rfl <;> rcases valid' with rfl | rfl <;> rfl

theorem markFailed_invalid : markFailed smd rootfsInvalid = smd := rfl

theorem smd_markFailed (id : UInt8) : (markFailed smd id).smd = smd.smd :=
  (rootfsOnly_setRootfsStatus smd id rootfsStatusBootFailed).smd

theorem misc_markFailed (id : UInt8) : (markFailed smd id).smdExt.rootfsMiscInfo = smd.smdExt.rootfsMiscInfo := by
  unfold markFailed tegrablABSetRootfsStatus
  split
  · rfl
  · split <;> rfl

variable {id : UInt8}

theorem activate_eq (valid : id = 0 ∨ id = 1 ∨ id = 3) : activate smd id = { smd with smdExt := { smd.smdExt with
        rootfsSelect := setRootfsRetryCount (tegrablGetRootfsMaxRetryCount smd)
          (setRootfsActive id smd.smdExt.rootfsSelect) } } := by
  rcases valid with rfl | rfl | rfl <;> rfl

theorem activeOf_activate (valid : id = 0 ∨ id = 1 ∨ id = 3) : activeOf (activate smd id) = id := by
  have small : id.toNat < 4 := by
    rcases valid with rfl | rfl | rfl <;> decide
  rw [activate_eq smd valid]
  exact (active_setRetry (maxRetry_bounds smd).2 _).trans (active_setActive small _)

theorem retryCount_activate (valid : id = 0 ∨ id = 1 ∨ id = 3) :
    tegrablABGetRootfsRetryCount (activate smd id) = tegrablGetRootfsMaxRetryCount smd := by
  rw [activate_eq smd valid]
  exact retry_setRetry (maxRetry_bounds smd).2 _

theorem smd_activate : (activate smd id).smd = smd.smd := (rootfsOnly_setActiveRootfs smd id).smd

theorem misc_activate : (activate smd id).smdExt.rootfsMiscInfo = smd.smdExt.rootfsMiscInfo := by
  unfold activate tegrablABSetActiveRootfs
  split <;> rfl

theorem statusOf_activate (other : UInt8) : statusOf (activate smd id) other = statusOf smd other := by
  unfold activate tegrablABSetActiveRootfs
  split <;> rfl

end

section
variable {smd : SlotMetaDataV2} {rfReg : UInt32}

theorem select_retry (rootfsAb : bootctrlSupportRootfsAb smd.smd.version = true)
    (notEnabled : bootctrlIsUnifiedAbEnabled smd.smd.version = false) (left : retryOf rfReg ≠ 0) :
    tegrablABSelectActiveRootfs smd rfReg =
      (smd, rootfsAbRegRetryCountSet (rootfsAbRegRetryCountGet rfReg - 1) rfReg) := by
  have count : rootfsAbRegRetryCountGet rfReg ≠ 0 := fun zero => left (congrArg UInt32.toNat zero)
  unfold tegrablABSelectActiveRootfs tegrablABGetVersion
  dsimp only
  rw [rootfsAb, notEnabled, if_neg (by decide), if_neg count]

theorem select_spent (rootfsAb : bootctrlSupportRootfsAb smd.smd.version = true)
    (notEnabled : bootctrlIsUnifiedAbEnabled smd.smd.version = false) (spent : retryOf rfReg = 0) {id : UInt8} (active : activeOf smd = id) :
    tegrablABSelectActiveRootfs smd rfReg =
      if statusOf (markFailed smd id) (otherRootfs id) = rootfsStatusNormal then
        (activate (markFailed smd id) (otherRootfs id), rootfsAbRegRetryCountSet ((tegrablABGetRootfsRetryCount
            (activate (markFailed smd id) (otherRootfs id))).toUInt32 - 1) rfReg)
      else (activate (markFailed smd id) rootfsInvalid, rfReg) := by
  have count : rootfsAbRegRetryCountGet rfReg = 0 := UInt32.toNat_inj.mp spent
  have valid : otherRootfs id = 0 ∨ otherRootfs id = 1 := by
    unfold otherRootfs
    split
    · exact .inr rfl
    · exact .inl rfl
  have status := getRootfsStatus_eq (markFailed smd id) valid
  unfold tegrablABSelectActiveRootfs tegrablABGetVersion
  dsimp only
  rw [rootfsAb, notEnabled, if_neg (by decide), if_pos count]
  subst active
  have found : tegrablABGetRootfsStatus
      (orUnchanged smd (tegrablABSetRootfsStatus smd (getRootfsActive smd.smdExt.rootfsSelect)
        rootfsStatusBootFailed))
      (if getRootfsActive smd.smdExt.rootfsSelect = 0 then 1 else 0) = _ := status
  rw [found]
  rfl

end

structure Base where
  version : UInt16
  misc : UInt8
  /-- The rootfs that is active at first, and its status. -/
  x : UInt8
  status : UInt8
  /-- How often each rootfs is tried. -/
  r : Nat
  m : Nat

/-- What holds before boot `n` selects a rootfs, with the register initialised. -/
inductive Stage (base : Base) (n : Nat) (smd : SlotMetaDataV2) (rfReg : UInt32) : Prop
  | first (inside : n ≤ base.r) (active : activeOf smd = base.x) (status : statusOf smd base.x = base.status)
    (other : statusOf smd (otherRootfs base.x) = rootfsStatusNormal)
    (left : retryOf rfReg = base.r - n)
  | second (past : base.r < n) (inside : n ≤ base.r + base.m)
    (active : activeOf smd = otherRootfs base.x)
    (failed : statusOf smd base.x = rootfsStatusBootFailed)
    (other : statusOf smd (otherRootfs base.x) = rootfsStatusNormal)
    (left : retryOf rfReg = base.r + base.m - n)
  | dead (past : base.r + base.m < n) (active : activeOf smd = rootfsInvalid)
    (failed : statusOf smd base.x = rootfsStatusBootFailed)
    (failed' : statusOf smd (otherRootfs base.x) = rootfsStatusBootFailed)
    (left : retryOf rfReg = 0)

structure Belongs (base : Base) (smd : SlotMetaDataV2) : Prop where
  version : smd.smd.version = base.version
  misc : smd.smdExt.rootfsMiscInfo = base.misc

structure Base.Valid (base : Base) : Prop where
  kind : RootfsAb base.version
  x : base.x = 0 ∨ base.x = 1
  r : base.r < 4
  /-- The maximum is the one of every buffer of the run. -/
  max : ∀ smd, Belongs base smd → (tegrablGetRootfsMaxRetryCount smd).toNat = base.m

theorem otherRootfs_valid (id : UInt8) : otherRootfs id = 0 ∨ otherRootfs id = 1 := by
  unfold otherRootfs
  split
  · exact .inr rfl
  · exact .inl rfl

theorem otherRootfs_ne {id : UInt8} (valid : id = 0 ∨ id = 1) : otherRootfs id ≠ id := by
  rcases valid with rfl | rfl <;> decide

theorem otherRootfs_otherRootfs {id : UInt8} (valid : id = 0 ∨ id = 1) : otherRootfs (otherRootfs id) = id := by
  rcases valid with rfl | rfl <;> rfl

theorem ne_invalid {id : UInt8} (valid : id = 0 ∨ id = 1) : id ≠ rootfsInvalid := by
  rcases valid with rfl | rfl <;> decide

section
variable {base : Base} {n : Nat} {smd : SlotMetaDataV2} {rfReg : UInt32}

theorem belongs_markFailed (belongs : Belongs base smd) (id : UInt8) : Belongs base (markFailed smd id) :=
  ⟨by rw [smd_markFailed, belongs.version], by rw [misc_markFailed, belongs.misc]⟩

theorem belongs_activate (belongs : Belongs base smd) (id : UInt8) : Belongs base (activate smd id) :=
  ⟨by rw [smd_activate, belongs.version], by rw [misc_activate, belongs.misc]⟩

theorem belongs_select (valid : base.Valid) (belongs : Belongs base smd) (rfReg : UInt32) :
    Belongs base (tegrablABSelectActiveRootfs smd rfReg).1 := by
  have kind : RootfsAb smd.smd.version := by
    rw [belongs.version]
    exact valid.kind
  by_cases spent : retryOf rfReg = 0
  · rw [select_spent kind.rootfsAb kind.notEnabled spent rfl]
    have marked := belongs_markFailed belongs (activeOf smd)
    split
    · exact belongs_activate marked (otherRootfs (activeOf smd))
    · exact belongs_activate marked rootfsInvalid
  · rw [select_retry kind.rootfsAb kind.notEnabled spent]
    exact belongs

theorem retry_pred (kind : RootfsAb smd.smd.version) {left : Nat} (count : retryOf rfReg = left + 1)
    (small : left < 4) : (tegrablABSelectActiveRootfs smd rfReg).1 = smd ∧
      retryOf (tegrablABSelectActiveRootfs smd rfReg).2 = left := by
  rw [select_retry kind.rootfsAb kind.notEnabled (by omega)]
  have positive : 0 < (rootfsAbRegRetryCountGet rfReg).toNat := by
    unfold retryOf at count
    omega
  have bound : (rootfsAbRegRetryCountGet rfReg).toNat < 5 := by
    unfold retryOf at count
    omega
  refine ⟨rfl, (retryOf_pred positive bound rfReg).trans ?_⟩
  unfold retryOf at count
  omega

theorem spent_switch (valid : base.Valid) (belongs : Belongs base smd)
    (kind : RootfsAb smd.smd.version) {id : UInt8} (known : id = 0 ∨ id = 1)
    (spent : retryOf rfReg = 0) (active : activeOf smd = id)
    (normal : statusOf smd (otherRootfs id) = rootfsStatusNormal) :
    activeOf (tegrablABSelectActiveRootfs smd rfReg).1 = otherRootfs id ∧
      statusOf (tegrablABSelectActiveRootfs smd rfReg).1 id = rootfsStatusBootFailed ∧
      statusOf (tegrablABSelectActiveRootfs smd rfReg).1 (otherRootfs id) = rootfsStatusNormal ∧
      retryOf (tegrablABSelectActiveRootfs smd rfReg).2 = base.m - 1 := by
  have other := otherRootfs_valid id
  have bounds := maxRetry_bounds (markFailed smd id)
  have max := valid.max _ (belongs_markFailed belongs id)
  have restored := retryCount_activate (markFailed smd id) (other.imp_right .inl)
  have marked := statusOf_markFailed smd known known
  have kept := statusOf_markFailed smd known other
  rw [if_neg (otherRootfs_ne known)] at kept
  rw [if_pos rfl] at marked
  rw [select_spent kind.rootfsAb kind.notEnabled spent active, if_pos (kept.trans normal), restored, statusOf_activate,
    statusOf_activate]
  refine ⟨activeOf_activate _ (other.imp_right .inl), marked, kept.trans normal, ?_⟩
  have same : (tegrablGetRootfsMaxRetryCount (markFailed smd id)).toUInt32.toNat = base.m := max
  rw [retryOf_pred (by omega) (by omega), same]

theorem spent_dead (kind : RootfsAb smd.smd.version) {id : UInt8} (known : id = 0 ∨ id = 1)
    (spent : retryOf rfReg = 0) (active : activeOf smd = id)
    (failed : statusOf smd (otherRootfs id) = rootfsStatusBootFailed) :
    activeOf (tegrablABSelectActiveRootfs smd rfReg).1 = rootfsInvalid ∧
      statusOf (tegrablABSelectActiveRootfs smd rfReg).1 id = rootfsStatusBootFailed ∧
      statusOf (tegrablABSelectActiveRootfs smd rfReg).1 (otherRootfs id) = rootfsStatusBootFailed ∧
      (tegrablABSelectActiveRootfs smd rfReg).2 = rfReg := by
  have marked := statusOf_markFailed smd known known
  have kept := statusOf_markFailed smd known (otherRootfs_valid id)
  rw [if_neg (otherRootfs_ne known)] at kept
  rw [if_pos rfl] at marked
  have abnormal : statusOf (markFailed smd id) (otherRootfs id) ≠ rootfsStatusNormal := by
    rw [kept, failed]
    decide
  rw [select_spent kind.rootfsAb kind.notEnabled spent active, if_neg abnormal, statusOf_activate, statusOf_activate]
  exact ⟨activeOf_activate _ (.inr (.inr rfl)), marked, kept.trans failed, rfl⟩

theorem spent_still (kind : RootfsAb smd.smd.version) (spent : retryOf rfReg = 0)
    (active : activeOf smd = rootfsInvalid) (failed : statusOf smd 0 = rootfsStatusBootFailed) :
    activeOf (tegrablABSelectActiveRootfs smd rfReg).1 = rootfsInvalid ∧
      (∀ id, statusOf (tegrablABSelectActiveRootfs smd rfReg).1 id = statusOf smd id) ∧
      (tegrablABSelectActiveRootfs smd rfReg).2 = rfReg := by
  have abnormal : statusOf (markFailed smd rootfsInvalid) (otherRootfs rootfsInvalid) ≠ rootfsStatusNormal := by
    rw [markFailed_invalid]
    show statusOf smd 0 ≠ rootfsStatusNormal
    rw [failed]
    decide
  rw [select_spent kind.rootfsAb kind.notEnabled spent active, if_neg abnormal, markFailed_invalid]
  exact ⟨activeOf_activate _ (.inr (.inr rfl)), statusOf_activate _, rfl⟩

theorem stage_select (valid : base.Valid) (belongs : Belongs base smd) (stage : Stage base n smd rfReg) :
    Stage base (n + 1) (tegrablABSelectActiveRootfs smd rfReg).1 (tegrablABSelectActiveRootfs smd rfReg).2 := by
  have kind : RootfsAb smd.smd.version := by
    rw [belongs.version]
    exact valid.kind
  have bounds := maxRetry_bounds smd
  rw [valid.max smd belongs] at bounds
  have small := valid.r
  cases stage with
  | first inside active status normal left =>
    rcases Nat.lt_or_eq_of_le inside with below | rfl
    · obtain ⟨same, retry⟩ := retry_pred kind (show retryOf rfReg = (base.r - n - 1) + 1 by omega)
        (by omega)
      rw [same]
      exact .first below active status normal (by omega)
    · have spent : retryOf rfReg = 0 := by omega
      obtain ⟨active', failed, normal', retry⟩ :=
        spent_switch valid belongs kind valid.x spent active normal
      exact .second (by omega) (by omega) active' failed normal' (by omega)
  | second past inside active failed normal left =>
    rcases Nat.lt_or_eq_of_le inside with below | rfl
    · obtain ⟨same, retry⟩ := retry_pred kind
        (show retryOf rfReg = (base.r + base.m - n - 1) + 1 by omega) (by omega)
      rw [same]
      exact .second (by omega) below active failed normal (by omega)
    · have back := otherRootfs_otherRootfs valid.x
      have failed' : statusOf smd (otherRootfs (otherRootfs base.x)) = rootfsStatusBootFailed := by
        rw [back]
        exact failed
      have spent : retryOf rfReg = 0 := by omega
      obtain ⟨dead, other, first, same⟩ :=
        spent_dead kind (otherRootfs_valid _) spent active failed'
      rw [back] at first
      exact .dead (by omega) dead first other (by rw [same]; exact spent)
  | dead past active failed failed' left =>
    have zero : statusOf smd 0 = rootfsStatusBootFailed := by
      rcases valid.x with x | x
      · rw [x] at failed
        exact failed
      · rw [x] at failed'
        exact failed'
    obtain ⟨still, statuses, same⟩ := spent_still kind left active zero
    rw [← statuses] at failed failed'
    exact .dead (by omega) still failed failed' (by rw [same]; exact left)

end

section
variable {base : Base} {smd stored : SlotMetaDataV2} {rfReg : UInt32}

theorem retry_initReg (rootfsAb : bootctrlSupportRootfsAb smd.smd.version = true)
    (notUnified : bootctrlSupportUnifiedAb smd.smd.version = false)
    (absent : rootfsAbRegMagicGet rfReg ≠ rootfsAbRegMagic) :
    retryOf (tegrablABInitRootfsSlotReg smd rfReg) = (tegrablABGetRootfsRetryCount smd).toNat := by
  rw [initReg_absent (usesRootfsReg_of_rootfsAb rootfsAb) absent, rootfsAb, notUnified, if_pos (by decide)]
  have small : (tegrablABGetRootfsRetryCount smd).toUInt32.toNat < 4 := retryCount_lt smd
  exact retryOf_set small _

theorem belongs_stored (same : SamePayload stored smd) (belongs : Belongs base smd) : Belongs base stored := by
  obtain ⟨payload, extPayload⟩ := same
  have version : stored.smd.version = smd.smd.version := congrArg (·.2.1) payload
  have misc : stored.smdExt.rootfsMiscInfo = smd.smdExt.rootfsMiscInfo :=
    congrArg (·.2.2.2.2.2.2.1) extPayload
  exact ⟨version.trans belongs.version, misc.trans belongs.misc⟩

theorem stage_stored {n : Nat} (extPayload : stored.smdExt.payload = smd.smdExt.payload)
    (stage : Stage base n smd rfReg) : Stage base n stored rfReg := by
  have select : stored.smdExt.rootfsSelect = smd.smdExt.rootfsSelect :=
    congrArg (·.2.2.2.1) extPayload
  have status : stored.smdExt.rootfsStatus = smd.smdExt.rootfsStatus :=
    congrArg (·.2.2.2.2.1) extPayload
  have active : activeOf stored = activeOf smd := congrArg getRootfsActive select
  have statuses : ∀ id, statusOf stored id = statusOf smd id := by
    intro id
    unfold statusOf
    rw [status]
  cases stage with
  | first inside active' status other left =>
    exact .first inside (active.trans active') ((statuses _).trans status)
      ((statuses _).trans other) left
  | second past inside active' failed other left =>
    exact .second past inside (active.trans active') ((statuses _).trans failed)
      ((statuses _).trans other) left
  | dead past active' failed failed' left =>
    exact .dead past (active.trans active') ((statuses _).trans failed)
      ((statuses _).trans failed') left

theorem check_rootfsAb {b : Boot} (kind : RootfsAb b.smd.smd.version) :
    ∃ bootReg, checkIfRedundancyBoot b = .ok { b with bootReg := bootReg } := by
  unfold checkIfRedundancyBoot checkRedundancyStatus checkRootfsAbStatus tegrablABGetVersion
  dsimp only
  rw [kind.rootfsAb, kind.notUser, kind.notEnabled]
  split
  · exact ⟨_, rfl⟩
  · exact ⟨b.bootReg, rfl⟩

end

def InRun (base : Base) (n : Nat) (d : Device) : Prop :=
  ∃ smd, Loads d.store smd ∧ Belongs base smd ∧ Stage base n smd (tegrablABInitRootfsSlotReg smd d.rfReg)

theorem boot_inRun {base : Base} {n : Nat} {d : Device} {bootReg : UInt32} (valid : base.Valid)
    (requested : updateRequested bootReg = true) (inRun : InRun base n d) :
    (∃ buffer, d.get.result = .ok buffer ∧ Belongs base buffer ∧ Stage base (n + 1) buffer d.get.rfReg) ∧
    (d.update bootReg).ended = .returned (.ok ()) ∧ InRun base (n + 1) (d.boot bootReg) := by
  obtain ⟨smd, loads, belongs, stage⟩ := inRun
  have kind : RootfsAb smd.smd.version := by
    rw [belongs.version]
    exact valid.kind
  have magic := (magic_select smd (tegrablABInitRootfsSlotReg smd d.rfReg)).trans
    (magic_initReg (usesRootfsReg_of_rootfsAb kind.rootfsAb))
  have selected := belongs_select valid belongs (tegrablABInitRootfsSlotReg smd d.rfReg)
  have next := stage_select valid belongs stage
  have recognised : Recognised
      (tegrablABSelectActiveRootfs smd (tegrablABInitRootfsSlotReg smd d.rfReg)).1 :=
    (rootfsOnly_select _ _).recognised (recognised_of_loads loads)
  obtain ⟨copy, update⟩ := updateSmd_of_loads loads
  obtain ⟨result, reg, update⟩ := update bootReg d.rfReg
  generalize tegrablABSelectActiveRootfs smd (tegrablABInitRootfsSlotReg smd d.rfReg) = sel at *
  obtain ⟨buffer, rfReg⟩ := sel
  have kind' : RootfsAb buffer.smd.version := by
    rw [selected.version]
    exact valid.kind
  obtain ⟨bootReg', checked⟩ := check_rootfsAb (b := ⟨bootReg, rfReg, buffer⟩) kind'
  let vars : Statics := ⟨some copy, some buffer, some smd⟩
  have kept : vars.smdBackup = some smd := rfl
  obtain ⟨updated, after, returned, rf, stored, loads', same⟩ :=
    updateLoaded_loads loads kept recognised requested checked
  have final : d.update bootReg = updated := update.trans after
  have ext : SamePayload stored (copyRetryCountToSmd buffer bootReg') := same
  refine ⟨⟨buffer, result, selected, ?_⟩, ?_, stored, ?_, ?_, ?_⟩
  · rw [show d.get.rfReg = rfReg from reg]
    exact next
  · rw [final]
    exact returned
  · unfold Device.boot
    rw [final]
    exact loads'
  · exact belongs_stored ext ⟨selected.version, selected.misc⟩
  · unfold Device.boot
    rw [final, show updated.rfReg = rfReg from rf, initReg_present magic]
    exact stage_stored (show stored.smdExt.payload = buffer.smdExt.payload from ext.2) next

theorem after_inRun {base : Base} {d : Device} {bootRegs : Nat → UInt32} (valid : base.Valid)
    (requested : ∀ n, updateRequested (bootRegs n) = true) (start : InRun base 0 d) (n : Nat) :
    InRun base n (d.after bootRegs n) := by
  induction n with
  | zero => exact start
  | succ n ih => exact (boot_inRun valid (requested n) ih).2.2

section
variable {base : Base} {n : Nat} {smd : SlotMetaDataV2} {rfReg : UInt32}

def Base.rootfsAt (base : Base) (n : Nat) : UInt8 :=
  if n < base.r then base.x else if n < base.r + base.m then otherRootfs base.x else rootfsInvalid

theorem active_stage (stage : Stage base (n + 1) smd rfReg) : activeOf smd = base.rootfsAt n := by
  unfold Base.rootfsAt
  cases stage with
  | first inside active status other left => rw [if_pos (by omega), active]
  | second past inside active failed other left => rw [if_neg (by omega), if_pos (by omega), active]
  | dead past active failed failed' left => rw [if_neg (by omega), if_neg (by omega), active]

theorem currentRootfsId_eq (kind : RootfsAb smd.smd.version) (beyond : Nat → UInt8) :
    tegrablABGetCurrentRootfsId smd beyond = .ok (activeOf smd) := by
  unfold tegrablABGetCurrentRootfsId tegrablABGetVersion
  dsimp only
  rw [kind.rootfsAb, kind.notEnabled]
  rfl

theorem allUnbootable_eq (kind : RootfsAb smd.smd.version) (beyond : Nat → UInt8) (rfReg : UInt32) :
    tegrablABRootfsIsAllUnbootable smd beyond rfReg = .ok (decide (activeOf smd = rootfsInvalid), rfReg) := by
  unfold tegrablABRootfsIsAllUnbootable tegrablABGetVersion
  dsimp only
  rw [kind.notEnabled, kind.notUser, currentRootfsId_eq kind]
  rfl

theorem rootfsAt_invalid (x : base.x = 0 ∨ base.x = 1) : base.rootfsAt n = rootfsInvalid ↔ base.r + base.m ≤ n := by
  have first := ne_invalid x
  have second := ne_invalid (otherRootfs_valid base.x)
  unfold Base.rootfsAt
  constructor
  · intro none
    by_contra before
    split at none
    · exact first none
    · rw [if_pos (by omega)] at none
      exact second none
  · intro past
    rw [if_neg (by omega), if_neg (by omega)]

theorem failed_not_later {id : UInt8} {j : Nat} (x : base.x = 0 ∨ base.x = 1) (known : id = 0 ∨ id = 1)
    (stage : Stage base (n + 1) smd rfReg) (later : n ≤ j) (failed : statusOf smd id = rootfsStatusBootFailed)
    (left : id = base.x → base.status = rootfsStatusBootFailed → activeOf smd ≠ id) : base.rootfsAt j ≠ id := by
  have either : id = base.x ∨ id = otherRootfs base.x := by
    rcases x with x | x <;> rcases known with rfl | rfl <;> rw [x] <;> decide
  have normal : rootfsStatusNormal ≠ rootfsStatusBootFailed := by decide
  unfold Base.rootfsAt
  cases stage with
  | first inside active status other retry =>
    rcases either with rfl | rfl
    · exact absurd active (left rfl (status.symm.trans failed))
    · exact absurd (other.symm.trans failed) normal
  | second past inside active failed' other retry =>
    rcases either with rfl | rfl
    · rw [if_neg (by omega)]
      split
      · exact otherRootfs_ne x
      · exact (ne_invalid x).symm
    · exact absurd (other.symm.trans failed) normal
  | dead past active failed' failed'' retry =>
    rw [if_neg (by omega), if_neg (by omega)]
    exact (ne_invalid known).symm

end

/-- The first rootfs is active for its retry count, the other one for the maximum, and from then on all are unbootable.
-/
theorem rootfs_failover {d : Device} {smd : SlotMetaDataV2} {x : UInt8} (loads : Loads d.store smd)
    (kind : RootfsAb smd.smd.version) (known : x = rootfsA ∨ x = rootfsB)
    (active : getRootfsActive smd.smdExt.rootfsSelect = x)
    (other : tegrablABGetRootfsStatus smd (otherRootfs x) = .ok rootfsStatusNormal)
    (absent : rootfsAbRegMagicGet d.rfReg ≠ rootfsAbRegMagic) {bootRegs : Nat → UInt32}
    (requested : ∀ n, updateRequested (bootRegs n) = true) (beyond : Nat → UInt8) :
    let r := (tegrablABGetRootfsRetryCount smd).toNat
    let m := (tegrablGetRootfsMaxRetryCount smd).toNat
    ∃ buffer : Nat → SlotMetaDataV2, (∀ n, (d.after bootRegs n).get.result = .ok (buffer n) ∧
        ((d.after bootRegs n).update (bootRegs n)).ended = .returned (.ok ()) ∧
        tegrablABGetCurrentRootfsId (buffer n) beyond =
          .ok (if n < r then x else if n < r + m then otherRootfs x else rootfsInvalid) ∧
        tegrablABRootfsIsAllUnbootable (buffer n) beyond (d.after bootRegs n).get.rfReg =
          .ok (decide (r + m ≤ n), (d.after bootRegs n).get.rfReg)) ∧
      ∀ i j id, i ≤ j → tegrablABGetRootfsStatus (buffer i) id = .ok rootfsStatusBootFailed →
        (tegrablABGetRootfsStatus smd id = .ok rootfsStatusBootFailed →
          tegrablABGetCurrentRootfsId (buffer i) beyond ≠ .ok id) →
        tegrablABGetCurrentRootfsId (buffer j) beyond ≠ .ok id := by
  intro r m
  let base : Base := ⟨smd.smd.version, smd.smdExt.rootfsMiscInfo, x, statusOf smd x, r, m⟩
  have valid : base.Valid := by
    refine ⟨kind, known, retryCount_lt smd, ?_⟩
    intro smd' belongs
    have version : smd'.smd.version = smd.smd.version := belongs.version
    have misc : smd'.smdExt.rootfsMiscInfo = smd.smdExt.rootfsMiscInfo := belongs.misc
    show _ = (tegrablGetRootfsMaxRetryCount smd).toNat
    unfold tegrablGetRootfsMaxRetryCount tegrablABGetVersion
    rw [version, misc]
  have normal : statusOf smd (otherRootfs x) = rootfsStatusNormal :=
    Except.ok.inj ((getRootfsStatus_eq smd (otherRootfs_valid x)).symm.trans other)
  have start : InRun base 0 d := by
    refine ⟨smd, loads, ⟨rfl, rfl⟩, .first (Nat.zero_le r) active rfl normal ?_⟩
    exact retry_initReg kind.rootfsAb kind.notUnified absent
  have runs := fun n => boot_inRun valid (requested n) (after_inRun valid requested start n)
  choose buffer result belongs stage using fun n => (runs n).1
  have kinds : ∀ n, RootfsAb (buffer n).smd.version := by
    intro n
    rw [(belongs n).version]
    exact kind
  have rootfs : ∀ n, activeOf (buffer n) = base.rootfsAt n := fun n => active_stage (stage n)
  refine ⟨buffer, ?_, ?_⟩
  · intro n
    refine ⟨result n, (runs n).2.1, ?_, ?_⟩
    · rw [currentRootfsId_eq (kinds n), rootfs n]
      rfl
    · rw [allUnbootable_eq (kinds n), rootfs n]
      simp only [rootfsAt_invalid valid.x]
      rfl
  · intro i j id later failed left
    have idKnown : id = 0 ∨ id = 1 := id_of_status failed
    rw [getRootfsStatus_eq _ idKnown] at failed
    rw [getRootfsStatus_eq _ idKnown, currentRootfsId_eq (kinds i)] at left
    rw [currentRootfsId_eq (kinds j), rootfs j]
    have earlier : id = base.x → base.status = rootfsStatusBootFailed → activeOf (buffer i) ≠ id := by
      rintro rfl before same
      exact left (congrArg _ before) (congrArg _ same)
    intro same
    exact failed_not_later valid.x idKnown (stage i) later (Except.ok.inj failed) earlier
      (Except.ok.inj same)

def otaReg (_ : Nat) : UInt32 := 0xC000CAFE

/-- Rootfs A has three tries, and so has rootfs B. -/
theorem rootfs_failover_third : let d := Device.after ⟨rootfsStore true, 0⟩ otaReg
    (∃ buffer, (d 2).get.result = .ok buffer ∧ tegrablABGetCurrentRootfsId buffer zeros = .ok rootfsA) ∧
    (∃ buffer, (d 3).get.result = .ok buffer ∧ tegrablABGetCurrentRootfsId buffer zeros = .ok rootfsB) ∧
    ∃ buffer, (d 6).get.result = .ok buffer ∧
      tegrablABRootfsIsAllUnbootable buffer zeros (d 6).get.rfReg = .ok (true, (d 6).get.rfReg) := by
  have kind : RootfsAb (rootfsImage true).smd.version := ⟨by decide, by decide, by decide⟩
  have loads : Loads (⟨rootfsStore true, 0⟩ : Device).store (rootfsImage true) :=
    loads_rootfsStore true
  have absent : rootfsAbRegMagicGet (⟨rootfsStore true, 0⟩ : Device).rfReg ≠ rootfsAbRegMagic := by
    decide
  have requested : ∀ n, updateRequested (otaReg n) = true := by
    intro n
    show updateRequested 0xC000CAFE = true
    decide
  have active : getRootfsActive (rootfsImage true).smdExt.rootfsSelect = rootfsA := by decide
  obtain ⟨buffer, boots, -⟩ :=
    rootfs_failover loads kind (.inl rfl) active rfl absent requested zeros
  have tries : (tegrablABGetRootfsRetryCount (rootfsImage true)).toNat = 3 := by decide
  have max : (tegrablGetRootfsMaxRetryCount (rootfsImage true)).toNat = 3 := by decide
  simp only [tries, max] at boots
  exact ⟨⟨_, (boots 2).1, (boots 2).2.2.1⟩, ⟨_, (boots 3).1, (boots 3).2.2.1⟩, ⟨_, (boots 6).1, (boots 6).2.2.2⟩⟩

end Cboot.Smd
