import Cboot.Smd.SlotSwitch

/-!
The other slot was made active, and it never comes up. It is tried as often as the maximal retry count says,
and then the device boots the slot that it came from.
-/

namespace Cboot.Smd
open Lib

/-- One failing boot, on a boot slot register that held `oldReg`. The update works on the buffer of the boot,
or loads the contents again. -/
def Device.otaBoot (d : Device) (beyond : Nat → UInt8) (again : Bool) (oldReg : UInt32) :
    Except Stop (Nat × Updated) := do
  let smd ← d.get.result.mapError .error
  let slot ← (tegrablABGetActiveSlot smd beyond).mapError .error
  let smd ← (tegrablABCheckAndUpdateRetryCount smd slot).mapError .hang
  let bootReg := tegrablABSaveBootSlotReg smd beyond slot oldReg
  let vars := if again then {} else { d.get.statics with smdLoadaddress := some smd }
  return (slot, tegrablABUpdateSmd d.store vars bootReg d.get.rfReg true true .done .done)

def Device.otaBoots (d : Device) (beyond : Nat → UInt8) (again : Nat → Bool) (oldRegs : Nat → UInt32) :
    Nat → Except Stop (List Nat × Device)
  | 0 => .ok ([], d)
  | n + 1 => do
    let (slots, d) ← d.otaBoots beyond again oldRegs n
    let (slot, updated) ← d.otaBoot beyond (again n) (oldRegs n)
    return (slots ++ [slot], ⟨updated.store, updated.rfReg⟩)

structure Plain (version : UInt16) : Prop where
  notRedundant : bootctrlSupportRedundancy version = false
  notUser : bootctrlSupportRedundancyUser version = false
  notRootfs : bootctrlSupportRootfsAb version = false

structure BootSlotInfo.Safe (info : BootSlotInfo) : Prop where
  retry : info.retryCount ≠ 0
  small : info.retryCount ≤ 15
  priority : info.priority ≠ 0
  lower : info.priority < 15
  successful : info.bootSuccessful ≠ 0

/-- Slot `s` is being tried and has `left` more boots, and the other one is `kept`. -/
structure Trying (s : Nat) (kept : BootSlotInfo) (left : Nat) (smd : SlotMetaDataV2) : Prop where
  magic : smd.smd.magic = bootChainMagic
  two : smd.smd.numSlots = 2
  plain : Plain smd.smd.version
  priority : (smd.slot s).priority = 15
  retry : (smd.slot s).retryCount.toNat = left
  unproven : (smd.slot s).bootSuccessful = 0
  other : smd.slot (otherSlot s) = kept

section
variable {d : Device} {s left : Nat} {kept : BootSlotInfo} {smd : SlotMetaDataV2} {st : Storage}
  {beyond : Nat → UInt8} {oldReg : UInt32}

theorem Trying.stored {stored : SlotMetaDataV2} (trying : Trying s kept left smd) (same : SamePayload stored smd) :
    Trying s kept left stored := by
  obtain ⟨payload, -⟩ := same
  have magic : stored.smd.magic = smd.smd.magic := congrArg (·.1) payload
  have version : stored.smd.version = smd.smd.version := congrArg (·.2.1) payload
  have numSlots : stored.smd.numSlots = smd.smd.numSlots := congrArg (·.2.2.1) payload
  have slotInfo : stored.smd.slotInfo = smd.smd.slotInfo := congrArg (·.2.2.2) payload
  have slots : ∀ i, stored.slot i = smd.slot i := by
    intro i
    unfold SlotMetaDataV2.slot
    rw [slotInfo]
  refine ⟨magic.trans trying.magic, numSlots.trans trying.two, by rw [version]; exact trying.plain, ?_, ?_, ?_, ?_⟩
  · rw [slots, trying.priority]
  · rw [slots, trying.retry]
  · rw [slots, trying.unproven]
  · rw [slots, trying.other]

theorem Trying.retry_ne_zero (trying : Trying s kept (left + 1) smd) : (smd.slot s).retryCount ≠ 0 := by
  intro zero
  have count := trying.retry
  rw [zero] at count
  cases count

theorem get_plain (loads : Loads d.store smd) (plain : Plain smd.smd.version) :
    ∃ copy, d.get = ⟨.ok smd, ⟨some copy, some smd, some smd⟩, tegrablABInitRootfsSlotReg smd d.rfReg⟩ ∧
      ∀ rfReg, tegrablABGetSmd d.store {} rfReg true true =
        ⟨.ok smd, ⟨some copy, some smd, some smd⟩, tegrablABInitRootfsSlotReg smd rfReg⟩ := by
  obtain ⟨copy, get⟩ := getSmd_of_loads loads
  have unchanged : ∀ rfReg, tegrablABSelectActiveRootfs smd rfReg = (smd, rfReg) := by
    intro rfReg
    unfold tegrablABSelectActiveRootfs tegrablABGetVersion
    simp [plain.notRootfs]
  have loaded : ∀ rfReg, tegrablABGetSmd d.store {} rfReg true true =
      ⟨.ok smd, ⟨some copy, some smd, some smd⟩, tegrablABInitRootfsSlotReg smd rfReg⟩ := by
    intro rfReg
    rw [get, initSmd, unchanged]
  exact ⟨copy, loaded d.rfReg, loaded⟩

theorem otaBoot_eq {slot : Nat} {tried : SlotMetaDataV2} (loads : Loads d.store smd)
    (plain : Plain smd.smd.version) (active : tegrablABGetActiveSlot smd beyond = .ok slot)
    (checked : tegrablABCheckAndUpdateRetryCount smd slot = .ok tried) (again : Bool) (oldReg : UInt32) :
    ∃ vars buffer rfReg, vars.smdBackup = some smd ∧ (buffer = smd ∨ buffer = tried) ∧
      d.otaBoot beyond again oldReg = .ok (slot, updateLoaded d.store vars .done .done
        ⟨tegrablABSaveBootSlotReg tried beyond slot oldReg, rfReg, buffer⟩) := by
  obtain ⟨copy, got, loaded⟩ := get_plain loads plain
  have steps : d.otaBoot beyond again oldReg = .ok (slot, tegrablABUpdateSmd d.store
      (if again then {} else ⟨some copy, some tried, some smd⟩) (tegrablABSaveBootSlotReg tried beyond slot oldReg)
      (tegrablABInitRootfsSlotReg smd d.rfReg) true true .done .done) := by
    unfold Device.otaBoot
    rw [got]
    show ((tegrablABGetActiveSlot smd beyond).mapError _ >>= _) = _
    rw [active]
    show ((tegrablABCheckAndUpdateRetryCount smd slot).mapError _ >>= _) = _
    rw [checked]
    rfl
  cases again with
  | true =>
    refine ⟨⟨some copy, some smd, some smd⟩, smd,
      tegrablABInitRootfsSlotReg smd (tegrablABInitRootfsSlotReg smd d.rfReg), rfl, Or.inl rfl, ?_⟩
    rw [steps]
    simp only [tegrablABUpdateSmd, if_true, loaded]
  | false =>
    refine ⟨⟨some copy, some tried, some smd⟩, tried, tegrablABInitRootfsSlotReg smd d.rfReg, rfl, Or.inr rfl, ?_⟩
    rw [steps]
    exact congrArg (fun u => Except.ok (slot, u)) (updateSmd_loaded rfl _ _ _ _)

theorem Trying.active (trying : Trying s kept (left + 1) smd) (beyond : Nat → UInt8) (valid : s < 2) (safe : kept.Safe) :
    tegrablABGetActiveSlot smd beyond = .ok s := by
  rw [active_iff beyond trying.magic trying.two valid, trying.priority, trying.other]
  refine ⟨⟨trying.retry_ne_zero, by rw [trying.priority]; decide⟩, ?_⟩
  intro _
  have lower := safe.lower
  unfold Beats
  split
  · exact UInt8.lt_asymm lower
  · exact lower

theorem Trying.fallen (trying : Trying s kept 0 smd) (beyond : Nat → UInt8) (valid : s < 2) (safe : kept.Safe) :
    tegrablABGetActiveSlot smd beyond = .ok (otherSlot s) := by
  rw [active_iff beyond trying.magic trying.two (otherSlot_lt s), trying.other, otherSlot_otherSlot valid]
  refine ⟨⟨safe.retry, safe.priority⟩, ?_⟩
  intro bootable
  exact absurd (UInt8.toNat_inj.mp trying.retry) bootable.1

theorem Trying.boot (trying : Trying s kept (left + 1) smd) (beyond : Nat → UInt8) (valid : s < 2)
    (safe : kept.Safe) (small : left < 15)
    (loads : Loads d.store smd) (magic : bootChainRegMagicGet oldReg = bootChainRegMagic) (again : Bool) :
    ∃ updated stored, d.otaBoot beyond again oldReg = .ok (s, updated) ∧ updated.ended = .returned (.ok ()) ∧
      Loads updated.store stored ∧ Trying s kept left stored := by
  have checked : tegrablABCheckAndUpdateRetryCount smd s = .ok (tried smd s) := by
    unfold tegrablABCheckAndUpdateRetryCount
    rw [if_pos (.inr trying.unproven), if_neg trying.retry_ne_zero]
    rfl
  obtain ⟨vars, buffer, rfReg, backup, which, boot⟩ :=
    otaBoot_eq loads trying.plain (trying.active beyond valid safe) checked again oldReg
  have flag : bootChainRegUpdateFlagGet (tegrablABSaveBootSlotReg (tried smd s) beyond s oldReg) = bcFlagOtaOn := by
    rw [updateFlagGet_save, SlotMetaDataV2.slotInfoAt_valid _ _ valid, successful_tried valid valid,
      if_pos trying.unproven]
  have requested : updateRequested (tegrablABSaveBootSlotReg (tried smd s) beyond s oldReg) = true := by
    unfold updateRequested
    rw [magicGet_save, magic, flag]
    rfl
  have unchecked : checkIfRedundancyBoot ⟨tegrablABSaveBootSlotReg (tried smd s) beyond s oldReg, rfReg, buffer⟩ =
      .ok ⟨tegrablABSaveBootSlotReg (tried smd s) beyond s oldReg, rfReg, buffer⟩ := by
    unfold checkIfRedundancyBoot
    rw [if_neg]
    intro both
    have wrong := both.1
    rw [flag] at wrong
    exact absurd wrong (by decide)
  have only : SlotsOnly smd buffer := by
    obtain rfl | rfl := which
    · exact .refl _
    · exact .modifySlot _ _ _
  obtain ⟨updated, after, returned, -, stored, loads', same⟩ :=
    updateLoaded_loads (b := ⟨tegrablABSaveBootSlotReg (tried smd s) beyond s oldReg, rfReg, buffer⟩) loads backup
      (only.recognised (recognised_of_loads loads)) requested unchecked
  refine ⟨updated, stored, by rw [boot, after], returned, loads', Trying.stored ?_ same⟩
  -- the register holds the retry counts of the boot, whichever buffer they go to
  have slots : ∀ i < 2, (copyRetryCountToSmd buffer (tegrablABSaveBootSlotReg (tried smd s) beyond s oldReg)).slot i =
      { smd.slot i with retryCount := ((tried smd s).slot i).retryCount &&& 15 } := by
    intro i valid'
    rw [slot_copyRetryCount _ _ valid', getRetryCountReg_save _ _ _ _ valid']
    obtain rfl | rfl := which
    · rfl
    · rw [slot_tried valid valid']
      split <;> rfl
  have here := slots s valid
  have there := slots (otherSlot s) (otherSlot_lt s)
  rw [slot_tried valid valid, if_pos rfl] at here
  rw [slot_tried valid (otherSlot_lt s), if_neg (otherSlot_ne s), trying.other, nibble_small safe.small] at there
  have count : ((smd.slot s).retryCount - 1).toNat = left := by
    rw [UInt8.toNat_sub_of_le _ _ (UInt8.le_iff_toNat_le.mpr (by rw [trying.retry]; exact Nat.succ_pos left)),
      trying.retry]
    rfl
  have fits : (smd.slot s).retryCount - 1 ≤ 15 := by
    rw [UInt8.le_iff_toNat_le, count]
    exact Nat.le_of_lt small
  rw [nibble_small fits] at here
  obtain ⟨-, sameMagic, sameVersion, sameSlots⟩ := only.trans (slotsOnly_copyRetryCount buffer _)
  refine ⟨sameMagic.trans trying.magic, sameSlots.trans trying.two, by rw [sameVersion]; exact trying.plain,
    ?_, ?_, ?_, there⟩
  · rw [here]
    exact trying.priority
  · rw [here]
    exact count
  · rw [here]
    exact trying.unproven

theorem Trying.fallback (trying : Trying s kept 0 smd) (beyond : Nat → UInt8) (valid : s < 2) (safe : kept.Safe)
    (loads : Loads d.store smd) (fresh : bootChainRegUpdateFlagGet oldReg = 0) (again : Bool) :
    ∃ updated, d.otaBoot beyond again oldReg = .ok (otherSlot s, updated) ∧
      updated.ended = .returned (.ok ()) ∧ updated.store = d.store := by
  have proven : (smd.slot (otherSlot s)).bootSuccessful ≠ 0 := by
    rw [trying.other]
    exact safe.successful
  have checked : tegrablABCheckAndUpdateRetryCount smd (otherSlot s) = .ok smd := by
    unfold tegrablABCheckAndUpdateRetryCount
    rw [if_neg]
    intro either
    obtain redundant | unproven := either
    · rw [trying.plain.notRedundant] at redundant
      cases redundant
    · exact proven unproven
  obtain ⟨vars, buffer, rfReg, -, -, boot⟩ :=
    otaBoot_eq loads trying.plain (trying.fallen beyond valid safe) checked again oldReg
  have off : updateRequested (tegrablABSaveBootSlotReg smd beyond (otherSlot s) oldReg) = false := by
    unfold updateRequested
    rw [updateFlagGet_save, SlotMetaDataV2.slotInfoAt_valid _ _ (otherSlot_lt s), if_neg proven,
      trying.plain.notRedundant, fresh]
    simp [bcFlagOtaOn, bcFlagRedundancyBoot]
  rw [updateLoaded_off (b := ⟨tegrablABSaveBootSlotReg smd beyond (otherSlot s) oldReg, rfReg, buffer⟩) off] at boot
  exact ⟨_, boot, rfl, rfl⟩

/-- The contents after `n` boots, of which the first `m` are on the slot that is tried. -/
def Fallen (s : Nat) (kept : BootSlotInfo) (m n : Nat) (d : Device) : Prop :=
  ∃ smd, Loads d.store smd ∧ Trying s kept (m - n) smd

def slotOf (s m n : Nat) : Nat := if n < m then s else otherSlot s

theorem map_slotOf (s m n : Nat) :
    (List.range n).map (slotOf s m) = List.replicate (min n m) s ++ List.replicate (n - m) (otherSlot s) := by
  apply List.ext_getElem
  · simp
    omega
  · intro i inside _
    have below : i < n := by simpa using inside
    rw [List.getElem_map, List.getElem_range, List.getElem_append]
    by_cases early : i < m
    · have first : i < min n m := by omega
      simp [slotOf, early, first]
    · have later : ¬ i < min n m := by omega
      simp [slotOf, early, later]

theorem Fallen.boot {m n : Nat} (fallen : Fallen s kept m n d) (valid : s < 2) (safe : kept.Safe) (small : m ≤ 15)
    (magic : bootChainRegMagicGet oldReg = bootChainRegMagic) (fresh : bootChainRegUpdateFlagGet oldReg = 0)
    (beyond : Nat → UInt8) (again : Bool) : ∃ updated, d.otaBoot beyond again oldReg = .ok (slotOf s m n, updated) ∧
      updated.ended = .returned (.ok ()) ∧ Fallen s kept m (n + 1) ⟨updated.store, updated.rfReg⟩ := by
  obtain ⟨smd, loads, trying⟩ := fallen
  by_cases early : n < m
  · obtain ⟨left, more⟩ : ∃ left, m - n = left + 1 := ⟨m - n - 1, by omega⟩
    rw [more] at trying
    obtain ⟨updated, stored, boot, returned, loads', trying'⟩ :=
      trying.boot beyond valid safe (by omega) loads magic again
    have next : m - (n + 1) = left := by omega
    refine ⟨updated, ?_, returned, stored, loads', by rw [next]; exact trying'⟩
    rw [boot, slotOf, if_pos early]
  · have none : m - n = 0 := by omega
    have none' : m - (n + 1) = 0 := by omega
    rw [none] at trying
    obtain ⟨updated, boot, returned, store⟩ := trying.fallback beyond valid safe loads fresh again
    refine ⟨updated, ?_, returned, smd, ?_, by rw [none']; exact trying⟩
    · rw [boot, slotOf, if_neg early]
    · rw [store]
      exact loads

theorem Fallen.boots {m : Nat} (fallen : Fallen s kept m 0 d) (valid : s < 2) (safe : kept.Safe) (small : m ≤ 15)
    {oldRegs : Nat → UInt32} (magic : ∀ n, bootChainRegMagicGet (oldRegs n) = bootChainRegMagic)
    (fresh : ∀ n, bootChainRegUpdateFlagGet (oldRegs n) = 0) (beyond : Nat → UInt8) (again : Nat → Bool) (n : Nat) :
    ∃ dn, d.otaBoots beyond again oldRegs n = .ok ((List.range n).map (slotOf s m), dn) ∧ Fallen s kept m n dn := by
  induction n with
  | zero => exact ⟨d, rfl, fallen⟩
  | succ n ih =>
    obtain ⟨dn, boots, fallen'⟩ := ih
    obtain ⟨updated, boot, -, next⟩ := fallen'.boot valid safe small (magic n) (fresh n) beyond (again n)
    refine ⟨⟨updated.store, updated.rfReg⟩, ?_, next⟩
    rw [Device.otaBoots, boots]
    show (dn.otaBoot beyond (again n) (oldRegs n) >>= _) = _
    rw [boot, List.range_succ, List.map_append]
    rfl

/-- What calls of `tegrabl_a_b_set_active_slot` leave, after the first of them. -/
structure Switched (s : Nat) (smd buffer : SlotMetaDataV2) : Prop where
  only : SlotsOnly smd buffer
  priority : (buffer.slot s).priority = 15
  retry : (buffer.slot s).retryCount = tegrablGetMaxRetryCount smd
  unproven : (buffer.slot s).bootSuccessful = 0
  safe : (buffer.slot (otherSlot s)).Safe
  kept : (buffer.slot (otherSlot s)).retryCount = (smd.slot (otherSlot s)).retryCount

theorem lowerPriority_lt {info : BootSlotInfo} (bound : info.priority ≤ 15) : (lowerPriority info).priority < 15 := by
  have lowered := lowerPriority_toNat info
  have below : info.priority.toNat ≤ 15 := UInt8.le_iff_toNat_le.mp bound
  rw [UInt8.lt_iff_toNat_lt, lowered]
  show _ < 15
  split <;> omega

theorem lowerPriority_successful (info : BootSlotInfo) : (lowerPriority info).bootSuccessful = info.bootSuccessful := by
  unfold lowerPriority
  split <;> rfl

theorem switched_setActive {buffer : SlotMetaDataV2} (valid : s < 2) (only : SlotsOnly smd buffer)
    (retry : (buffer.slot (otherSlot s)).retryCount = (smd.slot (otherSlot s)).retryCount)
    (nonzero : (smd.slot (otherSlot s)).retryCount ≠ 0) (small : (smd.slot (otherSlot s)).retryCount ≤ 15)
    (priority : (buffer.slot (otherSlot s)).priority ≠ 0) (bound : (buffer.slot (otherSlot s)).priority ≤ 15)
    (successful : (buffer.slot (otherSlot s)).bootSuccessful ≠ 0) :
    Switched s smd (orUnchanged buffer (tegrablABSetActiveSlot buffer s)) := by
  have same : tegrablGetMaxRetryCount buffer = tegrablGetMaxRetryCount smd :=
    maxRetryCount_congr only.2.2.1 (by rw [only.1])
  have there : (orUnchanged buffer (tegrablABSetActiveSlot buffer s)).slot (otherSlot s) =
      lowerPriority (buffer.slot (otherSlot s)) := by
    have set := setActiveSlot_eq buffer valid
    rw [set]
    exact (slot_setActive valid set).2
  refine ⟨only.trans (slotsOnly_setActiveSlot buffer s), ?_, ?_, ?_, ?_, ?_⟩
  · obtain rfl | rfl := eq_zero_or_one valid <;> rfl
  · rw [← same]
    obtain rfl | rfl := eq_zero_or_one valid <;> rfl
  · obtain rfl | rfl := eq_zero_or_one valid <;> rfl
  · rw [there]
    refine ⟨?_, ?_, (lowerPriority_ne_zero _).mpr priority, lowerPriority_lt bound, ?_⟩
    · rw [lowerPriority_retryCount, retry]
      exact nonzero
    · rw [lowerPriority_retryCount, retry]
      exact small
    · rw [lowerPriority_successful]
      exact successful
  · rw [there, lowerPriority_retryCount, retry]

theorem switched_edited (valid : s < 2) (nonzero : (smd.slot (otherSlot s)).retryCount ≠ 0)
    (small : (smd.slot (otherSlot s)).retryCount ≤ 15) (priority : (smd.slot (otherSlot s)).priority ≠ 0)
    (bound : (smd.slot (otherSlot s)).priority ≤ 15) (successful : (smd.slot (otherSlot s)).bootSuccessful ≠ 0)
    (calls : Nat) : Switched s smd (edited smd (List.replicate (calls + 1) s)) := by
  induction calls with
  | zero => exact switched_setActive valid (.refl smd) rfl nonzero small priority bound successful
  | succ calls ih =>
    unfold edited at ih ⊢
    rw [List.replicate_succ', List.foldl_append]
    exact switched_setActive valid ih.only ih.kept nonzero small ih.safe.priority (UInt8.le_of_lt ih.safe.lower)
      ih.safe.successful

end

/-- Boots that fail use the slot that was made active as often as the maximal retry count says, and the other
one from then on, which stays as it is. -/
theorem ota_fallback (smd : SlotMetaDataV2) {stored : SlotMetaDataV2} {s : Nat} {d : Device} (valid : s < 2)
    (magic : smd.smd.magic = bootChainMagic) (two : smd.smd.numSlots = 2)
    (notRedundant : bootctrlSupportRedundancy smd.smd.version = false)
    (notUser : bootctrlSupportRedundancyUser smd.smd.version = false)
    (notRootfs : bootctrlSupportRootfsAb smd.smd.version = false)
    (priority : 1 ≤ (smd.slot (otherSlot s)).priority ∧ (smd.slot (otherSlot s)).priority ≤ 15)
    (retry : 1 ≤ (smd.slot (otherSlot s)).retryCount ∧ (smd.slot (otherSlot s)).retryCount ≤ 7)
    (successful : (smd.slot (otherSlot s)).bootSuccessful = 1) (calls : Nat) (loads : Loads d.store stored)
    (switched : SamePayload stored (edited smd (List.replicate (calls + 1) s)))
    (oldRegs : Nat → UInt32) (regMagic : ∀ n, bootChainRegMagicGet (oldRegs n) = bootChainRegMagic)
    (fresh : ∀ n, bootChainRegUpdateFlagGet (oldRegs n) = 0) (beyond : Nat → UInt8) (again : Nat → Bool) (n : Nat) :
    let m := (tegrablGetMaxRetryCount smd).toNat
    ∃ dn now slot updated, d.otaBoots beyond again oldRegs n =
        .ok (List.replicate (min n m) s ++ List.replicate (n - m) (otherSlot s), dn) ∧ Loads dn.store now ∧
      (now.slot (otherSlot s)).retryCount = (stored.slot (otherSlot s)).retryCount ∧
      (now.slot (otherSlot s)).priority = (stored.slot (otherSlot s)).priority ∧
      dn.otaBoot beyond (again n) (oldRegs n) = .ok (slot, updated) ∧ updated.ended = .returned (.ok ()) := by
  intro m
  have positive : ∀ c : UInt8, 1 ≤ c → c ≠ 0 := by
    intro c above zero
    rw [zero] at above
    exact absurd above (by decide)
  have small : (smd.slot (otherSlot s)).retryCount ≤ 15 := UInt8.le_trans retry.2 (by decide)
  have proven : (smd.slot (otherSlot s)).bootSuccessful ≠ 0 := by
    rw [successful]
    decide
  have buffer := switched_edited valid (positive _ retry.1) small (positive _ priority.1) priority.2 proven calls
  have slots : ∀ i, stored.slot i = (edited smd (List.replicate (calls + 1) s)).slot i := by
    intro i
    have slotInfo : stored.smd.slotInfo = (edited smd (List.replicate (calls + 1) s)).smd.slotInfo :=
      congrArg (·.2.2.2) switched.1
    unfold SlotMetaDataV2.slot
    rw [slotInfo]
  obtain ⟨-, sameMagic, sameVersion, sameSlots⟩ := buffer.only
  have trying : Trying s (stored.slot (otherSlot s)) m stored := by
    apply Trying.stored _ switched
    refine ⟨sameMagic.trans magic, sameSlots.trans two, ?_, buffer.priority, ?_, buffer.unproven, (slots _).symm⟩
    · rw [sameVersion]
      exact ⟨notRedundant, notUser, notRootfs⟩
    · rw [buffer.retry]
  have safe : (stored.slot (otherSlot s)).Safe := by
    rw [slots]
    exact buffer.safe
  have bounded : m ≤ 15 := (maxRetryCount_bounds smd).2.trans (by decide)
  obtain ⟨dn, boots, fallen⟩ :=
    Fallen.boots ⟨stored, loads, trying⟩ valid safe bounded regMagic fresh beyond again n
  obtain ⟨updated, boot, returned, -⟩ := fallen.boot valid safe bounded (regMagic n) (fresh n) beyond (again n)
  obtain ⟨now, loads', trying'⟩ := fallen
  refine ⟨dn, now, _, updated, ?_, loads', ?_, ?_, boot, returned⟩
  · rw [boots, map_slotOf]
    rfl
  · rw [trying'.other]
  · rw [trying'.other]

def plainImage : SlotMetaDataV2 where
  smd := ⟨bootChainMagic, 2, 2, (⟨15, .two 95 97, 7, 1⟩, ⟨10, .two 95 98, 0, 0⟩), 0⟩
  smdExt := ⟨0, 0, 0, 0, 0, (0, 0), (0, 0), 0, (0, 0), 0, .zeros 144⟩

def switchedDevice : Device where
  store := ⟨overwritten erased (updateCrc (edited plainImage [1, 1])), erased⟩
  rfReg := 0

/-- Seven boots of slot B, and three of slot A. -/
theorem ota_fallback_seven : ∃ dn, switchedDevice.otaBoots (fun _ => 0) (fun n => n % 2 == 0) (fun _ => 0xCAFE) 10 =
    .ok ([1, 1, 1, 1, 1, 1, 1, 0, 0, 0], dn) := by
  have loads : Loads switchedDevice.store (updateCrc (edited plainImage [1, 1])) :=
    loads_of_check (by decide +kernel) _ _
  obtain ⟨dn, -, -, -, boots, -⟩ := ota_fallback plainImage (s := 1) (by decide) rfl rfl (by decide)
    (by decide) (by decide) (by decide) (by decide) rfl 1 loads (samePayload_updateCrc _)
    (fun _ => 0xCAFE) (fun _ => by decide) (fun _ => by decide) (fun _ => 0) (fun n => n % 2 == 0) 10
  have most : (tegrablGetMaxRetryCount plainImage).toNat = 7 := by decide
  rw [most] at boots
  exact ⟨dn, boots⟩

end Cboot.Smd
