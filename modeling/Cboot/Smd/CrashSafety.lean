import Cboot.Smd.Model

/-!
A run is any sequence of boots, flushes and resets, where a write may fail or be cut.
-/

namespace Cboot.Smd
open Lib

/-- `last` is the contents of the last completed flush, `later` those of the flushes started after it. -/
structure System where
  store : Storage
  vars : Option Statics
  last : SlotMetaDataV2
  later : List SlotMetaDataV2 := []

def Rejects (part : List UInt8) : Prop := ∀ smd, loadSmdBinCopy part ≠ .ok smd

def Verifies (part : List UInt8) : Prop := ∃ smd, loadSmdBinCopy part = .ok smd

def WriteEnd.Leaves (old new : List UInt8) : WriteEnd → Prop
  | .done => True
  | .failed left => left = old ∨ left = new ∨ Rejects left
  | .cut left => left = old ∨ left = new ∨ Rejects left

namespace System

def contents (s : System) : List SlotMetaDataV2 := s.last :: s.later

/-- A boot, with memory for the buffers, that finds any value in the rootfs scratch register. -/
def boot (s : System) (rfReg : UInt32) : GetSmd := tegrablABGetSmd s.store {} rfReg true true

def flush (s : System) (vars : Statics) (smd : SlotMetaDataV2) (first second : WriteEnd) : System :=
  match tegrablABFlushSmd s.store vars first second (some smd) with
  | (.returned (.ok ()), store) =>
    { store := store, vars := some vars, last := updateCrc smd }
  | (.returned (.error _), store) =>
    { s with store := store, vars := some vars, later := s.later ++ [updateCrc smd] }
  | (.reset, store) =>
    { s with store := store, vars := none, later := s.later ++ [updateCrc smd] }

end System

inductive Step (cond : System → Statics → SlotMetaDataV2 → WriteEnd → Prop) :
    System → System → Prop
  | boot {s : System} (rfReg : UInt32) :
    Step cond s { s with vars := some (s.boot rfReg).statics }
  | reset {s : System} : Step cond s { s with vars := none }
  /-- The buffer is changed in place. -/
  | edit {s : System} {vars : Statics} (smd : SlotMetaDataV2) : s.vars = some vars →
    Step cond s { s with vars := some { vars with smdLoadaddress := some smd } }
  | flush {s : System} {vars : Statics} (smd : SlotMetaDataV2) (first second : WriteEnd) :
    s.vars = some vars → cond s vars smd first → first.Leaves (s.store.get (firstCopy vars.currentSmd))
      (overwritten (s.store.get (firstCopy vars.currentSmd)) (updateCrc smd)) →
    second.Leaves (s.store.get (secondCopy vars.currentSmd))
      (overwritten (s.store.get (secondCopy vars.currentSmd)) (updateCrc smd)) →
    Step cond s (s.flush vars smd first second)

def Recognised (smd : SlotMetaDataV2) : Prop :=
  bootChainVersionGet (tegrablABGetVersion smd) = bootChainVersionOne → smd.smd.magic = bootChainMagic

def Sound (s : System) (vars : Statics) (smd : SlotMetaDataV2) (first : WriteEnd) : Prop :=
  (Verifies (s.store.get (secondCopy vars.currentSmd)) ∨ first = .done) ∧ Recognised smd

theorem updateCrc_payload (smd : SlotMetaDataV2) : (updateCrc smd).smd.payload = smd.smd.payload ∧
      (updateCrc smd).smdExt.payload = smd.smdExt.payload ∧ (updateCrc smd).smd.crc32 = smdCrc smd ∧
      (bootChainVersionRootfsAb ≤ bootChainVersionGet (tegrablABGetVersion smd) →
        (updateCrc smd).smdExt.crc32 = extCrc smd) := by
  have ext : extCrc { smd with smd := { smd.smd with crc32 := smdCrc smd } } = extCrc smd := by
    rw [extCrc_eq, extCrc_eq]
  unfold updateCrc
  dsimp only
  split
  · exact ⟨rfl, rfl, rfl, fun _ => ext⟩
  · rename_i old
    exact ⟨rfl, rfl, rfl, fun new => absurd new old⟩

variable {smd : SlotMetaDataV2}

theorem checkSmd_updateCrc (recognised : Recognised smd) :
    checkSmd (updateCrc smd) = .ok () := by
  obtain ⟨payload, extPayload, crc, extCrc'⟩ := updateCrc_payload smd
  have magic : (updateCrc smd).smd.magic = smd.smd.magic := congrArg (·.1) payload
  have version : tegrablABGetVersion (updateCrc smd) = tegrablABGetVersion smd :=
    congrArg (·.2.1) payload
  have first : smdCrc (updateCrc smd) = (updateCrc smd).smd.crc32 := by
    rw [smdCrc_eq, payload, ← smdCrc_eq, crc]
  have second : bootChainVersionRootfsAb ≤ bootChainVersionGet (tegrablABGetVersion smd) →
      extCrc (updateCrc smd) = (updateCrc smd).smdExt.crc32 := by
    intro new
    rw [extCrc_eq, extPayload, ← extCrc_eq, extCrc' new]
  have last : (if bootChainVersionRootfsAb ≤ bootChainVersionGet (tegrablABGetVersion smd) then
      if extCrc (updateCrc smd) ≠ (updateCrc smd).smdExt.crc32 then throw Error.verifyFailed
      else pure () else pure () : Except Error Unit) = .ok () := by
    split
    · rename_i new
      rw [if_neg (not_not.mpr (second new))]
      rfl
    · rfl
  unfold checkSmd
  dsimp only
  rw [version]
  split
  · rename_i one
    rw [if_neg (not_not.mpr (magic.trans (recognised one)))]
    exact last
  · rw [if_neg (not_not.mpr first)]
    exact last

theorem load_of_check (valid : checkSmd smd = .ok ()) (part : List UInt8) :
    loadSmdBinCopy (overwritten part smd) = .ok smd := by
  have length : smd.toBytes.length = SlotMetaDataV2.codec.width :=
    SlotMetaDataV2.codec.length_encode _
  have read : tegrablPartitionRead (overwritten part smd) SlotMetaDataV2.codec.width = .ok smd.toBytes := by
    unfold tegrablPartitionRead overwritten
    rw [List.take_left' length, if_neg]
    rw [List.length_append, length]
    omega
  have decoded : SlotMetaDataV2.codec.decode smd.toBytes = smd :=
    SlotMetaDataV2.codec.decode_encode _
  unfold loadSmdBinCopy
  rw [read]
  show (checkSmd (SlotMetaDataV2.codec.decode smd.toBytes) >>= fun _ =>
    pure (SlotMetaDataV2.codec.decode smd.toBytes)) = _
  rw [decoded, valid]
  rfl

theorem load_overwritten (recognised : Recognised smd) (part : List UInt8) :
    loadSmdBinCopy (overwritten part (updateCrc smd)) = .ok (updateCrc smd) :=
  load_of_check (checkSmd_updateCrc recognised) part

/-- A copy after a write of `smd`: what loads from it is new or loaded before. -/
def Touched (smd : SlotMetaDataV2) (old left : List UInt8) : Prop :=
  ∀ y, loadSmdBinCopy left = .ok y → y = updateCrc smd ∨ loadSmdBinCopy old = .ok y

theorem touched_set {old left : List UInt8} (st : Storage)
    (copy : SmdBinCopy) (recognised : Recognised smd)
    (leaves : left = old ∨ left = overwritten old (updateCrc smd) ∨ Rejects left) :
    Touched smd old ((st.set copy left).get copy) := by
  rw [Storage.get_set_same]
  intro y loads
  rcases leaves with rfl | rfl | rejects
  · exact .inr loads
  · rw [load_overwritten recognised] at loads
    cases loads
    exact .inl rfl
  · exact absurd loads (rejects y)

theorem secondCopy_ne (current : Option SmdBinCopy) : secondCopy current ≠ firstCopy current := by
  unfold secondCopy firstCopy
  split <;> decide

inductive Flushed (s : System) (vars : Statics) (smd : SlotMetaDataV2) (first : WriteEnd) :
    System → Prop
  | first {s' : System} (failed : first ≠ .done) (contents : s'.contents = s.contents ++ [updateCrc smd])
    (power : s'.vars = some vars ∨ s'.vars = none)
    (written : Touched smd (s.store.get (firstCopy vars.currentSmd))
      (s'.store.get (firstCopy vars.currentSmd)))
    (kept : s'.store.get (secondCopy vars.currentSmd) = s.store.get (secondCopy vars.currentSmd)) :
    Flushed s vars smd first s'
  | second {s' : System} (contents : s'.contents = s.contents ++ [updateCrc smd])
    (power : s'.vars = some vars ∨ s'.vars = none)
    (written : loadSmdBinCopy (s'.store.get (firstCopy vars.currentSmd)) = .ok (updateCrc smd))
    (touched : Touched smd (s.store.get (secondCopy vars.currentSmd))
      (s'.store.get (secondCopy vars.currentSmd))) :
    Flushed s vars smd first s'
  | both {s' : System} (contents : s'.contents = [] ++ [updateCrc smd]) (power : s'.vars = some vars)
    (written : loadSmdBinCopy (s'.store.get (firstCopy vars.currentSmd)) = .ok (updateCrc smd))
    (again : loadSmdBinCopy (s'.store.get (secondCopy vars.currentSmd)) = .ok (updateCrc smd)) :
    Flushed s vars smd first s'

variable {s : System}

theorem flushed {vars : Statics} {first second : WriteEnd}
    (recognised : Recognised smd) (leaves : first.Leaves (s.store.get (firstCopy vars.currentSmd))
      (overwritten (s.store.get (firstCopy vars.currentSmd)) (updateCrc smd)))
    (leaves' : second.Leaves (s.store.get (secondCopy vars.currentSmd))
      (overwritten (s.store.get (secondCopy vars.currentSmd)) (updateCrc smd))) :
    Flushed s vars smd first (s.flush vars smd first second) := by
  have other := secondCopy_ne vars.currentSmd
  cases first with
  | failed left =>
    have failed : WriteEnd.failed left ≠ .done := nofun
    exact .first failed rfl (.inl rfl) (touched_set _ _ recognised leaves)
      (s.store.get_set_other left other)
  | cut left =>
    have failed : WriteEnd.cut left ≠ .done := nofun
    exact .first failed rfl (.inr rfl) (touched_set _ _ recognised leaves)
      (s.store.get_set_other left other)
  | done =>
    generalize target : firstCopy vars.currentSmd = copy at other leaves
    generalize rest : secondCopy vars.currentSmd = copy' at other leaves'
    have written : ∀ left, loadSmdBinCopy (((s.store.set copy
        (overwritten (s.store.get copy) (updateCrc smd))).set copy' left).get copy) = .ok (updateCrc smd) := by
      intro left
      rw [Storage.get_set_other _ _ other.symm, Storage.get_set_same]
      exact load_overwritten recognised _
    have same : (s.store.set copy (overwritten (s.store.get copy) (updateCrc smd))).get copy' =
        s.store.get copy' := Storage.get_set_other _ _ other
    have after : s.flush vars smd .done second =
        match flushSmdBinCopy (s.store.set copy (overwritten (s.store.get copy) (updateCrc smd)))
          (updateCrc smd) copy' second with
        | (.returned (.ok ()), store) => { store := store, vars := some vars, last := updateCrc smd }
        | (.returned (.error _), store) =>
          { s with store := store, vars := some vars, later := s.later ++ [updateCrc smd] }
        | (.reset, store) =>
          { s with store := store, vars := none, later := s.later ++ [updateCrc smd] } := by
      rw [← target, ← rest]
      rfl
    rw [after]
    cases second with
    | failed left =>
      apply Flushed.second rfl (.inl rfl)
      · rw [target]
        exact written left
      · rw [rest]
        exact touched_set _ _ recognised leaves'
    | cut left =>
      apply Flushed.second rfl (.inr rfl)
      · rw [target]
        exact written left
      · rw [rest]
        exact touched_set _ _ recognised leaves'
    | done =>
      apply Flushed.both rfl rfl
      · rw [target]
        exact written _
      · rw [rest]
        show loadSmdBinCopy (((s.store.set copy _).set copy' _).get copy') = _
        rw [Storage.get_set_same, same]
        exact load_overwritten recognised _

structure Recoverable (s : System) : Prop where
  primary : ∀ smd, loadSmdBinCopy s.store.smd = .ok smd → smd ∈ s.contents
  fallback : Rejects s.store.smd → ∃ smd ∈ s.contents, loadSmdBinCopy s.store.smdB = .ok smd
  current : ∀ vars, s.vars = some vars → vars.currentSmd ≠ some .primary →
    ∀ smd, loadSmdBinCopy s.store.smdB = .ok smd → smd ∈ s.contents

theorem boot_primary (rfReg : UInt32)
    (loads : loadSmdBinCopy s.store.smd = .ok smd) : s.boot rfReg = initSmd .primary smd rfReg := by
  unfold System.boot tegrablABGetSmd
  rw [loads]
  rfl

theorem boot_secondary (rfReg : UInt32)
    (rejects : Rejects s.store.smd) (loads : loadSmdBinCopy s.store.smdB = .ok smd) :
    s.boot rfReg = initSmd .secondary smd rfReg := by
  unfold System.boot tegrablABGetSmd
  cases first : loadSmdBinCopy s.store.smd with
  | ok other => exact absurd first (rejects other)
  | error e =>
    rw [loads]
    rfl

theorem recoverable_boot (rfReg : UInt32) (ok : Recoverable s) :
    Recoverable { s with vars := some (s.boot rfReg).statics } := by
  refine ⟨ok.primary, ok.fallback, ?_⟩
  intro vars booted current smd loads
  by_cases rejects : Rejects s.store.smd
  · obtain ⟨found, mem, loads'⟩ := ok.fallback rejects
    have same : Except.ok smd = Except.ok found := loads.symm.trans loads'
    cases same
    exact mem
  · obtain ⟨found, loads'⟩ := not_forall_not.mp rejects
    rw [boot_primary rfReg loads'] at booted
    cases booted
    exact absurd rfl current

section
variable {s' : System} {vars : Statics} {first : WriteEnd}

theorem mem_old (contents : s'.contents = s.contents ++ [updateCrc smd]) {y : SlotMetaDataV2}
    (mem : y ∈ s.contents) : y ∈ s'.contents := by
  rw [contents]
  exact List.mem_append_left _ mem

theorem mem_new {older : List SlotMetaDataV2} (contents : s'.contents = older ++ [updateCrc smd]) :
    updateCrc smd ∈ s'.contents := by
  rw [contents]
  exact List.mem_append_right _ (List.mem_singleton.mpr rfl)

theorem mem_loaded {part : List UInt8} {y : SlotMetaDataV2} (mem : updateCrc smd ∈ s'.contents)
    (written : loadSmdBinCopy part = .ok (updateCrc smd)) (loads : loadSmdBinCopy part = .ok y) : y ∈ s'.contents := by
  rw [written] at loads
  cases loads
  exact mem

theorem recoverable_primary (ok : Recoverable s) (current : vars.currentSmd = some .primary)
    (good : Verifies (s.store.get (secondCopy vars.currentSmd)) ∨ first = .done)
    (flushed : Flushed s vars smd first s') : Recoverable s' := by
  have target : firstCopy vars.currentSmd = .secondary := if_pos current
  have rest : secondCopy vars.currentSmd = .primary := if_pos current
  have still : s'.vars = some vars ∨ s'.vars = none → ∀ vars', s'.vars = some vars' →
      vars'.currentSmd = some .primary := by
    rintro (power | power) vars' same
    · rw [power] at same
      cases same
      exact current
    · rw [power] at same
      cases same
  cases flushed with
  | first failed contents power written kept =>
    rw [rest] at kept good
    have kept : s'.store.smd = s.store.smd := kept
    constructor
    case primary =>
      intro y loads
      rw [kept] at loads
      exact mem_old contents (ok.primary y loads)
    case fallback =>
      intro rejects
      obtain ⟨y, loads⟩ := good.resolve_right failed
      rw [kept] at rejects
      exact absurd loads (rejects y)
    case current => exact fun vars' same other => absurd (still power vars' same) other
  | second contents power written touched =>
    rw [target] at written
    rw [rest] at touched
    have new := mem_new contents
    constructor
    case primary =>
      intro y loads
      rcases touched y loads with rfl | before
      · exact new
      · exact mem_old contents (ok.primary y before)
    case fallback => exact fun _ => ⟨_, new, written⟩
    case current => exact fun vars' same other => absurd (still power vars' same) other
  | both contents power written again =>
    rw [target] at written
    rw [rest] at again
    have new := mem_new contents
    constructor
    case primary => exact fun y loads => mem_loaded new again loads
    case fallback => exact fun _ => ⟨_, new, written⟩
    case current =>
      exact fun vars' same other => absurd (still (.inl power) vars' same) other

theorem recoverable_secondary (ok : Recoverable s) (running : s.vars = some vars)
    (current : vars.currentSmd ≠ some .primary)
    (good : Verifies (s.store.get (secondCopy vars.currentSmd)) ∨ first = .done)
    (flushed : Flushed s vars smd first s') : Recoverable s' := by
  have target : firstCopy vars.currentSmd = .primary := if_neg current
  have rest : secondCopy vars.currentSmd = .secondary := if_neg current
  have before := ok.current vars running current
  cases flushed with
  | first failed contents power written kept =>
    rw [target] at written
    rw [rest] at kept good
    have kept : s'.store.smdB = s.store.smdB := kept
    constructor
    case primary =>
      intro y loads
      rcases written y loads with rfl | loads
      · exact mem_new contents
      · exact mem_old contents (ok.primary y loads)
    case fallback =>
      intro _
      obtain ⟨y, loads⟩ := good.resolve_right failed
      rw [kept]
      exact ⟨y, mem_old contents (before y loads), loads⟩
    case current =>
      intro _ _ _ y loads
      rw [kept] at loads
      exact mem_old contents (before y loads)
  | second contents power written touched =>
    rw [target] at written
    rw [rest] at touched
    have new := mem_new contents
    constructor
    case primary => exact fun y loads => mem_loaded new written loads
    case fallback => exact fun rejects => absurd written (rejects _)
    case current =>
      intro _ _ _ y loads
      rcases touched y loads with rfl | loads
      · exact new
      · exact mem_old contents (before y loads)
  | both contents power written again =>
    rw [target] at written
    rw [rest] at again
    have new := mem_new contents
    constructor
    case primary => exact fun y loads => mem_loaded new written loads
    case fallback => exact fun rejects => absurd written (rejects _)
    case current => exact fun _ _ _ y loads => mem_loaded new again loads

theorem recoverable_step (ok : Recoverable s) (step : Step Sound s s') : Recoverable s' := by
  cases step with
  | boot rfReg => exact recoverable_boot rfReg ok
  | reset => exact ⟨ok.primary, ok.fallback, fun vars none => by cases none⟩
  | edit smd running =>
    refine ⟨ok.primary, ok.fallback, ?_⟩
    intro vars' same other
    cases same
    exact ok.current _ running other
  | flush smd first second running sound leaves leaves' =>
    obtain ⟨good, recognised⟩ := sound
    have flush := flushed recognised leaves leaves'
    rename Statics => vars
    by_cases current : vars.currentSmd = some .primary
    · exact recoverable_primary ok current good flush
    · exact recoverable_secondary ok running current good flush

theorem recoverable_run (ok : Recoverable s) (run : Relation.ReflTransGen (Step Sound) s s') : Recoverable s' := by
  induction run with
  | refl => exact ok
  | tail _ step ih => exact recoverable_step ih step

end

def Pristine (s : System) : Prop :=
  loadSmdBinCopy s.store.smd = .ok s.last ∧ Verifies s.store.smdB ∧ s.vars = none ∧ s.later = []

/-- One copy verifies, and the next boot succeeds: it loads contents that count, keeps them in
`smd_backup` and returns them with the active rootfs selected. -/
def CrashSafe (s : System) : Prop :=
  (Verifies s.store.smd ∨ Verifies s.store.smdB) ∧
    ∀ rfReg, ∃ smd ∈ s.contents, (s.boot rfReg).statics.smdBackup = some smd ∧
      (s.boot rfReg).result = .ok (tegrablABSelectActiveRootfs smd
        (tegrablABInitRootfsSlotReg smd rfReg)).1

theorem crashSafe_of_recoverable {s : System} (ok : Recoverable s) : CrashSafe s := by
  by_cases rejects : Rejects s.store.smd
  · obtain ⟨smd, mem, loads⟩ := ok.fallback rejects
    refine ⟨.inr ⟨smd, loads⟩, ?_⟩
    intro rfReg
    rw [boot_secondary rfReg rejects loads]
    exact ⟨smd, mem, rfl, rfl⟩
  · obtain ⟨smd, loads⟩ := not_forall_not.mp rejects
    refine ⟨.inl ⟨smd, loads⟩, ?_⟩
    intro rfReg
    rw [boot_primary rfReg loads]
    exact ⟨smd, ok.primary smd loads, rfl, rfl⟩

theorem recoverable_pristine {s : System} (pristine : Pristine s) : Recoverable s := by
  obtain ⟨loads, -, off, -⟩ := pristine
  constructor
  case primary =>
    intro smd found
    rw [loads] at found
    cases found
    exact List.mem_cons_self
  case fallback => exact fun rejects => absurd loads (rejects _)
  case current =>
    intro vars running
    rw [off] at running
    cases running

/-- The two copies survive every run whose flushes are sound. -/
theorem copies_crash_safe {s s' : System} (pristine : Pristine s)
    (run : Relation.ReflTransGen (Step Sound) s s') : CrashSafe s' :=
  crashSafe_of_recoverable (recoverable_run (recoverable_pristine pristine) run)


def image (retryCount : UInt8) : SlotMetaDataV2 :=
  let slot : BootSlotInfo := ⟨15, ⟨[95, 97], rfl⟩, retryCount, 1⟩
  { smd := ⟨bootChainMagic, 2, 2, (slot, slot), 0⟩
    smdExt := ⟨0, 0, 0, 0, 0, (0, 0), (0, 0), 0, (0, 0), 0, ⟨List.replicate 144 0, rfl⟩⟩ }

def erased : List UInt8 := List.replicate 191 0xFF

def fresh : System where
  store := ⟨overwritten erased (updateCrc (image 7)), overwritten erased (updateCrc (image 7))⟩
  vars := none
  last := updateCrc (image 7)

def booted (s : System) : System := { s with vars := some (s.boot 0).statics }

def halfFlushed : System :=
  (booted fresh).flush (fresh.boot 0).statics (image 6) .done (.failed erased)

theorem rejects_erased : Rejects erased := by
  have error : (loadSmdBinCopy erased).toOption = none := by decide +kernel
  intro smd loads
  rw [loads] at error
  cases error

theorem recognised_image (retryCount : UInt8) : Recognised (image retryCount) := fun _ => rfl

theorem load_image (retryCount : UInt8) (part : List UInt8) :
    loadSmdBinCopy (overwritten part (updateCrc (image retryCount))) =
      .ok (updateCrc (image retryCount)) := load_overwritten (recognised_image retryCount) part

theorem pristine_fresh : Pristine fresh := ⟨load_image 7 _, ⟨_, load_image 7 _⟩, rfl, rfl⟩

theorem current_fresh : (fresh.boot 0).statics.currentSmd = some .primary := by
  rw [boot_primary 0 (load_image 7 _)]
  rfl

theorem store_halfFlushed : halfFlushed.store = ⟨erased, overwritten fresh.store.smdB (updateCrc (image 6))⟩ := by
  unfold halfFlushed System.flush tegrablABFlushSmd
  rw [current_fresh]
  rfl

theorem run_halfFlushed {cond : System → Statics → SlotMetaDataV2 → WriteEnd → Prop}
    (holds : cond (booted fresh) (fresh.boot 0).statics (image 6) .done) :
    Relation.ReflTransGen (Step cond) fresh halfFlushed := by
  have boot : Step cond fresh (booted fresh) := .boot 0
  have flush : Step cond (booted fresh) halfFlushed :=
    .flush (image 6) .done (.failed erased) rfl holds trivial (.inr (.inr rejects_erased))
  exact .tail (.single boot) flush

theorem current_halfFlushed : (halfFlushed.boot 0).statics.currentSmd = some .secondary := by
  have rejects : Rejects halfFlushed.store.smd := by
    rw [store_halfFlushed]
    exact rejects_erased
  have loads : loadSmdBinCopy halfFlushed.store.smdB = .ok (updateCrc (image 6)) := by
    rw [store_halfFlushed]
    exact load_image 6 _
  rw [boot_secondary 0 rejects loads]
  rfl

/-- After a reboot the next flush starts with the copy that was lost. -/
theorem copies_crash_safe_rebooted :
    CrashSafe ((booted halfFlushed).flush (halfFlushed.boot 0).statics (image 5) (.cut erased) .done) := by
  have half : Relation.ReflTransGen (Step Sound) fresh halfFlushed :=
    run_halfFlushed ⟨.inr rfl, recognised_image 6⟩
  have boot : Step Sound halfFlushed (booted halfFlushed) := .boot 0
  have good : Verifies
      ((booted halfFlushed).store.get (secondCopy (halfFlushed.boot 0).statics.currentSmd)) := by
    rw [current_halfFlushed]
    show Verifies halfFlushed.store.smdB
    rw [store_halfFlushed]
    exact ⟨_, load_image 6 _⟩
  have flush := Step.flush (image 5) (.cut erased) .done rfl
    (show Sound (booted halfFlushed) (halfFlushed.boot 0).statics (image 5) (.cut erased) from
      ⟨.inl good, recognised_image 5⟩) (.inr (.inr rejects_erased)) trivial
  exact copies_crash_safe pristine_fresh ((half.tail boot).tail flush)

def retried : System :=
  halfFlushed.flush (fresh.boot 0).statics (image 5) (.failed erased) .done

theorem store_retried : retried.store = ⟨erased, erased⟩ := by
  unfold retried System.flush tegrablABFlushSmd
  rw [current_fresh, store_halfFlushed]
  rfl

/-- Without a reboot the next flush starts with the only copy that is left: `current_smd` still
names the other one. -/
theorem copies_crash_safe_retried : Pristine fresh ∧ Relation.ReflTransGen (Step fun _ _ _ _ => True) fresh retried ∧
      ¬ CrashSafe retried := by
  have flush : Step (fun _ _ _ _ => True) halfFlushed retried :=
    .flush (image 5) (.failed erased) .done rfl trivial (.inr (.inr rejects_erased)) trivial
  refine ⟨pristine_fresh, (run_halfFlushed trivial).tail flush, ?_⟩
  rintro ⟨good, -⟩
  rw [store_retried] at good
  rcases good with ⟨smd, loads⟩ | ⟨smd, loads⟩
  · exact rejects_erased smd loads
  · exact rejects_erased smd loads

def inCrc (i : Nat) : Prop := 18 ≤ i ∧ i < 22

def inExtCrc (i : Nat) : Prop := 22 ≤ i ∧ i < 26

theorem toBytes_eq (smd : SlotMetaDataV2) : smd.toBytes = payloadCodec.encode smd.smd.payload ++
    (Codec.u32.encode smd.smd.crc32 ++ (Codec.u32.encode smd.smdExt.crc32 ++
      extPayloadCodec.encode smd.smdExt.payload)) := List.append_assoc _ _ _

theorem getElem?_toBytes (smd : SlotMetaDataV2) (i : Nat) : smd.toBytes[i]? =
    if i < 18 then (payloadCodec.encode smd.smd.payload)[i]?
    else if i < 22 then (Codec.u32.encode smd.smd.crc32)[i - 18]?
    else if i < 26 then (Codec.u32.encode smd.smdExt.crc32)[i - 22]?
    else (extPayloadCodec.encode smd.smdExt.payload)[i - 26]? := by
  have front : (payloadCodec.encode smd.smd.payload).length = 18 := payloadCodec.length_encode _
  have word : ∀ c, (Codec.u32.encode c).length = 4 := Codec.u32.length_encode
  rw [toBytes_eq]
  simp only [List.getElem?_append, front, word]
  split_ifs <;> first | rfl | omega

theorem toBytes_differ {x y : SlotMetaDataV2} (payload : x.smd.payload = y.smd.payload)
    (extPayload : x.smdExt.payload = y.smdExt.payload) {i : Nat} (differ : x.toBytes[i]? ≠ y.toBytes[i]?) :
    inCrc i ∨ inExtCrc i ∧ x.smdExt.crc32 ≠ y.smdExt.crc32 := by
  rw [getElem?_toBytes, getElem?_toBytes, payload, extPayload] at differ
  by_cases before : i < 18
  · rw [if_pos before, if_pos before] at differ
    exact absurd rfl differ
  rw [if_neg before, if_neg before] at differ
  by_cases crc : i < 22
  · exact .inl ⟨by omega, crc⟩
  rw [if_neg crc, if_neg crc] at differ
  by_cases extCrc : i < 26
  · rw [if_pos extCrc, if_pos extCrc] at differ
    refine .inr ⟨⟨by omega, extCrc⟩, ?_⟩
    intro same
    rw [same] at differ
    exact differ rfl
  · rw [if_neg extCrc, if_neg extCrc] at differ
    exact absurd rfl differ

theorem updateCrc_extCrc
    (old : ¬ bootChainVersionRootfsAb ≤ bootChainVersionGet (tegrablABGetVersion smd)) :
    (updateCrc smd).smdExt.crc32 = smd.smdExt.crc32 := by
  unfold updateCrc
  dsimp only
  rw [if_neg]
  exact old

theorem written_of_flushed {st st' : Storage} {vars : Statics} {first second : WriteEnd}
    (flushed : tegrablABFlushSmd st vars first second (some smd) = (.returned (.ok ()), st'))
    (copy : SmdBinCopy) : st'.get copy = overwritten (st.get copy) (updateCrc smd) := by
  have other := secondCopy_ne vars.currentSmd
  have covers : copy = firstCopy vars.currentSmd ∨ copy = secondCopy vars.currentSmd := by
    unfold firstCopy secondCopy
    cases copy <;> split <;> decide
  cases first with
  | failed left => cases flushed
  | cut left => cases flushed
  | done =>
    cases second with
    | failed left => cases flushed
    | cut left => cases flushed
    | done =>
      cases flushed
      rcases covers with rfl | rfl
      · rw [Storage.get_set_other _ _ other.symm, Storage.get_set_same]
      · rw [Storage.get_set_same, Storage.get_set_other _ _ other]

theorem take_overwritten (part : List UInt8) (smd : SlotMetaDataV2) :
    (overwritten part smd).take SlotMetaDataV2.codec.width = smd.toBytes :=
  List.take_left' (SlotMetaDataV2.codec.length_encode _)

theorem recognised_of_magic (magic : smd.smd.magic = bootChainMagic) :
    Recognised smd := fun _ => magic

/-- After a flush that succeeds both copies load, as the bytes that were flushed. -/
theorem flush_load {st st' : Storage} {vars : Statics} {first second : WriteEnd}
    {smd : SlotMetaDataV2} (magic : smd.smd.magic = bootChainMagic)
    (flushed : tegrablABFlushSmd st vars first second (some smd) = (.returned (.ok ()), st')) :
    ∃ written : SlotMetaDataV2, (∀ copy, (st'.get copy).take SlotMetaDataV2.codec.width = written.toBytes ∧
        loadSmdBinCopy (st'.get copy) = .ok written) ∧ ∀ i, written.toBytes[i]? ≠ smd.toBytes[i]? →
        inCrc i ∨ inExtCrc i ∧ bootChainVersionRootfsAb ≤ bootChainVersionGet (tegrablABGetVersion smd) := by
  refine ⟨updateCrc smd, ?_, ?_⟩
  · intro copy
    rw [written_of_flushed flushed copy, take_overwritten]
    exact ⟨rfl, load_overwritten (recognised_of_magic magic) _⟩
  · intro i differ
    obtain ⟨payload, extPayload, -, -⟩ := updateCrc_payload smd
    rcases toBytes_differ payload extPayload differ with crc | ⟨ext, changed⟩
    · exact .inl crc
    · refine .inr ⟨ext, ?_⟩
      by_contra old
      exact changed (updateCrc_extCrc old)

theorem flush_load_erased : ∃ st', tegrablABFlushSmd ⟨erased, erased⟩ {} .done .done (some (image 7)) =
        (.returned (.ok ()), st') ∧
      ∃ written : SlotMetaDataV2, ∀ copy, loadSmdBinCopy (st'.get copy) = .ok written := by
  obtain ⟨written, loads, -⟩ := flush_load rfl
    (show tegrablABFlushSmd ⟨erased, erased⟩ {} .done .done (some (image 7)) = _ from rfl)
  exact ⟨_, rfl, written, fun copy => (loads copy).2⟩

end Cboot.Smd
