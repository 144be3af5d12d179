import Cboot.Lib.Runs
import Cboot.PartitionManager.Registry

/-!
A device has the flag exactly when the list has an entry for it, through every run that does not start
a new list while a device is published.
-/

namespace Cboot.PartitionManager
open Blockdev Lib

section
variable {D : Type} [DecidableEq D]

namespace Registry

def entries (r : Registry D) : List (StorageInfo D) := r.storageList.getD []

def entriesOf (r : Registry D) (dev : D) : Nat := r.entries.countP (·.bdev = dev)

def Matched (r : Registry D) : Prop :=
  ∀ dev, r.entriesOf dev = (r.published dev).toNat

variable (r : Registry D) {dev other : D} {flag : Bool}

@[simp] theorem published_setPublished_self : (r.setPublished dev flag).published dev = flag :=
  Function.update_self _ _ _

theorem published_setPublished_of_ne (apart : other ≠ dev) :
    (r.setPublished dev flag).published other = r.published other :=
  Function.update_of_ne apart _ _

end Registry

def Adds (r : Registry D) (dev : D) (attempt : Attempt) : Prop :=
  r.published dev = false ∧ (firstTable attempt.tables).isSome ∧ attempt.memory

variable {r : Registry D} {dev : D}

theorem setPublished_same {flag : Bool} (same : r.published dev = flag) :
    r.setPublished dev flag = r := by
  unfold Registry.setPublished
  rw [← same, Function.update_eq_self]

theorem publish_idle {attempt : Attempt} (idle : ¬ Adds r dev attempt) :
    ∃ result, tegrablPartitionPublish r (some dev) attempt = some (result, r) := by
  unfold tegrablPartitionPublish
  dsimp only
  cases flag : r.published dev with
  | true => exact ⟨_, rfl⟩
  | false =>
    rw [if_neg (by decide)]
    cases table : firstTable attempt.tables with
    | none =>
      dsimp only
      rw [setPublished_same flag]
      exact ⟨_, rfl⟩
    | some partitions =>
      dsimp only
      have refused : ¬ attempt.memory := fun memory => idle ⟨flag, by rw [table]; rfl, memory⟩
      rw [if_pos refused]
      exact ⟨_, rfl⟩

theorem publish_adds {attempt : Attempt} (adds : Adds r dev attempt) :
    ∃ partitions, tegrablPartitionPublish r (some dev) attempt = r.storageList.map fun list =>
      (.ok (), { r with storageList := some (⟨dev, partitions⟩ :: list) }.setPublished dev true) := by
  obtain ⟨flag, found, memory⟩ := adds
  obtain ⟨partitions, table⟩ := Option.isSome_iff_exists.mp found
  refine ⟨partitions, ?_⟩
  unfold tegrablPartitionPublish
  dsimp only
  rw [flag, table, if_neg (by decide)]
  dsimp only
  rw [if_neg (not_not.mpr memory)]
  cases r.storageList <;> rfl

variable {list : List (StorageInfo D)}

theorem entriesOf_cons
    (listed : r.storageList = some list) (dev other : D) (partitions : List PartitionInfo) :
    ({ r with storageList := some (⟨dev, partitions⟩ :: list) }.setPublished dev true).entriesOf
      other = r.entriesOf other + if dev = other then 1 else 0 := by
  unfold Registry.entriesOf Registry.entries Registry.setPublished
  rw [listed]
  dsimp only [Option.getD_some]
  rw [List.countP_cons]
  simp

theorem matched_adds
    (listed : r.storageList = some list) (flag : r.published dev = false) (agree : r.Matched)
    (partitions : List PartitionInfo) :
    ({ r with storageList := some (⟨dev, partitions⟩ :: list) }.setPublished dev true).Matched := by
  intro other
  rw [entriesOf_cons listed, agree other]
  by_cases same : dev = other
  · subst same
    rw [if_pos rfl, Registry.published_setPublished_self, flag]
    rfl
  · rw [if_neg same, Registry.published_setPublished_of_ne _ (Ne.symm same)]
    rfl

variable (record : D → Bdev)

theorem publishAll_keeps (attempts : D → Attempt) {J : Registry D → Prop}
    (listed : ∀ r, J r → ∃ list, r.storageList = some list)
    (keeps : ∀ r list dev partitions, J r → r.storageList = some list → r.published dev = false →
      J ({ r with storageList := some (⟨dev, partitions⟩ :: list) }.setPublished dev true))
    (devices : List D) (r : Registry D) (start : J r) :
    ∃ r', publishAll record attempts devices r = some r' ∧ J r' := by
  induction devices generalizing r with
  | nil => exact ⟨r, rfl, start⟩
  | cons dev devices ih =>
    unfold publishAll
    by_cases rpmb : tegrablBlockdevGetStorageType (record dev) = storageSdmmcRpmb
    · rw [if_pos rpmb]
      exact ih r start
    rw [if_neg rpmb]
    by_cases adds : Adds r dev (attempts dev)
    · obtain ⟨list, present⟩ := listed r start
      obtain ⟨partitions, done⟩ := publish_adds adds
      rw [done, present]
      exact ih _ (keeps r list dev partitions start present adds.1)
    · obtain ⟨result, done⟩ := publish_idle adds
      rw [done]
      exact ih r start

variable (devices : List D)

theorem init_without_memory (r : Registry D) (attempts : D → Attempt) :
    tegrablPartitionManagerInit record devices r false attempts =
      some (.error (.own .noMemory 1), { r with storageList := none }) := rfl

theorem init_forgets
    (flag : r.published dev = true) (memory : Bool) (attempts : D → Attempt) :
    ∃ result r', tegrablPartitionManagerInit record devices r memory attempts = some (result, r') ∧ ¬ r'.Matched := by
  cases memory with
  | false =>
    refine ⟨_, _, init_without_memory record devices r attempts, fun agree => ?_⟩
    have one := agree dev
    rw [flag] at one
    cases one
  | true =>
    let Lost (r : Registry D) : Prop :=
      (∃ list, r.storageList = some list) ∧ r.published dev = true ∧ r.entriesOf dev = 0
    have keeps : ∀ (r : Registry D) list other partitions, Lost r → r.storageList = some list →
        r.published other = false →
        Lost ({ r with storageList := some (⟨other, partitions⟩ :: list) }.setPublished other true) := by
      rintro r list other partitions ⟨-, flag, none⟩ listed unset
      have apart : dev ≠ other := by
        rintro rfl
        rw [flag] at unset
        cases unset
      refine ⟨⟨_, rfl⟩, ?_, ?_⟩
      · rw [Registry.published_setPublished_of_ne _ apart]
        exact flag
      · rw [entriesOf_cons listed, none, if_neg (Ne.symm apart)]
    obtain ⟨r', done, -, still, none⟩ := publishAll_keeps record attempts (fun r lost => lost.1) keeps
      devices { r with storageList := some [] } ⟨⟨[], rfl⟩, flag, rfl⟩
    refine ⟨.ok (), r', ?_, fun agree => ?_⟩
    · unfold tegrablPartitionManagerInit
      rw [if_neg (by decide), done]
      rfl
    · have one := agree dev
      rw [still, none] at one
      cases one

theorem init_matched
    (idle : ∀ dev, r.published dev = false) (memory : Bool) (attempts : D → Attempt) :
    ∃ result r', tegrablPartitionManagerInit record devices r memory attempts = some (result, r') ∧ r'.Matched := by
  cases memory with
  | false =>
    refine ⟨_, _, init_without_memory record devices r attempts, fun dev => ?_⟩
    dsimp only
    rw [idle dev]
    rfl
  | true =>
    let Listed (r : Registry D) : Prop := (∃ list, r.storageList = some list) ∧ r.Matched
    have keeps : ∀ (r : Registry D) list other partitions, Listed r → r.storageList = some list →
        r.published other = false → Listed
          ({ r with storageList := some (⟨other, partitions⟩ :: list) }.setPublished other true) := by
      rintro r list other partitions ⟨-, agree⟩ listed unset
      exact ⟨⟨_, rfl⟩, matched_adds listed unset agree partitions⟩
    have start : Listed { r with storageList := some [] } := by
      refine ⟨⟨[], rfl⟩, fun dev => ?_⟩
      dsimp only
      rw [idle dev]
      rfl
    obtain ⟨r', done, -, agree⟩ := publishAll_keeps record attempts (fun r listed => listed.1) keeps
      devices _ start
    refine ⟨.ok (), r', ?_, agree⟩
    unfold tegrablPartitionManagerInit
    rw [if_neg (by decide), done]
    rfl

theorem countP_eraseP_bdev (list : List (StorageInfo D)) (dev other : D) :
    (list.eraseP (·.bdev = dev)).countP (·.bdev = other) =
      list.countP (·.bdev = other) - if dev = other then 1 else 0 := by
  induction list with
  | nil => simp
  | cons entry list ih =>
    by_cases first : entry.bdev = dev
    · rw [List.eraseP_cons_of_pos (by simpa using first), List.countP_cons, first]
      by_cases same : dev = other <;> simp [same]
    · rw [List.eraseP_cons_of_neg (by simpa using first), List.countP_cons, List.countP_cons, ih]
      by_cases same : dev = other
      · subst same
        simp [first]
      · simp [same]

theorem unpublish_matched (dev : Option D)
    (distinct : Function.Injective fun dev => (record dev).deviceId) (agree : r.Matched) :
    (tegrablPartitionsUnpublish record r dev).2.Matched := by
  cases dev with
  | none => exact agree
  | some dev =>
    unfold tegrablPartitionsUnpublish
    dsimp only
    cases flag : r.published dev with
    | false => exact agree
    | true =>
      rw [if_pos rfl]
      have one := agree dev
      rw [flag] at one
      cases listed : r.storageList with
      | none => exact agree
      | some list =>
        have byDevice : (fun entry : StorageInfo D =>
            (record entry.bdev).deviceId == (record dev).deviceId) = fun entry =>
              decide (entry.bdev = dev) := by
          funext entry
          rw [Bool.eq_iff_iff, beq_iff_eq, decide_eq_true_iff]
          exact distinct.eq_iff
        intro other
        have before := agree other
        unfold Registry.entriesOf Registry.entries at before one ⊢
        rw [listed] at before one
        dsimp only [Registry.setPublished, Option.getD_some] at before one ⊢
        rw [byDevice, countP_eraseP_bdev, before]
        by_cases same : dev = other
        · subst same
          rw [if_pos rfl, Function.update_self, flag]
          rfl
        · rw [if_neg same, Function.update_of_ne (Ne.symm same)]
          rfl

variable {entry : StorageInfo D}

omit [DecidableEq D] in
theorem findPartition_some {fits : StorageInfo D → PartitionInfo → Bool} {info : PartitionInfo}
    (found : findPartition fits list = some (entry, info)) :
    entry ∈ list ∧ info ∈ entry.partitions ∧ fits entry info := by
  obtain ⟨before, e, after, rfl, here, -⟩ := List.findSome?_eq_some_iff.mp found
  obtain ⟨i, first, same⟩ := Option.map_eq_some_iff.mp here
  cases same
  exact ⟨by simp, List.mem_of_find?_eq_some first, List.find?_some first⟩

omit [DecidableEq D] in
theorem exists_findPartition (fits : StorageInfo D → PartitionInfo → Bool) {info : PartitionInfo}
    (listed : entry ∈ list) (part : info ∈ entry.partitions) (fit : fits entry info) :
    ∃ e i, findPartition fits list = some (e, i) := by
  cases found : findPartition fits list with
  | some pair => exact ⟨pair.1, pair.2, rfl⟩
  | none =>
    have missing := List.findSome?_eq_none_iff.mp found entry listed
    have none := List.find?_eq_none.mp (Option.map_eq_none_iff.mp missing) info part
    exact absurd fit none

structure Registry.Findable (record : D → Bdev)
    (matchPartitionName : List UInt8 → List UInt8 → Bool) (r : Registry D) : Prop where
  lookup_published : ∀ dev, r.published dev = true → ∃ entry ∈ r.entries, entry.bdev = dev ∧
    ∀ info ∈ entry.partitions, ∀ name p, sameText info.name name → ∃ found,
      tegrablPartitionLookupBdev record r (some name) (some p) (some dev) =
        (.ok (), some ⟨some found, some (record dev), 0⟩) ∧ sameText found.name name
  open_published : ∀ dev, r.published dev = true → ∃ entry ∈ r.entries, entry.bdev = dev ∧
    ∀ info ∈ entry.partitions, ∀ name p, matchPartitionName info.name name →
      (tegrablPartitionOpen record matchPartitionName r (some name) (some p)).1 = .ok ()
  lookup_unpublished : ∀ dev, r.published dev = false → ∀ name p,
    (tegrablPartitionLookupBdev record r (some name) (some p) (some dev)).1 ≠ .ok ()
  open_unpublished : ∀ dev, r.published dev = false → ∀ name p handle,
    tegrablPartitionOpen record matchPartitionName r (some name) (some p) = (.ok (), some handle) →
      handle.blockDevice ≠ some (record dev)

theorem exists_entry (agree : r.Matched) (flag : r.published dev = true) :
    ∃ list, r.storageList = some list ∧ ∃ entry ∈ list, entry.bdev = dev := by
  have one := agree dev
  rw [flag] at one
  unfold Registry.entriesOf Registry.entries at one
  cases listed : r.storageList with
  | none =>
    rw [listed] at one
    cases one
  | some list =>
    rw [listed] at one
    have some : 0 < list.countP (·.bdev = dev) := by
      rw [show list.countP (·.bdev = dev) = 1 from one]
      decide
    obtain ⟨entry, member, same⟩ := List.countP_pos_iff.mp some
    exact ⟨list, rfl, entry, member, of_decide_eq_true same⟩

theorem no_entry (agree : r.Matched) (flag : r.published dev = false) (listed : r.storageList = some list)
    (member : entry ∈ list) : entry.bdev ≠ dev := by
  have none := agree dev
  rw [flag] at none
  unfold Registry.entriesOf Registry.entries at none
  rw [listed] at none
  have absent := List.countP_eq_zero.mp none entry member
  simpa using absent

theorem matched_findable (matchPartitionName : List UInt8 → List UInt8 → Bool)
    (distinct : Function.Injective fun dev => (record dev).deviceId)
    (agree : r.Matched) : r.Findable record matchPartitionName where
  lookup_published dev flag := by
    obtain ⟨list, listed, entry, member, same⟩ := exists_entry agree flag
    refine ⟨entry, by rw [Registry.entries, listed]; exact member, same, ?_⟩
    intro info part name p text
    obtain ⟨e, found, done⟩ := exists_findPartition
      (fun entry info => entry.bdev = dev && sameText info.name name) member part
      (by rw [same, text]; simp)
    obtain ⟨-, -, fit⟩ := findPartition_some done
    obtain ⟨device, named⟩ := Bool.and_eq_true_iff.mp fit
    refine ⟨found, ?_, named⟩
    unfold tegrablPartitionLookupBdev
    dsimp only
    rw [listed]
    dsimp only
    rw [done, fillPartition, of_decide_eq_true device]
  open_published dev flag := by
    obtain ⟨list, listed, entry, member, same⟩ := exists_entry agree flag
    refine ⟨entry, by rw [Registry.entries, listed]; exact member, same, ?_⟩
    intro info part name p text
    obtain ⟨e, found, done⟩ := exists_findPartition
      (fun _ info => matchPartitionName info.name name) member part text
    unfold tegrablPartitionOpen
    dsimp only
    rw [listed]
    dsimp only
    rw [done, fillPartition]
  lookup_unpublished dev flag name p := by
    unfold tegrablPartitionLookupBdev
    dsimp only
    cases listed : r.storageList with
    | none => exact fun done => by cases done
    | some list =>
      dsimp only
      cases found : findPartition
          (fun entry info => entry.bdev = dev && sameText info.name name) list with
      | none => exact fun done => by cases done
      | some pair =>
        obtain ⟨member, -, fit⟩ := findPartition_some found
        obtain ⟨device, -⟩ := Bool.and_eq_true_iff.mp fit
        exact absurd (of_decide_eq_true device) (no_entry agree flag listed member)
  open_unpublished dev flag name p handle done := by
    unfold tegrablPartitionOpen at done
    dsimp only at done
    cases listed : r.storageList with
    | none =>
      rw [listed] at done
      cases done
    | some list =>
      rw [listed] at done
      dsimp only at done
      cases found : findPartition (fun _ info => matchPartitionName info.name name) list with
      | none =>
        rw [found] at done
        cases done
      | some pair =>
        rw [found] at done
        obtain ⟨member, -, -⟩ := findPartition_some found
        cases done
        intro same
        have ids := congrArg Bdev.deviceId (Option.some.inj same)
        exact no_entry agree flag listed member (distinct ids)

inductive RegistryOp (D : Type) where
  | init (memory : Bool) (attempts : D → Attempt)
  | publish (dev : Option D) (attempt : Attempt)
  | unpublish (dev : Option D)

def RegistryOp.step (record : D → Bdev) (devices : List D) (s : Option (Registry D)) :
    RegistryOp D → Option (Registry D)
  | init memory attempts =>
    s.bind fun r => (tegrablPartitionManagerInit record devices r memory attempts).map (·.2)
  | publish dev attempt => s.bind fun r => (tegrablPartitionPublish r dev attempt).map (·.2)
  | unpublish dev => s.map fun r => (tegrablPartitionsUnpublish record r dev).2

def FlagsAgree (s : Option (Registry D)) : Prop := ∃ r, s = some r ∧ r.Matched

def Orderly (s : Option (Registry D)) : RegistryOp D → Prop
  | .init _ _ => ∀ r, s = some r → ∀ dev, r.published dev = false
  | .publish dev attempt =>
    ∀ r, s = some r → ∀ d, dev = some d → Adds r d attempt → r.storageList ≠ none
  | .unpublish _ => True

theorem flagsAgree_publish (dev : Option D) (attempt : Attempt) (agree : r.Matched) :
    FlagsAgree ((tegrablPartitionPublish r dev attempt).map (·.2)) ↔
      ∀ d, dev = some d → Adds r d attempt → r.storageList ≠ none := by
  cases dev with
  | none =>
    refine ⟨fun _ d impossible => ?_, fun _ => ⟨r, rfl, agree⟩⟩
    cases impossible
  | some dev =>
    by_cases adds : Adds r dev attempt
    · obtain ⟨partitions, done⟩ := publish_adds adds
      rw [done]
      cases listed : r.storageList with
      | none =>
        refine ⟨?_, fun orderly => absurd rfl (orderly dev rfl adds)⟩
        rintro ⟨r', back, -⟩
        cases back
      | some list =>
        refine ⟨fun _ d _ _ empty => ?_, fun _ => ⟨_, rfl, ?_⟩⟩
        · cases empty
        · exact matched_adds listed adds.1 agree partitions
    · obtain ⟨result, done⟩ := publish_idle adds
      rw [done]
      refine ⟨fun _ d same adds' => ?_, fun _ => ⟨r, rfl, agree⟩⟩
      cases same
      exact absurd adds' adds

theorem flagsAgree_init (memory : Bool)
    (attempts : D → Attempt) : FlagsAgree ((tegrablPartitionManagerInit record devices r memory attempts).map (·.2)) ↔
      ∀ dev, r.published dev = false := by
  constructor
  · rintro ⟨r', back, agree⟩ dev
    by_contra flag
    obtain ⟨result, lost, done, apart⟩ :=
      init_forgets record devices (Bool.eq_true_of_not_eq_false flag) memory attempts
    rw [done] at back
    cases back
    exact apart agree
  · intro idle
    obtain ⟨result, r', done, agree⟩ := init_matched record devices idle memory attempts
    rw [done]
    exact ⟨r', rfl, agree⟩

theorem flagsAgree_step
    (distinct : Function.Injective fun dev => (record dev).deviceId) {s : Option (Registry D)}
    (op : RegistryOp D) (before : FlagsAgree s) : FlagsAgree (op.step record devices s) ↔ Orderly s op := by
  obtain ⟨r, rfl, agree⟩ := before
  cases op with
  | init memory attempts =>
    refine (flagsAgree_init record devices memory attempts).trans ⟨?_, fun idle => idle r rfl⟩
    rintro idle r' ⟨⟩
    exact idle
  | publish dev attempt =>
    refine (flagsAgree_publish dev attempt agree).trans ⟨?_, fun orderly => orderly r rfl⟩
    rintro orderly r' ⟨⟩
    exact orderly
  | unpublish dev =>
    exact ⟨fun _ => trivial, fun _ => ⟨_, rfl, unpublish_matched record dev distinct agree⟩⟩

def Registry.initial : Registry D := ⟨none, fun _ => false⟩

/-- Through a run, the flags agree with the entries and the lookups with both, exactly when every step
is orderly. -/
theorem published_agreement (record : D → Bdev) (devices : List D)
    (matchPartitionName : List UInt8 → List UInt8 → Bool) (ops : List (RegistryOp D))
    (distinct : Function.Injective fun dev => (record dev).deviceId) : Throughout (RegistryOp.step record devices)
        (fun s => ∃ r, s = some r ∧ r.Matched ∧ r.Findable record matchPartitionName) (some .initial) ops ↔
      EachStep (RegistryOp.step record devices) Orderly (some .initial) ops := by
  have findable : (fun s : Option (Registry D) =>
      ∃ r, s = some r ∧ r.Matched ∧ r.Findable record matchPartitionName) = FlagsAgree := by
    funext s
    refine propext ⟨?_, ?_⟩
    · rintro ⟨r, back, agree, -⟩
      exact ⟨r, back, agree⟩
    · rintro ⟨r, back, agree⟩
      exact ⟨r, back, agree, matched_findable record matchPartitionName distinct agree⟩
  have start : FlagsAgree (some (Registry.initial : Registry D)) := ⟨_, rfl, fun dev => rfl⟩
  rw [findable]
  exact throughout_iff_eachStep (I := fun _ => True) (fun _ _ _ _ _ => trivial)
    (fun s op _ before => flagsAgree_step record devices distinct op before) trivial start ops

end

def oneTable : Attempt := ⟨[some (.ok [⟨[65], [], [], 2, 4, 2048⟩])], true⟩

theorem published_agreement_once : Function.Injective (fun _ : Unit => smallDisk.deviceId) ∧
      Throughout (RegistryOp.step (fun _ : Unit => smallDisk) [()])
        (fun s => ∃ r, s = some r ∧ r.Matched ∧ r.Findable (fun _ => smallDisk) sameText)
        (some .initial) [.init true fun _ => oneTable, .unpublish (some ())] := by
  have distinct : Function.Injective (fun _ : Unit => smallDisk.deviceId) := fun _ _ _ => rfl
  refine ⟨distinct, (published_agreement (fun _ : Unit => smallDisk) [()] sameText _ distinct).mpr ?_⟩
  refine eachStep_cons.mpr ⟨?_, eachStep_cons.mpr ⟨trivial, eachStep_nil⟩⟩
  rintro r ⟨⟩ dev
  rfl

/-- The manager is started twice. The device keeps its flag and is in no list. -/
theorem published_agreement_restart :
    ¬ ∀ (D : Type) [DecidableEq D] (record : D → Bdev) (devices : List D) (ops : List (RegistryOp D)),
      Function.Injective (fun dev => (record dev).deviceId) →
      Throughout (RegistryOp.step record devices) FlagsAgree (some .initial) ops := by
  intro claim
  have always := claim Unit (fun _ => smallDisk) [()]
    [.init true fun _ => oneTable, .init true fun _ => oneTable] (fun _ _ _ => rfl)
  obtain ⟨r, back, agree⟩ := always _ (List.prefix_refl _)
  cases back
  have one := agree ()
  exact absurd one (by decide)

end Cboot.PartitionManager
