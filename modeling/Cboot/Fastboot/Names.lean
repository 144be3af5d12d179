import Cboot.Fastboot.Locked

/-!
Fastboot keeps the private partitions from the host by the name in the command.
-/

namespace Cboot.Fastboot
open PartitionManager Lib Lib.Attempt

variable {partName fullPartName : Text}

theorem matchPartName_iff : tegrablABMatchPartName partName fullPartName = true ↔
      fullPartName = partName ∨ fullPartName = partName ++ Slot.a.suffix := by
  unfold tegrablABMatchPartName
  constructor
  · intro fits
    obtain ⟨begins, rest⟩ := Bool.and_eq_true_iff.mp fits
    obtain ⟨more, rfl⟩ := List.isPrefixOf_iff_prefix.mp begins
    simpa using rest
  · rintro (rfl | rfl)
    · simp
    · simp [List.isPrefixOf_iff_prefix]

theorem matchPartNameWithSuffix_iff :
    tegrablABMatchPartNameWithSuffix partName fullPartName = true ↔
      fullPartName = partName ∨ ∃ slot : Slot, fullPartName = partName ++ slot.suffix := by
  unfold tegrablABMatchPartNameWithSuffix
  constructor
  · intro fits
    obtain ⟨begins, rest⟩ := Bool.and_eq_true_iff.mp fits
    obtain ⟨more, rfl⟩ := List.isPrefixOf_iff_prefix.mp begins
    rcases Bool.or_eq_true_iff.mp rest with first | last
    · rcases Bool.or_eq_true_iff.mp first with bare | a
      · exact .inl (by simpa using bare)
      · rw [beq_iff_eq, List.drop_left] at a
        exact .inr ⟨.a, by rw [a]⟩
    · rw [beq_iff_eq, List.drop_left] at last
      exact .inr ⟨.b, by rw [last]⟩
  · rintro (rfl | ⟨slot, rfl⟩)
    · simp
    · cases slot <;> simp [List.isPrefixOf_iff_prefix]

def Published.names (published : Published) : List Text :=
  (published.getD []).flatMap fun entry => entry.partitions.map fun info => text info.name

def tableName (partition : Partition) : Option Text := partition.info.map fun info => text info.name

theorem findPartition_name (fits : Text → Bool) (list : List (StorageInfo Blockdev.Bdev)) :
    (findPartition (fun _ info => fits (text info.name)) list).map (fun found => text found.2.name) =
      (list.flatMap fun entry => entry.partitions.map fun info => text info.name).find? fits := by
  induction list with
  | nil => rfl
  | cons entry rest ih =>
    unfold findPartition at ih ⊢
    rw [List.findSome?_cons, List.flatMap_cons, List.find?_append, ← ih, List.find?_map]
    cases found : entry.partitions.find? ((fun info => fits (text info.name))) with
    | none => simp [Function.comp_def, found]
    | some info => simp [Function.comp_def, found]

theorem openPartition_name (published : Published) (name : Text) :
    (openPartition published (some name)).bind tableName = published.names.find? (tegrablABMatchPartName · name) := by
  cases published with
  | none => rfl
  | some list =>
    show _ = (list.flatMap _).find? _
    rw [← findPartition_name]
    unfold openPartition tegrablPartitionOpen fillPartition matchPartitionName
    dsimp only
    cases findPartition (fun _ info => tegrablABMatchPartName (text info.name) name) list with
    | none => rfl
    | some found => rfl

variable {published : Published}

theorem openPartition_eq_some {name : Option Text} {partition : Partition}
    (opened : openPartition published name = some partition) : ∃ info dev, partition = ⟨some info, some dev, 0⟩ := by
  cases name with
  | none => cases opened
  | some name =>
    cases published with
    | none => cases opened
    | some list =>
      unfold openPartition tegrablPartitionOpen fillPartition at opened
      dsimp only at opened
      cases found : findPartition (fun _ info => matchPartitionName info.name name) list with
      | none =>
        rw [found] at opened
        cases opened
      | some pair =>
        rw [found] at opened
        cases opened
        exact ⟨pair.2, pair.1.bdev, rfl⟩

theorem tableName_open {name : Option Text} {partition : Partition}
    (opened : openPartition published name = some partition) : tableName partition ≠ none := by
  obtain ⟨info, dev, rfl⟩ := openPartition_eq_some opened
  simp [tableName]

theorem openPartition_eq_none {name : Text} : openPartition published (some name) = none ↔
      ∀ other ∈ published.names, tegrablABMatchPartName other name = false := by
  have names := openPartition_name published name
  cases opened : openPartition published (some name) with
  | none =>
    rw [opened] at names
    simpa using names.symm
  | some partition =>
    rw [opened] at names
    have named := tableName_open opened
    constructor
    · intro none
      cases none
    · intro absent
      have missing : published.names.find? (tegrablABMatchPartName · name) = none := by
        simpa using absent
      rw [missing] at names
      exact absurd names named

def Event.opening : Event → Option Partition
  | .opened partition => some partition
  | _ => none

def openings (log : List Event) : List Partition := log.filterMap Event.opening

section
variable {σ : Type}

def opened (c : FastbootM σ Unit) (s : State σ) : List Partition :=
  openings ((c.run s).2.log.drop s.log.length)

def Opens (partitions : List Partition) (s t : State σ) : Prop :=
  ∃ more, t.log = s.log ++ more ∧ openings more = partitions

variable {s : State σ} {partitions : List Partition}

theorem Opens.opened {c : FastbootM σ Unit}
    (opens : Opens partitions s (c.run s).2) : opened c s = partitions := by
  obtain ⟨more, log, same⟩ := opens
  unfold Fastboot.opened
  rw [log, List.drop_left, same]

theorem Opens.trans {s t u : State σ} {partitions others : List Partition}
    (first : Opens partitions s t) (second : Opens others t u) : Opens (partitions ++ others) s u := by
  obtain ⟨more, log, same⟩ := first
  obtain ⟨more', log', same'⟩ := second
  refine ⟨more ++ more', by rw [log', log, List.append_assoc], ?_⟩
  rw [openings, List.filterMap_append]
  exact congrArg₂ (· ++ ·) same same'

theorem opens_same {s t : State σ} (log : t.log = s.log) : Opens [] s t :=
  ⟨[], by rw [log, List.append_nil], rfl⟩

theorem opens_logged {s t : State σ} {e : Event} (log : t.log = s.log ++ [e]) (other : e.opening = none) :
    Opens [] s t := ⟨[e], log, by simp [openings, other]⟩

instance : IsPreorder (State σ) (Opens []) where
  refl _ := opens_same rfl
  trans _ _ _ first second := first.trans second

variable (P : Platform σ)

theorem careful_opens : Careful P (Opens []) where
  preorder := inferInstance
  hook _ _ := opens_same rfl
  ack code reason _ := by
    refine Steps.bind (fun s => opens_same rfl) ?_
    intro s
    split
    · refine Steps.bind (fun s => opens_same rfl) fun _ => Steps.bind ?_ fun _ => steps_pure _
      exact Steps.bind (fun s => opens_logged rfl rfl) fun _ s => opens_same rfl
    · exact steps_pure _
  storage _ _ := opens_same rfl
  wrote s t wrote := by
    obtain ⟨storage, w, writes, rfl, all⟩ := wrote
    refine ⟨writes, rfl, List.filterMap_eq_nil_iff.mpr ?_⟩
    intro e mem
    obtain ⟨partition, bytes, rfl⟩ := all e mem
    rfl
  image s e _ ofImage := by
    refine opens_logged rfl ?_
    cases e with
    | flashed _ => rfl
    | updated _ _ => rfl
    | _ => exact ofImage.elim

theorem locked_opens (locked : P.Locked s.world) (body : FastbootM σ Unit) :
    opened (whenUnlocked P body) s = [] := by
  obtain ⟨reason, w, refused⟩ := whenUnlocked_locked locked body
  refine Opens.opened ?_
  rw [refused]
  obtain ⟨more, log, none⟩ := (careful_opens P).fail reason { s with world := w }
  exact ⟨more, log, none⟩

theorem run_open (name : Option Text) (s : State σ) : (tegrablFastbootOpen P name).run s =
    (.ok (openPartition P.published name), { s with
      log := s.log ++ (openPartition P.published name).toList.map Event.opened }) := by
  unfold tegrablFastbootOpen
  cases openPartition P.published name with
  | none => simp
  | some partition => rfl

theorem opens_open (s : State σ) (partition : Option Partition) :
    Opens partition.toList s { s with log := s.log ++ partition.toList.map Event.opened } := by
  refine ⟨_, rfl, ?_⟩
  cases partition <;> rfl

def eraseName (arg : Text) : Option Text :=
  (tegrablFastbootGetPartinfo arg).map fun partinfo => partinfo.tegraPartName

def flashName (arg : Text) : Option Text :=
  if tegrablABMatchPartNameWithSuffix (ascii "bootloader") arg then none
  else (tegrablFastbootGetPartinfo arg).bind
    (tegrablFastbootGetTegraPartName (tegrablABGetPartSuffix flashPrefix arg))

variable {P}

theorem opens_whenUnlocked {body : FastbootM σ Unit}
    (unlocked : ¬ P.Locked s.world)
    (inner : ∀ w, Opens partitions { s with world := w } (body.run { s with world := w }).2) :
    Opens partitions s ((whenUnlocked P body).run s).2 := by
  obtain ⟨w, same⟩ := whenUnlocked_unlocked unlocked body
  rw [same]
  exact inner w

theorem erase_opens (arg : Text) (unlocked : ¬ P.Locked s.world) :
    opened (cmdErase P arg) s = (openPartition P.published (eraseName arg)).toList := by
  have careful := careful_opens P
  refine Opens.opened (opens_whenUnlocked unlocked ?_)
  intro w
  unfold eraseName
  cases tegrablFastbootGetPartinfo arg with
  | none => exact careful.fail _ _
  | some partinfo =>
    dsimp only [Option.map_some]
    rw [run_bind_ok (run_open P _ _), ← List.append_nil (Option.toList _)]
    refine (opens_open _ _).trans ?_
    cases openPartition P.published (some partinfo.tegraPartName) with
    | none => exact careful.fail _ _
    | some partition =>
      have erased : Steps (Opens []) (erasePartition P partition) :=
        careful.bind (fun _ => opens_logged rfl rfl) fun _ => careful.storage _
      refine careful.bind erased ?_ _
      intro result
      cases result with
      | error e => exact careful.fail _
      | ok _ => exact careful.okay _

theorem flash_opens (arg : Text) (unlocked : ¬ P.Locked s.world)
    (memory : s.downloadBase ≠ none) (size : s.downloadSize ≠ 0) :
    opened (cmdFlash P arg) s = (openPartition P.published (flashName arg)).toList := by
  have careful := careful_opens P
  refine Opens.opened (opens_whenUnlocked unlocked ?_)
  intro w
  unfold flashName
  rw [run_bind_ok (show get.run _ = (.ok _, _) from rfl)]
  have there : ¬ (s.downloadBase.isNone || s.downloadSize == 0) = true := by
    simp [memory, size]
  rw [if_neg there]
  dsimp only
  split
  · exact careful.flashPayload (s := { s with world := w }) _ size
  unfold flashPartition
  cases tegrablFastbootGetPartinfo arg with
  | none => exact careful.fail _ _
  | some partinfo =>
    dsimp only [Option.bind_some]
    rw [run_bind_ok (run_open P _ _), ← List.append_nil (Option.toList _)]
    refine (opens_open _ _).trans ?_
    cases openPartition P.published _ with
    | none => exact careful.fail _ _
    | some partition => exact careful.flashImage (s := { s with
        world := w, log := s.log ++ [.opened partition] }) partition size

theorem flash_empty (arg : Text) (empty : s.downloadBase = none ∨ s.downloadSize = 0) :
    opened (cmdFlash P arg) s = [] := by
  by_cases locked : P.Locked s.world
  · exact locked_opens P locked _
  · refine Opens.opened (opens_whenUnlocked locked ?_)
    intro w
    rw [run_bind_ok (show get.run _ = (.ok _, _) from rfl)]
    have missing : (s.downloadBase.isNone || s.downloadSize == 0) = true := by
      rcases empty with none | zero
      · simp [none]
      · simp [zero]
    rw [if_pos missing]
    exact opens_same rfl

end

def PrivateName (name : Text) : Prop :=
  ∃ own ∈ tegrablNvPrivatePartitionList, name = own ∨ ∃ slot : Slot, name = own ++ slot.suffix

def Private (partition : Partition) : Prop := ∃ name, tableName partition = some name ∧ PrivateName name

/-- A private name with two suffixes, the second one `_a`, where the table has it with the first one
only, or before the name with both. -/
def Exposed (published : Published) (arg : Text) : Prop :=
  ∃ own ∈ tegrablNvPrivatePartitionList, ∃ slot : Slot, arg = own ++ slot.suffix ++ Slot.a.suffix ∧
    published.names.find? (fun name => name = own ++ slot.suffix ∨ name = arg) = some (own ++ slot.suffix)

inductive Resolved (arg : Text) : Text → Prop
  | row {row : FastbootPartitionInfo} : row ∈ fastbootPartitionMapTable → Resolved arg row.tegraPartName
  | rowB {row : FastbootPartitionInfo} {name : Text} : row ∈ fastbootPartitionMapTable →
      row.tegraPartNameB = some name → Resolved arg name
  | unlisted : ¬ PrivateName arg → Resolved arg arg

theorem private_iff (name : Text) : PrivateName name ↔
    tegrablNvPrivatePartitionList.any (tegrablABMatchPartNameWithSuffix · name) = true := by
  simp [PrivateName, matchPartNameWithSuffix_iff]

theorem resolved_partinfo {arg : Text} {partinfo : FastbootPartitionInfo}
    (found : tegrablFastbootGetPartinfo arg = some partinfo) (slot : Slot) {name : Text}
    (chosen : tegrablFastbootGetTegraPartName slot partinfo = some name) : Resolved arg name := by
  unfold tegrablFastbootGetPartinfo at found
  split at found
  · rename_i row listed
    have mem := List.mem_of_find?_eq_some listed
    cases found
    cases slot with
    | a =>
      cases chosen
      exact .row mem
    | b => exact .rowB mem chosen
  · split at found
    · cases found
    · rename_i unlisted
      rw [← private_iff] at unlisted
      cases found
      cases slot with
      | a =>
        cases chosen
        exact .unlisted unlisted
      | b =>
        cases chosen
        exact .unlisted unlisted

def privateNames : List Text := tegrablNvPrivatePartitionList.flatMap fun own =>
  [own, own ++ Slot.a.suffix, own ++ Slot.b.suffix]

theorem mem_privateNames {name : Text} (isPrivate : PrivateName name) : name ∈ privateNames := by
  obtain ⟨own, mem, rfl | ⟨slot, rfl⟩⟩ := isPrivate
  · exact List.mem_flatMap.mpr ⟨_, mem, by simp⟩
  · refine List.mem_flatMap.mpr ⟨own, mem, ?_⟩
    cases slot <;> simp

theorem table_public : ∀ row ∈ fastbootPartitionMapTable,
    ∀ name ∈ row.tegraPartName :: row.tegraPartNameB.toList, ∀ other ∈ privateNames,
      tegrablABMatchPartName other name = false := by
  decide +kernel

theorem resolved_private {arg name other : Text} (resolved : Resolved arg name)
    (isPrivate : PrivateName other) (fits : tegrablABMatchPartName other name = true) :
    name = arg ∧ ∃ own ∈ tegrablNvPrivatePartitionList, ∃ slot : Slot, other = own ++ slot.suffix ∧
      arg = own ++ slot.suffix ++ Slot.a.suffix := by
  cases resolved with
  | row mem =>
    rw [table_public _ mem _ List.mem_cons_self other (mem_privateNames isPrivate)] at fits
    cases fits
  | @rowB row _ mem chosen =>
    have listed : name ∈ row.tegraPartName :: row.tegraPartNameB.toList := by
      simp [chosen]
    rw [table_public _ mem name listed other (mem_privateNames isPrivate)] at fits
    cases fits
  | unlisted isPublic =>
    refine ⟨rfl, ?_⟩
    rcases matchPartName_iff.mp fits with rfl | rfl
    · exact absurd isPrivate isPublic
    · obtain ⟨own, mem, rfl | ⟨slot, rfl⟩⟩ := isPrivate
      · exact absurd ⟨other, mem, .inr ⟨.a, rfl⟩⟩ isPublic
      · exact ⟨own, mem, slot, rfl, rfl⟩

theorem twice_suffixed : ∀ own ∈ tegrablNvPrivatePartitionList, ∀ slot ∈ [Slot.a, Slot.b],
    tegrablFastbootGetPartinfo (own ++ slot.suffix ++ Slot.a.suffix) =
      some (unlisted (own ++ slot.suffix ++ Slot.a.suffix)) ∧
    tegrablABMatchPartNameWithSuffix (ascii "bootloader") (own ++ slot.suffix ++ Slot.a.suffix) = false := by
  decide

theorem find_suffixed (names : List Text) (name : Text) :
    names.find? (tegrablABMatchPartName · (name ++ Slot.a.suffix)) =
      names.find? fun other => other = name ∨ other = name ++ Slot.a.suffix := by
  congr 1
  funext other
  rw [Bool.eq_iff_iff, matchPartName_iff, decide_eq_true_iff, List.append_left_inj]
  constructor
  · intro fits
    exact fits.symm.imp Eq.symm Eq.symm
  · intro fits
    exact fits.symm.imp Eq.symm Eq.symm

theorem open_private {published : Published} {arg : Text} {name : Option Text}
    (resolved : ∀ n, name = some n → Resolved arg n) (suffixed : ∀ own ∈ tegrablNvPrivatePartitionList, ∀ slot : Slot,
      arg = own ++ slot.suffix ++ Slot.a.suffix → name = some arg) :
    (∀ partition ∈ (openPartition published name).toList, ¬ Private partition) ↔ ¬ Exposed published arg := by
  constructor
  · intro spared exposed
    obtain ⟨own, mem, slot, same, first⟩ := exposed
    rw [suffixed own mem slot same] at spared
    have names := openPartition_name published arg
    rw [same, find_suffixed, ← same, first] at names
    obtain ⟨partition, opened, named⟩ := Option.bind_eq_some_iff.mp names
    exact spared partition (Option.mem_toList.mpr opened) ⟨_, named, own, mem, .inr ⟨slot, rfl⟩⟩
  · intro unexposed partition opened isPrivate
    obtain ⟨other, named, isPrivate⟩ := isPrivate
    have opened := Option.mem_toList.mp opened
    cases name with
    | none => cases opened
    | some name =>
      have names := openPartition_name published name
      rw [opened, Option.bind_some, named] at names
      have fits := List.find?_some names.symm
      obtain ⟨rfl, own, mem, slot, rfl, same⟩ := resolved_private (resolved name rfl) isPrivate fits
      refine unexposed ⟨own, mem, slot, same, ?_⟩
      rw [names, same, find_suffixed]

theorem eraseName_private (published : Published) (arg : Text) :
    (∀ partition ∈ (openPartition published (eraseName arg)).toList, ¬ Private partition) ↔
      ¬ Exposed published arg := by
  refine open_private ?_ ?_
  · intro name chosen
    obtain ⟨partinfo, found, rfl⟩ := Option.map_eq_some_iff.mp chosen
    exact resolved_partinfo found .a rfl
  · intro own mem slot same
    have accepted := (twice_suffixed own mem slot (by cases slot <;> simp)).1
    rw [← same] at accepted
    rw [eraseName, accepted]
    rfl

theorem flashName_private (published : Published) (arg : Text) :
    (∀ partition ∈ (openPartition published (flashName arg)).toList, ¬ Private partition) ↔
      ¬ Exposed published arg := by
  refine open_private ?_ ?_
  · intro name chosen
    unfold flashName at chosen
    split at chosen
    · cases chosen
    · obtain ⟨partinfo, found, named⟩ := Option.bind_eq_some_iff.mp chosen
      exact resolved_partinfo found _ named
  · intro own mem slot same
    obtain ⟨accepted, other⟩ := twice_suffixed own mem slot (by cases slot <;> simp)
    rw [← same] at accepted other
    rw [flashName, other, accepted]
    cases tegrablABGetPartSuffix flashPrefix arg <;> rfl

/-- Erase and flash leave the private partitions closed, unless the device is unlocked and the
argument exposes one. -/
theorem private_closed {σ : Type} (P : Platform σ) (arg : Text) (s : State σ) :
    ((∀ partition ∈ opened (cmdErase P arg) s, ¬ Private partition) ↔ P.Locked s.world ∨ ¬ Exposed P.published arg) ∧
    ((∀ partition ∈ opened (cmdFlash P arg) s, ¬ Private partition) ↔
      P.Locked s.world ∨ s.downloadBase = none ∨ s.downloadSize = 0 ∨ ¬ Exposed P.published arg) := by
  by_cases locked : P.Locked s.world
  · have erase : opened (cmdErase P arg) s = [] := locked_opens P locked _
    have flash : opened (cmdFlash P arg) s = [] := locked_opens P locked _
    rw [erase, flash]
    simp [locked]
  constructor
  · rw [erase_opens arg locked, eraseName_private]
    simp [locked]
  · by_cases memory : s.downloadBase = none
    · rw [flash_empty arg (.inl memory)]
      simp [memory]
    by_cases size : s.downloadSize = 0
    · rw [flash_empty arg (.inr size)]
      simp [size]
    rw [flash_opens arg locked memory size, flashName_private]
    simp [locked, memory, size]

def oneDisk (names : List String) : Published := some [⟨Blockdev.smallDisk, names.zipIdx.map fun named =>
  ⟨ascii named.1, [], [], UInt64.ofNat (2 * named.2), 2, 1024⟩⟩]

def downloaded (image : List UInt8) : State Script :=
  { scriptStart [] with
    fastbootState := .command
    downloadBase := some ⟨image.length, image⟩
    downloadSize := image.length
    isAllocated := true }

/-- `erase:mb1_b_a` erases the second copy of `mb1`. -/
theorem private_opened : ∃ partition,
    partition ∈ opened (cmdErase (scripted (oneDisk ["mb1", "mb1_b"])) (ascii "mb1_b_a"))
      (downloaded []) ∧ Private partition := by
  refine ⟨⟨some ⟨ascii "mb1_b", [], [], 2, 2, 1024⟩, some Blockdev.smallDisk, 0⟩,
    by decide, ascii "mb1_b", by decide, ascii "mb1", by decide, .inr ⟨.b, ?_⟩⟩
  decide

end Cboot.Fastboot
