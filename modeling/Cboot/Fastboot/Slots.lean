import Cboot.Fastboot.Names

/-!
Flash and erase find their row in the same table, and only flash minds the suffix of the slot.
-/

namespace Cboot.Fastboot
open PartitionManager Lib Lib.Attempt

def Absent (published : Published) (name : Text) : Prop :=
  ∀ other ∈ published.names, tegrablABMatchPartName other name = false

section
variable {σ : Type} (P : Platform σ)

def BothOpen (arg : Text) (s : State σ) (name : Text) : Prop :=
  opened (cmdFlash P arg) s = (openPartition P.published (some name)).toList ∧
    opened (cmdErase P arg) s = (openPartition P.published (some name)).toList

structure InSlot (arg : Text) (s : State σ) : Prop where
  first : ∀ row ∈ fastbootPartitionMapTable, row.tegraPartNameB ≠ none →
    arg = row.fastbootPartName ∨ arg = row.fastbootPartName ++ Slot.a.suffix → BothOpen P arg s row.tegraPartName
  second : ∀ row ∈ fastbootPartitionMapTable, ∀ nameB, row.tegraPartNameB = some nameB →
    arg = row.fastbootPartName ++ Slot.b.suffix → BothOpen P arg s nameB
  other : tegrablFastbootGetPartinfo arg ≠ none → (∀ row ∈ fastbootPartitionMapTable, row.tegraPartNameB ≠ none →
      tegrablABMatchPartNameWithSuffix row.fastbootPartName arg = false) →
    opened (cmdFlash P arg) s = opened (cmdErase P arg) s
  reads : ∀ place ∈ suffixReads flashPrefix arg, 0 ≤ place ∧ place ≤ arg.length

/-- The argument has room for a suffix, and nothing is published that the suffixes could be confused with. -/
structure Clear (published : Published) (arg : Text) : Prop where
  room : 2 ≤ arg.length
  second : ∀ row ∈ fastbootPartitionMapTable, arg = row.fastbootPartName ++ Slot.b.suffix →
    Absent published row.tegraPartName ∧ ∀ nameB, row.tegraPartNameB = some nameB → Absent published nameB
  payload : tegrablABMatchPartNameWithSuffix (ascii "bootloader") arg = true → Absent published arg

end

theorem table_names : ∀ row ∈ fastbootPartitionMapTable,
    (∀ arg ∈ [row.fastbootPartName, row.fastbootPartName ++ Slot.a.suffix],
      eraseName arg = some row.tegraPartName ∧ flashName arg = some row.tegraPartName) ∧
    eraseName (row.fastbootPartName ++ Slot.b.suffix) = some row.tegraPartName ∧
    flashName (row.fastbootPartName ++ Slot.b.suffix) = row.tegraPartNameB := by
  decide +kernel

theorem table_apart : ∀ row ∈ fastbootPartitionMapTable, ∀ nameB ∈ row.tegraPartNameB,
    row.tegraPartName ≠ nameB ∧ row.tegraPartName ≠ nameB ++ Slot.a.suffix ∧
      nameB ≠ row.tegraPartName ++ Slot.a.suffix := by
  decide

theorem table_distinct : ∀ row ∈ fastbootPartitionMapTable, ∀ other ∈ fastbootPartitionMapTable,
    tegrablABMatchPartNameWithSuffix other.fastbootPartName
      (row.fastbootPartName ++ Slot.b.suffix) = true → other = row := by
  decide

theorem payload_unlisted : ∀ arg ∈ [ascii "bootloader", ascii "bootloader" ++ Slot.a.suffix,
    ascii "bootloader" ++ Slot.b.suffix], tegrablFastbootGetPartinfo arg = some (unlisted arg) ∧
      ∀ row ∈ fastbootPartitionMapTable, tegrablABMatchPartNameWithSuffix row.fastbootPartName arg = false := by
  decide

theorem open_apart {published : Published} {name nameB : Text}
    (apart : name ≠ nameB ∧ name ≠ nameB ++ Slot.a.suffix ∧ nameB ≠ name ++ Slot.a.suffix)
    (same : openPartition published (some name) = openPartition published (some nameB)) :
    openPartition published (some name) = none := by
  cases opened : openPartition published (some name) with
  | none => rfl
  | some partition =>
    obtain ⟨other, named⟩ := Option.ne_none_iff_exists'.mp (tableName_open opened)
    have first := openPartition_name published name
    have second := openPartition_name published nameB
    rw [← same] at second
    rw [opened, Option.bind_some, named] at first second
    have fits := List.find?_some (p := (tegrablABMatchPartName · name)) first.symm
    have fitsB := List.find?_some (p := (tegrablABMatchPartName · nameB)) second.symm
    rw [matchPartName_iff] at fits fitsB
    obtain ⟨unequal, left, right⟩ := apart
    rcases fits with rfl | rfl
    · rcases fitsB with rfl | rfl
      · exact absurd rfl unequal
      · exact absurd rfl right
    · rcases fitsB with rfl | rfl
      · exact absurd rfl left
      · exact absurd rfl unequal

theorem flashName_unlisted {arg : Text} (missing : ∀ row ∈ fastbootPartitionMapTable,
      tegrablABMatchPartNameWithSuffix row.fastbootPartName arg = false)
    (other : tegrablABMatchPartNameWithSuffix (ascii "bootloader") arg = false) : flashName arg = eraseName arg := by
  have notListed : fastbootPartitionMapTable.find? (fun row =>
      tegrablABMatchPartNameWithSuffix row.fastbootPartName arg) = none := by
    simpa using missing
  unfold flashName eraseName tegrablFastbootGetPartinfo
  rw [other, notListed, if_neg Bool.false_ne_true]
  dsimp only
  split
  · rfl
  · cases tegrablABGetPartSuffix flashPrefix arg <;> rfl

theorem strcmpReads_range (s t : List UInt8) (start : Int) :
    ∀ place ∈ strcmpReads start s t, start ≤ place ∧ place < start + s.length := by
  induction s generalizing t start with
  | nil =>
    intro place mem
    unfold strcmpReads at mem
    cases mem
  | cons c s ih =>
    intro place mem
    cases t with
    | nil => cases mem
    | cons d t =>
      unfold strcmpReads at mem
      rw [List.length_cons]
      rcases List.mem_cons.mp mem with rfl | later
      · omega
      · split at later
        · have := ih t (start + 1) place later
          omega
        · cases later

theorem suffixReads_inside (arg : Text) :
    (∀ place ∈ suffixReads flashPrefix arg, 0 ≤ place ∧ place ≤ arg.length) ↔ 2 ≤ arg.length := by
  unfold suffixReads
  have long : flashPrefix.length = 6 := rfl
  have two : (lastTwo flashPrefix arg ++ [0]).length = 3 := by
    unfold lastTwo
    simp only [List.length_append, List.length_drop, List.length_singleton]
    omega
  constructor
  · intro inside
    -- The first character of the two is always read.
    have first : (arg.length - 2 : Int) ∈
        strcmpReads (arg.length - 2) (lastTwo flashPrefix arg ++ [0]) (Slot.b.suffix ++ [0]) := by
      cases found : lastTwo flashPrefix arg ++ [0] with
      | nil => simp at found
      | cons c rest => exact List.mem_cons_self
    have := inside _ first
    omega
  · intro room place mem
    have := strcmpReads_range _ _ _ place mem
    rw [two] at this
    omega

section
variable {σ : Type} {P : Platform σ} {arg : Text} {s : State σ}

theorem toList_inj {α : Type} {a b : Option α} (same : a.toList = b.toList) : a = b := by
  cases a <;> cases b <;> simp_all

structure Opening (P : Platform σ) (arg : Text) (s : State σ) : Prop where
  flash : opened (cmdFlash P arg) s = (openPartition P.published (flashName arg)).toList
  erase : opened (cmdErase P arg) s = (openPartition P.published (eraseName arg)).toList

theorem opens_absent {published : Published} {name : Text} (absent : Absent published name) :
    openPartition published (some name) = none := openPartition_eq_none.mpr absent

theorem Clear.inSlot (clear : Clear P.published arg) (opening : Opening P arg s) : InSlot P arg s where
  first row mem _ named := by
    obtain ⟨bare, -⟩ := table_names row mem
    obtain ⟨erase, flash⟩ := bare arg (by simpa using named)
    exact ⟨by rw [opening.flash, flash], by rw [opening.erase, erase]⟩
  second row mem nameB slotted named := by
    obtain ⟨-, erase, flash⟩ := table_names row mem
    obtain ⟨absent, absentB⟩ := clear.second row mem named
    rw [← named] at erase flash
    refine ⟨by rw [opening.flash, flash, slotted], ?_⟩
    rw [opening.erase, erase, opens_absent absent, opens_absent (absentB nameB slotted)]
  other accepted unslotted := by
    rw [opening.flash, opening.erase]
    by_cases listed : ∃ row ∈ fastbootPartitionMapTable,
        tegrablABMatchPartNameWithSuffix row.fastbootPartName arg = true
    · obtain ⟨row, mem, fits⟩ := listed
      obtain ⟨bare, erase, flash⟩ := table_names row mem
      rcases matchPartNameWithSuffix_iff.mp fits with named | ⟨slot, named⟩
      · obtain ⟨erase, flash⟩ := bare arg (by simp [named])
        rw [erase, flash]
      cases slot with
      | a =>
        obtain ⟨erase, flash⟩ := bare arg (by simp [named])
        rw [erase, flash]
      | b =>
        -- A row with one slot only.
        have single : row.tegraPartNameB = none := by
          by_contra slotted
          rw [unslotted row mem slotted] at fits
          cases fits
        rw [← named] at erase flash
        rw [erase, flash, single, opens_absent (clear.second row mem named).1]
        rfl
    · have missing : ∀ row ∈ fastbootPartitionMapTable,
          tegrablABMatchPartNameWithSuffix row.fastbootPartName arg = false := by
        simpa using listed
      cases payload : tegrablABMatchPartNameWithSuffix (ascii "bootloader") arg with
      | false => rw [flashName_unlisted missing payload]
      | true =>
        obtain ⟨unlisted, -⟩ := payload_unlisted arg (by
          rcases matchPartNameWithSuffix_iff.mp payload with rfl | ⟨slot, rfl⟩
          · simp
          · cases slot <;> simp)
        have erase : eraseName arg = some arg := by
          rw [eraseName, unlisted]
          rfl
        rw [flashName, payload, erase, opens_absent (clear.payload payload)]
        rfl
  reads := (suffixReads_inside arg).mpr clear.room

theorem InSlot.clear (inSlot : InSlot P arg s) (opening : Opening P arg s) : Clear P.published arg where
  room := (suffixReads_inside arg).mp inSlot.reads
  second row mem named := by
    obtain ⟨-, erase, flash⟩ := table_names row mem
    rw [← named] at erase flash
    cases slotted : row.tegraPartNameB with
    | none =>
      have accepted : tegrablFastbootGetPartinfo arg ≠ none := by
        intro refused
        rw [eraseName, refused] at erase
        cases erase
      have same := inSlot.other accepted (by
        intro other listed slotted'
        refine Bool.eq_false_iff.mpr ?_
        intro fits
        rw [named] at fits
        rw [table_distinct row mem other listed fits] at slotted'
        exact slotted' slotted)
      rw [opening.flash, opening.erase, flash, erase, slotted] at same
      refine ⟨openPartition_eq_none.mp (toList_inj same.symm), ?_⟩
      intro name chosen
      cases chosen
    | some nameB =>
      obtain ⟨-, both⟩ := inSlot.second row mem nameB slotted named
      rw [opening.erase, erase] at both
      have same := toList_inj both
      have none := open_apart (table_apart row mem nameB slotted) same
      refine ⟨openPartition_eq_none.mp none, ?_⟩
      intro name chosen
      cases chosen
      exact openPartition_eq_none.mp (same.symm.trans none)
  payload fits := by
    obtain ⟨listed, unslotted⟩ := payload_unlisted arg (by
      rcases matchPartNameWithSuffix_iff.mp fits with rfl | ⟨slot, rfl⟩
      · simp
      · cases slot <;> simp)
    have same := inSlot.other (by simp [listed]) fun row mem _ => unslotted row mem
    rw [opening.flash, opening.erase, flashName, fits, eraseName, listed] at same
    exact openPartition_eq_none.mp (toList_inj same.symm)

/-- Flash and erase touch the slot that the argument names, and look for it in the argument, exactly
if the argument is clear. -/
theorem slot_touched (unlocked : ¬ P.Locked s.world) (memory : s.downloadBase ≠ none)
    (size : s.downloadSize ≠ 0) : InSlot P arg s ↔ Clear P.published arg := by
  have opening : Opening P arg s :=
    ⟨flash_opens arg unlocked memory size, erase_opens arg unlocked⟩
  exact ⟨fun inSlot => inSlot.clear opening, fun clear => clear.inSlot opening⟩

end

def bothSlots : Platform Script := scripted (oneDisk ["boot_a", "boot_b"])

theorem downloaded_unlocked (published : Published) (image : List UInt8) :
    ¬ (scripted published).Locked (downloaded image).world := by
  intro locked
  cases locked _ rfl

/-- With a suffix `_a` both commands open the first slot. -/
theorem slot_touched_first : InSlot bothSlots (ascii "boot_a") (downloaded [1]) := by
  refine (slot_touched (downloaded_unlocked _ _) (by decide) (by decide)).mpr ⟨?_, ?_, ?_⟩
  · decide
  · intro row mem named
    have other : ∀ row ∈ fastbootPartitionMapTable,
        ascii "boot_a" ≠ row.fastbootPartName ++ Slot.b.suffix := by decide
    exact absurd named (other row mem)
  · intro fits
    have other : tegrablABMatchPartNameWithSuffix (ascii "bootloader") (ascii "boot_a") = false := by
      decide
    rw [other] at fits
    cases fits

/-- `erase:boot_b` erases the first slot. -/
theorem slot_missed : ¬ bothSlots.Locked (downloaded [1]).world ∧
    (opened (cmdErase bothSlots (ascii "boot_b")) (downloaded [1])).map tableName = [some (ascii "boot_a")] ∧
    ¬ InSlot bothSlots (ascii "boot_b") (downloaded [1]) := by
  have erased : (opened (cmdErase bothSlots (ascii "boot_b")) (downloaded [1])).map tableName =
      [some (ascii "boot_a")] := by decide
  refine ⟨downloaded_unlocked _ _, erased, ?_⟩
  intro inSlot
  obtain ⟨-, both⟩ := inSlot.second ⟨ascii "boot", ascii "boot_a", some (ascii "boot_b"), fsTypeBasic⟩
    (by decide) (ascii "boot_b") rfl (by decide)
  have second : ((openPartition bothSlots.published (some (ascii "boot_b"))).toList).map tableName =
      [some (ascii "boot_b")] := by decide
  rw [both, second] at erased
  exact absurd erased (by decide)

end Cboot.Fastboot
