import Cboot.BlUpdate.Turn

/-!
The order in which the partitions of a payload come to their turn does not depend on anything but the names in the blob:
each name once, and behind the one that it depends on.
-/

namespace Cboot.BlUpdate
open Lib Attempt Nvblob

section
variable {σ : Type}

theorem shortName_text (chars : List UInt8) : shortName (text chars) = shortName chars := by
  have taken : ∀ n, ((chars.takeWhile (· ≠ 0)).take n).takeWhile (· ≠ 0) = (chars.take n).takeWhile (· ≠ 0) := by
    induction chars with
    | nil => simp
    | cons c chars ih =>
      intro n
      cases n with
      | zero => simp
      | succ n =>
        by_cases zero : c = 0
        · simp [zero]
        · simpa [zero] using ih n
  exact taken partNameLen

variable {name other : List UInt8}

theorem getDependency_congr (cfg : Config) (same : shortName name = shortName other) :
    getDependency cfg name = getDependency cfg other := by
  unfold getDependency
  rw [same]

theorem dependencyRank_congr (same : shortName name = shortName other) :
    dependencyRank name = dependencyRank other := by
  unfold dependencyRank
  rw [same]

theorem isPartitionUpdated_cons (name other : List UInt8) (list : List (List UInt8)) :
    isPartitionUpdated (name :: list) other = true ↔
      shortName name = shortName other ∨ isPartitionUpdated list other = true := by
  simp [isPartitionUpdated]

theorem isPartitionUpdated_congr (list : List (List UInt8))
    (same : shortName name = shortName other) : isPartitionUpdated list name = isPartitionUpdated list other := by
  unfold isPartitionUpdated
  rw [same]

def turn (cfg : Config) (list : List (List UInt8)) (name : List UInt8) : List (List UInt8) :=
  if isPartitionUpdated list name then list
  else
    match _dependency : getDependency cfg name with
    | none => name :: list
    | some part => name :: turn cfg list part
termination_by dependencyRank name
decreasing_by exact dependencyRank_lt _dependency

variable {cfg : Config} {list : List (List UInt8)}

theorem turn_listed (listed : isPartitionUpdated list name = true) : turn cfg list name = list := by
  unfold turn
  rw [if_pos listed]

theorem turn_none (new : isPartitionUpdated list name = false)
    (dependency : getDependency cfg name = none) : turn cfg list name = name :: list := by
  unfold turn
  simp only [new, Bool.false_eq_true, if_false]
  split
  · rfl
  · rename_i part found
    rw [dependency] at found
    cases found

variable {part : List UInt8}

theorem turn_some (new : isPartitionUpdated list name = false)
    (dependency : getDependency cfg name = some part) : turn cfg list name = name :: turn cfg list part := by
  rw [turn]
  simp only [new, Bool.false_eq_true, if_false]
  split
  · rename_i found
    rw [dependency] at found
    cases found
  · rename_i part' found
    rw [dependency] at found
    cases found
    rfl

theorem turn_induction (cfg : Config) (list : List (List UInt8)) {P : List UInt8 → Prop} (name : List UInt8)
    (listed : ∀ name, isPartitionUpdated list name = true → P name)
    (last : ∀ name, isPartitionUpdated list name = false → getDependency cfg name = none → P name)
    (next : ∀ name part, isPartitionUpdated list name = false → getDependency cfg name = some part →
      P part → P name) : P name := by
  induction rank : dependencyRank name using Nat.strongRecOn generalizing name with
  | ind k ih =>
    cases new : isPartitionUpdated list name with
    | true => exact listed name new
    | false =>
      cases dependency : getDependency cfg name with
      | none => exact last name new dependency
      | some part =>
        have lower := dependencyRank_lt dependency
        exact next name part new dependency (ih _ (rank ▸ lower) part rfl)

theorem listed_turn_self (name : List UInt8) : isPartitionUpdated (turn cfg list name) name = true := by
  cases new : isPartitionUpdated list name with
  | true => rw [turn_listed new, new]
  | false =>
    cases dependency : getDependency cfg name with
    | none =>
      rw [turn_none new dependency]
      exact (isPartitionUpdated_cons ..).mpr (Or.inl rfl)
    | some part =>
      rw [turn_some new dependency]
      exact (isPartitionUpdated_cons ..).mpr (Or.inl rfl)

theorem listed_turn_rank (name other : List UInt8) (after : isPartitionUpdated (turn cfg list name) other = true) :
    isPartitionUpdated list other = true ∨ dependencyRank other ≤ dependencyRank name := by
  induction name using turn_induction cfg list with
  | listed name listed =>
    rw [turn_listed listed] at after
    exact Or.inl after
  | last name new dependency =>
    rw [turn_none new dependency] at after
    obtain same | before := (isPartitionUpdated_cons ..).mp after
    · exact Or.inr (Nat.le_of_eq (dependencyRank_congr same).symm)
    · exact Or.inl before
  | next name part new dependency ih =>
    rw [turn_some new dependency] at after
    obtain same | before := (isPartitionUpdated_cons ..).mp after
    · exact Or.inr (Nat.le_of_eq (dependencyRank_congr same).symm)
    · obtain earlier | lower := ih before
      · exact Or.inl earlier
      · exact Or.inr (lower.trans (dependencyRank_lt dependency).le)

theorem not_listed_of_dependency (new : isPartitionUpdated list name = false)
    (dependency : getDependency cfg name = some part) : isPartitionUpdated (turn cfg list part) name = false := by
  apply Bool.eq_false_of_not_eq_true
  intro after
  obtain before | lower := listed_turn_rank part name after
  · rw [new] at before
    cases before
  · exact absurd lower (Nat.not_le.mpr (dependencyRank_lt dependency))

theorem listed_turn_of_listed {other : List UInt8} (name : List UInt8) (before : isPartitionUpdated list other = true) :
    isPartitionUpdated (turn cfg list name) other = true := by
  induction name using turn_induction cfg list with
  | listed name listed =>
    rw [turn_listed listed]
    exact before
  | last name new dependency =>
    rw [turn_none new dependency]
    exact (isPartitionUpdated_cons ..).mpr (Or.inr before)
  | next name part new dependency ih =>
    rw [turn_some new dependency]
    exact (isPartitionUpdated_cons ..).mpr (Or.inr ih)

def turns (cfg : Config) (names : List (List UInt8)) : List (List UInt8) := names.foldl (turn cfg) []

theorem listed_foldl_of_listed (names : List (List UInt8))
    (before : isPartitionUpdated list name = true) : isPartitionUpdated (names.foldl (turn cfg) list) name = true := by
  induction names generalizing list with
  | nil => exact before
  | cons next names ih => exact ih (listed_turn_of_listed next before)

variable {names : List (List UInt8)}

theorem listed_foldl (member : name ∈ names) :
    isPartitionUpdated (names.foldl (turn cfg) list) name = true := by
  induction names generalizing list with
  | nil => simp at member
  | cons first names ih =>
    rw [List.foldl_cons]
    obtain rfl | later := List.mem_cons.mp member
    · exact listed_foldl_of_listed names (listed_turn_self name)
    · exact ih later

theorem listed_turns (member : name ∈ names) :
    isPartitionUpdated (turns cfg names) name = true := listed_foldl member

variable {P : Platform σ} {m : Mem} {bh : BlobInfo} {numEntries : UInt32} {I : State σ → Prop}
  {E : Error → State σ → Prop}

def TurnKeeps (cfg : Config) (P : Platform σ) (m : Mem) (bh : BlobInfo) (numEntries : UInt32)
    (I : State σ → Prop) (E : Error → State σ → Prop) : Prop :=
  ∀ name s, I s → isPartitionUpdated s.static.list name = false →
    (∀ part, getDependency cfg name = some part → isPartitionUpdated s.static.list part = true) →
    Ends (updateAndRecord cfg P m bh name numEntries) s
      (fun _ t => I t ∧ t.static.list = name :: s.static.list) E

theorem alreadyUpdated_run (name : List UInt8) (s : State σ) :
    (alreadyUpdated name).run s = (.ok (isPartitionUpdated s.static.list name), s) := rfl

variable {s : State σ}

theorem updatePartitionRecursive_listed
    (listed : isPartitionUpdated s.static.list name = true) :
    (updatePartitionRecursive cfg P m bh name numEntries).run s = (.ok (), s) := by
  rw [updatePartitionRecursive, run_bind_ok (alreadyUpdated_run name s), if_pos listed]
  rfl

theorem updatePartitionRecursive_none
    (new : isPartitionUpdated s.static.list name = false) (dependency : getDependency cfg name = none) :
    (updatePartitionRecursive cfg P m bh name numEntries).run s =
      (updateAndRecord cfg P m bh name numEntries).run s := by
  rw [updatePartitionRecursive, run_bind_ok (alreadyUpdated_run name s), new, if_neg Bool.false_ne_true]
  split
  · rfl
  · rename_i part found
    rw [dependency] at found
    cases found

theorem updatePartitionRecursive_some
    (new : isPartitionUpdated s.static.list name = false) (dependency : getDependency cfg name = some part) :
    (updatePartitionRecursive cfg P m bh name numEntries).run s =
      (updatePartitionRecursive cfg P m bh part numEntries >>= fun _ =>
        updateAndRecord cfg P m bh name numEntries).run s := by
  rw [updatePartitionRecursive, run_bind_ok (alreadyUpdated_run name s), new, if_neg Bool.false_ne_true]
  split
  · rename_i found
    rw [dependency] at found
    cases found
  · rename_i part' found
    rw [dependency] at found
    cases found
    rfl

theorem updatePartitionRecursive_ends (keeps : TurnKeeps cfg P m bh numEntries I E) (name : List UInt8) (here : I s) : Ends (updatePartitionRecursive cfg P m bh name numEntries) s
      (fun _ t => I t ∧ t.static.list = turn cfg s.static.list name) E := by
  induction name using turn_induction cfg s.static.list with
  | listed name listed =>
    exact ends_of_ok (updatePartitionRecursive_listed listed) ⟨here, (turn_listed listed).symm⟩
  | last name new dependency =>
    unfold Ends
    rw [updatePartitionRecursive_none new dependency, turn_none new dependency]
    apply keeps name s here new
    intro part found
    rw [dependency] at found
    cases found
  | next name part new dependency ih =>
    unfold Ends
    rw [updatePartitionRecursive_some new dependency, turn_some new dependency]
    apply ends_bind ih
    intro _ t after
    obtain ⟨there, list⟩ := after
    rw [← list]
    apply keeps name t there
    · rw [list]
      exact not_listed_of_dependency new dependency
    · intro part' found
      rw [dependency] at found
      cases found
      rw [list]
      exact listed_turn_self part

def entryNames (m : Mem) (bh : BlobInfo) (n : Nat) : List (List UInt8) :=
  (List.range n).map fun i => (entryOf m bh i).partname

theorem updateEntries_ends (blob : UpdateBlob m bh) (keeps : TurnKeeps cfg P m bh numEntries I E) (fuel : Nat)
    (i : UInt8) (here : I s) (inside : numEntries.toNat ≤ 255 → i.toNat ≤ numEntries.toNat)
    (list : numEntries.toNat ≤ 255 → s.static.list = turns cfg (entryNames m bh i.toNat)) :
    Ends (updateEntries cfg P m bh numEntries fuel i none) s
      (fun done t => I t ∧ (numEntries.toNat ≤ 255 → numEntries.toNat - i.toNat < fuel → done = true) ∧
        (done = true → numEntries.toNat ≤ 255 ∧ t.static.list = turns cfg (entryNames m bh numEntries.toNat))) E := by
  induction fuel generalizing i s with
  | zero =>
    apply ends_pure
    refine ⟨here, ?_, ?_⟩
    · intro _ enough
      omega
    · intro done
      cases done
  | succ fuel ih =>
    have wide : i.toUInt32.toNat = i.toNat := UInt8.toNat_toUInt32 i
    have bound := i.toNat_lt
    unfold updateEntries
    by_cases more : i.toUInt32 < numEntries
    · have before : i.toNat < numEntries.toNat := by
        rw [← wide]
        exact UInt32.lt_iff_toNat_lt.mp more
      have entry := getEntry_update blob (i := i.toNat) (by omega)
      have index : i.toNat.toUInt32 = i.toUInt32 := by
        apply UInt32.toNat_inj.mp
        rw [wide, toUInt32_toNat_of_lt (by omega)]
      rw [index] at entry
      simp only [more, if_true, entry]
      apply ends_bind (updatePartitionRecursive_ends keeps _ here)
      intro _ t after
      obtain ⟨there, listAfter⟩ := after
      have counted : numEntries.toNat ≤ 255 → (i + 1).toNat = i.toNat + 1 := by
        intro small
        rw [UInt8.toNat_add]
        exact Nat.mod_eq_of_lt (by change i.toNat + 1 < 256; omega)
      apply Ends.mono (ih (i + 1) there ?_ ?_)
      · intro done u holds
        obtain ⟨at_end, ends, all⟩ := holds
        refine ⟨at_end, ?_, all⟩
        intro small enough
        apply ends small
        rw [counted small]
        omega
      · intro e u failed
        exact failed
      · intro small
        rw [counted small]
        exact before
      · intro small
        rw [counted small, listAfter, list small, turns, turns, entryNames, entryNames, List.range_succ,
          List.map_append, List.foldl_append]
        rfl
    · have reached : numEntries.toNat ≤ i.toNat := by
        rw [← wide]
        exact Nat.not_lt.mp fun before => more (UInt32.lt_iff_toNat_lt.mpr before)
      simp only [more, if_false]
      apply ends_pure
      refine ⟨here, fun _ _ => rfl, ?_⟩
      intro _
      have small : numEntries.toNat ≤ 255 := by omega
      refine ⟨small, ?_⟩
      rw [list small, Nat.le_antisymm reached (inside small)]

end

end Cboot.BlUpdate
