import Cboot.PartitionManager.Published
import Cboot.Smd.BootControl

/-!
`tegrabl_partition_boot_guid_lookup_bdev` of `lib/partition_manager/tegrabl_partition_manager.c`.
-/

namespace Cboot.PartitionManager
open Blockdev

def guidStrLen : Nat := 36

/-- Strings end at a NUL or with the list. `tolower` comes from outside. -/
def strncasecmp (tolower : UInt8 → Int) : Nat → List UInt8 → List UInt8 → Int
  | 0, _, _ => 0
  | n + 1, s1, s2 =>
    let c1 := s1.headD 0
    let result := tolower c1 - tolower (s2.headD 0)
    if result ≠ 0 then result
    else if c1 = 0 then result
    else strncasecmp tolower n s1.tail s2.tail

/-- `tegrabl_a_b_get_current_rootfs_id` with the meta data that `tegrabl_a_b_get_smd` finds. Without `CONFIG_ENABLE_A_B_SLOT`
nobody asks, which is the same as an error. -/
def currentRootfsId (smd : Option Smd.SlotMetaDataV2) (beyond : Nat → UInt8) : Option UInt8 :=
  smd.bind fun smd => (Smd.tegrablABGetCurrentRootfsId smd beyond).toOption

section
variable {D : Type} [DecidableEq D]

/-- What is asked on the way, and what lies where the device of the list head would be. -/
structure BootEnv where
  tolower : UInt8 → Int
  behindHead : Option Bdev
  emptyNull : Bool
  smd : Option Smd.SlotMetaDataV2
  beyond : Nat → UInt8

variable (env : BootEnv)

def BootEnv.matches (guid : List UInt8) (info : PartitionInfo) : Bool :=
  strncasecmp env.tolower guidStrLen info.ptypeGuid guid == 0

/-- The loop over the list: the partition it is left with, or what `partition_info` is at its end. -/
def bootScan (guid : List UInt8) (bdev : D) : Option (StorageInfo D) → List (StorageInfo D) →
    Except (Option (StorageInfo D)) (StorageInfo D × PartitionInfo)
  | table, [] => .error table
  | table, entry :: rest =>
    if entry.bdev ≠ bdev then bootScan guid bdev table rest
    else
      match entry.partitions.find? (env.matches guid) with
      | some info => .ok (entry, info)
      | none => bootScan guid bdev (if env.emptyNull && entry.partitions.isEmpty then none else some entry) rest

def tegrablPartitionBootGuidLookupBdev (record : D → Bdev) (r : Registry D) (ptTypeGuid : List UInt8)
    (partition : Option Partition) (bdev : Option D) : Option (Except Error Unit × Option Partition) :=
  match partition, bdev with
  | some partition, some bdev =>
    r.storageList.map fun list =>
      match bootScan env ptTypeGuid bdev none list with
      | .ok (entry, info) => (.ok (), some ⟨some info, some (record entry.bdev), 0⟩)
      | .error none => (.error (.own .notFound 24), some ⟨none, none, 0⟩)
      | .error (some table) =>
        match currentRootfsId env.smd env.beyond with
        | some id =>
          if id = Smd.rootfsA then
            tegrablPartitionLookupBdev record r (some [65, 80, 80]) (some partition) (some bdev)
          else if id = Smd.rootfsB then
            tegrablPartitionLookupBdev record r (some [65, 80, 80, 95, 98]) (some partition) (some bdev)
          else (.error (.own .invalid 0), some partition)
        -- The index is 0, and the cursor is the head of the list.
        | none => (.ok (), some ⟨table.partitions[0]?, env.behindHead, 0⟩)
  | _, _ => some (.error (.own .invalid 21), partition)

def ownPartitions (list : List (StorageInfo D)) (bdev : D) : List PartitionInfo :=
  (list.filter (·.bdev = bdev)).flatMap (·.partitions)

def rootfsName (id : UInt8) : Option (List UInt8) :=
  if id = Smd.rootfsA then some [65, 80, 80] else if id = Smd.rootfsB then some [65, 80, 80, 95, 98] else none

def Designated (list : List (StorageInfo D)) (guid : List UInt8) (bdev : D) (info : PartitionInfo) : Prop :=
  match (ownPartitions list bdev).find? (env.matches guid) with
  | some first => info = first
  | none =>
    match currentRootfsId env.smd env.beyond with
    | some id => ∃ name, rootfsName id = some name ∧ (ownPartitions list bdev).find? (fun i => sameText i.name name) = some info
    | none => ∃ entry ∈ list, entry.bdev = bdev ∧ entry.partitions.head? = some info

def StaysOn (record : D → Bdev) (list : List (StorageInfo D)) (guid : List UInt8) (bdev : D)
    (answer : Option (Except Error Unit × Option Partition)) : Prop :=
  ∃ result partition, answer = some (result, partition) ∧
    (result = .ok () → ∃ info, partition = some ⟨some info, some (record bdev), 0⟩ ∧ info ∈ ownPartitions list bdev ∧
      Designated env list guid bdev info) ∧ (ownPartitions list bdev = [] → result ≠ .ok ())

def lastTable (list : List (StorageInfo D)) (bdev : D) : Option (StorageInfo D) :=
  ((list.filter (·.bdev = bdev)).getLast?).filter fun entry => !(env.emptyNull && entry.partitions.isEmpty)

def Decided (record : D → Bdev) (list : List (StorageInfo D)) (guid : List UInt8) (bdev : D) : Prop :=
  (∃ info ∈ ownPartitions list bdev, env.matches guid info) ∨ lastTable env list bdev = none ∨
    currentRootfsId env.smd env.beyond ≠ none ∨
    env.behindHead = some (record bdev) ∧ ∀ table ∈ lastTable env list bdev, table.partitions ≠ []

variable {env} {record : D → Bdev} {r : Registry D} {list : List (StorageInfo D)} {guid name : List UInt8} {bdev : D}
variable {info : PartitionInfo} {entry : StorageInfo D} {table : Option (StorageInfo D)}

theorem ownPartitions_cons (entry : StorageInfo D) (list : List (StorageInfo D)) (bdev : D) :
    ownPartitions (entry :: list) bdev =
      if entry.bdev = bdev then entry.partitions ++ ownPartitions list bdev else ownPartitions list bdev := by
  unfold ownPartitions
  split
  · rename_i same
    rw [List.filter_cons_of_pos (by simpa using same), List.flatMap_cons]
  · rename_i other
    rw [List.filter_cons_of_neg (by simpa using other)]

theorem mem_ownPartitions : info ∈ ownPartitions list bdev ↔ ∃ entry ∈ list, entry.bdev = bdev ∧ info ∈ entry.partitions := by
  simp [ownPartitions, and_assoc]

theorem bootScan_found (first : (ownPartitions list bdev).find? (env.matches guid) = some info) :
    ∃ entry, entry.bdev = bdev ∧ bootScan env guid bdev table list = .ok (entry, info) := by
  induction list generalizing table with
  | nil => cases first
  | cons entry rest ih =>
    rw [ownPartitions_cons] at first
    rw [bootScan]
    split at first
    · rename_i same
      rw [if_neg (not_not_intro same)]
      rw [List.find?_append] at first
      cases here : entry.partitions.find? (env.matches guid) with
      | none =>
        rw [here, Option.none_or] at first
        exact ih first
      | some other =>
        rw [here, Option.some_or] at first
        obtain rfl := Option.some.inj first
        exact ⟨entry, same, rfl⟩
    · rename_i other
      rw [if_pos other]
      exact ih first

theorem bootScan_missing (none_matches : (ownPartitions list bdev).find? (env.matches guid) = none) :
    bootScan env guid bdev table list =
      .error (if list.filter (·.bdev = bdev) = [] then table else lastTable env list bdev) := by
  induction list generalizing table with
  | nil => rfl
  | cons entry rest ih =>
    rw [ownPartitions_cons] at none_matches
    rw [bootScan]
    split at none_matches
    · rename_i same
      rw [List.find?_append, Option.or_eq_none_iff] at none_matches
      rw [if_neg (not_not_intro same), none_matches.1]
      dsimp only
      rw [ih none_matches.2, lastTable, lastTable, List.filter_cons_of_pos (by simpa using same), if_neg (List.cons_ne_nil _ _)]
      congr 1
      cases more : rest.filter (·.bdev = bdev) with
      | nil =>
        simp only [if_pos, List.getLast?_singleton, Option.filter]
        by_cases null : (env.emptyNull && entry.partitions.isEmpty) = true
        · rw [if_pos null, if_neg (by rw [null]; decide)]
        · rw [if_neg null, if_pos (by rw [Bool.eq_false_iff.mpr null]; rfl)]
      | cons other others => rw [if_neg (List.cons_ne_nil _ _), List.getLast?_cons_cons]
    · rename_i other
      rw [if_pos other, ih none_matches, lastTable, lastTable, List.filter_cons_of_neg (by simpa using other)]

theorem find_own (fits : PartitionInfo → Bool) (list : List (StorageInfo D)) (bdev : D) :
    (findPartition (fun entry info => entry.bdev = bdev && fits info) list).map Prod.snd =
      (ownPartitions list bdev).find? fits := by
  induction list with
  | nil => rfl
  | cons entry rest ih =>
    rw [findPartition, List.findSome?_cons, ownPartitions_cons]
    by_cases same : entry.bdev = bdev
    · simp only [same, decide_true, Bool.true_and, if_true, List.find?_append]
      cases here : entry.partitions.find? fits with
      | none => exact ih
      | some info => simp
    · have nothing : entry.partitions.find? (fun info => decide (entry.bdev = bdev) && fits info) = none := by
        simp [same]
      rw [nothing, if_neg same]
      exact ih

theorem lookup_own (listed : r.storageList = some list) (p : Partition) :
    tegrablPartitionLookupBdev record r (some name) (some p) (some bdev) =
      match (ownPartitions list bdev).find? (fun i => sameText i.name name) with
      | some info => (.ok (), some ⟨some info, some (record bdev), 0⟩)
      | none => (.error (.own .notFound 22), some ⟨none, none, 0⟩) := by
  simp only [tegrablPartitionLookupBdev, listed]
  rw [← find_own]
  cases found : findPartition (fun entry info => entry.bdev = bdev && sameText info.name name) list with
  | none => rfl
  | some pair =>
    obtain ⟨entry, info⟩ := pair
    obtain ⟨-, -, fits⟩ := findPartition_some found
    simp only [Bool.and_eq_true, decide_eq_true_eq] at fits
    simp only [fillPartition, Option.map_some, fits.1]

theorem rootfs_lookup (listed : r.storageList = some list) (p : Partition) (id : UInt8) (name : List UInt8)
    (named : rootfsName id = some name) (rootfs : currentRootfsId env.smd env.beyond = some id)
    (none_matches : (ownPartitions list bdev).find? (env.matches guid) = none) : StaysOn env record list guid bdev
      (some (tegrablPartitionLookupBdev record r (some name) (some p) (some bdev))) := by
  rw [lookup_own listed]
  cases found : (ownPartitions list bdev).find? (fun i => sameText i.name name) with
  | none => exact ⟨_, _, rfl, nofun, fun _ => nofun⟩
  | some info =>
    have member := List.mem_of_find?_eq_some found
    refine ⟨_, _, rfl, fun _ => ⟨info, rfl, member, ?_⟩, fun empty => absurd (empty ▸ member) List.not_mem_nil⟩
    rw [Designated, none_matches, rootfs]
    exact ⟨name, named, found⟩

theorem staysOn_iff (listed : r.storageList = some list) (p : Partition) :
    StaysOn env record list guid bdev (tegrablPartitionBootGuidLookupBdev env record r guid (some p) (some bdev)) ↔
      Decided env record list guid bdev := by
  simp only [tegrablPartitionBootGuidLookupBdev, listed, Option.map_some]
  cases matched : (ownPartitions list bdev).find? (env.matches guid) with
  | some info =>
    obtain ⟨entry, same, scan⟩ := @bootScan_found D _ env list guid bdev info none matched
    have member := List.mem_of_find?_eq_some matched
    rw [scan]
    refine ⟨fun _ => .inl ⟨info, member, List.find?_some matched⟩, fun _ => ⟨_, _, rfl, fun _ => ?_, ?_⟩⟩
    · refine ⟨info, by rw [same], member, ?_⟩
      rw [Designated, matched]
    · exact fun empty => absurd (empty ▸ member) List.not_mem_nil
  | none =>
    have unmatched : ¬ ∃ info ∈ ownPartitions list bdev, env.matches guid info := by
      rintro ⟨info, member, fits⟩
      exact List.find?_eq_none.mp matched info member fits
    have scan := @bootScan_missing D _ env list guid bdev none matched
    have last : (if list.filter (·.bdev = bdev) = [] then none else lastTable env list bdev) = lastTable env list bdev := by
      split
      · rename_i none_own
        rw [lastTable, none_own]
        rfl
      · rfl
    rw [last] at scan
    rw [scan, Decided]
    cases at_end : lastTable env list bdev with
    | none => exact ⟨fun _ => .inr (.inl rfl), fun _ => ⟨_, _, rfl, nofun, fun _ => nofun⟩⟩
    | some table =>
      cases rootfs : currentRootfsId env.smd env.beyond with
      | some id =>
        dsimp only
        refine ⟨fun _ => .inr (.inr (.inl nofun)), fun _ => ?_⟩
        by_cases first : id = Smd.rootfsA
        · rw [if_pos first]
          exact rootfs_lookup listed p id _ (if_pos first) rootfs matched
        · rw [if_neg first]
          by_cases second : id = Smd.rootfsB
          · rw [if_pos second]
            exact rootfs_lookup listed p id _ ((if_neg first).trans (if_pos second)) rootfs matched
          · rw [if_neg second]
            exact ⟨_, _, rfl, nofun, fun _ => nofun⟩
      | none =>
        dsimp only
        have member : table ∈ list ∧ table.bdev = bdev := by
          obtain ⟨own, -⟩ := Option.filter_eq_some_iff.mp at_end
          simpa using List.mem_of_getLast? own
        constructor
        · rintro ⟨result, partition, answer, ok, -⟩
          obtain ⟨rfl, rfl⟩ := Prod.mk.inj (Option.some.inj answer)
          obtain ⟨info, same, -, -⟩ := ok rfl
          simp only [Option.some.injEq, Partition.mk.injEq] at same
          refine .inr (.inr (.inr ⟨same.2.1, fun other found => ?_⟩))
          obtain rfl := Option.some.inj found
          intro empty
          rw [empty] at same
          cases same.1
        · rintro (matches_ | absent | enabled | ⟨lucky, some_partitions⟩)
          · exact absurd matches_ unmatched
          · cases absent
          · exact absurd rfl enabled
          · cases first : table.partitions with
            | nil => exact absurd first (some_partitions table rfl)
            | cons info rest =>
              have own : info ∈ ownPartitions list bdev :=
                mem_ownPartitions.mpr ⟨table, member.1, member.2, by rw [first]; exact List.mem_cons_self⟩
              refine ⟨_, _, rfl, fun _ => ⟨info, by rw [lucky]; rfl, own, ?_⟩,
                fun empty => absurd (empty ▸ own) List.not_mem_nil⟩
              rw [Designated, matched, rootfs]
              exact ⟨table, member.1, member.2, by rw [first]; rfl⟩

/-- The lookup stays on the device exactly where there is a list and something decides. -/
theorem bootGuidLookup_iff (env : BootEnv) (record : D → Bdev) (r : Registry D) (guid : List UInt8) (p : Partition) (bdev : D) :
    StaysOn env record (r.storageList.getD []) guid bdev
        (tegrablPartitionBootGuidLookupBdev env record r guid (some p) (some bdev)) ↔
      r.storageList ≠ none ∧ Decided env record (r.storageList.getD []) guid bdev := by
  cases listed : r.storageList with
  | none =>
    constructor
    · rintro ⟨result, partition, answer, -⟩
      rw [tegrablPartitionBootGuidLookupBdev, listed] at answer
      cases answer
    · exact fun both => absurd rfl both.1
  | some list =>
    rw [Option.getD_some, staysOn_iff listed]
    exact ⟨fun decided => ⟨nofun, decided⟩, And.right⟩

end

def plainEnv : BootEnv := ⟨fun c => c.toNat, none, true, none, fun _ => 0⟩

def otherType : PartitionInfo := ⟨[65], [49], [49], 34, 8, 4096⟩

/-- Its partition is found, on no device. -/
theorem bootGuidLookup_adrift :
    tegrablPartitionBootGuidLookupBdev plainEnv (fun _ : Unit => ⟨0, 0, 0, 9, 64, 8⟩) ⟨some [⟨(), [otherType]⟩], fun _ => true⟩
        [50] (some ⟨none, none, 0⟩) (some ()) = some (.ok (), some ⟨some otherType, none, 0⟩) ∧
    ¬ StaysOn plainEnv (fun _ : Unit => ⟨0, 0, 0, 9, 64, 8⟩) [⟨(), [otherType]⟩] [50] ()
      (tegrablPartitionBootGuidLookupBdev plainEnv (fun _ : Unit => ⟨0, 0, 0, 9, 64, 8⟩)
        ⟨some [⟨(), [otherType]⟩], fun _ => true⟩ [50] (some ⟨none, none, 0⟩) (some ())) := by
  have answer : tegrablPartitionBootGuidLookupBdev plainEnv (fun _ : Unit => ⟨0, 0, 0, 9, 64, 8⟩)
      ⟨some [⟨(), [otherType]⟩], fun _ => true⟩ [50] (some ⟨none, none, 0⟩) (some ()) =
      some (.ok (), some ⟨some otherType, none, 0⟩) := by decide
  refine ⟨answer, fun stays => ?_⟩
  rw [answer] at stays
  obtain ⟨result, partition, same, found, -⟩ := stays
  obtain ⟨rfl, rfl⟩ := Prod.mk.inj (Option.some.inj same)
  obtain ⟨info, here, -⟩ := found rfl
  cases here

end Cboot.PartitionManager
