import Cboot.Linuxboot.Devices
import Mathlib.Data.List.Pairwise

/-!
`lib/cbo/tegrabl_cbo.c` keeps the boot order twice: as the names of the devices, up to a null pointer, and as
their numbers, up to `BOOT_DEFAULT`, which is also what stands for a name that is not known.
-/

namespace Cboot.Cbo
open Linuxboot

def bootDefault : UInt8 := 0

def bootFrom : DeviceId → UInt8
  | .network => 1
  | .sd => 2
  | .usb => 3
  | .builtinStorage => 4
  | .nvme => 5

/-- `p_boot_dev_order` and `g_cbo_info.boot_priority`. -/
structure CboInfo where
  bootDevOrder : Option (List (Option Text))
  bootPriority : Option (List UInt8)
  deriving DecidableEq, Repr

def store {α : Type} (mem : List α) (i : Nat) (v : α) : Option (List α) :=
  if i < mem.length then some (mem.set i v) else none

def tegrablClearBootOrder (s : CboInfo) : CboInfo where
  bootDevOrder := s.bootDevOrder.map fun names => names.set 0 none
  bootPriority := none

def deviceIdOf (name : Text) : Option UInt8 := (tegrablCboMapBootDev name).map fun found => bootFrom found.1

/-- The loop of `map_boot_priority`, with `n` strings to come. A string that is not there is read by `strncmp`. -/
def mapNames (bootOrder : Nat → Option Text) : Nat → Nat → List UInt8 → Option (List UInt8)
  | 0, i, bootP => store bootP i bootDefault
  | n + 1, i, bootP =>
    match bootOrder i with
    | none => none
    | some name =>
      match deviceIdOf name with
      | none => mapNames bootOrder n (i + 1) bootP
      | some id => (store bootP i id).bind (mapNames bootOrder n (i + 1))

/-- `TEGRABL_ERR_NO_MEMORY` and the place it comes from. -/
inductive Error where
  | noMemory (info : Nat)
  deriving DecidableEq

/-- Where there is memory, `tegrabl_calloc` refuses nothing but a size of zero. -/
def tegrablCalloc {α : Type} (zero : α) (size : UInt32) : Option (List α) :=
  if size = 0 then none else some (List.replicate size.toNat zero)

def mapBootPriority (count : UInt32) (bootOrder : Nat → Option Text) : Option (Except Error (List UInt8)) :=
  match tegrablCalloc 0 (count + 1) with
  | none => some (.error (.noMemory 1))
  | some bootP => (mapNames bootOrder count.toNat 0 bootP).map .ok

/-- The loop of `tegrabl_set_boot_order`, and whether it comes to its end. -/
def saveNames (bootOrder : Nat → Option Text) : Nat → Nat → List (Option Text) → Option (List (Option Text) × Bool)
  | 0, i, names => (store names i none).map fun names => (names, true)
  | n + 1, i, names =>
    match bootOrder i with
    | none => some (names, false)
    | some src => (store names i (some src)).bind (saveNames bootOrder n (i + 1))

/-- `tegrabl_set_boot_order`, where there is memory: its error and what it leaves. Nothing where it stores past
what it allocated. -/
def tegrablSetBootOrder (count : UInt32) (bootOrder : Nat → Option Text) (s : CboInfo) :
    Option (Option Error × CboInfo) :=
  let s := tegrablClearBootOrder s
  match tegrablCalloc none (count + 1) with
  | none => some (some (.noMemory 2), { s with bootDevOrder := none })
  | some order => do
    let saved ← saveNames bootOrder count.toNat 0 order
    let s := { s with bootDevOrder := some saved.1 }
    if saved.2 then
      match ← mapBootPriority count bootOrder with
      | .error e => return (some e, s)
      | .ok bootP => return (none, { s with bootPriority := some bootP })
    else return (none, s)

/-- `tegrabl_get_boot_order`, as far as it is read. -/
def CboInfo.priorities (s : CboInfo) : List UInt8 := (s.bootPriority.getD []).takeWhile (· ≠ bootDefault)

/-- `tegrabl_get_boot_dev_order`, as far as it is read. -/
def CboInfo.names (s : CboInfo) : List Text := ((s.bootDevOrder.getD []).takeWhile (·.isSome)).filterMap id

section
variable {α : Type}

def filled (f : Nat → α) (d : α) (i n : Nat) : List α := (List.range i).map f ++ List.replicate (n + 1) d

theorem store_filled (f : Nat → α) (d : α) (i n : Nat) :
    store (filled f d i (n + 1)) i (f i) = some (filled f d (i + 1) n) := by
  have bound : i < (filled f d i (n + 1)).length := by simp [filled]
  unfold store
  rw [if_pos bound]
  simp [filled, List.replicate_succ, List.range_succ]

theorem store_last (f : Nat → α) (d : α) (i : Nat) : store (filled f d i 0) i d = some (filled f d i 0) := by
  have bound : i < (filled f d i 0).length := by simp [filled]
  unfold store
  rw [if_pos bound]
  simp [filled]

theorem filled_zero (f : Nat → α) (d : α) (n : Nat) : filled f d 0 n = List.replicate (n + 1) d := by
  simp [filled]

theorem filled_skip (f : Nat → α) (d : α) (i n : Nat) (same : f i = d) :
    filled f d i (n + 1) = filled f d (i + 1) n := by
  simp [filled, List.replicate_succ, List.range_succ, same]

end

section
variable (names : Nat → Text)

def priorityOf (i : Nat) : UInt8 := (deviceIdOf (names i)).getD 0

theorem mapNames_filled (n i : Nat) : mapNames (fun i => some (names i)) n i (filled (priorityOf names) 0 i n) =
      some (filled (priorityOf names) 0 (i + n) 0) := by
  induction n generalizing i with
  | zero => exact store_last _ _ _
  | succ n ih =>
    have next := ih (i + 1)
    rw [Nat.add_assoc, Nat.add_comm 1] at next
    unfold mapNames
    dsimp only
    cases found : deviceIdOf (names i) with
    | none =>
      have unknown : priorityOf names i = 0 := by rw [priorityOf, found, Option.getD_none]
      rw [filled_skip _ _ _ _ unknown]
      exact next
    | some id =>
      have known : priorityOf names i = id := by rw [priorityOf, found, Option.getD_some]
      dsimp only
      rw [← known, store_filled]
      exact next

theorem saveNames_filled (n i : Nat) :
    saveNames (fun i => some (names i)) n i (filled (fun i => some (names i)) none i n) =
      some (filled (fun i => some (names i)) none (i + n) 0, true) := by
  induction n generalizing i with
  | zero =>
    unfold saveNames
    rw [store_last]
    rfl
  | succ n ih =>
    have next := ih (i + 1)
    rw [Nat.add_assoc, Nat.add_comm 1] at next
    unfold saveNames
    dsimp only
    rw [store_filled (fun i => some (names i))]
    exact next

def given (count : UInt32) : List Text := (List.range count.toNat).map names

theorem setBootOrder_eq {count : UInt32} (s : CboInfo) (fits : count + 1 ≠ 0) :
    tegrablSetBootOrder count (fun i => some (names i)) s = some (none, ⟨some ((given names count).map some ++ [none]),
        some ((given names count).map (fun name => (deviceIdOf name).getD 0) ++ [0])⟩) := by
  have length : (count + 1).toNat = count.toNat + 1 := by
    have bound := count.toNat_lt
    have short : (count + 1).toNat ≠ 0 := fun none => fits (UInt32.toNat_inj.mp none)
    rw [UInt32.toNat_add, UInt32.toNat_one] at short ⊢
    omega
  have saved := saveNames_filled names count.toNat 0
  have mapped := mapNames_filled names count.toNat 0
  rw [filled_zero, Nat.zero_add] at saved mapped
  unfold tegrablSetBootOrder mapBootPriority tegrablCalloc
  simp only [if_neg fits, length, saved, mapped]
  simp [filled, given, priorityOf, Function.comp_def]

theorem setBootOrder_refused {count : UInt32} (s : CboInfo) (wraps : count + 1 = 0) :
    tegrablSetBootOrder count (fun i => some (names i)) s = some (some (.noMemory 2), ⟨none, none⟩) := by
  unfold tegrablSetBootOrder tegrablCalloc
  rw [if_pos wraps]
  rfl

end

theorem deviceIdOf_pos {name : Text} {id : UInt8} (known : deviceIdOf name = some id) : id ≠ bootDefault := by
  obtain ⟨found, -, rfl⟩ := Option.map_eq_some_iff.mp known
  cases found.1 <;> decide

theorem takeWhile_known (names : List Text) :
    (names.map (fun name => (deviceIdOf name).getD 0) ++ [0]).takeWhile (· ≠ bootDefault) = names.filterMap deviceIdOf ↔
      names.Pairwise fun before after => (deviceIdOf after).isSome → (deviceIdOf before).isSome := by
  induction names with
  | nil => simp [bootDefault]
  | cons name names ih =>
    rw [List.pairwise_cons]
    cases found : deviceIdOf name with
    | none =>
      have ends : ((name :: names).map (fun name => (deviceIdOf name).getD 0) ++ [0]).takeWhile
          (· ≠ bootDefault) = [] := by simp [found, bootDefault]
      rw [ends, List.filterMap_cons_none found, eq_comm, List.filterMap_eq_nil_iff]
      constructor
      · intro unknown
        refine ⟨fun after member known => ?_, List.pairwise_of_forall_mem_list fun before _ after member known => ?_⟩
        · simp [unknown after member] at known
        · simp [unknown after member] at known
      · rintro ⟨last, -⟩ after member
        by_contra known
        exact absurd (last after member (Option.ne_none_iff_isSome.mp known)) (by simp)
    | some id =>
      have pos : id ≠ bootDefault := deviceIdOf_pos found
      rw [List.filterMap_cons_some found, ← ih]
      simp [found, pos]

theorem names_given (names : List Text) (priorities : Option (List UInt8)) :
    CboInfo.names ⟨some (names.map some ++ [none]), priorities⟩ = names := by
  unfold CboInfo.names
  simp

def KnownFirst (names : Nat → Text) (count : UInt32) : Prop :=
  ∀ i j, i < j → j < count.toNat → (deviceIdOf (names j)).isSome → (deviceIdOf (names i)).isSome

theorem knownFirst_iff {names : Nat → Text} {count : UInt32} : KnownFirst names count ↔
    (given names count).Pairwise fun before after => (deviceIdOf after).isSome → (deviceIdOf before).isSome := by
  unfold KnownFirst given
  rw [List.pairwise_map, List.pairwise_iff_getElem]
  simp only [List.length_range, List.getElem_range]
  constructor
  · intro first i j _ inside before
    exact first i j before inside
  · intro first i j before inside
    exact first i j (Nat.lt_trans before inside) inside before

/-- The two lists agree as long as no known name comes after an unknown one, or where none is allocated. -/
theorem boot_order_agrees (names : Nat → Text) (count : UInt32) (s : CboInfo) :
    (∃ e t, tegrablSetBootOrder count (fun i => some (names i)) s = some (e, t) ∧ (e = none ↔ count + 1 ≠ 0) ∧
        t.priorities = t.names.filterMap deviceIdOf) ↔ count + 1 = 0 ∨ KnownFirst names count := by
  by_cases wraps : count + 1 = 0
  · simp [setBootOrder_refused names s wraps, wraps, CboInfo.priorities, CboInfo.names]
  · have agree := takeWhile_known (given names count)
    rw [← knownFirst_iff] at agree
    rw [setBootOrder_eq names s wraps, or_iff_right wraps, ← agree]
    constructor
    · rintro ⟨e, t, set, -, same⟩
      obtain ⟨rfl, rfl⟩ := Prod.mk.inj (Option.some.inj set)
      rwa [names_given] at same
    · intro same
      refine ⟨none, _, rfl, iff_of_true rfl wraps, ?_⟩
      rw [names_given]
      exact same

/-- `sd`, `foo` and `usb`: the numbers end before the second. -/
theorem boot_order_drifts : ¬ ∃ t, tegrablSetBootOrder 3
    (fun i => some ([[115, 100], [102, 111, 111], [117, 115, 98]].getD i [])) ⟨none, none⟩ = some (none, t) ∧
      t.priorities = t.names.filterMap deviceIdOf := by
  rintro ⟨t, set, same⟩
  have stored : some (none, CboInfo.mk (some [some [115, 100], some [102, 111, 111], some [117, 115, 98], none])
    (some [2, 0, 3, 0])) = some (none, t) := set
  obtain rfl := (Prod.mk.inj (Option.some.inj stored)).2
  revert same
  decide

end Cboot.Cbo
