import Mathlib.Data.List.Perm.Lattice

/-!
Blocks are numbered in the order in which they are allocated. A block on the ledger has one holder until it is freed,
and it is freed once.
-/

namespace Cboot.Lib

structure Ledger (size : Nat) (held freed : List Nat) : Prop where
  once : (held ++ freed).Nodup
  known : ∀ b ∈ held ++ freed, b < size

structure Apart (size : Nat) (held freed : List Nat) (b : Nat) : Prop where
  known : b < size
  off : b ∉ held ++ freed

section
variable {size more b : Nat} {held held' freed gone : List Nat}

theorem Apart.live (apart : Apart size held freed b) : b < size ∧ b ∉ freed :=
  ⟨apart.known, fun was => apart.off (List.mem_append_right _ was)⟩

theorem Apart.perm (apart : Apart size held freed b) (same : held.Perm held') : Apart size held' freed b :=
  ⟨apart.known, fun mem => apart.off ((same.append_right freed).mem_iff.mpr mem)⟩

theorem Apart.mono (apart : Apart size held freed b) (grows : size ≤ more) : Apart more held freed b :=
  ⟨Nat.lt_of_lt_of_le apart.known grows, apart.off⟩

variable (ledger : Ledger size held freed)
include ledger

theorem Ledger.live (mem : b ∈ held) : b < size ∧ b ∉ freed := by
  refine ⟨ledger.known b (List.mem_append_left _ mem), fun was => ?_⟩
  exact (List.nodup_append'.mp ledger.once).2.2 mem was

theorem Ledger.perm (same : held.Perm held') : Ledger size held' freed := by
  have all : (held ++ freed).Perm (held' ++ freed) := same.append_right freed
  refine ⟨all.nodup ledger.once, fun b mem => ?_⟩
  exact ledger.known b (all.mem_iff.mpr mem)

theorem Ledger.mono (grows : size ≤ more) : Ledger more held freed :=
  ⟨ledger.once, fun b mem => Nat.lt_of_lt_of_le (ledger.known b mem) grows⟩

theorem Ledger.fresh : Apart (size + 1) held freed size :=
  ⟨Nat.lt_succ_self size, fun mem => Nat.lt_irrefl size (ledger.known size mem)⟩

theorem Ledger.alloc : Ledger (size + 1) (size :: held) freed := by
  constructor
  · rw [List.cons_append, List.nodup_cons]
    exact ⟨ledger.fresh.off, ledger.once⟩
  · intro b mem
    rw [List.cons_append, List.mem_cons] at mem
    cases mem with
    | inl new => omega
    | inr old => exact Nat.lt_succ_of_lt (ledger.known b old)

theorem Ledger.allocMany (k : Nat) :
    Ledger (size + k) (List.range' size k ++ held) freed := by
  induction k with
  | zero => simpa using ledger
  | succ k ih =>
    refine ih.alloc.perm ?_
    rw [List.range'_concat, Nat.one_mul, List.append_assoc, List.singleton_append]
    exact List.perm_middle.symm

omit ledger

theorem Apart.alloc (apart : Apart size held freed b) : Apart (size + 1) (size :: held) freed b := by
  refine ⟨Nat.lt_succ_of_lt apart.known, fun mem => ?_⟩
  rw [List.cons_append, List.mem_cons] at mem
  cases mem with
  | inl new => exact Nat.lt_irrefl size (new ▸ apart.known)
  | inr old => exact apart.off old

theorem release_perm : ((gone ++ held) ++ freed).Perm (held ++ (freed ++ gone)) := by
  rw [List.append_assoc, ← List.append_assoc held]
  exact List.perm_append_comm

theorem Ledger.release (ledger : Ledger size (gone ++ held) freed) : Ledger size held (freed ++ gone) :=
  ⟨release_perm.nodup ledger.once, fun b mem => ledger.known b (release_perm.mem_iff.mpr mem)⟩

theorem Apart.release (apart : Apart size (gone ++ held) freed b) : Apart size held (freed ++ gone) b :=
  ⟨apart.known, fun mem => apart.off (release_perm.mem_iff.mpr mem)⟩

end

section
variable {α : Type} {f : Nat → Option α} {i : Nat} {l : List Nat}

theorem filterMap_update_of_not_mem (a : Option α) (off : i ∉ l) :
    l.filterMap (Function.update f i a) = l.filterMap f := by
  refine List.filterMap_congr fun j mem => ?_
  have other : j ≠ i := fun same => off (same ▸ mem)
  exact Function.update_of_ne other _ _

theorem filterMap_update_perm (a : α) (nodup : l.Nodup) (mem : i ∈ l) (empty : f i = none) :
    (l.filterMap (Function.update f i (some a))).Perm (a :: l.filterMap f) := by
  induction l with
  | nil => exact absurd mem List.not_mem_nil
  | cons j l ih =>
    obtain ⟨off, nodup⟩ := List.nodup_cons.mp nodup
    by_cases here : j = i
    · subst here
      rw [List.filterMap_cons_some (Function.update_self j (some a) f),
        filterMap_update_of_not_mem _ off, List.filterMap_cons_none empty]
    · have there : i ∈ l := (List.mem_cons.mp mem).resolve_left (Ne.symm here)
      have rest := ih nodup there
      have entry : Function.update f i (some a) j = f j := Function.update_of_ne here _ _
      cases value : f j with
      | none =>
        rw [List.filterMap_cons_none (entry.trans value), List.filterMap_cons_none value]
        exact rest
      | some b =>
        rw [List.filterMap_cons_some (entry.trans value), List.filterMap_cons_some value]
        exact (rest.cons b).trans (List.Perm.swap a b _)

end

end Cboot.Lib
