import Mathlib.Data.List.Nodup

/-!
Links are two functions from nodes to nodes. `Ring L head xs` says that the nodes reached from `head` are `xs`, in
this order, and that the links lead back to `head`.
-/

namespace Cboot.Lib

structure Links (α : Type) where
  prev : α → α
  next : α → α

namespace Links

section
variable {α : Type} [DecidableEq α] (L : Links α) {a b x : α}

def setPrev (a b : α) : Links α := { L with prev := Function.update L.prev a b }
def setNext (a b : α) : Links α := { L with next := Function.update L.next a b }

@[simp] theorem next_setPrev : (L.setPrev a b).next = L.next := rfl
@[simp] theorem prev_setNext : (L.setNext a b).prev = L.prev := rfl

@[simp] theorem prev_setPrev_self : (L.setPrev a b).prev a = b := Function.update_self _ _ _
@[simp] theorem next_setNext_self : (L.setNext a b).next a = b := Function.update_self _ _ _

theorem prev_setPrev_of_ne (h : x ≠ a) : (L.setPrev a b).prev x = L.prev x :=
  Function.update_of_ne h _ _

theorem next_setNext_of_ne (h : x ≠ a) : (L.setNext a b).next x = L.next x :=
  Function.update_of_ne h _ _

end

end Links

/-- The links lead from `a` through the nodes of the list to `b` and back. -/
def Chain {α : Type} (L : Links α) : α → List α → α → Prop
  | a, [], b => L.next a = b ∧ L.prev b = a
  | a, x :: xs, b => L.next a = x ∧ L.prev x = a ∧ Chain L x xs b

structure Ring {α : Type} (L : Links α) (head : α) (xs : List α) : Prop where
  chain : Chain L head xs head
  fresh : head ∉ xs
  nodup : xs.Nodup

section
variable {α : Type} {L L' : Links α} {a b y : α} {xs ys zs : List α}

theorem chain_append : Chain L a (ys ++ y :: zs) b ↔ Chain L a ys y ∧ Chain L y zs b := by
  induction ys generalizing a with
  | nil => exact ⟨fun ⟨n, p, rest⟩ => ⟨⟨n, p⟩, rest⟩, fun ⟨⟨n, p⟩, rest⟩ => ⟨n, p, rest⟩⟩
  | cons x ys ih =>
    constructor
    · rintro ⟨n, p, rest⟩
      obtain ⟨first, second⟩ := ih.mp rest
      exact ⟨⟨n, p, first⟩, second⟩
    · rintro ⟨⟨n, p, first⟩, second⟩
      exact ⟨n, p, ih.mpr ⟨first, second⟩⟩

theorem chain_prev_mem (chain : Chain L a xs b) : L.prev b ∈ a :: xs := by
  induction xs generalizing a with
  | nil =>
    rw [chain.2]
    exact List.mem_cons_self
  | cons x xs ih => exact List.mem_cons_of_mem a (ih chain.2.2)

theorem chain_next_mem (chain : Chain L a xs b) : L.next a ∈ xs ++ [b] := by
  cases xs with
  | nil =>
    rw [chain.1]
    exact List.mem_cons_self
  | cons x xs =>
    rw [chain.1]
    exact List.mem_cons_self

theorem chain_congr (chain : Chain L a xs b) (next : ∀ x ∈ a :: xs, L'.next x = L.next x)
    (prev : ∀ x ∈ xs ++ [b], L'.prev x = L.prev x) : Chain L' a xs b := by
  induction xs generalizing a with
  | nil =>
    obtain ⟨n, p⟩ := chain
    exact ⟨(next a (by simp)).trans n, (prev b (by simp)).trans p⟩
  | cons x xs ih =>
    obtain ⟨n, p, rest⟩ := chain
    refine ⟨(next a (by simp)).trans n, (prev x (by simp)).trans p, ?_⟩
    exact ih rest (fun z mem => next z (List.mem_cons_of_mem _ mem))
      (fun z mem => prev z (List.mem_cons_of_mem _ mem))

variable {head : α}

theorem Ring.congr (ring : Ring L head xs)
    (same : ∀ x ∈ head :: xs, L'.prev x = L.prev x ∧ L'.next x = L.next x) : Ring L' head xs := by
  refine ⟨chain_congr ring.chain (fun x mem => (same x mem).2) ?_, ring.fresh, ring.nodup⟩
  intro x mem
  obtain inside | last := List.mem_append.mp mem
  · exact (same x (List.mem_cons_of_mem _ inside)).1
  · exact (same x (List.mem_singleton.mp last ▸ List.mem_cons_self)).1

theorem chain_snoc (chain : Chain L a xs b) (nodup : (a :: xs).Nodup) (last : b ∉ xs)
    (new : y ∉ a :: xs) (nextNew : L'.next y = b) (prevNew : L'.prev y = L.prev b)
    (nextLast : L'.next (L.prev b) = y) (prevLast : L'.prev b = y)
    (next : ∀ x, x ≠ y → x ≠ L.prev b → L'.next x = L.next x)
    (prev : ∀ x, x ≠ y → x ≠ b → L'.prev x = L.prev x) : Chain L' a (xs ++ [y]) b := by
  induction xs generalizing a with
  | nil =>
    obtain ⟨-, back⟩ := chain
    rw [back] at nextLast prevNew
    exact ⟨nextLast, prevNew, nextNew, prevLast⟩
  | cons x xs ih =>
    obtain ⟨n, p, rest⟩ := chain
    obtain ⟨apart, nodup'⟩ := List.nodup_cons.mp nodup
    -- The last node is behind `a`, so the link out of `a` stays.
    have other : a ≠ L.prev b := fun same => apart (same ▸ chain_prev_mem rest)
    have keepNext := next a (fun same => new (same ▸ List.mem_cons_self)) other
    have keepPrev := prev x (fun same => new (same ▸ by simp)) (fun same => last (same ▸ by simp))
    refine ⟨keepNext.trans n, keepPrev.trans p, ?_⟩
    exact ih rest nodup' (fun mem => last (List.mem_cons_of_mem _ mem))
      (fun mem => new (List.mem_cons_of_mem _ mem))

theorem Ring.snoc (ring : Ring L head xs) (new : y ∉ head :: xs)
    (nextNew : L'.next y = head) (prevNew : L'.prev y = L.prev head)
    (nextLast : L'.next (L.prev head) = y) (prevLast : L'.prev head = y)
    (next : ∀ x, x ≠ y → x ≠ L.prev head → L'.next x = L.next x)
    (prev : ∀ x, x ≠ y → x ≠ head → L'.prev x = L.prev x) : Ring L' head (xs ++ [y]) := by
  have nodup : (head :: xs).Nodup := List.nodup_cons.mpr ⟨ring.fresh, ring.nodup⟩
  obtain ⟨other, absent⟩ := not_or.mp (mt List.mem_cons.mpr new)
  refine ⟨chain_snoc ring.chain nodup ring.fresh new nextNew prevNew nextLast prevLast next prev, ?_, ?_⟩
  · intro mem
    rcases List.mem_append.mp mem with old | same
    · exact ring.fresh old
    · exact other (List.mem_singleton.mp same).symm
  · refine List.nodup_append.mpr ⟨ring.nodup, List.nodup_singleton y, ?_⟩
    intro x mem z single same
    rw [List.mem_singleton.mp single] at same
    exact absent (same ▸ mem)

theorem Ring.cons (ring : Ring L head xs) (new : y ∉ head :: xs)
    (nextNew : L'.next y = L.next head) (prevNew : L'.prev y = head)
    (nextHead : L'.next head = y) (prevFirst : L'.prev (L.next head) = y)
    (next : ∀ x, x ≠ y → x ≠ head → L'.next x = L.next x)
    (prev : ∀ x, x ≠ y → x ≠ L.next head → L'.prev x = L.prev x) : Ring L' head (y :: xs) := by
  obtain ⟨other, absent⟩ := not_or.mp (mt List.mem_cons.mpr new)
  refine ⟨⟨nextHead, prevNew, ?_⟩, ?_, List.nodup_cons.mpr ⟨absent, ring.nodup⟩⟩
  · cases xs with
    | nil =>
      obtain ⟨n, -⟩ := ring.chain
      rw [n] at nextNew prevFirst
      exact ⟨nextNew, prevFirst⟩
    | cons x xs =>
      obtain ⟨n, -, rest⟩ := ring.chain
      obtain ⟨apart, -⟩ := List.nodup_cons.mp ring.nodup
      rw [n] at nextNew prevFirst prev
      refine ⟨nextNew, prevFirst, chain_congr rest ?_ ?_⟩
      · intro z mem
        exact next z (fun same => absent (same ▸ mem)) (fun same => ring.fresh (same ▸ mem))
      · intro z mem
        obtain inside | last := List.mem_append.mp mem
        · exact prev z (fun same => absent (same ▸ List.mem_cons_of_mem _ inside))
            (fun same => apart (same ▸ inside))
        · rw [List.mem_singleton.mp last]
          exact prev head (fun same => other same.symm) (fun same => ring.fresh (same ▸ List.mem_cons_self))
  · intro mem
    obtain same | old := List.mem_cons.mp mem
    · exact other same.symm
    · exact ring.fresh old

theorem chain_bypass (before : Chain L a ys y) (after : Chain L y zs b)
    (nodup : (ys ++ y :: zs).Nodup) (first : a ∉ ys ++ y :: zs) (last : b ∉ ys ++ y :: zs)
    (ahead : L'.next (L.prev y) = L.next y) (back : L'.prev (L.next y) = L.prev y)
    (next : ∀ x, x ≠ y → x ≠ L.prev y → L'.next x = L.next x)
    (prev : ∀ x, x ≠ y → x ≠ L.next y → L'.prev x = L.prev x) : Chain L' a (ys ++ zs) b := by
  induction ys generalizing a with
  | nil =>
    obtain ⟨n, p⟩ := before
    rw [p] at ahead back next
    cases zs with
    | nil =>
      obtain ⟨n', p'⟩ := after
      rw [n'] at ahead back
      exact ⟨ahead, back⟩
    | cons z zs =>
      obtain ⟨n', p', rest⟩ := after
      rw [n'] at ahead back prev
      refine ⟨ahead, back, chain_congr rest ?_ ?_⟩
      · intro x mem
        refine next x ?_ ?_
        · rintro rfl
          exact (List.nodup_cons.mp nodup).1 mem
        · rintro rfl
          exact first (List.mem_cons_of_mem _ mem)
      · intro x mem
        have inner := (List.nodup_cons.mp nodup).2
        rcases List.mem_append.mp mem with old | same
        · refine prev x ?_ ?_
          · rintro rfl
            exact (List.nodup_cons.mp nodup).1 (List.mem_cons_of_mem _ old)
          · rintro rfl
            exact (List.nodup_cons.mp inner).1 old
        · rw [List.mem_singleton.mp same]
          refine prev b ?_ ?_
          · rintro rfl
            exact last List.mem_cons_self
          · rintro rfl
            exact last (List.mem_cons_of_mem _ List.mem_cons_self)
  | cons x ys ih =>
    obtain ⟨n, p, rest⟩ := before
    obtain ⟨apart, nodup'⟩ := List.nodup_cons.mp nodup
    have past : ∀ z ∈ x :: ys, z ∈ x :: (ys ++ y :: zs) := by
      intro z mem
      exact List.mem_append_left _ mem
    have keepNext : L'.next a = L.next a := by
      refine next a ?_ ?_
      · rintro rfl
        exact first (by simp)
      · intro same
        exact first (same ▸ past _ (chain_prev_mem rest))
    have keepPrev : L'.prev x = L.prev x := by
      refine prev x ?_ ?_
      · rintro rfl
        exact apart (by simp)
      · intro same
        rcases List.mem_append.mp (chain_next_mem after) with mem | end_
        · exact apart (same ▸ by simp [mem])
        · rw [List.mem_singleton.mp end_] at same
          exact last (same ▸ List.mem_cons_self)
    refine ⟨keepNext.trans n, keepPrev.trans p, ?_⟩
    exact ih rest nodup' apart (fun mem => last (List.mem_cons_of_mem _ mem))

theorem Ring.erase [DecidableEq α] (ring : Ring L head xs) (mem : y ∈ xs)
    (ahead : L'.next (L.prev y) = L.next y) (back : L'.prev (L.next y) = L.prev y)
    (next : ∀ x, x ≠ y → x ≠ L.prev y → L'.next x = L.next x)
    (prev : ∀ x, x ≠ y → x ≠ L.next y → L'.prev x = L.prev x) : Ring L' head (xs.erase y) := by
  obtain ⟨chain, fresh, nodup⟩ := ring
  obtain ⟨ys, zs, rfl⟩ := List.append_of_mem mem
  obtain ⟨before, after⟩ := chain_append.mp chain
  have absent : y ∉ ys := by
    intro early
    exact (List.nodup_append.mp nodup).2.2 y early y List.mem_cons_self rfl
  have rest : (ys ++ y :: zs).erase y = ys ++ zs := by
    rw [List.erase_append_right _ absent, List.erase_cons_head]
  have keep := List.erase_sublist (a := y) (l := ys ++ y :: zs)
  rw [rest] at keep ⊢
  exact ⟨chain_bypass before after nodup fresh fresh ahead back next prev,
    fun mem => fresh (keep.subset mem), nodup.sublist keep⟩

end

end Cboot.Lib
