import Mathlib.Data.List.Induction
import Mathlib.Data.Nat.Basic
import Mathlib.Order.Lattice

/-!
`tegrabl_sort` of `lib/linuxboot/linuxboot_utils.c`. The array has `count` entries, and there is nothing where one beyond
them, or beyond the table, is read or written.
-/

namespace Cboot.Linuxboot.Sort

structure CarveoutInfo where
  base : UInt64

def tegrablBomCompare (pCarveout : List CarveoutInfo) (a b : UInt32) : Option Int := do
  let first ← pCarveout[a.toNat]?
  let second ← pCarveout[b.toNat]?
  if first.base < second.base then return -1
  else if first.base > second.base then return 1
  else return 0

def put (array : List UInt32) (i : Nat) (val : UInt32) : Option (List UInt32) :=
  if i < array.length then some (array.set i val) else none

/-- The inner loop. The argument is `j + 1`, and so is what is left of it. -/
def shift (pCarveout : List CarveoutInfo) (val : UInt32) : Nat → List UInt32 → Option (Nat × List UInt32)
  | 0, array => some (0, array)
  | j + 1, array => do
    let order ← tegrablBomCompare pCarveout val (← array[j]?)
    if order < 0 then
      let array ← put array (j + 1) (← array[j]?)
      shift pCarveout val j array
    else return (j + 1, array)

def sortFrom (pCarveout : List CarveoutInfo) : Nat → Nat → List UInt32 → Option (List UInt32)
  | 0, _, array => some array
  | turns + 1, i, array => do
    let val ← array[i]?
    let (hole, array) ← shift pCarveout val i array
    let array ← put array hole val
    sortFrom pCarveout turns (i + 1) array

def tegrablSort (pCarveout : List CarveoutInfo) (array : List UInt32) (count : Int) : Option (List UInt32) :=
  if count < 2 then some array else sortFrom pCarveout (count.toNat - 1) 1 array

section
variable {α κ : Type} [LinearOrder κ] {key : α → κ}

/-- One list is the other in the order of the keys, and elements with one key stay in their order. -/
structure SortedStably (key : α → κ) (before after : List α) : Prop where
  perm : after.Perm before
  ordered : after.Pairwise fun a b => key a ≤ key b
  stable : ∀ k, after.filter (key · = k) = before.filter (key · = k)

theorem SortedStably.insert {before kept moved : List α} {val : α} (sorted : SortedStably key before (kept ++ moved))
    (low : ∀ x ∈ kept, key x ≤ key val) (high : ∀ x ∈ moved, key val < key x) :
    SortedStably key (before ++ [val]) (kept ++ val :: moved) where
  perm := by
    have front : (kept ++ val :: moved).Perm (val :: (kept ++ moved)) := List.perm_middle
    exact front.trans ((sorted.perm.cons val).trans (List.perm_append_singleton val before).symm)
  ordered := by
    obtain ⟨first, last, across⟩ := List.pairwise_append.mp sorted.ordered
    refine List.pairwise_append.mpr ⟨first, List.pairwise_cons.mpr ⟨fun x among => le_of_lt (high x among), last⟩, ?_⟩
    intro x among y behind
    obtain rfl | behind := List.mem_cons.mp behind
    · exact low x among
    · exact across x among y behind
  stable := by
    intro k
    rw [List.filter_append, List.filter_append, ← sorted.stable k, List.filter_append]
    by_cases own : key val = k
    · have none : moved.filter (key · = k) = [] := by
        refine List.filter_eq_nil_iff.mpr fun x among same => ?_
        have greater := high x among
        rw [own, of_decide_eq_true same] at greater
        exact lt_irrefl _ greater
      simp [own, none]
    · simp [own]

theorem le_of_le_last {l : List α} {k : κ} (ordered : l.Pairwise fun a b => key a ≤ key b)
    (last : ∀ x ∈ l.getLast?, key x ≤ k) : ∀ x ∈ l, key x ≤ k := by
  cases l using List.reverseRecOn with
  | nil => simp
  | append_singleton front y =>
    have greatest : key y ≤ k := last y (by simp)
    intro x among
    obtain before | same := List.mem_append.mp among
    · exact le_trans ((List.pairwise_append.mp ordered).2.2 x before y List.mem_cons_self) greatest
    · rwa [List.mem_singleton.mp same]

end

variable {pCarveout : List CarveoutInfo}

def baseOf (pCarveout : List CarveoutInfo) (a : UInt32) : Nat := (pCarveout[a.toNat]?.map fun c => c.base.toNat).getD 0

theorem tegrablBomCompare_spec {a b : UInt32} (first : a.toNat < pCarveout.length) (second : b.toNat < pCarveout.length) :
    ∃ order, tegrablBomCompare pCarveout a b = some order ∧ (order < 0 ↔ baseOf pCarveout a < baseOf pCarveout b) := by
  unfold tegrablBomCompare baseOf
  simp only [List.getElem?_eq_getElem first, List.getElem?_eq_getElem second, Option.map_some, Option.getD_some,
    Option.bind_eq_bind, Option.bind_some, ← UInt64.lt_iff_toNat_lt]
  by_cases less : (pCarveout[a.toNat]).base < (pCarveout[b.toNat]).base
  · exact ⟨-1, by rw [if_pos less]; rfl, by simp [less]⟩
  · rw [if_neg less]
    by_cases more : (pCarveout[a.toNat]).base > (pCarveout[b.toNat]).base
    · exact ⟨1, by rw [if_pos more]; rfl, by simp [less]⟩
    · exact ⟨0, by rw [if_neg more]; rfl, by simp [less]⟩

theorem getElem?_hole (front behind : List UInt32) (c : UInt32) : (front ++ c :: behind)[front.length]? = some c := by
  simp

theorem put_hole (front behind : List UInt32) (c val : UInt32) :
    put (front ++ c :: behind) front.length val = some (front ++ val :: behind) := by
  simp [put]

/-- The hole moves to the left past what is greater. -/
theorem shift_spec {val : UInt32} (value : val.toNat < pCarveout.length) (front : List UInt32) (c : UInt32)
    (behind : List UInt32) (valid : ∀ a ∈ front, a.toNat < pCarveout.length) :
    ∃ kept moved d, front = kept ++ moved ∧
      shift pCarveout val front.length (front ++ c :: behind) = some (kept.length, kept ++ d :: (moved ++ behind)) ∧
      (∀ x ∈ moved, baseOf pCarveout val < baseOf pCarveout x) ∧
      ∀ x ∈ kept.getLast?, baseOf pCarveout x ≤ baseOf pCarveout val := by
  induction front using List.reverseRecOn generalizing c behind with
  | nil => exact ⟨[], [], c, rfl, rfl, by simp, by simp⟩
  | append_singleton front v ih =>
    obtain ⟨order, compared, sign⟩ := tegrablBomCompare_spec value (valid v (by simp))
    have read : (front ++ [v] ++ c :: behind)[front.length]? = some v := by
      rw [List.append_assoc]
      exact getElem?_hole front (c :: behind) v
    have written : put (front ++ [v] ++ c :: behind) (front.length + 1) v = some (front ++ [v] ++ v :: behind) := by
      have place : front.length + 1 = (front ++ [v]).length := by simp
      rw [place, put_hole]
    rw [List.length_append, List.length_singleton, shift, read]
    simp only [Option.bind_eq_bind, Option.bind_some, compared]
    by_cases less : order < 0
    · obtain ⟨kept, moved, d, parts, ran, high, low⟩ := ih v (v :: behind) fun a among => valid a (by simp [among])
      rw [if_pos less, written]
      refine ⟨kept, moved ++ [v], d, by rw [parts, List.append_assoc], ?_, ?_, low⟩
      · simp only [Option.bind_some, List.append_assoc, List.singleton_append]
        exact ran
      · intro x among
        obtain before | last := List.mem_append.mp among
        · exact high x before
        · rw [List.mem_singleton.mp last]
          exact sign.mp less
    · rw [if_neg less]
      refine ⟨front ++ [v], [], c, by simp, by simp, by simp, ?_⟩
      intro x last
      rw [List.getLast?_concat, Option.mem_some_iff] at last
      subst last
      exact Nat.not_lt.mp fun smaller => less (sign.mpr smaller)

theorem sortFrom_spec (front rest before : List UInt32) (sorted : SortedStably (baseOf pCarveout) before front)
    (valid : ∀ a ∈ front ++ rest, a.toNat < pCarveout.length) :
    ∃ after, sortFrom pCarveout rest.length front.length (front ++ rest) = some after ∧
      SortedStably (baseOf pCarveout) (before ++ rest) after := by
  induction rest generalizing front before with
  | nil => exact ⟨front, by simp [sortFrom], by simpa using sorted⟩
  | cons val rest ih =>
    obtain ⟨kept, moved, d, rfl, shifted, high, low⟩ :=
      shift_spec (valid val (by simp)) front val rest fun a among => valid a (List.mem_append_left _ among)
    have ordered := (List.pairwise_append.mp sorted.ordered).1
    have next := sorted.insert (le_of_le_last ordered low) high
    obtain ⟨after, ran, done⟩ := ih (kept ++ val :: moved) (before ++ [val]) next (by
      intro a among
      refine valid a ?_
      simp only [List.mem_append, List.mem_cons] at among ⊢
      tauto)
    refine ⟨after, ?_, by simpa using done⟩
    rw [List.length_cons, sortFrom, getElem?_hole]
    simp only [Option.bind_eq_bind, Option.bind_some, shifted, put_hole]
    have size : (kept ++ moved).length + 1 = (kept ++ val :: moved).length := by
      simp only [List.length_append, List.length_cons]
      omega
    rw [size]
    simpa using ran

/-- Sorting stays inside of the array and of the table. The entries come in the order of their base addresses, and those with
one address stay in their order. -/
theorem tegrablSort_sorted (pCarveout : List CarveoutInfo) (array : List UInt32)
    (valid : ∀ a ∈ array, a.toNat < pCarveout.length) :
    ∃ after, tegrablSort pCarveout array array.length = some after ∧
      SortedStably (baseOf pCarveout) array after := by
  unfold tegrablSort
  cases array with
  | nil => exact ⟨[], rfl, .refl _, .nil, fun _ => rfl⟩
  | cons a rest =>
    have one : SortedStably (baseOf pCarveout) [a] [a] := ⟨.refl _, List.pairwise_singleton _ a, fun _ => rfl⟩
    by_cases few : ((a :: rest).length : Int) < 2
    · have none : rest = [] := by
        rw [List.length_cons] at few
        exact List.eq_nil_of_length_eq_zero (by omega)
      subst none
      exact ⟨[a], if_pos few, one⟩
    · rw [if_neg few]
      exact sortFrom_spec [a] rest [a] one valid

/-- Entries 1 and 2 have one base address. -/
theorem tegrablSort_sorted_three : ∃ after, tegrablSort [⟨0x90⟩, ⟨0x80⟩, ⟨0x80⟩] [0, 2, 1] 3 = some after ∧
    SortedStably (baseOf [⟨0x90⟩, ⟨0x80⟩, ⟨0x80⟩]) [0, 2, 1] after :=
  tegrablSort_sorted [⟨0x90⟩, ⟨0x80⟩, ⟨0x80⟩] [0, 2, 1] (by simp)

end Cboot.Linuxboot.Sort
