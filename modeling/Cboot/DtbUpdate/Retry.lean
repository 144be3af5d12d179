import Mathlib.Data.UInt
import Cboot.Lib.Loop

/-!
The end of `tegrabl_linuxboot_update_bootargs`: as long as there is no space for the property, the tree is made larger
by `tegrabl_dt_create_space`, up to a limit.
-/

namespace Cboot.DtbUpdate
open Lib

def noSpace : Int := -3

/-- How the loop is left: with what `fdt_setprop` returned, or because the tree could not be expanded. -/
inductive Updated where
  | set (err : Int)
  | expandFailed
  deriving DecidableEq, Repr

section
variable (fdtSetprop : UInt32 → Int) (fdtOpenInto : UInt32 → UInt32 → Except Int UInt32) (maxSize : UInt32)

def newlen (totalsize incSize maxSize : UInt32) : UInt32 :=
  if totalsize + incSize > maxSize then maxSize else totalsize + incSize

def tegrablDtCreateSpace (totalsize incSize maxSize : UInt32) : Except Updated UInt32 :=
  match fdtOpenInto totalsize (newlen totalsize incSize maxSize) with
  | .ok totalsize => .ok totalsize
  | .error _ => .error .expandFailed

/-- What is done at `set_prop`. -/
def setProp (totalsize : UInt32) : Pass UInt32 Updated :=
  let err := fdtSetprop totalsize
  if err = noSpace then
    match tegrablDtCreateSpace fdtOpenInto totalsize 512 maxSize with
    | .ok totalsize => .next totalsize
    | .error err => .leave err
  else .leave (.set err)

/-- What the loop relies on: there is no space exactly while the tree is smaller than what is needed, opening it into a
length makes that its size, and is not refused where it does not make the tree smaller. -/
structure Opens (needed : Nat) : Prop where
  nospace : ∀ totalsize, fdtSetprop totalsize = noSpace ↔ totalsize.toNat < needed
  sets : ∀ totalsize newlen opened, fdtOpenInto totalsize newlen = .ok opened → opened = newlen
  accepts : ∀ totalsize newlen, totalsize ≤ newlen → ∃ opened, fdtOpenInto totalsize newlen = .ok opened

end

section
variable {fdtSetprop : UInt32 → Int} {fdtOpenInto : UInt32 → UInt32 → Except Int UInt32} {maxSize totalsize : UInt32}
variable {needed : Nat}

theorem newlen_le (totalsize incSize maxSize : UInt32) : newlen totalsize incSize maxSize ≤ maxSize := by
  unfold newlen
  split
  · exact UInt32.le_refl maxSize
  · exact UInt32.not_lt.mp ‹_›

theorem toNat_more (room : maxSize.toNat + 512 < 2 ^ 32) (within : totalsize ≤ maxSize) :
    (totalsize + 512).toNat = totalsize.toNat + 512 := by
  have below : totalsize.toNat ≤ maxSize.toNat := within
  rw [UInt32.toNat_add]
  exact Nat.mod_eq_of_lt (by simp only [UInt32.reduceToNat]; omega)

theorem newlen_grows (room : maxSize.toNat + 512 < 2 ^ 32) (below : totalsize < maxSize) :
    totalsize < newlen totalsize 512 maxSize := by
  have sum := toNat_more room (UInt32.le_of_lt below)
  unfold newlen
  split
  · exact below
  · rw [UInt32.lt_iff_toNat_lt, sum]
    omega

theorem le_newlen (room : maxSize.toNat + 512 < 2 ^ 32) (within : totalsize ≤ maxSize) :
    totalsize ≤ newlen totalsize 512 maxSize := by
  have sum := toNat_more room within
  unfold newlen
  split
  · exact within
  · rw [UInt32.le_iff_toNat_le, sum]
    omega

variable (opens : Opens fdtSetprop fdtOpenInto needed)
include opens

theorem setProp_enough (large : needed ≤ totalsize.toNat) :
    setProp fdtSetprop fdtOpenInto maxSize totalsize = .leave (.set (fdtSetprop totalsize)) := by
  have space : fdtSetprop totalsize ≠ noSpace := mt (opens.nospace totalsize).mp (Nat.not_lt.mpr large)
  unfold setProp
  simp only [if_neg space]

theorem setProp_refused (small : totalsize.toNat < needed) {err : Int}
    (refused : fdtOpenInto totalsize (newlen totalsize 512 maxSize) = .error err) :
    setProp fdtSetprop fdtOpenInto maxSize totalsize = .leave .expandFailed := by
  unfold setProp tegrablDtCreateSpace
  simp only [if_pos ((opens.nospace totalsize).mpr small), refused]

theorem setProp_opened (small : totalsize.toNat < needed) {opened : UInt32}
    (accepted : fdtOpenInto totalsize (newlen totalsize 512 maxSize) = .ok opened) :
    setProp fdtSetprop fdtOpenInto maxSize totalsize = .next (newlen totalsize 512 maxSize) := by
  have length := opens.sets _ _ _ accepted
  unfold setProp tegrablDtCreateSpace
  simp only [if_pos ((opens.nospace totalsize).mpr small), accepted, length]

theorem setProp_within (room : maxSize.toNat + 512 < 2 ^ 32)
    (small : totalsize.toNat < needed) (within : totalsize ≤ maxSize) :
    setProp fdtSetprop fdtOpenInto maxSize totalsize = .next (newlen totalsize 512 maxSize) := by
  obtain ⟨opened, accepted⟩ := opens.accepts totalsize _ (le_newlen room within)
  exact setProp_opened opens small accepted

theorem not_returns (room : maxSize.toNat + 512 < 2 ^ 32)
    (more : maxSize.toNat < needed) (within : totalsize ≤ maxSize) (result : Updated) :
    ¬ LoopReturns (setProp fdtSetprop fdtOpenInto maxSize) totalsize result := by
  have turn (t : UInt32) (within : t ≤ maxSize) :
      setProp fdtSetprop fdtOpenInto maxSize t = .next (newlen t 512 maxSize) :=
    setProp_within opens room (Nat.lt_of_le_of_lt within more) within
  rintro ⟨fuel, ended⟩
  have passes : ∀ t t', t ≤ maxSize → setProp fdtSetprop fdtOpenInto maxSize t = .next t' → t' ≤ maxSize := by
    intro t t' within taken
    have next : newlen t 512 maxSize = t' := Pass.next.inj ((turn t within).symm.trans taken)
    exact next ▸ newlen_le t 512 maxSize
  have leaves : ∀ t result, t ≤ maxSize → setProp fdtSetprop fdtOpenInto maxSize t = .leave result → ¬ True := by
    intro t result within taken
    rw [turn t within] at taken
    cases taken
  exact not_good_of_spoiled passes leaves fuel within ended trivial

theorem returns_within (room : maxSize.toNat + 512 < 2 ^ 32)
    (enough : needed ≤ maxSize.toNat) (totalsize : UInt32) :
    ∃ result, LoopReturns (setProp fdtSetprop fdtOpenInto maxSize) totalsize result := by
  have nearer : ∀ t t', True → True → setProp fdtSetprop fdtOpenInto maxSize t = .next t' →
      True ∧ needed - t'.toNat < needed - t.toNat := by
    intro t t' _ _ taken
    refine ⟨trivial, ?_⟩
    by_cases small : t.toNat < needed
    · have below : t < maxSize := Nat.lt_of_lt_of_le small enough
      have next : newlen t 512 maxSize = t' :=
        Pass.next.inj ((setProp_within opens room small (UInt32.le_of_lt below)).symm.trans taken)
      rw [← next]
      have grows : t.toNat < (newlen t 512 maxSize).toNat := newlen_grows room below
      omega
    · rw [setProp_enough opens (Nat.not_lt.mp small)] at taken
      cases taken
  obtain ⟨result, returned, -⟩ := returns_good nearer (fun _ _ _ _ _ => trivial) trivial (fun t comes => trivial)
  exact ⟨result, returned⟩

omit opens

/-- The loop comes to an end exactly where the tree is large enough, or may become so, or is larger than the limit and may
not be made smaller. -/
theorem setProp_returns_iff (opens : Opens fdtSetprop fdtOpenInto needed) (room : maxSize.toNat + 512 < 2 ^ 32)
    (totalsize : UInt32) : (∃ result, LoopReturns (setProp fdtSetprop fdtOpenInto maxSize) totalsize result) ↔
      needed ≤ totalsize.toNat ∨ needed ≤ maxSize.toNat ∨
        (maxSize < totalsize ∧ ∃ err, fdtOpenInto totalsize (newlen totalsize 512 maxSize) = .error err) := by
  constructor
  · rintro ⟨result, returned⟩
    by_contra neither
    simp only [not_or, not_le, not_and, not_exists] at neither
    obtain ⟨small, more, accepted⟩ := neither
    by_cases within : totalsize ≤ maxSize
    · exact not_returns opens room more within result returned
    · cases result' : fdtOpenInto totalsize (newlen totalsize 512 maxSize) with
      | error err => exact accepted (UInt32.not_le.mp within) err result'
      | ok opened =>
        have turn := setProp_opened opens small result'
        obtain ⟨fuel, ended⟩ := returned
        cases fuel with
        | zero => cases ended
        | succ fuel =>
          rw [runLoop_next turn] at ended
          exact not_returns opens room more (newlen_le totalsize 512 maxSize) result ⟨fuel, ended⟩
  · rintro (large | enough | ⟨-, err, refused⟩)
    · exact ⟨_, returns_of_leave (setProp_enough opens large)⟩
    · exact returns_within opens room enough totalsize
    · by_cases small : totalsize.toNat < needed
      · exact ⟨_, returns_of_leave (setProp_refused opens small refused)⟩
      · exact ⟨_, returns_of_leave (setProp_enough opens (Nat.not_lt.mp small))⟩

/-- `fdt_open_into` of a tree in the usual order, which `fdt_move` refuses to make smaller. -/
def moved (totalsize newlen : UInt32) : Except Int UInt32 := if totalsize ≤ newlen then .ok newlen else .error noSpace

def stored (needed : Nat) (totalsize : UInt32) : Int := if totalsize.toNat < needed then noSpace else 0

theorem opens_moved (needed : Nat) : Opens (stored needed) moved needed where
  nospace totalsize := by
    unfold stored
    split
    · exact iff_of_true rfl ‹_›
    · exact iff_of_false (by decide) ‹_›
  sets totalsize newlen opened accepted := by
    unfold moved at accepted
    split at accepted
    · exact (Except.ok.inj accepted).symm
    · cases accepted
  accepts totalsize newlen grows := ⟨newlen, if_pos grows⟩

theorem setProp_grows : ∃ result, LoopReturns (setProp (stored 6000) moved 0x100000) 4096 result :=
  (setProp_returns_iff (opens_moved 6000) (by decide) 4096).mpr (.inr (.inl (by decide)))

/-- A tree of the largest size that is too small for its command line. -/
theorem setProp_full : ¬ ∃ result, LoopReturns (setProp (stored 0x100200) moved 0x100000) 0x100000 result := by
  rintro ⟨result, returned⟩
  exact not_returns (opens_moved 0x100200) (by decide) (by decide) (by decide) result returned

end

end Cboot.DtbUpdate
