import Mathlib.Data.Finset.Card
import Cboot.Utils.List
import Cboot.Blockdev.Model

/-!
The registration part of `lib/blockdev/tegrabl_blockdev.c`. The node is the first member of `tegrabl_bdev_t`, so a
device and its node have one address.
-/

namespace Cboot.Blockdev
open Lib Utils

/-- The devices in memory, with `bdevs` the address of the list head. -/
structure Registry where
  bdevs : Nat
  links : Links Nat
  dev : Nat → Bdev
  hasClose : Nat → Bool
  closed : List Nat
  freed : List Nat

def walkLimit : Nat := 2 ^ 64

def storageInvalid : UInt32 := 11

def blockDeviceId (storageType inst : UInt32) : UInt32 := storageType <<< 16 ||| inst

namespace Registry

def ref (w : Registry) (p : Nat) : UInt32 := (w.dev p).ref
def deviceId (w : Registry) (p : Nat) : UInt32 := (w.dev p).deviceId

def setRef (w : Registry) (p : Nat) (ref : UInt32) : Registry :=
  { w with dev := Function.update w.dev p { w.dev p with ref := ref } }

def forEvery {β : Type} (w : Registry) (body : Nat → Option β) : Option (Option β) :=
  listForEvery w.links w.bdevs body walkLimit (w.links.next w.bdevs)

end Registry

def bdevIncRef (w : Registry) (dev : Nat) : Registry := w.setRef dev (w.ref dev + 1)

def bdevDecRef (w : Registry) (dev : Nat) : Except Error Unit × Registry :=
  let oldval := w.ref dev
  let w := if w.ref dev > 0 then w.setRef dev (w.ref dev - 1) else w
  if oldval = 1 then
    if ¬ listInList w.links dev then (.error ⟨.invalid, 4⟩, w)
    else
      let w := { w with links := listDelete w.links dev }
      let w := if w.hasClose dev then { w with closed := w.closed ++ [dev] } else w
      (.ok (), { w with freed := w.freed ++ [dev] })
  else (.ok (), w)

def tegrablBlockdevOpen (w : Registry) (storageType inst : UInt32) :
    Option (Option Nat × Registry) :=
  if storageType ≥ storageInvalid then some (none, w)
  else do
    let found ← w.forEvery fun entry =>
      if w.ref entry = 0 then some none
      else if w.deviceId entry = blockDeviceId storageType inst then some (some entry)
      else none
    match found.join with
    | none => some (none, w)
    | some bdev => some (some bdev, bdevIncRef w bdev)

/-- The error of `bdev_dec_ref` is dropped. -/
def tegrablBlockdevClose (w : Registry) (dev : Nat) : Except Error Unit × Registry :=
  if dev = 0 then (.error ⟨.invalid, 5⟩, w)
  else (.ok (), (bdevDecRef w dev).2)

def tegrablBlockdevRegisterDevice (w : Registry) (dev : Nat) :
    Option (Except Error Unit × Registry) :=
  if dev = 0 then some (.error ⟨.invalid, 20⟩, w)
  else do
    let w := bdevIncRef w dev
    let duplicate ← w.forEvery fun entry =>
      if w.deviceId entry = w.deviceId dev then some () else none
    match duplicate with
    | some _ => some (.error ⟨.alreadyExists, 0⟩, w)
    | none => some (.ok (), { w with links := listAddTail w.links w.bdevs dev })

def tegrablBlockdevUnregisterDevice (w : Registry) (dev : Nat) : Except Error Unit × Registry :=
  if dev = 0 then (.error ⟨.invalid, 21⟩, w)
  else
    let w := { w with links := listDelete w.links dev }
    (.ok (), (bdevDecRef w dev).2)

namespace Registry

section
variable (w : Registry) {p q : Nat} {r : UInt32}

theorem dev_setRef_self : (w.setRef p r).dev p = { w.dev p with ref := r } :=
  Function.update_self _ _ _

theorem dev_setRef_of_ne (h : q ≠ p) : (w.setRef p r).dev q = w.dev q :=
  Function.update_of_ne h _ _

@[simp] theorem ref_setRef_self : (w.setRef p r).ref p = r := by
  rw [ref, dev_setRef_self]

theorem ref_setRef_of_ne (h : q ≠ p) : (w.setRef p r).ref q = w.ref q := by
  rw [ref, dev_setRef_of_ne w h, ref]

theorem ref_setRef_ne_zero (some : r ≠ 0) (held : w.ref q ≠ 0) : (w.setRef p r).ref q ≠ 0 := by
  by_cases same : q = p
  · rwa [same, ref_setRef_self]
  · rwa [ref_setRef_of_ne w same]

@[simp] theorem deviceId_setRef : (w.setRef p r).deviceId q = w.deviceId q := by
  unfold deviceId
  by_cases same : q = p
  · rw [same, dev_setRef_self]
  · rw [dev_setRef_of_ne w same]

end

end Registry

section
variable {w : Registry} {p : Nat}

theorem bdevDecRef_many (some : w.ref p ≠ 0) (many : w.ref p ≠ 1) : (bdevDecRef w p).2 = w.setRef p (w.ref p - 1) := by
  unfold bdevDecRef
  dsimp only
  rw [if_neg many, if_pos (UInt32.pos_iff_ne_zero.mpr some)]

theorem bdevDecRef_last (last : w.ref p = 1) (prev : w.links.prev p = 0)
    (next : w.links.next p = 0) : (bdevDecRef w p).2 = w.setRef p 0 := by
  have alone : listInList (w.setRef p (w.ref p - 1)).links p = false :=
    listInList_clear (L := w.links) prev next
  have more : w.ref p > 0 := by
    rw [last]
    decide
  unfold bdevDecRef
  dsimp only
  rw [if_pos last, if_pos more, if_pos (Bool.eq_false_iff.mp alone), last]
  rfl

theorem forEvery_ring {β : Type} {xs : List Nat} (ring : Ring w.links w.bdevs xs)
    (small : ∀ x ∈ w.bdevs :: xs, x < 2 ^ 64) (body : Nat → Option β) : w.forEvery body = some (xs.findSome? body) := by
  refine listForEvery_ring body ring ?_
  have nodup : (w.bdevs :: xs).Nodup := List.nodup_cons.mpr ⟨ring.fresh, ring.nodup⟩
  have part : (w.bdevs :: xs).toFinset ⊆ Finset.range (2 ^ 64) := by
    intro x mem
    exact Finset.mem_range.mpr (small x (List.mem_toFinset.mp mem))
  have count := Finset.card_le_card part
  rwa [List.toFinset_card_of_nodup nodup, Finset.card_range, List.length_cons] at count

end

end Cboot.Blockdev
