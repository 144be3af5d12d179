import Cboot.Lib.Ring

/-!
`include/lib/list.h`. A list is a head node in a ring with its items. A node that is in no list has
two null links, which is all that `list_in_list` looks at.
-/

namespace Cboot.Utils
open Lib

def listInitialize (L : Links Nat) (list : Nat) : Links Nat := (L.setNext list list).setPrev list list

def listClearNode (L : Links Nat) (item : Nat) : Links Nat := (L.setNext item 0).setPrev item 0

def listInList (L : Links Nat) (item : Nat) : Bool := !(L.prev item == 0 && L.next item == 0)

def listAddHead (L : Links Nat) (list item : Nat) : Links Nat :=
  let L := L.setNext item (L.next list)
  let L := L.setPrev item list
  let L := L.setPrev (L.next list) item
  L.setNext list item

def listAddTail (L : Links Nat) (list item : Nat) : Links Nat :=
  let L := L.setPrev item (L.prev list)
  let L := L.setNext item list
  let L := L.setNext (L.prev list) item
  L.setPrev list item

def listDelete (L : Links Nat) (item : Nat) : Links Nat :=
  let L := L.setPrev (L.next item) (L.prev item)
  let L := L.setNext (L.prev item) (L.next item)
  listClearNode L item

def listRemoveHead (L : Links Nat) (list : Nat) : Option Nat × Links Nat :=
  if L.next list ≠ list then (some (L.next list), listDelete L (L.next list)) else (none, L)

def listForEvery {β : Type} (L : Links Nat) (list : Nat) (body : Nat → Option β) :
    Nat → Nat → Option (Option β)
  | 0, _ => none
  | fuel + 1, entry =>
    if entry = list then some none
    else
      match body entry with
      | some r => some (some r)
      | none => listForEvery L list body fuel (L.next entry)

section
variable {L : Links Nat} {list item x : Nat} {xs : List Nat}

theorem ring_listInitialize (L : Links Nat) (list : Nat) : Ring (listInitialize L list) list [] := by
  refine ⟨⟨?_, ?_⟩, List.not_mem_nil, List.nodup_nil⟩
  · rw [listInitialize, Links.next_setPrev, Links.next_setNext_self]
  · rw [listInitialize, Links.prev_setPrev_self]

theorem listInList_clear (prev : L.prev item = 0) (next : L.next item = 0) : listInList L item = false := by
  rw [listInList, prev, next]
  rfl

theorem listAddHead_eq (other : item ≠ list) : listAddHead L list item =
    (((L.setNext item (L.next list)).setPrev item list).setPrev (L.next list) item).setNext list item := by
  rw [listAddHead, Links.next_setPrev, Links.next_setNext_of_ne _ other.symm]

variable (ring : Ring L list xs)
include ring

theorem next_head_mem : L.next list ∈ list :: xs := by
  obtain inside | last := List.mem_append.mp (chain_next_mem ring.chain)
  · exact List.mem_cons_of_mem _ inside
  · exact List.mem_cons.mpr (.inl (List.mem_singleton.mp last))

theorem ring_listAddHead (new : item ∉ list :: xs) :
    Ring (listAddHead L list item) list (item :: xs) := by
  have other : item ≠ list := fun same => new (same ▸ List.mem_cons_self)
  have first : item ≠ L.next list := fun same => new (same ▸ next_head_mem ring)
  rw [listAddHead_eq other]
  refine ring.cons new ?_ ?_ ?_ ?_ ?_ ?_
  · rw [Links.next_setNext_of_ne _ other, Links.next_setPrev, Links.next_setPrev, Links.next_setNext_self]
  · rw [Links.prev_setNext, Links.prev_setPrev_of_ne _ first, Links.prev_setPrev_self]
  · rw [Links.next_setNext_self]
  · rw [Links.prev_setNext, Links.prev_setPrev_self]
  · intro x notNew notHead
    rw [Links.next_setNext_of_ne _ notHead, Links.next_setPrev, Links.next_setPrev, Links.next_setNext_of_ne _ notNew]
  · intro x notNew notFirst
    rw [Links.prev_setNext, Links.prev_setPrev_of_ne _ notFirst, Links.prev_setPrev_of_ne _ notNew, Links.prev_setNext]

theorem listAddHead_outside (new : item ∉ list :: xs) (notNew : x ≠ item)
    (outside : x ∉ list :: xs) :
    (listAddHead L list item).prev x = L.prev x ∧ (listAddHead L list item).next x = L.next x := by
  have other : item ≠ list := fun same => new (same ▸ List.mem_cons_self)
  have notHead : x ≠ list := fun same => outside (same ▸ List.mem_cons_self)
  have notFirst : x ≠ L.next list := fun same => outside (same ▸ next_head_mem ring)
  rw [listAddHead_eq other]
  constructor
  · rw [Links.prev_setNext, Links.prev_setPrev_of_ne _ notFirst, Links.prev_setPrev_of_ne _ notNew, Links.prev_setNext]
  · rw [Links.next_setNext_of_ne _ notHead, Links.next_setPrev, Links.next_setPrev, Links.next_setNext_of_ne _ notNew]

omit ring in
theorem listAddTail_eq (other : item ≠ list) : listAddTail L list item =
    (((L.setPrev item (L.prev list)).setNext item list).setNext (L.prev list) item).setPrev list item := by
  rw [listAddTail, Links.prev_setNext, Links.prev_setPrev_of_ne _ other.symm]

theorem ring_listAddTail (new : item ∉ list :: xs) :
    Ring (listAddTail L list item) list (xs ++ [item]) := by
  have other : item ≠ list := fun same => new (same ▸ List.mem_cons_self)
  have last : item ≠ L.prev list := fun same => new (same ▸ chain_prev_mem ring.chain)
  rw [listAddTail_eq other]
  refine ring.snoc new ?_ ?_ ?_ ?_ ?_ ?_
  · rw [Links.next_setPrev, Links.next_setNext_of_ne _ last, Links.next_setNext_self]
  · rw [Links.prev_setPrev_of_ne _ other, Links.prev_setNext, Links.prev_setNext, Links.prev_setPrev_self]
  · rw [Links.next_setPrev, Links.next_setNext_self]
  · rw [Links.prev_setPrev_self]
  · intro x notNew notLast
    rw [Links.next_setPrev, Links.next_setNext_of_ne _ notLast, Links.next_setNext_of_ne _ notNew, Links.next_setPrev]
  · intro x notNew notHead
    rw [Links.prev_setPrev_of_ne _ notHead, Links.prev_setNext, Links.prev_setNext, Links.prev_setPrev_of_ne _ notNew]

theorem listAddTail_outside (new : item ∉ list :: xs) (notNew : x ≠ item)
    (outside : x ∉ list :: xs) :
    (listAddTail L list item).prev x = L.prev x ∧ (listAddTail L list item).next x = L.next x := by
  have other : item ≠ list := fun same => new (same ▸ List.mem_cons_self)
  have notHead : x ≠ list := fun same => outside (same ▸ List.mem_cons_self)
  have notLast : x ≠ L.prev list := fun same => outside (same ▸ chain_prev_mem ring.chain)
  rw [listAddTail_eq other]
  constructor
  · rw [Links.prev_setPrev_of_ne _ notHead, Links.prev_setNext, Links.prev_setNext, Links.prev_setPrev_of_ne _ notNew]
  · rw [Links.next_setPrev, Links.next_setNext_of_ne _ notLast, Links.next_setNext_of_ne _ notNew, Links.next_setPrev]

theorem neighbours (mem : item ∈ xs) :
    L.next item ≠ item ∧ L.prev item ≠ item ∧ L.next item ∈ list :: xs ∧ L.prev item ∈ list :: xs := by
  obtain ⟨chain, fresh, nodup⟩ := ring
  obtain ⟨ys, zs, rfl⟩ := List.append_of_mem mem
  obtain ⟨before, after⟩ := chain_append.mp chain
  have next := chain_next_mem after
  have prev := chain_prev_mem before
  obtain ⟨-, right, apart⟩ := List.nodup_append.mp nodup
  have head : item ≠ list := fun same => fresh (same ▸ mem)
  refine ⟨?_, ?_, ?_, ?_⟩
  · intro same
    rw [same] at next
    rcases List.mem_append.mp next with inside | last
    · exact (List.nodup_cons.mp right).1 inside
    · exact head (List.mem_singleton.mp last)
  · intro same
    rw [same] at prev
    rcases List.mem_cons.mp prev with first | inside
    · exact head first
    · exact apart item inside item List.mem_cons_self rfl
  · rcases List.mem_append.mp next with inside | last
    · exact List.mem_cons_of_mem _ (List.mem_append_right _ (List.mem_cons_of_mem _ inside))
    · exact List.mem_cons.mpr (.inl (List.mem_singleton.mp last))
  · rcases List.mem_cons.mp prev with first | inside
    · exact List.mem_cons.mpr (.inl first)
    · exact List.mem_cons_of_mem _ (List.mem_append_left _ inside)

omit ring

theorem listDelete_eq (next : L.next item ≠ item) : listDelete L item =
    listClearNode ((L.setPrev (L.next item) (L.prev item)).setNext (L.prev item) (L.next item)) item := by
  rw [listDelete, Links.next_setPrev, Links.prev_setPrev_of_ne _ next.symm]

theorem listClearNode_self (L : Links Nat) (item : Nat) :
    (listClearNode L item).prev item = 0 ∧ (listClearNode L item).next item = 0 := by
  constructor
  · rw [listClearNode, Links.prev_setPrev_self]
  · rw [listClearNode, Links.next_setPrev, Links.next_setNext_self]

theorem listClearNode_other (L : Links Nat) (h : x ≠ item) :
    (listClearNode L item).prev x = L.prev x ∧ (listClearNode L item).next x = L.next x := by
  constructor
  · rw [listClearNode, Links.prev_setPrev_of_ne _ h, Links.prev_setNext]
  · rw [listClearNode, Links.next_setPrev, Links.next_setNext_of_ne _ h]

theorem listDelete_self (L : Links Nat) (item : Nat) :
    (listDelete L item).prev item = 0 ∧ (listDelete L item).next item = 0 :=
  listClearNode_self _ item

theorem ring_listDelete (ring : Ring L list xs) (mem : item ∈ xs) : Ring (listDelete L item) list (xs.erase item) := by
  obtain ⟨next, prev, -, -⟩ := neighbours ring mem
  rw [listDelete_eq next]
  refine ring.erase mem ?_ ?_ ?_ ?_
  · rw [(listClearNode_other _ prev).2, Links.next_setNext_self]
  · rw [(listClearNode_other _ next).1, Links.prev_setNext, Links.prev_setPrev_self]
  · intro x notItem notPrev
    rw [(listClearNode_other _ notItem).2, Links.next_setNext_of_ne _ notPrev, Links.next_setPrev]
  · intro x notItem notNext
    rw [(listClearNode_other _ notItem).1, Links.prev_setNext, Links.prev_setPrev_of_ne _ notNext]

theorem listDelete_outside (ring : Ring L list xs) (mem : item ∈ xs) (outside : x ∉ list :: xs) :
    (listDelete L item).prev x = L.prev x ∧ (listDelete L item).next x = L.next x := by
  obtain ⟨next, prev, nextMem, prevMem⟩ := neighbours ring mem
  have notItem : x ≠ item := fun same => outside (same ▸ List.mem_cons_of_mem _ mem)
  have notNext : x ≠ L.next item := fun same => outside (same ▸ nextMem)
  have notPrev : x ≠ L.prev item := fun same => outside (same ▸ prevMem)
  rw [listDelete_eq next]
  constructor
  · rw [(listClearNode_other _ notItem).1, Links.prev_setNext, Links.prev_setPrev_of_ne _ notNext]
  · rw [(listClearNode_other _ notItem).2, Links.next_setNext_of_ne _ notPrev, Links.next_setPrev]

theorem listForEvery_chain {β : Type} {a fuel : Nat} (body : Nat → Option β)
    (chain : Chain L a xs list) (fresh : list ∉ xs) (enough : xs.length < fuel) :
    listForEvery L list body fuel (L.next a) = some (xs.findSome? body) := by
  induction xs generalizing a fuel with
  | nil =>
    obtain ⟨fuel, rfl⟩ := Nat.exists_eq_succ_of_ne_zero (Nat.ne_of_gt enough)
    rw [chain.1, listForEvery, if_pos rfl]
    rfl
  | cons x xs ih =>
    obtain ⟨next, -, rest⟩ := chain
    obtain ⟨fuel, rfl⟩ := Nat.exists_eq_succ_of_ne_zero (Nat.ne_of_gt (Nat.zero_lt_of_lt enough))
    have inner : x ≠ list := fun same => fresh (same ▸ List.mem_cons_self)
    have shorter : xs.length < fuel := Nat.lt_of_succ_lt_succ enough
    rw [next, listForEvery, if_neg inner, List.findSome?_cons]
    cases body x with
    | some r => rfl
    | none => exact ih rest (fun mem => fresh (List.mem_cons_of_mem _ mem)) shorter

theorem listForEvery_ring {β : Type} {fuel : Nat} (body : Nat → Option β) (ring : Ring L list xs)
    (enough : xs.length < fuel) : listForEvery L list body fuel (L.next list) = some (xs.findSome? body) :=
  listForEvery_chain body ring.chain ring.fresh enough

end

end Cboot.Utils
