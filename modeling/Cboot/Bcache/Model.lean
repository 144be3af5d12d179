import Mathlib.Data.List.Perm.Basic
import Cboot.Lib.ByteMemory
import Cboot.Utils.List

/-!
`lib/bcache/bcache.c`. The blocks of the cache are in one of two lists: those that were never used, and the
others, with the one that was used last at the end. A block that is needed for another number is written to
the device first if it is dirty. There is no answer where a walk through a list does not come to an end or
leaves the blocks of the cache, and where an assertion fails.
-/

namespace Cboot.Bcache
open Lib Utils

/-- `struct bcache_block`, without its node. `content` is the number that the data were read or cleared for,
which the source does not keep. -/
structure Block where
  blocknum : UInt32
  refCount : Nat
  isDirty : Bool
  data : List UInt8
  content : Option UInt32

def freeList : Nat := 1
def lruList : Nat := 2
def node (i : Nat) : Nat := i + 3

/-- `struct bcache`. -/
structure Cache where
  blockSize : Nat
  count : Nat
  fsOffset : Nat
  links : Links Nat
  blocks : Nat → Block

structure Device (σ : Type) where
  read : Nat → Nat → σ → (Bool × List UInt8) × σ
  write : Nat → List UInt8 → σ → Bool × σ

structure State (σ : Type) where
  cache : Cache
  dev : σ

section
variable {σ : Type}

def Cache.setBlock (c : Cache) (i : Nat) (b : Block) : Cache :=
  { c with blocks := Function.update c.blocks i b }

def State.setBlock (s : State σ) (i : Nat) (b : Block) : State σ := { s with cache := s.cache.setBlock i b }

/-- The links once the first `k` blocks are on the free list, the last one in front. -/
def createLinks (k : Nat) : Links Nat :=
  (List.range k).foldl (fun L i => listAddHead L freeList (node i))
    (listInitialize (listInitialize ⟨fun _ => 0, fun _ => 0⟩ freeList) lruList)

def bcacheCreate (blockSize count fsOffset : Nat) (uninit : Nat → Block) : Cache where
  blockSize := blockSize
  count := count
  fsOffset := fsOffset
  links := createLinks count
  blocks i := { uninit i with refCount := 0, isDirty := false, content := none }

def writePosition (c : Cache) (blocknum : UInt32) : Nat := blocknum.toNat * c.blockSize % 2 ^ 64
def readPosition (c : Cache) (blocknum : UInt32) : Nat :=
  (c.fsOffset + blocknum.toNat * c.blockSize % 2 ^ 64) % 2 ^ 64

def flushBlock (d : Device σ) (i : Nat) (s : State σ) : Bool × State σ :=
  let block := s.cache.blocks i
  let written := d.write (writePosition s.cache block.blocknum) block.data s.dev
  if written.1 then (true, { s.setBlock i { block with isDirty := false } with dev := written.2 })
  else (false, { s with dev := written.2 })

def walk (c : Cache) (p : Block → Bool) : Option (Option Nat) :=
  let body (entry : Nat) : Option (Option Nat) :=
    if entry < node 0 then some none
    else if p (c.blocks (entry - node 0)) then some (some (entry - node 0))
    else none
  match listForEvery c.links lruList body (c.count + 3) (c.links.next lruList) with
  | none => none
  | some none => some none
  | some (some none) => none
  | some (some (some i)) => some (some i)

def Cache.moveToTail (c : Cache) (i : Nat) : Cache :=
  { c with links := listAddTail (listDelete c.links (node i)) lruList (node i) }

def findBlock (blocknum : UInt32) (c : Cache) : Option (Option Nat × Cache) :=
  match walk c fun block => block.blocknum = blocknum with
  | none => none
  | some none => some (none, c)
  | some (some i) => some (some i, c.moveToTail i)

/-- The part of `alloc_block` for an empty free list. -/
def evictBlock (d : Device σ) (s : State σ) : Option (Option Nat × State σ) :=
  match walk s.cache fun block => block.refCount = 0 with
  | none => none
  | some none => some (none, s)
  | some (some i) =>
    if (s.cache.blocks i).isDirty then
      match flushBlock d i s with
      | (false, s) => some (none, s)
      | (true, s) => some (some i, { s with cache := s.cache.moveToTail i })
    else some (some i, { s with cache := s.cache.moveToTail i })

def allocBlock (d : Device σ) (s : State σ) : Option (Option Nat × State σ) :=
  match listRemoveHead s.cache.links freeList with
  | (none, _) => evictBlock d s
  | (some item, links) =>
    if item < node 0 then none
    else
      let i := item - node 0
      let cache := { s.cache with links := listAddTail links lruList item }
      some (some i, { s with cache := cache.setBlock i { cache.blocks i with refCount := 0 } })

/-- A block that was allocated is read for `blocknum`. -/
def fillBlock (d : Device σ) (blocknum : UInt32) (i : Nat) (s : State σ) : Option Nat × State σ :=
  let filled := d.read (readPosition s.cache blocknum) s.cache.blockSize s.dev
  let block := { s.cache.blocks i with blocknum := blocknum, data := filled.1.2 }
  if filled.1.1 then
    (some i, { s.setBlock i { block with content := some blocknum } with dev := filled.2 })
  else
    let cache := s.cache.setBlock i { block with content := none }
    (none, { cache := { cache with links := listAddTail cache.links freeList (node i) }, dev := filled.2 })

def findOrFillBlock (d : Device σ) (blocknum : UInt32) (s : State σ) : Option (Option Nat × State σ) :=
  match findBlock blocknum s.cache with
  | none => none
  | some (some i, cache) => some (some i, { s with cache := cache })
  | some (none, cache) =>
    match allocBlock d { s with cache := cache } with
    | none => none
    | some (none, _) => none
    | some (some i, s) => some (fillBlock d blocknum i s)

inductive Op where
  | readBlock (blocknum : UInt32)
  | getBlock (blocknum : UInt32)
  | edit (i : Nat) (data : List UInt8)
  | putBlock (blocknum : UInt32)
  | markBlockDirty (blocknum : UInt32)
  | zeroBlock (blocknum : UInt32)
  | flush

inductive Answer where
  | data (bytes : List UInt8)
  | block (i : Nat)
  | done
  | failed

def bcacheReadBlock (d : Device σ) (blocknum : UInt32) (s : State σ) : Option (Answer × State σ) :=
  match findOrFillBlock d blocknum s with
  | none => none
  | some (none, s) => some (.failed, s)
  | some (some i, s) => some (.data (s.cache.blocks i).data, s)

def bcacheGetBlock (d : Device σ) (blocknum : UInt32) (s : State σ) : Option (Answer × State σ) :=
  match findOrFillBlock d blocknum s with
  | none => none
  | some (none, s) => some (.failed, s)
  | some (some i, s) =>
    let block := s.cache.blocks i
    some (.block i, s.setBlock i { block with refCount := block.refCount + 1 })

def bcachePutBlock (blocknum : UInt32) (s : State σ) : Option (Answer × State σ) :=
  match findBlock blocknum s.cache with
  | none => none
  | some (none, _) => none
  | some (some i, cache) =>
    let block := cache.blocks i
    if block.refCount = 0 then none
    else some (.done, { s with cache := cache.setBlock i { block with refCount := block.refCount - 1 } })

def bcacheMarkBlockDirty (blocknum : UInt32) (s : State σ) : Option (Answer × State σ) :=
  match findBlock blocknum s.cache with
  | none => none
  | some (none, cache) => some (.failed, { s with cache := cache })
  | some (some i, cache) =>
    some (.done, { s with cache := cache.setBlock i { cache.blocks i with isDirty := true } })

def clearBlock (blocknum : UInt32) (i : Nat) (s : State σ) : State σ :=
  s.setBlock i { s.cache.blocks i with
    blocknum := blocknum
    isDirty := true
    data := List.replicate s.cache.blockSize 0
    content := some blocknum }

def bcacheZeroBlock (d : Device σ) (blocknum : UInt32) (s : State σ) : Option (Answer × State σ) :=
  match findBlock blocknum s.cache with
  | none => none
  | some (some i, cache) => some (.done, clearBlock blocknum i { s with cache := cache })
  | some (none, cache) =>
    match allocBlock d { s with cache := cache } with
    | none => none
    | some (none, s) => some (.failed, s)
    | some (some i, s) => some (.done, clearBlock blocknum i s)

/-- The loop of `bcache_flush`, at `entry`. -/
def flushFrom (d : Device σ) : Nat → Nat → State σ → Option (Answer × State σ)
  | 0, _, _ => none
  | fuel + 1, entry, s =>
    if entry = lruList then some (.done, s)
    else if entry < node 0 then none
    else if (s.cache.blocks (entry - node 0)).isDirty then
      match flushBlock d (entry - node 0) s with
      | (false, s) => some (.failed, s)
      | (true, s) => flushFrom d fuel (s.cache.links.next entry) s
    else flushFrom d fuel (s.cache.links.next entry) s

def bcacheFlush (d : Device σ) (s : State σ) : Option (Answer × State σ) :=
  flushFrom d (s.cache.count + 3) (s.cache.links.next lruList) s

def step (d : Device σ) (op : Op) (s : State σ) : Option (Answer × State σ) :=
  match op with
  | .readBlock n => bcacheReadBlock d n s
  | .getBlock n => bcacheGetBlock d n s
  | .edit i data =>
    if i < s.cache.count ∧ 0 < (s.cache.blocks i).refCount ∧ data.length = s.cache.blockSize then
      some (.done, s.setBlock i { s.cache.blocks i with data := data })
    else none
  | .putBlock n => bcachePutBlock n s
  | .markBlockDirty n => bcacheMarkBlockDirty n s
  | .zeroBlock n => bcacheZeroBlock d n s
  | .flush => bcacheFlush d s

end

section

structure Lists (c : Cache) (free lru : List Nat) : Prop where
  freeRing : Ring c.links freeList (free.map node)
  lruRing : Ring c.links lruList (lru.map node)
  all : (free ++ lru).Perm (List.range c.count)

variable {c : Cache} {free lru : List Nat} {i : Nat}

theorem node_injective : Function.Injective node := fun _ _ same => Nat.add_right_cancel same

@[simp] theorem node_ne_freeList (i : Nat) : node i ≠ freeList := by
  unfold node freeList
  omega

@[simp] theorem node_ne_lruList (i : Nat) : node i ≠ lruList := by
  unfold node lruList
  omega

theorem freeList_ne_lruList : freeList ≠ lruList := by decide

@[simp] theorem node_sub (i : Nat) : node i - node 0 = i := by
  unfold node
  omega

@[simp] theorem not_node_lt (i : Nat) : ¬ node i < node 0 := by
  unfold node
  omega

theorem mem_map_node {xs : List Nat} : node i ∈ xs.map node ↔ i ∈ xs :=
  List.mem_map_of_injective node_injective

theorem not_mem_free_ring (apart : i ∉ free) : node i ∉ freeList :: free.map node := by
  intro mem
  obtain head | inside := List.mem_cons.mp mem
  · exact node_ne_freeList i head
  · exact apart (mem_map_node.mp inside)

theorem not_mem_lru_ring (apart : i ∉ lru) : node i ∉ lruList :: lru.map node := by
  intro mem
  obtain head | inside := List.mem_cons.mp mem
  · exact node_ne_lruList i head
  · exact apart (mem_map_node.mp inside)

theorem erase_map_node (xs : List Nat) (i : Nat) : (xs.map node).erase (node i) = (xs.erase i).map node :=
  (List.map_erase node_injective xs).symm

theorem Lists.removeHead_nil (lists : Lists c [] lru) : listRemoveHead c.links freeList = (none, c.links) := by
  have empty : c.links.next freeList = freeList := lists.freeRing.chain.1
  rw [listRemoveHead, empty, if_neg (not_not.mpr rfl)]

theorem Lists.removeHead_cons (lists : Lists c (i :: free) lru) :
    listRemoveHead c.links freeList = (some (node i), listDelete c.links (node i)) := by
  have first : c.links.next freeList = node i := lists.freeRing.chain.1
  rw [listRemoveHead, first, if_pos (node_ne_freeList i)]

variable (lists : Lists c free lru)
include lists

theorem Lists.nodup : (free ++ lru).Nodup :=
  lists.all.nodup_iff.mpr List.nodup_range

theorem Lists.apart (inside : i ∈ lru) : i ∉ free := by
  intro other
  exact (List.nodup_append.mp lists.nodup).2.2 i other i inside rfl

theorem Lists.lru_nodup : lru.Nodup := (List.nodup_append.mp lists.nodup).2.1

theorem Lists.free_outside {x : Nat} (mem : x ∈ freeList :: free.map node) :
    x ∉ lruList :: lru.map node := by
  intro other
  obtain rfl | inside := List.mem_cons.mp mem
  · obtain head | inside := List.mem_cons.mp other
    · exact freeList_ne_lruList head
    · obtain ⟨j, -, same⟩ := List.mem_map.mp inside
      exact node_ne_freeList j same
  · obtain ⟨j, free, rfl⟩ := List.mem_map.mp inside
    exact not_mem_lru_ring (fun lru => lists.apart lru free) other

theorem Lists.congr {c' : Cache} (links : c'.links = c.links)
    (count : c'.count = c.count) : Lists c' free lru := by
  obtain ⟨freeRing, lruRing, all⟩ := lists
  exact ⟨by rw [links]; exact freeRing, by rw [links]; exact lruRing, by rw [count]; exact all⟩

theorem Lists.moveToTail (inside : i ∈ lru) :
    Lists (c.moveToTail i) free (lru.erase i ++ [i]) := by
  have mem : node i ∈ lru.map node := mem_map_node.mpr inside
  have deleted := ring_listDelete lists.lruRing mem
  rw [erase_map_node] at deleted
  have gone : i ∉ lru.erase i := lists.lru_nodup.not_mem_erase
  have new : node i ∉ lruList :: (lru.erase i).map node := not_mem_lru_ring gone
  refine ⟨lists.freeRing.congr ?_, ?_, ?_⟩
  · intro x member
    have outside := lists.free_outside member
    have notItem : x ≠ node i := fun same => outside (same ▸ List.mem_cons_of_mem _ mem)
    have outside' : x ∉ lruList :: (lru.erase i).map node := by
      intro other
      apply outside
      obtain head | rest := List.mem_cons.mp other
      · exact List.mem_cons.mpr (Or.inl head)
      · exact List.mem_cons_of_mem _ (List.map_subset node (List.erase_subset) rest)
    obtain ⟨prev, next⟩ := listDelete_outside lists.lruRing mem outside
    obtain ⟨prev', next'⟩ := listAddTail_outside deleted new notItem outside'
    exact ⟨prev'.trans prev, next'.trans next⟩
  · have added := ring_listAddTail deleted new
    rw [List.map_append]
    exact added
  · refine List.Perm.trans ?_ lists.all
    apply List.Perm.append_left
    exact (List.perm_append_singleton i _).trans (List.perm_cons_erase inside).symm

omit lists in
theorem Lists.use (lists : Lists c (i :: free) lru) :
    Lists { c with links := listAddTail (listDelete c.links (node i)) lruList (node i) } free (lru ++ [i]) := by
  have mem : node i ∈ (i :: free).map node := List.mem_cons_self
  have deleted := ring_listDelete lists.freeRing mem
  rw [List.map_cons, List.erase_cons_head] at deleted
  have apart : i ∉ lru := fun inside => lists.apart inside List.mem_cons_self
  have fresh : i ∉ free := (List.nodup_cons.mp (List.nodup_append.mp lists.nodup).1).1
  have kept : Ring (listDelete c.links (node i)) lruList (lru.map node) := by
    apply lists.lruRing.congr
    intro x member
    exact listDelete_outside lists.freeRing mem fun other => lists.free_outside other member
  have new := not_mem_lru_ring apart
  refine ⟨deleted.congr ?_, ?_, ?_⟩
  · intro x member
    have notItem : x ≠ node i := fun same => not_mem_free_ring fresh (same ▸ member)
    have wider : x ∈ freeList :: (i :: free).map node := by
      obtain head | rest := List.mem_cons.mp member
      · exact List.mem_cons.mpr (Or.inl head)
      · exact List.mem_cons_of_mem _ (List.mem_cons_of_mem _ rest)
    exact listAddTail_outside kept new notItem (lists.free_outside wider)
  · rw [List.map_append]
    exact ring_listAddTail kept new
  · refine List.Perm.trans ?_ lists.all
    rw [← List.append_assoc]
    exact List.perm_append_singleton i (free ++ lru)

theorem Lists.lru_length : lru.length ≤ c.count := by
  have length := lists.all.length_eq
  rw [List.length_append, List.length_range] at length
  omega

theorem walk_eq (p : Block → Bool) :
    walk c p = some (lru.find? fun i => p (c.blocks i)) := by
  have enough : (lru.map node).length < c.count + 3 := by
    rw [List.length_map]
    have := lists.lru_length
    omega
  unfold walk
  simp only [listForEvery_ring _ lists.lruRing enough]
  have visited : ∀ xs : List Nat, (xs.map node).findSome? (fun entry =>
      if entry < node 0 then some none
      else if p (c.blocks (entry - node 0)) then some (some (entry - node 0)) else none) =
      (xs.find? fun i => p (c.blocks i)).map some := by
    intro xs
    induction xs with
    | nil => rfl
    | cons i xs ih =>
      cases found : p (c.blocks i) with
      | true => simp [found]
      | false => simpa [found] using ih
  rw [visited]
  cases lru.find? fun i => p (c.blocks i) with
  | none => rfl
  | some i => rfl

omit lists

theorem create_rings (k : Nat) :
    Ring (createLinks k) freeList ((List.range k).reverse.map node) ∧ Ring (createLinks k) lruList [] := by
  induction k with
  | zero =>
    refine ⟨?_, ring_listInitialize _ _⟩
    apply (ring_listInitialize ⟨fun _ => 0, fun _ => 0⟩ freeList).congr
    intro x member
    obtain rfl := List.mem_singleton.mp member
    exact ⟨rfl, rfl⟩
  | succ k ih =>
    obtain ⟨free, lru⟩ := ih
    have new : node k ∉ freeList :: (List.range k).reverse.map node := by
      apply not_mem_free_ring
      simp
    rw [createLinks, List.range_succ, List.foldl_append, List.reverse_append]
    refine ⟨ring_listAddHead free new, lru.congr ?_⟩
    intro x member
    obtain rfl := List.mem_singleton.mp member
    apply listAddHead_outside free new (node_ne_lruList k).symm
    intro inside
    obtain head | rest := List.mem_cons.mp inside
    · exact freeList_ne_lruList head.symm
    · obtain ⟨j, -, same⟩ := List.mem_map.mp rest
      exact node_ne_lruList j same

theorem lists_create (blockSize count fsOffset : Nat) (uninit : Nat → Block) :
    Lists (bcacheCreate blockSize count fsOffset uninit) (List.range count).reverse [] := by
  obtain ⟨free, lru⟩ := create_rings count
  refine ⟨free, lru, ?_⟩
  rw [List.append_nil]
  exact List.reverse_perm _

end

end Cboot.Bcache
