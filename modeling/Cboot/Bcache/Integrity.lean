import Cboot.Bcache.Model
import Cboot.Lib.Runs

/-!
The cache stays intact as long as no read fails. A block whose read fails is put on the free list while it
is still in the list of used ones, which breaks both.
-/

namespace Cboot.Bcache
open Lib Utils

section
variable {σ : Type} {c : Cache} {s t : State σ} {free lru : List Nat} {i : Nat} {n : UInt32} (d : Device σ)

theorem findBlock_cases (lists : Lists c free lru) (n : UInt32) :
    (∃ i ∈ lru, (c.blocks i).blocknum = n ∧ findBlock n c = some (some i, c.moveToTail i)) ∨
      ((∀ i ∈ lru, (c.blocks i).blocknum ≠ n) ∧ findBlock n c = some (none, c)) := by
  unfold findBlock
  rw [walk_eq lists]
  cases found : lru.find? fun i => decide ((c.blocks i).blocknum = n) with
  | none =>
    right
    refine ⟨?_, rfl⟩
    intro i inside
    simpa using List.find?_eq_none.mp found i inside
  | some i =>
    left
    exact ⟨i, List.mem_of_find?_eq_some found, by simpa using List.find?_some found, rfl⟩

structure SameShape (c c' : Cache) : Prop where
  blockSize : c'.blockSize = c.blockSize
  count : c'.count = c.count
  fsOffset : c'.fsOffset = c.fsOffset

/-- What an allocation does. A block that is taken from the other list is written if it is dirty. -/
inductive Allocated (s : State σ) (free lru : List Nat) : Option Nat → State σ → Prop
  | unused {i : Nat} {rest : List Nat} {t : State σ} (first : free = i :: rest)
      (lists : Lists t.cache rest (lru ++ [i])) (shape : SameShape s.cache t.cache)
      (blocks : t.cache.blocks = Function.update s.cache.blocks i { s.cache.blocks i with refCount := 0 })
      (dev : t.dev = s.dev) : Allocated s free lru (some i) t
  | clean {i : Nat} {t : State σ} (empty : free = []) (inside : i ∈ lru) (unused : (s.cache.blocks i).refCount = 0)
      (clean : (s.cache.blocks i).isDirty = false) (lists : Lists t.cache [] (lru.erase i ++ [i]))
      (shape : SameShape s.cache t.cache) (blocks : t.cache.blocks = s.cache.blocks) (dev : t.dev = s.dev) :
      Allocated s free lru (some i) t
  | flushed {i : Nat} {t u : State σ} (empty : free = []) (inside : i ∈ lru)
      (unused : (s.cache.blocks i).refCount = 0) (dirty : (s.cache.blocks i).isDirty = true)
      (written : flushBlock d i s = (true, u)) (lists : Lists t.cache [] (lru.erase i ++ [i]))
      (shape : SameShape s.cache t.cache) (blocks : t.cache.blocks = u.cache.blocks) (dev : t.dev = u.dev) :
      Allocated s free lru (some i) t
  | unwritten {i : Nat} {t : State σ} (inside : i ∈ lru) (dirty : (s.cache.blocks i).isDirty = true)
      (failed : flushBlock d i s = (false, t)) : Allocated s free lru none t
  | allUsed (empty : free = []) (used : ∀ i ∈ lru, (s.cache.blocks i).refCount ≠ 0) : Allocated s free lru none s

theorem flushBlock_true (written : flushBlock d i s = (true, t)) :
    d.write (writePosition s.cache (s.cache.blocks i).blocknum) (s.cache.blocks i).data s.dev = (true, t.dev) ∧
      t.cache = s.cache.setBlock i { s.cache.blocks i with isDirty := false } := by
  unfold flushBlock at written
  cases result : d.write (writePosition s.cache (s.cache.blocks i).blocknum) (s.cache.blocks i).data s.dev with
  | mk ok dev =>
    cases ok with
    | true =>
      simp only [result, if_true] at written
      cases written
      exact ⟨rfl, rfl⟩
    | false => simp [result] at written

theorem flushBlock_false (failed : flushBlock d i s = (false, t)) : t.cache = s.cache := by
  unfold flushBlock at failed
  cases result : d.write (writePosition s.cache (s.cache.blocks i).blocknum) (s.cache.blocks i).data s.dev with
  | mk ok dev =>
    cases ok with
    | true => simp [result] at failed
    | false =>
      simp only [result] at failed
      cases failed
      rfl

theorem allocBlock_cases (lists : Lists s.cache free lru) :
    ∃ r t, allocBlock d s = some (r, t) ∧ Allocated d s free lru r t := by
  unfold allocBlock
  cases free with
  | cons i rest =>
    rw [lists.removeHead_cons]
    simp only [not_node_lt, if_false, node_sub]
    exact ⟨_, _, rfl, .unused rfl (lists.use.congr rfl rfl) ⟨rfl, rfl, rfl⟩ rfl rfl⟩
  | nil =>
    rw [lists.removeHead_nil]
    simp only [evictBlock]
    rw [walk_eq lists]
    cases found : lru.find? fun i => decide ((s.cache.blocks i).refCount = 0) with
    | none =>
      refine ⟨_, _, rfl, .allUsed rfl ?_⟩
      intro i inside
      simpa using List.find?_eq_none.mp found i inside
    | some i =>
      have inside := List.mem_of_find?_eq_some found
      have unused : (s.cache.blocks i).refCount = 0 := by simpa using List.find?_some found
      cases dirty : (s.cache.blocks i).isDirty with
      | false =>
        simp only [dirty]
        exact ⟨_, _, rfl, .clean rfl inside unused dirty (lists.moveToTail inside) ⟨rfl, rfl, rfl⟩ rfl rfl⟩
      | true =>
        simp only [dirty, if_true]
        cases written : flushBlock d i s with
        | mk ok u =>
          cases ok with
          | false => exact ⟨_, _, rfl, .unwritten inside dirty written⟩
          | true =>
            have cache := (flushBlock_true d written).2
            have lists' : Lists u.cache [] lru := lists.congr (by rw [cache]; rfl) (by rw [cache]; rfl)
            refine ⟨_, _, rfl, .flushed rfl inside unused dirty written (lists'.moveToTail inside) ?_ rfl rfl⟩
            simp only [cache]
            exact ⟨rfl, rfl, rfl⟩

/-- The blocks in use are of different numbers, and each holds what was read or cleared for its number. -/
structure Valid (c : Cache) (free lru : List Nat) : Prop where
  lists : Lists c free lru
  distinct : ∀ i ∈ lru, ∀ j ∈ lru, (c.blocks i).blocknum = (c.blocks j).blocknum → i = j
  filled : ∀ i ∈ lru, (c.blocks i).content = some (c.blocks i).blocknum

def Intact (c : Cache) : Prop := ∃ free lru, Valid c free lru

structure Taken (c : Cache) (i : Nat) (free rest : List Nat) : Prop where
  lists : Lists c free (rest ++ [i])
  distinct : ∀ j ∈ rest, ∀ k ∈ rest, (c.blocks j).blocknum = (c.blocks k).blocknum → j = k
  filled : ∀ j ∈ rest, (c.blocks j).content = some (c.blocks j).blocknum

theorem Valid.moveToTail (valid : Valid c free lru) (inside : i ∈ lru) :
    Valid (c.moveToTail i) free (lru.erase i ++ [i]) := by
  have back : ∀ {j}, j ∈ lru.erase i ++ [i] → j ∈ lru := by
    intro j member
    obtain rest | last := List.mem_append.mp member
    · exact List.mem_of_mem_erase rest
    · rw [List.mem_singleton.mp last]
      exact inside
  exact ⟨valid.lists.moveToTail inside, fun j mem k mem' => valid.distinct j (back mem) k (back mem'),
    fun j mem => valid.filled j (back mem)⟩

theorem Valid.setBlock (valid : Valid c free lru) {b : Block} (number : b.blocknum = (c.blocks i).blocknum)
    (content : b.content = (c.blocks i).content) : Valid (c.setBlock i b) free lru := by
  have numbers : ∀ j, ((c.setBlock i b).blocks j).blocknum = (c.blocks j).blocknum := by
    intro j
    by_cases same : j = i
    · subst same
      simp [Cache.setBlock, number]
    · simp [Cache.setBlock, same]
  have contents : ∀ j, ((c.setBlock i b).blocks j).content = (c.blocks j).content := by
    intro j
    by_cases same : j = i
    · subst same
      simp [Cache.setBlock, content]
    · simp [Cache.setBlock, same]
  refine ⟨valid.lists.congr rfl rfl, ?_, ?_⟩
  · intro j mem k mem' same
    rw [numbers, numbers] at same
    exact valid.distinct j mem k mem' same
  · intro j mem
    rw [numbers, contents]
    exact valid.filled j mem

variable {rest : List Nat}

theorem Taken.not_mem (taken : Taken c i free rest) : i ∉ rest := by
  intro member
  exact (List.nodup_append.mp taken.lists.lru_nodup).2.2 i member i List.mem_cons_self rfl

theorem Taken.setBlock (taken : Taken c i free rest)
    (new : ∀ j ∈ rest, (c.blocks j).blocknum ≠ n) {b : Block} (number : b.blocknum = n)
    (content : b.content = some n) : Valid (c.setBlock i b) free (rest ++ [i]) := by
  have here : (c.setBlock i b).blocks i = b := by simp [Cache.setBlock]
  have there : ∀ j ∈ rest, (c.setBlock i b).blocks j = c.blocks j := by
    intro j member
    have other : j ≠ i := fun same => taken.not_mem (same ▸ member)
    simp [Cache.setBlock, other]
  refine ⟨taken.lists.congr rfl rfl, ?_, ?_⟩
  · intro j mem k mem' same
    obtain left | left := List.mem_append.mp mem
    · obtain right | right := List.mem_append.mp mem'
      · rw [there j left, there k right] at same
        exact taken.distinct j left k right same
      · rw [List.mem_singleton.mp right, here, there j left, number] at same
        exact absurd same (new j left)
    · obtain right | right := List.mem_append.mp mem'
      · rw [List.mem_singleton.mp left, here, there k right, number] at same
        exact absurd same.symm (new k right)
      · rw [List.mem_singleton.mp left, List.mem_singleton.mp right]
  · intro j mem
    obtain left | left := List.mem_append.mp mem
    · rw [there j left]
      exact taken.filled j left
    · rw [List.mem_singleton.mp left, here, number]
      exact content

theorem Valid.taken {rest free' : List Nat} {c' : Cache} (valid : Valid c free lru)
    (lists : Lists c' free' (rest ++ [i])) (old : ∀ j ∈ rest, j ∈ lru)
    (same : ∀ j ∈ rest, c'.blocks j = c.blocks j) : Taken c' i free' rest := by
  refine ⟨lists, ?_, ?_⟩
  · intro j mem k mem' number
    rw [same j mem, same k mem'] at number
    exact valid.distinct j (old j mem) k (old k mem') number
  · intro j mem
    rw [same j mem]
    exact valid.filled j (old j mem)

theorem Allocated.outcome {r : Option Nat} (allocated : Allocated d s free lru r t) (valid : Valid s.cache free lru) :
    (r = none ∧ Valid t.cache free lru) ∨ ∃ i free' rest, r = some i ∧ Taken t.cache i free' rest ∧
        ∀ j ∈ rest, j ∈ lru ∧ t.cache.blocks j = s.cache.blocks j := by
  cases allocated with
  | @unused i rest _ first lists shape blocks dev =>
    right
    have fresh : ∀ j ∈ lru, j ≠ i := by
      intro j member same
      rw [same] at member
      exact valid.lists.apart member (first ▸ List.mem_cons_self)
    have same : ∀ j ∈ lru, t.cache.blocks j = s.cache.blocks j := by
      intro j member
      rw [blocks]
      exact Function.update_of_ne (fresh j member) _ _
    exact ⟨i, rest, lru, rfl, valid.taken lists (fun _ mem => mem) same, fun j mem => ⟨mem, same j mem⟩⟩
  | @clean i _ empty inside unused clean lists shape blocks dev =>
    right
    have same : ∀ j ∈ lru.erase i, t.cache.blocks j = s.cache.blocks j := by
      intro j _
      rw [blocks]
    exact ⟨i, [], lru.erase i, rfl, valid.taken lists (fun _ => List.mem_of_mem_erase) same,
      fun j mem => ⟨List.mem_of_mem_erase mem, same j mem⟩⟩
  | @flushed i _ u empty inside unused dirty written lists shape blocks dev =>
    right
    have same : ∀ j ∈ lru.erase i, t.cache.blocks j = s.cache.blocks j := by
      intro j member
      have other : j ≠ i := by
        intro here
        rw [here] at member
        exact valid.lists.lru_nodup.not_mem_erase member
      rw [blocks, (flushBlock_true d written).2]
      exact Function.update_of_ne other _ _
    exact ⟨i, [], lru.erase i, rfl, valid.taken lists (fun _ => List.mem_of_mem_erase) same,
      fun j mem => ⟨List.mem_of_mem_erase mem, same j mem⟩⟩
  | unwritten inside dirty failed =>
    left
    rw [flushBlock_false d failed]
    exact ⟨rfl, valid⟩
  | allUsed empty used => exact Or.inl ⟨rfl, valid⟩

theorem not_intact_of_failed (taken : Taken c i free rest) (b : Block) :
    ¬ Intact { c.setBlock i b with links := listAddTail c.links freeList (node i) } := by
  intro intact
  obtain ⟨free', lru', valid⟩ := intact
  have last : c.links.prev lruList = node i := by
    have chain := taken.lists.lruRing.chain
    rw [List.map_append] at chain
    exact (chain_append.mp chain).2.2
  have lruPrev : (listAddTail c.links freeList (node i)).prev lruList = node i := by
    rw [listAddTail_eq (node_ne_freeList i), Links.prev_setPrev_of_ne _ freeList_ne_lruList.symm, Links.prev_setNext,
      Links.prev_setNext, Links.prev_setPrev_of_ne _ (node_ne_lruList i).symm, last]
  have freePrev : (listAddTail c.links freeList (node i)).prev freeList = node i := by
    rw [listAddTail_eq (node_ne_freeList i), Links.prev_setPrev_self]
  have inFree : i ∈ free' := by
    have member := chain_prev_mem valid.lists.freeRing.chain
    rw [freePrev] at member
    exact mem_map_node.mp ((List.mem_cons.mp member).resolve_left (node_ne_freeList i))
  have inLru : i ∈ lru' := by
    have member := chain_prev_mem valid.lists.lruRing.chain
    rw [lruPrev] at member
    exact mem_map_node.mp ((List.mem_cons.mp member).resolve_left (node_ne_lruList i))
  exact valid.lists.apart inLru inFree

def readFails (n : UInt32) (s : State σ) : Bool :=
  !(d.read (readPosition s.cache n) s.cache.blockSize s.dev).1.1

def filledBlock (n : UInt32) (i : Nat) (s : State σ) (content : Option UInt32) : Block :=
  { s.cache.blocks i with
    blocknum := n
    data := (d.read (readPosition s.cache n) s.cache.blockSize s.dev).1.2
    content := content }

theorem fillBlock_of_read (read : readFails d n s = false) : fillBlock d n i s =
    (some i, ⟨s.cache.setBlock i (filledBlock d n i s (some n)),
      (d.read (readPosition s.cache n) s.cache.blockSize s.dev).2⟩) := by
  have ok : (d.read (readPosition s.cache n) s.cache.blockSize s.dev).1.1 = true := by
    simpa [readFails] using read
  simp only [fillBlock, ok, if_true]
  rfl

theorem fillBlock_of_failed (failed : readFails d n s = true) : fillBlock d n i s =
    (none, ⟨{ s.cache.setBlock i (filledBlock d n i s none) with
        links := listAddTail s.cache.links freeList (node i) },
      (d.read (readPosition s.cache n) s.cache.blockSize s.dev).2⟩) := by
  have bad : (d.read (readPosition s.cache n) s.cache.blockSize s.dev).1.1 = false := by
    simpa [readFails] using failed
  simp only [fillBlock, bad]
  rfl

/-- Whether block `n` has to be read, and the read fails. -/
def missFails (n : UInt32) (s : State σ) : Bool :=
  match findBlock n s.cache with
  | some (none, cache) =>
    match allocBlock d { s with cache := cache } with
    | some (some _, s) => readFails d n s
    | _ => false
  | _ => false

def fillFails (op : Op) (s : State σ) : Bool :=
  match op with
  | .readBlock n => missFails d n s
  | .getBlock n => missFails d n s
  | _ => false

/-- What `find_or_fill_block` does: the block is there, or one is filled, or there is none to be had. -/
inductive Found (n : UInt32) (s : State σ) (free lru : List Nat) : Option (Option Nat × State σ) → Prop
  | hit {i : Nat} (inside : i ∈ lru) (number : (s.cache.blocks i).blocknum = n)
      (found : findBlock n s.cache = some (some i, s.cache.moveToTail i)) :
      Found n s free lru (some (some i, { s with cache := s.cache.moveToTail i }))
  | miss {i : Nat} {u : State σ} (new : ∀ j ∈ lru, (s.cache.blocks j).blocknum ≠ n)
      (missing : findBlock n s.cache = some (none, s.cache)) (alloc : allocBlock d s = some (some i, u))
      (allocated : Allocated d s free lru (some i) u) : Found n s free lru (some (fillBlock d n i u))
  | full {u : State σ} (new : ∀ j ∈ lru, (s.cache.blocks j).blocknum ≠ n)
      (missing : findBlock n s.cache = some (none, s.cache)) (alloc : allocBlock d s = some (none, u))
      (allocated : Allocated d s free lru none u) : Found n s free lru none

theorem findOrFillBlock_found (lists : Lists s.cache free lru) (n : UInt32) :
    Found d n s free lru (findOrFillBlock d n s) := by
  unfold findOrFillBlock
  obtain ⟨i, inside, number, found⟩ | ⟨new, missing⟩ := findBlock_cases lists n
  · rw [found]
    exact .hit inside number found
  · rw [missing]
    obtain ⟨r, u, alloc, allocated⟩ := allocBlock_cases d lists
    simp only [alloc]
    cases r with
    | none => exact .full new missing alloc allocated
    | some i => exact .miss new missing alloc allocated

theorem findOrFillBlock_intact (valid : Valid s.cache free lru) {r : Option Nat}
    (result : findOrFillBlock d n s = some (r, t)) :
    (∃ i free' lru', r = some i ∧ i ∈ lru' ∧ Valid t.cache free' lru' ∧ missFails d n s = false) ∨
      (r = none ∧ ¬ Intact t.cache ∧ missFails d n s = true) := by
  have found := findOrFillBlock_found d valid.lists n
  rw [result] at found
  generalize outcome : some (r, t) = o at found
  cases found with
  | hit inside number found =>
    have fails : missFails d n s = false := by simp [missFails, found]
    cases outcome
    exact Or.inl ⟨_, free, _, rfl, by simp, valid.moveToTail inside, fails⟩
  | @miss i u new missing alloc allocated =>
    have fails : missFails d n s = readFails d n u := by
      simp [missFails, missing, alloc]
    obtain ⟨impossible, -⟩ | ⟨j, free', rest, same, taken, old⟩ := allocated.outcome d valid
    · cases impossible
    · cases same
      have others : ∀ k ∈ rest, (u.cache.blocks k).blocknum ≠ n := by
        intro k member
        obtain ⟨inside, kept⟩ := old k member
        rw [kept]
        exact new k inside
      rw [fails]
      cases read : readFails d n u with
      | false =>
        rw [fillBlock_of_read d read] at outcome
        cases outcome
        exact Or.inl ⟨i, free', rest ++ [i], rfl, by simp, taken.setBlock others rfl rfl, rfl⟩
      | true =>
        rw [fillBlock_of_failed d read] at outcome
        cases outcome
        exact Or.inr ⟨rfl, not_intact_of_failed taken _, rfl⟩
  | full => cases outcome

theorem flushFrom_valid (valid : Valid s.cache free lru) {fuel entry : Nat} {answer : Answer}
    (result : flushFrom d fuel entry s = some (answer, t)) : Valid t.cache free lru := by
  induction fuel generalizing entry s with
  | zero => cases result
  | succ fuel ih =>
    unfold flushFrom at result
    by_cases last : entry = lruList
    · rw [if_pos last] at result
      cases result
      exact valid
    · rw [if_neg last] at result
      by_cases astray : entry < node 0
      · rw [if_pos astray] at result
        cases result
      · rw [if_neg astray] at result
        by_cases dirty : (s.cache.blocks (entry - node 0)).isDirty = true
        · rw [if_pos dirty] at result
          cases written : flushBlock d (entry - node 0) s with
          | mk ok u =>
            rw [written] at result
            cases ok with
            | false =>
              cases result
              rw [flushBlock_false d written]
              exact valid
            | true =>
              apply ih _ result
              rw [(flushBlock_true d written).2]
              exact valid.setBlock rfl rfl
        · rw [if_neg dirty] at result
          exact ih valid result

section
variable {answer : Answer}

variable (valid : Valid s.cache free lru)
include valid

theorem bcacheReadBlock_intact
    (result : bcacheReadBlock d n s = some (answer, t)) : Intact t.cache ↔ missFails d n s = false := by
  unfold bcacheReadBlock at result
  cases found : findOrFillBlock d n s with
  | none => simp [found] at result
  | some outcome =>
    obtain ⟨r, u⟩ := outcome
    obtain ⟨i, free', lru', rfl, -, valid', fails⟩ | ⟨rfl, broken, fails⟩ := findOrFillBlock_intact d valid found
    · simp only [found] at result
      cases result
      exact ⟨fun _ => fails, fun _ => ⟨free', lru', valid'⟩⟩
    · simp only [found] at result
      cases result
      simp [broken, fails]

theorem bcacheGetBlock_intact
    (result : bcacheGetBlock d n s = some (answer, t)) : Intact t.cache ↔ missFails d n s = false := by
  unfold bcacheGetBlock at result
  cases found : findOrFillBlock d n s with
  | none => simp [found] at result
  | some outcome =>
    obtain ⟨r, u⟩ := outcome
    obtain ⟨i, free', lru', rfl, -, valid', fails⟩ | ⟨rfl, broken, fails⟩ := findOrFillBlock_intact d valid found
    · simp only [found] at result
      cases result
      exact ⟨fun _ => fails, fun _ => ⟨free', lru', valid'.setBlock rfl rfl⟩⟩
    · simp only [found] at result
      cases result
      simp [broken, fails]

theorem bcachePutBlock_intact (result : bcachePutBlock n s = some (answer, t)) :
    Intact t.cache := by
  unfold bcachePutBlock at result
  obtain ⟨i, inside, -, found⟩ | ⟨-, missing⟩ := findBlock_cases valid.lists n
  · simp only [found] at result
    split at result
    · cases result
    · cases result
      exact ⟨_, _, (valid.moveToTail inside).setBlock rfl rfl⟩
  · simp [missing] at result

theorem bcacheMarkBlockDirty_intact
    (result : bcacheMarkBlockDirty n s = some (answer, t)) : Intact t.cache := by
  unfold bcacheMarkBlockDirty at result
  obtain ⟨i, inside, -, found⟩ | ⟨-, missing⟩ := findBlock_cases valid.lists n
  · simp only [found] at result
    cases result
    exact ⟨_, _, (valid.moveToTail inside).setBlock rfl rfl⟩
  · simp only [missing] at result
    cases result
    exact ⟨_, _, valid⟩

theorem bcacheZeroBlock_intact
    (result : bcacheZeroBlock d n s = some (answer, t)) : Intact t.cache := by
  unfold bcacheZeroBlock at result
  obtain ⟨i, inside, number, found⟩ | ⟨new, missing⟩ := findBlock_cases valid.lists n
  · simp only [found] at result
    cases result
    refine ⟨_, _, (valid.moveToTail inside).setBlock (i := i) number.symm ?_⟩
    exact (number ▸ (valid.filled i inside).symm)
  · simp only [missing] at result
    obtain ⟨r, u, alloc, allocated⟩ := allocBlock_cases d valid.lists
    simp only [alloc] at result
    obtain ⟨rfl, valid'⟩ | ⟨i, free', rest, rfl, taken, old⟩ := allocated.outcome d valid
    · cases result
      exact ⟨_, _, valid'⟩
    · cases result
      have others : ∀ k ∈ rest, (u.cache.blocks k).blocknum ≠ n := by
        intro k member
        obtain ⟨inside, kept⟩ := old k member
        rw [kept]
        exact new k inside
      exact ⟨_, _, taken.setBlock others rfl rfl⟩

omit valid

theorem step_intact {op : Op} (intact : Intact s.cache) (result : step d op s = some (answer, t)) :
    Intact t.cache ↔ fillFails d op s = false := by
  obtain ⟨free, lru, valid⟩ := intact
  cases op with
  | readBlock n => exact bcacheReadBlock_intact d valid result
  | getBlock n => exact bcacheGetBlock_intact d valid result
  | edit i data =>
    simp only [step] at result
    split at result
    · cases result
      exact ⟨fun _ => rfl, fun _ => ⟨_, _, valid.setBlock rfl rfl⟩⟩
    · cases result
  | putBlock n => exact ⟨fun _ => rfl, fun _ => bcachePutBlock_intact valid result⟩
  | markBlockDirty n => exact ⟨fun _ => rfl, fun _ => bcacheMarkBlockDirty_intact valid result⟩
  | zeroBlock n => exact ⟨fun _ => rfl, fun _ => bcacheZeroBlock_intact d valid result⟩
  | flush => exact ⟨fun _ => rfl, fun _ => ⟨_, _, flushFrom_valid d valid result⟩⟩

end

def next (s : Option (State σ)) (op : Op) : Option (State σ) := s.bind fun s => (step d op s).map (·.2)

def IntactState (s : Option (State σ)) : Prop := ∀ t, s = some t → Intact t.cache

theorem fillFails_of_none {op : Op} (ended : step d op s = none) : fillFails d op s = false := by
  have absurd_of : ∀ n, missFails d n s = true → findOrFillBlock d n s ≠ none := by
    intro n fails none
    unfold missFails at fails
    unfold findOrFillBlock at none
    split at fails
    · rename_i cache missing
      simp only [missing] at none
      split at fails
      · rename_i i u alloc
        simp [alloc] at none
      · cases fails
    · cases fails
  have read : ∀ n, findOrFillBlock d n s = none → missFails d n s = false := by
    intro n none
    exact Bool.eq_false_of_not_eq_true fun fails => absurd_of n fails none
  cases op with
  | readBlock n =>
    apply read
    simp only [step, bcacheReadBlock] at ended
    split at ended <;> first | assumption | cases ended
  | getBlock n =>
    apply read
    simp only [step, bcacheGetBlock] at ended
    split at ended <;> first | assumption | cases ended
  | _ => rfl

/-- A cache stays intact throughout a run exactly as long as no read of it fails. -/
theorem intact_throughout_iff (blockSize count fsOffset : Nat) (uninit : Nat → Block) (dev : σ) (ops : List Op) :
    Throughout (next d) IntactState (some ⟨bcacheCreate blockSize count fsOffset uninit, dev⟩) ops ↔
      EachStep (next d) (fun s op => ∀ t, s = some t → fillFails d op t = false)
        (some ⟨bcacheCreate blockSize count fsOffset uninit, dev⟩) ops := by
  apply throughout_iff_eachStep (I := fun _ => True)
  · intro _ _ _ _ _
    trivial
  · intro s op _ intact
    cases s with
    | none => simp [next, IntactState]
    | some s =>
      have here := intact s rfl
      cases result : step d op s with
      | none => simp [next, IntactState, result, fillFails_of_none d result]
      | some outcome =>
        obtain ⟨answer, t⟩ := outcome
        simp [next, IntactState, result, step_intact d here result]
  · trivial
  · intro t same
    cases same
    exact ⟨_, _, lists_create blockSize count fsOffset uninit, by simp, by simp⟩

end

def deadDevice : Device Unit where
  read _ _ dev := ((false, []), dev)
  write _ _ dev := (true, dev)

def oneBlock : State Unit := ⟨bcacheCreate 1 1 0 fun _ => ⟨0, 0, false, [], none⟩, ()⟩

/-- One read of one block. -/
theorem intact_throughout_dead :
    ¬ ∀ (σ : Type) (d : Device σ) (blockSize count fsOffset : Nat) (uninit : Nat → Block) (dev : σ)
      (ops : List Op), Throughout (next d) IntactState (some ⟨bcacheCreate blockSize count fsOffset uninit, dev⟩)
        ops := by
  intro claim
  have always := claim Unit deadDevice 1 1 0 (fun _ => ⟨0, 0, false, [], none⟩) () [.readBlock 5]
  have fails : fillFails deadDevice (.readBlock 5) oneBlock = true := by decide
  have ends : (step deadDevice (.readBlock 5) oneBlock).isSome = true := by decide
  obtain ⟨⟨answer, t⟩, result⟩ := Option.isSome_iff_exists.mp ends
  have before : Intact oneBlock.cache := always [] List.nil_prefix oneBlock rfl
  have after : Intact t.cache := by
    apply always [.readBlock 5] (List.prefix_refl _) t
    change (step deadDevice (.readBlock 5) oneBlock).map (·.2) = some t
    rw [result]
    rfl
  rw [(step_intact deadDevice before result).mp after] at fails
  cases fails

end Cboot.Bcache
