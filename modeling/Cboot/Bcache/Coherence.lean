import Cboot.Bcache.Integrity

/-!
The view is what the device would hold if every edit had gone to it at once.
-/

namespace Cboot.Bcache
open Lib Utils

def memDevice : Device Mem where
  read pos len m := ((true, bytesAt m pos len), m)
  write pos data m := (true, storeBytes m pos data)

/-- What the callers expect: the bytes of the device, and the blocks with an edit that is not marked yet. -/
structure View where
  mem : Mem
  owed : List Nat

def position (c : Cache) (n : UInt32) : Nat := c.fsOffset + n.toNat * c.blockSize

def Within (c : Cache) (n : UInt32) (x : Nat) : Prop := position c n ≤ x ∧ x < position c n + c.blockSize

/-- All of block `n` is on the device. -/
def Fits (c : Cache) (n : UInt32) : Prop := position c n < 2 ^ 64 ∧ position c n + c.blockSize ≤ 2 ^ 64

def specStep (c : Cache) (op : Op) (v : View) : View :=
  match op with
  | .edit i data => ⟨storeBytes v.mem (position c (c.blocks i).blocknum) data, i :: v.owed⟩
  | .markBlockDirty n => ⟨v.mem, v.owed.filter fun i => (c.blocks i).blocknum ≠ n⟩
  | .zeroBlock n =>
    ⟨storeBytes v.mem (position c n) (List.replicate c.blockSize 0), v.owed.filter fun i => (c.blocks i).blocknum ≠ n⟩
  | _ => v

/-- What the callers keep to: the blocks are on the device, and an edit is marked before the block is put
back and before a flush. Some block is not in use. -/
def Legal (op : Op) (s : State Mem) (v : View) : Prop :=
  (∃ i < s.cache.count, (s.cache.blocks i).refCount = 0) ∧
    match op with
    | .readBlock n => Fits s.cache n
    | .getBlock n => Fits s.cache n
    | .zeroBlock n => Fits s.cache n
    | .edit i data => i < s.cache.count ∧ 0 < (s.cache.blocks i).refCount ∧ data.length = s.cache.blockSize
    | .putBlock n => ∃ i < s.cache.count, (s.cache.blocks i).blocknum = n ∧ 0 < (s.cache.blocks i).refCount ∧ i ∉ v.owed
    | .markBlockDirty _ => True
    | .flush => v.owed = []

/-- Whether a dirty block has to be written to make room for block `n`. -/
def evictsDirty (n : UInt32) (s : State Mem) : Bool :=
  match findBlock n s.cache with
  | some (none, _) =>
    match allocBlock memDevice s with
    | some (some i, _) => (s.cache.blocks i).isDirty
    | _ => false
  | _ => false

def writesBack (op : Op) (s : State Mem) : Bool :=
  match op with
  | .readBlock n => evictsDirty n s
  | .getBlock n => evictsDirty n s
  | .zeroBlock n => evictsDirty n s
  | .flush =>
    match walk s.cache fun block => block.isDirty with
    | some (some _) => true
    | _ => false
  | _ => false

def Correct (op : Op) (s : State Mem) (v : View) (answer : Answer) (t : State Mem) : Prop :=
  match op with
  | .readBlock n => answer = .data (bytesAt v.mem (position s.cache n) s.cache.blockSize)
  | .getBlock n => ∃ i, answer = .block i ∧ (t.cache.blocks i).blocknum = n ∧
      (t.cache.blocks i).data = bytesAt v.mem (position s.cache n) s.cache.blockSize
  | .flush => answer = .done ∧ t.dev = v.mem
  | .markBlockDirty _ => True
  | _ => answer = .done

structure Coherent (s : State Mem) (v : View) (free lru : List Nat) : Prop where
  valid : Valid s.cache free lru
  unused : ∀ i ∈ free, (s.cache.blocks i).refCount = 0 ∧ (s.cache.blocks i).isDirty = false
  fits : ∀ i ∈ lru, Fits s.cache (s.cache.blocks i).blocknum
  cached : ∀ i ∈ lru, (s.cache.blocks i).data =
    bytesAt v.mem (position s.cache (s.cache.blocks i).blocknum) s.cache.blockSize
  owed : ∀ i ∈ v.owed, i ∈ lru ∧ 0 < (s.cache.blocks i).refCount
  device : ∀ x, (∀ i ∈ lru, ((s.cache.blocks i).isDirty = true ∨ i ∈ v.owed) →
    ¬ Within s.cache (s.cache.blocks i).blocknum x) → s.dev x = v.mem x

section
variable {c c' : Cache} {s t : State Mem} {v : View} {free lru : List Nat} {i j : Nat} {n : UInt32}

theorem position_le_of_lt (c : Cache) {k : UInt32} (below : n.toNat < k.toNat) :
    position c n + c.blockSize ≤ position c k := by
  have scaled := Nat.mul_le_mul_right c.blockSize (show n.toNat + 1 ≤ k.toNat from below)
  unfold position
  rw [Nat.add_mul, Nat.one_mul] at scaled
  omega

theorem within_unique {k : UInt32} {x : Nat} (first : Within c n x) (other : Within c k x) : n = k := by
  obtain ⟨lo, hi⟩ := first
  obtain ⟨lo', hi'⟩ := other
  obtain below | same | above := Nat.lt_trichotomy n.toNat k.toNat
  · have := position_le_of_lt c below
    omega
  · exact UInt32.toNat_inj.mp same
  · have := position_le_of_lt c above
    omega

theorem readPosition_eq (fits : Fits c n) : readPosition c n = position c n := by
  unfold Fits position at fits
  unfold readPosition position
  rw [Nat.mod_eq_of_lt (show n.toNat * c.blockSize < 2 ^ 64 by omega), Nat.mod_eq_of_lt (by omega)]

theorem writePosition_eq (fits : Fits c n) (zero : c.fsOffset = 0) : writePosition c n = position c n := by
  unfold Fits position at fits
  unfold writePosition position
  rw [Nat.mod_eq_of_lt (show n.toNat * c.blockSize < 2 ^ 64 by omega), zero, Nat.zero_add]

theorem Coherent.moveToTail (coherent : Coherent s v free lru) (inside : i ∈ lru) :
    Coherent { s with cache := s.cache.moveToTail i } v free (lru.erase i ++ [i]) := by
  have member : ∀ j, j ∈ lru.erase i ++ [i] ↔ j ∈ lru := by
    intro j
    have moved := ((List.perm_append_singleton i _).trans (List.perm_cons_erase inside).symm).mem_iff (a := j)
    exact moved
  refine ⟨coherent.valid.moveToTail inside, coherent.unused, ?_, ?_, ?_, ?_⟩
  · intro j mem
    exact coherent.fits j ((member j).mp mem)
  · intro j mem
    exact coherent.cached j ((member j).mp mem)
  · intro j mem
    exact ⟨(member j).mpr (coherent.owed j mem).1, (coherent.owed j mem).2⟩
  · intro x outside
    apply coherent.device x
    intro j mem dirty
    exact outside j ((member j).mpr mem) dirty

theorem setBlock_self (s : State Mem) (i : Nat) (b : Block) : (s.setBlock i b).cache.blocks i = b := by
  simp [State.setBlock, Cache.setBlock]

theorem setBlock_other (s : State Mem) (b : Block) (other : j ≠ i) :
    (s.setBlock i b).cache.blocks j = s.cache.blocks j := by
  simp [State.setBlock, Cache.setBlock, other]

theorem Coherent.write (coherent : Coherent s v free lru) (inside : i ∈ lru) {b : Block} {v' : View}
    (number : b.blocknum = (s.cache.blocks i).blocknum) (content : b.content = (s.cache.blocks i).content)
    (length : b.data.length = s.cache.blockSize)
    (mem : v'.mem = storeBytes v.mem (position s.cache (s.cache.blocks i).blocknum) b.data)
    (marked : b.isDirty = true ∨ i ∈ v'.owed) (kept : ∀ j ∈ v.owed, j ≠ i → j ∈ v'.owed)
    (owed : ∀ j ∈ v'.owed, j ∈ lru ∧ 0 < ((s.setBlock i b).cache.blocks j).refCount) :
    Coherent (s.setBlock i b) v' free lru := by
  have numbers : ∀ j, ((s.setBlock i b).cache.blocks j).blocknum = (s.cache.blocks j).blocknum := by
    intro j
    by_cases same : j = i
    · rw [same, setBlock_self, number]
    · rw [setBlock_other s b same]
  -- other blocks do not meet this one, so their bytes of the view stay
  have apart : ∀ x, ¬ Within s.cache (s.cache.blocks i).blocknum x → v'.mem x = v.mem x := by
    intro x outside
    rw [mem]
    apply storeBytes_outside
    rw [length]
    unfold Within at outside
    omega
  refine ⟨coherent.valid.setBlock number content, ?_, ?_, ?_, owed, ?_⟩
  · intro j free
    have other : j ≠ i := fun same => coherent.valid.lists.apart inside (same ▸ free)
    rw [setBlock_other s b other]
    exact coherent.unused j free
  · intro j member
    rw [numbers]
    exact coherent.fits j member
  · intro j member
    rw [numbers]
    by_cases same : j = i
    · rw [same, setBlock_self, mem]
      change b.data = bytesAt _ (position s.cache _) s.cache.blockSize
      rw [← length, bytesAt_storeBytes]
    · rw [setBlock_other s b same, coherent.cached j member]
      change bytesAt v.mem (position s.cache _) s.cache.blockSize =
        bytesAt v'.mem (position s.cache _) s.cache.blockSize
      symm
      apply bytesAt_congr_of_agree
      intro x lo hi
      apply apart
      intro here
      exact same (coherent.valid.distinct j member i inside (within_unique ⟨lo, hi⟩ here))
  · intro x outside
    have here := outside i inside
    rw [setBlock_self, number] at here
    rw [apart x (here marked)]
    apply coherent.device x
    intro j member dirty
    by_cases same : j = i
    · rw [same]
      exact here marked
    · have there := outside j member
      rw [setBlock_other s b same] at there
      exact there (dirty.imp id fun owed => kept j owed same)

theorem Coherent.writeBack (coherent : Coherent s v free lru) (inside : i ∈ lru) (settled : i ∉ v.owed)
    (zero : s.cache.fsOffset = 0) (written : flushBlock memDevice i s = (true, t)) :
    Coherent t v free lru ∧ t.cache = s.cache.setBlock i { s.cache.blocks i with isDirty := false } := by
  obtain ⟨stored, cache⟩ := flushBlock_true memDevice written
  refine ⟨?_, cache⟩
  have dev : t.dev = storeBytes s.dev (writePosition s.cache (s.cache.blocks i).blocknum) (s.cache.blocks i).data :=
    (Prod.mk.inj stored).2.symm
  rw [writePosition_eq (coherent.fits i inside) zero, coherent.cached i inside] at dev
  obtain ⟨tc, td⟩ := t
  change tc = _ at cache
  change td = _ at dev
  subst cache dev
  have blocks : ∀ j, ((s.cache.setBlock i { s.cache.blocks i with isDirty := false }).blocks j).blocknum =
      (s.cache.blocks j).blocknum ∧
      ((s.cache.setBlock i { s.cache.blocks i with isDirty := false }).blocks j).data = (s.cache.blocks j).data ∧
      ((s.cache.setBlock i { s.cache.blocks i with isDirty := false }).blocks j).refCount =
        (s.cache.blocks j).refCount := by
    intro j
    by_cases same : j = i
    · subst same
      simp [Cache.setBlock]
    · simp [Cache.setBlock, same]
  refine ⟨coherent.valid.setBlock rfl rfl, ?_, ?_, ?_, ?_, ?_⟩
  · intro j free
    have other : j ≠ i := fun same => coherent.valid.lists.apart inside (same ▸ free)
    have unused := coherent.unused j free
    simpa [Cache.setBlock, other] using unused
  · intro j member
    change Fits s.cache _
    rw [(blocks j).1]
    exact coherent.fits j member
  · intro j member
    rw [(blocks j).1, (blocks j).2.1]
    exact coherent.cached j member
  · intro j member
    rw [(blocks j).2.2]
    exact coherent.owed j member
  · intro x outside
    by_cases here : Within s.cache (s.cache.blocks i).blocknum x
    · exact storeBytes_bytesAt _ _ here
    · have away : x < position s.cache (s.cache.blocks i).blocknum ∨
          position s.cache (s.cache.blocks i).blocknum + s.cache.blockSize ≤ x := by
        unfold Within at here
        omega
      change storeBytes s.dev _ _ x = v.mem x
      rw [storeBytes_outside _ (by rw [length_bytesAt]; exact away)]
      apply coherent.device x
      intro j member dirty
      by_cases same : j = i
      · rw [same]
        exact here
      · have there := outside j member
        rw [(blocks j).1] at there
        apply there
        simpa [Cache.setBlock, same] using dirty

/-- What holds while block `i` is given to another number. -/
structure Ready (s : State Mem) (v : View) (i : Nat) (free rest : List Nat) : Prop where
  taken : Taken s.cache i free rest
  unused : ∀ j ∈ i :: free, (s.cache.blocks j).refCount = 0 ∧ (s.cache.blocks j).isDirty = false
  fits : ∀ j ∈ rest, Fits s.cache (s.cache.blocks j).blocknum
  cached : ∀ j ∈ rest, (s.cache.blocks j).data =
    bytesAt v.mem (position s.cache (s.cache.blocks j).blocknum) s.cache.blockSize
  owed : ∀ j ∈ v.owed, j ∈ rest ∧ 0 < (s.cache.blocks j).refCount
  device : ∀ x, (∀ j ∈ rest, ((s.cache.blocks j).isDirty = true ∨ j ∈ v.owed) →
    ¬ Within s.cache (s.cache.blocks j).blocknum x) → s.dev x = v.mem x

theorem position_congr (shape : SameShape c c') (n : UInt32) : position c' n = position c n := by
  unfold position
  rw [shape.fsOffset, shape.blockSize]

theorem within_congr (shape : SameShape c c') (n : UInt32) (x : Nat) : Within c' n x ↔ Within c n x := by
  unfold Within
  rw [position_congr shape, shape.blockSize]

theorem fits_congr (shape : SameShape c c') (n : UInt32) : Fits c' n ↔ Fits c n := by
  unfold Fits
  rw [position_congr shape, shape.blockSize]

theorem Coherent.ready {free' rest : List Nat} (coherent : Coherent s v free lru)
    (lists : Lists t.cache free' (rest ++ [i])) (shape : SameShape s.cache t.cache) (dev : t.dev = s.dev)
    (unused : ∀ j ∈ i :: free', (t.cache.blocks j).refCount = 0 ∧ (t.cache.blocks j).isDirty = false)
    (rest_iff : ∀ j, j ∈ rest ↔ j ∈ lru ∧ j ≠ i) (same : ∀ j ∈ rest, t.cache.blocks j = s.cache.blocks j)
    (settled : i ∈ lru → (s.cache.blocks i).isDirty = false ∧ i ∉ v.owed)
    (free_or_lru : i ∉ lru → i ∉ v.owed) : Ready t v i free' rest := by
  have old : ∀ j ∈ rest, j ∈ lru := fun j mem => ((rest_iff j).mp mem).1
  have notOwed : i ∉ v.owed := by
    by_cases inside : i ∈ lru
    · exact (settled inside).2
    · exact free_or_lru inside
  refine ⟨coherent.valid.taken lists old same, unused, ?_, ?_, ?_, ?_⟩
  · intro j mem
    rw [same j mem, fits_congr shape]
    exact coherent.fits j (old j mem)
  · intro j mem
    rw [same j mem, position_congr shape, shape.blockSize]
    exact coherent.cached j (old j mem)
  · intro j mem
    obtain ⟨inside, used⟩ := coherent.owed j mem
    have here : j ∈ rest := (rest_iff j).mpr ⟨inside, fun same => notOwed (same ▸ mem)⟩
    rw [same j here]
    exact ⟨here, used⟩
  · intro x outside
    rw [dev]
    apply coherent.device x
    intro j mem dirty
    by_cases here : j = i
    · rw [here] at mem dirty
      obtain ⟨clean, notOwed⟩ := settled mem
      obtain dirty | owed := dirty
      · rw [clean] at dirty
        cases dirty
      · exact absurd owed notOwed
    · have inRest : j ∈ rest := (rest_iff j).mpr ⟨mem, here⟩
      have there := outside j inRest
      rw [same j inRest, within_congr shape] at there
      exact there dirty

theorem Coherent.allocated (coherent : Coherent s v free lru) (allocated : Allocated memDevice s free lru (some i) t)
    (condition : i ∈ lru → (s.cache.blocks i).isDirty = true → s.cache.fsOffset = 0) :
    SameShape s.cache t.cache ∧ ∃ free' rest, Ready t v i free' rest ∧
      ∀ j ∈ rest, j ∈ lru ∧ (t.cache.blocks j).blocknum = (s.cache.blocks j).blocknum := by
  have unowed : ∀ {j}, (s.cache.blocks j).refCount = 0 → j ∉ v.owed := by
    intro j none owed
    have used := (coherent.owed j owed).2
    omega
  have erased : ∀ j, j ∈ lru.erase i ↔ j ∈ lru ∧ j ≠ i := by
    intro j
    rw [coherent.valid.lists.lru_nodup.mem_erase_iff]
    exact And.comm
  cases allocated with
  | @unused _ rest _ first lists shape blocks dev =>
    subst first
    have new : i ∉ lru := fun inside => coherent.valid.lists.apart inside List.mem_cons_self
    have others : ∀ j, j ≠ i → t.cache.blocks j = s.cache.blocks j := by
      intro j other
      rw [blocks]
      exact Function.update_of_ne other _ _
    have fresh : i ∉ rest :=
      (List.nodup_cons.mp (List.nodup_append.mp coherent.valid.lists.nodup).1).1
    have same : ∀ j ∈ lru, t.cache.blocks j = s.cache.blocks j :=
      fun j mem => others j fun same => new (same ▸ mem)
    refine ⟨shape, rest, lru, coherent.ready lists shape dev ?_ ?_ same (fun inside => absurd inside new) ?_, ?_⟩
    · intro j mem
      obtain rfl | later := List.mem_cons.mp mem
      · rw [blocks, Function.update_self]
        exact ⟨rfl, (coherent.unused j List.mem_cons_self).2⟩
      · rw [others j fun same => fresh (same ▸ later)]
        exact coherent.unused j (List.mem_cons_of_mem _ later)
    · intro j
      exact ⟨fun mem => ⟨mem, fun same => new (same ▸ mem)⟩, fun both => both.1⟩
    · intro _
      exact unowed (coherent.unused i List.mem_cons_self).1
    · intro j mem
      exact ⟨mem, by rw [same j mem]⟩
  | @clean _ _ empty inside unused clean lists shape blocks dev =>
    refine ⟨shape, [], lru.erase i, coherent.ready lists shape dev ?_ erased (fun j _ => by rw [blocks])
      (fun _ => ⟨clean, unowed unused⟩) (fun other => absurd inside other), ?_⟩
    · intro j mem
      rw [List.mem_singleton.mp mem, blocks]
      exact ⟨unused, clean⟩
    · intro j mem
      exact ⟨List.mem_of_mem_erase mem, by rw [blocks]⟩
  | @flushed _ _ u empty inside unused dirty written lists shape blocks dev =>
    obtain ⟨after, cache⟩ := coherent.writeBack inside (unowed unused) (condition inside dirty) written
    have here : u.cache.blocks i = { s.cache.blocks i with isDirty := false } := by
      simp [cache, Cache.setBlock]
    have numbers : ∀ j, (u.cache.blocks j).blocknum = (s.cache.blocks j).blocknum := by
      intro j
      by_cases same : j = i
      · rw [same, here]
      · simp [cache, Cache.setBlock, same]
    have shape' : SameShape u.cache t.cache :=
      ⟨by rw [shape.blockSize, cache]; rfl, by rw [shape.count, cache]; rfl, by rw [shape.fsOffset, cache]; rfl⟩
    refine ⟨shape, [], lru.erase i, after.ready lists shape' dev ?_ erased (fun j _ => by rw [blocks])
      (fun _ => ⟨by rw [here], unowed unused⟩) (fun other => absurd inside other), ?_⟩
    · intro j mem
      rw [List.mem_singleton.mp mem, blocks, here]
      exact ⟨unused, rfl⟩
    · intro j mem
      exact ⟨List.mem_of_mem_erase mem, by rw [blocks, numbers]⟩

variable {rest : List Nat}

theorem Ready.install (ready : Ready s v i free rest)
    (new : ∀ j ∈ rest, (s.cache.blocks j).blocknum ≠ n) (fits : Fits s.cache n) {b : Block} {v' : View}
    (number : b.blocknum = n) (content : b.content = some n)
    (data : b.data = bytesAt v'.mem (position s.cache n) s.cache.blockSize)
    (apart : ∀ x, ¬ Within s.cache n x → v'.mem x = v.mem x)
    (stored : b.isDirty = true ∨ ∀ x, Within s.cache n x → s.dev x = v'.mem x)
    (owed : ∀ j, j ∈ v'.owed ↔ j ∈ v.owed) : Coherent (s.setBlock i b) v' free (rest ++ [i]) := by
  have other : ∀ j ∈ rest, j ≠ i := fun j mem same => ready.taken.not_mem (same ▸ mem)
  have there : ∀ j ∈ rest, (s.setBlock i b).cache.blocks j = s.cache.blocks j :=
    fun j mem => setBlock_other s b (other j mem)
  refine ⟨ready.taken.setBlock new number content, ?_, ?_, ?_, ?_, ?_⟩
  · intro j mem
    have apart : j ≠ i := by
      intro same
      exact ready.taken.lists.apart (List.mem_append_right _ (List.mem_singleton_self i)) (same ▸ mem)
    rw [setBlock_other s b apart]
    exact ready.unused j (List.mem_cons_of_mem _ mem)
  · intro j mem
    obtain old | last := List.mem_append.mp mem
    · rw [there j old]
      exact ready.fits j old
    · rw [List.mem_singleton.mp last, setBlock_self, number]
      exact fits
  · intro j mem
    obtain old | last := List.mem_append.mp mem
    · rw [there j old, ready.cached j old]
      change bytesAt v.mem (position s.cache _) s.cache.blockSize =
        bytesAt v'.mem (position s.cache _) s.cache.blockSize
      symm
      apply bytesAt_congr_of_agree
      intro x lo hi
      apply apart
      intro here
      exact new j old (within_unique ⟨lo, hi⟩ here)
    · rw [List.mem_singleton.mp last, setBlock_self, number]
      exact data
  · intro j mem
    obtain ⟨old, used⟩ := ready.owed j ((owed j).mp mem)
    rw [there j old]
    exact ⟨List.mem_append_left _ old, used⟩
  · intro x outside
    by_cases here : Within s.cache n x
    · obtain dirty | same := stored
      · have away := outside i (by simp)
        rw [setBlock_self, number] at away
        exact absurd here (away (Or.inl dirty))
      · exact same x here
    · rw [apart x here]
      apply ready.device x
      intro j old dirty
      have away := outside j (List.mem_append_left _ old)
      rw [there j old] at away
      exact away (dirty.imp id (owed j).mpr)

theorem Ready.bytes (ready : Ready s v i free rest)
    (new : ∀ j ∈ rest, (s.cache.blocks j).blocknum ≠ n) {x : Nat} (here : Within s.cache n x) : s.dev x = v.mem x := by
  apply ready.device x
  intro j old _ there
  exact new j old (within_unique there here)

theorem Ready.fill (ready : Ready s v i free rest)
    (new : ∀ j ∈ rest, (s.cache.blocks j).blocknum ≠ n) (fits : Fits s.cache n) :
    ∃ t, fillBlock memDevice n i s = (some i, t) ∧ Coherent t v free (rest ++ [i]) ∧
      t.cache.blocks i = filledBlock memDevice n i s (some n) ∧ SameShape s.cache t.cache := by
  refine ⟨_, fillBlock_of_read memDevice rfl, ?_, ?_, ⟨rfl, rfl, rfl⟩⟩
  · refine ready.install new fits rfl rfl ?_ (fun _ _ => rfl) (Or.inr fun x here => ready.bytes new here)
      fun _ => Iff.rfl
    change bytesAt s.dev (readPosition s.cache n) s.cache.blockSize = _
    rw [readPosition_eq fits]
    symm
    apply bytesAt_congr_of_agree
    intro x lo hi
    exact (ready.bytes new ⟨lo, hi⟩).symm
  · exact setBlock_self s i _

theorem Ready.clear {rest owed : List Nat} (ready : Ready s v i free rest)
    (new : ∀ j ∈ rest, (s.cache.blocks j).blocknum ≠ n) (fits : Fits s.cache n) (same : ∀ j, j ∈ owed ↔ j ∈ v.owed) :
    Coherent (clearBlock n i s)
      ⟨storeBytes v.mem (position s.cache n) (List.replicate s.cache.blockSize 0), owed⟩ free (rest ++ [i]) := by
  refine ready.install new fits rfl rfl ?_ ?_ (Or.inl rfl) same
  · have whole := bytesAt_storeBytes v.mem (position s.cache n) (List.replicate s.cache.blockSize 0)
    rw [List.length_replicate] at whole
    exact whole.symm
  · intro x outside
    apply storeBytes_outside
    rw [List.length_replicate]
    unfold Within at outside
    omega

theorem Lists.mem_of_lt (lists : Lists c free lru) (inside : i < c.count) : i ∈ free ∨ i ∈ lru :=
  List.mem_append.mp (lists.all.mem_iff.mpr (List.mem_range.mpr inside))

theorem Coherent.not_full (coherent : Coherent s v free lru)
    (some : ∃ i < s.cache.count, (s.cache.blocks i).refCount = 0)
    (allocated : Allocated memDevice s free lru none t) : False := by
  generalize result : (none : Option Nat) = r at allocated
  cases allocated with
  | unused => cases result
  | clean => cases result
  | flushed => cases result
  | unwritten inside dirty failed => cases failed
  | allUsed empty used =>
    obtain ⟨i, inside, unused⟩ := some
    obtain free | lru := coherent.valid.lists.mem_of_lt inside
    · rw [empty] at free
      cases free
    · exact used i lru unused

theorem Coherent.findOrFill (coherent : Coherent s v free lru) (fits : Fits s.cache n)
    (some_unused : ∃ i < s.cache.count, (s.cache.blocks i).refCount = 0)
    (condition : s.cache.fsOffset = 0 ∨ evictsDirty n s = false) :
    ∃ i t free' lru', findOrFillBlock memDevice n s = some (some i, t) ∧ Coherent t v free' lru' ∧ i ∈ lru' ∧
      (t.cache.blocks i).blocknum = n ∧ SameShape s.cache t.cache := by
  have found := findOrFillBlock_found memDevice coherent.valid.lists n
  generalize findOrFillBlock memDevice n s = result at found
  cases found with
  | @hit i inside number found =>
    exact ⟨i, _, free, _, rfl, coherent.moveToTail inside, by simp, number, ⟨rfl, rfl, rfl⟩⟩
  | @miss i u new missing alloc allocated =>
    have harmless : i ∈ lru → (s.cache.blocks i).isDirty = true → s.cache.fsOffset = 0 := by
      intro _ dirty
      apply condition.resolve_right
      simp [evictsDirty, missing, alloc, dirty]
    obtain ⟨shape, free', rest, ready, old⟩ := coherent.allocated allocated harmless
    have others : ∀ j ∈ rest, (u.cache.blocks j).blocknum ≠ n := by
      intro j mem
      obtain ⟨inside, number⟩ := old j mem
      rw [number]
      exact new j inside
    obtain ⟨t, filled, after, block, shape'⟩ := ready.fill others ((fits_congr shape n).mpr fits)
    refine ⟨i, t, free', rest ++ [i], by rw [filled], after, by simp, by rw [block]; rfl, ?_⟩
    exact ⟨shape'.blockSize.trans shape.blockSize, shape'.count.trans shape.count, shape'.fsOffset.trans shape.fsOffset⟩
  | full new missing alloc allocated => exact (coherent.not_full some_unused allocated).elim

theorem Coherent.setRefCount (coherent : Coherent s v free lru) (inside : i ∈ lru) (count : Nat)
    (held : i ∈ v.owed → 0 < count) :
    Coherent (s.setBlock i { s.cache.blocks i with refCount := count }) v free lru := by
  have same : ∀ j, ((s.setBlock i { s.cache.blocks i with refCount := count }).cache.blocks j).blocknum =
      (s.cache.blocks j).blocknum ∧
      ((s.setBlock i { s.cache.blocks i with refCount := count }).cache.blocks j).data = (s.cache.blocks j).data ∧
      ((s.setBlock i { s.cache.blocks i with refCount := count }).cache.blocks j).isDirty =
        (s.cache.blocks j).isDirty := by
    intro j
    by_cases here : j = i
    · rw [here, setBlock_self]
      exact ⟨rfl, rfl, rfl⟩
    · rw [setBlock_other _ _ here]
      exact ⟨rfl, rfl, rfl⟩
  refine ⟨coherent.valid.setBlock rfl rfl, ?_, ?_, ?_, ?_, ?_⟩
  · intro j free
    have other : j ≠ i := fun same => coherent.valid.lists.apart inside (same ▸ free)
    rw [setBlock_other _ _ other]
    exact coherent.unused j free
  · intro j mem
    rw [(same j).1]
    exact coherent.fits j mem
  · intro j mem
    rw [(same j).1, (same j).2.1]
    exact coherent.cached j mem
  · intro j mem
    obtain ⟨there, used⟩ := coherent.owed j mem
    by_cases here : j = i
    · subst here
      rw [setBlock_self]
      exact ⟨there, held mem⟩
    · rw [setBlock_other _ _ here]
      exact ⟨there, used⟩
  · intro x outside
    apply coherent.device x
    intro j mem dirty
    have away := outside j mem
    rw [(same j).1, (same j).2.2] at away
    exact away dirty

end

end Cboot.Bcache
