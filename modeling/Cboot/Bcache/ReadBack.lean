import Cboot.Bcache.Coherence

/-!
Every operation of the callers answers what the view says and leaves the cache coherent with the view after
it, and so does a run of them.
-/

namespace Cboot.Bcache
open Lib Utils

section
variable {s t : State Mem} {v : View} {free lru : List Nat} {i : Nat} {n : UInt32}

def Goes (op : Op) (s : State Mem) (v : View) : Prop :=
  ∃ answer t free lru, step memDevice op s = some (answer, t) ∧ Correct op s v answer t ∧
    Coherent t (specStep s.cache op v) free lru

theorem Coherent.bytes (coherent : Coherent t v free lru) (inside : i ∈ lru)
    (number : (t.cache.blocks i).blocknum = n) (shape : SameShape s.cache t.cache) :
    (t.cache.blocks i).data = bytesAt v.mem (position s.cache n) s.cache.blockSize := by
  rw [coherent.cached i inside, number, position_congr shape, shape.blockSize]

variable (coherent : Coherent s v free lru)
include coherent

theorem Coherent.readBlock_goes (legal : Legal (.readBlock n) s v)
    (condition : s.cache.fsOffset = 0 ∨ writesBack (.readBlock n) s = false) : Goes (.readBlock n) s v := by
  obtain ⟨unused, fits⟩ := legal
  obtain ⟨i, t, free', lru', found, after, inside, number, shape⟩ := coherent.findOrFill fits unused condition
  refine ⟨.data (t.cache.blocks i).data, t, free', lru', ?_, ?_, after⟩
  · simp [step, bcacheReadBlock, found]
  · change Answer.data _ = Answer.data _
    rw [after.bytes inside number shape]

theorem Coherent.getBlock_goes (legal : Legal (.getBlock n) s v)
    (condition : s.cache.fsOffset = 0 ∨ writesBack (.getBlock n) s = false) : Goes (.getBlock n) s v := by
  obtain ⟨unused, fits⟩ := legal
  obtain ⟨i, t, free', lru', found, after, inside, number, shape⟩ := coherent.findOrFill fits unused condition
  refine ⟨.block i, t.setBlock i { t.cache.blocks i with refCount := (t.cache.blocks i).refCount + 1 }, free', lru',
    ?_, ⟨i, rfl, ?_, ?_⟩, after.setRefCount inside _ fun _ => Nat.succ_pos _⟩
  · simp [step, bcacheGetBlock, found]
  · rw [setBlock_self]
    exact number
  · rw [setBlock_self]
    exact after.bytes inside number shape

theorem Coherent.mem_of_used (inside : i < s.cache.count)
    (used : 0 < (s.cache.blocks i).refCount) : i ∈ lru := by
  obtain unused | lru := coherent.valid.lists.mem_of_lt inside
  · have none := (coherent.unused i unused).1
    omega
  · exact lru

theorem Coherent.edit_goes {data : List UInt8}
    (legal : Legal (.edit i data) s v) : Goes (.edit i data) s v := by
  obtain ⟨-, inside, used, length⟩ := legal
  have member := coherent.mem_of_used inside used
  refine ⟨.done, s.setBlock i { s.cache.blocks i with data := data }, free, lru, ?_, rfl, ?_⟩
  · simp only [step]
    rw [if_pos ⟨inside, used, length⟩]
  · refine coherent.write member rfl rfl length rfl (Or.inr List.mem_cons_self)
      (fun j owed _ => List.mem_cons_of_mem i owed) ?_
    intro j owed
    by_cases same : j = i
    · subst same
      rw [setBlock_self]
      exact ⟨member, used⟩
    · rw [setBlock_other _ _ same]
      exact coherent.owed j ((List.mem_cons.mp owed).resolve_left same)

theorem Coherent.putBlock_goes (legal : Legal (.putBlock n) s v) :
    Goes (.putBlock n) s v := by
  obtain ⟨-, i, inside, number, used, settled⟩ := legal
  have member := coherent.mem_of_used inside used
  obtain ⟨j, there, same, found⟩ | ⟨new, -⟩ := findBlock_cases coherent.valid.lists n
  · obtain rfl := coherent.valid.distinct j there i member (same.trans number.symm)
    have after := coherent.moveToTail member
    refine ⟨.done, _, free, _, ?_, rfl, after.setRefCount (i := j) (by simp) ((s.cache.blocks j).refCount - 1)
      fun owed => absurd owed settled⟩
    have held : ((s.cache.moveToTail j).blocks j).refCount ≠ 0 := Nat.pos_iff_ne_zero.mp used
    simp only [step, bcachePutBlock, found]
    rw [if_neg held]
    rfl
  · exact absurd number (new i member)

theorem Coherent.others_owed (inside : i ∈ lru)
    (number : (s.cache.blocks i).blocknum = n) {j : Nat} (owed : j ∈ v.owed) (other : j ≠ i) :
    j ∈ v.owed.filter fun j => (s.cache.blocks j).blocknum ≠ n := by
  refine List.mem_filter.mpr ⟨owed, decide_eq_true ?_⟩
  intro same
  exact other (coherent.valid.distinct j (coherent.owed j owed).1 i inside (same.trans number.symm))

theorem Coherent.all_owed (new : ∀ j ∈ lru, (s.cache.blocks j).blocknum ≠ n) :
    (v.owed.filter fun j => (s.cache.blocks j).blocknum ≠ n) = v.owed := by
  apply List.filter_eq_self.mpr
  intro j owed
  exact decide_eq_true (new j (coherent.owed j owed).1)

theorem Coherent.overwrite (inside : i ∈ lru)
    (number : (s.cache.blocks i).blocknum = n) {b : Block} {mem : Mem}
    (blocknum : b.blocknum = (s.cache.blocks i).blocknum) (content : b.content = (s.cache.blocks i).content)
    (dirty : b.isDirty = true) (length : b.data.length = s.cache.blockSize)
    (stored : mem = storeBytes v.mem (position s.cache n) b.data) :
    Coherent (s.setBlock i b) ⟨mem, v.owed.filter fun j => (s.cache.blocks j).blocknum ≠ n⟩ free lru := by
  refine coherent.write inside blocknum content length (by rw [stored, number]) (Or.inl dirty)
    (fun j owed other => coherent.others_owed inside number owed other) ?_
  intro j owed
  obtain ⟨old, elsewhere⟩ := List.mem_filter.mp owed
  have other : j ≠ i := by
    intro same
    rw [same] at elsewhere
    exact of_decide_eq_true elsewhere number
  rw [setBlock_other _ _ other]
  exact coherent.owed j old

theorem Coherent.markBlockDirty_goes : Goes (.markBlockDirty n) s v := by
  obtain ⟨i, inside, number, found⟩ | ⟨new, missing⟩ := findBlock_cases coherent.valid.lists n
  · have after := coherent.moveToTail inside
    have cached := coherent.cached i inside
    rw [number] at cached
    refine ⟨.done, State.setBlock { s with cache := s.cache.moveToTail i } i
      { s.cache.blocks i with isDirty := true }, free, _, ?_, trivial,
      after.overwrite (n := n) (by simp) number rfl rfl rfl ?_ ?_⟩
    · simp only [step, bcacheMarkBlockDirty, found]
      rfl
    · change (s.cache.blocks i).data.length = s.cache.blockSize
      rw [cached, length_bytesAt]
    · change v.mem = storeBytes v.mem (position s.cache n) (s.cache.blocks i).data
      rw [cached, storeBytes_same]
  · refine ⟨.failed, s, free, lru, ?_, trivial, ?_⟩
    · simp [step, bcacheMarkBlockDirty, missing]
    · change Coherent s ⟨v.mem, v.owed.filter fun j => (s.cache.blocks j).blocknum ≠ n⟩ free lru
      rw [coherent.all_owed new]
      exact coherent

theorem Coherent.zeroBlock_goes (legal : Legal (.zeroBlock n) s v)
    (condition : s.cache.fsOffset = 0 ∨ writesBack (.zeroBlock n) s = false) : Goes (.zeroBlock n) s v := by
  obtain ⟨some_unused, fits⟩ := legal
  obtain ⟨i, inside, number, found⟩ | ⟨new, missing⟩ := findBlock_cases coherent.valid.lists n
  · have after := coherent.moveToTail inside
    refine ⟨.done, clearBlock n i { s with cache := s.cache.moveToTail i }, free, _, ?_, rfl,
      after.overwrite (n := n) (by simp) number number.symm ?_ rfl List.length_replicate rfl⟩
    · simp only [step, bcacheZeroBlock, found]
    · change some n = (s.cache.blocks i).content
      rw [coherent.valid.filled i inside, number]
  · obtain ⟨r, u, alloc, allocated⟩ := allocBlock_cases memDevice coherent.valid.lists
    cases r with
    | none => exact (coherent.not_full some_unused allocated).elim
    | some i =>
      have harmless : i ∈ lru → (s.cache.blocks i).isDirty = true → s.cache.fsOffset = 0 := by
        intro _ dirty
        apply condition.resolve_right
        simp [writesBack, evictsDirty, missing, alloc, dirty]
      obtain ⟨shape, free', rest, ready, old⟩ := coherent.allocated allocated harmless
      have others : ∀ j ∈ rest, (u.cache.blocks j).blocknum ≠ n := by
        intro j mem
        obtain ⟨inside, number⟩ := old j mem
        rw [number]
        exact new j inside
      have cleared := ready.clear others ((fits_congr shape n).mpr fits) fun _ => Iff.rfl
      refine ⟨.done, clearBlock n i u, free', rest ++ [i], ?_, rfl, ?_⟩
      · simp only [step, bcacheZeroBlock, missing, alloc]
      · rw [position_congr shape, shape.blockSize] at cleared
        simp only [specStep]
        rw [coherent.all_owed new]
        exact cleared

omit coherent in
theorem memDevice_flushBlock (i : Nat) (s : State Mem) : ∃ t, flushBlock memDevice i s = (true, t) := ⟨_, rfl⟩

theorem Coherent.flushFrom_goes (settled : v.owed = []) {rest : List Nat}
    {fuel a : Nat} (chain : Chain s.cache.links a (rest.map node) lruList) (sub : ∀ i ∈ rest, i ∈ lru)
    (clean : ∀ i ∈ lru, i ∉ rest → (s.cache.blocks i).isDirty = false)
    (condition : s.cache.fsOffset = 0 ∨ ∀ i ∈ lru, (s.cache.blocks i).isDirty = false) (enough : rest.length < fuel) :
    ∃ t, flushFrom memDevice fuel (s.cache.links.next a) s = some (.done, t) ∧ Coherent t v free lru ∧
      ∀ i ∈ lru, (t.cache.blocks i).isDirty = false := by
  induction rest generalizing s fuel a with
  | nil =>
    obtain ⟨fuel, rfl⟩ : ∃ k, fuel = k + 1 := ⟨fuel - 1, by simp at enough; omega⟩
    refine ⟨s, ?_, coherent, fun i inside => clean i inside List.not_mem_nil⟩
    simp only [flushFrom]
    rw [if_pos chain.1]
  | cons i rest ih =>
    obtain ⟨fuel, rfl⟩ : ∃ k, fuel = k + 1 := ⟨fuel - 1, by simp at enough; omega⟩
    obtain ⟨next, -, later⟩ := chain
    have inside := sub i List.mem_cons_self
    have short : rest.length < fuel := by simpa using enough
    simp only [flushFrom]
    rw [next, if_neg (node_ne_lruList i), if_neg (not_node_lt i), node_sub]
    by_cases dirty : (s.cache.blocks i).isDirty = true
    · rw [if_pos dirty]
      obtain ⟨u, written⟩ := memDevice_flushBlock i s
      have zero : s.cache.fsOffset = 0 := by
        apply condition.resolve_right
        intro none
        rw [none i inside] at dirty
        cases dirty
      obtain ⟨after, cache⟩ := coherent.writeBack inside (by rw [settled]; exact List.not_mem_nil) zero written
      rw [written]
      apply ih after (by rw [cache]; exact later) (fun j mem => sub j (List.mem_cons_of_mem _ mem)) _
        (Or.inl (by rw [cache]; exact zero)) short
      intro j mem new
      by_cases same : j = i
      · simp [cache, Cache.setBlock, same]
      · have kept := clean j mem fun later => (List.mem_cons.mp later).elim same new
        simpa [cache, Cache.setBlock, same] using kept
    · rw [if_neg dirty]
      apply ih coherent later (fun j mem => sub j (List.mem_cons_of_mem _ mem)) _ condition short
      intro j mem new
      by_cases same : j = i
      · rw [same]
        exact Bool.eq_false_of_not_eq_true dirty
      · exact clean j mem fun later => (List.mem_cons.mp later).elim same new

theorem Coherent.flush_goes (legal : Legal .flush s v)
    (condition : s.cache.fsOffset = 0 ∨ writesBack .flush s = false) : Goes .flush s v := by
  obtain ⟨-, settled⟩ := legal
  have enough : lru.length < s.cache.count + 3 := by
    have := coherent.valid.lists.lru_length
    omega
  have condition' : s.cache.fsOffset = 0 ∨ ∀ i ∈ lru, (s.cache.blocks i).isDirty = false := by
    refine condition.imp id ?_
    intro none i inside
    simp only [writesBack, walk_eq coherent.valid.lists] at none
    cases found : lru.find? fun i => (s.cache.blocks i).isDirty with
    | none => simpa using List.find?_eq_none.mp found i inside
    | some j => simp [found] at none
  obtain ⟨t, flushed, after, clean⟩ := coherent.flushFrom_goes settled coherent.valid.lists.lruRing.chain
    (fun _ mem => mem) (fun i inside new => absurd inside new) condition' enough
  refine ⟨.done, t, free, lru, flushed, ⟨rfl, ?_⟩, after⟩
  funext x
  apply after.device x
  intro i inside dirty
  rw [clean i inside, settled] at dirty
  simp at dirty

theorem Coherent.step_goes {op : Op} (legal : Legal op s v)
    (condition : s.cache.fsOffset = 0 ∨ writesBack op s = false) : Goes op s v := by
  cases op with
  | readBlock n => exact coherent.readBlock_goes legal condition
  | getBlock n => exact coherent.getBlock_goes legal condition
  | edit i data => exact coherent.edit_goes legal
  | putBlock n => exact coherent.putBlock_goes legal
  | markBlockDirty n => exact coherent.markBlockDirty_goes
  | zeroBlock n => exact coherent.zeroBlock_goes legal condition
  | flush => exact coherent.flush_goes legal condition

def advance (p : Option (State Mem × View)) (op : Op) : Option (State Mem × View) :=
  p.bind fun p => (step memDevice op p.1).map fun result => (result.2, specStep p.1.cache op p.2)

def Allowed (p : Option (State Mem × View)) (op : Op) : Prop := ∀ s v, p = some (s, v) → Legal op s v

def InPlace (p : Option (State Mem × View)) (op : Op) : Prop :=
  ∀ s v, p = some (s, v) → s.cache.fsOffset = 0 ∨ writesBack op s = false

def Answered (p : Option (State Mem × View)) (op : Op) : Prop :=
  ∃ s v answer t, p = some (s, v) ∧ step memDevice op s = some (answer, t) ∧ Correct op s v answer t

instance (c : Cache) (n : UInt32) : Decidable (Fits c n) := inferInstanceAs (Decidable (_ ∧ _))

instance (op : Op) (s : State Mem) (v : View) : Decidable (Legal op s v) :=
  match op with
  | .readBlock _ | .getBlock _ | .zeroBlock _ => inferInstanceAs (Decidable (_ ∧ Fits _ _))
  | .edit _ _ => inferInstanceAs (Decidable (_ ∧ _ ∧ _ ∧ _))
  | .putBlock _ => inferInstanceAs (Decidable (_ ∧ ∃ i < _, _))
  | .markBlockDirty _ => inferInstanceAs (Decidable (_ ∧ True))
  | .flush => inferInstanceAs (Decidable (_ ∧ v.owed = []))

instance (op : Op) : (p : Option (State Mem × View)) → Decidable (Allowed p op)
  | none => isTrue nofun
  | some (s, v) => decidable_of_iff (Legal op s v)
      ⟨fun legal _ _ same => by cases same; exact legal, fun all => all s v rfl⟩

instance (op : Op) : (p : Option (State Mem × View)) → Decidable (InPlace p op)
  | none => isTrue nofun
  | some (s, v) => decidable_of_iff (s.cache.fsOffset = 0 ∨ writesBack op s = false)
      ⟨fun here _ _ same => by cases same; exact here, fun all => all s v rfl⟩

theorem Coherent.run_answered {ops : List Op}
    (allowed : EachStep advance Allowed (some (s, v)) ops)
    (inPlace : EachStep advance InPlace (some (s, v)) ops) : EachStep advance Answered (some (s, v)) ops := by
  induction ops generalizing s v free lru with
  | nil => exact eachStep_nil
  | cons op ops ih =>
    obtain ⟨legal, allowed⟩ := eachStep_cons.mp allowed
    obtain ⟨here, inPlace⟩ := eachStep_cons.mp inPlace
    obtain ⟨answer, t, free', lru', result, correct, after⟩ :=
      coherent.step_goes (legal s v rfl) (here s v rfl)
    have next : advance (some (s, v)) op = some (t, specStep s.cache op v) := by
      simp [advance, result]
    rw [next] at allowed inPlace
    refine eachStep_cons.mpr ⟨⟨s, v, answer, t, rfl, result, correct⟩, ?_⟩
    rw [next]
    exact ih after allowed inPlace

omit coherent

theorem coherent_create (blockSize count fsOffset : Nat) (uninit : Nat → Block) (m : Mem) :
    Coherent ⟨bcacheCreate blockSize count fsOffset uninit, m⟩ ⟨m, []⟩ (List.range count).reverse [] := by
  refine ⟨⟨lists_create blockSize count fsOffset uninit, by simp, by simp⟩, ?_, by simp, by simp, by simp,
    fun _ _ => rfl⟩
  intro i _
  exact ⟨rfl, rfl⟩

end

def start (blockSize count fsOffset : Nat) (uninit : Nat → Block) (m : Mem) : Option (State Mem × View) :=
  some (⟨bcacheCreate blockSize count fsOffset uninit, m⟩, ⟨m, []⟩)

/-- Every operation of a run is answered from the view, as long as no block is written while there is an
offset. -/
theorem run_coherent (blockSize count fsOffset : Nat) (uninit : Nat → Block) (m : Mem) (ops : List Op)
    (allowed : EachStep advance Allowed (start blockSize count fsOffset uninit m) ops)
    (inPlace : EachStep advance InPlace (start blockSize count fsOffset uninit m) ops) :
    EachStep advance Answered (start blockSize count fsOffset uninit m) ops :=
  (coherent_create blockSize count fsOffset uninit m).run_answered allowed inPlace

def blank : Nat → Block := fun _ => ⟨0, 0, false, [], none⟩

def editedRun : List Op :=
  [.getBlock 3, .edit 1 [9], .markBlockDirty 3, .putBlock 3, .readBlock 5, .readBlock 6, .zeroBlock 5, .flush,
    .readBlock 3]

theorem run_coherent_edited : EachStep advance Allowed (start 1 2 0 blank fun _ => 7) editedRun ∧
      EachStep advance Answered (start 1 2 0 blank fun _ => 7) editedRun :=
  ⟨by decide +kernel, run_coherent 1 2 0 blank (fun _ => 7) editedRun (by decide +kernel) (by decide +kernel)⟩

/-- With an offset of one, a block that is cleared goes to byte zero of the device. -/
theorem run_coherent_offset : ¬ ∀ (blockSize count fsOffset : Nat) (uninit : Nat → Block) (m : Mem) (ops : List Op),
      EachStep advance Allowed (start blockSize count fsOffset uninit m) ops →
        EachStep advance Answered (start blockSize count fsOffset uninit m) ops := by
  intro claim
  have each := claim 1 1 1 blank (fun _ => 7) [.zeroBlock 0, .flush] (by decide)
  obtain ⟨s, v, answer, t, before, result, -, dev⟩ := each [.zeroBlock 0] .flush (List.prefix_refl _)
  have view : (advance (start 1 1 1 blank fun _ => 7) (.zeroBlock 0)).map (fun p => p.2.mem 1) = some 0 := by
    decide
  have device : ((advance (start 1 1 1 blank fun _ => 7) (.zeroBlock 0)).bind fun p =>
      (step memDevice .flush p.1).map fun result => result.2.dev 1) = some 7 := by
    decide
  change advance (start 1 1 1 blank fun _ => 7) (.zeroBlock 0) = some (s, v) at before
  simp only [before, Option.map_some, Option.bind_some, Option.some.injEq, result] at view device
  rw [dev, view] at device
  cases device

end Cboot.Bcache
