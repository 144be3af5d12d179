import Cboot.BlUpdate.Order

/-!
A call that reports success has written the image for every partition that it had one for, but for the partitions that
came to their turn before the spec of the platform was found: a lookup that fails is not an error, and the partition
counts as updated.
-/

namespace Cboot.BlUpdate
open Lib Attempt Nvblob

section
variable {σ : Type}

/-- The partitions, of those in `order`, that come to their turn before a lookup of the spec succeeds. -/
def skipped (P : Platform σ) : List (List UInt8) → σ → List (List UInt8)
  | [], _ => []
  | name :: order, env =>
    match P.nctGetSpec env with
    | (.error _, env) => name :: skipped P order (P.memory env).2
    | (.ok _, _) => []

def skippedFrom (P : Platform σ) (o : State σ) (order : List (List UInt8)) : List (List UInt8) :=
  if o.static.globalNctSpec = [] then skipped P order o.env else []

def openedState (cfg : Config) (P : Platform σ) (m : Mem) (buff : Nat) (suffix : Option Text) (s : State σ) :
    State σ :=
  ((opening cfg P (handle m buff) buff suffix).run (allocated P s)).2

section
variable (cfg : Config) (P : Platform σ) (m : Mem) (bh : BlobInfo) (n : Nat) (spec : Text)
  (suffix : Option Text) (decision : Bool)

def Stored (name : List UInt8) (log : List Event) : Prop :=
  ∃ i before inner after, firstSuiting m bh spec P.nvProductionMode name n = some i ∧
    log = before ++ updateEvents (text (entryOf m bh i).partname) inner none ++ after ∧
    WritesAll cfg P m bh suffix decision i inner

/-- Every partition with a name in the blob for which there is an image is updated from the first one. -/
def Complete (log : List Event) : Prop :=
  ∀ i < n, HasImage m bh n spec P.nvProductionMode (entryOf m bh i).partname →
    Stored cfg P m bh n spec suffix decision (entryOf m bh i).partname log

/-- What holds between two turns. `gone` are the partitions that were skipped, in their order. -/
structure Progress (o s : State σ) (gone : List (List UInt8)) : Prop where
  decided : Decided cfg s
  suffixed : cfg.abUpdate = true → s.static.updateSlotSuffix = suffix
  decision : s.static.isRequired = o.static.isRequired
  known : Known spec s.static
  unknown : s.static.globalNctSpec = [] →
    ∀ rest, skippedFrom P o (s.static.list.reverse ++ rest) = gone ++ skipped P rest s.env
  found : s.static.globalNctSpec ≠ [] → ∀ rest, skippedFrom P o (s.static.list.reverse ++ rest) = gone
  listed : ∀ name ∈ s.log.filterMap Event.updatingName, ∃ other ∈ s.static.list, shortName other = name
  goneListed : ∀ name ∈ gone, isPartitionUpdated s.static.list name = true
  goneUnwritten : ∀ name ∈ gone, shortName name ∉ s.log.filterMap Event.updatingName
  stored : ∀ name, isPartitionUpdated s.static.list name = true → HasImage m bh n spec P.nvProductionMode name →
    (∃ other ∈ gone, shortName other = shortName name) ∨ Stored cfg P m bh n spec suffix o.static.isRequired name s.log

end

variable {cfg : Config} {P : Platform σ} {m : Mem} {bh : BlobInfo} {n : Nat} {spec : Text}
  {suffix : Option Text} {decision : Bool} {name other : List UInt8} {log : List Event}

theorem firstSuiting_congr {production : Bool} (same : shortName name = shortName other) :
    firstSuiting m bh spec production name n = firstSuiting m bh spec production other n := by
  have suits : ∀ i, Suits m bh spec production name i ↔ Suits m bh spec production other i := by
    intro i
    unfold Suits
    rw [same]
  simp only [firstSuiting, suits]

theorem Stored.congr (stored : Stored cfg P m bh n spec suffix decision other log)
    (same : shortName name = shortName other) : Stored cfg P m bh n spec suffix decision name log := by
  unfold Stored at stored ⊢
  rw [firstSuiting_congr same]
  exact stored

theorem Stored.append (stored : Stored cfg P m bh n spec suffix decision name log) (events : List Event) :
    Stored cfg P m bh n spec suffix decision name (log ++ events) := by
  obtain ⟨i, before, inner, after, first, rfl, all⟩ := stored
  exact ⟨i, before, inner, after ++ events, first, by rw [← List.append_assoc], all⟩

theorem WritesAll.congr {suffix' : Option Text} {i : Nat} {inner : List Event}
    (all : WritesAll cfg P m bh suffix decision i inner) (same : cfg.abUpdate = true → suffix = suffix') :
    WritesAll cfg P m bh suffix' decision i inner := by
  unfold WritesAll at all ⊢
  by_cases ab : cfg.abUpdate = true
  · rw [← same ab]
    exact all
  · rw [if_neg ab] at all ⊢
    exact all

theorem Stored.updating (stored : Stored cfg P m bh n spec suffix decision name log) :
    shortName name ∈ log.filterMap Event.updatingName := by
  obtain ⟨i, before, inner, after, first, rfl, -⟩ := stored
  have same : shortName (text (entryOf m bh i).partname) = shortName name :=
    (shortName_text _).trans (suits_of_firstSuiting first).2.1
  apply List.mem_filterMap.mpr
  exact ⟨.updating (text (entryOf m bh i).partname), by simp [updateEvents], congrArg some same⟩

theorem HasImage.first {production : Bool} (image : HasImage m bh n spec production name) :
    ∃ i, firstSuiting m bh spec production name n = some i := by
  cases first : firstSuiting m bh spec production name n with
  | some i => exact ⟨i, rfl⟩
  | none =>
    obtain ⟨i, inside, suits⟩ := image
    exact absurd suits (firstSuiting_eq_none.mp first i inside)

theorem shortName_ne_of_new {list : List (List UInt8)} (new : isPartitionUpdated list name = false)
    (listed : isPartitionUpdated list other = true) : shortName other ≠ shortName name := by
  intro same
  rw [isPartitionUpdated_congr list same, new] at listed
  cases listed

theorem reverse_cons_append (list rest : List (List UInt8)) (name : List UInt8) :
    (name :: list).reverse ++ rest = list.reverse ++ name :: rest := by
  simp

variable {o s t : State σ} {gone : List (List UInt8)}

variable (progress : Progress cfg P m bh n spec suffix o s gone)
include progress

theorem Progress.skipped_of_finds {found : Text}
    (finds : Finds P s found) (name : List UInt8) (rest : List (List UInt8)) :
    skippedFrom P o ((name :: s.static.list).reverse ++ rest) = gone := by
  rw [reverse_cons_append]
  obtain ⟨cached, -⟩ | ⟨unknown, answer, env, lookup, -⟩ := finds
  · exact progress.found cached _
  · rw [progress.unknown unknown, skipped, lookup, List.append_nil]

theorem Progress.not_updating
    (new : isPartitionUpdated s.static.list name = false) : shortName name ∉ s.log.filterMap Event.updatingName := by
  intro member
  obtain ⟨other, inside, same⟩ := progress.listed _ member
  have listed : isPartitionUpdated s.static.list other = true :=
    List.any_eq_true.mpr ⟨other, inside, by simp⟩
  exact shortName_ne_of_new new listed same

theorem Progress.of_noSpec
    (new : isPartitionUpdated s.static.list name = false) (misses : Misses P name s t) {u : State σ}
    (env : u.env = (P.memory t.env).2) (log : u.log = t.log) (static : u.static = record name t.static) :
    Progress cfg P m bh n spec suffix o u (gone ++ [name]) := by
  obtain ⟨unknown, ⟨e, failed⟩, kept, noted⟩ := misses
  have names : u.log.filterMap Event.updatingName = s.log.filterMap Event.updatingName := by
    rw [log, noted, List.filterMap_append]
    exact List.append_nil _
  rw [kept] at static
  constructor
  · intro ab
    rw [static]
    exact progress.decided ab
  · intro ab
    rw [static]
    exact progress.suffixed ab
  · rw [static]
    exact progress.decision
  · rw [static]
    exact progress.known
  · intro _ rest
    rw [static, env]
    change skippedFrom P o ((name :: s.static.list).reverse ++ rest) = _
    rw [reverse_cons_append, progress.unknown unknown, skipped, failed]
    simp
  · intro known
    rw [static] at known
    exact absurd unknown known
  · rw [names, static]
    intro other member
    obtain ⟨listed, inside, same⟩ := progress.listed other member
    exact ⟨listed, List.mem_cons_of_mem _ inside, same⟩
  · rw [static]
    intro other member
    apply (isPartitionUpdated_cons ..).mpr
    obtain before | last := List.mem_append.mp member
    · exact Or.inr (progress.goneListed other before)
    · exact Or.inl (by rw [List.mem_singleton.mp last])
  · rw [names]
    intro other member
    obtain before | last := List.mem_append.mp member
    · exact progress.goneUnwritten other before
    · rw [List.mem_singleton.mp last]
      exact progress.not_updating new
  · rw [static]
    intro other listed image
    obtain same | before := (isPartitionUpdated_cons ..).mp listed
    · exact Or.inl ⟨name, by simp, same⟩
    · obtain ⟨skip, member, same⟩ | stored := progress.stored other before image
      · exact Or.inl ⟨skip, List.mem_append_left _ member, same⟩
      · right
        rw [log, noted]
        exact stored.append _

theorem Progress.of_finds (finds : Finds P s spec)
    (new : isPartitionUpdated s.static.list name = false) {u : State σ}
    (static : u.static = record name (learned s spec)) (events : List Event) (log : u.log = s.log ++ events)
    (names : ∀ other ∈ events.filterMap Event.updatingName, other = shortName name)
    (stored : HasImage m bh n spec P.nvProductionMode name →
      Stored cfg P m bh n spec suffix o.static.isRequired name u.log) : Progress cfg P m bh n spec suffix o u gone := by
  have member : ∀ other ∈ u.log.filterMap Event.updatingName,
      other ∈ s.log.filterMap Event.updatingName ∨ other = shortName name := by
    intro other member
    rw [log, List.filterMap_append] at member
    obtain before | after := List.mem_append.mp member
    · exact Or.inl before
    · exact Or.inr (names other after)
  constructor
  · intro ab
    rw [static]
    exact progress.decided ab
  · intro ab
    rw [static]
    exact progress.suffixed ab
  · rw [static]
    exact progress.decision
  · rw [static]
    exact Or.inr rfl
  · intro unknown
    rw [static] at unknown
    exact absurd unknown finds.ne_nil
  · intro _ rest
    rw [static]
    exact progress.skipped_of_finds finds name rest
  · intro other updating
    rw [static]
    obtain before | same := member other updating
    · obtain ⟨listed, inside, same⟩ := progress.listed other before
      exact ⟨listed, List.mem_cons_of_mem _ inside, same⟩
    · exact ⟨name, List.mem_cons_self, same.symm⟩
  · rw [static]
    intro other skip
    exact (isPartitionUpdated_cons ..).mpr (Or.inr (progress.goneListed other skip))
  · intro other skip updating
    obtain before | same := member _ updating
    · exact progress.goneUnwritten other skip before
    · exact shortName_ne_of_new new (progress.goneListed other skip) same
  · rw [static]
    intro other listed image
    obtain same | before := (isPartitionUpdated_cons ..).mp listed
    · exact Or.inr ((stored (image.congr same)).congr same.symm)
    · obtain skip | earlier := progress.stored other before image
      · exact Or.inl skip
      · right
        rw [log]
        exact earlier.append _

omit progress in
theorem turn_keeps_progress (blob : UpdateBlob m bh) (answers : Answers P spec) (numEntries : UInt32)
    (suffix : Option Text) (o : State σ) :
    TurnKeeps cfg P m bh numEntries (fun s => ∃ gone, Progress cfg P m bh numEntries.toNat spec suffix o s gone)
      (fun _ _ => True) := by
  intro name s here new _
  obtain ⟨gone, progress⟩ := here
  have turned : Ends (updatePartition cfg P m bh name numEntries) s
      (fun _ t => Turned cfg P m bh numEntries.toNat name s t) (fun _ _ => True) :=
    Ends.mono (updatePartition_ends cfg P blob progress.decided name numEntries) (fun _ _ outcome => outcome)
      fun _ _ _ => trivial
  apply Ends.mono (updateAndRecord_ends turned fun _ _ _ => trivial)
  · intro _ u outcome
    obtain ⟨t, outcome, log, env, static⟩ := outcome
    have list : u.static.list = name :: t.static.list := by rw [static]; rfl
    cases outcome with
    | noSpec misses =>
      refine ⟨⟨gone ++ [name], progress.of_noSpec new misses env log static⟩, ?_⟩
      rw [list, misses.adds.static]
    | notFound found finds none learnt same =>
      cases finds.eq answers progress.known
      rw [learnt] at static list
      refine ⟨⟨gone, progress.of_finds finds new static [] ?_ (by simp) ?_⟩, list⟩
      · rw [log, same, List.append_nil]
      · intro image
        obtain ⟨i, first⟩ := image.first
        rw [none] at first
        cases first
    | updated found finds i inner first learnt same quiet all =>
      cases finds.eq answers progress.known
      rw [learnt] at static list
      have named := (shortName_text _).trans (suits_of_firstSuiting first).2.1
      refine ⟨⟨gone, progress.of_finds finds new static _ (log.trans same) ?_ ?_⟩, list⟩
      · intro other member
        simp [updateEvents, Event.updatingName, filterMap_updatingName_inner quiet.stopped.inner] at member
        rw [member, named]
      · intro _
        rw [progress.decision] at all
        exact ⟨i, s.log, inner, [], first, by rw [log, same, List.append_nil], all.congr progress.suffixed⟩
  · intro _ _ _
    trivial

def turnOrder (cfg : Config) (m : Mem) (bh : BlobInfo) (n : Nat) : List (List UInt8) :=
  (turns cfg (entryNames m bh n)).reverse

theorem Progress.skipped_eq :
    skippedFrom P o s.static.list.reverse = gone := by
  rw [← List.append_nil s.static.list.reverse]
  by_cases unknown : s.static.globalNctSpec = []
  · rw [progress.unknown unknown]
    exact List.append_nil gone
  · exact progress.found unknown []

theorem Progress.complete_iff
    (all : s.static.list = turns cfg (entryNames m bh n)) :
    Complete cfg P m bh n spec suffix o.static.isRequired s.log ↔
      ∀ name ∈ gone, ¬ HasImage m bh n spec P.nvProductionMode name := by
  constructor
  · intro complete name skip image
    obtain ⟨i, inside, suits⟩ := image
    have same : shortName (entryOf m bh i).partname = shortName name := suits.1
    have stored := complete i inside ⟨i, inside, rfl, suits.2⟩
    exact progress.goneUnwritten name skip (same ▸ stored.updating)
  · intro none i inside image
    have listed : isPartitionUpdated s.static.list (entryOf m bh i).partname = true := by
      rw [all]
      exact listed_turns (List.mem_map.mpr ⟨i, List.mem_range.mpr inside, rfl⟩)
    obtain ⟨name, skip, same⟩ | stored := progress.stored _ listed image
    · exact absurd (image.congr same) (none name skip)
    · exact stored

omit progress

/-- A success is complete exactly where no partition that there is an image for is skipped. -/
theorem update_complete_iff (cfg : Config) (P : Platform σ) (spec : Text) (m : Mem) (buff : Nat) (size : UInt32)
    (suffix : Option Text) (fuel : Nat) (s t : State σ) (reached : Reached cfg spec s.static)
    (answers : Answers P spec) (start : s.log = []) (blob : IsBlob m buff) (update : UpdateBlob m (handle m buff))
    (ended : tegrablCheckAndUpdateBlPayload cfg P m buff size suffix fuel s = some (.ok (), t)) :
    Complete cfg P m (handle m buff) ((handle m buff).header m).numEntries.toNat spec suffix
        (openedState cfg P m buff suffix s).static.isRequired t.log ↔
      ∀ name ∈ skippedFrom P (openedState cfg P m buff suffix s)
          (turnOrder cfg m (handle m buff) ((handle m buff).header m).numEntries.toNat),
        ¬ HasImage m (handle m buff) ((handle m buff).header m).numEntries.toNat spec P.nvProductionMode name := by
  obtain ⟨empty, known⟩ := reached.invariant
  have opened : ∀ v, (opening cfg P (handle m buff) buff suffix).run (allocated P s) = (.ok (), v) →
      ∃ gone, Progress cfg P m (handle m buff) ((handle m buff).header m).numEntries.toNat spec
        suffix (openedState cfg P m buff suffix s) v gone := by
    intro v ran
    have here : openedState cfg P m buff suffix s = v := by
      unfold openedState
      rw [ran]
    obtain ⟨keeps, decided, suffixed⟩ := (opening_ends cfg P _ buff suffix).1 _ v ran
    have log : v.log = [] := keeps.log.trans start
    have list : v.static.list = [] := keeps.list.trans empty
    rw [here]
    refine ⟨[], decided, suffixed, rfl, ?_, ?_, ?_, ?_, ?_, ?_, ?_⟩
    · unfold Known
      rw [keeps.spec]
      exact known
    · intro unknown rest
      rw [list, skippedFrom, if_pos unknown]
      rfl
    · intro cached rest
      rw [skippedFrom, if_neg cached]
    · simp [log]
    · simp
    · simp
    · simp [list, isPartitionUpdated]
  cases call_ends empty (fun update => turn_keeps_progress update answers _ suffix _) opened (fun _ _ _ => trivial)
    ended with
  | idle keeps reason => exact absurd update (reason rfl blob)
  | @done _ u there passed after =>
    obtain ⟨gone, progress⟩ := there
    have all := (passed.2 rfl).2
    rw [after.log, turnOrder, ← all, progress.skipped_eq]
    exact progress.complete_iff all

end

theorem sampleMem_isBlob : IsBlob sampleMem 16 := ⟨by decide, 0, 292, by decide⟩

theorem sampleMem_update : UpdateBlob sampleMem (handle sampleMem 16) :=
  ⟨by decide, by decide⟩

/-- The spec is found at once, and the ratchet is for all slots: both partitions are written to both slots. -/
theorem update_complete_slots :
    ∃ t, tegrablCheckAndUpdateBlPayload slotBuild (slotPlatform true (.ok ())) sampleMem 16 300 none 256 firstState =
        some (.ok (), t) ∧
      (openedState slotBuild (slotPlatform true (.ok ())) sampleMem 16 none firstState).static.isRequired = true ∧
      Complete slotBuild (slotPlatform true (.ok ())) sampleMem (handle sampleMem 16)
        ((handle sampleMem 16).header sampleMem).numEntries.toNat [97, 46, 98] none true t.log := by
  have fine : (tegrablCheckAndUpdateBlPayload slotBuild (slotPlatform true (.ok ())) sampleMem 16 300 none 256
      firstState).map (·.1) = some (.ok ()) := by decide +kernel
  obtain ⟨⟨result, t⟩, ended, rfl⟩ := Option.map_eq_some_iff.mp fine
  have every : (openedState slotBuild (slotPlatform true (.ok ())) sampleMem 16 none firstState).static.isRequired =
      true := by decide
  have none : skippedFrom (slotPlatform true (.ok ()))
      (openedState slotBuild (slotPlatform true (.ok ())) sampleMem 16 none firstState)
      (turnOrder slotBuild sampleMem (handle sampleMem 16)
        ((handle sampleMem 16).header sampleMem).numEntries.toNat) = [] := by decide +kernel
  have answers : Answers (slotPlatform true (.ok ())) [97, 46, 98] := by
    intro _ _ _ lookup
    cases lookup
    rfl
  have complete := update_complete_iff slotBuild _ [97, 46, 98] sampleMem 16 300 _ 256 firstState t .start answers
    rfl sampleMem_isBlob sampleMem_update ended
  rw [every, none] at complete
  exact ⟨t, ended, every, complete.mpr (by simp)⟩

/-- The spec is never found: nothing is written, and the call reports success. -/
theorem update_complete_skipped :
    ¬ ∀ (σ : Type) (cfg : Config) (P : Platform σ) (spec : Text) (m : Mem) (buff : Nat) (size : UInt32)
      (suffix : Option Text) (fuel : Nat) (s t : State σ), Reached cfg spec s.static → Answers P spec →
      s.log = [] → IsBlob m buff → UpdateBlob m (handle m buff) →
      tegrablCheckAndUpdateBlPayload cfg P m buff size suffix fuel s = some (.ok (), t) →
      Complete cfg P m (handle m buff) ((handle m buff).header m).numEntries.toNat spec suffix
        (openedState cfg P m buff suffix s).static.isRequired t.log := by
  intro claim
  have skip : (tegrablCheckAndUpdateBlPayload plainBuild (samplePlatform (.error (.lower 1)) fun _ => .ok ())
      sampleMem 16 300 none 256 firstState).map (fun r => (r.1, r.2.log)) =
      some (.ok (), [.noSpec mb2BlPartitionName, .noSpec brBctPartitionName]) := by decide +kernel
  obtain ⟨⟨result, t⟩, ended, outcome⟩ := Option.map_eq_some_iff.mp skip
  obtain ⟨fine, log⟩ := Prod.mk.inj outcome
  change result = .ok () at fine
  change t.log = _ at log
  subst fine
  have answers : Answers (samplePlatform (.error (.lower 1)) fun _ => .ok ()) [97, 46, 98] := by
    intro _ _ _ lookup
    cases lookup
  have count : 0 < ((handle sampleMem 16).header sampleMem).numEntries.toNat := by decide
  have suits : Suits sampleMem (handle sampleMem 16) [97, 46, 98] true
      (entryOf sampleMem (handle sampleMem 16) 0).partname 0 := by decide
  have complete := claim Unit plainBuild _ [97, 46, 98] sampleMem 16 300 none 256 firstState t .start answers rfl
    sampleMem_isBlob sampleMem_update ended
  have updating := (complete 0 count ⟨0, count, suits⟩).updating
  rw [log] at updating
  simp [Event.updatingName] at updating

end Cboot.BlUpdate
