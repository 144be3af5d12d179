import Cboot.BlUpdate.Calls
import Cboot.Nvblob.Bounds

/-!
No partition is updated twice by a payload, a partition that another one depends on is updated before it,
and nothing is written behind a write that failed.
-/

namespace Cboot.BlUpdate
open Lib Attempt Nvblob

section
variable {σ : Type}

def Event.updatingName : Event → Option Text
  | .updating name => some (shortName name)
  | _ => none

def Event.Writes : Event → Prop
  | .updating _ => True
  | .write _ _ _ => True
  | _ => False

/-- `needed` are the partitions that the payload has an image for. -/
structure InOrder (cfg : Config) (needed : List UInt8 → Prop) (log : List Event) : Prop where
  once : (log.filterMap Event.updatingName).Nodup
  dependencies : ∀ before name after, log = before ++ .updating name :: after →
    ∀ part, getDependency cfg name = some part → needed part →
      ∃ other, shortName other = shortName part ∧ .updated other none ∈ before
  stops : log.Pairwise fun event later => event.Failed → ¬ later.Writes

variable {cfg : Config} {needed : List UInt8 → Prop}

theorem inOrder_nil : InOrder cfg needed [] := by
  refine ⟨by simp, ?_, List.Pairwise.nil⟩
  intro before name after split
  simp at split

variable {events : List Event}

theorem filterMap_updatingName_inner (inner : ∀ ev ∈ events, ev.Inner) :
    events.filterMap Event.updatingName = [] := by
  apply List.filterMap_eq_nil_iff.mpr
  intro ev member
  have here := inner ev member
  cases ev <;> simp [Event.Inner] at here <;> rfl

theorem Stopped.inner (stopped : Stopped events) : ∀ ev ∈ events, ev.Inner := by
  obtain ⟨before, last, rfl, quiet, -, inner⟩ := stopped
  intro ev member
  obtain early | late := List.mem_append.mp member
  · exact (quiet ev early).1
  · exact inner ev late

theorem Quiet.stopped (quiet : Quiet events) : Stopped events :=
  ⟨events, [], (List.append_nil _).symm, quiet, by simp, by simp⟩

theorem stops_updateEvents {name : Text} {inner : List Event} {result : Option Error} (stopped : Stopped inner) :
    (updateEvents name inner result).Pairwise fun event later => event.Failed → ¬ later.Writes := by
  obtain ⟨before, last, rfl, quiet, short, -⟩ := stopped
  have fine : ∀ ev ∈ before, ¬ ev.Failed := fun ev member => (quiet ev member).2
  have one : last.Pairwise fun event later : Event => event.Failed → ¬ later.Writes := by
    cases last with
    | nil => exact List.Pairwise.nil
    | cons ev rest =>
      cases rest with
      | nil => exact List.pairwise_singleton _ _
      | cons => simp at short
  have calm : before.Pairwise fun event later : Event => event.Failed → ¬ later.Writes := by
    apply List.pairwise_of_forall_mem_list
    intro ev member _ _ failed
    exact absurd failed (fine ev member)
  unfold updateEvents
  apply List.pairwise_cons.mpr
  refine ⟨fun _ _ failed => failed.elim, ?_⟩
  apply List.pairwise_append.mpr
  refine ⟨List.pairwise_append.mpr ⟨calm, one, ?_⟩, List.pairwise_singleton _ _, ?_⟩
  · intro ev member _ _ failed
    exact absurd failed (fine ev member)
  · intro ev _ later member _
    rw [List.mem_singleton.mp member]
    exact id

theorem InOrder.append {log inner : List Event} {name : Text} {result : Option Error}
    (ordered : InOrder cfg needed log) (fine : ∀ ev ∈ log, ¬ ev.Failed)
    (new : shortName name ∉ log.filterMap Event.updatingName)
    (ready : ∀ part, getDependency cfg name = some part → needed part →
      ∃ other, shortName other = shortName part ∧ .updated other none ∈ log)
    (stopped : Stopped inner) : InOrder cfg needed (log ++ updateEvents name inner result) := by
  constructor
  · have names : (updateEvents name inner result).filterMap Event.updatingName = [shortName name] := by
      simp [updateEvents, Event.updatingName, filterMap_updatingName_inner stopped.inner]
    rw [List.filterMap_append, names]
    exact List.nodup_append.mpr ⟨ordered.once, by simp, fun a here b there => by
      rw [List.mem_singleton.mp there]
      exact fun same => new (same ▸ here)⟩
  · intro before other after split part dependency need
    obtain ⟨more, rfl, rest⟩ | ⟨more, rfl, rest⟩ := List.append_eq_append_iff.mp split
    · -- the event is one of the new ones, and only the first of them starts an update
      cases more with
      | nil =>
        cases rest
        rw [List.append_nil]
        exact ready part dependency need
      | cons first more =>
        exfalso
        have member : .updating other ∈ inner ++ [.updated name result] := by
          rw [(List.cons.inj rest).2]
          simp
        obtain here | last := List.mem_append.mp member
        · exact stopped.inner _ here
        · cases List.mem_singleton.mp last
    · cases more with
      | nil =>
        rw [List.nil_append] at rest
        cases rest
        rw [List.append_nil] at ready
        exact ready part dependency need
      | cons first more =>
        cases (List.cons.inj rest).1
        exact ordered.dependencies before other more rfl part dependency need
  · apply List.pairwise_append.mpr
    refine ⟨ordered.stops, stops_updateEvents stopped, ?_⟩
    intro ev member _ _ failed
    exact absurd failed (fine ev member)

def HasImage (m : Mem) (bh : BlobInfo) (n : Nat) (spec : Text) (production : Bool) (name : List UInt8) : Prop :=
  ∃ i < n, Suits m bh spec production name i

def Steady (P : Platform σ) (spec : Text) : Prop :=
  (∀ env, ∃ found env', P.nctGetSpec env = (.ok found, env') ∧ specText found = spec) ∨
    ∀ env, ∃ e env', P.nctGetSpec env = (.error e, env')

theorem Steady.answers {P : Platform σ} {spec : Text} (steady : Steady P spec) : Answers P spec := by
  intro env found env' lookup
  obtain always | never := steady
  · obtain ⟨found', env'', lookup', same⟩ := always env
    rw [lookup'] at lookup
    cases lookup
    exact same
  · obtain ⟨e, env'', lookup'⟩ := never env
    rw [lookup'] at lookup
    cases lookup

structure Good (cfg : Config) (P : Platform σ) (m : Mem) (bh : BlobInfo) (n : Nat) (spec : Text)
    (static : Static) (log : List Event) : Prop where
  known : Known spec static
  ordered : InOrder cfg (HasImage m bh n spec P.nvProductionMode) log
  fine : ∀ ev ∈ log, ¬ ev.Failed
  listed : ∀ name ∈ log.filterMap Event.updatingName, ∃ other ∈ static.list, shortName other = name
  covered : ∀ name, isPartitionUpdated static.list name = true → HasImage m bh n spec P.nvProductionMode name →
    (∃ other, shortName other = shortName name ∧ .updated other none ∈ log) ∨
      (static.globalNctSpec = [] ∧ ∀ env, ∃ e env', P.nctGetSpec env = (.error e, env'))

variable {P : Platform σ} {m : Mem} {bh : BlobInfo} {n : Nat} {spec : Text} {s : State σ} {name : List UInt8}

theorem HasImage.congr {production : Bool} {other : List UInt8} (image : HasImage m bh n spec production other)
    (same : shortName name = shortName other) : HasImage m bh n spec production name := by
  obtain ⟨i, inside, suits⟩ := image
  exact ⟨i, inside, suits.1.trans same.symm, suits.2⟩

theorem InOrder.append_noSpec {log : List Event} (ordered : InOrder cfg needed log)
    (fine : ∀ ev ∈ log, ¬ ev.Failed) (name : Text) : InOrder cfg needed (log ++ [.noSpec name]) := by
  constructor
  · have none : List.filterMap Event.updatingName [.noSpec name] = [] := rfl
    rw [List.filterMap_append, none, List.append_nil]
    exact ordered.once
  · intro before other after split part dependency need
    obtain ⟨more, rfl, rest⟩ | ⟨more, rfl, rest⟩ := List.append_eq_append_iff.mp split
    · cases more <;> simp at rest
    · cases more with
      | nil => simp at rest
      | cons first more =>
        cases (List.cons.inj rest).1
        exact ordered.dependencies before other more rfl part dependency need
  · apply List.pairwise_append.mpr
    refine ⟨ordered.stops, List.pairwise_singleton _ _, ?_⟩
    intro ev member _ _ failed
    exact absurd failed (fine ev member)

theorem Finds.not_never {found : Text} (finds : Finds P s found) :
    ¬ (s.static.globalNctSpec = [] ∧ ∀ env, ∃ e env', P.nctGetSpec env = (.error e, env')) := by
  intro never
  obtain ⟨cached, -⟩ | ⟨-, answer, env, lookup, -⟩ := finds
  · exact cached never.1
  · obtain ⟨e, env', failed⟩ := never.2 s.env
    rw [failed] at lookup
    cases lookup

variable (good : Good cfg P m bh n spec s.static s.log)
include good

theorem Good.new (new : isPartitionUpdated s.static.list name = false) :
    shortName name ∉ s.log.filterMap Event.updatingName := by
  intro member
  obtain ⟨other, listed, same⟩ := good.listed _ member
  have updated : isPartitionUpdated s.static.list name = true :=
    List.any_eq_true.mpr ⟨other, listed, by simpa using same⟩
  rw [new] at updated
  cases updated

theorem Good.ready {found : Text} (finds : Finds P s found)
    (listed : ∀ part, getDependency cfg name = some part → isPartitionUpdated s.static.list part = true) :
    ∀ part, getDependency cfg name = some part → HasImage m bh n spec P.nvProductionMode part →
      ∃ other, shortName other = shortName part ∧ .updated other none ∈ s.log := by
  intro part dependency image
  obtain updated | never := good.covered part (listed part dependency) image
  · exact updated
  · exact absurd never finds.not_never

theorem good_of_noSpec (steady : Steady P spec) {t : State σ}
    (misses : Misses P name s t) : Good cfg P m bh n spec (record name t.static) t.log := by
  obtain ⟨unknown, ⟨e, failed⟩, static, log⟩ := misses
  have never : ∀ env, ∃ e env', P.nctGetSpec env = (.error e, env') := by
    obtain always | never := steady
    · obtain ⟨found, env', lookup, -⟩ := always s.env
      rw [failed] at lookup
      cases lookup
    · exact never
  rw [static, log]
  refine ⟨good.known, good.ordered.append_noSpec good.fine _, ?_, ?_, ?_⟩
  · intro ev member
    obtain before | last := List.mem_append.mp member
    · exact good.fine ev before
    · rw [List.mem_singleton.mp last]
      exact id
  · intro other member
    rw [List.filterMap_append] at member
    obtain before | last := List.mem_append.mp member
    · obtain ⟨listed, inside, same⟩ := good.listed other before
      exact ⟨listed, List.mem_cons_of_mem _ inside, same⟩
    · cases last
  · intro other listed image
    obtain same | before := (isPartitionUpdated_cons ..).mp listed
    · exact Or.inr ⟨unknown, never⟩
    · obtain ⟨updated, same, member⟩ | stuck := good.covered other before image
      · exact Or.inl ⟨updated, same, List.mem_append_left _ member⟩
      · exact Or.inr stuck

theorem good_of_notFound (finds : Finds P s spec)
    (none : firstSuiting m bh spec P.nvProductionMode name n = none) :
    Good cfg P m bh n spec (record name (learned s spec)) s.log := by
  refine ⟨Or.inr rfl, good.ordered, good.fine, ?_, ?_⟩
  · intro other member
    obtain ⟨listed, inside, same⟩ := good.listed other member
    exact ⟨listed, List.mem_cons_of_mem _ inside, same⟩
  · intro other listed image
    obtain same | before := (isPartitionUpdated_cons ..).mp listed
    · obtain ⟨i, inside, suits⟩ := image.congr same
      exact absurd suits (firstSuiting_eq_none.mp none i inside)
    · obtain updated | stuck := good.covered other before image
      · exact Or.inl updated
      · exact absurd stuck finds.not_never

omit good in
theorem mem_updateEvents (name : Text) (inner : List Event) (result : Option Error) :
    .updated name result ∈ updateEvents name inner result :=
  List.mem_cons_of_mem _ (List.mem_append_right _ (List.mem_singleton_self _))

theorem good_of_updated (finds : Finds P s spec)
    (new : isPartitionUpdated s.static.list name = false)
    (ready : ∀ part, getDependency cfg name = some part → isPartitionUpdated s.static.list part = true)
    {part : Text} (same : shortName part = shortName name) {inner : List Event} (quiet : Quiet inner) :
    Good cfg P m bh n spec (record name (learned s spec)) (s.log ++ updateEvents part inner none) := by
  refine ⟨Or.inr rfl, ?_, ?_, ?_, ?_⟩
  · apply good.ordered.append good.fine
    · rw [same]
      exact good.new new
    · rw [getDependency_congr cfg same]
      exact good.ready finds ready
    · exact quiet.stopped
  · intro ev member
    obtain before | after := List.mem_append.mp member
    · exact good.fine ev before
    · obtain rfl | later := List.mem_cons.mp after
      · exact id
      · obtain here | last := List.mem_append.mp later
        · exact (quiet ev here).2
        · rw [List.mem_singleton.mp last]
          exact id
  · intro other member
    rw [List.filterMap_append] at member
    obtain before | after := List.mem_append.mp member
    · obtain ⟨listed, inside, same⟩ := good.listed other before
      exact ⟨listed, List.mem_cons_of_mem _ inside, same⟩
    · simp [updateEvents, Event.updatingName, filterMap_updatingName_inner quiet.stopped.inner] at after
      exact ⟨name, List.mem_cons_self, by rw [after, same]⟩
  · intro other listed image
    obtain here | before := (isPartitionUpdated_cons ..).mp listed
    · exact Or.inl ⟨part, same.trans here, List.mem_append_right _ (mem_updateEvents ..)⟩
    · obtain ⟨updated, same, member⟩ | stuck := good.covered other before image
      · exact Or.inl ⟨updated, same, List.mem_append_left _ member⟩
      · exact absurd stuck finds.not_never

omit good

theorem turn_keeps_good (blob : UpdateBlob m bh) (steady : Steady P spec) (numEntries : UInt32) :
    TurnKeeps cfg P m bh numEntries (fun s => Decided cfg s ∧ Good cfg P m bh numEntries.toNat spec s.static s.log)
      (fun _ t => InOrder cfg (HasImage m bh numEntries.toNat spec P.nvProductionMode) t.log) := by
  intro name s here new ready
  obtain ⟨decided, good⟩ := here
  have turned : Ends (updatePartition cfg P m bh name numEntries) s
      (fun _ t => (Decided cfg t ∧ t.static.list = s.static.list) ∧
        Good cfg P m bh numEntries.toNat spec (record name t.static) t.log)
      (fun _ t => InOrder cfg (HasImage m bh numEntries.toNat spec P.nvProductionMode) t.log) := by
    apply Ends.mono (updatePartition_ends cfg P blob decided name numEntries)
    · intro _ t outcome
      unfold Decided
      cases outcome with
      | noSpec misses =>
        refine ⟨?_, good_of_noSpec good steady misses⟩
        rw [misses.adds.static]
        exact ⟨decided, rfl⟩
      | notFound found finds none static log =>
        cases finds.eq steady.answers good.known
        rw [static, log]
        exact ⟨⟨decided, rfl⟩, good_of_notFound good finds none⟩
      | updated found finds i inner first static log quiet all =>
        cases finds.eq steady.answers good.known
        rw [static, log]
        have same := (shortName_text _).trans (suits_of_firstSuiting first).2.1
        exact ⟨⟨decided, rfl⟩, good_of_updated good finds new ready same quiet⟩
    · intro _ t outcome
      obtain ⟨found, i, events, finds, first, static, log, broken⟩ := outcome
      cases finds.eq steady.answers good.known
      rw [log]
      obtain rfl | ⟨inner, e, rfl, stopped⟩ := broken
      · rw [List.append_nil]
        exact good.ordered
      · have same := (shortName_text _).trans (suits_of_firstSuiting first).2.1
        apply good.ordered.append good.fine
        · rw [same]
          exact good.new new
        · rw [getDependency_congr cfg same]
          exact good.ready finds ready
        · exact stopped
  apply Ends.mono (updateAndRecord_ends turned fun _ t holds => holds.2.ordered)
  · intro _ t outcome
    obtain ⟨u, ⟨⟨decided', list⟩, good'⟩, log, -, static⟩ := outcome
    beta_reduce
    unfold Decided
    rw [static, log, ← list]
    exact ⟨⟨decided', good'⟩, rfl⟩
  · intro _ t failed
    exact failed

/-- One call of the update, after any calls before it. -/
theorem payload_in_order (cfg : Config) (P : Platform σ) (spec : Text) (m : Mem) (buff : Nat) (size : UInt32)
    (suffix : Option Text) (fuel : Nat) (s : State σ) (reached : Reached cfg spec s.static)
    (steady : Steady P spec) (start : s.log = [])
    (few : ((handle m buff).header m).numEntries.toNat ≤ 255) (enough : 256 ≤ fuel) :
    ∃ result t, tegrablCheckAndUpdateBlPayload cfg P m buff size suffix fuel s = some (result, t) ∧
      InOrder cfg (HasImage m (handle m buff) ((handle m buff).header m).numEntries.toNat spec
        P.nvProductionMode) t.log := by
  obtain ⟨empty, known⟩ := reached.invariant
  have opened : ∀ t, (opening cfg P (handle m buff) buff suffix).run (allocated P s) = (.ok (), t) →
      Decided cfg t ∧ Good cfg P m (handle m buff) ((handle m buff).header m).numEntries.toNat spec t.static
        t.log := by
    intro t ended
    obtain ⟨keeps, decided, -⟩ := (opening_ends cfg P _ buff suffix).1 _ t ended
    have log : t.log = [] := keeps.log.trans start
    have list : t.static.list = [] := keeps.list.trans empty
    refine ⟨decided, ?_, ?_, ?_, ?_, ?_⟩
    · unfold Known
      rw [keeps.spec]
      exact known
    · rw [log]
      exact inOrder_nil
    · rw [log]
      simp
    · rw [log]
      simp
    · rw [list]
      simp [isPartitionUpdated]
  have unopened : ∀ (e : Error) (t : State σ), Keeps s t → InOrder cfg
      (HasImage m (handle m buff) ((handle m buff).header m).numEntries.toNat spec P.nvProductionMode)
        t.log := by
    intro _ t keeps
    rw [keeps.log, start]
    exact inOrder_nil
  obtain ⟨result, t, ended⟩ := call_returns_of_few size empty
    (fun update => turn_keeps_good update steady _) opened unopened few enough
  refine ⟨result, t, ended, ?_⟩
  cases call_ends empty (fun update => turn_keeps_good update steady _) opened unopened ended with
  | idle keeps => exact unopened (.own .invalid 0) t keeps
  | done there passed after =>
    rw [after.log]
    exact there.2.ordered
  | failed there after =>
    rw [after.log]
    exact there

end

def sampleEntry (name : Text) (offset size : UInt32) : List UInt8 :=
  name ++ List.replicate (40 - name.length) 0 ++ words [offset, size, 0, 0] ++ List.replicate 64 0

def sampleMem : Mem := fun a =>
  (blobImage 292 48 2 blobUpdate (sampleEntry brBctPartitionName 288 2 ++
    sampleEntry mb2BlPartitionName 290 2 ++ [1, 2, 3, 4])).getD (a - 16) 0

def samplePlatform (lookup : Except Error (Text × Text)) (write : Text → Except Error Unit) :
    Platform Unit where
  verifyPayload := none
  updateBct := none
  getSlotNum := none
  getSlotViaSuffix := none
  getSlotSuffix := none
  isRatchetUpdateRequired := none
  isAlwaysAbPartition := none
  nctGetSpec := fun _ => (lookup, ())
  nvProductionMode := true
  partitionOpen := fun _ _ => (.ok (), ())
  partitionErase := fun _ _ => (.ok (), ())
  partitionWrite := fun name _ _ => (write name, ())
  onQspiFlash := fun _ => false
  memory := fun _ => (true, ())

def plainBuild : Config := ⟨false, false, false⟩
def firstState : State Unit := ⟨⟨[], [], false, false, none⟩, (), []⟩

def slotBuild : Config := ⟨true, false, false⟩

def slotPlatform (ratchet : Bool) (write : Except Error Unit) : Platform Unit :=
  { samplePlatform (.ok ([97], [98])) (fun _ => write) with
    getSlotNum := some fun _ => (.ok 2, ())
    getSlotViaSuffix := some fun _ _ => (.ok 0, ())
    getSlotSuffix := some fun slot name _ => (.ok (if slot = 0 then name else name ++ [95, 98]), ())
    isRatchetUpdateRequired := some fun _ _ => (.ok ratchet, ())
    isAlwaysAbPartition := some fun _ => false }

/-- The write of `BCT` fails. -/
theorem payload_in_order_bct :
    ∃ result t, tegrablCheckAndUpdateBlPayload plainBuild (samplePlatform (.ok ([97], [98])) fun name =>
        if name = brBctPartitionName then .error (.lower 1) else .ok ()) sampleMem 16 300 none 256 firstState =
        some (result, t) ∧ InOrder plainBuild (HasImage sampleMem (handle sampleMem 16) 2 [97, 46, 98] true) t.log := by
  have count : ((handle sampleMem 16).header sampleMem).numEntries.toNat = 2 := by decide
  have ordered := payload_in_order plainBuild (samplePlatform (.ok ([97], [98])) fun name =>
      if name = brBctPartitionName then .error (.lower 1) else .ok ()) [97, 46, 98] sampleMem 16 300 none 256
    firstState .start (Or.inl fun _ => ⟨_, _, rfl, rfl⟩) rfl (by rw [count]; decide) (Nat.le_refl _)
  rw [count] at ordered
  exact ordered

end Cboot.BlUpdate
