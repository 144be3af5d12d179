import Cboot.BlUpdate.Complete

/-!
Two histories of calls may leave different static variables behind.
-/

namespace Cboot.BlUpdate
open Lib Attempt Nvblob

section
variable {σ α β : Type}

def specOf (nct : Except Error (Text × Text)) : Text :=
  match nct with
  | .ok found => specText found
  | .error _ => []

def LooksUp (P : Platform σ) (nct : Except Error (Text × Text)) : Prop := ∀ env, P.nctGetSpec env = (nct, env)

structure Same (spec : Text) (s t : State σ) : Prop where
  env : s.env = t.env
  log : s.log = t.log
  list : s.static.list = t.static.list
  checked : s.static.isNewBupChecked = t.static.isNewBupChecked
  required : s.static.isRequired = t.static.isRequired
  suffix : s.static.updateSlotSuffix = t.static.updateSlotSuffix
  left : Known spec s.static
  right : Known spec t.static

variable {spec : Text}

theorem same_outside (f : σ → Except Error α × σ) : Alike (Same spec) (Same spec) (outside f) := by
  intro s t same
  change (f s.env).1 = (f t.env).1 ∧ Same spec { s with env := (f s.env).2 } { t with env := (f t.env).2 }
  rw [same.env]
  exact ⟨rfl, ⟨rfl, same.log, same.list, same.checked, same.required, same.suffix, same.left, same.right⟩⟩

theorem same_pure (a : α) : Alike (Same spec) (Same spec) (pure a : UpdateM σ α) := alike_pure a

theorem same_bind {c : UpdateM σ α} {f : α → UpdateM σ β} (first : Alike (Same spec) (Same spec) c)
    (next : ∀ a, Alike (Same spec) (Same spec) (f a)) : Alike (Same spec) (Same spec) (c >>= f) :=
  alike_bind first next fun _ _ same => same

theorem Same.noted {s t : State σ} (same : Same spec s t) (events : List Event) :
    Same spec { s with log := s.log ++ events } { t with log := t.log ++ events } :=
  ⟨same.env, by rw [same.log], same.list, same.checked, same.required, same.suffix, same.left, same.right⟩

theorem same_note (event : Event) : Alike (Same spec) (Same spec) (note event : UpdateM σ Unit) :=
  fun _ _ same => ⟨rfl, same.noted [event]⟩

theorem same_noted (event : Option Error → Event) {c : UpdateM σ Unit} (inner : Alike (Same spec) (Same spec) c) :
    Alike (Same spec) (Same spec) (noted event c) := by
  intro s t same
  obtain ⟨result, after⟩ := inner s t same
  refine ⟨result, ?_⟩
  change Same spec { (c.run s).2 with log := (c.run s).2.log ++ [event (failure (c.run s).1)] }
    { (c.run t).2 with log := (c.run t).2.log ++ [event (failure (c.run t).1)] }
  rw [result]
  exact after.noted _

section
variable (cfg : Config) (P : Platform σ)

theorem same_getFullPartName (slot : UInt32) (name : Text) :
    Alike (Same spec) (Same spec) (getFullPartName P slot name) := by
  unfold getFullPartName
  cases P.getSlotSuffix with
  | none => exact same_pure name
  | some callback => exact same_outside _

theorem same_getSlotNum : Alike (Same spec) (Same spec) (getSlotNum P) := by
  unfold getSlotNum
  cases P.getSlotNum with
  | none => exact alike_throw _
  | some callback => exact same_outside _

theorem same_getSlotViaSuffix : Alike (Same spec) (Same spec) (getSlotViaSuffix P) := by
  unfold getSlotViaSuffix
  cases P.getSlotSuffix with
  | none => exact alike_throw _
  | some _ =>
    cases P.getSlotViaSuffix with
    | none => exact alike_throw _
    | some callback =>
      intro s t same
      have called : Alike (Same spec) (Same spec) (outside (callback t.static.updateSlotSuffix)) :=
        same_outside _
      change (callback s.static.updateSlotSuffix s.env).1 = (callback t.static.updateSlotSuffix t.env).1 ∧
        Same spec { s with env := (callback s.static.updateSlotSuffix s.env).2 }
          { t with env := (callback t.static.updateSlotSuffix t.env).2 }
      rw [same.suffix]
      exact called s t same

theorem same_isUpdateAllSlotsRequired (blob : Option Nat) :
    Alike (Same spec) (Same spec) (isUpdateAllSlotsRequired P blob) := by
  intro s t same
  unfold isUpdateAllSlotsRequired
  simp only [run_call]
  by_cases checked : t.static.isNewBupChecked = true
  · simp only [same.checked, checked, if_true, same.required]
    exact ⟨trivial, same⟩
  · simp only [same.checked, checked]
    cases P.isRatchetUpdateRequired with
    | none =>
      exact ⟨rfl, ⟨same.env, same.log, same.list, rfl, rfl, same.suffix, same.left, same.right⟩⟩
    | some callback =>
      simp only [same.env]
      exact ⟨rfl, ⟨rfl, same.log, same.list, rfl, rfl, same.suffix, same.left, same.right⟩⟩

section
variable (name : Text)

theorem same_partitionHasSlot : Alike (Same spec) (Same spec) (partitionHasSlot P name) :=
  same_bind (same_getFullPartName P 1 (copiedName name)) fun _ => same_outside _

theorem same_isAlwaysAbPartition : Alike (Same spec) (Same spec) (isAlwaysAbPartition P name) := by
  unfold isAlwaysAbPartition
  cases P.isAlwaysAbPartition with
  | none => exact alike_throw _
  | some callback => exact same_pure _

theorem same_eraseQspi : Alike (Same spec) (Same spec) (eraseQspi cfg P name) := by
  unfold eraseQspi
  split
  · exact same_outside _
  · exact same_pure ()

variable (data : List UInt8)

theorem same_storeImage : Alike (Same spec) (Same spec) (storeImage P name data) := by
  unfold storeImage
  split <;> exact same_outside _

theorem same_writePartition :
    Alike (Same spec) (Same spec) (writePartition cfg P name data) := by
  apply same_noted
  apply same_bind (same_outside _)
  intro _
  exact same_bind (same_eraseQspi cfg P name) fun _ => same_storeImage P name data

theorem same_writeOtherSlots (updateSlot : UInt32) (slots : List Nat) :
    Alike (Same spec) (Same spec) (writeOtherSlots cfg P name data updateSlot slots) := by
  induction slots with
  | nil => exact same_pure ()
  | cons i slots ih =>
    unfold writeOtherSlots
    split
    · apply same_bind (same_getFullPartName P _ _)
      intro full
      exact same_bind (same_writePartition cfg P full data) fun _ => ih
    · exact ih

theorem same_writeNonCurrentSlots (updateSlot : UInt32) :
    Alike (Same spec) (Same spec) (writeNonCurrentSlots cfg P name data updateSlot) := by
  apply same_bind (same_getSlotNum P)
  intro num
  split
  · apply same_bind (same_isAlwaysAbPartition P name)
    intro always
    apply same_bind (same_isUpdateAllSlotsRequired P none)
    intro all
    apply same_bind (same_note _)
    intro _
    split
    · exact same_writeOtherSlots cfg P name data updateSlot _
    · exact same_pure ()
  · exact same_pure ()

theorem same_writeABPartition :
    Alike (Same spec) (Same spec) (writeABPartition cfg P name data) := by
  apply same_bind (same_getSlotViaSuffix P)
  intro updateSlot
  apply same_bind (same_partitionHasSlot P name)
  intro has
  split
  · apply same_bind (same_getFullPartName P _ _)
    intro full
    exact same_bind (same_writePartition cfg P full data) fun _ =>
      same_writeNonCurrentSlots cfg P name data updateSlot
  · exact same_writePartition cfg P name data

end

variable {P} {nct : Except Error (Text × Text)} (m : Mem) (bh : BlobInfo)

variable (lookup : LooksUp P nct)
include lookup

variable {s : State σ}

theorem specOrNone_run (known : Known (specOf nct) s.static) (name : List UInt8) :
    (specOrNone P name).run s =
      if specOf nct = [] then (.ok none, { s with log := s.log ++ [.noSpec (shortName name)] })
      else (.ok (some (specOf nct)), { s with static := { s.static with globalNctSpec := specOf nct } }) := by
  cases nct with
  | error e =>
    have unknown : s.static.globalNctSpec = [] := known.elim id id
    simp [specOrNone, getSpecInfo, unknown, lookup s.env, specOf]
  | ok found =>
    have some : specText found ≠ [] := specText_ne_nil found
    by_cases unknown : s.static.globalNctSpec = []
    · simp [specOrNone, getSpecInfo, unknown, lookup s.env, specOf, some]
    · have cached : s.static.globalNctSpec = specText found := known.resolve_left unknown
      simp [specOrNone, getSpecInfo, cached, specOf, some]
      rw [← cached]

variable (name : List UInt8)

theorem same_specOrNone :
    Alike (Same (specOf nct)) (Same (specOf nct)) (specOrNone P name) := by
  intro s t same
  rw [specOrNone_run lookup same.left, specOrNone_run lookup same.right]
  split
  · exact ⟨rfl, same.noted _⟩
  · exact ⟨rfl, ⟨same.env, same.log, same.list, same.checked, same.required, same.suffix, Or.inr rfl, Or.inr rfl⟩⟩

omit lookup in
theorem same_prepareImage (P : Platform σ) (name : Text) (data : Nat) :
    Alike (Same spec) (Same spec) (prepareImage cfg P name data) := by
  have aligned : Alike (Same spec) (Same spec) (if data % memAlignSize ≠ 0 then allocate P else pure ()) := by
    split
    · exact same_outside _
    · exact same_pure ()
  unfold prepareImage
  by_cases qspi : cfg.qspi = true
  · rw [if_pos qspi]
    exact same_bind (same_outside _) fun _ => same_bind (same_eraseQspi cfg P name) fun _ => aligned
  · rw [if_neg qspi]
    exact aligned

omit lookup in
theorem same_updateFromEntry (P : Platform σ) (i : Nat) (entry : ImageEntry) :
    Alike (Same spec) (Same spec) (updateFromEntry cfg P m bh i entry) := by
  cases found : tegrablBlobGetEntryData (some bh) i.toUInt32 m with
  | error e =>
    unfold updateFromEntry
    rw [found]
    exact alike_throw _
  | ok answer =>
    rw [updateFromEntry_eq cfg P found]
    apply same_bind (same_prepareImage cfg P _ _)
    intro _
    apply same_bind (same_note _)
    intro _
    apply same_noted
    unfold writeImage
    split
    · exact same_writeABPartition cfg P _ _
    · exact same_writePartition cfg P _ _

variable (numEntries : UInt32)

theorem same_updatePartition :
    Alike (Same (specOf nct)) (Same (specOf nct)) (updatePartition cfg P m bh name numEntries) := by
  apply same_bind (same_specOrNone lookup name)
  intro r
  cases r with
  | none => exact same_pure ()
  | some spec =>
    cases found : findEntry P m bh name spec 0 numEntries.toNat with
    | error e =>
      simp only [found]
      exact alike_throw e
    | ok entry =>
      simp only [found]
      cases entry with
      | none => exact same_pure ()
      | some entry => exact same_updateFromEntry cfg m bh P entry.1 entry.2

theorem same_updateAndRecord :
    Alike (Same (specOf nct)) (Same (specOf nct)) (updateAndRecord cfg P m bh name numEntries) := by
  apply same_bind (same_updatePartition cfg m bh lookup name numEntries)
  intro _
  apply same_bind (same_outside _)
  intro _ s t same
  exact ⟨rfl, ⟨same.env, same.log, congrArg (name :: ·) same.list, same.checked, same.required, same.suffix,
    same.left, same.right⟩⟩

theorem same_updatePartitionRecursive :
    Alike (Same (specOf nct)) (Same (specOf nct)) (updatePartitionRecursive cfg P m bh name numEntries) := by
  induction rank : dependencyRank name using Nat.strongRecOn generalizing name with
  | ind k ih =>
    intro s t same
    cases new : isPartitionUpdated t.static.list name with
    | true =>
      rw [updatePartitionRecursive_listed (by rw [same.list]; exact new), updatePartitionRecursive_listed new]
      exact ⟨rfl, same⟩
    | false =>
      cases dependency : getDependency cfg name with
      | none =>
        rw [updatePartitionRecursive_none (by rw [same.list]; exact new) dependency,
          updatePartitionRecursive_none new dependency]
        exact same_updateAndRecord cfg m bh lookup name numEntries s t same
      | some part =>
        rw [updatePartitionRecursive_some (by rw [same.list]; exact new) dependency,
          updatePartitionRecursive_some new dependency]
        have lower := rank ▸ dependencyRank_lt dependency
        exact same_bind (ih _ lower part rfl) (fun _ => same_updateAndRecord cfg m bh lookup name numEntries)
          s t same

theorem same_updateEntries (fuel : Nat) (i : UInt8)
    (status : Option Error) :
    Alike (Same (specOf nct)) (Same (specOf nct)) (updateEntries cfg P m bh numEntries fuel i status) := by
  induction fuel generalizing i status with
  | zero => exact same_pure false
  | succ fuel ih =>
    unfold updateEntries
    split
    · split
      · exact ih _ _
      · exact same_bind (same_updatePartitionRecursive cfg m bh lookup _ numEntries) fun _ => ih _ _
    · split
      · exact alike_throw _
      · exact same_pure true

theorem same_goThrough (fuel : Nat) :
    Alike (Same (specOf nct)) (Same (specOf nct)) (goThrough cfg P m bh numEntries fuel) := by
  apply same_bind (same_updateEntries cfg m bh lookup numEntries fuel 0 none)
  intro done
  unfold endABUpdate
  split
  · split
    · apply same_bind
      · intro s t same
        exact ⟨rfl, ⟨same.env, same.log, same.list, rfl, same.required, same.suffix, same.left, same.right⟩⟩
      · intro _
        exact same_pure done
    · exact same_pure done
  · exact same_pure done

omit lookup

/-- What the ratchet tells of the payload at `buff`. -/
def ratchetAnswer (P : Platform σ) (buff : Nat) (env : σ) : Bool :=
  match P.isRatchetUpdateRequired with
  | none => false
  | some callback => (callback (some buff) env).1.toOption.getD false

def ratchetAsked (P : Platform σ) (buff : Nat) (env : σ) : σ :=
  match P.isRatchetUpdateRequired with
  | none => env
  | some callback => (callback (some buff) env).2

variable (ab : cfg.abUpdate = true)
include ab

theorem beginABUpdate_unchecked
    (unchecked : s.static.isNewBupChecked = false) (buff : Nat) (suffix : Option Text) :
    (beginABUpdate cfg P buff suffix).run s = (.ok (), { s with
        env := ratchetAsked P buff s.env
        static := { s.static with
          isRequired := ratchetAnswer P buff s.env, isNewBupChecked := true, updateSlotSuffix := suffix } }) := by
  have asked : (isUpdateAllSlotsRequired P (some buff)).run s = (.ok (ratchetAnswer P buff s.env), { s with
        env := ratchetAsked P buff s.env
        static := { s.static with
          isRequired := ratchetAnswer P buff s.env, isNewBupChecked := true } }) := by
    unfold isUpdateAllSlotsRequired ratchetAnswer ratchetAsked
    cases P.isRatchetUpdateRequired with
    | none => simp [unchecked]
    | some callback => simp [unchecked]
  unfold beginABUpdate
  rw [if_pos ab, run_bind_ok asked]
  rfl

theorem beginABUpdate_checked
    (checked : s.static.isNewBupChecked = true) (buff : Nat) (suffix : Option Text) :
    (beginABUpdate cfg P buff suffix).run s =
      (.ok (), { s with static := { s.static with updateSlotSuffix := suffix } }) := by
  have asked : (isUpdateAllSlotsRequired P (some buff)).run s = (.ok s.static.isRequired, s) := by
    simp [isUpdateAllSlotsRequired, checked]
  unfold beginABUpdate
  rw [if_pos ab, run_bind_ok asked]
  rfl

theorem decision_iff (s : State σ) (buff : Nat) (suffix : Option Text) :
    ((beginABUpdate cfg P buff suffix).run s).2.static.isRequired = ratchetAnswer P buff s.env ↔
      s.static.isNewBupChecked = false ∨ s.static.isRequired = ratchetAnswer P buff s.env := by
  cases checked : s.static.isNewBupChecked with
  | false =>
    rw [beginABUpdate_unchecked cfg ab checked]
    simp
  | true =>
    rw [beginABUpdate_checked cfg ab checked]
    simp

/-- No decision is left over, or it is the one that the ratchet makes in `env`. -/
def Unspoiled (P : Platform σ) (buff : Nat) (env : σ) (static : Static) : Prop :=
  static.isNewBupChecked = false ∨ (static.isRequired = ratchetAnswer P buff env ∧ ratchetAsked P buff env = env)

theorem beginABUpdate_unspoiled {buff : Nat}
    (unspoiled : Unspoiled P buff s.env s.static) (suffix : Option Text) : (beginABUpdate cfg P buff suffix).run s =
      (.ok (), { s with
        env := ratchetAsked P buff s.env
        static := { s.static with
          isRequired := ratchetAnswer P buff s.env, isNewBupChecked := true, updateSlotSuffix := suffix } }) := by
  cases checked : s.static.isNewBupChecked with
  | false => exact beginABUpdate_unchecked cfg ab checked buff suffix
  | true =>
    obtain unchecked | ⟨answer, asked⟩ := unspoiled
    · rw [checked] at unchecked
      cases unchecked
    · rw [beginABUpdate_checked cfg ab checked, asked, ← answer]
      simp [← checked]

omit ab

def verifiedEnv (P : Platform σ) (bh : BlobInfo) (env : σ) : σ :=
  if cfg.blobSigning then
    match P.verifyPayload with
    | none => env
    | some verify => (verify bh env).2
  else env

/-- Two states before the decision, which is made in `env`. -/
structure Fresh (P : Platform σ) (spec : Text) (buff : Nat) (env now : σ) (s t : State σ) : Prop where
  here : s.env = now ∧ t.env = now
  log : s.log = t.log
  list : s.static.list = t.static.list
  left : Known spec s.static ∧ Unspoiled P buff env s.static
  right : Known spec t.static ∧ Unspoiled P buff env t.static

theorem fresh_verifying (P : Platform σ) (spec : Text) (buff : Nat) (env now : σ) :
    Alike (Fresh P spec buff env now) (Fresh P spec buff env (verifiedEnv cfg P bh now)) (verifying cfg P bh) := by
  unfold verifying verifiedEnv
  split
  · cases P.verifyPayload with
    | none => exact alike_pure ()
    | some verify =>
      intro s t fresh
      change (verify bh s.env).1 = (verify bh t.env).1 ∧
        Fresh P spec buff env _ { s with env := (verify bh s.env).2 } { t with env := (verify bh t.env).2 }
      rw [fresh.here.1, fresh.here.2]
      exact ⟨rfl, ⟨⟨rfl, rfl⟩, fresh.log, fresh.list, fresh.left, fresh.right⟩⟩
  · exact alike_pure ()

theorem fresh_beginABUpdate (P : Platform σ) (ab : cfg.abUpdate = true) (buff : Nat) (suffix : Option Text)
    (env : σ) : Alike (Fresh P spec buff env env) (Same spec) (beginABUpdate cfg P buff suffix) := by
  intro s t fresh
  obtain ⟨left, right⟩ := fresh.here
  rw [beginABUpdate_unspoiled cfg ab (by rw [left]; exact fresh.left.2),
    beginABUpdate_unspoiled cfg ab (by rw [right]; exact fresh.right.2), left, right]
  exact ⟨rfl, ⟨rfl, fresh.log, fresh.list, rfl, rfl, rfl, fresh.left.1, fresh.right.1⟩⟩

theorem fresh_opening {R : State σ → State σ → Prop} {c : UpdateM σ α} (P : Platform σ) (ab : cfg.abUpdate = true)
    (buff : Nat) (suffix : Option Text) (now : σ) (rest : Alike (Same spec) R c)
    (weaker : ∀ s t, s.log = t.log → R s t) : Alike (Fresh P spec buff (verifiedEnv cfg P bh now) now) R
      (opening cfg P bh buff suffix >>= fun _ => c) := by
  unfold opening
  rw [bind_assoc]
  apply alike_bind (fresh_verifying cfg bh P spec buff _ now) _ fun s t fresh => weaker s t fresh.log
  intro _
  exact alike_bind (fresh_beginABUpdate cfg P ab buff suffix _) (fun _ => rest) fun s t same => weaker s t same.log

theorem fresh_updatePayload (ab : cfg.abUpdate = true) (lookup : LooksUp P nct) (opened : bh.start ≠ 0)
    (buff : Nat) (suffix : Option Text) (fuel : Nat) (now : σ) :
    Alike (Fresh P (specOf nct) buff (verifiedEnv cfg P bh now) now) (fun s t => s.log = t.log)
      (updatePayload cfg P m bh buff suffix fuel) := by
  by_cases type : (bh.header m).type = blobUpdate
  · by_cases entries : (bh.header m).numEntries = 0
    · rw [updatePayload_no_entries cfg P ⟨opened, type⟩ entries]
      apply fresh_opening cfg bh P ab buff suffix now _ fun _ _ log => log
      exact fun _ _ same => ⟨rfl, same.log⟩
    · rw [updatePayload_eq cfg P ⟨opened, type⟩ entries]
      apply fresh_opening cfg bh P ab buff suffix now _ fun _ _ log => log
      intro s t same
      obtain ⟨result, after⟩ := same_goThrough cfg m bh lookup (bh.header m).numEntries fuel s t same
      exact ⟨result, after.log⟩
  · rw [updatePayload_other cfg P opened type]
    exact alike_bind (fresh_verifying cfg bh P _ buff _ now) (fun _ _ _ fresh => ⟨rfl, fresh.log⟩)
      fun _ _ fresh => fresh.log

end

def outcome (call : Option (Except Error Unit × State σ)) : Option (Except Error Unit × List Event) :=
  call.map fun ended => (ended.1, ended.2.log)

theorem outcome_finish {x y : Except Error Bool × State σ} (result : x.1 = y.1) (log : x.2.log = y.2.log) :
    outcome (finish x) = outcome (finish y) := by
  obtain ⟨r, s⟩ := x
  obtain ⟨r', t⟩ := y
  change r = r' at result
  change s.log = t.log at log
  subst result
  cases r with
  | error e => simp [outcome, finish, cleared, log]
  | ok done =>
    cases done with
    | false => rfl
    | true => simp [outcome, finish, cleared, log]

def decisionEnv (cfg : Config) (P : Platform σ) (m : Mem) (buff : Nat) (env : σ) : σ :=
  verifiedEnv cfg P (handle m buff) (P.memory env).2

/-- One call after two histories. -/
theorem payload_independent (cfg : Config) (P : Platform σ) (nct : Except Error (Text × Text)) (m : Mem)
    (buff : Nat) (size : UInt32) (suffix : Option Text) (fuel : Nat) (env : σ) (a b : Static)
    (ab : cfg.abUpdate = true) (lookup : LooksUp P nct) (left : Reached cfg (specOf nct) a)
    (right : Reached cfg (specOf nct) b) :
    (((beginABUpdate cfg P buff suffix).run ⟨a, decisionEnv cfg P m buff env, []⟩).2.static.isRequired =
        ratchetAnswer P buff (decisionEnv cfg P m buff env) ↔
      a.isNewBupChecked = false ∨ a.isRequired = ratchetAnswer P buff (decisionEnv cfg P m buff env)) ∧
    (Unspoiled P buff (decisionEnv cfg P m buff env) a → Unspoiled P buff (decisionEnv cfg P m buff env) b →
      outcome (tegrablCheckAndUpdateBlPayload cfg P m buff size suffix fuel ⟨a, env, []⟩) =
        outcome (tegrablCheckAndUpdateBlPayload cfg P m buff size suffix fuel ⟨b, env, []⟩)) := by
  refine ⟨decision_iff cfg ab ⟨a, decisionEnv cfg P m buff env, []⟩ buff suffix, ?_⟩
  intro leftFit rightFit
  obtain ⟨leftEmpty, leftKnown⟩ := left.invariant
  obtain ⟨rightEmpty, rightKnown⟩ := right.invariant
  by_cases blob : IsBlob m buff
  · rw [call_of_blob cfg P blob, call_of_blob cfg P blob]
    split
    · have fresh : Fresh P (specOf nct) buff (decisionEnv cfg P m buff env) (P.memory env).2
          (allocated P ⟨a, env, []⟩) (allocated P ⟨b, env, []⟩) :=
        ⟨⟨rfl, rfl⟩, rfl, leftEmpty.trans rightEmpty.symm, ⟨leftKnown, leftFit⟩, ⟨rightKnown, rightFit⟩⟩
      have valid : (handle m buff).start ≠ 0 := by
        rw [handle_start]
        exact blob.1
      obtain ⟨result, log⟩ := fresh_updatePayload cfg m (handle m buff) ab lookup valid buff suffix fuel
        (P.memory env).2 _ _ fresh
      exact outcome_finish result log
    · rfl
  · obtain ⟨result, after, returned⟩ := call_of_not_blob cfg P blob size suffix fuel env
    rw [returned, returned]
    rfl

end

theorem slotPlatform_looksUp (ratchet : Bool) (write : Except Error Unit) :
    LooksUp (slotPlatform ratchet write) (.ok ([97], [98])) := fun _ => rfl

def spoiled : Static := ⟨[97, 46, 98], [], true, true, none⟩

theorem spoiled_reached : Reached slotBuild (specOf (.ok ([97], [98]))) spoiled := by
  have failed : (tegrablCheckAndUpdateBlPayload slotBuild (slotPlatform true (.error (.lower 1))) sampleMem 16 300
      none 256 firstState).map (·.2.static) = some spoiled := by decide +kernel
  obtain ⟨⟨result, t⟩, ended, static⟩ := Option.map_eq_some_iff.mp failed
  rw [← static]
  refine .call ?_ .start ended
  intro env found env' lookup
  cases lookup
  rfl

/-- The ratchet is for all slots again: the payload is written as if there had been no other one. -/
theorem payload_independent_spoiled :
    outcome (tegrablCheckAndUpdateBlPayload slotBuild (slotPlatform true (.ok ())) sampleMem 16 300 none 256
        ⟨spoiled, (), []⟩) =
      outcome (tegrablCheckAndUpdateBlPayload slotBuild (slotPlatform true (.ok ())) sampleMem 16 300 none 256
        ⟨⟨[], [], false, false, none⟩, (), []⟩) :=
  (payload_independent slotBuild (slotPlatform true (.ok ())) (.ok ([97], [98])) sampleMem 16 300 none 256 ()
    spoiled ⟨[], [], false, false, none⟩ rfl (slotPlatform_looksUp true (.ok ())) spoiled_reached .start).2
    (Or.inr ⟨rfl, rfl⟩) (Or.inl rfl)

/-- The next payload is for one slot only, but is written to both. -/
theorem payload_independent_stale :
    ¬ ∀ (σ : Type) (cfg : Config) (P : Platform σ) (nct : Except Error (Text × Text)) (m : Mem) (buff : Nat)
      (size : UInt32) (suffix : Option Text) (fuel : Nat) (env : σ) (a b : Static), cfg.abUpdate = true →
      LooksUp P nct → Reached cfg (specOf nct) a → Reached cfg (specOf nct) b →
      outcome (tegrablCheckAndUpdateBlPayload cfg P m buff size suffix fuel ⟨a, env, []⟩) =
        outcome (tegrablCheckAndUpdateBlPayload cfg P m buff size suffix fuel ⟨b, env, []⟩) := by
  intro claim
  have same := claim Unit slotBuild (slotPlatform false (.ok ())) (.ok ([97], [98])) sampleMem 16 300 none 256 ()
    spoiled ⟨[], [], false, false, none⟩ rfl (slotPlatform_looksUp false (.ok ())) spoiled_reached .start
  exact absurd same (by decide +kernel)

end Cboot.BlUpdate
