import Cboot.BlUpdate.Loop

/-!
One call opens the blob, decides on the slots and goes through the entries.
-/

namespace Cboot.BlUpdate
open Lib Attempt Nvblob

section
variable {σ : Type} {m : Mem} {bh : BlobInfo} {s : State σ}

section
variable (cfg : Config) (P : Platform σ)

def verifying (bh : BlobInfo) : UpdateM σ Unit := do
  if cfg.blobSigning then
    if let some verify := P.verifyPayload then
      outside (verify bh)

def opening (bh : BlobInfo) (buff : Nat) (suffix : Option Text) : UpdateM σ Unit :=
  verifying cfg P bh >>= fun _ => beginABUpdate cfg P buff suffix

def goThrough (m : Mem) (bh : BlobInfo) (numEntries : UInt32) (fuel : Nat) : UpdateM σ Bool := do
  let done ← updateEntries cfg P m bh numEntries fuel 0 none
  if done then
    endABUpdate cfg
  return done

theorem getType_opened (opened : bh.start ≠ 0) : tegrablBlobGetType (some bh) m = .ok (bh.header m).type := by
  unfold tegrablBlobGetType
  rw [checked_opened opened]
  rfl

theorem getNumEntries_opened (opened : bh.start ≠ 0) :
    tegrablBlobGetNumEntries (some bh) m = .ok (bh.header m).numEntries := by
  unfold tegrablBlobGetNumEntries
  rw [checked_opened opened]
  rfl

theorem updatePayload_eq (blob : UpdateBlob m bh) (some_entries : (bh.header m).numEntries ≠ 0) (buff : Nat)
    (suffix : Option Text) (fuel : Nat) : updatePayload cfg P m bh buff suffix fuel =
      opening cfg P bh buff suffix >>= fun _ => goThrough cfg P m bh (bh.header m).numEntries fuel := by
  unfold updatePayload opening verifying goThrough
  rw [getType_opened blob.opened, getNumEntries_opened blob.opened, blob.type]
  cases cfg.blobSigning with
  | false => simp [some_entries]
  | true =>
    cases P.verifyPayload with
    | none => simp [some_entries]
    | some verify => simp [some_entries]

theorem updatePayload_no_entries (blob : UpdateBlob m bh) (no_entries : (bh.header m).numEntries = 0)
    (buff : Nat) (suffix : Option Text) (fuel : Nat) : updatePayload cfg P m bh buff suffix fuel =
      opening cfg P bh buff suffix >>= fun _ => throw (.own .notFound 0) := by
  unfold updatePayload opening verifying
  rw [getType_opened blob.opened, getNumEntries_opened blob.opened, blob.type]
  cases cfg.blobSigning with
  | false => simp [no_entries]
  | true =>
    cases P.verifyPayload with
    | none => simp [no_entries]
    | some verify => simp [no_entries]

theorem updatePayload_other (opened : bh.start ≠ 0) (other : (bh.header m).type ≠ blobUpdate) (buff : Nat)
    (suffix : Option Text) (fuel : Nat) :
    updatePayload cfg P m bh buff suffix fuel = verifying cfg P bh >>= fun _ => pure true := by
  unfold updatePayload verifying
  rw [getType_opened opened]
  cases cfg.blobSigning with
  | false => simp [other]
  | true =>
    cases P.verifyPayload with
    | none => simp [other]
    | some verify => simp [other]

structure Keeps (s t : State σ) : Prop where
  log : t.log = s.log
  list : t.static.list = s.static.list
  spec : t.static.globalNctSpec = s.static.globalNctSpec

theorem Keeps.refl (s : State σ) : Keeps s s := ⟨rfl, rfl, rfl⟩

theorem Keeps.trans {s t u : State σ} (first : Keeps s t) (next : Keeps t u) : Keeps s u :=
  ⟨next.log.trans first.log, next.list.trans first.list, next.spec.trans first.spec⟩

theorem Adds.keeps {s t : State σ} (adds : Adds s t []) : Keeps s t :=
  ⟨adds.log.trans (List.append_nil _), by rw [adds.static], by rw [adds.static]⟩

theorem isUpdateAllSlotsRequired_ends (blob : Option Nat) : Ends (isUpdateAllSlotsRequired P blob) s
      (fun _ t => Keeps s t ∧ t.static.isNewBupChecked = true) (fun _ _ => False) := by
  by_cases decided : s.static.isNewBupChecked = true
  · apply ends_of_ok (a := s.static.isRequired) (t := s)
    · simp [isUpdateAllSlotsRequired, decided]
    · exact ⟨Keeps.refl s, decided⟩
  · cases callback : P.isRatchetUpdateRequired with
    | none =>
      apply ends_of_ok (a := false)
        (t := { s with static := { s.static with isRequired := false, isNewBupChecked := true } })
      · simp [isUpdateAllSlotsRequired, decided, callback]
      · exact ⟨⟨rfl, rfl, rfl⟩, rfl⟩
    | some f =>
      apply ends_of_ok (a := (f blob s.env).1.toOption.getD false)
        (t := { s with
          env := (f blob s.env).2
          static := { s.static with
            isRequired := (f blob s.env).1.toOption.getD false, isNewBupChecked := true } })
      · simp [isUpdateAllSlotsRequired, decided, callback]
      · exact ⟨⟨rfl, rfl, rfl⟩, rfl⟩

theorem beginABUpdate_ends (buff : Nat) (suffix : Option Text) : Ends (beginABUpdate cfg P buff suffix) s
      (fun _ t => Keeps s t ∧ Decided cfg t ∧ (cfg.abUpdate = true → t.static.updateSlotSuffix = suffix))
      (fun _ _ => False) := by
  unfold beginABUpdate
  by_cases ab : cfg.abUpdate = true
  · rw [if_pos ab]
    apply ends_bind (isUpdateAllSlotsRequired_ends P (some buff))
    intro _ t holds
    obtain ⟨keeps, decided⟩ := holds
    apply ends_of_ok (a := ()) (t := { t with static := { t.static with updateSlotSuffix := suffix } })
    · rfl
    · exact ⟨⟨keeps.log, keeps.list, keeps.spec⟩, fun _ => decided, fun _ => rfl⟩
  · rw [if_neg ab]
    exact ends_pure ⟨Keeps.refl s, fun yes => absurd yes ab, fun yes => absurd yes ab⟩

theorem verifying_silent (bh : BlobInfo) : Silent (verifying cfg P bh) := by
  unfold verifying
  split
  · cases P.verifyPayload with
    | none => exact silent_pure ()
    | some verify => exact silent_outside (verify bh)
  · exact silent_pure ()

theorem opening_ends (bh : BlobInfo) (buff : Nat) (suffix : Option Text) : Ends (opening cfg P bh buff suffix) s
      (fun _ t => Keeps s t ∧ Decided cfg t ∧ (cfg.abUpdate = true → t.static.updateSlotSuffix = suffix))
      (fun _ t => Keeps s t) := by
  apply ends_after_silent (verifying_silent cfg P bh)
  · intro _ t adds
    exact adds.keeps
  · intro _ t adds
    apply Ends.mono (beginABUpdate_ends cfg P buff suffix)
    · intro _ u holds
      exact ⟨adds.keeps.trans holds.1, holds.2⟩
    · intro _ u impossible
      exact impossible.elim

theorem no_entries_ends (blob : UpdateBlob m bh) (no_entries : (bh.header m).numEntries = 0) (buff : Nat)
    (suffix : Option Text) (fuel : Nat) :
    Ends (updatePayload cfg P m bh buff suffix fuel) s (fun _ _ => False) (fun _ t => Keeps s t) := by
  rw [updatePayload_no_entries cfg P blob no_entries]
  apply ends_bind (opening_ends cfg P bh buff suffix)
  intro _ t holds
  exact ends_throw holds.1

theorem other_type_ends (valid : bh.start ≠ 0) (other : ¬ UpdateBlob m bh) (buff : Nat) (suffix : Option Text)
    (fuel : Nat) : Ends (updatePayload cfg P m bh buff suffix fuel) s (fun done t => done = true ∧ Keeps s t)
      (fun _ t => Keeps s t) := by
  rw [updatePayload_other cfg P valid fun type => other ⟨valid, type⟩]
  apply ends_after_silent (verifying_silent cfg P bh)
  · intro _ t adds
    exact adds.keeps
  · intro _ t adds
    exact ends_pure ⟨rfl, adds.keeps⟩

def Passed (m : Mem) (bh : BlobInfo) (fuel : Nat) (done : Bool) (list : List (List UInt8)) : Prop :=
  ((bh.header m).numEntries.toNat ≤ 255 → (bh.header m).numEntries.toNat < fuel → done = true) ∧
    (done = true → (bh.header m).numEntries.toNat ≤ 255 ∧
      list = turns cfg (entryNames m bh (bh.header m).numEntries.toNat))

theorem payload_ends {I : State σ → Prop} {E : Error → State σ → Prop} (blob : UpdateBlob m bh)
    (entries : (bh.header m).numEntries ≠ 0) (buff : Nat) (suffix : Option Text) (fuel : Nat)
    (empty : s.static.list = []) (keeps : TurnKeeps cfg P m bh (bh.header m).numEntries I E)
    (opened : ∀ t, (opening cfg P bh buff suffix).run s = (.ok (), t) → I t) (unopened : ∀ e t, Keeps s t → E e t) :
    Ends (updatePayload cfg P m bh buff suffix fuel) s
      (fun done t => ∃ u, I u ∧ Passed cfg m bh fuel done u.static.list ∧ t.log = u.log ∧
        t.static.globalNctSpec = u.static.globalNctSpec) E := by
  rw [updatePayload_eq cfg P blob entries]
  apply ends_bind (Q := fun _ t => I t ∧ t.static.list = [])
  · constructor
    · intro r t ended
      have after := (opening_ends cfg P bh buff suffix).1 r t ended
      exact ⟨opened t ended, after.1.list.trans empty⟩
    · intro e t ended
      exact unopened e t ((opening_ends cfg P bh buff suffix).2 e t ended)
  · intro _ t holds
    obtain ⟨here, list⟩ := holds
    apply ends_bind (updateEntries_ends blob keeps fuel 0 here (fun _ => Nat.zero_le _) fun _ => list)
    intro done u after
    obtain ⟨there, passed⟩ := after
    unfold endABUpdate
    cases done with
    | false =>
      rw [if_neg Bool.false_ne_true]
      exact ends_pure ⟨u, there, passed, rfl, rfl⟩
    | true =>
      rw [if_pos rfl]
      by_cases ab : cfg.abUpdate = true
      · rw [if_pos ab]
        apply ends_of_ok (a := true)
          (t := { u with static := { u.static with isNewBupChecked := false } })
        · rfl
        · exact ⟨u, there, passed, rfl, rfl⟩
      · rw [if_neg ab]
        exact ends_pure ⟨u, there, passed, rfl, rfl⟩

def handle (m : Mem) (buff : Nat) : BlobInfo :=
  match blobExtent m buff with
  | .ok (offset, dataSize) => ⟨buff, offset, dataSize, 24⟩
  | .error _ => ⟨buff, 0, 0, 24⟩

def finish (ended : Except Error Bool × State σ) : Option (Except Error Unit × State σ) :=
  match ended with
  | (.ok false, _) => none
  | (.ok true, s) => some (.ok (), cleared s)
  | (.error e, s) => some (.error e, cleared s)

theorem getSize_eq_zero (bh : BlobInfo) : tegrablBlobGetSize bh = 0 := by
  have size : readLE bh.stored 20 4 = 0 := by
    unfold BlobInfo.stored
    rw [readLE_writeLE_other _ (by omega), readLE_writeLE_other _ (by omega), readLE_writeLE_other _ (by omega),
      readLE_writeLE_other _ (by omega)]
    rfl
  exact congrArg UInt32.ofNat size

def allocated (s : State σ) : State σ := { s with env := (P.memory s.env).2 }

theorem Keeps.of_allocated {t : State σ} (keeps : Keeps (allocated P s) t) : Keeps s t :=
  ⟨keeps.log, keeps.list, keeps.spec⟩

def IsBlob (m : Mem) (buff : Nat) : Prop := buff ≠ 0 ∧ ∃ offset dataSize, blobExtent m buff = .ok (offset, dataSize)

theorem call_of_blob {buff : Nat} (blob : IsBlob m buff) (size : UInt32) (suffix : Option Text) (fuel : Nat)
    (s : State σ) : tegrablCheckAndUpdateBlPayload cfg P m buff size suffix fuel s =
      if (P.memory s.env).1 then finish ((updatePayload cfg P m (handle m buff) buff suffix fuel).run (allocated P s))
      else some (.error (.blob (.own .noMemory 0)), allocated P s) := by
  obtain ⟨valid, offset, dataSize, extent⟩ := blob
  unfold tegrablCheckAndUpdateBlPayload tegrablBlobInit handle
  rw [if_neg valid]
  cases memory : (P.memory s.env).1 with
  | false => simp [allocated, memory]
  | true =>
    have full : ¬ size < 0 := by
      intro small
      exact Nat.not_lt_zero _ (UInt32.lt_iff_toNat_lt.mp small)
    simp only [memory, extent, getSize_eq_zero, full, valid, allocated, if_true, if_false, ne_eq,
      not_false_eq_true, Nat.one_ne_zero]
    rfl

theorem call_of_not_blob {buff : Nat} (none : ¬ IsBlob m buff) (size : UInt32) (suffix : Option Text)
    (fuel : Nat) (env : σ) : ∃ result env', ∀ static log,
      tegrablCheckAndUpdateBlPayload cfg P m buff size suffix fuel ⟨static, env, log⟩ =
        some (result, ⟨static, env', log⟩) := by
  unfold tegrablCheckAndUpdateBlPayload tegrablBlobInit
  by_cases null : buff = 0
  · simp only [null, if_true]
    exact ⟨_, _, fun _ _ => rfl⟩
  · simp only [null, if_false]
    by_cases memory : (P.memory env).1 = true
    · cases extent : blobExtent m buff with
      | ok found => exact absurd ⟨null, found.1, found.2, extent⟩ none
      | error e =>
        simp only [memory, null, if_true, if_false, ne_eq, not_false_eq_true, Nat.one_ne_zero]
        split <;> first | exact ⟨_, _, fun _ _ => rfl⟩ | contradiction
    · simp only [memory, if_true, Bool.false_eq_true, if_false]
      exact ⟨_, _, fun _ _ => rfl⟩

end

def Answers (P : Platform σ) (spec : Text) : Prop :=
  ∀ env found env', P.nctGetSpec env = (.ok found, env') → specText found = spec

def Known (spec : Text) (static : Static) : Prop := static.globalNctSpec = [] ∨ static.globalNctSpec = spec

variable {cfg : Config} {P : Platform σ} {spec : Text}

theorem Finds.eq (answers : Answers P spec) (known : Known spec s.static) {found : Text}
    (finds : Finds P s found) : found = spec := by
  obtain ⟨cached, rfl⟩ | ⟨-, answer, env, lookup, rfl⟩ := finds
  · exact known.resolve_left cached
  · exact answers s.env answer env lookup

def record (name : List UInt8) (static : Static) : Static := { static with list := name :: static.list }

theorem updateAndRecord_ends {numEntries : UInt32} {name : List UInt8} {Q : State σ → Prop} {E : Error → State σ → Prop}
    (turned : Ends (updatePartition cfg P m bh name numEntries) s (fun _ => Q) E)
    (unrecorded : ∀ e t, Q t → E e (allocated P t)) : Ends (updateAndRecord cfg P m bh name numEntries) s
      (fun _ t => ∃ u, Q u ∧ t.log = u.log ∧ t.env = (P.memory u.env).2 ∧ t.static = record name u.static) E := by
  apply ends_bind turned
  intro _ u holds
  cases memory : (P.memory u.env).1 with
  | true =>
    apply ends_of_ok (a := ())
      (t := { u with env := (P.memory u.env).2, static := record name u.static })
    · have first : (allocate P).run u = (.ok (), allocated P u) := by
        simp [allocate, outside, memory, allocated]
      rw [run_bind_ok first]
      rfl
    · exact ⟨u, holds, rfl, rfl, rfl⟩
  | false =>
    have first : (allocate P).run u = (.error (.own .noMemory 0), allocated P u) := by
      simp [allocate, outside, memory, allocated]
    unfold Ends
    rw [run_bind_error first]
    exact ends_throw (unrecorded _ u holds)

theorem turn_keeps_static {J : Static → Prop} (blob : UpdateBlob m bh) (numEntries : UInt32)
    (records : ∀ name static, J static → J (record name static))
    (learns : ∀ (s : State σ) found, J s.static → Finds P s found → J (learned s found)) :
    TurnKeeps cfg P m bh numEntries (fun s => Decided cfg s ∧ J s.static) (fun _ t => J t.static) := by
  intro name s here new _
  obtain ⟨decided, kept⟩ := here
  have turned : Ends (updatePartition cfg P m bh name numEntries) s
      (fun _ t => (Decided cfg t ∧ J t.static) ∧ t.static.list = s.static.list)
      (fun _ t => J t.static) := by
    apply Ends.mono (updatePartition_ends cfg P blob decided name numEntries)
    · intro _ t outcome
      unfold Decided
      cases outcome with
      | noSpec misses =>
        rw [misses.adds.static]
        exact ⟨⟨decided, kept⟩, rfl⟩
      | notFound found finds none static log =>
        rw [static]
        exact ⟨⟨decided, learns s found kept finds⟩, rfl⟩
      | updated found finds i inner first static log quiet all =>
        rw [static]
        exact ⟨⟨decided, learns s found kept finds⟩, rfl⟩
    · intro _ t outcome
      obtain ⟨found, i, events, finds, first, static, log, broken⟩ := outcome
      rw [static]
      exact learns s found kept finds
  apply Ends.mono (updateAndRecord_ends turned fun _ t holds => holds.1.2)
  · intro _ t outcome
    obtain ⟨u, ⟨⟨decided', kept'⟩, list⟩, -, -, static⟩ := outcome
    beta_reduce
    unfold Decided
    rw [static, ← list]
    exact ⟨⟨decided', records name u.static kept'⟩, rfl⟩
  · intro _ t failed
    exact failed

theorem turn_keeps_known (blob : UpdateBlob m bh) (answers : Answers P spec) (numEntries : UInt32) :
    TurnKeeps cfg P m bh numEntries (fun s => Decided cfg s ∧ Known spec s.static) (fun _ t => Known spec t.static) :=
  turn_keeps_static blob numEntries (fun _ _ known => known) fun _ _ known finds => Or.inr (finds.eq answers known)

inductive Reached (cfg : Config) (spec : Text) : Static → Prop
  | start : Reached cfg spec ⟨[], [], false, false, none⟩
  | call {σ : Type} {P : Platform σ} {m : Mem} {buff : Nat} {size : UInt32} {suffix : Option Text} {fuel : Nat}
      {s t : State σ} {result : Except Error Unit} (answers : Answers P spec)
      (before : Reached cfg spec s.static)
      (ended : tegrablCheckAndUpdateBlPayload cfg P m buff size suffix fuel s = some (result, t)) :
      Reached cfg spec t.static

theorem handle_start (m : Mem) (buff : Nat) : (handle m buff).start = buff := by
  unfold handle
  split <;> rfl

theorem call_returns {buff : Nat} {size : UInt32} {suffix : Option Text} {fuel : Nat} {t : State σ}
    {result : Except Error Unit}
    (ended : tegrablCheckAndUpdateBlPayload cfg P m buff size suffix fuel s = some (result, t)) :
    (t.static = s.static ∧ t.log = s.log ∧ (result = .ok () → ¬ IsBlob m buff)) ∨ ∃ u, t = cleared u ∧ IsBlob m buff ∧
        ((result = .ok () ∧
            (updatePayload cfg P m (handle m buff) buff suffix fuel).run (allocated P s) = (.ok true, u)) ∨
          ∃ e, result = .error e ∧
            (updatePayload cfg P m (handle m buff) buff suffix fuel).run (allocated P s) = (.error e, u)) := by
  by_cases blob : IsBlob m buff
  · rw [call_of_blob cfg P blob] at ended
    cases memory : (P.memory s.env).1 with
    | false =>
      rw [memory, if_neg Bool.false_ne_true] at ended
      cases ended
      exact Or.inl ⟨rfl, rfl, fun fine => by cases fine⟩
    | true =>
      rw [memory, if_pos rfl] at ended
      right
      cases payload : (updatePayload cfg P m (handle m buff) buff suffix fuel).run (allocated P s) with
      | mk outcome u =>
        rw [payload] at ended
        cases outcome with
        | error e =>
          cases ended
          exact ⟨u, rfl, blob, Or.inr ⟨e, rfl, rfl⟩⟩
        | ok done =>
          cases done with
          | false => cases ended
          | true =>
            cases ended
            exact ⟨u, rfl, blob, Or.inl ⟨rfl, rfl⟩⟩
  · obtain ⟨result', env, returned⟩ := call_of_not_blob cfg P blob size suffix fuel s.env
    rw [returned s.static s.log] at ended
    cases ended
    exact Or.inl ⟨rfl, rfl, fun _ => blob⟩

/-- The ways for a call to end, where every turn keeps `I`. -/
inductive CallEnds (cfg : Config) (m : Mem) (buff : Nat) (fuel : Nat) (I : State σ → Prop)
    (E : Error → State σ → Prop) (s : State σ) : Except Error Unit → State σ → Prop
  | idle {result : Except Error Unit} {t : State σ} (keeps : Keeps s t)
      (reason : result = .ok () → IsBlob m buff → ¬ UpdateBlob m (handle m buff)) :
      CallEnds cfg m buff fuel I E s result t
  | done {t u : State σ} (there : I u) (passed : Passed cfg m (handle m buff) fuel true u.static.list)
      (after : Keeps { u with static := { u.static with list := [] } } t) :
      CallEnds cfg m buff fuel I E s (.ok ()) t
  | failed {e : Error} {t u : State σ} (there : E e u)
      (after : Keeps { u with static := { u.static with list := [] } } t) :
      CallEnds cfg m buff fuel I E s (.error e) t

section
variable {buff : Nat} {size : UInt32} {suffix : Option Text} {fuel : Nat} {I : State σ → Prop}
  {E : Error → State σ → Prop}

theorem call_ends (empty : s.static.list = []) (keeps : UpdateBlob m (handle m buff) →
      TurnKeeps cfg P m (handle m buff) ((handle m buff).header m).numEntries I E)
    (opened : ∀ t, (opening cfg P (handle m buff) buff suffix).run (allocated P s) = (.ok (), t) → I t)
    (unopened : ∀ e t, Keeps s t → E e t) {result : Except Error Unit} {t : State σ}
    (ended : tegrablCheckAndUpdateBlPayload cfg P m buff size suffix fuel s = some (result, t)) :
    CallEnds cfg m buff fuel I E s result t := by
  obtain ⟨static, log, reason⟩ | ⟨u, rfl, blob, outcome⟩ := call_returns ended
  · exact .idle ⟨log, by rw [static], by rw [static]⟩ fun fine found => absurd found (reason fine)
  · by_cases update : UpdateBlob m (handle m buff)
    · by_cases entries : ((handle m buff).header m).numEntries = 0
      · have ends := no_entries_ends (s := allocated P s) cfg P update entries buff suffix fuel
        obtain ⟨rfl, payload⟩ | ⟨e, rfl, payload⟩ := outcome
        · exact (ends.1 _ u payload).elim
        · exact .failed (unopened e u (ends.2 e u payload).of_allocated) ⟨rfl, rfl, rfl⟩
      · have ends := payload_ends (s := allocated P s) cfg P update entries buff suffix fuel empty (keeps update)
          opened fun e t keeps => unopened e t keeps.of_allocated
        obtain ⟨rfl, payload⟩ | ⟨e, rfl, payload⟩ := outcome
        · obtain ⟨v, there, passed, log, spec⟩ := ends.1 _ u payload
          exact .done there passed ⟨log, rfl, spec⟩
        · exact .failed (ends.2 e u payload) ⟨rfl, rfl, rfl⟩
    · have valid : (handle m buff).start ≠ 0 := by
        rw [handle_start]
        exact blob.1
      have ends := other_type_ends (s := allocated P s) cfg P valid update buff suffix fuel
      have kept : Keeps (allocated P s) u := by
        obtain ⟨-, payload⟩ | ⟨e, -, payload⟩ := outcome
        · exact (ends.1 _ u payload).2
        · exact ends.2 e u payload
      exact .idle ⟨kept.log, empty.symm, kept.spec⟩ fun _ _ => update

theorem call_returns_of_few (size : UInt32) (empty : s.static.list = []) (keeps : UpdateBlob m (handle m buff) →
      TurnKeeps cfg P m (handle m buff) ((handle m buff).header m).numEntries I E)
    (opened : ∀ t, (opening cfg P (handle m buff) buff suffix).run (allocated P s) = (.ok (), t) → I t)
    (unopened : ∀ e t, Keeps s t → E e t) (few : ((handle m buff).header m).numEntries.toNat ≤ 255)
    (enough : 256 ≤ fuel) :
    ∃ result t, tegrablCheckAndUpdateBlPayload cfg P m buff size suffix fuel s = some (result, t) := by
  by_cases blob : IsBlob m buff
  · rw [call_of_blob cfg P blob]
    split
    · cases payload : (updatePayload cfg P m (handle m buff) buff suffix fuel).run (allocated P s) with
      | mk outcome u =>
        cases outcome with
        | error e => exact ⟨_, _, rfl⟩
        | ok done =>
          cases done with
          | true => exact ⟨_, _, rfl⟩
          | false =>
            exfalso
            by_cases update : UpdateBlob m (handle m buff)
            · by_cases entries : ((handle m buff).header m).numEntries = 0
              · exact (no_entries_ends cfg P update entries buff suffix fuel).1 _ u payload
              · obtain ⟨v, -, passed, -⟩ := (payload_ends (s := allocated P s) cfg P update entries buff suffix
                  fuel empty (keeps update) opened fun e t keeps => unopened e t keeps.of_allocated).1 _ u payload
                cases passed.1 few (by omega)
            · have valid : (handle m buff).start ≠ 0 := by
                rw [handle_start]
                exact blob.1
              cases ((other_type_ends cfg P valid update buff suffix fuel).1 _ u payload).1
    · exact ⟨_, _, rfl⟩
  · obtain ⟨result, env, returned⟩ := call_of_not_blob cfg P blob size suffix fuel s.env
    exact ⟨result, _, returned s.static s.log⟩

end

theorem Reached.invariant {static : Static} (reached : Reached cfg spec static) :
    static.list = [] ∧ Known spec static := by
  induction reached with
  | start => exact ⟨rfl, Or.inl rfl⟩
  | @call σ P m buff size suffix fuel s t result answers before ended ih =>
    obtain ⟨list, known⟩ := ih
    have kept : ∀ v, Keeps s v → Known spec v.static := by
      intro v keeps
      unfold Known
      rw [keeps.spec]
      exact known
    have ends := call_ends list (fun update => turn_keeps_known update answers _) (fun v opened => by
        have after := (opening_ends cfg P _ buff suffix).1 _ v opened
        exact ⟨after.2.1, kept v after.1.of_allocated⟩) (fun _ v keeps => kept v keeps) ended
    cases ends with
    | idle keeps => exact ⟨keeps.list.trans list, kept t keeps⟩
    | done there passed after =>
      refine ⟨after.list, ?_⟩
      unfold Known
      rw [after.spec]
      exact there.2
    | failed there after =>
      refine ⟨after.list, ?_⟩
      unfold Known
      rw [after.spec]
      exact there

end

end Cboot.BlUpdate
