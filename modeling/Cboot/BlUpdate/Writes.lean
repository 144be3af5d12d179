import Cboot.BlUpdate.Model

/-!
Everything between the start and the end of the update of a partition is a write that succeeded, or a decision on slots,
up to a write that failed.
-/

namespace Cboot.BlUpdate
open Lib Attempt Nvblob

section
variable {σ α β : Type}

structure Adds (s t : State σ) (events : List Event) : Prop where
  static : t.static = s.static
  log : t.log = s.log ++ events

theorem Adds.refl (s : State σ) : Adds s s [] := ⟨rfl, (List.append_nil _).symm⟩

variable {V W : List Event}

theorem Adds.trans {s t u : State σ} (first : Adds s t V) (next : Adds t u W) : Adds s u (V ++ W) :=
  ⟨next.static.trans first.static, by rw [next.log, first.log, List.append_assoc]⟩

def Event.Failed : Event → Prop
  | .write _ _ (some _) => True
  | .updated _ (some _) => True
  | _ => False

def Event.Inner : Event → Prop
  | .write _ _ _ => True
  | .allSlots _ => True
  | _ => False

def Quiet (events : List Event) : Prop := ∀ ev ∈ events, ev.Inner ∧ ¬ ev.Failed

def Stopped (events : List Event) : Prop :=
  ∃ before last, events = before ++ last ∧ Quiet before ∧ last.length ≤ 1 ∧ ∀ ev ∈ last, ev.Inner

theorem quiet_nil : Quiet [] := by simp [Quiet]

theorem Quiet.append (first : Quiet V) (next : Quiet W) : Quiet (V ++ W) := by
  intro ev member
  obtain before | after := List.mem_append.mp member
  · exact first ev before
  · exact next ev after

theorem stopped_nil : Stopped [] := ⟨[], [], rfl, quiet_nil, by simp, by simp⟩

theorem Quiet.append_stopped (first : Quiet V) (next : Stopped W) : Stopped (V ++ W) := by
  obtain ⟨before, last, rfl, quiet, short, inner⟩ := next
  exact ⟨V ++ before, last, (List.append_assoc ..).symm, first.append quiet, short, inner⟩

/-- A computation that only writes: `Q` is what it noted where it succeeds. -/
def Writing (c : UpdateM σ α) (s : State σ) (Q : α → List Event → Prop) : Prop :=
  Ends c s (fun a t => ∃ W, Adds s t W ∧ Quiet W ∧ Q a W) (fun _ t => ∃ W, Adds s t W ∧ Stopped W)

variable {c : UpdateM σ α} {s : State σ} {Q : α → List Event → Prop}

theorem writing_pure {a : α} (here : Q a []) : Writing (pure a : UpdateM σ α) s Q :=
  ends_pure ⟨[], Adds.refl s, quiet_nil, here⟩

theorem writing_throw {e : Error} : Writing (throw e : UpdateM σ α) s Q :=
  ends_throw ⟨[], Adds.refl s, stopped_nil⟩

theorem writing_bind {f : α → UpdateM σ β} {R : β → List Event → Prop} (first : Writing c s Q)
    (next : ∀ a t W, Adds s t W → Q a W → Writing (f a) t (fun b W' => R b (W ++ W'))) : Writing (c >>= f) s R := by
  constructor
  · intro b u ended
    cases result : c.run s with
    | mk r t =>
      cases r with
      | ok a =>
        obtain ⟨W, adds, quiet, here⟩ := first.1 a t result
        rw [run_bind_ok result] at ended
        obtain ⟨W', adds', quiet', there⟩ := (next a t W adds here).1 b u ended
        exact ⟨W ++ W', adds.trans adds', quiet.append quiet', there⟩
      | error e =>
        rw [run_bind_error result] at ended
        cases ended
  · intro e u ended
    cases result : c.run s with
    | mk r t =>
      cases r with
      | ok a =>
        obtain ⟨W, adds, quiet, here⟩ := first.1 a t result
        rw [run_bind_ok result] at ended
        obtain ⟨W', adds', stopped⟩ := (next a t W adds here).2 e u ended
        exact ⟨W ++ W', adds.trans adds', quiet.append_stopped stopped⟩
      | error e' =>
        rw [run_bind_error result] at ended
        cases ended
        exact first.2 _ _ result

theorem Writing.mono {R : α → List Event → Prop} (writing : Writing c s Q)
    (weaker : ∀ a W, Q a W → R a W) : Writing c s R := by
  apply Ends.mono writing
  · intro a t holds
    obtain ⟨W, adds, quiet, here⟩ := holds
    exact ⟨W, adds, quiet, weaker a W here⟩
  · intro e t stopped
    exact stopped

theorem writing_outside (f : σ → Except Error α × σ) :
    Writing (outside f) s (fun a W => W = [] ∧ ∃ env, (f env).1 = .ok a) := by
  apply ends_call
  · intro a t ended
    obtain ⟨answer, after⟩ := Prod.mk.inj ended
    subst after
    exact ⟨[], ⟨rfl, (List.append_nil _).symm⟩, quiet_nil, rfl, s.env, answer⟩
  · intro e t ended
    obtain ⟨answer, after⟩ := Prod.mk.inj ended
    subst after
    exact ⟨[], ⟨rfl, (List.append_nil _).symm⟩, stopped_nil⟩

theorem writing_note (event : Event) (inner : event.Inner) (fine : ¬ event.Failed) :
    Writing (note event : UpdateM σ Unit) s (fun _ W => W = [event]) := by
  apply ends_call
  · intro a t ended
    obtain ⟨answer, after⟩ := Prod.mk.inj ended
    subst after
    refine ⟨[event], ⟨rfl, rfl⟩, ?_, rfl⟩
    intro ev member
    rw [List.mem_singleton.mp member]
    exact ⟨inner, fine⟩
  · intro e t ended
    cases ended

structure Board where
  slot : UInt32
  numSlots : UInt8
  fullName : UInt32 → Text → Text
  hasSlot : Text → Bool
  always : Text → Bool

structure Describes (P : Platform σ) (suffix : Option Text) (board : Board) : Prop where
  slot : ∀ callback, P.getSlotViaSuffix = some callback →
    ∀ env slot, (callback suffix env).1 = .ok slot → slot = board.slot
  numSlots : ∀ callback, P.getSlotNum = some callback → ∀ env num, (callback env).1 = .ok num → num = board.numSlots
  plainName : P.getSlotSuffix = none → ∀ slot name, board.fullName slot name = name
  fullName : ∀ callback, P.getSlotSuffix = some callback →
    ∀ slot name env full, (callback slot name env).1 = .ok full → full = board.fullName slot name
  hasSlot : ∀ name env,
    (P.partitionOpen (board.fullName 1 (copiedName name)) env).1.toOption.isSome = board.hasSlot name
  always : ∀ callback, P.isAlwaysAbPartition = some callback → callback = board.always

def Board.required (board : Board) (decision : Bool) (name : Text) : List Text :=
  if board.hasSlot name then
    board.fullName board.slot (copiedName name) ::
      if board.numSlots ≠ 1 ∧ (decision || board.always name) then
        (List.range board.numSlots.toNat).map fun i => board.fullName i.toUInt32 (copiedName name)
      else []
  else [name]

variable (cfg : Config) (P : Platform σ)

theorem getFullPartName_writing (slot : UInt32) (name : Text) :
    Writing (getFullPartName P slot name) s (fun full W => W = [] ∧
      ∀ suffix board, Describes P suffix board → full = board.fullName slot name) := by
  unfold getFullPartName
  cases callback : P.getSlotSuffix with
  | none =>
    apply writing_pure
    refine ⟨rfl, ?_⟩
    intro suffix board describes
    exact (describes.plainName callback slot name).symm
  | some f =>
    apply Writing.mono (writing_outside _)
    intro full W answered
    obtain ⟨empty, env, answer⟩ := answered
    exact ⟨empty, fun suffix board describes => describes.fullName f callback slot name env full answer⟩

theorem getSlotNum_writing : Writing (getSlotNum P) s (fun num W => W = [] ∧
      ∀ suffix board, Describes P suffix board → num = board.numSlots) := by
  unfold getSlotNum
  cases callback : P.getSlotNum with
  | none => exact writing_throw
  | some f =>
    apply Writing.mono (writing_outside _)
    intro num W answered
    obtain ⟨empty, env, answer⟩ := answered
    exact ⟨empty, fun suffix board describes => describes.numSlots f callback env num answer⟩

theorem getSlotViaSuffix_writing : Writing (getSlotViaSuffix P) s (fun slot W => W = [] ∧
      ∀ board, Describes P s.static.updateSlotSuffix board → slot = board.slot) := by
  unfold getSlotViaSuffix
  cases first : P.getSlotSuffix with
  | none => exact writing_throw
  | some _ =>
    cases callback : P.getSlotViaSuffix with
    | none => exact writing_throw
    | some f =>
      apply ends_call
      · intro slot t ended
        obtain ⟨answer, after⟩ := Prod.mk.inj ended
        subst after
        exact ⟨[], ⟨rfl, (List.append_nil _).symm⟩, quiet_nil, rfl,
          fun board describes => describes.slot f callback s.env slot answer⟩
      · intro e t ended
        obtain ⟨answer, after⟩ := Prod.mk.inj ended
        subst after
        exact ⟨[], ⟨rfl, (List.append_nil _).symm⟩, stopped_nil⟩

variable (name : Text)

theorem partitionHasSlot_writing : Writing (partitionHasSlot P name) s (fun has W => W = [] ∧
      ∀ suffix board, Describes P suffix board → has = board.hasSlot name) := by
  apply writing_bind (getFullPartName_writing P 1 (copiedName name))
  intro full t W adds answered
  obtain ⟨rfl, named⟩ := answered
  apply Writing.mono (writing_outside _)
  intro has W answered
  obtain ⟨rfl, env, answer⟩ := answered
  refine ⟨rfl, ?_⟩
  intro suffix board describes
  have opened := Except.ok.inj answer
  rw [named suffix board describes] at opened
  rw [← opened]
  exact describes.hasSlot name env

theorem isAlwaysAbPartition_writing : Writing (isAlwaysAbPartition P name) s (fun always W => W = [] ∧
      ∀ suffix board, Describes P suffix board → always = board.always name) := by
  unfold isAlwaysAbPartition
  cases callback : P.isAlwaysAbPartition with
  | none => exact writing_throw
  | some f =>
    apply writing_pure
    refine ⟨rfl, ?_⟩
    intro suffix board describes
    rw [describes.always f callback]

theorem isUpdateAllSlotsRequired_writing (decided : s.static.isNewBupChecked = true) :
    Writing (isUpdateAllSlotsRequired P none) s (fun all W => W = [] ∧ all = s.static.isRequired) := by
  apply ends_call
  · intro all t ended
    rw [if_pos decided] at ended
    obtain ⟨answer, after⟩ := Prod.mk.inj ended
    subst after
    exact ⟨[], Adds.refl s, quiet_nil, rfl, (Except.ok.inj answer).symm⟩
  · intro e t ended
    rw [if_pos decided] at ended
    cases ended

def Silent (c : UpdateM σ α) : Prop := ∀ s, Ends c s (fun _ t => Adds s t []) (fun _ t => Adds s t [])

theorem silent_pure (a : α) : Silent (pure a : UpdateM σ α) := fun s => ends_pure (Adds.refl s)

theorem silent_outside (f : σ → Except Error α × σ) : Silent (outside f) := by
  intro s
  apply ends_call <;> intro _ t ended <;> obtain ⟨answer, after⟩ := Prod.mk.inj ended <;> subst after <;>
    exact ⟨rfl, (List.append_nil _).symm⟩

theorem silent_bind {c : UpdateM σ α} {f : α → UpdateM σ β} (first : Silent c) (next : ∀ a, Silent (f a)) :
    Silent (c >>= f) := by
  intro s
  apply ends_bind (first s)
  intro a t adds
  apply Ends.mono (next a t)
  · intro b u adds'
    exact adds.trans adds'
  · intro e u adds'
    exact adds.trans adds'

theorem eraseQspi_silent : Silent (eraseQspi cfg P name) := by
  unfold eraseQspi
  split
  · exact silent_outside _
  · exact silent_pure ()

theorem storeImage_silent (data : List UInt8) : Silent (storeImage P name data) := by
  unfold storeImage
  split <;> exact silent_outside _

theorem writePartition_writing (data : List UInt8) :
    Writing (writePartition cfg P name data) s (fun _ W => W = [.write name data none]) := by
  have body := silent_bind (silent_outside (P.partitionOpen name)) fun _ =>
    silent_bind (eraseQspi_silent cfg P name) fun _ => storeImage_silent P name data
  apply ends_call
  · intro a t ended
    obtain ⟨answer, after⟩ := Prod.mk.inj ended
    have adds := (body s).1 a _ (Prod.ext answer rfl)
    subst after
    refine ⟨[.write name data none], ⟨adds.static, ?_⟩, ?_, rfl⟩
    · rw [answer]
      exact congrArg (· ++ [Event.write name data none]) (adds.log.trans (List.append_nil _))
    · intro ev member
      rw [List.mem_singleton.mp member]
      exact ⟨trivial, id⟩
  · intro e t ended
    obtain ⟨answer, after⟩ := Prod.mk.inj ended
    have adds := (body s).2 e _ (Prod.ext answer rfl)
    subst after
    refine ⟨[.write name data (some e)], ⟨adds.static, ?_⟩, [], _, rfl, quiet_nil, Nat.le_refl _, ?_⟩
    · rw [answer]
      exact congrArg (· ++ [Event.write name data (some e)]) (adds.log.trans (List.append_nil _))
    · intro ev member
      rw [List.mem_singleton.mp member]
      exact trivial

theorem writeOtherSlots_writing (data : List UInt8) (updateSlot : UInt32) (slots : List Nat) :
    Writing (writeOtherSlots cfg P name data updateSlot slots) s (fun _ W =>
      ∀ suffix board, Describes P suffix board → ∀ i ∈ slots, i.toUInt32 ≠ updateSlot →
        .write (board.fullName i.toUInt32 (copiedName name)) data none ∈ W) := by
  induction slots generalizing s with
  | nil => exact writing_pure (by simp)
  | cons i slots ih =>
    unfold writeOtherSlots
    by_cases current : i.toUInt32 = updateSlot
    · rw [if_neg (not_not.mpr current)]
      apply Writing.mono ih
      intro _ W written suffix board describes j member other
      obtain same | later := List.mem_cons.mp member
      · rw [same] at other
        exact absurd current other
      · exact written suffix board describes j later other
    · rw [if_pos current]
      apply writing_bind (getFullPartName_writing P i.toUInt32 (copiedName name))
      intro full t V _ answered
      obtain ⟨rfl, named⟩ := answered
      apply writing_bind (writePartition_writing cfg P full data)
      intro _ u V _ first
      apply Writing.mono ih
      intro _ W written suffix board describes j member other
      rw [first, named suffix board describes, List.nil_append]
      obtain same | later := List.mem_cons.mp member
      · rw [same]
        exact List.mem_append_left _ (List.mem_singleton_self _)
      · exact List.mem_append_right _ (written suffix board describes j later other)

theorem writeNonCurrentSlots_writing (decided : s.static.isNewBupChecked = true) (name : Text)
    (data : List UInt8) (updateSlot : UInt32) : Writing (writeNonCurrentSlots cfg P name data updateSlot) s (fun _ W =>
      ∀ suffix board, Describes P suffix board → board.numSlots ≠ 1 →
        (s.static.isRequired || board.always name) = true →
        ∀ i ∈ List.range board.numSlots.toNat, i.toUInt32 ≠ updateSlot →
          .write (board.fullName i.toUInt32 (copiedName name)) data none ∈ W) := by
  apply writing_bind (getSlotNum_writing P)
  intro num t V adds answered
  obtain ⟨rfl, counted⟩ := answered
  by_cases one : num = 1
  · rw [if_neg (not_not.mpr one)]
    apply writing_pure
    intro suffix board describes more
    exact absurd ((counted suffix board describes).symm.trans one) more
  · rw [if_pos one]
    apply writing_bind (isAlwaysAbPartition_writing P name)
    intro always u V adds' answered
    obtain ⟨rfl, kept⟩ := answered
    have static : u.static = s.static := adds'.static.trans adds.static
    apply writing_bind (isUpdateAllSlotsRequired_writing P (by rw [static]; exact decided))
    intro all v V _ answered
    obtain ⟨rfl, decision⟩ := answered
    apply writing_bind (writing_note (.allSlots all) trivial id)
    intro _ w V _ noted
    by_cases required : (all || always) = true
    · rw [if_pos required]
      apply Writing.mono (writeOtherSlots_writing cfg P name data updateSlot (List.range num.toNat))
      intro _ W written suffix board describes _ _ i member other
      rw [← counted suffix board describes] at member
      simpa using Or.inr (written suffix board describes i member other)
    · rw [if_neg required]
      apply writing_pure
      intro suffix board describes _ needed
      rw [decision, static, kept suffix board describes] at required
      exact absurd needed required

theorem writeABPartition_writing (decided : s.static.isNewBupChecked = true) (name : Text) (data : List UInt8) :
    Writing (writeABPartition cfg P name data) s (fun _ W =>
      ∀ board, Describes P s.static.updateSlotSuffix board →
        ∀ full ∈ board.required s.static.isRequired name, .write full data none ∈ W) := by
  apply writing_bind (getSlotViaSuffix_writing P)
  intro updateSlot t V adds answered
  obtain ⟨rfl, found⟩ := answered
  apply writing_bind (partitionHasSlot_writing P name)
  intro has u V adds' answered
  obtain ⟨rfl, probed⟩ := answered
  have static : u.static = s.static := adds'.static.trans adds.static
  by_cases slots : has = true
  · rw [if_pos slots]
    apply writing_bind (getFullPartName_writing P updateSlot (copiedName name))
    intro full v V adds₁ answered
    obtain ⟨rfl, named⟩ := answered
    apply writing_bind (writePartition_writing cfg P full data)
    intro _ w V adds₂ first
    have static' : w.static = s.static := adds₂.static.trans (adds₁.static.trans static)
    apply Writing.mono (writeNonCurrentSlots_writing cfg P (by rw [static']; exact decided) name data updateSlot)
    intro _ W written board describes part member
    rw [static'] at written
    rw [first, List.nil_append, List.nil_append, List.nil_append, named _ board describes, found board describes]
    have hasSlot : board.hasSlot name = true := (probed _ board describes).symm.trans slots
    rw [Board.required, hasSlot, if_pos rfl] at member
    obtain current | other := List.mem_cons.mp member
    · rw [current]
      exact List.mem_append_left _ (List.mem_singleton_self _)
    · split at other
      · rename_i all
        obtain ⟨i, inside, rfl⟩ := List.mem_map.mp other
        by_cases same : i.toUInt32 = board.slot
        · rw [same]
          exact List.mem_append_left _ (List.mem_singleton_self _)
        · rw [← found board describes] at same
          exact List.mem_append_right _ (written _ board describes all.1 all.2 i inside same)
      · simp at other
  · rw [if_neg slots]
    apply Writing.mono (writePartition_writing cfg P name data)
    intro _ W written board describes part member
    rw [Board.required, ← probed _ board describes, if_neg slots] at member
    rw [written, List.mem_singleton.mp member]
    simp

end

end Cboot.BlUpdate
