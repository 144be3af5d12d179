import Cboot.Fastboot.Model
import Cboot.Sparse.Bound

/-!
Most commands reach the platform only through its hooks and the responses. What every hook and every response keeps is
then kept by the command as a whole, however it ends.
-/

namespace Cboot.Fastboot
open Lib Lib.Attempt

section
variable {σ α : Type}

/-- What is kept by every hook that does not reach the storage, and by every response. -/
structure Polite (P : Platform σ) (R : State σ → State σ → Prop) : Prop where
  preorder : IsPreorder (State σ) R
  hook : ∀ {α : Type} (f : Hook σ α), Steps R (outside f)
  ack : ∀ (code : Code) (reason : Text), code ≠ .data → Steps R (fastbootAck P code reason)

namespace Polite

variable {P : Platform σ} {R : State σ → State σ → Prop}

variable (polite : Polite P R)
include polite

theorem pure (a : α) : Steps R (Pure.pure a : FastbootM σ α) :=
  have := polite.preorder
  steps_pure a

theorem bind {β : Type} {c : FastbootM σ α} {f : α → FastbootM σ β}
    (first : Steps R c) (next : ∀ a, Steps R (f a)) : Steps R (c >>= f) :=
  have := polite.preorder
  Steps.bind first next

theorem okay (info : Text) : Steps R (fastbootOkay P info) :=
  polite.ack .okay info (by decide)

theorem fail (reason : String) : Steps R (fastbootFail P reason) :=
  polite.ack .fail _ (by decide)

theorem optional (hook : Option (Hook σ (Result α))) : Steps R (optional hook) := by
  cases hook with
  | none => exact polite.pure _
  | some hook => exact polite.hook hook

theorem departing (f : Hook σ Bool) : Steps R (departing f) := by
  refine polite.bind (polite.hook f) ?_
  intro back
  cases back with
  | true => exact polite.pure ()
  | false =>
    have := polite.preorder
    exact steps_throw _

theorem forEach {ι : Type} {f : ι → FastbootM σ Unit}
    (each : ∀ i, Steps R (f i)) (l : List ι) : Steps R (forEach f l) := by
  induction l with
  | nil => exact polite.pure ()
  | cons i rest ih => exact polite.bind (each i) fun _ => ih

theorem lockVar (unlocked locked : String) (response : Text) :
    Steps R (lockVar P unlocked locked response) := by
  refine polite.bind (polite.optional _) ?_
  intro result
  cases result with
  | error e => exact polite.pure _
  | ok is => exact polite.pure _

theorem plainVar {ask : FastbootM σ (Result α)} (asked : Steps R ask)
    (shown : α → Text) (response : Text) : Steps R (plainVar ask shown response) := by
  refine polite.bind asked ?_
  intro result
  cases result with
  | error e => exact polite.pure _
  | ok a => exact polite.pure _

theorem slotVar (hook : Option (Hook σ (Result α))) (shown : α → Text)
    (response : Text) : Steps R (slotVar hook shown response) := by
  refine polite.bind (polite.optional hook) ?_
  intro result
  cases result with
  | error e => exact polite.pure _
  | ok a => exact polite.pure _

theorem slotSuffixes (n left : Nat) (slot : Text) : Steps R (slotSuffixes P n left slot) := by
  induction left generalizing slot with
  | zero => exact polite.pure _
  | succ left ih =>
    refine polite.bind (polite.optional _) ?_
    intro result
    cases result with
    | error e => exact polite.pure _
    | ok suffix => exact ih _

theorem getSlotSuffixes : Steps R (tegrablGetSlotSuffixes P) := by
  unfold tegrablGetSlotSuffixes
  split
  · exact polite.pure _
  · refine polite.bind (polite.optional _) ?_
    intro result
    cases result with
    | error e => exact polite.pure _
    | ok n => exact polite.slotSuffixes _ _ _

theorem aBVarHandler (arg response : Text) :
    Steps R (tegrablFastbootABVarHandler P arg response) := by
  unfold tegrablFastbootABVarHandler
  split
  · exact polite.pure _
  split
  · exact polite.plainVar (polite.optional _) _ _
  split
  · exact polite.plainVar polite.getSlotSuffixes _ _
  split
  · exact polite.plainVar (polite.optional _) _ _
  split
  · exact polite.slotVar _ _ _
  split
  · exact polite.slotVar _ _ _
  split
  · exact polite.slotVar _ _ _
  split
  · exact polite.pure _
  · exact polite.pure _

theorem serialVar (response : Text) : Steps R (serialVar P response) := by
  refine polite.bind (polite.hook _) ?_
  intro result
  cases result with
  | error e => exact polite.pure _
  | ok serialNo => exact polite.pure _

theorem askedPartition (name : Text) : Steps R (askedPartition P name) := by
  unfold Fastboot.askedPartition
  split
  · exact polite.pure _
  · exact polite.pure _

theorem partitionSizeVar (name response : Text) : Steps R (partitionSizeVar P name response) := by
  refine polite.bind (polite.askedPartition name) ?_
  intro asked
  split
  · exact polite.pure _
  · split
    · exact polite.pure _
    · exact polite.pure _

theorem partitionTypeVar (name response : Text) : Steps R (partitionTypeVar P name response) := by
  refine polite.bind (polite.askedPartition name) ?_
  intro asked
  split
  · exact polite.pure _
  · exact polite.pure _

theorem getvar (arg response : Text) : Steps R (fastbootGetvar P arg response) := by
  unfold fastbootGetvar
  split
  · exact polite.pure _
  split
  · exact polite.pure _
  split
  · exact polite.pure _
  split
  · exact polite.serialVar _
  split
  · exact polite.lockVar _ _ _
  split
  · exact polite.lockVar _ _ _
  split
  · exact polite.partitionSizeVar _ _
  split
  · exact polite.partitionTypeVar _ _
  split
  · exact polite.aBVarHandler _ _
  · exact polite.pure _

theorem infoVar (cmd : Text) : Steps R (infoVar P cmd) :=
  polite.bind (polite.getvar _ _) fun _ => polite.ack .info _ (by decide)

theorem infoSlotVar (var : String) (slot : Nat) : Steps R (infoSlotVar P var slot) := by
  refine polite.bind (polite.optional _) ?_
  intro result
  cases result with
  | error e => exact polite.pure _
  | ok suffix => exact polite.infoVar _

theorem getvarAll : Steps R (getvarAll P) := by
  refine polite.bind (polite.forEach (fun _ => polite.infoVar _) _) fun _ => ?_
  refine polite.bind (polite.forEach (fun _ => polite.forEach (fun _ => polite.infoVar _) _) _)
    fun _ => ?_
  refine polite.bind (polite.optional _) ?_
  intro result
  cases result with
  | error e => exact polite.pure _
  | ok numSlots =>
    exact polite.bind (polite.forEach (fun _ => polite.forEach (polite.infoSlotVar _) _) _)
      fun _ => polite.okay _

theorem cmdGetvar (arg : Text) : Steps R (cmdGetvar P arg) := by
  unfold Fastboot.cmdGetvar
  split
  · exact polite.getvarAll
  · exact polite.bind (polite.getvar _ _) fun _ => polite.okay _

theorem cmdFlashing (arg : Text) : Steps R (cmdFlashing P arg) := by
  unfold Fastboot.cmdFlashing
  split
  · exact polite.bind (polite.optional _) fun _ => polite.okay _
  · exact polite.okay _

theorem oemDtbname : Steps R (oemDtbname P) := by
  have refused (e : UInt32) : Steps R (do
      fastbootFail P "DTB name not found!"
      Pure.pure (.error e) : FastbootM σ (Result Unit)) :=
    polite.bind (polite.fail _) fun _ => polite.pure _
  refine polite.bind (polite.hook _) ?_
  intro result
  cases result with
  | error e => exact refused e
  | ok _ =>
    refine polite.bind (polite.hook _) ?_
    intro result
    cases result with
    | error e => exact refused e
    | ok path => exact polite.bind (polite.ack .info _ (by decide)) fun _ => polite.pure _

theorem oemEcid : Steps R (oemEcid P) := by
  refine polite.bind (polite.optional _) ?_
  intro result
  cases result with
  | error e => exact polite.bind (polite.fail _) fun _ => polite.pure _
  | ok ecid => exact polite.bind (polite.ack .info _ (by decide)) fun _ => polite.pure _

theorem oemHandler (arg : Text) : Steps R (tegrablFastbootOemHandler P arg) := by
  unfold tegrablFastbootOemHandler
  split
  · exact polite.optional _
  split
  · exact polite.oemDtbname
  split
  · exact polite.oemEcid
  split
  · exact polite.bind (polite.okay _) fun _ =>
      polite.bind (polite.departing _) fun _ => polite.pure _
  · exact polite.pure _

theorem cmdOem (arg : Text) : Steps R (cmdOem P arg) := by
  refine polite.bind (polite.oemHandler arg) ?_
  intro result
  cases result with
  | error e => exact polite.pure _
  | ok _ => exact polite.okay _

theorem cmdReboot : Steps R (cmdReboot P) :=
  polite.bind (polite.okay _) fun _ => polite.departing _

theorem cmdRebootBootloader : Steps R (cmdRebootBootloader P) :=
  polite.bind (polite.okay _) fun _ => polite.departing _

theorem cmdRebootRecovery : Steps R (cmdRebootRecovery P) :=
  polite.bind (polite.okay _) fun _ =>
    polite.bind (polite.hook _) fun _ => polite.departing _

theorem whenUnlocked {body : FastbootM σ Unit} (steps : Steps R body) :
    Steps R (whenUnlocked P body) := by
  refine polite.bind (polite.optional _) ?_
  intro result
  cases result with
  | error e => exact polite.fail _
  | ok is =>
    cases is with
    | false => exact polite.fail _
    | true => exact steps

end Polite

def Wrote (s t : State σ) : Prop := ∃ storage w writes,
  t = { s with storage := storage, world := w, log := s.log ++ writes } ∧
    ∀ e ∈ writes, ∃ partition bytes, e = .wrote partition bytes

def Event.OfDevice : Event → Prop
  | .opened _ => True
  | .erased _ => True
  | .activated _ => True
  | .booted _ => True
  | _ => False

def Event.OfImage (image : List UInt8) : Event → Prop
  | .flashed data => data = image
  | .updated data _ => data = image
  | _ => False

structure Careful (P : Platform σ) (R : State σ → State σ → Prop) : Prop extends Polite P R where
  storage : ∀ {α : Type} (f : Storage → Hook σ (α × Storage)), Steps R (onStorage f)
  wrote : ∀ s t, Wrote s t → R s t
  image : ∀ (s : State σ) (e : Event), s.downloadSize ≠ 0 → e.OfImage s.image → R s { s with log := s.log ++ [e] }

structure Discreet (P : Platform σ) (R : State σ → State σ → Prop) : Prop extends Careful P R where
  device : ∀ e : Event, e.OfDevice → Steps R (note e)

instance : IsPreorder (State σ) Wrote where
  refl s := ⟨s.storage, s.world, [], by simp, by simp⟩
  trans s t u first second := by
    obtain ⟨storage, w, writes, rfl, all⟩ := first
    obtain ⟨storage', w', writes', rfl, all'⟩ := second
    refine ⟨storage', w', writes ++ writes', by simp, ?_⟩
    intro e mem
    rcases List.mem_append.mp mem with here | there
    · exact all e here
    · exact all' e there

theorem mediaWrite_wrote (P : Platform σ) (bytes : List UInt8) (dev : Blockdev.Bdev) (offset : UInt64)
    (s : State σ) : Wrote s (mediaWrite P bytes dev offset s).2 := by
  unfold mediaWrite
  dsimp only
  split
  · exact ⟨_, _, [], by rw [List.append_nil], by simp⟩
  · exact ⟨_, _, [], by rw [List.append_nil], by simp⟩

theorem run_mediaIo (P : Platform σ) (bytes : List UInt8) (dev : Blockdev.Bdev) (buf : Nat)
    (offset len : UInt64) (s : State σ) :
    ((mediaIo P bytes).write dev buf offset len).run s = mediaWrite P bytes dev offset s := rfl

theorem partitionWrite_wrote (P : Platform σ) (bytes : List UInt8)
    (partition : PartitionManager.Partition) (s : State σ) :
    Wrote s (tegrablFastbootPartitionWrite P bytes partition s).rest := by
  have logged : Wrote s { s with log := s.log ++ [.wrote partition bytes] } :=
    ⟨s.storage, s.world, [.wrote partition bytes], rfl, by simp⟩
  unfold tegrablFastbootPartitionWrite PartitionManager.tegrablPartitionWrite
  dsimp only
  split
  · exact logged
  split
  · split
    · exact logged
    · rw [run_mediaIo]
      exact trans_of Wrote logged (mediaWrite_wrote P bytes _ _ _)
  · exact logged

theorem partitionSeek_rest (size : Nat) (partition : PartitionManager.Partition) (s : State σ) :
    (tegrablFastbootPartitionSeek size partition s).rest = s := by
  unfold tegrablFastbootPartitionSeek PartitionManager.tegrablPartitionSeek
  dsimp only
  repeat' split
  all_goals rfl

def WroteBehind (a b : PartitionManager.Partition × State σ) : Prop := Wrote a.2 b.2

instance : IsPreorder (PartitionManager.Partition × State σ) WroteBehind where
  refl a := refl_of Wrote a.2
  trans _ b _ first second := trans_of (b := b.2) Wrote first second

theorem keep_flashCallbacks (P : Platform σ) : (flashCallbacks P).Keep WroteBehind where
  writer bytes aux := partitionWrite_wrote P bytes aux.1 aux.2
  seeker size aux := by
    show Wrote aux.2 (tegrablFastbootPartitionSeek size aux.1 aux.2).rest
    rw [partitionSeek_rest]
    exact refl_of Wrote aux.2

theorem unsparseEnd_rest (done : Sparse.Result (PartitionManager.Partition × State σ)) :
    (unsparseEnd done).2 = done.aux.2 := by
  unfold unsparseEnd
  split <;> rfl

namespace Careful

variable {P : Platform σ} {R : State σ → State σ → Prop}

theorem unsparse (careful : Careful P R) (partition : PartitionManager.Partition)
    (st : Sparse.UnsparseState) (image : List UInt8) : Steps R (unsparseTo P partition st image) := by
  intro s
  have kept := Sparse.keep_unsparse P.sparseCrc (keep_flashCallbacks P) st image (partition, s)
  show R s (unsparseEnd _).2
  rw [unsparseEnd_rest]
  exact careful.wrote _ _ kept

theorem exit (careful : Careful P R) (error : Bool) : Steps R (flashExit P error) := by
  unfold flashExit
  split
  · exact careful.fail _
  · exact careful.okay _

theorem flashImage (careful : Careful P R) (partition : PartitionManager.Partition) {s : State σ}
    (downloaded : s.downloadSize ≠ 0) : R s ((flashImage P partition s.image).run s).2 := by
  have := careful.preorder
  refine step_bind (careful.image s _ downloaded rfl) fun _ => ?_
  split
  · unfold flashSparse
    split
    · exact careful.pure _
    · exact careful.bind (careful.unsparse _ _ _) fun _ => careful.exit _
  · have written : Steps R (modify fun t =>
        (tegrablFastbootPartitionWrite P s.image partition t).rest) := fun t =>
      careful.wrote _ _ (partitionWrite_wrote P s.image partition t)
    exact careful.bind written fun _ => careful.exit _

theorem flashPayload (careful : Careful P R) (slot : Slot) {s : State σ}
    (downloaded : s.downloadSize ≠ 0) : R s ((flashPayload P slot s.image).run s).2 := by
  have := careful.preorder
  refine step_bind (careful.image s _ downloaded rfl) fun _ => ?_
  exact careful.bind (careful.storage _) fun _ => careful.exit _

end Careful

namespace Discreet

variable {P : Platform σ} {R : State σ → State σ → Prop}

variable (discreet : Discreet P R)
include discreet

theorem get : Steps R (get (σ := σ)) := fun s =>
  have := discreet.preorder
  refl_of R s

theorem openPartition (name : Option Text) : Steps R (tegrablFastbootOpen P name) := by
  unfold tegrablFastbootOpen
  split
  · exact discreet.pure _
  · exact discreet.bind (discreet.device _ trivial) fun _ => discreet.pure _

theorem setActive (arg : Text) : Steps R (cmdSetActiveSlot P arg) := by
  have asked : Steps R (tegrablSetActiveSlot P arg) :=
    discreet.bind (discreet.device _ trivial) fun _ => discreet.optional _
  refine discreet.whenUnlocked (discreet.bind asked ?_)
  intro result
  cases result with
  | error e => exact discreet.fail _
  | ok _ => exact discreet.okay _

theorem erase (arg : Text) : Steps R (cmdErase P arg) := by
  refine discreet.whenUnlocked ?_
  split
  · exact discreet.fail _
  refine discreet.bind (discreet.openPartition _) ?_
  intro opened
  cases opened with
  | none => exact discreet.fail _
  | some partition =>
    have erased : Steps R (erasePartition P partition) :=
      discreet.bind (discreet.device _ trivial) fun _ => discreet.storage _
    refine discreet.bind erased ?_
    intro result
    cases result with
    | error e => exact discreet.fail _
    | ok _ => exact discreet.okay _

theorem boot : Steps R (cmdBoot P) := by
  refine discreet.whenUnlocked (discreet.bind (discreet.okay _) fun _ =>
    discreet.bind discreet.get ?_)
  intro s
  refine discreet.bind (discreet.device _ trivial) fun _ => discreet.bind (discreet.hook _) ?_
  intro result
  cases result with
  | error e => exact discreet.pure _
  | ok _ => exact discreet.departing _

theorem flash (arg : Text) : Steps R (cmdFlash P arg) := by
  have := discreet.preorder
  refine discreet.whenUnlocked ?_
  intro s
  rw [run_bind_ok (show Fastboot.get.run s = (.ok s, s) from rfl)]
  split
  · exact refl_of R s
  rename_i there
  have downloaded : s.downloadSize ≠ 0 := by
    intro empty
    simp [empty] at there
  dsimp only
  split
  · exact discreet.flashPayload _ downloaded
  unfold flashPartition
  split
  · exact discreet.fail _ s
  -- The partition is opened before the image is used, which does not change the image.
  rename_i partinfo _
  unfold tegrablFastbootOpen
  split
  · exact discreet.fail _ s
  · rename_i partition _
    have opened := discreet.device (.opened partition) trivial s
    exact trans_of R opened (discreet.flashImage (s := { s with log := s.log ++ [.opened partition] })
      partition downloaded)

end Discreet

end

end Cboot.Fastboot
