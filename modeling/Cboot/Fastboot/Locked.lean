import Cboot.Fastboot.Polite

/-!
Each command that changes the device asks for the lock before anything else, and the other commands leave the device
alone.
-/

namespace Cboot.Fastboot
open Lib Lib.Attempt

def Event.Changes : Event → Prop
  | .bulk _ _ _ _ => True
  | .erased _ => True
  | .wrote _ _ => True
  | .updated _ _ => True
  | .activated _ => True
  | .booted _ => True
  | _ => False

section
variable {σ α : Type}

/-- The device is as before, and so is `download_size`. -/
structure Spared (s t : State σ) : Prop where
  size : t.downloadSize = s.downloadSize
  storage : t.storage = s.storage
  log : ∃ more, t.log = s.log ++ more ∧ ∀ e ∈ more, ¬ e.Changes

instance : IsPreorder (State σ) Spared where
  refl s := ⟨rfl, rfl, [], (List.append_nil _).symm, by simp⟩
  trans s t u first second := by
    obtain ⟨more, log, harmless⟩ := first.log
    obtain ⟨more', log', harmless'⟩ := second.log
    refine ⟨second.size.trans first.size, second.storage.trans first.storage, more ++ more', ?_, ?_⟩
    · rw [log', log, List.append_assoc]
    · intro e mem
      rcases List.mem_append.mp mem with here | there
      · exact harmless e here
      · exact harmless' e there

theorem spared_modify {f : State σ → State σ} (same : ∀ s, (f s).downloadSize = s.downloadSize ∧
    (f s).storage = s.storage ∧ (f s).log = s.log) : Steps Spared (modify f) := by
  intro s
  obtain ⟨size, storage, log⟩ := same s
  exact ⟨size, storage, [], log.trans (List.append_nil _).symm, by simp⟩

theorem spared_note {e : Event} (harmless : ¬ e.Changes) : Steps (Spared (σ := σ)) (note e) := by
  intro s
  exact ⟨rfl, rfl, [e], rfl, by simpa using harmless⟩

theorem spared_outside (f : Hook σ α) : Steps Spared (outside f) :=
  fun _ => ⟨rfl, rfl, [], (List.append_nil _).symm, by simp⟩

theorem spared_get : Steps Spared (get (σ := σ)) := fun s => refl_of Spared s

variable (P : Platform σ)

theorem spared_ack (code : Code) (reason : Text) : Steps Spared (fastbootAck P code reason) := by
  refine Steps.bind spared_get ?_
  intro s
  split
  · refine Steps.bind (spared_modify fun _ => ⟨rfl, rfl, rfl⟩) fun _ => ?_
    refine Steps.bind (Steps.bind (spared_note fun changes => changes) fun _ => spared_outside _)
      fun _ => ?_
    exact steps_pure _
  · exact steps_pure _

theorem polite_spared : Polite P Spared where
  preorder := inferInstance
  hook := spared_outside
  ack code reason _ := spared_ack P code reason

/-- `is_device_unlocked` is null or reports false. -/
def Platform.Locked (w : σ) : Prop := ∀ hook, P.isDeviceUnlocked = some hook → (hook w).1 = false

variable {P} {s : State σ}

theorem whenUnlocked_locked (locked : P.Locked s.world) (body : FastbootM σ Unit) :
    ∃ reason w, (whenUnlocked P body).run s = (fastbootFail P reason).run { s with world := w } := by
  cases hook : P.isDeviceUnlocked with
  | none =>
    have asked : (tegrablIsDeviceUnlocked P).run s = (.ok (.error 1), s) := by
      unfold tegrablIsDeviceUnlocked
      rw [hook]
      rfl
    exact ⟨"Bootloader lock state unknown", s.world, run_bind_ok asked⟩
  | some ask =>
    have asked : (tegrablIsDeviceUnlocked P).run s = (.ok (.ok false), { s with world := (ask s.world).2 }) := by
      unfold tegrablIsDeviceUnlocked
      rw [hook, ← locked ask hook]
      rfl
    exact ⟨"Bootloader is locked.", (ask s.world).2, run_bind_ok asked⟩

variable (P) in
def State.asked (s : State σ) : State σ := ((tegrablIsDeviceUnlocked P).run s).2

variable (P) in
theorem asked_eq (s : State σ) : ∃ w, s.asked P = { s with world := w } := by
  unfold State.asked tegrablIsDeviceUnlocked optional
  cases P.isDeviceUnlocked with
  | none => exact ⟨s.world, rfl⟩
  | some hook => exact ⟨(hook s.world).2, rfl⟩

theorem whenUnlocked_allowed (unlocked : ¬ P.Locked s.world) (body : FastbootM σ Unit) :
    (whenUnlocked P body).run s = body.run (s.asked P) := by
  unfold Platform.Locked at unlocked
  push Not at unlocked
  obtain ⟨ask, hook, reports⟩ := unlocked
  have asked : (tegrablIsDeviceUnlocked P).run s = (.ok (.ok true), s.asked P) := by
    unfold State.asked tegrablIsDeviceUnlocked
    rw [hook, ← eq_true_of_ne_false reports]
    rfl
  exact run_bind_ok asked

theorem whenUnlocked_unlocked (unlocked : ¬ P.Locked s.world) (body : FastbootM σ Unit) :
    ∃ w, (whenUnlocked P body).run s = body.run { s with world := w } := by
  obtain ⟨w, same⟩ := asked_eq P s
  exact ⟨w, same ▸ whenUnlocked_allowed unlocked body⟩

theorem ends_whenUnlocked {body : FastbootM σ Unit} {Q : Unit → State σ → Prop}
    {E : Gone → State σ → Prop}
    (refused : P.Locked s.world → ∀ reason w, Ends (fastbootFail P reason) { s with world := w } Q E)
    (allowed : ¬ P.Locked s.world → ∀ w, Ends body { s with world := w } Q E) :
    Ends (whenUnlocked P body) s Q E := by
  by_cases locked : P.Locked s.world
  · obtain ⟨reason, w, same⟩ := whenUnlocked_locked locked body
    unfold Ends
    rw [same]
    exact refused locked reason w
  · obtain ⟨w, same⟩ := whenUnlocked_unlocked locked body
    unfold Ends
    rw [same]
    exact allowed locked w

theorem spared_of_locked (locked : P.Locked s.world) (body : FastbootM σ Unit) :
    Spared s ((whenUnlocked P body).run s).2 := by
  obtain ⟨reason, w, refused⟩ := whenUnlocked_locked locked body
  have answered := spared_ack P .fail (ascii reason) { s with world := w }
  rw [refused]
  exact ⟨answered.size, answered.storage, answered.log⟩

theorem locked_handle (cmd : Command) (arg : Text) (locked : P.Locked s.world) :
    Spared s ((cmd.handle P arg).run s).2 := by
  have polite := polite_spared P
  cases cmd with
  | reboot => exact polite.cmdReboot s
  | rebootBootloader => exact polite.cmdRebootBootloader s
  | rebootFastboot => exact polite.fail _ s
  | rebootRecovery => exact polite.cmdRebootRecovery s
  | getvar => exact polite.cmdGetvar arg s
  | erase => exact spared_of_locked locked _
  | download => exact spared_of_locked locked _
  | flash => exact spared_of_locked locked _
  | boot => exact spared_of_locked locked _
  | resume => exact polite.okay _ s
  | oem => exact polite.cmdOem arg s
  | flashing => exact polite.cmdFlashing arg s
  | setActive => exact spared_of_locked locked _

theorem spared_afterHandle (buffer : List UInt8) : Steps Spared (afterHandle P buffer) := by
  unfold afterHandle
  split
  · exact steps_pure _
  · refine Steps.bind spared_get ?_
    intro s
    split
    · exact Steps.bind (spared_ack P .fail _) fun _ => steps_pure _
    · exact steps_pure _

/-- A command that is dispatched while the device is locked, whatever was done before, changes
nothing. -/
theorem locked_dispatch (buffer : List UInt8) {s : State σ} (locked : P.Locked s.world) :
    Spared s ((dispatch P buffer).run s).2 := by
  -- The state of the protocol and the log do not matter to the hook that reports the lock.
  have begun (cmd : Option Command) : Spared s
      { s with fastbootState := .command, log := s.log ++ [.dispatched cmd] } :=
    ⟨rfl, rfl, [.dispatched cmd], rfl, by simp [Event.Changes]⟩
  unfold dispatch
  cases findCommand buffer with
  | none =>
    have failed : Steps Spared (fastbootFail P "unknown command" >>= fun _ =>
        (pure false : FastbootM σ Bool)) :=
      Steps.bind (spared_ack P .fail _) fun _ => steps_pure _
    exact trans_of Spared (begun none) (failed _)
  | some cmd =>
    have handled := locked_handle (P := P) cmd.2 (text (buffer.drop cmd.1.length))
      (s := { s with fastbootState := .command, log := s.log ++ [.dispatched cmd.2] }) locked
    exact trans_of Spared (begun cmd.2) (step_bind handled fun _ => spared_afterHandle buffer)

/-- A device that was locked after a download does not take `flash:boot`. -/
theorem locked_dispatch_flash : ∃ s : State Script, s.downloadSize = 4 ∧ (scripted none).Locked s.world ∧
    Spared s ((dispatch (scripted none) (ascii "flash:boot")).run s).2 := by
  have locked : (scripted none).Locked ⟨false, []⟩ := by
    intro hook same
    cases same
    rfl
  exact ⟨{ scriptStart [] with
    downloadBase := some ⟨4, [1, 2, 3, 4]⟩, downloadSize := 4, isAllocated := true,
    world := ⟨false, []⟩ }, rfl, locked, locked_dispatch _ locked⟩

end

end Cboot.Fastboot
