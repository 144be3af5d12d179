import Cboot.Fastboot.Polite

/-!
Whether a response is sent depends on the state of the protocol, which the first OKAY or FAIL changes.
-/

namespace Cboot.Fastboot
open Lib Lib.Attempt

def Event.code : Event → Option Code
  | .sent code _ => some code
  | _ => none

def responses (log : List Event) : List Code := log.filterMap Event.code

def Event.Own : Event → Prop
  | .received _ => False
  | .dispatched _ => False
  | _ => True

def Event.Failed : Event → Prop
  | .bulk _ _ _ full => full = false
  | _ => False

def Pending (codes : List Code) : Prop := ∀ code ∈ codes, code = .info ∨ code = .data

def Terminated (codes : List Code) : Prop :=
  ∃ earlier last, codes = earlier ++ [last] ∧ Pending earlier ∧ (last = .okay ∨ last = .fail)

theorem responses_append (log more : List Event) :
    responses (log ++ more) = responses log ++ responses more := List.filterMap_append

theorem pending_nil : Pending [] := by simp [Pending]

theorem Pending.append {codes more : List Code} (first : Pending codes) (second : Pending more) :
    Pending (codes ++ more) := by
  intro code mem
  rcases List.mem_append.mp mem with here | there
  · exact first code here
  · exact second code there

theorem Pending.terminated {codes more : List Code} (first : Pending codes)
    (second : Terminated more) : Terminated (codes ++ more) := by
  obtain ⟨earlier, last, rfl, pending, terminal⟩ := second
  exact ⟨codes ++ earlier, last, (List.append_assoc _ _ _).symm, first.append pending, terminal⟩

section
variable {σ α : Type}

structure Answering (s t : State σ) : Prop where
  log : ∃ more, t.log = s.log ++ more ∧ (∀ e ∈ more, e.Own ∧ ¬ e.Failed) ∧ (s.fastbootState = .command →
      t.fastbootState = .command ∧ Pending (responses more) ∨
        t.fastbootState = .complete ∧ Terminated (responses more)) ∧
    (s.fastbootState ≠ .command → t.fastbootState = s.fastbootState ∧ responses more = [])

variable {s t : State σ}

theorem answering_same (log : t.log = s.log)
    (state : t.fastbootState = s.fastbootState) : Answering s t := by
  refine ⟨[], by rw [log, List.append_nil], by simp, ?_, ?_⟩
  · intro due
    exact .inl ⟨state.trans due, pending_nil⟩
  · intro _
    exact ⟨state, rfl⟩

instance : IsPreorder (State σ) Answering where
  refl s := answering_same rfl rfl
  trans s t u first second := by
    obtain ⟨more, log, own, due, settled⟩ := first
    obtain ⟨more', log', own', due', settled'⟩ := second
    refine ⟨more ++ more', by rw [log', log, List.append_assoc], ?_, ?_, ?_⟩
    · intro e mem
      rcases List.mem_append.mp mem with here | there
      · exact own e here
      · exact own' e there
    · intro command
      rw [responses_append]
      rcases due command with ⟨still, pending⟩ | ⟨complete, terminated⟩
      · rcases due' still with ⟨still', pending'⟩ | ⟨complete', terminated'⟩
        · exact .inl ⟨still', pending.append pending'⟩
        · exact .inr ⟨complete', pending.terminated terminated'⟩
      · obtain ⟨same, silent⟩ := settled' (by rw [complete]; decide)
        rw [silent, List.append_nil]
        exact .inr ⟨same.trans complete, terminated⟩
    · intro other
      obtain ⟨same, silent⟩ := settled other
      obtain ⟨same', silent'⟩ := settled' (by rw [same]; exact other)
      rw [responses_append, silent, silent']
      exact ⟨same'.trans same, rfl⟩

theorem answering_modify {f : State σ → State σ}
    (same : ∀ s, (f s).log = s.log ∧ (f s).fastbootState = s.fastbootState) :
    Steps Answering (modify f) := fun s => answering_same (same s).1 (same s).2

theorem answering_outside (f : Hook σ α) : Steps Answering (outside f) := fun _ =>
  answering_same rfl rfl

theorem answering_onStorage (f : Storage → Hook σ (α × Storage)) : Steps Answering (onStorage f) :=
  fun _ => answering_same rfl rfl

variable {e : Event}

theorem answering_logged (log : t.log = s.log ++ [e])
    (state : t.fastbootState = s.fastbootState) (own : e.Own) (kept : ¬ e.Failed)
    (silent : e.code = none) : Answering s t := by
  have none : responses [e] = [] := by simp [responses, silent]
  refine ⟨[e], log, by simpa using ⟨own, kept⟩, ?_, ?_⟩
  · intro due
    rw [none]
    exact .inl ⟨state.trans due, pending_nil⟩
  · intro _
    exact ⟨state, none⟩

theorem answering_note (own : e.Own) (kept : ¬ e.Failed) (silent : e.code = none) :
    Steps (Answering (σ := σ)) (note e) := fun _ => answering_logged rfl rfl own kept silent

variable (P : Platform σ)

theorem run_ack (due : s.fastbootState = .command) (code : Code) (reason : Text) :
    ∃ w, (fastbootAck P code reason).run s = (.ok (), { s with
      fastbootState := if code = .info then .command else .complete
      world := w
      log := s.log ++ [.sent code (reason.take (maxResponseSize - 1 - code.text.length))] }) := by
  refine ⟨(P.usbfSend (code.text ++ reason.take (maxResponseSize - 1 - code.text.length))
    s.world).2, ?_⟩
  unfold fastbootAck
  rw [run_bind_ok (show get.run s = (.ok s, s) from rfl), if_pos due]
  rfl

theorem answering_ack (code : Code) (reason : Text) (terminal : code ≠ .data) :
    Steps Answering (fastbootAck P code reason) := by
  intro s
  by_cases due : s.fastbootState = .command
  · obtain ⟨w, sent⟩ := run_ack P due code reason
    rw [sent]
    refine ⟨_, rfl, by simp [Event.Own, Event.Failed], ?_, fun other => absurd due other⟩
    intro _
    cases code with
    | info => exact .inl ⟨rfl, by simp [Pending, responses, Event.code]⟩
    | data => exact absurd rfl terminal
    | okay => exact .inr ⟨rfl, [], .okay, rfl, pending_nil, .inl rfl⟩
    | fail => exact .inr ⟨rfl, [], .fail, rfl, pending_nil, .inr rfl⟩
  · have silent : (fastbootAck P code reason).run s = (.ok (), s) := by
      unfold fastbootAck
      rw [run_bind_ok (show get.run s = (.ok s, s) from rfl), if_neg due]
      rfl
    rw [silent]
    exact answering_same rfl rfl

theorem discreet_answering : Discreet P Answering where
  preorder := inferInstance
  hook := answering_outside
  ack := answering_ack P
  storage f := answering_onStorage f
  wrote s t wrote := by
    obtain ⟨storage, w, writes, rfl, all⟩ := wrote
    have silent : responses writes = [] := by
      refine List.filterMap_eq_nil_iff.mpr ?_
      intro e mem
      obtain ⟨partition, bytes, rfl⟩ := all e mem
      rfl
    refine ⟨writes, rfl, ?_, ?_, ?_⟩
    · intro e mem
      obtain ⟨partition, bytes, rfl⟩ := all e mem
      exact ⟨trivial, fun failed => failed⟩
    · intro due
      rw [silent]
      exact .inl ⟨due, pending_nil⟩
    · intro _
      exact ⟨rfl, silent⟩
  device e ofDevice := by
    cases e with
    | opened _ => exact answering_note trivial (fun failed => failed) rfl
    | erased _ => exact answering_note trivial (fun failed => failed) rfl
    | activated _ => exact answering_note trivial (fun failed => failed) rfl
    | booted _ => exact answering_note trivial (fun failed => failed) rfl
    | _ => exact ofDevice.elim
  image s e _ ofImage := by
    cases e with
    | flashed _ => exact answering_logged rfl rfl trivial (fun failed => failed) rfl
    | updated _ _ => exact answering_logged rfl rfl trivial (fun failed => failed) rfl
    | _ => exact ofImage.elim

structure Handled (s t : State σ) : Prop where
  log : ∃ more, t.log = s.log ++ more ∧ (∀ e ∈ more, e.Own) ∧ (t.fastbootState = .command ∧ Pending (responses more) ∨
      t.fastbootState ≠ .command ∧ Terminated (responses more)) ∧ ((∃ e ∈ more, e.Failed) → t.fastbootState = .error)

theorem Answering.handled (answering : Answering s t)
    (due : s.fastbootState = .command) : Handled s t := by
  obtain ⟨more, log, own, still, -⟩ := answering
  refine ⟨more, log, fun e mem => (own e mem).1, ?_, ?_⟩
  · rcases still due with pending | ⟨complete, terminated⟩
    · exact .inl pending
    · exact .inr ⟨by rw [complete]; decide, terminated⟩
  · intro failed
    obtain ⟨e, mem, failed⟩ := failed
    exact absurd failed (own e mem).2

structure Waiting (s t : State σ) : Prop where
  due : t.fastbootState = .command
  log : ∃ more, t.log = s.log ++ more ∧ (∀ e ∈ more, e.Own ∧ ¬ e.Failed) ∧ Pending (responses more)

variable {u : State σ}

theorem Waiting.same (waiting : Waiting s t) (log : u.log = t.log)
    (state : u.fastbootState = t.fastbootState) : Waiting s u := by
  obtain ⟨due, more, logged, rest⟩ := waiting
  exact ⟨state.trans due, more, log.trans logged, rest⟩

theorem Waiting.logged (waiting : Waiting s t)
    (log : u.log = t.log ++ [e]) (state : u.fastbootState = t.fastbootState) (own : e.Own)
    (kept : ¬ e.Failed) (pending : Pending (responses [e])) : Waiting s u := by
  obtain ⟨due, more, logged, others, silent⟩ := waiting
  refine ⟨state.trans due, more ++ [e], by rw [log, logged, List.append_assoc], ?_, ?_⟩
  · intro e' mem
    rcases List.mem_append.mp mem with here | there
    · exact others e' here
    · rw [List.mem_singleton.mp there]
      exact ⟨own, kept⟩
  · rw [responses_append]
    exact silent.append pending

theorem Waiting.handled (waiting : Waiting s t) (handled : Handled t u) : Handled s u := by
  obtain ⟨due, more, logged, others, pending⟩ := waiting
  obtain ⟨more', logged', own, answered, failed⟩ := handled
  refine ⟨more ++ more', by rw [logged', logged, List.append_assoc], ?_, ?_, ?_⟩
  · intro e mem
    rcases List.mem_append.mp mem with here | there
    · exact (others e here).1
    · exact own e there
  · rw [responses_append]
    rcases answered with ⟨still, pending'⟩ | ⟨settled, terminated⟩
    · exact .inl ⟨still, pending.append pending'⟩
    · exact .inr ⟨settled, pending.terminated terminated⟩
  · intro some
    obtain ⟨e, mem, fails⟩ := some
    rcases List.mem_append.mp mem with here | there
    · exact absurd fails (others e here).2
    · exact failed ⟨e, there, fails⟩

def Grown (s t : State σ) : Prop := ∃ more, t.log = s.log ++ more ∧ ∀ e ∈ more, e.Own

theorem Handled.grown (handled : Handled s t) : Grown s t := by
  obtain ⟨more, log, own, -⟩ := handled
  exact ⟨more, log, own⟩

theorem Steps.handled {c : FastbootM σ α} (steps : Steps Answering c)
    (waiting : Waiting s t) : Ends c t (fun _ u => Handled s u) fun _ u => Grown s u :=
  (steps.ends t).mono (fun _ _ answering => waiting.handled (answering.handled waiting.due))
    fun _ _ answering => (waiting.handled (answering.handled waiting.due)).grown

theorem Waiting.terminated {code : Code} {reason : Text}
    (waiting : Waiting s t) (log : u.log = t.log ++ [e, .sent code reason]) (own : e.Own)
    (silent : e.code = none) (terminal : code = .okay ∨ code = .fail)
    (error : u.fastbootState = .error) : Handled s u := by
  obtain ⟨due, more, logged, others, pending⟩ := waiting
  refine ⟨more ++ [e, .sent code reason], by rw [log, logged, List.append_assoc], ?_, .inr ⟨?_, ?_⟩, fun _ => error⟩
  · intro e' mem
    rcases List.mem_append.mp mem with here | there
    · exact (others e' here).1
    · rcases List.mem_pair.mp there with rfl | rfl
      · exact own
      · trivial
  · rw [error]
    decide
  · have last : responses [e, .sent code reason] = [code] := List.filterMap_cons_none silent
    rw [responses_append, last]
    exact ⟨_, code, rfl, pending, terminal⟩

theorem handled_receive (waiting : Waiting s t) (len : Nat) :
    Ends (receiveDownload P len) t (fun _ u => Handled s u) fun _ u => Grown s u := by
  have discreet := discreet_answering P
  refine ends_bind (Q := fun t' u => t' = t ∧ u = t) (ends_of_ok rfl ⟨rfl, rfl⟩) ?_
  intro t' u both
  obtain ⟨rfl, rfl⟩ := both
  cases found : u.downloadBase with
  | none => exact Steps.handled (discreet.fail _) waiting
  | some base =>
    -- What the transfer leaves behind: its event, and an answer that is still due.
    have moved : ∃ full bytes v, (receiveBulk P base len).run u = (.ok full, v) ∧
        v.log = u.log ++ [.bulk base.room len bytes full] ∧ v.fastbootState = u.fastbootState :=
      ⟨_, _, _, rfl, rfl, rfl⟩
    obtain ⟨full, bytes, v, bulk, log, state⟩ := moved
    refine ends_bind (Q := fun got v' => got = full ∧ v' = v) (ends_of_ok bulk ⟨rfl, rfl⟩) ?_
    intro got v' both
    obtain ⟨rfl, rfl⟩ := both
    cases got with
    | true =>
      refine Steps.handled (Steps.bind (answering_modify fun _ => ⟨rfl, rfl⟩) fun _ => discreet.okay _)
        (waiting.logged log state trivial ?_ pending_nil)
      simp [Event.Failed]
    | false =>
      obtain ⟨w, sent⟩ := run_ack P (state.trans waiting.due) .fail (ascii "USB read Failed")
      have logged (e : Event) : v'.log ++ [e] = u.log ++ [.bulk base.room len bytes false, e] := by
        rw [log, List.append_assoc]
        rfl
      exact ends_of_ok (run_bind_ok sent)
        (waiting.terminated (logged _) trivial rfl (.inr rfl) rfl)

theorem handled_download (arg : Text) (due : s.fastbootState = .command) :
    Ends (cmdDownload P arg) s (fun _ t => Handled s t) fun _ t => Grown s t := by
  have discreet := discreet_answering P
  have here : Waiting s s := ⟨due, [], (List.append_nil _).symm, by simp, pending_nil⟩
  have asked : Ends (tegrablIsDeviceUnlocked P) s (fun _ t => Waiting s t) fun _ t => Grown s t := by
    unfold tegrablIsDeviceUnlocked optional
    cases P.isDeviceUnlocked with
    | none => exact ends_of_ok rfl here
    | some hook => exact ends_of_ok rfl (here.same rfl rfl)
  refine ends_bind asked ?_
  intro result t waiting
  cases result with
  | error e => exact Steps.handled (discreet.fail _) waiting
  | ok is =>
    cases is with
    | false => exact Steps.handled (discreet.fail _) waiting
    | true =>
      dsimp only
      refine ends_bind (Q := fun _ u => Waiting s u) (ends_of_ok rfl (waiting.same rfl rfl)) ?_
      intro _ u waiting
      split
      · exact Steps.handled (discreet.fail _) waiting
      have announced : Waiting s ((usbfSend P .data (hexWord (hex2uint32 arg).toNat)).run u).2 := by
        refine waiting.logged rfl rfl trivial (fun failed => failed) ?_
        simp [Pending, responses, Event.code]
      refine ends_bind (Q := fun _ v => Waiting s v) (ends_of_ok rfl announced) ?_
      intro result v waiting
      cases result with
      | error e => exact Steps.handled (steps_pure _) waiting
      | ok _ =>
        have allocated : Ends (allocateOnce P (hex2uint32 arg).toNat) v (fun _ v' => Waiting s v')
            fun _ v' => Grown s v' := by
          refine ends_bind (Q := fun v₁ v' => Waiting s v') (ends_of_ok rfl waiting) ?_
          intro v₁ v' waiting
          split
          · exact ends_pure waiting
          · exact ends_of_ok rfl (waiting.same rfl rfl)
        exact ends_bind allocated fun _ _ waiting => handled_receive P waiting _

theorem handled_handle (cmd : Command) (arg : Text) (due : s.fastbootState = .command) :
    Ends (cmd.handle P arg) s (fun _ t => Handled s t) fun _ t => Grown s t := by
  have discreet := discreet_answering P
  have here : Waiting s s := ⟨due, [], (List.append_nil _).symm, by simp, pending_nil⟩
  cases cmd with
  | reboot => exact Steps.handled discreet.cmdReboot here
  | rebootBootloader => exact Steps.handled discreet.cmdRebootBootloader here
  | rebootFastboot => exact Steps.handled (discreet.fail _) here
  | rebootRecovery => exact Steps.handled discreet.cmdRebootRecovery here
  | getvar => exact Steps.handled (discreet.cmdGetvar arg) here
  | erase => exact Steps.handled (discreet.erase arg) here
  | download => exact handled_download P arg due
  | flash => exact Steps.handled (discreet.flash arg) here
  | boot => exact Steps.handled discreet.boot here
  | resume => exact Steps.handled (discreet.okay _) here
  | oem => exact Steps.handled (discreet.cmdOem arg) here
  | flashing => exact Steps.handled (discreet.cmdFlashing arg) here
  | setActive => exact Steps.handled (discreet.setActive arg) here

end

def Longest (buffer : List UInt8) : Option Command → Prop
  | none => ∀ entry ∈ fastbootCommands, ¬ ascii entry.1 <+: buffer
  | some cmd => ∃ name, (name, cmd) ∈ fastbootCommands ∧ ascii name <+: buffer ∧
    ∀ entry ∈ fastbootCommands, ascii entry.1 <+: buffer → (ascii entry.1).length ≤ (ascii name).length

theorem cmdInit_eq : tegrablFastbootCmdInit = (fastbootCommands.map fun cmd => (ascii cmd.1, cmd.2)).reverse := rfl

theorem mem_cmdInit {p : Text} {cmd : Command} : (p, cmd) ∈ tegrablFastbootCmdInit ↔
    ∃ name, (name, cmd) ∈ fastbootCommands ∧ ascii name = p := by
  rw [cmdInit_eq, List.mem_reverse, List.mem_map]
  constructor
  · intro listed
    obtain ⟨entry, mem, same⟩ := listed
    cases same
    exact ⟨entry.1, mem, rfl⟩
  · intro listed
    obtain ⟨name, mem, same⟩ := listed
    exact ⟨(name, cmd), mem, by rw [same]⟩

theorem cmdInit_ordered : tegrablFastbootCmdInit.Pairwise
    fun first second => first.1 <+: second.1 → second.1 <+: first.1 := by
  decide

theorem findCommand_longest (buffer : List UInt8) : Longest buffer ((findCommand buffer).map Prod.snd) := by
  cases found : findCommand buffer with
  | none =>
    intro entry mem has
    have absent := List.find?_eq_none.mp found (ascii entry.1, entry.2)
      (mem_cmdInit.mpr ⟨entry.1, mem, rfl⟩)
    exact absent (List.isPrefixOf_iff_prefix.mpr has)
  | some cmd =>
    obtain ⟨has, before, later, split, missing⟩ := List.find?_eq_some_iff_append.mp found
    have taken : cmd.1 <+: buffer := List.isPrefixOf_iff_prefix.mp has
    obtain ⟨name, mem, same⟩ := mem_cmdInit.mp (List.mem_of_find?_eq_some found)
    have ordered := cmdInit_ordered
    refine ⟨name, mem, same ▸ taken, ?_⟩
    intro entry other begins
    rw [same]
    have listed := mem_cmdInit.mpr ⟨entry.1, other, rfl⟩
    rw [split] at listed ordered
    rcases List.mem_append.mp listed with earlier | here
    · have not := missing _ earlier
      simp [List.isPrefixOf_iff_prefix.mpr begins] at not
    · rcases List.mem_cons.mp here with rfl | after
      · exact Nat.le_refl _
      · rcases List.prefix_or_prefix_of_prefix taken begins with short | long
        · have ahead := (List.pairwise_cons.mp (List.pairwise_append.mp ordered).2.1).1 _ after
          exact (ahead short).length_le
        · exact long.length_le

theorem findCommand_continue {buffer : List UInt8} {cmd : Text × Command}
    (found : findCommand buffer = some cmd) (begins : (ascii "continue").isPrefixOf buffer = true) :
    cmd.2 = .resume := by
  have only : ∀ entry ∈ tegrablFastbootCmdInit,
      entry.1 <+: ascii "continue" ∨ ascii "continue" <+: entry.1 → entry.2 = .resume := by
    decide
  have has := List.find?_some found
  exact only cmd (List.mem_of_find?_eq_some found)
    (List.prefix_or_prefix_of_prefix (List.isPrefixOf_iff_prefix.mp has)
      (List.isPrefixOf_iff_prefix.mp begins))

section
variable {σ : Type} (P : Platform σ)

structure Served (cmd : Option Command) (s t : State σ) : Prop where
  log : ∃ more, t.log = s.log ++ .dispatched cmd :: more ∧ (∀ e ∈ more, e.Own) ∧
    Terminated (responses more) ∧ ((∃ e ∈ more, e.Failed) → t.fastbootState = .error)

def State.dispatched (s : State σ) (cmd : Option Command) : State σ :=
  { s with fastbootState := .command, log := s.log ++ [.dispatched cmd] }

variable {cmd : Option Command} {s t : State σ}

theorem Handled.served
    (handled : Handled (s.dispatched cmd) t) (settled : t.fastbootState ≠ .command) : Served cmd s t := by
  obtain ⟨more, log, own, answered, failed⟩ := handled
  refine ⟨more, by rw [log]; exact List.append_assoc _ _ _, own, ?_, failed⟩
  rcases answered with ⟨still, -⟩ | ⟨-, terminated⟩
  · exact absurd still settled
  · exact terminated

theorem Handled.answered
    (handled : Handled (s.dispatched cmd) t) (still : t.fastbootState = .command) (reason : Text)
    (w : σ) : Served cmd s { t with
      fastbootState := .complete, world := w, log := t.log ++ [.sent .fail reason] } := by
  obtain ⟨more, log, own, answered, failed⟩ := handled
  refine ⟨more ++ [.sent .fail reason], ?_, ?_, ?_, ?_⟩
  · show t.log ++ [.sent .fail reason] = _
    rw [log]
    simp [State.dispatched]
  · intro e mem
    rcases List.mem_append.mp mem with here | there
    · exact own e here
    · rw [List.mem_singleton.mp there]
      trivial
  · rw [responses_append]
    rcases answered with ⟨-, pending⟩ | ⟨settled, -⟩
    · exact ⟨_, .fail, rfl, pending, .inr rfl⟩
    · exact absurd still settled
  · intro some
    obtain ⟨e, mem, fails⟩ := some
    rcases List.mem_append.mp mem with here | there
    · have error := failed ⟨e, here, fails⟩
      rw [still] at error
      cases error
    · rw [List.mem_singleton.mp there] at fails
      exact fails.elim

theorem ends_afterHandle {buffer : List UInt8}
    (handled : Handled (s.dispatched cmd) t)
    (resumed : (ascii "continue").isPrefixOf buffer = true → t.fastbootState = .complete)
    {E : Gone → State σ → Prop} : Ends (afterHandle P buffer) t
      (fun returns u => Served cmd s u ∧ (returns = true → u.fastbootState = .complete)) E := by
  unfold afterHandle
  split
  · rename_i begins
    have complete := resumed begins
    exact ends_pure ⟨handled.served (by rw [complete]; decide), fun _ => complete⟩
  refine ends_bind (Q := fun t' u => t' = t ∧ u = t) (ends_of_ok rfl ⟨rfl, rfl⟩) ?_
  intro t' u both
  obtain ⟨rfl, rfl⟩ := both
  split
  · rename_i still
    obtain ⟨w, sent⟩ := run_ack P still .fail (ascii "unknown reason")
    refine ends_bind (Q := fun _ v => Served cmd s v) (ends_of_ok sent ?_) ?_
    · exact handled.answered still _ w
    · intro _ v served
      exact ends_pure ⟨served, fun absurd => by cases absurd⟩
  · rename_i settled
    exact ends_pure ⟨handled.served settled, fun absurd => by cases absurd⟩

theorem ends_dispatch (buffer : List UInt8) (s : State σ) : Ends (dispatch P buffer) s
    (fun returns t => Served ((findCommand buffer).map Prod.snd) s t ∧ (returns = true → t.fastbootState = .complete))
    fun _ t => Grown (s.dispatched ((findCommand buffer).map Prod.snd)) t := by
  unfold dispatch
  refine ends_bind (Q := fun _ t => t = { s with fastbootState := .command })
    (ends_of_ok rfl rfl) ?_
  intro _ t begun
  subst begun
  cases found : findCommand buffer with
  | none =>
    refine ends_bind (Q := fun _ t => t = s.dispatched none) (ends_of_ok rfl rfl) ?_
    intro _ t begun
    subst begun
    obtain ⟨w, sent⟩ := run_ack P (s := s.dispatched none) rfl .fail (ascii "unknown command")
    have here : Handled (s.dispatched none) (s.dispatched none) :=
      (answering_same rfl rfl).handled rfl
    refine ends_bind (Q := fun _ t => Served none s t) (ends_of_ok sent ?_) ?_
    · exact here.answered rfl _ w
    · intro _ t served
      exact ends_pure ⟨served, fun absurd => by cases absurd⟩
  | some cmd =>
    refine ends_bind (Q := fun _ t => t = s.dispatched cmd.2) (ends_of_ok rfl rfl) ?_
    intro _ t begun
    subst begun
    have handles := handled_handle P cmd.2 (text (buffer.drop cmd.1.length))
      (s := s.dispatched cmd.2) rfl
    have resumes : Ends (cmd.2.handle P (text (buffer.drop cmd.1.length))) (s.dispatched cmd.2)
        (fun _ t => (ascii "continue").isPrefixOf buffer = true → t.fastbootState = .complete)
        fun _ _ => True := by
      by_cases begins : (ascii "continue").isPrefixOf buffer = true
      · rw [findCommand_continue found begins]
        obtain ⟨w, sent⟩ := run_ack P (s := s.dispatched Command.resume) rfl .okay []
        exact ends_of_ok sent fun _ => rfl
      · exact ends_true.mono (fun _ _ _ other => absurd other begins) fun _ _ _ => trivial
    refine ends_bind (Q := fun _ t => Handled (s.dispatched cmd.2) t ∧
      ((ascii "continue").isPrefixOf buffer = true → t.fastbootState = .complete)) ?_ ?_
    · exact ⟨fun a t ended => ⟨handles.1 a t ended, resumes.1 a t ended⟩, handles.2⟩
    · intro _ t both
      exact ends_afterHandle P both.1 both.2

inductive Answered : List Event → Prop
  | nil : Answered []
  | command {log more : List Event} {buffer : List UInt8} {cmd : Option Command} :
      Answered log → (∀ e ∈ log, ¬ e.Failed) → Longest buffer cmd → (∀ e ∈ more, e.Own) →
      Terminated (responses more) → Answered (log ++ .received buffer :: .dispatched cmd :: more)

def Departed (log : List Event) : Prop :=
  ∃ before buffer cmd more, log = before ++ .received buffer :: .dispatched cmd :: more ∧
    Answered before ∧ (∀ e ∈ before, ¬ e.Failed) ∧ Longest buffer cmd ∧ ∀ e ∈ more, e.Own

def Turned (s t : State σ) (result : Option (Result Unit)) : Prop :=
  t.log = s.log ∧ result ≠ none ∨ ∃ buffer cmd more, t.log = s.log ++ .received buffer :: .dispatched cmd :: more ∧
      Longest buffer cmd ∧ (∀ e ∈ more, e.Own) ∧ Terminated (responses more) ∧ ((∃ e ∈ more, e.Failed) → result ≠ none)

theorem ends_turn (s : State σ) : Ends (turn P) s (fun result t => Turned s t result)
    fun _ t => ∃ buffer cmd more, t.log = s.log ++ .received buffer :: .dispatched cmd :: more ∧
      Longest buffer cmd ∧ ∀ e ∈ more, e.Own := by
  unfold turn
  refine ends_bind (Q := fun _ t => t.log = s.log) (ends_of_ok rfl rfl) ?_
  intro got t same
  split
  · exact ends_bind (Q := fun _ u => u.log = s.log) (ends_of_ok rfl same) fun _ u same =>
      ends_pure (.inl ⟨same, by simp⟩)
  generalize got.2.take commandSize = buffer
  have longest := findCommand_longest buffer
  refine ends_bind (Q := fun _ u => u.log = s.log ++ [.received buffer]) (ends_of_ok rfl ?_) ?_
  · show t.log ++ [.received buffer] = _
    rw [same]
  intro _ u taken
  have dispatches : Ends (dispatch P buffer) u
      (fun returns v => Served ((findCommand buffer).map Prod.snd) u v ∧ (returns = true → v.fastbootState = .complete))
      fun _ v => ∃ buffer cmd more, v.log = s.log ++ .received buffer :: .dispatched cmd :: more ∧
        Longest buffer cmd ∧ ∀ e ∈ more, e.Own := by
    refine (ends_dispatch P buffer u).mono (fun _ _ served => served) ?_
    intro _ v grown
    obtain ⟨more, log, own⟩ := grown
    refine ⟨buffer, _, more, ?_, longest, own⟩
    rw [log]
    simp [State.dispatched, taken]
  refine ends_bind dispatches ?_
  intro returns v both
  obtain ⟨⟨more, log, own, terminated, failed⟩, complete⟩ := both
  have logged : v.log = s.log ++ .received buffer :: .dispatched ((findCommand buffer).map Prod.snd) :: more := by
    rw [log, taken]
    simp
  cases returns with
  | true => exact ends_pure (.inr ⟨buffer, _, more, logged, longest, own, terminated, by simp⟩)
  | false =>
    refine ends_bind (Q := fun v' u => v' = v ∧ u = v) (ends_of_ok rfl ⟨rfl, rfl⟩) ?_
    intro v' w same
    obtain ⟨rfl, rfl⟩ := same
    split
    · exact ends_bind (Q := fun _ u => u.log = w.log) (ends_of_ok rfl rfl) fun _ u same =>
        ends_pure (.inr ⟨buffer, _, more, same.trans logged, longest, own, terminated, by simp⟩)
    · rename_i going
      exact ends_pure (.inr ⟨buffer, _, more, logged, longest, own, terminated,
        fun fails => absurd (failed fails) going⟩)

theorem ends_loop (fuel : Nat) {s : State σ} {start before : List Event}
    (log : s.log = start ++ before) (answered : Answered before) (kept : ∀ e ∈ before, ¬ e.Failed) :
    Ends (loop P fuel) s (fun _ t => ∃ more, t.log = start ++ more ∧ Answered more)
      fun _ t => ∃ more, t.log = start ++ more ∧ Departed more := by
  induction fuel generalizing s before with
  | zero => exact ends_pure ⟨before, log, answered⟩
  | succ fuel ih =>
    have turns : Ends (turn P) s (fun result t => Turned s t result)
        fun _ t => ∃ more, t.log = start ++ more ∧ Departed more := by
      refine (ends_turn P s).mono (fun _ _ turned => turned) ?_
      intro _ t departed
      obtain ⟨buffer, cmd, more, logged, longest, own⟩ := departed
      exact ⟨_, by rw [logged, log, List.append_assoc], before, buffer, cmd, more, rfl, answered, kept, longest, own⟩
    refine ends_bind turns ?_
    intro result t turned
    rcases turned with ⟨same, settled⟩ | ⟨buffer, cmd, more, logged, longest, own, terminated, failed⟩
    · cases result with
      | none => exact absurd rfl settled
      | some result => exact ends_pure ⟨before, same.trans log, answered⟩
    · have logged' : t.log = start ++ (before ++ .received buffer :: .dispatched cmd :: more) := by
        rw [logged, log, List.append_assoc]
      have answered' := answered.command kept longest own terminated
      cases result with
      | some result => exact ends_pure ⟨_, logged', answered'⟩
      | none =>
        refine ih logged' answered' ?_
        intro e mem fails
        rcases List.mem_append.mp mem with here | there
        · exact kept e here fails
        rcases List.mem_cons.mp there with rfl | there
        · exact fails
        rcases List.mem_cons.mp there with rfl | there
        · exact fails
        · exact failed ⟨e, there, fails⟩ rfl

/-- In whatever state `tegrabl_fastboot_command_handler` is called and however it ends, it adds answered commands to the
log, with at most one at the end whose handler did not come back. -/
theorem commands_answered (fuel : Nat) (s : State σ) :
    (∀ result t, (tegrablFastbootCommandHandler P fuel).run s = (.ok result, t) →
      ∃ more, t.log = s.log ++ more ∧ Answered more) ∧
    ∀ gone t, (tegrablFastbootCommandHandler P fuel).run s = (.error gone, t) →
      ∃ more, t.log = s.log ++ more ∧ Departed more := by
  show Ends (tegrablFastbootCommandHandler P fuel) s
    (fun _ t => ∃ more, t.log = s.log ++ more ∧ Answered more)
    fun _ t => ∃ more, t.log = s.log ++ more ∧ Departed more
  have none (t : State σ) (same : t.log = s.log) : ∃ more, t.log = s.log ++ more ∧ Answered more :=
    ⟨[], by rw [same, List.append_nil], .nil⟩
  refine ends_bind (Q := fun _ t => t.log = s.log) (ends_of_ok rfl rfl) ?_
  intro memory t same
  split
  · refine ends_bind (Q := fun t' u => u.log = s.log) (ends_of_ok rfl same) ?_
    intro t' u same
    split
    · exact ends_bind (Q := fun _ v => v.log = s.log) (ends_of_ok rfl same) fun _ v same =>
        ends_pure (none v same)
    · exact ends_loop P fuel (same.trans (List.append_nil _).symm) .nil (by simp)
  · exact ends_bind (Q := fun _ v => v.log = s.log) (ends_of_ok rfl same) fun _ v same =>
      ends_pure (none v same)

end

end Cboot.Fastboot
