import Cboot.Qspi.Runs

/-!
A function of the driver returns an error exactly where something failed that it reports.
-/

namespace Cboot.Qspi
open Lib

def Event.bad (e : Event) : Prop := reported e.stage e.op = true ∧ e.ok = false

def Event.lost (e : Event) : Prop := dropped e.stage e.op = true ∧ e.ok = false

instance (e : Event) : Decidable e.bad := inferInstanceAs (Decidable (_ ∧ _))

instance (e : Event) : Decidable e.lost := inferInstanceAs (Decidable (_ ∧ _))

def Event.done (e : Event) : Bool := (told e).any Prod.snd

section
variable {α β : Type} {stage : Stage} {op : Op} {f : State → Except Error α × State}

theorem honest_ask (seen : reported stage op = true) : Act.Honest Event.bad (ask stage op f) :=
  Act.honest_step fun r => by cases r <;> simp [Event.bad, seen, Except.isOk, Except.toBool]

theorem all_ask_kept (unseen : reported stage op = false) : Act.All (fun e => ¬ e.bad) (ask stage op f) :=
  Act.all_step fun s bad => absurd bad.1 (by rw [unseen]; decide)

theorem honest_attempt_ask (unseen : reported stage op = false) : Act.Honest Event.bad (ask stage op f).attempt :=
  (all_ask_kept unseen).honest_attempt

section
variable {env : Env} {d : DriverInfo} {bset : Bool}

theorem honest_qspiQuadFlagSet (seen : reported stage (.mode bset) = true) :
    Act.Honest Event.bad (qspiQuadFlagSet env d stage bset) := by
  rw [qspiQuadFlagSet]
  split
  · exact honest_ask seen
  · exact Act.honest_pure ()

theorem honest_eraseLoop {erase : Nat → Command} {sizeLog2 : UInt32} : ∀ (n : Nat) (address : UInt32),
    Act.Honest Event.bad (eraseLoop env d .sectorErase erase sizeLog2 n address) := by
  intro n
  induction n with
  | zero => exact fun _ => Act.honest_pure ()
  | succ n ih =>
    intro address
    refine (honest_ask rfl).bind fun _ => (honest_attempt_ask rfl).bind fun err => ?_
    cases err with
    | error e => exact honest_ask rfl
    | ok a => exact (honest_attempt_ask rfl).bind fun _ => (honest_ask rfl).bind fun _ => ih _

variable {start num : UInt32}

theorem honest_tegrablQspiFlashSectorErase :
    Act.Honest Event.bad (tegrablQspiFlashSectorErase env d start num) :=
  (honest_ask rfl).bind fun _ => (honest_ask rfl).bind fun _ => (honest_qspiQuadFlagSet rfl).bind fun _ =>
    (honest_eraseLoop _ _).bind fun _ => honest_qspiQuadFlagSet rfl

theorem honest_tegrablQspiFlashBulkErase : Act.Honest Event.bad (tegrablQspiFlashBulkErase env d) :=
  (honest_ask rfl).bind fun _ => (honest_ask rfl).bind fun _ => honest_ask rfl

theorem all_kept_qspiQuadFlagSet :
    Act.All (fun e => ¬ e.bad) (qspiQuadFlagSet env d .parameterErase bset) := by
  rw [qspiQuadFlagSet]
  split
  · exact all_ask_kept rfl
  · exact Act.all_pure ()

theorem all_kept_eraseLoop {erase : Nat → Command} {sizeLog2 : UInt32} : ∀ (n : Nat) (address : UInt32),
    Act.All (fun e => ¬ e.bad) (eraseLoop env d .parameterErase erase sizeLog2 n address) := by
  intro n
  induction n with
  | zero => exact fun _ => Act.all_pure ()
  | succ n ih =>
    intro address
    refine (all_ask_kept rfl).bind fun _ => (all_ask_kept rfl).attempt.bind fun err => ?_
    cases err with
    | error e => exact all_ask_kept rfl
    | ok a => exact (all_ask_kept rfl).attempt.bind fun _ => (all_ask_kept rfl).bind fun _ => ih _

theorem all_kept_tegrablQspiFlashParameterSectorErase {isTop : Bool} :
    Act.All (fun e => ¬ e.bad) (tegrablQspiFlashParameterSectorErase env d start num isTop) :=
  (all_ask_kept rfl).bind fun _ => (all_ask_kept rfl).bind fun _ => (all_ask_kept rfl).bind fun _ =>
    all_kept_qspiQuadFlagSet.bind fun _ => (all_kept_eraseLoop _ _).bind fun _ => all_kept_qspiQuadFlagSet

theorem honest_qspiQpiFlagSet : Act.Honest Event.bad (qspiQpiFlagSet env d bset) := by
  rw [qspiQpiFlagSet]
  split
  · exact Act.honest_pure ()
  · exact (Act.honest_pure ()).choose
      ((honest_ask rfl).bind fun _ => (honest_attempt_ask rfl).bind fun _ => Act.honest_pure ())

theorem honest_writeLoop {buf : Buffer} (page : 0 < d.chipInfo.pageWriteSize.toNat) :
    ∀ (fuel : Nat) (bytes address : UInt32) (offset : Nat), bytes.toNat ≤ fuel →
    Act.Honest Event.bad (writeLoop env d buf fuel bytes address offset) := by
  intro fuel
  induction fuel with
  | zero =>
    intro bytes address offset few
    rw [writeLoop, if_pos (UInt32.toNat_inj.mp (Nat.le_zero.mp few))]
    exact Act.honest_pure ()
  | succ fuel ih =>
    intro bytes address offset few
    rw [writeLoop]
    split
    · exact Act.honest_pure ()
    · refine (honest_ask rfl).bind fun _ => (honest_ask rfl).bind fun _ => (honest_attempt_ask rfl).bind fun err => ?_
      cases err with
      | error e => exact honest_ask rfl
      | ok a =>
        refine (honest_attempt_ask rfl).bind fun _ => ?_
        split
        · rename_i more
          have less := UInt32.lt_iff_toNat_lt.mp more
          have left := UInt32.toNat_sub_of_le bytes _ (UInt32.le_of_lt more)
          exact ih _ _ _ (by omega)
        · exact ih _ _ _ (Nat.zero_le _)

variable (page : 0 < d.chipInfo.pageWriteSize.toNat)
include page

theorem honest_qspiBdevWriteBlock {buf : Buffer} :
    Act.Honest Event.bad (qspiBdevWriteBlock env (some ⟨some d⟩) buf start num) :=
  (honest_ask rfl).bind fun _ => (honest_ask rfl).bind fun _ => honest_qspiQpiFlagSet.bind fun _ =>
    (honest_writeLoop page _ _ _ _ (Nat.le_refl _)).bind fun _ => honest_qspiQpiFlagSet

theorem honest_restore {buf : Buffer} {start count : UInt32} :
    Act.Honest Event.bad (restore env (some ⟨some d⟩) buf start count) := by
  rw [restore]
  split
  · exact honest_qspiBdevWriteBlock page
  · exact Act.honest_pure ()

omit page in
theorem honest_backUp {aux : Nat} {start count : UInt32} :
    Act.Honest Event.bad (backUp env (some ⟨some d⟩) d.chipInfo aux start count) := by
  rw [backUp]
  split
  · exact (honest_ask rfl).bind fun _ => (honest_ask rfl).bind fun _ => (honest_ask rfl).bind fun _ =>
      (honest_ask rfl).bind fun _ => honest_ask rfl
  · exact Act.honest_pure _

theorem honest_qspiBdevErase {block count : UInt32} :
    Act.Honest Event.bad (qspiBdevErase env (some ⟨some d⟩) block count) := by
  refine (honest_ask rfl).bind fun _ => ?_
  split
  · exact honest_tegrablQspiFlashBulkErase
  · refine honest_backUp.bind fun head => honest_backUp.bind fun tail => Act.Honest.bind ?_ fun _ =>
      honest_tegrablQspiFlashSectorErase.bind fun _ => (honest_restore page).bind fun _ => honest_restore page
    refine Act.All.honest_attempt ?_
    split
    · exact all_kept_tegrablQspiFlashParameterSectorErase
    · exact Act.all_pure ()

end

abbrev DoesAtMost {γ : Type} (n : Nat) (x : Driver γ) : Prop := Act.Counts Event.done Event.lost n x

theorem counts_ask (kept : dropped stage op = false) (idle : ∀ ok, (⟨stage, op, ok⟩ : Event).done = false) :
    DoesAtMost 0 (ask stage op f) :=
  Act.counts_step (fun _ loss => absurd loss.1 (by rw [kept]; decide)) fun _ => idle _

theorem all_idle_ask (idle : ∀ ok, (⟨stage, op, ok⟩ : Event).done = false) :
    Act.All (fun e => e.done = false) (ask stage op f) := Act.all_step fun _ => idle _

theorem not_done_of_failed : (⟨stage, op, false⟩ : Event).done = false := by
  cases op <;> rfl

theorem counts_one : DoesAtMost 1 (ask stage op f) :=
  Act.counts_one (fun _ loss => Bool.noConfusion (show true = false from loss.2)) fun _ => not_done_of_failed

theorem counts_ask_bind {n : Nat} {g : α → Driver β} (idle : ∀ ok, (⟨stage, op, ok⟩ : Event).done = false)
    (then_ : ∀ a, DoesAtMost n (g a)) (some_ : 0 < n) : DoesAtMost n (ask stage op f >>= g) := by
  refine Act.Counts.after (all_idle_ask idle) ?_ then_ some_
  intro s a ok e member loss
  change (f s).1 = .ok a at ok
  have fine : e.ok = true := by rw [List.mem_singleton.mp member, ok]; rfl
  exact absurd loss.2 (by rw [fine]; decide)

theorem counts_attempt_bind {n : Nat} {g : Except Error α → Driver β} (failed : ∀ e, Act.All (fun t => t.done = false) (g (.error e)))
    (then_ : ∀ a, DoesAtMost n (g (.ok a))) : DoesAtMost (1 + n) ((ask stage op f).attempt >>= g) :=
  Act.counts_attempt_bind (fun _ loss => Bool.noConfusion (show true = false from loss.2)) (fun _ => not_done_of_failed) failed then_

section
variable {env : Env} {d : DriverInfo}

theorem counts_qspiQuadFlagSet {bset : Bool} (kept : dropped stage (.mode bset) = false) :
    DoesAtMost 0 (qspiQuadFlagSet env d stage bset) := by
  rw [qspiQuadFlagSet]
  split
  · exact counts_ask kept fun _ => rfl
  · exact Act.counts_pure ()

theorem counts_eraseLoop {erase : Nat → Command} {sizeLog2 : UInt32} : ∀ (n : Nat) (address : UInt32),
    DoesAtMost (2 * n) (eraseLoop env d stage erase sizeLog2 n address) := by
  intro n
  induction n with
  | zero => exact fun _ => Act.counts_pure ()
  | succ n ih =>
    intro address
    refine counts_ask_bind (fun _ => rfl) (fun _ => ?_) (by omega)
    rw [show 2 * (n + 1) = 1 + (1 + 2 * n) by omega]
    refine counts_attempt_bind (fun e => all_idle_ask fun _ => rfl) fun _ => ?_
    refine Act.Counts.bind (Act.Counts.attempt counts_one) fun _ => ?_
    cases kept : dropped stage (.writeDisable n) with
    | true =>
      have more : 0 < n := (of_decide_eq_true kept).2
      exact counts_ask_bind (fun _ => rfl) (fun _ => ih _) (by omega)
    | false => exact Act.Counts.behind (counts_ask kept fun _ => rfl) fun _ => ih _

theorem length_erases {erase : Nat → Command} {size n address : Nat} : (erases erase size n address).length = n := by
  rw [erases, List.length_map, List.length_range]

theorem counts_parameters {first : UInt32} : DoesAtMost (2 * (parametersNeeded d.chipInfo first.toNat).length)
      (if first = 0 then tegrablQspiFlashParameterSectorErase env d 0 8 false else pure ()).attempt := by
  refine Act.Counts.attempt ?_
  split
  · rename_i zero
    refine Act.Counts.behind (counts_ask rfl fun _ => rfl) fun _ => ?_
    rw [zero, show (0 : UInt32).toNat = 0 from rfl]
    by_cases eight : 8 ≤ d.chipInfo.parameterSectorCount.toNat
    · rw [parametersNeeded_eight eight, length_erases]
      refine Act.Counts.behind (counts_ask rfl fun _ => rfl) fun _ => Act.Counts.behind (counts_ask rfl fun _ => rfl) fun _ => ?_
      have rest : ∀ address, DoesAtMost (2 * 8) (eraseLoop env d .parameterErase .parameterErase
          d.chipInfo.parameterSectorSizeLog2 8 address >>= fun _ => qspiQuadFlagSet env d .parameterErase true) :=
        fun address => Act.Counts.bind (n := 0) (counts_eraseLoop 8 address) fun _ => counts_qspiQuadFlagSet rfl
      rw [qspiQuadFlagSet]
      split
      · exact counts_ask_bind (fun _ => rfl) (fun _ => rest _) (by decide)
      · exact Act.Counts.behind (Act.counts_pure ()) fun _ => rest _
    · rw [parametersNeeded_few eight]
      exact Act.Counts.stop (fun s => ⟨.invalid 3, if_neg (mt eight_iff.mp eight)⟩) (counts_ask rfl fun _ => rfl)
  · exact (Act.counts_pure ()).mono (Nat.zero_le _)

theorem counts_tegrablQspiFlashSectorErase {start num : UInt32} :
    DoesAtMost (2 * num.toNat) (tegrablQspiFlashSectorErase env d start num) :=
  Act.Counts.behind (counts_ask rfl fun _ => rfl) fun _ => Act.Counts.behind (counts_ask rfl fun _ => rfl) fun _ =>
    Act.Counts.behind (counts_qspiQuadFlagSet rfl) fun _ => Act.Counts.bind (counts_eraseLoop _ _) fun _ =>
      counts_qspiQuadFlagSet rfl

theorem counts_tegrablQspiFlashBulkErase : DoesAtMost 2 (tegrablQspiFlashBulkErase env d) :=
  Act.Counts.behind (counts_ask rfl fun _ => rfl) fun _ => Act.Counts.bind counts_one fun _ => counts_one

theorem counts_qspiQpiFlagSet {bset : Bool} : DoesAtMost 0 (qspiQpiFlagSet env d bset) := by
  rw [qspiQpiFlagSet]
  split
  · exact Act.counts_pure ()
  · exact (Act.counts_pure ()).choose (Act.Counts.behind (counts_ask rfl fun _ => rfl) fun _ =>
      Act.Counts.behind (Act.Counts.attempt (counts_ask rfl fun _ => rfl)) fun _ => Act.counts_pure ())

variable (page : 0 < d.chipInfo.pageWriteSize.toNat)
include page

variable {buf : Buffer}

theorem counts_writeLoop : ∀ (fuel : Nat) (bytes address : UInt32) (offset start : Nat),
    DoesAtMost (2 * (programs d.chipInfo.pageWriteSize.toNat start bytes.toNat).length)
      (writeLoop env d buf fuel bytes address offset) := by
  intro fuel
  induction fuel with
  | zero =>
    intro bytes address offset start
    rw [writeLoop]
    split
    · exact (Act.counts_pure ()).mono (Nat.zero_le _)
    · exact Act.counts_fail _
  | succ fuel ih =>
    intro bytes address offset start
    rw [writeLoop]
    split
    · exact (Act.counts_pure ()).mono (Nat.zero_le _)
    · rename_i some_
      have positive : 0 < bytes.toNat := toNat_pos some_
      refine Act.Counts.behind (counts_ask rfl fun _ => rfl) fun _ => Act.Counts.behind (counts_ask rfl fun _ => rfl) fun _ => ?_
      by_cases more : bytes > d.chipInfo.pageWriteSize
      · have left := UInt32.toNat_sub_of_le bytes _ (UInt32.le_of_lt more)
        have rest := fun address offset => ih (bytes - d.chipInfo.pageWriteSize) address offset
          (start + d.chipInfo.pageWriteSize.toNat)
        rw [left] at rest
        rw [programs_cons page (UInt32.lt_iff_toNat_lt.mp more), List.length_cons, Nat.mul_add, Nat.add_comm]
        refine (counts_attempt_bind (fun e => all_idle_ask fun _ => rfl) fun _ =>
          Act.Counts.bind (Act.Counts.attempt counts_one) fun _ => ?_).mono (Nat.le_of_eq (Nat.add_assoc 1 1 _).symm)
        simp only [more, if_true]
        exact rest _ _
      · have less := UInt32.le_iff_toNat_le.mp (UInt32.not_lt.mp more)
        have rest := fun address offset => ih 0 address offset 0
        rw [show (0 : UInt32).toNat = 0 from rfl, programs_nil page] at rest
        rw [programs_last positive less]
        refine counts_attempt_bind (n := 1 + 0) (fun e => all_idle_ask fun _ => rfl) fun _ =>
          Act.Counts.bind (Act.Counts.attempt counts_one) fun _ => ?_
        simp only [more, if_false]
        exact rest _ _

theorem counts_qspiBdevWriteBlock {start num : UInt32} (address : Nat) :
    DoesAtMost (2 * (programs d.chipInfo.pageWriteSize.toNat address (num <<< d.chipInfo.blockSizeLog2).toNat).length)
      (qspiBdevWriteBlock env (some ⟨some d⟩) buf start num) :=
  Act.Counts.behind (counts_ask rfl fun _ => rfl) fun _ => Act.Counts.behind (counts_ask rfl fun _ => rfl) fun _ =>
    Act.Counts.behind counts_qspiQpiFlagSet fun _ => Act.Counts.bind (counts_writeLoop page _ _ _ _ _) fun _ =>
      counts_qspiQpiFlagSet

omit page in
theorem counts_backUp {aux : Nat} {start count : UInt32} :
    DoesAtMost 0 (backUp env (some ⟨some d⟩) d.chipInfo aux start count) := by
  rw [backUp]
  split
  · exact Act.Counts.behind (counts_ask rfl fun _ => rfl) fun _ => Act.Counts.behind (counts_ask rfl fun _ => rfl) fun _ =>
      Act.Counts.behind (counts_ask rfl fun _ => rfl) fun _ => Act.Counts.behind (counts_ask rfl fun _ => rfl) fun _ =>
        counts_ask rfl fun _ => rfl
  · exact Act.counts_pure _

theorem counts_restore {start count : UInt32} (address : Nat) :
    DoesAtMost (2 * (programs d.chipInfo.pageWriteSize.toNat address (count <<< d.chipInfo.blockSizeLog2).toNat).length)
      (restore env (some ⟨some d⟩) buf start count) := by
  rw [restore]
  split
  · exact counts_qspiBdevWriteBlock page address
  · exact (Act.counts_pure ()).mono (Nat.zero_le _)

omit page in
theorem counts_qspiBdevErase (geometry : Geometry d.chipInfo) {block count : UInt32}
    (inside : block.toNat + count.toNat ≤ d.chipInfo.blockCount.toNat) :
    DoesAtMost (2 * (neededErase d block.toNat count.toNat).length) (qspiBdevErase env (some ⟨some d⟩) block count) := by
  refine Act.Counts.behind (counts_ask rfl fun _ => rfl) fun _ => ?_
  split
  · rename_i whole
    rw [neededErase, if_pos (whole_iff.mp whole)]
    exact counts_tegrablQspiFlashBulkErase
  · rename_i part
    have planned := geometry.planned inside
    have last := geometry.end_mul_le inside
    have most := geometry.bytes_le inside
    have bytes : block.toNat * d.chipInfo.blockSize ≤ (block.toNat + count.toNat) * d.chipInfo.blockSize :=
      Nat.mul_le_mul_right _ (Nat.le_add_right _ _)
    have head := geometry.toNat_bytes (planOf d.chipInfo block count).headCount (by rw [planned.headCount]; omega)
    have tail := geometry.toNat_bytes (planOf d.chipInfo block count).tailCount (by rw [planned.tailCount]; omega)
    rw [planned.headCount] at head
    rw [planned.tailCount] at tail
    rw [neededErase, if_neg (mt whole_iff.mpr part)]
    simp only [List.length_append, Nat.mul_add, Nat.add_assoc, length_erases]
    refine Act.Counts.behind counts_backUp fun _ => Act.Counts.behind counts_backUp fun _ => ?_
    refine Act.Counts.bind (planned.sectorNum ▸ counts_parameters) fun _ => ?_
    refine Act.Counts.bind (planned.sectorCnt ▸ counts_tegrablQspiFlashSectorErase) fun _ => ?_
    exact Act.Counts.bind (head ▸ counts_restore geometry.page_pos _) fun _ => tail ▸ counts_restore geometry.page_pos _

end

end

end Cboot.Qspi
