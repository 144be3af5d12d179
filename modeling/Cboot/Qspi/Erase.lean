import Cboot.Qspi.Failures

/-!
Sectors are larger than blocks, so what is in front of and behind the blocks is erased with them.
-/

namespace Cboot.Qspi
open Lib

theorem erased_and (v : UInt8) : 0xFF &&& v = v := by
  rw [show (0xFF : UInt8) = -1 from rfl, UInt8.neg_one_and]

section
variable {d : DriverInfo} {flash : Nat → UInt8} {x : Nat}

theorem applied_erases {erase : Nat → Command} {size : Nat} (positive : 0 < size)
    (each : ∀ address flash x, (erase address).apply d.chipInfo (fun _ => 0) flash x =
      if x / size = address / size then 0xFF else flash x) :
    ∀ (n first : Nat) (flash : Nat → UInt8), applied d.chipInfo (erases erase size n (first * size)) flash x =
      if first ≤ x / size ∧ x / size < first + n then 0xFF else flash x := by
  intro n
  induction n with
  | zero =>
    intro first flash
    rw [if_neg (by omega)]
    rfl
  | succ n ih =>
    intro first flash
    rw [erases_succ, ← Nat.succ_mul]
    change applied d.chipInfo (erases erase size n ((first + 1) * size)) ((erase (first * size)).apply d.chipInfo _ flash) x = _
    rw [ih, each, Nat.mul_div_cancel _ positive]
    by_cases here : x / size = first
    · rw [if_pos here, ite_self, if_pos (by omega)]
    · rw [if_neg here]
      by_cases later : first + 1 ≤ x / size ∧ x / size < first + 1 + n
      · rw [if_pos later, if_pos (by omega)]
      · rw [if_neg later, if_neg (by omega)]

variable (geometry : Geometry d.chipInfo) {block count : Nat}
include geometry

theorem parameters_outside {first : Nat} (outside : first = 0 → d.chipInfo.sectorSize ≤ x) :
    applied d.chipInfo (parametersNeeded d.chipInfo first) flash x = flash x := by
  rw [parametersNeeded]
  split
  · rename_i needed
    have fits := geometry.parameters needed.2
    have positive : 0 < d.chipInfo.parameterSize := Nat.two_pow_pos _
    have behind : 8 ≤ x / d.chipInfo.parameterSize :=
      (Nat.le_div_iff_mul_le positive).mpr (by have := outside needed.1; omega)
    have erased : applied d.chipInfo (erases .parameterErase d.chipInfo.parameterSize 8 (0 * d.chipInfo.parameterSize)) flash x =
        if 0 ≤ x / d.chipInfo.parameterSize ∧ x / d.chipInfo.parameterSize < 0 + 8 then 0xFF else flash x :=
      applied_erases positive (fun _ _ _ => rfl) 8 0 flash
    rw [Nat.zero_mul] at erased
    rw [erased, if_neg (by omega)]
  · rfl

theorem leftBy_eq (some : 0 < count) (real : x < d.chipInfo.flashSize) : leftBy d block count flash x =
      if block * d.chipInfo.blockSize ≤ x ∧ x < (block + count) * d.chipInfo.blockSize then 0xFF else flash x := by
  rw [leftBy]
  split
  · rename_i whole
    obtain ⟨zero, all, _⟩ := whole
    rw [zero, all, Nat.zero_mul, Nat.zero_add, geometry.blocks_mul, if_pos ⟨Nat.zero_le _, real⟩]
  · have first := @firstSector_mul_le d.chipInfo block
    have last := @le_endSector_mul d.chipInfo block count
    have ordered := @firstSector_lt_endSector d.chipInfo block count some
    have bytes : block * d.chipInfo.blockSize ≤ (block + count) * d.chipInfo.blockSize :=
      Nat.mul_le_mul_right _ (Nat.le_add_right _ _)
    have erased : applied d.chipInfo (erases .sectorErase d.chipInfo.sectorSize
        (endSector d.chipInfo block count - firstSector d.chipInfo block)
        (firstSector d.chipInfo block * d.chipInfo.sectorSize))
        (applied d.chipInfo (parametersNeeded d.chipInfo (firstSector d.chipInfo block)) flash) x =
        if firstSector d.chipInfo block * d.chipInfo.sectorSize ≤ x ∧ x < endSector d.chipInfo block count * d.chipInfo.sectorSize
        then 0xFF else flash x := by
      rw [applied_erases d.chipInfo.sectorSize_pos (fun _ _ _ => rfl)]
      simp only [Nat.le_div_iff_mul_le d.chipInfo.sectorSize_pos, Nat.div_lt_iff_lt_mul d.chipInfo.sectorSize_pos,
        Nat.add_sub_cancel' (Nat.le_of_lt ordered)]
      split
      · rfl
      · rename_i outside
        refine parameters_outside geometry fun zero => ?_
        have one : 1 * d.chipInfo.sectorSize ≤ endSector d.chipInfo block count * d.chipInfo.sectorSize :=
          Nat.mul_le_mul_right _ (by omega)
        rw [zero, Nat.zero_mul] at outside
        omega
    simp only [Command.apply, erased]
    generalize firstSector d.chipInfo block * d.chipInfo.sectorSize = lo at first ⊢
    generalize endSector d.chipInfo block count * d.chipInfo.sectorSize = hi at last ⊢
    generalize block * d.chipInfo.blockSize = start at first bytes ⊢
    generalize (block + count) * d.chipInfo.blockSize = stop at last bytes ⊢
    by_cases head : lo ≤ x ∧ x < start
    · rw [if_neg (by omega), if_pos (by omega), if_pos (by omega), if_neg (by omega), erased_and,
        Nat.add_sub_cancel' head.1]
    · rw [if_neg (by omega : ¬ (lo ≤ x ∧ x < lo + (start - lo)))]
      by_cases tail : stop ≤ x ∧ x < hi
      · rw [if_pos (by omega), if_pos (by omega), if_neg (by omega), erased_and, Nat.add_sub_cancel' tail.1]
      · rw [if_neg (by omega)]
        by_cases here : start ≤ x ∧ x < stop
        · rw [if_pos (by omega), if_pos here]
        · rw [if_neg (by omega), if_neg here]

end

/-- Where the chip and the heap do what they are asked, exactly the blocks are erased. -/
theorem qspiBdevErase_intact {env : Env} {d : DriverInfo} (geometry : Geometry d.chipInfo)
    (pages : 4 ∣ d.chipInfo.pageWriteSize.toNat) (heap : ∀ now size, 4 ∣ env.calloc now size) {block count : UInt32}
    (some_ : count ≠ 0) (inside : block.toNat + count.toNat ≤ d.chipInfo.blockCount.toNat) (s : State)
    (fine : ∀ e ∈ (qspiBdevErase env (some ⟨some d⟩) block count s).events, e.op.isCheck = false → e.ok = true) :
    (qspiBdevErase env (some ⟨some d⟩) block count s).result = .ok () ∧
      (∀ x < d.chipInfo.flashSize, (qspiBdevErase env (some ⟨some d⟩) block count s).state.flash x =
        if block.toNat * d.chipInfo.blockSize ≤ x ∧ x < (block.toNat + count.toNat) * d.chipInfo.blockSize then 0xFF
        else s.flash x) ∧
      ⟨.sectorErase, .assertion, false⟩ ∉ (qspiBdevErase env (some ⟨some d⟩) block count s).events := by
  have allows : Allows fun e => e.op.isCheck = false → e.ok = true := by
    intro stage op good
    cases check : op.isCheck with
    | true => exact .inl rfl
    | false => exact nomatch good check
  have aligned : (∀ now size, env.calloc now size % 4 = 0) ∧ d.chipInfo.pageWriteSize.toNat % 4 = 0 :=
    ⟨fun now size => Nat.mod_eq_zero_of_dvd (heap now size), Nat.mod_eq_zero_of_dvd pages⟩
  obtain ⟨⟨⟩, done, left, _⟩ :=
    leads_qspiBdevErase s.flash env allows geometry (fun _ => some_) (fun _ => aligned) inside s rfl fine
  refine ⟨done, fun x real => ?_, fun violated => ?_⟩
  · rw [left]
    exact leftBy_eq geometry (toNat_pos some_) real
  · exact (honest_qspiBdevErase geometry.page_pos s).mp ⟨(), done⟩ _ violated ⟨rfl, rfl⟩

def smallChip (page : UInt32) : DriverInfo where
  chipInfo :=
    { flashSizeLog2 := 5
      blockSizeLog2 := 2
      blockCount := 8
      sectorSizeLog2 := 3
      sectorCount := 4
      parameterSectorSizeLog2 := 0
      parameterSectorCount := 8
      addressLength := 3
      pageWriteSize := page }
  device := { manufactureId := manufactureIdMicron, flag := flagQpi }
  maxBusWidthX4 := false

def smallEnv : Env where
  answer := fun now _ => ⟨true, if now % 3 = 0 then 0 else welEnable⟩
  x4EnableSpansion := fun _ _ => (true, 0)
  calloc := fun now _ => 4 * (now + 1)

def smallState : State := ⟨fun x => x.toUInt8, 0, false⟩

theorem smallChip_geometry (page : UInt32) (divides : page.toNat ∣ 4) : Geometry (smallChip page).chipInfo where
  flash := (by decide : 5 ≤ 31)
  sector := (by decide : 3 ≤ 5)
  block := (by decide : 2 ≤ 3)
  blocks := rfl
  sectors := rfl
  page := divides
  address := .inl rfl
  addressable := (by decide : 5 ≤ 24)
  parameters := fun _ => (by decide : 2 ^ 0 * 8 ≤ 2 ^ 3)

/-- Blocks 1 to 4 are erased, with half of sector 0 and half of sector 2 brought back. -/
theorem qspiBdevErase_small : (qspiBdevErase smallEnv (some ⟨some (smallChip 4)⟩) 1 4 smallState).state.flash 3 = 3 ∧
    (qspiBdevErase smallEnv (some ⟨some (smallChip 4)⟩) 1 4 smallState).state.flash 4 = 0xFF ∧
    (qspiBdevErase smallEnv (some ⟨some (smallChip 4)⟩) 1 4 smallState).state.flash 19 = 0xFF ∧
    (qspiBdevErase smallEnv (some ⟨some (smallChip 4)⟩) 1 4 smallState).state.flash 20 = 20 := by
  have erased : ∀ x < 32, (qspiBdevErase smallEnv (some ⟨some (smallChip 4)⟩) 1 4 smallState).state.flash x =
      if 4 ≤ x ∧ x < 20 then 0xFF else x.toUInt8 :=
    (qspiBdevErase_intact (smallChip_geometry 4 (by decide)) (by decide) (fun now size => ⟨now + 1, rfl⟩)
      (by decide : (4 : UInt32) ≠ 0) (by decide) smallState (by decide)).2.1
  exact ⟨erased 3 (by decide), erased 4 (by decide), erased 19 (by decide), erased 20 (by decide)⟩

/-- With pages of two bytes the second page is refused, although nothing else fails, and what is left of the first block is
not brought back. -/
theorem qspiBdevErase_twoBytePages : Geometry (smallChip 2).chipInfo ∧
    (∀ e ∈ (qspiBdevErase smallEnv (some ⟨some (smallChip 2)⟩) 1 4 smallState).events, e.op.isCheck = false → e.ok = true) ∧
    (qspiBdevErase smallEnv (some ⟨some (smallChip 2)⟩) 1 4 smallState).result = .error (.badAddress 18) ∧
    (qspiBdevErase smallEnv (some ⟨some (smallChip 2)⟩) 1 4 smallState).state.flash 2 = 0xFF ∧ smallState.flash 2 = 2 :=
  ⟨smallChip_geometry 2 (by decide), by decide⟩

/-- What success stands for: each command was given and succeeded, and the chip was ready after it, before the next. -/
def Fulfils (needed : List Command) (run : Run State Error Event Unit) : Prop :=
  run.result = .ok () → List.Sublist (expected needed) (run.events.flatMap told)

instance (needed : List Command) (run : Run State Error Event Unit) : Decidable (Fulfils needed run) :=
  inferInstanceAs (Decidable (_ → _))

def Passed (events : List Event) : Prop := (∃ e ∈ events, e.bad) ∨ ∀ e ∈ events, ¬ e.lost

theorem allows_kept : Allows fun e => ¬ e.bad ∧ ¬ e.lost := by
  intro stage op kept
  cases seen : reported stage op with
  | true => exact absurd ⟨seen, rfl⟩ kept.1
  | false =>
    cases drop : dropped stage op with
    | true => exact absurd ⟨drop, rfl⟩ kept.2
    | false => exact .inr ⟨rfl, rfl⟩

theorem countP_done (events : List Event) : events.countP Event.done = (events.flatMap told).countP Prod.snd := by
  induction events with
  | nil => rfl
  | cons e events ih =>
    have one : ∀ e : Event, (if e.done then 1 else 0) = (told e).countP Prod.snd := by
      rintro ⟨stage, op, ok⟩
      cases op <;> cases ok <;> rfl
    rw [List.countP_cons, List.flatMap_cons, List.countP_append, ih, one, Nat.add_comm]

theorem countP_expected (cs : List Command) : (expected cs).countP Prod.snd = 2 * cs.length := by
  induction cs with
  | nil => rfl
  | cons c cs ih =>
    rw [expected_cons, List.countP_append, List.countP_append, ih, List.length_cons]
    change 1 + (1 + 2 * cs.length) = _
    omega

theorem fulfils_iff {x : Driver Unit} {needed : List Command} {P : State → Prop} {Q : Unit → State → Prop} {s : State}
    (honest : Act.Honest Event.bad x) (counts : DoesAtMost (2 * needed.length) x)
    (leads : Act.Leads (fun e => ¬ e.bad ∧ ¬ e.lost) told P x Q (expected needed)) (before : P s) :
    Fulfils needed (x s) ↔ Passed (x s).events := by
  constructor
  · intro fulfils
    by_cases bad : ∃ e ∈ (x s).events, e.bad
    · exact .inl bad
    · refine .inr fun e member lost => ?_
      obtain ⟨⟨⟩, done⟩ := (honest s).mpr fun e member isBad => bad ⟨e, member, isBad⟩
      have all : (expected needed).countP Prod.snd ≤ ((x s).events.flatMap told).countP Prod.snd := (fulfils done).countP_le
      have less := (counts s).2 ⟨e, member, lost⟩
      rw [countP_expected, ← countP_done] at all
      omega
  · intro passed done
    have fine := (honest s).mp ⟨(), done⟩
    have kept : ∀ e ∈ (x s).events, ¬ e.lost := passed.resolve_left fun ⟨e, member, bad⟩ => fine e member bad
    obtain ⟨_, _, _, shown⟩ := leads s before fun e member => ⟨fine e member, kept e member⟩
    rw [shown]

/-- Both functions return success without all that it stands for exactly where something is lost and nothing is reported. -/
theorem qspiBdev_fulfils_iff {env : Env} {d : DriverInfo} (geometry : Geometry d.chipInfo) {block count : UInt32}
    (inside : block.toNat + count.toNat ≤ d.chipInfo.blockCount.toNat) (buf : Buffer) (s : State) :
    (Fulfils (neededErase d block.toNat count.toNat) (qspiBdevErase env (some ⟨some d⟩) block count s) ↔
      Passed (qspiBdevErase env (some ⟨some d⟩) block count s).events) ∧
    (Fulfils (neededWrite d block.toNat count.toNat) (qspiBdevWriteBlock env (some ⟨some d⟩) buf block count s) ↔
      Passed (qspiBdevWriteBlock env (some ⟨some d⟩) buf block count s).events) := by
  have page := geometry.page_pos
  have bytes : (block.toNat + count.toNat) * d.chipInfo.blockSize ≤ d.chipInfo.flashSize := geometry.bytes_le inside
  have split := Nat.add_mul block.toNat count.toNat d.chipInfo.blockSize
  have written : DoesAtMost (2 * (neededWrite d block.toNat count.toNat).length)
      (qspiBdevWriteBlock env (some ⟨some d⟩) buf block count) := by
    rw [neededWrite, ← geometry.toNat_bytes count (by omega)]
    exact counts_qspiBdevWriteBlock page _
  constructor
  · have leads := leads_qspiBdevErase s.flash env allows_kept geometry (fun kept => absurd ⟨rfl, rfl⟩ kept.1)
      (fun kept => kept.elim (fun kept => absurd ⟨rfl, rfl⟩ kept.1) fun kept => absurd ⟨rfl, rfl⟩ kept.1) inside
    exact fulfils_iff (honest_qspiBdevErase page) (counts_qspiBdevErase geometry inside) leads rfl
  · have leads := leads_qspiBdevWriteBlock s.flash env allows_kept geometry buf block (fun kept => absurd ⟨rfl, rfl⟩ kept.1)
      (fun kept => absurd ⟨rfl, rfl⟩ kept.1) bytes
    exact fulfils_iff (honest_qspiBdevWriteBlock page) written leads rfl

theorem qspiBdev_fulfils_small :
    Fulfils (neededErase (smallChip 4) 1 4) (qspiBdevErase smallEnv (some ⟨some (smallChip 4)⟩) 1 4 smallState) ∧
      Fulfils (neededWrite (smallChip 4) 1 4)
        (qspiBdevWriteBlock smallEnv (some ⟨some (smallChip 4)⟩) ⟨64, fun _ => 0⟩ 1 4 smallState) :=
  have both := @qspiBdev_fulfils_iff smallEnv (smallChip 4) (smallChip_geometry 4 (by decide)) 1 4 (by decide)
    ⟨64, fun _ => 0⟩ smallState
  ⟨both.1.mpr (.inr (by decide)), both.2.mpr (.inr (by decide))⟩

def deafEnv : Env :=
  { smallEnv with answer := fun now t => { smallEnv.answer now t with ok := match t with | .command _ => false | _ => true } }

/-- Nothing is erased and nothing is written, and both are a success. -/
theorem qspiBdev_deaf : (qspiBdevErase deafEnv (some ⟨some (smallChip 4)⟩) 2 2 smallState).result = .ok () ∧
    ¬ Fulfils (neededErase (smallChip 4) 2 2) (qspiBdevErase deafEnv (some ⟨some (smallChip 4)⟩) 2 2 smallState) ∧
    (qspiBdevWriteBlock deafEnv (some ⟨some (smallChip 4)⟩) ⟨64, fun _ => 0⟩ 1 1 smallState).result = .ok () ∧
    ¬ Fulfils (neededWrite (smallChip 4) 1 1)
      (qspiBdevWriteBlock deafEnv (some ⟨some (smallChip 4)⟩) ⟨64, fun _ => 0⟩ 1 1 smallState) := by
  decide

end Cboot.Qspi
