import Cboot.Qspi.Plan

/-!
Each function of the driver is taken once: when it fails, which commands it gives and what they leave in the flash, and how
much of this is done where a failure is passed over.
-/

namespace Cboot.Qspi
open Lib

/-- Where a failure is returned by `qspi_bdev_erase` or `qspi_bdev_write_block`. -/
def reported (stage : Stage) : Op → Bool
  | .settle => false
  | .command _ => stage = .bulkErase
  | .ready _ => stage = .bulkErase
  | _ => stage ≠ .parameterErase

/-- Where a failure is passed over although something needed is not done then: commands and the waits behind them, and what
comes between the parameter sectors. -/
def dropped (stage : Stage) : Op → Bool
  | .command _ => stage ≠ .bulkErase
  | .ready _ => stage ≠ .bulkErase
  | .mode set => stage = .parameterErase ∧ ¬ set
  | .writeEnable => stage = .parameterErase
  | .writeDisable left => stage = .parameterErase ∧ 0 < left
  | _ => false

/-- What the driver finds out without the chip and the heap. -/
def Op.isCheck : Op → Bool
  | .argument => true
  | .assertion => true
  | .alignment => true
  | _ => false

def told (e : Event) : List (Op × Bool) :=
  match e.op with
  | .command _ => [(e.op, e.ok)]
  | .ready _ => [(e.op, e.ok)]
  | _ => []

def expected (cs : List Command) : List (Op × Bool) := cs.flatMap fun c => [(.command c, true), (.ready c, true)]

theorem expected_append (cs cs' : List Command) : expected (cs ++ cs') = expected cs ++ expected cs' := List.flatMap_append

theorem expected_cons (c : Command) (cs : List Command) :
    expected (c :: cs) = [(.command c, true)] ++ ([(.ready c, true)] ++ expected cs) := rfl

theorem expected_single (c : Command) : expected [c] = [(.command c, true)] ++ ([(.ready c, true)] ++ []) := rfl

def Reads (flash : Nat → UInt8) (s : State) : Prop := s.flash = flash

def Allows (good : Event → Prop) : Prop :=
  ∀ stage op, good ⟨stage, op, false⟩ → op.isCheck = true ∨ reported stage op = false ∧ dropped stage op = false

section
variable {good : Event → Prop} {stage : Stage} {op : Op} {flash : Nat → UInt8}

theorem Allows.strict (allows : Allows good) (watched : (!op.isCheck && (reported stage op || dropped stage op)) = true) :
    ¬ good ⟨stage, op, false⟩ := by
  intro fine
  rcases allows stage op fine with check | ⟨unreported, kept⟩
  · rw [check] at watched
    cases watched
  · rw [unreported, kept, Bool.or_false, Bool.and_false] at watched
    cases watched

theorem leads_ask {α : Type} {f : State → Except Error α × State} {P : State → Prop} {Q : α → State → Prop}
    (strict : ¬ good ⟨stage, op, false⟩) (each : ∀ s a, P s → (f s).1 = .ok a → Q a (f s).2) :
    Act.Leads good told P (ask stage op f) Q (told ⟨stage, op, true⟩) := by
  refine Act.leads_step fun s before fine => ?_
  cases result : (f s).1 with
  | error e =>
    rw [result] at fine
    exact absurd fine strict
  | ok a => exact ⟨a, rfl, each s a before result, rfl⟩

theorem leads_require_given {error : Error} {condition : Prop} [Decidable condition]
    (holds : good ⟨stage, op, false⟩ → condition) (silent : told ⟨stage, op, true⟩ = []) :
    Act.Leads good told (Reads flash) (require stage op error condition) (fun _ s => Reads flash s ∧ condition) [] := by
  rw [require, ask]
  refine Act.leads_step fun s before fine => ?_
  by_cases met : condition
  · rw [if_pos met]
    exact ⟨(), rfl, ⟨before, met⟩, silent⟩
  · rw [if_neg met] at fine
    exact absurd (holds fine) met

theorem leads_require {error : Error} {condition : Prop} [Decidable condition]
    (holds : good ⟨stage, op, false⟩ → condition) (silent : told ⟨stage, op, true⟩ = []) :
    Act.Leads good told (Reads flash) (require stage op error condition) (fun _ => Reads flash) [] :=
  (leads_require_given holds silent).mono (fun _ before => before) fun _ _ after => after.1

theorem leads_probe {p : Probe Unit} (strict : ¬ good ⟨stage, op, false⟩) :
    Act.Leads good told (Reads flash) (probe stage op p) (fun _ => Reads flash) (told ⟨stage, op, true⟩) :=
  leads_ask strict fun _ _ before _ => before

theorem leads_attempt_probe {p : Probe Unit} (silent : ∀ ok, told ⟨stage, op, ok⟩ = []) :
    Act.Leads good told (Reads flash) (probe stage op p).attempt (fun _ => Reads flash) [] := by
  intro s before _
  refine ⟨_, rfl, before, ?_⟩
  change [_].flatMap told = []
  rw [List.flatMap_singleton, silent]

section
variable {env : Env} {d : DriverInfo}

theorem leads_command {c : Command} {data : Nat → UInt8} (strict : ¬ good ⟨stage, .command c, false⟩) :
    Act.Leads good told (Reads flash) (command env d stage c data) (fun _ => Reads (c.apply d.chipInfo data flash))
      [(.command c, true)] := by
  refine leads_ask strict fun s a before done => ?_
  cases ok : (env.answer s.now (.command c)).ok with
  | true => exact congrArg (c.apply d.chipInfo data) before
  | false =>
    simp only [ok] at done
    cases done

theorem leads_waitReady {c : Command} (strict : ¬ good ⟨stage, .ready c, false⟩) :
    Act.Leads good told (Reads flash) (waitReady env stage c) (fun _ => Reads flash) [(.ready c, true)] := leads_probe strict

variable {bset : Bool}

theorem leads_qspiQuadFlagSet (strict : ¬ good ⟨stage, .mode bset, false⟩) :
    Act.Leads good told (Reads flash) (qspiQuadFlagSet env d stage bset) (fun _ => Reads flash) [] := by
  rw [qspiQuadFlagSet]
  split
  · exact leads_probe strict
  · exact Act.leads_pure fun _ before => before

theorem leads_attempt_qspiQuadFlagSet :
    Act.Leads good told (Reads flash) (qspiQuadFlagSet env d stage bset).attempt (fun _ => Reads flash) [] := by
  rw [qspiQuadFlagSet]
  split
  · exact leads_attempt_probe fun _ => rfl
  · exact (Act.leads_pure (Q := fun _ => Reads flash) fun _ before => before).attempt.mono (fun _ before => before)
      fun _ _ ⟨_, _, after⟩ => after

/-! #### Erasing -/

def applied (chip : ChipInfo) (cs : List Command) (flash : Nat → UInt8) : Nat → UInt8 :=
  cs.foldl (fun flash c => c.apply chip (fun _ => 0) flash) flash

variable (allows : Allows good) (geometry : Geometry d.chipInfo)
include allows geometry

variable (stage env) in
theorem leads_eraseLoop (erase : Nat → Command) {sizeLog2 : UInt32} (which : stage = .parameterErase ∨ stage = .sectorErase)
    (small : sizeLog2.toNat < 32) : ∀ (n : Nat) (address : UInt32) (flash : Nat → UInt8),
    address.toNat + n * 2 ^ sizeLog2.toNat ≤ d.chipInfo.flashSize →
    Act.Leads good told (Reads flash) (eraseLoop env d stage erase sizeLog2 n address).attempt
      (fun r s => Reads (applied d.chipInfo (erases erase (2 ^ sizeLog2.toNat) n address.toNat) flash) s ∧
        (stage ≠ .parameterErase → ∃ u, r = .ok u)) (expected (erases erase (2 ^ sizeLog2.toNat) n address.toNat)) := by
  have watched : ∀ op : Op, (!op.isCheck && (reported stage op || dropped stage op)) = true → ¬ good ⟨stage, op, false⟩ :=
    fun op watched => allows.strict watched
  intro n
  induction n with
  | zero =>
    intro address flash _
    exact (Act.leads_pure (Q := fun _ => Reads flash) fun _ before => before).attempt.mono (fun _ before => before)
      fun r s ⟨u, ok, after⟩ => ⟨after, fun _ => ⟨u, ok⟩⟩
  | succ n ih =>
    intro address flash inside
    have size : 0 < 2 ^ sizeLog2.toNat := Nat.two_pow_pos _
    have most := geometry.flashSize_le
    rw [Nat.succ_mul] at inside
    have sent : sentAddress d address = address.toNat := sentAddress_eq geometry (by omega)
    have next : (address + ((1 : UInt64) <<< sizeLog2.toUInt64).toUInt32).toNat = address.toNat + 2 ^ sizeLog2.toNat := by
      rw [UInt32.toNat_add, toNat_bit32 small]
      omega
    have shown : expected (erases erase (2 ^ sizeLog2.toNat) (n + 1) address.toNat) =
        told ⟨stage, .writeEnable, true⟩ ++ ([(.command (erase address.toNat), true)] ++
          (told ⟨stage, .ready (erase address.toNat), true⟩ ++ (told ⟨stage, .writeDisable n, true⟩ ++
            expected (erases erase (2 ^ sizeLog2.toNat) n (address.toNat + 2 ^ sizeLog2.toNat))))) := by
      rw [erases_succ, expected_cons]
      rfl
    have left : applied d.chipInfo (erases erase (2 ^ sizeLog2.toNat) (n + 1) address.toNat) flash =
        applied d.chipInfo (erases erase (2 ^ sizeLog2.toNat) n (address.toNat + 2 ^ sizeLog2.toNat))
          ((erase address.toNat).apply d.chipInfo (fun _ => 0) flash) := by
      rw [erases_succ]
      rfl
    rw [shown, left, eraseLoop, sent]
    have enable : ¬ good ⟨stage, .writeEnable, false⟩ := watched _ (by rcases which with rfl | rfl <;> rfl)
    have runs : ¬ good ⟨stage, .command (erase address.toNat), false⟩ := watched _ (by rcases which with rfl | rfl <;> rfl)
    have waits : ¬ good ⟨stage, .ready (erase address.toNat), false⟩ := watched _ (by rcases which with rfl | rfl <;> rfl)
    refine Act.Leads.attempt_bind (leads_probe enable) fun _ => ?_
    refine Act.Leads.attempt_recover (leads_command runs) fun _ => ?_
    refine Act.Leads.attempt_recover (leads_waitReady waits) fun _ => ?_
    by_cases fine : good ⟨stage, .writeDisable n, false⟩
    · -- The last of the parameter sectors.
      obtain ⟨parameter, none_⟩ : stage = .parameterErase ∧ n = 0 := by
        rcases allows _ _ fine with check | ⟨unreported, kept⟩
        · cases check
        · have parameter : stage = .parameterErase := by simpa [reported] using unreported
          exact ⟨parameter, by simpa [dropped, parameter] using kept⟩
      subst none_
      rw [eraseLoop, Act.bind_unit]
      exact (leads_attempt_probe fun _ => rfl).mono (fun _ before => before)
        fun r s after => ⟨after, fun other => absurd parameter other⟩
    · refine Act.Leads.attempt_bind (leads_probe fine) fun _ => ?_
      rw [← next]
      exact ih _ _ (by rw [next]; omega)

variable (flash env) in
theorem leads_sectorErase (start num : UInt32) (some : num ≠ 0)
    (inside : (start.toNat + num.toNat) * d.chipInfo.sectorSize ≤ d.chipInfo.flashSize) :
    Act.Leads good told (Reads flash) (tegrablQspiFlashSectorErase env d start num) (fun _ => Reads (applied d.chipInfo
        (erases .sectorErase d.chipInfo.sectorSize num.toNat (start.toNat * d.chipInfo.sectorSize)) flash))
      (expected (erases .sectorErase d.chipInfo.sectorSize num.toNat (start.toNat * d.chipInfo.sectorSize))) := by
  have small : d.chipInfo.sectorSizeLog2.toNat < 32 := by
    have := geometry.flash
    have := geometry.sector
    omega
  have most := geometry.flashSize_le
  have split := Nat.add_mul start.toNat num.toNat d.chipInfo.sectorSize
  have few : start.toNat + num.toNat ≤ d.chipInfo.sectorCount.toNat :=
    Nat.le_of_mul_le_mul_right (geometry.sectors_mul ▸ inside) d.chipInfo.sectorSize_pos
  have range : start + num ≤ d.chipInfo.sectorCount := by
    rw [UInt32.le_iff_toNat_le, UInt32.toNat_add]
    exact Nat.le_trans (Nat.mod_le _ _) few
  have address : (start <<< d.chipInfo.sectorSizeLog2).toNat = start.toNat * d.chipInfo.sectorSize :=
    toNat_shl small (by change _ * d.chipInfo.sectorSize < _; omega)
  have loop := leads_eraseLoop .sectorErase env allows geometry .sectorErase (.inr rfl) small
    num.toNat (start <<< d.chipInfo.sectorSizeLog2) flash (by rw [address]; change _ + _ * d.chipInfo.sectorSize ≤ _; omega)
  rw [address] at loop
  have erased := Act.Leads.of_attempt
    (loop.mono (fun _ before => before) fun r s ⟨after, ok⟩ => (ok nofun).imp fun _ ok => ⟨ok, after⟩)
  refine Act.Leads.behind (leads_require (fun _ => some) rfl) fun _ => ?_
  refine Act.Leads.behind (leads_require (fun _ => range) rfl) fun _ => ?_
  refine Act.Leads.behind (leads_qspiQuadFlagSet (allows.strict (by rfl))) fun _ => ?_
  exact Act.Leads.before erased fun _ => leads_qspiQuadFlagSet (allows.strict (by rfl))

theorem leads_parameterErase :
    Act.Leads good told (Reads flash) (tegrablQspiFlashParameterSectorErase env d 0 8 false).attempt
      (fun _ => Reads (applied d.chipInfo (parametersNeeded d.chipInfo 0) flash))
      (expected (parametersNeeded d.chipInfo 0)) := by
  have none_ : (0 : UInt32) ≤ d.chipInfo.parameterSectorCount := UInt32.le_iff_toNat_le.mpr (Nat.zero_le _)
  refine Act.Leads.attempt_behind (leads_require (fun _ => none_) rfl) fun _ => ?_
  by_cases eight : 8 ≤ d.chipInfo.parameterSectorCount.toNat
  · have met := eight_iff.mpr eight
    have fits := geometry.parameters eight
    have sector := geometry.sectorSize_le
    have most : d.chipInfo.sectorSize ≤ d.chipInfo.flashSize := Nat.pow_le_pow_right (by decide) geometry.sector
    have small : d.chipInfo.parameterSectorSizeLog2.toNat < 32 := by
      refine (Nat.pow_lt_pow_iff_right (a := 2) (by decide)).mp ?_
      change d.chipInfo.parameterSize < _
      omega
    rw [parametersNeeded_eight eight]
    refine Act.Leads.attempt_behind (leads_require (fun _ => met) rfl) fun _ => ?_
    refine Act.Leads.attempt_behind (leads_require (fun _ => met.2) rfl) fun _ => ?_
    refine Act.Leads.attempt_behind (leads_qspiQuadFlagSet (allows.strict (by rfl))) fun _ => ?_
    refine Act.Leads.attempt_first ?_ fun _ => leads_attempt_qspiQuadFlagSet
    have start : ((0 : UInt32) <<< d.chipInfo.parameterSectorSizeLog2).toNat = 0 := by
      rw [toNat_shl small (by rw [show (0 : UInt32).toNat = 0 from rfl, Nat.zero_mul]; decide)]
      exact Nat.zero_mul _
    have loop := leads_eraseLoop .parameterErase env allows geometry .parameterErase (.inl rfl)
      small 8 (0 <<< d.chipInfo.parameterSectorSizeLog2) flash
      (by rw [start]; change 0 + 8 * d.chipInfo.parameterSize ≤ _; omega)
    rw [start] at loop
    exact loop.mono (fun _ before => before) fun _ _ after => after.1
  · rw [parametersNeeded_few eight]
    exact Act.leads_attempt_stop (fun s before => ⟨.invalid 3, if_neg (mt eight_iff.mp eight), before⟩) fun s _ => rfl

omit geometry in
theorem leads_bulkErase : Act.Leads good told (Reads flash) (tegrablQspiFlashBulkErase env d)
    (fun _ => Reads fun _ => 0xFF) (expected [.bulkErase]) := by
  refine Act.Leads.behind (leads_probe (allows.strict rfl)) fun _ => ?_
  have all : Command.bulkErase.apply d.chipInfo (fun _ => 0) flash = fun _ => 0xFF := funext fun _ => rfl
  rw [← all, expected_single]
  exact Act.Leads.bind (leads_command (allows.strict rfl)) fun _ => leads_waitReady (allows.strict rfl)

variable (flash env) in
theorem leads_parameters (first : UInt32) : Act.Leads good told (Reads flash)
      (if first = 0 then tegrablQspiFlashParameterSectorErase env d 0 8 false else pure ()).attempt
      (fun _ => Reads (applied d.chipInfo (parametersNeeded d.chipInfo first.toNat) flash))
      (expected (parametersNeeded d.chipInfo first.toNat)) := by
  split
  · rename_i zero
    rw [zero]
    exact leads_parameterErase allows geometry
  · rename_i other
    have none_ : parametersNeeded d.chipInfo first.toNat = [] := if_neg fun both => other (UInt32.toNat_inj.mp both.1)
    rw [none_]
    exact (Act.leads_pure (Q := fun _ => Reads flash) fun _ before => before).attempt.mono (fun _ before => before)
      fun _ _ ⟨_, _, after⟩ => after

/-! #### Writing -/

omit allows geometry in
theorem program_nil (address : Nat) (data : Nat → UInt8) :
    (Command.program address 0).apply d.chipInfo data flash = flash := by
  funext x
  exact if_neg (by omega)

omit allows geometry in
theorem program_split {address page length : Nat} (more : page ≤ length) (data : Nat → UInt8) :
    (Command.program (address + page) (length - page)).apply d.chipInfo (fun i => data (page + i))
      ((Command.program address page).apply d.chipInfo data flash) =
      (Command.program address length).apply d.chipInfo data flash := by
  funext x
  simp only [Command.apply]
  by_cases first : address ≤ x ∧ x < address + page
  · rw [if_neg (by omega), if_pos first, if_pos (by omega)]
  · rw [if_neg first]
    by_cases behind : address + page ≤ x ∧ x < address + page + (length - page)
    · rw [if_pos behind, if_pos (by omega), show page + (x - (address + page)) = x - address by omega]
    · rw [if_neg behind, if_neg (by omega)]

omit geometry in
theorem leads_qspiQpiFlagSet :
    Act.Leads good told (Reads flash) (qspiQpiFlagSet env d bset) (fun _ => Reads flash) [] := by
  have same : Act.Leads good told (Reads flash) (pure () : Driver Unit) (fun _ => Reads flash) [] :=
    Act.leads_pure fun _ before => before
  rw [qspiQpiFlagSet]
  split
  · exact same
  · refine Act.Leads.choose same ?_
    refine Act.Leads.behind (leads_ask (Q := fun _ => Reads flash) (allows.strict (by rfl)) ?_) fun _ => ?_
    · intro s a before _
      split
      · exact before
      · exact before
    · exact Act.Leads.behind (leads_attempt_probe fun _ => rfl) fun _ => same

variable (env) in
theorem leads_writeLoop {buf : Buffer}
    (even : good ⟨.write, .alignment, false⟩ → buf.address % 4 = 0 ∧ d.chipInfo.pageWriteSize.toNat % 4 = 0) :
    ∀ (fuel : Nat) (bytes address : UInt32) (offset : Nat) (flash : Nat → UInt8),
    bytes.toNat ≤ fuel → address.toNat + bytes.toNat ≤ d.chipInfo.flashSize →
    (d.chipInfo.pageWriteSize.toNat % 4 = 0 → offset % 4 = 0) →
    Act.Leads good told (Reads flash) (writeLoop env d buf fuel bytes address offset)
      (fun _ => Reads ((Command.program address.toNat bytes.toNat).apply d.chipInfo (fun i => buf.data (offset + i)) flash))
      (expected (programs d.chipInfo.pageWriteSize.toNat address.toNat bytes.toNat)) := by
  have page := geometry.page_pos
  have most := geometry.flashSize_le
  have none_ : ∀ (fuel : Nat) (address : UInt32) (offset : Nat) (flash : Nat → UInt8),
      Act.Leads good told (Reads flash) (writeLoop env d buf fuel 0 address offset) (fun _ => Reads flash) [] := by
    intro fuel address offset flash
    cases fuel with
    | zero => exact Act.leads_pure fun _ before => before
    | succ fuel => exact Act.leads_pure fun _ before => before
  intro fuel
  induction fuel with
  | zero =>
    intro bytes address offset flash few inside _
    have zero : bytes = 0 := UInt32.toNat_inj.mp (by rw [Nat.le_zero.mp few]; rfl)
    rw [zero, show (0 : UInt32).toNat = 0 from rfl, programs_nil page, program_nil]
    exact none_ _ _ _ _
  | succ fuel ih =>
    intro bytes address offset flash few inside whole
    by_cases zero : bytes = 0
    · rw [zero, show (0 : UInt32).toNat = 0 from rfl, programs_nil page, program_nil]
      exact none_ _ _ _ _
    · have some : 0 < bytes.toNat := toNat_pos zero
      have sent : sentAddress d address = address.toNat := sentAddress_eq geometry (by omega)
      rw [writeLoop, if_neg zero, sent]
      refine Act.Leads.behind (leads_probe (allows.strict rfl)) fun _ => ?_
      refine Act.Leads.behind (leads_require (fun fine => ?_) rfl) fun _ => ?_
      · obtain ⟨start, pages⟩ := even fine
        have := whole pages
        omega
      by_cases more : bytes > d.chipInfo.pageWriteSize
      · have less : d.chipInfo.pageWriteSize.toNat < bytes.toNat := UInt32.lt_iff_toNat_lt.mp more
        have length : min bytes d.chipInfo.pageWriteSize = d.chipInfo.pageWriteSize := if_neg (UInt32.not_le.mpr more)
        have left : (bytes - d.chipInfo.pageWriteSize).toNat = bytes.toNat - d.chipInfo.pageWriteSize.toNat :=
          UInt32.toNat_sub_of_le _ _ (UInt32.le_iff_toNat_le.mpr (Nat.le_of_lt less))
        have next : (address + d.chipInfo.pageWriteSize).toNat = address.toNat + d.chipInfo.pageWriteSize.toNat := by
          rw [UInt32.toNat_add]
          omega
        rw [programs_cons page less, expected_cons, ← program_split (Nat.le_of_lt less), length]
        refine Act.Leads.recover (leads_command (allows.strict rfl)) fun _ => ?_
        refine Act.Leads.recover (leads_waitReady (allows.strict rfl)) fun _ => ?_
        have rest := ih (bytes - d.chipInfo.pageWriteSize) (address + d.chipInfo.pageWriteSize)
          (offset + d.chipInfo.pageWriteSize.toNat)
          ((Command.program address.toNat d.chipInfo.pageWriteSize.toNat).apply d.chipInfo (fun i => buf.data (offset + i)) flash)
          (by omega) (by omega) (fun pages => by have := whole pages; omega)
        rw [left, next] at rest
        simp only [more, if_true, Nat.add_assoc] at rest ⊢
        exact rest
      · have less : bytes.toNat ≤ d.chipInfo.pageWriteSize.toNat := UInt32.le_iff_toNat_le.mp (UInt32.not_lt.mp more)
        have length : min bytes d.chipInfo.pageWriteSize = bytes := if_pos (UInt32.not_lt.mp more)
        rw [programs_last some less, expected_single, length]
        refine Act.Leads.recover (leads_command (allows.strict rfl)) fun _ => ?_
        refine Act.Leads.recover (leads_waitReady (allows.strict rfl)) fun _ => ?_
        simp only [more, if_false]
        exact none_ _ _ _ _

variable (flash env) in
theorem leads_qspiBdevWriteBlock (buf : Buffer) (start : UInt32) {num : UInt32}
    (argument : good ⟨.write, .argument, false⟩ → buf.address ≠ 0 ∧ num ≠ 0)
    (even : good ⟨.write, .alignment, false⟩ → buf.address % 4 = 0 ∧ d.chipInfo.pageWriteSize.toNat % 4 = 0)
    (inside : (start.toNat + num.toNat) * d.chipInfo.blockSize ≤ d.chipInfo.flashSize) :
    Act.Leads good told (Reads flash) (qspiBdevWriteBlock env (some ⟨some d⟩) buf start num)
      (fun _ => Reads ((Command.program (start.toNat * d.chipInfo.blockSize) (num.toNat * d.chipInfo.blockSize)).apply
        d.chipInfo buf.data flash))
      (expected (programs d.chipInfo.pageWriteSize.toNat (start.toNat * d.chipInfo.blockSize)
        (num.toNat * d.chipInfo.blockSize))) := by
  rw [Nat.add_mul] at inside
  have address := geometry.toNat_bytes start (by omega)
  have bytes := geometry.toNat_bytes num (by omega)
  have loop := leads_writeLoop env allows geometry even (num <<< d.chipInfo.blockSizeLog2).toNat
    (num <<< d.chipInfo.blockSizeLog2) (start <<< d.chipInfo.blockSizeLog2) 0 flash (Nat.le_refl _) (by omega) (fun _ => rfl)
  simp only [address, bytes, Nat.zero_add] at loop
  refine Act.Leads.behind (leads_require (fun fine => (argument fine).1) rfl) fun _ => ?_
  refine Act.Leads.behind (leads_require (fun fine => (argument fine).2) rfl) fun _ => ?_
  refine Act.Leads.behind (leads_qspiQpiFlagSet allows) fun _ => ?_
  refine Act.Leads.before ?_ fun _ => leads_qspiQpiFlagSet allows
  rw [bytes]
  exact loop

/-! #### Backups -/

variable (flash env) in
theorem leads_qspiBdevReadBlock {buf : Nat} {start num : UInt32} (isBuf : buf ≠ 0) (some_ : num ≠ 0)
    (even : good ⟨.read, .alignment, false⟩ → buf % 4 = 0)
    (inside : (start.toNat + num.toNat) * d.chipInfo.blockSize ≤ d.chipInfo.flashSize) :
    Act.Leads good told (Reads flash) (qspiBdevReadBlock env (some ⟨some d⟩) buf start num)
      (fun b s => Reads flash s ∧ b = ⟨buf, fun i => flash (start.toNat * d.chipInfo.blockSize + i)⟩) [] := by
  have positive : 0 < num.toNat * d.chipInfo.blockSize := Nat.mul_pos (toNat_pos some_) d.chipInfo.blockSize_pos
  rw [Nat.add_mul] at inside
  have address := geometry.toNat_bytes start (by omega)
  have sent : sentAddress d (start <<< d.chipInfo.blockSizeLog2) = start.toNat * d.chipInfo.blockSize := by
    rw [sentAddress_eq geometry (by omega), address]
  refine Act.Leads.behind (leads_require (fun _ => isBuf) rfl) fun _ => ?_
  refine Act.Leads.behind (leads_require (fun _ => some_) rfl) fun _ => ?_
  refine Act.Leads.behind (leads_require even rfl) fun _ => ?_
  rw [sent]
  refine leads_ask (allows.strict rfl) fun s b before done => ?_
  split at done
  · rename_i ok
    rw [if_pos ok]
    rw [Reads] at before
    exact ⟨before, by rw [← Except.ok.inj done, before]⟩
  · cases done

theorem leads_backUp {aux : Nat} {start count : UInt32} {address : Nat}
    (even : good ⟨.read, .alignment, false⟩ → ∀ now size, env.calloc now size % 4 = 0)
    (at_ : count ≠ 0 → start.toNat * d.chipInfo.blockSize = address)
    (inside : count ≠ 0 → address + count.toNat * d.chipInfo.blockSize ≤ d.chipInfo.flashSize) :
    Act.Leads good told (Reads flash) (backUp env (some ⟨some d⟩) d.chipInfo aux start count)
      (fun b s => Reads flash s ∧ (count ≠ 0 → b.address ≠ 0 ∧
        ((∀ now size, env.calloc now size % 4 = 0) → b.address % 4 = 0) ∧ b.data = fun i => flash (address + i))) [] := by
  rw [backUp]
  split
  · rename_i some_
    refine Act.Leads.behind (Q := fun b s => Reads flash s ∧ b ≠ 0 ∧ ((∀ now size, env.calloc now size % 4 = 0) → b % 4 = 0))
      (leads_ask (allows.strict rfl) fun s b before done => ?_) fun b => ?_
    · split at done
      · rename_i isBuf
        rw [← Except.ok.inj done]
        exact ⟨before, isBuf, fun all => all _ _⟩
      · cases done
    · refine Act.leads_given fun ⟨isBuf, evenBuf⟩ => ?_
      have read := leads_qspiBdevReadBlock flash env allows geometry isBuf some_
        (fun fine => evenBuf (even fine))
        (by rw [Nat.add_mul, at_ some_]; exact inside some_)
      refine read.mono (fun _ before => before) fun r s ⟨after, result⟩ => ⟨after, fun _ => ?_⟩
      rw [result, at_ some_]
      exact ⟨isBuf, evenBuf, rfl⟩
  · rename_i none_
    exact Act.leads_pure fun s before => ⟨before, fun some_ => absurd some_ none_⟩

theorem leads_restore {buf : Buffer} {start count : UInt32} {address length : Nat} {data : Nat → UInt8}
    (argument : count ≠ 0 → good ⟨.write, .argument, false⟩ → buf.address ≠ 0)
    (even : count ≠ 0 → good ⟨.write, .alignment, false⟩ → buf.address % 4 = 0 ∧ d.chipInfo.pageWriteSize.toNat % 4 = 0)
    (at_ : count ≠ 0 → start.toNat * d.chipInfo.blockSize = address) (bytes : count.toNat * d.chipInfo.blockSize = length)
    (read : count ≠ 0 → buf.data = data) (inside : address + length ≤ d.chipInfo.flashSize) :
    Act.Leads good told (Reads flash) (restore env (some ⟨some d⟩) buf start count)
      (fun _ => Reads ((Command.program address length).apply d.chipInfo data flash))
      (expected (programs d.chipInfo.pageWriteSize.toNat address length)) := by
  rw [restore]
  split
  · rename_i some_
    have write := leads_qspiBdevWriteBlock flash env allows geometry buf start
      (fun fine => ⟨argument some_ fine, some_⟩) (even some_) (by rw [Nat.add_mul, at_ some_, bytes]; exact inside)
    rw [at_ some_, bytes, read some_] at write
    exact write
  · rename_i none_
    have zero : length = 0 := by
      rw [← bytes, Classical.not_not.mp none_]
      exact Nat.zero_mul _
    rw [zero, program_nil, programs_nil geometry.page_pos]
    exact Act.leads_pure fun _ before => before

/-! #### The block device -/

omit allows geometry in
def leftBy (d : DriverInfo) (block count : Nat) (flash : Nat → UInt8) : Nat → UInt8 :=
  let chip := d.chipInfo
  let first := firstSector chip block
  let last := endSector chip block count
  if block = 0 ∧ count = chip.blockCount.toNat ∧ d.device.flag &&& flagBulk ≠ 0 then fun _ => 0xFF
  else
    let erased := applied chip (erases .sectorErase chip.sectorSize (last - first) (first * chip.sectorSize))
      (applied chip (parametersNeeded chip first) flash)
    let head := (Command.program (first * chip.sectorSize) (block * chip.blockSize - first * chip.sectorSize)).apply chip
      (fun i => flash (first * chip.sectorSize + i)) erased
    (Command.program ((block + count) * chip.blockSize)
      (last * chip.sectorSize - (block + count) * chip.blockSize)).apply chip
      (fun i => flash ((block + count) * chip.blockSize + i)) head

variable (flash env) in
theorem leads_qspiBdevErase {block count : UInt32} (argument : good ⟨.erase, .argument, false⟩ → count ≠ 0)
    (even : good ⟨.read, .alignment, false⟩ ∨ good ⟨.write, .alignment, false⟩ →
      (∀ now size, env.calloc now size % 4 = 0) ∧ d.chipInfo.pageWriteSize.toNat % 4 = 0)
    (inside : block.toNat + count.toNat ≤ d.chipInfo.blockCount.toNat) :
    Act.Leads good told (Reads flash) (qspiBdevErase env (some ⟨some d⟩) block count)
      (fun _ => Reads (leftBy d block.toNat count.toNat flash)) (expected (neededErase d block.toNat count.toNat)) := by
  have planned := geometry.planned inside
  have last := geometry.end_mul_le inside
  have first := @firstSector_mul_le d.chipInfo block.toNat
  have most := geometry.bytes_le inside
  have bytes : block.toNat * d.chipInfo.blockSize ≤ (block.toNat + count.toNat) * d.chipInfo.blockSize :=
    Nat.mul_le_mul_right _ (Nat.le_add_right _ _)
  have behind := @le_endSector_mul d.chipInfo block.toNat count.toNat
  refine Act.Leads.behind (leads_require_given argument rfl) fun _ => Act.leads_given fun some_ => ?_
  have ordered := @firstSector_lt_endSector d.chipInfo block.toNat count.toNat (toNat_pos some_)
  split
  · rename_i whole
    simp only [neededErase, leftBy, if_pos (whole_iff.mp whole)]
    exact leads_bulkErase allows
  · rename_i part
    simp only [neededErase, leftBy, if_neg (mt whole_iff.mpr part), expected_append, List.append_assoc]
    refine Act.Leads.behind (leads_backUp allows geometry (fun fine => (even (.inl fine)).1) planned.headStart
      (fun _ => by rw [planned.headCount]; omega)) fun head => Act.leads_given fun isHead => ?_
    refine Act.Leads.behind (leads_backUp allows geometry (fun fine => (even (.inl fine)).1)
      (fun some_ => by rw [planned.tailStart some_])
      (fun _ => by rw [planned.tailCount]; omega)) fun tail => Act.leads_given fun isTail => ?_
    have parameters := leads_parameters flash env allows geometry (planOf d.chipInfo block count).sectorNum
    rw [planned.sectorNum] at parameters
    refine Act.Leads.bind parameters fun _ => ?_
    have sectors := leads_sectorErase
      (applied d.chipInfo (parametersNeeded d.chipInfo (firstSector d.chipInfo block.toNat)) flash) env allows geometry
      (planOf d.chipInfo block count).sectorNum (planOf d.chipInfo block count).sectorCnt
      (fun no => by
        have none_ := planned.sectorCnt
        rw [no, show (0 : UInt32).toNat = 0 from rfl] at none_
        omega)
      (by rw [planned.sectorNum, planned.sectorCnt, Nat.add_sub_cancel' (Nat.le_of_lt ordered)]; exact last)
    rw [planned.sectorNum, planned.sectorCnt] at sectors
    refine Act.Leads.bind sectors fun _ => ?_
    refine Act.Leads.bind (leads_restore allows geometry (fun some_ _ => (isHead some_).1)
      (fun some_ fine => ⟨(isHead some_).2.1 (even (.inr fine)).1, (even (.inr fine)).2⟩) planned.headStart planned.headCount
      (fun some_ => (isHead some_).2.2) (by omega)) fun _ => ?_
    exact leads_restore allows geometry (fun some_ _ => (isTail some_).1)
      (fun some_ fine => ⟨(isTail some_).2.1 (even (.inr fine)).1, (even (.inr fine)).2⟩)
      (fun some_ => by rw [planned.tailStart some_]) planned.tailCount (fun some_ => (isTail some_).2.2) (by omega)

end

end

end Cboot.Qspi
