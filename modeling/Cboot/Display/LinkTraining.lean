import Cboot.Lib.Loop
import Mathlib.Tactic.IntervalCases

/-!
`perform_lt` of `drivers/display/dp/tegrabl_dp_lt.c` with the states of the link training.
-/

namespace Cboot.Display.LinkTraining
open Lib

def crRetryLimit : UInt32 := 5
def ceRetryLimit : UInt32 := 5
def driveCurrentL3 : UInt8 := 3

def linkConfigPriority : List (UInt8 × UInt8) :=
  [(20, 4), (10, 4), (6, 4), (20, 2), (10, 2), (6, 2), (20, 1), (10, 1), (6, 1)]

inductive LtState where
  | reset | fastLt | clockRecovery | channelEqualization | doneFail | donePass | reduceBitRate
deriving DecidableEq

inductive Ret where
  | noError | invalid | invalidState | notSupported | initFailed
deriving DecidableEq

structure LinkConfig where
  isValid : Bool
  maxLinkBw : UInt8
  maxLaneCount : UInt8
  linkBw : UInt8
  laneCount : UInt8

structure LtData where
  state : LtState
  pendingEvt : Bool
  ltConfigValid : Bool
  driveCurrent : Nat → UInt8
  nLanes : Nat
  crRetry : UInt32
  ceRetry : UInt32
  /-- The variable of `get_lt_new_config`, which is static. -/
  dataPtr : UInt8
  linkCfg : LinkConfig

/-- What reads of the lane status find, two lanes to a byte. There is nothing where a read fails. -/
structure Status where
  recovery : Nat → Option UInt8
  equalization : Nat → Option UInt8
  alignment : Option UInt8

/-- The answers to one pass: the sample of the loop and that of the handler, what the handler reads, and what is read once
the link has passed. -/
structure Answers where
  hpd : Bool
  handlerHpd : Bool
  status : Status
  request : Nat → Option UInt8
  cursor : Option UInt8
  check : Status

structure Host where
  pc2Supported : Bool
  calcConfig : LinkConfig → Bool

def loopcnt (nLanes : Nat) : Nat := if nLanes = 1 then 1 else nLanes / 2

def isSet (data shift : UInt8) : Bool := data &&& 1 <<< shift ≠ 0

def crDone (nLanes : Nat) (reads : Nat → Option UInt8) : List Nat → UInt8 → Bool
  | [], _ => true
  | cnt :: rest, old =>
    let data := (reads cnt).getD old
    if nLanes = 1 then isSet data 0
    else if ¬ isSet data 0 ∨ ¬ isSet data 4 then false
    else crDone nLanes reads rest data

def getClockRecoveryStatus (nLanes : Nat) (r : Status) : Bool :=
  crDone nLanes r.recovery (List.range (loopcnt nLanes)) 0

def ceDone (nLanes : Nat) (reads : Nat → Option UInt8) : List Nat → UInt8 → Option UInt8
  | [], old => some old
  | cnt :: rest, old =>
    let data := (reads cnt).getD old
    if nLanes = 1 then if isSet data 1 ∧ isSet data 2 then some data else none
    else if ¬ isSet data 1 ∨ ¬ isSet data 2 ∨ ¬ isSet data 5 ∨ ¬ isSet data 6 then none
    else ceDone nLanes reads rest data

/-- A read that fails leaves the byte of the lanes. -/
def getChannelEqStatus (nLanes : Nat) (r : Status) : Bool :=
  match ceDone nLanes r.equalization (List.range (loopcnt nLanes)) 0 with
  | none => false
  | some data => isSet (r.alignment.getD data) 0

def getLtStatus (nLanes : Nat) (r : Status) : Bool := getClockRecoveryStatus nLanes r && getChannelEqStatus nLanes r

def newConfig (request : Nat → Option UInt8) : List Nat → LtData → LtData
  | [], s => s
  | cnt :: rest, s =>
    let data := (request cnt).getD s.dataPtr
    newConfig request rest
      { s with
        dataPtr := data
        driveCurrent := fun i =>
          if i = 2 * cnt then data &&& 0x3 else if i = 1 + 2 * cnt then (data &&& 0x30) >>> 4 else s.driveCurrent i }

def getLtNewConfig (host : Host) (a : Answers) (s : LtData) : LtData :=
  let s := newConfig a.request (List.range (loopcnt s.nLanes)) s
  if host.pc2Supported then { s with dataPtr := a.cursor.getD s.dataPtr } else s

def ltDataSwReset (s : LtData) : LtData :=
  { s with
    ltConfigValid := false
    crRetry := 0
    ceRetry := 0
    nLanes := s.linkCfg.laneCount.toNat
    driveCurrent := fun _ => 0 }

def ltDataReset (s : LtData) : LtData := ltDataSwReset s
def ltFailed (s : LtData) : LtData := ltDataReset s
def ltPassed (s : LtData) : LtData := { s with ltConfigValid := true }

def setLtState (targetState : LtState) (s : LtData) : Ret × LtData :=
  (if targetState = .donePass then .noError
    else if targetState = .doneFail then .invalidState
    else if s.pendingEvt then .invalidState
    else .noError, { s with state := targetState })

def ltResetState (a : Answers) (s : LtData) : Ret × LtData :=
  if ¬ a.handlerHpd ∨ ¬ s.linkCfg.isValid then setLtState .doneFail (ltFailed s)
  else if s.ltConfigValid ∧ getLtStatus s.nLanes a.status then setLtState .donePass (ltPassed s)
  else setLtState .clockRecovery (ltDataReset s)

def priorityIndex (cfg : LinkConfig) : Nat :=
  linkConfigPriority.findIdx fun entry => entry.1 = cfg.linkBw ∧ entry.2 = cfg.laneCount

def linkConfigAt (i : Nat) : UInt8 × UInt8 := linkConfigPriority.getD i (0, 0)

def getNextLowerLinkConfig (cfg : LinkConfig) : Option Nat :=
  let i := priorityIndex cfg
  if i = linkConfigPriority.length - 1 then none
  else (List.range' (i + 1) (linkConfigPriority.length - (i + 1))).find? fun j =>
    (linkConfigAt j).1 ≤ cfg.maxLinkBw ∧ (linkConfigAt j).2 ≤ cfg.maxLaneCount

def ltReduceBitRateState (host : Host) (a : Answers) (s : LtData) : Ret × LtData :=
  if ¬ a.handlerHpd then setLtState .reset (ltFailed s)
  else
    let s := { s with linkCfg := { s.linkCfg with isValid := false } }
    match getNextLowerLinkConfig s.linkCfg with
    | none => setLtState .doneFail (ltFailed s)
    | some nextLinkIndex =>
      let tmpCfg :=
        { s.linkCfg with linkBw := (linkConfigAt nextLinkIndex).1, laneCount := (linkConfigAt nextLinkIndex).2 }
      if ¬ host.calcConfig tmpCfg then setLtState .doneFail (ltFailed s)
      else
        setLtState .clockRecovery
          { s with linkCfg := { tmpCfg with isValid := true }, nLanes := tmpCfg.laneCount.toNat }

def ltChannelEqualizationState (host : Host) (a : Answers) (s : LtData) : Ret × LtData :=
  if ¬ a.handlerHpd then setLtState .reset (ltFailed s)
  else if ¬ getClockRecoveryStatus s.nLanes a.status then setLtState .reduceBitRate (ltDataSwReset s)
  else if getChannelEqStatus s.nLanes a.status then setLtState .donePass (ltPassed s)
  else
    let s := { s with ceRetry := s.ceRetry + 1 }
    if s.ceRetry > ceRetryLimit + 1 then setLtState .reduceBitRate (ltDataSwReset s)
    else setLtState .channelEqualization (getLtNewConfig host a s)

def isVsAlreadyMax (nLanes : Nat) (oldVs newVs : Nat → UInt8) : Bool :=
  (List.range nLanes).all fun cnt => oldVs cnt = driveCurrentL3 ∧ newVs cnt = driveCurrentL3

/-- `memcmp` of the four voltage swings. -/
def SameVs (oldVs newVs : Nat → UInt8) : Prop := ∀ cnt < 4, oldVs cnt = newVs cnt

instance (oldVs newVs : Nat → UInt8) : Decidable (SameVs oldVs newVs) := inferInstanceAs (Decidable (∀ cnt < 4, _))

def ltClockRecoveryState (host : Host) (a : Answers) (s : LtData) : Ret × LtData :=
  if ¬ a.handlerHpd then setLtState .reset (ltFailed s)
  else if getClockRecoveryStatus s.nLanes a.status then setLtState .channelEqualization { s with crRetry := 0 }
  else
    let vsTemp := s.driveCurrent
    let s := getLtNewConfig host a s
    if SameVs vsTemp s.driveCurrent then
      if isVsAlreadyMax s.nLanes vsTemp s.driveCurrent then setLtState .reduceBitRate (ltDataSwReset s)
      else
        let crRetry := s.crRetry
        let s := { s with crRetry := crRetry + 1 }
        if crRetry ≥ crRetryLimit - 1 then setLtState .reduceBitRate (ltDataSwReset s)
        else setLtState .clockRecovery s
    else setLtState .clockRecovery { s with crRetry := 1 }

def stateMachineDispatch (host : Host) (a : Answers) (s : LtData) : Ret × LtData :=
  match s.state with
  | .reset => ltResetState a s
  | .fastLt => (.notSupported, s)
  | .clockRecovery => ltClockRecoveryState host a s
  | .channelEqualization => ltChannelEqualizationState host a s
  | .doneFail => (.invalid, s)
  | .donePass => (.invalid, s)
  | .reduceBitRate => ltReduceBitRateState host a s

structure Ended where
  ret : Ret
  nLanes : Nat
  last : Status

def finishPass (a : Answers) (r : Ret × LtData) : Pass LtData Ended :=
  let (ret, s) := r
  let (ret, done, s) : Ret × Bool × LtData :=
    match s.state with
    | .donePass =>
      if ¬ getLtStatus s.nLanes a.check then
        let (ret, s) := setLtState .reset s
        (ret, false, s)
      else (ret, true, s)
    | .doneFail => (.initFailed, false, s)
    | _ => (ret, false, s)
  if done ∨ ret ≠ .noError then .leave ⟨ret, s.nLanes, a.check⟩ else .next s

def ltPass (host : Host) (a : Answers) (s : LtData) : Pass LtData Ended :=
  let pendingLtEvt := s.pendingEvt
  let s := { s with pendingEvt := false }
  if ¬ a.hpd then .leave ⟨.initFailed, s.nLanes, a.check⟩
  else if pendingLtEvt then finishPass a (setLtState .reset s)
  else finishPass a (stateMachineDispatch host a s)

def performLt (host : Host) (sink : Nat → Answers) (p : Nat × LtData) : Pass (Nat × LtData) Ended :=
  match ltPass host (sink p.1) p.2 with
  | .next s => .next (p.1 + 1, s)
  | .leave ended => .leave ended

def tegrablDpLt (s : LtData) : Nat × LtData := (0, { s with pendingEvt := true })

/-- Each lane has its clock recovered and is equalized and locked, and the lanes are aligned, all as it was read. -/
structure Shows (nLanes : Nat) (r : Status) : Prop where
  recovered : ∀ lane < nLanes, ∃ data, r.recovery (lane / 2) = some data ∧ isSet data (UInt8.ofNat (4 * (lane % 2)))
  equalized : ∀ lane < nLanes, ∃ data, r.equalization (lane / 2) = some data ∧
    isSet data (UInt8.ofNat (4 * (lane % 2) + 1)) ∧ isSet data (UInt8.ofNat (4 * (lane % 2) + 2))
  aligned : ∃ data, r.alignment = some data ∧ isSet data 0

/-- Link training returns. It returns without an error only if what was read last shows that the lanes are done. -/
def Trains (host : Host) (sink : Nat → Answers) (s : LtData) : Prop :=
  ∃ ended, LoopReturns (performLt host sink) (tegrablDpLt s) ended ∧
    (ended.ret = .noError → Shows ended.nLanes ended.last)

def Passes (a : Answers) (s : LtData) : Prop :=
  s.pendingEvt = false ∧ a.hpd ∧ a.handlerHpd ∧ getLtStatus s.nLanes a.status ∧
    (s.state = .reset ∧ s.linkCfg.isValid ∧ s.ltConfigValid ∨ s.state = .channelEqualization)

/-- The sink changes its mind: it is unplugged behind the sample of the loop, it asks for another voltage swing, or it loses
the link that has just passed. -/
inductive GoesBack (host : Host) (a : Answers) (s : LtData) : Prop where
  | drop (unplugged : a.handlerHpd = false) (state : s.state ≠ .reset) : GoesBack host a s
  | swing (state : s.state = .clockRecovery) (undone : getClockRecoveryStatus s.nLanes a.status = false)
      (differs : ¬ SameVs s.driveCurrent (getLtNewConfig host a s).driveCurrent) : GoesBack host a s
  | lost (passes : Passes a s) (undone : getLtStatus s.nLanes a.check = false) : GoesBack host a s

structure Answered (nLanes : Nat) (r : Status) : Prop where
  recovery : ∀ lane < nLanes, (r.recovery (lane / 2)).isSome
  equalization : ∀ lane < nLanes, (r.equalization (lane / 2)).isSome
  alignment : r.alignment.isSome

/-- A read that failed is taken for what was read before it. -/
def Misread (a : Answers) (s : LtData) : Prop :=
  Passes a s ∧ getLtStatus s.nLanes a.check ∧ ¬ Answered s.nLanes a.check

/-- From some pass on the sink does not change its mind, and no read is missing where the link is taken to be done. -/
def Settled (host : Host) (sink : Nat → Answers) (s : LtData) : Prop :=
  (∃ n, ∀ p, Comes (performLt host sink) (tegrablDpLt s) p → n ≤ p.1 → ¬ GoesBack host (sink p.1) p.2) ∧
    ∀ p, Comes (performLt host sink) (tegrablDpLt s) p → ¬ Misread (sink p.1) p.2

def Lanes (n : Nat) : Prop := n = 1 ∨ n = 2 ∨ n = 4

/-- The configuration is one of the table. The lanes of a link that has been trained before are of it, too. -/
structure Ready (s : LtData) : Prop where
  listed : (s.linkCfg.linkBw, s.linkCfg.laneCount) ∈ linkConfigPriority
  lanes : s.ltConfigValid → Lanes s.nLanes

variable {host : Host} {sink : Nat → Answers} {a : Answers} {s t : LtData} {r : Status} {n : Nat}

theorem Shows.answered (shows_ : Shows n r) : Answered n r := by
  refine ⟨fun lane below => ?_, fun lane below => ?_, ?_⟩
  · obtain ⟨data, read, -⟩ := shows_.recovered lane below
    simp [read]
  · obtain ⟨data, read, -⟩ := shows_.equalized lane below
    simp [read]
  · obtain ⟨data, read, -⟩ := shows_.aligned
    simp [read]

variable {reads : Nat → Option UInt8}

theorem crDone_pairs (many : n ≠ 1) {cnts : List Nat} {old : UInt8}
    (answered : ∀ cnt ∈ cnts, (reads cnt).isSome) (done : crDone n reads cnts old) :
    ∀ cnt ∈ cnts, ∃ data, reads cnt = some data ∧ isSet data 0 ∧ isSet data 4 := by
  induction cnts generalizing old with
  | nil => simp
  | cons cnt rest ih =>
    obtain ⟨data, read⟩ := Option.isSome_iff_exists.mp (answered cnt List.mem_cons_self)
    simp [crDone, read, many] at done
    exact List.forall_mem_cons.mpr
      ⟨⟨data, read, done.1⟩, ih (fun c later => answered c (List.mem_cons_of_mem _ later)) done.2⟩

theorem ceDone_pairs (many : n ≠ 1) {cnts : List Nat} {old last : UInt8}
    (answered : ∀ cnt ∈ cnts, (reads cnt).isSome) (done : ceDone n reads cnts old = some last) :
    ∀ cnt ∈ cnts, ∃ data, reads cnt = some data ∧ isSet data 1 ∧ isSet data 2 ∧ isSet data 5 ∧ isSet data 6 := by
  induction cnts generalizing old with
  | nil => simp
  | cons cnt rest ih =>
    obtain ⟨data, read⟩ := Option.isSome_iff_exists.mp (answered cnt List.mem_cons_self)
    simp [ceDone, read, many] at done
    exact List.forall_mem_cons.mpr
      ⟨⟨data, read, done.1⟩, ih (fun c later => answered c (List.mem_cons_of_mem _ later)) done.2⟩

theorem pair_of_lane (lanes : Lanes n) (many : n ≠ 1) {lane : Nat} (below : lane < n) :
    lane / 2 ∈ List.range (loopcnt n) := by
  rw [loopcnt, if_neg many, List.mem_range]
  obtain rfl | rfl | rfl := lanes <;> omega

theorem lane_of_pair (many : n ≠ 1) {cnt : Nat} (among : cnt ∈ List.range (loopcnt n)) : 2 * cnt < n := by
  rw [loopcnt, if_neg many, List.mem_range] at among
  omega

theorem shows_of_status (lanes : Lanes n) (answered : Answered n r) (done : getLtStatus n r) : Shows n r := by
  obtain ⟨recovered, equalized⟩ := Bool.and_eq_true_iff.mp done
  obtain ⟨align, aligned⟩ := Option.isSome_iff_exists.mp answered.alignment
  unfold getChannelEqStatus at equalized
  cases eq : ceDone n r.equalization (List.range (loopcnt n)) 0 with
  | none => simp [eq] at equalized
  | some last =>
    simp only [eq, aligned, Option.getD_some] at equalized
    by_cases many : n = 1
    · subst many
      obtain ⟨first, read⟩ := Option.isSome_iff_exists.mp (answered.recovery 0 (by decide))
      obtain ⟨second, found⟩ := Option.isSome_iff_exists.mp (answered.equalization 0 (by decide))
      have one : List.range (loopcnt 1) = [0] := rfl
      have only (lane : Nat) (below : lane < 1) : lane = 0 := by omega
      rw [Nat.zero_div] at read found
      simp only [getClockRecoveryStatus, one, crDone, read, Option.getD_some, if_true] at recovered
      simp only [one, ceDone, found, Option.getD_some, if_true] at eq
      have both : isSet second 1 ∧ isSet second 2 := by
        by_contra undone
        simp [undone] at eq
      refine ⟨fun lane below => ?_, fun lane below => ?_, align, aligned, equalized⟩
      · rw [only lane below]
        exact ⟨first, read, recovered⟩
      · rw [only lane below]
        exact ⟨second, found, both⟩
    · have cr := crDone_pairs many (fun cnt among => by
        have := answered.recovery (2 * cnt) (lane_of_pair many among)
        rwa [Nat.mul_div_cancel_left _ (by decide)] at this) recovered
      have ce := ceDone_pairs many (fun cnt among => by
        have := answered.equalization (2 * cnt) (lane_of_pair many among)
        rwa [Nat.mul_div_cancel_left _ (by decide)] at this) eq
      refine ⟨fun lane below => ?_, fun lane below => ?_, align, aligned, equalized⟩
      · obtain ⟨data, read, low, high⟩ := cr _ (pair_of_lane lanes many below)
        refine ⟨data, read, ?_⟩
        obtain zero | one := Nat.mod_two_eq_zero_or_one lane
        · rwa [zero]
        · rwa [one]
      · obtain ⟨data, read, one, two, five, six⟩ := ce _ (pair_of_lane lanes many below)
        refine ⟨data, read, ?_⟩
        obtain low | high := Nat.mod_two_eq_zero_or_one lane
        · rw [low]
          exact ⟨one, two⟩
        · rw [high]
          exact ⟨five, six⟩

theorem newConfig_eq (request : Nat → Option UInt8) (cnts : List Nat) (s : LtData) :
    ∃ data vs, newConfig request cnts s = { s with dataPtr := data, driveCurrent := vs } := by
  induction cnts generalizing s with
  | nil => exact ⟨s.dataPtr, s.driveCurrent, rfl⟩
  | cons cnt rest ih => exact ih _

theorem getLtNewConfig_eq (host : Host) (a : Answers) (s : LtData) :
    ∃ data vs, getLtNewConfig host a s = { s with dataPtr := data, driveCurrent := vs } := by
  obtain ⟨data, vs, taken⟩ := newConfig_eq a.request (List.range (loopcnt s.nLanes)) s
  unfold getLtNewConfig
  dsimp only
  rw [taken]
  split
  · exact ⟨_, vs, rfl⟩
  · exact ⟨data, vs, rfl⟩

def remaining (cfg : LinkConfig) : Nat := linkConfigPriority.length - priorityIndex cfg

def phase (s : LtData) : Nat :=
  match s.state with
  | .reset => 16
  | .clockRecovery => 10 + (5 - s.crRetry.toNat)
  | .channelEqualization => 1 + (6 - s.ceRetry.toNat)
  | _ => 0

def rank (s : LtData) : Nat := if s.pendingEvt then 1000 else 20 * remaining s.linkCfg + phase s

def Training (s : LtData) : Prop :=
  s.state = .reset ∨ (s.state = .clockRecovery ∨ s.state = .channelEqualization ∨ s.state = .reduceBitRate) ∧
      Lanes s.nLanes ∧ s.ceRetry.toNat ≤ 6

structure Inv (s : LtData) : Prop where
  config : Lanes s.linkCfg.laneCount.toNat
  valid : s.ltConfigValid → Lanes s.nLanes
  training : s.pendingEvt = false → Training s

inductive Outcome (host : Host) (a : Answers) (s : LtData) : Ret × LtData → Prop where
  | failed (t : LtData) (state : t.state = .doneFail) : Outcome host a s (.invalidState, t)
  | passed (t : LtData) (state : t.state = .donePass) (passes : Passes a s) (lanes : t.nLanes = s.nLanes)
      (inv : Inv { t with state := .reset }) (settled : t.pendingEvt = false) : Outcome host a s (.noError, t)
  | goes (t : LtData) (inv : Inv t) (settled : t.pendingEvt = false) (moves : GoesBack host a s ∨ rank t < rank s) :
      Outcome host a s (.noError, t)

theorem lanes_of_listed {bw lanes : UInt8} (listed : (bw, lanes) ∈ linkConfigPriority) : Lanes lanes.toNat := by
  simp only [linkConfigPriority, List.mem_cons, Prod.mk.injEq, List.not_mem_nil, or_false] at listed
  obtain ⟨-, rfl⟩ | ⟨-, rfl⟩ | ⟨-, rfl⟩ | ⟨-, rfl⟩ | ⟨-, rfl⟩ | ⟨-, rfl⟩ | ⟨-, rfl⟩ | ⟨-, rfl⟩ | ⟨-, rfl⟩ := listed <;>
    simp [Lanes]

theorem getNextLowerLinkConfig_spec {cfg next : LinkConfig} {i : Nat} (found : getNextLowerLinkConfig cfg = some i)
    (same : (next.linkBw, next.laneCount) = linkConfigAt i) :
    remaining next < remaining cfg ∧ Lanes next.laneCount.toNat := by
  have size : linkConfigPriority.length = 9 := rfl
  unfold getNextLowerLinkConfig at found
  dsimp only at found
  by_cases lowest : priorityIndex cfg = linkConfigPriority.length - 1
  · simp [lowest] at found
  · rw [if_neg lowest] at found
    obtain ⟨low, high⟩ := List.mem_range'_1.mp (List.mem_of_find?_eq_some found)
    have below : i < 9 := by omega
    have bw := congrArg Prod.fst same
    have lanes := congrArg Prod.snd same
    have place : priorityIndex next = i := by
      unfold priorityIndex
      dsimp only at bw lanes
      rw [bw, lanes]
      interval_cases i <;> rfl
    have listed : (next.linkBw, next.laneCount) ∈ linkConfigPriority := by
      rw [same]
      interval_cases i <;> decide
    refine ⟨?_, lanes_of_listed listed⟩
    unfold remaining
    omega

@[simp] theorem priorityIndex_isValid (cfg : LinkConfig) (b : Bool) :
    priorityIndex { cfg with isValid := b } = priorityIndex cfg := rfl

theorem rank_eq (settled : s.pendingEvt = false) : rank s = 20 * remaining s.linkCfg + phase s := by
  rw [rank, settled, if_neg Bool.false_ne_true]

theorem remaining_le (cfg : LinkConfig) : remaining cfg ≤ 9 := Nat.sub_le _ _

variable {state : LtState}

theorem inv_swReset (config : Lanes s.linkCfg.laneCount.toNat)
    (training : state = .reset ∨ state = .clockRecovery ∨ state = .channelEqualization ∨ state = .reduceBitRate) :
    Inv { ltDataSwReset s with state := state } := by
  refine ⟨config, fun valid => absurd valid Bool.false_ne_true, fun _ => ?_⟩
  obtain reset | others := training
  · exact .inl reset
  · exact .inr ⟨others, config, by simp [ltDataSwReset]⟩

theorem setLtState_onward (settled : s.pendingEvt = false) (pass : state ≠ .donePass)
    (fail : state ≠ .doneFail) : setLtState state s = (.noError, { s with state := state }) := by
  simp [setLtState, settled, pass, fail]

theorem outcome_swReset (config : Lanes s.linkCfg.laneCount.toNat) (settled : s.pendingEvt = false)
    (training : state = .reset ∨ state = .clockRecovery ∨ state = .channelEqualization ∨ state = .reduceBitRate)
    {u : LtData} (cfg : u.linkCfg = s.linkCfg) (quiet : u.pendingEvt = s.pendingEvt)
    (moves : GoesBack host a s ∨ phase { ltDataSwReset u with state := state } < phase s) :
    Outcome host a s (setLtState state (ltDataSwReset u)) := by
  have calm : u.pendingEvt = false := quiet.trans settled
  have still : ({ ltDataSwReset u with state := state } : LtData).pendingEvt = false := calm
  have same : ({ ltDataSwReset u with state := state } : LtData).linkCfg = s.linkCfg := cfg
  rw [setLtState_onward (s := ltDataSwReset u) calm (by rintro rfl; simp at training) (by rintro rfl; simp at training)]
  refine .goes _ (inv_swReset (cfg ▸ config) training) calm (moves.imp id fun less => ?_)
  rw [rank_eq settled, rank_eq still, same]
  omega

theorem ltResetState_outcome (inv : Inv s) (settled : s.pendingEvt = false) (hpd : a.hpd) (state : s.state = .reset) :
    Outcome host a s (ltResetState a s) := by
  unfold ltResetState
  by_cases refused : ¬ a.handlerHpd ∨ ¬ s.linkCfg.isValid
  · rw [if_pos refused]
    exact .failed _ rfl
  · rw [if_neg refused]
    simp only [not_or, not_not] at refused
    by_cases stable : s.ltConfigValid ∧ getLtStatus s.nLanes a.status
    · rw [if_pos stable]
      have lanes := inv.valid stable.1
      exact .passed _ rfl ⟨settled, hpd, refused.1, stable.2, .inl ⟨state, refused.2, stable.1⟩⟩ rfl
        ⟨inv.config, fun _ => lanes, fun _ => .inl rfl⟩ settled
    · rw [if_neg stable]
      exact outcome_swReset inv.config settled (.inr (.inl rfl)) rfl rfl (.inr (by simp [phase, state, ltDataSwReset]))

theorem ltClockRecoveryState_outcome (inv : Inv s) (settled : s.pendingEvt = false) (state : s.state = .clockRecovery)
    (lanes : Lanes s.nLanes) (retries : s.ceRetry.toNat ≤ 6) : Outcome host a s (ltClockRecoveryState host a s) := by
  have training (u : LtData) (cfg : u.linkCfg = s.linkCfg) (valid : u.ltConfigValid = s.ltConfigValid)
      (same : u.nLanes = s.nLanes) (few : u.ceRetry = s.ceRetry)
      (going : u.state = .clockRecovery ∨ u.state = .channelEqualization) : Inv u :=
    ⟨cfg ▸ inv.config, fun known => same ▸ inv.valid (valid ▸ known), fun _ =>
      .inr ⟨going.imp id .inl, same ▸ lanes, few ▸ retries⟩⟩
  unfold ltClockRecoveryState
  by_cases plugged : a.handlerHpd = true
  · rw [if_neg (not_not.mpr plugged)]
    by_cases done : getClockRecoveryStatus s.nLanes a.status = true
    · rw [if_pos done, setLtState_onward (by exact settled) (by decide) (by decide)]
      refine .goes _ (training _ rfl rfl rfl rfl (.inr rfl)) settled (.inr ?_)
      rw [rank_eq settled, rank_eq (by exact settled)]
      simp only [phase, state]
      omega
    · rw [if_neg done]
      obtain ⟨data, vs, taken⟩ := getLtNewConfig_eq host a s
      have differs (other : ¬ SameVs s.driveCurrent (getLtNewConfig host a s).driveCurrent) : GoesBack host a s :=
        .swing state (Bool.eq_false_iff.mpr done) other
      rw [taken] at differs ⊢
      dsimp only at differs ⊢
      by_cases same : SameVs s.driveCurrent vs
      · rw [if_pos same]
        by_cases most : isVsAlreadyMax s.nLanes s.driveCurrent vs = true
        · rw [if_pos most]
          exact outcome_swReset inv.config settled (by simp) rfl rfl (.inr (by simp [phase, state]))
        · rw [if_neg most]
          by_cases often : s.crRetry ≥ crRetryLimit - 1
          · rw [if_pos often]
            exact outcome_swReset inv.config settled (by simp) rfl rfl (.inr (by simp [phase, state]))
          · rw [if_neg often, setLtState_onward (by exact settled) (by decide) (by decide)]
            refine .goes _ (training _ rfl rfl rfl rfl (.inl rfl)) settled (.inr ?_)
            rw [rank_eq settled, rank_eq (by exact settled)]
            have four : (crRetryLimit - 1).toNat = 4 := rfl
            rw [ge_iff_le, UInt32.le_iff_toNat_le, four] at often
            have one : (s.crRetry + 1).toNat = s.crRetry.toNat + 1 := by
              rw [UInt32.toNat_add]
              exact Nat.mod_eq_of_lt (by simp only [UInt32.toNat_one]; omega)
            simp only [phase, state, one]
            omega
      · rw [if_neg same, setLtState_onward (by exact settled) (by decide) (by decide)]
        exact .goes _ (training _ rfl rfl rfl rfl (.inl rfl)) settled (.inl (differs same))
  · rw [if_pos plugged]
    have unplugged : GoesBack host a s := .drop (Bool.eq_false_iff.mpr plugged) (by rw [state]; decide)
    exact outcome_swReset inv.config settled (.inl rfl) rfl rfl (.inl unplugged)

theorem ltChannelEqualizationState_outcome (inv : Inv s) (settled : s.pendingEvt = false) (hpd : a.hpd)
    (state : s.state = .channelEqualization) (lanes : Lanes s.nLanes) (retries : s.ceRetry.toNat ≤ 6) :
    Outcome host a s (ltChannelEqualizationState host a s) := by
  unfold ltChannelEqualizationState
  by_cases plugged : a.handlerHpd = true
  · rw [if_neg (not_not.mpr plugged)]
    by_cases lost : ¬ getClockRecoveryStatus s.nLanes a.status = true
    · rw [if_pos lost]
      exact outcome_swReset inv.config settled (by simp) rfl rfl (.inr (by simp [phase, state]))
    · rw [if_neg lost]
      by_cases done : getChannelEqStatus s.nLanes a.status = true
      · rw [if_pos done]
        have both : getLtStatus s.nLanes a.status = true := Bool.and_eq_true_iff.mpr ⟨not_not.mp lost, done⟩
        exact .passed _ rfl ⟨settled, hpd, plugged, both, .inr state⟩ rfl
          ⟨inv.config, fun _ => lanes, fun _ => .inl rfl⟩ settled
      · rw [if_neg done]
        dsimp only
        have one : (s.ceRetry + 1).toNat = s.ceRetry.toNat + 1 := by
          rw [UInt32.toNat_add]
          exact Nat.mod_eq_of_lt (by simp only [UInt32.toNat_one]; omega)
        by_cases often : s.ceRetry + 1 > ceRetryLimit + 1
        · rw [if_pos often]
          exact outcome_swReset inv.config settled (by simp) rfl rfl (.inr (by simp [phase, state]))
        · have six : (ceRetryLimit + 1).toNat = 6 := rfl
          rw [gt_iff_lt, UInt32.lt_iff_toNat_lt, six, one] at often
          obtain ⟨data, vs, taken⟩ := getLtNewConfig_eq host a { s with ceRetry := s.ceRetry + 1 }
          rw [if_neg (by rwa [gt_iff_lt, UInt32.lt_iff_toNat_lt, six, one]), taken,
            setLtState_onward (by exact settled) (by decide) (by decide)]
          have few : (s.ceRetry + 1).toNat ≤ 6 := by omega
          refine .goes _ ⟨inv.config, inv.valid, fun _ => .inr ⟨.inr (.inl rfl), lanes, few⟩⟩ settled (.inr ?_)
          rw [rank_eq settled, rank_eq (by exact settled)]
          simp only [phase, state, one]
          omega
  · rw [if_pos plugged]
    have unplugged : GoesBack host a s := .drop (Bool.eq_false_iff.mpr plugged) (by rw [state]; decide)
    exact outcome_swReset inv.config settled (.inl rfl) rfl rfl (.inl unplugged)

theorem ltReduceBitRateState_outcome (inv : Inv s) (settled : s.pendingEvt = false) (state : s.state = .reduceBitRate)
    (retries : s.ceRetry.toNat ≤ 6) : Outcome host a s (ltReduceBitRateState host a s) := by
  unfold ltReduceBitRateState
  by_cases plugged : a.handlerHpd = true
  · rw [if_neg (not_not.mpr plugged)]
    dsimp only
    cases found : getNextLowerLinkConfig { s.linkCfg with isValid := false } with
    | none => exact .failed _ rfl
    | some i =>
      dsimp only
      split
      · exact .failed _ rfl
      · let next : LinkConfig :=
          { s.linkCfg with isValid := true, linkBw := (linkConfigAt i).1, laneCount := (linkConfigAt i).2 }
        obtain ⟨less, lanes⟩ := getNextLowerLinkConfig_spec found
          (show (next.linkBw, next.laneCount) = linkConfigAt i from rfl)
        rw [setLtState_onward (by exact settled) (by decide) (by decide)]
        refine .goes _ ⟨lanes, fun _ => lanes, fun _ => .inr ⟨.inl rfl, lanes, retries⟩⟩ settled (.inr ?_)
        rw [rank_eq settled, rank_eq (by exact settled)]
        simp only [phase, state]
        simp only [next, remaining, priorityIndex_isValid] at less ⊢
        omega
  · rw [if_pos plugged]
    have unplugged : GoesBack host a s := .drop (Bool.eq_false_iff.mpr plugged) (by rw [state]; decide)
    exact outcome_swReset inv.config settled (.inl rfl) rfl rfl (.inl unplugged)

theorem stateMachineDispatch_outcome (inv : Inv s) (settled : s.pendingEvt = false) (hpd : a.hpd) :
    Outcome host a s (stateMachineDispatch host a s) := by
  unfold stateMachineDispatch
  obtain reset | ⟨recovery | equalization | reduce, lanes, retries⟩ := inv.training settled
  · rw [reset]
    exact ltResetState_outcome inv settled hpd reset
  · rw [recovery]
    exact ltClockRecoveryState_outcome inv settled recovery lanes retries
  · rw [equalization]
    exact ltChannelEqualizationState_outcome inv settled hpd equalization lanes retries
  · rw [reduce]
    exact ltReduceBitRateState_outcome inv settled reduce retries

theorem ltPass_settled (settled : s.pendingEvt = false) (hpd : a.hpd) :
    ltPass host a s = finishPass a (stateMachineDispatch host a s) := by
  have same : ({ s with pendingEvt := false } : LtData) = s := by rw [← settled]
  unfold ltPass
  dsimp only
  rw [if_neg (not_not.mpr hpd), if_neg (by simp [settled]), same]

theorem finishPass_onward (training : Training t) : finishPass a (.noError, t) = .next t := by
  have neither : t.state ≠ .donePass ∧ t.state ≠ .doneFail := by
    obtain same | ⟨same | same | same, -⟩ := training <;> simp [same]
  unfold finishPass
  dsimp only
  split
  · exact absurd ‹_› neither.1
  · exact absurd ‹_› neither.2
  · rfl

theorem finishPass_done (state : t.state = .donePass) (done : getLtStatus t.nLanes a.check) :
    finishPass a (.noError, t) = .leave ⟨.noError, t.nLanes, a.check⟩ := by
  simp [finishPass, state, done]

inductive PassEnds (host : Host) (a : Answers) (s : LtData) : Pass LtData Ended → Prop where
  | fails (ended : Ended) (error : ended.ret ≠ .noError) : PassEnds host a s (.leave ended)
  | passes (passes : Passes a s) (done : getLtStatus s.nLanes a.check) :
      PassEnds host a s (.leave ⟨.noError, s.nLanes, a.check⟩)
  | goes (t : LtData) (inv : Inv t) (moves : GoesBack host a s ∨ rank t < rank s) : PassEnds host a s (.next t)

theorem finishPass_ends {r : Ret × LtData} (outcome : Outcome host a s r) : PassEnds host a s (finishPass a r) := by
  cases outcome with
  | failed t state =>
    have left : finishPass a (.invalidState, t) = .leave ⟨.initFailed, t.nLanes, a.check⟩ := by simp [finishPass, state]
    rw [left]
    exact .fails _ (by simp)
  | passed t state passes lanes inv settled =>
    by_cases done : getLtStatus t.nLanes a.check = true
    · rw [finishPass_done state done, lanes]
      exact .passes passes (lanes ▸ done)
    · have left : finishPass a (.noError, t) = .next { t with state := .reset } := by
        simp [finishPass, state, done, setLtState, settled]
      rw [left]
      exact .goes _ inv (.inl (.lost passes (lanes ▸ Bool.eq_false_iff.mpr done)))
  | goes t inv settled moves =>
    rw [finishPass_onward (inv.training settled)]
    exact .goes t inv moves

theorem ltPass_ends (inv : Inv s) : PassEnds host a s (ltPass host a s) := by
  by_cases hpd : a.hpd = true
  · by_cases settled : s.pendingEvt = true
    · have taken : ltPass host a s = .next { s with pendingEvt := false, state := .reset } := by
        unfold ltPass
        dsimp only
        rw [if_neg (not_not.mpr hpd), if_pos settled, setLtState_onward rfl (by decide) (by decide)]
        exact finishPass_onward (.inl rfl)
      rw [taken]
      refine .goes _ ⟨inv.config, inv.valid, fun _ => .inl rfl⟩ (.inr ?_)
      have few := remaining_le s.linkCfg
      rw [rank_eq rfl, rank, if_pos settled]
      simp only [phase]
      omega
    · have settled := Bool.eq_false_iff.mpr settled
      rw [ltPass_settled settled hpd]
      exact finishPass_ends (stateMachineDispatch_outcome inv settled hpd)
  · unfold ltPass
    dsimp only
    rw [if_pos hpd]
    exact .fails _ (by simp)

/-- A link that passes and has its lanes done when they are read again ends the training. -/
theorem ltPass_of_passes (passes : Passes a s) (done : getLtStatus s.nLanes a.check) :
    ltPass host a s = .leave ⟨.noError, s.nLanes, a.check⟩ := by
  obtain ⟨settled, hpd, plugged, status, reached⟩ := passes
  have handled : stateMachineDispatch host a s = (.noError, { s with state := .donePass, ltConfigValid := true }) := by
    obtain ⟨reset, valid, config⟩ | equalization := reached
    · simp [stateMachineDispatch, reset, ltResetState, plugged, valid, config, status, setLtState, ltPassed]
    · obtain ⟨recovered, equalized⟩ := Bool.and_eq_true_iff.mp status
      simp [stateMachineDispatch, equalization, ltChannelEqualizationState, plugged, recovered, equalized, setLtState,
        ltPassed]
  rw [ltPass_settled settled hpd, handled]
  exact finishPass_done rfl done

theorem Passes.lanes (passes : Passes a s) (inv : Inv s) : Lanes s.nLanes := by
  obtain ⟨settled, -, -, -, ⟨-, -, valid⟩ | equalization⟩ := passes
  · exact inv.valid valid
  · obtain reset | ⟨-, lanes, -⟩ := inv.training settled
    · cases equalization.symm.trans reset
    · exact lanes

theorem inv_start (ready : Ready s) : Inv (tegrablDpLt s).2 :=
  ⟨lanes_of_listed ready.listed, ready.lanes, fun settled => by cases settled⟩

theorem performLt_next {p q : Nat × LtData} (taken : performLt host sink p = .next q) :
    q.1 = p.1 + 1 ∧ ltPass host (sink p.1) p.2 = .next q.2 := by
  unfold performLt at taken
  split at taken
  · rename_i s passed
    cases taken
    exact ⟨rfl, passed⟩
  · cases taken

theorem performLt_leave {p : Nat × LtData} {ended : Ended} :
    performLt host sink p = .leave ended ↔ ltPass host (sink p.1) p.2 = .leave ended := by
  unfold performLt
  cases ltPass host (sink p.1) p.2 with
  | next s => simp
  | leave ended => simp

theorem performLt_keeps (p q : Nat × LtData) (inv : Inv p.2) (taken : performLt host sink p = .next q) : Inv q.2 := by
  have ends : PassEnds host (sink p.1) p.2 _ := ltPass_ends inv
  rw [(performLt_next taken).2] at ends
  cases ends with
  | goes _ inv _ => exact inv

theorem performLt_drops (p q : Nat × LtData) (inv : Inv p.2) (steady : ¬ GoesBack host (sink p.1) p.2)
    (taken : performLt host sink p = .next q) : rank q.2 < rank p.2 := by
  have ends : PassEnds host (sink p.1) p.2 _ := ltPass_ends inv
  rw [(performLt_next taken).2] at ends
  cases ends with
  | goes _ _ moves => exact moves.resolve_left steady

/-- Link training returns, and rightly, exactly when the sink settles. -/
theorem performLt_trains_iff (host : Host) (sink : Nat → Answers) (s : LtData) (ready : Ready s) :
    Trains host sink s ↔ Settled host sink s := by
  have returns : (∃ ended, LoopReturns (performLt host sink) (tegrablDpLt s) ended) ↔
      ∃ n, ∀ p, Comes (performLt host sink) (tegrablDpLt s) p → n ≤ p.1 → ¬ GoesBack host (sink p.1) p.2 :=
    returns_iff_eventually (fun p q taken => (performLt_next taken).1) performLt_keeps performLt_drops
      (inv_start ready)
  constructor
  · intro ⟨ended, returned, shows_⟩
    refine ⟨returns.mp ⟨ended, returned⟩, fun p comes misread => ?_⟩
    obtain ⟨passes, done, unanswered⟩ := misread
    have left := comes.returns (returns_of_leave (performLt_leave.mpr (ltPass_of_passes passes done)))
    obtain ⟨fuel, first⟩ := returned
    obtain ⟨fuel', second⟩ := left
    cases runLoop_unique first second
    exact unanswered (shows_ rfl).answered
  · intro ⟨steady, read⟩
    obtain ⟨ended, returned⟩ := returns.mpr steady
    refine ⟨ended, returned, fun fine => ?_⟩
    obtain ⟨p, comes, left⟩ := returned.left
    have inv : Inv p.2 := comes.keeps performLt_keeps (inv_start ready)
    have ends : PassEnds host (sink p.1) p.2 _ := ltPass_ends inv
    rw [performLt_leave.mp left] at ends
    cases ends with
    | fails _ error => exact absurd fine error
    | passes passes done =>
      refine shows_of_status (passes.lanes inv) ?_ done
      by_contra unanswered
      exact read p comes ⟨passes, done, unanswered⟩

def fourLanes : LtData := ⟨.reset, false, false, fun _ => 0, 4, 0, 0, 0, ⟨true, 20, 4, 20, 4⟩⟩
def anyHost : Host := ⟨false, fun _ => true⟩
def plugged (status : Status) (request : UInt8) : Answers := ⟨true, true, status, fun _ => some request, some 0, status⟩
def allDone : Status := ⟨fun _ => some 0x77, fun _ => some 0x77, some 1⟩

theorem performLt_trains_fourLanes : Settled anyHost (fun _ => plugged allDone 0) fourLanes := by
  have ready : Ready fourLanes := ⟨by decide, fun valid => by cases valid⟩
  refine (performLt_trains_iff _ _ _ ready).mp ⟨⟨.noError, 4, allDone⟩, ⟨4, rfl⟩, fun _ => ?_⟩
  exact shows_of_status (.inr (.inr rfl)) ⟨fun _ _ => rfl, fun _ _ => rfl, rfl⟩ rfl

def noAlignment : Status := ⟨fun _ => some 0x77, fun _ => some 0x77, none⟩

def oscillating (k : Nat) : Answers := plugged ⟨fun _ => some 0, fun _ => some 0, some 0⟩ (if k % 2 = 0 then 0x11 else 0)

def Oscillates (p : Nat × LtData) : Prop :=
  p.2.state = .clockRecovery ∧ p.2.pendingEvt = false ∧ p.2.nLanes = 4 ∧
    ∀ i < 4, p.2.driveCurrent i = if p.1 % 2 = 0 then 0 else 1

theorem newConfig_driveCurrent (s : LtData) (data : UInt8) {i : Nat} (below : i < 4) :
    (newConfig (fun _ => some data) [0, 1] s).driveCurrent i =
      if i % 2 = 0 then data &&& 0x3 else (data &&& 0x30) >>> 4 := by
  interval_cases i <;> rfl

theorem oscillates_next {p : Nat × LtData} (oscillates : Oscillates p) :
    ∃ q, performLt anyHost oscillating p = .next q ∧ Oscillates q := by
  obtain ⟨k, s⟩ := p
  obtain ⟨state, settled, lanes, swings⟩ := oscillates
  dsimp only at state settled lanes swings
  obtain ⟨data, vs, same⟩ := getLtNewConfig_eq anyHost (oscillating k) s
  have taken : getLtNewConfig anyHost (oscillating k) s =
      newConfig (fun _ => some (if k % 2 = 0 then 0x11 else 0)) [0, 1] s := by
    unfold getLtNewConfig
    rw [lanes]
    rfl
  have requested (i : Nat) (below : i < 4) : vs i = if (k + 1) % 2 = 0 then 0 else 1 := by
    have swing := congrFun (congrArg LtData.driveCurrent (same.symm.trans taken)) i
    rw [newConfig_driveCurrent s _ below] at swing
    obtain even | odd := Nat.mod_two_eq_zero_or_one k
    · rw [if_pos even] at swing
      rw [if_neg (by omega)]
      refine swing.trans ?_
      split <;> rfl
    · rw [if_neg (by omega : ¬ k % 2 = 0)] at swing
      rw [if_pos (by omega)]
      refine swing.trans ?_
      split <;> rfl
  have differs : ¬ SameVs s.driveCurrent vs := by
    intro every
    have first := every 0 (by decide)
    rw [swings 0 (by decide), requested 0 (by decide)] at first
    obtain even | odd := Nat.mod_two_eq_zero_or_one k
    · rw [if_pos even, if_neg (by omega)] at first
      cases first
    · rw [if_neg (by omega), if_pos (by omega)] at first
      cases first
  have none_done : getClockRecoveryStatus 4 ⟨fun _ => some 0, fun _ => some 0, some 0⟩ = false := rfl
  have undone : getClockRecoveryStatus s.nLanes (oscillating k).status = false := by
    rw [lanes]
    exact none_done
  let next : LtData := { s with dataPtr := data, driveCurrent := vs, crRetry := 1, state := .clockRecovery }
  have handled : stateMachineDispatch anyHost (oscillating k) s = (.noError, next) := by
    have plugged : (oscillating k).handlerHpd = true := rfl
    simp [stateMachineDispatch, state, ltClockRecoveryState, plugged, undone, same, differs, setLtState, settled, next]
  have onward : ltPass anyHost (oscillating k) s = .next next := by
    rw [ltPass_settled settled rfl, handled]
    rfl
  refine ⟨(k + 1, next), ?_, rfl, settled, lanes, requested⟩
  unfold performLt
  rw [onward]

def Turning (p : Nat × LtData) : Prop := p = tegrablDpLt fourLanes ∨ p = (1, fourLanes) ∨ Oscillates p

theorem turning_next (p : Nat × LtData) (turning : Turning p) : ∃ q, performLt anyHost oscillating p = .next q ∧ Turning q := by
  obtain rfl | rfl | oscillates := turning
  · exact ⟨(1, fourLanes), rfl, .inr (.inl rfl)⟩
  · exact ⟨(2, { ltDataSwReset fourLanes with state := .clockRecovery }), rfl, .inr (.inr ⟨rfl, rfl, rfl, fun _ _ => rfl⟩)⟩
  · obtain ⟨q, taken, next⟩ := oscillates_next oscillates
    exact ⟨q, taken, .inr (.inr next)⟩

/-- A sink that asks for two voltage swings in turn keeps the loop going. Where the alignment cannot be read, the byte of the
lanes is taken for it. -/
theorem performLt_untrained : Ready fourLanes ∧ ¬ Trains anyHost oscillating fourLanes ∧
      ¬ Trains anyHost (fun _ => plugged noAlignment 0) fourLanes := by
  refine ⟨⟨by decide, fun valid => by cases valid⟩, fun ⟨ended, returned, _⟩ => ?_, fun ⟨ended, returned, shows_⟩ => ?_⟩
  · exact never_returns turning_next (.inl rfl) ended returned
  · obtain ⟨fuel, returned⟩ := returned
    have run : runLoop (performLt anyHost fun _ => plugged noAlignment 0) 4 (tegrablDpLt fourLanes) =
        some ⟨.noError, 4, noAlignment⟩ := rfl
    cases runLoop_unique run returned
    obtain ⟨data, read, -⟩ := (shows_ rfl).aligned
    cases read

end Cboot.Display.LinkTraining
