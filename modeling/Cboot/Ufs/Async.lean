import Cboot.Blockdev.Model
import Cboot.Lib.Loop

/-!
`drivers/ufs/tegrabl_ufs_bdev.c`. A transfer is begun by `tegrabl_ufs_blockdev_xfer` and waited for by
`tegrabl_ufs_blockdev_xfer_wait`, which may give up and be called again.
-/

namespace Cboot.Ufs
open Lib
open Blockdev (XferInfo Bdev)

def ufsRwBlockMax : UInt32 := 16 * 64

def blockdevRead : UInt8 := 2

inductive Error where
  | invalid
  | overflow
  | transfer
  deriving DecidableEq, Repr

/-- `tegrabl_ufs_xfer` and `tegrabl_ufs_rw_check_complete`. -/
inductive Event where
  | xfer (block count : UInt32) (buf : Nat)
  | complete (count : UInt32) (buf : Nat)
  deriving DecidableEq, Repr

/-- Whether the host controller does what it is asked, after all it has been asked before. -/
structure Controller where
  answers : List Event → Event → Bool

/-- `xfer_info` and `block_size_log2` of the context. -/
structure Context where
  dmaInProgress : Bool
  bulkCount : UInt32
  blockSizeLog2 : UInt32
  deriving DecidableEq, Repr

structure Driver where
  context : Context
  log : List Event
  deriving DecidableEq, Repr

def bulkOf (count : UInt32) : UInt32 := if count < ufsRwBlockMax then count else ufsRwBlockMax

def bytesOf (blockSizeLog2 bulkCount : UInt32) : Nat := (bulkCount <<< blockSizeLog2).toNat

section
variable (ctl : Controller)

def tegrablUfsBlockdevXfer (xfer : XferInfo) (d : Driver) : Except Error Unit × Driver :=
  match xfer.dev with
  | none => (.error .invalid, d)
  | some dev =>
    if xfer.buf = 0 then (.error .invalid, d)
    else if xfer.xferType ≠ blockdevRead ∨ ¬ xfer.isNonBlocking then (.error .invalid, d)
    else if xfer.startBlock + xfer.blockCount > dev.blockCount then (.error .overflow, d)
    else if xfer.blockCount ≠ 0 then
      let bulkCount := bulkOf xfer.blockCount
      let start := Event.xfer xfer.startBlock bulkCount xfer.buf
      if ctl.answers d.log start then
        (.ok (), ⟨{ d.context with dmaInProgress := true, bulkCount := bulkCount }, d.log ++ [start]⟩)
      else (.error .transfer, ⟨d.context, d.log ++ [start]⟩)
    else (.ok (), d)

structure Wait where
  timeout : UInt64
  clock : Nat → UInt64

structure Waiting where
  block : UInt32
  count : UInt32
  buf : Nat
  elapsedTimeUs : UInt64
  readings : Nat
  log : List Event

def completePart (context : Context) (w : Waiting) : Pass Waiting (Option Error × Waiting) :=
  if context.dmaInProgress then
    let done := Event.complete context.bulkCount w.buf
    let log := w.log ++ [done]
    if ctl.answers w.log done then
      .next { w with
        count := w.count - context.bulkCount
        buf := w.buf + bytesOf context.blockSizeLog2 context.bulkCount
        block := w.block + context.bulkCount
        log := log }
    else .leave (some .transfer, { w with log := log })
  else .next w

/-- A pass of the `while` loop. It is left with the variables as they are then. -/
def waitPass (context : Context) (wait : Wait) (w : Waiting) : Pass Waiting (Option Error × Waiting) :=
  if w.count > 0 ∧ w.elapsedTimeUs ≤ wait.timeout then
    (completePart ctl context w).andThen fun w =>
      let bulkCount := bulkOf w.count
      if bulkCount ≤ 0 then .leave (none, w)
      else
        let start := Event.xfer w.block bulkCount w.buf
        let log := w.log ++ [start]
        if ctl.answers w.log start then
          .next { w with
            elapsedTimeUs := wait.clock w.readings - wait.clock 0
            readings := w.readings + 1
            log := log }
        else .leave (some .transfer, { w with log := log })
  else .leave (none, w)

/-- `error`, whether the status is `TEGRABL_BLOCKDEV_XFER_COMPLETE`, and what the transfer and the driver are then. -/
structure Waited where
  error : Option Error
  complete : Bool
  xfer : XferInfo
  driver : Driver

def Waiting.start (xfer : XferInfo) (d : Driver) : Waiting :=
  ⟨xfer.startBlock, xfer.blockCount, xfer.buf, 0, 1, d.log⟩

def Waiting.finish (xfer : XferInfo) (context : Context) (error : Option Error) (w : Waiting) : Waited :=
  match error with
  | some e => ⟨some e, false, xfer, ⟨context, w.log⟩⟩
  | none =>
    if w.count > 0 then
      ⟨none, false, { xfer with startBlock := w.block, blockCount := w.count, buf := w.buf }, ⟨context, w.log⟩⟩
    else ⟨none, true, xfer, ⟨context, w.log⟩⟩

def tegrablUfsBlockdevXferWait (passes : Nat) (xfer : XferInfo) (wait : Wait) (d : Driver) : Option Waited :=
  if xfer.dev = none ∨ xfer.buf = 0 then some ⟨some .invalid, false, xfer, d⟩
  else if xfer.xferType ≠ blockdevRead ∨ ¬ xfer.isNonBlocking then some ⟨some .invalid, false, xfer, d⟩
  else
    (runLoop (waitPass ctl d.context wait) passes (.start xfer d)).map fun left =>
      left.2.finish xfer d.context left.1

/-- The loop of `tegrabl_ufs_bdev_read_block`. -/
def readLoop (blockSizeLog2 : UInt32) : Nat → UInt32 → UInt32 → Nat → List Event → Except Error Unit × List Event
  | 0, _, _, _, log => (.ok (), log)
  | turns + 1, block, count, buf, log =>
    if count ≠ 0 then
      let bulkCount := bulkOf count
      let start := Event.xfer block bulkCount buf
      let done := Event.complete bulkCount buf
      if ¬ ctl.answers log start then (.error .transfer, log ++ [start])
      else if ¬ ctl.answers (log ++ [start]) done then (.error .transfer, log ++ [start] ++ [done])
      else
        readLoop blockSizeLog2 turns (block + bulkCount) (count - bulkCount) (buf + bytesOf blockSizeLog2 bulkCount)
          (log ++ [start] ++ [done])
    else (.ok (), log)

def tegrablUfsBdevReadBlock (dev : Option Bdev) (buffer : Nat) (block count : UInt32) (d : Driver) :
    Except Error Unit × List Event :=
  match dev with
  | none => (.error .invalid, d.log)
  | some dev =>
    if buffer = 0 then (.error .invalid, d.log)
    else if block + count > dev.blockCount then (.error .overflow, d.log)
    else readLoop ctl d.context.blockSizeLog2 (count.toNat + 1) block count buffer d.log

inductive InProgress : List Wait → XferInfo → Driver → XferInfo → Driver → Prop
  | none (xfer : XferInfo) (d : Driver) : InProgress [] xfer d xfer d
  | more {wait : Wait} {waits : List Wait} {xfer xfer' : XferInfo} {d d' : Driver} {passes : Nat} {r : Waited}
    (returned : tegrablUfsBlockdevXferWait ctl passes xfer wait d = some r) (running : r.error = Option.none ∧ r.complete = false)
    (later : InProgress waits r.xfer r.driver xfer' d') : InProgress (wait :: waits) xfer d xfer' d'

def NoWrap (xfer : XferInfo) (wait : Wait) (d : Driver) : Prop :=
  ∀ w, Comes (waitPass ctl d.context wait) (.start xfer d) w → w.count > 0 → w.elapsedTimeUs ≤ wait.timeout →
    d.context.dmaInProgress → d.context.bulkCount ≤ w.count

/-- However long it is waited for, and by however many calls, each of them returns, and the one that says that the
transfer is complete leaves the log that a read does. -/
def Agrees (xfer : XferInfo) (d : Driver) : Prop :=
  ∃ begun, tegrablUfsBlockdevXfer ctl xfer d = (.ok (), begun) ∧
    ∀ waits xfer' d', InProgress ctl waits xfer begun xfer' d' → ∀ wait, NoWrap ctl xfer' wait d' ∧
        ∃ passes r, tegrablUfsBlockdevXferWait ctl passes xfer' wait d' = some r ∧ r.error = none ∧
          (r.complete → (.ok (), r.driver.log) = tegrablUfsBdevReadBlock ctl xfer.dev xfer.buf xfer.startBlock xfer.blockCount d)

end

structure Asked (xfer : XferInfo) (dev : Bdev) : Prop where
  device : xfer.dev = some dev
  buffer : xfer.buf ≠ 0
  read : xfer.xferType = blockdevRead
  nonBlocking : xfer.isNonBlocking
  inside : xfer.startBlock.toNat + xfer.blockCount.toNat ≤ dev.blockCount.toNat

def Controller.Succeeds (ctl : Controller) : Prop := ∀ log e, ctl.answers log e

def Whole (count : UInt32) : Prop := count.toNat ≤ 1024 ∨ 1024 ∣ count.toNat

section
variable {ctl : Controller} {context : Context} {wait : Wait} {w w' : Waiting} {full front : List Event} {xfer : XferInfo}
  {dev : Bdev} {d : Driver} {count block : UInt32} {buf : Nat} {r : Waited}

theorem bulkOf_toNat (count : UInt32) : (bulkOf count).toNat = min count.toNat 1024 := by
  have most : ufsRwBlockMax.toNat = 1024 := rfl
  rw [bulkOf]
  split
  case isTrue less =>
    have := UInt32.lt_iff_toNat_lt.mp less
    omega
  case isFalse more =>
    have := mt UInt32.lt_iff_toNat_lt.mpr more
    omega

theorem bulkOf_le (count : UInt32) : bulkOf count ≤ count := by
  rw [UInt32.le_iff_toNat_le, bulkOf_toNat]
  exact Nat.min_le_left _ _

theorem sub_bulkOf_toNat (count : UInt32) : (count - bulkOf count).toNat = count.toNat - min count.toNat 1024 := by
  rw [UInt32.toNat_sub_of_le _ _ (bulkOf_le count), bulkOf_toNat]

theorem pos_iff (count : UInt32) : count > 0 ↔ count.toNat ≠ 0 := by
  rw [GT.gt, UInt32.lt_iff_toNat_lt, UInt32.toNat_zero, Nat.pos_iff_ne_zero]

theorem Whole.next (whole : Whole count) (more : (count - bulkOf count).toNat ≠ 0) :
    Whole (count - bulkOf count) ∧ bulkOf (count - bulkOf count) = bulkOf count := by
  have left := sub_bulkOf_toNat count
  have chunk := bulkOf_toNat count
  have chunk' := bulkOf_toNat (count - bulkOf count)
  rw [left] at more chunk'
  rcases whole with short | multiple
  · omega
  · have multiple' : 1024 ∣ (count - bulkOf count).toNat := by
      rw [left]
      omega
    refine ⟨.inr multiple', ?_⟩
    rw [← UInt32.toNat_inj]
    rw [left] at multiple'
    omega

structure InChunk (ctl : Controller) (context : Context) (full : List Event) (w : Waiting) : Prop where
  dma : context.dmaInProgress
  chunk : context.bulkCount = bulkOf w.count
  whole : Whole w.count
  buffer : w.buf ≠ 0
  rest : ∃ front turns, w.log = front ++ [.xfer w.block (bulkOf w.count) w.buf] ∧ w.count.toNat < turns ∧
    readLoop ctl context.blockSizeLog2 turns w.block w.count w.buf front = (.ok (), full)

def Ready (ctl : Controller) (context : Context) (full : List Event) (w : Waiting) : Prop :=
  if w.count = 0 then w.log = full else InChunk ctl context full w

theorem readLoop_done (ctl : Controller) (blockSizeLog2 : UInt32) (turns : Nat) (block : UInt32) (buf : Nat) (log : List Event) :
    readLoop ctl blockSizeLog2 turns block 0 buf log = (.ok (), log) := by
  cases turns <;> rfl

theorem wait_unique {passes passes' : Nat} {r' : Waited} (returned : tegrablUfsBlockdevXferWait ctl passes xfer wait d = some r)
    (returned' : tegrablUfsBlockdevXferWait ctl passes' xfer wait d = some r') : r = r' := by
  rw [tegrablUfsBlockdevXferWait] at returned returned'
  by_cases missing : xfer.dev = none ∨ xfer.buf = 0
  · rw [if_pos missing] at returned returned'
    exact Option.some.inj (returned.symm.trans returned')
  · by_cases other : xfer.xferType ≠ blockdevRead ∨ ¬ xfer.isNonBlocking
    · rw [if_neg missing, if_pos other] at returned returned'
      exact Option.some.inj (returned.symm.trans returned')
    · rw [if_neg missing, if_neg other] at returned returned'
      obtain ⟨left, ran, rfl⟩ := Option.map_eq_some_iff.mp returned
      obtain ⟨left', ran', rfl⟩ := Option.map_eq_some_iff.mp returned'
      rw [runLoop_unique ran ran']

theorem remainder_sub {count : UInt32} (remainder : count.toNat % 1024 ≠ 0) :
    (count - ufsRwBlockMax).toNat % 1024 ≠ 0 := by
  have chunk : ufsRwBlockMax.toNat = 1024 := rfl
  rw [UInt32.toNat_sub, chunk]
  omega

variable (succeeds : ctl.Succeeds)
include succeeds

theorem readLoop_next (blockSizeLog2 : UInt32) (turns : Nat) (block : UInt32) {count : UInt32}
    (some_left : count ≠ 0) (buf : Nat) (log : List Event) : readLoop ctl blockSizeLog2 (turns + 1) block count buf log =
      readLoop ctl blockSizeLog2 turns (block + bulkOf count) (count - bulkOf count)
        (buf + bytesOf blockSizeLog2 (bulkOf count))
        (log ++ [.xfer block (bulkOf count) buf] ++ [.complete (bulkOf count) buf]) := by
  rw [readLoop, if_pos some_left]
  simp only [succeeds _ _, not_true_eq_false, if_false]

theorem InChunk.complete (here : InChunk ctl context full w) (some_left : w.count ≠ 0) :
    ∃ w', completePart ctl context w = .next w' ∧ w'.count = w.count - bulkOf w.count ∧ w'.buf ≠ 0 ∧
      ∃ turns, w'.count.toNat < turns ∧
        readLoop ctl context.blockSizeLog2 turns w'.block w'.count w'.buf w'.log = (.ok (), full) := by
  obtain ⟨dma, chunk, -, buffer, front, turns, log, enough, read⟩ := here
  obtain ⟨turns, rfl⟩ : ∃ n, turns = n + 1 := Nat.exists_eq_add_one.mpr (Nat.lt_of_le_of_lt (Nat.zero_le _) enough)
  rw [readLoop_next succeeds _ turns w.block some_left] at read
  refine ⟨_, (if_pos dma).trans (if_pos (succeeds _ _)), ?_, ?_, turns, ?_, ?_⟩
  · simp only [chunk]
  · dsimp only
    omega
  · have positive := mt UInt32.toNat_inj.mp some_left
    simp only [chunk, sub_bulkOf_toNat]
    rw [UInt32.toNat_zero] at positive
    omega
  · simp only [chunk, log]
    exact read

variable (ready : Ready ctl context full w)
include ready

theorem Ready.pass (wait : Wait) :
    (∃ w', waitPass ctl context wait w = .next w' ∧ Ready ctl context full w' ∧ w'.count.toNat < w.count.toNat) ∨
      ∃ w', waitPass ctl context wait w = .leave (none, w') ∧ Ready ctl context full w' := by
  by_cases goes_on : w.count > 0 ∧ w.elapsedTimeUs ≤ wait.timeout
  · have positive := (pos_iff w.count).mp goes_on.1
    have some_left : w.count ≠ 0 := fun none => positive (by rw [none]; rfl)
    rw [Ready, if_neg some_left] at ready
    obtain ⟨w', completed, remains, buffer, turns, enough, read⟩ := ready.complete succeeds some_left
    have left := sub_bulkOf_toNat w.count
    rw [← remains] at left
    rw [waitPass, if_pos goes_on, completed, Pass.next_andThen]
    by_cases none : w'.count = 0
    · have stop : bulkOf w'.count ≤ 0 := by
        rw [none]
        decide
      rw [if_pos stop]
      refine .inr ⟨w', rfl, ?_⟩
      rw [none, readLoop_done] at read
      rw [Ready, if_pos none]
      exact congrArg Prod.snd read
    · have more : w'.count.toNat ≠ 0 := fun zero => none (UInt32.toNat_inj.mp zero)
      have go : ¬ bulkOf w'.count ≤ 0 := by
        rw [UInt32.le_iff_toNat_le, bulkOf_toNat, UInt32.toNat_zero]
        omega
      rw [remains] at more
      obtain ⟨whole, same⟩ := ready.whole.next more
      rw [← remains] at whole same
      rw [if_neg go, if_pos (succeeds _ _)]
      refine .inl ⟨_, rfl, ?_, by dsimp only; omega⟩
      rw [Ready, if_neg none]
      exact ⟨ready.dma, ready.chunk.trans same.symm, whole, buffer, w'.log, turns, rfl, enough, read⟩
  · rw [waitPass, if_neg goes_on]
    exact .inr ⟨w, rfl, ready⟩

theorem Ready.returns (wait : Wait) :
    ∃ left, LoopReturns (waitPass ctl context wait) w left ∧ left.1 = none ∧ Ready ctl context full left.2 := by
  have keeps : ∀ s s', Ready ctl context full s → True → waitPass ctl context wait s = .next s' →
      Ready ctl context full s' ∧ s'.count.toNat < s.count.toNat := by
    intro s s' ready _ taken
    rcases ready.pass succeeds wait with ⟨w', next, good⟩ | ⟨w', leave, -⟩
    · rw [next] at taken
      cases taken
      exact good
    · rw [leave] at taken
      cases taken
  have leaves : ∀ s left, Ready ctl context full s → True → waitPass ctl context wait s = .leave left →
      left.1 = none ∧ Ready ctl context full left.2 := by
    intro s left ready _ taken
    rcases ready.pass succeeds wait with ⟨w', next, -⟩ | ⟨w', leave, good⟩
    · rw [next] at taken
      cases taken
    · rw [leave] at taken
      cases taken
      exact ⟨rfl, good⟩
  exact returns_good keeps leaves ready fun _ _ => trivial

theorem Ready.comes
    (comes : Comes (waitPass ctl context wait) w w') : Ready ctl context full w' := by
  induction comes with
  | here => exact ready
  | next taken _ ih =>
    rcases ready.pass succeeds wait with ⟨w', next, good, -⟩ | ⟨w', leave, -⟩
    · rw [next] at taken
      cases taken
      exact ih good
    · rw [leave] at taken
      cases taken

structure Between (ctl : Controller) (full : List Event) (xfer : XferInfo) (d : Driver) : Prop where
  device : xfer.dev ≠ none
  buffer : xfer.buf ≠ 0
  read : xfer.xferType = blockdevRead
  nonBlocking : xfer.isNonBlocking
  ready : Ready ctl d.context full (.start xfer d)

omit ready succeeds in
theorem wait_eq (device : xfer.dev ≠ none) (buffer : xfer.buf ≠ 0) (read : xfer.xferType = blockdevRead)
    (nonBlocking : xfer.isNonBlocking) (passes : Nat) (wait : Wait) (d : Driver) :
    tegrablUfsBlockdevXferWait ctl passes xfer wait d =
      (runLoop (waitPass ctl d.context wait) passes (.start xfer d)).map fun left =>
        left.2.finish xfer d.context left.1 := by
  rw [tegrablUfsBlockdevXferWait, if_neg (not_or.mpr ⟨device, buffer⟩),
    if_neg (not_or.mpr ⟨not_not_intro read, not_not_intro nonBlocking⟩)]

omit succeeds in
theorem Ready.again :
    Ready ctl context full ⟨w.block, w.count, w.buf, 0, 1, w.log⟩ := by
  rw [Ready] at ready ⊢
  split
  case isTrue none => rwa [if_pos none] at ready
  case isFalse more =>
    rw [if_neg more] at ready
    exact ⟨ready.dma, ready.chunk, ready.whole, ready.buffer, ready.rest⟩

omit ready

omit succeeds in
theorem Between.finish (between : Between ctl full xfer d) (ready : Ready ctl d.context full w) :
    (w.finish xfer d.context none).error = none ∧
      ((w.finish xfer d.context none).complete → (w.finish xfer d.context none).driver.log = full) ∧
      ((w.finish xfer d.context none).complete = false →
        Between ctl full (w.finish xfer d.context none).xfer (w.finish xfer d.context none).driver) := by
  by_cases more : w.count > 0
  · have some_left : w.count ≠ 0 := fun none => (pos_iff w.count).mp more (by rw [none]; rfl)
    have buffer : w.buf ≠ 0 := by
      rw [Ready, if_neg some_left] at ready
      exact ready.buffer
    simp only [Waiting.finish, if_pos more]
    exact ⟨trivial, nofun, fun _ => ⟨between.device, buffer, between.read, between.nonBlocking, ready.again⟩⟩
  · have none_left : w.count = 0 := by
      have zero := mt (pos_iff w.count).mpr more
      exact UInt32.toNat_inj.mp (Classical.not_not.mp zero)
    rw [Ready, if_pos none_left] at ready
    simp only [Waiting.finish, if_neg more]
    exact ⟨trivial, fun _ => ready, nofun⟩

theorem Between.returns (between : Between ctl full xfer d) (wait : Wait) :
    ∃ passes w, tegrablUfsBlockdevXferWait ctl passes xfer wait d = some (w.finish xfer d.context none) ∧
      Ready ctl d.context full w := by
  obtain ⟨⟨_, w⟩, ⟨passes, returned⟩, rfl, ready⟩ := between.ready.returns succeeds wait
  refine ⟨passes, w, ?_, ready⟩
  rw [wait_eq between.device between.buffer between.read between.nonBlocking, returned]
  rfl

theorem Between.progress {waits : List Wait} {xfer' : XferInfo} {d' : Driver}
    (between : Between ctl full xfer d) (run : InProgress ctl waits xfer d xfer' d') : Between ctl full xfer' d' := by
  induction run with
  | none => exact between
  | @more wait waits xfer xfer' d d' passes r returned running later ih =>
    obtain ⟨passes', w, returned', ready⟩ := between.returns succeeds wait
    obtain rfl := wait_unique returned returned'
    exact ih ((between.finish ready).2.2 running.2)

theorem readLoop_ok (blockSizeLog2 : UInt32) (turns : Nat) (block count : UInt32) (buf : Nat)
    (log : List Event) : (readLoop ctl blockSizeLog2 turns block count buf log).1 = .ok () := by
  induction turns generalizing block count buf log with
  | zero => rfl
  | succ turns ih =>
    by_cases none : count = 0
    · rw [none, readLoop_done]
    · rw [readLoop_next succeeds blockSizeLog2 turns block none]
      exact ih _ _ _ _

variable (asked : Asked xfer dev)
include asked

omit succeeds in
theorem Asked.fits : ¬ xfer.startBlock + xfer.blockCount > dev.blockCount := by
  have inside := asked.inside
  have bound := dev.blockCount.toNat_lt
  have small : xfer.startBlock.toNat + xfer.blockCount.toNat < 2 ^ 32 := by omega
  rw [GT.gt, UInt32.lt_iff_toNat_lt, UInt32.toNat_add, Nat.mod_eq_of_lt small]
  omega

def begun (xfer : XferInfo) (d : Driver) : Driver :=
  if xfer.blockCount = 0 then d
  else ⟨{ d.context with dmaInProgress := true, bulkCount := bulkOf xfer.blockCount },
    d.log ++ [.xfer xfer.startBlock (bulkOf xfer.blockCount) xfer.buf]⟩

theorem xfer_begins (d : Driver) :
    tegrablUfsBlockdevXfer ctl xfer d = (.ok (), begun xfer d) := by
  rw [tegrablUfsBlockdevXfer, asked.device]
  dsimp only
  rw [if_neg asked.buffer, if_neg (not_or.mpr ⟨not_not_intro asked.read, not_not_intro asked.nonBlocking⟩),
    if_neg asked.fits, begun]
  by_cases none : xfer.blockCount = 0
  · rw [if_neg (not_not_intro none), if_pos none]
  · rw [if_pos none, if_neg none, if_pos (succeeds _ _)]

theorem readBlock_eq (d : Driver) :
    ∃ full, tegrablUfsBdevReadBlock ctl xfer.dev xfer.buf xfer.startBlock xfer.blockCount d = (.ok (), full) ∧
      readLoop ctl d.context.blockSizeLog2 (xfer.blockCount.toNat + 1) xfer.startBlock xfer.blockCount xfer.buf d.log =
        (.ok (), full) := by
  have ok := readLoop_ok succeeds d.context.blockSizeLog2 (xfer.blockCount.toNat + 1) xfer.startBlock xfer.blockCount
    xfer.buf d.log
  refine ⟨_, ?_, Prod.ext ok rfl⟩
  rw [asked.device, tegrablUfsBdevReadBlock, if_neg asked.buffer, if_neg asked.fits]
  exact Prod.ext ok rfl

omit succeeds in
theorem begun_between (whole : Whole xfer.blockCount)
    (read : readLoop ctl d.context.blockSizeLog2 (xfer.blockCount.toNat + 1) xfer.startBlock xfer.blockCount xfer.buf d.log =
      (.ok (), full)) : Between ctl full xfer (begun xfer d) := by
  refine ⟨by rw [asked.device]; exact nofun, asked.buffer, asked.read, asked.nonBlocking, ?_⟩
  rw [Ready, begun, Waiting.start]
  dsimp only
  by_cases none : xfer.blockCount = 0
  · rw [if_pos none, if_pos none]
    rw [none, readLoop_done] at read
    exact congrArg Prod.snd read
  · rw [if_neg none, if_neg none]
    exact ⟨rfl, rfl, whole, asked.buffer, d.log, _, rfl, Nat.lt_succ_self _, read⟩

theorem agrees_of_whole (whole : Whole xfer.blockCount) (d : Driver) :
    Agrees ctl xfer d := by
  obtain ⟨full, sync, read⟩ := readBlock_eq succeeds asked d
  refine ⟨begun xfer d, xfer_begins succeeds asked d, fun waits xfer' d' run wait => ?_⟩
  have between := (begun_between asked whole read).progress succeeds run
  refine ⟨fun w comes more _ _ => ?_, ?_⟩
  · have some_left : w.count ≠ 0 := fun none => (pos_iff w.count).mp more (by rw [none]; rfl)
    have ready := between.ready.comes succeeds comes
    rw [Ready, if_neg some_left] at ready
    rw [ready.chunk]
    exact bulkOf_le _
  · obtain ⟨passes, w, returned, ready⟩ := between.returns succeeds wait
    obtain ⟨ok, done, -⟩ := between.finish ready
    refine ⟨passes, _, returned, ok, fun complete => ?_⟩
    rw [done complete, sync]

omit asked

structure Stuck (context : Context) (w : Waiting) : Prop where
  dma : context.dmaInProgress
  chunk : context.bulkCount = ufsRwBlockMax
  remainder : w.count.toNat % 1024 ≠ 0

theorem Stuck.pass (stuck : Stuck context w) (patient : wait.timeout = 0xFFFFFFFFFFFFFFFF) :
    ∃ w', waitPass ctl context wait w = .next w' ∧ Stuck context w' := by
  have left := remainder_sub stuck.remainder
  have goes_on : w.count > 0 ∧ w.elapsedTimeUs ≤ wait.timeout := by
    refine ⟨(pos_iff w.count).mpr fun none => stuck.remainder (by rw [none]), ?_⟩
    have bound := w.elapsedTimeUs.toNat_lt
    rw [patient, UInt64.le_iff_toNat_le, show (0xFFFFFFFFFFFFFFFF : UInt64).toNat = 2 ^ 64 - 1 from rfl]
    omega
  have go : ¬ bulkOf (w.count - context.bulkCount) ≤ 0 := by
    rw [UInt32.le_iff_toNat_le, bulkOf_toNat, stuck.chunk, UInt32.toNat_zero]
    omega
  rw [waitPass, if_pos goes_on, completePart, if_pos stuck.dma, if_pos (succeeds _ _), Pass.next_andThen]
  dsimp only
  rw [if_neg go, if_pos (succeeds _ _)]
  refine ⟨_, rfl, stuck.dma, stuck.chunk, ?_⟩
  rw [stuck.chunk]
  exact left

theorem Stuck.never_returns (stuck : Stuck context w)
    (patient : wait.timeout = 0xFFFFFFFFFFFFFFFF) (passes : Nat) :
    runLoop (waitPass ctl context wait) passes w = none := by
  induction passes generalizing w with
  | zero => rfl
  | succ passes ih =>
    obtain ⟨w', next, again⟩ := stuck.pass succeeds patient
    rw [runLoop_next next]
    exact ih again

theorem not_agrees (asked : Asked xfer dev) (other : ¬ Whole xfer.blockCount) (d : Driver) :
    ¬ Agrees ctl xfer d := by
  rintro ⟨begun', begins, all⟩
  rw [xfer_begins succeeds asked] at begins
  obtain ⟨-, rfl⟩ := Prod.mk.inj begins
  obtain ⟨long, remainder⟩ := not_or.mp other
  have some_left : xfer.blockCount ≠ 0 := by
    intro none
    rw [none] at long
    exact long (Nat.zero_le _)
  have chunk : bulkOf xfer.blockCount = ufsRwBlockMax := by
    rw [← UInt32.toNat_inj, bulkOf_toNat, show ufsRwBlockMax.toNat = 1024 from rfl]
    omega
  have stuck : Stuck (begun xfer d).context (.start xfer (begun xfer d)) := by
    rw [begun, if_neg some_left]
    exact ⟨rfl, chunk, fun none => remainder (Nat.dvd_of_mod_eq_zero none)⟩
  obtain ⟨-, passes, r, returned, -⟩ := all [] xfer _ (.none _ _) ⟨0xFFFFFFFFFFFFFFFF, fun _ => 0⟩
  have device : xfer.dev ≠ none := by
    rw [asked.device]
    exact nofun
  rw [wait_eq device asked.buffer asked.read asked.nonBlocking, stuck.never_returns succeeds rfl] at returned
  cases returned

omit succeeds

/-- A read that is not of whole chunks comes to no end, because the size of a chunk is remembered from the first one. -/
theorem tegrablUfsBlockdevXfer_iff (ctl : Controller) (succeeds : ctl.Succeeds) (xfer : XferInfo) (dev : Bdev)
    (asked : Asked xfer dev) (d : Driver) :
    Agrees ctl xfer d ↔ xfer.blockCount.toNat ≤ 1024 ∨ 1024 ∣ xfer.blockCount.toNat :=
  ⟨fun agrees => Classical.not_not.mp fun other => not_agrees succeeds asked other d agrees,
    fun whole => agrees_of_whole succeeds asked whole d⟩

def readOf (blockCount : UInt32) : XferInfo where
  dev := some ⟨1, 0, 0x1000000, 12, 0x1000, 8⟩
  xferType := blockdevRead
  buf := 0x80000000
  startBlock := 16
  blockCount := blockCount
  isNonBlocking := true
  isSecureErase := false
  id := 0
  xferStatus := 0

theorem readOf_asked {blockCount : UInt32} (small : blockCount.toNat ≤ 2048) :
    Asked (readOf blockCount) ⟨1, 0, 0x1000000, 12, 0x1000, 8⟩ := by
  refine ⟨rfl, Nat.succ_ne_zero _, rfl, rfl, ?_⟩
  change 16 + blockCount.toNat ≤ 4096
  omega

/-- Two chunks. -/
theorem tegrablUfsBlockdevXfer_two : Agrees ⟨fun _ _ => true⟩ (readOf 2048) ⟨⟨false, 0, 12⟩, []⟩ :=
  (tegrablUfsBlockdevXfer_iff ⟨fun _ _ => true⟩ (fun _ _ => rfl) (readOf 2048) _ (readOf_asked (by decide))
    ⟨⟨false, 0, 12⟩, []⟩).mpr (.inr (by decide))

/-- One block more than a chunk: the call does not return, and takes 1024 from 1. -/
theorem tegrablUfsBlockdevXfer_remainder : Asked (readOf 1025) ⟨1, 0, 0x1000000, 12, 0x1000, 8⟩ ∧
    ¬ Agrees ⟨fun _ _ => true⟩ (readOf 1025) ⟨⟨false, 0, 12⟩, []⟩ ∧
    ¬ NoWrap ⟨fun _ _ => true⟩ (readOf 1025) ⟨0xFFFFFFFFFFFFFFFF, fun _ => 0⟩
      (begun (readOf 1025) ⟨⟨false, 0, 12⟩, []⟩) := by
  refine ⟨readOf_asked (by decide), not_agrees (fun _ _ => rfl) (readOf_asked (by decide)) ?_ _, fun whole => ?_⟩
  · exact not_or.mpr ⟨by decide, by decide⟩
  · refine absurd (whole _ (.next rfl (.here _)) ?_ ?_ rfl) ?_
    all_goals decide

end

end Cboot.Ufs
