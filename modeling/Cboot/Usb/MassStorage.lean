import Mathlib.Algebra.Order.Group.Nat
import Cboot.Lib.Pieces

/-!
`drivers/usb/storage/tegrabl_usbmsd_bdev.c` over the host driver `drivers/usbh`.
-/

namespace Cboot.Usb
open Lib

def tegrablUsbmsdSectorSizeLog2 : Nat := 9
def usbmsdMaxReadWriteSectors : UInt32 := 128
def cbwOutFlag : UInt8 := 0x00
def cbwInFlag : UInt8 := 0x80
def cbwCdblength : Nat := 16
def cswSignature : Nat := 0x53425355
def cswPassStat : UInt8 := 0
def cswPhaseStat : UInt8 := 2
def cswSize : Nat := 13
def compStallError : UInt8 := 6
def read10 : UInt8 := 0x28
def write10 : UInt8 := 0x2A
def sz64K : Nat := 0x10000

inductive Error where
  | badParameter
  | notAligned
  | invalid
  | overflow
  | host
  | badSig
  | badTag
  | phaseErr
  | badStatus
  deriving DecidableEq, Repr

/-- What becomes of a transfer, and the completion code that the host context has afterwards. -/
structure Answer where
  ok : Bool
  moved : Nat
  byte : Nat → UInt8
  compCode : UInt8

inductive Phase where
  | command
  | data
  | status
  | statusAgain
  deriving DecidableEq, Repr

abbrev Host : Type := Nat → Phase → Answer

/-- Control requests of the recovery, whose results are not looked at. -/
inductive Request where
  | clearInStall
  | clearOutStall
  | bulkReset
  deriving DecidableEq, Repr

structure Cbw where
  tag : UInt32
  dataTransferLength : UInt32
  flags : UInt8
  lun : UInt8
  length : UInt8
  cdb : List UInt8

/-- The command block of `READ_10` and `WRITE_10`, which the callers fill in and the wrapper pads. -/
def rwCdb (op : UInt8) (block bulkCount : UInt32) : List UInt8 :=
  [op, 0, (block >>> 24).toUInt8, (block >>> 16).toUInt8, (block >>> 8).toUInt8, block.toUInt8, 0,
    (bulkCount >>> 8).toUInt8, bulkCount.toUInt8, 0]

def Cbw.lba (c : Cbw) : Nat :=
  (c.cdb.getD 2 0).toNat * 2 ^ 24 + (c.cdb.getD 3 0).toNat * 2 ^ 16 + (c.cdb.getD 4 0).toNat * 2 ^ 8 + (c.cdb.getD 5 0).toNat

def Cbw.blocks (c : Cbw) : Nat := (c.cdb.getD 7 0).toNat * 2 ^ 8 + (c.cdb.getD 8 0).toNat

abbrev Csw : Type := Nat → UInt8

namespace Csw

def word (c : Csw) (i : Nat) : Nat :=
  (c i).toNat + (c (i + 1)).toNat * 2 ^ 8 + (c (i + 2)).toNat * 2 ^ 16 + (c (i + 3)).toNat * 2 ^ 24

def signature (c : Csw) : Nat := c.word 0
def tag (c : Csw) : Nat := c.word 4
def dataResidue (c : Csw) : Nat := c.word 8
def status (c : Csw) : UInt8 := c 12

end Csw

structure Status where
  ok : Bool
  moved : Nat
  csw : Csw

/-- What happened for one command. The data are at `offset` in the caller's buffer. -/
structure Exchange where
  cbw : Cbw
  offset : Nat
  data : Option Answer
  status : Option Status
  requests : List Request

structure Context where
  tag : UInt32
  /-- What `READ_CAPACITY` stores is a number of 32 bits. -/
  blockCount : UInt32
  currentLun : UInt8
  cswStatus : UInt8

structure Bdev where
  privData : Option Context

structure IoRun where
  result : Except Error Unit
  context : Context
  exchange : Exchange

structure Run where
  result : Except Error Unit
  exchanges : List Exchange

def received (old : Csw) (a : Answer) : Csw := fun i => if i < a.moved then a.byte i else old i

/-- The status phase up to the checks. `tegrabl_xhci_xfer_data` leaves the length as it is, so `tegrabl_usbh_rcv_data` hands
back what was asked for and the check of the length against `CSW_SIZE` passes. -/
def statusOf (host : Phase → Answer) : Status :=
  let first := host .status
  let csw := received (fun _ => 0) first
  if first.compCode = compStallError then
    let again := host .statusAgain
    ⟨again.ok, again.moved, received csw again⟩
  else ⟨first.ok, first.moved, csw⟩

/-- What `usbmsd_get_csw` comes to, and what it asks for on the way. -/
def usbmsdGetCsw (host : Phase → Answer) (tag : UInt32) : Except Error UInt8 × List Request :=
  let s := statusOf host
  let retry := if (host .status).compCode = compStallError then [Request.clearInStall] else []
  if s.csw.signature ≠ cswSignature then (.error .badSig, retry ++ [.bulkReset])
  else if s.csw.tag ≠ tag.toNat then (.error .badTag, retry ++ [.bulkReset])
  else if cswPhaseStat ≤ s.csw.status then
    (.error .phaseErr, retry ++ [.bulkReset, .clearInStall, .clearOutStall])
  else if s.ok then (.ok s.csw.status, retry)
  else (.error .host, retry)

/-- A length that is not 0 and that no transfer of this driver takes beyond `MAX_TRANSFER_SIZE` is one transfer of the host. -/
def tegrablUsbmsdIo (host : Phase → Answer) (context : Context) (isWrite : Bool) (cdb : List UInt8) (offset : Nat)
    (length : UInt32) : IoRun :=
  let cbw : Cbw := ⟨context.tag, length, if isWrite then cbwOutFlag else cbwInFlag, context.currentLun, cdb.length.toUInt8,
    cdb ++ List.replicate (cbwCdblength - cdb.length) 0⟩
  if (host .command).ok then
    let data := if length = 0 then none else some (host .data)
    let clear := if (host .data).compCode = compStallError then
      [if isWrite then Request.clearOutStall else .clearInStall] else []
    -- The error of the data phase is overwritten here.
    let csw := usbmsdGetCsw host context.tag
    let exchange : Exchange := ⟨cbw, offset, data, some (statusOf host), clear ++ csw.2⟩
    let context := { context with tag := context.tag + 1 }
    match csw.1 with
    | .error e => ⟨.error e, context, exchange⟩
    | .ok status =>
      let context := { context with cswStatus := status }
      if status = cswPassStat then ⟨.ok (), context, exchange⟩ else ⟨.error .badStatus, context, exchange⟩
  else ⟨.error .host, context, ⟨cbw, offset, none, none, []⟩⟩

/-- The loop of both functions from command `n` on. -/
def usbmsdBlocks (host : Host) (isWrite : Bool) (op : UInt8) : Nat → Nat → Context → UInt32 → UInt32 → Nat → Run
  | 0, _, _, _, _, _ => ⟨.ok (), []⟩
  | passes + 1, n, context, block, count, offset =>
    if count = 0 then ⟨.ok (), []⟩
    else
      let bulkCount := if count < usbmsdMaxReadWriteSectors then count else usbmsdMaxReadWriteSectors
      let xferLength := bulkCount <<< tegrablUsbmsdSectorSizeLog2.toUInt32
      let io := tegrablUsbmsdIo (host n) context isWrite (rwCdb op block bulkCount) offset xferLength
      match io.result with
      | .error e => ⟨.error e, [io.exchange]⟩
      | .ok () =>
        let rest := usbmsdBlocks host isWrite op passes (n + 1) io.context (block + bulkCount) (count - bulkCount)
          (offset + xferLength.toNat)
        ⟨rest.result, io.exchange :: rest.exchanges⟩

def unaligned (buffer : UInt64) (count : UInt32) : Prop :=
  sz64K < (count.toNat * 2 ^ tegrablUsbmsdSectorSizeLog2) % 2 ^ 32 ∧ buffer.toNat % sz64K ≠ 0

instance (buffer : UInt64) (count : UInt32) : Decidable (unaligned buffer count) := inferInstanceAs (Decidable (_ ∧ _))

def tegrablUsbmsdBdevReadBlock (host : Host) (dev : Option Bdev) (buffer : UInt64) (block count : UInt32) : Run :=
  match dev with
  | none => ⟨.error .badParameter, []⟩
  | some dev =>
    if buffer = 0 then ⟨.error .badParameter, []⟩
    else if unaligned buffer count then ⟨.error .notAligned, []⟩
    else match dev.privData with
      | none => ⟨.error .invalid, []⟩
      | some context =>
        if context.blockCount.toNat < block.toNat + count.toNat then ⟨.error .overflow, []⟩
        else usbmsdBlocks host false read10 count.toNat 0 context block count 0

def tegrablUsbmsdBdevWriteBlock (host : Host) (dev : Option Bdev) (buffer : UInt64) (block count : UInt32) : Run :=
  match dev with
  | none => ⟨.error .badParameter, []⟩
  | some dev =>
    if buffer = 0 then ⟨.error .badParameter, []⟩
    else match dev.privData with
      | none => ⟨.error .invalid, []⟩
      | some context =>
        if context.blockCount.toNat < block.toNat + count.toNat then ⟨.error .overflow, []⟩
        else usbmsdBlocks host true write10 count.toNat 0 context block count 0

/-- All data were moved without an error, and the device said so in a wrapper of its own for this command. -/
def Exchange.Complete (e : Exchange) : Prop :=
  (∃ d, e.data = some d ∧ d.ok ∧ d.moved = e.cbw.blocks * 2 ^ tegrablUsbmsdSectorSizeLog2) ∧
    ∃ s, e.status = some s ∧ s.ok ∧ s.moved = cswSize ∧ s.csw.signature = cswSignature ∧ s.csw.tag = e.cbw.tag.toNat ∧
      s.csw.dataResidue = 0 ∧ s.csw.status = cswPassStat

/-- The commands are complete, and about the blocks of the range one after the other, each with its place of the buffer. -/
structure Moved (block count : Nat) (exchanges : List Exchange) : Prop where
  complete : ∀ e ∈ exchanges, e.Complete
  covers : Tiles (fun e => e.cbw.lba) (fun e => e.cbw.blocks) block (block + count) exchanges
  placed : ∀ e ∈ exchanges, e.offset = (e.cbw.lba - block) * 2 ^ tegrablUsbmsdSectorSizeLog2

def Delivered (block count : UInt32) (run : Run) : Prop :=
  run.result = .ok () → Moved block.toNat count.toNat run.exchanges

/-- What makes a command a success: its wrapper was sent, and one came back without an error of the host. -/
def Accepts (host : Phase → Answer) (tag : UInt32) : Prop :=
  (host .command).ok ∧ (statusOf host).ok ∧ (statusOf host).csw.signature = cswSignature ∧
    (statusOf host).csw.tag = tag.toNat ∧ (statusOf host).csw.status = cswPassStat

def Whole (host : Phase → Answer) (bytes : Nat) : Prop :=
  ((host .data).ok ∧ (host .data).moved = bytes) ∧ (statusOf host).moved = cswSize ∧ (statusOf host).csw.dataResidue = 0

def commands (count : Nat) : Nat := (count + 127) / 128

def chunk (count k : Nat) : Nat := min (count - 128 * k) 128

/-- All commands for `count` blocks are accepted, the first of them being command `n`. -/
def AllAccepted (host : Host) (n : Nat) (tag : UInt32) (count : Nat) : Prop :=
  ∀ k < commands count, Accepts (host (n + k)) (tag + k.toUInt32)

def AllWhole (host : Host) (n count : Nat) : Prop :=
  ∀ k < commands count, Whole (host (n + k)) (chunk count k * 2 ^ tegrablUsbmsdSectorSizeLog2)

def Sound (host : Host) (tag : UInt32) (count : Nat) : Prop := AllAccepted host 0 tag count → AllWhole host 0 count

structure Admits (dev : Option Bdev) (buffer : UInt64) (block count : UInt32) (context : Context) : Prop where
  device : dev = some ⟨some context⟩
  buffer : buffer ≠ 0
  inside : block.toNat + count.toNat ≤ context.blockCount.toNat

section
variable {host : Phase → Answer} {context : Context} {isWrite : Bool} {op : UInt8} {block bulk len : UInt32} {offset n : Nat}

theorem toNat_bytes4 (block : UInt32) : (block >>> 24).toUInt8.toNat * 2 ^ 24 + (block >>> 16).toUInt8.toNat * 2 ^ 16 +
    (block >>> 8).toUInt8.toNat * 2 ^ 8 + block.toUInt8.toNat = block.toNat := by
  have bound := block.toNat_lt
  simp only [UInt32.toNat_toUInt8, UInt32.toNat_shiftRight, Nat.shiftRight_eq_div_pow]
  change block.toNat / 2 ^ 24 % 2 ^ 8 * 2 ^ 24 + block.toNat / 2 ^ 16 % 2 ^ 8 * 2 ^ 16 +
    block.toNat / 2 ^ 8 % 2 ^ 8 * 2 ^ 8 + block.toNat % 2 ^ 8 = block.toNat
  omega

theorem toNat_bytes2 (small : bulk.toNat < 2 ^ 16) : (bulk >>> 8).toUInt8.toNat * 2 ^ 8 + bulk.toUInt8.toNat = bulk.toNat := by
  simp only [UInt32.toNat_toUInt8, UInt32.toNat_shiftRight, Nat.shiftRight_eq_div_pow]
  change bulk.toNat / 2 ^ 8 % 2 ^ 8 * 2 ^ 8 + bulk.toNat % 2 ^ 8 = bulk.toNat
  omega

theorem usbmsdGetCsw_ok_iff {tag : UInt32} : (∃ status, (usbmsdGetCsw host tag).1 = .ok status ∧ status = cswPassStat) ↔
    (statusOf host).ok ∧ (statusOf host).csw.signature = cswSignature ∧ (statusOf host).csw.tag = tag.toNat ∧
      (statusOf host).csw.status = cswPassStat := by
  constructor
  · rintro ⟨status, done, pass⟩
    simp only [usbmsdGetCsw] at done
    split at done
    · cases done
    · rename_i signature
      split at done
      · cases done
      · rename_i tag
        split at done
        · cases done
        · split at done
          · rename_i ok
            exact ⟨ok, not_not.mp signature, not_not.mp tag, (Except.ok.inj done).trans pass⟩
          · cases done
  · rintro ⟨ok, signature, tag, pass⟩
    refine ⟨_, ?_, pass⟩
    simp [usbmsdGetCsw, ok, signature, tag, pass, cswPhaseStat, cswPassStat]

theorem tegrablUsbmsdIo_ok_iff : (tegrablUsbmsdIo host context isWrite (rwCdb op block bulk) offset len).result = .ok () ↔
    Accepts host context.tag := by
  rw [Accepts, ← usbmsdGetCsw_ok_iff]
  by_cases sent : (host .command).ok
  · cases done : (usbmsdGetCsw host context.tag).1 with
    | error e => simp [tegrablUsbmsdIo, sent, done]
    | ok status => by_cases pass : status = cswPassStat <;> simp [tegrablUsbmsdIo, sent, done, pass]
  · simp [tegrablUsbmsdIo, sent]

theorem tegrablUsbmsdIo_exchange (host : Phase → Answer) (context : Context) (isWrite : Bool) (op : UInt8)
    (block bulk len : UInt32) (offset : Nat) :
    let e := (tegrablUsbmsdIo host context isWrite (rwCdb op block bulk) offset len).exchange
    e.cbw.tag = context.tag ∧ e.cbw.cdb = rwCdb op block bulk ++ List.replicate 6 0 ∧ e.offset = offset := by
  have pad : cbwCdblength - (rwCdb op block bulk).length = 6 := rfl
  unfold tegrablUsbmsdIo
  generalize usbmsdGetCsw host context.tag = csw
  obtain ⟨result, requests⟩ := csw
  by_cases sent : (host .command).ok
  · cases result with
    | error e => simp [sent, pad]
    | ok status => by_cases pass : status = cswPassStat <;> simp [sent, pass, pad]
  · simp [sent, pad]

theorem tegrablUsbmsdIo_accepted (isWrite : Bool) (op : UInt8) (block bulk len : UInt32) (offset : Nat)
    (accepts : Accepts host context.tag) :
    let io := tegrablUsbmsdIo host context isWrite (rwCdb op block bulk) offset len
    io.context.tag = context.tag + 1 ∧ io.exchange.status = some (statusOf host) ∧
      io.exchange.data = if len = 0 then none else some (host .data) := by
  obtain ⟨status, done, pass⟩ := usbmsdGetCsw_ok_iff.mpr accepts.2
  simp [tegrablUsbmsdIo, accepts.1, done, pass]

theorem tegrablUsbmsdIo_step (isWrite : Bool) (op : UInt8) (block bulk len : UInt32) (offset : Nat)
    (accepts : Accepts host context.tag) (small : bulk.toNat < 2 ^ 16) (some_bytes : len ≠ 0) :
    let io := tegrablUsbmsdIo host context isWrite (rwCdb op block bulk) offset len
    io.context.tag = context.tag + 1 ∧ io.exchange.cbw.lba = block.toNat ∧ io.exchange.cbw.blocks = bulk.toNat ∧
      io.exchange.offset = offset ∧
      (io.exchange.Complete ↔ Whole host (bulk.toNat * 2 ^ tegrablUsbmsdSectorSizeLog2)) := by
  intro io
  obtain ⟨next, status, data⟩ := tegrablUsbmsdIo_accepted isWrite op block bulk len offset accepts
  obtain ⟨tag, cdb, place⟩ := tegrablUsbmsdIo_exchange host context isWrite op block bulk len offset
  have lba : io.exchange.cbw.lba = block.toNat := by
    rw [Cbw.lba, cdb]
    exact toNat_bytes4 block
  have blocks : io.exchange.cbw.blocks = bulk.toNat := by
    rw [Cbw.blocks, cdb]
    exact toNat_bytes2 small
  refine ⟨next, lba, blocks, place, ?_⟩
  obtain ⟨-, ok, signature, sameTag, pass⟩ := accepts
  rw [Exchange.Complete, status, data, if_neg some_bytes, blocks, tag, Whole]
  simp [ok, signature, sameTag, pass]

def bulkOf (count : UInt32) : UInt32 := if count < usbmsdMaxReadWriteSectors then count else usbmsdMaxReadWriteSectors

theorem toNat_bulkOf (count : UInt32) : (bulkOf count).toNat = min count.toNat 128 := by
  rw [bulkOf]
  split
  · rename_i less
    exact (Nat.min_eq_left (Nat.le_of_lt (UInt32.lt_iff_toNat_lt.mp less))).symm
  · rename_i more
    exact (Nat.min_eq_right (UInt32.le_iff_toNat_le.mp (UInt32.not_lt.mp more))).symm

theorem toNat_bytes (small : bulk.toNat ≤ 128) :
    (bulk <<< tegrablUsbmsdSectorSizeLog2.toUInt32).toNat = bulk.toNat * 2 ^ tegrablUsbmsdSectorSizeLog2 := by
  rw [UInt32.toNat_shiftLeft, Nat.shiftLeft_eq]
  change bulk.toNat * 2 ^ 9 % 2 ^ 32 = bulk.toNat * 2 ^ 9
  omega

variable {count : Nat}

theorem commands_succ (some_blocks : count ≠ 0) : commands count = commands (count - min count 128) + 1 := by
  rw [commands, commands]
  omega

theorem chunk_zero (count : Nat) : chunk count 0 = min count 128 := rfl

theorem chunk_succ (count k : Nat) : chunk count (k + 1) = chunk (count - min count 128) k := by
  rw [chunk, chunk]
  omega

theorem forall_commands_succ (some_blocks : count ≠ 0) (p : Nat → Prop) :
    (∀ k < commands count, p k) ↔ p 0 ∧ ∀ k < commands (count - min count 128), p (k + 1) := by
  rw [commands_succ some_blocks]
  exact Nat.forall_lt_succ_left

theorem allAccepted_succ {host : Host} {tag : UInt32} (some_blocks : count ≠ 0) :
    AllAccepted host n tag count ↔ Accepts (host n) tag ∧ AllAccepted host (n + 1) (tag + 1) (count - min count 128) := by
  have next : ∀ k : Nat, tag + (k + 1).toUInt32 = tag + 1 + k.toUInt32 := fun k => by
    rw [UInt32.add_assoc, UInt32.add_comm 1, Nat.toUInt32, UInt32.ofNat_add]
    rfl
  have place : ∀ k, n + (k + 1) = n + 1 + k := fun k => by omega
  rw [AllAccepted, forall_commands_succ some_blocks, Nat.add_zero]
  refine and_congr ?_ (forall₂_congr fun k _ => ?_)
  · rw [show tag + (0 : Nat).toUInt32 = tag from UInt32.add_zero tag]
  · rw [next, place]

theorem allWhole_succ {host : Host} (some_blocks : count ≠ 0) :
    AllWhole host n count ↔ Whole (host n) (min count 128 * 2 ^ tegrablUsbmsdSectorSizeLog2) ∧
      AllWhole host (n + 1) (count - min count 128) := by
  have place : ∀ k, n + (k + 1) = n + 1 + k := fun k => by omega
  rw [AllWhole, forall_commands_succ some_blocks, chunk_zero, Nat.add_zero]
  exact and_congr Iff.rfl (forall₂_congr fun k _ => by rw [chunk_succ, place])

theorem usbmsdBlocks_spec (host : Host) (isWrite : Bool) (op : UInt8) (passes : Nat) :
    ∀ (n : Nat) (context : Context) (block count : UInt32) (offset : Nat), count.toNat ≤ passes →
      block.toNat + count.toNat < 2 ^ 32 → let run := usbmsdBlocks host isWrite op passes n context block count offset
      (run.result = .ok () ↔ AllAccepted host n context.tag count.toNat) ∧ (run.result = .ok () →
        ((∀ e ∈ run.exchanges, e.Complete) ↔ AllWhole host n count.toNat) ∧
        Tiles (fun e => e.cbw.lba) (fun e => e.cbw.blocks) block.toNat (block.toNat + count.toNat) run.exchanges ∧
        ∀ e ∈ run.exchanges, e.offset = offset + (e.cbw.lba - block.toNat) * 2 ^ tegrablUsbmsdSectorSizeLog2) := by
  have accepted : ∀ (n : Nat) (tag : UInt32), AllAccepted host n tag 0 := fun _ _ k less => absurd less (Nat.not_lt_zero k)
  have whole : ∀ n, AllWhole host n 0 := fun _ k less => absurd less (Nat.not_lt_zero k)
  induction passes with
  | zero =>
    intro n context block count offset enough inside run
    have none : count.toNat = 0 := Nat.le_zero.mp enough
    simp [run, usbmsdBlocks, Tiles, none, accepted, whole]
  | succ passes ih =>
    intro n context block count offset enough inside run
    by_cases none : count = 0
    · simp [run, usbmsdBlocks, none, Tiles, accepted, whole]
    · have some_blocks : count.toNat ≠ 0 := fun zero => none (UInt32.toNat_inj.mp zero)
      have bulk := toNat_bulkOf count
      have less : (bulkOf count).toNat ≤ count.toNat := by omega
      have bytes := @toNat_bytes (bulkOf count) (by omega)
      have some_bytes : bulkOf count <<< tegrablUsbmsdSectorSizeLog2.toUInt32 ≠ 0 := fun zero => by
        rw [zero, tegrablUsbmsdSectorSizeLog2] at bytes
        change 0 = _ at bytes
        omega
      have left : (count - bulkOf count).toNat = count.toNat - min count.toNat 128 := by
        rw [UInt32.toNat_sub_of_le _ _ (UInt32.le_iff_toNat_le.mpr less), bulk]
      have next : (block + bulkOf count).toNat = block.toNat + min count.toNat 128 := by
        rw [UInt32.toNat_add, bulk, Nat.mod_eq_of_lt (by omega)]
      have small : (bulkOf count).toNat < 2 ^ 16 := by omega
      have accepted_iff : (tegrablUsbmsdIo (host n) context isWrite (rwCdb op block (bulkOf count)) offset
          (bulkOf count <<< tegrablUsbmsdSectorSizeLog2.toUInt32)).result = .ok () ↔ Accepts (host n) context.tag :=
        tegrablUsbmsdIo_ok_iff
      have step := @tegrablUsbmsdIo_step (host n) context isWrite op block (bulkOf count)
        (bulkOf count <<< tegrablUsbmsdSectorSizeLog2.toUInt32) offset
      simp only [run, usbmsdBlocks, if_neg none]
      rw [← bulkOf]
      generalize tegrablUsbmsdIo (host n) context isWrite (rwCdb op block (bulkOf count)) offset
        (bulkOf count <<< tegrablUsbmsdSectorSizeLog2.toUInt32) = io at accepted_iff step ⊢
      obtain ⟨result, after, exchange⟩ := io
      cases result with
      | error e =>
        have refused : ¬ Accepts (host n) context.tag := fun accepts => nomatch accepted_iff.mpr accepts
        rw [allAccepted_succ some_blocks]
        exact ⟨⟨nofun, fun all => absurd all.1 refused⟩, nofun⟩
      | ok =>
        have accepts := accepted_iff.mp rfl
        obtain ⟨tag, lba, blocks, place, complete⟩ := step accepts small some_bytes
        dsimp only at tag lba blocks place complete
        obtain ⟨all, rest⟩ := ih (n + 1) after (block + bulkOf count) (count - bulkOf count)
          (offset + (bulkOf count <<< tegrablUsbmsdSectorSizeLog2.toUInt32).toNat) (by omega) (by omega)
        rw [tag, left] at all
        rw [left, next] at rest
        refine ⟨?_, fun done => ?_⟩
        · rw [all, allAccepted_succ some_blocks]
          exact ⟨fun more => ⟨accepts, more⟩, And.right⟩
        · obtain ⟨whole, tiles, placed⟩ := rest done
          refine ⟨?_, ⟨lba, ?_, ?_⟩, ?_⟩
          · rw [List.forall_mem_cons, complete, whole, allWhole_succ some_blocks, bulk]
          · dsimp only
            omega
          · dsimp only
            rw [blocks, bulk]
            rwa [Nat.add_assoc, Nat.add_sub_cancel' (Nat.min_le_left _ _)] at tiles
          · intro e member
            rcases List.mem_cons.mp member with rfl | later
            · rw [place, lba, Nat.sub_self, Nat.zero_mul, Nat.add_zero]
            · have low := (tiles.bounds later).1
              have apart : e.cbw.lba - block.toNat = min count.toNat 128 + (e.cbw.lba - (block.toNat + min count.toNat 128)) := by
                omega
              rw [placed e later, bytes, bulk, apart, Nat.add_mul, Nat.add_assoc]

end

section
variable {host : Host} {dev : Option Bdev} {buffer : UInt64} {block count : UInt32} {context : Context}

theorem usbmsdBlocks_delivered_iff (isWrite : Bool) (op : UInt8) (inside : block.toNat + count.toNat < 2 ^ 32) :
    Delivered block count (usbmsdBlocks host isWrite op count.toNat 0 context block count 0) ↔
      Sound host context.tag count.toNat := by
  obtain ⟨accepted, cut⟩ := usbmsdBlocks_spec host isWrite op count.toNat 0 context block count 0 (Nat.le_refl _) inside
  rw [Sound, ← accepted]
  constructor
  · intro delivered done
    exact (cut done).1.mp (delivered done).complete
  · intro sound done
    obtain ⟨complete, covers, placed⟩ := cut done
    exact ⟨complete.mpr (sound done), covers, fun e member => by rw [placed e member, Nat.zero_add]⟩

theorem tegrablUsbmsdBdevReadBlock_admitted (admits : Admits dev buffer block count context) (aligned : ¬ unaligned buffer count) :
    tegrablUsbmsdBdevReadBlock host dev buffer block count =
      usbmsdBlocks host false read10 count.toNat 0 context block count 0 := by
  obtain ⟨rfl, some_buffer, inside⟩ := admits
  simp [tegrablUsbmsdBdevReadBlock, some_buffer, aligned, inside]

theorem tegrablUsbmsdBdevWriteBlock_admitted (admits : Admits dev buffer block count context) :
    tegrablUsbmsdBdevWriteBlock host dev buffer block count =
      usbmsdBlocks host true write10 count.toNat 0 context block count 0 := by
  obtain ⟨rfl, some_buffer, inside⟩ := admits
  simp [tegrablUsbmsdBdevWriteBlock, some_buffer, inside]

theorem tegrablUsbmsdBdevReadBlock_refused (refused : ∀ context, ¬ (Admits dev buffer block count context ∧ ¬ unaligned buffer count)) :
    (tegrablUsbmsdBdevReadBlock host dev buffer block count).result ≠ .ok () := by
  unfold tegrablUsbmsdBdevReadBlock
  split
  · nofun
  · rename_i dev
    obtain ⟨privData⟩ := dev
    split
    · nofun
    · rename_i some_buffer
      split
      · nofun
      · rename_i aligned
        cases privData with
        | none => nofun
        | some context =>
          dsimp only
          split
          · nofun
          · rename_i inside
            exact absurd ⟨⟨rfl, some_buffer, Nat.not_lt.mp inside⟩, aligned⟩ (refused context)

theorem tegrablUsbmsdBdevWriteBlock_refused (refused : ∀ context, ¬ Admits dev buffer block count context) :
    (tegrablUsbmsdBdevWriteBlock host dev buffer block count).result ≠ .ok () := by
  unfold tegrablUsbmsdBdevWriteBlock
  split
  · nofun
  · rename_i dev
    obtain ⟨privData⟩ := dev
    split
    · nofun
    · rename_i some_buffer
      cases privData with
      | none => nofun
      | some context =>
        dsimp only
        split
        · nofun
        · rename_i inside
          exact absurd ⟨rfl, some_buffer, Nat.not_lt.mp inside⟩ (refused context)

theorem Admits.lt (admits : Admits dev buffer block count context) : block.toNat + count.toNat < 2 ^ 32 :=
  Nat.lt_of_le_of_lt admits.inside context.blockCount.toNat_lt

/-- What the request stands for holds exactly where the commands that are accepted are whole. -/
theorem tegrablUsbmsdBdev_delivered_iff (host : Host) (dev : Option Bdev) (buffer : UInt64) (block count : UInt32) :
    (Delivered block count (tegrablUsbmsdBdevReadBlock host dev buffer block count) ↔
      ∀ context, Admits dev buffer block count context → ¬ unaligned buffer count → Sound host context.tag count.toNat) ∧
    (Delivered block count (tegrablUsbmsdBdevWriteBlock host dev buffer block count) ↔
      ∀ context, Admits dev buffer block count context → Sound host context.tag count.toNat) := by
  constructor
  · constructor
    · intro delivered context admits aligned
      rw [tegrablUsbmsdBdevReadBlock_admitted admits aligned, usbmsdBlocks_delivered_iff _ _ admits.lt] at delivered
      exact delivered
    · intro sound
      by_cases admitted : ∃ context, Admits dev buffer block count context ∧ ¬ unaligned buffer count
      · obtain ⟨context, admits, aligned⟩ := admitted
        rw [tegrablUsbmsdBdevReadBlock_admitted admits aligned, usbmsdBlocks_delivered_iff _ _ admits.lt]
        exact sound context admits aligned
      · exact fun done => absurd done (tegrablUsbmsdBdevReadBlock_refused (not_exists.mp admitted))
  · constructor
    · intro delivered context admits
      rw [tegrablUsbmsdBdevWriteBlock_admitted admits, usbmsdBlocks_delivered_iff _ _ admits.lt] at delivered
      exact delivered
    · intro sound
      by_cases admitted : ∃ context, Admits dev buffer block count context
      · obtain ⟨context, admits⟩ := admitted
        rw [tegrablUsbmsdBdevWriteBlock_admitted admits, usbmsdBlocks_delivered_iff _ _ admits.lt]
        exact sound context admits
      · exact fun done => absurd done (tegrablUsbmsdBdevWriteBlock_refused (not_exists.mp admitted))

end

def passing (residue : UInt8 × UInt8) (data : Answer) : Host := fun _ phase =>
  match phase with
  | .data => data
  | _ => ⟨true, 13, fun i => [0x55, 0x53, 0x42, 0x53, 1, 0, 0, 0, residue.1, residue.2, 0, 0, 0].getD i 0, 1⟩

def smallStick : Context := ⟨1, 8, 0, 0⟩

theorem tegrablUsbmsdBdev_short :
    (tegrablUsbmsdBdevReadBlock (passing (156, 1) ⟨true, 100, fun _ => 7, 1⟩) (some ⟨some smallStick⟩) 0x10000 2 1).result = .ok () ∧
    ¬ Delivered 2 1 (tegrablUsbmsdBdevReadBlock (passing (156, 1) ⟨true, 100, fun _ => 7, 1⟩) (some ⟨some smallStick⟩) 0x10000 2 1) ∧
    (tegrablUsbmsdBdevWriteBlock (passing (0, 0) ⟨false, 0, fun _ => 0, 4⟩) (some ⟨some smallStick⟩) 0x10000 2 1).result = .ok () ∧
    ¬ Delivered 2 1 (tegrablUsbmsdBdevWriteBlock (passing (0, 0) ⟨false, 0, fun _ => 0, 4⟩) (some ⟨some smallStick⟩) 0x10000 2 1) := by
  have admits : Admits (some ⟨some smallStick⟩) 0x10000 2 1 smallStick := ⟨rfl, by decide, by decide⟩
  have one : ∀ {residue data}, AllAccepted (passing residue data) 0 1 1 := by
    intro residue data k less
    obtain rfl : k = 0 := Nat.lt_one_iff.mp less
    refine ⟨rfl, rfl, ?_, ?_, rfl⟩
    · simp [statusOf, passing, received, compStallError, Csw.signature, Csw.word, cswSignature]
    · simp [statusOf, passing, received, compStallError, Csw.tag, Csw.word]
  rw [tegrablUsbmsdBdevReadBlock_admitted admits (by decide), tegrablUsbmsdBdevWriteBlock_admitted admits,
    usbmsdBlocks_delivered_iff _ _ admits.lt, usbmsdBlocks_delivered_iff _ _ admits.lt]
  refine ⟨?_, fun sound => ?_, ?_, fun sound => ?_⟩
  · exact (usbmsdBlocks_spec _ _ _ _ 0 smallStick 2 1 0 (Nat.le_refl _) admits.lt).1.mpr one
  · exact absurd (sound one 0 (by decide)).1.2 (by decide)
  · exact (usbmsdBlocks_spec _ _ _ _ 0 smallStick 2 1 0 (Nat.le_refl _) admits.lt).1.mpr one
  · exact absurd (sound one 0 (by decide)).1.1 (by decide)

end Cboot.Usb
