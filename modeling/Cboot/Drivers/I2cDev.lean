import Cboot.Lib.ByteMemory
import Cboot.Lib.Codec
import Cboot.Lib.Loop

/-!
`drivers/i2c_dev/tegrabl_i2c_dev.c`. A transfer is cut into transactions of no more than `MAX_I2C_TRANSFER_SIZE` bytes.
-/

namespace Cboot.I2cDev
open Lib

def maxI2cTransferSize : UInt32 := 0x1000

inductive Status where
  | ok
  | badParameter
  | tooLarge
  | noMemory
  | sendFailed
  | readFailed
  | fault
deriving DecidableEq

/-- Bytes that are sent, or a part of the caller's buffer that bytes are received in. -/
inductive Transaction where
  | write (repeatStart : Bool) (bytes : List UInt8)
  | read (repeatStart : Bool) (dest len : Nat)
deriving DecidableEq

structure Dev where
  regAddrSize : UInt32
  bytesPerReg : UInt32

structure State where
  currRegAddr : UInt32
  regsRemaining : UInt32
  j : UInt32
  log : List Transaction

structure Ended where
  status : Status
  log : List Transaction

abbrev Bus : Type := List Transaction → Transaction → Bool

def divFloor (n d : UInt32) : UInt32 := (n - n % d) / d

/-- The registers of the next transaction, where `overhead` bytes are sent before them. -/
def regsToTransfer (dev : Dev) (overhead regsRemaining : UInt32) : UInt32 :=
  if regsRemaining * dev.bytesPerReg + overhead < maxI2cTransferSize then regsRemaining
  else divFloor (maxI2cTransferSize - overhead) dev.bytesPerReg

def addressBytes (dev : Dev) (currRegAddr : UInt32) : List UInt8 :=
  (List.range (max 1 dev.regAddrSize.toNat)).map fun i => ((currRegAddr >>> (8 * UInt32.ofNat i)) &&& 0xFF).toUInt8

section
variable (bus : Bus) (dev : Dev)

def finish (regsRemaining : UInt32) (s : State) : Pass State Ended :=
  if regsRemaining ≠ 0 then .next s else .leave ⟨.ok, s.log⟩

/-- The buffer of the caller has `size` bytes. -/
def readPass (size : Nat) (s : State) : Pass State Ended :=
  let regs := regsToTransfer dev 0 s.regsRemaining
  let regsRemaining := s.regsRemaining - regs
  let address := Transaction.write true (addressBytes dev s.currRegAddr)
  let i := regs * dev.bytesPerReg
  let data := Transaction.read (regsRemaining ≠ 0) s.j.toNat i.toNat
  if dev.regAddrSize.toNat < (addressBytes dev s.currRegAddr).length ∨ size < s.j.toNat + i.toNat then .leave ⟨.fault, s.log⟩
  else if ¬ bus s.log address then .leave ⟨.sendFailed, s.log ++ [address]⟩
  else if ¬ bus (s.log ++ [address]) data then .leave ⟨.readFailed, s.log ++ [address, data]⟩
  else finish regsRemaining ⟨s.currRegAddr + regs, regsRemaining, s.j + i, s.log ++ [address, data]⟩

def bufferSize (regCount : UInt32) : UInt32 :=
  let all := dev.regAddrSize + regCount * dev.bytesPerReg
  if all < maxI2cTransferSize then all else maxI2cTransferSize

def writePass (buf : Mem) (regCount : UInt32) (s : State) : Pass State Ended :=
  let regs := regsToTransfer dev dev.regAddrSize s.regsRemaining
  let regsRemaining := s.regsRemaining - regs
  let len := regs * dev.bytesPerReg
  let bytes := addressBytes dev s.currRegAddr ++ bytesAt buf s.j.toNat len.toNat
  let all := Transaction.write (regsRemaining ≠ 0) bytes
  if (bufferSize dev regCount).toNat < bytes.length ∨ (regCount * dev.bytesPerReg).toNat < s.j.toNat + len.toNat then
    .leave ⟨.fault, s.log⟩
  else if ¬ bus s.log all then .leave ⟨.sendFailed, s.log ++ [all]⟩
  else finish regsRemaining ⟨s.currRegAddr + regs, regsRemaining, s.j + len, s.log ++ [all]⟩

end

/-- The checks before the loop. No device stands for a null handle or a null buffer. -/
def guarded (dev : Option Dev) (memory : Bool) (loop : Dev → Option Ended) : Option Ended :=
  match dev with
  | none => some ⟨.badParameter, []⟩
  | some dev =>
    if dev.regAddrSize > 4 then some ⟨.tooLarge, []⟩
    else if ¬ memory then some ⟨.noMemory, []⟩
    else loop dev

def tegrablI2cDevRead (bus : Bus) (dev : Option Dev) (memory : Bool) (regAddr regCount : UInt32) (fuel : Nat) : Option Ended :=
  guarded dev memory fun dev =>
    runLoop (readPass bus dev (regCount * dev.bytesPerReg).toNat) fuel ⟨regAddr, regCount, 0, []⟩

def tegrablI2cDevWrite (bus : Bus) (dev : Option Dev) (memory : Bool) (buf : Mem) (regAddr regCount : UInt32) (fuel : Nat) :
    Option Ended :=
  guarded dev memory fun dev => runLoop (writePass bus dev buf regCount) fuel ⟨regAddr, regCount, 0, []⟩

structure Chunk where
  first : Nat
  count : Nat

/-- One chunk after the other covers the registers from `a` to `b`. -/
def Cuts : Nat → Nat → List Chunk → Prop
  | _, _, [] => False
  | a, b, [c] => c.first = a ∧ a + c.count = b
  | a, b, c :: rest => c.first = a ∧ 0 < c.count ∧ Cuts (a + c.count) b rest

/-- What goes to the bus for a chunk, and whether there is another one behind it. -/
abbrev Entry : Type := Chunk → Bool → List Transaction

def logOf (entry : Entry) : List Chunk → List Transaction
  | [] => []
  | c :: rest => entry c (!rest.isEmpty) ++ logOf entry rest

def readEntry (dev : Dev) (regAddr : UInt32) : Entry := fun c more =>
  [.write true (leDigits dev.regAddrSize.toNat (regAddr.toNat + c.first)),
    .read more (c.first * dev.bytesPerReg.toNat) (c.count * dev.bytesPerReg.toNat)]

def writeEntry (dev : Dev) (buf : Mem) (regAddr : UInt32) : Entry := fun c more =>
  [.write more (leDigits dev.regAddrSize.toNat (regAddr.toNat + c.first) ++
    bytesAt buf (c.first * dev.bytesPerReg.toNat) (c.count * dev.bytesPerReg.toNat))]

def Transferred (dev : Dev) (overhead : Nat) (entry : Entry) (regCount : UInt32) (ended : Ended) : Prop :=
  ∃ chunks, Cuts 0 regCount.toNat chunks ∧
    (∀ c ∈ chunks, overhead + c.count * dev.bytesPerReg.toNat ≤ maxI2cTransferSize.toNat) ∧
    ended = ⟨.ok, logOf entry chunks⟩

structure Fits (dev : Dev) (regCount : UInt32) : Prop where
  address : 1 ≤ dev.regAddrSize.toNat ∧ dev.regAddrSize.toNat ≤ 4
  reg : 1 ≤ dev.bytesPerReg.toNat ∧ dev.bytesPerReg.toNat + dev.regAddrSize.toNat ≤ maxI2cTransferSize.toNat
  all : dev.regAddrSize.toNat + regCount.toNat * dev.bytesPerReg.toNat < 2 ^ 32

theorem toNat_divFloor (n d : UInt32) : (divFloor n d).toNat = n.toNat / d.toNat := by
  have low : n % d ≤ n := by
    rw [UInt32.le_iff_toNat_le, UInt32.toNat_mod]
    exact Nat.mod_le _ _
  have whole := Nat.div_add_mod n.toNat d.toNat
  unfold divFloor
  rw [UInt32.toNat_div, UInt32.toNat_sub_of_le _ _ low, UInt32.toNat_mod,
    show n.toNat - n.toNat % d.toNat = d.toNat * (n.toNat / d.toNat) by omega]
  obtain zero | positive := Nat.eq_zero_or_pos d.toNat
  · simp [zero]
  · exact Nat.mul_div_cancel_left _ positive

variable {dev : Dev} {overhead regsRemaining : UInt32}

theorem toNat_bytes {regs : UInt32} (small : regs.toNat * dev.bytesPerReg.toNat < 2 ^ 32) :
    (regs * dev.bytesPerReg).toNat = regs.toNat * dev.bytesPerReg.toNat := by
  rw [UInt32.toNat_mul, Nat.mod_eq_of_lt small]

theorem regsToTransfer_spec (overhead regsRemaining : UInt32) (one : 1 ≤ dev.bytesPerReg.toNat)
    (fits : dev.bytesPerReg.toNat + overhead.toNat ≤ maxI2cTransferSize.toNat)
    (small : regsRemaining.toNat * dev.bytesPerReg.toNat + overhead.toNat < 2 ^ 32) :
    (regsToTransfer dev overhead regsRemaining).toNat ≤ regsRemaining.toNat ∧
      (regsRemaining.toNat ≠ 0 → (regsToTransfer dev overhead regsRemaining).toNat ≠ 0) ∧
      overhead.toNat + (regsToTransfer dev overhead regsRemaining).toNat * dev.bytesPerReg.toNat ≤
        maxI2cTransferSize.toNat := by
  have total : (regsRemaining * dev.bytesPerReg + overhead).toNat =
      regsRemaining.toNat * dev.bytesPerReg.toNat + overhead.toNat := by
    rw [UInt32.toNat_add, toNat_bytes (by omega), Nat.mod_eq_of_lt small]
  unfold regsToTransfer
  by_cases last : regsRemaining * dev.bytesPerReg + overhead < maxI2cTransferSize
  · rw [if_pos last]
    rw [UInt32.lt_iff_toNat_lt, total] at last
    exact ⟨Nat.le_refl _, id, by omega⟩
  · rw [if_neg last, toNat_divFloor, UInt32.toNat_sub_of_le _ _ (UInt32.le_iff_toNat_le.mpr (by omega))]
    rw [UInt32.lt_iff_toNat_lt, total] at last
    have fill := Nat.div_mul_le_self (maxI2cTransferSize.toNat - overhead.toNat) dev.bytesPerReg.toNat
    refine ⟨?_, fun _ => ?_, by omega⟩
    · apply Nat.le_of_mul_le_mul_right _ one
      omega
    · have := Nat.div_pos (show dev.bytesPerReg.toNat ≤ maxI2cTransferSize.toNat - overhead.toNat by omega) one
      omega

theorem leDigits_mod (n v : Nat) : leDigits n (v % 256 ^ n) = leDigits n v := by
  have again := leDigits_ofLeDigits (leDigits n v)
  rwa [length_leDigits, ofLeDigits_leDigits] at again

theorem leDigits_wrapped {n : Nat} (v : Nat) (small : n ≤ 4) : leDigits n (v % 2 ^ 32) = leDigits n v := by
  have divides : 256 ^ n ∣ 2 ^ 32 := by
    have whole : (2 : Nat) ^ 32 = 256 ^ 4 := by decide
    rw [whole]
    exact Nat.pow_dvd_pow 256 small
  rw [← leDigits_mod n (v % 2 ^ 32), Nat.mod_mod_of_dvd _ divides, leDigits_mod]

theorem leDigits_eq_map (n v : Nat) : leDigits n v = (List.range n).map fun i => UInt8.ofNat (v / 256 ^ i) := by
  induction n generalizing v with
  | zero => rfl
  | succ n ih =>
    rw [leDigits, ih, List.range_succ_eq_map, List.map_cons, List.map_map]
    simp [Function.comp_def, Nat.div_div_eq_div_mul, Nat.pow_succ']

theorem shifted_byte (v : UInt32) {i : Nat} (small : i < 4) :
    ((v >>> (8 * UInt32.ofNat i)) &&& 0xFF).toUInt8 = UInt8.ofNat (v.toNat / 256 ^ i) := by
  have shift : (8 * UInt32.ofNat i).toNat % 32 = 8 * i := by
    have eight : (8 : UInt32).toNat = 8 := rfl
    rw [UInt32.toNat_mul, UInt32.toNat_ofNat', eight]
    omega
  apply UInt8.toNat_inj.mp
  rw [UInt32.toNat_toUInt8, UInt32.toNat_and, UInt32.toNat_shiftRight, shift, Nat.shiftRight_eq_div_pow, Nat.pow_mul]
  have mask : (0xFF : UInt32).toNat = 2 ^ 8 - 1 := rfl
  have base : (2 : Nat) ^ 8 = 256 := rfl
  rw [mask, Nat.and_two_pow_sub_one_eq_mod, UInt8.toNat_ofNat', base, Nat.mod_mod]

theorem addressBytes_eq (currRegAddr : UInt32) (address : 1 ≤ dev.regAddrSize.toNat ∧ dev.regAddrSize.toNat ≤ 4) :
    addressBytes dev currRegAddr = leDigits dev.regAddrSize.toNat currRegAddr.toNat := by
  unfold addressBytes
  rw [Nat.max_eq_right address.1, leDigits_eq_map]
  apply List.map_congr_left
  intro i below
  exact shifted_byte currRegAddr (Nat.lt_of_lt_of_le (List.mem_range.mp below) address.2)

/-- The registers before `a` have been transferred, and those up to `b` remain. -/
structure At (dev : Dev) (regAddr : UInt32) (a b : Nat) (s : State) : Prop where
  address : s.currRegAddr.toNat = (regAddr.toNat + a) % 2 ^ 32
  place : s.j.toNat = a * dev.bytesPerReg.toNat
  remaining : a + s.regsRemaining.toNat = b

def behind (dev : Dev) (overhead : UInt32) (transactions : List Transaction) (s : State) : State :=
  let regs := regsToTransfer dev overhead s.regsRemaining
  ⟨s.currRegAddr + regs, s.regsRemaining - regs, s.j + regs * dev.bytesPerReg, s.log ++ transactions⟩

theorem cuts_cons {a b : Nat} {c : Chunk} {rest : List Chunk} (first : c.first = a) (some_ : 0 < c.count)
    (cuts : Cuts (a + c.count) b rest) : Cuts a b (c :: rest) ∧ rest.isEmpty = false := by
  cases rest with
  | nil => exact cuts.elim
  | cons d rest => exact ⟨⟨first, some_, cuts⟩, rfl⟩

theorem returns_cut {pass : State → Pass State Ended} {entry : Entry} {regAddr : UInt32} {b : Nat} (overhead : UInt32)
    (one : 1 ≤ dev.bytesPerReg.toNat) (fits : dev.bytesPerReg.toNat + overhead.toNat ≤ maxI2cTransferSize.toNat)
    (small : overhead.toNat + b * dev.bytesPerReg.toNat < 2 ^ 32) (step : ∀ a s, At dev regAddr a b s →
      let regs := regsToTransfer dev overhead s.regsRemaining
      pass s = finish (s.regsRemaining - regs)
        (behind dev overhead (entry ⟨a, regs.toNat⟩ (s.regsRemaining - regs ≠ 0)) s))
    (a : Nat) (s : State) (at_ : At dev regAddr a b s) : ∃ chunks, Cuts a b chunks ∧
      (∀ c ∈ chunks, overhead.toNat + c.count * dev.bytesPerReg.toNat ≤ maxI2cTransferSize.toNat) ∧
      LoopReturns pass s ⟨.ok, s.log ++ logOf entry chunks⟩ := by
  induction size : s.regsRemaining.toNat using Nat.strongRecOn generalizing a s with
  | ind n ih =>
    obtain ⟨address, place, remaining⟩ := at_
    have part : (a + s.regsRemaining.toNat) * dev.bytesPerReg.toNat = b * dev.bytesPerReg.toNat := by rw [remaining]
    rw [Nat.add_mul] at part
    obtain ⟨le, more, fit⟩ := regsToTransfer_spec overhead s.regsRemaining one fits (by omega)
    have taken := step a s ⟨address, place, remaining⟩
    dsimp only [behind] at taken
    generalize regsToTransfer dev overhead s.regsRemaining = regs at *
    have left : (s.regsRemaining - regs).toNat = s.regsRemaining.toNat - regs.toNat :=
      UInt32.toNat_sub_of_le _ _ (UInt32.le_iff_toNat_le.mpr le)
    by_cases done : s.regsRemaining - regs = 0
    · have all : a + regs.toNat = b := by
        rw [done] at left
        have none : (0 : UInt32).toNat = 0 := rfl
        omega
      refine ⟨[⟨a, regs.toNat⟩], ⟨rfl, all⟩, by simpa using fit, ?_⟩
      apply returns_of_leave
      rw [taken]
      simp [finish, done, logOf]
    · have rest : s.regsRemaining.toNat - regs.toNat ≠ 0 := by
        intro none
        exact done (UInt32.toNat_inj.mp (left.trans none))
      have some_ := more (by omega)
      have bytes : (regs * dev.bytesPerReg).toNat = regs.toNat * dev.bytesPerReg.toNat := toNat_bytes (by
        have : maxI2cTransferSize.toNat = 4096 := rfl
        omega)
      have covered := Nat.mul_le_mul_right dev.bytesPerReg.toNat le
      have now : At dev regAddr (a + regs.toNat) b ⟨s.currRegAddr + regs, s.regsRemaining - regs,
          s.j + regs * dev.bytesPerReg, s.log ++ entry ⟨a, regs.toNat⟩ true⟩ := by
        refine ⟨?_, ?_, ?_⟩
        · simp only [UInt32.toNat_add, address]
          omega
        · simp only [UInt32.toNat_add, bytes, place, Nat.add_mul]
          omega
        · simp only [left]
          omega
      obtain ⟨chunks, cuts, each, returns⟩ := ih _ (by simp only [left]; omega) _ _ now rfl
      obtain ⟨cuts', others⟩ := cuts_cons (c := ⟨a, regs.toNat⟩) rfl (Nat.pos_of_ne_zero some_) cuts
      refine ⟨⟨a, regs.toNat⟩ :: chunks, cuts', List.forall_mem_cons.mpr ⟨fit, each⟩, ?_⟩
      rw [logOf, others, ← List.append_assoc]
      apply returns_of_next _ returns
      rw [taken]
      simp [finish, done]

variable {bus : Bus} {regAddr regCount : UInt32}

theorem At.spec {a : Nat} {s : State} (overhead : UInt32) (fits : Fits dev regCount)
    (at_ : At dev regAddr a regCount.toNat s) (low : overhead.toNat ≤ dev.regAddrSize.toNat) :
    addressBytes dev s.currRegAddr = leDigits dev.regAddrSize.toNat (regAddr.toNat + a) ∧
      (regsToTransfer dev overhead s.regsRemaining * dev.bytesPerReg).toNat =
        (regsToTransfer dev overhead s.regsRemaining).toNat * dev.bytesPerReg.toNat ∧
      a * dev.bytesPerReg.toNat + (regsToTransfer dev overhead s.regsRemaining).toNat * dev.bytesPerReg.toNat ≤
        regCount.toNat * dev.bytesPerReg.toNat ∧
      overhead.toNat + (regsToTransfer dev overhead s.regsRemaining).toNat * dev.bytesPerReg.toNat ≤
        maxI2cTransferSize.toNat := by
  obtain ⟨address, place, remaining⟩ := at_
  have all := fits.all
  have part : (a + s.regsRemaining.toNat) * dev.bytesPerReg.toNat = regCount.toNat * dev.bytesPerReg.toNat := by
    rw [remaining]
  rw [Nat.add_mul] at part
  obtain ⟨le, -, fit⟩ := regsToTransfer_spec overhead s.regsRemaining fits.reg.1
    (by have := fits.reg.2; omega) (by omega)
  have covered := Nat.mul_le_mul_right dev.bytesPerReg.toNat le
  refine ⟨?_, toNat_bytes (by omega), by omega, fit⟩
  rw [addressBytes_eq s.currRegAddr fits.address, address, leDigits_wrapped _ fits.address.2]

theorem at_start (dev : Dev) (regAddr regCount : UInt32) : At dev regAddr 0 regCount.toNat ⟨regAddr, regCount, 0, []⟩ := by
  refine ⟨?_, by simp, by simp⟩
  have := regAddr.toNat_lt
  simp only [Nat.add_zero]
  omega

theorem read_returns (fits : Fits dev regCount) (succeeds : ∀ log t, bus log t = true) :
    ∃ ended, LoopReturns (readPass bus dev (regCount * dev.bytesPerReg).toNat) ⟨regAddr, regCount, 0, []⟩ ended ∧
      Transferred dev 0 (readEntry dev regAddr) regCount ended := by
  have all := fits.all
  have size : (regCount * dev.bytesPerReg).toNat = regCount.toNat * dev.bytesPerReg.toNat := toNat_bytes (by omega)
  have step (a : Nat) (s : State) (at_ : At dev regAddr a regCount.toNat s) :
      readPass bus dev (regCount * dev.bytesPerReg).toNat s =
        finish (s.regsRemaining - regsToTransfer dev 0 s.regsRemaining)
          (behind dev 0 (readEntry dev regAddr ⟨a, (regsToTransfer dev 0 s.regsRemaining).toNat⟩
            (s.regsRemaining - regsToTransfer dev 0 s.regsRemaining ≠ 0)) s) := by
    obtain ⟨address, bytes, inside, -⟩ := at_.spec 0 fits (Nat.zero_le _)
    have place := at_.place
    unfold readPass
    dsimp only
    rw [if_neg]
    · simp [succeeds, address, bytes, place, behind, readEntry]
    · rw [address, length_leDigits, size, place, bytes]
      omega
  obtain ⟨chunks, cuts, each, returns⟩ := returns_cut 0 fits.reg.1 (by have := fits.reg.2; simp; omega)
    (by simp; omega) step 0 _ (at_start dev regAddr regCount)
  exact ⟨_, returns, chunks, cuts, each, rfl⟩

theorem write_returns (buf : Mem) (fits : Fits dev regCount) (succeeds : ∀ log t, bus log t = true) :
    ∃ ended, LoopReturns (writePass bus dev buf regCount) ⟨regAddr, regCount, 0, []⟩ ended ∧
      Transferred dev dev.regAddrSize.toNat (writeEntry dev buf regAddr) regCount ended := by
  have all := fits.all
  have size : (regCount * dev.bytesPerReg).toNat = regCount.toNat * dev.bytesPerReg.toNat := toNat_bytes (by omega)
  have buffer : (bufferSize dev regCount).toNat =
      min (dev.regAddrSize.toNat + regCount.toNat * dev.bytesPerReg.toNat) maxI2cTransferSize.toNat := by
    have total : (dev.regAddrSize + regCount * dev.bytesPerReg).toNat =
        dev.regAddrSize.toNat + regCount.toNat * dev.bytesPerReg.toNat := by
      rw [UInt32.toNat_add, size, Nat.mod_eq_of_lt all]
    unfold bufferSize
    dsimp only
    split <;> rename_i less <;> rw [UInt32.lt_iff_toNat_lt, total] at less <;> omega
  have step (a : Nat) (s : State) (at_ : At dev regAddr a regCount.toNat s) :
      writePass bus dev buf regCount s = finish (s.regsRemaining - regsToTransfer dev dev.regAddrSize s.regsRemaining)
          (behind dev dev.regAddrSize (writeEntry dev buf regAddr
            ⟨a, (regsToTransfer dev dev.regAddrSize s.regsRemaining).toNat⟩
            (s.regsRemaining - regsToTransfer dev dev.regAddrSize s.regsRemaining ≠ 0)) s) := by
    obtain ⟨address, bytes, inside, fit⟩ := at_.spec dev.regAddrSize fits (Nat.le_refl _)
    have place := at_.place
    unfold writePass
    dsimp only
    rw [if_neg]
    · simp [succeeds, address, bytes, place, behind, writeEntry]
    · rw [address, List.length_append, length_leDigits, length_bytesAt, size, place, bytes, buffer]
      omega
  obtain ⟨chunks, cuts, each, returns⟩ := returns_cut dev.regAddrSize fits.reg.1 fits.reg.2 all step 0 _
    (at_start dev regAddr regCount)
  exact ⟨_, returns, chunks, cuts, each, rfl⟩

def Answered (memory : Bool) (result : Nat → Option Ended) (good : Ended → Prop) : Prop :=
  ∃ ended fuel, result fuel = some ended ∧ if memory then good ended else ended = ⟨.noMemory, []⟩

theorem answered_guarded {memory : Bool} {loop : Nat → Dev → Option Ended} {good : Ended → Prop} (fits : Fits dev regCount)
    (returns : ∃ ended, (∃ fuel, loop fuel dev = some ended) ∧ good ended) :
    Answered memory (fun fuel => guarded (some dev) memory (loop fuel)) good := by
  have small : ¬ dev.regAddrSize > 4 := by
    have four : (4 : UInt32).toNat = 4 := rfl
    have := fits.address.2
    rw [gt_iff_lt, UInt32.lt_iff_toNat_lt]
    omega
  obtain ⟨ended, ⟨fuel, ran⟩, right⟩ := returns
  cases memory with
  | true => exact ⟨ended, fuel, (if_neg small).trans ran, right⟩
  | false => exact ⟨_, fuel, if_neg small, rfl⟩

/-- Reads and writes come to an end. -/
theorem tegrablI2cDev_transferred (bus : Bus) (dev : Dev) (memory : Bool) (buf : Mem) (regAddr regCount : UInt32)
    (fits : Fits dev regCount) (succeeds : ∀ log t, bus log t = true) :
    Answered memory (tegrablI2cDevRead bus (some dev) memory regAddr regCount)
      (Transferred dev 0 (readEntry dev regAddr) regCount) ∧
    Answered memory (tegrablI2cDevWrite bus (some dev) memory buf regAddr regCount)
      (Transferred dev dev.regAddrSize.toNat (writeEntry dev buf regAddr) regCount) :=
  ⟨answered_guarded fits (read_returns fits succeeds), answered_guarded fits (write_returns buf fits succeeds)⟩

def twoBytes : Dev := ⟨2, 2⟩

theorem tegrablI2cDev_transferred_twoBytes :
    Answered true (tegrablI2cDevRead (fun _ _ => true) (some twoBytes) true 0x10 3000)
      (Transferred twoBytes 0 (readEntry twoBytes 0x10) 3000) ∧
    Answered true (tegrablI2cDevWrite (fun _ _ => true) (some twoBytes) true (fun _ => 0) 0x10 3000)
      (Transferred twoBytes 2 (writeEntry twoBytes (fun _ => 0) 0x10) 3000) :=
  tegrablI2cDev_transferred (fun _ _ => true) twoBytes true (fun _ => 0) 0x10 3000
    ⟨by decide, by decide, by decide⟩ fun _ _ => rfl

end Cboot.I2cDev
