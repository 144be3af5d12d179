import Cboot.Lib.Register
import Cboot.Utils.Crc32

/-!
The reflected CRC-32, bit by bit, and `tegrabl_utils_crc32` against it.
-/

namespace Cboot.Utils
open Lib.Register

def byteBits (b : UInt8) : List Bool := (List.range 8).map b.toBitVec.getLsbD

def bitsOf (s : List UInt8) : List Bool := s.flatMap byteBits

def polynomial : BitVec 32 := 0xEDB88320#32

def standardCrc32 (s : List UInt8) : BitVec 32 := ~~~feed polynomial (BitVec.allOnes 32) (bitsOf s)

example : standardCrc32 [49, 50, 51, 52, 53, 54, 55, 56, 57] = 0xCBF43926#32 := by decide +kernel

section
variable {s a b : List UInt8} {start : Nat}

@[simp] theorem length_byteBits (c : UInt8) : (byteBits c).length = 8 := by simp [byteBits]

theorem length_bitsOf (s : List UInt8) : (bitsOf s).length = 8 * s.length := by
  induction s with
  | nil => rfl
  | cons c s ih => rw [bitsOf, List.flatMap_cons, List.length_append, length_byteBits, ← bitsOf, ih, List.length_cons, Nat.mul_succ, Nat.add_comm]

theorem pack_byteBits (c : UInt8) : (pack (byteBits c) : BitVec 32) = c.toBitVec.setWidth 32 := by
  ext i inside
  rw [← BitVec.getLsbD_eq_getElem inside, getLsbD_pack _ inside, ← BitVec.getLsbD_eq_getElem inside,
    BitVec.getLsbD_setWidth]
  by_cases low : i < 8
  · simp [byteBits, inside, low]
  · rw [List.getD_eq_default _ _ (by simpa using Nat.le_of_not_lt low), BitVec.getLsbD_of_ge _ _ (Nat.le_of_not_lt low)]
    simp

theorem byteBits_injective {c d : UInt8} (same : byteBits c = byteBits d) : c = d := by
  have packed := congrArg (pack : List Bool → BitVec 32) same
  rw [pack_byteBits, pack_byteBits] at packed
  have cut := congrArg (BitVec.setWidth 8) packed
  simpa [UInt8.toBitVec_inj] using cut

theorem bitsOf_injective (long : a.length = b.length) (same : bitsOf a = bitsOf b) : a = b := by
  induction a generalizing b with
  | nil => exact (List.length_eq_zero_iff.mp long.symm).symm
  | cons c a ih =>
    cases b with
    | nil => cases long
    | cons d b =>
      have parts : byteBits c ++ bitsOf a = byteBits d ++ bitsOf b := same
      obtain ⟨first, rest⟩ := List.append_inj parts (by simp)
      rw [byteBits_injective first, ih (Nat.succ.inj long) rest]

theorem tegrablCrc32Tab_eq : ∀ i < 256, (tegrablCrc32Tab.getD i 0).toBitVec = shifts polynomial 8 (BitVec.ofNat 32 i) := by
  decide +kernel

theorem crc32Step_eq (crc : UInt32) (c : UInt8) :
    (crc32Step crc c).toBitVec = feed polynomial crc.toBitVec (byteBits c) := by
  have small : ((crc ^^^ c.toUInt32) &&& 0xFF).toNat < 256 := by
    rw [UInt32.toNat_and]
    exact Nat.lt_of_le_of_lt Nat.and_le_right (by decide)
  have entry := tegrablCrc32Tab_eq _ small
  have index : BitVec.ofNat 32 ((crc ^^^ c.toUInt32) &&& 0xFF).toNat = low 8 (crc ^^^ c.toUInt32).toBitVec := by
    rw [← UInt32.toNat_toBitVec, BitVec.ofNat_toNat, BitVec.setWidth_eq]
    rfl
  have gone : (c.toUInt32).toBitVec >>> 8 = 0#32 := by
    ext i inside
    rw [← BitVec.getLsbD_eq_getElem inside, BitVec.getLsbD_ushiftRight]
    simp
  have high : (crc ^^^ c.toUInt32).toBitVec >>> 8 = (crc >>> 8).toBitVec := by
    rw [UInt32.toBitVec_xor, BitVec.ushiftRight_xor_distrib, gone, BitVec.xor_zero]
    rfl
  calc (crc32Step crc c).toBitVec
      = shifts polynomial 8 (low 8 (crc ^^^ c.toUInt32).toBitVec) ^^^ (crc >>> 8).toBitVec := by
        rw [crc32Step, UInt32.toBitVec_xor, entry, index]
    _ = shifts polynomial 8 (crc ^^^ c.toUInt32).toBitVec := by rw [shifts_low polynomial 8 (crc ^^^ _).toBitVec, high]
    _ = feed polynomial crc.toBitVec (byteBits c) := by
        rw [feed_eq _ _ (by simp), length_byteBits, pack_byteBits]
        rfl

theorem foldl_crc32Step (crc : UInt32) (s : List UInt8) :
    (s.foldl crc32Step crc).toBitVec = feed polynomial crc.toBitVec (bitsOf s) := by
  induction s generalizing crc with
  | nil => rfl
  | cons c s ih =>
    have next : feed polynomial crc.toBitVec (bitsOf (c :: s)) =
        feed polynomial (feed polynomial crc.toBitVec (byteBits c)) (bitsOf s) := feed_append _ _ _ _
    rw [List.foldl_cons, ih, crc32Step_eq, next]

theorem tegrablUtilsCrc32_eq (s : List UInt8) : (tegrablUtilsCrc32 0 s).toBitVec = standardCrc32 s := by
  rw [tegrablUtilsCrc32, UInt32.toBitVec_xor, foldl_crc32Step, standardCrc32]
  exact BitVec.xor_allOnes

theorem around_window (bits : List Bool) (start width : Nat) :
    bits = bits.take start ++ (bits.drop start).take width ++ bits.drop (start + width) := by
  rw [← List.drop_drop, List.append_assoc, List.take_append_drop, List.take_append_drop]

theorem same_around {first second : List Bool} {width : Nat}
    (same : ∀ i, i < start ∨ start + width ≤ i → first[i]? = second[i]?) :
    first.take start = second.take start ∧ first.drop (start + width) = second.drop (start + width) := by
  constructor
  · refine List.ext_getElem? fun i => ?_
    rw [List.getElem?_take, List.getElem?_take]
    split
    case isTrue before => exact same i (.inl before)
    case isFalse => rfl
  · refine List.ext_getElem? fun i => ?_
    rw [List.getElem?_drop, List.getElem?_drop]
    exact same _ (.inr (Nat.le_add_right _ _))

theorem bursts_differ (long : a.length = b.length) (other : a ≠ b)
    (window : ∀ i, (bitsOf a)[i]? ≠ (bitsOf b)[i]? → start ≤ i ∧ i < start + 32) :
    standardCrc32 a ≠ standardCrc32 b := by
  intro same
  have outside : ∀ i, i < start ∨ start + 32 ≤ i → (bitsOf a)[i]? = (bitsOf b)[i]? := by
    intro i outside
    refine Classical.not_not.mp fun differ => ?_
    have := window i differ
    omega
  obtain ⟨before, behind⟩ := same_around outside
  have fed : feed polynomial (BitVec.allOnes 32) (bitsOf a) = feed polynomial (BitVec.allOnes 32) (bitsOf b) := by
    simpa [standardCrc32] using same
  rw [around_window (bitsOf a) start 32, around_window (bitsOf b) start 32, before, behind] at fed
  have length : ((bitsOf a).drop start).length = ((bitsOf b).drop start).length := by
    rw [List.length_drop, List.length_drop, length_bitsOf, length_bitsOf, long]
  have inside := feed_burst (by decide) _ _ _ (by rw [List.length_take, List.length_take, length])
    (List.length_take_le _ _) fed
  refine other (bitsOf_injective long ?_)
  rw [around_window (bitsOf a) start 32, around_window (bitsOf b) start 32, before, behind, inside]

end

/-- The CRC of the code is the standard one, it goes on from a CRC of what came before, and it tells strings from each
other that differ in a burst of no more bits than it has. -/
theorem tegrablUtilsCrc32_standard : (∀ s, (tegrablUtilsCrc32 0 s).toBitVec = standardCrc32 s) ∧
      (∀ a b, tegrablUtilsCrc32 (tegrablUtilsCrc32 0 a) b = tegrablUtilsCrc32 0 (a ++ b)) ∧
      ∀ (a b : List UInt8) (start : Nat), a.length = b.length → a ≠ b →
        (∀ i, (bitsOf a)[i]? ≠ (bitsOf b)[i]? → start ≤ i ∧ i < start + 32) →
        tegrablUtilsCrc32 0 a ≠ tegrablUtilsCrc32 0 b := by
  refine ⟨tegrablUtilsCrc32_eq, fun a b => (tegrablUtilsCrc32_append 0 a b).symm, ?_⟩
  intro a b start long other window same
  refine bursts_differ long other window ?_
  rw [← tegrablUtilsCrc32_eq, ← tegrablUtilsCrc32_eq, same]

end Cboot.Utils
