import Mathlib.Data.Nat.Bitwise
import Mathlib.Data.UInt

/-!
A field is `w` bits from bit `s` on. A store to a field changes no other field.
-/

namespace Cboot.Lib.BitField

def mask (n w : Nat) : BitVec n := BitVec.ofNat n (2 ^ w - 1)

theorem getLsbD_mask (n w i : Nat) : (mask n w).getLsbD i = (decide (i < n) && decide (i < w)) := by
  rw [mask, BitVec.getLsbD_ofNat, Nat.testBit_two_pow_sub_one]

def get {n : Nat} (s w : Nat) (x : BitVec n) : BitVec n := (x >>> s) &&& mask n w

def set {n : Nat} (s w : Nat) (v x : BitVec n) : BitVec n :=
  (x &&& ~~~(mask n w <<< s)) ||| ((v &&& mask n w) <<< s)

section
variable {n s w : Nat} (v x : BitVec n)

theorem getLsbD_set {i : Nat} (high : i < n) : (set s w v x).getLsbD i =
    if s ≤ i ∧ i < s + w then v.getLsbD (i - s) else x.getLsbD i := by
  simp only [set, BitVec.getLsbD_or, BitVec.getLsbD_and, BitVec.getLsbD_not, BitVec.getLsbD_shiftLeft,
    getLsbD_mask, high]
  by_cases low : i < s
  · have outside : ¬ (s ≤ i ∧ i < s + w) := by omega
    simp [low, outside]
  · by_cases short : i - s < w
    · have inside : s ≤ i ∧ i < s + w := by omega
      have bounded : i - s < n := by omega
      simp [low, short, inside, bounded]
    · have outside : ¬ (s ≤ i ∧ i < s + w) := by omega
      simp [low, short, outside]

theorem get_set_same (fits : s + w ≤ n) : get s w (set s w v x) = v &&& mask n w := by
  apply BitVec.eq_of_getLsbD_eq
  intro i inside
  simp only [get, BitVec.getLsbD_and, BitVec.getLsbD_ushiftRight, getLsbD_mask]
  by_cases short : i < w
  · have range : s ≤ s + i ∧ s + i < s + w := by omega
    rw [getLsbD_set v x (by omega), if_pos range, Nat.add_sub_cancel_left]
  · simp [short]

theorem get_set_other {s' w' : Nat} (fits : s' + w' ≤ n) (apart : s' + w' ≤ s ∨ s + w ≤ s') :
    get s' w' (set s w v x) = get s' w' x := by
  apply BitVec.eq_of_getLsbD_eq
  intro i inside
  simp only [get, BitVec.getLsbD_and, BitVec.getLsbD_ushiftRight, getLsbD_mask]
  by_cases short : i < w'
  · have range : ¬ (s ≤ s' + i ∧ s' + i < s + w) := by omega
    rw [getLsbD_set v x (by omega), if_neg range]
  · simp [short]

theorem shift_mask : (x &&& (mask n w <<< s)) >>> s = get s w x := by
  apply BitVec.eq_of_getLsbD_eq
  intro i inside
  simp only [get, BitVec.getLsbD_ushiftRight, BitVec.getLsbD_and, BitVec.getLsbD_shiftLeft, getLsbD_mask]
  by_cases bounded : s + i < n
  · have above : ¬ s + i < s := by omega
    simp [bounded, above]
  · simp [BitVec.getLsbD_of_ge x (s + i) (by omega)]

end

def mask32 (w : Nat) : UInt32 := ⟨mask 32 w⟩
def get32 (s w : Nat) (x : UInt32) : UInt32 := ⟨get s w x.toBitVec⟩
def set32 (s w : Nat) (v x : UInt32) : UInt32 := ⟨set s w v.toBitVec x.toBitVec⟩

section
variable {s w : Nat} (v x : UInt32)

theorem get32_set32_same (fits : s + w ≤ 32) : get32 s w (set32 s w v x) = v &&& mask32 w :=
  UInt32.toBitVec_inj.mp (get_set_same v.toBitVec x.toBitVec fits)

theorem get32_set32_other {s' w' : Nat} (fits : s' + w' ≤ 32) (apart : s' + w' ≤ s ∨ s + w ≤ s') :
    get32 s' w' (set32 s w v x) = get32 s' w' x :=
  UInt32.toBitVec_inj.mp (get_set_other v.toBitVec x.toBitVec fits apart)

theorem get32_lt (s w : Nat) : (get32 s w x).toNat < 2 ^ w := by
  have masked : (get32 s w x).toNat = (x.toBitVec >>> s).toNat &&& (mask 32 w).toNat :=
    BitVec.toNat_and _ _
  have low : (mask 32 w).toNat ≤ 2 ^ w - 1 := Nat.mod_le _ _
  have positive := Nat.two_pow_pos w
  have below := Nat.and_le_right (n := (x.toBitVec >>> s).toNat) (m := (mask 32 w).toNat)
  omega

end

end Cboot.Lib.BitField

namespace Cboot.Lib.Align

theorem clear_add {n : Nat} (x m : BitVec n) : (x &&& ~~~m).toNat + (x &&& m).toNat = x.toNat := by
  have apart : (x &&& ~~~m) &&& (x &&& m) = 0#n := by
    apply BitVec.eq_of_getLsbD_eq
    intro i bound
    rw [BitVec.getLsbD_and, BitVec.getLsbD_and, BitVec.getLsbD_and, BitVec.getLsbD_not, BitVec.getLsbD_zero]
    cases m.getLsbD i <;> simp
  rw [← BitVec.toNat_add_of_and_eq_zero apart, BitVec.add_eq_or_of_and_eq_zero _ _ apart]
  congr 1
  apply BitVec.eq_of_getLsbD_eq
  intro i bound
  rw [BitVec.getLsbD_or, BitVec.getLsbD_and, BitVec.getLsbD_and, BitVec.getLsbD_not]
  cases m.getLsbD i <;> simp [bound]

theorem toNat_clear (x m : UInt64) {k : Nat} (low : m.toNat = 2 ^ k - 1) :
    (x &&& ~~~m).toNat = x.toNat - x.toNat % 2 ^ k := by
  have sum : (x &&& ~~~m).toNat + (x &&& m).toNat = x.toNat := clear_add x.toBitVec m.toBitVec
  rw [UInt64.toNat_and x m, low, Nat.and_two_pow_sub_one_eq_mod] at sum
  omega

end Cboot.Lib.Align
