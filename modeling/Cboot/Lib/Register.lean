import Mathlib.Algebra.Group.Nat.Defs
import Mathlib.Data.List.GetD

/-!
A register of `w` bits over GF(2). What leaves it at the low end is fed back at the places of a polynomial, and bits are
fed in at the same end.
-/

namespace Cboot.Lib.Register

variable {w : Nat}

def shift (poly x : BitVec w) : BitVec w := if x.getLsbD 0 then x >>> 1 ^^^ poly else x >>> 1

def shifts (poly : BitVec w) : Nat → BitVec w → BitVec w
  | 0, x => x
  | n + 1, x => shifts poly n (shift poly x)

def bit (b : Bool) : BitVec w := (BitVec.ofBool b).setWidth w

def feed (poly : BitVec w) (x : BitVec w) (bits : List Bool) : BitVec w :=
  bits.foldl (fun x b => shift poly (x ^^^ bit b)) x

def pack : List Bool → BitVec w
  | [] => 0#w
  | b :: bits => bit b ^^^ pack bits <<< 1

section
variable {poly x y : BitVec w} {first second before behind : List Bool}

theorem cancel (a b p : BitVec w) : a ^^^ p ^^^ (b ^^^ p) = a ^^^ b := by
  rw [BitVec.xor_comm b p, ← BitVec.xor_assoc, BitVec.xor_assoc a p p, BitVec.xor_self, BitVec.xor_zero]

theorem shift_xor (poly x y : BitVec w) : shift poly (x ^^^ y) = shift poly x ^^^ shift poly y := by
  simp only [shift, BitVec.getLsbD_xor, BitVec.ushiftRight_xor_distrib]
  cases x.getLsbD 0 <;> cases y.getLsbD 0
  · simp
  · simp [BitVec.xor_assoc]
  · simp only [Bool.bne_false, if_true, Bool.false_eq_true, if_false]
    rw [BitVec.xor_assoc, BitVec.xor_assoc, BitVec.xor_comm poly]
  · simp [cancel]

theorem shifts_xor (poly : BitVec w) (n : Nat) (x y : BitVec w) :
    shifts poly n (x ^^^ y) = shifts poly n x ^^^ shifts poly n y := by
  induction n generalizing x y with
  | zero => rfl
  | succ n ih => rw [shifts, shift_xor, ih, shifts, shifts]

theorem shift_up (poly : BitVec w) (clear : x.msb = false) : shift poly (x <<< 1) = x := by
  have low : (x <<< 1).getLsbD 0 = false := by simp
  rw [shift, low, if_neg Bool.false_ne_true]
  ext i inside
  rw [BitVec.getElem_ushiftRight, BitVec.getLsbD_shiftLeft]
  by_cases last : 1 + i < w
  · simp [last, BitVec.getLsbD_eq_getElem inside]
  · have top : i = w - 1 := by omega
    rw [BitVec.msb_eq_getLsbD_last, ← top, BitVec.getLsbD_eq_getElem inside] at clear
    simp [last, clear]

theorem shift_eq_zero (top : poly.msb = true) (none : shift poly x = 0#w) : x = 0#w := by
  cases low : x.getLsbD 0 with
  | true =>
    rw [shift, low, if_pos rfl, BitVec.xor_eq_zero_iff] at none
    have shifted : (x >>> 1).msb = false := by simp
    rw [none, top] at shifted
    cases shifted
  | false =>
    rw [shift, low, if_neg Bool.false_ne_true] at none
    ext i inside
    cases i with
    | zero => simpa [BitVec.getLsbD_eq_getElem inside] using low
    | succ i =>
      have moved := congrArg (fun z => z.getLsbD i) none
      rw [BitVec.getLsbD_ushiftRight, BitVec.getLsbD_zero, Nat.add_comm] at moved
      rw [← BitVec.getLsbD_eq_getElem inside, moved, BitVec.getElem_zero]

theorem shift_injective (top : poly.msb = true) (same : shift poly x = shift poly y) : x = y := by
  refine BitVec.xor_eq_zero_iff.mp (shift_eq_zero top ?_)
  rw [shift_xor, same, BitVec.xor_self]

theorem shifts_injective (top : poly.msb = true) {n : Nat} (same : shifts poly n x = shifts poly n y) : x = y := by
  induction n generalizing x y with
  | zero => exact same
  | succ n ih => exact shift_injective top (ih same)

@[simp] theorem feed_nil : feed poly x [] = x := rfl

@[simp] theorem feed_cons (b : Bool) (bits : List Bool) :
    feed poly x (b :: bits) = feed poly (shift poly (x ^^^ bit b)) bits := rfl

theorem feed_append (poly x : BitVec w) (first second : List Bool) :
    feed poly x (first ++ second) = feed poly (feed poly x first) second := List.foldl_append

theorem feed_injective (top : poly.msb = true) (bits : List Bool) (same : feed poly x bits = feed poly y bits) :
    x = y := by
  induction bits generalizing x y with
  | nil => exact same
  | cons b bits ih => exact (BitVec.xor_left_inj _).mp (shift_injective top (ih same))

theorem getLsbD_pack (bits : List Bool) {i : Nat} (inside : i < w) :
    (pack bits : BitVec w).getLsbD i = bits.getD i false := by
  induction bits generalizing i with
  | nil => simp [pack]
  | cons b bits ih =>
    rw [pack, BitVec.getLsbD_xor, BitVec.getLsbD_shiftLeft, bit, BitVec.getLsbD_setWidth, BitVec.getLsbD_ofBool]
    cases i with
    | zero => simp [inside]
    | succ i => simp [inside, ih (Nat.lt_of_succ_lt inside)]

theorem pack_injective (same : (pack first : BitVec w) = pack second) (long : first.length = second.length)
    (fits : first.length ≤ w) : first = second := by
  refine List.ext_getElem long fun i low high => ?_
  have bits := congrArg (fun z => z.getLsbD i) same
  simp only [getLsbD_pack _ (Nat.lt_of_lt_of_le low fits)] at bits
  rwa [List.getD_eq_getElem _ _ low, List.getD_eq_getElem _ _ high] at bits

theorem feed_eq (poly x : BitVec w) {bits : List Bool} (fits : bits.length ≤ w) :
    feed poly x bits = shifts poly bits.length (x ^^^ pack bits) := by
  induction bits generalizing x with
  | nil => simp [shifts, pack]
  | cons b bits ih =>
    have fewer : bits.length < w := fits
    have clear : (pack bits : BitVec w).msb = false := by
      rw [BitVec.msb_eq_getLsbD_last, getLsbD_pack _ (by omega), List.getD_eq_default _ _ (by omega)]
    rw [feed_cons, ih _ (Nat.le_of_lt fewer), pack, List.length_cons, shifts, ← BitVec.xor_assoc,
      shift_xor poly (x ^^^ bit b), shift_up poly clear]

theorem feed_burst (top : poly.msb = true) (x : BitVec w) (before behind : List Bool)
    (long : first.length = second.length) (fits : first.length ≤ w)
    (same : feed poly x (before ++ first ++ behind) = feed poly x (before ++ second ++ behind)) : first = second := by
  rw [feed_append poly x, feed_append poly x, feed_append poly x, feed_append poly x] at same
  have window := feed_injective top behind same
  have other : second.length ≤ w := long ▸ fits
  rw [feed_eq _ _ fits, feed_eq _ _ other, ← long] at window
  exact pack_injective ((BitVec.xor_right_inj _).mp (shifts_injective top window)) long fits

def low (n : Nat) (x : BitVec w) : BitVec w := x &&& BitVec.ofNat w (2 ^ n - 1)

theorem getLsbD_low (n : Nat) (x : BitVec w) (i : Nat) : (low n x).getLsbD i = (x.getLsbD i && decide (i < n)) := by
  rw [low, BitVec.getLsbD_and, BitVec.getLsbD_ofNat, Nat.testBit_two_pow_sub_one]
  by_cases inside : i < w
  · simp [inside]
  · simp [BitVec.getLsbD_of_ge x i (by omega)]

theorem low_xor_high (n : Nat) (x : BitVec w) : low n x ^^^ x >>> n <<< n = x := by
  ext i inside
  rw [BitVec.getElem_xor, ← BitVec.getLsbD_eq_getElem inside, ← BitVec.getLsbD_eq_getElem inside,
    ← BitVec.getLsbD_eq_getElem inside, getLsbD_low, BitVec.getLsbD_shiftLeft, BitVec.getLsbD_ushiftRight]
  by_cases below : i < n
  · simp [below]
  · simp [below, inside, Nat.add_sub_cancel' (Nat.le_of_not_lt below)]

theorem shifts_up (poly : BitVec w) (n : Nat) (clear : ∀ i, w ≤ i + n → x.getLsbD i = false) :
    shifts poly n (x <<< n) = x := by
  induction n generalizing x with
  | zero => simp [shifts]
  | succ n ih =>
    have top : (x <<< n).msb = false := by
      rw [BitVec.msb_eq_getLsbD_last, BitVec.getLsbD_shiftLeft]
      by_cases far : n ≤ w - 1
      · simp [clear (w - 1 - n) (by omega)]
      · simp [Nat.lt_of_not_le far]
    rw [shifts, BitVec.shiftLeft_add, shift_up poly top]
    exact ih fun i far => clear i (by omega)

theorem shifts_low (poly : BitVec w) (n : Nat) (x : BitVec w) :
    shifts poly n x = shifts poly n (low n x) ^^^ x >>> n := by
  have high : shifts poly n (x >>> n <<< n) = x >>> n := by
    refine shifts_up poly n fun i far => ?_
    rw [BitVec.getLsbD_ushiftRight, BitVec.getLsbD_of_ge _ _ (by omega)]
  calc shifts poly n x = shifts poly n (low n x ^^^ x >>> n <<< n) := by rw [low_xor_high]
    _ = shifts poly n (low n x) ^^^ x >>> n := by rw [shifts_xor, high]

end

end Cboot.Lib.Register
