import Mathlib.Tactic.Ring

/-!
A memory is a function from addresses to bytes. `readLE` and `writeLE` access little-endian words of any width.
-/

namespace Cboot.Lib

abbrev Mem := Nat → UInt8

/-- The little-endian word of `n` bytes at `a`. -/
def readLE (m : Mem) (a : Nat) : Nat → Nat
  | 0 => 0
  | n + 1 => (m a).toNat + 256 * readLE m (a + 1) n

/-- `m` with the low `n` bytes of `v` stored little-endian at `a`. -/
def writeLE (m : Mem) (a n v : Nat) : Mem :=
  fun x => if a ≤ x ∧ x < a + n then UInt8.ofNat (v / 256 ^ (x - a)) else m x

/-- `m` with the bytes `[a, a + n)` set to `b`. -/
def fillBytes (m : Mem) (a n : Nat) (b : UInt8) : Mem :=
  fun x => if a ≤ x ∧ x < a + n then b else m x

/-- `m` with the `n` bytes of `src` at `a` copied to `dst`. -/
def blit (m : Mem) (dst : Nat) (src : Mem) (a n : Nat) : Mem :=
  fun x => if dst ≤ x ∧ x < dst + n then src (a + (x - dst)) else m x

def bytesAt (m : Mem) (a n : Nat) : List UInt8 := (List.range n).map fun i => m (a + i)

/-- `m` with the bytes of the list stored from `a` on. -/
def storeBytes (m : Mem) (a : Nat) (bytes : List UInt8) : Mem :=
  fun x => if a ≤ x ∧ x < a + bytes.length then bytes.getD (x - a) 0 else m x

/-- Two memories that hold the same bytes in `[lo, hi)`. -/
def AgreeOn (m m' : Mem) (lo hi : Nat) : Prop := ∀ x, lo ≤ x → x < hi → m' x = m x

variable {lo hi : Nat}

theorem AgreeOn.trans {m₁ m₂ m₃ : Mem} (h₁ : AgreeOn m₁ m₂ lo hi)
    (h₂ : AgreeOn m₂ m₃ lo hi) : AgreeOn m₁ m₃ lo hi :=
  fun x hlo hhi => (h₂ x hlo hhi).trans (h₁ x hlo hhi)

theorem AgreeOn.mono {m m' : Mem} {lo hi lo' hi' : Nat} (h : AgreeOn m m' lo hi) (hlo : lo ≤ lo')
    (hhi : hi' ≤ hi) : AgreeOn m m' lo' hi' :=
  fun x h₁ h₂ => h x (Nat.le_trans hlo h₁) (Nat.lt_of_lt_of_le h₂ hhi)

theorem readLE_congr {m m' : Mem} {a n : Nat} (h : AgreeOn m m' a (a + n)) : readLE m' a n = readLE m a n := by
  induction n generalizing a with
  | zero => rfl
  | succ n ih =>
    have tail : AgreeOn m m' (a + 1) (a + 1 + n) := h.mono (by omega) (by omega)
    rw [readLE, readLE, h a (by omega) (by omega), ih tail]

theorem readLE_digits {m : Mem} {a n v : Nat}
    (h : ∀ i, i < n → m (a + i) = UInt8.ofNat (v / 256 ^ i)) : readLE m a n = v % 256 ^ n := by
  induction n generalizing a v with
  | zero => simp [readLE, Nat.mod_one]
  | succ n ih =>
    have head : (m a).toNat = v % 256 := by
      have := h 0 (by omega)
      simp only [Nat.add_zero, pow_zero, Nat.div_one] at this
      rw [this, UInt8.toNat_ofNat']
    have tail : readLE m (a + 1) n = v / 256 % 256 ^ n := by
      refine ih fun i hi => ?_
      rw [show a + 1 + i = a + (i + 1) by omega, h (i + 1) (by omega), Nat.div_div_eq_div_mul]
      congr 2
      ring
    rw [readLE, head, tail, pow_succ, Nat.mul_comm (256 ^ n) 256, Nat.mod_mul]

variable (m : Mem)

theorem readLE_writeLE_same (a n v : Nat) : readLE (writeLE m a n v) a n = v % 256 ^ n :=
  readLE_digits fun i hi => by simp [writeLE, hi]

theorem readLE_lt (a n : Nat) : readLE m a n < 256 ^ n := by
  induction n generalizing a with
  | zero => exact Nat.one_pos
  | succ n ih =>
    have low := (m a).toNat_lt
    have high := ih (a + 1)
    rw [readLE, pow_succ]
    omega

theorem ofNat_readLE_div {a n i : Nat} (inside : i < n) :
    UInt8.ofNat (readLE m a n / 256 ^ i) = m (a + i) := by
  induction n generalizing a i with
  | zero => omega
  | succ n ih =>
    have low := (m a).toNat_lt
    rw [readLE]
    cases i with
    | zero =>
      apply UInt8.toNat_inj.mp
      rw [UInt8.toNat_ofNat', pow_zero, Nat.div_one, Nat.add_zero, Nat.add_mul_mod_self_left]
      exact Nat.mod_eq_of_lt low
    | succ i =>
      have digit : UInt8.ofNat (readLE m (a + 1) n / 256 ^ i) = m (a + 1 + i) := ih (by omega)
      have cut : ((m a).toNat + 256 * readLE m (a + 1) n) / 256 = readLE m (a + 1) n := by omega
      rw [pow_succ, Nat.mul_comm (256 ^ i), ← Nat.div_div_eq_div_mul, cut, digit, Nat.add_assoc, Nat.add_comm 1]

theorem writeLE_restore (a n v : Nat) : writeLE (writeLE m a n v) a n (readLE m a n) = m := by
  funext x
  unfold writeLE
  by_cases inside : a ≤ x ∧ x < a + n
  · rw [if_pos inside, ofNat_readLE_div m (by omega), Nat.add_sub_cancel' inside.1]
  · rw [if_neg inside, if_neg inside]

theorem agreeOn_writeLE (a n v : Nat) (h : a + n ≤ lo ∨ hi ≤ a) :
    AgreeOn m (writeLE m a n v) lo hi := by
  intro x hlo hhi
  have outside : ¬ (a ≤ x ∧ x < a + n) := by omega
  simp [writeLE, outside]

theorem readLE_writeLE_other {a n v b k : Nat} (h : a + n ≤ b ∨ b + k ≤ a) :
    readLE (writeLE m a n v) b k = readLE m b k :=
  readLE_congr (agreeOn_writeLE m a n v h)

theorem agreeOn_fillBytes (a n : Nat) (b : UInt8)
    (h : a + n ≤ lo ∨ hi ≤ a) : AgreeOn m (fillBytes m a n b) lo hi := by
  intro x hlo hhi
  have outside : ¬ (a ≤ x ∧ x < a + n) := by omega
  simp [fillBytes, outside]

theorem fillBytes_append (a n k : Nat) (b : UInt8) :
    fillBytes (fillBytes m a n b) (a + n) k b = fillBytes m a (n + k) b := by
  funext x
  unfold fillBytes
  grind

theorem blit_inside (m src : Mem) {dst a n x : Nat} (lo : dst ≤ x) (hi : x < dst + n) :
    blit m dst src a n x = src (a + (x - dst)) := if_pos ⟨lo, hi⟩

theorem blit_outside (m src : Mem) {dst a n x : Nat} (h : x < dst ∨ dst + n ≤ x) :
    blit m dst src a n x = m x := if_neg (by omega)

theorem blit_append (m src : Mem) (dst a n k : Nat) :
    blit (blit m dst src a n) (dst + n) src (a + n) k = blit m dst src a (n + k) := by
  funext x
  by_cases new : dst + n ≤ x ∧ x < dst + n + k
  · rw [blit_inside _ _ new.1 new.2, blit_inside _ _ (by omega) (by omega)]
    congr 1
    omega
  · rw [blit_outside _ _ (by omega)]
    by_cases old : dst ≤ x ∧ x < dst + n
    · rw [blit_inside _ _ old.1 old.2, blit_inside _ _ (by omega) (by omega)]
    · rw [blit_outside _ _ (by omega), blit_outside _ _ (by omega)]

theorem blit_congr {src src' : Mem} (dst : Nat) {a a' n : Nat}
    (h : ∀ i, i < n → src' (a' + i) = src (a + i)) : blit m dst src' a' n = blit m dst src a n := by
  funext x
  by_cases inside : dst ≤ x ∧ x < dst + n
  · rw [blit_inside _ _ inside.1 inside.2, blit_inside _ _ inside.1 inside.2, h _ (by omega)]
  · rw [blit_outside _ _ (by omega), blit_outside _ _ (by omega)]

theorem blit_none (m src : Mem) (d s : Nat) : blit m d src s 0 = m := by
  funext x
  exact blit_outside _ _ (by omega)

theorem writeLE_readLE (size d s : Nat) : writeLE m d size (readLE m s size) = blit m d m s size := by
  funext x
  by_cases inside : d ≤ x ∧ x < d + size
  · rw [writeLE, if_pos inside, ofNat_readLE_div m (by omega), blit_inside _ _ inside.1 inside.2]
  · rw [writeLE, if_neg inside, blit_outside _ _ (by omega)]

theorem blit_up {d s : Nat} (a k : Nat) (apart : d ≤ s ∨ s + (a + k) ≤ d) :
    blit (blit m d m s a) (d + a) (blit m d m s a) (s + a) k = blit m d m s (a + k) := by
  rw [← blit_append]
  refine blit_congr _ _ fun i inside => blit_outside _ _ ?_
  omega

theorem blit_down {d s : Nat} (a k : Nat) (apart : s ≤ d ∨ d + (a + k) ≤ s) :
    blit (blit m (d + a) m (s + a) k) d (blit m (d + a) m (s + a) k) s a = blit m d m s (a + k) := by
  funext x
  by_cases front : d ≤ x ∧ x < d + a
  · rw [blit_inside _ _ front.1 front.2, blit_outside _ _ (by omega), blit_inside _ _ front.1 (by omega)]
  · rw [blit_outside _ _ (by omega)]
    by_cases behind : d + a ≤ x ∧ x < d + (a + k)
    · rw [blit_inside _ _ behind.1 (by omega), blit_inside _ _ (by omega) behind.2]
      congr 1
      omega
    · rw [blit_outside _ _ (by omega), blit_outside _ _ (by omega)]

theorem blit_patch (m m' : Mem) {p d n a k b : Nat} (part : a + k ≤ n) (clear : p + n ≤ b ∨ b + k ≤ p) :
    blit m' d (blit (blit m p m' d n) (p + a) (blit m p m' d n) b k) p n = blit m' (d + a) m b k := by
  funext x
  by_cases block : d ≤ x ∧ x < d + n
  · rw [blit_inside _ _ block.1 block.2]
    by_cases patched : d + a ≤ x ∧ x < d + a + k
    · rw [blit_inside _ _ (by omega) (by omega), blit_inside _ _ patched.1 patched.2, blit_outside _ _ (by omega)]
      congr 1
      omega
    · rw [blit_outside _ _ (by omega), blit_inside _ _ (by omega) (by omega), blit_outside _ _ (by omega)]
      congr 1
      omega
  · rw [blit_outside _ _ (by omega), blit_outside _ _ (by omega)]

@[simp] theorem length_bytesAt (a n : Nat) : (bytesAt m a n).length = n := by simp [bytesAt]

theorem bytesAt_congr_of_agree {m m' : Mem} {a n : Nat} (same : AgreeOn m m' a (a + n)) :
    bytesAt m' a n = bytesAt m a n := by
  apply List.map_congr_left
  intro i member
  have inside := List.mem_range.mp member
  exact same (a + i) (by omega) (by omega)

theorem storeBytes_outside {a x : Nat} {bytes : List UInt8} (outside : x < a ∨ a + bytes.length ≤ x) :
    storeBytes m a bytes x = m x := if_neg (by omega)

theorem bytesAt_storeBytes (a : Nat) (bytes : List UInt8) :
    bytesAt (storeBytes m a bytes) a bytes.length = bytes := by
  apply List.ext_getElem
  · simp
  · intro i _ inside
    simp [bytesAt, storeBytes, inside]

theorem storeBytes_bytesAt (m m' : Mem) {a n x : Nat} (inside : a ≤ x ∧ x < a + n) :
    storeBytes m a (bytesAt m' a n) x = m' x := by
  have here : a ≤ x ∧ x < a + (bytesAt m' a n).length := by
    rw [length_bytesAt]
    exact inside
  have index : x - a < n := by omega
  have place : a + (x - a) = x := by omega
  rw [storeBytes, if_pos here]
  simp [bytesAt, index, place]

theorem storeBytes_same (m : Mem) (pos len : Nat) : storeBytes m pos (bytesAt m pos len) = m := by
  funext x
  by_cases inside : pos ≤ x ∧ x < pos + len
  · exact storeBytes_bytesAt _ _ inside
  · apply storeBytes_outside
    rw [length_bytesAt]
    omega

end Cboot.Lib
