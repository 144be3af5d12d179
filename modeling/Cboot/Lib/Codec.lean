import Mathlib.Algebra.Group.Nat.Defs
import Mathlib.Data.List.Lex

/-!
A codec of a type: how its values lie in memory, as a bijection with the byte strings of one length. Codecs of the
fields of a packed record compose to the codec of the record.
-/

namespace Cboot.Lib

/-- The `n` low digits of `v` in base 256, lowest first. -/
def leDigits : Nat → Nat → List UInt8
  | 0, _ => []
  | n + 1, v => UInt8.ofNat v :: leDigits n (v / 256)

def ofLeDigits : List UInt8 → Nat
  | [] => 0
  | b :: bs => b.toNat + 256 * ofLeDigits bs

@[simp] theorem length_leDigits (n v : Nat) : (leDigits n v).length = n := by
  induction n generalizing v with
  | zero => rfl
  | succ n ih => rw [leDigits, List.length_cons, ih]

theorem ofLeDigits_leDigits (n v : Nat) : ofLeDigits (leDigits n v) = v % 256 ^ n := by
  induction n generalizing v with
  | zero => rw [Nat.pow_zero, Nat.mod_one]; rfl
  | succ n ih =>
    rw [leDigits, ofLeDigits, ih, Nat.pow_succ, Nat.mul_comm (256 ^ n), Nat.mod_mul]
    rfl

theorem ofLeDigits_lt (bs : List UInt8) : ofLeDigits bs < 256 ^ bs.length := by
  induction bs with
  | nil => exact Nat.one_pos
  | cons b bs ih =>
    have digit := b.toNat_lt
    rw [ofLeDigits, List.length_cons, Nat.pow_succ]
    omega

theorem leDigits_ofLeDigits (bs : List UInt8) : leDigits bs.length (ofLeDigits bs) = bs := by
  induction bs with
  | nil => rfl
  | cons b bs ih =>
    have digit := b.toNat_lt
    have low : UInt8.ofNat (b.toNat + 256 * ofLeDigits bs) = b := by
      apply UInt8.toNat_inj.mp
      rw [UInt8.toNat_ofNat']
      omega
    have high : (b.toNat + 256 * ofLeDigits bs) / 256 = ofLeDigits bs := by omega
    rw [List.length_cons, ofLeDigits, leDigits, low, high, ih]

def Bytes (n : Nat) : Type := { bs : List UInt8 // bs.length = n }

instance (n : Nat) : DecidableEq (Bytes n) := inferInstanceAs (DecidableEq (Subtype _))

def Bytes.two (a b : UInt8) : Bytes 2 := ⟨[a, b], rfl⟩
def Bytes.zeros (n : Nat) : Bytes n := ⟨List.replicate n 0, List.length_replicate⟩

structure Codec (α : Type) where
  width : Nat
  encode : α → List UInt8
  decode : List UInt8 → α
  length_encode : ∀ a, (encode a).length = width
  decode_encode : ∀ a, decode (encode a) = a
  encode_decode : ∀ bs, bs.length = width → encode (decode bs) = bs

namespace Codec

variable {α β : Type}

def u8 : Codec UInt8 where
  width := 1
  encode b := [b]
  decode bs := bs.headD 0
  length_encode _ := rfl
  decode_encode _ := rfl
  encode_decode bs length := by
    obtain ⟨b, rfl⟩ := List.length_eq_one_iff.mp length
    rfl

def word (n : Nat) (toNat : α → Nat) (ofNat : Nat → α) (lt : ∀ a, toNat a < 256 ^ n)
    (ofNat_toNat : ∀ a, ofNat (toNat a) = a) (toNat_ofNat : ∀ v, v < 256 ^ n → toNat (ofNat v) = v) :
    Codec α where
  width := n
  encode a := leDigits n (toNat a)
  decode bs := ofNat (ofLeDigits bs)
  length_encode _ := length_leDigits _ _
  decode_encode a := by rw [ofLeDigits_leDigits, Nat.mod_eq_of_lt (lt a), ofNat_toNat]
  encode_decode bs length := by
    have small := ofLeDigits_lt bs
    rw [length] at small
    rw [toNat_ofNat _ small, ← length, leDigits_ofLeDigits]

def u16 : Codec UInt16 :=
  word 2 UInt16.toNat UInt16.ofNat UInt16.toNat_lt (fun _ => UInt16.ofNat_toNat)
    fun _ small => UInt16.toNat_ofNat_of_lt' small

def u32 : Codec UInt32 :=
  word 4 UInt32.toNat UInt32.ofNat UInt32.toNat_lt (fun _ => UInt32.ofNat_toNat)
    fun _ small => UInt32.toNat_ofNat_of_lt' small

def bytes (n : Nat) : Codec (Bytes n) where
  width := n
  encode bs := bs.1
  decode bs := ⟨(bs ++ List.replicate n 0).take n, by simp⟩
  length_encode bs := bs.2
  decode_encode bs := by
    apply Subtype.ext
    exact List.take_left' bs.2
  encode_decode bs length := List.take_left' length

def pair (c : Codec α) (d : Codec β) : Codec (α × β) where
  width := c.width + d.width
  encode p := c.encode p.1 ++ d.encode p.2
  decode bs := (c.decode (bs.take c.width), d.decode (bs.drop c.width))
  length_encode p := by rw [List.length_append, c.length_encode, d.length_encode]
  decode_encode p := by
    rw [List.take_left' (c.length_encode _), List.drop_left' (c.length_encode _), c.decode_encode, d.decode_encode]
  encode_decode bs length := by
    have left : (bs.take c.width).length = c.width := by
      rw [List.length_take]
      omega
    have right : (bs.drop c.width).length = d.width := by
      rw [List.length_drop]
      omega
    rw [c.encode_decode _ left, d.encode_decode _ right, List.take_append_drop]

def record (c : Codec α) (e : β ≃ α) : Codec β where
  width := c.width
  encode b := c.encode (e b)
  decode bs := e.symm (c.decode bs)
  length_encode b := c.length_encode (e b)
  decode_encode b := by rw [c.decode_encode, e.symm_apply_apply]
  encode_decode bs length := by rw [e.apply_symm_apply, c.encode_decode bs length]

end Codec

end Cboot.Lib

namespace Cboot.Lib.Positional

def encodeFrom (base : Nat) (n : Nat) (digits : List Nat) : Nat := digits.foldl (fun n d => n * base + d) n

def encode (base : Nat) (digits : List Nat) : Nat := encodeFrom base 0 digits

section
variable {base m n d e : Nat} {ds es : List Nat}

theorem digit_lt_iff (small : d < base) (small' : e < base) : m * base + d < n * base + e ↔ m < n ∨ m = n ∧ d < e := by
  rcases Nat.lt_trichotomy m n with less | rfl | more
  · have : (m + 1) * base ≤ n * base := Nat.mul_le_mul_right base less
    rw [Nat.succ_mul] at this
    exact iff_of_true (by omega) (.inl less)
  · simp
  · have : (n + 1) * base ≤ m * base := Nat.mul_le_mul_right base more
    rw [Nat.succ_mul] at this
    exact iff_of_false (by omega) (by omega)

theorem encodeFrom_lt_iff (length : ds.length = es.length) (small : ∀ d ∈ ds, d < base) (small' : ∀ e ∈ es, e < base) :
    encodeFrom base m ds < encodeFrom base n es ↔ m < n ∨ m = n ∧ ds < es := by
  induction ds generalizing es m n with
  | nil =>
    cases es with
    | nil => simp [encodeFrom]
    | cons e es => cases length
  | cons d ds ih =>
    cases es with
    | nil => cases length
    | cons e es =>
      have here := small d (List.mem_cons_self ..)
      have here' := small' e (List.mem_cons_self ..)
      have later := ih (m := m * base + d) (n := n * base + e) (Nat.succ.inj length)
        (fun d member => small d (List.mem_cons_of_mem _ member)) fun e member => small' e (List.mem_cons_of_mem _ member)
      change encodeFrom base (m * base + d) ds < encodeFrom base (n * base + e) es ↔ _
      rw [later, digit_lt_iff here here', List.cons_lt_cons_iff]
      constructor
      · rintro ((less | ⟨same, less⟩) | ⟨same, less⟩)
        · exact .inl less
        · exact .inr ⟨same, .inl less⟩
        · have low : ¬ m * base + d < n * base + e := by omega
          have high : ¬ n * base + e < m * base + d := by omega
          rw [digit_lt_iff here here'] at low
          rw [digit_lt_iff here' here] at high
          obtain rfl : m = n := by omega
          exact .inr ⟨rfl, .inr ⟨by omega, less⟩⟩
      · rintro (less | ⟨rfl, less | ⟨rfl, less⟩⟩)
        · exact .inl (.inl less)
        · exact .inl (.inr ⟨rfl, less⟩)
        · exact .inr ⟨rfl, less⟩

theorem encode_lt_iff (length : ds.length = es.length) (small : ∀ d ∈ ds, d < base) (small' : ∀ e ∈ es, e < base) :
    encode base ds < encode base es ↔ ds < es := by
  rw [encode, encode, encodeFrom_lt_iff length small small']
  simp

theorem encodeFrom_eq (base n : Nat) (ds : List Nat) :
    encodeFrom base n ds = n * base ^ ds.length + encode base ds := by
  induction ds generalizing n with
  | nil => simp [encode, encodeFrom]
  | cons d ds ih =>
    have here := ih (n * base + d)
    have first := ih (0 * base + d)
    change encodeFrom base (n * base + d) ds = _ + encodeFrom base (0 * base + d) ds
    rw [here, first, List.length_cons, Nat.pow_succ, Nat.zero_mul, Nat.zero_add, Nat.add_mul, Nat.mul_assoc,
      Nat.mul_comm base, Nat.add_assoc]

theorem encode_append (base : Nat) (ds es : List Nat) :
    encode base (ds ++ es) = encode base ds * base ^ es.length + encode base es := by
  have split : encode base (ds ++ es) = encodeFrom base (encode base ds) es := List.foldl_append
  rw [split, encodeFrom_eq]

end

end Cboot.Lib.Positional
