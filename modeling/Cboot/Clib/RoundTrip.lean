import Cboot.Clib.Printf
import Cboot.Utils.Strtoul

/-!
What `tegrabl_vsnprintf` leaves in a buffer for a number, `tegrabl_utils_strtoul` reads as that number.
-/

namespace Cboot.Clib
open Extlinux.InPlace (Buffer)
open Cmdline (Arg Spec ascii isdigit numeric taken parseSpec padOf expect formatted)
open Extlinux (Text)
open Utils Lib.Positional

/-- The number is printed whole and comes back, with the pointer at the byte that ends the text. -/
def RoundTrips (isspace : UInt8 → Int) (format : Text) (base : Nat) (n : UInt64) (buf : Buffer) : Prop :=
  ∃ (printed : Buffer) (ret : Nat),
    tegrablVsnprintf buf buf.length (format ++ [0]) [.num n] = some (printed, (ret : Int)) ∧
      tegrablUtilsStrtoul isspace printed base = (n, ret) ∧ printed[ret]? = some 0

/-- There is room for the text and the byte that ends it, and the size is one that an `int` can hold. -/
def Holds (buf : Buffer) (format : Text) (n : UInt64) : Prop :=
  (formatted format [.num n]).flatten.length < buf.length ∧ buf.length < 2 ^ 31

/-- Nothing, or the flag `0` and a width. -/
def ZeroPadding (flags : Text) : Prop := flags = [] ∨ ∃ width, flags = 48 :: width ∧ ∀ c ∈ width, isdigit c

section
variable {isspace : UInt8 → Int} {text left width : Text} {base n d k : Nat} {c : UInt8}

def numeral (base n : Nat) : Text := (Nat.toDigits base n).map fun c => c.toNat.toUInt8

def numeralDigit (d : Nat) : UInt8 := (Nat.digitChar d).toNat.toUInt8

theorem digit_numeralDigit : ∀ d < 16, digit (numeralDigit d) = some d := by decide

theorem numeral_of_lt (small : n < base) : numeral base n = [numeralDigit n] := by
  rw [numeral, Nat.toDigits_of_lt_base small]
  rfl

theorem numeral_of_le (enough : 2 ≤ base) (large : base ≤ n) :
    numeral base n = numeral base (n / base) ++ [numeralDigit (n % base)] := by
  rw [numeral, Nat.toDigits_of_base_le enough large, List.map_append]
  rfl

theorem numeral_induction {motive : Nat → Text → Prop} (enough : 2 ≤ base) (one : ∀ d < base, motive d [numeralDigit d])
    (more : ∀ n text, base ≤ n → motive (n / base) text → motive n (text ++ [numeralDigit (n % base)])) (n : Nat) :
    motive n (numeral base n) := by
  induction n using Nat.strongRecOn with
  | ind n ih =>
    by_cases small : n < base
    · rw [numeral_of_lt small]
      exact one n small
    · have large := Nat.le_of_not_lt small
      rw [numeral_of_le enough large]
      exact more n _ large (ih _ (Nat.div_lt_self (by omega) enough))

theorem isDigit_numeralDigit (most : base ≤ 16) (small : d < base) : isDigit base (numeralDigit d) := by
  simp [isDigit, digit_numeralDigit d (Nat.lt_of_lt_of_le small most), small]

theorem isDigit_numeral (enough : 2 ≤ base) (most : base ≤ 16) (n : Nat) : ∀ c ∈ numeral base n, isDigit base c := by
  refine numeral_induction (motive := fun _ text => ∀ c ∈ text, isDigit base c) enough ?_ ?_ n
  · intro d small c member
    rw [List.mem_singleton.mp member]
    exact isDigit_numeralDigit most small
  · intro n text large ih c member
    rcases List.mem_append.mp member with front | last
    · exact ih c front
    · rw [List.mem_singleton.mp last]
      exact isDigit_numeralDigit most (Nat.mod_lt _ (by omega))

def valueOf (base : Nat) (text : Text) : Nat := encode base (text.map fun c => (digit c).getD 0)

theorem valueOf_append (base : Nat) (front : Text) (c : UInt8) :
    valueOf base (front ++ [c]) = valueOf base front * base + (digit c).getD 0 := by
  rw [valueOf, List.map_append, encode_append]
  simp [valueOf, encode, encodeFrom]

theorem valueOf_numeral (enough : 2 ≤ base) (most : base ≤ 16) (n : Nat) : valueOf base (numeral base n) = n := by
  refine numeral_induction (motive := fun n text => valueOf base text = n) enough ?_ ?_ n
  · intro d small
    rw [valueOf, List.map_singleton, digit_numeralDigit d (Nat.lt_of_lt_of_le small most)]
    simp [encode, encodeFrom]
  · intro n text large ih
    have small : n % base < 16 := Nat.lt_of_lt_of_le (Nat.mod_lt _ (by omega)) most
    rw [valueOf_append, ih, digit_numeralDigit _ small, Option.getD_some, Nat.mul_comm]
    exact Nat.div_add_mod n base

theorem valueOf_zeros (base k : Nat) (text : Text) : valueOf base (List.replicate k 48 ++ text) = valueOf base text := by
  induction k with
  | zero => rfl
  | succ k ih =>
    have zero : digit 48 = some 0 := rfl
    rw [List.replicate_succ, List.cons_append, ← ih]
    simp only [valueOf, List.map_cons, zero, encode, encodeFrom, List.foldl_cons, Option.getD_some, Nat.zero_mul,
      Nat.add_zero]

theorem numeral_eq_cons (enough : 2 ≤ base) (most : base ≤ 16) (n : Nat) :
    ∃ c text, numeral base n = c :: text ∧ (c = 48 ↔ n = 0) := by
  refine numeral_induction (motive := fun n whole => ∃ c text, whole = c :: text ∧ (c = 48 ↔ n = 0)) enough ?_ ?_ n
  · intro d small
    have same : ∀ d < 16, numeralDigit d = 48 ↔ d = 0 := by decide
    exact ⟨_, _, rfl, same d (Nat.lt_of_lt_of_le small most)⟩
  · rintro n whole large ⟨c, text, rfl, zero⟩
    have above : n / base ≠ 0 := Nat.ne_of_gt (Nat.div_pos large (by omega))
    have positive : n ≠ 0 := by omega
    exact ⟨c, _, rfl, zero.trans ⟨fun none => absurd none above, fun none => absurd none positive⟩⟩

theorem isDigit_mono (more : base ≤ n) (found : isDigit base c) : isDigit n c := by
  rw [isDigit, Option.any_eq_true] at found ⊢
  obtain ⟨v, value, small⟩ := found
  exact ⟨v, value, by simp at small ⊢; omega⟩

theorem range_of_isDigit (found : isDigit 16 c) :
    48 ≤ c.toNat ∧ c.toNat ≤ 57 ∨ 65 ≤ c.toNat ∧ c.toNat ≤ 70 ∨ 97 ≤ c.toNat ∧ c.toNat ≤ 102 := by
  rw [isDigit, digit] at found
  simp only [UInt8.le_iff_toNat_le] at found
  split at found
  · rename_i low
    exact .inl low
  · split at found
    · rename_i upper
      simp at found
      have := upper.1
      simp at this
      omega
    · split at found
      · rename_i lower
        have := lower.1
        simp at found this
        omega
      · simp at found

theorem plain_of_isDigit (found : isDigit 16 c) : blank c = false ∧ c ≠ 45 ∧ c ≠ 43 ∧ c ≠ 120 ∧ c ≠ 88 := by
  have range := range_of_isDigit found
  have other : ∀ d : UInt8, c = d → c.toNat = d.toNat := fun d same => congrArg UInt8.toNat same
  refine ⟨?_, fun same => ?_, fun same => ?_, fun same => ?_, fun same => ?_⟩
  · rw [blank, decide_eq_false_iff_not]
    rintro (same | inside)
    · have := other 32 same
      simp at this
      omega
    · simp only [UInt8.le_iff_toNat_le] at inside
      simp at inside
      omega
  all_goals
    have := other _ same
    simp at this
    omega

theorem subject_of_isDigit (found : isDigit 16 c) (text : Text) :
    subject (c :: text) = c :: text ∧ minus (c :: text) = false := by
  obtain ⟨shown, dash, plus, -⟩ := plain_of_isDigit found
  rw [subject, minus, List.dropWhile_cons_of_neg (by simp [shown]), skipSign, if_neg dash, if_neg plus]
  exact ⟨rfl, rfl⟩

theorem strtoul_digits (text left : Text) {whole : Text} (clean : subject whole = whole) (plus : minus whole = false)
    (place : unmarked base whole = text ++ 0 :: left) (digits : ∀ c ∈ text, isDigit (radix base whole) c)
    (some_digit : text ≠ []) {n : UInt64} (value : valueOf (radix base whole) text = n.toNat) :
    strtoul base whole = (n, whole.length - (left.length + 1)) := by
  have stops : isDigit (radix base whole) 0 = false := rfl
  have found : digitsOf base whole = text := by
    rw [digitsOf, clean, place, List.takeWhile_append_of_pos digits, List.takeWhile_cons_of_neg (by simp [stops]),
      List.append_nil]
  have number : numberOf base whole = n.toNat := by
    rw [numberOf, found, clean]
    exact value
  have inside := unmarked_length_le base whole
  rw [clean, place, List.length_append, List.length_cons] at inside
  rw [strtoul, found, if_neg some_digit, number, if_pos n.toNat_lt, plus, clean, place]
  simp only [Bool.false_eq_true, if_false, UInt64.ofNat_toNat, List.length_append, List.length_cons, Prod.mk.injEq,
    true_and]
  omega

theorem length_left (text left : Text) : (text ++ 0 :: left).length - (left.length + 1) = text.length := by
  rw [List.length_append, List.length_cons]
  omega

variable {v : UInt64}

theorem strtoul_unmarked (base : Nat) (c : UInt8) (text left : Text) (digits : ∀ d ∈ c :: text, isDigit n d) (most : n ≤ 16)
    (same : base = n ∨ base = 0 ∧ n = if c = 48 then 8 else 10) (value : valueOf n (c :: text) = v.toNat) :
    ¬ BareMark base (c :: text ++ 0 :: left) ∧ strtoul base (c :: text ++ 0 :: left) = (v, (c :: text).length) := by
  have found : ∀ d ∈ c :: text, isDigit 16 d := fun d member => isDigit_mono most (digits d member)
  obtain ⟨clean, plus⟩ := subject_of_isDigit (found c List.mem_cons_self) (text ++ 0 :: left)
  rw [← List.cons_append] at clean plus
  have next : (c :: text ++ 0 :: left)[1]? ≠ some 120 ∧ (c :: text ++ 0 :: left)[1]? ≠ some 88 := by
    cases text with
    | nil => exact ⟨nofun, nofun⟩
    | cons d text =>
      obtain ⟨-, -, -, lower, upper⟩ := plain_of_isDigit (found d (by simp))
      exact ⟨fun same => lower (Option.some.inj same), fun same => upper (Option.some.inj same)⟩
  have noMark : ¬ HexMark (c :: text ++ 0 :: left) := fun mark => mark.2.elim next.1 next.2
  have noMark' : ¬ Marked base (c :: text ++ 0 :: left) := fun marked => noMark marked.2.1
  have radixEq : radix base (c :: text ++ 0 :: left) = n := by
    rw [radix, if_neg noMark', List.cons_append, List.getElem?_cons_zero]
    simp only [Option.some.injEq]
    rcases same with rfl | ⟨rfl, rfl⟩
    · by_cases zero : base = 0
      · subst zero
        have := digits c List.mem_cons_self
        simp [isDigit] at this
      · rw [if_pos zero]
    · rw [if_neg (not_not_intro rfl)]
  refine ⟨fun bare => noMark (clean ▸ bare.2.1), ?_⟩
  rw [strtoul_digits (c :: text) left clean plus (if_neg noMark') (by rw [radixEq]; exact digits) (List.cons_ne_nil _ _)
    (by rw [radixEq]; exact value), length_left]

theorem strtoul_marked (base : Nat) (here : base = 0 ∨ base = 16) (c : UInt8) (text left : Text)
    (digits : ∀ d ∈ c :: text, isDigit 16 d) (value : valueOf 16 (c :: text) = v.toNat) :
    ¬ BareMark base (48 :: 120 :: c :: text ++ 0 :: left) ∧
      strtoul base (48 :: 120 :: c :: text ++ 0 :: left) = (v, (48 :: 120 :: c :: text).length) := by
  obtain ⟨clean, plus⟩ := subject_of_isDigit (show isDigit 16 48 from rfl) (120 :: c :: text ++ 0 :: left)
  have marked : Marked base (48 :: 120 :: c :: text ++ 0 :: left) :=
    ⟨here, ⟨rfl, .inl rfl⟩, digits c List.mem_cons_self⟩
  have radixEq : radix base (48 :: 120 :: c :: text ++ 0 :: left) = 16 := if_pos marked
  simp only [List.cons_append] at clean plus marked radixEq ⊢
  refine ⟨fun bare => bare.2.2 (by rw [clean]; exact marked.2.2), ?_⟩
  rw [strtoul_digits (c :: text) left clean plus (if_pos marked) (by rw [radixEq]; exact digits)
    (List.cons_ne_nil _ _) (by rw [radixEq]; exact value)]
  simp
  omega

structure NumberFormat (format : Text) (alternateForm zero : Bool) (pad radix : Nat) : Prop where
  unended : 0 ∉ format
  pieces_eq : ∀ value, formatted format [.num value] =
    [Cmdline.integerToString value.toNat false pad alternateForm radix (if zero then 48 else 32)]
  good : ∀ value, Matches (fun _ => true) format [.num value]

variable {alternateForm zero : Bool}

theorem numberFormat_of_parseSpec {f : Text} {conversion : UInt8} {pad radix : Nat}
    (read : parseSpec f = (⟨alternateForm, zero, pad, 1, some conversion⟩, []))
    (kind : numeric conversion = some (radix, false)) (unended : 0 ∉ f) :
    NumberFormat (37 :: f) alternateForm zero pad radix := by
  have other : conversion ≠ 37 := by
    rintro rfl
    cases kind
  refine ⟨by simpa using unended, fun value => ?_, fun value => ?_⟩
  · have whole : taken false 1 value = (false, value.toNat) := by simp [taken]
    rw [formatted, List.length_cons, pieces_spec, read]
    simp only [Cmdline.convert, kind, whole, pieces_nil]
  · have last : ∀ fuel, matchesFrom (fun _ => true) fuel [] [] = true := by
      intro fuel
      cases fuel <;> rfl
    rw [Matches, List.length_cons, matchesFrom, if_neg (not_not_intro rfl), read]
    simp [supported, suits, kind, other, last]

variable {buf : Buffer}

theorem roundTrips_of (text : Text) {format : Text} {pad radix : Nat} {n : UInt64}
    (known : NumberFormat format alternateForm zero pad radix) (room : Holds buf format n)
    (text_eq : Cmdline.integerToString n.toNat false pad alternateForm radix (if zero then 48 else 32) = text)
    (read : ∀ left, tegrablUtilsStrtoul isspace (text ++ 0 :: left) base = (n, text.length)) :
    RoundTrips isspace format base n buf := by
  obtain ⟨large, small⟩ := room
  have whole : Cmdline.tegrablVsnprintf buf.length format [.num n] = text := by
    rw [Cmdline.tegrablVsnprintf, if_neg (by omega), Cmdline.write_all.mpr (by omega), known.pieces_eq, text_eq]
    exact List.append_nil _
  obtain ⟨left, ran, -⟩ := tegrablVsnprintf_eq (by omega) small known.unended (known.good n)
  rw [whole] at ran
  refine ⟨_, _, ran, read left, ?_⟩
  rw [List.getElem?_append_right (Nat.le_refl _), Nat.sub_self, List.getElem?_cons_zero]

theorem unpadded (n : Nat) (alternateForm : Bool) (radix : Nat) (padchar : UInt8) :
    Cmdline.integerToString n false 0 alternateForm radix padchar =
      prefixText alternateForm radix ++ numeral radix n := by
  rw [integerToString_text, Nat.zero_sub]
  rfl

theorem parseSpec_padded (digits : ∀ c ∈ width, isdigit c) (conversion : UInt8) (plain : conversion ≠ 108) :
    parseSpec (48 :: (width ++ [108, conversion])) = (⟨false, true, padOf width, 1, some conversion⟩, []) := by
  have front : (width ++ [108, conversion]).takeWhile isdigit = width := by
    rw [List.takeWhile_append_of_pos digits]
    exact List.append_nil _
  have behind : (width ++ [108, conversion]).dropWhile isdigit = [108, conversion] :=
    List.dropWhile_append_of_pos digits
  have alternate : expect 35 (48 :: (width ++ [108, conversion])) = (false, 48 :: (width ++ [108, conversion])) := rfl
  have zero : expect 48 (48 :: (width ++ [108, conversion])) = (true, width ++ [108, conversion]) := rfl
  have size : expect 122 [108, conversion] = (false, [108, conversion]) := rfl
  have long : expect 108 [108, conversion] = (true, [conversion]) := rfl
  have longlong : expect 108 [conversion] = (false, [conversion]) := by simp [expect, plain]
  simp [parseSpec, alternate, zero, front, behind, size, long, longlong]

theorem digits_padded (enough : 2 ≤ base) (most : base ≤ 16) (k : Nat) (v : Nat) :
    ∃ c text, List.replicate k 48 ++ numeral base v = c :: text ∧ (∀ d ∈ c :: text, isDigit base d) ∧
      valueOf base (c :: text) = v := by
  have zero : isDigit base 48 := by
    have : (digit 48).any (· < base) = decide (0 < base) := rfl
    rw [isDigit, this, decide_eq_true_eq]
    omega
  have all : ∀ d ∈ List.replicate k 48 ++ numeral base v, isDigit base d := by
    intro d member
    rcases List.mem_append.mp member with front | number
    · rw [List.eq_of_mem_replicate front]
      exact zero
    · exact isDigit_numeral enough most v d number
  have value := (valueOf_zeros base k (numeral base v)).trans (valueOf_numeral enough most v)
  obtain ⟨c, text, parts⟩ : ∃ c text, List.replicate k 48 ++ numeral base v = c :: text := by
    obtain ⟨c, text, number, -⟩ := numeral_eq_cons enough most v
    rw [number]
    cases k with
    | zero => exact ⟨_, _, rfl⟩
    | succ k => exact ⟨_, _, rfl⟩
  rw [parts] at all value
  exact ⟨c, text, parts, all, value⟩

theorem padded_roundTrips (conversion : UInt8) (ctype : Ctype isspace) (enough : 2 ≤ base) (most : base ≤ 16)
    {flags : Text} (plain : conversion ≠ 108) (kind : numeric conversion = some (base, false))
    (unpadded : parseSpec [108, conversion] = (⟨false, false, 0, 1, some conversion⟩, []))
    (padding : ZeroPadding flags) (room : Holds buf (37 :: (flags ++ [108, conversion])) v) :
    RoundTrips isspace (37 :: (flags ++ [108, conversion])) base v buf := by
  have shown : conversion ≠ 0 := by
    rintro rfl
    cases kind
  have back : ∀ k left, tegrablUtilsStrtoul isspace (List.replicate k 48 ++ numeral base v.toNat ++ 0 :: left) base =
      (v, (List.replicate k 48 ++ numeral base v.toNat).length) := by
    intro k left
    obtain ⟨c, text, parts, digits, value⟩ := digits_padded enough most k v.toNat
    obtain ⟨good, read⟩ := strtoul_unmarked base c text left digits most (.inl rfl) value
    rw [parts, strtoul_met ctype ((isValidBase_iff base).mpr (by omega)) good, read]
  rcases padding with rfl | ⟨width, rfl, digits⟩
  · have known := numberFormat_of_parseSpec unpadded kind (by simp [shown.symm])
    refine roundTrips_of _ known room (integerToString_text _ _ _ _ _ _) fun left => ?_
    rw [Nat.zero_sub]
    exact back 0 left
  · have unended : 0 ∉ 48 :: (width ++ [108, conversion]) := by
      have inside : 0 ∉ width := fun member => absurd (digits 0 member) (by decide)
      simp [inside, shown.symm]
    have known := numberFormat_of_parseSpec (parseSpec_padded digits conversion plain) kind unended
    exact roundTrips_of _ known room (integerToString_text _ _ _ _ _ _) fun left => back _ left

theorem decimal_roundTrips (ctype : Ctype isspace) (room : Holds buf (ascii "%lu") v) :
    RoundTrips isspace (ascii "%lu") 0 v buf := by
  have known : NumberFormat (ascii "%lu") false false 0 10 :=
    numberFormat_of_parseSpec (f := [108, 117]) rfl rfl (by decide)
  refine roundTrips_of (numeral 10 v.toNat) known room (unpadded _ _ _ _) fun left => ?_
  have digits : ∀ d ∈ numeral 10 v.toNat, isDigit 10 d := isDigit_numeral (by decide) (by decide) v.toNat
  have value : valueOf 10 (numeral 10 v.toNat) = v.toNat := valueOf_numeral (by decide) (by decide) v.toNat
  obtain ⟨c, text, parts, zero⟩ := numeral_eq_cons (show 2 ≤ 10 by decide) (by decide) v.toNat
  rw [parts] at digits value ⊢
  by_cases first : c = 48
  · -- the only one that is taken for an octal number
    have none := zero.mp first
    have same : numeral 10 v.toNat = [48] := by rw [none]; rfl
    obtain rfl : text = [] := by
      rw [parts] at same
      exact (List.cons.inj same).2
    subst first
    obtain ⟨good, read⟩ := strtoul_unmarked (n := 8) 0 48 [] left
      (List.forall_mem_singleton.mpr (by decide)) (by decide)
      (.inr ⟨rfl, rfl⟩) (v := v) (by rw [none]; rfl)
    exact (strtoul_met ctype rfl good).trans read
  · obtain ⟨good, read⟩ := strtoul_unmarked (n := 10) 0 c text left digits (by decide)
      (.inr ⟨rfl, (if_neg first).symm⟩) value
    exact (strtoul_met ctype rfl good).trans read

theorem hex_roundTrips (ctype : Ctype isspace) (room : Holds buf (ascii "%#lx") v) :
    RoundTrips isspace (ascii "%#lx") 0 v buf := by
  have known : NumberFormat (ascii "%#lx") true false 0 16 :=
    numberFormat_of_parseSpec (f := [35, 108, 120]) rfl rfl (by decide)
  refine roundTrips_of (48 :: 120 :: numeral 16 v.toNat) known room (unpadded _ _ _ _)
    fun left => ?_
  have digits : ∀ d ∈ numeral 16 v.toNat, isDigit 16 d := isDigit_numeral (by decide) (by decide) v.toNat
  have value : valueOf 16 (numeral 16 v.toNat) = v.toNat := valueOf_numeral (by decide) (by decide) v.toNat
  obtain ⟨c, text, parts, -⟩ := numeral_eq_cons (show 2 ≤ 16 by decide) (by decide) v.toNat
  rw [parts] at digits value ⊢
  obtain ⟨good, read⟩ := strtoul_marked 0 (.inl rfl) c text left digits value
  exact (strtoul_met ctype rfl good).trans read

theorem octal_roundTrips (ctype : Ctype isspace) (room : Holds buf (ascii "%#lo") v) :
    RoundTrips isspace (ascii "%#lo") 0 v buf := by
  have known : NumberFormat (ascii "%#lo") true false 0 8 :=
    numberFormat_of_parseSpec (f := [35, 108, 111]) rfl rfl (by decide)
  refine roundTrips_of (48 :: numeral 8 v.toNat) known room (unpadded _ _ _ _) fun left => ?_
  have digits : ∀ d ∈ 48 :: numeral 8 v.toNat, isDigit 8 d := by
    rintro d (_ | ⟨_, member⟩)
    · rfl
    · exact isDigit_numeral (by decide) (by decide) v.toNat d member
  have value := (valueOf_zeros 8 1 (numeral 8 v.toNat)).trans (valueOf_numeral (by decide) (by decide) v.toNat)
  obtain ⟨good, read⟩ := strtoul_unmarked (n := 8) 0 48 (numeral 8 v.toNat) left digits (by decide)
    (.inr ⟨rfl, rfl⟩) value
  exact (strtoul_met ctype rfl good).trans read

/-- The code finds the radix again in base 0, and with the base that is given for a number that is padded. -/
theorem tegrablVsnprintf_strtoul (isspace : UInt8 → Int) (ctype : Ctype isspace) (n : UInt64) (buf : Buffer) :
    (∀ format ∈ [ascii "%lu", ascii "%#lx", ascii "%#lo"], Holds buf format n → RoundTrips isspace format 0 n buf) ∧
      ∀ flags, ZeroPadding flags → (Holds buf (ascii "%" ++ (flags ++ ascii "lx")) n →
          RoundTrips isspace (ascii "%" ++ (flags ++ ascii "lx")) 16 n buf) ∧
        (Holds buf (ascii "%" ++ (flags ++ ascii "lu")) n →
          RoundTrips isspace (ascii "%" ++ (flags ++ ascii "lu")) 10 n buf) := by
  refine ⟨?_, fun flags padding => ⟨fun room => ?_, fun room => ?_⟩⟩
  · simp only [List.forall_mem_cons, List.not_mem_nil, false_imp_iff, implies_true, and_true]
    exact ⟨decimal_roundTrips ctype, hex_roundTrips ctype, octal_roundTrips ctype⟩
  · exact padded_roundTrips 120 ctype (by decide) (by decide) (by decide) rfl rfl padding room
  · exact padded_roundTrips 117 ctype (by decide) (by decide) (by decide) rfl rfl padding room

/-- A number of two bytes in a field of six digits. -/
theorem tegrablVsnprintf_strtoul_padded : RoundTrips (fun c => if blank c then 1 else 0) (ascii "%06lx") 16 0xBEEF
    (List.replicate 7 0) :=
  ((tegrablVsnprintf_strtoul (fun c => if blank c then 1 else 0) (fun _ => rfl) 0xBEEF (List.replicate 7 0)).2
    (ascii "06") (.inr ⟨ascii "6", rfl, List.forall_mem_singleton.mpr (by decide)⟩)).1 ⟨by decide, by decide⟩

end

end Cboot.Clib
