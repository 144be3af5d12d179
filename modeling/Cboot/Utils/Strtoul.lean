import Cboot.Lib.Codec

/-!
`lib/utils/tegrabl_utils.c`. A pointer into a string is the part of the string from there on, and behind the last byte
of the list is the one that ends the string.
-/

namespace Cboot.Utils
open Lib Positional

abbrev CString := List UInt8

def ulongMax : UInt64 := 0xFFFFFFFFFFFFFFFF

def checkOverflow (acc val base : UInt64) : Bool :=
  let cutoff := ulongMax / base
  let cutlim := ulongMax % base
  acc > cutoff || acc == cutoff && val > cutlim

def digitOf (base : Nat) (c : UInt8) : Nat :=
  if 48 ≤ c ∧ c ≤ 57 then c.toNat - 48
  else if 65 ≤ c ∧ c ≤ 90 then c.toNat - 65 + 10
  else if 97 ≤ c ∧ c ≤ 122 then c.toNat - 97 + 10
  else base

structure Parsed where
  acc : UInt64
  any : Int
  s : CString
  deriving DecidableEq, Repr

def parseFrom (base : Nat) : CString → UInt64 → Int → Parsed
  | [], acc, any => ⟨acc, any, []⟩
  | c :: s, acc, any =>
    let temp1 := digitOf base c
    if temp1 ≥ base then ⟨acc, any, c :: s⟩
    else if any < 0 then parseFrom base s acc any
    else if checkOverflow acc (UInt64.ofNat temp1) (UInt64.ofNat base) then parseFrom base s ulongMax (-1)
    else parseFrom base s (acc * UInt64.ofNat base + UInt64.ofNat temp1) 1

/-- The value, and how far `*endptr` is from `nptr`. -/
def tegrablUtilsStrtoulParse (s nptr : CString) (base : Nat) (neg : Bool) : UInt64 × Nat :=
  let parsed := parseFrom base s 0 0
  (if neg ∧ parsed.any > 0 then -parsed.acc else parsed.acc,
    if parsed.any ≠ 0 then nptr.length - parsed.s.length else 0)

def removeSpaces (isspace : UInt8 → Int) (s : CString) : CString := s.dropWhile fun c => isspace c == 1

def isValidBase (base : Int) : Bool := !(base < 0 || base == 1 || base > 36)

def hasHexBaseChars (s : CString) : Bool := s[0]? == some 48 && (s[1]? == some 120 || s[1]? == some 88)

def skipSign : CString → Bool × CString
  | [] => (false, [])
  | c :: s => if c = 45 then (true, s) else if c = 43 then (false, s) else (false, c :: s)

def tegrablUtilsStrtoul (isspace : UInt8 → Int) (nptr : CString) (base : Int) : UInt64 × Nat :=
  if ¬ isValidBase base then (0, 0)
  else
    let signed := skipSign (removeSpaces isspace nptr)
    let hex : Bool := (base = 0 ∨ base = 16) ∧ hasHexBaseChars signed.2
    let s := if hex then signed.2.drop 2 else signed.2
    let base := if hex then 16 else base
    let base := if base = 0 then (if s[0]? = some 48 then 8 else 10) else base
    tegrablUtilsStrtoulParse s nptr base.toNat signed.1

def blank (c : UInt8) : Bool := c = 32 ∨ 9 ≤ c ∧ c ≤ 13

/-- `isspace` of the library that the code is linked with, which answers no other than 0 and 1. -/
def Ctype (isspace : UInt8 → Int) : Prop := ∀ c, isspace c = if blank c then 1 else 0

def digit (c : UInt8) : Option Nat :=
  if 48 ≤ c ∧ c ≤ 57 then some (c.toNat - 48)
  else if 65 ≤ c ∧ c ≤ 90 then some (c.toNat - 55)
  else if 97 ≤ c ∧ c ≤ 122 then some (c.toNat - 87)
  else none

def isDigit (radix : Nat) (c : UInt8) : Bool := (digit c).any (· < radix)

def subject (text : CString) : CString := (skipSign (text.dropWhile blank)).2

def minus (text : CString) : Bool := (skipSign (text.dropWhile blank)).1

def HexMark (s : CString) : Prop := s[0]? = some 48 ∧ (s[1]? = some 120 ∨ s[1]? = some 88)

def Marked (base : Nat) (s : CString) : Prop := (base = 0 ∨ base = 16) ∧ HexMark s ∧ s[2]?.any (isDigit 16)

instance (s : CString) : Decidable (HexMark s) := inferInstanceAs (Decidable (_ ∧ _))

instance (base : Nat) (s : CString) : Decidable (Marked base s) := inferInstanceAs (Decidable (_ ∧ _ ∧ _))

def radix (base : Nat) (s : CString) : Nat :=
  if Marked base s then 16 else if base ≠ 0 then base else if s[0]? = some 48 then 8 else 10

def unmarked (base : Nat) (s : CString) : CString := if Marked base s then s.drop 2 else s

def digitsOf (base : Nat) (text : CString) : CString :=
  (unmarked base (subject text)).takeWhile (isDigit (radix base (subject text)))

def numberOf (base : Nat) (text : CString) : Nat :=
  encode (radix base (subject text)) ((digitsOf base text).map fun c => (digit c).getD 0)

def strtoul (base : Nat) (text : CString) : UInt64 × Nat :=
  let number := UInt64.ofNat (numberOf base text)
  if digitsOf base text = [] then (0, 0)
  else (if numberOf base text < 2 ^ 64 then (if minus text then -number else number) else ulongMax,
    text.length - (unmarked base (subject text)).length + (digitsOf base text).length)

def BareMark (base : Nat) (text : CString) : Prop :=
  (base = 0 ∨ base = 16) ∧ HexMark (subject text) ∧ ¬ (subject text)[2]?.any (isDigit 16)

instance (base : Nat) (text : CString) : Decidable (BareMark base text) := inferInstanceAs (Decidable (_ ∧ _ ∧ _))

section
variable {isspace : UInt8 → Int} {base d : Nat} {s text : CString} {c : UInt8} {acc : UInt64} {any : Int}

theorem digitOf_eq (base : Nat) (c : UInt8) : digitOf base c = (digit c).getD base := by
  rw [digitOf, digit]
  split
  · rfl
  · split
    · rename_i upper
      have : 65 ≤ c.toNat := UInt8.le_iff_toNat_le.mp upper.1
      rw [Option.getD_some]
      omega
    · split
      · rename_i lower
        have : 97 ≤ c.toNat := UInt8.le_iff_toNat_le.mp lower.1
        rw [Option.getD_some]
        omega
      · rfl

theorem digitOf_lt : digitOf base c < base ↔ isDigit base c := by
  rw [digitOf_eq, isDigit]
  cases digit c with
  | none => simp
  | some v => simp

theorem digitOf_digit (found : isDigit base c) : digitOf base c = (digit c).getD 0 := by
  rw [digitOf_eq]
  cases value : digit c with
  | none => simp [isDigit, value] at found
  | some v => rfl

theorem digit_lt (found : isDigit base c) : (digit c).getD 0 < base := digitOf_digit found ▸ digitOf_lt.mpr found

theorem toNat_small {n : Nat} (small : n ≤ 36) : (UInt64.ofNat n).toNat = n :=
  UInt64.toNat_ofNat_of_lt' (Nat.lt_of_le_of_lt small (by decide))

theorem checkOverflow_iff (least : 0 < base) (most : base ≤ 36) (small : d < base) :
    checkOverflow acc (UInt64.ofNat d) (UInt64.ofNat base) ↔ 2 ^ 64 ≤ acc.toNat * base + d := by
  have baseNat := toNat_small most
  have valNat : (UInt64.ofNat d).toNat = d := toNat_small (by omega)
  have maxNat : ulongMax.toNat = 2 ^ 64 - 1 := rfl
  have parts := Nat.div_add_mod (2 ^ 64 - 1) base
  rw [Nat.mul_comm] at parts
  have cut := digit_lt_iff (m := (2 ^ 64 - 1) / base) (n := acc.toNat) (Nat.mod_lt (2 ^ 64 - 1) least) small
  rw [parts] at cut
  have above : 2 ^ 64 ≤ acc.toNat * base + d ↔ 2 ^ 64 - 1 < acc.toNat * base + d := by omega
  have same : acc = ulongMax / UInt64.ofNat base ↔ (2 ^ 64 - 1) / base = acc.toNat := by
    rw [← UInt64.toNat_inj, UInt64.toNat_div, baseNat, maxNat, eq_comm]
  rw [above, cut, checkOverflow]
  simp only [Bool.or_eq_true, decide_eq_true_eq, Bool.and_eq_true, beq_iff_eq, GT.gt, UInt64.lt_iff_toNat_lt, same,
    UInt64.toNat_div, UInt64.toNat_mod, baseNat, valNat, maxNat]

theorem parseFrom_full (s : CString) (negative : any < 0) :
    parseFrom base s acc any = ⟨acc, any, s.dropWhile (isDigit base)⟩ := by
  induction s with
  | nil => rfl
  | cons c s ih =>
    rw [parseFrom]
    by_cases found : isDigit base c
    · rw [if_neg (Nat.not_le.mpr (digitOf_lt.mpr found)), if_pos negative, ih, List.dropWhile_cons_of_pos found]
    · rw [if_pos (Nat.not_lt.mp (mt digitOf_lt.mp found)), List.dropWhile_cons_of_neg found]

theorem le_encodeFrom (least : 0 < base) (n : Nat) (ds : List Nat) : n ≤ encodeFrom base n ds := by
  rw [encodeFrom_eq]
  exact Nat.le_trans (Nat.le_mul_of_pos_right n (Nat.pow_pos least)) (Nat.le_add_right _ _)

def valueFrom (base n : Nat) (s : CString) : Nat :=
  encodeFrom base n ((s.takeWhile (isDigit base)).map fun c => (digit c).getD 0)

theorem valueFrom_cons (n : Nat) (found : isDigit base c) :
    valueFrom base n (c :: s) = valueFrom base (n * base + (digit c).getD 0) s := by
  rw [valueFrom, List.takeWhile_cons_of_pos found]
  rfl

theorem parseFrom_eq (least : 0 < base) (most : base ≤ 36) (acc : UInt64) (s : CString) (fits : 0 ≤ any) :
    parseFrom base s acc any =
      if valueFrom base acc.toNat s < 2 ^ 64 then
        ⟨UInt64.ofNat (valueFrom base acc.toNat s), if s.takeWhile (isDigit base) = [] then any else 1,
          s.dropWhile (isDigit base)⟩ else ⟨ulongMax, -1, s.dropWhile (isDigit base)⟩ := by
  induction s generalizing acc any with
  | nil =>
    change _ = if acc.toNat < 2 ^ 64 then _ else _
    rw [if_pos acc.toNat_lt]
    simp [parseFrom, valueFrom, encodeFrom]
  | cons c s ih =>
    rw [parseFrom]
    by_cases found : isDigit base c
    · have small := digit_lt found
      rw [if_neg (Nat.not_le.mpr (digitOf_lt.mpr found)), if_neg (Int.not_lt.mpr fits), digitOf_digit found,
        valueFrom_cons _ found, List.dropWhile_cons_of_pos found, List.takeWhile_cons_of_pos found,
        if_neg (List.cons_ne_nil _ _)]
      by_cases excess : 2 ^ 64 ≤ acc.toNat * base + (digit c).getD 0
      · have more : 2 ^ 64 ≤ valueFrom base (acc.toNat * base + (digit c).getD 0) s :=
          Nat.le_trans excess (le_encodeFrom least _ _)
        rw [if_pos ((checkOverflow_iff least most small).mpr excess), if_neg (Nat.not_lt.mpr more),
          parseFrom_full s (by decide)]
      · have next : (acc * UInt64.ofNat base + UInt64.ofNat ((digit c).getD 0)).toNat =
            acc.toNat * base + (digit c).getD 0 := by
          have product : acc.toNat * base < 2 ^ 64 := by omega
          rw [UInt64.toNat_add, UInt64.toNat_mul, toNat_small most, toNat_small (by omega), Nat.mod_eq_of_lt product,
            Nat.mod_eq_of_lt (Nat.not_le.mp excess)]
        rw [if_neg (mt (checkOverflow_iff least most small).mp excess), ih _ (by decide), next]
        simp
    · rw [if_pos (Nat.not_lt.mp (mt digitOf_lt.mp found)), List.dropWhile_cons_of_neg found, valueFrom,
        List.takeWhile_cons_of_neg found, List.map_nil, encodeFrom, List.foldl_nil, if_pos acc.toNat_lt,
        UInt64.ofNat_toNat, if_pos rfl]

theorem parse_eq (least : 0 < base) (most : base ≤ 36) (s text : CString) (neg : Bool) :
    tegrablUtilsStrtoulParse s text base neg =
      if s.takeWhile (isDigit base) = [] then (0, 0)
      else (if valueFrom base 0 s < 2 ^ 64 then
          (if neg then -UInt64.ofNat (valueFrom base 0 s) else UInt64.ofNat (valueFrom base 0 s)) else ulongMax,
        text.length - (s.dropWhile (isDigit base)).length) := by
  have parsed := parseFrom_eq least most 0 s (Int.le_refl 0)
  rw [UInt64.toNat_zero] at parsed
  rw [tegrablUtilsStrtoulParse, parsed]
  by_cases none : s.takeWhile (isDigit base) = []
  · have zero : valueFrom base 0 s = 0 := by rw [valueFrom, none]; rfl
    simp [none, zero]
  · rw [if_neg none]
    by_cases fits : valueFrom base 0 s < 2 ^ 64
    · rw [if_pos fits, if_pos fits, if_neg none]
      simp
    · rw [if_neg fits, if_neg fits, if_neg none]
      simp

theorem removeSpaces_eq (ctype : Ctype isspace) (s : CString) : removeSpaces isspace s = s.dropWhile blank := by
  have same : (fun c => isspace c == 1) = blank := by
    funext c
    rw [ctype c]
    cases blank c <;> rfl
  rw [removeSpaces, same]

theorem hasHexBaseChars_iff (s : CString) : hasHexBaseChars s ↔ HexMark s := by
  simp [hasHexBaseChars, HexMark]

theorem isValidBase_iff (base : Nat) : isValidBase base ↔ base = 0 ∨ 2 ≤ base ∧ base ≤ 36 := by
  simp only [isValidBase, Bool.not_eq_true', Bool.or_eq_false_iff, decide_eq_false_iff_not, beq_eq_false_iff_ne]
  omega

def Hexed (base : Nat) (s : CString) : Prop := (base = 0 ∨ base = 16) ∧ HexMark s

theorem marked_iff (good : ¬ BareMark base text) : Marked base (subject text) ↔ Hexed base (subject text) := by
  simp only [BareMark, not_and, not_not] at good
  exact ⟨fun marked => ⟨marked.1, marked.2.1⟩, fun hexed => ⟨hexed.1, hexed.2, good hexed.1 hexed.2⟩⟩

theorem strtoul_hexed (ctype : Ctype isspace) (valid : isValidBase base) (hexed : Hexed base (subject text)) :
    tegrablUtilsStrtoul isspace text base = tegrablUtilsStrtoulParse ((subject text).drop 2) text 16 (minus text) := by
  have asked : ((base : Int) = 0 ∨ (base : Int) = 16) ∧ hasHexBaseChars (subject text) = true :=
    ⟨hexed.1.imp (by omega) (by omega), (hasHexBaseChars_iff _).mpr hexed.2⟩
  rw [subject] at asked
  rw [tegrablUtilsStrtoul, if_neg (not_not_intro valid), removeSpaces_eq ctype]
  simp only [decide_eq_true asked, if_true]
  rfl

theorem strtoul_plain (ctype : Ctype isspace) (valid : isValidBase base) (plain : ¬ Hexed base (subject text)) :
    tegrablUtilsStrtoul isspace text base = tegrablUtilsStrtoulParse (subject text) text
      (if base ≠ 0 then base else if (subject text)[0]? = some 48 then 8 else 10) (minus text) := by
  have asked : ¬ (((base : Int) = 0 ∨ (base : Int) = 16) ∧ hasHexBaseChars (subject text) = true) := by
    rintro ⟨here, chars⟩
    exact plain ⟨here.imp (by omega) (by omega), (hasHexBaseChars_iff _).mp chars⟩
  rw [subject] at asked
  rw [tegrablUtilsStrtoul, if_neg (not_not_intro valid), removeSpaces_eq ctype]
  simp only [decide_eq_false asked, Bool.false_eq_true, if_false, subject, minus]
  by_cases zero : base = 0
  · subst zero
    by_cases octal : (skipSign (text.dropWhile blank)).2[0]? = some 48
    · simp [octal]
    · simp [octal]
  · simp [zero]

theorem skipSign_suffix (s : CString) : (skipSign s).2 <:+ s := by
  cases s with
  | nil => exact List.suffix_refl _
  | cons c s =>
    rw [skipSign]
    split
    · exact List.suffix_cons _ _
    · split
      · exact List.suffix_cons _ _
      · exact List.suffix_refl _

theorem unmarked_length_le (base : Nat) (text : CString) : (unmarked base (subject text)).length ≤ text.length := by
  have behind : (subject text).length ≤ text.length :=
    ((skipSign_suffix _).trans (List.dropWhile_suffix _)).length_le
  rw [unmarked]
  split
  · rw [List.length_drop]
    omega
  · exact behind

theorem radix_bounds (valid : isValidBase base) (s : CString) : 8 ≤ radix base s ∨ radix base s = base ∧ 2 ≤ base := by
  have valid := (isValidBase_iff base).mp valid
  rw [radix]
  repeat' split
  all_goals omega

theorem radix_le (valid : isValidBase base) (s : CString) : radix base s ≤ 36 := by
  have valid := (isValidBase_iff base).mp valid
  rw [radix]
  repeat' split
  all_goals omega

theorem parse_right (valid : isValidBase base) (text : CString) :
    tegrablUtilsStrtoulParse (unmarked base (subject text)) text (radix base (subject text)) (minus text) =
      strtoul base text := by
  have least : 0 < radix base (subject text) := by
    have := radix_bounds valid (subject text)
    omega
  rw [parse_eq least (radix_le valid _), strtoul]
  have place : text.length - ((unmarked base (subject text)).dropWhile (isDigit (radix base (subject text)))).length =
      text.length - (unmarked base (subject text)).length + (digitsOf base text).length := by
    have parts := congrArg List.length
      (List.takeWhile_append_dropWhile (p := isDigit (radix base (subject text))) (l := unmarked base (subject text)))
    have inside := unmarked_length_le base text
    rw [List.length_append] at parts
    rw [digitsOf]
    omega
  rw [place]
  rfl

theorem takeWhile_eq_nil {p : UInt8 → Bool} (s : CString) : s.takeWhile p = [] ↔ ¬ s[0]?.any p := by
  cases s with
  | nil => simp
  | cons c s =>
    rw [List.takeWhile_cons]
    by_cases found : p c
    · simp [found]
    · simp [found]

theorem digitsOf_bare (valid : isValidBase base) (bare : BareMark base text) : digitsOf base text ≠ [] := by
  obtain ⟨here, mark, none⟩ := bare
  have unmarked' : ¬ Marked base (subject text) := fun marked => none marked.2.2
  have large : 2 ≤ radix base (subject text) := by
    have := radix_bounds valid (subject text)
    omega
  rw [digitsOf, unmarked, if_neg unmarked', Ne, takeWhile_eq_nil, not_not, mark.1, Option.any_some]
  have zero : (digit 48).any (· < radix base (subject text)) = decide (0 < radix base (subject text)) := rfl
  rw [isDigit, zero, decide_eq_true_eq]
  omega

theorem strtoul_met (ctype : Ctype isspace) (valid : isValidBase base) (good : ¬ BareMark base text) :
    tegrablUtilsStrtoul isspace text base = strtoul base text := by
  rw [← parse_right valid, unmarked, radix]
  by_cases marked : Marked base (subject text)
  · rw [strtoul_hexed ctype valid ((marked_iff good).mp marked), if_pos marked, if_pos marked]
  · rw [strtoul_plain ctype valid (mt (marked_iff good).mpr marked), if_neg marked, if_neg marked]

/-- It meets the contract of the library, unless there is a mark with no digit behind it. -/
theorem tegrablUtilsStrtoul_iff (isspace : UInt8 → Int) (ctype : Ctype isspace) (base : Nat)
    (valid : base = 0 ∨ 2 ≤ base ∧ base ≤ 36) (text : CString) :
    tegrablUtilsStrtoul isspace text base = strtoul base text ↔ ¬ BareMark base text := by
  have valid := (isValidBase_iff base).mpr valid
  constructor
  · intro same bare
    have nothing : ((subject text).drop 2).takeWhile (isDigit 16) = [] := by
      rw [takeWhile_eq_nil, List.getElem?_drop]
      exact bare.2.2
    rw [strtoul_hexed ctype valid ⟨bare.1, bare.2.1⟩, parse_eq (by decide) (by decide), if_pos nothing, strtoul,
      if_neg (digitsOf_bare valid bare)] at same
    have place := congrArg Prod.snd same
    have some_digit := List.length_pos_iff.mpr (digitsOf_bare valid bare)
    dsimp only at place
    omega
  · exact strtoul_met ctype valid

/-- A blank, a sign, a mark and two digits. -/
theorem tegrablUtilsStrtoul_hex :
    tegrablUtilsStrtoul (fun c => if blank c then 1 else 0) [32, 45, 48, 120, 49, 70, 33] (16 : Nat) = (-31, 6) := by
  have met := (tegrablUtilsStrtoul_iff (fun c => if blank c then 1 else 0) (fun _ => rfl) 16 (by decide)
    [32, 45, 48, 120, 49, 70, 33]).mpr (by decide)
  rw [met]
  decide

/-- The text is `0xz`. -/
theorem tegrablUtilsStrtoul_bare :
    tegrablUtilsStrtoul (fun c => if blank c then 1 else 0) [48, 120, 122] (0 : Nat) = (0, 0) ∧
      strtoul 0 [48, 120, 122] = (0, 1) := by
  decide

end

end Cboot.Utils
