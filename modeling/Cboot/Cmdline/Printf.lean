import Mathlib.Algebra.Group.Nat.Defs
import Mathlib.Data.List.Basic

/-!
`lib/clib/printf.c`. A conversion that does not fit ends the output, and what stands before it stays.
-/

namespace Cboot.Cmdline

abbrev Text := List UInt8

def ascii (s : String) : Text := s.toList.map fun c => c.toNat.toUInt8

inductive Arg where
  | str (text : Text)
  | num (value : UInt64)
  deriving DecidableEq, Repr

/-- `%`, with all that may stand between it and what it converts. -/
structure Spec where
  alternateForm : Bool
  zero : Bool
  pad : Nat
  longint : Nat
  conversion : Option UInt8
  deriving DecidableEq, Repr

def isdigit (c : UInt8) : Bool := 48 ≤ c && c ≤ 57

def expect (c : UInt8) (f : Text) : Bool × Text := if f.head? = some c then (true, f.tail) else (false, f)

def padOf (digits : Text) : Nat := digits.foldl (fun pad c => (pad * 10 + (c.toNat - 48)) % 2 ^ 32) 0

def parseSpec (f : Text) : Spec × Text :=
  let alternate := expect 35 f
  let zero := expect 48 alternate.2
  let arg := zero.2.dropWhile isdigit
  let pointer := arg.head? = some 112
  let size := expect 122 arg
  let long := expect 108 size.2
  let longlong := if long.1 then expect 108 long.2 else (false, long.2)
  ({ alternateForm := alternate.1 || pointer
     zero := zero.1
     pad := padOf (zero.2.takeWhile isdigit)
     longint := if longlong.1 then 2 else if long.1 then 1 else if size.1 then 2 else if pointer then 1 else 0
     conversion := longlong.2.head? }, longlong.2.tail)

def taken (signed : Bool) (longint : Nat) (value : UInt64) : Bool × Nat :=
  let v : Int := if longint = 0 then value.toUInt32.toInt32.toInt else value.toInt64.toInt
  if signed && v < 0 then (true, v.natAbs)
  else (false, if longint = 0 then value.toUInt32.toNat else value.toNat)

def integerToString (n : Nat) (negative : Bool) (pad : Nat) (alternateForm : Bool) (radix : Nat) (padchar : UInt8) :
    Text :=
  let sign := if negative then [45] else []
  let mark : Text := if alternateForm then (if radix = 8 then [48] else if radix = 16 then [48, 120] else []) else []
  let body := sign ++ mark ++ (Nat.toDigits radix n).map fun c => c.toNat.toUInt8
  List.replicate (pad - body.length) padchar ++ body

def numeric (conversion : UInt8) : Option (Nat × Bool) :=
  if conversion = 105 ∨ conversion = 100 then some (10, true)
  else if conversion = 117 then some (10, false)
  else if conversion = 111 then some (8, false)
  else if conversion = 112 ∨ conversion = 120 ∨ conversion = 88 then some (16, false)
  else none

/-- One conversion, and the arguments that are left. What is not supported ends the output. -/
def convert (spec : Spec) (padchar : UInt8) (args : List Arg) : Option (Text × List Arg) :=
  match spec.conversion, args with
  | none, _ => none
  | some conversion, args =>
    match numeric conversion, args with
    | some (radix, signed), .num value :: args =>
      let v := taken signed spec.longint value
      some (integerToString v.2 v.1 spec.pad spec.alternateForm radix padchar, args)
    | some _, _ => none
    | none, args =>
      match args with
      | .str text :: rest => if conversion = 115 then some (text, rest) else if conversion = 37 then some ([37], args) else none
      | .num value :: rest =>
        if conversion = 99 then some ([value.toUInt8], rest) else if conversion = 37 then some ([37], args) else none
      | [] => if conversion = 37 then some ([37], []) else none

/-- What is written in one go: the characters of the format, and the conversions. -/
def pieces : Nat → UInt8 → Text → List Arg → List Text
  | 0, _, _, _ => []
  | _ + 1, _, [], _ => []
  | fuel + 1, padchar, c :: f, args =>
    if c ≠ 37 then [c] :: pieces fuel padchar f args
    else
      let spec := parseSpec f
      let padchar := if spec.1.zero then 48 else padchar
      match convert spec.1 padchar args with
      | none => []
      | some (text, args) => text :: pieces fuel padchar spec.2 args

def formatted (format : Text) (args : List Arg) : List Text := pieces format.length 32 format args

def write : Nat → List Text → Text
  | _, [] => []
  | 0, _ :: _ => []
  | remaining + 1, piece :: rest =>
    if remaining + 1 < piece.length then [] else piece ++ write (remaining + 1 - piece.length) rest

def tegrablVsnprintf (size : Nat) (format : Text) (args : List Arg) : Text :=
  write (if size = 0 then 2 ^ 64 - 1 else size - 1) (formatted format args)

example : tegrablVsnprintf 64 (ascii "%s=0x%lx@0x%08lx ") [.str (ascii "tzram"), .num 0x100000, .num 0xf0000] =
    ascii "tzram=0x100000@0x000f0000 " := by decide

theorem write_cons (remaining : Nat) (piece : Text) (rest : List Text) : write remaining (piece :: rest) =
      if remaining < piece.length ∨ remaining = 0 then [] else piece ++ write (remaining - piece.length) rest := by
  cases remaining with
  | zero => simp [write]
  | succ n => simp [write]

theorem write_zero (texts : List Text) : write 0 texts = [] := by
  cases texts <;> rfl

theorem write_length_le (remaining : Nat) (texts : List Text) : (write remaining texts).length ≤ remaining := by
  induction texts generalizing remaining with
  | nil => exact Nat.zero_le _
  | cons piece rest ih =>
    rw [write_cons]
    split
    case isTrue => exact Nat.zero_le _
    case isFalse fits =>
      have := ih (remaining - piece.length)
      rw [List.length_append]
      omega

theorem write_prefix (remaining : Nat) (texts : List Text) : write remaining texts <+: texts.flatten := by
  induction texts generalizing remaining with
  | nil => exact List.prefix_refl _
  | cons piece rest ih =>
    rw [write_cons]
    split
    · exact List.nil_prefix
    · rw [List.flatten_cons, List.prefix_append_right_inj]
      exact ih _

variable {texts : List Text} {remaining : Nat}

theorem write_all :
    write remaining texts = texts.flatten ↔ texts.flatten.length ≤ remaining := by
  constructor
  · intro whole
    rw [← whole]
    exact write_length_le _ _
  · intro fits
    induction texts generalizing remaining with
    | nil => rfl
    | cons piece rest ih =>
      rw [List.flatten_cons, List.length_append] at fits
      rw [write_cons]
      split
      case isTrue stopped =>
        have empty : (piece ++ rest.flatten).length = 0 := by
          rw [List.length_append]
          omega
        rw [List.flatten_cons, List.length_eq_zero_iff.mp empty]
      case isFalse => rw [ih (by omega), List.flatten_cons]

def solid (texts : List Text) : List Text := texts.filter fun piece => !piece.isEmpty

@[simp] theorem solid_nil_cons (rest : List Text) : solid ([] :: rest) = solid rest := rfl

@[simp] theorem solid_cons_cons (c : UInt8) (piece : Text) (rest : List Text) :
    solid ((c :: piece) :: rest) = (c :: piece) :: solid rest := rfl

theorem solid_eq_nil : solid texts = [] ↔ texts.flatten = [] := by
  unfold solid
  rw [List.filter_eq_nil_iff, List.flatten_eq_nil_iff]
  simp

theorem write_nil :
    write remaining texts = [] ↔ texts.flatten = [] ∨ remaining < ((solid texts).headD []).length := by
  induction texts generalizing remaining with
  | nil => simp [write]
  | cons piece rest ih =>
    rw [write_cons]
    cases piece with
    | nil =>
      rw [solid_nil_cons, List.flatten_cons]
      change _ ↔ rest.flatten = [] ∨ _
      rw [← ih]
      by_cases full : remaining = 0
      · simp [full, write_zero]
      · simp [full]
    | cons c piece =>
      rw [solid_cons_cons, List.headD_cons]
      by_cases refused : remaining < (c :: piece).length
      · rw [if_pos (.inl refused)]
        exact iff_of_true rfl (.inr refused)
      · have room : remaining ≠ 0 := by
          intro full
          exact refused (by rw [full, List.length_cons]; exact Nat.succ_pos _)
        rw [if_neg (not_or.mpr ⟨refused, room⟩)]
        exact iff_of_false (by simp) (by simpa using refused)

theorem write_blank : write remaining texts ++ [32] = texts.flatten ↔
    texts.flatten.length = remaining + 1 ∧ (solid texts).getLast? = some [32] := by
  induction texts generalizing remaining with
  | nil => simp [write]
  | cons piece rest ih =>
    rw [write_cons]
    cases piece with
    | nil =>
      rw [solid_nil_cons, List.flatten_cons]
      change _ = rest.flatten ↔ rest.flatten.length = _ ∧ _
      rw [← ih]
      by_cases full : remaining = 0
      · simp [full, write_zero]
      · simp [full]
    | cons c piece =>
      rw [solid_cons_cons, List.flatten_cons, List.length_append]
      by_cases refused : remaining < (c :: piece).length
      · rw [if_pos (.inl refused)]
        constructor
        · intro same
          obtain ⟨rfl, rest_nil⟩ := List.cons.inj same
          obtain ⟨rfl, none⟩ := List.append_eq_nil_iff.mp rest_nil.symm
          rw [none, solid_eq_nil.mpr none]
          simp at refused ⊢
          exact refused
        · rintro ⟨total, last⟩
          have none : rest.flatten = [] := List.length_eq_zero_iff.mp (by omega)
          rw [solid_eq_nil.mpr none] at last
          obtain ⟨rfl, rfl⟩ := List.cons.inj (Option.some.inj last)
          rw [none]
          rfl
      · have room : remaining ≠ 0 := by
          intro full
          exact refused (by rw [full, List.length_cons]; exact Nat.succ_pos _)
        rw [if_neg (not_or.mpr ⟨refused, room⟩), List.append_assoc, List.append_cancel_left_eq, ih]
        have longer : rest.flatten.length = remaining - (c :: piece).length + 1 ↔
            (c :: piece).length + rest.flatten.length = remaining + 1 := by omega
        rw [longer]
        refine and_congr_right fun total => ?_
        have more : solid rest ≠ [] := by
          intro none
          rw [solid_eq_nil.mp none, List.length_nil] at total
          omega
        rw [List.getLast?_cons_of_ne_nil more]

end Cboot.Cmdline
