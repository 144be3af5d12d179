import Cboot.Clib.Strings
import Cboot.Cmdline.Printf

/-!
`lib/clib/printf.c` as it reads the format and writes to the buffer, byte by byte.
-/

namespace Cboot.Clib
open Extlinux.InPlace (Buffer)
open Cmdline (Arg Spec ascii isdigit numeric taken parseSpec padOf expect pieces formatted write)
open Extlinux (Text)

/-- How often `x` can be divided, and `len` is counted, before it is zero. -/
def integerLength (radix : Nat) : Nat → Nat → Nat
  | 0, _ => 0
  | turns + 1, x => if x / radix > 0 then integerLength radix turns (x / radix) + 1 else 1

def fill (padchar : UInt8) : Nat → Buffer → Nat → Option Buffer
  | 0, mem, _ => some mem
  | pad + 1, mem, str => (poke mem str padchar).bind fun mem => fill padchar pad mem (str + 1)

def digits : Text := ascii "0123456789abcdefghijklmnopqrstuvwxyz"

def storeDigits (radix : Nat) : Nat → Nat → Buffer → Nat → Option Buffer
  | 0, _, mem, _ => some mem
  | len + 1, x, mem, str =>
    digits[x % radix]?.bind fun d => (poke mem (str + len) d).bind fun mem => storeDigits radix len (x / radix) mem str

def storeAll : Text → Buffer → Nat → Option Buffer
  | [], mem, _ => some mem
  | c :: text, mem, str => (poke mem str c).bind fun mem => storeAll text mem (str + 1)

def signText (sign : Bool) : Text := if sign then [45] else []

def prefixText (alternateForm : Bool) (radix : Nat) : Text :=
  if alternateForm then (if radix = 8 then [48] else if radix = 16 then [48, 120] else []) else []

/-- What a `size_t` is as an `int`. -/
def toInt (n : Nat) : Int := (n : Int).bmod (2 ^ 32)

/-- `wrote`. More than an `int` counts leaves nothing defined, and needs a `size` of `2 ^ 31` at least. -/
def wroteOf (n : Nat) : Option Int := if n < 2 ^ 31 then some n else none

/-- `sign` is whether there is one to be written. -/
def integerToString (n : Nat) (sign : Bool) (pad : Nat) (mem : Buffer) (str size : Nat) (alternateForm : Bool) (radix : Nat)
    (padchar : UInt8) : Option (Int × Buffer) :=
  let number := integerLength radix 64 n
  let len := number + (signText sign).length + (prefixText alternateForm radix).length
  let total := if len > pad then len else pad
  let pad := if len > pad then 0 else pad - len
  if total > size then some (-1, mem)
  else
    (fill padchar pad mem str).bind fun mem =>
      (storeAll (signText sign) mem (str + pad)).bind fun mem =>
        (storeAll (prefixText alternateForm radix) mem (str + pad + (signText sign).length)).bind fun mem =>
          (storeDigits radix number n mem
            (str + pad + (signText sign).length + (prefixText alternateForm radix).length)).bind fun mem =>
            (wroteOf total).map fun wrote => (wrote, mem)

/-- `*arg` is compared, and `arg` moves on where it is the same. -/
def accept (c : UInt8) (arg : Text) : Option (Bool × Text) :=
  arg.head?.map fun d => if d = c then (true, arg.tail) else (false, arg)

def width : Text → Nat → Option (Nat × Text)
  | [], _ => none
  | c :: arg, pad => if isdigit c then width arg ((pad * 10 + (c.toNat - 48)) % 2 ^ 32) else some (pad, c :: arg)

/-- From the character behind `%` to the one behind the conversion. -/
def readSpec (f : Text) : Option (Spec × Text) :=
  (accept 35 f).bind fun alternate =>
    (accept 48 alternate.2).bind fun zero =>
      (width zero.2 0).bind fun pad =>
        pad.2.head?.bind fun p =>
          (accept 122 pad.2).bind fun size =>
            (accept 108 size.2).bind fun long =>
              (if long.1 then accept 108 long.2 else some (false, long.2)).bind fun longlong =>
                longlong.2.head?.map fun c =>
                  ({ alternateForm := alternate.1 || p = 112
                     zero := zero.1
                     pad := pad.1
                     longint := if longlong.1 then 2 else if long.1 then 1 else if size.1 then 2 else if p = 112 then 1 else 0
                     conversion := some c }, longlong.2.tail)

/-- `wrote`, the arguments that are left, and the buffer. An argument of another kind leaves nothing defined. -/
def convertTo (spec : Spec) (conversion padchar : UInt8) (args : List Arg) (mem : Buffer) (out remaining : Nat) :
    Option (Int × List Arg × Buffer) :=
  match numeric conversion with
  | some (radix, signed) =>
    match args with
    | .num value :: args =>
      let v := taken signed spec.longint value
      (integerToString v.2 v.1 spec.pad mem out remaining spec.alternateForm radix padchar).map fun r => (r.1, args, r.2)
    | _ => none
  | none =>
    if conversion = 115 then
      match args with
      | .str text :: args =>
        if text.length > remaining then some (-1, args, mem)
        else
          (storeAll (text ++ [0]) mem out).bind fun mem =>
            (wroteOf text.length).map fun wrote => (if wrote = 0 then -2 else wrote, args, mem)
      | _ => none
    else if conversion = 99 then
      match args with
      | .num value :: args => (poke mem out value.toUInt8).map fun mem => (1, args, mem)
      | _ => none
    else if conversion = 37 then (poke mem out 37).map fun mem => (1, args, mem)
    else some (-1, args, mem)

/-- The buffer, `out` and `remaining` at the end of the loop. -/
structure Printed where
  mem : Buffer
  out : Nat
  remaining : Nat
  deriving DecidableEq, Repr

def printLoop : Nat → Text → UInt8 → List Arg → Printed → Option Printed
  | 0, _, _, _, _ => none
  | turns + 1, f, padchar, args, s =>
    if s.remaining = 0 then some s
    else
      match f with
      | [] => none
      | cur :: f =>
        if cur = 0 then some s
        else if cur ≠ 37 then
          (poke s.mem s.out cur).bind fun mem => printLoop turns f padchar args ⟨mem, s.out + 1, s.remaining - 1⟩
        else
          (readSpec f).bind fun spec =>
            let padchar := if spec.1.zero then 48 else padchar
            (convertTo spec.1 (spec.1.conversion.getD 0) padchar args s.mem s.out s.remaining).bind fun r =>
              if r.1 = -1 then some { s with mem := r.2.2 }
              else
                let wrote := if r.1 = -2 then 0 else r.1
                printLoop turns spec.2 padchar r.2.1 ⟨r.2.2, s.out + wrote.toNat, s.remaining - wrote.toNat⟩

def tegrablVsnprintf (buf : Buffer) (size : Nat) (format : Text) (args : List Arg) : Option (Buffer × Int) :=
  (printLoop format.length format 32 args ⟨buf, 0, if size = 0 then 2 ^ 64 - 1 else size - 1⟩).bind fun s =>
    (poke s.mem s.out 0).map fun mem => (mem, toInt size - 1 - toInt s.remaining)

/-- An argument that a conversion takes. `chars` is what `%c` may print. -/
def suits (chars : UInt8 → Bool) (conversion : UInt8) : Arg → Bool
  | .num value => (numeric conversion).isSome || conversion == 99 && chars value.toUInt8
  | .str text => conversion == 115 && decide (0 ∉ text)

def supported (conversion : UInt8) : Bool := (numeric conversion).isSome || conversion == 115 || conversion == 99

def matchesFrom (chars : UInt8 → Bool) : Nat → Text → List Arg → Bool
  | 0, _, _ => true
  | _ + 1, [], _ => true
  | turns + 1, c :: f, args =>
    if c ≠ 37 then matchesFrom chars turns f args
    else
      match (parseSpec f).1.conversion with
      | none => true
      | some conversion =>
        if conversion = 37 then matchesFrom chars turns (parseSpec f).2 args
        else if supported conversion then
          match args with
          | [] => false
          | arg :: args => suits chars conversion arg && matchesFrom chars turns (parseSpec f).2 args
        else true

def Matches (chars : UInt8 → Bool) (format : Text) (args : List Arg) : Prop :=
  matchesFrom chars format.length format args = true

instance (chars : UInt8 → Bool) (format : Text) (args : List Arg) : Decidable (Matches chars format args) :=
  inferInstanceAs (Decidable (_ = true))

section
variable {front gap text f : Text} {c padchar : UInt8} {n radix str size pad turns x : Nat}

theorem storeAll_eq (front : Buffer) (room : text.length ≤ gap.length) :
    storeAll text (front ++ gap) front.length = some (front ++ (text ++ gap.drop text.length)) := by
  induction text generalizing front gap with
  | nil => rfl
  | cons c text ih =>
    cases gap with
    | nil => simp at room
    | cons g gap =>
      have next := ih (front ++ [c]) (Nat.le_of_succ_le_succ room)
      simp only [List.append_assoc, List.singleton_append, List.length_append, List.length_singleton] at next
      rw [storeAll, poke_append, Option.bind_some, next]
      rfl

theorem fill_eq (padchar : UInt8) (pad : Nat) (mem : Buffer) (str : Nat) :
    fill padchar pad mem str = storeAll (List.replicate pad padchar) mem str := by
  induction pad generalizing mem str with
  | zero => rfl
  | succ pad ih =>
    rw [fill, List.replicate_succ, storeAll]
    simp only [ih]

theorem storeAll_append (first second : Text) (mem : Buffer) (str : Nat) : storeAll (first ++ second) mem str =
      (storeAll first mem str).bind fun mem => storeAll second mem (str + first.length) := by
  induction first generalizing mem str with
  | nil => rfl
  | cons c first ih =>
    rw [List.cons_append, storeAll, storeAll, Option.bind_assoc]
    refine Option.bind_congr fun mem _ => ?_
    rw [ih, List.length_cons, Nat.add_assoc, Nat.add_comm 1]

def lastDigits (radix : Nat) : Nat → Nat → Text
  | 0, _ => []
  | len + 1, x => lastDigits radix len (x / radix) ++ [(Nat.digitChar (x % radix)).toNat.toUInt8]

theorem length_lastDigits (radix len x : Nat) : (lastDigits radix len x).length = len := by
  induction len generalizing x with
  | zero => rfl
  | succ len ih => rw [lastDigits, List.length_append, ih, List.length_singleton]

theorem digits_eq : ∀ d < 16, digits[d]? = some (Nat.digitChar d).toNat.toUInt8 := by decide

theorem storeDigits_eq (least : 0 < radix) (most : radix ≤ 16) (len x : Nat) (front : Buffer)
    (room : len ≤ gap.length) : storeDigits radix len x (front ++ gap) front.length =
      some (front ++ (lastDigits radix len x ++ gap.drop len)) := by
  induction len generalizing x gap with
  | zero => rfl
  | succ len ih =>
    have small : x % radix < 16 := Nat.lt_of_lt_of_le (Nat.mod_lt x least) most
    obtain ⟨before, g, behind, parts, here⟩ : ∃ before g behind, gap = before ++ g :: behind ∧ before.length = len :=
      ⟨gap.take len, gap[len], gap.drop (len + 1), by simp, by rw [List.length_take]; omega⟩
    have write : ∀ d, poke (front ++ gap) (front.length + len) d = some (front ++ (before ++ d :: behind)) := by
      intro d
      rw [parts, ← here, ← List.append_assoc, ← List.length_append, poke_append, List.append_assoc]
    rw [storeDigits, digits_eq _ small, Option.bind_some, write, Option.bind_some, ih _ (by simp [here]), lastDigits, parts,
      ← here, List.drop_left, Nat.add_comm before.length 1, ← List.drop_drop]
    simp

theorem integerLength_eq (enough : 2 ≤ radix) (small : x < 2 ^ (turns + 1)) :
    integerLength radix (turns + 1) x = (Nat.toDigits radix x).length := by
  induction turns generalizing x with
  | zero =>
    have none : x / radix = 0 := Nat.div_eq_of_lt (Nat.lt_of_lt_of_le small enough)
    have first : Nat.toDigits radix x = [Nat.digitChar x] := Nat.toDigits_of_lt_base (Nat.lt_of_lt_of_le small enough)
    rw [integerLength, none, if_neg (Nat.lt_irrefl 0), first, List.length_singleton]
  | succ turns ih =>
    have less : x / radix < 2 ^ (turns + 1) := by
      rw [Nat.div_lt_iff_lt_mul (by omega)]
      rw [Nat.pow_succ] at small
      exact Nat.lt_of_lt_of_le small (Nat.mul_le_mul_left _ enough)
    rw [integerLength]
    by_cases more : x / radix > 0
    · have above : radix ≤ x := (Nat.div_pos_iff.mp more).2
      rw [if_pos more, ih less, Nat.toDigits_of_base_le (by omega) above, List.length_append, List.length_singleton]
    · have below : x < radix := Nat.lt_of_not_le fun above => more (Nat.div_pos above (by omega))
      rw [if_neg more, Nat.toDigits_of_lt_base below, List.length_singleton]

theorem lastDigits_eq (enough : 2 ≤ radix) (x : Nat) :
    lastDigits radix (Nat.toDigits radix x).length x = (Nat.toDigits radix x).map fun c => c.toNat.toUInt8 := by
  induction x using Nat.strongRecOn with
  | ind x ih =>
    by_cases below : x < radix
    · rw [Nat.toDigits_of_lt_base below, List.length_singleton, lastDigits, lastDigits, Nat.mod_eq_of_lt below]
      rfl
    · have above := Nat.le_of_not_lt below
      have less : x / radix < x := Nat.div_lt_self (by omega) enough
      rw [Nat.toDigits_of_base_le (by omega) above, List.length_append, List.length_singleton, lastDigits, ih _ less,
        List.map_append]
      rfl

theorem toInt_eq (small : n < 2 ^ 31) : toInt n = n := by
  have low : -((2 ^ 32 : Nat) / 2 : Int) ≤ n := by omega
  have high : (n : Int) < ((2 ^ 32 : Nat) + 1) / 2 := by omega
  exact Int.bmod_eq_of_le low high

theorem wroteOf_eq (small : n < 2 ^ 31) : wroteOf n = some (n : Int) := if_pos small

def numberText (n : Nat) (sign alternateForm : Bool) (radix : Nat) : Text :=
  signText sign ++ prefixText alternateForm radix ++ (Nat.toDigits radix n).map fun c => c.toNat.toUInt8

theorem integerToString_text (n : Nat) (sign : Bool) (pad : Nat) (alternateForm : Bool) (radix : Nat) (padchar : UInt8) :
    Cmdline.integerToString n sign pad alternateForm radix padchar =
      List.replicate (pad - (numberText n sign alternateForm radix).length) padchar ++
        numberText n sign alternateForm radix := rfl

theorem storeHead_eq (p : Nat) (sign mark : Text) (mem : Buffer) (str : Nat) (rest : Buffer → Option (Int × Buffer)) :
    ((fill padchar p mem str).bind fun mem => (storeAll sign mem (str + p)).bind fun mem =>
      (storeAll mark mem (str + p + sign.length)).bind rest) =
      (storeAll (List.replicate p padchar ++ (sign ++ mark)) mem str).bind rest := by
  rw [fill_eq, storeAll_append, Option.bind_assoc, List.length_replicate]
  refine Option.bind_congr fun mem _ => ?_
  rw [storeAll_append, Option.bind_assoc]

theorem integerToString_eq (sign alternateForm : Bool) (pad : Nat) (padchar : UInt8) (enough : 2 ≤ radix)
    (most : radix ≤ 16) (value : n < 2 ^ 64) (front : Buffer) (room : size ≤ gap.length) (small : size < 2 ^ 31)
    (text_eq : Cmdline.integerToString n sign pad alternateForm radix padchar = text) :
    integerToString n sign pad (front ++ gap) front.length size alternateForm radix padchar =
      if size < text.length then some (-1, front ++ gap)
      else some ((text.length : Int), front ++ (text ++ gap.drop text.length)) := by
  rw [integerToString_text] at text_eq
  have number : integerLength radix 64 n = (Nat.toDigits radix n).length := integerLength_eq enough value
  have length : (numberText n sign alternateForm radix).length =
      (Nat.toDigits radix n).length + (signText sign).length + (prefixText alternateForm radix).length := by
    simp only [numberText, List.length_append, List.length_map]
    omega
  have total : (if (numberText n sign alternateForm radix).length > pad then (numberText n sign alternateForm radix).length
      else pad) = text.length := by
    rw [← text_eq, List.length_append, List.length_replicate]
    split <;> omega
  have padding : (if (numberText n sign alternateForm radix).length > pad then 0
      else pad - (numberText n sign alternateForm radix).length) =
        pad - (numberText n sign alternateForm radix).length := by
    split <;> omega
  rw [integerToString, number, ← length, total, padding]
  by_cases full : size < text.length
  · rw [if_pos full, if_pos full]
  · let p := pad - (numberText n sign alternateForm radix).length
    let head := List.replicate p padchar ++ (signText sign ++ prefixText alternateForm radix)
    have parts : text = head ++ lastDigits radix (Nat.toDigits radix n).length n :=
      calc text = List.replicate p padchar ++ numberText n sign alternateForm radix := text_eq.symm
        _ = head ++ lastDigits radix (Nat.toDigits radix n).length n := by
          rw [lastDigits_eq enough, numberText, ← List.append_assoc]
    have headLength : head.length = p + (signText sign).length + (prefixText alternateForm radix).length := by
      simp only [head, List.length_append, List.length_replicate, Nat.add_assoc]
    have textLength : text.length = head.length + (Nat.toDigits radix n).length := by
      rw [parts, List.length_append, length_lastDigits]
    have place : front.length + p + (signText sign).length + (prefixText alternateForm radix).length =
        (front ++ head).length := by
      rw [List.length_append, headLength]
      omega
    have room' : head.length ≤ gap.length := by omega
    rw [if_neg full, if_neg full, storeHead_eq, storeAll_eq front room', Option.bind_some, place,
      ← List.append_assoc, storeDigits_eq (by omega) most _ _ _ (by rw [List.length_drop]; omega), List.drop_drop,
      Option.bind_some, wroteOf_eq (by omega), ← textLength, parts]
    simp only [Option.map_some, List.append_assoc]

theorem accept_eq (some_char : c ≠ 0) (f : Text) :
    accept c (f ++ [0]) = some ((expect c f).1, (expect c f).2 ++ [0]) := by
  cases f with
  | nil => simp [accept, expect, some_char.symm]
  | cons d f =>
    by_cases same : d = c
    · simp [accept, expect, same]
    · simp [accept, expect, same]

theorem width_eq (f : Text) (pad : Nat) : width (f ++ [0]) pad =
    some ((f.takeWhile isdigit).foldl (fun pad c => (pad * 10 + (c.toNat - 48)) % 2 ^ 32) pad,
      f.dropWhile isdigit ++ [0]) := by
  induction f generalizing pad with
  | nil => rfl
  | cons c f ih =>
    rw [List.cons_append, width]
    by_cases found : isdigit c
    · rw [if_pos found, ih, List.takeWhile_cons_of_pos found, List.dropWhile_cons_of_pos found, List.foldl_cons]
    · rw [if_neg found, List.takeWhile_cons_of_neg found, List.dropWhile_cons_of_neg found, List.foldl_nil,
        List.cons_append]

def ended (spec : Spec) : Spec := { spec with conversion := some (spec.conversion.getD 0) }

theorem readSpec_eq (f : Text) : readSpec (f ++ [0]) =
    some (ended (parseSpec f).1, if (parseSpec f).1.conversion.isSome then (parseSpec f).2 ++ [0] else []) := by
  have peek : ∀ g : Text, (g ++ [0]).head? = some (g.head?.getD 0) := by
    intro g
    cases g <;> simp
  have tail : ∀ g : Text, (g ++ [0]).tail = if g.head?.isSome then g.tail ++ [0] else [] := by
    intro g
    cases g <;> simp
  have second : ∀ (long : Bool) (g : Text), (if long then accept 108 (g ++ [0]) else some (false, g ++ [0])) =
      some ((if long then expect 108 g else (false, g)).1, (if long then expect 108 g else (false, g)).2 ++ [0]) := by
    intro long g
    cases long with
    | true => exact accept_eq (by decide) g
    | false => rfl
  rw [readSpec, accept_eq (by decide), Option.bind_some, accept_eq (by decide), Option.bind_some, width_eq,
    Option.bind_some, peek, Option.bind_some, accept_eq (by decide), Option.bind_some, accept_eq (by decide),
    Option.bind_some, second, Option.bind_some, peek, Option.map_some, tail]
  have asked : ∀ g : Text, (g.head?.getD 0 = 112) = (g.head? = some 112) := by
    intro g
    cases g <;> simp
  simp only [asked]
  rfl

/-- What is to be printed, and what came of it in a buffer with a gap behind `front`. -/
inductive Turn (front gap : Buffer) (remaining : Nat) (args : List Arg) :
    Option (Text × List Arg) → Option (Int × List Arg × Buffer) → Prop
  | unsupported : Turn front gap remaining args none (some (-1, args, front ++ gap))
  | full (text : Text) (rest : List Arg) (long : remaining < text.length) :
    Turn front gap remaining args (some (text, rest)) (some (-1, rest, front ++ gap))
  | printed (text : Text) (rest : List Arg) (wrote : Int) (left : Buffer) (fits : text.length ≤ remaining)
    (length : text.length + left.length = gap.length) (more : wrote ≠ -1)
    (same : (if wrote = -2 then 0 else wrote) = text.length) :
    Turn front gap remaining args (some (text, rest)) (some (wrote, rest, front ++ (text ++ left)))

theorem numeric_bounds {conversion : UInt8} {signed : Bool} (number : numeric conversion = some (radix, signed)) :
    2 ≤ radix ∧ radix ≤ 16 := by
  rw [numeric] at number
  repeat' split at number
  all_goals
    cases number
    try decide

theorem taken_lt (signed : Bool) (longint : Nat) (value : UInt64) : (taken signed longint value).2 < 2 ^ 64 := by
  have wide := value.toNat_lt
  have narrow := value.toUInt32.toNat_lt
  have low := value.toInt64.le_toInt
  have high := value.toInt64.toInt_lt
  have low' := value.toUInt32.toInt32.le_toInt
  have high' := value.toUInt32.toInt32.toInt_lt
  rw [taken]
  by_cases plain : longint = 0
  · simp only [plain, if_true]
    split
    · omega
    · omega
  · simp only [plain, if_false]
    split
    · omega
    · omega

variable {spec : Spec} {args : List Arg} {remaining : Nat} {chars : UInt8 → Bool}

def takes (chars : UInt8 → Bool) (conversion : UInt8) (args : List Arg) : Bool :=
  conversion == 37 || !supported conversion || args.head?.any (suits chars conversion)

inductive Made (spec : Spec) (padchar : UInt8) : List Arg → Text → List Arg → Prop
  | number {conversion : UInt8} {radix : Nat} {signed : Bool} (asked : spec.conversion = some conversion)
    (kind : numeric conversion = some (radix, signed)) (value : UInt64) (rest : List Arg) :
    Made spec padchar (.num value :: rest) (Cmdline.integerToString (taken signed spec.longint value).2
      (taken signed spec.longint value).1 spec.pad spec.alternateForm radix padchar) rest
  | string (asked : spec.conversion = some 115) (text : Text) (rest : List Arg) :
    Made spec padchar (.str text :: rest) text rest
  | char (asked : spec.conversion = some 99) (value : UInt64) (rest : List Arg) :
    Made spec padchar (.num value :: rest) [value.toUInt8] rest
  | percent (asked : spec.conversion = some 37) (args : List Arg) : Made spec padchar args [37] args

variable {rest : List Arg}

theorem convert_of_made (made : Made spec padchar args text rest) :
    Cmdline.convert spec padchar args = some (text, rest) := by
  have string : numeric 115 = none := rfl
  have char : numeric 99 = none := rfl
  have percent : numeric 37 = none := rfl
  cases made with
  | number asked kind value rest => simp [Cmdline.convert, asked, kind]
  | string asked => simp [Cmdline.convert, asked, string]
  | char asked value rest => simp [Cmdline.convert, asked, char]
  | percent asked =>
    cases args with
    | nil => simp [Cmdline.convert, asked, percent]
    | cons arg args => cases arg <;> simp [Cmdline.convert, asked, percent]

theorem made_of_convert (done : Cmdline.convert spec padchar args = some (text, rest)) :
    Made spec padchar args text rest := by
  cases asked : spec.conversion with
  | none => simp [Cmdline.convert, asked] at done
  | some conversion =>
    cases kind : numeric conversion with
    | some number =>
      obtain ⟨radix, signed⟩ := number
      cases args with
      | nil => simp [Cmdline.convert, asked, kind] at done
      | cons arg args =>
        cases arg with
        | str => simp [Cmdline.convert, asked, kind] at done
        | num value =>
          have made : Made spec padchar _ _ _ := .number asked kind value args
          rw [convert_of_made made, Option.some.injEq, Prod.mk.injEq] at done
          obtain ⟨rfl, rfl⟩ := done
          exact made
    | none =>
      by_cases percent : conversion = 37
      · subst percent
        have made : Made spec padchar _ _ _ := .percent asked args
        rw [convert_of_made made, Option.some.injEq, Prod.mk.injEq] at done
        obtain ⟨rfl, rfl⟩ := done
        exact made
      · cases args with
        | nil => simp [Cmdline.convert, asked, kind, percent] at done
        | cons arg args =>
          cases arg with
          | str string =>
            by_cases same : conversion = 115
            · subst same
              have made : Made spec padchar _ _ _ := .string asked string args
              rw [convert_of_made made, Option.some.injEq, Prod.mk.injEq] at done
              obtain ⟨rfl, rfl⟩ := done
              exact made
            · simp [Cmdline.convert, asked, kind, percent, same] at done
          | num value =>
            by_cases same : conversion = 99
            · subst same
              have made : Made spec padchar _ _ _ := .char asked value args
              rw [convert_of_made made, Option.some.injEq, Prod.mk.injEq] at done
              obtain ⟨rfl, rfl⟩ := done
              exact made
            · simp [Cmdline.convert, asked, kind, percent, same] at done

theorem takes_number {conversion : UInt8} {signed : Bool} (number : numeric conversion = some (radix, signed))
    (good : takes chars conversion args) : ∃ value rest, args = .num value :: rest := by
  have other : conversion ≠ 37 ∧ conversion ≠ 115 := by
    constructor <;>
      · rintro rfl
        cases number
  cases args with
  | nil => simp [takes, supported, number, other] at good
  | cons arg rest =>
    cases arg with
    | str text => simp [takes, supported, number, other, suits] at good
    | num value => exact ⟨value, rest, rfl⟩

theorem takes_string (good : takes chars 115 args) : ∃ text rest, args = .str text :: rest ∧ 0 ∉ text := by
  have number : numeric 115 = none := rfl
  cases args with
  | nil => simp [takes, supported] at good
  | cons arg rest =>
    cases arg with
    | str text => exact ⟨text, rest, rfl, by simpa [takes, supported, suits] using good⟩
    | num value => simp [takes, supported, suits, number] at good

theorem takes_char (good : takes chars 99 args) : ∃ value rest, args = .num value :: rest ∧ chars value.toUInt8 := by
  have number : numeric 99 = none := rfl
  cases args with
  | nil => simp [takes, supported] at good
  | cons arg rest =>
    cases arg with
    | str text => simp [takes, supported, suits] at good
    | num value => exact ⟨value, rest, rfl, by simpa [takes, supported, suits, number] using good⟩

theorem convertTo_turn (good : takes chars (spec.conversion.getD 0) args) (some_room : remaining ≠ 0)
    (room : remaining + 1 = gap.length) (small : remaining < 2 ^ 31) (front : Buffer) (padchar : UInt8) :
    Turn front gap remaining args (Cmdline.convert spec padchar args)
      (convertTo (ended spec) (spec.conversion.getD 0) padchar args (front ++ gap) front.length remaining) := by
  have one : ∀ c, poke (front ++ gap) front.length c = some (front ++ ([c] ++ gap.drop 1)) := by
    intro c
    cases gap with
    | nil => simp at room
    | cons g gap => exact poke_append front gap g c
  have single : 1 + (gap.drop 1).length = gap.length := by
    rw [List.length_drop]
    omega
  cases asked : spec.conversion with
  | none =>
    have none : Cmdline.convert spec padchar args = none := by simp [Cmdline.convert, asked]
    rw [none]
    exact .unsupported
  | some conversion =>
    rw [asked, Option.getD_some] at good
    rw [Option.getD_some]
    cases number : numeric conversion with
    | some kind =>
      obtain ⟨radix, signed⟩ := kind
      obtain ⟨value, rest, rfl⟩ := takes_number number good
      obtain ⟨enough, most⟩ := numeric_bounds number
      have inside : remaining ≤ gap.length := by omega
      have write := integerToString_eq (taken signed spec.longint value).1 spec.alternateForm spec.pad padchar enough most
        (taken_lt signed spec.longint value) front inside small rfl
      have code : convertTo (ended spec) conversion padchar (.num value :: rest) (front ++ gap) front.length remaining =
          (integerToString (taken signed spec.longint value).2 (taken signed spec.longint value).1 spec.pad (front ++ gap)
            front.length remaining spec.alternateForm radix padchar).map fun r => (r.1, rest, r.2) := by
        simp [convertTo, number, ended]
      rw [convert_of_made (.number asked number value rest), code, write]
      split
      case isTrue long => exact .full _ _ long
      case isFalse fits =>
        refine .printed _ _ _ _ (Nat.le_of_not_lt fits) ?_ (by omega) ?_
        · rw [List.length_drop]
          omega
        · rw [if_neg (by omega)]
    | none =>
      by_cases string : conversion = 115
      · subst string
        obtain ⟨text, rest, rfl, clean⟩ := takes_string good
        have code : convertTo (ended spec) 115 padchar (.str text :: rest) (front ++ gap) front.length remaining =
            if text.length > remaining then some (-1, rest, front ++ gap)
            else (storeAll (text ++ [0]) (front ++ gap) front.length).bind fun mem =>
              (wroteOf text.length).map fun wrote => (if wrote = 0 then -2 else wrote, rest, mem) := by
          simp [convertTo, number]
        rw [convert_of_made (.string asked text rest), code]
        split
        case isTrue long => exact .full _ _ long
        case isFalse fits =>
          have length : (text ++ [0]).length = text.length + 1 := by simp
          rw [storeAll_eq front (by omega), Option.bind_some, wroteOf_eq (by omega), Option.map_some, List.append_assoc]
          refine .printed _ _ _ _ (Nat.le_of_not_lt fits) ?_ ?_ ?_
          · rw [List.length_append, List.length_drop, List.length_singleton]
            omega
          · split <;> omega
          · split <;> split <;> omega
      · by_cases char : conversion = 99
        · subst char
          obtain ⟨value, rest, rfl, -⟩ := takes_char good
          have code : convertTo (ended spec) 99 padchar (.num value :: rest) (front ++ gap) front.length remaining =
              some (1, rest, front ++ ([value.toUInt8] ++ gap.drop 1)) := by
            simp [convertTo, number, one]
          rw [convert_of_made (.char asked value rest), code]
          exact .printed [value.toUInt8] rest 1 _ (Nat.one_le_iff_ne_zero.mpr some_room) single (by decide) rfl
        · by_cases percent : conversion = 37
          · subst percent
            have code : convertTo (ended spec) 37 padchar args (front ++ gap) front.length remaining =
                some (1, args, front ++ ([37] ++ gap.drop 1)) := by
              simp [convertTo, number, one]
            rw [convert_of_made (.percent asked args), code]
            exact .printed [37] args 1 _ (Nat.one_le_iff_ne_zero.mpr some_room) single (by decide) rfl
          · have none : Cmdline.convert spec padchar args = none := by
              cases args with
              | nil => simp [Cmdline.convert, asked, number, percent]
              | cons arg rest => cases arg <;> simp [Cmdline.convert, asked, number, string, char, percent]
            have code : convertTo (ended spec) conversion padchar args (front ++ gap) front.length remaining =
                some (-1, args, front ++ gap) := by
              simp [convertTo, number, string, char, percent]
            rw [none, code]
            exact .unsupported

theorem expect_suffix (c : UInt8) (f : Text) : (expect c f).2 <:+ f := by
  rw [expect]
  split
  · exact List.tail_suffix f
  · exact List.suffix_refl f

theorem parseSpec_suffix (f : Text) : (parseSpec f).2 <:+ f := by
  have long : ∀ (b : Bool) (g : Text), (if b then expect 108 g else (false, g)).2 <:+ g := by
    intro b g
    cases b with
    | true => exact expect_suffix 108 g
    | false => exact List.suffix_refl g
  exact (List.tail_suffix _).trans ((long _ _).trans ((expect_suffix _ _).trans ((expect_suffix _ _).trans
    ((List.dropWhile_suffix _).trans ((expect_suffix _ _).trans (expect_suffix _ _))))))

theorem convert_some (done : Cmdline.convert spec padchar args = some (text, rest)) :
    ∃ conversion, spec.conversion = some conversion ∧ (rest = if conversion = 37 then args else args.tail) ∧
      (conversion = 37 ∨ supported conversion) := by
  cases made_of_convert done with
  | @number conversion radix signed asked kind value =>
    have other : conversion ≠ 37 := by
      rintro rfl
      cases kind
    exact ⟨conversion, asked, (if_neg other).symm, .inr (by simp [supported, kind])⟩
  | string asked => exact ⟨115, asked, rfl, .inr rfl⟩
  | char asked => exact ⟨99, asked, rfl, .inr rfl⟩
  | percent asked => exact ⟨37, asked, rfl, .inl rfl⟩

theorem matchesFrom_spec (good : matchesFrom chars (turns + 1) (37 :: f) args) :
    takes chars ((parseSpec f).1.conversion.getD 0) args ∧
      ∀ {padchar text rest}, Cmdline.convert (parseSpec f).1 padchar args = some (text, rest) →
        matchesFrom chars turns (parseSpec f).2 rest := by
  rw [matchesFrom, if_neg (not_not_intro rfl)] at good
  cases asked : (parseSpec f).1.conversion with
  | none =>
    refine ⟨rfl, fun done => ?_⟩
    obtain ⟨conversion, some, -⟩ := convert_some done
    rw [asked] at some
    cases some
  | some conversion =>
    simp only [asked] at good
    rw [Option.getD_some, takes]
    by_cases percent : conversion = 37
    · rw [if_pos percent] at good
      refine ⟨by simp [percent], fun done => ?_⟩
      obtain ⟨_, same, left, -⟩ := convert_some done
      obtain rfl := Option.some.inj (asked.symm.trans same)
      rw [left, if_pos percent]
      exact good
    · rw [if_neg percent] at good
      by_cases known : supported conversion
      · rw [if_pos known] at good
        cases args with
        | nil => cases good
        | cons arg args =>
          obtain ⟨suited, later⟩ := Bool.and_eq_true_iff.mp good
          refine ⟨by simp [suited], fun done => ?_⟩
          obtain ⟨_, same, left, -⟩ := convert_some done
          obtain rfl := Option.some.inj (asked.symm.trans same)
          rw [left, if_neg percent]
          exact later
      · refine ⟨by simp [known], fun done => ?_⟩
        obtain ⟨_, same, -, understood⟩ := convert_some done
        obtain rfl := Option.some.inj (asked.symm.trans same)
        exact absurd understood (not_or.mpr ⟨percent, known⟩)

variable {s : Printed}

theorem printLoop_full (full : s.remaining = 0) (f : Text) (padchar : UInt8) (args : List Arg) :
    printLoop (turns + 1) f padchar args s = some s := by
  unfold printLoop
  rw [if_pos full]

theorem printLoop_end (room : s.remaining ≠ 0) (f : Text) (padchar : UInt8) (args : List Arg) :
    printLoop (turns + 1) (0 :: f) padchar args s = some s := by
  unfold printLoop
  rw [if_neg room]
  rfl

theorem printLoop_char (room : s.remaining ≠ 0) (some_char : c ≠ 0) (plain : c ≠ 37) (f : Text)
    (padchar : UInt8) (args : List Arg) : printLoop (turns + 1) (c :: f) padchar args s =
      (poke s.mem s.out c).bind fun mem => printLoop turns f padchar args ⟨mem, s.out + 1, s.remaining - 1⟩ := by
  conv_lhs => unfold printLoop
  simp only [if_neg room, if_neg some_char, if_pos plain]

theorem printLoop_spec (room : s.remaining ≠ 0) (f : Text) (padchar : UInt8) (args : List Arg) :
    printLoop (turns + 1) (37 :: (f ++ [0])) padchar args s =
      (convertTo (ended (parseSpec f).1) ((parseSpec f).1.conversion.getD 0)
        (if (parseSpec f).1.zero then 48 else padchar) args s.mem s.out s.remaining).bind fun r =>
        if r.1 = -1 then some { s with mem := r.2.2 }
        else printLoop turns (if (parseSpec f).1.conversion.isSome then (parseSpec f).2 ++ [0] else [])
          (if (parseSpec f).1.zero then 48 else padchar) r.2.1
          ⟨r.2.2, s.out + (if r.1 = -2 then 0 else r.1).toNat, s.remaining - (if r.1 = -2 then 0 else r.1).toNat⟩ := by
  conv_lhs => unfold printLoop
  simp only [if_neg room, readSpec_eq, Option.bind_some]
  rfl

theorem pieces_nil (fuel : Nat) (padchar : UInt8) (args : List Arg) : pieces fuel padchar [] args = [] := by
  cases fuel <;> rfl

theorem pieces_char {fuel : Nat} (plain : c ≠ 37) (padchar : UInt8) (f : Text) (args : List Arg) :
    pieces (fuel + 1) padchar (c :: f) args = [c] :: pieces fuel padchar f args := if_pos plain

theorem pieces_spec (fuel : Nat) (padchar : UInt8) (f : Text) (args : List Arg) :
    pieces (fuel + 1) padchar (37 :: f) args =
      match Cmdline.convert (parseSpec f).1 (if (parseSpec f).1.zero then 48 else padchar) args with
      | none => []
      | some (text, args) =>
        text :: pieces fuel (if (parseSpec f).1.zero then 48 else padchar) (parseSpec f).2 args := rfl

theorem printLoop_eq {fuel : Nat} (unended : 0 ∉ f) (enough : f.length ≤ fuel) (long : f.length < turns)
    (good : matchesFrom chars fuel f args) (front : Buffer) (room : remaining + 1 = gap.length)
    (small : remaining < 2 ^ 31) (printed : write remaining (pieces fuel padchar f args) = text) :
    ∃ left, printLoop turns (f ++ [0]) padchar args ⟨front ++ gap, front.length, remaining⟩ =
        some ⟨front ++ (text ++ left), front.length + text.length, remaining - text.length⟩ ∧
      text.length + left.length = gap.length := by
  induction turns generalizing fuel f args padchar front gap remaining text with
  | zero => exact absurd long (Nat.not_lt_zero _)
  | succ turns ih =>
    by_cases none_left : remaining = 0
    · subst none_left
      rw [Cmdline.write_zero] at printed
      subst printed
      exact ⟨gap, printLoop_full rfl _ _ _, Nat.zero_add _⟩
    · cases f with
      | nil =>
        rw [pieces_nil, write] at printed
        subst printed
        exact ⟨gap, printLoop_end none_left _ _ _, Nat.zero_add _⟩
      | cons c f =>
        obtain ⟨other, later⟩ := not_or.mp (mt List.mem_cons.mpr unended)
        obtain ⟨fuel, rfl⟩ : ∃ n, fuel = n + 1 := Nat.exists_eq_add_one.mpr (Nat.lt_of_lt_of_le (Nat.succ_pos _) enough)
        have enough' : f.length ≤ fuel := Nat.le_of_succ_le_succ enough
        have long' : f.length < turns := Nat.lt_of_succ_lt_succ long
        by_cases plain : c ≠ 37
        · rw [pieces_char plain, Cmdline.write_cons, if_neg (by simp; omega)] at printed
          rw [matchesFrom, if_pos plain] at good
          rw [List.cons_append, printLoop_char none_left (Ne.symm other) plain]
          cases gap with
          | nil => simp at room
          | cons g gap =>
            have room : remaining - 1 + 1 = gap.length := by simp at room; omega
            obtain ⟨left, ran, length⟩ := ih later enough' long' good (front ++ [c]) room (by omega) rfl
            rw [List.append_assoc, List.length_append] at ran
            refine ⟨left, ?_, ?_⟩
            · rw [poke_append, Option.bind_some, ← printed]
              simp only [List.singleton_append, List.length_singleton] at ran ⊢
              rw [ran]
              simp [Nat.add_assoc, Nat.sub_sub, Nat.add_comm 1]
            · rw [← printed, List.length_append, List.length_singleton, List.length_cons, ← length]
              omega
        · obtain rfl := not_not.mp plain
          obtain ⟨taken, rest⟩ := matchesFrom_spec good
          have turn := convertTo_turn taken none_left room small front (if (parseSpec f).1.zero then 48 else padchar)
          have shorter := parseSpec_suffix f
          rw [pieces_spec] at printed
          rw [List.cons_append, printLoop_spec none_left]
          generalize asked : Cmdline.convert (parseSpec f).1 (if (parseSpec f).1.zero then 48 else padchar) args = wanted
            at turn printed
          generalize convertTo (ended (parseSpec f).1) ((parseSpec f).1.conversion.getD 0)
            (if (parseSpec f).1.zero then 48 else padchar) args (front ++ gap) front.length remaining = came at turn
          cases turn with
          | unsupported =>
            rw [write] at printed
            subst printed
            exact ⟨gap, rfl, Nat.zero_add _⟩
          | full piece args excess =>
            rw [Cmdline.write_cons, if_pos (.inl excess)] at printed
            subst printed
            exact ⟨gap, rfl, Nat.zero_add _⟩
          | printed piece args wrote gap' fits length more same =>
            rw [Cmdline.write_cons, if_neg (not_or.mpr ⟨Nat.not_lt.mpr fits, none_left⟩)] at printed
            obtain ⟨conversion, found, -⟩ := convert_some asked
            have room' : remaining - piece.length + 1 = gap'.length := by omega
            obtain ⟨left, ran, total⟩ := ih (fun member => later (shorter.subset member))
              (Nat.le_trans shorter.length_le enough') (Nat.lt_of_le_of_lt shorter.length_le long') (rest asked)
              (front ++ piece) room' (by omega) rfl
            refine ⟨left, ?_, ?_⟩
            · rw [Option.bind_some, if_neg more, same, found, Option.isSome_some, if_pos rfl, Int.toNat_natCast, ← printed]
              simp only [List.append_assoc, List.length_append, Nat.add_assoc, Nat.sub_sub] at ran ⊢
              exact ran
            · rw [← printed, List.length_append, ← length, ← total]
              omega

theorem tegrablVsnprintf_eq {buf : Buffer} {format : Text} (some_room : 1 ≤ buf.length) (small : buf.length < 2 ^ 31)
    (unended : 0 ∉ format) (good : Matches chars format args) :
    ∃ left, tegrablVsnprintf buf buf.length (format ++ [0]) args =
        some (Cmdline.tegrablVsnprintf buf.length format args ++ 0 :: left,
          ((Cmdline.tegrablVsnprintf buf.length format args).length : Int)) ∧
      (Cmdline.tegrablVsnprintf buf.length format args ++ 0 :: left).length = buf.length := by
  have turns : format.length < (format ++ [0]).length := by simp
  have room : buf.length - 1 + 1 = buf.length := by omega
  obtain ⟨left, ran, length⟩ := printLoop_eq unended (Nat.le_refl _) turns good [] room (by omega)
    (rfl : write (buf.length - 1) (pieces format.length 32 format args) = _)
  have within := Cmdline.write_length_le (buf.length - 1) (pieces format.length 32 format args)
  have pure : Cmdline.tegrablVsnprintf buf.length format args =
      write (buf.length - 1) (pieces format.length 32 format args) := by
    rw [Cmdline.tegrablVsnprintf, if_neg (by omega), formatted]
  rw [List.nil_append, List.nil_append, List.length_nil, Nat.zero_add] at ran
  rw [tegrablVsnprintf, if_neg (by omega), ran, Option.bind_some, pure]
  clear ran pure
  generalize write (buf.length - 1) (pieces format.length 32 format args) = text at length within ⊢
  cases left with
  | nil => simp at length; omega
  | cons g left =>
    refine ⟨left, ?_, ?_⟩
    · have fewer : buf.length - 1 - text.length < 2 ^ 31 := by omega
      rw [poke_append, Option.map_some, toInt_eq small, toInt_eq fewer]
      have count : ((buf.length : Nat) : Int) - 1 - ((buf.length - 1 - text.length : Nat) : Int) = text.length := by omega
      rw [count]
    · rw [← length, List.length_append]
      rfl

theorem zero_not_mem_lastDigits (least : 0 < radix) (most : radix ≤ 16) (len x : Nat) : 0 ∉ lastDigits radix len x := by
  have digit : ∀ d < 16, (Nat.digitChar d).toNat.toUInt8 ≠ 0 := by decide
  induction len generalizing x with
  | zero => exact List.not_mem_nil
  | succ len ih =>
    rw [lastDigits, List.mem_append, List.mem_singleton]
    exact not_or.mpr ⟨ih _, (digit _ (Nat.lt_of_lt_of_le (Nat.mod_lt x least) most)).symm⟩

theorem zero_not_mem_number {sign alternateForm : Bool} (enough : 2 ≤ radix) (most : radix ≤ 16) (shown : padchar ≠ 0)
    (n pad : Nat) : 0 ∉ Cmdline.integerToString n sign pad alternateForm radix padchar := by
  have signs : 0 ∉ signText sign := by
    cases sign <;> decide
  have marks : 0 ∉ prefixText alternateForm radix := by
    rw [prefixText]
    repeat' split
    all_goals decide
  have number := zero_not_mem_lastDigits (by omega) most (Nat.toDigits radix n).length n
  rw [lastDigits_eq enough] at number
  rw [integerToString_text, numberText]
  simp only [List.mem_append, List.mem_replicate, not_or, not_and]
  exact ⟨fun _ => shown.symm, ⟨signs, marks⟩, number⟩

theorem zero_not_mem_convert (clean : chars 0 = false) (shown : padchar ≠ 0)
    (good : takes chars (spec.conversion.getD 0) args)
    (done : Cmdline.convert spec padchar args = some (text, rest)) : 0 ∉ text := by
  cases made_of_convert done with
  | number asked kind value =>
    obtain ⟨enough, most⟩ := numeric_bounds kind
    exact zero_not_mem_number enough most shown _ _
  | string asked =>
    rw [asked] at good
    obtain ⟨_, _, same, unended⟩ := takes_string good
    cases same
    exact unended
  | char asked =>
    rw [asked] at good
    obtain ⟨_, _, same, printable⟩ := takes_char good
    cases same
    rw [List.mem_singleton]
    intro zero
    rw [← zero, clean] at printable
    cases printable
  | percent => decide

theorem zero_not_mem_pieces {fuel : Nat} (clean : chars 0 = false) (unended : 0 ∉ f) (shown : padchar ≠ 0)
    (good : matchesFrom chars fuel f args) : 0 ∉ (pieces fuel padchar f args).flatten := by
  induction fuel generalizing f padchar args with
  | zero => exact List.not_mem_nil
  | succ fuel ih =>
    cases f with
    | nil => exact List.not_mem_nil
    | cons c f =>
      obtain ⟨other, later⟩ := not_or.mp (mt List.mem_cons.mpr unended)
      by_cases plain : c ≠ 37
      · rw [matchesFrom, if_pos plain] at good
        rw [pieces_char plain, List.flatten_cons, List.singleton_append, List.mem_cons]
        exact not_or.mpr ⟨other, ih later shown good⟩
      · obtain rfl := not_not.mp plain
        obtain ⟨taken, rest⟩ := matchesFrom_spec good
        have shown : (if (parseSpec f).1.zero then 48 else padchar) ≠ 0 := by
          split
          · decide
          · exact shown
        rw [pieces_spec]
        cases asked : Cmdline.convert (parseSpec f).1 (if (parseSpec f).1.zero then 48 else padchar) args with
        | none => exact List.not_mem_nil
        | some printed =>
          have later := ih (fun member => later ((parseSpec_suffix f).subset member)) shown (rest asked)
          rw [List.flatten_cons, List.mem_append]
          exact not_or.mpr ⟨zero_not_mem_convert clean shown taken asked, later⟩

theorem zero_not_mem_text {format : Text} (clean : chars 0 = false) (unended : 0 ∉ format)
    (good : Matches chars format args) (size : Nat) : 0 ∉ Cmdline.tegrablVsnprintf size format args := by
  intro member
  have whole := zero_not_mem_pieces clean unended (by decide : (32 : UInt8) ≠ 0) good
  exact whole ((Cmdline.write_prefix _ _).subset member)

/-- Nothing is read or written outside, and as many characters stand in front of the byte that ends the text as is
returned. Only `%c` can put such a byte among them. -/
theorem tegrablVsnprintf_safe (buf : Buffer) (format : Text) (args : List Arg) (some_room : 1 ≤ buf.length)
    (small : buf.length < 2 ^ 31) (unended : 0 ∉ format) (good : Matches (fun _ => true) format args) :
    ∃ text left, tegrablVsnprintf buf buf.length (format ++ [0]) args = some (text ++ 0 :: left, (text.length : Int)) ∧
      (text ++ 0 :: left).length = buf.length ∧ (Matches (fun c => c ≠ 0) format args → 0 ∉ text) := by
  obtain ⟨left, ran, length⟩ := tegrablVsnprintf_eq some_room small unended good
  exact ⟨_, left, ran, length, fun printable => zero_not_mem_text (by decide) unended printable _⟩

/-- A name, a sign and a number, and a last character that there is no room for. -/
theorem tegrablVsnprintf_seven : ∃ text left, tegrablVsnprintf (List.replicate 8 7) 8 (ascii "%s=%05d|" ++ [0])
      [.str (ascii "a"), .num 0xFFFFFFFFFFFFFFF4] = some (text ++ 0 :: left, (text.length : Int)) ∧
    (text ++ 0 :: left).length = 8 ∧
    (Matches (fun c => c ≠ 0) (ascii "%s=%05d|") [.str (ascii "a"), .num 0xFFFFFFFFFFFFFFF4] → 0 ∉ text) :=
  tegrablVsnprintf_safe (List.replicate 8 7) (ascii "%s=%05d|") [.str (ascii "a"), .num 0xFFFFFFFFFFFFFFF4] (by decide)
    (by decide) (by decide) (by decide)

/-- One character is counted, and the string in the buffer is empty. -/
theorem tegrablVsnprintf_charZero : Matches (fun _ => true) (ascii "%c") [.num 0] ∧
    tegrablVsnprintf [7, 7] 2 (ascii "%c" ++ [0]) [.num 0] = some ([0, 0], 1) ∧
    ([0, 0] : Buffer).takeWhile (fun c => c ≠ 0) = [] := by decide

end

end Cboot.Clib
