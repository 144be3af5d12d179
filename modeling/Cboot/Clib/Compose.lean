import Cboot.Clib.Printf

/-!
The character to pad with is the only thing that a conversion leaves for those behind it.
-/

namespace Cboot.Clib
open Cmdline (Arg Spec ascii isdigit numeric taken parseSpec expect pieces formatted write convert)
open Extlinux (Text)

def completeFrom : Nat → Text → List Arg → Bool
  | _, [], args => args.isEmpty
  | 0, _ :: _, _ => false
  | turns + 1, c :: f, args =>
    if c ≠ 37 then completeFrom turns f args
    else
      match convert (parseSpec f).1 32 args with
      | none => false
      | some (_, rest) => completeFrom turns (parseSpec f).2 rest

def Complete (format : Text) (args : List Arg) : Prop := completeFrom format.length format args = true

instance (format : Text) (args : List Arg) : Decidable (Complete format args) := inferInstanceAs (Decidable (_ = true))

/-- Some conversion has the flag `0`. -/
def zeroFrom : Nat → Text → Bool
  | _, [] => false
  | 0, _ :: _ => false
  | turns + 1, c :: f =>
    if c ≠ 37 then zeroFrom turns f else (parseSpec f).1.zero || zeroFrom turns (parseSpec f).2

def ZeroFlag (format : Text) : Prop := zeroFrom format.length format = true

instance (format : Text) : Decidable (ZeroFlag format) := inferInstanceAs (Decidable (_ = true))

def widened (spec : Spec) (args : List Arg) : Bool :=
  match spec.conversion.bind numeric, args with
  | some (radix, signed), .num value :: _ =>
    (numberText (taken signed spec.longint value).2 (taken signed spec.longint value).1 spec.alternateForm radix).length <
      spec.pad
  | _, _ => false

/-- Some number is padded before any conversion has the flag `0`. -/
def blankFrom : Nat → Text → List Arg → Bool
  | _, [], _ => false
  | 0, _ :: _, _ => false
  | turns + 1, c :: f, args =>
    if c ≠ 37 then blankFrom turns f args
    else if (parseSpec f).1.zero then false
    else
      match convert (parseSpec f).1 32 args with
      | none => false
      | some (_, rest) => widened (parseSpec f).1 args || blankFrom turns (parseSpec f).2 rest

def BlankPadded (format : Text) (args : List Arg) : Prop := blankFrom format.length format args = true

instance (format : Text) (args : List Arg) : Decidable (BlankPadded format args) := inferInstanceAs (Decidable (_ = true))

section
variable {f g text : Text} {args more : List Arg} {spec : Spec} {c padchar : UInt8} {m n : Nat}

theorem expect_append (some_char : f ≠ []) (c : UInt8) (g : Text) :
    expect c (f ++ g) = ((expect c f).1, (expect c f).2 ++ g) := by
  cases f with
  | nil => exact absurd rfl some_char
  | cons d f =>
    by_cases same : d = c
    · simp [expect, same]
    · simp [expect, same]

theorem digits_append (f g : Text) (ends : f.dropWhile isdigit ≠ []) :
    (f ++ g).dropWhile isdigit = f.dropWhile isdigit ++ g ∧ (f ++ g).takeWhile isdigit = f.takeWhile isdigit := by
  induction f with
  | nil => exact absurd rfl ends
  | cons c f ih =>
    rw [List.cons_append]
    by_cases found : isdigit c
    · rw [List.dropWhile_cons_of_pos found] at ends ⊢
      rw [List.takeWhile_cons_of_pos found, List.dropWhile_cons_of_pos found, List.takeWhile_cons_of_pos found,
        (ih ends).1, (ih ends).2]
      exact ⟨rfl, rfl⟩
    · rw [List.dropWhile_cons_of_neg found, List.takeWhile_cons_of_neg found, List.dropWhile_cons_of_neg found,
        List.takeWhile_cons_of_neg found]
      exact ⟨rfl, rfl⟩

theorem ne_nil_of_suffix (ends : f <:+ g) (some_char : f ≠ []) : g ≠ [] := by
  rintro rfl
  exact some_char (List.suffix_nil.mp ends)

theorem head?_append (some_char : f ≠ []) (g : Text) : (f ++ g).head? = f.head? := by
  cases f with
  | nil => exact absurd rfl some_char
  | cons c f => rfl

theorem parseSpec_append (whole : (parseSpec f).1.conversion.isSome) (g : Text) :
    parseSpec (f ++ g) = ((parseSpec f).1, (parseSpec f).2 ++ g) := by
  let alternate := expect 35 f
  let zero := expect 48 alternate.2
  let arg := zero.2.dropWhile isdigit
  let size := expect 122 arg
  let long := expect 108 size.2
  let longlong := if long.1 then expect 108 long.2 else (false, long.2)
  have last : longlong.2 ≠ [] := by
    intro ends
    have nothing : (parseSpec f).1.conversion = none := congrArg List.head? ends
    rw [nothing] at whole
    cases whole
  have last_suffix : longlong.2 <:+ long.2 := by
    simp only [longlong]
    split
    · exact expect_suffix 108 long.2
    · exact List.suffix_refl long.2
  have long_some := ne_nil_of_suffix last_suffix last
  have size_some := ne_nil_of_suffix (expect_suffix 108 size.2) long_some
  have arg_some := ne_nil_of_suffix (expect_suffix 122 arg) size_some
  have zero_some := ne_nil_of_suffix (List.dropWhile_suffix isdigit) arg_some
  have alternate_some := ne_nil_of_suffix (expect_suffix 48 alternate.2) zero_some
  have first := expect_append (ne_nil_of_suffix (expect_suffix 35 f) alternate_some) 35 g
  have second := expect_append alternate_some 48 g
  obtain ⟨behind, digits⟩ := digits_append zero.2 g arg_some
  have third := expect_append arg_some 122 g
  have fourth := expect_append size_some 108 g
  have fifth : (if long.1 then expect 108 (long.2 ++ g) else (false, long.2 ++ g)) = (longlong.1, longlong.2 ++ g) := by
    simp only [longlong]
    split
    · exact expect_append long_some 108 g
    · rfl
  have pointer := head?_append arg_some g
  rw [parseSpec]
  simp only [first, second, third, fourth, behind, digits, alternate, zero, arg, size, long] at fifth pointer ⊢
  rw [fifth, pointer, head?_append last, List.tail_append_of_ne_nil last]
  rfl

theorem pieces_turns (enough : f.length ≤ m) (enough' : f.length ≤ n) (padchar : UInt8) (args : List Arg) :
    pieces m padchar f args = pieces n padchar f args := by
  induction m generalizing n f padchar args with
  | zero =>
    obtain rfl := List.length_eq_zero_iff.mp (Nat.le_zero.mp enough)
    rw [pieces_nil, pieces_nil]
  | succ m ih =>
    cases f with
    | nil => rw [pieces_nil, pieces_nil]
    | cons c f =>
      obtain ⟨n, rfl⟩ : ∃ k, n = k + 1 := Nat.exists_eq_add_one.mpr (Nat.lt_of_lt_of_le (Nat.succ_pos _) enough')
      have fewer : f.length ≤ m := Nat.le_of_succ_le_succ enough
      have fewer' : f.length ≤ n := Nat.le_of_succ_le_succ enough'
      by_cases plain : c ≠ 37
      · rw [pieces_char plain, pieces_char plain, ih fewer fewer']
      · obtain rfl := not_not.mp plain
        have shorter := (parseSpec_suffix f).length_le
        rw [pieces_spec, pieces_spec]
        split
        · rfl
        · rw [ih (Nat.le_trans shorter fewer) (Nat.le_trans shorter fewer')]

theorem length_integerToString (n : Nat) (sign : Bool) (pad : Nat) (alternateForm : Bool) (radix : Nat) (p q : UInt8) :
    (Cmdline.integerToString n sign pad alternateForm radix p).length =
      (Cmdline.integerToString n sign pad alternateForm radix q).length := by
  rw [integerToString_text, integerToString_text]
  simp

variable {rest : List Arg}

theorem convert_padchar (done : convert spec padchar args = some (text, rest)) (q : UInt8) :
    ∃ other, convert spec q args = some (other, rest) ∧ other.length = text.length := by
  cases made_of_convert done with
  | number asked kind value =>
    exact ⟨_, convert_of_made (.number asked kind value rest), length_integerToString _ _ _ _ _ _ _⟩
  | string asked => exact ⟨text, convert_of_made (.string asked text rest), rfl⟩
  | char asked value => exact ⟨_, convert_of_made (.char asked value rest), rfl⟩
  | percent asked => exact ⟨_, convert_of_made (.percent asked args), rfl⟩

theorem convert_append (done : convert spec padchar args = some (text, rest)) (more : List Arg) :
    convert spec padchar (args ++ more) = some (text, rest ++ more) := by
  cases made_of_convert done with
  | number asked kind value => exact convert_of_made (.number asked kind value _)
  | string asked => exact convert_of_made (.string asked text _)
  | char asked value => exact convert_of_made (.char asked value _)
  | percent asked => exact convert_of_made (.percent asked _)

theorem zeroFrom_nil (n : Nat) : zeroFrom n [] = false := by
  cases n <;> rfl

theorem pieces_append (complete : completeFrom n f args) (enough : (f ++ g).length ≤ m) (padchar : UInt8)
    (more : List Arg) : pieces m padchar (f ++ g) (args ++ more) =
      pieces n padchar f args ++ pieces g.length (if zeroFrom n f then 48 else padchar) g more := by
  induction n generalizing f args m padchar with
  | zero =>
    cases f with
    | nil =>
      rw [completeFrom, List.isEmpty_iff] at complete
      subst complete
      rw [pieces_nil, zeroFrom_nil]
      exact pieces_turns enough (Nat.le_refl _) padchar more
    | cons c f => cases complete
  | succ n ih =>
    cases f with
    | nil =>
      rw [completeFrom, List.isEmpty_iff] at complete
      subst complete
      rw [pieces_nil, zeroFrom_nil]
      exact pieces_turns enough (Nat.le_refl _) padchar more
    | cons c f =>
      obtain ⟨m, rfl⟩ : ∃ k, m = k + 1 := Nat.exists_eq_add_one.mpr (Nat.lt_of_lt_of_le (Nat.succ_pos _) enough)
      have fewer : (f ++ g).length ≤ m := Nat.le_of_succ_le_succ enough
      rw [completeFrom] at complete
      by_cases plain : c ≠ 37
      · rw [if_pos plain] at complete
        rw [List.cons_append, pieces_char plain, pieces_char plain, ih complete fewer, zeroFrom, if_pos plain]
        rfl
      · obtain rfl := not_not.mp plain
        rw [if_neg plain] at complete
        cases asked : convert (parseSpec f).1 32 args with
        | none => simp [asked] at complete
        | some made =>
          obtain ⟨text, rest⟩ := made
          simp only [asked] at complete
          obtain ⟨conversion, found, -⟩ := convert_some asked
          obtain ⟨other, made, -⟩ := convert_padchar asked (if (parseSpec f).1.zero then 48 else padchar)
          have shorter : ((parseSpec f).2 ++ g).length ≤ m := by
            have := (parseSpec_suffix f).length_le
            rw [List.length_append] at fewer ⊢
            omega
          have later := ih complete shorter (if (parseSpec f).1.zero then 48 else padchar)
          rw [List.cons_append, pieces_spec, pieces_spec, parseSpec_append (by rw [found]; rfl) g,
            convert_append made more, made, zeroFrom, if_neg plain]
          simp only [later, List.cons_append]
          cases (parseSpec f).1.zero <;> cases zeroFrom n (parseSpec f).2 <;> rfl

theorem padded_iff {n pad radix : Nat} {sign alternateForm : Bool} :
    Cmdline.integerToString n sign pad alternateForm radix 48 = Cmdline.integerToString n sign pad alternateForm radix 32 ↔
      ¬ (numberText n sign alternateForm radix).length < pad := by
  rw [integerToString_text, integerToString_text, List.append_left_inj, Nat.not_lt]
  cases missing : pad - (numberText n sign alternateForm radix).length with
  | zero => exact iff_of_true rfl (by omega)
  | succ k => exact iff_of_false (by simp [List.replicate_succ]) (by omega)

theorem widened_number {conversion : UInt8} {radix : Nat} {signed : Bool} (asked : spec.conversion = some conversion)
    (kind : numeric conversion = some (radix, signed)) (value : UInt64) (rest : List Arg) :
    widened spec (.num value :: rest) = decide ((numberText (taken signed spec.longint value).2
      (taken signed spec.longint value).1 spec.alternateForm radix).length < spec.pad) := by
  unfold widened
  rw [asked, Option.bind_some, kind]

theorem convert_widened {zeros blanks : Text} (asked : convert spec 48 args = some (zeros, rest))
    (asked' : convert spec 32 args = some (blanks, rest)) : zeros = blanks ↔ ¬ widened spec args := by
  have plain : ∀ {conversion}, spec.conversion = some conversion → numeric conversion = none →
      widened spec args = false := by
    intro conversion found kind
    simp [widened, found, kind]
  cases made_of_convert asked with
  | number found kind value =>
    rw [convert_of_made (.number found kind value rest), Option.some.injEq, Prod.mk.injEq] at asked'
    rw [← asked'.1, padded_iff, widened_number found kind, decide_eq_true_eq]
  | string found =>
    rw [convert_of_made (.string found zeros rest), Option.some.injEq, Prod.mk.injEq] at asked'
    exact iff_of_true asked'.1 (by simp [plain found rfl])
  | char found value =>
    rw [convert_of_made (.char found value rest), Option.some.injEq, Prod.mk.injEq] at asked'
    exact iff_of_true asked'.1 (by simp [plain found rfl])
  | percent found =>
    rw [convert_of_made (.percent found args), Option.some.injEq, Prod.mk.injEq] at asked'
    exact iff_of_true asked'.1 (by simp [plain found rfl])

theorem pieces_padchar (enough : f.length ≤ n) (args : List Arg) :
    (pieces n 48 f args).flatten.length = (pieces n 32 f args).flatten.length ∧
      ((pieces n 48 f args).flatten = (pieces n 32 f args).flatten ↔ ¬ blankFrom n f args) := by
  induction n generalizing f args with
  | zero =>
    obtain rfl := List.length_eq_zero_iff.mp (Nat.le_zero.mp enough)
    exact ⟨rfl, iff_of_true rfl (by simp [blankFrom])⟩
  | succ n ih =>
    cases f with
    | nil => exact ⟨rfl, iff_of_true rfl (by simp [blankFrom])⟩
    | cons c f =>
      have fewer : f.length ≤ n := Nat.le_of_succ_le_succ enough
      rw [blankFrom]
      by_cases plain : c ≠ 37
      · rw [pieces_char plain, pieces_char plain, if_pos plain, List.flatten_cons, List.flatten_cons, List.length_append,
          List.length_append, List.append_cancel_left_eq, (ih fewer args).1]
        exact ⟨rfl, (ih fewer args).2⟩
      · obtain rfl := not_not.mp plain
        rw [pieces_spec, pieces_spec, if_neg plain]
        cases zero : (parseSpec f).1.zero with
        | true => exact ⟨rfl, iff_of_true rfl (by simp)⟩
        | false =>
          simp only [Bool.false_eq_true, if_false]
          cases asked : convert (parseSpec f).1 32 args with
          | none =>
            have nothing : convert (parseSpec f).1 48 args = none := by
              cases made : convert (parseSpec f).1 48 args with
              | none => rfl
              | some r =>
                obtain ⟨text, rest⟩ := r
                obtain ⟨_, made, -⟩ := convert_padchar made 32
                rw [asked] at made
                cases made
            simp [nothing]
          | some made =>
            obtain ⟨blanks, rest⟩ := made
            obtain ⟨zeros, made, length⟩ := convert_padchar asked 48
            obtain ⟨long, same⟩ := ih (Nat.le_trans (parseSpec_suffix f).length_le fewer) rest
            simp only [made, List.flatten_cons, List.length_append, length, long, true_and]
            rw [Bool.or_eq_true, not_or, ← convert_widened made asked, ← same]
            constructor
            · intro whole
              exact List.append_inj whole length
            · rintro ⟨rfl, rest⟩
              rw [rest]

/-- One format after another prints what they print alone, unless a conversion of the first has the flag `0` and the
second pads a number with blanks. -/
theorem tegrablVsnprintf_append_iff (f g : Text) (args more : List Arg) (size : Nat) (complete : Complete f args)
    (room : (formatted f args).flatten.length + (formatted g more).flatten.length < size) :
    Cmdline.tegrablVsnprintf size (f ++ g) (args ++ more) =
        Cmdline.tegrablVsnprintf size f args ++ Cmdline.tegrablVsnprintf size g more ↔
      ¬ (ZeroFlag f ∧ BlankPadded g more) := by
  have both : formatted (f ++ g) (args ++ more) =
      formatted f args ++ pieces g.length (if zeroFrom f.length f then 48 else 32) g more :=
    pieces_append complete (Nat.le_refl _) 32 more
  obtain ⟨long, same⟩ := pieces_padchar (Nat.le_refl g.length) more
  have length : (formatted (f ++ g) (args ++ more)).flatten.length =
      (formatted f args).flatten.length + (formatted g more).flatten.length := by
    rw [both, List.flatten_append, List.length_append]
    split
    · rw [long]
      rfl
    · rfl
  have whole : ∀ format args, (formatted format args).flatten.length ≤ size - 1 →
      Cmdline.tegrablVsnprintf size format args = (formatted format args).flatten := by
    intro format args fits
    rw [Cmdline.tegrablVsnprintf, if_neg (by omega)]
    exact Cmdline.write_all.mpr fits
  rw [whole _ _ (by omega), whole f args (by omega), whole g more (by omega), both, List.flatten_append,
    List.append_cancel_left_eq, ZeroFlag, BlankPadded, formatted]
  cases zeroFrom f.length f with
  | true =>
    rw [if_pos rfl, same]
    simp
  | false => simp

/-- A number after a padded one. -/
theorem tegrablVsnprintf_append_plain : Cmdline.tegrablVsnprintf 16 (ascii "%04x" ++ ascii "-%u") ([.num 10] ++ [.num 7]) =
    Cmdline.tegrablVsnprintf 16 (ascii "%04x") [.num 10] ++ Cmdline.tegrablVsnprintf 16 (ascii "-%u") [.num 7] :=
  (tegrablVsnprintf_append_iff (ascii "%04x") (ascii "-%u") [.num 10] [.num 7] 16 (by decide) (by decide)).mpr (by decide)

/-- `%02u` and `%3u`: the second number is padded with `0` too. -/
theorem tegrablVsnprintf_append_padded : Complete (ascii "%02u") [.num 5] ∧ Complete (ascii "%3u") [.num 7] ∧
    Cmdline.tegrablVsnprintf 16 (ascii "%02u" ++ ascii "%3u") ([.num 5] ++ [.num 7]) = ascii "05007" ∧
    Cmdline.tegrablVsnprintf 16 (ascii "%02u") [.num 5] ++ Cmdline.tegrablVsnprintf 16 (ascii "%3u") [.num 7] =
      ascii "05  7" := by decide

end

end Cboot.Clib
