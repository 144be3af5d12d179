import Cboot.DtbUpdate.Override

/-!
`add_bootarg_info` overrides `console=` where the property is in the tree. The one limit that it knows is that of the
buffer the command line goes to later.
-/

namespace Cboot.DtbUpdate
open Clib Lib.Search
open Extlinux (Text ascii)
open Extlinux.InPlace (Buffer)

/-- The value of `bootargs` in the bytes of a tree. Behind it there is padding, and at least the tags that end the node,
the root and the tree. -/
structure Bootargs where
  front : Buffer
  value : Buffer
  padding : Buffer
  tags : Buffer
  pad : padding.length = (4 - value.length % 4) % 4
  first : tags.head? = some 0
  long : 12 ≤ tags.length

namespace Bootargs

def fromValue (t : Bootargs) : Buffer := t.value ++ (t.padding ++ t.tags)

def fdt (t : Bootargs) : Buffer := t.front ++ t.fromValue

def line (t : Bootargs) : Text := t.fromValue.takeWhile (· ≠ 0)

def Within (t : Bootargs) (fdt : Buffer) : Prop :=
  ∃ value, value.length = t.value.length ∧ fdt = t.front ++ (value ++ (t.padding ++ t.tags))

end Bootargs

def console : Text := ascii "console="

def silence : Text := ascii "none"

/-- What `add_bootarg_info` does in front of the formatting, for what `fdt_getprop` returns. -/
def overrideConsole (fdt : Buffer) (bootargs : Option (Nat × Nat)) (override : Bool) : Option Buffer :=
  if override then
    match bootargs.filter fun found => 0 < found.2 with
    | none => (paramValueOverride [0] 0 0 console silence).map fun _ => fdt
    | some found => (paramValueOverride fdt found.1 found.2 console silence).map fun r => r.mem
  else some fdt

/-- There is no `console=`, or the limit stands against the change, or what of the changed string does not fit in the
value is what is there already. -/
def StaysInside (t : Bootargs) : Prop :=
  ∀ found, cut console t.line = some found → ((valueOf found.2).length < silence.length ∧
      maxCommandLineSize < t.value.length + (silence.length - (valueOf found.2).length)) ∨
    (overridden console silence found.1 found.2 ++ [0]).drop t.value.length <+: t.padding ++ t.tags

instance (t : Bootargs) : Decidable (StaysInside t) := inferInstanceAs (Decidable (∀ found ∈ cut console t.line, _))

section

theorem line_split (t : Bootargs) : ∃ more, t.fromValue = t.line ++ 0 :: more ∧ 0 ∉ t.line ∧ 11 ≤ more.length := by
  have unended : 0 ∉ t.line := by
    intro member
    simpa using List.mem_takeWhile_imp member
  obtain ⟨tags, first⟩ := List.head?_eq_some_iff.mp t.first
  have bound : t.line.length ≤ t.value.length + t.padding.length := by
    by_contra longer
    have inside : t.value ++ (t.padding ++ [0]) <+: t.line := by
      have start : t.line <+: t.fromValue := List.takeWhile_prefix _
      have whole : t.value ++ (t.padding ++ [0]) <+: t.fromValue := ⟨tags, by simp [Bootargs.fromValue, first]⟩
      refine List.prefix_of_prefix_length_le whole start ?_
      simp only [List.length_append, List.length_singleton]
      omega
    exact unended (inside.subset (by simp))
  have whole : t.line ++ t.fromValue.dropWhile (· ≠ 0) = t.fromValue := List.takeWhile_append_dropWhile
  have size := congrArg List.length whole
  simp only [Bootargs.fromValue, List.length_append] at size
  have long := t.long
  cases rest : t.fromValue.dropWhile (· ≠ 0) with
  | nil =>
    simp only [Bootargs.fromValue] at rest
    rw [rest, List.length_nil] at size
    omega
  | cons c more =>
    have zero : c = 0 := by
      have head := List.head?_dropWhile_not (· ≠ (0 : UInt8)) t.fromValue
      rw [rest] at head
      simpa using head
    refine ⟨more, by rw [← whole, rest, zero], unended, ?_⟩
    simp only [Bootargs.fromValue] at rest
    rw [rest, List.length_cons] at size
    omega

variable {t : Bootargs}

theorem within_iff {bytes : Buffer} (size : bytes.length = t.fromValue.length) :
    t.Within (t.front ++ bytes) ↔ bytes.drop t.value.length = t.padding ++ t.tags := by
  constructor
  · rintro ⟨value, length, same⟩
    rw [List.append_cancel_left same, ← length, List.drop_left]
  · intro behind
    refine ⟨bytes.take t.value.length, ?_, ?_⟩
    · rw [List.length_take, size, Bootargs.fromValue, List.length_append]
      omega
    · rw [← behind, List.take_append_drop]

theorem override_refused {param value line behind a b : Buffer} {len : Int} (some : param ≠ []) (clean : 0 ∉ param)
    (front : Buffer) (unended : 0 ∉ line) (found : cut param line = .some (a, b)) (longer : (valueOf b).length < value.length)
    (much : maxCommandLineSize < len + (value.length - (valueOf b).length : Nat)) :
    paramValueOverride (front ++ (line ++ 0 :: behind)) front.length len param value =
      .some ⟨front ++ (line ++ 0 :: behind), len, .some .overflow⟩ := by
  rw [override_found some clean front unended behind found]
  simp only [gt_iff_lt, if_pos longer]
  rw [if_pos much]

theorem written_within {text : Buffer} (inside : text.length ≤ t.fromValue.length) :
    t.Within (t.front ++ (text ++ t.fromValue.drop text.length)) ↔
      text.drop t.value.length <+: t.padding ++ t.tags := by
  have behind : t.fromValue.drop t.value.length = t.padding ++ t.tags := List.drop_left
  have kept := @overwrite_drop t.fromValue text t.value.length
  rw [behind] at kept
  have whole : (text ++ t.fromValue.drop text.length).length = t.fromValue.length := by
    rw [List.length_append, List.length_drop]
    omega
  rw [← kept, ← within_iff whole]

/-- The override leaves the rest of the tree as it is exactly where there is no value or it stays inside. -/
theorem overrideConsole_within_iff (t : Bootargs) :
    (∃ fdt, overrideConsole t.fdt (some (t.front.length, t.value.length)) true = some fdt ∧ t.Within fdt) ↔
      (t.value = [] ∨ StaysInside t) := by
  have unchanged : t.Within (t.front ++ t.fromValue) := ⟨t.value, rfl, rfl⟩
  by_cases empty : t.value = []
  · refine iff_of_true ⟨t.fdt, ?_, unchanged⟩ (.inl empty)
    rw [empty]
    rfl
  · have there : 0 < t.value.length := List.length_pos_iff.mpr empty
    have called : overrideConsole t.fdt (some (t.front.length, t.value.length)) true =
        (paramValueOverride t.fdt t.front.length t.value.length console silence).map fun r => r.mem := by
      simp [overrideConsole, Option.filter, there]
    rw [called, or_iff_right empty]
    obtain ⟨more, split, unended, long⟩ := line_split t
    unfold StaysInside Bootargs.fdt
    cases found : cut console t.line with
    | none =>
      have call : paramValueOverride _ t.front.length t.value.length console silence = _ :=
        override_missing (by decide) (by decide) t.front unended more found
      rw [← split] at call
      simp [call, unchanged]
    | some place =>
      obtain ⟨a, b⟩ := place
      simp only [Option.some.injEq, forall_eq']
      have size := overridden_length console silence a b
      have here := congrArg List.length (cut_some found).1
      have four : silence.length = 4 := rfl
      by_cases refused : (valueOf b).length < silence.length ∧
          maxCommandLineSize < t.value.length + (silence.length - (valueOf b).length)
      · have call : paramValueOverride (t.front ++ (t.line ++ 0 :: more)) t.front.length t.value.length console silence = _ :=
          override_refused (by decide) (by decide) t.front unended found refused.1 (by exact_mod_cast refused.2)
        rw [← split] at call
        refine iff_of_true ⟨t.front ++ t.fromValue, ?_, unchanged⟩ (.inl refused)
        rw [call]
        rfl
      · have call : paramValueOverride _ t.front.length t.value.length console silence = _ :=
          override_written (by decide) (by decide) (by decide) t.front unended more found
            (fun longer => by exact_mod_cast not_lt.mp fun much => refused ⟨longer, much⟩) (by omega)
        rw [← split] at call
        have inside : (overridden console silence a b ++ [0]).length ≤ t.fromValue.length := by
          rw [split]
          simp only [List.length_append, List.length_cons, List.length_nil]
          omega
        rw [call, or_iff_right refused, ← written_within inside]
        simp

theorem staysInside_of_zeros (zeros : ∀ c ∈ t.padding, c = 0) :
    StaysInside t ↔ ∀ found, cut console t.line = some found → ((valueOf found.2).length < silence.length ∧
        maxCommandLineSize < t.value.length + (silence.length - (valueOf found.2).length)) ∨
      t.line.length + silence.length ≤ t.value.length + (valueOf found.2).length := by
  have next : (t.padding ++ t.tags).head? = some 0 := by
    cases known : t.padding with
    | nil => exact t.first
    | cons c padding => rw [zeros c (known ▸ List.mem_cons_self), List.cons_append, List.head?_cons]
  obtain ⟨behind, next⟩ := List.head?_eq_some_iff.mp next
  unfold StaysInside
  refine forall₂_congr fun found here => or_congr Iff.rfl ?_
  obtain ⟨a, b⟩ := found
  have size := overridden_length console silence a b
  have line := congrArg List.length (cut_some here).1
  obtain ⟨more, -, unended, -⟩ := line_split t
  have unended : 0 ∉ overridden console silence a b := overridden_unended unended (by decide) here
  rw [next]
  by_cases shorter : (overridden console silence a b).length ≤ t.value.length
  · refine iff_of_true ?_ (by simp only; omega)
    rw [List.drop_append, List.drop_eq_nil_of_le shorter, List.nil_append]
    cases t.value.length - (overridden console silence a b).length with
    | zero => exact ⟨behind, rfl⟩
    | succ n => simp
  · refine iff_of_false (fun starts => ?_) (by simp only; omega)
    have longer : t.value.length < (overridden console silence a b).length := Nat.lt_of_not_le shorter
    rw [List.drop_append_of_le_length (Nat.le_of_lt longer), List.drop_eq_getElem_cons longer, List.cons_append] at starts
    have zero := (List.cons_prefix_cons.mp starts).1
    exact unended (zero ▸ List.getElem_mem longer)

def bare (value padding : Buffer) (pad : padding.length = (4 - value.length % 4) % 4) : Bootargs :=
  ⟨[], value, padding, [0, 0, 0, 2, 0, 0, 0, 2, 0, 0, 0, 9], pad, rfl, by decide⟩

theorem overrideConsole_longer :
    ∃ fdt, overrideConsole (bare (ascii "console=ttyS0") [0, 0, 0] rfl).fdt (some (0, 13)) true = some fdt ∧
      (bare (ascii "console=ttyS0") [0, 0, 0] rfl).Within fdt :=
  (overrideConsole_within_iff (bare (ascii "console=ttyS0") [0, 0, 0] rfl)).mpr (.inr (by decide))

/-- An empty value at the end of the property. The tag behind it is overwritten. -/
theorem overrideConsole_pushed :
    ¬ ∃ fdt, overrideConsole (bare (ascii "a console=x ") [] rfl).fdt (some (0, 12)) true = some fdt ∧
      (bare (ascii "a console=x ") [] rfl).Within fdt := by
  rintro ⟨fdt, call, value, size, same⟩
  have known : overrideConsole (bare (ascii "a console=x ") [] rfl).fdt (some (0, 12)) true =
      some (ascii "a console=none " ++ [0, 0, 0, 0, 2, 0, 0, 0, 9]) := by decide
  cases call.symm.trans known
  have behind : _ = (value ++ [0, 0, 0, 2, 0, 0, 0, 2, 0, 0, 0, 9]).drop value.length := congrArg (List.drop value.length) same
  rw [List.drop_left, size] at behind
  exact absurd behind (by decide)

end

end Cboot.DtbUpdate
