import Cboot.DtbUpdate.Override

/-!
A command line is a list of tokens with blanks between them. `param_value_override` takes the first place at which the
parameter occurs, which may be within a token.
-/

namespace Cboot.DtbUpdate
open Clib Lib.Search
open Extlinux (Text ascii)
open Extlinux.InPlace (Buffer cstring cstring_eq)

/-- A call gives the first token that starts with the parameter its new value, and nothing else. -/
structure Overrides (param value line : Text) (r : Overridden) : Prop where
  changed : ∀ line', replaceFirst 32 param value line = some line' →
    r.err = none ∧ cstring r.mem = some line' ∧ r.len = line'.length
  missing : replaceFirst 32 param value line = none →
    r.err = some .notFound ∧ cstring r.mem = some line ∧ r.len = line.length

def TokenStart (a : Text) : Prop := a = [] ∨ a.getLast? = some 32

instance (a : Text) : Decidable (TokenStart a) := inferInstanceAs (Decidable (_ ∨ _))

def Aligned (param value line : Text) : Prop :=
  ∀ found, cut param line = some found → TokenStart found.1 ∨
    (valueOf found.2 = value ∧ (line.splitOn 32).find? (param.isPrefixOf ·) = some (param ++ value))

instance (param value line : Text) : Decidable (Aligned param value line) :=
  inferInstanceAs (Decidable (∀ found ∈ cut param line, _))

section
variable {line junk a b w t : Text} {param value : Text} {r : Overridden}

def restReplaced (param value b : Text) : Option Text :=
  match restOf b with
  | [] => none
  | c :: rest => (replaceFirst 32 param value rest).map (c :: ·)

theorem replace_here (blankless : 32 ∉ param) (b : Text) :
    replaceFirst 32 param value (param ++ b) = some (param ++ (value ++ restOf b)) := by
  have clean : 32 ∉ param ++ valueOf b := by simp [blankless, value_clean]
  have starts : param <+: param ++ valueOf b := List.prefix_append _ _
  obtain ends | ⟨rest, ends⟩ := rest_cases b
  · nth_rewrite 1 [← value_rest b]
    rw [ends, List.append_nil, replaceFirst_token clean, if_pos starts, List.append_nil]
  · nth_rewrite 1 [← value_rest b]
    rw [ends, ← List.append_assoc, replaceFirst_append, replaceFirst_token clean, if_pos starts]
    simp

theorem replace_later (blankless : 32 ∉ param) (clean : 32 ∉ t) (other : ¬ param <+: t ++ (param ++ b)) :
    replaceFirst 32 param value (t ++ (param ++ b)) =
      (restReplaced param value b).map fun rest => t ++ (param ++ (valueOf b ++ rest)) := by
  have single : 32 ∉ t ++ (param ++ valueOf b) := by simp [clean, blankless, value_clean]
  have differs : ¬ param <+: t ++ (param ++ valueOf b) := by
    intro starts
    refine other (starts.trans ⟨restOf b, ?_⟩)
    rw [List.append_assoc, List.append_assoc, value_rest]
  unfold restReplaced
  obtain ends | ⟨rest, ends⟩ := rest_cases b
  · nth_rewrite 1 [← value_rest b]
    rw [ends, List.append_nil, replaceFirst_token single, if_neg differs]
    rfl
  · nth_rewrite 1 [← value_rest b]
    have whole : t ++ (param ++ (valueOf b ++ restOf b)) = t ++ (param ++ valueOf b) ++ 32 :: rest := by simp [ends]
    rw [whole, replaceFirst_append, replaceFirst_token single, if_neg differs, ends]
    simp [Function.comp_def]

theorem replace_behind (never : ∀ i, ¬ param <+: w.drop i) (v : Text) :
    replaceFirst 32 param value (w ++ 32 :: v) = (replaceFirst 32 param value v).map (w ++ 32 :: ·) := by
  rw [replaceFirst_append, replaceFirst_none never]
  rfl

theorem never_before (some : param ≠ [])
    (first : ∀ i < (w ++ t).length, ¬ param <+: (w ++ t ++ (param ++ b)).drop i) (i : Nat) : ¬ param <+: w.drop i := by
  intro starts
  by_cases inside : i < w.length
  · refine first i (by rw [List.length_append]; omega) (starts.trans ?_)
    rw [List.append_assoc, List.drop_append_of_le_length (Nat.le_of_lt inside)]
    exact List.prefix_append _ _
  · rw [List.drop_eq_nil_of_le (Nat.le_of_not_lt inside)] at starts
    exact some (List.prefix_nil.mp starts)

theorem replace_of_start (some : param ≠ []) (blankless : 32 ∉ param) (found : cut param line = .some (a, b))
    (start : TokenStart a) : replaceFirst 32 param value line = .some (overridden param value a b) := by
  obtain ⟨rfl, first⟩ := cut_some found
  obtain rfl | last := start
  · exact replace_here blankless b
  · obtain ⟨w, rfl⟩ := List.getLast?_eq_some_iff.mp last
    rw [List.append_assoc, List.singleton_append, replace_behind (never_before some first), replace_here blankless]
    simp [overridden]

theorem replace_of_not_start (some : param ≠ []) (blankless : 32 ∉ param) (found : cut param line = .some (a, b))
    (within : ¬ TokenStart a) : replaceFirst 32 param value line =
      (restReplaced param value b).map fun rest => a ++ (param ++ (valueOf b ++ rest)) := by
  obtain ⟨rfl, first⟩ := cut_some found
  obtain ⟨front, last⟩ := not_or.mp within
  by_cases separated : 32 ∈ a
  · obtain ⟨w, t, rfl, clean⟩ : ∃ w t, a = w ++ 32 :: t ∧ 32 ∉ t := by
      obtain ⟨t, w, turned, clean⟩ := List.eq_append_cons_of_mem (List.mem_reverse.mpr separated)
      refine ⟨w.reverse, t.reverse, ?_, mt List.mem_reverse.mp clean⟩
      rw [← List.reverse_reverse a, turned]
      simp
    have some' : t ≠ [] := by
      rintro rfl
      exact last (by simp)
    have other : ¬ param <+: t ++ (param ++ b) := by
      have here := first (w.length + 1) (by simpa using List.length_pos_iff.mpr some')
      rwa [List.append_assoc, ← List.drop_drop, List.drop_left, List.cons_append, List.drop_succ_cons, List.drop_zero] at here
    rw [List.append_assoc, List.cons_append, replace_behind (never_before some first), replace_later blankless clean other]
    simp [Function.comp_def]
  · exact replace_later blankless separated (first 0 (List.length_pos_iff.mpr front))

theorem prefix_unique {u v x y : Text} (clean : 32 ∉ u) (plain : 32 ∉ v) (same : u ++ 32 :: x = v ++ 32 :: y) :
    u = v ∧ x = y := by
  induction u generalizing v with
  | nil =>
    cases v with
    | nil => exact ⟨rfl, List.tail_eq_of_cons_eq same⟩
    | cons c v =>
      obtain rfl := List.head_eq_of_cons_eq same
      exact absurd List.mem_cons_self plain
  | cons c u ih =>
    cases v with
    | nil =>
      obtain rfl := List.head_eq_of_cons_eq same
      exact absurd List.mem_cons_self clean
    | cons d v =>
      obtain ⟨rfl, rest⟩ := List.cons_eq_cons.mp same
      obtain ⟨rfl, rfl⟩ := ih (fun member => clean (List.mem_cons_of_mem c member))
        (fun member => plain (List.mem_cons_of_mem c member)) rest
      exact ⟨rfl, rfl⟩

theorem same_of_not_start (some : param ≠ []) (blankless : 32 ∉ param) (plain : 32 ∉ value)
    (found : cut param line = .some (a, b)) (within : ¬ TokenStart a) :
    replaceFirst 32 param value line = .some (overridden param value a b) ↔
      valueOf b = value ∧ (line.splitOn 32).find? (param.isPrefixOf ·) = .some (param ++ value) := by
  have clean : 32 ∉ param ++ value := by simp [blankless, plain]
  have whole := value_rest b
  rw [← replaceFirst_eq_self clean]
  constructor
  · intro changed
    have moved := (replace_of_not_start some blankless found within).symm.trans changed
    obtain ⟨rest, later, same⟩ := Option.map_eq_some_iff.mp moved
    have behind : valueOf b ++ rest = value ++ restOf b := by simpa [overridden] using same
    obtain ends | ⟨rest', ends⟩ := rest_cases b
    · rw [restReplaced, ends] at later
      cases later
    · rw [restReplaced, ends] at later
      obtain ⟨rest'', -, rfl⟩ := Option.map_eq_some_iff.mp later
      rw [ends] at behind
      obtain ⟨sameValue, -⟩ := prefix_unique (value_clean b) plain behind
      refine ⟨sameValue, changed.trans ?_⟩
      rw [(cut_some found).1, overridden, ← sameValue, whole]
  · rintro ⟨rfl, unchanged⟩
    rw [unchanged, (cut_some found).1, overridden, whole]

theorem aligned_iff (some : param ≠ []) (blankless : 32 ∉ param) (word : 32 ∉ value) {a b : Text}
    (found : cut param line = .some (a, b)) :
    Aligned param value line ↔ replaceFirst 32 param value line = .some (overridden param value a b) := by
  have aligned : Aligned param value line ↔ TokenStart a ∨
      (valueOf b = value ∧ (line.splitOn 32).find? (param.isPrefixOf ·) = .some (param ++ value)) := by
    unfold Aligned
    simp only [found, Option.some.injEq, forall_eq']
  rw [aligned]
  by_cases start : TokenStart a
  · exact iff_of_true (.inl start) (replace_of_start some blankless found start)
  · rw [same_of_not_start some blankless word found start]
    exact or_iff_right start

/-- A call does what is meant exactly where the parameter that it takes is the one that is meant, or no change is made. -/
theorem override_iff (line junk : Text) {param value : Text} (unended : 0 ∉ line)
    (buffer : (line ++ 0 :: junk).length = maxCommandLineSize) (some : param ≠ []) (clean : 0 ∉ param)
    (blankless : 32 ∉ param) (plain : 0 ∉ value) (word : 32 ∉ value)
    (fits : ∀ line', replaceFirst 32 param value line = .some line' → line'.length < maxCommandLineSize) :
    (∃ r, paramValueOverride (line ++ 0 :: junk) 0 line.length param value = .some r ∧ Overrides param value line r) ↔
      Aligned param value line := by
  have size : line.length + junk.length + 1 = maxCommandLineSize := by
    rw [← buffer, List.length_append, List.length_cons]
    rfl
  cases found : cut param line with
  | none =>
    have missing : replaceFirst 32 param value line = none := replaceFirst_none (cut_none some found)
    have call : paramValueOverride _ 0 line.length param value = _ := override_missing some clean [] unended junk found
    refine iff_of_true ⟨_, call, ?_, fun _ => ⟨rfl, cstring_eq unended junk, rfl⟩⟩ ?_
    · intro line' changed
      exact absurd (missing.symm.trans changed) (by simp)
    · intro at' here
      exact absurd (found.symm.trans here) (by simp)
  | some place =>
    obtain ⟨a, b⟩ := place
    have length := overridden_length param value a b
    have here := (cut_some found).1
    have unended' := overridden_unended unended plain found
    rw [aligned_iff some blankless word found]
    constructor
    · rintro ⟨r, call, overrides⟩
      obtain ⟨rfl, -⟩ | rfl := override_cases some clean plain [] unended junk found call
      · cases changed : replaceFirst 32 param value line with
        | none => exact absurd (overrides.missing changed).1 (by simp)
        | some line' => exact absurd (overrides.changed line' changed).1 (by simp)
      · cases changed : replaceFirst 32 param value line with
        | none => exact absurd (overrides.missing changed).1 (by simp)
        | some line' => exact (overrides.changed line' changed).2.1.symm.trans (cstring_eq unended' _)
    · intro changed
      have short := fits _ changed
      have small : (valueOf b).length < value.length →
          (line.length : Int) + (value.length - (valueOf b).length : Nat) ≤ maxCommandLineSize := by
        rw [here] at *
        omega
      have written := override_written some clean plain [] unended junk found small (by omega)
      refine ⟨_, written, fun line' changed' => ?_, fun missing => absurd (missing.symm.trans changed) (by simp)⟩
      obtain rfl := Option.some.inj (changed.symm.trans changed')
      refine ⟨rfl, cstring_eq unended' _, ?_⟩
      change (line.length : Int) + (value.length - (valueOf b).length) = _
      have parts := congrArg List.length here
      omega

theorem override_token : ∃ r, paramValueOverride (ascii "quiet console=ttyS0" ++ 0 :: List.replicate 2028 0) 0 19
    (ascii "console=") (ascii "none") = some r ∧
      Overrides (ascii "console=") (ascii "none") (ascii "quiet console=ttyS0") r := by
  refine (override_iff (ascii "quiet console=ttyS0") (List.replicate 2028 0) (by decide) ?_ (by decide) (by decide)
    (by decide) (by decide) (by decide) ?_).mpr (by decide)
  · rw [List.length_append, List.length_cons, List.length_replicate]
    rfl
  · intro line' changed
    have known : replaceFirst 32 (ascii "console=") (ascii "none") (ascii "quiet console=ttyS0") =
        some (ascii "quiet console=none") := by decide
    rw [← Option.some.inj (known.symm.trans changed)]
    decide

/-- Of `earlyconsole=1 console=2` the first token gets the value. -/
theorem override_within : ¬ ∃ r, paramValueOverride (ascii "earlyconsole=1 console=2" ++ 0 :: List.replicate 2023 0) 0 24
    (ascii "console=") (ascii "none") = some r ∧
      Overrides (ascii "console=") (ascii "none") (ascii "earlyconsole=1 console=2") r := by
  rintro ⟨r, call, overrides⟩
  have found : cut (ascii "console=") (ascii "earlyconsole=1 console=2") =
      some (ascii "early", ascii "1 console=2") := by decide
  have known : replaceFirst 32 (ascii "console=") (ascii "none") (ascii "earlyconsole=1 console=2") =
      some (ascii "earlyconsole=1 console=none") := by decide
  obtain ⟨none, same, -⟩ := overrides.changed _ known
  obtain ⟨rfl, -⟩ | rfl := override_cases (by decide) (by decide) (by decide) [] (by decide) _ found call
  · cases none
  · have written := (cstring_eq (by decide) _).symm.trans same
    exact absurd written (by decide)

end

end Cboot.DtbUpdate
