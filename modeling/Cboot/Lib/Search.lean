import Cboot.Lib.Paths
import Mathlib.Data.List.Infix

/-!
The first place where a word occurs in a text, what is left of a text where the word is taken out wherever it is found
from left to right, and a text whose first token that starts with a word gets another end.
-/

namespace Cboot.Lib.Search

section
variable {α : Type} [DecidableEq α] {word text a b : List α}

/-- The text in front of the first place where a word occurs, and the text behind it. -/
def cut (word : List α) : List α → Option (List α × List α)
  | [] => none
  | c :: text =>
    if word.isPrefixOf (c :: text) then some ([], (c :: text).drop word.length)
    else (cut word text).map fun found => (c :: found.1, found.2)

theorem cut_cons_here {c : α} (starts : word <+: c :: text) :
    cut word (c :: text) = some ([], (c :: text).drop word.length) := by
  rw [cut, if_pos (List.isPrefixOf_iff_prefix.mpr starts)]

theorem cut_cons_later {c : α} (other : ¬ word <+: c :: text) :
    cut word (c :: text) = (cut word text).map fun found => (c :: found.1, found.2) := by
  rw [cut, if_neg (mt List.isPrefixOf_iff_prefix.mp other)]

theorem cut_some (found : cut word text = some (a, b)) :
    text = a ++ (word ++ b) ∧ ∀ i < a.length, ¬ word <+: text.drop i := by
  induction text generalizing a with
  | nil => cases found
  | cons c text ih =>
    by_cases starts : word <+: c :: text
    · rw [cut_cons_here starts] at found
      cases found
      refine ⟨?_, fun i before => absurd before (Nat.not_lt_zero i)⟩
      obtain ⟨rest, same⟩ := starts
      rw [← same, List.drop_left, List.nil_append]
    · rw [cut_cons_later starts] at found
      obtain ⟨⟨a', b'⟩, later, same⟩ := Option.map_eq_some_iff.mp found
      cases same
      obtain ⟨here, first⟩ := ih later
      refine ⟨congrArg (c :: ·) here, fun i before => ?_⟩
      cases i with
      | zero => exact starts
      | succ i => exact first i (Nat.lt_of_succ_lt_succ before)

theorem cut_none (some : word ≠ []) (missing : cut word text = none) (i : Nat) : ¬ word <+: text.drop i := by
  induction text generalizing i with
  | nil => simpa using some
  | cons c text ih =>
    by_cases starts : word <+: c :: text
    · rw [cut_cons_here starts] at missing
      cases missing
    · rw [cut_cons_later starts] at missing
      cases i with
      | zero => exact starts
      | succ i => exact ih (Option.map_eq_none_iff.mp missing) i

theorem cut_short (short : text.length < word.length) : cut word text = none := by
  cases found : cut word text with
  | none => rfl
  | some found' =>
    obtain ⟨here, -⟩ := cut_some found
    have size := congrArg List.length here
    rw [List.length_append, List.length_append] at size
    omega

theorem cut_some_length (some : word ≠ []) (found : cut word text = .some (a, b)) :
    b.length < text.length ∧ text.length = a.length + (word.length + b.length) := by
  have size := congrArg List.length (cut_some found).1
  have pos := List.length_pos_iff.mpr some
  rw [List.length_append, List.length_append] at size
  omega

/-- What is left behind some symbols that belong to an occurrence. -/
def eraseFrom (word : List α) : Nat → List α → List α
  | _, [] => []
  | 0, c :: text =>
    if word.isPrefixOf (c :: text) then eraseFrom word (word.length - 1) text else c :: eraseFrom word 0 text
  | skip + 1, _ :: text => eraseFrom word skip text

def erase (word text : List α) : List α := eraseFrom word 0 text

theorem eraseFrom_eq (skip : Nat) (text : List α) : eraseFrom word skip text = erase word (text.drop skip) := by
  induction skip generalizing text with
  | zero => rfl
  | succ skip ih =>
    cases text with
    | nil => rfl
    | cons c text => exact ih text

theorem erase_cons_later {c : α} (other : ¬ word <+: c :: text) : erase word (c :: text) = c :: erase word text := by
  unfold erase
  rw [eraseFrom, if_neg (mt List.isPrefixOf_iff_prefix.mp other)]

theorem erase_append (some : word ≠ []) (text : List α) : erase word (word ++ text) = erase word text := by
  obtain ⟨c, word', rfl⟩ := List.exists_cons_of_ne_nil some
  have starts : (c :: word').isPrefixOf (c :: (word' ++ text)) :=
    List.isPrefixOf_iff_prefix.mpr (List.prefix_append (c :: word') text)
  have skipped : erase (c :: word') (c :: (word' ++ text)) = eraseFrom (c :: word') word'.length (word' ++ text) :=
    if_pos starts
  rw [List.cons_append, skipped, eraseFrom_eq, List.drop_left]

theorem erase_of_some (some : word ≠ []) (found : cut word text = .some (a, b)) : erase word text = a ++ erase word b := by
  obtain ⟨rfl, first⟩ := cut_some found
  clear found
  induction a with
  | nil => exact erase_append some b
  | cons c a ih =>
    have other : ¬ word <+: c :: (a ++ (word ++ b)) := first 0 (Nat.zero_lt_succ _)
    rw [List.cons_append, erase_cons_later other, ih fun i before => first (i + 1) (Nat.succ_lt_succ before),
      List.cons_append]

theorem erase_of_none (some : word ≠ []) (missing : cut word text = none) : erase word text = text := by
  have never := cut_none some missing
  clear missing
  induction text with
  | nil => rfl
  | cons c text ih => rw [erase_cons_later (never 0), ih fun i => never (i + 1)]

/-- Where a word has been found, it is not found again right behind that place. -/
inductive Apart (word : List α) : List α → Prop
  | missing {text : List α} : cut word text = none → Apart word text
  | found {text a b : List α} : cut word text = some (a, b) → ¬ word <+: b → Apart word b → Apart word text

def Unbordered (word : List α) : Prop := ∀ k < word.length, 0 < k → ¬ word.drop k <+: word

instance (word : List α) : Decidable (Unbordered word) := inferInstanceAs (Decidable (∀ k < word.length, _))

omit [DecidableEq α] in
theorem Unbordered.not_within (single : Unbordered word) {k : Nat} (within : k < word.length) (pos : 0 < k) (text : List α) :
    ¬ word <+: word.drop k ++ text := by
  intro starts
  refine single k within pos (List.prefix_of_prefix_length_le (List.prefix_append _ text) starts ?_)
  exact (List.drop_suffix k word).length_le

end

section
variable {α : Type} [DecidableEq α] {sep : α} {word value t u v : List α} {tokens : List (List α)}

def replaceIn (word value : List α) : List (List α) → Option (List (List α))
  | [] => none
  | t :: tokens =>
    if word.isPrefixOf t then some ((word ++ value) :: tokens) else (replaceIn word value tokens).map (t :: ·)

def replaceFirst (sep : α) (word value text : List α) : Option (List α) :=
  (replaceIn word value (text.splitOn sep)).map (List.intercalate [sep])

theorem replaceIn_append (tokens later : List (List α)) : replaceIn word value (tokens ++ later) =
    ((replaceIn word value tokens).map (· ++ later)).or ((replaceIn word value later).map (tokens ++ ·)) := by
  induction tokens with
  | nil => simp [replaceIn]
  | cons t tokens ih =>
    rw [List.cons_append, replaceIn, replaceIn, ih]
    by_cases starts : word.isPrefixOf t = true
    · simp [starts]
    · rw [if_neg starts, if_neg starts]
      cases replaceIn word value tokens <;> simp [Function.comp_def]

theorem replaceIn_ne_nil {changed : List (List α)} (found : replaceIn word value tokens = some changed) : changed ≠ [] := by
  rintro rfl
  cases tokens with
  | nil => cases found
  | cons t tokens =>
    rw [replaceIn] at found
    split at found
    · cases found
    · obtain ⟨changed, -, same⟩ := Option.map_eq_some_iff.mp found
      cases same

omit [DecidableEq α] in
theorem intercalate_append {us vs : List (List α)} (some : us ≠ []) (others : vs ≠ []) :
    [sep].intercalate (us ++ vs) = [sep].intercalate us ++ sep :: [sep].intercalate vs := by
  induction us with
  | nil => exact absurd rfl some
  | cons t us ih =>
    cases us with
    | nil => rw [List.singleton_append, List.intercalate_cons_of_ne_nil others, List.intercalate_singleton,
        List.append_assoc, List.singleton_append]
    | cons t' us =>
      have rest := ih (List.cons_ne_nil t' us)
      rw [List.cons_append, List.intercalate_cons_of_ne_nil (by simp), rest,
        List.intercalate_cons_of_ne_nil (List.cons_ne_nil t' us)]
      simp only [List.append_assoc]

theorem replaceFirst_token (clean : sep ∉ t) :
    replaceFirst sep word value t = if word <+: t then some (word ++ value) else none := by
  rw [replaceFirst, List.splitOn_eq_singleton clean, replaceIn]
  by_cases starts : word <+: t
  · simp [starts, List.intercalate_singleton]
  · simp [starts, replaceIn]

theorem replaceFirst_append (u v : List α) : replaceFirst sep word value (u ++ sep :: v) =
    ((replaceFirst sep word value u).map (· ++ sep :: v)).or ((replaceFirst sep word value v).map (u ++ sep :: ·)) := by
  unfold replaceFirst
  rw [List.splitOn_append_cons_self, replaceIn_append]
  cases first : replaceIn word value (u.splitOn sep) with
  | some changed =>
    simp [intercalate_append (replaceIn_ne_nil first) (List.splitOn_ne_nil sep v), List.intercalate_splitOn]
  | none =>
    cases second : replaceIn word value (v.splitOn sep) with
    | none => rfl
    | some changed =>
      simp [intercalate_append (List.splitOn_ne_nil sep u) (replaceIn_ne_nil second), List.intercalate_splitOn]

theorem replaceFirst_none {text : List α} (never : ∀ i, ¬ word <+: text.drop i) : replaceFirst sep word value text = none := by
  induction size : text.length using Nat.strongRecOn generalizing text with
  | ind n ih =>
    by_cases separated : sep ∈ text
    · obtain ⟨t, rest, rfl, clean⟩ := List.eq_append_cons_of_mem separated
      have first : ¬ word <+: t := fun starts => never 0 (starts.trans (List.prefix_append t (sep :: rest)))
      have later : ∀ i, ¬ word <+: rest.drop i := by
        intro i starts
        refine never (t.length + (i + 1)) ?_
        rwa [← List.drop_drop, List.drop_left, List.drop_succ_cons]
      have shorter : rest.length < n := by
        rw [← size, List.length_append, List.length_cons]
        omega
      rw [replaceFirst_append, replaceFirst_token clean, if_neg first, ih rest.length shorter later rfl]
      rfl
    · exact (replaceFirst_token separated).trans (if_neg (never 0))

theorem replaceIn_eq_self : replaceIn word value tokens = some tokens ↔
    tokens.find? (word.isPrefixOf ·) = some (word ++ value) := by
  induction tokens with
  | nil => simp [replaceIn]
  | cons t tokens ih =>
    rw [replaceIn, List.find?_cons]
    by_cases starts : word.isPrefixOf t = true
    · simp [starts, eq_comm]
    · rw [if_neg starts, Bool.eq_false_iff.mpr starts, ← ih]
      simp

theorem replaceIn_tokens {changed : List (List α)} (found : replaceIn word value tokens = some changed)
    (clean : ∀ t ∈ tokens, sep ∉ t) (plain : sep ∉ word ++ value) : ∀ t ∈ changed, sep ∉ t := by
  induction tokens generalizing changed with
  | nil => cases found
  | cons t tokens ih =>
    have later : ∀ u ∈ tokens, sep ∉ u := fun u member => clean u (List.mem_cons_of_mem t member)
    rw [replaceIn] at found
    split at found
    · cases found
      exact List.forall_mem_cons.mpr ⟨plain, later⟩
    · obtain ⟨changed, rest, rfl⟩ := Option.map_eq_some_iff.mp found
      exact List.forall_mem_cons.mpr ⟨clean t List.mem_cons_self, ih rest later⟩

theorem replaceFirst_eq_self {text : List α} (plain : sep ∉ word ++ value) : replaceFirst sep word value text = some text ↔
    (text.splitOn sep).find? (word.isPrefixOf ·) = some (word ++ value) := by
  rw [← replaceIn_eq_self, replaceFirst]
  constructor
  · intro same
    obtain ⟨changed, found, joined⟩ := Option.map_eq_some_iff.mp same
    have clean := replaceIn_tokens found (Paths.splitOn_clean text) plain
    rw [found, ← joined, List.splitOn_intercalate sep clean (replaceIn_ne_nil found)]
  · intro same
    rw [same, Option.map_some, List.intercalate_splitOn]

end

end Cboot.Lib.Search
