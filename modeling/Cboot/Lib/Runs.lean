import Mathlib.Data.List.Basic

/-!
A machine takes one command after another.
-/

namespace Cboot.Lib

section
variable {S A : Type}

def Throughout (step : S → A → S) (P : S → Prop) (s : S) (commands : List A) : Prop :=
  ∀ before, before <+: commands → P (before.foldl step s)

def EachStep (step : S → A → S) (Q : S → A → Prop) (s : S) (commands : List A) : Prop :=
  ∀ before a, before ++ [a] <+: commands → Q (before.foldl step s) a

variable {step : S → A → S} {P : S → Prop} {Q : S → A → Prop} {s : S} {a : A} {commands : List A}

@[simp] theorem throughout_nil : Throughout step P s [] ↔ P s := by
  constructor
  · intro always
    exact always [] (List.prefix_refl [])
  · intro now before start
    rw [List.prefix_nil.mp start]
    exact now

@[simp] theorem throughout_cons :
    Throughout step P s (a :: commands) ↔ P s ∧ Throughout step P (step s a) commands := by
  constructor
  · intro always
    refine ⟨always [] (List.nil_prefix), fun before start => ?_⟩
    exact always (a :: before) (List.cons_prefix_cons.mpr ⟨rfl, start⟩)
  · rintro ⟨now, later⟩ before start
    cases before with
    | nil => exact now
    | cons b before =>
      obtain ⟨rfl, rest⟩ := List.cons_prefix_cons.mp start
      exact later before rest

@[simp] theorem eachStep_nil : EachStep step Q s [] := by
  intro before a start
  have short := start.length_le
  rw [List.length_append] at short
  exact absurd short (by simp)

@[simp] theorem eachStep_cons : EachStep step Q s (a :: commands) ↔ Q s a ∧ EachStep step Q (step s a) commands := by
  constructor
  · intro each
    refine ⟨each [] a (List.cons_prefix_cons.mpr ⟨rfl, List.nil_prefix⟩), fun before b start => ?_⟩
    exact each (a :: before) b (List.cons_prefix_cons.mpr ⟨rfl, start⟩)
  · rintro ⟨first, later⟩ before b start
    cases before with
    | nil =>
      obtain ⟨rfl, -⟩ := List.cons_prefix_cons.mp start
      exact first
    | cons c before =>
      obtain ⟨rfl, rest⟩ := List.cons_prefix_cons.mp start
      exact later before b rest

theorem eachStep_append {more : List A} : EachStep step Q s (commands ++ more) ↔
      EachStep step Q s commands ∧ EachStep step Q (commands.foldl step s) more := by
  induction commands generalizing s with
  | nil => simp
  | cons a commands ih => simp [ih, and_assoc]

instance instDecidableEachStep [∀ s a, Decidable (Q s a)] (s : S) :
    (commands : List A) → Decidable (EachStep step Q s commands)
  | [] => isTrue eachStep_nil
  | a :: commands =>
    have : Decidable (EachStep step Q (step s a) commands) := instDecidableEachStep (step s a) commands
    decidable_of_iff _ eachStep_cons.symm

theorem throughout_of_step (keeps : ∀ s a, P s → P (step s a)) (now : P s) (commands : List A) :
    Throughout step P s commands := by
  induction commands generalizing s with
  | nil => exact throughout_nil.mpr now
  | cons a commands ih => exact throughout_cons.mpr ⟨now, ih (keeps s a now)⟩

variable {I : S → Prop}

theorem eachStep_of_invariant {R : S → A → Prop}
    (keeps : ∀ s a, I s → Q s a → I (step s a)) (one : ∀ s a, I s → Q s a → R s a) (invariant : I s)
    (each : EachStep step Q s commands) : EachStep step R s commands := by
  induction commands generalizing s with
  | nil => exact eachStep_nil
  | cons a commands ih =>
    obtain ⟨first, later⟩ := eachStep_cons.mp each
    exact eachStep_cons.mpr ⟨one s a invariant first, ih (keeps s a invariant first) later⟩

theorem eachStep_congr {R : S → A → Prop} (keeps : ∀ s a, I s → I (step s a))
    (same : ∀ s a, I s → (Q s a ↔ R s a)) (invariant : I s) :
    EachStep step Q s commands ↔ EachStep step R s commands := by
  constructor
  · exact eachStep_of_invariant (fun s a now _ => keeps s a now) (fun s a now => (same s a now).mp) invariant
  · exact eachStep_of_invariant (fun s a now _ => keeps s a now) (fun s a now => (same s a now).mpr) invariant

theorem throughout_iff_eachStep (keeps : ∀ s a, I s → P s → P (step s a) → I (step s a))
    (one : ∀ s a, I s → P s → (P (step s a) ↔ Q s a)) (invariant : I s) (now : P s)
    (commands : List A) : Throughout step P s commands ↔ EachStep step Q s commands := by
  induction commands generalizing s with
  | nil => simp [now]
  | cons a commands ih =>
    rw [throughout_cons, eachStep_cons]
    constructor
    · rintro ⟨-, later⟩
      have next : P (step s a) := later [] List.nil_prefix
      have still := keeps s a invariant now next
      exact ⟨(one s a invariant now).mp next, (ih still next).mp later⟩
    · rintro ⟨first, later⟩
      have next : P (step s a) := (one s a invariant now).mpr first
      have still := keeps s a invariant now next
      exact ⟨now, (ih still next).mpr later⟩

end

end Cboot.Lib
