import Mathlib.Data.Nat.Basic

/-!
An attempt is a computation that may fail and keeps what it did to the state also when it fails. `Ends` says what holds
when it ends, for either way to end.
-/

namespace Cboot.Lib

abbrev Attempt (ε σ α : Type) := ExceptT ε (StateM σ) α

namespace Attempt

section
variable {ε σ α β : Type}

def run (c : Attempt ε σ α) (s : σ) : Except ε α × σ := StateT.run (ExceptT.run c) s

def call (f : σ → Except ε α × σ) : Attempt ε σ α := ExceptT.mk f

@[simp] theorem run_call (f : σ → Except ε α × σ) (s : σ) : run (call f) s = f s := rfl

@[simp] theorem run_pure (a : α) (s : σ) : run (pure a : Attempt ε σ α) s = (.ok a, s) := rfl

@[simp] theorem run_throw (e : ε) (s : σ) : run (throw e : Attempt ε σ α) s = (.error e, s) := rfl

variable {f : α → Attempt ε σ β} {c : Attempt ε σ α}

theorem run_bind_ok {s s' : σ} {a : α}
    (first : c.run s = (.ok a, s')) : run (c >>= f) s = (f a).run s' := by
  unfold run at first ⊢
  rw [ExceptT.run_bind, StateT.run_bind, first]
  rfl

theorem run_bind_error {s s' : σ} {e : ε}
    (first : c.run s = (.error e, s')) : run (c >>= f) s = (.error e, s') := by
  unfold run at first ⊢
  rw [ExceptT.run_bind, StateT.run_bind, first]
  rfl

theorem run_bind_eq_ok {s t : σ} {b : β} :
    run (c >>= f) s = (.ok b, t) ↔ ∃ a s', c.run s = (.ok a, s') ∧ (f a).run s' = (.ok b, t) := by
  cases first : c.run s with
  | mk r s' =>
    cases r with
    | ok a =>
      rw [run_bind_ok first]
      constructor
      · intro rest
        exact ⟨a, s', rfl, rest⟩
      · rintro ⟨a', s'', same, rest⟩
        cases same
        exact rest
    | error e =>
      rw [run_bind_error first]
      constructor
      · intro ended
        cases ended
      · rintro ⟨a', s'', same, -⟩
        cases same

def Ends (c : Attempt ε σ α) (s : σ) (Q : α → σ → Prop) (E : ε → σ → Prop) : Prop :=
  (∀ a s', c.run s = (.ok a, s') → Q a s') ∧ ∀ e s', c.run s = (.error e, s') → E e s'

variable {s : σ} {Q Q' : α → σ → Prop} {E E' : ε → σ → Prop}

theorem ends_pure {a : α} (here : Q a s) : Ends (pure a : Attempt ε σ α) s Q E := by
  constructor
  · intro a' s' ended
    cases ended
    exact here
  · intro e s' ended
    cases ended

theorem ends_throw {e : ε} (here : E e s) : Ends (throw e : Attempt ε σ α) s Q E := by
  constructor
  · intro a s' ended
    cases ended
  · intro e' s' ended
    cases ended
    exact here

theorem ends_true : Ends c s (fun _ _ => True) fun _ _ => True := ⟨fun _ _ _ => trivial, fun _ _ _ => trivial⟩

theorem ends_of_ok {a : α} {t : σ} (result : c.run s = (.ok a, t)) (here : Q a t) : Ends c s Q E := by
  unfold Ends
  rw [result]
  exact ends_pure (ε := ε) here

theorem ends_call {f : σ → Except ε α × σ} (ok : ∀ a s', f s = (.ok a, s') → Q a s')
    (error : ∀ e s', f s = (.error e, s') → E e s') : Ends (call f) s Q E := ⟨ok, error⟩

theorem ends_bind {R : β → σ → Prop} (first : Ends c s Q E)
    (next : ∀ a s', Q a s' → Ends (f a) s' R E) : Ends (c >>= f) s R E := by
  cases result : c.run s with
  | mk r s' =>
    cases r with
    | ok a =>
      have rest := next a s' (first.1 a s' result)
      unfold Ends
      rw [run_bind_ok result]
      exact rest
    | error e =>
      have failed := first.2 e s' result
      unfold Ends
      rw [run_bind_error result]
      constructor
      · intro b t ended
        cases ended
      · intro e' t ended
        cases ended
        exact failed

theorem Ends.mono (ended : Ends c s Q E) (ok : ∀ a s', Q a s' → Q' a s')
    (error : ∀ e s', E e s' → E' e s') : Ends c s Q' E' :=
  ⟨fun a s' result => ok a s' (ended.1 a s' result), fun e s' result => error e s' (ended.2 e s' result)⟩

theorem Ends.keeps {P : σ → Prop} (ended : Ends c s (fun _ => P) (fun _ => P)) : P (c.run s).2 := by
  cases result : c.run s with
  | mk r s' =>
    cases r with
    | ok a => exact ended.1 a s' result
    | error e => exact ended.2 e s' result

def Total (c : Attempt ε σ α) : Prop := ∀ s, ∃ a t, c.run s = (.ok a, t)

theorem total_pure (a : α) : Total (pure a : Attempt ε σ α) := fun s => ⟨a, s, rfl⟩

theorem total_bind (first : Total c) (next : ∀ a, Total (f a)) : Total (c >>= f) := by
  intro s
  obtain ⟨a, t, ended⟩ := first s
  rw [run_bind_ok ended]
  exact next a t

theorem Total.ends (total : Total c) (ended : Ends c s Q E) : Ends c s Q E' := by
  refine ⟨ended.1, fun e t failed => ?_⟩
  obtain ⟨a, u, fine⟩ := total s
  cases failed.symm.trans fine

/-- `R` relates the states before, and `R'` those after, however the computation ends. -/
def Alike (R R' : σ → σ → Prop) (c : Attempt ε σ α) : Prop :=
  ∀ s t, R s t → (c.run s).1 = (c.run t).1 ∧ R' (c.run s).2 (c.run t).2

variable {R R' R'' : σ → σ → Prop}

theorem alike_pure (a : α) : Alike R R (pure a : Attempt ε σ α) := fun _ _ related => ⟨rfl, related⟩

theorem alike_throw (e : ε) : Alike R R (throw e : Attempt ε σ α) := fun _ _ related => ⟨rfl, related⟩

theorem alike_bind (first : Alike R R' c) (next : ∀ a, Alike R' R'' (f a))
    (weaker : ∀ s t, R' s t → R'' s t) : Alike R R'' (c >>= f) := by
  intro s t related
  obtain ⟨same, after⟩ := first s t related
  cases left : c.run s with
  | mk r s' =>
    cases right : c.run t with
    | mk r' t' =>
      rw [left, right] at same after
      change r = r' at same
      subst same
      cases r with
      | ok a =>
        rw [run_bind_ok left, run_bind_ok right]
        exact next a s' t' after
      | error e =>
        rw [run_bind_error left, run_bind_error right]
        exact ⟨rfl, weaker s' t' after⟩

/-- However the computation ends, the state after it is in this relation to the one before it. -/
def Steps (R : σ → σ → Prop) (c : Attempt ε σ α) : Prop := ∀ s, R s (c.run s).2

theorem Steps.ends (steps : Steps R c) (s : σ) : Ends c s (fun _ t => R s t) fun _ t => R s t := by
  have after := steps s
  constructor
  · intro a t ended
    rwa [ended] at after
  · intro e t ended
    rwa [ended] at after

theorem Steps.mono (steps : Steps R c) (weaker : ∀ s t, R s t → R' s t) : Steps R' c :=
  fun s => weaker s _ (steps s)

theorem steps_bind (first : Steps R c) (next : ∀ a, Steps R' (f a))
    (failed : ∀ s t, R s t → R'' s t) (both : ∀ s t u, R s t → R' t u → R'' s u) : Steps R'' (c >>= f) := by
  intro s
  have start := first s
  cases result : c.run s with
  | mk r t =>
    rw [result] at start
    cases r with
    | ok a =>
      rw [run_bind_ok result]
      exact both s t _ start (next a t)
    | error e =>
      rw [run_bind_error result]
      exact failed s t start

section
variable [IsPreorder σ R]

theorem steps_pure (a : α) : Steps R (pure a : Attempt ε σ α) := fun s => refl_of R s

theorem steps_throw (e : ε) : Steps R (throw e : Attempt ε σ α) := fun s => refl_of R s

theorem Steps.bind (first : Steps R c) (next : ∀ a, Steps R (f a)) :
    Steps R (c >>= f) := steps_bind first next (fun _ _ after => after) fun _ _ _ => trans_of R

theorem step_bind (first : R s (c.run s).2) (next : ∀ a, Steps R (f a)) :
    R s ((c >>= f).run s).2 := by
  cases result : c.run s with
  | mk r t =>
    rw [result] at first
    cases r with
    | ok a =>
      rw [run_bind_ok result]
      exact trans_of R first (next a t)
    | error e =>
      rw [run_bind_error result]
      exact first

end

end

section
variable {ε σ ι : Type}

/-- One computation after the other, until one of them answers true. -/
def firstOf (f : ι → Attempt ε σ Bool) : List ι → Attempt ε σ Bool
  | [] => pure false
  | i :: rest => do
    let found ← f i
    if found then pure true else firstOf f rest

variable {f : ι → Attempt ε σ Bool} {s t : σ}

variable {Q : ι → σ → Prop}

theorem steps_firstOf {R : σ → σ → Prop} [IsPreorder σ R] (steps : ∀ i, Steps R (f i)) (l : List ι) :
    Steps R (firstOf f l) := by
  induction l with
  | nil => exact steps_pure false
  | cons i rest ih =>
    refine (steps i).bind fun found => ?_
    cases found with
    | true => exact steps_pure true
    | false => exact ih

theorem firstOf_single (f : ι → Attempt ε σ Bool) (i : ι) : firstOf f [i] = f i := by
  have same : ∀ found : Bool, (if found then pure true else pure false : Attempt ε σ Bool) = pure found := by
    intro found
    cases found <;> rfl
  simp [firstOf, same]

theorem firstOf_append (f : ι → Attempt ε σ Bool) (l l' : List ι) :
    firstOf f (l ++ l') = firstOf f l >>= fun found => if found then pure true else firstOf f l' := by
  induction l with
  | nil => simp [firstOf]
  | cons i rest ih =>
    simp only [List.cons_append, firstOf, bind_assoc, ih]
    congr 1
    funext found
    cases found <;> simp

end

end Attempt

end Cboot.Lib
