import Mathlib.Data.Nat.Basic

/-!
A loop that need not come to an end. Its body goes on with another state, or leaves the loop with a result.
-/

namespace Cboot.Lib

inductive Pass (S R : Type) where
  | next (s : S)
  | leave (result : R)

section
variable {S R : Type}

/-- What comes behind a part of a pass, unless that leaves the loop. -/
def Pass.andThen (p : Pass S R) (rest : S → Pass S R) : Pass S R :=
  match p with
  | .next s => rest s
  | .leave result => .leave result

@[simp] theorem Pass.next_andThen (s : S) (rest : S → Pass S R) : (Pass.next s).andThen rest = rest s := rfl

@[simp] theorem Pass.leave_andThen (result : R) (rest : S → Pass S R) :
    (Pass.leave result : Pass S R).andThen rest = .leave result := rfl

end

section
variable {S R : Type} (body : S → Pass S R)

def runLoop : Nat → S → Option R
  | 0, _ => none
  | fuel + 1, s =>
    match body s with
    | .next s' => runLoop fuel s'
    | .leave result => some result

inductive Comes : S → S → Prop
  | here (s : S) : Comes s s
  | next {s s' t : S} : body s = .next s' → Comes s' t → Comes s t

def LoopReturns (s : S) (result : R) : Prop := ∃ fuel, runLoop body fuel s = some result

variable {body : S → Pass S R} {s s' : S} {result : R}

theorem runLoop_next (taken : body s = .next s') (fuel : Nat) : runLoop body (fuel + 1) s = runLoop body fuel s' := by
  rw [runLoop, taken]

theorem runLoop_leave (taken : body s = .leave result) (fuel : Nat) : runLoop body (fuel + 1) s = some result := by
  rw [runLoop, taken]

theorem returns_of_leave (taken : body s = .leave result) : LoopReturns body s result := ⟨1, runLoop_leave taken 0⟩

theorem returns_of_next (taken : body s = .next s') (returned : LoopReturns body s' result) : LoopReturns body s result := by
  obtain ⟨fuel, ended⟩ := returned
  exact ⟨fuel + 1, (runLoop_next taken fuel).trans ended⟩

theorem runLoop_unique {fuel fuel' : Nat} {result' : R} (ended : runLoop body fuel s = some result)
    (other : runLoop body fuel' s = some result') : result = result' := by
  induction fuel generalizing s fuel' with
  | zero => cases ended
  | succ fuel ih =>
    cases fuel' with
    | zero => cases other
    | succ fuel' =>
      cases taken : body s with
      | next s' =>
        rw [runLoop_next taken] at ended other
        exact ih ended other
      | leave left =>
        rw [runLoop_leave taken] at ended other
        exact Option.some.inj (ended.symm.trans other)

variable {Inv Fits Spoiled : S → Prop} {Good : R → Prop} {rank : S → Nat}

theorem not_good_of_spoiled (passes : ∀ s s', Spoiled s → body s = .next s' → Spoiled s')
    (leaves : ∀ s result, Spoiled s → body s = .leave result → ¬ Good result) (fuel : Nat) (spoiled : Spoiled s)
    (ended : runLoop body fuel s = some result) : ¬ Good result := by
  induction fuel generalizing s with
  | zero => cases ended
  | succ fuel ih =>
    cases taken : body s with
    | next s' =>
      rw [runLoop_next taken] at ended
      exact ih (passes s s' spoiled taken) ended
    | leave result' =>
      rw [runLoop_leave taken] at ended
      cases ended
      exact leaves s result spoiled taken

theorem returns_good (keeps : ∀ s s', Inv s → Fits s → body s = .next s' → Inv s' ∧ rank s' < rank s)
    (leaves : ∀ s result, Inv s → Fits s → body s = .leave result → Good result) (start : Inv s)
    (fits : ∀ t, Comes body s t → Fits t) : ∃ result, LoopReturns body s result ∧ Good result := by
  induction size : rank s using Nat.strongRecOn generalizing s with
  | ind n ih =>
    have now := fits s (.here s)
    cases taken : body s with
    | next s' =>
      obtain ⟨next, less⟩ := keeps s s' start now taken
      obtain ⟨result, returned, good⟩ :=
        ih (rank s') (size ▸ less) next (fun t comes => fits t (.next taken comes)) rfl
      exact ⟨result, returns_of_next taken returned, good⟩
    | leave result => exact ⟨result, returns_of_leave taken, leaves s result start now taken⟩

variable {t : S}

theorem fits_of_returns_good (keeps : ∀ s s', Inv s → Fits s → body s = .next s' → Inv s' ∧ rank s' < rank s)
    (spoils : ∀ s s', Inv s → ¬ Fits s → body s = .next s' → Spoiled s')
    (ruins : ∀ s result, Inv s → ¬ Fits s → body s = .leave result → ¬ Good result)
    (passes : ∀ s s', Spoiled s → body s = .next s' → Spoiled s')
    (leaves : ∀ s result, Spoiled s → body s = .leave result → ¬ Good result) (fuel : Nat) (start : Inv s)
    (ended : runLoop body fuel s = some result) (good : Good result) (comes : Comes body s t) : Fits t := by
  induction fuel generalizing s with
  | zero => cases ended
  | succ fuel ih =>
    have now : Fits s := by
      by_contra bad
      cases taken : body s with
      | next s' =>
        rw [runLoop_next taken] at ended
        exact not_good_of_spoiled passes leaves fuel (spoils s s' start bad taken) ended good
      | leave result' =>
        rw [runLoop_leave taken] at ended
        cases ended
        exact ruins s result start bad taken good
    cases comes with
    | here => exact now
    | next taken later =>
      rw [runLoop_next taken] at ended
      exact ih (keeps s _ start now taken).1 ended later

theorem returns_good_iff (keeps : ∀ s s', Inv s → Fits s → body s = .next s' → Inv s' ∧ rank s' < rank s)
    (ends : ∀ s result, Inv s → Fits s → body s = .leave result → Good result)
    (spoils : ∀ s s', Inv s → ¬ Fits s → body s = .next s' → Spoiled s')
    (ruins : ∀ s result, Inv s → ¬ Fits s → body s = .leave result → ¬ Good result)
    (passes : ∀ s s', Spoiled s → body s = .next s' → Spoiled s')
    (leaves : ∀ s result, Spoiled s → body s = .leave result → ¬ Good result) (start : Inv s) :
    (∃ result, LoopReturns body s result ∧ Good result) ↔ ∀ t, Comes body s t → Fits t := by
  constructor
  · intro returned t comes
    obtain ⟨result, ⟨fuel, ended⟩, good⟩ := returned
    exact fits_of_returns_good keeps spoils ruins passes leaves fuel start ended good comes
  · exact returns_good keeps ends start

theorem Comes.returns (comes : Comes body s t) (returned : LoopReturns body t result) : LoopReturns body s result := by
  induction comes with
  | here => exact returned
  | next taken _ ih => exact returns_of_next taken (ih returned)

theorem Comes.trans {t u : S} (first : Comes body s t) (second : Comes body t u) : Comes body s u := by
  induction first with
  | here => exact second
  | next taken _ ih => exact .next taken (ih second)

theorem Comes.keeps (comes : Comes body s t) (keeps : ∀ s s', Inv s → body s = .next s' → Inv s') (start : Inv s) :
    Inv t := by
  induction comes with
  | here => exact start
  | next taken _ ih => exact ih (keeps _ _ start taken)

theorem LoopReturns.left (returned : LoopReturns body s result) : ∃ t, Comes body s t ∧ body t = .leave result := by
  obtain ⟨fuel, ended⟩ := returned
  induction fuel generalizing s with
  | zero => cases ended
  | succ fuel ih =>
    cases taken : body s with
    | next s' =>
      rw [runLoop_next taken] at ended
      obtain ⟨t, comes, left⟩ := ih ended
      exact ⟨t, .next taken comes, left⟩
    | leave left =>
      rw [runLoop_leave taken] at ended
      cases ended
      exact ⟨s, .here s, taken⟩

theorem never_returns {Cycle : S → Prop} (goes : ∀ s, Cycle s → ∃ s', body s = .next s' ∧ Cycle s') (start : Cycle s)
    (result : R) : ¬ LoopReturns body s result := by
  rintro ⟨fuel, ended⟩
  induction fuel generalizing s with
  | zero => cases ended
  | succ fuel ih =>
    obtain ⟨s', taken, next⟩ := goes s start
    rw [runLoop_next taken] at ended
    exact ih next ended

variable {count : S → Nat}

variable (counts : ∀ s s', body s = .next s' → count s' = count s + 1)
include counts

theorem Comes.count_le (comes : Comes body s t) :
    count s ≤ count t := by
  induction comes with
  | here => exact Nat.le_refl _
  | next taken _ ih =>
    have := counts _ _ taken
    omega

theorem returns_or_comes (n : Nat) (s : S) :
    (∃ result, LoopReturns body s result) ∨ ∃ t, Comes body s t ∧ n ≤ count t := by
  induction n generalizing s with
  | zero => exact .inr ⟨s, .here s, Nat.zero_le _⟩
  | succ n ih =>
    obtain returned | ⟨t, comes, far⟩ := ih s
    · exact .inl returned
    · cases taken : body t with
      | next t' =>
        have := counts t t' taken
        exact .inr ⟨t', comes.trans (.next taken (.here t')), by omega⟩
      | leave result => exact .inl ⟨result, comes.returns (returns_of_leave taken)⟩

theorem count_lt_of_runLoop {fuel : Nat}
    (ended : runLoop body fuel s = some result) (comes : Comes body s t) : count t < count s + fuel := by
  induction fuel generalizing s with
  | zero => cases ended
  | succ fuel ih =>
    cases comes with
    | here => omega
    | next taken later =>
      rw [runLoop_next taken] at ended
      have := counts _ _ taken
      have := ih ended later
      omega

theorem returns_iff_eventually
    (keeps : ∀ s s', Inv s → body s = .next s' → Inv s')
    (drops : ∀ s s', Inv s → Fits s → body s = .next s' → rank s' < rank s) (start : Inv s) :
    (∃ result, LoopReturns body s result) ↔ ∃ n, ∀ t, Comes body s t → n ≤ count t → Fits t := by
  constructor
  · rintro ⟨result, fuel, ended⟩
    refine ⟨count s + fuel, fun t comes far => ?_⟩
    exact absurd (count_lt_of_runLoop counts ended comes) (Nat.not_lt.mpr far)
  · rintro ⟨n, fits⟩
    obtain returned | ⟨t, comes, far⟩ := returns_or_comes counts n s
    · exact returned
    · have later (u : S) (onward : Comes body t u) : Fits u :=
        fits u (comes.trans onward) (Nat.le_trans far (onward.count_le counts))
      have good : ∃ result, LoopReturns body t result ∧ True :=
        returns_good (fun s s' inv fit taken => ⟨keeps s s' inv taken, drops s s' inv fit taken⟩)
          (fun _ _ _ _ _ => trivial) (comes.keeps keeps start) later
      obtain ⟨result, returned, -⟩ := good
      exact ⟨result, comes.returns returned⟩

end

end Cboot.Lib
