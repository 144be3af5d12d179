import Mathlib.Data.List.Basic

/-!
A computation changes a state, fails or gives a value, and leaves the events that it met in their order.
-/

namespace Cboot.Lib

structure Run (σ ε τ α : Type) where
  result : Except ε α
  state : σ
  events : List τ

def Act (σ ε τ α : Type) := σ → Run σ ε τ α

namespace Act
variable {σ ε τ α β : Type}

def pure (a : α) : Act σ ε τ α := fun s => ⟨.ok a, s, []⟩

def bind (x : Act σ ε τ α) (f : α → Act σ ε τ β) : Act σ ε τ β := fun s =>
  match (x s).result with
  | .ok a => ⟨(f a (x s).state).result, (f a (x s).state).state, (x s).events ++ (f a (x s).state).events⟩
  | .error e => ⟨.error e, (x s).state, (x s).events⟩

instance : Monad (Act σ ε τ) where
  pure := Act.pure
  bind := Act.bind

/-- An error is a value that may be dropped. -/
def attempt (x : Act σ ε τ α) : Act σ ε τ (Except ε α) := fun s => ⟨.ok (x s).result, (x s).state, (x s).events⟩

def fail (e : ε) : Act σ ε τ α := fun s => ⟨.error e, s, []⟩

def step (event : Except ε α → τ) (f : σ → Except ε α × σ) : Act σ ε τ α := fun s => ⟨(f s).1, (f s).2, [event (f s).1]⟩

def choose (c : σ → Prop) [DecidablePred c] (x y : Act σ ε τ α) : Act σ ε τ α := fun s => if c s then x s else y s

variable {x y : Act σ ε τ α} {f : α → Act σ ε τ β} {g : σ → Except ε α × σ} {event : Except ε α → τ} {s : σ} {a : α} {b : β}

theorem pure_apply (a : α) (s : σ) : (Pure.pure a : Act σ ε τ α) s = ⟨.ok a, s, []⟩ := rfl

theorem bind_ok (done : (x s).result = .ok a) : (x >>= f) s =
    ⟨(f a (x s).state).result, (f a (x s).state).state, (x s).events ++ (f a (x s).state).events⟩ := by
  change Act.bind x f s = _
  rw [Act.bind, done]

theorem bind_error {e : ε} (failed : (x s).result = .error e) :
    (x >>= f) s = ⟨.error e, (x s).state, (x s).events⟩ := by
  change Act.bind x f s = _
  rw [Act.bind, failed]

theorem bind_unit (x : Act σ ε τ Unit) : (x >>= fun _ => Pure.pure ()) = x := by
  funext s
  cases done : (x s).result with
  | error e => rw [bind_error done, ← done]
  | ok a => rw [bind_ok done, pure_apply, List.append_nil, ← done]

theorem choose_cases (c : σ → Prop) [DecidablePred c] (x y : Act σ ε τ α) (s : σ) :
    choose c x y s = x s ∨ choose c x y s = y s := ite_eq_or_eq (c s) (x s) (y s)

def All (p : τ → Prop) (x : Act σ ε τ α) : Prop := ∀ s, ∀ e ∈ (x s).events, p e

variable {p : τ → Prop}

theorem all_pure (a : α) : All p (Pure.pure a : Act σ ε τ α) := fun _ _ member => absurd member List.not_mem_nil

theorem All.bind (first : All p x) (then_ : ∀ a, All p (f a)) : All p (x >>= f) := by
  intro s
  cases done : (x s).result with
  | error e =>
    rw [bind_error done]
    exact first s
  | ok a =>
    rw [bind_ok done]
    exact List.forall_mem_append.mpr ⟨first s, then_ a _⟩

theorem All.attempt (all : All p x) : All p x.attempt := all

theorem all_step (each : ∀ s, p (event (g s).1)) : All p (step event g) := fun s _ member =>
  List.mem_singleton.mp member ▸ each s

/-- It fails exactly where a bad event has been met. -/
def Honest (bad : τ → Prop) (x : Act σ ε τ α) : Prop := ∀ s, (∃ a, (x s).result = .ok a) ↔ ∀ e ∈ (x s).events, ¬ bad e

variable {bad : τ → Prop}

theorem honest_pure (a : α) : Honest bad (Pure.pure a : Act σ ε τ α) := fun _ =>
  ⟨fun _ _ member => absurd member List.not_mem_nil, fun _ => ⟨a, rfl⟩⟩

theorem Honest.bind (first : Honest bad x) (then_ : ∀ a, Honest bad (f a)) : Honest bad (x >>= f) := by
  intro s
  have before := first s
  cases done : (x s).result with
  | error e =>
    rw [done] at before
    rw [bind_error done]
    exact ⟨fun ok => absurd ok nofun, fun good => absurd (before.mpr good) nofun⟩
  | ok a =>
    have good := before.mp ⟨a, done⟩
    rw [bind_ok done, then_ a (x s).state, List.forall_mem_append]
    exact ⟨fun later => ⟨good, later⟩, fun both => both.2⟩

theorem Honest.choose {c : σ → Prop} [DecidablePred c] (left : Honest bad x) (right : Honest bad y) :
    Honest bad (choose c x y) := fun s =>
  (choose_cases c x y s).elim (fun same => same ▸ left s) fun same => same ▸ right s

theorem honest_step (each : ∀ r, bad (event r) ↔ ∃ e, r = .error e) : Honest bad (step event g) := by
  intro s
  rw [show (step event g s).events = [event (g s).1] from rfl, List.forall_mem_singleton, each]
  change (∃ a, (g s).1 = .ok a) ↔ _
  cases (g s).1 with
  | error e => exact ⟨fun ok => absurd ok nofun, fun fine => absurd ⟨e, rfl⟩ fine⟩
  | ok a => exact ⟨fun _ => nofun, fun _ => ⟨a, rfl⟩⟩

theorem All.honest_attempt (silent : All (fun e => ¬ bad e) x) : Honest bad x.attempt := fun s =>
  ⟨fun _ => silent s, fun _ => ⟨_, rfl⟩⟩

/-- From such a state, through good events only, it comes to such a value and state, and this is seen of its events. -/
def Leads {V : Type} (good : τ → Prop) (view : τ → List V) (P : σ → Prop) (x : Act σ ε τ α) (Q : α → σ → Prop)
    (seen : List V) : Prop :=
  ∀ s, P s → (∀ e ∈ (x s).events, good e) →
    ∃ a, (x s).result = .ok a ∧ Q a (x s).state ∧ (x s).events.flatMap view = seen

section
variable {V : Type} {good : τ → Prop} {view : τ → List V} {seen seen' : List V}
variable {P P' : σ → Prop} {Q Q' : α → σ → Prop} {R : β → σ → Prop}

theorem leads_pure (start : ∀ s, P s → Q a s) : Leads good view P (Pure.pure a : Act σ ε τ α) Q [] :=
  fun s before _ => ⟨a, rfl, start s before, rfl⟩

theorem leads_step (each : ∀ s, P s → good (event (g s).1) →
    ∃ a, (g s).1 = .ok a ∧ Q a (g s).2 ∧ view (event (.ok a)) = seen) : Leads good view P (step event g) Q seen := by
  intro s before all
  obtain ⟨a, done, after, shown⟩ := each s before (all _ List.mem_cons_self)
  refine ⟨a, done, after, ?_⟩
  change [event (g s).1].flatMap view = seen
  rw [done, List.flatMap_singleton, shown]

theorem good_first (all : ∀ e ∈ ((x >>= f) s).events, good e) : ∀ e ∈ (x s).events, good e := by
  cases done : (x s).result with
  | error e =>
    rw [bind_error done] at all
    exact all
  | ok a =>
    rw [bind_ok done] at all
    exact (List.forall_mem_append.mp all).1

theorem Leads.bind (first : Leads good view P x Q seen) (then_ : ∀ a, Leads good view (Q a) (f a) R seen') :
    Leads good view P (x >>= f) R (seen ++ seen') := by
  intro s before all
  obtain ⟨a, done, between, shown⟩ := first s before (good_first all)
  rw [bind_ok done] at all ⊢
  obtain ⟨b, done', after, shown'⟩ := then_ a (x s).state between (List.forall_mem_append.mp all).2
  exact ⟨b, done', after, by rw [List.flatMap_append, shown, shown']⟩

theorem Leads.behind (first : Leads good view P x Q []) (then_ : ∀ a, Leads good view (Q a) (f a) R seen) :
    Leads good view P (x >>= f) R seen := first.bind then_

theorem Leads.before (first : Leads good view P x Q seen) (then_ : ∀ a, Leads good view (Q a) (f a) R []) :
    Leads good view P (x >>= f) R seen := by
  have whole := first.bind then_
  rwa [List.append_nil] at whole

theorem Leads.mono (leads : Leads good view P x Q seen) (stronger : ∀ s, P' s → P s) (weaker : ∀ a s, Q a s → Q' a s) :
    Leads good view P' x Q' seen := by
  intro s before all
  obtain ⟨a, done, after, shown⟩ := leads s (stronger s before) all
  exact ⟨a, done, weaker a _ after, shown⟩

theorem Leads.choose {c : σ → Prop} [DecidablePred c] (left : Leads good view P x Q seen) (right : Leads good view P y Q seen) :
    Leads good view P (choose c x y) Q seen := fun s =>
  (choose_cases c x y s).elim (fun same => same ▸ left s) fun same => same ▸ right s

theorem leads_given {fact : Prop} (given : fact → Leads good view P x Q seen) :
    Leads good view (fun s => P s ∧ fact) x Q seen := fun s ⟨before, holds⟩ => given holds s before

theorem Leads.attempt (leads : Leads good view P x Q seen) :
    Leads good view P x.attempt (fun r s => ∃ a, r = .ok a ∧ Q a s) seen := by
  intro s before all
  obtain ⟨a, done, after, shown⟩ := leads s before all
  exact ⟨.ok a, congrArg Except.ok done, ⟨a, rfl, after⟩, shown⟩

theorem Leads.recover {f : Except ε α → Act σ ε τ β} (first : Leads good view P x Q seen)
    (then_ : ∀ a, Leads good view (Q a) (f (.ok a)) R seen') : Leads good view P (x.attempt >>= f) R (seen ++ seen') := by
  refine first.attempt.bind fun r => ?_
  rintro s ⟨a, rfl, before⟩
  exact then_ a s before

theorem Leads.of_attempt (leads : Leads good view P x.attempt (fun r s => ∃ a, r = .ok a ∧ Q a s) seen) :
    Leads good view P x Q seen := by
  intro s before all
  obtain ⟨r, done, ⟨a, ok, after⟩, shown⟩ := leads s before all
  exact ⟨a, (Except.ok.inj done).trans ok, after, shown⟩

variable {T : Except ε β → σ → Prop}

theorem Leads.attempt_bind (first : Leads good view P x Q seen)
    (then_ : ∀ a, Leads good view (Q a) (f a).attempt T seen') : Leads good view P (x >>= f).attempt T (seen ++ seen') := by
  intro s before all
  obtain ⟨a, done, between, shown⟩ := first s before (good_first (f := f) all)
  have events : ((x >>= f).attempt s).events = (x s).events ++ (f a (x s).state).events := by
    change ((x >>= f) s).events = _
    rw [bind_ok done]
  rw [events] at all ⊢
  obtain ⟨r, done', after, shown'⟩ := then_ a (x s).state between (List.forall_mem_append.mp all).2
  refine ⟨r, ?_, ?_, by rw [List.flatMap_append, shown, show (f a (x s).state).events.flatMap view = seen' from shown']⟩
  · change Except.ok ((x >>= f) s).result = .ok r
    rw [bind_ok done]
    exact done'
  · change T r ((x >>= f) s).state
    rw [bind_ok done]
    exact after

theorem Leads.attempt_behind (first : Leads good view P x Q [])
    (then_ : ∀ a, Leads good view (Q a) (f a).attempt T seen) : Leads good view P (x >>= f).attempt T seen :=
  first.attempt_bind then_

theorem leads_attempt_stop {Q : σ → Prop} (fails : ∀ s, P s → ∃ e, (x s).result = .error e ∧ Q (x s).state)
    (silent : ∀ s, P s → (x s).events.flatMap view = seen) : Leads good view P (x >>= f).attempt (fun _ => Q) seen := by
  intro s before _
  obtain ⟨e, failed, after⟩ := fails s before
  refine ⟨_, rfl, ?_⟩
  change Q ((x >>= f) s).state ∧ ((x >>= f) s).events.flatMap view = seen
  rw [bind_error failed]
  exact ⟨after, silent s before⟩

theorem Leads.attempt_first {Q : σ → Prop} (first : Leads good view P x.attempt (fun _ => Q) seen)
    (then_ : ∀ a, Leads good view Q (f a).attempt (fun _ => Q) []) :
    Leads good view P (x >>= f).attempt (fun _ => Q) seen := by
  intro s before all
  obtain ⟨r, done, between, shown⟩ := first s before (good_first (f := f) all)
  refine ⟨_, rfl, ?_⟩
  change Q ((x >>= f) s).state ∧ ((x >>= f) s).events.flatMap view = seen
  change ∀ e ∈ ((x >>= f) s).events, good e at all
  cases result : (x s).result with
  | error e =>
    rw [bind_error result]
    exact ⟨between, shown⟩
  | ok a =>
    rw [bind_ok result] at all ⊢
    obtain ⟨r', done', after, shown'⟩ := then_ a (x s).state between (List.forall_mem_append.mp all).2
    change (f a (x s).state).events.flatMap view = [] at shown'
    exact ⟨after, by rw [List.flatMap_append, shown', List.append_nil]; exact shown⟩

theorem Leads.attempt_recover {f : Except ε α → Act σ ε τ β}
    (first : Leads good view P x Q seen) (then_ : ∀ a, Leads good view (Q a) (f (.ok a)).attempt T seen') :
    Leads good view P (x.attempt >>= f).attempt T (seen ++ seen') := by
  refine first.attempt.attempt_bind fun r => ?_
  rintro s ⟨a, rfl, before⟩
  exact then_ a s before

end

/-- At most so much is done, and less where something was lost. -/
def Counts (done : τ → Bool) (lost : τ → Prop) (n : Nat) (x : Act σ ε τ α) : Prop :=
  ∀ s, (x s).events.countP done ≤ n ∧ ((∃ e ∈ (x s).events, lost e) → (x s).events.countP done < n)

section
variable {done : τ → Bool} {lost : τ → Prop} {m n : Nat}

theorem counts_pure (a : α) : Counts done lost 0 (Pure.pure a : Act σ ε τ α) := fun _ =>
  ⟨Nat.le_refl 0, fun ⟨_, member, _⟩ => absurd member List.not_mem_nil⟩

theorem counts_fail (e : ε) : Counts done lost n (fail e : Act σ ε τ α) := fun _ =>
  ⟨Nat.zero_le n, fun ⟨_, member, _⟩ => absurd member List.not_mem_nil⟩

theorem Counts.attempt (counts : Counts done lost n x) : Counts done lost n x.attempt := counts

theorem Counts.choose {c : σ → Prop} [DecidablePred c] (left : Counts done lost n x) (right : Counts done lost n y) :
    Counts done lost n (choose c x y) := fun s =>
  (choose_cases c x y s).elim (fun same => same ▸ left s) fun same => same ▸ right s

theorem counts_step (kept : ∀ r, ¬ lost (event r)) (idle : ∀ r, done (event r) = false) :
    Counts done lost 0 (step event g) := by
  intro s
  change [event (g s).1].countP done ≤ 0 ∧ ((∃ e ∈ [event (g s).1], lost e) → _)
  rw [List.countP_singleton, if_neg (by rw [idle]; decide)]
  exact ⟨Nat.le_refl 0, fun ⟨e, member, loss⟩ => absurd (List.mem_singleton.mp member ▸ loss) (kept _)⟩

theorem counts_one (kept : ∀ a, ¬ lost (event (.ok a))) (idle : ∀ e, done (event (.error e)) = false) :
    Counts done lost 1 (step event g) := by
  intro s
  change [event (g s).1].countP done ≤ 1 ∧ ((∃ e ∈ [event (g s).1], lost e) → [event (g s).1].countP done < 1)
  refine ⟨List.countP_le_length, ?_⟩
  rintro ⟨e, member, loss⟩
  rw [List.mem_singleton.mp member] at loss
  cases result : (g s).1 with
  | error e => rw [List.countP_singleton, if_neg (by rw [idle]; decide)]; decide
  | ok a => exact absurd (result ▸ loss) (kept a)

theorem Counts.mono (counts : Counts done lost m x) (more : m ≤ n) : Counts done lost n x := fun s =>
  ⟨Nat.le_trans (counts s).1 more, fun loss => Nat.lt_of_lt_of_le ((counts s).2 loss) more⟩

theorem Counts.bind (first : Counts done lost m x) (then_ : ∀ a, Counts done lost n (f a)) :
    Counts done lost (m + n) (x >>= f) := by
  intro s
  obtain ⟨most, less⟩ := first s
  cases result : (x s).result with
  | error e =>
    rw [bind_error result]
    exact ⟨Nat.le_trans most (Nat.le_add_right m n), fun loss => Nat.lt_of_lt_of_le (less loss) (Nat.le_add_right m n)⟩
  | ok a =>
    obtain ⟨most', less'⟩ := then_ a (x s).state
    rw [bind_ok result, List.countP_append]
    refine ⟨Nat.add_le_add most most', ?_⟩
    rintro ⟨e, member, loss⟩
    rcases List.mem_append.mp member with before | after
    · exact Nat.add_lt_add_of_lt_of_le (less ⟨e, before, loss⟩) most'
    · exact Nat.add_lt_add_of_le_of_lt most (less' ⟨e, after, loss⟩)

theorem Counts.behind (first : Counts done lost 0 x) (then_ : ∀ a, Counts done lost n (f a)) :
    Counts done lost n (x >>= f) := by
  have whole := first.bind then_
  rwa [Nat.zero_add] at whole

theorem Counts.stop (fails : ∀ s, ∃ e, (x s).result = .error e) (counts : Counts done lost n x) :
    Counts done lost n (x >>= f) := by
  intro s
  obtain ⟨e, failed⟩ := fails s
  rw [bind_error failed]
  exact counts s

theorem Counts.after (idle : All (fun e => done e = false) x) (kept : ∀ s a, (x s).result = .ok a → ∀ e ∈ (x s).events, ¬ lost e)
    (then_ : ∀ a, Counts done lost n (f a)) (some : 0 < n) : Counts done lost n (x >>= f) := by
  intro s
  have none_ : (x s).events.countP done = 0 := List.countP_eq_zero.mpr fun e member => by rw [idle s e member]; decide
  cases result : (x s).result with
  | error e =>
    rw [bind_error result]
    exact ⟨none_ ▸ Nat.zero_le n, fun _ => none_ ▸ some⟩
  | ok a =>
    obtain ⟨most, less⟩ := then_ a (x s).state
    rw [bind_ok result, List.countP_append, none_, Nat.zero_add]
    refine ⟨most, ?_⟩
    rintro ⟨e, member, loss⟩
    rcases List.mem_append.mp member with before | behind
    · exact absurd loss (kept s a result e before)
    · exact less ⟨e, behind, loss⟩

theorem counts_attempt_bind {f : Except ε α → Act σ ε τ β} (kept : ∀ a, ¬ lost (event (.ok a)))
    (idle : ∀ e, done (event (.error e)) = false) (failed : ∀ e, All (fun t => done t = false) (f (.error e)))
    (then_ : ∀ a, Counts done lost n (f (.ok a))) : Counts done lost (1 + n) ((step event g).attempt >>= f) := by
  intro s
  obtain ⟨most, less⟩ := counts_one (g := g) kept idle s
  change [event (g s).1].countP done ≤ 1 at most
  rw [bind_ok (a := (g s).1) rfl]
  change ([event (g s).1] ++ (f (g s).1 (g s).2).events).countP done ≤ 1 + n ∧
    ((∃ e ∈ [event (g s).1] ++ (f (g s).1 (g s).2).events, lost e) →
      ([event (g s).1] ++ (f (g s).1 (g s).2).events).countP done < 1 + n)
  rw [List.countP_append]
  cases result : (g s).1 with
  | error e =>
    have here : [event (.error e : Except ε α)].countP done = 0 := by
      rw [List.countP_singleton, if_neg (by rw [idle]; decide)]
    have later : (f (.error e) (g s).2).events.countP done = 0 :=
      List.countP_eq_zero.mpr fun t member => by rw [failed e _ t member]; decide
    rw [here, later]
    exact ⟨Nat.zero_le _, fun _ => by omega⟩
  | ok a =>
    obtain ⟨most', less'⟩ := then_ a (g s).2
    rw [result] at most
    refine ⟨Nat.add_le_add most most', ?_⟩
    rintro ⟨e, member, loss⟩
    rcases List.mem_append.mp member with before | behind
    · exact absurd (List.mem_singleton.mp before ▸ loss) (kept a)
    · exact Nat.add_lt_add_of_le_of_lt most (less' ⟨e, behind, loss⟩)

end

end Act

end Cboot.Lib
