import Mathlib.Data.List.Basic

/-!
A consumer goes through a buffer in iterations, each of which takes a part of what is left of it. In some states it goes
on when the buffer is used up.
-/

namespace Cboot.Lib

inductive Iteration (S I E : Type) where
  | next (s : S) (rest : List I)
  | halt (e : E)

def Iteration.extend {S I E : Type} (more : List I) : Iteration S I E → Iteration S I E
  | .next s rest => .next s (rest ++ more)
  | .halt e => .halt e

structure Consumer (S I E : Type) where
  goesOn : S → Bool
  body : S → List I → Iteration S I E
  weight : S → List I → Nat
  progress : ∀ s input s' rest, input ≠ [] ∨ goesOn s → body s input = .next s' rest → weight s' rest < weight s input

namespace Consumer

section
variable {S I E : Type} (c : Consumer S I E)

def loop (s : S) (input : List I) : Except E S :=
  if _ : input ≠ [] ∨ c.goesOn s then
    match _ : c.body s input with
    | .next s' rest => loop s' rest
    | .halt e => .error e
  else .ok s
termination_by c.weight s input
decreasing_by exact c.progress s input s' rest ‹_› ‹_›

variable {c} {s s' : S} {input rest : List I}

theorem loop_next (going : input ≠ [] ∨ c.goesOn s) (taken : c.body s input = .next s' rest) :
    c.loop s input = c.loop s' rest := by
  rw [loop, dif_pos going]
  split
  · rename_i h
    rw [taken] at h
    cases h
    rfl
  · rename_i h
    rw [taken] at h
    cases h

theorem loop_halt {e : E} (going : input ≠ [] ∨ c.goesOn s) (taken : c.body s input = .halt e) :
    c.loop s input = .error e := by
  rw [loop, dif_pos going]
  split
  · rename_i h
    rw [taken] at h
    cases h
  · rename_i h
    rw [taken] at h
    cases h
    rfl

theorem loop_done (done : ¬ c.goesOn s) : c.loop s [] = .ok s := by
  rw [loop, dif_neg (not_or.mpr ⟨fun nonempty => nonempty rfl, done⟩)]

theorem loop_ok {done : S} (going : input ≠ [] ∨ c.goesOn s) (ended : c.loop s input = .ok done) :
    ∃ s' rest, c.body s input = .next s' rest ∧ c.loop s' rest = .ok done := by
  cases taken : c.body s input with
  | next s' rest =>
    rw [loop_next going taken] at ended
    exact ⟨s', rest, rfl, ended⟩
  | halt e =>
    rw [loop_halt going taken] at ended
    cases ended

theorem loop_induction {motive : S → List I → Prop} (done : ∀ s, ¬ c.goesOn s → motive s [])
    (halt : ∀ s input e, input ≠ [] ∨ c.goesOn s → c.body s input = .halt e → motive s input)
    (next : ∀ s input s' rest, input ≠ [] ∨ c.goesOn s → c.body s input = .next s' rest →
      motive s' rest → motive s input) (s : S) (input : List I) : motive s input := by
  by_cases going : input ≠ [] ∨ c.goesOn s
  · cases taken : c.body s input with
    | halt e => exact halt s input e going taken
    | next s' rest =>
      exact next s input s' rest going taken (loop_induction done halt next s' rest)
  · obtain ⟨empty, stops⟩ := not_or.mp going
    rw [not_not.mp empty]
    exact done s stops
termination_by c.weight s input
decreasing_by exact c.progress s input s' rest ‹_› ‹_›

theorem not_goesOn_of_loop (s : S) (input : List I) (ended : c.loop s input = .ok s') : ¬ c.goesOn s' := by
  induction s, input using c.loop_induction with
  | done s stops =>
    rw [loop_done stops] at ended
    cases ended
    exact stops
  | halt s input e going taken =>
    rw [loop_halt going taken] at ended
    cases ended
  | next s input s₁ rest going taken ih =>
    rw [loop_next going taken] at ended
    exact ih ended

theorem loop_invariant {P : S → List I → Prop} (keeps : ∀ s input s' rest, input ≠ [] ∨ c.goesOn s → P s input →
      c.body s input = .next s' rest → P s' rest) (s : S) (input : List I) (now : P s input)
    (ended : c.loop s input = .ok s') : P s' [] := by
  induction s, input using c.loop_induction with
  | done s stops =>
    rw [loop_done stops] at ended
    cases ended
    exact now
  | halt s input e going taken =>
    rw [loop_halt going taken] at ended
    cases ended
  | next s input s₁ rest going taken ih =>
    rw [loop_next going taken] at ended
    exact ih (keeps s input s₁ rest going now taken) ended

inductive Visits (c : Consumer S I E) : S → List I → S → List I → Prop where
  | here (s : S) (input : List I) : Visits c s input s input
  | next {s s₁ s' : S} {input rest₁ rest : List I} : input ≠ [] ∨ c.goesOn s →
      c.body s input = .next s₁ rest₁ → Visits c s₁ rest₁ s' rest → Visits c s input s' rest

theorem loop_of_visits (visits : c.Visits s input s' rest) : c.loop s input = c.loop s' rest := by
  induction visits with
  | here => rfl
  | next going taken _ ih => rw [loop_next going taken, ih]

theorem exists_of_loop_error {e : E} (s : S) (input : List I) (ended : c.loop s input = .error e) :
    ∃ s' rest, c.Visits s input s' rest ∧ (rest ≠ [] ∨ c.goesOn s') ∧ c.body s' rest = .halt e := by
  induction s, input using c.loop_induction with
  | done s stops =>
    rw [loop_done stops] at ended
    cases ended
  | halt s input e' going taken =>
    rw [loop_halt going taken] at ended
    cases ended
    exact ⟨s, input, .here s input, going, taken⟩
  | next s input s₁ rest going taken ih =>
    rw [loop_next going taken] at ended
    obtain ⟨s', rest', visits, found⟩ := ih ended
    exact ⟨s', rest', .next going taken visits, found⟩

def Along (c : Consumer S I E) (Q : S → List I → Prop) (s : S) (input : List I) : Prop :=
  ∀ s' rest, c.Visits s input s' rest → Q s' rest

section
variable {Q : S → List I → Prop}

theorem Along.here (along : c.Along Q s input) : Q s input := along s input (.here s input)

theorem Along.next (along : c.Along Q s input) (going : input ≠ [] ∨ c.goesOn s)
    (taken : c.body s input = .next s' rest) : c.Along Q s' rest := fun s₁ rest₁ visits =>
  along s₁ rest₁ (.next going taken visits)

theorem along_of_next (taken : c.body s input = .next s' rest) (now : Q s input)
    (later : c.Along Q s' rest) : c.Along Q s input := by
  intro s₁ rest₁ visits
  cases visits with
  | here => exact now
  | next _ taken' onward =>
    obtain ⟨rfl, rfl⟩ := Iteration.next.inj (taken.symm.trans taken')
    exact later _ _ onward

theorem along_of_stop (stops : ∀ s' rest, input ≠ [] ∨ c.goesOn s → c.body s input ≠ .next s' rest)
    (now : Q s input) : c.Along Q s input := by
  intro s₁ rest₁ visits
  cases visits with
  | here => exact now
  | next going taken _ => exact absurd taken (stops _ _ going)

theorem loop_along {P : S → List I → Prop} {R : E → Prop}
    (keeps : ∀ s input s' rest, input ≠ [] ∨ c.goesOn s → P s input → Q s input →
      c.body s input = .next s' rest → P s' rest)
    (last : ∀ s input e, P s input → Q s input → c.body s input = .halt e → R e)
    (s : S) (input : List I) (now : P s input) (along : c.Along Q s input) :
    (∀ s', c.loop s input = .ok s' → P s' []) ∧ ∀ e, c.loop s input = .error e → R e := by
  induction s, input using c.loop_induction with
  | done s stops =>
    rw [loop_done stops]
    constructor
    · intro s' ended
      cases ended
      exact now
    · intro e ended
      cases ended
  | halt s input e going taken =>
    rw [loop_halt going taken]
    constructor
    · intro s' ended
      cases ended
    · intro e' ended
      cases ended
      exact last s input e now along.here taken
  | next s input s₁ rest going taken ih =>
    rw [loop_next going taken]
    exact ih (keeps s input s₁ rest going now along.here taken) (along.next going taken)

/-- A loop can be checked as it runs. -/
def decidableAlong (c : Consumer S I E) (Q : S → List I → Prop) [∀ s input, Decidable (Q s input)]
    (s : S) (input : List I) : Decidable (c.Along Q s input) :=
  if going : input ≠ [] ∨ c.goesOn s then
    match taken : c.body s input with
    | .next s' rest =>
      have := decidableAlong c Q s' rest
      decidable_of_iff (Q s input ∧ c.Along Q s' rest)
        ⟨fun both => along_of_next taken both.1 both.2, fun along => ⟨along.here, along.next going taken⟩⟩
    | .halt e =>
      decidable_of_iff (Q s input) ⟨fun now => along_of_stop (fun s' rest _ other => by
        rw [taken] at other
        cases other) now, fun along => along.here⟩
  else decidable_of_iff (Q s input)
    ⟨fun now => along_of_stop (fun _ _ there => absurd there going) now, fun along => along.here⟩
termination_by c.weight s input
decreasing_by exact c.progress s input s' rest going taken

end

theorem loop_congr {d : Consumer S I E} {P : S → List I → Prop} (stops : ∀ s, d.goesOn s = c.goesOn s)
    (keeps : ∀ s input s' rest, input ≠ [] ∨ c.goesOn s → P s input → c.body s input = .next s' rest → P s' rest)
    (same : ∀ s input, input ≠ [] ∨ c.goesOn s → P s input → d.body s input = c.body s input)
    (s : S) (input : List I) (now : P s input) : d.loop s input = c.loop s input := by
  induction s, input using c.loop_induction with
  | done s still =>
    rw [loop_done still, loop_done (by rwa [stops])]
  | halt s input e going taken =>
    have there : input ≠ [] ∨ d.goesOn s := by rwa [stops]
    rw [loop_halt going taken, loop_halt there ((same s input going now).trans taken)]
  | next s input s₁ rest going taken ih =>
    have there : input ≠ [] ∨ d.goesOn s := by rwa [stops]
    rw [loop_next going taken, loop_next there ((same s input going now).trans taken)]
    exact ih (keeps s input s₁ rest going now taken)

def Resumes (c : Consumer S I E) : Prop :=
  ∀ s a b, a ≠ [] ∨ c.goesOn s → b ≠ [] → c.body s (a ++ b) = (c.body s a).extend b ∨
      ∃ s', c.body s a = .next s' [] ∧ ¬ c.goesOn s' ∧ c.body s (a ++ b) = c.body s' b

theorem loop_of_body_eq {a b : List I} (left : a ≠ []) (right : b ≠ [])
    (same : c.body s a = c.body s' b) : c.loop s a = c.loop s' b := by
  cases taken : c.body s' b with
  | halt e => rw [loop_halt (.inl left) (same.trans taken), loop_halt (.inl right) taken]
  | next s₁ rest => rw [loop_next (.inl left) (same.trans taken), loop_next (.inl right) taken]

theorem loop_append (resumes : c.Resumes) (s : S) (a b : List I) (nonempty : b ≠ []) :
    c.loop s (a ++ b) = (c.loop s a >>= fun s' => c.loop s' b) := by
  have longer : ∀ a, a ++ b ≠ [] := fun a empty => nonempty (List.append_eq_nil_iff.mp empty).2
  induction s, a using c.loop_induction with
  | done s stops =>
    rw [loop_done stops]
    rfl
  | halt s a e going taken =>
    rw [loop_halt going taken]
    rcases resumes s a b going nonempty with whole | ⟨s', cut, -, -⟩
    · rw [taken] at whole
      rw [loop_halt (.inl (longer a)) whole]
      rfl
    · rw [taken] at cut
      cases cut
  | next s a s₁ rest going taken ih =>
    rw [loop_next going taken]
    rcases resumes s a b going nonempty with whole | ⟨s', cut, stops, onward⟩
    · rw [taken] at whole
      rw [loop_next (.inl (longer a)) whole, ih]
    · -- The cut is in the middle of what the iteration takes.
      rw [taken] at cut
      cases cut
      rw [loop_done stops]
      exact loop_of_body_eq (longer a) nonempty onward

theorem foldlM_loop (resumes : c.Resumes) (buffers : List (List I)) (nonempty : [] ∉ buffers) (s : S)
    (stops : ¬ c.goesOn s) : buffers.foldlM c.loop s = c.loop s buffers.flatten := by
  induction buffers generalizing s with
  | nil => exact (loop_done stops).symm
  | cons a buffers ih =>
    obtain ⟨first, others⟩ := not_or.mp (mt List.mem_cons.mpr nonempty)
    rw [List.foldlM_cons, List.flatten_cons]
    cases ended : c.loop s a with
    | error e =>
      by_cases last : buffers.flatten = []
      · rw [last, List.append_nil, ended]
        rfl
      · rw [loop_append resumes s a _ last, ended]
        rfl
    | ok s' =>
      have still := not_goesOn_of_loop s a ended
      by_cases last : buffers.flatten = []
      · rw [last, List.append_nil, ended]
        change buffers.foldlM c.loop s' = .ok s'
        rw [ih others s' still, last, loop_done still]
      · rw [loop_append resumes s a _ last, ended]
        exact ih others s' still

end

end Consumer

end Cboot.Lib
