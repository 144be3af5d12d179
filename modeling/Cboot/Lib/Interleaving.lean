import Mathlib.Logic.Relation

/-!
A program is a tree of accesses. It can run at once through a handler, or one access at a time between the accesses of
another program. A contract says for one party which accesses it may make in its view of the state and which answers
it must expect.
-/

namespace Cboot.Lib

inductive Prog (Op : Type) (Ans : Op → Type) (α : Type) where
  | ret (a : α)
  | act (op : Op) (next : Ans op → Prog Op Ans α)

namespace Prog

section
variable {Op : Type} {Ans : Op → Type} {α β : Type}

def bind : Prog Op Ans α → (α → Prog Op Ans β) → Prog Op Ans β
  | ret a, f => f a
  | act op next, f => act op fun r => (next r).bind f

instance : Monad (Prog Op Ans) where
  pure := ret
  bind := bind

def perform (op : Op) : Prog Op Ans (Ans op) := act op ret

@[simp] theorem act_bind (op : Op) (next : Ans op → Prog Op Ans α) (f : α → Prog Op Ans β) :
    (act op next >>= f) = act op fun r => next r >>= f := rfl

def result : Prog Op Ans α → Option α
  | ret a => some a
  | act _ _ => none

theorem eq_ret_of_result {p : Prog Op Ans α} {f : α → β} {b : β}
    (done : p.result.map f = some b) : ∃ a, p = ret a ∧ f a = b := by
  cases p with
  | ret a => exact ⟨a, rfl, Option.some.inj done⟩
  | act op next => cases done

theorem bind_assoc {γ : Type} (p : Prog Op Ans α) (f : α → Prog Op Ans β) (g : β → Prog Op Ans γ) :
    (p >>= f >>= g) = (p >>= fun a => f a >>= g) := by
  induction p with
  | ret a => rfl
  | act op next ih =>
    rw [act_bind, act_bind, act_bind]
    congr 1
    funext r
    exact ih r

theorem bind_pure (p : Prog Op Ans α) : (p >>= fun a => pure a) = p := by
  induction p with
  | ret a => rfl
  | act op next ih =>
    rw [act_bind]
    congr 1
    funext r
    exact ih r

variable {σ : Type}

def run (handle : (op : Op) → σ → Ans op × σ) : Prog Op Ans α → σ → α × σ
  | ret a, s => (a, s)
  | act op next, s => (next (handle op s).1).run handle (handle op s).2

theorem run_bind (handle : (op : Op) → σ → Ans op × σ) (p : Prog Op Ans α) (f : α → Prog Op Ans β) (s : σ) :
    (p >>= f).run handle s = (f (p.run handle s).1).run handle (p.run handle s).2 := by
  induction p generalizing s with
  | ret a => rfl
  | act op next ih => exact ih _ _

def trace (handle : (op : Op) → σ → Ans op × σ) : Prog Op Ans α → σ → List Op
  | ret _, _ => []
  | act op next, s => op :: (next (handle op s).1).trace handle (handle op s).2

end

/-- For each access in a view: what must hold of every answer and the view after it. -/
abbrev Contract (Op : Type) (Ans : Op → Type) (G : Type) : Type :=
  (op : Op) → G → (Ans op → G → Prop) → Prop

section
variable {Op : Type} {Ans : Op → Type} {α β G : Type} {C : Contract Op Ans G}

/-- The program keeps to the contract from the view `g` and ends with `Q`. -/
def wp (C : Contract Op Ans G) : Prog Op Ans α → G → (α → G → Prop) → Prop
  | ret a, g, Q => Q a g
  | act op next, g, Q => C op g fun r g' => (next r).wp C g' Q

@[simp] theorem wp_act (op : Op) (next : Ans op → Prog Op Ans α) (g : G) (Q : α → G → Prop) :
    (act op next).wp C g Q ↔ C op g fun r g' => (next r).wp C g' Q := Iff.rfl

theorem wp_bind (p : Prog Op Ans α) (f : α → Prog Op Ans β) (g : G) (Q : β → G → Prop) :
    (p >>= f).wp C g Q ↔ p.wp C g fun a g' => (f a).wp C g' Q := by
  induction p generalizing g with
  | ret a => exact Iff.rfl
  | act op next ih =>
    have same : (fun r g' => (next r >>= f).wp C g' Q) =
        fun r g' => (next r).wp C g' fun a g'' => (f a).wp C g'' Q := by
      funext r g'
      exact propext (ih r g')
    rw [act_bind, wp_act, wp_act, same]

end

end Prog

/-! ### Notes

A program may carry notes between its accesses: what a build for debugging checks and the build
that is shipped does not. -/

inductive Noted (Op Note : Type) where
  | plain (op : Op)
  | note (n : Note)

def Noted.Ans {Op Note : Type} (Ans : Op → Type) : Noted Op Note → Type
  | plain op => Ans op
  | note _ => Unit

namespace Prog

section
variable {Op Note : Type} {Ans : Op → Type} {α β G : Type}

def lift : Prog Op Ans α → Prog (Noted Op Note) (Noted.Ans Ans) α
  | ret a => ret a
  | act op next => act (.plain op) fun r => (next r).lift

def note (n : Note) : Prog (Noted Op Note) (Noted.Ans Ans) Unit := act (.note n) ret

def erase : Prog (Noted Op Note) (Noted.Ans Ans) α → Prog Op Ans α
  | ret a => ret a
  | act (.plain op) next => act op fun r => (next r).erase
  | act (.note _) next => (next ()).erase

@[simp] theorem lift_pure (a : α) :
    (pure a : Prog Op Ans α).lift = (pure a : Prog (Noted Op Note) (Noted.Ans Ans) α) := rfl

@[simp] theorem lift_bind (p : Prog Op Ans α) (f : α → Prog Op Ans β) :
    (p >>= f).lift = (p.lift >>= fun a => (f a).lift : Prog (Noted Op Note) (Noted.Ans Ans) β) := by
  induction p with
  | ret a => rfl
  | act op next ih =>
    rw [act_bind, lift, lift, act_bind]
    congr 1
    funext r
    exact ih r

@[simp] theorem erase_pure (a : α) : (pure a : Prog (Noted Op Note) (Noted.Ans Ans) α).erase = pure a := rfl

@[simp] theorem erase_note (n : Note) : (note n : Prog (Noted Op Note) (Noted.Ans Ans) Unit).erase = pure () := rfl

@[simp] theorem erase_lift (p : Prog Op Ans α) : (p.lift : Prog (Noted Op Note) (Noted.Ans Ans) α).erase = p := by
  induction p with
  | ret a => rfl
  | act op next ih =>
    rw [lift, erase]
    congr 1
    funext r
    exact ih r

@[simp] theorem erase_bind (p : Prog (Noted Op Note) (Noted.Ans Ans) α)
    (f : α → Prog (Noted Op Note) (Noted.Ans Ans) β) : (p >>= f).erase = p.erase >>= fun a => (f a).erase := by
  induction p with
  | ret a => rfl
  | act op next ih =>
    cases op with
    | plain op =>
      rw [act_bind, erase, erase, act_bind]
      congr 1
      funext r
      exact ih r
    | note n => exact ih ()

end

end Prog

/-- A party makes one call after another. -/
structure Party (S Op : Type) (Ans : Op → Type) (α Call : Type) where
  exec : S → (op : Op) → Ans op → S → Prop
  start : S → α → Call → S → Prop
  body : α → Call → Prog Op Ans α

structure Config (S Op : Type) (Ans : Op → Type) (α β : Type) where
  state : S
  left : Prog Op Ans α
  right : Prog Op Ans β

section
variable {S Op : Type} {Ans : Op → Type} {α β Call Call' G H : Type}

/-- One access or one call of either party, or a move of the environment. -/
inductive Interleave (T : Party S Op Ans α Call) (U : Party S Op Ans β Call') (env : S → S → Prop) :
    Config S Op Ans α β → Config S Op Ans α β → Prop
  | leftAct {s s' op r next q} : T.exec s op r s' → Interleave T U env ⟨s, .act op next, q⟩ ⟨s', next r, q⟩
  | leftCall {s s' a c q} : T.start s a c s' → Interleave T U env ⟨s, .ret a, q⟩ ⟨s', T.body a c, q⟩
  | rightAct {s s' op r next p} : U.exec s op r s' → Interleave T U env ⟨s, p, .act op next⟩ ⟨s', p, next r⟩
  | rightCall {s s' b c p} : U.start s b c s' → Interleave T U env ⟨s, p, .ret b⟩ ⟨s', p, U.body b c⟩
  | env {s s' p q} : env s s' → Interleave T U env ⟨s, p, q⟩ ⟨s', p, q⟩

/-- Both parties keep to their contracts, with views that `J` ties to the state. -/
def Kept (J : S → G → H → Prop) (C : Prog.Contract Op Ans G) (D : Prog.Contract Op Ans H)
    (P : α → G → Prop) (Q : β → H → Prop) (c : Config S Op Ans α β) : Prop :=
  ∃ g h, J c.state g h ∧ c.left.wp C g P ∧ c.right.wp D h Q

variable {T : Party S Op Ans α Call} {U : Party S Op Ans β Call'} {env : S → S → Prop}
variable {J : S → G → H → Prop} {C : Prog.Contract Op Ans G} {D : Prog.Contract Op Ans H}
variable {P : α → G → Prop} {Q : β → H → Prop} {c c' : Config S Op Ans α β}

variable (leftAct : ∀ s op r s' g h R, J s g h → C op g R → T.exec s op r s' → ∃ g', R r g' ∧ J s' g' h)
  (leftCall : ∀ s a k s' g h, J s g h → P a g → T.start s a k s' → ∃ g', (T.body a k).wp C g' P ∧ J s' g' h)
  (rightAct : ∀ s op r s' g h R, J s g h → D op h R → U.exec s op r s' → ∃ h', R r h' ∧ J s' g h')
  (rightCall : ∀ s b k s' g h, J s g h → Q b h → U.start s b k s' → ∃ h', (U.body b k).wp D h' Q ∧ J s' g h')
  (moves : ∀ s s' g h, J s g h → env s s' → J s' g h)
include leftAct leftCall rightAct rightCall moves

theorem kept_step (step : Interleave T U env c c') (kept : Kept J C D P Q c) : Kept J C D P Q c' := by
  obtain ⟨g, h, tied, left, right⟩ := kept
  cases step with
  | leftAct access =>
    obtain ⟨g', left', tied'⟩ := leftAct _ _ _ _ _ _ _ tied left access
    exact ⟨g', h, tied', left', right⟩
  | leftCall call =>
    obtain ⟨g', left', tied'⟩ := leftCall _ _ _ _ _ _ tied left call
    exact ⟨g', h, tied', left', right⟩
  | rightAct access =>
    obtain ⟨h', right', tied'⟩ := rightAct _ _ _ _ _ _ _ tied right access
    exact ⟨g, h', tied', left, right'⟩
  | rightCall call =>
    obtain ⟨h', right', tied'⟩ := rightCall _ _ _ _ _ _ tied right call
    exact ⟨g, h', tied', left, right'⟩
  | env move => exact ⟨g, h, moves _ _ _ _ tied move, left, right⟩

theorem kept_run (run : Relation.ReflTransGen (Interleave T U env) c c') (kept : Kept J C D P Q c) : Kept J C D P Q c' := by
  induction run with
  | refl => exact kept
  | tail _ step ih => exact kept_step leftAct leftCall rightAct rightCall moves step ih

omit leftAct leftCall rightAct rightCall moves

/-- Whose turn it is, to make an access or to begin a call. -/
inductive Turn (Call Call' : Type) where
  | left
  | right
  | leftCall (c : Call)
  | rightCall (c : Call')

/-- A way to run a party. -/
structure Party.Player (T : Party S Op Ans α Call) where
  access : S → (op : Op) → Option (Ans op × S)
  call : S → α → Call → Option S
  exec_of_access : ∀ s op r s', access s op = some (r, s') → T.exec s op r s'
  start_of_call : ∀ s a c s', call s a c = some s' → T.start s a c s'

def Config.turn (l : T.Player) (r : U.Player) :
    Config S Op Ans α β → Turn Call Call' → Option (Config S Op Ans α β)
  | ⟨s, .act op next, q⟩, .left => (l.access s op).map fun a => ⟨a.2, next a.1, q⟩
  | ⟨s, .ret a, q⟩, .leftCall c => (l.call s a c).map fun s' => ⟨s', T.body a c, q⟩
  | ⟨s, p, .act op next⟩, .right => (r.access s op).map fun a => ⟨a.2, p, next a.1⟩
  | ⟨s, p, .ret b⟩, .rightCall c => (r.call s b c).map fun s' => ⟨s', p, U.body b c⟩
  | _, _ => none

theorem Config.interleave_turn {l : T.Player} {r : U.Player}
    {t : Turn Call Call'} (turn : c.turn l r t = some c') : Interleave T U env c c' := by
  unfold Config.turn at turn
  split at turn
  · obtain ⟨a, access, rfl⟩ := Option.map_eq_some_iff.mp turn
    exact .leftAct (l.exec_of_access _ _ _ _ access)
  · obtain ⟨s', call, rfl⟩ := Option.map_eq_some_iff.mp turn
    exact .leftCall (l.start_of_call _ _ _ _ call)
  · obtain ⟨a, access, rfl⟩ := Option.map_eq_some_iff.mp turn
    exact .rightAct (r.exec_of_access _ _ _ _ access)
  · obtain ⟨s', call, rfl⟩ := Option.map_eq_some_iff.mp turn
    exact .rightCall (r.start_of_call _ _ _ _ call)
  · cases turn

theorem exists_schedule (env : S → S → Prop) (l : T.Player) (r : U.Player) (c : Config S Op Ans α β)
    (turns : List (Turn Call Call')) (p : Config S Op Ans α β → Bool)
    (check : (turns.foldlM (Config.turn l r) c).any p = true) :
    ∃ c', Relation.ReflTransGen (Interleave T U env) c c' ∧ p c' = true := by
  induction turns generalizing c with
  | nil => exact ⟨c, Relation.ReflTransGen.refl, check⟩
  | cons t turns ih =>
    rw [List.foldlM_cons] at check
    cases turn : c.turn l r t with
    | none =>
      rw [turn] at check
      cases check
    | some next =>
      rw [turn] at check
      obtain ⟨c', run, holds⟩ := ih next check
      exact ⟨c', Relation.ReflTransGen.head (Config.interleave_turn turn) run, holds⟩

theorem exists_schedule_stop (env : S → S → Prop) (l : T.Player) (r : U.Player)
    (c : Config S Op Ans α β) (turns rest : List (Turn Call Call')) (p q : Config S Op Ans α β → Bool)
    (check : (turns.foldlM (Config.turn l r) c).any (fun c => p c && (rest.foldlM (Config.turn l r) c).any q) = true) :
    ∃ c₁ c₂, Relation.ReflTransGen (Interleave T U env) c c₁ ∧
      Relation.ReflTransGen (Interleave T U env) c₁ c₂ ∧ p c₁ = true ∧ q c₂ = true := by
  obtain ⟨c₁, first, both⟩ := exists_schedule env l r c turns _ check
  obtain ⟨stop, onward⟩ := Bool.and_eq_true_iff.mp both
  obtain ⟨c₂, second, finish⟩ := exists_schedule env l r c₁ rest q onward
  exact ⟨c₁, c₂, first, second, stop, finish⟩

end

end Cboot.Lib
