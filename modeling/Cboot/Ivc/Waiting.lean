import Cboot.Ivc.Events

/-!
An end that finds nothing to do waits for a notification.
-/

namespace Cboot.Ivc
open Lib

inductive Stage where
  | idle
  | moved
  | due
  deriving DecidableEq, Repr

def Covered (log : List Event) (looker mover : Who) (stuck : Nat → Nat → Prop) (own peer : Nat)
    (stage : Stage) : Prop :=
  ∀ pre suf o p, log = pre ++ .looked looker o p :: suf → stuck o p → .moved looker ∉ suf → .notified mover ∉ suf →
    own = o ∧ ((.moved mover ∉ suf ∧ peer = p) ∨ (peer = add32 p 1 ∧ stage ≠ .idle))

theorem split_snoc {log pre suf : List Event} {e x : Event} (h : log ++ [e] = pre ++ x :: suf) :
    (x = e ∧ suf = []) ∨ ∃ rest, suf = rest ++ [e] ∧ log = pre ++ x :: rest := by
  rcases List.eq_nil_or_concat suf with rfl | ⟨rest, y, rfl⟩
  · obtain ⟨-, last⟩ := List.append_inj' h rfl
    exact .inl ⟨(List.cons.inj last).1.symm, rfl⟩
  · rw [List.concat_eq_append, ← List.cons_append, ← List.append_assoc] at h
    obtain ⟨front, last⟩ := List.append_inj' h rfl
    rw [List.concat_eq_append, (List.cons.inj last).1]
    exact .inr ⟨rest, rfl, front⟩

section
variable {log : List Event} {looker mover : Who} {stuck : Nat → Nat → Prop} {own peer : Nat}
variable {stage stage' : Stage} {e : Event}

theorem Covered.snoc (covered : Covered log looker mover stuck own peer stage)
    (look : ∀ o p, e = .looked looker o p → own = o ∧ peer = p) (notMove : e ≠ .moved mover) :
    Covered (log ++ [e]) looker mover stuck own peer stage := by
  intro pre suf o p split nothing still silent
  rcases split_snoc split with ⟨same, rfl⟩ | ⟨rest, rfl, before⟩
  · obtain ⟨stays, same'⟩ := look o p same.symm
    exact ⟨stays, .inl ⟨List.not_mem_nil, same'⟩⟩
  · obtain ⟨stays, moves⟩ := covered pre rest o p before nothing
      (fun mem => still (List.mem_append_left _ mem)) (fun mem => silent (List.mem_append_left _ mem))
    refine ⟨stays, ?_⟩
    rcases moves with ⟨none, same⟩ | moves
    · refine .inl ⟨?_, same⟩
      intro mem
      rcases List.mem_append.mp mem with old | new
      · exact none old
      · exact notMove (List.mem_singleton.mp new).symm
    · exact .inr moves

theorem covered_over (ends : e = .moved looker ∨ e = .notified mover) :
    Covered (log ++ [e]) looker mover stuck own peer stage := by
  intro pre suf o p split nothing still silent
  rcases split_snoc split with ⟨same, -⟩ | ⟨rest, rfl, -⟩
  · rcases ends with rfl | rfl <;> cases same
  · have last : e ∈ rest ++ [e] := List.mem_append_right _ List.mem_cons_self
    rcases ends with rfl | rfl
    · exact absurd last still
    · exact absurd last silent

theorem Covered.move (covered : Covered log looker mover stuck own peer .idle) :
    Covered (log ++ [.moved mover]) looker mover stuck own (add32 peer 1) .moved := by
  intro pre suf o p split nothing still silent
  rcases split_snoc split with ⟨same, -⟩ | ⟨rest, rfl, before⟩
  · cases same
  · obtain ⟨stays, moves⟩ := covered pre rest o p before nothing
      (fun mem => still (List.mem_append_left _ mem)) (fun mem => silent (List.mem_append_left _ mem))
    rcases moves with ⟨-, rfl⟩ | ⟨-, busy⟩
    · exact ⟨stays, .inr ⟨rfl, by decide⟩⟩
    · exact absurd rfl busy

theorem Covered.restage (covered : Covered log looker mover stuck own peer stage)
    (keeps : ∀ o p, stuck o p → own = o → peer = add32 p 1 → stage ≠ .idle → stage' ≠ .idle) :
    Covered log looker mover stuck own peer stage' := by
  intro pre suf o p split nothing still silent
  obtain ⟨stays, moves⟩ := covered pre suf o p split nothing still silent
  refine ⟨stays, ?_⟩
  rcases moves with quiet | ⟨moves, busy⟩
  · exact .inl quiet
  · exact .inr ⟨moves, keeps o p nothing stays moves busy⟩

end

def LookedInCall (log : List Event) (who : Who) (o p : Nat) : Prop :=
  ∃ pre mid, log = pre ++ .looked who o p :: mid ∧ .began who ∉ mid

theorem LookedInCall.snoc {log : List Event} {who : Who} {o p : Nat} {e : Event}
    (looked : LookedInCall log who o p) (same : e ≠ .began who) : LookedInCall (log ++ [e]) who o p := by
  obtain ⟨pre, mid, rfl, within⟩ := looked
  refine ⟨pre, mid ++ [e], by rw [List.append_assoc, List.cons_append], ?_⟩
  intro mem
  rcases List.mem_append.mp mem with old | new
  · exact within old
  · exact same (List.mem_singleton.mp new).symm

theorem lookedInCall_last (log : List Event) (who : Who) (o p : Nat) :
    LookedInCall (log ++ [.looked who o p]) who o p := ⟨log, [], rfl, List.not_mem_nil⟩

/-- What an end knows of its notifications. -/
structure WakeView where
  count : Nat
  stage : Stage := .idle
  fresh : Bool := false
  look : Option (Nat × Nat) := none

/-- A look at the peer's counter decides whether the last move needs a notification. -/
def WakeView.sees (g : WakeView) (v : Nat) (due : Prop) [Decidable due] : WakeView where
  count := g.count
  stage := if g.stage = .moved then (if due then .due else .idle) else g.stage
  fresh := false
  look := some (g.count, v)

/-- After a move the sender looks afresh, and notifies when it sees one frame in the channel. -/
def txWake : Prog.Contract Op Ans WakeView
  | .load .tx .state, g, Q => ∀ v : Nat, Q v g
  | .load .tx .wCount, g, Q => Q g.count g
  | .load .tx .rCount, g, Q =>
    if g.fresh then ∀ v : Nat, Q v (g.sees v (sub32 g.count v = 1))
    else g.stage ≠ .moved ∧ ∀ v : Nat, Q v g
  | .store .tx .wCount v, g, Q =>
    g.stage = .idle ∧ v = add32 g.count 1 ∧ Q () { g with count := v, stage := .moved }
  | .storeByte .tx _ _, g, Q => Q () g
  | .invalidate .tx .rCount, g, Q => Q () { g with fresh := true }
  | .loadPos .w, g, Q => ∀ v : Nat, Q v g
  | .storePos .w _, g, Q => Q () g
  | .notify, g, Q => Q () { g with stage := .idle }
  | _, _, _ => False

/-- After a move the receiver looks afresh, and notifies when it sees one free slot. -/
def rxWake (ivc : IvcParams) : Prog.Contract Op Ans WakeView
  | .load .tx .state, h, Q => ∀ v : Nat, Q v h
  | .load .rx .rCount, h, Q => Q h.count h
  | .load .rx .wCount, h, Q =>
    if h.fresh then ∀ v : Nat, Q v (h.sees v (sub32 v h.count = sub32 ivc.nframes 1))
    else h.stage ≠ .moved ∧ ∀ v : Nat, Q v h
  | .store .rx .rCount v, h, Q =>
    h.stage = .idle ∧ v = add32 h.count 1 ∧ Q () { h with count := v, stage := .moved }
  | .loadByte .rx _, h, Q => ∀ b : UInt8, Q b h
  | .invalidate .rx .wCount, h, Q => Q () { h with fresh := true }
  | .loadPos .r, h, Q => ∀ v : Nat, Q v h
  | .storePos .r _, h, Q => Q () h
  | .notify, h, Q => Q () { h with stage := .idle }
  | _, _, _ => False

def Empty (own peer : Nat) : Prop := peer = own

def Full (ivc : IvcParams) (own peer : Nat) : Prop := sub32 own peer = ivc.nframes

structure WakeTied (ivc : IvcParams) (s : Logged) (g h : WakeView) : Prop where
  txCount : s.link.wCount = g.count
  rxCount : s.link.rCount = h.count
  txFresh : g.fresh = true → s.link.seenR = none
  rxFresh : h.fresh = true → s.link.seenW = none
  txLook : ∀ o p, g.look = some (o, p) → LookedInCall s.log .tx o p
  rxLook : ∀ o p, h.look = some (o, p) → LookedInCall s.log .rx o p
  txWaits : Covered s.log .tx .rx (Full ivc) s.link.wCount s.link.rCount h.stage
  rxWaits : Covered s.log .rx .tx Empty s.link.rCount s.link.wCount g.stage

section
variable {ivc : IvcParams} {s s' : Logged} {g h : WakeView}

theorem sub32_of_empty {o p : Nat} (empty : Empty o p) : sub32 (add32 p 1) o = 1 := by
  rw [Empty] at empty
  subst empty
  unfold sub32 add32
  omega

theorem sub32_of_full {o p : Nat} (full : Full ivc o p) : sub32 o (add32 p 1) = sub32 ivc.nframes 1 := by
  rw [Full] at full
  rw [← full]
  unfold sub32 add32
  omega

theorem stage_sees_ne_idle {v : Nat} {due : Prop} [Decidable due] (busy : g.stage ≠ .idle)
    (holds : due) : (g.sees v due).stage ≠ .idle := by
  unfold WakeView.sees
  by_cases moved : g.stage = .moved
  · rw [if_pos moved, if_pos holds]
    exact (by decide : Stage.due ≠ .idle)
  · rw [if_neg moved]
    exact busy

variable (tied : WakeTied ivc s g h)
include tied

theorem WakeTied.silent (log : s'.log = s.log)
    (wCount : s'.link.wCount = s.link.wCount) (rCount : s'.link.rCount = s.link.rCount)
    (seenR : s.link.seenR = none → s'.link.seenR = none)
    (seenW : s.link.seenW = none → s'.link.seenW = none) : WakeTied ivc s' g h where
  txCount := wCount.trans tied.txCount
  rxCount := rCount.trans tied.rxCount
  txFresh fresh := seenR (tied.txFresh fresh)
  rxFresh fresh := seenW (tied.rxFresh fresh)
  txLook := by rw [log]; exact tied.txLook
  rxLook := by rw [log]; exact tied.rxLook
  txWaits := by rw [log, wCount, rCount]; exact tied.txWaits
  rxWaits := by rw [log, wCount, rCount]; exact tied.rxWaits

theorem WakeTied.txSees {g' : WakeView} (count : g'.count = g.count)
    (stale : g'.fresh = false) (look : g'.look = g.look ∨ g'.look = some (s.link.wCount, s.link.rCount))
    (stage : ∀ o p, Empty o p → s.link.rCount = o → s.link.wCount = add32 p 1 → g.stage ≠ .idle → g'.stage ≠ .idle) :
    WakeTied ivc ⟨{ s.link with seenR := some s.link.rCount },
      s.log ++ [.looked .tx s.link.wCount s.link.rCount]⟩ g' h where
  txCount := tied.txCount.trans count.symm
  rxCount := tied.rxCount
  txFresh fresh := by rw [stale] at fresh; cases fresh
  rxFresh := tied.rxFresh
  txLook := by
    intro o p looked
    rcases look with same | new
    · rw [same] at looked
      exact (tied.txLook o p looked).snoc (by rintro ⟨⟩)
    · rw [new] at looked
      cases looked
      exact lookedInCall_last _ _ _ _
  rxLook := by
    intro o p looked
    exact (tied.rxLook o p looked).snoc (by rintro ⟨⟩)
  txWaits := tied.txWaits.snoc (by rintro o p ⟨⟩; exact ⟨rfl, rfl⟩) (by rintro ⟨⟩)
  rxWaits := (tied.rxWaits.snoc (by rintro o p ⟨⟩) (by rintro ⟨⟩)).restage stage

theorem WakeTied.txLooks {r : Ans (.load .tx .rCount)} {link' : Link} {R : Ans (.load .tx .rCount) → WakeView → Prop} (contract : txWake (.load .tx .rCount) g R)
    (access : senderAccess ivc s.link (.load .tx .rCount) = some (r, link')) :
    ∃ g', R r g' ∧ WakeTied ivc ⟨link', s.log ++ txEvents s.link (.load .tx .rCount)⟩ g' h := by
  cases cached : s.link.seenR with
  | some v =>
    have warm : g.fresh ≠ true := by
      intro fresh
      rw [tied.txFresh fresh] at cached
      cases cached
    have served : some (v, s.link) = some (r, link') := by
      rw [← access, senderAccess, cached]
      rfl
    cases served
    have quiet : txEvents s.link (.load .tx .rCount) = [] := by
      rw [txEvents, if_neg (by rw [cached]; rintro ⟨⟩)]
    rw [txWake, if_neg warm] at contract
    rw [quiet]
    exact ⟨g, contract.2 _, tied.silent (List.append_nil _) rfl rfl id id⟩
  | none =>
    have served : some (s.link.rCount, { s.link with seenR := some s.link.rCount }) = some (r, link') := by
      rw [← access, senderAccess, cached]
      rfl
    cases served
    have noted : txEvents s.link (.load .tx .rCount) = [.looked .tx s.link.wCount s.link.rCount] := by
      rw [txEvents, if_pos cached]
    rw [txWake] at contract
    rw [noted]
    by_cases fresh : g.fresh = true
    · rw [if_pos fresh] at contract
      refine ⟨_, contract _, tied.txSees rfl rfl (.inr ?_) ?_⟩
      · rw [tied.txCount]
        rfl
      · intro o p empty own peer busy
        refine stage_sees_ne_idle busy ?_
        rw [← tied.txCount, own, peer]
        exact sub32_of_empty empty
    · rw [if_neg fresh] at contract
      exact ⟨g, contract.2 _, tied.txSees rfl (Bool.eq_false_iff.mpr fresh) (.inl rfl)
        fun _ _ _ _ _ busy => busy⟩

theorem WakeTied.txMoves (idle : g.stage = .idle) (sent : List (List UInt8)) :
    WakeTied ivc ⟨{ s.link with wCount := add32 g.count 1, sent := sent }, s.log ++ [.moved .tx]⟩
      { g with count := add32 g.count 1, stage := .moved } h where
  txCount := rfl
  rxCount := tied.rxCount
  txFresh := tied.txFresh
  rxFresh := tied.rxFresh
  txLook := fun o p looked => (tied.txLook o p looked).snoc (by rintro ⟨⟩)
  rxLook := fun o p looked => (tied.rxLook o p looked).snoc (by rintro ⟨⟩)
  txWaits := covered_over (.inl rfl)
  rxWaits := by
    have waits := tied.rxWaits
    rw [idle, tied.txCount] at waits
    exact waits.move

theorem WakeTied.txNotifies :
    WakeTied ivc ⟨s.link, s.log ++ [.notified .tx]⟩ { g with stage := .idle } h where
  txCount := tied.txCount
  rxCount := tied.rxCount
  txFresh := tied.txFresh
  rxFresh := tied.rxFresh
  txLook := fun o p looked => (tied.txLook o p looked).snoc (by rintro ⟨⟩)
  rxLook := fun o p looked => (tied.rxLook o p looked).snoc (by rintro ⟨⟩)
  txWaits := tied.txWaits.snoc (by rintro o p ⟨⟩) (by rintro ⟨⟩)
  rxWaits := covered_over (.inr rfl)

theorem sender_wake_step {op : Op} {r : Ans op} {R : Ans op → WakeView → Prop} (contract : txWake op g R) (access : senderAccess ivc s.link op = some (r, s'.link))
    (log : s'.log = s.log ++ txEvents s.link op) : ∃ g', R r g' ∧ WakeTied ivc s' g' h := by
  obtain ⟨link', log'⟩ := s'
  dsimp only at access log
  subst log
  cases op with
  | load c f =>
    cases c <;> cases f <;> try exact contract.elim
    case tx.wCount =>
      cases access
      refine ⟨g, ?_, tied.silent (List.append_nil _) rfl rfl id id⟩
      rw [tied.txCount]
      exact contract
    case tx.state =>
      cases access
      exact ⟨g, contract _, tied.silent (List.append_nil _) rfl rfl id id⟩
    case tx.rCount =>
      exact tied.txLooks contract access
  | store c f v =>
    cases c <;> cases f <;> try exact contract.elim
    cases access
    obtain ⟨idle, rfl, next⟩ := contract
    exact ⟨_, next, tied.txMoves idle _⟩
  | loadByte c i => cases c <;> exact contract.elim
  | storeByte c i b =>
    cases c with
    | rx => exact contract.elim
    | tx =>
      cases access
      exact ⟨g, contract, tied.silent (List.append_nil _) rfl rfl id id⟩
  | invalidate c f =>
    cases c <;> cases f <;> try exact contract.elim
    cases access
    have quiet : WakeTied ivc ⟨{ s.link with seenR := none }, s.log ++ []⟩ g h :=
      tied.silent (List.append_nil _) rfl rfl (fun _ => rfl) id
    exact ⟨_, contract, { quiet with txFresh := fun _ => rfl }⟩
  | loadPos p =>
    cases p with
    | r => exact contract.elim
    | w =>
      cases access
      exact ⟨g, contract _, tied.silent (List.append_nil _) rfl rfl id id⟩
  | storePos p v =>
    cases p with
    | r => exact contract.elim
    | w =>
      cases access
      exact ⟨g, contract, tied.silent (List.append_nil _) rfl rfl id id⟩
  | notify =>
    cases access
    exact ⟨_, contract, tied.txNotifies⟩

theorem WakeTied.rxSees {h' : WakeView} (count : h'.count = h.count)
    (stale : h'.fresh = false) (look : h'.look = h.look ∨ h'.look = some (s.link.rCount, s.link.wCount))
    (stage : ∀ o p, Full ivc o p → s.link.wCount = o → s.link.rCount = add32 p 1 → h.stage ≠ .idle → h'.stage ≠ .idle) :
    WakeTied ivc ⟨{ s.link with seenW := some s.link.wCount },
      s.log ++ [.looked .rx s.link.rCount s.link.wCount]⟩ g h' where
  txCount := tied.txCount
  rxCount := tied.rxCount.trans count.symm
  txFresh := tied.txFresh
  rxFresh fresh := by rw [stale] at fresh; cases fresh
  txLook := by
    intro o p looked
    exact (tied.txLook o p looked).snoc (by rintro ⟨⟩)
  rxLook := by
    intro o p looked
    rcases look with same | new
    · rw [same] at looked
      exact (tied.rxLook o p looked).snoc (by rintro ⟨⟩)
    · rw [new] at looked
      cases looked
      exact lookedInCall_last _ _ _ _
  txWaits := (tied.txWaits.snoc (by rintro o p ⟨⟩) (by rintro ⟨⟩)).restage stage
  rxWaits := tied.rxWaits.snoc (by rintro o p ⟨⟩; exact ⟨rfl, rfl⟩) (by rintro ⟨⟩)

theorem WakeTied.rxLooks {r : Ans (.load .rx .wCount)} {link' : Link} {R : Ans (.load .rx .wCount) → WakeView → Prop} (contract : rxWake ivc (.load .rx .wCount) h R)
    (access : receiverAccess ivc s.link (.load .rx .wCount) = some (r, link')) :
    ∃ h', R r h' ∧ WakeTied ivc ⟨link', s.log ++ rxEvents s.link (.load .rx .wCount)⟩ g h' := by
  cases cached : s.link.seenW with
  | some v =>
    have warm : h.fresh ≠ true := by
      intro fresh
      rw [tied.rxFresh fresh] at cached
      cases cached
    have served : some (v, s.link) = some (r, link') := by
      rw [← access, receiverAccess, cached]
      rfl
    cases served
    have quiet : rxEvents s.link (.load .rx .wCount) = [] := by
      rw [rxEvents, if_neg (by rw [cached]; rintro ⟨⟩)]
    rw [rxWake, if_neg warm] at contract
    rw [quiet]
    exact ⟨h, contract.2 _, tied.silent (List.append_nil _) rfl rfl id id⟩
  | none =>
    have served : some (s.link.wCount, { s.link with seenW := some s.link.wCount }) = some (r, link') := by
      rw [← access, receiverAccess, cached]
      rfl
    cases served
    have noted : rxEvents s.link (.load .rx .wCount) = [.looked .rx s.link.rCount s.link.wCount] := by
      rw [rxEvents, if_pos cached]
    rw [rxWake] at contract
    rw [noted]
    by_cases fresh : h.fresh = true
    · rw [if_pos fresh] at contract
      refine ⟨_, contract _, tied.rxSees rfl rfl (.inr ?_) ?_⟩
      · rw [tied.rxCount]
        rfl
      · intro o p full own peer busy
        refine stage_sees_ne_idle busy ?_
        rw [← tied.rxCount, own, peer]
        exact sub32_of_full full
    · rw [if_neg fresh] at contract
      exact ⟨h, contract.2 _, tied.rxSees rfl (Bool.eq_false_iff.mpr fresh) (.inl rfl)
        fun _ _ _ _ _ busy => busy⟩

theorem WakeTied.rxMoves (idle : h.stage = .idle) (received : List (List UInt8)) :
    WakeTied ivc ⟨{ s.link with rCount := add32 h.count 1, received := received, copied := none },
        s.log ++ [.moved .rx]⟩
      g { h with count := add32 h.count 1, stage := .moved } where
  txCount := tied.txCount
  rxCount := rfl
  txFresh := tied.txFresh
  rxFresh := tied.rxFresh
  txLook := fun o p looked => (tied.txLook o p looked).snoc (by rintro ⟨⟩)
  rxLook := fun o p looked => (tied.rxLook o p looked).snoc (by rintro ⟨⟩)
  txWaits := by
    have waits := tied.txWaits
    rw [idle, tied.rxCount] at waits
    exact waits.move
  rxWaits := covered_over (.inl rfl)

theorem WakeTied.rxNotifies :
    WakeTied ivc ⟨s.link, s.log ++ [.notified .rx]⟩ g { h with stage := .idle } where
  txCount := tied.txCount
  rxCount := tied.rxCount
  txFresh := tied.txFresh
  rxFresh := tied.rxFresh
  txLook := fun o p looked => (tied.txLook o p looked).snoc (by rintro ⟨⟩)
  rxLook := fun o p looked => (tied.rxLook o p looked).snoc (by rintro ⟨⟩)
  txWaits := covered_over (.inr rfl)
  rxWaits := tied.rxWaits.snoc (by rintro o p ⟨⟩) (by rintro ⟨⟩)

theorem receiver_wake_step {op : Op} {r : Ans op} {R : Ans op → WakeView → Prop} (contract : rxWake ivc op h R)
    (access : receiverAccess ivc s.link op = some (r, s'.link))
    (log : s'.log = s.log ++ rxEvents s.link op) : ∃ h', R r h' ∧ WakeTied ivc s' g h' := by
  obtain ⟨link', log'⟩ := s'
  dsimp only at access log
  subst log
  cases op with
  | load c f =>
    cases c <;> cases f <;> try exact contract.elim
    case tx.state =>
      cases access
      exact ⟨h, contract _, tied.silent (List.append_nil _) rfl rfl id id⟩
    case rx.rCount =>
      cases access
      refine ⟨h, ?_, tied.silent (List.append_nil _) rfl rfl id id⟩
      rw [tied.rxCount]
      exact contract
    case rx.wCount =>
      exact tied.rxLooks contract access
  | store c f v =>
    cases c <;> cases f <;> try exact contract.elim
    cases access
    obtain ⟨idle, rfl, next⟩ := contract
    exact ⟨_, next, tied.rxMoves idle _⟩
  | loadByte c i =>
    cases c with
    | tx => exact contract.elim
    | rx =>
      cases access
      exact ⟨h, contract _, tied.silent (List.append_nil _) rfl rfl id id⟩
  | storeByte c i b => cases c <;> exact contract.elim
  | invalidate c f =>
    cases c <;> cases f <;> try exact contract.elim
    cases access
    have quiet : WakeTied ivc ⟨{ s.link with seenW := none }, s.log ++ []⟩ g h :=
      tied.silent (List.append_nil _) rfl rfl id (fun _ => rfl)
    exact ⟨_, contract, { quiet with rxFresh := fun _ => rfl }⟩
  | loadPos p =>
    cases p with
    | w => exact contract.elim
    | r =>
      cases access
      exact ⟨h, contract _, tied.silent (List.append_nil _) rfl rfl id id⟩
  | storePos p v =>
    cases p with
    | w => exact contract.elim
    | r =>
      cases access
      exact ⟨h, contract, tied.silent (List.append_nil _) rfl rfl id id⟩
  | notify =>
    cases access
    exact ⟨_, contract, tied.rxNotifies⟩

theorem WakeTied.txBegins (idle : g.stage = .idle) (frame : Option (List UInt8)) :
    WakeTied ivc ⟨{ s.link with frame := frame }, s.log ++ [.began .tx]⟩ { count := g.count } h where
  txCount := tied.txCount
  rxCount := tied.rxCount
  txFresh fresh := by cases fresh
  rxFresh := tied.rxFresh
  txLook := by intro o p looked; cases looked
  rxLook := fun o p looked => (tied.rxLook o p looked).snoc (by rintro ⟨⟩)
  txWaits := tied.txWaits.snoc (by rintro o p ⟨⟩) (by rintro ⟨⟩)
  rxWaits := by
    have waits := tied.rxWaits
    rw [idle] at waits
    exact waits.snoc (by rintro o p ⟨⟩) (by rintro ⟨⟩)

theorem WakeTied.rxBegins (idle : h.stage = .idle) (copied : Option (List UInt8)) :
    WakeTied ivc ⟨{ s.link with copied := copied }, s.log ++ [.began .rx]⟩ g { count := h.count } where
  txCount := tied.txCount
  rxCount := tied.rxCount
  txFresh := tied.txFresh
  rxFresh fresh := by cases fresh
  txLook := fun o p looked => (tied.txLook o p looked).snoc (by rintro ⟨⟩)
  rxLook := by intro o p looked; cases looked
  txWaits := by
    have waits := tied.txWaits
    rw [idle] at waits
    exact waits.snoc (by rintro o p ⟨⟩) (by rintro ⟨⟩)
  rxWaits := tied.rxWaits.snoc (by rintro o p ⟨⟩) (by rintro ⟨⟩)

theorem WakeTied.evicted (evicts : loggedEvict s s') : WakeTied ivc s' g h := by
  obtain ⟨move, log⟩ := evicts
  rcases move with same | same
  · apply tied.silent log <;> rw [same]
    · exact id
    · exact fun _ => rfl
  · apply tied.silent log <;> rw [same]
    · exact fun _ => rfl
    · exact id

end

end Cboot.Ivc
