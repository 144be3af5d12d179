import Cboot.Ivc.Agreement

/-!
As long as no end resets while its peer is about to go back to established on an old sample, the
counters and positions of the two ends agree whenever both are established.
-/

namespace Cboot.Ivc
open Lib

section
variable {ivc : IvcParams} {s : Pair} {g h : EndView}

theorem nextPos_modEq {pos : Nat} (some : 0 < ivc.nframes) (small : ivc.nframes < 2 ^ 32)
    (inRing : pos < ivc.nframes ∨ pos = 0) :
    nextPos ivc pos ≡ pos + 1 [MOD ivc.nframes] ∧ nextPos ivc pos < ivc.nframes := by
  have last : sub32 ivc.nframes 1 = ivc.nframes - 1 := by
    unfold sub32
    omega
  unfold nextPos
  rw [last]
  split
  · rename_i atEnd
    rw [atEnd, Nat.sub_add_cancel some]
    exact ⟨(Nat.modEq_zero_iff_dvd.mpr (Nat.dvd_refl _)).symm, some⟩
  · have next : add32 pos 1 = pos + 1 := by
      unfold add32
      omega
    rw [next]
    exact ⟨Nat.ModEq.rfl, by omega⟩

theorem Flow.read {x y : Endpoint} (flow : Flow ivc x y) (small : ivc.nframes < 2 ^ 32)
    (wCount : x.wCount < 2 ^ 32) (rCount : y.rCount < 2 ^ 32)
    (rPos : y.rPos < ivc.nframes ∨ y.rPos = 0) (different : x.wCount ≠ y.rCount) :
    Flow ivc x { y with rCount := add32 y.rCount 1, rPos := nextPos ivc y.rPos } := by
  obtain ⟨bounded, aligned⟩ := flow
  have one : 1 ≤ sub32 x.wCount y.rCount := by
    unfold sub32
    omega
  have less : sub32 x.wCount (add32 y.rCount 1) = sub32 x.wCount y.rCount - 1 := by
    unfold sub32 add32 at *
    omega
  constructor
  · show sub32 x.wCount (add32 y.rCount 1) ≤ ivc.nframes
    omega
  · show nextPos ivc y.rPos + sub32 x.wCount (add32 y.rCount 1) ≡ x.wPos [MOD ivc.nframes]
    have next := (nextPos_modEq (by omega) small rPos).1
    rw [less]
    calc nextPos ivc y.rPos + (sub32 x.wCount y.rCount - 1)
        ≡ y.rPos + 1 + (sub32 x.wCount y.rCount - 1) [MOD ivc.nframes] := next.add_right _
      _ = y.rPos + sub32 x.wCount y.rCount := by omega
      _ ≡ x.wPos [MOD ivc.nframes] := aligned

theorem Flow.write {x y : Endpoint} {data : Nat → UInt8} (flow : Flow ivc x y)
    (small : ivc.nframes < 2 ^ 32) (wPos : x.wPos < ivc.nframes ∨ x.wPos = 0)
    (free : sub32 x.wCount y.rCount < ivc.nframes) :
    Flow ivc { x with wCount := add32 x.wCount 1, wPos := nextPos ivc x.wPos, data := data } y := by
  obtain ⟨bounded, aligned⟩ := flow
  have more : sub32 (add32 x.wCount 1) y.rCount = sub32 x.wCount y.rCount + 1 := by
    unfold sub32 add32 at *
    omega
  constructor
  · show sub32 (add32 x.wCount 1) y.rCount ≤ ivc.nframes
    omega
  · show y.rPos + sub32 (add32 x.wCount 1) y.rCount ≡ nextPos ivc x.wPos [MOD ivc.nframes]
    have next := (nextPos_modEq (by omega) small wPos).1
    rw [more]
    calc y.rPos + (sub32 x.wCount y.rCount + 1)
        = y.rPos + sub32 x.wCount y.rCount + 1 := by omega
      _ ≡ x.wPos + 1 [MOD ivc.nframes] := aligned.add_right 1
      _ ≡ nextPos ivc x.wPos [MOD ivc.nframes] := next.symm

theorem Agree.begin (agree : Agree ivc s g h) (quiet : g.phase = .quiet) :
    Agree ivc s.begin ⟨{ g.own with sampled := none }, .quiet⟩ h := by
  obtain ⟨me, you, near, far, toward, back⟩ := agree
  have back' : Toward ivc h { g.own with sampled := none } :=
    ⟨back.settled, back.asked, back.answered, back.waits, back.crossed, back.trusted⟩
  refine ⟨?_, you, ?_, far, ?_, back'⟩
  · unfold Pair.begin
    rw [me]
  · constructor
    case known => exact near.known
    case wCount => exact near.wCount
    case rCount => exact near.rCount
    case wPos => exact near.wPos
    case rPos => exact near.rPos
    case acked => exact near.acked
    case clearing => exact fun k t same => by cases same
    case target => exact fun k t same => by cases same
    case moving => exact fun same => by cases same
    case quiet =>
      intro _ up
      rcases up with ⟨-, seen⟩ | ⟨-, v, seen, -⟩ <;> cases seen
  · constructor
    case settled => exact fun mine yours => ⟨rfl, (toward.settled mine yours).2⟩
    case asked =>
      intro mine yours
      rcases toward.asked mine yours with ⟨-, flows⟩ | ⟨k, same⟩
      · exact .inl ⟨rfl, flows⟩
      · rw [quiet] at same
        cases same
    case answered => exact fun mine yours => ⟨rfl, (toward.answered mine yours).2⟩
    case waits => exact fun _ _ => rfl
    case crossed => exact fun _ _ k same => by cases same
    case trusted => exact fun _ _ same => by cases same

theorem Agree.reset (agree : Agree ivc s g h) (fresh : g.own.sampled = none) (calm : ¬ h.own.BringingUp) :
    Agree ivc { s with me := { g.own with state := ivcStateSync } }
      ⟨{ g.own with state := ivcStateSync }, .quiet⟩ h := by
  obtain ⟨-, you, near, far, toward, back⟩ := agree
  refine ⟨rfl, you, ?_, far, ?_, ?_⟩
  · constructor
    case known => exact .inr (.inl rfl)
    case wCount => exact near.wCount
    case rCount => exact near.rCount
    case wPos => exact near.wPos
    case rPos => exact near.rPos
    case acked => exact fun mine => by cases mine
    case clearing => exact fun k t same => by cases same
    case target => exact fun k t same => by cases same
    case moving => exact fun same => by cases same
    case quiet =>
      intro _ up
      rcases up with ⟨-, seen⟩ | ⟨mine, -⟩
      · have seen : g.own.sampled = some ivcStateAck := seen
        rw [fresh] at seen
        cases seen
      · cases mine
  · constructor
    case settled => exact fun mine => by cases mine
    case asked => exact fun mine => by cases mine
    case answered => exact fun mine => by cases mine
    case waits => exact fun _ _ => rfl
    case crossed => exact fun _ _ k same => by cases same
    case trusted => exact fun mine => by cases mine
  · constructor
    case settled => exact fun _ mine => by cases mine
    case asked =>
      intro yours _
      rcases near.known with mine | mine | mine
      · exact .inl (back.settled yours mine)
      · exact back.asked yours mine
      · obtain ⟨quiet', out, inn, -⟩ := back.answered yours mine
        exact .inl ⟨quiet', out, inn⟩
    case answered => exact fun _ mine => by cases mine
    case waits => exact fun _ mine => by cases mine
    case crossed =>
      intro _ _ k same
      rcases far.target k _ same with ⟨other, -⟩ | ⟨-, sync, seen⟩
      · cases other
      · exact calm (.inl ⟨sync, seen⟩)
    case trusted => exact fun _ _ same => calm (.inr (far.moving same))

theorem Agree.transfer {own : Endpoint} (agree : Agree ivc s g h) (quiet : g.phase = .quiet)
    (established : g.own.state = ivcStateEstablished) (state : own.state = ivcStateEstablished)
    (wCount : own.wCount < 2 ^ 32) (rCount : own.rCount < 2 ^ 32) (wPos : own.wPos < ivc.nframes ∨ own.wPos = 0)
    (rPos : own.rPos < ivc.nframes ∨ own.rPos = 0) (flows : Flow ivc g.own h.own → Flow ivc h.own g.own →
      Flow ivc own h.own ∧ Flow ivc h.own own) (none : h.own.state = ivcStateAck → own.rCount = 0) :
    Agree ivc { s with me := own } ⟨own, .quiet⟩ h := by
  obtain ⟨-, you, near, far, toward, back⟩ := agree
  have other : ∀ v, v ≠ ivcStateEstablished → own.state ≠ v := by
    intro v different same
    rw [state] at same
    exact different same.symm
  have notSync := other ivcStateSync (by decide)
  have notAck := other ivcStateAck (by decide)
  refine ⟨rfl, you, ?_, far, ?_, ?_⟩
  · constructor
    case known => exact .inl state
    case wCount => exact wCount
    case rCount => exact rCount
    case wPos => exact wPos
    case rPos => exact rPos
    case acked => exact fun mine => absurd mine notAck
    case clearing => exact fun k t same => by cases same
    case target => exact fun k t same => by cases same
    case moving => exact fun same => by cases same
    case quiet =>
      intro _ up
      rcases up with ⟨mine, -⟩ | ⟨mine, -⟩
      · exact notSync mine
      · exact notAck mine
  · constructor
    case settled =>
      intro _ yours
      obtain ⟨-, out, inn⟩ := toward.settled established yours
      exact ⟨rfl, flows out inn⟩
    case asked =>
      intro _ yours
      rcases toward.asked established yours with ⟨-, out, inn⟩ | ⟨k, same⟩
      · exact .inl ⟨rfl, flows out inn⟩
      · rw [quiet] at same
        cases same
    case answered =>
      intro _ yours
      obtain ⟨-, out, inn, -⟩ := toward.answered established yours
      obtain ⟨out, inn⟩ := flows out inn
      exact ⟨rfl, out, inn, none yours⟩
    case waits => exact fun mine => absurd mine notSync
    case crossed => exact fun mine => absurd mine notSync
    case trusted => exact fun mine => absurd mine notAck
  · constructor
    case settled =>
      intro yours _
      obtain ⟨quiet', inn, out⟩ := back.settled yours established
      obtain ⟨out, inn⟩ := flows out inn
      exact ⟨quiet', inn, out⟩
    case asked => exact fun _ mine => absurd mine notSync
    case answered => exact fun _ mine => absurd mine notAck
    case waits => exact fun yours _ => back.waits yours established
    case crossed => exact fun _ mine => absurd mine notSync
    case trusted => exact fun _ mine => absurd mine notSync

theorem Agree.read (small : ivc.nframes < 2 ^ 32) (agree : Agree ivc s g h)
    (quiet : g.phase = .quiet) (ready : Readable ivc s) :
    ∃ g', g'.phase = .quiet ∧ Agree ivc (s.afterRead ivc) g' h := by
  obtain ⟨established, fits, different⟩ := ready
  rw [agree.me] at established
  rw [agree.me, agree.you] at fits different
  have near := agree.near
  have pos : 0 < ivc.nframes := by
    have wCount := agree.far.wCount
    have rCount := near.rCount
    unfold sub32 at fits
    omega
  unfold Pair.afterRead
  rw [agree.me]
  refine ⟨_, rfl, agree.transfer quiet established established near.wCount ?_ near.wPos ?_ ?_ ?_⟩
  · exact Nat.mod_lt _ (by decide)
  · exact .inl (nextPos_modEq pos small near.rPos).2
  · exact fun out inn =>
      ⟨out, inn.read small agree.far.wCount near.rCount near.rPos different⟩
  · intro yours
    obtain ⟨-, -, -, none⟩ := agree.toward.answered established yours
    rw [none, (agree.far.acked yours).1] at different
    exact absurd rfl different

theorem Agree.write {buf : List UInt8} (small : ivc.nframes < 2 ^ 32) (agree : Agree ivc s g h)
    (quiet : g.phase = .quiet) (ready : Writable ivc s) :
    ∃ g', g'.phase = .quiet ∧ Agree ivc (s.afterWrite ivc buf) g' h := by
  obtain ⟨established, free⟩ := ready
  rw [agree.me] at established
  rw [agree.me, agree.you] at free
  have near := agree.near
  unfold Pair.afterWrite
  rw [agree.me]
  refine ⟨_, rfl, agree.transfer quiet established established ?_ near.rCount ?_ near.rPos ?_ ?_⟩
  · exact Nat.mod_lt _ (by decide)
  · exact .inl (nextPos_modEq (by omega) small near.wPos).2
  · exact fun out inn => ⟨out.write small near.wPos free, inn⟩
  · intro yours
    exact (agree.toward.answered established yours).2.2.2

theorem near_call (small : ivc.nframes < 2 ^ 32) (c : Call) (agree : Agree ivc s g h)
    (quiet : g.phase = .quiet) (calm : CalmReset s c) : ∃ g', g'.phase = .quiet ∧ Agree ivc (c.begun ivc s) g' h := by
  have started := agree.begin quiet
  cases c with
  | reset =>
    have calm := calm rfl
    rw [agree.you] at calm
    have reset := started.reset rfl calm
    have same : Call.begun ivc .reset s =
        { s.begin with me := { g.own with sampled := none, state := ivcStateSync } } := by
      show { s.begin with me := { s.begin.me with state := ivcStateSync } } = _
      rw [started.me]
    rw [same]
    exact ⟨_, rfl, reset⟩
  | notified => exact ⟨_, rfl, started⟩
  | read maxRead =>
    show ∃ g', g'.phase = .quiet ∧ Agree ivc ((tegraIvcRead ivc maxRead).run handle s.begin).2 g' h
    by_cases ready : maxRead ≤ ivc.frameSize ∧ Readable ivc s.begin
    · rw [run_tegraIvcRead_ok ready.1 ready.2]
      exact started.read small rfl ready.2
    · obtain ⟨e, failed⟩ := run_tegraIvcRead_fails ready
      rw [failed]
      exact ⟨_, rfl, started⟩
  | write buf =>
    show ∃ g', g'.phase = .quiet ∧ Agree ivc ((tegraIvcWrite ivc buf).run handle s.begin).2 g' h
    by_cases ready : buf.length ≤ ivc.frameSize ∧ Writable ivc s.begin
    · rw [run_tegraIvcWrite_ok ready.1 ready.2]
      exact started.write small rfl ready.2
    · obtain ⟨e, failed⟩ := run_tegraIvcWrite_fails ready
      rw [failed]
      exact ⟨_, rfl, started⟩

def InAgreement (ivc : IvcParams) : Config Pair Op Ans Unit Unit → Prop :=
  Kept (Agree ivc) endContract endContract (fun _ g => g.phase = .quiet) (fun _ h => h.phase = .quiet)

theorem inAgreement_cleared : InAgreement ivc cleared := by
  have own : Own ivc ⟨{}, .quiet⟩ := by
    constructor
    case known => exact .inl rfl
    case wCount => decide
    case rCount => decide
    case wPos => exact .inr rfl
    case rPos => exact .inr rfl
    case acked => exact fun mine => by cases mine
    case clearing => exact fun k t same => by cases same
    case target => exact fun k t same => by cases same
    case moving => exact fun same => by cases same
    case quiet =>
      intro _ up
      rcases up with ⟨mine, -⟩ | ⟨mine, -⟩ <;> cases mine
  have zero : Endpoint.Zero {} := ⟨rfl, rfl, rfl, rfl⟩
  have toward : Toward ivc ⟨{}, .quiet⟩ {} := by
    constructor
    case settled => exact fun _ _ => ⟨rfl, flow_zero zero zero, flow_zero zero zero⟩
    case asked => exact fun _ yours => by cases yours
    case answered => exact fun _ yours => by cases yours
    case waits => exact fun _ _ => rfl
    case crossed => exact fun _ _ k same => by cases same
    case trusted => exact fun _ _ same => by cases same
  exact ⟨⟨{}, .quiet⟩, ⟨{}, .quiet⟩, ⟨rfl, rfl, own, own, toward, toward⟩, rfl, rfl⟩

theorem wp_body (c : Call) (quiet : g.phase = .quiet) : c.body.wp endContract g fun _ g' => g'.phase = .quiet := by
  cases c with
  | notified => exact wp_notified quiet
  | reset => exact quiet
  | read maxRead => exact quiet
  | write buf => exact quiet

theorem inAgreement_run (small : ivc.nframes < 2 ^ 32) {c c' : Config Pair Op Ans Unit Unit}
    (run : Relation.ReflTransGen (Handshake ivc CalmReset) c c') (kept : InAgreement ivc c) : InAgreement ivc c' := by
  apply kept_run _ _ _ _ _ run kept
  · intro s op r s' g h R agree contract access
    exact near_step agree contract access
  · intro s _ call s' g h agree quiet start
    obtain ⟨calm, rfl⟩ := start
    obtain ⟨g', quiet', agree'⟩ := near_call small call agree quiet calm
    exact ⟨g', wp_body call quiet', agree'⟩
  · intro s op r s' g h R agree contract access
    obtain ⟨h', next, agree'⟩ := near_step agree.swap contract access
    exact ⟨h', next, agree'.swap⟩
  · intro s _ call s' g h agree quiet start
    obtain ⟨calm, begun⟩ := start
    obtain ⟨h', quiet', agree'⟩ := near_call small call agree.swap quiet calm
    rw [← begun] at agree'
    exact ⟨h', wp_body call quiet', agree'.swap⟩
  · intro s s' g h _ move
    exact move.elim

/-- Both directions are in order whenever both ends are established, also inside a call. -/
theorem handshake_agrees (small : ivc.nframes < 2 ^ 32) {c : Config Pair Op Ans Unit Unit}
    (run : Relation.ReflTransGen (Handshake ivc CalmReset) cleared c)
    (established : c.state.me.state = ivcStateEstablished ∧ c.state.you.state = ivcStateEstablished) :
    Flow ivc c.state.me c.state.you ∧ Flow ivc c.state.you c.state.me := by
  obtain ⟨g, h, agree, -, -⟩ := inAgreement_run small run inAgreement_cleared
  rw [agree.me, agree.you] at established ⊢
  exact (agree.toward.settled established.1 established.2).2

end

instance (x : Endpoint) : Decidable x.BringingUp :=
  decidable_of_iff (x.state = ivcStateSync ∧ x.sampled = some ivcStateAck ∨
      x.state = ivcStateAck ∧ (x.sampled.any fun v => v ≠ ivcStateSync) = true) <| by
    unfold Endpoint.BringingUp
    rw [Option.any_eq_true]
    simp only [decide_eq_true_eq]

instance (s : Pair) (c : Call) : Decidable (CalmReset s c) :=
  inferInstanceAs (Decidable (c = .reset → ¬ s.you.BringingUp))

section
variable (ivc : IvcParams) (cond : Pair → Call → Prop) [∀ s c, Decidable (cond s c)]

def nearEnd.player : (nearEnd ivc cond).Player where
  access s op := some (handle op s)
  call s _ c := if cond s c then some (c.begun ivc s) else none
  exec_of_access s op r s' access := Option.some.inj access
  start_of_call s a c s' call := by
    split at call
    · rename_i allowed
      exact ⟨allowed, (Option.some.inj call).symm⟩
    · cases call

def farEnd.player : (farEnd ivc cond).Player where
  access s op := some ((handle op s.swap).1, (handle op s.swap).2.swap)
  call s _ c := if cond s.swap c then some (c.begun ivc s.swap).swap else none
  exec_of_access s op r s' access := by
    cases access
    rfl
  start_of_call s a c s' call := by
    split at call
    · rename_i allowed
      refine ⟨allowed, ?_⟩
      rw [← Option.some.inj call]
      rfl
    · cases call

end

def returned : Prog Op Ans Unit → Bool
  | .ret _ => true
  | .act _ _ => false

theorem eq_ret_of_returned {p : Prog Op Ans Unit} (done : returned p = true) : p = .ret () := by
  cases p with
  | ret a => rfl
  | act op next => cases done

/-- A whole handshake, a frame each way. -/
theorem handshake_agrees_frames : ∃ c, Relation.ReflTransGen (Handshake ⟨2, 64⟩ CalmReset) cleared c ∧
    (c.state.me.wCount = 1 ∧ c.state.you.wCount = 1 ∧ c.state.me.rCount = 1) ∧
    Flow ⟨2, 64⟩ c.state.me c.state.you ∧ Flow ⟨2, 64⟩ c.state.you c.state.me := by
  obtain ⟨c, run, holds⟩ := exists_schedule (fun _ _ => False)
    (nearEnd.player ⟨2, 64⟩ CalmReset) (farEnd.player ⟨2, 64⟩ CalmReset) cleared
    (List.flatten [[.leftCall .reset, .rightCall .notified], List.replicate 9 .right,
      [.leftCall .notified], List.replicate 10 .left,
      [.leftCall (.write [1]), .rightCall .notified], List.replicate 7 .right,
      [.rightCall (.write [2]), .leftCall (.read 1)]])
    (fun c => (c.state.me.wCount == 1 && c.state.you.wCount == 1 && c.state.me.rCount == 1) &&
      (c.state.me.state == ivcStateEstablished && c.state.you.state == ivcStateEstablished))
    (by decide)
  simp only [Bool.and_eq_true, beq_iff_eq] at holds
  obtain ⟨⟨⟨wCount, wCount'⟩, rCount⟩, established⟩ := holds
  exact ⟨c, run, ⟨wCount, wCount', rCount⟩, handshake_agrees (by decide) run established⟩

/-- The peer samples established, is overtaken by a second reset, moves to established on the old
sample and reads a frame whose counter is then cleared. -/
theorem handshake_agrees_overtaken : ∃ c, Relation.ReflTransGen (Handshake ⟨1, 64⟩ fun _ _ => True) cleared c ∧
    (c.left = .ret () ∧ c.right = .ret ()) ∧
    (c.state.me.state = ivcStateEstablished ∧ c.state.you.state = ivcStateEstablished) ∧
    ¬ Flow ⟨1, 64⟩ c.state.me c.state.you := by
  obtain ⟨c, run, holds⟩ := exists_schedule (fun _ _ => False)
    (nearEnd.player ⟨1, 64⟩ fun _ _ => True) (farEnd.player ⟨1, 64⟩ fun _ _ => True) cleared
    (List.flatten [[.leftCall .reset, .rightCall .notified], List.replicate 9 .right,
      [.leftCall .notified], List.replicate 10 .left,
      [.leftCall (.write [1]), .rightCall .notified, .right, .right, .leftCall .reset,
        .leftCall .notified, .left, .left], List.replicate 5 .right, [.rightCall (.read 1)], List.replicate 8 .left])
    (fun c => (returned c.left && returned c.right) &&
      (c.state.me.state == ivcStateEstablished && c.state.you.state == ivcStateEstablished) &&
      (c.state.me.wCount == 0 && c.state.you.rCount == 1))
    (by decide)
  simp only [Bool.and_eq_true, beq_iff_eq] at holds
  obtain ⟨⟨⟨left, right⟩, established⟩, wCount, rCount⟩ := holds
  refine ⟨c, run, ⟨eq_ret_of_returned left, eq_ret_of_returned right⟩, established, ?_⟩
  rintro ⟨bounded, -⟩
  rw [wCount, rCount] at bounded
  exact absurd bounded (by decide)

end Cboot.Ivc
