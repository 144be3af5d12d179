import Cboot.Ivc.Ends

/-!
Both ends may reset, answer notifications, read and write at any time.
-/

namespace Cboot.Ivc
open Lib

/-- Inside `tegra_ivc_channel_notified`, past the sample, and about to store established. -/
def Endpoint.BringingUp (x : Endpoint) : Prop :=
  x.state = ivcStateSync ∧ x.sampled = some ivcStateAck ∨
    x.state = ivcStateAck ∧ ∃ v, x.sampled = some v ∧ v ≠ ivcStateSync

section
variable (ivc : IvcParams)

def Pair.begin (s : Pair) : Pair := { s with me := { s.me with sampled := none } }

def Call.begun : Call → Pair → Pair
  | .reset, s => (tegraIvcChannelReset.run handle s.begin).2
  | .notified, s => s.begin
  | .read maxRead, s => ((tegraIvcRead ivc maxRead).run handle s.begin).2
  | .write buf, s => ((tegraIvcWrite ivc buf).run handle s.begin).2

def Call.body : Call → IvcM Unit
  | .notified => do
    let _ ← tegraIvcChannelNotified
    return ()
  | _ => return ()

/-- The end `me` of the pair, making calls that meet a condition. -/
def nearEnd (cond : Pair → Call → Prop) : Party Pair Op Ans Unit Call where
  exec s op r s' := handle op s = (r, s')
  start s _ c s' := cond s c ∧ s' = c.begun ivc s
  body _ c := c.body

/-- The same for the end `you`. -/
def farEnd (cond : Pair → Call → Prop) : Party Pair Op Ans Unit Call where
  exec s op r s' := handle op s.swap = (r, s'.swap)
  start s _ c s' := cond s.swap c ∧ s'.swap = c.begun ivc s.swap
  body _ c := c.body

def Handshake (cond : Pair → Call → Prop) :
    Config Pair Op Ans Unit Unit → Config Pair Op Ans Unit Unit → Prop :=
  Interleave (nearEnd ivc cond) (farEnd ivc cond) fun _ _ => False

def cleared : Config Pair Op Ans Unit Unit := ⟨{}, .ret (), .ret ()⟩

def Flow (x y : Endpoint) : Prop :=
  sub32 x.wCount y.rCount ≤ ivc.nframes ∧ y.rPos + sub32 x.wCount y.rCount ≡ x.wPos [MOD ivc.nframes]

def CalmReset (s : Pair) (c : Call) : Prop := c = .reset → ¬ s.you.BringingUp

end

/-- Where an end is inside `tegra_ivc_channel_notified`: no store is due, the stores from `k` on of
`clearAndMove` are due, or the store from ack to established is due. -/
inductive Phase where
  | quiet
  | clearing (k target : Nat)
  | moving
  deriving DecidableEq, Repr

def sampledPhase (state peerState : Nat) : Phase :=
  if peerState = ivcStateSync then .clearing 0 ivcStateAck
  else if state = ivcStateSync ∧ peerState = ivcStateAck then .clearing 0 ivcStateEstablished
  else if state = ivcStateAck then .moving
  else .quiet

structure EndView where
  own : Endpoint
  phase : Phase

def endContract : Prog.Contract Op Ans EndView
  | .load .tx .state, g, Q => Q g.own.state g
  | .load .rx .state, g, Q => g.phase = .quiet ∧ ∀ v : Nat,
    Q v ⟨{ g.own with sampled := some v }, sampledPhase g.own.state v⟩
  | .store .tx .wCount v, g, Q => ∃ t, g.phase = .clearing 0 t ∧
    v = 0 ∧ Q () ⟨{ g.own with wCount := 0 }, .clearing 1 t⟩
  | .store .rx .rCount v, g, Q => ∃ t, g.phase = .clearing 1 t ∧
    v = 0 ∧ Q () ⟨{ g.own with rCount := 0 }, .clearing 2 t⟩
  | .storePos .w v, g, Q => ∃ t, g.phase = .clearing 2 t ∧ v = 0 ∧ Q () ⟨{ g.own with wPos := 0 }, .clearing 3 t⟩
  | .storePos .r v, g, Q => ∃ t, g.phase = .clearing 3 t ∧ v = 0 ∧ Q () ⟨{ g.own with rPos := 0 }, .clearing 4 t⟩
  | .store .tx .state v, g, Q =>
    (g.phase = .clearing 4 v ∨ g.phase = .moving ∧ v = ivcStateEstablished) ∧ Q () ⟨{ g.own with state := v }, .quiet⟩
  | .invalidate _ _, g, Q => Q () g
  | .notify, g, Q => Q () g
  | _, _, _ => False

variable {g : EndView}

theorem wp_clearAndMove {t : Nat} {Q : Unit → EndView → Prop} (due : g.phase = .clearing 0 t)
    (next : Q () ⟨{ g.own with wCount := 0, rCount := 0, wPos := 0, rPos := 0, state := t }, .quiet⟩) :
    (clearAndMove t).wp endContract g Q :=
  ⟨t, due, rfl, t, rfl, rfl, t, rfl, rfl, t, rfl, rfl, .inl rfl, next⟩

theorem wp_load_ownState {α : Type} {f : Nat → IvcM α} {Q : α → EndView → Prop} :
    (load .tx .state >>= f).wp endContract g Q ↔ (f g.own.state).wp endContract g Q := Iff.rfl

theorem wp_notified (quiet : g.phase = .quiet) :
    (Call.body .notified).wp endContract g fun _ g' => g'.phase = .quiet := by
  refine ⟨quiet, ?_⟩
  intro v
  show Prog.wp _ (_ >>= fun _ => (pure () : IvcM Unit)) _ _
  rw [Prog.wp_bind]
  simp only [Prog.bind, sampledPhase]
  by_cases synced : v = ivcStateSync
  · rw [if_pos synced, if_pos synced, Prog.wp_bind]
    apply wp_clearAndMove
    · rfl
    · rfl
  rw [if_neg synced, if_neg synced, wp_load_ownState]
  by_cases answered : g.own.state = ivcStateSync ∧ v = ivcStateAck
  · rw [if_pos answered, if_pos answered, Prog.wp_bind]
    apply wp_clearAndMove
    · rfl
    · rfl
  rw [if_neg answered, if_neg answered, wp_load_ownState]
  by_cases acked : g.own.state = ivcStateAck
  · rw [if_pos acked, if_pos acked]
    exact ⟨.inr ⟨rfl, rfl⟩, rfl⟩
  · rw [if_neg acked, if_neg acked]
    rfl

def Endpoint.Zero (x : Endpoint) : Prop :=
  x.wCount = 0 ∧ x.rCount = 0 ∧ x.wPos = 0 ∧ x.rPos = 0

section
variable (ivc : IvcParams)

structure Own (g : EndView) : Prop where
  known : g.own.state = ivcStateEstablished ∨ g.own.state = ivcStateSync ∨ g.own.state = ivcStateAck
  wCount : g.own.wCount < 2 ^ 32
  rCount : g.own.rCount < 2 ^ 32
  wPos : g.own.wPos < ivc.nframes ∨ g.own.wPos = 0
  rPos : g.own.rPos < ivc.nframes ∨ g.own.rPos = 0
  acked : g.own.state = ivcStateAck → g.own.Zero
  clearing : ∀ k t, g.phase = .clearing k t → (1 ≤ k → g.own.wCount = 0) ∧
    (2 ≤ k → g.own.rCount = 0) ∧ (3 ≤ k → g.own.wPos = 0) ∧ (4 ≤ k → g.own.rPos = 0)
  target : ∀ k t, g.phase = .clearing k t → t = ivcStateAck ∧ g.own.sampled = some ivcStateSync ∨
    t = ivcStateEstablished ∧ g.own.state = ivcStateSync ∧ g.own.sampled = some ivcStateAck
  moving : g.phase = .moving → g.own.state = ivcStateAck ∧ ∃ v, g.own.sampled = some v ∧ v ≠ ivcStateSync
  quiet : g.phase = .quiet → ¬ g.own.BringingUp

structure Toward (g : EndView) (y : Endpoint) : Prop where
  settled : g.own.state = ivcStateEstablished → y.state = ivcStateEstablished →
    g.phase = .quiet ∧ Flow ivc g.own y ∧ Flow ivc y g.own
  asked : g.own.state = ivcStateEstablished → y.state = ivcStateSync →
    (g.phase = .quiet ∧ Flow ivc g.own y ∧ Flow ivc y g.own) ∨ ∃ k, g.phase = .clearing k ivcStateAck
  -- The peer has cleared its counters and writes nothing before it is established.
  answered : g.own.state = ivcStateEstablished → y.state = ivcStateAck →
    g.phase = .quiet ∧ Flow ivc g.own y ∧ Flow ivc y g.own ∧ g.own.rCount = 0
  waits : g.own.state = ivcStateSync → y.state = ivcStateEstablished → g.phase = .quiet
  crossed : g.own.state = ivcStateSync → y.state = ivcStateSync → ∀ k, g.phase ≠ .clearing k ivcStateEstablished
  trusted : g.own.state = ivcStateAck → y.state = ivcStateSync → g.phase ≠ .moving

structure Agree (s : Pair) (g h : EndView) : Prop where
  me : s.me = g.own
  you : s.you = h.own
  near : Own ivc g
  far : Own ivc h
  toward : Toward ivc g h.own
  back : Toward ivc h g.own

end

section
variable {ivc : IvcParams} {s : Pair} {h : EndView}

theorem Agree.swap (agree : Agree ivc s g h) : Agree ivc s.swap h g where
  me := agree.you
  you := agree.me
  near := agree.far
  far := agree.near
  toward := agree.back
  back := agree.toward

theorem flow_zero {x y : Endpoint} (left : x.Zero) (right : y.Zero) : Flow ivc x y := by
  obtain ⟨wCount, -, wPos, -⟩ := left
  obtain ⟨-, rCount, -, rPos⟩ := right
  have none : sub32 x.wCount y.rCount = 0 := by
    rw [wCount, rCount]
    rfl
  constructor
  · omega
  · rw [none, rPos, wPos]

/-- `own` is `x` after store number `k` of `clearAndMove`. -/
structure Clears (k : Nat) (x own : Endpoint) : Prop where
  state : own.state = x.state
  sampled : own.sampled = x.sampled
  wCount : own.wCount = if k = 0 then 0 else x.wCount
  rCount : own.rCount = if k = 1 then 0 else x.rCount
  wPos : own.wPos = if k = 2 then 0 else x.wPos
  rPos : own.rPos = if k = 3 then 0 else x.rPos

variable {k t : Nat}

theorem busy_clearing (due : g.phase = .clearing k t) : g.phase ≠ .quiet := by
  rw [due]
  intro same
  cases same

theorem Own.clear {own : Endpoint} (near : Own ivc g) (due : g.phase = .clearing k t)
    (clears : Clears k g.own own) : Own ivc ⟨own, .clearing (k + 1) t⟩ := by
  have done := near.clearing k t due
  constructor
  case known =>
    dsimp only
    rw [clears.state]
    exact near.known
  case wCount =>
    rw [clears.wCount]
    have := near.wCount
    split <;> omega
  case rCount =>
    rw [clears.rCount]
    have := near.rCount
    split <;> omega
  case wPos =>
    rw [clears.wPos]
    have := near.wPos
    split <;> omega
  case rPos =>
    rw [clears.rPos]
    have := near.rPos
    split <;> omega
  case acked =>
    intro acked
    rw [clears.state] at acked
    obtain ⟨w, r, wp, rp⟩ := near.acked acked
    refine ⟨?_, ?_, ?_, ?_⟩
    · rw [clears.wCount, w, ite_self]
    · rw [clears.rCount, r, ite_self]
    · rw [clears.wPos, wp, ite_self]
    · rw [clears.rPos, rp, ite_self]
  case clearing =>
    intro k' t' same
    cases same
    dsimp only
    rw [clears.wCount, clears.rCount, clears.wPos, clears.rPos]
    refine ⟨?_, ?_, ?_, ?_⟩
    all_goals
      intro le
      split <;> omega
  case target =>
    intro k' t' same
    cases same
    dsimp only
    rw [clears.state, clears.sampled]
    exact near.target k t due
  case moving =>
    intro same
    cases same
  case quiet =>
    intro same
    cases same

theorem Toward.clear {own y : Endpoint} (toward : Toward ivc g y)
    (due : g.phase = .clearing k t) (clears : Clears k g.own own) : Toward ivc ⟨own, .clearing (k + 1) t⟩ y := by
  have busy := busy_clearing due
  constructor
  case settled =>
    intro mine yours
    rw [clears.state] at mine
    exact absurd (toward.settled mine yours).1 busy
  case asked =>
    intro mine yours
    rw [clears.state] at mine
    rcases toward.asked mine yours with ⟨quiet, -⟩ | ⟨k', same⟩
    · exact absurd quiet busy
    · rw [due] at same
      cases same
      exact .inr ⟨k + 1, rfl⟩
  case answered =>
    intro mine yours
    rw [clears.state] at mine
    exact absurd (toward.answered mine yours).1 busy
  case waits =>
    intro mine yours
    rw [clears.state] at mine
    exact absurd (toward.waits mine yours) busy
  case crossed =>
    intro mine yours k' same
    rw [clears.state] at mine
    cases same
    exact toward.crossed mine yours k due
  case trusted =>
    intro _ _ same
    cases same

theorem flows_of_clears {own y : Endpoint} {k : Nat} (zero : g.own.Zero)
    (clears : Clears k g.own own) (out : Flow ivc y g.own) (inn : Flow ivc g.own y) :
    Flow ivc y own ∧ Flow ivc own y := by
  obtain ⟨w, r, wp, rp⟩ := zero
  unfold Flow at *
  rw [clears.wCount, clears.rCount, clears.wPos, clears.rPos, w, r, wp, rp]
  simp only [ite_self]
  rw [r, rp] at out
  rw [w, wp] at inn
  exact ⟨out, inn⟩

theorem Agree.clear {own : Endpoint} (agree : Agree ivc s g h)
    (due : g.phase = .clearing k t) (clears : Clears k g.own own) :
    Agree ivc { s with me := own } ⟨own, .clearing (k + 1) t⟩ h := by
  obtain ⟨-, you, near, far, toward, back⟩ := agree
  have busy := busy_clearing due
  refine ⟨rfl, you, near.clear due clears, far, toward.clear due clears, ?_⟩
  constructor
  case settled =>
    intro yours mine
    rw [clears.state] at mine
    exact absurd (toward.settled mine yours).1 busy
  case asked =>
    intro yours mine
    rw [clears.state] at mine
    exact absurd (toward.waits mine yours) busy
  case answered =>
    -- The peer is established only if the counters were clear before.
    intro yours mine
    rw [clears.state] at mine
    obtain ⟨quiet, out, inn, none⟩ := back.answered yours mine
    obtain ⟨out, inn⟩ := flows_of_clears (near.acked mine) clears out inn
    exact ⟨quiet, out, inn, none⟩
  case waits =>
    intro yours mine
    rw [clears.state] at mine
    exact back.waits yours mine
  case crossed =>
    intro yours mine
    rw [clears.state] at mine
    exact back.crossed yours mine
  case trusted =>
    intro yours mine
    rw [clears.state] at mine
    exact back.trusted yours mine

theorem Agree.sample (agree : Agree ivc s g h) : Agree ivc { s with me := { g.own with sampled := some h.own.state } }
      ⟨{ g.own with sampled := some h.own.state }, sampledPhase g.own.state h.own.state⟩ h := by
  obtain ⟨-, you, near, far, toward, back⟩ := agree
  have established : ivcStateEstablished ≠ ivcStateAck := by decide
  have synced : ivcStateEstablished ≠ ivcStateSync := by decide
  have acked : ivcStateAck ≠ ivcStateSync := by decide
  have back' : Toward ivc h { g.own with sampled := some h.own.state } :=
    ⟨back.settled, back.asked, back.answered, back.waits, back.crossed, back.trusted⟩
  refine ⟨rfl, you, ?_, far, ?_, back'⟩
  · constructor
    case known => exact near.known
    case wCount => exact near.wCount
    case rCount => exact near.rCount
    case wPos => exact near.wPos
    case rPos => exact near.rPos
    case acked => exact near.acked
    case clearing =>
      intro k t same
      have first : k = 0 := by
        dsimp only at same
        unfold sampledPhase at same
        split_ifs at same <;> cases same <;> rfl
      omega
    case target =>
      intro k t same
      dsimp only at same ⊢
      unfold sampledPhase at same
      split_ifs at same with asked answered
      · cases same
        exact .inl ⟨rfl, by rw [asked]⟩
      · cases same
        exact .inr ⟨rfl, answered.1, by rw [answered.2]⟩
    case moving =>
      intro same
      dsimp only at same ⊢
      unfold sampledPhase at same
      split_ifs at same with other _ mine
      exact ⟨mine, _, rfl, other⟩
    case quiet =>
      intro same up
      dsimp only at same
      unfold sampledPhase at same
      split_ifs at same with other unanswered mine
      rcases up with ⟨sync, ack⟩ | ⟨ack, -⟩
      · exact unanswered ⟨sync, Option.some.inj ack⟩
      · exact mine ack
  · unfold sampledPhase
    constructor
    case settled =>
      intro mine yours
      dsimp only at mine ⊢
      rw [mine, yours, if_neg synced, if_neg (by simp [synced]), if_neg established]
      obtain ⟨-, flows⟩ := toward.settled mine yours
      exact ⟨rfl, flows⟩
    case asked =>
      intro mine yours
      exact .inr ⟨0, if_pos yours⟩
    case answered =>
      intro mine yours
      dsimp only at mine ⊢
      rw [mine, yours, if_neg acked, if_neg (by simp [synced]), if_neg established]
      obtain ⟨-, flows⟩ := toward.answered mine yours
      exact ⟨rfl, flows⟩
    case waits =>
      intro mine yours
      dsimp only at mine ⊢
      rw [mine, yours, if_neg synced, if_neg (by simp [established]), if_neg acked.symm]
    case crossed =>
      intro mine yours k same
      dsimp only at same
      rw [if_pos yours] at same
      cases same
    case trusted =>
      intro mine yours same
      dsimp only at same
      rw [if_pos yours] at same
      cases same

section
variable (due : g.phase = .clearing 4 t ∨ g.phase = .moving ∧ t = ivcStateEstablished)
include due

theorem busy_due : g.phase ≠ .quiet := by
  intro quiet
  rw [quiet] at due
  rcases due with same | ⟨same, -⟩ <;> cases same

theorem Own.zero (near : Own ivc g) : g.own.Zero := by
  rcases due with same | ⟨same, -⟩
  · obtain ⟨w, r, wp, rp⟩ := near.clearing 4 t same
    exact ⟨w (by omega), r (by omega), wp (by omega), rp (by omega)⟩
  · exact near.acked (near.moving same).1

theorem Own.leads (near : Own ivc g) : t = ivcStateAck ∧ g.own.sampled = some ivcStateSync ∨
    t = ivcStateEstablished ∧ (g.own.state = ivcStateSync ∧ g.phase = .clearing 4 t ∨
      g.own.state = ivcStateAck ∧ g.phase = .moving) := by
  rcases due with same | ⟨same, rfl⟩
  · rcases near.target 4 t same with acked | ⟨established, synced, -⟩
    · exact .inl acked
    · exact .inr ⟨established, .inl ⟨synced, same⟩⟩
  · exact .inr ⟨rfl, .inr ⟨(near.moving same).1, same⟩⟩

theorem Own.move (near : Own ivc g) : Own ivc ⟨{ g.own with state := t }, .quiet⟩ := by
  have target := near.leads due
  have zero := near.zero due
  constructor
  case known =>
    rcases target with ⟨rfl, -⟩ | ⟨rfl, -⟩
    · exact .inr (.inr rfl)
    · exact .inl rfl
  case wCount => exact near.wCount
  case rCount => exact near.rCount
  case wPos => exact near.wPos
  case rPos => exact near.rPos
  case acked =>
    intro _
    exact zero
  case clearing =>
    intro k t' same
    cases same
  case target =>
    intro k t' same
    cases same
  case moving =>
    intro same
    cases same
  case quiet =>
    intro _ up
    rcases target with ⟨rfl, sampled⟩ | ⟨rfl, -⟩
    · rcases up with ⟨same, -⟩ | ⟨-, v, seen, other⟩
      · cases same
      · have seen : g.own.sampled = some v := seen
        rw [sampled] at seen
        cases seen
        exact other rfl
    · rcases up with ⟨same, -⟩ | ⟨same, -⟩ <;> cases same

theorem Agree.move (agree : Agree ivc s g h) :
    Agree ivc { s with me := { g.own with state := t } } ⟨{ g.own with state := t }, .quiet⟩ h := by
  obtain ⟨-, you, near, far, toward, back⟩ := agree
  have busy := busy_due due
  have zero := near.zero due
  have own' := near.move due
  rcases near.leads due with ⟨rfl, -⟩ | ⟨rfl, from'⟩
  · refine ⟨rfl, you, own', far, ?_, ?_⟩
    · constructor
      case settled => exact fun mine => by cases mine
      case asked => exact fun mine => by cases mine
      case answered => exact fun mine => by cases mine
      case waits => exact fun mine => by cases mine
      case crossed => exact fun mine => by cases mine
      case trusted => exact fun _ _ same => by cases same
    · constructor
      case settled => exact fun _ mine => by cases mine
      case asked => exact fun _ mine => by cases mine
      case answered =>
        -- An established peer leaves no state but ack to store ack from.
        intro yours _
        rcases near.known with mine | mine | mine
        · exact absurd (toward.settled mine yours).1 busy
        · exact absurd (toward.waits mine yours) busy
        · exact back.answered yours mine
      case waits => exact fun _ mine => by cases mine
      case crossed => exact fun _ mine => by cases mine
      case trusted => exact fun _ mine => by cases mine
  · have unasked : h.own.state ≠ ivcStateSync := by
      intro yours
      rcases from' with ⟨mine, same⟩ | ⟨mine, same⟩
      · exact toward.crossed mine yours 4 same
      · exact toward.trusted mine yours same
    have trusted : h.own.state = ivcStateEstablished →
        h.phase = .quiet ∧ Flow ivc h.own g.own ∧ Flow ivc g.own h.own := by
      intro yours
      rcases from' with ⟨mine, -⟩ | ⟨mine, -⟩
      · exact absurd (toward.waits mine yours) busy
      · obtain ⟨quiet, out, inn, -⟩ := back.answered yours mine
        exact ⟨quiet, out, inn⟩
    refine ⟨rfl, you, own', far, ?_, ?_⟩
    · constructor
      case settled =>
        intro _ yours
        obtain ⟨-, out, inn⟩ := trusted yours
        exact ⟨rfl, inn, out⟩
      case asked => exact fun _ yours => absurd yours unasked
      case answered =>
        intro _ yours
        exact ⟨rfl, flow_zero zero (far.acked yours), flow_zero (far.acked yours) zero, zero.2.1⟩
      case waits => exact fun mine => by cases mine
      case crossed => exact fun mine => by cases mine
      case trusted => exact fun mine => by cases mine
    · constructor
      case settled => exact fun yours _ => trusted yours
      case asked => exact fun _ mine => by cases mine
      case answered => exact fun _ mine => by cases mine
      case waits => exact fun yours => absurd yours unasked
      case crossed => exact fun yours => absurd yours unasked
      case trusted => exact fun _ mine => by cases mine

end

theorem near_step {op : Op} {r : Ans op} {s' : Pair} {R : Ans op → EndView → Prop}
    (agree : Agree ivc s g h) (contract : endContract op g R) (access : handle op s = (r, s')) :
    ∃ g', R r g' ∧ Agree ivc s' g' h := by
  cases op with
  | load c f =>
    cases c <;> cases f <;> try exact contract.elim
    case tx.state =>
      cases access
      exact ⟨g, by rw [agree.me]; exact contract, agree⟩
    case rx.state =>
      cases access
      rw [agree.me, agree.you]
      exact ⟨_, contract.2 h.own.state, agree.you ▸ agree.sample⟩
  | store c f v =>
    cases c <;> cases f <;> try exact contract.elim
    case tx.wCount =>
      cases access
      obtain ⟨t, due, rfl, next⟩ := contract
      rw [agree.me]
      exact ⟨_, next, agree.clear due ⟨rfl, rfl, rfl, rfl, rfl, rfl⟩⟩
    case tx.state =>
      cases access
      obtain ⟨due, next⟩ := contract
      rw [agree.me]
      exact ⟨_, next, agree.move due⟩
    case rx.rCount =>
      cases access
      obtain ⟨t, due, rfl, next⟩ := contract
      rw [agree.me]
      exact ⟨_, next, agree.clear due ⟨rfl, rfl, rfl, rfl, rfl, rfl⟩⟩
  | loadByte c i => cases c <;> exact contract.elim
  | storeByte c i b => cases c <;> exact contract.elim
  | invalidate c f =>
    cases access
    exact ⟨g, contract, agree⟩
  | loadPos p => cases p <;> exact contract.elim
  | storePos p v =>
    cases p with
    | w =>
      cases access
      obtain ⟨t, due, rfl, next⟩ := contract
      rw [agree.me]
      exact ⟨_, next, agree.clear due ⟨rfl, rfl, rfl, rfl, rfl, rfl⟩⟩
    | r =>
      cases access
      obtain ⟨t, due, rfl, next⟩ := contract
      rw [agree.me]
      exact ⟨_, next, agree.clear due ⟨rfl, rfl, rfl, rfl, rfl, rfl⟩⟩
  | notify =>
    cases access
    exact ⟨g, contract, agree⟩

end

end Cboot.Ivc
