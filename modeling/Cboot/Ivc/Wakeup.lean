import Cboot.Ivc.Waiting

/-!
Each call keeps to the wake-up contract of its end: it returns with no notification owed, and an `ENOMEM` comes from a
look that it made itself.
-/

namespace Cboot.Ivc
open Lib

def SawFull (ivc : IvcParams) (g : WakeView) : Prop :=
  ∃ o p, g.look = some (o, p) ∧ ivc.nframes ≤ sub32 o p

def SawEmpty (ivc : IvcParams) (h : WakeView) : Prop :=
  ∃ o p, h.look = some (o, p) ∧ (ivc.nframes < sub32 p o ∨ p = o)

def TxQuiet (ivc : IvcParams) (a : TxClient × Option Errno) (g : WakeView) : Prop :=
  g.stage = .idle ∧ (a.2 = some .enomem → SawFull ivc g)

def RxQuiet (ivc : IvcParams) (b : RxClient × Option Errno) (h : WakeView) : Prop :=
  h.stage = .idle ∧ (b.2 = some .enomem → SawEmpty ivc h)

section
variable {ivc : IvcParams} {α : Type}

theorem stage_sees_idle {g : WakeView} {v : Nat} {due : Prop} [Decidable due]
    (idle : g.stage = .idle) : (g.sees v due).stage = .idle := by
  unfold WakeView.sees
  rw [idle]
  rfl

theorem stage_sees_moved {g : WakeView} {v : Nat} {due : Prop} [Decidable due]
    (moved : g.stage = .moved) (not : ¬ due) : (g.sees v due).stage = .idle := by
  unfold WakeView.sees
  rw [if_pos moved, if_neg not]

section
variable {g : WakeView} {Q : α → WakeView → Prop}

theorem wake_storeBytes {Q : Unit → WakeView → Prop} (p : Nat) (bs : List UInt8) (next : Q () g) :
    (storeBytes .tx p bs).wp txWake g Q := by
  induction bs generalizing p with
  | nil => exact next
  | cons b bs ih => exact ih (p + 1)

theorem wake_notify_tx (moved : g.stage = .moved) {f : IvcM α}
    (next : ∀ g', g'.stage = .idle → f.wp txWake g' Q) :
    (do
      ivcCacheInvalidate .tx .rCount
      let count ← ivcChannelAvailCount .tx
      if count = 1 then notify
      f).wp txWake g Q := by
  intro v
  show Prog.wp txWake (if sub32 g.count v = 1 then notify >>= fun _ => f else f)
    (WakeView.sees { g with fresh := true } v (sub32 g.count v = 1)) Q
  split
  · exact next _ rfl
  · rename_i not
    exact next _ (stage_sees_moved moved not)

variable (idle : g.stage = .idle)
include idle

theorem txWake_look {R : Ans (.load .tx .rCount) → WakeView → Prop}
    (next : ∀ (v : Nat) g', g'.stage = .idle → (g.fresh = true → g'.look = some (g.count, v)) →
      R v g') : txWake (.load .tx .rCount) g R := by
  rw [txWake]
  by_cases fresh : g.fresh = true
  · rw [if_pos fresh]
    intro v
    exact next v _ (stage_sees_idle idle) fun _ => rfl
  · rw [if_neg fresh]
    refine ⟨by rw [idle]; decide, ?_⟩
    intro v
    exact next v g idle fun known => absurd known fresh

theorem wake_ivcChannelFull {Q : Bool → WakeView → Prop}
    (next : ∀ v g', g'.stage = .idle → (g.fresh = true → g'.look = some (g.count, v)) →
      Q (decide (ivc.nframes ≤ sub32 g.count v)) g') :
    (ivcChannelFull ivc .tx).wp txWake g Q := txWake_look idle next

theorem wake_ivcCheckWrite {Q : Option Errno → WakeView → Prop}
    (ok : ∀ g', g'.stage = .idle → Q none g')
    (failed : ∀ e g', g'.stage = .idle → (e = .enomem → SawFull ivc g') → Q (some e) g') :
    (ivcCheckWrite ivc).wp txWake g Q := by
  intro state
  show Prog.wp txWake (if state ≠ ivcStateEstablished then _ else _) g Q
  split
  · exact failed _ g idle (by rintro ⟨⟩)
  · rw [Prog.wp_bind]
    apply wake_ivcChannelFull idle
    intro v g' idle' _
    split
    · exact ok g' idle'
    · show Prog.wp txWake (ivcChannelFull ivc .tx >>= _) { g' with fresh := true } Q
      rw [Prog.wp_bind]
      apply wake_ivcChannelFull
      · exact idle'
      intro v' g'' idle'' look
      show Q (if decide (ivc.nframes ≤ sub32 g'.count v') = true then some .enomem else none) g''
      split
      · rename_i full
        exact failed _ g'' idle'' fun _ => ⟨_, _, look rfl, of_decide_eq_true full⟩
      · exact ok g'' idle''

theorem wake_ivcAdvanceTx {Q : Unit → WakeView → Prop}
    (next : ∀ g', g'.stage = .moved → Q () g') : (ivcAdvanceTx ivc).wp txWake g Q := by
  refine ⟨idle, rfl, ?_⟩
  intro pos
  exact next _ rfl

omit idle in
theorem wake_tegraIvcWrite {Q : Except Errno Nat → WakeView → Prop} (buf : List UInt8)
    (idle : g.stage = .idle) (sent : ∀ n g', g'.stage = .idle → Q (.ok n) g')
    (failed : ∀ e g', g'.stage = .idle → (e = .enomem → SawFull ivc g') → Q (.error e) g') :
    (tegraIvcWrite ivc buf).wp txWake g Q := by
  unfold tegraIvcWrite
  split
  · exact failed _ g idle (by rintro ⟨⟩)
  · rw [Prog.wp_bind]
    apply wake_ivcCheckWrite idle
    · intro g' idle' wPos
      show Prog.wp txWake (storeBytes .tx (ivcFramePointer ivc wPos) buf >>= _) g' Q
      rw [Prog.wp_bind]
      apply wake_storeBytes
      rw [Prog.wp_bind]
      apply wake_storeBytes
      rw [Prog.wp_bind]
      apply wake_ivcAdvanceTx idle'
      intro g'' moved
      apply wake_notify_tx moved
      intro g''' idle'''
      exact sent _ g''' idle'''
    · intro e g' idle' full
      exact failed e g' idle' full

theorem wake_tegraIvcWriteGetNextFrame {Q : Option Nat → WakeView → Prop}
    (next : ∀ held g', g'.stage = .idle → Q held g') :
    (tegraIvcWriteGetNextFrame ivc).wp txWake g Q := by
  unfold tegraIvcWriteGetNextFrame
  rw [Prog.wp_bind]
  apply wake_ivcCheckWrite idle
  · intro g' idle' wPos
    exact next _ g' idle'
  · intro e g' idle' _
    exact next _ g' idle'

theorem wake_tegraIvcWriteAdvance {Q : Except Errno Unit → WakeView → Prop} (sent : ∀ g', g'.stage = .idle → Q (.ok ()) g')
    (failed : ∀ e g', g'.stage = .idle → (e = .enomem → SawFull ivc g') → Q (.error e) g') :
    (tegraIvcWriteAdvance ivc).wp txWake g Q := by
  unfold tegraIvcWriteAdvance
  rw [Prog.wp_bind]
  apply wake_ivcCheckWrite idle
  · intro g' idle'
    show Prog.wp txWake (ivcAdvanceTx ivc >>= _) g' Q
    rw [Prog.wp_bind]
    apply wake_ivcAdvanceTx idle'
    intro g'' moved
    apply wake_notify_tx moved
    intro g''' idle'''
    exact sent g''' idle'''
  · intro e g' idle' full
    exact failed e g' idle' full

omit idle

theorem wake_senderReport (a : TxClient × Option Errno) (call : TxCall) (idle : g.stage = .idle) :
    (senderReport ivc a call).wp txWake g (TxQuiet ivc) := by
  cases call with
  | write buf =>
    unfold senderReport
    rw [Prog.wp_bind]
    apply wake_tegraIvcWrite buf idle
    · intro n g' idle'
      exact ⟨idle', by rintro ⟨⟩⟩
    · intro e g' idle' full
      exact ⟨idle', fun failed => full (Option.some.inj failed)⟩
  | getNextFrame =>
    unfold senderReport senderBody
    rw [Prog.wp_bind, Prog.wp_bind]
    apply wake_tegraIvcWriteGetNextFrame idle
    intro held g' idle'
    exact ⟨idle', by rintro ⟨⟩⟩
  | fill off b =>
    unfold senderReport senderBody
    cases a.1.held with
    | none => exact ⟨idle, by rintro ⟨⟩⟩
    | some p => exact ⟨idle, by rintro ⟨⟩⟩
  | advance =>
    unfold senderReport
    rw [Prog.wp_bind]
    apply wake_tegraIvcWriteAdvance idle
    · intro g' idle'
      exact ⟨idle', by rintro ⟨⟩⟩
    · intro e g' idle' full
      exact ⟨idle', fun failed => full (Option.some.inj failed)⟩

end

section
variable {h : WakeView} {Q : α → WakeView → Prop}

variable (idle : h.stage = .idle)
include idle

theorem rxWake_look {R : Ans (.load .rx .wCount) → WakeView → Prop}
    (next : ∀ (v : Nat) h', h'.count = h.count → h'.stage = .idle →
      (h.fresh = true → h'.look = some (h.count, v)) → R v h') :
    rxWake ivc (.load .rx .wCount) h R := by
  rw [rxWake]
  by_cases fresh : h.fresh = true
  · rw [if_pos fresh]
    intro v
    exact next v _ rfl (stage_sees_idle idle) fun _ => rfl
  · rw [if_neg fresh]
    refine ⟨by rw [idle]; decide, ?_⟩
    intro v
    exact next v h rfl idle fun known => absurd known fresh

theorem wake_ivcChannelEmpty {Q : Bool → WakeView → Prop}
    (next : ∀ v h', h'.stage = .idle → (h.fresh = true → h'.look = some (h.count, v)) →
      Q (decide (ivc.nframes < sub32 v h.count ∨ v = h.count)) h') :
    (ivcChannelEmpty ivc .rx).wp (rxWake ivc) h Q := by
  apply rxWake_look idle
  intro v h' count idle' look
  have holds := next v h' idle' look
  show Prog.wp (rxWake ivc) (if ivc.nframes < sub32 v h'.count then pure true
    else pure (v == h'.count)) h' Q
  rw [count]
  split
  · rename_i excess
    rw [decide_eq_true (.inl excess)] at holds
    exact holds
  · rename_i fits
    have same : decide (ivc.nframes < sub32 v h.count ∨ v = h.count) = (v == h.count) := by
      rw [beq_eq_decide]
      exact decide_eq_decide.mpr (or_iff_right fits)
    rw [same] at holds
    exact holds

theorem wake_ivcCheckRead {Q : Option Errno → WakeView → Prop}
    (ok : ∀ h', h'.stage = .idle → Q none h')
    (failed : ∀ e h', h'.stage = .idle → (e = .enomem → SawEmpty ivc h') → Q (some e) h') :
    (ivcCheckRead ivc).wp (rxWake ivc) h Q := by
  intro state
  show Prog.wp (rxWake ivc) (if state ≠ ivcStateEstablished then _ else _) h Q
  split
  · exact failed _ h idle (by rintro ⟨⟩)
  · rw [Prog.wp_bind]
    apply wake_ivcChannelEmpty idle
    intro v h' idle' _
    split
    · exact ok h' idle'
    · show Prog.wp (rxWake ivc) (ivcChannelEmpty ivc .rx >>= _) { h' with fresh := true } Q
      rw [Prog.wp_bind]
      apply wake_ivcChannelEmpty
      · exact idle'
      intro v' h'' idle'' look
      show Q (if decide (ivc.nframes < sub32 v' h'.count ∨ v' = h'.count) = true then some .enomem
        else none) h''
      split
      · rename_i empty
        exact failed _ h'' idle'' fun _ => ⟨_, _, look rfl, of_decide_eq_true empty⟩
      · exact ok h'' idle''

omit idle in
theorem wake_loadBytes {Q : List UInt8 → WakeView → Prop} (p n : Nat) (next : ∀ bs, Q bs h) :
    (loadBytes .rx p n).wp (rxWake ivc) h Q := by
  induction n generalizing p Q with
  | zero => exact next []
  | succ n ih =>
    intro b
    show Prog.wp (rxWake ivc) (loadBytes .rx (p + 1) n >>= _) h Q
    rw [Prog.wp_bind]
    apply ih
    intro bs
    exact next (b :: bs)

theorem wake_ivcAdvanceRx {Q : Unit → WakeView → Prop}
    (next : ∀ h', h'.stage = .moved → Q () h') : (ivcAdvanceRx ivc).wp (rxWake ivc) h Q := by
  refine ⟨idle, rfl, ?_⟩
  intro pos
  exact next _ rfl

omit idle in
theorem wake_notify_rx (moved : h.stage = .moved) {f : IvcM α}
    (next : ∀ h', h'.stage = .idle → f.wp (rxWake ivc) h' Q) :
    (do
      ivcCacheInvalidate .rx .wCount
      let count ← ivcChannelAvailCount .rx
      if count = sub32 ivc.nframes 1 then notify
      f).wp (rxWake ivc) h Q := by
  intro v
  show Prog.wp (rxWake ivc)
    (if sub32 v h.count = sub32 ivc.nframes 1 then notify >>= fun _ => f else f)
    (WakeView.sees { h with fresh := true } v (sub32 v h.count = sub32 ivc.nframes 1)) Q
  split
  · exact next _ rfl
  · rename_i not
    exact next _ (stage_sees_moved moved not)

omit idle in
theorem wake_tegraIvcRead {Q : Except Errno (List UInt8) → WakeView → Prop} (maxRead : Nat)
    (idle : h.stage = .idle) (got : ∀ buf h', h'.stage = .idle → Q (.ok buf) h')
    (failed : ∀ e h', h'.stage = .idle → (e = .enomem → SawEmpty ivc h') → Q (.error e) h') :
    (tegraIvcRead ivc maxRead).wp (rxWake ivc) h Q := by
  unfold tegraIvcRead
  split
  · exact failed _ h idle (by rintro ⟨⟩)
  · rw [Prog.wp_bind]
    apply wake_ivcCheckRead idle
    · intro h' idle' rPos
      show Prog.wp (rxWake ivc) (loadBytes .rx (ivcFramePointer ivc rPos) maxRead >>= _) h' Q
      rw [Prog.wp_bind]
      apply wake_loadBytes
      intro buf
      rw [Prog.wp_bind]
      apply wake_ivcAdvanceRx idle'
      intro h'' moved
      apply wake_notify_rx moved
      intro h''' idle'''
      exact got buf h''' idle'''
    · intro e h' idle' empty
      exact failed e h' idle' empty

theorem wake_tegraIvcReadGetNextFrame {Q : Option Nat → WakeView → Prop}
    (next : ∀ held h', h'.stage = .idle → Q held h') :
    (tegraIvcReadGetNextFrame ivc).wp (rxWake ivc) h Q := by
  unfold tegraIvcReadGetNextFrame
  rw [Prog.wp_bind]
  apply wake_ivcCheckRead idle
  · intro h' idle' rPos
    exact next _ h' idle'
  · intro e h' idle' _
    exact next _ h' idle'

theorem wake_tegraIvcReadAdvance {Q : Except Errno Unit → WakeView → Prop} (got : ∀ h', h'.stage = .idle → Q (.ok ()) h')
    (failed : ∀ e h', h'.stage = .idle → (e = .enomem → SawEmpty ivc h') → Q (.error e) h') :
    (tegraIvcReadAdvance ivc).wp (rxWake ivc) h Q := by
  unfold tegraIvcReadAdvance
  rw [Prog.wp_bind]
  apply wake_ivcCheckRead idle
  · intro h' idle'
    show Prog.wp (rxWake ivc) (ivcAdvanceRx ivc >>= _) h' Q
    rw [Prog.wp_bind]
    apply wake_ivcAdvanceRx idle'
    intro h'' moved
    apply wake_notify_rx moved
    intro h''' idle'''
    exact got h''' idle'''
  · intro e h' idle' empty
    exact failed e h' idle' empty

omit idle

theorem wake_receiverReport (b : RxClient × Option Errno) (call : RxCall) (idle : h.stage = .idle) :
    (receiverReport ivc b call).wp (rxWake ivc) h (RxQuiet ivc) := by
  cases call with
  | read maxRead =>
    unfold receiverReport
    rw [Prog.wp_bind]
    apply wake_tegraIvcRead maxRead idle
    · intro buf h' idle'
      exact ⟨idle', by rintro ⟨⟩⟩
    · intro e h' idle' empty
      exact ⟨idle', fun failed => empty (Option.some.inj failed)⟩
  | getNextFrame =>
    unfold receiverReport receiverBody
    rw [Prog.wp_bind, Prog.wp_bind]
    apply wake_tegraIvcReadGetNextFrame idle
    intro held h' idle'
    exact ⟨idle', by rintro ⟨⟩⟩
  | peek off =>
    unfold receiverReport receiverBody
    cases b.1.held with
    | none => exact ⟨idle, by rintro ⟨⟩⟩
    | some p => exact fun _ => ⟨idle, by rintro ⟨⟩⟩
  | advance =>
    unfold receiverReport
    rw [Prog.wp_bind]
    apply wake_tegraIvcReadAdvance idle
    · intro h' idle'
      exact ⟨idle', by rintro ⟨⟩⟩
    · intro e h' idle' empty
      exact ⟨idle', fun failed => empty (Option.some.inj failed)⟩

end

def WakeKept (ivc : IvcParams) : Watched → Prop :=
  Kept (WakeTied ivc) txWake (rxWake ivc) (TxQuiet ivc) (RxQuiet ivc)

theorem wakeKept_watched (c₀ p₀ : Nat) (data : Nat → UInt8) :
    WakeKept ivc (watched c₀ p₀ data) := by
  have unlogged : ∀ looker mover stuck own peer stage,
      Covered [] looker mover stuck own peer stage := by
    intro looker mover stuck own peer stage pre suf o p split
    cases pre <;> cases split
  refine ⟨{ count := c₀ }, { count := c₀ }, ?_, ⟨rfl, by rintro ⟨⟩⟩, ⟨rfl, by rintro ⟨⟩⟩⟩
  exact {
    txCount := rfl
    rxCount := rfl
    txFresh := by rintro ⟨⟩
    rxFresh := by rintro ⟨⟩
    txLook := by rintro o p ⟨⟩
    rxLook := by rintro o p ⟨⟩
    txWaits := unlogged _ _ _ _ _ _
    rxWaits := unlogged _ _ _ _ _ _ }

theorem wakeKept_run {c c' : Watched} (run : Relation.ReflTransGen (WatchedStep ivc) c c')
    (kept : WakeKept ivc c) : WakeKept ivc c' := by
  apply kept_run _ _ _ _ _ run kept
  · rintro s op r s' g h R tied contract ⟨access, log⟩
    exact sender_wake_step tied contract access log
  · rintro s a call s' g h tied ⟨idle, -⟩ ⟨-, rfl⟩
    exact ⟨_, wake_senderReport a call rfl, tied.txBegins idle _⟩
  · rintro s op r s' g h R tied contract ⟨access, log⟩
    exact receiver_wake_step tied contract access log
  · rintro s b call s' g h tied ⟨idle, -⟩ ⟨-, rfl⟩
    exact ⟨_, wake_receiverReport b call rfl, tied.rxBegins idle _⟩
  · intro s s' g h tied evicts
    exact tied.evicted evicts

/-- What a failed call of `looker` may count on, which ended with `log`. -/
def Heard (log log' : List Event) (looker mover : Who) (stuck : Nat → Nat → Prop) : Prop :=
  ∃ pre o p mid more, log = pre ++ .looked looker o p :: mid ∧ .began looker ∉ mid ∧ stuck o p ∧
    log' = log ++ more ∧
    (.moved mover ∈ mid ++ more → .notified mover ∈ mid ++ more ∨ .moved looker ∈ mid ++ more)

theorem heard_of_covered {log log' : List Event} {looker mover : Who} {stuck : Nat → Nat → Prop}
    {o p own peer : Nat} (looked : LookedInCall log looker o p) (nothing : stuck o p)
    (grown : ∃ more, log' = log ++ more)
    (covered : Covered log' looker mover stuck own peer .idle) : Heard log log' looker mover stuck := by
  obtain ⟨pre, mid, split, within⟩ := looked
  obtain ⟨more, rfl⟩ := grown
  refine ⟨pre, o, p, mid, more, split, within, nothing, rfl, ?_⟩
  intro moves
  by_contra unheard
  rw [not_or] at unheard
  have whole : log ++ more = pre ++ .looked looker o p :: (mid ++ more) := by
    rw [split, List.append_assoc, List.cons_append]
  obtain ⟨-, quiet | ⟨-, busy⟩⟩ := covered pre (mid ++ more) o p whole nothing unheard.2 unheard.1
  · exact quiet.1 moves
  · exact busy rfl

variable {c₀ p₀ : Nat} {c c' : Watched} {a : TxClient × Option Errno} {b : RxClient × Option Errno}

theorem LookedInCall.mem {log : List Event} {who : Who} {o p : Nat}
    (looked : LookedInCall log who o p) : .looked who o p ∈ log := by
  obtain ⟨pre, mid, rfl, -⟩ := looked
  exact List.mem_append_right _ List.mem_cons_self

theorem heard_of_empty (inStep : WatchedInStep ivc c₀ p₀ c) (kept : WakeKept ivc c)
    (later : Relation.ReflTransGen (WatchedStep ivc) c c') (failed : c.right = .ret b)
    (why : b.2 = some .enomem) (returned : c'.left = .ret a) :
    Heard c.state.log c'.state.log .rx .tx Empty := by
  obtain ⟨_, _, ⟨-, fit⟩, -, -⟩ := inStep
  obtain ⟨_, _, tied', left', -⟩ := wakeKept_run later kept
  obtain ⟨_, _, tied, -, right⟩ := kept
  rw [returned] at left'
  rw [failed] at right
  obtain ⟨o, p, look, nothing⟩ := right.2 why
  have looked : LookedInCall c.state.log .rx o p := tied.rxLook o p look
  have empty : Empty o p := by
    have bound : sub32 p o ≤ ivc.nframes := fit.2 o p looked.mem
    rcases nothing with excess | same
    · omega
    · exact same
  have covered := tied'.rxWaits
  rw [left'.1] at covered
  exact heard_of_covered looked empty (log_run later) covered

theorem heard_of_full (inStep : WatchedInStep ivc c₀ p₀ c) (kept : WakeKept ivc c)
    (later : Relation.ReflTransGen (WatchedStep ivc) c c') (failed : c.left = .ret a)
    (why : a.2 = some .enomem) (returned : c'.right = .ret b) :
    Heard c.state.log c'.state.log .tx .rx (Full ivc) := by
  obtain ⟨_, _, ⟨-, fit⟩, -, -⟩ := inStep
  obtain ⟨_, _, tied', -, right'⟩ := wakeKept_run later kept
  obtain ⟨_, _, tied, left, -⟩ := kept
  rw [returned] at right'
  rw [failed] at left
  obtain ⟨o, p, look, nothing⟩ := left.2 why
  have looked : LookedInCall c.state.log .tx o p := tied.txLook o p look
  have full : Full ivc o p := Nat.le_antisymm (fit.1 o p looked.mem) nothing
  have covered := tied'.txWaits
  rw [right'.1] at covered
  exact heard_of_covered looked full (log_run later) covered

/-- No wake-up is lost in any interleaving. An end whose call failed with `ENOMEM` in `c` has, once
the peer is between calls in `c'`, been notified of every first move of the peer since, unless it
has moved on by itself. -/
theorem no_lost_wakeup (ring : ivc.nframes < 2 ^ 32) (area : ivc.nframes * ivc.frameSize < 2 ^ 32)
    (count : c₀ < 2 ^ 32) (place : p₀ = 0 ∨ p₀ < ivc.nframes)
    (data : Nat → UInt8) (c c' : Watched)
    (run : Relation.ReflTransGen (WatchedStep ivc) (watched c₀ p₀ data) c)
    (later : Relation.ReflTransGen (WatchedStep ivc) c c') :
    (∀ a b, c.right = .ret b → b.2 = some .enomem → c'.left = .ret a →
      Heard c.state.log c'.state.log .rx .tx Empty) ∧
    ∀ a b, c.left = .ret a → a.2 = some .enomem → c'.right = .ret b →
      Heard c.state.log c'.state.log .tx .rx (Full ivc) := by
  have start : slot ivc p₀ 0 = p₀ := by
    rcases place with rfl | inside
    · exact Nat.zero_mod _
    · exact Nat.mod_eq_of_lt inside
  have inStep : WatchedInStep ivc c₀ p₀ c :=
    watchedInStep_run ring area run (watchedInStep_watched data count start)
  have kept : WakeKept ivc c := wakeKept_run run (wakeKept_watched c₀ p₀ data)
  constructor
  · intro a b failed why returned
    exact heard_of_empty inStep kept later failed why returned
  · intro a b failed why returned
    exact heard_of_full inStep kept later failed why returned

end

def loggedSender.player (ivc : IvcParams) : (loggedSender ivc).Player where
  access s op := (senderAccess ivc s.link op).map fun a => (a.1, ⟨a.2, s.log ++ txEvents s.link op⟩)
  call s _ c :=
    if c.inFrame ivc then some ⟨{ s.link with frame := c.frame ivc }, s.log ++ [.began .tx]⟩ else none
  exec_of_access s op r s' access := by
    obtain ⟨a, served, same⟩ := Option.map_eq_some_iff.mp access
    cases same
    exact ⟨served, rfl⟩
  start_of_call s a c s' call := by
    split at call
    · rename_i inside
      exact ⟨inside, (Option.some.inj call).symm⟩
    · cases call

def loggedReceiver.player (ivc : IvcParams) : (loggedReceiver ivc).Player where
  access s op :=
    (receiverAccess ivc s.link op).map fun a => (a.1, ⟨a.2, s.log ++ rxEvents s.link op⟩)
  call s _ c :=
    if c.inFrame ivc then some ⟨{ s.link with copied := c.copied }, s.log ++ [.began .rx]⟩ else none
  exec_of_access s op r s' access := by
    obtain ⟨a, served, same⟩ := Option.map_eq_some_iff.mp access
    cases same
    exact ⟨served, rfl⟩
  start_of_call s a c s' call := by
    split at call
    · rename_i inside
      exact ⟨inside, (Option.some.inj call).symm⟩
    · cases call

/-- In a ring of one frame a read finds nothing, one write fills the ring, the next one finds it full, and a read frees
it again. -/
theorem no_lost_wakeup_turnover : ∃ c c', Relation.ReflTransGen (WatchedStep ⟨1, 1⟩)
      (watched (2 ^ 32 - 1) 0 fun _ => 9) c ∧ Relation.ReflTransGen (WatchedStep ⟨1, 1⟩) c c' ∧
    (.moved .tx ∈ c'.state.log ∧ .notified .tx ∈ c'.state.log) ∧
    (.moved .rx ∈ c'.state.log ∧ .notified .rx ∈ c'.state.log) ∧
    Heard c.state.log c'.state.log .rx .tx Empty ∧
    Heard c.state.log c'.state.log .tx .rx (Full ⟨1, 1⟩) := by
  obtain ⟨c, c', run, later, stop, finish⟩ := exists_schedule_stop loggedEvict
    (loggedSender.player ⟨1, 1⟩) (loggedReceiver.player ⟨1, 1⟩)
    (watched (2 ^ 32 - 1) 0 fun _ => 9)
    (List.flatten [[.rightCall (.read 1)], List.replicate 6 .right, [.leftCall (.write [7])],
      List.replicate 13 .left, [.leftCall (.write [8])], List.replicate 6 .left])
    (.rightCall (.read 1) :: List.replicate 16 .right)
    (fun c => decide (c.left.result.map Prod.snd = some (some .enomem) ∧
      c.right.result.map Prod.snd = some (some .enomem)))
    (fun c' => decide (c'.left.result.map Prod.snd = some (some .enomem) ∧
      c'.right.result.map Prod.snd = some none ∧
      (.moved .tx ∈ c'.state.log ∧ .notified .tx ∈ c'.state.log) ∧
      .moved .rx ∈ c'.state.log ∧ .notified .rx ∈ c'.state.log)) (by decide)
  obtain ⟨full, empty⟩ := of_decide_eq_true stop
  obtain ⟨left', right', published, consumed⟩ := of_decide_eq_true finish
  obtain ⟨a, left, full⟩ := Prog.eq_ret_of_result full
  obtain ⟨b, right, empty⟩ := Prog.eq_ret_of_result empty
  obtain ⟨a', left', -⟩ := Prog.eq_ret_of_result left'
  obtain ⟨b', right', -⟩ := Prog.eq_ret_of_result right'
  obtain ⟨heardEmpty, heardFull⟩ := no_lost_wakeup (by decide) (by decide) (by decide)
    (.inl rfl) (fun _ => 9) c c' run later
  exact ⟨c, c', run, later, published, consumed, heardEmpty a' b right empty left',
    heardFull a b' left full right'⟩

/-- The receiver was told `ENOMEM`, then a frame is published, but the receiver polls and consumes it before the sender
looks. -/
theorem wakeup_skipped : ∃ c c', Relation.ReflTransGen (WatchedStep ⟨2, 1⟩)
      (watched 0 0 fun _ => 0) c ∧ Relation.ReflTransGen (WatchedStep ⟨2, 1⟩) c c' ∧
    (∃ b, c.right = .ret b ∧ b.2 = some .enomem) ∧ (∃ a, c'.left = .ret a ∧ a.2 = none) ∧
    c.state.log = [.began .rx, .looked .rx 0 0, .looked .rx 0 0] ∧ .moved .tx ∈ c'.state.log ∧
    .notified .tx ∉ c'.state.log := by
  obtain ⟨c, c', run, later, stop, finish⟩ := exists_schedule_stop loggedEvict
    (loggedSender.player ⟨2, 1⟩) (loggedReceiver.player ⟨2, 1⟩) (watched 0 0 fun _ => 0)
    (.rightCall (.read 1) :: List.replicate 6 .right)
    (List.flatten [[.leftCall (.write [7])], List.replicate 9 .left, [.rightCall (.read 1)],
      List.replicate 15 .right, List.replicate 3 .left])
    (fun c => decide (c.right.result.map Prod.snd = some (some .enomem) ∧
      c.state.log = [.began .rx, .looked .rx 0 0, .looked .rx 0 0]))
    (fun c' => decide (c'.left.result.map Prod.snd = some none ∧ .moved .tx ∈ c'.state.log ∧
      .notified .tx ∉ c'.state.log)) (by decide)
  obtain ⟨empty, log⟩ := of_decide_eq_true stop
  obtain ⟨left', published, silent⟩ := of_decide_eq_true finish
  exact ⟨c, c', run, later, Prog.eq_ret_of_result empty, Prog.eq_ret_of_result left', log,
    published, silent⟩

end Cboot.Ivc
