import Cboot.Ivc.Ends

/-!
The four calls as atomic steps of the two ends, with a history of what each end wrote, read and cleared.
-/

namespace Cboot.Ivc
open Lib

/-- An end with the history of its calls. `completed` is the step of the pair at which its last reset has completed. -/
structure Actor where
  point : Endpoint := {}
  wrote : List (Nat × List UInt8) := []
  got : List (Nat × List UInt8) := []
  txCleared : Nat := 0
  rxCleared : Nat := 0
  resetAt : Nat := 0
  completed : Nat := 0

def since (t : Nat) (log : List (Nat × List UInt8)) : List (Nat × List UInt8) :=
  log.filter fun e => t < e.1

namespace Actor

def sent (x : Actor) : List (Nat × List UInt8) := since x.txCleared x.wrote

def received (x : Actor) : List (Nat × List UInt8) := since x.rxCleared x.got

end Actor

structure World where
  now : Nat := 0
  me : Actor := {}
  you : Actor := {}

namespace World

def pair (w : World) : Pair := ⟨w.me.point, w.you.point⟩

def swap (w : World) : World := { w with me := w.you, you := w.me }

section
variable (ivc : IvcParams)

/-- A call of the end `me`. -/
def step (w : World) : Call → World
  | .reset =>
    let s := (tegraIvcChannelReset.run handle w.pair).2
    { now := w.now + 1
      me := { w.me with point := s.me, resetAt := w.now + 1 }
      you := { w.you with point := s.you } }
  | .notified =>
    let result := tegraIvcChannelNotified.run handle w.pair
    let accesses := tegraIvcChannelNotified.trace handle w.pair
    { now := w.now + 1
      me := { w.me with
        point := result.2.me
        txCleared := if .store .tx .wCount 0 ∈ accesses then w.now + 1 else w.me.txCleared
        rxCleared := if .store .rx .rCount 0 ∈ accesses then w.now + 1 else w.me.rxCleared
        completed := if result.1 = none then w.me.resetAt else w.me.completed }
      you := { w.you with point := result.2.you } }
  | .read maxRead =>
    let result := (tegraIvcRead ivc maxRead).run handle w.pair
    { now := w.now + 1
      me := { w.me with
        point := result.2.me
        got := match result.1 with
          | .ok buf => w.me.got ++ [(w.now + 1, buf)]
          | .error _ => w.me.got }
      you := { w.you with point := result.2.you } }
  | .write buf =>
    let result := (tegraIvcWrite ivc buf).run handle w.pair
    { now := w.now + 1
      me := { w.me with
        point := result.2.me
        wrote := match result.1 with
          | .ok _ => w.me.wrote ++ [(w.now + 1, padded ivc buf)]
          | .error _ => w.me.wrote }
      you := { w.you with point := result.2.you } }

inductive Next : World → World → Prop
  | near (w : World) (c : Call) : Next w (w.step ivc c)
  | far (w : World) (c : Call) : Next w (w.swap.step ivc c).swap

end

end World

section
variable {s : Pair}

def Endpoint.clearTo (x : Endpoint) (state : Nat) : Endpoint :=
  { x with wCount := 0, rCount := 0, wPos := 0, rPos := 0, state := state }

def Endpoint.sample (x y : Endpoint) : Endpoint := { x with sampled := some y.state }

def answer (peerState : Nat) : IvcM (Option Errno) := do
  if peerState = ivcStateSync then
    clearAndMove ivcStateAck
  else if (← load .tx .state) = ivcStateSync ∧ peerState = ivcStateAck then
    clearAndMove ivcStateEstablished
  else if (← load .tx .state) = ivcStateAck then
    store .tx .state ivcStateEstablished
    notify
  let state ← load .tx .state
  return if state = ivcStateEstablished then none else some .eagain

theorem run_notified : tegraIvcChannelNotified.run handle s =
    (answer s.you.state).run handle { s with me := s.me.sample s.you } := rfl

theorem trace_notified : tegraIvcChannelNotified.trace handle s =
    .invalidate .rx .state :: .load .rx .state ::
      (answer s.you.state).trace handle { s with me := s.me.sample s.you } := rfl

theorem trace_load_state {α : Type} {f : Nat → IvcM α} :
    (load .tx .state >>= f).trace handle s = .load .tx .state :: (f s.me.state).trace handle s := rfl

theorem notified_sync (yours : s.you.state = ivcStateSync) :
    tegraIvcChannelNotified.run handle s =
        (some .eagain, { s with me := (s.me.sample s.you).clearTo ivcStateAck }) ∧
      .store .tx .wCount 0 ∈ tegraIvcChannelNotified.trace handle s ∧
      .store .rx .rCount 0 ∈ tegraIvcChannelNotified.trace handle s := by
  rw [run_notified, trace_notified]
  unfold answer
  rw [if_pos yours]
  refine ⟨rfl, ?_, ?_⟩
  · exact .tail _ (.tail _ (.head _))
  · exact .tail _ (.tail _ (.tail _ (.head _)))

theorem notified_answered (mine : s.me.state = ivcStateSync) (yours : s.you.state = ivcStateAck) :
    tegraIvcChannelNotified.run handle s =
        (none, { s with me := (s.me.sample s.you).clearTo ivcStateEstablished }) ∧
      .store .tx .wCount 0 ∈ tegraIvcChannelNotified.trace handle s ∧
      .store .rx .rCount 0 ∈ tegraIvcChannelNotified.trace handle s := by
  have other : s.you.state ≠ ivcStateSync := by
    rw [yours]
    decide
  have both : ({ s with me := s.me.sample s.you } : Pair).me.state = ivcStateSync ∧
      s.you.state = ivcStateAck := ⟨mine, yours⟩
  rw [run_notified, trace_notified]
  unfold answer
  rw [if_neg other, run_load_state, trace_load_state, if_pos both]
  refine ⟨rfl, ?_, ?_⟩
  · exact .tail _ (.tail _ (.tail _ (.head _)))
  · exact .tail _ (.tail _ (.tail _ (.tail _ (.head _))))

theorem notified_acked (mine : s.me.state = ivcStateAck) (yours : s.you.state ≠ ivcStateSync) :
    tegraIvcChannelNotified.run handle s =
        (none, { s with me := { s.me.sample s.you with state := ivcStateEstablished } }) ∧
      .store .tx .wCount 0 ∉ tegraIvcChannelNotified.trace handle s ∧
      .store .rx .rCount 0 ∉ tegraIvcChannelNotified.trace handle s := by
  have acked : ({ s with me := s.me.sample s.you } : Pair).me.state = ivcStateAck := mine
  have other : ¬ (({ s with me := s.me.sample s.you } : Pair).me.state = ivcStateSync ∧
      s.you.state = ivcStateAck) := by
    rintro ⟨synced, -⟩
    rw [acked] at synced
    cases synced
  have ops : tegraIvcChannelNotified.trace handle s =
      [.invalidate .rx .state, .load .rx .state, .load .tx .state, .load .tx .state,
        .store .tx .state ivcStateEstablished, .notify, .load .tx .state] := by
    rw [trace_notified]
    unfold answer
    rw [if_neg yours, trace_load_state, if_neg other, trace_load_state, if_pos acked]
    rfl
  rw [ops]
  refine ⟨?_, by simp, by simp⟩
  rw [run_notified]
  unfold answer
  rw [if_neg yours, run_load_state, if_neg other, run_load_state, if_pos acked]
  rfl

theorem notified_still (yours : s.you.state ≠ ivcStateSync) (mine : s.me.state ≠ ivcStateAck)
    (unanswered : ¬ (s.me.state = ivcStateSync ∧ s.you.state = ivcStateAck)) :
    tegraIvcChannelNotified.run handle s =
        (if s.me.state = ivcStateEstablished then none else some .eagain,
          { s with me := s.me.sample s.you }) ∧
      .store .tx .wCount 0 ∉ tegraIvcChannelNotified.trace handle s ∧
      .store .rx .rCount 0 ∉ tegraIvcChannelNotified.trace handle s := by
  have unacked : ({ s with me := s.me.sample s.you } : Pair).me.state ≠ ivcStateAck := mine
  have other : ¬ (({ s with me := s.me.sample s.you } : Pair).me.state = ivcStateSync ∧
      s.you.state = ivcStateAck) := unanswered
  have ops : tegraIvcChannelNotified.trace handle s =
      [.invalidate .rx .state, .load .rx .state, .load .tx .state, .load .tx .state,
        .load .tx .state] := by
    rw [trace_notified]
    unfold answer
    rw [if_neg yours, trace_load_state, if_neg other, trace_load_state, if_neg unacked]
    rfl
  rw [ops]
  refine ⟨?_, by simp, by simp⟩
  rw [run_notified]
  unfold answer
  rw [if_neg yours, run_load_state, if_neg other, run_load_state, if_neg unacked]
  rfl

end

theorem bytesAt_putBytes (bs : List UInt8) (data : Nat → UInt8) (p off : Nat) :
    bytesAt (putBytes data (p + off) bs) p (off + bs.length) = bytesAt data p off ++ bs := by
  induction bs generalizing data off with
  | nil => simp [putBytes]
  | cons b bs ih =>
    have length : off + (b :: bs).length = off + 1 + bs.length := by
      rw [List.length_cons]
      omega
    show bytesAt (putBytes (Function.update data (p + off) b) (p + off + 1) bs) p _ = _
    rw [length, Nat.add_assoc p off 1, ih, bytesAt_snoc, List.append_assoc]
    rfl

theorem bytesAt_putBytes_other {fs a b : Nat} (different : a ≠ b) (bs : List UInt8)
    (data : Nat → UInt8) (off : Nat) (inside : off + bs.length ≤ fs) :
    bytesAt (putBytes data (fs * b + off) bs) (fs * a) fs = bytesAt data (fs * a) fs := by
  induction bs generalizing data off with
  | nil => rfl
  | cons v bs ih =>
    rw [List.length_cons] at inside
    show bytesAt (putBytes (Function.update data (fs * b + off) v) (fs * b + off + 1) bs) _ _ = _
    rw [Nat.add_assoc, ih _ (off + 1) (by omega), bytesAt_update_other v different (by omega)]

theorem bytesAt_prefix (data : Nat → UInt8) (p : Nat) {m n : Nat} (le : m ≤ n) :
    bytesAt data p m <+: bytesAt data p n := by
  unfold bytesAt
  apply List.IsPrefix.map
  rw [List.prefix_iff_eq_take, List.length_range, List.take_range, Nat.min_eq_left le]

theorem length_padded {ivc : IvcParams} {buf : List UInt8} (fits : buf.length ≤ ivc.frameSize) :
    (padded ivc buf).length = ivc.frameSize := by
  unfold padded
  rw [List.length_append, List.length_replicate]
  omega

section
variable {now t : Nat} {log : List (Nat × List UInt8)}

theorem since_now (past : ∀ e ∈ log, e.1 ≤ now) : since (now + 1) log = [] := by
  unfold since
  rw [List.filter_eq_nil_iff]
  intro e mem
  have := past e mem
  simp
  omega

theorem since_append (le : t ≤ now) (f : List UInt8) :
    since t (log ++ [(now + 1, f)]) = since t log ++ [(now + 1, f)] := by
  unfold since
  rw [List.filter_append]
  congr 1
  simp
  omega

theorem since_lt {e : Nat × List UInt8} (mem : e ∈ since t log) : t < e.1 := by
  unfold since at mem
  simpa using (List.mem_filter.mp mem).2

end

section
variable (ivc : IvcParams)

structure Recorded (now : Nat) (x : Actor) : Prop where
  known : x.point.state = ivcStateEstablished ∨ x.point.state = ivcStateSync ∨
    x.point.state = ivcStateAck
  wCount : x.point.wCount = tick 0 x.sent.length
  rCount : x.point.rCount = tick 0 x.received.length
  wPos : x.point.wPos = slot ivc 0 x.sent.length
  rPos : x.point.rPos = slot ivc 0 x.received.length
  acked : x.point.state = ivcStateAck → x.sent = [] ∧ x.received = []
  wrote : ∀ e ∈ x.wrote, e.1 ≤ now
  got : ∀ e ∈ x.got, e.1 ≤ now
  txCleared : x.txCleared ≤ now
  rxCleared : x.rxCleared ≤ now
  resetAt : x.resetAt ≤ now
  behind : x.completed ≤ x.txCleared
  cleared : x.point.state ≠ ivcStateSync → x.resetAt ≤ x.txCleared
  done : x.point.state = ivcStateEstablished → x.completed = x.resetAt

/-- The frames `y` read match the first frames `x` wrote, and the others stand in their slots. -/
structure Stream (x y : Actor) : Prop where
  behind : y.received.length ≤ x.sent.length
  room : x.sent.length ≤ y.received.length + ivc.nframes
  inOrder : ∀ (i : Nat) r, y.received[i]? = some r → ∃ f, x.sent[i]? = some f ∧ r.2 <+: f.2
  slots : ∀ (i : Nat) f, y.received.length ≤ i → x.sent[i]? = some f →
    bytesAt x.point.data (ivc.frameSize * slot ivc 0 i) ivc.frameSize = f.2

/-- What `x` may read was written after its last reset. -/
def Fresh (x y : Actor) : Prop :=
  x.point.state = ivcStateEstablished ∨
      x.point.state = ivcStateAck ∧ y.point.state ≠ ivcStateSync →
    ∀ e ∈ y.sent, x.resetAt < e.1

structure Consistent (w : World) : Prop where
  near : Recorded ivc w.now w.me
  far : Recorded ivc w.now w.you
  streams : w.me.point.state = ivcStateEstablished ∨ w.you.point.state = ivcStateEstablished →
    Stream ivc w.me w.you ∧ Stream ivc w.you w.me
  fresh : Fresh w.me w.you
  back : Fresh w.you w.me

end

section
variable {ivc : IvcParams} {w : World} {now : Nat} {x y : Actor}

theorem Consistent.swap (consistent : Consistent ivc w) : Consistent ivc w.swap where
  near := consistent.far
  far := consistent.near
  streams := fun either => (consistent.streams either.symm).symm
  fresh := consistent.back
  back := consistent.fresh

theorem Recorded.later (recorded : Recorded ivc now x) : Recorded ivc (now + 1) x :=
  { recorded with
    wrote := fun e mem => Nat.le_succ_of_le (recorded.wrote e mem)
    got := fun e mem => Nat.le_succ_of_le (recorded.got e mem)
    txCleared := Nat.le_succ_of_le recorded.txCleared
    rxCleared := Nat.le_succ_of_le recorded.rxCleared
    resetAt := Nat.le_succ_of_le recorded.resetAt }

theorem stream_nil (sent : x.sent = []) (received : y.received = []) : Stream ivc x y := by
  constructor
  case behind => simp [received]
  case room => simp [sent]
  case inOrder => simp [received]
  case slots => simp [sent]

theorem consistent_reset (consistent : Consistent ivc w) : Consistent ivc (w.step ivc .reset) := by
  obtain ⟨near, far, streams, fresh, back⟩ := consistent
  constructor
  case near =>
    exact { near.later with
      known := .inr (.inl rfl)
      acked := fun mine => by cases mine
      resetAt := Nat.le_refl _
      cleared := fun other => absurd rfl other
      done := fun mine => by cases mine }
  case far => exact far.later
  case streams =>
    rintro (mine | yours)
    · cases mine
    · obtain ⟨out, inn⟩ := streams (.inr yours)
      exact ⟨⟨out.behind, out.room, out.inOrder, out.slots⟩,
        ⟨inn.behind, inn.room, inn.inOrder, inn.slots⟩⟩
  case fresh =>
    rintro (mine | ⟨mine, -⟩) <;> cases mine
  case back =>
    rintro (yours | ⟨-, mine⟩)
    · exact back (.inl yours)
    · exact absurd rfl mine

def Actor.clear (x : Actor) (now : Nat) (y : Endpoint) (state completed : Nat) : Actor :=
  { x with
    point := (x.point.sample y).clearTo state
    txCleared := now + 1
    rxCleared := now + 1
    completed := completed }

section
variable {y : Endpoint} {state completed : Nat}

theorem Recorded.sent_clear (recorded : Recorded ivc now x) :
    (x.clear now y state completed).sent = [] := since_now recorded.wrote

theorem Recorded.received_clear (recorded : Recorded ivc now x) :
    (x.clear now y state completed).received = [] := since_now recorded.got

theorem Recorded.clear (recorded : Recorded ivc now x)
    (known : state = ivcStateEstablished ∨ state = ivcStateAck) (behind : completed ≤ now)
    (done : state = ivcStateEstablished → completed = x.resetAt) :
    Recorded ivc (now + 1) (x.clear now y state completed) := by
  have later := recorded.later
  have sent : (x.clear now y state completed).sent = [] := recorded.sent_clear
  have received : (x.clear now y state completed).received = [] := recorded.received_clear
  constructor
  case known =>
    rcases known with rfl | rfl
    · exact .inl rfl
    · exact .inr (.inr rfl)
  case wCount =>
    rw [sent]
    rfl
  case rCount =>
    rw [received]
    rfl
  case wPos =>
    rw [sent]
    exact (Nat.zero_mod _).symm
  case rPos =>
    rw [received]
    exact (Nat.zero_mod _).symm
  case acked => exact fun _ => ⟨sent, received⟩
  case wrote => exact later.wrote
  case got => exact later.got
  case txCleared => exact Nat.le_refl _
  case rxCleared => exact Nat.le_refl _
  case resetAt => exact later.resetAt
  case behind => exact Nat.le_succ_of_le behind
  case cleared => exact fun _ => later.resetAt
  case done => exact done

end

variable (consistent : Consistent ivc w)
include consistent

theorem consistent_asked
    (asked : w.you.point.state = ivcStateSync) : Consistent ivc (w.step ivc .notified) := by
  obtain ⟨near, far, streams, fresh, back⟩ := consistent
  obtain ⟨run, tx, rx⟩ := @notified_sync w.pair asked
  have same : w.step ivc .notified =
      { now := w.now + 1
        me := w.me.clear w.now w.you.point ivcStateAck w.me.completed
        you := w.you } := by
    show World.mk _ _ _ = _
    rw [run, if_pos tx, if_pos rx]
    rfl
  rw [same]
  constructor
  case near =>
    apply near.clear (.inr rfl)
    · exact Nat.le_trans near.behind near.txCleared
    · exact fun mine => by cases mine
  case far => exact far.later
  case streams =>
    rintro (mine | yours)
    · cases mine
    · exact absurd (yours.symm.trans asked) (by decide)
  case fresh =>
    rintro (mine | ⟨-, other⟩)
    · cases mine
    · exact absurd asked other
  case back =>
    intro _ e mem
    rw [near.sent_clear] at mem
    cases mem

theorem consistent_answered
    (mine : w.me.point.state = ivcStateSync) (answered : w.you.point.state = ivcStateAck) :
    Consistent ivc (w.step ivc .notified) := by
  obtain ⟨near, far, streams, fresh, back⟩ := consistent
  obtain ⟨run, tx, rx⟩ := @notified_answered w.pair mine answered
  have same : w.step ivc .notified =
      { now := w.now + 1
        me := w.me.clear w.now w.you.point ivcStateEstablished w.me.resetAt
        you := w.you } := by
    show World.mk _ _ _ = _
    rw [run, if_pos tx, if_pos rx]
    rfl
  obtain ⟨sent, received⟩ := far.acked answered
  rw [same]
  constructor
  case near => exact near.clear (.inl rfl) near.resetAt fun _ => rfl
  case far => exact far.later
  case streams =>
    exact fun _ => ⟨stream_nil near.sent_clear received, stream_nil sent near.received_clear⟩
  case fresh =>
    intro _ e mem
    have mem : e ∈ w.you.sent := mem
    rw [sent] at mem
    cases mem
  case back =>
    intro _ e mem
    rw [near.sent_clear] at mem
    cases mem

theorem consistent_acked (acked : w.me.point.state = ivcStateAck)
    (unasked : w.you.point.state ≠ ivcStateSync) : Consistent ivc (w.step ivc .notified) := by
  obtain ⟨near, far, streams, fresh, back⟩ := consistent
  obtain ⟨run, tx, rx⟩ := @notified_acked w.pair acked unasked
  have same : w.step ivc .notified =
      { now := w.now + 1
        me := { w.me with
          point := { w.me.point.sample w.you.point with state := ivcStateEstablished }
          completed := w.me.resetAt }
        you := w.you } := by
    show World.mk _ _ _ = _
    rw [run, if_neg tx, if_neg rx]
    rfl
  have settled : w.me.resetAt ≤ w.me.txCleared := by
    apply near.cleared
    rw [acked]
    decide
  obtain ⟨sent, received⟩ := near.acked acked
  rw [same]
  constructor
  case near =>
    exact { near.later with
      known := .inl rfl
      acked := fun mine => by cases mine
      behind := settled
      cleared := fun _ => settled
      done := fun _ => rfl }
  case far => exact far.later
  case streams =>
    intro _
    rcases far.known with yours | yours | yours
    · obtain ⟨out, inn⟩ := streams (.inr yours)
      exact ⟨⟨out.behind, out.room, out.inOrder, out.slots⟩,
        ⟨inn.behind, inn.room, inn.inOrder, inn.slots⟩⟩
    · exact absurd yours unasked
    · obtain ⟨sent', received'⟩ := far.acked yours
      exact ⟨stream_nil sent received', stream_nil sent' received⟩
  case fresh => exact fun _ => fresh (.inr ⟨acked, unasked⟩)
  case back =>
    intro _ e mem
    have mem : e ∈ w.me.sent := mem
    rw [sent] at mem
    cases mem

theorem consistent_still
    (unasked : w.you.point.state ≠ ivcStateSync) (unacked : w.me.point.state ≠ ivcStateAck)
    (unanswered : ¬ (w.me.point.state = ivcStateSync ∧ w.you.point.state = ivcStateAck)) :
    Consistent ivc (w.step ivc .notified) := by
  obtain ⟨near, far, streams, fresh, back⟩ := consistent
  obtain ⟨run, tx, rx⟩ := @notified_still w.pair unasked unacked unanswered
  have completed : (if (if w.me.point.state = ivcStateEstablished then none else
      some Errno.eagain) = none then w.me.resetAt else w.me.completed) = w.me.completed := by
    by_cases mine : w.me.point.state = ivcStateEstablished
    · rw [if_pos mine, if_pos rfl, near.done mine]
    · rw [if_neg mine, if_neg (by simp)]
  have same : w.step ivc .notified =
      { now := w.now + 1
        me := { w.me with point := w.me.point.sample w.you.point }
        you := w.you } := by
    show World.mk _ _ _ = _
    rw [run, if_neg tx, if_neg rx]
    exact congrArg (fun c => World.mk (w.now + 1)
      { w.me with point := w.me.point.sample w.you.point, completed := c } w.you) completed
  rw [same]
  constructor
  case near => exact { near.later with }
  case far => exact far.later
  case streams =>
    intro either
    obtain ⟨out, inn⟩ := streams either
    exact ⟨⟨out.behind, out.room, out.inOrder, out.slots⟩,
      ⟨inn.behind, inn.room, inn.inOrder, inn.slots⟩⟩
  case fresh => exact fresh
  case back => exact back

theorem consistent_notified :
    Consistent ivc (w.step ivc .notified) := by
  by_cases asked : w.you.point.state = ivcStateSync
  · exact consistent_asked consistent asked
  by_cases answered : w.me.point.state = ivcStateSync ∧ w.you.point.state = ivcStateAck
  · exact consistent_answered consistent answered.1 answered.2
  by_cases acked : w.me.point.state = ivcStateAck
  · exact consistent_acked consistent acked asked
  · exact consistent_still consistent asked acked answered

theorem Consistent.later :
    Consistent ivc { w with now := w.now + 1 } :=
  { consistent with near := consistent.near.later, far := consistent.far.later }

omit consistent

def Actor.publish (x : Actor) (ivc : IvcParams) (now : Nat) (buf : List UInt8) : Actor :=
  { x with
    point := { x.point with
      wCount := add32 x.point.wCount 1
      wPos := nextPos ivc x.point.wPos
      data := putBytes x.point.data (ivcFramePointer ivc x.point.wPos) (padded ivc buf) }
    wrote := x.wrote ++ [(now + 1, padded ivc buf)] }

theorem Recorded.sent_publish (recorded : Recorded ivc now x) (buf : List UInt8) :
    (x.publish ivc now buf).sent = x.sent ++ [(now + 1, padded ivc buf)] :=
  since_append recorded.txCleared _

theorem Recorded.publish (recorded : Recorded ivc now x) (some : 0 < ivc.nframes)
    (small : ivc.nframes < 2 ^ 32) (established : x.point.state = ivcStateEstablished)
    (buf : List UInt8) : Recorded ivc (now + 1) (x.publish ivc now buf) := by
  have later := recorded.later
  have length : (x.publish ivc now buf).sent.length = x.sent.length + 1 := by
    rw [recorded.sent_publish, List.length_append, List.length_singleton]
  exact { later with
    wCount := by
      rw [length, ← add32_tick, ← recorded.wCount]
      rfl
    wPos := by
      rw [length, ← nextPos_slot some small, ← recorded.wPos]
      rfl
    acked := fun mine => absurd (mine.symm.trans established) (by decide)
    wrote := by
      intro e mem
      rcases List.mem_append.mp mem with old | new
      · exact later.wrote e old
      · rw [List.mem_singleton.mp new] }

theorem Stream.publish (stream : Stream ivc x y) (recorded : Recorded ivc now x)
    (area : ivc.nframes * ivc.frameSize < 2 ^ 32)
    (free : x.sent.length < y.received.length + ivc.nframes) {buf : List UInt8}
    (fits : buf.length ≤ ivc.frameSize) : Stream ivc (x.publish ivc now buf) y := by
  have behind := stream.behind
  have start : ivcFramePointer ivc x.point.wPos = ivc.frameSize * slot ivc 0 x.sent.length := by
    rw [recorded.wPos]
    exact framePointer_slot (by omega) area _
  have length := length_padded fits
  constructor
  case behind =>
    rw [recorded.sent_publish, List.length_append]
    omega
  case room =>
    rw [recorded.sent_publish, List.length_append, List.length_singleton]
    omega
  case inOrder =>
    intro i r got
    obtain ⟨f, written, pre⟩ := stream.inOrder i r got
    obtain ⟨lt, -⟩ := List.getElem?_eq_some_iff.mp written
    refine ⟨f, ?_, pre⟩
    rw [recorded.sent_publish, List.getElem?_append_left lt]
    exact written
  case slots =>
    intro i f unread written
    show bytesAt (putBytes x.point.data (ivcFramePointer ivc x.point.wPos) (padded ivc buf)) _ _ = _
    rw [start]
    rw [recorded.sent_publish] at written
    rcases Nat.lt_or_ge i x.sent.length with old | new
    · rw [List.getElem?_append_left old] at written
      have different : slot ivc 0 i ≠ slot ivc 0 x.sent.length := slot_ne old (by omega)
      have other : bytesAt (putBytes x.point.data
          (ivc.frameSize * slot ivc 0 x.sent.length + 0) (padded ivc buf))
          (ivc.frameSize * slot ivc 0 i) ivc.frameSize = _ :=
        bytesAt_putBytes_other different _ _ 0 (by omega)
      rw [Nat.add_zero] at other
      rw [other]
      exact stream.slots i f unread written
    · obtain ⟨lt, -⟩ := List.getElem?_eq_some_iff.mp written
      rw [List.length_append, List.length_singleton] at lt
      have last : i = x.sent.length := by omega
      rw [last, List.getElem?_concat_length] at written
      cases written
      have whole := bytesAt_putBytes (padded ivc buf) x.point.data
        (ivc.frameSize * slot ivc 0 x.sent.length) 0
      rw [Nat.add_zero, Nat.zero_add, length] at whole
      rw [last, whole]
      rfl

theorem consistent_write (small : ivc.nframes < 2 ^ 32)
    (area : ivc.nframes * ivc.frameSize < 2 ^ 32) (buf : List UInt8)
    (consistent : Consistent ivc w) : Consistent ivc (w.step ivc (.write buf)) := by
  by_cases ready : buf.length ≤ ivc.frameSize ∧ Writable ivc w.pair
  · obtain ⟨fits, established, free⟩ := ready
    have same : w.step ivc (.write buf) =
        { now := w.now + 1, me := w.me.publish ivc w.now buf, you := w.you } := by
      show World.mk _ _ _ = _
      rw [run_tegraIvcWrite_ok fits ⟨established, free⟩]
      rfl
    rw [same]
    obtain ⟨near, far, streams, fresh, back⟩ := consistent
    obtain ⟨out, inn⟩ := streams (.inl established)
    have behind := out.behind
    have room := out.room
    have free : w.me.sent.length < w.you.received.length + ivc.nframes := by
      have free : sub32 w.me.point.wCount w.you.point.rCount < ivc.nframes := free
      rw [near.wCount, far.rCount, sub32_tick out.behind (by omega)] at free
      omega
    constructor
    case near => exact near.publish (by omega) small established buf
    case far => exact far.later
    case streams =>
      exact fun _ => ⟨out.publish near area free fits,
        ⟨inn.behind, inn.room, inn.inOrder, inn.slots⟩⟩
    case fresh => exact fresh
    case back =>
      intro readable e mem
      rw [near.sent_publish] at mem
      rcases List.mem_append.mp mem with old | new
      · exact back readable e old
      · rw [List.mem_singleton.mp new]
        exact Nat.lt_succ_of_le far.resetAt
  · obtain ⟨e, failed⟩ := run_tegraIvcWrite_fails ready
    have same : w.step ivc (.write buf) = { w with now := w.now + 1 } := by
      show World.mk _ _ _ = _
      rw [failed]
      rfl
    rw [same]
    exact consistent.later

def Actor.take (x : Actor) (ivc : IvcParams) (now : Nat) (buf : List UInt8) : Actor :=
  { x with
    point := { x.point with
      rCount := add32 x.point.rCount 1
      rPos := nextPos ivc x.point.rPos }
    got := x.got ++ [(now + 1, buf)] }

theorem Recorded.received_take (recorded : Recorded ivc now x) (buf : List UInt8) :
    (x.take ivc now buf).received = x.received ++ [(now + 1, buf)] :=
  since_append recorded.rxCleared _

theorem Recorded.take (recorded : Recorded ivc now x) (some : 0 < ivc.nframes)
    (small : ivc.nframes < 2 ^ 32) (established : x.point.state = ivcStateEstablished)
    (buf : List UInt8) : Recorded ivc (now + 1) (x.take ivc now buf) := by
  have later := recorded.later
  have length : (x.take ivc now buf).received.length = x.received.length + 1 := by
    rw [recorded.received_take, List.length_append, List.length_singleton]
  exact { later with
    rCount := by
      rw [length, ← add32_tick, ← recorded.rCount]
      rfl
    rPos := by
      rw [length, ← nextPos_slot some small, ← recorded.rPos]
      rfl
    acked := fun mine => absurd (mine.symm.trans established) (by decide)
    got := by
      intro e mem
      rcases List.mem_append.mp mem with old | new
      · exact later.got e old
      · rw [List.mem_singleton.mp new] }

theorem Stream.next (stream : Stream ivc x y) (recorded : Recorded ivc now y)
    (area : ivc.nframes * ivc.frameSize < 2 ^ 32) (unread : y.received.length < x.sent.length)
    {maxRead : Nat} (fits : maxRead ≤ ivc.frameSize) :
    ∃ f, x.sent[y.received.length]? = some f ∧
      bytesAt x.point.data (ivcFramePointer ivc y.point.rPos) maxRead <+: f.2 := by
  have room := stream.room
  have start : ivcFramePointer ivc y.point.rPos = ivc.frameSize * slot ivc 0 y.received.length := by
    rw [recorded.rPos]
    exact framePointer_slot (by omega) area _
  have written := List.getElem?_eq_getElem unread
  refine ⟨_, written, ?_⟩
  rw [start, ← stream.slots _ _ (Nat.le_refl _) written]
  exact bytesAt_prefix _ _ fits

theorem Stream.take (stream : Stream ivc x y) (recorded : Recorded ivc now y)
    {f : Nat × List UInt8} {buf : List UInt8} (next : x.sent[y.received.length]? = some f)
    (pre : buf <+: f.2) : Stream ivc x (y.take ivc now buf) := by
  have room := stream.room
  obtain ⟨unread, -⟩ := List.getElem?_eq_some_iff.mp next
  have length : (y.take ivc now buf).received.length = y.received.length + 1 := by
    rw [recorded.received_take, List.length_append, List.length_singleton]
  constructor
  case behind =>
    rw [length]
    omega
  case room =>
    rw [length]
    omega
  case inOrder =>
    intro i r got
    rw [recorded.received_take] at got
    rcases Nat.lt_or_ge i y.received.length with old | new
    · rw [List.getElem?_append_left old] at got
      exact stream.inOrder i r got
    · obtain ⟨lt, -⟩ := List.getElem?_eq_some_iff.mp got
      rw [List.length_append, List.length_singleton] at lt
      have last : i = y.received.length := by omega
      rw [last, List.getElem?_concat_length] at got
      cases got
      rw [last]
      exact ⟨f, next, pre⟩
  case slots =>
    intro i f' unread' written
    rw [length] at unread'
    exact stream.slots i f' (by omega) written

theorem Consistent.unread (consistent : Consistent ivc w) (ready : Readable ivc w.pair) :
    w.me.received.length < w.you.sent.length := by
  obtain ⟨established, -, different⟩ := ready
  obtain ⟨-, inn⟩ := consistent.streams (.inl established)
  apply Nat.lt_of_le_of_ne inn.behind
  intro same
  apply different
  show w.you.point.wCount = w.me.point.rCount
  rw [consistent.far.wCount, consistent.near.rCount, same]

theorem step_read {maxRead : Nat} (fits : maxRead ≤ ivc.frameSize) (ready : Readable ivc w.pair) :
    w.step ivc (.read maxRead) =
      { now := w.now + 1
        me := w.me.take ivc w.now
          (bytesAt w.you.point.data (ivcFramePointer ivc w.me.point.rPos) maxRead)
        you := w.you } := by
  show World.mk _ _ _ = _
  rw [run_tegraIvcRead_ok fits ready]
  rfl

theorem consistent_read (small : ivc.nframes < 2 ^ 32)
    (area : ivc.nframes * ivc.frameSize < 2 ^ 32) (maxRead : Nat)
    (consistent : Consistent ivc w) : Consistent ivc (w.step ivc (.read maxRead)) := by
  by_cases ready : maxRead ≤ ivc.frameSize ∧ Readable ivc w.pair
  · obtain ⟨fits, ready⟩ := ready
    have established : w.me.point.state = ivcStateEstablished := ready.1
    have unread := consistent.unread ready
    rw [step_read fits ready]
    obtain ⟨near, far, streams, fresh, back⟩ := consistent
    obtain ⟨out, inn⟩ := streams (.inl established)
    obtain ⟨f, next, pre⟩ := inn.next near area unread fits
    have room := inn.room
    constructor
    case near => exact near.take (by omega) small established _
    case far => exact far.later
    case streams =>
      exact fun _ => ⟨⟨out.behind, out.room, out.inOrder, out.slots⟩, inn.take near next pre⟩
    case fresh => exact fresh
    case back => exact back
  · obtain ⟨e, failed⟩ := run_tegraIvcRead_fails ready
    have same : w.step ivc (.read maxRead) = { w with now := w.now + 1 } := by
      show World.mk _ _ _ = _
      rw [failed]
      rfl
    rw [same]
    exact consistent.later

theorem consistent_step (small : ivc.nframes < 2 ^ 32)
    (area : ivc.nframes * ivc.frameSize < 2 ^ 32) (c : Call) (consistent : Consistent ivc w) :
    Consistent ivc (w.step ivc c) := by
  cases c with
  | reset => exact consistent_reset consistent
  | notified => exact consistent_notified consistent
  | read maxRead => exact consistent_read small area maxRead consistent
  | write buf => exact consistent_write small area buf consistent

theorem consistent_start : Consistent ivc {} := by
  have recorded : Recorded ivc 0 {} := by
    constructor
    case known => exact .inl rfl
    case wCount => rfl
    case rCount => rfl
    case wPos => exact (Nat.zero_mod _).symm
    case rPos => exact (Nat.zero_mod _).symm
    case acked => exact fun mine => by cases mine
    case wrote => exact fun e mem => by cases mem
    case got => exact fun e mem => by cases mem
    case txCleared => exact Nat.le_refl _
    case rxCleared => exact Nat.le_refl _
    case resetAt => exact Nat.le_refl _
    case behind => exact Nat.le_refl _
    case cleared => exact fun _ => Nat.le_refl _
    case done => exact fun _ => rfl
  have fresh : Fresh {} {} := fun _ e mem => by cases mem
  exact ⟨recorded, recorded, fun _ => ⟨stream_nil rfl rfl, stream_nil rfl rfl⟩, fresh, fresh⟩

theorem consistent_run (small : ivc.nframes < 2 ^ 32)
    (area : ivc.nframes * ivc.frameSize < 2 ^ 32)
    (run : Relation.ReflTransGen (World.Next ivc) {} w) : Consistent ivc w := by
  induction run with
  | refl => exact consistent_start
  | tail _ step ih =>
    cases step with
    | near c => exact consistent_step small area c ih
    | far c => exact (consistent_step small area c ih.swap).swap

/-- A successful read of the end `me`, after which what it read since it cleared its receive counter matches the start
of what the peer wrote since it cleared its transmit counter. -/
def ReadsFresh (ivc : IvcParams) (w : World) : Prop :=
  ∀ maxRead buf, ((tegraIvcRead ivc maxRead).run handle w.pair).1 = .ok buf →
    let w' := w.step ivc (.read maxRead)
    (∀ (i : Nat) r, w'.me.received[i]? = some r → ∃ f, w'.you.sent[i]? = some f ∧ r.2 <+: f.2) ∧
      buf.length = maxRead ∧ w'.me.received.getLast? = some (w.now + 1, buf) ∧
      ∃ f, w'.you.sent[w.me.received.length]? = some f ∧ buf <+: f.2 ∧
        w.you.txCleared < f.1 ∧ w.me.completed < f.1 ∧ w.you.completed < f.1

theorem readsFresh_of_consistent (area : ivc.nframes * ivc.frameSize < 2 ^ 32)
    (consistent : Consistent ivc w) : ReadsFresh ivc w := by
  intro maxRead buf read
  by_cases ready : maxRead ≤ ivc.frameSize ∧ Readable ivc w.pair
  · obtain ⟨fits, ready⟩ := ready
    have established : w.me.point.state = ivcStateEstablished := ready.1
    have unread := consistent.unread ready
    rw [run_tegraIvcRead_ok fits ready] at read
    cases read
    rw [step_read fits ready]
    obtain ⟨near, far, streams, fresh, -⟩ := consistent
    obtain ⟨-, inn⟩ := streams (.inl established)
    obtain ⟨f, next, pre⟩ := inn.next near area unread fits
    have mem : f ∈ w.you.sent := List.mem_of_getElem? next
    have newer : w.you.txCleared < f.1 := since_lt mem
    refine ⟨(inn.take near next pre).inOrder, length_bytesAt _ _ _, ?_, f, next, pre, newer, ?_, ?_⟩
    · show (w.me.take ivc w.now _).received.getLast? = _
      rw [near.received_take, List.getLast?_concat]
      rfl
    · rw [near.done established]
      exact fresh (.inl established) f mem
    · exact Nat.lt_of_le_of_lt far.behind newer
  · obtain ⟨e, failed⟩ := run_tegraIvcRead_fails ready
    rw [failed] at read
    cases read

/-- No stale frame crosses a reset, whichever end reads. -/
theorem no_stale_frame (small : ivc.nframes < 2 ^ 32)
    (area : ivc.nframes * ivc.frameSize < 2 ^ 32)
    (run : Relation.ReflTransGen (World.Next ivc) {} w) : ReadsFresh ivc w ∧ ReadsFresh ivc w.swap := by
  have consistent := consistent_run small area run
  exact ⟨readsFresh_of_consistent area consistent, readsFresh_of_consistent area consistent.swap⟩

end

/-- A call of the end `me` or of the other one. -/
def World.play (ivc : IvcParams) (w : World) : Bool × Call → World
  | (true, c) => w.step ivc c
  | (false, c) => (w.swap.step ivc c).swap

theorem run_play {ivc : IvcParams} (calls : List (Bool × Call)) (w : World) :
    Relation.ReflTransGen (World.Next ivc) w (calls.foldl (World.play ivc) w) := by
  induction calls generalizing w with
  | nil => exact Relation.ReflTransGen.refl
  | cons call calls ih =>
    obtain ⟨near, c⟩ := call
    cases near with
    | true => exact Relation.ReflTransGen.head (.near w c) (ih _)
    | false => exact Relation.ReflTransGen.head (.far w c) (ih _)

/-- The peer completes two resets on one acknowledgement, with a frame written after each. -/
def twoResets : World :=
  [(false, .reset), (true, .notified), (false, .notified), (false, .write [1]), (false, .reset),
    (false, .notified), (false, .write [2]), (true, .notified)].foldl (World.play ⟨1, 64⟩) {}

/-- What the reader gets is the second frame, and it is newer than both resets. -/
theorem no_stale_frame_twoResets :
    ((tegraIvcRead ⟨1, 64⟩ 1).run handle twoResets.pair).1 = .ok [2] ∧
      twoResets.you.completed = 5 ∧ ReadsFresh ⟨1, 64⟩ twoResets ∧
      ReadsFresh ⟨1, 64⟩ twoResets.swap :=
  ⟨by decide, by decide, no_stale_frame (by decide) (by decide) (run_play _ _)⟩

/-- The reader cleared its receive counter before either frame was written. -/
theorem no_stale_frame_skips : ∃ w, Relation.ReflTransGen (World.Next ⟨1, 64⟩) {} w ∧
    ¬ ∀ (i : Nat) r, w.me.received[i]? = some r →
      ∃ f, (since w.me.rxCleared w.you.wrote)[i]? = some f ∧ r.2 <+: f.2 := by
  refine ⟨twoResets.step ⟨1, 64⟩ (.read 1), (run_play _ _).tail (.near _ _), ?_⟩
  intro inOrder
  have read : (twoResets.step ⟨1, 64⟩ (.read 1)).me.received = [(9, [2])] := by decide
  have written : ((since (twoResets.step ⟨1, 64⟩ (.read 1)).me.rxCleared
      (twoResets.step ⟨1, 64⟩ (.read 1)).you.wrote).head?.map fun f => f.2.head?) =
        some (some 1) := by decide
  obtain ⟨f, first, rest, whole⟩ := inOrder 0 (9, [2]) (by rw [read]; rfl)
  rw [← List.head?_eq_getElem?] at first
  rw [first] at written
  have head : f.2.head? = some 1 := Option.some.inj written
  rw [← whole] at head
  cases head

end Cboot.Ivc
