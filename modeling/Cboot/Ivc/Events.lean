import Cboot.Ivc.Delivery

/-!
The established channel with a record of its events: the calls, the frames published and consumed, the notifications,
and the moments at which an end reads the peer's counter afresh.
-/

namespace Cboot.Ivc
open Lib

inductive Who where
  | tx
  | rx
  deriving DecidableEq, Repr

/-- A look has the counter of the end itself and then that of the peer. A move is the store of the
end's own counter: the sender publishes a frame, the receiver consumes one. -/
inductive Event where
  | began (who : Who)
  | looked (who : Who) (own peer : Nat)
  | moved (who : Who)
  | notified (who : Who)
  deriving DecidableEq, Repr

structure Logged where
  link : Link
  log : List Event := []

def txEvents (s : Link) : Op → List Event
  | .load .tx .rCount => if s.seenR = none then [.looked .tx s.wCount s.rCount] else []
  | .store .tx .wCount _ => [.moved .tx]
  | .notify => [.notified .tx]
  | _ => []

def rxEvents (s : Link) : Op → List Event
  | .load .rx .wCount => if s.seenW = none then [.looked .rx s.rCount s.wCount] else []
  | .store .rx .rCount _ => [.moved .rx]
  | .notify => [.notified .rx]
  | _ => []

section
variable (ivc : IvcParams)

def senderReport (a : TxClient × Option Errno) : TxCall → IvcM (TxClient × Option Errno)
  | .write buf => do
    match ← tegraIvcWrite ivc buf with
    | .ok _ => return ({ wrote := some buf }, none)
    | .error e => return ({ held := a.1.held }, some e)
  | .advance => do
    match ← tegraIvcWriteAdvance ivc with
    | .ok _ => return ({}, none)
    | .error e => return ({ held := a.1.held }, some e)
  | .getNextFrame => do
    let client ← senderBody ivc a.1 .getNextFrame
    return (client, none)
  | .fill off b => do
    let client ← senderBody ivc a.1 (.fill off b)
    return (client, none)

def receiverReport (a : RxClient × Option Errno) : RxCall → IvcM (RxClient × Option Errno)
  | .read maxRead => do
    match ← tegraIvcRead ivc maxRead with
    | .ok buf => return ({ got := some (maxRead, buf) }, none)
    | .error e => return ({ held := a.1.held }, some e)
  | .advance => do
    match ← tegraIvcReadAdvance ivc with
    | .ok _ => return ({}, none)
    | .error e => return ({ held := a.1.held }, some e)
  | .getNextFrame => do
    let client ← receiverBody ivc a.1 .getNextFrame
    return (client, none)
  | .peek off => do
    let client ← receiverBody ivc a.1 (.peek off)
    return (client, none)

def loggedSender : Party Logged Op Ans (TxClient × Option Errno) TxCall where
  exec s op r s' :=
    senderAccess ivc s.link op = some (r, s'.link) ∧ s'.log = s.log ++ txEvents s.link op
  start s _ c s' :=
    c.inFrame ivc ∧ s' = ⟨{ s.link with frame := c.frame ivc }, s.log ++ [.began .tx]⟩
  body := senderReport ivc

def loggedReceiver : Party Logged Op Ans (RxClient × Option Errno) RxCall where
  exec s op r s' :=
    receiverAccess ivc s.link op = some (r, s'.link) ∧ s'.log = s.log ++ rxEvents s.link op
  start s _ c s' :=
    c.inFrame ivc ∧ s' = ⟨{ s.link with copied := c.copied }, s.log ++ [.began .rx]⟩
  body := receiverReport ivc

def loggedEvict (s s' : Logged) : Prop := evict s.link s'.link ∧ s'.log = s.log

end

abbrev Watched := Config Logged Op Ans (TxClient × Option Errno) (RxClient × Option Errno)

abbrev WatchedStep (ivc : IvcParams) : Watched → Watched → Prop :=
  Interleave (loggedSender ivc) (loggedReceiver ivc) loggedEvict

def watched (c₀ p₀ : Nat) (data : Nat → UInt8) : Watched where
  state := { link := (opened c₀ p₀ data).state }
  left := .ret ({}, none)
  right := .ret ({}, none)

section
variable {ivc : IvcParams} {c₀ p₀ : Nat}

theorem senderReport_fst (a : TxClient × Option Errno) (call : TxCall) :
    (senderReport ivc a call >>= fun x => pure x.1) = senderBody ivc a.1 call := by
  cases call with
  | write buf =>
    rw [senderReport, senderBody, Prog.bind_assoc]
    congr 1
    funext r
    cases r <;> rfl
  | advance =>
    rw [senderReport, senderBody, Prog.bind_assoc]
    congr 1
    funext r
    cases r <;> rfl
  | getNextFrame =>
    rw [senderReport, Prog.bind_assoc]
    exact Prog.bind_pure _
  | fill off b =>
    rw [senderReport, Prog.bind_assoc]
    exact Prog.bind_pure _

theorem receiverReport_fst (a : RxClient × Option Errno) (call : RxCall) :
    (receiverReport ivc a call >>= fun x => pure x.1) = receiverBody ivc a.1 call := by
  cases call with
  | read maxRead =>
    rw [receiverReport, receiverBody, Prog.bind_assoc]
    congr 1
    funext r
    cases r <;> rfl
  | advance =>
    rw [receiverReport, receiverBody, Prog.bind_assoc]
    congr 1
    funext r
    cases r <;> rfl
  | getNextFrame =>
    rw [receiverReport, Prog.bind_assoc]
    exact Prog.bind_pure _
  | peek off =>
    rw [receiverReport, Prog.bind_assoc]
    exact Prog.bind_pure _

def LooksFit (ivc : IvcParams) (log : List Event) : Prop :=
  (∀ own peer, Event.looked .tx own peer ∈ log → sub32 own peer ≤ ivc.nframes) ∧
    ∀ own peer, Event.looked .rx own peer ∈ log → sub32 peer own ≤ ivc.nframes

def WatchedInStep (ivc : IvcParams) (c₀ p₀ : Nat) : Watched → Prop :=
  Kept (fun s g h => Tied ivc c₀ p₀ s.link g h ∧ LooksFit ivc s.log)
    (txContract ivc c₀ p₀) (rxContract ivc c₀ p₀)
    (fun a => TxIdle ivc p₀ a.1) (fun a => RxIdle ivc p₀ a.1)

variable {s : Link} {g : TxView} {h : RxView} {log : List Event}

theorem Tied.inFlight_le (tied : Tied ivc c₀ p₀ s g h) (ring : ivc.nframes < 2 ^ 32) :
    sub32 s.wCount s.rCount ≤ ivc.nframes := by
  have order := tied.order
  rw [tied.wCount, tied.rCount, sub32_tick (by omega) (by omega)]
  omega

theorem looksFit_append (fit : LooksFit ivc log) {new : List Event} (fit' : LooksFit ivc new) :
    LooksFit ivc (log ++ new) := by
  constructor
  · intro own peer mem
    rcases List.mem_append.mp mem with old | added
    · exact fit.1 own peer old
    · exact fit'.1 own peer added
  · intro own peer mem
    rcases List.mem_append.mp mem with old | added
    · exact fit.2 own peer old
    · exact fit'.2 own peer added

theorem looked_txEvents {op : Op} {who : Who} {own peer : Nat} (mem : Event.looked who own peer ∈ txEvents s op) :
    who = .tx ∧ own = s.wCount ∧ peer = s.rCount := by
  unfold txEvents at mem
  split at mem
  · split at mem
    · cases List.mem_singleton.mp mem
      exact ⟨rfl, rfl, rfl⟩
    · cases mem
  · cases List.mem_singleton.mp mem
  · cases List.mem_singleton.mp mem
  · cases mem

theorem looked_rxEvents {op : Op} {who : Who} {own peer : Nat} (mem : Event.looked who own peer ∈ rxEvents s op) :
    who = .rx ∧ own = s.rCount ∧ peer = s.wCount := by
  unfold rxEvents at mem
  split at mem
  · split at mem
    · cases List.mem_singleton.mp mem
      exact ⟨rfl, rfl, rfl⟩
    · cases mem
  · cases List.mem_singleton.mp mem
  · cases List.mem_singleton.mp mem
  · cases mem

theorem looksFit_txEvents (bound : sub32 s.wCount s.rCount ≤ ivc.nframes) (op : Op) : LooksFit ivc (txEvents s op) := by
  constructor
  · intro own peer mem
    obtain ⟨-, rfl, rfl⟩ := looked_txEvents mem
    exact bound
  · intro own peer mem
    obtain ⟨other, -⟩ := looked_txEvents mem
    cases other

theorem looksFit_rxEvents (bound : sub32 s.wCount s.rCount ≤ ivc.nframes) (op : Op) : LooksFit ivc (rxEvents s op) := by
  constructor
  · intro own peer mem
    obtain ⟨other, -⟩ := looked_rxEvents mem
    cases other
  · intro own peer mem
    obtain ⟨-, rfl, rfl⟩ := looked_rxEvents mem
    exact bound

theorem looksFit_began (who : Who) : LooksFit ivc [.began who] := by
  constructor
  · intro own peer mem
    cases List.mem_singleton.mp mem
  · intro own peer mem
    cases List.mem_singleton.mp mem

theorem watchedInStep_watched (data : Nat → UInt8) (count : c₀ < 2 ^ 32) (place : slot ivc p₀ 0 = p₀) :
    WatchedInStep ivc c₀ p₀ (watched c₀ p₀ data) := by
  have start : InStep ivc c₀ p₀ (opened c₀ p₀ data) := inStep_opened data count place
  obtain ⟨g, h, tied, left, right⟩ := start
  have empty : LooksFit ivc [] :=
    ⟨fun _ _ mem => absurd mem List.not_mem_nil, fun _ _ mem => absurd mem List.not_mem_nil⟩
  exact ⟨g, h, ⟨tied, empty⟩, left, right⟩

variable {c c' : Watched}

theorem watchedInStep_run (ring : ivc.nframes < 2 ^ 32) (area : ivc.nframes * ivc.frameSize < 2 ^ 32)
    (run : Relation.ReflTransGen (WatchedStep ivc) c c') (inStep : WatchedInStep ivc c₀ p₀ c) :
    WatchedInStep ivc c₀ p₀ c' := by
  apply kept_run _ _ _ _ _ run inStep
  · rintro s op r s' g h R ⟨tied, fit⟩ contract ⟨access, log⟩
    obtain ⟨g', next, tied'⟩ := sender_step area tied contract access
    rw [log]
    exact ⟨g', next, tied', looksFit_append fit (looksFit_txEvents (tied.inFlight_le ring) op)⟩
  · rintro s a call s' g h ⟨tied, fit⟩ idle ⟨inside, rfl⟩
    have body : (senderBody ivc a.1 call).wp (txContract ivc c₀ p₀)
        { g with frame := call.frame ivc } (TxIdle ivc p₀) :=
      wp_senderBody ring area call idle inside
    rw [← senderReport_fst, Prog.wp_bind] at body
    exact ⟨_, body, { tied with frame := rfl }, looksFit_append fit (looksFit_began .tx)⟩
  · rintro s op r s' g h R ⟨tied, fit⟩ contract ⟨access, log⟩
    obtain ⟨h', next, tied'⟩ := receiver_step area tied contract access
    rw [log]
    exact ⟨h', next, tied', looksFit_append fit (looksFit_rxEvents (tied.inFlight_le ring) op)⟩
  · rintro s a call s' g h ⟨tied, fit⟩ idle ⟨inside, rfl⟩
    have body : (receiverBody ivc a.1 call).wp (rxContract ivc c₀ p₀)
        { h with copied := call.copied } (RxIdle ivc p₀) :=
      wp_receiverBody ring area call idle inside
    rw [← receiverReport_fst, Prog.wp_bind] at body
    refine ⟨_, body, { tied with copied := rfl, copying := ?_ }, looksFit_append fit (looksFit_began .rx)⟩
    intro bs copied
    cases call <;> cases copied
    exact .inl rfl
  · rintro s s' g h ⟨tied, fit⟩ ⟨move, log⟩
    rw [log]
    refine ⟨?_, fit⟩
    rcases move with same | same
    · rw [same]
      exact { tied with seenW := by intro v cached; cases cached }
    · rw [same]
      exact { tied with seenR := by intro v cached; cases cached }

theorem log_step (step : WatchedStep ivc c c') : ∃ more, c'.state.log = c.state.log ++ more := by
  cases step with
  | leftAct access => exact ⟨_, access.2⟩
  | leftCall call =>
    obtain ⟨-, rfl⟩ := call
    exact ⟨_, rfl⟩
  | rightAct access => exact ⟨_, access.2⟩
  | rightCall call =>
    obtain ⟨-, rfl⟩ := call
    exact ⟨_, rfl⟩
  | env move => exact ⟨[], move.2.trans (List.append_nil _).symm⟩

theorem log_run (run : Relation.ReflTransGen (WatchedStep ivc) c c') :
    ∃ more, c'.state.log = c.state.log ++ more := by
  induction run with
  | refl => exact ⟨[], (List.append_nil _).symm⟩
  | tail _ step ih =>
    obtain ⟨more, before⟩ := ih
    obtain ⟨new, after⟩ := log_step step
    exact ⟨more ++ new, by rw [after, before, List.append_assoc]⟩

end

end Cboot.Ivc
