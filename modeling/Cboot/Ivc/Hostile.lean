import Cboot.Ivc.Model

/-!
The peer may change both headers between any two accesses of this end, so nothing it stores can be relied on.
-/

namespace Cboot.Ivc
open Lib

/-- An access, or `IVC_ASSERT(frame < ivc->nframes)` on the frame index in a position field. -/
abbrev Access : Type := Noted Op Pos

abbrev DebugM : Type → Type := Prog Access (Noted.Ans Ans)

namespace Debug

def ivcAssert (p : Pos) : DebugM Unit := Prog.note p

section
variable (ivc : IvcParams)

def framePointer (p : Pos) : DebugM Nat := do
  ivcAssert p
  let frame ← (loadPos p).lift
  return ivcFramePointer ivc frame

/-- `ivc_invalidate_frame` and `ivc_flush_frame`: the cache operation touches no byte. -/
def maintainFrame (p : Pos) : DebugM Unit := ivcAssert p

def read (maxRead : Nat) : DebugM (Except Errno (List UInt8)) := do
  if ivc.frameSize < maxRead then
    return .error .e2big
  match ← (ivcCheckRead ivc).lift with
  | some e => return .error e
  | none =>
    maintainFrame .r
    let src ← framePointer ivc .r
    let buf ← (loadBytes .rx src maxRead).lift
    (ivcAdvanceRx ivc).lift
    (ivcCacheInvalidate .rx .wCount).lift
    let count ← (ivcChannelAvailCount .rx).lift
    if count = sub32 ivc.nframes 1 then
      notify.lift
    return .ok buf

def readGetNextFrame : DebugM (Option Nat) := do
  match ← (ivcCheckRead ivc).lift with
  | some _ => return none
  | none =>
    maintainFrame .r
    let frame ← framePointer ivc .r
    return some frame

def write (buf : List UInt8) : DebugM (Except Errno Nat) := do
  if ivc.frameSize < buf.length then
    return .error .e2big
  match ← (ivcCheckWrite ivc).lift with
  | some e => return .error e
  | none =>
    let p ← framePointer ivc .w
    (storeBytes .tx p buf).lift
    (storeBytes .tx (p + buf.length) (List.replicate (ivc.frameSize - buf.length) 0)).lift
    maintainFrame .w
    (ivcAdvanceTx ivc).lift
    (ivcCacheInvalidate .tx .rCount).lift
    let count ← (ivcChannelAvailCount .tx).lift
    if count = 1 then
      notify.lift
    return .ok buf.length

def writeGetNextFrame : DebugM (Option Nat) := do
  match ← (ivcCheckWrite ivc).lift with
  | some _ => return none
  | none =>
    let frame ← framePointer ivc .w
    return some frame

def writeAdvance : DebugM (Except Errno Unit) := do
  match ← (ivcCheckWrite ivc).lift with
  | some e => return .error e
  | none =>
    maintainFrame .w
    (ivcAdvanceTx ivc).lift
    (ivcCacheInvalidate .tx .rCount).lift
    let count ← (ivcChannelAvailCount .tx).lift
    if count = 1 then
      notify.lift
    return .ok ()

/-! Without its assertions each function is the one of the release build. -/

@[simp] theorem erase_maintainFrame (p : Pos) : (maintainFrame p).erase = pure () := rfl

@[simp] theorem erase_framePointer (p : Pos) :
    (framePointer ivc p).erase = loadPos p >>= fun frame => pure (ivcFramePointer ivc frame) := rfl

theorem erase_matched {α : Type} {check : IvcM (Option Errno)} {f : Option Errno → DebugM α} {g : Option Errno → IvcM α}
    (same : ∀ refused, (f refused).erase = g refused) : (check.lift >>= f).erase = check >>= g := by
  rw [Prog.erase_bind, Prog.erase_lift]
  exact bind_congr same

theorem erase_read (maxRead : Nat) : (read ivc maxRead).erase = tegraIvcRead ivc maxRead := by
  unfold read tegraIvcRead
  by_cases large : ivc.frameSize < maxRead
  · rw [if_pos large, if_pos large]
    rfl
  rw [if_neg large, if_neg large]
  refine erase_matched fun refused => ?_
  cases refused with
  | some e => rfl
  | none =>
    simp only [Prog.erase_bind, Prog.erase_lift, erase_maintainFrame, erase_framePointer, apply_ite Prog.erase]
    rfl

theorem erase_readGetNextFrame : (readGetNextFrame ivc).erase = tegraIvcReadGetNextFrame ivc :=
  erase_matched fun refused => by cases refused <;> rfl

theorem erase_write (buf : List UInt8) : (write ivc buf).erase = tegraIvcWrite ivc buf := by
  unfold write tegraIvcWrite
  by_cases large : ivc.frameSize < buf.length
  · rw [if_pos large, if_pos large]
    rfl
  rw [if_neg large, if_neg large]
  refine erase_matched fun refused => ?_
  cases refused with
  | some e => rfl
  | none =>
    simp only [Prog.erase_bind, Prog.erase_lift, erase_maintainFrame, erase_framePointer, apply_ite Prog.erase]
    rfl

theorem erase_writeGetNextFrame : (writeGetNextFrame ivc).erase = tegraIvcWriteGetNextFrame ivc :=
  erase_matched fun refused => by cases refused <;> rfl

theorem erase_writeAdvance : (writeAdvance ivc).erase = tegraIvcWriteAdvance ivc := by
  refine erase_matched fun refused => ?_
  cases refused with
  | some e => rfl
  | none =>
    simp only [Prog.erase_bind, Prog.erase_lift, erase_maintainFrame, apply_ite Prog.erase]
    rfl

end

end Debug

/-- What the accesses of this end reach: its own positions, and the memory it shares with the peer. -/
structure Exposed where
  pos : Pos → Nat
  word : Side → Word → Nat
  byte : Side → Nat → UInt8

def Exposed.access : (a : Access) → Exposed → Noted.Ans Ans a × Exposed
  | .plain (.load c f), s => (s.word c f, s)
  | .plain (.store c f v), s =>
    ((), { s with word := fun c' f' => if c' = c ∧ f' = f then v else s.word c' f' })
  | .plain (.loadByte c i), s => (s.byte c i, s)
  | .plain (.storeByte c i b), s =>
    ((), { s with byte := fun c' i' => if c' = c ∧ i' = i then b else s.byte c' i' })
  | .plain (.invalidate _ _), s => ((), s)
  | .plain (.loadPos p), s => (s.pos p, s)
  | .plain (.storePos p v), s => ((), { s with pos := fun p' => if p' = p then v else s.pos p' })
  | .plain .notify, s => ((), s)
  | .note _, s => ((), s)

def Exposed.Tampered (s s' : Exposed) : Prop := s'.pos = s.pos

structure Frame where
  channel : Side
  offset : Nat

inductive EndCall where
  | read (maxRead : Nat)
  | readGetNextFrame
  | readAdvance
  | write (buf : List UInt8)
  | writeGetNextFrame
  | writeAdvance
  | channelReset
  | channelNotified
  | channelSync

section
variable (ivc : IvcParams)

def EndCall.body : EndCall → DebugM (Option Frame)
  | .read maxRead => do
    let _ ← Debug.read ivc maxRead
    return none
  | .readGetNextFrame => do
    let p ← Debug.readGetNextFrame ivc
    return p.map (Frame.mk .rx)
  | .readAdvance => do
    let _ ← (tegraIvcReadAdvance ivc).lift
    return none
  | .write buf => do
    let _ ← Debug.write ivc buf
    return none
  | .writeGetNextFrame => do
    let p ← Debug.writeGetNextFrame ivc
    return p.map (Frame.mk .tx)
  | .writeAdvance => do
    let _ ← Debug.writeAdvance ivc
    return none
  | .channelReset => do
    tegraIvcChannelReset.lift
    return none
  | .channelNotified => do
    let _ ← tegraIvcChannelNotified.lift
    return none
  | .channelSync => do
    let _ ← (tegraIvcChannelSync ivc).lift
    return none

def exposedEnd : Party Exposed Access (Noted.Ans Ans) (Option Frame) EndCall where
  exec s a r s' := s.access a = (r, s')
  start s _ _ s' := s' = s
  body _ c := c.body ivc

def absentEnd : Party Exposed Access (Noted.Ans Ans) Unit Empty where
  exec _ _ _ _ := False
  start _ _ _ _ := False
  body _ _ := .ret ()

def Hostile : Config Exposed Access (Noted.Ans Ans) (Option Frame) Unit →
    Config Exposed Access (Noted.Ans Ans) (Option Frame) Unit → Prop :=
  Interleave (exposedEnd ivc) absentEnd Exposed.Tampered

def Exposed.Allows (s : Exposed) : Access → Prop
  | .plain (.loadByte _ i) => i < ivc.nframes * ivc.frameSize
  | .plain (.storeByte _ i _) => i < ivc.nframes * ivc.frameSize
  | .note p => s.pos p < ivc.nframes
  | _ => True

def Frame.Inside (f : Frame) : Prop := f.offset + ivc.frameSize ≤ ivc.nframes * ivc.frameSize

/-- The access the end is about to make, or the frame its last call handed out, is in order. -/
def Exposed.Confined (s : Exposed) : DebugM (Option Frame) → Prop
  | .ret f => ∀ handed, f = some handed → handed.Inside ivc
  | .act a _ => s.Allows ivc a

def opInFrames : Prog.Contract Op Ans Unit
  | .load _ _, _, Q => ∀ v : Nat, Q v ()
  | .store _ _ _, _, Q => Q () ()
  | .loadByte _ i, _, Q => i < ivc.nframes * ivc.frameSize ∧ ∀ b : UInt8, Q b ()
  | .storeByte _ i _, _, Q => i < ivc.nframes * ivc.frameSize ∧ Q () ()
  | .invalidate _ _, _, Q => Q () ()
  | .loadPos _, _, Q => ∀ v : Nat, v < ivc.nframes → Q v ()
  | .storePos _ v, _, Q => v < ivc.nframes ∧ Q () ()
  | .notify, _, Q => Q () ()

def inFrames : Prog.Contract Access (Noted.Ans Ans) Unit
  | .plain op => opInFrames ivc op
  | .note _ => fun _ Q => Q () ()

/-- The program keeps to the frames and ends with `Q`. -/
def Keeps {α : Type} (p : DebugM α) (Q : α → Prop) : Prop := p.wp (inFrames ivc) () fun a _ => Q a

/-- What `tegra_ivc_init` checks, for a channel with frames. -/
structure Fits : Prop where
  frames : 0 < ivc.nframes
  index : ivc.nframes < 2 ^ 32
  bytes : ivc.nframes * ivc.frameSize < 2 ^ 32

variable {ivc}

section
variable {α β : Type} {Q : α → Prop} {R : β → Prop}

@[simp] theorem keeps_pure (a : α) : Keeps ivc (pure a) Q ↔ Q a := Iff.rfl

@[simp] theorem keeps_bind (p : DebugM α) (f : α → DebugM β) :
    Keeps ivc (p >>= f) R ↔ Keeps ivc p fun a => Keeps ivc (f a) R := by
  unfold Keeps
  rw [Prog.wp_bind]

@[simp] theorem keeps_ivcAssert (p : Pos) {Q : Unit → Prop} : Keeps ivc (Debug.ivcAssert p) Q ↔ Q () := Iff.rfl

@[simp] theorem keeps_lift_ite (c : Prop) [Decidable c] (p q : IvcM α) :
    Keeps ivc (if c then p else q).lift Q ↔ if c then Keeps ivc p.lift Q else Keeps ivc q.lift Q := by
  split <;> rfl

@[simp] theorem keeps_ite (c : Prop) [Decidable c] (p q : DebugM α) :
    Keeps ivc (if c then p else q) Q ↔ if c then Keeps ivc p Q else Keeps ivc q Q := by
  split <;> rfl

@[simp] theorem keeps_load (c : Side) (f : Word) {Q : Nat → Prop} : Keeps ivc (load c f).lift Q ↔ ∀ v, Q v := Iff.rfl

@[simp] theorem keeps_store (c : Side) (f : Word) (v : Nat) {Q : Unit → Prop} :
    Keeps ivc (store c f v).lift Q ↔ Q () := Iff.rfl

@[simp] theorem keeps_loadByte (c : Side) (i : Nat) {Q : UInt8 → Prop} :
    Keeps ivc (loadByte c i).lift Q ↔ i < ivc.nframes * ivc.frameSize ∧ ∀ b, Q b := Iff.rfl

@[simp] theorem keeps_storeByte (c : Side) (i : Nat) (b : UInt8) {Q : Unit → Prop} :
    Keeps ivc (storeByte c i b).lift Q ↔ i < ivc.nframes * ivc.frameSize ∧ Q () := Iff.rfl

@[simp] theorem keeps_invalidate (c : Side) (f : Word) {Q : Unit → Prop} :
    Keeps ivc (ivcCacheInvalidate c f).lift Q ↔ Q () := Iff.rfl

@[simp] theorem keeps_loadPos (p : Pos) {Q : Nat → Prop} :
    Keeps ivc (loadPos p).lift Q ↔ ∀ v, v < ivc.nframes → Q v := Iff.rfl

@[simp] theorem keeps_storePos (p : Pos) (v : Nat) {Q : Unit → Prop} :
    Keeps ivc (storePos p v).lift Q ↔ v < ivc.nframes ∧ Q () := Iff.rfl

@[simp] theorem keeps_notify {Q : Unit → Prop} : Keeps ivc notify.lift Q ↔ Q () := Iff.rfl

end

variable {c : Side}

theorem keeps_channelEmpty {Q : Bool → Prop} (next : ∀ b, Q b) :
    Keeps ivc (ivcChannelEmpty ivc c).lift Q := by
  simp [ivcChannelEmpty, next]

theorem keeps_channelFull {Q : Bool → Prop} (next : ∀ b, Q b) : Keeps ivc (ivcChannelFull ivc c).lift Q := by
  simp [ivcChannelFull, next]

theorem keeps_availCount {Q : Nat → Prop} (next : ∀ n, Q n) : Keeps ivc (ivcChannelAvailCount c).lift Q := by
  simp [ivcChannelAvailCount, next]

variable {Q : Option Errno → Prop}

theorem keeps_checkRead (next : ∀ e, Q e) : Keeps ivc (ivcCheckRead ivc).lift Q := by
  simp [ivcCheckRead, keeps_channelEmpty, next]

theorem keeps_checkWrite (next : ∀ e, Q e) : Keeps ivc (ivcCheckWrite ivc).lift Q := by
  simp [ivcCheckWrite, keeps_channelFull, next]

theorem keeps_loadBytes {n p : Nat} {Q : List UInt8 → Prop}
    (inside : p + n ≤ ivc.nframes * ivc.frameSize) (next : ∀ bs, Q bs) : Keeps ivc (loadBytes c p n).lift Q := by
  induction n generalizing p Q with
  | zero => exact next _
  | succ n ih =>
    simp only [loadBytes, Prog.lift_bind, keeps_bind, keeps_loadByte]
    refine ⟨by omega, ?_⟩
    intro b
    apply ih (by omega)
    intro bs
    exact next _

theorem keeps_storeBytes {bs : List UInt8} {p : Nat} {Q : Unit → Prop}
    (inside : p + bs.length ≤ ivc.nframes * ivc.frameSize) (next : Q ()) : Keeps ivc (storeBytes c p bs).lift Q := by
  induction bs generalizing p with
  | nil => exact next
  | cons b bs ih =>
    rw [List.length_cons] at inside
    simp only [storeBytes, Prog.lift_bind, keeps_bind, keeps_storeByte]
    exact ⟨by omega, ih (by omega)⟩

def Exposed.Placed (ivc : IvcParams) (s : Exposed) (_ _ : Unit) : Prop := ∀ p, s.pos p < ivc.nframes

theorem placed_access {s : Exposed} {a : Access} {Q : Noted.Ans Ans a → Unit → Prop}
    (placed : s.Placed ivc () ()) (kept : inFrames ivc a () Q) :
    Q (s.access a).1 () ∧ (s.access a).2.Placed ivc () () := by
  cases a with
  | note p => exact ⟨kept, placed⟩
  | plain op =>
    cases op with
    | load c f => exact ⟨kept _, placed⟩
    | store c f v => exact ⟨kept, placed⟩
    | loadByte c i => exact ⟨kept.2 _, placed⟩
    | storeByte c i b => exact ⟨kept.2, placed⟩
    | invalidate c f => exact ⟨kept, placed⟩
    | loadPos p => exact ⟨kept _ (placed p), placed⟩
    | storePos p v =>
      refine ⟨kept.2, ?_⟩
      intro p'
      show (if p' = p then v else s.pos p') < ivc.nframes
      split
      · exact kept.1
      · exact placed p'
    | notify => exact ⟨kept, placed⟩

def Exposed.Held (ivc : IvcParams) :
    Config Exposed Access (Noted.Ans Ans) (Option Frame) Unit → Prop :=
  Kept (Exposed.Placed ivc) (inFrames ivc) (fun _ _ _ => True)
    (fun f _ => ∀ handed, f = some handed → handed.Inside ivc) fun _ _ => True

variable (fits : Fits ivc)
include fits

theorem nextPos_lt {pos : Nat} (below : pos < ivc.nframes) : nextPos ivc pos < ivc.nframes := by
  have frames := fits.frames
  have index := fits.index
  unfold nextPos sub32 add32
  split
  · exact frames
  · omega

theorem ivcFramePointer_inside {frame : Nat} (below : frame < ivc.nframes) :
    ivcFramePointer ivc frame + ivc.frameSize ≤ ivc.nframes * ivc.frameSize := by
  have upTo : (frame + 1) * ivc.frameSize ≤ ivc.nframes * ivc.frameSize :=
    Nat.mul_le_mul_right _ below
  have small := fits.bytes
  rw [Nat.succ_mul] at upTo
  unfold ivcFramePointer mul32
  rw [Nat.mul_comm, Nat.mod_eq_of_lt (by omega)]
  exact upTo

theorem keeps_advanceTx {Q : Unit → Prop} (next : Q ()) : Keeps ivc (ivcAdvanceTx ivc).lift Q := by
  simp only [ivcAdvanceTx, Prog.lift_bind, keeps_bind, keeps_load, keeps_store, keeps_loadPos, keeps_storePos]
  intro wCount wPos below
  exact ⟨nextPos_lt fits below, next⟩

theorem keeps_advanceRx {Q : Unit → Prop} (next : Q ()) : Keeps ivc (ivcAdvanceRx ivc).lift Q := by
  simp only [ivcAdvanceRx, Prog.lift_bind, keeps_bind, keeps_load, keeps_store, keeps_loadPos, keeps_storePos]
  intro rCount rPos below
  exact ⟨nextPos_lt fits below, next⟩

theorem keeps_framePointer {p : Pos} {Q : Nat → Prop}
    (next : ∀ i, i + ivc.frameSize ≤ ivc.nframes * ivc.frameSize → Q i) : Keeps ivc (Debug.framePointer ivc p) Q := by
  simp only [Debug.framePointer, keeps_bind, keeps_ivcAssert, keeps_loadPos, keeps_pure]
  intro frame below
  exact next _ (ivcFramePointer_inside fits below)

theorem keeps_read (maxRead : Nat) {Q : Except Errno (List UInt8) → Prop}
    (next : ∀ r, Q r) : Keeps ivc (Debug.read ivc maxRead) Q := by
  unfold Debug.read
  by_cases large : ivc.frameSize < maxRead
  · rw [if_pos large]
    exact next _
  rw [if_neg large, keeps_bind]
  apply keeps_checkRead
  intro refused
  cases refused with
  | some e => exact next _
  | none =>
    simp only [Debug.maintainFrame, keeps_bind, keeps_ivcAssert]
    apply keeps_framePointer fits
    intro src inside
    apply keeps_loadBytes (by omega)
    intro buf
    apply keeps_advanceRx fits
    simp [keeps_availCount, next]

theorem keeps_readGetNextFrame {Q : Option Nat → Prop} (null : Q none)
    (next : ∀ i, i + ivc.frameSize ≤ ivc.nframes * ivc.frameSize → Q (some i)) :
    Keeps ivc (Debug.readGetNextFrame ivc) Q := by
  unfold Debug.readGetNextFrame
  rw [keeps_bind]
  apply keeps_checkRead
  intro refused
  cases refused with
  | some e => exact null
  | none =>
    simp only [Debug.maintainFrame, keeps_bind, keeps_ivcAssert]
    apply keeps_framePointer fits
    intro i inside
    exact next i inside

theorem keeps_readAdvance {Q : Except Errno Unit → Prop}
    (next : ∀ r, Q r) : Keeps ivc (tegraIvcReadAdvance ivc).lift Q := by
  unfold tegraIvcReadAdvance
  rw [Prog.lift_bind, keeps_bind]
  apply keeps_checkRead
  intro refused
  cases refused with
  | some e => exact next _
  | none =>
    simp only [Prog.lift_bind, keeps_bind]
    apply keeps_advanceRx fits
    simp [keeps_availCount, next]

theorem keeps_write (buf : List UInt8) {Q : Except Errno Nat → Prop}
    (next : ∀ r, Q r) : Keeps ivc (Debug.write ivc buf) Q := by
  unfold Debug.write
  by_cases large : ivc.frameSize < buf.length
  · rw [if_pos large]
    exact next _
  rw [if_neg large, keeps_bind]
  apply keeps_checkWrite
  intro refused
  cases refused with
  | some e => exact next _
  | none =>
    rw [keeps_bind]
    apply keeps_framePointer fits
    intro p inside
    simp only [Debug.maintainFrame, keeps_bind, keeps_ivcAssert]
    apply keeps_storeBytes (by omega)
    apply keeps_storeBytes (by rw [List.length_replicate]; omega)
    apply keeps_advanceTx fits
    simp [keeps_availCount, next]

theorem keeps_writeGetNextFrame {Q : Option Nat → Prop} (null : Q none)
    (next : ∀ i, i + ivc.frameSize ≤ ivc.nframes * ivc.frameSize → Q (some i)) :
    Keeps ivc (Debug.writeGetNextFrame ivc) Q := by
  unfold Debug.writeGetNextFrame
  rw [keeps_bind]
  apply keeps_checkWrite
  intro refused
  cases refused with
  | some e => exact null
  | none =>
    rw [keeps_bind]
    apply keeps_framePointer fits
    intro i inside
    exact next i inside

theorem keeps_writeAdvance {Q : Except Errno Unit → Prop}
    (next : ∀ r, Q r) : Keeps ivc (Debug.writeAdvance ivc) Q := by
  unfold Debug.writeAdvance
  rw [keeps_bind]
  apply keeps_checkWrite
  intro refused
  cases refused with
  | some e => exact next _
  | none =>
    simp only [Debug.maintainFrame, keeps_bind, keeps_ivcAssert]
    apply keeps_advanceTx fits
    simp [keeps_availCount, next]

theorem keeps_clearAndMove (state : Nat) {Q : Unit → Prop} (next : Q ()) :
    Keeps ivc (clearAndMove state).lift Q := by
  simp [clearAndMove, fits.frames, next]

theorem keeps_channelNotified
    (next : ∀ r, Q r) : Keeps ivc tegraIvcChannelNotified.lift Q := by
  simp [tegraIvcChannelNotified, keeps_clearAndMove fits, next]

theorem keeps_channelSync
    (next : ∀ r, Q r) : Keeps ivc (tegraIvcChannelSync ivc).lift Q := by
  unfold tegraIvcChannelSync
  rw [if_neg (Nat.ne_of_gt fits.frames)]
  simp [Nat.mod_lt _ fits.frames, next]

theorem keeps_body (call : EndCall) :
    Keeps ivc (call.body ivc) fun f => ∀ handed, f = some handed → handed.Inside ivc := by
  have silent (handed : Frame) (absurd : none = some handed) : handed.Inside ivc := by cases absurd
  have given (c : Side) (i : Nat) (inside : i + ivc.frameSize ≤ ivc.nframes * ivc.frameSize)
      (handed : Frame) (same : some (Frame.mk c i) = some handed) : handed.Inside ivc := by
    cases same
    exact inside
  cases call with
  | read maxRead => exact (keeps_bind _ _).mpr (keeps_read fits maxRead fun _ => silent)
  | readGetNextFrame =>
    exact (keeps_bind _ _).mpr (keeps_readGetNextFrame fits silent (given .rx))
  | readAdvance => exact (keeps_bind _ _).mpr (keeps_readAdvance fits fun _ => silent)
  | write buf => exact (keeps_bind _ _).mpr (keeps_write fits buf fun _ => silent)
  | writeGetNextFrame =>
    exact (keeps_bind _ _).mpr (keeps_writeGetNextFrame fits silent (given .tx))
  | writeAdvance => exact (keeps_bind _ _).mpr (keeps_writeAdvance fits fun _ => silent)
  | channelReset => exact silent
  | channelNotified => exact (keeps_bind _ _).mpr (keeps_channelNotified fits fun _ => silent)
  | channelSync => exact (keeps_bind _ _).mpr (keeps_channelSync fits fun _ => silent)

theorem held_run {c c' : Config Exposed Access (Noted.Ans Ans) (Option Frame) Unit}
    (run : Relation.ReflTransGen (Hostile ivc) c c') (held : Exposed.Held ivc c) : Exposed.Held ivc c' := by
  refine kept_run ?_ ?_ ?_ ?_ ?_ run held
  · intro s a r s' _ _ Q placed kept access
    have after := placed_access placed kept
    rw [show s.access a = (r, s') from access] at after
    exact ⟨(), after⟩
  · intro s f call s' _ _ placed _ start
    rw [show s' = s from start]
    exact ⟨(), keeps_body fits call, placed⟩
  · intro s a r s' _ _ Q _ _ access
    exact access.elim
  · intro s _ call s' _ _ _ _ start
    exact start.elim
  · intro s s' _ _ placed tampered p
    rw [show s'.pos = s.pos from tampered]
    exact placed p

omit fits

theorem confined_of_held {c : Config Exposed Access (Noted.Ans Ans) (Option Frame) Unit}
    (held : Exposed.Held ivc c) : (∀ p, c.state.pos p < ivc.nframes) ∧ c.state.Confined ivc c.left := by
  obtain ⟨_, _, placed, kept, _⟩ := held
  refine ⟨placed, ?_⟩
  obtain ⟨s, prog, right⟩ := c
  cases prog with
  | ret f => exact kept
  | act a next =>
    cases a with
    | note p => exact placed p
    | plain op =>
      cases op with
      | loadByte c i => exact kept.1
      | storeByte c i b => exact kept.1
      | _ => trivial

theorem fits_of_init {rxBase txBase : UInt64} {nframes frameSize : UInt32} {ivc : IvcInstance}
    (init : tegraIvcInit rxBase txBase nframes frameSize = .ok ivc) (frames : 1 ≤ nframes.toNat) :
    Fits ivc.toIvcParams ∧ ivc.wPos = 0 ∧ ivc.rPos = 0 := by
  unfold tegraIvcInit at init
  split at init
  · cases init
  rename_i checked
  split at init
  · cases init
  cases init
  have small : nframes.toNat * frameSize.toNat < 0x100000000 := by
    unfold checkIvcParams at checked
    split at checked
    · cases checked
    · omega
  exact ⟨⟨frames, nframes.toNat_lt, small⟩, rfl, rfl⟩

end

/-- An `ivc` between calls, with what the shared memory holds. -/
def IvcInstance.idle (ivc : IvcInstance) (word : Side → Word → Nat) (byte : Side → Nat → UInt8) :
    Config Exposed Access (Noted.Ans Ans) (Option Frame) Unit where
  state := {
    pos := fun
      | .w => ivc.wPos
      | .r => ivc.rPos
    word, byte }
  left := .ret none
  right := .ret ()

/-- However the peer behaves, both positions name frames, no assertion is about to fail, and no byte outside the frames
is reached or handed out. -/
theorem hostile_peer {rxBase txBase : UInt64} {nframes frameSize : UInt32} {ivc : IvcInstance}
    (init : tegraIvcInit rxBase txBase nframes frameSize = .ok ivc) (frames : 1 ≤ nframes.toNat)
    (word : Side → Word → Nat) (byte : Side → Nat → UInt8)
    {c : Config Exposed Access (Noted.Ans Ans) (Option Frame) Unit}
    (run : Relation.ReflTransGen (Hostile ivc.toIvcParams) (ivc.idle word byte) c) :
    c.state.pos .w < ivc.nframes ∧ c.state.pos .r < ivc.nframes ∧ c.state.Confined ivc.toIvcParams c.left := by
  obtain ⟨fits, wPos, rPos⟩ := fits_of_init init frames
  have held : Exposed.Held ivc.toIvcParams (ivc.idle word byte) := by
    refine ⟨(), (), ?_, ?_, trivial⟩
    · intro p
      cases p with
      | w => exact lt_of_eq_of_lt wPos fits.frames
      | r => exact lt_of_eq_of_lt rPos fits.frames
    · intro handed absurd
      cases absurd
  obtain ⟨placed, confined⟩ := confined_of_held (held_run fits run held)
  exact ⟨placed .w, placed .r, confined⟩

theorem hostile_call {ivc : IvcParams} (s : Exposed) (f : Option Frame) (call : EndCall)
    (peer : Prog Access (Noted.Ans Ans) Unit) : Hostile ivc ⟨s, .ret f, peer⟩ ⟨s, call.body ivc, peer⟩ :=
  Interleave.leftCall (T := exposedEnd ivc) (a := f) (c := call) rfl

theorem hostile_access {ivc : IvcParams} (s : Exposed) (a : Access)
    (next : Noted.Ans Ans a → DebugM (Option Frame)) (peer : Prog Access (Noted.Ans Ans) Unit) :
    Hostile ivc ⟨s, .act a next, peer⟩ ⟨(s.access a).2, next (s.access a).1, peer⟩ :=
  Interleave.leftAct (T := exposedEnd ivc) rfl

/-- The peer raises every counter, and this end synchronises on them. -/
theorem hostile_peer_sync : ∃ ivc c, tegraIvcInit 0 0x1000 4 64 = .ok ivc ∧
    Relation.ReflTransGen (Hostile ivc.toIvcParams) (ivc.idle (fun _ _ => 0) fun _ _ => 0) c ∧
    c.state.pos .w = 3 ∧ c.state.Confined ivc.toIvcParams c.left := by
  have tampered : Hostile ⟨4, 64⟩
      (IvcInstance.idle ⟨⟨4, 64⟩, 0, 0x1000, 0, 0⟩ (fun _ _ => 0) fun _ _ => 0)
      ⟨⟨fun _ => 0, fun _ _ => 0xFFFFFFFF, fun _ _ => 0⟩, .ret none, .ret ()⟩ := by
    refine .env ?_
    funext p
    cases p with
    | w => rfl
    | r => rfl
  have run := (((Relation.ReflTransGen.single tampered).tail
    (hostile_call _ _ .channelSync _)).tail (hostile_access _ _ _ _)).tail (hostile_access _ _ _ _)
  have init : tegraIvcInit 0 0x1000 4 64 = .ok ⟨⟨4, 64⟩, 0, 0x1000, 0, 0⟩ := rfl
  exact ⟨_, _, init, run, rfl, (hostile_peer init (by decide) _ _ run).2.2⟩

/-- `sizeof(struct ivc_channel_header)`, with the frames behind it. -/
def queueBytes (nframes frameSize : UInt32) : Nat := 2 * ivcAlign + nframes.toNat * frameSize.toNat

structure Apart (rxBase txBase : UInt64) (nframes frameSize : UInt32) : Prop where
  frames : 1 ≤ nframes.toNat
  disjoint : rxBase.toNat + queueBytes nframes frameSize ≤ txBase.toNat ∨
    txBase.toNat + queueBytes nframes frameSize ≤ rxBase.toNat
  rx : rxBase.toNat + queueBytes nframes frameSize ≤ 2 ^ 64
  tx : txBase.toNat + queueBytes nframes frameSize ≤ 2 ^ 64

/-- Sizes and alignments that are looked at before the bases are compared, and after. -/
def Malformed (rxBase txBase : UInt64) (nframes frameSize : UInt32) : Prop :=
  0x100000000 ≤ nframes.toNat * frameSize.toNat ∨ rxBase.toNat % ivcAlign ≠ 0 ∨ txBase.toNat % ivcAlign ≠ 0 ∨
    frameSize.toNat % ivcAlign ≠ 0 ∨ 2 ^ 31 < frameSize.toNat

variable {nframes frameSize : UInt32}

theorem checkIvcParams_none_iff {rxBase txBase : UInt64}
    (formed : ¬ Malformed rxBase txBase nframes frameSize) : checkIvcParams rxBase txBase nframes frameSize = none ↔
      (min rxBase.toNat txBase.toNat + nframes.toNat * frameSize.toNat) % 2 ^ 64 ≤ max rxBase.toNat txBase.toNat := by
  obtain ⟨bytes, rx, tx, size, -⟩ : _ ∧ _ ∧ _ ∧ _ ∧ _ := by
    simpa only [Malformed, not_or, Decidable.not_not, Nat.not_le, Nat.not_lt] using formed
  have product : (frameSize * nframes).toUInt64.toNat = nframes.toNat * frameSize.toNat := by
    rw [UInt32.toNat_toUInt64, UInt32.toNat_mul, Nat.mul_comm, Nat.mod_eq_of_lt bytes]
  rw [checkIvcParams, if_neg (Nat.not_le.mpr bytes), if_neg (not_not_intro rx), if_neg (not_not_intro tx),
    if_neg (not_not_intro size)]
  simp only [UInt64.lt_iff_toNat_lt, UInt64.toNat_add, product]
  by_cases lower : rxBase.toNat < txBase.toNat
  · rw [if_pos lower, Nat.min_eq_left (Nat.le_of_lt lower), Nat.max_eq_right (Nat.le_of_lt lower)]
    simp
  · rw [if_neg lower, Nat.min_eq_right (Nat.not_lt.mp lower), Nat.max_eq_left (Nat.not_lt.mp lower)]
    simp

theorem tegraIvcInit_ok_iff {rxBase txBase : UInt64} :
    (∃ ivc, tegraIvcInit rxBase txBase nframes frameSize = .ok ivc) ↔ ¬ Malformed rxBase txBase nframes frameSize ∧
      (min rxBase.toNat txBase.toNat + nframes.toNat * frameSize.toNat) % 2 ^ 64 ≤ max rxBase.toNat txBase.toNat := by
  constructor
  · rintro ⟨ivc, init⟩
    unfold tegraIvcInit at init
    split at init
    · cases init
    · rename_i checked
      split at init
      · cases init
      · rename_i small
        have formed : ¬ Malformed rxBase txBase nframes frameSize := by
          unfold checkIvcParams at checked
          split at checked
          · cases checked
          · rename_i bytes
            split at checked
            · cases checked
            · rename_i rx
              split at checked
              · cases checked
              · rename_i tx
                split at checked
                · cases checked
                · rename_i size
                  simp only [Malformed, not_or]
                  exact ⟨bytes, rx, tx, size, small⟩
        exact ⟨formed, (checkIvcParams_none_iff formed).mp checked⟩
  · rintro ⟨formed, apart⟩
    have checked := (checkIvcParams_none_iff formed).mpr apart
    have small : ¬ 2 ^ 31 < frameSize.toNat := fun large => formed (.inr (.inr (.inr (.inr large))))
    rw [tegraIvcInit, checked]
    exact ⟨_, if_neg small⟩

/-- What the check of the bases leaves out: a queue without frames, the header, and the end of the address space. -/
theorem tegraIvcInit_apart_iff (rxBase txBase : UInt64) (nframes frameSize : UInt32) :
    ((∃ ivc, tegraIvcInit rxBase txBase nframes frameSize = .ok ivc) → Apart rxBase txBase nframes frameSize) ↔
      Malformed rxBase txBase nframes frameSize ∨
      (max rxBase.toNat txBase.toNat < min rxBase.toNat txBase.toNat + nframes.toNat * frameSize.toNat ∧
        min rxBase.toNat txBase.toNat + nframes.toNat * frameSize.toNat < 2 ^ 64) ∨ (nframes ≠ 0 ∧
        min rxBase.toNat txBase.toNat + nframes.toNat * frameSize.toNat + 2 * ivcAlign ≤ max rxBase.toNat txBase.toNat ∧
        max rxBase.toNat txBase.toNat + nframes.toNat * frameSize.toNat + 2 * ivcAlign ≤ 2 ^ 64) := by
  rw [tegraIvcInit_ok_iff]
  have rx := rxBase.toNat_lt
  have tx := txBase.toNat_lt
  by_cases formed : Malformed rxBase txBase nframes frameSize
  · exact ⟨fun _ => .inl formed, fun _ init => absurd formed init.1⟩
  · have bytes : nframes.toNat * frameSize.toNat < 2 ^ 32 := Nat.lt_of_not_le fun many => formed (.inl many)
    have some_frames : nframes ≠ 0 ↔ 1 ≤ nframes.toNat := by
      rw [← UInt32.pos_iff_ne_zero]
      exact UInt32.lt_iff_toNat_lt
    have apart_iff : Apart rxBase txBase nframes frameSize ↔ 1 ≤ nframes.toNat ∧
        min rxBase.toNat txBase.toNat + nframes.toNat * frameSize.toNat + 2 * ivcAlign ≤ max rxBase.toNat txBase.toNat ∧
        max rxBase.toNat txBase.toNat + nframes.toNat * frameSize.toNat + 2 * ivcAlign ≤ 2 ^ 64 := by
      constructor
      · rintro ⟨frames, disjoint, endRx, endTx⟩
        rw [queueBytes] at disjoint endRx endTx
        exact ⟨frames, by omega⟩
      · rintro ⟨frames, disjoint, last⟩
        constructor
        · exact frames
        all_goals
          rw [queueBytes]
          omega
    rw [apart_iff, some_frames]
    generalize nframes.toNat * frameSize.toNat = n at bytes ⊢
    constructor
    · intro init
      by_cases overlap : max rxBase.toNat txBase.toNat < min rxBase.toNat txBase.toNat + n ∧ min rxBase.toNat txBase.toNat + n < 2 ^ 64
      · exact .inr (.inl overlap)
      · exact .inr (.inr (init ⟨formed, by omega⟩))
    · rintro (malformed | overlap | apart) init
      · exact absurd malformed formed
      · omega
      · exact apart

/-- The frames of the lower queue and the header of the higher one are at the same place. -/
theorem tegraIvcInit_meets : tegraIvcInit 0 64 1 64 = .ok ⟨⟨1, 64⟩, 0, 64, 0, 0⟩ ∧ ¬ Apart 0 64 1 64 ∧
    tegraIvcInit 0 0 0 64 = .ok ⟨⟨0, 64⟩, 0, 0, 0, 0⟩ ∧ ¬ Apart 0 0 0 64 ∧
    tegraIvcInit 0 0xFFFFFFFFFFFFFFC0 1 64 = .ok ⟨⟨1, 64⟩, 0, 0xFFFFFFFFFFFFFFC0, 0, 0⟩ ∧
    ¬ Apart 0 0xFFFFFFFFFFFFFFC0 1 64 := by
  refine ⟨rfl, fun apart => ?_, rfl, fun apart => ?_, rfl, fun apart => ?_⟩
  · exact absurd apart.disjoint (by decide)
  · exact absurd apart.frames (by decide)
  · exact absurd apart.tx (by decide)

end Cboot.Ivc
