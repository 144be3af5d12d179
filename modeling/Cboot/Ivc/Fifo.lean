import Mathlib.Data.Nat.ModEq
import Cboot.Ivc.Model

/-!
One direction of a channel pair with both ends established.
-/

namespace Cboot.Ivc
open Lib

/-- The bytes `[p, p + n)` of the frame area. -/
def bytesAt (data : Nat → UInt8) (p n : Nat) : List UInt8 := (List.range n).map fun i => data (p + i)

/-- One direction: the shared words and frames, the position of each end and its cached copy of the peer's counter. -/
structure Link where
  wCount : Nat
  rCount : Nat
  txState : Nat
  rxState : Nat
  data : Nat → UInt8
  wPos : Nat
  rPos : Nat
  seenW : Option Nat := none
  seenR : Option Nat := none
  frame : Option (List UInt8) := none
  copied : Option (List UInt8) := none
  sent : List (List UInt8) := []
  received : List (List UInt8) := []

section
variable (ivc : IvcParams)

def padded (buf : List UInt8) : List UInt8 :=
  buf ++ List.replicate (ivc.frameSize - buf.length) 0

def senderAccess (s : Link) : (op : Op) → Option (Ans op × Link)
  | .load .tx .state => some (s.txState, s)
  | .load .tx .wCount => some (s.wCount, s)
  | .load .tx .rCount =>
    match s.seenR with
    | some v => some (v, s)
    | none => some (s.rCount, { s with seenR := some s.rCount })
  | .store .tx .wCount v =>
    let shown := bytesAt s.data (ivcFramePointer ivc s.wPos) ivc.frameSize
    some ((), { s with wCount := v, sent := s.sent ++ [s.frame.getD shown] })
  | .storeByte .tx i b => some ((), { s with data := Function.update s.data i b })
  | .invalidate .tx .rCount => some ((), { s with seenR := none })
  | .loadPos .w => some (s.wPos, s)
  | .storePos .w v => some ((), { s with wPos := v })
  | .notify => some ((), s)
  | _ => none

def receiverAccess (s : Link) : (op : Op) → Option (Ans op × Link)
  | .load .tx .state => some (s.rxState, s)
  | .load .rx .rCount => some (s.rCount, s)
  | .load .rx .wCount =>
    match s.seenW with
    | some v => some (v, s)
    | none => some (s.wCount, { s with seenW := some s.wCount })
  | .store .rx .rCount v =>
    let shown := bytesAt s.data (ivcFramePointer ivc s.rPos) ivc.frameSize
    some ((), { s with rCount := v, received := s.received ++ [s.copied.getD shown], copied := none })
  | .loadByte .rx i => some (s.data i, { s with copied := s.copied.map (· ++ [s.data i]) })
  | .invalidate .rx .wCount => some ((), { s with seenW := none })
  | .loadPos .r => some (s.rPos, s)
  | .storePos .r v => some ((), { s with rPos := v })
  | .notify => some ((), s)
  | _ => none

/-- What the sending client knows between calls: the frame pointer it holds, and the buffer of the
last call when that was a successful write. -/
structure TxClient where
  held : Option Nat := none
  wrote : Option (List UInt8) := none

inductive TxCall where
  | write (buf : List UInt8)
  | getNextFrame
  | fill (off : Nat) (b : UInt8)
  | advance

/-- What the receiving client knows between calls. -/
structure RxClient where
  held : Option Nat := none
  got : Option (Nat × List UInt8) := none
  peeked : Option (Nat × UInt8) := none

inductive RxCall where
  | read (maxRead : Nat)
  | getNextFrame
  | peek (off : Nat)
  | advance

def senderBody (a : TxClient) : TxCall → IvcM TxClient
  | .write buf => do
    match ← tegraIvcWrite ivc buf with
    | .ok _ => return { wrote := some buf }
    | .error _ => return { held := a.held }
  | .getNextFrame => do
    let held ← tegraIvcWriteGetNextFrame ivc
    return { held := held }
  | .fill off b =>
    match a.held with
    | some p => do
      storeByte .tx (p + off) b
      return { held := a.held }
    | none => return {}
  | .advance => do
    match ← tegraIvcWriteAdvance ivc with
    | .ok _ => return {}
    | .error _ => return { held := a.held }

def receiverBody (a : RxClient) : RxCall → IvcM RxClient
  | .read maxRead => do
    match ← tegraIvcRead ivc maxRead with
    | .ok buf => return { got := some (maxRead, buf) }
    | .error _ => return { held := a.held }
  | .getNextFrame => do
    let held ← tegraIvcReadGetNextFrame ivc
    return { held := held }
  | .peek off =>
    match a.held with
    | some p => do
      let b ← loadByte .rx (p + off)
      return { held := a.held, peeked := some (off, b) }
    | none => return {}
  | .advance => do
    match ← tegraIvcReadAdvance ivc with
    | .ok _ => return {}
    | .error _ => return { held := a.held }

def TxCall.inFrame : TxCall → Prop
  | .fill off _ => off < ivc.frameSize
  | _ => True

def RxCall.inFrame : RxCall → Prop
  | .peek off => off < ivc.frameSize
  | _ => True

def TxCall.frame : TxCall → Option (List UInt8)
  | .write buf => some (padded ivc buf)
  | _ => none

def RxCall.copied : RxCall → Option (List UInt8)
  | .read _ => some []
  | _ => none

def sender : Party Link Op Ans TxClient TxCall where
  exec s op r s' := senderAccess ivc s op = some (r, s')
  start s _ c s' := c.inFrame ivc ∧ s' = { s with frame := c.frame ivc }
  body := senderBody ivc

def receiver : Party Link Op Ans RxClient RxCall where
  exec s op r s' := receiverAccess ivc s op = some (r, s')
  start s _ c s' := c.inFrame ivc ∧ s' = { s with copied := c.copied }
  body := receiverBody ivc

def evict (s s' : Link) : Prop := s' = { s with seenW := none } ∨ s' = { s with seenR := none }

end

structure TxView where
  count : Nat
  known : Nat
  pos : Nat
  data : Nat → UInt8
  frame : Option (List UInt8)
  last : Option (List UInt8)

structure RxView where
  count : Nat
  known : Nat
  pos : Nat
  copied : Option (List UInt8)
  peek : Option (Nat × UInt8)
  last : Option (List UInt8)

section
variable (ivc : IvcParams) (c₀ p₀ : Nat)

def tick (i : Nat) : Nat := (c₀ + i) % 2 ^ 32

def slot (i : Nat) : Nat := (p₀ + i) % ivc.nframes

/-- The sender knows that at least `known` frames were consumed. -/
def txContract : Prog.Contract Op Ans TxView
  | .load .tx .state, g, Q => Q ivcStateEstablished g
  | .load .tx .wCount, g, Q => Q (tick c₀ g.count) g
  | .load .tx .rCount, g, Q =>
    ∀ k, g.known ≤ k → k ≤ g.count → Q (tick c₀ k) { g with known := k }
  | .store .tx .wCount v, g, Q =>
    v = tick c₀ (g.count + 1) ∧ g.count < g.known + ivc.nframes ∧ g.pos = slot ivc p₀ g.count ∧ (∀ f, g.frame = some f →
        bytesAt g.data (ivc.frameSize * slot ivc p₀ g.count) ivc.frameSize = f) ∧
      Q () { g with count := g.count + 1, last := g.frame }
  | .storeByte .tx i b, g, Q =>
    g.count < g.known + ivc.nframes ∧ (∃ off, off < ivc.frameSize ∧ i = ivc.frameSize * slot ivc p₀ g.count + off) ∧
      Q () { g with data := Function.update g.data i b }
  | .invalidate .tx .rCount, g, Q => Q () g
  | .loadPos .w, g, Q => Q g.pos g
  | .storePos .w v, g, Q => Q () { g with pos := v }
  | .notify, g, Q => Q () g
  | _, _, _ => False

/-- The receiver knows that at least `known` frames were published. -/
def rxContract : Prog.Contract Op Ans RxView
  | .load .tx .state, g, Q => Q ivcStateEstablished g
  | .load .rx .rCount, g, Q => Q (tick c₀ g.count) g
  | .load .rx .wCount, g, Q =>
    ∀ k, g.known ≤ k → k ≤ g.count + ivc.nframes → Q (tick c₀ k) { g with known := k }
  | .store .rx .rCount v, g, Q =>
    v = tick c₀ (g.count + 1) ∧ g.count < g.known ∧ g.pos = slot ivc p₀ g.count ∧
      Q () { g with count := g.count + 1, copied := none, peek := none, last := g.copied }
  | .loadByte .rx i, g, Q =>
    g.count < g.known ∧ ∃ off, off < ivc.frameSize ∧ i = ivc.frameSize * slot ivc p₀ g.count + off ∧
        (∀ bs, g.copied = some bs → off = bs.length) ∧
        ∀ b : UInt8, Q b { g with copied := g.copied.map (· ++ [b]), peek := some (off, b) }
  | .invalidate .rx .wCount, g, Q => Q () g
  | .loadPos .r, g, Q => Q g.pos g
  | .storePos .r v, g, Q => Q () { g with pos := v }
  | .notify, g, Q => Q () g
  | _, _, _ => False

structure Tied (s : Link) (g : TxView) (h : RxView) : Prop where
  sent : s.sent.length = g.count
  received : s.received.length = h.count
  wCount : s.wCount = tick c₀ g.count
  rCount : s.rCount = tick c₀ h.count
  txState : s.txState = ivcStateEstablished
  rxState : s.rxState = ivcStateEstablished
  wPos : s.wPos = g.pos
  rPos : s.rPos = h.pos
  data : s.data = g.data
  frame : s.frame = g.frame
  copied : s.copied = h.copied
  order : g.known ≤ h.count ∧ h.count ≤ h.known ∧ h.known ≤ g.count ∧ g.count ≤ g.known + ivc.nframes
  seenR : ∀ v, s.seenR = some v → ∃ k, g.known ≤ k ∧ k ≤ h.count ∧ v = tick c₀ k
  seenW : ∀ v, s.seenW = some v → ∃ k, h.known ≤ k ∧ k ≤ g.count ∧ v = tick c₀ k
  whole : ∀ f ∈ s.sent, f.length = ivc.frameSize
  slots : ∀ (i : Nat) f, h.count ≤ i → s.sent[i]? = some f →
    bytesAt s.data (ivc.frameSize * slot ivc p₀ i) ivc.frameSize = f
  delivered : ∀ (i : Nat) r, s.received[i]? = some r → ∃ f, s.sent[i]? = some f ∧ r <+: f
  copying : ∀ bs, h.copied = some bs → bs = [] ∨ ∃ f, s.sent[h.count]? = some f ∧ bs <+: f
  peeking : ∀ (off : Nat) b, h.peek = some (off, b) → ∃ f, s.sent[h.count]? = some f ∧ f[off]? = some b
  lastSent : ∀ f, g.last = some f → s.sent.getLast? = some f
  lastGot : ∀ r, h.last = some r → s.received.getLast? = some r

def TxIdle (a : TxClient) (g : TxView) : Prop :=
  g.pos = slot ivc p₀ g.count ∧ g.count ≤ g.known + ivc.nframes ∧
    (∀ p, a.held = some p → p = ivc.frameSize * slot ivc p₀ g.count ∧ g.count < g.known + ivc.nframes) ∧
    ∀ buf, a.wrote = some buf → g.last = some (padded ivc buf)

def RxIdle (a : RxClient) (h : RxView) : Prop :=
  h.pos = slot ivc p₀ h.count ∧ h.count ≤ h.known ∧ h.known ≤ h.count + ivc.nframes ∧
    (∀ p, a.held = some p → p = ivc.frameSize * slot ivc p₀ h.count ∧ h.count < h.known) ∧
    (∀ n buf, a.got = some (n, buf) → buf.length = n ∧ h.last = some buf) ∧ ∀ q, a.peeked = some q → h.peek = some q

end

section
variable {ivc : IvcParams} {c₀ p₀ : Nat}

theorem sub32_tick {w v : Nat} (le : v ≤ w) (bound : w - v < 2 ^ 32) : sub32 (tick c₀ w) (tick c₀ v) = w - v := by
  unfold sub32 tick
  omega

theorem add32_tick (i : Nat) : add32 (tick c₀ i) 1 = tick c₀ (i + 1) := by
  unfold add32 tick
  omega

theorem tick_eq_iff {w v : Nat} (le : v ≤ w) (bound : w - v < 2 ^ 32) : tick c₀ w = tick c₀ v ↔ w = v := by
  unfold tick
  omega

theorem slot_lt (pos : 0 < ivc.nframes) (i : Nat) : slot ivc p₀ i < ivc.nframes :=
  Nat.mod_lt _ pos

theorem nextPos_slot (pos : 0 < ivc.nframes) (bound : ivc.nframes < 2 ^ 32) (i : Nat) :
    nextPos ivc (slot ivc p₀ i) = slot ivc p₀ (i + 1) := by
  have lt : slot ivc p₀ i < ivc.nframes := slot_lt pos i
  have last : sub32 ivc.nframes 1 = ivc.nframes - 1 := by
    unfold sub32
    omega
  have split := Nat.div_add_mod (p₀ + i) ivc.nframes
  have step : slot ivc p₀ (i + 1) = (slot ivc p₀ i + 1) % ivc.nframes := by
    unfold slot
    rw [← Nat.add_assoc, Nat.mod_add_mod]
  unfold nextPos
  rw [last, step]
  split
  · rename_i atEnd
    rw [atEnd, Nat.sub_add_cancel pos, Nat.mod_self]
  · rename_i inside
    have small : slot ivc p₀ i + 1 < ivc.nframes := by omega
    rw [Nat.mod_eq_of_lt small]
    unfold add32
    omega

theorem slot_ne {i j : Nat} (lt : i < j) (near : j < i + ivc.nframes) : slot ivc p₀ i ≠ slot ivc p₀ j := by
  intro same
  have divides : ivc.nframes ∣ (p₀ + j) - (p₀ + i) := (Nat.modEq_iff_dvd' (by omega)).mp same
  have := Nat.le_of_dvd (by omega) divides
  omega

theorem framePointer_slot (pos : 0 < ivc.nframes) (area : ivc.nframes * ivc.frameSize < 2 ^ 32)
    (i : Nat) : ivcFramePointer ivc (slot ivc p₀ i) = ivc.frameSize * slot ivc p₀ i := by
  unfold ivcFramePointer mul32
  apply Nat.mod_eq_of_lt
  have lt : slot ivc p₀ i < ivc.nframes := slot_lt pos i
  calc ivc.frameSize * slot ivc p₀ i ≤ ivc.frameSize * ivc.nframes :=
        Nat.mul_le_mul_left _ (Nat.le_of_lt lt)
    _ < 2 ^ 32 := by rwa [Nat.mul_comm]

@[simp] theorem length_bytesAt (data : Nat → UInt8) (p n : Nat) : (bytesAt data p n).length = n := by
  simp [bytesAt]

theorem getElem?_bytesAt {data : Nat → UInt8} {p n i : Nat} (lt : i < n) :
    (bytesAt data p n)[i]? = some (data (p + i)) := by
  simp [bytesAt, lt]

theorem bytesAt_congr {data data' : Nat → UInt8} {p n : Nat}
    (same : ∀ i, i < n → data' (p + i) = data (p + i)) : bytesAt data' p n = bytesAt data p n := by
  unfold bytesAt
  apply List.map_congr_left
  intro i hi
  exact same i (List.mem_range.mp hi)

theorem bytesAt_update_other {data : Nat → UInt8} {fs a b off : Nat} (v : UInt8) (different : a ≠ b)
    (inside : off < fs) : bytesAt (Function.update data (fs * b + off) v) (fs * a) fs = bytesAt data (fs * a) fs := by
  apply bytesAt_congr
  intro i hi
  apply Function.update_of_ne
  intro same
  have quotient : ∀ x k, k < fs → (fs * x + k) / fs = x := by
    intro x k hk
    rw [Nat.mul_add_div (by omega), Nat.div_eq_of_lt hk, Nat.add_zero]
  have := congrArg (· / fs) same
  simp only [quotient a i hi, quotient b off inside] at this
  exact different this

theorem bytesAt_snoc (data : Nat → UInt8) (p n : Nat) (b : UInt8) :
    bytesAt (Function.update data (p + n) b) p (n + 1) = bytesAt data p n ++ [b] := by
  have before : bytesAt (Function.update data (p + n) b) p n = bytesAt data p n := by
    apply bytesAt_congr
    intro i hi
    apply Function.update_of_ne
    omega
  rw [← before]
  simp [bytesAt, List.range_succ]

theorem prefix_snoc {α : Type} {bs f : List α} {b : α} (pre : bs <+: f)
    (next : f[bs.length]? = some b) : bs ++ [b] <+: f := by
  obtain ⟨rest, rfl⟩ := pre
  cases rest with
  | nil => simp at next
  | cons x rest =>
    have : x = b := by simpa using next
    subst this
    exact ⟨rest, by simp⟩

variable {s s' : Link} {g : TxView} {h : RxView}

variable (tied : Tied ivc c₀ p₀ s g h)
include tied

theorem Tied.storeByte {off : Nat} (b : UInt8)
    (free : g.count < g.known + ivc.nframes) (inside : off < ivc.frameSize) : Tied ivc c₀ p₀
      { s with data := Function.update s.data (ivc.frameSize * slot ivc p₀ g.count + off) b }
      { g with data := Function.update g.data (ivc.frameSize * slot ivc p₀ g.count + off) b } h := by
  have order := tied.order
  have slots : ∀ (i : Nat) f, h.count ≤ i → s.sent[i]? = some f →
      bytesAt (Function.update s.data (ivc.frameSize * slot ivc p₀ g.count + off) b)
        (ivc.frameSize * slot ivc p₀ i) ivc.frameSize = f := by
    intro i f unread published
    obtain ⟨before, -⟩ := List.getElem?_eq_some_iff.mp published
    rw [tied.sent] at before
    -- The slot being filled is not the slot of a published frame.
    have different : slot ivc p₀ i ≠ slot ivc p₀ g.count := slot_ne before (by omega)
    rw [bytesAt_update_other b different inside]
    exact tied.slots i f unread published
  exact { tied with data := by rw [tied.data], slots := slots }

theorem Tied.published (known : h.count < h.known) : ∃ f, s.sent[h.count]? = some f ∧
      bytesAt s.data (ivc.frameSize * slot ivc p₀ h.count) ivc.frameSize = f := by
  have order := tied.order
  have lt : h.count < s.sent.length := by
    rw [tied.sent]
    omega
  have published := List.getElem?_eq_getElem lt
  exact ⟨_, published, tied.slots _ _ (Nat.le_refl _) published⟩

theorem Tied.loadByte {off i : Nat} (known : h.count < h.known)
    (inside : off < ivc.frameSize) (place : i = ivc.frameSize * slot ivc p₀ h.count + off)
    (next : ∀ bs, h.copied = some bs → off = bs.length) :
    Tied ivc c₀ p₀ { s with copied := s.copied.map (· ++ [s.data i]) } g
      { h with copied := h.copied.map (· ++ [s.data i]), peek := some (off, s.data i) } := by
  obtain ⟨f, published, shown⟩ := tied.published known
  have byte : f[off]? = some (s.data i) := by
    rw [← shown, place]
    exact getElem?_bytesAt inside
  have copying : ∀ bs, h.copied.map (· ++ [s.data i]) = some bs →
      bs = [] ∨ ∃ f, s.sent[h.count]? = some f ∧ bs <+: f := by
    intro bs copied
    obtain ⟨start, some, rfl⟩ := Option.map_eq_some_iff.mp copied
    rw [next start some] at byte
    rcases tied.copying start some with rfl | ⟨f', published', pre⟩
    · exact .inr ⟨f, published, prefix_snoc List.nil_prefix byte⟩
    · rw [published] at published'
      cases published'
      exact .inr ⟨f, published, prefix_snoc pre byte⟩
  have peeking : ∀ (off' : Nat) b, some (off, s.data i) = some (off', b) →
      ∃ f, s.sent[h.count]? = some f ∧ f[off']? = some b := by
    intro off' b same
    cases same
    exact ⟨f, published, byte⟩
  exact { tied with
    copied := by rw [tied.copied]
    copying := copying
    peeking := peeking }

variable (area : ivc.nframes * ivc.frameSize < 2 ^ 32)
include area

theorem Tied.publish (free : g.count < g.known + ivc.nframes)
    (place : g.pos = slot ivc p₀ g.count) (filled : ∀ f, g.frame = some f →
      bytesAt g.data (ivc.frameSize * slot ivc p₀ g.count) ivc.frameSize = f) : Tied ivc c₀ p₀ { s with
        wCount := tick c₀ (g.count + 1)
        sent := s.sent ++ [s.frame.getD (bytesAt s.data (ivcFramePointer ivc s.wPos) ivc.frameSize)] }
      { g with count := g.count + 1, last := g.frame } h := by
  have order := tied.order
  have pos : 0 < ivc.nframes := by omega
  have shown : s.frame.getD (bytesAt s.data (ivcFramePointer ivc s.wPos) ivc.frameSize) =
      bytesAt s.data (ivc.frameSize * slot ivc p₀ g.count) ivc.frameSize := by
    rw [tied.wPos, place, framePointer_slot pos area, tied.frame, tied.data]
    cases frame : g.frame with
    | none => rfl
    | some f => exact (filled f frame).symm
  generalize s.frame.getD (bytesAt s.data (ivcFramePointer ivc s.wPos) ivc.frameSize) = x at shown
  have extend : ∀ (i : Nat) f, s.sent[i]? = some f → (s.sent ++ [x])[i]? = some f := by
    intro i f published
    obtain ⟨lt, -⟩ := List.getElem?_eq_some_iff.mp published
    rw [List.getElem?_append_left lt]
    exact published
  exact {
    sent := by simp [tied.sent]
    received := tied.received
    wCount := rfl
    rCount := tied.rCount
    txState := tied.txState
    rxState := tied.rxState
    wPos := tied.wPos
    rPos := tied.rPos
    data := tied.data
    frame := tied.frame
    copied := tied.copied
    order := by
      show g.known ≤ h.count ∧ h.count ≤ h.known ∧ h.known ≤ g.count + 1 ∧ g.count + 1 ≤ g.known + ivc.nframes
      omega
    seenR := tied.seenR
    seenW := by
      intro v cached
      obtain ⟨k, low, high, rfl⟩ := tied.seenW v cached
      exact ⟨k, low, Nat.le_succ_of_le high, rfl⟩
    whole := by
      intro f mem
      rcases List.mem_append.mp mem with old | new
      · exact tied.whole f old
      · rw [List.mem_singleton.mp new, shown, length_bytesAt]
    slots := by
      intro i f unread published
      rcases Nat.lt_or_ge i s.sent.length with old | new
      · rw [List.getElem?_append_left old] at published
        exact tied.slots i f unread published
      · rw [List.getElem?_append_right new, List.getElem?_singleton] at published
        have last : i = g.count := by
          rw [← tied.sent]
          split at published <;> [omega; cases published]
        have : x = f := by simpa [last, tied.sent] using published
        rw [last, ← this, shown]
    delivered := by
      intro i r got
      obtain ⟨f, published, pre⟩ := tied.delivered i r got
      exact ⟨f, extend i f published, pre⟩
    copying := by
      intro bs copied
      rcases tied.copying bs copied with empty | ⟨f, published, pre⟩
      · exact .inl empty
      · exact .inr ⟨f, extend _ f published, pre⟩
    peeking := by
      intro off b peek
      obtain ⟨f, published, byte⟩ := tied.peeking off b peek
      exact ⟨f, extend _ f published, byte⟩
    lastSent := by
      intro f frame
      have := filled f frame
      rw [List.getLast?_append, List.getLast?_singleton, shown, tied.data, this]
      rfl
    lastGot := tied.lastGot }

omit tied in
theorem sender_step
    {op : Op} {r : Ans op} {R : Ans op → TxView → Prop} (tied : Tied ivc c₀ p₀ s g h)
    (contract : txContract ivc c₀ p₀ op g R) (access : senderAccess ivc s op = some (r, s')) :
    ∃ g', R r g' ∧ Tied ivc c₀ p₀ s' g' h := by
  have order := tied.order
  cases op with
  | load c f =>
    cases c <;> cases f <;> try exact contract.elim
    case tx.wCount =>
      cases access
      exact ⟨g, by rw [tied.wCount]; exact contract, tied⟩
    case tx.state =>
      cases access
      exact ⟨g, by rw [tied.txState]; exact contract, tied⟩
    case tx.rCount =>
      simp only [senderAccess] at access
      split at access
      · rename_i v cached
        cases access
        obtain ⟨k, low, high, rfl⟩ := tied.seenR _ cached
        refine ⟨_, contract k low (by omega), { tied with order := ?_, seenR := ?_ }⟩
        · show k ≤ h.count ∧ h.count ≤ h.known ∧ h.known ≤ g.count ∧ g.count ≤ k + ivc.nframes
          omega
        · intro v again
          rw [cached] at again
          cases again
          exact ⟨k, Nat.le_refl k, high, rfl⟩
      · cases access
        refine ⟨{ g with known := h.count }, ?_, { tied with order := ?_, seenR := ?_ }⟩
        · rw [tied.rCount]
          exact contract h.count order.1 (by omega)
        · show h.count ≤ h.count ∧ h.count ≤ h.known ∧ h.known ≤ g.count ∧ g.count ≤ h.count + ivc.nframes
          omega
        · intro v again
          cases again
          exact ⟨h.count, Nat.le_refl _, Nat.le_refl _, tied.rCount⟩
  | store c f v =>
    cases c <;> cases f <;> try exact contract.elim
    cases access
    obtain ⟨rfl, free, place, filled, next⟩ := contract
    exact ⟨_, next, tied.publish area free place filled⟩
  | loadByte c i => cases c <;> exact contract.elim
  | storeByte c i b =>
    cases c with
    | rx => exact contract.elim
    | tx =>
      cases access
      obtain ⟨free, ⟨off, inside, rfl⟩, next⟩ := contract
      exact ⟨_, next, tied.storeByte b free inside⟩
  | invalidate c f =>
    cases c <;> cases f <;> try exact contract.elim
    cases access
    exact ⟨g, contract, { tied with seenR := by intro v cached; cases cached }⟩
  | loadPos p =>
    cases p with
    | r => exact contract.elim
    | w =>
      cases access
      exact ⟨g, by rw [tied.wPos]; exact contract, tied⟩
  | storePos p v =>
    cases p with
    | r => exact contract.elim
    | w =>
      cases access
      exact ⟨_, contract, { tied with wPos := rfl }⟩
  | notify =>
    cases access
    exact ⟨g, contract, tied⟩

theorem Tied.consume (known : h.count < h.known) (place : h.pos = slot ivc p₀ h.count) :
    Tied ivc c₀ p₀ { s with
        rCount := tick c₀ (h.count + 1)
        received := s.received ++ [s.copied.getD (bytesAt s.data (ivcFramePointer ivc s.rPos) ivc.frameSize)]
        copied := none }
      g { h with count := h.count + 1, copied := none, peek := none, last := h.copied } := by
  have order := tied.order
  have pos : 0 < ivc.nframes := by omega
  obtain ⟨f, published, shown⟩ := tied.published known
  have taken : s.copied.getD (bytesAt s.data (ivcFramePointer ivc s.rPos) ivc.frameSize) <+: f := by
    rw [tied.rPos, place, framePointer_slot pos area, shown, tied.copied]
    cases copied : h.copied with
    | none => exact List.prefix_refl f
    | some bs =>
      show bs <+: f
      rcases tied.copying bs copied with rfl | ⟨f', published', pre⟩
      · exact List.nil_prefix
      · rw [published] at published'
        cases published'
        exact pre
  have last : ∀ r, h.copied = some r →
      s.copied.getD (bytesAt s.data (ivcFramePointer ivc s.rPos) ivc.frameSize) = r := by
    intro r copied
    rw [tied.copied, copied]
    rfl
  generalize s.copied.getD (bytesAt s.data (ivcFramePointer ivc s.rPos) ivc.frameSize) = x
    at taken last
  exact {
    sent := tied.sent
    received := by simp [tied.received]
    wCount := tied.wCount
    rCount := rfl
    txState := tied.txState
    rxState := tied.rxState
    wPos := tied.wPos
    rPos := tied.rPos
    data := tied.data
    frame := tied.frame
    copied := rfl
    order := by
      show g.known ≤ h.count + 1 ∧ h.count + 1 ≤ h.known ∧ h.known ≤ g.count ∧ g.count ≤ g.known + ivc.nframes
      omega
    seenR := by
      intro v cached
      obtain ⟨k, low, high, rfl⟩ := tied.seenR v cached
      exact ⟨k, low, Nat.le_succ_of_le high, rfl⟩
    seenW := tied.seenW
    whole := tied.whole
    slots := by
      intro i f' unread
      exact tied.slots i f' (Nat.le_of_succ_le unread)
    delivered := by
      intro i r got
      rcases Nat.lt_or_ge i s.received.length with old | new
      · rw [List.getElem?_append_left old] at got
        exact tied.delivered i r got
      · rw [List.getElem?_append_right new, List.getElem?_singleton] at got
        have last : i = h.count := by
          rw [← tied.received]
          split at got <;> [omega; cases got]
        have : x = r := by simpa [last, tied.received] using got
        rw [last, ← this]
        exact ⟨f, published, taken⟩
    copying := by
      intro bs copied
      cases copied
    peeking := by
      intro off b peek
      cases peek
    lastSent := tied.lastSent
    lastGot := by
      intro r copied
      rw [List.getLast?_append, List.getLast?_singleton, last r copied]
      rfl }

omit tied

theorem receiver_step
    {op : Op} {r : Ans op} {R : Ans op → RxView → Prop} (tied : Tied ivc c₀ p₀ s g h)
    (contract : rxContract ivc c₀ p₀ op h R) (access : receiverAccess ivc s op = some (r, s')) :
    ∃ h', R r h' ∧ Tied ivc c₀ p₀ s' g h' := by
  have order := tied.order
  cases op with
  | load c f =>
    cases c <;> cases f <;> try exact contract.elim
    case tx.state =>
      cases access
      exact ⟨h, by rw [tied.rxState]; exact contract, tied⟩
    case rx.rCount =>
      cases access
      exact ⟨h, by rw [tied.rCount]; exact contract, tied⟩
    case rx.wCount =>
      simp only [receiverAccess] at access
      split at access
      · rename_i v cached
        cases access
        obtain ⟨k, low, high, rfl⟩ := tied.seenW _ cached
        refine ⟨_, contract k low (by omega), { tied with order := ?_, seenW := ?_ }⟩
        · show g.known ≤ h.count ∧ h.count ≤ k ∧ k ≤ g.count ∧ g.count ≤ g.known + ivc.nframes
          omega
        · intro v again
          rw [cached] at again
          cases again
          exact ⟨k, Nat.le_refl k, high, rfl⟩
      · cases access
        refine ⟨{ h with known := g.count }, ?_, { tied with order := ?_, seenW := ?_ }⟩
        · rw [tied.wCount]
          exact contract g.count order.2.2.1 (by omega)
        · show g.known ≤ h.count ∧ h.count ≤ g.count ∧ g.count ≤ g.count ∧ g.count ≤ g.known + ivc.nframes
          omega
        · intro v again
          cases again
          exact ⟨g.count, Nat.le_refl _, Nat.le_refl _, tied.wCount⟩
  | store c f v =>
    cases c <;> cases f <;> try exact contract.elim
    cases access
    obtain ⟨rfl, known, place, next⟩ := contract
    exact ⟨_, next, tied.consume area known place⟩
  | loadByte c i =>
    cases c with
    | tx => exact contract.elim
    | rx =>
      cases access
      obtain ⟨known, off, inside, place, next, all⟩ := contract
      exact ⟨_, all (s.data i), tied.loadByte known inside place next⟩
  | storeByte c i b => cases c <;> exact contract.elim
  | invalidate c f =>
    cases c <;> cases f <;> try exact contract.elim
    cases access
    exact ⟨h, contract, { tied with seenW := by intro v cached; cases cached }⟩
  | loadPos p =>
    cases p with
    | w => exact contract.elim
    | r =>
      cases access
      exact ⟨h, by rw [tied.rPos]; exact contract, tied⟩
  | storePos p v =>
    cases p with
    | w => exact contract.elim
    | r =>
      cases access
      exact ⟨_, contract, { tied with rPos := rfl }⟩
  | notify =>
    cases access
    exact ⟨h, contract, tied⟩

end

end Cboot.Ivc
