import Cboot.Ivc.Fifo

/-!
Each one's transmit channel is the other's receive channel. A word is kept with the end that writes it, so `r_count` of
a channel belongs to its reader.
-/

namespace Cboot.Ivc
open Lib

/-- What one end writes. `sampled` is `peer_state`, the local variable of
`tegra_ivc_channel_notified`. -/
structure Endpoint where
  wCount : Nat := 0
  rCount : Nat := 0
  state : Nat := ivcStateEstablished
  wPos : Nat := 0
  rPos : Nat := 0
  data : Nat → UInt8 := fun _ => 0
  sampled : Option Nat := none

/-- The pair as the end `me` sees it. -/
structure Pair where
  me : Endpoint := {}
  you : Endpoint := {}

namespace Pair

def swap (s : Pair) : Pair := ⟨s.you, s.me⟩

end Pair

def handle : (op : Op) → Pair → Ans op × Pair
  | .load .tx .wCount, s => (s.me.wCount, s)
  | .load .tx .state, s => (s.me.state, s)
  | .load .tx .rCount, s => (s.you.rCount, s)
  | .load .rx .wCount, s => (s.you.wCount, s)
  | .load .rx .state, s => (s.you.state, { s with me := { s.me with sampled := some s.you.state } })
  | .load .rx .rCount, s => (s.me.rCount, s)
  | .store .tx .wCount v, s => ((), { s with me := { s.me with wCount := v } })
  | .store .tx .state v, s => ((), { s with me := { s.me with state := v } })
  | .store .tx .rCount v, s => ((), { s with you := { s.you with rCount := v } })
  | .store .rx .wCount v, s => ((), { s with you := { s.you with wCount := v } })
  | .store .rx .state v, s => ((), { s with you := { s.you with state := v } })
  | .store .rx .rCount v, s => ((), { s with me := { s.me with rCount := v } })
  | .loadByte .tx i, s => (s.me.data i, s)
  | .loadByte .rx i, s => (s.you.data i, s)
  | .storeByte .tx i b, s =>
    ((), { s with me := { s.me with data := Function.update s.me.data i b } })
  | .storeByte .rx i b, s =>
    ((), { s with you := { s.you with data := Function.update s.you.data i b } })
  | .invalidate _ _, s => ((), s)
  | .loadPos .w, s => (s.me.wPos, s)
  | .loadPos .r, s => (s.me.rPos, s)
  | .storePos .w v, s => ((), { s with me := { s.me with wPos := v } })
  | .storePos .r v, s => ((), { s with me := { s.me with rPos := v } })
  | .notify, s => ((), s)

inductive Call where
  | reset
  | notified
  | read (maxRead : Nat)
  | write (buf : List UInt8)
  deriving DecidableEq, Repr

section
variable {ivc : IvcParams} {s : Pair}

def Readable (ivc : IvcParams) (s : Pair) : Prop :=
  s.me.state = ivcStateEstablished ∧ sub32 s.you.wCount s.me.rCount ≤ ivc.nframes ∧
    s.you.wCount ≠ s.me.rCount

theorem run_ivcChannelEmpty_rx : (ivcChannelEmpty ivc .rx).run handle s =
    (decide (ivc.nframes < sub32 s.you.wCount s.me.rCount ∨ s.you.wCount = s.me.rCount), s) := by
  show Prog.run handle (if ivc.nframes < sub32 s.you.wCount s.me.rCount then _ else _) s = _
  split
  · rename_i excess
    show (true, s) = _
    rw [decide_eq_true (.inl excess)]
  · rename_i fits
    show (s.you.wCount == s.me.rCount, s) = _
    rw [beq_eq_decide]
    congr 1
    apply decide_eq_decide.mpr
    constructor
    · exact .inr
    · rintro (excess | same)
      · exact absurd excess fits
      · exact same

theorem run_load_state {α : Type} {f : Nat → IvcM α} :
    (load .tx .state >>= f).run handle s = (f s.me.state).run handle s := rfl

theorem run_invalidate {α : Type} {c : Side} {w : Word} {f : Unit → IvcM α} :
    (ivcCacheInvalidate c w >>= f).run handle s = (f ()).run handle s := rfl

theorem run_notifyIf {α : Type} {p : Prop} [Decidable p] {m : IvcM α} :
    (do
      if p then notify
      m).run handle s = m.run handle s := by
  show Prog.run handle (if p then notify >>= fun _ => m else m) s = _
  split
  · rfl
  · rfl

theorem run_ivcCheckRead_ok (ready : Readable ivc s) :
    (ivcCheckRead ivc).run handle s = (none, s) := by
  obtain ⟨established, fits, different⟩ := ready
  unfold ivcCheckRead
  rw [run_load_state, if_neg (by simpa using established), Prog.run_bind, run_ivcChannelEmpty_rx]
  have found : decide (ivc.nframes < sub32 s.you.wCount s.me.rCount ∨
      s.you.wCount = s.me.rCount) = false := by
    apply decide_eq_false
    rintro (excess | same)
    · omega
    · exact different same
  rw [found]
  rfl

theorem run_ivcCheckRead_fails (unready : ¬ Readable ivc s) :
    ∃ e, (ivcCheckRead ivc).run handle s = (some e, s) := by
  unfold ivcCheckRead
  rw [run_load_state]
  split
  · exact ⟨_, rfl⟩
  · rename_i established
    have empty : decide (ivc.nframes < sub32 s.you.wCount s.me.rCount ∨
        s.you.wCount = s.me.rCount) = true := by
      apply decide_eq_true
      by_contra neither
      rw [not_or] at neither
      exact unready ⟨by simpa using established, by omega, neither.2⟩
    rw [Prog.run_bind, run_ivcChannelEmpty_rx, empty, if_neg (by simp), run_invalidate,
      Prog.run_bind, run_ivcChannelEmpty_rx, empty]
    exact ⟨_, rfl⟩

theorem run_loadBytes (p n : Nat) :
    (loadBytes .rx p n).run handle s = (bytesAt s.you.data p n, s) := by
  induction n generalizing p with
  | zero => rfl
  | succ n ih =>
    show Prog.run handle (loadBytes .rx (p + 1) n >>= fun bs => pure (s.you.data p :: bs)) s = _
    rw [Prog.run_bind, ih]
    show (s.you.data p :: bytesAt s.you.data (p + 1) n, s) = _
    congr 1
    unfold bytesAt
    rw [List.range_succ_eq_map, List.map_cons, List.map_map]
    congr 1
    apply List.map_congr_left
    intro i _
    show s.you.data (p + 1 + i) = s.you.data (p + (i + 1))
    congr 1
    omega

def Pair.afterRead (ivc : IvcParams) (s : Pair) : Pair :=
  { s with me := { s.me with rCount := add32 s.me.rCount 1, rPos := nextPos ivc s.me.rPos } }

theorem run_ivcAdvanceRx : (ivcAdvanceRx ivc).run handle s = ((), s.afterRead ivc) := rfl

theorem run_tegraIvcRead_ok {maxRead : Nat} (fits : maxRead ≤ ivc.frameSize)
    (ready : Readable ivc s) : (tegraIvcRead ivc maxRead).run handle s =
      (.ok (bytesAt s.you.data (ivcFramePointer ivc s.me.rPos) maxRead), s.afterRead ivc) := by
  unfold tegraIvcRead
  rw [if_neg (by omega), Prog.run_bind, run_ivcCheckRead_ok ready]
  show Prog.run handle (loadBytes .rx (ivcFramePointer ivc s.me.rPos) maxRead >>= _) s = _
  rw [Prog.run_bind, run_loadBytes, Prog.run_bind, run_ivcAdvanceRx, run_invalidate, Prog.run_bind]
  exact run_notifyIf

theorem run_tegraIvcRead_fails {maxRead : Nat}
    (unready : ¬ (maxRead ≤ ivc.frameSize ∧ Readable ivc s)) :
    ∃ e, (tegraIvcRead ivc maxRead).run handle s = (.error e, s) := by
  unfold tegraIvcRead
  split
  · exact ⟨_, rfl⟩
  · rename_i fits
    have unready : ¬ Readable ivc s := fun ready => unready ⟨by omega, ready⟩
    obtain ⟨e, failed⟩ := run_ivcCheckRead_fails unready
    rw [Prog.run_bind, failed]
    exact ⟨e, rfl⟩

def Writable (ivc : IvcParams) (s : Pair) : Prop :=
  s.me.state = ivcStateEstablished ∧ sub32 s.me.wCount s.you.rCount < ivc.nframes

theorem run_ivcChannelFull_tx : (ivcChannelFull ivc .tx).run handle s =
    (decide (ivc.nframes ≤ sub32 s.me.wCount s.you.rCount), s) := rfl

theorem run_ivcCheckWrite_ok (ready : Writable ivc s) :
    (ivcCheckWrite ivc).run handle s = (none, s) := by
  obtain ⟨established, free⟩ := ready
  unfold ivcCheckWrite
  rw [run_load_state, if_neg (by simpa using established), Prog.run_bind, run_ivcChannelFull_tx,
    decide_eq_false (by omega)]
  rfl

theorem run_ivcCheckWrite_fails (unready : ¬ Writable ivc s) :
    ∃ e, (ivcCheckWrite ivc).run handle s = (some e, s) := by
  unfold ivcCheckWrite
  rw [run_load_state]
  split
  · exact ⟨_, rfl⟩
  · rename_i established
    have full : decide (ivc.nframes ≤ sub32 s.me.wCount s.you.rCount) = true := by
      apply decide_eq_true
      by_contra free
      exact unready ⟨by simpa using established, by omega⟩
    rw [Prog.run_bind, run_ivcChannelFull_tx, full, if_neg (by simp), run_invalidate,
      Prog.run_bind, run_ivcChannelFull_tx, full]
    exact ⟨_, rfl⟩

def putBytes (data : Nat → UInt8) (p : Nat) : List UInt8 → Nat → UInt8
  | [] => data
  | b :: bs => putBytes (Function.update data p b) (p + 1) bs

theorem run_storeBytes (p : Nat) (bs : List UInt8) : (storeBytes .tx p bs).run handle s =
    ((), { s with me := { s.me with data := putBytes s.me.data p bs } }) := by
  induction bs generalizing p s with
  | nil => rfl
  | cons b bs ih => exact ih (p + 1)

theorem putBytes_append (data : Nat → UInt8) (p : Nat) (bs cs : List UInt8) :
    putBytes (putBytes data p bs) (p + bs.length) cs = putBytes data p (bs ++ cs) := by
  induction bs generalizing data p with
  | nil => rfl
  | cons b bs ih =>
    have next : p + (b :: bs).length = p + 1 + bs.length := by
      rw [List.length_cons]
      omega
    rw [next]
    exact ih _ (p + 1)

def Pair.afterWrite (ivc : IvcParams) (s : Pair) (buf : List UInt8) : Pair :=
  { s with
    me := { s.me with
      wCount := add32 s.me.wCount 1
      wPos := nextPos ivc s.me.wPos
      data := putBytes s.me.data (ivcFramePointer ivc s.me.wPos) (padded ivc buf) } }

theorem run_tegraIvcWrite_ok {buf : List UInt8} (fits : buf.length ≤ ivc.frameSize)
    (ready : Writable ivc s) :
    (tegraIvcWrite ivc buf).run handle s = (.ok buf.length, s.afterWrite ivc buf) := by
  unfold tegraIvcWrite
  rw [if_neg (by omega), Prog.run_bind, run_ivcCheckWrite_ok ready]
  show Prog.run handle (storeBytes .tx (ivcFramePointer ivc s.me.wPos) buf >>= _) s = _
  unfold Pair.afterWrite padded
  rw [Prog.run_bind, run_storeBytes, Prog.run_bind, run_storeBytes, ← putBytes_append]
  exact run_notifyIf

theorem run_tegraIvcWrite_fails {buf : List UInt8}
    (unready : ¬ (buf.length ≤ ivc.frameSize ∧ Writable ivc s)) :
    ∃ e, (tegraIvcWrite ivc buf).run handle s = (.error e, s) := by
  unfold tegraIvcWrite
  split
  · exact ⟨_, rfl⟩
  · rename_i fits
    have unready : ¬ Writable ivc s := fun ready => unready ⟨by omega, ready⟩
    obtain ⟨e, failed⟩ := run_ivcCheckWrite_fails unready
    rw [Prog.run_bind, failed]
    exact ⟨e, rfl⟩

end

end Cboot.Ivc
