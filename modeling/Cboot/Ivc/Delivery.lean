import Cboot.Ivc.Fifo

/-!
Each function keeps to the contract of its end. With the rule of interleaving this gives the
delivery of the frames for any number of calls in any order.
-/

namespace Cboot.Ivc
open Lib

section
variable {ivc : IvcParams} {c₀ p₀ : Nat}
variable {α : Type}

section
variable {g : TxView} {Q : α → TxView → Prop}

theorem wp_load_txState {f : Nat → IvcM α} : (load .tx .state >>= f).wp (txContract ivc c₀ p₀) g Q ↔
      (f ivcStateEstablished).wp (txContract ivc c₀ p₀) g Q := Iff.rfl

theorem wp_invalidate_rCount {f : Unit → IvcM α} :
    (ivcCacheInvalidate .tx .rCount >>= f).wp (txContract ivc c₀ p₀) g Q ↔
      (f ()).wp (txContract ivc c₀ p₀) g Q := Iff.rfl

theorem wp_loadPos_w {f : Nat → IvcM α} : (loadPos .w >>= f).wp (txContract ivc c₀ p₀) g Q ↔
      (f g.pos).wp (txContract ivc c₀ p₀) g Q := Iff.rfl

theorem wp_storeBytes {Q : Unit → TxView → Prop} (bs : List UInt8) (off : Nat) {p : Nat}
    (free : g.count < g.known + ivc.nframes) (target : p = ivc.frameSize * slot ivc p₀ g.count + off)
    (inside : off + bs.length ≤ ivc.frameSize)
    (next : ∀ data, bytesAt data (ivc.frameSize * slot ivc p₀ g.count) (off + bs.length) =
        bytesAt g.data (ivc.frameSize * slot ivc p₀ g.count) off ++ bs → Q () { g with data := data }) :
    (storeBytes .tx p bs).wp (txContract ivc c₀ p₀) g Q := by
  induction bs generalizing p off g with
  | nil => exact next g.data (by simp)
  | cons b bs ih =>
    have inside' : off + (bs.length + 1) ≤ ivc.frameSize := inside
    refine ⟨free, ⟨off, by omega, target⟩, ?_⟩
    apply ih (off + 1)
    · exact free
    · show p + 1 = ivc.frameSize * slot ivc p₀ g.count + (off + 1)
      omega
    · omega
    intro data stored
    apply next data
    have length : off + (b :: bs).length = off + 1 + bs.length := by
      rw [List.length_cons]
      omega
    rw [length, stored, target]
    show bytesAt (Function.update g.data _ b) _ (off + 1) ++ bs = _
    rw [bytesAt_snoc, List.append_assoc]
    rfl

theorem wp_ivcAdvanceTx {Q : Unit → TxView → Prop} (pos : 0 < ivc.nframes)
    (ring : ivc.nframes < 2 ^ 32) (free : g.count < g.known + ivc.nframes) (place : g.pos = slot ivc p₀ g.count)
    (filled : ∀ f, g.frame = some f → bytesAt g.data (ivc.frameSize * slot ivc p₀ g.count) ivc.frameSize = f)
    (next : Q () { g with count := g.count + 1, last := g.frame, pos := slot ivc p₀ (g.count + 1) }) :
    (ivcAdvanceTx ivc).wp (txContract ivc c₀ p₀) g Q := by
  refine ⟨add32_tick g.count, free, place, filled, ?_⟩
  show Q () { g with count := g.count + 1, last := g.frame, pos := nextPos ivc g.pos }
  rw [place, nextPos_slot pos (by omega)]
  exact next

theorem wp_availCount_tx {n : Nat} {f : IvcM α} (next : ∀ k, g.known ≤ k → k ≤ g.count →
      f.wp (txContract ivc c₀ p₀) { g with known := k } Q) :
    (do
      let count ← ivcChannelAvailCount .tx
      if count = n then notify
      f).wp (txContract ivc c₀ p₀) g Q := by
  intro k low high
  show Prog.wp _ (if sub32 (tick c₀ g.count) (tick c₀ k) = n then notify >>= fun _ => f else f)
    { g with known := k } Q
  split
  · exact next k low high
  · exact next k low high

variable (ring : ivc.nframes < 2 ^ 32)
include ring

theorem wp_ivcChannelFull {Q : Bool → TxView → Prop}
    (room : g.count ≤ g.known + ivc.nframes) (next : ∀ k, g.known ≤ k → k ≤ g.count →
      Q (decide (ivc.nframes ≤ g.count - k)) { g with known := k }) :
    (ivcChannelFull ivc .tx).wp (txContract ivc c₀ p₀) g Q := by
  intro k low high
  show Q (decide (ivc.nframes ≤ sub32 (tick c₀ g.count) (tick c₀ k))) { g with known := k }
  rw [sub32_tick high (by omega)]
  exact next k low high

theorem wp_ivcCheckWrite {Q : Option Errno → TxView → Prop}
    (room : g.count ≤ g.known + ivc.nframes)
    (ok : ∀ k, g.known ≤ k → k ≤ g.count → g.count < k + ivc.nframes → Q none { g with known := k })
    (full : ∀ k, g.known ≤ k → Q (some .enomem) { g with known := k }) :
    (ivcCheckWrite ivc).wp (txContract ivc c₀ p₀) g Q := by
  unfold ivcCheckWrite
  rw [wp_load_txState, if_neg (by simp), Prog.wp_bind]
  apply wp_ivcChannelFull ring room
  intro k low high
  split
  · rename_i found
    apply ok k low high
    simp at found
    omega
  · rw [wp_invalidate_rCount, Prog.wp_bind]
    apply wp_ivcChannelFull ring
    · show g.count ≤ k + ivc.nframes
      omega
    · intro k' low' high'
      have low' : k ≤ k' := low'
      show Q (if decide (ivc.nframes ≤ g.count - k') = true then some .enomem else none)
        { g with known := k' }
      split
      · exact full k' (by omega)
      · rename_i found
        apply ok k' (by omega) high'
        simp at found
        omega

theorem wp_tegraIvcWrite {Q : Except Errno Nat → TxView → Prop} (area : ivc.nframes * ivc.frameSize < 2 ^ 32) {buf : List UInt8}
    (place : g.pos = slot ivc p₀ g.count) (room : g.count ≤ g.known + ivc.nframes)
    (frame : g.frame = some (padded ivc buf)) (sent : ∀ g', g'.count = g.count + 1 → g'.pos = slot ivc p₀ g'.count →
      g'.count ≤ g'.known + ivc.nframes → g'.last = some (padded ivc buf) → Q (.ok buf.length) g')
    (failed : ∀ e k, g.known ≤ k → Q (.error e) { g with known := k }) :
    (tegraIvcWrite ivc buf).wp (txContract ivc c₀ p₀) g Q := by
  unfold tegraIvcWrite
  split
  · exact failed _ g.known (Nat.le_refl _)
  · rename_i fits
    rw [Prog.wp_bind]
    apply wp_ivcCheckWrite ring room
    · intro k low high free
      have pos : 0 < ivc.nframes := by omega
      show Prog.wp _ (loadPos .w >>= _) { g with known := k } Q
      rw [wp_loadPos_w]
      show Prog.wp _ (storeBytes .tx (ivcFramePointer ivc g.pos) buf >>= _) { g with known := k } Q
      have start : ivcFramePointer ivc g.pos = ivc.frameSize * slot ivc p₀ g.count := by
        rw [place, framePointer_slot pos area]
      rw [Prog.wp_bind]
      apply wp_storeBytes buf 0
      · exact free
      · exact start
      · omega
      intro data copied
      rw [Prog.wp_bind]
      apply wp_storeBytes _ buf.length
      · exact free
      · exact congrArg (· + buf.length) start
      · rw [List.length_replicate]
        omega
      intro data' cleared
      rw [Prog.wp_bind]
      apply wp_ivcAdvanceTx pos ring
      · exact free
      · exact place
      · intro f same
        have same : g.frame = some f := same
        rw [frame] at same
        cases same
        have whole : buf.length + (List.replicate (ivc.frameSize - buf.length) (0 : UInt8)).length = ivc.frameSize := by
          rw [List.length_replicate]
          omega
        have cleared : bytesAt data' _ (buf.length + _) = bytesAt data _ buf.length ++ _ := cleared
        have copied : bytesAt data _ (0 + buf.length) = bytesAt g.data _ 0 ++ buf := copied
        rw [whole] at cleared
        rw [Nat.zero_add] at copied
        show bytesAt data' _ ivc.frameSize = _
        rw [cleared, copied]
        rfl
      rw [wp_invalidate_rCount]
      apply wp_availCount_tx
      intro k' low' high'
      apply sent
      · rfl
      · rfl
      · have low' : k ≤ k' := low'
        show g.count + 1 ≤ k' + ivc.nframes
        omega
      · exact frame
    · intro k low
      exact failed _ k low

theorem wp_tegraIvcWriteGetNextFrame {Q : Option Nat → TxView → Prop} (area : ivc.nframes * ivc.frameSize < 2 ^ 32)
    (place : g.pos = slot ivc p₀ g.count) (room : g.count ≤ g.known + ivc.nframes)
    (given : ∀ k, g.known ≤ k → g.count < k + ivc.nframes →
      Q (some (ivc.frameSize * slot ivc p₀ g.count)) { g with known := k })
    (failed : ∀ k, g.known ≤ k → Q none { g with known := k }) :
    (tegraIvcWriteGetNextFrame ivc).wp (txContract ivc c₀ p₀) g Q := by
  unfold tegraIvcWriteGetNextFrame
  rw [Prog.wp_bind]
  apply wp_ivcCheckWrite ring room
  · intro k low high free
    have pos : 0 < ivc.nframes := by omega
    show Q (some (ivcFramePointer ivc g.pos)) { g with known := k }
    have start : ivcFramePointer ivc g.pos = ivc.frameSize * slot ivc p₀ g.count := by
      rw [place, framePointer_slot pos area]
    rw [start]
    exact given k low free
  · intro k low
    exact failed k low

theorem wp_tegraIvcWriteAdvance {Q : Except Errno Unit → TxView → Prop} (place : g.pos = slot ivc p₀ g.count)
    (room : g.count ≤ g.known + ivc.nframes) (frame : g.frame = none)
    (sent : ∀ g', g'.count = g.count + 1 → g'.pos = slot ivc p₀ g'.count →
      g'.count ≤ g'.known + ivc.nframes → Q (.ok ()) g')
    (failed : ∀ e k, g.known ≤ k → Q (.error e) { g with known := k }) :
    (tegraIvcWriteAdvance ivc).wp (txContract ivc c₀ p₀) g Q := by
  unfold tegraIvcWriteAdvance
  rw [Prog.wp_bind]
  apply wp_ivcCheckWrite ring room
  · intro k low high free
    have pos : 0 < ivc.nframes := by omega
    show Prog.wp _ (ivcAdvanceTx ivc >>= _) { g with known := k } Q
    rw [Prog.wp_bind]
    apply wp_ivcAdvanceTx pos ring
    · exact free
    · exact place
    · intro f same
      have same : g.frame = some f := same
      rw [frame] at same
      cases same
    rw [wp_invalidate_rCount]
    apply wp_availCount_tx
    intro k' low' high'
    have low' : k ≤ k' := low'
    apply sent
    · rfl
    · rfl
    · show g.count + 1 ≤ k' + ivc.nframes
      omega
  · intro k low
    exact failed _ k low

theorem wp_senderBody
    (area : ivc.nframes * ivc.frameSize < 2 ^ 32) {a : TxClient} (call : TxCall)
    (idle : TxIdle ivc p₀ a g) (inside : call.inFrame ivc) :
    (senderBody ivc a call).wp (txContract ivc c₀ p₀) { g with frame := call.frame ivc }
      (TxIdle ivc p₀) := by
  obtain ⟨place, room, held, -⟩ := idle
  -- A call that fails keeps the frame pointer good: the sender only learns of more free slots.
  have kept : ∀ k, g.known ≤ k → TxIdle ivc p₀ { held := a.held }
      { g with frame := call.frame ivc, known := k } := by
    intro k low
    refine ⟨place, ?_, ?_, ?_⟩
    · show g.count ≤ k + ivc.nframes
      omega
    · intro p holds
      obtain ⟨start, free⟩ := held p holds
      exact ⟨start, Nat.lt_of_lt_of_le free (Nat.add_le_add_right low _)⟩
    · intro buf wrote
      cases wrote
  cases call with
  | write buf =>
    unfold senderBody
    rw [Prog.wp_bind]
    apply wp_tegraIvcWrite ring area
    · exact place
    · exact room
    · rfl
    · intro g' count place' room' last
      refine ⟨place', room', ?_, ?_⟩
      · intro p holds
        cases holds
      · intro buf' wrote
        cases wrote
        exact last
    · intro e k low
      exact kept k low
  | getNextFrame =>
    unfold senderBody
    rw [Prog.wp_bind]
    apply wp_tegraIvcWriteGetNextFrame ring area
    · exact place
    · exact room
    · intro k low free
      refine ⟨place, Nat.le_of_lt free, ?_, ?_⟩
      · intro p holds
        cases holds
        exact ⟨rfl, free⟩
      · intro buf wrote
        cases wrote
    · intro k low
      refine ⟨place, Nat.le_trans room (Nat.add_le_add_right low _), ?_, ?_⟩
      · intro p holds
        cases holds
      · intro buf wrote
        cases wrote
  | fill off b =>
    unfold senderBody
    cases holds : a.held with
    | none =>
      rw [holds] at kept
      exact kept g.known (Nat.le_refl _)
    | some p =>
      obtain ⟨rfl, free⟩ := held p holds
      refine ⟨free, ⟨off, inside, rfl⟩, ?_⟩
      obtain ⟨place', room', held', -⟩ := kept g.known (Nat.le_refl _)
      rw [holds] at held'
      exact ⟨place', room', held', by intro buf wrote; cases wrote⟩
  | advance =>
    unfold senderBody
    rw [Prog.wp_bind]
    apply wp_tegraIvcWriteAdvance ring
    · exact place
    · exact room
    · rfl
    · intro g' count place' room'
      refine ⟨place', room', ?_, ?_⟩
      · intro p holds
        cases holds
      · intro buf wrote
        cases wrote
    · intro e k low
      exact kept k low

end

section
variable {h : RxView} {Q : α → RxView → Prop}

theorem wp_load_rxState {f : Nat → IvcM α} : (load .tx .state >>= f).wp (rxContract ivc c₀ p₀) h Q ↔
      (f ivcStateEstablished).wp (rxContract ivc c₀ p₀) h Q := Iff.rfl

theorem wp_invalidate_wCount {f : Unit → IvcM α} :
    (ivcCacheInvalidate .rx .wCount >>= f).wp (rxContract ivc c₀ p₀) h Q ↔
      (f ()).wp (rxContract ivc c₀ p₀) h Q := Iff.rfl

theorem wp_loadPos_r {f : Nat → IvcM α} : (loadPos .r >>= f).wp (rxContract ivc c₀ p₀) h Q ↔
      (f h.pos).wp (rxContract ivc c₀ p₀) h Q := Iff.rfl

variable (ring : ivc.nframes < 2 ^ 32)
include ring

theorem wp_ivcChannelEmpty {Q : Bool → RxView → Prop} (known : h.count ≤ h.known)
    (next : ∀ k, h.known ≤ k → k ≤ h.count + ivc.nframes → Q (decide (k = h.count)) { h with known := k }) :
    (ivcChannelEmpty ivc .rx).wp (rxContract ivc c₀ p₀) h Q := by
  intro k low high
  show Prog.wp _ (if ivc.nframes < sub32 (tick c₀ k) (tick c₀ h.count) then _ else _)
    { h with known := k } Q
  rw [sub32_tick (by omega) (by omega), if_neg (by omega)]
  show Q (tick c₀ k == tick c₀ h.count) { h with known := k }
  have same : (tick c₀ k == tick c₀ h.count) = decide (k = h.count) := by
    rw [beq_eq_decide]
    exact decide_eq_decide.mpr (tick_eq_iff (by omega) (by omega))
  rw [same]
  exact next k low high

theorem wp_ivcCheckRead {Q : Option Errno → RxView → Prop} (known : h.count ≤ h.known)
    (ok : ∀ k, h.known ≤ k → k ≤ h.count + ivc.nframes → h.count < k → Q none { h with known := k })
    (empty : ∀ k, h.known ≤ k → k ≤ h.count + ivc.nframes → Q (some .enomem) { h with known := k }) :
    (ivcCheckRead ivc).wp (rxContract ivc c₀ p₀) h Q := by
  unfold ivcCheckRead
  rw [wp_load_rxState, if_neg (by simp), Prog.wp_bind]
  apply wp_ivcChannelEmpty ring known
  intro k low high
  split
  · rename_i found
    apply ok k low high
    simp at found
    omega
  · rw [wp_invalidate_wCount, Prog.wp_bind]
    apply wp_ivcChannelEmpty ring
    · show h.count ≤ k
      omega
    · intro k' low' high'
      have low' : k ≤ k' := low'
      show Q (if decide (k' = h.count) = true then some .enomem else none) { h with known := k' }
      split
      · exact empty k' (by omega) high'
      · rename_i found
        apply ok k' (by omega) high'
        simp at found
        omega

omit ring in
theorem wp_loadBytes {Q : List UInt8 → RxView → Prop} (n : Nat) {p : Nat} {cs : List UInt8}
    (known : h.count < h.known) (copied : h.copied = some cs)
    (source : p = ivc.frameSize * slot ivc p₀ h.count + cs.length) (inside : cs.length + n ≤ ivc.frameSize)
    (next : ∀ bs peek, bs.length = n → Q bs { h with copied := some (cs ++ bs), peek := peek }) :
    (loadBytes .rx p n).wp (rxContract ivc c₀ p₀) h Q := by
  induction n generalizing p cs h Q with
  | zero =>
    have done := next [] h.peek rfl
    rw [List.append_nil, ← copied] at done
    exact done
  | succ n ih =>
    refine ⟨known, cs.length, by omega, source, ?_, ?_⟩
    · intro bs same
      rw [copied] at same
      cases same
      rfl
    · intro b
      show Prog.wp _ (loadBytes .rx (p + 1) n >>= _) _ Q
      rw [Prog.wp_bind, copied]
      apply ih
      · exact known
      · rfl
      · rw [List.length_append, source]
        rfl
      · rw [List.length_append, List.length_singleton]
        omega
      · intro bs peek length
        have done := next (b :: bs) peek (by rw [List.length_cons, length])
        rw [List.append_assoc]
        exact done

omit ring in
theorem wp_ivcAdvanceRx {Q : Unit → RxView → Prop} (pos : 0 < ivc.nframes)
    (ring : ivc.nframes < 2 ^ 32) (known : h.count < h.known) (place : h.pos = slot ivc p₀ h.count) (next : Q ()
      { h with
        count := h.count + 1, copied := none, peek := none, last := h.copied, pos := slot ivc p₀ (h.count + 1) }) :
    (ivcAdvanceRx ivc).wp (rxContract ivc c₀ p₀) h Q := by
  refine ⟨add32_tick h.count, known, place, ?_⟩
  show Q ()
    { h with
      count := h.count + 1, copied := none, peek := none, last := h.copied, pos := nextPos ivc h.pos }
  rw [place, nextPos_slot pos (by omega)]
  exact next

omit ring in
theorem wp_availCount_rx {n : Nat} {f : IvcM α} (next : ∀ k, h.known ≤ k → k ≤ h.count + ivc.nframes →
      f.wp (rxContract ivc c₀ p₀) { h with known := k } Q) :
    (do
      let count ← ivcChannelAvailCount .rx
      if count = n then notify
      f).wp (rxContract ivc c₀ p₀) h Q := by
  intro k low high
  show Prog.wp _ (if sub32 (tick c₀ k) (tick c₀ h.count) = n then notify >>= fun _ => f else f)
    { h with known := k } Q
  split
  · exact next k low high
  · exact next k low high

theorem wp_tegraIvcRead {Q : Except Errno (List UInt8) → RxView → Prop} (area : ivc.nframes * ivc.frameSize < 2 ^ 32) {maxRead : Nat}
    (place : h.pos = slot ivc p₀ h.count) (known : h.count ≤ h.known)
    (bound : h.known ≤ h.count + ivc.nframes) (copied : h.copied = some [])
    (got : ∀ buf h', buf.length = maxRead → h'.count = h.count + 1 →
      h'.pos = slot ivc p₀ h'.count → h'.count ≤ h'.known → h'.known ≤ h'.count + ivc.nframes →
      h'.last = some buf → Q (.ok buf) h') (failed : ∀ e k, h.known ≤ k → k ≤ h.count + ivc.nframes →
      Q (.error e) { h with known := k }) :
    (tegraIvcRead ivc maxRead).wp (rxContract ivc c₀ p₀) h Q := by
  unfold tegraIvcRead
  split
  · exact failed _ h.known (Nat.le_refl _) bound
  · rename_i fits
    rw [Prog.wp_bind]
    apply wp_ivcCheckRead ring known
    · intro k low high published
      have pos : 0 < ivc.nframes := by omega
      show Prog.wp _ (loadPos .r >>= _) { h with known := k } Q
      rw [wp_loadPos_r]
      show Prog.wp _ (loadBytes .rx (ivcFramePointer ivc h.pos) maxRead >>= _) { h with known := k } Q
      have start : ivcFramePointer ivc h.pos = ivc.frameSize * slot ivc p₀ h.count := by
        rw [place, framePointer_slot pos area]
      rw [Prog.wp_bind]
      apply wp_loadBytes maxRead
      · exact published
      · exact copied
      · exact start
      · rw [List.length_nil]
        omega
      intro buf peek length
      rw [Prog.wp_bind]
      apply wp_ivcAdvanceRx pos ring
      · exact published
      · exact place
      rw [wp_invalidate_wCount]
      apply wp_availCount_rx
      intro k' low' high'
      have low' : k ≤ k' := low'
      apply got buf
      · exact length
      · rfl
      · rfl
      · show h.count + 1 ≤ k'
        omega
      · exact high'
      · rfl
    · intro k low high
      exact failed _ k low high

theorem wp_tegraIvcReadGetNextFrame {Q : Option Nat → RxView → Prop} (area : ivc.nframes * ivc.frameSize < 2 ^ 32)
    (place : h.pos = slot ivc p₀ h.count) (known : h.count ≤ h.known)
    (given : ∀ k, h.known ≤ k → k ≤ h.count + ivc.nframes → h.count < k →
      Q (some (ivc.frameSize * slot ivc p₀ h.count)) { h with known := k })
    (failed : ∀ k, h.known ≤ k → k ≤ h.count + ivc.nframes → Q none { h with known := k }) :
    (tegraIvcReadGetNextFrame ivc).wp (rxContract ivc c₀ p₀) h Q := by
  unfold tegraIvcReadGetNextFrame
  rw [Prog.wp_bind]
  apply wp_ivcCheckRead ring known
  · intro k low high published
    have pos : 0 < ivc.nframes := by omega
    show Q (some (ivcFramePointer ivc h.pos)) { h with known := k }
    have start : ivcFramePointer ivc h.pos = ivc.frameSize * slot ivc p₀ h.count := by
      rw [place, framePointer_slot pos area]
    rw [start]
    exact given k low high published
  · intro k low high
    exact failed k low high

theorem wp_tegraIvcReadAdvance {Q : Except Errno Unit → RxView → Prop} (place : h.pos = slot ivc p₀ h.count) (known : h.count ≤ h.known)
    (got : ∀ h', h'.count = h.count + 1 → h'.pos = slot ivc p₀ h'.count → h'.count ≤ h'.known →
      h'.known ≤ h'.count + ivc.nframes → Q (.ok ()) h') (failed : ∀ e k, h.known ≤ k → k ≤ h.count + ivc.nframes →
      Q (.error e) { h with known := k }) :
    (tegraIvcReadAdvance ivc).wp (rxContract ivc c₀ p₀) h Q := by
  unfold tegraIvcReadAdvance
  rw [Prog.wp_bind]
  apply wp_ivcCheckRead ring known
  · intro k low high published
    have pos : 0 < ivc.nframes := by omega
    show Prog.wp _ (ivcAdvanceRx ivc >>= _) { h with known := k } Q
    rw [Prog.wp_bind]
    apply wp_ivcAdvanceRx pos ring
    · exact published
    · exact place
    rw [wp_invalidate_wCount]
    apply wp_availCount_rx
    intro k' low' high'
    have low' : k ≤ k' := low'
    apply got
    · rfl
    · rfl
    · show h.count + 1 ≤ k'
      omega
    · exact high'
  · intro k low high
    exact failed _ k low high

theorem wp_receiverBody
    (area : ivc.nframes * ivc.frameSize < 2 ^ 32) {a : RxClient} (call : RxCall)
    (idle : RxIdle ivc p₀ a h) (inside : call.inFrame ivc) :
    (receiverBody ivc a call).wp (rxContract ivc c₀ p₀) { h with copied := call.copied }
      (RxIdle ivc p₀) := by
  obtain ⟨place, known, bound, held, -, -⟩ := idle
  -- A call that fails keeps the frame pointer good: the receiver only learns of more frames.
  have kept : ∀ k, h.known ≤ k → k ≤ h.count + ivc.nframes → RxIdle ivc p₀ { held := a.held }
      { h with copied := call.copied, known := k } := by
    intro k low high
    refine ⟨place, Nat.le_trans known low, high, ?_, ?_, ?_⟩
    · intro p holds
      obtain ⟨start, published⟩ := held p holds
      exact ⟨start, Nat.lt_of_lt_of_le published low⟩
    · intro n buf got
      cases got
    · intro q peeked
      cases peeked
  cases call with
  | read maxRead =>
    unfold receiverBody
    rw [Prog.wp_bind]
    apply wp_tegraIvcRead ring area
    · exact place
    · exact known
    · exact bound
    · rfl
    · intro buf h' length count place' known' bound' last
      refine ⟨place', known', bound', ?_, ?_, ?_⟩
      · intro p holds
        cases holds
      · intro n buf' got
        cases got
        exact ⟨length, last⟩
      · intro q peeked
        cases peeked
    · intro e k low high
      exact kept k low high
  | getNextFrame =>
    unfold receiverBody
    rw [Prog.wp_bind]
    apply wp_tegraIvcReadGetNextFrame ring area
    · exact place
    · exact known
    · intro k low high published
      refine ⟨place, Nat.le_of_lt published, high, ?_, ?_, ?_⟩
      · intro p holds
        cases holds
        exact ⟨rfl, published⟩
      · intro n buf got
        cases got
      · intro q peeked
        cases peeked
    · intro k low high
      refine ⟨place, Nat.le_trans known low, high, ?_, ?_, ?_⟩
      · intro p holds
        cases holds
      · intro n buf got
        cases got
      · intro q peeked
        cases peeked
  | peek off =>
    unfold receiverBody
    cases holds : a.held with
    | none =>
      rw [holds] at kept
      exact kept h.known (Nat.le_refl _) bound
    | some p =>
      obtain ⟨rfl, published⟩ := held p holds
      refine ⟨published, off, inside, rfl, ?_, ?_⟩
      · intro bs copied
        cases copied
      · intro b
        obtain ⟨place', known', bound', held', -, -⟩ := kept h.known (Nat.le_refl _) bound
        rw [holds] at held'
        refine ⟨place', known', bound', held', ?_, ?_⟩
        · intro n buf got
          cases got
        · intro q peeked
          exact peeked
  | advance =>
    unfold receiverBody
    rw [Prog.wp_bind]
    apply wp_tegraIvcReadAdvance ring
    · exact place
    · exact known
    · intro h' count place' known' bound'
      refine ⟨place', known', bound', ?_, ?_, ?_⟩
      · intro p holds
        cases holds
      · intro n buf got
        cases got
      · intro q peeked
        cases peeked
    · intro e k low high
      exact kept k low high

end

def opened (c₀ p₀ : Nat) (data : Nat → UInt8) : Config Link Op Ans TxClient RxClient where
  state :=
    { wCount := c₀, rCount := c₀, txState := ivcStateEstablished, rxState := ivcStateEstablished,
      data := data, wPos := p₀, rPos := p₀ }
  left := .ret {}
  right := .ret {}

def InStep (ivc : IvcParams) (c₀ p₀ : Nat) : Config Link Op Ans TxClient RxClient → Prop :=
  Kept (Tied ivc c₀ p₀) (txContract ivc c₀ p₀) (rxContract ivc c₀ p₀) (TxIdle ivc p₀) (RxIdle ivc p₀)

theorem inStep_opened (data : Nat → UInt8) (count : c₀ < 2 ^ 32) (place : slot ivc p₀ 0 = p₀) :
    InStep ivc c₀ p₀ (opened c₀ p₀ data) := by
  have counter : c₀ = tick c₀ 0 := (Nat.mod_eq_of_lt count).symm
  have start : p₀ = slot ivc p₀ 0 := place.symm
  refine ⟨⟨0, 0, p₀, data, none, none⟩, ⟨0, 0, p₀, none, none, none⟩, ?_, ?_, ?_⟩
  · exact {
      sent := rfl
      received := rfl
      wCount := counter
      rCount := counter
      txState := rfl
      rxState := rfl
      wPos := rfl
      rPos := rfl
      data := rfl
      frame := rfl
      copied := rfl
      order := ⟨Nat.le_refl _, Nat.le_refl _, Nat.le_refl _, Nat.zero_le _⟩
      seenR := by intro v cached; cases cached
      seenW := by intro v cached; cases cached
      whole := by intro f mem; cases mem
      slots := by intro i f _ published; cases published
      delivered := by intro i r got; cases got
      copying := by intro bs copied; cases copied
      peeking := by intro off b peek; cases peek
      lastSent := by intro f last; cases last
      lastGot := by intro r last; cases last }
  · refine ⟨start, Nat.zero_le _, ?_, ?_⟩
    · intro p holds
      cases holds
    · intro buf wrote
      cases wrote
  · refine ⟨start, Nat.le_refl _, Nat.zero_le _, ?_, ?_, ?_⟩
    · intro p holds
      cases holds
    · intro n buf got
      cases got
    · intro q peeked
      cases peeked

theorem inStep_run (ring : ivc.nframes < 2 ^ 32) (area : ivc.nframes * ivc.frameSize < 2 ^ 32)
    {c c' : Config Link Op Ans TxClient RxClient}
    (run : Relation.ReflTransGen (Interleave (sender ivc) (receiver ivc) evict) c c')
    (inStep : InStep ivc c₀ p₀ c) : InStep ivc c₀ p₀ c' := by
  apply kept_run _ _ _ _ _ run inStep
  · intro s op r s' g h R tied contract access
    exact sender_step area tied contract access
  · intro s a call s' g h tied idle start
    obtain ⟨inside, rfl⟩ := start
    exact ⟨_, wp_senderBody ring area call idle inside, { tied with frame := rfl }⟩
  · intro s op r s' g h R tied contract access
    exact receiver_step area tied contract access
  · intro s a call s' g h tied idle start
    obtain ⟨inside, rfl⟩ := start
    refine ⟨_, wp_receiverBody ring area call idle inside, { tied with copied := rfl, copying := ?_ }⟩
    intro bs copied
    cases call <;> cases copied
    exact .inl rfl
  · intro s s' g h tied move
    rcases move with rfl | rfl
    · exact { tied with seenW := by intro v cached; cases cached }
    · exact { tied with seenR := by intro v cached; cases cached }

end

/-- What an established channel promises at every point of a run that started at position `p₀`. -/
structure Delivered (ivc : IvcParams) (p₀ : Nat) (c : Config Link Op Ans TxClient RxClient) :
    Prop where
  bounded : sub32 c.state.wCount c.state.rCount ≤ ivc.nframes
  inFlight : c.state.received.length + sub32 c.state.wCount c.state.rCount = c.state.sent.length
  whole : ∀ f ∈ c.state.sent, f.length = ivc.frameSize
  inOrder : ∀ (i : Nat) r, c.state.received[i]? = some r → ∃ f, c.state.sent[i]? = some f ∧ r <+: f
  intact : ∀ (i : Nat) f, c.state.received.length ≤ i → c.state.sent[i]? = some f →
    bytesAt c.state.data (ivcFramePointer ivc (slot ivc p₀ i)) ivc.frameSize = f
  wrote : ∀ a buf, c.left = .ret a → a.wrote = some buf → c.state.sent.getLast? = some (padded ivc buf)
  got : ∀ b n buf, c.right = .ret b → b.got = some (n, buf) → buf.length = n ∧ c.state.received.getLast? = some buf
  peeked : ∀ b (off : Nat) v, c.right = .ret b → b.peeked = some (off, v) →
    ∃ f, c.state.sent[c.state.received.length]? = some f ∧ f[off]? = some v

section
variable {ivc : IvcParams} {c₀ p₀ : Nat}

theorem delivered_of_inStep {c : Config Link Op Ans TxClient RxClient} (pos : 0 < ivc.nframes)
    (ring : ivc.nframes < 2 ^ 32) (area : ivc.nframes * ivc.frameSize < 2 ^ 32)
    (inStep : InStep ivc c₀ p₀ c) : Delivered ivc p₀ c := by
  obtain ⟨g, h, tied, left, right⟩ := inStep
  have order := tied.order
  have difference : sub32 c.state.wCount c.state.rCount = g.count - h.count := by
    rw [tied.wCount, tied.rCount]
    exact sub32_tick (by omega) (by omega)
  constructor
  case bounded => omega
  case inFlight =>
    rw [difference, tied.sent, tied.received]
    omega
  case whole => exact tied.whole
  case inOrder => exact tied.delivered
  case intact =>
    intro i f unread published
    rw [tied.received] at unread
    rw [framePointer_slot pos area]
    exact tied.slots i f unread published
  case wrote =>
    intro a buf returned wrote
    rw [returned] at left
    obtain ⟨-, -, -, last⟩ := left
    exact tied.lastSent _ (last buf wrote)
  case got =>
    intro b n buf returned got
    rw [returned] at right
    obtain ⟨-, -, -, -, last, -⟩ := right
    obtain ⟨length, last⟩ := last n buf got
    exact ⟨length, tied.lastGot _ last⟩
  case peeked =>
    intro b off v returned peeked
    rw [returned] at right
    obtain ⟨-, -, -, -, -, peek⟩ := right
    rw [tied.received]
    exact tied.peeking off v (peek _ peeked)

/-- The channel is a lossless FIFO in every interleaving, wherever the counters start. -/
theorem channel_fifo (pos : 1 ≤ ivc.nframes) (ring : ivc.nframes ≤ 2 ^ 31)
    (area : ivc.nframes * ivc.frameSize < 2 ^ 32) (count : c₀ < 2 ^ 32) (place : p₀ < ivc.nframes)
    (data : Nat → UInt8) (c : Config Link Op Ans TxClient RxClient)
    (run : Relation.ReflTransGen (Interleave (sender ivc) (receiver ivc) evict)
      (opened c₀ p₀ data) c) : Delivered ivc p₀ c :=
  have small : ivc.nframes < 2 ^ 32 := by omega
  delivered_of_inStep pos small area
    (inStep_run small area run (inStep_opened data count (Nat.mod_eq_of_lt place)))

end

instance (ivc : IvcParams) : (call : TxCall) → Decidable (call.inFrame ivc)
  | .write _ => .isTrue trivial
  | .getNextFrame => .isTrue trivial
  | .fill off _ => inferInstanceAs (Decidable (off < ivc.frameSize))
  | .advance => .isTrue trivial

instance (ivc : IvcParams) : (call : RxCall) → Decidable (call.inFrame ivc)
  | .read _ => .isTrue trivial
  | .getNextFrame => .isTrue trivial
  | .peek off => inferInstanceAs (Decidable (off < ivc.frameSize))
  | .advance => .isTrue trivial

def sender.player (ivc : IvcParams) : (sender ivc).Player where
  access s op := senderAccess ivc s op
  call s _ c := if c.inFrame ivc then some { s with frame := c.frame ivc } else none
  exec_of_access _ _ _ _ access := access
  start_of_call s a c s' call := by
    split at call
    · rename_i inside
      exact ⟨inside, (Option.some.inj call).symm⟩
    · cases call

def receiver.player (ivc : IvcParams) : (receiver ivc).Player where
  access s op := receiverAccess ivc s op
  call s _ c := if c.inFrame ivc then some { s with copied := c.copied } else none
  exec_of_access _ _ _ _ access := access
  start_of_call s a c s' call := by
    split at call
    · rename_i inside
      exact ⟨inside, (Option.some.inj call).symm⟩
    · cases call

/-- Two frames cross a ring of two while the counters wrap. -/
theorem channel_fifo_wraps : ∃ c, Relation.ReflTransGen
    (Interleave (sender ⟨2, 2⟩) (receiver ⟨2, 2⟩) evict) (opened (2 ^ 32 - 1) 1 fun _ => 9) c ∧
    c.state.received = [[7, 0], [5]] ∧ c.state.wCount = 1 ∧ Delivered ⟨2, 2⟩ 1 c := by
  obtain ⟨c, run, holds⟩ := exists_schedule evict (sender.player ⟨2, 2⟩) (receiver.player ⟨2, 2⟩)
    (opened (2 ^ 32 - 1) 1 fun _ => 9)
    (List.flatten [[.leftCall (.write [7])], List.replicate 14 .left, [.leftCall (.write [5, 6]), .rightCall (.read 2)],
      List.flatten (List.replicate 14 [.left, .right]), [.rightCall (.read 1)], List.replicate 12 .right])
    (fun c => c.state.received == [[7, 0], [5]] && c.state.wCount == 1) (by decide)
  simp only [Bool.and_eq_true, beq_iff_eq] at holds
  exact ⟨c, run, holds.1, holds.2, channel_fifo (by decide) (by decide) (by decide) (by decide) (by decide) _ c run⟩

end Cboot.Ivc
