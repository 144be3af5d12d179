import Cboot.Lib.Runs
import Cboot.PartitionManager.Model

/-!
A reference cursor moves on the calls that succeed and on no other.
-/

namespace Cboot.PartitionManager
open Blockdev Lib

theorem toInt_add_eq (a b : Int64) :
    (a + b).toInt = if a.toInt + b.toInt < - 2 ^ 63 then a.toInt + b.toInt + 2 ^ 64
      else if a.toInt + b.toInt < 2 ^ 63 then a.toInt + b.toInt else a.toInt + b.toInt - 2 ^ 64 := by
  have := a.toInt_lt
  have := b.toInt_lt
  have := a.le_toInt
  have := b.le_toInt
  rw [Int64.toInt_add, Int.bmod_def]
  omega

def Op.target (info : PartitionInfo) (place : Int) : Op → Int
  | seek distance origin =>
    (if origin = 1 then place else if origin = 2 then info.totalSize.toNat else 0) + distance.toInt
  | read _ numBytes | write _ numBytes => place + numBytes.toNat

structure Tracked (σ : Type) extends Session σ where
  place : Int

section
variable {σ : Type}

def Tracked.step (io : Io σ) (info : PartitionInfo) (t : Tracked σ) (op : Op) : Tracked σ where
  toSession := t.toSession.step io op
  place :=
    match (op.call io t.partition t.rest).result with
    | .ok _ => op.target info t.place
    | .error _ => t.place

def Tells (t : Tracked σ) : Prop := (tegrablPartitionTell t.partition).toInt = t.place

/-- The call ends below `2 ^ 63`. -/
def EndsBelow (offset numBytes : UInt64) : Prop := offset.toNat + numBytes.toNat < 2 ^ 63

def Succeeds (c : Call σ Unit) (s : σ) : Prop := (c.run s).1 = .ok ()

/-- What a step needs for the handle to follow the reference cursor. -/
def Follows (io : Io σ) (info : PartitionInfo) (dev : Bdev) (t : Tracked σ) (op : Op) : Prop :=
  ∀ p, t.partition = some p →
    match op with
    | .seek distance origin => origin = 2 → info.totalSize.toNat + distance.toInt < 2 ^ 64
    | .read buf numBytes => op.Reaches info p.offset →
      Succeeds (io.read dev buf (p.offset + startByte info dev) numBytes) t.rest → EndsBelow p.offset numBytes
    | .write buf numBytes => op.Reaches info p.offset →
      Succeeds (io.write dev buf (p.offset + startByte info dev) numBytes) t.rest ∧ EndsBelow p.offset numBytes

variable {io : Io σ} {info : PartitionInfo} {dev : Bdev} {offset : UInt64}

def Tellable (info : PartitionInfo) (dev : Bdev) (t : Tracked σ) : Prop :=
  ∃ offset, t.partition = some (opened info dev offset) ∧ offset.toNat < 2 ^ 63

theorem tell_opened (info : PartitionInfo) (dev : Bdev) (offset : UInt64) :
    tegrablPartitionTell (some (opened info dev offset)) = offset.toInt64 := rfl

theorem seek_base_toInt {origin : UInt32} {base : Int64} (small : offset.toNat < 2 ^ 63)
    (known : seekBase info (opened info dev offset) origin = some base) :
    base.toInt = (if origin = 1 then (offset.toNat : Int) else
      if origin = 2 then info.totalSize.toInt64.toInt else 0) := by
  have place := toInt_toInt64 offset
  rw [if_pos small] at place
  unfold seekBase at known
  by_cases set : origin = 0
  · subst set
    cases known
    rfl
  rw [if_neg set] at known
  by_cases current : origin = 1
  · rw [if_pos current] at known ⊢
    cases known
    exact place
  rw [if_neg current] at known ⊢
  by_cases fromEnd : origin = 2
  · rw [if_pos fromEnd] at known ⊢
    cases known
    rfl
  · rw [if_neg fromEnd] at known
    cases known

theorem seek_lands {origin : UInt32} {base distance : Int64} (small : offset.toNat < 2 ^ 63)
    (known : seekBase info (opened info dev offset) origin = some base) (positive : 0 ≤ (base + distance).toInt) :
    (base + distance).toInt = Op.target info offset.toNat (.seek distance origin) ↔
      (origin = 2 → info.totalSize.toNat + distance.toInt < 2 ^ 64) := by
  have start := seek_base_toInt small known
  have sum := toInt_add_eq base distance
  have size := toInt_toInt64 info.totalSize
  have := info.totalSize.toNat_lt
  have := distance.toInt_lt
  have := distance.le_toInt
  unfold Op.target
  dsimp only
  by_cases current : origin = 1
  · subst current
    rw [if_pos rfl] at start ⊢
    have other : (1 : UInt32) ≠ 2 := by decide
    rw [start] at sum
    constructor
    · intro _ impossible
      exact absurd impossible other
    · intro _
      omega
  rw [if_neg current] at start ⊢
  by_cases fromEnd : origin = 2
  · rw [if_pos fromEnd, size] at start
    rw [if_pos fromEnd]
    rw [start] at sum
    constructor
    · intro same _
      omega
    · intro near
      have := near fromEnd
      omega
  · rw [if_neg fromEnd] at start ⊢
    rw [start] at sum
    constructor
    · intro _ impossible
      exact absurd impossible fromEnd
    · intro _
      omega

theorem seek_far (dev : Bdev) (offset : UInt64) (s : σ) {distance : Int64}
    (far : 2 ^ 64 ≤ info.totalSize.toNat + distance.toInt) :
    ∃ place, tegrablPartitionSeek (some (opened info dev offset)) distance 2 s =
      ⟨.ok (), some (opened info dev place), s⟩ := by
  have size := toInt_toInt64 info.totalSize
  have sum := toInt_add_eq info.totalSize.toInt64 distance
  have := info.totalSize.toNat_lt
  have := distance.toInt_lt
  rw [if_neg (by omega)] at size
  rw [size, if_neg (by omega), if_pos (by omega)] at sum
  have here : 0 ≤ info.totalSize.toInt64 + distance := by
    rw [Int64.le_iff_toInt_le, sum]
    change (0 : Int) ≤ _
    omega
  have near : (info.totalSize.toInt64 + distance).toUInt64 ≤ info.totalSize := by
    rw [UInt64.le_iff_toNat_le, Int64.toNat_toUInt64_of_le here]
    change (info.totalSize.toInt64 + distance).toInt.toNat ≤ _
    omega
  unfold tegrablPartitionSeek opened seekBase
  dsimp only
  rw [if_neg (by decide), if_neg (by decide), if_pos rfl]
  dsimp only
  rw [if_neg (Int64.not_lt.mpr here), if_neg (UInt64.not_lt.mpr near)]
  exact ⟨_, rfl⟩

variable {t : Tracked σ}

theorem follows_seek (io : Io σ) (distance : Int64) (origin : UInt32)
    (here : t.partition = some (opened info dev offset)) (small : offset.toNat < 2 ^ 63)
    (tells : t.place = offset.toNat) : Tellable info dev (t.step io info (.seek distance origin)) ∧
      (Tells (t.step io info (.seek distance origin)) ↔
        (origin = 2 → info.totalSize.toNat + distance.toInt < 2 ^ 64)) := by
  obtain ⟨⟨partition, s⟩, place⟩ := t
  cases here
  obtain rfl : place = offset.toNat := tells
  have now := toInt_toInt64 offset
  rw [if_pos small] at now
  unfold Tells Tracked.step Session.step Op.call
  dsimp only
  rcases seek_cases info dev offset s distance origin with ⟨e, refused⟩ |
    ⟨base, known, positive, -, sought⟩
  · rw [refused]
    refine ⟨⟨offset, rfl, small⟩, fun _ fromEnd => ?_, fun _ => now⟩
    subst fromEnd
    by_contra far
    obtain ⟨place, done⟩ := seek_far dev offset s (not_lt.mp far)
    rw [done] at refused
    cases refused
  · have signed : 0 ≤ (base + distance).toInt := Int64.le_iff_toInt_le.mp positive
    have limit := (base + distance).toInt_lt
    rw [sought]
    refine ⟨⟨_, rfl, ?_⟩, ?_⟩
    · rw [Int64.toNat_toUInt64_of_le positive]
      change (base + distance).toInt.toNat < _
      omega
    · rw [tell_opened, Int64.toInt64_toUInt64]
      exact seek_lands small known signed

theorem tells_moved_iff {numBytes : UInt64} (small : offset.toNat < 2 ^ 63) :
    (offset + numBytes).toInt64.toInt = (offset.toNat : Int) + numBytes.toNat ↔ EndsBelow offset numBytes := by
  have := numBytes.toNat_lt
  have place := toInt_toInt64 (offset + numBytes)
  rw [UInt64.toNat_add] at place
  unfold EndsBelow
  omega

theorem moved_tellable {numBytes : UInt64} (small : offset.toNat < 2 ^ 63)
    (below : EndsBelow offset numBytes) : (offset + numBytes).toNat < 2 ^ 63 := by
  unfold EndsBelow at below
  rw [UInt64.toNat_add]
  omega

theorem follows_read (io : Io σ) (buf : Nat) (numBytes : UInt64)
    (here : t.partition = some (opened info dev offset)) (small : offset.toNat < 2 ^ 63)
    (tells : t.place = offset.toNat) (reaches : (Op.read buf numBytes).Reaches info offset) :
    (Tells (t.step io info (.read buf numBytes)) → Tellable info dev (t.step io info (.read buf numBytes))) ∧
      (Tells (t.step io info (.read buf numBytes)) ↔
        (Succeeds (io.read dev buf (offset + startByte info dev) numBytes) t.rest → EndsBelow offset numBytes)) := by
  obtain ⟨⟨partition, s⟩, place⟩ := t
  cases here
  obtain rfl : place = offset.toNat := tells
  have now := toInt_toInt64 offset
  rw [if_pos small] at now
  unfold Tells Tracked.step Session.step Op.call
  dsimp only
  cases done : (io.read dev buf (offset + startByte info dev) numBytes).run s with
  | mk result s' =>
    unfold Succeeds
    rw [done]
    cases result with
    | error e =>
      rw [read_reaches_error reaches done]
      refine ⟨fun _ => ⟨offset, rfl, small⟩, fun _ succeeded => ?_, fun _ => now⟩
      cases succeeded
    | ok _ =>
      rw [read_reaches_ok reaches done]
      dsimp only
      rw [tell_opened, Op.target, tells_moved_iff small]
      exact ⟨fun below => ⟨_, rfl, moved_tellable small below⟩, fun below _ => below, fun below => below rfl⟩

theorem follows_write (io : Io σ) (buf : Nat) (numBytes : UInt64)
    (here : t.partition = some (opened info dev offset)) (small : offset.toNat < 2 ^ 63)
    (tells : t.place = offset.toNat) (reaches : (Op.write buf numBytes).Reaches info offset) :
    (Tells (t.step io info (.write buf numBytes)) → Tellable info dev (t.step io info (.write buf numBytes))) ∧
      (Tells (t.step io info (.write buf numBytes)) ↔
        Succeeds (io.write dev buf (offset + startByte info dev) numBytes) t.rest ∧ EndsBelow offset numBytes) := by
  obtain ⟨⟨partition, s⟩, place⟩ := t
  cases here
  obtain rfl : place = offset.toNat := tells
  unfold Tells Tracked.step Session.step Op.call
  dsimp only
  rw [write_reaches reaches]
  dsimp only
  rw [tell_opened]
  unfold Succeeds
  cases result : ((io.write dev buf (offset + startByte info dev) numBytes).run s).1 with
  | error e =>
    -- The handle is `numBytes` further on, and the reference cursor is not.
    have nonzero : numBytes.toNat ≠ 0 := fun zero => reaches.2.1 (UInt64.toNat_inj.mp zero)
    have := numBytes.toNat_lt
    have moved := toInt_toInt64 (offset + numBytes)
    rw [UInt64.toNat_add] at moved
    have apart : (offset + numBytes).toInt64.toInt ≠ (offset.toNat : Int) := by omega
    refine ⟨fun tells => absurd tells apart, fun tells => absurd tells apart, ?_⟩
    rintro ⟨succeeded, -⟩
    cases succeeded
  | ok _ =>
    change ((offset + numBytes).toInt64.toInt = (offset.toNat : Int) + numBytes.toNat → _) ∧
      ((offset + numBytes).toInt64.toInt = (offset.toNat : Int) + numBytes.toNat ↔ _)
    rw [tells_moved_iff small]
    exact ⟨fun below => ⟨_, rfl, moved_tellable small below⟩, fun below => ⟨rfl, below⟩, fun below => below.2⟩

theorem follows_refused (io : Io σ) {op : Op}
    (here : t.partition = some (opened info dev offset)) (small : offset.toNat < 2 ^ 63)
    (tells : t.place = offset.toNat) (transfer : ∀ distance origin, op ≠ .seek distance origin)
    (stopped : ¬ op.Reaches info offset) : Tellable info dev (t.step io info op) ∧ Tells (t.step io info op) := by
  obtain ⟨⟨partition, s⟩, place⟩ := t
  cases here
  obtain rfl : place = offset.toNat := tells
  have now := toInt_toInt64 offset
  rw [if_pos small] at now
  obtain ⟨e, refused⟩ := transfer_refused io dev s transfer stopped
  unfold Tells Tracked.step Session.step
  dsimp only
  rw [refused]
  exact ⟨⟨offset, rfl, small⟩, now⟩

theorem follows_step (io : Io σ) (op : Op) (here : Tellable info dev t) (tells : Tells t) :
    (Tells (t.step io info op) → Tellable info dev (t.step io info op)) ∧
      (Tells (t.step io info op) ↔ Follows io info dev t op) := by
  obtain ⟨offset, handle, small⟩ := here
  have place : t.place = offset.toNat := by
    have now := toInt_toInt64 offset
    rw [if_pos small] at now
    unfold Tells at tells
    rw [handle, tell_opened] at tells
    exact tells.symm.trans now
  unfold Follows
  simp only [handle, Option.some.injEq, forall_eq']
  cases op with
  | seek distance origin =>
    obtain ⟨tellable, iff⟩ := follows_seek io distance origin handle small place
    exact ⟨fun _ => tellable, iff⟩
  | read buf numBytes =>
    by_cases reaches : (Op.read buf numBytes).Reaches info offset
    · obtain ⟨tellable, iff⟩ := follows_read io buf numBytes handle small place reaches
      exact ⟨tellable, iff.trans ⟨fun below _ => below, fun below => below reaches⟩⟩
    · obtain ⟨tellable, still⟩ := follows_refused io handle small place (by simp) reaches
      exact ⟨fun _ => tellable, fun _ passed => absurd passed reaches, fun _ => still⟩
  | write buf numBytes =>
    by_cases reaches : (Op.write buf numBytes).Reaches info offset
    · obtain ⟨tellable, iff⟩ := follows_write io buf numBytes handle small place reaches
      exact ⟨tellable, iff.trans ⟨fun below _ => below, fun below => below reaches⟩⟩
    · obtain ⟨tellable, still⟩ := follows_refused io handle small place (by simp) reaches
      exact ⟨fun _ => tellable, fun _ passed => absurd passed reaches, fun _ => still⟩

/-- The handle is a file cursor through a run exactly when every step meets the condition. -/
theorem partition_cursor (io : Io σ) (info : PartitionInfo) (dev : Bdev) (s : σ) (ops : List Op) :
    let start : Tracked σ := ⟨⟨some (opened info dev 0), s⟩, 0⟩
    Throughout (Tracked.step io info) Tells start ops ↔
      EachStep (Tracked.step io info) (Follows io info dev) start ops := by
  intro start
  have first : Tellable info dev start := ⟨0, rfl, by decide⟩
  have told : Tells start := rfl
  refine throughout_iff_eachStep (fun t op here now next => ?_) (fun t op here now => ?_)
    first told ops
  · exact (follows_step io op here now).1 next
  · exact (follows_step io op here now).2

end

def wholePartition : PartitionInfo := ⟨[65], [], [], 0, 8, 4096⟩
def readOnlyHooks : Hooks Unit := { idleHooks with write := fun _ _ _ _ => fail .invalid 0 }

/-- The driver refuses one sector, and the handle is behind it. -/
theorem partition_cursor_refused :
    ¬ ∀ (σ : Type) (io : Io σ) (info : PartitionInfo) (dev : Bdev) (s : σ) (ops : List Op),
      Throughout (Tracked.step io info) Tells ⟨⟨some (opened info dev 0), s⟩, 0⟩ ops := by
  intro claim
  have always := claim Unit (Io.blockdev readOnlyHooks) wholePartition smallDisk ()
    [.write 0x1000 512]
  have told := always [.write 0x1000 512] (List.prefix_refl _)
  have same : (512 : Int) = 0 := told
  omega

end Cboot.PartitionManager
