import Cboot.Blockdev.Access

/-!
The callers of the byte access, over a whole session. A read returns for each byte what the latest
write that covers it stored, and what the medium held at first where there is none.
-/

namespace Cboot.Blockdev
open Lib

structure ByteCall where
  alloc : Alloc
  buf : Nat
  offset : UInt64
  len : UInt64

structure ByteCall.Valid (dev : Bdev) (r : ByteCall) : Prop where
  nonempty : 0 < r.len
  inside : r.offset.toNat + r.len.toNat ≤ dev.size.toNat
  present : r.buf ≠ 0
  granted : Granted r.alloc dev r.buf r.len

section
variable {π : Type}

def ByteCall.read (driver : Hooks (Machine π)) (dev : Bdev) (r : ByteCall) : Call (Machine π) Unit :=
  tegrablBlockdevRead (driver.default r.alloc) (some dev) r.buf r.offset r.len

def ByteCall.write (driver : Hooks (Machine π)) (dev : Bdev) (r : ByteCall) :
    Call (Machine π) Unit :=
  tegrablBlockdevWrite (driver.default r.alloc) (some dev) r.buf r.offset r.len

/-- The device bytes of the request are in the buffer, and nothing else changed for the caller. -/
structure ReadDone (dev : Bdev) (r : ByteCall) (s s' : Machine π) : Prop where
  bytes : ∀ i < r.len.toNat, s'.mem (r.buf + i) = s.disk (r.offset.toNat + i)
  disk : s'.disk = s.disk
  others : ∀ x, x < r.buf ∨ r.buf + r.len.toNat ≤ x → ¬ Scratch r.alloc dev r.len x → s'.mem x = s.mem x

/-- The device bytes of the request are those of the buffer, and no other byte changed. -/
structure WriteDone (dev : Bdev) (r : ByteCall) (s s' : Machine π) : Prop where
  bytes : ∀ i < r.len.toNat, s'.disk (r.offset.toNat + i) = s.mem (r.buf + i)
  disk : ∀ x, x < r.offset.toNat ∨ r.offset.toNat + r.len.toNat ≤ x → s'.disk x = s.disk x
  others : ∀ x, ¬ Scratch r.alloc dev r.len x → s'.mem x = s.mem x

variable {driver : Hooks (Machine π)} {dev : Bdev} {r : ByteCall}

theorem passes_of_valid (valid : r.Valid dev) : (Request.bytes r.offset r.len).Passes dev := by
  have limit := dev.size.toNat_lt
  have inside := valid.inside
  have some : 0 < r.len.toNat := UInt64.lt_iff_toNat_lt.mp valid.nonempty
  rintro (late | long)
  · have late' := UInt64.le_iff_toNat_le.mp late
    omega
  · have long' := UInt64.lt_iff_toNat_lt.mp long
    rw [UInt64.toNat_add] at long'
    omega

theorem read_done (faithful : Faithful driver dev) (ready : Ready dev) (valid : r.Valid dev)
    (s : Machine π) : ∃ s', (r.read driver dev).run s = (.ok (), s') ∧ ReadDone dev r s s' := by
  have some : 0 < r.len.toNat := UInt64.lt_iff_toNat_lt.mp valid.nonempty
  have inside := valid.inside
  rw [size_setUp ready.setUp] at inside
  unfold ByteCall.read
  rw [read_eq (UInt64.pos_iff_ne_zero.mp valid.nonempty) ready.opened (passes_of_valid valid)]
  obtain ⟨⟨⟩, s', run, fetched⟩ :=
    yields_defaultRead faithful ready valid.granted inside some valid.present s
  refine ⟨s', run, ?_, fetched.disk, fetched.others⟩
  intro i lt
  rw [fetched.arrived _ (by omega) (by omega), Nat.add_sub_cancel_left]

theorem write_done (faithful : Faithful driver dev) (ready : Ready dev) (valid : r.Valid dev)
    (s : Machine π) : ∃ s', (r.write driver dev).run s = (.ok (), s') ∧ WriteDone dev r s s' := by
  have some : 0 < r.len.toNat := UInt64.lt_iff_toNat_lt.mp valid.nonempty
  have inside := valid.inside
  rw [size_setUp ready.setUp] at inside
  unfold ByteCall.write
  rw [write_eq (UInt64.pos_iff_ne_zero.mp valid.nonempty) ready.opened
    (passes_of_valid valid)]
  obtain ⟨⟨⟩, s', run, stored⟩ :=
    yields_defaultWrite faithful ready valid.granted inside some valid.present s
  refine ⟨s', run, ?_, ?_, stored.others⟩
  · intro i lt
    rw [stored.disk, blit_inside _ _ (by omega) (by omega), Nat.add_sub_cancel_left]
  · intro x out
    rw [stored.disk, blit_outside _ _ out]

structure Written where
  offset : Nat
  len : Nat
  byte : Nat → UInt8

/-- What the latest write that covers `x` put there. -/
def latest : List Written → Nat → Option UInt8
  | [], _ => none
  | w :: older, x =>
    if w.offset ≤ x ∧ x < w.offset + w.len then some (w.byte (x - w.offset)) else latest older x

/-- Reads and writes in any order, between which the caller does as it likes with its memory. -/
inductive Session (driver : Hooks (Machine π)) (dev : Bdev) (s₀ : Machine π) :
    List Written → Machine π → Prop
  | start : Session driver dev s₀ [] s₀
  | memory {log s} (mem : Mem) : Session driver dev s₀ log s → Session driver dev s₀ log { s with mem := mem }
  | read {log s s' result} (r : ByteCall) : Session driver dev s₀ log s → r.Valid dev →
      (r.read driver dev).run s = (result, s') → Session driver dev s₀ log s'
  | write {log s s' result} (r : ByteCall) : Session driver dev s₀ log s → r.Valid dev →
      (r.write driver dev).run s = (result, s') →
      Session driver dev s₀ (⟨r.offset.toNat, r.len.toNat, fun i => s.mem (r.buf + i)⟩ :: log) s'

theorem session_disk (faithful : Faithful driver dev) (ready : Ready dev) {s₀ s : Machine π}
    {log : List Written} (session : Session driver dev s₀ log s) (x : Nat) :
    s.disk x = (latest log x).getD (s₀.disk x) := by
  induction session with
  | start => rfl
  | memory mem _ ih => exact ih
  | read r _ valid run ih =>
    obtain ⟨s', run', done⟩ := read_done faithful ready valid _
    cases run.symm.trans run'
    rw [done.disk]
    exact ih
  | write r _ valid run ih =>
    obtain ⟨s', run', done⟩ := write_done faithful ready valid _
    cases run.symm.trans run'
    unfold latest
    by_cases covers : r.offset.toNat ≤ x ∧ x < r.offset.toNat + r.len.toNat
    · rw [if_pos covers]
      have byte := done.bytes (x - r.offset.toNat) (by omega)
      rwa [Nat.add_sub_cancel' covers.1] at byte
    · rw [if_neg covers, done.disk x (by omega)]
      exact ih

/-- Byte access over block access, for one call and over sessions. -/
theorem byte_access (driver : Hooks (Machine π)) (dev : Bdev) (faithful : Faithful driver dev) (ready : Ready dev) :
    (∀ (r : ByteCall) s, r.Valid dev → ∃ s', (r.read driver dev).run s = (.ok (), s') ∧ ReadDone dev r s s') ∧
    (∀ (r : ByteCall) s, r.Valid dev → ∃ s', (r.write driver dev).run s = (.ok (), s') ∧ WriteDone dev r s s') ∧
    (∀ s₀ log s (r : ByteCall), Session driver dev s₀ log s → r.Valid dev →
      ∃ s', (r.read driver dev).run s = (.ok (), s') ∧ ∀ i < r.len.toNat, s'.mem (r.buf + i) =
          (latest log (r.offset.toNat + i)).getD (s₀.disk (r.offset.toNat + i))) := by
  refine ⟨fun r s valid => read_done faithful ready valid s, fun r s valid => write_done faithful ready valid s, ?_⟩
  intro s₀ log s r session valid
  obtain ⟨s', run, done⟩ := read_done faithful ready valid s
  refine ⟨s', run, ?_⟩
  intro i lt
  rw [done.bytes i lt]
  exact session_disk faithful ready session _

end

def ramDriver : Hooks (Machine Unit) where
  read _ _ _ _ := pure ()
  write _ _ _ _ := pure ()
  readBlock dev buf block count := modify fun s =>
    { s with mem := blit s.mem buf s.disk (block.toNat * dev.unit) (count.toNat * dev.unit) }
  writeBlock dev buf block count := modify fun s =>
    { s with disk := blit s.disk (block.toNat * dev.unit) s.mem buf (count.toNat * dev.unit) }
  erase _ _ _ _ := pure ()
  xfer xfer := pure xfer

theorem ramDriver_faithful (dev : Bdev) : Faithful ramDriver dev where
  readBlock _ _ _ _ _ _ _ := ⟨(), rfl⟩
  writeBlock _ _ _ _ _ _ _ := ⟨(), rfl⟩

def roomyHeap : Alloc
  | .partialBlock, _ => 0x8000
  | .temp, _ => 0x9000

def oddCall : ByteCall := ⟨roomyHeap, 0x1001, 100, 1500⟩

theorem oddCall_valid : oddCall.Valid smallDisk where
  nonempty := by decide
  inside := by decide
  present := by decide
  granted := by
    refine ⟨⟨by decide, ⟨0x1000, rfl⟩, .inr (by decide)⟩, ?_⟩
    intro size le
    have apart : 0x1001 + 1500 ≤ 0x9000 := by decide
    exact ⟨by change 0x9000 ≠ 0; decide, ⟨0x1200, rfl⟩, .inr apart⟩

theorem smallDisk_ready : Ready smallDisk := ⟨smallDisk_setUp, by decide, by decide, by decide⟩

theorem byte_access_odd : Faithful ramDriver smallDisk ∧ Ready smallDisk ∧ oddCall.Valid smallDisk ∧
      ∀ s, ∃ s', (oddCall.write ramDriver smallDisk).run s = (.ok (), s') ∧ WriteDone smallDisk oddCall s s' :=
  ⟨ramDriver_faithful _, smallDisk_ready, oddCall_valid, fun s =>
    (byte_access ramDriver smallDisk (ramDriver_faithful _) smallDisk_ready).2.1 oddCall s
      oddCall_valid⟩

def wideDisk : Bdev := { smallDisk with bufAlignSize := 16 }

def offCall : ByteCall :=
  ⟨fun | .partialBlock, _ => 0x8008 | .temp, _ => 0x9008, 0x1000, 100, 1⟩

theorem offCall_valid : offCall.Valid wideDisk where
  nonempty := by decide
  inside := by decide
  present := by decide
  granted := by
    refine ⟨⟨by decide, ⟨0x1001, rfl⟩, .inr (by decide)⟩, ?_⟩
    intro size le
    have apart : 0x1000 + 1 ≤ 0x9008 := by decide
    exact ⟨by change 0x9008 ≠ 0; decide, ⟨0x1201, rfl⟩, .inr apart⟩

/-- The bounce buffers are aligned to 8 for every device, so one that asks for more refuses them. -/
theorem byte_access_alignment : ¬ ∀ (driver : Hooks (Machine Unit)) (dev : Bdev), SetUp dev → dev.ref ≠ 0 →
      Faithful driver dev → ∀ (r : ByteCall) s, r.Valid dev →
        ∃ s', (r.read driver dev).run s = (.ok (), s') ∧ ReadDone dev r s s' := by
  intro claim
  have setUp : SetUp wideDisk := ⟨by decide, ⟨⟨7, 0, 0, 0, 0, 16⟩, rfl⟩⟩
  let blank : Machine Unit := ⟨fun _ => 0, fun _ => 0, ()⟩
  have refused : ((offCall.read ramDriver wideDisk).run blank).1 = .error ⟨.invalid, 25⟩ := rfl
  obtain ⟨s', run, -⟩ := claim ramDriver wideDisk setUp (by decide) (ramDriver_faithful _) offCall
    blank offCall_valid
  rw [run] at refused
  cases refused

end Cboot.Blockdev
