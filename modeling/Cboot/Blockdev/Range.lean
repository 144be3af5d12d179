import Cboot.Blockdev.Model

/-!
The range checks add in the width of their arguments.
-/

namespace Cboot.Blockdev

/-- A device from `tegrabl_blockdev_initialize_bdev`. -/
structure SetUp (dev : Bdev) : Prop where
  log2_lt : dev.blockSizeLog2.toNat < 32
  initialized : ∃ old, tegrablBlockdevInitializeBdev (some old) dev.deviceId dev.blockSizeLog2
    dev.blockCount = .ok { dev with ref := 0 }

def Bdev.capacity (dev : Bdev) : Nat := dev.blockCount.toNat * 2 ^ dev.blockSizeLog2.toNat

theorem size_setUp {dev : Bdev} (setUp : SetUp dev) : dev.size.toNat = dev.capacity := by
  obtain ⟨small, old, initialized⟩ := setUp
  have size : dev.size = dev.blockCount.toUInt64 <<< dev.blockSizeLog2.toUInt64 := by
    have same := Except.ok.inj initialized
    exact (congrArg Bdev.size same).symm
  have power : 2 ^ dev.blockSizeLog2.toNat ≤ 2 ^ 31 := Nat.pow_le_pow_right (by decide) (by omega)
  have count := dev.blockCount.toNat_lt
  have fits : dev.blockCount.toNat * 2 ^ dev.blockSizeLog2.toNat < 2 ^ 64 :=
    calc dev.blockCount.toNat * 2 ^ dev.blockSizeLog2.toNat
        ≤ dev.blockCount.toNat * 2 ^ 31 := Nat.mul_le_mul_left _ power
      _ < 2 ^ 64 := by omega
  rw [size, UInt64.toNat_shiftLeft, UInt32.toNat_toUInt64, UInt32.toNat_toUInt64,
    Nat.mod_eq_of_lt (a := dev.blockSizeLog2.toNat) (by omega), Nat.shiftLeft_eq, Nat.mod_eq_of_lt fits, Bdev.capacity]

inductive Request where
  | bytes (offset len : UInt64)
  | blocks (block count : UInt32)
  deriving DecidableEq, Repr

namespace Request

def Inside (dev : Bdev) : Request → Prop
  | bytes offset len => offset.toNat + len.toNat ≤ dev.capacity
  | blocks block count => block.toNat + count.toNat ≤ dev.blockCount.toNat

def Passes (dev : Bdev) : Request → Prop
  | bytes offset len => ¬ (offset ≥ dev.size ∨ offset + len > dev.size)
  | blocks block count => ¬ (block > dev.blockCount ∨ block + count > dev.blockCount)

/-- The request starts on the device and its end does not fit the width of the sum. -/
def Wraps (dev : Bdev) : Request → Prop
  | bytes offset len => offset < dev.size ∧ 2 ^ 64 ≤ offset.toNat + len.toNat
  | blocks block count => block ≤ dev.blockCount ∧ 2 ^ 32 ≤ block.toNat + count.toNat

theorem passes_of_wraps {dev : Bdev} {q : Request} (wraps : q.Wraps dev) : q.Passes dev := by
  cases q with
  | bytes offset len =>
    obtain ⟨starts, wraps⟩ := wraps
    have bound := len.toNat_lt
    have start : offset.toNat < dev.size.toNat := starts
    have sum : (offset + len).toNat = offset.toNat + len.toNat - 2 ^ 64 := by
      have := offset.toNat_lt
      rw [UInt64.toNat_add]
      omega
    rintro (late | long)
    · exact absurd (UInt64.le_iff_toNat_le.mp late) (by omega)
    · exact absurd (UInt64.lt_iff_toNat_lt.mp long) (by omega)
  | blocks block count =>
    obtain ⟨starts, wraps⟩ := wraps
    have bound := count.toNat_lt
    have start : block.toNat ≤ dev.blockCount.toNat := starts
    have sum : (block + count).toNat = block.toNat + count.toNat - 2 ^ 32 := by
      have := block.toNat_lt
      rw [UInt32.toNat_add]
      omega
    rintro (late | long)
    · exact absurd (UInt32.lt_iff_toNat_lt.mp late) (by omega)
    · exact absurd (UInt32.lt_iff_toNat_lt.mp long) (by omega)

theorem inside_iff_of_passes {dev : Bdev} (setUp : SetUp dev) {q : Request}
    (passes : q.Passes dev) : q.Inside dev ↔ ¬ q.Wraps dev := by
  cases q with
  | bytes offset len =>
    have size := size_setUp setUp
    have limit := dev.size.toNat_lt
    obtain ⟨early, short⟩ := not_or.mp passes
    have start : offset.toNat < dev.size.toNat := by
      simpa [UInt64.le_iff_toNat_le] using early
    have stop : (offset.toNat + len.toNat) % 2 ^ 64 ≤ dev.size.toNat := by
      rw [← UInt64.toNat_add]
      simpa [UInt64.lt_iff_toNat_lt] using short
    change offset.toNat + len.toNat ≤ dev.capacity ↔ ¬ (offset < dev.size ∧ 2 ^ 64 ≤ offset.toNat + len.toNat)
    rw [UInt64.lt_iff_toNat_lt]
    omega
  | blocks block count =>
    have limit := dev.blockCount.toNat_lt
    obtain ⟨early, short⟩ := not_or.mp passes
    have start : block.toNat ≤ dev.blockCount.toNat := by
      simpa [UInt32.lt_iff_toNat_lt] using early
    have stop : (block.toNat + count.toNat) % 2 ^ 32 ≤ dev.blockCount.toNat := by
      rw [← UInt32.toNat_add]
      simpa [UInt32.lt_iff_toNat_lt] using short
    change block.toNat + count.toNat ≤ dev.blockCount.toNat ↔
      ¬ (block ≤ dev.blockCount ∧ 2 ^ 32 ≤ block.toNat + count.toNat)
    rw [UInt32.le_iff_toNat_le]
    omega

end Request

section
variable {σ : Type} {hooks : Hooks σ} {dev : Bdev} {buf : Nat}

theorem read_eq {offset len : UInt64} (nonempty : len ≠ 0) (opened : dev.ref ≠ 0)
    (passes : (Request.bytes offset len).Passes dev) :
    tegrablBlockdevRead hooks (some dev) buf offset len = hooks.read dev buf offset len := by
  unfold tegrablBlockdevRead
  dsimp only
  rw [if_neg nonempty, if_neg opened, if_neg passes]

theorem write_eq {offset len : UInt64} (nonempty : len ≠ 0) (opened : dev.ref ≠ 0)
    (passes : (Request.bytes offset len).Passes dev) :
    tegrablBlockdevWrite hooks (some dev) buf offset len = hooks.write dev buf offset len := by
  unfold tegrablBlockdevWrite
  dsimp only
  rw [if_neg nonempty, if_neg opened, if_neg passes]

theorem readBlock_eq {block count : UInt32} (nonempty : count ≠ 0)
    (aligned : tegrablBlockdevBufferAligned dev buf) (opened : dev.ref ≠ 0)
    (passes : (Request.blocks block count).Passes dev) : tegrablBlockdevReadBlock hooks (some dev) buf block count =
      hooks.readBlock dev buf block count := by
  unfold tegrablBlockdevReadBlock
  dsimp only
  rw [if_neg nonempty, if_neg (not_not.mpr aligned), if_neg opened, if_neg passes]

theorem writeBlock_eq {block count : UInt32} (nonempty : count ≠ 0) (present : buf ≠ 0)
    (aligned : tegrablBlockdevBufferAligned dev buf) (opened : dev.ref ≠ 0)
    (passes : (Request.blocks block count).Passes dev) : tegrablBlockdevWriteBlock hooks (some dev) buf block count =
      hooks.writeBlock dev buf block count := by
  unfold tegrablBlockdevWriteBlock
  dsimp only
  rw [if_neg (not_or.mpr ⟨nonempty, present⟩), if_neg (not_not.mpr aligned), if_neg passes, if_neg opened]

end

section
variable {σ α : Type}

def noted (q : Request) (c : Call σ α) : Call (List Request × σ) α := do
  modify fun s => (s.1 ++ [q], s.2)
  fun s => ((c.run s.2).1, (s.1, (c.run s.2).2))

theorem run_noted {q : Request} {c : Call σ α} {log : List Request} {s s' : σ}
    {result : Except Error α} (made : c.run s = (result, s')) :
    Call.run (noted q c) (log, s) = (result, log ++ [q], s') := by
  change ((c.run s).1, (log ++ [q], (c.run s).2)) = _
  rw [made]

def Hooks.recorded (hooks : Hooks σ) : Hooks (List Request × σ) where
  read dev buf offset len := noted (.bytes offset len) (hooks.read dev buf offset len)
  write dev buf offset len := noted (.bytes offset len) (hooks.write dev buf offset len)
  readBlock dev buf block count := noted (.blocks block count) (hooks.readBlock dev buf block count)
  writeBlock dev buf block count :=
    noted (.blocks block count) (hooks.writeBlock dev buf block count)
  erase dev block count isSecure := noted (.blocks block count) (hooks.erase dev block count isSecure)
  xfer xfer := noted (.blocks xfer.startBlock xfer.blockCount) (hooks.xfer xfer)

end

inductive Entry where
  | read (buf : Nat) (offset len : UInt64)
  | readBlock (buf : Nat) (block count : UInt32)
  | write (buf : Nat) (offset len : UInt64)
  | writeBlock (buf : Nat) (block count : UInt32)
  | erase (block count : UInt32) (isSecure : Bool)
  | xfer (xferId : UInt32) (info : XferInfo)

namespace Entry

def run {σ : Type} (hooks : Hooks σ) (dev : Bdev) : Entry → Call σ Unit
  | read buf offset len => tegrablBlockdevRead hooks (some dev) buf offset len
  | readBlock buf block count => tegrablBlockdevReadBlock hooks (some dev) buf block count
  | write buf offset len => tegrablBlockdevWrite hooks (some dev) buf offset len
  | writeBlock buf block count => tegrablBlockdevWriteBlock hooks (some dev) buf block count
  | erase block count isSecure => tegrablBlockdevErase hooks (some dev) block count isSecure
  | xfer xferId info => do
    let _ ← tegrablBlockdevXfer hooks xferId (some { info with dev := some dev })

def request : Entry → Request
  | read _ offset len | write _ offset len => .bytes offset len
  | readBlock _ block count | writeBlock _ block count | erase block count _ => .blocks block count
  | xfer _ info => .blocks info.startBlock info.blockCount

def Admitted (dev : Bdev) : Entry → Prop
  | read _ _ len | write _ _ len => len ≠ 0 ∧ dev.ref ≠ 0
  | readBlock buf _ count => count ≠ 0 ∧ tegrablBlockdevBufferAligned dev buf ∧ dev.ref ≠ 0
  | writeBlock buf _ count =>
    count ≠ 0 ∧ buf ≠ 0 ∧ tegrablBlockdevBufferAligned dev buf ∧ dev.ref ≠ 0
  | erase _ count _ => count ≠ 0 ∧ dev.ref ≠ 0
  | xfer _ _ => dev.ref ≠ 0

section
variable {σ : Type}

theorem refused_ite {α : Type} {c : Prop} [Decidable c] {reason : Reason} {detail : Nat}
    {next : Call σ α} {s : σ} (later : ¬ c → ∃ error, next.run s = (.error error, s)) :
    ∃ error, Call.run (if c then fail reason detail else next) s = (.error error, s) := by
  by_cases check : c
  · rw [if_pos check]
    exact ⟨_, rfl⟩
  · rw [if_neg check]
    exact later check

theorem run_refused (hooks : Hooks σ) (dev : Bdev) (e : Entry) (s : σ)
    (refused : ¬ (e.Admitted dev ∧ e.request.Passes dev)) : ∃ error, (e.run hooks dev).run s = (.error error, s) := by
  cases e with
  | read buf offset len =>
    refine refused_ite fun nonempty => refused_ite fun opened => refused_ite fun inRange => ?_
    exact absurd ⟨⟨nonempty, opened⟩, inRange⟩ refused
  | write buf offset len =>
    refine refused_ite fun nonempty => refused_ite fun opened => refused_ite fun inRange => ?_
    exact absurd ⟨⟨nonempty, opened⟩, inRange⟩ refused
  | readBlock buf block count =>
    refine refused_ite fun nonempty => refused_ite fun aligned => refused_ite fun opened =>
      refused_ite fun inRange => ?_
    exact absurd ⟨⟨nonempty, not_not.mp aligned, opened⟩, inRange⟩ refused
  | writeBlock buf block count =>
    refine refused_ite fun given => refused_ite fun aligned => refused_ite fun inRange =>
      refused_ite fun opened => ?_
    obtain ⟨nonempty, present⟩ := not_or.mp given
    exact absurd ⟨⟨nonempty, present, not_not.mp aligned, opened⟩, inRange⟩ refused
  | erase block count isSecure =>
    refine refused_ite fun nonempty => refused_ite fun inRange => refused_ite fun opened => ?_
    exact absurd ⟨⟨nonempty, opened⟩, inRange⟩ refused
  | xfer xferId info =>
    have failed : ∃ error, (tegrablBlockdevXfer hooks xferId
        (some { info with dev := some dev })).run s = (.error error, s) := by
      refine refused_ite fun inRange => refused_ite fun opened => ?_
      exact absurd ⟨opened, inRange⟩ refused
    obtain ⟨error, failed⟩ := failed
    exact ⟨error, Call.run_bind_error failed⟩

theorem run_admitted (hooks : Hooks σ) (dev : Bdev) (e : Entry) (log : List Request) (s : σ)
    (admitted : e.Admitted dev) (passes : e.request.Passes dev) :
    ((e.run hooks.recorded dev).run (log, s)).2.1 = log ++ [e.request] := by
  cases e with
  | read buf offset len =>
    obtain ⟨nonempty, opened⟩ := admitted
    rw [run, read_eq nonempty opened passes]
    rfl
  | write buf offset len =>
    obtain ⟨nonempty, opened⟩ := admitted
    rw [run, write_eq nonempty opened passes]
    rfl
  | readBlock buf block count =>
    obtain ⟨nonempty, aligned, opened⟩ := admitted
    rw [run, readBlock_eq nonempty aligned opened passes]
    rfl
  | writeBlock buf block count =>
    obtain ⟨nonempty, present, aligned, opened⟩ := admitted
    rw [run, writeBlock_eq nonempty present aligned opened passes]
    rfl
  | erase block count isSecure =>
    obtain ⟨nonempty, opened⟩ := admitted
    unfold run tegrablBlockdevErase
    dsimp only
    rw [if_neg nonempty, if_neg passes, if_neg opened]
    rfl
  | xfer xferId info =>
    unfold run tegrablBlockdevXfer
    dsimp only
    rw [if_neg passes, if_neg admitted, Call.run_bind_pure, Call.run_bind_pure]
    rfl

end

end Entry

section
variable {σ : Type}

def RangeSafe (hooks : Hooks σ) (dev : Bdev) (s : σ) (e : Entry) : Prop :=
  let out := (e.run hooks.recorded dev).run ([], s)
  (out.2.1 = [] ∧ ∃ error, out.1 = .error error) ∨ ∃ q, out.2.1 = [q] ∧ q.Inside dev

/-- The entry points keep every request on the device except those whose end wraps. -/
theorem range_safety (hooks : Hooks σ) (dev : Bdev) (s : σ) (e : Entry) (setUp : SetUp dev) :
    RangeSafe hooks dev s e ↔ ¬ (e.Admitted dev ∧ e.request.Wraps dev) := by
  unfold RangeSafe
  dsimp only
  by_cases through : e.Admitted dev ∧ e.request.Passes dev
  · obtain ⟨admitted, passes⟩ := through
    have asked := e.run_admitted hooks dev [] s admitted passes
    have inside := Request.inside_iff_of_passes setUp passes
    rw [asked]
    constructor
    · rintro (⟨silent, -⟩ | ⟨q, one, part⟩) ⟨-, wraps⟩
      · cases silent
      · cases one
        exact inside.mp part wraps
    · intro tame
      have part := inside.mpr fun wraps => tame ⟨admitted, wraps⟩
      exact .inr ⟨e.request, rfl, part⟩
  · obtain ⟨error, refused⟩ := e.run_refused hooks.recorded dev ([], s) through
    rw [refused]
    constructor
    · rintro - ⟨admitted, wraps⟩
      exact through ⟨admitted, Request.passes_of_wraps wraps⟩
    · intro tame
      exact .inl ⟨rfl, error, rfl⟩

end

def idleHooks : Hooks Unit where
  read _ _ _ _ := pure ()
  write _ _ _ _ := pure ()
  readBlock _ _ _ _ := pure ()
  writeBlock _ _ _ _ := pure ()
  erase _ _ _ _ := pure ()
  xfer xfer := pure xfer

def smallDisk : Bdev := ⟨1, 0x10003, 4096, 9, 8, 4⟩

theorem smallDisk_setUp : SetUp smallDisk :=
  ⟨by decide, ⟨⟨7, 0, 0, 0, 0, 4⟩, rfl⟩⟩

theorem range_safety_last_block : SetUp smallDisk ∧ RangeSafe idleHooks smallDisk () (.readBlock 0x1000 7 1) :=
  ⟨smallDisk_setUp, (range_safety idleHooks smallDisk () (.readBlock 0x1000 7 1) smallDisk_setUp).mpr
    (by rintro ⟨-, -, wraps⟩; exact absurd wraps (by decide))⟩

/-- Block 1 and `2 ^ 32 - 1` more: the sum is 0, and the driver is asked for all of them. -/
theorem range_safety_wrapped : ¬ ∀ (σ : Type) (hooks : Hooks σ) (dev : Bdev) (s : σ) (e : Entry),
      SetUp dev → RangeSafe hooks dev s e := by
  intro claim
  have safe := claim Unit idleHooks smallDisk () (.readBlock 0x1000 1 0xFFFFFFFF) smallDisk_setUp
  rcases safe with ⟨silent, -⟩ | ⟨q, one, inside⟩
  · exact absurd silent (by decide)
  · have asked : q = .blocks 1 0xFFFFFFFF := (List.cons.inj one).1.symm
    subst asked
    have part : 1 + 0xFFFFFFFF ≤ 8 := inside
    omega

end Cboot.Blockdev
