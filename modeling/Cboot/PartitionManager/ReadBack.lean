import Cboot.Lib.Runs
import Cboot.PartitionManager.Model
import Cboot.PartitionManager.Verify

/-!
`tegrabl_partition_verify_write` keeps one error variable for the whole list and remembers only that a CRC differed.
-/

namespace Cboot.PartitionManager
open Blockdev Utils Lib

section
variable {σ : Type}

def Reads (io : Io σ) (memory : σ → Nat → UInt8) (content : Bdev → UInt64 → UInt8) : Prop :=
  ∀ dev buf offset len s s', (io.read dev buf offset len).run s = (.ok (), s') →
    ∀ i < len.toNat, memory s' (buf + i) = content dev (offset + UInt64.ofNat i)

def partitionBytes (content : Bdev → UInt64 → UInt8) (info : PartitionInfo) (dev : Bdev)
    (first len : Nat) : List UInt8 :=
  (List.range len).map fun i => content dev (startByte info dev + UInt64.ofNat (first + i))

variable {io : Io σ} {memory : σ → Nat → UInt8} {content : Bdev → UInt64 → UInt8}
  {info : PartitionInfo} {dev : Bdev} {buffer : Nat}

theorem partitionBytes_add (content : Bdev → UInt64 → UInt8) (info : PartitionInfo) (dev : Bdev) (first n m : Nat) :
    partitionBytes content info dev first (n + m) =
      partitionBytes content info dev first n ++ partitionBytes content info dev (first + n) m := by
  unfold partitionBytes
  rw [List.range_add, List.map_append, List.map_map]
  congr 1
  refine List.map_congr_left fun i _ => ?_
  rw [Function.comp_apply, Nat.add_assoc]

theorem bufferBytes_read (reads : Reads io memory content) {offset len : UInt64} {s s' : σ}
    (done : (io.read dev buffer (offset + startByte info dev) len).run s = (.ok (), s')) :
    bufferBytes memory buffer len s' = partitionBytes content info dev offset.toNat len.toNat := by
  unfold bufferBytes partitionBytes
  refine List.map_congr_left fun i inRange => ?_
  rw [reads _ _ _ _ _ _ done i (List.mem_range.mp inRange), UInt64.ofNat_add, UInt64.ofNat_toNat,
    ← UInt64.add_assoc, UInt64.add_comm offset]

theorem readCrc_ok (reads : Reads io memory content) (fuel : Nat) {offset size : UInt64}
    {crc result : UInt32} {s s' : σ} (enough : size.toNat ≤ fuel * readBufferSize.toNat)
    (short : offset.toNat + size.toNat < 2 ^ 64) (inside : offset ≤ info.totalSize)
    (done : readCrc io memory buffer fuel (some (opened info dev offset)) size crc s = (.ok result, s')) :
    offset.toNat + size.toNat ≤ info.totalSize.toNat ∧
      result = tegrablUtilsCrc32 crc (partitionBytes content info dev offset.toNat size.toNat) := by
  induction fuel generalizing offset size crc s with
  | zero =>
    have empty : size.toNat = 0 := by omega
    cases done
    rw [empty]
    exact ⟨UInt64.le_iff_toNat_le.mp inside, (tegrablUtilsCrc32_nil _).symm⟩
  | succ fuel ih =>
    unfold readCrc at done
    by_cases empty : size = 0
    · rw [if_pos empty] at done
      cases done
      subst empty
      exact ⟨UInt64.le_iff_toNat_le.mp inside, (tegrablUtilsCrc32_nil _).symm⟩
    rw [if_neg empty] at done
    dsimp only at done
    cases read : (tegrablPartitionRead io (some (opened info dev offset)) buffer
        (min readBufferSize size) s).result with
    | error e =>
      rw [read] at done
      cases done
    | ok _ =>
      obtain ⟨⟨-, -, passes⟩, t, device, step⟩ := read_ok read
      rw [step] at done
      dsimp only at done
      have chunk : (min readBufferSize size).toNat = min readBufferSize.toNat size.toNat :=
        UInt64.toNat_min _ _
      have piece : (min readBufferSize size).toNat ≤ size.toNat := by omega
      have left : (size - min readBufferSize size).toNat = size.toNat - (min readBufferSize size).toNat :=
        UInt64.toNat_sub_of_le _ _ (UInt64.le_iff_toNat_le.mpr piece)
      have moved : (offset + min readBufferSize size).toNat = offset.toNat + (min readBufferSize size).toNat := by
        rw [UInt64.toNat_add, Nat.mod_eq_of_lt (by omega)]
      have place : offset + min readBufferSize size ≤ info.totalSize := by
        rw [UInt64.add_comm]
        exact UInt64.not_lt.mp passes
      rw [Nat.succ_mul] at enough
      obtain ⟨within, crc⟩ := ih (by omega) (by omega) place done
      refine ⟨by omega, ?_⟩
      rw [crc, bufferBytes_read reads device, ← tegrablUtilsCrc32_append, moved, ← partitionBytes_add,
        left, Nat.add_sub_cancel' piece]

variable {openPartition : List UInt8 → Except Error Partition} {entry : VerifyInfo} {s : σ}

def Matches (content : Bdev → UInt64 → UInt8) (openPartition : List UInt8 → Except Error Partition)
    (entry : VerifyInfo) : Prop :=
  ∀ info dev, openPartition entry.name = .ok (opened info dev 0) → entry.size ≤ info.totalSize ∧
      tegrablUtilsCrc32 0 (partitionBytes content info dev 0 entry.size.toNat) = entry.crc32

def Unread (io : Io σ) (memory : σ → Nat → UInt8) (buffer : Nat)
    (openPartition : List UInt8 → Except Error Partition) (s : σ) (entry : VerifyInfo) : Prop :=
  entry.crc32 = 0 ∨ ∀ p, openPartition entry.name = .ok p →
    ∃ e, (readCrc io memory buffer (readRounds entry.size) (some p) entry.size 0 s).1 = .error e

theorem le_readRounds (size : UInt64) : size.toNat ≤ readRounds size * readBufferSize.toNat := by
  have positive : 0 < readBufferSize.toNat := by decide
  exact (Nat.lt_mul_of_div_lt (Nat.lt_succ_self _) positive).le

theorem seek_opened (info : PartitionInfo) (dev : Bdev) (s : σ) :
    tegrablPartitionSeek (some (opened info dev 0)) (opened info dev 0).offset.toInt64 0 s =
      ⟨.ok (), some (opened info dev 0), s⟩ := by
  unfold tegrablPartitionSeek opened seekBase
  dsimp only
  rw [if_pos rfl]
  dsimp only
  have here : ((0 : Int64) + UInt64.toInt64 0).toUInt64 = 0 := by decide
  rw [if_neg (by decide), here, if_neg (UInt64.not_lt.mpr UInt64.zero_le)]

theorem compareEntry_unread (opens : openPartition entry.name = .ok (opened info dev 0))
    (unread : Unread io memory buffer openPartition s entry) :
    ∃ e, (compareEntry io memory buffer (opened info dev 0) entry s).1 = .error (.other e) := by
  unfold compareEntry
  by_cases none : entry.crc32 = 0
  · rw [if_neg (not_not.mpr none)]
    exact ⟨_, rfl⟩
  rw [if_pos none]
  obtain ⟨e, failed⟩ := (unread.resolve_left none) _ opens
  unfold readVerifyPartition
  dsimp only
  rw [seek_opened]
  dsimp only
  cases loop : readCrc io memory buffer (readRounds entry.size) (some (opened info dev 0)) entry.size 0
      s with
  | mk result t =>
    rw [loop] at failed
    cases failed
    exact ⟨e, rfl⟩

theorem compareEntry_read (reads : Reads io memory content) (opens : openPartition entry.name = .ok (opened info dev 0))
    (read : ¬ Unread io memory buffer openPartition s entry) : (Matches content openPartition entry ∧
        (compareEntry io memory buffer (opened info dev 0) entry s).1 = .ok ()) ∨
      (¬ Matches content openPartition entry ∧
        (compareEntry io memory buffer (opened info dev 0) entry s).1 = .error .verifyFailed) := by
  obtain ⟨recorded, loops⟩ := not_or.mp read
  unfold compareEntry
  rw [if_pos recorded]
  unfold readVerifyPartition
  dsimp only
  rw [seek_opened]
  dsimp only
  cases loop : readCrc io memory buffer (readRounds entry.size) (some (opened info dev 0)) entry.size 0
      s with
  | mk result t =>
    cases result with
    | error e =>
      refine absurd (fun p same => ?_) loops
      cases opens.symm.trans same
      rw [loop]
      exact ⟨e, rfl⟩
    | ok crc =>
      have size := entry.size.toNat_lt
      obtain ⟨within, same⟩ := readCrc_ok reads _ (le_readRounds _) (by simpa using size)
        UInt64.zero_le loop
      have matched : Matches content openPartition entry ↔ entry.crc32 = crc := by
        constructor
        · intro matched
          rw [same]
          exact (matched info dev opens).2.symm
        · intro equal info' dev' opens'
          cases opens.symm.trans opens'
          rw [equal, same]
          exact ⟨UInt64.le_iff_toNat_le.mpr (by simpa using within), rfl⟩
      by_cases equal : entry.crc32 = crc
      · exact .inl ⟨matched.mpr equal, if_pos equal⟩
      · exact .inr ⟨fun holds => equal (matched.mp holds), if_neg equal⟩

def afterEntry (io : Io σ) (memory : σ → Nat → UInt8) (buffer : Nat)
    (openPartition : List UInt8 → Except Error Partition) (s : σ) (entry : VerifyInfo) : σ :=
  match openPartition entry.name with
  | .error _ => s
  | .ok p => (compareEntry io memory buffer p entry s).2

def LastStep {S A : Type} (step : S → A → S) (Q : S → A → Prop) : S → List A → Prop
  | _, [] => True
  | s, [a] => Q s a
  | s, a :: b :: rest => LastStep step Q (step s a) (b :: rest)

def Opens (openPartition : List UInt8 → Except Error Partition) : Prop :=
  ∀ name p, openPartition name = .ok p → ∃ info dev, p = opened info dev 0

structure ReadsClean (io : Io σ) (memory : σ → Nat → UInt8) (content : Bdev → UInt64 → UInt8)
    (buffer : Nat) (openPartition : List UInt8 → Except Error Partition) (list : List VerifyInfo)
    (s : σ) : Prop where
  found : ∀ entry ∈ list, ∃ p, openPartition entry.name = .ok p
  same : EachStep (afterEntry io memory buffer openPartition)
    (fun s entry => ¬ Unread io memory buffer openPartition s entry → Matches content openPartition entry) s list
  last : LastStep (afterEntry io memory buffer openPartition)
    (fun s entry => ¬ Unread io memory buffer openPartition s entry) s list

variable {list : List VerifyInfo}

theorem lastStep_cons {S A : Type} {step : S → A → S} {Q : S → A → Prop} {s : S} {a : A} {rest : List A} :
    LastStep step Q s (a :: rest) ↔ (rest = [] → Q s a) ∧ LastStep step Q (step s a) rest := by
  cases rest with
  | nil => exact ⟨fun last => ⟨fun _ => last, trivial⟩, fun last => last.1 rfl⟩
  | cons b rest =>
    refine ⟨fun last => ⟨fun empty => ?_, last⟩, fun last => last.2⟩
    cases empty

theorem readsClean_cons {p : Partition} (found : openPartition entry.name = .ok p) {rest : List VerifyInfo} :
    ReadsClean io memory content buffer openPartition (entry :: rest) s ↔
      (¬ Unread io memory buffer openPartition s entry → Matches content openPartition entry) ∧
        (rest = [] → ¬ Unread io memory buffer openPartition s entry) ∧
        ReadsClean io memory content buffer openPartition rest (afterEntry io memory buffer openPartition s entry) := by
  constructor
  · rintro ⟨all, same, last⟩
    obtain ⟨first, same⟩ := eachStep_cons.mp same
    obtain ⟨alone, last⟩ := lastStep_cons.mp last
    exact ⟨first, alone, fun e member => all e (List.mem_cons_of_mem _ member), same, last⟩
  · rintro ⟨first, alone, all, same, last⟩
    refine ⟨?_, eachStep_cons.mpr ⟨first, same⟩, lastStep_cons.mpr ⟨alone, last⟩⟩
    intro e member
    rcases List.mem_cons.mp member with rfl | later
    · exact ⟨p, found⟩
    · exact all e later

theorem verifyStatus_true (io : Io σ) (memory : σ → Nat → UInt8) (buffer : Nat)
    (openPartition : List UInt8 → Except Error Partition) (list : List VerifyInfo)
    (error : Except VerifyError Unit) (s : σ) :
    (verifyEntries openPartition io memory buffer list error true s).verifyStatus = true := by
  induction list generalizing error s with
  | nil => rfl
  | cons entry rest ih =>
    unfold verifyEntries
    cases openPartition entry.name with
    | error e => rfl
    | ok p => exact ih _ _

theorem verifyEntries_ok_iff (buffer : Nat) (reads : Reads io memory content)
    (opens : Opens openPartition) (list : List VerifyInfo) (error : Except VerifyError Unit) (s : σ) :
    ((verifyEntries openPartition io memory buffer list error false s).verifyStatus = false ∧
        (verifyEntries openPartition io memory buffer list error false s).error = .ok ()) ↔
      ReadsClean io memory content buffer openPartition list s ∧ (list = [] → error = .ok ()) := by
  induction list generalizing error s with
  | nil =>
    refine ⟨fun ends => ⟨⟨?_, eachStep_nil, trivial⟩, fun _ => ends.2⟩, fun clean => ⟨rfl, clean.2 rfl⟩⟩
    intro entry member
    cases member
  | cons entry rest ih =>
    unfold verifyEntries
    cases found : openPartition entry.name with
    | error e =>
      dsimp only
      constructor
      · rintro ⟨-, failed⟩
        cases failed
      · rintro ⟨clean, -⟩
        obtain ⟨p, same⟩ := clean.found entry List.mem_cons_self
        cases found.symm.trans same
    | ok p =>
      obtain ⟨info, dev, rfl⟩ := opens entry.name p found
      have after : (compareEntry io memory buffer (opened info dev 0) entry s).2 =
          afterEntry io memory buffer openPartition s entry := by
        unfold afterEntry
        rw [found]
      dsimp only
      rw [readsClean_cons found, after]
      by_cases unread : Unread io memory buffer openPartition s entry
      · obtain ⟨e, compared⟩ := compareEntry_unread found unread
        rw [compared]
        refine (ih (.error (.other e)) _).trans ?_
        constructor
        · rintro ⟨clean, more⟩
          refine ⟨⟨fun read => absurd unread read, fun empty => ?_, clean⟩, fun empty => ?_⟩
          · cases more empty
          · cases empty
        · rintro ⟨⟨-, more, clean⟩, -⟩
          exact ⟨clean, fun empty => absurd unread (more empty)⟩
      · obtain ⟨matched, compared⟩ | ⟨differs, compared⟩ := compareEntry_read reads found unread
        · rw [compared]
          refine (ih (.ok ()) _).trans ?_
          constructor
          · rintro ⟨clean, -⟩
            refine ⟨⟨fun _ => matched, fun _ => unread, clean⟩, fun empty => ?_⟩
            cases empty
          · rintro ⟨⟨-, -, clean⟩, -⟩
            exact ⟨clean, fun _ => rfl⟩
        · rw [compared]
          constructor
          · rintro ⟨status, -⟩
            cases status.symm.trans (verifyStatus_true io memory buffer openPartition rest _ _)
          · rintro ⟨⟨same, -⟩, -⟩
            exact absurd (same unread) differs

theorem verifyWrite_ok_iff (reads : Reads io memory content) (opens : Opens openPartition)
    (list : List VerifyInfo) (s : σ) : (tegrablPartitionVerifyWrite openPartition io memory buffer list s).1 = .ok () ↔
      list ≠ [] ∧ buffer ≠ 0 ∧ ReadsClean io memory content buffer openPartition list s := by
  unfold tegrablPartitionVerifyWrite
  by_cases empty : list = []
  · rw [if_pos empty]
    refine ⟨fun ok => ?_, fun clean => absurd empty clean.1⟩
    cases ok
  rw [if_neg empty]
  by_cases null : buffer = 0
  · rw [if_pos null]
    refine ⟨fun ok => ?_, fun clean => absurd null clean.2.1⟩
    cases ok
  rw [if_neg null]
  dsimp only
  have loop := verifyEntries_ok_iff buffer reads opens list (.ok ()) s
  cases status : (verifyEntries openPartition io memory buffer list (.ok ()) false s).verifyStatus with
  | true =>
    rw [status] at loop
    refine ⟨fun ok => ?_, fun clean => ?_⟩
    · cases ok
    · cases (loop.mpr ⟨clean.2.2, fun _ => rfl⟩).1
  | false =>
    rw [status] at loop
    rw [if_neg (by decide)]
    refine ⟨fun ok => ⟨empty, null, (loop.mp ⟨rfl, ok⟩).1⟩, fun clean => ?_⟩
    exact (loop.mpr ⟨clean.2.2, fun _ => rfl⟩).2

theorem matches_of_unread_match (list : List VerifyInfo) (s : σ)
    (clean : ReadsClean io memory content buffer openPartition list s)
    (skipped : EachStep (afterEntry io memory buffer openPartition)
      (fun s entry => Unread io memory buffer openPartition s entry →
        Matches content openPartition entry) s list.dropLast) :
    ∀ entry ∈ list, Matches content openPartition entry := by
  induction list generalizing s with
  | nil =>
    intro entry member
    cases member
  | cons entry rest ih =>
    obtain ⟨p, found⟩ := clean.found entry List.mem_cons_self
    obtain ⟨same, last, clean⟩ := (readsClean_cons found).mp clean
    have first : Matches content openPartition entry := by
      by_cases unread : Unread io memory buffer openPartition s entry
      · cases rest with
        | nil => exact absurd unread (last rfl)
        | cons next rest => exact (eachStep_cons.mp skipped).1 unread
      · exact same unread
    have later : EachStep (afterEntry io memory buffer openPartition)
        (fun s entry => Unread io memory buffer openPartition s entry → Matches content openPartition entry)
        (afterEntry io memory buffer openPartition s entry) rest.dropLast := by
      cases rest with
      | nil => exact eachStep_nil
      | cons next rest => exact (eachStep_cons.mp skipped).2
    exact List.forall_mem_cons.mpr ⟨first, ih _ clean later⟩

end

section
variable {σ D : Type}

theorem openIn_opens (record : D → Bdev) (matchPartitionName : List UInt8 → List UInt8 → Bool)
    (r : Registry D) : Opens (openIn record matchPartitionName r) := by
  intro name p done
  unfold openIn tegrablPartitionOpen at done
  dsimp only at done
  cases listed : r.storageList with
  | none =>
    rw [listed] at done
    cases done
  | some list =>
    rw [listed] at done
    dsimp only at done
    cases found : findPartition (fun _ info => matchPartitionName info.name name) list with
    | none =>
      rw [found] at done
      cases done
    | some pair =>
      rw [found] at done
      cases done
      exact ⟨_, _, rfl⟩

/-- Success means that every entry matches, exactly unless the list reads clean and an entry before
the last one is wrong and was not read back. -/
theorem verify_write_sound (record : D → Bdev) (matchPartitionName : List UInt8 → List UInt8 → Bool)
    (r : Registry D) (io : Io σ) (memory : σ → Nat → UInt8) (content : Bdev → UInt64 → UInt8)
    (buffer : Nat) (list : List VerifyInfo) (s : σ) (reads : Reads io memory content) :
    ((tegrablPartitionVerifyWrite (openIn record matchPartitionName r) io memory buffer list s).1 =
        .ok () → ∀ entry ∈ list, Matches content (openIn record matchPartitionName r) entry) ↔ (buffer ≠ 0 ∧
          ReadsClean io memory content buffer (openIn record matchPartitionName r) list s →
        EachStep (afterEntry io memory buffer (openIn record matchPartitionName r))
          (fun s entry => Unread io memory buffer (openIn record matchPartitionName r) s entry →
            Matches content (openIn record matchPartitionName r) entry) s list.dropLast) := by
  have opens := openIn_opens record matchPartitionName r
  rw [verifyWrite_ok_iff reads opens]
  constructor
  · rintro sound ⟨present, clean⟩
    have all : ∀ entry ∈ list.dropLast, Matches content (openIn record matchPartitionName r) entry := by
      intro entry member
      have listed := List.mem_of_mem_dropLast member
      exact sound ⟨List.ne_nil_of_mem listed, present, clean⟩ entry listed
    intro before entry step _
    exact all entry (step.subset (by simp))
  · rintro skipped ⟨-, present, clean⟩
    exact matches_of_unread_match list s clean (skipped ⟨present, clean⟩)

end

/-- A device that reads `content` into memory, except at the places that are `broken`. -/
def contentIo (content : Bdev → UInt64 → UInt8) (broken : UInt64 → Bool) : Io (Nat → UInt8) where
  read dev buf offset len :=
    if broken offset then fail .invalid 0
    else modify fun m a =>
      if buf ≤ a ∧ a < buf + len.toNat then content dev (offset + UInt64.ofNat (a - buf)) else m a
  write _ _ _ _ := pure ()

theorem contentIo_reads (content : Bdev → UInt64 → UInt8) (broken : UInt64 → Bool) :
    Reads (contentIo content broken) (fun m => m) content := by
  intro dev buf offset len s s' done i inRange
  unfold contentIo at done
  dsimp only at done
  cases bad : broken offset with
  | true =>
    rw [bad, if_pos rfl] at done
    cases done
  | false =>
    rw [bad, if_neg (by decide)] at done
    cases done
    dsimp only
    rw [if_pos (by omega), Nat.add_sub_cancel_left]

def twoPartitions : Registry Unit :=
  ⟨some [⟨(), [⟨[65], [], [], 0, 1, 512⟩, ⟨[66], [], [], 1, 1, 512⟩]⟩], fun _ => true⟩

/-- Both are enabled. `A` holds the byte 0 that was written to it, and `B` does not. -/
def enableBoth : List ListOp :=
  [.enable [65] true, .setCrc [65] 0xD202EF8D 1, .enable [66] true, .setCrc [66] 1 1]

/-- `B` is read back with an error, and does match. -/
theorem verify_write_sound_two :
    Reads (contentIo (fun _ _ => 0) fun offset => offset == 512) (fun m => m) (fun _ _ => 0) ∧
      (tegrablPartitionVerifyWrite (openIn (fun _ : Unit => smallDisk) sameText twoPartitions)
          (contentIo (fun _ _ => 0) fun offset => offset == 512) (fun m => m) 0x1000
          [⟨1, 0xD202EF8D, [66]⟩, ⟨1, 0xD202EF8D, [65]⟩] (fun _ => 7)).1 = .ok () ∧
      ∀ entry ∈ [(⟨1, 0xD202EF8D, [66]⟩ : VerifyInfo), ⟨1, 0xD202EF8D, [65]⟩],
        Matches (fun _ _ => 0) (openIn (fun _ : Unit => smallDisk) sameText twoPartitions) entry := by
  have reads := contentIo_reads (fun _ _ => 0) fun offset => offset == 512
  have same : Matches (fun _ _ => 0) (openIn (fun _ : Unit => smallDisk) sameText twoPartitions)
      ⟨1, 0xD202EF8D, [66]⟩ := by
    intro info dev found
    have there : opened ⟨[66], [], [], 1, 1, 512⟩ smallDisk 0 = opened info dev 0 := Except.ok.inj found
    cases there
    decide
  have done : (tegrablPartitionVerifyWrite (openIn (fun _ : Unit => smallDisk) sameText twoPartitions)
      (contentIo (fun _ _ => 0) fun offset => offset == 512) (fun m => m) 0x1000
      [⟨1, 0xD202EF8D, [66]⟩, ⟨1, 0xD202EF8D, [65]⟩] (fun _ => 7)).1 = .ok () := by decide
  exact ⟨reads, done, (verify_write_sound (fun _ : Unit => smallDisk) sameText twoPartitions _ _ _ 0x1000 _ (fun _ => 7)
    reads).mpr (fun _ => eachStep_cons.mpr ⟨fun _ => same, eachStep_nil⟩) done⟩

/-- The sector of `B` cannot be read. It is on the list before `A`, which verifies. -/
theorem verify_write_sound_unread : ¬ ∀ (σ D : Type) (record : D → Bdev)
      (matchPartitionName : List UInt8 → List UInt8 → Bool) (r : Registry D) (io : Io σ)
      (memory : σ → Nat → UInt8) (content : Bdev → UInt64 → UInt8) (buffer : Nat)
      (ops : List ListOp) (list : List VerifyInfo) (s : σ), Reads io memory content → buildList ops = some list →
      (tegrablPartitionVerifyWrite (openIn record matchPartitionName r) io memory buffer list s).1 = .ok () →
      ∀ entry ∈ list, Matches content (openIn record matchPartitionName r) entry := by
  intro claim
  have built : buildList enableBoth = some [⟨1, 1, [66]⟩, ⟨1, 0xD202EF8D, [65]⟩] := by decide
  have all := claim (Nat → UInt8) Unit (fun _ => smallDisk) sameText twoPartitions
    (contentIo (fun _ _ => 0) fun offset => offset == 512) (fun m => m) (fun _ _ => 0) 0x1000
    enableBoth _ (fun _ => 7) (contentIo_reads _ _) built (by decide) _ List.mem_cons_self
  have wrong := (all ⟨[66], [], [], 1, 1, 512⟩ smallDisk rfl).2
  exact absurd wrong (by decide)

end Cboot.PartitionManager
