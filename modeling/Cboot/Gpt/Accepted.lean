import Cboot.Lib.Codec
import Cboot.Blockdev.Transfer
import Cboot.Gpt.Model

/-!
What `tegrabl_gpt_read` leaves in the buffer: a header whose usable range is on the device and whose
table is not too large, the blocks of the table, and zeros behind them.
-/

namespace Cboot.Gpt
open Lib Utils Blockdev

section
variable {dev : Bdev} {medium : Medium} {buf buffer : Nat} {m m' : Mem} {u : Unit}

theorem readBlock_ok {block count : UInt32} (done : readBlock dev medium buf block count m = (.ok u, m')) :
    count ≠ 0 ∧ m' = blit m buf medium.content (block.toNat * dev.blockSize.toNat)
      (count.toNat * dev.blockSize.toNat) := by
  unfold readBlock at done
  let entry := Blockdev.Entry.readBlock buf block count
  by_cases through : entry.Admitted dev ∧ entry.request.Passes dev
  · obtain ⟨⟨nonempty, aligned, opened⟩, passes⟩ := through
    rw [readBlock_eq nonempty aligned opened passes] at done
    refine ⟨nonempty, ?_⟩
    unfold Medium.hooks at done
    dsimp only at done
    cases refused : medium.fails block count with
    | some e =>
      rw [refused] at done
      cases done
    | none =>
      rw [refused] at done
      exact (congrArg Prod.snd done).symm
  · obtain ⟨e, refused⟩ := entry.run_refused medium.hooks dev m through
    have stopped : (tegrablBlockdevReadBlock medium.hooks (some dev) buf block count).run m = (.error e, m) := refused
    rw [stopped] at done
    cases done

theorem bytesAt_congr {n a : Nat} (same : AgreeOn m m' a (a + n)) : bytesAt m' a n = bytesAt m a n :=
  List.map_congr_left fun i inRange =>
    same (a + i) (by omega) (by have := List.mem_range.mp inRange; omega)

theorem u32At_congr {a : Nat} (same : AgreeOn m m' a (a + 4)) : u32At m' a = u32At m a := by
  rw [u32At, u32At, readLE_congr same]

theorem u64At_congr {a : Nat} (same : AgreeOn m m' a (a + 8)) : u64At m' a = u64At m a := by
  rw [u64At, u64At, readLE_congr same]

theorem validateHeader_ok {totalBlocks : UInt64}
    (done : tegrablGptValidateHeader buf totalBlocks m = (.ok u, m')) :
    (Header.decode m buf).firstLba < totalBlocks ∧ (Header.decode m buf).lastLba < totalBlocks ∧ m' = m := by
  unfold tegrablGptValidateHeader at done
  by_cases null : buf = 0 ∨ totalBlocks = 0
  · rw [if_pos null] at done
    cases done
  rw [if_neg null] at done
  dsimp only at done
  by_cases signed : (Header.decode m buf).signature ≠ gptSignature
  · rw [if_pos signed] at done
    cases done
  rw [if_neg signed] at done
  by_cases sized : (Header.decode m buf).hdrSize ≠ 0x5C
  · rw [if_pos sized] at done
    cases done
  rw [if_neg sized] at done
  by_cases summed : (Header.decode m buf).hdrCrc32 ≠ tegrablUtilsCrc32 0
      (bytesAt (writeLE m (buf + 16) 4 0) buf (Header.decode m buf).hdrSize.toNat)
  · rw [if_pos summed] at done
    cases done
  rw [if_neg summed] at done
  by_cases bounded : (Header.decode m buf).firstLba ≥ totalBlocks ∨ (Header.decode m buf).lastLba ≥ totalBlocks
  · rw [if_pos bounded] at done
    cases done
  rw [if_neg bounded] at done
  obtain ⟨first, last⟩ := not_or.mp bounded
  refine ⟨UInt64.not_le.mp first, UInt64.not_le.mp last, ?_⟩
  have crc : (Header.decode m buf).hdrCrc32.toNat = readLE m (buf + 16) 4 := by
    change (UInt32.ofNat (readLE m (buf + 16) 4)).toNat = _
    exact UInt32.toNat_ofNat_of_lt' (readLE_lt m (buf + 16) 4)
  cases done
  rw [crc, writeLE_restore]

def tableBlocks (dev : Bdev) (hdr : Header) : Nat :=
  (hdr.numEntries.toNat * hdr.entrySize.toNat + dev.unit - 1) / dev.unit * dev.unit

structure Accepted (dev : Bdev) (buffer : Nat) (m : Mem) : Prop where
  wide : 128 ≤ dev.unit
  first_lt : (Header.decode m buffer).firstLba.toNat < dev.blockCount.toNat
  last_lt : (Header.decode m buffer).lastLba.toNat < dev.blockCount.toNat
  numEntries_le : (Header.decode m buffer).numEntries.toNat ≤ maxPartitionEntries
  entrySize_le : (Header.decode m buffer).entrySize.toNat ≤ entryBytes
  rest_zero : ∀ i, tableBlocks dev (Header.decode m buffer) ≤ i →
    i < maxPartitionEntries * entryBytes → m (buffer + dev.unit + i) = 0

theorem readLE_zeros {a n : Nat} (zeros : ∀ i, i < n → m (a + i) = 0) : readLE m a n = 0 := by
  induction n generalizing a with
  | zero => rfl
  | succ n ih =>
    have later : readLE m (a + 1) n = 0 := ih fun i small => by
      rw [Nat.add_assoc]
      exact zeros (1 + i) (by omega)
    have now : m a = 0 := zeros 0 (by omega)
    rw [readLE, later, now]
    rfl

theorem Header.decode_congr {a : Nat} (same : AgreeOn m m' a (a + 92)) : Header.decode m' a = Header.decode m a := by
  unfold Header.decode
  rw [bytesAt_congr (same.mono (by omega) (by omega)), u32At_congr (same.mono (by omega) (by omega)),
    u32At_congr (same.mono (by omega) (by omega)), u64At_congr (same.mono (by omega) (by omega)),
    u64At_congr (same.mono (by omega) (by omega)), u64At_congr (same.mono (by omega) (by omega)),
    u32At_congr (same.mono (by omega) (by omega)), u32At_congr (same.mono (by omega) (by omega)),
    u32At_congr (same.mono (by omega) (by omega))]

theorem numEntries_of_narrow (narrow : dev.unit < 128)
    (zeros : ∀ i, dev.unit ≤ i → i < dev.unit + maxPartitionEntries * entryBytes →
      m (buffer + i) = 0) : (Header.decode m buffer).numEntries = 0 := by
  have power : dev.unit ≤ 64 := by
    unfold Bdev.unit at narrow ⊢
    have log : dev.blockSizeLog2.toNat < 7 := (Nat.pow_lt_pow_iff_right (by decide)).mp narrow
    exact Nat.pow_le_pow_right (n := 2) (by decide) (by omega : dev.blockSizeLog2.toNat ≤ 6)
  have none : readLE m (buffer + 80) 4 = 0 := readLE_zeros fun i small => by
    rw [Nat.add_assoc]
    exact zeros (80 + i) (by omega) (by unfold maxPartitionEntries entryBytes; omega)
  change UInt32.ofNat (readLE m (buffer + 80) 4) = 0
  rw [none]
  rfl

def tableCount (dev : Bdev) (hdr : Header) : UInt32 :=
  (divCeilLog2 (hdr.numEntries * hdr.entrySize).toUInt64 dev.blockSizeLog2).toUInt32

theorem readTable_ok (done : readTable dev medium buffer m = (.ok u, m')) :
    (Header.decode m buffer).numEntries.toNat ≤ maxPartitionEntries ∧
      (Header.decode m buffer).entrySize.toNat ≤ entryBytes ∧ tableCount dev (Header.decode m buffer) ≠ 0 ∧
      ∃ a, m' = blit m (buffer + dev.blockSize.toNat) medium.content a
        ((tableCount dev (Header.decode m buffer)).toNat * dev.blockSize.toNat) := by
  unfold readTable at done
  dsimp only at done
  by_cases many : (Header.decode m buffer).numEntries > maxPartitionEntries.toUInt32
  · rw [if_pos many] at done
    cases done
  rw [if_neg many] at done
  by_cases large : (Header.decode m buffer).entrySize > entryBytes.toUInt32
  · rw [if_pos large] at done
    cases done
  rw [if_neg large] at done
  refine ⟨UInt32.le_iff_toNat_le.mp (UInt32.not_lt.mp many), UInt32.le_iff_toNat_le.mp (UInt32.not_lt.mp large), ?_⟩
  cases table : readBlock dev medium (buffer + dev.blockSize.toNat)
      (Header.decode m buffer).tableStartLba.toUInt32 (tableCount dev (Header.decode m buffer)) m with
  | mk result after =>
    unfold tableCount at table
    rw [table] at done
    cases result with
    | error e => cases done
    | ok _ =>
      obtain ⟨nonempty, copied⟩ := readBlock_ok table
      dsimp only at done
      by_cases summed : (Header.decode after buffer).tableCrc32 ≠ tegrablUtilsCrc32 0
          (bytesAt after (buffer + dev.blockSize.toNat)
            ((Header.decode m buffer).numEntries * (Header.decode m buffer).entrySize).toNat)
      · rw [if_pos summed] at done
        cases done
      · rw [if_neg summed] at done
        cases done
        exact ⟨nonempty, _, copied⟩

variable (setUp : SetUp dev)
include setUp

theorem unit_le : dev.unit ≤ 2 ^ 31 :=
  Nat.pow_le_pow_right (by decide) (by have := setUp.log2_lt; omega)

theorem bufferSize_toNat :
    (bufferSize dev).toNat = maxPartitionEntries * entryBytes + dev.unit := by
  have power := unit_le setUp
  have block : dev.blockSize.toUInt32.toNat = dev.unit := by
    rw [UInt64.toNat_toUInt32, blockSize_toNat setUp, Nat.mod_eq_of_lt (by omega)]
  have table : (entryBytes * maxPartitionEntries).toUInt32.toNat = 16384 := rfl
  rw [bufferSize, UInt32.toNat_add, block, table]
  change (16384 + dev.unit) % 2 ^ 32 = 16384 + dev.unit
  omega

theorem divCeilLog2_toNat {n : UInt64} (small : n.toNat < 2 ^ 63) :
    (divCeilLog2 n dev.blockSizeLog2).toNat = (n.toNat + dev.unit - 1) / dev.unit := by
  have log := setUp.log2_lt
  have power := unit_lt setUp
  have pos := unit_pos dev
  have size := blockSize_toNat setUp
  have sum : (n + dev.blockSize - 1).toNat = n.toNat + dev.unit - 1 := by
    have total : (n + dev.blockSize).toNat = n.toNat + dev.unit := by
      rw [UInt64.toNat_add, size, Nat.mod_eq_of_lt (by omega)]
    rw [UInt64.toNat_sub_of_le _ _ (by rw [UInt64.le_iff_toNat_le, total, UInt64.toNat_one]; omega),
      total, UInt64.toNat_one]
  unfold divCeilLog2
  change ((n + dev.blockSize - 1) >>> dev.blockSizeLog2.toUInt64).toNat = _
  have shift := divFloorLog2_toNat setUp (n + dev.blockSize - 1)
  rw [divFloorLog2, sum] at shift
  exact shift

theorem tableCount_toNat {hdr : Header}
    (few : hdr.numEntries.toNat ≤ maxPartitionEntries) (short : hdr.entrySize.toNat ≤ entryBytes) :
    (tableCount dev hdr).toNat * dev.unit = tableBlocks dev hdr := by
  have product : hdr.numEntries.toNat * hdr.entrySize.toNat ≤ 128 * 128 := Nat.mul_le_mul few short
  have tableSize : (hdr.numEntries * hdr.entrySize).toUInt64.toNat = hdr.numEntries.toNat * hdr.entrySize.toNat := by
    rw [UInt32.toNat_toUInt64, UInt32.toNat_mul, Nat.mod_eq_of_lt (by omega)]
  have bound : (hdr.numEntries.toNat * hdr.entrySize.toNat + dev.unit - 1) / dev.unit < 2 ^ 32 := by
    have power := unit_le setUp
    exact Nat.lt_of_le_of_lt (Nat.div_le_self _ _) (by omega)
  unfold tableCount tableBlocks
  rw [UInt64.toNat_toUInt32, divCeilLog2_toNat setUp (by omega), tableSize, Nat.mod_eq_of_lt bound]

theorem readTable_accepted
    (zeros : ∀ i, dev.unit ≤ i → i < dev.unit + maxPartitionEntries * entryBytes → m (buffer + i) = 0)
    (first : (Header.decode m buffer).firstLba.toNat < dev.blockCount.toNat)
    (last : (Header.decode m buffer).lastLba.toNat < dev.blockCount.toNat)
    (done : readTable dev medium buffer m = (.ok u, m')) : Accepted dev buffer m' := by
  have size := blockSize_toNat setUp
  have pos := unit_pos dev
  obtain ⟨few, short, nonempty, a, rfl⟩ := readTable_ok done
  have count := tableCount_toNat setUp few short
  rw [size, count]
  have wide : 128 ≤ dev.unit := by
    by_contra narrow
    have none := numEntries_of_narrow (Nat.not_le.mp narrow) zeros
    have empty : tableBlocks dev (Header.decode m buffer) = 0 := by
      unfold tableBlocks
      rw [none, UInt32.toNat_zero, Nat.zero_mul, Nat.zero_add, Nat.div_eq_of_lt (by omega), Nat.zero_mul]
    rw [empty] at count
    rcases Nat.mul_eq_zero.mp count with zero | zero
    · exact nonempty (UInt32.toNat_inj.mp zero)
    · omega
  have header : Header.decode (blit m (buffer + dev.unit) medium.content a
      (tableBlocks dev (Header.decode m buffer))) buffer = Header.decode m buffer :=
    Header.decode_congr fun x _ near => blit_outside _ _ (by omega)
  refine ⟨wide, ?_, ?_, ?_, ?_, ?_⟩
  all_goals rw [header]
  · exact first
  · exact last
  · exact few
  · exact short
  · intro i behind inside
    rw [blit_outside _ _ (by omega), Nat.add_assoc]
    exact zeros _ (by omega) (by omega)

theorem readValidate_accepted {offset : UInt64}
    (done : tegrablGptReadValidate dev medium offset buffer m = (.ok u, m')) : Accepted dev buffer m' := by
  have size := blockSize_toNat setUp
  unfold tegrablGptReadValidate at done
  by_cases null : buffer = 0
  · rw [if_pos null] at done
    cases done
  rw [if_neg null] at done
  dsimp only at done
  cases fetched : readBlock dev medium buffer (divCeilLog2 offset dev.blockSizeLog2).toUInt32 1
      (fillBytes m buffer (bufferSize dev).toNat 0) with
  | mk result m₁ =>
    rw [fetched] at done
    cases result with
    | error e => cases done
    | ok _ =>
      dsimp only at done
      cases checked : tegrablGptValidateHeader buffer dev.blockCount.toUInt64 m₁ with
      | mk result m₂ =>
        rw [checked] at done
        cases result with
        | error e => cases done
        | ok _ =>
          dsimp only at done
          obtain ⟨first, last, rfl⟩ := validateHeader_ok checked
          obtain ⟨-, rfl⟩ := readBlock_ok fetched
          rw [UInt32.toNat_one, Nat.one_mul, size] at first last done
          have total : dev.blockCount.toUInt64.toNat = dev.blockCount.toNat :=
            UInt32.toNat_toUInt64 _
          refine readTable_accepted setUp ?_ ?_ ?_ done
          · intro i behind inside
            rw [blit_outside _ _ (by omega), fillBytes, if_pos]
            rw [bufferSize_toNat setUp]
            omega
          · rw [← total]
            exact first
          · rw [← total]
            exact last

theorem readFirst_accepted (alloc : Nat → Nat) (offsets : List UInt64) (i : Nat)
    (m : Mem) (done : readFirst dev medium alloc offsets i m = (.ok buffer, m')) : Accepted dev buffer m' := by
  induction offsets generalizing i m with
  | nil => cases done
  | cons offset offsets ih =>
    unfold readFirst at done
    cases tried : tegrablGptReadValidate dev medium offset (alloc i) m with
    | mk result m₁ =>
      rw [tried] at done
      cases result with
      | error e => exact ih (i + 1) m₁ done
      | ok _ =>
        cases done
        exact readValidate_accepted setUp tried

theorem gptRead_accepted {offset : UInt64} {alloc : Nat → Nat}
    (done : tegrablGptRead dev medium offset alloc m = (.ok buffer, m')) : Accepted dev buffer m' :=
  readFirst_accepted setUp alloc _ 0 m done

end

section
variable {dev : Bdev}

theorem fillPartitions_eq (dev : Bdev) (numEntries : Nat) (list : List Entry) (j : Nat)
    (counted : j + list.countP Entry.inUse = numEntries) :
    fillPartitions dev numEntries list j = (list.filter Entry.inUse).map (Entry.info dev) := by
  induction list generalizing j with
  | nil => rfl
  | cons e rest ih =>
    unfold fillPartitions
    by_cases empty : e.lastLba ≤ e.firstLba
    · have unused : ¬ e.inUse := by simpa [Entry.inUse] using empty
      rw [if_pos empty, List.filter_cons_of_neg unused]
      rw [List.countP_cons_of_neg unused] at counted
      exact ih j counted
    · have used : e.inUse := by simpa [Entry.inUse] using empty
      rw [if_neg empty, List.filter_cons_of_pos used, List.map_cons]
      rw [List.countP_cons_of_pos used] at counted
      congr 1
      by_cases full : j + 1 = numEntries
      · have none : rest.filter Entry.inUse = [] := by
          rw [← List.length_eq_zero_iff, ← List.countP_eq_length_filter]
          omega
        rw [if_pos full, none, List.map_nil]
      · rw [if_neg full]
        exact ih (j + 1) (by omega)

def published (dev : Bdev) (buffer : Nat) (m : Mem) : List Entry :=
  (slots dev buffer m).filter Entry.inUse

theorem publishEntries_eq (dev : Bdev) (memory : Bool) (buffer : Nat) (m : Mem) : publishEntries dev memory buffer m =
      if published dev buffer m = [] ∨ ¬ memory then .error (.own .noMemory 1)
      else .ok ((published dev buffer m).map (Entry.info dev)) := by
  have none : (slots dev buffer m).countP Entry.inUse = 0 ↔ published dev buffer m = [] := by
    rw [List.countP_eq_length_filter, List.length_eq_zero_iff]
    rfl
  unfold publishEntries
  dsimp only
  rw [fillPartitions_eq dev _ _ 0 (Nat.zero_add _)]
  simp only [none]
  rfl

end

theorem eq_mk_of_fst {α β : Type} {x : α × β} {a : α} (first : x.1 = a) : x = (a, x.2) := by
  rw [← first]

def tinyDisk : Bdev := ⟨1, 0x10003, 1024, 7, 8, 4⟩

theorem tinyDisk_setUp : SetUp tinyDisk := ⟨by decide, ⟨⟨7, 0, 0, 0, 0, 4⟩, rfl⟩⟩

def headerImage (hdrCrc32 numEntries tableCrc32 : Nat) : List UInt8 :=
  List.flatten [gptSignature, leDigits 4 0x10000, leDigits 4 92, leDigits 4 hdrCrc32, leDigits 4 0,
    leDigits 8 1, leDigits 8 0, leDigits 8 4, leDigits 8 7, List.replicate 16 0, leDigits 8 2,
    leDigits 4 numEntries, leDigits 4 128, leDigits 4 tableCrc32]

def entryImage (firstLba lastLba : Nat) (letter : UInt8) : List UInt8 :=
  List.flatten [List.replicate 16 1, List.replicate 16 2, leDigits 8 firstLba, leDigits 8 lastLba,
    List.replicate 8 0, letter :: List.replicate 71 0]

def imageMedium (header table : List UInt8) : Medium where
  content x :=
    if x < 128 then 0 else if x < 256 then header.getD (x - 128) 0 else table.getD (x - 256) 0
  fails _ _ := none

def oneBuffer : Nat → Nat := fun _ => 0x1000

def goodMedium : Medium := imageMedium (headerImage 0x44B95D9F 1 0xBBEA306F) (entryImage 4 5 65)

def goodRead : Except Error Nat × Mem := tegrablGptRead tinyDisk goodMedium 0 oneBuffer fun _ => 7

end Cboot.Gpt
