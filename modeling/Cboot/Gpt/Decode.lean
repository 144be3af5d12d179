import Mathlib.Tactic.IntervalCases
import Cboot.Gpt.Accepted

/-!
The format has `num_entries` entries `entry_size` bytes apart, and an entry is used when its type GUID is not zero and
its range is not empty.
-/

namespace Cboot.Gpt
open Lib Blockdev PartitionManager

def guidText (guid : List UInt8) : List UInt8 :=
  let hex (i : Nat) : List UInt8 := [hexDigit (guid.getD i 0 >>> 4), hexDigit (guid.getD i 0 &&& 0x0F)]
  List.intercalate [45]
    [[3, 2, 1, 0].flatMap hex, [5, 4].flatMap hex, [7, 6].flatMap hex, [8, 9].flatMap hex,
      [10, 11, 12, 13, 14, 15].flatMap hex]

def Entry.partition (dev : Bdev) (e : Entry) : PartitionInfo where
  name := e.pname.map (fun c => (c &&& 0xFF).toUInt8) ++ [0]
  guid := guidText e.uniqueGuid ++ [0]
  ptypeGuid := guidText e.ptypeGuid ++ [0]
  startSector := e.firstLba
  numSectors := e.lastLba - e.firstLba + 1
  totalSize := (e.lastLba - e.firstLba + 1) <<< dev.blockSizeLog2.toUInt64

def Entry.Used (e : Entry) : Prop := e.ptypeGuid ≠ List.replicate 16 0 ∧ e.firstLba ≤ e.lastLba

instance (e : Entry) : Decidable e.Used := inferInstanceAs (Decidable (_ ∧ _))

def Header.tableSize (hdr : Header) : Nat := hdr.numEntries.toNat * hdr.entrySize.toNat

def coveredTable (dev : Bdev) (buffer : Nat) (m : Mem) (hdr : Header) : Mem :=
  fun x => if x < hdr.tableSize then m (buffer + dev.unit + x) else 0

def usedEntries (dev : Bdev) (buffer : Nat) (m : Mem) (hdr : Header) : List Entry :=
  ((List.range hdr.numEntries.toNat).map fun i =>
    Entry.decode (coveredTable dev buffer m hdr) (i * hdr.entrySize.toNat)).filter (·.Used)

theorem placed_digits (high low : Nat → UInt8) : [8, 13, 18, 23].foldl (fun str k => str.set k 45)
        (guidPlaces.foldl (fun str p => (str.set p.2 (high p.1)).set (p.2 + 1) (low p.1))
          (List.replicate 37 (0 : UInt8))) = List.intercalate [45]
        [[3, 2, 1, 0].flatMap fun i => [high i, low i], [5, 4].flatMap fun i => [high i, low i],
          [7, 6].flatMap fun i => [high i, low i], [8, 9].flatMap fun i => [high i, low i],
          [10, 11, 12, 13, 14, 15].flatMap fun i => [high i, low i]] ++ [0] := by
  have zeros : List.replicate 37 (0 : UInt8) = [0, 0, 0, 0, 0, 0, 0, 0, 0, 0, 0, 0, 0, 0, 0, 0, 0, 0,
    0, 0, 0, 0, 0, 0, 0, 0, 0, 0, 0, 0, 0, 0, 0, 0, 0, 0, 0] := rfl
  rw [zeros]
  simp [guidPlaces, List.intercalate]

theorem guidToStr_eq (guid : List UInt8) : guidToStr guid = guidText guid ++ [0] := by
  unfold guidToStr guidText setHex
  exact placed_digits (fun i => hexDigit (guid.getD i 0 >>> 4))
    fun i => hexDigit (guid.getD i 0 &&& 0x0F)

theorem eq_zero_of_digits {b : UInt8} (high : hexDigit (b >>> 4) = 48) (low : hexDigit (b &&& 0x0F) = 48) : b = 0 := by
  have all : ∀ n, n < 256 → hexDigit (UInt8.ofNat n >>> 4) = 48 →
      hexDigit (UInt8.ofNat n &&& 0x0F) = 48 → n = 0 := by decide +kernel
  have zero := all b.toNat b.toNat_lt (by rwa [UInt8.ofNat_toNat]) (by rwa [UInt8.ofNat_toNat])
  exact UInt8.toNat_inj.mp zero

theorem eq_zeros_of_text {guid : List UInt8} (length : guid.length = 16)
    (same : guidText guid = guidText (List.replicate 16 0)) : guid = List.replicate 16 0 := by
  have zero : ∀ i, (List.replicate 16 (0 : UInt8)).getD i 0 = 0 := by
    intro i
    rw [List.getD_eq_getElem?_getD, List.getElem?_replicate]
    split <;> rfl
  have digit : hexDigit 0 = 48 := rfl
  unfold guidText at same
  simp only [zero, UInt8.zero_shiftRight, UInt8.zero_and, digit, List.intercalate,
    List.intersperse, List.flatMap_cons, List.flatMap_nil, List.flatten_cons, List.flatten_nil,
    List.append_nil, List.cons_append, List.nil_append, List.cons.injEq] at same
  obtain ⟨h3, l3, h2, l2, h1, l1, h0, l0, -, h5, l5, h4, l4, -, h7, l7, h6, l6, -, h8, l8, h9, l9, -,
    h10, l10, h11, l11, h12, l12, h13, l13, h14, l14, h15, l15, -⟩ := same
  have byte : ∀ i, i < 16 → guid.getD i 0 = 0 := by
    intro i small
    interval_cases i
    exacts [eq_zero_of_digits h0 l0, eq_zero_of_digits h1 l1, eq_zero_of_digits h2 l2,
      eq_zero_of_digits h3 l3, eq_zero_of_digits h4 l4, eq_zero_of_digits h5 l5,
      eq_zero_of_digits h6 l6, eq_zero_of_digits h7 l7, eq_zero_of_digits h8 l8,
      eq_zero_of_digits h9 l9, eq_zero_of_digits h10 l10, eq_zero_of_digits h11 l11,
      eq_zero_of_digits h12 l12, eq_zero_of_digits h13 l13, eq_zero_of_digits h14 l14, eq_zero_of_digits h15 l15]
  refine List.ext_getElem (by rw [length, List.length_replicate]) fun i inside _ => ?_
  have value := byte i (by omega)
  rw [List.getD_eq_getElem?_getD, List.getElem?_eq_getElem inside, Option.getD_some] at value
  rw [value, List.getElem_replicate]

theorem info_eq_partition (dev : Bdev) (e : Entry) : e.info dev = e.partition dev := by
  unfold Entry.info Entry.partition
  rw [guidToStr_eq, guidToStr_eq]

def slot (dev : Bdev) (buffer : Nat) (m : Mem) (i : Nat) : Entry :=
  Entry.decode m (buffer + dev.unit + i * entryBytes)

section
variable {dev : Bdev} {buffer : Nat} {m m' : Mem}

theorem published_eq (setUp : SetUp dev) (buffer : Nat) (m : Mem) : published dev buffer m =
      ((List.range maxPartitionEntries).map (slot dev buffer m)).filter Entry.inUse := by
  unfold published slots slot
  rw [blockSize_toNat setUp]

theorem readLE_shift {a b n : Nat} (same : ∀ i, i < n → m (a + i) = m' (b + i)) : readLE m a n = readLE m' b n := by
  induction n generalizing a b with
  | zero => rfl
  | succ n ih =>
    have first : m a = m' b := same 0 (by omega)
    have rest : readLE m (a + 1) n = readLE m' (b + 1) n := ih fun i small => by
      rw [Nat.add_assoc, Nat.add_assoc]
      exact same (1 + i) (by omega)
    rw [readLE, readLE, first, rest]

theorem bytesAt_shift {a b n : Nat} (same : ∀ i, i < n → m (a + i) = m' (b + i)) : bytesAt m a n = bytesAt m' b n :=
  List.map_congr_left fun i inRange => same i (List.mem_range.mp inRange)

theorem Entry.decode_shift {a b : Nat} (same : ∀ i, i < entryBytes → m (a + i) = m' (b + i)) :
    Entry.decode m a = Entry.decode m' b := by
  have part : ∀ k n, k + n ≤ 128 → ∀ i, i < n → m (a + k + i) = m' (b + k + i) := by
    intro k n bound i small
    rw [Nat.add_assoc, Nat.add_assoc]
    exact same (k + i) (by unfold entryBytes; omega)
  have names : (List.range maxPartitionName).map (fun i => UInt16.ofNat (readLE m (a + 56 + 2 * i) 2)) =
      (List.range maxPartitionName).map fun i => UInt16.ofNat (readLE m' (b + 56 + 2 * i) 2) := by
    refine List.map_congr_left fun i inRange => ?_
    have small : i < 36 := List.mem_range.mp inRange
    rw [Nat.add_assoc a, Nat.add_assoc b, readLE_shift (part (56 + 2 * i) 2 (by omega))]
  have types : bytesAt m a 16 = bytesAt m' b 16 := bytesAt_shift (part 0 16 (by omega))
  unfold Entry.decode u64At
  rw [types, bytesAt_shift (part 16 16 (by omega)), readLE_shift (part 32 8 (by omega)),
    readLE_shift (part 40 8 (by omega)), names]

theorem inUse_iff (e : Entry) : e.inUse ↔ e.firstLba < e.lastLba := decide_eq_true_iff

theorem slot_unused_of_zeros {i : Nat} (zeros : ∀ j, j < entryBytes → m (buffer + dev.unit + i * entryBytes + j) = 0) :
    ¬ (slot dev buffer m i).inUse := by
  have word : ∀ k, k + 8 ≤ 128 → u64At m (buffer + dev.unit + i * entryBytes + k) = 0 := by
    intro k bound
    unfold u64At
    rw [readLE_zeros fun j small => by
      rw [Nat.add_assoc]
      exact zeros (k + j) (by unfold entryBytes; omega)]
    rfl
  have first : (slot dev buffer m i).firstLba = 0 := word 32 (by omega)
  have last : (slot dev buffer m i).lastLba = 0 := word 40 (by omega)
  rw [inUse_iff, first, last]
  exact UInt64.lt_irrefl 0

theorem published_of_rest_unused (setUp : SetUp dev) {k : Nat} (bound : k ≤ maxPartitionEntries)
    (unused : ∀ i, k ≤ i → i < maxPartitionEntries → ¬ (slot dev buffer m i).inUse) :
    published dev buffer m = ((List.range k).map (slot dev buffer m)).filter Entry.inUse := by
  obtain ⟨rest, split⟩ := Nat.exists_eq_add_of_le bound
  have none : ((List.range rest).map (fun i => slot dev buffer m (k + i))).filter Entry.inUse = [] := by
    rw [List.filter_eq_nil_iff]
    intro e member
    obtain ⟨i, inside, rfl⟩ := List.mem_map.mp member
    exact unused (k + i) (by omega) (by have := List.mem_range.mp inside; omega)
  rw [published_eq setUp, split, List.range_add, List.map_append, List.map_map, List.filter_append]
  change _ ++ ((List.range rest).map (fun i => slot dev buffer m (k + i))).filter Entry.inUse = _
  rw [none, List.append_nil]

theorem decode_covered {hdr : Header} {i : Nat} (stride : hdr.entrySize = 128) (inside : i < hdr.numEntries.toNat) :
    Entry.decode (coveredTable dev buffer m hdr) (i * hdr.entrySize.toNat) = slot dev buffer m i := by
  have size : hdr.entrySize.toNat = entryBytes := congrArg UInt32.toNat stride
  unfold slot
  rw [size]
  refine Entry.decode_shift fun j small => ?_
  have within : i * entryBytes + j < hdr.tableSize := by
    unfold Header.tableSize
    rw [size]
    have : (i + 1) * entryBytes ≤ hdr.numEntries.toNat * entryBytes := Nat.mul_le_mul_right _ inside
    rw [Nat.succ_mul] at this
    omega
  unfold coveredTable
  rw [if_pos within, Nat.add_assoc (buffer + dev.unit)]

theorem usedEntries_eq {hdr : Header} (stride : hdr.entrySize = 128) : usedEntries dev buffer m hdr =
      ((List.range hdr.numEntries.toNat).map (slot dev buffer m)).filter (·.Used) := by
  unfold usedEntries
  congr 1
  exact List.map_congr_left fun i inside => decode_covered stride (List.mem_range.mp inside)

end

/-- The format takes the entry for used exactly if the publisher does: of the entries with a range
that is not empty, those of one sector are the ones of type zero. -/
def Entry.Plain (e : Entry) : Prop :=
  e.firstLba ≤ e.lastLba → (e.firstLba = e.lastLba ↔ e.ptypeGuid = List.replicate 16 0)

instance (e : Entry) : Decidable e.Plain := inferInstanceAs (Decidable (_ → _))

structure Conforms (dev : Bdev) (memory : Bool) (buffer : Nat) (m : Mem) : Prop where
  allocated : memory = true
  stride : (Header.decode m buffer).entrySize = 128
  whole : (Header.decode m buffer).numEntries = 128 ∨ dev.unit ∣ (Header.decode m buffer).tableSize
  plain : ∀ i, i < (Header.decode m buffer).numEntries.toNat → (slot dev buffer m i).Plain
  nonempty : ∃ i, i < (Header.decode m buffer).numEntries.toNat ∧ (slot dev buffer m i).Used

structure SameTable (dev : Bdev) (buffer : Nat) (m m' : Mem) : Prop where
  covered : ∀ i, i < (Header.decode m buffer).tableSize → m' (buffer + dev.unit + i) = m (buffer + dev.unit + i)
  rest_zero : ∀ i, tableBlocks dev (Header.decode m buffer) ≤ i →
    i < maxPartitionEntries * entryBytes → m' (buffer + dev.unit + i) = 0

structure Decodes (dev : Bdev) (memory : Bool) (buffer : Nat) (m : Mem)
    (result : Except Error (List PartitionInfo)) : Prop where
  list : result = .ok ((usedEntries dev buffer m (Header.decode m buffer)).map (Entry.partition dev))
  covered_only : ∀ m', SameTable dev buffer m m' → publishEntries dev memory buffer m' = result

section
variable {dev : Bdev} {memory : Bool} {buffer : Nat} {m m' : Mem}

theorem plain_iff (e : Entry) : e.Plain ↔ (e.inUse ↔ e.Used) := by
  unfold Entry.Plain Entry.Used
  rw [inUse_iff]
  constructor
  · intro plain
    constructor
    · intro less
      refine ⟨fun zero => ?_, UInt64.le_of_lt less⟩
      exact UInt64.lt_irrefl _ ((plain (UInt64.le_of_lt less)).mpr zero ▸ less)
    · intro used
      refine UInt64.lt_of_le_of_ne used.2 fun same => ?_
      exact used.1 ((plain used.2).mp same)
  · intro agree order
    constructor
    · intro same
      by_contra typed
      exact UInt64.lt_irrefl _ (same ▸ agree.mpr ⟨typed, order⟩)
    · intro zero
      by_contra different
      exact (agree.mp (UInt64.lt_of_le_of_ne order different)).1 zero

theorem slot_unused_of_whole (stride : (Header.decode m buffer).entrySize = 128)
    (whole : (Header.decode m buffer).numEntries = 128 ∨ dev.unit ∣ (Header.decode m buffer).tableSize)
    (same : SameTable dev buffer m m') {i : Nat}
    (behind : (Header.decode m buffer).numEntries.toNat ≤ i) (inside : i < maxPartitionEntries) :
    ¬ (slot dev buffer m' i).inUse := by
  have size : (Header.decode m buffer).entrySize.toNat = entryBytes := congrArg UInt32.toNat stride
  have pos := unit_pos dev
  rcases whole with full | ⟨count, blocks⟩
  · have many : (Header.decode m buffer).numEntries.toNat = 128 := congrArg UInt32.toNat full
    unfold maxPartitionEntries at inside
    omega
  · have exact : tableBlocks dev (Header.decode m buffer) = (Header.decode m buffer).numEntries.toNat * entryBytes := by
      have product : (Header.decode m buffer).numEntries.toNat * entryBytes = dev.unit * count := by
        rw [← size]
        exact blocks
      unfold tableBlocks
      rw [size, product, Nat.add_sub_assoc pos, Nat.mul_add_div pos,
        Nat.div_eq_of_lt (Nat.sub_lt pos Nat.one_pos), Nat.add_zero, Nat.mul_comm]
    refine slot_unused_of_zeros fun j small => ?_
    rw [Nat.add_assoc (buffer + dev.unit)]
    have lower : (Header.decode m buffer).numEntries.toNat * entryBytes ≤ i * entryBytes :=
      Nat.mul_le_mul_right _ behind
    have upper : (i + 1) * entryBytes ≤ maxPartitionEntries * entryBytes :=
      Nat.mul_le_mul_right _ inside
    rw [Nat.succ_mul] at upper
    exact same.rest_zero _ (by omega) (by omega)

theorem slot_congr (stride : (Header.decode m buffer).entrySize = 128) (same : SameTable dev buffer m m') {i : Nat}
    (inside : i < (Header.decode m buffer).numEntries.toNat) : slot dev buffer m' i = slot dev buffer m i := by
  have size : (Header.decode m buffer).entrySize.toNat = entryBytes := congrArg UInt32.toNat stride
  refine Entry.decode_shift fun j small => ?_
  rw [Nat.add_assoc (buffer + dev.unit)]
  refine same.covered _ ?_
  unfold Header.tableSize
  rw [size]
  have : (i + 1) * entryBytes ≤ (Header.decode m buffer).numEntries.toNat * entryBytes :=
    Nat.mul_le_mul_right _ inside
  rw [Nat.succ_mul] at this
  omega

theorem published_whole (setUp : SetUp dev) (accepted : Accepted dev buffer m)
    (stride : (Header.decode m buffer).entrySize = 128) (whole : (Header.decode m buffer).numEntries = 128 ∨
      dev.unit ∣ (Header.decode m buffer).tableSize) (same : SameTable dev buffer m m') : published dev buffer m' =
      ((List.range (Header.decode m buffer).numEntries.toNat).map (slot dev buffer m)).filter Entry.inUse := by
  rw [published_of_rest_unused setUp accepted.numEntries_le fun i behind inside =>
    slot_unused_of_whole stride whole same behind inside]
  congr 1
  exact List.map_congr_left fun i inside => slot_congr stride same (List.mem_range.mp inside)

theorem SameTable.refl (accepted : Accepted dev buffer m) : SameTable dev buffer m m :=
  ⟨fun _ _ => rfl, accepted.rest_zero⟩

theorem publish_conforming (setUp : SetUp dev) (accepted : Accepted dev buffer m)
    (conforms : Conforms dev memory buffer m) (same : SameTable dev buffer m m') : publishEntries dev memory buffer m' =
      .ok ((usedEntries dev buffer m (Header.decode m buffer)).map (Entry.partition dev)) := by
  have agree : published dev buffer m' = usedEntries dev buffer m (Header.decode m buffer) := by
    rw [published_whole setUp accepted conforms.stride conforms.whole same, usedEntries_eq conforms.stride]
    refine List.filter_congr fun e member => ?_
    obtain ⟨i, inside, rfl⟩ := List.mem_map.mp member
    have plain := (plain_iff _).mp (conforms.plain i (List.mem_range.mp inside))
    rw [Bool.eq_iff_iff, decide_eq_true_iff]
    exact plain
  obtain ⟨i, inside, used⟩ := conforms.nonempty
  have member : slot dev buffer m i ∈ usedEntries dev buffer m (Header.decode m buffer) := by
    rw [usedEntries_eq conforms.stride]
    exact List.mem_filter.mpr
      ⟨List.mem_map_of_mem (List.mem_range.mpr inside), decide_eq_true used⟩
  rw [publishEntries_eq, agree, if_neg (not_or.mpr ⟨List.ne_nil_of_mem member, not_not.mpr conforms.allocated⟩)]
  exact congrArg Except.ok (List.map_congr_left fun e _ => info_eq_partition dev e)

end

section
variable {dev : Bdev} {memory : Bool} {buffer : Nat} {m m' : Mem}

theorem publishEntries_ok {partitions : List PartitionInfo}
    (done : publishEntries dev memory buffer m = .ok partitions) : memory = true ∧ published dev buffer m ≠ [] ∧
      partitions = (published dev buffer m).map (Entry.info dev) := by
  rw [publishEntries_eq] at done
  by_cases none : published dev buffer m = [] ∨ ¬ memory = true
  · rw [if_pos none] at done
    cases done
  · rw [if_neg none] at done
    obtain ⟨some, allocated⟩ := not_or.mp none
    exact ⟨not_not.mp allocated, some, (Except.ok.inj done).symm⟩

theorem eq_of_partition_eq {x y : Entry} (same : x.partition dev = y.partition dev) :
    x.firstLba = y.firstLba ∧ x.lastLba = y.lastLba ∧ guidText x.ptypeGuid = guidText y.ptypeGuid := by
  have first : x.firstLba = y.firstLba := congrArg PartitionInfo.startSector same
  have count : x.lastLba - x.firstLba + 1 = y.lastLba - y.firstLba + 1 :=
    congrArg PartitionInfo.numSectors same
  have types : guidText x.ptypeGuid ++ [0] = guidText y.ptypeGuid ++ [0] :=
    congrArg PartitionInfo.ptypeGuid same
  refine ⟨first, ?_, List.append_cancel_right types⟩
  have difference := (UInt64.add_left_inj 1).mp count
  rw [first] at difference
  exact (UInt64.sub_left_inj _).mp difference

theorem slot_typeLength (i : Nat) : (slot dev buffer m i).ptypeGuid.length = 16 := by
  change ((List.range 16).map _).length = 16
  rw [List.length_map, List.length_range]

theorem used_of_partition_eq {i j : Nat}
    (same : (slot dev buffer m i).partition dev = (slot dev buffer m j).partition dev)
    (used : (slot dev buffer m j).Used) : (slot dev buffer m i).Used := by
  obtain ⟨first, last, types⟩ := eq_of_partition_eq same
  refine ⟨fun zero => used.1 ?_, ?_⟩
  · rw [zero] at types
    exact eq_zeros_of_text (slot_typeLength j) types.symm
  · rw [first, last]
    exact used.2

theorem inUse_of_partition_eq {x y : Entry} (same : x.partition dev = y.partition dev) (used : y.inUse) : x.inUse := by
  obtain ⟨first, last, -⟩ := eq_of_partition_eq same
  rw [inUse_iff, first, last]
  exact (inUse_iff y).mp used

def withStray (dev : Bdev) (buffer : Nat) (m : Mem) (last : UInt8) : Mem := fun x =>
  let behind := buffer + dev.unit + (Header.decode m buffer).tableSize
  if x < behind then m x else if x = behind + 40 then last else 0

theorem withStray_behind (last : UInt8) {i : Nat} (behind : (Header.decode m buffer).tableSize ≤ i) :
    withStray dev buffer m last (buffer + dev.unit + i) =
      if i = (Header.decode m buffer).tableSize + 40 then last else 0 := by
  unfold withStray
  dsimp only
  rw [if_neg (by omega)]
  by_cases place : i = (Header.decode m buffer).tableSize + 40
  · rw [if_pos place, if_pos (by omega)]
  · rw [if_neg place, if_neg (by omega)]

theorem withStray_same (room : (Header.decode m buffer).tableSize + entryBytes ≤
    tableBlocks dev (Header.decode m buffer)) (last : UInt8) :
    SameTable dev buffer m (withStray dev buffer m last) := by
  unfold entryBytes at room
  constructor
  · intro i inside
    unfold withStray
    dsimp only
    rw [if_pos (by omega)]
  · intro i behind _
    rw [withStray_behind last (by omega), if_neg (by omega)]

theorem room_of_not_whole (wide : 128 ≤ dev.unit) {hdr : Header} (stride : hdr.entrySize = 128)
    (partly : ¬ dev.unit ∣ hdr.tableSize) : hdr.tableSize + entryBytes ≤ tableBlocks dev hdr := by
  have pos := unit_pos dev
  have size : hdr.entrySize.toNat = 128 := congrArg UInt32.toNat stride
  have power : 128 ∣ dev.unit := by
    unfold Bdev.unit at wide ⊢
    have log : 2 ^ 7 ≤ 2 ^ dev.blockSizeLog2.toNat := wide
    exact pow_dvd_pow 2 ((Nat.pow_le_pow_iff_right (by decide)).mp log)
  have entries : 128 ∣ hdr.tableSize := ⟨hdr.numEntries.toNat, by
    unfold Header.tableSize
    rw [size, Nat.mul_comm]⟩
  have blocks : 128 ∣ tableBlocks dev hdr := power.trans (Nat.dvd_mul_left _ _)
  have covers : hdr.tableSize ≤ tableBlocks dev hdr := by
    have cut := Nat.div_add_mod (hdr.tableSize + dev.unit - 1) dev.unit
    have rest := Nat.mod_lt (hdr.tableSize + dev.unit - 1) pos
    rw [Nat.mul_comm] at cut
    change hdr.tableSize ≤ (hdr.tableSize + dev.unit - 1) / dev.unit * dev.unit
    omega
  have different : hdr.tableSize ≠ tableBlocks dev hdr := fun same =>
    partly (same ▸ Nat.dvd_mul_left _ _)
  unfold entryBytes
  omega

theorem stray_inUse (stride : (Header.decode m buffer).entrySize = 128) :
    (slot dev buffer (withStray dev buffer m 1) (Header.decode m buffer).numEntries.toNat).inUse := by
  have size : (Header.decode m buffer).numEntries.toNat * entryBytes = (Header.decode m buffer).tableSize := by
    unfold Header.tableSize
    rw [stride]
    rfl
  have byte : ∀ k, withStray dev buffer m 1
      (buffer + dev.unit + (Header.decode m buffer).tableSize + k) = if k = 40 then 1 else 0 := by
    intro k
    rw [Nat.add_assoc, withStray_behind 1 (by omega)]
    simp
  have first : u64At (withStray dev buffer m 1)
      (buffer + dev.unit + (Header.decode m buffer).tableSize + 32) = 0 := by
    unfold u64At
    rw [readLE_zeros fun j small => by rw [Nat.add_assoc, byte, if_neg (by omega)]]
    rfl
  have last : u64At (withStray dev buffer m 1)
      (buffer + dev.unit + (Header.decode m buffer).tableSize + 40) = 1 := by
    unfold u64At
    rw [readLE, byte, if_pos rfl, readLE_zeros fun j small => by
      rw [Nat.add_assoc, Nat.add_assoc, byte, if_neg (by omega)]]
    rfl
  rw [inUse_iff]
  unfold slot
  rw [size]
  change u64At _ (_ + 32) < u64At _ (_ + 40)
  rw [first, last]
  decide

theorem stray_unused (stride : (Header.decode m buffer).entrySize = 128) {last : UInt8} {i : Nat}
    (behind : (Header.decode m buffer).numEntries.toNat ≤ i)
    (off : last = 0 ∨ (Header.decode m buffer).numEntries.toNat < i) :
    ¬ (slot dev buffer (withStray dev buffer m last) i).inUse := by
  have size : (Header.decode m buffer).numEntries.toNat * entryBytes = (Header.decode m buffer).tableSize := by
    unfold Header.tableSize
    rw [stride]
    rfl
  have lower := Nat.mul_le_mul_right entryBytes behind
  refine slot_unused_of_zeros fun j small => ?_
  rw [Nat.add_assoc (buffer + dev.unit), withStray_behind last (by omega)]
  rcases off with rfl | later
  · exact ite_self 0
  · have upper := Nat.mul_le_mul_right entryBytes (Nat.succ_le_of_lt later)
    rw [Nat.succ_mul] at upper
    unfold entryBytes at upper size lower ⊢
    rw [if_neg (by omega)]

variable {result : Except Error (List PartitionInfo)}

theorem whole_of_decodes (setUp : SetUp dev) (accepted : Accepted dev buffer m)
    (stride : (Header.decode m buffer).entrySize = 128)
    (decodes : Decodes dev memory buffer m result) : (Header.decode m buffer).numEntries = 128 ∨
      dev.unit ∣ (Header.decode m buffer).tableSize := by
  by_contra partly
  obtain ⟨notFull, notWhole⟩ := not_or.mp partly
  have few : (Header.decode m buffer).numEntries.toNat < maxPartitionEntries :=
    Nat.lt_of_le_of_ne accepted.numEntries_le fun full => notFull (UInt32.toNat_inj.mp full)
  have room := room_of_not_whole accepted.wide stride notWhole
  have out : ∀ last, publishEntries dev memory buffer (withStray dev buffer m last) =
      .ok ((usedEntries dev buffer m (Header.decode m buffer)).map (Entry.partition dev)) :=
    fun last => (decodes.covered_only _ (withStray_same room last)).trans decodes.list
  obtain ⟨-, -, without⟩ := publishEntries_ok (out 0)
  obtain ⟨-, -, withOne⟩ := publishEntries_ok (out 1)
  have lengths : (published dev buffer (withStray dev buffer m 0)).length =
      (published dev buffer (withStray dev buffer m 1)).length := by
    have same := congrArg List.length (without.symm.trans withOne)
    rwa [List.length_map, List.length_map] at same
  have inTable : ∀ last, ((List.range (Header.decode m buffer).numEntries.toNat).map
      (slot dev buffer (withStray dev buffer m last))) =
      (List.range (Header.decode m buffer).numEntries.toNat).map (slot dev buffer m) := fun last =>
    List.map_congr_left fun i inside =>
      slot_congr stride (withStray_same room last) (List.mem_range.mp inside)
  rw [published_of_rest_unused setUp few.le fun i behind _ => stray_unused stride behind (.inl rfl),
    published_of_rest_unused setUp few fun i behind _ =>
      stray_unused stride (Nat.le_of_succ_le behind) (.inr behind),
    List.range_succ, List.map_append, List.filter_append, inTable, inTable, List.map_singleton,
    List.filter_cons_of_pos (stray_inUse stride), List.length_append] at lengths
  exact absurd lengths (Nat.ne_of_lt (Nat.lt_add_of_pos_right (Nat.succ_pos _)))

theorem conforms_of_decodes (setUp : SetUp dev) (accepted : Accepted dev buffer m)
    (stride : (Header.decode m buffer).entrySize = 128)
    (decodes : Decodes dev memory buffer m result) : Conforms dev memory buffer m := by
  have whole := whole_of_decodes setUp accepted stride decodes
  have same := SameTable.refl accepted
  obtain ⟨allocated, some, lists⟩ :=
    publishEntries_ok ((decodes.covered_only _ same).trans decodes.list)
  rw [published_whole setUp accepted stride whole same] at some lists
  rw [usedEntries_eq stride] at lists
  have infos : ∀ list : List Entry, list.map (Entry.info dev) = list.map (Entry.partition dev) :=
    fun list => List.map_congr_left fun e _ => info_eq_partition dev e
  rw [infos] at lists
  have used_iff : ∀ i, i < (Header.decode m buffer).numEntries.toNat →
      ((slot dev buffer m i).inUse ↔ (slot dev buffer m i).Used) := by
    intro i inside
    have member : slot dev buffer m i ∈
        (List.range (Header.decode m buffer).numEntries.toNat).map (slot dev buffer m) :=
      List.mem_map_of_mem (List.mem_range.mpr inside)
    constructor
    · intro used
      have listed := List.mem_map_of_mem (f := Entry.partition dev) (List.mem_filter.mpr ⟨member, used⟩)
      rw [← lists] at listed
      obtain ⟨e, chosen, equal⟩ := List.mem_map.mp listed
      obtain ⟨place, taken⟩ := List.mem_filter.mp chosen
      obtain ⟨j, -, rfl⟩ := List.mem_map.mp place
      exact used_of_partition_eq equal.symm (of_decide_eq_true taken)
    · intro used
      have chosen : slot dev buffer m i ∈ ((List.range
          (Header.decode m buffer).numEntries.toNat).map (slot dev buffer m)).filter (·.Used) :=
        List.mem_filter.mpr ⟨member, decide_eq_true used⟩
      have listed := List.mem_map_of_mem (f := Entry.partition dev) chosen
      rw [lists] at listed
      obtain ⟨e, chosen, equal⟩ := List.mem_map.mp listed
      exact inUse_of_partition_eq equal.symm (List.mem_filter.mp chosen).2
  refine ⟨allocated, stride, whole, fun i inside => (plain_iff _).mpr (used_iff i inside), ?_⟩
  obtain ⟨e, chosen⟩ := List.exists_mem_of_ne_nil _ some
  obtain ⟨place, taken⟩ := List.mem_filter.mp chosen
  obtain ⟨i, inside, rfl⟩ := List.mem_map.mp place
  exact ⟨i, List.mem_range.mp inside, (used_iff i (List.mem_range.mp inside)).mp taken⟩

/-- A table that conforms is decoded as the format says, from the bytes under the CRC alone. -/
theorem gpt_decoding (dev : Bdev) (medium : Medium) (offset : UInt64) (alloc : Nat → Nat)
    (memory : Bool) (m m' : Mem) (buffer : Nat) (setUp : SetUp dev)
    (read : tegrablGptRead dev medium offset alloc m = (.ok buffer, m')) : (Conforms dev memory buffer m' →
      Decodes dev memory buffer m' (tegrablGptPublish dev medium offset alloc memory m)) ∧
    ((Header.decode m' buffer).entrySize = 128 →
      Decodes dev memory buffer m' (tegrablGptPublish dev medium offset alloc memory m) →
      Conforms dev memory buffer m') := by
  have accepted := gptRead_accepted setUp read
  have out : tegrablGptPublish dev medium offset alloc memory m = publishEntries dev memory buffer m' := by
    unfold tegrablGptPublish
    rw [read]
  rw [out]
  refine ⟨fun conforms => ?_, fun stride decodes => conforms_of_decodes setUp accepted stride decodes⟩
  have list := publish_conforming setUp accepted conforms (SameTable.refl accepted)
  exact ⟨list, fun _ same => (publish_conforming setUp accepted conforms same).trans list.symm⟩

end

theorem goodRead_conforms : goodRead.1 = .ok 0x1000 ∧ (Header.decode goodRead.2 0x1000).entrySize = 128 ∧
    (Header.decode goodRead.2 0x1000).numEntries = 1 ∧
    (slot tinyDisk 0x1000 goodRead.2 0).Plain ∧ (slot tinyDisk 0x1000 goodRead.2 0).Used := by
  decide +kernel

theorem gpt_decoding_one : SetUp tinyDisk ∧ goodRead.1 = .ok 0x1000 ∧ Decodes tinyDisk true 0x1000 goodRead.2
        (tegrablGptPublish tinyDisk goodMedium 0 oneBuffer true fun _ => 7) := by
  obtain ⟨read, stride, one, plain, used⟩ := goodRead_conforms
  refine ⟨tinyDisk_setUp, read, (gpt_decoding tinyDisk goodMedium 0 oneBuffer true (fun _ => 7)
    goodRead.2 0x1000 tinyDisk_setUp (eq_mk_of_fst read)).1 ⟨rfl, stride, .inr ?_, ?_, ?_⟩⟩
  · unfold Header.tableSize
    rw [one, stride]
    exact Nat.dvd_refl 128
  · rw [one]
    intro i inside
    rw [Nat.lt_one_iff.mp inside]
    exact plain
  · rw [one]
    exact ⟨0, by decide, used⟩

def twoMedium : Medium :=
  imageMedium (headerImage 0x4FFBABF5 2 0xAF76DE4E) (entryImage 4 5 65 ++ entryImage 6 6 66)

def twoRead : Except Error Nat × Mem := tegrablGptRead tinyDisk twoMedium 0 oneBuffer fun _ => 7

theorem twoRead_slots : twoRead.1 = .ok 0x1000 ∧ (Header.decode twoRead.2 0x1000).entrySize = 128 ∧
    (Header.decode twoRead.2 0x1000).numEntries = 2 ∧ ¬ (slot tinyDisk 0x1000 twoRead.2 1).Plain := by
  decide +kernel

/-- The partition of one sector is passed over. -/
theorem gpt_decoding_one_sector : ¬ ∀ (dev : Bdev) (medium : Medium) (offset : UInt64) (alloc : Nat → Nat) (m m' : Mem)
      (buffer : Nat), SetUp dev → tegrablGptRead dev medium offset alloc m = (.ok buffer, m') →
      Decodes dev true buffer m' (tegrablGptPublish dev medium offset alloc true m) := by
  intro claim
  obtain ⟨read, stride, two, odd⟩ := twoRead_slots
  have pair : tegrablGptRead tinyDisk twoMedium 0 oneBuffer (fun _ => 7) = (.ok 0x1000, twoRead.2) :=
    eq_mk_of_fst read
  have decodes := claim tinyDisk twoMedium 0 oneBuffer (fun _ => 7) twoRead.2 0x1000 tinyDisk_setUp pair
  have conforms := conforms_of_decodes tinyDisk_setUp (gptRead_accepted tinyDisk_setUp pair) stride
    decodes
  refine odd (conforms.plain 1 ?_)
  rw [two]
  decide

end Cboot.Gpt
