import Cboot.Nvblob.Model

/-!
Nothing that a blob says of itself is checked against the memory that it was read to, apart from the offset of the
entries in a compressed blob.
-/

namespace Cboot.Nvblob
open Lib

def InBlock (o : Opened) (a len : Nat) : Prop :=
  o.info.start ≤ a ∧ a + len ≤ o.info.start + o.headerAsize

structure AccessorsInside (o : Opened) (m : Mem) : Prop where
  details : ∀ a len, tegrablBlobGetDetails (some o.info) m = .ok (a, len) → InBlock o a len.toNat
  signature : ∀ a len, tegrablBlobGetSignature (some o.info) m = .ok (a, len) → InBlock o a len.toNat
  entry : ∀ n index a type size, tegrablBlobGetNumEntries (some o.info) m = .ok n → index < n →
    tegrablBlobGetEntry (some o.info) index m = .ok a →
    tegrablBlobGetType (some o.info) m = .ok type → entryBytes type = some size → InBlock o a size
  entryData : ∀ n index a len, tegrablBlobGetNumEntries (some o.info) m = .ok n → index < n →
    tegrablBlobGetEntryData (some o.info) index m = .ok (a, len) → InBlock o a len.toNat

def Opened.entryAt (o : Opened) (m : Mem) (size i : Nat) : Nat :=
  o.info.blob + (o.info.header m).entriesOffset.toNat + i * size

structure Fits (o : Opened) (m : Mem) : Prop where
  blob : o.info.offset.toNat + (o.info.header m).size.toNat ≤ o.headerAsize
  signature : o.info.offset ≠ 0 → signedHeaderBytes + (SignedHeader.decode m o.info.start).actualBlobSize.toNat +
      (SignedHeader.decode m o.info.start).signatureSize.toNat ≤ o.headerAsize
  table : ∀ size, entryBytes (o.info.header m).type = some size → (o.info.header m).numEntries ≠ 0 →
    o.info.offset.toNat + (o.info.header m).entriesOffset.toNat +
      (o.info.header m).numEntries.toNat * size ≤ o.headerAsize
  images : ∀ size, entryBytes (o.info.header m).type = some size →
    ∀ i < (o.info.header m).numEntries.toNat, ∀ offset len,
      parseEntry (o.info.header m).type m (o.entryAt m size i) = some (offset, len) →
      o.info.offset.toNat + offset.toNat + len.toNat ≤ o.headerAsize

section
variable {o : Opened} {m : Mem}

variable (valid : o.info.start ≠ 0)
include valid

theorem checked_some : checked (some o.info) = .ok o.info := if_neg valid

theorem getDetails_eq :
    tegrablBlobGetDetails (some o.info) m = .ok (o.info.blob, (o.info.header m).size) := by
  unfold tegrablBlobGetDetails
  rw [checked_some valid]
  rfl

theorem getType_eq : tegrablBlobGetType (some o.info) m = .ok (o.info.header m).type := by
  unfold tegrablBlobGetType
  rw [checked_some valid]
  rfl

theorem getNumEntries_eq :
    tegrablBlobGetNumEntries (some o.info) m = .ok (o.info.header m).numEntries := by
  unfold tegrablBlobGetNumEntries
  rw [checked_some valid]
  rfl

theorem getSignature_ok_iff {a : Nat} {len : UInt32} :
    tegrablBlobGetSignature (some o.info) m = .ok (a, len) ↔ o.info.offset ≠ 0 ∧ a = o.info.start + signedHeaderBytes +
        (SignedHeader.decode m o.info.start).actualBlobSize.toNat ∧
      len = (SignedHeader.decode m o.info.start).signatureSize := by
  have signed : tegrablBlobIsSigned (some o.info) = true ↔ o.info.offset ≠ 0 := by
    unfold tegrablBlobIsSigned
    simp [valid, UInt32.pos_iff_ne_zero]
  unfold tegrablBlobGetSignature
  rw [checked_some valid]
  change (if _ then _ else _) = _ ↔ _
  by_cases plain : o.info.offset = 0
  · rw [if_pos (.inl plain)]
    constructor
    · intro h
      cases h
    · intro h
      exact absurd plain h.1
  · rw [if_neg (by simp [plain, signed])]
    constructor
    · intro h
      cases h
      exact ⟨plain, rfl, rfl⟩
    · rintro ⟨-, rfl, rfl⟩
      rfl

theorem getEntry_ok_iff {index : UInt32} {a : Nat} :
    tegrablBlobGetEntry (some o.info) index m = .ok a ↔
      ∃ size, entryBytes (o.info.header m).type = some size ∧ a = o.entryAt m size index.toNat := by
  unfold tegrablBlobGetEntry
  rw [checked_some valid]
  cases known : entryBytes (o.info.header m).type with
  | none =>
    constructor
    · intro h
      simp [known, bind, Except.bind, throw, throwThe, MonadExceptOf.throw] at h
    · rintro ⟨size, absent, -⟩
      cases absent
  | some size =>
    simp only [bind, Except.bind, known]
    constructor
    · intro h
      cases h
      exact ⟨size, rfl, rfl⟩
    · rintro ⟨size', same, rfl⟩
      cases same
      rfl

omit valid in
theorem parseEntry_isSome {type : UInt32} {size entry : Nat} (known : entryBytes type = some size) :
    ∃ offset len, parseEntry type m entry = some (offset, len) := by
  unfold entryBytes at known
  unfold parseEntry
  split at known
  · rename_i update
    exact ⟨_, _, if_pos update⟩
  · rename_i notUpdate
    split at known
    · rename_i bmp
      exact ⟨_, _, (if_neg notUpdate).trans (if_pos bmp)⟩
    · cases known

theorem getEntryData_ok_iff {index : UInt32} {a : Nat} {len : UInt32} :
    tegrablBlobGetEntryData (some o.info) index m = .ok (a, len) ↔
      ∃ size offset, entryBytes (o.info.header m).type = some size ∧
        parseEntry (o.info.header m).type m (o.entryAt m size index.toNat) = some (offset, len) ∧
        a = o.info.blob + offset.toNat := by
  unfold tegrablBlobGetEntryData
  rw [checked_some valid]
  cases entry : tegrablBlobGetEntry (some o.info) index m with
  | error e =>
    constructor
    · intro h
      simp [bind, Except.bind] at h
    · rintro ⟨size, offset, known, -, -⟩
      have found : tegrablBlobGetEntry (some o.info) index m = .ok (o.entryAt m size index.toNat) :=
        (getEntry_ok_iff valid).mpr ⟨size, known, rfl⟩
      rw [entry] at found
      cases found
  | ok place =>
    obtain ⟨size, known, rfl⟩ := (getEntry_ok_iff valid).mp entry
    obtain ⟨offset, length, parsed⟩ : ∃ offset len,
        parseEntry (o.info.header m).type m (o.entryAt m size index.toNat) = some (offset, len) :=
      parseEntry_isSome known
    simp only [bind, Except.bind, parsed]
    constructor
    · intro h
      cases h
      exact ⟨size, offset, known, parsed, rfl⟩
    · rintro ⟨size', offset', known', parsed', rfl⟩
      rw [known] at known'
      cases known'
      rw [parsed] at parsed'
      cases parsed'
      rfl

theorem accessorsInside_iff : AccessorsInside o m ↔ Fits o m := by
  have place : o.info.blob = o.info.start + o.info.offset.toNat := rfl
  constructor
  · intro inside
    refine ⟨?_, ?_, ?_, ?_⟩
    · obtain ⟨-, last⟩ := inside.details _ _ (getDetails_eq valid)
      omega
    · intro signed
      obtain ⟨-, last⟩ := inside.signature _ _ ((getSignature_ok_iff valid).mpr ⟨signed, rfl, rfl⟩)
      omega
    · intro size known some
      -- The last entry reaches furthest.
      have pos : 0 < (o.info.header m).numEntries.toNat := by
        have := UInt32.pos_iff_ne_zero.mpr some
        exact UInt32.lt_iff_toNat_lt.mp this
      let index : UInt32 := (o.info.header m).numEntries - 1
      have number : index.toNat = (o.info.header m).numEntries.toNat - 1 := by
        exact UInt32.toNat_sub_of_le _ 1 (UInt32.le_iff_toNat_le.mpr pos)
      have below : index < (o.info.header m).numEntries := by
        rw [UInt32.lt_iff_toNat_lt, number]
        omega
      obtain ⟨-, last⟩ := inside.entry _ index _ _ size (getNumEntries_eq valid) below
        ((getEntry_ok_iff valid).mpr ⟨size, known, rfl⟩) (getType_eq valid) known
      have whole : index.toNat * size + size = (o.info.header m).numEntries.toNat * size := by
        rw [number, ← Nat.succ_mul, Nat.succ_eq_add_one, Nat.sub_add_cancel pos]
      unfold Opened.entryAt at last
      omega
    · intro size known i below offset len parsed
      have number : i.toUInt32.toNat = i := by
        have := (o.info.header m).numEntries.toNat_lt
        rw [Nat.toUInt32_eq, UInt32.toNat_ofNat', Nat.mod_eq_of_lt (by omega)]
      obtain ⟨-, last⟩ := inside.entryData _ i.toUInt32 _ len (getNumEntries_eq valid)
        (by rw [UInt32.lt_iff_toNat_lt, number]; exact below)
        ((getEntryData_ok_iff valid).mpr ⟨size, offset, known, by rw [number]; exact parsed, rfl⟩)
      omega
  · intro fits
    refine ⟨?_, ?_, ?_, ?_⟩
    · intro a len handed
      rw [getDetails_eq valid] at handed
      cases handed
      have := fits.blob
      exact ⟨by omega, by omega⟩
    · intro a len handed
      obtain ⟨signed, rfl, rfl⟩ := (getSignature_ok_iff valid).mp handed
      have := fits.signature signed
      exact ⟨by omega, by omega⟩
    · intro n index a type size count below handed typed known
      rw [getNumEntries_eq valid] at count
      rw [getType_eq valid] at typed
      cases count
      cases typed
      obtain ⟨size', known', rfl⟩ := (getEntry_ok_iff valid).mp handed
      rw [known] at known'
      cases known'
      have below := UInt32.lt_iff_toNat_lt.mp below
      have table := fits.table size known (fun none => by rw [none] at below; exact Nat.not_lt_zero _ below)
      have whole : index.toNat * size + size ≤ (o.info.header m).numEntries.toNat * size := by
        rw [← Nat.succ_mul]
        exact Nat.mul_le_mul_right size below
      unfold InBlock Opened.entryAt
      omega
    · intro n index a len count below handed
      rw [getNumEntries_eq valid] at count
      cases count
      obtain ⟨size, offset, known, parsed, rfl⟩ := (getEntryData_ok_iff valid).mp handed
      have := fits.images size known index.toNat (UInt32.lt_iff_toNat_lt.mp below) offset len parsed
      unfold InBlock
      omega

end

section
variable {malloc : Nat → Nat → Nat} {methods : List Decompressor} {source : Source} {m m' : Mem}

theorem wordAt_writeLE (m : Mem) (a : Nat) (v : UInt32) : wordAt (writeLE m a 4 v.toNat) a = v := by
  have small : v.toNat < 256 ^ 4 := v.toNat_lt
  unfold wordAt
  rw [readLE_writeLE_same, Nat.mod_eq_of_lt small, UInt32.ofNat_toNat]

theorem wordAt_blit {dst a n k : Nat} {src : Mem} (inside : k + 4 ≤ n) :
    wordAt (blit m dst src a n) (dst + k) = wordAt src (a + k) := by
  have same : ∀ i, i < 4 → blit m dst src a n (dst + k + i) = src (a + k + i) := by
    intro i small
    have here : dst ≤ dst + k + i ∧ dst + k + i < dst + n := by omega
    have there : a + (dst + k + i - dst) = a + k + i := by omega
    exact (if_pos here).trans (congrArg src there)
  unfold wordAt
  congr 1
  rw [readLE_digits (v := readLE src (a + k) 4) fun i small => ?_]
  · exact Nat.mod_eq_of_lt (readLE_lt src (a + k) 4)
  · rw [same i small, ofNat_readLE_div src small]

theorem blobDecompress_ok {header start : Nat} {hdrSize dataSize asize : UInt32} {decomp : Decompressor}
    (done : blobDecompress malloc header hdrSize dataSize decomp m = (.ok (start, asize), m')) :
    start ≠ 0 ∧ wordAt m' (start + 20) = asize := by
  unfold blobDecompress at done
  dsimp only at done
  split at done
  · cases done
  · rename_i memory
    split at done
    · cases done
    · cases done
      exact ⟨memory, wordAt_writeLE _ _ _⟩

theorem expandBlob_ok {header start asize : Nat} {dataSize : UInt32}
    (done : expandBlob malloc methods header dataSize m = (.ok (start, asize), m')) :
    (isCompressedContent methods m (header + (BlobHeader.decode m header).entriesOffset.toNat) = none ∧
      start = header ∧ asize = dataSize.toNat ∧ m' = m) ∨ (start ≠ 0 ∧ (wordAt m' (start + 20)).toNat = asize) := by
  unfold expandBlob at done
  dsimp only at done
  split at done
  · rename_i plain
    cases done
    exact .inl ⟨plain, rfl, rfl, rfl⟩
  · split at done
    · cases done
    split at done
    · cases done
    split at done
    · cases done
    split at done
    · cases done
    · rename_i expanded
      cases done
      obtain ⟨memory, word⟩ := blobDecompress_ok expanded
      exact .inr ⟨memory, congrArg UInt32.toNat word⟩

def fetchedHeader (malloc : Nat → Nat → Nat) (source : Source) (m : Mem) : Mem :=
  blit m (malloc 1 blobHeaderBytes) source.content 0 blobHeaderBytes

def fetchedBlob (malloc : Nat → Nat → Nat) (source : Source) (dataSize : UInt32) (m : Mem) : Mem :=
  blit (fetchedHeader malloc source m) (malloc 2 dataSize.toNat) source.content 0 dataSize.toNat

def Compressed (malloc : Nat → Nat → Nat) (methods : List Decompressor) (source : Source)
    (dataSize : UInt32) (m : Mem) : Prop :=
  let header := malloc 2 dataSize.toNat
  let m := fetchedBlob malloc source dataSize m
  isCompressedContent methods m (header + (BlobHeader.decode m header).entriesOffset.toNat) ≠ none

variable {o : Opened}

theorem init_ok (init : tegrablBlobInit malloc methods source 0 m = (.ok o, m')) :
    blobExtent (fetchedHeader malloc source m) (malloc 1 blobHeaderBytes) = .ok (o.info.offset, o.info.dataMemSize) ∧
      malloc 2 o.info.dataMemSize.toNat ≠ 0 ∧
      expandBlob malloc methods (malloc 2 o.info.dataMemSize.toNat) o.info.dataMemSize
        (fetchedBlob malloc source o.info.dataMemSize m) = (.ok (o.info.start, o.headerAsize), m') := by
  unfold tegrablBlobInit at init
  split at init
  · cases init
  rw [if_neg (not_not.mpr rfl)] at init
  unfold readBlob at init
  dsimp only at init
  split at init
  · cases init
  split at init
  · cases init
  split at init
  · cases init
  split at init
  · cases init
  rename_i offset dataSize extent
  split at init
  · cases init
  rename_i memory
  split at init
  · cases init
  split at init
  · cases init
  split at init
  · cases init
  rename_i expanded
  cases init
  exact ⟨extent, memory, expanded⟩

theorem start_ne_zero (init : tegrablBlobInit malloc methods source 0 m = (.ok o, m')) :
    o.info.start ≠ 0 := by
  obtain ⟨-, memory, expanded⟩ := init_ok init
  rcases expandBlob_ok expanded with ⟨-, same, -, -⟩ | ⟨valid, -⟩
  · rw [same]
    exact memory
  · exact valid

theorem size_eq_of_plain
    (init : tegrablBlobInit malloc methods source 0 m = (.ok o, m')) (plain : o.info.offset = 0)
    (covers : 24 ≤ o.headerAsize) : (o.info.header m').size.toNat = o.headerAsize := by
  obtain ⟨extent, -, expanded⟩ := init_ok init
  have place : o.info.blob = o.info.start := by
    unfold BlobInfo.blob
    rw [plain]
    rfl
  have size : (o.info.header m').size = wordAt m' (o.info.start + 20) := by
    rw [← place]
    rfl
  rw [size]
  rcases expandBlob_ok expanded with ⟨-, start, asize, rfl⟩ | ⟨-, word⟩
  · have read : o.info.dataMemSize =
        (BlobHeader.decode (fetchedHeader malloc source m) (malloc 1 blobHeaderBytes)).size := by
      unfold blobExtent at extent
      split at extent
      · have signed := congrArg Prod.fst (Except.ok.inj extent)
        rw [plain] at signed
        change signedHeaderBytes.toUInt32 = 0 at signed
        exact absurd signed (by decide)
      split at extent
      · exact (congrArg Prod.snd (Except.ok.inj extent)).symm
      · cases extent
    have first : o.info.dataMemSize = wordAt source.content (0 + 20) :=
      read.trans (wordAt_blit (by decide))
    have second : wordAt (fetchedBlob malloc source o.info.dataMemSize m) (o.info.start + 20) =
        wordAt source.content (0 + 20) := by
      rw [start]
      exact wordAt_blit (by omega)
    rw [second, ← first, asize]
  · exact word

theorem not_inside_of_compressed
    (init : tegrablBlobInit malloc methods source 0 m = (.ok o, m')) (signed : o.info.offset ≠ 0)
    (compressed : Compressed malloc methods source o.info.dataMemSize m) : ¬ AccessorsInside o m' := by
  intro inside
  have signature := ((accessorsInside_iff (start_ne_zero init)).mp inside).signature signed
  obtain ⟨-, -, expanded⟩ := init_ok init
  rcases expandBlob_ok expanded with ⟨raw, -⟩ | ⟨-, word⟩
  · exact compressed raw
  · change signedHeaderBytes + (wordAt m' (o.info.start + 20)).toNat + _ ≤ _ at signature
    rw [word] at signature
    have := show 0 < signedHeaderBytes by decide
    omega

end

/-- What the accessors hand out lies in the block that was allocated exactly when the sizes and offsets of the blob fit
it. -/
theorem blob_accessors_inside (malloc : Nat → Nat → Nat) (methods : List Decompressor) (source : Source)
    (m m' : Mem) (o : Opened) (init : tegrablBlobInit malloc methods source 0 m = (.ok o, m')) :
    (AccessorsInside o m' ↔ Fits o m') ∧
      (o.info.offset = 0 → 24 ≤ o.headerAsize → (o.info.header m').size.toNat = o.headerAsize) ∧
      (o.info.offset ≠ 0 → Compressed malloc methods source o.info.dataMemSize m → ¬ AccessorsInside o m') :=
  ⟨accessorsInside_iff (start_ne_zero init), size_eq_of_plain init, not_inside_of_compressed init⟩

def words (ws : List UInt32) : List UInt8 :=
  ws.flatMap fun w => (List.range 4).map fun i => UInt8.ofNat (w.toNat / 256 ^ i)

def blobImage (size entriesOffset numEntries type : UInt32) (rest : List UInt8) : List UInt8 :=
  updateMagic ++ words [2, size, entriesOffset, numEntries, type, size, 0, 0] ++ rest

def imageSource (image : List UInt8) : Source where
  content a := image.getD a 0
  opens := none
  reads _ := none
  seeks := none

def fixedMalloc (k _ : Nat) : Nat := 0x1000 * (k + 1)

def oneEntry : List UInt8 :=
  List.replicate 40 65 ++ words [168, 4, 0, 0] ++ List.replicate 64 0 ++ [1, 2, 3, 4]

def goodInit : Except Error Opened × Mem :=
  tegrablBlobInit fixedMalloc [] (imageSource (blobImage 172 48 1 blobUpdate oneEntry)) 0 fun _ => 7

def goodOpened : Opened := ⟨⟨0x3000, 0, 172, 24⟩, 172⟩

theorem goodInit_fits : goodInit.1 = .ok goodOpened ∧ Fits goodOpened goodInit.2 := by
  have opened : goodInit.1 = .ok goodOpened := by decide
  have header : goodOpened.info.header goodInit.2 = ⟨172, 48, 1, blobUpdate, 172⟩ := by decide
  have entry : parseEntry blobUpdate goodInit.2 (goodOpened.entryAt goodInit.2 imageEntryBytes 0) =
      some (168, 4) := by decide
  refine ⟨opened, ?_, ?_, ?_, ?_⟩
  · rw [header]
    decide
  · intro signed
    exact absurd rfl signed
  · intro size known some
    rw [header] at known ⊢
    cases known
    decide
  · intro size known i below offset len parsed
    rw [header] at known below parsed
    cases known
    obtain rfl : i = 0 := Nat.lt_one_iff.mp below
    rw [entry] at parsed
    cases parsed
    decide

theorem blob_accessors_inside_one :
    goodInit = (.ok goodOpened, goodInit.2) ∧ AccessorsInside goodOpened goodInit.2 := by
  obtain ⟨opened, fits⟩ := goodInit_fits
  have init : goodInit = (.ok goodOpened, goodInit.2) := Prod.ext opened rfl
  exact ⟨init, (blob_accessors_inside fixedMalloc [] _ _ _ _ init).1.mpr fits⟩

def shortInit : Except Error Opened × Mem :=
  tegrablBlobInit fixedMalloc [] (imageSource (blobImage 48 48 1 blobUpdate [])) 0 fun _ => 7

/-- A blob of 48 bytes that says it has an entry behind its header. -/
theorem blob_accessors_inside_short :
    ¬ ∀ (malloc : Nat → Nat → Nat) (methods : List Decompressor) (source : Source) (m m' : Mem)
      (o : Opened), tegrablBlobInit malloc methods source 0 m = (.ok o, m') → AccessorsInside o m' := by
  intro claim
  have opened : shortInit.1 = .ok ⟨⟨0x3000, 0, 48, 24⟩, 48⟩ := by decide
  have inside := claim fixedMalloc [] _ _ shortInit.2 _ (Prod.ext opened rfl)
  have count : tegrablBlobGetNumEntries (some ⟨0x3000, 0, 48, 24⟩) shortInit.2 = .ok 1 := by
    decide
  have entry : tegrablBlobGetEntry (some ⟨0x3000, 0, 48, 24⟩) 0 shortInit.2 = .ok 0x3030 := by
    decide
  have type : tegrablBlobGetType (some ⟨0x3000, 0, 48, 24⟩) shortInit.2 = .ok blobUpdate := by
    decide
  have last := (inside.entry 1 0 0x3030 blobUpdate imageEntryBytes count (by decide) entry type rfl).2
  exact absurd last (by decide)

/-- The block that is allocated, the bytes that are copied to its start, and the input and the output of the method, as
offsets in the blob and in the block with their sizes. -/
structure Handover where
  outbuf : UInt32
  copied : UInt32
  input : UInt32
  inputSize : UInt32
  output : UInt32
  capacity : UInt32
  deriving DecidableEq, Repr

def handover (blobheader : BlobHeader) (hdrSize dataSize : UInt32) : Handover where
  outbuf := outbufSize blobheader
  copied := hdrSize
  input := hdrSize
  inputSize := dataSize - hdrSize
  output := hdrSize
  capacity := outbufSize blobheader

/-- Nothing is read behind the bytes of the blob, and nothing may be written behind the block. -/
structure Handover.Inside (h : Handover) (dataSize : UInt32) : Prop where
  source : h.copied.toNat ≤ dataSize.toNat
  header : h.copied.toNat ≤ h.outbuf.toNat
  input : h.input.toNat + h.inputSize.toNat ≤ dataSize.toNat
  output : h.output.toNat + h.capacity.toNat ≤ h.outbuf.toNat

/-- The blob at `header` is compressed and passes the checks of its sizes. -/
structure PassesChecks (methods : List Decompressor) (m : Mem) (header : Nat) (dataSize : UInt32)
    (decomp : Decompressor) : Prop where
  compressed :
    isCompressedContent methods m (header + (BlobHeader.decode m header).entriesOffset.toNat) = some decomp
  legacy : ¬ ((BlobHeader.decode m header).entriesOffset = legacyBlobHeaderLen ∧
    maxBlobSize < (BlobHeader.decode m header).entriesOffset)
  uncompressed : ¬ ((BlobHeader.decode m header).entriesOffset ≠ legacyBlobHeaderLen ∧
    (BlobHeader.decode m header).uncompSize < (BlobHeader.decode m header).entriesOffset)
  data : ¬ dataSize < (BlobHeader.decode m header).entriesOffset

section
variable {malloc : Nat → Nat → Nat} {methods : List Decompressor} {m : Mem} {header : Nat}
variable {dataSize hdrSize : UInt32} {decomp other : Decompressor}

theorem expandBlob_of_passes (passes : PassesChecks methods m header dataSize decomp) :
    expandBlob malloc methods header dataSize m =
      ((blobDecompress malloc header (BlobHeader.decode m header).entriesOffset dataSize decomp m).1.map
          fun found => (found.1, found.2.toNat),
        (blobDecompress malloc header (BlobHeader.decode m header).entriesOffset dataSize decomp m).2) := by
  unfold expandBlob
  simp only [passes.compressed, if_neg passes.legacy, if_neg passes.uncompressed, if_neg passes.data]
  rcases ended : blobDecompress malloc header (BlobHeader.decode m header).entriesOffset dataSize decomp m with
    ⟨result, m'⟩
  cases result with
  | error e => simp [Except.map]
  | ok found => simp [Except.map]

theorem blobDecompress_congr (same : decomp.decompress
        (bytesAt (blit m (malloc 3 (handover (BlobHeader.decode m header) hdrSize dataSize).outbuf.toNat) m header
          hdrSize.toNat) (header + (handover (BlobHeader.decode m header) hdrSize dataSize).input.toNat)
          (handover (BlobHeader.decode m header) hdrSize dataSize).inputSize.toNat)
        (handover (BlobHeader.decode m header) hdrSize dataSize).capacity = other.decompress
        (bytesAt (blit m (malloc 3 (handover (BlobHeader.decode m header) hdrSize dataSize).outbuf.toNat) m header
          hdrSize.toNat) (header + (handover (BlobHeader.decode m header) hdrSize dataSize).input.toNat)
          (handover (BlobHeader.decode m header) hdrSize dataSize).inputSize.toNat)
        (handover (BlobHeader.decode m header) hdrSize dataSize).capacity) :
    blobDecompress malloc header hdrSize dataSize decomp m = blobDecompress malloc header hdrSize dataSize other m := by
  simp only [handover] at same
  simp only [blobDecompress, same]

theorem header_fits (passes : PassesChecks methods m header dataSize decomp) :
    (BlobHeader.decode m header).entriesOffset.toNat ≤ dataSize.toNat ∧
      (BlobHeader.decode m header).entriesOffset.toNat ≤ (outbufSize (BlobHeader.decode m header)).toNat := by
  have data := passes.data
  have legacy := passes.legacy
  have uncompressed := passes.uncompressed
  rw [UInt32.lt_iff_toNat_lt] at data
  refine ⟨Nat.not_lt.mp data, ?_⟩
  unfold outbufSize
  split
  · rename_i same
    rw [UInt32.lt_iff_toNat_lt] at legacy
    exact Nat.not_lt.mp fun small => legacy ⟨same, small⟩
  · rename_i other
    rw [UInt32.lt_iff_toNat_lt] at uncompressed
    exact Nat.not_lt.mp fun small => uncompressed ⟨other, small⟩

end

/-- The method keeps to the block exactly where the blob has no header in front of its compressed bytes. -/
theorem handover_inside_iff (methods : List Decompressor) (m : Mem) (header : Nat) (dataSize : UInt32)
    (decomp : Decompressor) (passes : PassesChecks methods m header dataSize decomp) :
    (handover (BlobHeader.decode m header) (BlobHeader.decode m header).entriesOffset dataSize).Inside dataSize ↔
      (BlobHeader.decode m header).entriesOffset = 0 := by
  obtain ⟨data, block⟩ := header_fits passes
  constructor
  · intro inside
    have output := inside.output
    dsimp only [handover] at output
    apply UInt32.toNat_inj.mp
    change _ = 0
    omega
  · intro none
    refine ⟨data, block, ?_, ?_⟩
    · dsimp only [handover]
      rw [UInt32.toNat_sub_of_le _ _ (UInt32.le_iff_toNat_le.mpr data)]
      omega
    · dsimp only [handover]
      rw [none]
      exact Nat.le_of_eq (Nat.zero_add _)

def fillingMethod : Decompressor where
  magic := (90, 86)
  decompress _ capacity := .ok (List.replicate capacity.toNat 0)

def compressedMem : Mem := fun a =>
  (updateMagic ++ words [2, 60, 48, 0, blobBmp, 100, 0, 0] ++ 90 :: 86 :: List.replicate 10 0).getD (a - 16) 0

theorem compressedMem_passes : PassesChecks [fillingMethod] compressedMem 16 60 fillingMethod :=
  ⟨by rfl, by decide, by decide, by decide⟩

theorem handover_inside_compressed :
    ¬ (handover (BlobHeader.decode compressedMem 16) (BlobHeader.decode compressedMem 16).entriesOffset 60).Inside 60 :=
  (handover_inside_iff [fillingMethod] compressedMem 16 60 fillingMethod compressedMem_passes).not.mpr
    (by decide)

/-- The method may write 48 bytes behind the block. -/
theorem handover_overflows : ¬ ∀ (methods : List Decompressor) (m : Mem) (header : Nat) (dataSize : UInt32)
    (decomp : Decompressor), PassesChecks methods m header dataSize decomp →
    (handover (BlobHeader.decode m header) (BlobHeader.decode m header).entriesOffset dataSize).Inside dataSize := by
  intro claim
  have output := (claim [fillingMethod] compressedMem 16 60 fillingMethod compressedMem_passes).output
  exact absurd output (by decide)

end Cboot.Nvblob
