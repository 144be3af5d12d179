import Mathlib.Algebra.GroupWithZero.Nat
import Cboot.Sparse.Stream

/-!
`lib/sparse/tegrabl_sparse.c`. The image grows by one chunk at a time: the buffer is reallocated, the chunk is written
behind what is there, and the totals of the header are brought up to date.
-/

namespace Cboot.Sparse
open Lib

/-- `DIV_CEIL` and `ROUND_UP` of two 32-bit numbers. -/
def divCeil (n d : UInt32) : UInt32 := (n + d - 1) / d
def roundUp (n w : UInt32) : UInt32 := divCeil n w * w

/-- `struct tegrabl_sparse_state`. An empty buffer stands for none. -/
structure SparseState where
  buffer : List UInt8
  imageSize : UInt64
  deriving DecidableEq, Repr

inductive Fault where
  | error (e : Error)
  | overrun
  deriving DecidableEq, Repr

def tegrablSparseInit (memory : Bool) (blockSize : UInt32) : Except Fault SparseState :=
  if blockSize % 4096 ≠ 0 then .error (.error (.own .invalid 0))
  else if ¬ memory then .error (.error (.own .noMemory 0))
  else .ok
    { buffer := ImageHeader.codec.encode
        { magic := sparseHeaderMagic
          majorVersion := 1
          minorVersion := 0
          fileHdrSz := 28
          chunkHdrSz := 12
          blkSz := blockSize
          totalBlks := 0
          totalChunks := 0
          imageChecksum := 0 }
      imageSize := 0 }

def bufferHeader (buffer : List UInt8) : ImageHeader :=
  ImageHeader.codec.decode (buffer.take imageHeaderBytes)

def chunkBufferSize (header : ImageHeader) (chunkType : UInt32) (dataSize : Nat) (writeSize : UInt32) :
    Option UInt32 :=
  let headerSize := header.chunkHdrSz.toUInt32
  if chunkType = chunkTypeRaw.toUInt32 then
    if dataSize ≠ writeSize.toNat then none else some (headerSize + roundUp writeSize header.blkSz)
  else if chunkType = chunkTypeFill.toUInt32 ∨ chunkType = chunkTypeCrc.toUInt32 then
    if dataSize ≠ 4 then none else some (headerSize + 4)
  else if chunkType = chunkTypeDontCare.toUInt32 then
    if dataSize ≠ 0 then none else some headerSize
  else none

def writeChunk (buffer : List UInt8) (start : Nat) (bufferSize : UInt32) (chunkType : UInt32)
    (data : List UInt8) (writeSize : UInt32) : List UInt8 :=
  let header := bufferHeader buffer
  let chunkSz := divCeil writeSize header.blkSz
  let cleared := copyTo buffer start (List.replicate bufferSize.toNat 0)
  let chunked := copyTo cleared start (ChunkHeader.codec.encode ⟨chunkType.toUInt16, 0, chunkSz, bufferSize⟩)
  let counted := copyTo chunked 0 (ImageHeader.codec.encode
    { header with
      totalBlks := header.totalBlks + chunkSz
      totalChunks := header.totalChunks + 1 })
  copyTo counted (start + header.chunkHdrSz.toNat) data

/-- `realloc` is `tegrabl_realloc`, by what is in the memory that it gives. -/
def tegrablSparseAddChunk (realloc : List UInt8 → Nat → Option (List UInt8)) (s : SparseState)
    (chunkType : UInt32) (data : List UInt8) (writeSize : UInt32) : Except Fault SparseState :=
  if writeSize = 0 ∨ s.buffer = [] then .error (.error (.own .invalid 0))
  else
    let header := bufferHeader s.buffer
    match chunkBufferSize header chunkType data.length writeSize with
    | none => .error (.error (.own .invalid 0))
    | some bufferSize =>
      match realloc s.buffer (s.buffer.length + bufferSize.toNat) with
      | none => .error (.error (.own .noMemory 0))
      | some buffer =>
        if bufferSize.toNat < header.chunkHdrSz.toNat + data.length then .error .overrun
        else .ok
          { buffer := writeChunk buffer s.buffer.length bufferSize chunkType data writeSize
            imageSize := s.imageSize + (roundUp writeSize header.blkSz).toUInt64 }

def tegrablSparseGetBuffer (s : SparseState) : Except Fault (List UInt8) :=
  if s.buffer = [] then .error (.error (.own .invalid 0)) else .ok s.buffer

inductive Chunk where
  | raw (data : List UInt8)
  | fill (value : List UInt8) (writeSize : UInt32)
  | dontCare (writeSize : UInt32)
  deriving DecidableEq, Repr

namespace Chunk

def type : Chunk → UInt16
  | raw _ => chunkTypeRaw
  | fill _ _ => chunkTypeFill
  | dontCare _ => chunkTypeDontCare

def data : Chunk → List UInt8
  | raw data => data
  | fill value _ => value
  | dontCare _ => []

def writeSize : Chunk → UInt32
  | raw data => data.length.toUInt32
  | fill _ writeSize => writeSize
  | dontCare writeSize => writeSize

end Chunk

def addChunk (realloc : List UInt8 → Nat → Option (List UInt8)) (s : SparseState) (chunk : Chunk) :
    Except Fault SparseState :=
  tegrablSparseAddChunk realloc s chunk.type.toUInt32 chunk.data chunk.writeSize

def addChunks (realloc : List UInt8 → Nat → Option (List UInt8)) (s : SparseState)
    (chunks : List Chunk) : Except Fault SparseState :=
  chunks.foldlM (addChunk realloc) s

def Preserves (realloc : List UInt8 → Nat → Option (List UInt8)) : Prop :=
  ∀ old size new, old.length ≤ size → realloc old size = some new → new.length = size ∧ old <+: new

section
variable {blockSize : UInt32}

def builtHeader (blockSize totalBlks totalChunks : UInt32) : ImageHeader where
  magic := sparseHeaderMagic
  majorVersion := 1
  minorVersion := 0
  fileHdrSz := 28
  chunkHdrSz := 12
  blkSz := blockSize
  totalBlks := totalBlks
  totalChunks := totalChunks
  imageChecksum := 0

def Chunk.room (blockSize : UInt32) : Chunk → UInt32
  | .raw data => roundUp data.length.toUInt32 blockSize
  | .fill _ _ => 4
  | .dontCare _ => 0

def Chunk.image (blockSize : UInt32) (chunk : Chunk) : List UInt8 :=
  ChunkHeader.codec.encode
      ⟨chunk.type, 0, divCeil chunk.writeSize blockSize, 12 + chunk.room blockSize⟩ ++
    (chunk.data ++ List.replicate ((12 + chunk.room blockSize).toNat - (12 + chunk.data.length)) 0)

def Chunk.DataSized : Chunk → Prop
  | .raw data => data.length < 2 ^ 32
  | .fill value _ => value.length = 4
  | .dontCare _ => True

structure Chunk.Sound (blockSize : UInt32) (chunk : Chunk) : Prop where
  sized : chunk.DataSized
  nonempty : chunk.writeSize ≠ 0
  inside : 12 + chunk.data.length ≤ (12 + chunk.room blockSize).toNat

def codedBlocks (blockSize : UInt32) (chunks : List Chunk) : Nat :=
  (chunks.map fun chunk => (divCeil chunk.writeSize blockSize).toNat).sum

def imageOf (blockSize : UInt32) (chunks : List Chunk) : List UInt8 :=
  ImageHeader.codec.encode
      (builtHeader blockSize (UInt32.ofNat (codedBlocks blockSize chunks))
        (UInt32.ofNat chunks.length)) ++ chunks.flatMap (Chunk.image blockSize)

theorem copyTo_append_left (front object : List UInt8) (offset : Nat) (bytes : List UInt8) :
    copyTo (front ++ object) (front.length + offset) bytes = front ++ copyTo object offset bytes := by
  apply List.ext_getElem?
  intro i
  rw [getElem?_copyTo]
  by_cases inside : i < front.length
  · rw [List.getElem?_append_left inside, List.getElem?_append_left inside,
      List.getElem?_eq_getElem inside, Option.map_some, if_neg (by omega)]
  · have behind : front.length ≤ i := Nat.not_lt.mp inside
    have shift : i - (front.length + offset) = i - front.length - offset := by omega
    have order : front.length + offset ≤ i ↔ offset ≤ i - front.length := by omega
    rw [List.getElem?_append_right behind, List.getElem?_append_right behind, getElem?_copyTo]
    simp only [shift, order]

theorem copyTo_front {old bytes : List UInt8} (same : bytes.length = old.length) (rest : List UInt8) :
    copyTo (old ++ rest) 0 bytes = bytes ++ rest := by
  apply List.ext_getElem?
  intro i
  rw [getElem?_copyTo]
  simp only [Nat.zero_le, if_true, Nat.sub_zero]
  by_cases inside : i < old.length
  · have there : i < bytes.length := by omega
    rw [List.getElem?_append_left inside, List.getElem?_append_left there,
      List.getElem?_eq_getElem inside, List.getElem?_eq_getElem there, Option.map_some, List.getD_eq_getElem _ _ there]
  · have behind : old.length ≤ i := Nat.not_lt.mp inside
    rw [List.getElem?_append_right behind, List.getElem?_append_right (by omega), same]
    cases rest[i - old.length]? with
    | none => rfl
    | some b => rw [Option.map_some, List.getD_eq_default _ _ (by omega)]

theorem copyTo_middle {old bytes : List UInt8} (front rest : List UInt8) (same : bytes.length = old.length) :
    copyTo (front ++ (old ++ rest)) front.length bytes = front ++ (bytes ++ rest) := by
  have place := copyTo_append_left front (old ++ rest) 0 bytes
  rw [Nat.add_zero] at place
  rw [place, copyTo_front same]

theorem bufferHeader_encode (h : ImageHeader) (rest : List UInt8) :
    bufferHeader (ImageHeader.codec.encode h ++ rest) = h := by
  have width : (ImageHeader.codec.encode h).length = imageHeaderBytes :=
    ImageHeader.codec.length_encode h
  rw [bufferHeader, ← width, List.take_left, ImageHeader.codec.decode_encode]

theorem writeChunk_eq {totalBlks totalChunks bufferSize chunkType writeSize : UInt32}
    {body fresh data : List UInt8} (room : fresh.length = bufferSize.toNat)
    (inside : 12 + data.length ≤ bufferSize.toNat) : writeChunk
        (ImageHeader.codec.encode (builtHeader blockSize totalBlks totalChunks) ++ body ++ fresh)
        (ImageHeader.codec.encode (builtHeader blockSize totalBlks totalChunks) ++ body).length
        bufferSize chunkType data writeSize =
      ImageHeader.codec.encode (builtHeader blockSize (totalBlks + divCeil writeSize blockSize)
          (totalChunks + 1)) ++ body ++ (ChunkHeader.codec.encode
            ⟨chunkType.toUInt16, 0, divCeil writeSize blockSize, bufferSize⟩ ++
          (data ++ List.replicate (bufferSize.toNat - (12 + data.length)) 0)) := by
  have header : bufferHeader (ImageHeader.codec.encode (builtHeader blockSize totalBlks totalChunks) ++
      body ++ fresh) = builtHeader blockSize totalBlks totalChunks := by
    rw [List.append_assoc, bufferHeader_encode]
  let pad := List.replicate (bufferSize.toNat - (12 + data.length)) (0 : UInt8)
  have zeros : List.replicate bufferSize.toNat (0 : UInt8) =
      List.replicate 12 0 ++ (List.replicate data.length 0 ++ pad) := by
    rw [← List.replicate_add, ← List.replicate_add]
    congr 1
    omega
  have cleared : ∀ old : List UInt8, copyTo (old ++ fresh) old.length
      (List.replicate bufferSize.toNat 0) = old ++ List.replicate bufferSize.toNat 0 := by
    intro old
    have written := copyTo_middle old [] (by rw [List.length_replicate, room] :
      (List.replicate bufferSize.toNat (0 : UInt8)).length = fresh.length)
    rwa [List.append_nil, List.append_nil] at written
  let chunk : ChunkHeader := ⟨chunkType.toUInt16, 0, divCeil writeSize blockSize, bufferSize⟩
  have width : (ChunkHeader.codec.encode chunk).length = 12 := ChunkHeader.codec.length_encode chunk
  have chunked : ∀ old rest : List UInt8, copyTo (old ++ (List.replicate 12 0 ++ rest)) old.length
      (ChunkHeader.codec.encode chunk) = old ++ (ChunkHeader.codec.encode chunk ++ rest) :=
    fun old rest => copyTo_middle old rest (by rw [width, List.length_replicate])
  have counted : ∀ (h h' : ImageHeader) (rest : List UInt8),
      copyTo (ImageHeader.codec.encode h ++ rest) 0 (ImageHeader.codec.encode h') =
        ImageHeader.codec.encode h' ++ rest := fun h h' rest =>
    copyTo_front (by rw [ImageHeader.codec.length_encode, ImageHeader.codec.length_encode]) rest
  unfold writeChunk
  dsimp only
  rw [header, cleared, zeros]
  change copyTo (copyTo (copyTo _ _ (ChunkHeader.codec.encode chunk)) 0 _) _ _ = _
  rw [chunked, List.append_assoc, counted]
  -- The data go where the zeros behind the chunk header are.
  have place : (ImageHeader.codec.encode (builtHeader blockSize totalBlks totalChunks) ++ body).length +
      12 = (ImageHeader.codec.encode (builtHeader blockSize (totalBlks + divCeil writeSize blockSize)
        (totalChunks + 1)) ++ body ++ ChunkHeader.codec.encode chunk).length := by
    rw [List.length_append, List.length_append, List.length_append, width,
      ImageHeader.codec.length_encode, ImageHeader.codec.length_encode]
  have data_written := copyTo_middle (ImageHeader.codec.encode (builtHeader blockSize
    (totalBlks + divCeil writeSize blockSize) (totalChunks + 1)) ++ body ++
      ChunkHeader.codec.encode chunk) pad (by rw [List.length_replicate] :
        data.length = (List.replicate data.length (0 : UInt8)).length)
  rw [← place] at data_written
  simp only [List.append_assoc] at data_written ⊢
  exact data_written

theorem chunkBufferSize_eq {totalBlks totalChunks bufferSize : UInt32} {chunk : Chunk}
    (fits : chunkBufferSize (builtHeader blockSize totalBlks totalChunks) chunk.type.toUInt32
      chunk.data.length chunk.writeSize = some bufferSize) :
    bufferSize = 12 + chunk.room blockSize ∧ chunk.DataSized := by
  cases chunk with
  | raw data =>
    change chunkBufferSize _ chunkTypeRaw.toUInt32 data.length data.length.toUInt32 = _ at fits
    unfold chunkBufferSize at fits
    rw [if_pos rfl] at fits
    by_cases wrong : data.length ≠ data.length.toUInt32.toNat
    · rw [if_pos wrong] at fits
      cases fits
    · rw [if_neg wrong] at fits
      refine ⟨(Option.some.inj fits).symm, ?_⟩
      change data.length < 2 ^ 32
      rw [not_not.mp wrong]
      exact data.length.toUInt32.toNat_lt
  | fill value writeSize =>
    change chunkBufferSize _ chunkTypeFill.toUInt32 value.length writeSize = _ at fits
    unfold chunkBufferSize at fits
    rw [if_neg (by decide), if_pos (.inl rfl)] at fits
    by_cases wrong : value.length ≠ 4
    · rw [if_pos wrong] at fits
      cases fits
    · rw [if_neg wrong] at fits
      exact ⟨(Option.some.inj fits).symm, not_not.mp wrong⟩
  | dontCare writeSize =>
    change chunkBufferSize _ chunkTypeDontCare.toUInt32 0 writeSize = _ at fits
    unfold chunkBufferSize at fits
    rw [if_neg (by decide), if_neg (by decide), if_pos rfl, if_neg (not_not.mpr rfl)] at fits
    exact ⟨(Option.some.inj fits).symm, trivial⟩

variable {realloc : List UInt8 → Nat → Option (List UInt8)}

theorem addChunk_ok (preserves : Preserves realloc) {s s' : SparseState} {chunk : Chunk}
    {totalBlks totalChunks : UInt32} {body : List UInt8} (before : s.buffer =
      ImageHeader.codec.encode (builtHeader blockSize totalBlks totalChunks) ++ body)
    (added : addChunk realloc s chunk = .ok s') : chunk.Sound blockSize ∧
      s'.buffer = ImageHeader.codec.encode (builtHeader blockSize
        (totalBlks + divCeil chunk.writeSize blockSize) (totalChunks + 1)) ++ (body ++ chunk.image blockSize) := by
  unfold addChunk tegrablSparseAddChunk at added
  by_cases none : chunk.writeSize = 0 ∨ s.buffer = []
  · rw [if_pos none] at added
    cases added
  rw [if_neg none] at added
  have header : bufferHeader s.buffer = builtHeader blockSize totalBlks totalChunks := by
    rw [before, bufferHeader_encode]
  dsimp only at added
  rw [header] at added
  split at added
  · cases added
  rename_i bufferSize fits
  obtain ⟨rfl, sized⟩ := chunkBufferSize_eq fits
  split at added
  · cases added
  rename_i buffer gives
  obtain ⟨length, fresh, rfl⟩ := preserves _ _ _ (Nat.le_add_right _ _) gives
  split at added
  · cases added
  rename_i fit
  have inside : 12 + chunk.data.length ≤ (12 + chunk.room blockSize).toNat := Nat.not_lt.mp fit
  have room : fresh.length = (12 + chunk.room blockSize).toNat := by
    rw [List.length_append] at length
    omega
  obtain rfl := Except.ok.inj added
  refine ⟨⟨sized, (not_or.mp none).1, inside⟩, ?_⟩
  dsimp only
  rw [before, writeChunk_eq room inside, List.append_assoc, UInt16.toUInt16_toUInt32]
  rfl

theorem addChunks_ok (preserves : Preserves realloc) (chunks : List Chunk) {s s' : SparseState}
    {blocks count : Nat} {body : List UInt8} (before : s.buffer = ImageHeader.codec.encode
      (builtHeader blockSize (UInt32.ofNat blocks) (UInt32.ofNat count)) ++ body)
    (added : addChunks realloc s chunks = .ok s') : (∀ chunk ∈ chunks, chunk.Sound blockSize) ∧
      s'.buffer = ImageHeader.codec.encode (builtHeader blockSize (UInt32.ofNat (blocks + codedBlocks blockSize chunks))
          (UInt32.ofNat (count + chunks.length))) ++ (body ++ chunks.flatMap (Chunk.image blockSize)) := by
  induction chunks generalizing s blocks count body with
  | nil =>
    cases added
    refine ⟨fun _ member => absurd member List.not_mem_nil, ?_⟩
    rw [before, List.flatMap_nil, List.append_nil]
    rfl
  | cons chunk chunks ih =>
    unfold addChunks at added
    rw [List.foldlM_cons] at added
    cases first : addChunk realloc s chunk with
    | error fault =>
      rw [first] at added
      cases added
    | ok s₁ =>
      rw [first] at added
      obtain ⟨sound, after⟩ := addChunk_ok preserves before first
      have blocks_eq : UInt32.ofNat blocks + divCeil chunk.writeSize blockSize =
          UInt32.ofNat (blocks + (divCeil chunk.writeSize blockSize).toNat) := by
        rw [UInt32.ofNat_add, UInt32.ofNat_toNat]
      have count_eq : UInt32.ofNat count + 1 = UInt32.ofNat (count + 1) := by
        rw [UInt32.ofNat_add]
        rfl
      rw [blocks_eq, count_eq] at after
      obtain ⟨others, built⟩ := ih after added
      refine ⟨List.forall_mem_cons.mpr ⟨sound, others⟩, ?_⟩
      rw [built, List.flatMap_cons, List.append_assoc, codedBlocks, codedBlocks, List.map_cons,
        List.sum_cons, List.length_cons, Nat.add_assoc, Nat.add_assoc, Nat.add_comm 1]

theorem built_image (preserves : Preserves realloc) {memory : Bool} {chunks : List Chunk}
    {start s : SparseState} (init : tegrablSparseInit memory blockSize = .ok start)
    (added : addChunks realloc start chunks = .ok s) :
    (∀ chunk ∈ chunks, chunk.Sound blockSize) ∧ s.buffer = imageOf blockSize chunks := by
  unfold tegrablSparseInit at init
  split at init
  · cases init
  split at init
  · cases init
  obtain rfl := Except.ok.inj init
  have empty : ImageHeader.codec.encode (builtHeader blockSize 0 0) =
      ImageHeader.codec.encode (builtHeader blockSize (UInt32.ofNat 0) (UInt32.ofNat 0)) ++ [] :=
    (List.append_nil _).symm
  have built := addChunks_ok preserves chunks empty added
  rw [Nat.zero_add, Nat.zero_add, List.nil_append] at built
  exact built

end

end Cboot.Sparse
