import Cboot.Sparse.Build

/-!
An image that is built of chunks is unsparsed to what the chunks stand for, where no size wraps around
when it is rounded up.
-/

namespace Cboot.Sparse
open Lib Utils

def Chunk.blocks (blockSize : UInt32) (chunk : Chunk) : Nat :=
  (chunk.writeSize.toNat + blockSize.toNat - 1) / blockSize.toNat

def Chunk.extent (blockSize : UInt32) (chunk : Chunk) : Nat :=
  chunk.blocks blockSize * blockSize.toNat

/-- Data with zeros up to the end of the last block, repeated fill values, or a seek. -/
def Chunk.output (blockSize : UInt32) (chunk : Chunk) : List Output :=
  match chunk with
  | .raw data =>
    (data ++ List.replicate (chunk.extent blockSize - data.length) 0).map .byte
  | .fill value _ => (List.replicate (chunk.extent blockSize / 4) value).flatten.map .byte
  | .dontCare _ => [.skip (chunk.extent blockSize)]

def unsparsedSize (blockSize : UInt32) (chunks : List Chunk) : Nat :=
  (chunks.map (Chunk.extent blockSize)).sum

def Chunk.Rounds (blockSize : UInt32) (chunk : Chunk) : Prop :=
  chunk.writeSize.toNat + blockSize.toNat - 1 < 2 ^ 32

section
variable {n d : UInt32}

theorem divCeil_toNat (pos : 0 < d.toNat) : (divCeil n d).toNat = (n.toNat + d.toNat - 1) % 2 ^ 32 / d.toNat := by
  have small := n.toNat_lt
  have bound := d.toNat_lt
  unfold divCeil
  rw [UInt32.toNat_div, UInt32.toNat_sub, UInt32.toNat_add, UInt32.toNat_one]
  congr 1
  omega

theorem roundUp_toNat (pos : 0 < d.toNat) : (roundUp n d).toNat = (divCeil n d).toNat * d.toNat := by
  have below : (divCeil n d).toNat * d.toNat < 2 ^ 32 := by
    rw [divCeil_toNat pos]
    exact Nat.lt_of_le_of_lt (Nat.div_mul_le_self _ _) (Nat.mod_lt _ (by decide))
  unfold roundUp
  rw [UInt32.toNat_mul, Nat.mod_eq_of_lt below]

end

section
variable {blockSize : UInt32} {chunk : Chunk}

variable (pos : 0 < blockSize.toNat)
include pos

theorem divCeil_le_blocks (chunk : Chunk) :
    (divCeil chunk.writeSize blockSize).toNat ≤ chunk.blocks blockSize := by
  rw [divCeil_toNat pos]
  exact Nat.div_le_div_right (Nat.mod_le _ _)

theorem divCeil_eq_blocks_iff :
    (divCeil chunk.writeSize blockSize).toNat = chunk.blocks blockSize ↔ chunk.Rounds blockSize := by
  have bound := blockSize.toNat_lt
  have size := chunk.writeSize.toNat_lt
  rw [divCeil_toNat pos]
  unfold Chunk.blocks Chunk.Rounds
  constructor
  · intro same
    by_contra wraps
    -- The wrapped sum is smaller by more than a block.
    have smaller : (chunk.writeSize.toNat + blockSize.toNat - 1) % 2 ^ 32 + blockSize.toNat ≤
        chunk.writeSize.toNat + blockSize.toNat - 1 := by
      omega
    have less := Nat.div_le_div_right (c := blockSize.toNat) smaller
    rw [Nat.add_div_right _ pos] at less
    omega
  · intro inside
    rw [Nat.mod_eq_of_lt inside]

theorem codedBlocks_le (chunks : List Chunk) :
    codedBlocks blockSize chunks ≤ (chunks.map (Chunk.blocks blockSize)).sum := by
  unfold codedBlocks
  induction chunks with
  | nil => exact Nat.le_refl 0
  | cons chunk chunks ih =>
    rw [List.map_cons, List.sum_cons, List.map_cons, List.sum_cons]
    exact Nat.add_le_add (divCeil_le_blocks pos chunk) ih

theorem codedBlocks_eq_iff (chunks : List Chunk) :
    codedBlocks blockSize chunks = (chunks.map (Chunk.blocks blockSize)).sum ↔
      ∀ chunk ∈ chunks, chunk.Rounds blockSize := by
  induction chunks with
  | nil => exact ⟨fun _ _ member => absurd member List.not_mem_nil, fun _ => rfl⟩
  | cons chunk chunks ih =>
    have first := divCeil_le_blocks pos chunk
    have others := codedBlocks_le pos chunks
    rw [List.forall_mem_cons, ← ih, ← divCeil_eq_blocks_iff pos]
    unfold codedBlocks at others ⊢
    rw [List.map_cons, List.sum_cons, List.map_cons, List.sum_cons]
    omega

omit pos

theorem unsparsedSize_eq (chunks : List Chunk) : unsparsedSize blockSize chunks =
      (chunks.map (Chunk.blocks blockSize)).sum * blockSize.toNat := by
  unfold unsparsedSize
  induction chunks with
  | nil => exact (Nat.zero_mul _).symm
  | cons chunk chunks ih =>
    rw [List.map_cons, List.sum_cons, List.map_cons, List.sum_cons, ih, Nat.add_mul]
    rfl

end

section
variable {crcEnabled : Bool} {h : ImageHeader} {k : Nat} {st : UnsparseState} {out : List Output}

/-- The machine awaits the header of chunk `k` of an image. -/
structure Ready (h : ImageHeader) (k : Nat) (st : UnsparseState) : Prop where
  stage : st.state = .chunkHeader
  start : st.offset = 0
  full : st.remaining = chunkHeaderBytes
  image : st.image = h
  counted : st.chunksProcessed = k
  length : st.chunkHeader.length = chunkHeaderBytes
  word : st.fillValue.length = 4

def chunkBegun (ch : ChunkHeader) (st : UnsparseState) : UnsparseState :=
  { st with
    chunkHeader := ChunkHeader.codec.encode ch
    chunksProcessed := st.chunksProcessed + 1
    state := chunkStage ch.chunkType
    offset := 0
    remaining := ch.chunkSz.toNat * st.image.blkSz.toNat }

theorem chunkComplete_of_valid {σ : Type} {w : Work σ}
    (valid : tegrablSparseValidateChunkHeader w.st.image w.st.chunk = none)
    (few : w.st.chunksProcessed + 1 ≤ w.st.image.totalChunks.toNat) (rest : List UInt8) : chunkComplete w rest = .next
      { w with
        st :=
          { w.st with
            chunksProcessed := w.st.chunksProcessed + 1
            state := chunkStage w.st.chunk.chunkType
            offset := 0
            remaining := w.st.chunk.chunkSz.toNat * w.st.image.blkSz.toNat }
        error := none } rest := by
  unfold chunkComplete
  rw [valid]
  exact if_neg (Nat.not_lt.mpr few)

theorem imageComplete_of_valid {σ : Type} {w : Work σ}
    (valid : tegrablSparseValidateHeader w.st.image w.st.maxUnsparseSize = none) (rest : List UInt8) :
    imageComplete w rest = .next { w with
        st := { w.st.nextChunk with remaining := w.st.image.chunkHdrSz.toNat }
        error := none } rest := by
  unfold imageComplete
  rw [valid]

theorem takePart_whole {σ : Type} {into : UnsparseState → List UInt8 → UnsparseState}
    {complete : Work σ → List UInt8 → Iteration (Work σ) UInt8 (Halt σ)} {w : Work σ}
    {part : List UInt8} (rest : List UInt8) (length : part.length = w.st.remaining)
    (done : (into w.st part).remaining = 0) :
    takePart into complete w (part ++ rest) = complete { w with st := into w.st part } rest := by
  unfold takePart
  dsimp only
  rw [← length, List.take_left, List.drop_left, done, if_neg (not_not.mpr rfl)]

theorem loop_chunkHeader (ready : Ready h k st) {ch : ChunkHeader}
    (valid : tegrablSparseValidateChunkHeader h ch = none) (few : k + 1 ≤ h.totalChunks.toNat) (rest : List UInt8) :
    (machine crcEnabled recorder).loop ⟨st, none, out⟩ (ChunkHeader.codec.encode ch ++ rest) =
      (machine crcEnabled recorder).loop ⟨chunkBegun ch st, none, out⟩ rest := by
  have width : (ChunkHeader.codec.encode ch).length = chunkHeaderBytes :=
    ChunkHeader.codec.length_encode ch
  have nonempty : ChunkHeader.codec.encode ch ++ rest ≠ [] := List.append_ne_nil_of_left_ne_nil
    (List.ne_nil_of_length_pos (by rw [width]; decide)) rest
  have part : (ChunkHeader.codec.encode ch ++ rest).take st.remaining = ChunkHeader.codec.encode ch := by
    rw [ready.full, ← width, List.take_left]
  have copied : copyTo st.chunkHeader st.offset (ChunkHeader.codec.encode ch) = ChunkHeader.codec.encode ch := by
    rw [ready.start, copyTo_zero (Nat.le_of_eq (by rw [width, ready.length])), ready.length, ← width, List.take_length]
  have decoded : (st.chunkBytes (ChunkHeader.codec.encode ch)).chunk = ch := by
    change ChunkHeader.codec.decode (copyTo st.chunkHeader st.offset _) = ch
    rw [copied, ChunkHeader.codec.decode_encode]
  have used : (st.chunkBytes (ChunkHeader.codec.encode ch)).remaining = 0 := by
    change st.remaining - (ChunkHeader.codec.encode ch).length = 0
    rw [ready.full, width, Nat.sub_self]
  refine Consumer.loop_next (.inl nonempty) ?_
  change iteration crcEnabled recorder ⟨st, none, out⟩ _ = _
  unfold iteration
  rw [ready.stage]
  dsimp only
  unfold partialChunkHeader
  dsimp only
  rw [part, width, ready.start, if_neg (by decide)]
  unfold takeChunkHeader
  rw [takePart_whole rest (width.trans ready.full.symm) used]
  have image : (st.chunkBytes (ChunkHeader.codec.encode ch)).image = h := ready.image
  rw [chunkComplete_of_valid (by rw [image, decoded]; exact valid)
    (by rw [image]; exact Nat.le_trans (Nat.le_of_eq (congrArg (· + 1) ready.counted)) few)]
  dsimp only
  rw [decoded]
  unfold chunkBegun UnsparseState.chunkBytes UnsparseState.took UnsparseState.image
  dsimp only
  rw [copied]

theorem loop_raw {bytes : List UInt8} (stage : st.state = .raw) (whole : st.remaining = bytes.length)
    (some : bytes ≠ []) (rest : List UInt8) : (machine crcEnabled recorder).loop ⟨st, none, out⟩ (bytes ++ rest) =
      (machine crcEnabled recorder).loop
        ⟨((st.wrote crcEnabled bytes).took bytes).nextChunk, none, out ++ bytes.map .byte⟩ rest := by
  have nonempty : bytes ++ rest ≠ [] := List.append_ne_nil_of_left_ne_nil some rest
  have used : ((st.wrote crcEnabled bytes).took bytes).remaining = 0 := by
    obtain ⟨crc, same⟩ := wrote_crc crcEnabled st bytes
    rw [same]
    exact (congrArg (· - bytes.length) whole).trans (Nat.sub_self _)
  refine Consumer.loop_next (.inl nonempty) ?_
  change iteration crcEnabled recorder ⟨st, none, out⟩ _ = _
  unfold iteration
  rw [stage]
  dsimp only
  unfold partialChunkRaw
  dsimp only [recorder]
  rw [whole, List.take_left, List.drop_left, used, if_pos rfl]

theorem loop_dontCare (stage : st.state = .dontCare) (rest : List UInt8) :
    (machine crcEnabled recorder).loop ⟨st, none, out⟩ rest =
      (machine crcEnabled recorder).loop ⟨st.nextChunk, none, out ++ [.skip st.remaining]⟩ rest := by
  refine Consumer.loop_next (.inr (decide_eq_true stage)) ?_
  change iteration crcEnabled recorder ⟨st, none, out⟩ _ = _
  unfold iteration
  rw [stage]
  rfl

theorem take_fillBuffer {word : List UInt8} (length : word.length = 4) {n : Nat} (few : n ≤ maxLocalBuffer / 4) :
    (fillBuffer word).take (n * 4) = (List.replicate n word).flatten := by
  obtain ⟨more, split⟩ := Nat.exists_eq_add_of_le few
  have size : (List.replicate n word).flatten.length = n * 4 := by
    rw [List.length_flatten, List.map_replicate, List.sum_replicate_nat, length]
  unfold fillBuffer
  rw [split, List.replicate_add, List.flatten_append, ← size, List.take_left]

theorem fillWrites_recorder {w : Work (List Output)} (length : w.st.fillValue.length = 4)
    (words : 4 ∣ w.st.remaining) : ∃ done, fillWrites crcEnabled recorder w = .ok done ∧
      done.aux = w.aux ++ (List.replicate (w.st.remaining / 4) w.st.fillValue).flatten.map .byte := by
  induction w using fillWrites.induct crcEnabled recorder with
  | case1 w ended =>
    refine ⟨w, by rw [fillWrites, if_pos ended], ?_⟩
    rw [ended]
    exact (List.append_nil _).symm
  | case2 w more size bytes e aux failed => cases failed
  | case3 w more size bytes st aux passed ih =>
    have value : st.fillValue = w.st.fillValue := by
      obtain ⟨crc, same⟩ := wrote_crc crcEnabled w.st bytes
      change (w.st.wrote crcEnabled bytes).fillValue = _
      rw [same]
    have left : st.remaining = w.st.remaining - min w.st.remaining maxLocalBuffer := rfl
    obtain ⟨total, words⟩ := words
    have burst : min w.st.remaining maxLocalBuffer = min total (maxLocalBuffer / 4) * 4 := by
      rw [words]
      unfold maxLocalBuffer
      omega
    obtain ⟨done, written, out⟩ := ih (by rw [value]; exact length)
      (by rw [left, burst, words]; exact ⟨total - min total (maxLocalBuffer / 4), by omega⟩)
    refine ⟨done, ?_, ?_⟩
    · rw [fillWrites, if_neg more]
      dsimp only
      rw [passed]
      exact written
    · have written : aux = w.aux ++ ((fillBuffer w.st.fillValue).take
          (min w.st.remaining maxLocalBuffer)).map .byte := (congrArg Prod.snd passed).symm
      have parts : w.st.remaining / 4 = min total (maxLocalBuffer / 4) + st.remaining / 4 := by
        rw [left, burst, words]
        omega
      rw [out, written, burst, take_fillBuffer length (Nat.min_le_right _ _), value, parts,
        List.replicate_add, List.flatten_append, List.map_append, List.append_assoc]

theorem loop_fill {value : List UInt8} (stage : st.state = .fill) (start : st.offset = 0)
    (old : st.fillValue.length = 4) (length : value.length = 4) (words : 4 ∣ st.remaining) (rest : List UInt8) :
    ∃ crc, (machine crcEnabled recorder).loop ⟨st, none, out⟩ (value ++ rest) = (machine crcEnabled recorder).loop
        ⟨{ st with fillValue := value, computedCrc := crc }.nextChunk, none,
          out ++ (List.replicate (st.remaining / 4) value).flatten.map .byte⟩ rest := by
  have nonempty : value ++ rest ≠ [] := List.append_ne_nil_of_left_ne_nil
    (List.ne_nil_of_length_pos (by rw [length]; decide)) rest
  have copied : st.fillBytes value = { st with fillValue := value, offset := 4 } := by
    unfold UnsparseState.fillBytes
    rw [start, copyTo_zero (Nat.le_of_eq (by rw [old, length])), old, ← length, List.take_length, length]
  let w : Work (List Output) := ⟨{ st with fillValue := value, offset := 4 }, none, out⟩
  obtain ⟨done, written, aux⟩ : ∃ done, fillWrites crcEnabled recorder w = .ok done ∧
      done.aux = out ++ (List.replicate (st.remaining / 4) value).flatten.map .byte :=
    fillWrites_recorder length words
  obtain ⟨⟨crc, after⟩, clean⟩ := fillWrites_ok written
  refine ⟨crc, Consumer.loop_next (.inl nonempty) ?_⟩
  change iteration crcEnabled recorder ⟨st, none, out⟩ _ = _
  unfold iteration
  rw [stage]
  dsimp only
  unfold partialChunkFill takeFill
  dsimp only
  have four : (4 : Nat) = value.length := length.symm
  rw [start, if_pos (by decide), four, List.take_left, List.drop_left, copied, length]
  change fillComplete crcEnabled recorder w rest = _
  unfold fillComplete
  rw [written]
  have error : done.error = none := clean.elim id id
  dsimp only
  rw [after, error, aux]
  rfl

theorem Ready.next {st' : UnsparseState} (ready : Ready h k st) (same : st'.imageHeader = st.imageHeader)
    (counted : st'.chunksProcessed = k + 1) (word : st'.fillValue.length = 4) : Ready h (k + 1) st'.nextChunk := by
  refine ⟨rfl, rfl, rfl, ?_, counted, List.length_replicate, word⟩
  change ImageHeader.codec.decode st'.imageHeader = h
  rw [same]
  exact ready.image

end

section
variable {crcEnabled : Bool} {blockSize : UInt32} {h : ImageHeader} {k : Nat} {st : UnsparseState}
  {out : List Output}

theorem chunk_valid (hdrSz : h.chunkHdrSz = 12) (blkSz : h.blkSz = blockSize) (chunk : Chunk) :
    tegrablSparseValidateChunkHeader h
      ⟨chunk.type, 0, divCeil chunk.writeSize blockSize, 12 + chunk.room blockSize⟩ = none := by
  unfold tegrablSparseValidateChunkHeader
  rw [hdrSz, blkSz]
  cases chunk with
  | raw data => exact (if_pos rfl).trans (if_neg (not_not.mpr rfl))
  | fill value writeSize => rfl
  | dontCare writeSize => rfl

theorem room_raw (pos : 0 < blockSize.toNat) (aligned : 4096 ∣ blockSize.toNat) {data : List UInt8}
    (rounds : (Chunk.raw data).Rounds blockSize) :
    (12 + (Chunk.raw data).room blockSize).toNat = 12 + (Chunk.raw data).extent blockSize := by
  have blocks := (divCeil_eq_blocks_iff pos).mpr rounds
  have size : (roundUp data.length.toUInt32 blockSize).toNat = (Chunk.raw data).extent blockSize := by
    rw [roundUp_toNat pos]
    exact congrArg (· * blockSize.toNat) blocks
  have below : (Chunk.raw data).extent blockSize < 2 ^ 32 := by
    rw [← size]
    exact (roundUp _ _).toNat_lt
  obtain ⟨pages, whole⟩ : 4096 ∣ (Chunk.raw data).extent blockSize :=
    Nat.dvd_trans aligned (Nat.dvd_mul_left _ _)
  change (12 + roundUp data.length.toUInt32 blockSize).toNat = _
  rw [UInt32.toNat_add, size]
  change (12 + _) % 2 ^ 32 = _
  omega

theorem loop_chunk (ready : Ready h k st) (hdrSz : h.chunkHdrSz = 12) (blkSz : h.blkSz = blockSize)
    (pos : 0 < blockSize.toNat) (aligned : 4096 ∣ blockSize.toNat)
    (few : k + 1 ≤ h.totalChunks.toNat) {chunk : Chunk} (sound : chunk.Sound blockSize)
    (rounds : chunk.Rounds blockSize) (rest : List UInt8) : ∃ st', Ready h (k + 1) st' ∧
      (machine crcEnabled recorder).loop ⟨st, none, out⟩ (chunk.image blockSize ++ rest) =
        (machine crcEnabled recorder).loop ⟨st', none, out ++ chunk.output blockSize⟩ rest := by
  let ch : ChunkHeader :=
    ⟨chunk.type, 0, divCeil chunk.writeSize blockSize, 12 + chunk.room blockSize⟩
  have left : (chunkBegun ch st).remaining = chunk.extent blockSize := by
    change (divCeil chunk.writeSize blockSize).toNat * st.image.blkSz.toNat = _
    rw [(divCeil_eq_blocks_iff pos).mpr rounds, ready.image, blkSz]
    rfl
  have counted : (chunkBegun ch st).chunksProcessed = k + 1 := congrArg (· + 1) ready.counted
  have word : (chunkBegun ch st).fillValue.length = 4 := ready.word
  unfold Chunk.image
  rw [List.append_assoc, loop_chunkHeader ready (chunk_valid hdrSz blkSz chunk) few]
  cases chunk with
  | raw data =>
    have room := room_raw pos aligned rounds
    have inside := sound.inside
    rw [room] at inside
    change 12 + data.length ≤ _ at inside
    let bytes := data ++ List.replicate ((Chunk.raw data).extent blockSize - data.length) (0 : UInt8)
    have length : bytes.length = (Chunk.raw data).extent blockSize := by
      rw [List.length_append, List.length_replicate]
      omega
    have some : bytes ≠ [] := by
      intro empty
      have none : data = [] := (List.append_eq_nil_iff.mp empty).1
      refine sound.nonempty ?_
      change data.length.toUInt32 = 0
      rw [none]
      rfl
    refine ⟨(((chunkBegun ch st).wrote crcEnabled bytes).took bytes).nextChunk, ?_, ?_⟩
    · obtain ⟨crc, same⟩ := wrote_crc crcEnabled (chunkBegun ch st) bytes
      rw [same]
      exact ready.next rfl counted word
    · rw [room, Nat.add_sub_add_left]
      exact loop_raw rfl (left.trans length.symm) some rest
  | fill value writeSize =>
    have four : value.length = 4 := sound.sized
    have words : 4 ∣ (chunkBegun ch st).remaining := by
      rw [left]
      exact Nat.dvd_trans (Nat.dvd_trans (by decide) aligned) (Nat.dvd_mul_left _ _)
    obtain ⟨crc, filled⟩ : ∃ crc, (machine crcEnabled recorder).loop ⟨chunkBegun ch st, none, out⟩
        (value ++ rest) = (machine crcEnabled recorder).loop
          ⟨{ chunkBegun ch st with fillValue := value, computedCrc := crc }.nextChunk, none,
            out ++ (List.replicate ((chunkBegun ch st).remaining / 4) value).flatten.map .byte⟩ rest :=
      loop_fill rfl rfl word four words rest
    have onward : Ready h (k + 1)
        { chunkBegun ch st with fillValue := value, computedCrc := crc }.nextChunk :=
      ready.next rfl counted four
    refine ⟨_, onward, ?_⟩
    change (machine crcEnabled recorder).loop ⟨chunkBegun ch st, none, out⟩
      (value ++ List.replicate (16 - (12 + value.length)) 0 ++ rest) = _
    rw [four, Nat.sub_self, List.replicate_zero, List.append_nil, filled, left]
    rfl
  | dontCare writeSize =>
    refine ⟨(chunkBegun ch st).nextChunk, ready.next rfl counted word, ?_⟩
    change (machine crcEnabled recorder).loop ⟨chunkBegun ch st, none, out⟩ rest = _
    rw [loop_dontCare rfl, left]
    rfl

theorem loop_chunks (hdrSz : h.chunkHdrSz = 12) (blkSz : h.blkSz = blockSize)
    (pos : 0 < blockSize.toNat) (aligned : 4096 ∣ blockSize.toNat) (chunks : List Chunk)
    (few : k + chunks.length ≤ h.totalChunks.toNat) (sound : ∀ chunk ∈ chunks, chunk.Sound blockSize)
    (rounds : ∀ chunk ∈ chunks, chunk.Rounds blockSize) (ready : Ready h k st) :
    ∃ st', (machine crcEnabled recorder).loop ⟨st, none, out⟩ (chunks.flatMap (Chunk.image blockSize)) =
      .ok ⟨st', none, out ++ chunks.flatMap (Chunk.output blockSize)⟩ := by
  induction chunks generalizing st k out with
  | nil =>
    refine ⟨st, ?_⟩
    have stops : ¬ (machine crcEnabled recorder).goesOn ⟨st, none, out⟩ := fun free => by
      have other : st.state = .dontCare := of_decide_eq_true free
      rw [ready.stage] at other
      cases other
    rw [List.flatMap_nil, List.flatMap_nil, List.append_nil]
    exact Consumer.loop_done stops
  | cons chunk chunks ih =>
    rw [List.length_cons] at few
    rw [List.forall_mem_cons] at sound rounds
    obtain ⟨st₁, ready₁, first⟩ : ∃ st₁, Ready h (k + 1) st₁ ∧
        (machine crcEnabled recorder).loop ⟨st, none, out⟩ (chunk.image blockSize ++
          chunks.flatMap (Chunk.image blockSize)) = (machine crcEnabled recorder).loop
            ⟨st₁, none, out ++ chunk.output blockSize⟩ (chunks.flatMap (Chunk.image blockSize)) :=
      loop_chunk ready hdrSz blkSz pos aligned (by omega) sound.1 rounds.1 _
    obtain ⟨st₂, others⟩ := ih (by omega) sound.2 rounds.2 ready₁
    refine ⟨st₂, ?_⟩
    rw [List.flatMap_cons, List.flatMap_cons, first, ← List.append_assoc]
    exact others

theorem imageBytes_imageHeader (st : UnsparseState) (bytes : List UInt8) :
    (st.imageBytes bytes).imageHeader = copyTo st.imageHeader st.offset bytes := rfl

theorem imageBytes_remaining (st : UnsparseState) (bytes : List UInt8) :
    (st.imageBytes bytes).remaining = st.remaining - bytes.length := rfl

structure Unread (st : UnsparseState) : Prop where
  set : st.callbacks = true
  stage : st.state = .imageHeader
  start : st.offset = 0
  full : st.remaining = imageHeaderBytes
  length : st.imageHeader.length = imageHeaderBytes
  counted : st.chunksProcessed = 0
  word : st.fillValue.length = 4

theorem initial_unread (maxUnsparseSize : UInt64) : Unread (.initial maxUnsparseSize true) :=
  ⟨rfl, rfl, rfl, rfl, List.length_replicate, rfl, List.length_replicate⟩

theorem loop_imageHeader (unread : Unread st)
    (valid : tegrablSparseValidateHeader h st.maxUnsparseSize = none) (hdrSz : h.chunkHdrSz = 12) (rest : List UInt8) :
    ∃ st', Ready h 0 st' ∧ (machine crcEnabled recorder).loop ⟨st, none, out⟩ (ImageHeader.codec.encode h ++ rest) =
        (machine crcEnabled recorder).loop ⟨st', none, out⟩ rest := by
  have width : (ImageHeader.codec.encode h).length = imageHeaderBytes :=
    ImageHeader.codec.length_encode h
  have nonempty : ImageHeader.codec.encode h ++ rest ≠ [] := List.append_ne_nil_of_left_ne_nil
    (List.ne_nil_of_length_pos (by rw [width]; decide)) rest
  have image : (st.imageBytes (ImageHeader.codec.encode h)).image = h := by
    unfold UnsparseState.image
    rw [imageBytes_imageHeader, unread.start,
      copyTo_zero (Nat.le_of_eq (by rw [width, unread.length])), unread.length, ← width,
      List.take_length, ImageHeader.codec.decode_encode]
  have used : (st.imageBytes (ImageHeader.codec.encode h)).remaining = 0 := by
    rw [imageBytes_remaining, unread.full, width, Nat.sub_self]
  refine ⟨{ (st.imageBytes (ImageHeader.codec.encode h)).nextChunk with
    remaining := h.chunkHdrSz.toNat }, ⟨rfl, rfl, ?_, image, unread.counted, List.length_replicate, unread.word⟩, ?_⟩
  · rw [hdrSz]
    rfl
  refine Consumer.loop_next (.inl nonempty) ?_
  change iteration crcEnabled recorder ⟨st, none, out⟩ _ = _
  unfold iteration
  rw [unread.stage]
  dsimp only
  unfold partialImageHeader
  rw [takePart_whole rest (width.trans unread.full.symm) used,
    imageComplete_of_valid (by rw [image]; exact valid), image]

end

structure RoundTrips (crcEnabled : Bool) (blockSize : UInt32) (chunks : List Chunk)
    (st : UnsparseState) (image : List UInt8) : Prop where
  returns : (tegrablSparseUnsparse crcEnabled recorder st image []).outcome = .returns none
  produces : (tegrablSparseUnsparse crcEnabled recorder st image []).aux = chunks.flatMap (Chunk.output blockSize)
  total_chunks : (bufferHeader image).totalChunks.toNat = chunks.length
  total_blks : (bufferHeader image).totalBlks.toNat = (chunks.map (Chunk.blocks blockSize)).sum

section
variable {blockSize : UInt32}

theorem length_le_blocks (pos : 0 < blockSize.toNat) {chunks : List Chunk}
    (sound : ∀ chunk ∈ chunks, chunk.Sound blockSize) : chunks.length ≤ (chunks.map (Chunk.blocks blockSize)).sum := by
  induction chunks with
  | nil => exact Nat.le_refl 0
  | cons chunk chunks ih =>
    rw [List.forall_mem_cons] at sound
    have some : 0 < chunk.writeSize.toNat :=
      Nat.pos_of_ne_zero fun zero => sound.1.nonempty (UInt32.toNat_inj.mp zero)
    have first : 0 < chunk.blocks blockSize := Nat.div_pos (by omega) pos
    have others := ih sound.2
    rw [List.length_cons, List.map_cons, List.sum_cons]
    omega

variable {totalBlks totalChunks : UInt32}

theorem builtHeader_valid {maxUnsparseSize : UInt64}
    (allowed : totalBlks.toNat * blockSize.toNat ≤ maxUnsparseSize.toNat) :
    tegrablSparseValidateHeader (builtHeader blockSize totalBlks totalChunks) maxUnsparseSize = none := by
  have product : (blockSize.toUInt64 * totalBlks.toUInt64).toNat = totalBlks.toNat * blockSize.toNat := by
    have below : blockSize.toNat * totalBlks.toNat < 2 ^ 32 * 2 ^ 32 :=
      Nat.mul_lt_mul'' blockSize.toNat_lt totalBlks.toNat_lt
    rw [UInt64.toNat_mul, UInt32.toNat_toUInt64, UInt32.toNat_toUInt64, Nat.mod_eq_of_lt (by omega), Nat.mul_comm]
  have inside : ¬ maxUnsparseSize < blockSize.toUInt64 * totalBlks.toUInt64 := by
    rw [UInt64.lt_iff_toNat_lt, product]
    exact Nat.not_lt.mpr allowed
  unfold tegrablSparseValidateHeader
  exact (if_neg (not_not.mpr rfl)).trans (if_neg inside)

theorem init_aligned {memory : Bool} {start : SparseState}
    (init : tegrablSparseInit memory blockSize = .ok start) : 4096 ∣ blockSize.toNat := by
  unfold tegrablSparseInit at init
  split at init
  · cases init
  · rename_i even
    have rest := congrArg UInt32.toNat (not_not.mp even)
    rw [UInt32.toNat_mod] at rest
    exact Nat.dvd_of_mod_eq_zero rest

theorem unsparse_built {crcEnabled : Bool} {chunks : List Chunk}
    {st : UnsparseState} (unread : Unread st) (pos : 0 < blockSize.toNat) (aligned : 4096 ∣ blockSize.toNat)
    (allowed : totalBlks.toNat * blockSize.toNat ≤ st.maxUnsparseSize.toNat)
    (count : totalChunks.toNat = chunks.length) (sound : ∀ chunk ∈ chunks, chunk.Sound blockSize)
    (rounds : ∀ chunk ∈ chunks, chunk.Rounds blockSize) : ∃ st', tegrablSparseUnsparse crcEnabled recorder st
        (ImageHeader.codec.encode (builtHeader blockSize totalBlks totalChunks) ++
          chunks.flatMap (Chunk.image blockSize)) [] =
      ⟨.returns none, st', chunks.flatMap (Chunk.output blockSize)⟩ := by
  have hdrSz : (builtHeader blockSize totalBlks totalChunks).chunkHdrSz = 12 := rfl
  have blkSz : (builtHeader blockSize totalBlks totalChunks).blkSz = blockSize := rfl
  have few : 0 + chunks.length ≤ (builtHeader blockSize totalBlks totalChunks).totalChunks.toNat := by
    rw [Nat.zero_add]
    exact Nat.le_of_eq count.symm
  have width := ImageHeader.codec.length_encode (builtHeader blockSize totalBlks totalChunks)
  have nonempty : ImageHeader.codec.encode (builtHeader blockSize totalBlks totalChunks) ++
      chunks.flatMap (Chunk.image blockSize) ≠ [] := List.append_ne_nil_of_left_ne_nil
    (List.ne_nil_of_length_pos (by rw [width]; decide)) _
  obtain ⟨st₁, ready, begun⟩ : ∃ st₁, Ready (builtHeader blockSize totalBlks totalChunks) 0 st₁ ∧
      (machine crcEnabled recorder).loop ⟨st, none, []⟩
          (ImageHeader.codec.encode (builtHeader blockSize totalBlks totalChunks) ++
            chunks.flatMap (Chunk.image blockSize)) =
        (machine crcEnabled recorder).loop ⟨st₁, none, []⟩ (chunks.flatMap (Chunk.image blockSize)) :=
    loop_imageHeader unread (builtHeader_valid allowed) hdrSz _
  obtain ⟨st₂, ended⟩ : ∃ st₂, (machine crcEnabled recorder).loop ⟨st₁, none, []⟩
      (chunks.flatMap (Chunk.image blockSize)) = .ok ⟨st₂, none, [] ++ chunks.flatMap (Chunk.output blockSize)⟩ :=
    loop_chunks hdrSz blkSz pos aligned chunks few sound rounds ready
  refine ⟨st₂, ?_⟩
  unfold tegrablSparseUnsparse
  rw [if_neg nonempty, if_neg (not_not.mpr unread.set), begun, ended, List.nil_append]

/-- A sequence of chunks makes the round trip exactly when no size wraps around. -/
theorem sparse_round_trip (crcEnabled memory : Bool)
    (realloc : List UInt8 → Nat → Option (List UInt8)) (blockSize : UInt32) (maxUnsparseSize : UInt64)
    (chunks : List Chunk) (start s : SparseState) (st : UnsparseState) (preserves : Preserves realloc)
    (pos : 0 < blockSize) (init : tegrablSparseInit memory blockSize = .ok start)
    (added : addChunks realloc start chunks = .ok s) (small : unsparsedSize blockSize chunks < 2 ^ 32)
    (allowed : unsparsedSize blockSize chunks ≤ maxUnsparseSize.toNat)
    (fresh : tegrablSparseInitUnsparseState maxUnsparseSize true = .ok st) :
    (∃ image, tegrablSparseGetBuffer s = .ok image ∧ RoundTrips crcEnabled blockSize chunks st image) ↔
      ∀ chunk ∈ chunks, chunk.writeSize.toNat + blockSize.toNat - 1 < 2 ^ 32 := by
  obtain ⟨sound, image⟩ := built_image preserves init added
  have positive : 0 < blockSize.toNat := UInt32.lt_iff_toNat_lt.mp pos
  have few := length_le_blocks positive sound
  have coded := codedBlocks_le positive chunks
  rw [unsparsedSize_eq] at small allowed
  have bounded : (chunks.map (Chunk.blocks blockSize)).sum < 2 ^ 32 :=
    Nat.lt_of_le_of_lt (Nat.le_mul_of_pos_right _ positive) small
  have header : bufferHeader s.buffer = builtHeader blockSize
      (UInt32.ofNat (codedBlocks blockSize chunks)) (UInt32.ofNat chunks.length) := by
    rw [image, imageOf, bufferHeader_encode]
  have blocks : (UInt32.ofNat (codedBlocks blockSize chunks)).toNat = codedBlocks blockSize chunks :=
    UInt32.toNat_ofNat_of_lt' (Nat.lt_of_le_of_lt coded bounded)
  have count : (UInt32.ofNat chunks.length).toNat = chunks.length :=
    UInt32.toNat_ofNat_of_lt' (Nat.lt_of_le_of_lt few bounded)
  have counted_blocks : (bufferHeader s.buffer).totalBlks.toNat = codedBlocks blockSize chunks := by
    rw [header]
    exact blocks
  have counted_chunks : (bufferHeader s.buffer).totalChunks.toNat = chunks.length := by
    rw [header]
    exact count
  have nonempty : s.buffer ≠ [] := by
    rw [image]
    exact List.append_ne_nil_of_left_ne_nil (List.ne_nil_of_length_pos
      (by rw [ImageHeader.codec.length_encode]; decide)) _
  have got : tegrablSparseGetBuffer s = .ok s.buffer := if_neg nonempty
  constructor
  · rintro ⟨buffer, given, trip⟩
    obtain rfl := Except.ok.inj (got.symm.trans given)
    exact (codedBlocks_eq_iff positive chunks).mp (counted_blocks.symm.trans trip.total_blks)
  · intro rounds
    have total := (codedBlocks_eq_iff positive chunks).mpr rounds
    have unread : Unread st := by
      rw [init_ok fresh]
      exact initial_unread maxUnsparseSize
    have limit : (UInt32.ofNat (codedBlocks blockSize chunks)).toNat * blockSize.toNat ≤ st.maxUnsparseSize.toNat := by
      rw [init_ok fresh, blocks, total]
      exact allowed
    obtain ⟨st', result⟩ : ∃ st', tegrablSparseUnsparse crcEnabled recorder st s.buffer [] =
        ⟨.returns none, st', chunks.flatMap (Chunk.output blockSize)⟩ := by
      rw [image]
      exact unsparse_built unread positive (init_aligned init) limit count sound rounds
    refine ⟨s.buffer, got, ?_, ?_, counted_chunks, counted_blocks.trans total⟩
    · rw [result]
    · rw [result]

end

def plainRealloc (old : List UInt8) (size : Nat) : Option (List UInt8) :=
  some (old.take size ++ List.replicate (size - old.length) 0xA5)

theorem plainRealloc_preserves : Preserves plainRealloc := by
  intro old size new grows given
  obtain rfl := Option.some.inj given
  rw [List.take_of_length_le grows]
  refine ⟨?_, List.prefix_append _ _⟩
  rw [List.length_append, List.length_replicate]
  omega

def twoChunks : List Chunk := [.fill [1, 2, 3, 4] 5000, .dontCare 1]

theorem sparse_round_trip_two : ∃ start s, tegrablSparseInit true 4096 = .ok start ∧
      addChunks plainRealloc start twoChunks = .ok s ∧ ∃ image, tegrablSparseGetBuffer s = .ok image ∧
        RoundTrips false 4096 twoChunks (.initial 12288 true) image := by
  have added : addChunks plainRealloc ⟨imageOf 4096 [], 0⟩ twoChunks =
      .ok ⟨imageOf 4096 twoChunks, 12288⟩ := by decide +kernel
  refine ⟨⟨imageOf 4096 [], 0⟩, ⟨imageOf 4096 twoChunks, 12288⟩, rfl, added, ?_⟩
  exact (sparse_round_trip false true plainRealloc 4096 12288 twoChunks _ _ _ plainRealloc_preserves
    (by decide) rfl added (by decide) (by decide) rfl).mpr (by decide)

def wrappingChunk : List Chunk := [.dontCare 4294963200]

/-- The size of the chunk is a whole number of blocks below `2 ^ 32`. Rounding it up gives no block at
all. -/
theorem sparse_round_trip_wraps : ¬ ∀ (crcEnabled memory : Bool) (realloc : List UInt8 → Nat → Option (List UInt8))
      (blockSize : UInt32) (maxUnsparseSize : UInt64) (chunks : List Chunk) (start s : SparseState)
      (st : UnsparseState), Preserves realloc → 0 < blockSize →
      tegrablSparseInit memory blockSize = .ok start → addChunks realloc start chunks = .ok s →
      s.buffer.length < 2 ^ 32 → unsparsedSize blockSize chunks < 2 ^ 32 →
      unsparsedSize blockSize chunks ≤ maxUnsparseSize.toNat →
      tegrablSparseInitUnsparseState maxUnsparseSize true = .ok st → ∃ image, tegrablSparseGetBuffer s = .ok image ∧
        RoundTrips crcEnabled blockSize chunks st image := by
  intro claim
  have added : addChunks plainRealloc ⟨imageOf 12288 [], 0⟩ wrappingChunk =
      .ok ⟨imageOf 12288 wrappingChunk, 0⟩ := by decide
  obtain ⟨image, given, trip⟩ := claim false true plainRealloc 12288 4294967295 wrappingChunk
    ⟨imageOf 12288 [], 0⟩ ⟨imageOf 12288 wrappingChunk, 0⟩ _ plainRealloc_preserves (by decide) rfl
    added (by decide) (by decide) (by decide) rfl
  obtain rfl : imageOf 12288 wrappingChunk = image := by
    have got : tegrablSparseGetBuffer ⟨imageOf 12288 wrappingChunk, 0⟩ =
        .ok (imageOf 12288 wrappingChunk) := by decide
    exact Except.ok.inj (got.symm.trans given)
  have none : (bufferHeader (imageOf 12288 wrappingChunk)).totalBlks.toNat = 0 := by decide
  have many : (wrappingChunk.map (Chunk.blocks 12288)).sum = 349525 := by decide
  have total := trip.total_blks
  rw [none, many] at total
  cases total

end Cboot.Sparse
