import Cboot.Lib.Codec
import Cboot.Lib.Consumer
import Cboot.Utils.Crc32

/-!
`lib/sparse/tegrabl_unsparse.c` and `lib/sparse/tegrabl_sparse.c`. An image is a header and a sequence
of chunks. It is unsparsed by a state machine that takes the image in buffers of any size, and hands
what it makes of it to a writer and a seeker. Whether CRC chunks are checked is decided when the code
is built.
-/

namespace Cboot.Sparse
open Lib Utils

inductive Reason where
  | badParameter
  | notInitialized
  | invalidVersion
  | overflow
  | invalidConfig
  | invalid
  | outOfRange
  | verifyFailed
  | noMemory
  deriving DecidableEq, Repr

inductive Error where
  | own (reason : Reason) (detail : Nat)
  | callback (e : UInt32)
  deriving DecidableEq, Repr

structure ImageHeader where
  magic : UInt32
  majorVersion : UInt16
  minorVersion : UInt16
  fileHdrSz : UInt16
  chunkHdrSz : UInt16
  blkSz : UInt32
  totalBlks : UInt32
  totalChunks : UInt32
  imageChecksum : UInt32
  deriving DecidableEq, Repr

structure ChunkHeader where
  chunkType : UInt16
  reserved : UInt16
  chunkSz : UInt32
  totalSz : UInt32
  deriving DecidableEq, Repr

def ImageHeader.codec : Codec ImageHeader :=
  (Codec.u32.pair (Codec.u16.pair (Codec.u16.pair (Codec.u16.pair (Codec.u16.pair
    (Codec.u32.pair (Codec.u32.pair (Codec.u32.pair Codec.u32)))))))).record
    { toFun := fun h => (h.magic, h.majorVersion, h.minorVersion, h.fileHdrSz, h.chunkHdrSz, h.blkSz,
        h.totalBlks, h.totalChunks, h.imageChecksum)
      invFun := fun (magic, majorVersion, minorVersion, fileHdrSz, chunkHdrSz, blkSz, totalBlks,
          totalChunks, imageChecksum) =>
        ⟨magic, majorVersion, minorVersion, fileHdrSz, chunkHdrSz, blkSz, totalBlks, totalChunks, imageChecksum⟩
      left_inv := fun _ => rfl
      right_inv := fun _ => rfl }

def ChunkHeader.codec : Codec ChunkHeader :=
  (Codec.u16.pair (Codec.u16.pair (Codec.u32.pair Codec.u32))).record
    { toFun := fun h => (h.chunkType, h.reserved, h.chunkSz, h.totalSz)
      invFun := fun (chunkType, reserved, chunkSz, totalSz) => ⟨chunkType, reserved, chunkSz, totalSz⟩
      left_inv := fun _ => rfl
      right_inv := fun _ => rfl }

def imageHeaderBytes : Nat := 28
def chunkHeaderBytes : Nat := 12

def sparseHeaderMagic : UInt32 := 0xED26FF3A
def sparseHeaderMajorVersion : UInt16 := 1

def chunkTypeRaw : UInt16 := 0xCAC1
def chunkTypeFill : UInt16 := 0xCAC2
def chunkTypeDontCare : UInt16 := 0xCAC3
def chunkTypeCrc : UInt16 := 0xCAC4

def tegrablSparseValidateHeader (header : ImageHeader) (maxUnsparseSize : UInt64) : Option Error :=
  if header.majorVersion ≠ sparseHeaderMajorVersion then some (.own .invalidVersion 0)
  else if maxUnsparseSize < header.blkSz.toUInt64 * header.totalBlks.toUInt64 then
    some (.own .overflow 0)
  else none

def tegrablSparseValidateChunkHeader (image : ImageHeader) (chunk : ChunkHeader) : Option Error :=
  if chunk.chunkType = chunkTypeRaw then
    if chunk.totalSz ≠ image.chunkHdrSz.toUInt32 + chunk.chunkSz * image.blkSz then
      some (.own .invalidConfig 0)
    else none
  else if chunk.chunkType = chunkTypeDontCare then
    if chunk.totalSz ≠ image.chunkHdrSz.toUInt32 then some (.own .invalidConfig 1) else none
  else if chunk.chunkType = chunkTypeFill then
    if chunk.totalSz.toUInt64 ≠ image.chunkHdrSz.toUInt64 + 4 then some (.own .invalidConfig 2)
    else none
  else if chunk.chunkType = chunkTypeCrc then none
  else some (.own .invalid 0)

inductive Stage where
  | imageHeader
  | chunkHeader
  | raw
  | fill
  | dontCare
  | crc
  deriving DecidableEq, Repr

/-- The state that a chunk type leads to, which the source gets by subtracting one constant and adding
another. -/
def chunkStage (chunkType : UInt16) : Stage :=
  if chunkType = chunkTypeRaw then .raw
  else if chunkType = chunkTypeFill then .fill
  else if chunkType = chunkTypeDontCare then .dontCare
  else .crc

/-- `struct tegrabl_unsparse_state`. What is copied in byte by byte is kept as bytes. `callbacks` says
that the writer and the seeker are set. -/
structure UnsparseState where
  state : Stage
  imageHeader : List UInt8
  chunkHeader : List UInt8
  offset : Nat
  remaining : Nat
  maxUnsparseSize : UInt64
  imageCrc : List UInt8
  computedCrc : UInt32
  fillValue : List UInt8
  chunksProcessed : Nat
  callbacks : Bool
  deriving DecidableEq, Repr

def UnsparseState.image (st : UnsparseState) : ImageHeader := ImageHeader.codec.decode st.imageHeader
def UnsparseState.chunk (st : UnsparseState) : ChunkHeader := ChunkHeader.codec.decode st.chunkHeader

def UnsparseState.initial (maxUnsparseSize : UInt64) (callbacks : Bool) : UnsparseState where
  state := .imageHeader
  imageHeader := List.replicate imageHeaderBytes 0
  chunkHeader := List.replicate chunkHeaderBytes 0
  offset := 0
  remaining := imageHeaderBytes
  maxUnsparseSize := maxUnsparseSize
  imageCrc := List.replicate 4 0
  computedCrc := 0
  fillValue := List.replicate 4 0
  chunksProcessed := 0
  callbacks := callbacks

def tegrablSparseInitUnsparseState (maxUnsparseSize : UInt64) (callbacks : Bool) :
    Except Error UnsparseState :=
  if ¬ callbacks ∨ maxUnsparseSize = 0 then .error (.own .badParameter 0)
  else .ok (.initial maxUnsparseSize callbacks)

/-- The writer and the seeker, which act on what `aux_info` points to. -/
structure Callbacks (σ : Type) where
  writer : List UInt8 → σ → Option UInt32 × σ
  seeker : Nat → σ → Option UInt32 × σ

/-- `memcpy` to an object at an offset. -/
def copyTo (object : List UInt8) (offset : Nat) (bytes : List UInt8) : List UInt8 :=
  object.mapIdx fun i old => if offset ≤ i then bytes.getD (i - offset) old else old

/-- The local variables of `tegrabl_sparse_unsparse`, together with what it changes in place. -/
structure Work (σ : Type) where
  st : UnsparseState
  error : Option Error
  aux : σ

/-- Ways to leave the loop other than at the end of the input: by an error, by a copy that goes past
the chunk header, behind which nothing is followed any more, or never. -/
inductive Halt (σ : Type) where
  | fail (e : Error) (w : Work σ)
  | overrun (w : Work σ)
  | hang (w : Work σ)

section
variable {σ : Type} (crcEnabled : Bool) (cb : Callbacks σ)

def UnsparseState.took (st : UnsparseState) (bytes : List UInt8) : UnsparseState :=
  { st with remaining := st.remaining - bytes.length, offset := st.offset + bytes.length }

def UnsparseState.nextChunk (st : UnsparseState) : UnsparseState :=
  { st with
    chunkHeader := List.replicate chunkHeaderBytes 0
    state := .chunkHeader
    remaining := chunkHeaderBytes
    offset := 0 }

/-- `MIN(length, remaining)` bytes of a header are taken, and something is done with it when it is
complete. -/
def takePart (into : UnsparseState → List UInt8 → UnsparseState)
    (complete : Work σ → List UInt8 → Iteration (Work σ) UInt8 (Halt σ)) (w : Work σ)
    (input : List UInt8) : Iteration (Work σ) UInt8 (Halt σ) :=
  let w' := { w with st := into w.st (input.take w.st.remaining) }
  let rest := input.drop w.st.remaining
  if w'.st.remaining ≠ 0 then .next w' rest else complete w' rest

def imageComplete (w : Work σ) (rest : List UInt8) : Iteration (Work σ) UInt8 (Halt σ) :=
  match tegrablSparseValidateHeader w.st.image w.st.maxUnsparseSize with
  | some e => .halt (.fail e w)
  | none =>
    .next
      { w with
        st := { w.st.nextChunk with remaining := w.st.image.chunkHdrSz.toNat }
        error := none }
      rest

def UnsparseState.imageBytes (st : UnsparseState) (bytes : List UInt8) : UnsparseState :=
  { st with imageHeader := copyTo st.imageHeader st.offset bytes }.took bytes

def partialImageHeader (w : Work σ) (input : List UInt8) : Iteration (Work σ) UInt8 (Halt σ) :=
  takePart UnsparseState.imageBytes imageComplete w input

def chunkComplete (w : Work σ) (rest : List UInt8) : Iteration (Work σ) UInt8 (Halt σ) :=
  match tegrablSparseValidateChunkHeader w.st.image w.st.chunk with
  | some e => .halt (.fail e w)
  | none =>
    let st := { w.st with chunksProcessed := w.st.chunksProcessed + 1 }
    if st.chunksProcessed > st.image.totalChunks.toNat then
      .halt (.fail (.own .outOfRange 0) { w with st := st })
    else
      .next
        { w with
          st :=
            { st with
              state := chunkStage st.chunk.chunkType
              offset := 0
              remaining := st.chunk.chunkSz.toNat * st.image.blkSz.toNat }
          error := none }
        rest

def UnsparseState.chunkBytes (st : UnsparseState) (bytes : List UInt8) : UnsparseState :=
  { st with chunkHeader := copyTo st.chunkHeader st.offset bytes }.took bytes

def takeChunkHeader (w : Work σ) (input : List UInt8) : Iteration (Work σ) UInt8 (Halt σ) :=
  takePart UnsparseState.chunkBytes chunkComplete w input

/-- The bytes are copied if the first of them goes inside the structure, however many there are. What a copy past its
end leads to is not described. -/
def partialChunkHeader (w : Work σ) (input : List UInt8) : Iteration (Work σ) UInt8 (Halt σ) :=
  if w.st.offset < chunkHeaderBytes ∧ chunkHeaderBytes < w.st.offset + (input.take w.st.remaining).length then
    .halt (.overrun w)
  else takeChunkHeader w input

/-- The CRC of what was written is kept up to date where it is checked. -/
def UnsparseState.wrote (st : UnsparseState) (bytes : List UInt8) : UnsparseState :=
  if crcEnabled then { st with computedCrc := tegrablUtilsCrc32 st.computedCrc bytes } else st

def partialChunkRaw (w : Work σ) (input : List UInt8) : Iteration (Work σ) UInt8 (Halt σ) :=
  let bytes := input.take w.st.remaining
  match cb.writer bytes w.aux with
  | (some e, aux) => .halt (.fail (.callback e) { w with aux := aux })
  | (none, aux) =>
    let st := (w.st.wrote crcEnabled bytes).took bytes
    .next { st := if st.remaining = 0 then st.nextChunk else st, error := none, aux := aux }
      (input.drop w.st.remaining)

def maxLocalBuffer : Nat := 1024

def fillBuffer (word : List UInt8) : List UInt8 := (List.replicate (maxLocalBuffer / 4) word).flatten

def fillWrites (w : Work σ) : Except (Halt σ) (Work σ) :=
  if w.st.remaining = 0 then .ok w
  else
    let size := min w.st.remaining maxLocalBuffer
    let bytes := (fillBuffer w.st.fillValue).take size
    let st := { w.st.wrote crcEnabled bytes with remaining := w.st.remaining - size }
    match cb.writer bytes w.aux with
    | (some e, aux) => .error (.fail (.callback e) { w with st := st, aux := aux })
    | (none, aux) => fillWrites { st := st, error := none, aux := aux }
termination_by w.st.remaining
decreasing_by
  simp only [maxLocalBuffer]
  omega

def UnsparseState.fillBytes (st : UnsparseState) (bytes : List UInt8) : UnsparseState :=
  { st with
    fillValue := copyTo st.fillValue st.offset bytes
    offset := st.offset + bytes.length }

def fillComplete (w : Work σ) (rest : List UInt8) : Iteration (Work σ) UInt8 (Halt σ) :=
  match fillWrites crcEnabled cb w with
  | .error e => .halt e
  | .ok w => .next { w with st := w.st.nextChunk } rest

/-- Up to `most` bytes of the fill value are taken. -/
def takeFill (most : Nat) (w : Work σ) (input : List UInt8) : Iteration (Work σ) UInt8 (Halt σ) :=
  if w.st.offset < 4 then
    let w' := { w with st := w.st.fillBytes (input.take most) }
    let rest := input.drop most
    if w'.st.offset < 4 then .next w' rest else fillComplete crcEnabled cb w' rest
  else fillComplete crcEnabled cb w input

/-- `MIN(length, sizeof(uint32_t))` bytes are taken, also where some are there already. -/
def partialChunkFill (w : Work σ) (input : List UInt8) : Iteration (Work σ) UInt8 (Halt σ) :=
  takeFill crcEnabled cb 4 w input

def partialChunkDontCare (w : Work σ) (input : List UInt8) : Iteration (Work σ) UInt8 (Halt σ) :=
  match cb.seeker w.st.remaining w.aux with
  | (some e, aux) => .halt (.fail (.callback e) { w with aux := aux })
  | (none, aux) => .next { st := w.st.nextChunk, error := none, aux := aux } input

def UnsparseState.crcBytes (st : UnsparseState) (bytes : List UInt8) : UnsparseState :=
  { st with
    imageCrc := copyTo st.imageCrc st.offset bytes
    offset := st.offset + bytes.length }

def crcComplete (w : Work σ) (rest : List UInt8) : Iteration (Work σ) UInt8 (Halt σ) :=
  let differs := UInt32.ofNat (ofLeDigits w.st.imageCrc) ≠ w.st.computedCrc
  .next
    { w with
      st := w.st.nextChunk
      error := if differs then some (.own .verifyFailed 0) else w.error }
    rest

def takeCrc (most : Nat) (w : Work σ) (input : List UInt8) : Iteration (Work σ) UInt8 (Halt σ) :=
  if crcEnabled then
    if w.st.offset < 4 then
      .next { w with st := w.st.crcBytes (input.take most) } (input.drop most)
    else crcComplete w input
  else .halt (.hang w)

def partialChunkCrc (w : Work σ) (input : List UInt8) : Iteration (Work σ) UInt8 (Halt σ) :=
  takeCrc crcEnabled 4 w input

def iteration (w : Work σ) (input : List UInt8) : Iteration (Work σ) UInt8 (Halt σ) :=
  match w.st.state with
  | .imageHeader => partialImageHeader w input
  | .chunkHeader => partialChunkHeader w input
  | .raw => partialChunkRaw crcEnabled cb w input
  | .fill => partialChunkFill crcEnabled cb w input
  | .dontCare => partialChunkDontCare cb w input
  | .crc => partialChunkCrc crcEnabled w input

def goesOn (w : Work σ) : Bool := decide (w.st.state = .dontCare)

def pause (st : UnsparseState) : Nat :=
  match st.state with
  | .imageHeader => if st.remaining = 0 then 3 else 0
  | .chunkHeader => if st.remaining = 0 then 2 else 0
  | _ => 1

def weight (w : Work σ) (input : List UInt8) : Nat := 4 * input.length + pause w.st

theorem pause_lt (st : UnsparseState) : pause st < 4 := by
  unfold pause
  split
  · split <;> decide
  · split <;> decide
  · decide

theorem weight_drop_lt (w w' : Work σ) {input : List UInt8} {size : Nat} (some : 0 < size)
    (nonempty : input ≠ []) : weight w' (input.drop size) < weight w input := by
  have bound := pause_lt w'.st
  have pos := List.length_pos_iff.mpr nonempty
  unfold weight
  rw [List.length_drop]
  omega

variable {w w' : Work σ}

theorem weight_lt_of_pause (input : List UInt8) (less : pause w'.st < pause w.st) :
    weight w' input < weight w input :=
  Nat.add_lt_add_left less _

theorem wrote_crc (st : UnsparseState) (bytes : List UInt8) :
    ∃ crc, st.wrote crcEnabled bytes = { st with computedCrc := crc } := by
  unfold UnsparseState.wrote
  split
  · exact ⟨_, rfl⟩
  · exact ⟨st.computedCrc, rfl⟩

/-! What an iteration that goes on has done. -/

variable {rest rest' : List UInt8}

theorem imageComplete_next (taken : imageComplete w rest = .next w' rest') :
    rest' = rest ∧ tegrablSparseValidateHeader w.st.image w.st.maxUnsparseSize = none ∧ w' = { w with
        st := { w.st.nextChunk with remaining := w.st.image.chunkHdrSz.toNat }
        error := none } := by
  unfold imageComplete at taken
  split at taken
  · cases taken
  · rename_i valid
    cases taken
    exact ⟨rfl, valid, rfl⟩

theorem chunkComplete_next (taken : chunkComplete w rest = .next w' rest') :
    rest' = rest ∧ tegrablSparseValidateChunkHeader w.st.image w.st.chunk = none ∧
      w.st.chunksProcessed + 1 ≤ w.st.image.totalChunks.toNat ∧ w' = { w with
        st :=
          { w.st with
            chunksProcessed := w.st.chunksProcessed + 1
            state := chunkStage w.st.chunk.chunkType
            offset := 0
            remaining := w.st.chunk.chunkSz.toNat * w.st.image.blkSz.toNat }
        error := none } := by
  unfold chunkComplete at taken
  split at taken
  · cases taken
  · rename_i valid
    dsimp only at taken
    split at taken
    · cases taken
    · rename_i few
      cases taken
      exact ⟨rfl, valid, Nat.not_lt.mp few, rfl⟩

theorem fillComplete_next
    (taken : fillComplete crcEnabled cb w rest = .next w' rest') :
    rest' = rest ∧ ∃ done, fillWrites crcEnabled cb w = .ok done ∧ w' = { done with st := done.st.nextChunk } := by
  unfold fillComplete at taken
  split at taken
  · cases taken
  · rename_i done written
    cases taken
    exact ⟨rfl, done, written, rfl⟩

theorem pause_chunkStage (st : UnsparseState) (chunkType : UInt16) (chunks offset remaining : Nat) : pause { st with
      chunksProcessed := chunks
      state := chunkStage chunkType
      offset := offset
      remaining := remaining } = 1 := by
  unfold pause chunkStage
  dsimp only
  split
  · rename_i stage
    split_ifs at stage
  · rename_i stage
    split_ifs at stage
  · rfl

section
variable {input : List UInt8}

variable {complete : Work σ → List UInt8 → Iteration (Work σ) UInt8 (Halt σ)}

variable {into : UnsparseState → List UInt8 → UnsparseState}

theorem takePart_next
    (taken : takePart into complete w input = .next w' rest) :
    ((into w.st (input.take w.st.remaining)).remaining ≠ 0 ∧ rest = input.drop w.st.remaining ∧
      w' = { w with st := into w.st (input.take w.st.remaining) }) ∨
    ((into w.st (input.take w.st.remaining)).remaining = 0 ∧
      complete { w with st := into w.st (input.take w.st.remaining) } (input.drop w.st.remaining) = .next w' rest) := by
  unfold takePart at taken
  dsimp only at taken
  split at taken
  · rename_i short
    cases taken
    exact .inl ⟨short, rfl, rfl⟩
  · rename_i full
    exact .inr ⟨not_not.mp full, taken⟩

theorem partialChunkHeader_next (taken : partialChunkHeader w input = .next w' rest) :
    takeChunkHeader w input = .next w' rest := by
  unfold partialChunkHeader at taken
  split at taken
  · cases taken
  · exact taken

theorem partialChunkRaw_next (taken : partialChunkRaw crcEnabled cb w input = .next w' rest) :
    rest = input.drop w.st.remaining ∧ w'.error = none ∧
      ∃ crc st, st = { w.st with computedCrc := crc }.took (input.take w.st.remaining) ∧
        w'.st = if st.remaining = 0 then st.nextChunk else st := by
  obtain ⟨crc, written⟩ := wrote_crc crcEnabled w.st (input.take w.st.remaining)
  unfold partialChunkRaw at taken
  dsimp only at taken
  rw [written] at taken
  split at taken
  · cases taken
  · cases taken
    exact ⟨rfl, rfl, crc, _, rfl, rfl⟩

variable {most : Nat}

theorem takeFill_next (taken : takeFill crcEnabled cb most w input = .next w' rest) :
    (w.st.offset + (input.take most).length < 4 ∧ rest = input.drop most ∧
      w' = { w with st := w.st.fillBytes (input.take most) }) ∨
    ∃ w₁, ((w.st.offset < 4 ∧ w₁ = { w with st := w.st.fillBytes (input.take most) } ∧
        rest = input.drop most) ∨ (4 ≤ w.st.offset ∧ w₁ = w ∧ rest = input)) ∧
      ∃ done, fillWrites crcEnabled cb w₁ = .ok done ∧ w' = { done with st := done.st.nextChunk } := by
  unfold takeFill at taken
  dsimp only at taken
  split at taken
  · rename_i missing
    split at taken
    · rename_i short
      cases taken
      exact .inl ⟨short, rfl, rfl⟩
    · obtain ⟨same, writes⟩ := fillComplete_next crcEnabled cb taken
      exact .inr ⟨_, .inl ⟨missing, rfl, same⟩, writes⟩
  · rename_i known
    obtain ⟨same, writes⟩ := fillComplete_next crcEnabled cb taken
    exact .inr ⟨w, .inr ⟨Nat.not_lt.mp known, rfl, same⟩, writes⟩

theorem partialChunkDontCare_next (taken : partialChunkDontCare cb w input = .next w' rest) :
    rest = input ∧ w'.st = w.st.nextChunk ∧ w'.error = none := by
  unfold partialChunkDontCare at taken
  split at taken
  · cases taken
  · cases taken
    exact ⟨rfl, rfl, rfl⟩

theorem takeCrc_next (taken : takeCrc crcEnabled most w input = .next w' rest) :
    (w.st.offset < 4 ∧ rest = input.drop most ∧ w' = { w with st := w.st.crcBytes (input.take most) }) ∨
    (rest = input ∧ w'.st = w.st.nextChunk ∧ (w'.error = w.error ∨ w'.error = some (.own .verifyFailed 0))) := by
  unfold takeCrc crcComplete at taken
  split at taken
  · split at taken
    · rename_i missing
      cases taken
      exact .inl ⟨missing, rfl, rfl⟩
    · cases taken
      refine .inr ⟨rfl, rfl, ?_⟩
      dsimp only
      split
      · exact .inr rfl
      · exact .inl rfl
  · cases taken

/-! Each of them makes progress. -/

theorem takePart_progress (nonempty : input ≠ [])
    (remains : ∀ bytes, (into w.st bytes).remaining = w.st.remaining - bytes.length)
    (completes : ∀ w₁ rest₁ w₂ rest₂, complete w₁ rest₁ = .next w₂ rest₂ →
      rest₂ = rest₁ ∧ (w.st.remaining = 0 → pause w₂.st < pause w.st))
    (taken : takePart into complete w input = .next w' rest) : weight w' rest < weight w input := by
  rcases takePart_next taken with ⟨short, rfl, -⟩ | ⟨-, ended⟩
  · rw [remains] at short
    exact weight_drop_lt w _ (by omega) nonempty
  · obtain ⟨rfl, lighter⟩ := completes _ _ _ _ ended
    by_cases full : w.st.remaining = 0
    · rw [full, List.drop_zero]
      exact weight_lt_of_pause input (lighter full)
    · exact weight_drop_lt w _ (Nat.pos_of_ne_zero full) nonempty

theorem partialImageHeader_progress (stage : w.st.state = .imageHeader) (nonempty : input ≠ [])
    (taken : partialImageHeader w input = .next w' rest) : weight w' rest < weight w input := by
  refine takePart_progress nonempty (fun _ => rfl) (fun w₁ rest₁ w₂ rest₂ ended => ?_) taken
  obtain ⟨same, -, rfl⟩ := imageComplete_next ended
  refine ⟨same, fun full => ?_⟩
  have here : pause w.st = 3 := by
    unfold pause
    rw [stage]
    exact if_pos full
  rw [here]
  change (if _ then 2 else 0) < 3
  split <;> decide

theorem takeChunkHeader_progress (stage : w.st.state = .chunkHeader) (nonempty : input ≠ [])
    (taken : takeChunkHeader w input = .next w' rest) : weight w' rest < weight w input := by
  refine takePart_progress nonempty (fun _ => rfl) (fun w₁ rest₁ w₂ rest₂ ended => ?_) taken
  obtain ⟨same, -, -, rfl⟩ := chunkComplete_next ended
  refine ⟨same, fun full => ?_⟩
  have here : pause w.st = 2 := by
    unfold pause
    rw [stage]
    exact if_pos full
  rw [here, pause_chunkStage]
  decide

theorem partialChunkHeader_progress (stage : w.st.state = .chunkHeader) (nonempty : input ≠ [])
    (taken : partialChunkHeader w input = .next w' rest) : weight w' rest < weight w input :=
  takeChunkHeader_progress stage nonempty (partialChunkHeader_next taken)

theorem weight_nextChunk_lt (stage : pause w.st = 1) (after : w'.st.state = .chunkHeader)
    (full : w'.st.remaining = chunkHeaderBytes) : weight w' input < weight w input := by
  refine weight_lt_of_pause input ?_
  have there : pause w'.st = 0 := by
    unfold pause
    rw [after, full]
    rfl
  rw [stage, there]
  exact Nat.one_pos

theorem pause_eq_one {st : UnsparseState} (image : st.state ≠ .imageHeader)
    (chunk : st.state ≠ .chunkHeader) : pause st = 1 := by
  unfold pause
  split
  · contradiction
  · contradiction
  · rfl

theorem partialChunkRaw_progress (stage : w.st.state = .raw) (nonempty : input ≠ [])
    (taken : partialChunkRaw crcEnabled cb w input = .next w' rest) : weight w' rest < weight w input := by
  have here : pause w.st = 1 := pause_eq_one (stage.trans_ne (by decide)) (stage.trans_ne (by decide))
  obtain ⟨rfl, -, crc, st, taking, after⟩ := partialChunkRaw_next crcEnabled cb taken
  by_cases full : w.st.remaining = 0
  · have none : st.remaining = 0 := by
      rw [taking]
      change w.st.remaining - _ = 0
      rw [full, Nat.zero_sub]
    rw [if_pos none] at after
    rw [full, List.drop_zero]
    exact weight_nextChunk_lt here (by rw [after]; rfl) (by rw [after]; rfl)
  · exact weight_drop_lt w _ (Nat.pos_of_ne_zero full) nonempty

theorem takeFill_progress (stage : w.st.state = .fill) (nonempty : input ≠ [])
    (some : w.st.offset < 4 → 0 < most) (taken : takeFill crcEnabled cb most w input = .next w' rest) :
    weight w' rest < weight w input := by
  have here : pause w.st = 1 := pause_eq_one (stage.trans_ne (by decide)) (stage.trans_ne (by decide))
  rcases takeFill_next crcEnabled cb taken with
    ⟨short, rfl, -⟩ | ⟨w₁, ⟨short, -, rfl⟩ | ⟨-, -, rfl⟩, done, -, rfl⟩
  · exact weight_drop_lt w _ (some (by omega)) nonempty
  · exact weight_drop_lt w _ (some short) nonempty
  · exact weight_nextChunk_lt here rfl rfl

theorem partialChunkDontCare_progress (stage : w.st.state = .dontCare)
    (taken : partialChunkDontCare cb w input = .next w' rest) : weight w' rest < weight w input := by
  have here : pause w.st = 1 := pause_eq_one (stage.trans_ne (by decide)) (stage.trans_ne (by decide))
  obtain ⟨rfl, after, -⟩ := partialChunkDontCare_next cb taken
  exact weight_nextChunk_lt here (by rw [after]; rfl) (by rw [after]; rfl)

theorem takeCrc_progress (stage : w.st.state = .crc) (nonempty : input ≠ [])
    (some : w.st.offset < 4 → 0 < most) (taken : takeCrc crcEnabled most w input = .next w' rest) :
    weight w' rest < weight w input := by
  have here : pause w.st = 1 := pause_eq_one (stage.trans_ne (by decide)) (stage.trans_ne (by decide))
  rcases takeCrc_next crcEnabled taken with ⟨short, rfl, -⟩ | ⟨rfl, after, -⟩
  · exact weight_drop_lt w _ (some short) nonempty
  · exact weight_nextChunk_lt here (by rw [after]; rfl) (by rw [after]; rfl)

end

theorem iteration_progress (w : Work σ) (input : List UInt8) (w' : Work σ) (rest : List UInt8)
    (going : input ≠ [] ∨ goesOn w) (taken : iteration crcEnabled cb w input = .next w' rest) :
    weight w' rest < weight w input := by
  have nonempty : w.st.state ≠ .dontCare → input ≠ [] := fun other =>
    going.resolve_right fun free => other (of_decide_eq_true free)
  unfold iteration at taken
  cases stage : w.st.state with
  | imageHeader =>
    rw [stage] at taken nonempty
    exact partialImageHeader_progress stage (nonempty (by decide)) taken
  | chunkHeader =>
    rw [stage] at taken nonempty
    exact partialChunkHeader_progress stage (nonempty (by decide)) taken
  | raw =>
    rw [stage] at taken nonempty
    exact partialChunkRaw_progress crcEnabled cb stage (nonempty (by decide)) taken
  | fill =>
    rw [stage] at taken nonempty
    exact takeFill_progress crcEnabled cb stage (nonempty (by decide)) (fun _ => by decide) taken
  | dontCare =>
    rw [stage] at taken
    exact partialChunkDontCare_progress cb stage taken
  | crc =>
    rw [stage] at taken nonempty
    exact takeCrc_progress crcEnabled stage (nonempty (by decide)) (fun _ => by decide) taken

def machine : Consumer (Work σ) UInt8 (Halt σ) where
  goesOn := goesOn
  body := iteration crcEnabled cb
  weight := weight
  progress := iteration_progress crcEnabled cb

inductive Outcome where
  | returns (error : Option Error)
  | overrun
  | hangs
  deriving DecidableEq, Repr

structure Result (σ : Type) where
  outcome : Outcome
  st : UnsparseState
  aux : σ
  deriving DecidableEq, Repr

def UnsparseState.unsaved (st now : UnsparseState) : UnsparseState :=
  { now with
    remaining := st.remaining
    offset := st.offset
    state := st.state
    chunksProcessed := st.chunksProcessed
    computedCrc := st.computedCrc }

def tegrablSparseUnsparse (st : UnsparseState) (buff : List UInt8) (aux : σ) : Result σ :=
  if buff = [] then ⟨.returns (some (.own .badParameter 1)), st, aux⟩
  else if ¬ st.callbacks then ⟨.returns (some (.own .notInitialized 0)), st, aux⟩
  else
    match (machine crcEnabled cb).loop { st := st, error := none, aux := aux } buff with
    | .ok w => ⟨.returns w.error, w.st, w.aux⟩
    | .error (.fail e w) => ⟨.returns (some e), st.unsaved w.st, w.aux⟩
    | .error (.overrun w) => ⟨.overrun, st.unsaved w.st, w.aux⟩
    | .error (.hang w) => ⟨.hangs, st.unsaved w.st, w.aux⟩

def feed (st : UnsparseState) (aux : σ) : List (List UInt8) → Result σ
  | [] => ⟨.returns none, st, aux⟩
  | buff :: buffers =>
    let result := tegrablSparseUnsparse crcEnabled cb st buff aux
    if result.outcome = .returns none then feed result.st result.aux buffers else result

end

end Cboot.Sparse
