import Cboot.Sparse.RoundTrip

/-!
An image is complete if it has as many chunks as its header says, each with its data.
-/

namespace Cboot.Sparse
open Lib Utils

inductive Piece where
  | raw (bytes : List UInt8)
  | fill (value : List UInt8) (size : Nat)
  | skip (size : Nat)
  | crc (value : List UInt8)
  deriving DecidableEq, Repr

def pattern (value : List UInt8) (size : Nat) : List UInt8 :=
  (List.range size).map fun i => value.getD (i % 4) 0

def Piece.output : Piece → List Output
  | raw bytes => bytes.map .byte
  | fill value size => (pattern value size).map .byte
  | skip size => [.skip size]
  | crc _ => []

def cut (size : Nat) (input : List UInt8) : Option (List UInt8 × List UInt8) :=
  if size ≤ input.length then some (input.take size, input.drop size) else none

def parseData (chunk : ChunkHeader) (size : Nat) (input : List UInt8) : Option (Piece × List UInt8) :=
  if chunk.chunkType = chunkTypeRaw then
    (cut size input).map fun (bytes, rest) => (.raw bytes, rest)
  else if chunk.chunkType = chunkTypeFill then
    (cut 4 input).map fun (value, rest) => (.fill value size, rest)
  else if chunk.chunkType = chunkTypeDontCare then some (.skip size, input)
  else if chunk.chunkType = chunkTypeCrc then
    (cut 4 input).map fun (value, rest) => (.crc value, rest)
  else none

def parseChunk (h : ImageHeader) (input : List UInt8) : Option (Piece × List UInt8) := do
  let (header, rest) ← cut chunkHeaderBytes input
  let chunk := ChunkHeader.codec.decode header
  parseData chunk (chunk.chunkSz.toNat * h.blkSz.toNat) rest

def parseChunks (h : ImageHeader) : Nat → List UInt8 → Option (List Piece × List UInt8)
  | 0, input => some ([], input)
  | n + 1, input => do
    let (piece, rest) ← parseChunk h input
    let (pieces, rest) ← parseChunks h n rest
    return (piece :: pieces, rest)

def parseImage (image : List UInt8) : Option (List Piece) := do
  let (header, rest) ← cut imageHeaderBytes image
  let h := ImageHeader.codec.decode header
  if h.fileHdrSz.toNat = imageHeaderBytes ∧ h.chunkHdrSz.toNat = chunkHeaderBytes then
    (parseChunks h h.totalChunks.toNat rest).map Prod.fst
  else none

theorem cut_eq_some {size : Nat} {input first rest : List UInt8} (made : cut size input = some (first, rest)) :
    size ≤ input.length ∧ first = input.take size ∧ rest = input.drop size := by
  unfold cut at made
  split at made
  · rename_i enough
    cases made
    exact ⟨enough, rfl, rfl⟩
  · cases made

theorem pattern_add (value : List UInt8) {m : Nat} (words : 4 ∣ m) (n : Nat) :
    pattern value (m + n) = pattern value m ++ pattern value n := by
  unfold pattern
  rw [List.range_add, List.map_append, List.map_map]
  congr 1
  refine List.map_congr_left ?_
  intro i _
  obtain ⟨k, rfl⟩ := words
  show value.getD ((4 * k + i) % 4) 0 = _
  rw [Nat.mul_add_mod]

variable {value : List UInt8}

theorem pattern_four (length : value.length = 4) : pattern value 4 = value := by
  refine List.ext_getElem (by simp [pattern, length]) ?_
  intro i _ inside
  have small : i % 4 = i := Nat.mod_eq_of_lt (by omega)
  simp [pattern, small, inside]

theorem flatten_replicate (length : value.length = 4) (n : Nat) :
    (List.replicate n value).flatten = pattern value (4 * n) := by
  induction n with
  | zero => rfl
  | succ n ih =>
    rw [List.replicate_succ, List.flatten_cons, ih, Nat.mul_add, Nat.mul_one, Nat.add_comm,
      pattern_add value (Nat.dvd_refl 4), pattern_four length]

theorem fillBuffer_take (length : value.length = 4) {n : Nat}
    (few : n ≤ maxLocalBuffer) : (fillBuffer value).take n = pattern value n := by
  unfold fillBuffer
  rw [flatten_replicate length]
  unfold pattern
  rw [← List.map_take, List.take_range]
  congr 2
  unfold maxLocalBuffer at *
  omega

section
variable {σ : Type} {crcEnabled : Bool} {cb : Callbacks σ}

inductive Did (cb : Callbacks σ) : List Output → σ → σ → Prop
  | nil (aux : σ) : Did cb [] aux aux
  | write {bytes : List UInt8} {out : List Output} {aux aux₁ aux₂ : σ} :
      cb.writer bytes aux = (none, aux₁) → Did cb out aux₁ aux₂ → Did cb (bytes.map .byte ++ out) aux aux₂
  | seek {size : Nat} {out : List Output} {aux aux₁ aux₂ : σ} :
      cb.seeker size aux = (none, aux₁) → Did cb out aux₁ aux₂ → Did cb (.skip size :: out) aux aux₂

theorem Did.trans {out more : List Output} {aux aux₁ aux₂ : σ} (first : Did cb out aux aux₁)
    (second : Did cb more aux₁ aux₂) : Did cb (out ++ more) aux aux₂ := by
  induction first with
  | nil aux => exact second
  | write written _ ih =>
    rw [List.append_assoc]
    exact .write written (ih second)
  | seek moved _ ih => exact .seek moved (ih second)

theorem did_fillWrites {w done : Work σ} (length : w.st.fillValue.length = 4)
    (written : fillWrites crcEnabled cb w = .ok done) :
    Did cb ((pattern w.st.fillValue w.st.remaining).map .byte) w.aux done.aux := by
  induction w using fillWrites.induct crcEnabled cb with
  | case1 w ended =>
    rw [fillWrites, if_pos ended] at written
    cases written
    rw [ended]
    exact .nil _
  | case2 w more size bytes e aux failed =>
    rw [fillWrites, if_neg more] at written
    dsimp only at written
    rw [failed] at written
    cases written
  | case3 w more size bytes st aux passed ih =>
    rw [fillWrites, if_neg more] at written
    dsimp only at written
    rw [passed] at written
    have value : st.fillValue = w.st.fillValue := by
      obtain ⟨crc, same⟩ := wrote_crc crcEnabled w.st bytes
      change (w.st.wrote crcEnabled bytes).fillValue = _
      rw [same]
    have rest := ih (by rw [value]; exact length) written
    rw [value] at rest
    have burst : bytes = pattern w.st.fillValue (min w.st.remaining maxLocalBuffer) :=
      fillBuffer_take length (Nat.min_le_right _ _)
    -- The value starts anew with each burst, which is a multiple of four unless it is the last.
    have split : pattern w.st.fillValue w.st.remaining = bytes ++ pattern w.st.fillValue st.remaining := by
      change _ = bytes ++ pattern _ (w.st.remaining - min w.st.remaining maxLocalBuffer)
      rw [burst]
      rcases Nat.le_total w.st.remaining maxLocalBuffer with few | many
      · rw [Nat.min_eq_left few, Nat.sub_self]
        exact (List.append_nil _).symm
      · rw [Nat.min_eq_right many, ← pattern_add _ (by decide), Nat.add_sub_cancel' many]
    rw [split, List.map_append]
    exact .write passed rest

variable {h : ImageHeader} {k : Nat} {st : UnsparseState} {e : Option Error} {aux : σ} {w : Work σ}
  {input : List UInt8}

structure Begun (h : ImageHeader) (k : Nat) (chunk : ChunkHeader) (st : UnsparseState) : Prop where
  stage : st.state = chunkStage chunk.chunkType
  start : st.offset = 0
  left : st.remaining = chunk.chunkSz.toNat * h.blkSz.toNat
  image : st.image = h
  counted : st.chunksProcessed = k + 1
  word : st.fillValue.length = 4

variable {chunk : ChunkHeader}

theorem chunkHeader_ok (ready : Ready h k st) (whole : chunkHeaderBytes ≤ input.length)
    (ended : (machine crcEnabled cb).loop ⟨st, e, aux⟩ input = .ok w) : k + 1 ≤ h.totalChunks.toNat ∧
      ∃ st', Begun h k (ChunkHeader.codec.decode (input.take chunkHeaderBytes)) st' ∧
        (machine crcEnabled cb).loop ⟨st', none, aux⟩ (input.drop chunkHeaderBytes) = .ok w := by
  have nonempty : input ≠ [] := by
    intro empty
    rw [empty] at whole
    cases whole
  obtain ⟨w', rest, taken, ended⟩ := Consumer.loop_ok (.inl nonempty) ended
  change iteration crcEnabled cb _ input = _ at taken
  unfold iteration at taken
  rw [ready.stage] at taken
  have full : st.remaining = chunkHeaderBytes := ready.full
  have length : (input.take chunkHeaderBytes).length = chunkHeaderBytes := List.length_take_of_le whole
  have copied : (st.chunkBytes (input.take chunkHeaderBytes)).chunk =
      ChunkHeader.codec.decode (input.take chunkHeaderBytes) := by
    change ChunkHeader.codec.decode (copyTo st.chunkHeader st.offset _) = _
    rw [ready.start, copyTo_zero (Nat.le_of_eq (by rw [length, ready.length])), ready.length,
      List.take_take, Nat.min_self]
  have image : (st.chunkBytes (input.take chunkHeaderBytes)).image = h := ready.image
  rcases takePart_next (partialChunkHeader_next taken) with ⟨short, -⟩ | ⟨-, complete⟩
  · change st.remaining - (input.take st.remaining).length ≠ 0 at short
    rw [full, length] at short
    exact absurd (Nat.sub_self _) short
  · obtain ⟨rfl, -, few, rfl⟩ := chunkComplete_next complete
    dsimp only at few ended
    rw [full, image] at few
    rw [full, copied, image] at ended
    have counted : (st.chunkBytes (input.take chunkHeaderBytes)).chunksProcessed = k := ready.counted
    rw [counted] at few
    refine ⟨few, _, ?_, ended⟩
    exact ⟨rfl, rfl, rfl, image, congrArg (· + 1) counted, ready.word⟩

theorem stop_ok (stage : st.state ≠ .dontCare)
    (ended : (machine crcEnabled cb).loop ⟨st, e, aux⟩ [] = .ok w) : w.aux = aux := by
  rw [Consumer.loop_done (fun goes => stage (of_decide_eq_true goes))] at ended
  cases ended
  rfl

variable (begun : Begun h k chunk st)
include begun

theorem Begun.next {st' : UnsparseState}
    (same : st'.imageHeader = st.imageHeader) (counted : st'.chunksProcessed = st.chunksProcessed)
    (word : st'.fillValue.length = 4) : Ready h (k + 1) st'.nextChunk := by
  refine ⟨rfl, rfl, rfl, ?_, counted.trans begun.counted, List.length_replicate, word⟩
  change ImageHeader.codec.decode st'.imageHeader = h
  rw [same]
  exact begun.image

theorem raw_ok (stage : st.state = .raw)
    (enough : chunk.chunkSz.toNat * h.blkSz.toNat ≤ input.length) (nonempty : input ≠ [])
    (ended : (machine crcEnabled cb).loop ⟨st, e, aux⟩ input = .ok w) : ∃ st' aux', Ready h (k + 1) st' ∧
      cb.writer (input.take (chunk.chunkSz.toNat * h.blkSz.toNat)) aux = (none, aux') ∧
      (machine crcEnabled cb).loop ⟨st', none, aux'⟩ (input.drop (chunk.chunkSz.toNat * h.blkSz.toNat)) = .ok w := by
  obtain ⟨w', rest, taken, ended⟩ := Consumer.loop_ok (.inl nonempty) ended
  change iteration crcEnabled cb _ input = _ at taken
  unfold iteration partialChunkRaw at taken
  rw [stage] at taken
  dsimp only at taken
  rw [begun.left] at taken
  generalize size : chunk.chunkSz.toNat * h.blkSz.toNat = n at *
  obtain ⟨crc, wrote⟩ := wrote_crc crcEnabled st (input.take n)
  rw [wrote] at taken
  have used : ({ st with computedCrc := crc }.took (input.take n)).remaining = 0 := by
    change st.remaining - (input.take n).length = 0
    rw [begun.left, size, List.length_take_of_le enough, Nat.sub_self]
  rw [if_pos used] at taken
  split at taken
  · cases taken
  · rename_i aux' written
    cases taken
    refine ⟨_, aux', ?_, written, ended⟩
    exact begun.next rfl rfl begun.word

theorem fill_ok (stage : st.state = .fill)
    (enough : 4 ≤ input.length) (ended : (machine crcEnabled cb).loop ⟨st, e, aux⟩ input = .ok w) :
    ∃ st' e' aux', Ready h (k + 1) st' ∧
      Did cb ((pattern (input.take 4) (chunk.chunkSz.toNat * h.blkSz.toNat)).map .byte) aux aux' ∧
      (machine crcEnabled cb).loop ⟨st', e', aux'⟩ (input.drop 4) = .ok w := by
  have nonempty : input ≠ [] := by
    intro empty
    rw [empty] at enough
    cases enough
  obtain ⟨w', rest, taken, ended⟩ := Consumer.loop_ok (.inl nonempty) ended
  change iteration crcEnabled cb _ input = _ at taken
  unfold iteration partialChunkFill at taken
  rw [stage] at taken
  have length : (input.take 4).length = 4 := List.length_take_of_le enough
  have start : st.offset = 0 := begun.start
  rcases takeFill_next crcEnabled cb taken with ⟨short, -⟩ | ⟨w₁, begins, done, written, rfl⟩
  · dsimp only at short
    rw [start, length] at short
    exact absurd short (Nat.lt_irrefl 4)
  rcases begins with ⟨-, rfl, rfl⟩ | ⟨late, -⟩
  · have value : (st.fillBytes (input.take 4)).fillValue = input.take 4 := by
      change copyTo st.fillValue st.offset _ = _
      rw [start, copyTo_zero (Nat.le_of_eq (by rw [length, begun.word])), begun.word, List.take_take, Nat.min_self]
    have width : (st.fillBytes (input.take 4)).fillValue.length = 4 := by
      rw [value]
      exact length
    have did := did_fillWrites width written
    dsimp only at did
    rw [value] at did
    obtain ⟨⟨crc, after⟩, -⟩ := fillWrites_ok written
    refine ⟨done.st.nextChunk, done.error, done.aux, ?_, ?_, ended⟩
    · rw [after]
      exact begun.next rfl rfl width
    · rw [← begun.left]
      exact did
  · dsimp only at late
    rw [start] at late
    cases late

theorem dontCare_ok (stage : st.state = .dontCare)
    (ended : (machine crcEnabled cb).loop ⟨st, e, aux⟩ input = .ok w) : ∃ st' aux', Ready h (k + 1) st' ∧
      cb.seeker (chunk.chunkSz.toNat * h.blkSz.toNat) aux = (none, aux') ∧
      (machine crcEnabled cb).loop ⟨st', none, aux'⟩ input = .ok w := by
  obtain ⟨w', rest, taken, ended⟩ := Consumer.loop_ok (.inr (decide_eq_true stage)) ended
  change iteration crcEnabled cb _ input = _ at taken
  unfold iteration partialChunkDontCare at taken
  rw [stage] at taken
  dsimp only at taken
  rw [begun.left] at taken
  split at taken
  · cases taken
  · rename_i aux' moved
    cases taken
    exact ⟨_, aux', begun.next rfl rfl begun.word, moved, ended⟩

theorem crc_ok (stage : st.state = .crc)
    (enough : 4 ≤ input.length) (ended : (machine crcEnabled cb).loop ⟨st, e, aux⟩ input = .ok w) :
    input.drop 4 = [] ∧ w.aux = aux ∨ ∃ st' e', Ready h (k + 1) st' ∧
        (machine crcEnabled cb).loop ⟨st', e', aux⟩ (input.drop 4) = .ok w := by
  have nonempty : input ≠ [] := by
    intro empty
    rw [empty] at enough
    cases enough
  obtain ⟨w', rest, taken, ended⟩ := Consumer.loop_ok (.inl nonempty) ended
  change iteration crcEnabled cb _ input = _ at taken
  unfold iteration partialChunkCrc takeCrc at taken
  rw [stage] at taken
  dsimp only at taken
  split at taken
  · rename_i checked
    rw [if_pos (by rw [begun.start]; decide)] at taken
    cases taken
    have offset : ¬ (st.crcBytes (input.take 4)).offset < 4 := by
      change ¬ st.offset + (input.take 4).length < 4
      rw [begun.start, List.length_take_of_le enough]
      decide
    by_cases last : input.drop 4 = []
    · rw [last] at ended
      refine .inl ⟨last, stop_ok ?_ ended⟩
      change st.state ≠ _
      rw [stage]
      decide
    · obtain ⟨w', rest, taken, ended⟩ := Consumer.loop_ok (.inl last) ended
      change iteration crcEnabled cb _ _ = _ at taken
      unfold iteration partialChunkCrc takeCrc crcComplete at taken
      rw [show (st.crcBytes (input.take 4)).state = .crc from stage] at taken
      dsimp only at taken
      rw [if_pos checked, if_neg offset] at taken
      cases taken
      refine .inr ⟨_, _, ?_, ended⟩
      exact begun.next rfl rfl begun.word
  · cases taken

omit begun

theorem last_ok (ready : Ready h k st) (all : k = h.totalChunks.toNat)
    (ended : (machine crcEnabled cb).loop ⟨st, e, aux⟩ input = .ok w) : w.aux = aux := by
  have other : st.state ≠ .dontCare := by
    rw [ready.stage]
    decide
  rcases Nat.lt_or_ge input.length chunkHeaderBytes with short | whole
  · by_cases empty : input = []
    · rw [empty] at ended
      exact stop_ok other ended
    obtain ⟨w', rest, taken, ended⟩ := Consumer.loop_ok (.inl empty) ended
    change iteration crcEnabled cb _ input = _ at taken
    unfold iteration at taken
    rw [ready.stage] at taken
    have full : st.remaining = chunkHeaderBytes := ready.full
    rcases takePart_next (partialChunkHeader_next taken) with ⟨-, rfl, rfl⟩ | ⟨used, -⟩
    · dsimp only at ended
      rw [full, List.drop_of_length_le (Nat.le_of_lt short)] at ended
      refine stop_ok ?_ ended
      exact other
    · change st.remaining - (input.take st.remaining).length = 0 at used
      rw [full, List.length_take] at used
      omega
  · obtain ⟨few, -⟩ := chunkHeader_ok ready whole ended
    omega

theorem chunks_ok (n : Nat) {pieces : List Piece} {rest : List UInt8} (ready : Ready h k st)
    (parsed : parseChunks h n input = some (pieces, rest)) (all : k + n = h.totalChunks.toNat)
    (ended : (machine crcEnabled cb).loop ⟨st, e, aux⟩ input = .ok w) :
    Did cb (pieces.flatMap Piece.output) aux w.aux := by
  induction n generalizing k st e aux input pieces with
  | zero =>
    cases parsed
    rw [last_ok ready all ended]
    exact .nil aux
  | succ n ih =>
    unfold parseChunks at parsed
    obtain ⟨⟨piece, more⟩, first, parsed⟩ := Option.bind_eq_some_iff.mp parsed
    obtain ⟨⟨others, behind⟩, next, parsed⟩ := Option.bind_eq_some_iff.mp parsed
    cases parsed
    rw [List.flatMap_cons]
    unfold parseChunk at first
    obtain ⟨⟨header, body⟩, cutting, first⟩ := Option.bind_eq_some_iff.mp first
    obtain ⟨whole, rfl, rfl⟩ := cut_eq_some cutting
    dsimp only at first
    obtain ⟨-, st₁, begun, ended⟩ := chunkHeader_ok ready whole ended
    have onward {st' : UnsparseState} {e' : Option Error} {aux' : σ} (ready : Ready h (k + 1) st')
        (ended : (machine crcEnabled cb).loop ⟨st', e', aux'⟩ more = .ok w) :
        Did cb (others.flatMap Piece.output) aux' w.aux := ih ready next (by omega) ended
    -- Where the input is used up, there is no further chunk.
    have exhausted (empty : more = []) : others = [] := by
      cases n with
      | zero =>
        cases next
        rfl
      | succ n =>
        rw [empty] at next
        cases next
    unfold parseData at first
    split at first
    · rename_i type
      obtain ⟨⟨bytes, tail⟩, cutting, same⟩ := Option.map_eq_some_iff.mp first
      obtain ⟨enough, rfl, rfl⟩ := cut_eq_some cutting
      cases same
      have stage : st₁.state = .raw := by
        rw [begun.stage, type]
        rfl
      by_cases empty : input.drop chunkHeaderBytes = []
      · rw [empty] at ended
        rw [exhausted (by rw [empty, List.drop_nil]), stop_ok (by rw [stage]; decide) ended, empty, List.take_nil]
        exact .nil aux
      · obtain ⟨st', aux', ready, written, ended⟩ := raw_ok begun stage enough empty ended
        exact .write written (onward ready ended)
    split at first
    · rename_i type
      obtain ⟨⟨value, tail⟩, cutting, same⟩ := Option.map_eq_some_iff.mp first
      obtain ⟨enough, rfl, rfl⟩ := cut_eq_some cutting
      cases same
      have stage : st₁.state = .fill := by
        rw [begun.stage, type]
        rfl
      obtain ⟨st', e', aux', ready, did, ended⟩ := fill_ok begun stage enough ended
      exact did.trans (onward ready ended)
    split at first
    · rename_i type
      cases first
      have stage : st₁.state = .dontCare := by
        rw [begun.stage, type]
        rfl
      obtain ⟨st', aux', ready, moved, ended⟩ := dontCare_ok begun stage ended
      exact .seek moved (onward ready ended)
    split at first
    · rename_i type
      obtain ⟨⟨value, tail⟩, cutting, same⟩ := Option.map_eq_some_iff.mp first
      obtain ⟨enough, rfl, rfl⟩ := cut_eq_some cutting
      cases same
      have stage : st₁.state = .crc := by
        rw [begun.stage, type]
        rfl
      rcases crc_ok begun stage enough ended with ⟨empty, same⟩ | ⟨st', e', ready, ended⟩
      · rw [exhausted empty, same]
        exact .nil aux
      · exact onward ready ended
    · cases first

theorem imageHeader_ok (unread : Unread st) (whole : imageHeaderBytes ≤ input.length)
    (hdrSz : (ImageHeader.codec.decode (input.take imageHeaderBytes)).chunkHdrSz.toNat = chunkHeaderBytes)
    (ended : (machine crcEnabled cb).loop ⟨st, e, aux⟩ input = .ok w) :
    ∃ st', Ready (ImageHeader.codec.decode (input.take imageHeaderBytes)) 0 st' ∧
      (machine crcEnabled cb).loop ⟨st', none, aux⟩ (input.drop imageHeaderBytes) = .ok w := by
  have nonempty : input ≠ [] := by
    intro empty
    rw [empty] at whole
    cases whole
  obtain ⟨w', rest, taken, ended⟩ := Consumer.loop_ok (.inl nonempty) ended
  change iteration crcEnabled cb _ input = _ at taken
  unfold iteration at taken
  rw [unread.stage] at taken
  have full : st.remaining = imageHeaderBytes := unread.full
  have length : (input.take imageHeaderBytes).length = imageHeaderBytes := List.length_take_of_le whole
  have image : (st.imageBytes (input.take imageHeaderBytes)).image =
      ImageHeader.codec.decode (input.take imageHeaderBytes) := by
    unfold UnsparseState.image
    rw [imageBytes_imageHeader, unread.start,
      copyTo_zero (Nat.le_of_eq (by rw [length, unread.length])), unread.length, List.take_take, Nat.min_self]
  rcases takePart_next taken with ⟨short, -⟩ | ⟨-, complete⟩
  · rw [imageBytes_remaining, full, length] at short
    exact absurd (Nat.sub_self _) short
  · obtain ⟨rfl, -, rfl⟩ := imageComplete_next complete
    dsimp only at ended
    rw [full, image] at ended
    refine ⟨_, ?_, ended⟩
    exact ⟨rfl, rfl, hdrSz, image, unread.counted, List.length_replicate, unread.word⟩

theorem unsparse_did {maxUnsparseSize : UInt64} {image : List UInt8} {pieces : List Piece}
    (parsed : parseImage image = some pieces)
    (returns : (tegrablSparseUnsparse crcEnabled cb (.initial maxUnsparseSize true) image aux).outcome =
      .returns none) : Did cb (pieces.flatMap Piece.output) aux
      (tegrablSparseUnsparse crcEnabled cb (.initial maxUnsparseSize true) image aux).aux := by
  unfold parseImage at parsed
  obtain ⟨⟨header, body⟩, cutting, parsed⟩ := Option.bind_eq_some_iff.mp parsed
  obtain ⟨whole, rfl, rfl⟩ := cut_eq_some cutting
  dsimp only at parsed
  split at parsed
  · rename_i sizes
    obtain ⟨⟨_, rest⟩, chunks, rfl⟩ := Option.map_eq_some_iff.mp parsed
    have nonempty : image ≠ [] := by
      intro empty
      rw [empty] at whole
      cases whole
    have set : ¬ ¬ (UnsparseState.initial maxUnsparseSize true).callbacks = true := not_not.mpr rfl
    unfold tegrablSparseUnsparse at returns ⊢
    rw [if_neg nonempty, if_neg set] at returns ⊢
    cases ended : (machine crcEnabled cb).loop ⟨.initial maxUnsparseSize true, none, aux⟩ image with
    | ok w =>
      obtain ⟨st', ready, ended⟩ := imageHeader_ok (initial_unread _) whole sizes.2 ended
      exact chunks_ok _ ready chunks (Nat.zero_add _) ended
    | error halt =>
      rw [ended] at returns
      cases halt <;> cases returns
  · cases parsed

end

end Cboot.Sparse
