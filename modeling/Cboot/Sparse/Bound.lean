import Cboot.Sparse.Stream

/-!
The header of an image says how many blocks it has. The chunks are not summed up against it, so what is
put out stays below that number exactly as long as the chunks keep to it.
-/

namespace Cboot.Sparse
open Lib Utils

section
variable {σ : Type}

def metered (cb : Callbacks σ) : Callbacks (σ × Nat) where
  writer bytes aux := ((cb.writer bytes aux.1).1, ((cb.writer bytes aux.1).2, aux.2 + bytes.length))
  seeker size aux := ((cb.seeker size aux.1).1, ((cb.seeker size aux.1).2, aux.2 + size))

theorem metered_writer {cb : Callbacks σ} {bytes : List UInt8} {aux aux' : σ × Nat}
    {e : Option UInt32} (called : (metered cb).writer bytes aux = (e, aux')) : aux'.2 = aux.2 + bytes.length := by
  cases called
  rfl

theorem metered_seeker {cb : Callbacks σ} {size : Nat} {aux aux' : σ × Nat} {e : Option UInt32}
    (called : (metered cb).seeker size aux = (e, aux')) : aux'.2 = aux.2 + size := by
  cases called
  rfl

def UnsparseState.promised (st : UnsparseState) : Nat := st.image.blkSz.toNat * st.image.totalBlks.toNat

/-- The copy of a chunk header ends inside the structure, and the chunk it describes ends inside the image. -/
def KeepsPromise (w : Work (σ × Nat)) (input : List UInt8) : Prop :=
  w.st.state = .chunkHeader →
    (w.st.offset < chunkHeaderBytes → w.st.offset + min input.length w.st.remaining ≤ chunkHeaderBytes) ∧
    (w.st.remaining ≤ input.length →
      let chunk := (w.st.chunkBytes (input.take w.st.remaining)).chunk
      tegrablSparseValidateChunkHeader w.st.image chunk = none →
      w.st.chunksProcessed + 1 ≤ w.st.image.totalChunks.toNat → chunk.chunkType ≠ chunkTypeCrc →
      w.aux.2 + chunk.chunkSz.toNat * w.st.image.blkSz.toNat ≤ w.st.promised)

instance (w : Work (σ × Nat)) (input : List UInt8) : Decidable (KeepsPromise w input) :=
  inferInstanceAs (Decidable (_ → (_ → _) ∧ (_ → _ → _ → _ → _)))

def PromiseKept (crcEnabled : Bool) (cb : Callbacks σ) (st : UnsparseState) (aux : σ × Nat) :
    List (List UInt8) → Prop
  | [] => True
  | buff :: buffers =>
    let result := tegrablSparseUnsparse crcEnabled (metered cb) st buff aux
    (machine crcEnabled (metered cb)).Along KeepsPromise ⟨st, none, aux⟩ buff ∧
      (result.outcome = .returns none → PromiseKept crcEnabled cb result.st result.aux buffers)

instance decidablePromiseKept (crcEnabled : Bool) (cb : Callbacks σ) (st : UnsparseState)
    (aux : σ × Nat) : (buffers : List (List UInt8)) → Decidable (PromiseKept crcEnabled cb st aux buffers)
  | [] => isTrue trivial
  | buff :: buffers =>
    let result := tegrablSparseUnsparse crcEnabled (metered cb) st buff aux
    have := decidablePromiseKept crcEnabled cb result.st result.aux buffers
    have := (machine crcEnabled (metered cb)).decidableAlong KeepsPromise ⟨st, none, aux⟩ buff
    inferInstanceAs (Decidable (_ ∧ _))

def UnsparseState.pending (st : UnsparseState) : Nat :=
  match st.state with
  | .raw | .fill | .dontCare => st.remaining
  | _ => 0

theorem pending_le (st : UnsparseState) : st.pending ≤ st.remaining := by
  unfold UnsparseState.pending
  split <;> omega

theorem pending_eq_remaining {st : UnsparseState}
    (putting : st.state = .raw ∨ st.state = .fill ∨ st.state = .dontCare) : st.pending = st.remaining := by
  unfold UnsparseState.pending
  rcases putting with stage | stage | stage <;> rw [stage]

theorem pending_eq_zero {st : UnsparseState} (quiet : st.state = .chunkHeader ∨ st.state = .crc) : st.pending = 0 := by
  unfold UnsparseState.pending
  rcases quiet with stage | stage <;> rw [stage]

/-- What was put out and what the chunk at hand still puts out is within the promise, and this within the limit. -/
structure Bounded (maxUnsparseSize : UInt64) (st : UnsparseState) (total : Nat) : Prop where
  limit : st.maxUnsparseSize = maxUnsparseSize
  unread : st.state = .imageHeader → total = 0
  allowed : st.state ≠ .imageHeader → st.promised ≤ maxUnsparseSize.toNat
  output : st.state ≠ .imageHeader → total + st.pending ≤ st.promised

def Within (maxUnsparseSize : UInt64) (st : UnsparseState) (total : Nat) : Prop :=
  total ≤ st.promised ∧ total ≤ maxUnsparseSize.toNat

section
variable {maxUnsparseSize : UInt64} {st st' : UnsparseState} {total total' : Nat}

theorem Bounded.within (bounded : Bounded maxUnsparseSize st total) : Within maxUnsparseSize st total := by
  by_cases stage : st.state = .imageHeader
  · rw [bounded.unread stage]
    exact ⟨Nat.zero_le _, Nat.zero_le _⟩
  · have output := bounded.output stage
    have allowed := bounded.allowed stage
    exact ⟨by omega, by omega⟩

theorem Bounded.move (bounded : Bounded maxUnsparseSize st total) (stage : st.state ≠ .imageHeader)
    (after : st'.state ≠ .imageHeader) (limit : st'.maxUnsparseSize = st.maxUnsparseSize)
    (image : st'.imageHeader = st.imageHeader)
    (less : total' + st'.pending ≤ total + st.pending) : Bounded maxUnsparseSize st' total' := by
  have promised : st'.promised = st.promised := by
    unfold UnsparseState.promised UnsparseState.image
    rw [image]
  refine ⟨limit.trans bounded.limit, fun unread => absurd unread after, fun _ => ?_, fun _ => ?_⟩
  · rw [promised]
    exact bounded.allowed stage
  · rw [promised]
    exact Nat.le_trans less (bounded.output stage)

end

def Halt.work : Halt σ → Work σ
  | .fail _ w => w
  | .overrun w => w
  | .hang w => w

def BoundedAfter (maxUnsparseSize : UInt64) :
    Iteration (Work (σ × Nat)) UInt8 (Halt (σ × Nat)) → Prop
  | .next w _ => Bounded maxUnsparseSize w.st w.aux.2
  | .halt e => Within maxUnsparseSize e.work.st e.work.aux.2

theorem validateHeader_none {header : ImageHeader} {maxUnsparseSize : UInt64}
    (valid : tegrablSparseValidateHeader header maxUnsparseSize = none) :
    header.blkSz.toNat * header.totalBlks.toNat ≤ maxUnsparseSize.toNat := by
  have product : (header.blkSz.toUInt64 * header.totalBlks.toUInt64).toNat =
      header.blkSz.toNat * header.totalBlks.toNat := by
    have below : header.blkSz.toNat * header.totalBlks.toNat < 2 ^ 32 * 2 ^ 32 :=
      Nat.mul_lt_mul'' header.blkSz.toNat_lt header.totalBlks.toNat_lt
    rw [UInt64.toNat_mul, UInt32.toNat_toUInt64, UInt32.toNat_toUInt64, Nat.mod_eq_of_lt (by omega)]
  unfold tegrablSparseValidateHeader at valid
  split at valid
  · cases valid
  split at valid
  · cases valid
  · rename_i inside
    rw [UInt64.lt_iff_toNat_lt, product] at inside
    exact Nat.not_lt.mp inside

section
variable {crcEnabled : Bool} {cb : Callbacks σ} {maxUnsparseSize : UInt64} {w : Work (σ × Nat)}
  {input : List UInt8}

theorem wrote_fields (crcEnabled : Bool) (st : UnsparseState) (bytes : List UInt8) :
    (st.wrote crcEnabled bytes).state = st.state ∧ (st.wrote crcEnabled bytes).remaining = st.remaining ∧
      (st.wrote crcEnabled bytes).maxUnsparseSize = st.maxUnsparseSize ∧
      (st.wrote crcEnabled bytes).imageHeader = st.imageHeader := by
  obtain ⟨crc, same⟩ := wrote_crc crcEnabled st bytes
  rw [same]
  exact ⟨rfl, rfl, rfl, rfl⟩

theorem Bounded.nextChunk {st st' : UnsparseState} {total total' : Nat}
    (bounded : Bounded maxUnsparseSize st total) (stage : st.state ≠ .imageHeader)
    (limit : st'.maxUnsparseSize = st.maxUnsparseSize) (image : st'.imageHeader = st.imageHeader)
    (less : total' ≤ total + st.pending) : Bounded maxUnsparseSize st'.nextChunk total' := by
  refine bounded.move stage Stage.noConfusion limit image ?_
  rw [pending_eq_zero (.inl rfl), Nat.add_zero]
  exact less

theorem Bounded.within_of_le {st st' : UnsparseState} {total total' : Nat}
    (bounded : Bounded maxUnsparseSize st total) (stage : st.state ≠ .imageHeader)
    (limit : st'.maxUnsparseSize = st.maxUnsparseSize) (image : st'.imageHeader = st.imageHeader)
    (less : total' ≤ total + st.pending) : Within maxUnsparseSize st' total' :=
  (bounded.nextChunk stage limit image less).within

theorem metered_fill {size : Nat} {word : List UInt8} {aux aux' : σ × Nat} {e : Option UInt32}
    (called : (metered cb).writer ((fillBuffer word).take size) aux = (e, aux')) : aux'.2 ≤ aux.2 + size := by
  rw [metered_writer called]
  exact Nat.add_le_add_left (List.length_take_le _ _) _

variable (bounded : Bounded maxUnsparseSize w.st w.aux.2)
include bounded

theorem partialImageHeader_bounded
    (stage : w.st.state = .imageHeader) : BoundedAfter maxUnsparseSize (partialImageHeader w input) := by
  have none := bounded.unread stage
  have nothing : ∀ st, Within maxUnsparseSize st w.aux.2 := by
    intro st
    rw [none]
    exact ⟨Nat.zero_le _, Nat.zero_le _⟩
  unfold partialImageHeader takePart
  dsimp only
  split
  · exact ⟨bounded.limit, fun _ => none, fun other => absurd stage other, fun other => absurd stage other⟩
  · unfold imageComplete
    dsimp only
    split
    · exact nothing _
    · rename_i valid
      have allowed := validateHeader_none valid
      refine ⟨bounded.limit, fun other => absurd other Stage.noConfusion, fun _ => ?_, fun _ => ?_⟩
      · exact Nat.le_trans allowed (Nat.le_of_eq (congrArg UInt64.toNat bounded.limit))
      · change w.aux.2 + 0 ≤ _
        rw [none]
        exact Nat.zero_le _

theorem partialChunkHeader_bounded
    (keeps : KeepsPromise w input) (stage : w.st.state = .chunkHeader) :
    BoundedAfter maxUnsparseSize (partialChunkHeader w input) := by
  have other : w.st.state ≠ .imageHeader := stage.trans_ne (by decide)
  obtain ⟨inside, promise⟩ := keeps stage
  unfold partialChunkHeader
  split
  · rename_i past
    rw [List.length_take, Nat.min_comm] at past
    exact absurd (inside past.1) (Nat.not_le_of_lt past.2)
  unfold takeChunkHeader takePart
  dsimp only
  split
  · refine bounded.move other other rfl rfl ?_
    have after : (w.st.chunkBytes (input.take w.st.remaining)).pending = 0 :=
      pending_eq_zero (.inl stage)
    exact Nat.add_le_add_left (Nat.le_trans (Nat.le_of_eq after) (Nat.zero_le _)) _
  · rename_i full
    have complete : w.st.remaining ≤ input.length := by
      have used : w.st.remaining - (input.take w.st.remaining).length = 0 := not_not.mp full
      rw [List.length_take] at used
      omega
    unfold chunkComplete
    dsimp only
    split
    · exact bounded.within
    rename_i valid
    split
    · exact bounded.within
    rename_i few
    have kept := promise complete valid (Nat.not_lt.mp few)
    have allowed := bounded.allowed other
    have output := bounded.output other
    have begun : ∀ chunkType, chunkStage chunkType ≠ .imageHeader := by
      intro chunkType image
      unfold chunkStage at image
      split_ifs at image
    refine ⟨bounded.limit, fun image => absurd image (begun _), fun _ => allowed, fun _ => ?_⟩
    by_cases crc : (w.st.chunkBytes (input.take w.st.remaining)).chunk.chunkType = chunkTypeCrc
    · rw [pending_eq_zero (.inr ((congrArg chunkStage crc).trans rfl))]
      exact Nat.le_trans (Nat.add_le_add_left (Nat.zero_le _) _) output
    · exact Nat.le_trans (Nat.add_le_add_left (pending_le _) _) (kept crc)

theorem partialChunkRaw_bounded (stage : w.st.state = .raw) :
    BoundedAfter maxUnsparseSize (partialChunkRaw crcEnabled (metered cb) w input) := by
  have other : w.st.state ≠ .imageHeader := stage.trans_ne (by decide)
  have here : w.st.pending = w.st.remaining := pending_eq_remaining (.inl stage)
  have bound : (input.take w.st.remaining).length ≤ w.st.remaining := List.length_take_le _ _
  obtain ⟨same, left, limit, image⟩ := wrote_fields crcEnabled w.st (input.take w.st.remaining)
  unfold partialChunkRaw
  dsimp only
  split
  · rename_i e aux failed
    have counted := metered_writer failed
    refine bounded.within_of_le other rfl rfl ?_
    change aux.2 ≤ _
    omega
  · rename_i aux passed
    have counted := metered_writer passed
    change Bounded _ (if _ then _ else _) aux.2
    split
    · exact bounded.nextChunk other limit image (by omega)
    · refine bounded.move other (by rw [← same] at other; exact other) limit image ?_
      have after := pending_le ((w.st.wrote crcEnabled (input.take w.st.remaining)).took
        (input.take w.st.remaining))
      have used : ((w.st.wrote crcEnabled (input.take w.st.remaining)).took
          (input.take w.st.remaining)).remaining = (w.st.wrote crcEnabled (input.take w.st.remaining)).remaining -
            (input.take w.st.remaining).length := rfl
      omega

theorem fillWrites_bounded (stage : w.st.state = .fill) :
    (∀ done, fillWrites crcEnabled (metered cb) w = .ok done →
        Bounded maxUnsparseSize done.st done.aux.2 ∧ done.st.state = .fill) ∧
      ∀ e, fillWrites crcEnabled (metered cb) w = .error e → Within maxUnsparseSize e.work.st e.work.aux.2 := by
  induction w using fillWrites.induct crcEnabled (metered cb) with
  | case1 w ended =>
    rw [fillWrites, if_pos ended]
    constructor
    · intro done written
      cases written
      exact ⟨bounded, stage⟩
    · intro e failed
      cases failed
  | case2 w more size bytes e aux failed =>
    have other : w.st.state ≠ .imageHeader := stage.trans_ne (by decide)
    obtain ⟨-, -, limit, image⟩ := wrote_fields crcEnabled w.st bytes
    have counted := metered_fill failed
    have inside : size ≤ w.st.remaining := Nat.min_le_left _ _
    have here : w.st.pending = w.st.remaining := pending_eq_remaining (.inr (.inl stage))
    rw [fillWrites, if_neg more]
    dsimp only
    rw [failed]
    constructor
    · intro done written
      cases written
    · intro e' ended
      cases ended
      refine bounded.within_of_le other limit image ?_
      change aux.2 ≤ _
      omega
  | case3 w more size bytes st aux passed ih =>
    have other : w.st.state ≠ .imageHeader := stage.trans_ne (by decide)
    obtain ⟨same, -, limit, image⟩ := wrote_fields crcEnabled w.st bytes
    have counted := metered_fill passed
    have inside : size ≤ w.st.remaining := Nat.min_le_left _ _
    have here : w.st.pending = w.st.remaining := pending_eq_remaining (.inr (.inl stage))
    have after := pending_le st
    have left : st.remaining = w.st.remaining - size := rfl
    have still : st.state = .fill := same.trans stage
    rw [fillWrites, if_neg more]
    dsimp only
    rw [passed]
    refine ih (bounded.move other ?_ limit image ?_) still
    · change st.state ≠ _
      rw [still]
      decide
    · change aux.2 + st.pending ≤ _
      omega

theorem partialChunkFill_bounded (stage : w.st.state = .fill) :
    BoundedAfter maxUnsparseSize (partialChunkFill crcEnabled (metered cb) w input) := by
  have complete : ∀ st rest, Bounded maxUnsparseSize st w.aux.2 → st.state = .fill → BoundedAfter maxUnsparseSize
        (fillComplete crcEnabled (metered cb) { w with st := st } rest) := by
    intro st rest filled still
    obtain ⟨passes, fails⟩ := @fillWrites_bounded σ crcEnabled cb maxUnsparseSize { w with st := st }
      filled still
    unfold fillComplete
    split
    · rename_i e failed
      exact fails e failed
    · rename_i done written
      obtain ⟨after, word⟩ := passes done written
      exact after.nextChunk (by rw [word]; decide) rfl rfl (Nat.le_add_right _ _)
  have other : w.st.state ≠ .imageHeader := stage.trans_ne (by decide)
  have moved : Bounded maxUnsparseSize (w.st.fillBytes (input.take 4)) w.aux.2 :=
    bounded.move other other rfl rfl (Nat.le_refl _)
  unfold partialChunkFill takeFill
  split
  · dsimp only
    split
    · exact moved
    · exact complete _ _ moved stage
  · exact complete w.st _ bounded stage

theorem partialChunkDontCare_bounded (stage : w.st.state = .dontCare) :
    BoundedAfter maxUnsparseSize (partialChunkDontCare (metered cb) w input) := by
  have other : w.st.state ≠ .imageHeader := stage.trans_ne (by decide)
  have here : w.st.pending = w.st.remaining := pending_eq_remaining (.inr (.inr stage))
  unfold partialChunkDontCare
  split
  · rename_i e aux failed
    have counted := metered_seeker failed
    exact bounded.within_of_le other rfl rfl (by change aux.2 ≤ _; omega)
  · rename_i aux passed
    have counted := metered_seeker passed
    exact bounded.nextChunk other rfl rfl (by change aux.2 ≤ _; omega)

theorem partialChunkCrc_bounded (stage : w.st.state = .crc) :
    BoundedAfter maxUnsparseSize (partialChunkCrc crcEnabled w input) := by
  have other : w.st.state ≠ .imageHeader := stage.trans_ne (by decide)
  unfold partialChunkCrc takeCrc
  split
  · split
    · exact bounded.move other other rfl rfl (Nat.le_refl _)
    · exact bounded.nextChunk other rfl rfl (Nat.le_add_right _ _)
  · exact bounded.within

theorem iteration_bounded (keeps : KeepsPromise w input) :
    BoundedAfter maxUnsparseSize (iteration crcEnabled (metered cb) w input) := by
  unfold iteration
  cases stage : w.st.state with
  | imageHeader => exact partialImageHeader_bounded bounded stage
  | chunkHeader => exact partialChunkHeader_bounded bounded keeps stage
  | raw => exact partialChunkRaw_bounded bounded stage
  | fill => exact partialChunkFill_bounded bounded stage
  | dontCare => exact partialChunkDontCare_bounded bounded stage
  | crc => exact partialChunkCrc_bounded bounded stage

end

section
variable {crcEnabled : Bool} {cb : Callbacks σ} {maxUnsparseSize : UInt64} {st : UnsparseState}
  {aux : σ × Nat} {buff : List UInt8}

theorem unsparse_bounded (bounded : Bounded maxUnsparseSize st aux.2)
    (along : (machine crcEnabled (metered cb)).Along KeepsPromise ⟨st, none, aux⟩ buff) :
    Within maxUnsparseSize (tegrablSparseUnsparse crcEnabled (metered cb) st buff aux).st
        (tegrablSparseUnsparse crcEnabled (metered cb) st buff aux).aux.2 ∧
      ((tegrablSparseUnsparse crcEnabled (metered cb) st buff aux).outcome = .returns none →
        Bounded maxUnsparseSize (tegrablSparseUnsparse crcEnabled (metered cb) st buff aux).st
          (tegrablSparseUnsparse crcEnabled (metered cb) st buff aux).aux.2) := by
  have after : ∀ (w : Work (σ × Nat)) (input : List UInt8), Bounded maxUnsparseSize w.st w.aux.2 →
      KeepsPromise w input → BoundedAfter maxUnsparseSize (iteration crcEnabled (metered cb) w input) :=
    fun _ _ now keeps => iteration_bounded now keeps
  obtain ⟨ends, halts⟩ := Consumer.loop_along
    (P := fun (w : Work (σ × Nat)) _ => Bounded maxUnsparseSize w.st w.aux.2)
    (R := fun e : Halt (σ × Nat) => Within maxUnsparseSize e.work.st e.work.aux.2)
    (fun w input w' rest _ now keeps taken => by
      have after := after w input now keeps
      change iteration crcEnabled (metered cb) w input = .next w' rest at taken
      rw [taken] at after
      exact after)
    (fun w input e now keeps taken => by
      have after := after w input now keeps
      change iteration crcEnabled (metered cb) w input = .halt e at taken
      rw [taken] at after
      exact after) ⟨st, none, aux⟩ buff bounded along
  unfold tegrablSparseUnsparse
  split
  · exact ⟨bounded.within, fun _ => bounded⟩
  split
  · exact ⟨bounded.within, fun _ => bounded⟩
  cases ended : (machine crcEnabled (metered cb)).loop ⟨st, none, aux⟩ buff with
  | ok w => exact ⟨(ends w ended).within, fun _ => ends w ended⟩
  | error halt =>
    have within := halts halt ended
    cases halt with
    | fail e w => exact ⟨within, fun returned => by cases returned⟩
    | overrun w => exact ⟨within, fun returned => by cases returned⟩
    | hang w => exact ⟨within, fun returned => by cases returned⟩

theorem feed_within (buffers : List (List UInt8)) (bounded : Bounded maxUnsparseSize st aux.2)
    (kept : PromiseKept crcEnabled cb st aux buffers) :
    Within maxUnsparseSize (feed crcEnabled (metered cb) st aux buffers).st
      (feed crcEnabled (metered cb) st aux buffers).aux.2 := by
  induction buffers generalizing st aux with
  | nil => exact bounded.within
  | cons buff buffers ih =>
    obtain ⟨along, onward⟩ := kept
    obtain ⟨within, between⟩ := unsparse_bounded bounded along
    unfold feed
    dsimp only
    split
    · rename_i returned
      exact ih (between returned) (onward returned)
    · exact within

end

/-- As long as the chunks keep to the size that the header gives, no more is put out than it says, and
no more than is allowed. -/
theorem unsparse_output_bounded (crcEnabled : Bool) (cb : Callbacks σ) (maxUnsparseSize : UInt64)
    (st : UnsparseState) (aux : σ) (buffers : List (List UInt8))
    (init : tegrablSparseInitUnsparseState maxUnsparseSize true = .ok st)
    (kept : PromiseKept crcEnabled cb st (aux, 0) buffers) : (feed crcEnabled (metered cb) st (aux, 0) buffers).aux.2 ≤
        (feed crcEnabled (metered cb) st (aux, 0) buffers).st.image.blkSz.toNat *
          (feed crcEnabled (metered cb) st (aux, 0) buffers).st.image.totalBlks.toNat ∧
      (feed crcEnabled (metered cb) st (aux, 0) buffers).aux.2 ≤ maxUnsparseSize.toNat := by
  have start : Bounded maxUnsparseSize st 0 := by
    rw [init_ok init]
    exact ⟨rfl, fun _ => rfl, fun other => absurd rfl other, fun other => absurd rfl other⟩
  exact feed_within buffers start kept

theorem unsparse_output_bounded_small : tegrablSparseInitUnsparseState 64 true = .ok freshState ∧
      PromiseKept false recorder freshState ([], 0) smallPieces ∧
      (feed false (metered recorder) freshState ([], 0) smallPieces).aux.2 ≤ 64 := by
  have init : tegrablSparseInitUnsparseState 64 true = .ok freshState := rfl
  have kept : PromiseKept false recorder freshState ([], 0) smallPieces := by decide +kernel
  exact ⟨init, kept, (unsparse_output_bounded false recorder 64 freshState [] smallPieces init kept).2⟩

def overfullImage : List UInt8 := headerImage 1 1 ++ chunkImage chunkTypeDontCare 2 12

/-- The number of blocks of a chunk is not held against that of the image. -/
theorem unsparse_output_bounded_overfull :
    ¬ ∀ (crcEnabled : Bool) (cb : Callbacks (List Output)) (maxUnsparseSize : UInt64)
      (st : UnsparseState) (aux : List Output) (buffers : List (List UInt8)),
      tegrablSparseInitUnsparseState maxUnsparseSize true = .ok st →
      (feed crcEnabled (metered cb) st (aux, 0) buffers).aux.2 ≤
          (feed crcEnabled (metered cb) st (aux, 0) buffers).st.image.blkSz.toNat *
            (feed crcEnabled (metered cb) st (aux, 0) buffers).st.image.totalBlks.toNat ∧
        (feed crcEnabled (metered cb) st (aux, 0) buffers).aux.2 ≤ maxUnsparseSize.toNat := by
  intro claim
  have limit := (claim false recorder 4 (.initial 4 true) [] [overfullImage] rfl).2
  have sought : (feed false (metered recorder) (.initial 4 true) ([], 0) [overfullImage]).aux.2 = 8 := by
    decide +kernel
  rw [sought] at limit
  exact absurd limit (by decide)

end

section
variable {σ : Type} {R : σ → σ → Prop} {crcEnabled : Bool} {cb : Callbacks σ}

structure Callbacks.Keep (cb : Callbacks σ) (R : σ → σ → Prop) : Prop where
  writer : ∀ bytes aux, R aux (cb.writer bytes aux).2
  seeker : ∀ size aux, R aux (cb.seeker size aux).2

def left : Iteration (Work σ) UInt8 (Halt σ) → σ
  | .next w _ => w.aux
  | .halt e => e.work.aux

variable {w : Work σ}

theorem left_takePart {into : UnsparseState → List UInt8 → UnsparseState}
    {complete : Work σ → List UInt8 → Iteration (Work σ) UInt8 (Halt σ)}
    (same : ∀ w rest, left (complete w rest) = w.aux) (input : List UInt8) :
    left (takePart into complete w input) = w.aux := by
  unfold takePart
  dsimp only
  split
  · rfl
  · rw [same]

theorem left_imageComplete (w : Work σ) (rest : List UInt8) : left (imageComplete w rest) = w.aux := by
  unfold imageComplete
  split <;> rfl

theorem left_chunkComplete (w : Work σ) (rest : List UInt8) : left (chunkComplete w rest) = w.aux := by
  unfold chunkComplete
  split
  · rfl
  · dsimp only
    split <;> rfl

theorem left_partialChunkHeader (w : Work σ) (input : List UInt8) : left (partialChunkHeader w input) = w.aux := by
  unfold partialChunkHeader
  split
  · rfl
  · exact left_takePart left_chunkComplete input

theorem keep_raw (keep : cb.Keep R) (w : Work σ) (input : List UInt8) :
    R w.aux (left (partialChunkRaw crcEnabled cb w input)) := by
  have wrote := keep.writer (input.take w.st.remaining) w.aux
  unfold partialChunkRaw
  dsimp only
  split
  · rename_i written
    rwa [written] at wrote
  · rename_i written
    rwa [written] at wrote

theorem keep_dontCare (keep : cb.Keep R) (w : Work σ) (input : List UInt8) :
    R w.aux (left (partialChunkDontCare cb w input)) := by
  have sought := keep.seeker w.st.remaining w.aux
  unfold partialChunkDontCare
  split
  · rename_i moved
    rwa [moved] at sought
  · rename_i moved
    rwa [moved] at sought

variable [IsPreorder σ R]

variable (crcEnabled) in
theorem keep_fillWrites (keep : cb.Keep R) (w : Work σ) :
    (∀ done, fillWrites crcEnabled cb w = .ok done → R w.aux done.aux) ∧
      ∀ e, fillWrites crcEnabled cb w = .error e → R w.aux e.work.aux := by
  induction w using fillWrites.induct crcEnabled cb with
  | case1 w ended =>
    rw [fillWrites, if_pos ended]
    constructor
    · intro done written
      cases written
      exact refl_of R _
    · intro e failed
      cases failed
  | case2 w more size bytes e aux failed =>
    have wrote := keep.writer bytes w.aux
    rw [failed] at wrote
    rw [fillWrites, if_neg more]
    dsimp only
    rw [failed]
    constructor
    · intro done written
      cases written
    · intro e' ended
      cases ended
      exact wrote
  | case3 w more size bytes st aux passed ih =>
    have wrote := keep.writer bytes w.aux
    rw [passed] at wrote
    rw [fillWrites, if_neg more]
    dsimp only
    rw [passed]
    obtain ⟨ends, halts⟩ := ih
    constructor
    · intro done written
      exact trans_of R wrote (ends done written)
    · intro e failed
      exact trans_of R wrote (halts e failed)

theorem keep_fill (keep : cb.Keep R) (w : Work σ) (input : List UInt8) :
    R w.aux (left (partialChunkFill crcEnabled cb w input)) := by
  have complete (st : UnsparseState) (rest : List UInt8) :
      R w.aux (left (fillComplete crcEnabled cb { w with st := st } rest)) := by
    obtain ⟨ends, halts⟩ := keep_fillWrites crcEnabled keep { w with st := st }
    unfold fillComplete
    split
    · rename_i e failed
      exact halts e failed
    · rename_i done written
      exact ends done written
  unfold partialChunkFill takeFill
  dsimp only
  split
  · split
    · exact refl_of R _
    · exact complete _ _
  · exact complete w.st input

theorem left_crc (w : Work σ) (input : List UInt8) : left (partialChunkCrc crcEnabled w input) = w.aux := by
  unfold partialChunkCrc takeCrc
  split
  · split <;> rfl
  · rfl

variable (crcEnabled) in
theorem keep_iteration (keep : cb.Keep R) (w : Work σ) (input : List UInt8) :
    R w.aux (left (iteration crcEnabled cb w input)) := by
  unfold iteration
  split
  · exact (left_takePart left_imageComplete input) ▸ refl_of R _
  · exact (left_partialChunkHeader w input) ▸ refl_of R _
  · exact keep_raw keep w input
  · exact keep_fill keep w input
  · exact keep_dontCare keep w input
  · exact (left_crc w input) ▸ refl_of R _

variable (crcEnabled) in
theorem keep_unsparse (keep : cb.Keep R) (st : UnsparseState) (buff : List UInt8) (aux : σ) :
    R aux (tegrablSparseUnsparse crcEnabled cb st buff aux).aux := by
  obtain ⟨ends, halts⟩ := Consumer.loop_along (c := machine crcEnabled cb)
    (P := fun w _ => R aux w.aux) (Q := fun _ _ => True) (R := fun e => R aux e.work.aux)
    (fun w input w' rest _ now _ taken => by
      have step := keep_iteration crcEnabled keep w input
      rw [show iteration crcEnabled cb w input = .next w' rest from taken] at step
      exact trans_of R now step)
    (fun w input e now _ taken => by
      have step := keep_iteration crcEnabled keep w input
      rw [show iteration crcEnabled cb w input = .halt e from taken] at step
      exact trans_of R now step)
    ⟨st, none, aux⟩ buff (refl_of R aux) fun _ _ _ => trivial
  unfold tegrablSparseUnsparse
  split
  · exact refl_of R _
  split
  · exact refl_of R _
  cases ended : (machine crcEnabled cb).loop ⟨st, none, aux⟩ buff with
  | ok w => exact ends w ended
  | error e =>
    have halted := halts e ended
    cases e with
    | fail e w => exact halted
    | overrun w => exact halted
    | hang w => exact halted

end

end Cboot.Sparse
