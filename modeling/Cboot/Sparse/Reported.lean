import Cboot.Sparse.Decode

/-!
The pass that compares the CRC does not leave the loop.
-/

namespace Cboot.Sparse
open Lib Utils

def Piece.written : Piece → List UInt8
  | .raw bytes => bytes
  | .fill value size => pattern value size
  | .skip _ => []
  | .crc _ => []

def WrongCrc (pieces : List Piece) : Prop := ∃ before value after, pieces = before ++ .crc value :: after ∧
  UInt32.ofNat (ofLeDigits value) ≠ tegrablUtilsCrc32 0 (before.flatMap Piece.written)

section
variable {σ : Type} {cb : Callbacks σ}
variable {w w' w₁ : Work σ} {input rest buff : List UInt8} {st : UnsparseState} {aux : σ}

def Differs (st : UnsparseState) : Prop :=
  st.state = .crc ∧ 4 ≤ st.offset ∧ UInt32.ofNat (ofLeDigits st.imageCrc) ≠ st.computedCrc

inductive FillRefused (cb : Callbacks σ) (value : List UInt8) : Nat → σ → Prop
  | here {remaining : Nat} {aux : σ} : remaining ≠ 0 →
      (cb.writer ((fillBuffer value).take (min remaining maxLocalBuffer)) aux).1 ≠ none →
      FillRefused cb value remaining aux
  | later {remaining : Nat} {aux aux' : σ} : remaining ≠ 0 →
      cb.writer ((fillBuffer value).take (min remaining maxLocalBuffer)) aux = (none, aux') →
      FillRefused cb value (remaining - min remaining maxLocalBuffer) aux' → FillRefused cb value remaining aux

def ImageRefused (st : UnsparseState) : Prop := tegrablSparseValidateHeader st.image st.maxUnsparseSize ≠ none

def ChunkRefused (st : UnsparseState) : Prop :=
  tegrablSparseValidateChunkHeader st.image st.chunk ≠ none ∨ st.image.totalChunks.toNat < st.chunksProcessed + 1

def Refuses (cb : Callbacks σ) (w : Work σ) (input : List UInt8) : Prop :=
  match w.st.state with
  | .imageHeader =>
    (w.st.imageBytes (input.take w.st.remaining)).remaining = 0 ∧
      ImageRefused (w.st.imageBytes (input.take w.st.remaining))
  | .chunkHeader =>
    ¬ (w.st.offset < chunkHeaderBytes ∧ chunkHeaderBytes < w.st.offset + (input.take w.st.remaining).length) ∧
      (w.st.chunkBytes (input.take w.st.remaining)).remaining = 0 ∧
      ChunkRefused (w.st.chunkBytes (input.take w.st.remaining))
  | .raw => (cb.writer (input.take w.st.remaining) w.aux).1 ≠ none
  | .fill =>
    if w.st.offset < 4 then
      4 ≤ (w.st.fillBytes (input.take 4)).offset ∧
        FillRefused cb (w.st.fillBytes (input.take 4)).fillValue w.st.remaining w.aux
    else FillRefused cb w.st.fillValue w.st.remaining w.aux
  | .dontCare => (cb.seeker w.st.remaining w.aux).1 ≠ none
  | .crc => False

def Notices (cb : Callbacks σ) (st : UnsparseState) (aux : σ) (buff : List UInt8) : Prop :=
  buff = [] ∨ st.callbacks = false ∨
    ∃ w rest, (machine true cb).Visits ⟨st, none, aux⟩ buff w rest ∧ (rest ≠ [] ∨ goesOn w) ∧
      (Refuses cb w rest ∨ Differs w.st ∧ rest.length < chunkHeaderBytes)

theorem takePart_fails {into : UnsparseState → List UInt8 → UnsparseState}
    {complete : Work σ → List UInt8 → Iteration (Work σ) UInt8 (Halt σ)} {Bad : UnsparseState → Prop}
    (completes : ∀ w rest, (∃ e w', complete w rest = .halt (.fail e w')) ↔ Bad w.st) :
    (∃ e w', takePart into complete w input = .halt (.fail e w')) ↔
      (into w.st (input.take w.st.remaining)).remaining = 0 ∧ Bad (into w.st (input.take w.st.remaining)) := by
  unfold takePart
  dsimp only
  split
  · rename_i short
    constructor
    · rintro ⟨e, w', failed⟩
      cases failed
    · exact fun found => absurd found.1 short
  · rename_i full
    rw [completes]
    exact (and_iff_right (not_not.mp full)).symm

theorem imageComplete_fails (w : Work σ) (rest : List UInt8) :
    (∃ e w', imageComplete w rest = .halt (.fail e w')) ↔ ImageRefused w.st := by
  unfold imageComplete ImageRefused
  split
  · rename_i e refused
    rw [refused]
    exact iff_of_true ⟨e, w, rfl⟩ (Option.some_ne_none e)
  · rename_i valid
    refine iff_of_false ?_ (not_not_intro valid)
    rintro ⟨e, w', failed⟩
    cases failed

theorem chunkComplete_fails (w : Work σ) (rest : List UInt8) :
    (∃ e w', chunkComplete w rest = .halt (.fail e w')) ↔ ChunkRefused w.st := by
  unfold chunkComplete ChunkRefused
  split
  · rename_i e refused
    rw [refused]
    exact iff_of_true ⟨e, w, rfl⟩ (.inl (Option.some_ne_none e))
  · rename_i valid
    dsimp only
    split
    · rename_i many
      exact iff_of_true ⟨_, _, rfl⟩ (.inr many)
    · rename_i few
      refine iff_of_false ?_ (not_or_intro (not_not_intro valid) few)
      rintro ⟨e, w', failed⟩
      cases failed

theorem fillWrites_fails (w : Work σ) : (∃ e w', fillWrites true cb w = .error (.fail e w')) ↔
    FillRefused cb w.st.fillValue w.st.remaining w.aux := by
  induction w using fillWrites.induct true cb with
  | case1 w ended =>
    rw [fillWrites, if_pos ended]
    refine iff_of_false ?_ fun refused => ?_
    · rintro ⟨e, w', failed⟩
      cases failed
    · cases refused with
      | here more _ => exact more ended
      | later more _ _ => exact more ended
  | case2 w more size bytes e aux failed =>
    rw [fillWrites, if_neg more]
    dsimp only
    rw [failed]
    refine iff_of_true ⟨_, _, rfl⟩ (.here more ?_)
    change (cb.writer bytes w.aux).1 ≠ none
    rw [failed]
    exact Option.some_ne_none e
  | case3 w more size bytes st aux passed ih =>
    rw [fillWrites, if_neg more]
    dsimp only
    rw [passed]
    have value : st.fillValue = w.st.fillValue := rfl
    rw [value] at ih
    refine Iff.trans ih ⟨fun refused => .later more passed refused, fun refused => ?_⟩
    cases refused with
    | here _ refused =>
      change (cb.writer bytes w.aux).1 ≠ none at refused
      rw [passed] at refused
      exact absurd rfl refused
    | later _ given refused =>
      cases passed.symm.trans given
      exact refused

theorem fillComplete_fails (w : Work σ) (rest : List UInt8) :
    (∃ e w', fillComplete true cb w rest = .halt (.fail e w')) ↔
      FillRefused cb w.st.fillValue w.st.remaining w.aux := by
  rw [← fillWrites_fails, fillComplete]
  cases written : fillWrites true cb w with
  | error h => simp
  | ok done => simp

theorem chunkHeader_fails : (∃ e w', partialChunkHeader w input = .halt (.fail e w')) ↔
    ¬ (w.st.offset < chunkHeaderBytes ∧ chunkHeaderBytes < w.st.offset + (input.take w.st.remaining).length) ∧
      (w.st.chunkBytes (input.take w.st.remaining)).remaining = 0 ∧
      ChunkRefused (w.st.chunkBytes (input.take w.st.remaining)) := by
  unfold partialChunkHeader
  split
  · rename_i overruns
    refine iff_of_false ?_ fun found => found.1 overruns
    rintro ⟨e, w', failed⟩
    cases failed
  · rename_i inside
    rw [and_iff_right inside]
    exact takePart_fails chunkComplete_fails

theorem raw_fails : (∃ e w', partialChunkRaw true cb w input = .halt (.fail e w')) ↔
    (cb.writer (input.take w.st.remaining) w.aux).1 ≠ none := by
  unfold partialChunkRaw
  rcases wrote : cb.writer (input.take w.st.remaining) w.aux with ⟨answer, aux⟩
  cases answer with
  | none => simp [wrote]
  | some e => simp [wrote]

theorem fill_fails : (∃ e w', partialChunkFill true cb w input = .halt (.fail e w')) ↔
    if w.st.offset < 4 then 4 ≤ (w.st.fillBytes (input.take 4)).offset ∧
        FillRefused cb (w.st.fillBytes (input.take 4)).fillValue w.st.remaining w.aux
    else FillRefused cb w.st.fillValue w.st.remaining w.aux := by
  unfold partialChunkFill takeFill
  split
  · dsimp only
    split
    · rename_i short
      refine iff_of_false ?_ fun found => absurd short (Nat.not_lt.mpr found.1)
      rintro ⟨e, w', failed⟩
      cases failed
    · rename_i whole
      rw [and_iff_right (Nat.not_lt.mp whole)]
      exact fillComplete_fails _ _
  · exact fillComplete_fails w input

theorem dontCare_fails : (∃ e w', partialChunkDontCare cb w input = .halt (.fail e w')) ↔
    (cb.seeker w.st.remaining w.aux).1 ≠ none := by
  unfold partialChunkDontCare
  rcases sought : cb.seeker w.st.remaining w.aux with ⟨answer, aux⟩
  cases answer with
  | none => simp
  | some e => simp

theorem crc_fails : ¬ ∃ e w', partialChunkCrc true w input = .halt (.fail e w') := by
  rintro ⟨e, w', failed⟩
  unfold partialChunkCrc takeCrc at failed
  rw [if_pos rfl] at failed
  split at failed
  · cases failed
  · cases failed

theorem iteration_fails : (∃ e w', iteration true cb w input = .halt (.fail e w')) ↔ Refuses cb w input := by
  unfold iteration Refuses
  cases w.st.state with
  | imageHeader => exact takePart_fails imageComplete_fails
  | chunkHeader => exact chunkHeader_fails
  | raw => exact raw_fails
  | fill => exact fill_fails
  | dontCare => exact dontCare_fails
  | crc => exact iff_of_false crc_fails not_false

def Pending (w : Work σ) : Prop := w.error ≠ none → w.st.state = .chunkHeader

theorem crcComplete_pass (stage : w.st.state = .crc) (whole : 4 ≤ w.st.offset) :
    iteration true cb w input = crcComplete w input := by
  rw [iteration, stage]
  exact if_neg (Nat.not_lt.mpr whole)

theorem no_error (pending : Pending w) {stage : Stage} (here : w.st.state = stage) (other : stage ≠ .chunkHeader) :
    w.error = none := by
  by_contra some
  exact other (here.symm.trans (pending some))

theorem imageHeader_error (pending : Pending w) (stage : w.st.state = .imageHeader)
    (taken : partialImageHeader w input = .next w' rest) : w'.error = none := by
  rcases takePart_next taken with ⟨-, -, rfl⟩ | ⟨-, ended⟩
  · exact no_error pending stage (by decide)
  · obtain ⟨-, -, rfl⟩ := imageComplete_next ended
    rfl

theorem chunkHeader_error (stage : w.st.state = .chunkHeader) (taken : takeChunkHeader w input = .next w' rest)
    (error : w'.error ≠ none) : w'.st.state = .chunkHeader ∧ w.error ≠ none ∧ input.length < w.st.remaining := by
  rcases takePart_next taken with ⟨short, -, rfl⟩ | ⟨-, ended⟩
  · have more : w.st.remaining - (input.take w.st.remaining).length ≠ 0 := short
    rw [List.length_take] at more
    exact ⟨stage, error, by omega⟩
  · obtain ⟨-, -, -, rfl⟩ := chunkComplete_next ended
    exact absurd rfl error

theorem fill_error (pending : Pending w) (stage : w.st.state = .fill)
    (taken : partialChunkFill true cb w input = .next w' rest) : w'.error = none := by
  have before := no_error pending stage (by decide)
  rcases takeFill_next true cb taken with ⟨-, -, rfl⟩ | ⟨w₁, same, done, written, rfl⟩
  · exact before
  · have start : w₁.error = none := by
      rcases same with ⟨-, rfl, -⟩ | ⟨-, rfl, -⟩
      · exact before
      · exact before
    rcases (fillWrites_ok written).2 with none | kept
    · exact none
    · exact kept.trans start

theorem crc_error (pending : Pending w) (stage : w.st.state = .crc)
    (taken : partialChunkCrc true w input = .next w' rest) (error : w'.error ≠ none) :
    Differs w.st ∧ rest = input ∧ w'.st = w.st.nextChunk := by
  have before := no_error pending stage (by decide)
  by_cases missing : w.st.offset < 4
  · have step : partialChunkCrc true w input = .next { w with st := w.st.crcBytes (input.take 4) } (input.drop 4) :=
      if_pos missing
    rw [step] at taken
    cases taken
    exact absurd before error
  · have step : partialChunkCrc true w input = crcComplete w input := if_neg missing
    rw [step, crcComplete] at taken
    cases taken
    refine ⟨⟨stage, Nat.not_lt.mp missing, fun same => error ?_⟩, rfl, rfl⟩
    rw [if_neg (not_not_intro same), before]

theorem error_of_pass (pending : Pending w) (taken : iteration true cb w input = .next w' rest)
    (error : w'.error ≠ none) : w'.st.state = .chunkHeader ∧ ((w.error ≠ none ∧ input.length < w.st.remaining) ∨
        Differs w.st ∧ rest = input ∧ w'.st.remaining = chunkHeaderBytes) := by
  unfold iteration at taken
  cases stage : w.st.state with
  | imageHeader =>
    rw [stage] at taken
    exact absurd (imageHeader_error pending stage taken) error
  | chunkHeader =>
    rw [stage] at taken
    obtain ⟨still, before, short⟩ := chunkHeader_error stage (partialChunkHeader_next taken) error
    exact ⟨still, .inl ⟨before, short⟩⟩
  | raw =>
    rw [stage] at taken
    exact absurd (partialChunkRaw_next true cb taken).2.1 error
  | fill =>
    rw [stage] at taken
    exact absurd (fill_error pending stage taken) error
  | dontCare =>
    rw [stage] at taken
    exact absurd (partialChunkDontCare_next cb taken).2.2 error
  | crc =>
    rw [stage] at taken
    obtain ⟨differs, same, after⟩ := crc_error pending stage taken error
    rw [after]
    exact ⟨rfl, .inr ⟨differs, same, rfl⟩⟩

theorem error_of_loop (w : Work σ) (input : List UInt8) (pending : Pending w)
    (ended : (machine true cb).loop w input = .ok w') (error : w'.error ≠ none) :
    (w.error ≠ none ∧ (input = [] ∨ input.length < w.st.remaining)) ∨
      ∃ w₁ rest, (machine true cb).Visits w input w₁ rest ∧ rest ≠ [] ∧ Differs w₁.st ∧
        rest.length < chunkHeaderBytes := by
  induction w, input using (machine true cb).loop_induction with
  | done w stops =>
    rw [Consumer.loop_done stops] at ended
    cases ended
    exact .inl ⟨error, .inl rfl⟩
  | halt w input e going taken =>
    rw [Consumer.loop_halt going taken] at ended
    cases ended
  | next w input w₁ rest going taken ih =>
    rw [Consumer.loop_next going taken] at ended
    have next : Pending w₁ := fun there => (error_of_pass pending taken there).1
    rcases ih next ended with ⟨there, few⟩ | ⟨w₂, rest₂, visits, found⟩
    · obtain ⟨-, ⟨before, short⟩ | ⟨differs, rfl, full⟩⟩ := error_of_pass pending taken there
      · exact .inl ⟨before, .inr short⟩
      · right
        have more : rest ≠ [] := going.resolve_right fun free => by
          exact Stage.noConfusion (differs.1.symm.trans (of_decide_eq_true free))
        exact ⟨w, rest, .here w rest, more, differs, full ▸ few.resolve_left more⟩
    · exact .inr ⟨w₂, rest₂, .next going taken visits, found⟩

theorem loop_of_differs (cb : Callbacks σ) (differs : Differs w.st) (more : input ≠ []) (short : input.length < chunkHeaderBytes) :
    ∃ w', (machine true cb).loop w input = .ok w' ∧ w'.error ≠ none := by
  obtain ⟨stage, whole, wrong⟩ := differs
  have compares : (machine true cb).body w input =
      .next { w with st := w.st.nextChunk, error := some mismatch } input := by
    change iteration true cb w input = _
    rw [crcComplete_pass stage whole, crcComplete]
    exact congrArg (Iteration.next · input) (congrArg (Work.mk _ · w.aux) (if_pos wrong))
  -- The header of the next chunk does not get whole.
  have left : (w.st.nextChunk.chunkBytes (input.take chunkHeaderBytes)).remaining ≠ 0 := by
    change chunkHeaderBytes - (input.take chunkHeaderBytes).length ≠ 0
    rw [List.length_take]
    omega
  have waits : (machine true cb).body { w with st := w.st.nextChunk, error := some mismatch } input = .next { w with
        st := w.st.nextChunk.chunkBytes (input.take chunkHeaderBytes)
        error := some mismatch } (input.drop chunkHeaderBytes) := by
    change partialChunkHeader _ input = _
    rw [partialChunkHeader, if_neg, takeChunkHeader, takePart]
    · exact if_pos left
    · change ¬ (0 < chunkHeaderBytes ∧ chunkHeaderBytes < 0 + (input.take chunkHeaderBytes).length)
      rw [List.length_take]
      omega
  rw [Consumer.loop_next (.inl more) compares, Consumer.loop_next (.inl more) waits,
    List.drop_eq_nil_of_le (Nat.le_of_lt short)]
  refine ⟨_, Consumer.loop_done ?_, Option.some_ne_none mismatch⟩
  intro free
  have stage : Stage.chunkHeader = .dontCare := of_decide_eq_true free
  cases stage

theorem unsparse_error_iff : (∃ e, (tegrablSparseUnsparse true cb st buff aux).outcome = .returns (some e)) ↔
    Notices cb st aux buff := by
  by_cases empty : buff = []
  · rw [tegrablSparseUnsparse, if_pos empty]
    simp [Notices, empty]
  by_cases set : st.callbacks = true
  · rw [tegrablSparseUnsparse, if_neg empty, if_neg (not_not_intro set)]
    have callbacks : ¬ st.callbacks = false := by
      rw [set]
      decide
    rw [Notices, or_iff_right empty, or_iff_right callbacks]
    constructor
    · intro returned
      obtain ⟨e, returned⟩ := returned
      cases ended : (machine true cb).loop ⟨st, none, aux⟩ buff with
      | ok w =>
        rw [ended] at returned
        have error : w.error ≠ none := by
          intro none
          rw [show w.error = some e from Outcome.returns.inj returned] at none
          cases none
        rcases error_of_loop _ buff (fun some => absurd rfl some) ended error with ⟨some, -⟩ | ⟨w₁, rest, visits, more, found⟩
        · exact absurd rfl some
        · exact ⟨w₁, rest, visits, .inl more, .inr found⟩
      | error h =>
        rw [ended] at returned
        obtain ⟨w₁, rest, visits, going, halted⟩ := Consumer.exists_of_loop_error _ _ ended
        cases h with
        | fail e' w' => exact ⟨w₁, rest, visits, going, .inl (iteration_fails.mp ⟨e', w', halted⟩)⟩
        | overrun w' => cases returned
        | hang w' => cases returned
    · intro noticed
      obtain ⟨w₁, rest, visits, going, refused | ⟨differs, short⟩⟩ := noticed
      · obtain ⟨e, w', halted⟩ := iteration_fails.mpr refused
        have ended : (machine true cb).loop ⟨st, none, aux⟩ buff = .error (.fail e w') := by
          rw [Consumer.loop_of_visits visits]
          exact Consumer.loop_halt going halted
        rw [ended]
        exact ⟨e, rfl⟩
      · have more : rest ≠ [] := going.resolve_right fun free =>
          Stage.noConfusion (differs.1.symm.trans (of_decide_eq_true free))
        obtain ⟨w', ended, error⟩ := loop_of_differs cb differs more short
        obtain ⟨e, some⟩ := Option.ne_none_iff_exists'.mp error
        rw [Consumer.loop_of_visits visits, ended]
        exact ⟨e, congrArg Outcome.returns some⟩
  · rw [tegrablSparseUnsparse, if_neg empty, if_pos set]
    have unset : st.callbacks = false := Bool.eq_false_iff.mpr set
    simp [Notices, unset]

theorem feed_cons_none (ended : (tegrablSparseUnsparse true cb st buff aux).outcome = .returns none)
    (buffers : List (List UInt8)) : feed true cb st aux (buff :: buffers) =
      feed true cb (tegrablSparseUnsparse true cb st buff aux).st (tegrablSparseUnsparse true cb st buff aux).aux
        buffers := by
  rw [feed]
  exact if_pos ended

theorem feed_cons_stops (ended : (tegrablSparseUnsparse true cb st buff aux).outcome ≠ .returns none)
    (buffers : List (List UInt8)) :
    feed true cb st aux (buff :: buffers) = tegrablSparseUnsparse true cb st buff aux := by
  rw [feed]
  exact if_neg ended

/-- At least one of the calls that a stream is fed with returns an error, exactly when one of them notices it after
calls that succeed. -/
theorem feed_error_iff (cb : Callbacks σ) (st : UnsparseState) (aux : σ) (buffers : List (List UInt8)) :
    (∃ e, (feed true cb st aux buffers).outcome = .returns (some e)) ↔
      ∃ before buff after, buffers = before ++ buff :: after ∧ (feed true cb st aux before).outcome = .returns none ∧
        Notices cb (feed true cb st aux before).st (feed true cb st aux before).aux buff := by
  induction buffers generalizing st aux with
  | nil =>
    refine iff_of_false ?_ ?_
    · intro returned
      obtain ⟨e, returned⟩ := returned
      cases returned
    · intro found
      obtain ⟨before, buff, after, split, -⟩ := found
      exact absurd (congrArg List.length split) (by simp)
  | cons buff buffers ih =>
    by_cases ended : (tegrablSparseUnsparse true cb st buff aux).outcome = .returns none
    · rw [feed_cons_none ended, ih]
      constructor
      · intro found
        obtain ⟨before, second, after, split, passed, noticed⟩ := found
        refine ⟨buff :: before, second, after, by rw [split]; rfl, ?_⟩
        rw [feed_cons_none ended]
        exact ⟨passed, noticed⟩
      · intro found
        obtain ⟨before, second, after, split, passed, noticed⟩ := found
        cases before with
        | nil =>
          obtain ⟨rfl, -⟩ := List.cons.inj split
          obtain ⟨e, returned⟩ := unsparse_error_iff.mpr noticed
          cases returned.symm.trans ended
        | cons first before =>
          obtain ⟨rfl, same⟩ := List.cons.inj split
          rw [feed_cons_none ended] at passed noticed
          exact ⟨before, second, after, same, passed, noticed⟩
    · rw [feed_cons_stops ended, unsparse_error_iff]
      constructor
      · exact fun noticed => ⟨[], buff, buffers, rfl, rfl, noticed⟩
      · intro found
        obtain ⟨before, second, after, split, passed, noticed⟩ := found
        cases before with
        | nil =>
          obtain ⟨rfl, -⟩ := List.cons.inj split
          exact noticed
        | cons first before =>
          obtain ⟨rfl, -⟩ := List.cons.inj split
          rw [feed_cons_stops ended] at passed
          exact absurd passed ended

end

def wrongCrcImage : List UInt8 :=
  headerImage 4 2 ++ chunkImage chunkTypeCrc 0 16 ++ [1, 0, 0, 0] ++ chunkImage chunkTypeDontCare 1 12

/-- The header of the chunk behind it is valid, so the error is gone. -/
theorem wrong_crc_unreported :
    ¬ ∀ (cb : Callbacks (List Output)) (maxUnsparseSize : UInt64) (st : UnsparseState) (aux : List Output)
      (buffers : List (List UInt8)) (pieces : List Piece),
      tegrablSparseInitUnsparseState maxUnsparseSize true = .ok st → [] ∉ buffers →
      parseImage buffers.flatten = some pieces → WrongCrc pieces →
      ∃ e, (feed true cb st aux buffers).outcome = .returns (some e) := by
  intro claim
  have parsed : parseImage wrongCrcImage = some [.crc [1, 0, 0, 0], .skip 4] := by decide
  have wrong : WrongCrc [.crc [1, 0, 0, 0], .skip 4] := ⟨[], [1, 0, 0, 0], [.skip 4], rfl, by decide⟩
  obtain ⟨e, returned⟩ := claim recorder 64 freshState [] [wrongCrcImage] _ rfl (by decide) parsed wrong
  have silent : (feed true recorder freshState [] [wrongCrcImage]).outcome = .returns none := by decide +kernel
  cases returned.symm.trans silent

end Cboot.Sparse
