import Cboot.Lib.Runs
import Cboot.Sparse.Stream

/-!
Each pass of the loop takes bytes from the front of what is left of the buffer and may copy them into a field of the
state, at the place where the bytes before them ended.
-/

namespace Cboot.Sparse
open Lib

inductive Field where
  | imageHeader
  | chunkHeader
  | fillValue
  | imageCrc
  deriving DecidableEq, Repr

def Field.bytes : Field → Nat
  | .imageHeader => imageHeaderBytes
  | .chunkHeader => chunkHeaderBytes
  | .fillValue => 4
  | .imageCrc => 4

/-- A `memcpy` from the buffer to a field, at an offset. -/
structure Copy where
  field : Field
  offset : Nat
  size : Nat
  deriving DecidableEq, Repr

def Copy.Inside (c : Copy) : Prop := c.offset + c.size ≤ c.field.bytes

section
variable {σ : Type} (crcEnabled : Bool) (cb : Callbacks σ)

/-- What a pass copies when `length` bytes are left. -/
def copyOf (st : UnsparseState) (length : Nat) : Option Copy :=
  match st.state with
  | .imageHeader => some ⟨.imageHeader, st.offset, min length st.remaining⟩
  | .chunkHeader =>
    if st.offset < chunkHeaderBytes then some ⟨.chunkHeader, st.offset, min length st.remaining⟩ else none
  | .fill => if st.offset < 4 then some ⟨.fillValue, st.offset, min length 4⟩ else none
  | .crc => if crcEnabled ∧ st.offset < 4 then some ⟨.imageCrc, st.offset, min length 4⟩ else none
  | .raw => none
  | .dontCare => none

def bytesRead (st : UnsparseState) (length : Nat) : Nat :=
  if st.state = .raw then min length st.remaining else ((copyOf crcEnabled st length).map (·.size)).getD 0

structure PassInside (buff : List UInt8) (w : Work σ) (rest : List UInt8) : Prop where
  left : rest <:+ buff
  reads : bytesRead crcEnabled w.st rest.length ≤ rest.length
  copies : ∀ c, copyOf crcEnabled w.st rest.length = some c → c.Inside

def Loops (st : UnsparseState) (buff : List UInt8) : Prop := buff ≠ [] ∧ st.callbacks = true

structure Contained (s : UnsparseState × σ) (buff : List UInt8) : Prop where
  returns : (tegrablSparseUnsparse crcEnabled cb s.1 buff s.2).outcome ≠ .hangs
  inside : Loops s.1 buff → (machine crcEnabled cb).Along (PassInside crcEnabled buff) ⟨s.1, none, s.2⟩ buff

def completed (st : UnsparseState) (buff : List UInt8) : UnsparseState := st.imageBytes (buff.take st.remaining)

/-- The call before it left no field that this one overruns, the first chunk header fits, and no CRC is met that is not
checked. -/
structure Suits (s : UnsparseState × σ) (buff : List UInt8) : Prop where
  image : s.1.state = .imageHeader →
    tegrablSparseValidateHeader (completed s.1 buff).image (completed s.1 buff).maxUnsparseSize = none →
      min (buff.length - s.1.remaining) (completed s.1 buff).image.chunkHdrSz.toNat ≤ chunkHeaderBytes
  chunk : s.1.state = .chunkHeader → s.1.offset < chunkHeaderBytes →
    s.1.offset + min buff.length s.1.remaining ≤ chunkHeaderBytes
  word : s.1.state = .fill ∨ s.1.state = .crc ∧ crcEnabled → s.1.offset < 4 → s.1.offset + min buff.length 4 ≤ 4
  crc : crcEnabled ∨ ∀ w rest, (machine crcEnabled cb).Visits ⟨s.1, none, s.2⟩ buff w rest →
    w.st.state = .crc → rest = []

def call (s : UnsparseState × σ) (buff : List UInt8) : UnsparseState × σ :=
  let result := tegrablSparseUnsparse crcEnabled cb s.1 buff s.2
  (result.st, result.aux)

end

section
variable {σ : Type} {crcEnabled : Bool} {cb : Callbacks σ}
variable {w w' : Work σ} {input rest buff : List UInt8} {st : UnsparseState}

def Aligned (st : UnsparseState) : Prop := st.state = .imageHeader → st.offset + st.remaining = imageHeaderBytes

def CopyFits (crcEnabled : Bool) (st : UnsparseState) (length : Nat) : Prop :=
  ∀ c, copyOf crcEnabled st length = some c → c.Inside

theorem bytesRead_le (st : UnsparseState) (length : Nat) : bytesRead crcEnabled st length ≤ length := by
  unfold bytesRead
  split
  · exact Nat.min_le_left _ _
  · unfold copyOf
    split
    · exact Nat.min_le_left _ _
    · split
      · exact Nat.min_le_left _ _
      · exact Nat.zero_le _
    · split
      · exact Nat.min_le_left _ _
      · exact Nat.zero_le _
    · split
      · exact Nat.min_le_left _ _
      · exact Nat.zero_le _
    · exact Nat.zero_le _
    · exact Nat.zero_le _

theorem copyFits_image (crcEnabled : Bool) (stage : st.state = .imageHeader) (aligned : Aligned st) (length : Nat) :
    CopyFits crcEnabled st length := by
  intro c copied
  unfold copyOf at copied
  rw [stage] at copied
  cases copied
  have whole := aligned stage
  simp only [Copy.Inside, Field.bytes]
  omega

theorem copyFits_chunk (stage : st.state = .chunkHeader) (length : Nat) : CopyFits crcEnabled st length ↔
    (st.offset < chunkHeaderBytes → st.offset + min length st.remaining ≤ chunkHeaderBytes) := by
  unfold CopyFits copyOf
  rw [stage]
  by_cases inside : st.offset < chunkHeaderBytes
  · simp [inside, Copy.Inside, Field.bytes]
  · simp [inside]

theorem copyFits_word (stage : st.state = .fill ∨ st.state = .crc ∧ crcEnabled) (length : Nat) :
    CopyFits crcEnabled st length ↔ (st.offset < 4 → st.offset + min length 4 ≤ 4) := by
  unfold CopyFits copyOf
  rcases stage with fill | ⟨crc, enabled⟩
  · rw [fill]
    by_cases inside : st.offset < 4
    · simp [inside, Copy.Inside, Field.bytes]
    · simp [inside]
  · rw [crc]
    by_cases inside : st.offset < 4
    · simp [inside, enabled, Copy.Inside, Field.bytes]
    · simp [inside]

theorem copyFits_none {length : Nat} (nothing : copyOf crcEnabled st length = none) : CopyFits crcEnabled st length := by
  intro c copied
  rw [nothing] at copied
  cases copied

theorem copyFits_nextChunk (st : UnsparseState) (length : Nat) : CopyFits crcEnabled st.nextChunk length := by
  refine (copyFits_chunk rfl length).mpr fun _ => ?_
  change 0 + min length chunkHeaderBytes ≤ chunkHeaderBytes
  omega

theorem copyFits_raw (stage : st.state = .raw) (length : Nat) : CopyFits crcEnabled st length := by
  apply copyFits_none
  rw [copyOf, stage]

theorem copyFits_body {length : Nat} (header : st.state ≠ .imageHeader ∧ st.state ≠ .chunkHeader)
    (place : st.offset = 0 ∨ 4 ≤ st.offset ∨ length = 0) : CopyFits crcEnabled st length := by
  have word : st.offset < 4 → st.offset + min length 4 ≤ 4 := by omega
  cases stage : st.state with
  | imageHeader => exact absurd stage header.1
  | chunkHeader => exact absurd stage header.2
  | raw => exact copyFits_raw stage length
  | fill => exact (copyFits_word (.inl stage) length).mpr word
  | dontCare =>
    apply copyFits_none
    rw [copyOf, stage]
  | crc =>
    by_cases enabled : crcEnabled = true
    · exact (copyFits_word (.inr ⟨stage, enabled⟩) length).mpr word
    · apply copyFits_none
      rw [copyOf, stage]
      exact if_neg fun both => enabled both.1

theorem chunkStage_body (chunkType : UInt16) :
    chunkStage chunkType ≠ .imageHeader ∧ chunkStage chunkType ≠ .chunkHeader := by
  unfold chunkStage
  split_ifs <;> decide

def Settled (crcEnabled : Bool) (w : Work σ) (rest : List UInt8) : Prop :=
  w.st.state ≠ .imageHeader ∧ CopyFits crcEnabled w.st rest.length

theorem settled_nextChunk (st : UnsparseState) (after : w.st = st.nextChunk) : Settled crcEnabled w rest := by
  rw [Settled, after]
  exact ⟨fun image => Stage.noConfusion image, copyFits_nextChunk st _⟩

theorem chunkHeader_settles (stage : w.st.state = .chunkHeader) (taken : takeChunkHeader w input = .next w' rest) :
    Settled crcEnabled w' rest := by
  rcases takePart_next taken with ⟨short, rfl, rfl⟩ | ⟨-, ended⟩
  · have state : (w.st.chunkBytes (input.take w.st.remaining)).state = .chunkHeader := stage
    have more : w.st.remaining - (input.take w.st.remaining).length ≠ 0 := short
    have used : (input.drop w.st.remaining).length = 0 := by
      rw [List.length_take] at more
      rw [List.length_drop]
      omega
    refine ⟨fun image => Stage.noConfusion (state.symm.trans image), ?_⟩
    refine (copyFits_chunk state _).mpr fun inside => ?_
    rw [used, Nat.zero_min]
    exact Nat.le_of_lt inside
  · obtain ⟨-, -, -, rfl⟩ := chunkComplete_next ended
    have body := chunkStage_body
      ({ w with st := w.st.chunkBytes (input.take w.st.remaining) } : Work σ).st.chunk.chunkType
    exact ⟨body.1, copyFits_body body (.inl rfl)⟩

theorem raw_settles (stage : w.st.state = .raw) (taken : partialChunkRaw crcEnabled cb w input = .next w' rest) :
    Settled crcEnabled w' rest := by
  obtain ⟨-, -, crc, st, took, after⟩ := partialChunkRaw_next crcEnabled cb taken
  split at after
  · exact settled_nextChunk st after
  · have state : w'.st.state = .raw := by
      rw [after, took]
      exact stage
    exact ⟨fun image => Stage.noConfusion (state.symm.trans image), copyFits_raw state _⟩

theorem fill_settles (stage : w.st.state = .fill) (taken : partialChunkFill crcEnabled cb w input = .next w' rest) :
    Settled crcEnabled w' rest := by
  rcases takeFill_next crcEnabled cb taken with ⟨short, rfl, rfl⟩ | ⟨_, -, done, -, rfl⟩
  · have used : (input.drop 4).length = 0 := by
      rw [List.length_take] at short
      rw [List.length_drop]
      omega
    have state : (w.st.fillBytes (input.take 4)).state = .fill := stage
    have body : (w.st.fillBytes (input.take 4)).state ≠ .imageHeader ∧
        (w.st.fillBytes (input.take 4)).state ≠ .chunkHeader := by
      rw [state]
      decide
    exact ⟨body.1, copyFits_body body (.inr (.inr used))⟩
  · exact settled_nextChunk done.st rfl

theorem crc_settles (stage : w.st.state = .crc) (taken : partialChunkCrc crcEnabled w input = .next w' rest) :
    Settled crcEnabled w' rest := by
  rcases takeCrc_next crcEnabled taken with ⟨-, rfl, rfl⟩ | ⟨-, after, -⟩
  · have place : 4 ≤ (w.st.crcBytes (input.take 4)).offset ∨ (input.drop 4).length = 0 := by
      change 4 ≤ w.st.offset + (input.take 4).length ∨ _
      rw [List.length_take, List.length_drop]
      omega
    have state : (w.st.crcBytes (input.take 4)).state = .crc := stage
    have body : (w.st.crcBytes (input.take 4)).state ≠ .imageHeader ∧
        (w.st.crcBytes (input.take 4)).state ≠ .chunkHeader := by
      rw [state]
      decide
    exact ⟨body.1, copyFits_body body (.inr place)⟩
  · exact settled_nextChunk w.st after

theorem iteration_settles (stage : w.st.state ≠ .imageHeader) (taken : iteration crcEnabled cb w input = .next w' rest) :
    Settled crcEnabled w' rest := by
  unfold iteration at taken
  cases here : w.st.state with
  | imageHeader => exact absurd here stage
  | chunkHeader =>
    rw [here] at taken
    exact chunkHeader_settles here (partialChunkHeader_next taken)
  | raw =>
    rw [here] at taken
    exact raw_settles here taken
  | fill =>
    rw [here] at taken
    exact fill_settles here taken
  | dontCare =>
    rw [here] at taken
    exact settled_nextChunk w.st (partialChunkDontCare_next cb taken).2.1
  | crc =>
    rw [here] at taken
    exact crc_settles here taken

theorem imageHeader_next (stage : w.st.state = .imageHeader) (aligned : Aligned w.st)
    (taken : partialImageHeader w input = .next w' rest) : rest = input.drop w.st.remaining ∧
      ((rest = [] ∧ w'.st.state = .imageHeader ∧ Aligned w'.st) ∨ (w'.st.state = .chunkHeader ∧ w'.st.offset = 0 ∧
          w'.st.remaining = (completed w.st input).image.chunkHdrSz.toNat ∧
          tegrablSparseValidateHeader (completed w.st input).image (completed w.st input).maxUnsparseSize = none)) := by
  rcases takePart_next taken with ⟨short, rfl, rfl⟩ | ⟨-, ended⟩
  · have more : w.st.remaining - (input.take w.st.remaining).length ≠ 0 := short
    have whole := aligned stage
    rw [List.length_take] at more
    refine ⟨rfl, .inl ⟨List.drop_eq_nil_of_le (by omega), stage, fun _ => ?_⟩⟩
    change w.st.offset + (input.take w.st.remaining).length +
      (w.st.remaining - (input.take w.st.remaining).length) = imageHeaderBytes
    rw [List.length_take]
    omega
  · obtain ⟨same, valid, rfl⟩ := imageComplete_next ended
    exact ⟨same, .inr ⟨rfl, rfl, rfl, valid⟩⟩

theorem imageComplete_valid (w : Work σ) (rest : List UInt8)
    (valid : tegrablSparseValidateHeader w.st.image w.st.maxUnsparseSize = none) : imageComplete w rest = .next { w with
        st := { w.st.nextChunk with remaining := w.st.image.chunkHdrSz.toNat }
        error := none } rest := by
  rw [imageComplete, valid]

theorem imageHeader_completes (enough : w.st.remaining ≤ input.length)
    (valid : tegrablSparseValidateHeader (completed w.st input).image (completed w.st input).maxUnsparseSize = none) :
    partialImageHeader w input = .next { w with
        st := { (completed w.st input).nextChunk with
          remaining := (completed w.st input).image.chunkHdrSz.toNat }
        error := none } (input.drop w.st.remaining) := by
  have full : ¬ (completed w.st input).remaining ≠ 0 := by
    change ¬ w.st.remaining - (input.take w.st.remaining).length ≠ 0
    rw [List.length_take]
    omega
  exact (if_neg full).trans (imageComplete_valid { w with st := completed w.st input } _ valid)

theorem iteration_suffix (aligned : Aligned w.st) (taken : iteration crcEnabled cb w input = .next w' rest) :
    rest <:+ input := by
  have part : ∀ n, rest = input.drop n → rest <:+ input := fun n same => same ▸ List.drop_suffix n input
  have whole : rest = input → rest <:+ input := fun same => same ▸ List.suffix_refl _
  unfold iteration at taken
  cases stage : w.st.state with
  | imageHeader =>
    rw [stage] at taken
    exact part _ (imageHeader_next stage aligned taken).1
  | chunkHeader =>
    rw [stage] at taken
    rcases takePart_next (partialChunkHeader_next taken) with ⟨-, same, -⟩ | ⟨-, ended⟩
    · exact part _ same
    · exact part _ (chunkComplete_next ended).1
  | raw =>
    rw [stage] at taken
    exact part _ (partialChunkRaw_next crcEnabled cb taken).1
  | fill =>
    rw [stage] at taken
    rcases takeFill_next crcEnabled cb taken with ⟨-, same, -⟩ | ⟨_, ⟨-, -, same⟩ | ⟨-, -, same⟩, -⟩
    · exact part _ same
    · exact part _ same
    · exact whole same
  | dontCare =>
    rw [stage] at taken
    exact whole (partialChunkDontCare_next cb taken).1
  | crc =>
    rw [stage] at taken
    rcases takeCrc_next crcEnabled taken with ⟨-, same, -⟩ | ⟨same, -⟩
    · exact part _ same
    · exact whole same

theorem iteration_aligned (aligned : Aligned w.st) (taken : iteration crcEnabled cb w input = .next w' rest) :
    Aligned w'.st := by
  by_cases stage : w.st.state = .imageHeader
  · unfold iteration at taken
    rw [stage] at taken
    rcases (imageHeader_next stage aligned taken).2 with ⟨-, -, still⟩ | ⟨state, -⟩
    · exact still
    · exact fun image => Stage.noConfusion (state.symm.trans image)
  · exact fun image => absurd image (iteration_settles stage taken).1

theorem passInside_of (left : rest <:+ buff) (fits : CopyFits crcEnabled w.st rest.length) :
    PassInside crcEnabled buff w rest := ⟨left, bytesRead_le w.st rest.length, fits⟩

theorem along_of_settled (w : Work σ) (rest : List UInt8) (settled : Settled crcEnabled w rest) (left : rest <:+ buff) :
    (machine crcEnabled cb).Along (PassInside crcEnabled buff) w rest := by
  induction w, rest using (machine crcEnabled cb).loop_induction with
  | done w stops =>
    exact Consumer.along_of_stop (fun _ _ going => absurd going (not_or.mpr ⟨not_not_intro rfl, stops⟩))
      (passInside_of left settled.2)
  | halt w rest e going taken =>
    refine Consumer.along_of_stop (fun _ _ _ next => ?_) (passInside_of left settled.2)
    rw [taken] at next
    cases next
  | next w rest w' rest' going taken ih =>
    have aligned : Aligned w.st := fun image => absurd image settled.1
    refine Consumer.along_of_next taken (passInside_of left settled.2) (ih ?_ ?_)
    · exact iteration_settles settled.1 taken
    · exact (iteration_suffix aligned taken).trans left

theorem along_image (crcEnabled : Bool) (cb : Callbacks σ) (aux : σ) (stage : st.state = .imageHeader) (aligned : Aligned st) (some_bytes : buff ≠ []) :
    (machine crcEnabled cb).Along (PassInside crcEnabled buff) ⟨st, none, aux⟩ buff ↔
      (tegrablSparseValidateHeader (completed st buff).image (completed st buff).maxUnsparseSize = none →
        min (buff.length - st.remaining) (completed st buff).image.chunkHdrSz.toNat ≤ chunkHeaderBytes) := by
  have body : (machine crcEnabled cb).body ⟨st, none, aux⟩ buff = partialImageHeader ⟨st, none, aux⟩ buff := by
    change iteration crcEnabled cb _ buff = _
    rw [iteration, stage]
  have now := passInside_of (w := (⟨st, none, aux⟩ : Work σ)) (List.suffix_refl buff)
    (copyFits_image crcEnabled stage aligned buff.length)
  constructor
  · intro along valid
    by_cases enough : st.remaining ≤ buff.length
    · have next := along.next (.inl some_bytes)
        (body.trans (imageHeader_completes (w := ⟨st, none, aux⟩) enough valid))
      have fits := (copyFits_chunk rfl _).mp next.here.copies (show 0 < chunkHeaderBytes by decide)
      rw [List.length_drop] at fits
      exact Nat.le_trans (Nat.le_add_left _ _) fits
    · rw [Nat.sub_eq_zero_of_le (Nat.le_of_not_le enough), Nat.zero_min]
      exact Nat.zero_le _
  · intro narrow
    cases taken : partialImageHeader ⟨st, none, aux⟩ buff with
    | halt e =>
      refine Consumer.along_of_stop (fun _ _ _ next => ?_) now
      rw [body, taken] at next
      cases next
    | next w' rest =>
      refine Consumer.along_of_next (body.trans taken) now ?_
      obtain ⟨same, cases⟩ := imageHeader_next (w := ⟨st, none, aux⟩) stage aligned taken
      have left : rest <:+ buff := same ▸ List.drop_suffix _ buff
      rcases cases with ⟨used, still, aligned'⟩ | ⟨chunk, start, header, valid⟩
      · refine Consumer.along_of_stop (fun _ _ going => ?_) (passInside_of left (copyFits_image crcEnabled still aligned' _))
        rcases going with more | free
        · exact absurd used more
        · exact Stage.noConfusion (still.symm.trans (of_decide_eq_true free))
      · refine along_of_settled w' rest ⟨fun image => Stage.noConfusion (chunk.symm.trans image), ?_⟩ left
        refine (copyFits_chunk chunk _).mpr fun _ => ?_
        have small := narrow valid
        rw [start, header, same, List.length_drop, Nat.zero_add]
        exact small

theorem fillWrites_error (w : Work σ) {h : Halt σ} (failed : fillWrites crcEnabled cb w = .error h) :
    ∃ e w', h = .fail e w' := by
  induction w using fillWrites.induct crcEnabled cb with
  | case1 w ended =>
    rw [fillWrites, if_pos ended] at failed
    cases failed
  | case2 w more size bytes e aux refused =>
    rw [fillWrites, if_neg more] at failed
    dsimp only at failed
    rw [refused] at failed
    cases failed
    exact ⟨_, _, rfl⟩
  | case3 w more size bytes st aux passed ih =>
    rw [fillWrites, if_neg more] at failed
    dsimp only at failed
    rw [passed] at failed
    exact ih failed

variable {w₁ : Work σ}

theorem fillComplete_hang : fillComplete crcEnabled cb w input ≠ .halt (.hang w₁) := by
  intro halted
  unfold fillComplete at halted
  split at halted
  · rename_i h failed
    obtain ⟨e, w', same⟩ := fillWrites_error w failed
    rw [same] at halted
    cases halted
  · cases halted

theorem takePart_hang {into : UnsparseState → List UInt8 → UnsparseState}
    {complete : Work σ → List UInt8 → Iteration (Work σ) UInt8 (Halt σ)}
    (completes : ∀ w rest, complete w rest ≠ .halt (.hang w₁)) : takePart into complete w input ≠ .halt (.hang w₁) := by
  intro halted
  unfold takePart at halted
  dsimp only at halted
  split at halted
  · cases halted
  · exact completes _ _ halted

theorem iteration_hang (halted : iteration crcEnabled cb w input = .halt (.hang w₁)) :
    w.st.state = .crc ∧ crcEnabled = false := by
  unfold iteration at halted
  cases stage : w.st.state with
  | imageHeader =>
    rw [stage] at halted
    refine absurd halted (takePart_hang fun w rest => ?_)
    unfold imageComplete
    split <;> exact fun other => by cases other
  | chunkHeader =>
    rw [stage] at halted
    dsimp only at halted
    unfold partialChunkHeader at halted
    split at halted
    · cases halted
    · refine absurd halted (takePart_hang fun w rest => ?_)
      unfold chunkComplete
      dsimp only
      split
      · exact fun other => by cases other
      · split <;> exact fun other => by cases other
  | raw =>
    rw [stage] at halted
    dsimp only at halted
    unfold partialChunkRaw at halted
    dsimp only at halted
    split at halted <;> cases halted
  | fill =>
    rw [stage] at halted
    dsimp only at halted
    unfold partialChunkFill takeFill at halted
    dsimp only at halted
    split at halted
    · split at halted
      · cases halted
      · exact absurd halted fillComplete_hang
    · exact absurd halted fillComplete_hang
  | dontCare =>
    rw [stage] at halted
    dsimp only at halted
    unfold partialChunkDontCare at halted
    split at halted <;> cases halted
  | crc =>
    rw [stage] at halted
    dsimp only at halted
    unfold partialChunkCrc takeCrc at halted
    split at halted
    · split at halted <;> cases halted
    · rename_i disabled
      exact ⟨rfl, Bool.eq_false_iff.mpr disabled⟩

theorem crc_hangs (cb : Callbacks σ) (input : List UInt8) (disabled : crcEnabled = false) (stage : w.st.state = .crc) :
    iteration crcEnabled cb w input = .halt (.hang w) := by
  rw [iteration, stage, disabled]
  rfl

theorem returns_iff (crcEnabled : Bool) (cb : Callbacks σ) (aux : σ) (loops : Loops st buff) :
    (tegrablSparseUnsparse crcEnabled cb st buff aux).outcome ≠ .hangs ↔ (crcEnabled ∨
      ∀ w rest, (machine crcEnabled cb).Visits ⟨st, none, aux⟩ buff w rest → w.st.state = .crc → rest = []) := by
  obtain ⟨some_bytes, set⟩ := loops
  rw [tegrablSparseUnsparse, if_neg some_bytes, if_neg (not_not_intro set)]
  constructor
  · intro returns
    by_cases enabled : crcEnabled = true
    · exact .inl enabled
    · right
      intro w rest visits stage
      by_contra more
      have halts := crc_hangs cb rest (Bool.eq_false_iff.mpr enabled) stage
      rw [Consumer.loop_of_visits visits, Consumer.loop_halt (.inl more) halts] at returns
      exact returns rfl
  · intro checked
    cases ended : (machine crcEnabled cb).loop ⟨st, none, aux⟩ buff with
    | ok w => simp
    | error h =>
      cases h with
      | fail e w => simp
      | overrun w => simp
      | hang w =>
        obtain ⟨w', rest, visits, going, halted⟩ := Consumer.exists_of_loop_error _ _ ended
        obtain ⟨stage, disabled⟩ := iteration_hang halted
        have used := checked.resolve_left (Bool.eq_false_iff.mp disabled) w' rest visits stage
        rcases going with more | free
        · exact absurd used more
        · exact Stage.noConfusion (stage.symm.trans (of_decide_eq_true free))

theorem copyFits_iff (crcEnabled : Bool) (stage : st.state ≠ .imageHeader) (length : Nat) : CopyFits crcEnabled st length ↔
    (st.state = .chunkHeader → st.offset < chunkHeaderBytes → st.offset + min length st.remaining ≤ chunkHeaderBytes) ∧
    (st.state = .fill ∨ st.state = .crc ∧ crcEnabled → st.offset < 4 → st.offset + min length 4 ≤ 4) := by
  constructor
  · intro fits
    exact ⟨fun chunk => (copyFits_chunk chunk length).mp fits, fun word => (copyFits_word word length).mp fits⟩
  · intro parts
    by_cases chunk : st.state = .chunkHeader
    · exact (copyFits_chunk chunk length).mpr (parts.1 chunk)
    · by_cases word : st.state = .fill ∨ st.state = .crc ∧ crcEnabled
      · exact (copyFits_word word length).mpr (parts.2 word)
      · apply copyFits_none
        obtain ⟨fill, crc⟩ := not_or.mp word
        unfold copyOf
        split
        · contradiction
        · contradiction
        · contradiction
        · rename_i here
          exact if_neg fun both => crc ⟨here, both.1⟩
        · rfl
        · rfl

variable {s : UnsparseState × σ}

theorem contained_iff (aligned : Aligned s.1) :
    Contained crcEnabled cb s buff ↔ (Loops s.1 buff → Suits crcEnabled cb s buff) := by
  by_cases loops : Loops s.1 buff
  · have returns := returns_iff crcEnabled cb s.2 loops
    by_cases image : s.1.state = .imageHeader
    · have along := along_image crcEnabled cb s.2 image aligned loops.1
      constructor
      · intro contained _
        refine ⟨fun _ => along.mp (contained.inside loops), fun chunk => ?_, fun word => ?_, returns.mp contained.returns⟩
        · exact Stage.noConfusion (image.symm.trans chunk)
        · rcases word with fill | ⟨crc, -⟩
          · exact Stage.noConfusion (image.symm.trans fill)
          · exact Stage.noConfusion (image.symm.trans crc)
      · intro condition
        have suits := condition loops
        exact ⟨returns.mpr suits.crc, fun _ => along.mpr (suits.image image)⟩
    · have fits := copyFits_iff crcEnabled image buff.length
      constructor
      · intro contained _
        obtain ⟨chunk, word⟩ := fits.mp (contained.inside loops).here.copies
        exact ⟨fun there => absurd there image, chunk, word, returns.mp contained.returns⟩
      · intro condition
        have suits := condition loops
        have settled : Settled crcEnabled (⟨s.1, none, s.2⟩ : Work σ) buff := ⟨image, fits.mpr ⟨suits.chunk, suits.word⟩⟩
        exact ⟨returns.mpr suits.crc, fun _ => along_of_settled _ buff settled (List.suffix_refl buff)⟩
  · constructor
    · intro _ now
      exact absurd now loops
    · intro _
      refine ⟨?_, fun now => absurd now loops⟩
      unfold tegrablSparseUnsparse
      by_cases empty : buff = []
      · simp [empty]
      · have unset : s.1.callbacks ≠ true := fun set => loops ⟨empty, set⟩
        simp [empty, unset]

theorem call_aligned (aligned : Aligned s.1) (buff : List UInt8) : Aligned (call crcEnabled cb s buff).1 := by
  unfold call tegrablSparseUnsparse
  by_cases empty : buff = []
  · rw [if_pos empty]
    exact aligned
  · by_cases set : s.1.callbacks = true
    · rw [if_neg empty, if_neg (not_not_intro set)]
      cases ended : (machine crcEnabled cb).loop ⟨s.1, none, s.2⟩ buff with
      | ok w =>
        exact Consumer.loop_invariant (P := fun w _ => Aligned w.st)
          (fun _ _ _ _ _ now taken => iteration_aligned now taken) _ buff aligned ended
      | error h => cases h <;> exact aligned
    · rw [if_neg empty, if_pos set]
      exact aligned

/-- A run of calls from a fresh state. -/
theorem unsparse_contained_iff (crcEnabled : Bool) (cb : Callbacks σ) (maxUnsparseSize : UInt64) (callbacks : Bool)
    (aux : σ) (buffers : List (List UInt8)) :
    EachStep (call crcEnabled cb) (Contained crcEnabled cb) (.initial maxUnsparseSize callbacks, aux) buffers ↔
      EachStep (call crcEnabled cb) (fun s buff => Loops s.1 buff → Suits crcEnabled cb s buff)
        (.initial maxUnsparseSize callbacks, aux) buffers :=
  eachStep_congr (I := fun s => Aligned s.1) (fun _ buff now => call_aligned now buff)
    (fun _ _ now => contained_iff now) fun _ => rfl

end

def checkedImage : List UInt8 := headerImage 4 1 ++ chunkImage chunkTypeCrc 0 16 ++ [0, 0, 0, 0]

theorem unchecked_crc_hangs : tegrablSparseInitUnsparseState 64 true = .ok freshState ∧
    (tegrablSparseUnsparse false recorder freshState checkedImage []).outcome = .hangs ∧
    ¬ EachStep (call false recorder) (Contained false recorder) (freshState, []) [checkedImage] := by
  have hangs : (tegrablSparseUnsparse false recorder freshState checkedImage []).outcome = .hangs := by
    decide +kernel
  refine ⟨rfl, hangs, fun each => ?_⟩
  exact (eachStep_cons.mp each).1.returns hangs

end Cboot.Sparse
