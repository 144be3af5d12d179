import Mathlib.Data.List.GetD
import Cboot.Sparse.Model

/-!
The machine that takes of every word and every header only what is missing does not notice where the stream is cut.
-/

namespace Cboot.Sparse
open Lib Utils

theorem getElem?_copyTo (object : List UInt8) (offset : Nat) (bytes : List UInt8) (i : Nat) :
    (copyTo object offset bytes)[i]? =
      object[i]?.map fun old => if offset ≤ i then bytes.getD (i - offset) old else old := by
  unfold copyTo
  rw [List.getElem?_mapIdx]

@[simp] theorem length_copyTo (object : List UInt8) (offset : Nat) (bytes : List UInt8) :
    (copyTo object offset bytes).length = object.length := List.length_mapIdx

theorem copyTo_append (object : List UInt8) (offset : Nat) (a b : List UInt8) :
    copyTo object offset (a ++ b) = copyTo (copyTo object offset a) (offset + a.length) b := by
  apply List.ext_getElem?
  intro i
  rw [getElem?_copyTo, getElem?_copyTo, getElem?_copyTo]
  cases object[i]? with
  | none => rfl
  | some old =>
    simp only [Option.map_some, Option.some.injEq]
    by_cases second : offset + a.length ≤ i
    · have first : offset ≤ i := by omega
      have behind : i - offset - a.length = i - (offset + a.length) := by omega
      rw [if_pos first, if_pos first, if_pos second, List.getD_append_right _ _ _ _ (by omega), behind,
        List.getD_eq_default a _ (by omega)]
    · rw [if_neg second]
      by_cases first : offset ≤ i
      · rw [if_pos first, if_pos first, List.getD_append _ _ _ _ (by omega)]
      · rw [if_neg first, if_neg first]

theorem copyTo_outside {object : List UInt8} {offset : Nat} (bytes : List UInt8)
    (outside : object.length ≤ offset) : copyTo object offset bytes = object := by
  apply List.ext_getElem?
  intro i
  rw [getElem?_copyTo]
  cases inside : object[i]? with
  | none => rfl
  | some old =>
    have small := (List.getElem?_eq_some_iff.mp inside).1
    rw [Option.map_some, if_neg (by omega)]

theorem copyTo_zero {object bytes : List UInt8} (covers : object.length ≤ bytes.length) :
    copyTo object 0 bytes = bytes.take object.length := by
  apply List.ext_getElem?
  intro i
  rw [getElem?_copyTo]
  simp only [Nat.zero_le, if_true, Nat.sub_zero]
  by_cases inside : i < object.length
  · rw [List.getElem?_eq_getElem inside, Option.map_some, List.getElem?_take_of_lt inside,
      List.getElem?_eq_getElem (Nat.lt_of_lt_of_le inside covers),
      List.getD_eq_getElem _ _ (Nat.lt_of_lt_of_le inside covers)]
  · rw [List.getElem?_eq_none (Nat.not_lt.mp inside), Option.map_none, List.getElem?_eq_none]
    rw [List.length_take_of_le covers]
    exact Nat.not_lt.mp inside

section
variable {σ : Type} (crcEnabled : Bool) (cb : Callbacks σ)

def seamlessIteration (w : Work σ) (input : List UInt8) : Iteration (Work σ) UInt8 (Halt σ) :=
  match w.st.state with
  | .imageHeader => partialImageHeader w input
  | .chunkHeader => takeChunkHeader w input
  | .raw => partialChunkRaw crcEnabled cb w input
  | .fill => takeFill crcEnabled cb (4 - w.st.offset) w input
  | .dontCare => partialChunkDontCare cb w input
  | .crc => takeCrc crcEnabled (4 - w.st.offset) w input

theorem seamlessIteration_progress (w : Work σ) (input : List UInt8) (w' : Work σ) (rest : List UInt8)
    (going : input ≠ [] ∨ goesOn w) (taken : seamlessIteration crcEnabled cb w input = .next w' rest) :
    weight w' rest < weight w input := by
  have nonempty : w.st.state ≠ .dontCare → input ≠ [] := fun other =>
    going.resolve_right fun free => other (of_decide_eq_true free)
  have missing : w.st.offset < 4 → 0 < 4 - w.st.offset := by omega
  unfold seamlessIteration at taken
  cases stage : w.st.state with
  | imageHeader =>
    rw [stage] at taken nonempty
    exact partialImageHeader_progress stage (nonempty (by decide)) taken
  | chunkHeader =>
    rw [stage] at taken nonempty
    exact takeChunkHeader_progress stage (nonempty (by decide)) taken
  | raw =>
    rw [stage] at taken nonempty
    exact partialChunkRaw_progress crcEnabled cb stage (nonempty (by decide)) taken
  | fill =>
    rw [stage] at taken nonempty
    exact takeFill_progress crcEnabled cb stage (nonempty (by decide)) missing taken
  | dontCare =>
    rw [stage] at taken
    exact partialChunkDontCare_progress cb stage taken
  | crc =>
    rw [stage] at taken nonempty
    exact takeCrc_progress crcEnabled stage (nonempty (by decide)) missing taken

def seamless : Consumer (Work σ) UInt8 (Halt σ) where
  goesOn := goesOn
  body := seamlessIteration crcEnabled cb
  weight := weight
  progress := seamlessIteration_progress crcEnabled cb

/-- Callbacks that never fail, and to which it makes no difference how the bytes are cut. -/
structure Additive (cb : Callbacks σ) : Prop where
  writes : ∀ bytes aux, (cb.writer bytes aux).1 = none
  seeks : ∀ size aux, (cb.seeker size aux).1 = none
  append : ∀ a b aux, (cb.writer (a ++ b) aux).2 = (cb.writer b (cb.writer a aux).2).2

variable {crcEnabled} {cb} {w : Work σ} {a b : List UInt8}

theorem Additive.writer_eq (additive : Additive cb) (bytes : List UInt8) (aux : σ) :
    cb.writer bytes aux = (none, (cb.writer bytes aux).2) := by
  rw [← additive.writes bytes aux]

section
variable (st : UnsparseState)

theorem took_append (a b : List UInt8) : st.took (a ++ b) = (st.took a).took b := by
  unfold UnsparseState.took
  dsimp only
  rw [List.length_append, Nat.sub_add_eq, Nat.add_assoc]

theorem imageBytes_append (a b : List UInt8) :
    st.imageBytes (a ++ b) = (st.imageBytes a).imageBytes b := by
  unfold UnsparseState.imageBytes
  rw [took_append, copyTo_append]
  rfl

theorem chunkBytes_append (a b : List UInt8) :
    st.chunkBytes (a ++ b) = (st.chunkBytes a).chunkBytes b := by
  unfold UnsparseState.chunkBytes
  rw [took_append, copyTo_append]
  rfl

theorem fillBytes_append (a b : List UInt8) :
    st.fillBytes (a ++ b) = (st.fillBytes a).fillBytes b := by
  unfold UnsparseState.fillBytes
  dsimp only
  rw [copyTo_append, List.length_append, Nat.add_assoc]

theorem crcBytes_append (a b : List UInt8) :
    st.crcBytes (a ++ b) = (st.crcBytes a).crcBytes b := by
  unfold UnsparseState.crcBytes
  dsimp only
  rw [copyTo_append, List.length_append, Nat.add_assoc]

theorem wrote_append (a b : List UInt8) : (st.wrote crcEnabled (a ++ b)).took (a ++ b) =
      ((((st.wrote crcEnabled a).took a).wrote crcEnabled b).took b) := by
  rw [took_append]
  unfold UnsparseState.wrote UnsparseState.took
  cases crcEnabled with
  | false => rfl
  | true =>
    dsimp only [if_true]
    rw [if_pos rfl, if_pos rfl, if_pos rfl, tegrablUtilsCrc32_append]

end

theorem imageComplete_extend (w : Work σ) (rest more : List UInt8) :
    imageComplete w (rest ++ more) = (imageComplete w rest).extend more := by
  unfold imageComplete
  split <;> rfl

theorem chunkComplete_extend (w : Work σ) (rest more : List UInt8) :
    chunkComplete w (rest ++ more) = (chunkComplete w rest).extend more := by
  unfold chunkComplete
  split
  · rfl
  · dsimp only
    split <;> rfl

theorem fillComplete_extend (w : Work σ) (rest more : List UInt8) :
    fillComplete crcEnabled cb w (rest ++ more) = (fillComplete crcEnabled cb w rest).extend more := by
  unfold fillComplete
  split <;> rfl

theorem takePart_resumes {into : UnsparseState → List UInt8 → UnsparseState}
    {complete : Work σ → List UInt8 → Iteration (Work σ) UInt8 (Halt σ)}
    (remains : ∀ st bytes, (into st bytes).remaining = st.remaining - bytes.length)
    (append : ∀ st a b, into st (a ++ b) = into (into st a) b)
    (extend : ∀ w rest more, complete w (rest ++ more) = (complete w rest).extend more)
    (w : Work σ) (a b : List UInt8) : takePart into complete w (a ++ b) = (takePart into complete w a).extend b ∨
      (takePart into complete w a = .next { w with st := into w.st a } [] ∧
        takePart into complete w (a ++ b) = takePart into complete { w with st := into w.st a } b) := by
  by_cases long : w.st.remaining ≤ a.length
  · refine .inl ?_
    unfold takePart
    dsimp only
    rw [List.take_append_of_le_length long, List.drop_append_of_le_length long]
    split
    · rfl
    · exact extend _ _ _
  · have short : a.length ≤ w.st.remaining := by omega
    have left : (into w.st a).remaining = w.st.remaining - a.length := remains _ _
    refine .inr ⟨?_, ?_⟩
    · unfold takePart
      dsimp only
      rw [List.take_of_length_le short, List.drop_of_length_le short, left, if_pos (by omega)]
    · unfold takePart
      dsimp only
      rw [left, List.take_append, List.drop_append, List.take_of_length_le short,
        List.drop_of_length_le short, append, List.nil_append]

theorem partialChunkRaw_resumes (additive : Additive cb) (stage : w.st.state = .raw) :
    partialChunkRaw crcEnabled cb w (a ++ b) = (partialChunkRaw crcEnabled cb w a).extend b ∨
      ∃ w', partialChunkRaw crcEnabled cb w a = .next w' [] ∧ w'.st.state = .raw ∧
        partialChunkRaw crcEnabled cb w (a ++ b) = partialChunkRaw crcEnabled cb w' b := by
  have written := additive.writer_eq
  by_cases long : w.st.remaining ≤ a.length
  · refine .inl ?_
    unfold partialChunkRaw
    dsimp only
    rw [List.take_append_of_le_length long, List.drop_append_of_le_length long, written]
    rfl
  · have short : a.length ≤ w.st.remaining := by omega
    obtain ⟨crc, same⟩ := wrote_crc crcEnabled w.st a
    have left : ((w.st.wrote crcEnabled a).took a).remaining = w.st.remaining - a.length := by
      rw [same]
      rfl
    have still : ((w.st.wrote crcEnabled a).took a).state = .raw := by
      rw [same]
      exact stage
    refine .inr ⟨⟨(w.st.wrote crcEnabled a).took a, none, (cb.writer a w.aux).2⟩, ?_, still, ?_⟩
    · unfold partialChunkRaw
      dsimp only
      rw [List.take_of_length_le short, List.drop_of_length_le short, written]
      dsimp only
      rw [left, if_neg (by omega)]
    · unfold partialChunkRaw
      dsimp only
      rw [left, List.take_append, List.drop_append, List.take_of_length_le short,
        List.drop_of_length_le short, written (a ++ _), written (b.take _), additive.append]
      dsimp only
      rw [wrote_append, List.nil_append]

theorem takeFill_resumes (w : Work σ) (a b : List UInt8) : takeFill crcEnabled cb (4 - w.st.offset) w (a ++ b) =
        (takeFill crcEnabled cb (4 - w.st.offset) w a).extend b ∨
      (takeFill crcEnabled cb (4 - w.st.offset) w a = .next { w with st := w.st.fillBytes a } [] ∧
        takeFill crcEnabled cb (4 - w.st.offset) w (a ++ b) =
          takeFill crcEnabled cb (4 - (w.st.offset + a.length)) { w with st := w.st.fillBytes a } b) := by
  by_cases known : w.st.offset < 4
  · by_cases long : 4 - w.st.offset ≤ a.length
    · refine .inl ?_
      unfold takeFill
      rw [if_pos known, if_pos known, List.take_append_of_le_length long, List.drop_append_of_le_length long]
      dsimp only
      split
      · rfl
      · exact fillComplete_extend _ _ _
    · have short : a.length ≤ 4 - w.st.offset := by omega
      have partly : (w.st.fillBytes a).offset < 4 := by
        change w.st.offset + a.length < 4
        omega
      refine .inr ⟨?_, ?_⟩
      · unfold takeFill
        rw [if_pos known, List.take_of_length_le short, List.drop_of_length_le short]
        exact if_pos partly
      · unfold takeFill
        rw [if_pos known, if_pos partly, List.take_append, List.drop_append,
          List.take_of_length_le short, List.drop_of_length_le short, Nat.sub_sub, fillBytes_append, List.nil_append]
  · refine .inl ?_
    unfold takeFill
    rw [if_neg known, if_neg known]
    exact fillComplete_extend _ _ _

theorem takeCrc_resumes (w : Work σ) (a b : List UInt8) : takeCrc crcEnabled (4 - w.st.offset) w (a ++ b) =
        (takeCrc crcEnabled (4 - w.st.offset) w a).extend b ∨
      (takeCrc crcEnabled (4 - w.st.offset) w a = .next { w with st := w.st.crcBytes a } [] ∧
        takeCrc crcEnabled (4 - w.st.offset) w (a ++ b) =
          takeCrc crcEnabled (4 - (w.st.offset + a.length)) { w with st := w.st.crcBytes a } b) := by
  unfold takeCrc
  cases crcEnabled with
  | false => exact .inl rfl
  | true =>
    rw [if_pos rfl, if_pos rfl, if_pos rfl]
    by_cases known : w.st.offset < 4
    · by_cases long : 4 - w.st.offset ≤ a.length
      · refine .inl ?_
        rw [if_pos known, if_pos known, List.take_append_of_le_length long, List.drop_append_of_le_length long]
        rfl
      · have short : a.length ≤ 4 - w.st.offset := by omega
        have partly : (w.st.crcBytes a).offset < 4 := by
          change w.st.offset + a.length < 4
          omega
        refine .inr ⟨?_, ?_⟩
        · rw [if_pos known, List.take_of_length_le short, List.drop_of_length_le short]
        · rw [if_pos known, if_pos partly, List.take_append, List.drop_append,
            List.take_of_length_le short, List.drop_of_length_le short, Nat.sub_sub, crcBytes_append, List.nil_append]
    · rw [if_neg known, if_neg known]
      exact .inl rfl

theorem resumes_of_stage {stage : Stage} {f : Work σ → List UInt8 → Iteration (Work σ) UInt8 (Halt σ)}
    (other : stage ≠ .dontCare) (body : ∀ w : Work σ, w.st.state = stage → seamlessIteration crcEnabled cb w = f w)
    (here : w.st.state = stage) (split : f w (a ++ b) = (f w a).extend b ∨
      ∃ w', f w a = .next w' [] ∧ w'.st.state = stage ∧ f w (a ++ b) = f w' b) :
    seamlessIteration crcEnabled cb w (a ++ b) = (seamlessIteration crcEnabled cb w a).extend b ∨
      ∃ w', seamlessIteration crcEnabled cb w a = .next w' [] ∧ ¬ goesOn w' ∧
        seamlessIteration crcEnabled cb w (a ++ b) = seamlessIteration crcEnabled cb w' b := by
  rw [body w here]
  rcases split with whole | ⟨w', cut, same, onward⟩
  · exact .inl whole
  · refine .inr ⟨w', cut, fun free => other (same.symm.trans (of_decide_eq_true free)), ?_⟩
    rw [body w' same]
    exact onward

theorem seamless_resumes (additive : Additive cb) : (seamless crcEnabled cb).Resumes := by
  intro w a b going nonempty
  cases stage : w.st.state with
  | imageHeader =>
    refine resumes_of_stage (f := takePart UnsparseState.imageBytes imageComplete) (by decide)
      (fun w here => by unfold seamlessIteration; rw [here]; rfl) stage ?_
    rcases takePart_resumes (fun _ _ => rfl) imageBytes_append imageComplete_extend w a b with
      whole | ⟨cut, onward⟩
    · exact .inl whole
    · exact .inr ⟨_, cut, stage, onward⟩
  | chunkHeader =>
    refine resumes_of_stage (f := takePart UnsparseState.chunkBytes chunkComplete) (by decide)
      (fun w here => by unfold seamlessIteration; rw [here]; rfl) stage ?_
    rcases takePart_resumes (fun _ _ => rfl) chunkBytes_append chunkComplete_extend w a b with
      whole | ⟨cut, onward⟩
    · exact .inl whole
    · exact .inr ⟨_, cut, stage, onward⟩
  | raw =>
    exact resumes_of_stage (by decide) (fun w here => by unfold seamlessIteration; rw [here]) stage
      (partialChunkRaw_resumes additive stage)
  | fill =>
    refine resumes_of_stage
      (f := fun w input => takeFill crcEnabled cb (4 - w.st.offset) w input) (by decide)
      (fun w here => by unfold seamlessIteration; rw [here]) stage ?_
    rcases takeFill_resumes w a b with whole | ⟨cut, onward⟩
    · exact .inl whole
    · exact .inr ⟨_, cut, stage, onward⟩
  | dontCare =>
    refine .inl ?_
    change seamlessIteration crcEnabled cb w (a ++ b) = (seamlessIteration crcEnabled cb w a).extend b
    unfold seamlessIteration
    rw [stage]
    unfold partialChunkDontCare
    dsimp only
    split <;> rfl
  | crc =>
    refine resumes_of_stage
      (f := fun w input => takeCrc crcEnabled (4 - w.st.offset) w input) (by decide)
      (fun w here => by unfold seamlessIteration; rw [here]) stage ?_
    rcases takeCrc_resumes w a b with whole | ⟨cut, onward⟩
    · exact .inl whole
    · exact .inr ⟨_, cut, stage, onward⟩

def InStep (st : UnsparseState) (input : List UInt8) : Prop :=
  st.state = .fill ∨ st.state = .crc → st.offset = 0 ∨ 4 ≤ st.offset ∨ st.offset + input.length ≤ 4

instance (st : UnsparseState) (input : List UInt8) : Decidable (InStep st input) :=
  inferInstanceAs (Decidable (_ → _))

def NarrowHeader (stream : List UInt8) : Prop :=
  imageHeaderBytes ≤ stream.length →
    (ImageHeader.codec.decode (stream.take imageHeaderBytes)).chunkHdrSz.toNat ≤ chunkHeaderBytes

instance (stream : List UInt8) : Decidable (NarrowHeader stream) :=
  inferInstanceAs (Decidable (_ → _))

/-- The input is one on which the source takes what is missing. Behind it `later` follows. -/
structure Fits (later : List UInt8) (st : UnsparseState) (input : List UInt8) : Prop where
  words : InStep st input
  image : st.state = .imageHeader → st.imageHeader.length = imageHeaderBytes ∧
    st.offset + st.remaining = imageHeaderBytes ∧ (st.remaining ≤ input.length + later.length →
      (ImageHeader.codec.decode (copyTo st.imageHeader st.offset (input ++ later))).chunkHdrSz.toNat ≤ chunkHeaderBytes)
  chunk : st.state = .chunkHeader → st.offset + st.remaining ≤ chunkHeaderBytes

variable {later input : List UInt8} {st : UnsparseState}

theorem fits_chunkHeader
    (stage : st.state = .chunkHeader) (inside : st.offset + st.remaining ≤ chunkHeaderBytes) : Fits later st input := by
  refine ⟨fun word => ?_, fun image => ?_, fun _ => inside⟩
  · rw [stage] at word
    rcases word with word | word <;> cases word
  · rw [stage] at image
    cases image

theorem fits_nextChunk (later input : List UInt8) (st : UnsparseState) : Fits later st.nextChunk input :=
  fits_chunkHeader rfl (Nat.le_of_eq (Nat.zero_add _))

theorem fits_of_start (start : st.offset = 0)
    (chunkType : UInt16) (stage : st.state = chunkStage chunkType) : Fits later st input := by
  refine ⟨fun _ => .inl start, fun image => ?_, fun chunk => ?_⟩
  · rw [stage] at image
    unfold chunkStage at image
    split_ifs at image
  · rw [stage] at chunk
    unfold chunkStage at chunk
    split_ifs at chunk

theorem fits_word (stage : st.state = .fill ∨ st.state = .crc)
    (inside : 4 ≤ st.offset ∨ st.offset + input.length ≤ 4) : Fits later st input := by
  refine ⟨fun _ => .inr inside, fun image => ?_, fun chunk => ?_⟩
  · rw [image] at stage
    rcases stage with stage | stage <;> cases stage
  · rw [chunk] at stage
    rcases stage with stage | stage <;> cases stage

section
variable {rest : List UInt8} {w' : Work σ}

theorem partialImageHeader_fits (stage : w.st.state = .imageHeader) (fits : Fits later w.st input)
    (taken : partialImageHeader w input = .next w' rest) : Fits later w'.st rest := by
  obtain ⟨length, sum, narrow⟩ := fits.image stage
  rcases takePart_next taken with ⟨short, rfl, rfl⟩ | ⟨full, ended⟩
  · have less : input.length ≤ w.st.remaining := by
      change w.st.remaining - (input.take w.st.remaining).length ≠ 0 at short
      rw [List.length_take] at short
      omega
    rw [List.take_of_length_le less, List.drop_of_length_le less]
    refine ⟨fun word => ?_, fun _ => ⟨?_, ?_, fun enough => ?_⟩, fun chunk => ?_⟩
    · change w.st.state = _ ∨ w.st.state = _ at word
      rw [stage] at word
      rcases word with word | word <;> cases word
    · exact (length_copyTo _ _ _).trans length
    · change w.st.offset + input.length + (w.st.remaining - input.length) = _
      omega
    · change w.st.remaining - input.length ≤ 0 + later.length at enough
      have whole := narrow (by omega)
      rw [copyTo_append] at whole
      exact whole
    · change w.st.state = _ at chunk
      rw [stage] at chunk
      cases chunk
  · obtain ⟨rfl, -, rfl⟩ := imageComplete_next ended
    refine fits_chunkHeader rfl ?_
    change w.st.remaining - (input.take w.st.remaining).length = 0 at full
    have enough : w.st.remaining ≤ input.length := by
      rw [List.length_take] at full
      omega
    have whole := narrow (by omega)
    have cut : input = input.take w.st.remaining ++ input.drop w.st.remaining :=
      (List.take_append_drop _ _).symm
    have size : (input.take w.st.remaining).length = w.st.remaining := List.length_take_of_le enough
    have outside : (copyTo w.st.imageHeader w.st.offset (input.take w.st.remaining)).length ≤
        w.st.offset + (input.take w.st.remaining).length := by
      rw [length_copyTo, size, sum]
      exact Nat.le_of_eq length
    rw [cut, List.append_assoc, copyTo_append, copyTo_outside _ outside] at whole
    exact Nat.le_trans (Nat.le_of_eq (Nat.zero_add _)) whole

theorem partialChunkHeader_fits (stage : w.st.state = .chunkHeader) (fits : Fits later w.st input)
    (taken : partialChunkHeader w input = .next w' rest) : Fits later w'.st rest := by
  rcases takePart_next (partialChunkHeader_next taken) with ⟨-, rfl, rfl⟩ | ⟨-, ended⟩
  · refine fits_chunkHeader stage ?_
    have inside := fits.chunk stage
    have bound : (input.take w.st.remaining).length ≤ w.st.remaining := List.length_take_le _ _
    change w.st.offset + (input.take w.st.remaining).length + (w.st.remaining - (input.take w.st.remaining).length) ≤ _
    omega
  · obtain ⟨rfl, -, -, rfl⟩ := chunkComplete_next ended
    exact fits_of_start rfl _ rfl

theorem partialChunkRaw_fits (stage : w.st.state = .raw)
    (taken : partialChunkRaw crcEnabled cb w input = .next w' rest) : Fits later w'.st rest := by
  obtain ⟨-, -, crc, st, taking, after⟩ := partialChunkRaw_next crcEnabled cb taken
  rw [after]
  split
  · exact fits_nextChunk _ _ _
  · have still : st.state = .raw := by
      rw [taking]
      exact stage
    refine ⟨fun word => ?_, fun image => ?_, fun chunk => ?_⟩
    · rw [still] at word
      rcases word with word | word <;> cases word
    · rw [still] at image
      cases image
    · rw [still] at chunk
      cases chunk

theorem takeFill_fits (stage : w.st.state = .fill)
    (taken : takeFill crcEnabled cb 4 w input = .next w' rest) : Fits later w'.st rest := by
  rcases takeFill_next crcEnabled cb taken with ⟨short, rfl, rfl⟩ | ⟨w₁, -, done, -, rfl⟩
  · refine fits_word (.inl stage) ?_
    change 4 ≤ w.st.offset + (input.take 4).length ∨ w.st.offset + (input.take 4).length + (input.drop 4).length ≤ 4
    rw [List.length_take] at short
    rw [List.length_take, List.length_drop]
    omega
  · exact fits_nextChunk _ _ _

theorem takeCrc_fits (stage : w.st.state = .crc) (fits : Fits later w.st input)
    (taken : takeCrc crcEnabled 4 w input = .next w' rest) : Fits later w'.st rest := by
  rcases takeCrc_next crcEnabled taken with ⟨missing, rfl, rfl⟩ | ⟨-, after, -⟩
  · have start := fits.words (.inr stage)
    refine fits_word (.inr stage) ?_
    change 4 ≤ w.st.offset + (input.take 4).length ∨ w.st.offset + (input.take 4).length + (input.drop 4).length ≤ 4
    rw [List.length_take, List.length_drop]
    omega
  · rw [after]
    exact fits_nextChunk _ _ _

theorem iteration_fits (fits : Fits later w.st input)
    (taken : iteration crcEnabled cb w input = .next w' rest) : Fits later w'.st rest := by
  unfold iteration at taken
  cases stage : w.st.state with
  | imageHeader =>
    rw [stage] at taken
    exact partialImageHeader_fits stage fits taken
  | chunkHeader =>
    rw [stage] at taken
    exact partialChunkHeader_fits stage fits taken
  | raw =>
    rw [stage] at taken
    exact partialChunkRaw_fits stage taken
  | fill =>
    rw [stage] at taken
    exact takeFill_fits stage taken
  | dontCare =>
    rw [stage] at taken
    obtain ⟨-, after, -⟩ := partialChunkDontCare_next cb taken
    rw [after]
    exact fits_nextChunk _ _ _
  | crc =>
    rw [stage] at taken
    exact takeCrc_fits stage fits taken

theorem iteration_eq_seamless (fits : Fits later w.st input) :
    seamlessIteration crcEnabled cb w input = iteration crcEnabled cb w input := by
  have word : w.st.state = .fill ∨ w.st.state = .crc → 4 ≤ w.st.offset ∨
      (input.take (4 - w.st.offset) = input.take 4 ∧ input.drop (4 - w.st.offset) = input.drop 4) := by
    intro inWord
    rcases fits.words inWord with start | known | short
    · rw [start]
      exact .inr ⟨rfl, rfl⟩
    · exact .inl known
    · rw [List.take_of_length_le (by omega), List.drop_of_length_le (by omega),
        List.take_of_length_le (by omega), List.drop_of_length_le (by omega)]
      exact .inr ⟨rfl, rfl⟩
  unfold seamlessIteration iteration
  cases stage : w.st.state with
  | imageHeader => rfl
  | chunkHeader =>
    have inside := fits.chunk stage
    have bound : (input.take w.st.remaining).length ≤ w.st.remaining := List.length_take_le _ _
    dsimp only
    unfold partialChunkHeader
    rw [if_neg (by omega)]
  | raw => rfl
  | fill =>
    dsimp only
    unfold partialChunkFill takeFill
    rcases word (.inl stage) with known | ⟨taken, left⟩
    · rw [if_neg (Nat.not_lt.mpr known), if_neg (Nat.not_lt.mpr known)]
    · rw [taken, left]
  | dontCare => rfl
  | crc =>
    dsimp only
    unfold partialChunkCrc takeCrc
    rcases word (.inr stage) with known | ⟨taken, left⟩
    · rw [if_neg (Nat.not_lt.mpr known), if_neg (Nat.not_lt.mpr known)]
    · rw [taken, left]

theorem loop_eq_seamless (fits : Fits later w.st input) :
    (seamless crcEnabled cb).loop w input = (machine crcEnabled cb).loop w input :=
  Consumer.loop_congr (c := machine crcEnabled cb) (d := seamless crcEnabled cb)
    (P := fun w input => Fits later w.st input) (fun _ => rfl)
    (fun _ _ _ _ _ fits taken => iteration_fits fits taken)
    (fun _ _ _ fits => iteration_eq_seamless fits) w input fits

end

def Gives (ended : Except (Halt σ) (Work σ)) (result : Result σ) : Prop :=
  match ended with
  | .ok w => result = ⟨.returns w.error, w.st, w.aux⟩
  | .error (.fail e w) => result.outcome = .returns (some e) ∧ result.aux = w.aux
  | .error (.overrun w) => result.outcome = .overrun ∧ result.aux = w.aux
  | .error (.hang w) => result.outcome = .hangs ∧ result.aux = w.aux

theorem Gives.agree {ended : Except (Halt σ) (Work σ)} {r s : Result σ} (first : Gives ended r)
    (second : Gives ended s) : r.aux = s.aux ∧ r.outcome = s.outcome ∧ (s.outcome = .returns none → r.st = s.st) := by
  cases ended with
  | ok w =>
    have same : r = s := Eq.trans first (Eq.symm second)
    rw [same]
    exact ⟨rfl, rfl, fun _ => rfl⟩
  | error halt =>
    cases halt with
    | fail e w =>
      refine ⟨first.2.trans second.2.symm, first.1.trans second.1.symm, fun none => ?_⟩
      have given : s.outcome = .returns (some e) := second.1
      rw [given] at none
      cases none
    | overrun w =>
      refine ⟨first.2.trans second.2.symm, first.1.trans second.1.symm, fun none => ?_⟩
      have given : s.outcome = .overrun := second.1
      rw [given] at none
      cases none
    | hang w =>
      refine ⟨first.2.trans second.2.symm, first.1.trans second.1.symm, fun none => ?_⟩
      have given : s.outcome = .hangs := second.1
      rw [given] at none
      cases none

section
variable {buff : List UInt8} {aux : σ}

theorem unsparse_gives (nonempty : buff ≠ []) (set : st.callbacks = true) (fits : Fits later st buff) :
    Gives ((seamless crcEnabled cb).loop ⟨st, none, aux⟩ buff) (tegrablSparseUnsparse crcEnabled cb st buff aux) := by
  unfold tegrablSparseUnsparse
  rw [if_neg nonempty, if_neg (not_not.mpr set), loop_eq_seamless (w := ⟨st, none, aux⟩) fits]
  cases (machine crcEnabled cb).loop ⟨st, none, aux⟩ buff with
  | ok w => rfl
  | error halt => cases halt <;> exact ⟨rfl, rfl⟩

end

def mismatch : Error := .own .verifyFailed 0

/-- No buffer of the feed starts inside a word and goes on behind it, and only the last one may have its
call report a CRC that differs. -/
def Kept (crcEnabled : Bool) (cb : Callbacks σ) (st : UnsparseState) (aux : σ) :
    List (List UInt8) → Prop
  | [] => True
  | buff :: buffers =>
    let result := tegrablSparseUnsparse crcEnabled cb st buff aux
    InStep st buff ∧ (buffers ≠ [] → result.outcome ≠ .returns (some mismatch)) ∧
      (result.outcome = .returns none → Kept crcEnabled cb result.st result.aux buffers)

instance decidableKept (crcEnabled : Bool) (cb : Callbacks σ) (st : UnsparseState) (aux : σ) :
    (buffers : List (List UInt8)) → Decidable (Kept crcEnabled cb st aux buffers)
  | [] => isTrue trivial
  | buff :: buffers =>
    let result := tegrablSparseUnsparse crcEnabled cb st buff aux
    have := decidableKept crcEnabled cb result.st result.aux buffers
    inferInstanceAs (Decidable (_ ∧ _ ∧ _))

section
variable {buff rest : List UInt8} {aux : σ} {w' : Work σ}

theorem fillWrites_ok {w done : Work σ} (written : fillWrites crcEnabled cb w = .ok done) :
    (∃ crc, done.st = { w.st with remaining := 0, computedCrc := crc }) ∧
      (done.error = none ∨ done.error = w.error) := by
  induction w using fillWrites.induct crcEnabled cb with
  | case1 w ended =>
    rw [fillWrites, if_pos ended] at written
    obtain rfl := Except.ok.inj written
    refine ⟨⟨w.st.computedCrc, ?_⟩, .inr rfl⟩
    rw [← ended]
  | case2 w more size bytes e aux failed =>
    rw [fillWrites, if_neg more] at written
    dsimp only at written
    rw [failed] at written
    cases written
  | case3 w more size bytes st aux passed ih =>
    rw [fillWrites, if_neg more] at written
    dsimp only at written
    rw [passed] at written
    obtain ⟨⟨crc, after⟩, error⟩ := ih written
    refine ⟨⟨crc, ?_⟩, .inl ?_⟩
    · rw [after]
      obtain ⟨crc', same⟩ := wrote_crc crcEnabled w.st bytes
      change { w.st.wrote crcEnabled bytes with remaining := 0, computedCrc := crc } = _
      rw [same]
    · rcases error with error | error <;> exact error

theorem iteration_keeps (taken : iteration crcEnabled cb w input = .next w' rest) : w'.st.callbacks = w.st.callbacks ∧
      (w'.error = none ∨ w'.error = w.error ∨ w'.error = some mismatch) := by
  unfold iteration at taken
  cases stage : w.st.state with
  | imageHeader =>
    rw [stage] at taken
    rcases takePart_next taken with ⟨-, -, rfl⟩ | ⟨-, ended⟩
    · exact ⟨rfl, .inr (.inl rfl)⟩
    · obtain ⟨-, -, rfl⟩ := imageComplete_next ended
      exact ⟨rfl, .inl rfl⟩
  | chunkHeader =>
    rw [stage] at taken
    rcases takePart_next (partialChunkHeader_next taken) with ⟨-, -, rfl⟩ | ⟨-, ended⟩
    · exact ⟨rfl, .inr (.inl rfl)⟩
    · obtain ⟨-, -, -, rfl⟩ := chunkComplete_next ended
      exact ⟨rfl, .inl rfl⟩
  | raw =>
    rw [stage] at taken
    obtain ⟨-, error, crc, st, taking, after⟩ := partialChunkRaw_next crcEnabled cb taken
    refine ⟨?_, .inl error⟩
    rw [after, taking]
    split <;> rfl
  | fill =>
    rw [stage] at taken
    rcases takeFill_next crcEnabled cb taken with ⟨-, -, rfl⟩ | ⟨w₁, begun, done, written, rfl⟩
    · exact ⟨rfl, .inr (.inl rfl)⟩
    · have same : w₁.st.callbacks = w.st.callbacks ∧ w₁.error = w.error := by
        rcases begun with ⟨-, rfl, -⟩ | ⟨-, rfl, -⟩ <;> exact ⟨rfl, rfl⟩
      obtain ⟨⟨crc, after⟩, error⟩ := fillWrites_ok written
      refine ⟨?_, ?_⟩
      · change done.st.callbacks = _
        rw [after]
        exact same.1
      · rcases error with error | error
        · exact .inl error
        · exact .inr (.inl (error.trans same.2))
  | dontCare =>
    rw [stage] at taken
    obtain ⟨-, after, error⟩ := partialChunkDontCare_next cb taken
    rw [after]
    exact ⟨rfl, .inl error⟩
  | crc =>
    rw [stage] at taken
    rcases takeCrc_next crcEnabled taken with ⟨-, -, rfl⟩ | ⟨-, after, error⟩
    · exact ⟨rfl, .inr (.inl rfl)⟩
    · rw [after]
      exact ⟨rfl, .inr error⟩

theorem unsparse_between (fits : Fits later st buff) (set : st.callbacks = true) {w : Work σ}
    (ended : (machine crcEnabled cb).loop ⟨st, none, aux⟩ buff = .ok w) :
    Fits later w.st [] ∧ w.st.callbacks = true ∧ (w.error = none ∨ w.error = some mismatch) := by
  refine Consumer.loop_invariant (P := fun w input => Fits later w.st input ∧ w.st.callbacks = true ∧
    (w.error = none ∨ w.error = some mismatch)) ?_ _ buff ⟨fits, set, .inl rfl⟩ ended
  rintro w input w' rest - ⟨fits, set, error⟩ taken
  obtain ⟨same, next⟩ := iteration_keeps taken
  refine ⟨iteration_fits fits taken, same.trans set, ?_⟩
  rcases next with next | next | next
  · exact .inl next
  · rw [next]
    exact error
  · exact .inr next

theorem Fits.next (fits : Fits (buff ++ later) st []) (words : InStep st buff) : Fits later st buff := by
  refine ⟨words, fun image => ?_, fits.chunk⟩
  obtain ⟨length, sum, narrow⟩ := fits.image image
  rw [List.length_append, List.length_nil, Nat.zero_add, List.nil_append] at narrow
  exact ⟨length, sum, narrow⟩

theorem feed_gives (buffers : List (List UInt8)) (nonempty : [] ∉ buffers) (set : st.callbacks = true)
    (fits : Fits buffers.flatten st []) (kept : Kept crcEnabled cb st aux buffers) :
    Gives (buffers.foldlM (seamless crcEnabled cb).loop ⟨st, none, aux⟩) (feed crcEnabled cb st aux buffers) := by
  induction buffers generalizing st aux with
  | nil => rfl
  | cons buff buffers ih =>
    obtain ⟨first, others⟩ := not_or.mp (mt List.mem_cons.mpr nonempty)
    obtain ⟨words, early, onward⟩ := kept
    have here : Fits buffers.flatten st buff := fits.next words
    have gives : Gives ((seamless crcEnabled cb).loop ⟨st, none, aux⟩ buff)
        (tegrablSparseUnsparse crcEnabled cb st buff aux) :=
      unsparse_gives (fun empty => first empty.symm) set here
    rw [List.foldlM_cons]
    unfold feed
    dsimp only
    cases ended : (seamless crcEnabled cb).loop ⟨st, none, aux⟩ buff with
    | error halt =>
      rw [ended] at gives
      have stopped : (tegrablSparseUnsparse crcEnabled cb st buff aux).outcome ≠ .returns none := by
        cases halt with
        | fail e w =>
          rw [show (tegrablSparseUnsparse crcEnabled cb st buff aux).outcome = _ from gives.1]
          exact fun none => by cases none
        | overrun w =>
          rw [show (tegrablSparseUnsparse crcEnabled cb st buff aux).outcome = _ from gives.1]
          exact fun none => by cases none
        | hang w =>
          rw [show (tegrablSparseUnsparse crcEnabled cb st buff aux).outcome = _ from gives.1]
          exact fun none => by cases none
      rw [if_neg stopped]
      exact gives
    | ok w =>
      rw [ended] at gives
      rw [loop_eq_seamless (w := ⟨st, none, aux⟩) here] at ended
      obtain ⟨still, same, error⟩ := unsparse_between here set ended
      have result : tegrablSparseUnsparse crcEnabled cb st buff aux = ⟨.returns w.error, w.st, w.aux⟩ :=
        gives
      rw [result] at early onward ⊢
      rcases error with clean | differs
      · obtain ⟨after, error, out⟩ := w
        obtain rfl : error = none := clean
        rw [if_pos rfl]
        exact ih others same still (onward rfl)
      · -- A CRC that differs is only reported by the last call.
        have last : buffers = [] := by
          by_contra more
          exact early more (by rw [differs])
        have reported : Outcome.returns w.error ≠ .returns none := by
          rw [differs]
          exact fun clean => by cases clean
        rw [if_neg reported, last]
        rfl

end

end

inductive Output where
  | byte (b : UInt8)
  | skip (size : Nat)
  deriving DecidableEq, Repr

def recorder : Callbacks (List Output) where
  writer bytes out := (none, out ++ bytes.map .byte)
  seeker size out := (none, out ++ [.skip size])

theorem recorder_additive : Additive recorder := by
  refine ⟨fun _ _ => rfl, fun _ _ => rfl, fun a b out => ?_⟩
  change out ++ (a ++ b).map Output.byte = out ++ a.map Output.byte ++ b.map Output.byte
  rw [List.map_append, List.append_assoc]

theorem init_ok {maxUnsparseSize : UInt64} {st : UnsparseState}
    (init : tegrablSparseInitUnsparseState maxUnsparseSize true = .ok st) : st = .initial maxUnsparseSize true := by
  unfold tegrablSparseInitUnsparseState at init
  split at init
  · cases init
  · exact (Except.ok.inj init).symm

theorem initial_fits {stream : List UInt8} (narrow : NarrowHeader stream) (maxUnsparseSize : UInt64)
    (callbacks : Bool) (input later : List UInt8) (cut : stream = input ++ later) :
    Fits later (.initial maxUnsparseSize callbacks) input := by
  refine ⟨fun _ => .inl rfl, fun _ => ⟨List.length_replicate, Nat.zero_add _, fun enough => ?_⟩,
    fun chunk => by cases chunk⟩
  change imageHeaderBytes ≤ input.length + later.length at enough
  rw [← List.length_append, ← cut] at enough
  have covers : (List.replicate imageHeaderBytes (0 : UInt8)).length ≤ stream.length := by
    rwa [List.length_replicate]
  change (ImageHeader.codec.decode (copyTo (List.replicate imageHeaderBytes 0) 0
    (input ++ later))).chunkHdrSz.toNat ≤ _
  rw [← cut, copyTo_zero covers, List.length_replicate]
  exact narrow enough

/-- However the stream is cut, the same bytes and seeks are put out and the calls end in the same way;
if no call fails, they end in the same state. -/
theorem unsparse_cut_independent (crcEnabled : Bool) (maxUnsparseSize : UInt64) (st : UnsparseState)
    (buffers : List (List UInt8)) (init : tegrablSparseInitUnsparseState maxUnsparseSize true = .ok st)
    (some : buffers ≠ []) (nonempty : [] ∉ buffers) (narrow : NarrowHeader buffers.flatten)
    (kept : Kept crcEnabled recorder st [] buffers) : (feed crcEnabled recorder st [] buffers).aux =
        (tegrablSparseUnsparse crcEnabled recorder st buffers.flatten []).aux ∧
      (feed crcEnabled recorder st [] buffers).outcome =
        (tegrablSparseUnsparse crcEnabled recorder st buffers.flatten []).outcome ∧
      ((tegrablSparseUnsparse crcEnabled recorder st buffers.flatten []).outcome = .returns none →
        (feed crcEnabled recorder st [] buffers).st =
          (tegrablSparseUnsparse crcEnabled recorder st buffers.flatten []).st) := by
  obtain rfl := init_ok init
  have stream : buffers.flatten ≠ [] := by
    intro empty
    cases buffers with
    | nil => exact some rfl
    | cons buff buffers =>
      rw [List.flatten_cons] at empty
      rw [(List.append_eq_nil_iff.mp empty).1] at nonempty
      exact nonempty List.mem_cons_self
  have stops : ¬ (seamless crcEnabled recorder).goesOn
      ⟨.initial maxUnsparseSize true, none, []⟩ := Bool.false_ne_true
  have cut := feed_gives buffers nonempty rfl (initial_fits narrow maxUnsparseSize true [] _ rfl) kept
  rw [Consumer.foldlM_loop (seamless_resumes recorder_additive) buffers nonempty _ stops] at cut
  exact cut.agree (unsparse_gives stream rfl
    (initial_fits narrow maxUnsparseSize true _ [] (List.append_nil _).symm))

def headerImage (totalBlks totalChunks : UInt32) : List UInt8 :=
  ImageHeader.codec.encode ⟨sparseHeaderMagic, 1, 0, 28, 12, 4, totalBlks, totalChunks, 0⟩

def chunkImage (chunkType : UInt16) (chunkSz totalSz : UInt32) : List UInt8 :=
  ChunkHeader.codec.encode ⟨chunkType, 0, chunkSz, totalSz⟩

def smallImage : List UInt8 :=
  List.flatten [headerImage 4 3, chunkImage chunkTypeRaw 1 16, [1, 2, 3, 4],
    chunkImage chunkTypeFill 2 16, [5, 6, 7, 8], chunkImage chunkTypeDontCare 1 12, [9]]

def smallPieces : List (List UInt8) :=
  [smallImage.take 10, (smallImage.drop 10).take 20, (smallImage.drop 30).take 12,
    (smallImage.drop 42).take 16, (smallImage.drop 58).take 2, smallImage.drop 60]

def freshState : UnsparseState := .initial 64 true

theorem unsparse_cut_independent_small :
    tegrablSparseInitUnsparseState 64 true = .ok freshState ∧ smallPieces ≠ [] ∧ [] ∉ smallPieces ∧
      NarrowHeader smallPieces.flatten ∧ Kept false recorder freshState [] smallPieces ∧
      (feed false recorder freshState [] smallPieces).aux =
        (tegrablSparseUnsparse false recorder freshState smallPieces.flatten []).aux := by
  have init : tegrablSparseInitUnsparseState 64 true = .ok freshState := rfl
  have some : smallPieces ≠ [] := by decide
  have nonempty : [] ∉ smallPieces := by decide
  have narrow : NarrowHeader smallPieces.flatten := by decide
  have kept : Kept false recorder freshState [] smallPieces := by decide +kernel
  exact ⟨init, some, nonempty, narrow, kept,
    (unsparse_cut_independent false 64 freshState smallPieces init some nonempty narrow kept).1⟩

def badPieces : List (List UInt8) := [headerImage 4 3, List.replicate 12 0]

/-- A call that fails does not save the state, so it stays as the call before has left it. -/
theorem unsparse_cut_independent_failed : ¬ ∀ (crcEnabled : Bool) (maxUnsparseSize : UInt64) (st : UnsparseState)
      (buffers : List (List UInt8)), tegrablSparseInitUnsparseState maxUnsparseSize true = .ok st →
      buffers ≠ [] → [] ∉ buffers → (feed crcEnabled recorder st [] buffers).aux =
          (tegrablSparseUnsparse crcEnabled recorder st buffers.flatten []).aux ∧
        (feed crcEnabled recorder st [] buffers).st =
          (tegrablSparseUnsparse crcEnabled recorder st buffers.flatten []).st ∧
        ((∃ e, (feed crcEnabled recorder st [] buffers).outcome = .returns (some e)) ↔
          ∃ e, (tegrablSparseUnsparse crcEnabled recorder st buffers.flatten []).outcome = .returns (some e)) := by
  intro claim
  have same := (claim false 64 freshState badPieces rfl (by decide) (by decide)).2.1
  have different : (feed false recorder freshState [] badPieces).st.state ≠
      (tegrablSparseUnsparse false recorder freshState badPieces.flatten []).st.state := by
    decide +kernel
  exact different (congrArg UnsparseState.state same)

-- A fill value that is cut, with more than its rest in the next buffer, loses what is behind it: here
-- the seek.
example :
    (tegrablSparseUnsparse false recorder freshState smallImage []).aux =
      (feed false recorder freshState [] [smallImage.take 58, smallImage.drop 58]).aux ++ [.skip 4] := by
  decide +kernel

end Cboot.Sparse
