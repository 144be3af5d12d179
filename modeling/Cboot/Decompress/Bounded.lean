import Cboot.Decompress.Lzf

/-!
Whether the data of a block is all there is found out with the bytes that were left in front of its header, so the data
may end up to seven bytes behind the input.
-/

namespace Cboot.Lzf
open Lib Utils

/-- `lzf_decompress` writes no more than it may, and returns what it has written unless it fails. -/
structure Decoder.Lawful (lzfDecompress : Decoder) : Prop where
  bounded : ∀ input size, (lzfDecompress input size).2.length ≤ size
  counts : ∀ input size, (lzfDecompress input size).1 ≠ 0 →
    (lzfDecompress input size).1.toNat = (lzfDecompress input size).2.length

structure Result.Contained (r : Result) (inBuffer inSize outbufSize : Nat) : Prop where
  reads : ∀ x ∈ r.reads, x.Inside inBuffer inSize
  writes : ∀ x ∈ r.writes, x.Inside 0 outbufSize
  counted : r.written.toNat = (r.writes.map Extent.size).sum

/-- What stands at the start of a block: nothing that data comes behind, a header with the size of the data, or one with
the sizes before and after the decompression, which may be cut off. -/
inductive Header where
  | none
  | plain (size : Nat)
  | cut
  | packed (csize ucsize : Nat)
  deriving DecidableEq, Repr

def headerAt (m : Mem) (a left : Nat) : Header :=
  if left < minHdrSize ∨ m a ≠ 90 ∨ m (a + 1) ≠ 86 then .none
  else if m (a + 2) = 0 then .plain (shortAt m (a + 3))
  else if m (a + 2) = 1 then
    if left < type1HdrSize then .cut else .packed (shortAt m (a + 3)) (shortAt m (a + 5))
  else .none

section
variable (lzfDecompress : Decoder) (m : Mem) (inSize outbufSize : UInt32)

def Going (s : State) : Prop := s.processed < inSize ∧ s.context.dataRead < s.context.csumOffset

instance (s : State) : Decidable (Going inSize s) := inferInstanceAs (Decidable (_ ∧ _))

/-- What a pass relies on: the CRC and the data are there, and a block that cannot be decompressed leaves nothing in the
output. -/
def PassFits (s : State) : Prop :=
  if Going inSize s then
    match headerAt m s.inBuffer (inSize - s.processed).toNat with
    | .none => True
    | .plain size =>
      size ≤ (inSize - s.processed).toNat → s.out + size ≤ outbufSize.toNat →
        size + type0HdrSize ≤ (inSize - s.processed).toNat
    | .cut =>
      s.context.sized.dataRemSize.toNat ≤ (inSize - s.processed).toNat → outbufSize.toNat < s.out + s.context.dataUcsize
    | .packed csize ucsize =>
      csize ≤ (inSize - s.processed).toNat → s.out + ucsize ≤ outbufSize.toNat →
        csize + type1HdrSize ≤ (inSize - s.processed).toNat ∧
          ((lzfDecompress (bytesAt m (s.inBuffer + type1HdrSize) csize) ucsize).1 = UInt32.ofNat ucsize ∨
            (lzfDecompress (bytesAt m (s.inBuffer + type1HdrSize) csize) ucsize).2 = [])
  else s.context.csumOffset ≤ s.context.dataRead → s.processed.toNat + 4 ≤ inSize.toNat

end

section
variable {lzfDecompress : Decoder} {m : Mem} {inSize outbufSize unprocessed : UInt32} {s s' : State} {r : Result}

def State.opened (s : State) : State :=
  { s with
    context := { s.context with hdr := s.inBuffer }
    reads := s.reads ++ [⟨s.inBuffer, 1⟩, ⟨s.inBuffer + 1, 1⟩, ⟨s.inBuffer + 2, 1⟩] }

def State.openedPlain (m : Mem) (s : State) : State :=
  { s.opened with
    processed := s.processed + UInt32.ofNat type0HdrSize
    context := ({ s.opened.context with
      dataCsize := -1
      dataUcsize := shortAt m (s.inBuffer + 3)
      dataRead := s.context.dataRead + UInt32.ofNat type0HdrSize
      data := s.inBuffer + type0HdrSize } : Context).sized
    reads := s.opened.reads ++ [⟨s.inBuffer + 3, 2⟩] }

def State.openedPacked (m : Mem) (s : State) : State :=
  { s.opened with
    processed := s.processed + UInt32.ofNat type1HdrSize
    context := ({ s.opened.context with
      dataCsize := shortAt m (s.inBuffer + 3)
      dataUcsize := shortAt m (s.inBuffer + 5)
      dataRead := s.context.dataRead + UInt32.ofNat type1HdrSize
      data := s.inBuffer + type1HdrSize } : Context).sized
    reads := s.opened.reads ++ [⟨s.inBuffer + 3, 4⟩] }

def State.openedCut (unprocessed : UInt32) (s : State) : State :=
  { s.opened with
    context := ({ s.opened.context with hRem := UInt32.ofNat type1HdrSize - unprocessed } : Context).sized }

theorem blockHeader_eq (data : s.context.data = 0) (hdr : s.context.hdr = 0)
    (enough : ¬ unprocessed.toNat < minHdrSize) (first : m s.inBuffer = 90) (second : m (s.inBuffer + 1) = 86) :
    blockHeader m unprocessed s =
      if m (s.inBuffer + 2) = 0 then .next (s.openedPlain m)
      else if m (s.inBuffer + 2) = 1 then
        if unprocessed.toNat < type1HdrSize then .next (s.openedCut unprocessed) else .next (s.openedPacked m)
      else .leave (s.opened.fail .invalid) := by
  have started : blockStart m unprocessed s = .next { s with
        context := { s.context with hdr := s.inBuffer }
        reads := s.reads ++ [⟨s.inBuffer, 1⟩] ++ [⟨s.inBuffer + 1, 1⟩] } := by
    simp [blockStart, hdr, enough, first, second, State.read]
  rw [blockHeader, if_pos data, started]
  by_cases plain : m (s.inBuffer + 2) = 0
  · simp [blockSizes, State.read, plain, State.openedPlain, State.opened]
  · by_cases packed : m (s.inBuffer + 2) = 1
    · by_cases short : unprocessed.toNat < type1HdrSize
      · simp [blockSizes, State.read, packed, short, State.openedCut, State.opened]
      · simp [blockSizes, State.read, packed, short, State.openedPacked, State.opened]
    · simp [blockSizes, State.read, plain, packed, State.opened, State.fail]

theorem shortAt_le (m : Mem) (a : Nat) : shortAt m a ≤ 65535 := by
  have high := (m a).toNat_lt
  have low := (m (a + 1)).toNat_lt
  unfold shortAt
  omega

theorem toNat_size {n : Nat} (small : n ≤ 65535) : (UInt32.ofNat n).toNat = n := Nat.mod_eq_of_lt (by omega)

theorem toNat_add_ofNat {a : UInt32} {n limit : Nat} (small : a.toNat + n ≤ limit) (wide : limit < 2 ^ 32) :
    (a + UInt32.ofNat n).toNat = a.toNat + n := by
  rw [UInt32.toNat_add, UInt32.toNat_ofNat', Nat.mod_eq_of_lt (show n < 2 ^ 32 by omega), Nat.mod_eq_of_lt (by omega)]

variable (lzfDecompress m inSize outbufSize) in
structure Between (inBuffer : Nat) (s : State) : Prop where
  data : s.context.data = 0
  hdr : s.context.hdr = 0
  csumOffset : s.context.csumOffset = inSize - 4
  place : s.inBuffer = inBuffer + s.processed.toNat
  read : s.context.dataRead = s.processed
  inside : s.processed.toNat ≤ inSize.toNat
  room : s.out ≤ outbufSize.toNat
  written : s.written.toNat = s.out
  reads : ∀ x ∈ s.reads, x.Inside inBuffer inSize.toNat
  writes : ∀ x ∈ s.writes, x.Inside 0 outbufSize.toNat
  counted : (s.writes.map Extent.size).sum = s.out
  ucsize : s.context.dataUcsize ≤ 65535
  csize : s.context.dataCsize = -1 ∨ ∃ csize : Nat, s.context.dataCsize = csize ∧ csize ≤ 65535 ∧
    (csize = 0 → (lzfDecompress [] s.context.dataUcsize).1 = UInt32.ofNat s.context.dataUcsize)

structure Harmless (inBuffer inSize : Nat) (s : State) (r : Result) : Prop where
  reads : ∀ x ∈ r.reads, x ∈ s.reads ∨ x.Inside inBuffer inSize
  writes : r.writes = s.writes
  written : r.written = s.written

variable {inBuffer : Nat} {t : State}

theorem checkCrc_harmless (reads : ∀ x ∈ t.reads, x ∈ s.reads ∨ x.Inside inBuffer inSize.toNat)
    (writes : t.writes = s.writes) (written : t.written = s.written)
    (inside : t.context.csumOffset ≤ t.context.dataRead → (Extent.mk t.inBuffer 4).Inside inBuffer inSize.toNat) :
    Harmless inBuffer inSize.toNat s (checkCrc m t) := by
  unfold checkCrc
  split
  · rename_i due
    refine ⟨?_, writes, written⟩
    intro x member
    rcases List.mem_append.mp member with before | last
    · exact reads x before
    · rw [List.mem_singleton.mp last]
      exact .inr (inside due)
  · exact ⟨reads, writes, written⟩

theorem lzfPass_going (going : Going inSize s) : lzfPass lzfDecompress m inSize outbufSize s =
    (blockHeader m (inSize - s.processed) s).andThen (blockData lzfDecompress m outbufSize (inSize - s.processed)) := by
  rw [lzfPass]
  exact if_pos going

theorem headerAt_ne_none {a left : Nat} {found : Header} (header : headerAt m a left = found) (some : found ≠ .none) :
    ¬ left < minHdrSize ∧ m a = 90 ∧ m (a + 1) = 86 := by
  unfold headerAt at header
  by_cases other : left < minHdrSize ∨ m a ≠ 90 ∨ m (a + 1) ≠ 86
  · rw [if_pos other] at header
    exact absurd header.symm some
  · simpa using other

theorem headerAt_eq_plain {a left size : Nat} (header : headerAt m a left = .plain size) :
    m (a + 2) = 0 ∧ size = shortAt m (a + 3) := by
  obtain ⟨enough, z, v⟩ := headerAt_ne_none header nofun
  simp only [headerAt, enough, z, v] at header
  simp at header
  split at header
  · rename_i type
    cases header
    exact ⟨type, rfl⟩
  · split at header
    · split at header <;> cases header
    · cases header

theorem headerAt_eq_cut {a left : Nat} (header : headerAt m a left = .cut) : m (a + 2) = 1 ∧ left < type1HdrSize := by
  obtain ⟨enough, z, v⟩ := headerAt_ne_none header nofun
  simp only [headerAt, enough, z, v] at header
  simp at header
  split at header
  · cases header
  · split at header
    · rename_i type
      split at header
      · rename_i short
        exact ⟨type, short⟩
      · cases header
    · cases header

theorem headerAt_eq_packed {a left csize ucsize : Nat} (header : headerAt m a left = .packed csize ucsize) :
    m (a + 2) = 1 ∧ ¬ left < type1HdrSize ∧ csize = shortAt m (a + 3) ∧ ucsize = shortAt m (a + 5) := by
  obtain ⟨enough, z, v⟩ := headerAt_ne_none header nofun
  simp only [headerAt, enough, z, v] at header
  simp at header
  split at header
  · cases header
  · split at header
    · rename_i type
      split at header
      · cases header
      · rename_i whole
        cases header
        exact ⟨type, whole, rfl, rfl⟩
    · cases header

theorem not_lt_ofNat (small : size ≤ 65535) : ¬ unprocessed < UInt32.ofNat size ↔ size ≤ unprocessed.toNat := by
  rw [UInt32.lt_iff_toNat_lt, toNat_size small, Nat.not_lt]

theorem openedPlain_remSize (m : Mem) (s : State) :
    (s.openedPlain m).context.dataRemSize = UInt32.ofNat (shortAt m (s.inBuffer + 3)) := rfl

theorem openedPacked_remSize (m : Mem) (s : State) :
    (s.openedPacked m).context.dataRemSize = UInt32.ofNat (shortAt m (s.inBuffer + 3)) := by
  have other : (shortAt m (s.inBuffer + 3) : Int) ≠ -1 := by omega
  simp [State.openedPacked, Context.sized, other]

theorem openedPacked_compressed (m : Mem) (s : State) : (s.openedPacked m).context.dataCompressed = true := by
  have other : (shortAt m (s.inBuffer + 3) : Int) ≠ -1 := by omega
  simp [State.openedPacked, Context.sized, other]

theorem Decoder.Lawful.length_eq (lawful : lzfDecompress.Lawful) {input : List UInt8} (small : size ≤ 65535)
    (answer : (lzfDecompress input size).1 = UInt32.ofNat size) : (lzfDecompress input size).2.length = size := by
  by_cases empty : size = 0
  · rw [empty]
    exact Nat.le_zero.mp (lawful.bounded input 0)
  · have number : (lzfDecompress input size).1.toNat = size := by
      rw [answer, toNat_size small]
    rw [← lawful.counts input size fun zero => empty ?_, number]
    rw [← number, zero]
    rfl

theorem not_going_leaves (stops : ¬ Going inSize s) :
    lzfPass lzfDecompress m inSize outbufSize s = .leave (checkCrc m s) := if_neg stops

variable (between : Between lzfDecompress inSize outbufSize inBuffer s)
include between

theorem Between.contained
    (harmless : Harmless inBuffer inSize.toNat s r) : r.Contained inBuffer inSize.toNat outbufSize.toNat := by
  refine ⟨?_, ?_, ?_⟩
  · intro x member
    exact (harmless.reads x member).elim (between.reads x) id
  · rw [harmless.writes]
    exact between.writes
  · rw [harmless.writes, harmless.written, between.written, between.counted]

theorem left_eq :
    (inSize - s.processed).toNat = inSize.toNat - s.processed.toNat :=
  UInt32.toNat_sub_of_le _ _ (UInt32.le_iff_toNat_le.mpr between.inside)

theorem inside_left {i size : Nat}
    (enough : i + size ≤ (inSize - s.processed).toNat) :
    (Extent.mk (s.inBuffer + i) size).Inside inBuffer inSize.toNat := by
  have inside := between.inside
  rw [left_eq between] at enough
  right
  dsimp only
  rw [between.place]
  omega

theorem opened_harmless
    (enough : minHdrSize ≤ (inSize - s.processed).toNat) :
    ∀ x ∈ s.opened.reads, x ∈ s.reads ∨ x.Inside inBuffer inSize.toNat := by
  have enough : 5 ≤ (inSize - s.processed).toNat := enough
  intro x member
  rcases List.mem_append.mp member with before | new
  · exact .inl before
  · right
    simp only [List.mem_cons, List.not_mem_nil, or_false] at new
    rcases new with rfl | rfl | rfl
    · exact inside_left between (i := 0) (by omega)
    · exact inside_left between (by omega)
    · exact inside_left between (by omega)

theorem pass_none (going : Going inSize s)
    (header : headerAt m s.inBuffer (inSize - s.processed).toNat = .none) :
    ∃ r, lzfPass lzfDecompress m inSize outbufSize s = .leave r ∧ Harmless inBuffer inSize.toNat s r := by
  have early : ¬ s.context.csumOffset ≤ s.context.dataRead := UInt32.not_le.mpr going.2
  rw [lzfPass_going going]
  by_cases short : (inSize - s.processed).toNat < minHdrSize
  · have left : blockHeader m (inSize - s.processed) s = State.quit m
        { s with context := { s.context with
          hdr := s.inBuffer
          hRem := UInt32.ofNat minHdrSize - (inSize - s.processed) } } := by
      simp [blockHeader, blockStart, between.data, between.hdr, short, State.quit]
    rw [left]
    refine ⟨_, rfl, checkCrc_harmless (fun x member => .inl member) rfl rfl fun due => absurd due early⟩
  · have enough : 5 ≤ (inSize - s.processed).toNat := Nat.not_lt.mp short
    have first : (Extent.mk s.inBuffer 1).Inside inBuffer inSize.toNat := inside_left between (i := 0) (by omega)
    have reads : ∀ x ∈ s.reads ++ [⟨s.inBuffer, 1⟩], x ∈ s.reads ∨ x.Inside inBuffer inSize.toNat := by
      intro x member
      rcases List.mem_append.mp member with before | new
      · exact .inl before
      · rw [List.mem_singleton.mp new]
        exact .inr first
    by_cases zero : m s.inBuffer = 0
    · have left : blockHeader m (inSize - s.processed) s = State.quit m
          { s with
            context := { s.context with hdr := s.inBuffer }
            reads := s.reads ++ [⟨s.inBuffer, 1⟩] } := by
        simp [blockHeader, blockStart, between.data, between.hdr, short, zero, State.quit, State.read]
      rw [left]
      exact ⟨_, rfl, checkCrc_harmless reads rfl rfl fun due => absurd due early⟩
    · by_cases z : m s.inBuffer = 90
      · by_cases v : m (s.inBuffer + 1) = 86
        · rw [blockHeader_eq between.data between.hdr short z v]
          have plain : m (s.inBuffer + 2) ≠ 0 := by
            intro type
            simp [headerAt, short, z, v, type] at header
          have packed : m (s.inBuffer + 2) ≠ 1 := by
            intro type
            by_cases cut : (inSize - s.processed).toNat < type1HdrSize
            · simp [headerAt, short, z, v, type, cut] at header
            · simp [headerAt, short, z, v, type, cut] at header
          rw [if_neg plain, if_neg packed]
          exact ⟨_, rfl, opened_harmless between enough, rfl, rfl⟩
        · have left : blockHeader m (inSize - s.processed) s = .leave
              ⟨some .invalid, { s.context with hdr := s.inBuffer }, s.written,
                s.reads ++ [⟨s.inBuffer, 1⟩] ++ [⟨s.inBuffer + 1, 1⟩], s.writes⟩ := by
            simp [blockHeader, blockStart, between.data, between.hdr, short, z, v, State.read, State.fail]
          rw [left]
          refine ⟨_, rfl, ?_, rfl, rfl⟩
          intro x member
          rcases List.mem_append.mp member with before | new
          · exact reads x before
          · rw [List.mem_singleton.mp new]
            exact .inr (inside_left between (by omega))
      · have left : blockHeader m (inSize - s.processed) s = .leave
            ⟨some .invalid, { s.context with hdr := s.inBuffer }, s.written, s.reads ++ [⟨s.inBuffer, 1⟩],
              s.writes⟩ := by
          simp [blockHeader, blockStart, between.data, between.hdr, short, zero, z, State.read, State.fail]
        rw [left]
        exact ⟨_, rfl, reads, rfl, rfl⟩

omit between in
theorem blockData_leaves (reads : ∀ x ∈ t.reads, x ∈ s.reads ∨ x.Inside inBuffer inSize.toNat)
    (writes : t.writes = s.writes) (written : t.written = s.written) (place : t.inBuffer = s.inBuffer)
    (between : Between lzfDecompress inSize outbufSize inBuffer s) (enough : 4 ≤ (inSize - s.processed).toNat)
    (stops : unprocessed < t.context.dataRemSize ∨ outbufSize.toNat < t.out + t.context.dataUcsize) :
    ∃ r, blockData lzfDecompress m outbufSize unprocessed t = .leave r ∧ Harmless inBuffer inSize.toNat s r := by
  unfold blockData
  by_cases missing : unprocessed < t.context.dataRemSize
  · rw [if_pos missing]
    refine ⟨_, rfl, checkCrc_harmless reads writes written fun _ => ?_⟩
    change (Extent.mk t.inBuffer 4).Inside inBuffer inSize.toNat
    rw [place]
    exact inside_left between (i := 0) (by omega)
  · have narrow : (outbufSize.toNat : Int) - t.out < t.context.dataUcsize := by
      have := stops.resolve_left missing
      omega
    rw [if_neg missing, if_pos narrow]
    exact ⟨_, rfl, reads, writes, written⟩

variable {size : Nat}

theorem pass_plain (going : Going inSize s)
    (header : headerAt m s.inBuffer (inSize - s.processed).toNat = .plain size) :
    lzfPass lzfDecompress m inSize outbufSize s =
      blockData lzfDecompress m outbufSize (inSize - s.processed) (s.openedPlain m) := by
  obtain ⟨enough, z, v⟩ := headerAt_ne_none header nofun
  rw [lzfPass_going going, blockHeader_eq between.data between.hdr enough z v, if_pos (headerAt_eq_plain header).1,
    Pass.next_andThen]

theorem pass_cut (going : Going inSize s)
    (header : headerAt m s.inBuffer (inSize - s.processed).toNat = .cut) : lzfPass lzfDecompress m inSize outbufSize s =
      blockData lzfDecompress m outbufSize (inSize - s.processed) (s.openedCut (inSize - s.processed)) := by
  obtain ⟨enough, z, v⟩ := headerAt_ne_none header nofun
  obtain ⟨type, short⟩ := headerAt_eq_cut header
  rw [lzfPass_going going, blockHeader_eq between.data between.hdr enough z v, if_neg (by rw [type]; decide),
    if_pos type, if_pos short, Pass.next_andThen]

variable {csize ucsize : Nat}

theorem pass_packed (going : Going inSize s) (header : headerAt m s.inBuffer (inSize - s.processed).toNat = .packed csize ucsize) :
    lzfPass lzfDecompress m inSize outbufSize s =
      blockData lzfDecompress m outbufSize (inSize - s.processed) (s.openedPacked m) := by
  obtain ⟨enough, z, v⟩ := headerAt_ne_none header nofun
  obtain ⟨type, whole, -⟩ := headerAt_eq_packed header
  rw [lzfPass_going going, blockHeader_eq between.data between.hdr enough z v, if_neg (by rw [type]; decide),
    if_pos type, if_neg whole, Pass.next_andThen]

variable (lzfDecompress m) in
def State.answer (t : State) : UInt32 × List UInt8 :=
  lzfDecompress (bytesAt m t.context.data t.context.dataCsize.toNat) t.context.dataUcsize

def State.afterPlain (m : Mem) (t : State) : State :=
  ((t.read t.context.data t.context.dataUcsize).write t.context.dataUcsize).advance t.context.dataUcsize
    (tegrablUtilsCrc32 t.context.csum (bytesAt m t.context.data t.context.dataUcsize))

variable (lzfDecompress m) in
def State.tried (t : State) : State :=
  (t.read t.context.data t.context.dataCsize.toNat).write (t.answer lzfDecompress m).2.length

variable (lzfDecompress m) in
def State.afterPacked (t : State) : State :=
  (t.tried lzfDecompress m).advance t.context.dataCsize.toNat
    (tegrablUtilsCrc32 t.context.csum (t.answer lzfDecompress m).2)

omit between in
theorem blockData_plain (enough : ¬ unprocessed < t.context.dataRemSize)
    (room : t.out + t.context.dataUcsize ≤ outbufSize.toNat) (plain : t.context.dataCompressed = false) :
    blockData lzfDecompress m outbufSize unprocessed t = .next (t.afterPlain m) := by
  have wide : ¬ (outbufSize.toNat : Int) - t.out < t.context.dataUcsize := by omega
  rw [blockData, if_neg enough, if_neg wide, plain]
  rfl

omit between in
theorem blockData_packed (enough : ¬ unprocessed < t.context.dataRemSize)
    (room : t.out + t.context.dataUcsize ≤ outbufSize.toNat) (packed : t.context.dataCompressed = true) :
    blockData lzfDecompress m outbufSize unprocessed t =
      if (t.answer lzfDecompress m).1 ≠ UInt32.ofNat t.context.dataUcsize then
        .leave ((t.tried lzfDecompress m).fail .badParameter) else .next (t.afterPacked lzfDecompress m) := by
  have wide : ¬ (outbufSize.toNat : Int) - t.out < t.context.dataUcsize := by omega
  rw [blockData, if_neg enough, if_neg wide, packed]
  rfl

theorem openedPlain_reads
    (enough : minHdrSize ≤ (inSize - s.processed).toNat) :
    ∀ x ∈ (s.openedPlain m).reads, x ∈ s.reads ∨ x.Inside inBuffer inSize.toNat := by
  intro x member
  rcases List.mem_append.mp member with before | new
  · exact opened_harmless between enough x before
  · rw [List.mem_singleton.mp new]
    exact .inr (inside_left between enough)

theorem openedPacked_reads
    (whole : type1HdrSize ≤ (inSize - s.processed).toNat) :
    ∀ x ∈ (s.openedPacked m).reads, x ∈ s.reads ∨ x.Inside inBuffer inSize.toNat := by
  intro x member
  rcases List.mem_append.mp member with before | new
  · exact opened_harmless between (Nat.le_trans (by decide) whole) x before
  · rw [List.mem_singleton.mp new]
    exact .inr (inside_left between whole)

theorem between_of_block {hdr taken size : Nat}
    {c : UInt32} {extra : List Extent} (data : t.context.data = s.inBuffer + hdr)
    (csumOffset : t.context.csumOffset = s.context.csumOffset)
    (processed : t.processed = s.processed + UInt32.ofNat hdr)
    (read : t.context.dataRead = s.context.dataRead + UInt32.ofNat hdr)
    (out : t.out = s.out) (written : t.written = s.written)
    (rem : t.context.dataRemSize = UInt32.ofNat taken) (ucsize : t.context.dataUcsize = size)
    (reads : t.reads = extra) (inside : ∀ x ∈ extra, x ∈ s.reads ∨ x.Inside inBuffer inSize.toNat)
    (writes : t.writes = s.writes ++ [⟨s.out, size⟩]) (small : size ≤ 65535)
    (room : s.out + size ≤ outbufSize.toNat) (fits : taken + hdr ≤ (inSize - s.processed).toNat)
    (csize : t.context.dataCsize = -1 ∨ ∃ csize : Nat, t.context.dataCsize = csize ∧ csize ≤ 65535 ∧
      (csize = 0 → (lzfDecompress [] size).1 = UInt32.ofNat size)) :
    Between lzfDecompress inSize outbufSize inBuffer (t.advance taken c) ∧
      inSize.toNat - (t.advance taken c).processed.toNat + (taken + hdr) = inSize.toNat - s.processed.toNat := by
  have wide := inSize.toNat_lt
  have inBounds := between.inside
  rw [left_eq between] at fits
  have start : t.processed.toNat = s.processed.toNat + hdr := by
    rw [processed]
    exact toNat_add_ofNat (by omega) wide
  have ending : (t.advance taken c).processed.toNat = s.processed.toNat + hdr + taken := by
    change (t.processed + t.context.dataRemSize).toNat = _
    rw [rem, toNat_add_ofNat (by omega) wide, start]
  have counting : (t.advance taken c).written.toNat = s.out + size := by
    have limit := outbufSize.toNat_lt
    change (t.written + UInt32.ofNat t.context.dataUcsize).toNat = _
    rw [written, ucsize]
    rw [toNat_add_ofNat (by rw [between.written]; exact room) limit, between.written]
  have put : (t.advance taken c).out = s.out + size := by
    change t.out + t.context.dataUcsize = _
    rw [out, ucsize]
  have stays : (t.advance taken c).processed.toNat ≤ inSize.toNat := by
    rw [ending]
    clear csize
    omega
  have less : inSize.toNat - (t.advance taken c).processed.toNat + (taken + hdr) =
      inSize.toNat - s.processed.toNat := by
    rw [ending]
    clear csize
    omega
  refine ⟨⟨rfl, rfl, csumOffset.trans between.csumOffset, ?_, ?_, stays, put ▸ room, counting.trans put.symm, ?_, ?_,
    ?_, ?_, ?_⟩, less⟩
  · change t.context.data + taken = _
    rw [data, between.place, ending, Nat.add_assoc, Nat.add_assoc, Nat.add_assoc]
  · change t.context.dataRead + UInt32.ofNat taken = t.processed + t.context.dataRemSize
    rw [read, processed, rem, between.read]
  · intro x member
    change x ∈ t.reads at member
    rw [reads] at member
    exact (inside x member).elim (between.reads x) id
  · intro x member
    change x ∈ t.writes at member
    rw [writes] at member
    rcases List.mem_append.mp member with before | new
    · exact between.writes x before
    · rw [List.mem_singleton.mp new]
      exact .inr ⟨Nat.zero_le _, (Nat.zero_add _).symm ▸ room⟩
  · change (t.writes.map Extent.size).sum = _
    rw [writes, List.map_append, List.sum_append, between.counted, put]
    rfl
  · change t.context.dataUcsize ≤ 65535
    rw [ucsize]
    exact small
  · change t.context.dataCsize = -1 ∨ ∃ csize : Nat, t.context.dataCsize = csize ∧ csize ≤ 65535 ∧
      (csize = 0 → (lzfDecompress [] t.context.dataUcsize).1 = UInt32.ofNat t.context.dataUcsize)
    rw [ucsize]
    exact csize

variable (going : Going inSize s)
include going

variable (header : headerAt m s.inBuffer (inSize - s.processed).toNat = .plain size)
include header

theorem plain_leaves
    (stops : ¬ (size ≤ (inSize - s.processed).toNat ∧ s.out + size ≤ outbufSize.toNat)) :
    ∃ r, lzfPass lzfDecompress m inSize outbufSize s = .leave r ∧ Harmless inBuffer inSize.toNat s r := by
  obtain ⟨enough, -⟩ := headerAt_ne_none header nofun
  obtain ⟨-, rfl⟩ := headerAt_eq_plain header
  have enough : 5 ≤ (inSize - s.processed).toNat := Nat.not_lt.mp enough
  rw [pass_plain between going header]
  refine blockData_leaves (openedPlain_reads between enough) rfl rfl rfl between (by omega) ?_
  by_cases missing : inSize - s.processed < (s.openedPlain m).context.dataRemSize
  · exact .inl missing
  · right
    rw [openedPlain_remSize, not_lt_ofNat (shortAt_le m _)] at missing
    exact Nat.not_le.mp fun room => stops ⟨missing, room⟩

theorem plain_next
    (there : size ≤ (inSize - s.processed).toNat) (room : s.out + size ≤ outbufSize.toNat) :
    lzfPass lzfDecompress m inSize outbufSize s = .next ((s.openedPlain m).afterPlain m) := by
  obtain ⟨-, rfl⟩ := headerAt_eq_plain header
  rw [pass_plain between going header]
  refine blockData_plain ?_ room rfl
  rw [openedPlain_remSize]
  exact (not_lt_ofNat (shortAt_le m _)).mpr there

omit header in
theorem packed_leaves (header : headerAt m s.inBuffer (inSize - s.processed).toNat = .packed csize ucsize)
    (stops : ¬ (csize ≤ (inSize - s.processed).toNat ∧ s.out + ucsize ≤ outbufSize.toNat)) :
    ∃ r, lzfPass lzfDecompress m inSize outbufSize s = .leave r ∧ Harmless inBuffer inSize.toNat s r := by
  obtain ⟨-, whole, rfl, rfl⟩ := headerAt_eq_packed header
  have whole : 7 ≤ (inSize - s.processed).toNat := Nat.not_lt.mp whole
  rw [pass_packed between going header]
  refine blockData_leaves (openedPacked_reads between whole) rfl rfl rfl between (by omega) ?_
  by_cases missing : inSize - s.processed < (s.openedPacked m).context.dataRemSize
  · exact .inl missing
  · right
    rw [openedPacked_remSize, not_lt_ofNat (shortAt_le m _)] at missing
    exact Nat.not_le.mp fun room => stops ⟨missing, room⟩

omit header in
theorem packed_goes (header : headerAt m s.inBuffer (inSize - s.processed).toNat = .packed csize ucsize)
    (there : csize ≤ (inSize - s.processed).toNat) (room : s.out + ucsize ≤ outbufSize.toNat) :
    lzfPass lzfDecompress m inSize outbufSize s =
      if (lzfDecompress (bytesAt m (s.inBuffer + type1HdrSize) csize) ucsize).1 ≠ UInt32.ofNat ucsize then
        .leave (((s.openedPacked m).tried lzfDecompress m).fail .badParameter)
      else .next ((s.openedPacked m).afterPacked lzfDecompress m) := by
  obtain ⟨-, -, rfl, rfl⟩ := headerAt_eq_packed header
  rw [pass_packed between going header, blockData_packed ?_ room (openedPacked_compressed m s)]
  · rfl
  · rw [openedPacked_remSize]
    exact (not_lt_ofNat (shortAt_le m _)).mpr there

omit header in
theorem cut_leaves
    (header : headerAt m s.inBuffer (inSize - s.processed).toNat = .cut)
    (stops : s.context.sized.dataRemSize.toNat ≤ (inSize - s.processed).toNat →
      outbufSize.toNat < s.out + s.context.dataUcsize) :
    ∃ r, lzfPass lzfDecompress m inSize outbufSize s = .leave r ∧ Harmless inBuffer inSize.toNat s r := by
  obtain ⟨enough, -⟩ := headerAt_ne_none header nofun
  have enough : 5 ≤ (inSize - s.processed).toNat := Nat.not_lt.mp enough
  rw [pass_cut between going header]
  refine blockData_leaves (opened_harmless between enough) rfl rfl rfl between (by omega) ?_
  by_cases missing : inSize - s.processed < s.context.sized.dataRemSize
  · exact .inl missing
  · rw [UInt32.lt_iff_toNat_lt] at missing
    exact .inr (stops (Nat.not_lt.mp missing))

omit going

omit header in
omit between in
theorem packed_next (lawful : lzfDecompress.Lawful) (between : Between lzfDecompress inSize outbufSize inBuffer s) (header : headerAt m s.inBuffer (inSize - s.processed).toNat = .packed csize ucsize)
    (room : s.out + ucsize ≤ outbufSize.toNat) (fits : csize + type1HdrSize ≤ (inSize - s.processed).toNat)
    (answer : (lzfDecompress (bytesAt m (s.inBuffer + type1HdrSize) csize) ucsize).1 = UInt32.ofNat ucsize) :
    Between lzfDecompress inSize outbufSize inBuffer ((s.openedPacked m).afterPacked lzfDecompress m) ∧
      inSize.toNat - ((s.openedPacked m).afterPacked lzfDecompress m).processed.toNat < inSize.toNat - s.processed.toNat := by
  obtain ⟨-, whole, rfl, rfl⟩ := headerAt_eq_packed header
  have filled := lawful.length_eq (shortAt_le m _) answer
  obtain ⟨next, less⟩ := between_of_block between (t := (s.openedPacked m).tried lzfDecompress m)
    (c := tegrablUtilsCrc32 (s.openedPacked m).context.csum ((s.openedPacked m).answer lzfDecompress m).2) rfl rfl rfl
    rfl rfl rfl (openedPacked_remSize m s) rfl rfl
    (by
      intro x member
      rcases List.mem_append.mp member with before | new
      · exact openedPacked_reads between (Nat.not_lt.mp whole) x before
      · rw [List.mem_singleton.mp new]
        exact .inr (inside_left between (by rw [Nat.add_comm]; exact fits)))
    (congrArg (fun n => s.writes ++ [⟨s.out, n⟩]) filled) (shortAt_le m _) room fits
    (.inr ⟨shortAt m (s.inBuffer + 3), rfl, shortAt_le m _, fun empty => by
      rw [empty] at answer
      exact answer⟩)
  exact ⟨next, by
    change inSize.toNat - (((s.openedPacked m).tried lzfDecompress m).advance (shortAt m (s.inBuffer + 3)) _).processed.toNat < _
    have : 0 < type1HdrSize := by decide
    omega⟩

theorem plain_keeps
    (room : s.out + size ≤ outbufSize.toNat) (fits : size + type0HdrSize ≤ (inSize - s.processed).toNat) :
    Between lzfDecompress inSize outbufSize inBuffer ((s.openedPlain m).afterPlain m) ∧
      inSize.toNat - ((s.openedPlain m).afterPlain m).processed.toNat < inSize.toNat - s.processed.toNat := by
  obtain ⟨enough, -⟩ := headerAt_ne_none header nofun
  obtain ⟨-, rfl⟩ := headerAt_eq_plain header
  obtain ⟨next, less⟩ := between_of_block between
    (t := ((s.openedPlain m).read (s.inBuffer + type0HdrSize) (shortAt m (s.inBuffer + 3))).write
      (shortAt m (s.inBuffer + 3)))
    (c := tegrablUtilsCrc32 (s.openedPlain m).context.csum (bytesAt m (s.openedPlain m).context.data
      (s.openedPlain m).context.dataUcsize)) rfl rfl rfl rfl rfl rfl (openedPlain_remSize m s) rfl rfl
    (by
      intro x member
      rcases List.mem_append.mp member with before | new
      · exact openedPlain_reads between (Nat.not_lt.mp enough) x before
      · rw [List.mem_singleton.mp new]
        exact .inr (inside_left between (by rw [Nat.add_comm]; exact fits)))
    rfl (shortAt_le m _) room fits (.inl rfl)
  exact ⟨next, by
    change inSize.toNat - ((((s.openedPlain m).read (s.inBuffer + type0HdrSize) (shortAt m (s.inBuffer + 3))).write
      (shortAt m (s.inBuffer + 3))).advance (shortAt m (s.inBuffer + 3)) _).processed.toNat < _
    have : 0 < type0HdrSize := by decide
    omega⟩

omit header

omit between in
theorem pass_keeps (lawful : lzfDecompress.Lawful) (between : Between lzfDecompress inSize outbufSize inBuffer s)
    (fits : PassFits lzfDecompress m inSize outbufSize s)
    (taken : lzfPass lzfDecompress m inSize outbufSize s = .next s') :
    Between lzfDecompress inSize outbufSize inBuffer s' ∧
      inSize.toNat - s'.processed.toNat < inSize.toNat - s.processed.toNat := by
  by_cases going : Going inSize s
  · rw [PassFits, if_pos going] at fits
    have leaves : ¬ ∃ r, lzfPass lzfDecompress m inSize outbufSize s = .leave r ∧
        Harmless inBuffer inSize.toNat s r := by
      rintro ⟨r, left, -⟩
      cases taken.symm.trans left
    cases header : headerAt m s.inBuffer (inSize - s.processed).toNat with
    | none => exact absurd (pass_none between going header) leaves
    | plain size =>
      rw [header] at fits
      by_cases goes : size ≤ (inSize - s.processed).toNat ∧ s.out + size ≤ outbufSize.toNat
      · cases taken.symm.trans (plain_next between going header goes.1 goes.2)
        exact plain_keeps between header goes.2 (fits goes.1 goes.2)
      · exact absurd (plain_leaves between going header goes) leaves
    | cut =>
      rw [header] at fits
      exact absurd (cut_leaves between going header fits) leaves
    | packed csize ucsize =>
      rw [header] at fits
      by_cases goes : csize ≤ (inSize - s.processed).toNat ∧ s.out + ucsize ≤ outbufSize.toNat
      · rw [packed_goes between going header goes.1 goes.2] at taken
        split at taken
        · cases taken
        · rename_i answer
          cases taken
          exact packed_next lawful between header goes.2 (fits goes.1 goes.2).1 (not_not.mp answer)
      · exact absurd (packed_leaves between going header goes) leaves
  · rw [not_going_leaves going] at taken
    cases taken

theorem pass_leaves
    (fits : PassFits lzfDecompress m inSize outbufSize s)
    (taken : lzfPass lzfDecompress m inSize outbufSize s = .leave r) :
    r.Contained inBuffer inSize.toNat outbufSize.toNat := by
  have contained : (∃ r, lzfPass lzfDecompress m inSize outbufSize s = .leave r ∧
      Harmless inBuffer inSize.toNat s r) → r.Contained inBuffer inSize.toNat outbufSize.toNat := by
    rintro ⟨r', left, harmless⟩
    cases taken.symm.trans left
    exact between.contained harmless
  by_cases going : Going inSize s
  · rw [PassFits, if_pos going] at fits
    cases header : headerAt m s.inBuffer (inSize - s.processed).toNat with
    | none => exact contained (pass_none between going header)
    | plain size =>
      by_cases goes : size ≤ (inSize - s.processed).toNat ∧ s.out + size ≤ outbufSize.toNat
      · cases taken.symm.trans (plain_next between going header goes.1 goes.2)
      · exact contained (plain_leaves between going header goes)
    | cut =>
      rw [header] at fits
      exact contained (cut_leaves between going header fits)
    | packed csize ucsize =>
      rw [header] at fits
      by_cases goes : csize ≤ (inSize - s.processed).toNat ∧ s.out + ucsize ≤ outbufSize.toNat
      · rw [packed_goes between going header goes.1 goes.2] at taken
        split at taken
        · rename_i wrong
          cases taken
          obtain ⟨inside, answer⟩ := fits goes.1 goes.2
          obtain ⟨-, whole, rfl, rfl⟩ := headerAt_eq_packed header
          have nothing := answer.resolve_left wrong
          have count : ((s.openedPacked m).answer lzfDecompress m).2.length = 0 := congrArg List.length nothing
          refine ⟨?_, ?_, ?_⟩
          · intro x member
            rcases List.mem_append.mp member with before | new
            · exact (openedPacked_reads between (Nat.not_lt.mp whole) x before).elim (between.reads x) id
            · rw [List.mem_singleton.mp new]
              exact inside_left between (by rw [Nat.add_comm]; exact inside)
          · intro x member
            rcases List.mem_append.mp member with before | new
            · exact between.writes x before
            · rw [List.mem_singleton.mp new]
              exact .inl count
          · change s.written.toNat = ((s.writes ++ [_]).map Extent.size).sum
            rw [List.map_append, List.sum_append, between.counted, between.written]
            change s.out = s.out + (((s.openedPacked m).answer lzfDecompress m).2.length + 0)
            omega
        · cases taken
      · exact contained (packed_leaves between going header goes)
  · rw [PassFits, if_neg going] at fits
    refine contained ⟨_, not_going_leaves going, checkCrc_harmless (fun x member => .inl member) rfl rfl fun due => ?_⟩
    have enough := fits due
    right
    dsimp only
    rw [between.place]
    omega

end

end Cboot.Lzf
