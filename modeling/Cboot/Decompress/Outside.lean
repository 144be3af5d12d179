import Cboot.Decompress.Bounded

/-!
A pass that does not fit reads outside of the input, or writes bytes that are not counted, or leaves null pointers that
the next pass reads from.
-/

namespace Cboot.Lzf
open Lib Utils

def Reads (x : Extent) : Pass State Result → Prop
  | .next s => x ∈ s.reads
  | .leave r => x ∈ r.reads

section
variable {lzfDecompress : Decoder} {m : Mem} {inSize outbufSize unprocessed : UInt32} {s s' : State} {r : Result}
  {x : Extent}

theorem reads_andThen {p : Pass State Result} {rest : State → Pass State Result} (now : Reads x p)
    (stays : ∀ s, x ∈ s.reads → Reads x (rest s)) : Reads x (p.andThen rest) := by
  cases p with
  | next s => exact stays s now
  | leave r => exact now

theorem mem_read (start size : Nat) (before : x ∈ s.reads) : x ∈ (s.read start size).reads :=
  List.mem_append_left _ before

variable (before : x ∈ s.reads)
include before

theorem reads_quit : Reads x (State.quit m s) := by
  simp only [State.quit, Reads, checkCrc]
  split
  · exact List.mem_append_left _ before
  · exact before

theorem reads_blockSizes : Reads x (blockSizes m unprocessed s) := by
  have type := mem_read (s.context.hdr + 2) 1 before
  unfold blockSizes
  dsimp only
  split
  · exact mem_read _ 2 type
  · split
    · split
      · exact type
      · exact mem_read _ 4 type
    · exact type

theorem reads_blockStart : Reads x (blockStart m unprocessed s) := by
  have first := mem_read s.inBuffer 1 before
  unfold blockStart
  dsimp only
  split
  · split
    · exact reads_quit before
    · split
      · exact reads_quit first
      · split
        · exact first
        · split
          · exact mem_read _ 1 first
          · exact mem_read _ 1 first
  · exact before

theorem reads_blockHeader : Reads x (blockHeader m unprocessed s) := by
  unfold blockHeader
  split
  · exact reads_andThen (reads_blockStart before) fun s before =>
      reads_andThen (reads_blockSizes before) fun s before => before
  · exact before

theorem reads_blockData : Reads x (blockData lzfDecompress m outbufSize unprocessed s) := by
  unfold blockData
  split
  · exact reads_quit before
  · split
    · exact before
    · split
      · exact mem_read _ _ before
      · dsimp only
        split
        · exact mem_read _ _ before
        · exact mem_read _ _ before

theorem reads_pass : Reads x (lzfPass lzfDecompress m inSize outbufSize s) := by
  unfold lzfPass
  split
  · exact reads_andThen (reads_blockHeader before) fun s before => reads_blockData before
  · exact reads_quit before

omit before

variable (inSize) in
structure Null (s : State) : Prop where
  going : Going inSize s
  data : s.context.data = 0
  hdr : s.context.hdr = 0
  place : s.inBuffer = 0
  enough : minHdrSize ≤ (inSize - s.processed).toNat

variable (inSize) in
def Spoiled (inBuffer : Nat) (s : State) : Prop := (∃ x ∈ s.reads, ¬ x.Inside inBuffer inSize.toNat) ∨ Null inSize s

variable (inSize outbufSize) in
def Ruined (inBuffer : Nat) : Pass State Result → Prop
  | .next s => Spoiled inSize inBuffer s
  | .leave r => ¬ r.Contained inBuffer inSize.toNat outbufSize.toNat

variable {inBuffer : Nat}

theorem ruined_of_reads {p : Pass State Result} (now : Reads x p) (outside : ¬ x.Inside inBuffer inSize.toNat) :
    Ruined inSize outbufSize inBuffer p := by
  cases p with
  | next s => exact .inl ⟨x, now, outside⟩
  | leave r => exact fun contained => outside (contained.reads x now)

theorem not_inside_zero {size : Nat} (known : inBuffer ≠ 0) (some : 0 < size) :
    ¬ (Extent.mk 0 size).Inside inBuffer inSize.toNat := by
  rintro (empty | ⟨start, -⟩)
  · change size = 0 at empty
    omega
  · exact known (Nat.le_zero.mp start)

theorem null_reads (null : Null inSize s) : Reads ⟨0, 1⟩ (lzfPass lzfDecompress m inSize outbufSize s) := by
  have enough : ¬ (inSize - s.processed).toNat < minHdrSize := Nat.not_lt.mpr null.enough
  have first : (⟨0, 1⟩ : Extent) ∈ (s.read s.inBuffer 1).reads := by
    rw [null.place]
    exact List.mem_append_right _ (List.mem_singleton.mpr rfl)
  have start : Reads ⟨0, 1⟩ (blockStart m (inSize - s.processed) s) := by
    unfold blockStart
    dsimp only
    rw [if_pos null.hdr, if_neg enough]
    split
    · exact reads_quit first
    · split
      · exact first
      · split
        · exact mem_read _ 1 first
        · exact mem_read _ 1 first
  rw [lzfPass_going null.going, blockHeader, if_pos null.data]
  exact reads_andThen (reads_andThen start fun s before =>
    reads_andThen (reads_blockSizes before) fun s before => before) fun s before => reads_blockData before

theorem spoiled_ruins (known : inBuffer ≠ 0) (spoiled : Spoiled inSize inBuffer s) :
    Ruined inSize outbufSize inBuffer (lzfPass lzfDecompress m inSize outbufSize s) := by
  rcases spoiled with ⟨x, before, outside⟩ | null
  · exact ruined_of_reads (reads_pass before) outside
  · exact ruined_of_reads (null_reads null) (not_inside_zero known Nat.one_pos)

theorem spoiled_next (known : inBuffer ≠ 0) (spoiled : Spoiled inSize inBuffer s)
    (taken : lzfPass lzfDecompress m inSize outbufSize s = .next s') : Spoiled inSize inBuffer s' := by
  have ruined : Ruined inSize outbufSize inBuffer (lzfPass lzfDecompress m inSize outbufSize s) :=
    spoiled_ruins known spoiled
  rw [taken] at ruined
  exact ruined

theorem spoiled_leaves (known : inBuffer ≠ 0) (spoiled : Spoiled inSize inBuffer s)
    (taken : lzfPass lzfDecompress m inSize outbufSize s = .leave r) :
    ¬ r.Contained inBuffer inSize.toNat outbufSize.toNat := by
  have ruined : Ruined inSize outbufSize inBuffer (lzfPass lzfDecompress m inSize outbufSize s) :=
    spoiled_ruins known spoiled
  rw [taken] at ruined
  exact ruined

variable (between : Between lzfDecompress inSize outbufSize inBuffer s)
include between

theorem not_inside_of_behind {offset size : Nat}
    (some : 0 < size) (behind : (inSize - s.processed).toNat < offset + size) :
    ¬ (Extent.mk (s.inBuffer + offset) size).Inside inBuffer inSize.toNat := by
  rw [left_eq between] at behind
  rintro (empty | ⟨-, ending⟩)
  · change size = 0 at empty
    omega
  · rw [between.place] at ending
    dsimp only at ending
    omega

theorem crc_ruins (stops : ¬ Going inSize s)
    (due : s.context.csumOffset ≤ s.context.dataRead) (missing : inSize.toNat < s.processed.toNat + 4) :
    Ruined inSize outbufSize inBuffer (lzfPass lzfDecompress m inSize outbufSize s) := by
  rw [not_going_leaves stops]
  have last : Reads ⟨s.inBuffer + 0, 4⟩ (.leave (checkCrc m s)) := by
    rw [checkCrc, if_pos due]
    exact List.mem_append_right _ (List.mem_singleton.mpr rfl)
  refine ruined_of_reads last (not_inside_of_behind between (by decide) ?_)
  rw [left_eq between]
  have inside := between.inside
  omega

theorem plain_ruins (going : Going inSize s) {size : Nat}
    (header : headerAt m s.inBuffer (inSize - s.processed).toNat = .plain size)
    (there : size ≤ (inSize - s.processed).toNat) (room : s.out + size ≤ outbufSize.toNat)
    (behind : (inSize - s.processed).toNat < size + type0HdrSize) :
    Ruined inSize outbufSize inBuffer (lzfPass lzfDecompress m inSize outbufSize s) := by
  obtain ⟨enough, -⟩ := headerAt_ne_none header nofun
  have enough : 5 ≤ (inSize - s.processed).toNat := Nat.not_lt.mp enough
  have behind : (inSize - s.processed).toNat < size + 5 := behind
  rw [plain_next between going header there room]
  obtain ⟨-, rfl⟩ := headerAt_eq_plain header
  have data : Reads ⟨s.inBuffer + 5, shortAt m (s.inBuffer + 3)⟩ (.next ((s.openedPlain m).afterPlain m)) :=
    List.mem_append_right _ (List.mem_singleton.mpr rfl)
  exact ruined_of_reads data (not_inside_of_behind between (by omega) (by omega))

theorem packed_ruins (going : Going inSize s)
    {csize ucsize : Nat} (header : headerAt m s.inBuffer (inSize - s.processed).toNat = .packed csize ucsize)
    (there : csize ≤ (inSize - s.processed).toNat) (room : s.out + ucsize ≤ outbufSize.toNat)
    (unfit : ¬ (csize + type1HdrSize ≤ (inSize - s.processed).toNat ∧
      ((lzfDecompress (bytesAt m (s.inBuffer + type1HdrSize) csize) ucsize).1 = UInt32.ofNat ucsize ∨
        (lzfDecompress (bytesAt m (s.inBuffer + type1HdrSize) csize) ucsize).2 = []))) :
    Ruined inSize outbufSize inBuffer (lzfPass lzfDecompress m inSize outbufSize s) := by
  rw [packed_goes between going header there room]
  obtain ⟨-, whole, rfl, rfl⟩ := headerAt_eq_packed header
  have whole : 7 ≤ (inSize - s.processed).toNat := Nat.not_lt.mp whole
  by_cases fits : shortAt m (s.inBuffer + 3) + type1HdrSize ≤ (inSize - s.processed).toNat
  · -- the input is kept to, so the decompression fails and has written something
    have wrong := not_or.mp fun answer => unfit ⟨fits, answer⟩
    rw [if_pos wrong.1]
    intro contained
    have counted := contained.counted
    change s.written.toNat = ((s.writes ++ [_]).map Extent.size).sum at counted
    rw [List.map_append, List.sum_append, between.counted, between.written] at counted
    change s.out = s.out + (((s.openedPacked m).answer lzfDecompress m).2.length + 0) at counted
    exact wrong.2 (List.eq_nil_of_length_eq_zero (show ((s.openedPacked m).answer lzfDecompress m).2.length = 0 by omega))
  · have fits : ¬ shortAt m (s.inBuffer + 3) + 7 ≤ (inSize - s.processed).toNat := fits
    refine ruined_of_reads (x := ⟨s.inBuffer + 7, shortAt m (s.inBuffer + 3)⟩) ?_
      (not_inside_of_behind between (by omega) (by omega))
    split
    · exact List.mem_append_right _ (List.mem_singleton.mpr rfl)
    · exact List.mem_append_right _ (List.mem_singleton.mpr rfl)

omit between

theorem cut_ruins (known : inBuffer ≠ 0) (between : Between lzfDecompress inSize outbufSize inBuffer s)
    (going : Going inSize s) (header : headerAt m s.inBuffer (inSize - s.processed).toNat = .cut)
    (there : s.context.sized.dataRemSize.toNat ≤ (inSize - s.processed).toNat)
    (room : s.out + s.context.dataUcsize ≤ outbufSize.toNat) :
    Ruined inSize outbufSize inBuffer (lzfPass lzfDecompress m inSize outbufSize s) := by
  obtain ⟨enough, -⟩ := headerAt_ne_none header nofun
  have missing : ¬ inSize - s.processed < (s.openedCut (inSize - s.processed)).context.dataRemSize := by
    rw [UInt32.lt_iff_toNat_lt]
    exact Nat.not_lt.mpr there
  have null {t : State} (processed : t.processed = s.processed) (read : t.context.dataRead = s.context.dataRead)
      (csumOffset : t.context.csumOffset = s.context.csumOffset) (noData : t.context.data = 0) (hdr : t.context.hdr = 0)
      (place : t.inBuffer = 0) : Null inSize t := by
    refine ⟨?_, noData, hdr, place, ?_⟩
    · rw [Going, processed, read, csumOffset]
      exact going
    · rw [processed]
      exact Nat.not_lt.mp enough
  rw [pass_cut between going header]
  rcases between.csize with plain | ⟨csize, packed, -, answered⟩
  · have kind : (s.openedCut (inSize - s.processed)).context.dataCompressed = false := by
      simp [State.openedCut, State.opened, Context.sized, plain]
    rw [blockData_plain missing room kind]
    by_cases empty : s.context.dataUcsize = 0
    · have rem : s.context.sized.dataRemSize = 0 := by simp [Context.sized, plain, empty]
      refine .inr (null ?_ ?_ rfl rfl rfl ?_)
      · change s.processed + s.context.sized.dataRemSize = _
        rw [rem, UInt32.add_zero]
      · change s.context.dataRead + UInt32.ofNat s.context.dataUcsize = _
        rw [empty]
        exact UInt32.add_zero _
      · change s.context.data + s.context.dataUcsize = 0
        rw [between.data, empty]
    · refine ruined_of_reads (x := ⟨0, s.context.dataUcsize⟩) ?_ (not_inside_zero known (Nat.pos_of_ne_zero empty))
      rw [← between.data]
      exact List.mem_append_right _ (List.mem_singleton.mpr rfl)
  · have kind : (s.openedCut (inSize - s.processed)).context.dataCompressed = true := by
      have other : (csize : Int) ≠ -1 := by omega
      simp [State.openedCut, State.opened, Context.sized, packed, other]
    rw [blockData_packed missing room kind]
    by_cases empty : csize = 0
    · have none : s.context.dataCsize.toNat = 0 := by rw [packed, empty]; rfl
      have answer : ((s.openedCut (inSize - s.processed)).answer lzfDecompress m).1 =
          UInt32.ofNat (s.openedCut (inSize - s.processed)).context.dataUcsize := by
        change (lzfDecompress (bytesAt m s.context.data s.context.dataCsize.toNat) s.context.dataUcsize).1 = _
        rw [none]
        exact answered empty
      have rem : s.context.sized.dataRemSize = 0 := by simp [Context.sized, packed, empty]
      rw [if_neg (not_not.mpr answer)]
      refine .inr (null ?_ ?_ rfl rfl rfl ?_)
      · change s.processed + s.context.sized.dataRemSize = _
        rw [rem, UInt32.add_zero]
      · change s.context.dataRead + UInt32.ofNat s.context.dataCsize.toNat = _
        rw [none]
        exact UInt32.add_zero _
      · change s.context.data + s.context.dataCsize.toNat = 0
        rw [between.data, none]
    · refine ruined_of_reads (x := ⟨0, csize⟩) ?_ (not_inside_zero known (Nat.pos_of_ne_zero empty))
      have read : (⟨0, csize⟩ : Extent) = ⟨s.context.data, s.context.dataCsize.toNat⟩ := by
        rw [between.data, packed]
        rfl
      rw [read]
      split
      · exact List.mem_append_right _ (List.mem_singleton.mpr rfl)
      · exact List.mem_append_right _ (List.mem_singleton.mpr rfl)

theorem unfit_ruins (known : inBuffer ≠ 0) (between : Between lzfDecompress inSize outbufSize inBuffer s)
    (unfit : ¬ PassFits lzfDecompress m inSize outbufSize s) :
    Ruined inSize outbufSize inBuffer (lzfPass lzfDecompress m inSize outbufSize s) := by
  unfold PassFits at unfit
  by_cases going : Going inSize s
  · rw [if_pos going] at unfit
    cases header : headerAt m s.inBuffer (inSize - s.processed).toNat with
    | none =>
      rw [header] at unfit
      exact absurd trivial unfit
    | plain size =>
      rw [header] at unfit
      simp only [Classical.not_imp, Nat.not_le] at unfit
      obtain ⟨there, room, behind⟩ := unfit
      exact plain_ruins between going header there room behind
    | cut =>
      rw [header] at unfit
      simp only [Classical.not_imp, Nat.not_lt] at unfit
      exact cut_ruins known between going header unfit.1 unfit.2
    | packed csize ucsize =>
      rw [header] at unfit
      simp only [Classical.not_imp] at unfit
      obtain ⟨there, room, wrong⟩ := unfit
      exact packed_ruins between going header there room wrong
  · rw [if_neg going] at unfit
    simp only [Classical.not_imp, Nat.not_le] at unfit
    exact crc_ruins between going unfit.1 unfit.2

theorem initial_between (lawful : lzfDecompress.Lawful) (inSize outbufSize : UInt32) (inBuffer : Nat) :
    Between lzfDecompress inSize outbufSize inBuffer (.initial (lzfInit inSize) inBuffer) where
  data := rfl
  hdr := rfl
  csumOffset := rfl
  place := rfl
  read := rfl
  inside := Nat.zero_le _
  room := Nat.zero_le _
  written := rfl
  reads := nofun
  writes := nofun
  counted := rfl
  ucsize := Nat.zero_le _
  csize := by
    refine .inr ⟨0, rfl, Nat.zero_le _, fun _ => ?_⟩
    change (lzfDecompress [] 0).1 = 0
    by_contra some
    have nothing := Nat.le_zero.mp (lawful.bounded [] 0)
    rw [← lawful.counts [] 0 some] at nothing
    exact some (UInt32.toNat_inj.mp nothing)

theorem not_contained_of_unfit (known : inBuffer ≠ 0) (between : Between lzfDecompress inSize outbufSize inBuffer s)
    (unfit : ¬ PassFits lzfDecompress m inSize outbufSize s)
    (returned : LoopReturns (lzfPass lzfDecompress m inSize outbufSize) s r) :
    ¬ r.Contained inBuffer inSize.toNat outbufSize.toNat := by
  have ruined := unfit_ruins known between unfit
  obtain ⟨fuel, ended⟩ := returned
  cases fuel with
  | zero => cases ended
  | succ fuel =>
    cases taken : lzfPass lzfDecompress m inSize outbufSize s with
    | next s' =>
      rw [taken] at ruined
      rw [runLoop_next taken] at ended
      have passes : ∀ s s', Spoiled inSize inBuffer s → lzfPass lzfDecompress m inSize outbufSize s = .next s' →
          Spoiled inSize inBuffer s' := fun s s' spoiled taken => spoiled_next known spoiled taken
      have leaves : ∀ s r, Spoiled inSize inBuffer s → lzfPass lzfDecompress m inSize outbufSize s = .leave r →
          ¬ r.Contained inBuffer inSize.toNat outbufSize.toNat :=
        fun s r spoiled taken => spoiled_leaves known spoiled taken
      have bad := not_good_of_spoiled passes leaves fuel ruined ended
      exact bad
    | leave r' =>
      rw [taken] at ruined
      rw [runLoop_leave taken] at ended
      cases ended
      exact ruined

variable (lzfDecompress m) in
/-- Decompression ends and keeps to its buffers exactly when all the blocks that it comes to fit. -/
theorem lzf_contained_iff (lawful : lzfDecompress.Lawful) (inBuffer : Nat) (known : inBuffer ≠ 0)
    (inSize outbufSize : UInt32) : (∃ r, doLzfDecompress lzfDecompress m (lzfInit inSize) inBuffer inSize outbufSize r ∧
      r.Contained inBuffer inSize.toNat outbufSize.toNat) ↔
    ∀ s, Comes (lzfPass lzfDecompress m inSize outbufSize) (.initial (lzfInit inSize) inBuffer) s →
      PassFits lzfDecompress m inSize outbufSize s := by
  have keeps : ∀ s s', Between lzfDecompress inSize outbufSize inBuffer s →
      PassFits lzfDecompress m inSize outbufSize s → lzfPass lzfDecompress m inSize outbufSize s = .next s' →
      Between lzfDecompress inSize outbufSize inBuffer s' ∧
        inSize.toNat - s'.processed.toNat < inSize.toNat - s.processed.toNat :=
    fun s s' between fits taken => pass_keeps lawful between fits taken
  have spoils : ∀ s s', Between lzfDecompress inSize outbufSize inBuffer s →
      ¬ PassFits lzfDecompress m inSize outbufSize s → lzfPass lzfDecompress m inSize outbufSize s = .next s' →
      Spoiled inSize inBuffer s' := by
    intro s s' between unfit taken
    have ruined := unfit_ruins known between unfit
    rw [taken] at ruined
    exact ruined
  have ruins : ∀ s r, Between lzfDecompress inSize outbufSize inBuffer s →
      ¬ PassFits lzfDecompress m inSize outbufSize s → lzfPass lzfDecompress m inSize outbufSize s = .leave r →
      ¬ r.Contained inBuffer inSize.toNat outbufSize.toNat := by
    intro s r between unfit taken
    have ruined := unfit_ruins known between unfit
    rw [taken] at ruined
    exact ruined
  exact returns_good_iff keeps (fun s r between fits taken => pass_leaves between fits taken) spoils ruins
    (fun s s' spoiled taken => spoiled_next known spoiled taken)
    (fun s r spoiled taken => spoiled_leaves known spoiled taken)
    (initial_between lawful inSize outbufSize inBuffer)

end

def literals : Decoder := fun input size =>
  let run := (input.headD 0).toNat + 1
  if run ≤ 32 ∧ input.length = run + 1 ∧ run ≤ size then (UInt32.ofNat run, input.tail) else (0, [])

theorem literals_lawful : literals.Lawful where
  bounded input size := by
    unfold literals
    dsimp only
    split
    · rename_i whole
      rw [List.length_tail, whole.2.1]
      exact whole.2.2
    · exact Nat.zero_le _
  counts input size some := by
    unfold literals at some ⊢
    dsimp only at some ⊢
    split
    · rename_i whole
      rw [List.length_tail, whole.2.1, toNat_size (by omega)]
      rfl
    · rename_i other
      rw [if_neg other] at some
      exact absurd rfl some

def stream (bytes : List UInt8) : Mem := fun a => bytes.getD (a - 16) 0

def oneLiteral : Mem := stream [90, 86, 1, 0, 2, 0, 1, 0, 65, 0, 0, 0, 0]

theorem lzf_contained_literal : ∃ r, doLzfDecompress literals oneLiteral (lzfInit 13) 16 13 100 r ∧ r.Contained 16 13 100 := by
  refine (lzf_contained_iff literals oneLiteral literals_lawful 16 (by decide) 13 100).mpr fun s comes => ?_
  have between := initial_between literals_lawful 13 100 16
  have going : Going 13 (.initial (lzfInit 13) 16) := by decide
  have header : headerAt oneLiteral 16 13 = .packed 2 1 := by decide
  have answer : (literals (bytesAt oneLiteral ((State.initial (lzfInit 13) 16).inBuffer + type1HdrSize) 2) 1).1 =
      UInt32.ofNat 1 := by decide
  have taken := packed_goes between going header (by decide) (by decide)
  have fits : PassFits literals oneLiteral 13 100 (.initial (lzfInit 13) 16) := by
    rw [PassFits, if_pos going]
    exact fun _ _ => ⟨by decide, .inl (by decide)⟩
  rw [if_neg (not_not.mpr answer)] at taken
  cases comes with
  | here => exact fits
  | next first later =>
    cases taken.symm.trans first
    cases later with
    | here =>
      rw [PassFits, if_neg (by decide)]
      exact fun _ => by decide
    | next second _ =>
      rw [not_going_leaves (by decide)] at second
      cases second

def nineBehind : Mem := stream [90, 86, 0, 0, 9, 0, 0, 0, 0]

theorem lzf_reads_behind : ¬ ∃ r, doLzfDecompress literals nineBehind (lzfInit 9) 16 9 100 r ∧ r.Contained 16 9 100 := by
  rintro ⟨r, returned, contained⟩
  refine not_contained_of_unfit (by decide) (initial_between literals_lawful 9 100 16) ?_ returned contained
  intro fits
  have going : Going 9 (.initial (lzfInit 9) 16) := by decide
  rw [PassFits, if_pos going] at fits
  have behind : 9 + 5 ≤ 9 := fits (by decide) (by decide)
  omega

end Cboot.Lzf
