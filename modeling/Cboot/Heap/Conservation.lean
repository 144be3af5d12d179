import Cboot.Heap.Invariant

/-!
The free and the live blocks add up to the heap unless an aligned request throws bytes away, and every block starts on a
word boundary unless an aligned request asks for less than a word.
-/

namespace Cboot.Heap
open Lib

def liveBlocks (s : Session) : List Span := s.live.map fun g => blockOf s.heap.mem g.ptr

/-- An aligned allocation keeps all bytes of the block it is carved from: a block taken whole has
nothing to spare when the gap in front goes back to the free list. -/
def Keeps (b : Span) (gap n : Nat) : Prop :=
  gap < minSize ∨ b.size = n + gap ∨ n + gap + minSize < b.size

instance (b : Span) (gap n : Nat) : Decidable (Keeps b gap n) :=
  inferInstanceAs (Decidable (_ ∨ _))

theorem total_aligned {b : Span} {gap n : Nat} (fits : n + gap ≤ b.size) (keeps : Keeps b gap n) :
    total (alignedPieces b gap n) + (alignedSpan b gap n).size = b.size := by
  have sum := total_leftover fits
  by_cases small : gap < minSize
  · simp only [alignedPieces, alignedSpan, small, if_true]
    exact sum
  · simp only [alignedPieces, alignedSpan, small, if_false, total_cons]
    unfold Keeps at keeps
    unfold takenSize at sum
    split at sum <;> omega

def Lossless (s : Session) (op : Op) : Prop :=
  NoWrap s.heap op ∧ ∀ r ∈ alignedRequest s.heap op, 0 < r.size →
    ∀ b ∈ firstFit (freeBlocks s.heap r.heap) r.alignment r.size, Keeps b (gapOf b.addr r.alignment) (need r.size)

instance (s : Session) (op : Op) : Decidable (Lossless s op) :=
  inferInstanceAs (Decidable (_ ∧ ∀ r ∈ alignedRequest s.heap op, _))

def Conserved (s : Session) : Prop :=
  total (freeBlocks s.heap heapDefault) + total (liveBlocks s) = (s.heap.heapInfo heapDefault).maxSize

theorem total_drop {f : Grant → Span} {g : Grant} {live : List Grant}
    (distinct : live.Pairwise fun g h => g.ptr ≠ h.ptr) (hg : g ∈ live) :
    total (live.map f) = (f g).size + total ((drop live g.ptr).map f) := by
  induction live with
  | nil => cases hg
  | cons k live ih =>
    obtain ⟨first, rest⟩ := List.pairwise_cons.mp distinct
    unfold drop at *
    rcases List.mem_cons.mp hg with rfl | hg
    · have others : (live.filter fun h => h.ptr ≠ g.ptr) = live :=
        List.filter_eq_self.mpr fun h hh => decide_eq_true (first h hh).symm
      rw [List.filter_cons_of_neg (by simp), others, List.map_cons, total_cons]
    · have different : k.ptr ≠ g.ptr := first g hg
      rw [List.filter_cons_of_pos (by simpa using different), List.map_cons, List.map_cons,
        total_cons, total_cons, ih rest hg]
      omega

section
variable {start stop : Nat} {s s' : Session} {op : Op}

theorem HeapOk.ptr_distinct {s : HeapState} {t lo hi : Nat} {held : List Grant}
    (ok : HeapOk s t lo hi held) : held.Pairwise fun g h => g.ptr ≠ h.ptr := by
  refine ok.apart.imp_of_mem fun hg _ clear same => ?_
  have wide := (ok.placed _ hg).size_pos
  rw [same] at clear wide
  simp only [Span.Clear, Span.stop] at clear
  omega

theorem liveBlocks_congr {m : Mem} {live : List Grant} {t : HeapState}
    (same : ∀ g ∈ live, blockOf m g.ptr = blockOf t.mem g.ptr) :
    live.map (fun g => blockOf m g.ptr) = live.map fun g => blockOf t.mem g.ptr :=
  List.map_congr_left same

theorem conserved_effect (ok : SessionOk (single start stop) s) (holds : Conserved s)
    (lossless : Lossless s op) (effect : Effect (single start stop) s op s') : Conserved s' := by
  have heap := single_heap ok
  have max' := (single_heap (effect_ok ok effect)).free.maxSize
  have max := heap.free.maxSize
  unfold Conserved liveBlocks at *
  rw [max]  at holds
  rw [max']
  cases effect with
  | nothing => exact holds
  | @grant t gap xs ys b h g used typed route blocks fits origin ptr pos aligned granted =>
    obtain rfl : t = heapDefault := used
    obtain ⟨-, free, block, kept⟩ := heap.grant granted pos aligned
    have keeps : Keeps b gap (need g.req) := by
      rcases origin with rfl | ⟨k, request, rfl, first⟩
      · exact Or.inl (by decide)
      · exact lossless.2 _ request pos b first
    have sum := total_aligned fits keeps
    simp only [free, List.map_cons, total_cons, block, liveBlocks_congr kept]
    simp only [blocks, total_append, total_cons] at holds ⊢
    omega
  | @release h g bs held returned =>
    obtain ⟨-, free, kept⟩ := heap.release held returned
    have sum := returned.sum
    have apart := total_drop (f := fun g => blockOf s.heap.mem g.ptr) heap.ptr_distinct held
    simp only [free, liveBlocks_congr kept]
    have route : (single start stop).route g.heapType = heapDefault := rfl
    rw [route] at sum
    omega
  | @store g addr value held inside =>
    have region : addr ∈ covered (s.live.map Grant.region) :=
      mem_covered.mpr ⟨g.region, List.mem_map_of_mem held, Span.mem_bytes.mpr inside⟩
    obtain ⟨-, free, kept⟩ := regions_ok ok (changedIn_update s.heap.mem value region)
    simp only [free heapDefault rfl, liveBlocks_congr kept]
    exact holds

end

section
variable {s₀ h : HeapState} {start size : Nat} {s : Session}

/-- No byte of the heap is lost: the free and the live blocks add up to it after every run, and
when nothing is held the free list is the whole heap in one block. -/
theorem bytes_conserved (noDma : (s₀.heapInfo heapDma).freeList = 0) (bound : start + size < 2 ^ 64)
    (init : tegrablHeapInit s₀ heapDefault start size = .ok (none, h))
    (run : Reachable (single start (start + size)) Lossless ⟨h, []⟩ s) :
    total (freeBlocks s.heap heapDefault) + total (liveBlocks s) = (s.heap.heapInfo heapDefault).maxSize ∧
    (s.heap.heapInfo heapDefault).maxSize = size ∧ (s.live = [] → freeBlocks s.heap heapDefault = [⟨start, size⟩] ∧
      (s.heap.heapInfo heapDefault).freeSize = size) := by
  obtain ⟨fl, -⟩ := heapInit_spec init bound
  have base : Conserved ⟨h, []⟩ := by
    unfold Conserved
    rw [freeBlocks_eq fl, fl.maxSize]
    simp [liveBlocks]
  obtain ⟨ok, conserved⟩ := run_induction (single_start noDma bound init) base
    (fun s op ok meets => ⟨routes_single ok, meets.1⟩)
    (fun s op s' ok holds meets effect => conserved_effect ok holds meets effect) run
  have heap := single_heap ok
  have max : (s.heap.heapInfo heapDefault).maxSize = size := by
    rw [heap.free.maxSize]
    omega
  refine ⟨conserved, max, fun empty => ?_⟩
  have full : total (freeBlocks s.heap heapDefault) = size := by
    unfold Conserved liveBlocks at conserved
    rw [empty, max] at conserved
    simpa using conserved
  have region := heap.free.region
  simp only [minSize] at region
  have covers := covered_eq_region heap.free.laid.clear heap.free.within (by omega)
  have single := spaced_covers_region heap.spaced (fun b hb => by
    have := (heap.free.laid.room b hb).2.1
    simp only [minSize] at this
    omega) (by omega) covers
  rw [heap.free.freeSize, full, single]
  simp

theorem bytes_conserved_aligned : ∃ s : Session, s.live = [⟨heapDefault, 4160, 8, 64⟩] ∧
      total (freeBlocks s.heap heapDefault) + total (liveBlocks s) = (s.heap.heapInfo heapDefault).maxSize := by
  obtain ⟨s, call, live⟩ := exists_step (boot 4096 4096) (.memalign 64 8)
    (fun s => s.live = [⟨heapDefault, 4160, 8, 64⟩]) (by decide)
  have lossless : Lossless (boot 4096 4096) (.memalign 64 8) := by decide
  have allowed : Allowed (single 4096 (4096 + 4096)) (boot 4096 4096) (.memalign 64 8) := ⟨6, rfl⟩
  have run : Reachable (single 4096 (4096 + 4096)) Lossless ⟨(boot 4096 4096).heap, []⟩ s :=
    Relation.ReflTransGen.single ⟨_, allowed, lossless, call⟩
  exact ⟨s, of_decide_eq_true live, (bytes_conserved zeroed_noDma (by decide) (by rfl) run).1⟩

/-- A block of 88 bytes is taken whole for a gap of 40 and a request that needs 32. -/
theorem bytes_conserved_leaks : ∃ (h : HeapState) (s : Session),
      tegrablHeapInit zeroed heapDefault 4096 88 = .ok (none, h) ∧
      Reachable (single 4096 (4096 + 88)) (fun _ _ => True) ⟨h, []⟩ s ∧
      total (freeBlocks s.heap heapDefault) + total (liveBlocks s) ≠ (s.heap.heapInfo heapDefault).maxSize := by
  obtain ⟨s, call, differs⟩ := exists_step (boot 4096 88) (.memalign 64 8)
    (fun s => total (freeBlocks s.heap heapDefault) + total (liveBlocks s) ≠
      (s.heap.heapInfo heapDefault).maxSize) (by decide)
  have allowed : Allowed (single 4096 (4096 + 88)) (boot 4096 88) (.memalign 64 8) := ⟨6, rfl⟩
  refine ⟨(boot 4096 88).heap, s, by rfl, ?_, of_decide_eq_true differs⟩
  exact Relation.ReflTransGen.single ⟨_, allowed, trivial, call⟩

end

def WordRequests (s : Session) (op : Op) : Prop :=
  NoWrap s.heap op ∧ ∀ r ∈ alignedRequest s.heap op, 0 < r.size → r.alignment < wordSize →
    firstFit (freeBlocks s.heap r.heap) r.alignment r.size = none

instance (s : Session) (op : Op) : Decidable (WordRequests s op) :=
  inferInstanceAs (Decidable (_ ∧ ∀ r ∈ alignedRequest s.heap op, _))

def WordAligned (s : Session) : Prop :=
  (∀ b ∈ freeBlocks s.heap heapDefault, b.addr % wordSize = 0) ∧
    ∀ g ∈ s.live, g.ptr % wordSize = 0 ∧ (blockOf s.heap.mem g.ptr).addr % wordSize = 0

theorem need_words (size : Nat) : need size % wordSize = 0 := by
  unfold need allocHeader minSize wordSize
  omega

theorem gapOf_words {addr k : Nat} (words : wordSize ≤ 2 ^ k) (aligned : addr % wordSize = 0) :
    gapOf addr (2 ^ k) % wordSize = 0 := by
  have power : 3 ≤ k := (Nat.pow_le_pow_iff_right (by decide : 1 < 2)).mp words
  have divides : 2 ^ 3 ∣ 2 ^ k := Nat.pow_dvd_pow 2 power
  have word : wordSize = 2 ^ 3 := rfl
  rw [word] at aligned ⊢
  have header : (addr + allocHeader) % 2 ^ 3 = 0 := by
    simp only [allocHeader]
    omega
  have rest : 2 ^ 3 ∣ (addr + allocHeader) % 2 ^ k :=
    (Nat.dvd_mod_iff divides).mpr (Nat.dvd_of_mod_eq_zero header)
  exact Nat.mod_eq_zero_of_dvd (Nat.dvd_sub divides rest)

theorem pieces_words {b c : Span} {gap n : Nat}
    (start : b.addr % wordSize = 0) (hgap : gap % wordSize = 0) (hn : n % wordSize = 0)
    (hc : c ∈ alignedPieces b gap n) : c.addr % wordSize = 0 := by
  have rest : ∀ c ∈ leftover b (n + gap), c.addr % wordSize = 0 := by
    intro c hc
    unfold leftover at hc
    split at hc
    · cases hc
    · obtain rfl := List.mem_singleton.mp hc
      simp only [wordSize] at *
      omega
  unfold alignedPieces at hc
  split at hc
  · exact rest c hc
  · rcases List.mem_cons.mp hc with rfl | hc
    · exact start
    · exact rest c hc

theorem span_words {b : Span} {gap : Nat} (n : Nat) (start : b.addr % wordSize = 0)
    (hgap : gap % wordSize = 0) : (alignedSpan b gap n).addr % wordSize = 0 := by
  unfold alignedSpan
  split
  · exact start
  · simp only [wordSize] at *
    omega

section
variable {start stop : Nat} {s s' : Session} {op : Op}

theorem aligned_effect_words (ok : SessionOk (single start stop) s) (holds : WordAligned s)
    (words : WordRequests s op) (effect : Effect (single start stop) s op s') : WordAligned s' := by
  have heap := single_heap ok
  obtain ⟨free, live⟩ := holds
  cases effect with
  | nothing => exact ⟨free, live⟩
  | @grant t gap xs ys b h g used typed route blocks fits origin ptr pos aligned granted =>
    obtain rfl : t = heapDefault := used
    obtain ⟨-, free', block, kept⟩ := heap.grant granted pos aligned
    have start : b.addr % wordSize = 0 := free b (by rw [blocks]; simp)
    have hgap : gap % wordSize = 0 := by
      rcases origin with rfl | ⟨k, request, rfl, first⟩
      · rfl
      · refine gapOf_words ?_ start
        by_contra small
        rw [words.2 _ request pos (by simpa using small)] at first
        cases first
    refine ⟨fun c hc => ?_, fun k hk => ?_⟩
    · rw [free'] at hc
      rcases List.mem_append.mp hc with hc | hc
      · rcases List.mem_append.mp hc with hc | hc
        · exact free c (by rw [blocks]; simp [hc])
        · exact pieces_words start hgap (need_words g.req) hc
      · exact free c (by rw [blocks]; simp [hc])
    · rcases List.mem_cons.mp hk with rfl | hk
      · rw [block]
        refine ⟨?_, span_words _ start hgap⟩
        rw [ptr]
        simp only [wordSize, allocHeader] at *
        omega
      · rw [kept k hk]
        exact live k hk
  | @release h g bs held returned =>
    obtain ⟨-, free', kept⟩ := heap.release held returned
    refine ⟨fun c hc => ?_, fun k hk => ?_⟩
    · rw [free'] at hc
      have room := (returned.free.laid.room c hc).2.1
      simp only [minSize] at room
      have same : covered bs = covered (blockOf s.heap.mem g.ptr :: freeBlocks s.heap heapDefault) :=
        returned.covers.trans (Finset.union_comm _ _)
      obtain ⟨d, hd, starts⟩ := spaced_starts returned.spaced same hc (by omega)
      rw [← starts]
      rcases List.mem_cons.mp hd with rfl | hd
      · exact (live g held).2
      · exact free d hd
    · rw [kept k hk]
      exact live k (List.mem_filter.mp hk).1
  | @store g addr value held inside =>
    have region : addr ∈ covered (s.live.map Grant.region) :=
      mem_covered.mpr ⟨g.region, List.mem_map_of_mem held, Span.mem_bytes.mpr inside⟩
    obtain ⟨-, free', kept⟩ := regions_ok ok (changedIn_update s.heap.mem value region)
    refine ⟨fun c hc => ?_, fun k hk => ?_⟩
    · rw [free' heapDefault rfl] at hc
      exact free c hc
    · rw [kept k hk]
      exact live k hk

end

section
variable {s₀ h : HeapState} {start size : Nat} {s : Session}

/-- In a heap that starts on a word boundary every pointer, every header and every free block stays
on one. -/
theorem words_aligned (noDma : (s₀.heapInfo heapDma).freeList = 0) (bound : start + size < 2 ^ 64)
    (words : start % 8 = 0) (init : tegrablHeapInit s₀ heapDefault start size = .ok (none, h))
    (run : Reachable (single start (start + size)) WordRequests ⟨h, []⟩ s) :
    (∀ g ∈ s.live, g.ptr % 8 = 0 ∧ (g.ptr - allocHeader) % 8 = 0 ∧ (blockOf s.heap.mem g.ptr).addr % 8 = 0) ∧
    ∀ b ∈ freeBlocks s.heap heapDefault, b.addr % 8 = 0 := by
  obtain ⟨fl, -⟩ := heapInit_spec init bound
  have base : WordAligned ⟨h, []⟩ := by
    refine ⟨fun b hb => ?_, by simp⟩
    rw [freeBlocks_eq fl] at hb
    obtain rfl := List.mem_singleton.mp hb
    exact words
  obtain ⟨ok, free, live⟩ := run_induction (single_start noDma bound init) base
    (fun s op ok meets => ⟨routes_single ok, meets.1⟩)
    (fun s op s' ok holds meets effect => aligned_effect_words ok holds meets effect) run
  refine ⟨fun g hg => ?_, free⟩
  obtain ⟨ptr, block⟩ := live g hg
  have front := ((single_heap ok).placed g hg).live.front
  simp only [wordSize, allocHeader] at *
  exact ⟨ptr, by omega, block⟩

theorem words_aligned_page : ∃ s : Session, s.live = [⟨heapDefault, 4160, 8, 64⟩] ∧
      ∀ b ∈ freeBlocks s.heap heapDefault, b.addr % 8 = 0 := by
  obtain ⟨s, call, live⟩ := exists_step (boot 4096 4096) (.memalign 64 8)
    (fun s => s.live = [⟨heapDefault, 4160, 8, 64⟩]) (by decide)
  have words : WordRequests (boot 4096 4096) (.memalign 64 8) := by decide +kernel
  have allowed : Allowed (single 4096 (4096 + 4096)) (boot 4096 4096) (.memalign 64 8) := ⟨6, rfl⟩
  have run : Reachable (single 4096 (4096 + 4096)) WordRequests ⟨(boot 4096 4096).heap, []⟩ s :=
    Relation.ReflTransGen.single ⟨_, allowed, words, call⟩
  exact ⟨s, of_decide_eq_true live, (words_aligned zeroed_noDma (by decide) (by decide) (by rfl) run).2⟩

/-- After an aligned request with alignment 1 the next plain request gets an odd pointer. -/
theorem words_aligned_odd : ∃ (h : HeapState) (s : Session),
      tegrablHeapInit zeroed heapDefault 4096 4096 = .ok (none, h) ∧
      Reachable (single 4096 (4096 + 4096)) (fun _ _ => True) ⟨h, []⟩ s ∧
      s.live = [⟨heapDefault, 4153, 8, 1⟩, ⟨heapDefault, 4121, 8, 1⟩] ∧ ¬ ∀ g ∈ s.live, g.ptr % 8 = 0 := by
  have allowed : ∀ op ∈ [Op.memalign 1 8, Op.malloc 8], ∀ s, Allowed (single 4096 (4096 + 4096)) s op := by
    intro op member s
    simp only [List.mem_cons, List.not_mem_nil, or_false] at member
    rcases member with rfl | rfl
    · exact ⟨0, rfl⟩
    · trivial
  obtain ⟨s, run, live⟩ := exists_run (s := boot 4096 4096) _
    (p := fun s => s.live = [⟨heapDefault, 4153, 8, 1⟩, ⟨heapDefault, 4121, 8, 1⟩]) allowed
    (by decide)
  have live := of_decide_eq_true live
  refine ⟨(boot 4096 4096).heap, s, by rfl, run, live, ?_⟩
  rw [live]
  decide

end

end Cboot.Heap
