import Mathlib.Data.List.Find
import Cboot.Heap.Alloc

/-!
`tegrabl_memalign_generic` splits the gap and the allocation off one block.
-/

namespace Cboot.Heap
open Lib

def gapOf (addr alignment : Nat) : Nat := alignment - (addr + allocHeader) % alignment

theorem alignSize_eq {addr : Nat} (alignment : Nat) (h : addr + allocHeader < 2 ^ 64) :
    alignSize addr alignment = gapOf addr alignment := by
  rw [alignSize, add64_eq h, gapOf]

theorem gapOf_aligned {alignment : Nat} (addr : Nat) (pos : 0 < alignment) :
    (addr + allocHeader + gapOf addr alignment) % alignment = 0 := by
  have lt := Nat.mod_lt (addr + allocHeader) pos
  have split := Nat.div_add_mod (addr + allocHeader) alignment
  have whole : addr + allocHeader + gapOf addr alignment = alignment * ((addr + allocHeader) / alignment + 1) := by
    rw [gapOf, Nat.mul_add]
    omega
  rw [whole]
  exact Nat.mul_mod_right _ _

theorem FreeList.alignSize_eq {s : HeapState} {t lo hi : Nat} {bs : List Span} {b : Span}
    (fl : FreeList s t lo hi bs) (hb : b ∈ bs) (alignment : Nat) :
    alignSize b.addr alignment = gapOf b.addr alignment := by
  have room := fl.laid.room b hb
  simp only [Span.stop, minSize] at room
  exact Heap.alignSize_eq alignment (by simp only [allocHeader]; omega)

section
variable {s : HeapState} {t lo hi : Nat} {xs ys : List Span} {b : Span} {m : Mem} {prev next : Nat}

theorem successor_eq {n : Nat} (laid : Laid (xs ++ b :: ys))
    (hole : Hole m xs (leftover b n ++ ys) (headAddr (leftover b n ++ ys) 0) (lastAddr 0 xs)) :
    successor m (lastAddr 0 xs) (headAddr ys 0) (headAddr (xs ++ (leftover b n ++ ys)) 0) =
      headAddr (leftover b n ++ ys) 0 := by
  obtain ⟨around, pos, room, bound⟩ := laid_around.mp laid
  obtain ⟨left, right⟩ := hole
  unfold successor
  by_cases emptyRight : ys = []
  · subst emptyRight
    by_cases emptyLeft : xs = []
    · subst emptyLeft
      simp [lastAddr, headAddr]
    · have nonzero : lastAddr 0 xs ≠ 0 := fun h => emptyLeft (around.left.lastAddr_eq_zero.mp h)
      rw [if_neg fun h => nonzero h.1, if_pos (by rfl)]
      exact left.next_last emptyLeft
  · have nonzero : headAddr ys 0 ≠ 0 := fun h => emptyRight (around.right.headAddr_eq_zero.mp h)
    rw [if_neg fun h => nonzero h.2, if_neg nonzero]
    have prevLink : ldPrev m (headAddr ys 0) = lastAddr (lastAddr 0 xs) (leftover b n) :=
      (seg_append.mp right).2.prev_head emptyRight
    rw [prevLink]
    by_cases spare : b.size - n ≤ minSize
    · simp [leftover, spare, lastAddr]
    · simp only [leftover, spare, if_false, lastAddr, List.cons_append, headAddr_cons]
      rw [if_pos]
      intro same
      by_cases emptyLeft : xs = []
      · subst emptyLeft
        simp only [lastAddr] at same
        omega
      · obtain ⟨c, hc, last⟩ := lastAddr_mem 0 emptyLeft
        have before := around.before c hc
        have positive := around.left.room c hc
        simp only [Span.stop, minSize] at *
        omega

def frontNode (m : Mem) (b gap prev next : Nat) : Mem :=
  stMagic (stSize (stPrev (stNext m b next) b prev) b gap) b freeMagic

theorem frontNode_node (a gap : Nat) (hg : gap < 2 ^ 64) (hp : prev < 2 ^ 64) (hn : next < 2 ^ 64) :
    NodeAt (frontNode m a gap prev next) ⟨a, gap⟩ prev next := by
  have size : ldSize (frontNode m a gap prev next) a = gap := by
    refine (readLE_writeLE_other _ (by omega)).trans ((readLE_writeLE_same _ _ _ _).trans ?_)
    exact Nat.mod_eq_of_lt hg
  have prevLink : ldPrev (frontNode m a gap prev next) a = prev := by
    refine (readLE_writeLE_other _ (by omega)).trans ((readLE_writeLE_other _ (by omega)).trans ?_)
    exact (readLE_writeLE_same _ _ _ _).trans (Nat.mod_eq_of_lt hp)
  have nextLink : ldNext (frontNode m a gap prev next) a = next := by
    refine (readLE_writeLE_other _ (by omega)).trans ((readLE_writeLE_other _ (by omega)).trans ?_)
    refine (readLE_writeLE_other _ (by omega)).trans ((readLE_writeLE_same _ _ _ _).trans ?_)
    exact Nat.mod_eq_of_lt hn
  exact ⟨readLE_writeLE_same _ _ _ _, size, prevLink, nextLink⟩

theorem frontNode_spec {zs : List Span} {gap n : Nat} (around : Around xs ⟨b.addr, gap + n⟩ zs)
    (wide : minSize ≤ gap) (bound : b.addr + gap + n < 2 ^ 64) (hole : Hole m xs zs (headAddr zs 0) (lastAddr 0 xs)) :
    ∃ m', m' = frontNode m b.addr gap (lastAddr 0 xs) (headAddr zs 0) ∧
      (headAddr zs 0 = 0 ∨ ldPrev m' (headAddr zs 0) = lastAddr 0 xs) ∧ (lastAddr 0 xs = 0 ∨
        ldNext (setPrevOf m' (headAddr zs 0) b.addr) (lastAddr 0 xs) = headAddr zs 0) ∧
      Seg (setNextOf (setPrevOf m' (headAddr zs 0) b.addr) (lastAddr 0 xs) b.addr) 0 (xs ++ ⟨b.addr, gap⟩ :: zs) 0 ∧
      AgreeOn m (setNextOf (setPrevOf m' (headAddr zs 0) b.addr) (lastAddr 0 xs) b.addr)
        (b.addr + gap) (b.addr + gap + n) ∧ ChangedIn (covered (xs ++ ⟨b.addr, gap + n⟩ :: zs)) m
        (setNextOf (setPrevOf m' (headAddr zs 0) b.addr) (lastAddr 0 xs) b.addr) := by
  obtain ⟨m', hm'⟩ : ∃ m', m' = frontNode m b.addr gap (lastAddr 0 xs) (headAddr zs 0) := ⟨_, rfl⟩
  simp only [minSize] at wide
  have small : ChangedIn (Span.bytes ⟨b.addr, gap⟩) m m' := by
    rw [hm']
    refine (((changedIn_span _ _ ?_ ?_).trans (changedIn_span _ _ ?_ ?_)).trans
      (changedIn_span _ _ ?_ ?_)).trans (changedIn_span _ _ ?_ ?_) <;> simp only <;> omega
  have changed : ChangedIn (Span.bytes ⟨b.addr, gap + n⟩) m m' :=
    small.mono fun x hx => by simp only [Span.mem_bytes, Span.stop_mk] at *; omega
  have node : NodeAt m' ⟨b.addr, gap⟩ (lastAddr 0 xs) (headAddr zs 0) := by
    rw [hm']
    exact frontNode_node _ _ (by omega) around.left.lastAddr_lt around.right.headAddr_lt
  have hole' := around.inside hole changed
  have holePrev := around.setPrev hole' (v := b.addr) (by omega)
  have holeNext := around.setNext holePrev (v := b.addr) (by omega)
  have agree : AgreeOn m' (setNextOf (setPrevOf m' (headAddr zs 0) b.addr) (lastAddr 0 xs) b.addr)
      b.addr (b.addr + (gap + n)) :=
    (around.setPrev_agree b.addr).trans (around.setNext_agree b.addr)
  refine ⟨m', hm', ?_, ?_, ?_, ?_, ?_⟩
  · by_cases empty : zs = []
    · exact Or.inl (by rw [empty]; rfl)
    · exact Or.inr (hole'.2.prev_head empty)
  · by_cases empty : xs = []
    · exact Or.inl (by rw [empty]; rfl)
    · exact Or.inr (holePrev.1.next_last empty)
  · exact seg_hole.mpr ⟨holeNext, node.congr (agree.mono (Nat.le_refl _) (by
      simp only [minSize]; omega))⟩
  · refine AgreeOn.trans ?_ (agree.mono (by omega) (by omega))
    refine small.agreeOn (s := ⟨b.addr + gap, n⟩) ?_
    have clear : Span.Clear ⟨b.addr + gap, n⟩ ⟨b.addr, gap⟩ := Or.inr (Nat.le_refl _)
    exact clear.disjoint
  · exact ((changedIn_member changed).trans
      ((changedIn_setPrevOf around.right).mono covered_right)).trans
        ((changedIn_setNextOf around.left).mono covered_left)

def alignedHeader (m : Mem) (a size start : Nat) : Mem :=
  stStart (stMagic (stSize m a size) a allocMagic) a start

theorem alignedHeader_changed {u : Span} {a : Nat} (size start : Nat) (lower : u.addr ≤ a)
    (upper : a + allocHeader ≤ u.addr + u.size) : ChangedIn u.bytes m (alignedHeader m a size start) := by
  simp only [allocHeader] at upper
  refine ((changedIn_span _ _ ?_ ?_).trans (changedIn_span _ _ ?_ ?_)).trans
    (changedIn_span _ _ ?_ ?_) <;> omega

theorem alignedHeader_header {a : Nat} {u : Span} (hs : u.size < 2 ^ 64) (ha : u.addr < 2 ^ 64) :
    HeaderAt (alignedHeader m a u.size u.addr) (a + allocHeader) u := by
  simp only [HeaderAt, Nat.add_sub_cancel]
  refine ⟨?_, ?_, ?_⟩
  · exact (readLE_writeLE_other _ (by omega)).trans (readLE_writeLE_same _ _ _ _)
  · refine (readLE_writeLE_other _ (by omega)).trans ((readLE_writeLE_other _ (by omega)).trans ?_)
    exact (readLE_writeLE_same _ _ _ _).trans (Nat.mod_eq_of_lt hs)
  · exact (readLE_writeLE_same _ _ _ _).trans (Nat.mod_eq_of_lt ha)

end

def alignedPieces (b : Span) (gap n : Nat) : List Span :=
  if gap < minSize then leftover b (n + gap) else ⟨b.addr, gap⟩ :: leftover b (n + gap)

def alignedSpan (b : Span) (gap n : Nat) : Span :=
  if gap < minSize then ⟨b.addr, takenSize b (n + gap)⟩ else ⟨b.addr + gap, n⟩

section
variable {s : HeapState} {t lo hi : Nat} {xs ys : List Span} {b : Span} {gap size : Nat}

theorem granted_small_gap {s₁ : HeapState} (fl : FreeList s t lo hi (xs ++ b :: ys)) (fits : need size + gap ≤ b.size)
    (fl₁ : FreeList s₁ t lo hi (xs ++ leftover b (need size + gap) ++ ys))
    (touched : Touched s s₁ t (covered (xs ++ b :: ys))) : Granted s { s₁ with
        mem := alignedHeader s₁.mem (b.addr + gap) (takenSize b (need size + gap)) b.addr }
      t lo hi (xs ++ b :: ys)
      (xs ++ leftover b (need size + gap) ++ ys) ⟨b.addr, takenSize b (need size + gap)⟩
      (b.addr + gap + allocHeader) size := by
  have room := fl.laid.room b (by simp)
  have lower := takenSize_ge fits
  have upper := takenSize_le fits
  have wide := minSize_le_need size
  have large := need_ge size
  simp only [Span.stop] at room
  have inside : b.addr ≤ b.addr ∧ Span.stop ⟨b.addr, takenSize b (need size + gap)⟩ ≤ b.stop := by
    simp only [Span.stop]
    omega
  have clear : ∀ c ∈ leftover b (need size + gap), Span.Clear ⟨b.addr, takenSize b (need size + gap)⟩ c := by
    intro c hc
    obtain ⟨addr, -⟩ := leftover_addr fits hc
    exact Or.inl (by rw [addr]; rfl)
  have changed : ChangedIn (Span.bytes ⟨b.addr, takenSize b (need size + gap)⟩) s₁.mem
      (alignedHeader s₁.mem (b.addr + gap) (takenSize b (need size + gap)) b.addr) :=
    alignedHeader_changed _ _ (Nat.le_add_right _ _) (by simp only; omega)
  have header : HeaderAt
      (alignedHeader s₁.mem (b.addr + gap) (takenSize b (need size + gap)) b.addr)
      (b.addr + gap + allocHeader) ⟨b.addr, takenSize b (need size + gap)⟩ :=
    alignedHeader_header (u := ⟨b.addr, takenSize b (need size + gap)⟩) (by simp only; omega)
      (by simp only; omega)
  have taken : Span.bytes ⟨b.addr, takenSize b (need size + gap)⟩ ⊆ covered (xs ++ b :: ys) :=
    fun x hx => mem_covered.mpr ⟨b, by simp, by simp only [Span.mem_bytes] at *; omega⟩
  have back : b.addr + gap + allocHeader + size ≤ Span.stop ⟨b.addr, takenSize b (need size + gap)⟩ := by
    simp only [Span.stop]
    omega
  have apart := disjoint_of_clear (clear_of_inside fl.laid inside clear)
  exact granted_of fl (fl₁.congr rfl changed apart)
    (pieces_leftover fits) (spaced_leftover b _) inside clear header (by simp only; omega) back
    (Nat.le_trans wide (Nat.le_trans (Nat.le_add_right _ _) lower))
    (Nat.le_of_eq (total_leftover fits)) ⟨touched.mem.trans (changed.mono taken), touched.others⟩

/-! The pieces of a block whose gap goes back: the gap, the allocation and the leftover. -/

variable (fits : need size + gap ≤ b.size)
include fits

theorem pieces_gap : ∀ c ∈ (⟨b.addr, gap⟩ : Span) :: leftover b (need size + gap),
      b.addr ≤ c.addr ∧ c.stop ≤ b.stop := by
  intro c hc
  rcases List.mem_cons.mp hc with rfl | hc
  · simp only [Span.stop]
    omega
  · exact pieces_leftover fits c hc

theorem clear_gap : ∀ c ∈ (⟨b.addr, gap⟩ : Span) :: leftover b (need size + gap),
      Span.Clear ⟨b.addr + gap, need size⟩ c := by
  intro c hc
  rcases List.mem_cons.mp hc with rfl | hc
  · exact Or.inr (Nat.le_refl _)
  · have lower := takenSize_ge fits
    obtain ⟨addr, -⟩ := leftover_addr fits hc
    exact Or.inl (by simp only [Span.stop]; omega)

theorem spaced_gap :
    Spaced ((⟨b.addr, gap⟩ : Span) :: leftover b (need size + gap)) := by
  refine List.pairwise_cons.mpr ⟨fun c hc => ?_, spaced_leftover b _⟩
  have lower := takenSize_ge fits
  have wideNeed := minSize_le_need size
  obtain ⟨addr, -⟩ := leftover_addr fits hc
  simp only [Span.stop, minSize] at *
  omega

theorem covered_gap {x : Nat}
    (hx : x ∈ covered (xs ++ ⟨b.addr, gap + need size⟩ :: (leftover b (need size + gap) ++ ys))) :
    x ∈ covered (xs ++ b :: ys) := by
  obtain ⟨c, hc, hx⟩ := mem_covered.mp hx
  rcases List.mem_append.mp hc with hc | hc
  · exact mem_covered.mpr ⟨c, by simp [hc], hx⟩
  · rcases List.mem_cons.mp hc with rfl | hc
    · exact mem_covered.mpr ⟨b, by simp, by simp only [Span.mem_bytes, Span.stop] at *; omega⟩
    · rcases List.mem_append.mp hc with hc | hc
      · have := pieces_leftover fits c hc
        exact mem_covered.mpr ⟨b, by simp, by simp only [Span.mem_bytes] at *; omega⟩
      · exact mem_covered.mpr ⟨c, by simp [hc], hx⟩

omit fits

theorem around_gap (around : Around xs b ys) (fits : need size + gap ≤ b.size)
    (laid : Laid (xs ++ leftover b (need size + gap) ++ ys)) :
    Around xs ⟨b.addr, gap + need size⟩ (leftover b (need size + gap) ++ ys) := by
  have lower := takenSize_ge fits
  rw [List.append_assoc] at laid
  obtain ⟨left, right, -⟩ := laid_append.mp laid
  refine ⟨left, right, around.before, fun c hc => ?_⟩
  rcases List.mem_append.mp hc with hc | hc
  · obtain ⟨addr, -⟩ := leftover_addr fits hc
    simp only [Span.stop]
    omega
  · have := around.after c hc
    simp only [Span.stop] at *
    omega

theorem headerAt_corrected (m : Mem) {a n : Nat} (taken start : Nat) (ha : a < 2 ^ 64) (hn : n < 2 ^ 64) :
    HeaderAt (stStart (stSize (alignedHeader m a taken start) a n) a a) (a + allocHeader) ⟨a, n⟩ := by
  simp only [HeaderAt, Nat.add_sub_cancel]
  refine ⟨?_, ?_, ?_⟩
  · refine (readLE_writeLE_other _ (by omega)).trans ((readLE_writeLE_other _ (by omega)).trans ?_)
    exact (readLE_writeLE_other _ (by omega)).trans (readLE_writeLE_same _ _ _ _)
  · refine (readLE_writeLE_other _ (by omega)).trans ((readLE_writeLE_same _ _ _ _).trans ?_)
    exact Nat.mod_eq_of_lt hn
  · exact (readLE_writeLE_same _ _ _ _).trans (Nat.mod_eq_of_lt ha)

theorem granted_large_gap {s₁ : HeapState} (fl : FreeList s t lo hi (xs ++ b :: ys))
    (fits : need size + gap ≤ b.size) (wide : minSize ≤ gap)
    (fl₁ : FreeList s₁ t lo hi (xs ++ leftover b (need size + gap) ++ ys))
    (touched : Touched s s₁ t (covered (xs ++ b :: ys))) (m₂ : Mem)
    (hm₂ : m₂ = stStart (stSize (alignedHeader s₁.mem (b.addr + gap)
      (takenSize b (need size + gap)) b.addr) (b.addr + gap) (need size)) (b.addr + gap) (b.addr + gap)) :
    successor (alignedHeader s₁.mem (b.addr + gap) (takenSize b (need size + gap)) b.addr)
        (lastAddr 0 xs) (headAddr ys 0) (s₁.heapInfo t).freeList = headAddr (leftover b (need size + gap) ++ ys) 0 ∧
    ∃ m₃, m₃ = frontNode m₂ b.addr gap (lastAddr 0 xs) (headAddr (leftover b (need size + gap) ++ ys) 0) ∧
      (headAddr (leftover b (need size + gap) ++ ys) 0 = 0 ∨
        ldPrev m₃ (headAddr (leftover b (need size + gap) ++ ys) 0) = lastAddr 0 xs) ∧ (lastAddr 0 xs = 0 ∨
        ldNext (setPrevOf m₃ (headAddr (leftover b (need size + gap) ++ ys) 0) b.addr)
          (lastAddr 0 xs) = headAddr (leftover b (need size + gap) ++ ys) 0) ∧ Granted s (updateFreeListHead
          ({ s₁.setFreeSize t (add64 (s₁.heapInfo t).freeSize gap) with
            mem := setNextOf (setPrevOf m₃ (headAddr (leftover b (need size + gap) ++ ys) 0)
              b.addr) (lastAddr 0 xs) b.addr } : HeapState) t b.addr)
        t lo hi (xs ++ b :: ys) (xs ++ (⟨b.addr, gap⟩ :: leftover b (need size + gap)) ++ ys)
        ⟨b.addr + gap, need size⟩ (b.addr + gap + allocHeader) size := by
  obtain ⟨around, pos, room, bound⟩ := laid_around.mp fl.laid
  have lower := takenSize_ge fits
  have large := need_ge size
  have wideNeed := minSize_le_need size
  simp only [Span.stop] at bound
  -- Everything below happens in the first `gap + need size` bytes of `b`.
  have rest := around_gap around fits fl₁.laid
  have hole₁ : Hole s₁.mem xs (leftover b (need size + gap) ++ ys)
      (headAddr (leftover b (need size + gap) ++ ys) 0) (lastAddr 0 xs) := by
    have seg := fl₁.seg
    rw [List.append_assoc] at seg
    exact seg_closed.mp seg
  have inHeader : ChangedIn (Span.bytes ⟨b.addr, gap + need size⟩) s₁.mem
      (alignedHeader s₁.mem (b.addr + gap) (takenSize b (need size + gap)) b.addr) :=
    alignedHeader_changed _ _ (Nat.le_add_right _ _) (by simp only; omega)
  have inRewrite : ChangedIn (Span.bytes ⟨b.addr, gap + need size⟩) (alignedHeader s₁.mem
      (b.addr + gap) (takenSize b (need size + gap)) b.addr) m₂ := by
    rw [hm₂]
    simp only [minSize] at wideNeed
    refine (changedIn_span _ _ ?_ ?_).trans (changedIn_span _ _ ?_ ?_) <;> simp only <;> omega
  have holeHeader := rest.inside hole₁ inHeader
  have next := successor_eq fl.laid holeHeader
  have header₂ : HeaderAt m₂ (b.addr + gap + allocHeader) ⟨b.addr + gap, need size⟩ := by
    rw [hm₂]
    exact headerAt_corrected _ _ _ (by omega) (by omega)
  obtain ⟨m₃, hm₃, assertPrev, assertNext, seg, agree, changed⟩ :=
    frontNode_spec rest wide (by omega) (rest.inside holeHeader inRewrite)
  refine ⟨?_, m₃, hm₃, assertPrev, assertNext, ?_⟩
  · rw [fl₁.head, List.append_assoc]
    exact next
  have front : Around xs ⟨b.addr, gap⟩ (leftover b (need size + gap) ++ ys) :=
    rest.shrink (Nat.le_refl _) (by simp only [Span.stop]; omega)
  have inside : b.addr ≤ b.addr + gap ∧ Span.stop ⟨b.addr + gap, need size⟩ ≤ b.stop := by
    simp only [Span.stop]
    omega
  have sumLeft := total_leftover fits
  have newList : xs ++ ((⟨b.addr, gap⟩ : Span) :: leftover b (need size + gap)) ++ ys =
      xs ++ ⟨b.addr, gap⟩ :: (leftover b (need size + gap) ++ ys) := by simp
  have oldList : xs ++ leftover b (need size + gap) ++ ys = xs ++ (leftover b (need size + gap) ++ ys) := by simp
  have touchedAll : ChangedIn (covered (xs ++ b :: ys)) s₁.mem
      (setNextOf (setPrevOf m₃ (headAddr (leftover b (need size + gap) ++ ys) 0) b.addr)
        (lastAddr 0 xs) b.addr) := by
    refine ((inHeader.trans inRewrite).mono ?_).trans (changed.mono ?_)
    · intro x hx
      exact mem_covered.mpr ⟨b, by simp, by simp only [Span.mem_bytes, Span.stop] at *; omega⟩
    · intro x hx
      exact covered_gap fits hx
  have within : ∀ c ∈ xs ++ ⟨b.addr, gap⟩ :: (leftover b (need size + gap) ++ ys), lo ≤ c.addr ∧ c.stop ≤ hi := by
    intro c hc
    have inB := fl.within b (by simp)
    rw [← newList] at hc
    rcases List.mem_append.mp hc with hc | hc
    · rcases List.mem_append.mp hc with hc | hc
      · exact fl.within c (by simp [hc])
      · have := pieces_gap fits c hc
        omega
    · exact fl.within c (by simp [hc])
  have total₁ := fl₁.freeSize
  have le := fl.total_le
  have region := fl.region
  have free : add64 (s₁.heapInfo t).freeSize gap =
      total (xs ++ ⟨b.addr, gap⟩ :: (leftover b (need size + gap) ++ ys)) := by
    rw [total₁, add64_eq] <;> simp only [total_append, total_cons] at * <;> omega
  have laid : Laid (xs ++ ⟨b.addr, gap⟩ :: (leftover b (need size + gap) ++ ys)) :=
    laid_around.mpr ⟨front, pos, wide, by simp only [Span.stop]; omega⟩
  rw [updateFreeListHead_relist, fl₁.head, oldList, head_after_insert front (by simp only [minSize] at *; omega), free]
  refine granted_of fl ?_ (pieces_gap fits) (spaced_gap fits) inside (clear_gap fits) ?_
    (Nat.le_refl _) ?_ wideNeed ?_ ?_
  · rw [newList]
    exact fl₁.relist seg laid within
  · refine header₂.congr (agree.mono ?_ ?_) <;> omega
  · simp only [Span.stop]
    omega
  · simp only [total_cons]
    omega
  · exact touched.trans (HeapState.relist_touched touchedAll)

end

section
variable {s : HeapState} {t lo hi alignment size : Nat} {bs : List Span}

theorem memalignGeneric_found {xs ys : List Span} {b : Span} {gap : Nat}
    (fl : FreeList s t lo hi (xs ++ b :: ys)) (pos : 0 < size)
    (amount : max (add64 (roundUp size wordSize) allocHeader) minSize = need size)
    (search : getFreeBlock s.mem alignment (need size) (s.fuel t) (s.heapInfo t).freeList = .ok b.addr)
    (gapEq : alignSize b.addr alignment = gap) (hit : need size + gap ≤ b.size)
    (multiple : (b.addr + gap + allocHeader) % alignment = 0) :
    ∃ s', tegrablMemalignGeneric s t alignment size = .ok (b.addr + gap + allocHeader, s') ∧
      Granted s s' t lo hi (xs ++ b :: ys) (xs ++ alignedPieces b gap (need size) ++ ys)
        (alignedSpan b gap (need size)) (b.addr + gap + allocHeader) size := by
  have sized : size ≠ 0 := by omega
  obtain ⟨-, -, hprev, hnext⟩ := fl.seg.node
  have room := fl.laid.room b (by simp)
  have nonzero : b.addr ≠ 0 := by omega
  have wideNeed := minSize_le_need size
  have large := need_ge size
  simp only [Span.stop] at room
  obtain ⟨s₁, split, fl₁, taken, touched⟩ := splitBlock_spec fl
    (show minSize ≤ need size + gap by omega) hit
  have found : add64 (add64 b.addr allocHeader) gap = b.addr + gap + allocHeader := by
    have inner : add64 b.addr allocHeader = b.addr + allocHeader :=
      add64_eq (by simp only [minSize, allocHeader] at *; omega)
    rw [inner, add64_eq (by omega)]
    omega
  have header : add64 b.addr gap = b.addr + gap := add64_eq (by omega)
  have amountGap : add64 (need size) gap = need size + gap := add64_eq (by omega)
  by_cases narrow : gap < minSize
  · refine ⟨_, ?_, by
      simpa only [alignedPieces, alignedSpan, narrow, if_true] using
        granted_small_gap fl hit fl₁ touched⟩
    simp only [tegrablMemalignGeneric, sized, if_false, amount, search, ok_bind, nonzero, gapEq,
      amountGap, split, taken, found, header, narrow, if_true]
    rw [ensure_of _ multiple]
    rfl
  · obtain ⟨next, m₃, hm₃, assertPrev, assertNext, granted⟩ :=
      granted_large_gap fl hit (by omega) fl₁ touched _ rfl
    refine ⟨_, ?_, by simpa only [alignedPieces, alignedSpan, narrow, if_false] using granted⟩
    simp only [alignedHeader] at next hm₃
    simp only [frontNode] at hm₃
    simp only [tegrablMemalignGeneric, sized, if_false, amount, search, ok_bind, nonzero, gapEq,
      amountGap, split, taken, found, header, narrow, hprev, hnext, next, ← hm₃]
    rw [ensure_of _ assertPrev, ok_bind, ensure_of _ assertNext, ok_bind, ensure_of _ multiple]
    rfl

def firstFit (bs : List Span) (alignment size : Nat) : Option Span :=
  bs.find? fun b => need size + gapOf b.addr alignment ≤ b.size

/-- No search of the request adds up to `2 ^ 64` or more. -/
def Unwrapped (bs : List Span) (alignment size : Nat) : Prop :=
  ∀ b ∈ bs, need size < 2 ^ 64 ∧ (need size ≤ b.size → need size + gapOf b.addr alignment < 2 ^ 64)

instance (bs : List Span) (alignment size : Nat) : Decidable (Unwrapped bs alignment size) :=
  inferInstanceAs (Decidable (∀ b ∈ bs, _))

theorem getFreeBlock_firstFit (fl : FreeList s t lo hi bs) (unwrapped : Unwrapped bs alignment size) :
    getFreeBlock s.mem alignment (need size) (s.fuel t) (s.heapInfo t).freeList =
      .ok (addrOf (firstFit bs alignment size)) := by
  have room : ∀ b ∈ bs, need size ≤ b.size → alignSize b.addr alignment + need size < 2 ^ 64 := by
    intro b hb fits
    rw [fl.alignSize_eq hb, Nat.add_comm]
    exact (unwrapped b hb).2 fits
  have same : bs.find? (fun b => Fits alignment (need size) b) = firstFit bs alignment size := by
    unfold firstFit
    apply List.find?_congr
    intro b hb
    rw [decide_eq_decide, Fits, fl.alignSize_eq hb]
    omega
  rw [fl.head, getFreeBlock_eq fl.seg fl.laid room fl.length_lt_fuel, same]

theorem amount_eq {b : Span} (hb : b ∈ bs) (unwrapped : Unwrapped bs alignment size) :
    max (add64 (roundUp size wordSize) allocHeader) minSize = need size :=
  allocSize_eq (unwrapped b hb).1

theorem memalignGeneric_none (fl : FreeList s t lo hi bs) (unwrapped : Unwrapped bs alignment size)
    (none : firstFit bs alignment size = none) : tegrablMemalignGeneric s t alignment size = .ok (0, s) := by
  by_cases sized : size = 0
  · simp [tegrablMemalignGeneric, sized]
  have search := getFreeBlock_firstFit fl unwrapped
  cases bs with
  | nil =>
    have head : (s.heapInfo t).freeList = 0 := fl.head
    simp only [tegrablMemalignGeneric, sized, if_false, head, HeapState.fuel, getFreeBlock, if_true,
      pure_eq_ok, ok_bind]
  | cons b bs =>
    simp only [tegrablMemalignGeneric, sized, if_false, amount_eq (b := b) (by simp) unwrapped,
      search, none, addrOf, ok_bind, if_true, pure_eq_ok]

theorem memalignGeneric_some {b : Span} (fl : FreeList s t lo hi bs) (pos : 0 < size)
    (al : 0 < alignment) (unwrapped : Unwrapped bs alignment size) (found : firstFit bs alignment size = some b) :
    ∃ xs ys s', bs = xs ++ b :: ys ∧ need size + gapOf b.addr alignment ≤ b.size ∧
      tegrablMemalignGeneric s t alignment size = .ok (b.addr + gapOf b.addr alignment + allocHeader, s') ∧
      (b.addr + gapOf b.addr alignment + allocHeader) % alignment = 0 ∧
      Granted s s' t lo hi bs (xs ++ alignedPieces b (gapOf b.addr alignment) (need size) ++ ys)
        (alignedSpan b (gapOf b.addr alignment) (need size)) (b.addr + gapOf b.addr alignment + allocHeader) size := by
  have search := getFreeBlock_firstFit fl unwrapped
  rw [found] at search
  obtain ⟨hit, xs, ys, rfl, -⟩ := List.find?_eq_some_iff_append.mp found
  have hit : need size + gapOf b.addr alignment ≤ b.size := of_decide_eq_true hit
  have hb : b ∈ xs ++ b :: ys := by simp
  have multiple : (b.addr + gapOf b.addr alignment + allocHeader) % alignment = 0 := by
    rw [Nat.add_right_comm]
    exact gapOf_aligned b.addr al
  obtain ⟨s', call, granted⟩ := memalignGeneric_found fl pos (amount_eq hb unwrapped) search
    (fl.alignSize_eq hb alignment) hit multiple
  exact ⟨xs, ys, s', rfl, hit, call, multiple, granted⟩

end

end Cboot.Heap
