import Cboot.Heap.Links

/-!
`tegrabl_heap_split_block` either takes a block whole or cuts its front off.
-/

namespace Cboot.Heap
open Lib

theorem add64_eq {a b : Nat} (h : a + b < 2 ^ 64) : add64 a b = a + b := Nat.mod_eq_of_lt h

theorem sub64_eq {a b : Nat} (h : b ≤ a) (bound : a < 2 ^ 64) : sub64 a b = a - b := by
  unfold sub64
  omega

@[simp] theorem ok_bind {α β : Type} (a : α) (f : α → HeapM β) : (Except.ok a >>= f) = f a := rfl

@[simp] theorem pure_eq_ok {α : Type} (a : α) : (pure a : HeapM α) = .ok a := rfl

theorem ensure_of {c : Prop} [Decidable c] (f : Fault) (h : c) : ensure c f = .ok () := by
  simp [ensure, h]

namespace HeapState

@[simp] theorem setInfo_same (s : HeapState) (t : Nat) (f : HeapInfo → HeapInfo) :
    (s.setInfo t f).heapInfo t = f (s.heapInfo t) := by
  simp [setInfo]

theorem setInfo_other (s : HeapState) {t u : Nat} (f : HeapInfo → HeapInfo) (h : u ≠ t) :
    (s.setInfo t f).heapInfo u = s.heapInfo u := by
  simp [setInfo, h]

def relist (s : HeapState) (t : Nat) (m : Mem) (head free : Nat) : HeapState :=
  { s with mem := m }.setInfo t fun i => { i with freeList := head, freeSize := free }

theorem setFreeList_relist (s : HeapState) (t : Nat) (c : Prop) [Decidable c] (m : Mem) (head free : Nat) :
    ({ (if c then s.setFreeList t head else s) with mem := m } : HeapState).setFreeSize t free =
      s.relist t m (if c then head else (s.heapInfo t).freeList) free := by
  split <;> simp [setFreeSize, setFreeList, relist, setInfo]

end HeapState

/-- What an operation on heap `t` leaves alone: the bytes outside `F` and the other heaps. -/
structure Touched (s s' : HeapState) (t : Nat) (F : Finset Nat) : Prop where
  mem : ChangedIn F s.mem s'.mem
  others : ∀ u, u ≠ t → s'.heapInfo u = s.heapInfo u

theorem Touched.trans {s₁ s₂ s₃ : HeapState} {t : Nat} {F : Finset Nat} (h₁ : Touched s₁ s₂ t F)
    (h₂ : Touched s₂ s₃ t F) : Touched s₁ s₃ t F :=
  ⟨h₁.mem.trans h₂.mem, fun u hu => (h₂.others u hu).trans (h₁.others u hu)⟩

theorem HeapState.relist_touched {s : HeapState} {t : Nat} {m : Mem} {head free : Nat}
    {F : Finset Nat} (changed : ChangedIn F s.mem m) : Touched s (s.relist t m head free) t F :=
  ⟨changed, fun _ hu => HeapState.setInfo_other _ _ hu⟩

theorem FreeList.relist {s : HeapState} {t lo hi : Nat} {bs bs' : List Span} {m : Mem}
    (fl : FreeList s t lo hi bs) (seg : Seg m 0 bs' 0) (laid : Laid bs')
    (within : ∀ b ∈ bs', lo ≤ b.addr ∧ b.stop ≤ hi) :
    FreeList (s.relist t m (headAddr bs' 0) (total bs')) t lo hi bs' where
  start := by simp [HeapState.relist, fl.start]
  endAddr := by simp [HeapState.relist, fl.endAddr]
  maxSize := by simp [HeapState.relist, fl.maxSize]
  freeSize := by simp [HeapState.relist]
  head := by simp [HeapState.relist]
  seg := seg
  laid := laid
  within := within
  region := fl.region

variable {xs ys : List Span}

theorem addr_eq_head {b : Span} (laid : Laid (xs ++ b :: ys)) :
    b.addr = headAddr (xs ++ b :: ys) 0 ↔ xs = [] := by
  cases xs with
  | nil => simp [headAddr]
  | cons x xs =>
    have order := (laid_around.mp laid).1.before x (by simp)
    have room := laid.room x (by simp)
    simp only [List.cons_append, headAddr, reduceCtorEq, iff_false, Span.stop, minSize] at *
    omega

theorem head_after_unlink {b : Span} (laid : Laid (xs ++ b :: ys)) :
    (if b.addr = headAddr (xs ++ b :: ys) 0 then headAddr ys 0 else headAddr (xs ++ b :: ys) 0) =
      headAddr (xs ++ ys) 0 := by
  by_cases empty : xs = []
  · rw [if_pos ((addr_eq_head laid).mpr empty), empty]
    rfl
  · rw [if_neg fun same => empty ((addr_eq_head laid).mp same)]
    cases xs with
    | nil => exact absurd rfl empty
    | cons x xs => rfl

theorem head_after_replace {b c : Span} (laid : Laid (xs ++ b :: ys)) :
    (if b.addr = headAddr (xs ++ b :: ys) 0 then c.addr else headAddr (xs ++ b :: ys) 0) =
      headAddr (xs ++ c :: ys) 0 := by
  by_cases empty : xs = []
  · rw [if_pos ((addr_eq_head laid).mpr empty), empty]
    rfl
  · rw [if_neg fun same => empty ((addr_eq_head laid).mp same)]
    cases xs with
    | nil => exact absurd rfl empty
    | cons x xs => rfl

theorem head_after_insert {b : Span} (around : Around xs b ys) (pos : 0 < b.size) :
    (if headAddr (xs ++ ys) 0 = 0 ∨ b.addr < headAddr (xs ++ ys) 0 then b.addr
      else headAddr (xs ++ ys) 0) = headAddr (xs ++ b :: ys) 0 := by
  cases xs with
  | nil =>
    rw [if_pos]
    · rfl
    · cases ys with
      | nil => exact Or.inl rfl
      | cons y ys =>
        have after := around.after y (by simp)
        simp only [Span.stop] at after
        exact Or.inr (by simp only [List.nil_append, headAddr_cons]; omega)
  | cons x xs =>
    have before := around.before x (by simp)
    have room := around.left.room x (by simp)
    have head : headAddr (x :: xs ++ ys) 0 = x.addr := rfl
    simp only [Span.stop] at before
    rw [if_neg (by rw [head]; omega)]
    rfl

theorem updateFreeListHead_relist (s : HeapState) (t : Nat) (m : Mem) (p free : Nat) :
    updateFreeListHead ({ s.setFreeSize t free with mem := m } : HeapState) t p =
      s.relist t m (if (s.heapInfo t).freeList = 0 ∨ p < (s.heapInfo t).freeList then p
        else (s.heapInfo t).freeList) free := by
  unfold updateFreeListHead
  simp only [HeapState.setFreeSize, HeapState.setInfo, Function.update_self]
  split <;> simp [HeapState.setFreeList, HeapState.relist, HeapState.setInfo]

section
variable {s : HeapState} {t lo hi size : Nat} {b : Span}

theorem checkLink_ok (fl : FreeList s t lo hi (xs ++ b :: ys)) :
    checkLink s t b.addr (lastAddr 0 xs) (headAddr ys 0) = .ok () := by
  obtain ⟨around, pos, room, bound⟩ := laid_around.mp fl.laid
  obtain ⟨⟨left, right⟩, node⟩ := seg_hole.mp fl.seg
  have within := fl.within b (by simp)
  have stop : add64 b.addr (ldSize s.mem b.addr) = b.stop := by
    rw [node.2.1]
    exact add64_eq bound
  have prevLink : ¬ (lastAddr 0 xs ≠ 0 ∧ ldNext s.mem (lastAddr 0 xs) ≠ b.addr) := by
    rintro ⟨nonzero, broken⟩
    exact broken (left.next_last fun empty => nonzero (around.left.lastAddr_eq_zero.mpr empty))
  have nextLink : ¬ (headAddr ys 0 ≠ 0 ∧ ldPrev s.mem (headAddr ys 0) ≠ b.addr) := by
    rintro ⟨nonzero, broken⟩
    exact broken (right.prev_head fun empty => nonzero (around.right.headAddr_eq_zero.mpr empty))
  have order : ¬ b.stop < b.addr := by simp only [Span.stop]; omega
  have inside : ¬ (b.addr < lo ∨ hi < b.stop) := by omega
  simp only [checkLink, stop, fl.start, fl.endAddr]
  rw [ensure_of _ order, ensure_of _ inside, ensure_of _ prevLink, ensure_of _ nextLink]
  rfl

theorem changedIn_member {m m' : Mem} (changed : ChangedIn b.bytes m m') : ChangedIn (covered (xs ++ b :: ys)) m m' :=
  changed.mono (mem_covered_of_mem (by simp))

theorem covered_left : covered xs ⊆ covered (xs ++ b :: ys) := by
  rw [covered_append]
  exact Finset.subset_union_left

theorem covered_right : covered ys ⊆ covered (xs ++ b :: ys) := by
  rw [covered_append, covered]
  exact Finset.subset_union_right.trans Finset.subset_union_right

def unlinked (m : Mem) (b prev next : Nat) : Mem :=
  setNextOf (setPrevOf (stNext (stPrev m b 0) b 0) next prev) prev next

theorem unlinked_spec (seg : Seg s.mem 0 (xs ++ b :: ys) 0) (laid : Laid (xs ++ b :: ys)) :
    Seg (unlinked s.mem b.addr (lastAddr 0 xs) (headAddr ys 0)) 0 (xs ++ ys) 0 ∧
      ldSize (unlinked s.mem b.addr (lastAddr 0 xs) (headAddr ys 0)) b.addr = b.size ∧
      ChangedIn (covered (xs ++ b :: ys)) s.mem (unlinked s.mem b.addr (lastAddr 0 xs) (headAddr ys 0)) := by
  obtain ⟨around, pos, room, bound⟩ := laid_around.mp laid
  obtain ⟨hole, node⟩ := seg_hole.mp seg
  have changed : ChangedIn b.bytes s.mem (stNext (stPrev s.mem b.addr 0) b.addr 0) := by
    refine (changedIn_span _ _ ?_ ?_).trans (changedIn_span _ _ ?_ ?_) <;> simp only [Span.stop, minSize] at * <;> omega
  have hole₁ := around.inside hole changed
  have hole₂ := around.setPrev hole₁ around.left.lastAddr_lt
  refine ⟨seg_closed.mpr (around.setNext hole₂ around.right.headAddr_lt), ?_, ?_⟩
  · have agree := (around.setPrev_agree (m := stNext (stPrev s.mem b.addr 0) b.addr 0)
      (lastAddr 0 xs)).trans (around.setNext_agree (headAddr ys 0))
    have across : ldSize (unlinked s.mem b.addr (lastAddr 0 xs) (headAddr ys 0)) b.addr =
        ldSize (stNext (stPrev s.mem b.addr 0) b.addr 0) b.addr :=
      readLE_congr (agree.mono (by omega) (by simp only [Span.stop, minSize] at *; omega))
    rw [across]
    refine (readLE_writeLE_other _ (by omega)).trans ?_
    exact (readLE_writeLE_other _ (by omega)).trans node.2.1
  · exact ((changedIn_member changed).trans
      ((changedIn_setPrevOf around.right).mono covered_right)).trans
        ((changedIn_setNextOf around.left).mono covered_left)

theorem splitBlock_whole (fl : FreeList s t lo hi (xs ++ b :: ys)) (fits : size ≤ b.size)
    (spare : b.size - size ≤ minSize) :
    ∃ s', tegrablHeapSplitBlock s t b.addr size = .ok s' ∧ FreeList s' t lo hi (xs ++ ys) ∧
      ldSize s'.mem b.addr = b.size ∧ Touched s s' t (covered (xs ++ b :: ys)) := by
  obtain ⟨around, pos, room, bound⟩ := laid_around.mp fl.laid
  obtain ⟨hole, magic, hsize, hprev, hnext⟩ := seg_hole.mp fl.seg
  obtain ⟨seg, keptSize, changed⟩ := unlinked_spec fl.seg fl.laid
  have sizeLt : b.size < 2 ^ 64 := by simp only [Span.stop] at bound; omega
  have nonzero : b.addr ≠ 0 := by omega
  have remaining : sub64 (ldSize s.mem b.addr) size ≤ minSize := by
    rw [hsize, sub64_eq fits sizeLt]
    exact spare
  have sum : sub64 (total (xs ++ b :: ys)) b.size = total (xs ++ ys) := by
    have le := fl.total_le
    have region := fl.region
    rw [sub64_eq] <;> simp only [total_append, total_cons] at * <;> omega
  refine ⟨s.relist t _ (headAddr (xs ++ ys) 0) (total (xs ++ ys)), ?_,
    fl.relist seg (around.closed (by simp only [minSize] at room; omega)) ?_, keptSize,
    HeapState.relist_touched changed⟩
  · simp only [tegrablHeapSplitBlock, hprev, hnext]
    rw [ensure_of _ nonzero, checkLink_ok fl, ok_bind, ok_bind, if_pos remaining, HeapState.setFreeList_relist]
    change Except.ok (s.relist t _ _ (sub64 _ (ldSize (unlinked s.mem b.addr (lastAddr 0 xs)
      (headAddr ys 0)) b.addr))) = _
    rw [keptSize, fl.freeSize, fl.head, sum, head_after_unlink fl.laid]
    rfl
  · intro c hc
    rcases List.mem_append.mp hc with hc | hc
    · exact fl.within c (by simp [hc])
    · exact fl.within c (by simp [hc])

def cutOff (m : Mem) (b c prev next size rest : Nat) : Mem :=
  let m := stNext (stPrev (stNext (stPrev m b 0) b 0) c prev) c next
  let m := setPrevOf (setNextOf m prev c) next c
  stSize (stMagic (stSize m c rest) c freeMagic) b size

theorem cutOff_spec {c : Span} (seg : Seg s.mem 0 (xs ++ b :: ys) 0)
    (laid : Laid (xs ++ b :: ys)) (front : minSize ≤ size) (addr : c.addr = b.addr + size)
    (stop : c.stop = b.stop) (rest : minSize ≤ c.size) :
    Seg (cutOff s.mem b.addr c.addr (lastAddr 0 xs) (headAddr ys 0) size c.size) 0 (xs ++ c :: ys) 0 ∧
      ldSize (cutOff s.mem b.addr c.addr (lastAddr 0 xs) (headAddr ys 0) size c.size) b.addr = size ∧
      ChangedIn (covered (xs ++ b :: ys)) s.mem
        (cutOff s.mem b.addr c.addr (lastAddr 0 xs) (headAddr ys 0) size c.size) := by
  obtain ⟨around, pos, room, bound⟩ := laid_around.mp laid
  obtain ⟨hole, node⟩ := seg_hole.mp seg
  simp only [Span.stop, minSize] at front addr stop rest room bound
  obtain ⟨m₁, hm₁⟩ : ∃ m, m = stNext (stPrev (stNext (stPrev s.mem b.addr 0) b.addr 0) c.addr
    (lastAddr 0 xs)) c.addr (headAddr ys 0) := ⟨_, rfl⟩
  have changed₁ : ChangedIn b.bytes s.mem m₁ := by
    rw [hm₁]
    refine (((changedIn_span _ _ ?_ ?_).trans (changedIn_span _ _ ?_ ?_)).trans
      (changedIn_span _ _ ?_ ?_)).trans (changedIn_span _ _ ?_ ?_) <;> omega
  have prev₁ : ldPrev m₁ c.addr = lastAddr 0 xs := by
    rw [hm₁]
    refine (readLE_writeLE_other _ (by omega)).trans ((readLE_writeLE_same _ _ _ _).trans ?_)
    exact Nat.mod_eq_of_lt around.left.lastAddr_lt
  have next₁ : ldNext m₁ c.addr = headAddr ys 0 := by
    rw [hm₁]
    exact (readLE_writeLE_same _ _ _ _).trans (Nat.mod_eq_of_lt around.right.headAddr_lt)
  obtain ⟨m₂, hm₂⟩ : ∃ m, m = setPrevOf (setNextOf m₁ (lastAddr 0 xs) c.addr) (headAddr ys 0)
    c.addr := ⟨_, rfl⟩
  have hole₂ : Hole m₂ xs ys c.addr c.addr := by
    rw [hm₂]
    exact around.setPrev (around.setNext (around.inside hole changed₁) (by omega)) (by omega)
  have agree₂ : AgreeOn m₁ m₂ b.addr b.stop := by
    rw [hm₂]
    exact (around.setNext_agree c.addr).trans (around.setPrev_agree c.addr)
  have final : cutOff s.mem b.addr c.addr (lastAddr 0 xs) (headAddr ys 0) size c.size =
      stSize (stMagic (stSize m₂ c.addr c.size) c.addr freeMagic) b.addr size := by
    rw [hm₂, hm₁]
    rfl
  have changed₃ : ChangedIn b.bytes m₂
      (stSize (stMagic (stSize m₂ c.addr c.size) c.addr freeMagic) b.addr size) := by
    refine ((changedIn_span _ _ ?_ ?_).trans (changedIn_span _ _ ?_ ?_)).trans
      (changedIn_span _ _ ?_ ?_) <;> omega
  rw [final]
  refine ⟨seg_hole.mpr ⟨around.inside hole₂ changed₃, ?_, ?_, ?_, ?_⟩, ?_, ?_⟩
  · refine (readLE_writeLE_other _ (by omega)).trans ((readLE_writeLE_same _ _ _ _).trans ?_)
    rfl
  · refine (readLE_writeLE_other _ (by omega)).trans ((readLE_writeLE_other _ (by omega)).trans ?_)
    exact (readLE_writeLE_same _ _ _ _).trans (Nat.mod_eq_of_lt (by omega))
  · refine (readLE_writeLE_other _ (by omega)).trans ((readLE_writeLE_other _ (by omega)).trans ?_)
    refine (readLE_writeLE_other _ (by omega)).trans ((readLE_congr ?_).trans prev₁)
    exact agree₂.mono (by omega) (by simp only [Span.stop]; omega)
  · refine (readLE_writeLE_other _ (by omega)).trans ((readLE_writeLE_other _ (by omega)).trans ?_)
    refine (readLE_writeLE_other _ (by omega)).trans ((readLE_congr ?_).trans next₁)
    exact agree₂.mono (by omega) (by simp only [Span.stop]; omega)
  · exact (readLE_writeLE_same _ _ _ _).trans (Nat.mod_eq_of_lt (by omega))
  · have changed₂ : ChangedIn (covered (xs ++ b :: ys)) m₁ m₂ := by
      rw [hm₂]
      exact ((changedIn_setNextOf around.left).mono covered_left).trans
        ((changedIn_setPrevOf around.right).mono covered_right)
    exact ((changedIn_member changed₁).trans changed₂).trans (changedIn_member changed₃)

theorem splitBlock_cut (fl : FreeList s t lo hi (xs ++ b :: ys)) (front : minSize ≤ size)
    (fits : size ≤ b.size) (spare : minSize < b.size - size) : ∃ s', tegrablHeapSplitBlock s t b.addr size = .ok s' ∧
      FreeList s' t lo hi (xs ++ ⟨b.addr + size, b.size - size⟩ :: ys) ∧
      ldSize s'.mem b.addr = size ∧ Touched s s' t (covered (xs ++ b :: ys)) := by
  obtain ⟨around, pos, room, bound⟩ := laid_around.mp fl.laid
  obtain ⟨hole, magic, hsize, hprev, hnext⟩ := seg_hole.mp fl.seg
  have sizeLt : b.size < 2 ^ 64 := by simp only [Span.stop] at bound; omega
  have nonzero : b.addr ≠ 0 := by omega
  have rest : sub64 (ldSize s.mem b.addr) size = b.size - size := by rw [hsize, sub64_eq fits sizeLt]
  have target : add64 b.addr size = b.addr + size :=
    add64_eq (by simp only [Span.stop] at bound; omega)
  have stop : Span.stop ⟨b.addr + size, b.size - size⟩ = b.stop := by
    simp only [Span.stop]
    omega
  obtain ⟨seg, keptSize, changed⟩ := cutOff_spec (c := ⟨b.addr + size, b.size - size⟩) fl.seg fl.laid
    front rfl stop (by simp only; omega)
  have le := fl.total_le
  have region := fl.region
  have enough : ¬ (s.heapInfo t).freeSize < size := by
    rw [fl.freeSize]
    simp only [total_append, total_cons]
    omega
  have sum : sub64 (total (xs ++ b :: ys)) size = total (xs ++ ⟨b.addr + size, b.size - size⟩ :: ys) := by
    rw [sub64_eq] <;> simp only [total_append, total_cons] at * <;> omega
  have shrunk : Around xs ⟨b.addr + size, b.size - size⟩ ys :=
    around.shrink (by simp only; omega) (by omega)
  refine ⟨s.relist t _ (headAddr (xs ++ ⟨b.addr + size, b.size - size⟩ :: ys) 0)
    (total (xs ++ ⟨b.addr + size, b.size - size⟩ :: ys)), ?_,
    fl.relist seg (laid_around.mpr ⟨shrunk, by simp only; omega, by simp only; omega, by omega⟩) ?_,
    keptSize, HeapState.relist_touched changed⟩
  · simp only [tegrablHeapSplitBlock, hprev, hnext, rest, target]
    rw [ensure_of _ nonzero, checkLink_ok fl, ok_bind, ok_bind, if_neg (by omega),
      ensure_of _ enough, ok_bind, HeapState.setFreeList_relist]
    change Except.ok (s.relist t _ _ (sub64 _ (ldSize (cutOff s.mem b.addr (b.addr + size)
      (lastAddr 0 xs) (headAddr ys 0) size (b.size - size)) b.addr))) = _
    rw [keptSize, fl.freeSize, fl.head, sum, ← head_after_replace (c := ⟨b.addr + size, b.size - size⟩) fl.laid]
    rfl
  · intro c hc
    rcases List.mem_append.mp hc with hc | hc
    · exact fl.within c (by simp [hc])
    · rcases List.mem_cons.mp hc with rfl | hc
      · have := fl.within b (by simp)
        rw [stop]
        simp only
        omega
      · exact fl.within c (by simp [hc])

def takenSize (b : Span) (n : Nat) : Nat := if b.size - n ≤ minSize then b.size else n

def leftover (b : Span) (n : Nat) : List Span :=
  if b.size - n ≤ minSize then [] else [⟨b.addr + n, b.size - n⟩]

theorem splitBlock_spec (fl : FreeList s t lo hi (xs ++ b :: ys)) (front : minSize ≤ size) (fits : size ≤ b.size) :
    ∃ s', tegrablHeapSplitBlock s t b.addr size = .ok s' ∧ FreeList s' t lo hi (xs ++ leftover b size ++ ys) ∧
      ldSize s'.mem b.addr = takenSize b size ∧ Touched s s' t (covered (xs ++ b :: ys)) := by
  by_cases spare : b.size - size ≤ minSize
  · simpa [leftover, takenSize, spare] using splitBlock_whole fl fits spare
  · simpa [leftover, takenSize, spare] using splitBlock_cut fl front fits (by omega)

end

section
variable {b : Span} {n : Nat} (fits : n ≤ b.size)
include fits

theorem takenSize_ge : n ≤ takenSize b n := by
  unfold takenSize
  split <;> omega

theorem takenSize_le : takenSize b n ≤ b.size := by
  unfold takenSize
  split <;> omega

theorem leftover_addr {c : Span} (h : c ∈ leftover b n) :
    c.addr = b.addr + takenSize b n ∧ c.stop = b.stop ∧ minSize < c.size := by
  unfold leftover at h
  unfold takenSize
  split at h
  · simp at h
  · rename_i spare
    obtain rfl := List.mem_singleton.mp h
    rw [if_neg spare]
    refine ⟨rfl, ?_, ?_⟩
    · simp only [Span.stop]
      omega
    · simp only
      omega

theorem total_leftover : total (leftover b n) + takenSize b n = b.size := by
  by_cases spare : b.size - n ≤ minSize
  · simp [leftover, takenSize, spare]
  · simp only [leftover, takenSize, spare, if_false, total_cons, total_nil]
    omega

end

end Cboot.Heap
