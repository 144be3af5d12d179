import Cboot.Heap.Split

/-!
`tegrabl_generic_malloc` takes the first block larger than the request, `tegrabl_memalign_generic` the first with room
for the alignment gap as well.
-/

namespace Cboot.Heap
open Lib

/-- The header in front of an allocated pointer describes the span `u`. -/
def HeaderAt (m : Mem) (ptr : Nat) (u : Span) : Prop :=
  ldMagic m (ptr - allocHeader) = allocMagic ∧ ldSize m (ptr - allocHeader) = u.size ∧
    ldStart m (ptr - allocHeader) = u.addr

theorem HeaderAt.congr {m m' : Mem} {ptr : Nat} {u : Span} (h : HeaderAt m ptr u)
    (same : AgreeOn m m' (ptr - allocHeader) (ptr - allocHeader + allocHeader)) : HeaderAt m' ptr u := by
  obtain ⟨magic, size, start⟩ := h
  refine ⟨?_, ?_, ?_⟩
  · exact (readLE_congr (same.mono (by omega) (by simp [allocHeader]))).trans magic
  · exact (readLE_congr (same.mono (by omega) (by simp [allocHeader]))).trans size
  · exact (readLE_congr (same.mono (by omega) (by simp [allocHeader]))).trans start

variable {bs : List Span}

theorem FreeList.congr {s s' : HeapState} {t lo hi : Nat} {F : Finset Nat}
    (fl : FreeList s t lo hi bs) (info : s'.heapInfo t = s.heapInfo t)
    (changed : ChangedIn F s.mem s'.mem) (apart : Disjoint (covered bs) F) : FreeList s' t lo hi bs where
  start := by rw [info, fl.start]
  endAddr := by rw [info, fl.endAddr]
  maxSize := by rw [info, fl.maxSize]
  freeSize := by rw [info, fl.freeSize]
  head := by rw [info, fl.head]
  seg := fl.seg.congr fun b hb => (changed.agreeOn (apart.mono_left (mem_covered_of_mem hb))).mono
    (Nat.le_refl _) (by have := fl.laid.room b hb; simp only [Span.stop]; omega)
  laid := fl.laid
  within := fl.within
  region := fl.region

/-- What a successful allocation does: a span `u` leaves the free list, and the caller gets `ptr` inside `u`, behind the
header. -/
structure Granted (s s' : HeapState) (t lo hi : Nat) (bs bs' : List Span) (u : Span)
    (ptr req : Nat) : Prop where
  free : FreeList s' t lo hi bs'
  header : HeaderAt s'.mem ptr u
  front : u.addr + allocHeader ≤ ptr
  back : ptr + req ≤ u.stop
  room : minSize ≤ u.size
  taken : u.bytes ⊆ covered bs
  within : lo ≤ u.addr ∧ u.stop ≤ hi
  clear : ∀ c ∈ bs', u.Clear c
  shrinks : covered bs' ⊆ covered bs
  spaced : Spaced bs → Spaced bs'
  sum : total bs' + u.size ≤ total bs
  touched : Touched s s' t (covered bs)

def need (size : Nat) : Nat := max ((size + 7) / 8 * 8 + allocHeader) minSize

theorem need_ge (size : Nat) : size + allocHeader ≤ need size := by
  unfold need
  omega

theorem minSize_le_need (size : Nat) : minSize ≤ need size := Nat.le_max_right _ _

theorem roundUp_eq {size : Nat} (h : size + 7 < 2 ^ 64) : roundUp size wordSize = (size + 7) / 8 * 8 := by
  simp only [roundUp, divCeil, add64, sub64, mul64, wordSize]
  omega

theorem allocSize_eq {size : Nat} (h : need size < 2 ^ 64) :
    max (add64 (roundUp size wordSize) allocHeader) minSize = need size := by
  have small : (size + 7) / 8 * 8 + allocHeader < 2 ^ 64 := by
    unfold need at h
    omega
  rw [roundUp_eq (by simp only [allocHeader] at small; omega), add64_eq small]
  rfl

theorem allocSize_wraps {size : Nat} (bound : size < 2 ^ 64) : add64 (roundUp size wordSize) allocHeader < size ∨
      add64 (roundUp size wordSize) allocHeader = (size + 7) / 8 * 8 + allocHeader := by
  simp only [roundUp, divCeil, add64, sub64, mul64, wordSize, allocHeader]
  omega

def addrOf : Option Span → Nat
  | none => 0
  | some b => b.addr

theorem findFree_eq {m : Mem} (n : Nat) {p : Nat} (seg : Seg m p bs 0)
    (laid : Laid bs) {fuel : Nat} (enough : bs.length < fuel) :
    findFree m n fuel (headAddr bs 0) = .ok (addrOf (bs.find? fun b => n < b.size)) := by
  induction bs generalizing p fuel with
  | nil =>
    obtain ⟨fuel, rfl⟩ : ∃ k, fuel = k + 1 := ⟨fuel - 1, by omega⟩
    simp [findFree, headAddr, addrOf]
  | cons b bs ih =>
    obtain ⟨fuel, rfl⟩ : ∃ k, fuel = k + 1 := ⟨fuel - 1, by omega⟩
    obtain ⟨⟨magic, size, -, next⟩, rest⟩ := seg
    obtain ⟨⟨pos, -⟩, -, laidRest⟩ := laid_cons.mp laid
    have nonzero : b.addr ≠ 0 := by omega
    simp only [findFree, headAddr_cons, nonzero, if_false, magic, ensure_of, ok_bind, size, next]
    by_cases fits : n < b.size
    · simp [fits, addrOf]
    · rw [if_neg fits, ih rest laidRest (by simpa using enough)]
      simp [fits]

/-- The bytes of `b` that `tegrabl_memalign` needs for a request. -/
def Fits (alignment n : Nat) (b : Span) : Prop := n ≤ b.size ∧ alignSize b.addr alignment + n ≤ b.size

instance (alignment n : Nat) (b : Span) : Decidable (Fits alignment n b) :=
  inferInstanceAs (Decidable (_ ∧ _))

theorem getFreeBlock_eq {m : Mem} {alignment n : Nat} {p : Nat} (seg : Seg m p bs 0) (laid : Laid bs)
    (noWrap : ∀ b ∈ bs, n ≤ b.size → alignSize b.addr alignment + n < 2 ^ 64) {fuel : Nat} (enough : bs.length < fuel) :
    getFreeBlock m alignment n fuel (headAddr bs 0) = .ok (addrOf (bs.find? fun b => Fits alignment n b)) := by
  induction bs generalizing p fuel with
  | nil =>
    obtain ⟨fuel, rfl⟩ : ∃ k, fuel = k + 1 := ⟨fuel - 1, by omega⟩
    simp [getFreeBlock, headAddr, addrOf]
  | cons b bs ih =>
    obtain ⟨fuel, rfl⟩ : ∃ k, fuel = k + 1 := ⟨fuel - 1, by omega⟩
    obtain ⟨⟨magic, size, -, next⟩, rest⟩ := seg
    obtain ⟨⟨pos, -⟩, -, laidRest⟩ := laid_cons.mp laid
    have nonzero : b.addr ≠ 0 := by omega
    have shorter : bs.length < fuel := by simpa using enough
    have step := ih rest laidRest (fun c hc => noWrap c (by simp [hc])) shorter
    simp only [getFreeBlock, headAddr_cons, nonzero, if_false, magic, ensure_of, ok_bind, size, next, step]
    by_cases small : b.size < n
    · have misses : ¬ Fits alignment n b := fun h => absurd h.1 (by omega)
      simp [small, misses]
    · rw [add64_eq (noWrap b (by simp) (by omega))]
      by_cases tight : b.size < alignSize b.addr alignment + n
      · have misses : ¬ Fits alignment n b := fun h => absurd h.2 (by omega)
        simp [small, tight, misses]
      · have fits : Fits alignment n b := ⟨by omega, by omega⟩
        simp [small, tight, fits, addrOf]

theorem disjoint_of_clear {u : Span} (h : ∀ c ∈ bs, u.Clear c) : Disjoint (covered bs) u.bytes := by
  rw [Finset.disjoint_left]
  intro x hx hu
  obtain ⟨c, hc, hx⟩ := mem_covered.mp hx
  exact Finset.disjoint_left.mp (h c hc).disjoint hu hx

theorem size_le_total {b : Span} (hb : b ∈ bs) : b.size ≤ total bs := by
  induction bs with
  | nil => cases hb
  | cons c bs ih =>
    rw [total_cons]
    rcases List.mem_cons.mp hb with rfl | hb
    · omega
    · have := ih hb
      omega

theorem spaced_pieces {xs mid ys : List Span} {b : Span} (spaced : Spaced (xs ++ b :: ys))
    (pieces : ∀ c ∈ mid, b.addr ≤ c.addr ∧ c.stop ≤ b.stop) (inner : Spaced mid) : Spaced (xs ++ mid ++ ys) := by
  unfold Spaced at *
  rw [List.pairwise_append, List.pairwise_cons] at spaced
  obtain ⟨left, ⟨after, right⟩, between⟩ := spaced
  rw [List.pairwise_append, List.pairwise_append]
  refine ⟨⟨left, inner, fun x hx c hc => ?_⟩, right, fun c hc y hy => ?_⟩
  · have h₁ := between x hx b (by simp)
    have h₂ := (pieces c hc).1
    omega
  · rcases List.mem_append.mp hc with hc | hc
    · exact between c hc y (by simp [hy])
    · have h₁ := (pieces c hc).2
      have h₂ := after y hy
      omega

section
variable {s s' : HeapState} {t lo hi : Nat} {xs mid ys : List Span} {b u : Span} {ptr req : Nat}

theorem clear_of_inside (laid : Laid (xs ++ b :: ys)) (inside : b.addr ≤ u.addr ∧ u.stop ≤ b.stop)
    (clear : ∀ c ∈ mid, u.Clear c) : ∀ c ∈ xs ++ mid ++ ys, u.Clear c := by
  obtain ⟨around, -⟩ := laid_around.mp laid
  intro c hc
  rcases List.mem_append.mp hc with hc | hc
  · rcases List.mem_append.mp hc with hc | hc
    · exact Or.inr ((around.before c hc).trans inside.1)
    · exact clear c hc
  · exact Or.inl (inside.2.trans (around.after c hc))

theorem granted_of (fl : FreeList s t lo hi (xs ++ b :: ys)) (fl' : FreeList s' t lo hi (xs ++ mid ++ ys))
    (pieces : ∀ c ∈ mid, b.addr ≤ c.addr ∧ c.stop ≤ b.stop) (inner : Spaced mid)
    (inside : b.addr ≤ u.addr ∧ u.stop ≤ b.stop) (clear : ∀ c ∈ mid, u.Clear c)
    (header : HeaderAt s'.mem ptr u) (front : u.addr + allocHeader ≤ ptr)
    (back : ptr + req ≤ u.stop) (room : minSize ≤ u.size) (sum : total mid + u.size ≤ b.size)
    (touched : Touched s s' t (covered (xs ++ b :: ys))) :
    Granted s s' t lo hi (xs ++ b :: ys) (xs ++ mid ++ ys) u ptr req where
  free := fl'
  header := header
  front := front
  back := back
  room := room
  taken := fun x hx => mem_covered.mpr ⟨b, by simp, by rw [Span.mem_bytes] at *; omega⟩
  within := by
    have := fl.within b (by simp)
    omega
  clear := clear_of_inside fl.laid inside clear
  shrinks := by
    intro x hx
    obtain ⟨c, hc, hx⟩ := mem_covered.mp hx
    rcases List.mem_append.mp hc with hc | hc
    · rcases List.mem_append.mp hc with hc | hc
      · exact mem_covered.mpr ⟨c, by simp [hc], hx⟩
      · have := pieces c hc
        exact mem_covered.mpr ⟨b, by simp, by rw [Span.mem_bytes] at *; omega⟩
    · exact mem_covered.mpr ⟨c, by simp [hc], hx⟩
  spaced := fun spaced => spaced_pieces spaced pieces inner
  sum := by
    simp only [total_append, total_cons]
    omega
  touched := touched

theorem spaced_leftover (b : Span) (n : Nat) : Spaced (leftover b n) := by
  unfold leftover Spaced
  split <;> simp

theorem pieces_leftover {n : Nat} (fits : n ≤ b.size) : ∀ c ∈ leftover b n, b.addr ≤ c.addr ∧ c.stop ≤ b.stop := by
  intro c hc
  obtain ⟨addr, stop, -⟩ := leftover_addr fits hc
  omega

end

section
variable {s : HeapState} {t lo hi size : Nat}

theorem genericMalloc_spec (fl : FreeList s t lo hi bs) (pos : 0 < size) :
    (tegrablGenericMalloc s t size = .ok (0, s) ∧ ∀ b ∈ bs, b.size ≤ need size) ∨
    ∃ xs b ys s', bs = xs ++ b :: ys ∧ (∀ c ∈ xs, c.size ≤ need size) ∧ need size < b.size ∧
      tegrablGenericMalloc s t size = .ok (b.addr + allocHeader, s') ∧
      Granted s s' t lo hi bs (xs ++ leftover b (need size) ++ ys)
        ⟨b.addr, takenSize b (need size)⟩ (b.addr + allocHeader) size := by
  have region := fl.region
  have le := fl.total_le
  have large := need_ge size
  by_cases short : total bs < size
  · refine Or.inl ⟨?_, fun b hb => ?_⟩
    · simp [tegrablGenericMalloc, fl.freeSize, short]
    · have := size_le_total hb
      omega
  have guard : ¬ (size = 0 ∨ (s.heapInfo t).freeSize < size) := by
    rw [fl.freeSize]
    omega
  rcases allocSize_wraps (show size < 2 ^ 64 by omega) with wraps | exact
  · refine Or.inl ⟨?_, fun b hb => ?_⟩
    · simp only [tegrablGenericMalloc, guard, if_false, wraps, if_true]
      rfl
    · have huge : 2 ^ 64 ≤ need size := by
        by_contra small
        have small' : (size + 7) / 8 * 8 + allocHeader < 2 ^ 64 := by unfold need at small; omega
        rw [roundUp_eq (by simp only [allocHeader] at small'; omega), add64_eq small'] at wraps
        omega
      have := size_le_total hb
      omega
  have noWrap : ¬ add64 (roundUp size wordSize) allocHeader < size := by
    rw [exact]
    omega
  have amount : max (add64 (roundUp size wordSize) allocHeader) minSize = need size := by
    rw [exact]
    rfl
  have search := findFree_eq (need size) fl.seg fl.laid fl.length_lt_fuel
  cases found : bs.find? fun b => need size < b.size with
  | none =>
    refine Or.inl ⟨?_, fun b hb => ?_⟩
    · simp only [tegrablGenericMalloc, guard, if_false, noWrap, amount, fl.head, search, found,
        addrOf, ok_bind, if_true]
      rfl
    · have := List.find?_eq_none.mp found b hb
      simpa using this
  | some b =>
    obtain ⟨fits, xs, ys, rfl, before⟩ := List.find?_eq_some_iff_append.mp found
    have fits : need size < b.size := by simpa using fits
    obtain ⟨s₁, split, fl₁, taken, touched⟩ :=
      splitBlock_spec fl (minSize_le_need size) (Nat.le_of_lt fits)
    have room := fl.laid.room b (by simp)
    have nonzero : b.addr ≠ 0 := by omega
    have lower := takenSize_ge (Nat.le_of_lt fits)
    have upper := takenSize_le (Nat.le_of_lt fits)
    have inside : b.addr ≤ b.addr ∧ Span.stop ⟨b.addr, takenSize b (need size)⟩ ≤ b.stop := by
      simp only [Span.stop]
      omega
    have clear : ∀ c ∈ leftover b (need size), Span.Clear ⟨b.addr, takenSize b (need size)⟩ c := by
      intro c hc
      obtain ⟨addr, -⟩ := leftover_addr (Nat.le_of_lt fits) hc
      exact Or.inl (by rw [addr]; rfl)
    have wide := minSize_le_need size
    have changed : ChangedIn (Span.bytes ⟨b.addr, takenSize b (need size)⟩) s₁.mem
        (stMagic (stStart s₁.mem b.addr b.addr) b.addr allocMagic) := by
      refine (changedIn_span _ _ ?_ ?_).trans (changedIn_span _ _ ?_ ?_) <;> simp only [minSize] at * <;> omega
    have fl₂ : FreeList
        { s₁ with mem := stMagic (stStart s₁.mem b.addr b.addr) b.addr allocMagic } t lo hi
        (xs ++ leftover b (need size) ++ ys) :=
      fl₁.congr rfl changed (disjoint_of_clear (clear_of_inside fl.laid inside clear))
    refine Or.inr ⟨xs, b, ys, _, rfl, fun c hc => ?_, fits, ?_, granted_of fl fl₂
      (pieces_leftover (Nat.le_of_lt fits)) (spaced_leftover b _) inside clear ?_ (Nat.le_refl _)
      ?_ (Nat.le_trans wide lower) (Nat.le_of_eq (total_leftover (Nat.le_of_lt fits)))
      ⟨touched.mem.trans (changed.mono fun x hx => mem_covered.mpr
        ⟨b, by simp, by simp only [Span.mem_bytes] at *; omega⟩), touched.others⟩⟩
    · simpa using before c hc
    · simp only [tegrablGenericMalloc, guard, if_false, noWrap, amount, fl.head, search, found,
        addrOf, ok_bind, nonzero, split]
      rfl
    · simp only [HeaderAt, Nat.add_sub_cancel]
      refine ⟨?_, ?_, ?_⟩
      · exact readLE_writeLE_same _ _ _ _
      · refine (readLE_writeLE_other _ (by omega)).trans ?_
        exact (readLE_writeLE_other _ (by omega)).trans taken
      · refine (readLE_writeLE_other _ (by omega)).trans ((readLE_writeLE_same _ _ _ _).trans ?_)
        exact Nat.mod_eq_of_lt (by simp only [Span.stop] at room; omega)
    · simp only [Span.stop]
      omega

end

end Cboot.Heap
