import Cboot.Heap.Model
import Cboot.Lib.Spans

/-!
`Seg m p bs n` says that the blocks `bs` are linked in memory `m`, with `p` in front of the first and `n` behind the
last.
-/

namespace Cboot.Heap
open Lib

/-- The memories agree except on `F`. -/
def ChangedIn (F : Finset Nat) (m m' : Mem) : Prop := ∀ x, x ∉ F → m' x = m x

theorem changedIn_refl (F : Finset Nat) (m : Mem) : ChangedIn F m m := fun _ _ => rfl

variable {F : Finset Nat}

theorem ChangedIn.trans {m₁ m₂ m₃ : Mem} (h₁ : ChangedIn F m₁ m₂)
    (h₂ : ChangedIn F m₂ m₃) : ChangedIn F m₁ m₃ :=
  fun x hx => (h₂ x hx).trans (h₁ x hx)

variable {m m' : Mem}

theorem ChangedIn.mono {F G : Finset Nat} (h : ChangedIn F m m') (sub : F ⊆ G) : ChangedIn G m m' :=
  fun x hx => h x fun hF => hx (sub hF)

theorem changedIn_writeLE (m : Mem) {a n : Nat} (v : Nat)
    (h : ∀ x, a ≤ x → x < a + n → x ∈ F) : ChangedIn F m (writeLE m a n v) := by
  intro x hx
  have outside : ¬ (a ≤ x ∧ x < a + n) := fun inside => hx (h x inside.1 inside.2)
  simp [writeLE, outside]

theorem ChangedIn.agreeOn {s : Span} (h : ChangedIn F m m')
    (apart : Disjoint s.bytes F) : AgreeOn m m' s.addr s.stop :=
  fun x h₁ h₂ => h x (Finset.disjoint_left.mp apart (Span.mem_bytes.mpr ⟨h₁, h₂⟩))

theorem changedIn_span {s : Span} (m : Mem) {a n : Nat} (v : Nat) (h₁ : s.addr ≤ a)
    (h₂ : a + n ≤ s.addr + s.size) : ChangedIn s.bytes m (writeLE m a n v) :=
  changedIn_writeLE m v fun x hx₁ hx₂ =>
    Span.mem_bytes.mpr ⟨by omega, by simp only [Span.stop]; omega⟩

def NodeAt (m : Mem) (b : Span) (prev next : Nat) : Prop :=
  ldMagic m b.addr = freeMagic ∧ ldSize m b.addr = b.size ∧ ldPrev m b.addr = prev ∧ ldNext m b.addr = next

variable {b : Span}

theorem NodeAt.congr {prev next : Nat} (h : NodeAt m b prev next)
    (same : AgreeOn m m' b.addr (b.addr + minSize)) : NodeAt m' b prev next := by
  obtain ⟨magic, size, hprev, hnext⟩ := h
  refine ⟨?_, ?_, ?_, ?_⟩
  · exact (readLE_congr (same.mono (by omega) (by simp [minSize]))).trans magic
  · exact (readLE_congr (same.mono (by omega) (by simp [minSize]))).trans size
  · exact (readLE_congr (same.mono (by omega) (by simp [minSize]))).trans hprev
  · exact (readLE_congr (same.mono (by omega) (by simp [minSize]))).trans hnext

theorem NodeAt.setPrev {prev next v : Nat} (h : NodeAt m b prev next)
    (bound : v < 2 ^ 64) : NodeAt (stPrev m b.addr v) b v next := by
  obtain ⟨magic, size, hprev, hnext⟩ := h
  refine ⟨?_, ?_, ?_, ?_⟩
  · exact (readLE_writeLE_other m (by omega)).trans magic
  · exact (readLE_writeLE_other m (by omega)).trans size
  · exact (readLE_writeLE_same _ _ _ _).trans (Nat.mod_eq_of_lt bound)
  · exact (readLE_writeLE_other m (by omega)).trans hnext

theorem NodeAt.setNext {prev next v : Nat} (h : NodeAt m b prev next)
    (bound : v < 2 ^ 64) : NodeAt (stNext m b.addr v) b prev v := by
  obtain ⟨magic, size, hprev, hnext⟩ := h
  refine ⟨?_, ?_, ?_, ?_⟩
  · exact (readLE_writeLE_other m (by omega)).trans magic
  · exact (readLE_writeLE_other m (by omega)).trans size
  · exact (readLE_writeLE_other m (by omega)).trans hprev
  · exact (readLE_writeLE_same _ _ _ _).trans (Nat.mod_eq_of_lt bound)

def headAddr : List Span → Nat → Nat
  | [], n => n
  | b :: _, _ => b.addr

@[simp] theorem headAddr_cons (b : Span) (bs : List Span) (n : Nat) : headAddr (b :: bs) n = b.addr := rfl

def lastAddr : Nat → List Span → Nat
  | p, [] => p
  | _, b :: bs => lastAddr b.addr bs

theorem headAddr_append (xs ys : List Span) (n : Nat) : headAddr (xs ++ ys) n = headAddr xs (headAddr ys n) := by
  cases xs <;> rfl

theorem lastAddr_append (p : Nat) (xs ys : List Span) : lastAddr p (xs ++ ys) = lastAddr (lastAddr p xs) ys := by
  induction xs generalizing p with
  | nil => rfl
  | cons b xs ih => exact ih b.addr

def Seg (m : Mem) : Nat → List Span → Nat → Prop
  | _, [], _ => True
  | p, b :: bs, n => NodeAt m b p (headAddr bs n) ∧ Seg m b.addr bs n

variable {xs ys : List Span} {p n : Nat}

theorem seg_append :
    Seg m p (xs ++ ys) n ↔ Seg m p xs (headAddr ys n) ∧ Seg m (lastAddr p xs) ys n := by
  induction xs generalizing p with
  | nil => simp [Seg, lastAddr]
  | cons b xs ih =>
    simp only [List.cons_append, Seg, ih, lastAddr, headAddr_append]
    exact and_assoc.symm

theorem Seg.node
    (h : Seg m p (xs ++ b :: ys) n) : NodeAt m b (lastAddr p xs) (headAddr ys n) :=
  (seg_append.mp h).2.1

variable {bs : List Span}

theorem Seg.congr (h : Seg m p bs n)
    (same : ∀ b ∈ bs, AgreeOn m m' b.addr (b.addr + minSize)) : Seg m' p bs n := by
  induction bs generalizing p with
  | nil => trivial
  | cons b bs ih =>
    exact ⟨h.1.congr (same b (by simp)), ih h.2 fun c hc => same c (by simp [hc])⟩

structure Laid (bs : List Span) : Prop where
  order : bs.Pairwise fun s t => s.stop ≤ t.addr
  room : ∀ b ∈ bs, 0 < b.addr ∧ minSize ≤ b.size ∧ b.stop < 2 ^ 64

theorem Laid.nil : Laid [] := ⟨List.Pairwise.nil, by simp⟩

theorem laid_cons : Laid (b :: bs) ↔ (0 < b.addr ∧ minSize ≤ b.size ∧ b.stop < 2 ^ 64) ∧
      (∀ c ∈ bs, b.stop ≤ c.addr) ∧ Laid bs := by
  constructor
  · rintro ⟨order, room⟩
    obtain ⟨first, rest⟩ := List.pairwise_cons.mp order
    exact ⟨room b (by simp), first, rest, fun c hc => room c (by simp [hc])⟩
  · rintro ⟨here, first, rest, room⟩
    refine ⟨List.pairwise_cons.mpr ⟨first, rest⟩, ?_⟩
    intro c hc
    rcases List.mem_cons.mp hc with rfl | hc
    · exact here
    · exact room c hc

theorem laid_append :
    Laid (xs ++ ys) ↔ Laid xs ∧ Laid ys ∧ ∀ b ∈ xs, ∀ c ∈ ys, b.stop ≤ c.addr := by
  constructor
  · rintro ⟨order, room⟩
    obtain ⟨left, right, between⟩ := List.pairwise_append.mp order
    exact ⟨⟨left, fun b hb => room b (by simp [hb])⟩, ⟨right, fun b hb => room b (by simp [hb])⟩, between⟩
  · rintro ⟨⟨left, room₁⟩, ⟨right, room₂⟩, between⟩
    refine ⟨List.pairwise_append.mpr ⟨left, right, between⟩, fun b hb => ?_⟩
    rcases List.mem_append.mp hb with hb | hb
    · exact room₁ b hb
    · exact room₂ b hb

theorem headAddr_mem (h : bs ≠ []) : ∃ b ∈ bs, headAddr bs 0 = b.addr := by
  cases bs with
  | nil => exact absurd rfl h
  | cons b bs => exact ⟨b, by simp, rfl⟩

theorem lastAddr_mem (p : Nat) (h : bs ≠ []) : ∃ b ∈ bs, lastAddr p bs = b.addr := by
  induction bs generalizing p with
  | nil => exact absurd rfl h
  | cons b bs ih =>
    cases bs with
    | nil => exact ⟨b, by simp, rfl⟩
    | cons c bs =>
      obtain ⟨d, hd, same⟩ := ih b.addr (by simp)
      exact ⟨d, by simp [List.mem_cons.mp hd], same⟩

theorem Laid.headAddr_lt (h : Laid bs) : headAddr bs 0 < 2 ^ 64 := by
  by_cases empty : bs = []
  · simp [empty, headAddr]
  · obtain ⟨b, hb, same⟩ := headAddr_mem empty
    have := h.room b hb
    simp only [Span.stop] at this
    omega

theorem Laid.lastAddr_lt (h : Laid bs) : lastAddr 0 bs < 2 ^ 64 := by
  by_cases empty : bs = []
  · simp [empty, lastAddr]
  · obtain ⟨b, hb, same⟩ := lastAddr_mem 0 empty
    have := h.room b hb
    simp only [Span.stop] at this
    omega

theorem Laid.headAddr_eq_zero (h : Laid bs) : headAddr bs 0 = 0 ↔ bs = [] := by
  cases bs with
  | nil => simp [headAddr]
  | cons b bs =>
    have := (h.room b (by simp)).1
    simp only [headAddr, reduceCtorEq, iff_false]
    omega

theorem Laid.lastAddr_eq_zero (h : Laid bs) : lastAddr 0 bs = 0 ↔ bs = [] := by
  constructor
  · intro zero
    by_contra nonempty
    obtain ⟨b, hb, same⟩ := lastAddr_mem 0 nonempty
    have := (h.room b hb).1
    omega
  · rintro rfl
    rfl

theorem Seg.setPrev_head {p n v : Nat} (h : Seg m p bs n)
    (laid : Laid bs) (bound : v < 2 ^ 64) : Seg (setPrevOf m (headAddr bs 0) v) v bs n := by
  cases bs with
  | nil => trivial
  | cons b bs =>
    obtain ⟨here, first, rest⟩ := laid_cons.mp laid
    have nonzero : b.addr ≠ 0 := by omega
    simp only [headAddr, setPrevOf, nonzero, ne_eq, not_false_eq_true, if_true]
    refine ⟨h.1.setPrev bound, h.2.congr fun c hc => agreeOn_writeLE _ _ _ _ ?_⟩
    have := first c hc
    simp only [Span.stop, minSize] at *
    omega

theorem Seg.setNext_last {p n v : Nat} (h : Seg m p bs n)
    (laid : Laid bs) (nonempty : bs ≠ []) (bound : v < 2 ^ 64) : Seg (stNext m (lastAddr p bs) v) p bs v := by
  induction bs generalizing p with
  | nil => exact absurd rfl nonempty
  | cons b bs ih =>
    cases bs with
    | nil => exact ⟨h.1.setNext bound, trivial⟩
    | cons c bs =>
      obtain ⟨here, first, rest⟩ := laid_cons.mp laid
      obtain ⟨d, hd, last⟩ := lastAddr_mem b.addr (List.cons_ne_nil c bs)
      refine ⟨h.1.congr ?_, ih h.2 rest (by simp)⟩
      simp only [lastAddr] at last ⊢
      rw [last]
      have := first d hd
      simp only [Span.stop, minSize] at *
      exact agreeOn_writeLE _ _ _ _ (by omega)

theorem Seg.setNextOf_last {n v : Nat} (h : Seg m 0 bs n)
    (laid : Laid bs) (bound : v < 2 ^ 64) : Seg (setNextOf m (lastAddr 0 bs) v) 0 bs v := by
  by_cases empty : bs = []
  · subst empty
    trivial
  · have nonzero : lastAddr 0 bs ≠ 0 := fun zero => empty (laid.lastAddr_eq_zero.mp zero)
    rw [setNextOf, if_pos nonzero]
    exact h.setNext_last laid empty bound

theorem mem_covered_of_mem (hb : b ∈ bs) : b.bytes ⊆ covered bs :=
  fun _ hx => mem_covered.mpr ⟨b, hb, hx⟩

theorem changedIn_setNextOf {v : Nat} (laid : Laid bs) :
    ChangedIn (covered bs) m (setNextOf m (lastAddr 0 bs) v) := by
  by_cases empty : bs = []
  · subst empty
    exact changedIn_refl _ _
  · have nonzero : lastAddr 0 bs ≠ 0 := fun zero => empty (laid.lastAddr_eq_zero.mp zero)
    obtain ⟨b, hb, same⟩ := lastAddr_mem 0 empty
    have room := laid.room b hb
    rw [setNextOf, if_pos nonzero, same]
    refine (changedIn_span m v ?_ ?_).mono (mem_covered_of_mem hb)
    · omega
    · simp only [Span.stop, minSize] at *
      omega

theorem changedIn_setPrevOf {v : Nat} (laid : Laid bs) :
    ChangedIn (covered bs) m (setPrevOf m (headAddr bs 0) v) := by
  by_cases empty : bs = []
  · subst empty
    exact changedIn_refl _ _
  · have nonzero : headAddr bs 0 ≠ 0 := fun zero => empty (laid.headAddr_eq_zero.mp zero)
    obtain ⟨b, hb, same⟩ := headAddr_mem empty
    have room := laid.room b hb
    rw [setPrevOf, if_pos nonzero, same]
    refine (changedIn_span m v ?_ ?_).mono (mem_covered_of_mem hb)
    · omega
    · simp only [Span.stop, minSize] at *
      omega

theorem Seg.next_last (h : Seg m p bs n)
    (nonempty : bs ≠ []) : ldNext m (lastAddr p bs) = n := by
  induction bs generalizing p with
  | nil => exact absurd rfl nonempty
  | cons b bs ih =>
    cases bs with
    | nil => exact h.1.2.2.2
    | cons c bs => exact ih h.2 (by simp)

theorem Seg.prev_head (h : Seg m p bs n)
    (nonempty : bs ≠ []) : ldPrev m (headAddr bs 0) = p := by
  cases bs with
  | nil => exact absurd rfl nonempty
  | cons b bs => exact h.1.2.2.1

structure Around (xs : List Span) (s : Span) (ys : List Span) : Prop where
  left : Laid xs
  right : Laid ys
  before : ∀ b ∈ xs, b.stop ≤ s.addr
  after : ∀ b ∈ ys, s.stop ≤ b.addr

def Hole (m : Mem) (xs ys : List Span) (n p : Nat) : Prop := Seg m 0 xs n ∧ Seg m p ys 0

theorem seg_hole : Seg m 0 (xs ++ b :: ys) 0 ↔
      Hole m xs ys b.addr b.addr ∧ NodeAt m b (lastAddr 0 xs) (headAddr ys 0) := by
  simp only [seg_append, Seg, Hole, headAddr]
  constructor
  · rintro ⟨left, node, right⟩
    exact ⟨⟨left, right⟩, node⟩
  · rintro ⟨⟨left, right⟩, node⟩
    exact ⟨left, node, right⟩

theorem seg_closed :
    Seg m 0 (xs ++ ys) 0 ↔ Hole m xs ys (headAddr ys 0) (lastAddr 0 xs) := seg_append

theorem laid_around : Laid (xs ++ b :: ys) ↔
      Around xs b ys ∧ 0 < b.addr ∧ minSize ≤ b.size ∧ b.stop < 2 ^ 64 := by
  rw [laid_append, laid_cons]
  constructor
  · rintro ⟨left, ⟨room, after, right⟩, between⟩
    exact ⟨⟨left, right, fun c hc => between c hc b (by simp), after⟩, room⟩
  · rintro ⟨⟨left, right, before, after⟩, room⟩
    refine ⟨left, ⟨room, after, right⟩, fun c hc d hd => ?_⟩
    rcases List.mem_cons.mp hd with rfl | hd
    · exact before c hc
    · have h₁ := before c hc
      have h₂ := after d hd
      simp only [Span.stop] at *
      omega

namespace Around

variable {s : Span} (a : Around xs s ys)
include a

theorem disjoint_left : Disjoint s.bytes (covered xs) := by
  rw [Finset.disjoint_left]
  intro x hs hx
  obtain ⟨b, hb, hx⟩ := mem_covered.mp hx
  have := a.before b hb
  rw [Span.mem_bytes] at hs hx
  omega

theorem disjoint_right : Disjoint s.bytes (covered ys) := by
  rw [Finset.disjoint_left]
  intro x hs hx
  obtain ⟨b, hb, hx⟩ := mem_covered.mp hx
  have := a.after b hb
  rw [Span.mem_bytes] at hs hx
  omega

theorem closed (pos : 0 < s.size) : Laid (xs ++ ys) := by
  refine laid_append.mpr ⟨a.left, a.right, fun b hb c hc => ?_⟩
  have h₁ := a.before b hb
  have h₂ := a.after c hc
  simp only [Span.stop] at *
  omega

theorem shrink {u : Span} (lower : s.addr ≤ u.addr) (upper : u.stop ≤ s.stop) : Around xs u ys :=
  ⟨a.left, a.right, fun b hb => (a.before b hb).trans lower, fun b hb => upper.trans (a.after b hb)⟩

theorem inside (h : Hole m xs ys n p) (changed : ChangedIn s.bytes m m') : Hole m' xs ys n p := by
  refine ⟨h.1.congr fun b hb => ?_, h.2.congr fun b hb => ?_⟩
  · refine (changed.agreeOn ?_).mono (Nat.le_refl b.addr) ?_
    · exact a.disjoint_left.symm.mono_left (mem_covered_of_mem hb)
    · have := a.left.room b hb
      simp only [Span.stop]
      omega
  · refine (changed.agreeOn ?_).mono (Nat.le_refl b.addr) ?_
    · exact a.disjoint_right.symm.mono_left (mem_covered_of_mem hb)
    · have := a.right.room b hb
      simp only [Span.stop]
      omega

theorem setNext (h : Hole m xs ys n p) {v : Nat} (bound : v < 2 ^ 64) :
    Hole (setNextOf m (lastAddr 0 xs) v) xs ys v p := by
  refine ⟨h.1.setNextOf_last a.left bound, h.2.congr fun c hc => ?_⟩
  refine ((changedIn_setNextOf a.left).agreeOn ?_).mono (Nat.le_refl c.addr) ?_
  · rw [Finset.disjoint_left]
    intro x hx hcov
    obtain ⟨b, hb, hbx⟩ := mem_covered.mp hcov
    have h₁ := a.before b hb
    have h₂ := a.after c hc
    simp only [Span.mem_bytes, Span.stop] at *
    omega
  · have := a.right.room c hc
    simp only [Span.stop]
    omega

theorem setPrev (h : Hole m xs ys n p) {v : Nat} (bound : v < 2 ^ 64) :
    Hole (setPrevOf m (headAddr ys 0) v) xs ys n v := by
  refine ⟨h.1.congr fun b hb => ?_, h.2.setPrev_head a.right bound⟩
  refine ((changedIn_setPrevOf a.right).agreeOn ?_).mono (Nat.le_refl b.addr) ?_
  · rw [Finset.disjoint_left]
    intro x hx hcov
    obtain ⟨c, hc, hcx⟩ := mem_covered.mp hcov
    have h₁ := a.before b hb
    have h₂ := a.after c hc
    simp only [Span.mem_bytes, Span.stop] at *
    omega
  · have := a.left.room b hb
    simp only [Span.stop]
    omega

theorem setNext_agree (v : Nat) : AgreeOn m (setNextOf m (lastAddr 0 xs) v) s.addr s.stop :=
  (changedIn_setNextOf a.left).agreeOn a.disjoint_left

theorem setPrev_agree (v : Nat) : AgreeOn m (setPrevOf m (headAddr ys 0) v) s.addr s.stop :=
  (changedIn_setPrevOf a.right).agreeOn a.disjoint_right

end Around

/-- Heap `t` of the state is the region `[lo, hi)` with the free blocks `bs`. -/
structure FreeList (s : HeapState) (t lo hi : Nat) (bs : List Span) : Prop where
  start : (s.heapInfo t).start = lo
  endAddr : (s.heapInfo t).endAddr = hi
  maxSize : (s.heapInfo t).maxSize = hi - lo
  freeSize : (s.heapInfo t).freeSize = total bs
  head : (s.heapInfo t).freeList = headAddr bs 0
  seg : Seg s.mem 0 bs 0
  laid : Laid bs
  within : ∀ b ∈ bs, lo ≤ b.addr ∧ b.stop ≤ hi
  region : 0 < lo ∧ lo + minSize ≤ hi ∧ hi < 2 ^ 64

theorem Laid.clear {bs : List Span} (h : Laid bs) : bs.Pairwise Span.Clear :=
  h.order.imp fun h => Or.inl h

namespace FreeList

variable {s : HeapState} {t lo hi : Nat}

theorem total_le (fl : FreeList s t lo hi bs) : total bs ≤ hi - lo :=
  total_le_region fl.laid.clear fl.within

theorem length_lt_fuel (fl : FreeList s t lo hi bs) : bs.length < s.fuel t := by
  have count : bs.length ≤ total bs := by
    have room := fl.laid.room
    clear fl
    induction bs with
    | nil => exact Nat.zero_le _
    | cons b bs ih =>
      have here := (room b (by simp)).2.1
      have rest := ih fun c hc => room c (by simp [hc])
      simp only [List.length_cons, total_cons, minSize] at *
      omega
  have := fl.total_le
  rw [HeapState.fuel, fl.maxSize]
  omega

end FreeList

end Cboot.Heap
