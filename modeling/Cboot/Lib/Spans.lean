import Mathlib.Algebra.GroupWithZero.Nat
import Mathlib.Order.Interval.Finset.Nat
import Mathlib.Algebra.Order.BigOperators.Group.List

/-!
A span is a half-open range of addresses. The bytes of a list of disjoint spans are counted by the sum of their sizes.
-/

namespace Cboot.Lib

structure Span where
  addr : Nat
  size : Nat
  deriving DecidableEq, Repr

namespace Span

def stop (s : Span) : Nat := s.addr + s.size

@[simp] theorem stop_mk (a n : Nat) : (Span.mk a n).stop = a + n := rfl

def Clear (s t : Span) : Prop := s.stop ≤ t.addr ∨ t.stop ≤ s.addr

theorem Clear.symm {s t : Span} (h : s.Clear t) : t.Clear s := Or.symm h

def bytes (s : Span) : Finset Nat := Finset.Ico s.addr s.stop

@[simp] theorem mem_bytes {s : Span} {x : Nat} : x ∈ s.bytes ↔ s.addr ≤ x ∧ x < s.stop := by
  simp [bytes]

theorem card_bytes (s : Span) : s.bytes.card = s.size := by
  simp [bytes, stop]

theorem Clear.disjoint {s t : Span} (h : s.Clear t) : Disjoint s.bytes t.bytes := by
  rw [Finset.disjoint_left]
  intro x hs ht
  rw [mem_bytes] at hs ht
  rcases h with h | h <;> omega

theorem clear_of_disjoint {s t : Span} (hs : 0 < s.size) (ht : 0 < t.size)
    (h : Disjoint s.bytes t.bytes) : s.Clear t := by
  by_contra overlap
  simp only [Clear, stop, not_or, not_le] at overlap
  have inS : max s.addr t.addr ∈ s.bytes := mem_bytes.mpr (by simp only [stop]; omega)
  have inT : max s.addr t.addr ∈ t.bytes := mem_bytes.mpr (by simp only [stop]; omega)
  exact Finset.disjoint_left.mp h inS inT

end Span

def total (l : List Span) : Nat := (l.map Span.size).sum

@[simp] theorem total_nil : total [] = 0 := rfl

@[simp] theorem total_cons (s : Span) (l : List Span) : total (s :: l) = s.size + total l := by
  simp [total]

@[simp] theorem total_append (k l : List Span) : total (k ++ l) = total k + total l := by
  simp [total]

def covered : List Span → Finset Nat
  | [] => ∅
  | s :: l => s.bytes ∪ covered l

variable {l : List Span}

theorem mem_covered {x : Nat} : x ∈ covered l ↔ ∃ s ∈ l, x ∈ s.bytes := by
  induction l with
  | nil => simp only [covered, Finset.notMem_empty, List.not_mem_nil, false_and, exists_false]
  | cons s l ih => rw [covered, Finset.mem_union, ih, List.exists_mem_cons_iff]

theorem covered_append (k l : List Span) : covered (k ++ l) = covered k ∪ covered l := by
  ext x
  simp only [mem_covered, Finset.mem_union, List.mem_append]
  constructor
  · rintro ⟨s, hs | hs, hx⟩
    · exact Or.inl ⟨s, hs, hx⟩
    · exact Or.inr ⟨s, hs, hx⟩
  · rintro (⟨s, hs, hx⟩ | ⟨s, hs, hx⟩)
    · exact ⟨s, Or.inl hs, hx⟩
    · exact ⟨s, Or.inr hs, hx⟩

theorem card_covered (h : l.Pairwise Span.Clear) : (covered l).card = total l := by
  induction l with
  | nil => rfl
  | cons s l ih =>
    obtain ⟨clear, rest⟩ := List.pairwise_cons.mp h
    have apart : Disjoint s.bytes (covered l) := by
      rw [Finset.disjoint_left]
      intro x hs hl
      obtain ⟨t, ht, hx⟩ := mem_covered.mp hl
      exact Finset.disjoint_left.mp (clear t ht).disjoint hs hx
    rw [covered, Finset.card_union_of_disjoint apart, Span.card_bytes, ih rest, total_cons]

variable {lo hi : Nat}

theorem covered_subset (h : ∀ s ∈ l, lo ≤ s.addr ∧ s.stop ≤ hi) :
    covered l ⊆ Finset.Ico lo hi := by
  intro x hx
  obtain ⟨s, hs, hx⟩ := mem_covered.mp hx
  have bounds := h s hs
  rw [Span.mem_bytes] at hx
  rw [Finset.mem_Ico]
  omega

theorem total_le_region (clear : l.Pairwise Span.Clear)
    (within : ∀ s ∈ l, lo ≤ s.addr ∧ s.stop ≤ hi) : total l ≤ hi - lo := by
  rw [← card_covered clear, ← Nat.card_Ico]
  exact Finset.card_le_card (covered_subset within)

theorem covered_eq_region (clear : l.Pairwise Span.Clear)
    (within : ∀ s ∈ l, lo ≤ s.addr ∧ s.stop ≤ hi) (full : total l = hi - lo) : covered l = Finset.Ico lo hi :=
  Finset.eq_of_subset_of_card_le (covered_subset within) (by
    rw [card_covered clear, full, Nat.card_Ico])

/-- Sorted spans that neither overlap nor touch. -/
def Spaced (l : List Span) : Prop := l.Pairwise fun s t => s.stop < t.addr

theorem spaced_append {k l : List Span} : Spaced (k ++ l) ↔ Spaced k ∧ Spaced l ∧ ∀ s ∈ k, ∀ t ∈ l, s.stop < t.addr :=
  List.pairwise_append

theorem spaced_cons {s : Span} : Spaced (s :: l) ↔ (∀ t ∈ l, s.stop < t.addr) ∧ Spaced l :=
  List.pairwise_cons

/-- A nonempty run of consecutive members of `F` that cannot be extended either way. -/
def MaximalRun (F : Finset Nat) (a n : Nat) : Prop :=
  0 < n ∧ (∀ x, a ≤ x → x < a + n → x ∈ F) ∧ (∀ x, x + 1 = a → x ∉ F) ∧ a + n ∉ F

theorem spaced_cases (h : Spaced l) {s t : Span} (hs : s ∈ l) (ht : t ∈ l) :
    s = t ∨ s.stop < t.addr ∨ t.stop < s.addr := by
  induction l with
  | nil => cases hs
  | cons u l ih =>
    obtain ⟨first, rest⟩ := List.pairwise_cons.mp h
    rcases List.mem_cons.mp hs with rfl | inner
    · rcases List.mem_cons.mp ht with rfl | ht
      · exact Or.inl rfl
      · exact Or.inr (Or.inl (first t ht))
    · rcases List.mem_cons.mp ht with rfl | ht
      · exact Or.inr (Or.inr (first s inner))
      · exact ih rest inner ht

theorem run_in_span (spaced : Spaced l) {s : Span} (hs : s ∈ l) {a : Nat}
    (start : a ∈ s.bytes) (n : Nat) (run : ∀ x, a ≤ x → x < a + n → x ∈ covered l) : a + n ≤ s.stop := by
  induction n with
  | zero =>
    rw [Span.mem_bytes] at start
    omega
  | succ n ih =>
    have bound := ih fun x h₁ h₂ => run x h₁ (by omega)
    rw [Span.mem_bytes] at start
    by_contra beyond
    have stuck : a + n = s.stop := by omega
    obtain ⟨t, ht, hx⟩ := mem_covered.mp (run (a + n) (by omega) (by omega))
    rw [Span.mem_bytes] at hx
    rcases spaced_cases spaced hs ht with rfl | h | h <;> omega

theorem maximalRun_iff (spaced : Spaced l) (pos : ∀ s ∈ l, 0 < s.size) (a n : Nat) :
    MaximalRun (covered l) a n ↔ ⟨a, n⟩ ∈ l := by
  constructor
  · rintro ⟨hn, run, before, after⟩
    obtain ⟨s, hs, start⟩ := mem_covered.mp (run a (Nat.le_refl a) (by omega))
    have bound := run_in_span spaced hs start n run
    rw [Span.mem_bytes] at start
    have first : a = s.addr := by
      by_contra other
      refine before (a - 1) (by omega) (mem_covered.mpr ⟨s, hs, ?_⟩)
      rw [Span.mem_bytes]
      omega
    have last : a + n = s.stop := by
      by_contra other
      refine after (mem_covered.mpr ⟨s, hs, ?_⟩)
      rw [Span.mem_bytes]
      omega
    have size : n = s.size := by simp only [Span.stop] at last; omega
    rwa [first, size]
  · intro hs
    have hn := pos _ hs
    refine ⟨hn, fun x h₁ h₂ => mem_covered.mpr ⟨_, hs, ?_⟩, ?_, ?_⟩
    · rw [Span.mem_bytes]
      exact ⟨h₁, h₂⟩
    · intro x hx hc
      obtain ⟨t, ht, hb⟩ := mem_covered.mp hc
      rw [Span.mem_bytes] at hb
      rcases spaced_cases spaced hs ht with rfl | h | h <;> simp only [Span.stop] at * <;> omega
    · intro hc
      obtain ⟨t, ht, hb⟩ := mem_covered.mp hc
      rw [Span.mem_bytes] at hb
      rcases spaced_cases spaced hs ht with rfl | h | h <;> simp only [Span.stop] at * <;> omega

theorem spaced_starts {k l : List Span} (spaced : Spaced l) (same : covered l = covered k) {s : Span}
    (hs : s ∈ l) (pos : 0 < s.size) : ∃ t ∈ k, t.addr = s.addr := by
  have start : s.addr ∈ covered l :=
    mem_covered.mpr ⟨s, hs, Span.mem_bytes.mpr ⟨Nat.le_refl _, by simp only [Span.stop]; omega⟩⟩
  rw [same] at start
  obtain ⟨t, ht, inside⟩ := mem_covered.mp start
  rw [Span.mem_bytes] at inside
  refine ⟨t, ht, ?_⟩
  by_contra later
  have before : s.addr - 1 ∈ covered l := by
    rw [same]
    exact mem_covered.mpr ⟨t, ht, Span.mem_bytes.mpr (by omega)⟩
  obtain ⟨u, hu, inside'⟩ := mem_covered.mp before
  rw [Span.mem_bytes] at inside'
  rcases spaced_cases spaced hs hu with rfl | h | h <;> simp only [Span.stop] at * <;> omega

theorem spaced_covers_region (spaced : Spaced l)
    (pos : ∀ s ∈ l, 0 < s.size) (nonempty : lo < hi) (full : covered l = Finset.Ico lo hi) : l = [⟨lo, hi - lo⟩] := by
  have whole : ⟨lo, hi - lo⟩ ∈ l := by
    rw [← maximalRun_iff spaced pos, full]
    refine ⟨by omega, fun x h₁ h₂ => ?_, fun x hx => ?_, ?_⟩ <;> rw [Finset.mem_Ico] <;> omega
  have only : ∀ s ∈ l, s = ⟨lo, hi - lo⟩ := by
    intro s hs
    have inside : s.addr ∈ Finset.Ico lo hi := by
      rw [← full]
      refine mem_covered.mpr ⟨s, hs, ?_⟩
      rw [Span.mem_bytes]
      have := pos s hs
      simp only [Span.stop]
      omega
    rw [Finset.mem_Ico] at inside
    rcases spaced_cases spaced hs whole with h | h | h
    · exact h
    · simp only [Span.stop] at h
      omega
    · simp only [Span.stop] at h
      omega
  match l, whole, only, spaced with
  | [s], _, only, _ => rw [only s (by simp)]
  | s :: t :: l, _, only, spaced =>
    have clash := (List.pairwise_cons.mp spaced).1 t (by simp)
    rw [only s (by simp), only t (by simp)] at clash
    simp only [Span.stop_mk] at clash
    omega

end Cboot.Lib
