import Cboot.Heap.Invariant

/-!
The free blocks are the maximal runs of free bytes, so a request fails exactly when no run is long
enough, and otherwise it is served from the lowest run that is.
-/

namespace Cboot.Heap
open Lib

def freeBytes (s : HeapState) : Finset Nat := covered (freeBlocks s heapDefault)

def LowestRun (s : HeapState) (long : Nat → Nat → Prop) (a n : Nat) : Prop :=
  MaximalRun (freeBytes s) a n ∧ long a n ∧ ∀ a' n', MaximalRun (freeBytes s) a' n' → long a' n' → a ≤ a'

section
variable {s : HeapState} {t lo hi : Nat} {held : List Grant}

variable (ok : HeapOk s heapDefault lo hi held)
include ok

theorem free_runs (a n : Nat) :
    MaximalRun (freeBytes s) a n ↔ ⟨a, n⟩ ∈ freeBlocks s heapDefault := by
  apply maximalRun_iff ok.spaced
  intro b hb
  have := (ok.free.laid.room b hb).2.1
  simp only [minSize] at this
  omega

theorem lowest_run (long : Nat → Nat → Prop)
    {xs ys : List Span} {b : Span} (blocks : freeBlocks s heapDefault = xs ++ b :: ys)
    (short : ∀ c ∈ xs, ¬ long c.addr c.size) (fits : long b.addr b.size) : LowestRun s long b.addr b.size := by
  refine ⟨(free_runs ok _ _).mpr (by rw [blocks]; simp), fits, fun a n run other => ?_⟩
  have member := (free_runs ok a n).mp run
  have laid := ok.free.laid
  rw [blocks] at member laid
  obtain ⟨around, -⟩ := laid_around.mp laid
  rcases List.mem_append.mp member with before | after
  · exact absurd other (short _ before)
  · rcases List.mem_cons.mp after with same | after
    · rw [← same]
    · have := around.after _ after
      simp only [Span.stop] at this
      omega

theorem malloc_first_fit {size : Nat} (pos : 0 < size) :
    ∃ p s', tegrablMalloc s size = .ok (p, s') ∧ (p = 0 ↔ ∀ a n, MaximalRun (freeBytes s) a n → n ≤ need size) ∧
      (p ≠ 0 → ∃ a n, LowestRun s (fun _ n => need size < n) a n ∧
        (blockOf s'.mem p).addr = a ∧ p = a + allocHeader) := by
  rcases genericMalloc_spec ok.free pos with ⟨call, none⟩ | found
  · refine ⟨0, s, call, ?_, fun h => absurd rfl h⟩
    exact ⟨fun _ a n run => none _ ((free_runs ok a n).mp run), fun _ => rfl⟩
  · obtain ⟨xs, b, ys, s', blocks, before, fits, call, granted⟩ := found
    have lowest := lowest_run ok (fun _ n => need size < n) blocks
      (fun c hc => Nat.not_lt.mpr (before c hc)) fits
    refine ⟨b.addr + allocHeader, s', call, ?_, fun _ => ⟨b.addr, b.size, lowest, ?_, rfl⟩⟩
    · constructor
      · intro zero
        simp [allocHeader] at zero
      · intro none
        have := none b.addr b.size lowest.1
        omega
    · rw [headerAt_blockOf granted.header]

theorem sizeAlignmentValid {alignment size : Nat}
    (small : size + alignment ≤ (s.heapInfo heapDefault).maxSize) :
    isSizeAlignmentValid s heapDefault alignment size = true := by
  have region := ok.free.region
  have max := ok.free.maxSize
  have sum : add64 size alignment = size + alignment := add64_eq (by omega)
  simp only [isSizeAlignmentValid, sum, Bool.not_eq_true', Bool.or_eq_false_iff, decide_eq_false_iff_not]
  omega

theorem memalign_first_fit {k size : Nat} (pos : 0 < size)
    (small : size + 2 ^ k ≤ (s.heapInfo heapDefault).maxSize) (noWrap : NoWrap s (.memalign (2 ^ k) size)) :
    ∃ p s', tegrablMemalign s (2 ^ k) size = .ok (p, s') ∧
      (p = 0 ↔ ∀ a n, MaximalRun (freeBytes s) a n → n < need size + gapOf a (2 ^ k)) ∧
      (p ≠ 0 → ∃ a n, LowestRun s (fun a n => need size + gapOf a (2 ^ k) ≤ n) a n ∧
        p = a + allocHeader + gapOf a (2 ^ k)) := by
  have valid := sizeAlignmentValid ok small
  have unwrapped : Unwrapped (freeBlocks s heapDefault) (2 ^ k) size :=
    noWrap ⟨heapDefault, 2 ^ k, size⟩ (if_pos valid)
  have route : tegrablMemalign s (2 ^ k) size = tegrablMemalignGeneric s heapDefault (2 ^ k) size :=
    if_pos valid
  rw [route]
  cases found : firstFit (freeBlocks s heapDefault) (2 ^ k) size with
  | none =>
    refine ⟨0, s, memalignGeneric_none ok.free unwrapped found, ⟨fun _ a n run => ?_, fun _ => rfl⟩,
      fun h => absurd rfl h⟩
    have misses := List.find?_eq_none.mp found _ ((free_runs ok a n).mp run)
    simpa using misses
  | some b =>
    obtain ⟨hit, xs, ys, blocks, before⟩ := List.find?_eq_some_iff_append.mp found
    obtain ⟨-, -, s', -, -, call, -⟩ :=
      memalignGeneric_some ok.free pos (Nat.two_pow_pos k) unwrapped found
    have lowest := lowest_run ok (fun a n => need size + gapOf a (2 ^ k) ≤ n) blocks
      (fun c hc => by simpa using before c hc) (of_decide_eq_true hit)
    refine ⟨_, s', call, ?_, fun _ => ⟨b.addr, b.size, lowest, by omega⟩⟩
    constructor
    · intro zero
      simp [allocHeader] at zero
    · intro none
      have := none b.addr b.size lowest.1
      have := lowest.2.1
      omega

end

section
variable {s₀ h : HeapState} {start size : Nat} {s : Session}

/-- After every run a plain request and an aligned one fail only when no run of free bytes is long
enough, and otherwise take the lowest that is. -/
theorem requests_first_fit (noDma : (s₀.heapInfo heapDma).freeList = 0) (bound : start + size < 2 ^ 64)
    (init : tegrablHeapInit s₀ heapDefault start size = .ok (none, h))
    (run : Reachable (single start (start + size)) Unwrapping ⟨h, []⟩ s) :
    (∀ n, 0 < n → ∃ p s', tegrablMalloc s.heap n = .ok (p, s') ∧
      (p = 0 ↔ ∀ a l, MaximalRun (freeBytes s.heap) a l → l ≤ need n) ∧
      (p ≠ 0 → ∃ a l, LowestRun s.heap (fun _ l => need n < l) a l ∧
        (blockOf s'.mem p).addr = a ∧ p = a + allocHeader)) ∧
    ∀ k n, 0 < n → n + 2 ^ k ≤ (s.heap.heapInfo heapDefault).maxSize → Unwrapping s (.memalign (2 ^ k) n) →
      ∃ p s', tegrablMemalign s.heap (2 ^ k) n = .ok (p, s') ∧
        (p = 0 ↔ ∀ a l, MaximalRun (freeBytes s.heap) a l → l < need n + gapOf a (2 ^ k)) ∧
        (p ≠ 0 → ∃ a l, LowestRun s.heap (fun a l => need n + gapOf a (2 ^ k) ≤ l) a l ∧
          p = a + allocHeader + gapOf a (2 ^ k)) := by
  have heap := single_heap (single_run noDma bound init (fun _ _ h => h) run)
  exact ⟨fun n pos => malloc_first_fit heap pos, fun k n pos small noWrap => memalign_first_fit heap pos small noWrap⟩

theorem requests_first_fit_aligned : ∃ s : Session, s.live = [⟨heapDefault, 4160, 8, 64⟩] ∧
      ∃ p s', tegrablMalloc s.heap 100 = .ok (p, s') ∧
        (p = 0 ↔ ∀ a l, MaximalRun (freeBytes s.heap) a l → l ≤ need 100) := by
  obtain ⟨s, live, run⟩ := aligned_run
  obtain ⟨plain, -⟩ := requests_first_fit zeroed_noDma (by decide) (by rfl) run
  obtain ⟨p, s', call, fails, -⟩ := plain 100 (by decide)
  exact ⟨s, live, p, s', call, fails⟩

/-- In a fresh heap the request below needs `2 ^ 64` bytes with its gap. -/
theorem requests_first_fit_wraps : ∃ h : HeapState, tegrablHeapInit zeroed heapDefault 8 (2 ^ 64 - 9) = .ok (none, h) ∧
      2 ^ 64 - 40 + 16 ≤ (h.heapInfo heapDefault).maxSize ∧
      (∀ a l, MaximalRun (freeBytes h) a l → l < need (2 ^ 64 - 40) + gapOf a 16) ∧
      ∃ p s', tegrablMemalign h 16 (2 ^ 64 - 40) = .ok (p, s') ∧ p ≠ 0 := by
  have init : tegrablHeapInit zeroed heapDefault 8 (2 ^ 64 - 9) = .ok (none, (boot 8 (2 ^ 64 - 9)).heap) := by rfl
  obtain ⟨fl, -⟩ := heapInit_spec init (by decide)
  have runs : ∀ a l, MaximalRun (freeBytes (boot 8 (2 ^ 64 - 9)).heap) a l → l < need (2 ^ 64 - 40) + gapOf a 16 := by
    intro a l run
    have member := (free_runs (heapInit_ok fl) a l).mp run
    rw [freeBlocks_eq fl] at member
    obtain ⟨rfl, rfl⟩ := Span.mk.inj (List.mem_singleton.mp member)
    decide
  obtain ⟨s', call, live⟩ := exists_step (boot 8 (2 ^ 64 - 9)) (.memalign 16 (2 ^ 64 - 40))
    (fun s => s.live ≠ []) (by decide)
  refine ⟨_, init, by decide, runs, ?_⟩
  cases result : tegrablMemalign (boot 8 (2 ^ 64 - 9)).heap 16 (2 ^ 64 - 40) with
  | error fault =>
    rw [step, exec, result] at call
    cases call
  | ok answer =>
    obtain ⟨p, s''⟩ := answer
    refine ⟨p, s'', rfl, fun zero => ?_⟩
    subst zero
    have kept := step_of_exec (boot 8 (2 ^ 64 - 9)) (.memalign 16 (2 ^ 64 - 40)) result
    rw [call] at kept
    have kept := Except.ok.inj kept
    rw [kept] at live
    cases live

end

end Cboot.Heap
