import Cboot.Heap.Effect

/-!
A session starts on a default heap that `tegrabl_heap_init` has just set up, and goes on with any allowed calls.
-/

namespace Cboot.Heap
open Lib

section
variable {s₀ h : HeapState} {start size : Nat} {s : Session}

theorem single_run (noDma : (s₀.heapInfo heapDma).freeList = 0) (bound : start + size < 2 ^ 64)
    (init : tegrablHeapInit s₀ heapDefault start size = .ok (none, h))
    {cond : Session → Op → Prop} (unwrapping : ∀ s op, cond s op → NoWrap s.heap op)
    (run : Reachable (single start (start + size)) cond ⟨h, []⟩ s) : SessionOk (single start (start + size)) s :=
  run_ok (single_start noDma bound init)
    (fun s op ok meets => ⟨routes_single ok, unwrapping s op meets⟩) run

theorem single_held (start stop : Nat) (live : List Grant) :
    (live.filter fun g => (single start stop).route g.heapType = heapDefault) = live :=
  List.filter_eq_self.mpr fun _ _ => decide_eq_true rfl

theorem single_heap {stop : Nat} (ok : SessionOk (single start stop) s) :
    HeapOk s.heap heapDefault start stop s.live := by
  have heap := ok.heaps heapDefault rfl
  rw [single_held] at heap
  exact heap

/-- The representation invariant holds after every run, and every further call returns. -/
theorem heap_invariant (noDma : (s₀.heapInfo heapDma).freeList = 0) (bound : start + size < 2 ^ 64)
    (init : tegrablHeapInit s₀ heapDefault start size = .ok (none, h))
    (run : Reachable (single start (start + size)) Unwrapping ⟨h, []⟩ s) :
    HeapOk s.heap heapDefault start (start + size) s.live ∧
      ∀ op, Allowed (single start (start + size)) s op → Unwrapping s op → ∃ s', step s op = .ok s' := by
  have ok := single_run noDma bound init (fun _ _ h => h) run
  refine ⟨single_heap ok, fun op allowed unwrapping => ?_⟩
  obtain ⟨s', call, -⟩ := step_effect ok (routes_single ok) allowed unwrapping
  exact ⟨s', call⟩

theorem aligned_run : ∃ s : Session, s.live = [⟨heapDefault, 4160, 8, 64⟩] ∧
    Reachable (single 4096 (4096 + 4096)) Unwrapping ⟨(boot 4096 4096).heap, []⟩ s := by
  obtain ⟨s, call, live⟩ := exists_step (boot 4096 4096) (.memalign 64 8)
    (fun s => s.live = [⟨heapDefault, 4160, 8, 64⟩]) (by decide)
  have unwrapping : Unwrapping (boot 4096 4096) (.memalign 64 8) := by
    unfold Unwrapping
    decide
  have allowed : Allowed (single 4096 (4096 + 4096)) (boot 4096 4096) (.memalign 64 8) := ⟨6, rfl⟩
  exact ⟨s, of_decide_eq_true live, Relation.ReflTransGen.single ⟨_, allowed, unwrapping, call⟩⟩

theorem heap_invariant_aligned : ∃ s : Session, s.live = [⟨heapDefault, 4160, 8, 64⟩] ∧
      HeapOk s.heap heapDefault 4096 (4096 + 4096) s.live := by
  obtain ⟨s, live, run⟩ := aligned_run
  exact ⟨s, live, (heap_invariant zeroed_noDma (by decide) (by rfl) run).1⟩

/-- A request whose size and gap add up to `2 ^ 64` splits nothing off the free block, and the
block is left with size 0 while the count of free bytes stays. -/
theorem heap_invariant_wraps : ∃ (h : HeapState) (s : Session),
      tegrablHeapInit zeroed heapDefault 8 (2 ^ 64 - 9) = .ok (none, h) ∧
      Reachable (single 8 (8 + (2 ^ 64 - 9))) (fun _ _ => True) ⟨h, []⟩ s ∧
      (s.heap.heapInfo heapDefault).freeSize ≠ total (freeBlocks s.heap heapDefault) := by
  obtain ⟨s, call, differs⟩ := exists_step (boot 8 (2 ^ 64 - 9)) (.memalign 16 (2 ^ 64 - 40))
    (fun s => (s.heap.heapInfo heapDefault).freeSize ≠ total (freeBlocks s.heap heapDefault))
    (by decide)
  have allowed : Allowed (single 8 (8 + (2 ^ 64 - 9))) (boot 8 (2 ^ 64 - 9))
      (.memalign 16 (2 ^ 64 - 40)) := ⟨4, rfl⟩
  refine ⟨(boot 8 (2 ^ 64 - 9)).heap, s, by rfl, ?_, of_decide_eq_true differs⟩
  exact Relation.ReflTransGen.single ⟨_, allowed, trivial, call⟩

/-- The bytes of every client are inside the region, aligned as asked for, and disjoint from the bytes of the others,
from every header and from every free block. -/
theorem grants_isolated (noDma : (s₀.heapInfo heapDma).freeList = 0) (bound : start + size < 2 ^ 64)
    (init : tegrablHeapInit s₀ heapDefault start size = .ok (none, h))
    (run : Reachable (single start (start + size)) Unwrapping ⟨h, []⟩ s) :
    (∀ g ∈ s.live, start ≤ g.ptr ∧ g.ptr + g.req ≤ start + size ∧ g.ptr % g.alignment = 0 ∧
      (∀ k ∈ s.live, Disjoint g.region.bytes k.header.bytes) ∧
      ∀ b ∈ freeBlocks s.heap heapDefault, Disjoint g.region.bytes b.bytes) ∧
    s.live.Pairwise (fun g k => Disjoint g.region.bytes k.region.bytes) ∧
    ∀ m, ChangedIn (covered (s.live.map Grant.region)) s.heap.mem m →
      HeapOk { s.heap with mem := m } heapDefault start (start + size) s.live ∧
      freeBlocks { s.heap with mem := m } heapDefault = freeBlocks s.heap heapDefault ∧
      ∀ g ∈ s.live, blockOf m g.ptr = blockOf s.heap.mem g.ptr := by
  have ok := single_run noDma bound init (fun _ _ h => h) run
  have heap := single_heap ok
  refine ⟨fun g hg => ?_, ?_, fun m changed => ?_⟩
  · have placed := heap.placed g hg
    have front := placed.live.front
    have fits := placed.fits
    have within := placed.live.within
    refine ⟨by omega, by omega, placed.aligned, fun k hk => ok.region_header hg hk, fun b hb => ?_⟩
    exact (ok.region_free hg rfl).mono_right (mem_covered_of_mem hb)
  · refine heap.apart.imp_of_mem fun hg hk clear => ?_
    exact clear.disjoint.mono (ok.region_subset hg) (ok.region_subset hk)
  · obtain ⟨kept, blocks, headers⟩ := regions_ok ok changed
    exact ⟨single_heap kept, blocks heapDefault rfl, headers⟩

theorem grants_isolated_aligned : ∃ s : Session, s.live = [⟨heapDefault, 4160, 8, 64⟩] ∧
      ∀ b ∈ freeBlocks s.heap heapDefault, Disjoint (Span.bytes ⟨4160, 8⟩) b.bytes := by
  obtain ⟨s, live, run⟩ := aligned_run
  obtain ⟨held, -⟩ := grants_isolated zeroed_noDma (by decide) (by rfl) run
  obtain ⟨-, -, -, -, free⟩ := held ⟨heapDefault, 4160, 8, 64⟩ (by rw [live]; simp)
  exact ⟨s, live, free⟩

/-- A wrapped request is answered with a pointer whose bytes run past the end of the heap. -/
theorem grants_isolated_wraps : ∃ (h : HeapState) (s : Session),
      tegrablHeapInit zeroed heapDefault 8 (2 ^ 64 - 9) = .ok (none, h) ∧
      Reachable (single 8 (8 + (2 ^ 64 - 9))) (fun _ _ => True) ⟨h, []⟩ s ∧
      ∃ g ∈ s.live, ¬ g.ptr + g.req ≤ 8 + (2 ^ 64 - 9) := by
  obtain ⟨s, call, live⟩ := exists_step (boot 8 (2 ^ 64 - 9)) (.memalign 1 (2 ^ 64 - 16))
    (fun s => s.live = [⟨heapDefault, 33, 2 ^ 64 - 16, 1⟩]) (by decide)
  have live := of_decide_eq_true live
  have allowed : Allowed (single 8 (8 + (2 ^ 64 - 9))) (boot 8 (2 ^ 64 - 9))
      (.memalign 1 (2 ^ 64 - 16)) := ⟨0, rfl⟩
  refine ⟨(boot 8 (2 ^ 64 - 9)).heap, s, by rfl, ?_, ⟨heapDefault, 33, 2 ^ 64 - 16, 1⟩, ?_, ?_⟩
  · exact Relation.ReflTransGen.single ⟨_, allowed, trivial, call⟩
  · rw [live]
    simp
  · decide

end

end Cboot.Heap
