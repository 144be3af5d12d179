import Cboot.Heap.Effect

/-!
With a default heap and a DMA heap in use, the code takes the DMA heap to be there as long as its free list is not
empty.
-/

namespace Cboot.Heap
open Lib

def Routed (s : Session) (op : Op) : Prop :=
  NoWrap s.heap op ∧ (op.heapType = some heapDma → (s.heap.heapInfo heapDma).freeList ≠ 0)

instance (s : Session) (op : Op) : Decidable (Routed s op) :=
  inferInstanceAs (Decidable (_ ∧ (_ → _)))

theorem routeType_dual {s : HeapState} {ty : Nat} (typed : ty < heapTypeMax)
    (available : ty = heapDma → (s.heapInfo heapDma).freeList ≠ 0) : routeType s ty = ty := by
  unfold routeType
  split
  · rename_i empty
    simp only [heapTypeMax, heapDefault, heapDma] at *
    omega
  · rfl

section
variable {lo hi : Nat → Nat} {apart : hi heapDefault ≤ lo heapDma ∨ hi heapDma ≤ lo heapDefault}
variable {s : Session}

theorem routes_dual {op : Op} (routed : Routed s op) : Routes (dual lo hi apart) s.heap op := by
  intro ty member typed
  apply routeType_dual typed
  intro dma
  subst dma
  exact routed.2 member

theorem dual_run {s₀ : Session} (start : SessionOk (dual lo hi apart) s₀)
    (run : Reachable (dual lo hi apart) Routed s₀ s) : SessionOk (dual lo hi apart) s :=
  run_ok start (fun _ _ _ routed => ⟨routes_dual routed, routed.1⟩) run

end

section
variable {s₀ s₁ h : HeapState} {t u : Nat} {lo size : Nat → Nat}

theorem dual_start (ht : t < heapTypeMax) (hu : u < heapTypeMax) (different : t ≠ u)
    (bound : ∀ v, v < heapTypeMax → lo v + size v < 2 ^ 64) (apart : lo heapDefault + size heapDefault ≤ lo heapDma ∨
      lo heapDma + size heapDma ≤ lo heapDefault) (first : tegrablHeapInit s₀ t (lo t) (size t) = .ok (none, s₁))
    (second : tegrablHeapInit s₁ u (lo u) (size u) = .ok (none, h)) :
    SessionOk (dual lo (fun v => lo v + size v) apart) ⟨h, []⟩ := by
  obtain ⟨fl₁, -⟩ := heapInit_spec first (bound t ht)
  obtain ⟨fl₂, touched⟩ := heapInit_spec second (bound u hu)
  have regions := (dual lo (fun v => lo v + size v) apart).apart t u ht hu different
  have disjoint : Disjoint (covered [⟨lo t, size t⟩]) (Finset.Ico (lo u) (lo u + size u)) := by
    rw [Finset.disjoint_left]
    intro x inT inU
    simp only [covered, Finset.union_empty, Span.mem_bytes, Span.stop_mk, Finset.mem_Ico] at inT inU
    simp only [dual] at regions
    omega
  have kept := fl₁.congr (touched.others t different) touched.mem disjoint
  refine ⟨fun v hv => ?_, by simp, fun v typed unused => absurd typed unused⟩
  have cases : v = t ∨ v = u := by
    have : v < heapTypeMax := hv
    simp only [heapTypeMax] at *
    omega
  rcases cases with rfl | rfl
  · exact heapInit_ok kept
  · exact heapInit_ok fl₂

theorem heapInit_again {s : HeapState} {v : Nat} (typed : v < heapTypeMax)
    (inUse : (s.heapInfo v).freeList ≠ 0) (start n : Nat) :
    ∃ e, tegrablHeapInit s v start n = .ok (some e, s) ∧ (minSize ≤ n → e = .alreadyExists) := by
  unfold tegrablHeapInit
  by_cases small : n < minSize
  · rw [if_pos small]
    exact ⟨.tooSmall, rfl, fun h => absurd small (by omega)⟩
  · rw [if_neg small, if_neg (by omega), if_pos inUse]
    exact ⟨.alreadyExists, rfl, fun _ => rfl⟩

/-- Every pointer lies in the heap of its type, every call returns, a freed block goes back to the
heap whose region it lies in, and a heap in use is not initialised again. -/
theorem heap_routing {s : Session} (ht : t < heapTypeMax) (hu : u < heapTypeMax) (different : t ≠ u)
    (bound : ∀ v, v < heapTypeMax → lo v + size v < 2 ^ 64) (apart : lo heapDefault + size heapDefault ≤ lo heapDma ∨
      lo heapDma + size heapDma ≤ lo heapDefault) (first : tegrablHeapInit s₀ t (lo t) (size t) = .ok (none, s₁))
    (second : tegrablHeapInit s₁ u (lo u) (size u) = .ok (none, h))
    (run : Reachable (dual lo (fun v => lo v + size v) apart) Routed ⟨h, []⟩ s) : (∀ g ∈ s.live, lo g.heapType ≤ g.ptr ∧
      g.ptr + g.req ≤ lo g.heapType + size g.heapType) ∧
    (∀ op, Allowed (dual lo (fun v => lo v + size v) apart) s op → Routed s op → ∃ s', step s op = .ok s') ∧
    (∀ g ∈ s.live, Routed s (.dealloc g.heapType g.ptr) → ∃ h', tegrablDealloc s.heap g.heapType g.ptr = .ok h' ∧
        covered (freeBlocks h' g.heapType) = covered (freeBlocks s.heap g.heapType) ∪ (blockOf s.heap.mem g.ptr).bytes ∧
        ∀ v, v < heapTypeMax → v ≠ g.heapType → freeBlocks h' v = freeBlocks s.heap v) ∧
    ∀ v, v < heapTypeMax → (s.heap.heapInfo v).freeList ≠ 0 → ∀ start n,
      ∃ e, tegrablHeapInit s.heap v start n = .ok (some e, s.heap) ∧ (minSize ≤ n → e = .alreadyExists) := by
  have ok := dual_run (dual_start ht hu different bound apart first second) run
  refine ⟨fun g hg => ?_, fun op allowed routed => ?_, fun g hg routed => ?_,
    fun v typed inUse => heapInit_again typed inUse⟩
  · have placed := ok.placed hg
    have front := placed.live.front
    have fits := placed.fits
    have within := placed.live.within
    simp only [dual] at within
    omega
  · obtain ⟨s', call, -⟩ := step_effect ok (routes_dual routed) allowed routed.1
    exact ⟨s', call⟩
  · have typed := ok.typed g hg
    have route := routeType_dual typed fun dma => routed.2 (congrArg some dma)
    obtain ⟨h', bs, call, returned⟩ := dealloc_effect ok hg typed route
    refine ⟨h', call, ?_, fun v hv other => ?_⟩
    · have blocks : freeBlocks h' g.heapType = bs := freeBlocks_eq returned.free
      rw [blocks]
      exact returned.covers
    · have inside : covered (freeBlocks s.heap g.heapType) ∪ (blockOf s.heap.mem g.ptr).bytes ⊆
          Finset.Ico (lo g.heapType) (lo g.heapType + size g.heapType) :=
        Finset.union_subset (ok.free_subset (ok.used hg)) (ok.block_subset hg)
      exact (ok.elsewhere (ok.used hg) hv other returned.touched inside).2

end

/-- A default heap of one page and a DMA heap of `n` bytes, each at its own place. -/
def pairLo (v : Nat) : Nat := if v = heapDefault then 4096 else 16384
def pairSize (n v : Nat) : Nat := if v = heapDefault then 4096 else n

def bootPair (n : Nat) : Session :=
  match tegrablHeapInit (boot 4096 4096).heap heapDma 16384 n with
  | .ok (_, h) => ⟨h, []⟩
  | .error _ => ⟨zeroed, []⟩

theorem pair_apart (n : Nat) : pairLo heapDefault + pairSize n heapDefault ≤ pairLo heapDma ∨
    pairLo heapDma + pairSize n heapDma ≤ pairLo heapDefault := by
  left
  show 4096 + 4096 ≤ 16384
  decide

def hangs {α : Type} : HeapM α → Bool
  | .error fault => fault = .hang
  | .ok _ => false

theorem heap_routing_dma : ∃ s : Session, s.live = [⟨heapDma, 16408, 8, 1⟩] ∧
      ∃ h', tegrablDealloc s.heap heapDma 16408 = .ok h' := by
  obtain ⟨s, call, holds⟩ := exists_step (bootPair 4096) (.alloc heapDma 8)
    (fun s => s.live = [⟨heapDma, 16408, 8, 1⟩] ∧ Routed s (.dealloc heapDma 16408))
    (by decide)
  obtain ⟨live, routed⟩ := of_decide_eq_true holds
  have start : Routed (bootPair 4096) (.alloc heapDma 8) := by decide
  have run : Reachable (dual pairLo (fun v => pairLo v + pairSize 4096 v) (pair_apart 4096)) Routed
      ⟨(bootPair 4096).heap, []⟩ s :=
    Relation.ReflTransGen.single ⟨.alloc heapDma 8, trivial, start, call⟩
  have first : tegrablHeapInit zeroed heapDefault (pairLo heapDefault) (pairSize 4096 heapDefault) =
      .ok (none, (boot 4096 4096).heap) := by rfl
  obtain ⟨-, -, back, -⟩ := heap_routing (u := heapDma) (by decide) (by decide) (by decide)
    (fun v _ => by unfold pairLo pairSize; split <;> decide) (pair_apart 4096) first (by rfl) run
  obtain ⟨h', freed, -⟩ := back ⟨heapDma, 16408, 8, 1⟩ (by rw [live]; simp) routed
  exact ⟨s, live, h', freed⟩

/-- A DMA heap of 64 bytes is exhausted by one request. -/
theorem heap_routing_exhausted : ∃ (h : HeapState) (s : Session),
      tegrablHeapInit (boot 4096 4096).heap heapDma 16384 64 = .ok (none, h) ∧
      Reachable (dual pairLo (fun v => pairLo v + pairSize 64 v) (pair_apart 64)) (fun _ _ => True) ⟨h, []⟩ s ∧
      s.live = [⟨heapDma, 16408, 8, 1⟩] ∧ tegrablDealloc s.heap heapDma 16408 = .error .hang := by
  obtain ⟨s, call, holds⟩ := exists_step (bootPair 64) (.alloc heapDma 8)
    (fun s => s.live = [⟨heapDma, 16408, 8, 1⟩] ∧ hangs (tegrablDealloc s.heap heapDma 16408))
    (by decide)
  obtain ⟨live, stuck⟩ := of_decide_eq_true holds
  refine ⟨(bootPair 64).heap, s, by rfl, ?_, live, ?_⟩
  · exact Relation.ReflTransGen.single ⟨.alloc heapDma 8, trivial, trivial, call⟩
  · cases result : tegrablDealloc s.heap heapDma 16408 with
    | error fault =>
      rw [result] at stuck
      rw [of_decide_eq_true stuck]
    | ok h' =>
      rw [result] at stuck
      cases stuck

end Cboot.Heap
