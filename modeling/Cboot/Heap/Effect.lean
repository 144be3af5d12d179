import Cboot.Heap.Session

/-!
Every allowed call that does not wrap returns, and `Effect` lists what it can have done: nothing, a grant carved out of
one free block, the release of a held pointer, or a store to granted bytes.
-/

namespace Cboot.Heap
open Lib

inductive Effect (L : Layout) (s : Session) (op : Op) : Session → Prop
  | nothing : Effect L s op s
  | grant {t gap : Nat} {xs ys : List Span} {b : Span} {h : HeapState} {g : Grant}
      (used : L.used t) (typed : g.heapType < heapTypeMax) (route : L.route g.heapType = t)
      (blocks : freeBlocks s.heap t = xs ++ b :: ys) (fits : need g.req + gap ≤ b.size)
      (origin : gap = 0 ∨ ∃ k, ⟨t, 2 ^ k, g.req⟩ ∈ alignedRequest s.heap op ∧
        gap = gapOf b.addr (2 ^ k) ∧ firstFit (freeBlocks s.heap t) (2 ^ k) g.req = some b)
      (ptr : g.ptr = b.addr + gap + allocHeader) (pos : 0 < g.req)
      (aligned : g.ptr % g.alignment = 0)
      (granted : Granted s.heap h t (L.lo t) (L.hi t) (freeBlocks s.heap t)
        (xs ++ alignedPieces b gap (need g.req) ++ ys) (alignedSpan b gap (need g.req)) g.ptr g.req) :
      Effect L s op ⟨h, g :: s.live⟩
  | release {h : HeapState} {g : Grant} {bs : List Span} (held : g ∈ s.live)
      (returned : Returned s.heap h (L.route g.heapType) (L.lo (L.route g.heapType))
        (L.hi (L.route g.heapType)) (freeBlocks s.heap (L.route g.heapType)) bs
        (blockOf s.heap.mem g.ptr)) :
      Effect L s op ⟨h, drop s.live g.ptr⟩
  | store {g : Grant} {addr : Nat} {value : UInt8} (held : g ∈ s.live)
      (inside : g.ptr ≤ addr ∧ addr < g.ptr + g.req) :
      Effect L s op ⟨{ s.heap with mem := Function.update s.heap.mem addr value }, s.live⟩

namespace SessionOk

variable {L : Layout} {s : Session} (ok : SessionOk L s)
include ok

variable {g : Grant}

theorem used (hg : g ∈ s.live) : L.used (L.route g.heapType) :=
  L.routed _ (ok.typed g hg)

omit ok in
theorem mem_held (hg : g ∈ s.live) : g ∈ s.live.filter fun h => L.route h.heapType = L.route g.heapType :=
  List.mem_filter.mpr ⟨hg, decide_eq_true rfl⟩

theorem placed (hg : g ∈ s.live) : Placed s.heap (L.lo (L.route g.heapType)) (L.hi (L.route g.heapType))
      (freeBlocks s.heap (L.route g.heapType)) g :=
  (ok.heaps _ (ok.used hg)).placed g (mem_held hg)

theorem free_subset {t : Nat} (used : L.used t) : covered (freeBlocks s.heap t) ⊆ Finset.Ico (L.lo t) (L.hi t) :=
  covered_subset (ok.heaps t used).free.within

theorem block_subset (hg : g ∈ s.live) : (blockOf s.heap.mem g.ptr).bytes ⊆
      Finset.Ico (L.lo (L.route g.heapType)) (L.hi (L.route g.heapType)) := by
  intro x hx
  have within := (ok.placed hg).live.within
  rw [Span.mem_bytes] at hx
  rw [Finset.mem_Ico]
  omega

omit ok in
theorem regions_disjoint {t u : Nat} (ht : L.used t) (hu : L.used u) (different : t ≠ u) :
    Disjoint (Finset.Ico (L.lo t) (L.hi t)) (Finset.Ico (L.lo u) (L.hi u)) := by
  rw [Finset.disjoint_left]
  intro x h₁ h₂
  rw [Finset.mem_Ico] at h₁ h₂
  have := L.apart t u ht hu different
  omega

theorem block_free (hg : g ∈ s.live) {t : Nat} (used : L.used t) :
    Disjoint (blockOf s.heap.mem g.ptr).bytes (covered (freeBlocks s.heap t)) := by
  by_cases same : L.route g.heapType = t
  · subst same
    exact (disjoint_of_clear (ok.placed hg).live.clear).symm
  · exact (regions_disjoint (ok.used hg) used same).mono (ok.block_subset hg) (ok.free_subset used)

theorem block_block {g h : Grant} (hg : g ∈ s.live) (hh : h ∈ s.live) (different : g ≠ h) :
    Disjoint (blockOf s.heap.mem g.ptr).bytes (blockOf s.heap.mem h.ptr).bytes := by
  by_cases same : L.route g.heapType = L.route h.heapType
  · have : Std.Symm fun g h : Grant =>
        (blockOf s.heap.mem g.ptr).Clear (blockOf s.heap.mem h.ptr) :=
      ⟨fun _ _ clear => clear.symm⟩
    have inHeld : g ∈ s.live.filter fun k => L.route k.heapType = L.route h.heapType :=
      List.mem_filter.mpr ⟨hg, decide_eq_true same⟩
    have clear := (ok.heaps _ (ok.used hh)).apart.forall inHeld (mem_held hh) different
    exact clear.disjoint
  · exact (regions_disjoint (ok.used hg) (ok.used hh) same).mono (ok.block_subset hg)
      (ok.block_subset hh)

theorem region_subset (hg : g ∈ s.live) : g.region.bytes ⊆ (blockOf s.heap.mem g.ptr).bytes := by
  intro x hx
  have front := (ok.placed hg).live.front
  have fits := (ok.placed hg).fits
  simp only [Grant.region, Span.mem_bytes, Span.stop_mk] at *
  omega

theorem region_free (hg : g ∈ s.live) {t : Nat} (used : L.used t) :
    Disjoint g.region.bytes (covered (freeBlocks s.heap t)) :=
  (ok.block_free hg used).mono_left (ok.region_subset hg)

theorem region_header {g h : Grant} (hg : g ∈ s.live) (hh : h ∈ s.live) : Disjoint g.region.bytes h.header.bytes := by
  by_cases same : g = h
  · subst same
    rw [Finset.disjoint_left]
    intro x h₁ h₂
    have front := (ok.placed hg).live.front
    simp only [Grant.region, Grant.header, Span.mem_bytes, Span.stop_mk] at *
    omega
  · exact (ok.block_block hg hh same).mono (ok.region_subset hg) (ok.placed hh).header_subset

theorem elsewhere {t u : Nat} {h : HeapState} {F : Finset Nat} (ht : L.used t) (hu : L.used u)
    (different : u ≠ t) (touched : Touched s.heap h t F) (sub : F ⊆ Finset.Ico (L.lo t) (L.hi t)) :
    HeapOk h u (L.lo u) (L.hi u) (s.live.filter fun g => L.route g.heapType = u) ∧
      freeBlocks h u = freeBlocks s.heap u := by
  have apart := regions_disjoint hu ht different
  obtain ⟨heap, blocks, -⟩ := (ok.heaps u hu).congr (touched.others u different) touched.mem
    (apart.mono (ok.free_subset hu) sub) fun g hg => by
      obtain ⟨hg, route⟩ := List.mem_filter.mp hg
      have route : L.route g.heapType = u := of_decide_eq_true route
      have inside := (ok.placed hg).header_subset.trans (ok.block_subset hg)
      rw [route] at inside
      exact apart.mono inside sub
  exact ⟨heap, blocks⟩

end SessionOk

section
variable {L : Layout} {s s' : Session} {op : Op}

theorem HeapOk.sublist {s : HeapState} {t lo hi : Nat} {held held' : List Grant}
    (ok : HeapOk s t lo hi held) (sub : held'.Sublist held) : HeapOk s t lo hi held' :=
  ⟨ok.free, ok.spaced, fun g hg => ok.placed g (sub.subset hg), ok.apart.sublist sub⟩

theorem grant_ok {t : Nat} {bs' : List Span} {u : Span} {h : HeapState} {g : Grant}
    (ok : SessionOk L s) (used : L.used t) (typed : g.heapType < heapTypeMax)
    (route : L.route g.heapType = t) (pos : 0 < g.req) (aligned : g.ptr % g.alignment = 0)
    (granted : Granted s.heap h t (L.lo t) (L.hi t) (freeBlocks s.heap t) bs' u g.ptr g.req) :
    SessionOk L ⟨h, g :: s.live⟩ where
  heaps := by
    intro v hv
    by_cases same : v = t
    · subst same
      have here : ((g :: s.live).filter fun k => L.route k.heapType = v) =
          g :: s.live.filter fun k => L.route k.heapType = v :=
        List.filter_cons_of_pos (by simpa using route)
      rw [here]
      exact ((ok.heaps v hv).grant granted pos aligned).1
    · have other : ¬ L.route g.heapType = v := fun h => same (h.symm.trans route)
      have elsewhere : ((g :: s.live).filter fun k => L.route k.heapType = v) =
          s.live.filter fun k => L.route k.heapType = v :=
        List.filter_cons_of_neg (by simpa using other)
      rw [elsewhere]
      exact (ok.elsewhere used hv same granted.touched (ok.free_subset used)).1
  typed := by
    intro k hk
    rcases List.mem_cons.mp hk with rfl | hk
    · exact typed
    · exact ok.typed k hk
  unused := by
    intro v hv free
    rw [granted.touched.others v fun same => free (same ▸ used)]
    exact ok.unused v hv free

theorem release_ok {g : Grant} {bs : List Span} {h : HeapState} (ok : SessionOk L s) (hg : g ∈ s.live)
    (returned : Returned s.heap h (L.route g.heapType) (L.lo (L.route g.heapType))
      (L.hi (L.route g.heapType)) (freeBlocks s.heap (L.route g.heapType)) bs
      (blockOf s.heap.mem g.ptr)) : SessionOk L ⟨h, drop s.live g.ptr⟩ where
  heaps := by
    intro v hv
    by_cases same : v = L.route g.heapType
    · subst same
      have commute : ((drop s.live g.ptr).filter fun k => L.route k.heapType = L.route g.heapType) =
          drop (s.live.filter fun k => L.route k.heapType = L.route g.heapType) g.ptr :=
        List.filter_comm _ _ _
      rw [commute]
      exact ((ok.heaps _ hv).release (SessionOk.mem_held hg) returned).1
    · have sub : covered (freeBlocks s.heap (L.route g.heapType)) ∪ (blockOf s.heap.mem g.ptr).bytes ⊆
          Finset.Ico (L.lo (L.route g.heapType)) (L.hi (L.route g.heapType)) :=
        Finset.union_subset (ok.free_subset (ok.used hg)) (ok.block_subset hg)
      have kept := (ok.elsewhere (ok.used hg) hv same returned.touched sub).1
      exact kept.sublist (List.filter_sublist.filter _)
  typed := fun k hk => ok.typed k (List.mem_filter.mp hk).1
  unused := by
    intro v hv free
    rw [returned.touched.others v fun same => free (same ▸ ok.used hg)]
    exact ok.unused v hv free

theorem changedIn_update (m : Mem) {F : Finset Nat} {addr : Nat} (value : UInt8) (h : addr ∈ F) :
    ChangedIn F m (Function.update m addr value) := by
  intro x hx
  have different : x ≠ addr := by
    intro same
    rw [same] at hx
    exact hx h
  exact Function.update_of_ne different value m

theorem regions_ok {m : Mem} (ok : SessionOk L s)
    (changed : ChangedIn (covered (s.live.map Grant.region)) s.heap.mem m) :
    SessionOk L ⟨{ s.heap with mem := m }, s.live⟩ ∧
      (∀ t, L.used t → freeBlocks { s.heap with mem := m } t = freeBlocks s.heap t) ∧
      ∀ g ∈ s.live, blockOf m g.ptr = blockOf s.heap.mem g.ptr := by
  have outside : ∀ F : Finset Nat, (∀ g ∈ s.live, Disjoint g.region.bytes F) →
      Disjoint F (covered (s.live.map Grant.region)) := by
    intro F h
    rw [Finset.disjoint_right]
    intro x hx
    obtain ⟨r, hr, hx⟩ := mem_covered.mp hx
    obtain ⟨g, hg, rfl⟩ := List.mem_map.mp hr
    exact Finset.disjoint_left.mp (h g hg) hx
  have heap : ∀ t, L.used t → HeapOk { s.heap with mem := m } t (L.lo t) (L.hi t)
        (s.live.filter fun g => L.route g.heapType = t) ∧ freeBlocks { s.heap with mem := m } t = freeBlocks s.heap t ∧
      ∀ g ∈ s.live.filter fun g => L.route g.heapType = t, blockOf m g.ptr = blockOf s.heap.mem g.ptr := by
    intro t used
    have info : ({ s.heap with mem := m } : HeapState).heapInfo t = s.heap.heapInfo t := rfl
    apply (ok.heaps t used).congr info changed
    · exact outside _ fun g hg => ok.region_free hg used
    · exact fun g hg => outside _ fun k hk => ok.region_header hk (List.mem_filter.mp hg).1
  refine ⟨⟨fun t used => (heap t used).1, ok.typed, ok.unused⟩, fun t used => (heap t used).2.1, ?_⟩
  exact fun g hg => (heap _ (ok.used hg)).2.2 g (SessionOk.mem_held hg)

theorem effect_ok (ok : SessionOk L s) (effect : Effect L s op s') : SessionOk L s' := by
  cases effect with
  | nothing => exact ok
  | grant used typed route _ _ _ _ pos aligned granted =>
    exact grant_ok ok used typed route pos aligned granted
  | release held returned => exact release_ok ok held returned
  | @store g addr value held inside =>
    apply (regions_ok ok (changedIn_update _ value (mem_covered.mpr ⟨g.region, ?_, ?_⟩))).1
    · exact List.mem_map_of_mem held
    · exact Span.mem_bytes.mpr inside

end

theorem Granted.fill {s s' : HeapState} {t lo hi : Nat} {bs bs' : List Span} {u : Span}
    {ptr req : Nat} (granted : Granted s s' t lo hi bs bs' u ptr req) (b : UInt8) :
    Granted s { s' with mem := fillBytes s'.mem ptr req b } t lo hi bs bs' u ptr req := by
  have front := granted.front
  have back := granted.back
  have changed : ChangedIn u.bytes s'.mem (fillBytes s'.mem ptr req b) := by
    intro x hx
    have outside : ¬ (ptr ≤ x ∧ x < ptr + req) := by
      intro inside
      exact hx (Span.mem_bytes.mpr (by omega))
    simp [fillBytes, outside]
  have header : HeaderAt (fillBytes s'.mem ptr req b) ptr u :=
    granted.header.congr (agreeOn_fillBytes _ _ _ _ (Or.inr (by omega)))
  exact { granted with
    free := granted.free.congr rfl changed (disjoint_of_clear granted.clear)
    header := header
    touched := ⟨granted.touched.mem.trans (changed.mono granted.taken), granted.touched.others⟩ }

section
variable {L : Layout} {s : Session} {t size : Nat}

theorem alignedPieces_zero (b : Span) (n : Nat) : alignedPieces b 0 n = leftover b n := by
  simp [alignedPieces, minSize]

theorem alignedSpan_zero (b : Span) (n : Nat) : alignedSpan b 0 n = ⟨b.addr, takenSize b n⟩ := by
  simp [alignedSpan, minSize]

variable (ok : SessionOk L s)
include ok

theorem genericMalloc_effect (used : L.used t) (size : Nat) :
    tegrablGenericMalloc s.heap t size = .ok (0, s.heap) ∨
    ∃ xs b ys h, 0 < size ∧ freeBlocks s.heap t = xs ++ b :: ys ∧ need size + 0 ≤ b.size ∧
      tegrablGenericMalloc s.heap t size = .ok (b.addr + 0 + allocHeader, h) ∧
      Granted s.heap h t (L.lo t) (L.hi t) (freeBlocks s.heap t)
        (xs ++ alignedPieces b 0 (need size) ++ ys) (alignedSpan b 0 (need size)) (b.addr + 0 + allocHeader) size := by
  by_cases pos : 0 < size
  · rcases genericMalloc_spec (ok.heaps t used).free pos with ⟨call, -⟩ | found
    · exact Or.inl call
    · obtain ⟨xs, b, ys, h, blocks, -, fits, call, granted⟩ := found
      refine Or.inr ⟨xs, b, ys, h, pos, blocks, by omega, call, ?_⟩
      rw [alignedPieces_zero, alignedSpan_zero]
      exact granted
  · have zero : size = 0 := by omega
    exact Or.inl (by simp [tegrablGenericMalloc, zero])

theorem memalignGeneric_effect (used : L.used t) {alignment : Nat}
    (al : 0 < alignment) (unwrapped : Unwrapped (freeBlocks s.heap t) alignment size) :
    tegrablMemalignGeneric s.heap t alignment size = .ok (0, s.heap) ∨
    ∃ xs b ys h, 0 < size ∧ freeBlocks s.heap t = xs ++ b :: ys ∧ need size + gapOf b.addr alignment ≤ b.size ∧
      firstFit (freeBlocks s.heap t) alignment size = some b ∧ tegrablMemalignGeneric s.heap t alignment size =
        .ok (b.addr + gapOf b.addr alignment + allocHeader, h) ∧
      (b.addr + gapOf b.addr alignment + allocHeader) % alignment = 0 ∧
      Granted s.heap h t (L.lo t) (L.hi t) (freeBlocks s.heap t)
        (xs ++ alignedPieces b (gapOf b.addr alignment) (need size) ++ ys)
        (alignedSpan b (gapOf b.addr alignment) (need size)) (b.addr + gapOf b.addr alignment + allocHeader) size := by
  by_cases pos : 0 < size
  · cases found : firstFit (freeBlocks s.heap t) alignment size with
    | none => exact Or.inl (memalignGeneric_none (ok.heaps t used).free unwrapped found)
    | some b =>
      obtain ⟨xs, ys, h, blocks, fits, call, multiple, granted⟩ :=
        memalignGeneric_some (ok.heaps t used).free pos al unwrapped found
      exact Or.inr ⟨xs, b, ys, h, pos, blocks, fits, rfl, call, multiple, granted⟩
  · have zero : size = 0 := by omega
    exact Or.inl (by simp [tegrablMemalignGeneric, zero])

theorem dealloc_effect {g : Grant} (hg : g ∈ s.live) {heapType : Nat}
    (typed : heapType < heapTypeMax) (route : routeType s.heap heapType = L.route g.heapType) :
    ∃ h bs, tegrablDealloc s.heap heapType g.ptr = .ok h ∧
      Returned s.heap h (L.route g.heapType) (L.lo (L.route g.heapType))
        (L.hi (L.route g.heapType)) (freeBlocks s.heap (L.route g.heapType)) bs (blockOf s.heap.mem g.ptr) := by
  have heap := ok.heaps _ (ok.used hg)
  obtain ⟨p, h, bs, call, nonzero, returned⟩ :=
    genericFree_spec heap.free heap.spaced (ok.placed hg).live
  refine ⟨_, bs, ?_, returned⟩
  simp only [tegrablDealloc, route, call, ok_bind, nonzero, if_false]
  rw [if_neg (by omega)]
  rfl

omit ok in
theorem routeType_default (s : HeapState) : routeType s heapDefault = heapDefault := by
  unfold routeType
  split <;> rfl

omit ok in
theorem hold_zero (live : List Grant) (heapType req alignment : Nat) :
    hold live ⟨heapType, 0, req, alignment⟩ = live := rfl

omit ok in
theorem hold_pos (live : List Grant) {g : Grant} (h : g.ptr ≠ 0) : hold live g = g :: live :=
  if_neg h

omit ok in
theorem step_of_exec (s : Session) (op : Op) {ptr : Nat} {h : HeapState} (call : exec s.heap op = .ok (ptr, h)) :
    step s op = .ok ⟨h, record s.live ptr op⟩ := by
  unfold step
  rw [call]
  rfl

theorem plain_effect {op : Op} (used : L.used t) {heapType : Nat}
    (typed : heapType < heapTypeMax) (route : L.route heapType = t)
    (call : exec s.heap op = tegrablGenericMalloc s.heap t size)
    (keeps : ∀ ptr, record s.live ptr op = hold s.live ⟨heapType, ptr, size, 1⟩) :
    ∃ s', step s op = .ok s' ∧ Effect L s op s' := by
  rcases genericMalloc_effect ok used size with none | found
  · refine ⟨s, ?_, Effect.nothing⟩
    rw [step_of_exec s op (call.trans none), keeps, hold_zero]
  · obtain ⟨xs, b, ys, h, pos, blocks, fits, malloc, granted⟩ := found
    have nonzero : b.addr + 0 + allocHeader ≠ 0 := by simp [allocHeader]
    refine ⟨⟨h, ⟨heapType, b.addr + 0 + allocHeader, size, 1⟩ :: s.live⟩, ?_,
      Effect.grant used typed route blocks fits (Or.inl rfl) rfl pos (Nat.mod_one _) granted⟩
    rw [step_of_exec s op (call.trans malloc), keeps, hold_pos _ nonzero]

theorem aligned_effect {op : Op} (used : L.used t) {heapType k : Nat}
    (typed : heapType < heapTypeMax) (route : L.route heapType = t)
    (request : ⟨t, 2 ^ k, size⟩ ∈ alignedRequest s.heap op) (noWrap : NoWrap s.heap op)
    (call : exec s.heap op = tegrablMemalignGeneric s.heap t (2 ^ k) size)
    (keeps : ∀ ptr, record s.live ptr op = hold s.live ⟨heapType, ptr, size, 2 ^ k⟩) :
    ∃ s', step s op = .ok s' ∧ Effect L s op s' := by
  rcases memalignGeneric_effect ok used (Nat.two_pow_pos k) (noWrap _ request) with none | found
  · refine ⟨s, ?_, Effect.nothing⟩
    rw [step_of_exec s op (call.trans none), keeps, hold_zero]
  · obtain ⟨xs, b, ys, h, pos, blocks, fits, first, memalign, multiple, granted⟩ := found
    have nonzero : b.addr + gapOf b.addr (2 ^ k) + allocHeader ≠ 0 := by simp [allocHeader]
    refine ⟨⟨h, ⟨heapType, b.addr + gapOf b.addr (2 ^ k) + allocHeader, size, 2 ^ k⟩ :: s.live⟩, ?_,
      Effect.grant used typed route blocks fits (Or.inr ⟨k, request, rfl, first⟩) rfl pos multiple
        granted⟩
    rw [step_of_exec s op (call.trans memalign), keeps, hold_pos _ nonzero]

theorem calloc_effect (nmemb size : Nat) :
    ∃ s', step s (.calloc nmemb size) = .ok s' ∧ Effect L s (.calloc nmemb size) s' := by
  have used : L.used heapDefault := L.default ▸ L.routed heapDefault (by decide)
  have nothing : tegrablCalloc s.heap nmemb size = .ok (0, s.heap) →
      ∃ s', step s (.calloc nmemb size) = .ok s' ∧ Effect L s (.calloc nmemb size) s' := by
    intro call
    refine ⟨s, ?_, Effect.nothing⟩
    exact step_of_exec s (.calloc nmemb size) call
  by_cases zero : size = 0
  · exact nothing (by simp [tegrablCalloc, zero])
  by_cases many : (s.heap.heapInfo heapDefault).maxSize / size < nmemb
  · exact nothing (by simp [tegrablCalloc, zero, many])
  have fl := (ok.heaps heapDefault used).free
  have region := fl.region
  have small : nmemb * size ≤ L.hi heapDefault - L.lo heapDefault := by
    rw [← fl.maxSize]
    exact (Nat.le_div_iff_mul_le (by omega)).mp (by omega)
  have product : mul64 size nmemb = nmemb * size := by
    rw [mul64, Nat.mul_comm]
    exact Nat.mod_eq_of_lt (by omega)
  have exactly : mul64 size nmemb / size = nmemb := by
    rw [product]
    exact Nat.mul_div_cancel _ (by omega)
  have call : tegrablCalloc s.heap nmemb size = tegrablGenericMalloc s.heap heapDefault (nmemb * size) >>= fun r =>
        if r.1 ≠ 0 then pure (r.1, { r.2 with mem := fillBytes r.2.mem r.1 (nmemb * size) 0 })
        else pure (r.1, r.2) := by
    simp only [tegrablCalloc, zero, many, if_false, tegrablMalloc]
    rw [ensure_of _ exactly, ok_bind, product]
  rcases genericMalloc_effect ok used (nmemb * size) with none | found
  · exact nothing (by rw [call, none]; rfl)
  · obtain ⟨xs, b, ys, h, pos, blocks, fits, malloc, granted⟩ := found
    have nonzero : b.addr + 0 + allocHeader ≠ 0 := by simp [allocHeader]
    refine ⟨_, ?_, Effect.grant (g := ⟨heapDefault, b.addr + 0 + allocHeader, nmemb * size, 1⟩) used
      (by decide : heapDefault < heapTypeMax) L.default blocks fits (Or.inl rfl) rfl pos
      (Nat.mod_one _) (granted.fill 0)⟩
    have filled : exec s.heap (.calloc nmemb size) = .ok (b.addr + 0 + allocHeader,
        { h with mem := fillBytes h.mem (b.addr + 0 + allocHeader) (nmemb * size) 0 }) := by
      rw [exec, call, malloc, ok_bind]
      exact if_pos nonzero
    exact step_of_exec s _ filled

theorem step_effect {op : Op} (routes : Routes L s.heap op)
    (allowed : Allowed L s op) (noWrap : NoWrap s.heap op) : ∃ s', step s op = .ok s' ∧ Effect L s op s' := by
  have defaultUsed : L.used heapDefault := L.default ▸ L.routed heapDefault (by decide)
  have nothing : exec s.heap op = .ok (0, s.heap) → record s.live 0 op = s.live →
      ∃ s', step s op = .ok s' ∧ Effect L s op s' := by
    intro call keeps
    refine ⟨s, ?_, Effect.nothing⟩
    rw [step_of_exec s op call, keeps]
  cases op with
  | malloc size => exact plain_effect ok defaultUsed (by decide) L.default rfl fun _ => rfl
  | calloc nmemb size => exact calloc_effect ok nmemb size
  | alloc heapType size =>
    by_cases typed : heapType < heapTypeMax
    · refine plain_effect ok (L.routed heapType typed) typed rfl ?_ fun _ => rfl
      rw [exec, tegrablAlloc, if_neg (by omega), routes heapType rfl typed]
    · exact nothing (if_pos (by omega)) rfl
  | memalign alignment size =>
    obtain ⟨k, rfl⟩ := allowed
    by_cases valid : isSizeAlignmentValid s.heap heapDefault (2 ^ k) size
    · refine aligned_effect ok defaultUsed (by decide) L.default (if_pos valid) noWrap ?_ fun _ => rfl
      rw [exec, tegrablMemalign, if_pos valid]
    · exact nothing (if_neg valid) rfl
  | allocAlign heapType alignment size =>
    obtain ⟨k, rfl⟩ := allowed
    by_cases typed : heapType < heapTypeMax
    · by_cases valid : isSizeAlignmentValid s.heap (routeType s.heap heapType) (2 ^ k) size
      · refine aligned_effect (t := L.route heapType) ok (L.routed heapType typed)
          typed rfl ?_ noWrap ?_ fun _ => rfl
        · rw [alignedRequest, if_pos ⟨typed, valid⟩, routes heapType rfl typed]
          rfl
        · rw [exec, tegrablAllocAlign, if_neg (by omega)]
          rw [routes heapType rfl typed] at valid ⊢
          exact if_pos valid
      · refine nothing ?_ rfl
        rw [exec, tegrablAllocAlign, if_neg (by omega)]
        exact if_neg valid
    · exact nothing (if_pos (by omega)) rfl
  | free ptr =>
    obtain ⟨g, held, rfl, route⟩ := allowed
    have target : routeType s.heap heapDefault = L.route g.heapType :=
      (routeType_default s.heap).trans route.symm
    obtain ⟨h, bs, call, returned⟩ := dealloc_effect ok held (by decide) target
    refine ⟨_, ?_, Effect.release held returned⟩
    rw [step, exec, tegrablFree, call]
    rfl
  | dealloc heapType ptr =>
    obtain ⟨g, held, rfl, route⟩ := allowed
    by_cases typed : heapType < heapTypeMax
    · have target : routeType s.heap heapType = L.route g.heapType :=
        (routes heapType rfl typed).trans (route typed).symm
      obtain ⟨h, bs, call, returned⟩ := dealloc_effect ok held typed target
      refine ⟨_, ?_, Effect.release held returned⟩
      rw [step, exec, call]
      simp only [ok_bind, pure_eq_ok, record, typed, if_true]
    · refine nothing ?_ (if_neg typed)
      rw [exec, tegrablDealloc, if_pos (by omega)]
      rfl
  | store addr value =>
    obtain ⟨g, held, inside⟩ := allowed
    exact ⟨_, rfl, Effect.store held inside⟩

end

/-- One allowed call that meets `cond` and returns. -/
def Step (L : Layout) (cond : Session → Op → Prop) (s s' : Session) : Prop :=
  ∃ op, Allowed L s op ∧ cond s op ∧ step s op = .ok s'

def Reachable (L : Layout) (cond : Session → Op → Prop) (s₀ s : Session) : Prop :=
  Relation.ReflTransGen (Step L cond) s₀ s

def Unwrapping (s : Session) (op : Op) : Prop := NoWrap s.heap op

section
variable {L : Layout} {cond : Session → Op → Prop} {s₀ s : Session}

theorem run_induction {P : Session → Prop} (start : SessionOk L s₀) (base : P s₀)
    (safe : ∀ s op, SessionOk L s → cond s op → Routes L s.heap op ∧ NoWrap s.heap op)
    (keeps : ∀ s op s', SessionOk L s → P s → cond s op → Effect L s op s' → P s')
    (run : Reachable L cond s₀ s) : SessionOk L s ∧ P s := by
  induction run with
  | refl => exact ⟨start, base⟩
  | tail run last ih =>
    obtain ⟨ok, holds⟩ := ih
    obtain ⟨op, allowed, meets, call⟩ := last
    obtain ⟨routes, noWrap⟩ := safe _ op ok meets
    obtain ⟨s', returns, effect⟩ := step_effect ok routes allowed noWrap
    obtain rfl : s' = _ := Except.ok.inj (returns.symm.trans call)
    exact ⟨effect_ok ok effect, keeps _ op _ ok holds meets effect⟩

theorem run_ok (start : SessionOk L s₀)
    (safe : ∀ s op, SessionOk L s → cond s op → Routes L s.heap op ∧ NoWrap s.heap op)
    (run : Reachable L cond s₀ s) : SessionOk L s :=
  (run_induction (P := fun _ => True) start trivial safe (fun _ _ _ _ _ _ _ => trivial) run).1

theorem exists_step (s : Session) (op : Op) (p : Session → Bool)
    (check : (step s op).toOption.any p = true) : ∃ s', step s op = .ok s' ∧ p s' = true := by
  cases call : step s op with
  | error fault =>
    rw [call] at check
    cases check
  | ok s' =>
    rw [call] at check
    exact ⟨s', rfl, check⟩

end

theorem exists_run {L : Layout} {s : Session} (ops : List Op) {p : Session → Bool}
    (allowed : ∀ op ∈ ops, ∀ s, Allowed L s op) (check : (ops.foldlM step s).toOption.any p = true) :
    ∃ s', Reachable L (fun _ _ => True) s s' ∧ p s' = true := by
  induction ops generalizing s with
  | nil => exact ⟨s, Relation.ReflTransGen.refl, check⟩
  | cons op ops ih =>
    rw [List.foldlM_cons] at check
    cases call : step s op with
    | error fault =>
      rw [call] at check
      cases check
    | ok next =>
      rw [call] at check
      obtain ⟨s', run, holds⟩ := ih (fun o ho => allowed o (by simp [ho])) check
      exact ⟨s', Relation.ReflTransGen.head ⟨op, allowed op (by simp) s, trivial, call⟩ run, holds⟩

theorem routes_single {lo hi : Nat} {s : Session} {op : Op} (ok : SessionOk (single lo hi) s) :
    Routes (single lo hi) s.heap op := by
  intro ty _ _
  have other : heapDma ≠ heapDefault := by decide
  exact if_pos (ok.unused heapDma (by decide) other)

theorem heapInit_spec {s s' : HeapState} {t start size : Nat}
    (call : tegrablHeapInit s t start size = .ok (none, s')) (bound : start + size < 2 ^ 64) :
    FreeList s' t start (start + size) [⟨start, size⟩] ∧ Touched s s' t (Finset.Ico start (start + size)) := by
  unfold tegrablHeapInit at call
  split at call
  · cases call
  split at call
  · cases call
  split at call
  · cases call
  rename_i large _ _
  by_cases null : start = 0
  · simp [ensure, null] at call
    cases call
  rw [ensure_of _ null, ok_bind] at call
  obtain rfl := (Prod.mk.inj (Except.ok.inj call)).2
  simp only [minSize, Nat.not_lt] at large
  have stop : add64 start size = start + size := add64_eq bound
  constructor
  · exact {
      start := by simp
      endAddr := by simp [stop]
      maxSize := by simp
      freeSize := by simp
      head := by simp
      seg := by
        refine ⟨⟨?_, ?_, ?_, ?_⟩, trivial⟩
        · exact readLE_writeLE_same _ _ _ _
        · refine (readLE_writeLE_other _ (by simp only; omega)).trans ?_
          exact (readLE_writeLE_same _ _ _ _).trans (Nat.mod_eq_of_lt (by omega))
        · refine (readLE_writeLE_other _ (by simp only; omega)).trans ?_
          refine (readLE_writeLE_other _ (by simp only; omega)).trans ?_
          exact (readLE_writeLE_other _ (by simp only; omega)).trans (readLE_writeLE_same _ _ _ _)
        · refine (readLE_writeLE_other _ (by simp only; omega)).trans ?_
          exact (readLE_writeLE_other _ (by simp only; omega)).trans (readLE_writeLE_same _ _ _ _)
      laid := ⟨List.pairwise_singleton _ _, by
        simp only [List.mem_singleton, forall_eq, Span.stop_mk, minSize]
        omega⟩
      within := by simp
      region := by simp only [minSize]; omega }
  · have block : Finset.Ico start (start + size) = Span.bytes ⟨start, size⟩ := rfl
    rw [block]
    refine ⟨?_, fun u hu => HeapState.setInfo_other _ _ hu⟩
    refine (((changedIn_span _ _ ?_ ?_).trans (changedIn_span _ _ ?_ ?_)).trans
      (changedIn_span _ _ ?_ ?_)).trans (changedIn_span _ _ ?_ ?_) <;> simp only <;> omega

theorem heapInit_ok {s : HeapState} {t lo hi size : Nat} (fl : FreeList s t lo hi [⟨lo, size⟩]) :
    HeapOk s t lo hi [] := by
  have blocks := freeBlocks_eq fl
  refine ⟨blocks ▸ fl, ?_, by simp, List.Pairwise.nil⟩
  rw [blocks]
  exact List.pairwise_singleton _ _

def zeroed : HeapState := { mem := fun _ => 0 }

theorem zeroed_noDma : (zeroed.heapInfo heapDma).freeList = 0 := rfl

def boot (start size : Nat) : Session :=
  match tegrablHeapInit zeroed heapDefault start size with
  | .ok (_, h) => ⟨h, []⟩
  | .error _ => ⟨zeroed, []⟩

theorem single_start {s₀ h : HeapState} {start size : Nat}
    (noDma : (s₀.heapInfo heapDma).freeList = 0) (bound : start + size < 2 ^ 64)
    (init : tegrablHeapInit s₀ heapDefault start size = .ok (none, h)) :
    SessionOk (single start (start + size)) ⟨h, []⟩ := by
  obtain ⟨fl, touched⟩ := heapInit_spec init bound
  refine ⟨fun t used => ?_, by simp, fun t typed unused => ?_⟩
  · obtain rfl : t = heapDefault := used
    exact heapInit_ok fl
  · have different : t ≠ heapDefault := unused
    obtain rfl : t = heapDma := by
      simp only [heapTypeMax, heapDefault, heapDma] at *
      omega
    rw [touched.others heapDma different]
    exact noDma

end Cboot.Heap
