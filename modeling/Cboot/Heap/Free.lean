import Cboot.Heap.Alloc

/-!
`tegrabl_generic_free` links the block in by address, merges it with the neighbours it touches and walks back to the
head of the list.
-/

namespace Cboot.Heap
open Lib

def joined (b c : Span) : Span := ⟨b.addr, b.size + c.size⟩

def merged (b c : Span) : List Span := if b.stop = c.addr then [joined b c] else [b, c]

section
variable {m : Mem} {xs ys : List Span} {b c : Span}

theorem laid_joined (laid : Laid (xs ++ b :: c :: ys)) (touch : b.stop = c.addr) : Laid (xs ++ joined b c :: ys) := by
  obtain ⟨around, pos, room, bound⟩ := laid_around.mp laid
  obtain ⟨⟨posC, roomC, boundC⟩, afterC, right⟩ := laid_cons.mp around.right
  have stop : (joined b c).stop = c.stop := by
    simp only [joined, Span.stop] at *
    omega
  have outer : Around xs (joined b c) ys :=
    ⟨around.left, right, around.before, fun d hd => stop ▸ afterC d hd⟩
  exact laid_around.mpr ⟨outer, pos, by simp only [joined]; omega, by omega⟩

theorem covered_joined (touch : b.stop = c.addr) : covered (xs ++ joined b c :: ys) = covered (xs ++ b :: c :: ys) := by
  have both : (joined b c).bytes = b.bytes ∪ c.bytes := by
    ext x
    simp only [joined, Span.mem_bytes, Finset.mem_union, Span.stop] at *
    omega
  rw [covered_append, covered_append, covered, covered, covered, both, Finset.union_assoc]

theorem seg_joined {m' : Mem} (seg : Seg m 0 (xs ++ b :: c :: ys) 0)
    (laid : Laid (xs ++ b :: c :: ys)) (touch : b.stop = c.addr)
    (hm' : m' = stNext (stSize m b.addr (b.size + c.size)) b.addr (headAddr ys 0)) : ldNext m' c.addr = headAddr ys 0 ∧
      Seg (setPrevOf m' (headAddr ys 0) b.addr) 0 (xs ++ joined b c :: ys) 0 ∧
      ChangedIn (covered (xs ++ b :: c :: ys)) m (setPrevOf m' (headAddr ys 0) b.addr) := by
  obtain ⟨outer, pos, room, bound⟩ := laid_around.mp (laid_joined laid touch)
  obtain ⟨-, -, roomB, -⟩ := laid_around.mp laid
  obtain ⟨left, ⟨magic, size, prevLink, nextLink⟩, nodeC, right⟩ := seg_append.mp seg
  simp only [joined, Span.stop, minSize] at *
  have changed : ChangedIn (joined b c).bytes m m' := by
    rw [hm']
    refine (changedIn_span _ _ ?_ ?_).trans (changedIn_span _ _ ?_ ?_) <;> simp only [joined] <;> omega
  have hole : Hole m' xs ys b.addr c.addr := outer.inside ⟨left, right⟩ changed
  have hole' := outer.setPrev hole (v := b.addr) (by omega)
  have next : ldNext m' c.addr = headAddr ys 0 := by
    rw [hm']
    refine (readLE_writeLE_other _ (by omega)).trans ?_
    exact (readLE_writeLE_other _ (by omega)).trans nodeC.2.2.2
  have node : NodeAt m' (joined b c) (lastAddr 0 xs) (headAddr ys 0) := by
    rw [hm']
    refine ⟨?_, ?_, ?_, ?_⟩
    · refine (readLE_writeLE_other _ (by simp only [joined]; omega)).trans ?_
      exact (readLE_writeLE_other _ (by simp only [joined]; omega)).trans magic
    · refine (readLE_writeLE_other _ (by simp only [joined]; omega)).trans ?_
      exact (readLE_writeLE_same _ _ _ _).trans (Nat.mod_eq_of_lt (by omega))
    · refine (readLE_writeLE_other _ (by simp only [joined]; omega)).trans ?_
      exact (readLE_writeLE_other _ (by simp only [joined]; omega)).trans prevLink
    · exact (readLE_writeLE_same _ _ _ _).trans (Nat.mod_eq_of_lt outer.right.headAddr_lt)
  refine ⟨next, seg_hole.mpr ⟨hole', node.congr ?_⟩, ?_⟩
  · exact (outer.setPrev_agree b.addr).mono (Nat.le_refl _)
      (by simp only [joined, Span.stop, minSize]; omega)
  · have touching : b.stop = c.addr := by simp only [Span.stop]; omega
    rw [← covered_joined touching]
    exact (changedIn_member changed).trans ((changedIn_setPrevOf outer.right).mono covered_right)

theorem mergeWithNext_spec (seg : Seg m 0 (xs ++ b :: c :: ys) 0) (laid : Laid (xs ++ b :: c :: ys)) :
    ∃ m', tegrablHeapMergeWithNext m b.addr c.addr = .ok m' ∧
      Seg m' 0 (xs ++ merged b c ++ ys) 0 ∧ Laid (xs ++ merged b c ++ ys) ∧
      covered (xs ++ merged b c ++ ys) = covered (xs ++ b :: c :: ys) ∧
      ChangedIn (covered (xs ++ b :: c :: ys)) m m' ∧ (b.stop ≠ c.addr → m' = m) := by
  obtain ⟨around, pos, room, bound⟩ := laid_around.mp laid
  obtain ⟨magic, size, prevLink, nextLink⟩ := seg.node
  have after := around.after c (by simp)
  have memEnd : add64 b.addr (ldSize m b.addr) = b.stop := by
    rw [size]
    exact add64_eq bound
  have guard : ¬ (b.stop < b.addr ∨ c.addr < b.stop) := by
    simp only [Span.stop] at *
    omega
  by_cases touch : b.stop = c.addr
  · obtain ⟨m₁, hm₁⟩ : ∃ m₁, m₁ = stNext (stSize m b.addr (b.size + c.size)) b.addr
      (headAddr ys 0) := ⟨_, rfl⟩
    obtain ⟨next, seg', changed⟩ := seg_joined seg laid touch hm₁
    obtain ⟨-, -, nodeC, -⟩ := seg_append.mp seg
    have bound' : c.stop < 2 ^ 64 := (laid.room c (by simp)).2.2
    have sum : add64 (ldSize m b.addr) (ldSize m c.addr) = b.size + c.size := by
      rw [size, nodeC.2.1]
      exact add64_eq (by simp only [Span.stop] at *; omega)
    have nextC : ldNext (stSize m b.addr (b.size + c.size)) c.addr = headAddr ys 0 := by
      refine (readLE_writeLE_other _ ?_).trans nodeC.2.2.2
      simp only [Span.stop, minSize] at *
      omega
    have pieces : xs ++ merged b c ++ ys = xs ++ joined b c :: ys := by simp [merged, touch]
    refine ⟨_, ?_, by rw [pieces]; exact seg', by rw [pieces]; exact laid_joined laid touch,
      by rw [pieces]; exact covered_joined touch, changed, fun h => absurd touch h⟩
    simp only [tegrablHeapMergeWithNext, memEnd]
    rw [ensure_of _ guard, ok_bind, if_pos touch, sum, nextC, ← hm₁, next]
    rfl
  · have pieces : xs ++ merged b c ++ ys = xs ++ b :: c :: ys := by simp [merged, touch]
    refine ⟨m, ?_, by rw [pieces]; exact seg, by rw [pieces]; exact laid, by rw [pieces],
      changedIn_refl _ _, fun _ => rfl⟩
    simp only [tegrablHeapMergeWithNext, memEnd]
    rw [ensure_of _ guard, ok_bind, if_neg touch]
    rfl

theorem mergeNext_spec {u : Span} (seg : Seg m 0 (xs ++ u :: ys) 0) (laid : Laid (xs ++ u :: ys)) (spaced : Spaced ys) :
    ∃ m' u' ys', u'.addr = u.addr ∧ ys' <:+ ys ∧
      (if ldNext m u.addr ≠ 0 then tegrablHeapMergeWithNext m u.addr (ldNext m u.addr) else pure m) = .ok m' ∧
      Seg m' 0 (xs ++ u' :: ys') 0 ∧ Laid (xs ++ u' :: ys') ∧ Spaced (u' :: ys') ∧
      covered (xs ++ u' :: ys') = covered (xs ++ u :: ys) ∧ ChangedIn (covered (xs ++ u :: ys)) m m' := by
  obtain ⟨-, -, -, next⟩ := seg.node
  rw [next]
  cases ys with
  | nil =>
    refine ⟨m, u, [], rfl, List.suffix_refl _, ?_, seg, laid, ?_, rfl, changedIn_refl _ _⟩
    · simp [headAddr]
    · simp [Spaced]
  | cons y ys =>
    obtain ⟨around, -⟩ := laid_around.mp laid
    have after := around.after y (by simp)
    have roomY := laid.room y (by simp)
    have nonzero : y.addr ≠ 0 := by omega
    obtain ⟨first, rest⟩ := spaced_cons.mp spaced
    obtain ⟨m', call, seg', laid', same, changed, -⟩ := mergeWithNext_spec seg laid
    simp only [headAddr_cons, ne_eq, nonzero, not_false_eq_true, if_true]
    by_cases touch : u.stop = y.addr
    · have pieces : xs ++ merged u y ++ ys = xs ++ joined u y :: ys := by simp [merged, touch]
      rw [pieces] at seg' laid' same
      refine ⟨m', joined u y, ys, rfl, List.suffix_cons _ _, call, seg', laid', ?_, same, changed⟩
      refine spaced_cons.mpr ⟨fun c hc => ?_, rest⟩
      have := first c hc
      simp only [joined, Span.stop] at *
      omega
    · have pieces : xs ++ merged u y ++ ys = xs ++ u :: y :: ys := by simp [merged, touch]
      rw [pieces] at seg' laid' same
      refine ⟨m', u, y :: ys, rfl, List.suffix_refl _, call, seg', laid', ?_, same, changed⟩
      refine spaced_cons.mpr ⟨fun c hc => ?_, spaced⟩
      rcases List.mem_cons.mp hc with rfl | hc
      · omega
      · have := first c hc
        simp only [Span.stop] at *
        omega

theorem mergePrev_spec {x u : Span} (seg : Seg m 0 (xs ++ x :: u :: ys) 0)
    (laid : Laid (xs ++ x :: u :: ys)) (spaced : Spaced (xs ++ [x])) (right : Spaced (u :: ys)) :
    ∃ m' b zs, b.addr = x.addr ∧ tegrablHeapMergeWithNext m x.addr u.addr = .ok m' ∧
      Seg m' 0 (xs ++ b :: zs) 0 ∧ Laid (xs ++ b :: zs) ∧ Spaced (xs ++ b :: zs) ∧
      covered (xs ++ b :: zs) = covered (xs ++ x :: u :: ys) ∧ ChangedIn (covered (xs ++ x :: u :: ys)) m m' := by
  obtain ⟨m', call, seg', laid', same, changed, -⟩ := mergeWithNext_spec seg laid
  obtain ⟨left, -, between⟩ := spaced_append.mp spaced
  obtain ⟨first, rest⟩ := spaced_cons.mp right
  obtain ⟨around, -, roomX, -⟩ := laid_around.mp laid
  have order := around.after u (by simp)
  have wide := (laid.room u (by simp)).2.1
  have start : ∀ a ∈ xs, a.stop < x.addr := fun a ha => between a ha x (by simp)
  by_cases touch : x.stop = u.addr
  · have pieces : xs ++ merged x u ++ ys = xs ++ joined x u :: ys := by simp [merged, touch]
    rw [pieces] at seg' laid' same
    have after : ∀ c ∈ ys, (joined x u).stop < c.addr := by
      intro c hc
      have := first c hc
      simp only [joined, Span.stop] at *
      omega
    refine ⟨m', joined x u, ys, rfl, call, seg', laid', spaced_append.mpr
      ⟨left, spaced_cons.mpr ⟨after, rest⟩, fun a ha c hc => ?_⟩, same, changed⟩
    have before := start a ha
    rcases List.mem_cons.mp hc with rfl | hc
    · exact before
    · have := after c hc
      simp only [joined, Span.stop] at *
      omega
  · have pieces : xs ++ merged x u ++ ys = xs ++ x :: u :: ys := by simp [merged, touch]
    rw [pieces] at seg' laid' same
    have after : ∀ c ∈ u :: ys, x.stop < c.addr := by
      intro c hc
      rcases List.mem_cons.mp hc with rfl | hc
      · omega
      · have := first c hc
        simp only [Span.stop] at *
        omega
    refine ⟨m', x, u :: ys, rfl, call, seg', laid', spaced_append.mpr
      ⟨left, spaced_cons.mpr ⟨after, right⟩, fun a ha c hc => ?_⟩, same, changed⟩
    have before := start a ha
    rcases List.mem_cons.mp hc with rfl | hc
    · exact before
    · have := after c hc
      simp only [Span.stop] at *
      omega

end

theorem mergeBlocks_eq (m : Mem) (b : Nat) : tegrablHeapMergeBlocks m b =
      (if ldNext m b ≠ 0 then tegrablHeapMergeWithNext m b (ldNext m b) else pure m) >>= fun m' =>
        if ldPrev m b ≠ 0 then tegrablHeapMergeWithNext m' (ldPrev m b) b >>= fun m'' => pure (m'', ldPrev m b)
        else pure (m', b) := by
  unfold tegrablHeapMergeBlocks
  by_cases last : ldNext m b = 0
  · simp only [last, ne_eq, not_true_eq_false, if_false]
  · simp only [last, ne_eq, not_false_eq_true, if_true]

variable {xs ys : List Span} {m : Mem}

theorem mergeBlocks_spaced {b : Span}
    (seg : Seg m 0 (xs ++ b :: ys) 0) (laid : Laid (xs ++ b :: ys)) (spaced : Spaced (xs ++ b :: ys)) :
    tegrablHeapMergeBlocks m b.addr = .ok (m, if xs = [] then b.addr else lastAddr 0 xs) := by
  obtain ⟨-, -, prevLink, nextLink⟩ := seg.node
  obtain ⟨around, -⟩ := laid_around.mp laid
  obtain ⟨-, right, between⟩ := spaced_append.mp spaced
  have forward : (if headAddr ys 0 ≠ 0 then tegrablHeapMergeWithNext m b.addr (headAddr ys 0)
      else pure m) = .ok m := by
    cases ys with
    | nil => simp [headAddr]
    | cons y ys =>
      have nonzero : y.addr ≠ 0 := by have := laid.room y (by simp); omega
      have gap := (spaced_cons.mp right).1 y (by simp)
      obtain ⟨m', call, -, -, -, -, same⟩ := mergeWithNext_spec seg laid
      rw [headAddr_cons, if_pos nonzero, call, same (by omega)]
  rw [mergeBlocks_eq, prevLink, nextLink, forward, ok_bind]
  by_cases empty : xs = []
  · simp [empty, lastAddr]
  · have nonzero : lastAddr 0 xs ≠ 0 := fun zero => empty (around.left.lastAddr_eq_zero.mp zero)
    obtain ⟨zs, x, rfl⟩ := (List.eq_nil_or_concat' xs).resolve_left empty
    have gap := between x (by simp) b (by simp)
    have split : zs ++ [x] ++ b :: ys = zs ++ x :: b :: ys := by simp
    rw [split] at seg laid
    obtain ⟨m', call, -, -, -, -, same⟩ := mergeWithNext_spec seg laid
    have last : lastAddr 0 (zs ++ [x]) = x.addr := by rw [lastAddr_append]; rfl
    rw [last] at nonzero ⊢
    rw [if_pos nonzero, call, same (by omega)]
    simp

theorem mergeLoop_spaced (fuel : Nat) {b : Span}
    (seg : Seg m 0 (xs ++ b :: ys) 0) (laid : Laid (xs ++ b :: ys))
    (spaced : Spaced (xs ++ b :: ys)) (enough : xs.length < fuel) :
    mergeLoop fuel m b.addr = .ok (m, headAddr (xs ++ b :: ys) 0) := by
  induction fuel generalizing xs b ys with
  | zero => omega
  | succ fuel ih =>
    rw [mergeLoop, mergeBlocks_spaced seg laid spaced]
    simp only [ok_bind]
    by_cases empty : xs = []
    · simp [empty]
    · obtain ⟨zs, x, rfl⟩ := (List.eq_nil_or_concat' xs).resolve_left empty
      obtain ⟨around, -⟩ := laid_around.mp laid
      have order := around.before x (by simp)
      have wide := (laid.room x (by simp)).2.1
      have last : lastAddr 0 (zs ++ [x]) = x.addr := by rw [lastAddr_append]; rfl
      have split : zs ++ [x] ++ b :: ys = zs ++ x :: b :: ys := by simp
      have back : x.addr ≠ b.addr := by
        simp only [Span.stop, minSize] at *
        omega
      rw [if_neg empty, last, if_neg back, split]
      rw [split] at seg laid spaced
      exact ih seg laid spaced (by simp at enough; omega)

variable {u : Span}

theorem mergeLoop_spec {fuel : Nat}
    (seg : Seg m 0 (xs ++ u :: ys) 0) (laid : Laid (xs ++ u :: ys)) (spaced : Spaced (xs ++ ys))
    (enough : xs.length < fuel) : ∃ m' bs', mergeLoop fuel m u.addr = .ok (m', headAddr bs' 0) ∧
      headAddr bs' 0 = headAddr (xs ++ u :: ys) 0 ∧ Seg m' 0 bs' 0 ∧ Laid bs' ∧ Spaced bs' ∧
      covered bs' = covered (xs ++ u :: ys) ∧ ChangedIn (covered (xs ++ u :: ys)) m m' := by
  obtain ⟨fuel, rfl⟩ : ∃ k, fuel = k + 1 := ⟨fuel - 1, by omega⟩
  obtain ⟨left, right, between⟩ := spaced_append.mp spaced
  obtain ⟨-, -, prevLink, nextLink⟩ := seg.node
  obtain ⟨around, -⟩ := laid_around.mp laid
  obtain ⟨m₁, u', ys', addr, suffix, forward, seg₁, laid₁, spaced₁, same₁, changed₁⟩ :=
    mergeNext_spec seg laid right
  rw [mergeLoop, mergeBlocks_eq, prevLink, forward, ok_bind]
  by_cases empty : xs = []
  · subst empty
    refine ⟨m₁, u' :: ys', ?_, ?_, seg₁, laid₁, spaced₁, same₁, changed₁⟩
    · simp [lastAddr, addr]
    · exact addr
  · obtain ⟨zs, x, rfl⟩ := (List.eq_nil_or_concat' xs).resolve_left empty
    have last : lastAddr 0 (zs ++ [x]) = x.addr := by rw [lastAddr_append]; rfl
    have order := around.before x (by simp)
    have roomX := around.left.room x (by simp)
    have nonzero : x.addr ≠ 0 := by omega
    have back : x.addr ≠ u.addr := by
      simp only [Span.stop, minSize] at *
      omega
    have split₁ : zs ++ [x] ++ u' :: ys' = zs ++ x :: u' :: ys' := by simp
    rw [split₁] at seg₁ laid₁ same₁
    obtain ⟨m₂, b, rest, addrB, backward, seg₂, laid₂, spaced₂, same₂, changed₂⟩ :=
      mergePrev_spec seg₁ laid₁ left spaced₁
    refine ⟨m₂, zs ++ b :: rest, ?_, ?_, seg₂, laid₂, spaced₂, same₂.trans same₁, changed₁.trans (same₁ ▸ changed₂)⟩
    · rw [last, if_pos nonzero, ← addr, backward, ok_bind]
      rw [addr, pure_eq_ok, ok_bind]
      simp only [back, if_false]
      rw [← addrB]
      exact mergeLoop_spaced fuel seg₂ laid₂ spaced₂ (by simp at enough; omega)
    · simp only [headAddr_append, headAddr_cons, addrB]

theorem findNeighbours_eq {ptr fuel p : Nat}
    (seg : Seg m p (xs ++ ys) 0) (laid : Laid (xs ++ ys)) (before : ∀ b ∈ xs, b.addr < ptr)
    (after : ∀ b ∈ ys, ptr ≤ b.addr) (enough : xs.length < fuel) : findNeighbours m ptr fuel p (headAddr (xs ++ ys) 0) =
      .ok (lastAddr p xs, headAddr ys 0) := by
  induction xs generalizing p fuel with
  | nil =>
    obtain ⟨fuel, rfl⟩ : ∃ k, fuel = k + 1 := ⟨fuel - 1, by omega⟩
    have stop : ¬ (headAddr ys 0 ≠ 0 ∧ headAddr ys 0 < ptr) := by
      rintro ⟨nonzero, lt⟩
      have nonempty : ys ≠ [] := fun empty => nonzero (by rw [empty]; rfl)
      obtain ⟨b, hb, same⟩ := headAddr_mem nonempty
      have := after b hb
      omega
    rw [List.nil_append, findNeighbours, if_neg stop]
    rfl
  | cons b xs ih =>
    obtain ⟨fuel, rfl⟩ : ∃ k, fuel = k + 1 := ⟨fuel - 1, by omega⟩
    obtain ⟨⟨-, -, -, next⟩, rest⟩ := seg
    obtain ⟨⟨pos, -⟩, -, laidRest⟩ := laid_cons.mp laid
    have go : b.addr ≠ 0 ∧ b.addr < ptr := ⟨by omega, before b (by simp)⟩
    rw [List.cons_append, headAddr_cons, findNeighbours, if_pos go, next]
    exact ih rest laidRest (fun c hc => before c (by simp [hc])) (by simpa using enough)

theorem exists_around {bs : List Span} (laid : Laid bs)
    (clear : ∀ b ∈ bs, u.Clear b) : ∃ xs ys, bs = xs ++ ys ∧ Around xs u ys := by
  induction bs with
  | nil => exact ⟨[], [], rfl, Laid.nil, Laid.nil, by simp, by simp⟩
  | cons b bs ih =>
    obtain ⟨room, first, rest⟩ := laid_cons.mp laid
    rcases clear b (by simp) with below | above
    · refine ⟨[], b :: bs, rfl, Laid.nil, laid, by simp, fun c hc => ?_⟩
      rcases List.mem_cons.mp hc with rfl | hc
      · exact below
      · have := first c hc
        simp only [Span.stop] at *
        omega
    · obtain ⟨xs, ys, rfl, around⟩ := ih rest fun c hc => clear c (by simp [hc])
      refine ⟨b :: xs, ys, rfl, (laid_append.mp laid).1, around.right, fun c hc => ?_, around.after⟩
      rcases List.mem_cons.mp hc with rfl | hc
      · exact above
      · exact around.before c hc

def linked (m : Mem) (u prev next : Nat) : Mem :=
  setPrevOf (stMagic (stNext (stPrev (setNextOf m prev u) u prev) u next) u freeMagic) next u

theorem linked_spec (around : Around xs u ys)
    (room : minSize ≤ u.size) (bound : u.stop < 2 ^ 64) (size : ldSize m u.addr = u.size) (seg : Seg m 0 (xs ++ ys) 0) :
    Seg (linked m u.addr (lastAddr 0 xs) (headAddr ys 0)) 0 (xs ++ u :: ys) 0 ∧ ChangedIn (covered (xs ++ u :: ys)) m
        (linked m u.addr (lastAddr 0 xs) (headAddr ys 0)) := by
  simp only [Span.stop, minSize] at bound room
  obtain ⟨m₁, hm₁⟩ : ∃ m₁, m₁ = setNextOf m (lastAddr 0 xs) u.addr := ⟨_, rfl⟩
  obtain ⟨m₂, hm₂⟩ : ∃ m₂, m₂ = stMagic (stNext (stPrev m₁ u.addr (lastAddr 0 xs)) u.addr
    (headAddr ys 0)) u.addr freeMagic := ⟨_, rfl⟩
  have final : linked m u.addr (lastAddr 0 xs) (headAddr ys 0) = setPrevOf m₂ (headAddr ys 0) u.addr := by
    rw [hm₂, hm₁]
    rfl
  have agree₁ : AgreeOn m m₁ u.addr u.stop := by
    rw [hm₁]
    exact around.setNext_agree u.addr
  have hole₁ : Hole m₁ xs ys u.addr (lastAddr 0 xs) := by
    rw [hm₁]
    exact around.setNext (seg_closed.mp seg) (by omega)
  have changed₂ : ChangedIn u.bytes m₁ m₂ := by
    rw [hm₂]
    refine ((changedIn_span _ _ ?_ ?_).trans (changedIn_span _ _ ?_ ?_)).trans
      (changedIn_span _ _ ?_ ?_) <;> omega
  have node : NodeAt m₂ u (lastAddr 0 xs) (headAddr ys 0) := by
    rw [hm₂]
    refine ⟨readLE_writeLE_same _ _ _ _, ?_, ?_, ?_⟩
    · refine (readLE_writeLE_other _ (by omega)).trans ((readLE_writeLE_other _ (by omega)).trans ?_)
      refine (readLE_writeLE_other _ (by omega)).trans ((readLE_congr ?_).trans size)
      exact agree₁.mono (by omega) (by simp only [Span.stop]; omega)
    · refine (readLE_writeLE_other _ (by omega)).trans ((readLE_writeLE_other _ (by omega)).trans ?_)
      exact (readLE_writeLE_same _ _ _ _).trans (Nat.mod_eq_of_lt around.left.lastAddr_lt)
    · refine (readLE_writeLE_other _ (by omega)).trans ((readLE_writeLE_same _ _ _ _).trans ?_)
      exact Nat.mod_eq_of_lt around.right.headAddr_lt
  have hole₂ := around.inside hole₁ changed₂
  rw [final]
  refine ⟨seg_hole.mpr ⟨around.setPrev hole₂ (by omega), node.congr ?_⟩, ?_⟩
  · exact (around.setPrev_agree u.addr).mono (Nat.le_refl _)
      (by simp only [Span.stop, minSize]; omega)
  · refine ChangedIn.trans ?_ ((changedIn_member changed₂).trans
      ((changedIn_setPrevOf around.right).mono covered_right))
    rw [hm₁]
    exact (changedIn_setNextOf around.left).mono covered_left

theorem head_after_free (around : Around xs u ys) (pos : 0 < u.size) :
    (if headAddr (xs ++ ys) 0 = 0 ∨ headAddr (xs ++ u :: ys) 0 < headAddr (xs ++ ys) 0 then headAddr (xs ++ u :: ys) 0
      else headAddr (xs ++ ys) 0) = headAddr (xs ++ u :: ys) 0 := by
  cases xs with
  | nil => exact head_after_insert around pos
  | cons x xs => exact ite_self _

/-- A block that is allocated from the region `[lo, hi)`: its header is in place and its span is
clear of the free blocks. -/
structure Live (s : HeapState) (lo hi : Nat) (bs : List Span) (ptr : Nat) (u : Span) : Prop where
  header : HeaderAt s.mem ptr u
  front : u.addr + allocHeader ≤ ptr
  back : ptr ≤ u.stop
  room : minSize ≤ u.size
  within : lo ≤ u.addr ∧ u.stop ≤ hi
  clear : ∀ b ∈ bs, u.Clear b

/-- What freeing the span `u` does to the free list. -/
structure Returned (s s' : HeapState) (t lo hi : Nat) (bs bs' : List Span) (u : Span) : Prop where
  free : FreeList s' t lo hi bs'
  spaced : Spaced bs'
  covers : covered bs' = covered bs ∪ u.bytes
  sum : total bs' = total bs + u.size
  touched : Touched s s' t (covered bs ∪ u.bytes)

theorem within_of_covered {bs bs' : List Span} {lo hi : Nat} (pos : ∀ b ∈ bs', 0 < b.size)
    (within : ∀ b ∈ bs, lo ≤ b.addr ∧ b.stop ≤ hi) (same : covered bs' = covered bs) :
    ∀ b ∈ bs', lo ≤ b.addr ∧ b.stop ≤ hi := by
  intro b hb
  have wide := pos b hb
  have sub : b.bytes ⊆ Finset.Ico lo hi :=
    (mem_covered_of_mem hb).trans (same ▸ covered_subset within)
  have first := sub (Span.mem_bytes.mpr ⟨Nat.le_refl b.addr, by simp only [Span.stop]; omega⟩)
  have last := sub (Span.mem_bytes (x := b.stop - 1).mpr (by simp only [Span.stop]; omega))
  rw [Finset.mem_Ico] at first last
  omega

section
variable {s : HeapState} {t lo hi ptr : Nat} {bs : List Span}

theorem total_with_live (fl : FreeList s t lo hi bs) (live : Live s lo hi bs ptr u) : u.size + total bs ≤ hi - lo := by
  rw [← total_cons]
  refine total_le_region (List.pairwise_cons.mpr ⟨live.clear, fl.laid.clear⟩) fun b hb => ?_
  rcases List.mem_cons.mp hb with rfl | hb
  · exact live.within
  · exact fl.within b hb

theorem validateAllocatedBlock_ok (fl : FreeList s t lo hi bs) (live : Live s lo hi bs ptr u) :
    validateAllocatedBlock s t (ptr - allocHeader) = .ok () := by
  obtain ⟨magic, size, start⟩ := live.header
  have front := live.front
  have back := live.back
  have within := live.within
  have region := fl.region
  have sum := total_with_live fl live
  have stop : add64 u.addr u.size = u.stop := add64_eq (by simp only [Span.stop] at *; omega)
  have free : add64 u.size (total bs) = u.size + total bs := add64_eq (by omega)
  have order : ¬ (u.stop < u.addr ∨ ptr - allocHeader < u.addr ∨ u.stop < ptr - allocHeader) := by
    simp only [Span.stop] at *
    omega
  have inside : ¬ (u.addr < lo ∨ hi < u.stop) := by omega
  have amount : ¬ (u.size + total bs < total bs ∨ hi - lo < u.size + total bs) := by omega
  simp only [validateAllocatedBlock, size, start, stop, fl.start, fl.endAddr, fl.freeSize, fl.maxSize, free]
  rw [ensure_of _ order, ensure_of _ magic, ensure_of _ inside, ensure_of _ amount]
  rfl

theorem genericFree_spec (fl : FreeList s t lo hi bs) (spaced : Spaced bs) (live : Live s lo hi bs ptr u) :
    ∃ p s₁ bs', tegrablGenericFree s t ptr = .ok (p, s₁) ∧ p ≠ 0 ∧
      Returned s (updateFreeListHead s₁ t p) t lo hi bs bs' u := by
  obtain ⟨-, size, start⟩ := live.header
  have front := live.front
  have back := live.back
  have room := live.room
  have region := fl.region
  have inside := live.within
  have bound : u.stop < 2 ^ 64 := by omega
  have nonzero : ptr ≠ 0 := by simp only [allocHeader] at front; omega
  have block : sub64 ptr allocHeader = ptr - allocHeader := sub64_eq (by omega) (by omega)
  have sum := total_with_live fl live
  obtain ⟨xs, ys, rfl, around⟩ := exists_around fl.laid live.clear
  simp only [Span.stop, minSize] at room bound back
  have laid : Laid (xs ++ u :: ys) :=
    laid_around.mpr ⟨around, by omega, room, by simp only [Span.stop]; omega⟩
  have changed₁ : ChangedIn u.bytes s.mem (stSize s.mem u.addr u.size) :=
    changedIn_span _ _ (by omega) (by omega)
  have seg₁ : Seg (stSize s.mem u.addr u.size) 0 (xs ++ ys) 0 :=
    seg_closed.mpr (around.inside (seg_closed.mp fl.seg) changed₁)
  have size₁ : ldSize (stSize s.mem u.addr u.size) u.addr = u.size :=
    (readLE_writeLE_same _ _ _ _).trans (Nat.mod_eq_of_lt (by omega))
  have length := fl.length_lt_fuel
  have count : xs.length < s.fuel t := by
    rw [List.length_append] at length
    omega
  have below : ∀ b ∈ xs, b.addr < ptr := by
    intro b hb
    have h₁ := around.before b hb
    have h₂ := around.left.room b hb
    simp only [Span.stop, minSize] at *
    omega
  have above : ∀ b ∈ ys, ptr ≤ b.addr := by
    intro b hb
    have := around.after b hb
    simp only [Span.stop] at *
    omega
  have search := findNeighbours_eq seg₁ fl.laid below above count
  obtain ⟨seg₂, changed₂⟩ := linked_spec around room (by simp only [Span.stop]; omega) size₁ seg₁
  obtain ⟨m₃, bs', loop, head, seg₃, laid₃, spaced₃, same₃, changed₃⟩ :=
    mergeLoop_spec seg₂ laid spaced count
  have within : ∀ b ∈ bs', lo ≤ b.addr ∧ b.stop ≤ hi := by
    refine within_of_covered (fun b hb => ?_) (fun b hb => ?_) same₃
    · have := laid₃.room b hb
      simp only [minSize] at this
      omega
    · rcases List.mem_append.mp hb with hb | hb
      · exact fl.within b (by simp [hb])
      · rcases List.mem_cons.mp hb with rfl | hb
        · exact inside
        · exact fl.within b (by simp [hb])
  have covers : covered (xs ++ u :: ys) = covered (xs ++ ys) ∪ u.bytes := by
    rw [covered_append, covered_append, covered, Finset.union_comm u.bytes, Finset.union_assoc]
  have totals : total bs' = total (xs ++ ys) + u.size := by
    rw [← card_covered laid₃.clear, same₃, card_covered laid.clear]
    simp only [total_append, total_cons]
    omega
  have newFree : add64 (s.heapInfo t).freeSize u.size = total bs' := by
    rw [fl.freeSize, totals]
    exact add64_eq (by omega)
  have notNull : headAddr bs' 0 ≠ 0 := by
    rw [head]
    intro zero
    have := laid.headAddr_eq_zero.mp zero
    simp at this
  refine ⟨headAddr bs' 0, { s with mem := m₃ }.setFreeSize t (total bs'), bs', ?_, notNull, ?_⟩
  · simp only [tegrablGenericFree, nonzero, if_false, block, validateAllocatedBlock_ok fl live,
      ok_bind, start, size, fl.head, search]
    have link : setPrevOf (stMagic (stNext (stPrev (setNextOf (stSize s.mem u.addr u.size)
        (lastAddr 0 xs) u.addr) u.addr (lastAddr 0 xs)) u.addr (headAddr ys 0)) u.addr freeMagic)
        (headAddr ys 0) u.addr = linked (stSize s.mem u.addr u.size) u.addr (lastAddr 0 xs) (headAddr ys 0) := rfl
    rw [link, loop, ok_bind, newFree]
    rfl
  · have newHead : updateFreeListHead ({ s with mem := m₃ }.setFreeSize t (total bs')) t
        (headAddr bs' 0) = s.relist t m₃ (headAddr bs' 0) (total bs') := by
      have := head_after_free around (by omega)
      rw [← head, ← fl.head] at this
      exact (updateFreeListHead_relist s t m₃ (headAddr bs' 0) (total bs')).trans (by rw [this])
    rw [newHead]
    refine ⟨fl.relist seg₃ laid₃ within, spaced₃, same₃.trans covers, totals, ?_⟩
    refine HeapState.relist_touched ?_
    rw [← covers]
    exact (((changed₁.mono (mem_covered_of_mem (by simp))).trans changed₂).trans changed₃)

end

end Cboot.Heap
