import Cboot.Cbo.Order
import Cboot.Lib.Ledger
import Cboot.Lib.Runs

/-!
The same calls with the memory that they allocate and free, any of which may fail.
-/

namespace Cboot.Cbo.Storage
open Linuxboot Lib

structure Array where
  block : Nat
  entries : List (Option Nat)
  deriving DecidableEq, Repr

def Array.strings (a : Array) : List Nat := (a.entries.takeWhile (·.isSome)).filterMap id

/-- How many blocks there have been, what was freed, `p_boot_dev_order` and `g_cbo_info.boot_priority`. -/
structure State where
  size : Nat
  freed : List Nat
  bootDevOrder : Option Array
  bootPriority : Option Nat
  deriving DecidableEq, Repr

def tegrablClearBootOrder (s : State) : Option State :=
  let order := match s.bootDevOrder with
    | none => some s
    | some a =>
      if none ∈ a.entries then
        some { s with freed := s.freed ++ a.strings, bootDevOrder := some { a with entries := a.entries.set 0 none } }
      else none
  order.map fun s => { s with freed := s.freed ++ s.bootPriority.toList, bootPriority := none }

inductive Left where
  | complete
  | nullName
  | noMemory
  deriving DecidableEq, Repr

structure Saved where
  size : Nat
  entries : List (Option Nat)
  freed : List Nat
  left : Left

section
variable (bootOrder : Nat → Option Text) (calloc : Nat → Bool)

/-- The loop of `tegrabl_set_boot_order`, with `n` strings to come. -/
def saveStrings : Nat → Nat → Nat → List (Option Nat) → Option Saved
  | 0, i, size, entries => (store entries i none).map fun entries => ⟨size, entries, [], .complete⟩
  | n + 1, i, size, entries =>
    match bootOrder i with
    | none => some ⟨size, entries, [], .nullName⟩
    | some _ =>
      if calloc (i + 1) then (store entries i (some size)).bind (saveStrings n (i + 1) (size + 1))
      else some ⟨size, entries, (entries.take i).filterMap id, .noMemory⟩

/-- What `tegrabl_set_boot_order` does when it has cleared the old order. `tegrabl_calloc` has nothing of size zero. -/
def rebuild (count : UInt32) (s : State) : Option State :=
  if calloc 0 ∧ count + 1 ≠ 0 then
    (saveStrings bootOrder calloc count.toNat 0 (s.size + 1) (List.replicate (count + 1).toNat none)).map fun saved =>
      let s := { s with
        size := saved.size
        freed := s.freed ++ saved.freed
        bootDevOrder := some ⟨s.size, saved.entries⟩ }
      if saved.left = .complete ∧ calloc (count.toNat + 1) then { s with size := s.size + 1, bootPriority := some s.size }
      else s
  else some { s with bootDevOrder := none }

def tegrablSetBootOrder (count : UInt32) (s : State) : Option State :=
  (tegrablClearBootOrder s).bind (rebuild bootOrder calloc count)

end

inductive Call where
  | set (count : UInt32) (bootOrder : Nat → Option Text) (calloc : Nat → Bool)
  | clear

def run (s : State) : Call → Option State
  | .set count bootOrder calloc => tegrablSetBootOrder bootOrder calloc count s
  | .clear => tegrablClearBootOrder s

def step (s : Option State) (call : Call) : Option State := s.bind fun s => run s call

def start : State := ⟨0, [], none, none⟩

def State.held (s : State) : List Nat :=
  s.bootPriority.toList ++ (s.bootDevOrder.toList.flatMap fun a => a.block :: a.strings)

structure Consistent (s : State) : Prop where
  ended : ∀ a ∈ s.bootDevOrder, none ∈ a.entries
  ledger : Ledger s.size s.held s.freed
  complete : ∀ b < s.size, b ∈ s.held ++ s.freed

def Sound (s : Option State) : Prop := ∃ t, s = some t ∧ Consistent t

def Allocated (count : UInt32) (bootOrder : Nat → Option Text) (calloc : Nat → Bool) : Prop :=
  calloc 0 = true ∧ count + 1 ≠ 0 → ∀ i, 0 < i → i < count.toNat → (∀ j ≤ i, bootOrder j ≠ none) →
    (∀ j < i, calloc (j + 1) = true) → calloc (i + 1) = true

def Meets (s : Option State) : Call → Prop
  | .set count bootOrder calloc => (∀ t, s = some t → t.bootDevOrder = none) ∧ Allocated count bootOrder calloc
  | .clear => True

section
variable {s t : State} {bootOrder : Nat → Option Text} {calloc : Nat → Bool}

/-- Where the loop stops, when `k` of `n` strings from `i` on have been saved. -/
structure Stops (bootOrder : Nat → Option Text) (calloc : Nat → Bool) (n i k : Nat) (left : Left) : Prop where
  within : k ≤ n
  saved : ∀ j < k, bootOrder (i + j) ≠ none ∧ calloc (i + j + 1) = true
  complete : left = .complete → k = n
  nullName : left = .nullName → k < n ∧ bootOrder (i + k) = none
  noMemory : left = .noMemory → k < n ∧ bootOrder (i + k) ≠ none ∧ calloc (i + k + 1) = false

variable {left : Left}

theorem Stops.here {n i : Nat} (complete : left = .complete → 0 = n)
    (nullName : left = .nullName → 0 < n ∧ bootOrder i = none)
    (noMemory : left = .noMemory → 0 < n ∧ bootOrder i ≠ none ∧ calloc (i + 1) = false) :
    Stops bootOrder calloc n i 0 left :=
  ⟨Nat.zero_le n, fun j none => absurd none (Nat.not_lt_zero j), complete, nullName, noMemory⟩

theorem Stops.next {n i k : Nat} (name : bootOrder i ≠ none) (allocated : calloc (i + 1) = true)
    (later : Stops bootOrder calloc n (i + 1) k left) : Stops bootOrder calloc (n + 1) i (k + 1) left := by
  obtain ⟨within, saved, complete, nullName, noMemory⟩ := later
  have shift : i + 1 + k = i + (k + 1) := by omega
  rw [shift] at nullName noMemory
  refine ⟨Nat.succ_le_succ within, ?_, fun left => congrArg (· + 1) (complete left), ?_, ?_⟩
  · rintro (- | j) inside
    · exact ⟨name, allocated⟩
    · have known := saved j (Nat.lt_of_succ_lt_succ inside)
      rwa [show i + 1 + j = i + (j + 1) by omega] at known
  · exact fun left => ⟨Nat.succ_lt_succ (nullName left).1, (nullName left).2⟩
  · exact fun left => ⟨Nat.succ_lt_succ (noMemory left).1, (noMemory left).2⟩

def entriesOf (strings : List Nat) (n : Nat) : List (Option Nat) := strings.map some ++ List.replicate (n + 1) none

theorem store_next (strings : List Nat) (n b : Nat) :
    store (entriesOf strings (n + 1)) strings.length (some b) = some (entriesOf (strings ++ [b]) n) := by
  have inside : strings.length < (entriesOf strings (n + 1)).length := by simp [entriesOf]
  have front : strings.length = (strings.map some).length := (List.length_map some).symm
  rw [store, if_pos inside, entriesOf, entriesOf, front, List.set_append_right _ _ (Nat.le_refl _), Nat.sub_self,
    List.replicate_succ, List.set_cons_zero]
  simp

theorem store_end (strings : List Nat) : store (entriesOf strings 0) strings.length none = some (entriesOf strings 0) := by
  have inside : strings.length < (entriesOf strings 0).length := by simp [entriesOf]
  have front : strings.length = (strings.map some).length := (List.length_map some).symm
  rw [store, if_pos inside, entriesOf, front, List.set_append_right _ _ (Nat.le_refl _), Nat.sub_self]
  rfl

theorem saveStrings_spec (bootOrder : Nat → Option Text) (calloc : Nat → Bool) (n size : Nat) (strings : List Nat) :
    ∃ k saved, saveStrings bootOrder calloc n strings.length size (entriesOf strings n) = some saved ∧
      Stops bootOrder calloc n strings.length k saved.left ∧ saved.size = size + k ∧
      saved.entries = entriesOf (strings ++ List.range' size k) (n - k) ∧
      saved.freed = if saved.left = .noMemory then strings ++ List.range' size k else [] := by
  induction n generalizing size strings with
  | zero =>
    refine ⟨0, ⟨size, entriesOf strings 0, [], .complete⟩, ?_, .here (fun _ => rfl) (by simp) (by simp), rfl, ?_, rfl⟩
    · rw [saveStrings, store_end]
      rfl
    · simp
  | succ n ih =>
    rw [saveStrings]
    cases name : bootOrder strings.length with
    | none =>
      refine ⟨0, _, rfl, .here (by simp) (fun _ => ⟨Nat.succ_pos n, name⟩) (by simp), rfl, ?_, rfl⟩
      simp
    | some text =>
      have there : bootOrder strings.length ≠ none := by simp [name]
      by_cases allocated : calloc (strings.length + 1) = true
      · obtain ⟨k, saved, result, stops, count, entries, freed⟩ := ih (size + 1) (strings ++ [size])
        rw [List.length_append, List.length_singleton] at result stops
        refine ⟨k + 1, saved, ?_, stops.next there allocated, by omega, ?_, ?_⟩
        · rw [if_pos allocated, store_next]
          exact result
        · rw [entries, List.range'_succ, Nat.add_sub_add_right]
          simp
        · rw [freed, List.range'_succ]
          simp
      · refine ⟨0, _, by rw [if_neg allocated],
          .here (by simp) (by simp) fun _ => ⟨Nat.succ_pos n, there, by simpa using allocated⟩, rfl, ?_, ?_⟩
        · simp
        · simp [entriesOf]

theorem strings_entriesOf (block : Nat) (strings : List Nat) (n : Nat) :
    (Array.mk block (entriesOf strings n)).strings = strings := by
  have known : ((strings.map some ++ List.replicate (n + 1) none).takeWhile (·.isSome) : List (Option Nat)) =
      strings.map some := by
    rw [List.takeWhile_append_of_pos (by simp), List.replicate_succ, List.takeWhile_cons]
    simp
  rw [Array.strings, entriesOf, known, List.filterMap_map]
  exact List.filterMap_some

theorem Stops.refused {n k i : Nat} (stops : Stops bootOrder calloc n 0 k left) (within : i < n)
    (names : ∀ j ≤ i, bootOrder j ≠ none) (before : ∀ j < i, calloc (j + 1) = true) (fails : calloc (i + 1) ≠ true) :
    left = .noMemory ∧ k = i := by
  obtain ⟨bound, saved, complete, nullName, noMemory⟩ := stops
  simp only [Nat.zero_add] at saved nullName noMemory
  have reached : k ≤ i := by
    by_contra passed
    exact fails (saved i (Nat.lt_of_not_le passed)).2
  cases left with
  | complete =>
    have all := complete rfl
    omega
  | nullName => exact absurd (nullName rfl).2 (names k reached)
  | noMemory =>
    refine ⟨rfl, Nat.le_antisymm reached (Nat.le_of_not_lt fun early => ?_)⟩
    exact absurd (before k early) (by simp [(noMemory rfl).2.2])

theorem clear_spec (consistent : Consistent s) : ∃ t, tegrablClearBootOrder s = some t ∧ Consistent t ∧ t.size = s.size ∧
    t.bootPriority = none ∧ t.held = t.bootDevOrder.toList.map (·.block) ∧
    (t.bootDevOrder = none ↔ s.bootDevOrder = none) := by
  obtain ⟨size, freed, order, priority⟩ := s
  obtain ⟨ended, ledger, complete⟩ := consistent
  cases order with
  | none =>
    refine ⟨⟨size, freed ++ priority.toList, none, none⟩, rfl, ⟨by simp, ?_, ?_⟩, rfl, rfl, rfl, Iff.rfl⟩
    · have live : Ledger size (priority.toList ++ []) freed := ledger
      exact live.release
    · intro b inside
      have known := complete b inside
      simp only [State.held, Option.toList, List.flatMap_nil, List.append_nil, List.nil_append, List.mem_append] at known ⊢
      exact known.symm
  | some a =>
    have terminated : none ∈ a.entries := ended a rfl
    have first : ({ a with entries := a.entries.set 0 none } : Array).strings = [] := by
      cases known : a.entries with
      | nil => rw [known] at terminated; cases terminated
      | cons e rest => rfl
    have heldAll : (State.mk size freed (some a) priority).held = priority.toList ++ a.block :: a.strings := by
      simp [State.held]
    have heldNow : (State.mk size (freed ++ a.strings ++ priority.toList) (some { a with entries := a.entries.set 0 none })
        none).held = [a.block] := by
      simp [State.held, first]
    rw [heldAll] at ledger complete
    refine ⟨⟨size, freed ++ a.strings ++ priority.toList, some { a with entries := a.entries.set 0 none }, none⟩, ?_,
      ⟨?_, ?_, ?_⟩, rfl, rfl, heldNow, by simp⟩
    · simp [tegrablClearBootOrder, terminated]
    · rintro a' same
      cases same
      cases known : a.entries with
      | nil => rw [known] at terminated; cases terminated
      | cons e rest => simp
    · rw [heldNow]
      have order : (priority.toList ++ a.block :: a.strings).Perm ((a.strings ++ priority.toList) ++ [a.block]) := by
        refine List.perm_middle.trans ?_
        refine (List.Perm.cons a.block List.perm_append_comm).trans ?_
        exact (List.perm_append_singleton a.block _).symm
      have released := (ledger.perm order).release
      rwa [← List.append_assoc] at released
    · intro b inside
      have known := complete b inside
      rw [heldNow]
      simp only [List.mem_append, List.mem_cons, List.not_mem_nil, or_false] at known ⊢
      tauto

theorem consistent_rebuilt (all : ∀ b < s.size, b ∈ s.freed) (ledger : Ledger s.size [] s.freed) (k m : Nat) {size : Nat}
    {priority : Option Nat} (count : size = s.size + 1 + k + priority.toList.length)
    (new : ∀ b ∈ priority, b = s.size + 1 + k) :
    Consistent ⟨size, s.freed, some ⟨s.size, entriesOf (List.range' (s.size + 1) k) m⟩, priority⟩ := by
  have held : (State.mk size s.freed (some ⟨s.size, entriesOf (List.range' (s.size + 1) k) m⟩) priority).held =
      priority.toList ++ s.size :: List.range' (s.size + 1) k := by
    simp [State.held, strings_entriesOf]
  have strings : Ledger (s.size + 1 + k) (s.size :: List.range' (s.size + 1) k) s.freed := by
    refine (ledger.alloc.allocMany k).perm ?_
    exact List.perm_append_comm.trans (List.Perm.refl _)
  refine ⟨?_, ?_, ?_⟩
  · rintro a same
    cases same
    simp [entriesOf]
  · rw [held]
    cases priority with
    | none =>
      rw [count]
      exact strings
    | some b =>
      rw [count, new b rfl]
      exact strings.alloc
  · intro b inside
    change b < size at inside
    rw [held]
    by_cases early : b < s.size
    · exact List.mem_append_right _ (all b early)
    · have fresh : b ∈ priority ∨ b = s.size ∨ b ∈ List.range' (s.size + 1) k := by
        cases priority with
        | none =>
          simp only [List.mem_range'_1]
          simp only [Option.toList, List.length_nil] at count
          omega
        | some p =>
          have last := new p rfl
          simp only [Option.mem_def, Option.some.injEq, List.mem_range'_1]
          simp only [Option.toList, List.length_singleton] at count
          omega
      simp only [List.mem_append, List.mem_cons, Option.mem_toList]
      tauto

theorem rebuild_cases (bootOrder : Nat → Option Text) (calloc : Nat → Bool) (s : State)
    (priority : s.bootPriority = none) (count : UInt32) : (¬ (calloc 0 = true ∧ count + 1 ≠ 0) ∧
      rebuild bootOrder calloc count s = some ⟨s.size, s.freed, none, none⟩) ∨
    ((calloc 0 = true ∧ count + 1 ≠ 0) ∧ ∃ k left m p, Stops bootOrder calloc count.toNat 0 k left ∧
      (∀ b ∈ p, b = s.size + 1 + k) ∧ rebuild bootOrder calloc count s =
        some ⟨s.size + 1 + k + p.toList.length, s.freed ++ (if left = .noMemory then List.range' (s.size + 1) k else []),
          some ⟨s.size, entriesOf (List.range' (s.size + 1) k) m⟩, p⟩) := by
  unfold rebuild
  by_cases array : calloc 0 = true ∧ count + 1 ≠ 0
  · refine .inr ⟨array, ?_⟩
    have length : (count + 1).toNat = count.toNat + 1 := by
      rw [UInt32.toNat_add]
      refine Nat.mod_eq_of_lt (Nat.lt_of_not_le fun wraps => array.2 ?_)
      have bound := count.toNat_lt
      have last : count.toNat + 1 = 2 ^ 32 := by
        simp only [UInt32.reduceToNat] at wraps
        omega
      rw [← UInt32.toNat_inj, UInt32.toNat_add]
      exact (congrArg (· % 2 ^ 32) last).trans rfl
    obtain ⟨k, saved, result, stops, size, entries, freed⟩ :=
      saveStrings_spec bootOrder calloc count.toNat (s.size + 1) []
    have blank : List.replicate (count + 1).toNat none = entriesOf [] count.toNat := by
      rw [length]
      rfl
    rw [if_pos array, blank]
    rw [List.length_nil] at result stops
    rw [result, Option.map_some]
    rw [List.nil_append] at entries freed
    by_cases complete : saved.left = .complete ∧ calloc (count.toNat + 1) = true
    · refine ⟨k, saved.left, count.toNat - k, some saved.size, stops, ?_, ?_⟩
      · rintro b same
        cases same
        exact size
      · simp [complete, size, entries, freed]
    · refine ⟨k, saved.left, count.toNat - k, none, stops, by simp, ?_⟩
      simp [complete, size, entries, freed, priority]
  · refine .inl ⟨array, ?_⟩
    rw [if_neg array, priority]

theorem lost (consistent : Consistent s) {a : Array} (known : a.block ∈ s.held) (grows : s.size ≤ t.size)
    (reached : ∀ b ∈ t.held, s.size ≤ b) (gone : ∀ b ∈ t.freed, b ∈ s.freed ∨ s.size ≤ b) : ¬ Consistent t := by
  intro consistent'
  obtain ⟨below, alive⟩ := consistent.ledger.live known
  have found := consistent'.complete a.block (Nat.lt_of_lt_of_le below grows)
  rcases List.mem_append.mp found with early | late
  · exact absurd (reached _ early) (Nat.not_le.mpr below)
  · exact (gone _ late).elim alive (Nat.not_le.mpr below)

theorem not_allocated {count : UInt32} {k : Nat} (array : calloc 0 = true ∧ count + 1 ≠ 0) (some : 0 < k)
    (stops : Stops bootOrder calloc count.toNat 0 k .noMemory) : ¬ Allocated count bootOrder calloc := by
  intro allocated
  obtain ⟨within, name, fails⟩ := stops.noMemory rfl
  have saved := stops.saved
  simp only [Nat.zero_add] at saved name fails
  have names : ∀ j ≤ k, bootOrder j ≠ none := by
    intro j reached
    rcases Nat.lt_or_eq_of_le reached with early | rfl
    · exact (saved j early).1
    · exact name
  have enough := allocated array k some within names fun j early => (saved j early).2
  exact absurd enough (by simp [fails])

variable {p : Option Nat}

theorem not_consistent_freed {size k m block : Nat} {freed : List Nat} (first : 0 < k) {size' : Nat} :
    ¬ Consistent ⟨size', freed ++ List.range' size k, some ⟨block, entriesOf (List.range' size k) m⟩, p⟩ := by
  intro consistent
  have member : size ∈ List.range' size k := List.mem_range'_1.mpr ⟨Nat.le_refl _, by omega⟩
  refine (consistent.ledger.live (b := size) ?_).2 ?_
  · simp [State.held, strings_entriesOf, member]
  · simp [member]

theorem rebuild_first {k m : Nat} {count : UInt32} (consistent : Consistent s)
    (held : s.held = []) (array : calloc 0 = true ∧ count + 1 ≠ 0) (stops : Stops bootOrder calloc count.toNat 0 k left)
    (new : ∀ b ∈ p, b = s.size + 1 + k) : Consistent ⟨s.size + 1 + k + p.toList.length,
        s.freed ++ (if left = .noMemory then List.range' (s.size + 1) k else []),
        some ⟨s.size, entriesOf (List.range' (s.size + 1) k) m⟩, p⟩ ↔ Allocated count bootOrder calloc := by
  have ledger := consistent.ledger
  have all := consistent.complete
  rw [held] at ledger all
  by_cases failed : left = .noMemory ∧ 0 < k
  · obtain ⟨rfl, some⟩ := failed
    rw [if_pos rfl]
    exact iff_of_false (not_consistent_freed some) (not_allocated array some stops)
  · have kept : s.freed ++ (if left = .noMemory then List.range' (s.size + 1) k else []) = s.freed := by
      by_cases failure : left = .noMemory
      · have none : k = 0 := Nat.eq_zero_of_not_pos fun some => failed ⟨failure, some⟩
        simp [none]
      · simp [failure]
    rw [kept]
    refine iff_of_true (consistent_rebuilt all ledger k m rfl new) fun _ i some within names before => ?_
    by_contra fails
    obtain ⟨failure, rfl⟩ := stops.refused within names before fails
    exact failed ⟨failure, some⟩

theorem rebuild_again {a : Array} {k m : Nat} (consistent : Consistent s)
    (known : a.block ∈ s.held) (new : ∀ b ∈ p, b = s.size + 1 + k) : ¬ Consistent ⟨s.size + 1 + k + p.toList.length,
        s.freed ++ (if left = .noMemory then List.range' (s.size + 1) k else []),
        some ⟨s.size, entriesOf (List.range' (s.size + 1) k) m⟩, p⟩ := by
  refine lost consistent known ?_ ?_ ?_
  · simp only
    omega
  · intro b member
    simp only [State.held, strings_entriesOf, Option.toList_some, List.flatMap_singleton, List.mem_append,
      Option.mem_toList, List.mem_cons, List.mem_range'_1] at member
    rcases member with last | array | string
    · have := new b last
      omega
    · omega
    · omega
  · intro b member
    simp only [List.mem_append] at member
    refine member.imp_right fun late => ?_
    split at late
    · have := List.mem_range'_1.mp late
      omega
    · cases late

theorem rebuild_spec (bootOrder : Nat → Option Text) (calloc : Nat → Bool) (consistent : Consistent s)
    (priority : s.bootPriority = none) (held : s.held = s.bootDevOrder.toList.map (·.block)) (count : UInt32) :
    ∃ t, rebuild bootOrder calloc count s = some t ∧
      (Consistent t ↔ s.bootDevOrder = none ∧ Allocated count bootOrder calloc) := by
  obtain ⟨array, result⟩ | ⟨array, k, left, m, p, stops, new, result⟩ := rebuild_cases bootOrder calloc s priority count
  · refine ⟨_, result, ?_⟩
    have free : Allocated count bootOrder calloc := fun got => absurd got array
    cases order : s.bootDevOrder with
    | none =>
      have held : s.held = [] := by simp [held, order]
      refine iff_of_true ⟨by simp, ?_, fun b inside => ?_⟩ ⟨rfl, free⟩
      · have ledger := consistent.ledger
        rwa [held] at ledger
      · have known := consistent.complete b inside
        rwa [held] at known
    | some a =>
      have known : a.block ∈ s.held := by simp [held, order]
      refine iff_of_false (lost consistent known (Nat.le_refl _) ?_ fun b member => .inl member) (by simp)
      simp [State.held]
  · refine ⟨_, result, ?_⟩
    cases order : s.bootDevOrder with
    | none =>
      have held : s.held = [] := by simp [held, order]
      exact (rebuild_first consistent held array stops new).trans ⟨fun allocated => ⟨rfl, allocated⟩, fun both => both.2⟩
    | some a =>
      have known : a.block ∈ s.held := by simp [held, order]
      exact iff_of_false (rebuild_again consistent known new) (by simp)

theorem sound_step {o : Option State} (sound : Sound o) (call : Call) : Sound (step o call) ↔ Meets o call := by
  obtain ⟨s, rfl, consistent⟩ := sound
  obtain ⟨t, cleared, consistent', -, priority, held, order⟩ := clear_spec consistent
  cases call with
  | clear => exact iff_of_true ⟨t, cleared, consistent'⟩ trivial
  | set count bootOrder calloc =>
    obtain ⟨u, rebuilt, same⟩ := rebuild_spec bootOrder calloc consistent' priority held count
    have result : step (some s) (.set count bootOrder calloc) = some u := by
      change (tegrablClearBootOrder s).bind _ = _
      rw [cleared]
      exact rebuilt
    have meets : Meets (some s) (.set count bootOrder calloc) ↔ t.bootDevOrder = none ∧ Allocated count bootOrder calloc := by
      rw [order]
      simp [Meets]
    rw [meets, ← same]
    constructor
    · rintro ⟨u', known, consistent'⟩
      cases result.symm.trans known
      exact consistent'
    · exact fun consistent' => ⟨u, result, consistent'⟩

/-- The storage is consistent after every call exactly where the order is only ever set while there is no array, and no
string of it fails to be allocated but the first one. -/
theorem storage_iff (calls : List Call) : Throughout step Sound (some start) calls ↔ EachStep step Meets (some start) calls := by
  have begins : Sound (some start) := ⟨start, rfl, by simp [start], ⟨by simp [start, State.held], by simp [start, State.held]⟩,
    by simp [start]⟩
  have one : ∀ o call, True → Sound o → (Sound (step o call) ↔ Meets o call) := fun o call _ sound => sound_step sound call
  exact throughout_iff_eachStep (fun _ _ _ _ _ => trivial) one trivial begins calls

def twoCards (fails : Nat) : Call := .set 2 (fun _ => some [115, 100]) fun i => i != fails

/-- The array of the first call is lost in the second one. -/
theorem storage_lost : ¬ Throughout step Sound (some start) [twoCards 9, twoCards 9] ∧
    ¬ Throughout step Sound (some start) [twoCards 2, .clear] := by
  constructor
  · intro always
    obtain ⟨t, known, consistent⟩ := always [twoCards 9, twoCards 9] (List.prefix_refl _)
    cases known
    exact absurd (consistent.complete 0 (by decide)) (by decide)
  · intro always
    obtain ⟨t, known, consistent⟩ := always [twoCards 2, .clear] (List.prefix_refl _)
    cases known
    exact absurd consistent.ledger.once (by decide)

end

end Cboot.Cbo.Storage
