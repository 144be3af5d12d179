import Cboot.Devicetree.Reg

/-!
`tegrabl_dt_get_prop_string_array` of `lib/devicetree/tegrabl_devicetree.c`, which its callers call twice: first without an
array, to learn how large it has to be.
-/

namespace Cboot.Devicetree
open Lib Forest
open PluginManager (Dtb Node Text ascii layout lookup propsOf)

inductive StringError where
  | invalid
  | notFound
  deriving DecidableEq, Repr

/-- What `*num` is set to, and what is stored to `res`: the entry, and the offset in the property that it points to. -/
structure Strings where
  num : Option Nat
  stores : List (Nat × Nat)
  deriving DecidableEq, Repr

/-- The loop over what is left of the property. Whether `res` and `num` are there stays the same. -/
def stringLoop (res num : Bool) : List UInt8 → Nat → Nat → Strings → Strings
  | [], _, _, s => s
  | c :: rest, iter, i, s =>
    if c = 0 then
      stringLoop res num rest (iter + 1) (i + 1)
        { num := if num then some (i + 1) else s.num
          stores := if res && !rest.isEmpty then s.stores ++ [(i + 1, iter + 1)] else s.stores }
    else stringLoop res num rest (iter + 1) i s

/-- `fdt` and `prop_name` may be `NULL`. -/
def tegrablDtGetPropStringArray (fdt : Option Dtb) (nodeOffset : Nat) (propName : Option Text) (res num : Bool) :
    Except StringError Strings :=
  match fdt, propName with
  | some fdt, some propName =>
    match lookup (propsOf fdt nodeOffset) propName with
    | none => .error .notFound
    | some prop => .ok (stringLoop res num prop 0 0 ⟨none, if res then [(0, 0)] else []⟩)
  | _, _ => .error .invalid

/-- The `i`-th string of a value is terminated, and begins at the offset. -/
def StringAt (value : List UInt8) (i start : Nat) : Prop :=
  ∃ front text behind, value = front ++ (text ++ 0 :: behind) ∧ front.length = start ∧ front.count 0 = i ∧
    (front = [] ∨ front.getLast? = some 0) ∧ 0 ∉ text

structure Filled (value : List UInt8) (n : Nat) (stores : List (Nat × Nat)) : Prop where
  inside : ∀ s ∈ stores, s.1 < n
  all : ∀ i < n, ∃ start, (i, start) ∈ stores
  right : ∀ s ∈ stores, StringAt value s.1 s.2

def TwoPasses (fdt : Dtb) (nodeOffset : Nat) (propName : Text) (value : List UInt8) : Prop :=
  ∀ again, ∃ first second n,
    tegrablDtGetPropStringArray (some fdt) nodeOffset (some propName) false true = .ok first ∧ first.num = some n ∧
      tegrablDtGetPropStringArray (some fdt) nodeOffset (some propName) true again = .ok second ∧
      second.num = (if again then some n else none) ∧ Filled value n second.stores

section
variable {value front rest : List UInt8} {res num : Bool} {i j start : Nat} {s : Strings}

def Begins (value : List UInt8) (i start : Nat) : Prop :=
  ∃ front rest, value = front ++ rest ∧ front.length = start ∧ front.count 0 = i ∧
    (front = [] ∨ front.getLast? = some 0 ∧ rest ≠ [])

structure Done (value front : List UInt8) (res num : Bool) (s : Strings) : Prop where
  counted : s.num = if num = true ∧ 0 ∈ front then some (front.count 0) else none
  stored : ∀ i start, (i, start) ∈ s.stores ↔ res = true ∧ Begins value i start ∧ start ≤ front.length

theorem begins_next (c : UInt8) (rest : List UInt8) :
    Begins (front ++ c :: rest) i (front.length + 1) ↔ c = 0 ∧ i = front.count 0 + 1 ∧ rest ≠ [] := by
  constructor
  · rintro ⟨before, after, parts, length, rfl, edge⟩
    have same : front ++ [c] = before ∧ rest = after := by
      refine List.append_inj ?_ (by simp [length])
      rw [← parts, List.append_assoc, List.singleton_append]
    obtain ⟨rfl, rfl⟩ := same
    rcases edge with none | ⟨last, more⟩
    · simp at none
    · rw [List.getLast?_concat, Option.some.injEq] at last
      subst last
      exact ⟨rfl, by simp, more⟩
  · rintro ⟨rfl, rfl, more⟩
    exact ⟨front ++ [0], rest, by simp, by simp, by simp, .inr ⟨List.getLast?_concat, more⟩⟩

theorem Done.step {c : UInt8} (done : Done (front ++ c :: rest) front res num s) :
    Done (front ++ c :: rest) (front ++ [c]) res num
      (if c = 0 then
        { num := if num then some (front.count 0 + 1) else s.num
          stores := if res && !rest.isEmpty then s.stores ++ [(front.count 0 + 1, front.length + 1)] else s.stores }
      else s) := by
  have upTo : ∀ start, start ≤ (front ++ [c]).length ↔ start ≤ front.length ∨ start = front.length + 1 := by
    intro start
    rw [List.length_append, List.length_singleton]
    omega
  by_cases zero : c = 0
  · subst zero
    rw [if_pos rfl]
    refine ⟨?_, fun i start => ?_⟩
    · cases num with
      | false => simpa using done.counted
      | true => simp
    · have before := done.stored i start
      rw [upTo start, and_or_left, and_or_left, ← before]
      by_cases more : rest = []
      · have none : ∀ start, start = front.length + 1 → ¬ Begins (front ++ 0 :: rest) i start := by
          rintro _ rfl begins
          exact ((begins_next 0 rest).mp begins).2.2 more
        simp only [more, List.isEmpty_nil, Bool.not_true, Bool.and_false, Bool.false_eq_true, if_false]
        exact ⟨.inl, fun or => or.elim id fun next => absurd next.2.1 (more ▸ none _ next.2.2)⟩
      · cases res with
        | false => simp
        | true =>
          have some_rest : rest.isEmpty = false := by simpa using more
          simp only [some_rest, Bool.not_false, Bool.and_true, if_true, List.mem_append, List.mem_singleton,
            Prod.mk.injEq, true_and]
          refine or_congr_right ⟨?_, ?_⟩
          · rintro ⟨rfl, rfl⟩
            exact ⟨(begins_next 0 rest).mpr ⟨rfl, rfl, more⟩, rfl⟩
          · rintro ⟨begins, rfl⟩
            exact ⟨((begins_next 0 rest).mp begins).2.1, rfl⟩
  · rw [if_neg zero]
    refine ⟨?_, fun i start => ?_⟩
    · rw [done.counted]
      simp [zero, Ne.symm zero, List.count_append]
    · rw [done.stored, upTo start]
      refine and_congr_right fun _ => and_congr_right fun begins => ⟨.inl, fun or => or.elim id fun next => ?_⟩
      subst next
      exact absurd ((begins_next c rest).mp begins).1 zero

theorem stringLoop_done (done : Done (front ++ rest) front res num s) : Done (front ++ rest) (front ++ rest) res num
      (stringLoop res num rest front.length (front.count 0) s) := by
  induction rest generalizing front s with
  | nil =>
    rw [List.append_nil] at done ⊢
    exact done
  | cons c rest ih =>
    have next := done.step
    have parts : front ++ c :: rest = (front ++ [c]) ++ rest := by simp
    rw [parts] at next ⊢
    have end_ := ih next
    rw [stringLoop]
    by_cases zero : c = 0
    · subst zero
      simpa using end_
    · simpa [zero, List.count_append] using end_

theorem stringArray_done {fdt : Dtb} {nd : Nat} {name : Text} (found : lookup (propsOf fdt nd) name = some value)
    (res num : Bool) : ∃ s, tegrablDtGetPropStringArray (some fdt) nd (some name) res num = .ok s ∧
      Done value value res num s := by
  have start : Done ([] ++ value) [] res num ⟨none, if res then [(0, 0)] else []⟩ := by
    refine ⟨by simp, fun i start => ?_⟩
    have first : Begins value i 0 ↔ i = 0 := by
      constructor
      · rintro ⟨front, rest, -, length, rfl, -⟩
        rw [List.length_eq_zero_iff.mp length, List.count_nil]
      · rintro rfl
        exact ⟨[], value, rfl, rfl, rfl, .inl rfl⟩
    cases res with
    | false => simp
    | true =>
      simp only [if_true, List.mem_singleton, Prod.mk.injEq, List.nil_append, true_and, List.length_nil, Nat.le_zero]
      constructor
      · rintro ⟨rfl, rfl⟩
        exact ⟨first.mpr rfl, rfl⟩
      · rintro ⟨begins, rfl⟩
        exact ⟨first.mp begins, rfl⟩
  refine ⟨_, ?_, stringLoop_done start⟩
  simp [tegrablDtGetPropStringArray, found]

theorem exists_front (enough : i ≤ value.count 0) : ∃ front rest, value = front ++ rest ∧ front.count 0 = i ∧
    (front = [] ∨ front.getLast? = some 0) := by
  induction i with
  | zero => exact ⟨[], value, rfl, rfl, .inl rfl⟩
  | succ i ih =>
    obtain ⟨front, rest, rfl, count, -⟩ := ih (Nat.le_of_succ_le enough)
    have more : 0 ∈ rest := by
      rw [List.count_append, count] at enough
      exact List.count_pos_iff.mp (by omega)
    obtain ⟨text, behind, rfl, clean⟩ := List.eq_append_cons_of_mem more
    refine ⟨front ++ (text ++ [0]), behind, by simp, ?_, .inr ?_⟩
    · rw [List.count_append, List.count_append, count, List.count_eq_zero.mpr clean]
      rfl
    · rw [← List.append_assoc, List.getLast?_concat]

theorem exists_begins (before : i < value.count 0) : ∃ start, Begins value i start := by
  obtain ⟨front, rest, rfl, count, edge⟩ := exists_front (Nat.le_of_lt before)
  have more : rest ≠ [] := by
    rintro rfl
    rw [List.append_nil, count] at before
    exact Nat.lt_irrefl i before
  exact ⟨front.length, front, rest, rfl, rfl, count, edge.imp_right fun last => ⟨last, more⟩⟩

theorem Begins.terminated (ended : value.getLast? = some 0) (begins : Begins value i start) :
    StringAt value i start ∧ i < value.count 0 := by
  obtain ⟨front, rest, rfl, length, count, edge⟩ := begins
  have more : rest ≠ [] := by
    rintro rfl
    rcases edge with rfl | ⟨-, more⟩
    · cases ended
    · exact more rfl
  have found : 0 ∈ rest := by
    rw [List.getLast?_append_of_ne_nil _ more] at ended
    exact List.mem_of_getLast? ended
  have later : 0 < rest.count 0 := List.count_pos_iff.mpr found
  obtain ⟨text, behind, rfl, clean⟩ := List.eq_append_cons_of_mem found
  refine ⟨⟨front, text, behind, rfl, length, count, edge.imp_right And.left, clean⟩, ?_⟩
  rw [List.count_append]
  omega

theorem begins_count (found : 0 ∈ value) (unended : value.getLast? ≠ some 0) :
    ∃ start, Begins value (value.count 0) start := by
  obtain ⟨front, rest, parts, count, edge⟩ := exists_front (Nat.le_refl (value.count 0))
  have last : front.getLast? = some 0 := by
    refine edge.resolve_left fun none => ?_
    rw [none, List.count_nil] at count
    exact List.count_eq_zero.mp count.symm found
  refine ⟨front.length, front, rest, parts, rfl, count, .inr ⟨last, fun none => unended ?_⟩⟩
  rw [parts, none, List.append_nil]
  exact last

/-- It is met where the value is a list of strings. -/
theorem tegrablDtGetPropStringArray_iff (fdt : Dtb) (nodeOffset : Nat) (propName : Text) (value : List UInt8)
    (found : lookup (propsOf fdt nodeOffset) propName = some value) :
    TwoPasses fdt nodeOffset propName value ↔ value.getLast? = some 0 := by
  constructor
  · intro passes
    refine Classical.not_not.mp fun unended => ?_
    obtain ⟨first, second, n, counting, some_num, filling, -, filled⟩ := passes false
    obtain ⟨first', counting', counted⟩ := stringArray_done found false true
    obtain rfl := Except.ok.inj (counting.symm.trans counting')
    obtain ⟨second', filling', done⟩ := stringArray_done found true false
    obtain rfl := Except.ok.inj (filling.symm.trans filling')
    have number := counted.counted.symm.trans some_num
    split at number
    case isFalse => cases number
    case isTrue some_string =>
      obtain rfl := Option.some.inj number
      obtain ⟨start, begins⟩ := begins_count some_string.2 unended
      have inside : start ≤ value.length := by
        obtain ⟨front, rest, parts, length, -⟩ := begins
        rw [← length, parts, List.length_append]
        exact Nat.le_add_right _ _
      exact Nat.lt_irrefl _ (filled.inside _ ((done.stored _ _).mpr ⟨rfl, begins, inside⟩))
  · intro ended again
    have some_string : 0 ∈ value := List.mem_of_getLast? ended
    obtain ⟨first, counting, counted⟩ := stringArray_done found false true
    obtain ⟨second, filling, done⟩ := stringArray_done found true again
    refine ⟨first, second, value.count 0, counting, ?_, filling, ?_, ?_, ?_, ?_⟩
    · rw [counted.counted, if_pos ⟨rfl, some_string⟩]
    · rw [done.counted]
      simp [some_string]
    · intro s stored
      exact (((done.stored s.1 s.2).mp stored).2.1.terminated ended).2
    · intro i before
      obtain ⟨start, begins⟩ := exists_begins before
      have inside : start ≤ value.length := by
        obtain ⟨front, rest, rfl, length, -⟩ := begins
        rw [← length, List.length_append]
        exact Nat.le_add_right _ _
      exact ⟨start, (done.stored i start).mpr ⟨rfl, begins, inside⟩⟩
    · intro s stored
      exact (((done.stored s.1 s.2).mp stored).2.1.terminated ended).1

def compatibleWith (value : List UInt8) : Dtb := .node ⟨[], [⟨ascii "compatible", value⟩]⟩ .nil .nil

theorem tegrablDtGetPropStringArray_two :
    TwoPasses (compatibleWith [97, 98, 0, 99, 0]) 0 (ascii "compatible") [97, 98, 0, 99, 0] :=
  (tegrablDtGetPropStringArray_iff (compatibleWith [97, 98, 0, 99, 0]) 0 (ascii "compatible") [97, 98, 0, 99, 0]
    rfl).mpr rfl

/-- The number is not set for an empty value, and the second entry of one is stored for a value that goes on. -/
theorem tegrablDtGetPropStringArray_open :
    tegrablDtGetPropStringArray (some (compatibleWith [])) 0 (some (ascii "compatible")) false true = .ok ⟨none, []⟩ ∧
      tegrablDtGetPropStringArray (some (compatibleWith [97, 0, 98])) 0 (some (ascii "compatible")) false true =
        .ok ⟨some 1, []⟩ ∧
      tegrablDtGetPropStringArray (some (compatibleWith [97, 0, 98])) 0 (some (ascii "compatible")) true false =
        .ok ⟨none, [(0, 0), (1, 2)]⟩ ∧ ¬ TwoPasses (compatibleWith []) 0 (ascii "compatible") [] ∧
      ¬ TwoPasses (compatibleWith [97, 0, 98]) 0 (ascii "compatible") [97, 0, 98] := by
  refine ⟨rfl, rfl, rfl, fun passes => ?_, fun passes => ?_⟩
  · obtain ⟨first, second, n, counting, some_num, -⟩ := passes false
    cases counting
    cases some_num
  · obtain ⟨first, second, n, counting, some_num, filling, -, filled⟩ := passes false
    cases counting
    cases some_num
    cases filling
    exact absurd (filled.inside (1, 2) (by decide)) (Nat.lt_irrefl 1)

end

end Cboot.Devicetree
