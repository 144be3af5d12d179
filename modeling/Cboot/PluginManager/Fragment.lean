import Cboot.PluginManager.Model

/-!
`pm_fragment_handle` goes through the lists of a fragment with one flag, `found`, which is left by breaks and jumps that
depend on two modes.
-/

namespace Cboot.PluginManager

/-- The lists of `match_info_array` that have a matcher. -/
inductive Kind where
  | configNames
  | ids
  | odmData
  | nctData
  | chipId
  | fuseInfo
  deriving DecidableEq, Repr

def Kind.name : Kind → Text
  | .configNames => ascii "config-names"
  | .ids => ascii "ids"
  | .odmData => ascii "odm-data"
  | .nctData => ascii "nct-data"
  | .chipId => ascii "chip-id"
  | .fuseInfo => ascii "fuse-info"

def kinds : List Kind := [.configNames, .ids, .odmData, .nctData, .chipId, .fuseInfo]

def stringsOf (value : List UInt8) : List Text := (value.splitOn 0).dropLast

structure Fragment where
  props : List Property
  overrides : List Nat
  terminated : ∀ kind ∈ kinds, ∀ value ∈ lookup props kind.name, value = [] ∨ value.getLast? = some 0

structure Matchers where
  configs : Text → UInt32 → Bool
  strings : Kind → Text → Bool
  behind : Nat → UInt8

def Fragment.overrideOnAllMatch (f : Fragment) : Bool :=
  (lookup f.props (ascii "enable-override-on-all-matches")).isSome

def Fragment.odmAndedOverride (f : Fragment) : Bool := (lookup f.props (ascii "odm-anded-override")).isSome

/-- `prop_string`, with `count` strings; none where there is no such property. -/
def Fragment.items (f : Fragment) (kind : Kind) : List Text := ((lookup f.props kind.name).map stringsOf).getD []

/-- `tegrabl_dt_get_prop_u32_by_idx`, which does not look at the length of the property. -/
def Matchers.u32ByIdx (M : Matchers) (value : List UInt8) (idx : Nat) : UInt32 :=
  let byte := fun i => (value.getD (4 * idx + i) (M.behind (4 * idx + i - value.length))).toUInt32
  (byte 0 <<< 24) ||| (byte 1 <<< 16) ||| (byte 2 <<< 8) ||| byte 3

/-- The matcher of a list, for its `j`-th string; nothing where there are no `configs` for `config-names`. -/
def isMatch (M : Matchers) (f : Fragment) (kind : Kind) (j : Nat) (item : Text) : Option Bool :=
  match kind with
  | .configNames => (lookup f.props (ascii "configs")).map fun value => M.configs item (M.u32ByIdx value j)
  | kind => some (M.strings kind item)

def matchItems (isMatch : Nat → Text → Option Bool) (anded : Bool) : Nat → List Text → Bool → Bool
  | _, [], found => found
  | j, item :: rest, found =>
    match isMatch j item with
    | none => found
    | some found =>
      if anded then (if !found then found else matchItems isMatch anded (j + 1) rest found)
      else if found then found
      else matchItems isMatch anded (j + 1) rest found

/-- The loop over the lists: whether it comes to `apply_override`. -/
def matchLists (M : Matchers) (f : Fragment) : List Kind → Bool → Bool
  | [], found => found
  | kind :: rest, found =>
    if 0 < (f.items kind).length then
      let found := matchItems (isMatch M f kind) (f.odmAndedOverride && kind == .odmData) 0 (f.items kind) false
      if f.overrideOnAllMatch && !found then false
      else if !f.overrideOnAllMatch && found then true
      else matchLists M f rest found
    else matchLists M f rest found

/-- `all_count` of `pm_get_prop_count`, which counts in `configs` too. -/
def Fragment.allCount (f : Fragment) : Nat :=
  ((lookup f.props (ascii "configs")).map fun value => (stringsOf value).length).getD 0 +
    (kinds.map fun kind => (f.items kind).length).sum

inductive FragmentError where
  | noLists
  | noOverrides
  deriving DecidableEq, Repr

/-- `pm_fragment_handle`: the children that are overridden with. -/
def pmFragmentHandle (M : Matchers) (f : Fragment) : Except FragmentError (List Nat) :=
  if f.allCount = 0 then .error .noLists
  else if f.overrides = [] then .error .noOverrides
  else .ok (if matchLists M f kinds false then f.overrides else [])

def applied (M : Matchers) (f : Fragment) : List Nat :=
  match pmFragmentHandle M f with
  | .ok overrides => overrides
  | .error _ => []

def Fragment.Present (f : Fragment) (kind : Kind) : Prop := (lookup f.props kind.name).isSome

def Satisfied (M : Matchers) (f : Fragment) (kind : Kind) : Prop :=
  if f.odmAndedOverride = true ∧ kind = .odmData then
    ∀ j item, (f.items kind)[j]? = some item → isMatch M f kind j item = some true
  else ∃ j item, (f.items kind)[j]? = some item ∧ isMatch M f kind j item = some true

def Conditions (M : Matchers) (f : Fragment) (present : Kind → Prop) : Prop :=
  (∃ kind, present kind) ∧
    (if f.overrideOnAllMatch = true then ∀ kind, present kind → Satisfied M f kind
      else ∃ kind, present kind ∧ Satisfied M f kind)

def Fragment.HasItems (f : Fragment) (kind : Kind) : Prop := f.items kind ≠ []

section
variable {M : Matchers} {f : Fragment} {kind : Kind}

theorem matchItems_any (match' : Nat → Text → Option Bool) (j : Nat) (items : List Text)
    (missing : ∀ i item, match' i item = none → ∀ i item, match' i item = none) :
    matchItems match' false j items false = true ↔
      ∃ i item, items[i]? = some item ∧ match' (j + i) item = some true := by
  induction items generalizing j with
  | nil => simp [matchItems]
  | cons item rest ih =>
    rw [matchItems]
    cases first : match' j item with
    | none =>
      have none := missing j item first
      simp [none]
    | some found =>
      cases found with
      | true =>
        refine iff_of_true rfl ⟨0, item, rfl, ?_⟩
        rwa [Nat.add_zero]
      | false =>
        simp only [Bool.false_eq_true, if_false]
        rw [ih]
        constructor
        · rintro ⟨i, later, there, yes⟩
          refine ⟨i + 1, later, there, ?_⟩
          rwa [Nat.add_comm i, ← Nat.add_assoc]
        · rintro ⟨i, later, there, yes⟩
          cases i with
          | zero =>
            cases there
            rw [Nat.add_zero, first] at yes
            cases yes
          | succ i =>
            refine ⟨i, later, there, ?_⟩
            rwa [Nat.add_assoc, Nat.add_comm 1]

theorem matchItems_all (match' : Nat → Text → Option Bool) (j : Nat) (items : List Text)
    (total : ∀ i item, match' i item ≠ none) :
    matchItems match' true j items true = true ↔
      ∀ i item, items[i]? = some item → match' (j + i) item = some true := by
  induction items generalizing j with
  | nil => simp [matchItems]
  | cons item rest ih =>
    rw [matchItems]
    cases first : match' j item with
    | none => exact absurd first (total j item)
    | some found =>
      cases found with
      | false =>
        refine iff_of_false Bool.false_ne_true fun all => ?_
        have head := all 0 item rfl
        rw [Nat.add_zero, first] at head
        cases head
      | true =>
        simp only [if_true, Bool.not_true, Bool.false_eq_true, if_false]
        rw [ih]
        constructor
        · intro all i later there
          cases i with
          | zero =>
            cases there
            exact first
          | succ i =>
            rw [← Nat.add_assoc, Nat.add_right_comm]
            exact all i later there
        · intro all i later there
          have next := all (i + 1) later there
          rwa [← Nat.add_assoc, Nat.add_right_comm] at next

theorem matchItems_start {match' : Nat → Text → Option Bool} (anded : Bool) (j : Nat) {items : List Text}
    (some : items ≠ []) (total : ∀ i item, match' i item ≠ none) :
    matchItems match' anded j items false = matchItems match' anded j items true := by
  cases items with
  | nil => exact absurd rfl some
  | cons item rest =>
    rw [matchItems, matchItems]
    cases first : match' j item with
    | none => exact absurd first (total j item)
    | some found => rfl

theorem matchItems_satisfied (some : f.HasItems kind) :
    matchItems (isMatch M f kind) (f.odmAndedOverride && kind == .odmData) 0 (f.items kind) false = true ↔
      Satisfied M f kind := by
  unfold Satisfied
  by_cases anded : f.odmAndedOverride = true ∧ kind = .odmData
  · obtain ⟨mode, rfl⟩ := anded
    have total : ∀ i item, isMatch M f .odmData i item ≠ none := fun _ _ => Option.some_ne_none _
    rw [if_pos ⟨mode, rfl⟩, mode, matchItems_start _ _ some total]
    change matchItems _ true 0 _ true = true ↔ _
    rw [matchItems_all _ _ _ total]
    simp only [Nat.zero_add]
  · have plain : (f.odmAndedOverride && kind == .odmData) = false := by
      rw [Bool.eq_false_iff]
      intro both
      exact anded (by simpa using both)
    rw [if_neg anded, plain, matchItems_any]
    · simp only [Nat.zero_add]
    · intro i item none
      cases kind with
      | configNames =>
        intro j other
        unfold isMatch at none ⊢
        rw [Option.map_eq_none_iff] at none ⊢
        exact none
      | ids | odmData | nctData | chipId | fuseInfo => cases none

theorem matchLists_some (each : f.overrideOnAllMatch = false) (list : List Kind) :
    matchLists M f list false = true ↔ ∃ kind ∈ list, f.HasItems kind ∧ Satisfied M f kind := by
  induction list with
  | nil => simp [matchLists]
  | cons kind rest ih =>
    rw [matchLists]
    by_cases some : f.HasItems kind
    · rw [if_pos (List.length_pos_iff.mpr some), each]
      by_cases yes : Satisfied M f kind
      · simp [(matchItems_satisfied some).mpr yes, some, yes]
      · have no := mt (matchItems_satisfied (M := M) some).mp yes
        simp [Bool.eq_false_iff.mpr no, ih, yes]
    · have none : f.items kind = [] := not_not.mp some
      simp [none, ih, some]

theorem matchLists_every (every : f.overrideOnAllMatch = true) (list : List Kind) (found : Bool) :
    matchLists M f list found = true ↔
      (∀ kind ∈ list, f.HasItems kind → Satisfied M f kind) ∧ (found = true ∨ ∃ kind ∈ list, f.HasItems kind) := by
  induction list generalizing found with
  | nil => simp [matchLists]
  | cons kind rest ih =>
    rw [matchLists]
    by_cases some : f.HasItems kind
    · rw [if_pos (List.length_pos_iff.mpr some), every]
      by_cases yes : Satisfied M f kind
      · simp [(matchItems_satisfied some).mpr yes, some, yes, ih]
      · have no := mt (matchItems_satisfied (M := M) some).mp yes
        simp [Bool.eq_false_iff.mpr no, some, yes]
    · have none : f.items kind = [] := not_not.mp some
      simp [none, ih, some]

theorem mem_kinds (kind : Kind) : kind ∈ kinds := by
  cases kind <;> decide

theorem matchLists_conditions : matchLists M f kinds false = true ↔ Conditions M f f.HasItems := by
  unfold Conditions
  cases mode : f.overrideOnAllMatch with
  | true =>
    rw [matchLists_every mode]
    simp [mem_kinds, and_comm]
  | false =>
    rw [matchLists_some mode]
    simp only [mem_kinds, true_and, Bool.false_eq_true, if_false]
    constructor
    · rintro ⟨kind, some, yes⟩
      exact ⟨⟨kind, some⟩, kind, some, yes⟩
    · exact fun both => both.2

theorem conditions_none (none : f.allCount = 0) : ¬ Conditions M f f.HasItems := by
  rintro ⟨⟨kind, some⟩, -⟩
  have counted := (Nat.add_eq_zero_iff.mp none).2
  have empty : f.items kind = [] := by
    simp [kinds] at counted
    cases kind <;> simp [counted]
  exact some empty

end

/-- A fragment is applied as its conditions say, if lists are present that have a string. -/
theorem applied_conditions (M : Matchers) (f : Fragment) :
    (Conditions M f f.HasItems → applied M f = f.overrides) ∧ (¬ Conditions M f f.HasItems → applied M f = []) := by
  unfold applied pmFragmentHandle
  by_cases none : f.allCount = 0
  · rw [if_pos none]
    exact ⟨fun holds => absurd holds (conditions_none none), fun _ => rfl⟩
  · rw [if_neg none]
    by_cases empty : f.overrides = []
    · simp [empty]
    · rw [if_neg empty]
      rw [← matchLists_conditions]
      constructor
      · intro holds
        simp [holds]
      · intro fails
        simp [fails]

/-- `ids` matches and `odm-data` has no string: applied, although not every list that is there is satisfied. -/
theorem applied_empty : ¬ ∀ (M : Matchers) (f : Fragment),
    (Conditions M f f.Present → applied M f = f.overrides) ∧ (¬ Conditions M f f.Present → applied M f = []) := by
  intro all
  have wrong := (all ⟨fun _ _ => true, fun _ _ => true, fun _ => 0⟩
    ⟨[⟨ascii "enable-override-on-all-matches", []⟩, ⟨ascii "ids", [97, 0]⟩, ⟨ascii "odm-data", []⟩], [1], by decide⟩).2
  have applies := wrong fun holds => ?_
  · revert applies
    decide
  · obtain ⟨j, item, there, -⟩ := (show Satisfied _ _ .odmData from holds.2 .odmData rfl)
    cases there

end Cboot.PluginManager
