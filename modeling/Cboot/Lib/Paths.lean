import Mathlib.Data.List.Basic
import Mathlib.Data.List.TakeWhile

/-!
A path is a text of names between separators, where empty names count for nothing. One dot is the place itself and two
dots the place above it.
-/

namespace Cboot.Lib.Paths

section
variable {α : Type} [DecidableEq α] (sep dot : α)

def components (path : List α) : List (List α) := (path.splitOn sep).filter (· ≠ [])

structure Place (α : Type) where
  rooted : Bool
  names : List (List α)
  deriving DecidableEq, Repr

def Place.up (place : Place α) : Place α :=
  if place.names = [] then ⟨false, []⟩ else ⟨place.rooted, place.names.dropLast⟩

def Place.down (place : Place α) (name : List α) : Place α := ⟨place.rooted, place.names ++ [name]⟩

def Place.step (place : Place α) (name : List α) : Place α :=
  if name = [dot] then place else if name = [dot, dot] then place.up else place.down name

def Place.walk (place : Place α) (names : List (List α)) : Place α := names.foldl (Place.step dot) place

def Place.text (place : Place α) : List α :=
  let names := place.names.flatMap (sep :: ·)
  if place.rooted then names else names.tail

def Place.opened (place : Place α) : List α :=
  (if place.rooted then [sep] else []) ++ place.names.flatMap (· ++ [sep])

def below (names : List (List α)) (name : List α) : Option (List (List α)) :=
  if name = [dot] then some names
  else if name = [dot, dot] then if names = [] then none else some names.dropLast
  else some (names ++ [name])

def resolve (path : List α) : Option (List (List α)) := (components sep path).foldlM (below dot) []

def first (path : List α) : List α := path.takeWhile (· ≠ sep)

def remaining (path : List α) : List α := path.dropWhile (· ≠ sep)

/-- The path stays below its start even when its first name is only a part of a name there. -/
def Stays (path : List α) : Prop :=
  first sep path ≠ [dot] ∧ first sep path ≠ [dot, dot] ∧ (resolve sep dot (remaining sep path)).isSome

instance (path : List α) : Decidable (Stays sep dot path) := inferInstanceAs (Decidable (_ ∧ _ ∧ _))

variable {sep dot} {path name rest : List α} {names : List (List α)} {place : Place α}

@[simp] theorem components_nil : components sep [] = [] := by
  simp [components]

theorem components_single (plain : sep ∉ name) (some : name ≠ []) : components sep name = [name] := by
  rw [components, List.splitOn_eq_singleton plain]
  simp [some]

theorem components_append_cons (plain : sep ∉ name) :
    components sep (name ++ sep :: rest) = (if name = [] then [] else [name]) ++ components sep rest := by
  rw [components, List.splitOn_append_cons_self_of_not_mem plain, List.filter_cons, components]
  by_cases empty : name = [] <;> simp [empty]

@[simp] theorem components_cons : components sep (sep :: rest) = components sep rest := by
  have plain : sep ∉ ([] : List α) := List.not_mem_nil
  simpa using components_append_cons plain

theorem first_append_remaining : first sep path ++ remaining sep path = path := List.takeWhile_append_dropWhile

theorem not_mem_first (sep : α) (path : List α) : sep ∉ first sep path := by
  intro mem
  have other := List.mem_takeWhile_imp mem
  simp at other

theorem components_append_remaining (path : List α) (plain : sep ∉ name) : components sep (name ++ remaining sep path) =
      (if name = [] then [] else [name]) ++ components sep (remaining sep path) := by
  cases tail : remaining sep path with
  | nil =>
    by_cases empty : name = []
    · simp [empty]
    · simp [empty, components_single plain empty]
  | cons c rest =>
    have separator : c = sep := by
      have stop := List.head?_dropWhile_not (fun a => decide (a ≠ sep)) path
      rw [remaining] at tail
      rw [tail] at stop
      simpa using stop
    rw [separator, components_append_cons plain, components_cons]

theorem splitOn_clean (path : List α) : ∀ name ∈ path.splitOn sep, sep ∉ name := by
  induction size : path.length using Nat.strongRecOn generalizing path with
  | ind n ih =>
    by_cases separated : sep ∈ path
    · obtain ⟨t, rest, rfl, clean⟩ := List.eq_append_cons_of_mem separated
      have shorter : rest.length < n := by
        rw [← size, List.length_append, List.length_cons]
        omega
      rw [List.splitOn_append_cons_self_of_not_mem clean]
      exact List.forall_mem_cons.mpr ⟨clean, ih rest.length shorter rest rfl⟩
    · rw [List.splitOn_eq_singleton separated]
      exact List.forall_mem_cons.mpr ⟨separated, fun u member => absurd member List.not_mem_nil⟩

theorem mem_components (mem : name ∈ components sep path) : name ≠ [] ∧ sep ∉ name := by
  obtain ⟨split, some⟩ := List.mem_filter.mp mem
  exact ⟨of_decide_eq_true some, splitOn_clean _ _ split⟩

theorem components_flatMap (plain : sep ∉ name) (names_ok : ∀ other ∈ names, other ≠ [] ∧ sep ∉ other) :
    components sep (name ++ names.flatMap (sep :: ·)) = (if name = [] then [] else [name]) ++ names := by
  induction names generalizing name with
  | nil =>
    by_cases empty : name = []
    · simp [empty]
    · simp [empty, components_single plain empty]
  | cons first names ih =>
    obtain ⟨some, first_plain⟩ := names_ok first List.mem_cons_self
    have later : ∀ other ∈ names, other ≠ [] ∧ sep ∉ other := fun other mem =>
      names_ok other (List.mem_cons_of_mem _ mem)
    have tail := ih first_plain later
    rw [if_neg some] at tail
    rw [List.flatMap_cons, List.cons_append, components_append_cons plain, tail, List.singleton_append]

variable {names' : List (List α)}

theorem mem_of_below {other : List α} (step : below dot names name = some names')
    (mem : other ∈ names') : other ∈ names ∨ other = name := by
  rw [below] at step
  split at step
  · cases step
    exact .inl mem
  · split at step
    · split at step
      · cases step
      · cases step
        exact .inl ((List.dropLast_sublist _).subset mem)
    · cases step
      rw [List.mem_append, List.mem_singleton] at mem
      exact mem

variable {start found : List (List α)}

theorem mem_of_foldlM (resolved : names.foldlM (below dot) start = some found) :
    ∀ name ∈ found, name ∈ start ∨ name ∈ names := by
  induction names generalizing start with
  | nil =>
    cases resolved
    exact fun name mem => .inl mem
  | cons first names ih =>
    rw [List.foldlM_cons] at resolved
    obtain ⟨next, step, later⟩ := Option.bind_eq_some_iff.mp resolved
    intro name mem
    cases ih later name mem with
    | inl old =>
      cases mem_of_below step old with
      | inl start => exact .inl start
      | inr new => exact .inr (new ▸ List.mem_cons_self)
    | inr new => exact .inr (List.mem_cons_of_mem _ new)

theorem mem_resolve (resolved : resolve sep dot path = some found) :
    ∀ name ∈ found, name ≠ [] ∧ sep ∉ name := by
  intro name mem
  cases mem_of_foldlM resolved name mem with
  | inl start => exact absurd start List.not_mem_nil
  | inr new => exact mem_components new

theorem below_append (base : List (List α)) (step : below dot names name = some names') :
    below dot (base ++ names) name = some (base ++ names') := by
  rw [below] at step ⊢
  split at step
  · next here =>
    cases step
    rw [if_pos here]
  · next ahead =>
    rw [if_neg ahead]
    split at step
    · next up =>
      rw [if_pos up]
      split at step
      · cases step
      · next some =>
        cases step
        rw [if_neg (by simp [some]), List.dropLast_append_of_ne_nil some]
    · next down =>
      cases step
      rw [if_neg down, List.append_assoc]

theorem foldlM_append (base : List (List α))
    (resolved : names.foldlM (below dot) start = some found) :
    names.foldlM (below dot) (base ++ start) = some (base ++ found) := by
  induction names generalizing start with
  | nil =>
    cases resolved
    rfl
  | cons first names ih =>
    rw [List.foldlM_cons] at resolved ⊢
    obtain ⟨next, step, later⟩ := Option.bind_eq_some_iff.mp resolved
    rw [below_append base step]
    exact ih later

theorem step_of_below {rooted : Bool} (step : below dot names name = some names') :
    Place.step dot ⟨rooted, names⟩ name = ⟨rooted, names'⟩ := by
  rw [below] at step
  rw [Place.step]
  split at step
  · next here =>
    cases step
    rw [if_pos here]
  · next ahead =>
    rw [if_neg ahead]
    split at step
    · next up =>
      rw [if_pos up]
      split at step
      · cases step
      · next some =>
        cases step
        rw [Place.up, if_neg some]
    · next down =>
      cases step
      rw [if_neg down, Place.down]

theorem walk_of_foldlM {rooted : Bool}
    (resolved : names.foldlM (below dot) start = some found) :
    Place.walk dot ⟨rooted, start⟩ names = ⟨rooted, found⟩ := by
  induction names generalizing start with
  | nil =>
    cases resolved
    rfl
  | cons first names ih =>
    rw [List.foldlM_cons] at resolved
    obtain ⟨next, step, later⟩ := Option.bind_eq_some_iff.mp resolved
    rw [Place.walk, List.foldl_cons, step_of_below step]
    exact ih later

omit [DecidableEq α] in
theorem ordinary_append (ordinary : ¬ name <+: [dot, dot]) (more : List α) :
    name ++ more ≠ [dot] ∧ name ++ more ≠ [dot, dot] := by
  have start : name <+: name ++ more := List.prefix_append name more
  constructor
  · intro same
    rw [same] at start
    exact ordinary (start.trans ⟨[dot], rfl⟩)
  · intro same
    rw [same] at start
    exact ordinary start

theorem step_dot (place : Place α) : place.step dot [dot] = place := by
  simp [Place.step]

theorem step_dots (place : Place α) : place.step dot [dot, dot] = place.up := by
  simp [Place.step]

theorem step_down (one : name ≠ [dot]) (two : name ≠ [dot, dot]) : place.step dot name = place.down name := by
  rw [Place.step, if_neg one, if_neg two]

theorem resolve_of_stays (stays : Stays sep dot path)
    (resolved : resolve sep dot (remaining sep path) = some found) :
    resolve sep dot path = some ((if first sep path = [] then [] else [first sep path]) ++ found) := by
  obtain ⟨one, two, -⟩ := stays
  have split := components_append_remaining path (not_mem_first sep path)
  rw [first_append_remaining] at split
  rw [resolve, split]
  by_cases empty : first sep path = []
  · rw [if_pos empty]
    exact resolved
  · rw [if_neg empty, List.singleton_append, List.foldlM_cons]
    have into : below dot [] (first sep path) = some [first sep path] := by
      rw [below, if_neg one, if_neg two, List.nil_append]
    rw [into]
    exact foldlM_append [first sep path] resolved

theorem walk_of_stays (plain : sep ∉ name) (ordinary : ¬ name <+: [dot, dot])
    (resolved : resolve sep dot (remaining sep path) = some found) :
    Place.walk dot ⟨true, []⟩ (components sep (name ++ path)) = ⟨true, (name ++ first sep path) :: found⟩ := by
  have joined : sep ∉ name ++ first sep path := by
    rw [List.mem_append, not_or]
    exact ⟨plain, not_mem_first sep path⟩
  have some : name ++ first sep path ≠ [] := by
    intro empty
    rw [List.append_eq_nil_iff] at empty
    exact ordinary (empty.1 ▸ List.nil_prefix)
  have split := components_append_remaining path joined
  rw [List.append_assoc, first_append_remaining, if_neg some] at split
  obtain ⟨one, two⟩ := ordinary_append ordinary (first sep path)
  rw [split, Place.walk, List.singleton_append, List.foldl_cons, step_down one two, Place.down]
  exact walk_of_foldlM (foldlM_append [name ++ first sep path] resolved)

omit [DecidableEq α] in
theorem cons_flatMap (sep : α) (names : List (List α)) :
    sep :: names.flatMap (· ++ [sep]) = names.flatMap (sep :: ·) ++ [sep] := by
  induction names with
  | nil => rfl
  | cons name names ih => simp [List.flatMap_cons, ← ih]

omit [DecidableEq α] in
theorem opened_eq_text (some : place.names ≠ []) : place.opened sep = place.text sep ++ [sep] := by
  have all := cons_flatMap sep place.names
  rw [Place.opened, Place.text]
  cases place.rooted with
  | true => exact all
  | false =>
    have tail := congrArg List.tail all
    have more : place.names.flatMap (sep :: ·) ≠ [] := by
      obtain ⟨name, names, eq⟩ := List.exists_cons_of_ne_nil some
      simp [eq]
    rw [List.tail_cons, List.tail_append_of_ne_nil more] at tail
    exact tail

omit [DecidableEq α] in
theorem opened_down (sep : α) (place : Place α) (name : List α) :
    (place.down name).opened sep = place.opened sep ++ name ++ [sep] := by
  simp only [Place.opened, Place.down, List.flatMap_append, List.flatMap_singleton, List.append_assoc]
  rfl

omit [DecidableEq α] in
theorem text_down (sep : α) (place : Place α) (name : List α) :
    (place.down name).text sep = place.opened sep ++ name := by
  have all := opened_down sep place name
  rw [opened_eq_text (by simp [Place.down])] at all
  exact List.append_cancel_right all

def strip (sep : α) (out : List α) : List α := if out.getLast? = some sep then out.dropLast else out

theorem strip_opened (place : Place α) : strip sep (place.opened sep) = place.text sep := by
  by_cases empty : place.names = []
  · rw [strip, Place.opened, Place.text, empty]
    cases place.rooted <;> simp
  · rw [opened_eq_text empty, strip, if_pos (by simp), List.dropLast_concat]

theorem strip_name (plain : sep ∉ name) (some : name ≠ []) :
    strip sep (place.opened sep ++ name) = (place.down name).text sep := by
  rw [text_down, strip, if_neg]
  rw [List.getLast?_append_of_ne_nil _ some]
  intro last
  exact plain (List.mem_of_getLast? last)

def backward (sep : α) (out : List α) : List α := (out.dropLast.reverse.dropWhile (· ≠ sep)).reverse

omit [DecidableEq α] in
theorem opened_getLast? (sep : α) (place : Place α) :
    place.opened sep = [] ∨ ∃ start, place.opened sep = start ++ [sep] := by
  by_cases empty : place.names = []
  · rw [Place.opened, empty]
    cases place.rooted with
    | true => exact .inr ⟨[], rfl⟩
    | false => exact .inl rfl
  · exact .inr ⟨_, opened_eq_text empty⟩

theorem backward_opened (plain : ∀ name ∈ place.names, sep ∉ name) :
    backward sep (place.opened sep) = place.up.opened sep := by
  rw [Place.up]
  by_cases empty : place.names = []
  · rw [if_pos empty, backward, Place.opened, empty]
    cases place.rooted <;> simp [Place.opened]
  · rw [if_neg empty]
    let before : Place α := ⟨place.rooted, place.names.dropLast⟩
    let last := place.names.getLast empty
    have split : place = before.down last := by
      rw [Place.down, List.dropLast_concat_getLast]
    have plain_last : sep ∉ last := plain last (List.getLast_mem empty)
    have spent : last.reverse.dropWhile (· ≠ sep) = [] := by
      rw [List.dropWhile_eq_nil_iff]
      intro a mem
      rw [List.mem_reverse] at mem
      exact decide_eq_true fun same => plain_last (same ▸ mem)
    have eq : backward sep (place.opened sep) = backward sep ((before.down last).opened sep) := by
      rw [← split]
    rw [eq, opened_down, backward, List.dropLast_concat, List.reverse_append, List.dropWhile_append, spent]
    change ((before.opened sep).reverse.dropWhile (· ≠ sep)).reverse = before.opened sep
    obtain none | ⟨start, ends⟩ := opened_getLast? sep before
    · rw [none]
      rfl
    · rw [ends]
      simp

end

end Cboot.Lib.Paths
