import Cboot.Extlinux.Sections
import Cboot.Extlinux.Values

/-!
The entries of a configuration, from its lines as they are meant: a comment is left out, and a key ends where its line
does or a blank follows.
-/

namespace Cboot.Extlinux
open Lib

def trim (t : Text) : Text := ((t.dropWhile isspace).reverse.dropWhile isspace).reverse

def stripped (line : Text) : Text := trim (line.takeWhile (· ≠ 35))

def HasKey (line key : Text) : Prop := key <+: stripped line ∧ ∀ c ∈ ((stripped line).drop key.length).head?, isspace c = true

instance (line key : Text) : Decidable (HasKey line key) := inferInstanceAs (Decidable (_ ∧ _))

def keyed (line : Text) : Option (Key × Text) :=
  (keys.find? fun row => HasKey line row.1).map fun row => (row.2, ((stripped line).drop row.1.length).dropWhile isspace)

def valueOf (key : Key) (line : Text) : Option Text := (keyed line).bind fun d => if d.1 = key then some d.2 else none

structure Entry where
  label : Text
  lines : List Text

def entriesOf : List Text → List Entry
  | [] => []
  | line :: lines =>
    match valueOf .label line with
    | none => entriesOf lines
    | some label => ⟨label, lines.takeWhile fun other => valueOf .label other = none⟩ :: entriesOf lines

def lastValue (key : Key) (lines : List Text) : Option Text := (lines.filterMap (valueOf key)).getLast?

def sectionOf (entry : Entry) : BootSection where
  label := some entry.label
  menuLabel := lastValue .menuLabel entry.lines
  linuxPath := lastValue .linux entry.lines
  dtbPath := lastValue .fdt entry.lines
  initrdPath := lastValue .initrd entry.lines
  bootArgs := lastValue .append entry.lines

def Key.isGlobal : Key → Bool
  | .timeout | .default | .menuTitle | .label => true
  | _ => false

/-- The key that a line is taken for, `started` when there is a section. -/
def takenOf (started : Bool) (line : Text) : Option (Key × Text) :=
  (directive line).filter fun d => started || d.1.isGlobal

def behindKey (line : Text) : UInt8 :=
  let str := removeWhitespaceAndComment line
  ((keys.find? fun row => row.1.isPrefixOf str).map fun row => (str.drop row.1.length).headD 0).getD 0

def EndsKey (c : UInt8) : Prop := c = 0 ∨ isspace c = true

def KeysEnd : Bool → List Text → Prop
  | _, [] => True
  | started, line :: lines =>
    ((takenOf started line).isSome → EndsKey (behindKey line)) ∧ KeysEnd (started || (labelOf line).isSome) lines

def Values.started (v : Values) : Bool := decide (v.sections ≠ [])

section
variable {line t : Text} {lines : List Text} {memory : Nat → Bool} {v w : Values} {started : Bool} {key : Key} {value : Text}

theorem takeWhile_dropWhile_comment (line : Text) :
    (line.takeWhile (· ≠ 35)).dropWhile isspace = (line.dropWhile isspace).takeWhile (· ≠ 35) := by
  induction line with
  | nil => rfl
  | cons c line ih =>
    by_cases mark : c = 35
    · subst mark
      rfl
    · rw [List.takeWhile_cons, if_pos (by simpa using mark)]
      cases space : isspace c with
      | true =>
        rw [List.dropWhile_cons, if_pos space, List.dropWhile_cons, if_pos space]
        exact ih
      | false =>
        rw [List.dropWhile_cons, space, List.dropWhile_cons, space]
        simp [mark]

theorem removeWhitespaceAndComment_eq (line : Text) : removeWhitespaceAndComment line =
    if line.dropWhile isspace = [] then line.take 1 else stripped line := by
  unfold removeWhitespaceAndComment stripped trim
  rw [takeWhile_dropWhile_comment]
  cases line.dropWhile isspace with
  | nil => rfl
  | cons c rest => rw [if_neg (List.cons_ne_nil c rest)]

theorem keys_solid : ∀ row ∈ keys, ∃ c ∈ row.1.head?, isspace c = false := by decide

theorem keys_apart : ∀ row ∈ keys, ∀ other ∈ keys, row.1 <+: other.1 → row = other := by decide

theorem not_key_blank {row : Text × Key} (member : row ∈ keys) (blank : ∀ c ∈ t, isspace c = true) : ¬ row.1 <+: t := by
  rintro ⟨rest, rfl⟩
  obtain ⟨c, head, solid⟩ := keys_solid row member
  have space := blank c (List.mem_append_left rest (List.mem_of_mem_head? head))
  rw [solid] at space
  cases space

theorem stripped_cases (line : Text) : removeWhitespaceAndComment line = stripped line ∨
    ∀ row ∈ keys, ¬ row.1 <+: removeWhitespaceAndComment line ∧ ¬ row.1 <+: stripped line := by
  rw [removeWhitespaceAndComment_eq]
  by_cases empty : line.dropWhile isspace = []
  · rw [if_pos empty]
    have blank : ∀ c ∈ line, isspace c = true := List.dropWhile_eq_nil_iff.mp empty
    have none : stripped line = [] := by
      unfold stripped trim
      rw [takeWhile_dropWhile_comment, empty]
      rfl
    refine .inr fun row member => ⟨not_key_blank member fun c inside => blank c (List.mem_of_mem_take inside), ?_⟩
    rw [none]
    exact not_key_blank member nofun
  · rw [if_neg empty]
    exact .inl rfl

theorem unique_key {row other : Text × Key} (member : row ∈ keys) (member' : other ∈ keys) (start : row.1 <+: t)
    (start' : other.1 <+: t) : row = other := by
  rcases List.prefix_or_prefix_of_prefix start start' with shorter | longer
  · exact keys_apart row member other member' shorter
  · exact (keys_apart other member' row member longer).symm

theorem find?_eq_of_unique {α : Type} {p : α → Bool} {l : List α} {x : α} (member : x ∈ l) (holds : p x = true)
    (unique : ∀ y ∈ l, p y = true → y = x) : l.find? p = some x := by
  cases found : l.find? p with
  | none => exact absurd holds (List.find?_eq_none.mp found x member)
  | some y => rw [unique y (List.mem_of_find?_eq_some found) (List.find?_some found)]

theorem takenOf_eq (clean : 0 ∉ line) (ends : (takenOf started line).isSome → EndsKey (behindKey line)) :
    takenOf started line = (keyed line).filter fun d => started || d.1.isGlobal := by
  unfold takenOf behindKey directive at *
  unfold keyed
  rcases stripped_cases line with same | blank
  · have inside : 0 ∉ stripped line := fun zero => clean (InPlace.mem_remove (same ▸ zero))
    rw [same] at ends ⊢
    dsimp only at ends ⊢
    cases found : keys.find? fun row => row.1.isPrefixOf (stripped line) with
    | none =>
      have absent : (keys.find? fun row => HasKey line row.1) = none := by
        refine List.find?_eq_none.mpr fun row member has => ?_
        have start := (of_decide_eq_true has).1
        exact List.find?_eq_none.mp found row member (List.isPrefixOf_iff_prefix.mpr start)
      rw [absent]
    | some row =>
      have member := List.mem_of_find?_eq_some found
      have start : row.1 <+: stripped line := by
        have first := List.find?_some found
        exact List.isPrefixOf_iff_prefix.mp first
      have unique : ∀ other ∈ keys, decide (HasKey line other.1) = true → other = row := fun other member' has =>
        unique_key member' member (of_decide_eq_true has).1 start
      by_cases has : HasKey line row.1
      · rw [find?_eq_of_unique member (decide_eq_true has) unique]
      · have absent : (keys.find? fun row => HasKey line row.1) = none := by
          refine List.find?_eq_none.mpr fun other member' has' => has ?_
          rw [← unique other member' has']
          exact of_decide_eq_true has'
        have ignored : (started || row.2.isGlobal) = false := by
          by_contra taken
          have taken : (started || row.2.isGlobal) = true := Bool.eq_true_of_not_eq_false taken
          have ended := ends (by rw [found]; simpa using taken)
          rw [found] at ended
          refine has ⟨start, fun c head => ?_⟩
          have listed : c ∈ stripped line := List.mem_of_mem_drop (List.mem_of_mem_head? head)
          have byte : ((stripped line).drop row.1.length).headD 0 = c := by
            rw [List.headD_eq_head?_getD, Option.mem_def.mp head, Option.getD_some]
          rw [Option.map_some, Option.getD_some, byte] at ended
          exact ended.resolve_left fun zero => inside (zero ▸ listed)
        rw [absent, Option.map_some, Option.filter_some, ignored]
        rfl
  · have absent : (keys.find? fun row => HasKey line row.1) = none :=
      List.find?_eq_none.mpr fun row member has => (blank row member).2 (of_decide_eq_true has).1
    have untaken : (keys.find? fun row => row.1.isPrefixOf (removeWhitespaceAndComment line)) = none :=
      List.find?_eq_none.mpr fun row member first => (blank row member).1 (List.isPrefixOf_iff_prefix.mp first)
    dsimp only
    rw [absent, untaken]
    rfl

theorem find_keys (v : Values) (p : Text × Key → Bool) :
    v.keys.find? p = (keys.find? p).filter fun row => v.started || row.2.isGlobal := by
  have global : ∀ row ∈ keys.take 4, row.2.isGlobal = true := by decide
  have local' : ∀ row ∈ keys.drop 4, row.2.isGlobal = false := by decide
  unfold Values.keys Values.started
  by_cases none : v.sections = []
  · have split : keys.find? p = ((keys.take 4).find? p).or ((keys.drop 4).find? p) := by
      rw [← List.find?_append, List.take_append_drop]
    rw [if_pos none, split]
    simp only [none, ne_eq, not_true_eq_false, decide_false, Bool.false_or]
    cases first : (keys.take 4).find? p with
    | some row => rw [Option.some_or, Option.filter_some, if_pos (global row (List.mem_of_find?_eq_some first))]
    | none =>
      cases later : (keys.drop 4).find? p with
      | some row =>
        rw [Option.none_or, Option.filter_some, local' row (List.mem_of_find?_eq_some later)]
        rfl
      | none => rfl
  · rw [if_neg none]
    cases keys.find? p with
    | none => rfl
    | some row => rw [Option.filter_some, decide_eq_true none, Bool.true_or, if_pos rfl]

theorem line_none (none : takenOf v.started line = none) (memory : Nat → Bool) : v.line memory line = .next v := by
  unfold takenOf directive at none
  unfold Values.line
  dsimp only at none ⊢
  rw [find_keys]
  cases found : keys.find? fun row => row.1.isPrefixOf (removeWhitespaceAndComment line) with
  | none => rfl
  | some row =>
    rw [found, Option.map_some, Option.filter_some] at none
    rw [Option.filter_some]
    split at none
    · cases none
    · rename_i other
      rw [if_neg other]

theorem line_some (taken : takenOf v.started line = some (key, value)) (memory : Nat → Bool) : v.line memory line =
    { v with taken := v.taken ++ [(key, behindKey line)] }.take memory key value := by
  unfold takenOf directive at taken
  unfold Values.line behindKey
  dsimp only at taken ⊢
  rw [find_keys]
  cases found : keys.find? fun row => row.1.isPrefixOf (removeWhitespaceAndComment line) with
  | none =>
    rw [found] at taken
    cases taken
  | some row =>
    rw [found, Option.map_some, Option.filter_some] at taken
    rw [Option.filter_some]
    split at taken
    · rename_i looked
      cases taken
      rw [if_pos looked]
      rfl
    · cases taken

theorem labelOf_eq (started : Bool) (line : Text) :
    labelOf line = (takenOf started line).bind fun d => if d.1 = .label then some d.2 else none := by
  unfold labelOf takenOf
  cases directive line with
  | none => rfl
  | some d =>
    obtain ⟨key, value⟩ := d
    cases key <;> cases started <;> rfl

theorem defaultOf_eq (started : Bool) (line : Text) :
    defaultOf line = (takenOf started line).bind fun d => if d.1 = .default then some d.2 else none := by
  unfold defaultOf takenOf
  cases directive line with
  | none => rfl
  | some d =>
    obtain ⟨key, value⟩ := d
    cases key <;> cases started <;> rfl

structure Sets (v w : Values) (key : Key) (value : Text) : Prop where
  sections : w.sections = v.sections.modify (v.sections.length - 1) fun entry => entry.set key value
  default : w.defaultBoot = if key = .default then some value else v.defaultBoot
  taken : w.taken = v.taken

theorem modify_self {α : Type} (xs : List α) (i : Nat) : (xs.modify i fun x => x) = xs := List.modify_id i xs

theorem set_global (entry : BootSection) (global : key.isGlobal = true) (value : Text) : entry.set key value = entry := by
  cases key <;> first | rfl | cases global

theorem take_other (other : key ≠ .label) (v : Values) (memory : Nat → Bool) (value : Text) :
    ∃ w, v.take memory key value = .next w ∧ Sets v w key value := by
  have same (key : Key) (global : key.isGlobal = true) :
      v.sections = v.sections.modify (v.sections.length - 1) fun entry => entry.set key value := by
    simp only [set_global _ global, modify_self]
  cases key with
  | label => exact absurd rfl other
  | timeout => exact ⟨_, rfl, same .timeout rfl, rfl, rfl⟩
  | default => exact ⟨_, rfl, same .default rfl, rfl, rfl⟩
  | menuTitle => exact ⟨_, rfl, same .menuTitle rfl, rfl, rfl⟩
  | menuLabel | linux | initrd | fdt | append => exact ⟨_, rfl, rfl, rfl, rfl⟩

inductive Line (memory : Nat → Bool) (v : Values) (line : Text) : Pass Values Stop → Prop
  | none (untaken : takenOf v.started line = none) : Line memory v line (.next v)
  | beyond (value : Text) (taken : takenOf v.started line = some (.label, value))
      (many : confSections ≤ v.sections.length) : Line memory v line (.leave .beyond)
  | denied (value : Text) (taken : takenOf v.started line = some (.label, value))
      (few : ¬ confSections ≤ v.sections.length) (refused : ¬ memory v.sections.length = true) :
      Line memory v line (.leave .noMemory)
  | label (value : Text) (taken : takenOf v.started line = some (.label, value))
      (few : ¬ confSections ≤ v.sections.length) (given : memory v.sections.length = true) : Line memory v line (.next
        { v with
          sections := v.sections ++ [{ label := some value }]
          taken := v.taken ++ [(.label, behindKey line)] })
  | set (key : Key) (value : Text) (taken : takenOf v.started line = some (key, value)) (other : key ≠ .label) (w : Values)
      (sets : Sets { v with taken := v.taken ++ [(key, behindKey line)] } w key value) : Line memory v line (.next w)

theorem line_cases (memory : Nat → Bool) (v : Values) (line : Text) : Line memory v line (v.line memory line) := by
  cases taken : takenOf v.started line with
  | none =>
    rw [line_none taken]
    exact .none taken
  | some d =>
    obtain ⟨key, value⟩ := d
    rw [line_some taken]
    by_cases label : key = .label
    · subst label
      unfold Values.take
      dsimp only
      split
      · rename_i many
        exact .beyond value taken many
      · rename_i few
        split
        · rename_i given
          exact .label value taken few given
        · rename_i refused
          exact .denied value taken few refused
    · obtain ⟨w, next, sets⟩ := take_other label { v with taken := v.taken ++ [(key, behindKey line)] } memory value
      rw [next]
      exact .set key value taken label w sets

theorem labelOf_of_taken (taken : takenOf started line = some (key, value)) :
    labelOf line = if key = .label then some value else none := by
  rw [labelOf_eq started, taken]
  rfl

theorem labelOf_of_untaken (untaken : takenOf started line = none) : labelOf line = none := by
  rw [labelOf_eq started, untaken]
  rfl

theorem Sets.length (sets : Sets v w key value) : w.sections.length = v.sections.length := by
  rw [sets.sections, List.length_modify]

theorem Sets.started_eq (sets : Sets v w key value) : w.started = v.started := by
  refine decide_eq_decide.mpr ?_
  rw [← List.length_pos_iff, sets.length, List.length_pos_iff]

theorem Sets.labels (sets : Sets v w key value) : w.sections.map (·.label) = v.sections.map (·.label) := by
  rw [sets.sections]
  generalize v.sections.length - 1 = i
  induction v.sections generalizing i with
  | nil => simp
  | cons entry entries ih =>
    cases i with
    | zero => simp [label_set]
    | succ i => simp [ih]

inductive Counts : Pass Values Stop → Scan → Prop
  | entries {w : Values} {labels : List Text} (same : w.sections.map (·.label) = labels.map some) :
      Counts (.next w) (.entries labels)
  | overflow : Counts (.leave .beyond) .overflow
  | denied (j : Nat) : Counts (.leave .noMemory) (.denied j)

theorem lines_scan {labels : List Text} (same : v.sections.map (·.label) = labels.map some) (memory : Nat → Bool)
    (lines : List Text) : Counts (v.lines memory lines) (scan memory lines labels) := by
  induction lines generalizing v labels with
  | nil => exact .entries same
  | cons line lines ih =>
    have length : v.sections.length = labels.length := by
      have lengths := congrArg List.length same
      rwa [List.length_map, List.length_map] at lengths
    have step := line_cases memory v line
    rw [Values.lines, scan]
    generalize v.line memory line = pass at step ⊢
    cases step with
    | none untaken =>
      rw [labelOf_of_untaken untaken]
      exact ih same
    | beyond value taken many =>
      rw [labelOf_of_taken taken, if_pos rfl]
      dsimp only
      rw [if_pos (length ▸ many)]
      exact .overflow
    | denied value taken few refused =>
      rw [labelOf_of_taken taken, if_pos rfl]
      dsimp only
      rw [if_neg (length ▸ few), if_neg (length ▸ refused)]
      exact .denied _
    | label value taken few given =>
      rw [labelOf_of_taken taken, if_pos rfl]
      dsimp only
      rw [if_neg (length ▸ few), if_pos (length ▸ given)]
      exact ih (by simp [same])
    | set key value taken other w sets =>
      rw [labelOf_of_taken taken, if_neg other]
      exact ih (sets.labels.trans same)

theorem lines_default (next : v.lines memory lines = .next w) : w.defaultBoot = lastDefault lines v.defaultBoot := by
  induction lines generalizing v with
  | nil =>
    cases next
    rfl
  | cons line lines ih =>
    have step := line_cases memory v line
    rw [Values.lines] at next
    rw [lastDefault, List.foldl_cons, defaultOf_eq v.started]
    generalize v.line memory line = pass at step next
    cases step with
    | none untaken =>
      rw [untaken]
      exact ih next
    | beyond value taken many => cases next
    | denied value taken few refused => cases next
    | label value taken few given =>
      have rest := ih next
      rw [taken]
      exact rest
    | set key value taken other w' sets =>
      have rest := ih next
      rw [sets.default] at rest
      rw [taken, rest]
      by_cases same : key = .default
      · simp [same, lastDefault]
      · simp [same, lastDefault]

theorem lines_taken (next : v.lines memory lines = .next w) : (∀ n ∈ w.taken, EndsKey n.2) ↔
    (∀ n ∈ v.taken, EndsKey n.2) ∧ KeysEnd v.started lines := by
  induction lines generalizing v with
  | nil =>
    cases next
    exact (and_iff_left trivial).symm
  | cons line lines ih =>
    have step := line_cases memory v line
    rw [Values.lines] at next
    rw [KeysEnd]
    generalize v.line memory line = pass at step next
    cases step with
    | none untaken =>
      rw [untaken, labelOf_of_untaken untaken, ih next]
      simp
    | beyond value taken many => cases next
    | denied value taken few refused => cases next
    | label value taken few given =>
      have begun : ({ v with
          sections := v.sections ++ [{ label := some value }]
          taken := v.taken ++ [(.label, behindKey line)] } : Values).started = true := by simp [Values.started]
      rw [Pass.next_andThen] at next
      rw [taken, labelOf_of_taken taken, if_pos rfl, ih next, begun]
      simp [or_imp, forall_and, and_assoc]
    | set key value taken other w' sets =>
      have same : w'.started = v.started := sets.started_eq
      rw [taken, labelOf_of_taken taken, if_neg other, ih next, same, sets.taken]
      simp [or_imp, forall_and, and_assoc]

theorem lastValue_cons (key : Key) (line : Text) (lines : List Text) :
    lastValue key (line :: lines) = (lastValue key lines).or (valueOf key line) := by
  unfold lastValue
  cases given : valueOf key line with
  | none => rw [List.filterMap_cons_none given, Option.or_none]
  | some value =>
    rw [List.filterMap_cons_some given, List.getLast?_cons]
    cases (lines.filterMap (valueOf key)).getLast? <;> rfl

theorem valueOf_of_taken (clean : 0 ∉ line) (ends : EndsKey (behindKey line))
    (taken : takenOf started line = some (key, value)) (other : Key) :
    valueOf other line = if key = other then some value else none := by
  rw [takenOf_eq clean fun _ => ends] at taken
  have keyed := (Option.filter_eq_some_iff.mp taken).1
  rw [valueOf, keyed]
  rfl

theorem valueOf_of_untaken (clean : 0 ∉ line) (untaken : takenOf started line = none) {key : Key}
    (looked : (started || key.isGlobal) = true) : valueOf key line = none := by
  rw [takenOf_eq clean fun taken => by rw [untaken] at taken; cases taken] at untaken
  cases given : keyed line with
  | none => rw [valueOf, given]; rfl
  | some d =>
    rw [given, Option.filter_some] at untaken
    rw [valueOf, given, Option.bind_some]
    split
    · rename_i same
      rw [same, if_pos looked] at untaken
      cases untaken
    · rfl

def fill (entry : BootSection) (lines : List Text) : BootSection where
  label := entry.label
  menuLabel := (lastValue .menuLabel lines).or entry.menuLabel
  linuxPath := (lastValue .linux lines).or entry.linuxPath
  dtbPath := (lastValue .fdt lines).or entry.dtbPath
  initrdPath := (lastValue .initrd lines).or entry.initrdPath
  bootArgs := (lastValue .append lines).or entry.bootArgs

theorem fill_nil (entry : BootSection) : fill entry [] = entry := rfl

theorem fill_label (label : Text) (lines : List Text) : fill { label := some label } lines = sectionOf ⟨label, lines⟩ := by
  simp [fill, sectionOf]

theorem fill_untaken (none : ∀ key, key.isGlobal = false → valueOf key line = none) (entry : BootSection)
    (lines : List Text) : fill entry (line :: lines) = fill entry lines := by
  simp [fill, lastValue_cons, none .menuLabel rfl, none .linux rfl, none .fdt rfl, none .initrd rfl, none .append rfl]

theorem fill_set (other : key ≠ .label) (taken : ∀ k, valueOf k line = if key = k then some value else none)
    (entry : BootSection) (lines : List Text) : fill (entry.set key value) lines = fill entry (line :: lines) := by
  cases key <;> simp [fill, BootSection.set, lastValue_cons, taken] at other ⊢

theorem entriesOf_none (none : valueOf .label line = none) (lines : List Text) :
    entriesOf (line :: lines) = entriesOf lines := by
  rw [entriesOf, none]

theorem entriesOf_some {label : Text} (some : valueOf .label line = some label) (lines : List Text) : entriesOf (line :: lines) =
    ⟨label, lines.takeWhile fun other => valueOf .label other = none⟩ :: entriesOf lines := by
  rw [entriesOf, some]

theorem modify_concat {α : Type} (f : α → α) (xs : List α) (x : α) : (xs ++ [x]).modify xs.length f = xs ++ [f x] := by
  induction xs with
  | nil => rfl
  | cons y xs ih => rw [List.cons_append, List.length_cons, List.modify_succ_cons, ih, List.cons_append]

theorem lines_sections (clean : ∀ line ∈ lines, 0 ∉ line) (ends : KeysEnd v.started lines)
    (next : v.lines memory lines = .next w) : w.sections = (v.sections.modify (v.sections.length - 1) fun entry =>
        fill entry (lines.takeWhile fun other => valueOf .label other = none)) ++ (entriesOf lines).map sectionOf := by
  induction lines generalizing v with
  | nil =>
    cases next
    simp only [List.takeWhile_nil, fill_nil, entriesOf, List.map_nil, List.append_nil, modify_self]
  | cons line lines ih =>
    have here := clean line List.mem_cons_self
    have later : ∀ other ∈ lines, 0 ∉ other := fun other member => clean other (List.mem_cons_of_mem line member)
    obtain ⟨first, rest⟩ := ends
    have step := line_cases memory v line
    rw [Values.lines] at next
    generalize v.line memory line = pass at step next
    cases step with
    | none untaken =>
      rw [labelOf_of_untaken untaken, Option.isSome_none, Bool.or_false] at rest
      have none : valueOf .label line = none := valueOf_of_untaken here untaken (by simp [Key.isGlobal])
      rw [entriesOf_none none, ih later rest next, List.takeWhile_cons, none]
      by_cases empty : v.sections = []
      · simp [empty]
      · have begun : v.started = true := decide_eq_true empty
        have fields : ∀ key, key.isGlobal = false → valueOf key line = Option.none := fun key _ =>
          valueOf_of_untaken here untaken (by rw [begun, Bool.true_or])
        simp [fill_untaken fields]
    | beyond value taken many => cases next
    | denied value taken few refused => cases next
    | label value taken few given =>
      have values := valueOf_of_taken here (first (by rw [taken]; rfl)) taken
      rw [labelOf_of_taken taken, if_pos rfl, Option.isSome_some, Bool.or_true] at rest
      have begun : ({ v with
          sections := v.sections ++ [{ label := some value }]
          taken := v.taken ++ [(.label, behindKey line)] } : Values).started = true := by simp [Values.started]
      have name : valueOf .label line = some value := values .label
      have sections := ih later (by rwa [begun]) next
      dsimp only at sections
      rw [List.length_append, List.length_singleton, Nat.add_sub_cancel, modify_concat, fill_label] at sections
      rw [entriesOf_some name, sections, List.takeWhile_cons, name]
      simp only [reduceCtorEq, decide_false, Bool.false_eq_true, if_false, fill_nil]
      rw [modify_self]
      simp
    | set key value taken other w' sets =>
      have values := valueOf_of_taken here (first (by rw [taken]; rfl)) taken
      have none : valueOf .label line = none := by rw [values, if_neg other]
      rw [labelOf_of_taken taken, if_neg other, Option.isSome_none, Bool.or_false] at rest
      have begun : w'.started = v.started := sets.started_eq
      have sections := ih later (by rwa [begun]) next
      rw [sets.length, sets.sections, List.modify_modify_eq] at sections
      rw [entriesOf_none none, sections, List.takeWhile_cons, none]
      simp only [decide_true, if_true]
      congr 2
      funext entry
      exact fill_set other values entry _

theorem lastValue_default (clean : ∀ line ∈ lines, 0 ∉ line) (ends : KeysEnd started lines) (before : Option Text) :
    lastDefault lines before = (lastValue .default lines).or before := by
  induction lines generalizing started before with
  | nil => rfl
  | cons line lines ih =>
    have here := clean line List.mem_cons_self
    obtain ⟨first, rest⟩ := ends
    have value : defaultOf line = valueOf .default line := by
      rw [defaultOf_eq started]
      cases taken : takenOf started line with
      | none => exact (valueOf_of_untaken here taken (by simp [Key.isGlobal])).symm
      | some d => exact (valueOf_of_taken here (first (by rw [taken]; rfl)) taken .default).symm
    rw [lastDefault, List.foldl_cons, value, lastValue_cons, Option.or_assoc]
    exact ih (fun other member => clean other (List.mem_cons_of_mem line member)) rest _

end

end Cboot.Extlinux
