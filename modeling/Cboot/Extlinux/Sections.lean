import Cboot.Extlinux.Model
import Cboot.Lib.Runs
import Cboot.Linuxboot.Model
import Mathlib.Data.List.Nodup
import Mathlib.Data.List.Range

/-!
A call frees as many sections as the last configuration that was parsed to its end has, and those are its own only when
it parsed one itself.
-/

namespace Cboot.Extlinux
open Lib

/-- Every section that was ever allocated has been freed once, no access went wrong, and where the kernel is
from the file system, ramdisk and arguments are of the section that its path is from. -/
structure Tidy (s : State) : Prop where
  once : ∀ b < s.blocks.length, s.frees.count b = 1
  sane : s.fault = none
  whole : s.kernelFromRootfs = true → ∃ entry ∈ s.blocks, s.kernelPath = entry.linuxPath ∧
    s.ramdiskPath = entry.initrdPath ∧ s.bootArgs = entry.bootArgs

structure Inv (s : State) : Prop where
  stale : ∀ i b, s.sections i = some b → b ∈ s.frees
  known : ∀ b ∈ s.frees, b < s.blocks.length
  few : s.numBootEntries ≤ confSections
  default : s.defaultBootEntry < confSections

def Call.lines (c : Call) : Option (List Text) :=
  if c.mounted && c.confMemory then
    (c.conf.filter fun conf => conf.length ≤ extlinuxConfMaxSize ∧ confLines conf ≠ []).map confLines
  else none

def labelOf (line : Text) : Option Text :=
  match directive line with
  | some (.label, value) => some value
  | _ => none

def defaultOf (line : Text) : Option Text :=
  match directive line with
  | some (.default, value) => some value
  | _ => none

def lastDefault (lines : List Text) (before : Option Text) : Option Text :=
  lines.foldl (fun found line => (defaultOf line).or found) before

/-- How the labels of the lines fare: there is no memory for one, they are too many, or these are they. -/
inductive Scan where
  | denied (j : Nat)
  | overflow
  | entries (labels : List Text)
  deriving DecidableEq

def scan (memory : Nat → Bool) : List Text → List Text → Scan
  | [], labels => .entries labels
  | line :: lines, labels =>
    match labelOf line with
    | none => scan memory lines labels
    | some value =>
      if confSections ≤ labels.length then .overflow
      else if memory labels.length then scan memory lines (labels ++ [value])
      else .denied labels.length

def Cleared (s : State) (n : Nat) : Prop := ∀ i, n ≤ i → i < s.numBootEntries → s.sections i = none

def Chosen (input : List UInt8) (default : Text) (labels : List Text) (s : State) : Prop :=
  (∃ ch ∈ input, 49 ≤ ch.toNat ∧ ch.toNat ≤ 48 + labels.length) ∨
    (∃ label ∈ labels, default.isPrefixOf label = true) ∨ s.defaultBootEntry < labels.length

/-- A call that does no harm: nothing is left to free or freed too early, and what is parsed names a default and a
section of its own. -/
def Harmless (s : State) (c : Call) : Prop :=
  match c.lines with
  | none => Cleared s 0
  | some lines =>
    match scan c.memory lines [] with
    | .overflow => False
    | .denied j => j ≤ s.numBootEntries ∧ Cleared s (j + 1)
    | .entries [] => Cleared s 0
    | .entries labels => ∃ default, lastDefault lines none = some default ∧ Chosen c.input default labels s

/-- The state `t` has, over `s`, new sections with these labels, and their pointers. -/
structure Built (s : State) (labels : List Text) (t : State) : Prop where
  size : t.blocks.length = s.blocks.length + labels.length
  label : ∀ i < labels.length, (t.blocks[s.blocks.length + i]?).map (·.label) = some labels[i]?
  sections : ∀ i, t.sections i = if i < labels.length then some (s.blocks.length + i) else s.sections i
  rest : t = { s with blocks := t.blocks, sections := t.sections, menuTitle := t.menuTitle }

section
variable {s t : State} {labels : List Text}

theorem built_nil (s : State) : Built s [] s :=
  ⟨rfl, by simp, fun i => by simp, rfl⟩

theorem Built.menuTitle (built : Built s labels t) (title : Option Text) :
    Built s labels { t with menuTitle := title } := by
  refine ⟨built.size, built.label, built.sections, ?_⟩
  rw [built.rest]

theorem Built.allocate (built : Built s labels t) (value : Text) :
    Built s (labels ++ [value]) (t.allocate labels.length value) := by
  have size := built.size
  refine ⟨?_, ?_, ?_, ?_⟩
  · simp [State.allocate, size, Nat.add_assoc]
  · intro i inside
    rw [List.length_append, List.length_singleton] at inside
    rcases Nat.lt_succ_iff_lt_or_eq.mp inside with old | rfl
    · have label := built.label i old
      have bound : s.blocks.length + i < t.blocks.length := by omega
      change ((t.blocks ++ [_])[s.blocks.length + i]?).map _ = _
      rw [List.getElem?_append_left bound, label, List.getElem?_append_left old]
    · change ((t.blocks ++ [_])[s.blocks.length + labels.length]?).map _ = _
      rw [← size, List.getElem?_concat_length, List.getElem?_concat_length]
      rfl
  · intro i
    change Function.update t.sections labels.length (some t.blocks.length) i = _
    rw [List.length_append, List.length_singleton]
    by_cases here : i = labels.length
    · subst here
      rw [Function.update_self, if_pos (Nat.lt_succ_self _), size]
    · rw [Function.update_of_ne here, built.sections]
      by_cases old : i < labels.length
      · rw [if_pos old, if_pos (by omega)]
      · rw [if_neg old, if_neg (by omega)]
  · rw [State.allocate, State.setSection]
    rw [built.rest]

theorem label_set (entry : BootSection) (key : Key) (value : Text) : (entry.set key value).label = entry.label := by
  cases key <;> rfl

theorem Built.set (built : Built s labels t) (b : Nat) (key : Key) (value : Text) :
    Built s labels { t with blocks := t.blocks.modify b fun old => old.set key value } := by
  refine ⟨?_, ?_, built.sections, ?_⟩
  · rw [List.length_modify, built.size]
  · intro i inside
    have label := built.label i inside
    rw [List.getElem?_modify, ← label]
    cases t.blocks[s.blocks.length + i]? with
    | none => rfl
    | some entry =>
      change some (if b = s.blocks.length + i then entry.set key value else entry).label = some entry.label
      split
      · rw [label_set]
      · rfl
  · rw [built.rest]

theorem Built.fresh (built : Built s labels t) (known : ∀ b ∈ s.frees, b < s.blocks.length) {i : Nat}
    (inside : i < labels.length) (few : labels.length ≤ confSections) : t.sectionAt i = some (s.blocks.length + i) := by
  have frees : t.frees = s.frees := by rw [built.rest]
  unfold State.sectionAt
  rw [if_neg (by omega), built.sections, if_pos inside, Option.bind_some, if_pos]
  refine ⟨by rw [built.size]; omega, fun freed => ?_⟩
  rw [frees] at freed
  have := known _ freed
  omega

inductive Parsed (s : State) : Scan → Option Text → Parse × State → Prop where
  | entries {labels d t} (few : labels.length ≤ confSections) (built : Built s labels t) :
      Parsed s (.entries labels) d (.done ⟨labels.length, d⟩, t)
  | denied {labels d t} (few : labels.length < confSections) (built : Built s labels t) :
      Parsed s (.denied labels.length) d (.noMemory, t.setSection labels.length none)
  | overflow {d t} : Parsed s .overflow d (.wrong .beyond, t)

theorem parsed_lines (memory : Nat → Bool) (known : ∀ b ∈ s.frees, b < s.blocks.length) (lines : List Text)
    (few : labels.length ≤ confSections) (built : Built s labels t) (d : Option Text) :
    Parsed s (scan memory lines labels) (lastDefault lines d) (parseLines memory lines ⟨labels.length, d⟩ t) := by
  induction lines generalizing labels t d with
  | nil => exact .entries few built
  | cons line lines ih =>
    have tail : lastDefault (line :: lines) d = lastDefault lines ((defaultOf line).or d) := rfl
    rw [tail]
    unfold scan parseLines parseLine labelOf defaultOf
    cases found : directive line with
    | none => exact ih few built d
    | some row =>
      obtain ⟨key, value⟩ := row
      cases key with
      | timeout => exact ih few built d
      | default => exact ih few built (some value)
      | menuTitle => exact ih few (built.menuTitle (some value)) d
      | label =>
        dsimp only
        by_cases full : confSections ≤ labels.length
        · rw [if_pos full, if_pos full]
          exact .overflow
        · rw [if_neg full, if_neg full]
          by_cases room : memory labels.length = true
          · rw [if_pos room, if_pos room]
            have next := ih (by rw [List.length_append, List.length_singleton]; omega) (built.allocate value) d
            rwa [List.length_append, List.length_singleton] at next
          · rw [if_neg room, if_neg room]
            exact .denied (by omega) built
      | menuLabel | linux | initrd | fdt | append =>
        dsimp only
        by_cases none : labels.length = 0
        · rw [if_pos none]
          exact ih few built d
        · rw [if_neg none, built.fresh known (by omega) few]
          exact ih few (built.set _ _ value) d

def pointers (s : State) (n : Nat) : List Nat := (List.range n).filterMap s.sections

theorem mem_pointers {n b : Nat} : b ∈ pointers t n ↔ ∃ i < n, t.sections i = some b := by
  simp [pointers]

theorem pointers_cleared {m n : Nat} (none : ∀ i, m ≤ i → i < n → t.sections i = none) (within : m ≤ n) :
    pointers t n = pointers t m := by
  obtain ⟨k, rfl⟩ := Nat.exists_eq_add_of_le within
  unfold pointers
  rw [List.range_add, List.filterMap_append, List.append_right_eq_self, List.filterMap_eq_nil_iff]
  intro i inside
  obtain ⟨l, bound, rfl⟩ := List.mem_map.mp inside
  exact none _ (by omega) (by rw [List.mem_range] at bound; omega)

/-- `t` has `j` new sections over `s`, with their pointers first; the other pointers are to what was freed. -/
structure Pending (s t : State) (j : Nat) : Prop where
  size : t.blocks.length = s.blocks.length + j
  new : ∀ i < j, t.sections i = some (s.blocks.length + i)
  old : ∀ i b, j ≤ i → t.sections i = some b → b ∈ s.frees
  frees : t.frees = s.frees

theorem Pending.count_new {j b : Nat} (pending : Pending s t j) (new : s.blocks.length ≤ b)
    (inside : b < s.blocks.length + j) : (pointers t j).count b = 1 := by
  have same : pointers t j = (List.range j).map (s.blocks.length + ·) := by
    unfold pointers
    rw [← List.filterMap_eq_map]
    refine List.filterMap_congr fun i bound => ?_
    exact pending.new i (List.mem_range.mp bound)
  have distinct : (pointers t j).Nodup := by
    rw [same]
    exact List.Nodup.map (fun _ _ => Nat.add_left_cancel) List.nodup_range
  refine List.count_eq_one_of_mem distinct ?_
  exact mem_pointers.mpr ⟨b - s.blocks.length, by omega, by rw [pending.new _ (by omega)]; congr 1; omega⟩

theorem Pending.once_iff {j n : Nat} (pending : Pending s t j) (tidy : Tidy s) (inv : Inv s) :
    (∀ b < t.blocks.length, (t.frees ++ pointers t n).count b = 1) ↔
      j ≤ n ∧ ∀ i, j ≤ i → i < n → t.sections i = none := by
  have unfreed : ∀ b, s.blocks.length ≤ b → s.frees.count b = 0 := by
    intro b new
    exact List.count_eq_zero.mpr fun freed => absurd (inv.known b freed) (by omega)
  rw [pending.size, pending.frees]
  constructor
  · intro once
    have all : j ≤ n := by
      by_contra short
      have missed := once (s.blocks.length + n) (by omega)
      rw [List.count_append, unfreed _ (by omega), Nat.zero_add] at missed
      have freed : s.blocks.length + n ∈ pointers t n := List.count_pos_iff.mp (by rw [missed]; exact Nat.one_pos)
      obtain ⟨i, bound, here⟩ := mem_pointers.mp freed
      rw [pending.new i (by omega)] at here
      have same := Option.some.inj here
      omega
    refine ⟨all, fun i after bound => ?_⟩
    cases here : t.sections i with
    | none => rfl
    | some b =>
      have freed := pending.old i b after here
      have known := inv.known b freed
      have twice := once b (by omega)
      have again : 0 < (pointers t n).count b := List.count_pos_iff.mpr (mem_pointers.mpr ⟨i, bound, here⟩)
      rw [List.count_append, tidy.once b known] at twice
      omega
  · rintro ⟨all, none⟩ b inside
    rw [pointers_cleared none all, List.count_append]
    by_cases old : b < s.blocks.length
    · have absent : (pointers t j).count b = 0 := by
        refine List.count_eq_zero.mpr fun member => ?_
        obtain ⟨i, bound, here⟩ := mem_pointers.mp member
        rw [pending.new i bound] at here
        cases here
        omega
      rw [tidy.once b old, absent]
    · rw [unfreed b (by omega), pending.count_new (by omega) inside]

theorem Built.pending (inv : Inv s) (built : Built s labels t) : Pending s t labels.length := by
  refine ⟨built.size, fun i inside => ?_, fun i b after here => ?_, by rw [built.rest]⟩
  · rw [built.sections, if_pos inside]
  · rw [built.sections, if_neg (by omega)] at here
    exact inv.stale i b here

variable {j : Nat}

theorem Pending.setSection (pending : Pending s t j) : Pending s (t.setSection j none) j := by
  refine ⟨pending.size, fun i inside => ?_, fun i b after here => ?_, pending.frees⟩
  · change Function.update t.sections j none i = _
    rw [Function.update_of_ne (by omega), pending.new i inside]
  · change Function.update t.sections j none i = _ at here
    by_cases same : i = j
    · rw [same, Function.update_self] at here
      cases here
    · rw [Function.update_of_ne same] at here
      exact pending.old i b after here

variable {c : Call}

theorem step_wrong {f : Fault} (wrong : extlinuxBootLoadKernelAndDtb c s = (.wrong f, t)) : ¬ Tidy (step s c) := by
  intro tidy
  have sane := tidy.sane
  unfold step at sane
  cases before : s.fault with
  | some f =>
    rw [before] at sane
    exact absurd (before.symm.trans sane) (by simp)
  | none =>
    rw [before, wrong] at sane
    cases sane

variable {path : Option Text}

theorem step_back (sane : s.fault = none)
    (back : extlinuxBootLoadKernelAndDtb c s = loadAndFree c path t) : step s c = (loadAndFree c path t).2 := by
  obtain ⟨u, here, plain⟩ : ∃ u, loadAndFree c path t = u ∧ (u.1 = .ok ∨ u.1 = .error) := by
    exact ⟨_, rfl, ite_eq_or_eq _ _ _⟩
  unfold step
  rw [sane, back, here]
  obtain ⟨result, u⟩ := u
  rcases plain with rfl | rfl <;> rfl

def Sourced (t : State) (path : Option Text) : Prop :=
  path = none ∨ ∃ entry ∈ t.blocks, path = entry.linuxPath ∧ t.ramdiskPath = entry.initrdPath ∧
    t.bootArgs = entry.bootArgs

theorem tidy_back (tidy : Tidy s) (inv : Inv s) (pending : Pending s t j)
    (sane : t.fault = none) (sourced : Sourced t path)
    (back : extlinuxBootLoadKernelAndDtb c s = loadAndFree c path t) :
    Tidy (step s c) ↔ j ≤ t.numBootEntries ∧ ∀ i, j ≤ i → i < t.numBootEntries → t.sections i = none := by
  rw [step_back tidy.sane back, ← pending.once_iff tidy inv]
  constructor
  · intro after
    exact after.once
  · intro once
    refine ⟨once, sane, fun fromRootfs => ?_⟩
    rcases sourced with rfl | entry
    · change (if c.bootImgAddr = true then c.kernel.run none else none).getD false = true at fromRootfs
      have path := c.kernel.noPath
      split at fromRootfs
      · cases given : c.kernel.run none with
        | none => simp [given] at fromRootfs
        | some flag =>
          rw [given] at fromRootfs path
          exact absurd (congrArg some fromRootfs) path
      · simp at fromRootfs
    · exact entry

theorem inv_back (inv : Inv s) (pending : Pending s t j) (all : j ≤ t.numBootEntries)
    (few : t.numBootEntries ≤ confSections) (default : t.defaultBootEntry < confSections) :
    Inv (loadAndFree c path t).2 := by
  refine ⟨fun i b here => ?_, fun b freed => ?_, few, default⟩
  · change b ∈ t.frees ++ pointers t t.numBootEntries
    by_cases new : i < j
    · exact List.mem_append_right _ (mem_pointers.mpr ⟨i, by omega, here⟩)
    · rw [pending.frees]
      exact List.mem_append_left _ (pending.old i b (by omega) here)
  · change b ∈ t.frees ++ pointers t t.numBootEntries at freed
    change b < t.blocks.length
    rw [pending.size]
    rcases List.mem_append.mp freed with old | freed
    · rw [pending.frees] at old
      have := inv.known b old
      omega
    · obtain ⟨i, -, here⟩ := mem_pointers.mp freed
      by_cases new : i < j
      · rw [pending.new i new] at here
        have same := Option.some.inj here
        omega
      · have := inv.known b (pending.old i b (by omega) here)
        omega

def Call.details (c : Call) (s : State) : Result × State :=
  if c.mounted then getBootDetails c s else (.error, s)

def Call.shown (c : Call) : Result × State → Result × State
  | (.ok, t) => displayBootMenu c t
  | stopped => stopped

theorem details_none (lines : c.lines = none) : c.details s = (.error, s) := by
  unfold Call.lines at lines
  unfold Call.details getBootDetails loadAndParseConfFile
  by_cases mounted : c.mounted = true
  · rw [if_pos mounted]
    by_cases memory : c.confMemory = true
    · rw [if_neg (by simp [memory])]
      rw [if_pos (by simp [mounted, memory])] at lines
      cases given : c.conf with
      | none => rfl
      | some conf =>
        dsimp only
        by_cases large : extlinuxConfMaxSize < conf.length
        · rw [if_pos large]
        · have empty : confLines conf = [] := by
            by_contra some
            rw [given, Option.filter_some, if_pos (by simp [some, Nat.not_lt.mp large])] at lines
            cases lines
          rw [if_neg large, parseConfFile, if_pos empty]
    · rw [if_pos (by simp [memory])]
  · rw [if_neg mounted]

theorem details_some {lines : List Text} (given : c.lines = some lines) :
    ∃ conf, confLines conf = lines ∧ lines ≠ [] ∧ c.details s = c.shown (parseConfFile c.memory conf s) := by
  unfold Call.lines at given
  split at given
  case isFalse => cases given
  case isTrue ready =>
    rw [Bool.and_eq_true] at ready
    obtain ⟨conf, kept, rfl⟩ := Option.map_eq_some_iff.mp given
    obtain ⟨here, fits⟩ := Option.filter_eq_some_iff.mp kept
    rw [decide_eq_true_eq] at fits
    refine ⟨conf, rfl, fits.2, ?_⟩
    unfold Call.details getBootDetails loadAndParseConfFile
    rw [if_pos ready.1, if_neg (by simp [ready.2]), here]
    dsimp only
    rw [if_neg (Nat.not_lt.mpr fits.1)]
    obtain ⟨result, t⟩ := parseConfFile c.memory conf s
    cases result <;> rfl

theorem mapM_getElem? {α : Type} (l : List α) (f : Nat → Option α) (each : ∀ i < l.length, f i = l[i]?) :
    (List.range l.length).mapM f = some l := by
  induction l using List.reverseRecOn with
  | nil => rfl
  | append_singleton l a ih =>
    rw [List.length_append, List.length_singleton] at each ⊢
    have before : (List.range l.length).mapM f = some l := by
      refine ih fun i inside => ?_
      rw [each i (by omega), List.getElem?_append_left inside]
    have last : f l.length = some a := by rw [each _ (Nat.lt_succ_self _), List.getElem?_concat_length]
    rw [List.range_succ, List.mapM_append, before]
    simp [last]

theorem Built.read (built : Built s labels t) (known : ∀ b ∈ s.frees, b < s.blocks.length) {i : Nat}
    (inside : i < labels.length) (few : labels.length ≤ confSections) : t.read i = t.blocks[s.blocks.length + i]? := by
  unfold State.read
  rw [built.fresh known inside few, Option.bind_some]

theorem Built.readAll (built : Built s labels t) (known : ∀ b ∈ s.frees, b < s.blocks.length)
    (few : labels.length ≤ confSections) :
    (List.range labels.length).mapM t.read = some (t.blocks.drop s.blocks.length) := by
  have length : (t.blocks.drop s.blocks.length).length = labels.length := by
    rw [List.length_drop, built.size, Nat.add_sub_cancel_left]
  rw [← length]
  refine mapM_getElem? _ _ fun i inside => ?_
  rw [List.getElem?_drop, built.read known (by omega) few]

theorem Built.map_label (built : Built s labels t) :
    (t.blocks.drop s.blocks.length).map (·.label) = labels.map some := by
  refine List.ext_getElem? fun i => ?_
  rw [List.getElem?_map, List.getElem?_drop, List.getElem?_map]
  by_cases inside : i < labels.length
  · rw [built.label i inside, List.getElem?_eq_getElem inside]
    rfl
  · rw [List.getElem?_eq_none (by rw [built.size]; omega), List.getElem?_eq_none (by omega)]
    rfl

theorem Built.not_live (built : Built s labels t) (inv : Inv s) {i : Nat} (outside : labels.length ≤ i) :
    t.read i = none := by
  have frees : t.frees = s.frees := by rw [built.rest]
  unfold State.read State.sectionAt
  rw [built.sections, if_neg (Nat.not_lt.mpr outside), frees]
  split
  · rfl
  · cases here : s.sections i with
    | none => rfl
    | some b =>
      have freed := inv.stale i b here
      simp [freed]

variable {default : Text}

theorem defaultEntry_fold {n before : Nat} (rows : List (Option Text × Nat))
    (inside : ∀ row ∈ rows, row.2 < n) :
    rows.foldl (fun entry row => if default.isPrefixOf (row.1.getD []) then row.2 else entry) before < n ↔
      (∃ row ∈ rows, default.isPrefixOf (row.1.getD []) = true) ∨ before < n := by
  induction rows generalizing before with
  | nil => simp
  | cons row rows ih =>
    have first := inside row (List.mem_cons_self ..)
    rw [List.foldl_cons, ih fun later member => inside later (List.mem_cons_of_mem _ member)]
    by_cases here : default <+: row.1.getD []
    · simp [here, first]
    · simp [here]

theorem defaultEntry_lt_length {labels : List Text} {before : Nat} :
    defaultEntry default (labels.map some) before < labels.length ↔
      (∃ label ∈ labels, default.isPrefixOf label = true) ∨ before < labels.length := by
  unfold defaultEntry
  rw [defaultEntry_fold]
  · refine or_congr_left ⟨?_, ?_⟩
    · rintro ⟨row, member, here⟩
      obtain ⟨label, listed, same⟩ := List.mem_map.mp (List.fst_mem_of_mem_zipIdx member)
      refine ⟨label, listed, ?_⟩
      rwa [← same] at here
    · rintro ⟨label, listed, here⟩
      obtain ⟨i, at_i⟩ := List.mem_iff_getElem?.mp (List.mem_map_of_mem (f := some) listed)
      exact ⟨(some label, i), List.mk_mem_zipIdx_iff_getElem?.mpr at_i, here⟩
  · intro row member
    have := List.snd_lt_of_mem_zipIdx member
    rw [List.length_map] at this
    omega

theorem menuChoice_lt {input : List UInt8} {n default : Nat} :
    menuChoice input n default < n ↔ (∃ ch ∈ input, 49 ≤ ch.toNat ∧ ch.toNat ≤ 48 + n) ∨ default < n := by
  unfold menuChoice
  cases found : input.find? fun ch => 49 ≤ ch.toNat ∧ ch.toNat ≤ 48 + n with
  | none =>
    have absent : ¬ ∃ ch ∈ input, 49 ≤ ch.toNat ∧ ch.toNat ≤ 48 + n := by
      rintro ⟨ch, typed, valid⟩
      have := List.find?_eq_none.mp found ch typed
      simp [valid] at this
    simp [absent]
  | some ch =>
    have typed := List.mem_of_find?_eq_some found
    have valid := List.find?_some found
    rw [decide_eq_true_eq] at valid
    refine iff_of_true ?_ (.inl ⟨ch, typed, valid⟩)
    dsimp only
    omega

theorem chosen_iff {input : List UInt8} {labels : List Text} : Chosen input default labels s ↔
      menuChoice input labels.length (defaultEntry default (labels.map some) s.defaultBootEntry) < labels.length := by
  unfold Chosen
  rw [menuChoice_lt, defaultEntry_lt_length]

theorem defaultEntry_lt {found : List (Option Text)} {before : Nat} (fits : found.length ≤ confSections)
    (old : before < confSections) : defaultEntry default found before < confSections := by
  refine (defaultEntry_fold _ fun row member => ?_).mpr (.inr old)
  have := List.snd_lt_of_mem_zipIdx member
  omega

inductive Called (s : State) (c : Call) : Prop where
  | wrong (f : Fault) (t : State) (ends : extlinuxBootLoadKernelAndDtb c s = (.wrong f, t)) (harm : ¬ Harmless s c)
  | back (t : State) (j : Nat) (path : Option Text) (ends : extlinuxBootLoadKernelAndDtb c s = loadAndFree c path t)
      (pending : Pending s t j) (few : t.numBootEntries ≤ confSections) (default : t.defaultBootEntry < confSections)
      (sane : t.fault = none) (sourced : Sourced t path)
      (harmless : Harmless s c ↔ j ≤ t.numBootEntries ∧ ∀ i, j ≤ i → i < t.numBootEntries → t.sections i = none)

def Kept (s t : State) : Prop :=
  t.numBootEntries = s.numBootEntries ∧ t.defaultBootEntry = s.defaultBootEntry ∧ t.fault = s.fault

theorem Built.kept (built : Built s labels t) : Kept s t := by
  rw [built.rest]
  exact ⟨rfl, rfl, rfl⟩

theorem called_error (inv : Inv s) (sane : s.fault = none) (pending : Pending s t j)
    (error : c.details s = (.error, t)) (kept : Kept s t)
    (harmless : Harmless s c ↔ j ≤ s.numBootEntries ∧ ∀ i, j ≤ i → i < s.numBootEntries → t.sections i = none) :
    Called s c := by
  obtain ⟨entries, default, fault⟩ := kept
  rw [← entries] at harmless
  refine .back t j none ?_ pending (entries ▸ inv.few) (default ▸ inv.default) (fault.trans sane) (.inl rfl) harmless
  unfold Call.details at error
  unfold extlinuxBootLoadKernelAndDtb
  dsimp only
  rw [error]

theorem called_wrong {f : Fault} (wrong : c.details s = (.wrong f, t)) (harm : ¬ Harmless s c) : Called s c := by
  refine .wrong f t ?_ harm
  unfold Call.details at wrong
  unfold extlinuxBootLoadKernelAndDtb
  dsimp only
  rw [wrong]

def State.configured (t : State) (entries default : Nat) : State :=
  { t with numBootEntries := entries, defaultBootEntry := default }

theorem called_configured {lines : List Text} (inv : Inv s) (sane : s.fault = none)
    (given : c.lines = some lines) (scanned : scan c.memory lines [] = .entries labels) (some : labels ≠ [])
    (few : labels.length ≤ confSections) (built : Built s labels t) (last : lastDefault lines none = Option.some default)
    (details : c.details s = c.shown
      (.ok, t.configured labels.length (defaultEntry default (labels.map Option.some) t.defaultBootEntry))) :
    Called s c := by
  rw [built.kept.2.1] at details
  have fits : defaultEntry default (labels.map Option.some) s.defaultBootEntry < confSections := by
    refine defaultEntry_lt ?_ inv.default
    rwa [List.length_map]
  generalize chosen : menuChoice c.input labels.length
    (defaultEntry default (labels.map Option.some) s.defaultBootEntry) = choice
  have harmless : Harmless s c ↔ choice < labels.length := by
    unfold Harmless
    rw [given]
    dsimp only
    rw [scanned]
    cases labels with
    | nil => exact absurd rfl some
    | cons label labels =>
      dsimp only
      rw [last]
      simp [chosen_iff, ← chosen]
  generalize defaultEntry default (labels.map Option.some) s.defaultBootEntry = first at fits details chosen
  generalize configured : t.configured labels.length first = u at details
  have shown : c.shown (.ok, u) = (.ok, { u with bootEntry := choice }) := by
    have readable : u.readAll = Option.some (t.blocks.drop s.blocks.length) := by
      rw [← configured]
      exact built.readAll inv.known few
    change displayBootMenu c u = _
    unfold displayBootMenu
    rw [readable, ← chosen, ← configured]
    rfl
  rw [shown] at details
  have read : ({ u with bootEntry := choice } : State).read choice = t.read choice := by
    rw [← configured]
    rfl
  by_cases inside : choice < labels.length
  · have found : t.read choice = t.blocks[s.blocks.length + choice]? := built.read inv.known inside few
    have bound : s.blocks.length + choice < t.blocks.length := by
      rw [built.size]
      omega
    rw [List.getElem?_eq_getElem bound] at found
    generalize member : t.blocks[s.blocks.length + choice] = entry at found
    have listed : entry ∈ t.blocks := by
      rw [← member]
      exact List.getElem_mem bound
    have pending := built.pending inv
    subst configured
    refine .back { t.configured labels.length first with
        bootEntry := choice, ramdiskPath := entry.initrdPath, bootArgs := entry.bootArgs }
      labels.length entry.linuxPath ?_ ⟨pending.size, pending.new, pending.old, pending.frees⟩ few fits
      (built.kept.2.2.trans sane) (.inr ⟨entry, listed, rfl, rfl, rfl⟩) ?_
    · unfold Call.details at details
      unfold extlinuxBootLoadKernelAndDtb
      dsimp only
      rw [details]
      dsimp only
      rw [read, found]
    · refine harmless.trans ⟨fun _ => ⟨Nat.le_refl _, fun i after before => ?_⟩, fun _ => inside⟩
      exact absurd (Nat.lt_of_le_of_lt after before) (Nat.lt_irrefl _)
  · refine .wrong .badSection { u with bootEntry := choice } ?_ (by rw [harmless]; exact inside)
    unfold Call.details at details
    unfold extlinuxBootLoadKernelAndDtb
    dsimp only
    rw [details]
    dsimp only
    rw [read, built.not_live inv (Nat.not_lt.mp inside)]

theorem called (inv : Inv s) (sane : s.fault = none) : Called s c := by
  cases given : c.lines with
  | none =>
    refine called_error inv sane ((built_nil s).pending inv) (details_none given) ⟨rfl, rfl, rfl⟩ ?_
    unfold Harmless Cleared
    rw [given]
    simp
  | some lines =>
    obtain ⟨conf, rfl, nonempty, details⟩ := details_some (s := s) given
    unfold parseConfFile at details
    rw [if_neg nonempty] at details
    have few : ([] : List Text).length ≤ confSections := Nat.zero_le _
    have parsed := parsed_lines c.memory inv.known (confLines conf) few (built_nil s) none
    generalize scanned : scan c.memory (confLines conf) [] = fared at parsed
    generalize last : lastDefault (confLines conf) none = default at parsed
    change Parsed s fared default (parseLines c.memory (confLines conf) ⟨0, none⟩ s) at parsed
    generalize parseLines c.memory (confLines conf) ⟨0, none⟩ s = outcome at parsed details
    cases parsed with
    | @entries labels d t few built =>
      dsimp only at details
      cases labels with
      | nil =>
        refine called_error inv sane (built.pending inv) details built.kept ?_
        unfold Harmless Cleared
        rw [given]
        dsimp only
        rw [scanned]
        have same : t.sections = s.sections := funext fun i => (built.sections i).trans (if_neg (Nat.not_lt_zero i))
        simp [same]
      | cons label labels =>
        have nonzero : (label :: labels).length ≠ 0 := Nat.succ_ne_zero _
        rw [if_neg nonzero] at details
        have read : ({ t with numBootEntries := (label :: labels).length } : State).readAll = _ :=
          built.readAll inv.known few
        rw [read] at details
        cases default with
        | none =>
          refine called_wrong details ?_
          unfold Harmless
          rw [given]
          dsimp only
          rw [scanned]
          simp [last]
        | some default =>
          dsimp only at details
          rw [built.map_label] at details
          exact called_configured inv sane given scanned (List.cons_ne_nil _ _) few built last details
    | @denied labels d t few built =>
      refine called_error inv sane (built.pending inv).setSection details built.kept ?_
      unfold Harmless Cleared
      rw [given]
      dsimp only
      rw [scanned]
      refine and_congr_right fun _ => forall_congr' fun i => ?_
      change _ ↔ (_ → _ → Function.update t.sections labels.length none i = none)
      rcases Nat.lt_trichotomy i labels.length with before | rfl | after
      · simp [Nat.not_le.mpr before, Nat.not_le.mpr (Nat.lt_succ_of_lt before)]
      · simp
      · rw [Function.update_of_ne (Nat.ne_of_gt after), built.sections, if_neg (Nat.not_lt.mpr after.le)]
        simp [Nat.succ_le_of_lt after, after.le]
    | overflow =>
      refine called_wrong details ?_
      unfold Harmless
      rw [given]
      dsimp only
      rw [scanned]
      exact not_false

theorem tidy_step (inv : Inv s) (tidy : Tidy s) : Tidy (step s c) ↔ Harmless s c := by
  cases called (c := c) inv tidy.sane with
  | wrong f t ends harm => exact iff_of_false (step_wrong ends) harm
  | back t j path ends pending few default sane sourced harmless =>
    exact (tidy_back tidy inv pending sane sourced ends).trans harmless.symm

theorem inv_step (inv : Inv s) (tidy : Tidy s) (next : Tidy (step s c)) : Inv (step s c) := by
  cases called (c := c) inv tidy.sane with
  | wrong f t ends harm => exact absurd next (step_wrong ends)
  | back t j path ends pending few default sane sourced harmless =>
    obtain ⟨all, -⟩ := (tidy_back tidy inv pending sane sourced ends).mp next
    rw [step_back tidy.sane ends]
    exact inv_back inv pending all few default

theorem tidy_start : Tidy State.start := by
  constructor
  · intro b inside
    exact absurd inside (Nat.not_lt_zero b)
  · rfl
  · intro fromRootfs
    cases fromRootfs

theorem inv_start : Inv State.start := by
  constructor
  · intro i b here
    cases here
  · intro b freed
    cases freed
  · decide
  · decide

/-- Sections are freed once, and none is used that is not there, as long as each attempt is harmless after the
ones before it, and no longer. -/
theorem attempts_tidy (calls : List Call) :
    Throughout step Tidy State.start calls ↔ EachStep step Harmless State.start calls := by
  refine throughout_iff_eachStep (fun s c inv tidy next => inv_step inv tidy next) (fun s c inv tidy => ?_)
    inv_start tidy_start calls
  exact tidy_step inv tidy

section
open Linuxboot
variable {σ : Type} (cfg : Config) (P : Platform σ)

theorem partition_only {handle : Option FmHandle} {binType : BinType} {name : Linuxboot.Text} {maxSize : UInt32} {addr : Nat}
    {size : SizeVar} {m m' : Linuxboot.State σ} {taken : Bool}
    (run : (loadBinaryWithSig cfg P handle binType name maxSize none addr size).run m = (.ok taken, m')) :
    taken = false := by
  unfold loadBinaryWithSig at run
  obtain ⟨_, m₁, -, run⟩ := Attempt.run_bind_eq_ok.mp run
  obtain ⟨answer, m₂, rootfs, run⟩ := Attempt.run_bind_eq_ok.mp run
  change Attempt.run (onlyIf (!answer) _ >>= fun _ => pure answer) m₂ = _ at run
  obtain ⟨_, m₃, -, ends⟩ := Attempt.run_bind_eq_ok.mp run
  rw [Attempt.run_pure] at ends
  cases rootfs
  cases ends
  rfl

def kernelLoad (handle : Option FmHandle) (name : Linuxboot.Text) (addr : Nat) (m : Linuxboot.State σ) : KernelLoad where
  run path := ((loadBinaryWithSig cfg P handle .kernel name P.bootImageMaxSize path addr .kernel).run m).1.toOption
  noPath := by
    intro some
    obtain ⟨m', run⟩ : ∃ m', (loadBinaryWithSig cfg P handle .kernel name P.bootImageMaxSize none addr
        .kernel).run m = (.ok true, m') := by
      generalize (loadBinaryWithSig cfg P handle .kernel name P.bootImageMaxSize none addr .kernel).run m =
        outcome at some
      obtain ⟨result, m'⟩ := outcome
      cases result with
      | error e => cases some
      | ok taken =>
        cases some
        exact ⟨m', rfl⟩
    exact absurd (partition_only cfg P run) (by decide)

end

def loads : KernelLoad where
  run path := some path.isSome
  noPath := by simp

def attempt (conf : Option Text) : Call where
  mounted := true
  confMemory := true
  conf := conf
  memory := fun _ => true
  input := []
  bootImgAddr := true
  kernel := loads
  dtb := true

/-- After a device with a configuration, one without frees the same section again. -/
theorem attempts_untidy : ¬ Throughout step Tidy State.start
      [attempt (some (ascii "DEFAULT a\nLABEL a\nLINUX /boot/Image\n")), attempt none] := by
  intro always
  have tidy := always _ (List.prefix_refl _)
  have once := tidy.once 0
  revert once
  decide

end

end Cboot.Extlinux
