import Cboot.Extlinux.Entries

/-!
A call of `parse_conf_file` leaves the text when the first line is a comment, stores behind the sections when there are
more labels than these, and takes a null pointer for a string when there is no default.
-/

namespace Cboot.Extlinux.InPlace
open Lib

structure ConfText where
  text : Text
  ended : 0 ∉ text

def textAt (buf : Buffer) (s : Nat) : Text := (buf.drop s).takeWhile (· ≠ 0)

def BootSection.read (buf : Buffer) (entry : BootSection) : Extlinux.BootSection where
  label := some (textAt buf entry.label)
  menuLabel := entry.menuLabel.map (textAt buf)
  linuxPath := entry.linuxPath.map (textAt buf)
  dtbPath := entry.dtbPath.map (textAt buf)
  initrdPath := entry.initrdPath.map (textAt buf)
  bootArgs := entry.bootArgs.map (textAt buf)

def DefaultOf (default : Option Text) (labels : List Text) (entry : Nat) : Prop :=
  (∃ value ∈ default, labels[entry]? = some value) ∨ (∀ value ∈ default, value ∉ labels) ∧ entry = 0

structure Describes (c : Conf) (lines : List Text) : Prop where
  count : c.numBootEntries = (lines.filter fun line => (valueOf .label line).isSome).length
  sections : c.sections.map (·.read c.buf) = (entriesOf lines).map sectionOf
  taken : ∀ n ∈ c.taken, EndsKey n.2
  default : DefaultOf (lastValue .default lines) ((entriesOf lines).map (·.label)) c.defaultBootEntry

def Ended.Right (lines : List Text) : Ended → Prop
  | .failed _ => True
  | .parsed c => Describes c lines
  | _ => False

/-- A call ends within the text and the sections, and where it succeeds the configuration is what the text says. -/
def ParsedRight (memory : Nat → Bool) (entry : Nat) (conf : ConfText) : Prop :=
  ∃ fuel e, parseConfFile memory entry conf.text fuel = some e ∧ e.Right (linesOf conf.text)

def DefaultFound (default : Text) (labels : List Text) (entry : Nat) : Prop :=
  (∀ label ∈ labels, ¬ default <+: label) ∧ entry = 0 ∨ ∃ front label back, labels = front ++ label :: back ∧
    default <+: label ∧ (∀ other ∈ back, ¬ default <+: other) ∧ (label = default ∨ front = [])

def Sound (memory : Nat → Bool) (entry : Nat) (lines : List Text) : Prop :=
  match scan memory lines [] with
  | .overflow => False
  | .denied _ => True
  | .entries labels => labels = [] ∨
      KeysEnd false lines ∧ ∃ default ∈ lastDefault lines none, DefaultFound default labels entry

section
variable {memory : Nat → Bool} {before entry : Nat} {text default label : Text} {front back labels lines : List Text}
  {buf : Buffer} {p : Parser} {v : Values}

theorem defaultEntry_none (none : ∀ label ∈ labels, ¬ default <+: label) :
    defaultEntry default (labels.map some) before = before := by
  induction labels using List.reverseRecOn with
  | nil => rfl
  | append_singleton labels label ih =>
    have rest := ih fun other early => none other (List.mem_append_left _ early)
    have last := none label (List.mem_append_right _ List.mem_cons_self)
    unfold defaultEntry at rest ⊢
    rw [List.map_append, List.zipIdx_append, List.foldl_append, rest]
    simp [last]

theorem defaultEntry_last (start : default <+: label) (none : ∀ other ∈ back, ¬ default <+: other) :
    defaultEntry default ((front ++ label :: back).map some) before = front.length := by
  induction back using List.reverseRecOn with
  | nil =>
    unfold defaultEntry
    rw [List.map_append, List.zipIdx_append, List.foldl_append]
    simp [start]
  | append_singleton back other ih =>
    have rest := ih fun other early => none other (List.mem_append_left _ early)
    have last := none other (List.mem_append_right _ List.mem_cons_self)
    unfold defaultEntry at rest ⊢
    rw [← List.cons_append, ← List.append_assoc, List.map_append, List.zipIdx_append, List.foldl_append, rest]
    simp [last]

theorem last_split (labels : List Text) (default : Text) : (∀ label ∈ labels, ¬ default <+: label) ∨
    ∃ front label back, labels = front ++ label :: back ∧ default <+: label ∧ ∀ other ∈ back, ¬ default <+: other := by
  induction labels with
  | nil => exact .inl nofun
  | cons first labels ih =>
    rcases ih with none | ⟨front, label, back, rfl, start, last⟩
    · by_cases here : default <+: first
      · exact .inr ⟨[], first, labels, rfl, here, none⟩
      · refine .inl fun label member => ?_
        rcases List.mem_cons.mp member with rfl | later
        · exact here
        · exact none label later
    · exact .inr ⟨first :: front, label, back, rfl, start, last⟩

theorem defaultOf_none (none : ∀ label ∈ labels, ¬ default <+: label) :
    DefaultOf (some default) labels (defaultEntry default (labels.map some) before) ↔ before = 0 := by
  have absent : default ∉ labels := fun member => none default member (List.prefix_refl default)
  rw [defaultEntry_none none]
  constructor
  · rintro (⟨value, same, found⟩ | ⟨-, zero⟩)
    · cases same
      exact absurd (List.mem_of_getElem? found) absent
    · exact zero
  · exact fun zero => .inr ⟨fun value same => by cases same; exact absent, zero⟩

theorem defaultOf_last (start : default <+: label) (last : ∀ other ∈ back, ¬ default <+: other) :
    DefaultOf (some default) (front ++ label :: back) (defaultEntry default ((front ++ label :: back).map some) before) ↔
      label = default ∨ front = [] := by
  have here : (front ++ label :: back)[front.length]? = some label := by
    rw [List.getElem?_append_right (Nat.le_refl _), Nat.sub_self, List.getElem?_cons_zero]
  rw [defaultEntry_last start last]
  constructor
  · rintro (⟨value, same, found⟩ | ⟨-, zero⟩)
    · cases same
      rw [here] at found
      exact .inl (Option.some.inj found)
    · exact .inr (List.eq_nil_of_length_eq_zero zero)
  · intro either
    by_cases same : label = default
    · exact .inl ⟨default, rfl, here.trans (congrArg some same)⟩
    · obtain rfl := either.resolve_left same
      refine .inr ⟨?_, rfl⟩
      intro value given member
      cases given
      rcases List.mem_cons.mp member with first | later
      · exact same first.symm
      · exact last _ later (List.prefix_refl _)

theorem defaultFound_iff (default : Text) (labels : List Text) (before : Nat) :
    DefaultOf (some default) labels (defaultEntry default (labels.map some) before) ↔ DefaultFound default labels before := by
  constructor
  · intro found
    rcases last_split labels default with none | ⟨front, label, back, rfl, start, last⟩
    · exact .inl ⟨none, (defaultOf_none none).mp found⟩
    · exact .inr ⟨front, label, back, rfl, start, last, (defaultOf_last start last).mp found⟩
  · rintro (⟨none, zero⟩ | ⟨front, label, back, rfl, start, last, either⟩)
    · exact (defaultOf_none none).mpr zero
    · exact (defaultOf_last start last).mpr either

theorem textAt_eq {s : Nat} {t : Text} (holds : Holds buf s t) : textAt buf s = t := by
  obtain ⟨clean, rest, here⟩ := holds
  have solid : ∀ c ∈ t, decide (c ≠ 0) = true := fun c member => decide_eq_true fun zero => clean (zero ▸ member)
  rw [textAt, here, List.takeWhile_append_of_pos solid]
  simp

theorem map_textAt {pointer : Option Nat} {value : Option Text} (reads : Option.Rel (Holds buf) pointer value) :
    pointer.map (textAt buf) = value := by
  cases reads with
  | some holds => exact congrArg some (textAt_eq holds)
  | none => rfl

theorem SectionReads.read {e : BootSection} {values : Extlinux.BootSection} (reads : SectionReads buf e values) :
    e.read buf = values := by
  have label : (some e.label).map (textAt buf) = values.label := map_textAt (reads .label)
  have menuLabel : e.menuLabel.map (textAt buf) = values.menuLabel := map_textAt (reads .menuLabel)
  have linuxPath : e.linuxPath.map (textAt buf) = values.linuxPath := map_textAt (reads .linux)
  have dtbPath : e.dtbPath.map (textAt buf) = values.dtbPath := map_textAt (reads .fdt)
  have initrdPath : e.initrdPath.map (textAt buf) = values.initrdPath := map_textAt (reads .initrd)
  have bootArgs : e.bootArgs.map (textAt buf) = values.bootArgs := map_textAt (reads .append)
  rw [Option.map_some] at label
  unfold BootSection.read
  rw [label, menuLabel, linuxPath, dtbPath, initrdPath, bootArgs]

theorem map_read {es : List BootSection} {values : List Extlinux.BootSection}
    (reads : List.Forall₂ (SectionReads buf) es values) : es.map (·.read buf) = values := by
  induction reads with
  | nil => rfl
  | cons first rest ih => rw [List.map_cons, first.read, ih]

variable (reads : Reads p.buf p v)
include reads

theorem Reads.timeout_inside : p.timeoutInside = true := by
  have timeout := reads.timeout
  unfold Parser.timeoutInside
  cases pointer : p.timeout with
  | none => rfl
  | some s =>
    rw [pointer] at timeout
    cases given : v.timeout with
    | none =>
      rw [given] at timeout
      cases timeout
    | some t =>
      rw [given] at timeout
      cases timeout with
      | some holds => rw [Option.all_some, holds.cstring]; rfl

theorem Reads.finish_nil (none : v.sections = []) : p.finish before = .failed .invalid := by
  have empty : p.sections = [] := List.eq_nil_of_length_eq_zero (by rw [reads.length, none]; rfl)
  rw [Parser.finish, reads.timeout_inside, empty]
  rfl

theorem Reads.some_sections (some : v.sections ≠ []) : p.sections ≠ [] := by
  rw [← List.length_pos_iff, reads.length]
  exact List.length_pos_iff.mpr some

theorem Reads.finish_null (some : v.sections ≠ []) (none : v.defaultBoot = none) :
    p.finish before = .nullString := by
  have pointer : p.defaultBoot = Option.none := by
    have default := reads.defaultBoot
    rw [none] at default
    cases given : p.defaultBoot with
    | none => rfl
    | some s =>
      rw [given] at default
      cases default
  rw [Parser.finish, reads.timeout_inside, pointer]
  exact if_neg (reads.some_sections some)

structure Finished (v : Values) (before : Nat) (default : Text) (c : Conf) : Prop where
  count : c.numBootEntries = v.sections.length
  sections : c.sections.map (·.read c.buf) = v.sections
  taken : c.taken = v.taken
  default : c.defaultBootEntry = defaultEntry default (v.sections.map (·.label)) before

theorem Reads.finish_parsed (some : v.sections ≠ []) (given : v.defaultBoot = Option.some default) :
    ∃ c, p.finish before = .parsed c ∧ Finished v before default c := by
  have pointer := reads.defaultBoot
  rw [given] at pointer
  cases at_s : p.defaultBoot with
  | none =>
    rw [at_s] at pointer
    cases pointer
  | some s =>
    rw [at_s] at pointer
    cases pointer with
    | some holds =>
      refine ⟨⟨p.buf, p.menuTitle, p.sections, p.sections.length, _, p.taken⟩, ?_, reads.length, map_read reads.sections,
        reads.taken, rfl⟩
      rw [Parser.finish, reads.timeout_inside, at_s]
      dsimp only
      rw [holds.cstring, Option.bind_some, defaultBootEntry_eq holds.1 reads.sections]
      exact if_neg (reads.some_sections some)

omit reads

theorem mem_splitOnP {q : UInt8 → Bool} {t line : Text} {c : UInt8} (listed : line ∈ t.splitOnP q) (member : c ∈ line) :
    c ∈ t := by
  induction t generalizing line with
  | nil =>
    rw [List.splitOnP_nil, List.mem_singleton] at listed
    rwa [listed] at member
  | cons d t ih =>
    rw [List.splitOnP_cons_eq_if_modifyHead] at listed
    split at listed
    · rcases List.mem_cons.mp listed with rfl | later
      · cases member
      · exact List.mem_cons_of_mem d (ih later member)
    · cases rest : t.splitOnP q with
      | nil =>
        rw [rest] at listed
        cases listed
      | cons first others =>
        rw [rest, List.modifyHead_cons] at listed
        rw [rest] at ih
        rcases List.mem_cons.mp listed with rfl | later
        · rcases List.mem_cons.mp member with rfl | inside
          · exact List.mem_cons_self
          · exact List.mem_cons_of_mem d (ih List.mem_cons_self inside)
        · exact List.mem_cons_of_mem d (ih (List.mem_cons_of_mem first later) member)

theorem clean_lines (clean : 0 ∉ text) : ∀ line ∈ linesOf text, 0 ∉ line := by
  intro line member zero
  unfold linesOf at member
  rw [List.splitOn_eq_splitOnP] at member
  exact clean (mem_splitOnP (List.mem_filter.mp member).1 zero)

theorem length_entriesOf (lines : List Text) :
    (entriesOf lines).length = (lines.filter fun line => (valueOf .label line).isSome).length := by
  induction lines with
  | nil => rfl
  | cons line lines ih =>
    cases label : valueOf .label line with
    | none => rw [entriesOf_none label, ih, List.filter_cons_of_neg (by simp [label])]
    | some t => rw [entriesOf_some label, List.filter_cons_of_pos (by simp [label]), List.length_cons, List.length_cons, ih]

theorem describes_iff {c : Conf} (clean : ∀ line ∈ lines, 0 ∉ line) (next : Values.start.lines memory lines = .next v)
    (same : v.sections.map (·.label) = labels.map some) (given : lastDefault lines none = some default)
    (finished : Finished v before default c) : Describes c lines ↔ KeysEnd false lines ∧ DefaultFound default labels before := by
  have taken : (∀ n ∈ c.taken, EndsKey n.2) ↔ KeysEnd false lines := by
    rw [finished.taken, lines_taken next]
    exact and_iff_right nofun
  have entries (ends : KeysEnd false lines) : v.sections = (entriesOf lines).map sectionOf :=
    @lines_sections _ _ Values.start _ clean ends next
  have named (ends : KeysEnd false lines) : (entriesOf lines).map (·.label) = labels := by
    rw [entries ends, List.map_map] at same
    have inner : ((entriesOf lines).map (·.label)).map some = labels.map some := by
      rw [← same, List.map_map]
      rfl
    exact List.map_injective_iff.mpr (Option.some_injective Text) inner
  have default' (ends : KeysEnd false lines) : lastValue .default lines = some default := by
    have last := lastValue_default clean ends none
    rw [given, Option.or_none] at last
    exact last.symm
  constructor
  · intro describes
    have ends := taken.mp describes.taken
    have found := describes.default
    rw [default' ends, named ends, finished.default, same] at found
    exact ⟨ends, (defaultFound_iff default labels before).mp found⟩
  · rintro ⟨ends, found⟩
    refine ⟨?_, finished.sections.trans (entries ends), taken.mpr ends, ?_⟩
    · rw [finished.count, entries ends, List.length_map, length_entriesOf]
    · rw [default' ends, named ends, finished.default, same]
      exact (defaultFound_iff default labels before).mpr found

end

/-- A configuration is parsed right exactly when there is nothing in it, or no comment comes first and the lines are
sound: no label is one too many, and where none is refused memory, all keys that are taken end there and the default is
found. -/
theorem parsed_right_iff (memory : Nat → Bool) (entry : Nat) (conf : ConfText) : ParsedRight memory entry conf ↔
    linesOf conf.text = [] ∨ ¬ StartsWithComment conf.text ∧ Sound memory entry (linesOf conf.text) := by
  obtain ⟨fuel, e, ended, parses⟩ := parse_ends conf.ended memory entry
  have same : ParsedRight memory entry conf ↔ e.Right (linesOf conf.text) := by
    constructor
    · rintro ⟨fuel', e', other, right⟩
      rwa [parse_unique ended other]
    · exact fun right => ⟨fuel, e, ended, right⟩
  rw [same]
  cases parses with
  | nothing empty => exact iff_of_true trivial (.inl empty)
  | comment some first => exact iff_of_false id fun sound => sound.elim some fun later => later.1 first
  | lines some other ends =>
    rw [or_iff_right some, and_iff_right other]
    have counts := @lines_scan Values.start [] rfl memory (linesOf conf.text)
    unfold Sound
    generalize parsed : Values.start.lines memory (linesOf conf.text) = pass at ends counts
    generalize scan memory (linesOf conf.text) [] = scanned at counts ⊢
    cases counts with
    | overflow =>
      cases ends with
      | leave => exact iff_of_false id id
    | denied j =>
      cases ends with
      | leave => exact iff_of_true trivial trivial
    | @entries v labels labelled =>
      cases ends with
      | @next p v reads =>
        have empty : v.sections = [] ↔ labels = [] := by
          rw [← List.map_eq_nil_iff (f := fun e : Extlinux.BootSection => e.label), labelled, List.map_eq_nil_iff]
        by_cases none : v.sections = []
        · rw [reads.finish_nil none]
          exact iff_of_true trivial (.inl (empty.mp none))
        · have last : v.defaultBoot = lastDefault (linesOf conf.text) Option.none := lines_default parsed
          dsimp only
          rw [or_iff_right (mt empty.mpr none)]
          cases given : lastDefault (linesOf conf.text) Option.none with
          | none =>
            rw [reads.finish_null none (last.trans given)]
            exact iff_of_false id (by simp)
          | some default =>
            obtain ⟨c, finish, finished⟩ := @Reads.finish_parsed entry default p v reads none (last.trans given)
            rw [finish]
            have describes := describes_iff (clean_lines conf.ended) parsed labelled given finished
            refine describes.trans ?_
            simp

/-- Where a comment comes first, the walk back leaves the text. -/
theorem comment_first_outside :
    ¬ ParsedRight (fun _ => true) 0 ⟨ascii "# boot menu\nDEFAULT a\nLABEL a\n", by decide⟩ := by
  rintro ⟨fuel, e, ended, right⟩
  have outside : parseConfFile (fun _ => true) 0 (ascii "# boot menu\nDEFAULT a\nLABEL a\n") 1 = some .outside := rfl
  rw [parse_unique ended outside] at right
  exact right

end Cboot.Extlinux.InPlace
