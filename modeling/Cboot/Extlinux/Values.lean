import Cboot.Extlinux.Lines
import Mathlib.Data.List.Forall2

/-!
The parser of lines that `parse_conf_file` amounts to, with strings for pointers.
-/

namespace Cboot.Extlinux
open Lib

structure Values where
  timeout : Option Text
  defaultBoot : Option Text
  menuTitle : Option Text
  sections : List BootSection
  taken : List (Key × UInt8)

inductive Stop where
  | beyond
  | noMemory

def Values.start : Values := ⟨none, none, none, [], []⟩

def Values.take (memory : Nat → Bool) (v : Values) (key : Key) (value : Text) : Pass Values Stop :=
  match key with
  | .timeout => .next { v with timeout := some value }
  | .default => .next { v with defaultBoot := some value }
  | .menuTitle => .next { v with menuTitle := some value }
  | .label =>
    if confSections ≤ v.sections.length then .leave .beyond
    else if memory v.sections.length then .next { v with sections := v.sections ++ [{ label := some value }] }
    else .leave .noMemory
  | key => .next
      { v with sections := v.sections.modify (v.sections.length - 1) fun entry => entry.set key value }

def Values.keys (v : Values) : List (Text × Key) := if v.sections = [] then Extlinux.keys.take 4 else Extlinux.keys

def Values.line (memory : Nat → Bool) (line : Text) (v : Values) : Pass Values Stop :=
  let str := removeWhitespaceAndComment line
  match v.keys.find? fun row => row.1.isPrefixOf str with
  | none => .next v
  | some row =>
    let rest := str.drop row.1.length
    { v with taken := v.taken ++ [(row.2, rest.headD 0)] }.take memory row.2 (rest.dropWhile isspace)

def Values.lines (memory : Nat → Bool) : List Text → Values → Pass Values Stop
  | [], v => .next v
  | line :: lines, v => (v.line memory line).andThen (Values.lines memory lines)

def linesOf (text : Text) : List Text := (text.splitOn 10).filter (· ≠ [])

def BootSection.value (entry : BootSection) : Key → Option Text
  | .label => entry.label
  | .menuLabel => entry.menuLabel
  | .linux => entry.linuxPath
  | .initrd => entry.initrdPath
  | .fdt => entry.dtbPath
  | .append => entry.bootArgs
  | _ => none

namespace InPlace

def BootSection.pointer (entry : BootSection) : Key → Option Nat
  | .label => some entry.label
  | .menuLabel => entry.menuLabel
  | .linux => entry.linuxPath
  | .initrd => entry.initrdPath
  | .fdt => entry.dtbPath
  | .append => entry.bootArgs
  | _ => none

def Stop.ended : Stop → Ended
  | .beyond => .beyond
  | .noMemory => .failed .noMemory

def SectionReads (done : Buffer) (entry : BootSection) (values : Extlinux.BootSection) : Prop :=
  ∀ key, Option.Rel (Holds done) (entry.pointer key) (values.value key)

structure Reads (done : Buffer) (p : Parser) (v : Values) : Prop where
  timeout : Option.Rel (Holds done) p.timeout v.timeout
  defaultBoot : Option.Rel (Holds done) p.defaultBoot v.defaultBoot
  menuTitle : Option.Rel (Holds done) p.menuTitle v.menuTitle
  sections : List.Forall₂ (SectionReads done) p.sections v.sections
  taken : p.taken = v.taken

/-- A part of a pass does what it does to the strings, and nothing to the text. -/
inductive Follows (done buf : Buffer) (next : Option Nat) : Pass Parser Ended → Pass Values Stop → Prop
  | next {p : Parser} {v : Values} (reads : Reads done p v) (same : p.buf = buf) (kept : p.strtok = next) :
      Follows done buf next (.next p) (.next v)
  | leave (stop : Stop) : Follows done buf next (.leave (Stop.ended stop)) (.leave stop)

section
variable {done before nls line rest : Buffer} {p : Parser} {v : Values} {memory : Nat → Bool} {key : Key} {val : Nat} {t : Text}

theorem rel_append {pointer : Option Nat} {value : Option Text} (reads : Option.Rel (Holds done) pointer value)
    (rest : Buffer) : Option.Rel (Holds (done ++ rest)) pointer value := by
  cases reads with
  | some holds => exact .some (holds.append rest)
  | none => exact .none

theorem Reads.append (reads : Reads done p v) (rest : Buffer) : Reads (done ++ rest) p v where
  timeout := rel_append reads.timeout rest
  defaultBoot := rel_append reads.defaultBoot rest
  menuTitle := rel_append reads.menuTitle rest
  sections := reads.sections.imp fun _ _ values key => rel_append (values key) rest
  taken := reads.taken

theorem Reads.length (reads : Reads done p v) : p.sections.length = v.sections.length := reads.sections.length_eq

theorem Reads.keys (reads : Reads done p v) : p.keys = v.keys := by
  have empty : p.sections = [] ↔ v.sections = [] := by
    rw [← List.length_eq_zero_iff, reads.length, List.length_eq_zero_iff]
  unfold Parser.keys Values.keys
  simp only [empty]

theorem SectionReads.set {entry : BootSection} {values : Extlinux.BootSection} (reads : SectionReads done entry values)
    (holds : Holds done val t) (key : Key) : SectionReads done (entry.set key val) (values.set key t) := by
  intro other
  have kept := reads other
  cases key <;> cases other <;> first | exact .some holds | exact kept

theorem forall₂_modify {α β : Type} {R : α → β → Prop} {f : α → α} {g : β → β} {xs : List α} {ys : List β}
    (all : List.Forall₂ R xs ys) (step : ∀ x y, R x y → R (f x) (g y)) (i : Nat) :
    List.Forall₂ R (xs.modify i f) (ys.modify i g) := by
  induction all generalizing i with
  | nil => simp
  | cons first rest ih =>
    cases i with
    | zero => exact .cons (step _ _ first) rest
    | succ i => exact .cons first (ih i)

theorem Parser.extract_eq (value : skipLeadingWhitespace p.buf val = some n) (store : Nat → Parser) :
    p.extract val store = .next (store n) := by
  rw [Parser.extract, value]

theorem Reads.take {n : Nat} (reads : Reads done p v) (value : skipLeadingWhitespace p.buf val = some n)
    (holds : Holds done n t) (memory : Nat → Bool) (key : Key) :
    Follows done p.buf p.strtok (p.take memory key val) (v.take memory key t) := by
  have set (key : Key) : Follows done p.buf p.strtok
      (.next { p with sections := p.sections.modify (p.sections.length - 1) fun entry => entry.set key n })
      (.next { v with sections := v.sections.modify (v.sections.length - 1) fun entry => entry.set key t }) := by
    refine .next ⟨reads.timeout, reads.defaultBoot, reads.menuTitle, ?_, reads.taken⟩ rfl rfl
    rw [← reads.length]
    exact forall₂_modify reads.sections (fun _ _ values => values.set holds key) _
  unfold Parser.take Values.take
  cases key with
  | timeout =>
    dsimp only
    rw [Parser.extract_eq value]
    refine .next ?_ rfl rfl
    exact ⟨.some holds, reads.defaultBoot, reads.menuTitle, reads.sections, reads.taken⟩
  | default =>
    dsimp only
    rw [Parser.extract_eq value]
    refine .next ?_ rfl rfl
    exact ⟨reads.timeout, .some holds, reads.menuTitle, reads.sections, reads.taken⟩
  | menuTitle =>
    dsimp only
    rw [Parser.extract_eq value]
    refine .next ?_ rfl rfl
    exact ⟨reads.timeout, reads.defaultBoot, .some holds, reads.sections, reads.taken⟩
  | label =>
    dsimp only
    rw [Parser.extract_eq value, reads.length]
    split
    · exact .leave .beyond
    · split
      · refine .next ⟨reads.timeout, reads.defaultBoot, reads.menuTitle, ?_, reads.taken⟩ rfl rfl
        refine List.rel_append reads.sections (.cons (fun key => ?_) .nil)
        cases key <;> first | exact .some holds | exact .none
      · exact .leave .noMemory
  | menuLabel | linux | initrd | fdt | append =>
    dsimp only
    rw [Parser.extract_eq value]
    exact set _

theorem known_keys (v : Values) : ∀ row ∈ v.keys, row ∈ Extlinux.keys := by
  intro row member
  unfold Values.keys at member
  split at member
  · exact List.mem_of_mem_take member
  · exact member

theorem keys_some : ∀ row ∈ Extlinux.keys, row.1 ≠ [] := by decide

theorem find_nil (v : Values) : (v.keys.find? fun row => row.1.isPrefixOf []) = none := by
  refine List.find?_eq_none.mpr fun row member found => ?_
  have some := keys_some row (known_keys v row member)
  exact some (List.prefix_nil.mp (List.isPrefixOf_iff_prefix.mp found))

theorem Reads.step (reads : Reads before p v) (buf : p.buf = before ++ nls ++ line ++ 0 :: rest)
    (token : p.token = before.length + nls.length) (clean : ∀ b ∈ line, b ≠ 0 ∧ b ≠ 10) (some : line ≠ [])
    (only : ∀ b ∈ nls, b = 10) (behind : before.getLast? = Option.some 0 ∨ ¬ IsComment line) (memory : Nat → Bool) :
    ∃ left, left.length = nls.length + line.length ∧
      Follows (before ++ left ++ [0]) (before ++ left ++ 0 :: rest) p.strtok (p.line memory) (v.line memory line) := by
  obtain ⟨str, left, removed, length, holds⟩ := remove_line clean some only behind rest
  rw [← token, ← buf] at removed
  refine ⟨left, length, ?_⟩
  have whole : before ++ left ++ 0 :: rest = before ++ left ++ [0] ++ rest := by simp
  have moved : Reads (before ++ left ++ [0]) { p with buf := before ++ left ++ 0 :: rest } v := by
    have kept := reads.append (left ++ [0])
    rw [← List.append_assoc] at kept
    exact ⟨kept.timeout, kept.defaultBoot, kept.menuTitle, kept.sections, kept.taken⟩
  have newline : 10 ∉ Extlinux.removeWhitespaceAndComment line := fun inside => (clean 10 (mem_remove inside)).2 rfl
  obtain ⟨zero, more, here⟩ := holds.append rest
  rw [← whole] at here
  unfold Parser.line Values.line
  rw [removed]
  generalize Extlinux.removeWhitespaceAndComment line = t at holds newline zero here ⊢
  dsimp only
  cases t with
  | nil =>
    rw [if_pos (getElem?_of_drop here), find_nil]
    exact .next moved rfl rfl
  | cons c u =>
    have solid : c ≠ 0 := fun same => zero (same ▸ List.mem_cons_self)
    have other : (before ++ left ++ 0 :: rest)[str]? ≠ Option.some 0 := by
      rw [getElem?_of_drop here]
      exact fun same => solid (Option.some.inj same)
    have keys : { p with buf := before ++ left ++ 0 :: rest }.keys = v.keys := moved.keys
    rw [if_neg other, keys, here, findKey_eq (known_keys v)]
    cases found : v.keys.find? fun row => row.1.isPrefixOf (c :: u) with
    | none => exact .next moved rfl rfl
    | some row =>
      have start := List.find?_some found
      obtain ⟨value, split⟩ := List.isPrefixOf_iff_prefix.mp start
      rw [← split] at holds newline here
      obtain ⟨n, skipped, there⟩ := holds.drop.skip fun inside => newline (List.mem_append_right _ inside)
      have byte : (before ++ left ++ 0 :: rest)[str + row.1.length]?.getD 0 = value.headD 0 := by
        rw [← List.head?_drop, ← List.drop_drop, here, List.append_assoc, List.drop_left]
        cases value <;> rfl
      have taken : Reads (before ++ left ++ [0])
          { p with buf := before ++ left ++ 0 :: rest, taken := p.taken ++ [(row.2, value.headD 0)] }
          { v with taken := v.taken ++ [(row.2, value.headD 0)] } :=
        ⟨moved.timeout, moved.defaultBoot, moved.menuTitle, moved.sections, by rw [← moved.taken]⟩
      dsimp only
      rw [byte, ← split, List.drop_left]
      exact taken.take (by rw [whole]; exact skipped rest) there memory row.2

theorem linesOf_newlines (only : ∀ b ∈ nls, b = 10) (rest : Text) : linesOf (nls ++ rest) = linesOf rest := by
  induction nls with
  | nil => rfl
  | cons b nls ih =>
    obtain rfl := only b List.mem_cons_self
    have split : ([] ++ 10 :: (nls ++ rest)).splitOnP (· == 10) = [] :: (nls ++ rest).splitOnP (· == 10) :=
      List.splitOnP_append_cons_of_forall_mem (by simp) 10 rfl _
    rw [List.nil_append] at split
    rw [← ih fun d later => only d (List.mem_cons_of_mem 10 later), List.cons_append]
    unfold linesOf
    rw [List.splitOn_eq_splitOnP, List.splitOn_eq_splitOnP, split]
    rfl

theorem linesOf_single (clean : ∀ b ∈ line, b ≠ 10) (some : line ≠ []) : linesOf line = [line] := by
  have split : line.splitOnP (· == 10) = [line] := List.splitOnP_eq_singleton fun b member => by simpa using clean b member
  unfold linesOf
  rw [List.splitOn_eq_splitOnP, split]
  simp [some]

theorem linesOf_cons (clean : ∀ b ∈ line, b ≠ 10) (some : line ≠ []) (rest : Text) :
    linesOf (line ++ 10 :: rest) = line :: linesOf rest := by
  have split : (line ++ 10 :: rest).splitOnP (· == 10) = line :: rest.splitOnP (· == 10) :=
    List.splitOnP_append_cons_of_forall_mem (fun b member => by simpa using clean b member) 10 rfl _
  unfold linesOf
  rw [List.splitOn_eq_splitOnP, List.splitOn_eq_splitOnP, split]
  simp [some]

theorem run_split (kind : UInt8 → Bool) (text : Text) : ∃ front rest,
    text = front ++ rest ∧ (∀ b ∈ front, kind b = true) ∧ ∀ b ∈ rest.head?, kind b = false := by
  refine ⟨text.takeWhile kind, text.dropWhile kind, List.takeWhile_append_dropWhile.symm,
    fun b member => List.mem_takeWhile_imp member, fun b head => ?_⟩
  have first := List.head?_dropWhile_not kind text
  rw [Option.mem_def.mp head] at first
  simpa using first

inductive Ahead (done : Buffer) (p : Parser) : Text → Prop
  | more {text : Text} (buf : p.buf = done ++ text ++ [0]) (strtok : p.strtok = some done.length) : Ahead done p text
  | last (buf : p.buf = done) (strtok : p.strtok = none) : Ahead done p []

/-- What `strtok` finds: nothing, or a line behind newlines. -/
inductive Found (done : Buffer) (p : Parser) (text : Text) (ended : Parser → Ended) : Pass Parser Ended → Prop
  | none (rest : Buffer) (empty : linesOf text = []) :
      Found done p text ended (.leave (ended { p with buf := done ++ rest, strtok := none }))
  | line (nls line rest : Buffer) (text' : Text) (next : Option Nat) (lines : linesOf text = line :: linesOf text')
      (shorter : text'.length < text.length) (later : 0 ∉ text') (clean : ∀ b ∈ line, b ≠ 0 ∧ b ≠ 10) (some : line ≠ [])
      (only : ∀ b ∈ nls, b = 10) (goes : next = Option.none ∧ rest = [] ∧ text' = [] ∨
        next = Option.some (done.length + nls.length + line.length + 1) ∧ rest = text' ++ [0]) :
      Found done p text ended (.next
        { p with buf := done ++ nls ++ line ++ 0 :: rest, strtok := next, token := done.length + nls.length })

theorem found (ended : Parser → Ended) {text : Text} (clean : 0 ∉ text) (ahead : Ahead done p text) :
    Found done p text ended (p.nextToken ended) := by
  unfold Parser.nextToken
  cases ahead with
  | last buf strtok =>
    rw [strtok, buf, InPlace.strtok]
    have ends := @Found.none done p [] ended [] rfl
    rwa [List.append_nil] at ends
  | more buf strtok =>
    obtain ⟨nls, body, rfl, newlines, first⟩ := run_split (fun c => c == 10) text
    have only : ∀ b ∈ nls, b = 10 := fun b member => by simpa using newlines b member
    have lines : linesOf (nls ++ body) = linesOf body := linesOf_newlines only body
    rw [buf, strtok, ← List.append_assoc, List.append_assoc _ body]
    cases body with
    | nil =>
      have ends := @strtok_none done nls only []
      rw [List.nil_append, ends, List.append_assoc]
      exact .none (nls ++ [0]) lines
    | cons c u =>
      obtain ⟨line, more, parts, inside, stop⟩ := run_split (fun c => c != 10) (c :: u)
      rw [parts] at clean lines first ⊢
      have plain : ∀ b ∈ line, b ≠ 0 ∧ b ≠ 10 := by
        intro b member
        refine ⟨fun same => clean ?_, by simpa using inside b member⟩
        exact List.mem_append_right nls (List.mem_append_left more (same ▸ member))
      have some : line ≠ [] := by
        rintro rfl
        rw [List.nil_append] at parts
        have start := first c (by rw [List.nil_append, ← parts]; rfl)
        have ends := stop c (by rw [← parts]; rfl)
        rw [bne, start] at ends
        cases ends
      have solid : ∀ b ∈ line, b ≠ 10 := fun b member => (plain b member).2
      cases more with
      | nil =>
        have taken := @strtok_line done nls line _ only plain some (.inl rfl) []
        rw [List.append_nil, ← List.append_assoc, taken]
        rw [List.append_nil, linesOf_single solid some] at lines
        refine .line nls line [] [] none lines ?_ (by simp) plain some only (.inl ⟨rfl, rfl, rfl⟩)
        have := List.length_pos_of_ne_nil some
        simp only [List.length_append, List.length_nil]
        omega
      | cons d text' =>
        obtain rfl : d = 10 := by simpa using stop d rfl
        have taken := @strtok_line done nls line _ only plain some (.inr rfl) (text' ++ [0])
        have whole : done ++ nls ++ (line ++ 10 :: text' ++ [0]) = done ++ nls ++ line ++ 10 :: (text' ++ [0]) := by simp
        rw [whole, taken]
        rw [linesOf_cons solid some] at lines
        refine .line nls line (text' ++ [0]) text' _ lines ?_ ?_ plain some only (.inr ⟨rfl, rfl⟩)
        · simp only [List.length_append, List.length_cons]
          omega
        · exact fun zero => clean (List.mem_append_right nls (List.mem_append_right line (List.mem_cons_of_mem 10 zero)))

def resume (memory : Nat → Bool) (entry fuel : Nat) : Pass Parser Ended → Option Ended
  | .leave ended => some ended
  | .next p => runLoop (Parser.pass memory entry) fuel p

inductive Ends (entry : Nat) : Pass Values Stop → Ended → Prop
  | next {p : Parser} {v : Values} (reads : Reads p.buf p v) : Ends entry (.next v) (p.finish entry)
  | leave (stop : Stop) : Ends entry (.leave stop) (Stop.ended stop)

variable {entry : Nat} {text text' : Text} {next : Option Nat}

theorem resume_pass (memory : Nat → Bool) (entry fuel : Nat) (p : Parser) :
    resume memory entry (fuel + 1) (.next p) = resume memory entry fuel (p.pass memory entry) := by
  cases taken : p.pass memory entry with
  | next p' => exact runLoop_next taken fuel
  | leave ended => exact runLoop_leave taken fuel

theorem Reads.pass (reads : Reads done p v) (clean : ∀ b ∈ line, b ≠ 0 ∧ b ≠ 10) (some : line ≠ [])
    (only : ∀ b ∈ nls, b = 10) (behind : done.getLast? = Option.some 0 ∨ ¬ IsComment line)
    (goes : next = none ∧ rest = [] ∧ text' = [] ∨
      next = Option.some (done.length + nls.length + line.length + 1) ∧ rest = text' ++ [0])
    (later : ∀ (done : Buffer) (p : Parser) (v : Values), Ahead done p text' → Reads done p v →
      done.getLast? = Option.some 0 → ∃ fuel e, resume memory entry fuel (p.nextToken (Parser.finish entry)) = Option.some e ∧
        Ends entry (v.lines memory (linesOf text')) e) : ∃ fuel e, resume memory entry fuel (.next { p with
      buf := done ++ nls ++ line ++ 0 :: rest, strtok := next, token := done.length + nls.length }) = Option.some e ∧
        Ends entry (v.lines memory (line :: linesOf text')) e := by
  have start : Reads done
      { p with buf := done ++ nls ++ line ++ 0 :: rest, strtok := next, token := done.length + nls.length } v :=
    ⟨reads.timeout, reads.defaultBoot, reads.menuTitle, reads.sections, reads.taken⟩
  obtain ⟨left, length, follows⟩ := start.step rfl rfl clean some only behind memory
  generalize made :
    { p with buf := done ++ nls ++ line ++ 0 :: rest, strtok := next, token := done.length + nls.length } = q at follows ⊢
  have strtok : q.strtok = next := by rw [← made]
  rw [Values.lines]
  generalize taken : q.line memory = pass at follows
  generalize v.line memory line = pure at follows ⊢
  cases follows with
  | @next p' v' reads same kept =>
    have ahead : Ahead (done ++ left ++ [0]) p' text' := by
      rcases goes with ⟨stops, rfl, rfl⟩ | ⟨goes, rfl⟩
      · exact .last same (kept.trans (strtok.trans stops))
      · refine .more ?_ ?_
        · rw [same]
          simp
        · rw [kept, strtok, goes]
          simp only [List.length_append, List.length_singleton, length]
          rw [Nat.add_assoc done.length]
    obtain ⟨fuel, e, ended, ends⟩ := later _ p' v' ahead reads (by simp)
    refine ⟨fuel + 1, e, ?_, ends⟩
    rw [resume_pass, Parser.pass, taken]
    exact ended
  | leave stop =>
    refine ⟨1, Stop.ended stop, ?_, .leave stop⟩
    rw [resume_pass, Parser.pass, taken]
    rfl

theorem Reads.run (reads : Reads done p v) (clean : 0 ∉ text) (ahead : Ahead done p text)
    (ended : done.getLast? = some 0) (memory : Nat → Bool) (entry : Nat) :
    ∃ fuel e, resume memory entry fuel (p.nextToken (Parser.finish entry)) = some e ∧
      Ends entry (v.lines memory (linesOf text)) e := by
  induction size : text.length using Nat.strongRecOn generalizing done p v text with
  | ind n ih =>
    have next := found (Parser.finish entry) clean ahead
    generalize p.nextToken (Parser.finish entry) = pass at next ⊢
    cases next with
    | none rest empty =>
      have kept := reads.append rest
      refine ⟨0, _, rfl, ?_⟩
      rw [empty]
      exact .next ⟨kept.timeout, kept.defaultBoot, kept.menuTitle, kept.sections, kept.taken⟩
    | line nls line rest text' next lines shorter later plain some only goes =>
      rw [lines]
      refine reads.pass plain some only (.inl ended) goes fun done' p' v' ahead' reads' ended' => ?_
      exact ih text'.length (size ▸ shorter) reads' later ahead' ended' rfl

def StartsWithComment (text : Text) : Prop := ∃ line ∈ (linesOf text).head?, IsComment line

instance (text : Text) : Decidable (StartsWithComment text) := inferInstanceAs (Decidable (∃ line ∈ _, _))

inductive Parses (memory : Nat → Bool) (entry : Nat) (text : Text) : Ended → Prop
  | nothing (empty : linesOf text = []) : Parses memory entry text (.failed .invalid)
  | comment (some : linesOf text ≠ []) (first : StartsWithComment text) : Parses memory entry text .outside
  | lines {e : Ended} (some : linesOf text ≠ []) (other : ¬ StartsWithComment text)
      (ends : Ends entry (Values.start.lines memory (linesOf text)) e) : Parses memory entry text e

theorem reads_start (text : Text) : Reads [] (Parser.start text) Values.start := ⟨.none, .none, .none, .nil, rfl⟩

theorem parse_ends (clean : 0 ∉ text) (memory : Nat → Bool) (entry : Nat) :
    ∃ fuel e, parseConfFile memory entry text fuel = some e ∧ Parses memory entry text e := by
  have same (fuel : Nat) : parseConfFile memory entry text fuel =
      resume memory entry fuel ((Parser.start text).nextToken fun _ => .failed .invalid) := by
    unfold parseConfFile
    cases (Parser.start text).nextToken fun _ => .failed .invalid <;> rfl
  have ahead : Ahead [] (Parser.start text) text := .more rfl rfl
  have next := found (fun _ => .failed .invalid) clean ahead
  simp only [same]
  generalize (Parser.start text).nextToken (fun _ => .failed .invalid) = pass at next ⊢
  cases next with
  | none rest empty => exact ⟨0, _, rfl, .nothing empty⟩
  | line nls line rest text' next lines shorter later plain some only goes =>
    have nonempty : linesOf text ≠ [] := by
      rw [lines]
      exact List.cons_ne_nil line _
    have first : StartsWithComment text ↔ IsComment line := by
      unfold StartsWithComment
      rw [lines]
      simp
    by_cases comment : IsComment line
    · refine ⟨1, .outside, ?_, .comment nonempty (first.mpr comment)⟩
      have outside := remove_outside plain only comment rest
      rw [resume_pass, Parser.pass, Parser.line]
      simp only [List.nil_append, List.length_nil, Nat.zero_add, outside]
      rfl
    · obtain ⟨fuel, e, ended, ends⟩ := (reads_start text).pass plain some only (.inr comment) goes
        fun done' p' v' ahead' reads' ended' => reads'.run later ahead' ended' memory entry
      refine ⟨fuel, e, ended, .lines nonempty (fun comment' => comment (first.mp comment')) ?_⟩
      rw [lines]
      exact ends

theorem parse_unique {fuel fuel' : Nat} {e e' : Ended} (ended : parseConfFile memory entry text fuel = some e)
    (other : parseConfFile memory entry text fuel' = some e') : e = e' := by
  unfold parseConfFile at ended other
  split at ended
  · rename_i taken
    rw [taken] at other
    exact Option.some.inj (ended.symm.trans other)
  · rename_i taken
    rw [taken] at other
    exact runLoop_unique ended other

theorem Holds.starts {default : Text} (clean : 0 ∉ default) {buf : Buffer} (holds : Holds buf val t) :
    startsWith default (buf.drop val) = some (default.isPrefixOf t) := by
  obtain ⟨-, rest, here⟩ := holds
  rw [here, startsWith_eq clean]

theorem defaultBootEntry_eq {default : Text} (clean : 0 ∉ default) {buf : Buffer} {entries : List BootSection}
    {values : List Extlinux.BootSection} (reads : List.Forall₂ (SectionReads buf) entries values) (n before : Nat) :
    defaultBootEntry default buf (entries.zipIdx n) before = some (((values.map (·.label)).zipIdx n).foldl
        (fun entry row => if default.isPrefixOf (row.1.getD []) then row.2 else entry) before) := by
  induction reads generalizing n before with
  | nil => rfl
  | @cons entry value entries values first rest ih =>
    have label : Option.Rel (Holds buf) (some entry.label) value.label := first .label
    cases given : value.label with
    | none =>
      rw [given] at label
      cases label
    | some name =>
      rw [given] at label
      cases label with
      | some holds =>
        rw [List.zipIdx_cons, defaultBootEntry, holds.starts clean, Option.bind_some, ih, List.map_cons,
          List.zipIdx_cons, List.foldl_cons, given]
        rfl

end

end InPlace

end Cboot.Extlinux
