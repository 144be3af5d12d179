import Cboot.Cmdline.Model
import Cboot.Lib.Words
import Mathlib.Data.List.Induction

/-!
What `init_cmd_list` leaves in `s_cmdline`, argument by argument. Once an argument was taken back no blank is stored
behind those that follow it.
-/

namespace Cboot.Cmdline
open Lib.Words

def quoteMark (c : UInt8) : Bool := c == 34

abbrev IsArg : Text → Prop := IsWord iswhitespace quoteMark

def args (text : Text) : List Text := words iswhitespace quoteMark (complete quoteMark 34 text)

/-- `ignorefastboot`, bare or quoted. -/
def IsIgnore (t : Text) : Prop := t = ignoreFastbootCmd ∨ t = 34 :: ignoreFastbootCmd ++ [34]

instance (t : Text) : Decidable (IsIgnore t) := inferInstanceAs (Decidable (_ ∨ _))

structure Stored where
  out : Text
  ignore : Bool
  deriving DecidableEq, Repr

def Stored.add (e : Stored) (t : Text) : Stored :=
  if e.ignore then { e with out := e.out ++ t }
  else if IsIgnore t then { e with ignore := true }
  else { e with out := e.out ++ t ++ [32] }

def glued (ts : List Text) : Text := if ts = [] then [] else ts.flatten ++ [32]

def kept : Bool → List Text → Text
  | true, ts => glued ts
  | false, [] => []
  | false, t :: ts => if IsIgnore t then glued ts else t ++ [32] ++ kept false ts

section
variable {s : CmdList} {e : Stored} {quote ignore : Bool} {cur t : Text}

theorem apart (c : UInt8) (marked : quoteMark c = true) : iswhitespace c = false := by
  obtain rfl : c = 34 := by simpa [quoteMark] using marked
  rfl

theorem checkIgnore_iff (cmd : s.cmdline.drop s.start = t) : checkIgnoreFastbootCmd s = true ↔ IsIgnore t := by
  have bare : ignoreFastbootCmd.head? ≠ some 34 := by decide
  unfold checkIgnoreFastbootCmd IsIgnore
  dsimp only
  rw [cmd]
  by_cases quoted : t.head? = some 34
  · obtain ⟨rest, rfl⟩ : ∃ rest, t = 34 :: rest := by
      cases t with
      | nil => cases quoted
      | cons c rest =>
        obtain rfl : c = 34 := by simpa using quoted
        exact ⟨rest, rfl⟩
    have other : (34 :: rest) ≠ ignoreFastbootCmd := fun same => bare (same ▸ rfl)
    rw [if_pos quoted, or_iff_right other]
    simp only [Bool.and_eq_true, decide_eq_true_eq, List.length_cons, List.tail_cons, List.cons_append, List.cons.injEq,
      true_and]
    constructor
    · rintro ⟨⟨length, last⟩, start⟩
      have size : rest.length = ignoreFastbootCmd.length + 1 := by omega
      have split : rest = rest.take ignoreFastbootCmd.length ++ rest.drop ignoreFastbootCmd.length :=
        (List.take_append_drop ..).symm
      have one : (rest.drop ignoreFastbootCmd.length).length = 1 := by
        rw [List.length_drop]
        omega
      obtain ⟨c, single⟩ := List.length_eq_one_iff.mp one
      rw [of_decide_eq_true start, single] at split
      rw [split] at last ⊢
      have same := List.getLast?_append_of_ne_nil (34 :: ignoreFastbootCmd) (List.cons_ne_nil c [])
      obtain rfl : c = 34 := Option.some.inj (same.symm.trans last)
      rfl
    · rintro rfl
      refine ⟨⟨by simp, ?_⟩, decide_eq_true List.take_left⟩
      exact List.getLast?_append_of_ne_nil (34 :: ignoreFastbootCmd) (List.cons_ne_nil 34 [])
  · have other : t ≠ 34 :: ignoreFastbootCmd ++ [34] := by
      rintro rfl
      exact quoted rfl
    rw [if_neg quoted, or_iff_left other, decide_eq_true_eq]

/-- `s_cmdline` holds what is stored and, behind it, what there is of the next argument. -/
structure Reading (s : CmdList) (e : Stored) (quote : Bool) (cur : Text) : Prop where
  cmdline : s.cmdline = e.out ++ cur
  start : cur ≠ [] → s.start = e.out.length
  mood : s.mood = decide (cur ≠ [])
  mark : s.quote = quote
  closed : cur = [] → quote = false
  ignore : s.ignoreFastboot = e.ignore

theorem Reading.idle (reading : Reading s e false []) (c : UInt8) :
    Reading (s.step c) e (!iswhitespace c && quoteMark c) (if iswhitespace c then [] else [c]) := by
  have mood : s.mood = false := reading.mood
  have quiet : s.quote = false := reading.mark
  have whole : s.cmdline = e.out := reading.cmdline.trans (List.append_nil _)
  unfold CmdList.step
  rw [mood, if_neg Bool.false_ne_true]
  by_cases space : iswhitespace c = true
  · rw [space, if_pos rfl, if_pos rfl]
    exact reading
  · have other : iswhitespace c = false := Bool.not_eq_true _ ▸ space
    rw [other, if_neg Bool.false_ne_true, if_neg Bool.false_ne_true]
    refine ⟨congrArg (· ++ [c]) whole, fun _ => congrArg List.length whole, rfl, ?_, fun none => absurd none (by simp),
      reading.ignore⟩
    change (s.quote || quoteMark c) = _
    rw [quiet]
    simp

variable (reading : Reading s e quote cur)
include reading

theorem Reading.cmd (some : cur ≠ []) : s.cmdline.drop s.start = cur := by
  rw [reading.cmdline, reading.start some, List.drop_left]

theorem Reading.check_removed (some : cur ≠ []) (ignored : e.ignore = false)
    (special : IsIgnore cur) : s.check = { s with cmdline := e.out, ignoreFastboot := true } := by
  unfold CmdList.check
  rw [reading.ignore, ignored, (checkIgnore_iff (reading.cmd some)).mpr special, reading.start some, reading.cmdline,
    List.take_left]
  rfl

theorem Reading.check_kept (some : cur ≠ []) (stays : e.ignore = true ∨ ¬ IsIgnore cur) :
    s.check = s := by
  have refused : ¬ (!s.ignoreFastboot && checkIgnoreFastbootCmd s) = true := by
    rw [reading.ignore]
    simp only [Bool.and_eq_true, Bool.not_eq_true', checkIgnore_iff (reading.cmd some)]
    rintro ⟨ignored, special⟩
    rcases stays with before | other
    · exact Bool.false_ne_true (ignored.symm.trans before)
    · exact other special
  rw [CmdList.check, if_neg refused]

theorem Reading.put (some : cur ≠ []) (c : UInt8) :
    Reading { s.put c with quote := quote ^^ quoteMark c } e (quote ^^ quoteMark c) (cur ++ [c]) where
  cmdline := by
    change s.cmdline ++ [c] = _
    rw [reading.cmdline, List.append_assoc]
  start _ := reading.start some
  mood := by
    change s.mood = _
    rw [reading.mood]
    simp [some]
  mark := rfl
  closed none := absurd none (by simp)
  ignore := reading.ignore

omit reading in
theorem Reading.finish (reading : Reading s e false cur) (some : cur ≠ []) :
    Reading { (if s.check.ignoreFastboot then s.check else s.check.put 32) with mood := false } (e.add cur) false [] := by
  have quiet : s.quote = false := reading.mark
  unfold Stored.add
  cases ignored : e.ignore with
  | true =>
    have before : s.ignoreFastboot = true := reading.ignore.trans ignored
    rw [reading.check_kept some (.inl ignored), before]
    refine ⟨?_, fun some => absurd rfl some, rfl, quiet, fun _ => rfl, before⟩
    exact reading.cmdline.trans (List.append_nil _).symm
  | false =>
    by_cases special : IsIgnore cur
    · rw [reading.check_removed some ignored special, if_neg Bool.false_ne_true, if_pos special]
      exact ⟨(List.append_nil _).symm, fun some => absurd rfl some, rfl, quiet, fun _ => rfl, rfl⟩
    · have before : s.ignoreFastboot = false := reading.ignore.trans ignored
      rw [reading.check_kept some (.inr special), before, if_neg Bool.false_ne_true, if_neg special]
      refine ⟨?_, fun some => absurd rfl some, rfl, quiet, fun _ => rfl, before⟩
      change s.cmdline ++ [32] = e.out ++ cur ++ [32] ++ []
      rw [reading.cmdline, List.append_nil]

theorem Reading.busy (some : cur ≠ []) (c : UInt8) :
    if !quote && iswhitespace c then Reading (s.step c) (e.add cur) false []
    else Reading (s.step c) e (quote ^^ quoteMark c) (cur ++ [c]) := by
  have mood : s.mood = true := reading.mood.trans (decide_eq_true some)
  have longer := reading.put some c
  have same (kept : quoteMark c = false) : ({ s.put c with quote := quote ^^ quoteMark c } : CmdList) = s.put c := by
    rw [CmdList.put, kept, Bool.xor_false, ← reading.mark]
  unfold CmdList.step
  rw [mood, if_pos rfl, reading.mark]
  by_cases space : iswhitespace c = true
  · rw [if_pos space]
    cases quote with
    | true =>
      rw [same (unmarked_of_blank apart space)] at longer
      simpa using longer
    | false =>
      simp only [space, Bool.not_false, Bool.and_true, if_true, Bool.false_eq_true, if_false]
      exact reading.finish some
  · have other : iswhitespace c = false := Bool.not_eq_true _ ▸ space
    rw [other, Bool.and_false, if_neg Bool.false_ne_true, if_neg Bool.false_ne_true]
    by_cases marked : c = 34
    · have turned : (quote ^^ quoteMark c) = !quote := by
        rw [marked]
        exact Bool.xor_true quote
      rw [if_pos marked]
      rw [turned] at longer ⊢
      exact longer
    · rw [same (by simp [quoteMark, marked])] at longer
      rw [if_neg marked]
      exact longer

theorem Reading.foldl (text : Text) :
    Reading (text.foldl CmdList.step s) ((cutFrom iswhitespace quoteMark quote cur text).finished.foldl Stored.add e)
      (cutFrom iswhitespace quoteMark quote cur text).quote (cutFrom iswhitespace quoteMark quote cur text).cur := by
  induction text generalizing s e quote cur with
  | nil => exact reading
  | cons c text ih =>
    rw [List.foldl_cons, cutFrom]
    by_cases none : cur = []
    · obtain rfl := none
      obtain rfl := reading.closed rfl
      have next := reading.idle c
      cases space : iswhitespace c with
      | true =>
        rw [space] at next
        exact ih next
      | false =>
        rw [space] at next
        simpa using ih next
    · have next := reading.busy none c
      cases cuts : !quote && iswhitespace c with
      | true =>
        rw [cuts] at next
        rw [if_pos rfl, if_neg none]
        exact ih next
      | false =>
        rw [cuts] at next
        exact ih next

omit reading

theorem reading_start (ignore : Bool) : Reading ⟨[], 0, false, false, ignore⟩ ⟨[], ignore⟩ false [] :=
  ⟨rfl, fun some => absurd rfl some, rfl, rfl, fun _ => rfl, rfl⟩

def stored (ignore : Bool) (ts : List Text) : Stored := ts.foldl Stored.add ⟨[], ignore⟩

theorem stored_concat (ignore : Bool) (ts : List Text) (t : Text) :
    stored ignore (ts ++ [t]) = (stored ignore ts).add t := by
  rw [stored, List.foldl_concat]
  rfl

variable {ts : List Text}

theorem stored_plain (plain : (stored ignore ts).ignore = false) :
    ignore = false ∧ (∀ t ∈ ts, ¬ IsIgnore t) ∧ (stored ignore ts).out = ts.flatMap (· ++ [32]) := by
  induction ts using List.reverseRecOn with
  | nil => exact ⟨plain, nofun, rfl⟩
  | append_singleton ts t ih =>
    rw [stored_concat, Stored.add] at plain ⊢
    by_cases before : (stored ignore ts).ignore = true
    · rw [if_pos before] at plain
      exact absurd (plain.symm.trans before) Bool.false_ne_true
    · rw [if_neg before] at plain ⊢
      by_cases special : IsIgnore t
      · rw [if_pos special] at plain
        cases plain
      · rw [if_neg special]
        obtain ⟨first, others, out⟩ := ih (Bool.not_eq_true _ ▸ before)
        refine ⟨first, ?_, ?_⟩
        · intro u member
          rcases List.mem_append.mp member with earlier | last
          · exact others u earlier
          · rwa [List.mem_singleton.mp last]
        · change (stored ignore ts).out ++ t ++ [32] = _
          rw [out, List.flatMap_append, List.append_assoc]
          simp

theorem glued_concat (ts : List Text) (t : Text) : glued (ts ++ [t]) = ts.flatten ++ t ++ [32] := by
  simp [glued]

theorem stored_true (ts : List Text) (out : Text) : ts.foldl Stored.add ⟨out, true⟩ = ⟨out ++ ts.flatten, true⟩ := by
  induction ts generalizing out with
  | nil => simp
  | cons t ts ih =>
    rw [List.foldl_cons, Stored.add, if_pos rfl, ih]
    simp

theorem stored_out (ts : List Text) (out : Text) :
    ts.foldl Stored.add ⟨out, false⟩ = ⟨out ++ (stored false ts).out, (stored false ts).ignore⟩ := by
  induction ts generalizing out with
  | nil => simp [stored]
  | cons t ts ih =>
    unfold stored
    rw [List.foldl_cons, List.foldl_cons, Stored.add, Stored.add, if_neg Bool.false_ne_true, if_neg Bool.false_ne_true]
    by_cases special : IsIgnore t
    · rw [if_pos special, if_pos special, stored_true, stored_true]
      simp
    · rw [if_neg special, if_neg special, ih, ih]
      simp

theorem kept_concat (ignore : Bool) (ts : List Text) (t : Text) : kept ignore (ts ++ [t]) =
    if (stored ignore ts).ignore = false ∧ IsIgnore t then (stored ignore ts).out
    else (stored ignore ts).out ++ t ++ [32] := by
  cases ignore with
  | true =>
    rw [kept, glued_concat, stored, stored_true]
    simp
  | false =>
    induction ts with
    | nil =>
      by_cases special : IsIgnore t
      · simp [kept, special, glued, stored]
      · simp [kept, special, stored]
    | cons u ts ih =>
      rw [List.cons_append, kept]
      unfold stored
      rw [List.foldl_cons, Stored.add, if_neg Bool.false_ne_true]
      by_cases special : IsIgnore u
      · rw [if_pos special, if_pos special, glued_concat, stored_true]
        simp
      · rw [if_neg special, if_neg special, ih, stored_out]
        split <;> simp

theorem kept_stored (each : ∀ t ∈ ts, IsArg t) (ignore : Bool) : kept ignore ts =
    if (stored ignore ts).out = [] ∨ (stored ignore ts).out.getLast? = some 32 then (stored ignore ts).out
    else (stored ignore ts).out ++ [32] := by
  cases ts using List.reverseRecOn with
  | nil => cases ignore <;> rfl
  | append_singleton ts t =>
    have isArg := each t (List.mem_append_right _ List.mem_cons_self)
    rw [kept_concat, stored_concat, Stored.add]
    cases before : (stored ignore ts).ignore with
    | true =>
      obtain ⟨init, c, rfl⟩ := (List.eq_nil_or_concat' t).resolve_left isArg.some
      have last : c ≠ 32 := by
        rintro rfl
        exact absurd (getLast_isWord apart isArg) (by decide)
      rw [if_neg (fun removed => Bool.false_ne_true removed.1.symm), if_pos rfl]
      simp [last]
    | false =>
      by_cases special : IsIgnore t
      · have blank : (stored ignore ts).out = [] ∨ (stored ignore ts).out.getLast? = some 32 := by
          rw [(stored_plain before).2.2]
          cases ts using List.reverseRecOn with
          | nil => exact .inl rfl
          | append_singleton ts u => simp
        rw [if_pos ⟨rfl, special⟩, if_neg Bool.false_ne_true, if_pos special]
        dsimp only
        rw [if_pos blank]
      · rw [if_neg (fun removed => special removed.2), if_neg Bool.false_ne_true, if_neg special]
        simp

def cutLine (text : Text) : Cut UInt8 := cut iswhitespace quoteMark text

/-- The line is nothing but `ignorefastboot`, without a blank behind it. -/
def Vanishes (ignore : Bool) (text : Text) : Prop :=
  ignore = false ∧ (cutLine text).finished = [] ∧ (cutLine text).cur ≠ [] ∧ IsIgnore ((cutLine text).last 34)

instance (ignore : Bool) (text : Text) : Decidable (Vanishes ignore text) :=
  inferInstanceAs (Decidable (_ ∧ _ ∧ _ ∧ _))

variable {text : Text}

theorem args_eq (text : Text) : args text =
    if (cutLine text).cur = [] then (cutLine text).finished else (cutLine text).finished ++ [(cutLine text).last 34] :=
  words_complete apart rfl text

theorem isArg_of_mem (member : t ∈ args text) : IsArg t := isWord_of_mem apart rfl member

def readLine (ignore : Bool) (text : Text) : CmdList := text.foldl CmdList.step ⟨[], 0, false, false, ignore⟩

theorem reading_line (ignore : Bool) (text : Text) : Reading (readLine ignore text)
    (stored ignore (cutLine text).finished) (cutLine text).quote (cutLine text).cur :=
  (reading_start ignore).foldl text

theorem last_ne_nil (some : (cutLine text).cur ≠ []) : (cutLine text).last 34 ≠ [] := by
  unfold Cut.last
  split
  · exact List.append_ne_nil_of_left_ne_nil some _
  · exact some

theorem reading_completed (ignore : Bool) (some : (cutLine text).cur ≠ []) : Reading (readLine ignore text).completed
    (stored ignore (cutLine text).finished) (cutLine text).quote ((cutLine text).last 34) := by
  have reading := reading_line ignore text
  unfold CmdList.completed Cut.last
  rw [reading.mark]
  cases quote : (cutLine text).quote with
  | true =>
    refine ⟨?_, fun _ => reading.start some, ?_, reading.mark.trans quote, fun none => absurd none (by simp), reading.ignore⟩
    · change (readLine ignore text).cmdline ++ [34] = _
      rw [reading.cmdline, List.append_assoc]
      rfl
    · change (readLine ignore text).mood = _
      rw [reading.mood]
      simp [some]
  | false =>
    rw [quote] at reading
    exact reading

variable {before : UInt8}

theorem normalise_nil (none : (readLine ignore text).cmdline = []) :
    normalise before ignore text = readLine ignore text := by
  unfold normalise
  exact if_pos none

theorem normalise_eq (some : (readLine ignore text).cmdline ≠ []) :
    normalise before ignore text = (readLine ignore text).completed.check.closed before := by
  unfold normalise
  exact if_neg some

theorem closed_cmdline (some : s.cmdline ≠ []) : (s.closed before).cmdline =
    if s.cmdline.getLast? = Option.some 32 then s.cmdline else s.cmdline ++ [32] := by
  obtain ⟨init, c, whole⟩ := (List.eq_nil_or_concat' s.cmdline).resolve_left some
  unfold CmdList.closed
  rw [whole, List.getLast?_concat]
  by_cases blank : c = 32
  · simp [blank, whole]
  · simp [blank, CmdList.put, whole]

theorem check_blank (blank : s.cmdline.getLast? = some 32) : s.check = s := by
  have refused : checkIgnoreFastbootCmd s = false := by
    refine Bool.eq_false_iff.mpr fun found => ?_
    have special := (checkIgnore_iff rfl).mp found
    have some : s.cmdline.drop s.start ≠ [] := by
      rcases special with bare | quoted
      · rw [bare]
        decide
      · rw [quoted]
        exact List.cons_ne_nil 34 _
    have last : (s.cmdline.drop s.start).getLast? = Option.some 32 := by
      rw [← blank]
      conv_rhs => rw [← List.take_append_drop s.start s.cmdline]
      exact (List.getLast?_append_of_ne_nil _ some).symm
    rcases special with bare | quoted
    · rw [bare] at last
      exact absurd last (by decide)
    · rw [quoted] at last
      exact absurd last (by decide)
  unfold CmdList.check
  rw [refused, Bool.and_false]
  exact if_neg Bool.false_ne_true

theorem completed_idle (none : (cutLine text).cur = []) : (readLine ignore text).completed = readLine ignore text := by
  have reading := reading_line ignore text
  rw [CmdList.completed, reading.mark, reading.closed none]
  rfl

theorem check_idle (none : (cutLine text).cur = []) (some : (stored ignore (cutLine text).finished).out ≠ []) :
    (readLine ignore text).check = readLine ignore text := by
  have reading := reading_line ignore text
  cases before : (stored ignore (cutLine text).finished).ignore with
  | true =>
    rw [CmdList.check, reading.ignore, before]
    exact if_neg Bool.false_ne_true
  | false =>
    refine check_blank ?_
    rw [reading.cmdline, none, List.append_nil, (stored_plain before).2.2]
    rw [(stored_plain before).2.2] at some
    cases finished : (cutLine text).finished using List.reverseRecOn with
    | nil =>
      rw [finished] at some
      exact absurd rfl some
    | append_singleton ts t => simp

theorem normalise_idle (none : (cutLine text).cur = [])
    (some : (stored ignore (cutLine text).finished).out ≠ []) :
    (normalise before ignore text).cmdline = kept ignore (cutLine text).finished := by
  have finished : ∀ t ∈ (cutLine text).finished, IsArg t := (isWord_cut iswhitespace quoteMark text).1
  have whole : (readLine ignore text).cmdline = (stored ignore (cutLine text).finished).out := by
    rw [(reading_line ignore text).cmdline, none, List.append_nil]
  rw [normalise_eq (by rwa [whole]), completed_idle none, check_idle none some, closed_cmdline (by rwa [whole]), whole,
    kept_stored finished]
  simp only [some, false_or]

theorem normalise_busy (some : (cutLine text).cur ≠ []) : (normalise before ignore text).cmdline =
    if Vanishes ignore text then (if before = 32 then [] else [32])
    else kept ignore ((cutLine text).finished ++ [(cutLine text).last 34]) := by
  have reading := reading_completed ignore some
  have last := last_ne_nil some
  have member : (cutLine text).last 34 ∈ args text := by
    rw [args_eq, if_neg some]
    exact List.mem_append_right _ List.mem_cons_self
  obtain ⟨init, c, whole⟩ := (List.eq_nil_or_concat' ((cutLine text).last 34)).resolve_left last
  have solid : c ≠ 32 := by
    rintro rfl
    exact absurd (getLast_isWord apart (whole ▸ isArg_of_mem member)) (by decide)
  have nonempty : (readLine ignore text).cmdline ≠ [] := by
    rw [(reading_line ignore text).cmdline]
    exact List.append_ne_nil_of_right_ne_nil _ some
  rw [normalise_eq nonempty, kept_concat]
  by_cases removed : (stored ignore (cutLine text).finished).ignore = false ∧ IsIgnore ((cutLine text).last 34)
  · have special := removed.2
    obtain ⟨first, -, out⟩ := stored_plain removed.1
    rw [reading.check_removed last removed.1 special, if_pos removed]
    cases finished : (cutLine text).finished using List.reverseRecOn with
    | nil =>
      have vanishes : Vanishes ignore text := ⟨first, finished, some, special⟩
      rw [if_pos vanishes]
      unfold CmdList.closed
      by_cases blank : before = 32
      · simp [stored, blank]
      · simp [stored, blank, CmdList.put]
    | append_singleton ts t =>
      have more : ¬ Vanishes ignore text := by
        rintro ⟨-, empty, -⟩
        rw [finished] at empty
        exact absurd empty (by simp)
      rw [finished] at out
      have ends : (stored ignore (ts ++ [t])).out.getLast? = Option.some 32 := by
        rw [out]
        simp
      rw [if_neg more]
      unfold CmdList.closed
      dsimp only
      rw [ends]
      rfl
  · have stays : ¬ Vanishes ignore text := by
      rintro ⟨rfl, empty, -, special⟩
      rw [empty] at removed
      exact removed ⟨rfl, special⟩
    have kept : (readLine ignore text).completed.check = (readLine ignore text).completed := by
      refine reading.check_kept last ?_
      by_cases before : (stored ignore (cutLine text).finished).ignore = true
      · exact .inl before
      · exact .inr fun special => removed ⟨Bool.not_eq_true _ ▸ before, special⟩
    have line : (readLine ignore text).completed.cmdline =
        (stored ignore (cutLine text).finished).out ++ init ++ [c] := by
      rw [reading.cmdline, whole, List.append_assoc]
    have ends : ¬ (readLine ignore text).completed.cmdline.getLast? = Option.some 32 := by
      rw [line, List.getLast?_concat]
      simpa using solid
    rw [if_neg removed, if_neg stays, kept, closed_cmdline (by rw [line]; simp), if_neg ends, reading.cmdline]

theorem stored_quiet (plain : ∀ t ∈ ts, ¬ IsIgnore t) : (stored false ts).ignore = false := by
  induction ts using List.reverseRecOn with
  | nil => rfl
  | append_singleton ts t ih =>
    have before := ih fun u early => plain u (List.mem_append_left _ early)
    have last := plain t (List.mem_append_right _ List.mem_cons_self)
    rw [stored_concat, Stored.add, before, if_neg Bool.false_ne_true, if_neg last]

theorem kept_plain (plain : ∀ t ∈ ts, ¬ IsIgnore t) : kept false ts = ts.flatMap (· ++ [32]) := by
  induction ts with
  | nil => rfl
  | cons t ts ih =>
    rw [kept, if_neg (plain t List.mem_cons_self), ih fun u later => plain u (List.mem_cons_of_mem t later)]
    rfl

theorem completed_ignore (s : CmdList) : s.completed.ignoreFastboot = s.ignoreFastboot := by
  unfold CmdList.completed
  split
  · rfl
  · rfl

theorem closed_ignore (before : UInt8) (s : CmdList) : (s.closed before).ignoreFastboot = s.ignoreFastboot := by
  unfold CmdList.closed
  split
  · rfl
  · rfl

theorem normalise_ignore (before : UInt8) (plain : ∀ t ∈ args text, ¬ IsIgnore t) :
    (normalise before false text).ignoreFastboot = false := by
  rw [args_eq] at plain
  have finished : ∀ t ∈ (cutLine text).finished, ¬ IsIgnore t := by
    intro t early
    refine plain t ?_
    split
    · exact early
    · exact List.mem_append_left _ early
  have quiet : (readLine false text).ignoreFastboot = false := (reading_line false text).ignore.trans (stored_quiet finished)
  by_cases empty : (readLine false text).cmdline = []
  · rw [normalise_nil empty]
    exact quiet
  · rw [normalise_eq empty, closed_ignore]
    by_cases none : (cutLine text).cur = []
    · have some : (stored false (cutLine text).finished).out ≠ [] := by
        rwa [(reading_line false text).cmdline, none, List.append_nil] at empty
      rw [completed_idle none, check_idle none some]
      exact quiet
    · have last := plain ((cutLine text).last 34) (by rw [if_neg none]; exact List.mem_append_right _ List.mem_cons_self)
      rw [(reading_completed false none).check_kept (last_ne_nil none) (.inr last), completed_ignore]
      exact quiet

theorem normalise_cmdline (before : UInt8) (ignore : Bool) (text : Text) : (normalise before ignore text).cmdline =
    if Vanishes ignore text then (if before = 32 then [] else [32]) else kept ignore (args text) := by
  by_cases none : (cutLine text).cur = []
  · have stays : ¬ Vanishes ignore text := fun vanishes => vanishes.2.2.1 none
    rw [if_neg stays, args_eq, if_pos none]
    by_cases empty : (stored ignore (cutLine text).finished).out = []
    · have whole : (readLine ignore text).cmdline = [] := by
        rw [(reading_line ignore text).cmdline, none, empty]
        rfl
      have finished : ∀ t ∈ (cutLine text).finished, IsArg t := (isWord_cut iswhitespace quoteMark text).1
      rw [kept_stored finished, if_pos (.inl empty), empty, normalise_nil whole]
      exact whole
    · exact normalise_idle none empty
  · rw [args_eq, if_neg none]
    exact normalise_busy none

end

end Cboot.Cmdline
