import Cboot.Cmdline.Args

/-!
The blank behind an argument is not stored once `ignorefastboot` was taken back, so what follows it becomes one
argument.
-/

namespace Cboot.Cmdline
open Lib.Words

/-- The arguments behind the one that is taken back. Where one was taken back before, these are all. -/
def afterIgnore : Bool → List Text → List Text
  | true, ts => ts
  | false, [] => []
  | false, t :: ts => if IsIgnore t then ts else afterIgnore false ts

/-- The arguments of what `init_cmd_list` leaves are those of the line, without `ignorefastboot`. -/
def Preserved (before : UInt8) (ignoreFastboot : Bool) (cmdline : Text) : Prop :=
  ∃ s, initCmdList before ignoreFastboot cmdline = some s ∧
    words iswhitespace quoteMark s.cmdline = (args cmdline).filter fun t => ¬ IsIgnore t

section
variable {s : CmdList} {before : UInt8} {ignore : Bool} {text : Text} {ts : List Text}

theorem check_length (s : CmdList) : s.check.cmdline.length ≤ s.cmdline.length := by
  unfold CmdList.check
  split
  · exact List.length_take_le' ..
  · exact Nat.le_refl _

theorem put_length (s : CmdList) (c : UInt8) : (s.put c).cmdline.length = s.cmdline.length + 1 := by
  simp [CmdList.put]

theorem step_length (s : CmdList) (c : UInt8) : (s.step c).cmdline.length ≤ s.cmdline.length + 1 := by
  have checked := check_length s
  unfold CmdList.step
  split
  · split
    · split
      · exact Nat.le_of_eq (put_length s c)
      · dsimp only
        split
        · omega
        · rw [put_length]
          omega
    · split
      · exact Nat.le_of_eq (put_length s c)
      · exact Nat.le_of_eq (put_length s c)
  · split
    · omega
    · exact Nat.le_of_eq (put_length s c)

theorem foldl_length (s : CmdList) (text : Text) :
    (text.foldl CmdList.step s).cmdline.length ≤ s.cmdline.length + text.length := by
  induction text generalizing s with
  | nil => exact Nat.le_refl _
  | cons c text ih =>
    have next := ih (s.step c)
    have one := step_length s c
    rw [List.foldl_cons, List.length_cons]
    omega

theorem readLine_length (ignore : Bool) (text : Text) : (readLine ignore text).cmdline.length ≤ text.length := by
  have all := foldl_length ⟨[], 0, false, false, ignore⟩ text
  rwa [List.length_nil, Nat.zero_add] at all

theorem completed_length (s : CmdList) : s.completed.cmdline.length ≤ s.cmdline.length + 1 := by
  unfold CmdList.completed
  split
  · exact Nat.le_of_eq (put_length s 34)
  · omega

theorem closed_length (before : UInt8) (s : CmdList) : (s.closed before).cmdline.length ≤ s.cmdline.length + 1 := by
  unfold CmdList.closed
  split
  · omega
  · exact Nat.le_of_eq (put_length s 32)

theorem normalise_length (before : UInt8) (ignore : Bool) (text : Text) :
    (normalise before ignore text).cmdline.length ≤ text.length + 2 := by
  have read := readLine_length ignore text
  by_cases none : (readLine ignore text).cmdline = []
  · rw [normalise_nil none]
    omega
  · have closed := closed_length before (readLine ignore text).completed.check
    have checked := check_length (readLine ignore text).completed
    have completed := completed_length (readLine ignore text)
    rw [normalise_eq none]
    omega

theorem initCmdList_short (before : UInt8) (ignore : Bool) (short : text.length < 2000) :
    initCmdList before ignore text = some (normalise before ignore text) := by
  have size : commandLineSize = 2048 := rfl
  have whole : text.take commandLineSize = text := List.take_of_length_le (by omega)
  have final := normalise_length before ignore text
  have read := readLine_length ignore text
  have completed := completed_length (readLine ignore text)
  have fits : longest before ignore text < commandLineSize := by
    unfold longest
    change max (if (readLine ignore text).cmdline = [] then 0 else (readLine ignore text).completed.cmdline.length - 1) _ < _
    split
    · omega
    · omega
  unfold initCmdList
  dsimp only
  rw [whole, if_pos fits]

theorem words_glued (each : ∀ t ∈ ts, IsArg t) :
    words iswhitespace quoteMark (glued ts) = if ts = [] then [] else [ts.flatten] := by
  unfold glued
  split
  · rfl
  · rename_i some
    exact words_append (isWord_flatten some each) rfl []

def beforeIgnore : Bool → List Text → List Text
  | true, _ => []
  | false, [] => []
  | false, t :: ts => if IsIgnore t then [] else t :: beforeIgnore false ts

theorem filter_args (ignore : Bool) (ts : List Text) : (ts.filter fun t => ¬ IsIgnore t) =
    beforeIgnore ignore ts ++ (afterIgnore ignore ts).filter fun t => ¬ IsIgnore t := by
  cases ignore with
  | true => simp [beforeIgnore, afterIgnore]
  | false =>
    induction ts with
    | nil => rfl
    | cons t ts ih =>
      unfold beforeIgnore afterIgnore
      by_cases special : IsIgnore t
      · simp [special]
      · simp [special] at ih ⊢
        exact ih

theorem words_kept (each : ∀ t ∈ ts, IsArg t) (ignore : Bool) : words iswhitespace quoteMark (kept ignore ts) =
    beforeIgnore ignore ts ++ if afterIgnore ignore ts = [] then [] else [(afterIgnore ignore ts).flatten] := by
  cases ignore with
  | true =>
    rw [kept, beforeIgnore, afterIgnore]
    exact words_glued each
  | false =>
    induction ts with
    | nil => rfl
    | cons t ts ih =>
      have rest : ∀ u ∈ ts, IsArg u := fun u later => each u (List.mem_cons_of_mem t later)
      unfold kept beforeIgnore afterIgnore
      by_cases special : IsIgnore t
      · rw [if_pos special, if_pos special, if_pos special, words_glued rest]
        rfl
      · rw [if_neg special, if_neg special, if_neg special, List.append_assoc, List.singleton_append,
          words_append (each t List.mem_cons_self) rfl, ih rest]
        rfl

theorem mem_afterIgnore (member : t ∈ afterIgnore ignore ts) : t ∈ ts := by
  cases ignore with
  | true => rwa [afterIgnore] at member
  | false =>
    induction ts with
    | nil => exact member
    | cons u ts ih =>
      unfold afterIgnore at member
      split at member
      · exact List.mem_cons_of_mem u member
      · exact List.mem_cons_of_mem u (ih member)

theorem flatten_eq_mem (each : ∀ t ∈ ts, t ≠ []) (member : ts.flatten ∈ ts) : ts = [ts.flatten] := by
  obtain ⟨first, later, split⟩ := List.append_of_mem member
  have length := congrArg (fun us : List Text => us.flatten.length) split
  simp only [List.flatten_append, List.flatten_cons, List.length_append] at length
  have none (us : List Text) (inside : ∀ u ∈ us, u ∈ ts) (empty : us.flatten.length = 0) : us = [] := by
    cases us with
    | nil => rfl
    | cons u us =>
      rw [List.flatten_cons, List.length_append] at empty
      have nothing : u = [] := List.eq_nil_of_length_eq_zero (by omega)
      exact absurd nothing (each u (inside u List.mem_cons_self))
  have start := none first (fun u here => split ▸ List.mem_append_left _ here) (by omega)
  have rest := none later (fun u here => split ▸ List.mem_append_right _ (List.mem_cons_of_mem _ here)) (by omega)
  rwa [start, rest] at split

theorem glued_iff (each : ∀ t ∈ ts, t ≠ []) : (if ts = [] then [] else [ts.flatten]) = (ts.filter fun t => ¬ IsIgnore t) ↔
    ts.length ≤ 1 ∧ ∀ t ∈ ts, ¬ IsIgnore t := by
  constructor
  · intro same
    by_cases none : ts = []
    · simp [none]
    · rw [if_neg none] at same
      have member : ts.flatten ∈ ts.filter fun t => ¬ IsIgnore t := by
        rw [← same]
        exact List.mem_singleton.mpr rfl
      obtain ⟨inside, plain⟩ := List.mem_filter.mp member
      have one := flatten_eq_mem each inside
      refine ⟨by rw [one]; exact Nat.le_refl 1, ?_⟩
      intro t here
      rw [one] at here
      rw [List.mem_singleton.mp here]
      simpa using plain
  · rintro ⟨few, plain⟩
    cases ts with
    | nil => rfl
    | cons t ts =>
      obtain rfl : ts = [] := List.eq_nil_of_length_eq_zero (by simpa using few)
      simp [plain t List.mem_cons_self]

end

/-- The arguments of a line are preserved exactly when there is no more than one behind the first `ignorefastboot`, and
that is another. -/
theorem arguments_preserved_iff (before : UInt8) (ignore : Bool) (text : Text) (short : text.length < 2000) :
    Preserved before ignore text ↔
      (afterIgnore ignore (args text)).length ≤ 1 ∧ ∀ t ∈ afterIgnore ignore (args text), ¬ IsIgnore t := by
  have each : ∀ t ∈ args text, IsArg t := fun t member => isArg_of_mem member
  have some : ∀ t ∈ afterIgnore ignore (args text), t ≠ [] := fun t member => (each t (mem_afterIgnore member)).some
  have same : Preserved before ignore text ↔ words iswhitespace quoteMark (normalise before ignore text).cmdline =
      (args text).filter fun t => ¬ IsIgnore t := by
    unfold Preserved
    rw [initCmdList_short before ignore short]
    simp
  rw [same, normalise_cmdline]
  by_cases vanishes : Vanishes ignore text
  · have special := vanishes.2.2.2
    have one : args text = [(cutLine text).last 34] := by
      rw [args_eq, if_neg vanishes.2.2.1, vanishes.2.1]
      rfl
    have nothing : words iswhitespace quoteMark (if before = 32 then [] else [32]) = [] := by
      split
      · rfl
      · rfl
    rw [if_pos vanishes, nothing, one, vanishes.1]
    simp [afterIgnore, special]
  · rw [if_neg vanishes, words_kept each, filter_args ignore, List.append_cancel_left_eq]
    exact glued_iff some

theorem arguments_preserved_last : Preserved 0 false (ascii "a=\"b c\" ignorefastboot d") :=
  (arguments_preserved_iff 0 false _ (by decide)).mpr (by decide)

/-- Two arguments behind `ignorefastboot` become one. -/
theorem arguments_joined : ¬ Preserved 0 false (ascii "ignorefastboot a b") := by
  rintro ⟨s, init, same⟩
  rw [initCmdList_short 0 false (by decide)] at init
  cases init
  revert same
  decide

end Cboot.Cmdline
