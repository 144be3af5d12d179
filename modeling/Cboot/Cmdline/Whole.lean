import Cboot.Cmdline.Model
import Cboot.Lib.Runs

/-!
What a handler prints is cut off where the buffer ends, and what is left of it is kept.
-/

namespace Cboot.Cmdline
open Lib

def Whole (text part : Text) : Prop := part = [] ∨ part = text ∨ part ++ [32] = text

def Param.text (p : Param) : Text := p.texts.flatten

def added (s : CmdList) (l : Line) (p : Param) : Text := (appendParam s l p).cmdline.drop l.cmdline.length

def parts (s : CmdList) : Line → List Param → List Text
  | _, [] => []
  | l, p :: params => added s l p :: parts s (appendParam s l p) params

def lineOf (s : CmdList) : Line := ⟨s.cmdline, commandLineSize - s.cmdline.length⟩

def bootimgText (bootimgCmdline : Option Text) : Text :=
  match bootimgCmdline with
  | none => []
  | some cmdline => if cmdline = [] then [] else cmdline ++ [32]

def WholeLine (before : UInt8) (ignoreFastboot : Bool) (initcmdline : Text) (bootimgCmdline : Option Text)
    (params : List Param) (result : Text) : Prop :=
  ∃ s l boot, initCmdList before ignoreFastboot initcmdline = some s ∧
    addBootimgCmdline (lineOf s) bootimgCmdline = (l, false) ∧ l.cmdline = s.cmdline ++ boot ∧
    Whole (bootimgText bootimgCmdline) boot ∧ (boot = [] → bootimgText bootimgCmdline = [] ∨
      commandLineSize < s.cmdline.length + (bootimgText bootimgCmdline).length) ∧
    result = (normalise before ignoreFastboot initcmdline).cmdline ++ boot ++ (parts s l params).flatten ∧
    result.length < commandLineSize ∧ List.Forall₂ Whole (params.map Param.text) (parts s l params)

/-- What is past the first `COMMAND_LINE_SIZE` characters makes no difference, and what is left of them fits. -/
def Fits (before : UInt8) (ignoreFastboot : Bool) (initcmdline : Text) : Prop :=
  longest before ignoreFastboot (initcmdline.take commandLineSize) < commandLineSize ∧
    (normalise before ignoreFastboot (initcmdline.take commandLineSize)).cmdline =
      (normalise before ignoreFastboot initcmdline).cmdline

/-- The parameter is there already, or there is space for all of it but for the blank, or not even for its first
piece. -/
def Roomy (s : CmdList) (l : Line) (p : Param) : Prop :=
  doesCommandExist s p.str = true ∨ p.text.length < l.remain ∨
    (p.text.length = l.remain ∧ (solid p.texts).getLast? = some [32]) ∨ l.remain ≤ ((solid p.texts).headD []).length

instance (s : CmdList) (l : Line) (p : Param) : Decidable (Roomy s l p) := by
  unfold Roomy
  infer_instance

structure Line.Spaced (l : Line) : Prop where
  total : l.cmdline.length + l.remain = commandLineSize
  remain : 0 < l.remain

section
variable {s : CmdList} {l : Line}

theorem keep_eq {text : Text} (fits : text.length < l.remain) :
    l.keep text = ⟨l.cmdline ++ text, l.remain - text.length⟩ := by
  unfold Line.keep
  cases text with
  | nil => simp
  | cons c text => rw [if_pos ⟨by simp, Nat.le_of_lt fits⟩]

theorem vsnprintf_eq {size : Nat} (space : 0 < size) (format : Text) (args : List Arg) :
    tegrablVsnprintf size format args = write (size - 1) (formatted format args) := by
  unfold tegrablVsnprintf
  rw [if_neg (Nat.ne_of_gt space)]

theorem write_lt {size : Nat} (space : 0 < size) (texts : List Text) : (write (size - 1) texts).length < size := by
  have := write_length_le (size - 1) texts
  omega

theorem appendParam_eq (space : 0 < l.remain) (p : Param) :
    appendParam s l p = if doesCommandExist s p.str then l else l.keep (write (l.remain - 1) p.texts) := by
  have none : l.keep [] = l := by simp [Line.keep]
  unfold appendParam Param.texts
  cases p.append with
  | none => simp [write, none]
  | some append =>
    dsimp only
    cases append p.str with
    | none => simp [write, none]
    | some row =>
      dsimp only
      rw [vsnprintf_eq space]

theorem added_eq (space : 0 < l.remain) (p : Param) :
    added s l p = if doesCommandExist s p.str then [] else write (l.remain - 1) p.texts := by
  unfold added
  rw [appendParam_eq space]
  split
  · exact List.drop_length ..
  · rw [keep_eq (write_lt space _), List.drop_left]

theorem cmdline_appendParam (space : 0 < l.remain) (p : Param) :
    (appendParam s l p).cmdline = l.cmdline ++ added s l p := by
  rw [added_eq space, appendParam_eq space]
  split
  · rw [List.append_nil]
  · rw [keep_eq (write_lt space _)]

def bootimgAdded (l : Line) (bootimgCmdline : Option Text) : Text :=
  match bootimgCmdline with
  | none => []
  | some cmdline => if cmdline = [] then [] else write (l.remain - 1) [cmdline, [32]]

theorem formatted_string (text : Text) : formatted (ascii "%s ") [.str text] = [text, [32]] := rfl

theorem bootimg_whole (bootimgCmdline : Option Text) :
    Whole (bootimgText bootimgCmdline) (bootimgAdded l bootimgCmdline) := by
  unfold Whole bootimgText bootimgAdded
  cases bootimgCmdline with
  | none => exact .inl rfl
  | some cmdline =>
    by_cases empty : cmdline = []
    · simp [empty]
    · simp only [empty, if_false]
      rw [write_cons, write_cons]
      by_cases none : l.remain - 1 < cmdline.length ∨ l.remain - 1 = 0
      · simp [none]
      · rw [if_neg none]
        split
        · exact .inr (.inr (by simp))
        · exact .inr (.inl rfl)

variable (spaced : l.Spaced)
include spaced

theorem Line.Spaced.keep {text : Text} (fits : text.length < l.remain) : (l.keep text).Spaced := by
  have total := spaced.total
  rw [keep_eq fits]
  refine ⟨?_, Nat.sub_pos_of_lt fits⟩
  dsimp only
  rw [List.length_append]
  omega

theorem Line.Spaced.appendParam (p : Param) : (appendParam s l p).Spaced := by
  rw [appendParam_eq spaced.remain]
  split
  · exact spaced
  · exact spaced.keep (write_lt spaced.remain _)

theorem whole_iff_roomy (p : Param) : Whole p.text (added s l p) ↔ Roomy s l p := by
  have space := spaced.remain
  rw [added_eq space]
  unfold Whole Roomy
  by_cases here : doesCommandExist s p.str = true
  · simp [here]
  · rw [if_neg here, or_iff_right here]
    unfold Param.text
    rw [write_nil, write_all, write_blank]
    have empty : p.texts.flatten = [] → p.texts.flatten.length < l.remain := by
      intro none
      rw [none]
      exact space
    constructor
    · rintro ((none | first) | all | blank)
      · exact .inl (empty none)
      · exact .inr (.inr (by omega))
      · exact .inl (by omega)
      · exact .inr (.inl ⟨by omega, blank.2⟩)
    · rintro (all | blank | first)
      · exact .inr (.inl (by omega))
      · exact .inr (.inr ⟨by omega, blank.2⟩)
      · exact .inl (.inr (by omega))

theorem cmdline_appendParams (params : List Param) :
    (params.foldl (appendParam s) l).cmdline = l.cmdline ++ (parts s l params).flatten := by
  induction params generalizing l with
  | nil => simp [parts]
  | cons p params ih =>
    rw [List.foldl_cons, ih (spaced.appendParam p), cmdline_appendParam spaced.remain]
    simp [parts]

theorem spaced_appendParams (params : List Param) : (params.foldl (appendParam s) l).Spaced := by
  induction params generalizing l with
  | nil => exact spaced
  | cons p params ih => exact ih (spaced.appendParam p)

theorem parts_whole (params : List Param) :
    List.Forall₂ Whole (params.map Param.text) (parts s l params) ↔ EachStep (appendParam s) (Roomy s) l params := by
  induction params generalizing l with
  | nil => simp [parts]
  | cons p params ih =>
    rw [eachStep_cons, ← ih (spaced.appendParam p), ← whole_iff_roomy spaced]
    simp [parts]

theorem addBootimgCmdline_eq (bootimgCmdline : Option Text) :
    addBootimgCmdline l bootimgCmdline = (l.keep (bootimgAdded l bootimgCmdline), false) ∧
      (bootimgAdded l bootimgCmdline).length < l.remain := by
  have none : l.keep [] = l := by simp [Line.keep]
  unfold addBootimgCmdline bootimgAdded
  cases bootimgCmdline with
  | none => exact ⟨by rw [none], spaced.remain⟩
  | some cmdline =>
    by_cases empty : cmdline = []
    · simp [empty, none, spaced.remain]
    · have fits := write_lt spaced.remain [cmdline, [32]]
      simp only [empty, if_false]
      rw [vsnprintf_eq spaced.remain, formatted_string, if_neg (Nat.not_lt.mpr (Nat.le_of_lt fits))]
      exact ⟨rfl, fits⟩

variable {bootimgCmdline : Option Text}

theorem bootimg_absent (absent : bootimgAdded l bootimgCmdline = []) :
    bootimgText bootimgCmdline = [] ∨ commandLineSize < l.cmdline.length + (bootimgText bootimgCmdline).length := by
  have total := spaced.total
  unfold bootimgText
  unfold bootimgAdded at absent
  cases bootimgCmdline with
  | none => exact .inl rfl
  | some cmdline =>
    by_cases empty : cmdline = []
    · simp [empty]
    · simp only [empty, if_false] at absent ⊢
      right
      rw [List.length_append, List.length_singleton]
      rcases write_nil.mp absent with none | refused
      · simp [empty] at none
      · obtain ⟨c, rest, rfl⟩ := List.exists_cons_of_ne_nil empty
        rw [solid_cons_cons, List.headD_cons] at refused
        omega

omit spaced

theorem initCmdList_eq {before : UInt8} {ignoreFastboot : Bool} {initcmdline : Text}
    (init : initCmdList before ignoreFastboot initcmdline = some s) :
    s = normalise before ignoreFastboot (initcmdline.take commandLineSize) ∧
      longest before ignoreFastboot (initcmdline.take commandLineSize) < commandLineSize ∧
      s.cmdline.length < commandLineSize := by
  unfold initCmdList at init
  dsimp only at init
  split at init
  case isFalse => cases init
  case isTrue fits =>
    obtain rfl := Option.some.inj init
    exact ⟨rfl, fits, Nat.lt_of_le_of_lt (Nat.le_max_right ..) fits⟩

theorem spaced_lineOf (fits : s.cmdline.length < commandLineSize) : (lineOf s).Spaced := by
  constructor
  · exact Nat.add_sub_cancel' (Nat.le_of_lt fits)
  · exact Nat.sub_pos_of_lt fits

def CmdList.started (s : CmdList) (bootimgCmdline : Option Text) : Line :=
  (lineOf s).keep (bootimgAdded (lineOf s) bootimgCmdline)

theorem spaced_started (spaced : (lineOf s).Spaced) (bootimgCmdline : Option Text) :
    (s.started bootimgCmdline).Spaced :=
  spaced.keep (addBootimgCmdline_eq spaced bootimgCmdline).2

theorem cmdline_started (spaced : (lineOf s).Spaced) (bootimgCmdline : Option Text) :
    (s.started bootimgCmdline).cmdline = s.cmdline ++ bootimgAdded (lineOf s) bootimgCmdline := by
  unfold CmdList.started
  rw [keep_eq (addBootimgCmdline_eq spaced bootimgCmdline).2]
  rfl

theorem prepareCmdline_eq {before : UInt8} {ignoreFastboot : Bool} {initcmdline : Text}
    {commonParams : List Param} {extraParams : Option (List Param)}
    (init : initCmdList before ignoreFastboot initcmdline = some s) (spaced : (lineOf s).Spaced) :
    tegrablLinuxbootPrepareCmdline before ignoreFastboot initcmdline bootimgCmdline commonParams extraParams =
      some (s.cmdline ++ bootimgAdded (lineOf s) bootimgCmdline ++
        (parts s (s.started bootimgCmdline) (commonParams ++ extraParams.getD [])).flatten) := by
  unfold tegrablLinuxbootPrepareCmdline
  rw [init, Option.map_some]
  have start := (addBootimgCmdline_eq spaced bootimgCmdline).1
  unfold lineOf at start
  rw [start]
  dsimp only
  rw [if_neg Bool.false_ne_true, ← List.foldl_append]
  have grown := cmdline_appendParams (s := s) (spaced_started spaced bootimgCmdline)
    (commonParams ++ extraParams.getD [])
  rw [cmdline_started spaced] at grown
  exact congrArg some grown

/-- The line has whole parameters if there is space for the line that is there, and at its turn for each parameter
or not for its first piece. -/
theorem wholeLine_iff (before : UInt8) (ignoreFastboot : Bool) (initcmdline : Text) (bootimgCmdline : Option Text)
    (commonParams : List Param) (extraParams : Option (List Param)) :
    (∃ result, tegrablLinuxbootPrepareCmdline before ignoreFastboot initcmdline bootimgCmdline commonParams extraParams =
        some result ∧ WholeLine before ignoreFastboot initcmdline bootimgCmdline (commonParams ++ extraParams.getD [])
          result) ↔ Fits before ignoreFastboot initcmdline ∧
        EachStep (appendParam (normalise before ignoreFastboot (initcmdline.take commandLineSize)))
          (Roomy (normalise before ignoreFastboot (initcmdline.take commandLineSize)))
          ((normalise before ignoreFastboot (initcmdline.take commandLineSize)).started bootimgCmdline)
          (commonParams ++ extraParams.getD []) := by
  unfold Fits
  constructor
  · rintro ⟨result, prepared, s, l, boot, init, started, grown, -, -, whole, -, each⟩
    obtain ⟨rfl, fits, short⟩ := initCmdList_eq init
    have spaced := spaced_lineOf short
    rw [(addBootimgCmdline_eq spaced bootimgCmdline).1] at started
    obtain rfl : CmdList.started _ bootimgCmdline = l := (Prod.mk.inj started).1
    rw [cmdline_started spaced, List.append_cancel_left_eq] at grown
    rw [prepareCmdline_eq init spaced, grown, Option.some.injEq] at prepared
    rw [← prepared, List.append_cancel_right_eq, List.append_cancel_right_eq] at whole
    exact ⟨⟨fits, whole⟩, (parts_whole (spaced_started spaced bootimgCmdline) _).mp each⟩
  · rintro ⟨⟨fits, same⟩, each⟩
    have init : initCmdList before ignoreFastboot initcmdline =
        some (normalise before ignoreFastboot (initcmdline.take commandLineSize)) := if_pos fits
    have spaced := spaced_lineOf (initCmdList_eq init).2.2
    refine ⟨_, prepareCmdline_eq init spaced, _, _, _, init, (addBootimgCmdline_eq spaced bootimgCmdline).1,
      cmdline_started spaced bootimgCmdline, bootimg_whole bootimgCmdline, bootimg_absent spaced, by rw [same]; rfl, ?_,
      (parts_whole (spaced_started spaced bootimgCmdline) _).mpr each⟩
    have last := spaced_appendParams (s := normalise before ignoreFastboot (initcmdline.take commandLineSize))
      (spaced_started spaced bootimgCmdline) (commonParams ++ extraParams.getD [])
    have grown := cmdline_appendParams (s := normalise before ignoreFastboot (initcmdline.take commandLineSize))
      (spaced_started spaced bootimgCmdline) (commonParams ++ extraParams.getD [])
    rw [cmdline_started spaced] at grown
    rw [← grown]
    have total := last.total
    have remain := last.remain
    omega

end

def video : Param := ⟨ascii "video", some (addString (some (ascii "tegrafb")))⟩

/-- A boot image with 2035 characters leaves space for `video=`, but not for what is behind it. -/
theorem fragment_kept :
    ¬ ∃ result, tegrablLinuxbootPrepareCmdline 0 false [] (some (List.replicate 2035 97)) [video] none = some result ∧
      WholeLine 0 false [] (some (List.replicate 2035 97)) [video] result := by
  have length : (List.replicate 2035 (97 : UInt8)).length = 2035 := List.length_replicate
  generalize List.replicate 2035 (97 : UInt8) = text at length
  rintro ⟨result, -, s, l, boot, init, started, -, -, -, -, -, each⟩
  have spaced := spaced_lineOf (initCmdList_eq init).2.2
  obtain rfl : CmdList.mk [] 0 false false false = s := Option.some.inj init
  rw [(addBootimgCmdline_eq spaced _).1] at started
  obtain rfl : CmdList.started _ (some text) = l := (Prod.mk.inj started).1
  have roomy := (eachStep_cons.mp ((parts_whole (spaced_started spaced _) _).mp each)).1
  have remain : (CmdList.started ⟨[], 0, false, false, false⟩ (some text)).remain = 12 := by
    have some : text ≠ [] := List.ne_nil_of_length_pos (by rw [length]; decide)
    have all : write 2047 [text, [32]] = [text, [32]].flatten := write_all.mpr (by simp [length])
    unfold CmdList.started
    rw [keep_eq (addBootimgCmdline_eq spaced _).2, bootimgAdded, if_neg some]
    change 2048 - (write 2047 [text, [32]]).length = 12
    rw [all]
    simp [length]
  unfold Roomy at roomy
  rw [remain] at roomy
  revert roomy
  decide

end Cboot.Cmdline
