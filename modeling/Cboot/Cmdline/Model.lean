import Cboot.Cmdline.Printf

/-!
`lib/linuxboot/cmdline.c`: the line that is there already is copied word by word, and parameters it does not have
are appended where there is space left for them.
-/

namespace Cboot.Cmdline

def commandLineSize : Nat := 2048

def ignoreFastbootCmd : Text := ascii "ignorefastboot"

def iswhitespace (ch : UInt8) : Bool := ch == 32 || ch == 9 || ch == 10 || ch == 13

/-- `init_cmd_list` on its way: what is in `s_cmdline` below `next`, where the last command starts, whether one is
being read (`mood`), and `n_ignore_fastboot`. -/
structure CmdList where
  cmdline : Text
  start : Nat
  mood : Bool
  quote : Bool
  ignoreFastboot : Bool
  deriving DecidableEq, Repr

/-- Whether the last command is `ignorefastboot`, with quotes or without. -/
def checkIgnoreFastbootCmd (s : CmdList) : Bool :=
  let cmd := s.cmdline.drop s.start
  if cmd.head? = some 34 then
    cmd.length = ignoreFastbootCmd.length + 2 && cmd.getLast? = some 34 &&
      cmd.tail.take ignoreFastbootCmd.length = ignoreFastbootCmd
  else cmd = ignoreFastbootCmd

def CmdList.check (s : CmdList) : CmdList :=
  if !s.ignoreFastboot && checkIgnoreFastbootCmd s then
    { s with cmdline := s.cmdline.take s.start, ignoreFastboot := true }
  else s

def CmdList.put (s : CmdList) (ch : UInt8) : CmdList := { s with cmdline := s.cmdline ++ [ch] }

def CmdList.step (s : CmdList) (currChar : UInt8) : CmdList :=
  if s.mood then
    if iswhitespace currChar then
      if s.quote then s.put currChar
      else
        let t := s.check
        { (if t.ignoreFastboot then t else t.put 32) with mood := false }
    else if currChar = 34 then { s.put currChar with quote := !s.quote }
    else s.put currChar
  else if iswhitespace currChar then s
  else
    { s.put currChar with start := s.cmdline.length, quote := s.quote || currChar == 34, mood := true }

def CmdList.completed (s : CmdList) : CmdList := if s.quote then s.put 34 else s

/-- A blank at the end, if necessary. Where nothing is left of the line it is looked for in front of `s_cmdline`,
where `before` is. -/
def CmdList.closed (before : UInt8) (s : CmdList) : CmdList :=
  if s.cmdline.getLast?.getD before = 32 then s else s.put 32

def normalise (before : UInt8) (ignoreFastboot : Bool) (cmdline : Text) : CmdList :=
  let s := cmdline.foldl CmdList.step ⟨[], 0, false, false, ignoreFastboot⟩
  if s.cmdline = [] then s else (s.completed.check).closed before

/-- The most characters that are in `s_cmdline` at one time, before the one that ends it. -/
def longest (before : UInt8) (ignoreFastboot : Bool) (cmdline : Text) : Nat :=
  let s := cmdline.foldl CmdList.step ⟨[], 0, false, false, ignoreFastboot⟩
  max (if s.cmdline = [] then 0 else s.completed.cmdline.length - 1) (normalise before ignoreFastboot cmdline).cmdline.length

/-- `init_cmd_list`: nothing where a character is stored past `s_cmdline`. -/
def initCmdList (before : UInt8) (ignoreFastboot : Bool) (cmdline : Text) : Option CmdList :=
  let cmdline := cmdline.take commandLineSize
  if longest before ignoreFastboot cmdline < commandLineSize then some (normalise before ignoreFastboot cmdline) else none

inductive Mood where
  | skip
  | matching
  | wait
  | quoted
  | opened
  deriving DecidableEq, Repr

structure Search where
  mood : Mood
  quote : Bool
  p : Text
  deriving DecidableEq, Repr

def Search.step (command : Text) (s : Search) (currChar : UInt8) : Option Search :=
  match s.mood with
  | .skip =>
    if currChar = 34 then some { s with mood := .opened, quote := true }
    else if s.p.head? = some currChar then some { s with mood := .matching, p := s.p.tail }
    else some { s with mood := .wait }
  | .matching =>
    let quote := if currChar = 34 then !s.quote else s.quote
    match s.p with
    | next :: p =>
      if next = currChar then some { s with quote := quote, p := p }
      else if currChar = 32 then
        if s.quote then some { s with mood := .wait } else some { s with mood := .skip, p := command }
      else some { s with quote := quote, mood := .wait }
    | [] =>
      if s.quote then
        if currChar = 61 then none
        else if currChar = 34 then some { s with quote := quote, mood := .quoted }
        else some { s with mood := .wait }
      else if currChar = 32 ∨ currChar = 61 then none
      else some { s with quote := quote, mood := .wait }
  | .wait =>
    if currChar = 34 then some { s with quote := !s.quote }
    else if !s.quote ∧ currChar = 32 then some { s with mood := .skip, p := command }
    else some s
  | .quoted => if currChar = 61 ∨ currChar = 32 then none else some { s with mood := .wait }
  | .opened =>
    if s.p.head? = some currChar then some { s with mood := .matching, p := s.p.tail }
    else some { s with mood := .wait }

/-- `does_command_exist`, for what `init_cmd_list` left. -/
def doesCommandExist (s : CmdList) (command : Text) : Bool :=
  if s.ignoreFastboot then true
  else if command = [] then false
  else (s.cmdline.foldlM (Search.step command) ⟨.skip, false, command⟩).isNone

/-- A handler for a parameter: the format it prints and its arguments, or nothing where it prints nothing, and
what it returns is not positive. -/
abbrev Handler := Text → Option (Text × List Arg)

structure Param where
  str : Text
  append : Option Handler

def addString (priv : Option Text) : Handler := fun param =>
  match priv with
  | some value => some (ascii "%s=%s ", [.str param, .str value])
  | none => some (ascii "%s ", [.str param])

def Param.texts (p : Param) : List Text :=
  match p.append with
  | none => []
  | some append =>
    match append p.str with
    | none => []
    | some (format, args) => formatted format args

/-- The text in `s_cmdline`, and what remains of it. -/
structure Line where
  cmdline : Text
  remain : Nat
  deriving DecidableEq, Repr

def Line.keep (l : Line) (text : Text) : Line :=
  if 0 < text.length ∧ text.length ≤ l.remain then ⟨l.cmdline ++ text, l.remain - text.length⟩ else l

def appendParam (s : CmdList) (l : Line) (p : Param) : Line :=
  if doesCommandExist s p.str then l
  else
    match p.append with
    | none => l
    | some append =>
      match append p.str with
      | none => l
      | some (format, args) => l.keep (tegrablVsnprintf l.remain format args)

def addBootimgCmdline (l : Line) (bootimgCmdline : Option Text) : Line × Bool :=
  match bootimgCmdline with
  | none => (l, false)
  | some cmdline =>
    if cmdline = [] then (l, false)
    else
      let text := tegrablVsnprintf l.remain (ascii "%s ") [.str cmdline]
      if l.remain < text.length then (⟨l.cmdline ++ text, 0⟩, true) else (l.keep text, false)

def tegrablLinuxbootPrepareCmdline (before : UInt8) (ignoreFastboot : Bool) (initcmdline : Text)
    (bootimgCmdline : Option Text) (commonParams : List Param) (extraParams : Option (List Param)) : Option Text :=
  (initCmdList before ignoreFastboot initcmdline).map fun s =>
    let start := addBootimgCmdline ⟨s.cmdline, commandLineSize - s.cmdline.length⟩ bootimgCmdline
    if start.2 then start.1.cmdline
    else ((extraParams.getD []).foldl (appendParam s) (commonParams.foldl (appendParam s) start.1)).cmdline

example : tegrablLinuxbootPrepareCmdline 0 false (ascii " root=/dev/sda  video=x") none
    [⟨ascii "video", some (addString (some (ascii "tegrafb")))⟩, ⟨ascii "gpt", some (addString none)⟩] none =
    some (ascii "root=/dev/sda video=x gpt ") := by decide

end Cboot.Cmdline
