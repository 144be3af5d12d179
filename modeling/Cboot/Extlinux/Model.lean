import Mathlib.Data.List.Basic

/-!
`lib/linuxboot/extlinux_boot.c`: every device that is tried may have its own `extlinux.conf`. It is parsed into
sections that are allocated one by one; the pointers to them, their number and what is taken from the chosen
section are variables that outlive the attempt.
-/

namespace Cboot.Extlinux

abbrev Text := List UInt8

def ascii (s : String) : Text := s.toList.map fun c => c.toNat.toUInt8

structure BootSection where
  label : Option Text := none
  menuLabel : Option Text := none
  linuxPath : Option Text := none
  dtbPath : Option Text := none
  initrdPath : Option Text := none
  bootArgs : Option Text := none
  deriving DecidableEq, Repr

/-- What C leaves undefined: a store behind `section`, a comparison with a string that is not there, and an
access through a pointer that is not to a section that is allocated. -/
inductive Fault where
  | beyond
  | nullString
  | badSection
  deriving DecidableEq, Repr

/-- `blocks` is what was ever allocated, and a pointer is a position in it. -/
structure State where
  blocks : List BootSection
  frees : List Nat
  sections : Nat → Option Nat
  numBootEntries : Nat
  defaultBootEntry : Nat
  menuTitle : Option Text
  bootEntry : Nat
  ramdiskPath : Option Text
  bootArgs : Option Text
  kernelPath : Option Text
  kernelFromRootfs : Bool
  fault : Option Fault

def confSections : Nat := 20
def extlinuxConfMaxSize : Nat := 4096

def State.sectionAt (s : State) (i : Nat) : Option Nat :=
  if confSections ≤ i then none
  else (s.sections i).bind fun b => if b < s.blocks.length ∧ b ∉ s.frees then some b else none

/-- The `k`-th section behind its pointer. -/
def State.read (s : State) (i : Nat) : Option BootSection := (s.sectionAt i).bind fun b => s.blocks[b]?

def State.setSection (s : State) (i : Nat) (b : Option Nat) : State :=
  { s with sections := Function.update s.sections i b }

def State.allocate (s : State) (i : Nat) (label : Text) : State :=
  { s.setSection i (some s.blocks.length) with blocks := s.blocks ++ [{ label := some label }] }

def isspace (c : UInt8) : Bool := c == 32 || (9 ≤ c && c ≤ 13)

def removeWhitespaceAndComment (line : Text) : Text :=
  match line.dropWhile isspace with
  | [] => line.take 1
  | rest => ((rest.takeWhile (· ≠ 35)).reverse.dropWhile isspace).reverse

inductive Key where
  | timeout
  | default
  | menuTitle
  | label
  | menuLabel
  | linux
  | initrd
  | fdt
  | append
  deriving DecidableEq, Repr

def keys : List (Text × Key) :=
  [(ascii "TIMEOUT", .timeout), (ascii "DEFAULT", .default), (ascii "MENU TITLE", .menuTitle),
    (ascii "LABEL", .label), (ascii "MENU LABEL", .menuLabel), (ascii "LINUX", .linux), (ascii "INITRD", .initrd),
    (ascii "FDT", .fdt), (ascii "APPEND", .append)]

def directive (line : Text) : Option (Key × Text) :=
  let str := removeWhitespaceAndComment line
  (keys.find? fun row => row.1.isPrefixOf str).map fun row => (row.2, (str.drop row.1.length).dropWhile isspace)

def BootSection.set (section' : BootSection) (key : Key) (value : Text) : BootSection :=
  match key with
  | .menuLabel => { section' with menuLabel := some value }
  | .linux => { section' with linuxPath := some value }
  | .initrd => { section' with initrdPath := some value }
  | .fdt => { section' with dtbPath := some value }
  | .append => { section' with bootArgs := some value }
  | _ => section'

/-- The lines that `strtok` finds. -/
def confLines (conf : Text) : List Text := ((conf.takeWhile (· ≠ 0)).splitOn 10).filter (· ≠ [])

/-- `entry`, counted from 1, and `default_boot`. -/
structure Locals where
  entries : Nat
  defaultBoot : Option Text

inductive Parse where
  | done (l : Locals)
  | noMemory
  | wrong (f : Fault)

/-- `memory` says which of the sections there is memory for. -/
def parseLine (memory : Nat → Bool) (line : Text) (l : Locals) (s : State) : Parse × State :=
  match directive line with
  | none => (.done l, s)
  | some (.timeout, _) => (.done l, s)
  | some (.default, value) => (.done { l with defaultBoot := some value }, s)
  | some (.menuTitle, value) => (.done l, { s with menuTitle := some value })
  | some (.label, value) =>
    if confSections ≤ l.entries then (.wrong .beyond, s)
    else if memory l.entries then (.done { l with entries := l.entries + 1 }, s.allocate l.entries value)
    else (.noMemory, s.setSection l.entries none)
  | some (key, value) =>
    if l.entries = 0 then (.done l, s)
    else
      match s.sectionAt (l.entries - 1) with
      | none => (.wrong .badSection, s)
      | some b => (.done l, { s with blocks := s.blocks.modify b fun old => old.set key value })

def parseLines (memory : Nat → Bool) : List Text → Locals → State → Parse × State
  | [], l, s => (.done l, s)
  | line :: lines, l, s =>
    match parseLine memory line l s with
    | (.done l, s) => parseLines memory lines l s
    | stopped => stopped

inductive Result where
  | ok
  | error
  | wrong (f : Fault)
  deriving DecidableEq, Repr

def defaultEntry (defaultBoot : Text) (labels : List (Option Text)) (before : Nat) : Nat :=
  labels.zipIdx.foldl (fun entry row => if defaultBoot.isPrefixOf (row.1.getD []) then row.2 else entry) before

def State.readAll (s : State) : Option (List BootSection) := (List.range s.numBootEntries).mapM s.read

def parseConfFile (memory : Nat → Bool) (conf : Text) (s : State) : Result × State :=
  if confLines conf = [] then (.error, s)
  else
    match parseLines memory (confLines conf) ⟨0, none⟩ s with
    | (.noMemory, t) => (.error, t)
    | (.wrong f, t) => (.wrong f, t)
    | (.done l, t) =>
      if l.entries = 0 then (.error, t)
      else
        let t := { t with numBootEntries := l.entries }
        match l.defaultBoot, t.readAll with
        | none, _ => (.wrong .nullString, t)
        | some _, none => (.wrong .badSection, t)
        | some default, some sections =>
          (.ok, { t with defaultBootEntry := defaultEntry default (sections.map (·.label)) t.defaultBootEntry })

/-- How `load_binary_with_sig` ends, and whether the kernel is from the file system. -/
structure KernelLoad where
  run : Option Text → Option Bool
  noPath : run none ≠ some true

/-- What a call meets. `input` are the characters that are typed before the wait ends. -/
structure Call where
  mounted : Bool
  confMemory : Bool
  conf : Option Text
  memory : Nat → Bool
  input : List UInt8
  bootImgAddr : Bool
  kernel : KernelLoad
  dtb : Bool

def loadAndParseConfFile (c : Call) (s : State) : Result × State :=
  if !c.confMemory then (.error, s)
  else
    match c.conf with
    | none => (.error, s)
    | some conf =>
      if extlinuxConfMaxSize < conf.length then (.error, s)
      else parseConfFile c.memory conf s

def menuChoice (input : List UInt8) (entries default : Nat) : Nat :=
  match input.find? fun ch => 49 ≤ ch.toNat ∧ ch.toNat ≤ 48 + entries with
  | some ch => ch.toNat - 49
  | none => default

def displayBootMenu (c : Call) (s : State) : Result × State :=
  match s.readAll with
  | none => (.wrong .badSection, s)
  | some _ => (.ok, { s with bootEntry := menuChoice c.input s.numBootEntries s.defaultBootEntry })

def getBootDetails (c : Call) (s : State) : Result × State :=
  match loadAndParseConfFile c s with
  | (.ok, t) => displayBootMenu c t
  | stopped => stopped

/-- The loads, and the label `fail`: the sections are freed whatever happened. -/
def loadAndFree (c : Call) (linuxPath : Option Text) (s : State) : Result × State :=
  let kernel := if c.bootImgAddr then c.kernel.run linuxPath else none
  (if kernel.isSome && c.dtb then .ok else .error, { s with
      kernelPath := linuxPath
      kernelFromRootfs := kernel.getD false
      frees := s.frees ++ (List.range s.numBootEntries).filterMap s.sections })

def extlinuxBootLoadKernelAndDtb (c : Call) (s : State) : Result × State :=
  let details := if c.mounted then getBootDetails c s else (.error, s)
  match details with
  | (.wrong f, t) => (.wrong f, t)
  | (.error, t) => loadAndFree c none t
  | (.ok, t) =>
    match t.read t.bootEntry with
    | none => (.wrong .badSection, t)
    | some entry =>
      loadAndFree c entry.linuxPath { t with ramdiskPath := entry.initrdPath, bootArgs := entry.bootArgs }

/-- One device after the other. -/
def step (s : State) (c : Call) : State :=
  match s.fault with
  | some _ => s
  | none =>
    match extlinuxBootLoadKernelAndDtb c s with
    | (.wrong f, t) => { t with fault := some f }
    | (_, t) => t

def State.start : State where
  blocks := []
  frees := []
  sections := fun _ => none
  numBootEntries := 0
  defaultBootEntry := 0
  menuTitle := none
  bootEntry := 0
  ramdiskPath := none
  bootArgs := none
  kernelPath := none
  kernelFromRootfs := false
  fault := none

end Cboot.Extlinux
