import Cboot.Extlinux.Model
import Cboot.Lib.Loop

/-!
`parse_conf_file` byte by byte. It works on the text where it was loaded: `strtok` ends a line where the next one
begins, comments and blanks are overwritten, and what is kept are pointers into the text.
-/

namespace Cboot.Extlinux.InPlace
open Lib

/-- The text with the byte that ends it. -/
abbrev Buffer := List UInt8

/-- Where a loop that goes forward from `s` stops. There is nothing where it leaves the text. -/
def seek (stops : UInt8 → Bool) (buf : Buffer) (s : Nat) : Option Nat := ((buf.drop s).findIdx? stops).map (s + ·)

/-- `strncmp` with the length of its first argument, whether it is 0. -/
def startsWith : Text → Buffer → Option Bool
  | [], _ => some true
  | _ :: _, [] => none
  | k :: key, c :: str => if k = c then startsWith key str else some false

def cstring : Buffer → Option Text
  | [] => none
  | c :: str => if c = 0 then some [] else (cstring str).map (c :: ·)

/-- What `strtok` returns, what it leaves of the text, and where it goes on. -/
structure Token where
  token : Option Nat
  buf : Buffer
  next : Option Nat

/-- `strtok` with `"\n"`. -/
def strtok (str : Option Nat) (buf : Buffer) : Option Token :=
  match str with
  | none => some ⟨none, buf, none⟩
  | some sbegin =>
    (seek (fun c => c ≠ 10) buf sbegin).bind fun sbegin =>
      if buf[sbegin]? = some 0 then some ⟨none, buf, none⟩
      else
        (seek (fun c => c = 0 ∨ c = 10) buf sbegin).map fun send =>
          if buf[send]? = some 0 then ⟨some sbegin, buf, none⟩
          else ⟨some sbegin, buf.set send 0, some (send + 1)⟩

def skipLeadingWhitespace (buf : Buffer) (str : Nat) : Option Nat :=
  seek (fun c => c = 10 ∨ c = 0 ∨ ¬ isspace c) buf str

/-- Where the first loop of `remove_whitespace_and_comment` stops, and whether at a comment. -/
structure Scanned where
  s : Nat
  firstNonSpaceChar : Option Nat
  comment : Bool

def scanLine (s : Nat) (first : Option Nat) : Buffer → Option Scanned
  | [] => none
  | c :: str =>
    if c = 10 ∨ c = 0 then some ⟨s, first, false⟩
    else if isspace c then scanLine (s + 1) first str
    else if c = 35 then some ⟨s, first.or (some s), true⟩
    else scanLine (s + 1) (first.or (some s)) str

/-- The second loop, which goes backward. -/
def trimBack (first : Nat) : Nat → Buffer → Option Buffer
  | 0, _ => none
  | s + 1, buf =>
    if s = first then some buf
    else buf[s]?.bind fun c => if isspace c then trimBack first s (buf.set s 0) else some buf

structure Str where
  str : Nat
  buf : Buffer

def removeWhitespaceAndComment (str : Nat) (buf : Buffer) : Option Str :=
  (scanLine str none (buf.drop str)).bind fun e =>
    let first := e.firstNonSpaceChar.getD str
    (trimBack first e.s (if e.comment then buf.set e.s 0 else buf)).map fun buf => ⟨first, buf⟩

/-- `struct boot_section`, with pointers. -/
structure BootSection where
  label : Nat
  menuLabel : Option Nat := none
  linuxPath : Option Nat := none
  dtbPath : Option Nat := none
  initrdPath : Option Nat := none
  bootArgs : Option Nat := none

def BootSection.set (entry : BootSection) (key : Key) (val : Nat) : BootSection :=
  match key with
  | .menuLabel => { entry with menuLabel := some val }
  | .linux => { entry with linuxPath := some val }
  | .initrd => { entry with initrdPath := some val }
  | .fdt => { entry with dtbPath := some val }
  | .append => { entry with bootArgs := some val }
  | _ => entry

/-- The text and the local variables, with the pointer that `strtok` keeps. `entry` is the number of sections less one.
-/
structure Parser where
  buf : Buffer
  strtok : Option Nat
  token : Nat
  timeout : Option Nat
  defaultBoot : Option Nat
  menuTitle : Option Nat
  sections : List BootSection
  taken : List (Key × UInt8)

/-- `struct conf` behind a parse, with the text that its pointers lead into. -/
structure Conf where
  buf : Buffer
  menuTitle : Option Nat
  sections : List BootSection
  numBootEntries : Nat
  defaultBootEntry : Nat
  taken : List (Key × UInt8)

inductive Error where
  | invalid
  | noMemory
  deriving DecidableEq, Repr

/-- How a call ends: with an access outside of the text, a store behind `section`, a null pointer taken for a string, or
by coming back. -/
inductive Ended where
  | outside
  | beyond
  | nullString
  | failed (err : Error)
  | parsed (conf : Conf)

/-- `extract_val`, for a value at some position. -/
def Parser.extract (p : Parser) (val : Nat) (store : Nat → Parser) : Pass Parser Ended :=
  match skipLeadingWhitespace p.buf val with
  | none => .leave .outside
  | some val => .next (store val)

/-- `memory` says which of the sections there is memory for. -/
def Parser.take (memory : Nat → Bool) (p : Parser) (key : Key) (val : Nat) : Pass Parser Ended :=
  match key with
  | .timeout => p.extract val fun val => { p with timeout := some val }
  | .default => p.extract val fun val => { p with defaultBoot := some val }
  | .menuTitle => p.extract val fun val => { p with menuTitle := some val }
  | .label =>
    if confSections ≤ p.sections.length then .leave .beyond
    else if memory p.sections.length then
      p.extract val fun val => { p with sections := p.sections ++ [{ label := val }] }
    else .leave (.failed .noMemory)
  | key => p.extract val fun val =>
      { p with sections := p.sections.modify (p.sections.length - 1) fun entry => entry.set key val }

def findKey (str : Buffer) : List (Text × Key) → Option (Option (Text × Key))
  | [] => some none
  | row :: rows => (startsWith row.1 str).bind fun same => if same then some (some row) else findKey str rows

def Parser.keys (p : Parser) : List (Text × Key) := if p.sections = [] then Extlinux.keys.take 4 else Extlinux.keys

def Parser.line (memory : Nat → Bool) (p : Parser) : Pass Parser Ended :=
  match removeWhitespaceAndComment p.token p.buf with
  | none => .leave .outside
  | some ⟨str, buf⟩ =>
    let p := { p with buf := buf }
    if buf[str]? = some 0 then .next p
    else
      match findKey (buf.drop str) p.keys with
      | none => .leave .outside
      | some none => .next p
      | some (some row) =>
        let val := str + row.1.length
        { p with taken := p.taken ++ [(row.2, buf[val]?.getD 0)] }.take memory row.2 val

def Parser.nextToken (ended : Parser → Ended) (p : Parser) : Pass Parser Ended :=
  match InPlace.strtok p.strtok p.buf with
  | none => .leave .outside
  | some ⟨none, buf, next⟩ => .leave (ended { p with buf := buf, strtok := next })
  | some ⟨some token, buf, next⟩ => .next { p with buf := buf, strtok := next, token := token }

def Parser.timeoutInside (p : Parser) : Bool := p.timeout.all fun timeout => (cstring (p.buf.drop timeout)).isSome

def defaultBootEntry (default : Text) (buf : Buffer) : List (BootSection × Nat) → Nat → Option Nat
  | [], before => some before
  | row :: rows, before => (startsWith default (buf.drop row.1.label)).bind fun same =>
      defaultBootEntry default buf rows (if same then row.2 else before)

/-- What is done behind the loop. `before` is the `default_boot_entry` that there is already. -/
def Parser.finish (before : Nat) (p : Parser) : Ended :=
  if !p.timeoutInside then .outside
  else if p.sections = [] then .failed .invalid
  else
    match p.defaultBoot with
    | none => .nullString
    | some default =>
      match (cstring (p.buf.drop default)).bind fun default =>
          defaultBootEntry default p.buf p.sections.zipIdx before with
      | none => .outside
      | some entry => .parsed ⟨p.buf, p.menuTitle, p.sections, p.sections.length, entry, p.taken⟩

def Parser.start (text : Text) : Parser where
  buf := text ++ [0]
  strtok := some 0
  token := 0
  timeout := none
  defaultBoot := none
  menuTitle := none
  sections := []
  taken := []

def Parser.pass (memory : Nat → Bool) (before : Nat) (p : Parser) : Pass Parser Ended :=
  (p.line memory).andThen (Parser.nextToken (Parser.finish before))

/-- `parse_conf_file`, if it ends within some number of lines. -/
def parseConfFile (memory : Nat → Bool) (before : Nat) (text : Text) (fuel : Nat) : Option Ended :=
  match (Parser.start text).nextToken fun _ => .failed .invalid with
  | .leave ended => some ended
  | .next p => runLoop (Parser.pass memory before) fuel p

end Cboot.Extlinux.InPlace
