import Cboot.Lib.Paths

/-!
`fs_normalize_path` rewrites a path in place: what it writes never gets ahead of what it reads.
-/

namespace Cboot.Fs
open Lib.Paths

abbrev Text := List UInt8

def slash : UInt8 := 47

def period : UInt8 := 46

inductive Phase where
  | initial
  | fieldStart
  | inField
  | sep
  | seenSep
  | dot
  | seenDot
  | dotdot
  | seenDotdot
  deriving DecidableEq, Repr

structure Norm where
  path : List UInt8
  pos : Nat
  outpos : Nat
  phase : Phase
  done : Bool
  deriving DecidableEq, Repr

def walkBack (path : List UInt8) : Nat → Nat
  | 0 => 0
  | outpos + 1 => if path.getD outpos 0 = slash then outpos + 1 else walkBack path outpos

namespace Norm

/-- `path[pos]`. -/
def char (n : Norm) : UInt8 := n.path.getD n.pos 0

def enter (n : Norm) (phase : Phase) : Norm := { n with phase := phase }
def stop (n : Norm) : Norm := { n with done := true }
def skip (n : Norm) : Norm := { n with pos := n.pos + 1 }
def emit (n : Norm) (c : UInt8) : Norm := { n with path := n.path.set n.outpos c, outpos := n.outpos + 1 }

def back (n : Norm) : Norm :=
  if 0 < n.outpos then { n with outpos := walkBack n.path (n.outpos - 1) } else n

@[simp] theorem char_enter (n : Norm) (phase : Phase) : (n.enter phase).char = n.char := rfl
@[simp] theorem phase_enter (n : Norm) (phase : Phase) : (n.enter phase).phase = phase := rfl
@[simp] theorem enter_enter (n : Norm) (phase next : Phase) : (n.enter phase).enter next = n.enter next := rfl

end Norm

def normStep (n : Norm) : Norm :=
  let c := n.char
  match n.phase with
  | .initial =>
    if c = slash then n.enter .sep else if c = period then n.enter .dot else n.enter .fieldStart
  | .fieldStart =>
    if c = period then n.enter .dot else if c = 0 then n.stop else n.enter .inField
  | .inField =>
    if c = slash then n.enter .sep else if c = 0 then n.stop else (n.emit c).skip
  | .sep => (n.skip.emit slash).enter .seenSep
  | .seenSep =>
    if c = slash then n.skip else if c = 0 then n.stop else n.enter .fieldStart
  | .dot => n.skip.enter .seenDot
  | .seenDot =>
    if c = period then n.enter .dotdot
    else if c = slash then n.skip.enter .seenSep
    else if c = 0 then n.stop
    else (n.emit period).enter .inField
  | .dotdot => n.skip.enter .seenDotdot
  | .seenDotdot =>
    if c = slash then n.back.skip.enter .seenSep
    else if c = 0 then (n.back.skip.enter .seenSep).stop
    else ((n.emit period).emit period).enter .inField

def normLoop : Nat → Norm → Norm
  | 0, n => n
  | fuel + 1, n => if n.done then n else normLoop fuel (normStep n)

/-- `fs_normalize_path`: what stands before the terminator afterwards. -/
def fsNormalizePath (path : Text) : Text :=
  let n := normLoop (3 * path.length + 3) ⟨path ++ [0], 0, 0, .initial, false⟩
  if 0 < n.outpos ∧ n.path.getD (n.outpos - 1) 0 = slash then n.path.take (n.outpos - 1)
  else n.path.take n.outpos

inductive Spot where
  | between
  | name
  | dot
  | dots
  deriving DecidableEq, Repr

def Spot.phase : Spot → Phase
  | between => .seenSep
  | name => .inField
  | dot => .seenDot
  | dots => .seenDotdot

def Spot.lead : Spot → Nat
  | between => 0
  | name => 0
  | dot => 1
  | dots => 2

def scan (spot : Spot) (out : Text) : Text → Text
  | [] =>
    match spot with
    | .between => out
    | .name => out
    | .dot => out
    | .dots => backward slash out
  | c :: input =>
    match spot with
    | .between =>
      if c = slash then scan .between out input
      else if c = period then scan .dot out input
      else scan .name (out ++ [c]) input
    | .name =>
      if c = slash then scan .between (out ++ [slash]) input
      else scan .name (out ++ [c]) input
    | .dot =>
      if c = period then scan .dots out input
      else if c = slash then scan .between out input
      else scan .name (out ++ [period] ++ [c]) input
    | .dots =>
      if c = slash then scan .between (backward slash out) input
      else scan .name (out ++ [period] ++ [period] ++ [c]) input

structure Ends (n : Norm) (out : Text) : Prop where
  out : n.path.take n.outpos = out
  inside : n.outpos ≤ n.path.length

/-- `room` more bytes were read than written. -/
structure Reads (n : Norm) (room : Nat) (out input : Text) : Prop where
  out : n.path.take n.outpos = out
  input : n.path.drop n.pos = input ++ [0]
  room : n.outpos + room ≤ n.pos

section
variable {n : Norm} {room : Nat} {out input : Text} {c : UInt8}

theorem Reads.bound (reads : Reads n room out input) : n.pos < n.path.length := by
  have left := congrArg List.length reads.input
  rw [List.length_drop, List.length_append, List.length_singleton] at left
  omega

theorem Reads.inside (reads : Reads n room out input) : n.outpos ≤ n.path.length := by
  have bound := reads.bound
  have before := reads.room
  omega

theorem Reads.char (reads : Reads n room out (c :: input)) : n.char = c := by
  have first := congrArg List.head? reads.input
  rw [List.head?_drop] at first
  rw [Norm.char, List.getD_eq_getElem?_getD, first]
  rfl

theorem Reads.atEnd (reads : Reads n room out []) : n.char = 0 := by
  have first := congrArg List.head? reads.input
  rw [List.head?_drop] at first
  rw [Norm.char, List.getD_eq_getElem?_getD, first]
  rfl

theorem Reads.enter (reads : Reads n room out input) (phase : Phase) : Reads (n.enter phase) room out input :=
  ⟨reads.out, reads.input, reads.room⟩

theorem Reads.skip (reads : Reads n room out (c :: input)) : Reads n.skip (room + 1) out input where
  out := reads.out
  input := by
    have tail := congrArg List.tail reads.input
    rw [List.tail_drop] at tail
    exact tail
  room := by
    have before := reads.room
    simp only [Norm.skip]
    omega

theorem Reads.weaken (reads : Reads n (room + 1) out input) : Reads n room out input :=
  ⟨reads.out, reads.input, Nat.le_trans (Nat.le_succ _) reads.room⟩

theorem Reads.emit (reads : Reads n (room + 1) out input) (c : UInt8) : Reads (n.emit c) room (out ++ [c]) input where
  out := by
    have inside : n.outpos < n.path.length := by
      have bound := reads.bound
      have before := reads.room
      omega
    simp only [Norm.emit]
    rw [List.take_add_one, List.take_set_of_le (Nat.le_refl _), reads.out, List.getElem?_set_self inside]
    rfl
  input := by
    have before := reads.room
    have behind : n.outpos < n.pos := by omega
    simp only [Norm.emit]
    rw [List.drop_set_of_lt behind]
    exact reads.input
  room := by
    have before := reads.room
    simp only [Norm.emit]
    omega

theorem Reads.copy (reads : Reads n room out (c :: input)) : Reads (n.emit c).skip room (out ++ [c]) input :=
  reads.skip.emit c

theorem take_concat (path : List UInt8) {outpos : Nat} (inside : outpos < path.length) :
    path.take (outpos + 1) = path.take outpos ++ [path.getD outpos 0] := by
  rw [List.take_add_one, List.getD_eq_getElem?_getD, List.getElem?_eq_getElem inside]
  rfl

theorem walkBack_le (path : List UInt8) (outpos : Nat) : walkBack path outpos ≤ outpos := by
  induction outpos with
  | zero => exact Nat.le_refl 0
  | succ outpos ih =>
    rw [walkBack]
    split
    · exact Nat.le_refl _
    · exact Nat.le_trans ih (Nat.le_succ _)

theorem take_walkBack (path : List UInt8) (outpos : Nat) (inside : outpos ≤ path.length) :
    path.take (walkBack path outpos) = ((path.take outpos).reverse.dropWhile (· ≠ slash)).reverse := by
  induction outpos with
  | zero => rfl
  | succ outpos ih =>
    have last := take_concat path inside
    rw [walkBack, last, List.reverse_append, List.reverse_singleton, List.singleton_append, List.dropWhile_cons]
    by_cases boundary : path.getD outpos 0 = slash
    · rw [if_pos boundary, if_neg (by rw [boundary]; decide), last, List.reverse_cons, List.reverse_reverse]
    · rw [if_neg boundary, if_pos (decide_eq_true boundary)]
      exact ih (Nat.le_of_succ_le inside)

theorem Reads.back (reads : Reads n room out input) : Reads n.back room (backward slash out) input := by
  have bound := reads.bound
  have before := reads.room
  rw [Norm.back]
  split
  · have less : walkBack n.path (n.outpos - 1) ≤ n.outpos - 1 := walkBack_le _ _
    refine ⟨?_, reads.input, by simp only; omega⟩
    have inside : n.outpos ≤ n.path.length := by omega
    rw [take_walkBack n.path (n.outpos - 1) (by omega), backward, ← reads.out, List.dropLast_take (by omega)]
  · next none =>
    have empty : n.outpos = 0 := by omega
    have nothing : out = [] := by rw [← reads.out, empty, List.take_zero]
    rw [nothing] at reads ⊢
    exact reads

theorem normLoop_done (fuel : Nat) (stopped : n.done = true) : normLoop fuel n = n := by
  cases fuel with
  | zero => rfl
  | succ fuel => rw [normLoop, if_pos stopped]

theorem normLoop_turn {m : Norm} (fuel : Nat) (step : normStep n = m) (live : n.done = false) :
    normLoop (fuel + 1) n = normLoop fuel m := by
  rw [normLoop, if_neg (by simp [live]), step]

structure Leap (n m : Norm) (spot : Spot) (out input : Text) : Prop where
  turns : ∃ k ≤ 3, ∀ fuel, normLoop (fuel + k) n = normLoop fuel m
  reads : Reads m spot.lead out input
  phase : m.phase = spot.phase
  live : m.done = false

theorem leap_between (reads : Reads n 0 out (c :: input)) (phase : n.phase = .seenSep)
    (live : n.done = false) (some : c ≠ 0) :
    ∃ m spot out', Leap n m spot out' input ∧ scan .between out (c :: input) = scan spot out' input := by
  have char := reads.char
  by_cases separator : c = slash
  · have one : normStep n = n.skip := by simp [normStep, phase, char, separator]
    refine ⟨n.skip, .between, out, ⟨⟨1, by omega, fun fuel => ?_⟩, reads.skip.weaken, phase, live⟩, ?_⟩
    · rw [normLoop_turn _ one live]
    · rw [scan, if_pos separator]
  · have one : normStep n = n.enter .fieldStart := by simp [normStep, phase, char, separator, some]
    by_cases point : c = period
    · have two : normStep (n.enter .fieldStart) = n.enter .dot := by
        simp [normStep, char, point]
      have three : normStep (n.enter .dot) = n.skip.enter .seenDot := rfl
      refine ⟨n.skip.enter .seenDot, .dot, out, ⟨⟨3, by omega, fun fuel => ?_⟩, reads.skip.enter _, rfl, live⟩, ?_⟩
      · rw [normLoop_turn _ one live, normLoop_turn _ two live, normLoop_turn _ three live]
      · rw [scan, if_neg separator, if_pos point]
    · have two : normStep (n.enter .fieldStart) = n.enter .inField := by
        simp [normStep, char, point, some]
      have three : normStep (n.enter .inField) = ((n.enter .inField).emit c).skip := by
        simp [normStep, char, separator, some]
      refine ⟨((n.enter .inField).emit c).skip, .name, out ++ [c],
        ⟨⟨3, by omega, fun fuel => ?_⟩, (reads.enter _).copy, rfl, live⟩, ?_⟩
      · rw [normLoop_turn _ one live, normLoop_turn _ two live, normLoop_turn _ three live]
      · rw [scan, if_neg separator, if_neg point]

theorem leap_name (reads : Reads n 0 out (c :: input)) (phase : n.phase = .inField)
    (live : n.done = false) (some : c ≠ 0) :
    ∃ m spot out', Leap n m spot out' input ∧ scan .name out (c :: input) = scan spot out' input := by
  have char := reads.char
  by_cases separator : c = slash
  · have one : normStep n = n.enter .sep := by simp [normStep, phase, char, separator]
    have two : normStep (n.enter .sep) = ((n.enter .sep).skip.emit slash).enter .seenSep := rfl
    refine ⟨((n.enter .sep).skip.emit slash).enter .seenSep, .between, out ++ [slash],
      ⟨⟨2, by omega, fun fuel => ?_⟩, ((reads.enter _).skip.emit slash).enter _, rfl, live⟩, ?_⟩
    · rw [normLoop_turn _ one live, normLoop_turn _ two live]
    · rw [scan, if_pos separator]
  · have one : normStep n = (n.emit c).skip := by simp [normStep, phase, char, separator, some]
    refine ⟨(n.emit c).skip, .name, out ++ [c], ⟨⟨1, by omega, fun fuel => ?_⟩, reads.copy, phase, live⟩, ?_⟩
    · rw [normLoop_turn _ one live]
    · rw [scan, if_neg separator]

theorem leap_dot (reads : Reads n 1 out (c :: input)) (phase : n.phase = .seenDot)
    (live : n.done = false) (some : c ≠ 0) :
    ∃ m spot out', Leap n m spot out' input ∧ scan .dot out (c :: input) = scan spot out' input := by
  have char := reads.char
  by_cases point : c = period
  · have one : normStep n = n.enter .dotdot := by simp [normStep, phase, char, point]
    have two : normStep (n.enter .dotdot) = n.skip.enter .seenDotdot := rfl
    refine ⟨n.skip.enter .seenDotdot, .dots, out, ⟨⟨2, by omega, fun fuel => ?_⟩, reads.skip.enter _, rfl, live⟩, ?_⟩
    · rw [normLoop_turn _ one live, normLoop_turn _ two live]
    · rw [scan, if_pos point]
  · by_cases separator : c = slash
    · have one : normStep n = n.skip.enter .seenSep := by
        simp [normStep, phase, char, separator, slash, period]
      refine ⟨n.skip.enter .seenSep, .between, out,
        ⟨⟨1, by omega, fun fuel => ?_⟩, reads.skip.weaken.weaken.enter _, rfl, live⟩, ?_⟩
      · rw [normLoop_turn _ one live]
      · rw [scan, if_neg point, if_pos separator]
    · have one : normStep n = (n.emit period).enter .inField := by
        simp [normStep, phase, char, point, separator, some]
      have next := (reads.emit period).enter .inField
      have two : normStep ((n.emit period).enter .inField) = (((n.emit period).enter .inField).emit c).skip := by
        simp [normStep, next.char, separator, some]
      refine ⟨(((n.emit period).enter .inField).emit c).skip, .name, out ++ [period] ++ [c],
        ⟨⟨2, by omega, fun fuel => ?_⟩, next.copy, rfl, live⟩, ?_⟩
      · rw [normLoop_turn _ one live, normLoop_turn _ two live]
      · rw [scan, if_neg point, if_neg separator]

theorem leap_dots (reads : Reads n 2 out (c :: input)) (phase : n.phase = .seenDotdot)
    (live : n.done = false) (some : c ≠ 0) :
    ∃ m spot out', Leap n m spot out' input ∧ scan .dots out (c :: input) = scan spot out' input := by
  have char := reads.char
  have still : n.back.done = false := by
    rw [Norm.back]
    split <;> exact live
  by_cases separator : c = slash
  · have one : normStep n = n.back.skip.enter .seenSep := by simp [normStep, phase, char, separator]
    refine ⟨n.back.skip.enter .seenSep, .between, backward slash out,
      ⟨⟨1, by omega, fun fuel => ?_⟩, reads.back.skip.weaken.weaken.weaken.enter _, rfl, still⟩, ?_⟩
    · rw [normLoop_turn _ one live]
    · rw [scan, if_pos separator]
  · have one : normStep n = ((n.emit period).emit period).enter .inField := by
      simp [normStep, phase, char, separator, some]
    have next := ((reads.emit period).emit period).enter .inField
    have two : normStep (((n.emit period).emit period).enter .inField) =
        ((((n.emit period).emit period).enter .inField).emit c).skip := by
      simp [normStep, next.char, separator, some]
    refine ⟨((((n.emit period).emit period).enter .inField).emit c).skip, .name,
      out ++ [period] ++ [period] ++ [c], ⟨⟨2, by omega, fun fuel => ?_⟩, next.copy, rfl, live⟩, ?_⟩
    · rw [normLoop_turn _ one live, normLoop_turn _ two live]
    · rw [scan, if_neg separator]

variable {spot : Spot}

theorem leap (reads : Reads n spot.lead out (c :: input)) (phase : n.phase = spot.phase)
    (live : n.done = false) (some : c ≠ 0) :
    ∃ m spot' out', Leap n m spot' out' input ∧ scan spot out (c :: input) = scan spot' out' input := by
  cases spot with
  | between => exact leap_between reads phase live some
  | name => exact leap_name reads phase live some
  | dot => exact leap_dot reads phase live some
  | dots => exact leap_dots reads phase live some

theorem normLoop_end (reads : Reads n spot.lead out []) (phase : n.phase = spot.phase)
    (live : n.done = false) (fuel : Nat) : Ends (normLoop (fuel + 1) n) (scan spot out []) := by
  have char := reads.atEnd
  cases spot with
  | between =>
    have step : normStep n = n.stop := by simp [normStep, phase, Spot.phase, char, slash]
    rw [normLoop_turn _ step live, normLoop_done _ rfl]
    exact ⟨reads.out, reads.inside⟩
  | name =>
    have step : normStep n = n.stop := by simp [normStep, phase, Spot.phase, char, slash]
    rw [normLoop_turn _ step live, normLoop_done _ rfl]
    exact ⟨reads.out, reads.inside⟩
  | dot =>
    have step : normStep n = n.stop := by simp [normStep, phase, Spot.phase, char, slash, period]
    rw [normLoop_turn _ step live, normLoop_done _ rfl]
    exact ⟨reads.out, reads.inside⟩
  | dots =>
    have step : normStep n = (n.back.skip.enter .seenSep).stop := by
      simp [normStep, phase, Spot.phase, char, slash]
    rw [normLoop_turn _ step live, normLoop_done _ rfl]
    exact ⟨reads.back.out, reads.back.inside⟩

theorem normLoop_scan {fuel : Nat} (reads : Reads n spot.lead out input)
    (phase : n.phase = spot.phase) (live : n.done = false) (plain : 0 ∉ input)
    (enough : 3 * input.length + 1 ≤ fuel) : Ends (normLoop fuel n) (scan spot out input) := by
  induction input generalizing n spot out fuel with
  | nil =>
    obtain ⟨fuel, rfl⟩ : ∃ rest, fuel = rest + 1 := ⟨fuel - 1, by omega⟩
    exact normLoop_end reads phase live fuel
  | cons c input ih =>
    rw [List.mem_cons, not_or] at plain
    obtain ⟨m, spot', out', next, same⟩ := leap reads phase live (Ne.symm plain.1)
    obtain ⟨k, few, turns⟩ := next.turns
    rw [List.length_cons] at enough
    obtain ⟨fuel, rfl⟩ : ∃ rest, fuel = rest + k := ⟨fuel - k, by omega⟩
    rw [turns, same]
    exact ih next.reads next.phase next.live plain.2 (by omega)

def Plain (place : Place UInt8) : Prop := ∀ name ∈ place.names, slash ∉ name

variable {place : Place UInt8}

theorem plain_up (plain : Plain place) : Plain place.up := by
  rw [Place.up]
  split
  · exact fun name mem => absurd mem List.not_mem_nil
  · exact fun name mem => plain name ((List.dropLast_sublist _).subset mem)

theorem plain_down {name : Text} (plain : Plain place) (ok : slash ∉ name) :
    Plain (place.down name) := by
  intro other mem
  cases List.mem_append.mp mem with
  | inl old => exact plain other old
  | inr new => exact List.mem_singleton.mp new ▸ ok

def Spot.Held (held : Text) : Spot → Prop
  | between => held = []
  | name => slash ∉ held ∧ ¬ held <+: [period, period]
  | dot => held = [period]
  | dots => held = [period, period]

def Spot.written (held : Text) : Spot → Text
  | between => []
  | name => held
  | dot => []
  | dots => []

variable {held : Text}

theorem walk_cons (plain : slash ∉ held) (some : held ≠ []) (input : Text) :
    place.walk period (components slash (held ++ slash :: input)) =
      (place.step period held).walk period (components slash input) := by
  rw [components_append_cons plain, if_neg some]
  rfl

theorem ordinary_ne_nil (ordinary : ¬ held <+: [period, period]) : held ≠ [] := by
  rintro rfl
  exact ordinary List.nil_prefix

theorem step_ordinary (ordinary : ¬ held <+: [period, period]) :
    place.step period held = place.down held := by
  obtain ⟨one, two⟩ := ordinary_append ordinary []
  rw [List.append_nil] at one two
  exact step_down one two

theorem strip_scan_end (plain : Plain place)
    (holds : spot.Held held) : strip slash (scan spot (place.opened slash ++ spot.written held) []) =
      (place.walk period (components slash held)).text slash := by
  cases spot with
  | between =>
    cases holds
    rw [scan, Spot.written, List.append_nil]
    exact strip_opened place
  | name =>
    obtain ⟨ok, ordinary⟩ := holds
    have some := ordinary_ne_nil ordinary
    have walked : place.walk period (components slash held) = place.down held := by
      rw [components_single ok some]
      exact step_ordinary ordinary
    rw [scan, Spot.written, walked]
    exact strip_name ok some
  | dot =>
    cases holds
    rw [scan, Spot.written, List.append_nil]
    exact strip_opened place
  | dots =>
    cases holds
    rw [scan, Spot.written, List.append_nil, backward_opened plain]
    exact strip_opened place.up

theorem strip_scan (plain : Plain place)
    (holds : spot.Held held) : strip slash (scan spot (place.opened slash ++ spot.written held) input) =
      (place.walk period (components slash (held ++ input))).text slash := by
  induction input generalizing spot place held with
  | nil =>
    rw [List.append_nil]
    exact strip_scan_end plain holds
  | cons c input ih =>
    cases spot with
    | between =>
      cases holds
      rw [scan, Spot.written, List.append_nil]
      by_cases separator : c = slash
      · rw [if_pos separator, separator]
        simpa [Spot.written] using ih plain (show Spot.between.Held [] from rfl)
      · rw [if_neg separator]
        by_cases point : c = period
        · rw [if_pos point, point]
          simpa [Spot.written] using ih plain (show Spot.dot.Held [period] from rfl)
        · rw [if_neg point]
          have single : Spot.name.Held [c] := by
            refine ⟨by simpa using Ne.symm separator, fun start => point ?_⟩
            exact (List.cons_prefix_cons.mp start).1
          simpa [Spot.written] using ih plain single
    | name =>
      obtain ⟨ok, ordinary⟩ := holds
      rw [scan, Spot.written]
      by_cases separator : c = slash
      · rw [if_pos separator, separator, walk_cons ok (ordinary_ne_nil ordinary), step_ordinary ordinary, ← opened_down]
        simpa [Spot.written] using ih (plain_down plain ok) (show Spot.between.Held [] from rfl)
      · rw [if_neg separator]
        have longer : Spot.name.Held (held ++ [c]) := by
          refine ⟨by simpa [ok] using Ne.symm separator, fun start => ordinary ?_⟩
          exact (List.prefix_append held [c]).trans start
        simpa [Spot.written] using ih plain longer
    | dot =>
      cases holds
      rw [scan, Spot.written, List.append_nil]
      by_cases point : c = period
      · rw [if_pos point, point]
        simpa [Spot.written] using ih plain (show Spot.dots.Held [period, period] from rfl)
      · rw [if_neg point]
        by_cases separator : c = slash
        · rw [if_pos separator, separator, walk_cons (by decide) (by decide), step_dot]
          simpa [Spot.written] using ih plain (show Spot.between.Held [] from rfl)
        · rw [if_neg separator]
          have longer : Spot.name.Held [period, c] := by
            refine ⟨?_, fun start => point ?_⟩
            · simpa [slash, period] using Ne.symm separator
            · have tail := (List.cons_prefix_cons.mp start).2
              exact (List.cons_prefix_cons.mp tail).1
          simpa [Spot.written] using ih plain longer
    | dots =>
      cases holds
      rw [scan, Spot.written, List.append_nil]
      by_cases separator : c = slash
      · rw [if_pos separator, separator, backward_opened plain, walk_cons (by decide) (by decide), step_dots]
        simpa [Spot.written] using ih (plain_up plain) (show Spot.between.Held [] from rfl)
      · rw [if_neg separator]
        have longer : Spot.name.Held [period, period, c] := by
          refine ⟨?_, fun start => ?_⟩
          · simpa [slash, period] using Ne.symm separator
          · have short := start.length_le
            simp at short
        simpa [Spot.written] using ih plain longer

theorem Ends.strip (ends : Ends n out) :
    (if 0 < n.outpos ∧ n.path.getD (n.outpos - 1) 0 = slash then n.path.take (n.outpos - 1)
      else n.path.take n.outpos) = strip slash out := by
  rw [← ends.out, Lib.Paths.strip]
  have inside := ends.inside
  cases count : n.outpos with
  | zero => simp
  | succ k =>
    rw [take_concat n.path (by omega), List.getLast?_concat, List.dropLast_concat]
    simp

theorem fsNormalizePath_eq (rest : Text) (plain : 0 ∉ rest) : fsNormalizePath (slash :: rest) =
    (Place.walk period ⟨true, []⟩ (components slash rest)).text slash := by
  let n : Norm := ⟨slash :: rest ++ [0], 0, 0, .initial, false⟩
  have reads : Reads n 0 [] (slash :: rest) := ⟨rfl, rfl, Nat.le_refl 0⟩
  have one : normStep n = n.enter .sep := rfl
  have two : normStep (n.enter .sep) = ((n.enter .sep).skip.emit slash).enter .seenSep := rfl
  have after : Reads (((n.enter .sep).skip.emit slash).enter .seenSep) 0 [slash] rest :=
    ((reads.enter _).skip.emit slash).enter _
  have fuel : 3 * (slash :: rest).length + 3 = (3 * rest.length + 4) + 1 + 1 := by
    rw [List.length_cons]
    omega
  have ends : Ends (normLoop (3 * (slash :: rest).length + 3) n) (scan .between [slash] rest) := by
    rw [fuel, normLoop_turn _ one rfl, normLoop_turn _ two rfl]
    exact normLoop_scan (show Reads _ Spot.between.lead _ _ from after) rfl rfl plain (by omega)
  have none : Plain ⟨true, []⟩ := fun name mem => absurd mem List.not_mem_nil
  rw [fsNormalizePath, ends.strip]
  exact strip_scan none (show Spot.between.Held [] from rfl)

end

end Cboot.Fs
