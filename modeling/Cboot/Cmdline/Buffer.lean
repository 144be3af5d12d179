import Cboot.Cmdline.Preserved

/-!
`init_cmd_list` on `s_cmdline` itself.
-/

namespace Cboot.Cmdline
open Lib.Words

/-- The variables of `init_cmd_list`, with `n_ignore_fastboot`, memory from `s_cmdline` on and before it, and the indices
of `s_cmdline` that are read or written. -/
structure Buffer where
  mem : Int → UInt8
  next : Nat
  start : Nat
  mood : Bool
  quote : Bool
  ignoreFastboot : Bool
  touched : List Int

namespace Buffer

def touch (b : Buffer) (indices : List Int) : Buffer := { b with touched := b.touched ++ indices }

def store (b : Buffer) (c : UInt8) : Buffer :=
  { b.touch [(b.next : Int)] with mem := Function.update b.mem (b.next : Int) c }

def put (b : Buffer) (c : UInt8) : Buffer := { b.store c with next := b.next + 1 }

def chars (b : Buffer) (start length : Nat) : Text := (List.range length).map fun i => b.mem ((start + i : Nat) : Int)

/-- `memcmp` with the command, which reads no more than this. -/
def compare (b : Buffer) (start : Nat) : Buffer :=
  { b.touch ((List.range ignoreFastbootCmd.length).map fun i => ((start + i : Nat) : Int)) with
    ignoreFastboot := decide (b.chars start ignoreFastbootCmd.length = ignoreFastbootCmd) }

/-- `check_ignore_fastboot_cmd`. What it returns is in `n_ignore_fastboot` too. -/
def checkIgnoreFastbootCmd (b : Buffer) : Buffer :=
  let t := b.touch [(b.start : Int)]
  if b.mem b.start = 34 then
    if (ignoreFastbootCmd.length : Int) = (b.next : Int) - b.start - 2 then
      let t := t.touch [(b.next : Int) - 1]
      if b.mem ((b.next : Int) - 1) = 34 then t.compare (b.start + 1) else t
    else t
  else if (ignoreFastbootCmd.length : Int) = (b.next : Int) - b.start then t.compare b.start
  else t

def check (b : Buffer) : Buffer :=
  if b.ignoreFastboot then b
  else
    let t := b.checkIgnoreFastbootCmd
    if t.ignoreFastboot then { t with next := t.start } else t

def step (b : Buffer) (currChar : UInt8) : Buffer :=
  if b.mood then
    if iswhitespace currChar then
      if b.quote then b.put currChar
      else
        let t := b.check
        { (if t.ignoreFastboot then t else t.put 32) with mood := false }
    else if currChar = 34 then { b.put currChar with quote := !b.quote }
    else b.put currChar
  else if iswhitespace currChar then b
  else { b.put currChar with start := b.next, quote := b.quote || currChar == 34, mood := true }

def completed (b : Buffer) : Buffer := if b.quote then b.put 34 else b

def closed (b : Buffer) : Buffer :=
  let t := b.touch [(b.next : Int) - 1]
  if b.mem ((b.next : Int) - 1) = 32 then t else t.put 32

def finish (b : Buffer) : Buffer := if b.next = 0 then b.store 0 else (b.completed.check.closed).store 0

end Buffer

/-- `init_cmd_list` of a string, or of `NULL`. It returns `next`. -/
def initCmdListIn (mem : Int → UInt8) (ignoreFastboot : Bool) (cmdline : Option Text) : Buffer :=
  let b : Buffer := ⟨mem, 0, 0, false, false, ignoreFastboot, []⟩
  match cmdline with
  | none => b.store 0
  | some cmdline => ((cmdline.take commandLineSize).foldl Buffer.step b).finish

/-- Only `s_cmdline` is read and written, and it holds a string of the length that is returned. -/
structure Buffer.Sound (b : Buffer) : Prop where
  inside : ∀ i ∈ b.touched, 0 ≤ i ∧ i < commandLineSize
  ends : b.mem b.next = 0
  string : ∀ i < b.next, b.mem (i : Nat) ≠ 0

structure LineFits (ignore : Bool) (text : Text) : Prop where
  stays : ¬ Vanishes ignore text
  read : (stored ignore (cutLine text).finished).out.length + ((cutLine text).last 34).length ≤ commandLineSize
  left : (kept ignore (args text)).length < commandLineSize

section
variable {b t : Buffer} {s : CmdList} {c : UInt8}

structure Holds (b : Buffer) (s : CmdList) : Prop where
  chars : b.chars 0 b.next = s.cmdline
  start : b.start = s.start
  mood : b.mood = s.mood
  quote : b.quote = s.quote
  ignore : b.ignoreFastboot = s.ignoreFastboot

theorem length_chars (b : Buffer) (start length : Nat) : (b.chars start length).length = length := by
  simp [Buffer.chars]

theorem Holds.next (holds : Holds b s) : b.next = s.cmdline.length := by
  rw [← holds.chars, length_chars]

theorem chars_add (b : Buffer) (start n k : Nat) : b.chars start (n + k) = b.chars start n ++ b.chars (start + n) k := by
  simp only [Buffer.chars, List.range_add, List.map_append, List.map_map]
  congr 1
  refine List.map_congr_left fun i _ => ?_
  simp [Nat.add_assoc]

theorem Holds.chars_drop (holds : Holds b s) {start : Nat} (inside : start ≤ b.next) :
    b.chars start (b.next - start) = s.cmdline.drop start := by
  have split := chars_add b 0 start (b.next - start)
  rw [Nat.add_sub_cancel' inside, holds.chars, Nat.zero_add] at split
  rw [split, List.drop_left' (length_chars b 0 start)]

theorem Holds.mem (holds : Holds b s) {i : Nat} (inside : i < b.next) : s.cmdline[i]? = some (b.mem i) := by
  rw [← holds.chars, Buffer.chars, List.getElem?_map, List.getElem?_range inside]
  simp

theorem Holds.put (holds : Holds b s) (c : UInt8) : Holds (b.put c) (s.put c) where
  chars := by
    change (b.put c).chars 0 (b.next + 1) = s.cmdline ++ [c]
    rw [chars_add, Nat.zero_add, ← holds.chars]
    congr 1
    · refine List.map_congr_left fun i inside => ?_
      have other : ((0 + i : Nat) : Int) ≠ (b.next : Int) := by
        have := List.mem_range.mp inside
        omega
      exact Function.update_of_ne other ..
    · change [Function.update b.mem (b.next : Int) c ((b.next + 0 : Nat) : Int)] = [c]
      rw [Nat.add_zero, Function.update_self]
  start := holds.start
  mood := holds.mood
  quote := holds.quote
  ignore := holds.ignore

theorem chars_one (b : Buffer) (start : Nat) : b.chars start 1 = [b.mem (start : Nat)] := rfl

theorem chars_head (b : Buffer) {start n : Nat} (some : 0 < n) : (b.chars start n).head? = Option.some (b.mem (start : Nat)) := by
  obtain ⟨n, rfl⟩ : ∃ k, n = 1 + k := ⟨n - 1, by omega⟩
  rw [chars_add, chars_one]
  rfl

theorem Holds.checkIgnore (holds : Holds b s) (inside : b.start < b.next) (before : b.ignoreFastboot = false) :
    b.checkIgnoreFastbootCmd.ignoreFastboot = Cmdline.checkIgnoreFastbootCmd s := by
  have cmd := holds.chars_drop (Nat.le_of_lt inside)
  rw [holds.start] at cmd
  unfold Cmdline.checkIgnoreFastbootCmd
  dsimp only
  rw [← cmd, ← holds.start, chars_head b (by omega), length_chars]
  unfold Buffer.checkIgnoreFastbootCmd
  dsimp only
  by_cases quoted : b.mem (b.start : Nat) = 34
  · rw [if_pos quoted, if_pos (congrArg some quoted)]
    by_cases size : b.next - b.start = ignoreFastbootCmd.length + 2
    · have whole : (ignoreFastbootCmd.length : Int) = (b.next : Int) - b.start - 2 := by omega
      have parts : b.chars b.start (b.next - b.start) =
          [b.mem (b.start : Nat)] ++ (b.chars (b.start + 1) ignoreFastbootCmd.length ++ [b.mem ((b.next : Int) - 1)]) := by
        have last : ((b.start + 1 + ignoreFastbootCmd.length : Nat) : Int) = (b.next : Int) - 1 := by omega
        rw [size, show ignoreFastbootCmd.length + 2 = 1 + (ignoreFastbootCmd.length + 1) by omega, chars_add, chars_one,
          chars_add, chars_one, last]
      have ends : ([b.mem (b.start : Nat)] ++ (b.chars (b.start + 1) ignoreFastbootCmd.length ++
          [b.mem ((b.next : Int) - 1)])).getLast? = some (b.mem ((b.next : Int) - 1)) := by
        rw [← List.append_assoc, List.getLast?_concat]
      have middle : ([b.mem (b.start : Nat)] ++ (b.chars (b.start + 1) ignoreFastbootCmd.length ++
          [b.mem ((b.next : Int) - 1)])).tail.take ignoreFastbootCmd.length =
            b.chars (b.start + 1) ignoreFastbootCmd.length :=
        List.take_left' (length_chars ..)
      rw [if_pos whole, parts, ends, middle, size]
      by_cases closed : b.mem ((b.next : Int) - 1) = 34
      · rw [if_pos closed, closed]
        simp only [decide_true, Bool.true_and]
        rfl
      · rw [if_neg closed]
        simp [closed, Buffer.touch, before]
    · have other : ¬ (ignoreFastbootCmd.length : Int) = (b.next : Int) - b.start - 2 := by omega
      rw [if_neg other]
      simp [size, Buffer.touch, before]
  · have bare : ¬ some (b.mem (b.start : Nat)) = some 34 := fun same => quoted (Option.some.inj same)
    rw [if_neg quoted, if_neg bare]
    by_cases size : b.next - b.start = ignoreFastbootCmd.length
    · have whole : (ignoreFastbootCmd.length : Int) = (b.next : Int) - b.start := by omega
      rw [if_pos whole, size]
      rfl
    · have other : ¬ (ignoreFastbootCmd.length : Int) = (b.next : Int) - b.start := by omega
      have differs : b.chars b.start (b.next - b.start) ≠ ignoreFastbootCmd := by
        intro same
        exact size (by rw [← same, length_chars])
      rw [if_neg other, decide_eq_false differs]
      exact before

structure Frame (b t : Buffer) (limit : Nat) : Prop where
  touched : ∃ indices, t.touched = b.touched ++ indices ∧ ∀ i ∈ indices, 0 ≤ i ∧ i < limit
  before : t.mem (-1) = b.mem (-1)

theorem Frame.refl (b : Buffer) (limit : Nat) : Frame b b limit := ⟨⟨[], (List.append_nil _).symm, nofun⟩, rfl⟩

theorem Frame.mono {limit limit' : Nat} (frame : Frame b t limit) (wider : limit ≤ limit') : Frame b t limit' := by
  obtain ⟨⟨indices, touched, inside⟩, before⟩ := frame
  refine ⟨⟨indices, touched, fun i member => ?_⟩, before⟩
  have := inside i member
  omega

theorem Frame.trans {u : Buffer} {limit : Nat} (first : Frame b t limit) (next : Frame t u limit) : Frame b u limit := by
  obtain ⟨indices, touched, inside⟩ := first.touched
  obtain ⟨indices', touched', inside'⟩ := next.touched
  refine ⟨⟨indices ++ indices', by rw [touched', touched, List.append_assoc], ?_⟩, next.before.trans first.before⟩
  intro i member
  exact (List.mem_append.mp member).elim (inside i) (inside' i)

theorem frame_put (b : Buffer) (c : UInt8) : Frame b (b.put c) (b.next + 1) := by
  refine ⟨⟨[(b.next : Int)], rfl, ?_⟩, ?_⟩
  · intro i member
    rw [List.mem_singleton.mp member]
    omega
  · have other : (-1 : Int) ≠ (b.next : Int) := by omega
    exact Function.update_of_ne other c b.mem

def Looked (b t : Buffer) : Prop := ∃ indices flag,
  t = { b with touched := b.touched ++ indices, ignoreFastboot := flag } ∧ ∀ i ∈ indices, 0 ≤ i ∧ i < b.next

theorem Looked.touch (looked : Looked b t) {indices : List Int} (inside : ∀ i ∈ indices, 0 ≤ i ∧ i < b.next) :
    Looked b (t.touch indices) := by
  obtain ⟨before, flag, rfl, touches⟩ := looked
  refine ⟨before ++ indices, flag, ?_, ?_⟩
  · rw [Buffer.touch, ← List.append_assoc]
  · intro i member
    exact (List.mem_append.mp member).elim (touches i) (inside i)

theorem Looked.compare (looked : Looked b t) {start : Nat} (room : start + ignoreFastbootCmd.length ≤ b.next) :
    Looked b (t.compare start) := by
  have run : ∀ i ∈ (List.range ignoreFastbootCmd.length).map fun k => ((start + k : Nat) : Int), 0 ≤ i ∧ i < b.next := by
    intro i member
    obtain ⟨k, below, rfl⟩ := List.mem_map.mp member
    have := List.mem_range.mp below
    omega
  obtain ⟨indices, flag, same, touches⟩ := looked.touch run
  refine ⟨indices, decide (t.chars start ignoreFastbootCmd.length = ignoreFastbootCmd), ?_, touches⟩
  rw [Buffer.compare, same]

theorem looked_checkIgnore (inside : b.start < b.next) : Looked b b.checkIgnoreFastbootCmd := by
  have first : Looked b (b.touch [(b.start : Int)]) := by
    refine ⟨[(b.start : Int)], b.ignoreFastboot, rfl, ?_⟩
    intro i member
    rw [List.mem_singleton.mp member]
    omega
  have last : ∀ i ∈ [(b.next : Int) - 1], 0 ≤ i ∧ i < b.next := by
    intro i member
    rw [List.mem_singleton.mp member]
    omega
  unfold Buffer.checkIgnoreFastbootCmd
  dsimp only
  split
  · split
    · split
      · exact (first.touch last).compare (by omega)
      · exact first.touch last
    · exact first
  · split
    · exact first.compare (by omega)
    · exact first

theorem Holds.check (holds : Holds b s) (inside : s.ignoreFastboot = false → b.start < b.next) :
    Holds b.check s.check ∧ Frame b b.check b.next := by
  unfold Buffer.check CmdList.check
  cases before : s.ignoreFastboot with
  | true =>
    have same := holds.ignore.trans before
    rw [same]
    exact ⟨holds, Frame.refl b _⟩
  | false =>
    have quiet := holds.ignore.trans before
    have same := holds.checkIgnore (inside before) quiet
    obtain ⟨indices, flag, checked, touches⟩ := looked_checkIgnore (inside before)
    rw [checked] at same ⊢
    dsimp only at same ⊢
    rw [quiet, if_neg Bool.false_ne_true, same, Bool.not_false, Bool.true_and]
    cases found : Cmdline.checkIgnoreFastbootCmd s with
    | true =>
      refine ⟨⟨?_, holds.start, holds.mood, holds.quote, rfl⟩, ⟨⟨indices, rfl, touches⟩, rfl⟩⟩
      change b.chars 0 b.start = s.cmdline.take s.start
      have split := chars_add b 0 b.start (b.next - b.start)
      rw [Nat.add_sub_cancel' (Nat.le_of_lt (inside before)), holds.chars] at split
      rw [split, ← holds.start, List.take_left' (length_chars b 0 _)]
    | false =>
      exact ⟨⟨holds.chars, holds.start, holds.mood, holds.quote, before.symm⟩, ⟨⟨indices, rfl, touches⟩, rfl⟩⟩

def Started (s : CmdList) : Prop :=
  s.mood = true ∨ (s.ignoreFastboot = false ∧ s.cmdline ≠ []) → s.start < s.cmdline.length

theorem started_step (started : Started s) (c : UInt8) : Started (s.step c) := by
  have longer (mood : s.mood = true) (c : UInt8) : s.start < (s.put c).cmdline.length := by
    have := started (.inl mood)
    rw [put_length]
    omega
  unfold CmdList.step
  by_cases mood : s.mood = true
  · rw [if_pos mood]
    split
    · split
      · exact fun _ => longer mood _
      · have bound := started (.inl mood)
        unfold CmdList.check
        by_cases removed : (!s.ignoreFastboot && Cmdline.checkIgnoreFastbootCmd s) = true
        · rw [if_pos removed]
          intro active
          exact absurd active (by simp)
        · rw [if_neg removed]
          cases before : s.ignoreFastboot with
          | true =>
            simp only [before, if_true]
            intro active
            exact absurd active (by simp)
          | false =>
            simp only [before, Bool.false_eq_true, if_false]
            intro _
            exact longer mood _
    · split
      · exact fun _ => longer mood _
      · exact fun _ => longer mood _
  · rw [if_neg mood]
    split
    · exact started
    · intro _
      change s.cmdline.length < (s.put c).cmdline.length
      rw [put_length]
      omega

theorem Holds.step (holds : Holds b s) (started : Started s) (c : UInt8) :
    Holds (b.step c) (s.step c) ∧ Frame b (b.step c) (b.next + 1) := by
  have put := holds.put c
  have frame := frame_put b c
  unfold Buffer.step CmdList.step
  rw [holds.mood, holds.quote]
  by_cases mood : s.mood = true
  · rw [if_pos mood, if_pos mood]
    have inside : b.start < b.next := by
      rw [holds.start, holds.next]
      exact started (.inl mood)
    split
    · split
      · exact ⟨put, frame⟩
      · obtain ⟨checked, touches⟩ := holds.check fun _ => inside
        have shorter : b.check.next ≤ b.next := by
          rw [checked.next, holds.next]
          exact check_length s
        have next := checked.put 32
        have all := (touches.mono (Nat.le_succ _)).trans ((frame_put b.check 32).mono (Nat.succ_le_succ shorter))
        dsimp only
        rw [checked.ignore]
        split
        · have wider := touches.mono (Nat.le_succ _)
          exact ⟨⟨checked.chars, checked.start, rfl, checked.quote, checked.ignore⟩, ⟨wider.touched, wider.before⟩⟩
        · exact ⟨⟨next.chars, next.start, rfl, next.quote, next.ignore⟩, ⟨all.touched, all.before⟩⟩
    · split
      · exact ⟨⟨put.chars, put.start, put.mood, rfl, put.ignore⟩, ⟨frame.touched, frame.before⟩⟩
      · exact ⟨put, frame⟩
  · rw [if_neg mood, if_neg mood]
    split
    · exact ⟨holds, Frame.refl b _⟩
    · exact ⟨⟨put.chars, holds.next, rfl, rfl, put.ignore⟩, ⟨frame.touched, frame.before⟩⟩

theorem Holds.foldl (holds : Holds b s) (started : Started s) (text : Text) :
    Holds (text.foldl Buffer.step b) (text.foldl CmdList.step s) ∧ Started (text.foldl CmdList.step s) ∧
      Frame b (text.foldl Buffer.step b) (b.next + text.length) := by
  induction text generalizing b s with
  | nil => exact ⟨holds, started, Frame.refl b _⟩
  | cons c text ih =>
    obtain ⟨next, frame⟩ := holds.step started c
    obtain ⟨held, started', rest⟩ := ih next (started_step started c)
    have longer : (b.step c).next ≤ b.next + 1 := by
      rw [next.next, holds.next]
      exact step_length s c
    refine ⟨held, started', (frame.mono ?_).trans (rest.mono ?_)⟩
    · rw [List.length_cons]
      omega
    · rw [List.length_cons]
      omega

theorem holds_start (mem : Int → UInt8) (ignore : Bool) :
    Holds ⟨mem, 0, 0, false, false, ignore, []⟩ ⟨[], 0, false, false, ignore⟩ := ⟨rfl, rfl, rfl, rfl, rfl⟩

theorem started_start (ignore : Bool) : Started ⟨[], 0, false, false, ignore⟩ := by
  intro active
  exact absurd active (by simp)

theorem Frame.mem {limit : Nat} {x : Int} (frame : Frame b t limit) (early : x ∈ b.touched) : x ∈ t.touched := by
  obtain ⟨indices, touched, -⟩ := frame.touched
  rw [touched]
  exact List.mem_append_left _ early

theorem Holds.completed (holds : Holds b s) : Holds b.completed s.completed := by
  unfold Buffer.completed CmdList.completed
  rw [holds.quote]
  split
  · exact holds.put 34
  · exact holds

theorem frame_completed (b : Buffer) : Frame b b.completed b.completed.next := by
  unfold Buffer.completed
  split
  · exact frame_put b 34
  · exact Frame.refl b _

theorem started_completed (started : Started s) (some : s.cmdline ≠ []) (ignored : s.completed.ignoreFastboot = false) :
    s.completed.start < s.completed.cmdline.length := by
  unfold CmdList.completed at ignored ⊢
  split
  · rename_i quote
    rw [if_pos quote] at ignored
    have := started (.inr ⟨ignored, some⟩)
    rw [put_length]
    exact Nat.lt_succ_of_lt this
  · rename_i quote
    rw [if_neg quote] at ignored
    exact started (.inr ⟨ignored, some⟩)

theorem Holds.closed {before : UInt8} (holds : Holds b s) (known : b.mem (-1) = before) :
    Holds b.closed (s.closed before) := by
  have last : b.mem ((b.next : Int) - 1) = s.cmdline.getLast?.getD before := by
    cases size : b.next with
    | zero =>
      have none : s.cmdline = [] := List.eq_nil_of_length_eq_zero (by rw [← holds.next, size])
      rw [none]
      exact known
    | succ n =>
      have here : s.cmdline.length - 1 < b.next := by rw [← holds.next]; omega
      have place : ((s.cmdline.length - 1 : Nat) : Int) = ((n + 1 : Nat) : Int) - 1 := by rw [← holds.next]; omega
      rw [List.getLast?_eq_getElem?, holds.mem here, place]
      rfl
  have looked : Holds (b.touch [(b.next : Int) - 1]) s := ⟨holds.chars, holds.start, holds.mood, holds.quote, holds.ignore⟩
  unfold Buffer.closed CmdList.closed
  dsimp only
  rw [last]
  split
  · exact looked
  · exact looked.put 32

theorem closed_touches (b : Buffer) : (b.next : Int) - 1 ∈ b.closed.touched ∧
    (∀ i ∈ b.closed.touched, i ∈ b.touched ∨ i = (b.next : Int) - 1 ∨ i = b.next ∧ b.next < b.closed.next) ∧
    (∀ i ∈ b.touched, i ∈ b.closed.touched) ∧ b.next ≤ b.closed.next := by
  unfold Buffer.closed
  dsimp only
  split
  · refine ⟨List.mem_append_right _ List.mem_cons_self, ?_, fun i early => List.mem_append_left _ early, Nat.le_refl _⟩
    intro i member
    rcases List.mem_append.mp member with early | late
    · exact .inl early
    · exact .inr (.inl (List.mem_singleton.mp late))
  · refine ⟨List.mem_append_left _ (List.mem_append_right _ List.mem_cons_self), ?_,
      fun i early => List.mem_append_left _ (List.mem_append_left _ early), Nat.le_succ _⟩
    intro i member
    rcases List.mem_append.mp member with early | late
    · rcases List.mem_append.mp early with before | looked
      · exact .inl before
      · exact .inr (.inl (List.mem_singleton.mp looked))
    · exact .inr (.inr ⟨List.mem_singleton.mp late, Nat.lt_succ_self _⟩)

def NoZero (text : Text) : Prop := ∀ c ∈ text, c ≠ 0

theorem noZero_put (clean : NoZero s.cmdline) (other : c ≠ 0) : NoZero (s.put c).cmdline := by
  intro d member
  rcases List.mem_append.mp member with early | late
  · exact clean d early
  · rwa [List.mem_singleton.mp late]

theorem noZero_check (clean : NoZero s.cmdline) : NoZero s.check.cmdline := by
  unfold CmdList.check
  split
  · exact fun d member => clean d (List.mem_of_mem_take member)
  · exact clean

theorem noZero_step (clean : NoZero s.cmdline) (other : c ≠ 0) : NoZero (s.step c).cmdline := by
  have put := noZero_put clean other
  unfold CmdList.step
  split
  · split
    · split
      · exact put
      · dsimp only
        split
        · exact noZero_check clean
        · exact noZero_put (noZero_check clean) (by decide)
    · split
      · exact put
      · exact put
  · split
    · exact clean
    · exact put

variable {text : Text}

theorem noZero_readLine (ignore : Bool) (clean : NoZero text) : NoZero (readLine ignore text).cmdline := by
  have all (s : CmdList) (before : NoZero s.cmdline) : NoZero (text.foldl CmdList.step s).cmdline := by
    induction text generalizing s with
    | nil => exact before
    | cons c text ih =>
      exact ih (fun d later => clean d (List.mem_cons_of_mem c later)) _ (noZero_step before (clean c List.mem_cons_self))
  exact all _ nofun

theorem noZero_normalise (before : UInt8) (ignore : Bool) (clean : NoZero text) :
    NoZero (normalise before ignore text).cmdline := by
  have read := noZero_readLine ignore clean
  by_cases none : (readLine ignore text).cmdline = []
  · rw [normalise_nil none]
    exact read
  · have completed : NoZero (readLine ignore text).completed.cmdline := by
      unfold CmdList.completed
      split
      · exact noZero_put read (by decide)
      · exact read
    rw [normalise_eq none]
    unfold CmdList.closed
    split
    · exact noZero_check completed
    · exact noZero_put (noZero_check completed) (by decide)

theorem readLine_nil {ignore : Bool} (none : (readLine ignore text).cmdline = []) :
    (cutLine text).cur = [] ∧ (stored ignore (cutLine text).finished).out = [] := by
  have reading := (reading_line ignore text).cmdline
  rw [none] at reading
  exact ⟨(List.append_eq_nil_iff.mp reading.symm).2, (List.append_eq_nil_iff.mp reading.symm).1⟩

theorem completed_cmdline (ignore : Bool) (text : Text) : (readLine ignore text).completed.cmdline =
    (stored ignore (cutLine text).finished).out ++ (cutLine text).last 34 := by
  by_cases none : (cutLine text).cur = []
  · have reading := reading_line ignore text
    have quiet := reading.closed none
    unfold CmdList.completed Cut.last
    rw [reading.mark, quiet]
    exact reading.cmdline
  · exact (reading_completed ignore none).cmdline

theorem check_nil_iff {ignore : Bool} (some : (readLine ignore text).cmdline ≠ []) :
    (readLine ignore text).completed.check.cmdline = [] ↔ Vanishes ignore text := by
  have blank := normalise_cmdline 32 ignore text
  have other := normalise_cmdline 0 ignore text
  rw [normalise_eq some] at blank other
  constructor
  · intro none
    by_contra stays
    have empty : ((readLine ignore text).completed.check.closed 32).cmdline = [] := by
      rw [CmdList.closed, none]
      exact none
    have single : ((readLine ignore text).completed.check.closed 0).cmdline = [32] := by
      rw [CmdList.closed, none]
      exact congrArg (· ++ [32]) none
    rw [if_neg stays] at blank other
    exact absurd (empty.symm.trans (blank.trans (other.symm.trans single))) (by simp)
  · intro vanishes
    by_contra left
    rw [if_pos vanishes, closed_cmdline left] at blank
    split at blank
    · exact left blank
    · exact absurd blank (by simp)

end

section
variable {b : Buffer} {ignore : Bool} {text : Text}

theorem finish_sound_iff (holds : Holds b (readLine ignore text)) (started : Started (readLine ignore text))
    (inside : ∀ i ∈ b.touched, 0 ≤ i ∧ i < commandLineSize) (short : b.next ≤ commandLineSize) (some : (readLine ignore text).cmdline ≠ [])
    (clean : NoZero text) : b.finish.Sound ↔ (readLine ignore text).completed.cmdline.length ≤ commandLineSize ∧
        (readLine ignore text).completed.check.cmdline ≠ [] ∧
        (normalise (b.mem (-1)) ignore text).cmdline.length < commandLineSize := by
  have completed := holds.completed
  have begun (ignored : (readLine ignore text).completed.ignoreFastboot = false) :
      b.completed.start < b.completed.next := by
    rw [completed.start, completed.next]
    exact started_completed started some ignored
  obtain ⟨checked, touches⟩ := completed.check begun
  have first := frame_completed b
  have closed := checked.closed (touches.before.trans first.before)
  obtain ⟨looked, only, stay, grows⟩ := closed_touches b.completed.check
  have size : b.completed.check.closed.next = (normalise (b.mem (-1)) ignore text).cmdline.length := by
    rw [closed.next, normalise_eq some]
  have nonzero : b.next ≠ 0 := by
    rw [holds.next]
    exact fun none => some (List.eq_nil_of_length_eq_zero none)
  have finish : b.finish = b.completed.check.closed.store 0 := if_neg nonzero
  have left : (readLine ignore text).completed.check.cmdline ≠ [] ↔ b.completed.check.next ≠ 0 := by
    rw [checked.next]
    exact not_congr List.length_eq_zero_iff.symm
  rw [finish, ← completed.next, left, ← size]
  constructor
  · intro sound
    have last := sound.inside _ (List.mem_append_right _ List.mem_cons_self)
    have before := sound.inside _ (List.mem_append_left _ looked)
    have bound : b.completed.next ≤ commandLineSize := by
      by_cases quote : b.quote = true
      · have more : b.completed = b.put 34 := if_pos quote
        have quoted : (b.next : Int) ∈ b.completed.touched := by
          rw [more]
          exact List.mem_append_right _ List.mem_cons_self
        have here := sound.inside _ (List.mem_append_left _ (stay _ (touches.mem quoted)))
        rw [more]
        change b.next + 1 ≤ _
        omega
      · have same : b.completed = b := if_neg quote
        rwa [same]
    omega
  · rintro ⟨room, remains, fits⟩
    obtain ⟨indices, touched, below⟩ := ((first.mono (Nat.le_refl _)).trans touches).touched
    refine ⟨?_, Function.update_self .., ?_⟩
    · intro i member
      rcases List.mem_append.mp member with early | late
      · rcases only i early with before | rfl | ⟨rfl, -⟩
        · rw [touched] at before
          rcases List.mem_append.mp before with loop | behind
          · exact inside i loop
          · have := below i behind
            omega
        · omega
        · omega
      · rw [List.mem_singleton.mp late]
        omega
    · intro i before
      have other : ((i : Nat) : Int) ≠ (b.completed.check.closed.next : Int) := by
        have before : i < b.completed.check.closed.next := before
        omega
      have here := closed.mem before
      rw [← normalise_eq some] at here
      change Function.update b.completed.check.closed.mem _ 0 _ ≠ 0
      rw [Function.update_of_ne other]
      exact noZero_normalise _ ignore clean _ (List.mem_of_getElem? here)

end

/-- Lines without a zero are normalised in the buffer exactly when they fit. -/
theorem initCmdList_sound_iff (mem : Int → UInt8) (ignore : Bool) (cmdline : Text) (clean : NoZero cmdline) :
    (initCmdListIn mem ignore (some cmdline)).Sound ↔ LineFits ignore (cmdline.take commandLineSize) := by
  have short : (cmdline.take commandLineSize).length ≤ commandLineSize := List.length_take_le ..
  have clean : NoZero (cmdline.take commandLineSize) := fun c member => clean c (List.mem_of_mem_take member)
  change ((_ : Buffer).finish).Sound ↔ _
  generalize cmdline.take commandLineSize = text at short clean
  obtain ⟨holds, started, frame⟩ := (holds_start mem ignore).foldl (started_start ignore) text
  obtain ⟨indices, touched, below⟩ := frame.touched
  generalize text.foldl Buffer.step _ = b at holds frame touched
  have before : b.mem (-1) = mem (-1) := frame.before
  change Holds b (readLine ignore text) at holds
  have inside : ∀ i ∈ b.touched, 0 ≤ i ∧ i < commandLineSize := by
    intro i member
    rw [touched] at member
    have early : 0 ≤ i ∧ i < ((0 + text.length : Nat) : Int) := below i member
    omega
  have size : b.next ≤ commandLineSize := by
    rw [holds.next]
    exact Nat.le_trans (readLine_length ignore text) short
  by_cases none : (readLine ignore text).cmdline = []
  · obtain ⟨cur, out⟩ := readLine_nil none
    have zero : b.next = 0 := by
      rw [holds.next, none]
      rfl
    have stays : ¬ Vanishes ignore text := fun vanishes => vanishes.2.2.1 cur
    have left := normalise_cmdline 0 ignore text
    rw [normalise_nil none, none, if_neg stays] at left
    have last : (cutLine text).last 34 = [] := by
      rw [Cut.last, (reading_line ignore text).closed cur]
      exact cur
    have sound : b.finish.Sound := by
      rw [Buffer.finish, if_pos zero]
      refine ⟨?_, Function.update_self .., ?_⟩
      · intro i member
        rcases List.mem_append.mp member with early | late
        · exact inside i early
        · rw [List.mem_singleton.mp late, zero]
          decide
      · intro i before
        have before : i < b.next := before
        omega
    have fits : LineFits ignore text := by
      refine ⟨stays, ?_, ?_⟩
      · rw [out, last]
        exact Nat.zero_le _
      · rw [← left]
        exact Nat.zero_lt_of_lt (Nat.lt_succ_self 2047)
    exact iff_of_true sound fits
  · rw [finish_sound_iff holds started inside size none clean, completed_cmdline, List.length_append]
    rw [Ne, check_nil_iff none, before, normalise_cmdline]
    constructor
    · rintro ⟨read, stays, left⟩
      rw [if_neg stays] at left
      exact ⟨stays, read, left⟩
    · rintro ⟨stays, read, left⟩
      rw [if_neg stays]
      exact ⟨read, stays, left⟩

theorem initCmdList_sound_open : (initCmdListIn (fun _ => 0) false (some (ascii "root=/dev/sda \"a b"))).Sound := by
  refine (initCmdList_sound_iff (fun _ => 0) false _ ?_).mpr ⟨by decide, by decide, by decide⟩
  intro c member zero
  exact absurd (zero ▸ member) (by decide)

/-- Where `ignorefastboot` is all of the line, the character in front of the buffer is looked at. -/
theorem initCmdList_before : ¬ (initCmdListIn (fun _ => 0) false (some ignoreFastbootCmd)).Sound := by
  intro sound
  have before := sound.inside (-1) (by decide)
  omega

end Cboot.Cmdline
