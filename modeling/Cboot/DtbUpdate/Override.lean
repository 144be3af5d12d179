import Cboot.Clib.Strings

/-!
`param_value_override` of `lib/linuxboot/dtb_update.c`. The parameter is searched for at every character, and its value
is what follows up to a blank.
-/

namespace Cboot.DtbUpdate
open Clib Lib.Search
open Extlinux (Text)
open Extlinux.InPlace (Buffer seek seek_eq)

def maxCommandLineSize : Nat := 2048

inductive Error where
  | overflow
  | notFound
  deriving DecidableEq, Repr

structure Overridden where
  mem : Buffer
  len : Int
  err : Option Error
  deriving DecidableEq, Repr

/-- `n` bytes at `c` are moved behind, the last one first. -/
def moveRight (c distance : Nat) : Nat → Buffer → Option Buffer
  | 0, mem => some mem
  | n + 1, mem => mem[c + n]?.bind fun b => (poke mem (c + n + distance) b).bind fun mem => moveRight c distance n mem

/-- `param_value_override`, for a command line at some position. -/
def paramValueOverride (mem : Buffer) (cmdline : Nat) (len : Int) (param value : Text) : Option Overridden :=
  if param = [] then some ⟨mem, len, none⟩
  else
    (strlen mem cmdline).bind fun size =>
      (searchFrom param (mem.drop cmdline)).bind fun found =>
        match found with
        | none => some ⟨mem, len, some .notFound⟩
        | some i =>
          let old := cmdline + i + param.length
          (seek (fun c => c = 32 ∨ c = 0) mem old).bind fun c =>
            let oldLen := c - old
            let newLen := value.length
            if newLen > oldLen then
              if len + (newLen - oldLen : Nat) > maxCommandLineSize then some ⟨mem, len, some .overflow⟩
              else
                (moveRight c (newLen - oldLen) (cmdline + size + 1 - c) mem).bind fun mem =>
                  (strncpy mem old (value ++ [0]) newLen).map fun mem => ⟨mem, len + (newLen - oldLen), none⟩
            else
              (strncpy mem old (value ++ [0]) newLen).bind fun mem =>
                (copyString mem.length mem (old + newLen) c).map fun mem => ⟨mem, len + (newLen - oldLen), none⟩

section
variable {front line behind a b text tail : Buffer} {param value : Text} {len : Int}

theorem moveRight_eq (front text : Buffer) {distance : Nat} (inside : distance ≤ tail.length) :
    moveRight front.length distance text.length (front ++ (text ++ tail)) =
      some (front ++ ((text ++ tail).take distance ++ (text ++ tail.drop distance))) := by
  induction text using List.reverseRecOn generalizing tail with
  | nil => simp [moveRight]
  | append_singleton text b ih =>
    have read : (front ++ (text ++ b :: tail))[front.length + text.length]? = some b := by
      rw [← List.append_assoc, ← List.length_append]
      exact getElem?_front (front ++ text) tail b
    have room : front.length + text.length + distance < (front ++ (text ++ b :: tail)).length := by
      simp only [List.length_append, List.length_cons]
      omega
    have moved : (front ++ (text ++ b :: tail)).set (front.length + text.length + distance) b =
        front ++ (text ++ (b :: tail).set distance b) := by
      rw [← List.append_assoc, ← List.length_append, List.set_append_right _ _ (Nat.le_add_right _ _),
        Nat.add_sub_cancel_left, List.append_assoc]
    have still : distance ≤ ((b :: tail).set distance b).length := by
      rw [List.length_set, List.length_cons]
      omega
    rw [List.length_append, List.length_singleton, moveRight, List.append_assoc, List.singleton_append, read,
      Option.bind_some, poke, if_pos room, Option.bind_some, moved, ih still]
    have early : (text ++ (b :: tail).set distance b).take distance = (text ++ b :: tail).take distance := by
      rw [List.take_append, List.take_append, List.take_set_of_le (by omega)]
    have late : ((b :: tail).set distance b).drop distance = b :: tail.drop distance := by
      rw [List.drop_set, if_neg (Nat.lt_irrefl _), Nat.sub_self]
      cases distance with
      | zero => rfl
      | succ distance =>
        rw [List.drop_succ_cons, List.drop_eq_getElem_cons inside, List.set_cons_zero]
    rw [early, late]
    simp

theorem strlen_eq (front : Buffer) (unended : 0 ∉ line) (behind : Buffer) :
    strlen (front ++ (line ++ 0 :: behind)) front.length = some line.length := by
  rw [strlen, seek_zero front unended, Option.map_some, Nat.add_sub_cancel_left]

def valueOf (b : Text) : Text := b.takeWhile (· ≠ 32)

def restOf (b : Text) : Text := b.dropWhile (· ≠ 32)

theorem value_rest (b : Text) : valueOf b ++ restOf b = b := List.takeWhile_append_dropWhile

theorem value_clean (b : Text) : 32 ∉ valueOf b := by
  intro member
  simpa using List.mem_takeWhile_imp member

theorem rest_cases (b : Text) : restOf b = [] ∨ ∃ rest, restOf b = 32 :: rest := by
  cases split : restOf b with
  | nil => exact .inl rfl
  | cons c rest =>
    have stops : ¬ (c ≠ 32) := by
      have head := List.head?_dropWhile_not (· ≠ (32 : UInt8)) b
      rw [show b.dropWhile (· ≠ 32) = c :: rest from split] at head
      simpa using head
    exact .inr ⟨rest, by rw [not_not.mp stops]⟩

theorem seek_value (front : Buffer) (unended : 0 ∉ b) (behind : Buffer) :
    seek (fun c => c = 32 ∨ c = 0) (front ++ (b ++ 0 :: behind)) front.length =
      some (front.length + (valueOf b).length) := by
  have passed : ∀ c ∈ valueOf b, decide (c = 32 ∨ c = 0) = false := by
    intro c member
    have within : c ∈ b := (List.takeWhile_sublist _).subset member
    refine decide_eq_false (not_or.mpr ⟨?_, ?_⟩)
    · rintro rfl
      exact value_clean b member
    · rintro rfl
      exact unended within
  obtain ends | ⟨rest, ends⟩ := rest_cases b
  · refine seek_eq (?_ : _ = valueOf b ++ 0 :: behind) passed rfl
    rw [List.drop_left]
    nth_rewrite 1 [← value_rest b]
    rw [ends, List.append_nil]
  · refine seek_eq (?_ : _ = valueOf b ++ 32 :: (rest ++ 0 :: behind)) passed rfl
    rw [List.drop_left]
    nth_rewrite 1 [← value_rest b]
    rw [ends, List.append_assoc, List.cons_append]

/-- The command line with another value at the place where the parameter is found. -/
def overridden (param value a b : Text) : Text := a ++ (param ++ (value ++ restOf b))

theorem overridden_length (param value a b : Text) : (overridden param value a b).length + (valueOf b).length =
    (a ++ (param ++ b)).length + value.length := by
  have size := congrArg List.length (value_rest b)
  simp only [overridden, List.length_append] at size ⊢
  omega

theorem overridden_unended (unended : 0 ∉ line) (plain : 0 ∉ value) (found : cut param line = some (a, b)) :
    0 ∉ overridden param value a b := by
  have rest : 0 ∈ restOf b → 0 ∈ b := fun member => (List.dropWhile_sublist _).subset member
  rw [(cut_some found).1] at unended
  simp only [overridden, List.mem_append, not_or] at unended ⊢
  exact ⟨unended.1, unended.2.1, plain, fun member => unended.2.2 (rest member)⟩

theorem override_missing (some : param ≠ []) (clean : 0 ∉ param) (front : Buffer) (unended : 0 ∉ line) (behind : Buffer)
    (missing : cut param line = none) : paramValueOverride (front ++ (line ++ 0 :: behind)) front.length len param value =
      .some ⟨front ++ (line ++ 0 :: behind), len, .some .notFound⟩ := by
  rw [paramValueOverride, if_neg some, strlen_eq front unended, Option.bind_some, List.drop_left,
    searchFrom_eq clean unended, missing]
  rfl

theorem override_found (some : param ≠ []) (clean : 0 ∉ param) (front : Buffer) (unended : 0 ∉ line) (behind : Buffer)
    (found : cut param line = .some (a, b)) : paramValueOverride (front ++ (line ++ 0 :: behind)) front.length len param value =
      let mem := front ++ (line ++ 0 :: behind)
      let old := (front ++ (a ++ param)).length
      if value.length > (valueOf b).length then
        if len + (value.length - (valueOf b).length : Nat) > maxCommandLineSize then .some ⟨mem, len, .some .overflow⟩
        else
          (moveRight (old + (valueOf b).length) (value.length - (valueOf b).length) ((restOf b).length + 1) mem).bind fun mem =>
            (strncpy mem old (value ++ [0]) value.length).map fun mem => ⟨mem, len + (value.length - (valueOf b).length), none⟩
      else
        (strncpy mem old (value ++ [0]) value.length).bind fun mem =>
          (copyString mem.length mem (old + value.length) (old + (valueOf b).length)).map fun mem =>
            ⟨mem, len + (value.length - (valueOf b).length), none⟩ := by
  obtain ⟨rfl, -⟩ := cut_some found
  have later : 0 ∉ b := fun member => unended (by simp [member])
  have ends := seek_value (front ++ (a ++ param)) later behind
  have same : front ++ (a ++ param) ++ (b ++ 0 :: behind) = front ++ (a ++ (param ++ b) ++ 0 :: behind) := by simp
  have place : front.length + a.length + param.length = (front ++ (a ++ param)).length := by
    simp only [List.length_append]
    omega
  have whole := congrArg List.length (value_rest b)
  have count : front.length + (a ++ (param ++ b)).length + 1 - ((front ++ (a ++ param)).length + (valueOf b).length) =
      (restOf b).length + 1 := by
    simp only [List.length_append] at whole ⊢
    omega
  rw [same] at ends
  rw [paramValueOverride, if_neg some, strlen_eq front unended, Option.bind_some, List.drop_left,
    searchFrom_eq clean unended, found]
  simp only [Option.map_some, Option.bind_some, place, ends, count, Nat.add_sub_cancel_left]

theorem write_longer (before : Buffer) (plain : 0 ∉ value) (old rest behind : Buffer) (longer : old.length < value.length)
    (inside : value.length - old.length ≤ behind.length) :
    ((moveRight (before.length + old.length) (value.length - old.length) (rest.length + 1)
      (before ++ (old ++ (rest ++ 0 :: behind)))).bind fun mem => strncpy mem before.length (value ++ [0]) value.length) =
        some (before ++ (value ++ (rest ++ 0 :: behind.drop (value.length - old.length)))) := by
  have moved := @moveRight_eq behind (before ++ old) (rest ++ [0]) _ inside
  have gap : (old ++ (rest ++ [0] ++ behind).take (value.length - old.length)).length = value.length := by
    simp only [List.length_append, List.length_take, List.length_singleton]
    omega
  have written := strncpy_eq before plain _ gap (rest ++ [0] ++ behind.drop (value.length - old.length)) [0]
  simp only [List.append_assoc, List.length_append, List.length_singleton, List.singleton_append] at moved written
  rw [moved, Option.bind_some, written]

theorem write_shorter (before : Buffer) (plain : 0 ∉ value) (old : Buffer) {rest : Text} (unended : 0 ∉ rest) (behind : Buffer)
    (shorter : value.length ≤ old.length) :
    ((strncpy (before ++ (old ++ (rest ++ 0 :: behind))) before.length (value ++ [0]) value.length).bind fun mem =>
      copyString mem.length mem (before.length + value.length) (before.length + old.length)) =
        some (before ++ (value ++ (rest ++ 0 :: (old.drop value.length ++ (rest ++ 0 :: behind)).drop (rest.length + 1)))) := by
  have fill : (old.take value.length).length = value.length := List.length_take_of_le shorter
  have written := strncpy_eq before plain _ fill (old.drop value.length ++ (rest ++ 0 :: behind)) [0]
  rw [← List.append_assoc, ← List.append_assoc, List.append_assoc _ (old.take _), List.take_append_drop,
    List.append_assoc] at written
  have place : before.length + old.length = (before ++ value).length + (old.drop value.length).length := by
    rw [List.length_append, List.length_drop]
    omega
  have enough : rest.length < (before ++ (value ++ (old.drop value.length ++ (rest ++ 0 :: behind)))).length := by
    simp only [List.length_append, List.length_cons]
    omega
  have moved := copyString_eq (before ++ value) (old.drop value.length) unended behind enough
  have sum : (before ++ value).length = before.length + value.length := List.length_append
  rw [← place, sum, List.append_assoc, List.append_assoc] at moved
  rw [written, Option.bind_some, moved]

theorem drop_longer (a b behind : Buffer) (longer : (valueOf b).length < value.length) :
    (a ++ (param ++ b) ++ 0 :: behind).drop ((overridden param value a b).length + 1) =
      behind.drop (value.length - (valueOf b).length) := by
  have size := overridden_length param value a b
  rw [show (overridden param value a b).length + 1 =
    (a ++ (param ++ b)).length + (value.length - (valueOf b).length + 1) by omega, ← List.drop_drop, List.drop_left,
    List.drop_succ_cons]

theorem drop_shorter (a b behind : Buffer) (shorter : value.length ≤ (valueOf b).length) :
    (a ++ (param ++ b) ++ 0 :: behind).drop ((overridden param value a b).length + 1) =
      ((valueOf b).drop value.length ++ (restOf b ++ 0 :: behind)).drop ((restOf b).length + 1) := by
  have parts : a ++ (param ++ b) ++ 0 :: behind = a ++ (param ++ (valueOf b).take value.length) ++
      ((valueOf b).drop value.length ++ (restOf b ++ 0 :: behind)) := by
    nth_rewrite 1 [← value_rest b]
    nth_rewrite 1 [← List.take_append_drop value.length (valueOf b)]
    simp only [List.append_assoc]
  have front : (overridden param value a b).length + 1 =
      (a ++ (param ++ (valueOf b).take value.length)).length + ((restOf b).length + 1) := by
    simp only [overridden, List.length_append, List.length_take]
    omega
  rw [front, parts, ← List.drop_drop, List.drop_left]

theorem override_written (some : param ≠ []) (clean : 0 ∉ param) (plain : 0 ∉ value) (front : Buffer) (unended : 0 ∉ line)
    (behind : Buffer) (found : cut param line = .some (a, b))
    (small : (valueOf b).length < value.length → len + (value.length - (valueOf b).length : Nat) ≤ maxCommandLineSize)
    (room : (overridden param value a b).length ≤ line.length + behind.length) :
    paramValueOverride (front ++ (line ++ 0 :: behind)) front.length len param value =
      .some ⟨front ++ (overridden param value a b ++
        0 :: (line ++ 0 :: behind).drop ((overridden param value a b).length + 1)),
        len + (value.length - (valueOf b).length), none⟩ := by
  rw [override_found some clean front unended behind found]
  obtain ⟨rfl, -⟩ := cut_some found
  have later : 0 ∉ restOf b := fun member => unended (by simp [(List.dropWhile_sublist _).subset member])
  have size := overridden_length param value a b
  generalize len + ((value.length : Int) - ((valueOf b).length : Int)) = len'
  have split (behind : Buffer) : front ++ (a ++ (param ++ b) ++ 0 :: behind) =
      front ++ (a ++ param) ++ (valueOf b ++ (restOf b ++ 0 :: behind)) := by
    nth_rewrite 1 [← value_rest b]
    simp only [List.append_assoc]
  have joined (tail : Buffer) : front ++ (a ++ param) ++ (value ++ (restOf b ++ 0 :: tail)) =
      front ++ (overridden param value a b ++ 0 :: tail) := by
    simp only [overridden, List.append_assoc]
  by_cases longer : value.length > (valueOf b).length
  · have written := write_longer (front ++ (a ++ param)) plain (valueOf b) (restOf b) behind longer (by omega)
    simp only [if_pos longer, if_neg (Int.not_lt.mpr (small longer)), drop_longer a b behind longer]
    rw [split]
    refine Option.map_bind.symm.trans ?_
    rw [written, Option.map_some, joined]
  · have shorter : value.length ≤ (valueOf b).length := Nat.le_of_not_lt longer
    have written := write_shorter (front ++ (a ++ param)) plain (valueOf b) later behind shorter
    simp only [if_neg longer, drop_shorter a b behind shorter]
    rw [split]
    refine Option.map_bind.symm.trans ?_
    rw [written, Option.map_some, joined]

theorem moveRight_outside {c distance n : Nat} {mem : Buffer} (outside : mem.length ≤ c + n + distance) :
    moveRight c distance (n + 1) mem = none := by
  rw [moveRight]
  cases mem[c + n]? with
  | none => rfl
  | some b => rw [Option.bind_some, poke, if_neg (Nat.not_lt.mpr outside), Option.bind_none]

theorem override_cases (some : param ≠ []) (clean : 0 ∉ param) (plain : 0 ∉ value) (front : Buffer) (unended : 0 ∉ line)
    (behind : Buffer) (found : cut param line = .some (a, b)) {r : Overridden}
    (call : paramValueOverride (front ++ (line ++ 0 :: behind)) front.length len param value = .some r) :
    (r = ⟨front ++ (line ++ 0 :: behind), len, .some .overflow⟩ ∧
      maxCommandLineSize < len + (value.length - (valueOf b).length : Nat)) ∨
    r = ⟨front ++ (overridden param value a b ++
        0 :: (line ++ 0 :: behind).drop ((overridden param value a b).length + 1)),
        len + (value.length - (valueOf b).length), none⟩ := by
  have size := overridden_length param value a b
  by_cases longer : (valueOf b).length < value.length
  · have known : paramValueOverride (front ++ (line ++ 0 :: behind)) front.length len param value = _ :=
      override_found some clean front unended behind found
    by_cases much : len + (value.length - (valueOf b).length : Nat) > maxCommandLineSize
    · simp only [gt_iff_lt, if_pos longer] at known
      rw [if_pos much] at known
      exact .inl ⟨Option.some.inj (call.symm.trans known), much⟩
    · have small : (valueOf b).length < value.length → len + (value.length - (valueOf b).length : Nat) ≤ maxCommandLineSize :=
        fun _ => Int.not_lt.mp much
      by_cases room : (overridden param value a b).length ≤ line.length + behind.length
      · exact .inr (Option.some.inj (call.symm.trans (override_written some clean plain front unended behind found small room)))
      · obtain ⟨here, -⟩ := cut_some found
        have whole := congrArg List.length (value_rest b)
        have outside : (front ++ (line ++ 0 :: behind)).length ≤
            (front ++ (a ++ param)).length + (valueOf b).length + (restOf b).length + (value.length - (valueOf b).length) := by
          rw [here] at room ⊢
          simp only [List.length_append, List.length_cons] at size room whole ⊢
          omega
        simp only [gt_iff_lt, if_pos longer] at known
        rw [if_neg much, moveRight_outside outside] at known
        exact absurd (call.symm.trans known) (by simp)
  · have room : (overridden param value a b).length ≤ line.length + behind.length := by
      rw [(cut_some found).1]
      omega
    exact .inr (Option.some.inj (call.symm.trans
      (override_written some clean plain front unended behind found (fun less => absurd less longer) room)))

end

end Cboot.DtbUpdate
