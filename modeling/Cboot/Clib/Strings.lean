import Cboot.Lib.Search
import Cboot.Extlinux.Lines

/-!
What `lib/clib/string.c` does with strings that are changed where they stand.
-/

namespace Cboot.Clib
open Extlinux.InPlace Lib.Search
open Extlinux (Text)

def poke (mem : Buffer) (i : Nat) (c : UInt8) : Option Buffer := if i < mem.length then some (mem.set i c) else none

def strlen (mem : Buffer) (str : Nat) : Option Nat := (seek (fun c => c = 0) mem str).map (· - str)

/-- The loop of `strstr` from where its first argument points to, and how far it comes. -/
def searchFrom (sub : Text) : Buffer → Option (Option Nat)
  | [] => none
  | c :: mem =>
    if c = 0 then some none
    else (startsWith sub (c :: mem)).bind fun hit =>
      if hit then some (some 0) else (searchFrom sub mem).map fun found => found.map (· + 1)

def strstr (mem : Buffer) (str : Nat) (sub : Text) : Option (Option Nat) :=
  if sub = [] then some (some str) else (searchFrom sub (mem.drop str)).map fun found => found.map (str + ·)

/-- A string is copied to `dest`, with the byte that ends it. -/
def copyString : Nat → Buffer → Nat → Nat → Option Buffer
  | 0, _, _, _ => none
  | turns + 1, mem, dest, src =>
    mem[src]?.bind fun ch => (poke mem dest ch).bind fun mem =>
      if ch = 0 then some mem else copyString turns mem (dest + 1) (src + 1)

def strcat (mem : Buffer) (dest src : Nat) : Option Buffer :=
  (seek (fun c => c = 0) mem dest).bind fun dest => copyString mem.length mem dest src

def zeroFill : Nat → Buffer → Nat → Option Buffer
  | 0, mem, _ => some mem
  | n + 1, mem, dest => (poke mem dest 0).bind fun mem => zeroFill n mem (dest + 1)

def strncpy (mem : Buffer) (dest : Nat) : Buffer → Nat → Option Buffer
  | _, 0 => some mem
  | [], _ + 1 => none
  | ch :: src, n + 1 =>
    (poke mem dest ch).bind fun mem => if ch = 0 then zeroFill n mem (dest + 1) else strncpy mem (dest + 1) src n

section
variable {mem front gap text rest tail : Buffer} {sub : Text} {c ch : UInt8}

@[simp] theorem poke_append (front tail : Buffer) (c ch : UInt8) :
    poke (front ++ c :: tail) front.length ch = some (front ++ ch :: tail) := by
  have inside : front.length < (front ++ c :: tail).length := by simp
  rw [poke, if_pos inside, List.set_append_right _ _ (Nat.le_refl _), Nat.sub_self, List.set_cons_zero]

theorem getElem?_front (front tail : Buffer) (c : UInt8) : (front ++ c :: tail)[front.length]? = some c := by
  rw [List.getElem?_append_right (Nat.le_refl _), Nat.sub_self, List.getElem?_cons_zero]

theorem seek_zero (front : Buffer) (clean : 0 ∉ text) (rest : Buffer) :
    seek (fun c => c = 0) (front ++ (text ++ 0 :: rest)) front.length = some (front.length + text.length) := by
  refine seek_eq (List.drop_left : _ = text ++ 0 :: rest) (fun b member => ?_) rfl
  exact decide_eq_false fun zero => clean (zero ▸ member)

theorem searchFrom_eq (clean : 0 ∉ sub) (unended : 0 ∉ text) (rest : Buffer) :
    searchFrom sub (text ++ 0 :: rest) = some ((cut sub text).map fun found => found.1.length) := by
  induction text with
  | nil => rfl
  | cons c text ih =>
    obtain ⟨other, later⟩ := not_or.mp (mt List.mem_cons.mpr unended)
    have here := startsWith_eq clean (c :: text) rest
    rw [List.cons_append] at here ⊢
    rw [searchFrom, if_neg (Ne.symm other), here, Option.bind_some]
    by_cases starts : sub <+: c :: text
    · rw [if_pos (List.isPrefixOf_iff_prefix.mpr starts), cut_cons_here starts]
      rfl
    · rw [if_neg (mt List.isPrefixOf_iff_prefix.mp starts), cut_cons_later starts, ih later]
      simp [Function.comp_def]

theorem strstr_eq (some : sub ≠ []) (clean : 0 ∉ sub) (front : Buffer) (unended : 0 ∉ text) (rest : Buffer) :
    strstr (front ++ (text ++ 0 :: rest)) front.length sub =
      .some ((cut sub text).map fun found => front.length + found.1.length) := by
  rw [strstr, if_neg some, List.drop_left, searchFrom_eq clean unended]
  simp [Function.comp_def]

theorem copyString_eq {turns : Nat} (front gap : Buffer) (unended : 0 ∉ text) (rest : Buffer) (enough : text.length < turns) :
    copyString turns (front ++ (gap ++ (text ++ 0 :: rest))) front.length (front.length + gap.length) =
      some (front ++ (text ++ 0 :: (gap ++ (text ++ 0 :: rest)).drop (text.length + 1))) := by
  induction text generalizing turns front gap with
  | nil =>
    obtain ⟨turns, rfl⟩ := Nat.exists_eq_add_of_lt enough
    have read : (front ++ (gap ++ 0 :: rest))[front.length + gap.length]? = some 0 := by
      rw [← List.append_assoc, ← List.length_append]
      exact getElem?_front (front ++ gap) rest 0
    rw [List.length_nil, Nat.zero_add, copyString]
    simp only [List.nil_append, read, Option.bind_some]
    cases gap with
    | nil => simp
    | cons g gap => simp
  | cons c text ih =>
    obtain ⟨other, later⟩ := not_or.mp (mt List.mem_cons.mpr unended)
    cases turns with
    | zero => exact absurd enough (Nat.not_lt_zero _)
    | succ turns =>
      have read : (front ++ (gap ++ c :: (text ++ 0 :: rest)))[front.length + gap.length]? = some c := by
        rw [← List.append_assoc, ← List.length_append]
        exact getElem?_front (front ++ gap) (text ++ 0 :: rest) c
      rw [copyString]
      simp only [List.cons_append, read, Option.bind_some, if_neg (Ne.symm other)]
      have shorter : text.length < turns := Nat.lt_of_succ_lt_succ enough
      cases gap with
      | nil =>
        have next := ih (front ++ [c]) [] later shorter
        simp only [List.append_assoc, List.singleton_append, List.length_append, List.length_singleton, List.nil_append,
          List.length_nil, Nat.add_zero] at next
        simp only [List.nil_append, poke_append, Option.bind_some, List.length_nil, Nat.add_zero]
        rw [next]
        simp
      | cons g gap =>
        have next := ih (front ++ [c]) (gap ++ [c]) later shorter
        simp only [List.append_assoc, List.singleton_append, List.length_append, List.length_singleton] at next
        simp only [List.cons_append, poke_append, Option.bind_some, List.length_cons]
        rw [show front.length + (gap.length + 1) + 1 = front.length + 1 + (gap.length + 1) by omega, next]
        simp

theorem strncpy_eq (front : Buffer) (unended : 0 ∉ text) (old : Buffer) (size : old.length = text.length) (rest src : Buffer) :
    strncpy (front ++ (old ++ rest)) front.length (text ++ src) text.length = some (front ++ (text ++ rest)) := by
  induction text generalizing front old with
  | nil =>
    obtain rfl := List.eq_nil_of_length_eq_zero size
    cases src with
    | nil => rfl
    | cons ch src => rfl
  | cons c text ih =>
    obtain ⟨other, later⟩ := not_or.mp (mt List.mem_cons.mpr unended)
    cases old with
    | nil => cases size
    | cons o old =>
      have next := ih (front ++ [c]) later old (Nat.succ.inj size)
      simp only [List.append_assoc, List.singleton_append, List.length_append, List.length_singleton] at next
      rw [List.cons_append, List.cons_append, List.length_cons, strncpy, poke_append, Option.bind_some,
        if_neg (Ne.symm other), next, List.cons_append]

theorem overwrite_drop {written : Buffer} (n : Nat) :
    (written ++ mem.drop written.length).drop n = mem.drop n ↔ written.drop n <+: mem.drop n := by
  by_cases within : n ≤ written.length
  · rw [List.drop_append_of_le_length within]
    constructor
    · intro same
      exact same ▸ List.prefix_append _ _
    · rintro ⟨rest, same⟩
      rw [← same]
      have later := congrArg (List.drop (written.length - n)) same
      rw [List.drop_drop, ← List.length_drop, List.drop_left, List.length_drop, Nat.add_sub_cancel' within] at later
      rw [later]
  · have gone : written.drop n = [] := List.drop_eq_nil_of_le (Nat.le_of_not_le within)
    rw [List.drop_append, gone, List.nil_append, List.drop_drop, Nat.add_sub_cancel' (Nat.le_of_not_le within)]
    simp

end

end Cboot.Clib
