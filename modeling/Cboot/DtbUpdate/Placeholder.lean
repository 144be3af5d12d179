import Cboot.Cmdline.Printf
import Cboot.DtbUpdate.Override

/-!
`remove_substr` of `lib/linuxboot/dtb_update.c`, and the boot arguments that are put together with it.
-/

namespace Cboot.DtbUpdate
open Clib Lib Lib.Search
open Cmdline (formatted)
open Extlinux (Text ascii)
open Extlinux.InPlace (Buffer cstring cstring_eq)

structure Removal where
  mem : Buffer
  place : Nat

/-- One turn of `remove_substr`, for a string at the start of memory. -/
def removePass (sub : Text) (s : Removal) : Pass Removal (Option Buffer) :=
  match strstr s.mem s.place sub with
  | none => .leave none
  | some none => .leave (some s.mem)
  | some (some place) =>
    match (poke s.mem place 0).bind fun mem => strcat mem 0 (place + sub.length) with
    | none => .leave none
    | some mem => .next ⟨mem, place + 1⟩

def removeSubstr (string : Buffer) (sub : Text) : Option Buffer :=
  (runLoop (removePass sub) (string.length + 1) ⟨string, 0⟩).join

def placeholder : Text := ascii "$\x7bcbootargs\x7d"

/-- What `tegrabl_linuxboot_update_bootargs` puts together, from the property of the tree, unless that is empty, and the
arguments of the `APPEND` line. -/
def updateBootargs (bootargs : Option Text) (bootArgs : Buffer) : Option Text :=
  (strstr bootArgs 0 placeholder).bind fun found =>
    let dtbCmdline := if found.isSome then bootargs.getD [] else []
    (if found.isSome then removeSubstr bootArgs placeholder else some bootArgs).bind fun bootArgs =>
      (cstring bootArgs).map fun text => Cmdline.tegrablVsnprintf maxCommandLineSize (ascii "%s %s") [.str dtbCmdline, .str text]

/-- What the loop leaves of a string. It does not search for `skip` characters of an occurrence, and not where a character
is kept behind one. -/
def skim (sub : Text) : Nat → Bool → Text → Text
  | _, _, [] => []
  | skip + 1, keep, _ :: text => skim sub skip keep text
  | 0, true, c :: text => c :: skim sub 0 false text
  | 0, false, c :: text =>
    if sub.isPrefixOf (c :: text) then skim sub (sub.length - 1) true text else c :: skim sub 0 false text

section
variable {sub text a b w : Text} {front stale : Buffer}

theorem skim_skip (sub : Text) (skip : Nat) (keep : Bool) (text : Text) :
    skim sub skip keep text = skim sub 0 keep (text.drop skip) := by
  induction skip generalizing text with
  | zero => rfl
  | succ skip ih =>
    cases text with
    | nil => rfl
    | cons c text => exact ih text

theorem skim_cons {c : UInt8} (other : ¬ sub <+: c :: text) : skim sub 0 false (c :: text) = c :: skim sub 0 false text := by
  rw [skim, if_neg (mt List.isPrefixOf_iff_prefix.mp other)]

theorem skim_kept (w text : Text) (never : ∀ i < w.length, ¬ sub <+: (w ++ text).drop i) :
    skim sub 0 false (w ++ text) = w ++ skim sub 0 false text := by
  induction w with
  | nil => rfl
  | cons c w ih =>
    have other : ¬ sub <+: c :: (w ++ text) := never 0 (Nat.zero_lt_succ _)
    rw [List.cons_append, skim_cons other, ih fun i inside => never (i + 1) (Nat.succ_lt_succ inside), List.cons_append]

theorem skim_found (some : sub ≠ []) (found : cut sub text = .some (a, b)) :
    skim sub 0 false text = a ++ skim sub 0 true b := by
  obtain ⟨rfl, first⟩ := cut_some found
  rw [skim_kept a (sub ++ b) first]
  obtain ⟨c, sub', rfl⟩ := List.exists_cons_of_ne_nil some
  have starts : (c :: sub').isPrefixOf (c :: (sub' ++ b)) := List.isPrefixOf_iff_prefix.mpr (List.prefix_append (c :: sub') b)
  have skipped : skim (c :: sub') 0 false (c :: (sub' ++ b)) = skim (c :: sub') sub'.length true (sub' ++ b) := if_pos starts
  rw [List.cons_append, skipped, skim_skip, List.drop_left]

theorem skim_missing (some : sub ≠ []) (missing : cut sub text = none) : skim sub 0 false text = text := by
  have kept := skim_kept text [] (fun i _ => by rw [List.append_nil]; exact cut_none some missing i)
  rwa [List.append_nil, skim, List.append_nil] at kept

theorem removePass_missing (some : sub ≠ []) (clean : 0 ∉ sub) (front stale : Buffer) (unended : 0 ∉ text)
    (missing : cut sub text = none) :
    removePass sub ⟨front ++ (text ++ 0 :: stale), front.length⟩ = .leave (.some (front ++ (text ++ 0 :: stale))) := by
  unfold removePass
  rw [strstr_eq some clean front unended stale, missing]
  rfl

theorem removePass_found (some : sub ≠ []) (clean : 0 ∉ sub) (solid : 0 ∉ front) (stale : Buffer) (unended : 0 ∉ text)
    (found : cut sub text = .some (a, b)) : removePass sub ⟨front ++ (text ++ 0 :: stale), front.length⟩ =
      .next ⟨front ++ (a ++ (b ++ 0 :: (sub.tail ++ (b ++ 0 :: stale)).drop b.length)), front.length + a.length + 1⟩ := by
  have here := strstr_eq some clean front unended stale
  obtain ⟨rfl, -⟩ := cut_some found
  obtain ⟨c, sub', rfl⟩ := List.exists_cons_of_ne_nil some
  simp only [List.mem_append, not_or] at unended
  have before : 0 ∉ front ++ a := by simp [solid, unended.1]
  have place : front.length + a.length = (front ++ a).length := List.length_append.symm
  have split : front ++ (a ++ (c :: sub' ++ b) ++ 0 :: stale) = front ++ a ++ c :: (sub' ++ (b ++ 0 :: stale)) := by simp
  have ended := seek_zero [] before (sub' ++ (b ++ 0 :: stale))
  simp only [List.nil_append, List.length_nil, Nat.zero_add] at ended
  have enough : b.length < (front ++ a ++ 0 :: (sub' ++ (b ++ 0 :: stale))).length := by
    simp only [List.length_append, List.length_cons]
    omega
  have moved := copyString_eq (front ++ a) (0 :: sub') unended.2.2 stale enough
  have joined : front ++ a ++ (0 :: sub' ++ (b ++ 0 :: stale)) = front ++ a ++ 0 :: (sub' ++ (b ++ 0 :: stale)) := rfl
  rw [joined] at moved
  unfold removePass
  rw [here, found]
  simp only [Option.map_some, place, split, poke_append, Option.bind_some, strcat, ended]
  rw [show (c :: sub').length = (0 :: sub').length from rfl, moved]
  simp

theorem removePass_returns (some : sub ≠ []) (clean : 0 ∉ sub) (solid : 0 ∉ front) (unended : 0 ∉ text) (stale : Buffer)
    {turns : Nat} (enough : text.length + 1 < turns) :
    ∃ stale', runLoop (removePass sub) turns ⟨front ++ (text ++ 0 :: stale), front.length⟩ =
        .some (.some (front ++ (skim sub 0 false text ++ 0 :: stale'))) ∧
      (skim sub 0 false text).length + stale'.length = text.length + stale.length := by
  induction size : text.length using Nat.strongRecOn generalizing text front stale turns with
  | ind n ih =>
    obtain ⟨turns, rfl⟩ : ∃ k, turns = k + 1 := ⟨turns - 1, by omega⟩
    cases found : cut sub text with
    | none =>
      have turn := removePass_missing some clean front stale unended found
      rw [skim_missing some found]
      exact ⟨stale, runLoop_leave turn turns, by omega⟩
    | some place =>
      obtain ⟨a, b⟩ := place
      have turn := removePass_found some clean solid stale unended found
      have parts := cut_some_length some found
      have ends : text.length = a.length + (sub.length + b.length) := parts.2
      have tail : sub.tail.length + 1 = sub.length := by
        rw [List.length_tail]
        have := List.length_pos_iff.mpr some
        omega
      rw [runLoop_next turn, skim_found some found]
      rw [(cut_some found).1] at unended
      simp only [List.mem_append, not_or] at unended
      cases b with
      | nil =>
        have short : cut sub sub.tail = none := cut_short (by omega)
        have within : 0 ∉ sub.tail := fun member => clean (List.mem_of_mem_tail member)
        have last := removePass_missing some clean (front ++ (a ++ [0])) stale within short
        obtain ⟨turns, rfl⟩ : ∃ k, turns = k + 1 := ⟨turns - 1, by omega⟩
        refine ⟨sub.tail ++ 0 :: stale, ?_, ?_⟩
        · have left := runLoop_leave last turns
          simp only [List.length_append, List.length_singleton, List.append_assoc, List.singleton_append] at left
          simpa [skim, Nat.add_assoc] using left
        · simp only [skim, List.append_nil, List.length_append, List.length_cons]
          simp only [List.length_nil] at ends
          omega
      | cons c b =>
        have solid' : 0 ∉ front ++ (a ++ [c]) := by
          have first : c ≠ 0 := fun zero => unended.2.2 (zero ▸ List.mem_cons_self)
          simp [solid, unended.1, first.symm]
        have unended' : 0 ∉ b := fun member => unended.2.2 (List.mem_cons_of_mem c member)
        simp only [List.length_cons] at ends
        have left : b.length + 1 < turns := by omega
        obtain ⟨stale', returned, count⟩ := ih b.length (by omega) solid' unended'
          ((sub.tail ++ (c :: b ++ 0 :: stale)).drop (c :: b).length) left rfl
        refine ⟨stale', ?_, ?_⟩
        · simp only [List.length_append, List.length_singleton, List.append_assoc, List.singleton_append] at returned
          rw [← Nat.add_assoc] at returned
          exact returned.trans (by simp [skim])
        · simp only [skim, List.length_append, List.length_cons, List.length_drop] at count ⊢
          omega

theorem removeSubstr_eq (some : sub ≠ []) (clean : 0 ∉ sub) (unended : 0 ∉ text) :
    ∃ stale, removeSubstr (text ++ [0]) sub = .some (skim sub 0 false text ++ 0 :: stale) ∧
      (skim sub 0 false text ++ 0 :: stale).length = (text ++ [0]).length := by
  have solid : 0 ∉ ([] : Buffer) := List.not_mem_nil
  obtain ⟨stale, returned, count⟩ := removePass_returns some clean solid unended [] (Nat.lt_succ_self (text.length + 1))
  refine ⟨stale, ?_, ?_⟩
  · have turns : (text ++ [0]).length + 1 = text.length + 1 + 1 := by simp
    rw [removeSubstr, turns]
    exact congrArg Option.join returned
  · simp only [List.length_append, List.length_cons, List.length_nil] at count ⊢
    omega

theorem skim_unended (unended : 0 ∉ text) (skip : Nat) (keep : Bool) : 0 ∉ skim sub skip keep text := by
  intro member
  have within : ∀ (text : Text) skip keep, (skim sub skip keep text).Sublist text := by
    intro text
    induction text with
    | nil => intro skip keep; simp [skim]
    | cons c text ih =>
      intro skip keep
      rcases skip with - | skip
      · cases keep with
        | true => exact (ih 0 false).cons_cons c
        | false =>
          rw [skim]
          split
          · exact (ih _ true).cons c
          · exact (ih 0 false).cons_cons c
      · exact (ih skip keep).cons c
  exact unended ((within text skip keep).subset member)

theorem skim_of_apart (some : sub ≠ []) (apart : Apart sub text) : skim sub 0 false text = erase sub text := by
  induction apart with
  | missing missing => rw [skim_missing some missing, erase_of_none some missing]
  | @found text a b found other rest ih =>
    rw [skim_found some found, erase_of_some some found]
    cases b with
    | nil => rfl
    | cons c b =>
      rw [skim_cons other, erase_cons_later other] at ih
      rw [erase_cons_later other, ← ih]
      rfl

theorem erase_length_le_skim (some : sub ≠ []) (single : Unbordered sub) (text : Text) :
    (erase sub text).length ≤ (skim sub 0 false text).length ∧
      ((erase sub text).length = (skim sub 0 false text).length → Apart sub text) := by
  induction size : text.length using Nat.strongRecOn generalizing text with
  | ind n ih =>
    cases found : cut sub text with
    | none =>
      rw [skim_missing some found, erase_of_none some found]
      exact ⟨Nat.le_refl _, fun _ => .missing found⟩
    | some place =>
      obtain ⟨a, b⟩ := place
      have shorter := (cut_some_length some found).1
      rw [skim_found some found, erase_of_some some found]
      by_cases again : sub <+: b
      · obtain ⟨b', rfl⟩ := again
        obtain ⟨c, sub', rfl⟩ := List.exists_cons_of_ne_nil some
        have less : b'.length < n := by
          rw [List.length_append] at shorter
          omega
        have never : ∀ i < sub'.length, ¬ (c :: sub') <+: (sub' ++ b').drop i := by
          intro i inside
          rw [List.drop_append_of_le_length (Nat.le_of_lt inside)]
          exact single.not_within (k := i + 1) (Nat.succ_lt_succ inside) (Nat.succ_pos i) b'
        have kept := skim_kept sub' b' never
        have fewer := (ih b'.length less b' rfl).1
        rw [erase_append some, List.cons_append, skim, kept]
        simp only [List.length_append, List.length_cons]
        exact ⟨by omega, fun same => by omega⟩
      · obtain ⟨fewer, exact'⟩ := ih b.length (size ▸ shorter) b rfl
        have next : skim sub 0 true b = skim sub 0 false b := by
          cases b with
          | nil => rfl
          | cons c b => rw [skim_cons again, skim]
        rw [next]
        simp only [List.length_append]
        exact ⟨by omega, fun same => .found found again (exact' (by omega))⟩

theorem skim_eq_erase_iff (some : sub ≠ []) (single : Unbordered sub) (text : Text) :
    skim sub 0 false text = erase sub text ↔ Apart sub text :=
  ⟨fun same => (erase_length_le_skim some single text).2 (congrArg List.length same).symm, skim_of_apart some⟩

def Removes (sub text : Text) : Prop :=
  ∃ mem, removeSubstr (text ++ [0]) sub = some mem ∧ mem.length = (text ++ [0]).length ∧ cstring mem = some (erase sub text)

theorem removes_iff (some : sub ≠ []) (clean : 0 ∉ sub) (unended : 0 ∉ text) :
    Removes sub text ↔ skim sub 0 false text = erase sub text := by
  obtain ⟨stale, removed, size⟩ := removeSubstr_eq some clean unended
  have string := cstring_eq (skim_unended unended 0 false : 0 ∉ skim sub 0 false text) stale
  unfold Removes
  rw [removed]
  constructor
  · rintro ⟨mem, same, -, erased⟩
    cases same
    exact Option.some.inj (string.symm.trans erased)
  · intro same
    exact ⟨_, rfl, size, string.trans (congrArg Option.some same)⟩

theorem formatted_args (d t : Text) (fits : d.length + 1 + t.length < maxCommandLineSize) :
    Cmdline.tegrablVsnprintf maxCommandLineSize (ascii "%s %s") [.str d, .str t] = d ++ 32 :: t := by
  have pieces : formatted (ascii "%s %s") [.str d, .str t] = [d, [32], t] := rfl
  have size : maxCommandLineSize = 2048 := rfl
  rw [size] at fits
  rw [Cmdline.tegrablVsnprintf, pieces, size, if_neg (by decide)]
  obtain ⟨left, more⟩ : ∃ k, 2048 - 1 - d.length = k + 1 := ⟨2046 - d.length, by omega⟩
  have last : Cmdline.write left [t] = t := by
    cases left with
    | zero =>
      have none : t = [] := List.eq_nil_of_length_eq_zero (by omega)
      rw [none, Cmdline.write]
    | succ left => rw [Cmdline.write, if_neg (by omega), Cmdline.write, List.append_nil]
  have blank : Cmdline.write (left + 1) [[32], t] = 32 :: t := by
    rw [Cmdline.write, if_neg (by simp), List.length_singleton, Nat.add_sub_cancel, last]
    rfl
  rw [show 2048 - 1 = 2046 + 1 from rfl, Cmdline.write, if_neg (by omega), show 2046 + 1 - d.length = left + 1 from more, blank]

/-- What is put together of a property and a line, where the placeholder leaves nothing behind. -/
def assembled (bootargs : Option Text) (text : Text) : Text :=
  (if (cut placeholder text).isSome then bootargs.getD [] else []) ++ 32 :: erase placeholder text

theorem updateBootargs_iff (unended : 0 ∉ text) (bootargs : Option Text)
    (fits : (bootargs.getD []).length + 1 + text.length < maxCommandLineSize) :
    updateBootargs bootargs (text ++ [0]) = some (assembled bootargs text) ↔ Apart placeholder text := by
  have nonempty : placeholder ≠ [] := by decide
  have clean : 0 ∉ placeholder := by decide
  have searched : strstr (text ++ [0]) 0 placeholder = some ((cut placeholder text).map fun found => 0 + found.1.length) :=
    strstr_eq nonempty clean [] unended []
  unfold updateBootargs assembled
  rw [searched, Option.bind_some]
  cases found : cut placeholder text with
  | none =>
    refine iff_of_true ?_ (.missing found)
    have short : ([] : Text).length + 1 + text.length < maxCommandLineSize := by
      rw [List.length_nil]
      omega
    simp [cstring_eq unended [], formatted_args [] text short, erase_of_none nonempty found]
  | some place =>
    obtain ⟨stale, removed, size⟩ := removeSubstr_eq nonempty clean unended
    have string := cstring_eq (skim_unended unended 0 false : 0 ∉ skim placeholder 0 false text) stale
    have short : (bootargs.getD []).length + 1 + (skim placeholder 0 false text).length < maxCommandLineSize := by
      simp only [List.length_append, List.length_cons, List.length_nil] at size
      omega
    rw [← skim_eq_erase_iff nonempty (by decide) text]
    simp [removed, string, formatted_args _ _ short]

/-- The loop always ends within the string. It removes what it should where no place follows right behind another, and a
word that does not overlap itself only there, so that the boot arguments are what they should be only there too. -/
theorem removal_right {sub text : Text} (some : sub ≠ []) (clean : 0 ∉ sub) (unended : 0 ∉ text) :
    (∃ mem, removeSubstr (text ++ [0]) sub = .some mem ∧ mem.length = (text ++ [0]).length) ∧
      (Apart sub text → Removes sub text) ∧ (Unbordered sub → Removes sub text → Apart sub text) ∧
      ∀ bootargs, (bootargs.getD []).length + 1 + text.length < maxCommandLineSize →
        (updateBootargs bootargs (text ++ [0]) = .some (assembled bootargs text) ↔ Apart placeholder text) := by
  have ended := removeSubstr_eq some clean unended
  refine ⟨⟨_, ended.choose_spec⟩, fun apart => ?_, fun single removes => ?_, updateBootargs_iff unended⟩
  · exact (removes_iff some clean unended).mpr (skim_of_apart some apart)
  · exact (skim_eq_erase_iff some single text).mp ((removes_iff some clean unended).mp removes)

theorem removal_single : Removes placeholder (ascii "root=/dev/sda $\x7bcbootargs\x7d quiet") :=
  (removal_right (by decide) (by decide) (by decide)).2.1 (.found rfl (by decide) (.missing (by decide)))

/-- Of two placeholders one behind the other, the second one stays. -/
theorem removal_twice : ¬ Removes placeholder (placeholder ++ placeholder) := by
  rintro ⟨mem, removed, -, string⟩
  have known : (removeSubstr (placeholder ++ placeholder ++ [0]) placeholder).bind cstring = some placeholder := by decide
  rw [removed, Option.bind_some, string] at known
  exact absurd known (by decide)

end

end Cboot.DtbUpdate
