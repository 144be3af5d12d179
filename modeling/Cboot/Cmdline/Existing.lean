import Mathlib.Data.Bool.AllAny
import Cboot.Cmdline.Preserved

/-!
`does_command_exist` goes through the arguments one by one.
-/

namespace Cboot.Cmdline
open Lib.Words

def bare : Text → Text
  | 34 :: rest => rest.erase 34
  | t => t

def Names (name t : Text) : Prop := bare t = name ∨ name ++ [61] <+: bare t

instance (name t : Text) : Decidable (Names name t) := inferInstanceAs (Decidable (_ ∨ _))

structure IsName (name : Text) : Prop where
  some : name ≠ []
  plain : ∀ c ∈ name, c ≠ 34 ∧ c ≠ 61 ∧ iswhitespace c = false

def Hit (name t : Text) : Prop :=
  t = name ∨ name ++ [61] <+: t ∨ 34 :: name ++ [61] <+: t ∨ t = 34 :: name ++ [34] ∨ 34 :: name ++ [34, 61] <+: t

instance (name t : Text) : Decidable (Hit name t) := inferInstanceAs (Decidable (_ ∨ _ ∨ _ ∨ _ ∨ _))

def Split (name t : Text) : Prop := ∃ i < name.length,
  t = 34 :: name.take i ++ 34 :: name.drop i ∨ 34 :: name.take i ++ 34 :: name.drop i ++ [61] <+: t

instance (name t : Text) : Decidable (Split name t) := inferInstanceAs (Decidable (∃ i < _, _ ∨ _))

def tokens (text : Text) : List Text := words iswhitespace quoteMark text

def Detected (before : UInt8) (name cmdline : Text) : Prop :=
  ∃ s, initCmdList before false cmdline = some s ∧ (doesCommandExist s name = true ↔ ∃ t ∈ tokens cmdline, Names name t)

def Uncounted (name t : Text) : Prop := [34, 34] <+: t ∨ 34 :: name ++ [34, 34] <+: t

instance (name t : Text) : Decidable (Uncounted name t) := inferInstanceAs (Decidable (_ ∨ _))

def Counted (name : Text) : List Text → Prop
  | [] => True
  | t :: ts => Hit name t ∨ ¬ Uncounted name t ∧ Counted name ts

instance decidableCounted (name : Text) : (ts : List Text) → Decidable (Counted name ts)
  | [] => inferInstanceAs (Decidable True)
  | _ :: ts =>
    have := decidableCounted name ts
    inferInstanceAs (Decidable (_ ∨ _ ∧ _))

section
variable {name p t u : Text} {quote : Bool} {c : UInt8}

theorem quoteMark_of_ne (other : c ≠ 34) : quoteMark c = false := beq_false_of_ne other

abbrev Closing (quote : Bool) (u : Text) : Prop :=
  Unbroken iswhitespace quoteMark quote u ∧ openAfter quoteMark quote u = false

theorem closing_cons (whole : Closing quote (c :: u)) :
    (quote = true ∨ iswhitespace c = false) ∧ Closing (quote ^^ quoteMark c) u := ⟨whole.1.1, whole.1.2, whole.2⟩

theorem wait_word (whole : Closing quote u) :
    (u ++ [32]).foldlM (Search.step name) ⟨.wait, quote, p⟩ = some ⟨.skip, false, name⟩ := by
  induction u generalizing quote with
  | nil =>
    obtain rfl : quote = false := whole.2
    rfl
  | cons c u ih =>
    obtain ⟨inside, rest⟩ := closing_cons whole
    have step : Search.step name ⟨.wait, quote, p⟩ c = some ⟨.wait, quote ^^ quoteMark c, p⟩ := by
      by_cases mark : c = 34
      · simp [Search.step, mark, quoteMark]
      · rw [quoteMark_of_ne mark, Bool.xor_false]
        by_cases blank : c = 32
        · have isOpen : quote = true := inside.resolve_right (by rw [blank]; decide)
          simp [Search.step, blank, isOpen]
        · simp [Search.step, mark, blank]
    rw [List.cons_append, List.foldlM_cons, step]
    exact ih rest

theorem match_plain (plain : ∀ c ∈ p, c ≠ 34 ∧ c ≠ 61 ∧ iswhitespace c = false) (whole : Closing false u) :
    (u ++ [32]).foldlM (Search.step name) ⟨.matching, false, p⟩ =
      if u = p ∨ p ++ [61] <+: u then none else some ⟨.skip, false, name⟩ := by
  induction p generalizing u with
  | nil =>
    cases u with
    | nil => rfl
    | cons c u =>
      obtain ⟨inside, rest⟩ := closing_cons whole
      have solid : c ≠ 32 := by
        rintro rfl
        exact absurd (inside.resolve_left Bool.false_ne_true) (by decide)
      rw [List.cons_append, List.foldlM_cons]
      by_cases value : c = 61
      · subst value
        simp [Search.step]
      · have step : Search.step name ⟨.matching, false, []⟩ c = some ⟨.wait, false ^^ quoteMark c, []⟩ := by
          by_cases mark : c = 34 <;> simp [Search.step, mark, solid, value, quoteMark]
        rw [step, if_neg (by simpa using fun same : (61 : UInt8) = c => value same.symm)]
        exact wait_word rest
  | cons d p ih =>
    have first := plain d List.mem_cons_self
    have blank : d ≠ 32 := by
      rintro rfl
      exact absurd first.2.2 (by decide)
    cases u with
    | nil =>
      have step : Search.step name ⟨.matching, false, d :: p⟩ 32 = some ⟨.skip, false, name⟩ := by
        simp [Search.step, blank]
      rw [List.nil_append, List.foldlM_cons, step]
      simp
    | cons c u =>
      obtain ⟨inside, rest⟩ := closing_cons whole
      rw [List.cons_append, List.foldlM_cons]
      by_cases same : d = c
      · subst same
        have unmarked : quoteMark d = false := by simp [quoteMark, first.1]
        have step : Search.step name ⟨.matching, false, d :: p⟩ d = some ⟨.matching, false, p⟩ := by
          simp [Search.step, first.1]
        rw [unmarked] at rest
        rw [step]
        have next := ih (fun e later => plain e (List.mem_cons_of_mem d later)) rest
        simpa using next
      · have solid : c ≠ 32 := by
          rintro rfl
          exact absurd (inside.resolve_left Bool.false_ne_true) (by decide)
        have step : Search.step name ⟨.matching, false, d :: p⟩ c = some ⟨.wait, false ^^ quoteMark c, d :: p⟩ := by
          by_cases mark : c = 34
          · have other : d ≠ 34 := first.1
            simp [Search.step, mark, quoteMark, other]
          · simp [Search.step, mark, same, solid, quoteMark]
        rw [step, if_neg (by simp [Ne.symm same, same])]
        exact wait_word rest

theorem match_quoted (plain : ∀ c ∈ p, c ≠ 34 ∧ c ≠ 61 ∧ iswhitespace c = false) (whole : Closing true u)
    (counted : ¬ p ++ [34, 34] <+: u) : (u ++ [32]).foldlM (Search.step name) ⟨.matching, true, p⟩ =
      if p ++ [61] <+: u ∨ u = p ++ [34] ∨ p ++ [34, 61] <+: u then none else some ⟨.skip, false, name⟩ := by
  induction p generalizing u with
  | nil =>
    cases u with
    | nil => exact absurd whole.2 (by decide)
    | cons c u =>
      obtain ⟨-, rest⟩ := closing_cons whole
      rw [List.cons_append, List.foldlM_cons]
      by_cases value : c = 61
      · subst value
        simp [Search.step]
      · by_cases mark : c = 34
        · subst mark
          have step : Search.step name ⟨.matching, true, []⟩ 34 = some ⟨.quoted, false, []⟩ := by simp [Search.step]
          rw [step]
          cases u with
          | nil => simp [Search.step]
          | cons d u =>
            obtain ⟨inside, later⟩ := closing_cons rest
            have solid : d ≠ 32 := by
              rintro rfl
              exact absurd (inside.resolve_left (by decide)) (by decide)
            have other : d ≠ 34 := by
              rintro rfl
              exact counted ⟨u, rfl⟩
            change ((d :: u) ++ [32]).foldlM (Search.step name) ⟨.quoted, false, []⟩ = _
            rw [List.cons_append, List.foldlM_cons]
            by_cases found : d = 61
            · subst found
              simp [Search.step]
            · have next : Search.step name ⟨.quoted, false, []⟩ d = some ⟨.wait, false, []⟩ := by
                simp [Search.step, found, solid]
              have unmarked : quoteMark 34 = true := rfl
              rw [quoteMark_of_ne other, unmarked] at later
              rw [next, if_neg (by simp [Ne.symm found])]
              exact wait_word later
        · have step : Search.step name ⟨.matching, true, []⟩ c = some ⟨.wait, true, []⟩ := by
            simp [Search.step, value, mark]
          rw [quoteMark_of_ne mark] at rest
          rw [step, if_neg (by simp [Ne.symm value, Ne.symm mark, mark])]
          exact wait_word rest
  | cons d p ih =>
    have first := plain d List.mem_cons_self
    cases u with
    | nil => exact absurd whole.2 (by decide)
    | cons c u =>
      obtain ⟨-, rest⟩ := closing_cons whole
      rw [List.cons_append, List.foldlM_cons]
      by_cases same : d = c
      · subst same
        have step : Search.step name ⟨.matching, true, d :: p⟩ d = some ⟨.matching, true, p⟩ := by
          simp [Search.step, first.1]
        rw [quoteMark_of_ne first.1] at rest
        rw [step]
        have next := ih (fun e later => plain e (List.mem_cons_of_mem d later)) rest
          (fun uncounted => counted (List.cons_prefix_cons.mpr ⟨rfl, uncounted⟩))
        simpa using next
      · have step : Search.step name ⟨.matching, true, d :: p⟩ c = some ⟨.wait, true ^^ quoteMark c, d :: p⟩ := by
          by_cases mark : c = 34
          · simp [Search.step, mark, quoteMark, first.1]
          · by_cases blank : c = 32
            · have other : d ≠ 32 := fun same' => same (same'.trans blank.symm)
              simp [Search.step, blank, other, quoteMark]
            · simp [Search.step, mark, same, blank, quoteMark]
        rw [step, if_neg (by simp [Ne.symm same, same])]
        exact wait_word rest

theorem match_word (isName : IsName name) (isArg : IsArg t) (counted : ¬ Uncounted name t) :
    (t ++ [32]).foldlM (Search.step name) ⟨.skip, false, name⟩ =
      if Hit name t then none else some ⟨.skip, false, name⟩ := by
  obtain ⟨first, later, rfl⟩ := List.exists_cons_of_ne_nil isName.some
  have head := isName.plain first List.mem_cons_self
  have rest := fun c member => isName.plain c (List.mem_cons_of_mem first member)
  obtain ⟨c, u, rfl⟩ := List.exists_cons_of_ne_nil isArg.some
  obtain ⟨-, whole⟩ := closing_cons ⟨isArg.unbroken, isArg.closed⟩
  rw [List.cons_append, List.foldlM_cons]
  by_cases mark : c = 34
  · subst mark
    have step : Search.step (first :: later) ⟨.skip, false, first :: later⟩ 34 = some ⟨.opened, true, first :: later⟩ := by
      simp [Search.step]
    have isOpen : Closing true u := whole
    rw [step]
    change (u ++ [32]).foldlM (Search.step (first :: later)) ⟨.opened, true, first :: later⟩ = _
    cases u with
    | nil => exact absurd isOpen.2 (by decide)
    | cons d u =>
      obtain ⟨-, inner⟩ := closing_cons isOpen
      have other : d ≠ 34 := by
        rintro rfl
        exact counted (.inl ⟨u, rfl⟩)
      rw [quoteMark_of_ne other] at inner
      rw [List.cons_append, List.foldlM_cons]
      by_cases same : first = d
      · subst same
        have step : Search.step (first :: later) ⟨.opened, true, first :: later⟩ first =
            some ⟨.matching, true, later⟩ := by simp [Search.step]
        rw [step]
        have found := @match_quoted (first :: later) later u rest inner
          (fun uncounted => counted (.inr (by simpa using uncounted)))
        simpa [Hit, head.1, Ne.symm head.1] using found
      · have step : Search.step (first :: later) ⟨.opened, true, first :: later⟩ d =
            some ⟨.wait, true, first :: later⟩ := by simp [Search.step, same]
        rw [step, if_neg (by simp [Hit, head.1, Ne.symm head.1, same, Ne.symm same])]
        exact wait_word inner
  · rw [quoteMark_of_ne mark] at whole
    by_cases same : first = c
    · subst same
      have step : Search.step (first :: later) ⟨.skip, false, first :: later⟩ first =
          some ⟨.matching, false, later⟩ := by simp [Search.step, mark]
      rw [step]
      have found := @match_plain (first :: later) later u rest whole
      simpa [Hit, mark, Ne.symm mark] using found
    · have step : Search.step (first :: later) ⟨.skip, false, first :: later⟩ c =
          some ⟨.wait, false, first :: later⟩ := by simp [Search.step, mark, same]
      rw [step, if_neg (by simp [Hit, mark, Ne.symm mark, same, Ne.symm same])]
      exact wait_word whole

theorem not_uncounted (isName : IsName name) (hit : Hit name t) : ¬ Uncounted name t := by
  obtain ⟨first, later, rfl⟩ := List.exists_cons_of_ne_nil isName.some
  have head := (isName.plain first List.mem_cons_self).1
  rintro (⟨r, rfl⟩ | ⟨r, rfl⟩)
  · simp [Hit, head, Ne.symm head] at hit
  · have longer : first :: (later ++ 34 :: 34 :: r) ≠ later := fun same => by
      have length := congrArg List.length same
      simp at length
      omega
    simp [Hit, head, longer] at hit

theorem match_words {ts : List Text} (isName : IsName name) (each : ∀ t ∈ ts, IsArg t) (counted : Counted name ts) :
    (ts.flatMap (· ++ [32])).foldlM (Search.step name) ⟨.skip, false, name⟩ =
      if ∃ t ∈ ts, Hit name t then none else some ⟨.skip, false, name⟩ := by
  induction ts with
  | nil => simp
  | cons t ts ih =>
    have quotes : ¬ Uncounted name t := counted.elim (not_uncounted isName) And.left
    rw [List.flatMap_cons, List.foldlM_append, match_word isName (each t List.mem_cons_self) quotes]
    by_cases hit : Hit name t
    · simp [hit]
    · have rest := ih (fun u later => each u (List.mem_cons_of_mem t later)) (counted.resolve_left hit).2
      rw [if_neg hit]
      change (ts.flatMap (· ++ [32])).foldlM (Search.step name) ⟨.skip, false, name⟩ = _
      simp [rest, hit]

theorem bare_other (other : t.head? ≠ some 34) : bare t = t := by
  unfold bare
  split
  · exact absurd rfl other
  · rfl

theorem bare_closed (first : 34 ∉ t) : bare (34 :: (t ++ 34 :: u)) = t ++ u := by
  rw [bare, List.erase_append_right _ first, List.erase_cons_head]

theorem openAfter_unmarked (quote : Bool) (none : 34 ∉ t) : openAfter quoteMark quote t = quote := by
  induction t with
  | nil => rfl
  | cons c t ih =>
    obtain ⟨other, rest⟩ := not_or.mp (mt List.mem_cons.mpr none)
    rw [openAfter, List.foldl_cons, quoteMark_of_ne (Ne.symm other), Bool.xor_false]
    exact ih rest

theorem mem_of_openAfter (changed : openAfter quoteMark quote t ≠ quote) : 34 ∈ t := by
  by_contra none
  exact changed (openAfter_unmarked quote none)

theorem unmarked_prefix_iff {v : Text} (other : 34 ∉ v) : v <+: t ++ 34 :: u ↔ v <+: t := by
  constructor
  · intro start
    have within : t <+: t ++ 34 :: u := List.prefix_append t _
    rcases List.prefix_or_prefix_of_prefix start within with shorter | ⟨r, rfl⟩
    · exact shorter
    · cases r with
      | nil => simp
      | cons c r =>
        obtain ⟨rfl, -⟩ := List.cons_prefix_cons.mp ((List.prefix_append_right_inj t).mp start)
        exact absurd (List.mem_append_right t List.mem_cons_self) other
  · exact fun start => start.trans (List.prefix_append t _)

theorem closed_prefix_iff {v w : Text} (first : 34 ∉ t) (other : 34 ∉ v) :
    v ++ 34 :: w <+: t ++ 34 :: u ↔ t = v ∧ w <+: u := by
  constructor
  · intro start
    have inner : v <+: t := (unmarked_prefix_iff other).mp ((List.prefix_append v _).trans start)
    obtain ⟨r, rfl⟩ := inner
    rw [List.append_assoc, List.prefix_append_right_inj] at start
    cases r with
    | nil => exact ⟨List.append_nil v, (List.cons_prefix_cons.mp start).2⟩
    | cons c r =>
      obtain ⟨rfl, -⟩ := List.cons_prefix_cons.mp start
      exact absurd (List.mem_append_right v List.mem_cons_self) first
  · rintro ⟨rfl, r, rfl⟩
    exact ⟨r, by simp⟩

theorem closed_eq_iff {v w : Text} (first : 34 ∉ t) (other : 34 ∉ v) : t ++ 34 :: u = v ++ 34 :: w ↔ t = v ∧ u = w := by
  constructor
  · intro same
    have start : v ++ 34 :: w <+: t ++ 34 :: u := same ▸ List.prefix_refl _
    obtain ⟨rfl, -⟩ := (closed_prefix_iff first other).mp start
    simpa using same
  · rintro ⟨rfl, rfl⟩
    rfl

theorem names_quoted (isName : IsName name) (first : 34 ∉ t) : Names name (34 :: (t ++ 34 :: u)) ↔
    Hit name (34 :: (t ++ 34 :: u)) ∨ Split name (34 :: (t ++ 34 :: u)) := by
  have unmarked : (34 : UInt8) ∉ name := fun member => (isName.plain 34 member).1 rfl
  have valued : (34 : UInt8) ∉ name ++ [61] := by simp [unmarked]
  have taken (i : Nat) : (34 : UInt8) ∉ name.take i := fun member => unmarked (List.mem_of_mem_take member)
  have hit : Hit name (34 :: (t ++ 34 :: u)) ↔ name ++ [61] <+: t ∨ t = name ∧ (u = [] ∨ [61] <+: u) := by
    have solid : name.head? ≠ some 34 := fun head => unmarked (List.mem_of_mem_head? head)
    have other : 34 :: (t ++ 34 :: u) ≠ name := fun same => solid (same ▸ rfl)
    have prior : ¬ name ++ [61] <+: 34 :: (t ++ 34 :: u) := by
      obtain ⟨c, later, rfl⟩ := List.exists_cons_of_ne_nil isName.some
      intro start
      obtain ⟨rfl, -⟩ := List.cons_prefix_cons.mp start
      exact solid rfl
    unfold Hit
    rw [or_iff_right other, or_iff_right prior, List.cons_append, List.cons_prefix_cons, unmarked_prefix_iff valued,
      List.cons_append, List.cons.injEq, closed_eq_iff first unmarked, List.cons_append, List.cons_prefix_cons,
      closed_prefix_iff first unmarked]
    simp only [true_and, and_or_left]
  have split : Split name (34 :: (t ++ 34 :: u)) ↔
      ∃ i < name.length, t = name.take i ∧ (u = name.drop i ∨ name.drop i ++ [61] <+: u) := by
    unfold Split
    refine exists_congr fun i => and_congr_right fun _ => ?_
    rw [List.cons_append, List.cons.injEq, closed_eq_iff first (taken i), List.cons_append, List.append_assoc,
      List.cons_append, List.cons_prefix_cons, closed_prefix_iff first (taken i)]
    simp only [true_and, and_or_left]
  unfold Names
  rw [bare_closed first, hit, split]
  constructor
  · rintro (rfl | ⟨r, value⟩)
    · by_cases none : u = []
      · exact .inl (.inr ⟨by simp [none], .inl none⟩)
      · have shorter : t.length < (t ++ u).length := by
          rw [List.length_append]
          have := List.length_pos_of_ne_nil none
          omega
        exact .inr ⟨t.length, shorter, List.take_left.symm, .inl List.drop_left.symm⟩
    · have whole : name ++ [61] <+: t ++ u := ⟨r, value⟩
      rcases List.prefix_or_prefix_of_prefix whole (List.prefix_append t u) with inside | start
      · exact .inl (.inl inside)
      · rcases List.prefix_concat_iff.mp start with rfl | ⟨v, rfl⟩
        · exact .inl (.inl (List.prefix_refl _))
        · rw [List.append_assoc, List.append_assoc, List.append_cancel_left_eq] at value
          have tail : v ++ [61] <+: u := ⟨r, by rw [← value, List.append_assoc]⟩
          by_cases none : v = []
          · subst none
            exact .inl (.inr ⟨by simp, .inr tail⟩)
          · have shorter : t.length < (t ++ v).length := by
              rw [List.length_append]
              have := List.length_pos_of_ne_nil none
              omega
            refine .inr ⟨t.length, shorter, List.take_left.symm, .inr ?_⟩
            rwa [List.drop_left]
  · rintro ((inside | ⟨rfl, rfl | ⟨r, rfl⟩⟩) | ⟨i, -, rfl, rfl | ⟨r, rfl⟩⟩)
    · exact .inr (inside.trans (List.prefix_append t u))
    · exact .inl (List.append_nil t)
    · exact .inr ⟨r, List.append_assoc ..⟩
    · exact .inl (List.take_append_drop i name)
    · exact .inr ⟨r, by rw [← List.append_assoc, ← List.append_assoc, List.take_append_drop]⟩

theorem names_iff (isName : IsName name) (isArg : IsArg t) : Names name t ↔ Hit name t ∨ Split name t := by
  by_cases quoted : t.head? = some 34
  · obtain ⟨u, rfl⟩ : ∃ u, t = 34 :: u := by
      cases t with
      | nil => cases quoted
      | cons c u =>
        obtain rfl : c = 34 := by simpa using quoted
        exact ⟨u, rfl⟩
    have closes : openAfter quoteMark true u = false := isArg.closed
    have member : (34 : UInt8) ∈ u := mem_of_openAfter (by rw [closes]; exact Bool.false_ne_true)
    obtain ⟨a, b, rfl, first⟩ := List.eq_append_cons_of_mem member
    exact names_quoted isName first
  · have others (v : Text) : 34 :: v ≠ t ∧ ¬ 34 :: v <+: t := by
      refine ⟨fun same => quoted (same ▸ rfl), ?_⟩
      rintro ⟨r, rfl⟩
      exact quoted rfl
    unfold Names Hit Split
    rw [bare_other quoted]
    simp [others, fun v => Ne.symm (others v).1]

theorem names_closed (isName : IsName name) (isOpen : openAfter quoteMark false t = true) :
    Names name (t ++ [34]) ↔ Names name t := by
  have unmarked : (34 : UInt8) ∉ name := fun member => (isName.plain 34 member).1 rfl
  have valued : (34 : UInt8) ∉ name ++ [61] := by simp [unmarked]
  have inner (v : Text) (marked : 34 ∈ v) : (v ++ [34] = name ∨ name ++ [61] <+: v ++ [34]) ↔
      (v = name ∨ name ++ [61] <+: v) := by
    have closed : v ++ [34] ≠ name := fun same => unmarked (same ▸ List.mem_append_right v List.mem_cons_self)
    have whole : v ≠ name := fun same => unmarked (same ▸ marked)
    rw [or_iff_right closed, or_iff_right whole]
    exact unmarked_prefix_iff valued
  unfold Names
  by_cases quoted : t.head? = some 34
  · obtain ⟨u, rfl⟩ : ∃ u, t = 34 :: u := by
      cases t with
      | nil => cases quoted
      | cons c u =>
        obtain rfl : c = 34 := by simpa using quoted
        exact ⟨u, rfl⟩
    have rest : openAfter quoteMark true u = true := isOpen
    by_cases member : (34 : UInt8) ∈ u
    · obtain ⟨a, b, rfl, first⟩ := List.eq_append_cons_of_mem member
      rw [openAfter_append, openAfter_unmarked true first] at rest
      have later : (34 : UInt8) ∈ b := @mem_of_openAfter b false (by
        change openAfter quoteMark false b = true at rest
        rw [rest]
        exact Bool.false_ne_true.symm)
      rw [List.cons_append, List.append_assoc, List.cons_append, bare_closed first, bare_closed first, ← List.append_assoc]
      exact inner (a ++ b) (List.mem_append_right a later)
    · have same : bare (34 :: u) = u := List.erase_of_not_mem member
      rw [List.cons_append, bare_closed member, List.append_nil, same]
  · have marked : (34 : UInt8) ∈ t := mem_of_openAfter (by rw [isOpen]; exact Bool.false_ne_true.symm)
    have other : (t ++ [34]).head? ≠ some 34 := by
      obtain ⟨c, u, rfl⟩ := List.exists_cons_of_ne_nil (List.ne_nil_of_mem marked)
      exact quoted
    rw [bare_other quoted, bare_other other]
    exact inner t marked

theorem tokens_eq (text : Text) : tokens text =
    if (cutLine text).cur = [] then (cutLine text).finished else (cutLine text).finished ++ [(cutLine text).cur] := rfl

theorem exists_names (isName : IsName name) (text : Text) :
    (∃ t ∈ tokens text, Names name t) ↔ ∃ t ∈ args text, Names name t := by
  rw [tokens_eq, args_eq]
  split
  · rfl
  · have last : Names name ((cutLine text).last 34) ↔ Names name (cutLine text).cur := by
      have kept : openAfter quoteMark false (cutLine text).cur = (cutLine text).quote :=
        (isWord_cut iswhitespace quoteMark text).2.2
      unfold Cut.last
      split
      · exact names_closed isName (kept.trans ‹_›)
      · rfl
    simp only [List.mem_append, List.mem_singleton, or_and_right, exists_or, exists_eq_left, last]

end

/-- Where all quotes are counted, a parameter is detected exactly when it is found, or there is none whose leading quote
is closed within the name. -/
theorem detected_iff {name : Text} (before : UInt8) (text : Text) (short : text.length < 2000)
    (plain : ∀ t ∈ args text, ¬ IsIgnore t) (isName : IsName name) (counted : Counted name (args text)) :
    Detected before name text ↔ (∃ t ∈ args text, Hit name t) ∨ ∀ t ∈ args text, ¬ Split name t := by
  have each : ∀ t ∈ args text, IsArg t := fun t member => isArg_of_mem member
  have stays : ¬ Vanishes false text := by
    rintro ⟨-, -, some, special⟩
    refine plain _ ?_ special
    rw [args_eq, if_neg some]
    exact List.mem_append_right _ List.mem_cons_self
  have found : doesCommandExist (normalise before false text) name = true ↔ ∃ t ∈ args text, Hit name t := by
    unfold doesCommandExist
    rw [normalise_ignore before plain, if_neg Bool.false_ne_true, if_neg isName.some, normalise_cmdline, if_neg stays,
      kept_plain plain, match_words isName each counted]
    split
    · rename_i hit
      simp [hit]
    · rename_i missed
      simp [missed]
  have named : (∃ t ∈ tokens text, Names name t) ↔ (∃ t ∈ args text, Hit name t) ∨ ∃ t ∈ args text, Split name t := by
    rw [exists_names isName text, ← exists_or]
    refine exists_congr fun t => ?_
    rw [← and_or_left]
    exact and_congr_right fun member => names_iff isName (each t member)
  unfold Detected
  rw [initCmdList_short before false short]
  simp only [Option.some.injEq, exists_eq_left', found, named]
  constructor
  · intro exact
    by_cases hit : ∃ t ∈ args text, Hit name t
    · exact .inl hit
    · exact .inr fun t member split => hit (exact.mpr (.inr ⟨t, member, split⟩))
  · rintro (hit | whole)
    · exact iff_of_true hit (.inl hit)
    · exact ⟨.inl, fun either => either.resolve_right fun split => whole _ split.choose_spec.1 split.choose_spec.2⟩

theorem detected_quoted : Detected 0 (ascii "video") (ascii "\"root=/dev/sda 1\" video=x") :=
  (detected_iff 0 _ (by decide) (by decide) ⟨by decide, List.all_iff_forall_prop.mp (by decide)⟩ (by decide)).mpr
    (by decide)

/-- Behind a pair of quotes the parameter that follows is taken for a part of what is in quotes. -/
theorem detected_behind_quotes : ¬ Detected 0 (ascii "video") (ascii "\"\" video") := by
  rintro ⟨s, init, same⟩
  rw [initCmdList_short 0 false (by decide)] at init
  cases init
  revert same
  decide

end Cboot.Cmdline
