import Mathlib.Data.List.Basic

/-!
A text is cut into words at blanks. Between two marks a blank is part of the word. Words that are closed, each with a
blank behind it, are cut into themselves.
-/

namespace Cboot.Lib.Words

section
variable {α : Type} (blank mark : α → Bool)

/-- Whether a mark is open behind the text. -/
def openAfter (quote : Bool) (text : List α) : Bool := text.foldl (fun quote c => quote ^^ mark c) quote

/-- The words that are finished, whether a mark is open, and what there is of the next word. -/
structure Cut (α : Type) where
  finished : List (List α)
  quote : Bool
  cur : List α
  deriving DecidableEq, Repr

def cutFrom (quote : Bool) (cur : List α) : List α → Cut α
  | [] => ⟨[], quote, cur⟩
  | c :: text =>
    if !quote && blank c then
      let rest := cutFrom false [] text
      if cur = [] then rest else { rest with finished := cur :: rest.finished }
    else cutFrom (quote ^^ mark c) (cur ++ [c]) text

def cut (text : List α) : Cut α := cutFrom blank mark false [] text

def words (text : List α) : List (List α) :=
  let k := cut blank mark text
  if k.cur = [] then k.finished else k.finished ++ [k.cur]

def complete (close : α) (text : List α) : List α := if openAfter mark false text then text ++ [close] else text

/-- No blank is without marks around it. -/
def Unbroken (quote : Bool) : List α → Prop
  | [] => True
  | c :: text => (quote = true ∨ blank c = false) ∧ Unbroken (quote ^^ mark c) text

structure IsWord (t : List α) : Prop where
  some : t ≠ []
  unbroken : Unbroken blank mark false t
  closed : openAfter mark false t = false

variable {blank mark} {quote : Bool} {cur text rest t u : List α} {c close sep : α}

theorem openAfter_append (quote : Bool) (text rest : List α) :
    openAfter mark quote (text ++ rest) = openAfter mark (openAfter mark quote text) rest := List.foldl_append

theorem openAfter_single (quote : Bool) (c : α) : openAfter mark quote [c] = (quote ^^ mark c) := rfl

theorem unbroken_append : Unbroken blank mark quote (text ++ rest) ↔
    Unbroken blank mark quote text ∧ Unbroken blank mark (openAfter mark quote text) rest := by
  induction text generalizing quote with
  | nil => simp [Unbroken, openAfter]
  | cons c text ih =>
    rw [List.cons_append, Unbroken, Unbroken, ih, and_assoc]
    rfl

theorem cutFrom_of_unbroken (whole : Unbroken blank mark quote text) (cur rest : List α) :
    cutFrom blank mark quote cur (text ++ rest) =
      cutFrom blank mark (openAfter mark quote text) (cur ++ text) rest := by
  induction text generalizing quote cur with
  | nil => simp [openAfter]
  | cons c text ih =>
    obtain ⟨inside, whole⟩ := whole
    have kept : (!quote && blank c) = false := by
      rcases inside with inside | other
      · rw [inside]
        rfl
      · rw [other, Bool.and_false]
    rw [List.cons_append, cutFrom, kept, if_neg Bool.false_ne_true, ih whole, List.append_assoc]
    rfl

theorem isWord_finished (isOpen : openAfter mark false cur = quote) (whole : Unbroken blank mark false cur) (text : List α) :
    (∀ t ∈ (cutFrom blank mark quote cur text).finished, IsWord blank mark t) ∧
      Unbroken blank mark false (cutFrom blank mark quote cur text).cur ∧
      openAfter mark false (cutFrom blank mark quote cur text).cur = (cutFrom blank mark quote cur text).quote := by
  induction text generalizing quote cur with
  | nil => exact ⟨nofun, whole, isOpen⟩
  | cons c text ih =>
    rw [cutFrom]
    by_cases cuts : (!quote && blank c) = true
    · rw [if_pos cuts]
      simp only [Bool.and_eq_true, Bool.not_eq_true'] at cuts
      have next := @ih false [] rfl trivial
      dsimp only
      split
      · exact next
      · rename_i some
        refine ⟨?_, next.2⟩
        intro t member
        rcases List.mem_cons.mp member with rfl | later
        · exact ⟨some, whole, isOpen.trans cuts.1⟩
        · exact next.1 t later
    · rw [if_neg cuts]
      have inside : quote = true ∨ blank c = false := by
        cases quote with
        | true => exact .inl rfl
        | false => exact .inr (by simpa using cuts)
      refine ih ?_ ?_
      · rw [openAfter_append, isOpen, openAfter_single]
      · rw [unbroken_append, isOpen]
        exact ⟨whole, inside, trivial⟩

variable (blank mark) in
theorem isWord_cut (text : List α) : (∀ t ∈ (cut blank mark text).finished, IsWord blank mark t) ∧
    Unbroken blank mark false (cut blank mark text).cur ∧
    openAfter mark false (cut blank mark text).cur = (cut blank mark text).quote := by
  have whole : Unbroken blank mark false ([] : List α) := trivial
  exact isWord_finished rfl whole text

theorem isWord_single (marked : mark c = true) (whole : Unbroken blank mark false cur)
    (isOpen : openAfter mark false cur = true) : IsWord blank mark (cur ++ [c]) where
  some := List.append_ne_nil_of_right_ne_nil _ (List.cons_ne_nil c [])
  unbroken := unbroken_append.mpr ⟨whole, .inl isOpen, trivial⟩
  closed := by rw [openAfter_append, isOpen, openAfter_single, marked]; rfl

theorem words_append (isWord : IsWord blank mark t) (separates : blank sep = true) (rest : List α) :
    words blank mark (t ++ sep :: rest) = t :: words blank mark rest := by
  have start : cut blank mark (t ++ sep :: rest) =
      { cut blank mark rest with finished := t :: (cut blank mark rest).finished } := by
    unfold cut
    rw [cutFrom_of_unbroken isWord.unbroken, isWord.closed, List.nil_append, cutFrom, separates]
    exact if_neg isWord.some
  unfold words
  rw [start]
  dsimp only
  split
  · rfl
  · rfl

theorem isWord_flatten {ts : List (List α)} (some : ts ≠ []) (each : ∀ t ∈ ts, IsWord blank mark t) :
    IsWord blank mark ts.flatten := by
  induction ts with
  | nil => exact absurd rfl some
  | cons t ts ih =>
    have first := each t List.mem_cons_self
    rw [List.flatten_cons]
    by_cases none : ts = []
    · rw [none, List.flatten_nil, List.append_nil]
      exact first
    · have rest := ih none fun u later => each u (List.mem_cons_of_mem t later)
      refine ⟨List.append_ne_nil_of_left_ne_nil first.some _, ?_, ?_⟩
      · rw [unbroken_append, first.closed]
        exact ⟨first.unbroken, rest.unbroken⟩
      · rw [openAfter_append, first.closed, rest.closed]

variable (apart : ∀ c, mark c = true → blank c = false)
include apart

theorem unmarked_of_blank (cuts : blank c = true) : mark c = false := by
  by_contra marked
  rw [apart c (Bool.not_eq_false _ ▸ marked)] at cuts
  exact Bool.false_ne_true cuts

theorem openAfter_blank (cuts : (!quote && blank c) = true)
    (text : List α) : openAfter mark quote (c :: text) = openAfter mark false text := by
  simp only [Bool.and_eq_true, Bool.not_eq_true'] at cuts
  rw [openAfter, List.foldl_cons, cuts.1, unmarked_of_blank apart cuts.2]
  rfl

theorem quote_cutFrom (quote : Bool) (cur text : List α) :
    (cutFrom blank mark quote cur text).quote = openAfter mark quote text := by
  induction text generalizing quote cur with
  | nil => rfl
  | cons c text ih =>
    rw [cutFrom]
    by_cases cuts : (!quote && blank c) = true
    · rw [if_pos cuts, openAfter_blank apart cuts]
      dsimp only
      split
      · exact ih false []
      · exact ih false []
    · rw [if_neg cuts, ih]
      rfl

def Cut.last (close : α) (k : Cut α) : List α := if k.quote then k.cur ++ [close] else k.cur

theorem cutFrom_close (marked : mark close = true)
    (isOpen : openAfter mark quote text = true) : cutFrom blank mark quote cur (text ++ [close]) =
      ⟨(cutFrom blank mark quote cur text).finished, false, (cutFrom blank mark quote cur text).cur ++ [close]⟩ := by
  induction text generalizing quote cur with
  | nil =>
    obtain rfl : quote = true := isOpen
    simp [cutFrom, marked]
  | cons c text ih =>
    rw [List.cons_append, cutFrom, cutFrom]
    by_cases cuts : (!quote && blank c) = true
    · rw [openAfter_blank apart cuts] at isOpen
      rw [if_pos cuts, if_pos cuts]
      dsimp only
      rw [ih isOpen]
      split
      · rfl
      · rfl
    · rw [if_neg cuts, if_neg cuts]
      exact ih isOpen

theorem words_complete (marked : mark close = true) (text : List α) :
    words blank mark (complete mark close text) =
      if (cut blank mark text).cur = [] then (cut blank mark text).finished
      else (cut blank mark text).finished ++ [(cut blank mark text).last close] := by
  have quote : (cut blank mark text).quote = openAfter mark false text := quote_cutFrom apart false [] text
  unfold complete words Cut.last
  by_cases isOpen : openAfter mark false text = true
  · have some : (cut blank mark text).cur ≠ [] := by
      intro none
      have kept : openAfter mark false (cut blank mark text).cur = (cut blank mark text).quote :=
        (isWord_cut blank mark text).2.2
      rw [none, quote, isOpen] at kept
      cases kept
    have closed : cut blank mark (text ++ [close]) =
        ⟨(cut blank mark text).finished, false, (cut blank mark text).cur ++ [close]⟩ :=
      cutFrom_close apart marked isOpen
    rw [if_pos isOpen, quote, isOpen, if_neg some, if_pos rfl, closed]
    exact if_neg (List.append_ne_nil_of_right_ne_nil _ (List.cons_ne_nil close []))
  · rw [if_neg isOpen, quote, if_neg isOpen]

theorem isWord_of_mem (marked : mark close = true) {text : List α}
    (member : t ∈ words blank mark (complete mark close text)) : IsWord blank mark t := by
  obtain ⟨finished, whole, isOpen⟩ := isWord_cut blank mark text
  rw [words_complete apart marked] at member
  split at member
  · exact finished t member
  · rename_i some
    rcases List.mem_append.mp member with before | last
    · exact finished t before
    · rw [List.mem_singleton.mp last, Cut.last]
      cases quote : (cut blank mark text).quote with
      | true => exact isWord_single marked whole (isOpen.trans quote)
      | false => exact ⟨some, whole, isOpen.trans quote⟩

theorem getLast_isWord (isWord : IsWord blank mark (cur ++ [c])) :
    blank c = false := by
  have inside := (unbroken_append.mp isWord.unbroken).2.1
  have closed := isWord.closed
  rw [openAfter_append, openAfter_single] at closed
  rcases inside with isOpen | other
  · rw [isOpen, Bool.true_xor, Bool.not_eq_false'] at closed
    exact apart c closed
  · exact other

end

end Cboot.Lib.Words
