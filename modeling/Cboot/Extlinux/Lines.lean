import Cboot.Extlinux.InPlace
import Mathlib.Data.List.Induction
import Mathlib.Data.List.TakeWhile

/-!
What `parse_conf_file` does to the text with one line.
-/

namespace Cboot.Extlinux.InPlace
open Lib

def Holds (buf : Buffer) (s : Nat) (t : Text) : Prop := 0 ∉ t ∧ ∃ rest, buf.drop s = t ++ 0 :: rest

def IsComment (line : Text) : Prop := (line.dropWhile isspace).head? = some 35

instance (line : Text) : Decidable (IsComment line) := inferInstanceAs (Decidable (_ = _))

section
variable {buf buf' before nls line mid ws rest : Buffer} {s val : Nat} {t key : Text} {c : UInt8} {stops : UInt8 → Bool}

theorem Holds.append (holds : Holds buf s t) (rest : Buffer) : Holds (buf ++ rest) s t := by
  obtain ⟨clean, more, here⟩ := holds
  have inside : s ≤ buf.length := by
    by_contra outside
    rw [List.drop_eq_nil_of_le (Nat.le_of_not_le outside)] at here
    exact absurd here (by simp)
  refine ⟨clean, more ++ rest, ?_⟩
  rw [List.drop_append_of_le_length inside, here, List.append_assoc, List.cons_append]

theorem holds_split (buf : Buffer) (clean : 0 ∉ t) (rest : Buffer) : Holds (buf ++ (t ++ 0 :: rest)) buf.length t :=
  ⟨clean, rest, List.drop_left⟩

theorem Holds.drop (holds : Holds buf s (t ++ mid)) : Holds buf (s + t.length) mid := by
  obtain ⟨clean, rest, here⟩ := holds
  refine ⟨fun inside => clean (List.mem_append_right t inside), rest, ?_⟩
  rw [← List.drop_drop, here, List.append_assoc, List.drop_left]

theorem findIdx?_stop (passed : ∀ b ∈ t, stops b = false) (stop : stops c = true) :
    (t ++ c :: rest).findIdx? stops = some t.length := by
  induction t with
  | nil => rw [List.nil_append, List.findIdx?_cons, stop, if_pos rfl, List.length_nil]
  | cons b t ih =>
    rw [List.cons_append, List.findIdx?_cons, passed b List.mem_cons_self, ih fun d later => passed d (List.mem_cons_of_mem b later)]
    rfl

theorem seek_eq (here : buf.drop s = t ++ c :: rest) (passed : ∀ b ∈ t, stops b = false) (stop : stops c = true) :
    seek stops buf s = some (s + t.length) := by
  rw [seek, here, findIdx?_stop passed stop]
  rfl

theorem startsWith_eq (clean : 0 ∉ key) (t rest : Buffer) : startsWith key (t ++ 0 :: rest) = some (key.isPrefixOf t) := by
  induction key generalizing t with
  | nil => simp [startsWith]
  | cons k key ih =>
    obtain ⟨other, later⟩ := not_or.mp (mt List.mem_cons.mpr clean)
    cases t with
    | nil => simp [startsWith, Ne.symm other]
    | cons c t =>
      rw [List.cons_append, startsWith, ih later, List.isPrefixOf]
      by_cases same : k = c
      · simp [same]
      · simp [same]

theorem cstring_eq (clean : 0 ∉ t) (rest : Buffer) : cstring (t ++ 0 :: rest) = some t := by
  induction t with
  | nil => rfl
  | cons c t ih =>
    obtain ⟨other, later⟩ := not_or.mp (mt List.mem_cons.mpr clean)
    rw [List.cons_append, cstring, if_neg (Ne.symm other), ih later]
    rfl

theorem Holds.cstring (holds : Holds buf s t) : cstring (buf.drop s) = some t := by
  obtain ⟨clean, rest, here⟩ := holds
  rw [here, cstring_eq clean]

theorem keys_clean : ∀ row ∈ Extlinux.keys, 0 ∉ row.1 := by decide

theorem findKey_eq {rows : List (Text × Key)} (known : ∀ row ∈ rows, row ∈ Extlinux.keys) (t rest : Buffer) :
    findKey (t ++ 0 :: rest) rows = some (rows.find? fun row => row.1.isPrefixOf t) := by
  induction rows with
  | nil => rfl
  | cons row rows ih =>
    rw [findKey, startsWith_eq (keys_clean row (known row List.mem_cons_self)), List.find?_cons,
      ih fun other later => known other (List.mem_cons_of_mem row later)]
    cases row.1.isPrefixOf t
    · rfl
    · rfl

theorem isspace_zero : isspace 0 = false := rfl

theorem Holds.skip (holds : Holds buf s t) (clean : 10 ∉ t) : ∃ val,
    (∀ rest, skipLeadingWhitespace (buf ++ rest) s = some val) ∧ Holds buf val (t.dropWhile isspace) := by
  have split : t.takeWhile isspace ++ t.dropWhile isspace = t := List.takeWhile_append_dropWhile
  have value := holds
  rw [← split] at value
  have blanks : ∀ b ∈ t.takeWhile isspace, decide (b = 10 ∨ b = 0 ∨ ¬ isspace b) = false := by
    intro b member
    have inside : b ∈ t := (List.takeWhile_prefix isspace).subset member
    have solid : b ≠ 10 ∧ b ≠ 0 := ⟨fun same => clean (same ▸ inside), fun same => holds.1 (same ▸ inside)⟩
    simp [solid, List.mem_takeWhile_imp member]
  refine ⟨s + (t.takeWhile isspace).length, fun rest => ?_, value.drop⟩
  obtain ⟨-, more, here⟩ := value.append rest
  cases tail : t.dropWhile isspace with
  | nil =>
    rw [tail, List.append_nil] at here
    exact seek_eq here blanks (by simp)
  | cons c u =>
    rw [tail, List.append_assoc, List.cons_append] at here
    have stop : isspace c = false := by
      have first := List.head?_dropWhile_not isspace t
      rw [tail] at first
      simpa using first
    exact seek_eq here blanks (by simp [stop])

theorem getElem?_behind (buf : Buffer) (c : UInt8) (rest : Buffer) : (buf ++ c :: rest)[buf.length]? = some c := by
  rw [List.getElem?_append_right (Nat.le_refl _), Nat.sub_self, List.getElem?_cons_zero]

theorem set_behind (buf : Buffer) (c d : UInt8) (rest : Buffer) : (buf ++ c :: rest).set buf.length d = buf ++ d :: rest := by
  rw [List.set_append_right _ _ (Nat.le_refl _), Nat.sub_self, List.set_cons_zero]

theorem getElem?_of_drop (here : buf.drop s = c :: rest) : buf[s]? = some c := by
  rw [← Nat.add_zero s, ← List.getElem?_drop, here, List.getElem?_cons_zero]

theorem seek_newline (only : ∀ b ∈ nls, b = 10) (here : buf.drop s = nls ++ c :: rest) (other : c ≠ 10) :
    seek (fun c => c ≠ 10) buf s = some (s + nls.length) :=
  seek_eq here (fun b member => by simp [only b member]) (by simp [other])

theorem strtok_none (only : ∀ b ∈ nls, b = 10) (rest : Buffer) :
    strtok (some before.length) (before ++ nls ++ 0 :: rest) = some ⟨none, before ++ nls ++ 0 :: rest, none⟩ := by
  have here : (before ++ nls ++ 0 :: rest).drop before.length = nls ++ 0 :: rest := by
    rw [List.append_assoc, List.drop_left]
  have last : (before ++ nls ++ 0 :: rest)[before.length + nls.length]? = some 0 := by
    rw [← List.length_append, getElem?_behind]
  rw [strtok, seek_newline only here (by decide), Option.bind_some, if_pos last]

theorem strtok_line (only : ∀ b ∈ nls, b = 10) (clean : ∀ b ∈ line, b ≠ 0 ∧ b ≠ 10) (some : line ≠ [])
    (stop : c = 0 ∨ c = 10) (rest : Buffer) : strtok (Option.some before.length) (before ++ nls ++ line ++ c :: rest) =
      Option.some ⟨Option.some (before.length + nls.length), before ++ nls ++ line ++ 0 :: rest,
        if c = 0 then none else Option.some (before.length + nls.length + line.length + 1)⟩ := by
  obtain ⟨b, u, rfl⟩ := List.exists_cons_of_ne_nil some
  have first := clean b List.mem_cons_self
  have start : (before ++ nls ++ (b :: u) ++ c :: rest).drop before.length = nls ++ b :: (u ++ c :: rest) := by
    rw [List.append_assoc, List.append_assoc, List.drop_left, List.cons_append]
  have here : (before ++ nls ++ (b :: u) ++ c :: rest).drop (before.length + nls.length) = (b :: u) ++ c :: rest := by
    rw [List.append_assoc, ← List.length_append, List.drop_left]
  have send : seek (fun c => c = 0 ∨ c = 10) (before ++ nls ++ (b :: u) ++ c :: rest) (before.length + nls.length) =
      Option.some (before.length + nls.length + (b :: u).length) :=
    seek_eq here (fun d member => by simp [clean d member]) (by simpa using stop)
  have length : before.length + nls.length + (b :: u).length = (before ++ nls ++ (b :: u)).length := by
    rw [List.length_append, List.length_append]
  have behind : (before ++ nls ++ (b :: u) ++ c :: rest)[before.length + nls.length + (b :: u).length]? = Option.some c := by
    rw [length, getElem?_behind]
  have solid : (before ++ nls ++ (b :: u) ++ c :: rest)[before.length + nls.length]? ≠ Option.some 0 := by
    rw [getElem?_of_drop here]
    exact fun same => first.1 (Option.some.inj same)
  rw [strtok, seek_newline only start first.2, Option.bind_some, if_neg solid, send, Option.map_some, behind]
  rcases stop with rfl | rfl
  · rfl
  · rw [if_neg (by decide), if_neg (by decide), length, set_behind]

theorem scanLine_blanks (blank : ∀ b ∈ ws, isspace b = true ∧ b ≠ 10) (first : Option Nat) (rest : Buffer) :
    scanLine s first (ws ++ rest) = scanLine (s + ws.length) first rest := by
  induction ws generalizing s with
  | nil => rfl
  | cons b ws ih =>
    obtain ⟨space, other⟩ := blank b List.mem_cons_self
    have solid : b ≠ 0 := by
      rintro rfl
      cases space
    rw [List.cons_append, scanLine, if_neg (by simp [other, solid]), if_pos space,
      ih fun d later => blank d (List.mem_cons_of_mem b later), List.length_cons, Nat.add_assoc, Nat.add_comm 1]

theorem scanLine_text (plain : ∀ b ∈ mid, b ≠ 0 ∧ b ≠ 10 ∧ b ≠ 35) (first : Nat) (rest : Buffer) :
    scanLine s (some first) (mid ++ rest) = scanLine (s + mid.length) (some first) rest := by
  induction mid generalizing s with
  | nil => rfl
  | cons b mid ih =>
    have here := plain b List.mem_cons_self
    have next := @ih (s + 1) fun d later => plain d (List.mem_cons_of_mem b later)
    rw [List.length_cons, ← Nat.add_assoc, Nat.add_right_comm, ← next, List.cons_append, scanLine, if_neg (by simp [here])]
    split
    · rfl
    · rw [if_neg here.2.2, Option.some_or]

theorem trimBack_blanks (blank : ∀ b ∈ ws, isspace b = true) {first : Nat}
    (apart : first < before.length ∨ before.length + ws.length ≤ first) (rest : Buffer) :
    trimBack first (before.length + ws.length) (before ++ ws ++ rest) =
      trimBack first before.length (before ++ List.replicate ws.length 0 ++ rest) := by
  induction ws using List.reverseRecOn generalizing rest with
  | nil => rfl
  | append_singleton ws b ih =>
    have space := blank b (List.mem_append_right ws List.mem_cons_self)
    have length : before.length + ws.length = (before ++ ws).length := List.length_append.symm
    rw [List.length_append, List.length_singleton] at apart
    have other : before.length + ws.length ≠ first := by omega
    have here : (before ++ (ws ++ [b]) ++ rest)[before.length + ws.length]? = some b := by
      rw [length, ← List.append_assoc, List.append_assoc, List.singleton_append, getElem?_behind]
    have erased : (before ++ (ws ++ [b]) ++ rest).set (before.length + ws.length) 0 = before ++ ws ++ 0 :: rest := by
      rw [length, ← List.append_assoc, List.append_assoc, List.singleton_append, set_behind]
    rw [List.length_append, List.length_singleton, ← Nat.add_assoc, trimBack, if_neg other, here, Option.bind_some,
      if_pos space, erased, ih (fun d early => blank d (List.mem_append_left _ early)) (by omega), List.replicate_succ']
    simp

theorem trimBack_stop {first : Nat} (stop : before.length = first ∨ isspace c = false) (rest : Buffer) :
    trimBack first (before ++ [c]).length (before ++ [c] ++ rest) = some (before ++ [c] ++ rest) := by
  have here : (before ++ [c] ++ rest)[before.length]? = some c := by
    rw [List.append_assoc, List.singleton_append, getElem?_behind]
  rw [List.length_append, List.length_singleton, trimBack]
  split
  · rfl
  · rename_i other
    rw [here, Option.bind_some, stop.resolve_left other, if_neg Bool.false_ne_true]

theorem zeros_cons (n : Nat) (rest : Buffer) : List.replicate n 0 ++ 0 :: rest = 0 :: (List.replicate n 0 ++ rest) := by
  induction n with
  | zero => rfl
  | succ n ih => rw [List.replicate_succ, List.cons_append, ih, List.cons_append]

def Removed (before : Buffer) (n : Nat) (rest t : Buffer) (r : Option Str) : Prop :=
  ∃ str line, r = some ⟨str, before ++ line ++ 0 :: rest⟩ ∧ line.length = n ∧ Holds (before ++ line ++ [0]) str t

theorem remove_blank (only : ∀ b ∈ line, isspace b = true ∧ b ≠ 10) (some : line ≠ []) (nls rest : Buffer) :
    Removed before (nls.length + line.length) rest (line.take 1)
      (removeWhitespaceAndComment (before.length + nls.length) (before ++ nls ++ line ++ 0 :: rest)) := by
  obtain ⟨b, ws, rfl⟩ := List.exists_cons_of_ne_nil some
  have blank : ∀ d ∈ ws, isspace d = true := fun d later => (only d (List.mem_cons_of_mem b later)).1
  have solid : b ≠ 0 := by
    rintro rfl
    exact absurd (only 0 List.mem_cons_self).1 (by decide)
  have here : (before ++ nls ++ (b :: ws) ++ 0 :: rest).drop (before.length + nls.length) = (b :: ws) ++ 0 :: rest := by
    rw [List.append_assoc, ← List.length_append, List.drop_left]
  have scanned : scanLine (before.length + nls.length) none ((b :: ws) ++ 0 :: rest) =
      Option.some ⟨before.length + nls.length + (b :: ws).length, none, false⟩ := by
    rw [scanLine_blanks only, scanLine, if_pos (.inr rfl)]
  have size : before.length + nls.length + (b :: ws).length = (before ++ nls ++ [b]).length + ws.length := by
    simp only [List.length_append, List.length_cons, List.length_nil]
    omega
  have whole : before ++ nls ++ (b :: ws) ++ 0 :: rest = before ++ nls ++ [b] ++ ws ++ 0 :: rest := by simp
  have erased : trimBack (before.length + nls.length) ((before ++ nls ++ [b]).length + ws.length)
      (before ++ nls ++ [b] ++ ws ++ 0 :: rest) =
        Option.some (before ++ nls ++ [b] ++ List.replicate ws.length 0 ++ 0 :: rest) := by
    rw [trimBack_blanks blank (by simp), List.append_assoc _ (List.replicate ws.length 0)]
    exact trimBack_stop (.inl List.length_append) _
  refine ⟨before.length + nls.length, nls ++ [b] ++ List.replicate ws.length 0, ?_, by simp, ?_⟩
  · unfold removeWhitespaceAndComment
    rw [here, scanned, Option.bind_some]
    simp only [Bool.false_eq_true, if_false, Option.getD_none]
    rw [size, whole, erased]
    simp
  · have split : before ++ (nls ++ [b] ++ List.replicate ws.length 0) ++ [0] =
        before ++ nls ++ ([b] ++ 0 :: (List.replicate ws.length 0)) := by
      have moved := zeros_cons ws.length []
      rw [List.append_nil] at moved
      rw [← moved]
      simp
    rw [split, ← List.length_append]
    exact holds_split _ (by simpa using Ne.symm solid) _

theorem remove_comment (blank : ∀ b ∈ ws, isspace b = true ∧ b ≠ 10) (only : ∀ b ∈ nls, b = 10) (more rest : Buffer) :
    removeWhitespaceAndComment (before.length + nls.length) (before ++ nls ++ (ws ++ 35 :: more) ++ 0 :: rest) =
      (trimBack (before.length + (nls ++ ws).length) before.length
        (before ++ List.replicate (nls ++ ws).length 0 ++ 0 :: (more ++ 0 :: rest))).map
          fun buf => ⟨before.length + (nls ++ ws).length, buf⟩ := by
  have here : (before ++ nls ++ (ws ++ 35 :: more) ++ 0 :: rest).drop (before.length + nls.length) =
      ws ++ 35 :: (more ++ 0 :: rest) := by
    rw [List.append_assoc, ← List.length_append, List.drop_left, List.append_assoc, List.cons_append]
  have scanned : scanLine (before.length + nls.length) none (ws ++ 35 :: (more ++ 0 :: rest)) =
      some ⟨before.length + nls.length + ws.length, some (before.length + nls.length + ws.length), true⟩ := by
    rw [scanLine_blanks blank, scanLine, if_neg (by decide), if_neg (by decide), if_pos rfl, Option.none_or]
  have size : before.length + nls.length + ws.length = (before ++ (nls ++ ws)).length := by
    simp only [List.length_append]
    omega
  have whole : before ++ nls ++ (ws ++ 35 :: more) ++ 0 :: rest = before ++ (nls ++ ws) ++ 35 :: (more ++ 0 :: rest) := by
    simp
  have blanks : ∀ b ∈ nls ++ ws, isspace b = true := by
    intro b member
    rcases List.mem_append.mp member with newline | inside
    · rw [only b newline]
      rfl
    · exact (blank b inside).1
  unfold removeWhitespaceAndComment
  rw [here, scanned, Option.bind_some]
  simp only [if_true, Option.getD_some]
  rw [whole, size, set_behind, List.length_append, trimBack_blanks blanks (.inr (Nat.le_refl _))]

theorem trim_split (member : c ∈ mid) (solid : isspace c = false) : ∃ kept z trail,
    mid = kept ++ [z] ++ trail ∧ isspace z = false ∧ (∀ b ∈ trail, isspace b = true) ∧
      (mid.reverse.dropWhile isspace).reverse = kept ++ [z] := by
  have split : mid.reverse.takeWhile isspace ++ mid.reverse.dropWhile isspace = mid.reverse :=
    List.takeWhile_append_dropWhile
  have blanks : ∀ b ∈ mid.reverse.takeWhile isspace, isspace b = true := fun b inside => List.mem_takeWhile_imp inside
  have first := List.head?_dropWhile_not isspace mid.reverse
  cases rest : mid.reverse.dropWhile isspace with
  | nil =>
    rw [rest, List.append_nil] at split
    have blank := blanks c (by rw [split]; exact List.mem_reverse.mpr member)
    rw [solid] at blank
    cases blank
  | cons z kept =>
    rw [rest] at split first
    refine ⟨kept.reverse, z, (mid.reverse.takeWhile isspace).reverse, ?_, by simpa using first, ?_, List.reverse_cons⟩
    · have back := congrArg List.reverse split
      rw [List.reverse_append, List.reverse_cons, List.reverse_reverse] at back
      exact back.symm
    · intro b inside
      exact blanks b (List.mem_reverse.mp inside)

theorem comment_split (tail rest : Buffer) (marked : ∀ c ∈ tail.head?, c = 35) : ∃ left more,
    left.length = tail.length ∧ left ++ [0] = 0 :: more ∧ ∀ buf : Buffer,
      (if tail ≠ [] then (buf ++ tail ++ 0 :: rest).set buf.length 0 else buf ++ tail ++ 0 :: rest) =
        buf ++ left ++ 0 :: rest := by
  cases tail with
  | nil => exact ⟨[], [], rfl, rfl, fun buf => by simp⟩
  | cons c tail =>
    refine ⟨0 :: tail, tail ++ [0], rfl, rfl, fun buf => ?_⟩
    rw [if_pos (List.cons_ne_nil c tail), List.append_assoc, List.cons_append, set_behind, List.append_assoc,
      List.cons_append]

theorem scanLine_tail (mid tail rest : Buffer) (plain : ∀ b ∈ mid, b ≠ 0 ∧ b ≠ 10 ∧ b ≠ 35)
    (marked : ∀ c ∈ tail.head?, c = 35) (first : Nat) : scanLine s (some first) (mid ++ tail ++ 0 :: rest) =
      some ⟨s + mid.length, some first, decide (tail ≠ [])⟩ := by
  rw [List.append_assoc, scanLine_text plain]
  cases tail with
  | nil => rw [List.nil_append, scanLine, if_pos (.inr rfl)]; rfl
  | cons c tail =>
    obtain rfl : c = 35 := marked c rfl
    rw [List.cons_append, scanLine, if_neg (by decide), if_neg (by decide), if_pos rfl, Option.some_or]
    rfl

theorem remove_text (blank : ∀ b ∈ ws, isspace b = true ∧ b ≠ 10) (clean : ∀ b ∈ c :: line, b ≠ 0 ∧ b ≠ 10)
    (solid : isspace c = false) (unmarked : c ≠ 35) (nls rest : Buffer) :
    Removed before (nls.length + (ws ++ c :: line).length) rest
      (((c :: line).takeWhile (· ≠ 35)).reverse.dropWhile isspace).reverse
      (removeWhitespaceAndComment (before.length + nls.length) (before ++ nls ++ (ws ++ c :: line) ++ 0 :: rest)) := by
  have split : (c :: line).takeWhile (· ≠ 35) ++ (c :: line).dropWhile (· ≠ 35) = c :: line :=
    List.takeWhile_append_dropWhile
  have marked : ∀ d ∈ ((c :: line).dropWhile (· ≠ 35)).head?, d = 35 := by
    intro d head
    have first := List.head?_dropWhile_not (· ≠ (35 : UInt8)) (c :: line)
    rw [Option.mem_def.mp head] at first
    simpa using first
  have plain : ∀ d ∈ (c :: line).takeWhile (· ≠ 35), d ≠ 0 ∧ d ≠ 10 ∧ d ≠ 35 := by
    intro d inside
    have here := clean d ((List.takeWhile_prefix _).subset inside)
    exact ⟨here.1, here.2, by simpa using List.mem_takeWhile_imp inside⟩
  have start : (c :: line).takeWhile (· ≠ 35) = c :: line.takeWhile (· ≠ 35) := by
    rw [List.takeWhile_cons, if_pos (by simpa using unmarked)]
  have member : c ∈ (c :: line).takeWhile (· ≠ 35) := start ▸ List.mem_cons_self
  generalize (c :: line).dropWhile (· ≠ 35) = tail at split marked
  obtain ⟨kept, z, trail, parts, final, blanks, trimmed⟩ := trim_split member solid
  obtain ⟨left, more, length, ended, erased⟩ := comment_split tail rest marked
  rw [trimmed]
  have here : (before ++ nls ++ (ws ++ c :: line) ++ 0 :: rest).drop (before.length + nls.length) =
      ws ++ (c :: line.takeWhile (· ≠ 35) ++ tail ++ 0 :: rest) := by
    rw [List.append_assoc, ← List.length_append, List.drop_left, List.append_assoc, ← split, start]
  have size : before.length + nls.length + ws.length = (before ++ nls ++ ws).length := by
    rw [List.length_append, List.length_append]
  have scanned : scanLine (before.length + nls.length) none (ws ++ (c :: line.takeWhile (· ≠ 35) ++ tail ++ 0 :: rest)) =
      some ⟨(before ++ nls ++ ws ++ (kept ++ [z] ++ trail)).length, some (before ++ nls ++ ws).length, decide (tail ≠ [])⟩ := by
    have first := clean c List.mem_cons_self
    have later : ∀ d ∈ line.takeWhile (· ≠ 35), d ≠ 0 ∧ d ≠ 10 ∧ d ≠ 35 := fun d inside =>
      plain d (start ▸ List.mem_cons_of_mem c inside)
    rw [scanLine_blanks blank, List.cons_append, List.cons_append, scanLine, if_neg (by simp [first]),
      if_neg (by rw [solid]; exact Bool.false_ne_true), if_neg unmarked, Option.none_or,
      scanLine_tail _ tail rest later marked, size, ← parts, start]
    simp only [List.length_append, List.length_cons]
    rw [Nat.add_right_comm, Nat.add_assoc]
  have whole : before ++ nls ++ (ws ++ c :: line) ++ 0 :: rest =
      before ++ nls ++ ws ++ (kept ++ [z] ++ trail) ++ tail ++ 0 :: rest := by
    have apart : c :: line = kept ++ [z] ++ trail ++ tail := by rw [← parts, split]
    rw [apart]
    simp only [List.append_assoc]
  have inside : (before ++ nls ++ ws).length < (before ++ nls ++ ws ++ kept ++ [z]).length := by
    simp only [List.length_append, List.length_singleton]
    omega
  have front : before ++ nls ++ ws ++ (kept ++ [z] ++ trail) = before ++ nls ++ ws ++ kept ++ [z] ++ trail := by
    simp only [List.append_assoc]
  have trimmed' : trimBack (before ++ nls ++ ws).length ((before ++ nls ++ ws ++ kept ++ [z]).length + trail.length)
      (before ++ nls ++ ws ++ kept ++ [z] ++ trail ++ (left ++ 0 :: rest)) =
        some (before ++ nls ++ ws ++ kept ++ [z] ++ (List.replicate trail.length 0 ++ (left ++ 0 :: rest))) := by
    rw [trimBack_blanks blanks (.inl inside), List.append_assoc _ (List.replicate trail.length 0)]
    exact trimBack_stop (.inr final) _
  refine ⟨(before ++ nls ++ ws).length, nls ++ ws ++ kept ++ [z] ++ List.replicate trail.length 0 ++ left, ?_, ?_, ?_⟩
  · unfold removeWhitespaceAndComment
    rw [here, scanned, Option.bind_some]
    simp only [Option.getD_some, decide_eq_true_eq]
    have back : (before ++ nls ++ ws ++ kept ++ [z] ++ trail).length =
        (before ++ nls ++ ws ++ kept ++ [z]).length + trail.length := List.length_append
    rw [whole, erased, front, back, List.append_assoc _ left, trimmed']
    simp
  · have sizes := congrArg List.length split
    rw [parts] at sizes
    simp only [List.length_append, List.length_cons, List.length_nil, List.length_replicate] at sizes ⊢
    omega
  · have string : before ++ (nls ++ ws ++ kept ++ [z] ++ List.replicate trail.length 0 ++ left) ++ [0] =
        before ++ nls ++ ws ++ (kept ++ [z] ++ 0 :: (List.replicate trail.length 0 ++ more)) := by
      rw [← zeros_cons, ← ended]
      simp only [List.append_assoc]
    rw [string]
    refine holds_split _ ?_ _
    intro zero
    exact (plain 0 (by rw [parts]; exact List.mem_append_left _ zero)).1 rfl

theorem blanks_of_line (clean : ∀ b ∈ line, b ≠ 0 ∧ b ≠ 10) : ∀ b ∈ line.takeWhile isspace, isspace b = true ∧ b ≠ 10 :=
  fun b inside => ⟨List.mem_takeWhile_imp inside, (clean b ((List.takeWhile_prefix isspace).subset inside)).2⟩

theorem isComment_split (comment : IsComment line) : ∃ more, line = line.takeWhile isspace ++ 35 :: more := by
  unfold IsComment at comment
  cases rest : line.dropWhile isspace with
  | nil =>
    rw [rest] at comment
    cases comment
  | cons c more =>
    rw [rest] at comment
    obtain rfl : c = 35 := by simpa using comment
    exact ⟨more, by rw [← rest, List.takeWhile_append_dropWhile]⟩

theorem remove_outside (clean : ∀ b ∈ line, b ≠ 0 ∧ b ≠ 10) (only : ∀ b ∈ nls, b = 10) (comment : IsComment line)
    (rest : Buffer) : removeWhitespaceAndComment nls.length (nls ++ line ++ 0 :: rest) = none := by
  obtain ⟨more, split⟩ := isComment_split comment
  have removed := @remove_comment [] nls (line.takeWhile isspace) (blanks_of_line clean) only more rest
  rw [← split, List.length_nil, Nat.zero_add, List.nil_append] at removed
  rw [removed]
  rfl

theorem remove_line (clean : ∀ b ∈ line, b ≠ 0 ∧ b ≠ 10) (some : line ≠ []) (only : ∀ b ∈ nls, b = 10)
    (behind : before.getLast? = Option.some 0 ∨ ¬ IsComment line) (rest : Buffer) :
    Removed before (nls.length + line.length) rest (Extlinux.removeWhitespaceAndComment line)
      (removeWhitespaceAndComment (before.length + nls.length) (before ++ nls ++ line ++ 0 :: rest)) := by
  have blank := blanks_of_line clean
  have split : line.takeWhile isspace ++ line.dropWhile isspace = line := List.takeWhile_append_dropWhile
  have pure : Extlinux.removeWhitespaceAndComment line =
      if line.dropWhile isspace = [] then line.take 1
      else (((line.dropWhile isspace).takeWhile (· ≠ 35)).reverse.dropWhile isspace).reverse := by
    unfold Extlinux.removeWhitespaceAndComment
    cases line.dropWhile isspace with
    | nil => rfl
    | cons c body => rw [if_neg (List.cons_ne_nil c body)]
  rw [pure]
  cases body : line.dropWhile isspace with
  | nil =>
    rw [body, List.append_nil] at split
    rw [split] at blank
    rw [if_pos rfl]
    exact remove_blank blank some nls rest
  | cons c more =>
    have solid : isspace c = false := by
      have first := List.head?_dropWhile_not isspace line
      rw [body] at first
      simpa using first
    rw [body] at split
    rw [if_neg (List.cons_ne_nil c more)]
    by_cases mark : c = 35
    · subst mark
      have comment : IsComment line := by
        unfold IsComment
        rw [body]
        rfl
      obtain ⟨front, rfl⟩ : ∃ front, before = front ++ [0] := by
        rcases List.eq_nil_or_concat' before with rfl | ⟨front, b, rfl⟩
        · exact absurd (behind.resolve_right (not_not_intro comment)) (by simp)
        · have last := behind.resolve_right (not_not_intro comment)
          rw [List.getLast?_concat] at last
          exact ⟨front, by rw [Option.some.inj last]⟩
      have removed := @remove_comment (front ++ [0]) nls (line.takeWhile isspace) blank only more rest
      rw [split, List.append_assoc (front ++ [0]) (List.replicate _ 0), trimBack_stop (.inr isspace_zero), Option.map_some] at removed
      refine ⟨(front ++ [0]).length + (nls ++ line.takeWhile isspace).length,
        List.replicate (nls ++ line.takeWhile isspace).length 0 ++ 0 :: more, ?_, ?_, ?_⟩
      · rw [removed]
        simp
      · have sizes := congrArg List.length split
        simp only [List.length_append, List.length_cons, List.length_replicate] at sizes ⊢
        omega
      · have string : front ++ [0] ++ (List.replicate (nls ++ line.takeWhile isspace).length 0 ++ 0 :: more) ++ [0] =
            front ++ [0] ++ List.replicate (nls ++ line.takeWhile isspace).length 0 ++ ([] ++ 0 :: (more ++ [0])) := by
          simp
        have length : (front ++ [0]).length + (nls ++ line.takeWhile isspace).length =
            (front ++ [0] ++ List.replicate (nls ++ line.takeWhile isspace).length 0).length := by
          simp only [List.length_append, List.length_replicate]
        rw [string, length]
        exact holds_split _ (by simp) _
    · have inside : ∀ b ∈ c :: more, b ≠ 0 ∧ b ≠ 10 := fun b member =>
        clean b (by rw [← split]; exact List.mem_append_right _ member)
      have removed := @remove_text before more (line.takeWhile isspace) c blank inside solid mark nls rest
      rwa [split] at removed

theorem mem_remove (member : c ∈ Extlinux.removeWhitespaceAndComment line) : c ∈ line := by
  unfold Extlinux.removeWhitespaceAndComment at member
  have suffix : line.dropWhile isspace ⊆ line := (List.dropWhile_suffix isspace).subset
  cases body : line.dropWhile isspace with
  | nil =>
    rw [body] at member
    exact List.mem_of_mem_take member
  | cons d more =>
    rw [body] at member suffix
    have inside := (List.dropWhile_suffix isspace).subset (List.mem_reverse.mp member)
    exact suffix ((List.takeWhile_prefix _).subset (List.mem_reverse.mp inside))

end

end Cboot.Extlinux.InPlace
