import Mathlib.Algebra.GroupWithZero.Nat
import Mathlib.Data.List.Induction

/-!
A piece puts its items at consecutive places of a buffer, and the last one to reach a place is what the place holds.
-/

namespace Cboot.Lib

structure Piece (α : Type) where
  dest : Nat
  len : Nat
  item : Nat → α

namespace Piece
variable {α : Type} {p : Piece α} {ps qs : List (Piece α)} {x : Nat} {a : α}

def Covers (p : Piece α) (x : Nat) : Prop := p.dest ≤ x ∧ x < p.dest + p.len

instance (p : Piece α) (x : Nat) : Decidable (p.Covers x) := inferInstanceAs (Decidable (_ ∧ _))

/-- A piece of nothing may start anywhere. -/
def Inside (p : Piece α) (size : Nat) : Prop := p.len = 0 ∨ p.dest + p.len ≤ size

instance (p : Piece α) (size : Nat) : Decidable (p.Inside size) := inferInstanceAs (Decidable (_ ∨ _))

theorem inside_iff {size : Nat} : p.Inside size ↔ ∀ x, p.Covers x → x < size := by
  constructor
  · intro inside x cover
    obtain ⟨low, high⟩ := cover
    rcases inside with none | fits
    · omega
    · exact Nat.lt_of_lt_of_le high fits
  · intro all
    by_cases none : p.len = 0
    · exact .inl none
    · right
      have last := all (p.dest + p.len - 1) ⟨by omega, by omega⟩
      omega

def put (held : Nat → Option α) (p : Piece α) : Nat → Option α := fun x =>
  if p.Covers x then some (p.item (x - p.dest)) else held x

theorem put_covered {held : Nat → Option α} (cover : p.Covers x) : put held p x = some (p.item (x - p.dest)) :=
  if_pos cover

theorem put_other {held : Nat → Option α} (other : ¬ p.Covers x) : put held p x = held x := if_neg other

def held (ps : List (Piece α)) : Nat → Option α := ps.foldl put fun _ => none

@[simp] theorem held_nil : held ([] : List (Piece α)) x = none := rfl

@[simp] theorem held_concat : held (ps ++ [p]) = put (held ps) p := by
  simp [held]

theorem exists_of_held (found : held ps x = some a) : ∃ p ∈ ps, p.Covers x ∧ p.item (x - p.dest) = a := by
  induction ps using List.reverseRecOn with
  | nil => simp at found
  | append_singleton ps p ih =>
    rw [held_concat] at found
    by_cases cover : p.Covers x
    · rw [put_covered cover] at found
      exact ⟨p, by simp, cover, Option.some.inj found⟩
    · rw [put_other cover] at found
      obtain ⟨q, member, covers, same⟩ := ih found
      exact ⟨q, List.mem_append_left _ member, covers, same⟩

theorem held_append (found : held qs x = some a) : held (ps ++ qs) x = some a := by
  induction qs using List.reverseRecOn with
  | nil => simp at found
  | append_singleton qs q ih =>
    rw [← List.append_assoc, held_concat]
    rw [held_concat] at found
    by_cases cover : q.Covers x
    · rwa [put_covered cover] at found ⊢
    · rw [put_other cover] at found ⊢
      exact ih found

theorem held_of_agree (reached : ∃ p ∈ ps, p.Covers x)
    (agree : ∀ p ∈ ps, p.Covers x → p.item (x - p.dest) = a) : held ps x = some a := by
  induction ps using List.reverseRecOn with
  | nil => simp at reached
  | append_singleton ps p ih =>
    rw [held_concat]
    by_cases cover : p.Covers x
    · rw [put_covered cover, agree p (by simp) cover]
    · rw [put_other cover]
      obtain ⟨q, member, covers⟩ := reached
      have earlier : q ∈ ps := by
        rcases List.mem_append.mp member with earlier | last
        · exact earlier
        · exact absurd (List.mem_singleton.mp last ▸ covers) cover
      exact ih ⟨q, earlier, covers⟩ fun r mem => agree r (List.mem_append_left _ mem)

end Piece

section
variable {β : Type} (first size : β → Nat)

/-- From `a` to `b`, each run starts where the one before it ends. -/
def Tiles : Nat → Nat → List β → Prop
  | a, b, [] => a = b
  | a, b, r :: rs => first r = a ∧ 0 < size r ∧ Tiles (a + size r) b rs

instance decidableTiles : (a b : Nat) → (rs : List β) → Decidable (Tiles first size a b rs)
  | a, b, [] => inferInstanceAs (Decidable (a = b))
  | a, b, r :: rs =>
    have := decidableTiles (a + size r) b rs
    inferInstanceAs (Decidable (_ ∧ _ ∧ _))

variable {first size} {a b x : Nat} {r s : β} {rs ss : List β}

variable (tiles : Tiles first size a b rs)
include tiles

theorem Tiles.le : a ≤ b := by
  induction rs generalizing a with
  | nil => exact Nat.le_of_eq tiles
  | cons r rs ih => exact Nat.le_trans (Nat.le_add_right _ _) (ih tiles.2.2)

omit tiles in
theorem Tiles.split (tiles : Tiles first size a b (rs ++ ss)) :
    ∃ m, Tiles first size a m rs ∧ Tiles first size m b ss := by
  induction rs generalizing a with
  | nil => exact ⟨a, rfl, tiles⟩
  | cons r rs ih =>
    obtain ⟨start, positive, rest⟩ := tiles
    obtain ⟨m, front, back⟩ := ih rest
    exact ⟨m, ⟨start, positive, front⟩, back⟩

theorem Tiles.bounds (member : r ∈ rs) :
    a ≤ first r ∧ 0 < size r ∧ first r + size r ≤ b := by
  induction rs generalizing a with
  | nil => cases member
  | cons q rs ih =>
    obtain ⟨start, positive, rest⟩ := tiles
    rcases List.mem_cons.mp member with rfl | later
    · exact ⟨Nat.le_of_eq start.symm, positive, start ▸ rest.le⟩
    · obtain ⟨low, more, high⟩ := ih rest later
      exact ⟨Nat.le_trans (Nat.le_add_right _ _) low, more, high⟩

theorem Tiles.exists_cover (low : a ≤ x) (high : x < b) :
    ∃ r ∈ rs, first r ≤ x ∧ x < first r + size r := by
  induction rs generalizing a with
  | nil => exact absurd (tiles ▸ high) (Nat.not_lt.mpr low)
  | cons r rs ih =>
    obtain ⟨start, positive, rest⟩ := tiles
    by_cases here : x < a + size r
    · exact ⟨r, List.mem_cons_self, start ▸ low, start ▸ here⟩
    · obtain ⟨s, member, cover⟩ := ih rest (Nat.not_lt.mp here)
      exact ⟨s, List.mem_cons_of_mem _ member, cover⟩

theorem Tiles.eq_of_meet (memR : r ∈ rs) (memS : s ∈ rs)
    (inR : first r ≤ x ∧ x < first r + size r) (inS : first s ≤ x ∧ x < first s + size s) : r = s := by
  induction rs generalizing a with
  | nil => cases memR
  | cons q rs ih =>
    obtain ⟨start, positive, rest⟩ := tiles
    rcases List.mem_cons.mp memR with rfl | laterR <;> rcases List.mem_cons.mp memS with rfl | laterS
    · rfl
    · have := rest.bounds laterS
      omega
    · have := rest.bounds laterR
      omega
    · exact ih rest laterR laterS

theorem Tiles.sum_size : a + (rs.map size).sum = b := by
  induction rs generalizing a with
  | nil => exact tiles
  | cons r rs ih =>
    have rest := ih tiles.2.2
    simp only [List.map_cons, List.sum_cons]
    omega

omit tiles

theorem Tiles.last (tiles : Tiles first size a b (rs ++ [r])) : first r + size r = b := by
  obtain ⟨m, -, last⟩ := tiles.split
  obtain ⟨start, -, stop⟩ := last
  rw [start]
  exact stop

end

end Cboot.Lib
