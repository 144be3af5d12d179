import Mathlib.Data.List.Basic
import Mathlib.Algebra.GroupWithZero.Nat

/-!
A forest is its first tree and those next to it. It is laid out with each node's head before what is below it, and a
tail behind.
-/

namespace Cboot.Lib

inductive Forest (α : Type) where
  | nil
  | node (a : α) (below next : Forest α)
  deriving DecidableEq, Repr

namespace Forest

/-- How wide the head of a node is, and its tail. -/
structure Layout (α : Type) where
  head : α → Nat
  tail : Nat
  pos : ∀ a, 0 < head a

inductive Frame (α : Type) where
  | into (a : α) (next : Forest α)
  | past (a : α) (below : Forest α)

section
variable {α : Type} (L : Layout α)

def size : Forest α → Nat
  | nil => 0
  | node a below next => L.head a + below.size + L.tail + next.size

def suffix : Forest α → Nat → Option (Forest α)
  | nil, _ => none
  | node a below next, off =>
    if off = 0 then some (node a below next)
    else if off < L.head a then none
    else if off < L.head a + below.size L then below.suffix (off - L.head a)
    else if off < L.head a + below.size L + L.tail then none
    else next.suffix (off - (L.head a + below.size L + L.tail))

def update (g : α → α) : Forest α → Nat → Forest α
  | nil, _ => nil
  | node a below next, off =>
    if off = 0 then node (g a) below next
    else if off < L.head a then node a below next
    else if off < L.head a + below.size L then node a (below.update g (off - L.head a)) next
    else if off < L.head a + below.size L + L.tail then node a below next
    else node a below (next.update g (off - (L.head a + below.size L + L.tail)))

def offsets : Forest α → Nat → List Nat
  | nil, _ => []
  | node a below next, off => off :: next.offsets (off + (L.head a + below.size L + L.tail))

def root? : Forest α → Option α
  | nil => none
  | node a _ _ => some a

def Frame.fill : Frame α → Forest α → Forest α
  | .into a next, f => node a f next
  | .past a below, f => node a below f

def Frame.width : Frame α → Nat
  | .into a _ => L.head a
  | .past a below => L.head a + below.size L + L.tail

/-- The forest that has `f` at the place of the context. -/
def plug (ctx : List (Frame α)) (f : Forest α) : Forest α := ctx.foldr Frame.fill f

def offset (ctx : List (Frame α)) : Nat := (ctx.map (Frame.width L)).sum

@[simp] theorem plug_nil (f : Forest α) : plug [] f = f := rfl

@[simp] theorem plug_cons (frame : Frame α) (ctx : List (Frame α)) (f : Forest α) :
    plug (frame :: ctx) f = frame.fill (plug ctx f) := rfl

variable (ctx : List (Frame α))

@[simp] theorem plug_concat (frame : Frame α) (f : Forest α) :
    plug (ctx ++ [frame]) f = plug ctx (frame.fill f) := by
  unfold plug
  rw [List.foldr_append]
  rfl

@[simp] theorem offset_nil : offset L [] = 0 := rfl

@[simp] theorem offset_cons (frame : Frame α) (ctx : List (Frame α)) :
    offset L (frame :: ctx) = frame.width L + offset L ctx := by
  simp [offset]

@[simp] theorem offset_concat (frame : Frame α) :
    offset L (ctx ++ [frame]) = offset L ctx + frame.width L := by
  simp [offset]

theorem offset_le_size (f : Forest α) : offset L ctx + f.size L ≤ (plug ctx f).size L := by
  induction ctx with
  | nil => simp
  | cons frame ctx ih =>
    rw [offset_cons, plug_cons]
    cases frame with
    | into b rest =>
      simp only [Frame.fill, Frame.width, size]
      omega
    | past b sub =>
      simp only [Frame.fill, Frame.width, size]
      omega

theorem size_le_plug (f : Forest α) : f.size L ≤ (plug ctx f).size L :=
  Nat.le_trans (Nat.le_add_left ..) (offset_le_size L ctx f)

theorem offset_lt_size (a : α) (below next : Forest α) :
    offset L ctx < (plug ctx (node a below next)).size L := by
  induction ctx with
  | nil =>
    have := L.pos a
    simp [size]
    omega
  | cons frame ctx ih =>
    cases frame with
    | into b rest =>
      simp [Frame.fill, Frame.width, size]
      omega
    | past b sub =>
      simp [Frame.fill, Frame.width, size]
      omega

theorem suffix_plug (a : α) (below next : Forest α) :
    (plug ctx (node a below next)).suffix L (offset L ctx) = some (node a below next) := by
  induction ctx with
  | nil => simp [suffix]
  | cons frame ctx ih =>
    have inside := offset_lt_size L ctx a below next
    rw [plug_cons, offset_cons]
    cases frame with
    | into b rest =>
      have pos := L.pos b
      rw [Frame.fill, Frame.width, suffix, if_neg (by omega), if_neg (by omega), if_pos (by omega),
        Nat.add_sub_cancel_left, ih]
    | past b sub =>
      have pos := L.pos b
      rw [Frame.fill, Frame.width, suffix, if_neg (by omega), if_neg (by omega), if_neg (by omega),
        if_neg (by omega), Nat.add_sub_cancel_left, ih]

theorem update_plug (g : α → α) (ctx : List (Frame α)) (a : α) (below next : Forest α) :
    (plug ctx (node a below next)).update L g (offset L ctx) = plug ctx (node (g a) below next) := by
  induction ctx with
  | nil => simp [update]
  | cons frame ctx ih =>
    have inside := offset_lt_size L ctx a below next
    rw [plug_cons, offset_cons, plug_cons]
    cases frame with
    | into b rest =>
      have pos := L.pos b
      rw [Frame.fill, Frame.width, update, if_neg (by omega), if_neg (by omega), if_pos (by omega),
        Nat.add_sub_cancel_left, ih, Frame.fill]
    | past b sub =>
      have pos := L.pos b
      rw [Frame.fill, Frame.width, update, if_neg (by omega), if_neg (by omega), if_neg (by omega),
        if_neg (by omega), Nat.add_sub_cancel_left, ih, Frame.fill]

theorem suffix_eq_some {f u : Forest α} {off : Nat} (found : f.suffix L off = some u) :
    ∃ ctx a below next, u = node a below next ∧ f = plug ctx u ∧ off = offset L ctx := by
  induction f generalizing off with
  | nil => cases found
  | node a below next ihBelow ihNext =>
    rw [suffix] at found
    split at found
    case isTrue first =>
      exact ⟨[], a, below, next, (Option.some.inj found).symm, Option.some.inj found, first⟩
    case isFalse =>
      split at found
      case isTrue => cases found
      case isFalse past =>
        split at found
        case isTrue =>
          obtain ⟨ctx, b, sub, rest, rfl, rfl, place⟩ := ihBelow found
          refine ⟨.into a next :: ctx, b, sub, rest, rfl, rfl, ?_⟩
          rw [offset_cons, Frame.width]
          omega
        case isFalse =>
          split at found
          case isTrue => cases found
          case isFalse after =>
            obtain ⟨ctx, b, sub, rest, rfl, rfl, place⟩ := ihNext found
            refine ⟨.past a below :: ctx, b, sub, rest, rfl, rfl, ?_⟩
            rw [offset_cons, Frame.width]
            omega

def All (P : α → Prop) : Forest α → Prop
  | nil => True
  | node a below next => P a ∧ below.All P ∧ next.All P

instance instDecidableAll {P : α → Prop} [DecidablePred P] : (f : Forest α) → Decidable (f.All P)
  | nil => isTrue trivial
  | node a below next =>
    have := instDecidableAll (P := P) below
    have := instDecidableAll (P := P) next
    inferInstanceAs (Decidable (P a ∧ below.All P ∧ next.All P))

theorem all_plug {P : α → Prop} {ctx : List (Frame α)} {f : Forest α} (all : (plug ctx f).All P) : f.All P := by
  induction ctx with
  | nil => exact all
  | cons frame ctx ih =>
    cases frame with
    | into a next => exact ih all.2.1
    | past a below => exact ih all.2.2

def rootAt (f : Forest α) (off : Nat) : Option α := (f.suffix L off).bind root?

theorem exists_of_rootAt {f : Forest α} {off : Nat} (found : (f.rootAt L off).isSome) :
    ∃ ctx a below next, f = plug ctx (node a below next) ∧ off = offset L ctx := by
  obtain ⟨root, there⟩ := Option.isSome_iff_exists.mp found
  obtain ⟨u, place, -⟩ := Option.bind_eq_some_iff.mp there
  obtain ⟨ctx, a, below, next, rfl, rfl, rfl⟩ := suffix_eq_some L place
  exact ⟨ctx, a, below, next, rfl, rfl⟩

theorem rootAt_plug (a : α) (below next : Forest α) :
    (plug ctx (node a below next)).rootAt L (offset L ctx) = some a := by
  rw [rootAt, suffix_plug]
  rfl

def updateFirst (wanted : α → Bool) (g : α → Forest α → α × Forest α) : Forest α → Forest α
  | nil => nil
  | node a below next =>
    if wanted a then node (g a below).1 (g a below).2 next else node a below (next.updateFirst wanted g)

theorem find_offsets (wanted : α → Bool) (ctx : List (Frame α)) (f : Forest α) :
    ((f.offsets L (offset L ctx)).find? (fun off => ((plug ctx f).rootAt L off).any wanted) = none ∧
        ∀ g, f.updateFirst wanted g = f) ∨
      ∃ found a below next, wanted a = true ∧ plug ctx f = plug found (node a below next) ∧
        (f.offsets L (offset L ctx)).find? (fun off => ((plug ctx f).rootAt L off).any wanted) = some (offset L found) ∧
        ∀ g, plug ctx (f.updateFirst wanted g) = plug found (node (g a below).1 (g a below).2 next) := by
  induction f generalizing ctx with
  | nil => exact .inl ⟨rfl, fun _ => rfl⟩
  | node a below next _ ih =>
    have root := rootAt_plug L ctx a below next
    by_cases here : wanted a = true
    · right
      refine ⟨ctx, a, below, next, here, rfl, ?_, fun g => ?_⟩
      · rw [offsets, List.find?_cons_of_pos]
        rw [root]
        exact here
      · rw [updateFirst, if_pos here]
    · have later := ih (ctx ++ [.past a below])
      rw [plug_concat, offset_concat] at later
      have skip : ((node a below next).offsets L (offset L ctx)).find?
            (fun off => ((plug ctx (node a below next)).rootAt L off).any wanted) =
          (next.offsets L (offset L ctx + (L.head a + below.size L + L.tail))).find?
            (fun off => ((plug ctx (node a below next)).rootAt L off).any wanted) := by
        rw [offsets, List.find?_cons_of_neg]
        rw [root]
        exact here
      rw [skip]
      refine later.imp ?_ ?_
      · rintro ⟨none, same⟩
        refine ⟨none, fun g => ?_⟩
        rw [updateFirst, if_neg here, same]
      · rintro ⟨found, b, sub, rest, there, same, finds, updates⟩
        refine ⟨found, b, sub, rest, there, same, finds, fun g => ?_⟩
        rw [updateFirst, if_neg here, ← updates, plug_concat]
        rfl

theorem mem_offsets {ctx : List (Frame α)} {f : Forest α} {off : Nat} (member : off ∈ f.offsets L (offset L ctx)) :
    ∃ found a below next, plug ctx f = plug found (node a below next) ∧ off = offset L found ∧
      below.size L < f.size L := by
  induction f generalizing ctx with
  | nil => cases member
  | node a below next _ ih =>
    have pos := L.pos a
    rw [offsets] at member
    rcases List.mem_cons.mp member with rfl | later
    · exact ⟨ctx, a, below, next, rfl, rfl, by rw [size]; omega⟩
    · have place := offset_concat L ctx (.past a below)
      rw [Frame.width] at place
      rw [← place] at later
      obtain ⟨found, b, sub, rest, same, here, smaller⟩ := ih later
      rw [plug_concat] at same
      exact ⟨found, b, sub, rest, same, here, by rw [size]; omega⟩

/-- The offsets of the nodes, of trees that are at `off`. -/
def nodes : Forest α → Nat → List Nat
  | nil, _ => []
  | node a below next, off =>
    off :: (below.nodes (off + L.head a) ++ next.nodes (off + (L.head a + below.size L + L.tail)))

theorem nodes_bound {f : Forest α} {off o : Nat} (member : o ∈ f.nodes L off) : off ≤ o ∧ o < off + f.size L := by
  induction f generalizing off with
  | nil => cases member
  | node a below next ihBelow ihNext =>
    have pos := L.pos a
    rw [size]
    rcases List.mem_cons.mp member with rfl | other
    · omega
    · rcases List.mem_append.mp other with inside | after
      · have := ihBelow inside
        omega
      · have := ihNext after
        omega

theorem nodes_plug (f : Forest α) (off : Nat) :
    ∃ before after, (plug ctx f).nodes L off = before ++ (f.nodes L (off + offset L ctx) ++ after) ∧
      (∀ o ∈ before, o < off + offset L ctx) ∧ ∀ o ∈ after, off + offset L ctx + f.size L ≤ o := by
  induction ctx generalizing off with
  | nil => exact ⟨[], [], by simp, by simp, by simp⟩
  | cons frame ctx ih =>
    obtain ⟨before, after, split, lower, higher⟩ := ih (off + frame.width L)
    rw [plug_cons, offset_cons, ← Nat.add_assoc]
    have wide := size_le_plug L ctx f
    cases frame with
    | into a next =>
      have pos := L.pos a
      rw [Frame.width] at split lower higher ⊢
      refine ⟨off :: before, after ++ next.nodes L (off + (L.head a + (plug ctx f).size L + L.tail)), ?_, ?_, ?_⟩
      · simp [Frame.fill, nodes, split]
      · intro o member
        rcases List.mem_cons.mp member with rfl | other
        · omega
        · exact lower o other
      · intro o member
        rcases List.mem_append.mp member with inside | later
        · exact higher o inside
        · have := nodes_bound L later
          have place := offset_le_size L ctx f
          omega
    | past a below =>
      have pos := L.pos a
      rw [Frame.width] at split lower higher ⊢
      refine ⟨off :: (below.nodes L (off + L.head a) ++ before), after, ?_, ?_, higher⟩
      · simp [Frame.fill, nodes, split]
      · intro o member
        rcases List.mem_cons.mp member with rfl | other
        · omega
        · rcases List.mem_append.mp other with inside | later
          · have := nodes_bound L inside
            omega
          · exact lower o later

theorem filter_from {front back : List Nat} {k : Nat} (lower : ∀ o ∈ front, o < k) (higher : ∀ o ∈ back, k ≤ o) :
    (front ++ back).filter (k ≤ ·) = back := by
  have none : front.filter (k ≤ ·) = [] := by
    refine List.filter_eq_nil_iff.mpr fun o member => ?_
    have := lower o member
    simp only [decide_eq_true_eq]
    omega
  have all : back.filter (k ≤ ·) = back := List.filter_eq_self.mpr fun o member => decide_eq_true (higher o member)
  rw [List.filter_append, none, all, List.nil_append]

theorem filter_nodes (f : Forest α) : ((plug ctx f).nodes L 0).filter (offset L ctx ≤ ·) =
      f.nodes L (offset L ctx) ++ ((plug ctx f).nodes L 0).filter (offset L ctx + f.size L ≤ ·) := by
  obtain ⟨before, after, split, lower, higher⟩ := nodes_plug L ctx f 0
  rw [Nat.zero_add] at split lower higher
  have own : ∀ o ∈ f.nodes L (offset L ctx) ++ after, offset L ctx ≤ o := by
    intro o member
    rcases List.mem_append.mp member with inside | later
    · exact (nodes_bound L inside).1
    · have := higher o later
      omega
  have ended : ∀ o ∈ before ++ f.nodes L (offset L ctx), o < offset L ctx + f.size L := by
    intro o member
    rcases List.mem_append.mp member with early | inside
    · have := lower o early
      omega
    · exact (nodes_bound L inside).2
  rw [split, filter_from lower own, ← List.append_assoc, filter_from ended higher]

/-- The offset of the node that a node is in, of trees that are at `base` in the node at `up`. -/
def parentAt : Forest α → Nat → Option Nat → Nat → Option Nat
  | nil, _, _, _ => none
  | node a below next, base, up, off =>
    if off = 0 then up
    else if off < L.head a then none
    else if off < L.head a + below.size L then below.parentAt (base + L.head a) (some base) (off - L.head a)
    else if off < L.head a + below.size L + L.tail then none
    else
      next.parentAt (base + (L.head a + below.size L + L.tail)) up (off - (L.head a + below.size L + L.tail))

def around : List (Frame α) → Nat → Option Nat → Option Nat
  | [], _, up => up
  | .into a _ :: ctx, base, _ => around ctx (base + L.head a) (some base)
  | .past a below :: ctx, base, up => around ctx (base + (L.head a + below.size L + L.tail)) up

theorem parentAt_plug (a : α) (below next : Forest α) (base : Nat) (up : Option Nat) :
    (plug ctx (node a below next)).parentAt L base up (offset L ctx) = around L ctx base up := by
  induction ctx generalizing base up with
  | nil => simp [parentAt, around]
  | cons frame ctx ih =>
    have inside := offset_lt_size L ctx a below next
    rw [plug_cons, offset_cons]
    cases frame with
    | into b rest =>
      have pos := L.pos b
      rw [Frame.fill, Frame.width, parentAt, if_neg (by omega), if_neg (by omega), if_pos (by omega),
        Nat.add_sub_cancel_left, ih, around]
    | past b sub =>
      have pos := L.pos b
      rw [Frame.fill, Frame.width, parentAt, if_neg (by omega), if_neg (by omega), if_neg (by omega),
        if_neg (by omega), Nat.add_sub_cancel_left, ih, around]

theorem around_into (a : α) (next : Forest α) (base : Nat) (up : Option Nat) :
    around L (ctx ++ [.into a next]) base up = some (base + offset L ctx) := by
  induction ctx generalizing base up with
  | nil => rfl
  | cons frame ctx ih =>
    rw [offset_cons, ← Nat.add_assoc]
    cases frame <;> exact ih ..

theorem around_past (a : α) (below : Forest α) (base : Nat) (up : Option Nat) :
    around L (ctx ++ [.past a below]) base up = around L ctx base up := by
  induction ctx generalizing base up with
  | nil => rfl
  | cons frame ctx ih => cases frame <;> exact ih ..

end

section
variable {α β : Type} [DecidableEq β] (key : α → β)

/-- The node that a path leads to: of trees with the same key, it goes through the first. -/
def find : Forest α → List β → Option α
  | nil, _ => none
  | node _ _ _, [] => none
  | node a below next, k :: path =>
    if key a = k then (if path = [] then some a else below.find path) else next.find (k :: path)

def roots : Forest α → List α
  | nil => []
  | node a _ next => a :: next.roots

/-- Trees next to each other have keys of their own. -/
def Distinct : Forest α → Prop
  | nil => True
  | node a below next => (∀ b ∈ next.roots, key b ≠ key a) ∧ below.Distinct ∧ next.Distinct

instance instDecidableDistinct : (f : Forest α) → Decidable (f.Distinct key)
  | nil => isTrue trivial
  | node a below next =>
    have := instDecidableDistinct below
    have := instDecidableDistinct next
    inferInstanceAs (Decidable ((∀ b ∈ next.roots, key b ≠ key a) ∧ below.Distinct key ∧ next.Distinct key))

def shape : Forest α → Forest β
  | nil => nil
  | node a below next => node (key a) below.shape next.shape

def way : List (Frame α) → List β
  | [] => []
  | .into a _ :: ctx => key a :: way ctx
  | .past _ _ :: ctx => way ctx

def pathTo (L : Layout α) : Forest α → Nat → Option (List β)
  | nil, _ => none
  | node a below next, off =>
    if off = 0 then some [key a]
    else if off < L.head a then none
    else if off < L.head a + below.size L then (below.pathTo L (off - L.head a)).map (key a :: ·)
    else if off < L.head a + below.size L + L.tail then none
    else next.pathTo L (off - (L.head a + below.size L + L.tail))

omit [DecidableEq β] in
theorem pathTo_plug (L : Layout α) (ctx : List (Frame α)) (a : α) (below next : Forest α) :
    (plug ctx (node a below next)).pathTo key L (offset L ctx) = some (way key ctx ++ [key a]) := by
  induction ctx with
  | nil => simp [pathTo, way]
  | cons frame ctx ih =>
    have inside := offset_lt_size L ctx a below next
    rw [plug_cons, offset_cons]
    cases frame with
    | into b rest =>
      have pos := L.pos b
      rw [Frame.fill, Frame.width, pathTo, if_neg (by omega), if_neg (by omega), if_pos (by omega),
        Nat.add_sub_cancel_left, ih]
      rfl
    | past b sub =>
      have pos := L.pos b
      rw [Frame.fill, Frame.width, pathTo, if_neg (by omega), if_neg (by omega), if_neg (by omega),
        if_neg (by omega), Nat.add_sub_cancel_left, ih]
      rfl

variable {path : List β} {f : Forest α}

omit [DecidableEq β] in
theorem pathTo_eq_some {L : Layout α} {off : Nat}
    (found : f.pathTo key L off = some path) :
    ∃ ctx a below next, path = way key ctx ++ [key a] ∧ f = plug ctx (node a below next) ∧ off = offset L ctx := by
  have there : ∃ u, f.suffix L off = some u := by
    induction f generalizing off path with
    | nil => cases found
    | node a below next ihBelow ihNext =>
      rw [pathTo] at found
      rw [suffix]
      split at found
      case isTrue first => exact ⟨_, if_pos first⟩
      case isFalse other =>
        rw [if_neg other]
        split at found
        case isTrue => cases found
        case isFalse past =>
          rw [if_neg past]
          split at found
          case isTrue inside =>
            rw [if_pos inside]
            obtain ⟨deeper, here, -⟩ := Option.map_eq_some_iff.mp found
            exact ihBelow here
          case isFalse outside =>
            rw [if_neg outside]
            split at found
            case isTrue => cases found
            case isFalse after =>
              rw [if_neg after]
              exact ihNext found
  obtain ⟨u, there⟩ := there
  obtain ⟨ctx, a, below, next, rfl, rfl, rfl⟩ := suffix_eq_some L there
  rw [pathTo_plug] at found
  exact ⟨ctx, a, below, next, (Option.some.inj found).symm, rfl, rfl⟩

variable {ctx : List (Frame α)}

omit [DecidableEq β] in
theorem distinct_plug (distinct : (plug ctx f).Distinct key) :
    f.Distinct key := by
  induction ctx with
  | nil => exact distinct
  | cons frame ctx ih =>
    cases frame with
    | into a next => exact ih distinct.2.1
    | past a below => exact ih distinct.2.2

theorem find_nil (f : Forest α) : f.find key [] = none := by
  cases f <;> rfl

theorem find_absent {k : β} (absent : ∀ b ∈ f.roots, key b ≠ k) (path : List β) :
    f.find key (k :: path) = none := by
  induction f with
  | nil => rfl
  | node a below next _ ih =>
    have other : key a ≠ k := absent a (List.mem_cons_self ..)
    rw [find, if_neg other]
    exact ih fun b member => absent b (List.mem_cons_of_mem _ member)

omit [DecidableEq β] in
theorem exists_root (ctx : List (Frame α)) (a : α) (below next : Forest α) (path : List β) :
    ∃ k rest, way key ctx ++ key a :: path = k :: rest ∧ ∃ b ∈ (plug ctx (node a below next)).roots, key b = k := by
  induction ctx with
  | nil => exact ⟨key a, path, rfl, a, List.mem_cons_self .., rfl⟩
  | cons frame ctx ih =>
    cases frame with
    | into b rest => exact ⟨key b, _, rfl, b, List.mem_cons_self .., rfl⟩
    | past b sub =>
      obtain ⟨k, rest, same, c, member, here⟩ := ih
      exact ⟨k, rest, same, c, List.mem_cons_of_mem _ member, here⟩

theorem find_all {P : α → Prop} (all : f.All P) {a : α}
    (found : f.find key path = some a) : P a := by
  induction f generalizing path with
  | nil => cases found
  | node b below next ihBelow ihNext =>
    cases path with
    | nil => cases found
    | cons k path =>
      rw [find] at found
      split at found
      · split at found
        · cases found
          exact all.1
        · exact ihBelow all.2.1 found
      · exact ihNext all.2.2 found

theorem find_way {a a' : α} {below next : Forest α} (same : key a' = key a)
    (distinct : (plug ctx (node a below next)).Distinct key) (below' : Forest α) (path : List β) :
    (plug ctx (node a' below' next)).find key (way key ctx ++ key a :: path) =
      if path = [] then some a' else below'.find key path := by
  induction ctx with
  | nil => simp [way, find, same]
  | cons frame ctx ih =>
    cases frame with
    | into b rest =>
      have deeper := ih distinct.2.1
      rw [plug_cons, Frame.fill, way, List.cons_append, find, if_pos rfl, if_neg (by simp), deeper]
    | past b sub =>
      obtain ⟨k, rest, whole, c, member, here⟩ := exists_root key ctx a below next path
      have other : key b ≠ k := by
        rw [← here]
        exact (distinct.1 c member).symm
      have later := ih distinct.2.2
      rw [plug_cons, Frame.fill, way]
      rw [whole] at later ⊢
      rw [find, if_neg other, later]

theorem find_other {a a' : α} (same : key a' = key a) (below below' next : Forest α) (other : ¬ way key ctx ++ [key a] <+: path) :
    (plug ctx (node a' below' next)).find key path = (plug ctx (node a below next)).find key path := by
  induction ctx generalizing path with
  | nil =>
    cases path with
    | nil => rfl
    | cons k path =>
      have differs : key a ≠ k := by
        rintro rfl
        exact other (by simp [way])
      rw [plug_nil, plug_nil, find, find, same, if_neg differs, if_neg differs]
  | cons frame ctx ih =>
    cases path with
    | nil => rw [find_nil, find_nil]
    | cons k path =>
      rw [plug_cons, plug_cons]
      cases frame with
      | into b rest =>
        rw [Frame.fill, Frame.fill, find, find]
        by_cases here : key b = k
        · have deeper : ¬ way key ctx ++ [key a] <+: path := by
            intro through
            apply other
            rw [way, List.cons_append, here]
            exact List.cons_prefix_cons.mpr ⟨rfl, through⟩
          rw [if_pos here, if_pos here, ih deeper]
        · rw [if_neg here, if_neg here]
      | past b sub =>
        rw [Frame.fill, Frame.fill, find, find, ih other]

variable (join : α → α → α)

/-- The trees of `o` are merged into those of `t` that have their keys, and what is below them into what is below. -/
def mergeInto : Forest α → Forest α → Forest α
  | nil => fun t => t
  | node b below next => fun t =>
    next.mergeInto (t.updateFirst (fun a => key a = key b) fun a sub => (join a b, below.mergeInto sub))

variable {join} (keeps : ∀ a b, key (join a b) = key a)
include keeps

theorem find_updateFirst_other {k l : β} (other : l ≠ k) (b : α) (m : Forest α → Forest α) (t : Forest α)
    (path : List β) : (t.updateFirst (fun a => key a = k) fun a sub => (join a b, m sub)).find key (l :: path) =
      t.find key (l :: path) := by
  induction t with
  | nil => rfl
  | node a below next _ ih =>
    rw [updateFirst]
    by_cases here : key a = k
    · have differs : key a ≠ l := by
        rw [here]
        exact other.symm
      rw [if_pos (by simpa using here), find, find, keeps, if_neg differs, if_neg differs]
    · rw [if_neg (by simpa using here), find, find, ih]

theorem find_updateFirst_root (k : β) (b : α) (m : Forest α → Forest α) (t : Forest α) :
    (t.updateFirst (fun a => key a = k) fun a sub => (join a b, m sub)).find key [k] =
      (t.find key [k]).map fun a => join a b := by
  induction t with
  | nil => rfl
  | node a below next _ ih =>
    rw [updateFirst]
    by_cases here : key a = k
    · rw [if_pos (by simpa using here), find, find, keeps, if_pos here, if_pos here]
      rfl
    · rw [if_neg (by simpa using here), find, find, if_neg here, if_neg here, ih]

variable {m : Forest α → Forest α}

theorem find_updateFirst_below (deeper : path ≠ []) (h : α → α)
    (each : ∀ sub, (m sub).find key path = (sub.find key path).map h) (k : β) (b : α) (t : Forest α) :
    (t.updateFirst (fun a => key a = k) fun a sub => (join a b, m sub)).find key (k :: path) =
      (t.find key (k :: path)).map h := by
  induction t with
  | nil => rfl
  | node a below next _ ih =>
    rw [updateFirst]
    by_cases here : key a = k
    · rw [if_pos (by simpa using here), find, find, keeps, if_pos here, if_pos here, if_neg deeper, if_neg deeper, each]
    · rw [if_neg (by simpa using here), find, find, if_neg here, if_neg here, ih]

theorem find_mergeInto {o : Forest α} (distinct : o.Distinct key) (t : Forest α) (path : List β) :
    (o.mergeInto key join t).find key path = (t.find key path).map fun a => (o.find key path).elim a (join a) := by
  induction o generalizing t path with
  | nil => simp [mergeInto, find]
  | node b below next ihBelow ihNext =>
    obtain ⟨alone, below', next'⟩ := distinct
    rw [mergeInto, ihNext next']
    cases path with
    | nil => simp [find_nil]
    | cons l path =>
      by_cases here : key b = l
      · subst here
        rw [find_absent key alone, find, if_pos rfl]
        cases path with
        | nil =>
          rw [find_updateFirst_root key keeps, if_pos rfl, Option.map_map]
          rfl
        | cons k path =>
          have deeper : k :: path ≠ [] := List.cons_ne_nil k path
          rw [find_updateFirst_below key keeps deeper _ fun sub => ihBelow below' sub (k :: path), if_neg deeper,
            Option.map_map]
          rfl
      · rw [find_updateFirst_other key keeps (Ne.symm here), find, if_neg here]

omit [DecidableEq β] in
theorem shape_updateFirst (wanted : α → Bool) (b : α)
    (each : ∀ sub, (m sub).shape key = sub.shape key) (t : Forest α) :
    (t.updateFirst wanted fun a sub => (join a b, m sub)).shape key = t.shape key := by
  induction t with
  | nil => rfl
  | node a below next _ ih =>
    rw [updateFirst]
    split
    · rw [shape, shape, keeps, each]
    · rw [shape, shape, ih]

theorem shape_mergeInto (o t : Forest α) : (o.mergeInto key join t).shape key = t.shape key := by
  induction o generalizing t with
  | nil => rfl
  | node b below next ihBelow ihNext => rw [mergeInto, ihNext, shape_updateFirst key keeps _ b ihBelow]

omit [DecidableEq β] keeps in
theorem shape_plug {a a' : α} (same : key a' = key a) {below below' : Forest α}
    (inside : below'.shape key = below.shape key) (ctx : List (Frame α)) (next : Forest α) :
    (plug ctx (node a' below' next)).shape key = (plug ctx (node a below next)).shape key := by
  induction ctx with
  | nil => simp [shape, same, inside]
  | cons frame ctx ih =>
    cases frame with
    | into b rest => simp [Frame.fill, shape, ih]
    | past b sub => simp [Frame.fill, shape, ih]

end

end Forest

end Cboot.Lib
