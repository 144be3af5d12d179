import Cboot.PluginManager.Fragment
import Cboot.PluginManager.Overlay

/-!
`pm_override_fragment` looks for `_overlay_` with `tegrabl_dt_get_node_with_name`.
-/

namespace Cboot.PluginManager
open Lib Forest

/-- `strncmp` of two strings, whether it is 0. -/
def strncmp : Nat → Text → Text → Bool
  | 0, _, _ => true
  | _ + 1, [], [] => true
  | n + 1, c :: s, d :: t => c = d && strncmp n s t
  | _ + 1, _, _ => false

/-- What `tegrabl_dt_for_each_node_from` goes through. -/
def nodesFrom (fdt : Dtb) (startNode : Nat) : List Nat :=
  if (fdt.rootAt layout startNode).isSome then (fdt.nodes layout 0).filter (startNode ≤ ·) else []

def tegrablDtGetNodeWithName (fdt : Dtb) (start : Nat) (name : Text) : Option Nat :=
  (nodesFrom fdt start).find? fun iter =>
    (fdtGetName fdt iter).any fun iterName => iterName ≠ [] && strncmp iterName.length name iterName

def tegrablDtGetPropU32 (M : Matchers) (fdt : Dtb) (nd : Nat) (name : Text) : Option UInt32 :=
  (lookup (propsOf fdt nd) name).map fun prop => M.u32ByIdx prop 0

def phandleProp (fdt : Dtb) (nd : Nat) (name : Text) : Option (List UInt8) :=
  (lookup (propsOf fdt nd) name).filter (·.length = 4)

def fdtGetPhandle (M : Matchers) (fdt : Dtb) (nd : Nat) : UInt32 :=
  match (phandleProp fdt nd (ascii "phandle")).or (phandleProp fdt nd (ascii "linux,phandle")) with
  | none => 0
  | some php => M.u32ByIdx php 0

def fdtNodeOffsetByPhandle (M : Matchers) (fdt : Dtb) (phandle : UInt32) : Option Nat :=
  if phandle = 0 ∨ phandle = 0xffffffff then none
  else (fdt.nodes layout 0).find? fun off => fdtGetPhandle M fdt off = phandle

inductive OverrideError where
  | noTarget
  | noPhandle
  | noOverlay
  | overlay (e : PmError)
  deriving DecidableEq, Repr

/-- What is returned, the tree that is left, and the node that is given to `pm_overlay_handle`. -/
structure Outcome where
  result : Except OverrideError Unit
  fdt : Dtb
  merged : Option Nat

def overlayName : Text := ascii "_overlay_"

def pmOverrideFragment (M : Matchers) (fdt fdtBuf : Dtb) (overrideNd : Nat) : Option Outcome :=
  match tegrablDtGetPropU32 M fdtBuf overrideNd (ascii "target") with
  | none => some ⟨.error .noTarget, fdt, none⟩
  | some targetPhd =>
    match fdtNodeOffsetByPhandle M fdt targetPhd with
    | none => some ⟨.error .noPhandle, fdt, none⟩
    | some targetNd =>
      match tegrablDtGetNodeWithName fdtBuf overrideNd overlayName with
      | none => some ⟨.error .noOverlay, fdt, none⟩
      | some overlayNd =>
        (pmOverlayHandle fdt targetNd fdtBuf overlayNd).map fun (result, fdt) =>
          ⟨result.mapError .overlay, fdt, some overlayNd⟩

def inside (fdt : Dtb) (nd : Nat) : List Nat :=
  match fdt.suffix layout nd with
  | some (.node a below _) => below.nodes layout (nd + layout.head a)
  | _ => []

def following (fdt : Dtb) (nd : Nat) : List Nat :=
  match fdt.suffix layout nd with
  | some (.node a below _) => (fdt.nodes layout 0).filter (nd + (layout.head a + below.size layout + layout.tail) ≤ ·)
  | _ => []

structure OwnOverlay (fdt fdtBuf : Dtb) (overrideNd : Nat) (o : Outcome) : Prop where
  own : ∀ nd ∈ o.merged, nd ∈ inside fdtBuf overrideNd ∧ fdtGetName fdtBuf nd = some overlayName
  missing : (∀ nd ∈ inside fdtBuf overrideNd, fdtGetName fdtBuf nd ≠ some overlayName) →
    (∃ e, o.result = .error e) ∧ o.fdt = fdt

def Targeted (M : Matchers) (fdt fdtBuf : Dtb) (overrideNd : Nat) : Prop :=
  ∃ phd, tegrablDtGetPropU32 M fdtBuf overrideNd (ascii "target") = some phd ∧ (fdtNodeOffsetByPhandle M fdt phd).isSome

/-- A node is named as `_overlay_` begins. -/
def Abbreviated (fdt : Dtb) (nd : Nat) : Prop := ∃ name, fdtGetName fdt nd = some name ∧ name ≠ [] ∧ name <+: overlayName

def OverlayFirst (fdtBuf : Dtb) (overrideNd : Nat) : Prop :=
  ∃ before nd rest, inside fdtBuf overrideNd = before ++ nd :: rest ∧ fdtGetName fdtBuf nd = some overlayName ∧
    ∀ b ∈ before, ¬ Abbreviated fdtBuf b

def Meets (M : Matchers) (fdt fdtBuf : Dtb) (overrideNd : Nat) : Prop :=
  Targeted M fdt fdtBuf overrideNd → ¬ Abbreviated fdtBuf overrideNd ∧ (OverlayFirst fdtBuf overrideNd ∨
        ∀ nd ∈ inside fdtBuf overrideNd ++ following fdtBuf overrideNd, ¬ Abbreviated fdtBuf nd)

section
variable {M : Matchers} {fdt fdtBuf : Dtb} {overrideNd nd : Nat} {ctx : List (Frame Node)} {a : Node} {below next : Dtb}

theorem inside_plug : inside (plug ctx (.node a below next)) (offset layout ctx) =
    below.nodes layout (offset layout ctx + layout.head a) := by
  rw [inside, suffix_plug]

theorem following_plug : following (plug ctx (.node a below next)) (offset layout ctx) =
    ((plug ctx (.node a below next)).nodes layout 0).filter (offset layout (ctx ++ [.past a below]) ≤ ·) := by
  rw [following, suffix_plug, offset_concat]
  rfl

theorem nodesFrom_plug : nodesFrom (plug ctx (.node a below next)) (offset layout ctx) =
    offset layout ctx :: (inside (plug ctx (.node a below next)) (offset layout ctx) ++
      following (plug ctx (.node a below next)) (offset layout ctx)) := by
  have there : ((plug ctx (.node a below next)).rootAt layout (offset layout ctx)).isSome := by
    rw [rootAt_plug]
    rfl
  have fromHere := filter_nodes layout ctx (.node a below next)
  have behind := filter_nodes layout (ctx ++ [.past a below]) next
  have place : offset layout (ctx ++ [.past a below]) =
      offset layout ctx + (layout.head a + below.size layout + layout.tail) := offset_concat ..
  have wide : offset layout ctx + (Forest.node a below next).size layout =
      offset layout (ctx ++ [.past a below]) + next.size layout := by
    rw [place, size]
    omega
  rw [plug_concat, Frame.fill] at behind
  rw [wide, nodes, ← place] at fromHere
  rw [nodesFrom, if_pos there, fromHere, inside_plug, following_plug, behind, List.cons_append, List.append_assoc]

theorem not_inside : overrideNd ∉ inside fdtBuf overrideNd := by
  intro member
  rw [inside] at member
  split at member
  next a below _ _ =>
    have pos := layout.pos a
    have := nodes_bound layout member
    omega
  next => cases member

theorem strncmp_iff (s t : Text) : strncmp t.length s t = true ↔ t <+: s := by
  induction t generalizing s with
  | nil => simp [strncmp]
  | cons d t ih =>
    cases s with
    | nil => simp [strncmp]
    | cons c s =>
      rw [List.length_cons, strncmp, Bool.and_eq_true, decide_eq_true_eq, ih, List.cons_prefix_cons, eq_comm]

def abbreviated (fdt : Dtb) (nd : Nat) : Bool :=
  (fdtGetName fdt nd).any fun iterName => iterName ≠ [] && strncmp iterName.length overlayName iterName

theorem abbreviated_iff : abbreviated fdt nd = true ↔ Abbreviated fdt nd := by
  simp [abbreviated, Abbreviated, Option.any_eq_true, strncmp_iff]

theorem abbreviated_overlay (named : fdtGetName fdt nd = some overlayName) : abbreviated fdt nd = true :=
  abbreviated_iff.mpr ⟨overlayName, named, by decide, List.prefix_rfl⟩

theorem overlayFirst_iff : OverlayFirst fdtBuf overrideNd ↔
    ∃ nd, (inside fdtBuf overrideNd).find? (abbreviated fdtBuf) = some nd ∧ fdtGetName fdtBuf nd = some overlayName := by
  constructor
  · rintro ⟨before, nd, rest, split, named, none⟩
    have first : ∀ b ∈ before, (!abbreviated fdtBuf b) = true := by
      intro b member
      rw [Bool.not_eq_true', Bool.eq_false_iff]
      exact fun short => none b member (abbreviated_iff.mp short)
    exact ⟨nd, List.find?_eq_some_iff_append.mpr ⟨abbreviated_overlay named, before, rest, split, first⟩, named⟩
  · rintro ⟨nd, found, named⟩
    obtain ⟨-, before, rest, split, none⟩ := List.find?_eq_some_iff_append.mp found
    refine ⟨before, nd, rest, split, named, fun b member short => ?_⟩
    have := none b member
    rw [abbreviated_iff.mpr short] at this
    cases this

theorem overlayChildren_total {handle : Dtb → Nat → Nat → Option (Except PmError Unit × Dtb)} {targetNd : Nat}
    {list : List Nat} (each : ∀ child ∈ list, ∀ fdt nd, (handle fdt nd child).isSome) (fdt : Dtb) :
    (overlayChildren handle fdtBuf targetNd list fdt).isSome := by
  induction list generalizing fdt with
  | nil => rfl
  | cons child list ih =>
    have later := ih fun child member => each child (List.mem_cons_of_mem _ member)
    rw [overlayChildren]
    split
    next => exact later fdt
    next tchildNd _ =>
      have handled := each child (List.mem_cons_self ..) fdt tchildNd
      split
      next => exact later _
      next => exact handled

theorem overlayHandle_total {fuel : Nat} (place : fdtBuf = plug ctx (.node a below next)) (deep : below.size layout < fuel)
    (fdt : Dtb) (targetNd : Nat) : (overlayHandle fdtBuf fuel fdt targetNd (offset layout ctx)).isSome := by
  induction fuel generalizing ctx a below next fdt targetNd with
  | zero => omega
  | succ fuel ih =>
    rw [overlayHandle]
    split
    next => rfl
    next fdt _ =>
      refine overlayChildren_total (fun child member fdt nd => ?_) fdt
      rw [place, children_plug] at member
      obtain ⟨found, b, sub, rest, same, rfl, smaller⟩ := mem_offsets layout member
      rw [plug_concat] at same
      exact ih (place.trans same) (by omega) fdt nd

theorem pmOverlayHandle_total (found : (fdtBuf.rootAt layout nd).isSome) (fdt : Dtb) (targetNd : Nat) :
    (pmOverlayHandle fdt targetNd fdtBuf nd).isSome := by
  obtain ⟨ctx, a, below, next, rfl, rfl⟩ := exists_of_rootAt layout found
  have pos := layout.pos a
  have wide := size_le_plug layout ctx (.node a below next)
  rw [size] at wide
  exact overlayHandle_total rfl (by omega) fdt targetNd

theorem targeted_place (targeted : Targeted M fdt fdtBuf overrideNd) :
    ∃ ctx a below next, fdtBuf = plug ctx (.node a below next) ∧ overrideNd = offset layout ctx := by
  obtain ⟨phd, read, -⟩ := targeted
  refine exists_of_rootAt layout (Option.isSome_iff_ne_none.mpr fun none => ?_)
  rw [tegrablDtGetPropU32, propsOf, none] at read
  cases read

theorem getNodeWithName_eq (targeted : Targeted M fdt fdtBuf overrideNd) :
    tegrablDtGetNodeWithName fdtBuf overrideNd overlayName =
      if abbreviated fdtBuf overrideNd then some overrideNd
      else ((inside fdtBuf overrideNd).find? (abbreviated fdtBuf)).or
        ((following fdtBuf overrideNd).find? (abbreviated fdtBuf)) := by
  obtain ⟨ctx, a, below, next, rfl, rfl⟩ := targeted_place targeted
  rw [tegrablDtGetNodeWithName, nodesFrom_plug]
  change List.find? (abbreviated _) _ = _
  rw [List.find?_cons, List.find?_append]
  cases abbreviated (plug ctx (.node a below next)) (offset layout ctx) <;> rfl

theorem found_iff (targeted : Targeted M fdt fdtBuf overrideNd) :
    (∀ nd, tegrablDtGetNodeWithName fdtBuf overrideNd overlayName = some nd →
        nd ∈ inside fdtBuf overrideNd ∧ fdtGetName fdtBuf nd = some overlayName) ↔ ¬ Abbreviated fdtBuf overrideNd ∧
        (OverlayFirst fdtBuf overrideNd ∨
          ∀ nd ∈ inside fdtBuf overrideNd ++ following fdtBuf overrideNd, ¬ Abbreviated fdtBuf nd) := by
  rw [getNodeWithName_eq targeted, overlayFirst_iff, ← abbreviated_iff]
  by_cases own : abbreviated fdtBuf overrideNd = true
  · rw [if_pos own]
    constructor
    · intro all
      exact absurd (all _ rfl).1 not_inside
    · rintro ⟨other, -⟩
      exact absurd own other
  rw [if_neg own]
  cases below : (inside fdtBuf overrideNd).find? (abbreviated fdtBuf) with
  | some nd =>
    have member := List.mem_of_find?_eq_some below
    have short := List.find?_some below
    constructor
    · intro all
      exact ⟨own, .inl ⟨nd, rfl, (all nd rfl).2⟩⟩
    · rintro ⟨-, ⟨o, same, named⟩ | clear⟩ found taken
      · cases same
        cases taken
        exact ⟨member, named⟩
      · exact absurd (abbreviated_iff.mp short) (clear nd (List.mem_append_left _ member))
  | none =>
    have unabbreviated := List.find?_eq_none.mp below
    cases behind : (following fdtBuf overrideNd).find? (abbreviated fdtBuf) with
    | some nd =>
      have short := List.find?_some behind
      constructor
      · intro all
        exact absurd short (unabbreviated nd (all nd rfl).1)
      · rintro ⟨-, ⟨o, same, -⟩ | clear⟩
        · cases same
        · have member := List.mem_append_right (inside fdtBuf overrideNd) (List.mem_of_find?_eq_some behind)
          exact absurd (abbreviated_iff.mp short) (clear nd member)
    | none =>
      have clear := List.find?_eq_none.mp behind
      constructor
      · refine fun _ => ⟨own, .inr fun nd member short => ?_⟩
        rcases List.mem_append.mp member with inside | after
        · exact unabbreviated nd inside (abbreviated_iff.mpr short)
        · exact clear nd after (abbreviated_iff.mpr short)
      · intro _ nd found
        cases found

theorem found_isSome (found : tegrablDtGetNodeWithName fdt overrideNd overlayName = some nd) :
    (fdt.rootAt layout nd).isSome := by
  have short := List.find?_some found
  obtain ⟨name, named, -⟩ := (Option.any_eq_true ..).mp short
  obtain ⟨root, there, -⟩ := Option.map_eq_some_iff.mp named
  rw [there]
  rfl

/-- The search for the overlay goes on behind the override, and takes a prefix of the name for it. -/
theorem pmOverrideFragment_iff (M : Matchers) (fdt fdtBuf : Dtb) (overrideNd : Nat) :
    ∃ o, pmOverrideFragment M fdt fdtBuf overrideNd = some o ∧
      (OwnOverlay fdt fdtBuf overrideNd o ↔ Meets M fdt fdtBuf overrideNd) := by
  rw [pmOverrideFragment]
  cases target : tegrablDtGetPropU32 M fdtBuf overrideNd (ascii "target") with
  | none =>
    refine ⟨_, rfl, iff_of_true ⟨by simp, fun _ => ⟨⟨_, rfl⟩, rfl⟩⟩ ?_⟩
    rintro ⟨phd, read, -⟩
    rw [target] at read
    cases read
  | some targetPhd =>
    dsimp only
    cases phandle : fdtNodeOffsetByPhandle M fdt targetPhd with
    | none =>
      refine ⟨_, rfl, iff_of_true ⟨by simp, fun _ => ⟨⟨_, rfl⟩, rfl⟩⟩ ?_⟩
      rintro ⟨phd, read, some⟩
      obtain rfl : targetPhd = phd := Option.some.inj (target.symm.trans read)
      rw [phandle] at some
      cases some
    | some targetNd =>
      dsimp only
      have targeted : Targeted M fdt fdtBuf overrideNd := ⟨targetPhd, target, by rw [phandle]; rfl⟩
      have meets : Meets M fdt fdtBuf overrideNd ↔ _ := ⟨fun meets => meets targeted, fun met _ => met⟩
      rw [meets, ← found_iff targeted]
      cases search : tegrablDtGetNodeWithName fdtBuf overrideNd overlayName with
      | none => exact ⟨_, rfl, iff_of_true ⟨by simp, fun _ => ⟨⟨_, rfl⟩, rfl⟩⟩ (by simp)⟩
      | some overlayNd =>
        dsimp only
        obtain ⟨handled, result⟩ := Option.isSome_iff_exists.mp (pmOverlayHandle_total (found_isSome search) fdt targetNd)
        refine ⟨_, by rw [result]; rfl, ?_⟩
        constructor
        · rintro ⟨own, -⟩ nd found
          exact own nd found
        · intro own
          refine ⟨fun nd found => own nd found, fun missing => ?_⟩
          have ⟨member, named⟩ := own overlayNd rfl
          exact absurd named (missing overlayNd member)

end

def memory : Matchers := ⟨fun _ _ => false, fun _ _ => false, fun _ => 0⟩

def target : Property := ⟨ascii "target", [0, 0, 0, 7]⟩

def overrides : Dtb :=
  .node ⟨[], []⟩
    (.node ⟨ascii "fragment@0", []⟩
      (.node ⟨ascii "override@0", [target]⟩ .nil
        (.node ⟨ascii "override@1", [target]⟩ (.node ⟨overlayName, []⟩ uartOverlay .nil) .nil)) .nil) .nil

/-- The first takes the overlay of the second. -/
theorem pmOverrideFragment_follows :
    ¬ ∀ M fdt fdtBuf overrideNd o, pmOverrideFragment M fdt fdtBuf overrideNd = some o →
      OwnOverlay fdt fdtBuf overrideNd o := by
  intro all
  have merges : (pmOverrideFragment memory uartTree overrides 24).map (·.merged) = some (some 92) := by decide
  obtain ⟨o, run, merged⟩ := Option.map_eq_some_iff.mp merges
  have ⟨member, _⟩ := (all memory uartTree overrides 24 o run).own 92 merged
  revert member
  decide

end Cboot.PluginManager
