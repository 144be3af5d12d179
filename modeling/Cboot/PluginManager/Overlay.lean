import Cboot.PluginManager.Model

/-!
The offsets of the nodes that are still to be changed stay what they are: what is set is always at a node, so
before all that is below it, and children are looked up again by their names.
-/

namespace Cboot.PluginManager
open Lib Forest

def joinProps (old new : List Property) : List Property :=
  new.foldl (fun props p => if skipped p.name then props else setProp p.name p.value props) old

def overlaid (a b : Node) : Node := a.edit fun props => joinProps props b.props

theorem overlaid_name (a b : Node) : (overlaid a b).name = a.name := rfl

def Plain (node : Node) : Prop :=
  ∀ p ∈ node.props, p.name ≠ deleteTargetProperty ∧ p.name ≠ appendStringProperty

def Named (node : Node) : Prop := node.name ≠ []

instance : DecidablePred Plain := fun node => inferInstanceAs (Decidable (∀ p ∈ node.props, _))

instance : DecidablePred Named := fun node => inferInstanceAs (Decidable (node.name ≠ []))

def Separate (node : Node) : Prop := (node.props.map (·.name)).Nodup

instance : DecidablePred Separate := fun node => inferInstanceAs (Decidable (node.props.map (·.name)).Nodup)

section
variable {ctx : List (Frame Node)} {a : Node} {below next : Dtb}

theorem getName_plug : fdtGetName (plug ctx (.node a below next)) (offset layout ctx) = some a.name := by
  rw [fdtGetName, rootAt_plug]
  rfl

theorem propsOf_plug : propsOf (plug ctx (.node a below next)) (offset layout ctx) = a.props := by
  rw [propsOf, rootAt_plug]
  rfl

theorem children_plug : children (plug ctx (.node a below next)) (offset layout ctx) =
    below.offsets layout (offset layout (ctx ++ [.into a next])) := by
  rw [children, suffix_plug, offset_concat]
  rfl

theorem setprop_plug (name value : List UInt8) :
    fdtSetprop (plug ctx (.node a below next)) (offset layout ctx) name value =
      some (plug ctx (.node (a.edit (setProp name value)) below next)) := by
  rw [fdtSetprop, rootAt_plug, if_pos Option.isSome_some, update_plug]

theorem pmDoPropOverlay_plug (props : List Property)
    (plain : ∀ p ∈ props, p.name ≠ deleteTargetProperty ∧ p.name ≠ appendStringProperty) :
    pmDoPropOverlay (offset layout ctx) props (plug ctx (.node a below next)) =
      (.ok (), plug ctx (.node (a.edit fun old => joinProps old props) below next)) := by
  induction props generalizing a with
  | nil => rfl
  | cons p props ih =>
    have rest := fun q member => plain q (List.mem_cons_of_mem p member)
    obtain ⟨keep, add⟩ := plain p (List.mem_cons_self ..)
    rw [pmDoPropOverlay]
    by_cases skip : skipped p.name = true
    · rw [if_pos skip, ih rest]
      simp [Node.edit, joinProps, skip]
    · rw [if_neg skip, if_neg keep, if_neg add, setprop_plug]
      dsimp only
      rw [ih rest]
      simp [Node.edit, joinProps, skip]

theorem getChild_plug {name : Text} (some : name ≠ []) :
    tegrablDtGetChildWithName (plug ctx (.node a below next)) (offset layout ctx) name =
      (below.offsets layout (offset layout (ctx ++ [.into a next]))).find? fun off =>
        ((plug (ctx ++ [.into a next]) below).rootAt layout off).any fun node => node.name = name := by
  unfold tegrablDtGetChildWithName
  rw [children_plug, plug_concat]
  refine congrArg (fun wanted => List.find? wanted _) (funext fun off => ?_)
  unfold fdtGetName
  rw [Frame.fill]
  cases (plug ctx (.node a below next)).rootAt layout off with
  | none => rfl
  | some node =>
    by_cases same : node.name = name
    · simp [same, some]
    · simp [same, Ne.symm same]

end

theorem overlayHandle_plug {tctx bctx : List (Frame Node)} {a b : Node} {below next sub rest : Dtb} {fuel : Nat}
    {r : Option (Except PmError Unit × Dtb)} (plain : Plain b)
    (inside : overlayChildren (overlayHandle (plug bctx (.node b sub rest)) fuel) (plug bctx (.node b sub rest))
      (offset layout tctx) (sub.offsets layout (offset layout (bctx ++ [.into b rest])))
      (plug tctx (.node (overlaid a b) below next)) = r) :
    overlayHandle (plug bctx (.node b sub rest)) (fuel + 1) (plug tctx (.node a below next)) (offset layout tctx)
      (offset layout bctx) = r := by
  rw [overlayHandle, propsOf_plug, children_plug, pmDoPropOverlay_plug _ plain]
  exact inside

theorem overlayChildren_plug (o : Dtb) (plain : o.All Plain) (named : o.All Named) (bctx tctx : List (Frame Node))
    (a : Node) (below next : Dtb) (fuel : Nat) (enough : o.size layout ≤ fuel) :
    overlayChildren (overlayHandle (plug bctx o) fuel) (plug bctx o) (offset layout tctx)
        (o.offsets layout (offset layout bctx)) (plug tctx (.node a below next)) =
      some (.ok (), plug tctx (.node a (o.mergeInto Node.name overlaid below) next)) := by
  induction o generalizing bctx tctx a below next fuel with
  | nil => rfl
  | node b sub rest ihSub ihRest =>
    obtain ⟨plainB, plainSub, plainRest⟩ := plain
    obtain ⟨namedB, namedSub, namedRest⟩ := named
    have pos := layout.pos b
    rw [size] at enough
    rw [offsets, overlayChildren, getName_plug, Option.getD_some, getChild_plug namedB]
    have later := fun (below : Dtb) => ihRest plainRest namedRest (bctx ++ [.past b sub]) tctx a below next fuel
      (by omega)
    rw [offset_concat, plug_concat] at later
    rcases find_offsets layout (fun node => node.name = b.name) (tctx ++ [.into a next]) below with
      ⟨absent, same⟩ | ⟨found, c, csub, cnext, here, place, finds, updates⟩
    · rw [absent]
      dsimp only
      rw [mergeInto]
      dsimp only
      rw [same]
      exact later below
    · rw [finds]
      dsimp only
      obtain ⟨fuel, rfl⟩ : ∃ k, fuel = k + 1 := ⟨fuel - 1, by omega⟩
      -- the child is at an offset of the tree as it is now, and what it becomes is in its place
      have inside := ihSub plainSub namedSub (bctx ++ [.into b rest]) found (overlaid c b) csub cnext fuel (by omega)
      have updated := updates fun c csub => (overlaid c b, sub.mergeInto Node.name overlaid csub)
      rw [plug_concat] at place inside updated
      have handled := overlayHandle_plug plainB inside
      rw [← place, ← updated] at handled
      change overlayHandle _ (fuel + 1) (plug tctx (.node a below next)) _ _ = _ at handled
      rw [handled]
      dsimp only
      rw [mergeInto]
      exact later _

theorem pmOverlayHandle_plug (tctx bctx : List (Frame Node)) (a b : Node) (below next sub rest : Dtb)
    (plainB : Plain b) (plain : sub.All Plain) (named : sub.All Named) :
    pmOverlayHandle (plug tctx (.node a below next)) (offset layout tctx) (plug bctx (.node b sub rest))
        (offset layout bctx) =
      some (.ok (), plug tctx (.node (overlaid a b) (sub.mergeInto Node.name overlaid below) next)) := by
  have wide := size_le_plug layout bctx (.node b sub rest)
  have pos := layout.pos b
  rw [size] at wide
  unfold pmOverlayHandle
  obtain ⟨fuel, more⟩ : ∃ k, (plug bctx (.node b sub rest)).size layout = k + 1 :=
    ⟨_ - 1, (Nat.sub_add_cancel (by omega)).symm⟩
  rw [more]
  refine overlayHandle_plug plainB ?_
  have inside := overlayChildren_plug sub plain named (bctx ++ [.into b rest]) tctx (overlaid a b) below next fuel
    (by omega)
  rw [plug_concat] at inside
  exact inside

structure WellFormed (fdt : Dtb) : Prop where
  rooted : ∃ root below, fdt = .node root below .nil ∧ below.All Named
  distinct : fdt.Distinct Node.name
  separate : fdt.All Separate

def valueAt (fdt : Dtb) (path : List Text) (name : Text) : Option (List UInt8) :=
  (fdt.find Node.name path).bind fun node => lookup node.props name

def under (b : Node) (sub : Dtb) (path : List Text) : Option Node :=
  if path = [] then some b else sub.find Node.name path

/-- The tree `r` is `fdt` with the overlay merged into its node `target`. -/
structure Merged (fdt : Dtb) (target : List Text) (overlay : List Text → Option Node) (r : Dtb) : Prop where
  shape : r.shape Node.name = fdt.shape Node.name
  set : ∀ path node b, fdt.find Node.name (target ++ path) = some node → overlay path = some b →
    ∀ p ∈ b.props, skipped p.name = false → valueAt r (target ++ path) p.name = some p.value
  kept : ∀ path name, (skipped name = true ∨ ∀ b, overlay path = some b → ∀ p ∈ b.props, p.name ≠ name) →
    valueAt r (target ++ path) name = valueAt fdt (target ++ path) name
  order : ∀ path node, fdt.find Node.name (target ++ path) = some node → ∃ node', r.find Node.name (target ++ path) =
    some node' ∧ node.props.map (·.name) <:+ node'.props.map (·.name)
  apart : ∀ path, overlay path = none → r.find Node.name (target ++ path) = fdt.find Node.name (target ++ path)
  outside : ∀ path, ¬ target <+: path → r.find Node.name path = fdt.find Node.name path

section
variable {name value : Text} {props : List Property}

theorem lookup_cons (p : Property) : lookup (p :: props) name = if p.name = name then some p.value else lookup props name := by
  unfold lookup
  by_cases here : p.name = name
  · simp [here]
  · simp [here]

theorem lookup_none (absent : ∀ p ∈ props, p.name ≠ name) : lookup props name = none := by
  simpa [lookup, List.find?_eq_none] using absent

theorem lookup_replaceProp (m : Text) : lookup (replaceProp name value props) m =
    if m = name then (lookup props name).map fun _ => value else lookup props m := by
  induction props with
  | nil => simp [replaceProp, lookup]
  | cons p props ih =>
    rw [replaceProp]
    by_cases here : p.name = name
    · rw [if_pos here, lookup_cons, lookup_cons, lookup_cons, if_pos here]
      by_cases same : m = name
      · simp [same]
      · simp [same, here, Ne.symm same]
    · rw [if_neg here, lookup_cons, ih, lookup_cons, lookup_cons, if_neg here]
      by_cases same : m = name
      · simp [same, here]
      · simp [same]

theorem lookup_setProp (m : Text) :
    lookup (setProp name value props) m = if m = name then some value else lookup props m := by
  unfold setProp
  split
  case isTrue present =>
    rw [lookup_replaceProp]
    split
    · obtain ⟨found, here⟩ : ∃ found, lookup props name = some found := by
        refine Option.isSome_iff_exists.mp ?_
        simpa [lookup, List.find?_isSome] using present
      rw [here]
      rfl
    · rfl
  case isFalse =>
    rw [lookup_cons]
    by_cases same : m = name
    · simp [same]
    · simp [same, Ne.symm same]

theorem names_replaceProp : (replaceProp name value props).map (·.name) = props.map (·.name) := by
  induction props with
  | nil => rfl
  | cons p props ih =>
    rw [replaceProp]
    split
    case isTrue here => simp [here]
    case isFalse => simp [ih]

theorem names_setProp : props.map (·.name) <:+ (setProp name value props).map (·.name) := by
  unfold setProp
  split
  · simp only [names_replaceProp, List.suffix_refl]
  · exact List.suffix_cons ..

theorem names_joinProps (old new : List Property) : old.map (·.name) <:+ (joinProps old new).map (·.name) := by
  unfold joinProps
  induction new generalizing old with
  | nil => exact List.suffix_refl _
  | cons p new ih =>
    rw [List.foldl_cons]
    split
    · exact ih old
    · exact names_setProp.trans (ih _)

theorem lookup_joinProps (old new : List Property) (separate : (new.map (·.name)).Nodup) :
    lookup (joinProps old new) name = if skipped name then lookup old name else (lookup new name).or (lookup old name) := by
  unfold joinProps
  induction new generalizing old with
  | nil => simp [lookup]
  | cons p new ih =>
    rw [List.map_cons, List.nodup_cons] at separate
    rw [List.foldl_cons, ih _ separate.2, lookup_cons]
    by_cases here : p.name = name
    · subst here
      have single : lookup new p.name = none :=
        lookup_none fun q member same => separate.1 (same ▸ List.mem_map_of_mem member)
      by_cases skip : skipped p.name = true
      · simp [skip]
      · simp [skip, single, lookup_setProp]
    · rw [if_neg here]
      by_cases skip : skipped p.name = true
      · simp [skip]
      · simp [skip, lookup_setProp, Ne.symm here]

theorem lookup_mem (separate : (props.map (·.name)).Nodup) {p : Property} (member : p ∈ props) :
    lookup props p.name = some p.value := by
  induction props with
  | nil => cases member
  | cons q props ih =>
    rw [List.map_cons, List.nodup_cons] at separate
    rw [lookup_cons]
    rcases List.mem_cons.mp member with rfl | later
    · rw [if_pos rfl]
    · have other : q.name ≠ p.name := by
        intro same
        exact separate.1 (same ▸ List.mem_map_of_mem later)
      rw [if_neg other, ih separate.2 later]

end

section
variable {tctx : List (Frame Node)} {a b : Node} {below next sub : Dtb}

theorem find_merged (distinct : (plug tctx (.node a below next)).Distinct Node.name) (distinctSub : sub.Distinct Node.name)
    (path : List Text) : (plug tctx (.node (overlaid a b) (sub.mergeInto Node.name overlaid below) next)).find Node.name
        (way Node.name tctx ++ [a.name] ++ path) =
      ((plug tctx (.node a below next)).find Node.name (way Node.name tctx ++ [a.name] ++ path)).map
        fun node => (under b sub path).elim node (overlaid node) := by
  have same : a.name = a.name := rfl
  have new := find_way Node.name (overlaid_name a b) distinct (sub.mergeInto Node.name overlaid below) path
  have old := find_way Node.name same distinct below path
  rw [List.append_assoc, List.singleton_append, new, old]
  unfold under
  by_cases here : path = []
  · rw [if_pos here, if_pos here, if_pos here]
    rfl
  · rw [if_neg here, if_neg here, if_neg here, find_mergeInto Node.name overlaid_name distinctSub]

theorem merged_plug (distinct : (plug tctx (.node a below next)).Distinct Node.name) (distinctSub : sub.Distinct Node.name)
    (separateB : Separate b) (separate : sub.All Separate) :
    Merged (plug tctx (.node a below next)) (way Node.name tctx ++ [a.name]) (under b sub)
      (plug tctx (.node (overlaid a b) (sub.mergeInto Node.name overlaid below) next)) := by
  have found := find_merged (b := b) distinct distinctSub
  have own : ∀ path b', under b sub path = some b' → Separate b' := by
    intro path b' there
    unfold under at there
    split at there
    · cases there
      exact separateB
    · exact find_all Node.name separate there
  constructor
  · exact shape_plug Node.name (overlaid_name a b) (shape_mergeInto Node.name overlaid_name sub below) tctx next
  · intro path node b' here there p member taken
    unfold valueAt
    rw [found, here, there]
    change lookup (joinProps node.props b'.props) p.name = _
    rw [lookup_joinProps _ _ (own path b' there), taken, lookup_mem (own path b' there) member]
    rfl
  · intro path name left
    unfold valueAt
    rw [found]
    cases (plug tctx (.node a below next)).find Node.name (way Node.name tctx ++ [a.name] ++ path) with
    | none => rfl
    | some node =>
      cases there : under b sub path with
      | none => rfl
      | some b' =>
        change lookup (joinProps node.props b'.props) name = lookup node.props name
        rw [lookup_joinProps _ _ (own path b' there)]
        rcases left with skip | absent
        · rw [if_pos skip]
        · rw [lookup_none (absent b' there)]
          simp
  · intro path node here
    refine ⟨_, by rw [found, here, Option.map_some], ?_⟩
    cases under b sub path with
    | none => exact List.suffix_refl _
    | some b' => exact names_joinProps _ _
  · intro path absent
    rw [found, absent]
    simp
  · intro path other
    exact find_other Node.name (overlaid_name a b) below _ next other

theorem WellFormed.named (wellFormed : WellFormed (plug tctx (.node a below next))) : below.All Named := by
  obtain ⟨⟨root, sub, same, named⟩, -, -⟩ := wellFormed
  cases tctx with
  | nil =>
    cases same
    exact named
  | cons frame tctx =>
    rw [plug_cons] at same
    cases frame with
    | into c rest =>
      cases same
      exact (all_plug named).2.1
    | past c rest =>
      exfalso
      obtain ⟨-, -, none⟩ := node.inj same
      cases tctx with
      | nil => cases none
      | cons frame tctx => cases frame <;> cases none

end

/-- An overlay of a well-formed tree, at any node of it, is merged into the target's node, whatever that is. -/
theorem overlay_merges {fdt fdtBuf : Dtb} {targetNd overlayNd : Nat} {target : List Text} {b : Node} {sub rest : Dtb}
    (wellFormed : WellFormed fdt) (wellFormedBuf : WellFormed fdtBuf)
    (place : fdt.pathTo Node.name layout targetNd = some target)
    (overlay : fdtBuf.suffix layout overlayNd = some (.node b sub rest)) (plain : (Forest.node b sub .nil).All Plain) :
    ∃ r, pmOverlayHandle fdt targetNd fdtBuf overlayNd = some (.ok (), r) ∧ Merged fdt target (under b sub) r := by
  obtain ⟨bctx, b', sub', rest', same, rfl, rfl⟩ := suffix_eq_some layout overlay
  obtain ⟨rfl, rfl, rfl⟩ := node.inj same
  obtain ⟨tctx, a, below, next, rfl, rfl, rfl⟩ := pathTo_eq_some Node.name place
  have own := all_plug wellFormedBuf.separate
  refine ⟨_, pmOverlayHandle_plug tctx bctx a b below next sub rest plain.1 plain.2.1 wellFormedBuf.named, ?_⟩
  exact merged_plug wellFormed.distinct (distinct_plug Node.name wellFormedBuf.distinct).2.1 own.1 own.2.1

def uart : Node := ⟨ascii "uart", [⟨ascii "status", ascii "disabled"⟩, ⟨ascii "phandle", [0, 0, 0, 7]⟩]⟩

def uartTree : Dtb := .node ⟨[], []⟩ (.node ⟨ascii "soc", []⟩ (.node uart .nil .nil) .nil) .nil

def uartOverlay : Dtb := .node ⟨ascii "uart", [⟨ascii "status", ascii "okay"⟩, ⟨ascii "baud", [9]⟩]⟩ .nil .nil

/-- `/soc/uart` gets the `status` of the overlay, and a property that it did not have. -/
theorem overlay_merges_uart :
    ∃ r, pmOverlayHandle uartTree 8 (.node ⟨[], []⟩ (.node ⟨ascii "_overlay_", []⟩ uartOverlay .nil) .nil) 8 =
        some (.ok (), r) ∧ Merged uartTree [[], ascii "soc"] (under ⟨ascii "_overlay_", []⟩ uartOverlay) r := by
  have overlay : (Forest.node ⟨[], []⟩ (.node ⟨ascii "_overlay_", []⟩ uartOverlay .nil) .nil).suffix layout 8 =
      some (.node ⟨ascii "_overlay_", []⟩ uartOverlay .nil) := by decide
  exact overlay_merges ⟨⟨_, _, rfl, by decide⟩, by decide, by decide⟩
    ⟨⟨_, _, rfl, by decide⟩, by decide, by decide⟩ (by decide) overlay (by decide)

end Cboot.PluginManager
