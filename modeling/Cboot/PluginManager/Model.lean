import Cboot.Lib.Forest

/-!
`lib/plugin_manager/tegrabl_plugin_manager.c` changes a device tree after what is in a copy of it. Nodes are known
by their offset, and a property that is set moves all that comes behind it.
-/

namespace Cboot.PluginManager
open Lib Forest

abbrev Text := List UInt8

def ascii (s : String) : Text := s.toList.map fun c => c.toNat.toUInt8

structure Property where
  name : Text
  value : List UInt8
  deriving DecidableEq, Repr

structure Node where
  name : Text
  props : List Property
  deriving DecidableEq, Repr

def tagAlign (n : Nat) : Nat := (n + 3) / 4 * 4

def layout : Layout Node where
  head node := 4 + tagAlign (node.name.length + 1) + (node.props.map fun p => 12 + tagAlign p.value.length).sum
  tail := 4
  pos node := by omega

abbrev Dtb := Forest Node

def fdtGetName (fdt : Dtb) (nd : Nat) : Option Text := (fdt.rootAt layout nd).map (·.name)

/-- What `tegrabl_dt_for_each_child` goes through. -/
def children (fdt : Dtb) (nd : Nat) : List Nat :=
  match fdt.suffix layout nd with
  | some (.node a below _) => below.offsets layout (nd + layout.head a)
  | _ => []

/-- What `tegrabl_dt_for_each_prop_of` goes through. -/
def propsOf (fdt : Dtb) (nd : Nat) : List Property := ((fdt.rootAt layout nd).map (·.props)).getD []

def replaceProp (name value : List UInt8) : List Property → List Property
  | [] => []
  | p :: props => if p.name = name then ⟨name, value⟩ :: props else p :: replaceProp name value props

def setProp (name value : List UInt8) (props : List Property) : List Property :=
  if props.any (·.name = name) then replaceProp name value props else ⟨name, value⟩ :: props

def lookup (props : List Property) (name : Text) : Option (List UInt8) :=
  (props.find? (·.name = name)).map (·.value)

def Node.edit (g : List Property → List Property) (node : Node) : Node := { node with props := g node.props }

def fdtSetprop (fdt : Dtb) (nd : Nat) (name value : List UInt8) : Option Dtb :=
  if (fdt.rootAt layout nd).isSome then some (fdt.update layout (Node.edit (setProp name value)) nd) else none

def fdtDelprop (fdt : Dtb) (nd : Nat) (name : Text) : Option Dtb :=
  if (lookup (propsOf fdt nd) name).isSome then
    some (fdt.update layout (Node.edit fun props => props.eraseP (·.name = name)) nd)
  else none

def fdtAppendprop (fdt : Dtb) (nd : Nat) (name value : List UInt8) : Option Dtb :=
  fdtSetprop fdt nd name ((lookup (propsOf fdt nd) name).getD [] ++ value)

def tegrablDtGetChildWithName (fdt : Dtb) (start : Nat) (name : Text) : Option Nat :=
  (children fdt start).find? fun sub => (fdtGetName fdt sub).any fun subName => subName ≠ [] ∧ name = subName

inductive PmError where
  | delFailed
  | addFailed
  | setFailed
  deriving DecidableEq, Repr

def deleteTargetProperty : Text := ascii "delete-target-property"
def appendStringProperty : Text := ascii "append-string-property"

def skipped (name : Text) : Bool := name = ascii "name" || name = ascii "phandle" || name = ascii "linux,phandle"

def cstring (value : List UInt8) : Text := value.takeWhile (· ≠ 0)

/-- The loop of `pm_do_prop_overlay` over the properties of the overlay's node. -/
def pmDoPropOverlay (targetNd : Nat) : List Property → Dtb → Except PmError Unit × Dtb
  | [], fdt => (.ok (), fdt)
  | p :: props, fdt =>
    if skipped p.name then pmDoPropOverlay targetNd props fdt
    else if p.name = deleteTargetProperty then
      match fdtDelprop fdt targetNd (cstring p.value) with
      | none => (.error .delFailed, fdt)
      | some fdt => pmDoPropOverlay targetNd props fdt
    else if p.name = appendStringProperty then
      match fdtAppendprop fdt targetNd (cstring p.value) [] with
      | none => (.error .addFailed, fdt)
      | some fdt => pmDoPropOverlay targetNd props fdt
    else
      match fdtSetprop fdt targetNd p.name p.value with
      | none => (.error .setFailed, fdt)
      | some fdt => pmDoPropOverlay targetNd props fdt

/-- The loop of `pm_overlay_handle` over the children of the overlay's node. -/
def overlayChildren (handle : Dtb → Nat → Nat → Option (Except PmError Unit × Dtb)) (fdtBuf : Dtb) (targetNd : Nat) :
    List Nat → Dtb → Option (Except PmError Unit × Dtb)
  | [], fdt => some (.ok (), fdt)
  | childNd :: rest, fdt =>
    match tegrablDtGetChildWithName fdt targetNd ((fdtGetName fdtBuf childNd).getD []) with
    | none => overlayChildren handle fdtBuf targetNd rest fdt
    | some tchildNd =>
      match handle fdt tchildNd childNd with
      | some (.ok (), fdt) => overlayChildren handle fdtBuf targetNd rest fdt
      | stopped => stopped

/-- `pm_overlay_handle`, as deep as `fuel` allows. -/
def overlayHandle (fdtBuf : Dtb) : Nat → Dtb → Nat → Nat → Option (Except PmError Unit × Dtb)
  | 0, _, _, _ => none
  | fuel + 1, fdt, targetNd, overlayNd =>
    match pmDoPropOverlay targetNd (propsOf fdtBuf overlayNd) fdt with
    | (.error e, fdt) => some (.error e, fdt)
    | (.ok (), fdt) => overlayChildren (overlayHandle fdtBuf fuel) fdtBuf targetNd (children fdtBuf overlayNd) fdt

/-- `pm_overlay_handle`: no overlay is deeper than it is large. -/
def pmOverlayHandle (fdt : Dtb) (targetNd : Nat) (fdtBuf : Dtb) (overlayNd : Nat) :
    Option (Except PmError Unit × Dtb) :=
  overlayHandle fdtBuf (fdtBuf.size layout) fdt targetNd overlayNd

end Cboot.PluginManager
