import Cboot.Linuxboot.Loaders
import Cboot.Linuxboot.Verified

/-!
What is intended: the devices of the boot order are tried one after the other and the fixed storage last, the first that
loads a kernel and a device tree is used, and the call succeeds if it is extracted.
-/

namespace Cboot.Linuxboot
open Lib Attempt

section
variable {σ : Type} (cfg : Config) (P : Platform σ) (request : Request)

def devicesOf (i : Nat) (id : DeviceId) (suffix : Text) : List Device :=
  match id with
  | .network => [if cfg.ethernetBoot then .network else .fixed]
  | .sd => [if cfg.usbSdBoot then .sd else .fixed]
  | .usb => [if cfg.usbSdBoot then .usb else .fixed]
  | .nvme => if cfg.nvmeBoot then ((P.pcieCtrlNums i suffix).getD []).map .nvme else [.fixed]
  | .builtinStorage => [.fixed]

/-- The devices of the boot order from its `i`-th entry on. -/
def recognised : Nat → List Text → List Device
  | _, [] => []
  | i, bootDev :: order =>
    match tegrablCboMapBootDev bootDev with
    | none => recognised (i + 1) order
    | some (id, suffix) => devicesOf cfg P i id suffix ++ recognised (i + 1) order

def tryLoad (device : Device) : LoadM σ Bool := do
  let _ ← tryDevice cfg P request device
  let s ← get
  return s.tries.getLast?.any Try.loaded

def Stuck (result : Except Error Unit) : Prop := ∃ e, result = .error e ∧ e.final = true

/-- Two calls succeed both or neither, come back both or neither, and leave the same behind but for what is
outside of the loader. No call ends in a heap that is taken for corrupted. -/
structure Follows (call spec : Except Error Unit × State σ) : Prop where
  succeeds : call.1 = .ok () ↔ spec.1 = .ok ()
  stuck : Stuck call.1 ↔ Stuck spec.1
  freed : call.1 ≠ .error .corrupted
  state : { call.2 with env := spec.2.env } = spec.2

def State.begun (s : State σ) : State σ := { s with kernelOf := none, dtbOf := none, decisions := [], tries := [] }

def tryAs (device : Device) : LoadM σ Bool :=
  match device with
  | .fixed => tryFixed cfg P request
  | device => tryNext cfg P request device

theorem nvmeLoad_eq (ctrls : List UInt8) :
    nvmeLoadKernelAndDtb cfg P request ctrls = firstOf (tryAs cfg P request) (ctrls.map .nvme) := by
  induction ctrls with
  | nil => rfl
  | cons ctrl ctrls ih =>
    rw [List.map_cons, nvmeLoadKernelAndDtb, firstOf, ih]
    rfl

theorem loadFrom_eq (i : Nat) (id : DeviceId) (suffix : Text) :
    loadFrom cfg P request i id suffix = firstOf (tryAs cfg P request) (devicesOf cfg P i id suffix) := by
  unfold loadFrom devicesOf
  cases id with
  | network => cases cfg.ethernetBoot <;> exact (firstOf_single _ _).symm
  | sd => cases cfg.usbSdBoot <;> exact (firstOf_single _ _).symm
  | usb => cases cfg.usbSdBoot <;> exact (firstOf_single _ _).symm
  | builtinStorage => exact (firstOf_single _ _).symm
  | nvme =>
    dsimp only
    split
    · cases P.pcieCtrlNums i suffix with
      | none => rfl
      | some ctrls => exact nvmeLoad_eq cfg P request ctrls
    · exact (firstOf_single _ _).symm

theorem loadInOrder_eq (i : Nat) (order : List Text) :
    loadInOrder cfg P request i order = firstOf (tryAs cfg P request) (recognised cfg P i order) := by
  induction order generalizing i with
  | nil => rfl
  | cons bootDev order ih =>
    unfold loadInOrder recognised
    cases tegrablCboMapBootDev bootDev with
    | none => exact ih (i + 1)
    | some found =>
      obtain ⟨id, suffix⟩ := found
      dsimp only
      rw [firstOf_append, loadFrom_eq, ih]

def Past (s : State σ) : Prop := ∀ n, s.kernelOf = some n → n < s.tries.length

variable {cfg P request}

/-- There is a handle to load from, and the fixed storage does not fail and come back. -/
structure Safe (cfg : Config) (P : Platform σ) (request : Request) (device : Device) (s : State σ) : Prop where
  handle : ¬ NoHandle cfg P device s
  fixed : device = .fixed → ∀ e t, (loader cfg P request device).run s = (.error e, t) → e.final = true

inductive Outcome (cfg : Config) (P : Platform σ) (request : Request) (device : Device) (s : State σ) : Prop
  | stuck (e : Error) (t : State σ) (safe : Safe cfg P request device s)
    (call : (tryAs cfg P request device).run s = (.error e, t))
    (spec : (tryLoad cfg P request device).run s = (.error e, t))
  | loaded (t : State σ) (safe : Safe cfg P request device s)
    (call : (tryAs cfg P request device).run s = (.ok true, t))
    (spec : (tryLoad cfg P request device).run s = (.ok true, t))
  | failed (t : State σ) (past : Past t) (other : device ≠ .fixed) (safe : Safe cfg P request device s)
    (call : (tryAs cfg P request device).run s = (.ok false, t))
    (spec : (tryLoad cfg P request device).run s = (.ok false, t))
  | empty (t : State σ) (past : Past t) (noHandle : NoHandle cfg P device s)
    (call : (tryAs cfg P request device).run s = (.ok true, t))
    (spec : (tryLoad cfg P request device).run s = (.ok false, t))
  | given (e : Error) (t u : State σ) (past : Past t) (fixed : device = .fixed) (back : e.final = false)
    (load : (loader cfg P request device).run s = (.error e, u))
    (call : (tryAs cfg P request device).run s = (.error e, t))
    (spec : (tryLoad cfg P request device).run s = (.ok false, t))

def State.noted (s : State σ) (device : Device) (returned loaded : Bool) : State σ :=
  { s with tries := s.tries ++ [⟨device, returned, loaded⟩] }

variable {device : Device} {s t : State σ}

theorem tryDevice_ok (result : (loader cfg P request device).run s = (.ok (), t)) :
    (tryDevice cfg P request device).run s = (.ok (.ok ()), t.noted device true (hasLoaded cfg t)) := by
  unfold tryDevice
  rw [run_bind_ok (caught_ok result)]
  rfl

variable {e : Error}

theorem tryDevice_error (back : e.final = false)
    (result : (loader cfg P request device).run s = (.error e, t)) :
    (tryDevice cfg P request device).run s = (.ok (.error e), t.noted device false false) := by
  have catches := caught_error result
  rw [back, if_neg (by decide)] at catches
  unfold tryDevice
  rw [run_bind_ok catches]
  rfl

theorem tryDevice_stuck (final : e.final = true)
    (result : (loader cfg P request device).run s = (.error e, t)) :
    (tryDevice cfg P request device).run s = (.error e, t) := by
  have catches := caught_error result
  rw [final, if_pos rfl] at catches
  unfold tryDevice
  rw [run_bind_error catches]

theorem tryLoad_noted {result : Except Error Unit} {returned loaded : Bool}
    (tried : (tryDevice cfg P request device).run s = (.ok result, t.noted device returned loaded)) :
    (tryLoad cfg P request device).run s = (.ok loaded, t.noted device returned loaded) := by
  unfold tryLoad
  rw [run_bind_ok tried]
  show (Except.ok ((t.tries ++ [_]).getLast?.any Try.loaded), _) = _
  simp

theorem tryAs_eq (other : device ≠ .fixed) : tryAs cfg P request device = tryNext cfg P request device := by
  cases device <;> first | rfl | exact absurd rfl other

theorem tryAs_ok {u : State σ} (tried : (tryDevice cfg P request device).run s = (.ok (.ok ()), u)) :
    (tryAs cfg P request device).run s = (.ok true, u) := by
  by_cases fixed : device = .fixed
  · subst fixed
    show (tryFixed cfg P request).run s = _
    unfold tryFixed
    rw [run_bind_ok tried]
    rfl
  · rw [tryAs_eq fixed, tryNext, run_bind_ok tried]
    rfl

theorem past_noted (past : Past s) (marks : Marks s t) (returned loaded : Bool) :
    Past (t.noted device returned loaded) := by
  intro n here
  have length : (t.noted device returned loaded).tries.length = s.tries.length + 1 := by
    simp [State.noted, marks.tries]
  rw [length]
  obtain same | now := marks.kernelOf
  · have earlier := past n (same.symm.trans here)
    omega
  · have current : n = s.tries.length := Option.some.inj (here.symm.trans now)
    omega

theorem not_loaded_of_noHandle (request : Request) (past : Past s) (noHandle : NoHandle cfg P device s) :
    ∃ t, (loader cfg P request device).run s = (.ok (), t) ∧ hasLoaded cfg t = false := by
  obtain ⟨t, result, tries, kernelOf⟩ := loader_noHandle request noHandle
  refine ⟨t, result, Bool.eq_false_iff.mpr fun loaded => ?_⟩
  have here : t.kernelOf = some t.tries.length := ((hasLoaded_iff t).mp loaded).1
  have earlier := past t.tries.length (kernelOf.symm.trans here)
  rw [tries] at earlier
  omega

theorem outcome_ok (past : Past s) (result : (loader cfg P request device).run s = (.ok (), t)) :
    Outcome cfg P request device s := by
  have marks : Marks s t := (((tried_loader request device).ends s).1 () t result).toMarks
  have tried := tryDevice_ok result
  have spec := tryLoad_noted tried
  cases loaded : hasLoaded cfg t with
  | true =>
    rw [loaded] at spec tried
    refine .loaded _ ⟨fun noHandle => ?_, fun _ e u failed => ?_⟩ (tryAs_ok tried) spec
    · obtain ⟨u, again, unloaded⟩ := not_loaded_of_noHandle request past noHandle
      rw [result] at again
      cases again
      rw [loaded] at unloaded
      cases unloaded
    · rw [result] at failed
      cases failed
  | false =>
    have noHandle : NoHandle cfg P device s :=
      ((loads_loader request device).1 () t result).resolve_left (by simp [loaded])
    rw [loaded] at spec tried
    exact .empty _ (past_noted past marks _ _) noHandle (tryAs_ok tried) spec

theorem outcome_error (past : Past s) (result : (loader cfg P request device).run s = (.error e, t)) :
    Outcome cfg P request device s := by
  have handle : ¬ NoHandle cfg P device s := by
    intro noHandle
    obtain ⟨u, again, -⟩ := not_loaded_of_noHandle request past noHandle
    rw [result] at again
    cases again
  have marks : Marks s t := (((tried_loader request device).ends s).2 e t result).toMarks
  cases final : e.final with
  | true =>
    have tried := tryDevice_stuck final result
    refine .stuck e t ⟨handle, fun _ e' u failed => ?_⟩ ?_ (run_bind_error tried)
    · rw [result] at failed
      cases failed
      exact final
    · unfold tryAs
      split <;> exact run_bind_error tried
  | false =>
    have tried := tryDevice_error final result
    have spec := tryLoad_noted tried
    by_cases fixed : device = .fixed
    · refine .given e _ t (past_noted past marks _ _) fixed final result ?_ spec
      subst fixed
      show (tryFixed cfg P request).run s = _
      rw [tryFixed, run_bind_ok tried]
      rfl
    · refine .failed _ (past_noted past marks _ _) fixed ⟨handle, fun here => absurd here fixed⟩ ?_ spec
      rw [tryAs_eq fixed, tryNext, run_bind_ok tried]
      rfl

theorem outcome (cfg : Config) (P : Platform σ) (request : Request) (device : Device) (past : Past s) :
    Outcome cfg P request device s := by
  cases result : (loader cfg P request device).run s with
  | mk r t =>
    cases r with
    | ok done => exact outcome_ok past result
    | error e => exact outcome_error past result

/-- The source gives up, or takes what is in memory, where the search should go on. -/
structure Stops (cfg : Config) (P : Platform σ) (request : Request) (devices : List Device) (s t : State σ) : Prop where
  spec : ∃ pre post, devices = pre ++ post ∧ (firstOf (tryLoad cfg P request) pre).run s = (.ok false, t)
  call : (firstOf (tryAs cfg P request) devices).run s = (.ok true, t) ∨
    ∃ e, e.final = false ∧ (firstOf (tryAs cfg P request) devices).run s = (.error e, t)

variable {order : List Text}

structure Agree (call spec : Except Error Unit × State σ) : Prop where
  succeeds : call.1 = .ok () ↔ spec.1 = .ok ()
  stuck : Stuck call.1 ↔ Stuck spec.1
  freed : call.1 = .error .corrupted ↔ spec.1 = .error .corrupted
  state : call.2 = spec.2

variable {r : Except Error Unit}

def Returns {α : Type} (c : LoadM σ α) : Prop := ∀ s, Ends c s (fun _ _ => True) fun e _ => e.final = false

section
variable {α β : Type} {c : LoadM σ α}

theorem Returns.bind {f : α → LoadM σ β} (first : Returns c) (next : ∀ a, Returns (f a)) : Returns (c >>= f) :=
  fun s => ends_bind (first s) fun a t _ => next a t

end

end

end Cboot.Linuxboot
