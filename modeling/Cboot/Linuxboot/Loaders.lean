import Cboot.Linuxboot.Frame

/-!
A loader asks at most once whether to boot to recovery.
-/

namespace Cboot.Linuxboot
open Lib Attempt

section
variable {σ : Type}

def answer (cfg : Config) (P : Platform σ) (rfReg : UInt32) : Except Smd.Assertion (Bool × UInt32) :=
  if cfg.abSlot then
    match P.smd with
    | .error _ => .ok (false, rfReg)
    | .ok smd => Smd.tegrablABRootfsIsAllUnbootable smd P.beyond rfReg
  else .ok (false, rfReg)

inductive Decides (cfg : Config) (P : Platform σ) (u v : State σ) : Prop
  | nothing (rfReg : v.rfReg = u.rfReg) (decisions : v.decisions = u.decisions)
  | network (rfReg : v.rfReg = u.rfReg) (decisions : v.decisions = u.decisions ++ [.network])
  | asked (recoveryMode all : Bool) (rfReg : answer cfg P u.rfReg = .ok (all, v.rfReg))
    (decisions : v.decisions = u.decisions ++ [.asked recoveryMode all])

structure Tried (cfg : Config) (P : Platform σ) (u v : State σ) : Prop extends Marks u v where
  decides : Decides cfg P u v

variable {cfg : Config} {P : Platform σ} {u v w : State σ}

theorem Within.tried (within : Within u v) : Tried cfg P u v :=
  ⟨within.toMarks, .nothing within.rfReg within.decisions⟩

theorem Within.then_tried (first : Within u v) (second : Tried cfg P v w) : Tried cfg P u w := by
  refine ⟨first.toMarks.trans second.toMarks, ?_⟩
  cases second.decides with
  | nothing rfReg decisions => exact .nothing (rfReg.trans first.rfReg) (decisions.trans first.decisions)
  | network rfReg decisions =>
    rw [first.decisions] at decisions
    exact .network (rfReg.trans first.rfReg) decisions
  | asked recoveryMode all rfReg decisions =>
    rw [first.rfReg] at rfReg
    rw [first.decisions] at decisions
    exact .asked recoveryMode all rfReg decisions

theorem Tried.then_within (first : Tried cfg P u v) (second : Within v w) : Tried cfg P u w := by
  refine ⟨first.toMarks.trans second.toMarks, ?_⟩
  cases first.decides with
  | nothing rfReg decisions => exact .nothing (second.rfReg.trans rfReg) (second.decisions.trans decisions)
  | network rfReg decisions => exact .network (second.rfReg.trans rfReg) (second.decisions.trans decisions)
  | asked recoveryMode all rfReg decisions =>
    rw [← second.rfReg] at rfReg
    exact .asked recoveryMode all rfReg (second.decisions.trans decisions)

theorem within_getKernelBootctrl : Steps Within (tegrablGetKernelBootctrl P) := by
  unfold tegrablGetKernelBootctrl
  refine (within_outside _).bind fun primary => ?_
  cases primary with
  | ok bytes => exact steps_pure _
  | error e => exact (within_outside _).bind fun recovery => steps_pure _

theorem askRootfs_run (cfg : Config) (P : Platform σ) (s : State σ) : (askRootfs cfg P).run s =
    match answer cfg P s.rfReg with
    | .ok (all, rfReg) => (.ok all, { s with rfReg := rfReg })
    | .error a => (.error (.hang a), s) := by
  unfold askRootfs answer
  split
  · unfold rootfsIsAllUnbootable
    rw [run_call]
    cases P.smd with
    | error e => rfl
    | ok smd =>
      dsimp only
      cases Smd.tegrablABRootfsIsAllUnbootable smd P.beyond s.rfReg with
      | error a => rfl
      | ok reported => rfl
  · rfl

theorem tried_ask (recoveryMode : Bool) : Steps (Tried cfg P) (do
    let all ← askRootfs cfg P
    noteDecision (.asked recoveryMode all)
    return (Decision.asked recoveryMode all).toRecovery) := by
  intro s
  have asked := askRootfs_run cfg P s
  cases reply : answer cfg P s.rfReg with
  | error a =>
    rw [reply] at asked
    rw [run_bind_error asked]
    exact ⟨Marks.refl s, .nothing rfl rfl⟩
  | ok reported =>
    obtain ⟨all, rfReg⟩ := reported
    rw [reply] at asked
    rw [run_bind_ok asked]
    exact ⟨⟨rfl, .inl rfl, .inl rfl⟩, .asked recoveryMode all reply rfl⟩

theorem tried_bootToRecovery : Steps (Tried cfg P) (bootToRecovery cfg P) := by
  unfold bootToRecovery
  split
  · refine steps_bind within_getKernelBootctrl (fun bootctrl => tried_ask _) (fun _ _ => Within.tried) ?_
    exact fun _ _ _ => Within.then_tried
  · exact (steps_pure (R := Within) false).mono fun _ _ => Within.tried

theorem tried_decision {c : Bool → LoadM σ Unit} (rest : ∀ recovery, Steps Within (c recovery)) :
    Steps (Tried cfg P) (bootToRecovery cfg P >>= c) :=
  steps_bind tried_bootToRecovery rest (fun _ _ tried => tried) fun _ _ _ => Tried.then_within

theorem tried_removable (device : Device) : Steps (Tried cfg P) (removableBootLoadKernelAndDtb cfg P device) := by
  unfold removableBootLoadKernelAndDtb
  refine steps_bind ((quiet_openRemovable device).mono fun _ _ => Quiet.within) (fun handle => ?_)
    (fun _ _ => Within.tried) fun _ _ _ => Within.then_tried
  cases handle with
  | none => exact (steps_pure (R := Within) ()).mono fun _ _ => Within.tried
  | some handle =>
    refine tried_decision fun recovery => ?_
    split
    · exact within_loadFromPartition _ _
    · exact within_loadNormal _

variable (request : Request)

theorem tried_fixed : Steps (Tried cfg P) (fixedBootLoadKernelAndDtb cfg P request) := by
  unfold fixedBootLoadKernelAndDtb
  refine tried_decision fun recovery => ?_
  split
  · exact steps_orReset _ (within_tegrablLoadFromPartition _)
  · split
    · refine (within_outside _).bind fun opened => ?_
      refine (steps_refuse _ _).bind fun _ => ?_
      exact ((quiet_fmPublish _).mono fun _ _ => Quiet.within).bind fun handle => within_extlinuxBoot _
    · exact steps_orReset _ (within_tegrablLoadFromPartition _)

theorem tried_net : Steps (Tried cfg P) (netBootLoadKernelAndDtb cfg P) := by
  have note : Steps (Tried cfg P) (noteDecision (σ := σ) .network) :=
    fun _ => ⟨⟨rfl, .inl rfl, .inl rfl⟩, .network rfl rfl⟩
  have load (addr : Nat) : Steps Within (do
      let size ← onMemory (P.downloadFromTftp addr P.dtbLoadAddr)
      noteKernel
      noteDtb
      checkPair cfg P normalRow addr size) := by
    refine (within_onMemory _).bind fun size => ?_
    refine within_noteKernel.bind fun _ => ?_
    exact within_noteDtb.bind fun _ => within_checkPair _ _ _
  have first {α : Type} {c : LoadM σ α} {f : α → LoadM σ Unit} (before : Steps Within c)
      (rest : ∀ a, Steps (Tried cfg P) (f a)) : Steps (Tried cfg P) (c >>= f) :=
    steps_bind before rest (fun _ _ => Within.tried) fun _ _ _ => Within.then_tried
  unfold netBootLoadKernelAndDtb
  refine first (within_outside _) fun up => ?_
  refine first (steps_refuse _ _) fun _ => ?_
  refine first (within_modify fun _ => rfl) fun _ => ?_
  refine first (within_attempting _) fun addr => ?_
  refine first (within_modify fun _ => rfl) fun _ => ?_
  exact steps_bind note (fun _ => load addr) (fun _ _ tried => tried) fun _ _ _ => Tried.then_within

theorem tried_loader (device : Device) : Steps (Tried cfg P) (loader cfg P request device) := by
  cases device with
  | network => exact tried_net
  | sd => exact tried_removable _
  | usb => exact tried_removable _
  | nvme ctrl => exact tried_removable _
  | fixed => exact tried_fixed _

def KernelHere (s : State σ) : Prop := s.kernelOf = some s.tries.length
def DtbHere (s : State σ) : Prop := s.dtbOf = some s.tries.length

theorem hasLoaded_iff (s : State σ) :
    hasLoaded cfg s = true ↔ KernelHere s ∧ (cfg.dtSupport = true → DtbHere s) := by
  unfold hasLoaded KernelHere DtbHere
  cases cfg.dtSupport <;> simp

variable {α : Type} {s : State σ}

/-- The kernel and the device tree are in memory where it comes back without an error. -/
abbrev Loads (cfg : Config) (c : LoadM σ α) (s : State σ) : Prop :=
  Ends c s (fun _ t => hasLoaded cfg t = true) fun _ _ => True

theorem ends_within {c : LoadM σ α} {p : State σ → Prop} (steps : Steps Within c)
    (stays : ∀ u v, Marks u v → p u → p v) (here : p s) : Ends c s (fun _ => p) fun _ _ => True :=
  (steps.ends s).mono (fun _ _ within => stays s _ within.toMarks here) fun _ _ _ => trivial

theorem ends_caught {c : LoadM σ α} {Q : α → State σ → Prop} (ends : Ends c s Q fun _ _ => True) :
    Ends (caught c) s (fun result t => ∀ a, result = .ok a → Q a t) fun _ _ => True := by
  refine ⟨fun result t ended a same => ?_, fun _ _ _ => trivial⟩
  cases run : c.run s with
  | mk r u =>
    cases r with
    | ok b =>
      rw [caught_ok run] at ended
      cases ended
      exact Except.ok.inj same ▸ ends.1 b _ run
    | error e =>
      rw [caught_error run] at ended
      split at ended <;> cases ended
      cases same

theorem ends_noteKernel : Ends (noteKernel (σ := σ)) s (fun _ => KernelHere) fun _ _ => True :=
  ends_call (fun _ _ same => by cases same; rfl) fun _ _ _ => trivial

theorem kernel_stays (u v : State σ) (marks : Marks u v) (here : KernelHere u) : KernelHere v := marks.kernel here
theorem dtb_stays (u v : State σ) (marks : Marks u v) (here : DtbHere u) : DtbHere v := marks.dtb here

theorem loaded_stays (u v : State σ) (marks : Marks u v) (here : hasLoaded cfg u = true) :
    hasLoaded cfg v = true := by
  rw [hasLoaded_iff] at here ⊢
  exact ⟨kernel_stays u v marks here.1, fun built => dtb_stays u v marks (here.2 built)⟩

theorem ends_noteDtb (cfg : Config) (kernel : KernelHere s) : Loads cfg (noteDtb (σ := σ)) s := by
  refine ends_call (fun _ t same => ?_) fun _ _ _ => trivial
  cases same
  exact (hasLoaded_iff _).mpr ⟨kernel, fun _ => rfl⟩

theorem loads_extlinuxDtb (handle : Option FmHandle) (dtbPath : Option Text) (kernel : KernelHere s) :
    Loads cfg (extlinuxLoadDtb cfg P handle dtbPath) s := by
  unfold extlinuxLoadDtb
  refine ends_bind (ends_within steps_get kernel_stays kernel) fun before t kernel => ?_
  split
  · refine ends_bind (ends_within (within_modify fun _ => rfl) kernel_stays kernel) fun _ t kernel => ?_
    exact ends_noteDtb cfg kernel
  · refine ends_bind (ends_within (within_loadBinaryWithSig _ _ _ _ _ _ _) kernel_stays kernel) fun _ t kernel => ?_
    exact ends_noteDtb cfg kernel

theorem loads_extlinuxBoot (handle : Option FmHandle) : Loads cfg (extlinuxBoot cfg P handle) s := by
  have pair : Loads cfg (extlinuxLoadKernelAndDtb cfg P handle) s := by
    unfold extlinuxLoadKernelAndDtb
    refine ends_bind ends_true fun paths _ _ => ?_
    refine ends_bind ends_true fun addr _ _ => ?_
    refine ends_bind ends_true fun _ _ _ => ?_
    refine ends_bind ends_true fun fromRootfs _ _ => ?_
    refine ends_bind ends_noteKernel fun _ t kernel => ?_
    refine ends_bind (Q := fun _ t => hasLoaded cfg t = true) ?_ fun _ _ loaded => ends_pure loaded
    cases built : cfg.dtSupport with
    | true => exact loads_extlinuxDtb _ _ kernel
    | false => exact ends_pure ((hasLoaded_iff _).mpr ⟨kernel, fun wrong => by simp [built] at wrong⟩)
  unfold extlinuxBoot extlinuxBootLoadKernelAndDtb
  refine ends_bind (Q := fun _ t => hasLoaded cfg t = true) ?_ fun fromRootfs t loaded => ?_
  · refine ends_bind (ends_caught pair) fun result t loaded => ?_
    cases result with
    | error e => exact ends_bind ends_true fun _ _ _ => ends_bind ends_true fun _ _ _ => ends_throw trivial
    | ok fromRootfs =>
      refine ends_bind (ends_within steps_get loaded_stays (loaded _ rfl)) fun before t loaded => ?_
      exact ends_bind (ends_within (within_freeSections _) loaded_stays loaded) fun _ _ loaded => ends_pure loaded
  · exact ends_within (steps_onlyIf _ (within_ramdisk handle)) loaded_stays loaded

theorem loads_fromPartition (handle : FmHandle) (isRecovery : Bool) :
    Loads cfg (loadFromPartition cfg P handle isRecovery) s := by
  unfold loadFromPartition
  refine ends_bind ends_true fun addr _ _ => ?_
  refine ends_bind ends_true fun _ _ _ => ?_
  refine ends_bind ends_true fun imgSize _ _ => ?_
  refine ends_bind ends_noteKernel fun _ t kernel => ?_
  refine ends_bind (ends_within (within_fmReadPartition _ _ _ _) kernel_stays kernel) fun _ t kernel => ?_
  refine ends_bind (ends_noteDtb cfg kernel) fun _ t loaded => ?_
  exact ends_within (within_checkPair _ _ _) loaded_stays loaded

theorem loads_normal (handle : FmHandle) : Loads cfg (loadNormal cfg P handle) s := by
  unfold loadNormal
  split
  · exact loads_extlinuxBoot _
  · exact ends_bind ends_true fun _ _ _ => loads_fromPartition _ _

theorem loads_bootImage (row : ImgDtb) :
    Ends (loadBootImage cfg P request row) s (fun _ => KernelHere) fun _ _ => True := by
  unfold loadBootImage
  split
  · refine ends_bind ends_true fun before _ _ => ?_
    refine ends_bind ends_true fun loaded _ _ => ?_
    refine ends_bind ends_true fun _ _ _ => ?_
    refine ends_bind ends_noteKernel fun _ t kernel => ?_
    refine ends_bind (ends_within (within_bootImageSize _ _ _) kernel_stays kernel) fun len t kernel => ?_
    exact ends_within (steps_get.bind fun _ => steps_ofExcept _) kernel_stays kernel
  · split
    · exact ends_throw trivial
    · exact ends_bind ends_true fun _ _ _ => ends_noteKernel

theorem loads_dtb (row : ImgDtb) (kernel : KernelHere s) : Loads cfg (loadDtb cfg P row) s := by
  unfold loadDtb
  refine ends_bind (ends_within (within_findDtb _) kernel_stays kernel) fun _ t kernel => ?_
  refine ends_bind (ends_noteDtb cfg kernel) fun _ t loaded => ?_
  exact ends_within (steps_get.bind fun _ => within_checkDtb _ _) loaded_stays loaded

theorem loads_tegrablFromPartition (recovery : Bool) :
    Loads cfg (tegrablLoadFromPartition cfg P request recovery) s := by
  unfold tegrablLoadFromPartition
  refine ends_bind (loads_bootImage _ _) fun _ t kernel => ?_
  split
  · refine ends_bind (loads_dtb _ kernel) fun _ t loaded => ?_
    exact ends_within (steps_onlyIf _ within_loadDtbo) loaded_stays loaded
  · rename_i unbuilt
    refine ends_call (fun _ t same => ?_) fun _ _ _ => trivial
    cases same
    exact (hasLoaded_iff _).mpr ⟨kernel, fun built => absurd built unbuilt⟩

theorem loads_orReset (condition : Bool) {c : LoadM σ Unit} {p : State σ → Prop}
    (loads : Ends c s (fun _ => p) fun _ _ => True) : Ends (orReset condition c) s (fun _ => p) fun _ _ => True := by
  unfold orReset
  refine ends_bind (ends_caught loads) fun result t kept => ?_
  cases result with
  | ok done => exact ends_pure (kept done rfl)
  | error e => cases condition <;> exact ends_throw trivial

def NoHandle (cfg : Config) (P : Platform σ) (device : Device) (s : State σ) : Prop :=
  device ≠ .network ∧ device ≠ .fixed ∧ ∃ t, (openRemovable cfg P device).run s = (.ok none, t)

theorem loads_removable (device : Device) :
    Ends (removableBootLoadKernelAndDtb cfg P device) s
      (fun _ t => hasLoaded cfg t = true ∨ ∃ t, (openRemovable cfg P device).run s = (.ok none, t))
      fun _ _ => True := by
  unfold removableBootLoadKernelAndDtb
  refine ends_bind (Q := fun handle t => (openRemovable cfg P device).run s = (.ok handle, t))
    ⟨fun _ _ opened => opened, fun _ _ _ => trivial⟩ fun handle t opened => ?_
  cases handle with
  | none => exact ends_pure (.inr ⟨t, opened⟩)
  | some handle =>
    refine ends_bind ends_true fun recovery _ _ => ?_
    split
    · exact (loads_fromPartition _ _).mono (fun _ _ => Or.inl) fun _ _ _ => trivial
    · exact (loads_normal _).mono (fun _ _ => Or.inl) fun _ _ _ => trivial

theorem loads_fixed : Loads cfg (fixedBootLoadKernelAndDtb cfg P request) s := by
  unfold fixedBootLoadKernelAndDtb
  refine ends_bind ends_true fun recovery _ _ => ?_
  split
  · exact loads_orReset _ (loads_tegrablFromPartition _ _)
  · split
    · refine ends_bind ends_true fun opened _ _ => ?_
      refine ends_bind ends_true fun _ _ _ => ?_
      exact ends_bind ends_true fun handle _ _ => loads_extlinuxBoot _
    · exact loads_orReset _ (loads_tegrablFromPartition _ _)

theorem loads_net : Loads cfg (netBootLoadKernelAndDtb cfg P) s := by
  unfold netBootLoadKernelAndDtb
  refine ends_bind ends_true fun up _ _ => ?_
  refine ends_bind ends_true fun _ _ _ => ?_
  refine ends_bind ends_true fun _ _ _ => ?_
  refine ends_bind ends_true fun addr _ _ => ?_
  refine ends_bind ends_true fun _ _ _ => ?_
  refine ends_bind ends_true fun _ _ _ => ?_
  refine ends_bind ends_true fun size _ _ => ?_
  refine ends_bind ends_noteKernel fun _ t kernel => ?_
  refine ends_bind (ends_noteDtb cfg kernel) fun _ t loaded => ?_
  exact ends_within (within_checkPair _ _ _) loaded_stays loaded

theorem loads_loader (device : Device) :
    Ends (loader cfg P request device) s (fun _ t => hasLoaded cfg t = true ∨ NoHandle cfg P device s)
      fun _ _ => True := by
  have removable (other : device ≠ .network) (other' : device ≠ .fixed) :
      Ends (removableBootLoadKernelAndDtb cfg P device) s
        (fun _ t => hasLoaded cfg t = true ∨ NoHandle cfg P device s) fun _ _ => True :=
    (loads_removable device).mono (fun _ _ loaded => loaded.imp_right fun none => ⟨other, other', none⟩)
      fun _ _ _ => trivial
  cases device with
  | network => exact loads_net.mono (fun _ _ => Or.inl) fun _ _ _ => trivial
  | fixed => exact (loads_fixed request).mono (fun _ _ => Or.inl) fun _ _ _ => trivial
  | sd => exact removable (by simp) (by simp)
  | usb => exact removable (by simp) (by simp)
  | nvme ctrl => exact removable (by simp) (by simp)

theorem loader_noHandle {device : Device} (noHandle : NoHandle cfg P device s) :
    ∃ t, (loader cfg P request device).run s = (.ok (), t) ∧ t.tries = s.tries ∧ t.kernelOf = s.kernelOf := by
  obtain ⟨other, other', t, opened⟩ := noHandle
  have whole : (removableBootLoadKernelAndDtb cfg P device).run s = (.ok (), t) := by
    unfold removableBootLoadKernelAndDtb
    rw [run_bind_ok opened]
    rfl
  have same : Quiet s t := ((quiet_openRemovable device).ends s).1 none t opened
  simp only [Quiet, State.notes, Prod.mk.injEq] at same
  refine ⟨t, ?_, same.1, same.2.1⟩
  cases device with
  | network => exact absurd rfl other
  | fixed => exact absurd rfl other'
  | sd => exact whole
  | usb => exact whole
  | nvme ctrl => exact whole

end

end Cboot.Linuxboot
