import Cboot.Linuxboot.Devices

/-!
The notes of a run are written in few places: while a device is tried, and apart from the question whether to
boot to recovery, only the kernel and the device tree in memory change hands.
-/

namespace Cboot.Linuxboot
open Lib Attempt

section
variable {σ α : Type}

structure Marks (u v : State σ) : Prop where
  tries : v.tries = u.tries
  kernelOf : v.kernelOf = u.kernelOf ∨ v.kernelOf = some u.tries.length
  dtbOf : v.dtbOf = u.dtbOf ∨ v.dtbOf = some u.tries.length

structure Within (u v : State σ) : Prop extends Marks u v where
  rfReg : v.rfReg = u.rfReg
  decisions : v.decisions = u.decisions

def State.notes (s : State σ) : List Try × Option Nat × Option Nat × UInt32 × List Decision :=
  (s.tries, s.kernelOf, s.dtbOf, s.rfReg, s.decisions)

def Quiet (u v : State σ) : Prop := v.notes = u.notes

instance : IsPreorder (State σ) Quiet where
  refl _ := rfl
  trans _ _ _ first second := Eq.trans second first

variable {u v : State σ}

theorem Quiet.within (quiet : Quiet u v) : Within u v := by
  simp only [Quiet, State.notes, Prod.mk.injEq] at quiet
  obtain ⟨tries, kernelOf, dtbOf, rfReg, decisions⟩ := quiet
  exact ⟨⟨tries, .inl kernelOf, .inl dtbOf⟩, rfReg, decisions⟩

theorem Marks.refl (u : State σ) : Marks u u := ⟨rfl, .inl rfl, .inl rfl⟩

theorem Marks.trans {u v w : State σ} (first : Marks u v) (second : Marks v w) : Marks u w := by
  obtain ⟨tries, kernelOf, dtbOf⟩ := second
  rw [first.tries] at kernelOf dtbOf
  refine ⟨tries.trans first.tries, ?_, ?_⟩
  · obtain same | now := kernelOf
    · rw [same]
      exact first.kernelOf
    · exact Or.inr now
  · obtain same | now := dtbOf
    · rw [same]
      exact first.dtbOf
    · exact Or.inr now

instance : IsPreorder (State σ) Marks where
  refl := Marks.refl
  trans _ _ _ := Marks.trans

instance : IsPreorder (State σ) Within where
  refl u := ⟨Marks.refl u, rfl, rfl⟩
  trans _ _ _ first second :=
    ⟨first.toMarks.trans second.toMarks, second.rfReg.trans first.rfReg, second.decisions.trans first.decisions⟩

theorem Marks.kernel (marks : Marks u v) (now : u.kernelOf = some u.tries.length) :
    v.kernelOf = some v.tries.length := by
  rw [marks.tries]
  obtain same | here := marks.kernelOf
  · exact same.trans now
  · exact here

theorem Marks.dtb (marks : Marks u v) (now : u.dtbOf = some u.tries.length) :
    v.dtbOf = some v.tries.length := by
  rw [marks.tries]
  obtain same | here := marks.dtbOf
  · exact same.trans now
  · exact here

theorem quiet_outside (f : σ → α × σ) : Steps Quiet (outside f) := fun _ => rfl
theorem quiet_attempting (f : σ → Except UInt32 α × σ) : Steps Quiet (attempting f) := fun _ => rfl

theorem within_modify {f : State σ → State σ} (same : ∀ s, (f s).notes = s.notes) : Steps Within (modify f) :=
  fun s => Quiet.within (same s)

theorem within_outside (f : σ → α × σ) : Steps Within (outside f) := (quiet_outside f).mono fun _ _ => Quiet.within

theorem within_attempting (f : σ → Except UInt32 α × σ) : Steps Within (attempting f) :=
  (quiet_attempting f).mono fun _ _ => Quiet.within

theorem within_onMemory (f : Mem → σ → Except UInt32 α × Mem × σ) : Steps Within (onMemory f) :=
  fun _ => Quiet.within rfl

theorem within_setMem (f : Mem → Mem) : Steps Within (setMem (σ := σ) f) := within_modify fun _ => rfl

theorem within_setSize (var : SizeVar) (size : UInt32) : Steps Within (setSize (σ := σ) var size) :=
  within_modify fun _ => rfl

theorem within_noteKernel : Steps Within (noteKernel (σ := σ)) :=
  fun _ => ⟨⟨rfl, .inr rfl, .inl rfl⟩, rfl, rfl⟩

theorem within_noteDtb : Steps Within (noteDtb (σ := σ)) :=
  fun _ => ⟨⟨rfl, .inl rfl, .inr rfl⟩, rfl, rfl⟩

def Error.final (e : Error) : Bool :=
  match e with
  | .reset => true
  | .hang _ => true
  | .corrupted => true
  | _ => false

section
variable {c : LoadM σ α} {s t : State σ} {e : Error}

theorem caught_ok {a : α} (result : c.run s = (.ok a, t)) : (caught c).run s = (.ok (.ok a), t) := by
  unfold caught
  rw [run_call, result]

theorem caught_error (result : c.run s = (.error e, t)) :
    (caught c).run s = if e.final then (.error e, t) else (.ok (.error e), t) := by
  unfold caught
  rw [run_call, result]
  cases e <;> rfl

theorem caught_state (c : LoadM σ α) (s : State σ) : ((caught c).run s).2 = (c.run s).2 := by
  cases result : c.run s with
  | mk r t =>
    cases r with
    | ok a => rw [caught_ok result]
    | error e =>
      rw [caught_error result]
      split <;> rfl

end

section
variable {R : State σ → State σ → Prop}

theorem steps_caught {c : LoadM σ α} (steps : Steps R c) : Steps R (caught c) := by
  intro s
  rw [caught_state]
  exact steps s

variable [IsPreorder (State σ) R]

theorem steps_get : Steps R (get (σ := σ)) := fun s => refl_of R s

theorem steps_ofExcept (result : Except Error α) : Steps R (ofExcept (σ := σ) result) := by
  cases result with
  | ok a => exact steps_pure a
  | error e => exact steps_throw e

theorem steps_refuse (bad : Bool) (e : Error) : Steps R (refuse (σ := σ) bad e) := by
  cases bad with
  | true => exact steps_throw e
  | false => exact steps_pure ()

theorem steps_onlyIf (condition : Bool) {c : LoadM σ Unit} (steps : Steps R c) : Steps R (onlyIf condition c) := by
  cases condition with
  | true => exact steps
  | false => exact steps_pure ()

end

variable {cfg : Config} {P : Platform σ}

theorem within_fmReadPartition (device : Device) (name : Text) (loadAddress : Nat) (size : UInt32) :
    Steps Within (tegrablFmReadPartition P device name loadAddress size) := by
  unfold tegrablFmReadPartition
  refine (within_attempting _).bind fun partitionSize => ?_
  refine (steps_refuse _ _).bind fun _ => ?_
  refine (steps_refuse _ _).bind fun _ => ?_
  refine (within_outside _).bind fun read => ?_
  refine (within_setMem _).bind fun _ => ?_
  exact (steps_ofExcept _).bind fun _ => steps_pure _

theorem within_fmReadFile (mountPath filePath : Text) (loadAddress : Nat) (size : UInt32) :
    Steps Within (fmReadFile P mountPath filePath loadAddress size) := by
  unfold fmReadFile
  refine (steps_refuse _ _).bind fun _ => ?_
  refine (within_outside _).bind fun opened => ?_
  refine (steps_refuse _ _).bind fun _ => ?_
  refine (within_outside _).bind fun stat => ?_
  cases stat with
  | none => exact steps_throw _
  | some statSize =>
    refine (steps_refuse _ _).bind fun _ => ?_
    refine (within_outside _).bind fun read => ?_
    refine (within_setMem _).bind fun _ => ?_
    exact (steps_refuse _ _).bind fun _ => steps_pure _

theorem within_fmReadElse (handle : FmHandle) (partitionName : Option Text) (loadAddress : Nat) (size : UInt32)
    (err : Option Error) : Steps Within (fmReadElse P handle partitionName loadAddress size err) := by
  unfold fmReadElse
  split
  · exact within_fmReadPartition _ _ _ _
  · exact steps_throw _
  · exact steps_pure _

theorem within_fmRead (handle : Option FmHandle) (filePath partitionName : Option Text) (loadAddress : Nat)
    (size : UInt32) : Steps Within (tegrablFmRead P handle filePath partitionName loadAddress size) := by
  unfold tegrablFmRead
  cases handle with
  | none => exact steps_throw _
  | some handle =>
    dsimp only
    split
    · refine (steps_caught (within_fmReadFile _ _ _ _)).bind fun read => ?_
      cases read with
      | ok fileSize => exact steps_pure _
      | error e => exact within_fmReadElse _ _ _ _ _
    · exact within_fmReadElse _ _ _ _ _

theorem within_validate (binType : BinType) (binName : Text) (binMaxSize : UInt32) (loadAddr : Nat) (binLen : UInt32) :
    Steps Within (tegrablValidateBinary P binType binName binMaxSize loadAddr binLen) := by
  unfold tegrablValidateBinary
  refine steps_get.bind fun before => ?_
  refine (within_outside _).bind fun ratchet => ?_
  have checks : Steps Within (authenticate P binType binName binMaxSize loadAddr binLen ratchet) := by
    unfold authenticate
    refine steps_get.bind fun s => ?_
    cases ratchet with
    | true => exact (steps_caught (within_onMemory _)).bind fun _ => steps_pure _
    | false => exact steps_pure _
  refine checks.bind fun answer => ?_
  exact Steps.bind (within_modify fun _ => rfl) fun _ => steps_pure _

theorem within_loadSigFile (handle : Option FmHandle) (binPath : Text) (binLoadAddr : Nat) (fileSize : UInt32) :
    Steps Within (loadSigFile P handle binPath binLoadAddr fileSize) := by
  unfold loadSigFile
  refine (within_setMem _).bind fun _ => ?_
  refine (steps_caught (within_fmRead _ _ _ _ _)).bind fun read => ?_
  exact (steps_onlyIf _ (within_setMem _)).bind fun _ => steps_pure _

section
variable (binType : BinType) (binTypeName : Text) (binMaxSize : UInt32) (binLoadAddr : Nat) (loadSize : SizeVar)

theorem within_checkSigned (fileSize : UInt32) (failFlag : Bool) :
    Steps Within (checkSigned P binType binTypeName binMaxSize binLoadAddr loadSize fileSize failFlag) := by
  unfold checkSigned
  refine steps_get.bind fun s => ?_
  refine (steps_onlyIf _ (within_setSize _ _)).bind fun _ => ?_
  refine (within_validate _ _ _ _ _).bind fun answer => ?_
  dsimp only
  split
  · exact steps_pure _
  · split
    · exact (steps_refuse _ _).bind fun _ => steps_pure _
    · refine (within_setSize _ _).bind fun _ => ?_
      exact (within_setMem _).bind fun _ => steps_pure _

theorem within_tryRootfs (handle : Option FmHandle) (binPath : Option Text) :
    Steps Within (tryRootfs cfg P handle binType binTypeName binMaxSize binPath binLoadAddr loadSize) := by
  unfold tryRootfs
  cases binPath with
  | none => exact steps_pure _
  | some path =>
    dsimp only
    unfold loadFromRootfs
    refine (steps_refuse _ _).bind fun _ => ?_
    refine (steps_caught (within_fmRead _ _ _ _ _)).bind fun read => ?_
    cases read with
    | error e => exact (steps_refuse _ _).bind fun _ => steps_pure _
    | ok fileSize =>
      refine (within_setSize _ _).bind fun _ => ?_
      split
      · refine (within_loadSigFile _ _ _ _).bind fun failFlag => ?_
        exact within_checkSigned _ _ _ _ _ _ _
      · exact steps_pure _

theorem within_fromPartition :
    Steps Within (loadBinaryFromPartition cfg P binType binTypeName binMaxSize binLoadAddr loadSize) := by
  have fetch : Steps Within (fetchFromPartition P binType binMaxSize binLoadAddr loadSize) := by
    unfold fetchFromPartition
    refine (within_onMemory _).bind fun loaded => ?_
    refine (steps_onlyIf _ (within_setMem _)).bind fun _ => ?_
    exact (within_setSize _ _).bind fun _ => steps_pure _
  unfold loadBinaryFromPartition
  refine fetch.bind fun fileSize => ?_
  have check : Steps Within (checkFetched cfg P binType binTypeName binMaxSize binLoadAddr fileSize) := by
    unfold checkFetched
    split
    · exact within_validate _ _ _ _ _
    · exact steps_pure _
  refine check.bind fun answer => ?_
  exact steps_get.bind fun s => steps_ofExcept _

theorem within_loadBinaryWithSig (handle : Option FmHandle) (binPath : Option Text) :
    Steps Within (loadBinaryWithSig cfg P handle binType binTypeName binMaxSize binPath binLoadAddr loadSize) := by
  unfold loadBinaryWithSig
  refine (steps_refuse _ _).bind fun _ => ?_
  refine (within_tryRootfs _ _ _ _ _ _ _).bind fun taken => ?_
  exact (steps_onlyIf _ (within_fromPartition _ _ _ _ _)).bind fun _ => steps_pure _

end

theorem within_getBootDetails (handle : FmHandle) : Steps Within (getBootDetails cfg P handle) := by
  unfold getBootDetails
  refine (within_outside _).bind fun buffer => ?_
  cases buffer with
  | none => exact steps_throw _
  | some confLoadAddr =>
    refine (within_setSize _ _).bind fun _ => ?_
    refine (within_loadBinaryWithSig _ _ _ _ _ _ _).bind fun _ => ?_
    refine steps_get.bind fun s => ?_
    refine (steps_refuse _ _).bind fun _ => ?_
    refine (within_setMem _).bind fun _ => steps_get.bind fun s => ?_
    refine (within_outside _).bind fun parsed => ?_
    exact Steps.bind (within_modify fun _ => rfl) fun _ => steps_ofExcept _

variable (handle : Option FmHandle)

theorem within_bootPaths : Steps Within (bootPaths cfg P handle) := by
  unfold bootPaths
  cases handle with
  | none => exact steps_pure _
  | some handle =>
    dsimp only
    split
    · exact steps_pure _
    · refine (steps_caught (within_getBootDetails _)).bind fun details => ?_
      cases details with
      | error e => exact steps_pure _
      | ok entry => exact Steps.bind (within_modify fun _ => rfl) fun _ => steps_pure _

theorem within_extlinuxLoadDtb (dtbPath : Option Text) :
    Steps Within (extlinuxLoadDtb cfg P handle dtbPath) := by
  unfold extlinuxLoadDtb
  refine steps_get.bind fun s => ?_
  split
  · exact Steps.bind (within_modify fun _ => rfl) fun _ => within_noteDtb
  · exact (within_loadBinaryWithSig _ _ _ _ _ _ _).bind fun _ => within_noteDtb

theorem within_freeSections (sections : List (Option Nat)) : Steps Within (freeSections P sections) := by
  induction sections with
  | nil => exact steps_pure _
  | cons ptr sections ih =>
    unfold freeSections tegrablFree
    refine Steps.bind ?_ fun _ => ih
    cases ptr with
    | none => exact steps_pure _
    | some ptr => exact (within_outside _).bind fun freed => steps_refuse _ _

theorem within_extlinuxLoad :
    Steps Within (extlinuxBootLoadKernelAndDtb cfg P handle) := by
  have load : Steps Within (extlinuxLoadKernelAndDtb cfg P handle) := by
    unfold extlinuxLoadKernelAndDtb
    refine (within_bootPaths _).bind fun paths => ?_
    refine (within_attempting _).bind fun addr => ?_
    refine Steps.bind (within_modify fun _ => rfl) fun _ => ?_
    refine (within_loadBinaryWithSig _ _ _ _ _ _ _).bind fun fromRootfs => ?_
    refine within_noteKernel.bind fun _ => ?_
    exact (steps_onlyIf _ (within_extlinuxLoadDtb _ _)).bind fun _ => steps_pure _
  unfold extlinuxBootLoadKernelAndDtb
  refine (steps_caught load).bind fun result => steps_get.bind fun s => ?_
  exact (within_freeSections _).bind fun _ => steps_ofExcept _

theorem within_loadRamdisk : Steps Within (extlinuxBootLoadRamdisk cfg P handle) := by
  unfold extlinuxBootLoadRamdisk
  refine (steps_refuse _ _).bind fun _ => ?_
  refine steps_get.bind fun s => ?_
  split
  · exact steps_pure _
  · refine Steps.bind (within_modify fun _ => rfl) fun _ => ?_
    refine (within_setSize _ _).bind fun _ => ?_
    exact (within_loadBinaryWithSig _ _ _ _ _ _ _).bind fun _ => within_modify fun _ => rfl

theorem within_ramdisk : Steps Within (do
    extlinuxBootLoadRamdisk cfg P handle
    modify fun s => { s with extlinuxBootIsSuccess := true }) :=
  (within_loadRamdisk handle).bind fun _ => within_modify fun _ => rfl

theorem within_extlinuxBoot : Steps Within (extlinuxBoot cfg P handle) := by
  unfold extlinuxBoot
  refine (within_extlinuxLoad _).bind fun fromRootfs => ?_
  exact steps_onlyIf _ (within_ramdisk _)

theorem within_validated (binType : BinType) (binName : Text) (binMaxSize : UInt32) (loadAddr : Nat) (binLen : UInt32) :
    Steps Within (validated P binType binName binMaxSize loadAddr binLen) := by
  unfold validated
  refine (within_validate _ _ _ _ _).bind fun answer => ?_
  exact (steps_ofExcept _).bind fun _ => steps_pure _

variable (row : ImgDtb)

theorem within_checkPair (addr : Nat) (imgSize : UInt32) :
    Steps Within (checkPair cfg P row addr imgSize) := by
  unfold checkPair
  split
  · refine (within_validated _ _ _ _ _).bind fun len => ?_
    refine (within_validated _ _ _ _ _).bind fun _ => ?_
    exact steps_get.bind fun s => steps_ofExcept _
  · exact steps_get.bind fun s => steps_ofExcept _

theorem within_loadFromPartition (handle : FmHandle) (isRecovery : Bool) :
    Steps Within (loadFromPartition cfg P handle isRecovery) := by
  unfold loadFromPartition
  refine (within_attempting _).bind fun addr => ?_
  refine Steps.bind (within_modify fun _ => rfl) fun _ => ?_
  refine (within_fmReadPartition _ _ _ _).bind fun imgSize => ?_
  refine within_noteKernel.bind fun _ => ?_
  refine (within_fmReadPartition _ _ _ _).bind fun _ => ?_
  exact within_noteDtb.bind fun _ => within_checkPair _ _ _

theorem quiet_mountFs (device : Device) (published : Bool) : Steps Quiet (mountFs P device published) := by
  have look : Steps Quiet (lookForFs P device published) := by
    unfold lookForFs
    split
    · exact quiet_outside _
    · exact steps_pure _
  unfold mountFs
  refine look.bind fun there => ?_
  split
  · refine (quiet_outside _).bind fun detected => ?_
    split
    · split
      · exact steps_pure _
      · exact (quiet_outside _).bind fun mounted => steps_pure _
    · exact steps_pure _
  · exact steps_pure _

theorem quiet_fmPublish (device : Device) : Steps Quiet (tegrablFmPublish cfg P device) := by
  unfold tegrablFmPublish
  refine (quiet_outside _).bind fun memory => ?_
  split
  · refine (quiet_outside _).bind fun published => ?_
    split
    · exact (quiet_mountFs _ _).bind fun path => steps_pure _
    · exact steps_pure _
  · exact steps_pure _

theorem quiet_openRemovable (device : Device) : Steps Quiet (openRemovable cfg P device) := by
  unfold openRemovable
  refine (quiet_attempting _).bind fun _ => ?_
  refine (quiet_outside _).bind fun opened => ?_
  exact (steps_refuse _ _).bind fun _ => quiet_fmPublish _

theorem within_loadNormal (handle : FmHandle) : Steps Within (loadNormal cfg P handle) := by
  unfold loadNormal
  split
  · exact within_extlinuxBoot _
  · exact (steps_refuse _ _).bind fun _ => within_loadFromPartition _ _

variable {request : Request}

theorem within_bootImageSize (addr : Nat) (size : UInt32) :
    Steps Within (bootImageSize cfg P row addr size) := by
  unfold bootImageSize
  split
  · exact within_validated _ _ _ _ _
  · exact steps_pure _

theorem within_loadBootImage : Steps Within (loadBootImage cfg P request row) := by
  unfold loadBootImage
  split
  · refine steps_get.bind fun s => ?_
    refine (within_onMemory _).bind fun loaded => ?_
    refine Steps.bind (within_modify fun _ => rfl) fun _ => ?_
    refine within_noteKernel.bind fun _ => ?_
    refine (within_bootImageSize _ _ _).bind fun len => ?_
    exact steps_get.bind fun s => steps_ofExcept _
  · split
    · exact steps_throw _
    · exact Steps.bind (within_modify fun _ => rfl) fun _ => within_noteKernel

theorem within_findDtb : Steps Within (findDtb P row) := by
  unfold findDtb
  refine steps_get.bind fun s => ?_
  split
  · exact within_modify fun _ => rfl
  · exact (within_onMemory _).bind fun loaded => within_modify fun _ => rfl

theorem within_checkDtb (addr : Nat) : Steps Within (onlyIf cfg.secureBoot do
    let _ ← validated P row.dtbBinType row.dtbName P.dtbMaxSize addr 0) :=
  steps_onlyIf _ ((within_validated _ _ _ _ _).bind fun _ => steps_pure _)

theorem within_loadDtb : Steps Within (loadDtb cfg P row) := by
  unfold loadDtb
  refine (within_findDtb _).bind fun _ => ?_
  refine within_noteDtb.bind fun _ => ?_
  exact steps_get.bind fun s => within_checkDtb _ _

theorem within_loadDtbo : Steps Within (loadDtbo P) := by
  unfold loadDtbo
  refine (within_outside _).bind fun buffer => ?_
  cases buffer with
  | none => exact steps_throw _
  | some buffer =>
    refine Steps.bind (within_modify fun _ => rfl) fun _ => ?_
    exact (within_onMemory _).bind fun loaded => within_modify fun _ => rfl

theorem within_tegrablLoadFromPartition (recovery : Bool) :
    Steps Within (tegrablLoadFromPartition cfg P request recovery) := by
  unfold tegrablLoadFromPartition
  refine (within_loadBootImage _).bind fun _ => ?_
  split
  · exact (within_loadDtb _).bind fun _ => steps_onlyIf _ within_loadDtbo
  · exact within_modify fun _ => rfl

theorem steps_orReset {R : State σ → State σ → Prop} [IsPreorder (State σ) R] (condition : Bool) {c : LoadM σ Unit}
    (steps : Steps R c) : Steps R (orReset condition c) := by
  unfold orReset
  refine (steps_caught steps).bind fun result => ?_
  cases result with
  | ok done => exact steps_pure _
  | error e =>
    dsimp only
    split
    · exact steps_throw _
    · exact steps_throw _

theorem within_extractKernel : Steps Within (extractKernel P) := by
  unfold extractKernel
  refine steps_get.bind fun s => ?_
  obtain ⟨payloadAddr, size, textOffset⟩ := kernelPayload P s
  refine (steps_refuse _ _).bind fun _ => ?_
  refine Steps.bind (within_modify fun _ => rfl) fun _ => ?_
  split
  · exact within_onMemory _
  · exact within_setMem _

theorem within_extractRamdisk : Steps Within (extractRamdisk P) := by
  unfold extractRamdisk
  refine Steps.bind (within_modify fun _ => rfl) fun _ => ?_
  refine steps_get.bind fun s => ?_
  refine (steps_refuse _ _).bind fun _ => ?_
  refine Steps.bind (within_modify fun _ => rfl) fun _ => ?_
  exact steps_onlyIf _ (within_setMem _)

theorem within_extractKernelDtb : Steps Within (extractKernelDtb cfg P) := by
  have overlay : Steps Within (applyOverlay P) := by
    unfold applyOverlay
    refine steps_get.bind fun s => ?_
    refine (steps_caught (within_onMemory _)).bind fun applied => ?_
    cases applied with
    | ok addr => exact within_modify fun _ => rfl
    | error e => exact steps_pure _
  unfold extractKernelDtb
  split
  · refine steps_get.bind fun s => ?_
    refine (within_onMemory _).bind fun _ => ?_
    refine (within_attempting _).bind fun _ => ?_
    refine Steps.bind (within_modify fun _ => rfl) fun _ => ?_
    refine (within_onMemory _).bind fun _ => ?_
    refine (steps_onlyIf _ (within_onMemory _)).bind fun _ => ?_
    exact steps_onlyIf _ overlay
  · exact steps_pure _

theorem within_extract : Steps Within (extract cfg P) := by
  have verify : Steps Within (verifyBoot P) := by
    unfold verifyBoot
    split
    · exact steps_pure _
    · exact within_modify fun _ => rfl
  unfold extract
  refine Steps.bind (within_modify fun _ => rfl) fun _ => ?_
  refine verify.bind fun _ => ?_
  refine within_extractKernel.bind fun _ => ?_
  refine steps_get.bind fun s => ?_
  exact (steps_onlyIf _ within_extractRamdisk).bind fun _ => within_extractKernelDtb

end

end Cboot.Linuxboot
