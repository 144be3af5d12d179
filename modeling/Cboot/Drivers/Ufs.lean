import Cboot.Lib.Runs
import Cboot.Drivers.Sdmmc

/-!
Its devices are in one buffer that nobody frees while they are open. The RPMB device has a block of its
own, which is freed as soon as the device is registered.
-/

namespace Cboot.Drivers
open Lib

def UfsStarts (s : State) (env : UfsEnv) : Prop :=
  env.context = true ∧ env.ptxRxDesc = true ∧ env.pcmdDescriptor = true ∧ env.ptaskMgmntDesc = true ∧
    env.init.isOk ∧ s.bdevRegistration = false

def RpmbRegisters (build : Build) (s : State) (env : UfsEnv) : Prop :=
  env.buffer = true ∧ env.bootCapacity.isOk ∧ env.userCapacity.isOk ∧
    (build.ufsRpmb = true ∧ env.rpmbSupported = true) ∧ env.rpmbDev = true ∧ ¬ s.Taken (storageUfsRpmb <<< 16)

section
variable {s t : State} {c b : Nat} {build : Build} {env : UfsEnv} {dev : Dev}

def Spare (s : State) (b : Nat) : Prop := Apart s.blocks.length s.held s.freed b

theorem Spare.grow (spare : Spare s b) (grows : Grows s t) : Spare t b := by
  rw [Spare, grows.held, grows.freed]
  exact Apart.mono spare grows.blocks

theorem Sound.spare (sound : Sound [] s) (kind : Kind) : Spare (s.grown kind) s.blocks.length := by
  rw [Spare, State.length_grown]
  exact sound.ledger.fresh

theorem grows_grown (s : State) (kind : Kind) : Grows s (s.grown kind) := ⟨rfl, rfl, rfl, rfl, by simp⟩

theorem grows_ufsInit (env : UfsEnv) (s : State) : Grows s (tegrablUfsInit env s).2 := by
  rw [tegrablUfsInit]
  cases env.ptxRxDesc <;> cases env.pcmdDescriptor <;> cases env.ptaskMgmntDesc <;>
    exact ⟨rfl, rfl, rfl, rfl, by simp [State.grown]⟩

theorem Sound.offerUfs (sound : Sound [] s) (driver : dev.driver = .ufs)
    (place : dev.self.block = dev.priv.block) (priv : Spare s dev.priv.block) (context : Spare s dev.context.block) :
    Sound [] (tegrablBlockdevRegisterDevice s dev).2 ∧
      ∀ b, Spare s b → Spare (tegrablBlockdevRegisterDevice s dev).2 b := by
  rw [tegrablBlockdevRegisterDevice]
  split
  · exact ⟨sound, fun b spare => spare⟩
  · refine ⟨sound.registerUfs driver place priv context, fun b spare => ?_⟩
    have same := held_append s dev
    rw [Dev.owned, driver] at same
    exact Apart.perm spare same.symm

theorem taken_register {id : UInt32} (other : id ≠ dev.deviceId) :
    (tegrablBlockdevRegisterDevice s dev).2.Taken id ↔ s.Taken id := by
  rw [tegrablBlockdevRegisterDevice]
  split
  · exact Iff.rfl
  · simp [State.Taken, other]

def rpmbDev (s : State) (c : Nat) : Dev :=
  ⟨.of s.blocks.length, storageUfsRpmb <<< 16, 1, .ufs, .of c, .of c⟩

theorem ufsRegisterRpmb_memory (memory : env.rpmbDev = true) : (ufsRegisterRpmb env c s).2 =
    ({ (tegrablBlockdevRegisterDevice (s.grown .ufsRpmbDev) (rpmbDev s c)).2 with
      bdevRegistration := true }).free (.of s.blocks.length) := by
  rw [ufsRegisterRpmb, memory]
  rfl

theorem ufsRegisterRpmb_exact (sound : Sound [] s) (env : UfsEnv) (c : Nat) :
    Exact (¬ (env.rpmbDev = true ∧ ¬ s.Taken (storageUfsRpmb <<< 16))) (ufsRegisterRpmb env c s).2 := by
  cases memory : env.rpmbDev with
  | false =>
    rw [ufsRegisterRpmb, memory]
    exact Exact.always (by simp) sound
  | true =>
    rw [ufsRegisterRpmb_memory memory]
    by_cases taken : s.Taken (storageUfsRpmb <<< 16)
    · have refused : tegrablBlockdevRegisterDevice (s.grown .ufsRpmbDev) (rpmbDev s c) =
          (.error (.own .alreadyExists 0), s.grown .ufsRpmbDev) := if_pos taken
      rw [refused]
      have unused : Unused s [s.blocks.length] := sound.unused (by simp)
      have mine : Sound [s.blocks.length] { s.grown .ufsRpmbDev with bdevRegistration := true } :=
        (sound.alloc .ufsRpmbDev).grow ⟨rfl, rfl, rfl, rfl, Nat.le_refl _⟩
      exact Exact.always (fun goes => goes.2 taken) (mine.release [.of s.blocks.length] rfl unused)
    · have made : tegrablBlockdevRegisterDevice (s.grown .ufsRpmbDev) (rpmbDev s c) =
          (.ok (), { s.grown .ufsRpmbDev with devs := s.devs ++ [rpmbDev s c] }) := if_neg taken
      rw [made]
      refine Exact.never (fun avoids => avoids ⟨rfl, taken⟩) ?_
      exact not_backed_of_dev (List.mem_append_right _ (List.mem_singleton_self (rpmbDev s c)))
        (List.mem_append_right _ (List.mem_singleton_self _))

def bootOffered (s : State) (c : Nat) : State :=
  (tegrablBlockdevRegisterDevice (s.grown .ufsBuffer) ⟨⟨s.blocks.length, .bootDev⟩, storageUfs <<< 16, 1,
    .ufs, .of s.blocks.length, .of c⟩).2

def userOffered (s : State) (c : Nat) : State :=
  (tegrablBlockdevRegisterDevice (bootOffered s c) ⟨⟨s.blocks.length, .userDev⟩, storageUfsUser <<< 16, 1,
    .ufs, ⟨s.blocks.length, .userPriv⟩, .of c⟩).2

theorem Sound.bootOffered (sound : Sound [] s) (spare : Spare s c) :
    Sound [] (bootOffered s c) ∧ Spare (bootOffered s c) s.blocks.length ∧ Spare (bootOffered s c) c := by
  have first : Sound [] (s.grown .ufsBuffer) := sound.grow (grows_grown s _)
  have context : Spare (s.grown .ufsBuffer) c := spare.grow (grows_grown s _)
  have buffer := sound.spare .ufsBuffer
  obtain ⟨second, kept⟩ : Sound [] (Drivers.bootOffered s c) ∧ ∀ b, Spare (s.grown .ufsBuffer) b →
      Spare (Drivers.bootOffered s c) b := first.offerUfs rfl rfl buffer context
  exact ⟨second, kept _ buffer, kept c context⟩

theorem Sound.userOffered (sound : Sound [] s) (spare : Spare s c) : Sound [] (userOffered s c) := by
  obtain ⟨first, buffer, context⟩ := sound.bootOffered spare
  exact (first.offerUfs rfl rfl buffer context).1

theorem taken_userOffered (s : State) (c : Nat) :
    (userOffered s c).Taken (storageUfsRpmb <<< 16) ↔ s.Taken (storageUfsRpmb <<< 16) := by
  have boot : storageUfsRpmb <<< 16 ≠ storageUfs <<< 16 := by decide
  have user : storageUfsRpmb <<< 16 ≠ storageUfsUser <<< 16 := by decide
  exact (taken_register user).trans (taken_register boot)

theorem ufsRegisterRegion_exact (sound : Sound [] s) (spare : Spare s c) (build : Build) (env : UfsEnv) :
    Exact (¬ RpmbRegisters build s env) (tegrablUfsRegisterRegion build env c s).2 := by
  rw [tegrablUfsRegisterRegion]
  cases memory : env.buffer with
  | false => exact Exact.always (by simp [RpmbRegisters, memory]) sound
  | true =>
    cases boot : env.bootCapacity with
    | error e =>
      exact Exact.always (by simp [RpmbRegisters, boot, Except.isOk, Except.toBool])
        (sound.grow (grows_grown s _))
    | ok _ =>
      cases user : env.userCapacity with
      | error e =>
        exact Exact.always (by simp [RpmbRegisters, user, Except.isOk, Except.toBool])
          (sound.bootOffered spare).1
      | ok _ =>
        have offered := sound.userOffered spare
        by_cases rpmb : build.ufsRpmb = true ∧ env.rpmbSupported = true
        · simp only [State.alloc_true, if_pos rpmb]
          have last := ufsRegisterRpmb_exact offered env c
          rw [taken_userOffered] at last
          have same : RpmbRegisters build s env ↔ env.rpmbDev = true ∧ ¬ s.Taken (storageUfsRpmb <<< 16) := by
            simp [RpmbRegisters, memory, boot, user, rpmb, Except.isOk, Except.toBool]
          rw [same]
          exact last
        · simp only [State.alloc_true, if_neg rpmb]
          exact Exact.always (fun goes => rpmb goes.2.2.2.1)
            (offered.grow ⟨rfl, rfl, rfl, rfl, Nat.le_refl _⟩)

theorem eq_ok {answer : Except Error Unit} (ok : answer.isOk = true) : answer = .ok () := by
  cases answer with
  | ok _ => rfl
  | error e => cases ok

theorem ufsInit_ok_iff (env : UfsEnv) (s : State) : (tegrablUfsInit env s).1 = .ok () ↔ env.ptxRxDesc = true ∧
    env.pcmdDescriptor = true ∧ env.ptaskMgmntDesc = true ∧ env.init = .ok () := by
  rw [tegrablUfsInit]
  cases env.ptxRxDesc <;> cases env.pcmdDescriptor <;> cases env.ptaskMgmntDesc <;> simp

theorem ufsInit_same (env : UfsEnv) (s : State) : (tegrablUfsInit env s).2.bdevRegistration = s.bdevRegistration ∧
      (tegrablUfsInit env s).2.others = s.others := by
  rw [tegrablUfsInit]
  cases env.ptxRxDesc <;> cases env.pcmdDescriptor <;> cases env.ptaskMgmntDesc <;> exact ⟨rfl, rfl⟩

theorem Exact.initDone {avoids : Prop} (exact : Exact avoids t) (done : Bool) :
    Exact avoids { t with initDone := done } where
  keeps avoids := (exact.keeps avoids).grow ⟨rfl, rfl, rfl, rfl, Nat.le_refl _⟩
  breaks goes backed := exact.breaks goes ⟨backed.devs, backed.contexts, backed.once⟩

theorem ufsEnter_exact (sound : Sound [] s) (spare : Spare s c) (build : Build) (env : UfsEnv) :
    Exact (s.bdevRegistration = false → ¬ RpmbRegisters build s env) (ufsEnter build env c s).2 := by
  rw [ufsEnter]
  split
  · next registered =>
    have now : Exact (s.bdevRegistration = false → ¬ RpmbRegisters build s env) s :=
      Exact.always (fun fresh => absurd (registered.symm.trans fresh) nofun) sound
    exact now.initDone true
  · next fresh =>
    have region := ufsRegisterRegion_exact sound spare build env
    simp only [Bool.eq_false_iff.mpr fresh, forall_const]
    cases answer : tegrablUfsRegisterRegion build env c s with
    | mk result t =>
      rw [answer] at region
      cases result with
      | error e => exact region
      | ok _ => exact region.initDone true

theorem ufsOpen_exact (sound : Sound [] s) (reinit : Bool) (env : UfsEnv) :
    Exact (UfsStarts s env → ¬ RpmbRegisters build s env) (tegrablUfsBdevOpen build reinit env s).2 := by
  let s₁ : State := { s with initDone := reinit }
  have first : Sound [] s₁ := sound.grow ⟨rfl, rfl, rfl, rfl, Nat.le_refl _⟩
  rw [tegrablUfsBdevOpen]
  cases memory : env.context with
  | false => exact Exact.always (fun starts => absurd starts.1 (by simp [memory])) first
  | true =>
    simp only [State.alloc_true]
    let s₂ : State := s₁.grown .ufsContext
    have grows := grows_ufsInit env s₂
    obtain ⟨registration, others⟩ := ufsInit_same env s₂
    have ok := ufsInit_ok_iff env s₂
    have third : Sound [] (tegrablUfsInit env s₂).2 := (first.grow (grows_grown s₁ _)).grow grows
    have spare := (first.spare .ufsContext).grow grows
    cases init : tegrablUfsInit env s₂ with
    | mk result t =>
      rw [init] at registration others grows third spare ok
      cases result with
      | error e =>
        refine Exact.always (fun starts => ?_) third
        obtain ⟨-, trd, cmd, tmd, controller, -⟩ := starts
        cases ok.mpr ⟨trd, cmd, tmd, eq_ok controller⟩
      | ok _ =>
        obtain ⟨trd, cmd, tmd, fine⟩ := ok.mp rfl
        have enter := ufsEnter_exact third spare build env
        have same : t.bdevRegistration = s.bdevRegistration := registration
        have starts : UfsStarts s env ↔ t.bdevRegistration = false := by
          simp [UfsStarts, memory, trd, cmd, tmd, fine, same, Except.isOk, Except.toBool]
        have rpmb : RpmbRegisters build s env ↔ RpmbRegisters build t env := by
          rw [RpmbRegisters, RpmbRegisters, State.Taken, State.Taken, grows.devs, others]
          rfl
        rw [starts, rpmb]
        exact enter

end

def Avoids (build : Build) (s : State) : Op → Prop
  | .sdmmcOpen inst (some params) env =>
    inst < maxSdmmcInstances → SdmmcAvoids build s inst params env
  | .ufsOpen _ env => UfsStarts s env → ¬ RpmbRegisters build s env
  | .blockdevClose p => ∀ dev, s.devs.find? (fun dev => dev.self = p) = some dev →
    dev.driver = .ufs → dev.ref ≠ 1
  | _ => True

section
variable {s : State} {build : Build} {dev : Dev}

theorem sdmmcOpen_exact (sound : Sound [] s) (inst : Nat) (params : Option SdmmcParams) (env : SdmmcEnv) :
    Exact (Avoids build s (.sdmmcOpen inst params env)) (sdmmcBdevOpen build inst params env s).2 := by
  cases params with
  | none => exact Exact.always trivial sound
  | some params =>
    by_cases inRange : inst < maxSdmmcInstances
    · simp only [Avoids, inRange, forall_const]
      cases entry : s.contexts inst with
      | none => exact sdmmcOpen_new_exact sound inRange entry
      | some c => exact sdmmcOpen_old_exact sound inRange entry
    · rw [sdmmcBdevOpen, if_pos (Nat.not_lt.mp inRange)]
      exact Exact.always (fun small => absurd small inRange) sound

theorem blockdevOpen_sound (sound : Sound [] s) (storageType inst : UInt32) :
    Sound [] (tegrablBlockdevOpen storageType inst s) := by
  rw [tegrablBlockdevOpen]
  split
  · exact sound
  · split
    · exact sound
    · split
      · exact sound
      · exact sound.setRef _ _

theorem not_backed_ufsClose (place : dev.self.block = dev.priv.block) :
    ¬ Backed ((tegrablUfsBdevClose dev s).free dev.self) := by
  intro backed
  have once := backed.once
  have freed : ((tegrablUfsBdevClose dev s).free dev.self).freed =
      (tegrablUfsBdevClose dev s).freed ++ [dev.self.block] := List.map_append
  have priv : dev.priv.block ∈ (tegrablUfsBdevClose dev s).freed :=
    List.mem_map_of_mem (List.mem_append_left _ (List.mem_append_right _ (List.mem_singleton_self _)))
  rw [freed, List.nodup_append'] at once
  exact once.2.2 priv (List.mem_singleton.mpr place.symm)

theorem blockdevClose_exact (sound : Sound [] s) (p : Ptr) :
    Exact (Avoids build s (.blockdevClose p)) (bdevDecRef p s) := by
  rw [bdevDecRef]
  simp only [Avoids]
  cases found : s.devs.find? fun dev => dev.self = p with
  | none => exact Exact.always nofun sound
  | some dev =>
    have mem := List.mem_of_find?_eq_some found
    by_cases last : dev.ref = 1
    · simp only [if_pos last]
      cases driver : dev.driver with
      | sdmmc =>
        refine Exact.always ?_ (sound.close mem driver)
        rintro _ ⟨rfl⟩ ufs
        rw [driver] at ufs
        cases ufs
      | ufs =>
        obtain ⟨place, -⟩ := sound.ufs dev mem driver
        exact Exact.never (fun avoids => avoids dev rfl driver last) (not_backed_ufsClose place)
    · simp only [if_neg last]
      refine Exact.always ?_ ?_
      · rintro _ ⟨rfl⟩ -
        exact last
      · split
        · exact sound
        · exact sound.setRef _ _

theorem step_exact (build : Build) (sound : Sound [] s) (op : Op) : Exact (Avoids build s op) (step build s op) := by
  cases op with
  | sdmmcOpen inst params env => exact sdmmcOpen_exact sound inst params env
  | ufsOpen reinit env => exact ufsOpen_exact sound reinit env
  | blockdevOpen storageType inst => exact Exact.always trivial (blockdevOpen_sound sound storageType inst)
  | blockdevClose p => exact blockdevClose_exact sound p
  | elsewhere others => exact Exact.always trivial (sound.grow ⟨rfl, rfl, rfl, rfl, Nat.le_refl _⟩)

end

/-- The devices stay backed in exactly the runs that avoid the defects. -/
theorem devices_backed (build : Build) (ops : List Op) :
    Throughout (step build) Backed State.start ops ↔ EachStep (step build) (Avoids build) State.start ops := by
  refine throughout_iff_eachStep (I := Sound []) ?_ ?_ sound_start sound_start.backed ops
  · intro s op sound _ backed
    have one := step_exact build sound op
    by_cases avoids : Avoids build s op
    · exact one.keeps avoids
    · exact absurd backed (one.breaks avoids)
  · intro s op sound _
    have one := step_exact build sound op
    constructor
    · intro backed
      by_contra goes
      exact one.breaks goes backed
    · exact fun avoids => (one.keeps avoids).backed

def plenty : Region → RegionMemory := fun _ => ⟨true, true⟩

def ready : UfsEnv := ⟨true, true, true, true, .ok (), true, .ok (), .ok (), true, true⟩

/-- There is no memory for the user device of a controller; a controller fails with new parameters; the
UFS boot device is closed; the UFS RPMB device is registered. -/
theorem devices_unbacked :
    ¬ Throughout (step ⟨false, false⟩) Backed State.start
      [.sdmmcOpen 3 (some ⟨0, 0, 0, 0⟩) ⟨true, .ok ⟨0, 0, 0, 0⟩, fun region => ⟨region = .boot, true⟩⟩] ∧
    ¬ Throughout (step ⟨false, false⟩) Backed State.start
      [.sdmmcOpen 3 (some ⟨0, 0, 0, 0⟩) ⟨true, .ok ⟨0, 0, 0, 0⟩, plenty⟩,
        .sdmmcOpen 3 (some ⟨0, 1, 0, 0⟩) ⟨true, .error (.controller 1), plenty⟩] ∧
    ¬ Throughout (step ⟨false, false⟩) Backed State.start [.ufsOpen false ready, .blockdevClose ⟨4, .bootDev⟩] ∧
    ¬ Throughout (step ⟨false, true⟩) Backed State.start [.ufsOpen false ready] := by
  simp only [throughout_cons, throughout_nil]
  decide +kernel

end Cboot.Drivers
