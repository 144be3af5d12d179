import Cboot.Blockdev.Registry

/-!
`drivers/sdmmc/tegrabl_sdmmc_bdev.c` and `drivers/ufs/tegrabl_ufs_bdev.c`, as far as they allocate, free
and register. Every allocation is a new block, so that what was freed is never mistaken for what came
after it. A pointer goes to the start of a block or to one of the structures that the UFS driver keeps
in its only buffer. Devices of other drivers are known by their device ids.
-/

namespace Cboot.Drivers
open Blockdev (blockDeviceId storageInvalid)

inductive Reason where
  | invalid
  | notSupported
  | noMemory
  | alreadyExists
  deriving DecidableEq, Repr

inductive Error where
  | own (reason : Reason) (detail : Nat)
  | controller (code : UInt32)
  deriving DecidableEq, Repr

inductive Kind where
  | sdmmcContext
  | sdmmcPriv
  | sdmmcDev
  | ufsContext
  | ufsBuffer
  | ufsRpmbDev
  | ufsDescriptor
  deriving DecidableEq, Repr

inductive Part where
  | start
  | userPriv
  | bootDev
  | userDev
  deriving DecidableEq, Repr

structure Ptr where
  block : Nat
  part : Part
  deriving DecidableEq, Repr

def Ptr.of (block : Nat) : Ptr := ⟨block, .start⟩

inductive Driver where
  | sdmmc
  | ufs
  deriving DecidableEq, Repr

/-- `tegrabl_bdev_t`, with the context that its private data refer to. -/
structure Dev where
  self : Ptr
  deviceId : UInt32
  ref : UInt32
  driver : Driver
  priv : Ptr
  context : Ptr
  deriving DecidableEq, Repr

/-- The members of `struct tegrabl_sdmmc_platform_params` that are compared. -/
structure SdmmcParams where
  clkSrc : UInt32
  bestMode : UInt32
  tapValue : UInt32
  trimValue : UInt32
  deriving DecidableEq, Repr

structure SdmmcContext where
  params : SdmmcParams
  controllerId : Nat
  countDevices : Nat
  deriving DecidableEq, Repr

/-- `devs` are the devices of the two drivers in the list of block devices, `others` the ids of the
devices of other drivers. -/
structure State where
  blocks : List Kind
  frees : List Ptr
  contexts : Nat → Option Nat
  sdmmc : Nat → SdmmcContext
  devs : List Dev
  bdevRegistration : Bool
  initDone : Bool
  ptxRxDesc : Option Nat
  pcmdDescriptor : Option Nat
  ptaskMgmntDesc : Option Nat
  others : List UInt32

structure Build where
  sdmmcRpmb : Bool
  ufsRpmb : Bool
  deriving DecidableEq, Repr

namespace State

def grown (s : State) (kind : Kind) : State := { s with blocks := s.blocks ++ [kind] }

def alloc (s : State) (kind : Kind) (memory : Bool) : Option Nat × State :=
  if memory then (some s.blocks.length, s.grown kind) else (none, s)

def free (s : State) (p : Ptr) : State := { s with frees := s.frees ++ [p] }

def setContext (s : State) (inst : Nat) (c : Option Nat) : State :=
  { s with contexts := Function.update s.contexts inst c }

def setSdmmc (s : State) (c : Nat) (context : SdmmcContext) : State :=
  { s with sdmmc := Function.update s.sdmmc c context }

def setCount (s : State) (c count : Nat) : State :=
  s.setSdmmc c { s.sdmmc c with countDevices := count }

section
variable (s : State) {i j c d : Nat}

@[simp] theorem length_grown (kind : Kind) : (s.grown kind).blocks.length = s.blocks.length + 1 :=
  List.length_append

@[simp] theorem alloc_true (kind : Kind) : s.alloc kind true = (some s.blocks.length, s.grown kind) := rfl

@[simp] theorem alloc_false (kind : Kind) : s.alloc kind false = (none, s) := rfl

@[simp] theorem contexts_setContext_self (context : Option Nat) : (s.setContext i context).contexts i = context :=
  Function.update_self _ _ _

theorem contexts_setContext_of_ne (other : j ≠ i) (context : Option Nat) :
    (s.setContext i context).contexts j = s.contexts j :=
  Function.update_of_ne other _ _

@[simp] theorem sdmmc_setSdmmc_self (context : SdmmcContext) : (s.setSdmmc c context).sdmmc c = context :=
  Function.update_self _ _ _

theorem sdmmc_setSdmmc_of_ne (other : d ≠ c) (context : SdmmcContext) : (s.setSdmmc c context).sdmmc d = s.sdmmc d :=
  Function.update_of_ne other _ _

end

def Taken (s : State) (id : UInt32) : Prop := id ∈ s.devs.map Dev.deviceId ∨ id ∈ s.others

instance (s : State) (id : UInt32) : Decidable (s.Taken id) := inferInstanceAs (Decidable (_ ∨ _))

end State

/-- `tegrabl_blockdev_register_device`, which counts the registration as a reference. -/
def tegrablBlockdevRegisterDevice (s : State) (dev : Dev) : Except Error Unit × State :=
  if s.Taken dev.deviceId then (.error (.own .alreadyExists 0), s)
  else (.ok (), { s with devs := s.devs ++ [dev] })

def maxSdmmcInstances : Nat := 4

inductive Region where
  | boot
  | user
  | rpmb
  deriving DecidableEq, Repr

def Region.storageType : Region → UInt32
  | boot => 0
  | user => 1
  | rpmb => 2

def Region.detail : Region → Nat
  | boot => 0
  | user => 2
  | rpmb => 4

def Region.deviceId (region : Region) (inst : Nat) : UInt32 :=
  blockDeviceId region.storageType (UInt32.ofNat inst)

def sdmmcRegions (build : Build) : List Region :=
  if build.sdmmcRpmb then [.boot, .user, .rpmb] else [.boot, .user]

structure RegionMemory where
  priv : Bool
  dev : Bool
  deriving DecidableEq, Repr

/-- What one call meets. The controller may change the parameters when it is initialised. -/
structure SdmmcEnv where
  memory : Bool
  init : Except Error SdmmcParams
  regions : Region → RegionMemory

def State.tally (s : State) (c : Nat) (region : Region) : State :=
  if region = .boot then s else s.setCount c ((s.sdmmc c).countDevices + 1)

def registerDevice (inst c : Nat) (memory : RegionMemory) (region : Region) (s : State) :
    (Except Error Unit × List Nat) × State :=
  match s.alloc .sdmmcPriv memory.priv with
  | (none, s) => ((.error (.own .noMemory region.detail), []), s)
  | (some priv, s) =>
    match (s.tally c region).alloc .sdmmcDev memory.dev with
    | (none, s) => ((.error (.own .noMemory (region.detail + 1)), [priv]), s)
    | (some dev, s) =>
      let registered := tegrablBlockdevRegisterDevice s
        ⟨.of dev, region.deviceId inst, 1, .sdmmc, .of priv, .of c⟩
      ((registered.1, [dev, priv]), registered.2)

def registerDevices (inst c : Nat) (memory : Region → RegionMemory) : List Region → State →
    (Except Error Unit × List Nat) × State
  | [], s => ((.ok (), []), s)
  | region :: regions, s =>
    match registerDevice inst c (memory region) region s with
    | ((.error e, blocks), s) => ((.error e, blocks), s)
    | ((.ok (), blocks), s) =>
      let rest := registerDevices inst c memory regions s
      ((rest.1.1, blocks ++ rest.1.2), rest.2)

/-- When one device fails, what was allocated for all of them is freed. -/
def sdmmcRegisterRegion (build : Build) (inst c : Nat) (memory : Region → RegionMemory) (s : State) :
    Except Error Unit × State :=
  match registerDevices inst c memory (sdmmcRegions build) (s.setCount c 1) with
  | ((.ok (), _), s) => (.ok (), s)
  | ((.error e, blocks), s) => (.error e, { s with frees := s.frees ++ blocks.map .of })

def sdmmcEnter (build : Build) (inst : Nat) (memory : Region → RegionMemory) (c : Nat) (s : State) :
    Except Error Unit × State :=
  if s.contexts inst = none then
    match sdmmcRegisterRegion build inst c memory s with
    | (.error e, s) => (.error e, s.free (.of c))
    | (.ok (), s) => (.ok (), s.setContext inst (some c))
  else (.ok (), s.setContext inst (some c))

def sdmmcConfigure (build : Build) (inst : Nat) (params : SdmmcParams) (env : SdmmcEnv) (c : Nat)
    (s : State) : Except Error Unit × State :=
  let s := s.setSdmmc c { s.sdmmc c with params := params, controllerId := inst }
  match env.init with
  | .error e => (.error e, s.free (.of c))
  | .ok tuned =>
    sdmmcEnter build inst env.regions c (s.setSdmmc c { s.sdmmc c with params := tuned })

def sdmmcBdevOpen (build : Build) (inst : Nat) (params : Option SdmmcParams) (env : SdmmcEnv)
    (s : State) : Except Error Unit × State :=
  match params with
  | none => (.error (.own .invalid 0), s)
  | some params =>
    if maxSdmmcInstances ≤ inst then (.error (.own .notSupported 6), s)
    else
      match s.contexts inst with
      | some c =>
        if (s.sdmmc c).params = params then (.ok (), s)
        else sdmmcConfigure build inst params env c s
      | none =>
        match s.alloc .sdmmcContext env.memory with
        | (none, s) => (.error (.own .noMemory 6), s)
        | (some c, s) =>
          sdmmcConfigure build inst params env c (s.setSdmmc c ⟨⟨0, 0, 0, 0⟩, 0, 0⟩)

def sdmmcBdevClose (dev : Dev) (s : State) : State :=
  let context := s.sdmmc dev.context.block
  let s :=
    if context.countDevices = 1 then
      (s.setContext context.controllerId none).free dev.context
    else if context.countDevices ≠ 0 then
      s.setCount dev.context.block (context.countDevices - 1)
    else s
  s.free dev.priv

def storageUfs : UInt32 := 7
def storageUfsUser : UInt32 := 8
def storageUfsRpmb : UInt32 := 9

structure UfsEnv where
  context : Bool
  ptxRxDesc : Bool
  pcmdDescriptor : Bool
  ptaskMgmntDesc : Bool
  init : Except Error Unit
  buffer : Bool
  bootCapacity : Except Error Unit
  userCapacity : Except Error Unit
  rpmbSupported : Bool
  rpmbDev : Bool

def tegrablUfsInit (env : UfsEnv) (s : State) : Except Error Unit × State :=
  match s.alloc .ufsDescriptor env.ptxRxDesc with
  | (none, s) => (.error (.own .noMemory 0), { s with ptxRxDesc := none })
  | (some trd, s) =>
    let s := { s with ptxRxDesc := some trd }
    match s.alloc .ufsDescriptor env.pcmdDescriptor with
    | (none, s) => (.error (.own .noMemory 0), { s with pcmdDescriptor := none })
    | (some cmd, s) =>
      let s := { s with pcmdDescriptor := some cmd }
      match s.alloc .ufsDescriptor env.ptaskMgmntDesc with
      | (none, s) => (.error (.own .noMemory 0), { s with ptaskMgmntDesc := none })
      | (some tmd, s) => (env.init, { s with ptaskMgmntDesc := some tmd })

/-- The device is freed at the label that success reaches too. -/
def ufsRegisterRpmb (env : UfsEnv) (c : Nat) (s : State) : Except Error Unit × State :=
  match s.alloc .ufsRpmbDev env.rpmbDev with
  | (none, s) => (.error (.own .noMemory 0), s)
  | (some rpmb, s) =>
    let registered := tegrablBlockdevRegisterDevice s
      ⟨.of rpmb, storageUfsRpmb <<< 16, 1, .ufs, .of c, .of c⟩
    (registered.1, { registered.2 with bdevRegistration := true }.free (.of rpmb))

/-- The two devices and their private data are in one buffer. -/
def tegrablUfsRegisterRegion (build : Build) (env : UfsEnv) (c : Nat) (s : State) :
    Except Error Unit × State :=
  match s.alloc .ufsBuffer env.buffer with
  | (none, s) => (.error (.own .noMemory 0), s)
  | (some b, s) =>
    match env.bootCapacity with
    | .error e => (.error e, s)
    | .ok () =>
      let s := (tegrablBlockdevRegisterDevice s
        ⟨⟨b, .bootDev⟩, storageUfs <<< 16, 1, .ufs, .of b, .of c⟩).2
      match env.userCapacity with
      | .error e => (.error e, s)
      | .ok () =>
        let registered := tegrablBlockdevRegisterDevice s
          ⟨⟨b, .userDev⟩, storageUfsUser <<< 16, 1, .ufs, ⟨b, .userPriv⟩, .of c⟩
        if build.ufsRpmb ∧ env.rpmbSupported then ufsRegisterRpmb env c registered.2
        else (registered.1, { registered.2 with bdevRegistration := true })

def ufsEnter (build : Build) (env : UfsEnv) (c : Nat) (s : State) : Except Error Unit × State :=
  if s.bdevRegistration then (.ok (), { s with initDone := true })
  else
    match tegrablUfsRegisterRegion build env c s with
    | (.error e, s) => (.error e, s)
    | (.ok (), s) => (.ok (), { s with initDone := true })

def tegrablUfsBdevOpen (build : Build) (reinit : Bool) (env : UfsEnv) (s : State) :
    Except Error Unit × State :=
  match { s with initDone := reinit }.alloc .ufsContext env.context with
  | (none, s) => (.error (.own .noMemory 0), s)
  | (some c, s) =>
    match tegrablUfsInit env s with
    | (.error e, s) => (.error e, s)
    | (.ok (), s) => ufsEnter build env c s

def tegrablUfsDeinit (s : State) : State :=
  { s with frees := s.frees ++ ([s.ptxRxDesc, s.pcmdDescriptor, s.ptaskMgmntDesc].filterMap id).map .of }

def tegrablUfsBdevClose (dev : Dev) (s : State) : State :=
  { tegrablUfsDeinit (s.free dev.priv) with initDone := false }

def Dev.setRef (p : Ptr) (ref : UInt32 → UInt32) (dev : Dev) : Dev :=
  if dev.self = p then { dev with ref := ref dev.ref } else dev

def State.setRef (s : State) (p : Ptr) (ref : UInt32 → UInt32) : State :=
  { s with devs := s.devs.map (Dev.setRef p ref) }

/-- `tegrabl_blockdev_open` on a device of the two drivers. -/
def tegrablBlockdevOpen (storageType inst : UInt32) (s : State) : State :=
  if storageInvalid ≤ storageType then s
  else
    match s.devs.find? fun dev => dev.ref = 0 ∨ dev.deviceId = blockDeviceId storageType inst with
    | none => s
    | some dev => if dev.ref = 0 then s else s.setRef dev.self (· + 1)

/-- `bdev_dec_ref` on a device in the list. -/
def bdevDecRef (p : Ptr) (s : State) : State :=
  match s.devs.find? fun dev => dev.self = p with
  | none => s
  | some dev =>
    if dev.ref = 1 then
      let s := { s with devs := s.devs.erase dev }
      let s :=
        match dev.driver with
        | .sdmmc => sdmmcBdevClose dev s
        | .ufs => tegrablUfsBdevClose dev s
      s.free dev.self
    else if dev.ref = 0 then s
    else s.setRef p (· - 1)

inductive Op where
  | sdmmcOpen (inst : Nat) (params : Option SdmmcParams) (env : SdmmcEnv)
  | ufsOpen (reinit : Bool) (env : UfsEnv)
  | blockdevOpen (storageType inst : UInt32)
  | blockdevClose (dev : Ptr)
  /-- Other drivers register devices and take them away. -/
  | elsewhere (others : List UInt32)

def step (build : Build) (s : State) (op : Op) : State :=
  match op with
  | .sdmmcOpen inst params env => (sdmmcBdevOpen build inst params env s).2
  | .ufsOpen reinit env => (tegrablUfsBdevOpen build reinit env s).2
  | .blockdevOpen storageType inst => tegrablBlockdevOpen storageType inst s
  | .blockdevClose dev => bdevDecRef dev s
  | .elsewhere others => { s with others := others }

def State.start : State where
  blocks := []
  frees := []
  contexts _ := none
  sdmmc _ := ⟨⟨0, 0, 0, 0⟩, 0, 0⟩
  devs := []
  bdevRegistration := false
  initDone := false
  ptxRxDesc := none
  pcmdDescriptor := none
  ptaskMgmntDesc := none
  others := []

end Cboot.Drivers
