import Cboot.Drivers.Holdings

/-!
What the registration of a controller's devices leaves behind, device by device and for all of them.
-/

namespace Cboot.Drivers

def Registers (s : State) (inst : Nat) (memory : Region → RegionMemory) (region : Region) : Prop :=
  (memory region).priv = true ∧ (memory region).dev = true ∧ ¬ s.Taken (region.deviceId inst)

section
variable {own : List Nat} {s t : State} {inst c : Nat} {memory : Region → RegionMemory} {region : Region}

def SdmmcContext.more (context : SdmmcContext) (region : Region) : SdmmcContext :=
  { context with countDevices := context.countDevices + if region = .boot then 0 else 1 }

theorem tally_eq (s : State) (c : Nat) (region : Region) :
    s.tally c region = s.setSdmmc c ((s.sdmmc c).more region) := by
  rw [State.tally]
  split
  · next boot => simp [boot, SdmmcContext.more, State.setSdmmc]
  · next other => simp [other, SdmmcContext.more, State.setCount]

def newDev (s : State) (inst c : Nat) (region : Region) : Dev :=
  ⟨.of (s.blocks.length + 1), region.deviceId inst, 1, .sdmmc, .of s.blocks.length, .of c⟩

structure Added (s t : State) (inst c : Nat) (region : Region) : Prop where
  devs : t.devs = s.devs ++ [newDev s inst c region]
  others : t.others = s.others
  contexts : t.contexts = s.contexts
  sdmmc : t.sdmmc c = (s.sdmmc c).more region
  sound : ∀ own, c ∈ own → Sound own s → Sound own t

structure Left (s t : State) (c : Nat) (blocks : List Nat) : Prop where
  devs : t.devs = s.devs
  new : ∀ b ∈ blocks, s.blocks.length ≤ b
  sound : ∀ own, c ∈ own → Sound own s → Sound (blocks ++ own) t

def halfway (s : State) (c : Nat) (region : Region) : State :=
  (s.grown .sdmmcPriv).setSdmmc c ((s.sdmmc c).more region)

theorem length_halfway (s : State) (c : Nat) (region : Region) :
    (halfway s c region).blocks.length = s.blocks.length + 1 :=
  s.length_grown _

theorem Sound.halfway (sound : Sound own s) (mine : c ∈ own) (region : Region) :
    Sound (s.blocks.length :: own) (halfway s c region) :=
  (sound.alloc .sdmmcPriv).setSdmmc (List.mem_cons_of_mem _ mine) _

theorem Sound.offered (sound : Sound own s) (mine : c ∈ own) (region : Region) :
    Sound ((s.blocks.length + 1) :: s.blocks.length :: own) ((Drivers.halfway s c region).grown .sdmmcDev) := by
  have both := (sound.halfway mine region).alloc .sdmmcDev
  rw [length_halfway] at both
  exact both

theorem registerDevice_eq (priv : (memory region).priv = true) (dev : (memory region).dev = true) :
    registerDevice inst c (memory region) region s =
      (((tegrablBlockdevRegisterDevice ((halfway s c region).grown .sdmmcDev) (newDev s inst c region)).1,
        [s.blocks.length + 1, s.blocks.length]),
        (tegrablBlockdevRegisterDevice ((halfway s c region).grown .sdmmcDev) (newDev s inst c region)).2) := by
  have tally : (s.grown .sdmmcPriv).tally c region = halfway s c region := tally_eq _ c region
  simp only [registerDevice, priv, dev, State.alloc_true, tally, length_halfway]
  rfl

theorem registerDevice_ok (registers : Registers s inst memory region) :
    ∃ t, registerDevice inst c (memory region) region s =
      ((.ok (), [s.blocks.length + 1, s.blocks.length]), t) ∧ Added s t inst c region := by
  obtain ⟨priv, dev, free⟩ := registers
  let u : State := (halfway s c region).grown .sdmmcDev
  let new : Dev := newDev s inst c region
  refine ⟨{ u with devs := u.devs ++ [new] }, ?_, rfl, rfl, rfl, ?_, ?_⟩
  · have made : tegrablBlockdevRegisterDevice u new = (.ok (), { u with devs := u.devs ++ [new] }) :=
      if_neg free
    rw [registerDevice_eq priv dev, made]
  · exact State.sdmmc_setSdmmc_self _ _
  · intro own mine sound
    have unused : Unused u new.owned := sound.unused (by simp [new, newDev, Dev.owned, Ptr.of])
    exact (sound.offered mine region).registerSdmmc rfl mine unused

theorem registerDevice_error (fails : ¬ Registers s inst memory region) :
    ∃ e blocks t, registerDevice inst c (memory region) region s = ((.error e, blocks), t) ∧ Left s t c blocks := by
  cases priv : (memory region).priv with
  | false =>
    refine ⟨.own .noMemory region.detail, [], s, ?_, rfl, by simp, ?_⟩
    · simp only [registerDevice, priv, State.alloc_false]
    · exact fun own mine sound => sound
  | true =>
    cases dev : (memory region).dev with
    | false =>
      refine ⟨.own .noMemory (region.detail + 1), [s.blocks.length], halfway s c region, ?_, rfl, by simp, ?_⟩
      · simp only [registerDevice, priv, dev, State.alloc_true, State.alloc_false, tally_eq]
        rfl
      · exact fun own mine sound => sound.halfway mine region
    | true =>
      let u : State := (halfway s c region).grown .sdmmcDev
      have taken : u.Taken (region.deviceId inst) := by
        by_contra free
        exact fails ⟨priv, dev, free⟩
      refine ⟨.own .alreadyExists 0, [s.blocks.length + 1, s.blocks.length], u, ?_, rfl, by simp, ?_⟩
      · have refused : tegrablBlockdevRegisterDevice u (newDev s inst c region) =
            (.error (.own .alreadyExists 0), u) := if_pos taken
        rw [registerDevice_eq priv dev, refused]
      · exact fun own mine sound => sound.offered mine region

variable (added : Added s t inst c region)
include added

theorem Added.users : t.users c = s.users c + 1 := by
  rw [State.users, added.devs, List.countP_append, State.users]
  simp [newDev, Ptr.of]

theorem Added.taken (id : UInt32) :
    t.Taken id ↔ s.Taken id ∨ id = region.deviceId inst := by
  rw [State.Taken, added.devs, added.others, State.Taken, List.map_append, List.mem_append]
  simp only [newDev, List.map_cons, List.map_nil, List.mem_singleton]
  exact or_right_comm

variable {other : Region}

omit added in
theorem deviceId_injective (inRange : inst < maxSdmmcInstances)
    (same : region.deviceId inst = other.deviceId inst) : region = other := by
  have four : inst = 0 ∨ inst = 1 ∨ inst = 2 ∨ inst = 3 := by
    rw [maxSdmmcInstances] at inRange
    omega
  obtain rfl | rfl | rfl | rfl := four <;> cases region <;> cases other <;> first | rfl | cases same

theorem Added.registers
    (inRange : inst < maxSdmmcInstances) (different : other ≠ region)
    (registers : Registers s inst memory other) : Registers t inst memory other := by
  obtain ⟨priv, dev, free⟩ := registers
  refine ⟨priv, dev, fun taken => ?_⟩
  cases (added.taken _).mp taken with
  | inl before => exact free before
  | inr now => exact different (deviceId_injective inRange now)

theorem Added.not_registers
    (fails : ¬ Registers s inst memory other) : ¬ Registers t inst memory other := by
  intro registers
  obtain ⟨priv, dev, free⟩ := registers
  exact fails ⟨priv, dev, fun taken => free ((added.taken _).mpr (.inl taken))⟩

structure AllAdded (s t : State) (c : Nat) (regions : List Region) : Prop where
  contexts : t.contexts = s.contexts
  users : t.users c = s.users c + regions.length
  controller : (t.sdmmc c).controllerId = (s.sdmmc c).controllerId
  count : (t.sdmmc c).countDevices = (s.sdmmc c).countDevices + regions.countP (· ≠ .boot)
  sound : ∀ own, c ∈ own → Sound own s → Sound own t

variable {regions : List Region}

theorem Added.all {u : State}
    (rest : AllAdded t u c regions) : AllAdded s u c (region :: regions) where
  contexts := rest.contexts.trans added.contexts
  users := by rw [rest.users, added.users, List.length_cons, Nat.add_right_comm, Nat.add_assoc]
  controller := by rw [rest.controller, added.sdmmc, SdmmcContext.more]
  count := by
    rw [rest.count, added.sdmmc, SdmmcContext.more, List.countP_cons]
    cases region <;> simp [Nat.add_assoc, Nat.add_comm 1]
  sound own mine sound := rest.sound own mine (added.sound own mine sound)

omit added

theorem registerDevices_ok (inRange : inst < maxSdmmcInstances)
    (nodup : regions.Nodup) (all : ∀ region ∈ regions, Registers s inst memory region) :
    ∃ blocks t, registerDevices inst c memory regions s = ((.ok (), blocks), t) ∧ AllAdded s t c regions := by
  induction regions generalizing s with
  | nil => exact ⟨[], s, rfl, rfl, rfl, rfl, rfl, fun own mine sound => sound⟩
  | cons region regions ih =>
    obtain ⟨off, nodup⟩ := List.nodup_cons.mp nodup
    obtain ⟨t, first, added⟩ := registerDevice_ok (c := c) (all region List.mem_cons_self)
    have others : ∀ other ∈ regions, Registers t inst memory other := by
      intro other mem
      have different : other ≠ region := fun same => off (same ▸ mem)
      exact added.registers inRange different (all other (List.mem_cons_of_mem _ mem))
    obtain ⟨blocks, u, rest, later⟩ := ih nodup others
    refine ⟨[s.blocks.length + 1, s.blocks.length] ++ blocks, u, ?_, added.all later⟩
    rw [registerDevices, first]
    simp only [rest]

theorem registerDevices_error (fails : ∃ region ∈ regions, ¬ Registers s inst memory region) :
    ∃ e blocks t, registerDevices inst c memory regions s = ((.error e, blocks), t) ∧ s.devs ⊆ t.devs := by
  induction regions generalizing s with
  | nil =>
    obtain ⟨region, mem, -⟩ := fails
    exact absurd mem List.not_mem_nil
  | cons region regions ih =>
    by_cases registers : Registers s inst memory region
    · obtain ⟨t, first, added⟩ := registerDevice_ok (c := c) registers
      obtain ⟨other, mem, fails⟩ := fails
      have later : other ∈ regions := by
        refine (List.mem_cons.mp mem).resolve_left fun same => ?_
        exact fails (same ▸ registers)
      obtain ⟨e, blocks, u, rest, devs⟩ := ih ⟨other, later, added.not_registers fails⟩
      refine ⟨e, [s.blocks.length + 1, s.blocks.length] ++ blocks, u, ?_, ?_⟩
      · rw [registerDevices, first]
        simp only [rest]
      · rw [added.devs] at devs
        exact List.Subset.trans (List.subset_append_left _ _) devs
    · obtain ⟨e, blocks, t, first, left⟩ := registerDevice_error (c := c) registers
      refine ⟨e, blocks, t, ?_, ?_⟩
      · rw [registerDevices, first]
      · rw [left.devs]
        exact List.Subset.refl _

theorem sdmmcRegions_eq (build : Build) : ∃ rest, sdmmcRegions build = .boot :: rest ∧
    (Region.boot :: rest).Nodup ∧ rest.countP (· ≠ .boot) = rest.length := by
  rw [sdmmcRegions]
  split
  · exact ⟨[.user, .rpmb], rfl, by decide, rfl⟩
  · exact ⟨[.user], rfl, by decide, rfl⟩

theorem sdmmcRegisterRegion_ok (build : Build) (inRange : inst < maxSdmmcInstances)
    (unused : s.users c = 0) (controller : (s.sdmmc c).controllerId = inst)
    (all : ∀ region ∈ sdmmcRegions build, Registers s inst memory region) :
    ∃ t, sdmmcRegisterRegion build inst c memory s = (.ok (), t) ∧ Entry t inst c ∧
      t.contexts = s.contexts ∧ ∀ own, c ∈ own → Sound own s → Sound own t := by
  obtain ⟨rest, regions, nodup, others⟩ := sdmmcRegions_eq build
  rw [regions] at all
  have registers : ∀ region ∈ .boot :: rest, Registers (s.setCount c 1) inst memory region := all
  obtain ⟨blocks, t, made, added⟩ := registerDevices_ok (c := c) inRange nodup registers
  have users : t.users c = rest.length + 1 := by
    rw [added.users, List.length_cons]
    exact (congrArg (· + (rest.length + 1)) unused).trans (Nat.zero_add _)
  refine ⟨t, ?_, ⟨inRange, ?_, ?_, ?_⟩, added.contexts, ?_⟩
  · rw [sdmmcRegisterRegion, regions, made]
  · rw [added.controller, State.setCount, State.sdmmc_setSdmmc_self]
    exact controller
  · rw [added.count, users, State.setCount, State.sdmmc_setSdmmc_self]
    simp only [List.countP_cons, others]
    simp [Nat.add_comm]
  · rw [users]
    exact Nat.succ_pos _
  · exact fun own mine sound => added.sound own mine (sound.setSdmmc mine _)

theorem sdmmcRegisterRegion_none (build : Build) (fails : ¬ Registers s inst memory .boot) :
    ∃ e t, sdmmcRegisterRegion build inst c memory s = (.error e, t) ∧ t.devs = s.devs ∧
      ∀ own, c ∈ own → Sound own s → Sound own t := by
  obtain ⟨rest, regions, -⟩ := sdmmcRegions_eq build
  have first : ¬ Registers (s.setCount c 1) inst memory .boot := fails
  obtain ⟨e, blocks, t, made, left⟩ := registerDevice_error (c := c) first
  refine ⟨e, { t with frees := t.frees ++ blocks.map .of }, ?_, left.devs, ?_⟩
  · rw [sdmmcRegisterRegion, regions, registerDevices, made]
  · intro own mine sound
    have before : Sound own (s.setCount c 1) := sound.setSdmmc mine _
    have unused : Unused t blocks := by
      have old := before.unused left.new
      rw [Unused, ← left.devs] at old
      exact old
    exact (left.sound own mine before).release _ (by simp [Ptr.of, Function.comp_def]) unused

theorem sdmmcRegisterRegion_some (build : Build) (registers : Registers s inst memory .boot)
    (fails : ∃ region ∈ sdmmcRegions build, ¬ Registers s inst memory region) :
    ∃ e t, sdmmcRegisterRegion build inst c memory s = (.error e, t) ∧ ∃ dev ∈ t.devs, dev.self ∈ t.frees := by
  obtain ⟨rest, regions, -⟩ := sdmmcRegions_eq build
  have first : Registers (s.setCount c 1) inst memory .boot := registers
  obtain ⟨u, made, added⟩ := registerDevice_ok (c := c) first
  obtain ⟨region, mem, fails⟩ := fails
  rw [regions] at mem
  have later : region ∈ rest := by
    refine (List.mem_cons.mp mem).resolve_left fun same => ?_
    exact fails (same ▸ registers)
  have fails' : ¬ Registers (s.setCount c 1) inst memory region := fails
  obtain ⟨e, blocks, t, rest', devs⟩ :=
    registerDevices_error (c := c) ⟨region, later, added.not_registers fails'⟩
  let n := (s.setCount c 1).blocks.length
  refine ⟨e, { t with frees := t.frees ++ ([n + 1, n] ++ blocks).map .of }, ?_,
    newDev (s.setCount c 1) inst c .boot, ?_, ?_⟩
  · rw [sdmmcRegisterRegion, regions, registerDevices, made]
    simp only [rest', n]
  · rw [added.devs] at devs
    exact devs (by simp)
  · simp [newDev, n]

end

end Cboot.Drivers
