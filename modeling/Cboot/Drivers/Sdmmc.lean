import Cboot.Drivers.Regions

/-!
Every block device in the list, its private data and its context are to be memory that was not freed, and so are the
contexts in the table.
-/

namespace Cboot.Drivers
open Lib

def Live (s : State) (p : Ptr) : Prop := p.block < s.blocks.length ∧ p.block ∉ s.freed

instance (s : State) (p : Ptr) : Decidable (Live s p) := inferInstanceAs (Decidable (_ ∧ _))

structure Backed (s : State) : Prop where
  devs : ∀ dev ∈ s.devs, Live s dev.self ∧ Live s dev.priv ∧ Live s dev.context
  contexts : ∀ i < maxSdmmcInstances, ∀ c ∈ s.contexts i, Live s (.of c)
  once : s.freed.Nodup

instance (s : State) : Decidable (Backed s) :=
  decidable_of_iff ((∀ dev ∈ s.devs, Live s dev.self ∧ Live s dev.priv ∧ Live s dev.context) ∧
      (∀ i < maxSdmmcInstances, ∀ c ∈ s.contexts i, Live s (.of c)) ∧ s.freed.Nodup)
    ⟨fun h => ⟨h.1, h.2.1, h.2.2⟩, fun h => ⟨h.devs, h.contexts, h.once⟩⟩

def SdmmcAvoids (build : Build) (s : State) (inst : Nat) (params : SdmmcParams) (env : SdmmcEnv) : Prop :=
  match s.contexts inst with
  | some c => (s.sdmmc c).params = params ∨ env.init.isOk
  | none => env.memory = true → env.init.isOk → Registers s inst env.regions .boot →
    ∀ region ∈ sdmmcRegions build, Registers s inst env.regions region

section
variable {own : List Nat} {s t : State} {inst c : Nat} {memory : Region → RegionMemory} {region : Region}

theorem Sound.backed (sound : Sound [] s) : Backed s where
  devs := by
    intro dev mem
    cases driver : dev.driver with
    | sdmmc =>
      have held : ∀ b ∈ dev.owned, b ∈ s.held := fun b owned =>
        List.mem_append_left _ (List.mem_flatMap.mpr ⟨dev, mem, owned⟩)
      rw [Dev.owned, driver] at held
      have tabled : dev.context.block ∈ s.tabled := sound.sdmmc dev mem driver
      have context : dev.context.block ∈ s.held := List.mem_append_right _ tabled
      exact ⟨sound.ledger.live (held _ (by simp)), sound.ledger.live (held _ (by simp)), sound.ledger.live context⟩
    | ufs =>
      obtain ⟨place, priv, context⟩ := sound.ufs dev mem driver
      refine ⟨?_, priv.live, context.live⟩
      rw [Live, place]
      exact priv.live
  contexts i _ c entry := sound.ledger.live (sound.mem_held entry)
  once := (List.nodup_append'.mp sound.ledger.once).2.1

structure Exact (avoids : Prop) (t : State) : Prop where
  keeps : avoids → Sound [] t
  breaks : ¬ avoids → ¬ Backed t

theorem Exact.always {avoids : Prop} (holds : avoids) (sound : Sound [] t) : Exact avoids t :=
  ⟨fun _ => sound, fun fails => absurd holds fails⟩

theorem Exact.never {avoids : Prop} (fails : ¬ avoids) (broken : ¬ Backed t) : Exact avoids t :=
  ⟨fun holds => absurd holds fails, fun _ => broken⟩

theorem not_backed_of_dev {dev : Dev} (mem : dev ∈ s.devs) (freed : dev.self ∈ s.frees) : ¬ Backed s :=
  fun backed => (backed.devs dev mem).1.2 (List.mem_map_of_mem freed)

variable {build : Build} {params : SdmmcParams} {env : SdmmcEnv}

theorem users_eq_zero (unused : Unused s [c]) : s.users c = 0 := by
  refine List.countP_eq_zero.mpr fun dev mem user => ?_
  obtain ⟨driver, context⟩ := of_decide_eq_true user
  exact unused dev mem driver (List.mem_singleton.mpr context)

theorem sdmmcConfigure_ok {tuned : SdmmcParams} (init : env.init = .ok tuned) :
    sdmmcConfigure build inst params env c s = sdmmcEnter build inst env.regions c
      (s.setSdmmc c ⟨tuned, inst, (s.sdmmc c).countDevices⟩) := by
  rw [sdmmcConfigure, init]
  simp [State.setSdmmc]

theorem sdmmcConfigure_error {e : Error} (init : env.init = .error e) : sdmmcConfigure build inst params env c s =
      (.error e, (s.setSdmmc c ⟨params, inst, (s.sdmmc c).countDevices⟩).free (.of c)) := by
  rw [sdmmcConfigure, init]

theorem sound_enter_new (sound : Sound [c] s) (inRange : inst < maxSdmmcInstances)
    (empty : s.contexts inst = none) (controller : (s.sdmmc c).controllerId = inst)
    (unused : Unused s [c]) (avoids : Registers s inst memory .boot →
      ∀ region ∈ sdmmcRegions build, Registers s inst memory region) :
    Sound [] (sdmmcEnter build inst memory c s).2 := by
  have mine : c ∈ [c] := List.mem_singleton_self c
  rw [sdmmcEnter, if_pos empty]
  by_cases boot : Registers s inst memory .boot
  · obtain ⟨t, made, entry, contexts, kept⟩ :=
      sdmmcRegisterRegion_ok build inRange (users_eq_zero unused) controller (avoids boot)
    rw [made]
    exact (kept [c] mine sound).setContext (by rw [contexts, empty]) entry
  · obtain ⟨e, t, made, devs, kept⟩ := sdmmcRegisterRegion_none (c := c) build boot
    rw [made]
    have still : Unused t [c] := by
      rw [Unused, devs]
      exact unused
    exact (kept [c] mine sound).release [.of c] rfl still

theorem not_backed_enter (empty : s.contexts inst = none) (boot : Registers s inst memory .boot)
    (fails : ∃ region ∈ sdmmcRegions build, ¬ Registers s inst memory region) :
    ¬ Backed (sdmmcEnter build inst memory c s).2 := by
  obtain ⟨e, t, made, dev, mem, freed⟩ := sdmmcRegisterRegion_some (c := c) build boot fails
  rw [sdmmcEnter, if_pos empty, made]
  have mem' : dev ∈ (t.free (.of c)).devs := mem
  exact not_backed_of_dev mem' (List.mem_append_left _ freed)

theorem Sound.retune (sound : Sound own s) (there : s.contexts inst = some c) (tuned : SdmmcParams) :
    Sound own (s.setSdmmc c ⟨tuned, inst, (s.sdmmc c).countDevices⟩) where
  ledger := sound.ledger
  ufs := sound.ufs
  sdmmc := sound.sdmmc
  table := by
    intro i d entry
    have old := sound.table i d entry
    by_cases same : d = c
    · subst same
      have first := sound.table inst d there
      have index : i = inst := old.controller.symm.trans first.controller
      refine ⟨old.inRange, ?_, ?_, old.used⟩
      · rw [State.sdmmc_setSdmmc_self, index]
      · rw [State.sdmmc_setSdmmc_self]
        exact old.count
    · exact old.congr (s.sdmmc_setSdmmc_of_ne same _) rfl

theorem sdmmcEnter_old (there : s.contexts inst = some c) : sdmmcEnter build inst memory c s = (.ok (), s) := by
  have same : s.setContext inst (some c) = s := by
    rw [State.setContext, ← there, Function.update_eq_self]
  rw [sdmmcEnter, if_neg (by simp [there]), same]

theorem sdmmcOpen_new (inRange : inst < maxSdmmcInstances) (empty : s.contexts inst = none) :
    sdmmcBdevOpen build inst (some params) env s =
      if env.memory then sdmmcConfigure build inst params env s.blocks.length
        ((s.grown .sdmmcContext).setSdmmc s.blocks.length ⟨⟨0, 0, 0, 0⟩, 0, 0⟩)
      else (.error (.own .noMemory 6), s) := by
  rw [sdmmcBdevOpen]
  simp only [if_neg (Nat.not_le.mpr inRange), empty]
  cases env.memory with
  | false => rfl
  | true => rfl

theorem sdmmcOpen_old (inRange : inst < maxSdmmcInstances) (there : s.contexts inst = some c) :
    sdmmcBdevOpen build inst (some params) env s =
      if (s.sdmmc c).params = params then (.ok (), s) else sdmmcConfigure build inst params env c s := by
  rw [sdmmcBdevOpen]
  simp only [if_neg (Nat.not_le.mpr inRange), there]

theorem sdmmcOpen_new_exact (sound : Sound [] s) (inRange : inst < maxSdmmcInstances) (empty : s.contexts inst = none) :
    Exact (SdmmcAvoids build s inst params env) (sdmmcBdevOpen build inst (some params) env s).2 := by
  let c := s.blocks.length
  rw [sdmmcOpen_new inRange empty]
  simp only [SdmmcAvoids, empty]
  cases memory : env.memory with
  | false => exact Exact.always (by simp) sound
  | true =>
    let s₁ : State := (s.grown .sdmmcContext).setSdmmc c ⟨⟨0, 0, 0, 0⟩, 0, 0⟩
    have mine : c ∈ [c] := List.mem_singleton_self c
    have first : Sound [c] s₁ := (sound.alloc .sdmmcContext).setSdmmc mine _
    have unused : Unused s₁ [c] := sound.unused (by simp [c])
    rw [if_pos rfl]
    cases init : env.init with
    | error e =>
      rw [sdmmcConfigure_error init]
      refine Exact.always (by simp [Except.isOk, Except.toBool]) ?_
      exact (first.setSdmmc mine _).release [.of c] rfl unused
    | ok tuned =>
      rw [sdmmcConfigure_ok init]
      constructor
      · intro avoids
        exact sound_enter_new (first.setSdmmc mine _) inRange empty (by simp) unused (avoids rfl rfl)
      · intro goes
        simp only [Classical.not_imp, not_forall] at goes
        obtain ⟨-, -, boot, region, mem, fails⟩ := goes
        exact not_backed_enter empty boot ⟨region, mem, fails⟩

theorem sdmmcOpen_old_exact (sound : Sound [] s) (inRange : inst < maxSdmmcInstances)
    (there : s.contexts inst = some c) :
    Exact (SdmmcAvoids build s inst params env) (sdmmcBdevOpen build inst (some params) env s).2 := by
  rw [sdmmcOpen_old inRange there]
  simp only [SdmmcAvoids, there]
  split
  · next same => exact Exact.always (.inl same) sound
  · next different =>
    cases init : env.init with
    | ok tuned =>
      have kept : Sound [] (s.setSdmmc c ⟨tuned, inst, (s.sdmmc c).countDevices⟩) :=
        sound.retune there tuned
      rw [sdmmcConfigure_ok init, sdmmcEnter_old (s := s.setSdmmc c _) there]
      exact Exact.always (.inr rfl) kept
    | error e =>
      rw [sdmmcConfigure_error init]
      refine Exact.never (by simp [different, Except.isOk, Except.toBool]) fun backed => ?_
      -- the table still has the context that was freed
      have live := backed.contexts inst inRange c there
      exact live.2 (List.mem_map_of_mem (List.mem_append_right _ (List.mem_singleton_self _)))

variable {dev : Dev}

theorem unused_iff : Unused s [c] ↔ s.users c = 0 := by
  rw [State.users, List.countP_eq_zero]
  simp [Unused]

theorem Sound.unused_owned (sound : Sound own s) (mem : dev ∈ s.devs) : Unused s dev.owned := by
  intro other listed driver context
  have all := (List.nodup_append'.mp sound.ledger.once).1
  obtain ⟨-, held, mine⟩ := List.nodup_append'.mp all
  have owned : other.context.block ∈ s.devs.flatMap Dev.owned := List.mem_flatMap.mpr ⟨dev, mem, context⟩
  cases List.mem_append.mp (sound.sdmmc other listed driver) with
  | inl own => exact mine own (List.mem_append_left _ owned)
  | inr tabled => exact (List.nodup_append'.mp held).2.2 owned tabled

theorem Sound.takeDev (sound : Sound [] s) (mem : dev ∈ s.devs) (driver : dev.driver = .sdmmc)
    (there : s.contexts inst = some dev.context.block) : Sound [dev.context.block, dev.priv.block, dev.self.block]
        { s.setContext inst none with devs := s.devs.erase dev } ∧
      Unused { s with devs := s.devs.erase dev } [dev.priv.block, dev.self.block] := by
  have owned : dev.owned = [dev.self.block, dev.priv.block] := by rw [Dev.owned, driver]
  have taken := (sound.takeContext there).unregister mem driver (List.mem_singleton_self _)
  have unused := sound.unused_owned mem
  rw [owned] at taken unused
  refine ⟨taken.perm (List.reverse_perm [dev.self.block, dev.priv.block, dev.context.block]).symm, ?_⟩
  intro other left kind
  have old := unused other (List.mem_of_mem_erase left) kind
  simp only [List.mem_cons, List.not_mem_nil, or_false, not_or] at old ⊢
  exact old.symm

theorem Sound.closeLast (sound : Sound [] s) (mem : dev ∈ s.devs) (driver : dev.driver = .sdmmc)
    (there : s.contexts inst = some dev.context.block) (last : s.users dev.context.block = 1) :
    Sound [] { s.setContext inst none with
      devs := s.devs.erase dev, frees := s.frees ++ [dev.context, dev.priv, dev.self] } := by
  obtain ⟨taken, rest⟩ := sound.takeDev mem driver there
  have none : ({ s with devs := s.devs.erase dev } : State).users dev.context.block = 0 := by
    have before := users_erase mem driver dev.context.block
    rw [if_pos rfl, last] at before
    exact (Nat.succ.inj before).symm
  refine taken.release [dev.context, dev.priv, dev.self] rfl ?_
  intro other left kind
  have first := unused_iff.mpr none other left kind
  exact List.not_mem_cons_of_ne_of_not_mem (List.ne_of_not_mem_cons first) (rest other left kind)

theorem Sound.closeOther (sound : Sound [] s) (mem : dev ∈ s.devs) (driver : dev.driver = .sdmmc)
    (there : s.contexts inst = some dev.context.block) (several : 1 < s.users dev.context.block) :
    Sound [] { s.setCount dev.context.block ((s.sdmmc dev.context.block).countDevices - 1) with
      devs := s.devs.erase dev, frees := s.frees ++ [dev.priv, dev.self] } := by
  have entry := sound.table inst _ there
  obtain ⟨taken, unused⟩ := sound.takeDev mem driver there
  let context := { s.sdmmc dev.context.block with
    countDevices := (s.sdmmc dev.context.block).countDevices - 1 }
  let u : State := { s.setContext inst none with devs := s.devs.erase dev }
  have fewer := taken.setSdmmc List.mem_cons_self context
  have users : s.users dev.context.block = u.users dev.context.block + 1 := by
    have before := users_erase mem driver dev.context.block
    rw [if_pos rfl] at before
    exact before
  have entry' : Entry (u.setSdmmc dev.context.block context) inst dev.context.block := by
    refine ⟨entry.inRange, ?_, ?_, ?_⟩
    · rw [State.sdmmc_setSdmmc_self]
      exact entry.controller
    · rw [State.sdmmc_setSdmmc_self]
      change (s.sdmmc dev.context.block).countDevices - 1 = u.users dev.context.block
      rw [entry.count, users, Nat.add_sub_cancel]
    · change 0 < u.users dev.context.block
      omega
  have placed := fewer.setContext (s.contexts_setContext_self none) entry'
  have back : (u.setSdmmc dev.context.block context).setContext inst (some dev.context.block) =
      { s.setCount dev.context.block ((s.sdmmc dev.context.block).countDevices - 1) with
        devs := s.devs.erase dev } := by
    simp [u, context, State.setContext, State.setSdmmc, State.setCount, ← there]
  rw [back] at placed
  refine placed.release [dev.priv, dev.self] rfl ?_
  exact unused

theorem Sound.close (sound : Sound [] s) (mem : dev ∈ s.devs) (driver : dev.driver = .sdmmc) :
    Sound [] ((sdmmcBdevClose dev { s with devs := s.devs.erase dev }).free dev.self) := by
  have tabled : dev.context.block ∈ s.tabled := sound.sdmmc dev mem driver
  obtain ⟨i, -, there⟩ := List.mem_filterMap.mp tabled
  have entry := sound.table i dev.context.block there
  have used := entry.used
  by_cases last : s.users dev.context.block = 1
  · have closed := sound.closeLast mem driver there last
    have one : (s.sdmmc dev.context.block).countDevices = 1 := entry.count.trans last
    simpa [sdmmcBdevClose, one, entry.controller, State.free, State.setContext] using closed
  · have closed := sound.closeOther mem driver there (by omega)
    have several : (s.sdmmc dev.context.block).countDevices ≠ 1 := by
      rw [entry.count]
      exact last
    have some : (s.sdmmc dev.context.block).countDevices ≠ 0 := by
      rw [entry.count]
      omega
    simpa [sdmmcBdevClose, several, some, State.free, State.setCount, State.setSdmmc] using closed

end

end Cboot.Drivers
