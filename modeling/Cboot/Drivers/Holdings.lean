import Cboot.Lib.Ledger
import Cboot.Drivers.Model

/-!
Each SDMMC device holds itself and its private data, and the table holds the contexts.
-/

namespace Cboot.Drivers
open Lib

def Dev.owned (dev : Dev) : List Nat :=
  match dev.driver with
  | .sdmmc => [dev.self.block, dev.priv.block]
  | .ufs => []

namespace State

def tabled (s : State) : List Nat := (List.range maxSdmmcInstances).filterMap s.contexts
def held (s : State) : List Nat := s.devs.flatMap Dev.owned ++ s.tabled
def freed (s : State) : List Nat := s.frees.map Ptr.block

def users (s : State) (c : Nat) : Nat :=
  s.devs.countP fun dev => dev.driver = .sdmmc ∧ dev.context.block = c

end State

def Unused (s : State) (blocks : List Nat) : Prop :=
  ∀ dev ∈ s.devs, dev.driver = .sdmmc → dev.context.block ∉ blocks

structure Entry (s : State) (i c : Nat) : Prop where
  inRange : i < maxSdmmcInstances
  controller : (s.sdmmc c).controllerId = i
  count : (s.sdmmc c).countDevices = s.users c
  used : 0 < s.users c

structure Sound (own : List Nat) (s : State) : Prop where
  ledger : Ledger s.blocks.length (own ++ s.held) s.freed
  ufs : ∀ dev ∈ s.devs, dev.driver = .ufs → dev.self.block = dev.priv.block ∧
    Apart s.blocks.length (own ++ s.held) s.freed dev.priv.block ∧
    Apart s.blocks.length (own ++ s.held) s.freed dev.context.block
  sdmmc : ∀ dev ∈ s.devs, dev.driver = .sdmmc → dev.context.block ∈ own ++ s.tabled
  table : ∀ i c, s.contexts i = some c → Entry s i c

theorem sound_start : Sound [] State.start where
  ledger := ⟨List.nodup_nil, fun _ mem => absurd mem List.not_mem_nil⟩
  ufs _ mem := absurd mem List.not_mem_nil
  sdmmc _ mem := absurd mem List.not_mem_nil
  table _ _ entry := nomatch entry

section
variable {own own' gone : List Nat} {s t : State} {dev : Dev} {i b c : Nat}

structure Grows (s t : State) : Prop where
  devs : t.devs = s.devs
  frees : t.frees = s.frees
  contexts : t.contexts = s.contexts
  sdmmc : t.sdmmc = s.sdmmc
  blocks : s.blocks.length ≤ t.blocks.length

theorem Grows.tabled (grows : Grows s t) : t.tabled = s.tabled := by
  rw [State.tabled, grows.contexts, State.tabled]

theorem Grows.held (grows : Grows s t) : t.held = s.held := by
  rw [State.held, grows.devs, grows.tabled, State.held]

theorem Grows.freed (grows : Grows s t) : t.freed = s.freed := by
  rw [State.freed, grows.frees, State.freed]

theorem Grows.users (grows : Grows s t) : t.users c = s.users c := by
  rw [State.users, grows.devs, State.users]

theorem Entry.congr (entry : Entry s i c) (sdmmc : t.sdmmc c = s.sdmmc c) (users : t.users c = s.users c) :
    Entry t i c where
  inRange := entry.inRange
  controller := by rw [sdmmc, entry.controller]
  count := by rw [sdmmc, entry.count, users]
  used := by rw [users]; exact entry.used

variable (sound : Sound own s)
include sound

theorem Sound.grow (grows : Grows s t) : Sound own t where
  ledger := by
    rw [grows.held, grows.freed]
    exact sound.ledger.mono grows.blocks
  ufs := by
    intro dev mem driver
    rw [grows.devs] at mem
    obtain ⟨place, priv, context⟩ := sound.ufs dev mem driver
    rw [grows.held, grows.freed]
    exact ⟨place, priv.mono grows.blocks, context.mono grows.blocks⟩
  sdmmc := by
    intro dev mem driver
    rw [grows.devs] at mem
    rw [grows.tabled]
    exact sound.sdmmc dev mem driver
  table := by
    intro i c entry
    rw [grows.contexts] at entry
    exact (sound.table i c entry).congr (by rw [grows.sdmmc]) grows.users

theorem Sound.mem_tabled (entry : s.contexts i = some c) : c ∈ s.tabled :=
  List.mem_filterMap.mpr ⟨i, List.mem_range.mpr (sound.table i c entry).inRange, entry⟩

theorem Sound.mem_held (entry : s.contexts i = some c) : c ∈ s.held :=
  List.mem_append_right _ (sound.mem_tabled entry)

theorem Sound.not_own (entry : s.contexts i = some c) : c ∉ own := by
  intro mine
  have once := (List.nodup_append'.mp sound.ledger.once).1
  exact (List.nodup_append'.mp once).2.2 mine (sound.mem_held entry)

theorem Sound.perm (same : own.Perm own') : Sound own' s where
  ledger := sound.ledger.perm (same.append_right _)
  ufs := by
    intro dev mem driver
    obtain ⟨place, priv, context⟩ := sound.ufs dev mem driver
    exact ⟨place, priv.perm (same.append_right _), context.perm (same.append_right _)⟩
  sdmmc dev mem driver := (same.append_right _).mem_iff.mp (sound.sdmmc dev mem driver)
  table := sound.table

theorem Sound.alloc (kind : Kind) : Sound (s.blocks.length :: own) (s.grown kind) where
  ledger := by
    rw [State.length_grown]
    exact sound.ledger.alloc
  ufs := by
    intro dev mem driver
    obtain ⟨place, priv, context⟩ := sound.ufs dev mem driver
    rw [State.length_grown]
    exact ⟨place, priv.alloc, context.alloc⟩
  sdmmc dev mem driver := List.mem_cons_of_mem _ (sound.sdmmc dev mem driver)
  table i c entry := (sound.table i c entry).congr rfl rfl

theorem Sound.unused (new : ∀ b ∈ gone, s.blocks.length ≤ b) : Unused s gone := by
  intro dev mem driver context
  have user := sound.sdmmc dev mem driver
  have known : dev.context.block ∈ (own ++ s.held) ++ s.freed := by
    refine List.mem_append_left _ ?_
    cases List.mem_append.mp user with
    | inl mine => exact List.mem_append_left _ mine
    | inr tabled => exact List.mem_append_right _ (List.mem_append_right _ tabled)
  have small := sound.ledger.known _ known
  have large := new _ context
  omega

omit sound in
theorem Sound.release (sound : Sound (gone ++ own) s) (ps : List Ptr) (what : ps.map Ptr.block = gone)
    (unused : Unused s gone) : Sound own { s with frees := s.frees ++ ps } := by
  have freed : ({ s with frees := s.frees ++ ps } : State).freed = s.freed ++ gone := by
    rw [State.freed, State.freed, List.map_append, what]
  have ledger := sound.ledger
  rw [List.append_assoc] at ledger
  constructor
  · rw [freed]
    exact ledger.release
  · intro dev mem driver
    obtain ⟨place, priv, context⟩ := sound.ufs dev mem driver
    rw [List.append_assoc] at priv context
    rw [freed]
    exact ⟨place, priv.release, context.release⟩
  · intro dev mem driver
    have user := sound.sdmmc dev mem driver
    rw [List.append_assoc] at user
    exact (List.mem_append.mp user).resolve_left (unused dev mem driver)
  · intro i c entry
    exact (sound.table i c entry).congr rfl rfl

theorem Sound.setSdmmc (mine : c ∈ own) (context : SdmmcContext) :
    Sound own (s.setSdmmc c context) where
  ledger := sound.ledger
  ufs := sound.ufs
  sdmmc := sound.sdmmc
  table := by
    intro i d entry
    have other : d ≠ c := fun same => sound.not_own entry (same ▸ mine)
    exact (sound.table i d entry).congr (s.sdmmc_setSdmmc_of_ne other context) rfl

omit sound

theorem users_append (s : State) (dev : Dev) (c : Nat) : ({ s with devs := s.devs ++ [dev] } : State).users c =
      s.users c + if dev.driver = .sdmmc ∧ dev.context.block = c then 1 else 0 := by
  simp [State.users, List.countP_append, List.countP_singleton]

theorem held_append (s : State) (dev : Dev) :
    (({ s with devs := s.devs ++ [dev] } : State).held).Perm (dev.owned ++ s.held) := by
  have devs : ({ s with devs := s.devs ++ [dev] } : State).held =
      s.devs.flatMap Dev.owned ++ (dev.owned ++ s.tabled) := by
    simp [State.held, State.tabled, List.flatMap_append]
  rw [devs, State.held, ← List.append_assoc, ← List.append_assoc]
  exact List.perm_append_comm.append_right _

theorem Sound.registerSdmmc (sound : Sound (dev.owned ++ own) s) (driver : dev.driver = .sdmmc)
    (mine : dev.context.block ∈ own) (unused : Unused s dev.owned) : Sound own { s with devs := s.devs ++ [dev] } := by
  have same : ((dev.owned ++ own) ++ s.held).Perm
      (own ++ ({ s with devs := s.devs ++ [dev] } : State).held) := by
    refine List.Perm.trans ?_ ((held_append s dev).symm.append_left own)
    rw [← List.append_assoc]
    exact List.perm_append_comm.append_right _
  constructor
  · exact sound.ledger.perm same
  · intro other mem kind
    have old : other ∈ s.devs := by
      cases List.mem_append.mp mem with
      | inl old => exact old
      | inr new =>
        rw [List.mem_singleton.mp new, driver] at kind
        cases kind
    obtain ⟨place, priv, context⟩ := sound.ufs other old kind
    exact ⟨place, priv.perm same, context.perm same⟩
  · intro other mem kind
    cases List.mem_append.mp mem with
    | inl old =>
      have user := sound.sdmmc other old kind
      rw [List.append_assoc] at user
      exact (List.mem_append.mp user).resolve_left (unused other old kind)
    | inr new =>
      rw [List.mem_singleton.mp new]
      exact List.mem_append_left _ mine
  · intro i c entry
    have other : dev.context.block ≠ c := fun same =>
      sound.not_own entry (List.mem_append_right _ (same ▸ mine))
    have users : ({ s with devs := s.devs ++ [dev] } : State).users c = s.users c := by
      simp [users_append, other]
    exact (sound.table i c entry).congr rfl users

theorem Sound.registerUfs (sound : Sound own s) (driver : dev.driver = .ufs) (place : dev.self.block = dev.priv.block)
    (priv : Apart s.blocks.length (own ++ s.held) s.freed dev.priv.block)
    (context : Apart s.blocks.length (own ++ s.held) s.freed dev.context.block) :
    Sound own { s with devs := s.devs ++ [dev] } := by
  have none : dev.owned = [] := by rw [Dev.owned, driver]
  have same : (own ++ s.held).Perm (own ++ ({ s with devs := s.devs ++ [dev] } : State).held) := by
    have all := held_append s dev
    rw [none] at all
    exact all.symm.append_left own
  constructor
  · exact sound.ledger.perm same
  · intro other mem kind
    cases List.mem_append.mp mem with
    | inl old =>
      obtain ⟨place, priv, context⟩ := sound.ufs other old kind
      exact ⟨place, priv.perm same, context.perm same⟩
    | inr new =>
      rw [List.mem_singleton.mp new]
      exact ⟨place, priv.perm same, context.perm same⟩
  · intro other mem kind
    cases List.mem_append.mp mem with
    | inl old => exact sound.sdmmc other old kind
    | inr new =>
      rw [List.mem_singleton.mp new, driver] at kind
      cases kind
  · intro i c entry
    have users : ({ s with devs := s.devs ++ [dev] } : State).users c = s.users c := by
      simp [users_append, driver]
    exact (sound.table i c entry).congr rfl users

theorem tabled_setContext (inRange : i < maxSdmmcInstances) (empty : s.contexts i = none) (c : Nat) :
    ((s.setContext i (some c)).tabled).Perm (c :: s.tabled) :=
  filterMap_update_perm c List.nodup_range (List.mem_range.mpr inRange) empty

theorem held_setContext (inRange : i < maxSdmmcInstances) (empty : s.contexts i = none) (c : Nat) :
    ((s.setContext i (some c)).held).Perm (c :: s.held) := by
  have held : (s.setContext i (some c)).held = s.devs.flatMap Dev.owned ++ (s.setContext i (some c)).tabled := rfl
  rw [held]
  exact ((tabled_setContext inRange empty c).append_left _).trans List.perm_middle

theorem Sound.setContext (sound : Sound (c :: own) s) (empty : s.contexts i = none)
    (entry : Entry s i c) : Sound own (s.setContext i (some c)) := by
  have same : ((c :: own) ++ s.held).Perm (own ++ (s.setContext i (some c)).held) := by
    refine List.Perm.trans ?_ ((held_setContext entry.inRange empty c).symm.append_left own)
    exact List.perm_middle.symm
  constructor
  · exact sound.ledger.perm same
  · intro dev mem kind
    obtain ⟨place, priv, context⟩ := sound.ufs dev mem kind
    exact ⟨place, priv.perm same, context.perm same⟩
  · intro dev mem kind
    have user := sound.sdmmc dev mem kind
    refine (((tabled_setContext entry.inRange empty c).append_left own).mem_iff).mpr ?_
    exact (List.perm_middle.symm).mem_iff.mp user
  · intro j d there
    by_cases here : j = i
    · subst here
      rw [State.contexts_setContext_self] at there
      cases there
      exact entry.congr rfl rfl
    · rw [State.contexts_setContext_of_ne _ here] at there
      exact (sound.table j d there).congr rfl rfl

theorem Sound.takeContext (sound : Sound own s) (there : s.contexts i = some c) :
    Sound (c :: own) (s.setContext i none) := by
  have inRange := (sound.table i c there).inRange
  have empty : (s.setContext i none).contexts i = none := s.contexts_setContext_self none
  have back : ((s.setContext i none).setContext i (some c)) = s := by
    simp [State.setContext, ← there]
  have tabled := tabled_setContext inRange empty c
  have held := held_setContext inRange empty c
  rw [back] at tabled held
  have same : (own ++ s.held).Perm ((c :: own) ++ (s.setContext i none).held) :=
    (held.append_left own).trans List.perm_middle
  constructor
  · exact sound.ledger.perm same
  · intro dev mem kind
    obtain ⟨place, priv, context⟩ := sound.ufs dev mem kind
    exact ⟨place, priv.perm same, context.perm same⟩
  · intro dev mem kind
    have user := sound.sdmmc dev mem kind
    exact ((tabled.append_left own).trans List.perm_middle).mem_iff.mp user
  · intro j d entry
    have other : j ≠ i := by
      intro same
      rw [same, empty] at entry
      cases entry
    rw [State.contexts_setContext_of_ne _ other] at entry
    exact (sound.table j d entry).congr rfl rfl

theorem users_erase (mem : dev ∈ s.devs) (driver : dev.driver = .sdmmc) (c : Nat) :
    s.users c = ({ s with devs := s.devs.erase dev } : State).users c +
      if dev.context.block = c then 1 else 0 := by
  rw [State.users, (List.perm_cons_erase mem).countP_eq, List.countP_cons]
  simp [State.users, driver]

theorem held_erase (mem : dev ∈ s.devs) :
    s.held.Perm (dev.owned ++ ({ s with devs := s.devs.erase dev } : State).held) := by
  rw [State.held, State.held, ← List.append_assoc]
  exact ((List.perm_cons_erase mem).flatMap_right Dev.owned).append_right _

theorem Sound.unregister (sound : Sound own s) (mem : dev ∈ s.devs) (driver : dev.driver = .sdmmc)
    (mine : dev.context.block ∈ own) : Sound (dev.owned ++ own) { s with devs := s.devs.erase dev } := by
  have same : (own ++ s.held).Perm
      ((dev.owned ++ own) ++ ({ s with devs := s.devs.erase dev } : State).held) := by
    refine ((held_erase mem).append_left own).trans ?_
    rw [← List.append_assoc]
    exact List.perm_append_comm.append_right _
  constructor
  · exact sound.ledger.perm same
  · intro other left kind
    obtain ⟨place, priv, context⟩ := sound.ufs other (List.mem_of_mem_erase left) kind
    exact ⟨place, priv.perm same, context.perm same⟩
  · intro other left kind
    have user := sound.sdmmc other (List.mem_of_mem_erase left) kind
    rw [List.append_assoc]
    exact List.mem_append_right _ user
  · intro i c entry
    have other : dev.context.block ≠ c := fun same => sound.not_own entry (same ▸ mine)
    have users := users_erase mem driver c
    rw [if_neg other] at users
    exact (sound.table i c entry).congr rfl users.symm

theorem Dev.setRef_eq (p : Ptr) (ref : UInt32 → UInt32) (dev : Dev) :
    ∃ r, dev.setRef p ref = { dev with ref := r } := by
  rw [Dev.setRef]
  split
  · exact ⟨_, rfl⟩
  · exact ⟨dev.ref, rfl⟩

theorem users_setRef (p : Ptr) (ref : UInt32 → UInt32) : (s.setRef p ref).users c = s.users c := by
  rw [State.users, State.setRef, List.countP_map, State.users]
  refine List.countP_congr fun dev mem => ?_
  obtain ⟨r, eq⟩ := Dev.setRef_eq p ref dev
  simp [eq]

theorem held_setRef (p : Ptr) (ref : UInt32 → UInt32) : (s.setRef p ref).held = s.held := by
  have owned : ∀ dev : Dev, (dev.setRef p ref).owned = dev.owned := by
    intro dev
    obtain ⟨r, eq⟩ := Dev.setRef_eq p ref dev
    rw [eq]
    rfl
  rw [State.held, State.setRef, List.flatMap_map, State.held]
  simp only [owned]
  rfl

theorem Sound.setRef (sound : Sound own s) (p : Ptr) (ref : UInt32 → UInt32) : Sound own (s.setRef p ref) where
  ledger := by
    rw [held_setRef]
    exact sound.ledger
  ufs := by
    intro dev mem kind
    obtain ⟨old, was, now⟩ := List.mem_map.mp mem
    obtain ⟨r, eq⟩ := Dev.setRef_eq p ref old
    have changed : dev = { old with ref := r } := now.symm.trans eq
    subst changed
    rw [held_setRef]
    exact sound.ufs old was kind
  sdmmc := by
    intro dev mem kind
    obtain ⟨old, was, now⟩ := List.mem_map.mp mem
    obtain ⟨r, eq⟩ := Dev.setRef_eq p ref old
    have changed : dev = { old with ref := r } := now.symm.trans eq
    subst changed
    exact sound.sdmmc old was kind
  table i c entry := (sound.table i c entry).congr rfl (users_setRef p ref)

end

end Cboot.Drivers
