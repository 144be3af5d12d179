import Cboot.Linuxboot.Fallback
import Cboot.Smd.Rotation

/-!
Each loader asks for itself whether to boot to recovery. The rotate count in the rootfs register is cleared by
the question, so that the next loader gets another answer.
-/

namespace Cboot.Linuxboot
open Lib Attempt

section
variable {σ : Type} {cfg : Config} {P : Platform σ}

inductive Chain (cfg : Config) (P : Platform σ) : UInt32 → List Decision → UInt32 → Prop
  | done (rfReg : UInt32) : Chain cfg P rfReg [] rfReg
  | network {rfReg rfReg' : UInt32} {ds : List Decision} (rest : Chain cfg P rfReg ds rfReg') :
    Chain cfg P rfReg (.network :: ds) rfReg'
  | asked {rfReg next rfReg' : UInt32} {ds : List Decision} (recoveryMode all : Bool)
    (reply : answer cfg P rfReg = .ok (all, next)) (rest : Chain cfg P next ds rfReg') :
    Chain cfg P rfReg (.asked recoveryMode all :: ds) rfReg'

theorem Chain.append {rfReg middle rfReg' : UInt32} {ds ds' : List Decision} (first : Chain cfg P rfReg ds middle)
    (second : Chain cfg P middle ds' rfReg') : Chain cfg P rfReg (ds ++ ds') rfReg' := by
  induction first with
  | done _ => exact second
  | network _ ih => exact .network (ih second)
  | asked recoveryMode all reply _ ih => exact .asked recoveryMode all reply (ih second)

def Decided (cfg : Config) (P : Platform σ) (u v : State σ) : Prop :=
  ∃ ds, v.decisions = u.decisions ++ ds ∧ Chain cfg P u.rfReg ds v.rfReg

instance : IsPreorder (State σ) (Decided cfg P) where
  refl u := ⟨[], (List.append_nil _).symm, .done _⟩
  trans u v w first second := by
    obtain ⟨ds, decisions, chain⟩ := first
    obtain ⟨ds', decisions', chain'⟩ := second
    refine ⟨ds ++ ds', ?_, chain.append chain'⟩
    rw [decisions', decisions, List.append_assoc]

theorem Tried.decided {u v : State σ} (tried : Tried cfg P u v) : Decided cfg P u v := by
  cases tried.decides with
  | nothing rfReg decisions =>
    refine ⟨[], by rw [decisions, List.append_nil], ?_⟩
    rw [rfReg]
    exact .done _
  | network rfReg decisions =>
    refine ⟨[.network], decisions, ?_⟩
    rw [rfReg]
    exact .network (.done _)
  | asked recoveryMode all rfReg decisions => exact ⟨[.asked recoveryMode all], decisions, .asked _ _ rfReg (.done _)⟩

theorem Within.decided {u v : State σ} (within : Within u v) : Decided cfg P u v := by
  have tried : Tried cfg P u v := within.tried
  exact tried.decided

variable {request : Request}

theorem decided_tryDevice (device : Device) : Steps (Decided cfg P) (tryDevice cfg P request device) := by
  unfold tryDevice
  refine (steps_caught ((tried_loader request device).mono fun _ _ => Tried.decided)).bind fun result => ?_
  have note (s : State σ) (tries : List Try) : Decided cfg P s { s with tries := tries } :=
    ⟨[], (List.append_nil _).symm, .done _⟩
  exact Steps.bind (fun s => note s _) fun _ => steps_pure _

theorem decided_tryAs (device : Device) : Steps (Decided cfg P) (tryAs cfg P request device) := by
  by_cases fixed : device = .fixed
  · subst fixed
    show Steps (Decided cfg P) (tryFixed cfg P request)
    unfold tryFixed
    refine (decided_tryDevice .fixed).bind fun result => ?_
    exact (steps_ofExcept result).bind fun _ => steps_pure _
  · rw [tryAs_eq fixed, tryNext]
    exact (decided_tryDevice device).bind fun result => steps_pure _

theorem decided_call (cfg : Config) (P : Platform σ) (request : Request) (order : List Text) :
    Steps (Decided cfg P) (tegrablLoadKernelAndDtb cfg P request order) := by
  have extraction : Steps (Decided cfg P) (extract cfg P) := within_extract.mono fun _ _ => Within.decided
  have load : Steps (Decided cfg P) (loadAndExtract cfg P request order) := by
    unfold loadAndExtract
    rw [loadInOrder_eq]
    refine (steps_firstOf decided_tryAs _).bind fun done => ?_
    refine (steps_onlyIf _ ?_).bind fun _ => extraction
    exact (decided_tryAs .fixed).bind fun _ => steps_pure _
  unfold tegrablLoadKernelAndDtb
  refine (steps_caught load).bind fun result => ?_
  split
  · exact (within_attempting _).mono fun _ _ => Within.decided
  · exact steps_ofExcept result

def counted (cfg : Config) (P : Platform σ) : Bool :=
  match P.smd with
  | .error _ => false
  | .ok smd =>
    cfg.abSlot && (Smd.bootctrlIsUnifiedAbEnabled smd.smd.version || Smd.bootctrlSupportRedundancyUser smd.smd.version)

def reported (cfg : Config) (P : Platform σ) (rfReg : UInt32) : Bool :=
  match answer cfg P rfReg with
  | .ok (all, _) => all
  | .error _ => false

variable {smd : Smd.SlotMetaDataV2} {beyond : Nat → UInt8} {rfReg rfReg' : UInt32}

theorem query_same {all : Bool}
    (reply : Smd.tegrablABRootfsIsAllUnbootable smd beyond rfReg = .ok (all, rfReg'))
    (kept : Smd.userRedundancy smd.smd.version = false ∨ all = false) : rfReg' = rfReg := by
  unfold Smd.tegrablABRootfsIsAllUnbootable Smd.tegrablABGetVersion at reply
  dsimp only at reply
  split at reply
  · rename_i kind
    have user : Smd.userRedundancy smd.smd.version = true := (Bool.or_comm _ _).trans kind
    split at reply
    · cases reply
    · split at reply
      · cases reply
        simp [user] at kept
      · cases reply
        rfl
  · split at reply
    · cases reply
      rfl
    · cases reply
      rfl

theorem query_magic {all : Bool}
    (reply : Smd.tegrablABRootfsIsAllUnbootable smd beyond rfReg = .ok (all, rfReg'))
    (user : Smd.userRedundancy smd.smd.version = true) : Smd.rootfsAbRegMagicGet rfReg = Smd.rootfsAbRegMagic := by
  have kind : (Smd.bootctrlIsUnifiedAbEnabled smd.smd.version ||
      Smd.bootctrlSupportRedundancyUser smd.smd.version) = true := (Bool.or_comm _ _).trans user
  by_contra other
  unfold Smd.tegrablABRootfsIsAllUnbootable Smd.tegrablABGetVersion at reply
  dsimp only at reply
  rw [if_pos kind, if_pos other] at reply
  cases reply

theorem query_cleared
    (user : Smd.userRedundancy smd.smd.version = true)
    (reply : Smd.tegrablABRootfsIsAllUnbootable smd beyond rfReg = .ok (true, rfReg')) :
    Smd.tegrablABRootfsIsAllUnbootable smd beyond rfReg' = .ok (false, rfReg') := by
  obtain ⟨next, first, magic, rotate⟩ := Smd.allUnbootable_user beyond user (query_magic reply user)
  rw [reply] at first
  obtain ⟨full, same⟩ := Prod.mk.inj (Except.ok.inj first)
  subst same
  rw [if_pos (of_decide_eq_true full.symm)] at rotate
  have positive : 0 < (Smd.getMaxRotateCount smd).toNat := by
    rcases Smd.maxRotateCount_cases smd with two | four
    · rw [two]
      decide
    · rw [four]
      decide
  obtain ⟨last, second, -, -⟩ := Smd.allUnbootable_user beyond user magic
  rw [rotate, decide_eq_false (by omega)] at second
  rw [second, query_same second (.inr rfl)]

variable {ds : List Decision}

theorem answer_same {all : Bool} (reply : answer cfg P rfReg = .ok (all, rfReg'))
    (kept : counted cfg P = false ∨ all = false) : rfReg' = rfReg := by
  unfold answer at reply
  unfold counted at kept
  split at reply
  · rename_i slots
    split at reply
    · cases reply
      rfl
    · rename_i smd found
      rw [found] at kept
      dsimp only at kept
      rw [slots, Bool.true_and, Bool.or_comm] at kept
      exact query_same reply kept
  · cases reply
    rfl

theorem answer_cleared (kind : counted cfg P = true) (reply : answer cfg P rfReg = .ok (true, rfReg')) :
    answer cfg P rfReg' = .ok (false, rfReg') := by
  unfold counted at kind
  unfold answer at reply ⊢
  cases found : P.smd with
  | error e =>
    rw [found] at kind
    cases kind
  | ok smd =>
    rw [found] at kind reply
    obtain ⟨slots, kind⟩ := Bool.and_eq_true_iff.mp kind
    rw [slots, if_pos rfl] at reply ⊢
    exact query_cleared ((Bool.or_comm _ _).trans kind) reply

def Decision.mode (d : Decision) : Bool :=
  match d with
  | .asked recoveryMode _ => recoveryMode
  | .network => false

theorem toRecovery_unreported (unreported : reported cfg P rfReg = false) (chain : Chain cfg P rfReg ds rfReg') :
    ∀ d ∈ ds, d.toRecovery = d.mode := by
  induction chain with
  | done _ => simp
  | network _ ih => simpa [Decision.toRecovery, Decision.mode] using ih unreported
  | asked recoveryMode all reply _ ih =>
    have none : all = false := by simpa [reported, reply] using unreported
    subst none
    rw [answer_same reply (.inr rfl)] at ih
    simpa [Decision.toRecovery, Decision.mode] using ih unreported

theorem toRecovery_uncounted (all : reported cfg P rfReg = true) (uncounted : counted cfg P = false)
    (chain : Chain cfg P rfReg ds rfReg') : ∀ d ∈ ds, d ≠ .network → d.toRecovery = true := by
  induction chain with
  | done _ => simp
  | network _ ih => simpa using ih all
  | asked recoveryMode answered reply _ ih =>
    have yes : answered = true := by simpa [reported, reply] using all
    subst yes
    rw [answer_same reply (.inl uncounted)] at ih
    simpa [Decision.toRecovery] using ih all

def OneDecision (ds : List Decision) : Prop := ∀ d ∈ ds, ∀ d' ∈ ds, d.toRecovery = d'.toRecovery

/-- The boot control data give every loader the same answer. -/
structure Steady (cfg : Config) (P : Platform σ) (rfReg : UInt32) (ds : List Decision) : Prop where
  bootable : reported cfg P rfReg = false → ∀ d ∈ ds, ∀ d' ∈ ds, d.mode = d'.mode
  offline : reported cfg P rfReg = true → (∃ d ∈ ds, d ≠ .network) → .network ∉ ds
  cleared : reported cfg P rfReg = true → counted cfg P = true → .network ∉ ds → ∀ d ∈ ds.tail, d.mode = true

theorem exists_toRecovery (all : reported cfg P rfReg = true) (chain : Chain cfg P rfReg ds rfReg')
    (someAsk : ∃ d ∈ ds, d ≠ .network) : ∃ d ∈ ds, d.toRecovery = true := by
  induction chain with
  | done _ => simp at someAsk
  | network _ ih =>
    obtain ⟨d, member, recovery⟩ := ih all (by simpa using someAsk)
    exact ⟨d, List.mem_cons_of_mem _ member, recovery⟩
  | asked recoveryMode answered reply _ ih =>
    have yes : answered = true := by simpa [reported, reply] using all
    subst yes
    exact ⟨_, List.mem_cons_self, by simp [Decision.toRecovery]⟩

theorem toRecovery_tail (all : reported cfg P rfReg = true) (kind : counted cfg P = true) (offline : .network ∉ ds)
    (chain : Chain cfg P rfReg ds rfReg') : ∀ d ∈ ds.tail, d.toRecovery = d.mode := by
  cases chain with
  | done => simp
  | network rest => exact absurd List.mem_cons_self offline
  | asked recoveryMode answered reply rest =>
    have yes : answered = true := by simpa [reported, reply] using all
    subst yes
    exact toRecovery_unreported (by simp [reported, answer_cleared kind reply]) rest

theorem oneDecision_of_steady (chain : Chain cfg P rfReg ds rfReg') (steady : Steady cfg P rfReg ds) :
    OneDecision ds := by
  intro d member d' member'
  cases all : reported cfg P rfReg with
  | false =>
    have modes := toRecovery_unreported all chain
    rw [modes d member, modes d' member']
    exact steady.bootable all d member d' member'
  | true =>
    by_cases someAsk : ∃ d ∈ ds, d ≠ .network
    · have offline := steady.offline all someAsk
      have recovery : ∀ d ∈ ds, d.toRecovery = true := by
        intro d member
        have other : d ≠ .network := fun same => offline (same ▸ member)
        cases kind : counted cfg P with
        | false => exact toRecovery_uncounted all kind chain d member other
        | true =>
          cases chain with
          | done => cases member
          | network rest => exact absurd List.mem_cons_self offline
          | asked recoveryMode answered reply rest =>
            have yes : answered = true := by simpa [reported, reply] using all
            obtain rfl | later := List.mem_cons.mp member
            · simp [Decision.toRecovery, yes]
            · have tail := toRecovery_tail all kind offline (.asked recoveryMode answered reply rest) d later
              exact tail.trans (steady.cleared all kind offline d later)
      rw [recovery d member, recovery d' member']
    · have network : ∀ d ∈ ds, d = .network := fun d member => by_contra fun other => someAsk ⟨d, member, other⟩
      rw [network d member, network d' member']

theorem steady_of_oneDecision (chain : Chain cfg P rfReg ds rfReg') (one : OneDecision ds) : Steady cfg P rfReg ds := by
  refine ⟨fun none d member d' member' => ?_, fun all someAsk network => ?_, fun all kind offline d later => ?_⟩
  · have modes := toRecovery_unreported none chain
    rw [← modes d member, ← modes d' member']
    exact one d member d' member'
  · obtain ⟨d, member, recovery⟩ := exists_toRecovery all chain someAsk
    have normal := one d member _ network
    rw [recovery] at normal
    cases normal
  · have member := List.mem_of_mem_tail later
    have someAsk : ∃ d ∈ ds, d ≠ .network := ⟨d, member, fun same => offline (same ▸ member)⟩
    obtain ⟨first, member', recovery⟩ := exists_toRecovery all chain someAsk
    rw [← toRecovery_tail all kind offline chain d later, ← recovery]
    exact one d member first member'

end

/-- The loaders of a call decide in the same way if and only if the boot control data and the slots are steady. -/
theorem one_decision_iff {σ : Type} (cfg : Config) (P : Platform σ) (request : Request) (order : List Text)
    (s : State σ) : OneDecision ((tegrablLoadKernelAndDtb cfg P request order).run s.begun).2.decisions ↔
      Steady cfg P s.rfReg ((tegrablLoadKernelAndDtb cfg P request order).run s.begun).2.decisions := by
  obtain ⟨ds, decisions, chain⟩ := decided_call cfg P request order s.begun
  rw [decisions]
  exact ⟨steady_of_oneDecision chain, oneDecision_of_steady chain⟩

def recoveryConfig : Config := ⟨false, true, true, false, true, true, false, false, true, true⟩

def rotatedPlatform : Platform Unit :=
  { samplePlatform (.ok ()) with
    smd := .ok Smd.redundantImage
    partitionLookup := fun _ _ env => (.error 1, env)
    blockdevOpen := fun device env => (device == .sd, env) }

/-- The SD card decides for recovery, and the fixed storage does not. -/
theorem one_decision_cleared :
    ¬ ∀ (σ : Type) (cfg : Config) (P : Platform σ) (request : Request) (order : List Text) (s : State σ),
      cfg.l4tRecovery = true → cfg.abSlot = true →
        OneDecision ((tegrablLoadKernelAndDtb cfg P request order).run s.begun).2.decisions := by
  intro claim
  have one := claim Unit recoveryConfig rotatedPlatform ⟨⟨.kernel, true⟩, none⟩ [[115, 100]]
    { blankState with rfReg := 0x4FACE } rfl rfl
  have decisions : ((tegrablLoadKernelAndDtb recoveryConfig rotatedPlatform ⟨⟨.kernel, true⟩, none⟩ [[115, 100]]).run
      (State.begun { blankState with rfReg := 0x4FACE })).2.decisions = [.asked false true, .asked false false] := by
    decide +kernel
  rw [decisions] at one
  have same := one _ List.mem_cons_self _ (List.mem_cons_of_mem _ List.mem_cons_self)
  cases same

end Cboot.Linuxboot
