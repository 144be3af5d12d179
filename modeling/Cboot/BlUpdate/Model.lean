import Cboot.Lib.Attempt
import Cboot.Nvblob.Model

/-!
`lib/bootloader_update/tegrabl_bootloader_update.c`. A payload is a blob of images, each with the name of
the partition that it is for. The partitions are updated one after the other, those that a partition
depends on before it. Everything outside of the library may fail at any time: `σ` is what it can reach.
The static variables of the library outlive a call.
-/

namespace Cboot.BlUpdate
open Lib Nvblob

inductive Reason where
  | invalid
  | notFound
  | notSupported
  | noMemory
  deriving DecidableEq, Repr

/-- An error of the library, of the blob or of what is called, or the end in a call of a callback that is
not set. -/
inductive Error where
  | own (reason : Reason) (detail : Nat)
  | blob (e : Nvblob.Error)
  | lower (e : UInt32)
  | nullCallback
  deriving DecidableEq, Repr

abbrev Text := List UInt8

def text (chars : List UInt8) : Text := chars.takeWhile (· ≠ 0)

/-- `GPT_PART_NAME_LEN` and `NCT_MAX_SPEC_LENGTH`. -/
def partNameLen : Nat := 36
def maxSpecLength : Nat := 64

/-- What `strncmp` sees of a partition name. -/
def shortName (chars : List UInt8) : Text := text (chars.take partNameLen)

/-- `BCT`, `mb2` and `mb1`. -/
def brBctPartitionName : Text := [66, 67, 84]
def mb2BlPartitionName : Text := [109, 98, 50]
def mb1PartitionName : Text := [109, 98, 49]

/-- What the build is configured with. `abUpdate` stands for `CONFIG_ENABLE_A_B_SLOT` together with
`CONFIG_ENABLE_A_B_UPDATE`. -/
structure Config where
  abUpdate : Bool
  qspi : Bool
  blobSigning : Bool
  deriving DecidableEq, Repr

def updateSequence (cfg : Config) : List (Text × Text) :=
  (brBctPartitionName, mb2BlPartitionName) ::
    if cfg.abUpdate then [(mb1PartitionName, brBctPartitionName)] else []

def getDependency (cfg : Config) (name : List UInt8) : Option Text :=
  ((updateSequence cfg).find? fun row => shortName name == shortName row.1).map (·.2)

/-- What is noted of a call: the partitions that are updated, with the writes that this takes, and how
they end; the lookups of the spec that fail; and the decisions on slots. -/
inductive Event where
  | updating (name : Text)
  | write (name : Text) (data : List UInt8) (result : Option Error)
  | updated (name : Text) (result : Option Error)
  | noSpec (name : Text)
  | allSlots (required : Bool)
  deriving DecidableEq, Repr

structure Static where
  globalNctSpec : Text
  list : List (List UInt8)
  isNewBupChecked : Bool
  isRequired : Bool
  updateSlotSuffix : Option Text
  deriving DecidableEq, Repr

structure State (σ : Type) where
  static : Static
  env : σ
  log : List Event

abbrev UpdateM (σ α : Type) := Attempt Error (State σ) α

structure Platform (σ : Type) where
  verifyPayload : Option (BlobInfo → σ → Except Error Unit × σ)
  updateBct : Option (List UInt8 → σ → Except Error Unit × σ)
  getSlotNum : Option (σ → Except Error UInt8 × σ)
  getSlotViaSuffix : Option (Option Text → σ → Except Error UInt32 × σ)
  getSlotSuffix : Option (UInt32 → Text → σ → Except Error Text × σ)
  isRatchetUpdateRequired : Option (Option Nat → σ → Except Error Bool × σ)
  isAlwaysAbPartition : Option (Text → Bool)
  nctGetSpec : σ → Except Error (Text × Text) × σ
  nvProductionMode : Bool
  partitionOpen : Text → σ → Except Error Unit × σ
  partitionErase : Text → σ → Except Error Unit × σ
  partitionWrite : Text → List UInt8 → σ → Except Error Unit × σ
  onQspiFlash : Text → Bool
  memory : σ → Bool × σ

section
variable {σ α : Type}

def outside (f : σ → Except Error α × σ) : UpdateM σ α :=
  Attempt.call fun s => ((f s.env).1, { s with env := (f s.env).2 })

def allocate (P : Platform σ) : UpdateM σ Unit :=
  outside fun env => (if (P.memory env).1 then .ok () else .error (.own .noMemory 0), (P.memory env).2)

def note (event : Event) : UpdateM σ Unit :=
  Attempt.call fun s => (.ok (), { s with log := s.log ++ [event] })

def failure (result : Except Error α) : Option Error :=
  match result with
  | .ok _ => none
  | .error e => some e

def noted (event : Option Error → Event) (c : UpdateM σ Unit) : UpdateM σ Unit :=
  Attempt.call fun s =>
    ((c.run s).1, { (c.run s).2 with log := (c.run s).2.log ++ [event (failure (c.run s).1)] })

variable (cfg : Config) (P : Platform σ)

def specText (spec : Text × Text) : Text := (spec.1 ++ 46 :: spec.2).take (maxSpecLength - 1)

def getSpecInfo : UpdateM σ Text :=
  Attempt.call fun s =>
    if s.static.globalNctSpec ≠ [] then (.ok s.static.globalNctSpec, s)
    else
      match P.nctGetSpec s.env with
      | (.error e, env) => (.error e, { s with env := env })
      | (.ok spec, env) =>
        (.ok (specText spec), { s with env := env, static := { s.static with globalNctSpec := specText spec } })

def isUpdateAllSlotsRequired (blob : Option Nat) : UpdateM σ Bool :=
  Attempt.call fun s =>
    if s.static.isNewBupChecked then (.ok s.static.isRequired, s)
    else
      match P.isRatchetUpdateRequired with
      | none =>
        (.ok false, { s with static := { s.static with isRequired := false, isNewBupChecked := true } })
      | some callback =>
        let answer := callback blob s.env
        let required := answer.1.toOption.getD false
        (.ok required, { s with
            env := answer.2
            static := { s.static with isRequired := required, isNewBupChecked := true } })

def getFullPartName (slot : UInt32) (name : Text) : UpdateM σ Text :=
  match P.getSlotSuffix with
  | none => pure name
  | some callback => outside (callback slot name)

def getSlotNum : UpdateM σ UInt8 :=
  match P.getSlotNum with
  | none => throw (.own .notSupported 0)
  | some callback => outside callback

/-- The check looks at another callback than the one that is called. -/
def getSlotViaSuffix : UpdateM σ UInt32 :=
  match P.getSlotSuffix, P.getSlotViaSuffix with
  | none, _ => throw (.own .notSupported 0)
  | some _, none => throw .nullCallback
  | some _, some callback =>
    Attempt.call fun s =>
      let answer := callback s.static.updateSlotSuffix s.env
      (answer.1, { s with env := answer.2 })

/-- `strncpy` to an array of `GPT_PART_NAME_LEN` characters. -/
def copiedName (name : Text) : Text := name.take (partNameLen - 1)

def partitionHasSlot (name : Text) : UpdateM σ Bool := do
  let full ← getFullPartName P 1 (copiedName name)
  outside fun env =>
    (.ok (P.partitionOpen full env).1.toOption.isSome, (P.partitionOpen full env).2)

def isAlwaysAbPartition (name : Text) : UpdateM σ Bool :=
  match P.isAlwaysAbPartition with
  | none => throw (.own .notSupported 0)
  | some callback => pure (callback name)

def eraseQspi (name : Text) : UpdateM σ Unit :=
  if cfg.qspi ∧ P.onQspiFlash name then outside (P.partitionErase name) else pure ()

def storeImage (name : Text) (data : List UInt8) : UpdateM σ Unit :=
  match brBctPartitionName.isPrefixOf name, P.updateBct with
  | true, some callback => outside (callback data)
  | _, _ => outside (P.partitionWrite name data)

def writePartition (name : Text) (data : List UInt8) : UpdateM σ Unit :=
  noted (.write name data) do
    outside (P.partitionOpen name)
    eraseQspi cfg P name
    storeImage P name data

def writeOtherSlots (name : Text) (data : List UInt8) (updateSlot : UInt32) : List Nat → UpdateM σ Unit
  | [] => pure ()
  | i :: slots => do
    if i.toUInt32 ≠ updateSlot then
      let full ← getFullPartName P i.toUInt32 (copiedName name)
      writePartition cfg P full data
    writeOtherSlots name data updateSlot slots

def writeNonCurrentSlots (name : Text) (data : List UInt8) (updateSlot : UInt32) : UpdateM σ Unit := do
  let numSlots ← getSlotNum P
  if numSlots ≠ 1 then
    let always ← isAlwaysAbPartition P name
    let all ← isUpdateAllSlotsRequired P none
    note (.allSlots all)
    if all || always then
      writeOtherSlots cfg P name data updateSlot (List.range numSlots.toNat)

def writeABPartition (name : Text) (data : List UInt8) : UpdateM σ Unit := do
  let updateSlot ← getSlotViaSuffix P
  if ← partitionHasSlot P name then
    let full ← getFullPartName P updateSlot (copiedName name)
    writePartition cfg P full data
    writeNonCurrentSlots cfg P name data updateSlot
  else writePartition cfg P name data

def fitsSpec (spec : Text) (e : ImageEntry) : Bool := text e.specInfo = [] || text e.specInfo == spec

def fitsMode (production : Bool) (e : ImageEntry) : Bool :=
  e.opMode == 0 || e.opMode - 1 == (if production then 1 else 0)

def eligible (spec : Text) (production : Bool) (e : ImageEntry) : Bool :=
  fitsSpec spec e && fitsMode production e

section
variable (m : Mem) (bh : BlobInfo)

def findEntry (name : List UInt8) (spec : Text) : Nat → Nat → Except Error (Option (Nat × ImageEntry))
  | _, 0 => .ok none
  | i, n + 1 =>
    match tegrablBlobGetEntry (some bh) i.toUInt32 m with
    | .error e => .error (.blob e)
    | .ok a =>
      let entry := ImageEntry.decode m a
      if shortName entry.partname = shortName name ∧ eligible spec P.nvProductionMode entry then
        .ok (some (i, entry))
      else findEntry name spec (i + 1) n

def memAlignSize : Nat := 8

def updateFromEntry (i : Nat) (entry : ImageEntry) : UpdateM σ Unit :=
  match tegrablBlobGetEntryData (some bh) i.toUInt32 m with
  | .error e => throw (.blob e)
  | .ok (data, _) => do
    if cfg.qspi then
      outside (P.partitionOpen (text entry.partname))
      eraseQspi cfg P (text entry.partname)
    if data % memAlignSize ≠ 0 then
      allocate P
    note (.updating (text entry.partname))
    noted (.updated (text entry.partname)) <|
      if cfg.abUpdate then
        writeABPartition cfg P (text entry.partname) (bytesAt m data entry.imageSize.toNat)
      else writePartition cfg P (text entry.partname) (bytesAt m data entry.imageSize.toNat)

/-- When the spec is not known, the function is left with the status it started with. -/
def specOrNone (name : List UInt8) : UpdateM σ (Option Text) :=
  Attempt.call fun s =>
    match (getSpecInfo P).run s with
    | (.ok spec, s) => (.ok (some spec), s)
    | (.error _, s) => (.ok none, { s with log := s.log ++ [.noSpec (shortName name)] })

def updatePartition (name : List UInt8) (numEntries : UInt32) : UpdateM σ Unit := do
  if let some spec ← specOrNone P name then
    match findEntry P m bh name spec 0 numEntries.toNat with
    | .error e => throw e
    | .ok none => pure ()
    | .ok (some (i, entry)) => updateFromEntry cfg P m bh i entry

def dependencyRank (name : List UInt8) : Nat :=
  if shortName name = shortName mb1PartitionName then 2
  else if shortName name = shortName brBctPartitionName then 1
  else 0

theorem dependencyRank_lt {cfg : Config} {name part : List UInt8}
    (dependency : getDependency cfg name = some part) : dependencyRank part < dependencyRank name := by
  unfold getDependency updateSequence at dependency
  by_cases bct : shortName name = shortName brBctPartitionName
  · have found : part = mb2BlPartitionName := by
      simpa [bct] using dependency.symm
    have other : shortName brBctPartitionName ≠ shortName mb1PartitionName := by decide
    rw [found, show dependencyRank name = 1 by simp [dependencyRank, bct, other]]
    decide
  · by_cases mb1 : shortName name = shortName mb1PartitionName
    · cases ab : cfg.abUpdate with
      | false => simp [ab, bct] at dependency
      | true =>
        have other : shortName mb1PartitionName ≠ shortName brBctPartitionName := by decide
        have found : part = brBctPartitionName := by
          simpa [ab, mb1, other] using dependency.symm
        rw [found, show dependencyRank name = 2 by simp [dependencyRank, mb1]]
        decide
    · cases ab : cfg.abUpdate <;> simp [ab, bct, mb1] at dependency

def isPartitionUpdated (list : List (List UInt8)) (name : List UInt8) : Bool :=
  list.any fun updated => shortName updated == shortName name

def addUpdated (name : List UInt8) : UpdateM σ Unit :=
  Attempt.call fun s => (.ok (), { s with static := { s.static with list := name :: s.static.list } })

def alreadyUpdated (name : List UInt8) : UpdateM σ Bool :=
  Attempt.call fun s => (.ok (isPartitionUpdated s.static.list name), s)

def updateAndRecord (name : List UInt8) (numEntries : UInt32) : UpdateM σ Unit := do
  updatePartition cfg P m bh name numEntries
  allocate P
  addUpdated name

def updatePartitionRecursive (name : List UInt8) (numEntries : UInt32) : UpdateM σ Unit := do
  if ← alreadyUpdated name then pure ()
  else
    match _dependency : getDependency cfg name with
    | none => updateAndRecord cfg P m bh name numEntries
    | some part => do
      updatePartitionRecursive part numEntries
      updateAndRecord cfg P m bh name numEntries
termination_by dependencyRank name
decreasing_by exact dependencyRank_lt _dependency

/-- The loop over the entries. The index is an 8-bit number, so there is no end to it for more than 255
entries: `false` is for a loop that is still going when the fuel is used up. -/
def updateEntries (numEntries : UInt32) : Nat → UInt8 → Option Error → UpdateM σ Bool
  | 0, _, _ => pure false
  | fuel + 1, i, status =>
    if i.toUInt32 < numEntries then
      match tegrablBlobGetEntry (some bh) i.toUInt32 m with
      | .error e => updateEntries numEntries fuel (i + 1) (some (.blob e))
      | .ok a => do
        updatePartitionRecursive cfg P m bh (ImageEntry.decode m a).partname numEntries
        updateEntries numEntries fuel (i + 1) none
    else
      match status with
      | some e => throw e
      | none => pure true

def beginABUpdate (buff : Nat) (suffix : Option Text) : UpdateM σ Unit := do
  if cfg.abUpdate then
    let _ ← isUpdateAllSlotsRequired P (some buff)
    Attempt.call fun s =>
      (.ok (), { s with static := { s.static with updateSlotSuffix := suffix } })

def endABUpdate : UpdateM σ Unit := do
  if cfg.abUpdate then
    Attempt.call fun s =>
      (.ok (), { s with static := { s.static with isNewBupChecked := false } })

/-- All that is done for a payload whose blob is open, up to the label `end`. -/
def updatePayload (buff : Nat) (suffix : Option Text) (fuel : Nat) : UpdateM σ Bool := do
  if cfg.blobSigning then
    if let some verify := P.verifyPayload then
      outside (verify bh)
  match tegrablBlobGetType (some bh) m with
  | .error e => throw (.blob e)
  | .ok type =>
    if type ≠ blobUpdate then return true
    beginABUpdate cfg P buff suffix
    match tegrablBlobGetNumEntries (some bh) m with
    | .error e => throw (.blob e)
    | .ok numEntries =>
      if numEntries = 0 then throw (.own .notFound 0)
      let done ← updateEntries cfg P m bh numEntries fuel 0 none
      if done then
        endABUpdate cfg
      return done

end

def cleared (s : State σ) : State σ := { s with static := { s.static with list := [] } }

def tegrablCheckAndUpdateBlPayload (m : Mem) (buff : Nat) (size : UInt32) (suffix : Option Text)
    (fuel : Nat) (s : State σ) : Option (Except Error Unit × State σ) :=
  if buff = 0 then some (.error (.own .invalid 0), s)
  else
    let memory := P.memory s.env
    let s := { s with env := memory.2 }
    match (tegrablBlobInit (fun _ _ => if memory.1 then 1 else 0) [] ⟨m, none, fun _ => none, none⟩
        buff m).1 with
    | .error (.own .invalid _) => some (.ok (), s)
    | .error e => some (.error (.blob e), s)
    | .ok opened =>
      if size < tegrablBlobGetSize opened.info then some (.error (.own .invalid 0), s)
      else
        match (updatePayload cfg P m opened.info buff suffix fuel).run s with
        | (.ok false, _) => none
        | (.ok true, s) => some (.ok (), cleared s)
        | (.error e, s) => some (.error e, cleared s)

end

end Cboot.BlUpdate
