import Cboot.Lib.Runs

/-!
`tegrabl_eeprom_manager_init` of `lib/eeprom_manager/tegrabl_eeprom_manager.c`, with its legacy path and the scan of the
muxes that an EEPROM lists.
-/

namespace Cboot.EepromManager
open Lib

def tegrablEepromMaxSize : UInt32 := 256
def tegrablEepromMaxNum : Nat := 9 * 8
def i2cMuxTypeTca9546a : UInt8 := 1
def i2cMuxTca9546aMaxChannel : Nat := 4
def boardIdEepromStartAdd : Nat := 0x50
def boardIdEepromEndAdd : Nat := 0x58
def boardIdEepromMuxStartIndex : UInt8 := 89

inductive Error where
  | noHandle
  | traversal
  | notFound
  | noMemory
  | badParameter
  | readFailed
deriving DecidableEq

/-- An access outside of the table, one outside of an EEPROM's data, and a list of muxes that starts over. -/
inductive Fault where
  | table (i : Nat)
  | data (i : Nat)
  | endless
deriving DecidableEq

structure Entry where
  size : UInt32
  slaveAddr : UInt8
  crcValid : Bool
  dataValid : Bool
  /-- Nothing where no memory was allocated, or where it has been freed. -/
  data : Option (Nat → UInt8)

structure State where
  eeproms : Nat → Entry
  count : Nat
  initialized : Bool

def State.entry (s : State) (i : Nat) : Except Fault Entry :=
  if i < tegrablEepromMaxNum then .ok (s.eeproms i) else .error (.table i)

def State.set (s : State) (i : Nat) (e : Entry) : State := { s with eeproms := Function.update s.eeproms i e }

def State.put (s : State) (i : Nat) (e : Entry) : Except Fault State :=
  if i < tegrablEepromMaxNum then .ok (s.set i e) else .error (.table i)

def Entry.byte (e : Entry) (i : Nat) : Except Fault UInt8 :=
  match e.data with
  | none => .error (.data i)
  | some data => if i < e.size.toNat then .ok (data i) else .error (.data i)

inductive Probe where
  | noMemory
  | absent
  | noName (data : Nat → UInt8)
  | found (data : Nat → UInt8)

structure Mux where
  opened : Bool
  selected : Nat → Bool
  probed : Nat → UInt8 → Probe

/-- How a scan ends early: not at all by what C says, or with an error and the one EEPROM counted. -/
inductive Exit where
  | fault (f : Fault)
  | back (e : Error) (s : State)

abbrev Scan : Type := Except Exit (Nat × State)

def checked {α : Type} (c : Except Fault α) : Except Exit α := c.mapError .fault

def muxedEntry (size : UInt32) (eepAddr : UInt8) (dataValid : Bool) (data : Option (Nat → UInt8)) : Entry :=
  ⟨size, eepAddr, false, dataValid, data⟩

def probeAddress (size : UInt32) (eepAddr : UInt8) (answer : Probe) (ncount : Nat) (s : State) : Scan := do
  let entry ← checked (s.entry ncount)
  match answer with
  | .noMemory =>
    let s ← checked (s.put ncount { entry with data := none })
    throw (.back .noMemory s)
  | .absent =>
    let s ← checked (s.put ncount (muxedEntry size eepAddr false none))
    return (ncount, s)
  | .noName data =>
    let s ← checked (s.put ncount (muxedEntry size eepAddr true (some data)))
    throw (.back .noMemory s)
  | .found data =>
    let s ← checked (s.put ncount (muxedEntry size eepAddr true (some data)))
    return (ncount + 1, s)

def eepAddrs : List UInt8 :=
  (List.range (boardIdEepromEndAdd + 1 - boardIdEepromStartAdd)).map fun i =>
    UInt8.ofNat (boardIdEepromStartAdd + i) <<< 1

def scanAddresses (size : UInt32) (oldSlaveAddr : UInt8) (probed : UInt8 → Probe) : List UInt8 → Nat → State → Scan
  | [], ncount, s => return (ncount, s)
  | eepAddr :: rest, ncount, s =>
    if oldSlaveAddr = eepAddr then scanAddresses size oldSlaveAddr probed rest ncount s
    else do
      let (ncount, s) ← probeAddress size eepAddr (probed eepAddr) ncount s
      scanAddresses size oldSlaveAddr probed rest ncount s

def scanChannels (size : UInt32) (oldSlaveAddr : UInt8) (mux : Mux) : List Nat → Nat → State → Scan
  | [], ncount, s => return (ncount, s)
  | channel :: rest, ncount, s =>
    if mux.selected channel then do
      let (ncount, s) ← scanAddresses size oldSlaveAddr (mux.probed channel) eepAddrs ncount s
      scanChannels size oldSlaveAddr mux rest ncount s
    else throw (.back .notFound s)

/-- `mux_base_index` has 8 bits. -/
def muxPasses : Nat := 84

def scanMuxes (muxes : UInt8 → Mux) (oldCount : Nat) (size : UInt32) (oldSlaveAddr : UInt8) :
    Nat → UInt8 → Nat → State → Scan
  | 0, _, _, _ => throw (.fault .endless)
  | passes + 1, muxBaseIndex, ncount, s => do
    let old ← checked (s.entry oldCount)
    let muxSlaveAddr ← checked (old.byte muxBaseIndex.toNat)
    let muxType ← checked (old.byte (muxBaseIndex.toNat + 1))
    if muxSlaveAddr = 0x00 ∨ muxSlaveAddr = 0xFF then return (ncount, s)
    else if muxType ≠ i2cMuxTypeTca9546a then return (ncount, s)
    else if (muxes muxBaseIndex).opened then do
      let (ncount, s) ← scanChannels size oldSlaveAddr (muxes muxBaseIndex) (List.range i2cMuxTca9546aMaxChannel) ncount s
      scanMuxes muxes oldCount size oldSlaveAddr passes (muxBaseIndex + 2) ncount s
    else throw (.back .badParameter s)

def tegrablReadMuxedEeprom (muxes : UInt8 → Mux) (oldCount : Nat) (s : State) : Except Fault (Nat × State) := do
  let old ← s.entry oldCount
  match scanMuxes muxes oldCount old.size old.slaveAddr muxPasses boardIdEepromMuxStartIndex (oldCount + 1) s with
  | .ok (ncount, s) => return (ncount, s)
  | .error (.back _ s) => return (oldCount + 1, s)
  | .error (.fault f) => throw f

/-- What `eeprom_general_read` leaves. An EEPROM with an error can have data that are valid. -/
structure Read where
  ok : Bool
  dataValid : Bool
  data : Nat → UInt8

/-- A node below a bus of the EEPROM manager. `nameMemory` is false where there is a label and no memory for it. -/
structure LegacyNode where
  slaveAddress : Option UInt32
  nameMemory : Bool
  dataMemory : Bool
  read : Read
  busMemory : Bool
  muxes : UInt8 → Mux

/-- A node of the whole tree. `described` tells whether its name, its properties and its parent are as they must be. -/
structure Node where
  described : Bool
  size : UInt32
  address : UInt32
  dataMemory : Bool
  instanceFound : Bool
  read : Read
  busMemory : Bool
  busPath : Bool

/-- `EEPROM_SZ` is defined elsewhere. The data of an EEPROM have no more than the largest size. -/
structure World where
  eepromSz : UInt32
  sized : eepromSz ≤ tegrablEepromMaxSize
  handle : Bool
  nodes : List Node
  /-- The tree ends with a node that is not there, and not with an error. -/
  ended : Bool
  legacyHandle : Bool
  manager : Bool
  cvmMemory : Bool
  cvmRead : Read
  dataSize : Option UInt32
  legacyNodes : List LegacyNode

abbrev Run : Type := Except Fault (Except Error Unit × State)

def legacyEntry (size slaveAddr : UInt32) (read : Read) : Entry :=
  ⟨size, (slaveAddr <<< 1).toUInt8, false, read.dataValid, if read.dataValid then some read.data else none⟩

def legacyScan (size : UInt32) : List LegacyNode → State → Run
  | [], s => return (.ok (), s)
  | node :: rest, s =>
    if s.count = tegrablEepromMaxNum then return (.error .noMemory, s)
    else
      match node.slaveAddress with
      | none => return (.error .notFound, s)
      | some slaveAddr => do
        let entry ← s.entry s.count
        if ¬ node.nameMemory then return (.error .noMemory, s)
        else if ¬ node.dataMemory then
          let s ← s.put s.count { entry with size := size, data := none }
          return (.error .noMemory, s)
        else
          let s ← s.put s.count (legacyEntry size slaveAddr node.read)
          if ¬ node.read.dataValid then legacyScan size rest s
          else if ¬ node.busMemory then return (.error .noMemory, s)
          else
            let (newCount, s) ← tegrablReadMuxedEeprom node.muxes s.count s
            legacyScan size rest { s with count := newCount }

def cvmEntry (size : UInt32) (dataValid : Bool) (data : Option (Nat → UInt8)) : Entry := ⟨size, 0xA0, true, dataValid, data⟩

def loadCvm (w : World) (s : State) : Run :=
  if ¬ w.cvmMemory then do
    let s ← s.put s.count (cvmEntry w.eepromSz false none)
    return (.error .noMemory, s)
  else if ¬ w.cvmRead.ok then do
    let s ← s.put s.count (cvmEntry w.eepromSz false none)
    return (.error .readFailed, s)
  else do
    let s ← s.put s.count (cvmEntry w.eepromSz true (some w.cvmRead.data))
    return (.ok (), { s with count := s.count + 1 })

def World.legacySize (w : World) (dataSize : UInt32) : UInt32 := if dataSize > w.eepromSz then w.eepromSz else dataSize

def tegrablEepromManagerInitLegacy (w : World) (s : State) : Run :=
  if ¬ w.legacyHandle then return (.error .noHandle, s)
  else
    let s := { s with count := 0 }
    if ¬ w.manager then loadCvm w s
    else
      match w.dataSize with
      | none => return (.error .notFound, s)
      | some dataSize => legacyScan (w.legacySize dataSize) w.legacyNodes s

def nodeEntry (size address : UInt32) (dataValid : Bool) (data : Option (Nat → UInt8)) : Entry :=
  ⟨size, (address <<< 1).toUInt8, false, dataValid, data⟩

/-- A node with all its properties. What is read is freed again unless all of it succeeds. -/
def addNode (eepromSz : UInt32) (node : Node) (s : State) : Except Fault State := do
  let size := max node.size eepromSz
  let entry ← s.entry s.count
  if ¬ node.dataMemory then s.put s.count { entry with size := size, data := none }
  else if ¬ node.instanceFound then s.put s.count { entry with size := size, data := some node.read.data }
  else if ¬ node.read.ok then s.put s.count (nodeEntry size node.address node.read.dataValid none)
  else if ¬ node.read.dataValid then s.put s.count (nodeEntry size node.address false none)
  else if ¬ node.busMemory ∨ ¬ node.busPath then s.put s.count (nodeEntry size node.address true none)
  else
    let s ← s.put s.count (nodeEntry size node.address true (some node.read.data))
    return { s with count := s.count + 1 }

/-- The tree is left when the table is full. -/
def scanNodes (eepromSz : UInt32) (ended : Bool) : List Node → State → Except Fault (Bool × State)
  | nodes, s =>
    if s.count < tegrablEepromMaxNum then
      match nodes with
      | [] => return (ended, s)
      | node :: rest =>
        if node.described then do
          let s ← addNode eepromSz node s
          scanNodes eepromSz ended rest s
        else scanNodes eepromSz ended rest s
    else return (true, s)

def tegrablEepromManagerInit (w : World) (s : State) : Run :=
  if s.initialized then return (.ok (), s)
  else if ¬ w.handle then return (.error .noHandle, s)
  else do
    let (ended, s) ← scanNodes w.eepromSz w.ended w.nodes { s with count := 0 }
    if ¬ ended then return (.error .traversal, s)
    else if s.count = 0 then do
      let (result, s) ← tegrablEepromManagerInitLegacy w s
      match result with
      | .error e => return (.error e, s)
      | .ok _ => return (.ok (), { s with initialized := true })
    else return (.ok (), { s with initialized := true })

def Entry.Live (e : Entry) : Prop := e.dataValid = true ∧ e.data.isSome

def State.Live (s : State) : Prop := ∀ i < s.count, (s.eeproms i).Live

/-- All accesses are inside, the run comes to an end, and what is counted has its data. -/
def Contained (s : State) (run : Run) : Prop := ∃ result s', run = .ok (result, s') ∧ (s.Live → s'.Live)

inductive Act where
  | look (muxBaseIndex : UInt8)
  | attach (opened : Bool)
  | select (selected : Bool)
  | probe (answer : Probe)

/-- The number of EEPROMs behind an act. There is none when the scan has been given up. -/
def Act.tally : Option Nat → Act → Option Nat
  | none, _ => none
  | some n, .look _ => some n
  | some n, .attach opened => if opened then some n else none
  | some n, .select selected => if selected then some n else none
  | some _, .probe .noMemory => none
  | some n, .probe .absent => some n
  | some _, .probe (.noName _) => none
  | some n, .probe (.found _) => some (n + 1)

/-- An entry of the list lies inside of the data, and a probe has a place in the table. -/
def Act.Fits (size : UInt32) : Option Nat → Act → Prop
  | none, _ => True
  | some _, .look muxBaseIndex => muxBaseIndex.toNat + 1 < size.toNat
  | some n, .probe _ => n < tegrablEepromMaxNum
  | some _, _ => True

def ListsMux (data : Nat → UInt8) (muxBaseIndex : UInt8) : Prop :=
  ¬ (data muxBaseIndex.toNat = 0x00 ∨ data muxBaseIndex.toNat = 0xFF) ∧
    data (muxBaseIndex.toNat + 1) = i2cMuxTypeTca9546a

instance (data : Nat → UInt8) (muxBaseIndex : UInt8) : Decidable (ListsMux data muxBaseIndex) :=
  inferInstanceAs (Decidable (_ ∧ _))

def channelActs (oldSlaveAddr : UInt8) (mux : Mux) (channel : Nat) : List Act :=
  .select (mux.selected channel) ::
    (eepAddrs.filter (oldSlaveAddr ≠ ·)).map fun eepAddr => .probe (mux.probed channel eepAddr)

def muxActs (oldSlaveAddr : UInt8) (mux : Mux) : List Act :=
  .attach mux.opened :: (List.range i2cMuxTca9546aMaxChannel).flatMap (channelActs oldSlaveAddr mux)

def listActs (data : Nat → UInt8) (oldSlaveAddr : UInt8) (muxes : UInt8 → Mux) : Nat → UInt8 → List Act
  | 0, _ => []
  | passes + 1, muxBaseIndex =>
    .look muxBaseIndex ::
      if ListsMux data muxBaseIndex then
        muxActs oldSlaveAddr (muxes muxBaseIndex) ++ listActs data oldSlaveAddr muxes passes (muxBaseIndex + 2)
      else []

def LegacyNode.acts (node : LegacyNode) (slaveAddr : UInt32) : List Act :=
  listActs node.read.data (slaveAddr <<< 1).toUInt8 node.muxes muxPasses boardIdEepromMuxStartIndex

def LegacyNode.Found (node : LegacyNode) : Prop :=
  node.nameMemory ∧ node.dataMemory ∧ node.read.dataValid ∧ node.busMemory

instance (node : LegacyNode) : Decidable node.Found := inferInstanceAs (Decidable (_ ∧ _ ∧ _ ∧ _))

/-- The number behind an EEPROM and its muxes. Where the scan is given up, it counts as one. -/
def tallied (n : Nat) (acts : List Act) : Nat := (acts.foldl Act.tally (some (n + 1))).getD (n + 1)

def LegacyNode.tally : Option Nat → LegacyNode → Option Nat
  | none, _ => none
  | some n, node =>
    if n = tegrablEepromMaxNum then none
    else
      match node.slaveAddress with
      | none => none
      | some slaveAddr =>
        if node.Found then some (tallied n (node.acts slaveAddr))
        else if node.nameMemory ∧ node.dataMemory ∧ ¬ node.read.dataValid then some n
        else none

def LegacyNode.Fits (size : UInt32) : Option Nat → LegacyNode → Prop
  | none, _ => True
  | some n, node =>
    n ≠ tegrablEepromMaxNum → node.Found → ∀ slaveAddr, node.slaveAddress = some slaveAddr →
      EachStep Act.tally (Act.Fits size) (some (n + 1)) (node.acts slaveAddr)

def Node.Added (node : Node) : Prop :=
  node.described ∧ node.dataMemory ∧ node.instanceFound ∧ node.read.ok ∧ node.read.dataValid ∧ node.busMemory ∧
    node.busPath

instance (node : Node) : Decidable node.Added := inferInstanceAs (Decidable (_ ∧ _ ∧ _ ∧ _ ∧ _ ∧ _ ∧ _))

structure World.Scans (w : World) (dataSize : UInt32) : Prop where
  handle : w.handle
  none_added : ∀ node ∈ w.nodes, ¬ node.Added
  ended : w.ended
  legacyHandle : w.legacyHandle
  manager : w.manager
  dataSize : w.dataSize = some dataSize

def World.Fits (w : World) : Prop :=
  ∀ dataSize, w.Scans dataSize →
    EachStep LegacyNode.tally (LegacyNode.Fits (w.legacySize dataSize)) (some 0) w.legacyNodes

theorem ok_bind {ε α β : Type} (a : α) (f : α → Except ε β) : (Except.ok a >>= f) = f a := rfl

theorem error_bind {ε α β : Type} (e : ε) (f : α → Except ε β) : (Except.error e >>= f) = .error e := rfl

theorem checked_ok {α : Type} (a : α) : checked (.ok a) = .ok a := rfl

theorem checked_error {α : Type} (f : Fault) : checked (.error f : Except Fault α) = .error (.fault f) := rfl

variable {s : State} {i : Nat}

theorem entry_ok (inside : i < tegrablEepromMaxNum) : s.entry i = .ok (s.eeproms i) := if_pos inside

theorem entry_fault (outside : ¬ i < tegrablEepromMaxNum) : s.entry i = .error (.table i) :=
  if_neg outside

theorem put_ok (e : Entry) (inside : i < tegrablEepromMaxNum) :
    s.put i e = .ok (s.set i e) := if_pos inside

@[simp] theorem eeproms_set_self (s : State) (i : Nat) (e : Entry) : (s.set i e).eeproms i = e :=
  Function.update_self _ _ _

theorem eeproms_set_of_ne (s : State) {i j : Nat} (e : Entry) (other : j ≠ i) : (s.set i e).eeproms j = s.eeproms j :=
  Function.update_of_ne other _ _

/-- Inside of a scan: `n` EEPROMs are in the table, the one with the list at `c`. -/
structure Scanning (c : Nat) (old : Entry) (n : Nat) (s : State) : Prop where
  counted : s.count = c
  behind : c < n
  within : n ≤ tegrablEepromMaxNum
  own : s.eeproms c = old
  live : ∀ i < n, (s.eeproms i).Live

variable {c n : Nat} {old e : Entry} {size : UInt32}

theorem Scanning.put (scanning : Scanning c old n s) : Scanning c old n (s.set n e) := by
  obtain ⟨counted, behind, within, own, live⟩ := scanning
  refine ⟨counted, behind, within, ?_, ?_⟩
  · rw [eeproms_set_of_ne s e (Nat.ne_of_lt behind), own]
  · intro i below
    rw [eeproms_set_of_ne s e (Nat.ne_of_lt below)]
    exact live i below

theorem Scanning.add (scanning : Scanning c old n s) (room : n < tegrablEepromMaxNum) (live : e.Live) :
    Scanning c old (n + 1) (s.set n e) := by
  obtain ⟨counted, behind, _, own, others⟩ := scanning.put (e := e)
  refine ⟨counted, by omega, room, own, ?_⟩
  intro i below
  obtain earlier | last := Nat.lt_succ_iff_lt_or_eq.mp below
  · exact others i earlier
  · subst last
    simpa using live

def Follows (c : Nat) (old : Entry) : Scan → Option Nat → Prop
  | .ok (n, s), m => m = some n ∧ Scanning c old n s
  | .error (.back _ s), m => m = none ∧ ∃ n, Scanning c old n s
  | .error (.fault _), _ => False

def Faulty {α : Type} (c : Except Exit α) : Prop := ∃ f, c = .error (.fault f)

/-- A part of the scan does these acts: it follows their tally where they fit, and otherwise runs into a fault. -/
def Does (c : Nat) (old : Entry) (scan : Nat → State → Scan) (acts : List Act) : Prop :=
  ∀ n s, Scanning c old n s →
    (EachStep Act.tally (Act.Fits old.size) (some n) acts → Follows c old (scan n s) (acts.foldl Act.tally (some n))) ∧
    (¬ EachStep Act.tally (Act.Fits old.size) (some n) acts → Faulty (scan n s))

theorem tally_none (acts : List Act) : acts.foldl Act.tally none = none := by
  induction acts with
  | nil => rfl
  | cons act acts ih => exact ih

theorem fits_none (acts : List Act) : EachStep Act.tally (Act.Fits size) none acts := by
  induction acts with
  | nil => exact eachStep_nil
  | cons act acts ih => exact eachStep_cons.mpr ⟨trivial, ih⟩

theorem does_nil : Does c old (fun n s => return (n, s)) [] :=
  fun _ _ scanning => ⟨fun _ => ⟨rfl, scanning⟩, fun unfit => absurd eachStep_nil unfit⟩

theorem Does.bind {first rest : Nat → State → Scan} {acts more : List Act} (one : Does c old first acts)
    (two : Does c old rest more) : Does c old (fun n s => first n s >>= fun p => rest p.1 p.2) (acts ++ more) := by
  intro n s scanning
  obtain ⟨follows, faulty⟩ := one n s scanning
  rw [eachStep_append, List.foldl_append]
  dsimp only
  by_cases fit : EachStep Act.tally (Act.Fits old.size) (some n) acts
  · have ended := follows fit
    cases scanned : first n s with
    | ok p =>
      rw [scanned] at ended
      obtain ⟨same, scanning'⟩ := ended
      have next : ((Except.ok p : Scan) >>= fun p => rest p.1 p.2) = rest p.1 p.2 := rfl
      rw [same, next]
      obtain ⟨onward, stuck⟩ := two p.1 p.2 scanning'
      exact ⟨fun fits => onward fits.2, fun unfit => stuck fun fits => unfit ⟨fit, fits⟩⟩
    | error exit =>
      rw [scanned] at ended
      cases exit with
      | fault f => exact ended.elim
      | back e s' =>
        obtain ⟨same, kept⟩ := ended
        have given_up : ((Except.error (.back e s') : Scan) >>= fun p => rest p.1 p.2) = .error (.back e s') := rfl
        rw [same, given_up, tally_none]
        exact ⟨fun _ => ⟨rfl, kept⟩, fun unfit => absurd ⟨fit, fits_none more⟩ unfit⟩
  · obtain ⟨f, stuck⟩ := faulty fit
    refine ⟨fun fits => absurd fits.1 fit, fun _ => ⟨f, ?_⟩⟩
    simp only [stuck]
    rfl

theorem does_attach (opened : Bool) (error : Error) {rest : Nat → State → Scan} {acts : List Act}
    (two : Does c old rest acts) (act : Bool → Act) (fits : ∀ n, (act opened).Fits old.size (some n))
    (tally : ∀ n, Act.tally (some n) (act opened) = if opened then some n else none) :
    Does c old (fun n s => if opened then rest n s else throw (.back error s)) (act opened :: acts) := by
  intro n s scanning
  obtain ⟨follows, faulty⟩ := two n s scanning
  rw [eachStep_cons, List.foldl_cons, tally]
  cases opened with
  | true => exact ⟨fun each => follows each.2, fun unfit => faulty fun each => unfit ⟨fits n, each⟩⟩
  | false =>
    simp only [Bool.false_eq_true, if_false, tally_none]
    exact ⟨fun _ => ⟨rfl, n, scanning⟩, fun unfit => absurd ⟨fits n, fits_none acts⟩ unfit⟩

theorem does_probe (eepAddr : UInt8) (answer : Probe) :
    Does c old (probeAddress old.size eepAddr answer) [.probe answer] := by
  intro n s scanning
  rw [eachStep_cons, List.foldl_cons, List.foldl_nil]
  unfold probeAddress
  by_cases inside : n < tegrablEepromMaxNum
  · refine ⟨fun _ => ?_, fun unfit => absurd ⟨inside, eachStep_nil⟩ unfit⟩
    simp only [entry_ok inside, put_ok _ inside, checked_ok, ok_bind]
    cases answer with
    | noMemory => exact ⟨rfl, n, scanning.put⟩
    | absent => exact ⟨rfl, scanning.put⟩
    | noName data => exact ⟨rfl, n, scanning.put⟩
    | found data => exact ⟨rfl, scanning.add inside ⟨rfl, rfl⟩⟩
  · refine ⟨fun fits => absurd fits.1 inside, fun _ => ⟨.table n, ?_⟩⟩
    simp only [entry_fault inside, checked_error, error_bind]

theorem does_addresses (probed : UInt8 → Probe) (eepAddrs : List UInt8) :
    Does c old (scanAddresses old.size old.slaveAddr probed eepAddrs)
      ((eepAddrs.filter (old.slaveAddr ≠ ·)).map fun eepAddr => .probe (probed eepAddr)) := by
  induction eepAddrs with
  | nil => exact does_nil
  | cons eepAddr rest ih =>
    by_cases own : old.slaveAddr = eepAddr
    · have skipped : scanAddresses old.size old.slaveAddr probed (eepAddr :: rest) =
          scanAddresses old.size old.slaveAddr probed rest := by
        funext n s
        rw [scanAddresses, if_pos own]
      rw [skipped, List.filter_cons_of_neg (by simpa using own)]
      exact ih
    · have taken : scanAddresses old.size old.slaveAddr probed (eepAddr :: rest) =
          fun n s => probeAddress old.size eepAddr (probed eepAddr) n s >>= fun p =>
            scanAddresses old.size old.slaveAddr probed rest p.1 p.2 := by
        funext n s
        rw [scanAddresses, if_neg own]
      rw [taken, List.filter_cons_of_pos (by simpa using own)]
      exact (does_probe eepAddr (probed eepAddr)).bind ih

theorem does_channels (mux : Mux) (channels : List Nat) :
    Does c old (scanChannels old.size old.slaveAddr mux channels) (channels.flatMap (channelActs old.slaveAddr mux)) := by
  induction channels with
  | nil => exact does_nil
  | cons channel rest ih =>
    have taken : scanChannels old.size old.slaveAddr mux (channel :: rest) = fun n s =>
        if mux.selected channel then
          scanAddresses old.size old.slaveAddr (mux.probed channel) eepAddrs n s >>= fun p =>
            scanChannels old.size old.slaveAddr mux rest p.1 p.2
        else throw (.back .notFound s) := by
      funext n s
      rw [scanChannels]
    rw [taken]
    exact does_attach (mux.selected channel) .notFound ((does_addresses (mux.probed channel) eepAddrs).bind ih) .select
      (fun _ => trivial) fun _ => rfl

variable {data : Nat → UInt8}

theorem byte_ok (held : e.data = some data) (inside : i < e.size.toNat) :
    e.byte i = .ok (data i) := by
  simp only [Entry.byte, held, if_pos inside]

theorem byte_fault (held : e.data = some data) (outside : ¬ i < e.size.toNat) :
    e.byte i = .error (.data i) := by
  simp only [Entry.byte, held, if_neg outside]

theorem toNat_next {i : UInt8} {passes : Nat} (place : i.toNat + 2 * (passes + 1) = 257) (fits : i.toNat + 1 < 256) :
    (i + 2).toNat + 2 * passes = 257 := by
  rw [UInt8.toNat_add]
  have two : (2 : UInt8).toNat = 2 := rfl
  omega

theorem does_list (muxes : UInt8 → Mux) (held : old.data = some data)
    (small : old.size ≤ tegrablEepromMaxSize) (inside : c < tegrablEepromMaxNum) (passes : Nat) (i : UInt8)
    (place : i.toNat + 2 * passes = 257) :
    Does c old (scanMuxes muxes c old.size old.slaveAddr passes i) (listActs data old.slaveAddr muxes passes i) := by
  induction passes generalizing i with
  | zero =>
    have := i.toNat_lt
    omega
  | succ passes ih =>
    intro n s scanning
    have own : s.entry c = .ok old := by rw [entry_ok inside, scanning.own]
    have bound : old.size.toNat ≤ 256 := UInt32.le_iff_toNat_le.mp small
    rw [listActs, eachStep_cons, List.foldl_cons]
    by_cases fits : i.toNat + 1 < old.size.toNat
    · have first := byte_ok held (show i.toNat < old.size.toNat by omega)
      have second := byte_ok held fits
      have taken : scanMuxes muxes c old.size old.slaveAddr (passes + 1) i n s =
          if data i.toNat = 0x00 ∨ data i.toNat = 0xFF then return (n, s)
          else if data (i.toNat + 1) ≠ i2cMuxTypeTca9546a then return (n, s)
          else if (muxes i).opened then
            scanChannels old.size old.slaveAddr (muxes i) (List.range i2cMuxTca9546aMaxChannel) n s >>= fun p =>
              scanMuxes muxes c old.size old.slaveAddr passes (i + 2) p.1 p.2
          else throw (.back .badParameter s) := by
        rw [scanMuxes]
        simp only [own, first, second, checked_ok, ok_bind]
      have next := ih (i + 2) (toNat_next place (by omega))
      have mux := does_attach (muxes i).opened .badParameter
        ((does_channels (muxes i) (List.range i2cMuxTca9546aMaxChannel)).bind next) .attach (fun _ => trivial) fun _ => rfl
      have ends : ¬ ListsMux data i → scanMuxes muxes c old.size old.slaveAddr (passes + 1) i n s = .ok (n, s) := by
        intro failed
        rw [taken]
        split
        · rfl
        · split
          · rfl
          · exact absurd ⟨‹_›, not_not.mp ‹_›⟩ failed
      by_cases lists : ListsMux data i
      · obtain ⟨follows, faulty⟩ := mux n s scanning
        rw [if_pos lists, taken, if_neg lists.1, if_neg (not_not.mpr lists.2)]
        exact ⟨fun each => follows each.2, fun unfit => faulty fun each => unfit ⟨fits, each⟩⟩
      · rw [if_neg lists, ends lists]
        exact ⟨fun _ => ⟨rfl, scanning⟩, fun unfit => absurd ⟨fits, eachStep_nil⟩ unfit⟩
    · refine ⟨fun each => absurd each.1 fits, fun _ => ?_⟩
      rw [scanMuxes]
      by_cases half : i.toNat < old.size.toNat
      · refine ⟨.data (i.toNat + 1), ?_⟩
        simp only [own, byte_ok held half, byte_fault held fits, checked_ok, checked_error, ok_bind, error_bind]
      · refine ⟨.data i.toNat, ?_⟩
        simp only [own, byte_fault held half, checked_ok, checked_error, ok_bind, error_bind]

structure Counted (n : Nat) (s : State) : Prop where
  counted : s.count = n
  within : n ≤ tegrablEepromMaxNum
  live : s.Live

theorem readMuxed_spec (muxes : UInt8 → Mux) (held : old.data = some data)
    (small : old.size ≤ tegrablEepromMaxSize) (inside : c < tegrablEepromMaxNum) (scanning : Scanning c old (c + 1) s)
    (acts : List Act) (same : acts = listActs data old.slaveAddr muxes muxPasses boardIdEepromMuxStartIndex) :
    (EachStep Act.tally (Act.Fits old.size) (some (c + 1)) acts → ∃ s',
      tegrablReadMuxedEeprom muxes c s = .ok (tallied c acts, s') ∧
      Counted (tallied c acts) { s' with count := tallied c acts }) ∧
    (¬ EachStep Act.tally (Act.Fits old.size) (some (c + 1)) acts → ∃ f, tegrablReadMuxedEeprom muxes c s = .error f) := by
  have own : s.entry c = .ok old := by rw [entry_ok inside, scanning.own]
  have does := does_list muxes held small inside muxPasses boardIdEepromMuxStartIndex (by decide)
  rw [← same] at does
  obtain ⟨follows, faulty⟩ := does (c + 1) s scanning
  unfold tegrablReadMuxedEeprom tallied
  rw [own, ok_bind]
  constructor
  · intro fits
    have ended := follows fits
    cases scanned : scanMuxes muxes c old.size old.slaveAddr muxPasses boardIdEepromMuxStartIndex (c + 1) s with
    | ok p =>
      rw [scanned] at ended
      obtain ⟨tallied, behind⟩ := ended
      rw [tallied]
      exact ⟨p.2, rfl, rfl, behind.within, behind.live⟩
    | error exit =>
      rw [scanned] at ended
      cases exit with
      | fault f => exact ended.elim
      | back e s' =>
        obtain ⟨tallied, n, behind⟩ := ended
        rw [tallied]
        exact ⟨s', rfl, rfl, inside, fun i below => behind.live i (Nat.lt_of_lt_of_le below behind.behind)⟩
  · intro unfit
    obtain ⟨f, stuck⟩ := faulty unfit
    exact ⟨f, by rw [stuck]; rfl⟩

theorem tally_nodes_none (nodes : List LegacyNode) : EachStep LegacyNode.tally (LegacyNode.Fits size) none nodes := by
  induction nodes with
  | nil => exact eachStep_nil
  | cons node nodes ih => exact eachStep_cons.mpr ⟨trivial, ih⟩

theorem Counted.put (counted : Counted n s) : Counted n (s.set n e) := by
  obtain ⟨same, within, live⟩ := counted
  refine ⟨same, within, ?_⟩
  intro i below
  have other : i ≠ n := by
    subst same
    exact Nat.ne_of_lt below
  rw [eeproms_set_of_ne s e other]
  exact live i below

theorem legacyEntry_data (size slaveAddr : UInt32) {read : Read} (valid : read.dataValid = true) :
    (legacyEntry size slaveAddr read).data = some read.data := by
  simp [legacyEntry, valid]

theorem legacyEntry_live (size slaveAddr : UInt32) {read : Read} (valid : read.dataValid = true) :
    (legacyEntry size slaveAddr read).Live := ⟨valid, by rw [legacyEntry_data size slaveAddr valid]; rfl⟩

theorem Counted.scanning (counted : Counted n s) (room : n < tegrablEepromMaxNum) (live : e.Live) :
    Scanning n e (n + 1) (s.set n e) := by
  obtain ⟨same, within, others⟩ := counted.put (e := e)
  refine ⟨same, by omega, room, by simp, ?_⟩
  intro i below
  obtain earlier | last := Nat.lt_succ_iff_lt_or_eq.mp below
  · exact others i (by rw [same]; exact earlier)
  · subst last
    simpa using live

/-- A run with an answer exactly where `fits` holds. -/
def Settles (fits : Prop) (run : Run) : Prop :=
  (fits → ∃ result s', run = .ok (result, s') ∧ s'.Live) ∧ (¬ fits → ∃ f, run = .error f)

variable {result : Except Error Unit}

theorem settles_of_ok {fits : Prop} (always : fits) (live : s.Live) :
    Settles fits (.ok (result, s)) := ⟨fun _ => ⟨result, s, rfl, live⟩, fun unfit => absurd always unfit⟩

theorem Settles.congr {fits fits' : Prop} {run : Run} (settles : Settles fits run) (same : fits' ↔ fits) :
    Settles fits' run := by rwa [propext same]

variable {node : LegacyNode}

theorem legacyScan_cons {rest : List LegacyNode} {slaveAddr : UInt32}
    (counted : Counted n s) (room : n < tegrablEepromMaxNum) (addressed : node.slaveAddress = some slaveAddr) :
    legacyScan size (node :: rest) s =
      if ¬ node.nameMemory then .ok (.error .noMemory, s)
      else if ¬ node.dataMemory then .ok (.error .noMemory, s.set n { s.eeproms n with size := size, data := none })
      else
        let s' := s.set n (legacyEntry size slaveAddr node.read)
        if ¬ node.read.dataValid then legacyScan size rest s'
        else if ¬ node.busMemory then .ok (.error .noMemory, s')
        else tegrablReadMuxedEeprom node.muxes n s' >>= fun p => legacyScan size rest { p.2 with count := p.1 } := by
  have same := counted.counted
  subst same
  rw [legacyScan, if_neg (Nat.ne_of_lt room), addressed]
  simp only [entry_ok room, put_ok _ room, ok_bind]
  rfl

theorem settles_stopped (rest : List LegacyNode)
    (fits : node.Fits size (some n)) (stopped : node.tally (some n) = none) (live : s.Live) :
    Settles (node.Fits size (some n) ∧ EachStep LegacyNode.tally (LegacyNode.Fits size) (node.tally (some n)) rest)
      (.ok (result, s)) := by
  rw [stopped]
  exact settles_of_ok ⟨fits, tally_nodes_none rest⟩ live

theorem fits_of_absent (absent : ¬ node.Found) : node.Fits size (some n) :=
  fun _ found => absurd found absent

theorem legacyScan_spec (small : size ≤ tegrablEepromMaxSize) (nodes : List LegacyNode)
    (counted : Counted n s) :
    Settles (EachStep LegacyNode.tally (LegacyNode.Fits size) (some n) nodes) (legacyScan size nodes s) := by
  induction nodes generalizing n s with
  | nil => exact settles_of_ok eachStep_nil counted.live
  | cons node rest ih =>
    rw [eachStep_cons]
    by_cases full : n = tegrablEepromMaxNum
    · rw [legacyScan, if_pos (counted.counted.trans full)]
      exact settles_stopped rest (fun free => absurd full free) (if_pos full) counted.live
    have room : n < tegrablEepromMaxNum := Nat.lt_of_le_of_ne counted.within full
    cases addressed : node.slaveAddress with
    | none =>
      rw [legacyScan, if_neg (by rwa [counted.counted]), addressed]
      exact settles_stopped rest (fun _ _ a same => absurd (addressed.symm.trans same) (by simp))
        (by simp [LegacyNode.tally, full, addressed]) counted.live
    | some slaveAddr =>
      rw [legacyScan_cons counted room addressed]
      by_cases name : node.nameMemory = true
      · by_cases data : node.dataMemory = true
        · have onward := counted.put (e := legacyEntry size slaveAddr node.read)
          rw [if_neg (not_not.mpr name), if_neg (not_not.mpr data)]
          dsimp only
          by_cases valid : node.read.dataValid = true
          · rw [if_neg (not_not.mpr valid)]
            by_cases bus : node.busMemory = true
            · have found : node.Found := ⟨name, data, valid, bus⟩
              have tally : node.tally (some n) = some (tallied n (node.acts slaveAddr)) := by
                simp [LegacyNode.tally, full, addressed, found]
              have fits : node.Fits size (some n) ↔
                  EachStep Act.tally (Act.Fits size) (some (n + 1)) (node.acts slaveAddr) := by
                constructor
                · intro fits
                  exact fits full found slaveAddr addressed
                · intro each _ _ other same
                  cases addressed.symm.trans same
                  exact each
              obtain ⟨answers, stuck⟩ := readMuxed_spec node.muxes (legacyEntry_data size slaveAddr valid) small room
                (counted.scanning room (legacyEntry_live size slaveAddr valid)) (node.acts slaveAddr) rfl
              rw [if_neg (not_not.mpr bus), tally, fits]
              by_cases each : EachStep Act.tally (Act.Fits size) (some (n + 1)) (node.acts slaveAddr)
              · obtain ⟨s', ended, next⟩ := answers each
                rw [ended]
                exact (ih next).congr (and_iff_right each)
              · obtain ⟨f, ended⟩ := stuck each
                rw [ended]
                exact ⟨fun both => absurd both.1 each, fun _ => ⟨f, rfl⟩⟩
            · rw [if_pos bus]
              have absent : ¬ node.Found := fun found => bus found.2.2.2
              exact settles_stopped rest (fits_of_absent absent)
                (by simp [LegacyNode.tally, full, addressed, absent, valid]) onward.live
          · have absent : ¬ node.Found := fun found => valid found.2.2.1
            have tally : node.tally (some n) = some n := by
              simp [LegacyNode.tally, full, addressed, absent, name, data, valid]
            rw [if_pos valid, tally]
            exact (ih onward).congr (and_iff_right (fits_of_absent absent))
        · have absent : ¬ node.Found := fun found => data found.2.1
          rw [if_neg (not_not.mpr name), if_pos data]
          exact settles_stopped rest (fits_of_absent absent)
            (by simp [LegacyNode.tally, full, addressed, absent, data]) counted.put.live
      · have absent : ¬ node.Found := fun found => name found.1
        rw [if_pos name]
        exact settles_stopped rest (fits_of_absent absent)
          (by simp [LegacyNode.tally, full, addressed, absent, name]) counted.live

theorem Counted.add (counted : Counted n s) (room : n < tegrablEepromMaxNum) (live : e.Live) :
    Counted (n + 1) { s.set n e with count := n + 1 } := ⟨rfl, room, (counted.scanning room live).live⟩

theorem addNode_spec {node : Node} (eepromSz : UInt32) (counted : Counted n s)
    (room : n < tegrablEepromMaxNum) (described : node.described) :
    ∃ s', addNode eepromSz node s = .ok s' ∧ Counted (if node.Added then n + 1 else n) s' := by
  have same := counted.counted
  unfold addNode
  simp only [same, entry_ok room, put_ok _ room, ok_bind]
  by_cases added : node.Added
  · obtain ⟨_, memory, found, ok, valid, bus, path⟩ := added
    have added : node.Added := ⟨described, memory, found, ok, valid, bus, path⟩
    rw [if_pos added]
    simp only [memory, found, ok, valid, bus, path, not_true, or_self, if_false]
    have live : (nodeEntry (max node.size eepromSz) node.address true (some node.read.data)).Live := ⟨rfl, rfl⟩
    exact ⟨_, rfl, same ▸ counted.add room live⟩
  · rw [if_neg added]
    by_cases memory : node.dataMemory = true
    · by_cases found : node.instanceFound = true
      · by_cases ok : node.read.ok = true
        · by_cases valid : node.read.dataValid = true
          · have unnamed : ¬ node.busMemory = true ∨ ¬ node.busPath = true := by
              by_contra named
              obtain ⟨bus, path⟩ := not_or.mp named
              exact added ⟨described, memory, found, ok, valid, not_not.mp bus, not_not.mp path⟩
            simp only [memory, found, ok, valid, not_true, if_false, if_pos unnamed]
            exact ⟨_, rfl, counted.put⟩
          · simp only [memory, found, ok, not_true, if_false, if_pos valid]
            exact ⟨_, rfl, counted.put⟩
        · simp only [memory, found, not_true, if_false, if_pos ok]
          exact ⟨_, rfl, counted.put⟩
      · simp only [memory, not_true, if_false, if_pos found]
        exact ⟨_, rfl, counted.put⟩
    · simp only [if_pos memory]
      exact ⟨_, rfl, counted.put⟩

theorem scanNodes_spec (eepromSz : UInt32) (ended : Bool) (nodes : List Node)
    (counted : Counted n s) : ∃ b m s', scanNodes eepromSz ended nodes s = .ok (b, s') ∧ Counted m s' ∧
      (m = 0 ↔ n = 0 ∧ ∀ node ∈ nodes, ¬ node.Added) ∧ (m = 0 → b = ended) := by
  induction nodes generalizing n s with
  | nil =>
    unfold scanNodes
    by_cases room : s.count < tegrablEepromMaxNum
    · rw [if_pos room]
      exact ⟨ended, n, s, rfl, counted, by simp, fun _ => rfl⟩
    · rw [if_neg room]
      have := counted.counted
      refine ⟨true, n, s, rfl, counted, by simp, fun none => absurd ?_ room⟩
      rw [counted.counted, none]
      decide
  | cons node rest ih =>
    unfold scanNodes
    by_cases room : s.count < tegrablEepromMaxNum
    · rw [if_pos room]
      dsimp only
      by_cases described : node.described = true
      · rw [if_pos described]
        obtain ⟨s', added, next⟩ := addNode_spec eepromSz counted (counted.counted ▸ room) described
        rw [added, ok_bind]
        obtain ⟨b, m, t, scanned, behind, found, last⟩ := ih next
        refine ⟨b, m, t, scanned, behind, found.trans ?_, last⟩
        by_cases one : node.Added <;> simp [one]
      · rw [if_neg described]
        obtain ⟨b, m, t, scanned, behind, found, last⟩ := ih counted
        have absent : ¬ node.Added := fun one => described one.1
        exact ⟨b, m, t, scanned, behind, found.trans (by simp [absent]), last⟩
    · rw [if_neg room]
      have some_ : n ≠ 0 := by
        intro none
        rw [counted.counted, none] at room
        exact room (by decide)
      exact ⟨true, n, s, rfl, counted, by simp [some_], fun none => absurd none some_⟩

theorem loadCvm_spec (w : World) (empty : Counted 0 s) :
    ∃ result s', loadCvm w s = .ok (result, s') ∧ s'.Live := by
  have room : 0 < tegrablEepromMaxNum := by decide
  unfold loadCvm
  rw [empty.counted]
  simp only [put_ok _ room, ok_bind]
  by_cases memory : w.cvmMemory = true
  · rw [if_neg (not_not.mpr memory)]
    by_cases ok : w.cvmRead.ok = true
    · rw [if_neg (not_not.mpr ok)]
      refine ⟨_, _, rfl, ?_⟩
      have added := empty.add room (e := cvmEntry w.eepromSz true (some w.cvmRead.data)) ⟨rfl, rfl⟩
      have same : (s.set 0 (cvmEntry w.eepromSz true (some w.cvmRead.data))).count = 0 := empty.counted
      rw [same]
      exact added.live
    · rw [if_pos ok]
      exact ⟨_, _, rfl, empty.put.live⟩
  · rw [if_pos memory]
    exact ⟨_, _, rfl, empty.put.live⟩

theorem initLegacy_spec (w : World) (s : State) (live : s.Live) :
    Settles (w.legacyHandle → w.manager → ∀ dataSize, w.dataSize = some dataSize →
      EachStep LegacyNode.tally (LegacyNode.Fits (w.legacySize dataSize)) (some 0) w.legacyNodes)
      (tegrablEepromManagerInitLegacy w s) := by
  unfold tegrablEepromManagerInitLegacy
  have empty : Counted 0 { s with count := 0 } := ⟨rfl, by decide, fun i below => absurd below (Nat.not_lt_zero i)⟩
  by_cases handle : w.legacyHandle = true
  · rw [if_neg (not_not.mpr handle)]
    dsimp only
    by_cases manager : w.manager = true
    · rw [if_neg (not_not.mpr manager)]
      cases sized : w.dataSize with
      | none => exact settles_of_ok (by simp) empty.live
      | some dataSize =>
        have small : w.legacySize dataSize ≤ tegrablEepromMaxSize := by
          unfold World.legacySize
          split
          · exact w.sized
          · exact UInt32.le_trans (UInt32.not_lt.mp ‹_›) w.sized
        exact (legacyScan_spec small w.legacyNodes empty).congr (by simp [handle, manager])
    · rw [if_pos manager]
      obtain ⟨result, s', loaded, live'⟩ := loadCvm_spec w empty
      rw [loaded]
      exact settles_of_ok (fun _ granted => absurd granted manager) live'
  · rw [if_pos handle]
    exact settles_of_ok (fun granted => absurd granted handle) live

theorem Settles.contained_iff {fits : Prop} {run : Run} (settles : Settles fits run) :
    Contained s run ↔ fits := by
  constructor
  · intro contained
    by_contra unfit
    obtain ⟨result, s', ended, -⟩ := contained
    obtain ⟨f, stuck⟩ := settles.2 unfit
    cases stuck.symm.trans ended
  · intro fits
    obtain ⟨result, s', ended, live⟩ := settles.1 fits
    exact ⟨result, s', ended, fun _ => live⟩

/-- Discovery stays inside of its table and of the data it reads exactly when the EEPROMs of the legacy path fit. -/
theorem tegrablEepromManagerInit_contained_iff (w : World) (s : State) :
    Contained s (tegrablEepromManagerInit w s) ↔ (s.initialized = false → w.Fits) := by
  unfold tegrablEepromManagerInit
  by_cases initialized : s.initialized = true
  · rw [if_pos initialized]
    exact ⟨fun _ early => by simp [initialized] at early, fun _ => ⟨_, s, rfl, id⟩⟩
  rw [if_neg initialized, imp_iff_right (Bool.eq_false_iff.mpr initialized)]
  by_cases handle : w.handle = true
  · rw [if_neg (not_not.mpr handle)]
    have empty : Counted 0 { s with count := 0 } := ⟨rfl, by decide, fun i below => absurd below (Nat.not_lt_zero i)⟩
    obtain ⟨b, m, s', scanned, counted, none_added, last⟩ := scanNodes_spec w.eepromSz w.ended w.nodes empty
    have onward (dataSize : UInt32) (scans : w.Scans dataSize) : m = 0 ∧ b = true := by
      have none := none_added.mpr ⟨rfl, scans.none_added⟩
      exact ⟨none, (last none).trans scans.ended⟩
    rw [scanned, ok_bind]
    dsimp only
    by_cases through : b = true
    · rw [if_neg (not_not.mpr through)]
      by_cases none : m = 0
      · have reached : w.Fits ↔ (w.legacyHandle → w.manager → ∀ dataSize, w.dataSize = some dataSize →
            EachStep LegacyNode.tally (LegacyNode.Fits (w.legacySize dataSize)) (some 0) w.legacyNodes) := by
          constructor
          · intro fits legacyHandle manager dataSize sized
            exact fits dataSize ⟨handle, (none_added.mp none).2, (last none).symm.trans through, legacyHandle, manager, sized⟩
          · intro fits dataSize scans
            exact fits scans.legacyHandle scans.manager dataSize scans.dataSize
        rw [if_pos (counted.counted.trans none), reached, ← (initLegacy_spec w s' counted.live).contained_iff (s := s)]
        cases ended : tegrablEepromManagerInitLegacy w s' with
        | error f => exact Iff.rfl
        | ok p =>
          obtain ⟨result, t⟩ := p
          constructor
          · rintro ⟨_, _, same, live⟩
            refine ⟨result, t, rfl, ?_⟩
            cases result <;> cases same <;> exact live
          · rintro ⟨_, _, same, live⟩
            cases same
            cases result <;> exact ⟨_, _, rfl, live⟩
      · rw [if_neg (by rwa [counted.counted])]
        exact ⟨fun _ dataSize scans => absurd (onward dataSize scans).1 none,
          fun _ => ⟨_, _, rfl, fun _ => counted.live⟩⟩
    · rw [if_pos through]
      exact ⟨fun _ dataSize scans => absurd (onward dataSize scans).2 through,
        fun _ => ⟨_, _, rfl, fun _ => counted.live⟩⟩
  · rw [if_pos handle]
    exact ⟨fun _ dataSize scans => absurd scans.handle handle, fun _ => ⟨_, _, rfl, id⟩⟩

def deadBus : Mux := ⟨false, fun _ => false, fun _ _ => .absent⟩

def crowded : Mux := ⟨true, fun _ => true, fun _ _ => .found fun _ => 0⟩

def oneEeprom (data : Nat → UInt8) (muxes : UInt8 → Mux) : LegacyNode :=
  ⟨some 0x50, true, true, ⟨true, true, data⟩, true, muxes⟩

def legacyWorld (dataSize : UInt32) (node : LegacyNode) : World where
  eepromSz := 256
  sized := by decide
  handle := true
  nodes := []
  ended := true
  legacyHandle := true
  manager := true
  cvmMemory := true
  cvmRead := ⟨true, true, fun _ => 0⟩
  dataSize := some dataSize
  legacyNodes := [node]

def powerOn : State := ⟨fun _ => ⟨0, 0, false, false, none⟩, 0, false⟩

/-- An EEPROM of 64 bytes is asked for its byte 89. -/
theorem tegrablEepromManagerInit_leaves :
    ¬ Contained powerOn (tegrablEepromManagerInit (legacyWorld 64 (oneEeprom (fun _ => 0) fun _ => deadBus)) powerOn) ∧
    ¬ Contained powerOn (tegrablEepromManagerInit
      (legacyWorld 256 (oneEeprom (fun i => if i < 97 then (if i % 2 = 0 then 1 else 0x70) else 0) fun _ => crowded))
      powerOn) := by
  constructor
  · rintro ⟨result, s', ended, -⟩
    have stuck : (tegrablEepromManagerInit (legacyWorld 64 (oneEeprom (fun _ => 0) fun _ => deadBus)) powerOn) =
        .error (.data 89) := rfl
    cases stuck.symm.trans ended
  · rintro ⟨result, s', ended, -⟩
    have stuck : (tegrablEepromManagerInit (legacyWorld 256
        (oneEeprom (fun i => if i < 97 then (if i % 2 = 0 then 1 else 0x70) else 0) fun _ => crowded)) powerOn) =
        .error (.table 72) := rfl
    cases stuck.symm.trans ended

end Cboot.EepromManager
