import Mathlib.Data.List.Basic

/-!
`parse_descriptors` of `drivers/display/edid/tegrabl_edid.c`. Offsets, lengths and numbers all come from the monitor.
-/

namespace Cboot.Display.Edid

def edidBlockSize : Nat := 128
def dtdByte : Nat := 0x36
def numExtensionsByte : Nat := 126
def dtdSize : Nat := 18
def maxModes : Nat := 30
def blockTypeVideo : UInt8 := 2
def blockTypeVendorSpecific : UInt8 := 3

abbrev Block : Type := Nat → UInt8

/-- A read outside of the block, and a walk over its data blocks that starts over. -/
inductive Fault where
  | read (i : Nat)
  | endless
deriving DecidableEq

def byte (b : Block) (i : Nat) : Except Fault UInt8 := if i < edidBlockSize then .ok (b i) else .error (.read i)

def window (b : Block) (index : Nat) : Except Fault (Nat → UInt8) :=
  if index + dtdSize ≤ edidBlockSize then .ok fun i => b (index + i) else .error (.read (max index edidBlockSize))

def getBit (input : UInt8) (bit : UInt8) : UInt8 := (input &&& 1 <<< bit) >>> bit

def getBits (input : UInt8) (first last : UInt8) : UInt8 :=
  let mask := ((1 : UInt32) <<< (last - first + 1).toUInt32 - 1).toUInt8
  input >>> first &&& mask

structure DetailedTiming where
  pixelClock : UInt32
  hAddr : UInt32
  hBlank : UInt32
  hSync : UInt32
  hFrontPorch : UInt32
  vAddr : UInt32
  vBlank : UInt32
  vSync : UInt32
  vFrontPorch : UInt32
  widthMm : UInt32
  heightMm : UInt32
  rightBorder : UInt32
  topBorder : UInt32
  interlaced : UInt32
deriving DecidableEq

def parseDetailedTiming (timing : Nat → UInt8) : DetailedTiming where
  pixelClock := ((timing 0x00).toUInt32 ||| (timing 0x01).toUInt32 <<< 8) * 10000
  hAddr := (timing 0x02).toUInt32 ||| (timing 0x04 &&& 0xf0).toUInt32 <<< 4
  hBlank := (timing 0x03).toUInt32 ||| (timing 0x04 &&& 0x0f).toUInt32 <<< 8
  vAddr := (timing 0x05).toUInt32 ||| (timing 0x07 &&& 0xf0).toUInt32 <<< 4
  vBlank := (timing 0x06).toUInt32 ||| (timing 0x07 &&& 0x0f).toUInt32 <<< 8
  hFrontPorch := (timing 0x08).toUInt32 ||| (getBits (timing 0x0b) 6 7).toUInt32 <<< 8
  hSync := (timing 0x09).toUInt32 ||| (getBits (timing 0x0b) 4 5).toUInt32 <<< 8
  vFrontPorch := (getBits (timing 0x0a) 4 7).toUInt32 ||| (getBits (timing 0x0b) 2 3).toUInt32 <<< 4
  vSync := (getBits (timing 0x0a) 0 3).toUInt32 ||| (getBits (timing 0x0b) 0 1).toUInt32 <<< 4
  widthMm := (timing 0x0c).toUInt32 ||| (getBits (timing 0x0e) 4 7).toUInt32 <<< 8
  heightMm := (timing 0x0d).toUInt32 ||| (getBits (timing 0x0e) 0 3).toUInt32 <<< 8
  rightBorder := (timing 0x0f).toUInt32
  topBorder := (timing 0x10).toUInt32
  interlaced := (getBit (timing 0x11) 7).toUInt32

structure HdmiTimings where
  hRefToSync : UInt32
  vRefToSync : UInt32
  hSyncWidth : UInt32
  vSyncWidth : UInt32
  hBackPorch : UInt32
  vBackPorch : UInt32
  hDispActive : UInt32
  vDispActive : UInt32
  hFrontPorch : UInt32
  vFrontPorch : UInt32
deriving DecidableEq

structure HdmiMode where
  width : UInt32
  height : UInt32
  bpp : UInt32
  refresh : UInt32
  frequency : UInt32
  flags : UInt32
  timings : HdmiTimings
deriving DecidableEq

def fillModeWithMonitorData (timing : DetailedTiming) : HdmiMode where
  width := timing.hAddr
  height := timing.vAddr
  bpp := 24
  refresh := 0
  frequency := timing.pixelClock
  flags := 0
  timings :=
    { hRefToSync := 1
      vRefToSync := 1
      hSyncWidth := timing.hSync
      vSyncWidth := timing.vSync
      hDispActive := timing.hAddr
      vDispActive := timing.vAddr
      hFrontPorch := timing.hFrontPorch
      vFrontPorch := timing.vFrontPorch
      hBackPorch := timing.hBlank - timing.hFrontPorch - timing.hSync
      vBackPorch := timing.vBlank - timing.vFrontPorch - timing.vSync }

inductive TableMode where
  | s640x480x1 | s720x480x2 | s1280x720x4 | s1920x1080x16 | s720x576x17 | s1280x720x19
  | s1920x1080x31 | s1920x1080x32 | s1920x1080x33 | s1920x1080x34 | s3840x2160x95 | s3840x2160x97
  | hdmiVic1 | hdmiVic2 | hdmiVic3 | hdmiVic4
deriving DecidableEq

inductive Mode where
  | table (m : TableMode)
  | detailed (timing : DetailedTiming) (m : HdmiMode)
deriving DecidableEq

/-- `n_modes` is the length of the list. -/
structure MonitorData where
  modes : List Mode
  hfVsdbPresent : Bool
  isPanelHdmi : Bool

def addMode (s : MonitorData) (m : Mode) : MonitorData :=
  if s.modes.length ≥ maxModes then s else { s with modes := s.modes ++ [m] }

def addDetailed (s : MonitorData) (timing : DetailedTiming) : MonitorData :=
  addMode s (.detailed timing (fillModeWithMonitorData timing))

def addTable (s : MonitorData) (m : Option TableMode) : MonitorData :=
  match m with
  | none => s
  | some m => addMode s (.table m)

def parseBase (edid : Block) : List Nat → MonitorData → Except Fault MonitorData
  | [], s => return s
  | i :: rest, s => do
    let index := dtdByte + i * dtdSize
    let low ← byte edid index
    let high ← byte edid (index + 1)
    if ¬ (low = 0x00 ∧ high = 0x00) then
      let timing ← window edid index
      parseBase edid rest (addDetailed s (parseDetailedTiming timing))
    else parseBase edid rest s

def parseDtds (b : Block) (dtdStart : UInt8) : List Nat → MonitorData → Except Fault MonitorData
  | [], s => return s
  | j :: rest, s => do
    let timing ← window b (dtdStart.toNat + j * dtdSize)
    parseDtds b dtdStart rest (addDetailed s (parseDetailedTiming timing))

def ceaTable (index : UInt8) : Option TableMode :=
  if index = 1 then some .s640x480x1
  else if index = 2 ∨ index = 3 then some .s720x480x2
  else if index = 4 then some .s1280x720x4
  else if index = 16 then some .s1920x1080x16
  else if index = 17 ∨ index = 18 then some .s720x576x17
  else if index = 19 then some .s1280x720x19
  else if index = 31 then some .s1920x1080x31
  else if index = 32 then some .s1920x1080x32
  else if index = 33 then some .s1920x1080x33
  else if index = 34 then some .s1920x1080x34
  else if index = 95 then some .s3840x2160x95
  else if index = 97 then some .s3840x2160x97
  else none

def parseSvds (b : Block) (svdStart : Nat) : List Nat → MonitorData → Except Fault MonitorData
  | [], s => return s
  | k :: rest, s => do
    let svdByte ← byte b (svdStart + k + 1)
    parseSvds b svdStart rest (addTable s (ceaTable (svdByte &&& 0x7F)))

def hdmiVic (vic : UInt8) : Option TableMode :=
  if vic = 1 then some .hdmiVic1
  else if vic = 2 then some .hdmiVic2
  else if vic = 3 then some .hdmiVic3
  else if vic = 4 then some .hdmiVic4
  else none

def parseVics (b : Block) (first : Nat) : List Nat → MonitorData → Except Fault MonitorData
  | [], s => return s
  | n :: rest, s => do
    let vic ← byte b (first + n)
    parseVics b first rest (addTable s (hdmiVic vic))

/-- Three bytes are compared in their order, no further than the first that differs. -/
def isOui (b : Block) (ptr : Nat) (oui : UInt8 × UInt8 × UInt8) : Except Fault Bool := do
  let first ← byte b (ptr + 1)
  if first ≠ oui.1 then return false
  else
    let second ← byte b (ptr + 2)
    if second ≠ oui.2.1 then return false
    else
      let third ← byte b (ptr + 3)
      return third = oui.2.2

def hdmiForum : UInt8 × UInt8 × UInt8 := (0xd8, 0x5d, 0xc4)
def hdmiLicensing : UInt8 × UInt8 × UInt8 := (0x03, 0x0c, 0)

/-- Where `HDMI_VIC_LEN` is, with the latency fields before it. -/
def vicIndex (tmp : UInt8) : Nat :=
  9 + (if tmp &&& 0x80 ≠ 0 then 2 else 0) + (if tmp &&& 0x40 ≠ 0 then 2 else 0) + 1

def parseVideoPresent (b : Block) (ptr nBlocks : Nat) (s : MonitorData) : Except Fault MonitorData := do
  let tmp ← byte b (ptr + 8)
  if tmp &&& 0x20 = 0 then return s
  else
    let l := vicIndex tmp
    if l ≤ nBlocks then
      let len ← byte b (ptr + l)
      if len &&& 0xe0 ≠ 0 then parseVics b (ptr + l + 1) (List.range (len >>> 5).toNat) s else return s
    else return s

def noteHdmi (licensing : Bool) (s : MonitorData) : MonitorData := if licensing then { s with isPanelHdmi := true } else s

/-- The three bytes are compared again where the block is long enough for more. -/
def parseLicensing (b : Block) (ptr nBlocks : Nat) (s : MonitorData) : Except Fault MonitorData := do
  let licensing ← isOui b ptr hdmiLicensing
  if nBlocks ≥ 8 then
    if ← isOui b ptr hdmiLicensing then parseVideoPresent b ptr nBlocks (noteHdmi licensing s)
    else return noteHdmi licensing s
  else return noteHdmi licensing s

def parseVendor (b : Block) (ptr nBlocks : Nat) (s : MonitorData) : Except Fault MonitorData := do
  if ← isOui b ptr hdmiForum then return { s with isPanelHdmi := true, hfVsdbPresent := true }
  else parseLicensing b ptr nBlocks s

def blockType (first : UInt8) : UInt8 := (first &&& 0xE0) >>> 5
def blockLen (first : UInt8) : Nat := (first &&& 0x1F).toNat

def parseData (b : Block) (svdStart : Nat) (first : UInt8) (s : MonitorData) : Except Fault MonitorData :=
  if blockType first = blockTypeVideo then parseSvds b svdStart (List.range (blockLen first)) s
  else if blockType first = blockTypeVendorSpecific then parseVendor b svdStart (blockLen first) s
  else .ok s

/-- `svd_start` has 8 bits. -/
def walkPasses : Nat := 256

def walk (b : Block) (dtdStart : UInt8) : Nat → Nat → MonitorData → Except Fault MonitorData
  | 0, _, _ => throw .endless
  | passes + 1, j, s => do
    let svdStart := UInt8.ofNat (0x4 + j)
    if svdStart ≥ dtdStart then return s
    else
      let first ← byte b svdStart.toNat
      let s ← parseData b svdStart.toNat first s
      walk b dtdStart passes (j + blockLen first + 1) s

/-- The blocks that the monitor returns, none where the read fails. -/
def parseExtensions : List (Option Block) → MonitorData → Except Fault MonitorData
  | [], s => return s
  | none :: rest, s => parseExtensions rest s
  | some b :: rest, s => do
    let tag ← byte b 0
    if tag ≠ 0x2 then return s
    else
      let totalDtds := (← byte b 3) &&& 0x0F
      let dtdStart ← byte b 2
      if dtdStart = 0 then return s
      else
        let s ← parseDtds b dtdStart (List.range totalDtds.toNat) s
        if dtdStart = 0x0 ∨ dtdStart = 0x4 then return s
        else
          let s ← walk b dtdStart walkPasses 0 s
          parseExtensions rest s

def parseDescriptors (edid : Block) (extension : Nat → Option Block) (s : MonitorData) : Except Fault MonitorData := do
  let s ← parseBase edid (List.range 4) s
  let s := { s with isPanelHdmi := false }
  let totalExtensions ← byte edid numExtensionsByte
  parseExtensions ((List.range totalExtensions.toNat).map extension) s

def detailedAt (b : Block) (index : Nat) : Mode :=
  let timing := parseDetailedTiming fun i => b (index + i)
  .detailed timing (fillModeWithMonitorData timing)

def baseModes (edid : Block) : List Mode :=
  (List.range 4).filterMap fun i =>
    let index := dtdByte + i * dtdSize
    if edid index = 0x00 ∧ edid (index + 1) = 0x00 then none else some (detailedAt edid index)

def dtdIndices (b : Block) : List Nat := (List.range (b 3 &&& 0x0F).toNat).map fun j => (b 2).toNat + j * dtdSize

def dataBlocks (b : Block) : Nat → Nat → List Nat
  | 0, _ => []
  | passes + 1, p => if (b 2).toNat ≤ p then [] else p :: dataBlocks b passes (p + blockLen (b p) + 1)

def svdModes (b : Block) (p : Nat) : List Mode :=
  (List.range (blockLen (b p))).filterMap fun k => (ceaTable (b (p + k + 1) &&& 0x7F)).map .table

def IsOui (b : Block) (p : Nat) (oui : UInt8 × UInt8 × UInt8) : Prop :=
  b (p + 1) = oui.1 ∧ b (p + 2) = oui.2.1 ∧ b (p + 3) = oui.2.2

instance (b : Block) (p : Nat) (oui : UInt8 × UInt8 × UInt8) : Decidable (IsOui b p oui) :=
  inferInstanceAs (Decidable (_ ∧ _ ∧ _))

structure HasVics (b : Block) (p : Nat) : Prop where
  long : 8 ≤ blockLen (b p)
  licensing : IsOui b p hdmiLicensing
  present : b (p + 8) &&& 0x20 ≠ 0
  within : vicIndex (b (p + 8)) ≤ blockLen (b p)

instance (b : Block) (p : Nat) : Decidable (HasVics b p) :=
  decidable_of_iff (8 ≤ blockLen (b p) ∧ IsOui b p hdmiLicensing ∧ b (p + 8) &&& 0x20 ≠ 0 ∧
      vicIndex (b (p + 8)) ≤ blockLen (b p))
    ⟨fun h => ⟨h.1, h.2.1, h.2.2.1, h.2.2.2⟩, fun h => ⟨h.long, h.licensing, h.present, h.within⟩⟩

def vicCount (b : Block) (p : Nat) : Nat := (b (p + vicIndex (b (p + 8))) >>> 5).toNat

def vicModes (b : Block) (p : Nat) : List Mode :=
  (List.range (vicCount b p)).filterMap fun n => (hdmiVic (b (p + vicIndex (b (p + 8)) + 1 + n))).map .table

def dataModes (b : Block) (p : Nat) : List Mode :=
  if blockType (b p) = blockTypeVideo then svdModes b p
  else if blockType (b p) = blockTypeVendorSpecific ∧ ¬ IsOui b p hdmiForum ∧ HasVics b p then vicModes b p
  else []

def parsed : List (Option Block) → List Block
  | [] => []
  | none :: rest => parsed rest
  | some b :: rest => if b 0 ≠ 0x2 ∨ b 2 = 0 then [] else b :: if b 2 = 0x4 then [] else parsed rest

def extensionModes (b : Block) : List Mode :=
  (dtdIndices b).map (detailedAt b) ++ if b 2 = 0x4 then [] else (dataBlocks b walkPasses 4).flatMap (dataModes b)

def extensions (edid : Block) (extension : Nat → Option Block) : List Block :=
  parsed ((List.range (edid numExtensionsByte).toNat).map extension)

def listed (edid : Block) (extension : Nat → Option Block) : List Mode :=
  baseModes edid ++ (extensions edid extension).flatMap extensionModes

/-- No more of an OUI is looked at than it takes to tell it apart. -/
def ouiReach (b : Block) (p : Nat) (oui : UInt8 × UInt8 × UInt8) : Nat :=
  if b (p + 1) ≠ oui.1 then 1 else if b (p + 2) ≠ oui.2.1 then 2 else 3

structure VendorInside (b : Block) (p : Nat) : Prop where
  forum : p + ouiReach b p hdmiForum < edidBlockSize
  licensing : ¬ IsOui b p hdmiForum → p + ouiReach b p hdmiLicensing < edidBlockSize
  present : ¬ IsOui b p hdmiForum → 8 ≤ blockLen (b p) → IsOui b p hdmiLicensing → p + 8 < edidBlockSize
  vics : ¬ IsOui b p hdmiForum → HasVics b p → p + vicIndex (b (p + 8)) + vicCount b p < edidBlockSize

structure DataInside (b : Block) (p : Nat) : Prop where
  start : p < edidBlockSize
  svds : blockType (b p) = blockTypeVideo → p + blockLen (b p) < edidBlockSize
  vendor : blockType (b p) = blockTypeVendorSpecific → VendorInside b p

structure ExtensionInside (b : Block) : Prop where
  dtds : ∀ index ∈ dtdIndices b, index + dtdSize ≤ edidBlockSize
  blocks : b 2 ≠ 0x4 → ∀ p ∈ dataBlocks b walkPasses 4, DataInside b p

def Mode.Exact : Mode → Prop
  | .table _ => True
  | .detailed timing m =>
    m.timings.hBackPorch.toNat + timing.hFrontPorch.toNat + timing.hSync.toNat = timing.hBlank.toNat ∧
      m.timings.vBackPorch.toNat + timing.vFrontPorch.toNat + timing.vSync.toNat = timing.vBlank.toNat

def Bounded (s : MonitorData) (run : Except Fault MonitorData) : Prop :=
  ∃ s' added, run = .ok s' ∧ s'.modes = s.modes ++ added ∧ (s.modes.length ≤ maxModes → s'.modes.length ≤ maxModes) ∧
    ∀ m ∈ added, m.Exact

def Mode.Fits : Mode → Prop
  | .table _ => True
  | .detailed timing _ =>
    timing.hFrontPorch.toNat + timing.hSync.toNat ≤ timing.hBlank.toNat ∧
      timing.vFrontPorch.toNat + timing.vSync.toNat ≤ timing.vBlank.toNat

def fill (modes more : List Mode) : List Mode := modes ++ more.take (maxModes - modes.length)

theorem fill_nil (modes : List Mode) : fill modes [] = modes := by simp [fill]

theorem fill_append (modes more rest : List Mode) : fill (fill modes more) rest = fill modes (more ++ rest) := by
  unfold fill
  rw [List.take_append, List.append_assoc, List.length_append, List.length_take]
  congr 3
  omega

theorem modes_addMode (s : MonitorData) (m : Mode) : (addMode s m).modes = fill s.modes [m] := by
  unfold addMode fill
  split
  · rename_i full
    rw [show maxModes - s.modes.length = 0 by omega]
    simp
  · rename_i room
    rw [List.take_of_length_le (by simp; omega)]

theorem modes_addTable (s : MonitorData) (m : Option TableMode) :
    (addTable s m).modes = fill s.modes (m.map .table).toList := by
  cases m with
  | none => exact (fill_nil _).symm
  | some m => exact modes_addMode s _

/-- A part of the parser adds these modes when its reads are inside of the block, and fails otherwise. -/
def Does (part : MonitorData → Except Fault MonitorData) (inside : Prop) (added : List Mode) : Prop :=
  ∀ s, (inside → ∃ s', part s = .ok s' ∧ s'.modes = fill s.modes added) ∧ (¬ inside → ∃ fault, part s = .error fault)

variable {part rest : MonitorData → Except Fault MonitorData} {inside behind : Prop} {added more : List Mode} {b : Block}

variable {α β : Type}

theorem ok_bind (a : α) (f : α → Except Fault β) : (Except.ok a >>= f) = f a := rfl

theorem error_bind (fault : Fault) (f : α → Except Fault β) : (Except.error fault >>= f) = .error fault := rfl

theorem byte_ok {i : Nat} (within : i < edidBlockSize) : byte b i = .ok (b i) := if_pos within

theorem byte_fault {i : Nat} (outside : ¬ i < edidBlockSize) : byte b i = .error (.read i) := if_neg outside

theorem does_pure : Does (fun s => .ok s) True [] :=
  fun s => ⟨fun _ => ⟨s, rfl, (fill_nil _).symm⟩, fun never => absurd trivial never⟩

theorem Does.congr (does : Does part inside added) (same : behind ↔ inside) : Does part behind added := by
  rwa [propext same]

theorem Does.bind (one : Does part inside added) (two : Does rest behind more) :
    Does (fun s => part s >>= rest) (inside ∧ behind) (added ++ more) := by
  intro s
  obtain ⟨goes, fails⟩ := one s
  by_cases within : inside
  · obtain ⟨s', first, modes⟩ := goes within
    obtain ⟨onward, stuck⟩ := two s'
    dsimp only
    rw [first, ok_bind]
    constructor
    · rintro ⟨-, last⟩
      obtain ⟨t, second, modes'⟩ := onward last
      exact ⟨t, second, by rw [modes', modes, fill_append]⟩
    · intro outside
      exact stuck fun last => outside ⟨within, last⟩
  · obtain ⟨fault, failed⟩ := fails within
    exact ⟨fun both => absurd both.1 within, fun _ => ⟨fault, by dsimp only; rw [failed]; rfl⟩⟩

theorem Does.after (does : Does part inside added) (f : MonitorData → MonitorData) (keeps : ∀ s, (f s).modes = s.modes) :
    Does (fun s => part (f s)) inside added := by
  intro s
  rw [← keeps s]
  exact does (f s)

theorem Does.modes (does : Does part inside added) (f : MonitorData → MonitorData)
    (adds : ∀ s, (f s).modes = fill s.modes more) : Does (fun s => part (f s)) inside (more ++ added) := by
  intro s
  obtain ⟨goes, fails⟩ := does (f s)
  refine ⟨fun within => ?_, fails⟩
  obtain ⟨s', ended, modes⟩ := goes within
  exact ⟨s', ended, by rw [modes, adds, fill_append]⟩

theorem Does.read {α : Type} {read : Except Fault α} {a : α} {within : Prop}
    {part : α → MonitorData → Except Fault MonitorData} (inner : within → read = .ok a) (outer : ¬ within → ∃ fault, read = .error fault) (does : Does (part a) inside added) :
    Does (fun s => read >>= fun x => part x s) (within ∧ inside) added := by
  intro s
  obtain ⟨goes, fails⟩ := does s
  dsimp only
  by_cases now : within
  · rw [inner now, ok_bind]
    exact ⟨fun both => goes both.2, fun outside => fails fun later => outside ⟨now, later⟩⟩
  · obtain ⟨fault, failed⟩ := outer now
    rw [failed, error_bind]
    exact ⟨fun both => absurd both.1 now, fun _ => ⟨fault, rfl⟩⟩

theorem Does.byte (b : Block) (i : Nat) (part : UInt8 → MonitorData → Except Fault MonitorData)
    (does : Does (part (b i)) inside added) :
    Does (fun s => byte b i >>= fun x => part x s) (i < edidBlockSize ∧ inside) added :=
  does.read byte_ok fun outside => ⟨_, byte_fault outside⟩

theorem Does.window (b : Block) (index : Nat) (part : (Nat → UInt8) → MonitorData → Except Fault MonitorData)
    (does : Does (part fun i => b (index + i)) inside added) :
    Does (fun s => window b index >>= fun x => part x s) (index + dtdSize ≤ edidBlockSize ∧ inside) added :=
  does.read (fun within => if_pos within) fun outside => ⟨_, if_neg outside⟩

theorem filterMap_cons_toList (f : α → Option β) (a : α) (l : List α) :
    (a :: l).filterMap f = (f a).toList ++ l.filterMap f := by
  rw [List.filterMap_cons]
  cases f a <;> rfl

theorem does_dtds (dtdStart : UInt8) (js : List Nat) :
    Does (parseDtds b dtdStart js) (∀ index ∈ js.map fun j => dtdStart.toNat + j * dtdSize, index + dtdSize ≤ edidBlockSize)
      ((js.map fun j => dtdStart.toNat + j * dtdSize).map (detailedAt b)) := by
  induction js with
  | nil => exact does_pure.congr (by simp)
  | cons j js ih =>
    have step := Does.window b (dtdStart.toNat + j * dtdSize)
      (fun timing s => parseDtds b dtdStart js (addDetailed s (parseDetailedTiming timing)))
      (ih.modes _ fun s => modes_addMode s _)
    exact step.congr (by simp)

theorem does_svds (p : Nat) (ks : List Nat) : Does (parseSvds b p ks) (∀ k ∈ ks, p + k + 1 < edidBlockSize)
      (ks.filterMap fun k => (ceaTable (b (p + k + 1) &&& 0x7F)).map .table) := by
  induction ks with
  | nil => exact does_pure.congr (by simp)
  | cons k ks ih =>
    have step := Does.byte b (p + k + 1)
      (fun svdByte s => parseSvds b p ks (addTable s (ceaTable (svdByte &&& 0x7F))))
      (ih.modes _ fun s => modes_addTable s _)
    rw [filterMap_cons_toList]
    exact step.congr (by simp)

theorem does_vics (first : Nat) (ns : List Nat) : Does (parseVics b first ns) (∀ n ∈ ns, first + n < edidBlockSize)
      (ns.filterMap fun n => (hdmiVic (b (first + n))).map .table) := by
  induction ns with
  | nil => exact does_pure.congr (by simp)
  | cons n ns ih =>
    have step := Does.byte b (first + n)
      (fun vic s => parseVics b first ns (addTable s (hdmiVic vic))) (ih.modes _ fun s => modes_addTable s _)
    rw [filterMap_cons_toList]
    exact step.congr (by simp)

theorem does_base (edid : Block) (is : List Nat) (small : ∀ i ∈ is, i < 4) :
    Does (parseBase edid is) True (is.filterMap fun i =>
      if edid (dtdByte + i * dtdSize) = 0x00 ∧ edid (dtdByte + i * dtdSize + 1) = 0x00 then none
      else some (detailedAt edid (dtdByte + i * dtdSize))) := by
  induction is with
  | nil => exact does_pure
  | cons i is ih =>
    obtain ⟨first, others⟩ := List.forall_mem_cons.mp small
    have inside : dtdByte + i * dtdSize + dtdSize ≤ edidBlockSize := by
      simp only [dtdByte, dtdSize, edidBlockSize]
      omega
    have low : dtdByte + i * dtdSize < edidBlockSize := Nat.lt_of_lt_of_le (Nat.lt_add_of_pos_right (by decide)) inside
    have high : dtdByte + i * dtdSize + 1 < edidBlockSize :=
      Nat.lt_of_lt_of_le (Nat.add_lt_add_left (by decide) _) inside
    have next := ih others
    rw [filterMap_cons_toList]
    intro s
    rw [parseBase]
    simp only [byte_ok low, byte_ok high, ok_bind]
    by_cases unused : edid (dtdByte + i * dtdSize) = 0x00 ∧ edid (dtdByte + i * dtdSize + 1) = 0x00
    · rw [if_neg (not_not.mpr unused), if_pos unused]
      exact next s
    · have step := Does.window edid (dtdByte + i * dtdSize)
        (fun timing s => parseBase edid is (addDetailed s (parseDetailedTiming timing)))
        (next.modes _ fun s => modes_addMode s _)
      rw [if_pos unused, if_neg unused]
      exact (step.congr (by simp [inside])) s

theorem isOui_ok {p : Nat} {oui : UInt8 × UInt8 × UInt8} (within : p + ouiReach b p oui < edidBlockSize) :
    isOui b p oui = .ok (decide (IsOui b p oui)) := by
  unfold ouiReach at within
  unfold isOui IsOui
  by_cases one : b (p + 1) = oui.1
  · rw [if_neg (not_not.mpr one)] at within
    by_cases two : b (p + 2) = oui.2.1
    · rw [if_neg (not_not.mpr two)] at within
      simp [byte_ok (b := b) (show p + 1 < edidBlockSize by omega), byte_ok (b := b) (show p + 2 < edidBlockSize by omega),
        byte_ok (b := b) within, ok_bind, one, two]
    · rw [if_pos two] at within
      simp [byte_ok (b := b) (show p + 1 < edidBlockSize by omega), byte_ok (b := b) within, ok_bind, one, two]
  · rw [if_pos one] at within
    simp [byte_ok (b := b) within, ok_bind, one]
    rfl

theorem isOui_fault {p : Nat} {oui : UInt8 × UInt8 × UInt8} (outside : ¬ p + ouiReach b p oui < edidBlockSize) :
    ∃ fault, isOui b p oui = .error fault := by
  unfold ouiReach at outside
  unfold isOui
  by_cases first : p + 1 < edidBlockSize
  · rw [byte_ok first, ok_bind]
    by_cases one : b (p + 1) = oui.1
    · rw [if_neg (not_not.mpr one)] at outside ⊢
      by_cases second : p + 2 < edidBlockSize
      · rw [byte_ok second, ok_bind]
        by_cases two : b (p + 2) = oui.2.1
        · rw [if_neg (not_not.mpr two)] at outside ⊢
          exact ⟨_, by rw [byte_fault outside]; rfl⟩
        · rw [if_pos two] at outside
          exact absurd second outside
      · exact ⟨_, by rw [byte_fault second]; rfl⟩
    · rw [if_pos one] at outside
      exact absurd first outside
  · exact ⟨_, by rw [byte_fault first]; rfl⟩

theorem high_bits : ∀ i : Fin 256, UInt8.ofNat i.val &&& 0xe0 = 0 → UInt8.ofNat i.val >>> 5 = 0 := by decide +kernel

theorem shift_eq_zero {len : UInt8} (none : len &&& 0xe0 = 0) : len >>> 5 = 0 := by
  have bits := high_bits ⟨len.toNat, len.toNat_lt⟩
  rw [UInt8.ofNat_toNat] at bits
  exact bits none

theorem blockLen_le (first : UInt8) : blockLen first ≤ 31 := by
  unfold blockLen
  rw [UInt8.toNat_and]
  exact Nat.and_le_right

theorem Does.oui (b : Block) (p : Nat) (oui : UInt8 × UInt8 × UInt8) (part : Bool → MonitorData → Except Fault MonitorData)
    (does : Does (part (decide (IsOui b p oui))) inside added) :
    Does (fun s => isOui b p oui >>= fun x => part x s) (p + ouiReach b p oui < edidBlockSize ∧ inside) added :=
  does.read isOui_ok isOui_fault

theorem does_vicList (p : Nat) : Does (fun s => byte b (p + vicIndex (b (p + 8))) >>= fun len =>
        if len &&& 0xe0 ≠ 0 then parseVics b (p + vicIndex (b (p + 8)) + 1) (List.range (len >>> 5).toNat) s else .ok s)
      (p + vicIndex (b (p + 8)) + vicCount b p < edidBlockSize) (vicModes b p) := by
  have list : Does (fun s => if b (p + vicIndex (b (p + 8))) &&& 0xe0 ≠ 0 then
      parseVics b (p + vicIndex (b (p + 8)) + 1) (List.range (vicCount b p)) s else .ok s)
      (∀ n ∈ List.range (vicCount b p), p + vicIndex (b (p + 8)) + 1 + n < edidBlockSize) (vicModes b p) := by
    by_cases none : b (p + vicIndex (b (p + 8))) &&& 0xe0 = 0
    · have empty : vicCount b p = 0 := by
        unfold vicCount
        rw [shift_eq_zero none]
        rfl
      unfold vicModes
      rw [empty]
      simp only [ne_eq, none, not_true, if_false]
      exact does_pure.congr (by simp)
    · simp only [ne_eq, none, not_false_iff, if_true]
      exact does_vics (p + vicIndex (b (p + 8)) + 1) (List.range (vicCount b p))
  have step := Does.byte b (p + vicIndex (b (p + 8))) (fun len s =>
    if len &&& 0xe0 ≠ 0 then parseVics b (p + vicIndex (b (p + 8)) + 1) (List.range (len >>> 5).toNat) s else .ok s) list
  refine step.congr ?_
  simp only [List.mem_range]
  constructor
  · intro within
    exact ⟨by omega, fun n below => by omega⟩
  · rintro ⟨within, each⟩
    by_cases none : vicCount b p = 0
    · omega
    · have last := each (vicCount b p - 1) (by omega)
      omega

theorem does_videoPresent (p : Nat) : Does (parseVideoPresent b p (blockLen (b p)))
      (p + 8 < edidBlockSize ∧ (b (p + 8) &&& 0x20 ≠ 0 → vicIndex (b (p + 8)) ≤ blockLen (b p) →
        p + vicIndex (b (p + 8)) + vicCount b p < edidBlockSize))
      (if b (p + 8) &&& 0x20 ≠ 0 ∧ vicIndex (b (p + 8)) ≤ blockLen (b p) then vicModes b p else []) := by
  refine Does.byte b (p + 8) (fun tmp s =>
    if tmp &&& 0x20 = 0 then .ok s
    else if vicIndex tmp ≤ blockLen (b p) then byte b (p + vicIndex tmp) >>= fun len =>
      if len &&& 0xe0 ≠ 0 then parseVics b (p + vicIndex tmp + 1) (List.range (len >>> 5).toNat) s else .ok s
    else .ok s) ?_
  by_cases absent : b (p + 8) &&& 0x20 = 0
  · simp only [absent, if_true, ne_eq, not_true, false_and, if_false]
    exact does_pure.congr (by simp)
  · simp only [absent, if_false, ne_eq, not_false_iff, true_and]
    by_cases long : vicIndex (b (p + 8)) ≤ blockLen (b p)
    · simp only [long, if_true]
      exact (does_vicList p).congr (by simp)
    · simp only [long, if_false]
      exact does_pure.congr (by simp)

theorem does_compared (p : Nat) (licensing : Bool) : Does (fun s =>
        if blockLen (b p) ≥ 8 then isOui b p hdmiLicensing >>= fun again =>
            if again then parseVideoPresent b p (blockLen (b p)) (noteHdmi licensing s) else .ok (noteHdmi licensing s)
        else .ok (noteHdmi licensing s))
      (8 ≤ blockLen (b p) → p + ouiReach b p hdmiLicensing < edidBlockSize ∧ (IsOui b p hdmiLicensing →
        p + 8 < edidBlockSize ∧ (HasVics b p → p + vicIndex (b (p + 8)) + vicCount b p < edidBlockSize)))
      (if HasVics b p then vicModes b p else []) := by
  have keeps (s : MonitorData) : (noteHdmi licensing s).modes = s.modes := by
    cases licensing <;> rfl
  have plain : Does (fun s => .ok (noteHdmi licensing s)) True [] := does_pure.after _ keeps
  by_cases long : 8 ≤ blockLen (b p)
  · simp only [ge_iff_le, long, if_true, true_imp_iff]
    refine Does.oui b p hdmiLicensing (fun again s =>
      if again then parseVideoPresent b p (blockLen (b p)) (noteHdmi licensing s) else .ok (noteHdmi licensing s)) ?_
    by_cases oui : IsOui b p hdmiLicensing
    · have has : HasVics b p ↔ b (p + 8) &&& 0x20 ≠ 0 ∧ vicIndex (b (p + 8)) ≤ blockLen (b p) :=
        ⟨fun has => ⟨has.present, has.within⟩, fun both => ⟨long, oui, both.1, both.2⟩⟩
      simp only [oui, decide_true, if_true, true_imp_iff, has, and_imp]
      exact (does_videoPresent p).after _ keeps
    · have none : ¬ HasVics b p := fun has => oui has.licensing
      simp only [oui, decide_false, Bool.false_eq_true, if_false, none, false_imp_iff]
      exact plain
  · have none : ¬ HasVics b p := fun has => long has.long
    simp only [ge_iff_le, long, if_false, none, false_imp_iff]
    exact plain

theorem does_licensing (p : Nat) : Does (parseLicensing b p (blockLen (b p)))
      (p + ouiReach b p hdmiLicensing < edidBlockSize ∧ (8 ≤ blockLen (b p) → IsOui b p hdmiLicensing →
        p + 8 < edidBlockSize ∧ (HasVics b p → p + vicIndex (b (p + 8)) + vicCount b p < edidBlockSize)))
      (if HasVics b p then vicModes b p else []) := by
  have step := Does.oui b p hdmiLicensing (fun licensing s =>
    if blockLen (b p) ≥ 8 then
      isOui b p hdmiLicensing >>= fun again =>
        if again then parseVideoPresent b p (blockLen (b p)) (noteHdmi licensing s) else .ok (noteHdmi licensing s)
    else .ok (noteHdmi licensing s)) (does_compared p _)
  refine step.congr ?_
  constructor
  · intro ⟨reach, onward⟩
    exact ⟨reach, fun long => ⟨reach, onward long⟩⟩
  · intro ⟨reach, onward⟩
    exact ⟨reach, fun long => (onward long).2⟩

theorem does_vendor (p : Nat) : Does (parseVendor b p (blockLen (b p))) (VendorInside b p)
      (if ¬ IsOui b p hdmiForum ∧ HasVics b p then vicModes b p else []) := by
  have behind : Does (fun s =>
        if decide (IsOui b p hdmiForum) then .ok { s with isPanelHdmi := true, hfVsdbPresent := true }
        else parseLicensing b p (blockLen (b p)) s)
      (¬ IsOui b p hdmiForum → p + ouiReach b p hdmiLicensing < edidBlockSize ∧ (8 ≤ blockLen (b p) →
        IsOui b p hdmiLicensing → p + 8 < edidBlockSize ∧
          (HasVics b p → p + vicIndex (b (p + 8)) + vicCount b p < edidBlockSize)))
      (if ¬ IsOui b p hdmiForum ∧ HasVics b p then vicModes b p else []) := by
    by_cases forum : IsOui b p hdmiForum
    · simp only [forum, decide_true, if_true, not_true, false_and, if_false, false_imp_iff]
      exact does_pure.after _ fun _ => rfl
    · simp only [forum, decide_false, not_false_iff, true_and, true_imp_iff, Bool.false_eq_true, if_false]
      exact does_licensing p
  have step := Does.oui b p hdmiForum (fun forum s =>
    if forum then .ok { s with isPanelHdmi := true, hfVsdbPresent := true }
    else parseLicensing b p (blockLen (b p)) s) behind
  refine step.congr ?_
  constructor
  · intro ⟨forum, licensing, present, vics⟩
    exact ⟨forum, fun other => ⟨licensing other, fun long oui => ⟨present other long oui, vics other⟩⟩⟩
  · intro ⟨forum, onward⟩
    refine ⟨forum, fun other => (onward other).1, fun other long oui => ((onward other).2 long oui).1, ?_⟩
    intro other has
    exact ((onward other).2 has.long has.licensing).2 has

theorem does_data {p : Nat} (start : p < edidBlockSize) :
    Does (parseData b p (b p)) (DataInside b p) (dataModes b p) := by
  unfold dataModes
  by_cases video : blockType (b p) = blockTypeVideo
  · have same : parseData b p (b p) = parseSvds b p (List.range (blockLen (b p))) := by
      funext s
      exact if_pos video
    rw [same, if_pos video]
    refine (does_svds p (List.range (blockLen (b p)))).congr ?_
    simp only [List.mem_range]
    constructor
    · intro inside k below
      have := inside.svds video
      omega
    · intro each
      refine ⟨start, fun _ => ?_, fun vendor => ?_⟩
      · by_cases none : blockLen (b p) = 0
        · omega
        · have last := each (blockLen (b p) - 1) (by omega)
          omega
      · rw [video] at vendor
        cases vendor
  · rw [if_neg video]
    by_cases vendor : blockType (b p) = blockTypeVendorSpecific
    · have same : parseData b p (b p) = parseVendor b p (blockLen (b p)) := by
        funext s
        exact (if_neg video).trans (if_pos vendor)
      simp only [same, vendor, true_and]
      exact (does_vendor p).congr
        ⟨fun inside => inside.vendor vendor, fun inside => ⟨start, fun v => absurd v video, fun _ => inside⟩⟩
    · have same : parseData b p (b p) = .ok := by
        funext s
        exact (if_neg video).trans (if_neg vendor)
      simp only [same, vendor, false_and, if_false]
      exact does_pure.congr ⟨fun _ => trivial, fun _ => ⟨start, fun v => absurd v video, fun v => absurd v vendor⟩⟩

theorem walk_succ (dtdStart : UInt8) (passes j : Nat) (small : 4 + j < 160) : walk b dtdStart (passes + 1) j = fun s =>
      if dtdStart.toNat ≤ 4 + j then .ok s
      else byte b (4 + j) >>= fun first => parseData b (4 + j) first s >>= walk b dtdStart passes (j + blockLen first + 1) := by
  funext s
  have place : (UInt8.ofNat (4 + j)).toNat = 4 + j := UInt8.toNat_ofNat_of_lt' (by
    have : UInt8.size = 256 := rfl
    omega)
  have done : UInt8.ofNat (4 + j) ≥ dtdStart ↔ dtdStart.toNat ≤ 4 + j := by
    rw [ge_iff_le, UInt8.le_iff_toNat_le, place]
  rw [walk]
  simp only [done, place]
  rfl

theorem does_walk (passes j : Nat) (small : 4 + j < 160) (enough : 160 ≤ 4 + j + passes) :
    Does (walk b (b 2) passes j) (∀ p ∈ dataBlocks b passes (4 + j), DataInside b p)
      ((dataBlocks b passes (4 + j)).flatMap (dataModes b)) := by
  induction passes generalizing j with
  | zero => omega
  | succ passes ih =>
    rw [walk_succ (b 2) passes j small, dataBlocks]
    by_cases done : (b 2).toNat ≤ 4 + j
    · simp only [if_pos done]
      exact does_pure.congr (by simp)
    · simp only [if_neg done, List.forall_mem_cons, List.flatMap_cons]
      by_cases start : 4 + j < edidBlockSize
      · have len := blockLen_le (b (4 + j))
        have next := ih (j + blockLen (b (4 + j)) + 1) (by simp only [edidBlockSize] at start; omega) (by omega)
        have place : 4 + (j + blockLen (b (4 + j)) + 1) = 4 + j + blockLen (b (4 + j)) + 1 := by omega
        rw [place] at next
        have step := Does.byte b (4 + j)
          (fun first s => parseData b (4 + j) first s >>= walk b (b 2) passes (j + blockLen first + 1))
          ((does_data start).bind next)
        exact step.congr (by simp [start])
      · intro s
        refine ⟨fun inside => absurd inside.1.start start, fun _ => ⟨.read (4 + j), ?_⟩⟩
        dsimp only
        rw [byte_fault start]
        rfl

theorem does_extensions (blocks : List (Option Block)) :
    Does (parseExtensions blocks) (∀ b ∈ parsed blocks, ExtensionInside b) ((parsed blocks).flatMap extensionModes) := by
  induction blocks with
  | nil => exact does_pure.congr (by simp [parsed])
  | cons block rest ih =>
    cases block with
    | none => exact ih
    | some b =>
      have taken : parseExtensions (some b :: rest) = fun s =>
          if b 0 ≠ 0x2 then .ok s
          else if b 2 = 0 then .ok s
          else parseDtds b (b 2) (List.range (b 3 &&& 0x0F).toNat) s >>= fun s =>
            if b 2 = 0x0 ∨ b 2 = 0x4 then .ok s else walk b (b 2) walkPasses 0 s >>= parseExtensions rest := by
        funext s
        rw [parseExtensions, byte_ok (by decide), byte_ok (by decide), byte_ok (by decide)]
        rfl
      rw [taken, parsed]
      by_cases cea : b 0 = 0x2
      · by_cases empty : b 2 = 0
        · simp only [cea, empty, ne_eq, not_true, if_false, if_true, or_true]
          exact does_pure.congr (by simp)
        · have dtds := does_dtds (b := b) (b 2) (List.range (b 3 &&& 0x0F).toNat)
          simp only [cea, empty, ne_eq, not_true, if_false, false_or, List.forall_mem_cons, List.flatMap_cons]
          by_cases last : b 2 = 0x4
          · have done : Does (fun s => .ok s) True [] := does_pure
            have dtds_only : ExtensionInside b ↔ ∀ index ∈ dtdIndices b, index + dtdSize ≤ edidBlockSize :=
              ⟨ExtensionInside.dtds, fun each => ⟨each, fun more => absurd last more⟩⟩
            rw [last] at dtds
            simp only [dtds_only, last, if_true, extensionModes, dtdIndices, List.append_nil, List.flatMap_nil]
            have both := dtds.bind done
            rw [List.append_nil] at both
            exact both.congr (by simp)
          · have walked := (does_walk (b := b) walkPasses 0 (by decide) (by decide)).bind ih
            have both : ExtensionInside b ↔ (∀ index ∈ dtdIndices b, index + dtdSize ≤ edidBlockSize) ∧
                ∀ p ∈ dataBlocks b walkPasses 4, DataInside b p :=
              ⟨fun inside => ⟨inside.dtds, inside.blocks last⟩, fun each => ⟨each.1, fun _ => each.2⟩⟩
            simp only [both, last, if_false, extensionModes, List.append_assoc]
            exact (dtds.bind walked).congr and_assoc
      · simp only [cea, ne_eq, not_false_iff, if_true, true_or]
        exact does_pure.congr (by simp)

theorem does_descriptors (edid : Block) (extension : Nat → Option Block) :
    Does (parseDescriptors edid extension) (∀ b ∈ extensions edid extension, ExtensionInside b) (listed edid extension) := by
  have base := does_base edid (List.range 4) fun i below => List.mem_range.mp below
  have behind := (does_extensions ((List.range (edid numExtensionsByte).toNat).map extension)).after
    (fun s => { s with isPanelHdmi := false }) fun _ => rfl
  have taken : parseDescriptors edid extension = fun s => parseBase edid (List.range 4) s >>= fun s =>
      parseExtensions ((List.range (edid numExtensionsByte).toNat).map extension) { s with isPanelHdmi := false } := by
    funext s
    unfold parseDescriptors
    rw [byte_ok (by decide)]
    rfl
  rw [taken]
  exact (base.bind behind).congr (by simp [extensions])

def Mode.Filled : Mode → Prop
  | .table _ => True
  | .detailed timing m => m = fillModeWithMonitorData timing

theorem filled_detailedAt (b : Block) (index : Nat) : (detailedAt b index).Filled := rfl

theorem filled_of_table {α : Type} (f : α → Option TableMode) (l : List α) :
    ∀ m ∈ l.filterMap fun a => (f a).map Mode.table, m.Filled := by
  intro m among
  obtain ⟨a, -, found⟩ := List.mem_filterMap.mp among
  obtain ⟨t, -, same⟩ := Option.map_eq_some_iff.mp found
  subst same
  trivial

theorem filled_dataModes (b : Block) (p : Nat) : ∀ m ∈ dataModes b p, m.Filled := by
  unfold dataModes
  split
  · exact filled_of_table _ _
  · split
    · exact filled_of_table _ _
    · simp

theorem filled_listed (edid : Block) (extension : Nat → Option Block) : ∀ m ∈ listed edid extension, m.Filled := by
  intro m among
  obtain base | behind := List.mem_append.mp among
  · obtain ⟨i, -, found⟩ := List.mem_filterMap.mp base
    dsimp only at found
    split at found
    · cases found
    · cases found
      exact filled_detailedAt _ _
  · obtain ⟨b, -, inside⟩ := List.mem_flatMap.mp behind
    obtain timing | data := List.mem_append.mp inside
    · obtain ⟨index, -, same⟩ := List.mem_map.mp timing
      subst same
      exact filled_detailedAt _ _
    · split at data
      · cases data
      · obtain ⟨p, -, listed⟩ := List.mem_flatMap.mp data
        exact filled_dataModes b p m listed

theorem porch_iff (blank front sync : UInt32) :
    (blank - front - sync).toNat + front.toNat + sync.toNat = blank.toNat ↔ front.toNat + sync.toNat ≤ blank.toNat := by
  constructor
  · intro exact_
    omega
  · intro room
    have first : (blank - front).toNat = blank.toNat - front.toNat :=
      UInt32.toNat_sub_of_le _ _ (UInt32.le_iff_toNat_le.mpr (by omega))
    rw [UInt32.toNat_sub_of_le _ _ (UInt32.le_iff_toNat_le.mpr (by omega)), first]
    omega

theorem exact_iff {m : Mode} (filled : m.Filled) : m.Exact ↔ m.Fits := by
  cases m with
  | table _ => exact Iff.rfl
  | detailed timing m =>
    obtain rfl : m = fillModeWithMonitorData timing := filled
    exact and_congr (porch_iff _ _ _) (porch_iff _ _ _)

/-- Parsing is bounded exactly when the extensions list what lies inside of them and the timings that find room have
blanking enough. -/
theorem parseDescriptors_bounded_iff (edid : Block) (extension : Nat → Option Block) (s : MonitorData) :
    Bounded s (parseDescriptors edid extension s) ↔ (∀ b ∈ extensions edid extension, ExtensionInside b) ∧
        ∀ m ∈ (listed edid extension).take (maxModes - s.modes.length), m.Fits := by
  obtain ⟨goes, fails⟩ := does_descriptors edid extension s
  have filled (m : Mode) (among : m ∈ (listed edid extension).take (maxModes - s.modes.length)) : m.Filled :=
    filled_listed edid extension m (List.mem_of_mem_take among)
  constructor
  · rintro ⟨s', added, ended, modes, -, exact_⟩
    have inside : ∀ b ∈ extensions edid extension, ExtensionInside b := by
      by_contra outside
      obtain ⟨fault, failed⟩ := fails outside
      cases failed.symm.trans ended
    obtain ⟨t, again, taken⟩ := goes inside
    cases again.symm.trans ended
    have same : added = (listed edid extension).take (maxModes - s.modes.length) :=
      List.append_cancel_left (modes.symm.trans taken)
    subst same
    exact ⟨inside, fun m among => (exact_iff (filled m among)).mp (exact_ m among)⟩
  · rintro ⟨inside, fits⟩
    obtain ⟨s', ended, modes⟩ := goes inside
    refine ⟨s', _, ended, modes, fun room => ?_, fun m among => (exact_iff (filled m among)).mpr (fits m among)⟩
    rw [modes, fill, List.length_append, List.length_take]
    omega

def noModes : MonitorData := ⟨[], false, false⟩

def oneExtension : Block := fun i => if i = numExtensionsByte then 1 else 0

def lateTiming : Block := fun i => if i = 0 then 2 else if i = 2 then 120 else if i = 3 then 1 else 0

def noBlanking : Block := fun i => if i = dtdByte ∨ i = dtdByte + 8 then 1 else 0

/-- A timing of an extension is read past its end. The porch of one without blanking wraps. -/
theorem parseDescriptors_unbounded :
    ¬ Bounded noModes (parseDescriptors oneExtension (fun _ => some lateTiming) noModes) ∧
    ¬ Bounded noModes (parseDescriptors noBlanking (fun _ => none) noModes) := by
  constructor
  · rintro ⟨s', added, ended, -⟩
    have failed : parseDescriptors oneExtension (fun _ => some lateTiming) noModes = .error (.read 128) := rfl
    cases failed.symm.trans ended
  · rintro ⟨s', added, ended, modes, -, exact_⟩
    have run : parseDescriptors noBlanking (fun _ => none) noModes = .ok ⟨[detailedAt noBlanking dtdByte], false, false⟩ := rfl
    cases run.symm.trans ended
    have only : detailedAt noBlanking dtdByte ∈ added := by
      rw [← show [detailedAt noBlanking dtdByte] = added from modes]
      exact List.mem_singleton_self _
    obtain ⟨horizontal, -⟩ := exact_ _ only
    exact absurd horizontal (by decide)

end Cboot.Display.Edid
