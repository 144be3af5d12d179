import Cboot.BlUpdate.Visits

/-!
The handle is taken for a blob header where the size is looked for, so no payload is found incomplete, and what an entry
says of its image is not held against the size.
-/

namespace Cboot.BlUpdate
open Lib Attempt Nvblob

section
variable {σ : Type} (cfg : Config) (P : Platform σ) (m : Mem) (bh : BlobInfo) (numEntries : UInt32)

def turnsOf (name : List UInt8) (s : State σ) : List (List UInt8 × State σ) :=
  if isPartitionUpdated s.static.list name then []
  else
    match _dependency : getDependency cfg name with
    | none => [(name, s)]
    | some part =>
      turnsOf part s ++ behind (fun t => [(name, t)]) ((updatePartitionRecursive cfg P m bh part numEntries).run s)
termination_by dependencyRank name
decreasing_by exact dependencyRank_lt _dependency

def loopTurns : Nat → UInt8 → State σ → List (List UInt8 × State σ)
  | 0, _, _ => []
  | fuel + 1, i, s =>
    if i.toUInt32 < numEntries then
      match tegrablBlobGetEntry (some bh) i.toUInt32 m with
      | .error _ => loopTurns fuel (i + 1) s
      | .ok a =>
        turnsOf cfg P m bh numEntries (ImageEntry.decode m a).partname s ++ behind (loopTurns fuel (i + 1))
            ((updatePartitionRecursive cfg P m bh (ImageEntry.decode m a).partname numEntries).run s)
    else []

/-- The turn of a partition passes the image of entry `i` to `write_partition`. -/
def Gives (turn : List UInt8 × State σ) (i : Nat) : Prop :=
  ∃ spec s entry, (specOrNone P turn.1).run turn.2 = (.ok (some spec), s) ∧
    findEntry P m bh turn.1 spec 0 numEntries.toNat = .ok (some (i, entry)) ∧
    ∃ full data result, .write full data result ∈ ((updateFromEntry cfg P m bh i entry).run s).2.log.drop s.log.length

/-- A call passes the image of entry `i` to `write_partition`. -/
structure Passes (buff : Nat) (size : UInt32) (suffix : Option Text) (fuel : Nat) (s : State σ) (i : Nat) : Prop where
  complete : ¬ size < tegrablBlobGetSize (handle m buff)
  passes : ∃ t, Accepts cfg P m buff suffix s t ∧
    ∃ turn ∈ loopTurns cfg P m (handle m buff) ((handle m buff).header m).numEntries fuel 0 t,
      Gives cfg P m (handle m buff) ((handle m buff).header m).numEntries turn i

end

/-- The bytes that the header at `buff` says there are. -/
def declaredSize (m : Mem) (buff : Nat) : Nat :=
  if bytesAt m buff 20 = signedUpdateMagic then
    (SignedHeader.decode m buff).actualBlobSize.toNat + (SignedHeader.decode m buff).signatureSize.toNat +
      signedHeaderBytes
  else (BlobHeader.decode m buff).size.toNat

/-- The payload is complete, and the image of entry `i` is inside of it. -/
structure EntryInside (m : Mem) (buff : Nat) (size : UInt32) (i : Nat) : Prop where
  complete : declaredSize m buff ≤ size.toNat
  first : buff ≤ (handle m buff).blob + (entryOf m (handle m buff) i).imageOffset.toNat
  last : (handle m buff).blob + (entryOf m (handle m buff) i).imageOffset.toNat +
    (entryOf m (handle m buff) i).imageSize.toNat ≤ buff + size.toNat

def LookedUp (static : Static) : Prop := static.globalNctSpec = [] ∨ ∃ found, static.globalNctSpec = specText found

/-- An incomplete payload is not written, and nothing is written from outside of the buffer. -/
def KeepsInside (cfg : Config) (m : Mem) (buff : Nat) (size : UInt32) : Prop :=
  ∀ (σ : Type) (P : Platform σ) (suffix : Option Text) (fuel : Nat) (s : State σ) (i : Nat),
    LookedUp s.static → s.static.list = [] → Passes cfg P m buff size suffix fuel s i → EntryInside m buff size i

/-- Partitions that come to their turn with these: they themselves, and those that they depend on. -/
inductive Due (cfg : Config) (names : List (List UInt8)) : List UInt8 → Prop
  | entry {name : List UInt8} : name ∈ names → Due cfg names name
  | dependency {name part : List UInt8} : Due cfg names name → getDependency cfg name = some part → Due cfg names part

/-- For a spec and a mode of the fuses, entry `i` is the first one for a partition that comes to its turn. -/
structure Choosable (cfg : Config) (m : Mem) (buff : Nat) (i : Nat) : Prop where
  blob : IsBlob m buff
  update : UpdateBlob m (handle m buff)
  chosen : ∃ found production name,
    Due cfg (namesFrom m (handle m buff) 0 (min ((handle m buff).header m).numEntries.toNat 256)) name ∧
      firstSuiting m (handle m buff) (specText found) production name
        ((handle m buff).header m).numEntries.toNat = some i

section
variable {σ : Type} {cfg : Config} {P : Platform σ} {m : Mem} {bh : BlobInfo} {numEntries : UInt32}
variable {s t u : State σ} {I : State σ → Prop} {E : Error → State σ → Prop} {names : List (List UInt8)}
variable {name part : List UInt8}

theorem turnsOf_listed (listed : isPartitionUpdated s.static.list name = true) :
    turnsOf cfg P m bh numEntries name s = [] := by
  rw [turnsOf, if_pos listed]

theorem turnsOf_none (new : isPartitionUpdated s.static.list name = false)
    (dependency : getDependency cfg name = none) : turnsOf cfg P m bh numEntries name s = [(name, s)] := by
  rw [turnsOf, new, if_neg Bool.false_ne_true]
  split
  · rfl
  · rename_i found
    rw [dependency] at found
    cases found

theorem turnsOf_some (new : isPartitionUpdated s.static.list name = false)
    (dependency : getDependency cfg name = some part) :
    turnsOf cfg P m bh numEntries name s = turnsOf cfg P m bh numEntries part s ++
      behind (fun t => [(name, t)]) ((updatePartitionRecursive cfg P m bh part numEntries).run s) := by
  rw [turnsOf, new, if_neg Bool.false_ne_true]
  split
  · rename_i found
    rw [dependency] at found
    cases found
  · rename_i found
    rw [dependency] at found
    cases found
    rfl

theorem mem_turnsOf (keeps : TurnKeeps cfg P m bh numEntries I E) (here : I s) (due : Due cfg names name)
    {turn : List UInt8 × State σ} (member : turn ∈ turnsOf cfg P m bh numEntries name s) :
    Due cfg names turn.1 ∧ I turn.2 := by
  induction name using turn_induction cfg s.static.list with
  | listed name listed =>
    rw [turnsOf_listed listed] at member
    cases member
  | last name new dependency =>
    rw [turnsOf_none new dependency, List.mem_singleton] at member
    rw [member]
    exact ⟨due, here⟩
  | next name part new dependency ih =>
    rw [turnsOf_some new dependency] at member
    rcases List.mem_append.mp member with before | last
    · exact ih (.dependency due dependency) before
    · cases first : (updatePartitionRecursive cfg P m bh part numEntries).run s with
      | mk result t =>
        rw [first] at last
        cases result with
        | error e => cases last
        | ok _ =>
          rw [List.mem_singleton.mp last]
          exact ⟨due, ((updatePartitionRecursive_ends keeps part here).1 _ t first).1⟩

theorem mem_loopTurns (blob : UpdateBlob m bh) (keeps : TurnKeeps cfg P m bh numEntries I E) (fuel : Nat) (i : UInt8)
    (here : I s) {turn : List UInt8 × State σ} (member : turn ∈ loopTurns cfg P m bh numEntries fuel i s) :
    Due cfg (namesFrom m bh 0 (min numEntries.toNat 256)) turn.1 ∧ I turn.2 := by
  induction fuel generalizing i s with
  | zero => cases member
  | succ fuel ih =>
    unfold loopTurns at member
    split at member
    · rename_i more
      have inside : i.toNat < numEntries.toNat := by
        rw [← UInt8.toNat_toUInt32]
        exact UInt32.lt_iff_toNat_lt.mp more
      have small : i.toNat < 256 := i.toNat_lt
      have entry := getEntry_index blob small
      rw [UInt8.ofNat_toNat] at entry
      rw [entry] at member
      have due : Due cfg (namesFrom m bh 0 (min numEntries.toNat 256)) (entryOf m bh i.toNat).partname := by
        refine .entry (List.mem_map.mpr ⟨i.toNat, ?_, rfl⟩)
        rw [List.mem_range'_1]
        omega
      rcases List.mem_append.mp member with now | later
      · exact mem_turnsOf keeps here due now
      · cases first : (updatePartitionRecursive cfg P m bh (entryOf m bh i.toNat).partname numEntries).run s with
        | mk result t =>
          change turn ∈ behind (loopTurns cfg P m bh numEntries fuel (i + 1))
            ((updatePartitionRecursive cfg P m bh (entryOf m bh i.toNat).partname numEntries).run s) at later
          rw [first] at later
          cases result with
          | error e => cases later
          | ok _ => exact ih (i + 1) ((updatePartitionRecursive_ends keeps _ here).1 _ t first).1 later
    · cases member

theorem turnsOf_lists (keeps : TurnKeeps cfg P m bh numEntries I E) (here : I s)
    (passed : (updatePartitionRecursive cfg P m bh name numEntries).run s = (.ok (), t)) :
    t.static.list = ((turnsOf cfg P m bh numEntries name s).map Prod.fst).reverse ++ s.static.list := by
  induction name using turn_induction cfg s.static.list generalizing t with
  | listed name listed =>
    rw [updatePartitionRecursive_listed listed] at passed
    cases passed
    rw [turnsOf_listed listed]
    rfl
  | last name new dependency =>
    rw [updatePartitionRecursive_none new dependency] at passed
    have free : ∀ part, getDependency cfg name = some part → isPartitionUpdated s.static.list part = true := by
      intro part found
      rw [dependency] at found
      cases found
    rw [turnsOf_none new dependency, ((keeps name s here new free).1 _ t passed).2]
    rfl
  | next name part new dependency ih =>
    rw [updatePartitionRecursive_some new dependency] at passed
    obtain ⟨_, u, first, rest⟩ := run_bind_eq_ok.mp passed
    obtain ⟨there, list⟩ := (updatePartitionRecursive_ends keeps part here).1 _ u first
    have ready : ∀ other, getDependency cfg name = some other → isPartitionUpdated u.static.list other = true := by
      intro other found
      rw [dependency] at found
      cases found
      rw [list]
      exact listed_turn_self part
    have unlisted : isPartitionUpdated u.static.list name = false := by
      rw [list]
      exact not_listed_of_dependency new dependency
    rw [turnsOf_some new dependency, first, ((keeps name u there unlisted ready).1 _ t rest).2, ih first]
    simp [behind]

theorem loopTurns_lists {n k : Nat} (blob : UpdateBlob m bh) (keeps : TurnKeeps cfg P m bh numEntries I E)
    (here : I s) (small : n + k ≤ 256) (inside : n + k ≤ numEntries.toNat)
    (passed : (updateAll cfg P m bh numEntries (namesFrom m bh n k)).run s = (.ok (), u)) : u.static.list =
      ((loopTurns cfg P m bh numEntries k (UInt8.ofNat n) s).map Prod.fst).reverse ++ s.static.list := by
  induction k generalizing n s with
  | zero =>
    cases passed
    rfl
  | succ k ih =>
    rw [namesFrom_succ] at passed
    obtain ⟨_, t, first, rest⟩ := run_bind_eq_ok.mp passed
    have there := ((updatePartitionRecursive_ends keeps _ here).1 _ t first).1
    have turns : loopTurns cfg P m bh numEntries (k + 1) (UInt8.ofNat n) s =
        turnsOf cfg P m bh numEntries (entryOf m bh n).partname s ++
          loopTurns cfg P m bh numEntries k (UInt8.ofNat (n + 1)) t := by
      rw [loopTurns, if_pos (index_lt (by omega) (by omega)), getEntry_index blob (by omega)]
      change _ ++ behind _ ((updatePartitionRecursive cfg P m bh (entryOf m bh n).partname numEntries).run s) = _
      rw [first, index_succ]
      rfl
    rw [turns, ih there (by omega) (by omega) rest, turnsOf_lists keeps here first]
    simp

def Closed (cfg : Config) (list : List (List UInt8)) : Prop :=
  ∀ name part, isPartitionUpdated list name = true → getDependency cfg name = some part →
    isPartitionUpdated list part = true

theorem closed_turn {list : List (List UInt8)} (closed : Closed cfg list) (name : List UInt8) :
    Closed cfg (turn cfg list name) := by
  induction name using turn_induction cfg list with
  | listed name listed =>
    rw [turn_listed listed]
    exact closed
  | last name new dependency =>
    rw [turn_none new dependency]
    intro other part listed found
    refine (isPartitionUpdated_cons ..).mpr ?_
    rcases (isPartitionUpdated_cons ..).mp listed with same | before
    · rw [← getDependency_congr cfg same, dependency] at found
      cases found
    · exact .inr (closed other part before found)
  | next name last new dependency ih =>
    rw [turn_some new dependency]
    intro other part listed found
    refine (isPartitionUpdated_cons ..).mpr (.inr ?_)
    rcases (isPartitionUpdated_cons ..).mp listed with same | before
    · rw [← getDependency_congr cfg same, dependency] at found
      cases found
      exact listed_turn_self last
    · exact ih other part before found

theorem closed_foldl (names : List (List UInt8)) {list : List (List UInt8)} (closed : Closed cfg list) :
    Closed cfg (names.foldl (turn cfg) list) := by
  induction names generalizing list with
  | nil => exact closed
  | cons name names ih => exact ih (closed_turn closed name)

theorem listed_of_due (due : Due cfg names name) : isPartitionUpdated (names.foldl (turn cfg) []) name = true := by
  have empty : Closed cfg [] := by
    intro name part listed
    cases listed
  induction due with
  | entry member => exact listed_foldl member
  | dependency _ found ih => exact closed_foldl names empty _ _ ih found

theorem turn_keeps_lookedUp (blob : UpdateBlob m bh) (numEntries : UInt32) :
    TurnKeeps cfg P m bh numEntries (fun s => Decided cfg s ∧ LookedUp s.static) (fun _ t => LookedUp t.static) := by
  refine turn_keeps_static blob numEntries (fun _ _ known => known) fun s spec known finds => ?_
  obtain ⟨cached, rfl⟩ | ⟨-, found, -, -, rfl⟩ := finds
  · exact known
  · exact .inr ⟨found, rfl⟩

theorem Finds.lookedUp {spec : Text} (finds : Finds P s spec) (known : LookedUp s.static) :
    ∃ found, spec = specText found := by
  obtain ⟨cached, rfl⟩ | ⟨-, found, -, -, rfl⟩ := finds
  · exact known.resolve_left cached
  · exact ⟨found, rfl⟩

theorem Gives.chosen {turn : List UInt8 × State σ} {i : Nat} (blob : UpdateBlob m bh)
    (gives : Gives cfg P m bh numEntries turn i) :
    ∃ spec, Finds P turn.2 spec ∧ firstSuiting m bh spec P.nvProductionMode turn.1 numEntries.toNat = some i := by
  obtain ⟨spec, t, entry, ended, found, -⟩ := gives
  rcases (specOrNone_ends P turn.1).1 _ t ended with ⟨none, -⟩ | ⟨spec', some, finds, -, -⟩
  · cases none
  · cases some
    refine ⟨spec, finds, ?_⟩
    rw [findEntry_eq P blob turn.1 spec (by have := numEntries.toNat_lt; omega), ← List.range_eq_range'] at found
    obtain ⟨j, first, same⟩ := Option.map_eq_some_iff.mp (Except.ok.inj found)
    cases same
    exact first

theorem choosable_of_passes {buff : Nat} {size : UInt32} {suffix : Option Text} {fuel i : Nat}
    (known : LookedUp s.static) (passes : Passes cfg P m buff size suffix fuel s i) : Choosable cfg m buff i := by
  obtain ⟨-, t, accepts, turn, member, gives⟩ := passes
  obtain ⟨keeps, decided, -⟩ := (opening_ends cfg P _ buff suffix).1 _ t accepts.opened
  have start : LookedUp t.static := by
    unfold LookedUp
    rw [keeps.of_allocated.spec]
    exact known
  obtain ⟨due, -, there⟩ := mem_loopTurns accepts.update (turn_keeps_lookedUp accepts.update _) fuel 0
    ⟨decided, start⟩ member
  obtain ⟨spec, finds, first⟩ := gives.chosen accepts.update
  obtain ⟨found, rfl⟩ := finds.lookedUp there
  exact ⟨accepts.blob, accepts.update, found, P.nvProductionMode, turn.1, due, first⟩

end

def willingPlatform (found : Text × Text) (production : Bool) : Platform Unit :=
  { samplePlatform (.ok found) (fun _ => .ok ()) with
    nvProductionMode := production
    getSlotNum := some fun _ => (.ok 1, ())
    getSlotViaSuffix := some fun _ _ => (.ok 0, ())
    getSlotSuffix := some fun _ name _ => (.ok name, ())
    isAlwaysAbPartition := some fun _ => false }

def willingBoard : Board := ⟨0, 1, fun _ name => name, fun _ => true, fun _ => false⟩

section
variable {cfg : Config} {m : Mem} {bh : BlobInfo} {numEntries : UInt32} {found : Text × Text} {production : Bool}
variable {s t : State Unit}

theorem willing_describes (suffix : Option Text) : Describes (willingPlatform found production) suffix willingBoard := by
  refine ⟨?_, ?_, ?_, ?_, fun _ _ => rfl, ?_⟩
  · intro callback set env slot answer
    cases set
    cases answer
    rfl
  · intro callback set env num answer
    cases set
    cases answer
    rfl
  · intro unset
    cases unset
  · intro callback set slot name env full answer
    cases set
    cases answer
    rfl
  · intro callback set
    cases set
    rfl

theorem total_outside {α : Type} {f : Unit → Except Error α × Unit} (fine : ∀ env, ∃ a, (f env).1 = .ok a) :
    Total (outside f) := by
  intro s
  obtain ⟨a, answer⟩ := fine s.env
  exact ⟨a, { s with env := (f s.env).2 }, Prod.ext answer rfl⟩

theorem total_note (event : Event) : Total (note event : UpdateM Unit Unit) := fun _ => ⟨(), _, rfl⟩

theorem total_noted (event : Option Error → Event) {c : UpdateM Unit Unit} (total : Total c) :
    Total (noted event c) := by
  intro s
  obtain ⟨a, t, ended⟩ := total s
  have answer : (c.run s).1 = .ok a := congrArg Prod.fst ended
  exact ⟨a, _, Prod.ext answer rfl⟩

theorem total_open (name : Text) : Total (outside ((willingPlatform found production).partitionOpen name)) :=
  total_outside fun _ => ⟨(), rfl⟩

theorem total_eraseQspi (name : Text) : Total (eraseQspi cfg (willingPlatform found production) name) := by
  unfold eraseQspi
  split
  · exact total_outside fun _ => ⟨(), rfl⟩
  · exact total_pure ()

theorem total_writePartition (name : Text) (data : List UInt8) :
    Total (writePartition cfg (willingPlatform found production) name data) := by
  refine total_noted _ (total_bind (total_open name) fun _ => total_bind (total_eraseQspi name) fun _ => ?_)
  unfold storeImage
  split
  · rename_i unset
    cases unset
  · exact total_outside fun _ => ⟨(), rfl⟩

theorem total_getFullPartName (slot : UInt32) (name : Text) :
    Total (getFullPartName (willingPlatform found production) slot name) := total_outside fun _ => ⟨name, rfl⟩

theorem total_writeOtherSlots (name : Text) (data : List UInt8) (updateSlot : UInt32) (slots : List Nat) :
    Total (writeOtherSlots cfg (willingPlatform found production) name data updateSlot slots) := by
  induction slots with
  | nil => exact total_pure ()
  | cons i slots ih =>
    unfold writeOtherSlots
    split
    · exact total_bind (total_getFullPartName _ _) fun full => total_bind (total_writePartition full data) fun _ => ih
    · exact ih

theorem total_isUpdateAllSlotsRequired (blob : Option Nat) :
    Total (isUpdateAllSlotsRequired (willingPlatform found production) blob) := by
  intro s
  by_cases decided : s.static.isNewBupChecked = true
  · exact ⟨s.static.isRequired, s, by simp [isUpdateAllSlotsRequired, decided]⟩
  · exact ⟨false, { s with static := { s.static with isRequired := false, isNewBupChecked := true } },
      by simp [isUpdateAllSlotsRequired, decided, willingPlatform, samplePlatform]⟩

theorem total_writeABPartition (name : Text) (data : List UInt8) :
    Total (writeABPartition cfg (willingPlatform found production) name data) := by
  refine total_bind (fun s => ⟨0, s, rfl⟩) fun slot => ?_
  refine total_bind (total_bind (total_getFullPartName 1 _) fun _ => total_outside fun _ => ⟨true, rfl⟩) fun has => ?_
  split
  · refine total_bind (total_getFullPartName slot _) fun full => total_bind (total_writePartition full data) fun _ => ?_
    refine total_bind (total_outside fun _ => ⟨1, rfl⟩) fun num => ?_
    split
    · refine total_bind (total_pure false) fun always => total_bind (total_isUpdateAllSlotsRequired none) fun all => ?_
      refine total_bind (total_note _) fun _ => ?_
      split
      · exact total_writeOtherSlots name data slot _
      · exact total_pure ()
    · exact total_pure ()
  · exact total_writePartition name data

theorem total_updateFromEntry (blob : UpdateBlob m bh) {i : Nat} (small : i < 2 ^ 32) (entry : ImageEntry) :
    Total (updateFromEntry cfg (willingPlatform found production) m bh i entry) := by
  rw [updateFromEntry_eq cfg _ (getEntryData_update blob small)]
  refine total_bind ?_ fun _ => total_bind (total_note _) fun _ => total_noted _ ?_
  · have aligned (data : Nat) :
        Total (if data % memAlignSize ≠ 0 then allocate (willingPlatform found production) else pure ()) := by
      split
      · exact total_outside fun _ => ⟨(), rfl⟩
      · exact total_pure ()
    unfold prepareImage
    by_cases qspi : cfg.qspi = true
    · rw [if_pos qspi]
      exact total_bind (total_open _) fun _ => total_bind (total_eraseQspi _) fun _ => aligned _
    · rw [if_neg qspi]
      exact aligned _
  · unfold writeImage
    split
    · exact total_writeABPartition _ _
    · exact total_writePartition _ _

theorem total_updateAndRecord (blob : UpdateBlob m bh) (name : List UInt8) :
    Total (updateAndRecord cfg (willingPlatform found production) m bh name numEntries) := by
  refine total_bind ?_ fun _ => total_bind (total_outside fun _ => ⟨(), rfl⟩) fun _ => fun s => ⟨(), _, rfl⟩
  refine total_bind (fun s => ?_) fun known => ?_
  · cases ended : (specOrNone (willingPlatform found production) name).run s with
    | mk result t =>
      cases result with
      | ok r => exact ⟨r, t, rfl⟩
      | error e => exact ((specOrNone_ends _ name).2 e t ended).elim
  · cases known with
    | none => exact total_pure ()
    | some spec =>
      have search := findEntry_eq (willingPlatform found production) blob name spec (i := 0) (n := numEntries.toNat)
        (by have := numEntries.toNat_lt; omega)
      simp only [search]
      cases first : (List.range' 0 numEntries.toNat).find? fun j =>
          Suits m bh spec (willingPlatform found production).nvProductionMode name j with
      | none => exact total_pure ()
      | some i =>
        have inside := (List.mem_range'_1.mp (List.mem_of_find?_eq_some first)).2
        exact total_updateFromEntry blob (by have := numEntries.toNat_lt; omega) _

theorem willing_answers : Answers (willingPlatform found production) (specText found) := by
  intro env answer env' lookup
  cases lookup
  rfl

theorem willing_keeps (blob : UpdateBlob m bh) : TurnKeeps cfg (willingPlatform found production) m bh numEntries
      (fun s => Decided cfg s ∧ Known (specText found) s.static) (fun _ _ => False) := by
  intro name s here new ready
  exact (total_updateAndRecord blob name).ends (turn_keeps_known blob willing_answers numEntries name s here new ready)

variable (production numEntries) in
theorem willing_updateAll (blob : UpdateBlob m bh) (names : List (List UInt8)) (decided : Decided cfg s)
    (known : Known (specText found) s.static) :
    ∃ u, (updateAll cfg (willingPlatform found production) m bh numEntries names).run s = (.ok (), u) := by
  induction names generalizing s with
  | nil => exact ⟨s, rfl⟩
  | cons name names ih =>
    have keeps : TurnKeeps cfg (willingPlatform found production) m bh numEntries
        (fun s => Decided cfg s ∧ Known (specText found) s.static) (fun _ _ => False) := willing_keeps blob
    have ends := updatePartitionRecursive_ends keeps name ⟨decided, known⟩
    cases first : (updatePartitionRecursive cfg (willingPlatform found production) m bh name numEntries).run s with
    | mk result t =>
      cases result with
      | error e => exact (ends.2 e t first).elim
      | ok _ =>
        obtain ⟨⟨decided', known'⟩, -⟩ := ends.1 _ t first
        rw [updateAll, run_bind_ok first]
        exact ih decided' known'

theorem mem_of_writesAll {i : Nat} {suffix : Option Text} {decision : Bool} {inner : List Event}
    (all : WritesAll cfg (willingPlatform found production) m bh suffix decision i inner) :
    ∃ full data result, Event.write full data result ∈ inner := by
  unfold WritesAll at all
  split at all
  · have written := all willingBoard (willing_describes suffix)
    simp [Board.required, willingBoard] at written
    exact ⟨_, _, _, written⟩
  · exact ⟨_, _, _, all⟩

theorem gives_of_first (blob : UpdateBlob m bh) (decided : Decided cfg s) (known : Known (specText found) s.static)
    {name : List UInt8} {i : Nat}
    (first : firstSuiting m bh (specText found) production name numEntries.toNat = some i) :
    Gives cfg (willingPlatform found production) m bh numEntries (name, s) i := by
  have small := (suits_of_firstSuiting first).1
  have wide := numEntries.toNat_lt
  cases ended : (specOrNone (willingPlatform found production) name).run s with
  | mk result t =>
    cases result with
    | error e => exact ((specOrNone_ends _ name).2 e t ended).elim
    | ok r =>
      rcases (specOrNone_ends _ name).1 r t ended with ⟨-, misses⟩ | ⟨spec, rfl, finds, static, log⟩
      · obtain ⟨e, lookup⟩ := misses.lookup
        cases lookup
      · obtain rfl := finds.eq willing_answers known
        have decided' : Decided cfg t := by
          intro ab
          rw [static]
          exact decided ab
        have total : Total (updateFromEntry cfg (willingPlatform found production) m bh i (entryOf m bh i)) :=
          total_updateFromEntry blob (by omega) (entryOf m bh i)
        obtain ⟨_, u, updated⟩ := total t
        obtain ⟨inner, adds, -, all⟩ := (updateFromEntry_ends cfg (willingPlatform found production) blob decided'
          (show i < 2 ^ 32 by omega)).1 _ u updated
        obtain ⟨full, data, result, written⟩ := mem_of_writesAll all
        refine ⟨_, t, entryOf m bh i, ended, ?_, full, data, result, ?_⟩
        · rw [findEntry_eq _ blob name _ (by omega), ← List.range_eq_range']
          exact congrArg Except.ok (congrArg (Option.map _) first)
        · rw [updated, adds.log, List.drop_left]
          exact List.mem_cons_of_mem _ (List.mem_append_left _ written)

variable (found production) in
theorem willing_opening (cfg : Config) (bh : BlobInfo) (buff : Nat) (s : State Unit) :
    ∃ t, (opening cfg (willingPlatform found production) bh buff none).run s = (.ok (), t) := by
  have verified : Total (verifying cfg (willingPlatform found production) bh) := by
    unfold verifying
    split
    · exact total_pure ()
    · exact total_pure ()
  have begun : Total (beginABUpdate cfg (willingPlatform found production) buff none) := by
    unfold beginABUpdate
    split
    · exact total_bind (total_isUpdateAllSlotsRequired _) fun _ => fun s => ⟨(), _, rfl⟩
    · exact total_pure ()
  obtain ⟨_, t, ended⟩ := total_bind verified (fun _ => begun) s
  exact ⟨t, ended⟩

theorem passes_of_choosable {buff i : Nat} (size : UInt32) (choosable : Choosable cfg m buff i) :
    ∃ (P : Platform Unit) (fuel : Nat), Passes cfg P m buff size none fuel firstState i := by
  obtain ⟨blob, update, found, production, name, due, first⟩ := choosable
  generalize numbers : ((handle m buff).header m).numEntries = numEntries at due first
  obtain ⟨t, opened⟩ := willing_opening found production cfg (handle m buff) buff
    (allocated (willingPlatform found production) firstState)
  obtain ⟨keeps, decided, -⟩ := (opening_ends cfg _ _ buff none).1 _ t opened
  have known : Known (specText found) t.static := .inl keeps.spec
  have empty : t.static.list = [] := keeps.list
  obtain ⟨u, all⟩ := willing_updateAll numEntries production update
    (namesFrom m (handle m buff) 0 (min numEntries.toNat 256)) decided known
  -- The partition is listed in the end, so one of its name came to its turn.
  have listed := loopTurns_lists update (willing_keeps update) ⟨decided, known⟩ (by omega) (by omega) all
  have list := updateAll_listed update _ decided all
  rw [empty] at list
  have there := listed_of_due due
  rw [← list, listed, empty, List.append_nil] at there
  obtain ⟨other, member, same⟩ := List.any_eq_true.mp there
  obtain ⟨turn, taken, rfl⟩ := List.mem_map.mp (List.mem_reverse.mp member)
  have same : shortName turn.1 = shortName name := by simpa using same
  obtain ⟨-, decided', known'⟩ := mem_loopTurns update (willing_keeps update) _ _ ⟨decided, known⟩ taken
  refine ⟨willingPlatform found production, min numEntries.toNat 256, ?_, t, ?_, turn, ?_, ?_⟩
  · rw [getSize_eq_zero]
    exact fun small => Nat.not_lt_zero _ (UInt32.lt_iff_toNat_lt.mp small)
  · refine ⟨blob, rfl, update, ?_, opened⟩
    intro none
    rw [← numbers, none] at first
    cases first
  · rw [numbers]
    exact taken
  · rw [numbers]
    rw [← firstSuiting_congr same] at first
    exact gives_of_first update decided' known' first

/-- A payload keeps to its buffer, whatever is done with it, exactly when it is complete and the image is inside of the
buffer for every entry that can be chosen. -/
theorem keepsInside_iff (cfg : Config) (m : Mem) (buff : Nat) (size : UInt32) :
    KeepsInside cfg m buff size ↔ ∀ i, Choosable cfg m buff i → EntryInside m buff size i := by
  constructor
  · intro keeps i choosable
    obtain ⟨P, fuel, passes⟩ := passes_of_choosable size choosable
    exact keeps Unit P none fuel firstState i (.inl rfl) rfl passes
  · intro inside σ P suffix fuel s i known _ passes
    exact inside i (choosable_of_passes known passes)

end

/-- A payload of 292 bytes is written when only 16 of them are there. -/
theorem incomplete_written : ¬ ∀ (cfg : Config) (m : Mem) (buff : Nat) (size : UInt32), KeepsInside cfg m buff size := by
  intro claim
  have count : ((handle sampleMem 16).header sampleMem).numEntries.toNat = 2 := by decide
  have first : firstSuiting sampleMem (handle sampleMem 16) (specText ([97], [98])) true
      (entryOf sampleMem (handle sampleMem 16) 0).partname 2 = some 0 := by decide
  have choosable : Choosable plainBuild sampleMem 16 0 := by
    refine ⟨sampleMem_isBlob, sampleMem_update, ([97], [98]), true,
      (entryOf sampleMem (handle sampleMem 16) 0).partname, .entry ?_, ?_⟩
    · rw [count]
      exact List.mem_cons_self
    · rw [count]
      exact first
  obtain ⟨P, fuel, passes⟩ := passes_of_choosable 16 choosable
  have complete := (claim plainBuild sampleMem 16 16 Unit P none fuel firstState 0 (.inl rfl) rfl passes).complete
  exact absurd complete (by decide)

end Cboot.BlUpdate
