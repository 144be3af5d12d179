import Cboot.BlUpdate.Writes

/-!
When a partition comes to its turn, the spec of the platform is looked up and the first entry of the blob is taken that
is for this partition, this spec and the mode of the fuses.
-/

namespace Cboot.BlUpdate
open Lib Attempt Nvblob

section
variable {σ : Type}

structure UpdateBlob (m : Mem) (bh : BlobInfo) : Prop where
  opened : bh.start ≠ 0
  type : (bh.header m).type = blobUpdate

section
variable (m : Mem) (bh : BlobInfo)

def entryAddress (i : Nat) : Nat := bh.blob + (bh.header m).entriesOffset.toNat + i * imageEntryBytes
def entryOf (i : Nat) : ImageEntry := ImageEntry.decode m (entryAddress m bh i)

def imageOf (i : Nat) : List UInt8 :=
  bytesAt m (bh.blob + (entryOf m bh i).imageOffset.toNat) (entryOf m bh i).imageSize.toNat

/-- Entry `i` is for this partition, this spec and this mode. -/
def Suits (spec : Text) (production : Bool) (name : List UInt8) (i : Nat) : Prop :=
  shortName (entryOf m bh i).partname = shortName name ∧ eligible spec production (entryOf m bh i) = true

instance (spec : Text) (production : Bool) (name : List UInt8) (i : Nat) :
    Decidable (Suits m bh spec production name i) := inferInstanceAs (Decidable (_ ∧ _))

def firstSuiting (spec : Text) (production : Bool) (name : List UInt8) (n : Nat) : Option Nat :=
  (List.range n).find? fun i => Suits m bh spec production name i

end

variable {m : Mem} {bh : BlobInfo} {i : Nat}

theorem toUInt32_toNat_of_lt (small : i < 2 ^ 32) : i.toUInt32.toNat = i :=
  Nat.mod_eq_of_lt small

theorem checked_opened (opened : bh.start ≠ 0) : checked (some bh) = .ok bh := if_neg opened

theorem getEntry_update (blob : UpdateBlob m bh) (small : i < 2 ^ 32) :
    tegrablBlobGetEntry (some bh) i.toUInt32 m = .ok (entryAddress m bh i) := by
  unfold tegrablBlobGetEntry
  rw [checked_opened blob.opened]
  simp [entryBytes, blob.type, entryAddress, toUInt32_toNat_of_lt small, bind, Except.bind]
  rfl

theorem getEntryData_update (blob : UpdateBlob m bh) (small : i < 2 ^ 32) :
    tegrablBlobGetEntryData (some bh) i.toUInt32 m =
      .ok (bh.blob + (entryOf m bh i).imageOffset.toNat, (entryOf m bh i).imageSize) := by
  unfold tegrablBlobGetEntryData
  rw [checked_opened blob.opened, getEntry_update blob small]
  simp [parseEntry, blob.type, bind, Except.bind]
  rfl

variable {spec : Text}

theorem suits_of_firstSuiting {production : Bool} {name : List UInt8} {n i : Nat}
    (first : firstSuiting m bh spec production name n = some i) : i < n ∧ Suits m bh spec production name i :=
  ⟨List.mem_range.mp (List.mem_of_find?_eq_some first), by simpa using List.find?_some first⟩

theorem firstSuiting_eq_none {production : Bool} {name : List UInt8} {n : Nat} :
    firstSuiting m bh spec production name n = none ↔ ∀ i < n, ¬ Suits m bh spec production name i := by
  simp [firstSuiting, List.find?_eq_none]

variable (cfg : Config) (P : Platform σ)

theorem findEntry_eq (blob : UpdateBlob m bh) (name : List UInt8) (spec : Text) {i n : Nat} (small : i + n ≤ 2 ^ 32) :
    findEntry P m bh name spec i n = .ok (((List.range' i n).find? fun j =>
      Suits m bh spec P.nvProductionMode name j).map fun j => (j, entryOf m bh j)) := by
  induction n generalizing i with
  | zero => rfl
  | succ n ih =>
    unfold findEntry
    rw [getEntry_update blob (show i < 2 ^ 32 by omega), List.range'_succ, List.find?_cons]
    change (if Suits m bh spec P.nvProductionMode name i then _ else _) = _
    by_cases suits : Suits m bh spec P.nvProductionMode name i
    · rw [if_pos suits, decide_eq_true suits]
      rfl
    · rw [if_neg suits, decide_eq_false suits]
      exact ih (by omega)

/-- The events of the update of a partition that ended with `result`. -/
def updateEvents (name : Text) (inner : List Event) (result : Option Error) : List Event :=
  .updating name :: (inner ++ [.updated name result])

def Broken (name : Text) (events : List Event) : Prop :=
  events = [] ∨ ∃ inner e, events = updateEvents name inner (some e) ∧ Stopped inner

/-- The image of entry `i` has been written: to all of the partitions of a board that it is for, in a build
with slots. -/
def WritesAll (m : Mem) (bh : BlobInfo) (suffix : Option Text) (decision : Bool) (i : Nat)
    (inner : List Event) : Prop :=
  if cfg.abUpdate then
    ∀ board, Describes P suffix board → ∀ full ∈ board.required decision (text (entryOf m bh i).partname),
      .write full (imageOf m bh i) none ∈ inner
  else .write (text (entryOf m bh i).partname) (imageOf m bh i) none ∈ inner

def Decided (s : State σ) : Prop := cfg.abUpdate = true → s.static.isNewBupChecked = true

variable {s : State σ}

def writeImage (name : Text) (data : List UInt8) : UpdateM σ Unit :=
  if cfg.abUpdate then writeABPartition cfg P name data else writePartition cfg P name data

theorem writeImage_writing (decided : Decided cfg s) (i : Nat) :
    Writing (writeImage cfg P (text (entryOf m bh i).partname) (imageOf m bh i)) s
      (fun _ inner => WritesAll cfg P m bh s.static.updateSlotSuffix s.static.isRequired i inner) := by
  unfold writeImage WritesAll
  by_cases ab : cfg.abUpdate = true
  · simp only [if_pos ab]
    exact writeABPartition_writing cfg P (decided ab) _ _
  · simp only [if_neg ab]
    apply Writing.mono (writePartition_writing cfg P _ _)
    intro _ inner written
    rw [written]
    exact List.mem_singleton_self _

theorem updating_ends {c : UpdateM σ Unit} {name : Text} {Q : List Event → Prop}
    (body : ∀ t, t.static = s.static → Writing c t (fun _ inner => Q inner)) :
    Ends (note (.updating name) >>= fun _ => noted (.updated name) c) s
      (fun _ t => ∃ inner, Adds s t (updateEvents name inner none) ∧ Quiet inner ∧ Q inner)
      (fun _ t => ∃ events, Adds s t events ∧ Broken name events) := by
  apply ends_bind (Q := fun _ t => Adds s t [.updating name])
  · apply ends_call
    · intro _ t ended
      obtain ⟨-, after⟩ := Prod.mk.inj ended
      subst after
      exact ⟨rfl, rfl⟩
    · intro e t ended
      cases ended
  · intro _ t adds
    apply ends_call
    · intro r u ended
      obtain ⟨answer, after⟩ := Prod.mk.inj ended
      obtain ⟨inner, adds', quiet, holds⟩ := (body t adds.static).1 r _ (Prod.ext answer rfl)
      subst after
      refine ⟨inner, ⟨adds'.static.trans adds.static, ?_⟩, quiet, holds⟩
      rw [answer, adds'.log, adds.log]
      simp [updateEvents, failure]
    · intro e u ended
      obtain ⟨answer, after⟩ := Prod.mk.inj ended
      obtain ⟨inner, adds', stopped⟩ := (body t adds.static).2 e _ (Prod.ext answer rfl)
      subst after
      refine ⟨updateEvents name inner (some e), ⟨adds'.static.trans adds.static, ?_⟩, Or.inr ⟨inner, e, rfl, stopped⟩⟩
      rw [answer, adds'.log, adds.log]
      simp [updateEvents, failure]

theorem ends_after_silent {α β : Type} {c : UpdateM σ α} {f : α → UpdateM σ β} {Q : β → State σ → Prop}
    {E : Error → State σ → Prop} (silent : Silent c) (failed : ∀ e t, Adds s t [] → E e t)
    (next : ∀ a t, Adds s t [] → Ends (f a) t Q E) : Ends (c >>= f) s Q E := by
  apply ends_bind (Q := fun _ t => Adds s t [])
  · exact Ends.mono (silent s) (fun _ _ adds => adds) failed
  · exact next

def prepareImage (name : Text) (data : Nat) : UpdateM σ Unit := do
  if cfg.qspi then
    outside (P.partitionOpen name)
    eraseQspi cfg P name
  if data % memAlignSize ≠ 0 then
    allocate P

theorem prepareImage_silent (name : Text) (data : Nat) : Silent (prepareImage cfg P name data) := by
  have aligned : Silent (if data % memAlignSize ≠ 0 then allocate P else pure ()) := by
    split
    · exact silent_outside _
    · exact silent_pure ()
  unfold prepareImage
  by_cases qspi : cfg.qspi = true
  · rw [if_pos qspi]
    exact silent_bind (silent_outside _) fun _ => silent_bind (eraseQspi_silent cfg P name) fun _ => aligned
  · rw [if_neg qspi]
    exact aligned

theorem updateFromEntry_eq {entry : ImageEntry} {data : Nat} {len : UInt32}
    (found : tegrablBlobGetEntryData (some bh) i.toUInt32 m = .ok (data, len)) : updateFromEntry cfg P m bh i entry =
      prepareImage cfg P (text entry.partname) data >>= fun _ => note (.updating (text entry.partname)) >>=
        fun _ => noted (.updated (text entry.partname))
          (writeImage cfg P (text entry.partname) (bytesAt m data entry.imageSize.toNat)) := by
  unfold updateFromEntry prepareImage
  rw [found]
  by_cases qspi : cfg.qspi = true <;> by_cases aligned : data % memAlignSize = 0 <;> simp [qspi, aligned, writeImage]

theorem updateFromEntry_ends (blob : UpdateBlob m bh) (decided : Decided cfg s) (small : i < 2 ^ 32) :
    Ends (updateFromEntry cfg P m bh i (entryOf m bh i)) s
      (fun _ t => ∃ inner, Adds s t (updateEvents (text (entryOf m bh i).partname) inner none) ∧
        Quiet inner ∧ WritesAll cfg P m bh s.static.updateSlotSuffix s.static.isRequired i inner)
      (fun _ t => ∃ events, Adds s t events ∧ Broken (text (entryOf m bh i).partname) events) := by
  rw [updateFromEntry_eq cfg P (getEntryData_update blob small)]
  apply ends_after_silent (prepareImage_silent cfg P _ _)
  · intro e t adds
    exact ⟨[], adds, Or.inl rfl⟩
  · intro _ t adds
    apply Ends.mono (updating_ends (Q := WritesAll cfg P m bh s.static.updateSlotSuffix s.static.isRequired i) ?_)
    · intro _ u ended
      obtain ⟨inner, adds', holds⟩ := ended
      exact ⟨inner, adds.trans adds', holds⟩
    · intro _ u ended
      obtain ⟨events, adds', holds⟩ := ended
      exact ⟨events, adds.trans adds', holds⟩
    · intro u static
      have same : u.static = s.static := static.trans adds.static
      rw [← same]
      exact writeImage_writing cfg P (s := u) (fun ab => by rw [same]; exact decided ab) i

def Finds (s : State σ) (spec : Text) : Prop :=
  (s.static.globalNctSpec ≠ [] ∧ spec = s.static.globalNctSpec) ∨
    (s.static.globalNctSpec = [] ∧ ∃ found env, P.nctGetSpec s.env = (.ok found, env) ∧ spec = specText found)

def learned (s : State σ) (spec : Text) : Static := { s.static with globalNctSpec := spec }

theorem specText_ne_nil (spec : Text × Text) : specText spec ≠ [] := by
  intro empty
  have length := congrArg List.length empty
  simp [specText, maxSpecLength] at length

theorem Finds.ne_nil (finds : Finds P s spec) : spec ≠ [] := by
  obtain ⟨known, rfl⟩ | ⟨-, found, -, -, rfl⟩ := finds
  · exact known
  · exact specText_ne_nil found

/-- The lookup of the spec fails at the turn of `name`. -/
structure Misses (name : List UInt8) (s t : State σ) : Prop where
  unknown : s.static.globalNctSpec = []
  lookup : ∃ e, P.nctGetSpec s.env = (.error e, t.env)
  adds : Adds s t [.noSpec (shortName name)]

theorem specOrNone_ends (name : List UInt8) : Ends (specOrNone P name) s (fun r t => (r = none ∧ Misses P name s t) ∨
        ∃ spec, r = some spec ∧ Finds P s spec ∧ t.static = learned s spec ∧ t.log = s.log) (fun _ _ => False) := by
  by_cases known : s.static.globalNctSpec = []
  · cases answer : P.nctGetSpec s.env with
    | mk found env =>
      cases found with
      | error e =>
        apply ends_of_ok (a := none) (t := { s with env := env, log := s.log ++ [.noSpec (shortName name)] })
        · simp [specOrNone, getSpecInfo, known, answer]
        · exact Or.inl ⟨rfl, known, ⟨e, answer⟩, rfl, rfl⟩
      | ok found =>
        apply ends_of_ok (a := some (specText found))
          (t := { s with env := env, static := learned s (specText found) })
        · simp [specOrNone, getSpecInfo, known, answer, learned]
        · exact Or.inr ⟨_, rfl, Or.inr ⟨known, found, env, answer, rfl⟩, rfl, rfl⟩
  · apply ends_of_ok (a := some s.static.globalNctSpec) (t := s)
    · simp [specOrNone, getSpecInfo, known]
    · exact Or.inr ⟨_, rfl, Or.inl ⟨known, rfl⟩, rfl, rfl⟩

inductive Turned (m : Mem) (bh : BlobInfo) (n : Nat) (name : List UInt8) (s t : State σ) : Prop
  | noSpec (misses : Misses P name s t)
  | notFound (spec : Text) (finds : Finds P s spec)
      (none : firstSuiting m bh spec P.nvProductionMode name n = none)
      (static : t.static = learned s spec) (log : t.log = s.log)
  | updated (spec : Text) (finds : Finds P s spec) (i : Nat) (inner : List Event)
      (first : firstSuiting m bh spec P.nvProductionMode name n = some i)
      (static : t.static = learned s spec)
      (log : t.log = s.log ++ updateEvents (text (entryOf m bh i).partname) inner .none)
      (quiet : Quiet inner) (all : WritesAll cfg P m bh s.static.updateSlotSuffix s.static.isRequired i inner)

def Failed (m : Mem) (bh : BlobInfo) (n : Nat) (name : List UInt8) (s t : State σ) : Prop :=
  ∃ spec i events, Finds P s spec ∧ firstSuiting m bh spec P.nvProductionMode name n = some i ∧
    t.static = learned s spec ∧ t.log = s.log ++ events ∧ Broken (text (entryOf m bh i).partname) events

theorem updatePartition_ends (blob : UpdateBlob m bh) (decided : Decided cfg s) (name : List UInt8)
    (numEntries : UInt32) : Ends (updatePartition cfg P m bh name numEntries) s
      (fun _ t => Turned cfg P m bh numEntries.toNat name s t)
      (fun _ t => Failed P m bh numEntries.toNat name s t) := by
  apply ends_bind (Ends.mono (specOrNone_ends P name) (fun _ _ holds => holds) fun _ _ => False.elim)
  intro r t outcome
  obtain ⟨rfl, misses⟩ | ⟨spec, rfl, finds, static, log⟩ := outcome
  · exact ends_pure (.noSpec misses)
  · have search := findEntry_eq P blob name spec (i := 0) (n := numEntries.toNat)
      (by have := numEntries.toNat_lt; omega)
    rw [← List.range_eq_range'] at search
    change findEntry P m bh name spec 0 numEntries.toNat =
      .ok ((firstSuiting m bh spec P.nvProductionMode name numEntries.toNat).map _) at search
    cases first : firstSuiting m bh spec P.nvProductionMode name numEntries.toNat with
    | none =>
      rw [first] at search
      simp only [search, Option.map_none]
      exact ends_pure (.notFound spec finds first static log)
    | some i =>
      rw [first] at search
      simp only [search, Option.map_some]
      have inside := (suits_of_firstSuiting first).1
      have decided' : Decided cfg t := by
        intro ab
        rw [static]
        exact decided ab
      apply Ends.mono (updateFromEntry_ends cfg P blob decided' (show i < 2 ^ 32 by
        have := numEntries.toNat_lt; omega))
      · intro _ u ended
        obtain ⟨inner, adds, quiet, all⟩ := ended
        rw [static] at all
        exact .updated spec finds i inner first (adds.static.trans static) (by rw [adds.log, log]) quiet all
      · intro _ u ended
        obtain ⟨events, adds, broken⟩ := ended
        exact ⟨spec, i, events, finds, first, adds.static.trans static, by rw [adds.log, log], broken⟩

end

end Cboot.BlUpdate
