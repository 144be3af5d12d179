import Cboot.Fastboot.Names
import Cboot.Sparse.Decode

/-!
An image says which byte belongs at which offset of the partition. The answer OKAY after a raw image says nothing, since
what the write returns is dropped.
-/

namespace Cboot.Fastboot
open PartitionManager Lib Lib.Attempt
open Sparse (Output)

def placed : Nat → List Output → List (Nat × UInt8)
  | _, [] => []
  | start, .byte b :: rest => (start, b) :: placed (start + 1) rest
  | start, .skip size :: rest => placed (start + size) rest

/-- Which byte an image has for which offset, `none` for a sparse image that is not complete. -/
def layout (image : List UInt8) : Option (List (Nat × UInt8)) :=
  if tegrablSparseImageCheck image then
    (Sparse.parseImage image).map fun pieces => placed 0 (pieces.flatMap Sparse.Piece.output)
  else some (placed 0 (image.map .byte))

theorem placed_bytes (bytes : List UInt8) (out : List Output) (start : Nat) : placed start (bytes.map .byte ++ out) =
      placed start (bytes.map .byte) ++ placed (start + bytes.length) out := by
  induction bytes generalizing start with
  | nil => rfl
  | cons b rest ih =>
    show (start, b) :: placed (start + 1) (rest.map .byte ++ out) = _
    rw [ih]
    simp [placed, Nat.add_assoc, Nat.add_comm 1]

theorem mem_placed_bytes {bytes : List UInt8} {start : Nat} {place : Nat × UInt8} :
    place ∈ placed start (bytes.map .byte) ↔ ∃ i, bytes[i]? = some place.2 ∧ place.1 = start + i := by
  induction bytes generalizing start with
  | nil => simp [placed]
  | cons b rest ih =>
    show place ∈ (start, b) :: placed (start + 1) (rest.map .byte) ↔ _
    rw [List.mem_cons, ih]
    constructor
    · rintro (rfl | ⟨i, found, offset⟩)
      · exact ⟨0, rfl, rfl⟩
      · exact ⟨i + 1, found, by omega⟩
    · rintro ⟨i, found, offset⟩
      cases i with
      | zero =>
        refine .inl (Prod.ext offset ?_)
        simpa using found.symm
      | succ i => exact .inr ⟨i, found, by omega⟩

theorem placed_fits {bytes : List UInt8} {start size : Nat} (some : bytes ≠ [])
    (inside : ∀ place ∈ placed start (bytes.map .byte), place.1 < size) : start + bytes.length ≤ size := by
  have pos := List.length_pos_iff.mpr some
  have last : bytes[bytes.length - 1]? = .some (bytes.getLast some) := by
    rw [List.getLast_eq_getElem, List.getElem?_eq_getElem (by omega)]
  have := inside (start + (bytes.length - 1), bytes.getLast some) (mem_placed_bytes.mpr ⟨_, last, rfl⟩)
  dsimp only at this
  omega

section
variable {storage : Storage} {dev : Blockdev.Bdev} {start : UInt64} {offset : Nat} {bytes : List UInt8}

theorem put_before {k : Nat} (before : k < offset) (inside : offset + bytes.length ≤ 2 ^ 64) :
    storage.put dev (UInt64.ofNat offset + start) bytes dev (start + UInt64.ofNat k) =
      storage dev (start + UInt64.ofNat k) := by
  unfold Storage.put
  rw [if_pos rfl]
  refine List.getD_eq_default _ _ ?_
  rw [UInt64.toNat_sub, UInt64.toNat_add, UInt64.toNat_add, UInt64.toNat_ofNat', UInt64.toNat_ofNat']
  omega

theorem put_inside {i : Nat} {b : UInt8} (found : bytes[i]? = some b) (inside : offset + bytes.length ≤ 2 ^ 64) :
    storage.put dev (UInt64.ofNat offset + start) bytes dev (start + UInt64.ofNat (offset + i)) = b := by
  have small := (List.getElem?_eq_some_iff.mp found).1
  have place : (start + UInt64.ofNat (offset + i) - (UInt64.ofNat offset + start)).toNat = i := by
    rw [UInt64.toNat_sub, UInt64.toNat_add, UInt64.toNat_add, UInt64.toNat_ofNat', UInt64.toNat_ofNat']
    omega
  unfold Storage.put
  rw [if_pos rfl, place, List.getD_eq_getElem?_getD, found]
  rfl

end

section
variable {σ : Type} {P : Platform σ} {p p' : Partition} {s s' : State σ} {info : PartitionInfo}
  {dev : Blockdev.Bdev}

theorem partitionWrite_cases (P : Platform σ) (bytes : List UInt8) (s : State σ)
    (named : p.info = some info) (device : p.blockDevice = some dev) :
    (UInt64.ofNat bytes.length = 0 ∨ info.totalSize < UInt64.ofNat bytes.length + p.offset) ∧
      (tegrablFastbootPartitionWrite P bytes p s).result.isOk = false ∧
      (tegrablFastbootPartitionWrite P bytes p s).rest.storage = s.storage ∨
    UInt64.ofNat bytes.length ≠ 0 ∧ UInt64.ofNat bytes.length + p.offset ≤ info.totalSize ∧
      (tegrablFastbootPartitionWrite P bytes p s).partition =
        some { p with offset := p.offset + UInt64.ofNat bytes.length } ∧
      ((P.deviceWrite dev (p.offset + startByte info dev) bytes s.world).1 = none ∧
        (tegrablFastbootPartitionWrite P bytes p s).result.isOk = true ∧
        (tegrablFastbootPartitionWrite P bytes p s).rest.storage =
          s.storage.put dev (p.offset + startByte info dev) bytes ∨
      ∃ fault, (P.deviceWrite dev (p.offset + startByte info dev) bytes s.world).1 = some fault ∧
        (tegrablFastbootPartitionWrite P bytes p s).result.isOk = false ∧
        (tegrablFastbootPartitionWrite P bytes p s).rest.storage = fault.damage s.storage) := by
  unfold tegrablFastbootPartitionWrite tegrablPartitionWrite
  dsimp only
  split
  · rename_i refused
    exact .inl ⟨.inl (refused.resolve_left (by decide)), rfl, rfl⟩
  rename_i accepted
  rw [named, device]
  dsimp only
  split
  · rename_i past
    exact .inl ⟨.inr past, rfl, rfl⟩
  rename_i inside
  refine .inr ⟨(not_or.mp accepted).2, UInt64.not_lt.mp inside, rfl, ?_⟩
  rw [run_mediaIo]
  unfold mediaWrite
  dsimp only
  cases written : (P.deviceWrite dev (p.offset + startByte info dev) bytes s.world).1 with
  | none => exact .inl ⟨rfl, rfl, rfl⟩
  | some fault => exact .inr ⟨fault, rfl, rfl, rfl⟩

theorem writer_ok {bytes : List UInt8} (named : p.info = some info) (device : p.blockDevice = some dev)
    (written : (flashCallbacks P).writer bytes (p, s) = (none, (p', s'))) :
    bytes ≠ [] ∧ p' = { p with offset := p.offset + UInt64.ofNat bytes.length } ∧
      s'.storage = s.storage.put dev (p.offset + startByte info dev) bytes := by
  have fine : (tegrablFastbootPartitionWrite P bytes p s).result.isOk = true := by
    by_contra failed
    change (if _ then none else some (1 : UInt32), _) = _ at written
    rw [if_neg failed] at written
    cases written
  have handle : (tegrablFastbootPartitionWrite P bytes p s).partition.getD p = p' :=
    congrArg (fun done => done.2.1) written
  have rest : (tegrablFastbootPartitionWrite P bytes p s).rest = s' :=
    congrArg (fun done => done.2.2) written
  rcases partitionWrite_cases P bytes s named device with ⟨-, failed, -⟩ | ⟨some, -, moved, ends⟩
  · rw [fine] at failed
    cases failed
  rw [moved] at handle
  refine ⟨?_, handle.symm, ?_⟩
  · intro empty
    rw [empty] at some
    exact some rfl
  rcases ends with ⟨-, -, stored⟩ | ⟨fault, -, failed, -⟩
  · rw [← rest, stored]
  · rw [fine] at failed
    cases failed

theorem seeker_ok {size : Nat} (moved : (flashCallbacks P).seeker size (p, s) = (none, (p', s'))) :
    p' = { p with offset := p.offset + UInt64.ofNat size } ∧ s' = s := by
  have rest : (tegrablFastbootPartitionSeek size p s).rest = s' :=
    congrArg (fun done => done.2.2) moved
  rw [partitionSeek_rest] at rest
  refine ⟨?_, rest.symm⟩
  change called p (tegrablFastbootPartitionSeek size p s) = _ at moved
  unfold tegrablFastbootPartitionSeek tegrablPartitionSeek at moved
  dsimp only at moved
  split at moved
  · rename_i info _ _ _
    rw [show seekBase info p seekCur = some p.offset.toInt64 from rfl] at moved
    dsimp only at moved
    split at moved
    · cases moved
    split at moved
    · cases moved
    · cases moved
      rw [Int64.toUInt64_add, UInt64.toUInt64_toInt64, Int64.toUInt64_ofNat']
      rfl
  · cases moved

theorem did_storage {out : List Output} {a b : Partition × State σ}
    (did : Sparse.Did (flashCallbacks P) out a b) {start : Nat} (named : a.1.info = some info)
    (device : a.1.blockDevice = some dev) (offset : a.1.offset = UInt64.ofNat start)
    (inside : ∀ place ∈ placed start out, place.1 < info.totalSize.toNat) : (∀ place ∈ placed start out,
      b.2.storage dev (startByte info dev + UInt64.ofNat place.1) = place.2) ∧ ∀ k < start, k < info.totalSize.toNat →
      b.2.storage dev (startByte info dev + UInt64.ofNat k) =
        a.2.storage dev (startByte info dev + UInt64.ofNat k) := by
  induction did generalizing start with
  | nil aux =>
    refine ⟨?_, fun _ _ _ => rfl⟩
    intro place mem
    cases mem
  | @write bytes out aux aux₁ aux₂ written _ ih =>
    obtain ⟨some, moved, stored⟩ := writer_ok named device written
    rw [placed_bytes] at inside ⊢
    have fits := placed_fits some fun place mem => inside place (List.mem_append_left _ mem)
    have bound := info.totalSize.toNat_lt
    have next : aux₁.1.offset = UInt64.ofNat (start + bytes.length) := by
      rw [moved, offset, UInt64.ofNat_add]
    obtain ⟨later, before⟩ := ih (by rw [moved]; exact named) (by rw [moved]; exact device) next
      fun place mem => inside place (List.mem_append_right _ mem)
    rw [offset] at stored
    constructor
    · intro place mem
      rcases List.mem_append.mp mem with here | there
      · obtain ⟨i, found, offset⟩ := mem_placed_bytes.mp here
        have small := (List.getElem?_eq_some_iff.mp found).1
        rw [offset, before _ (by omega) (by omega), stored, put_inside found (by omega)]
      · exact later place there
    · intro k earlier small
      rw [before k (by omega) small, stored, put_before earlier (by omega)]
  | @seek size out aux aux₁ aux₂ sought _ ih =>
    obtain ⟨moved, same⟩ := seeker_ok sought
    have next : aux₁.1.offset = UInt64.ofNat (start + size) := by
      rw [moved, offset, UInt64.ofNat_add]
    obtain ⟨later, before⟩ := ih (by rw [moved]; exact named) (by rw [moved]; exact device) next inside
    refine ⟨later, ?_⟩
    intro k earlier small
    rw [before k (by omega) small, same]

def Event.isOkay : Event → Bool
  | .sent .okay _ => true
  | _ => false

def okays (log : List Event) : Nat := log.countP Event.isOkay

def Okay (s t : State σ) : Prop := okays s.log < okays t.log

theorem okays_snoc (log : List Event) {e : Event} (other : e.isOkay = false) : okays (log ++ [e]) = okays log := by
  simp [okays, other]

theorem Wrote.okays {t : State σ} (wrote : Wrote s t) : okays t.log = Fastboot.okays s.log := by
  obtain ⟨storage, w, writes, rfl, all⟩ := wrote
  have none : writes.countP Event.isOkay = 0 := by
    refine List.countP_eq_zero.mpr ?_
    intro e mem
    obtain ⟨partition, bytes, rfl⟩ := all e mem
    simp [Event.isOkay]
  simp [Fastboot.okays, none]

theorem ack_storage (P : Platform σ) (code : Code) (reason : Text) (s : State σ) :
    ((fastbootAck P code reason).run s).2.storage = s.storage := by
  unfold fastbootAck
  rw [run_bind_ok (show get.run s = (.ok s, s) from rfl)]
  split <;> rfl

theorem fail_okays (P : Platform σ) (reason : String) (s : State σ) :
    okays ((fastbootFail P reason).run s).2.log = okays s.log := by
  unfold fastbootFail fastbootAck
  rw [run_bind_ok (show get.run s = (.ok s, s) from rfl)]
  split
  · exact okays_snoc s.log rfl
  · rfl

theorem exit_storage (P : Platform σ) (error : Bool) (s : State σ) :
    ((flashExit P error).run s).2.storage = s.storage := by
  unfold flashExit
  split
  · exact ack_storage P _ _ s
  · exact ack_storage P _ _ s

def Written (partition : Partition) (image : List UInt8) (storage : Storage) : Prop :=
  ∃ info dev bytes, partition.info = some info ∧ partition.blockDevice = some dev ∧
    layout image = some bytes ∧ ∀ place ∈ bytes, place.1 < info.totalSize.toNat ∧
      storage dev (startByte info dev + UInt64.ofNat place.1) = place.2

def Taken (P : Platform σ) (partition : Partition) (image : List UInt8) (s : State σ) : Prop :=
  ∃ info dev bytes, partition.info = some info ∧ partition.blockDevice = some dev ∧
    layout image = some bytes ∧ (∀ place ∈ bytes, place.1 < info.totalSize.toNat) ∧
    (tegrablSparseImageCheck image = false →
      ∀ fault, (P.deviceWrite dev (startByte info dev) image s.world).1 = some fault → ∀ place ∈ bytes,
          fault.damage s.storage dev (startByte info dev + UInt64.ofNat place.1) = place.2)

variable {image : List UInt8} {bytes : List (Nat × UInt8)}

theorem written_iff {storage : Storage}
    (named : p.info = some info) (device : p.blockDevice = some dev) (laid : layout image = some bytes) :
    Written p image storage ↔ ∀ place ∈ bytes, place.1 < info.totalSize.toNat ∧
      storage dev (startByte info dev + UInt64.ofNat place.1) = place.2 := by
  unfold Written
  rw [named, device, laid]
  simp

theorem taken_iff (named : p.info = some info)
    (device : p.blockDevice = some dev) (laid : layout image = some bytes) :
    Taken P p image s ↔ (∀ place ∈ bytes, place.1 < info.totalSize.toNat) ∧ (tegrablSparseImageCheck image = false →
        ∀ fault, (P.deviceWrite dev (startByte info dev) image s.world).1 = some fault → ∀ place ∈ bytes,
            fault.damage s.storage dev (startByte info dev + UInt64.ofNat place.1) = place.2) := by
  unfold Taken
  rw [named, device, laid]
  simp

theorem raw_written (raw : tegrablSparseImageCheck image = false)
    (small : image.length < 2 ^ 64) (named : p.info = some info) (device : p.blockDevice = some dev)
    (start : p.offset = UInt64.ofNat 0) : Written p image ((flashRaw P p image).run s).2.storage ↔ Taken P p image s := by
  have laid : layout image = some (placed 0 (image.map .byte)) := by
    unfold layout
    rw [raw]
    rfl
  have after : ((flashRaw P p image).run s).2.storage =
      (tegrablFastbootPartitionWrite P image p s).rest.storage := exit_storage P false _
  rw [after, written_iff named device laid, taken_iff named device laid]
  by_cases empty : image = []
  · simp [empty, placed]
  by_cases fits : image.length ≤ info.totalSize.toNat
  · have inside : ∀ place ∈ placed 0 (image.map .byte), place.1 < info.totalSize.toNat := by
      intro place mem
      obtain ⟨i, found, offset⟩ := mem_placed_bytes.mp mem
      have := (List.getElem?_eq_some_iff.mp found).1
      omega
    have length : (UInt64.ofNat image.length).toNat = image.length := UInt64.toNat_ofNat_of_lt' small
    have bound := info.totalSize.toNat_lt
    have zero : UInt64.ofNat 0 + startByte info dev = startByte info dev := UInt64.zero_add _
    rcases partitionWrite_cases P image s named device with ⟨refused, -⟩ | ⟨-, -, -, ends⟩
    · exfalso
      have pos := List.length_pos_iff.mpr empty
      rcases refused with none | past
      · rw [none, UInt64.toNat_zero] at length
        omega
      · have more := UInt64.lt_iff_toNat_lt.mp past
        rw [start, UInt64.toNat_add, length] at more
        change info.totalSize.toNat < (image.length + 0) % 2 ^ 64 at more
        omega
    rw [start] at ends
    rcases ends with ⟨fine, -, stored⟩ | ⟨fault, failed, -, stored⟩
    · rw [zero] at fine
      rw [fine, stored]
      constructor
      · intro _
        refine ⟨inside, ?_⟩
        intro _ fault same
        cases same
      · intro _ place mem
        obtain ⟨i, found, offset⟩ := mem_placed_bytes.mp mem
        refine ⟨inside place mem, ?_⟩
        rw [offset]
        exact put_inside found (by omega)
    · rw [zero] at failed
      rw [failed, stored]
      constructor
      · intro written
        refine ⟨inside, ?_⟩
        intro _ other same place mem
        cases same
        exact (written place mem).2
      · intro taken place mem
        exact ⟨inside place mem, taken.2 raw fault rfl place mem⟩
  · constructor
    · intro written
      exact absurd (placed_fits empty fun place mem => (written place mem).1) (by omega)
    · intro taken
      exact absurd (placed_fits empty taken.1) (by omega)

theorem sparse_written (sparse : tegrablSparseImageCheck image = true)
    (named : p.info = some info) (device : p.blockDevice = some dev) (start : p.offset = UInt64.ofNat 0)
    (okay : Okay s ((flashSparse P p image).run s).2) :
    Written p image ((flashSparse P p image).run s).2.storage ↔ Taken P p image s := by
  have laid : layout image = (Sparse.parseImage image).map fun pieces =>
      placed 0 (pieces.flatMap Sparse.Piece.output) := by
    unfold layout
    rw [sparse]
    rfl
  unfold flashSparse at okay ⊢
  cases init : Sparse.tegrablSparseInitUnsparseState (UInt64.ofNat (partitionSize p)) true with
  | error e =>
    rw [init] at okay
    exact absurd okay (Nat.lt_irrefl _)
  | ok st =>
    rw [init] at okay
    dsimp only at okay ⊢
    have fresh := Sparse.init_ok init
    subst fresh
    generalize made : Sparse.tegrablSparseUnsparse P.sparseCrc (flashCallbacks P)
      (.initial (UInt64.ofNat (partitionSize p)) true) image (p, s) = done
    have quiet : okays done.aux.2.log = okays s.log := by
      have kept := Sparse.keep_unsparse P.sparseCrc (keep_flashCallbacks P)
        (.initial (UInt64.ofNat (partitionSize p)) true) image (p, s)
      rw [made] at kept
      exact Wrote.okays kept
    have ran : (unsparseTo P p (.initial (UInt64.ofNat (partitionSize p)) true) image).run s =
        unsparseEnd done := congrArg unsparseEnd made
    have silent {t : State σ} (same : okays t.log = okays done.aux.2.log) : ¬ Okay s t := by
      unfold Okay
      omega
    unfold unsparseEnd at ran
    cases outcome : done.outcome with
    | returns error =>
      rw [outcome] at ran
      rw [run_bind_ok ran] at okay ⊢
      cases error with
      | some e => exact absurd okay (silent (fail_okays P _ _))
      | none =>
        rw [exit_storage]
        cases parsed : Sparse.parseImage image with
        | none =>
          rw [parsed] at laid
          unfold Written Taken
          rw [laid]
          simp
        | some pieces =>
          rw [parsed] at laid
          rw [written_iff named device laid, taken_iff named device laid]
          constructor
          · intro written
            refine ⟨fun place mem => (written place mem).1, ?_⟩
            intro raw
            rw [sparse] at raw
            cases raw
          · intro taken place mem
            have returns : (Sparse.tegrablSparseUnsparse P.sparseCrc (flashCallbacks P)
                (.initial (UInt64.ofNat (partitionSize p)) true) image (p, s)).outcome = .returns none := by
              rw [made, outcome]
            have did := Sparse.unsparse_did parsed returns
            rw [made] at did
            exact ⟨taken.1 place mem, (did_storage did named device start taken.1).1 place mem⟩
    | overrun =>
      rw [outcome] at ran
      rw [run_bind_error ran] at okay
      exact absurd okay (silent rfl)
    | hangs =>
      rw [outcome] at ran
      rw [run_bind_error ran] at okay
      exact absurd okay (silent rfl)

theorem image_length (s : State σ) : s.image.length ≤ s.downloadSize := by
  unfold State.image
  cases s.downloadBase with
  | none => exact Nat.zero_le _
  | some base => exact List.length_take_le _ _

theorem run_flash {arg : Text} (unlocked : ¬ P.Locked s.world) (memory : s.downloadBase ≠ none)
    (size : s.downloadSize ≠ 0) (opened : openPartition P.published (flashName arg) = some p) : (cmdFlash P arg).run s =
      (flashImage P p s.image).run { s.asked P with log := s.log ++ [.opened p] } := by
  obtain ⟨w, same⟩ := asked_eq P s
  unfold cmdFlash
  rw [whenUnlocked_allowed unlocked, same, run_bind_ok (show get.run _ = (.ok _, _) from rfl)]
  have there : ¬ (s.downloadBase.isNone || s.downloadSize == 0) = true := by
    simp [memory, size]
  rw [if_neg there]
  dsimp only
  unfold flashName at opened
  split
  · rename_i payload
    rw [if_pos payload] at opened
    cases opened
  · rename_i other
    rw [if_neg other] at opened
    unfold flashPartition
    cases found : tegrablFastbootGetPartinfo arg with
    | none =>
      rw [found] at opened
      cases opened
    | some partinfo =>
      rw [found, Option.bind_some] at opened
      dsimp only
      rw [run_bind_ok (run_open P _ _), opened]
      rfl

theorem image_written (small : image.length < 2 ^ 64) (named : p.info = some info)
    (device : p.blockDevice = some dev) (start : p.offset = UInt64.ofNat 0)
    (okay : Okay s ((flashImage P p image).run s).2) :
    Written p image ((flashImage P p image).run s).2.storage ↔ Taken P p image s := by
  let t : State σ := { s with log := s.log ++ [.flashed image] }
  have noted : (flashImage P p image).run s = (if tegrablSparseImageCheck image then flashSparse P p image
      else flashRaw P p image).run t := run_bind_ok rfl
  have quiet : okays t.log = okays s.log := okays_snoc s.log rfl
  rw [noted] at okay ⊢
  show _ ↔ Taken P p image t
  split
  · rename_i sparse
    rw [if_pos sparse] at okay
    refine sparse_written sparse named device start ?_
    unfold Okay at okay ⊢
    rwa [quiet]
  · rename_i raw
    exact raw_written (Bool.eq_false_iff.mpr raw) small named device start

/-- When the flash command answers OKAY for a partition, the image is in the partition exactly if the
partition takes it. -/
theorem flash_written {arg : Text} {partition : Partition} (typed : s.downloadSize < 2 ^ 32)
    (opens : opened (cmdFlash P arg) s = [partition]) (okay : Okay s ((cmdFlash P arg).run s).2) :
    Written partition s.image ((cmdFlash P arg).run s).2.storage ↔ Taken P partition s.image (s.asked P) := by
  have unlocked : ¬ P.Locked s.world := by
    intro locked
    rw [show opened (cmdFlash P arg) s = [] from locked_opens P locked _] at opens
    cases opens
  have memory : s.downloadBase ≠ none := by
    intro none
    rw [flash_empty arg (.inl none)] at opens
    cases opens
  have size : s.downloadSize ≠ 0 := by
    intro zero
    rw [flash_empty arg (.inr zero)] at opens
    cases opens
  rw [flash_opens arg unlocked memory size] at opens
  have opened : openPartition P.published (flashName arg) = some partition :=
    Option.mem_toList.mp (by rw [opens]; exact List.mem_singleton_self partition)
  obtain ⟨info, dev, rfl⟩ := openPartition_eq_some opened
  have small : s.image.length < 2 ^ 64 := by
    have := image_length s
    omega
  rw [run_flash unlocked memory size opened] at okay ⊢
  refine (image_written small rfl rfl rfl ?_).trans Iff.rfl
  unfold Okay at okay ⊢
  rwa [show okays _ = okays s.log from okays_snoc s.log rfl]

end

/-- Four bytes on a device that takes them. -/
theorem flash_written_raw : Written ⟨some ⟨ascii "boot_a", [], [], 0, 2, 1024⟩, some Blockdev.smallDisk, 0⟩ [1, 2, 3, 4]
      ((cmdFlash (scripted (oneDisk ["boot_a"])) (ascii "boot")).run (downloaded [1, 2, 3, 4])).2.storage := by
  refine (flash_written (s := downloaded [1, 2, 3, 4]) (by decide) (by decide)
    (by unfold Okay; decide)).mpr ⟨_, _, placed 0 ([1, 2, 3, 4].map .byte), rfl, rfl, ?_, ?_, ?_⟩
  · decide
  · decide
  · intro _ fault failed
    cases failed

def broken : Platform Script :=
  { scripted (oneDisk ["boot_a"]) with deviceWrite := fun _ _ _ w => (some ⟨⟨.invalid, 0⟩, id⟩, w) }

/-- The write of a raw image fails, and a sparse image ends before its only chunk. -/
theorem flash_unwritten :
    (∃ partition, opened (cmdFlash broken (ascii "boot")) (downloaded [1, 2, 3, 4]) = [partition] ∧
      Okay (downloaded [1, 2, 3, 4]) ((cmdFlash broken (ascii "boot")).run (downloaded [1, 2, 3, 4])).2 ∧
      ¬ Written partition [1, 2, 3, 4] ((cmdFlash broken (ascii "boot")).run (downloaded [1, 2, 3, 4])).2.storage) ∧
    ∃ partition image, image = Sparse.headerImage 1 1 ∧
      opened (cmdFlash (scripted (oneDisk ["boot_a"])) (ascii "boot")) (downloaded image) = [partition] ∧
      Okay (downloaded image) ((cmdFlash (scripted (oneDisk ["boot_a"])) (ascii "boot")).run (downloaded image)).2 ∧
      ¬ Written partition image
        ((cmdFlash (scripted (oneDisk ["boot_a"])) (ascii "boot")).run (downloaded image)).2.storage := by
  constructor
  · refine ⟨⟨some ⟨ascii "boot_a", [], [], 0, 2, 1024⟩, some Blockdev.smallDisk, 0⟩, by decide,
      by unfold Okay; decide, ?_⟩
    intro written
    rw [written_iff rfl rfl (show layout [1, 2, 3, 4] = some (placed 0 ([1, 2, 3, 4].map .byte)) by
      decide)] at written
    have first := (written (0, 1) (by decide)).2
    exact absurd first (by decide)
  · refine ⟨⟨some ⟨ascii "boot_a", [], [], 0, 2, 1024⟩, some Blockdev.smallDisk, 0⟩,
      Sparse.headerImage 1 1, rfl, by decide +kernel, by unfold Okay; decide +kernel, ?_⟩
    intro written
    obtain ⟨info, dev, bytes, -, -, laid, -⟩ := written
    have none : layout (Sparse.headerImage 1 1) = none := by decide
    rw [none] at laid
    cases laid

end Cboot.Fastboot
