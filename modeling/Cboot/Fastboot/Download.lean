import Cboot.Fastboot.Answers
import Cboot.Fastboot.Locked

/-!
The buffer is allocated for the first download and kept. A later download may ask for more, and the size is read in 32
bits.
-/

namespace Cboot.Fastboot
open Lib Lib.Attempt

def hexValueFrom (n : Nat) : Text → Nat
  | [] => n
  | x :: rest =>
    match hexDigit x with
    | some d => hexValueFrom (16 * n + d.toNat) rest
    | none => n

def hexValue (x : Text) : Nat := hexValueFrom 0 x

theorem hexDigit_lt {x : UInt8} {d : UInt32} (digit : hexDigit x = some d) : d.toNat < 16 := by
  have cast (y : UInt8) : y.toUInt32.toNat = y.toNat := rfl
  unfold hexDigit at digit
  split at digit
  · rename_i range
    obtain ⟨low, high⟩ := range
    cases digit
    rw [cast, UInt8.toNat_sub_of_le _ _ low]
    have := UInt8.le_iff_toNat_le.mp high
    simp only [UInt8.reduceToNat] at *
    omega
  split at digit
  · rename_i range
    obtain ⟨low, high⟩ := range
    cases digit
    rw [cast, UInt8.toNat_add, UInt8.toNat_sub_of_le _ _ low]
    have := UInt8.le_iff_toNat_le.mp high
    simp only [UInt8.reduceToNat] at *
    omega
  split at digit
  · rename_i range
    obtain ⟨low, high⟩ := range
    cases digit
    rw [cast, UInt8.toNat_add, UInt8.toNat_sub_of_le _ _ low]
    have := UInt8.le_iff_toNat_le.mp high
    simp only [UInt8.reduceToNat] at *
    omega
  · cases digit

theorem shift_digit (n d : UInt32) (small : d.toNat < 16) :
    (n <<< 4 ||| d).toNat = (16 * n.toNat + d.toNat) % 2 ^ 32 := by
  have shifted : (n <<< 4).toNat = (n.toNat % 2 ^ 28) <<< 4 := by
    rw [UInt32.toNat_shiftLeft]
    simp only [UInt32.reduceToNat, Nat.reduceMod, Nat.shiftLeft_eq]
    omega
  rw [UInt32.toNat_or, shifted, ← Nat.shiftLeft_add_eq_or_of_lt (by omega), Nat.shiftLeft_eq]
  omega

theorem hexFrom_toNat (x : Text) {n : UInt32} {m : Nat} (same : n.toNat = m % 2 ^ 32) :
    (hexFrom n x).toNat = hexValueFrom m x % 2 ^ 32 := by
  induction x generalizing n m with
  | nil => exact same
  | cons c rest ih =>
    unfold hexFrom hexValueFrom
    cases digit : hexDigit c with
    | none => exact same
    | some d =>
      refine ih ?_
      rw [shift_digit n d (hexDigit_lt digit), same]
      omega

theorem hex2uint32_toNat (x : Text) : (hex2uint32 x).toNat = hexValue x % 2 ^ 32 :=
  hexFrom_toNat x rfl

example : (hex2uint32 (ascii "100000004")).toNat = 4 := by decide

def Event.brings (last : Option (List UInt8)) : Event → Option (List UInt8)
  | .bulk _ _ bytes full => if full then some bytes else none
  | _ => last

def latest (log : List Event) : Option (List UInt8) := log.foldl Event.brings none

def Event.begins (last : Option (List UInt8)) : Event → Option (List UInt8)
  | .received buffer => some buffer
  | _ => last

def current (log : List Event) : Option (List UInt8) := log.foldl Event.begins none

def downloadPrefix : Text := ascii "download:"

def downloadArg (buffer : List UInt8) : Text := text (buffer.drop downloadPrefix.length)

/-- What the buffer and the size are used for after a log: a transfer fits what was allocated, an
announcement is the number that the command denotes, and what is flashed came with the last
transfer. -/
def Event.Fine (log : List Event) : Event → Prop
  | .bulk room len _ _ => len ≤ room
  | .sent .data number => ∃ buffer, current log = some buffer ∧ downloadPrefix <+: buffer ∧
    number = hexWord (hexValue (downloadArg buffer))
  | .flashed image => latest log = some image
  | .updated image _ => latest log = some image
  | _ => True

inductive Sound : List Event → Prop
  | nil : Sound []
  | snoc {log : List Event} {e : Event} : Sound log → e.Fine log → Sound (log ++ [e])

theorem latest_snoc (log : List Event) (e : Event) : latest (log ++ [e]) = e.brings (latest log) := by
  unfold latest
  rw [List.foldl_append]
  rfl

theorem current_snoc (log : List Event) (e : Event) : current (log ++ [e]) = e.begins (current log) := by
  unfold current
  rw [List.foldl_append]
  rfl

theorem Sound.room {log : List Event} (sound : Sound log) {room len : Nat} {bytes : List UInt8}
    {full : Bool} (mem : .bulk room len bytes full ∈ log) : len ≤ room := by
  induction sound with
  | nil => cases mem
  | snoc _ fine ih =>
    rcases List.mem_append.mp mem with here | there
    · exact ih here
    · rw [← List.mem_singleton.mp there] at fine
      exact fine

section
variable {σ : Type}

structure Kept (s : State σ) : Prop where
  sound : Sound s.log
  image : s.downloadSize ≠ 0 → latest s.log = some s.image

def Event.Uses (s : State σ) : Event → Prop
  | .bulk _ _ _ _ => False
  | .sent code _ => code ≠ .data
  | .flashed image => s.downloadSize ≠ 0 ∧ image = s.image
  | .updated image _ => s.downloadSize ≠ 0 ∧ image = s.image
  | _ => True

structure Using (s t : State σ) : Prop where
  base : t.downloadBase = s.downloadBase
  size : t.downloadSize = s.downloadSize
  log : ∃ more, t.log = s.log ++ more ∧ ∀ e ∈ more, e.Uses s

variable {s t : State σ}

theorem uses_congr (base : t.downloadBase = s.downloadBase)
    (size : t.downloadSize = s.downloadSize) {e : Event} (uses : e.Uses t) : e.Uses s := by
  have image : t.image = s.image := by
    unfold State.image
    rw [base, size]
  cases e with
  | flashed data => exact ⟨size ▸ uses.1, uses.2.trans image⟩
  | updated data slot => exact ⟨size ▸ uses.1, uses.2.trans image⟩
  | _ => exact uses

theorem using_same (base : t.downloadBase = s.downloadBase)
    (size : t.downloadSize = s.downloadSize) (log : t.log = s.log) : Using s t :=
  ⟨base, size, [], by rw [log, List.append_nil], by simp⟩

theorem using_logged {e : Event} (base : t.downloadBase = s.downloadBase)
    (size : t.downloadSize = s.downloadSize) (log : t.log = s.log ++ [e]) (uses : e.Uses s) :
    Using s t := ⟨base, size, [e], log, by simpa using uses⟩

instance : IsPreorder (State σ) Using where
  refl s := using_same rfl rfl rfl
  trans s t u first second := by
    obtain ⟨more, log, uses⟩ := first.log
    obtain ⟨more', log', uses'⟩ := second.log
    refine ⟨second.base.trans first.base, second.size.trans first.size, more ++ more', ?_, ?_⟩
    · rw [log', log, List.append_assoc]
    · intro e mem
      rcases List.mem_append.mp mem with here | there
      · exact uses e here
      · exact uses_congr first.base first.size (uses' e there)

theorem kept_append (kept : Kept s) (more : List Event) (uses : ∀ e ∈ more, e.Uses s) :
    Sound (s.log ++ more) ∧ latest (s.log ++ more) = latest s.log := by
  induction more using List.reverseRecOn with
  | nil => exact ⟨by rw [List.append_nil]; exact kept.sound, by rw [List.append_nil]⟩
  | append_singleton more e ih =>
    obtain ⟨sound, same⟩ := ih fun e' mem => uses e' (List.mem_append_left _ mem)
    have used := uses e (List.mem_append_right _ (List.mem_singleton_self e))
    rw [← List.append_assoc, latest_snoc]
    cases e with
    | bulk room len bytes full => exact used.elim
    | sent code reason =>
      refine ⟨sound.snoc ?_, same⟩
      cases code with
      | data => exact absurd rfl used
      | _ => trivial
    | flashed image =>
      refine ⟨sound.snoc ?_, same⟩
      exact same.trans ((kept.image used.1).trans (congrArg some used.2.symm))
    | updated image slot =>
      refine ⟨sound.snoc ?_, same⟩
      exact same.trans ((kept.image used.1).trans (congrArg some used.2.symm))
    | _ => exact ⟨sound.snoc trivial, same⟩

theorem Kept.using (kept : Kept s) (used : Using s t) : Kept t := by
  obtain ⟨more, log, uses⟩ := used.log
  obtain ⟨sound, same⟩ := kept_append kept more uses
  refine ⟨log ▸ sound, ?_⟩
  intro downloaded
  have image : t.image = s.image := by
    unfold State.image
    rw [used.base, used.size]
  rw [log, same, image]
  exact kept.image (used.size ▸ downloaded)

theorem using_ack (P : Platform σ) (code : Code) (reason : Text) (terminal : code ≠ .data) :
    Steps Using (fastbootAck P code reason) := by
  refine Steps.bind (fun s => refl_of Using s) ?_
  intro s
  split
  · refine Steps.bind (fun s => using_same rfl rfl rfl) fun _ => Steps.bind ?_ fun _ => steps_pure _
    exact Steps.bind (fun s => using_logged rfl rfl rfl terminal) fun _ s => using_same rfl rfl rfl
  · exact steps_pure _

theorem discreet_using (P : Platform σ) : Discreet P Using where
  preorder := inferInstance
  hook _ _ := using_same rfl rfl rfl
  ack := using_ack P
  storage _ _ := using_same rfl rfl rfl
  wrote s t wrote := by
    obtain ⟨storage, w, writes, rfl, all⟩ := wrote
    refine ⟨rfl, rfl, writes, rfl, ?_⟩
    intro e mem
    obtain ⟨partition, bytes, rfl⟩ := all e mem
    trivial
  device e ofDevice := by
    intro s
    refine using_logged rfl rfl rfl ?_
    cases e with
    | opened _ => trivial
    | erased _ => trivial
    | activated _ => trivial
    | booted _ => trivial
    | _ => exact ofDevice.elim
  image s e downloaded ofImage := by
    refine using_logged rfl rfl rfl ?_
    cases e with
    | flashed _ => exact ⟨downloaded, ofImage⟩
    | updated _ _ => exact ⟨downloaded, ofImage⟩
    | _ => exact ofImage.elim

variable (P : Platform σ)

structure Cleared (s : State σ) : Prop where
  sound : Sound s.log
  size : s.downloadSize = 0

theorem Cleared.kept (cleared : Cleared s) : Kept s :=
  ⟨cleared.sound, fun downloaded => absurd cleared.size downloaded⟩

theorem keeps_of_using {α : Type} {c : FastbootM σ α} (steps : Steps Using c)
    (kept : Kept s) : Ends c s (fun _ => Kept) fun _ => Kept :=
  (steps.ends s).mono (fun _ _ used => kept.using used) fun _ _ used => kept.using used

theorem receiveDownload_keeps {len : Nat} (cleared : Cleared s)
    (fits : ∀ base, s.downloadBase = some base → len ≤ base.room) :
    Ends (receiveDownload P len) s (fun _ => Kept) fun _ => Kept := by
  have discreet := discreet_using P
  refine ends_bind (Q := fun t u => t = s ∧ u = s) (ends_of_ok rfl ⟨rfl, rfl⟩) ?_
  intro t u both
  obtain ⟨rfl, rfl⟩ := both
  cases found : u.downloadBase with
  | none => exact keeps_of_using (discreet.fail _) cleared.kept
  | some base =>
    have moved : ∃ full bytes v, (receiveBulk P base len).run u = (.ok full, v) ∧
        v.log = u.log ++ [.bulk base.room len bytes full] ∧ v.downloadSize = u.downloadSize ∧
        v.downloadBase = some { base with content := bytes ++ base.content.drop bytes.length } ∧
        (full = true → bytes.length = len) := by
      refine ⟨_, _, _, rfl, rfl, rfl, rfl, ?_⟩
      intro full
      simpa using (Bool.and_eq_true_iff.mp full).2
    obtain ⟨full, bytes, v, bulk, log, size, memory, whole⟩ := moved
    have sound : Sound v.log := by
      rw [log]
      exact cleared.sound.snoc (fits base found)
    refine ends_bind (Q := fun got w => got = full ∧ w = v) (ends_of_ok bulk ⟨rfl, rfl⟩) ?_
    intro got w both
    obtain ⟨rfl, rfl⟩ := both
    cases got with
    | true =>
      refine ends_bind (Q := fun _ => Kept) (ends_of_ok rfl ?_) fun _ _ kept =>
        keeps_of_using (discreet.okay _) kept
      refine ⟨sound, ?_⟩
      intro _
      have image : State.image { w with downloadSize := len } = bytes := by
        unfold State.image
        rw [memory, ← whole rfl]
        simp
      rw [image, log, latest_snoc]
      rfl
    | false =>
      have kept : Kept w := Cleared.kept ⟨sound, size.trans cleared.size⟩
      refine ends_bind (keeps_of_using (discreet.fail _) kept) ?_
      intro _ x kept
      exact ends_of_ok rfl ⟨kept.sound, kept.image⟩

/-- A download that is refused, or that is read without loss and not larger than the buffer, if there
is one. -/
def Fits (s : State σ) (arg : Text) : Prop :=
  P.Locked s.world ∨ maxDownloadSize < (hex2uint32 arg).toNat ∨ hexValue arg < 2 ^ 32 ∧
    ∀ base, s.isAllocated = true → s.downloadBase = some base → hexValue arg ≤ base.room

theorem allocateOnce_room {len : Nat} (cleared : Cleared s)
    (fits : ∀ base, s.isAllocated = true → s.downloadBase = some base → len ≤ base.room) :
    ∃ t, (allocateOnce P len).run s = (.ok (), t) ∧ Cleared t ∧
      ∀ base, t.downloadBase = some base → len ≤ base.room := by
  unfold allocateOnce
  rw [run_bind_ok (show get.run s = (.ok s, s) from rfl)]
  cases allocated : s.isAllocated with
  | true => exact ⟨s, rfl, cleared, fun base => fits base allocated⟩
  | false =>
    refine ⟨_, rfl, ⟨cleared.sound, cleared.size⟩, ?_⟩
    intro base memory
    dsimp only at memory
    split at memory
    · cases memory
      exact Nat.le_refl len
    · cases memory

variable {buffer : List UInt8}

theorem cmdDownload_keeps (kept : Kept s)
    (handled : current s.log = some buffer) (named : downloadPrefix <+: buffer) (fits : Fits P s (downloadArg buffer)) :
    Ends (cmdDownload P (downloadArg buffer)) s (fun _ => Kept) fun _ => Kept := by
  have discreet := discreet_using P
  have same := hex2uint32_toNat (downloadArg buffer)
  unfold cmdDownload
  dsimp only
  refine ends_whenUnlocked ?_ ?_
  · intro _ reason w
    exact keeps_of_using (discreet.fail reason) ⟨kept.sound, kept.image⟩
  intro unlocked w
  refine ends_bind (Q := fun _ t => t = { s with world := w, downloadSize := 0 })
    (ends_of_ok rfl rfl) ?_
  intro _ t begun
  subst begun
  have cleared : Cleared { s with world := w, downloadSize := 0 } := ⟨kept.sound, rfl⟩
  split
  · exact keeps_of_using (discreet.fail _) cleared.kept
  rename_i small
  rcases fits with locked | large | ⟨whole, room⟩
  · exact absurd locked unlocked
  · exact absurd large small
  rw [Nat.mod_eq_of_lt whole] at same
  -- The number is announced as the host wrote it.
  refine ends_bind (Q := fun _ t => Cleared t ∧ t.isAllocated = s.isAllocated ∧
    t.downloadBase = s.downloadBase) (ends_of_ok rfl ⟨⟨?_, rfl⟩, rfl, rfl⟩) ?_
  · exact kept.sound.snoc ⟨buffer, handled, named, by rw [same]⟩
  intro result t announced
  obtain ⟨cleared, flag, memory⟩ := announced
  cases result with
  | error e => exact ends_pure cleared.kept
  | ok _ =>
    have fits : ∀ base, t.isAllocated = true → t.downloadBase = some base →
        (hex2uint32 (downloadArg buffer)).toNat ≤ base.room := by
      rw [flag, memory, same]
      exact room
    obtain ⟨u, allocated, cleared, fits⟩ := allocateOnce_room P cleared fits
    refine ends_bind (Q := fun _ v => v = u) (ends_of_ok allocated rfl) ?_
    intro _ v begun
    subst begun
    exact receiveDownload_keeps P cleared fits

theorem handle_using (cmd : Command) (arg : Text) (other : cmd ≠ .download) : Steps Using (cmd.handle P arg) := by
  have discreet := discreet_using P
  cases cmd with
  | reboot => exact discreet.cmdReboot
  | rebootBootloader => exact discreet.cmdRebootBootloader
  | rebootFastboot => exact discreet.fail _
  | rebootRecovery => exact discreet.cmdRebootRecovery
  | getvar => exact discreet.cmdGetvar arg
  | erase => exact discreet.erase arg
  | download => exact absurd rfl other
  | flash => exact discreet.flash arg
  | boot => exact discreet.boot
  | resume => exact discreet.okay _
  | oem => exact discreet.cmdOem arg
  | flashing => exact discreet.cmdFlashing arg
  | setActive => exact discreet.setActive arg

theorem afterHandle_using (buffer : List UInt8) : Steps Using (afterHandle P buffer) := by
  unfold afterHandle
  split
  · exact steps_pure _
  · refine Steps.bind (fun s => refl_of Using s) ?_
    intro s
    split
    · exact Steps.bind ((discreet_using P).fail _) fun _ => steps_pure _
    · exact steps_pure _

theorem findCommand_download {cmd : Text × Command}
    (found : findCommand buffer = some cmd) (download : cmd.2 = .download) :
    cmd.1 = downloadPrefix ∧ downloadPrefix <+: buffer := by
  have only : ∀ entry ∈ tegrablFastbootCmdInit, entry.2 = .download → entry.1 = downloadPrefix := by
    decide
  have named := only cmd (List.mem_of_find?_eq_some found) download
  have has := List.find?_some found
  rw [named] at has
  exact ⟨named, List.isPrefixOf_iff_prefix.mp has⟩

theorem dispatch_keeps (kept : Kept s) (received : current s.log = some buffer)
    (fits : downloadPrefix <+: buffer → Fits P s (downloadArg buffer)) :
    Ends (dispatch P buffer) s (fun _ => Kept) fun _ => Kept := by
  have discreet := discreet_using P
  have begun (cmd : Option Command) : Using s (s.dispatched cmd) := using_logged rfl rfl rfl trivial
  unfold dispatch
  refine ends_bind (Q := fun _ t => t = { s with fastbootState := .command })
    (ends_of_ok rfl rfl) ?_
  intro _ t same
  subst same
  cases found : findCommand buffer with
  | none =>
    refine ends_bind (Q := fun _ => Kept) (ends_of_ok rfl (kept.using (begun none))) ?_
    intro _ t kept
    exact ends_bind (keeps_of_using (discreet.fail _) kept) fun _ _ kept => ends_pure kept
  | some entry =>
    obtain ⟨start, cmd⟩ := entry
    refine ends_bind (Q := fun _ t => t = s.dispatched cmd) (ends_of_ok rfl rfl) ?_
    intro _ t same
    subst same
    have dispatched := kept.using (begun cmd)
    refine ends_bind (Q := fun _ => Kept) ?_ fun _ _ kept =>
      keeps_of_using (afterHandle_using P buffer) kept
    by_cases download : cmd = .download
    · subst download
      obtain ⟨named, has⟩ := findCommand_download found rfl
      have handled : current (s.dispatched Command.download).log = some buffer := by
        unfold State.dispatched
        rw [current_snoc]
        exact received
      dsimp only at named ⊢
      rw [named]
      exact cmdDownload_keeps P dispatched handled has (fits has)
    · exact keeps_of_using (handle_using P cmd _ download) dispatched

def State.taken (s : State σ) : List UInt8 × State σ :=
  let got := P.usbfReceive commandSize s.world
  let buffer := got.1.2.take commandSize
  (buffer, { s with world := got.2, log := s.log ++ [.received buffer] })

def FitsNext (s : State σ) : Prop :=
  downloadPrefix <+: (s.taken P).1 → Fits P (s.taken P).2 (downloadArg (s.taken P).1)

inductive Session (C : State σ → Prop) : State σ → Prop
  | start {s : State σ} : s.log = [] → s.downloadSize = 0 → Session C s
  | again {s : State σ} (state : FastbootState) (w : σ) : Session C s →
      Session C { s with fastbootState := state, world := w }
  | turn {s : State σ} : Session C s → C s → Session C ((turn P).run s).2

theorem turn_keeps (kept : Kept s) (fits : FitsNext P s) :
    Ends (turn P) s (fun _ => Kept) fun _ => Kept := by
  unfold turn
  refine ends_bind (Q := fun got t => got = (P.usbfReceive commandSize s.world).1 ∧
    t = { s with world := (P.usbfReceive commandSize s.world).2 }) (ends_of_ok rfl ⟨rfl, rfl⟩) ?_
  intro got t both
  obtain ⟨rfl, rfl⟩ := both
  split
  · exact ends_of_ok rfl ⟨kept.sound, kept.image⟩
  refine ends_bind (Q := fun _ t => t = (s.taken P).2) (ends_of_ok rfl rfl) ?_
  intro _ t same
  subst same
  have taken : Using s (s.taken P).2 := using_logged rfl rfl rfl trivial
  have received : current (s.taken P).2.log = some (s.taken P).1 := current_snoc _ _
  refine ends_bind (dispatch_keeps P (kept.using taken) received fits) ?_
  intro returns t kept
  split
  · exact ends_pure kept
  refine ends_bind (Q := fun _ => Kept) (ends_of_ok rfl kept) ?_
  intro t' u kept
  split
  · exact ends_of_ok rfl ⟨kept.sound, kept.image⟩
  · exact ends_pure kept

/-- As long as every download fits, each transfer stays inside the buffer, each announcement is the
number that the host wrote, and what is flashed is what the last transfer brought. -/
theorem download_fits {s : State σ} (session : Session P (FitsNext P) s) : Sound s.log := by
  suffices Kept s from this.sound
  induction session with
  | start empty size => exact Cleared.kept ⟨empty ▸ Sound.nil, size⟩
  | again state w _ ih => exact ⟨ih.sound, ih.image⟩
  | turn _ fits ih => exact (turn_keeps P ih fits).keeps

end

def twoDownloads (first : Text) (data : List UInt8) (second : Text) (more : List UInt8) : State Script :=
  scriptStart [downloadPrefix ++ first, data, downloadPrefix ++ second, more]

/-- A second download of two bytes goes where the first one put four. -/
theorem download_fits_smaller : ∃ s, Session (scripted none) (FitsNext (scripted none)) s ∧
    .bulk 4 2 [5, 6] true ∈ s.log ∧ Sound s.log := by
  let P := scripted none
  let s := twoDownloads (ascii "00000004") [1, 2, 3, 4] (ascii "00000002") [5, 6]
  let t := ((turn P).run s).2
  let u := ((turn P).run t).2
  have first : FitsNext P s := by
    intro _
    refine .inr (.inr ⟨by decide, ?_⟩)
    intro base allocated
    cases allocated
  have second : FitsNext P t := by
    intro _
    refine .inr (.inr ⟨by decide, ?_⟩)
    intro base _ memory
    have same : (t.taken P).2.downloadBase = some ⟨4, [1, 2, 3, 4]⟩ := by decide
    rw [same] at memory
    cases memory
    decide
  have session : Session P (FitsNext P) u := .turn (.turn (.start rfl rfl) first) second
  exact ⟨u, session, by decide, download_fits P session⟩

/-- The second download asks for eight bytes, and four were allocated for the first. -/
theorem download_overruns : ∃ s, Session (scripted none) (fun _ => True) s ∧
    .bulk 4 8 [1, 2, 3, 4, 5, 6, 7, 8] true ∈ s.log ∧ ¬ Sound s.log := by
  let P := scripted none
  let s := twoDownloads (ascii "00000004") [1, 2, 3, 4] (ascii "00000008") [1, 2, 3, 4, 5, 6, 7, 8]
  let u := ((turn P).run ((turn P).run s).2).2
  have overrun : .bulk 4 8 [1, 2, 3, 4, 5, 6, 7, 8] true ∈ u.log := by decide
  refine ⟨u, .turn (.turn (.start rfl rfl) trivial) trivial, overrun, ?_⟩
  intro sound
  have fits := sound.room overrun
  omega

end Cboot.Fastboot
