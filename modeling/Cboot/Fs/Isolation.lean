import Cboot.Lib.Runs
import Cboot.Fs.Mounts

/-!
A handle is to reach the file system of its own device and no other, whatever else is mounted.
-/

namespace Cboot.Fs
open Lib Lib.Paths

def Owns (h : Handle) (m : Mount) : Prop := h.mountPath.isSome ∧ m.dev = h.bdev

instance (h : Handle) (m : Mount) : Decidable (Owns h m) := inferInstanceAs (Decidable (_ ∧ _))

def Isolated (s : State) : Op → Prop
  | .publish bdev env => (∀ m ∈ s.mounts, m.dev ≠ bdev) →
    (tegrablFmPublish bdev env s).1 = (tegrablFmPublish bdev env { s with mounts := [] }).1
  | .close self => ∀ h ∈ s.handle self, (tegrablFmClose (some h) s).mounts = s.mounts.filter fun m => ¬ Owns h m
  | .read self filePath partitionName size env => ∀ h ∈ s.handle self,
    ∀ file ∈ (tegrablFmRead (some h) filePath partitionName size env s).1.file,
      ∀ path ∈ filePath, Owns h file.1 ∧ resolve slash period path.text = some (components slash file.2)

def PublishEnv.sector (env : PublishEnv) : Option UInt32 :=
  match env.partitionPublish with
  | .error _ => some 0
  | .ok () => env.bootGuidLookup.toOption

def PublishEnv.Mountable (env : PublishEnv) : Prop :=
  env.memory = true ∧ ∃ sector ∈ env.sector, ∃ fsType ∈ env.fsDetect sector,
    env.findFs fsType = true ∧ env.mountMemory = true ∧ env.mounts = true

def Clear (s : State) (bdev : Bdev) (path : Text) : Prop :=
  ∀ m ∈ s.mounts, m.path <+: path → m.dev = bdev

def Found (s : State) (mountPath filePath : Text) : Prop :=
  ∃ m ∈ s.mounts, m.path <+: fsNormalizePath (strlcpy (mountPath ++ filePath) fsMaxPathLen)

def Avoids (s : State) : Op → Prop
  | .publish bdev env => env.Mountable → (∀ m ∈ s.mounts, m.dev ≠ bdev) →
    ∀ path ∈ getPrefix bdev.deviceId, Clear s bdev path
  | .close self => ∀ h ∈ s.handle self, ∀ path ∈ h.mountPath,
    Clear s h.bdev path ∧ ∀ m ∈ s.mounts, m.dev = h.bdev → m.ref = 1
  | .read self filePath _ _ env => ∀ h ∈ s.handle self, ∀ mountPath ∈ h.mountPath, ∀ path ∈ filePath,
    env.opens = true → mountPath.length + path.text.length < 200 → Found s mountPath path.text →
      Clear s h.bdev mountPath ∧ mountPath.length + path.text.length < fsMaxPathLen ∧ Stays slash period path.text

section
variable {s : State} {h : Handle} {self : Nat}

theorem unmount_own (inv : Inv s) {m : Mount} (mem : m ∈ s.mounts) (clear : Clear s m.dev m.path) (last : m.ref = 1) :
    (fsUnmount m.path s).2 = { s with mounts := s.mounts.filter fun other => other.dev ≠ m.dev } := by
  obtain ⟨normal, -⟩ := name_normal m.path (mem_names (inv.named m mem))
  rw [fsUnmount, normal, inv.find_own mem (List.prefix_refl _) clear]
  simp only [inv.put_found mem, put_last inv mem last]
  have same : (s.mounts.filter fun other => other.self ≠ m.self) = s.mounts.filter fun other => other.dev ≠ m.dev := by
    refine List.filter_congr fun other listed => decide_eq_decide.mpr (not_congr ?_)
    constructor
    · intro self
      rw [inv.eq_of_self listed mem self]
    · intro dev
      rw [inv.eq_of_dev listed mem dev]
  rw [same]

theorem mem_handle {h : Handle} (found : h ∈ s.handle self) : h ∈ s.handles :=
  List.mem_of_find?_eq_some found

theorem close_eq (inv : Inv s) (found : h ∈ s.handle self) (avoids : Avoids s (.close self)) :
    tegrablFmClose (some h) s = { s with
      mounts := s.mounts.filter fun m => ¬ Owns h m,
      handles := s.handles.filter fun other => other.self ≠ h.self, fmHandle := none } := by
  rw [tegrablFmClose]
  cases name : h.mountPath with
  | none => simp [Owns, name]
  | some path =>
    obtain ⟨m, mem, dev, rfl⟩ := inv.handles h (mem_handle found) path name
    obtain ⟨clear, last⟩ := avoids h found m.path name
    rw [← dev] at clear
    simp only [unmount_own inv mem clear (last m mem dev)]
    simp [Owns, name, dev]

theorem Inv.apart (inv : Inv s) {a b : Handle} (left : a ∈ s.handles) (right : b ∈ s.handles)
    (different : a ≠ b) (first : a.mountPath.isSome) (second : b.mountPath.isSome) : a.bdev ≠ b.bdev := by
  have symmetric : Std.Symm fun a b : Handle =>
      a.mountPath.isSome = true → b.mountPath.isSome = true → a.bdev ≠ b.bdev :=
    ⟨fun a b apart second first => (apart first second).symm⟩
  exact inv.distinct.forall left right different first second

theorem inv_close (inv : Inv s) (found : h ∈ s.handle self) (avoids : Avoids s (.close self)) :
    Inv (tegrablFmClose (some h) s) := by
  have listed := mem_handle found
  rw [close_eq inv found avoids]
  have fewer : ∀ m ∈ s.mounts.filter fun m => ¬ Owns h m, m ∈ s.mounts := fun m mem => (List.mem_filter.mp mem).1
  constructor
  · exact fun m mem => inv.named m (fewer m mem)
  · exact fun m mem => inv.counted m (fewer m mem)
  · exact inv.order.filter _
  · exact inv.selves.sublist (List.filter_sublist.map _)
  · exact fun m mem => inv.fresh m (fewer m mem)
  · intro other mem path name
    obtain ⟨was, different⟩ := List.mem_filter.mp mem
    obtain ⟨m, there, dev, same⟩ := inv.handles other was path name
    refine ⟨m, List.mem_filter.mpr ⟨there, decide_eq_true ?_⟩, dev, same⟩
    intro owns
    obtain ⟨mounted, mine⟩ := owns
    have apart : other ≠ h := fun same => of_decide_eq_true different (same ▸ rfl)
    exact inv.apart was listed apart (Option.isSome_of_mem name) mounted (dev.symm.trans mine)
  · exact inv.distinct.filter _

theorem normalize_own {name path : Text} (listed : name ∈ names) (plain : 0 ∉ path) (stays : Stays slash period path) :
    ∃ file, fsNormalizePath (name ++ path) = name ++ file ∧
      resolve slash period path = some (components slash file) := by
  obtain ⟨-, head, noSlash, noNul, ordinary⟩ := name_normal name listed
  obtain ⟨rest, rfl⟩ : ∃ rest, name = slash :: rest := by
    cases name with
    | nil => cases head
    | cons c rest => exact ⟨rest, by rw [Option.some.inj head]⟩
  rw [List.tail_cons] at noSlash noNul ordinary
  obtain ⟨found, resolved⟩ := Option.isSome_iff_exists.mp stays.2.2
  have ok := mem_resolve resolved
  refine ⟨first slash path ++ found.flatMap (slash :: ·), ?_, ?_⟩
  · have all : 0 ∉ rest ++ path := by
      rw [List.mem_append, not_or]
      exact ⟨noNul, plain⟩
    rw [List.cons_append, fsNormalizePath_eq _ all, walk_of_stays noSlash ordinary resolved]
    simp [Place.text]
  · rw [components_flatMap (not_mem_first slash path) ok]
    exact resolve_of_stays stays resolved

section
variable {env : ReadEnv} {size : UInt32} {partitionName : Option Text}

theorem file_loadFromPartition (err : Option Error) (file : Option (Mount × Text)) :
    (loadFromPartition partitionName size err env file).file = file := by
  cases partitionName with
  | none => rfl
  | some name =>
    rw [loadFromPartition]
    cases env.partition <;> rfl

theorem file_fmReadFile (mountPath path : Text) : (fmReadFile mountPath path size env s).1.file =
    if 200 ≤ mountPath.length + path.length then none else (fsOpenFile (mountPath ++ path) env s).1.file := by
  rw [fmReadFile]
  split
  · rfl
  · dsimp only
    cases (fsOpenFile (mountPath ++ path) env s).1.result with
    | error e => rfl
    | ok fh =>
      cases env.stat with
      | none => rfl
      | some statSize =>
        simp only
        split
        · rfl
        · split <;> rfl

theorem file_read {mountPath : Text} (name : h.mountPath = some mountPath) (path : CString) :
    (tegrablFmRead (some h) (some path) partitionName size env s).1.file =
      (fmReadFile mountPath path.text size env s).1.file := by
  simp only [tegrablFmRead, name]
  cases (fmReadFile mountPath path.text size env s).1.result with
  | ok fileSize => rfl
  | error e => exact file_loadFromPartition _ _

theorem file_unmounted (name : h.mountPath = none) (filePath : Option CString) :
    (tegrablFmRead (some h) filePath partitionName size env s).1.file = none := by
  cases filePath <;> simp only [tegrablFmRead, name] <;> exact file_loadFromPartition _ _

theorem file_fsOpenFile {path : Text} {file : Mount × Text} (opened : file ∈ (fsOpenFile path env s).1.file) :
    env.opens = true ∧ (∃ m ∈ s.mounts, m.path <+: fsNormalizePath (strlcpy path fsMaxPathLen)) ∧
      (findMount (fsNormalizePath (strlcpy path fsMaxPathLen)) s).1 = some file := by
  rw [fsOpenFile] at opened
  by_cases answers : ∃ m ∈ s.mounts, m.path <+: fsNormalizePath (strlcpy path fsMaxPathLen)
  · obtain ⟨m, mem, -, -, eq⟩ := findMount_some answers
    rw [eq] at opened ⊢
    cases opens : env.opens with
    | false => simp [opens] at opened
    | true =>
      refine ⟨rfl, answers, ?_⟩
      cases memory : env.memory <;> simpa [opens, memory] using opened
  · have free : ∀ m ∈ s.mounts, ¬ m.path <+: fsNormalizePath (strlcpy path fsMaxPathLen) := fun m mem start =>
      answers ⟨m, mem, start⟩
    rw [findMount_none free] at opened
    cases opened

theorem read_own (inv : Inv s) (found : h ∈ s.handle self) {path : CString} {file : Mount × Text}
    (avoids : Avoids s (.read self (some path) partitionName size env))
    (opened : file ∈ (tegrablFmRead (some h) (some path) partitionName size env s).1.file) :
    Owns h file.1 ∧ resolve slash period path.text = some (components slash file.2) := by
  cases name : h.mountPath with
  | none =>
    rw [file_unmounted name] at opened
    cases opened
  | some mountPath =>
    rw [file_read name, file_fmReadFile] at opened
    split at opened
    · cases opened
    · next short =>
      obtain ⟨opens, answers, eq⟩ := file_fsOpenFile opened
      obtain ⟨clear, fits, stays⟩ := avoids h found mountPath name path rfl opens (by omega) answers
      obtain ⟨m, mem, dev, rfl⟩ := inv.handles h (mem_handle found) mountPath name
      have whole : strlcpy (m.path ++ path.text) fsMaxPathLen = m.path ++ path.text := by
        rw [strlcpy, List.take_of_length_le]
        rw [List.length_append]
        omega
      obtain ⟨rest, normal, resolved⟩ := normalize_own (mem_names (inv.named m mem)) path.plain stays
      rw [← dev] at clear
      rw [whole, normal, inv.find_own mem (List.prefix_append _ _) clear, List.drop_left] at eq
      cases eq
      exact ⟨⟨Option.isSome_of_mem name, dev⟩, resolved⟩

end

section
variable {bdev : Bdev} {env : PublishEnv}

theorem detectFs_alone (inv : Inv s) (old : Handle) (sector : UInt32) (err : Option Error)
    (avoids : ∀ path ∈ getPrefix old.bdev.deviceId, ∀ fsType ∈ env.fsDetect sector,
      env.findFs fsType = true → env.mountMemory = true → env.mounts = true → Free s path) :
    (detectFs old sector err env s).1 = (detectFs old sector err env { s with mounts := [] }).1 := by
  rw [detectFs, detectFs]
  cases detected : env.fsDetect sector with
  | none => rfl
  | some fsType =>
    cases named : getPrefix old.bdev.deviceId with
    | none => rfl
    | some path =>
      have listed := mem_names named
      have alone : Free { s with mounts := [] } path := fun m mem => absurd mem List.not_mem_nil
      have needs := avoids path named fsType detected
      simp only [fsMount, mount_free listed alone]
      by_cases free : Free s path
      · simp only [mount_free listed free]
        cases env.findFs fsType <;> cases env.mountMemory <;> cases env.mounts <;> rfl
      · simp only [mount_taken inv listed free]
        cases known : env.findFs fsType with
        | false => rfl
        | true =>
          cases memory : env.mountMemory with
          | false => rfl
          | true =>
            cases mounts : env.mounts with
            | false => rfl
            | true => exact absurd (needs known memory mounts) free

theorem publish_alone (inv : Inv s) (avoids : Avoids s (.publish bdev env)) (unmounted : ∀ m ∈ s.mounts, m.dev ≠ bdev) :
    (tegrablFmPublish bdev env s).1 = (tegrablFmPublish bdev env { s with mounts := [] }).1 := by
  rw [tegrablFmPublish, tegrablFmPublish]
  cases memory : env.memory with
  | false => rfl
  | true =>
    have more : Inv { s with next := s.next + 1 } := inv.grow (Nat.le_succ _)
    have free : ∀ sector ∈ env.sector, ∀ path ∈ getPrefix bdev.deviceId, ∀ fsType ∈ env.fsDetect sector,
        env.findFs fsType = true → env.mountMemory = true → env.mounts = true → Free s path := by
      intro sector there path named fsType detected known room mounts m mem start
      have clear := avoids ⟨memory, sector, there, fsType, detected, known, room, mounts⟩ unmounted path named
      exact unmounted m mem (clear m mem start)
    have same : (publishHandle ⟨s.next, bdev, none, none, 0⟩ env { s with next := s.next + 1 }).1 =
        (publishHandle ⟨s.next, bdev, none, none, 0⟩ env { s with mounts := [], next := s.next + 1 }).1 := by
      rw [publishHandle, publishHandle]
      rw [PublishEnv.sector] at free
      cases published : env.partitionPublish with
      | error e =>
        rw [published] at free
        exact detectFs_alone more _ 0 _ (free 0 rfl)
      | ok _ =>
        rw [published] at free
        cases looked : env.bootGuidLookup with
        | error e => rfl
        | ok sector =>
          rw [looked] at free
          exact detectFs_alone more _ sector _ (free sector rfl)
    simp only [Bool.not_true, Bool.false_eq_true, if_false, same]

end

theorem step_isolated (inv : Inv s) {op : Op} (avoids : Avoids s op) : Isolated s op := by
  cases op with
  | publish bdev env => exact publish_alone inv avoids
  | close self =>
    intro h found
    rw [close_eq inv found avoids]
  | read self filePath partitionName size env =>
    intro h found file opened path there
    cases there
    exact read_own inv found avoids opened

theorem inv_step (inv : Inv s) {op : Op} (avoids : Avoids s op) : Inv (step s op) := by
  cases op with
  | publish bdev env => exact inv_publish inv bdev env
  | close self =>
    rw [step]
    cases found : s.handle self with
    | none => exact inv
    | some h => exact inv_close inv found avoids
  | read self filePath partitionName size env => exact inv_read inv _ filePath partitionName size env

end

/-- In a run that avoids the names and paths that are mixed up, every handle keeps to its own file
system. -/
theorem handles_isolated (ops : List Op) (avoids : EachStep step Avoids State.start ops) :
    EachStep step Isolated State.start ops :=
  eachStep_of_invariant (fun _ _ inv => inv_step inv) (fun _ _ inv => step_isolated inv) inv_start avoids

instance (s : State) (bdev : Bdev) (path : Text) : Decidable (Clear s bdev path) :=
  inferInstanceAs (Decidable (∀ m ∈ s.mounts, _ → _))

instance (s : State) (mountPath filePath : Text) : Decidable (Found s mountPath filePath) :=
  inferInstanceAs (Decidable (∃ m ∈ s.mounts, _))

instance (env : PublishEnv) : Decidable env.Mountable := inferInstanceAs (Decidable (_ ∧ ∃ _ ∈ _, ∃ _ ∈ _, _))

instance (s : State) : (op : Op) → Decidable (Avoids s op)
  | .publish bdev env => inferInstanceAs (Decidable (env.Mountable → (∀ m ∈ s.mounts, m.dev ≠ bdev) →
      ∀ path ∈ getPrefix bdev.deviceId, Clear s bdev path))
  | .close self => inferInstanceAs (Decidable (∀ h ∈ s.handle self, ∀ path ∈ h.mountPath, _ ∧ ∀ m ∈ s.mounts, _ → _))
  | .read self filePath _ _ _ => inferInstanceAs (Decidable (∀ h ∈ s.handle self, ∀ mountPath ∈ h.mountPath,
      ∀ path ∈ filePath, _ → _ → _ → _))

instance (s : State) : (op : Op) → Decidable (Isolated s op)
  | .publish bdev _ => inferInstanceAs (Decidable ((∀ m ∈ s.mounts, m.dev ≠ bdev) → _ = _))
  | .close self => inferInstanceAs (Decidable (∀ h ∈ s.handle self, _ = _))
  | .read self filePath partitionName size env => inferInstanceAs (Decidable (∀ h ∈ s.handle self,
      ∀ file ∈ (tegrablFmRead (some h) filePath partitionName size env s).1.file, ∀ path ∈ filePath, _ ∧ _))

def usb : Bdev := ⟨1, 0x50000⟩
def sdcard : Bdev := ⟨2, 0x60000⟩
def sdmmcUser : Bdev := ⟨3, 0x10003⟩
def nvme : Bdev := ⟨4, 0xA0000⟩

def mounting : PublishEnv := ⟨true, .ok (), .ok 34, fun _ => some .ext4, fun _ => true, true, true⟩

def reading : ReadEnv := ⟨true, true, some 16, true, true, .error (.lower 0)⟩

def image : CString := ⟨ascii "/boot/./old/../Image", by decide⟩

theorem handles_isolated_usb : EachStep step Avoids State.start
      [.publish nvme mounting, .publish usb mounting, .read 3 (some image) none 4096 reading, .close 1] ∧
    EachStep step Isolated State.start
      [.publish nvme mounting, .publish usb mounting, .read 3 (some image) none 4096 reading, .close 1] := by
  have avoids : EachStep step Avoids State.start
      [.publish nvme mounting, .publish usb mounting, .read 3 (some image) none 4096 reading, .close 1] := by
    decide
  exact ⟨avoids, handles_isolated _ avoids⟩

def outside : CString := ⟨ascii "/../nvme/Image", by decide⟩

def long : CString := ⟨slash :: List.replicate 150 97, by decide⟩

/-- The SDMMC device is refused behind the SD card, or closes it; a path leads to another device or is cut off; a mount
stays. -/
theorem handles_mixed : ¬ EachStep step Isolated State.start [.publish sdcard mounting, .publish sdmmcUser mounting] ∧
    ¬ EachStep step Isolated State.start [.publish sdmmcUser mounting, .publish sdcard mounting, .close 1] ∧
    ¬ EachStep step Isolated State.start
      [.publish sdmmcUser mounting, .publish sdcard mounting, .read 1 (some image) none 4096 reading] ∧
    ¬ EachStep step Isolated State.start
      [.publish nvme mounting, .publish usb mounting, .read 3 (some outside) none 4096 reading] ∧
    ¬ EachStep step Isolated State.start [.publish usb mounting, .read 1 (some long) none 4096 reading] ∧
    ¬ EachStep step Isolated State.start
      [.publish usb mounting, .read 1 (some image) none 4096 { reading with memory := false }, .close 1] := by
  decide +kernel

end Cboot.Fs
