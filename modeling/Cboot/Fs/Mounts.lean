import Mathlib.Data.List.Nodup
import Mathlib.Data.List.Pairwise
import Cboot.Fs.Model

/-!
Every mount has the name of its device, and no name in the list starts with the name of a mount behind it.
-/

namespace Cboot.Fs

structure Inv (s : State) : Prop where
  named : ∀ m ∈ s.mounts, getPrefix m.dev.deviceId = some m.path
  counted : ∀ m ∈ s.mounts, 1 ≤ m.ref
  order : s.mounts.Pairwise fun a b => ¬ b.path <+: a.path
  selves : (s.mounts.map Mount.self).Nodup
  fresh : ∀ m ∈ s.mounts, m.self < s.next
  handles : ∀ h ∈ s.handles, ∀ path ∈ h.mountPath, ∃ m ∈ s.mounts, m.dev = h.bdev ∧ m.path = path
  distinct : s.handles.Pairwise fun a b => a.mountPath.isSome → b.mountPath.isSome → a.bdev ≠ b.bdev

theorem inv_start : Inv State.start where
  named _ mem := absurd mem List.not_mem_nil
  counted _ mem := absurd mem List.not_mem_nil
  order := List.Pairwise.nil
  selves := List.nodup_nil
  fresh _ mem := absurd mem List.not_mem_nil
  handles _ mem := absurd mem List.not_mem_nil
  distinct := List.Pairwise.nil

section
variable {s : State} {m : Mount} {path text : Text} {self : Nat}

def names : List Text := [usbPath, sdcardPath, sdmmcUserPath, sdmmcBootPath, nvmePath]

theorem mem_names {deviceId : UInt32} (named : getPrefix deviceId = some path) : path ∈ names := by
  simp only [getPrefix] at named
  split at named
  · cases named
    decide
  · split at named
    · cases named
      decide
    · split at named
      · cases named
        decide
      · split at named
        · cases named
          decide
        · split at named
          · cases named
            decide
          · cases named

theorem name_normal : ∀ path ∈ names, fsNormalizePath (strlcpy path fsMaxPathLen) = path ∧
    path.head? = some slash ∧ slash ∉ path.tail ∧ 0 ∉ path.tail ∧ ¬ path.tail <+: [period, period] := by
  decide

theorem Inv.paths (inv : Inv s) : (s.mounts.map Mount.path).Nodup := by
  refine List.pairwise_map.mpr (inv.order.imp fun apart same => ?_)
  exact apart (same ▸ List.prefix_refl _)

variable {a b : Mount}

theorem Inv.eq_of_path (inv : Inv s) (left : a ∈ s.mounts) (right : b ∈ s.mounts)
    (same : a.path = b.path) : a = b :=
  List.inj_on_of_nodup_map inv.paths left right same

theorem Inv.eq_of_dev (inv : Inv s) (left : a ∈ s.mounts) (right : b ∈ s.mounts)
    (same : a.dev = b.dev) : a = b := by
  have path := inv.named a left
  rw [same, inv.named b right] at path
  exact inv.eq_of_path left right (Option.some.inj path).symm

theorem Inv.eq_of_self (inv : Inv s) (left : a ∈ s.mounts) (right : b ∈ s.mounts)
    (same : a.self = b.self) : a = b :=
  List.inj_on_of_nodup_map inv.selves left right same

theorem Mount.setRef_eq (self : Nat) (ref : Int → Int) (m : Mount) :
    ∃ r, m.setRef self ref = { m with ref := r } ∧ (r = m.ref ∨ m.self = self ∧ r = ref m.ref) := by
  rw [Mount.setRef]
  split
  · next here => exact ⟨_, rfl, .inr ⟨here, rfl⟩⟩
  · exact ⟨m.ref, rfl, .inl rfl⟩

theorem map_setRef {β : Type} (f : Mount → β) (ref : Int → Int) (only : ∀ m r, f { m with ref := r } = f m) :
    (s.setRef self ref).mounts.map f = s.mounts.map f := by
  rw [State.setRef, List.map_map]
  refine List.map_congr_left fun m mem => ?_
  obtain ⟨r, eq, -⟩ := m.setRef_eq self ref
  rw [Function.comp_apply, eq, only]

theorem Inv.setRef (inv : Inv s) (ref : Int → Int)
    (positive : ∀ m ∈ s.mounts, m.self = self → 1 ≤ ref m.ref) : Inv (s.setRef self ref) where
  named := by
    intro m mem
    obtain ⟨old, was, rfl⟩ := List.mem_map.mp mem
    obtain ⟨r, eq, -⟩ := old.setRef_eq self ref
    rw [eq]
    exact inv.named old was
  counted := by
    intro m mem
    obtain ⟨old, was, rfl⟩ := List.mem_map.mp mem
    obtain ⟨r, eq, value⟩ := old.setRef_eq self ref
    rw [eq]
    obtain rfl | ⟨here, rfl⟩ := value
    · exact inv.counted old was
    · exact positive old was here
  order := by
    have paths : (s.mounts.map Mount.path).Pairwise fun a b => ¬ b <+: a := List.pairwise_map.mpr inv.order
    rw [← map_setRef Mount.path ref fun _ _ => rfl] at paths
    exact List.pairwise_map.mp paths
  selves := by
    rw [map_setRef Mount.self ref fun _ _ => rfl]
    exact inv.selves
  fresh := by
    intro m mem
    obtain ⟨old, was, rfl⟩ := List.mem_map.mp mem
    obtain ⟨r, eq, -⟩ := old.setRef_eq self ref
    rw [eq]
    exact inv.fresh old was
  handles := by
    intro h mem path named
    obtain ⟨m, was, dev, same⟩ := inv.handles h mem path named
    obtain ⟨r, eq, -⟩ := m.setRef_eq self ref
    refine ⟨m.setRef self ref, List.mem_map_of_mem was, ?_⟩
    rw [eq]
    exact ⟨dev, same⟩
  distinct := inv.distinct

theorem setRef_setRef (self : Nat) (f g : Int → Int) : (s.setRef self f).setRef self g = s.setRef self (g ∘ f) := by
  have each : ∀ m : Mount, (m.setRef self f).setRef self g = m.setRef self (g ∘ f) := by
    intro m
    by_cases here : m.self = self <;> simp [Mount.setRef, here]
  simp [State.setRef, Function.comp_def, each]

theorem setRef_id (self : Nat) : s.setRef self id = s := by
  have each : Mount.setRef self id = id := by
    funext m
    rw [Mount.setRef]
    split <;> rfl
  rw [State.setRef, each, List.map_id]

theorem Inv.find_self (inv : Inv s) (mem : m ∈ s.mounts) :
    (s.mounts.find? fun other => other.self = m.self) = some m := by
  obtain ⟨found, eq⟩ : ∃ found, (s.mounts.find? fun other => other.self = m.self) = some found := by
    refine Option.isSome_iff_exists.mp (List.find?_isSome.mpr ⟨m, mem, ?_⟩)
    exact decide_eq_true rfl
  have is := List.find?_some eq
  have same : found.self = m.self := of_decide_eq_true is
  rw [eq, inv.eq_of_self (List.mem_of_find?_eq_some eq) mem same]

theorem Inv.put_found (inv : Inv s) (mem : m ∈ s.mounts) : putMount m.self (s.setRef m.self (· + 1)) = s := by
  have more : Inv (s.setRef m.self (· + 1)) := by
    refine inv.setRef _ fun other was _ => ?_
    have count := inv.counted other was
    omega
  have there : { m with ref := m.ref + 1 } ∈ (s.setRef m.self (· + 1)).mounts := by
    refine List.mem_map.mpr ⟨m, mem, ?_⟩
    rw [Mount.setRef, if_pos rfl]
  have count := inv.counted m mem
  rw [putMount, more.find_self there]
  simp only
  rw [if_neg (by omega), setRef_setRef]
  have back : ((· - 1) ∘ (· + 1) : Int → Int) = id := by
    funext r
    simp
  rw [back, setRef_id]

theorem put_last (inv : Inv s) (mem : m ∈ s.mounts) (last : m.ref = 1) :
    putMount m.self s = { s with mounts := s.mounts.filter fun other => other.self ≠ m.self } := by
  rw [putMount, inv.find_self mem]
  simp only
  rw [if_pos (by omega)]

theorem findMount_none (free : ∀ m ∈ s.mounts, ¬ m.path <+: text) : findMount text s = (none, s) := by
  have absent : (s.mounts.find? fun m => m.path.isPrefixOf text) = none := by
    rw [List.find?_eq_none]
    intro m mem start
    exact free m mem (List.isPrefixOf_iff_prefix.mp start)
  rw [findMount, absent]

theorem findMount_some (exist : ∃ m ∈ s.mounts, m.path <+: text) : ∃ m ∈ s.mounts, m.path <+: text ∧
    (∃ front back, s.mounts = front ++ m :: back ∧ ∀ other ∈ front, ¬ other.path <+: text) ∧
    findMount text s = (some (m, text.drop m.path.length), s.setRef m.self (· + 1)) := by
  obtain ⟨found, eq⟩ : ∃ found, (s.mounts.find? fun m => m.path.isPrefixOf text) = some found := by
    obtain ⟨m, mem, start⟩ := exist
    refine Option.isSome_iff_exists.mp (List.find?_isSome.mpr ⟨m, mem, ?_⟩)
    exact List.isPrefixOf_iff_prefix.mpr start
  obtain ⟨start, front, back, split, others⟩ := List.find?_eq_some_iff_append.mp eq
  refine ⟨found, List.mem_of_find?_eq_some eq, List.isPrefixOf_iff_prefix.mp start,
    ⟨front, back, split, fun other mem is => ?_⟩, ?_⟩
  · have not := others other mem
    rw [List.isPrefixOf_iff_prefix.mpr is] at not
    cases not
  · rw [findMount, eq]

theorem Inv.find_own (inv : Inv s) (mem : m ∈ s.mounts) (start : m.path <+: text)
    (clear : ∀ other ∈ s.mounts, other.path <+: m.path → other.dev = m.dev) :
    findMount text s = (some (m, text.drop m.path.length), s.setRef m.self (· + 1)) := by
  obtain ⟨found, listed, begins, ⟨front, back, split, others⟩, eq⟩ := findMount_some ⟨m, mem, start⟩
  have same : found = m := by
    by_contra different
    have later : m ∈ back := by
      rw [split] at mem
      cases List.mem_append.mp mem with
      | inl early => exact absurd start (others m early)
      | inr rest => exact (List.mem_cons.mp rest).resolve_left (Ne.symm different)
    have order := inv.order
    rw [split] at order
    have behind := (List.pairwise_cons.mp (List.pairwise_append.mp order).2.1).1 m later
    cases List.prefix_or_prefix_of_prefix begins start with
    | inl shorter => exact different (inv.eq_of_dev listed mem (clear found listed shorter))
    | inr longer => exact behind longer
  rw [eq, same]

end

section
variable {s : State} {h : Handle}

theorem Inv.found (inv : Inv s) (self : Nat) : Inv (s.setRef self (· + 1)) := by
  refine inv.setRef _ fun m mem _ => ?_
  have count := inv.counted m mem
  omega

theorem Inv.fmHandle (inv : Inv s) (handle : Option Nat) : Inv { s with fmHandle := handle } :=
  ⟨inv.named, inv.counted, inv.order, inv.selves, inv.fresh, inv.handles, inv.distinct⟩

theorem fsOpenFile_state (inv : Inv s) (path : Text) (env : ReadEnv) :
    ((∃ e, (fsOpenFile path env s).1.result = .error e) ∧ Inv (fsOpenFile path env s).2) ∨
    ∃ m ∈ s.mounts, (fsOpenFile path env s).1.result = .ok m ∧ (fsOpenFile path env s).2 = s.setRef m.self (· + 1) := by
  rw [fsOpenFile]
  by_cases answers : ∃ m ∈ s.mounts, m.path <+: fsNormalizePath (strlcpy path fsMaxPathLen)
  · obtain ⟨m, mem, -, -, eq⟩ := findMount_some answers
    rw [eq]
    cases opens : env.opens with
    | false =>
      refine .inl ⟨⟨.fs, rfl⟩, ?_⟩
      simp only [Bool.not_false, if_true, inv.put_found mem]
      exact inv
    | true =>
      cases memory : env.memory with
      | false => exact .inl ⟨⟨.noMemory, rfl⟩, inv.found m.self⟩
      | true => exact .inr ⟨m, mem, rfl, rfl⟩
  · have free : ∀ m ∈ s.mounts, ¬ m.path <+: fsNormalizePath (strlcpy path fsMaxPathLen) := fun m mem start =>
      answers ⟨m, mem, start⟩
    rw [findMount_none free]
    exact .inl ⟨⟨.notFound, rfl⟩, inv⟩

theorem fmReadFile_state (inv : Inv s) (mountPath path : Text) (size : UInt32) (env : ReadEnv) :
    ((fmReadFile mountPath path size env s).1.fh = none ∧ Inv (fmReadFile mountPath path size env s).2) ∨
    ∃ m ∈ s.mounts, (fmReadFile mountPath path size env s).1.fh = some m ∧
      (fmReadFile mountPath path size env s).2 = s.setRef m.self (· + 1) := by
  rw [fmReadFile]
  split
  · exact .inl ⟨rfl, inv⟩
  · dsimp only
    obtain ⟨⟨e, failed⟩, still⟩ | ⟨m, mem, opened, more⟩ := fsOpenFile_state inv (mountPath ++ path) env
    · rw [failed]
      exact .inl ⟨rfl, still⟩
    · refine .inr ⟨m, mem, ?_⟩
      rw [opened]
      cases env.stat with
      | none => exact ⟨rfl, more⟩
      | some statSize =>
        simp only
        split
        · exact ⟨rfl, more⟩
        · split <;> exact ⟨rfl, more⟩

theorem inv_closeOpened (inv : Inv s) (mountPath path : Text) (size : UInt32) (env : ReadEnv) :
    Inv (closeOpened (fmReadFile mountPath path size env s).1.fh env (fmReadFile mountPath path size env s).2) := by
  obtain ⟨none, still⟩ | ⟨m, mem, opened, more⟩ := fmReadFile_state inv mountPath path size env
  · rw [none]
    exact still
  · rw [opened, more, closeOpened, fsCloseFile]
    split
    · exact inv.found m.self
    · rw [inv.put_found mem]
      exact inv

theorem inv_read (inv : Inv s) (handle : Option Handle) (filePath : Option CString)
    (partitionName : Option Text) (size : UInt32) (env : ReadEnv) :
    Inv (tegrablFmRead handle filePath partitionName size env s).2 := by
  cases handle with
  | none => exact inv
  | some h =>
    cases filePath with
    | none => exact inv
    | some path =>
      cases name : h.mountPath with
      | none =>
        simp only [tegrablFmRead, name]
        exact inv
      | some mountPath =>
        simp only [tegrablFmRead, name]
        have closed := inv_closeOpened inv mountPath path.text size env
        cases (fmReadFile mountPath path.text size env s).1.result with
        | ok fileSize => exact closed.fmHandle _
        | error e => exact closed

section
variable {bdev : Bdev} {env : PublishEnv} {path : Text}

def Free (s : State) (path : Text) : Prop := ∀ m ∈ s.mounts, ¬ m.path <+: path

variable (inv : Inv s)
include inv

theorem mount_taken (listed : path ∈ names) (taken : ¬ Free s path) :
    mount path bdev env s = (.error .alreadyMounted, s) := by
  obtain ⟨normal, head, -⟩ := name_normal path listed
  simp only [Free, not_forall, not_not] at taken
  obtain ⟨other, mem, start⟩ := taken
  obtain ⟨m, there, -, -, eq⟩ := findMount_some ⟨other, mem, start⟩
  simp only [mount, normal, eq, inv.put_found there]
  rw [if_neg (by simp [head])]

omit inv in
theorem mount_free (listed : path ∈ names) (free : Free s path) : mount path bdev env s =
    if !env.mountMemory then (.error .noMemory, s)
    else if !env.mounts then (.error .fs, s)
    else (.ok (), { s with mounts := ⟨s.next, path, bdev, 1⟩ :: s.mounts, next := s.next + 1 }) := by
  obtain ⟨normal, head, -⟩ := name_normal path listed
  simp only [mount, normal, findMount_none free]
  rw [if_neg (by simp [head])]

def State.mounting (s : State) (path : Text) (bdev : Bdev) : State :=
  { s with mounts := ⟨s.next, path, bdev, 1⟩ :: s.mounts, next := s.next + 1 }

theorem fsMount_cases (listed : path ∈ names) (fsType : FsType) (bdev : Bdev) (env : PublishEnv) :
    (∃ e, fsMount path fsType bdev env s = (.error e, s)) ∨
    Free s path ∧ fsMount path fsType bdev env s = (.ok (), s.mounting path bdev) := by
  rw [fsMount]
  cases known : env.findFs fsType with
  | false => exact .inl ⟨.notFound, rfl⟩
  | true =>
    by_cases free : Free s path
    · simp only [mount_free listed free]
      cases memory : env.mountMemory with
      | false => exact .inl ⟨.noMemory, rfl⟩
      | true =>
        cases mounts : env.mounts with
        | false => exact .inl ⟨.fs, rfl⟩
        | true => exact .inr ⟨free, rfl⟩
    · simp only [mount_taken inv listed free]
      exact .inl ⟨.alreadyMounted, rfl⟩

def Handle.MountedAt (h : Handle) (old : Handle) (path : Text) : Prop :=
  h.self = old.self ∧ h.bdev = old.bdev ∧ h.mountPath = some path

theorem detectFs_cases (old : Handle) (sector : UInt32) (err : Option Error) :
    (∃ e, detectFs old sector err env s = ((e, old), s)) ∨
    ∃ e h path, detectFs old sector err env s = ((e, h), s.mounting path old.bdev) ∧
      getPrefix old.bdev.deviceId = some path ∧ Free s path ∧ h.MountedAt old path := by
  rw [detectFs]
  cases env.fsDetect sector with
  | none => exact .inl ⟨_, rfl⟩
  | some fsType =>
    cases named : getPrefix old.bdev.deviceId with
    | none => exact .inl ⟨_, rfl⟩
    | some path =>
      obtain ⟨e, failed⟩ | ⟨free, made⟩ := fsMount_cases inv (mem_names named) fsType old.bdev env
      · simp only [failed]
        exact .inl ⟨_, rfl⟩
      · simp only [made]
        exact .inr ⟨_, _, path, rfl, rfl, free, rfl, rfl, rfl⟩

theorem publishHandle_cases (old : Handle) : (∃ e, publishHandle old env s = ((e, old), s)) ∨
    ∃ e h path, publishHandle old env s = ((e, h), s.mounting path old.bdev) ∧
      getPrefix old.bdev.deviceId = some path ∧ Free s path ∧ h.MountedAt old path := by
  rw [publishHandle]
  cases env.partitionPublish with
  | error e => exact detectFs_cases inv old 0 _
  | ok _ =>
    cases env.bootGuidLookup with
    | error e => exact .inl ⟨_, rfl⟩
    | ok sector => exact detectFs_cases inv old sector _

theorem Inv.grow {next : Nat} (more : s.next ≤ next) : Inv { s with next := next } :=
  ⟨inv.named, inv.counted, inv.order, inv.selves, fun m mem => Nat.lt_of_lt_of_le (inv.fresh m mem) more,
    inv.handles, inv.distinct⟩

theorem Inv.addHandle (unmounted : h.mountPath = none) : Inv { s with handles := s.handles ++ [h] } where
  named := inv.named
  counted := inv.counted
  order := inv.order
  selves := inv.selves
  fresh := inv.fresh
  handles := by
    intro other mem path name
    cases List.mem_append.mp mem with
    | inl old => exact inv.handles other old path name
    | inr new =>
      rw [List.mem_singleton.mp new, unmounted] at name
      cases name
  distinct := by
    refine List.pairwise_append.mpr ⟨inv.distinct, List.pairwise_singleton _ _, ?_⟩
    intro other _ new mem _ mounted
    rw [List.mem_singleton.mp mem, unmounted] at mounted
    cases mounted

theorem Inv.addMounted (named : getPrefix h.bdev.deviceId = some path) (free : Free s path)
    (mounted : h.mountPath = some path) : Inv { s.mounting path h.bdev with handles := s.handles ++ [h] } where
  named := by
    intro m mem
    cases List.mem_cons.mp mem with
    | inl new => exact new ▸ named
    | inr old => exact inv.named m old
  counted := by
    intro m mem
    cases List.mem_cons.mp mem with
    | inl new => exact new ▸ Int.le_refl 1
    | inr old => exact inv.counted m old
  order := List.pairwise_cons.mpr ⟨free, inv.order⟩
  selves := by
    refine List.nodup_cons.mpr ⟨fun used => ?_, inv.selves⟩
    obtain ⟨m, mem, same⟩ := List.mem_map.mp used
    have before := inv.fresh m mem
    have here : m.self = s.next := same
    omega
  fresh := by
    intro m mem
    cases List.mem_cons.mp mem with
    | inl new => exact new ▸ Nat.lt_succ_self s.next
    | inr old => exact Nat.lt_succ_of_lt (inv.fresh m old)
  handles := by
    intro other mem path' name
    cases List.mem_append.mp mem with
    | inl old =>
      obtain ⟨m, there, same⟩ := inv.handles other old path' name
      exact ⟨m, List.mem_cons_of_mem _ there, same⟩
    | inr new =>
      rw [List.mem_singleton.mp new] at name ⊢
      exact ⟨_, List.mem_cons_self, rfl, Option.some.inj (mounted.symm.trans name)⟩
  distinct := by
    refine List.pairwise_append.mpr ⟨inv.distinct, List.pairwise_singleton _ _, ?_⟩
    intro other old new mem some _ same
    -- a mount of the same device would have the name that was free
    obtain ⟨path', name⟩ := Option.isSome_iff_exists.mp some
    obtain ⟨m, there, dev, -⟩ := inv.handles other old path' name
    have path'' := inv.named m there
    rw [dev, same, List.mem_singleton.mp mem, named] at path''
    exact free m there (Option.some.inj path'' ▸ List.prefix_refl _)

theorem inv_publish (bdev : Bdev) (env : PublishEnv) : Inv (tegrablFmPublish bdev env s).2 := by
  rw [tegrablFmPublish]
  split
  · exact inv.fmHandle _
  · have more : Inv { s with next := s.next + 1 } := inv.grow (Nat.le_succ _)
    dsimp only
    obtain ⟨e, failed⟩ | ⟨e, h, path, made, named, free, -, dev, mounted⟩ :=
      publishHandle_cases more ⟨s.next, bdev, none, none, 0⟩
    · rw [failed]
      exact (more.addHandle rfl).fmHandle _
    · rw [made]
      have both := more.addMounted (dev ▸ named) free mounted
      rw [dev] at both
      exact both.fmHandle _

end

end

end Cboot.Fs
