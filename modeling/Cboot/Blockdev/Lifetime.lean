import Cboot.Blockdev.Registry

/-!
Clients register, open, close and unregister devices, each close for an open and each unregister for a register.
-/

namespace Cboot.Blockdev
open Lib Utils

structure Sys where
  registry : Registry
  handles : Nat → Nat
  registered : Nat → Bool

inductive Op where
  | register (dev : Nat)
  | open (storageType inst : UInt32)
  | close (dev : Nat)
  | unregister (dev : Nat)

/-- An address that a `tegrabl_bdev_t` can have. -/
def Registry.IsDevice (w : Registry) (p : Nat) : Prop := p ≠ 0 ∧ p ≠ w.bdevs ∧ p < 2 ^ 64

namespace Sys

def Allows (s : Sys) : Op → Prop
  | .register p => s.registry.IsDevice p
  | .open _ _ => True
  | .close p => 0 < s.handles p
  | .unregister p => s.registered p = true

def apply (s : Sys) : Op → Option (Except Error Unit × Sys)
  | .register p => do
    let (result, w) ← tegrablBlockdevRegisterDevice s.registry p
    match result with
    | .ok () => some (.ok (), ⟨w, s.handles, Function.update s.registered p true⟩)
    | .error e => some (.error e, ⟨w, s.handles, s.registered⟩)
  | .open storageType inst => do
    let (found, w) ← tegrablBlockdevOpen s.registry storageType inst
    match found with
    | some p => some (.ok (), ⟨w, Function.update s.handles p (s.handles p + 1), s.registered⟩)
    | none => some (.ok (), ⟨w, s.handles, s.registered⟩)
  | .close p =>
    let out := tegrablBlockdevClose s.registry p
    some (out.1, ⟨out.2, Function.update s.handles p (s.handles p - 1), s.registered⟩)
  | .unregister p =>
    let out := tegrablBlockdevUnregisterDevice s.registry p
    some (out.1, ⟨out.2, s.handles, Function.update s.registered p false⟩)

def Drops (s s' : Sys) (p : Nat) : Prop := s.registry.ref p ≠ 0 ∧ s'.registry.ref p = 0

instance (s s' : Sys) (p : Nat) : Decidable (s.Drops s' p) := inferInstanceAs (Decidable (_ ∧ _))

/-- The call avoids what the code gets wrong: a device id that is already listed, a last reference,
and a reference count at its limit. -/
def Avoids (s : Sys) : Op → Prop
  | .register p => (∀ q, s.registered q = true → s.registry.deviceId q ≠ s.registry.deviceId p) ∧
      s.registry.ref p ≠ 0xFFFFFFFF
  | .open storageType inst => storageType < storageInvalid → ∀ q, s.registered q = true →
      s.registry.deviceId q = blockDeviceId storageType inst → s.registry.ref q ≠ 0xFFFFFFFF
  | .close p | .unregister p => s.registry.ref p ≠ 1

end Sys

/-- What every call should leave. -/
structure Good (s : Sys) (result : Except Error Unit) (s' : Sys) : Prop where
  refs : ∀ p, (s'.registry.ref p).toNat = s'.handles p + (s'.registered p).toNat
  listed : ∃ xs, Ring s'.registry.links s'.registry.bdevs xs ∧ ∀ p, p ∈ xs ↔ s'.registered p = true
  closed : ∀ p, s'.registry.closed.count p = s.registry.closed.count p +
    if s.Drops s' p ∧ s.registry.hasClose p = true then 1 else 0
  freed : ∀ p, s'.registry.freed.count p = s.registry.freed.count p +
    if s.Drops s' p then 1 else 0
  refused : result = .error ⟨.alreadyExists, 0⟩ → s'.registry.links = s.registry.links ∧
    ∀ p, s'.registry.ref p = s.registry.ref p

structure Inv (s : Sys) (xs : List Nat) : Prop where
  ring : Ring s.registry.links s.registry.bdevs xs
  listed : ∀ p, p ∈ xs ↔ s.registered p = true
  cleared : ∀ p, p ≠ s.registry.bdevs → p ∉ xs → s.registry.links.prev p = 0 ∧ s.registry.links.next p = 0
  refs : ∀ p, (s.registry.ref p).toNat = s.handles p + (s.registered p).toNat
  ids : ∀ p q, s.registered p = true → s.registered q = true → s.registry.deviceId p = s.registry.deviceId q → p = q
  devices : ∀ p, 0 < s.handles p ∨ s.registered p = true → s.registry.IsDevice p
  head : s.registry.bdevs < 2 ^ 64

section
variable {s s' : Sys} {xs xs' : List Nat} {p : Nat} {result : Except Error Unit}

theorem Inv.forEvery (inv : Inv s xs) {w : Registry} (links : w.links = s.registry.links)
    (bdevs : w.bdevs = s.registry.bdevs) {β : Type} (body : Nat → Option β) :
    w.forEvery body = some (xs.findSome? body) := by
  refine forEvery_ring (by rw [links, bdevs]; exact inv.ring) ?_ body
  intro x mem
  rcases List.mem_cons.mp mem with first | inside
  · rw [first, bdevs]
    exact inv.head
  · exact (inv.devices x (.inr ((inv.listed x).mp inside))).2.2

theorem Inv.good (inv : Inv s' xs') (closed : s'.registry.closed = s.registry.closed)
    (freed : s'.registry.freed = s.registry.freed) (keeps : ∀ p, s.registry.ref p ≠ 0 → s'.registry.ref p ≠ 0)
    (accepted : result ≠ .error ⟨.alreadyExists, 0⟩) : Good s result s' := by
  have stays : ∀ p, ¬ s.Drops s' p := fun p drops => keeps p drops.1 drops.2
  refine ⟨inv.refs, ⟨xs', inv.ring, inv.listed⟩, ?_, ?_, fun same => absurd same accepted⟩
  · intro p
    rw [closed, if_neg fun drops => stays p drops.1, Nat.add_zero]
  · intro p
    rw [freed, if_neg (stays p), Nat.add_zero]

theorem Inv.ref_ne_zero (inv : Inv s xs) (held : 0 < s.handles p ∨ s.registered p = true) : s.registry.ref p ≠ 0 := by
  intro zero
  have count := inv.refs p
  rw [zero, UInt32.toNat_zero] at count
  rcases held with handle | registration
  · omega
  · rw [registration, Bool.toNat_true] at count
    omega

end

variable {r : UInt32}

theorem toNat_add_one (h : r ≠ 0xFFFFFFFF) : (r + 1).toNat = r.toNat + 1 := by
  have bound := r.toNat_lt
  have limit : r.toNat ≠ 0xFFFFFFFF := fun same => h (UInt32.toNat_inj.mp same)
  rw [UInt32.toNat_add, UInt32.toNat_one]
  omega

theorem add_one_ne_zero (h : r ≠ 0xFFFFFFFF) : r + 1 ≠ 0 := by
  intro zero
  have count := toNat_add_one h
  rw [zero] at count
  exact absurd count.symm (Nat.succ_ne_zero _)

theorem toNat_sub_one (h : r ≠ 0) : (r - 1).toNat = r.toNat - 1 := by
  have pos : 1 ≤ r := UInt32.le_iff_toNat_le.mpr (UInt32.lt_iff_toNat_lt.mp (UInt32.pos_iff_ne_zero.mpr h))
  rw [UInt32.toNat_sub_of_le _ _ pos, UInt32.toNat_one]

theorem sub_one_ne_zero (some : r ≠ 0) (many : r ≠ 1) : r - 1 ≠ 0 := by
  intro zero
  have count := toNat_sub_one some
  rw [zero, UInt32.toNat_zero] at count
  have zero' : r.toNat ≠ 0 := fun same => some (UInt32.toNat_inj.mp same)
  have one : r.toNat ≠ 1 := fun same => many (UInt32.toNat_inj.mp same)
  omega

section
variable {s : Sys} {xs : List Nat} {p : Nat}

variable (inv : Inv s xs)
include inv

theorem register_new (present : p ≠ 0)
    (new : ∀ q, s.registered q = true → s.registry.deviceId q ≠ s.registry.deviceId p) :
    tegrablBlockdevRegisterDevice s.registry p = some (.ok (), { bdevIncRef s.registry p with
        links := listAddTail s.registry.links s.registry.bdevs p }) := by
  unfold tegrablBlockdevRegisterDevice
  rw [if_neg present]
  dsimp only
  rw [inv.forEvery (w := bdevIncRef s.registry p) rfl rfl]
  have none : xs.findSome? (fun entry => if (bdevIncRef s.registry p).deviceId entry =
      (bdevIncRef s.registry p).deviceId p then some () else none) = none := by
    refine List.findSome?_eq_none_iff.mpr ?_
    intro q mem
    rw [bdevIncRef, Registry.deviceId_setRef, Registry.deviceId_setRef]
    exact if_neg (new q ((inv.listed q).mp mem))
  rw [none]
  rfl

theorem register_duplicate (present : p ≠ 0) {q : Nat} (listed : s.registered q = true)
    (same : s.registry.deviceId q = s.registry.deviceId p) : tegrablBlockdevRegisterDevice s.registry p =
      some (.error ⟨.alreadyExists, 0⟩, bdevIncRef s.registry p) := by
  unfold tegrablBlockdevRegisterDevice
  rw [if_neg present]
  dsimp only
  rw [inv.forEvery (w := bdevIncRef s.registry p) rfl rfl]
  cases found : xs.findSome? (fun entry => if (bdevIncRef s.registry p).deviceId entry =
      (bdevIncRef s.registry p).deviceId p then some () else none) with
  | some _ => rfl
  | none =>
    have other := List.findSome?_eq_none_iff.mp found q ((inv.listed q).mpr listed)
    rw [bdevIncRef, Registry.deviceId_setRef, Registry.deviceId_setRef, if_pos same] at other
    cases other

theorem inv_register (device : s.registry.IsDevice p) (avoids : s.Avoids (.register p)) :
    Inv ⟨{ bdevIncRef s.registry p with
        links := listAddTail s.registry.links s.registry.bdevs p },
      s.handles, Function.update s.registered p true⟩ (xs ++ [p]) := by
  obtain ⟨new, room⟩ := avoids
  have free : s.registered p = false := by
    by_contra held
    exact new p (Bool.not_eq_false _ ▸ held) rfl
  have absent : p ∉ s.registry.bdevs :: xs := by
    intro mem
    rcases List.mem_cons.mp mem with first | inside
    · exact device.2.1 first
    · rw [(inv.listed p).mp inside] at free
      cases free
  have still : ∀ q, Function.update s.registered p true q = true ↔ q = p ∨ s.registered q = true := by
    intro q
    by_cases same : q = p
    · rw [same, Function.update_self]
      exact ⟨fun _ => .inl rfl, fun _ => rfl⟩
    · rw [Function.update_of_ne same]
      exact ⟨.inr, fun h => h.resolve_left same⟩
  refine ⟨ring_listAddTail inv.ring absent, ?_, ?_, ?_, ?_, ?_, inv.head⟩
  · intro q
    rw [List.mem_append, List.mem_singleton, inv.listed, still, or_comm]
  · intro q notHead outside
    obtain ⟨notListed, notNew⟩ := not_or.mp (mt List.mem_append.mpr outside)
    have outside' : q ∉ s.registry.bdevs :: xs :=
      mt List.mem_cons.mp (not_or.mpr ⟨notHead, notListed⟩)
    obtain ⟨prev, next⟩ :=
      listAddTail_outside inv.ring absent (mt List.mem_singleton.mpr notNew) outside'
    rw [prev, next]
    exact inv.cleared q notHead notListed
  · intro q
    have count := inv.refs q
    by_cases same : q = p
    · subst same
      change ((s.registry.setRef q (s.registry.ref q + 1)).ref q).toNat =
        s.handles q + (Function.update s.registered q true q).toNat
      rw [Registry.ref_setRef_self, toNat_add_one room, Function.update_self, count, free]
      rfl
    · change ((s.registry.setRef p (s.registry.ref p + 1)).ref q).toNat =
        s.handles q + (Function.update s.registered p true q).toNat
      rw [Registry.ref_setRef_of_ne _ same, Function.update_of_ne same, count]
  · intro q r listed listed' same
    change (s.registry.setRef p _).deviceId q = (s.registry.setRef p _).deviceId r at same
    rw [Registry.deviceId_setRef, Registry.deviceId_setRef] at same
    rcases (still q).mp listed with rfl | old <;> rcases (still r).mp listed' with rfl | old'
    · rfl
    · exact absurd same.symm (new r old')
    · exact absurd same (new q old)
    · exact inv.ids q r old old' same
  · intro q held
    rcases held with handle | listed
    · exact inv.devices q (.inl handle)
    · rcases (still q).mp listed with rfl | old
      · exact device
      · exact inv.devices q (.inr old)

variable {storageType inst : UInt32}

theorem open_found (valid : storageType < storageInvalid)
    (listed : s.registered p = true) (same : s.registry.deviceId p = blockDeviceId storageType inst) :
    tegrablBlockdevOpen s.registry storageType inst = some (some p, bdevIncRef s.registry p) := by
  unfold tegrablBlockdevOpen
  rw [if_neg (UInt32.not_le.mpr valid), inv.forEvery rfl rfl]
  cases found : xs.findSome? (fun entry => if s.registry.ref entry = 0 then some none
      else if s.registry.deviceId entry = blockDeviceId storageType inst then some (some entry)
      else none) with
  | none =>
    have other := List.findSome?_eq_none_iff.mp found p ((inv.listed p).mpr listed)
    rw [if_neg (inv.ref_ne_zero (.inr listed)), if_pos same] at other
    cases other
  | some answer =>
    obtain ⟨q, mem, hit⟩ := List.exists_of_findSome?_eq_some found
    have listed' := (inv.listed q).mp mem
    rw [if_neg (inv.ref_ne_zero (.inr listed'))] at hit
    by_cases same' : s.registry.deviceId q = blockDeviceId storageType inst
    · rw [if_pos same', inv.ids q p listed' listed (same'.trans same.symm)] at hit
      cases hit
      rfl
    · rw [if_neg same'] at hit
      cases hit

theorem open_missing
    (missing : storageType < storageInvalid → ∀ q, s.registered q = true →
      s.registry.deviceId q ≠ blockDeviceId storageType inst) :
    tegrablBlockdevOpen s.registry storageType inst = some (none, s.registry) := by
  unfold tegrablBlockdevOpen
  by_cases invalid : storageType ≥ storageInvalid
  · rw [if_pos invalid]
  · rw [if_neg invalid, inv.forEvery rfl rfl]
    have none : xs.findSome? (fun entry => if s.registry.ref entry = 0 then some none
        else if s.registry.deviceId entry = blockDeviceId storageType inst then some (some entry)
        else none) = none := by
      refine List.findSome?_eq_none_iff.mpr ?_
      intro q mem
      have listed := (inv.listed q).mp mem
      rw [if_neg (inv.ref_ne_zero (.inr listed)), if_neg (missing (UInt32.not_le.mp invalid) q listed)]
    rw [none]
    rfl

theorem inv_setRef (device : s.registry.IsDevice p) {r : UInt32} {n : Nat}
    (count : r.toNat = n + (s.registered p).toNat) :
    Inv ⟨s.registry.setRef p r, Function.update s.handles p n, s.registered⟩ xs := by
  refine ⟨inv.ring, inv.listed, inv.cleared, ?_, ?_, ?_, inv.head⟩
  · intro q
    by_cases same : q = p
    · subst same
      change ((s.registry.setRef q r).ref q).toNat = Function.update s.handles q n q + _
      rw [Registry.ref_setRef_self, Function.update_self, count]
    · change ((s.registry.setRef p r).ref q).toNat = Function.update s.handles p n q + _
      rw [Registry.ref_setRef_of_ne _ same, Function.update_of_ne same, inv.refs]
  · intro q t listed listed' same
    change (s.registry.setRef p r).deviceId q = (s.registry.setRef p r).deviceId t at same
    rw [Registry.deviceId_setRef, Registry.deviceId_setRef] at same
    exact inv.ids q t listed listed' same
  · intro q held
    by_cases same : q = p
    · rw [same]
      exact device
    · change 0 < Function.update s.handles p n q ∨ _ at held
      rw [Function.update_of_ne same] at held
      exact inv.devices q held

theorem inv_delete (listed : s.registered p = true) {r : UInt32} (count : r.toNat = s.handles p) :
    Inv ⟨Registry.setRef { s.registry with links := listDelete s.registry.links p } p r,
      s.handles, Function.update s.registered p false⟩ (xs.erase p) := by
  have mem := (inv.listed p).mpr listed
  have gone : p ∉ xs.erase p := inv.ring.nodup.not_mem_erase
  have still : ∀ q, Function.update s.registered p false q = true ↔ q ≠ p ∧ s.registered q = true := by
    intro q
    by_cases same : q = p
    · rw [same, Function.update_self]
      exact ⟨fun h => absurd h Bool.false_ne_true, fun h => absurd rfl h.1⟩
    · rw [Function.update_of_ne same]
      exact ⟨fun h => ⟨same, h⟩, fun h => h.2⟩
  refine ⟨ring_listDelete inv.ring mem, ?_, ?_, ?_, ?_, ?_, inv.head⟩
  · intro q
    rw [inv.ring.nodup.mem_erase_iff, inv.listed, still]
  · intro q notHead outside
    by_cases same : q = p
    · rw [same]
      exact listDelete_self s.registry.links p
    · have outside' : q ∉ xs := fun old => outside (inv.ring.nodup.mem_erase_iff.mpr ⟨same, old⟩)
      obtain ⟨prev, next⟩ := listDelete_outside inv.ring mem
        (mt List.mem_cons.mp (not_or.mpr ⟨notHead, outside'⟩))
      change (listDelete s.registry.links p).prev q = 0 ∧ (listDelete s.registry.links p).next q = 0
      rw [prev, next]
      exact inv.cleared q notHead outside'
  · intro q
    by_cases same : q = p
    · subst same
      change ((Registry.setRef _ q r).ref q).toNat = s.handles q + (Function.update s.registered q false q).toNat
      rw [Registry.ref_setRef_self, Function.update_self, count]
      rfl
    · change ((Registry.setRef _ p r).ref q).toNat = s.handles q + (Function.update s.registered p false q).toNat
      rw [Registry.ref_setRef_of_ne _ same, Function.update_of_ne same]
      exact inv.refs q
  · intro q t listed listed' same
    change (Registry.setRef _ p r).deviceId q = (Registry.setRef _ p r).deviceId t at same
    rw [Registry.deviceId_setRef, Registry.deviceId_setRef] at same
    exact inv.ids q t ((still q).mp listed).2 ((still t).mp listed').2 same
  · intro q held
    rcases held with handle | listed'
    · exact inv.devices q (.inl handle)
    · exact inv.devices q (.inr ((still q).mp listed').2)

/-- The call returns, does what it should exactly when it avoids the defects, and then keeps the
invariant. -/
def Served (s : Sys) (op : Op) : Prop :=
  ∃ result s', s.apply op = some (result, s') ∧ (Good s result s' ↔ s.Avoids op) ∧ (s.Avoids op → ∃ xs', Inv s' xs')

theorem served_register (device : s.registry.IsDevice p) : Served s (.register p) := by
  by_cases new : ∀ q, s.registered q = true → s.registry.deviceId q ≠ s.registry.deviceId p
  · have call := register_new inv device.1 new
    have applied : s.apply (.register p) = some (.ok (),
        ⟨{ bdevIncRef s.registry p with links := listAddTail s.registry.links s.registry.bdevs p },
          s.handles, Function.update s.registered p true⟩) := by
      rw [Sys.apply, call]
      rfl
    refine ⟨_, _, applied, ⟨?_, ?_⟩, fun avoids => ⟨_, inv_register inv device avoids⟩⟩
    · intro good
      refine ⟨new, ?_⟩
      intro limit
      -- The count wraps to 0 while there is a registration.
      have count := good.refs p
      change ((s.registry.setRef p (s.registry.ref p + 1)).ref p).toNat =
        s.handles p + (Function.update s.registered p true p).toNat at count
      rw [Registry.ref_setRef_self, limit, Function.update_self, Bool.toNat_true] at count
      exact absurd count.symm (Nat.succ_ne_zero _)
    · intro avoids
      refine (inv_register inv device avoids).good rfl rfl ?_ (by rintro ⟨⟩)
      exact fun q held => Registry.ref_setRef_ne_zero _ (add_one_ne_zero avoids.2) held
  · obtain ⟨q, listed, same⟩ : ∃ q, s.registered q = true ∧ s.registry.deviceId q = s.registry.deviceId p := by
      by_contra none
      exact new fun q listed same => none ⟨q, listed, same⟩
    have call := register_duplicate inv device.1 listed same
    have applied : s.apply (.register p) = some (.error ⟨.alreadyExists, 0⟩,
        ⟨bdevIncRef s.registry p, s.handles, s.registered⟩) := by
      rw [Sys.apply, call]
      rfl
    refine ⟨_, _, applied, ⟨?_, fun avoids => absurd avoids.1 new⟩, fun avoids => absurd avoids.1 new⟩
    intro good
    have taken := (good.refused rfl).2 p
    change (s.registry.setRef p (s.registry.ref p + 1)).ref p = s.registry.ref p at taken
    rw [Registry.ref_setRef_self] at taken
    exact absurd taken (by simp)

theorem served_open (storageType inst : UInt32) : Served s (.open storageType inst) := by
  by_cases hit : storageType < storageInvalid ∧ ∃ q, s.registered q = true ∧
      s.registry.deviceId q = blockDeviceId storageType inst
  · obtain ⟨valid, q, listed, same⟩ := hit
    have call := open_found inv valid listed same
    have applied : s.apply (.open storageType inst) = some (.ok (), ⟨s.registry.setRef q (s.registry.ref q + 1),
          Function.update s.handles q (s.handles q + 1), s.registered⟩) := by
      rw [Sys.apply, call]
      rfl
    have kept : s.registry.ref q ≠ 0xFFFFFFFF → Inv ⟨s.registry.setRef q (s.registry.ref q + 1),
          Function.update s.handles q (s.handles q + 1), s.registered⟩ xs := by
      intro room
      refine inv_setRef inv (inv.devices q (.inr listed)) ?_
      rw [toNat_add_one room, inv.refs q]
      omega
    refine ⟨_, _, applied, ⟨?_, ?_⟩, fun avoids => ⟨xs, kept (avoids valid q listed same)⟩⟩
    · intro good _ t listed' same'
      rw [inv.ids t q listed' listed (same'.trans same.symm)]
      intro limit
      have count := good.refs q
      change ((s.registry.setRef q (s.registry.ref q + 1)).ref q).toNat =
        Function.update s.handles q (s.handles q + 1) q + _ at count
      rw [Registry.ref_setRef_self, limit, Function.update_self] at count
      have zero : ((0xFFFFFFFF : UInt32) + 1).toNat = 0 := by decide
      omega
    · intro avoids
      have room := avoids valid q listed same
      refine (kept room).good rfl rfl ?_ (by rintro ⟨⟩)
      exact fun t held => Registry.ref_setRef_ne_zero _ (add_one_ne_zero room) held
  · have missing : storageType < storageInvalid → ∀ q, s.registered q = true →
        s.registry.deviceId q ≠ blockDeviceId storageType inst :=
      fun valid q listed same => hit ⟨valid, q, listed, same⟩
    have call := open_missing inv missing
    have applied : s.apply (.open storageType inst) = some (.ok (), s) := by
      rw [Sys.apply, call]
      rfl
    refine ⟨_, _, applied, ⟨?_, ?_⟩, fun _ => ⟨xs, inv⟩⟩
    · intro good valid q listed same
      exact absurd same (missing valid q listed)
    · intro avoids
      exact inv.good rfl rfl (fun _ held => held) (by rintro ⟨⟩)

omit inv in
theorem not_good_of_lost {result : Except Error Unit} {s' : Sys} (held : s.registry.ref p ≠ 0)
    (gone : s'.registry.ref p = 0) (freed : s'.registry.freed = s.registry.freed) : ¬ Good s result s' := by
  intro good
  have count := good.freed p
  rw [freed, if_pos ⟨held, gone⟩] at count
  omega

theorem served_close (handle : 0 < s.handles p) : Served s (.close p) := by
  have device := inv.devices p (.inl handle)
  have held := inv.ref_ne_zero (.inl handle)
  have count := inv.refs p
  have applied : s.apply (.close p) = some (.ok (), ⟨(bdevDecRef s.registry p).2,
      Function.update s.handles p (s.handles p - 1), s.registered⟩) := by
    rw [Sys.apply, tegrablBlockdevClose, if_neg device.1]
  refine ⟨_, _, applied, ?_, ?_⟩
  · by_cases last : s.registry.ref p = 1
    · -- The only reference is the handle, so the device is not listed any more.
      rw [last, UInt32.toNat_one] at count
      have free : s.registered p ≠ true := by
        intro listed
        rw [listed, Bool.toNat_true] at count
        omega
      obtain ⟨prev, next⟩ := inv.cleared p device.2.1 (mt (inv.listed p).mp free)
      have released := bdevDecRef_last last prev next
      refine ⟨fun good => ?_, fun avoids => absurd last avoids⟩
      rw [released] at good
      exact absurd good (not_good_of_lost held (Registry.ref_setRef_self _) rfl)
    · refine ⟨fun _ => last, fun _ => ?_⟩
      have kept := inv_setRef inv device (r := s.registry.ref p - 1) (n := s.handles p - 1)
        (by rw [toNat_sub_one held]; omega)
      rw [bdevDecRef_many held last]
      refine kept.good rfl rfl ?_ (by rintro ⟨⟩)
      exact fun q other => Registry.ref_setRef_ne_zero _ (sub_one_ne_zero held last) other
  · intro many
    rw [bdevDecRef_many held many]
    exact ⟨xs, inv_setRef inv device (by rw [toNat_sub_one held]; omega)⟩

theorem served_unregister (listed : s.registered p = true) : Served s (.unregister p) := by
  have device := inv.devices p (.inr listed)
  have held := inv.ref_ne_zero (.inr listed)
  have count := inv.refs p
  rw [listed, Bool.toNat_true] at count
  let w : Registry := { s.registry with links := listDelete s.registry.links p }
  have held' : w.ref p ≠ 0 := held
  have applied : s.apply (.unregister p) = some (.ok (), ⟨(bdevDecRef w p).2, s.handles,
      Function.update s.registered p false⟩) := by
    rw [Sys.apply, tegrablBlockdevUnregisterDevice, if_neg device.1]
  have kept : Inv ⟨w.setRef p (w.ref p - 1), s.handles, Function.update s.registered p false⟩ (xs.erase p) := by
    refine inv_delete inv listed ?_
    rw [toNat_sub_one held']
    change (s.registry.ref p).toNat - 1 = _
    omega
  refine ⟨_, _, applied, ?_, ?_⟩
  · by_cases last : s.registry.ref p = 1
    · -- The node was just cleared.
      obtain ⟨prev, next⟩ := listDelete_self s.registry.links p
      have released := bdevDecRef_last (w := w) last prev next
      refine ⟨fun good => ?_, fun avoids => absurd last avoids⟩
      rw [released] at good
      exact absurd good (not_good_of_lost held (Registry.ref_setRef_self _) rfl)
    · refine ⟨fun _ => last, fun _ => ?_⟩
      rw [bdevDecRef_many held' last]
      refine kept.good rfl rfl ?_ (by rintro ⟨⟩)
      exact fun q other => Registry.ref_setRef_ne_zero w (sub_one_ne_zero held' last) other
  · intro many
    rw [bdevDecRef_many held' many]
    exact ⟨xs.erase p, kept⟩

theorem served (op : Op) (allowed : s.Allows op) : Served s op := by
  cases op with
  | register p => exact served_register inv allowed
  | «open» storageType inst => exact served_open inv storageType inst
  | close p => exact served_close inv allowed
  | unregister p => exact served_unregister inv allowed

end

namespace Sys

def Legal (s : Sys) : List Op → Prop
  | [] => True
  | op :: ops => s.Allows op ∧ ∀ result s', s.apply op = some (result, s') → Legal s' ops

def Lifetime (s : Sys) : List Op → Prop
  | [] => True
  | op :: ops => ∃ result s', s.apply op = some (result, s') ∧ Good s result s' ∧ Lifetime s' ops

def AvoidsAll (s : Sys) : List Op → Prop
  | [] => True
  | op :: ops => s.Avoids op ∧ ∀ result s', s.apply op = some (result, s') → AvoidsAll s' ops

def start (bdevs : Nat) (dev : Nat → Bdev) (hasClose : Nat → Bool) : Sys where
  registry := ⟨bdevs, listInitialize ⟨fun _ => 0, fun _ => 0⟩ bdevs, dev, hasClose, [], []⟩
  handles _ := 0
  registered _ := false

end Sys

/-- The devices before the first call are as `tegrabl_blockdev_initialize_bdev` leaves them. -/
structure Fresh (bdevs : Nat) (dev : Nat → Bdev) : Prop where
  head : bdevs < 2 ^ 64
  initialized : ∀ p, ∃ old id log2 count, tegrablBlockdevInitializeBdev (some old) id log2 count = .ok (dev p)

theorem inv_start {bdevs : Nat} {dev : Nat → Bdev} (fresh : Fresh bdevs dev)
    (hasClose : Nat → Bool) : Inv (Sys.start bdevs dev hasClose) [] := by
  have unused : ∀ p, (dev p).ref = 0 := by
    intro p
    obtain ⟨old, id, log2, count, initialized⟩ := fresh.initialized p
    exact (congrArg Bdev.ref (Except.ok.inj initialized)).symm
  refine ⟨ring_listInitialize _ bdevs, ?_, ?_, ?_, ?_, ?_, fresh.head⟩
  · intro p
    exact ⟨fun mem => absurd mem List.not_mem_nil, fun listed => absurd listed Bool.false_ne_true⟩
  · intro p notHead _
    have other : p ≠ bdevs := notHead
    constructor
    · exact Links.prev_setPrev_of_ne _ other
    · exact Links.next_setNext_of_ne _ other
  · intro p
    change (dev p).ref.toNat = 0 + 0
    rw [unused p]
    rfl
  · intro p q listed
    exact absurd listed Bool.false_ne_true
  · intro p held
    rcases held with handle | listed
    · exact absurd handle (Nat.lt_irrefl 0)
    · exact absurd listed Bool.false_ne_true

theorem lifetime_of_inv {s : Sys} {xs : List Nat} (inv : Inv s xs) (ops : List Op)
    (legal : s.Legal ops) : s.Lifetime ops ↔ s.AvoidsAll ops := by
  induction ops generalizing s xs with
  | nil => exact Iff.rfl
  | cons op ops ih =>
    obtain ⟨allowed, later⟩ := legal
    obtain ⟨result, s₁, applied, good_iff, kept⟩ := served inv op allowed
    constructor
    · rintro ⟨result', s', applied', good, rest⟩
      cases applied.symm.trans applied'
      have avoids := good_iff.mp good
      obtain ⟨xs₁, inv₁⟩ := kept avoids
      refine ⟨avoids, ?_⟩
      intro result₂ s₂ applied₂
      cases applied.symm.trans applied₂
      exact (ih inv₁ (later _ _ applied)).mp rest
    · rintro ⟨avoids, rest⟩
      obtain ⟨xs₁, inv₁⟩ := kept avoids
      exact ⟨result, s₁, applied, good_iff.mpr avoids, (ih inv₁ (later _ _ applied)).mpr (rest _ _ applied)⟩

/-- The life of the devices over every run: it is as it should be exactly in the runs that avoid
the defects. -/
theorem blockdev_lifetime (bdevs : Nat) (dev : Nat → Bdev) (hasClose : Nat → Bool)
    (fresh : Fresh bdevs dev) (ops : List Op) (legal : (Sys.start bdevs dev hasClose).Legal ops) :
    (Sys.start bdevs dev hasClose).Lifetime ops ↔ (Sys.start bdevs dev hasClose).AvoidsAll ops :=
  lifetime_of_inv (inv_start fresh hasClose) ops legal

def oneKind : Nat → Bdev := fun _ => ⟨0, 0x10000, 4096, 9, 8, 4⟩

theorem oneKind_fresh : Fresh 8 oneKind :=
  ⟨by decide, fun _ => ⟨⟨7, 0, 0, 0, 0, 4⟩, 0x10000, 9, 8, rfl⟩⟩

def shortUse : List Op := [.register 16, .open 1 0, .close 16]

theorem shortUse_legal : (Sys.start 8 oneKind fun _ => true).Legal shortUse := by
  refine ⟨⟨by decide, by decide, by decide⟩, ?_⟩
  intro r₁ s₁ registered
  refine ⟨trivial, ?_⟩
  intro r₂ s₂ opened
  have handle : (do
      let (_, s₁) ← (Sys.start 8 oneKind fun _ => true).apply (.register 16)
      let (_, s₂) ← s₁.apply (.open 1 0)
      some (s₂.handles 16)) = some 1 := rfl
  rw [registered] at handle
  change (s₁.apply (.open 1 0) >>= _) = _ at handle
  rw [opened] at handle
  have one : s₂.handles 16 = 1 := Option.some.inj handle
  exact ⟨by rw [Sys.Allows, one]; decide, fun _ _ _ => trivial⟩

theorem blockdev_lifetime_short : Fresh 8 oneKind ∧ (Sys.start 8 oneKind fun _ => true).Legal shortUse ∧
      ((Sys.start 8 oneKind fun _ => true).Lifetime shortUse ↔
        (Sys.start 8 oneKind fun _ => true).AvoidsAll shortUse) :=
  ⟨oneKind_fresh, shortUse_legal, blockdev_lifetime 8 oneKind (fun _ => true) oneKind_fresh shortUse
    shortUse_legal⟩

/-- A device that is registered and unregistered again is never closed or freed. -/
theorem blockdev_lifetime_leak : ¬ ∀ (bdevs : Nat) (dev : Nat → Bdev) (hasClose : Nat → Bool), Fresh bdevs dev →
      ∀ ops, (Sys.start bdevs dev hasClose).Legal ops → (Sys.start bdevs dev hasClose).Lifetime ops := by
  intro claim
  let s₀ := Sys.start 8 oneKind fun _ => true
  have inv : Inv s₀ [] := inv_start oneKind_fresh _
  have legal : s₀.Legal [.register 16, .unregister 16] := by
    refine ⟨⟨by decide, by decide, by decide⟩, ?_⟩
    intro r₁ s₁ registered
    have listed : (s₀.apply (.register 16)).map (fun out => out.2.registered 16) = some true := rfl
    rw [registered] at listed
    exact ⟨Option.some.inj listed, fun _ _ _ => trivial⟩
  have life := claim 8 oneKind (fun _ => true) oneKind_fresh _ legal
  obtain ⟨-, later⟩ := (lifetime_of_inv inv _ legal).mp life
  cases registered : s₀.apply (.register 16) with
  | none =>
    have ends : (s₀.apply (.register 16)).isSome = true := rfl
    rw [registered] at ends
    cases ends
  | some out =>
    have last : (s₀.apply (.register 16)).map (fun out => out.2.registry.ref 16) = some 1 := rfl
    rw [registered] at last
    exact (later out.1 out.2 registered).1 (Option.some.inj last)

end Cboot.Blockdev
