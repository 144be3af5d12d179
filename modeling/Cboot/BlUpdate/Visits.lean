import Cboot.BlUpdate.Complete

/-!
The index of the loop over the entries is an 8-bit number.
-/

namespace Cboot.BlUpdate
open Lib Attempt Nvblob

def behind {σ α : Type} (next : State σ → List α) (result : Except Error Unit × State σ) : List α :=
  match result with
  | (.ok (), s) => next s
  | (.error _, _) => []

section
variable {σ : Type} (cfg : Config) (P : Platform σ) (m : Mem) (bh : BlobInfo) (numEntries : UInt32)

def visits : Nat → UInt8 → State σ → List Nat
  | 0, _, _ => []
  | fuel + 1, i, s =>
    if i.toUInt32 < numEntries then
      i.toNat :: match tegrablBlobGetEntry (some bh) i.toUInt32 m with
        | .error _ => visits fuel (i + 1) s
        | .ok a =>
          behind (visits fuel (i + 1))
            ((updatePartitionRecursive cfg P m bh (ImageEntry.decode m a).partname numEntries).run s)
    else []

def VisitsOnce (fuel : Nat) (s : State σ) : Prop :=
  (((updateEntries cfg P m bh numEntries fuel 0 none).run s).1 = .ok true ∧
      visits cfg P m bh numEntries fuel 0 s = List.range numEntries.toNat) ∨
    ∃ e, ∃ k < numEntries.toNat, ((updateEntries cfg P m bh numEntries fuel 0 none).run s).1 = .error e ∧
      visits cfg P m bh numEntries fuel 0 s = List.range (k + 1)

def updateAll : List (List UInt8) → UpdateM σ Unit
  | [] => pure ()
  | name :: names => do
    updatePartitionRecursive cfg P m bh name numEntries
    updateAll names

def namesFrom (n k : Nat) : List (List UInt8) := (List.range' n k).map fun i => (entryOf m bh i).partname

structure Accepts (buff : Nat) (suffix : Option Text) (s t : State σ) : Prop where
  blob : IsBlob m buff
  memory : (P.memory s.env).1 = true
  update : UpdateBlob m (handle m buff)
  entries : ((handle m buff).header m).numEntries ≠ 0
  opened : (opening cfg P (handle m buff) buff suffix).run (allocated P s) = (.ok (), t)

end

section
variable {σ : Type} {cfg : Config} {P : Platform σ} {m : Mem} {bh : BlobInfo} {numEntries : UInt32}
variable {s t u : State σ} {n k : Nat} {e : Error}

theorem namesFrom_succ (m : Mem) (bh : BlobInfo) (n k : Nat) :
    namesFrom m bh n (k + 1) = (entryOf m bh n).partname :: namesFrom m bh (n + 1) k := by
  rw [namesFrom, List.range'_succ, List.map_cons]
  rfl

theorem toNat_index (small : n < 256) : (UInt8.ofNat n).toNat = n := Nat.mod_eq_of_lt small

theorem index_lt (small : n < 256) (inside : n < numEntries.toNat) : (UInt8.ofNat n).toUInt32 < numEntries := by
  rw [UInt32.lt_iff_toNat_lt, UInt8.toNat_toUInt32, toNat_index small]
  exact inside

theorem index_succ (n : Nat) : UInt8.ofNat n + 1 = UInt8.ofNat (n + 1) := (UInt8.ofNat_add n 1).symm

theorem updateAll_of_listed (names : List (List UInt8))
    (listed : ∀ name ∈ names, isPartitionUpdated s.static.list name = true) :
    (updateAll cfg P m bh numEntries names).run s = (.ok (), s) := by
  induction names with
  | nil => rfl
  | cons name names ih =>
    rw [updateAll, run_bind_ok (updatePartitionRecursive_listed (listed name List.mem_cons_self))]
    exact ih fun other member => listed other (List.mem_cons_of_mem _ member)

variable (blob : UpdateBlob m bh)
include blob

theorem getEntry_index (small : n < 256) :
    tegrablBlobGetEntry (some bh) (UInt8.ofNat n).toUInt32 m = .ok (entryAddress m bh n) := by
  have same : (UInt8.ofNat n).toUInt32 = n.toUInt32 := by
    rw [← UInt32.toNat_inj, UInt8.toNat_toUInt32, toNat_index small, toUInt32_toNat_of_lt (by omega)]
  rw [same]
  exact getEntry_update blob (by omega)

theorem updateEntries_succ (small : n < 256) (inside : n < numEntries.toNat) (fuel : Nat) :
    updateEntries cfg P m bh numEntries (fuel + 1) (UInt8.ofNat n) none =
      updatePartitionRecursive cfg P m bh (entryOf m bh n).partname numEntries >>= fun _ =>
        updateEntries cfg P m bh numEntries fuel (UInt8.ofNat (n + 1)) none := by
  rw [updateEntries, if_pos (index_lt small inside), getEntry_index blob small, index_succ]
  rfl

theorem visits_ok (small : n < 256) (inside : n < numEntries.toNat) (fuel : Nat)
    (passed : (updatePartitionRecursive cfg P m bh (entryOf m bh n).partname numEntries).run s = (.ok (), t)) :
    visits cfg P m bh numEntries (fuel + 1) (UInt8.ofNat n) s =
      n :: visits cfg P m bh numEntries fuel (UInt8.ofNat (n + 1)) t := by
  change (updatePartitionRecursive cfg P m bh (ImageEntry.decode m (entryAddress m bh n)).partname numEntries).run s =
    _ at passed
  simp only [visits, index_lt small inside, getEntry_index blob small, passed, behind, toNat_index small, index_succ,
    if_true]

theorem visits_error (small : n < 256) (inside : n < numEntries.toNat) (fuel : Nat)
    (failed : (updatePartitionRecursive cfg P m bh (entryOf m bh n).partname numEntries).run s = (.error e, t)) :
    visits cfg P m bh numEntries (fuel + 1) (UInt8.ofNat n) s = [n] := by
  change (updatePartitionRecursive cfg P m bh (ImageEntry.decode m (entryAddress m bh n)).partname numEntries).run s =
    _ at failed
  simp only [visits, index_lt small inside, getEntry_index blob small, failed, behind, toNat_index small, if_true]

theorem entries_pass (small : n + k ≤ 256) (inside : n + k ≤ numEntries.toNat) (fuel : Nat)
    (passed : (updateAll cfg P m bh numEntries (namesFrom m bh n k)).run s = (.ok (), u)) :
    (updateEntries cfg P m bh numEntries (k + fuel) (UInt8.ofNat n) none).run s =
        (updateEntries cfg P m bh numEntries fuel (UInt8.ofNat (n + k)) none).run u ∧
      visits cfg P m bh numEntries (k + fuel) (UInt8.ofNat n) s =
        List.range' n k ++ visits cfg P m bh numEntries fuel (UInt8.ofNat (n + k)) u := by
  induction k generalizing n s with
  | zero =>
    cases passed
    rw [Nat.zero_add]
    exact ⟨rfl, rfl⟩
  | succ k ih =>
    rw [namesFrom_succ] at passed
    obtain ⟨_, v, first, rest⟩ := run_bind_eq_ok.mp passed
    obtain ⟨goes, visited⟩ := ih (by omega) (by omega) rest
    have next : n + 1 + k = n + (k + 1) := by omega
    rw [next] at goes visited
    rw [Nat.add_right_comm]
    constructor
    · rw [updateEntries_succ blob (by omega) (by omega), run_bind_ok first, goes]
    · rw [visits_ok blob (by omega) (by omega) _ first, visited, List.range'_succ]
      rfl

theorem entries_fail (small : n + k ≤ 256) (inside : n + k ≤ numEntries.toNat)
    (failed : (updateAll cfg P m bh numEntries (namesFrom m bh n k)).run s = (.error e, u)) :
    ∃ j < k, (updateEntries cfg P m bh numEntries k (UInt8.ofNat n) none).run s = (.error e, u) ∧
      visits cfg P m bh numEntries k (UInt8.ofNat n) s = List.range' n (j + 1) := by
  induction k generalizing n s with
  | zero => cases failed
  | succ k ih =>
    rw [namesFrom_succ] at failed
    rw [updateEntries_succ blob (by omega) (by omega)]
    cases first : (updatePartitionRecursive cfg P m bh (entryOf m bh n).partname numEntries).run s with
    | mk result v =>
      cases result with
      | ok _ =>
        rw [updateAll, run_bind_ok first] at failed
        obtain ⟨j, below, ends, visited⟩ := ih (by omega) (by omega) failed
        refine ⟨j + 1, by omega, ?_, ?_⟩
        · rw [run_bind_ok first, ends]
        · rw [visits_ok blob (by omega) (by omega) _ first, visited, ← List.range'_succ]
      | error e' =>
        rw [updateAll, run_bind_error first] at failed
        cases failed
        refine ⟨0, by omega, ?_, ?_⟩
        · rw [run_bind_error first]
        · rw [visits_error blob (by omega) (by omega) _ first]
          rfl

theorem turn_keeps_decided (numEntries : UInt32) :
    TurnKeeps cfg P m bh numEntries (fun s => Decided cfg s ∧ True) (fun _ _ => True) :=
  turn_keeps_static (J := fun _ => True) blob numEntries (fun _ _ _ => trivial) fun _ _ _ _ => trivial

theorem updateAll_listed (names : List (List UInt8)) (decided : Decided cfg s)
    (passed : (updateAll cfg P m bh numEntries names).run s = (.ok (), u)) :
    u.static.list = names.foldl (turn cfg) s.static.list := by
  induction names generalizing s with
  | nil =>
    cases passed
    rfl
  | cons name names ih =>
    obtain ⟨_, t, first, rest⟩ := run_bind_eq_ok.mp passed
    obtain ⟨kept, list⟩ :=
      (updatePartitionRecursive_ends (turn_keeps_decided blob numEntries) name ⟨decided, trivial⟩).1 _ t first
    rw [ih kept.1 rest, list, List.foldl_cons]

theorem endless (many : 255 < numEntries.toNat) (fuel : Nat) (small : n ≤ 255)
    (passed : (updateAll cfg P m bh numEntries (namesFrom m bh n (256 - n))).run s = (.ok (), u))
    (listed : ∀ name ∈ namesFrom m bh 0 256, isPartitionUpdated u.static.list name = true) :
    ((updateEntries cfg P m bh numEntries fuel (UInt8.ofNat n) none).run s).1 = .ok false := by
  induction fuel generalizing n s with
  | zero => rfl
  | succ fuel ih =>
    rw [updateEntries_succ blob (by omega) (by omega)]
    rw [show 256 - n = (255 - n) + 1 by omega, namesFrom_succ] at passed
    obtain ⟨_, t, first, rest⟩ := run_bind_eq_ok.mp passed
    rw [run_bind_ok first]
    by_cases last : n = 255
    · subst last
      cases rest
      exact ih (n := 0) (by omega) (updateAll_of_listed _ listed)
    · rw [show 255 - n = 256 - (n + 1) by omega] at rest
      exact ih (by omega) rest

theorem visitsOnce_iff (decided : Decided cfg s) :
    (∃ fuel, VisitsOnce cfg P m bh numEntries fuel s) ↔ numEntries.toNat ≤ 255 ∨
      ∃ e u, (updateAll cfg P m bh numEntries (namesFrom m bh 0 256)).run s = (.error e, u) := by
  constructor
  · intro visited
    obtain ⟨fuel, visited⟩ := visited
    refine or_iff_not_imp_left.mpr fun many => ?_
    cases all : (updateAll cfg P m bh numEntries (namesFrom m bh 0 256)).run s with
    | mk result u =>
      cases result with
      | error e => exact ⟨e, u, rfl⟩
      | ok _ =>
        have listed : ∀ name ∈ namesFrom m bh 0 256, isPartitionUpdated u.static.list name = true := by
          intro name member
          rw [updateAll_listed blob _ decided all]
          exact listed_foldl member
        have never := endless blob (n := 0) (Nat.not_le.mp many) fuel (by omega) all listed
        rcases visited with ⟨ended, -⟩ | ⟨e, k, -, ended, -⟩
        · cases never.symm.trans ended
        · cases never.symm.trans ended
  · -- All entries that are visited have an index of their own.
    have reached {n : Nat} {e : Error} {u : State σ} (few : n ≤ 256) (inside : n ≤ numEntries.toNat)
        (failed : (updateAll cfg P m bh numEntries (namesFrom m bh 0 n)).run s = (.error e, u)) :
        ∃ fuel, VisitsOnce cfg P m bh numEntries fuel s := by
      obtain ⟨j, below, ended, visited⟩ := entries_fail blob (by omega) (by omega) failed
      refine ⟨n, .inr ⟨e, j, by omega, congrArg Prod.fst ended, ?_⟩⟩
      rw [List.range_eq_range']
      exact visited
    intro fewOrFails
    by_cases few : numEntries.toNat ≤ 255
    · cases all : (updateAll cfg P m bh numEntries (namesFrom m bh 0 numEntries.toNat)).run s with
      | mk result u =>
        cases result with
        | error e => exact reached (by omega) (Nat.le_refl _) all
        | ok _ =>
          obtain ⟨ended, visited⟩ := entries_pass blob (by omega) (by omega) 1 all
          have stops : ¬ (UInt8.ofNat numEntries.toNat).toUInt32 < numEntries := by
            rw [UInt32.lt_iff_toNat_lt, UInt8.toNat_toUInt32, toNat_index (by omega)]
            omega
          rw [Nat.zero_add] at ended visited
          refine ⟨numEntries.toNat + 1, .inl ⟨?_, ?_⟩⟩
          · rw [show (0 : UInt8) = UInt8.ofNat 0 from rfl, ended, updateEntries, if_neg stops]
            rfl
          · rw [show (0 : UInt8) = UInt8.ofNat 0 from rfl, visited, visits, if_neg stops, List.append_nil,
              List.range_eq_range']
    · obtain ⟨e, u, failed⟩ := fewOrFails.resolve_left few
      exact reached (Nat.le_refl _) (by omega) failed

omit blob

theorem goThrough_returns {fuel : Nat} (visited : VisitsOnce cfg P m bh numEntries fuel s) :
    ((goThrough cfg P m bh numEntries fuel).run s).1 ≠ .ok false := by
  intro never
  unfold goThrough at never
  cases loop : (updateEntries cfg P m bh numEntries fuel 0 none).run s with
  | mk result u =>
    rw [VisitsOnce, loop] at visited
    rcases visited with ⟨rfl, -⟩ | ⟨e, k, -, rfl, -⟩
    · rw [run_bind_ok loop, if_pos rfl, endABUpdate] at never
      split at never
      · cases never
      · cases never
    · rw [run_bind_error loop] at never
      cases never

/-- A call that gets to its loop returns, and has looked at each entry once unless an update failed, exactly when there
are no more than 255 of them or the update for one of the first 256 fails. -/
theorem payload_visits_iff (cfg : Config) (P : Platform σ) (m : Mem) (buff : Nat) (size : UInt32)
    (suffix : Option Text) (s t : State σ) (accepts : Accepts cfg P m buff suffix s t) :
    (∃ fuel, (tegrablCheckAndUpdateBlPayload cfg P m buff size suffix fuel s).isSome ∧
        VisitsOnce cfg P m (handle m buff) ((handle m buff).header m).numEntries fuel t) ↔
      ((handle m buff).header m).numEntries.toNat ≤ 255 ∨
        ∃ e u, (updateAll cfg P m (handle m buff) ((handle m buff).header m).numEntries
          (namesFrom m (handle m buff) 0 256)).run t = (.error e, u) := by
  have decided : Decided cfg t := ((opening_ends cfg P _ buff suffix).1 _ t accepts.opened).2.1
  rw [← visitsOnce_iff accepts.update decided]
  constructor
  · intro found
    obtain ⟨fuel, -, visited⟩ := found
    exact ⟨fuel, visited⟩
  · intro found
    obtain ⟨fuel, visited⟩ := found
    refine ⟨fuel, ?_, visited⟩
    rw [call_of_blob cfg P accepts.blob, if_pos accepts.memory, updatePayload_eq cfg P accepts.update accepts.entries,
      run_bind_ok accepts.opened]
    have returns := goThrough_returns visited
    cases ended : (goThrough cfg P m (handle m buff) ((handle m buff).header m).numEntries fuel).run t with
    | mk result u =>
      cases result with
      | error e => rfl
      | ok done =>
        cases done with
        | true => rfl
        | false =>
          rw [ended] at returns
          exact absurd rfl returns

end

def finePlatform : Platform Unit := samplePlatform (.ok ([97], [98])) fun _ => .ok ()

theorem sampleMem_accepts : Accepts plainBuild finePlatform sampleMem 16 none firstState firstState :=
  ⟨sampleMem_isBlob, rfl, sampleMem_update, by decide, rfl⟩

theorem payload_visits_two :
    ∃ fuel, (tegrablCheckAndUpdateBlPayload plainBuild finePlatform sampleMem 16 300 none fuel firstState).isSome ∧
      VisitsOnce plainBuild finePlatform sampleMem (handle sampleMem 16)
        ((handle sampleMem 16).header sampleMem).numEntries fuel firstState :=
  (payload_visits_iff plainBuild finePlatform sampleMem 16 300 none firstState firstState sampleMem_accepts).mpr
    (.inl (by decide))

def manyMem : Mem := fun a =>
  if a < 64 then (blobImage 30770 48 256 blobUpdate []).getD (a - 16) 0
  else (sampleEntry mb2BlPartitionName 30768 2).getD ((a - 64) % 120) 0

/-- The index never gets to 256. -/
theorem payload_visits_many :
    ¬ ∀ (σ : Type) (cfg : Config) (P : Platform σ) (m : Mem) (buff : Nat) (size : UInt32) (suffix : Option Text)
      (s t : State σ), Accepts cfg P m buff suffix s t →
      ∃ fuel, (tegrablCheckAndUpdateBlPayload cfg P m buff size suffix fuel s).isSome ∧
        VisitsOnce cfg P m (handle m buff) ((handle m buff).header m).numEntries fuel t := by
  intro claim
  have update : UpdateBlob manyMem (handle manyMem 16) := ⟨by decide, by decide⟩
  have accepts : Accepts plainBuild finePlatform manyMem 16 none firstState firstState :=
    ⟨⟨by decide, 0, 30770, by decide⟩, rfl, update, by decide, rfl⟩
  obtain ⟨fuel, -, visited⟩ := claim Unit plainBuild finePlatform manyMem 16 30770 none firstState firstState accepts
  have all : ((updateAll plainBuild finePlatform manyMem (handle manyMem 16) ((handle manyMem 16).header manyMem).numEntries
      (namesFrom manyMem (handle manyMem 16) 0 256)).run firstState).1 = .ok () := by decide +kernel
  have many : ¬ ((handle manyMem 16).header manyMem).numEntries.toNat ≤ 255 := by decide
  rcases (visitsOnce_iff update (fun ab => by cases ab)).mp ⟨fuel, visited⟩ with few | ⟨e, u, failed⟩
  · exact many few
  · rw [failed] at all
    cases all

end Cboot.BlUpdate
