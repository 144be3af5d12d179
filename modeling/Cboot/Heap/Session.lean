import Cboot.Heap.Memalign
import Cboot.Heap.Free

/-!
A session is the heap state with the list of pointers its client holds. A client calls the allocator and stores to the
bytes it was given.
-/

namespace Cboot.Heap
open Lib

def walk (m : Mem) : Nat → Nat → List Span
  | 0, _ => []
  | fuel + 1, p => if p = 0 then [] else ⟨p, ldSize m p⟩ :: walk m fuel (ldNext m p)

def freeBlocks (s : HeapState) (t : Nat) : List Span := walk s.mem (s.fuel t) (s.heapInfo t).freeList

def blockOf (m : Mem) (ptr : Nat) : Span :=
  ⟨ldStart m (ptr - allocHeader), ldSize m (ptr - allocHeader)⟩

structure Grant where
  heapType : Nat
  ptr : Nat
  req : Nat
  alignment : Nat := 1
  deriving DecidableEq, Repr

namespace Grant

def region (g : Grant) : Span := ⟨g.ptr, g.req⟩

def header (g : Grant) : Span := ⟨g.ptr - allocHeader, allocHeader⟩

end Grant

structure Session where
  heap : HeapState
  live : List Grant := []

inductive Op where
  | malloc (size : Nat)
  | calloc (nmemb size : Nat)
  | alloc (heapType size : Nat)
  | memalign (alignment size : Nat)
  | allocAlign (heapType alignment size : Nat)
  | free (ptr : Nat)
  | dealloc (heapType ptr : Nat)
  | store (addr : Nat) (value : UInt8)
  deriving DecidableEq, Repr

def exec (s : HeapState) : Op → HeapM (Nat × HeapState)
  | .malloc size => tegrablMalloc s size
  | .calloc nmemb size => tegrablCalloc s nmemb size
  | .alloc heapType size => tegrablAlloc s heapType size
  | .memalign alignment size => tegrablMemalign s alignment size
  | .allocAlign heapType alignment size => tegrablAllocAlign s heapType alignment size
  | .free ptr => do return (0, ← tegrablFree s ptr)
  | .dealloc heapType ptr => do return (0, ← tegrablDealloc s heapType ptr)
  | .store addr value => pure (0, { s with mem := Function.update s.mem addr value })

def hold (live : List Grant) (g : Grant) : List Grant := if g.ptr = 0 then live else g :: live

def drop (live : List Grant) (ptr : Nat) : List Grant := live.filter fun g => g.ptr ≠ ptr

def record (live : List Grant) (ptr : Nat) : Op → List Grant
  | .malloc size => hold live ⟨heapDefault, ptr, size, 1⟩
  | .calloc nmemb size => hold live ⟨heapDefault, ptr, nmemb * size, 1⟩
  | .alloc heapType size => hold live ⟨heapType, ptr, size, 1⟩
  | .memalign alignment size => hold live ⟨heapDefault, ptr, size, alignment⟩
  | .allocAlign heapType alignment size => hold live ⟨heapType, ptr, size, alignment⟩
  | .free p => drop live p
  | .dealloc heapType p => if heapType < heapTypeMax then drop live p else live
  | .store _ _ => live

def step (s : Session) (op : Op) : HeapM Session := do
  let (ptr, heap) ← exec s.heap op
  return ⟨heap, record s.live ptr op⟩

structure Layout where
  used : Nat → Prop
  route : Nat → Nat
  lo : Nat → Nat
  hi : Nat → Nat
  routed : ∀ ty, ty < heapTypeMax → used (route ty)
  default : route heapDefault = heapDefault
  apart : ∀ t u, used t → used u → t ≠ u → hi t ≤ lo u ∨ hi u ≤ lo t

def single (lo hi : Nat) : Layout where
  used t := t = heapDefault
  route _ := heapDefault
  lo _ := lo
  hi _ := hi
  routed _ _ := rfl
  default := rfl
  apart _ _ ht hu different := absurd (ht.trans hu.symm) different

def dual (lo hi : Nat → Nat)
    (apart : hi heapDefault ≤ lo heapDma ∨ hi heapDma ≤ lo heapDefault) : Layout where
  used t := t < heapTypeMax
  route t := t
  lo := lo
  hi := hi
  routed _ h := h
  default := rfl
  apart t u ht hu different := by
    simp only [heapTypeMax, heapDefault, heapDma] at *
    obtain ⟨rfl, rfl⟩ | ⟨rfl, rfl⟩ : t = 0 ∧ u = 1 ∨ t = 1 ∧ u = 0 := by omega
    · exact apart
    · exact apart.symm

def Op.heapType : Op → Option Nat
  | .alloc heapType _ => some heapType
  | .allocAlign heapType _ _ => some heapType
  | .dealloc heapType _ => some heapType
  | _ => none

def Routes (L : Layout) (s : HeapState) (op : Op) : Prop :=
  ∀ ty ∈ op.heapType, ty < heapTypeMax → routeType s ty = L.route ty

def Allowed (L : Layout) (s : Session) : Op → Prop
  | .malloc _ => True
  | .calloc _ _ => True
  | .alloc _ _ => True
  | .memalign alignment _ => ∃ k, alignment = 2 ^ k
  | .allocAlign _ alignment _ => ∃ k, alignment = 2 ^ k
  | .free ptr => ∃ g ∈ s.live, g.ptr = ptr ∧ L.route g.heapType = heapDefault
  | .dealloc heapType ptr =>
    ∃ g ∈ s.live, g.ptr = ptr ∧ (heapType < heapTypeMax → L.route g.heapType = L.route heapType)
  | .store addr _ => ∃ g ∈ s.live, g.ptr ≤ addr ∧ addr < g.ptr + g.req

/-- An aligned request as it reaches `tegrabl_memalign_generic`. -/
structure Request where
  heap : Nat
  alignment : Nat
  size : Nat
  deriving DecidableEq, Repr

/-- The aligned request of a call that passes `is_size_alignment_valid`. -/
def alignedRequest (s : HeapState) : Op → Option Request
  | .memalign alignment size =>
    if isSizeAlignmentValid s heapDefault alignment size then some ⟨heapDefault, alignment, size⟩
    else none
  | .allocAlign heapType alignment size =>
    if heapType < heapTypeMax ∧ isSizeAlignmentValid s (routeType s heapType) alignment size then
      some ⟨routeType s heapType, alignment, size⟩
    else none
  | _ => none

def NoWrap (s : HeapState) (op : Op) : Prop :=
  ∀ r ∈ alignedRequest s op, Unwrapped (freeBlocks s r.heap) r.alignment r.size

instance (s : HeapState) (op : Op) : Decidable (NoWrap s op) :=
  inferInstanceAs (Decidable (∀ r ∈ alignedRequest s op, _))

variable {bs : List Span}

theorem walk_eq {m : Mem} {p fuel : Nat} (seg : Seg m p bs 0) (laid : Laid bs)
    (enough : bs.length < fuel) : walk m fuel (headAddr bs 0) = bs := by
  induction bs generalizing p fuel with
  | nil =>
    obtain ⟨fuel, rfl⟩ : ∃ k, fuel = k + 1 := ⟨fuel - 1, by omega⟩
    rfl
  | cons b bs ih =>
    obtain ⟨fuel, rfl⟩ : ∃ k, fuel = k + 1 := ⟨fuel - 1, by omega⟩
    obtain ⟨⟨-, size, -, next⟩, rest⟩ := seg
    obtain ⟨⟨pos, -⟩, -, laidRest⟩ := laid_cons.mp laid
    have nonzero : b.addr ≠ 0 := by omega
    rw [walk, headAddr_cons, if_neg nonzero, size, next, ih rest laidRest (by simpa using enough)]

variable {s : HeapState}

theorem freeBlocks_eq {t lo hi : Nat}
    (fl : FreeList s t lo hi bs) : freeBlocks s t = bs := by
  unfold freeBlocks
  rw [fl.head]
  exact walk_eq fl.seg fl.laid fl.length_lt_fuel

theorem headerAt_blockOf {m : Mem} {ptr : Nat} {u : Span} (h : HeaderAt m ptr u) : blockOf m ptr = u := by
  obtain ⟨-, size, start⟩ := h
  unfold blockOf
  rw [size, start]

structure Placed (s : HeapState) (lo hi : Nat) (bs : List Span) (g : Grant) : Prop where
  live : Live s lo hi bs g.ptr (blockOf s.mem g.ptr)
  fits : g.ptr + g.req ≤ (blockOf s.mem g.ptr).stop
  pos : 0 < g.req
  aligned : g.ptr % g.alignment = 0

structure HeapOk (s : HeapState) (t lo hi : Nat) (held : List Grant) : Prop where
  free : FreeList s t lo hi (freeBlocks s t)
  spaced : Spaced (freeBlocks s t)
  placed : ∀ g ∈ held, Placed s lo hi (freeBlocks s t) g
  apart : held.Pairwise fun g h => (blockOf s.mem g.ptr).Clear (blockOf s.mem h.ptr)

structure SessionOk (L : Layout) (s : Session) : Prop where
  heaps : ∀ t, L.used t → HeapOk s.heap t (L.lo t) (L.hi t) (s.live.filter fun g => L.route g.heapType = t)
  typed : ∀ g ∈ s.live, g.heapType < heapTypeMax
  unused : ∀ t, t < heapTypeMax → ¬ L.used t → (s.heap.heapInfo t).freeList = 0

variable {lo hi : Nat} {g : Grant}

theorem Placed.size_pos
    (h : Placed s lo hi bs g) : 0 < (blockOf s.mem g.ptr).size := by
  have := h.live.room
  simp only [minSize] at this
  omega

theorem Placed.header_subset
    (h : Placed s lo hi bs g) : g.header.bytes ⊆ (blockOf s.mem g.ptr).bytes := by
  intro x hx
  have front := h.live.front
  have back := h.live.back
  simp only [Grant.header, Span.mem_bytes, Span.stop_mk] at *
  omega

theorem Placed.header_disjoint
    (h : Placed s lo hi bs g) : Disjoint g.header.bytes (covered bs) :=
  ((disjoint_of_clear h.live.clear).symm).mono_left h.header_subset

theorem Placed.congr {s s' : HeapState} {bs bs' : List Span}
    {F : Finset Nat} (h : Placed s lo hi bs g) (changed : ChangedIn F s.mem s'.mem) (apart : Disjoint g.header.bytes F)
    (clear : ∀ b ∈ bs', (blockOf s.mem g.ptr).Clear b) :
    Placed s' lo hi bs' g ∧ blockOf s'.mem g.ptr = blockOf s.mem g.ptr := by
  have header : HeaderAt s'.mem g.ptr (blockOf s.mem g.ptr) :=
    h.live.header.congr (changed.agreeOn (s := g.header) apart)
  have same := headerAt_blockOf header
  refine ⟨⟨?_, ?_, h.pos, h.aligned⟩, same⟩
  · rw [same]
    exact ⟨header, h.live.front, h.live.back, h.live.room, h.live.within, clear⟩
  · rw [same]
    exact h.fits

section
variable {s' : HeapState} {t : Nat} {held : List Grant}

theorem HeapOk.congr {F : Finset Nat} (ok : HeapOk s t lo hi held)
    (info : s'.heapInfo t = s.heapInfo t) (changed : ChangedIn F s.mem s'.mem)
    (free : Disjoint (covered (freeBlocks s t)) F) (headers : ∀ g ∈ held, Disjoint g.header.bytes F) :
    HeapOk s' t lo hi held ∧ freeBlocks s' t = freeBlocks s t ∧
      ∀ g ∈ held, blockOf s'.mem g.ptr = blockOf s.mem g.ptr := by
  have fl := ok.free.congr info changed free
  have same : freeBlocks s' t = freeBlocks s t := freeBlocks_eq fl
  have kept : ∀ g ∈ held, Placed s' lo hi (freeBlocks s t) g ∧ blockOf s'.mem g.ptr = blockOf s.mem g.ptr := fun g hg =>
    (ok.placed g hg).congr changed (headers g hg) (ok.placed g hg).live.clear
  refine ⟨⟨same ▸ fl, same ▸ ok.spaced, ?_, ?_⟩, same, fun g hg => (kept g hg).2⟩
  · rw [same]
    exact fun g hg => (kept g hg).1
  · refine ok.apart.imp_of_mem fun hg hh clear => ?_
    rw [(kept _ hg).2, (kept _ hh).2]
    exact clear

theorem HeapOk.grant {bs' : List Span} {u : Span} {g : Grant} (ok : HeapOk s t lo hi held)
    (granted : Granted s s' t lo hi (freeBlocks s t) bs' u g.ptr g.req) (pos : 0 < g.req)
    (aligned : g.ptr % g.alignment = 0) :
    HeapOk s' t lo hi (g :: held) ∧ freeBlocks s' t = bs' ∧ blockOf s'.mem g.ptr = u ∧
      ∀ h ∈ held, blockOf s'.mem h.ptr = blockOf s.mem h.ptr := by
  have same : freeBlocks s' t = bs' := freeBlocks_eq granted.free
  have block : blockOf s'.mem g.ptr = u := headerAt_blockOf granted.header
  have wide := granted.room
  simp only [minSize] at wide
  have outside : ∀ h ∈ held, Disjoint (blockOf s.mem h.ptr).bytes (covered (freeBlocks s t)) :=
    fun h hh => (disjoint_of_clear (ok.placed h hh).live.clear).symm
  have kept : ∀ h ∈ held, Placed s' lo hi bs' h ∧ blockOf s'.mem h.ptr = blockOf s.mem h.ptr := by
    intro h hh
    apply (ok.placed h hh).congr granted.touched.mem (ok.placed h hh).header_disjoint
    intro b hb
    have room := (granted.free.laid.room b hb).2.1
    simp only [minSize] at room
    apply Span.clear_of_disjoint (ok.placed h hh).size_pos (by omega)
    exact (outside h hh).mono_right ((mem_covered_of_mem hb).trans granted.shrinks)
  have new : Placed s' lo hi bs' g := by
    refine ⟨?_, ?_, pos, aligned⟩
    · rw [block]
      exact ⟨granted.header, granted.front, by have := granted.back; omega, granted.room, granted.within, granted.clear⟩
    · rw [block]
      exact granted.back
  refine ⟨⟨same ▸ granted.free, same ▸ granted.spaced ok.spaced, ?_, ?_⟩, same, block, fun h hh => (kept h hh).2⟩
  · rw [same]
    intro h hh
    rcases List.mem_cons.mp hh with rfl | hh
    · exact new
    · exact (kept h hh).1
  · rw [List.pairwise_cons]
    constructor
    · intro h hh
      rw [block, (kept h hh).2]
      apply Span.clear_of_disjoint (by omega) (ok.placed h hh).size_pos
      exact ((outside h hh).mono_right granted.taken).symm
    · refine ok.apart.imp_of_mem fun hg hh clear => ?_
      rw [(kept _ hg).2, (kept _ hh).2]
      exact clear

theorem HeapOk.release {bs' : List Span} {g : Grant} (ok : HeapOk s t lo hi held) (hg : g ∈ held)
    (returned : Returned s s' t lo hi (freeBlocks s t) bs' (blockOf s.mem g.ptr)) :
    HeapOk s' t lo hi (drop held g.ptr) ∧ freeBlocks s' t = bs' ∧
      ∀ h ∈ drop held g.ptr, blockOf s'.mem h.ptr = blockOf s.mem h.ptr := by
  have same : freeBlocks s' t = bs' := freeBlocks_eq returned.free
  have others : ∀ h ∈ drop held g.ptr, h ∈ held ∧ (blockOf s.mem h.ptr).Clear (blockOf s.mem g.ptr) := by
    intro h hh
    obtain ⟨mem, different⟩ := List.mem_filter.mp hh
    have different : h.ptr ≠ g.ptr := of_decide_eq_true different
    have : Std.Symm fun g h : Grant => (blockOf s.mem g.ptr).Clear (blockOf s.mem h.ptr) :=
      ⟨fun _ _ clear => clear.symm⟩
    exact ⟨mem, ok.apart.forall mem hg fun equal => different (by rw [equal])⟩
  have outside : ∀ h ∈ drop held g.ptr, Disjoint (blockOf s.mem h.ptr).bytes
      (covered (freeBlocks s t) ∪ (blockOf s.mem g.ptr).bytes) := by
    intro h hh
    obtain ⟨mem, clear⟩ := others h hh
    rw [Finset.disjoint_union_right]
    exact ⟨(disjoint_of_clear (ok.placed h mem).live.clear).symm, clear.disjoint⟩
  have kept : ∀ h ∈ drop held g.ptr, Placed s' lo hi bs' h ∧ blockOf s'.mem h.ptr = blockOf s.mem h.ptr := by
    intro h hh
    have placed := ok.placed h (others h hh).1
    apply placed.congr returned.touched.mem ((outside h hh).mono_left placed.header_subset)
    intro b hb
    have room := (returned.free.laid.room b hb).2.1
    simp only [minSize] at room
    apply Span.clear_of_disjoint placed.size_pos (by omega)
    apply (outside h hh).mono_right
    rw [← returned.covers]
    exact mem_covered_of_mem hb
  refine ⟨⟨same ▸ returned.free, same ▸ returned.spaced, ?_, ?_⟩, same, fun h hh => (kept h hh).2⟩
  · rw [same]
    exact fun h hh => (kept h hh).1
  · refine (ok.apart.filter _).imp_of_mem fun hg hh clear => ?_
    rw [(kept _ hg).2, (kept _ hh).2]
    exact clear

end

end Cboot.Heap
