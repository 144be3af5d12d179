import Cboot.Lib.ByteMemory

/-!
`lib/malloc/tegrabl_malloc.c` on a 64-bit target. The free list is threaded through the free memory
itself, so the model keeps one byte memory and reads and writes the block headers in it. `size_t`
and `uintptr_t` arithmetic wraps at `2 ^ 64`.
-/

namespace Cboot.Heap
open Lib

def freeMagic : Nat := 0xDEEFBEEE
def allocMagic : Nat := 0xDEADBEEE

/-- `sizeof(tegrabl_heap_free_block_t)`: a padded 32-bit magic, the size and two links. -/
def minSize : Nat := 32

/-- `sizeof(tegrabl_heap_alloc_block_t)`: a padded 32-bit magic, the size and the start. -/
def allocHeader : Nat := 24

def wordSize : Nat := 8

def heapDefault : Nat := 0
def heapDma : Nat := 1
def heapTypeMax : Nat := 2

def add64 (a b : Nat) : Nat := (a + b) % 2 ^ 64
def sub64 (a b : Nat) : Nat := (a + (2 ^ 64 - b % 2 ^ 64)) % 2 ^ 64
def mul64 (a b : Nat) : Nat := a * b % 2 ^ 64

def divCeil (n d : Nat) : Nat := sub64 (add64 n d) 1 / d
def roundUp (n w : Nat) : Nat := mul64 (divCeil n w) w

/-! ### Block headers

A free block holds `magic`, `size`, `prev` and `next` at offsets 0, 8, 16 and 24. An allocated block
holds `magic`, `size` and `start` at offsets 0, 8 and 16. -/

def ldMagic (m : Mem) (p : Nat) : Nat := readLE m p 4
def ldSize (m : Mem) (p : Nat) : Nat := readLE m (p + 8) 8
def ldPrev (m : Mem) (p : Nat) : Nat := readLE m (p + 16) 8
def ldNext (m : Mem) (p : Nat) : Nat := readLE m (p + 24) 8
def ldStart (m : Mem) (p : Nat) : Nat := readLE m (p + 16) 8

def stMagic (m : Mem) (p v : Nat) : Mem := writeLE m p 4 v
def stSize (m : Mem) (p v : Nat) : Mem := writeLE m (p + 8) 8 v
def stPrev (m : Mem) (p v : Nat) : Mem := writeLE m (p + 16) 8 v
def stNext (m : Mem) (p v : Nat) : Mem := writeLE m (p + 24) 8 v
def stStart (m : Mem) (p v : Nat) : Mem := writeLE m (p + 16) 8 v

structure HeapInfo where
  maxSize : Nat := 0
  freeSize : Nat := 0
  start : Nat := 0
  endAddr : Nat := 0
  freeList : Nat := 0
  deriving DecidableEq, Repr

/-- The memory and the static `heap_info` table. -/
structure HeapState where
  mem : Mem
  heapInfo : Nat → HeapInfo := fun _ => {}

/-- The ways a call can fail to return: a corruption hang, a failed `TEGRABL_ASSERT`, a store
through the null pointer, a walk that does not end. -/
inductive Fault where
  | hang
  | assertFailed
  | nullStore
  | endless
  deriving DecidableEq, Repr

inductive InitError where
  | tooSmall
  | invalid
  | alreadyExists
  deriving DecidableEq, Repr

abbrev HeapM := Except Fault

def ensure (c : Prop) [Decidable c] (f : Fault) : HeapM Unit := if c then pure () else throw f

namespace HeapState

def setInfo (s : HeapState) (t : Nat) (f : HeapInfo → HeapInfo) : HeapState :=
  { s with heapInfo := Function.update s.heapInfo t (f (s.heapInfo t)) }

def setFreeList (s : HeapState) (t p : Nat) : HeapState :=
  s.setInfo t fun i => { i with freeList := p }

def setFreeSize (s : HeapState) (t n : Nat) : HeapState :=
  s.setInfo t fun i => { i with freeSize := n }

/-- A bound on walks of the free list: a list with more blocks than the heap has bytes has a
cycle. -/
def fuel (s : HeapState) (t : Nat) : Nat := (s.heapInfo t).maxSize + 1

end HeapState

/-- `tegrabl_heap_init`: the result code (`none` is `TEGRABL_NO_ERROR`) and the state after. -/
def tegrablHeapInit (s : HeapState) (heapType start size : Nat) :
    HeapM (Option InitError × HeapState) := do
  if size < minSize then
    return (some .tooSmall, s)
  if heapTypeMax ≤ heapType then
    return (some .invalid, s)
  if (s.heapInfo heapType).freeList ≠ 0 then
    return (some .alreadyExists, s)
  ensure (start ≠ 0) .nullStore
  let m := stPrev s.mem start 0
  let m := stNext m start 0
  let m := stSize m start size
  let m := stMagic m start freeMagic
  return (none, ({ s with mem := m } : HeapState).setInfo heapType fun _ =>
    { maxSize := size, freeSize := size, start := start, endAddr := add64 start size, freeList := start })

def checkLink (s : HeapState) (t curBlock prevBlock nextBlock : Nat) : HeapM Unit := do
  let start := curBlock
  let stop := add64 start (ldSize s.mem curBlock)
  ensure (¬ stop < start) .hang
  ensure (¬ (start < (s.heapInfo t).start ∨ (s.heapInfo t).endAddr < stop)) .hang
  ensure (¬ (prevBlock ≠ 0 ∧ ldNext s.mem prevBlock ≠ curBlock)) .hang
  ensure (¬ (nextBlock ≠ 0 ∧ ldPrev s.mem nextBlock ≠ curBlock)) .hang

def validateAllocatedBlock (s : HeapState) (t allocBlock : Nat) : HeapM Unit := do
  let start := ldStart s.mem allocBlock
  let stop := add64 start (ldSize s.mem allocBlock)
  ensure (¬ (stop < start ∨ allocBlock < start ∨ stop < allocBlock)) .hang
  ensure (ldMagic s.mem allocBlock = allocMagic) .hang
  ensure (¬ (start < (s.heapInfo t).start ∨ (s.heapInfo t).endAddr < stop)) .hang
  let totalFreeSize := add64 (ldSize s.mem allocBlock) (s.heapInfo t).freeSize
  ensure (¬ (totalFreeSize < (s.heapInfo t).freeSize ∨ (s.heapInfo t).maxSize < totalFreeSize)) .hang

def setPrevOf (m : Mem) (p v : Nat) : Mem := if p ≠ 0 then stPrev m p v else m

def setNextOf (m : Mem) (p v : Nat) : Mem := if p ≠ 0 then stNext m p v else m

/-- `tegrabl_heap_split_block`: the allocated block is `freeBlock` itself, its size is in its
header. -/
def tegrablHeapSplitBlock (s : HeapState) (t freeBlock size : Nat) : HeapM HeapState := do
  ensure (freeBlock ≠ 0) .assertFailed
  let remainingSize := sub64 (ldSize s.mem freeBlock) size
  let prevBlock := ldPrev s.mem freeBlock
  let nextBlock := ldNext s.mem freeBlock
  checkLink s t freeBlock prevBlock nextBlock
  let m := stNext (stPrev s.mem freeBlock 0) freeBlock 0
  if remainingSize ≤ minSize then
    -- The block is taken whole and leaves the list.
    let s₁ := if freeBlock = (s.heapInfo t).freeList then s.setFreeList t nextBlock else s
    let m := setNextOf (setPrevOf m nextBlock prevBlock) prevBlock nextBlock
    return { s₁ with mem := m }.setFreeSize t (sub64 (s.heapInfo t).freeSize (ldSize m freeBlock))
  else
    let newFree := add64 freeBlock size
    let m := stNext (stPrev m newFree prevBlock) newFree nextBlock
    let m := setPrevOf (setNextOf m prevBlock newFree) nextBlock newFree
    let m := stMagic (stSize m newFree remainingSize) newFree freeMagic
    let m := stSize m freeBlock size
    ensure (¬ (s.heapInfo t).freeSize < size) .hang
    let s₁ := if freeBlock = (s.heapInfo t).freeList then s.setFreeList t newFree else s
    return { s₁ with mem := m }.setFreeSize t (sub64 (s.heapInfo t).freeSize (ldSize m freeBlock))

/-- The loop of `tegrabl_generic_malloc`: the first block larger than `allocSize`, or 0. -/
def findFree (m : Mem) (allocSize : Nat) : Nat → Nat → HeapM Nat
  | 0, _ => throw .endless
  | fuel + 1, freeBlock =>
    if freeBlock = 0 then pure 0
    else do
      ensure (ldMagic m freeBlock = freeMagic) .assertFailed
      if allocSize < ldSize m freeBlock then
        ensure (ldMagic m freeBlock = freeMagic) .hang
        return freeBlock
      else findFree m allocSize fuel (ldNext m freeBlock)

def tegrablGenericMalloc (s : HeapState) (t size : Nat) : HeapM (Nat × HeapState) := do
  if size = 0 ∨ (s.heapInfo t).freeSize < size then
    return (0, s)
  let allocSize := add64 (roundUp size wordSize) allocHeader
  if allocSize < size then
    return (0, s)
  let allocSize := max allocSize minSize
  let freeBlock ← findFree s.mem allocSize (s.fuel t) (s.heapInfo t).freeList
  if freeBlock = 0 then
    return (0, s)
  let s ← tegrablHeapSplitBlock s t freeBlock allocSize
  let m := stMagic (stStart s.mem freeBlock freeBlock) freeBlock allocMagic
  return (freeBlock + allocHeader, { s with mem := m })

def tegrablMalloc (s : HeapState) (size : Nat) : HeapM (Nat × HeapState) :=
  tegrablGenericMalloc s heapDefault size

/-- The heap that `tegrabl_alloc`, `tegrabl_alloc_align` and `tegrabl_dealloc` use for a type. -/
def routeType (s : HeapState) (heapType : Nat) : Nat :=
  if (s.heapInfo heapDma).freeList = 0 then heapDefault else heapType

def tegrablAlloc (s : HeapState) (heapType size : Nat) : HeapM (Nat × HeapState) :=
  if heapTypeMax ≤ heapType then pure (0, s)
  else tegrablGenericMalloc s (routeType s heapType) size

def tegrablHeapMergeWithNext (m : Mem) (curBlock nextBlock : Nat) : HeapM Mem := do
  let curMemEnd := add64 curBlock (ldSize m curBlock)
  ensure (¬ (curMemEnd < curBlock ∨ nextBlock < curMemEnd)) .hang
  if curMemEnd = nextBlock then
    let m := stSize m curBlock (add64 (ldSize m curBlock) (ldSize m nextBlock))
    let m := stNext m curBlock (ldNext m nextBlock)
    return setPrevOf m (ldNext m nextBlock) curBlock
  else
    return m

/-- `tegrabl_heap_merge_blocks`: the memory after, and the block from which merging goes on. -/
def tegrablHeapMergeBlocks (m : Mem) (freeBlock : Nat) : HeapM (Mem × Nat) := do
  let next := ldNext m freeBlock
  let prev := ldPrev m freeBlock
  let m ← if next ≠ 0 then tegrablHeapMergeWithNext m freeBlock next else pure m
  if prev ≠ 0 then
    let m ← tegrablHeapMergeWithNext m prev freeBlock
    return (m, prev)
  else
    return (m, freeBlock)

/-- The merge loop of `tegrabl_generic_free`, back to the head of the list. -/
def mergeLoop : Nat → Mem → Nat → HeapM (Mem × Nat)
  | 0, _, _ => throw .endless
  | fuel + 1, m, tmpFree => do
    let (m, freeBlock) ← tegrablHeapMergeBlocks m tmpFree
    if freeBlock = tmpFree then return (m, tmpFree) else mergeLoop fuel m freeBlock

/-- The search loop of `tegrabl_generic_free`: the neighbours of `ptr` in the list. -/
def findNeighbours (m : Mem) (ptr : Nat) : Nat → Nat → Nat → HeapM (Nat × Nat)
  | 0, _, _ => throw .endless
  | fuel + 1, prevBlock, freeBlock =>
    if freeBlock ≠ 0 ∧ freeBlock < ptr then
      findNeighbours m ptr fuel freeBlock (ldNext m freeBlock)
    else pure (prevBlock, freeBlock)

/-- `tegrabl_generic_free`: the state after and the block that merging ended at (0 for `NULL`). -/
def tegrablGenericFree (s : HeapState) (t ptr : Nat) : HeapM (Nat × HeapState) := do
  if ptr = 0 then
    return (0, s)
  let allocBlock := sub64 ptr allocHeader
  validateAllocatedBlock s t allocBlock
  let tmpFree := ldStart s.mem allocBlock
  let freeSize := ldSize s.mem allocBlock
  let m := stSize s.mem tmpFree freeSize
  let (prevBlock, freeBlock) ← findNeighbours m ptr (s.fuel t) 0 (s.heapInfo t).freeList
  let m := setNextOf m prevBlock tmpFree
  let m := stNext (stPrev m tmpFree prevBlock) tmpFree freeBlock
  let m := stMagic m tmpFree freeMagic
  let m := setPrevOf m freeBlock tmpFree
  let (m, tmpFree) ← mergeLoop (s.fuel t) m tmpFree
  return (tmpFree, { s with mem := m }.setFreeSize t (add64 (s.heapInfo t).freeSize freeSize))

def updateFreeListHead (s : HeapState) (t freeBlock : Nat) : HeapState :=
  if (s.heapInfo t).freeList = 0 ∨ freeBlock < (s.heapInfo t).freeList then
    s.setFreeList t freeBlock
  else s

def tegrablDealloc (s : HeapState) (heapType ptr : Nat) : HeapM HeapState := do
  if heapTypeMax ≤ heapType then
    return s
  let type := routeType s heapType
  let (tmpFree, s) ← tegrablGenericFree s type ptr
  if tmpFree = 0 then
    return s
  return updateFreeListHead s type tmpFree

def tegrablFree (s : HeapState) (ptr : Nat) : HeapM HeapState := tegrablDealloc s heapDefault ptr

def tegrablCalloc (s : HeapState) (nmemb size : Nat) : HeapM (Nat × HeapState) := do
  let totalSize := mul64 size nmemb
  if size = 0 then
    return (0, s)
  if (s.heapInfo heapDefault).maxSize / size < nmemb then
    return (0, s)
  ensure (totalSize / size = nmemb) .assertFailed
  let (mem, s) ← tegrablMalloc s totalSize
  if mem ≠ 0 then
    return (mem, { s with mem := fillBytes s.mem mem totalSize 0 })
  return (mem, s)

def alignSize (freeBlock alignment : Nat) : Nat :=
  alignment - add64 freeBlock allocHeader % alignment

/-- `get_free_block`: the first block with room for the gap and the allocation, or 0. -/
def getFreeBlock (m : Mem) (alignment allocSize : Nat) : Nat → Nat → HeapM Nat
  | 0, _ => throw .endless
  | fuel + 1, freeBlock =>
    if freeBlock = 0 then pure 0
    else do
      let blockSize := ldSize m freeBlock
      ensure (ldMagic m freeBlock = freeMagic) .assertFailed
      if blockSize < allocSize then
        getFreeBlock m alignment allocSize fuel (ldNext m freeBlock)
      else if blockSize < add64 (alignSize freeBlock alignment) allocSize then
        getFreeBlock m alignment allocSize fuel (ldNext m freeBlock)
      else
        ensure (ldMagic m freeBlock = freeMagic) .hang
        return freeBlock

/-- The block behind the gap in `tegrabl_memalign_generic`: the split may have put a free block
between `prev` and `next`. -/
def successor (m : Mem) (prev next head : Nat) : Nat :=
  if prev = 0 ∧ next = 0 then head
  else if next = 0 then ldNext m prev
  else if ldPrev m next ≠ prev then ldPrev m next
  else next

def tegrablMemalignGeneric (s : HeapState) (t alignment size : Nat) : HeapM (Nat × HeapState) := do
  if size = 0 then
    return (0, s)
  let size := roundUp size wordSize
  let allocSize := max (add64 size allocHeader) minSize
  let freeBlock ← getFreeBlock s.mem alignment allocSize (s.fuel t) (s.heapInfo t).freeList
  if freeBlock = 0 then
    return (0, s)
  let prevBlock := ldPrev s.mem freeBlock
  let nextBlock := ldNext s.mem freeBlock
  let gap := alignSize freeBlock alignment
  let s ← tegrablHeapSplitBlock s t freeBlock (add64 allocSize gap)
  let origSize := ldSize s.mem freeBlock
  let found := add64 (add64 freeBlock allocHeader) gap
  -- Metadata is always before returned pointer.
  let allocBlock := add64 freeBlock gap
  let m := stSize s.mem allocBlock origSize
  let m := stMagic m allocBlock allocMagic
  let m := stStart m allocBlock freeBlock
  if gap < minSize then
    ensure (found % alignment = 0) .assertFailed
    return (found, { s with mem := m })
  let nextBlock := successor m prevBlock nextBlock (s.heapInfo t).freeList
  let m := stSize m allocBlock allocSize
  let m := stStart m allocBlock allocBlock
  let m := stNext m freeBlock nextBlock
  let m := stPrev m freeBlock prevBlock
  let m := stSize m freeBlock gap
  let m := stMagic m freeBlock freeMagic
  let s := s.setFreeSize t (add64 (s.heapInfo t).freeSize gap)
  ensure (nextBlock = 0 ∨ ldPrev m nextBlock = prevBlock) .assertFailed
  let m := setPrevOf m nextBlock freeBlock
  ensure (prevBlock = 0 ∨ ldNext m prevBlock = nextBlock) .assertFailed
  let m := setNextOf m prevBlock freeBlock
  let s := updateFreeListHead { s with mem := m } t freeBlock
  ensure (found % alignment = 0) .assertFailed
  return (found, s)

def isSizeAlignmentValid (s : HeapState) (t alignment size : Nat) : Bool :=
  let maxSize := add64 size alignment
  !(decide ((s.heapInfo t).maxSize < size) || decide ((s.heapInfo t).maxSize < alignment) ||
    decide ((s.heapInfo t).maxSize < maxSize) || decide (maxSize < size) ||
    decide (maxSize < alignment))

def tegrablAllocAlign (s : HeapState) (heapType alignment size : Nat) : HeapM (Nat × HeapState) :=
  if heapTypeMax ≤ heapType then pure (0, s)
  else
    let type := routeType s heapType
    if isSizeAlignmentValid s type alignment size then tegrablMemalignGeneric s type alignment size
    else pure (0, s)

def tegrablMemalign (s : HeapState) (alignment size : Nat) : HeapM (Nat × HeapState) :=
  if isSizeAlignmentValid s heapDefault alignment size then
    tegrablMemalignGeneric s heapDefault alignment size
  else pure (0, s)

end Cboot.Heap
