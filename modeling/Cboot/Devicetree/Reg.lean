import Mathlib.Data.List.GetD
import Mathlib.Data.List.Induction
import Cboot.Lib.Codec
import Cboot.PluginManager.Overlay

/-!
`tegrabl_dt_read_reg_by_index` of `lib/devicetree/tegrabl_devicetree.c`.
-/

namespace Cboot.Devicetree
open Lib Forest Positional
open PluginManager (Dtb Node Text ascii layout lookup propsOf)

/-- `fdt32_to_cpu` of a cell of a property, with the memory behind it. -/
def fdt32 (behind : Nat → UInt8) (prop : List UInt8) (cell : Nat) : UInt32 :=
  let byte i := (prop.getD (4 * cell + i) (behind (4 * cell + i - prop.length))).toUInt32
  (byte 0 <<< 24) ||| (byte 1 <<< 16) ||| (byte 2 <<< 8) ||| byte 3

def fdtParentOffset (fdt : Dtb) (nd : Nat) : Option Nat := fdt.parentAt layout 0 none nd

/-- The loop that goes up from a node until the property is found, for `fuel` turns at most. -/
def cellsFrom (behind : Nat → UInt8) (fdt : Dtb) (name : Text) : Nat → Nat → UInt32
  | 0, _ => 0
  | fuel + 1, offset =>
    match fdtParentOffset fdt offset with
    | none => 0
    | some offset =>
      match lookup (propsOf fdt offset) name with
      | some cells => fdt32 behind cells 0
      | none => if offset = 0 then 0 else cellsFrom behind fdt name fuel offset

/-- No parent has the offset of its child, so there are as many turns as the loop can make. -/
def cellsOf (behind : Nat → UInt8) (fdt : Dtb) (name : Text) (nd : Nat) : Nat :=
  (cellsFrom behind fdt name (nd + 1) nd).toNat

inductive RegError where
  | noError
  | notFound
  deriving DecidableEq, Repr

/-- What is left at a pointer that may be `NULL`, where `prop_p` is then, and the cells that were read. -/
structure Field where
  value : Option UInt64
  next : Nat
  reads : List Nat

def readField (behind : Nat → UInt8) (prop : List UInt8) (field : Option UInt64) (cells p : Nat) : Field :=
  match field with
  | none => ⟨none, p, []⟩
  | some value =>
    if cells = 1 then ⟨some (fdt32 behind prop p).toUInt64, p + 1, [p]⟩
    else if cells = 2 then
      ⟨some ((fdt32 behind prop p).toUInt64 <<< 32 ||| (fdt32 behind prop (p + 1)).toUInt64), p + 2, [p, p + 1]⟩
    else ⟨some value, p, []⟩

structure Outcome where
  err : RegError
  addr : Option UInt64
  size : Option UInt64
  reads : List Nat

def tegrablDtReadRegByIndex (behind : Nat → UInt8) (fdt : Dtb) (nd : Nat) (index : UInt32) (addr size : Option UInt64) :
    Outcome :=
  match lookup (propsOf fdt nd) (ascii "reg") with
  | none => ⟨.noError, addr, size, []⟩
  | some prop =>
    let addrCells := cellsOf behind fdt (ascii "#address-cells") nd
    let sizeCells := cellsOf behind fdt (ascii "#size-cells") nd
    let count := if addrCells + sizeCells ≠ 0 then prop.length / ((addrCells + sizeCells) * 4) else 0
    if index.toNat > count then ⟨.notFound, addr, size, []⟩
    else
      let addr := readField behind prop addr addrCells (index.toNat * (addrCells + sizeCells))
      let size := readField behind prop size sizeCells addr.next
      ⟨.noError, addr.value, size.value, addr.reads ++ size.reads⟩

def enclosing (ctx : List (Frame Node)) : List Node :=
  ctx.reverse.filterMap fun
    | .into a _ => some a
    | .past _ _ => none

def Applicable (behind : Nat → UInt8) (fdt : Dtb) (nd : Nat) (name : Text) (cells : Nat) : Prop :=
  ∃ ctx a below next value, fdt = plug ctx (.node a below next) ∧ nd = offset layout ctx ∧
    (enclosing ctx).findSome? (fun node => lookup node.props name) = some value ∧ (fdt32 behind value 0).toNat = cells

def number (prop : List UInt8) (start cells : Nat) : Nat :=
  encode 256 (((prop.drop (4 * start)).take (4 * cells)).map (·.toNat))

structure Shape where
  prop : List UInt8
  addrCells : Nat
  sizeCells : Nat

def Shape.cells (r : Shape) : Nat := r.addrCells + r.sizeCells
def Shape.pairs (r : Shape) : Nat := r.prop.length / (4 * r.cells)
def Shape.address (r : Shape) (i : Nat) : Nat := number r.prop (i * r.cells) r.addrCells
def Shape.length (r : Shape) (i : Nat) : Nat := number r.prop (i * r.cells + r.addrCells) r.sizeCells

/-- A pointer that is not `NULL` has the number. -/
def Holds (field value : Option UInt64) (n : Nat) : Prop := value.map (·.toNat) = field.map fun _ => n

structure Exact (r : Shape) (index : Nat) (addr size : Option UInt64) (o : Outcome) : Prop where
  found : o.err = .noError ∧ Holds addr o.addr (r.address index) ∧ Holds size o.size (r.length index) ↔ index < r.pairs
  missing : ¬ index < r.pairs → o.err ≠ .noError ∧ o.addr = addr ∧ o.size = size
  inside : ∀ p ∈ o.reads, 4 * p + 4 ≤ r.prop.length

/-- Where it is met. A size that is asked for alone is read from where the address begins. -/
def Meets (r : Shape) (index : Nat) (addr size : Option UInt64) : Prop :=
  index ≠ r.pairs ∧
    (index < r.pairs → addr ≠ none ∨ size = none ∨ number r.prop (index * r.cells) r.sizeCells = r.length index)

section
variable {behind : Nat → UInt8} {fdt : Dtb} {prop : List UInt8} {p cells : Nat} {name : Text}

theorem enclosing_into (ctx : List (Frame Node)) (a : Node) (next : Dtb) :
    enclosing (ctx ++ [.into a next]) = a :: enclosing ctx := by
  simp [enclosing]

theorem enclosing_past (ctx : List (Frame Node)) (a : Node) (below : Dtb) :
    enclosing (ctx ++ [.past a below]) = enclosing ctx := by
  simp [enclosing]

theorem offset_zero {ctx : List (Frame Node)} (first : offset layout ctx = 0) : ctx = [] := by
  cases ctx with
  | nil => rfl
  | cons frame ctx =>
    rw [offset_cons] at first
    cases frame with
    | into a next =>
      have pos := layout.pos a
      rw [Frame.width] at first
      omega
    | past a below =>
      have pos := layout.pos a
      rw [Frame.width] at first
      omega

theorem cellsFrom_eq {ctx : List (Frame Node)} {a : Node} {below next : Dtb} {fuel : Nat}
    (place : fdt = plug ctx (.node a below next)) (enough : offset layout ctx < fuel) :
    cellsFrom behind fdt name fuel (offset layout ctx) =
      ((enclosing ctx).findSome? fun node => lookup node.props name).elim 0 fun value => fdt32 behind value 0 := by
  induction ctx using List.reverseRecOn generalizing a below next fuel with
  | nil =>
    obtain ⟨fuel, rfl⟩ : ∃ k, fuel = k + 1 := ⟨fuel - 1, by omega⟩
    rw [cellsFrom, fdtParentOffset, place, parentAt_plug]
    rfl
  | append_singleton ctx frame ih =>
    obtain ⟨fuel, rfl⟩ : ∃ k, fuel = k + 1 := ⟨fuel - 1, by omega⟩
    have there := place
    rw [plug_concat] at there
    rw [offset_concat] at enough
    cases frame with
    | past b sub =>
      have parent : fdtParentOffset fdt (offset layout (ctx ++ [.past b sub])) =
          fdtParentOffset fdt (offset layout ctx) := by
        rw [fdtParentOffset, fdtParentOffset, place, parentAt_plug, around_past, plug_concat]
        exact (parentAt_plug ..).symm
      rw [cellsFrom, parent, enclosing_past, ← ih there (by omega : offset layout ctx < fuel + 1)]
      rfl
    | into b rest =>
      have pos := layout.pos b
      rw [Frame.width] at enough
      have parent : fdtParentOffset fdt (offset layout (ctx ++ [.into b rest])) = some (offset layout ctx) := by
        rw [fdtParentOffset, place, parentAt_plug, around_into, Nat.zero_add]
      have props : propsOf fdt (offset layout ctx) = b.props := by
        rw [there]
        exact PluginManager.propsOf_plug
      rw [cellsFrom, parent, enclosing_into, List.findSome?_cons]
      dsimp only
      rw [props]
      cases lookup b.props name with
      | some value => rfl
      | none =>
        dsimp only
        split
        next first => rw [offset_zero first]; rfl
        next => exact ih there (by omega)

theorem cellsOf_eq {nd : Nat} (applicable : Applicable behind fdt nd name cells) : cellsOf behind fdt name nd = cells := by
  obtain ⟨ctx, a, below, next, value, place, rfl, found, rfl⟩ := applicable
  rw [cellsOf, cellsFrom_eq place (Nat.lt_succ_self _), found]
  rfl

theorem or_low {k hi lo : Nat} (low : lo < 2 ^ k) : hi <<< k ||| lo = hi * 2 ^ k + lo := by
  rw [← Nat.shiftLeft_add_eq_or_of_lt low, Nat.shiftLeft_eq]

theorem four_bytes (b₀ b₁ b₂ b₃ : UInt8) :
    ((b₀.toUInt32 <<< 24) ||| (b₁.toUInt32 <<< 16) ||| (b₂.toUInt32 <<< 8) ||| b₃.toUInt32).toNat =
      encode 256 ([b₀, b₁, b₂, b₃].map (·.toNat)) := by
  have lt₀ := b₀.toNat_lt
  have lt₁ := b₁.toNat_lt
  have lt₂ := b₂.toNat_lt
  have lt₃ := b₃.toNat_lt
  have shifted (b : UInt8) (k : Nat) (fits : b.toNat * 2 ^ k < 2 ^ 32) : b.toNat <<< k % 2 ^ 32 = b.toNat <<< k := by
    rw [Nat.shiftLeft_eq]
    exact Nat.mod_eq_of_lt fits
  simp only [UInt32.toNat_or, UInt32.toNat_shiftLeft, UInt8.toNat_toUInt32, UInt32.reduceToNat, Nat.reduceMod]
  rw [shifted b₀ 24 (by omega), shifted b₁ 16 (by omega), shifted b₂ 8 (by omega), Nat.or_assoc, Nat.or_assoc,
    or_low (k := 8) (by omega), or_low (k := 16) (by omega), or_low (k := 24) (by omega)]
  simp [encode, encodeFrom]
  omega

theorem take_cell (p : Nat) (inside : 4 * p + 4 ≤ prop.length) (other : Nat → UInt8) :
    (prop.drop (4 * p)).take 4 = [prop.getD (4 * p) (other 0), prop.getD (4 * p + 1) (other 1),
      prop.getD (4 * p + 2) (other 2), prop.getD (4 * p + 3) (other 3)] := by
  rw [List.drop_eq_getElem_cons (by omega : 4 * p < prop.length), List.take_succ_cons,
    List.drop_eq_getElem_cons (by omega : 4 * p + 1 < prop.length), List.take_succ_cons,
    List.drop_eq_getElem_cons (by omega : 4 * p + 2 < prop.length), List.take_succ_cons,
    List.drop_eq_getElem_cons (by omega : 4 * p + 3 < prop.length), List.take_succ_cons, List.take_zero]
  rw [List.getD_eq_getElem, List.getD_eq_getElem, List.getD_eq_getElem, List.getD_eq_getElem]

theorem fdt32_toNat (behind : Nat → UInt8) (inside : 4 * p + 4 ≤ prop.length) :
    (fdt32 behind prop p).toNat = number prop p 1 := by
  rw [number, take_cell p inside fun i => behind (4 * p + i - prop.length)]
  exact four_bytes ..

theorem number_add (m n : Nat) (inside : 4 * (p + m + n) ≤ prop.length) :
    number prop p (m + n) = number prop p m * 256 ^ (4 * n) + number prop (p + m) n := by
  have split : (prop.drop (4 * p)).take (4 * (m + n)) =
      (prop.drop (4 * p)).take (4 * m) ++ (prop.drop (4 * (p + m))).take (4 * n) := by
    rw [Nat.mul_add, List.take_add, List.drop_drop, Nat.mul_add]
  have length : ((prop.drop (4 * (p + m))).take (4 * n)).length = 4 * n := by
    rw [List.length_take, List.length_drop]
    omega
  rw [number, split, List.map_append, encode_append, List.length_map, length]
  rfl

theorem next_readField (field : Option UInt64) (one : cells = 1 ∨ cells = 2) (p : Nat) :
    (readField behind prop field cells p).next = p + if field.isSome then cells else 0 := by
  rcases one with rfl | rfl
  all_goals cases field <;> rfl

theorem readField_inside {field : Option UInt64} (inside : 4 * (p + cells) ≤ prop.length) :
    ∀ q ∈ (readField behind prop field cells p).reads, 4 * q + 4 ≤ prop.length := by
  intro q member
  cases field with
  | none => cases member
  | some value =>
    rw [readField] at member
    split at member
    next one =>
      rw [List.mem_singleton.mp member]
      omega
    next =>
      split at member
      next two =>
        rcases List.mem_cons.mp member with rfl | last
        · omega
        · rw [List.mem_singleton.mp last]
          omega
      next => cases member

theorem readField_holds (field : Option UInt64) (one : cells = 1 ∨ cells = 2) (inside : 4 * (p + cells) ≤ prop.length) :
    Holds field (readField behind prop field cells p).value (number prop p cells) := by
  cases field with
  | none => rfl
  | some value =>
    have first := fdt32_toNat behind (by omega : 4 * p + 4 ≤ prop.length)
    rcases one with rfl | rfl
    · change some (fdt32 behind prop p).toUInt64.toNat = some _
      rw [UInt32.toNat_toUInt64, first]
    · have second := fdt32_toNat behind (by omega : 4 * (p + 1) + 4 ≤ prop.length)
      have low := (fdt32 behind prop (p + 1)).toNat_lt
      have high := (fdt32 behind prop p).toNat_lt
      change some ((fdt32 behind prop p).toUInt64 <<< 32 ||| (fdt32 behind prop (p + 1)).toUInt64).toNat = some _
      rw [UInt64.toNat_or, UInt64.toNat_shiftLeft, UInt32.toNat_toUInt64, UInt32.toNat_toUInt64]
      have fits : (fdt32 behind prop p).toNat <<< 32 % 2 ^ 64 = (fdt32 behind prop p).toNat <<< 32 := by
        rw [Nat.shiftLeft_eq]
        exact Nat.mod_eq_of_lt (by omega)
      simp only [UInt64.reduceToNat, Nat.reduceMod]
      rw [fits, or_low low, first, second, number_add 1 1 (by omega)]
      rfl

section
variable {nd : Nat} {r : Shape} {index : UInt32} {addr size : Option UInt64}

def pairAt (behind : Nat → UInt8) (r : Shape) (i : Nat) (addr size : Option UInt64) : Outcome :=
  let address := readField behind r.prop addr r.addrCells (i * r.cells)
  let length := readField behind r.prop size r.sizeCells address.next
  ⟨.noError, address.value, length.value, address.reads ++ length.reads⟩

theorem readReg_eq (reg : lookup (propsOf fdt nd) (ascii "reg") = some r.prop)
    (addresses : Applicable behind fdt nd (ascii "#address-cells") r.addrCells)
    (sizes : Applicable behind fdt nd (ascii "#size-cells") r.sizeCells) (one : r.addrCells = 1 ∨ r.addrCells = 2) :
    tegrablDtReadRegByIndex behind fdt nd index addr size =
      if index.toNat > r.pairs then ⟨.notFound, addr, size, []⟩ else pairAt behind r index.toNat addr size := by
  have some : r.addrCells + r.sizeCells ≠ 0 := by omega
  rw [tegrablDtReadRegByIndex, reg]
  dsimp only
  rw [cellsOf_eq addresses, cellsOf_eq sizes, if_pos some, Nat.mul_comm _ 4]
  rfl

variable {i : Nat}

theorem pair_inside (complete : i < r.pairs) : 4 * (i * r.cells + r.cells) ≤ r.prop.length := by
  have whole : (i + 1) * (4 * r.cells) ≤ r.prop.length :=
    Nat.le_trans (Nat.mul_le_mul_right _ complete) (Nat.div_mul_le_self ..)
  rw [Nat.succ_mul, Nat.mul_left_comm] at whole
  omega

theorem holds_iff {field value : Option UInt64} {m n : Nat} (holds : Holds field value m) :
    Holds field value n ↔ field = none ∨ m = n := by
  rw [Holds, holds]
  cases field <;> simp

variable (one : r.addrCells = 1 ∨ r.addrCells = 2)
include one

theorem length_iff (one' : r.sizeCells = 1 ∨ r.sizeCells = 2)
    (complete : i < r.pairs) : Holds size (pairAt behind r i addr size).size (r.length i) ↔
      addr ≠ none ∨ size = none ∨ number r.prop (i * r.cells) r.sizeCells = r.length i := by
  have within := pair_inside complete
  have cells : r.cells = r.addrCells + r.sizeCells := rfl
  rw [pairAt]
  dsimp only
  rw [next_readField addr one]
  cases addr with
  | none =>
    rw [holds_iff (readField_holds size one' (by simp; omega))]
    simp
  | some value =>
    refine iff_of_true (readField_holds size one' ?_) (.inl (by simp))
    rw [Option.isSome_some, if_pos rfl]
    omega

theorem pairAt_inside (complete : i < r.pairs) :
    ∀ p ∈ (pairAt behind r i addr size).reads, 4 * p + 4 ≤ r.prop.length := by
  have within := pair_inside complete
  have cells : r.cells = r.addrCells + r.sizeCells := rfl
  intro p member
  rcases List.mem_append.mp member with address | length
  · exact readField_inside (by omega) p address
  · rw [next_readField addr one] at length
    refine readField_inside ?_ p length
    split <;> omega

theorem pairAt_exact (one' : r.sizeCells = 1 ∨ r.sizeCells = 2)
    (complete : i < r.pairs) : Exact r i addr size (pairAt behind r i addr size) ↔ Meets r i addr size := by
  have within := pair_inside complete
  have cells : r.cells = r.addrCells + r.sizeCells := rfl
  have address : Holds addr (pairAt behind r i addr size).addr (r.address i) := readField_holds addr one (by omega)
  constructor
  · rintro ⟨found, -, -⟩
    exact ⟨Nat.ne_of_lt complete, fun _ => (length_iff one one' complete).mp (found.mpr complete).2.2⟩
  · rintro ⟨-, met⟩
    have length : Holds size (pairAt behind r i addr size).size (r.length i) :=
      (length_iff one one' complete).mpr (met complete)
    exact ⟨iff_of_true ⟨rfl, address, length⟩ complete, fun none => absurd complete none, pairAt_inside one complete⟩

omit one

/-- The index behind the last pair is let through, and a size without an address is read from the place of one. -/
theorem readReg_iff (reg : lookup (propsOf fdt nd) (ascii "reg") = some r.prop)
    (addresses : Applicable behind fdt nd (ascii "#address-cells") r.addrCells)
    (sizes : Applicable behind fdt nd (ascii "#size-cells") r.sizeCells)
    (one : r.addrCells = 1 ∨ r.addrCells = 2) (one' : r.sizeCells = 1 ∨ r.sizeCells = 2)
    (index : UInt32) (addr size : Option UInt64) :
    Exact r index.toNat addr size (tegrablDtReadRegByIndex behind fdt nd index addr size) ↔
      Meets r index.toNat addr size := by
  rw [readReg_eq reg addresses sizes one]
  rcases Nat.lt_trichotomy index.toNat r.pairs with complete | last | past
  · rw [if_neg (by omega)]
    exact pairAt_exact one one' complete
  · rw [if_neg (by omega)]
    constructor
    · rintro ⟨-, missing, -⟩
      exact absurd rfl (missing (by omega)).1
    · rintro ⟨other, -⟩
      exact absurd last other
  · rw [if_pos past]
    refine iff_of_true ⟨iff_of_false ?_ (by omega), fun _ => ⟨?_, rfl, rfl⟩, ?_⟩ ⟨by omega, fun complete => by omega⟩
    · rintro ⟨error, -⟩
      cases error
    · intro error
      cases error
    · intro p member
      cases member

end

end

def bus : Node :=
  ⟨[], [⟨ascii "#address-cells", [0, 0, 0, 1]⟩, ⟨ascii "#size-cells", [0, 0, 0, 1]⟩]⟩

def device : Node := ⟨ascii "device", [⟨ascii "reg", [0, 0, 0x10, 0, 0, 0, 2, 0]⟩]⟩

def deviceTree : Dtb := .node bus (.node device .nil .nil) .nil

def deviceReg : Shape := ⟨[0, 0, 0x10, 0, 0, 0, 2, 0], 1, 1⟩

theorem deviceCells (behind : Nat → UInt8) :
    Applicable behind deviceTree 40 (ascii "#address-cells") 1 ∧ Applicable behind deviceTree 40 (ascii "#size-cells") 1 :=
  have one : (fdt32 behind [0, 0, 0, 1] 0).toNat = 1 := (fdt32_toNat behind (by decide)).trans (by decide)
  ⟨⟨[.into bus .nil], device, .nil, .nil, [0, 0, 0, 1], rfl, rfl, rfl, one⟩,
    ⟨[.into bus .nil], device, .nil, .nil, [0, 0, 0, 1], rfl, rfl, rfl, one⟩⟩

theorem readReg_first : Exact deviceReg (0 : UInt32).toNat (some 0) (some 0)
        (tegrablDtReadRegByIndex (fun _ => 0) deviceTree 40 0 (some 0) (some 0)) ↔
      Meets deviceReg (0 : UInt32).toNat (some 0) (some 0) :=
  readReg_iff rfl (deviceCells _).1 (deviceCells _).2 (.inl rfl) (.inl rfl) 0 (some 0) (some 0)

/-- The second pair of one is read from behind the property. -/
theorem readReg_last : ¬ ∀ behind fdt nd r, lookup (propsOf fdt nd) (ascii "reg") = some r.prop →
      Applicable behind fdt nd (ascii "#address-cells") r.addrCells →
      Applicable behind fdt nd (ascii "#size-cells") r.sizeCells →
      (r.addrCells = 1 ∨ r.addrCells = 2) → (r.sizeCells = 1 ∨ r.sizeCells = 2) → ∀ (index : UInt32) addr size,
        Exact r index.toNat addr size (tegrablDtReadRegByIndex behind fdt nd index addr size) := by
  intro all
  have ⟨_, missing, _⟩ := all (fun _ => 0) deviceTree 40 deviceReg rfl (deviceCells _).1 (deviceCells _).2 (.inl rfl)
    (.inl rfl) 1 (some 0) (some 0)
  exact (missing (by decide)).1 (by decide)

end Cboot.Devicetree
