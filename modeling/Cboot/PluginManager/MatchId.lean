import Cboot.Lib.Codec
import Cboot.PluginManager.Model

/-!
`match_id` compares a pattern with the names of the properties of `/chosen/plugin-manager/ids`.
-/

namespace Cboot.PluginManager
open Lib Forest Positional

/-- `_fdt_nodename_eq`: a name without an address is that of a node with one. -/
def nodenameEq (p s : Text) : Bool :=
  p.take s.length = s &&
    (p.length = s.length || (!s.contains '@'.toUInt8 && p[s.length]? = some '@'.toUInt8))

def fdtSubnodeOffset (fdt : Dtb) (offset : Nat) (name : Text) : Option Nat :=
  (children fdt offset).find? fun nd => (fdtGetName fdt nd).any fun p => nodenameEq p name

/-- `fdt_path_offset`, with a path that is not an alias. -/
def fdtPathOffset (fdt : Dtb) (path : List Text) : Option Nat := path.foldlM (fdtSubnodeOffset fdt) 0

def fabDigit (id : UInt8) : Option Nat :=
  if '0'.toUInt8 ≤ id ∧ id ≤ '9'.toUInt8 then some (id - '0'.toUInt8).toNat
  else if 'a'.toUInt8 ≤ id ∧ id ≤ 'z'.toUInt8 then some ((id - 'a'.toUInt8).toNat + 10)
  else if 'A'.toUInt8 ≤ id ∧ id ≤ 'Z'.toUInt8 then some ((id - 'A'.toUInt8).toNat + 10)
  else none

/-- The loop of `pm_get_fabid`. -/
def fabLoop : Text → Int → Int
  | [], fabid => fabid
  | id :: rest, fabid =>
    match fabDigit id with
    | none => -1
    | some id => fabLoop rest (fabid * 100 + id)

def pmGetFabid (boardId : Text) : Int := if boardId.length < 13 then -1 else fabLoop ((boardId.drop 10).take 3) 0

inductive MatchType where
  | matchExact
  | matchPartial
  | matchGt
  | matchGe
  | matchLt
  | matchLe
  deriving DecidableEq, Repr

/-- `id_str`, `id_len` and `match_type`. -/
structure Wanted where
  idStr : Text
  idLen : Nat
  matchType : MatchType
  deriving DecidableEq, Repr

def wanted (id : Text) : Wanted :=
  if 2 < id.length ∧ id[0]? = some '>'.toUInt8 ∧ id[1]? = some '='.toUInt8 then ⟨id.drop 2, id.length - 2, .matchGe⟩
  else if 1 < id.length ∧ id[0]? = some '>'.toUInt8 then ⟨id.drop 1, id.length - 1, .matchGt⟩
  else if 2 < id.length ∧ id[0]? = some '<'.toUInt8 ∧ id[1]? = some '='.toUInt8 then ⟨id.drop 2, id.length - 2, .matchLe⟩
  else if 1 < id.length ∧ id[0]? = some '<'.toUInt8 then ⟨id.drop 1, id.length - 1, .matchLt⟩
  else if 1 < id.length ∧ id[0]? = some '^'.toUInt8 then ⟨id.drop 1, id.length - 1, .matchPartial⟩
  else
    match id.findIdx? (· = '*'.toUInt8) with
    | some i => ⟨id, i, .matchPartial⟩
    | none => ⟨id, id.length, .matchExact⟩

def matchBoard (w : Wanted) (fabid : Int) (boardId : Text) : Bool :=
  let boardFabid := pmGetFabid boardId
  let ordered (holds : Bool) : Bool :=
    if boardId.length < 13 then false
    else if w.idStr.take 10 ≠ boardId.take 10 then false
    else if boardFabid < 0 then false
    else holds
  match w.matchType with
  | .matchExact => if boardId.length ≠ w.idLen then false else w.idStr.take w.idLen = boardId.take w.idLen
  | .matchPartial => if boardId.length < w.idLen then false else w.idStr.take w.idLen = boardId.take w.idLen
  | .matchGt => ordered (boardFabid > fabid)
  | .matchGe => ordered (boardFabid ≥ fabid)
  | .matchLt => ordered (boardFabid < fabid)
  | .matchLe => ordered (boardFabid ≤ fabid)

def idsPath : List Text := [ascii "chosen", ascii "plugin-manager", ascii "ids"]

def matchId (fdt : Dtb) (id : Text) : Bool :=
  let w := wanted id
  let comparing := w.matchType = .matchGe ∨ w.matchType = .matchGt ∨ w.matchType = .matchLe ∨ w.matchType = .matchLt
  let fabid := if comparing then pmGetFabid w.idStr else 0
  if fabid < 0 then false
  else
    match fdtPathOffset fdt idsPath with
    | none => false
    | some boardidNode =>
      (propsOf fdt boardidNode).foldl (fun matched p => if matchBoard w fabid p.name then true else matched) false

/-- The ids under `/chosen/plugin-manager/ids`. -/
def boardIds (fdt : Dtb) : List Text := (fdtPathOffset fdt idsPath).elim [] fun nd => (propsOf fdt nd).map (·.name)

def lower (c : UInt8) : UInt8 := if 'A'.toUInt8 ≤ c ∧ c ≤ 'Z'.toUInt8 then c + 32 else c

def digit36 (c : UInt8) : Option Nat := (ascii "0123456789abcdefghijklmnopqrstuvwxyz").findIdx? (· = lower c)

/-- The three characters behind the first ten, where they are alphanumeric. -/
def fabTriple (id : Text) : Option (List Nat) :=
  if id.length < 13 then none else ((id.drop 10).take 3).mapM digit36

inductive Order where
  | ge
  | gt
  | le
  | lt

def Order.Holds : Order → List Nat → List Nat → Prop
  | .ge, given, asked => asked ≤ given
  | .gt, given, asked => asked < given
  | .le, given, asked => given ≤ asked
  | .lt, given, asked => given < asked

inductive Pattern where
  | exact (x : Text)
  | starts (x : Text)
  | fab (order : Order) (x : Text)

def Pattern.Accepts : Pattern → Text → Prop
  | .exact x, board => board = x
  | .starts x, board => x <+: board
  | .fab order x, board =>
    board.take 10 = x.take 10 ∧ ∃ given asked, fabTriple board = some given ∧ fabTriple x = some asked ∧ order.Holds given asked

def operators : List (Text × (Text → Pattern)) :=
  [(ascii ">=", .fab .ge), (ascii ">", .fab .gt), (ascii "<=", .fab .le), (ascii "<", .fab .lt), (ascii "^", .starts)]

/-- The first operator with something behind it; else what is before the first `*`, or the whole. -/
def Pattern.read (id : Text) : Pattern :=
  match operators.find? fun operator => operator.1 <+: id ∧ operator.1.length < id.length with
  | some operator => operator.2 (id.drop operator.1.length)
  | none => if '*'.toUInt8 ∈ id then .starts (id.takeWhile (· ≠ '*'.toUInt8)) else .exact id

structure Comparable (x board : Text) : Prop where
  shared : board.take 10 = x.take 10
  given : (fabTriple board).isSome
  asked : (fabTriple x).isSome

section
variable {fdt : Dtb} {id board x : Text} {cs : Text} {ds : List Nat} {w : Wanted} {fabid : Int}

theorem fabDigit_eq (c : UInt8) : fabDigit c = digit36 c := by
  have all : ∀ n : Fin 256, fabDigit (UInt8.ofNat n) = digit36 (UInt8.ofNat n) := by decide +kernel
  simpa using all ⟨c.toNat, c.toNat_lt⟩

theorem digit36_lt {c : UInt8} {d : Nat} (digit : digit36 c = some d) : d < 100 := by
  obtain ⟨inside, -⟩ := List.findIdx?_eq_some_iff_getElem.mp digit
  exact Nat.lt_trans inside (by decide)

theorem mapM_digits (digits : cs.mapM digit36 = some ds) : ds.length = cs.length ∧ ∀ d ∈ ds, d < 100 := by
  induction cs generalizing ds with
  | nil =>
    cases digits
    exact ⟨rfl, by simp⟩
  | cons c cs ih =>
    rw [List.mapM_cons] at digits
    obtain ⟨d, here, later⟩ := Option.bind_eq_some_iff.mp digits
    obtain ⟨rest, there, same⟩ := Option.bind_eq_some_iff.mp later
    cases same
    obtain ⟨length, small⟩ := ih there
    refine ⟨congrArg (· + 1) length, fun e member => ?_⟩
    rcases List.mem_cons.mp member with rfl | other
    · exact digit36_lt here
    · exact small e other

theorem fabLoop_eq (cs : Text) (n : Nat) :
    fabLoop cs n = (cs.mapM digit36).elim (-1) fun ds => (encodeFrom 100 n ds : Int) := by
  induction cs generalizing n with
  | nil => rfl
  | cons c cs ih =>
    rw [fabLoop, fabDigit_eq, List.mapM_cons]
    cases digit36 c with
    | none => rfl
    | some d =>
      have next := ih (n * 100 + d)
      rw [Int.natCast_add, Int.natCast_mul] at next
      dsimp only
      rw [Int.cast_ofNat_Int] at next
      rw [next]
      cases cs.mapM digit36 <;> rfl

theorem pmGetFabid_eq (id : Text) : pmGetFabid id = (fabTriple id).elim (-1) fun ds => (encode 100 ds : Int) := by
  rw [pmGetFabid, fabTriple]
  split
  · rfl
  · exact fabLoop_eq _ 0

theorem fabTriple_digits (triple : fabTriple id = some ds) : ds.length = 3 ∧ ∀ d ∈ ds, d < 100 := by
  rw [fabTriple] at triple
  split at triple
  · cases triple
  · next long =>
    obtain ⟨length, small⟩ := mapM_digits triple
    refine ⟨?_, small⟩
    rw [length, List.length_take, List.length_drop]
    omega

theorem fabTriple_long (triple : fabTriple id = some ds) : ¬ id.length < 13 := by
  intro short
  rw [fabTriple, if_pos short] at triple
  cases triple

theorem ordered_iff {asked : List Nat} {holds : Bool} {order : Order} (triple : fabTriple x = some asked)
    (same : ∀ given, fabTriple board = some given → (holds = true ↔ order.Holds given asked)) :
    (if board.length < 13 then false
      else if x.take 10 ≠ board.take 10 then false
      else if pmGetFabid board < 0 then false else holds) = true ↔ (Pattern.fab order x).Accepts board := by
  rw [pmGetFabid_eq, Pattern.Accepts, triple]
  cases found : fabTriple board with
  | none => simp
  | some given =>
    have long := fabTriple_long found
    have natural : ¬ (encode 100 given : Int) < 0 := by omega
    rw [if_neg long, Option.elim_some, if_neg natural]
    by_cases shared : x.take 10 = board.take 10
    · simp [shared, same given found]
    · simp [shared, Ne.symm shared]

theorem fabid_lt_iff {given asked : List Nat} (found : fabTriple board = some given) (triple : fabTriple x = some asked) :
    pmGetFabid board < pmGetFabid x ↔ given < asked := by
  obtain ⟨length, small⟩ := fabTriple_digits found
  obtain ⟨length', small'⟩ := fabTriple_digits triple
  rw [pmGetFabid_eq, pmGetFabid_eq, found, triple, ← encode_lt_iff (length.trans length'.symm) small small']
  exact Int.ofNat_lt

theorem fabid_le_iff {given asked : List Nat} (found : fabTriple board = some given) (triple : fabTriple x = some asked) :
    pmGetFabid board ≤ pmGetFabid x ↔ given ≤ asked := by
  rw [← Int.not_lt, fabid_lt_iff triple found, not_lt]

def Wanted.pattern (w : Wanted) : Pattern :=
  match w.matchType with
  | .matchExact => .exact (w.idStr.take w.idLen)
  | .matchPartial => .starts (w.idStr.take w.idLen)
  | .matchGt => .fab .gt w.idStr
  | .matchGe => .fab .ge w.idStr
  | .matchLt => .fab .lt w.idStr
  | .matchLe => .fab .le w.idStr

def Wanted.Comparing (w : Wanted) : Prop :=
  w.matchType = .matchGe ∨ w.matchType = .matchGt ∨ w.matchType = .matchLe ∨ w.matchType = .matchLt

instance : DecidablePred Wanted.Comparing := fun _ => inferInstanceAs (Decidable (_ ∨ _ ∨ _ ∨ _))

theorem comparing_pattern (comparing : w.Comparing) : ∃ order, w.pattern = .fab order w.idStr := by
  obtain ⟨idStr, idLen, matchType⟩ := w
  rcases comparing with rfl | rfl | rfl | rfl
  all_goals exact ⟨_, rfl⟩

theorem matchBoard_ordered (comparing : w.Comparing) (known : fabTriple w.idStr ≠ none) (board : Text) :
    matchBoard w (pmGetFabid w.idStr) board = true ↔ w.pattern.Accepts board := by
  obtain ⟨asked, triple⟩ := Option.ne_none_iff_exists'.mp known
  obtain ⟨idStr, idLen, matchType⟩ := w
  rcases comparing with rfl | rfl | rfl | rfl
  · exact ordered_iff triple fun given found => decide_eq_true_iff.trans (fabid_le_iff triple found)
  · exact ordered_iff triple fun given found => decide_eq_true_iff.trans (fabid_lt_iff triple found)
  · exact ordered_iff triple fun given found => decide_eq_true_iff.trans (fabid_le_iff found triple)
  · exact ordered_iff triple fun given found => decide_eq_true_iff.trans (fabid_lt_iff found triple)

theorem matchBoard_plain (plain : ¬ w.Comparing) (within : w.idLen ≤ w.idStr.length) (fabid : Int) (board : Text) :
    matchBoard w fabid board = true ↔ w.pattern.Accepts board := by
  obtain ⟨idStr, idLen, matchType⟩ := w
  have length : (idStr.take idLen).length = idLen := List.length_take_of_le within
  cases matchType with
  | matchExact =>
    change (if board.length ≠ idLen then false else decide (idStr.take idLen = board.take idLen)) = true ↔
      board = idStr.take idLen
    constructor
    · intro hit
      split at hit
      · cases hit
      · next equal =>
        have same := of_decide_eq_true hit
        rw [List.take_of_length_le (by omega : board.length ≤ idLen)] at same
        exact same.symm
    · intro same
      have equal : board.length = idLen := by rw [same, length]
      rw [if_neg (not_not.mpr equal), decide_eq_true_iff, List.take_of_length_le (by omega : board.length ≤ idLen), same]
  | matchPartial =>
    change (if board.length < idLen then false else decide (idStr.take idLen = board.take idLen)) = true ↔
      idStr.take idLen <+: board
    constructor
    · intro hit
      split at hit
      · cases hit
      · rw [of_decide_eq_true hit]
        exact List.take_prefix ..
    · intro starts
      have enough := starts.length_le
      rw [length] at enough
      have same := List.prefix_iff_eq_take.mp starts
      rw [length] at same
      rw [if_neg (by omega), decide_eq_true_iff]
      exact same
  | _ => exact absurd (by simp [Wanted.Comparing]) plain

theorem one_char {a : UInt8} : 1 < id.length ∧ id[0]? = some a ↔ [a] <+: id ∧ 1 < id.length := by
  cases id with
  | nil => simp
  | cons c id => simp [eq_comm, and_comm]

theorem two_chars {a b : UInt8} : 2 < id.length ∧ id[0]? = some a ∧ id[1]? = some b ↔ [a, b] <+: id ∧ 2 < id.length := by
  match id with
  | [] => simp
  | [c] => simp
  | c :: d :: id => simp [List.cons_prefix_cons, eq_comm, and_comm]

theorem find_star (id : Text) : id.findIdx? (· = '*'.toUInt8) =
    if '*'.toUInt8 ∈ id then some (id.takeWhile (· ≠ '*'.toUInt8)).length else none := by
  induction id with
  | nil => rfl
  | cons c id ih =>
    rw [List.findIdx?_cons, ih]
    by_cases here : c = '*'.toUInt8
    · simp [here]
    · simp [here, Ne.symm here]

theorem wanted_pattern (id : Text) : (wanted id).pattern = Pattern.read id ∧ (wanted id).idLen ≤ (wanted id).idStr.length := by
  simp only [wanted, two_chars, one_char, find_star]
  have ge : ascii ">=" = ['>'.toUInt8, '='.toUInt8] := rfl
  have gt : ascii ">" = ['>'.toUInt8] := rfl
  have le : ascii "<=" = ['<'.toUInt8, '='.toUInt8] := rfl
  have lt : ascii "<" = ['<'.toUInt8] := rfl
  have caret : ascii "^" = ['^'.toUInt8] := rfl
  simp only [Pattern.read, operators, ge, gt, le, lt, caret, List.find?_cons, List.length_cons, List.length_nil,
    Nat.zero_add, Nat.reduceAdd]
  by_cases isGe : ['>'.toUInt8, '='.toUInt8] <+: id ∧ 2 < id.length
  · simp only [if_pos isGe, decide_eq_true isGe]
    exact ⟨rfl, by simp⟩
  by_cases isGt : ['>'.toUInt8] <+: id ∧ 1 < id.length
  · simp only [if_neg isGe, decide_eq_false isGe, if_pos isGt, decide_eq_true isGt]
    exact ⟨rfl, by simp⟩
  by_cases isLe : ['<'.toUInt8, '='.toUInt8] <+: id ∧ 2 < id.length
  · simp only [if_neg isGe, decide_eq_false isGe, if_neg isGt, decide_eq_false isGt, if_pos isLe, decide_eq_true isLe]
    exact ⟨rfl, by simp⟩
  by_cases isLt : ['<'.toUInt8] <+: id ∧ 1 < id.length
  · simp only [if_neg isGe, decide_eq_false isGe, if_neg isGt, decide_eq_false isGt, if_neg isLe, decide_eq_false isLe,
      if_pos isLt, decide_eq_true isLt]
    exact ⟨rfl, by simp⟩
  simp only [if_neg isGe, decide_eq_false isGe, if_neg isGt, decide_eq_false isGt, if_neg isLe, decide_eq_false isLe,
    if_neg isLt, decide_eq_false isLt]
  by_cases isCaret : ['^'.toUInt8] <+: id ∧ 1 < id.length
  · simp only [if_pos isCaret, decide_eq_true isCaret]
    refine ⟨congrArg Pattern.starts ?_, by simp⟩
    exact List.take_of_length_le (by simp)
  simp only [if_neg isCaret, decide_eq_false isCaret, List.find?_nil]
  by_cases star : '*'.toUInt8 ∈ id
  · simp only [if_pos star]
    refine ⟨congrArg Pattern.starts ?_, (List.takeWhile_sublist _).length_le⟩
    exact (List.prefix_iff_eq_take.mp (List.takeWhile_prefix _)).symm
  · simp only [if_neg star]
    exact ⟨congrArg Pattern.exact (List.take_length ..), Nat.le_refl _⟩

theorem foldl_any {α : Type} (hit : α → Bool) (list : List α) (matched : Bool) :
    list.foldl (fun matched p => if hit p then true else matched) matched = (matched || list.any hit) := by
  induction list generalizing matched with
  | nil => simp
  | cons p list ih =>
    rw [List.foldl_cons, ih, List.any_cons]
    cases hit p <;> simp

theorem boards_any (hit : Text → Bool) (fdt : Dtb) :
    (match fdtPathOffset fdt idsPath with
      | none => false
      | some boardidNode =>
        (propsOf fdt boardidNode).foldl (fun matched p => if hit p.name then true else matched) false) =
      (boardIds fdt).any hit := by
  rw [boardIds]
  cases fdtPathOffset fdt idsPath with
  | none => rfl
  | some nd =>
    dsimp only
    rw [foldl_any (fun p : Property => hit p.name), Bool.false_or, Option.elim_some, List.any_map]
    rfl

def answer (fdt : Dtb) (w : Wanted) (fabid : Int) : Bool :=
  if fabid < 0 then false else (boardIds fdt).any (matchBoard w fabid)

theorem matchId_eq (fdt : Dtb) (id : Text) :
    matchId fdt id = answer fdt (wanted id) (if (wanted id).Comparing then pmGetFabid (wanted id).idStr else 0) := by
  rw [answer, ← boards_any]
  rfl

theorem matchId_read (fdt : Dtb) (id : Text) :
    matchId fdt id = true ↔ ∃ board ∈ boardIds fdt, (Pattern.read id).Accepts board := by
  obtain ⟨pattern, within⟩ := wanted_pattern id
  rw [matchId_eq, ← pattern]
  generalize wanted id = w at within
  by_cases comparing : w.Comparing
  · rw [if_pos comparing, answer]
    by_cases known : fabTriple w.idStr = none
    · obtain ⟨order, pattern⟩ := comparing_pattern comparing
      rw [pmGetFabid_eq, known, Option.elim_none, if_pos (by decide), pattern]
      refine iff_of_false Bool.false_ne_true ?_
      rintro ⟨board, -, -, given, asked, -, triple, -⟩
      rw [known] at triple
      cases triple
    · obtain ⟨asked, triple⟩ := Option.ne_none_iff_exists'.mp known
      have natural : ¬ pmGetFabid w.idStr < 0 := by
        rw [pmGetFabid_eq, triple, Option.elim_some]
        omega
      rw [if_neg natural, List.any_eq_true]
      exact exists_congr fun board => and_congr_right fun _ => matchBoard_ordered comparing known board
  · rw [if_neg comparing, answer, if_neg (by decide), List.any_eq_true]
    exact exists_congr fun board => and_congr_right fun _ => matchBoard_plain comparing within 0 board

/-- A pattern matches exactly if one of the ids is as it says. Of a board with the same id, with a fab of both, exactly one
of `<` and `>=` is true, and `>=` is `>` or the same fab. -/
theorem matchId_order (fdt : Dtb) :
    (∀ id, matchId fdt id = true ↔ ∃ board ∈ boardIds fdt, (Pattern.read id).Accepts board) ∧
      ∀ x board, Comparable x board → ((Pattern.fab .lt x).Accepts board ↔ ¬ (Pattern.fab .ge x).Accepts board) ∧
          ((Pattern.fab .ge x).Accepts board ↔ (Pattern.fab .gt x).Accepts board ∨ fabTriple board = fabTriple x) := by
  refine ⟨matchId_read fdt, ?_⟩
  rintro x board ⟨shared, given, asked⟩
  obtain ⟨given, found⟩ := Option.isSome_iff_exists.mp given
  obtain ⟨asked, triple⟩ := Option.isSome_iff_exists.mp asked
  have accepts : ∀ order : Order, (Pattern.fab order x).Accepts board ↔ order.Holds given asked := by
    intro order
    simp [Pattern.Accepts, shared, found, triple]
  rw [accepts, accepts, accepts, found, triple, Option.some.injEq]
  exact ⟨not_le.symm, le_iff_lt_or_eq.trans (or_congr_right eq_comm)⟩

def oneBoard : Dtb :=
  .node ⟨[], []⟩
    (.node ⟨ascii "chosen", []⟩
      (.node ⟨ascii "plugin-manager", []⟩ (.node ⟨ascii "ids", [⟨ascii "3310-1000-B00", []⟩]⟩ .nil .nil) .nil) .nil) .nil

/-- `B00` is a later fab than `a02`. -/
theorem matchId_order_fabs : Comparable (ascii "3310-1000-a02-x") (ascii "3310-1000-B00") ∧
    matchId oneBoard (ascii ">=3310-1000-a02-x") = true ∧
    (Pattern.fab .ge (ascii "3310-1000-a02-x")).Accepts (ascii "3310-1000-B00") ∧
    ¬ (Pattern.fab .lt (ascii "3310-1000-a02-x")).Accepts (ascii "3310-1000-B00") := by
  have comparable : Comparable (ascii "3310-1000-a02-x") (ascii "3310-1000-B00") := ⟨by decide, by decide, by decide⟩
  have ids : boardIds oneBoard = [ascii "3310-1000-B00"] := by decide
  have holds : matchId oneBoard (ascii ">=3310-1000-a02-x") = true := by decide
  obtain ⟨reads, ordered⟩ := matchId_order oneBoard
  obtain ⟨board, member, accepts⟩ := (reads _).mp holds
  rw [ids, List.mem_singleton] at member
  subst member
  exact ⟨comparable, holds, accepts, fun less => (ordered _ _ comparable).1.mp less accepts⟩

end

example : Pattern.read (ascii "3310-*") = .starts (ascii "3310-") := rfl

example : Pattern.read (ascii "^") = .exact (ascii "^") := rfl

end Cboot.PluginManager
