import Kjdmud.Efun.ValidPath
import Kjdmud.Lib.EditDistance
import Kjdmud.Vm.Value
import Mathlib.Data.List.TakeWhile

/-!
# `string_difference`

The efun of `src/efun/EfunTable.cpp`.  One row of costs is overwritten from left to right, and
what stood to the left of the current cell is kept in `diag`.  The costs are of type `int`:
every sum is checked, and one that leaves the type is undefined.
-/

namespace Kjdmud.Efun.StringDifference

open Kjdmud.Lib.EditDistance
open Kjdmud.Vm (Value int32)

/-! ## The efun -/

/-- A sum of the machine. -/
def int (z : Int) : Option Int :=
  if -2 ^ 31 ≤ z ∧ z < 2 ^ 31 then some z else none

/-- The variables of the inner loop. -/
structure Costs where
  row : List Int
  diag : Int

/-- The body of the inner loop; every access is checked. -/
def cell (x y : Str) (i : Nat) (costs : Costs) (j : Nat) : Option Costs := do
  let up ← costs.row[j]?
  let a ← x[i - 1]?
  let b ← y[j - 1]?
  let sub ← int (costs.diag + if a = b then 0 else 1)
  let left ← costs.row[j - 1]?
  let fromLeft ← int (left + 1)
  let fromUp ← int (up + 1)
  some ⟨costs.row.set j (min (min fromLeft fromUp) sub), up⟩

/-- The body of the outer loop. -/
def nextRow (x y : Str) (row : List Int) (i : Nat) : Option (List Int) := do
  let diag ← row[0]?
  let costs ← (List.range' 1 y.length).foldlM (cell x y i) ⟨row.set 0 (int32 i), diag⟩
  some costs.row

/-- The cost of turning the shorter string into the longer one. -/
def lastCost (x y : Str) : Option Int := do
  let row := (List.range (y.length + 1)).map fun j : Nat => int32 j
  let row ← (List.range' 1 x.length).foldlM (nextRow x y) row
  row[y.length]?

/-- `string_difference` behind the checks of its arguments. -/
def difference (a b : Str) : Option Int :=
  let a := cString a
  let b := cString b
  if a = b then some 0
  else if a.length ≤ b.length then lastCost a b
  else lastCost b a

/-- `string_difference`. -/
def stringDifference (args : List Value) : Option (Except Str Value) :=
  match args with
  | ⟨.string a, _, _⟩ :: ⟨.string b, _, _⟩ :: _ => do
      let cost ← difference a b
      some (.ok ⟨.int (Int64.ofInt cost), false, false⟩)
  | _ => some (.error (str "string_difference: expected (string, string)"))

/-! ## The two-dimensional recurrence -/

/-- The distance of two prefixes. -/
def prefixDistance (x y : Str) (i j : Nat) : Nat :=
  distance (x.take i) (y.take j)

variable {x y : Str} {i j k : Nat}

@[simp]
theorem prefixDistance_zero_left (x y : Str) (inside : j ≤ y.length) :
    prefixDistance x y 0 j = j := by
  simp [prefixDistance, inside]

theorem prefixDistance_zero_right (x y : Str) (inside : i ≤ x.length) :
    prefixDistance x y i 0 = i := by
  simp [prefixDistance, inside]

theorem prefixDistance_le (x y : Str) (i j : Nat) : prefixDistance x y i j ≤ max i j := by
  refine (distance_le _ _).trans ?_
  rw [List.length_take, List.length_take]
  omega

theorem prefixDistance_succ (inX : i < x.length) (inY : j < y.length) :
    prefixDistance x y (i + 1) (j + 1) =
      min (min (prefixDistance x y (i + 1) j + 1) (prefixDistance x y i (j + 1) + 1))
        (prefixDistance x y i j + if x[i] = y[j] then 0 else 1) := by
  unfold prefixDistance
  rw [← List.take_concat_get' x i inX, ← List.take_concat_get' y j inY, distance_concat,
    min_comm (distance (x.take i) _ + 1)]

/-! ## The row -/

/-- A row of costs for the prefixes of `y`. -/
def costRow (y : Str) (cost : Nat → Nat) : List Int :=
  (List.range (y.length + 1)).map fun j => (cost j : Int)

theorem getElem?_costRow {cost : Nat → Nat} (inside : j ≤ y.length) :
    (costRow y cost)[j]? = some (cost j : Int) := by
  simp [costRow, List.getElem?_range (Nat.lt_succ_of_le inside)]

theorem costRow_set (cost : Nat → Nat) (j v : Nat) :
    (costRow y cost).set j v = costRow y (Function.update cost j v) := by
  refine List.ext_getElem (by simp [costRow]) fun l _ _ => ?_
  rw [List.getElem_set]
  by_cases here : j = l
  · subst here
    simp [costRow]
  · simp [costRow, here, Function.update_of_ne (Ne.symm here)]

/-- The costs of row `i` that are overwritten with those of row `i + 1` up to column `k`. -/
def halfway (x y : Str) (i k j : Nat) : Nat :=
  if j ≤ k then prefixDistance x y (i + 1) j else prefixDistance x y i j

theorem halfway_succ (x y : Str) (i k : Nat) :
    Function.update (halfway x y i k) (k + 1) (prefixDistance x y (i + 1) (k + 1)) =
      halfway x y i (k + 1) := by
  funext j
  unfold halfway
  by_cases here : j = k + 1
  · subst here
    rw [Function.update_self, if_pos (Nat.le_refl _)]
  · rw [Function.update_of_ne here]
    by_cases below : j ≤ k
    · rw [if_pos below, if_pos (Nat.le_succ_of_le below)]
    · rw [if_neg below, if_neg (by omega)]

theorem int_of_lt {z : Int} (positive : 0 ≤ z) (inRange : z < 2 ^ 31) : int z = some z := by
  rw [int, if_pos ⟨by omega, inRange⟩]

/-- A cell whose accesses and sums are all defined. -/
theorem cell_eq {costs : Costs} {up left : Int} {a b : UInt8}
    (readUp : costs.row[j + 1]? = some up) (readLeft : costs.row[j]? = some left)
    (readX : x[i]? = some a) (readY : y[j]? = some b) (fitsUp : int (up + 1) = some (up + 1))
    (fitsLeft : int (left + 1) = some (left + 1))
    (fitsSub : int (costs.diag + if a = b then 0 else 1) =
      some (costs.diag + if a = b then 0 else 1)) :
    cell x y (i + 1) costs (j + 1) =
      some ⟨costs.row.set (j + 1) (min (min (left + 1) (up + 1))
        (costs.diag + if a = b then 0 else 1)), up⟩ := by
  unfold cell
  rw [readUp, Nat.add_sub_cancel, Nat.add_sub_cancel, readX, readY, readLeft]
  simp only [Option.bind_eq_bind, Option.bind_some]
  rw [fitsSub, fitsLeft, fitsUp]
  rfl

/-- One cell, in a row that is overwritten up to the cell before. -/
theorem cell_halfway (inX : i < x.length) (inY : k < y.length) (shorter : x.length ≤ y.length)
    (short : y.length + 1 < 2 ^ 31) :
    cell x y (i + 1) ⟨costRow y (halfway x y i k), prefixDistance x y i k⟩ (k + 1) =
      some ⟨costRow y (halfway x y i (k + 1)), prefixDistance x y i (k + 1)⟩ := by
  have up : (costRow y (halfway x y i k))[k + 1]? = some (prefixDistance x y i (k + 1) : Int) := by
    rw [getElem?_costRow inY, halfway, if_neg (by omega)]
  have left : (costRow y (halfway x y i k))[k]? = some (prefixDistance x y (i + 1) k : Int) := by
    rw [getElem?_costRow (Nat.le_of_lt inY), halfway, if_pos (Nat.le_refl k)]
  have boundUp := prefixDistance_le x y i (k + 1)
  have boundLeft := prefixDistance_le x y (i + 1) k
  have boundDiag := prefixDistance_le x y i k
  have least : min (min ((prefixDistance x y (i + 1) k : Int) + 1)
        ((prefixDistance x y i (k + 1) : Int) + 1))
      ((prefixDistance x y i k : Int) + if x[i] = y[k] then 0 else 1) =
      (prefixDistance x y (i + 1) (k + 1) : Nat) := by
    rw [prefixDistance_succ inX inY]
    split <;> simp
  have fitsSub : int ((prefixDistance x y i k : Int) + if x[i] = y[k] then 0 else 1) =
      some ((prefixDistance x y i k : Int) + if x[i] = y[k] then 0 else 1) := by
    refine int_of_lt ?_ ?_ <;> split <;> omega
  have fitsLeft := int_of_lt (z := (prefixDistance x y (i + 1) k : Int) + 1) (by omega) (by omega)
  have fitsUp := int_of_lt (z := (prefixDistance x y i (k + 1) : Int) + 1) (by omega) (by omega)
  rw [cell_eq up left (List.getElem?_eq_getElem inX) (List.getElem?_eq_getElem inY) fitsUp fitsLeft
    fitsSub]
  dsimp only
  rw [least, costRow_set, halfway_succ]

/-- The inner loop. -/
theorem foldlM_cell (inX : i < x.length) (inside : k ≤ y.length) (shorter : x.length ≤ y.length)
    (short : y.length + 1 < 2 ^ 31) :
    (List.range' 1 k).foldlM (cell x y (i + 1))
        ⟨costRow y (halfway x y i 0), prefixDistance x y i 0⟩ =
      some ⟨costRow y (halfway x y i k), prefixDistance x y i k⟩ := by
  induction k with
  | zero => rfl
  | succ k inductionHypothesis =>
      rw [List.range'_1_concat, List.foldlM_append, inductionHypothesis (by omega), Nat.add_comm 1 k]
      simp only [Option.bind_eq_bind, Option.bind_some, List.foldlM_cons, List.foldlM_nil,
        cell_halfway inX inside shorter short]
      rfl

/-- One round of the outer loop makes the next row of the recurrence. -/
theorem nextRow_costRow (inX : i < x.length) (shorter : x.length ≤ y.length)
    (short : y.length + 1 < 2 ^ 31) :
    nextRow x y (costRow y (prefixDistance x y i)) (i + 1) =
      some (costRow y (prefixDistance x y (i + 1))) := by
  have first : int32 ((i + 1 : Nat) : Int) = (prefixDistance x y (i + 1) 0 : Nat) := by
    rw [prefixDistance_zero_right x y inX, int32, Int.bmod_eq_of_le] <;> omega
  have start : Function.update (prefixDistance x y i) 0 (prefixDistance x y (i + 1) 0) =
      halfway x y i 0 := by
    funext j
    unfold halfway
    by_cases here : j = 0
    · subst here
      rw [Function.update_self, if_pos (Nat.le_refl 0)]
    · rw [Function.update_of_ne here, if_neg (by omega)]
  have done : ∀ j ≤ y.length, halfway x y i y.length j = prefixDistance x y (i + 1) j :=
    fun j inside => if_pos inside
  have last : costRow y (halfway x y i y.length) = costRow y (prefixDistance x y (i + 1)) :=
    List.map_congr_left fun j inside => by
      rw [done j (Nat.le_of_lt_succ (List.mem_range.mp inside))]
  unfold nextRow
  simp only [getElem?_costRow (Nat.zero_le _), Option.bind_eq_bind, Option.bind_some, first,
    costRow_set, start, foldlM_cell inX (Nat.le_refl _) shorter short, last]

/-- The outer loop. -/
theorem foldlM_nextRow (inside : i ≤ x.length) (shorter : x.length ≤ y.length)
    (short : y.length + 1 < 2 ^ 31) :
    (List.range' 1 i).foldlM (nextRow x y) (costRow y (prefixDistance x y 0)) =
      some (costRow y (prefixDistance x y i)) := by
  induction i with
  | zero => rfl
  | succ i inductionHypothesis =>
      rw [List.range'_1_concat, List.foldlM_append, inductionHypothesis (by omega), Nat.add_comm 1 i]
      simp only [Option.bind_eq_bind, Option.bind_some, List.foldlM_cons, List.foldlM_nil,
        nextRow_costRow inside shorter short]
      rfl

/-- The row before the outer loop. -/
theorem firstRow (short : y.length < 2 ^ 31) (x : Str) :
    ((List.range (y.length + 1)).map fun j : Nat => int32 j) = costRow y (prefixDistance x y 0) := by
  refine List.map_congr_left fun j inside => ?_
  have low := List.mem_range.mp inside
  rw [prefixDistance_zero_left x y (Nat.le_of_lt_succ low), int32, Int.bmod_eq_of_le] <;> omega

theorem lastCost_eq (shorter : x.length ≤ y.length) (short : y.length + 1 < 2 ^ 31) :
    lastCost x y = some (distance x y : Int) := by
  unfold lastCost
  rw [firstRow (by omega) x]
  simp only [foldlM_nextRow (Nat.le_refl _) shorter short, Option.bind_eq_bind, Option.bind_some,
    getElem?_costRow (Nat.le_refl _)]
  simp [prefixDistance]

/-! ## The longest strings -/

/-- What a cell that is computed says: the sum with the cost above it is an `int`, and only this
place of the row changes. -/
theorem of_cell {costs costs' : Costs} (computed : cell x y i costs j = some costs') :
    ∃ up v, costs.row[j]? = some up ∧ (int (up + 1)).isSome ∧ costs'.row = costs.row.set j v := by
  unfold cell at computed
  simp only [Option.bind_eq_bind, Option.bind_eq_some_iff] at computed
  obtain ⟨up, readUp, _, _, _, _, sub, _, _, _, fromLeft, _, fromUp, fits, same⟩ := computed
  refine ⟨up, min (min fromLeft fromUp) sub, readUp, ?_, ?_⟩
  · rw [fits]
    rfl
  · rw [← Option.some.inj same]

/-- The inner loop leaves what is to the right of it. -/
theorem foldlM_cell_row {costs costs' : Costs} {l : Nat} (right : k < l)
    (computed : (List.range' 1 k).foldlM (cell x y i) costs = some costs') :
    costs'.row[l]? = costs.row[l]? := by
  induction k generalizing costs' with
  | zero => rw [← Option.some.inj computed]
  | succ k inductionHypothesis =>
      rw [List.range'_1_concat, List.foldlM_append] at computed
      simp only [Option.bind_eq_bind, Option.bind_eq_some_iff] at computed
      obtain ⟨before, front, last⟩ := computed
      rw [List.foldlM_cons] at last
      simp only [Option.bind_eq_bind, Option.bind_eq_some_iff] at last
      obtain ⟨after, body, same⟩ := last
      obtain ⟨_, v, _, _, changed⟩ := of_cell body
      rw [← Option.some.inj same, changed, List.getElem?_set_ne (by omega)]
      exact inductionHypothesis (by omega) front

/-- The sum with the last cost of the row above is not an `int`. -/
theorem nextRow_overflows {row : List Int} {last : Int} (nonempty : y ≠ [])
    (read : row[y.length]? = some last) (tooLarge : int (last + 1) = none) :
    nextRow x y row i = none := by
  obtain ⟨m, length⟩ := Nat.exists_eq_succ_of_ne_zero
    (fun none_ => nonempty (List.eq_nil_of_length_eq_zero none_))
  rw [Option.eq_none_iff_forall_ne_some]
  intro row' computed
  unfold nextRow at computed
  simp only [Option.bind_eq_bind, Option.bind_eq_some_iff] at computed
  obtain ⟨_, _, costs, loop, _⟩ := computed
  rw [length, Nat.succ_eq_add_one, List.range'_1_concat, List.foldlM_append] at loop
  simp only [Option.bind_eq_bind, Option.bind_eq_some_iff] at loop
  obtain ⟨before, front, last_⟩ := loop
  rw [List.foldlM_cons] at last_
  simp only [Option.bind_eq_bind, Option.bind_eq_some_iff] at last_
  obtain ⟨_, body, _⟩ := last_
  obtain ⟨up, _, readUp, fits, _⟩ := of_cell body
  rw [Nat.add_comm 1 m, foldlM_cell_row (Nat.lt_succ_self m) front,
    List.getElem?_set_ne (Nat.succ_ne_zero m).symm, ← length, read] at readUp
  rw [← Option.some.inj readUp, tooLarge] at fits
  cases fits

theorem lastCost_overflows (nonempty : x ≠ []) (shorter : x.length ≤ y.length)
    (longest : y.length + 1 = 2 ^ 31) : lastCost x y = none := by
  obtain ⟨n, length⟩ := Nat.exists_eq_succ_of_ne_zero
    (fun none_ => nonempty (List.eq_nil_of_length_eq_zero none_))
  have read : (costRow y (prefixDistance x y 0))[y.length]? = some (y.length : Int) := by
    rw [getElem?_costRow (Nat.le_refl _), prefixDistance_zero_left x y (Nat.le_refl _)]
  have tooLarge : int ((y.length : Int) + 1) = none := if_neg (by omega)
  have filled : y ≠ [] := by
    rintro rfl
    exact absurd longest (by decide)
  unfold lastCost
  rw [firstRow (by omega) x, length, List.range'_succ]
  dsimp only
  rw [List.foldlM_cons, nextRow_overflows filled read tooLarge]
  rfl

/-! ## Texts -/

/-- A string without a NUL whose length is an `int`. -/
structure Text where
  bytes : Str
  noNul : 0 ∉ bytes
  inRange : bytes.length < 2 ^ 31

namespace Text

theorem cString_bytes (a : Text) : cString a.bytes = a.bytes := by
  refine List.takeWhile_eq_self_iff.mpr fun c mem => ?_
  simpa using fun same : c = 0 => a.noNul (same ▸ mem)

theorem eq_of_bytes {a b : Text} (same : a.bytes = b.bytes) : a = b := by
  cases a
  cases b
  cases same
  rfl

/-- The sums of the costs fit: nothing is computed, or both lengths are below the largest
`int`. -/
def Fits (a b : Text) : Prop :=
  a = b ∨ a.bytes = [] ∨ b.bytes = [] ∨ a.bytes.length + 1 < 2 ^ 31 ∧ b.bytes.length + 1 < 2 ^ 31

theorem Fits.symm {a b : Text} (fits : a.Fits b) : b.Fits a := by
  rcases fits with same | noneA | noneB | ⟨shortA, shortB⟩
  · exact .inl same.symm
  · exact .inr (.inr (.inl noneA))
  · exact .inr (.inl noneB)
  · exact .inr (.inr (.inr ⟨shortB, shortA⟩))

/-- Against the empty string there is no round of the outer loop. -/
theorem lastCost_nil (short : y.length < 2 ^ 31) : lastCost [] y = some (distance [] y : Int) := by
  unfold lastCost
  rw [firstRow short []]
  have read : (costRow y (prefixDistance [] y 0))[y.length]? = some (y.length : Int) := by
    rw [getElem?_costRow (Nat.le_refl _), prefixDistance_zero_left [] y (Nat.le_refl _)]
  rw [distance_nil_left]
  exact read

/-- The loops, on the shorter and the longer string. -/
theorem lastCost_cases (shorter : x.length ≤ y.length) (inRange : y.length < 2 ^ 31) :
    (x = [] ∨ y.length + 1 < 2 ^ 31) ∧ lastCost x y = some (distance x y : Int) ∨
      ¬ (x = [] ∨ y.length + 1 < 2 ^ 31) ∧ lastCost x y = none := by
  by_cases empty : x = []
  · subst empty
    exact .inl ⟨.inl rfl, lastCost_nil inRange⟩
  · by_cases short : y.length + 1 < 2 ^ 31
    · exact .inl ⟨.inr short, lastCost_eq shorter short⟩
    · exact .inr ⟨not_or_intro empty short, lastCost_overflows empty shorter (by omega)⟩

/-- The longer string decides, unless the shorter one is empty. -/
theorem fits_iff {a b : Text} (differ : a ≠ b) (shorter : a.bytes.length ≤ b.bytes.length) :
    a.Fits b ↔ a.bytes = [] ∨ b.bytes.length + 1 < 2 ^ 31 := by
  constructor
  · rintro (equal | empty | empty | ⟨_, short⟩)
    · exact absurd equal differ
    · exact .inl empty
    · rw [empty] at shorter
      exact .inl (List.eq_nil_of_length_eq_zero (Nat.le_zero.mp shorter))
    · exact .inr short
  · rintro (empty | short)
    · exact .inr (.inl empty)
    · exact .inr (.inr (.inr ⟨by omega, short⟩))

theorem difference_cases (a b : Text) :
    a.Fits b ∧ difference a.bytes b.bytes = some (distance a.bytes b.bytes : Int) ∨
      ¬ a.Fits b ∧ difference a.bytes b.bytes = none := by
  unfold difference
  simp only [cString_bytes]
  by_cases same : a.bytes = b.bytes
  · rw [if_pos same, distance_eq_zero_iff.mpr same]
    exact .inl ⟨.inl (eq_of_bytes same), rfl⟩
  · have differ : a ≠ b := fun equal => same (congrArg bytes equal)
    rw [if_neg same]
    by_cases shorter : a.bytes.length ≤ b.bytes.length
    · rw [if_pos shorter, fits_iff differ shorter]
      exact lastCost_cases shorter b.inRange
    · have shorter' : b.bytes.length ≤ a.bytes.length := by omega
      have swapped : a.Fits b ↔ b.Fits a := ⟨Fits.symm, Fits.symm⟩
      rw [if_neg shorter, swapped, fits_iff (Ne.symm differ) shorter', distance_symm]
      exact lastCost_cases shorter' a.inRange

/-- What the efun returns for two strings. -/
def Returns (a b : Text) (d : Int64) : Prop :=
  stringDifference [Value.string a.bytes, Value.string b.bytes] = some (.ok (Value.int d))

theorem distance_lt (a b : Text) : distance a.bytes b.bytes < 2 ^ 31 :=
  (distance_le a.bytes b.bytes).trans_lt (max_lt a.inRange b.inRange)

theorem toInt_distance (a b : Text) :
    (Int64.ofInt (distance a.bytes b.bytes)).toInt = distance a.bytes b.bytes := by
  have short := distance_lt a b
  rw [Int64.toInt_ofInt_of_le] <;> omega

/-- The efun returns the cost that the loops compute. -/
theorem returns_distance_iff (a b : Text) :
    a.Returns b (Int64.ofInt (distance a.bytes b.bytes)) ↔ a.Fits b := by
  unfold Returns stringDifference
  rcases difference_cases a b with ⟨fits, computed⟩ | ⟨tooLong, none_⟩
  · simp only [Value.string, computed]
    exact iff_of_true rfl fits
  · simp only [Value.string, none_]
    exact iff_of_false (fun impossible => by cases impossible) tooLong

theorem Fits.returns_iff {a b : Text} (fits : a.Fits b) (d : Int64) :
    a.Returns b d ↔ d = Int64.ofInt (distance a.bytes b.bytes) := by
  have here := (returns_distance_iff a b).mpr fits
  unfold Returns at here ⊢
  rw [here]
  simp [Value.int, eq_comm]

/-- **`string_difference` is the edit distance** exactly where the sums of the costs are of
type `int`; there it is a metric. -/
theorem returns_distance (a b c : Text) :
    (a.Returns b (Int64.ofInt (distance a.bytes b.bytes)) ↔ a.Fits b) ∧
      IsLeast {n | Edits n a.bytes b.bytes} (distance a.bytes b.bytes) ∧
      (a.Fits b → (∀ d, a.Returns b d ↔ b.Returns a d) ∧ (a.Returns b 0 ↔ a = b)) ∧
      (a.Fits b → b.Fits c → a.Fits c → ∀ ab bc ac, a.Returns b ab → b.Returns c bc →
        a.Returns c ac → ac.toInt ≤ ab.toInt + bc.toInt) := by
  refine ⟨returns_distance_iff a b, isLeast_distance _ _, fun fits => ⟨fun d => ?_, ?_⟩, ?_⟩
  · rw [fits.returns_iff, fits.symm.returns_iff, distance_symm]
  · rw [fits.returns_iff]
    constructor
    · intro zero
      have none_ := toInt_distance a b
      rw [← zero] at none_
      exact eq_of_bytes (distance_eq_zero_iff.mp (Int.natCast_eq_zero.mp none_.symm))
    · rintro rfl
      rw [distance_eq_zero_iff.mpr rfl]
      rfl
  · intro fitsAB fitsBC fitsAC ab bc ac isAB isBC isAC
    rw [(fitsAB.returns_iff ab).mp isAB, (fitsBC.returns_iff bc).mp isBC,
      (fitsAC.returns_iff ac).mp isAC, toInt_distance, toInt_distance, toInt_distance]
    have triangle := distance_triangle a.bytes b.bytes c.bytes
    omega

/-- As many bytes as an `int` counts. -/
def longest : Text where
  bytes := List.replicate (2 ^ 31 - 1) 0x61
  noNul := fun mem => by cases List.eq_of_mem_replicate mem
  inRange := by
    rw [List.length_replicate]
    omega

/-- One byte. -/
def single : Text where
  bytes := [0x62]
  noNul := by decide
  inRange := by decide

/-- The longest string and a single byte: the cost above the last cell is the largest `int`. -/
theorem longest_overflows :
    ¬ longest.Returns single (Int64.ofInt (distance longest.bytes single.bytes)) := by
  rw [returns_distance_iff]
  have length : longest.bytes.length = 2 ^ 31 - 1 := List.length_replicate
  rintro (equal | empty | empty | ⟨short, _⟩)
  · have one : longest.bytes.length = 1 := congrArg (fun a : Text => a.bytes.length) equal
    omega
  · rw [empty, List.length_nil] at length
    omega
  · cases empty
  · omega

end Text

end Kjdmud.Efun.StringDifference
