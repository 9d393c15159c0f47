import Kjdmud.Vm.Fragments
import Kjdmud.Vm.IntArithmetic

/-!
# Comparisons of numbers

The opcodes `Eq`, `Neq`, `Lt`, `Lte`, `Gt` and `Gte` of `VM::run` on integers, floats and the
value of a missing key.  `valuesEqual` compares values of one kind exactly; the others convert
both operands to `double`, and take a missing key for 0.
-/

namespace Kjdmud.Vm

open Kjdmud.Double (extended nearest)

/-- Integers, floats other than NaN, and the value of a missing key. -/
def Value.Numeric (v : Value) : Prop :=
  match v.data with
  | .int _ | .void => True
  | .double d => d.isNaN = false
  | _ => False

abbrev Number := { v : Value // v.Numeric }

/-- What `asArithmeticOperand` takes a number for. -/
def Value.toDouble (v : Value) : Double :=
  match v.data with
  | .int i => Double.ofInt64 i
  | .double d => d
  | _ => Double.zero false

/-- An opcode on two operands pushes a value. -/
def Evaluates (op : OpCode) (a b v : Value) : Prop :=
  ∀ (m : Machine) (ip : Nat) (s : State) (stack : List Value),
    execute m.env m.run m.act ip ⟨op, 0, 0⟩ (s.withStack (b :: a :: stack)) =
      some (.next 1 (s.withStack (v :: stack)))

/-- The comparisons all say that the operands stand in one order. -/
structure Compares (a b : Value) (order : Ordering) : Prop where
  lt : Evaluates .lt a b (.ofBool (order = .lt))
  eq : Evaluates .eq a b (.ofBool (order = .eq))
  gt : Evaluates .gt a b (.ofBool (order = .gt))
  lte : Evaluates .lte a b (.ofBool (order ≠ .gt))
  gte : Evaluates .gte a b (.ofBool (order ≠ .lt))
  neq : Evaluates .neq a b (.ofBool (order ≠ .eq))

/-! ## The numbers behind the operands -/

namespace Number

theorem operand (a : Number) : asArithmeticOperand a.1 = some a.1.toDouble := by
  obtain ⟨⟨data, _, _⟩, numeric⟩ := a
  cases data with
  | int _ | double _ | void => rfl
  | _ => exact absurd numeric id

theorem isNaN_toDouble (a : Number) : a.1.toDouble.isNaN = false := by
  obtain ⟨⟨data, _, _⟩, numeric⟩ := a
  cases data with
  | int i => exact Double.isNaN_ofInt64 i
  | double d => exact numeric
  | void => exact (by decide : (Double.zero false).isNaN = false)
  | _ => exact absurd numeric id

/-- A number among the rational numbers and the infinities. -/
def rank (a : Number) : WithBot (WithTop ℚ) :=
  a.1.toDouble.extended

theorem comparison_eq (op : Comparison) (a b : Number) (w : World) :
    comparison op a.1 b.1 w =
      .ok (Value.ofBool (op.apply a.1.toDouble b.1.toDouble), w) := by
  unfold comparison arithmeticOperands
  rw [a.operand, b.operand]
  rfl

theorem lt_iff (a b : Number) : a.1.toDouble.lt b.1.toDouble = true ↔ a.rank < b.rank :=
  Double.lt_iff a.isNaN_toDouble b.isNaN_toDouble

theorem le_iff (a b : Number) : a.1.toDouble.le b.1.toDouble = true ↔ a.rank ≤ b.rank :=
  Double.le_iff a.isNaN_toDouble b.isNaN_toDouble

/-- The truth value that an ordering comparison pushes. -/
theorem evaluates_comparison {op : OpCode} (comp : Comparison) (a b : Number)
    (code : ∀ m : Machine, ∀ ip, execute m.env m.run m.act ip ⟨op, 0, 0⟩ =
      binary "comparison" (comparison comp)) :
    Evaluates op a.1 b.1 (.ofBool (comp.apply a.1.toDouble b.1.toDouble)) := by
  intro m ip s stack
  rw [code]
  change pushResult (comparison comp a.1 b.1 s.world) (s.withStack stack) = _
  rw [comparison_eq]
  rfl

end Number

theorem evaluates_eq (a b : Value) : Evaluates .eq a b (.ofBool (valuesEqual a b)) :=
  fun _ _ _ _ => rfl

theorem evaluates_neq (a b : Value) : Evaluates .neq a b (.ofBool (!valuesEqual a b)) :=
  fun _ _ _ _ => rfl

/-- An opcode pushes one value. -/
theorem Evaluates.unique {op : OpCode} {a b v v' : Value} (first : Evaluates op a b v)
    (second : Evaluates op a b v') (m : Machine) (s : State) : v = v' := by
  have same := (first m 0 s []).symm.trans (second m 0 s [])
  simpa [State.withStack] using same

theorem ofBool_inj {p q : Bool} (same : Value.ofBool p = Value.ofBool q) : p = q := by
  cases p <;> cases q <;> first | rfl | exact absurd same (by decide)

/-! ## When equality and order agree -/

/-- No two different numbers are taken for one: integers that differ still differ as doubles,
and operands of different kinds stand for different numbers. -/
def Apart (a b : Value) : Prop :=
  match a.data, b.data with
  | .int i, .int j => i = j ∨ nearest i.toInt ≠ nearest j.toInt
  | .int i, .double d | .double d, .int i => d.isInf = true ∨ d.toRat ≠ nearest i.toInt
  | .int i, .void | .void, .int i => i ≠ 0
  | .double d, .void | .void, .double d => d.isInf = true ∨ d.toRat ≠ 0
  | _, _ => True

theorem extended_ofInt64 (i : Int64) :
    (Double.ofInt64 i).extended = (((nearest i.toInt : ℚ) : WithTop ℚ) : WithBot (WithTop ℚ)) := by
  rw [Double.extended_of_finite (Double.isInf_ofInt64 i), Double.toRat_ofInt64]

theorem extended_eq_iff {d : Double} {q : ℚ} :
    d.extended = ((q : WithTop ℚ) : WithBot (WithTop ℚ)) ↔ d.isInf = false ∧ d.toRat = q := by
  unfold extended
  cases d.isInf <;> cases d.signBit <;> simp

theorem extended_zero :
    (Double.zero false).extended = (((0 : ℚ) : WithTop ℚ) : WithBot (WithTop ℚ)) := by
  rw [extended_eq_iff, Double.toRat, (Double.zero_spec false).2, neg_zero, ite_self]
  exact ⟨by decide, rfl⟩

theorem nearest_eq_zero_iff {i : Int64} : nearest i.toInt = 0 ↔ i = 0 := by
  constructor
  · intro zero
    by_contra nonzero
    exact Double.nearest_ne_zero (fun same => nonzero (Int64.toInt_inj.mp same)) zero
  · rintro rfl
    decide

/-- Operands of different kinds are not equal, so their numbers should not be. -/
theorem mixed_iff {d : Double} {q : ℚ} :
    (false = true ↔ d.extended = ((q : WithTop ℚ) : WithBot (WithTop ℚ))) ↔
      d.isInf = true ∨ d.toRat ≠ q := by
  rw [extended_eq_iff]
  cases d.isInf <;> simp

theorem mixed_symm_iff {d : Double} {q : ℚ} :
    (false = true ↔ ((q : WithTop ℚ) : WithBot (WithTop ℚ)) = d.extended) ↔
      d.isInf = true ∨ d.toRat ≠ q := by
  rw [eq_comm (a := ((q : WithTop ℚ) : WithBot (WithTop ℚ))), mixed_iff]

theorem ints_iff (i j : Int64) :
    ((i == j) = true ↔ (Double.ofInt64 i).extended = (Double.ofInt64 j).extended) ↔
      i = j ∨ nearest i.toInt ≠ nearest j.toInt := by
  rw [extended_ofInt64, extended_ofInt64, beq_iff_eq, WithBot.coe_inj, WithTop.coe_inj,
    Int.cast_inj]
  by_cases same : i = j
  · simp [same]
  · simp [same]

/-- Equality is equality of the numbers exactly for such operands. -/
theorem valuesEqual_iff_rank (a b : Number) :
    (valuesEqual a.1 b.1 = true ↔ a.rank = b.rank) ↔ Apart a.1 b.1 := by
  obtain ⟨⟨left, _, _⟩, numeric⟩ := a
  obtain ⟨⟨right, _, _⟩, numeric'⟩ := b
  simp only [valuesEqual, Number.rank, Value.toDouble, Apart]
  cases left with
  | int i =>
      cases right with
      | int j => exact ints_iff i j
      | double d =>
          simp only [extended_ofInt64]
          exact mixed_symm_iff
      | void =>
          simp only [extended_zero]
          rw [mixed_iff, Double.isInf_ofInt64, Double.toRat_ofInt64]
          simp [nearest_eq_zero_iff]
      | _ => exact absurd numeric' id
  | double d =>
      cases right with
      | int j =>
          simp only [extended_ofInt64]
          exact mixed_iff
      | double e => exact iff_true_intro (Double.eq_iff numeric numeric')
      | void =>
          simp only [extended_zero]
          exact mixed_iff
      | _ => exact absurd numeric' id
  | void =>
      cases right with
      | int j =>
          simp only [extended_zero]
          rw [mixed_symm_iff, Double.isInf_ofInt64, Double.toRat_ofInt64]
          simp [nearest_eq_zero_iff]
      | double e =>
          simp only [extended_zero]
          exact mixed_symm_iff
      | void => simp
      | _ => exact absurd numeric' id
  | _ => exact absurd numeric id

/-- The machine on which opcodes are compared. -/
def idleMachine : Machine :=
  ⟨idleSite.env, idleSite.run, idleSite.act⟩

theorem Evaluates.iff {op : OpCode} {a b : Value} {p q : Bool}
    (first : Evaluates op a b (.ofBool p)) (second : Evaluates op a b (.ofBool q)) :
    p = true ↔ q = true := by
  rw [ofBool_inj (first.unique second idleMachine idleSite.state)]

theorem evaluates_of_iff {op : OpCode} {a b : Value} {p : Bool} {q : Prop} [Decidable q]
    (evaluates : Evaluates op a b (.ofBool p)) (same : p = true ↔ q) :
    Evaluates op a b (.ofBool (decide q)) := by
  have equal : p = decide q := by
    rw [Bool.eq_iff_iff, same, decide_eq_true_iff]
  rwa [equal] at evaluates

namespace Number

variable (a b : Number)

theorem evaluates_lt : Evaluates .lt a.1 b.1 (.ofBool (a.1.toDouble.lt b.1.toDouble)) :=
  evaluates_comparison .lt a b fun _ _ => rfl

theorem evaluates_lte : Evaluates .lte a.1 b.1 (.ofBool (a.1.toDouble.le b.1.toDouble)) :=
  evaluates_comparison .lte a b fun _ _ => rfl

theorem evaluates_gt : Evaluates .gt a.1 b.1 (.ofBool (b.1.toDouble.lt a.1.toDouble)) :=
  evaluates_comparison .gt a b fun _ _ => rfl

theorem evaluates_gte : Evaluates .gte a.1 b.1 (.ofBool (b.1.toDouble.le a.1.toDouble)) :=
  evaluates_comparison .gte a b fun _ _ => rfl

/-- The order that the comparisons say is the order of the numbers. -/
theorem compares_of_order {order : Ordering} (equal : valuesEqual a.1 b.1 = true ↔ order = .eq)
    (less : a.rank < b.rank ↔ order = .lt) (more : b.rank < a.rank ↔ order = .gt) :
    Compares a.1 b.1 order where
  lt := evaluates_of_iff (evaluates_lt a b) ((lt_iff a b).trans less)
  eq := evaluates_of_iff (evaluates_eq a.1 b.1) equal
  gt := evaluates_of_iff (evaluates_gt a b) ((lt_iff b a).trans more)
  lte := evaluates_of_iff (evaluates_lte a b) (by rw [le_iff, ← not_lt, more])
  gte := evaluates_of_iff (evaluates_gte a b) (by rw [le_iff, ← not_lt, less])
  neq := evaluates_of_iff (evaluates_neq a.1 b.1) (by
    rw [Bool.not_eq_true', ← Bool.not_eq_true, equal])

end Number

/-- The comparisons are those of one order exactly for such operands. -/
theorem compares_iff (a b : Number) : (∃ order, Compares a.1 b.1 order) ↔ Apart a.1 b.1 := by
  rw [← valuesEqual_iff_rank]
  constructor
  · rintro ⟨order, compares⟩
    have equal := (evaluates_eq a.1 b.1).iff compares.eq
    have less := (Number.evaluates_lt a b).iff compares.lt
    have more := (Number.evaluates_gt a b).iff compares.gt
    rw [Number.lt_iff, decide_eq_true_iff] at less more
    rw [equal, decide_eq_true_iff]
    cases order with
    | lt =>
        have below := less.mpr rfl
        simp [below.ne]
    | eq =>
        have notLess : ¬ a.rank < b.rank := fun below => absurd (less.mp below) (by decide)
        have notMore : ¬ b.rank < a.rank := fun above => absurd (more.mp above) (by decide)
        exact iff_of_true rfl (le_antisymm (not_lt.mp notMore) (not_lt.mp notLess))
    | gt =>
        have above := more.mpr rfl
        simp [above.ne']
  · intro equal
    rcases lt_trichotomy a.rank b.rank with below | same | above
    · refine ⟨.lt, Number.compares_of_order a b ?_ ?_ ?_⟩
      · simp [equal, below.ne]
      · simp [below]
      · simp [below.le]
    · refine ⟨.eq, Number.compares_of_order a b ?_ ?_ ?_⟩
      · simp [equal, same]
      · simp [same]
      · simp [same]
    · refine ⟨.gt, Number.compares_of_order a b ?_ ?_ ?_⟩
      · simp [equal, above.ne']
      · simp [above.le]
      · simp [above]

/-- One number less than another, and that less than a third. -/
theorem lt_trans_numbers (a b c : Number) (first : Evaluates .lt a.1 b.1 (.ofBool true))
    (second : Evaluates .lt b.1 c.1 (.ofBool true)) : Evaluates .lt a.1 c.1 (.ofBool true) := by
  have below := (Number.lt_iff a b).mp (((Number.evaluates_lt a b).iff first).mpr rfl)
  have below' := (Number.lt_iff b c).mp (((Number.evaluates_lt b c).iff second).mpr rfl)
  have whole := (Number.lt_iff a c).mpr (below.trans below')
  have evaluates := Number.evaluates_lt a c
  rwa [whole] at evaluates

end Kjdmud.Vm
