import Kjdmud.Compiler.CodeGen.Expressions
import Kjdmud.Core.Double.Integers
import Kjdmud.Vm.Run

/-!
# Arithmetic on two integers

The opcodes `Add`, `Sub`, `Mul`, `Div` and `Mod` of `VM::run` on two integers, in all the
code that computes with them: binary operators, compound assignments, `++` and `--` and the
unary minus.  The operands go through `double`, and the result is truncated.
-/

namespace Kjdmud.Vm

open Kjdmud.Compiler (BinOp IncDecOp)
open Kjdmud.Double (nearest ofInt64 Lands Convertible Rounded)
open Kjdmud.Rounding (Fits)

/-- The opcodes that compute with numbers. -/
inductive IntOp
  | add | sub | mul | div | mod

namespace IntOp

def opCode : IntOp → OpCode
  | .add => .add
  | .sub => .sub
  | .mul => .mul
  | .div => .div
  | .mod => .mod

/-- The operation on doubles. -/
def apply : IntOp → Double → Double → Double
  | .add => Double.add
  | .sub => Double.sub
  | .mul => Double.mul
  | .div => Double.div
  | .mod => Double.fmod

/-- The operation on integers; division truncates, and a remainder has the sign of the
dividend. -/
def exact : IntOp → Int → Int → Int
  | .add => (· + ·)
  | .sub => (· - ·)
  | .mul => (· * ·)
  | .div => Int.tdiv
  | .mod => Int.tmod

/-- `b` is no zero to divide by. -/
def Accepts (op : IntOp) (b : Int64) : Prop :=
  op = .div ∨ op = .mod → b ≠ 0

end IntOp

/-! ## Code that computes with two integers -/

/-- Where code runs. -/
structure Site where
  env : Env
  run : Runner
  act : Activation
  ip : Nat
  state : State

/-- Execute instructions that go on to the next each time. -/
def executeAll (env : Env) (run : Runner) (act : Activation) :
    Nat → List Instruction → State → Option (Nat × State)
  | ip, [], s => some (ip, s)
  | ip, instr :: rest, s =>
      match execute env run act ip instr s with
      | some (.next words s') => executeAll env run act (ip + words) rest s'
      | _ => none

/-- The code takes its operands off the stack and pushes a value. -/
def Site.Pushes (site : Site) (code : List Instruction) (operands : List Value)
    (v : Value) : Prop :=
  ∃ ip, executeAll site.env site.run site.act site.ip code
      (site.state.withStack (operands ++ site.state.localStack)) =
    some (ip, site.state.withStack (v :: site.state.localStack))

/-- The code that computes an operation on two integers, and the operands on the stack. -/
inductive Emitted (a b : Int64) : IntOp → List Instruction → List Value → Prop
  | binary {op : IntOp} {binOp : BinOp} (operator : binOp.opCode = some op.opCode) :
      Emitted a b op [⟨op.opCode, 0, 0⟩] [Value.int b, Value.int a]
  /-- The instruction of a compound assignment. -/
  | compound {op : IntOp} {binOp : BinOp} (operator : binOp.combineOp = some op.opCode) :
      Emitted a b op [⟨op.opCode, 0, 0⟩] [Value.int b, Value.int a]
  | incDec {op : IntOp} {incDecOp : IncDecOp} (operator : incDecOp.deltaOp = op.opCode)
      (one : b = 1) :
      Emitted a b op [⟨.pushInt, 1, 0⟩, ⟨incDecOp.deltaOp, 0, 0⟩] [Value.int a]
  /-- The unary minus, around the code of its operand. -/
  | minus {operand : List Instruction} (zero : a = 0)
      (pushes : ∀ site : Site, site.Pushes operand [] (Value.int b)) :
      Emitted a b .sub ([⟨.pushInt, 0, 0⟩] ++ operand ++ [⟨.sub, 0, 0⟩]) []

/-- The operation is exact where the result is an `int64_t`, and the conversion of its double
is defined in any case. -/
structure Site.Meets (site : Site) (op : IntOp) (a b : Int64) : Prop where
  defined : (op.apply (ofInt64 a) (ofInt64 b)).Convertible
  pushes : ∀ code operands, Emitted a b op code operands →
    ∃ v, site.Pushes code operands v ∧ (FitsInt64 (op.exact a.toInt b.toInt) →
      v = Value.int (Int64.ofInt (op.exact a.toInt b.toInt)))

/-! ## When it is -/

/-- What the conversion to `int64_t` takes: rounded, the number is less than `2 ^ 63`, and no
less than `-2 ^ 63` when it is truncated too. -/
def Converts (q : ℚ) : Prop :=
  -(2 ^ 63 + 1024) ≤ q ∧ q < 2 ^ 63 - 512

namespace IntOp

/-- The exact result on the converted operands. -/
def onConverted : IntOp → Int → Int → ℚ
  | .add, a, b => nearest a + nearest b
  | .sub, a, b => nearest a - nearest b
  | .mul, a, b => nearest a * nearest b
  | .div, a, b => nearest a / nearest b
  | .mod, a, b => (nearest a).tmod (nearest b)

/-- When an operation on two integers is exact.  A product has to fit into 53 bits.  A sum, a
difference and a quotient have to fit, and the errors of the converted operands must not
move them by half the gap between doubles.  A remainder stays the same if the converted
divisor divides what the errors of the conversions make of the dividend. -/
def Exact (op : IntOp) (a b : Int) : Prop :=
  match op with
  | .mul => Fits 53 (a * b).natAbs
  | .mod =>
      nearest b ∣ (nearest a - a) - a.tdiv b * (nearest b - b) ∧
        (a.tmod b).natAbs < (nearest b).natAbs
  | op => Lands (op.exact a b) (op.onConverted a b)

/-- When an operation does what it should. -/
def Condition (op : IntOp) (a b : Int) : Prop :=
  (FitsInt64 (op.exact a b) → op.Exact a b) ∧
    (¬ FitsInt64 (op.exact a b) → Converts (op.onConverted a b))

end IntOp

/-! ## What the code pushes -/

section Pushes

variable {a b : Int64} (site : Site)

theorem eq_zero_ofInt64 (nonzero : b ≠ 0) : (ofInt64 b).eq (Double.zero false) = false := by
  have finite : (Double.zero false).biasedExponent < 2047 := by
    rw [(Double.zero_spec false).1]
    decide
  have zero : (Double.zero false).toRat = 0 := by
    rw [Double.toRat, (Double.zero_spec false).2, neg_zero, ite_self]
  unfold Double.eq
  rw [Double.isNaN_ofInt64, Double.isInf_ofInt64, Double.isNaN_of_finite finite,
    Double.isInf_of_finite finite, zero]
  simpa using Double.toRat_ne_zero nonzero

theorem numericArithmetic_ints {op : Arithmetic} (accepts : op = .div ∨ op = .mod → b ≠ 0)
    (w : World) : numericArithmetic op (Value.int a) (Value.int b) w =
      .ok (Value.int (op.apply (ofInt64 a) (ofInt64 b)).toInt64, w) := by
  cases op with
  | sub => rfl
  | mul => rfl
  | div =>
      change (if (true && (ofInt64 b).eq (Double.zero false)) = true then _ else _) = _
      rw [eq_zero_ofInt64 (accepts (.inl rfl))]
      rfl
  | mod =>
      change (if (true && (ofInt64 b).eq (Double.zero false)) = true then _ else _) = _
      rw [eq_zero_ofInt64 (accepts (.inr rfl))]
      rfl

/-- The value that an opcode pushes. -/
theorem pushes_opCode {op : IntOp} (accepts : op.Accepts b) :
    site.Pushes [⟨op.opCode, 0, 0⟩] [Value.int b, Value.int a]
      (Value.int (op.apply (ofInt64 a) (ofInt64 b)).toInt64) := by
  refine ⟨site.ip + 1, ?_⟩
  have arithmetic_ (arith : Arithmetic) (accepts : arith = .div ∨ arith = .mod → b ≠ 0) :
      arithmetic arith (Value.int a) (Value.int b) site.state.world =
        .ok (Value.int (arith.apply (ofInt64 a) (ofInt64 b)).toInt64, site.state.world) := by
    rw [← numericArithmetic_ints accepts]
    cases arith <;> rfl
  cases op with
  | add => rfl
  | sub => rfl
  | mul => rfl
  | div =>
      have computed := arithmetic_ .div fun _ => accepts (.inl rfl)
      simp only [executeAll, execute, IntOp.opCode, binary, State.withStack, List.cons_append,
        List.nil_append, computed, pushResult]
      rfl
  | mod =>
      have computed := arithmetic_ .mod fun _ => accepts (.inr rfl)
      simp only [executeAll, execute, IntOp.opCode, binary, State.withStack, List.cons_append,
        List.nil_append, computed, pushResult]
      rfl

theorem executeAll_append {env : Env} {run : Runner} {act : Activation} {ip ip' : Nat}
    {first : List Instruction} {s s' : State}
    (done : executeAll env run act ip first s = some (ip', s')) (second : List Instruction) :
    executeAll env run act ip (first ++ second) s = executeAll env run act ip' second s' := by
  induction first generalizing ip s with
  | nil =>
      cases done
      rfl
  | cons instr first ih =>
      rw [List.cons_append, executeAll]
      rw [executeAll] at done
      split at done
      · exact ih done
      · cases done

/-- Whatever code an operation is in, it pushes what the opcode computes. -/
theorem Emitted.pushes {op : IntOp} {code : List Instruction} {operands : List Value}
    (emitted : Emitted a b op code operands) (accepts : op.Accepts b) :
    site.Pushes code operands (Value.int (op.apply (ofInt64 a) (ofInt64 b)).toInt64) := by
  cases emitted with
  | binary => exact pushes_opCode site accepts
  | compound => exact pushes_opCode site accepts
  | incDec operator one =>
      subst one
      rw [operator]
      -- The literal is pushed, and the opcode takes both.
      rcases pushes_opCode (a := a) { site with ip := site.ip + 1 } accepts with ⟨ip, done⟩
      exact ⟨ip, done⟩
  | @minus operand zero pushes =>
      subst zero
      let inner : Site := { site with
        ip := site.ip + 1
        state := site.state.withStack (Value.int 0 :: site.state.localStack) }
      rcases pushes inner with ⟨ip, done⟩
      rcases pushes_opCode (a := 0) { site with ip := ip } accepts with ⟨ip', last⟩
      refine ⟨ip', ?_⟩
      have first : executeAll site.env site.run site.act site.ip [⟨.pushInt, 0, 0⟩]
          (site.state.withStack ([] ++ site.state.localStack)) =
            some (site.ip + 1, inner.state) := rfl
      have second : executeAll site.env site.run site.act (site.ip + 1) operand inner.state =
          some (ip, inner.state.withStack (Value.int b :: inner.state.localStack)) := done
      rw [List.append_assoc, executeAll_append first, executeAll_append second]
      exact last

/-- Code pushes one value. -/
theorem Site.Pushes.inj {code : List Instruction} {operands : List Value} {v v' : Value}
    (pushes : site.Pushes code operands v) (pushes' : site.Pushes code operands v') :
    v = v' := by
  rcases pushes with ⟨ip, done⟩
  rcases pushes' with ⟨ip', done'⟩
  have same := congrArg State.localStack (Prod.mk.inj (Option.some.inj (done.symm.trans done'))).2
  exact (List.cons.inj same).1

/-- What an operation should do, about the double that it converts. -/
theorem Site.meets_iff {op : IntOp} (accepts : op.Accepts b) :
    site.Meets op a b ↔ (op.apply (ofInt64 a) (ofInt64 b)).Convertible ∧
      (FitsInt64 (op.exact a.toInt b.toInt) →
        (op.apply (ofInt64 a) (ofInt64 b)).truncated = op.exact a.toInt b.toInt) := by
  constructor
  · intro meets
    refine ⟨meets.defined, fun range => ?_⟩
    have operator : ∃ binOp : BinOp, binOp.opCode = some op.opCode := by
      cases op with
      | add => exact ⟨.add, rfl⟩
      | sub => exact ⟨.sub, rfl⟩
      | mul => exact ⟨.mul, rfl⟩
      | div => exact ⟨.div, rfl⟩
      | mod => exact ⟨.mod, rfl⟩
    rcases operator with ⟨binOp, operator⟩
    rcases meets.pushes _ _ (.binary operator) with ⟨v, pushes, value⟩
    have same := pushes.inj site (pushes_opCode site accepts)
    rw [value range, meets.defined.toInt64_eq] at same
    have ints : Int64.ofInt (op.exact a.toInt b.toInt) =
        Int64.ofInt (op.apply (ofInt64 a) (ofInt64 b)).truncated := by
      simpa [Value.int] using same
    have toInts := congrArg Int64.toInt ints
    rw [Int64.toInt_ofInt_of_le range.1 range.2,
      Int64.toInt_ofInt_of_le meets.defined.2.1 meets.defined.2.2] at toInts
    exact toInts.symm
  · rintro ⟨defined, exact_⟩
    refine ⟨defined, fun code operands emitted => ⟨_, emitted.pushes site accepts, ?_⟩⟩
    intro range
    rw [defined.toInt64_eq, exact_ range]

end Pushes

/-! ## The condition -/

section Condition

variable {q : ℚ} {d : Double} {S : Int}

/-- What an operation that rounds has to meet. -/
theorem rounded_iff (rounded : Rounded q d) :
    (d.Convertible ∧ (FitsInt64 S → d.truncated = S)) ↔
      (FitsInt64 S → Lands S q) ∧ (¬ FitsInt64 S → Converts q) := by
  by_cases range : FitsInt64 S
  · simp only [range, forall_const, not_true_eq_false, false_implies, and_true]
    rw [← rounded.truncated_eq_iff]
    constructor
    · exact fun both => both.2
    · intro same
      rw [← same] at range
      exact ⟨⟨rounded.finite, range⟩, same⟩
  · simp only [range, false_implies, and_true, not_false_eq_true, forall_const, true_and]
    exact rounded.convertible_iff

/-- The factors of a product that fits are not rounded. -/
theorem lands_mul_iff {a b : Int} (bound : (a * b).natAbs < 2 ^ 200) :
    Lands (a * b) (nearest a * nearest b : Int) ↔ Fits 53 (a * b).natAbs := by
  constructor
  · exact fun lands => lands.1
  · intro fits
    have product : nearest a * nearest b = a * b := by
      rcases eq_or_ne (a * b) 0 with zero | nonzero
      · rw [zero]
        rcases mul_eq_zero.mp zero with rfl | rfl
        · exact zero_mul _
        · exact mul_zero _
      · have split : (a * b).natAbs = a.natAbs * b.natAbs := Int.natAbs_mul a b
        have positive : a.natAbs * b.natAbs ≠ 0 := by
          rw [← split]
          exact Int.natAbs_ne_zero.mpr nonzero
        rw [split] at fits
        have left : nearest a = a := Double.nearest_of_fits (fits.of_mul positive)
        rw [Nat.mul_comm] at fits positive
        rw [left, Double.nearest_of_fits (fits.of_mul positive)]
    have rounded := Double.round_int bound false
    rw [product, ← rounded.truncated_eq_iff, rounded.truncated_int,
      Double.nearest_of_fits fits]

/-- A remainder, from what it leaves and how large it is. -/
theorem tmod_eq_iff_of_nonneg {x y r : Int} (x_nonneg : 0 ≤ x) (r_nonneg : 0 ≤ r)
    (nonzero : y ≠ 0) : x.tmod y = r ↔ y ∣ x - r ∧ r.natAbs < y.natAbs := by
  have emod : x.tmod y = x % (y.natAbs : Int) := by
    rw [Double.tmod_eq]
    rcases x_nonneg.eq_or_lt with rfl | more
    · simp
    · rw [Int.sign_eq_one_of_pos more, one_mul, Int.natCast_mod, Int.natAbs_of_nonneg x_nonneg]
  have dvd : y ∣ x - r ↔ (y.natAbs : Int) ∣ x - r := Int.natAbs_dvd.symm
  have modulus : 0 < y.natAbs := Int.natAbs_pos.mpr nonzero
  rw [emod, dvd]
  constructor
  · rintro rfl
    refine ⟨Int.dvd_self_sub_emod, ?_⟩
    have less := Int.emod_lt_of_pos x (Int.natCast_pos.mpr modulus)
    omega
  · rintro ⟨divides, less⟩
    have same := Int.emod_emod_of_dvd x (dvd_refl (y.natAbs : Int))
    have congruent : x % (y.natAbs : Int) = r % y.natAbs :=
      (Int.emod_emod_of_dvd x (dvd_refl _)).symm.trans
        (by rw [same]; exact Int.emod_eq_emod_iff_emod_sub_eq_zero.mpr
              (Int.emod_eq_zero_of_dvd divides))
    rw [congruent]
    exact Int.emod_eq_of_lt r_nonneg (by omega)

/-- When the remainder of the converted operands is that of the operands. -/
theorem tmod_nearest_iff {a b : Int} (nonzero : b ≠ 0) :
    (nearest a).tmod (nearest b) = a.tmod b ↔
      nearest b ∣ (nearest a - a) - a.tdiv b * (nearest b - b) ∧
        (a.tmod b).natAbs < (nearest b).natAbs := by
  have divisor := Double.nearest_ne_zero nonzero
  have shift : (nearest a - a) - a.tdiv b * (nearest b - b) =
      (nearest a - a.tmod b) - nearest b * a.tdiv b := by
    have sum := Int.mul_tdiv_add_tmod a b
    rw [mul_sub]
    linarith
  have dvd : nearest b ∣ (nearest a - a) - a.tdiv b * (nearest b - b) ↔
      nearest b ∣ nearest a - a.tmod b := by
    rw [shift]
    exact dvd_sub_left (dvd_mul_right _ _)
  rw [dvd]
  rcases le_total 0 a with nonneg | nonpos
  · exact tmod_eq_iff_of_nonneg (Double.nearest_nonneg nonneg) (Int.tmod_nonneg b nonneg)
      divisor
  · have negated := tmod_eq_iff_of_nonneg
      (Double.nearest_nonneg (neg_nonneg.mpr nonpos))
      (Int.tmod_nonneg b (neg_nonneg.mpr nonpos)) divisor
    rw [Double.nearest_neg, Int.neg_tmod, Int.neg_tmod, neg_inj, Int.natAbs_neg] at negated
    rw [negated, ← dvd_neg]
    ring_nf

end Condition

/-- In whatever code it is, an operation on two integers is exact, and never converts what
`int64_t` cannot hold, exactly when the condition holds. -/
theorem meets_iff_condition (site : Site) (op : IntOp) (a b : Int64)
    (accepts : op.Accepts b) : site.Meets op a b ↔ op.Condition a.toInt b.toInt := by
  rw [site.meets_iff accepts]
  cases op with
  | add =>
      have rounded := Double.add_rounded a b
      rw [Int.cast_add] at rounded
      exact rounded_iff rounded
  | sub =>
      have rounded := Double.sub_rounded a b
      rw [Int.cast_sub] at rounded
      exact rounded_iff rounded
  | mul =>
      have bound : (a.toInt * b.toInt).natAbs < 2 ^ 200 := by
        have product := Nat.mul_le_mul (Double.natAbs_toInt_le a) (Double.natAbs_toInt_le b)
        rw [← Int.natAbs_mul] at product
        exact product.trans_lt (by norm_num)
      have iff := rounded_iff (S := a.toInt * b.toInt) (Double.mul_rounded a b)
      rw [lands_mul_iff bound, Int.cast_mul] at iff
      exact iff
  | div => exact rounded_iff (Double.div_rounded a b (accepts (.inl rfl)))
  | mod =>
      have nonzero : b.toInt ≠ 0 := fun zero =>
        accepts (.inr rfl) (Int64.toInt_inj.mp zero)
      rcases Double.fmod_truncated a b (accepts (.inr rfl)) with ⟨defined, truncated⟩
      have range : FitsInt64 (a.toInt.tmod b.toInt) := by
        have size := Double.natAbs_toInt_le b
        have less := Int.natAbs_tmod a.toInt b.toInt
        have smaller := Nat.mod_lt a.toInt.natAbs (Int.natAbs_pos.mpr nonzero)
        unfold FitsInt64
        omega
      change (((ofInt64 a).fmod (ofInt64 b)).Convertible ∧ (FitsInt64 _ →
        ((ofInt64 a).fmod (ofInt64 b)).truncated = a.toInt.tmod b.toInt)) ↔ _
      rw [truncated, tmod_nearest_iff nonzero]
      constructor
      · rintro ⟨-, same⟩
        exact ⟨fun _ => same range, fun out => absurd range out⟩
      · rintro ⟨same, -⟩
        exact ⟨defined, same⟩

/-! ## Samples -/

/-- A driver without objects, efuns and code. -/
def idleSite : Site where
  env := .idle
  run := fun _ _ => none
  act := {
    program := ⟨0, [], [], [], [], [], [], [], []⟩
    fn := ⟨[], 0, 0, 0, false⟩
    obj := 0
    objectVarBase := 0 }
  ip := 0
  state := {
    locals := []
    localStack := []
    pendingVarargsDelta := 0
    world := {} }

/-- `-7 % 2` is `-1`. -/
theorem remainder_of_negative : idleSite.Meets .mod (-7) 2 := by
  apply (meets_iff_condition idleSite .mod (-7) 2 fun _ => by decide).mpr
  constructor
  · intro _
    exact ⟨by decide +kernel, by decide +kernel⟩
  · intro out
    exact absurd (by unfold FitsInt64; decide) out

/-- `9007199254740993 + 0` is `9007199254740992`. -/
theorem sum_of_odd : ¬ ∀ (site : Site) (op : IntOp) (a b : Int64), op.Accepts b →
    site.Meets op a b := by
  intro all
  have accepts : IntOp.add.Accepts 0 := by rintro (same | same) <;> cases same
  have meets := all idleSite .add 9007199254740993 0 accepts
  have computed := (idleSite.meets_iff accepts).mp meets
  have rounded := Double.add_rounded 9007199254740993 0
  have same := rounded.truncated_int.symm.trans (computed.2 (by unfold FitsInt64; decide))
  revert same
  decide +kernel

end Kjdmud.Vm
