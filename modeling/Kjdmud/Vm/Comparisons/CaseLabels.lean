import Kjdmud.Compiler.Refinement.Switch
import Kjdmud.Vm.Comparisons
import Kjdmud.Vm.Evaluations

/-!
# Case labels

The tests that `emitSwitchStmt` of `src/compiler/CodeGen.cpp` emits for a plain label and for a
range, and the values that they accept.
-/

namespace Kjdmud.Vm

open Kjdmud.Double (nearest)
open Kjdmud.Compiler (CodeGen Gen emit emitSwitchTest emitSwitchTestValue emitSwitchTest_eq)
open Regions (Crosses)

/-! ## The code of the tests -/

/-- The subject, and code behind it. -/
def subjectAnd (subjSlot : Nat) (code : List Instruction) : List Instruction :=
  [⟨.pushLocal, subjSlot, 0⟩] ++ code

/-- The test of `case low:`, with the position of the body. -/
def plainTest (subjSlot : Nat) (low : List Instruction) (body : Int) : List Instruction :=
  (subjectAnd subjSlot low ++ [⟨.eq, 0, 0⟩, ⟨.not, 0, 0⟩]) ++ [⟨.jumpIfFalse, body, 0⟩]

/-- What the test of `case low..high:` at position `p` pushes. -/
def rangeValue (subjSlot : Nat) (low high : List Instruction) (p : Nat) : List Instruction :=
  (subjectAnd subjSlot low ++ [⟨.gte, 0, 0⟩]) ++
    ([⟨.dup, 0, 0⟩, ⟨.jumpIfFalse, int32 (p + low.length + high.length + 7 : Nat), 0⟩,
        ⟨.pop, 0, 0⟩] ++
      ((subjectAnd subjSlot high ++ [⟨.lte, 0, 0⟩]) ++ [⟨.not, 0, 0⟩]))

def rangeTest (subjSlot : Nat) (low high : List Instruction) (p : Nat) (body : Int) :
    List Instruction :=
  rangeValue subjSlot low high p ++ [⟨.jumpIfFalse, body, 0⟩]

/-- The code generator with more code. -/
def extended (gen : CodeGen) (code : List Instruction) : CodeGen :=
  { gen with code := gen.code ++ code }

/-- An emitter that appends code, which may depend on the position alone. -/
def Appends (emitter : Gen Unit) (code : Nat → List Instruction) : Prop :=
  ∀ gen : CodeGen, emitter gen = .ok ((), extended gen (code gen.code.length))

theorem run_bind {α β : Type} {emitter : Gen α} {next : α → Gen β} {gen gen' : CodeGen} {a : α}
    (first : emitter gen = .ok (a, gen')) : (emitter >>= next) gen = next a gen' := by
  simp [bind, StateT.bind, Except.bind, first]

theorem extended_extended (gen : CodeGen) (first second : List Instruction) :
    extended (extended gen first) second = extended gen (first ++ second) := by
  simp [extended]

theorem length_extended (gen : CodeGen) (code : List Instruction) :
    (extended gen code).code.length = gen.code.length + code.length :=
  List.length_append

namespace Appends

variable {emitter next : Gen Unit} {code more : Nat → List Instruction}

theorem emit (instr : Instruction) : Appends (emit instr) fun _ => [instr] :=
  fun _ => rfl

theorem andThen (first : Appends emitter code) (second : Appends next more) :
    Appends (do emitter; next) fun p => code p ++ more (p + (code p).length) := by
  intro gen
  rw [run_bind (first gen), second, extended_extended, length_extended]

end Appends

/-- The test without the jump to the body, for either label. -/
theorem emitSwitchTest_appends {subjSlot : Nat} {value : Gen Unit} {rangeEnd : Option (Gen Unit)}
    {code : Nat → List Instruction}
    (appends : Appends (emitSwitchTestValue subjSlot value rangeEnd) code) (gen : CodeGen) :
    emitSwitchTest subjSlot value rangeEnd gen =
      .ok (gen.code.length + (code gen.code.length).length,
        extended gen (code gen.code.length ++ [⟨.jumpIfFalse, -1, 0⟩])) := by
  rw [emitSwitchTest_eq, run_bind (appends gen), ← extended_extended, ← length_extended]
  rfl

/-- What `emitSwitchTest` emits for a plain label. -/
theorem emitSwitchTest_plain {subjSlot : Nat} {value : Gen Unit} {low : List Instruction}
    (appends : Appends value fun _ => low) (gen : CodeGen) :
    emitSwitchTest subjSlot value none gen =
      .ok (gen.code.length + low.length + 3, extended gen (plainTest subjSlot low (-1))) := by
  have test : Appends (emitSwitchTestValue subjSlot value none) _ :=
    (Appends.emit ⟨.pushLocal, subjSlot, 0⟩).andThen
      (appends.andThen ((Appends.emit ⟨.eq, 0, 0⟩).andThen (.emit ⟨.not, 0, 0⟩)))
  rw [emitSwitchTest_appends test]
  simp [plainTest, subjectAnd]
  omega

/-! ## What the tests accept -/

section Accepted

variable {m : Machine} {subjSlot p : Nat} {low high : List Instruction} {s : State}
  {a b c : Number}

variable (m) in
/-- Code that pushes one value wherever it stands. -/
def PushesConst (code : List Instruction) (v : Value) : Prop :=
  ∀ p s, m.Placed code p → m.Passes code p s (s.push v)

variable (m) in
/-- A test goes on at the body. -/
def Takes (test : List Instruction) (p body : Nat) (s : State) : Prop :=
  ∀ frames, Crosses m.advance (Machine.Within p (p + test.length)) ⟨p, frames, s⟩
    ⟨body, frames, s⟩

theorem coerce_number (w : World) (a : Number) : w.coerceIfDestructed a.1 = a.1 := by
  obtain ⟨⟨data, _, _⟩, numeric⟩ := a
  cases data with
  | int _ | double _ | void => rfl
  | _ => exact absurd numeric id

/-- The subject is pushed from its slot. -/
theorem passes_subject (placed : m.Placed [⟨.pushLocal, subjSlot, 0⟩] p)
    (subject : s.locals[subjSlot]? = some a.1) :
    m.Passes [⟨.pushLocal, subjSlot, 0⟩] p s (s.push a.1) := by
  obtain ⟨inside, found⟩ := List.getElem?_eq_some_iff.mp subject
  have slot : slotBelow s.locals.length (subjSlot : Int) = some subjSlot := by
    rw [slotBelow, if_neg (by omega), Int.toNat_natCast]
  have locals : s.locals.set subjSlot a.1 = s.locals := by
    rw [← found, List.set_getElem_self]
  refine Machine.passes_plain placed (by simp [Machine.Plain]) ?_
  change pushLocal (subjSlot : Int) s = _
  simp only [pushLocal, slot, subject, Option.getD_some, coerce_number, locals]
  rfl

/-- An opcode on two operands. -/
theorem passes_evaluates {op : OpCode} {x y v : Value} (stack : List Value)
    (placed : m.Placed [⟨op, 0, 0⟩] p) (plain : Machine.Plain ⟨op, 0, 0⟩)
    (evaluates : Evaluates op x y v) :
    m.Passes [⟨op, 0, 0⟩] p (s.withStack (y :: x :: stack)) (s.withStack (v :: stack)) :=
  Machine.passes_plain placed plain (evaluates m p s stack)

theorem passes_not (truth : Bool) (stack : List Value) (placed : m.Placed [⟨.not, 0, 0⟩] p) :
    m.Passes [⟨.not, 0, 0⟩] p (s.withStack (Value.ofBool truth :: stack))
      (s.withStack (Value.ofBool (!truth) :: stack)) := by
  refine Machine.passes_plain placed (by decide) ?_
  cases truth <;> rfl

theorem isTruthy_ofBool (truth : Bool) : isTruthy (Value.ofBool truth) = truth := by
  cases truth <;> rfl

/-- The body stands neither in the test nor right behind it. -/
def Elsewhere (test : List Instruction) (p body : Nat) : Prop :=
  body < p ∨ p + test.length < body

/-- The last jump of a test. -/
theorem crosses_test {code : List Instruction} {body : Nat} {truth : Bool}
    (frames : List CatchFrame) (placed : m.Placed (code ++ [⟨.jumpIfFalse, body, 0⟩]) p)
    (passes : m.Passes code p s (s.push (Value.ofBool (!truth))))
    (inside : body ≤ m.act.program.code.length)
    (outside : body < p ∨ p + code.length + 1 ≤ body) :
    Crosses m.advance
      (Machine.Within p (p + (code ++ [(⟨.jumpIfFalse, body, 0⟩ : Instruction)]).length))
      ⟨p, frames, s⟩ ⟨if truth then body else p + code.length + 1, frames, s⟩ := by
  have length : (code ++ [(⟨.jumpIfFalse, body, 0⟩ : Instruction)]).length =
      code.length + 1 := List.length_append
  have jumps := Machine.advance_jumpIfFalse frames placed.right
    (Int.natCast_nonneg body) (by rwa [Int.toNat_natCast]) (s := s.push (Value.ofBool (!truth)))
    rfl
  rw [isTruthy_ofBool] at jumps
  rw [length]
  refine passes.then le_rfl (by omega) (.step ⟨by simp, by simp⟩ jumps ?_)
  cases truth with
  | true =>
      refine .leave fun within => ?_
      have bounds : p ≤ body ∧ body < p + (code.length + 1) := within
      omega
  | false => exact .leave fun within => Nat.lt_irrefl _ within.2

/-- A plain label accepts what equals its value. -/
theorem passes_plainTest {b : Value}
    (placed : m.Placed (subjectAnd subjSlot low ++ [⟨.eq, 0, 0⟩, ⟨.not, 0, 0⟩]) p)
    (pushes : PushesConst m low b) (subject : s.locals[subjSlot]? = some a.1) :
    m.Passes (subjectAnd subjSlot low ++ [⟨.eq, 0, 0⟩, ⟨.not, 0, 0⟩]) p s
      (s.push (Value.ofBool (!valuesEqual a.1 b))) := by
  have operands := (passes_subject placed.left.left subject).append
    (pushes _ _ placed.left.right)
  refine operands.append ?_
  have atEq : m.Placed ([⟨.eq, 0, 0⟩] ++ [⟨.not, 0, 0⟩]) _ := placed.right
  have equal := passes_evaluates (s := s) s.localStack atEq.left (by decide) (evaluates_eq a.1 b)
  have negated := passes_not (s := s) (valuesEqual a.1 b) s.localStack atEq.right
  exact equal.append negated

/-- The comparison with one bound of a range. -/
theorem passes_bound {bound : List Instruction} {op : OpCode} {truth : Bool} {b : Value}
    (placed : m.Placed (subjectAnd subjSlot bound ++ [⟨op, 0, 0⟩]) p)
    (plain : Machine.Plain ⟨op, 0, 0⟩) (pushes : PushesConst m bound b)
    (subject : s.locals[subjSlot]? = some a.1)
    (evaluates : Evaluates op a.1 b (.ofBool truth)) :
    m.Passes (subjectAnd subjSlot bound ++ [⟨op, 0, 0⟩]) p s
      (s.push (Value.ofBool truth)) := by
  have operands := (passes_subject placed.left.left subject).append
    (pushes _ _ placed.left.right)
  exact operands.append
    (passes_evaluates (s := s) s.localStack placed.right plain evaluates)

theorem advance_dup {code : List Instruction} {frames : List CatchFrame} {v : Value}
    (placed : m.Placed (⟨.dup, 0, 0⟩ :: code) p) :
    m.advance ⟨p, frames, s.push v⟩ = some ⟨p + 1, frames, (s.push v).push v⟩ :=
  Machine.advance_plain placed (by decide) rfl

theorem advance_pop {code : List Instruction} {frames : List CatchFrame} {v : Value}
    (placed : m.Placed (⟨.pop, 0, 0⟩ :: code) p) :
    m.advance ⟨p, frames, s.push v⟩ = some ⟨p + 1, frames, s⟩ :=
  Machine.advance_plain placed (by decide) rfl

/-- The upper bound is looked at when the lower one holds. -/
theorem passes_rangeValue {b c : Value} {lower upper : Bool}
    (placed : m.Placed (rangeValue subjSlot low high p) p)
    (small : m.act.program.code.length < 2 ^ 31)
    (pushes : PushesConst m low b) (pushesEnd : PushesConst m high c)
    (subject : s.locals[subjSlot]? = some a.1)
    (evaluates : Evaluates .gte a.1 b (.ofBool lower))
    (evaluatesEnd : Evaluates .lte a.1 c (.ofBool upper)) :
    m.Passes (rangeValue subjSlot low high p) p s
      (s.push (Value.ofBool (!(lower && upper)))) := by
  intro frames
  have whole := placed.length_le (by simp [rangeValue])
  have lengths : (rangeValue subjSlot low high p).length = low.length + high.length + 8 := by
    simp [rangeValue, subjectAnd]
    omega
  have first : (subjectAnd subjSlot low ++ [(⟨.gte, 0, 0⟩ : Instruction)]).length =
      low.length + 2 := by
    simp [subjectAnd]
  have second : (subjectAnd subjSlot high ++ [(⟨.lte, 0, 0⟩ : Instruction)]).length =
      high.length + 2 := by
    simp [subjectAnd]
  have target : int32 (p + low.length + high.length + 7 : Nat) =
      (p + low.length + high.length + 7 : Nat) :=
    Int.bmod_eq_of_le (by omega) (by omega)
  unfold rangeValue at placed
  have later := placed.right
  rw [first] at later
  have atDup := Machine.Placed.left later
  have atBound := Machine.Placed.right later
  have atNot := Machine.Placed.right atBound
  rw [second] at atNot
  have jumps := Machine.advance_jumpIfFalse frames atDup.tail
    (by rw [target]; omega) (by rw [target]; omega) (s := (s.push (Value.ofBool lower)).push
      (Value.ofBool lower)) rfl
  rw [isTruthy_ofBool, target, Int.toNat_natCast] at jumps
  rw [lengths]
  refine (passes_bound placed.left (by decide) pushes subject evaluates).then le_rfl (by omega) ?_
  rw [first]
  refine .step (show p ≤ p + (low.length + 2) ∧ p + (low.length + 2) < _ by omega)
    (advance_dup atDup) ?_
  refine .step (show p ≤ p + (low.length + 2) + 1 ∧ p + (low.length + 2) + 1 < _ by omega)
    jumps ?_
  -- what stands on the stack at the negation
  have finish (truth : Bool) : Crosses m.advance
      (Machine.Within p (p + (low.length + high.length + 8)))
      ⟨p + low.length + high.length + 7, frames, s.push (Value.ofBool truth)⟩
      ⟨p + (low.length + high.length + 8), frames, s.push (Value.ofBool (!truth))⟩ := by
    have position : p + (low.length + 2) + 3 + (high.length + 2) =
        p + low.length + high.length + 7 := by omega
    have negated := passes_not (s := s) truth s.localStack atNot
    change m.Passes _ (p + (low.length + 2) + 3 + (high.length + 2)) _ _ at negated
    have final : p + (low.length + high.length + 8) =
        p + low.length + high.length + 7 + 1 := by omega
    rw [position] at negated
    rw [final]
    exact negated.then (by omega) le_rfl (.leave fun within => Nat.lt_irrefl _ within.2)
  cases lower with
  | false => exact finish false
  | true =>
      change Crosses m.advance _
        (⟨p + (low.length + 2) + 1 + 1, frames, s.push (Value.ofBool true)⟩ : Config) _
      refine .step (show p ≤ p + (low.length + 2) + 1 + 1 ∧ p + (low.length + 2) + 1 + 1 < _ by
        omega) (advance_pop atDup.tail.tail) ?_
      have bound := passes_bound atBound.left (by decide) pushesEnd subject evaluatesEnd
      have next : p + (low.length + 2) + 3 + (high.length + 2) =
        p + low.length + high.length + 7 := by omega
      change m.Passes _ (p + (low.length + 2) + 3) _ _ at bound
      refine bound.then (by omega) (by rw [second]; omega) ?_
      rw [second, next]
      exact finish upper

/-- A test goes on at the body exactly when it accepts the subject. -/
theorem takes_iff {code : List Instruction} {body : Nat} {truth : Bool}
    (placed : m.Placed (code ++ [⟨.jumpIfFalse, body, 0⟩]) p)
    (passes : m.Passes code p s (s.push (Value.ofBool (!truth))))
    (inside : body ≤ m.act.program.code.length)
    (elsewhere : Elsewhere (code ++ [⟨.jumpIfFalse, body, 0⟩]) p body) :
    Takes m (code ++ [⟨.jumpIfFalse, body, 0⟩]) p body s ↔ truth = true := by
  have length : (code ++ [(⟨.jumpIfFalse, body, 0⟩ : Instruction)]).length =
      code.length + 1 := List.length_append
  unfold Elsewhere at elsewhere
  rw [length] at elsewhere
  have crosses (frames : List CatchFrame) :=
    crosses_test frames placed passes inside (by omega)
  constructor
  · intro takes
    have same := Crosses.unique (takes []) (crosses [])
    cases truth with
    | true => rfl
    | false =>
        have position : body = p + code.length + 1 := congrArg Config.ip same
        omega
  · rintro rfl frames
    exact crosses frames

end Accepted

/-! ## Both labels -/

/-- The test of `case low..low:` accepts what that of `case low:` accepts. -/
def LabelsAgree (subject low : Value) : Prop :=
  ∀ (m : Machine) (subjSlot p q body : Nat) (code : List Instruction) (s : State),
    m.act.program.code.length < 2 ^ 31 → body ≤ m.act.program.code.length →
    m.Placed (plainTest subjSlot code body) p →
    m.Placed (rangeTest subjSlot code code q body) q →
    Elsewhere (plainTest subjSlot code body) p body →
    Elsewhere (rangeTest subjSlot code code q body) q body →
    PushesConst m code low → s.locals[subjSlot]? = some subject →
    (Takes m (plainTest subjSlot code body) p body s ↔
      Takes m (rangeTest subjSlot code code q body) q body s)

theorem labelsAgree_of_apart {a b : Number} (apart : Apart a.1 b.1) : LabelsAgree a.1 b.1 := by
  intro m subjSlot p q body code s small inside placed placed' elsewhere elsewhere' pushes subject
  have equal := (valuesEqual_iff_rank a b).mpr apart
  have plain := takes_iff placed (passes_plainTest placed.left pushes subject) inside elsewhere
  have range := takes_iff placed' (passes_rangeValue placed'.left small pushes pushes subject
    (Number.evaluates_gte a b) (Number.evaluates_lte a b)) inside elsewhere'
  refine plain.trans (Iff.trans ?_ range.symm)
  rw [equal, Bool.and_eq_true, Number.le_iff, Number.le_iff]
  exact ⟨fun same => ⟨same.ge, same.le⟩, fun both => le_antisymm both.2 both.1⟩

/-- The tests of `case 7:` and `case 7..7:`. -/
example (s : State) (subject : s.locals[0]? = some (.int 7)) :
    let seven := [⟨.pushInt, 7, 0⟩]
    let m := bareMachine (plainTest 0 seven 17 ++ rangeTest 0 seven seven 5 17 ++
      [⟨.pop, 0, 0⟩]) []
    Takes m (plainTest 0 seven 17) 0 17 s ↔ Takes m (rangeTest 0 seven seven 5 17) 5 17 s :=
  labelsAgree_of_apart (a := ⟨.int 7, trivial⟩) (b := ⟨.int 7, trivial⟩) (.inl rfl)
    _ 0 0 5 17 _ s (by decide) (by decide) ⟨_, rfl⟩ ⟨_, rfl⟩ (.inr (by decide))
    (.inr (by decide)) (fun _ _ placed => Machine.passes_plain placed (by decide) rfl) subject

/-- The comparisons say one order, and the labels agree with it, exactly for operands whose
equality is that of the numbers the orderings see.  `Lt` is transitive throughout. -/
theorem comparisons_iff (a b c : Number) :
    ((∃ order, Compares a.1 b.1 order) ∧ LabelsAgree a.1 b.1 ↔ Apart a.1 b.1) ∧
    (Evaluates .lt a.1 b.1 (.ofBool true) →
      Evaluates .lt b.1 c.1 (.ofBool true) → Evaluates .lt a.1 c.1 (.ofBool true)) :=
  ⟨⟨fun both => (compares_iff a b).mp both.1,
    fun apart => ⟨(compares_iff a b).mpr apart, labelsAgree_of_apart apart⟩⟩,
    lt_trans_numbers a b c⟩

/-- Of 9007199254740993 and 9007199254740992 none is less, and they are not equal. -/
theorem int_neither_less_nor_equal :
    Evaluates .lt (.int 9007199254740993) (.int 9007199254740992) (.ofBool false) ∧
    Evaluates .eq (.int 9007199254740993) (.int 9007199254740992) (.ofBool false) ∧
    Evaluates .gt (.int 9007199254740993) (.int 9007199254740992) (.ofBool false) ∧
    ¬ ∃ order, Compares (.int 9007199254740993) (.int 9007199254740992) order := by
  let a : Number := ⟨.int 9007199254740993, trivial⟩
  let b : Number := ⟨.int 9007199254740992, trivial⟩
  have collide : ¬ Apart a.1 b.1 := by
    change ¬ ((9007199254740993 : Int64) = 9007199254740992 ∨
      nearest (9007199254740993 : Int64).toInt ≠ nearest (9007199254740992 : Int64).toInt)
    decide +kernel
  have less : a.1.toDouble.lt b.1.toDouble = false := by decide +kernel
  have more : b.1.toDouble.lt a.1.toDouble = false := by decide +kernel
  have below := Number.evaluates_lt a b
  have above := Number.evaluates_gt a b
  rw [less] at below
  rw [more] at above
  exact ⟨below, evaluates_eq a.1 b.1, above, fun some_ => collide ((compares_iff a b).mp some_)⟩

end Kjdmud.Vm
