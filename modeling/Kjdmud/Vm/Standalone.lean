import Kjdmud.Vm.Run

/-!
# Instructions on their own

An instruction reads its own words of the code and no others, and goes on right behind them.  So
it can be executed apart from the program in which it stands.
-/

namespace Kjdmud.Vm

/-- The number of data instructions behind an instruction. -/
def Instruction.tableLength (instr : Instruction) : Nat :=
  match instr.op with
  | .callParent => 1
  | .sscanf => instr.operand.toNat
  | _ => 0

/-! ## Behind an instruction -/

/-- A handler that goes on so many words further, if it goes on. -/
def StepsBy (n : Nat) (h : Handler) : Prop :=
  ∀ s words s', h s = some (.next words s') → words = n

namespace StepsBy

variable {n : Nat}

theorem fail (check : Check) (message : String) : StepsBy n (fail check message) :=
  fun _ _ _ goes => by cases goes

theorem advance : StepsBy 1 advance :=
  fun _ _ _ goes => by cases goes; rfl

theorem pushNext (v : Value) : StepsBy 1 (pushNext v) :=
  fun _ _ _ goes => by cases goes; rfl

theorem pushResult (result : Except LpcError (Value × World)) : StepsBy 1 (pushResult result) := by
  intro s words s' goes
  cases result with
  | error error => cases goes
  | ok pushed =>
      cases goes
      rfl

theorem pushOutcome (result : Option (Outcome × World)) : StepsBy n (pushOutcome n result) := by
  intro s words s' goes
  unfold Vm.pushOutcome at goes
  split at goes
  · cases goes
  · cases goes
    rfl
  · cases goes

theorem unary (name : String) (apply : Value → Operator) : StepsBy 1 (unary name apply) := by
  intro s words s' goes
  rw [Vm.unary] at goes
  split at goes
  · exact pushResult _ _ _ _ goes
  · exact fail _ _ _ _ _ goes

theorem binary (name : String) (apply : Value → Value → Operator) :
    StepsBy 1 (binary name apply) := by
  intro s words s' goes
  rw [Vm.binary] at goes
  split at goes
  · exact pushResult _ _ _ _ goes
  · exact fail _ _ _ _ _ goes

theorem withPool {α : Type} (pool : List α) (operand : Int) (message : String) {k : α → Handler}
    (rest : ∀ entry, StepsBy n (k entry)) : StepsBy n (withPool pool operand message k) := by
  rw [Vm.withPool]
  split
  · exact rest _
  · exact fail _ _

theorem withArguments (instr : Instruction) (message : Str) {k : List Value → Handler}
    (rest : ∀ args, StepsBy n (k args)) : StepsBy n (withArguments instr message k) := by
  intro s words s' goes
  rw [Vm.withArguments] at goes
  split at goes
  · cases goes
  · exact rest _ _ _ _ goes

theorem pushLocal (operand : Int) : StepsBy 1 (pushLocal operand) := by
  intro s words s' goes
  rw [Vm.pushLocal] at goes
  split at goes
  · exact fail _ _ _ _ _ goes
  · exact pushNext _ _ _ _ goes

theorem storeLocal (operand : Int) : StepsBy 1 (storeLocal operand) := by
  intro s words s' goes
  rw [Vm.storeLocal] at goes
  split at goes
  · exact fail _ _ _ _ _ goes
  · exact fail _ _ _ _ _ goes
  · exact advance _ _ _ goes

theorem pushObjectVar (act : Activation) (operand : Int) :
    StepsBy 1 (pushObjectVar act operand) := by
  intro s words s' goes
  rw [Vm.pushObjectVar] at goes
  split at goes
  · exact fail _ _ _ _ _ goes
  · exact pushNext _ _ _ _ goes

theorem storeObjectVar (act : Activation) (operand : Int) :
    StepsBy 1 (storeObjectVar act operand) := by
  intro s words s' goes
  rw [Vm.storeObjectVar] at goes
  split at goes
  · exact fail _ _ _ _ _ goes
  · exact fail _ _ _ _ _ goes
  · exact advance _ _ _ goes

theorem expandVarargs (operand : Int) : StepsBy 1 (expandVarargs operand) := by
  intro s words s' goes
  rw [Vm.expandVarargs] at goes
  split at goes
  · exact fail _ _ _ _ _ goes
  · split at goes
    · exact advance _ _ _ goes
    · cases goes

theorem makeArray (instr : Instruction) : StepsBy 1 (makeArray instr) :=
  withArguments _ _ fun _ _ _ _ goes => pushNext _ _ _ _ goes

theorem makeMapping (instr : Instruction) : StepsBy 1 (makeMapping instr) := by
  intro s words s' goes
  rw [Vm.makeMapping] at goes
  split at goes
  · exact fail _ _ _ _ _ goes
  · exact pushNext _ _ _ _ goes

theorem index (instr : Instruction) : StepsBy 1 (index instr) := by
  intro s words s' goes
  rw [Vm.index] at goes
  split at goes
  · exact pushResult _ _ _ _ goes
  · exact pushResult _ _ _ _ goes
  · exact fail _ _ _ _ _ goes

theorem assigned (result : Except LpcError World) : StepsBy 1 (assigned result) := by
  intro s words s' goes
  cases result with
  | error error => cases goes
  | ok w => exact advance _ _ _ goes

theorem indexAssignInstr (instr : Instruction) : StepsBy 1 (indexAssignInstr instr) := by
  intro s words s' goes
  rw [Vm.indexAssignInstr] at goes
  split at goes
  · exact assigned _ _ _ _ goes
  · exact assigned _ _ _ _ goes
  · exact fail _ _ _ _ _ goes

theorem rangeIndexInstr (instr : Instruction) : StepsBy 1 (rangeIndexInstr instr) := by
  intro s words s' goes
  rw [Vm.rangeIndexInstr] at goes
  split at goes
  · exact pushResult _ _ _ _ goes
  · exact fail _ _ _ _ _ goes

section Calls

variable (env : Env) (run : Runner) (act : Activation) (ip : Nat) (instr : Instruction)

theorem call : StepsBy 1 (call env run act instr) :=
  withPool _ _ _ fun _ => withArguments _ _ fun _ _ _ _ goes => pushOutcome _ _ _ _ goes

theorem callEfun : StepsBy 1 (callEfun env run act instr) :=
  withPool _ _ _ fun _ => withArguments _ _ fun _ _ _ _ goes => pushOutcome _ _ _ _ goes

theorem callParent : StepsBy 2 (callParent run act ip instr) := by
  refine withPool _ _ _ fun name => ?_
  split
  · exact fail _ _
  · exact withArguments _ _ fun _ _ _ _ goes => pushOutcome _ _ _ _ goes

theorem pushClosure (name : String) (forceEfun : Bool) :
    StepsBy 1 (pushClosure act instr name forceEfun) := by
  refine withPool _ _ _ fun functionName s words s' goes => ?_
  split at goes
  · cases goes
  · exact pushNext _ _ _ _ goes

theorem scanInto (table : List Instruction) (input format : Str) :
    StepsBy (1 + table.length) (scanInto env act table input format) := by
  intro s words s' goes
  rw [Vm.scanInto] at goes
  split at goes
  · cases goes
  · split at goes
    · cases goes
    · cases goes
      rfl

theorem sscanf : StepsBy (1 + instr.operand.toNat) (sscanf env act ip instr) := by
  intro s words s' goes
  rw [Vm.sscanf] at goes
  split at goes
  · exact fail _ _ _ _ _ goes
  · split at goes
    · dsimp only at goes
      split at goes
      · split at goes
        · exact fail _ _ _ _ _ goes
        · next short =>
            have stepped := scanInto env act _ _ _ _ _ _ goes
            rw [List.length_take, List.length_drop] at stepped
            omega
      · cases goes
    · exact fail _ _ _ _ _ goes

theorem timeExpressionStart : StepsBy 1 (timeExpressionStart env) :=
  fun _ _ _ goes => advance _ _ _ goes

theorem timeExpressionEnd : StepsBy 1 (timeExpressionEnd env) := by
  intro s words s' goes
  rw [Vm.timeExpressionEnd] at goes
  split at goes
  · exact fail _ _ _ _ _ goes
  · exact pushNext _ _ _ _ goes

theorem pop : StepsBy 1 pop :=
  fun _ _ _ goes => advance _ _ _ goes

theorem dup : StepsBy 1 dup := by
  intro s words s' goes
  rw [Vm.dup] at goes
  split at goes
  · exact fail _ _ _ _ _ goes
  · exact pushNext _ _ _ _ goes

theorem ends {effect : State → Option Effect} (never : ∀ s words s',
    effect s ≠ some (.next words s')) : StepsBy n effect :=
  fun s words s' goes => absurd goes (never s words s')

/-- An instruction goes on behind its own words. -/
theorem execute : StepsBy (1 + instr.tableLength) (execute env run act ip instr) := by
  obtain ⟨op, operand, argCount⟩ := instr
  cases op with
  | pushConst => exact withPool _ _ _ fun _ => pushNext _
  | pushInt => exact pushNext _
  | pushFloat => exact withPool _ _ _ fun _ => pushNext _
  | pushNil => exact pushNext _
  | pushSymbol => exact withPool _ _ _ fun _ => pushNext _
  | pushLocal => exact pushLocal _
  | storeLocal => exact storeLocal _
  | pushObjectVar => exact pushObjectVar _ _
  | storeObjectVar => exact storeObjectVar _ _
  | eq => exact binary _ fun lhs rhs w => .ok (Value.ofBool (valuesEqual lhs rhs), w)
  | neq => exact binary _ fun lhs rhs w => .ok (Value.ofBool (!valuesEqual lhs rhs), w)
  | not => exact unary _ fun v w => .ok (Value.ofBool (!isTruthy v), w)
  | add | sub | mul | div | mod | bitAnd | bitOr | bitXor | shl | shr | lt | lte | gt
  | gte => exact binary _ _
  | bitNot | foreachKeys => exact unary _ _
  | call => exact call _ _ _ _
  | callEfun => exact callEfun _ _ _ _
  | callParent => exact callParent _ _ _ _
  | pushClosure => exact pushClosure _ _ _ _
  | pushEfunClosure => exact pushClosure _ _ _ _
  | expandVarargs => exact expandVarargs _
  | makeArray => exact makeArray _
  | makeMapping => exact makeMapping _
  | index => exact index _
  | indexAssign => exact indexAssignInstr _
  | rangeIndex => exact rangeIndexInstr _
  | sscanf => exact sscanf _ _ _ _
  | timeExpressionStart => exact timeExpressionStart _
  | timeExpressionEnd => exact timeExpressionEnd _
  | pop => exact pop
  | dup => exact dup
  | «return» | halt | jump | jumpIfFalse | pushCatchFrame | popCatchFrame
  | callParentQualifierSlot | callApply | sscanfVarSlot | suspend =>
      exact ends fun _ _ _ goes => by cases goes

end Calls

end StepsBy

/-! ## Apart from the program -/

/-- The activation of a program that consists of some code only. -/
def Activation.withCode (act : Activation) (code : List Instruction) : Activation :=
  { act with program := { act.program with code := code } }

variable {env : Env} {run : Runner} {act : Activation} {ip : Nat} {instr : Instruction}
  {table : List Instruction}

theorem parentQualifier_withCode {slot : Instruction}
    (placed : [instr, slot] <+: act.program.code.drop ip) :
    parentQualifier (act.withCode [instr, slot]) 0 = parentQualifier act ip := by
  have second : act.program.code[ip + 1]? = some slot := by
    obtain ⟨rest, whole⟩ := placed
    rw [← List.getElem?_drop, ← whole]
    rfl
  rw [parentQualifier, parentQualifier, second]
  rfl

/-- The outputs of `sscanf` do not depend on the code. -/
theorem assignOutputs_withCode (code table : List Instruction) (values : List Value) (s : State) :
    assignOutputs (act.withCode code) table values s = assignOutputs act table values s := by
  induction table generalizing values s with
  | nil => rfl
  | cons slotSpec table ih =>
      cases values with
      | nil => rfl
      | cons v values =>
          have first : assignOutput (act.withCode code) slotSpec v s =
              assignOutput act slotSpec v s := rfl
          rw [assignOutputs, assignOutputs, first]
          cases assignOutput act slotSpec v s with
          | error failure => rfl
          | ok s' => exact ih values s'

theorem scanInto_withCode (code table : List Instruction) (input format : Str) :
    scanInto env (act.withCode code) table input format = scanInto env act table input format := by
  funext s
  simp only [scanInto, assignOutputs_withCode]

theorem sscanf_withCode (placed : instr :: table <+: act.program.code.drop ip)
    (own : instr.operand.toNat = table.length) (s : State) :
    sscanf env (act.withCode (instr :: table)) 0 instr s = sscanf env act ip instr s := by
  obtain ⟨rest, whole⟩ := placed
  have long : ip + 1 + table.length ≤ act.program.code.length := by
    have lengths := congrArg List.length whole
    rw [List.length_append, List.length_cons, List.length_drop] at lengths
    omega
  have here : (act.program.code.drop (ip + 1)).take table.length = table := by
    rw [← List.drop_drop, ← whole, List.cons_append, List.drop_one, List.tail_cons,
      List.take_left]
  have alone : ((instr :: table).drop (0 + 1)).take table.length = table := by
    rw [List.drop_succ_cons, List.drop_zero, List.take_length]
  have fits : ¬ act.program.code.length < ip + 1 + table.length := Nat.not_lt.mpr long
  have fits' : ¬ (instr :: table).length < 0 + 1 + table.length := by
    rw [List.length_cons]
    omega
  have code : (act.withCode (instr :: table)).program.code = instr :: table := rfl
  rw [sscanf, sscanf, own]
  simp only [code, if_neg fits, if_neg fits', here, alone, scanInto_withCode]

/-- An instruction is executed as it is on its own, with its table. -/
theorem execute_withCode (placed : instr :: table <+: act.program.code.drop ip)
    (own : instr.tableLength = table.length) (s : State) :
    execute env run (act.withCode (instr :: table)) 0 instr s = execute env run act ip instr s := by
  obtain ⟨op, operand, argCount⟩ := instr
  cases op with
  | callParent =>
      obtain ⟨slot, rfl⟩ := List.length_eq_one_iff.mp own.symm
      change callParent run _ 0 _ s = callParent run _ ip _ s
      rw [callParent, callParent, parentQualifier_withCode placed]
      rfl
  | sscanf => exact sscanf_withCode placed own s
  | _ => rfl

end Kjdmud.Vm
