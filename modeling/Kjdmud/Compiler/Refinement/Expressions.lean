import Kjdmud.Compiler.Refinement.Switch

/-!
# The expression emitters

Each expression emitter realizes its lowered counterpart when the emitters of
its parts do.
-/

namespace Kjdmud.Compiler

open Kjdmud.Vm Kjdmud.Structured Kjdmud.StateExcept

namespace Realizes

variable {m left right : Gen Unit} {l left' right' : Lower}

theorem combine (op : BinOp) : Realizes (emitCombine op) (lowerCombine op) := by
  simp only [emitCombine, lowerCombine]
  cases op.combineOp with
  | some code => exact .one _
  | none => exact .throw

theorem binaryExpr (op : BinOp) (realizesLeft : Realizes left left')
    (realizesRight : Realizes right right') :
    Realizes (emitBinaryExpr op left right) (lowerBinaryExpr op left' right') := by
  apply realizesLeft.andThen
  apply realizesRight.andThen
  cases op.opCode with
  | some code => exact .one _
  | none => exact .throw

theorem logicalExpr (op : BinOp) (realizesLeft : Realizes left left')
    (realizesRight : Realizes right right') :
    Realizes (emitLogicalExpr op left right) (lowerLogicalExpr op left' right') := by
  apply realizesLeft.andThen
  apply (Realizes.one _).andThen
  have otherwise := (Realizes.one ⟨.pop, 0, 0⟩).andThen realizesRight
  by_cases isOr : op = .or
  · simpa [isOr, inOrder, bind_assoc] using Realizes.skip.ifElse otherwise
  · simpa [isOr, inOrder, bind_assoc] using otherwise.ifThen

theorem ternaryExpr {condition thenBranch elseBranch : Gen Unit}
    {condition' thenBranch' elseBranch' : Lower}
    (realizesCondition : Realizes condition condition')
    (realizesThen : Realizes thenBranch thenBranch')
    (realizesElse : Realizes elseBranch elseBranch') :
    Realizes (emitTernaryExpr condition thenBranch elseBranch)
      (lowerTernaryExpr condition' thenBranch' elseBranch') :=
  realizesCondition.andThen (realizesThen.ifElse realizesElse)

theorem catchExpr (realizes : Realizes m l) :
    Realizes (emitCatchExpr m) (lowerCatchExpr l) := by
  simpa [emitCatchExpr, lowerCatchExpr, inOrder, bind_assoc] using
    (realizes.andThen (.one ⟨.pop, 0, 0⟩)).guard

theorem timeExpressionExpr (realizes : Realizes m l) :
    Realizes (emitTimeExpressionExpr m) (lowerTimeExpressionExpr l) :=
  (Realizes.one _).andThen (realizes.block.nest.andThen (.one _))

theorem assignExpr (name : Str) (realizes : Realizes m l) (compoundOp : Option BinOp) :
    Realizes (emitAssignExpr name m compoundOp) (lowerAssignExpr name l compoundOp) := by
  apply Realizes.naming
  intro var
  have store := (Realizes.one ⟨.dup, 0, 0⟩).andThen (.one var.store)
  cases compoundOp with
  | some op =>
      simpa [inOrder, bind_assoc] using
        ((Realizes.one var.push).andThen (realizes.andThen (.combine op))).andThen store
  | none => exact realizes.andThen store

theorem incDecExpr (op : IncDecOp) (isPrefix : Bool) (name : Str) :
    Realizes (emitIncDecExpr op isPrefix name) (lowerIncDecExpr op isPrefix name) := by
  apply Realizes.naming
  intro var
  cases isPrefix with
  | true =>
      exact (Realizes.one _).andThen ((Realizes.one _).andThen ((Realizes.one _).andThen
        ((Realizes.one _).andThen (.one _))))
  | false =>
      exact (Realizes.one _).andThen ((Realizes.one _).andThen ((Realizes.one _).andThen
        ((Realizes.one _).andThen (.one _))))

theorem indexValue (targetExpr indexNode : AstNode) (realizes : Realizes m l) :
    Realizes (emitIndexValue targetExpr indexNode m)
      (lowerIndexValue targetExpr indexNode l) := by
  cases indexNode with
  | memberNameMarker name => exact .naming fun _ => .one _
  | _ => exact realizes

theorem ifSome {m : Option (Gen Unit)} {l : Option Lower} (related : OptionRealizes m l) :
    Realizes (emitIfSome m) (lowerIfSome l) := by
  cases related with
  | none => exact .skip
  | some realizes => exact realizes

theorem indexIncDecExpr (op : IncDecOp) (isPrefix : Bool) (flags : Int)
    (place : Realizes m l) :
    Realizes (emitIndexIncDecExpr op isPrefix m flags)
      (lowerIndexIncDecExpr op isPrefix l flags) :=
  .naming fun _ => .naming fun _ =>
    place.andThen ((Realizes.one _).andThen ((Realizes.one _).andThen
      ((Realizes.one _).andThen ((Realizes.one _).andThen ((Realizes.one _).andThen
        ((Realizes.one _).andThen (place.andThen ((Realizes.one _).andThen
          ((Realizes.one _).andThen (.one _))))))))))

theorem indexAssignExpr {value : Gen Unit} {value' : Lower} (compoundOp : Option BinOp)
    (flags : Int) (place : Realizes m l) (realizesValue : Realizes value value') :
    Realizes (emitIndexAssignExpr m value compoundOp flags)
      (lowerIndexAssignExpr l value' compoundOp flags) := by
  apply Realizes.naming
  intro tempSlot
  have assign := (Realizes.one ⟨.storeLocal, tempSlot, 0⟩).andThen (place.andThen
    ((Realizes.one ⟨.pushLocal, tempSlot, 0⟩).andThen
      ((Realizes.one ⟨.indexAssign, 0, flags⟩).andThen
        (.one ⟨.pushLocal, tempSlot, 0⟩))))
  cases compoundOp with
  | some op =>
      simpa [inOrder, bind_assoc] using
        (place.andThen ((Realizes.one ⟨.index, 0, flags⟩).andThen
          (realizesValue.andThen (.combine op)))).andThen assign
  | none => exact realizesValue.andThen assign

theorem spreadExpansions (isSpread : List Bool) :
    Realizes (emitSpreadExpansions isSpread) (lowerSpreadExpansions isSpread) := by
  induction isSpread with
  | nil => exact .skip
  | cons spread isSpread ih =>
      cases spread with
      | true => exact (Realizes.one _).andThen ih
      | false => simpa [emitSpreadExpansions, lowerSpreadExpansions] using Realizes.skip.andThen ih

theorem all {ms : List (Gen Unit)} {ls : List Lower}
    (related : List.Forall₂ Realizes ms ls) : Realizes (emitAll ms) (lowerAll ls) := by
  induction related with
  | nil => exact .skip
  | cons realizes rest ih => exact realizes.andThen ih

/-- The call of an inherited function with its qualifier. -/
theorem parentCall (calleeIdx qualifierIdx : Int) (argCount : Nat) :
    Realizes
      (do
        emit ⟨.callParent, calleeIdx, int32 argCount⟩
        emit ⟨.callParentQualifierSlot, qualifierIdx, 0⟩)
      (pure (.op (parentCallOp calleeIdx qualifierIdx argCount))) := by
  intro gen gen' run
  obtain ⟨_, gen₁, first, second⟩ := bind_eq_ok.1 run
  have first := emit_run first
  have second := emit_run second
  refine ⟨_, by rw [second.names, first.names]; rfl,
    second.functions.trans first.functions, ?_, ?_⟩
  · rw [second.code, first.code, layout_op]
    simp [parentCallOp]
  · rw [second.loops, first.loops]
    rfl

theorem callExpr (callee : Str) {args : List (Gen Unit)} {args' : List Lower}
    (argIsSpread : List Bool) (forceEfun isParentCall : Bool) (parentQualifier : Str)
    (realizesArgs : List.Forall₂ Realizes args args') :
    Realizes (emitCallExpr callee args argIsSpread forceEfun isParentCall parentQualifier)
      (lowerCallExpr callee args' argIsSpread forceEfun isParentCall parentQualifier) := by
  apply (Realizes.all realizesArgs).andThen
  apply (Realizes.spreadExpansions argIsSpread).andThen
  apply Realizes.naming
  intro calleeIdx
  rw [realizesArgs.length_eq]
  cases isParentCall with
  | false => exact .one _
  | true =>
      simp only [if_true]
      cases parentQualifier.isEmpty with
      | true => exact .parentCall _ _ _
      | false => exact .naming fun _ => .parentCall _ _ _

theorem callOtherExpr {target function : Gen Unit} {target' function' : Lower}
    {args : List (Gen Unit)} {args' : List Lower} (argIsSpread : List Bool)
    (realizesTarget : Realizes target target')
    (realizesFunction : Realizes function function')
    (realizesArgs : List.Forall₂ Realizes args args') :
    Realizes (emitCallOtherExpr target function args argIsSpread)
      (lowerCallOtherExpr target' function' args' argIsSpread) := by
  apply realizesTarget.andThen
  apply realizesFunction.andThen
  apply (Realizes.all realizesArgs).andThen
  apply (Realizes.spreadExpansions argIsSpread).andThen
  apply Realizes.naming
  intro calleeIdx
  rw [realizesArgs.length_eq]
  exact .one _

/-! ## Literals -/

/-- A field initialiser and its structured code. -/
def FieldRealizes (field : Str × Gen Unit) (field' : Str × Lower) : Prop :=
  field.1 = field'.1 ∧ Realizes field.2 field'.2

theorem lookupField {fields : List (Str × Gen Unit)} {fields' : List (Str × Lower)}
    (related : List.Forall₂ FieldRealizes fields fields') (name : Str) :
    OptionRealizes (fields.lookup name) (fields'.lookup name) := by
  induction related with
  | nil => exact .none
  | @cons field field' _ _ same _ ih =>
      obtain ⟨fieldName, emitter⟩ := field
      obtain ⟨fieldName', lower⟩ := field'
      obtain ⟨rfl, realizes⟩ := same
      rw [List.lookup_cons, List.lookup_cons]
      cases name == fieldName with
      | true => exact .some realizes
      | false => exact ih

theorem classMembers {fields : List (Str × Gen Unit)} {fields' : List (Str × Lower)}
    (related : List.Forall₂ FieldRealizes fields fields') (members : List Str) :
    Realizes (emitClassMembers fields members) (lowerClassMembers fields' members) := by
  induction members with
  | nil => exact .skip
  | cons name members ih =>
      have found := lookupField related name
      simp only [emitClassMembers, lowerClassMembers]
      generalize fields.lookup name = field at found ⊢
      generalize fields'.lookup name = field' at found ⊢
      cases found with
      | none => exact (Realizes.one _).andThen ih
      | some realizes => exact realizes.andThen ih

theorem newClassExpr (className : Str) {fields : List (Str × Gen Unit)}
    {fields' : List (Str × Lower)}
    (related : List.Forall₂ FieldRealizes fields fields') :
    Realizes (emitNewClassExpr className fields) (lowerNewClassExpr className fields') := by
  have names : fields.map Prod.fst = fields'.map Prod.fst := by
    induction related with
    | nil => rfl
    | cons same _ ih => rw [List.map_cons, List.map_cons, same.1, ih]
  apply Realizes.naming
  intro members
  rw [names]
  exact (Realizes.classMembers related members).andThen (.naming fun _ => .one _)

theorem mappingLiteralExpr {entries : List (List (Gen Unit))}
    {entries' : List (List Lower)}
    (related : List.Forall₂ (List.Forall₂ Realizes) entries entries') :
    Realizes (emitMappingLiteralExpr entries) (lowerMappingLiteralExpr entries') := by
  have flattened : List.Forall₂ Realizes entries.flatten entries'.flatten := by
    induction related with
    | nil => exact .nil
    | cons entry _ ih => exact List.rel_append entry ih
  have width : literalWidth entries = literalWidth entries' := by
    cases related with
    | nil => rfl
    | cons entry _ => rw [literalWidth, literalWidth, entry.length_eq]
  have realizes := (Realizes.all flattened).andThen
    (.one ⟨.makeMapping, literalWidth entries', int32 entries'.length⟩)
  rw [← width, ← related.length_eq] at realizes
  rw [lowerMappingLiteralExpr, ← width, ← related.length_eq]
  exact realizes

theorem closureLiteralExpr (functionName : Str) (forceEfun : Bool)
    {boundArgs : List (Gen Unit)} {boundArgs' : List Lower}
    (related : List.Forall₂ Realizes boundArgs boundArgs') :
    Realizes (emitClosureLiteralExpr functionName boundArgs forceEfun)
      (lowerClosureLiteralExpr functionName boundArgs' forceEfun) := by
  apply (Realizes.all related).andThen
  apply Realizes.naming
  intro nameIdx
  rw [related.length_eq]
  exact .one _

theorem inlineLambdaExpr (bodyExprs : List AstNode) (paramCount : Nat)
    (boundValueExprs : List AstNode) {boundValues : List (Gen Unit)}
    {boundValues' : List Lower}
    (related : List.Forall₂ Realizes boundValues boundValues') :
    Realizes (emitInlineLambdaExpr bodyExprs paramCount boundValueExprs boundValues)
      (lowerInlineLambdaExpr bodyExprs paramCount boundValueExprs boundValues') := by
  apply (Realizes.all related).andThen
  apply Realizes.naming
  intro name
  apply Realizes.naming
  intro nameIdx
  rw [related.length_eq]
  exact .noted _ _

theorem anonFunctionExpr (params : List Param) (isVarargs : Bool) (body : List AstNode) :
    Realizes (emitAnonFunctionExpr params isVarargs body)
      (lowerAnonFunctionExpr params isVarargs body) :=
  .naming fun _ => .naming fun _ => .noted _ _

theorem lambdaParamExpr (index : Nat) (isBoundValue : Bool) :
    Realizes (emitLambdaParamExpr index isBoundValue)
      (lowerLambdaParamExpr index isBoundValue) :=
  .naming fun _ => .one _

/-! ## `sscanf` -/

/-- An output argument of `sscanf` and its structured code. -/
inductive TargetRealizes : SscanfTarget → LowerTarget → Prop
  | plain (name : Str) : TargetRealizes (.plain name) (.plain name)
  | indexed {place : Gen Unit} {place' : Lower} (flags : Int)
      (realizes : Realizes place place') :
      TargetRealizes (.indexed place flags) (.indexed place' flags)

/-- A deferred write of `sscanf` and its structured code. -/
def WriteRealizes (write : Nat × Gen Unit × Int) (write' : Nat × Lower × Int) : Prop :=
  write.1 = write'.1 ∧ Realizes write.2.1 write'.2.1 ∧ write.2.2 = write'.2.2

theorem emitSscanfSlots_run {outputs : List SscanfTarget} {outputs' : List LowerTarget}
    (related : List.Forall₂ TargetRealizes outputs outputs')
    {writes : List (Nat × Gen Unit × Int)} {gen gen' : CodeGen}
    (run : emitSscanfSlots outputs gen = .ok (writes, gen')) :
    ∃ table writes',
      lowerSscanfSlots outputs' gen.toNames = .ok ((table, writes'), gen'.toNames) ∧
        List.Forall₂ WriteRealizes writes writes' ∧ gen'.functions = gen.functions ∧
          gen'.code = gen.code ++ table ∧ gen'.loopStack = gen.loopStack := by
  induction related generalizing writes gen with
  | nil =>
      obtain ⟨rfl, rfl⟩ := pure_eq_ok.1 run
      exact ⟨[], [], rfl, .nil, rfl, (List.append_nil _).symm, rfl⟩
  | cons output rest ih =>
      cases output with
      | plain name =>
          obtain ⟨var, gen₁, resolving, run⟩ := bind_eq_ok.1 run
          obtain ⟨resolved, functions₁, code₁, loops₁⟩ := onNames_run resolving
          obtain ⟨_, gen₂, emitting, run⟩ := bind_eq_ok.1 run
          have emitted := emit_run emitting
          obtain ⟨table, writes', lowered, writesRealize, functions, code, loops⟩ := ih run
          refine ⟨_, writes', bind_eq_ok.2 ⟨var, gen₁.toNames, resolved, bind_eq_ok.2
            ⟨(table, writes'), gen'.toNames, ?_, rfl⟩⟩, writesRealize, ?_, ?_, ?_⟩
          · rw [← emitted.names]
            exact lowered
          · rw [functions, emitted.functions, functions₁]
          · rw [code, emitted.code, code₁, List.append_assoc]
            rfl
          · rw [loops, emitted.loops, loops₁]
      | indexed flags realizes =>
          obtain ⟨slot, gen₁, declaring, run⟩ := bind_eq_ok.1 run
          obtain ⟨declared, functions₁, code₁, loops₁⟩ := onNames_run declaring
          obtain ⟨_, gen₂, emitting, run⟩ := bind_eq_ok.1 run
          have emitted := emit_run emitting
          obtain ⟨writesRest, gen₃, emittingRest, answer⟩ := bind_eq_ok.1 run
          obtain ⟨rfl, rfl⟩ := pure_eq_ok.1 answer
          obtain ⟨table, writes', lowered, writesRealize, functions, code, loops⟩ :=
            ih emittingRest
          refine ⟨_, _, bind_eq_ok.2 ⟨slot, gen₁.toNames, declared, bind_eq_ok.2
            ⟨(table, writes'), gen₃.toNames, ?_, rfl⟩⟩,
            .cons ⟨rfl, realizes, rfl⟩ writesRealize, ?_, ?_, ?_⟩
          · rw [← emitted.names]
            exact lowered
          · rw [functions, emitted.functions, functions₁]
          · rw [code, emitted.code, code₁, List.append_assoc]
            rfl
          · rw [loops, emitted.loops, loops₁]

theorem sscanfWrites {writes : List (Nat × Gen Unit × Int)}
    {writes' : List (Nat × Lower × Int)}
    (related : List.Forall₂ WriteRealizes writes writes') :
    Realizes (emitSscanfWrites writes) (lowerSscanfWrites writes') := by
  induction related with
  | nil => exact .skip
  | @cons write write' _ _ same _ ih =>
      obtain ⟨tempSlot, place, flags⟩ := write
      obtain ⟨tempSlot', place', flags'⟩ := write'
      obtain ⟨rfl, realizes, rfl⟩ := same
      have write := (realizes.andThen ((Realizes.one ⟨.pushLocal, tempSlot, 0⟩).andThen
        (.one ⟨.indexAssign, 0, flags⟩))).andThen ih
      simpa [emitSscanfWrites, lowerSscanfWrites, inOrder, bind_assoc] using write

/-- The `Sscanf` instruction with its slot table, and the deferred writes. -/
theorem sscanfOutputs {outputs : List SscanfTarget} {outputs' : List LowerTarget}
    (related : List.Forall₂ TargetRealizes outputs outputs') :
    Realizes
      (do
        emit ⟨.sscanf, int32 outputs.length, 0⟩
        let pendingIndexedWrites ← emitSscanfSlots outputs
        emitSscanfWrites pendingIndexedWrites)
      (do
        let (table, writes) ← lowerSscanfSlots outputs'
        let write ← lowerSscanfWrites writes
        pure (.seq (.op { instr := ⟨.sscanf, int32 outputs'.length, 0⟩, table }) write)) := by
  intro gen gen' run
  obtain ⟨_, gen₁, emitting, run⟩ := bind_eq_ok.1 run
  have emitted := emit_run emitting
  obtain ⟨writes, gen₂, emittingSlots, emittingWrites⟩ := bind_eq_ok.1 run
  obtain ⟨table, writes', lowered, writesRealize, functions, code, loops⟩ :=
    emitSscanfSlots_run related emittingSlots
  obtain ⟨c, lowerWrites, emittedWrites⟩ :=
    Realizes.sscanfWrites writesRealize gen₂ gen' emittingWrites
  have tabled : Emitted gen gen₂
      (.op { instr := ⟨.sscanf, int32 outputs'.length, 0⟩, table }) := by
    refine ⟨functions.trans emitted.functions, ?_, ?_⟩
    · rw [code, emitted.code, layout_op, related.length_eq]
      simp
    · rw [loops, emitted.loops]
      rfl
  refine ⟨_, bind_eq_ok.2 ⟨(table, writes'), gen₂.toNames, ?_, bind_eq_ok.2
    ⟨c, gen'.toNames, lowerWrites, rfl⟩⟩, tabled.seq emittedWrites⟩
  rw [← emitted.names]
  exact lowered

theorem sscanfExpr {target format : Gen Unit} {target' format' : Lower}
    {outputs : List SscanfTarget} {outputs' : List LowerTarget}
    (realizesTarget : Realizes target target') (realizesFormat : Realizes format format')
    (related : List.Forall₂ TargetRealizes outputs outputs') :
    Realizes (emitSscanfExpr target format outputs)
      (lowerSscanfExpr target' format' outputs') :=
  realizesTarget.andThen (realizesFormat.andThen (.sscanfOutputs related))

end Realizes

end Kjdmud.Compiler
