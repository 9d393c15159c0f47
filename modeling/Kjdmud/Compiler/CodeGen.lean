import Kjdmud.Compiler.CodeGen.Statements

/-!
# The code generator

`src/compiler/CodeGen.cpp`: the recursion of `emitExpr` and `emitStatement`
over the tree, the function bodies, the loops that compile deferred bodies,
and `generate`.
-/

namespace Kjdmud.Compiler

open Kjdmud.Vm

/-! ## The recursion over the tree -/

mutual

/-- `emitExpr`. -/
def emitExpr : AstNode → Gen Unit
  | .stringLiteral value => do
      let idx ← internString value
      emit ⟨.pushConst, idx, 0⟩
  | .intLiteral value => emit ⟨.pushInt, int32 value.toInt, 0⟩
  | .floatLiteral value => do
      let idx ← internFloat value
      emit ⟨.pushFloat, idx, 0⟩
  | .nilLiteral => emit ⟨.pushNil, 0, 0⟩
  | .symbolLiteralExpr name => do
      let idx ← internString name
      emit ⟨.pushSymbol, idx, 0⟩
  | .varRefExpr name => do
      let var ← resolveVariable name
      emit var.push
  | .binaryExpr op left right =>
      if op = .or ∨ op = .and then
        emitLogicalExpr op (emitExpr left) (emitExpr right)
      else emitBinaryExpr op (emitExpr left) (emitExpr right)
  | .commaExpr left right => do
      emitExpr left
      emit ⟨.pop, 0, 0⟩
      emitExpr right
  | .unaryExpr op operand =>
      match op with
      | .not => do
          emitExpr operand
          emit ⟨.not, 0, 0⟩
      | .bitNot => do
          emitExpr operand
          emit ⟨.bitNot, 0, 0⟩
      | .neg => do
          emit ⟨.pushInt, 0, 0⟩
          emitExpr operand
          emit ⟨.sub, 0, 0⟩
  | .ternaryExpr condition thenBranch elseBranch =>
      emitTernaryExpr (emitExpr condition) (emitExpr thenBranch)
        (emitExpr elseBranch)
  | .callExpr callee args argIsSpread forceEfun parentCall parentQualifier =>
      emitCallExpr callee (exprEmitters args) argIsSpread forceEfun parentCall
        parentQualifier
  | .callOtherExpr target function args argIsSpread =>
      emitCallOtherExpr (emitExpr target) (emitExpr function)
        (exprEmitters args) argIsSpread
  | .sscanfExpr target format outputs =>
      emitSscanfExpr (emitExpr target) (emitExpr format)
        (sscanfTargets outputs)
  | .catchExpr guarded => emitCatchExpr (emitExpr guarded)
  | .closureLiteralExpr functionName boundArgs forceEfun =>
      emitClosureLiteralExpr functionName (exprEmitters boundArgs) forceEfun
  | .inlineLambdaExpr bodyExprs paramCount boundValueExprs =>
      emitInlineLambdaExpr bodyExprs paramCount boundValueExprs
        (exprEmitters boundValueExprs)
  | .lambdaParamExpr index isBoundValue =>
      emitLambdaParamExpr index isBoundValue
  | .assignExpr name value compoundOp =>
      emitAssignExpr name (emitExpr value) compoundOp
  | .incDecExpr op isPrefix name => emitIncDecExpr op isPrefix name
  | .indexIncDecExpr op isPrefix indexTarget indexKey mapColumn =>
      emitIndexIncDecExpr op isPrefix
        (do
          emitExpr indexTarget
          emitIndexValue indexTarget indexKey (emitExpr indexKey)
          emitIfSome (optionalEmitter mapColumn))
        (columnFlag mapColumn)
  | .arrayLiteralExpr elements elementIsSpread => do
      emitAll (exprEmitters elements)
      emitSpreadExpansions elementIsSpread
      emit ⟨.makeArray, 0, int32 elements.length⟩
  | .mappingLiteralExpr entries => emitMappingLiteralExpr (entryEmitters entries)
  | .memberNameMarker _ =>
      throwLpc (str "codegen: unsupported expression kind this slice")
  | .typeCastExpr _ inner => emitExpr inner
  | .newClassExpr className fieldInits =>
      emitNewClassExpr className (fieldEmitters fieldInits)
  | .indexExpr target index rangeEnd indexFromEnd rangeEndFromEnd mapColumn => do
      emitExpr target
      emitIndexValue target index (emitExpr index)
      let flags : Int := if indexFromEnd then 1 else 0
      match optionalEmitter rangeEnd with
      | some rangeEnd =>
          rangeEnd
          emit ⟨.rangeIndex, 0, flags + if rangeEndFromEnd then 2 else 0⟩
      | none =>
          emitIfSome (optionalEmitter mapColumn)
          emit ⟨.index, 0, flags + columnFlag mapColumn⟩
  | .indexAssignExpr target index value compoundOp mapColumn =>
      emitIndexAssignExpr
        (do
          emitExpr target
          emitIndexValue target index (emitExpr index)
          emitIfSome (optionalEmitter mapColumn))
        (emitExpr value) compoundOp (columnFlag mapColumn)
  | .anonFunctionExpr params isVarargs body =>
      emitAnonFunctionExpr params isVarargs body
  | .timeExpressionExpr body => emitTimeExpressionExpr (emitStatements body)
  | _ => throwLpc (str "codegen: unsupported expression kind this slice")

/-- The emitters of a list of expressions. -/
def exprEmitters : List AstNode → List (Gen Unit)
  | [] => []
  | node :: nodes => emitExpr node :: exprEmitters nodes

/-- The emitter of an expression that may be absent. -/
def optionalEmitter : Option AstNode → Option (Gen Unit)
  | none => none
  | some node => some (emitExpr node)

/-- The emitters of the keys and values of a mapping literal. -/
def entryEmitters : List (AstNode × List AstNode) → List (List (Gen Unit))
  | [] => []
  | (key, values) :: entries =>
      (emitExpr key :: exprEmitters values) :: entryEmitters entries

/-- The emitters of the field initialisers of a class literal. -/
def fieldEmitters : List (Str × AstNode) → List (Str × Gen Unit)
  | [] => []
  | (name, value) :: fields => (name, emitExpr value) :: fieldEmitters fields

/-- The output arguments of `sscanf`.  An indexed target is an `IndexExpr`,
whose `index` goes through `emitExpr` and not through `emitIndexValue`. -/
def sscanfTargets : List (Str × Option AstNode) → List SscanfTarget
  | [] => []
  | (name, none) :: outputs => .plain name :: sscanfTargets outputs
  | (_, some (.indexExpr target index _ _ _ mapColumn)) :: outputs =>
      .indexed
        (do
          emitExpr target
          emitExpr index
          emitIfSome (optionalEmitter mapColumn))
        (columnFlag mapColumn) :: sscanfTargets outputs
  -- The source casts statically here: the parser stores no other node.
  | (_, some _) :: outputs =>
      .indexed (throwLpc (str "codegen: sscanf output is not an index")) 0 ::
        sscanfTargets outputs

/-- `emitStatement`. -/
def emitStatement : AstNode → Gen Unit
  | .block statements isRealScope =>
      if isRealScope then emitBlock (emitStatements statements)
      else emitStatements statements
  | .exprStmt expr => do
      emitExpr expr
      emit ⟨.pop, 0, 0⟩
  | .returnStmt expr => emitReturnStmt (optionalEmitter expr)
  | .varDeclStmt type name initializer =>
      emitVarDeclStmt type name (optionalEmitter initializer)
  | .assignStmt name value => emitAssignStmt name (emitExpr value)
  | .indexAssignStmt target index value compoundOp mapColumn =>
      emitIndexAssignStmt
        (do
          emitExpr target
          emitIndexValue target index (emitExpr index)
          emitIfSome (optionalEmitter mapColumn))
        (emitExpr value) compoundOp (columnFlag mapColumn)
  | .ifStmt condition thenBranch elseBranch =>
      emitIfStmt (emitExpr condition) (emitStatements thenBranch)
        (elseEmitter elseBranch)
  | .whileStmt condition body =>
      emitWhileStmt (emitExpr condition) (emitStatements body)
  | .doWhileStmt condition body =>
      emitDoWhileStmt (emitExpr condition) (emitStatements body)
  | .forStmt init condition update body =>
      emitForStmt (initEmitter init) (optionalEmitter condition)
        (updateEmitter update) (emitStatements body)
  | .foreachStmt varName declareVar varClassType valueVar collection body =>
      emitForeachStmt varName declareVar varClassType valueVar
        (emitExpr collection) (emitStatements body)
  | .switchStmt subject body =>
      emitSwitchStmt (emitExpr subject) (switchItems body)
  | .breakStmt => emitBreakStmt
  | .continueStmt => emitContinueStmt
  | _ => throwLpc (str "codegen: unsupported statement kind this slice")

/-- The statements of a block in order. -/
def emitStatements : List AstNode → Gen Unit
  | [] => pure ()
  | statement :: statements => do
      emitStatement statement
      emitStatements statements

/-- The emitter of an `else` branch. -/
def elseEmitter : Option (List AstNode) → Option (Gen Unit)
  | none => none
  | some statements => some (emitStatements statements)

/-- The `init` clause of a `for`: a declaration, a list of clauses, or an
expression whose value is dropped. -/
def initEmitter : Option AstNode → Gen Unit
  | none => pure ()
  | some (.varDeclStmt type name initializer) =>
      emitVarDeclStmt type name (optionalEmitter initializer)
  | some (.block statements _) => emitBlock (emitStatements statements)
  | some expr => do
      emitExpr expr
      emit ⟨.pop, 0, 0⟩

/-- The `update` clause of a `for`. -/
def updateEmitter : Option AstNode → Gen Unit
  | none => pure ()
  | some (.block statements _) => emitBlock (emitStatements statements)
  | some expr => do
      emitExpr expr
      emit ⟨.pop, 0, 0⟩

/-- The entries of a switch body. -/
def switchItems : List AstNode → List SwitchItem
  | [] => []
  | .caseLabel value rangeEnd :: nodes =>
      .label (optionalEmitter value) (optionalEmitter rangeEnd) ::
        switchItems nodes
  | node :: nodes => .statement (emitStatement node) :: switchItems nodes

end

/-! ## Functions and deferred bodies -/

/-- The names cleared before each function body. -/
def clearNames : Naming Unit :=
  modify fun names =>
    { names with
      locals := []
      nextLocalSlot := 0
      localScopeStack := []
      foreachCounter := 0
      switchCounter := 0
      indexAssignCounter := 0 }

/-- The members cleared before each function body. -/
def beginFunction : Gen Unit := do
  clearNames
  modify fun gen => { gen with loopStack := [] }

/-- `declareLocal` on every parameter of a function. -/
def declareParams : List Param → Naming Unit
  | [] => pure ()
  | param :: params => do
      let _ ← declareLocal param.name param.type
      declareParams params

/-- The function-table entry of the code emitted since `entryPoint`. -/
def finishFunction (name : Str) (entryPoint numArgs : Nat) (isVarargs : Bool) :
    Gen Unit := do
  emit ⟨.return, 0, 0⟩
  modify fun gen =>
    { gen with
      functions := gen.functions ++
        [⟨name, entryPoint, uint8 numArgs, uint8 gen.nextLocalSlot, isVarargs⟩] }

/-- The body expressions of an inline lambda, all but the last popped. -/
def emitLambdaBody : List (Gen Unit) → Gen Unit
  | [] => pure ()
  | [last] => last
  | expr :: exprs => do
      expr
      emit ⟨.pop, 0, 0⟩
      emitLambdaBody exprs

/-- The slots an inline lambda reserves for its bound values and parameters. -/
def reserveLambdaSlots (pending : PendingLambda) : Naming Unit :=
  modify fun names =>
    { names with
      currentLambdaBoundValueCount := pending.boundValueExprs.length
      nextLocalSlot := pending.boundValueExprs.length + pending.paramCount }

/-- One round of `emitPendingLambdas`. -/
def emitPendingLambda (pending : PendingLambda) : Gen Unit := do
  beginFunction
  reserveLambdaSlots pending
  let entryPoint ← here
  emitLambdaBody (exprEmitters pending.bodyExprs)
  finishFunction pending.name entryPoint pending.paramCount false

/-- One round of `emitPendingAnonFuncs`. -/
def emitPendingAnonFunc (pending : PendingAnonFunc) : Gen Unit := do
  beginFunction
  declareParams pending.params
  let entryPoint ← here
  emitBlock (emitStatements pending.body)
  finishFunction pending.name entryPoint pending.params.length pending.isVarargs

/-- `emitPendingLambdas` from index `i` on.  A body may append to the list, so
the loop runs on a budget of rounds. -/
def emitPendingLambdas : Nat → Nat → Gen Unit
  | 0, _ => throw .budget
  | budget + 1, i => do
      match (← get).pendingLambdas[i]? with
      | none => modify fun gen => { gen with pendingLambdas := [] }
      | some pending => do
          emitPendingLambda pending
          emitPendingLambdas budget (i + 1)

/-- `emitPendingAnonFuncs` from index `i` on. -/
def emitPendingAnonFuncs : Nat → Nat → Gen Unit
  | 0, _ => throw .budget
  | budget + 1, i => do
      match (← get).pendingAnonFuncs[i]? with
      | none => modify fun gen => { gen with pendingAnonFuncs := [] }
      | some pending => do
          emitPendingAnonFunc pending
          emitPendingAnonFuncs budget (i + 1)

/-- The loop of `generate` that empties both lists of deferred bodies. -/
def drainPending (budget : Nat) : Nat → Gen Unit
  | 0 => throw .budget
  | rounds + 1 => do
      let gen ← get
      if gen.pendingLambdas.isEmpty ∧ gen.pendingAnonFuncs.isEmpty then pure ()
      else
        emitPendingLambdas budget 0
        emitPendingAnonFuncs budget 0
        drainPending budget rounds

/-! ## Programs -/

/-- The object variables of a program: the slot map, the slot names and the
initialisers, from slot `slot` on. -/
def numberObjectVars :
    Nat → List ObjectVarDecl → List (Str × Nat) × List Str × List (Nat × AstNode)
  | _, [] => ([], [], [])
  | slot, decl :: decls =>
      let (slots, names, initializers) := numberObjectVars (slot + 1) decls
      (slots ++ [(decl.name, slot)],
        (if decl.isPrivate then str "$private#" ++ Decimal.ofNat slot
          else decl.name) :: names,
        match decl.initializer with
        | some expr => (slot, expr) :: initializers
        | none => initializers)

/-- The class types of the object variables. -/
def objectVarClassTypesOf (decls : List ObjectVarDecl) : List (Str × Str) :=
  (decls.filterMap fun decl =>
    (classOfType decl.type).map fun className => (decl.name, className)).reverse

/-- The body of `$objvarinit`. -/
def emitInitializers : List (Nat × AstNode) → Gen Unit
  | [] => pure ()
  | (slot, initExpr) :: initializers => do
      emitExpr initExpr
      emit ⟨.storeObjectVar, slot, 0⟩
      emitInitializers initializers

/-- One function with a body in the function loop of `generate`. -/
def emitFunction (budget : Nat) (fn : FunctionDecl) (body : List AstNode) :
    Gen Unit := do
  beginFunction
  declareParams fn.params
  let entryPoint ← here
  emitBlock (emitStatements body)
  finishFunction fn.name entryPoint fn.params.length fn.isVarargs
  drainPending budget budget

/-- The function loop of `generate`, which skips prototypes. -/
def emitFunctions (budget : Nat) : List FunctionDecl → Gen Unit
  | [] => pure ()
  | fn :: fns => do
      match fn.body with
      | some body => emitFunction budget fn body
      | none => pure ()
      emitFunctions budget fns

/-- `$objvarinit`, when the program has initialisers. -/
def emitObjVarInit (budget : Nat) (initializers : List (Nat × AstNode)) :
    Gen Unit := do
  if initializers.isEmpty then pure ()
  else
    beginFunction
    let entryPoint ← here
    emitInitializers initializers
    finishFunction (str "$objvarinit") entryPoint 0 false
    emitPendingLambdas budget 0

/-- The state in which `generate` starts to emit. -/
def initialState (program : Program) (inheritedObjectVarNames : List Str) :
    CodeGen where
  code := []
  functions := []
  stringPool := []
  floatPool := []
  loopStack := []
  foreachCounter := 0
  switchCounter := 0
  indexAssignCounter := 0
  locals := []
  nextLocalSlot := 0
  localScopeStack := []
  objectVars :=
    (numberObjectVars inheritedObjectVarNames.length program.objectVars).1 ++
      inheritedObjectVarNames.zipIdx.reverse
  classDefs :=
    (program.classes.map fun decl => (decl.name, decl.memberNames)).reverse
  localClassTypes := []
  objectVarClassTypes := objectVarClassTypesOf program.objectVars
  pendingLambdas := []
  nextLambdaId := 0
  currentLambdaBoundValueCount := 0
  pendingAnonFuncs := []
  nextAnonFuncId := 0

/-- The initialised object variables of a program, with their slots. -/
def pendingVarInitializers (program : Program)
    (inheritedObjectVarNames : List Str) : List (Nat × AstNode) :=
  (numberObjectVars inheritedObjectVarNames.length program.objectVars).2.2

/-- `generate`, up to the final state of the code generator. -/
def generateState (budget : Nat) (program : Program)
    (inheritedObjectVarNames : List Str) : Except GenError CodeGen := do
  let ((), gen) ←
    (do
      emitObjVarInit budget (pendingVarInitializers program inheritedObjectVarNames)
      emitFunctions budget program.functions : Gen Unit).run
        (initialState program inheritedObjectVarNames)
  pure gen

/-- The `CompiledProgram` that `generate` returns; `compile` gives it an
address, its parents and their offsets. -/
def CodeGen.toProgram (gen : CodeGen) (program : Program)
    (inheritedObjectVarNames : List Str) (id : Nat)
    (inheritedPrograms : List CompiledProgram)
    (ancestorBaseOffsets : List (Nat × Nat)) : CompiledProgram where
  id := id
  code := gen.code
  functions := gen.functions
  stringPool := gen.stringPool
  floatPool := gen.floatPool
  objectVarNames :=
    inheritedObjectVarNames ++
      (numberObjectVars inheritedObjectVarNames.length program.objectVars).2.1
  inherits := program.inherits
  inheritedPrograms := inheritedPrograms
  ancestorBaseOffsets := ancestorBaseOffsets

end Kjdmud.Compiler
