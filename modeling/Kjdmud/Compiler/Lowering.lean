import Kjdmud.Compiler.CodeGen
import Kjdmud.Lib.Structured.Code

/-!
# The structured code of a syntax tree

An abstract code generator.  It names variables, allots slots and interns
constants exactly as the emitters do, but answers with structured code, so it
has no jumps to patch and no loop stack.  `Kjdmud.Compiler.Refinement` shows
that the emitters produce the flat form of this code.
-/

namespace Kjdmud.Compiler

open Kjdmud.Vm Kjdmud.Structured

/-- A literal that evaluates to a closure over a body of its own. -/
inductive ClosureLiteral
  | lambda (bodyExprs : List AstNode) (paramCount : Nat)
      (boundValueExprs : List AstNode)
  | anonFunc (params : List Param) (isVarargs : Bool) (body : List AstNode)

/-- What an instruction is in the source, where the bytecode does not tell. -/
inductive Note
  | plain
  /-- The `PushClosure` of a literal. -/
  | literal (l : ClosureLiteral)
  /-- The `Return` of a `return;` or of the end of a function body. -/
  | returnVoid

/-- A straight-line instruction with the data instructions it reads. -/
structure Op where
  instr : Instruction
  table : List Instruction := []
  note : Note := .plain

instance : Operation Op where
  width op := op.table.length

/-- A computation of structured code. -/
abbrev Lower :=
  Naming (Code Op)

/-! ## Shapes -/

/-- One instruction. -/
def one (instr : Instruction) : Lower :=
  pure (.op { instr })

/-- Two pieces of code in sequence. -/
def andThen (first second : Lower) : Lower := do
  let a ← first
  let b ← second
  pure (.seq a b)

/-- Pieces of code in sequence. -/
def inOrder : List Lower → Lower
  | [] => pure .skip
  | [last] => last
  | first :: rest => andThen first (inOrder rest)

/-- Code that runs when the tested value is true. -/
def ifTrue (a : Lower) : Lower :=
  Code.ifThen <$> a

/-- Code for either value of the test. -/
def eitherOr (a b : Lower) : Lower := do
  let a ← a
  let b ← b
  pure (.ifElse a b)

/-- A piece of code that may be absent. -/
def lowerIfSome : Option Lower → Lower
  | some lower => lower
  | none => pure .skip

/-! ## Expressions -/

/-- `emitCombine`. -/
def lowerCombine (op : BinOp) : Lower :=
  match op.combineOp with
  | some code => one ⟨code, 0, 0⟩
  | none => throwLpc (str "codegen: unsupported compound assignment operator")

/-- `emitBinaryExpr`. -/
def lowerBinaryExpr (op : BinOp) (left right : Lower) : Lower :=
  inOrder [left, right,
    match op.opCode with
    | some code => one ⟨code, 0, 0⟩
    | none => throwLpc (str "codegen: unknown BinOp")]

/-- `emitLogicalExpr`. -/
def lowerLogicalExpr (op : BinOp) (left right : Lower) : Lower :=
  let otherwise := inOrder [one ⟨.pop, 0, 0⟩, right]
  inOrder [left, one ⟨.dup, 0, 0⟩,
    if op = .or then eitherOr (pure .skip) otherwise else ifTrue otherwise]

/-- `emitTernaryExpr`. -/
def lowerTernaryExpr (condition thenBranch elseBranch : Lower) : Lower :=
  inOrder [condition, eitherOr thenBranch elseBranch]

/-- `emitCatchExpr`. -/
def lowerCatchExpr (guarded : Lower) : Lower :=
  Code.guard <$> inOrder [guarded, one ⟨.pop, 0, 0⟩]

/-- `emitBlock`. -/
def lowerBlock (statements : Lower) : Lower := do
  openScope
  let code ← statements
  closeScope
  pure code

/-- `emitTimeExpressionExpr`. -/
def lowerTimeExpressionExpr (body : Lower) : Lower :=
  inOrder [one ⟨.timeExpressionStart, 0, 0⟩, Code.nest <$> lowerBlock body,
    one ⟨.timeExpressionEnd, 0, 0⟩]

/-- `emitAssignExpr`. -/
def lowerAssignExpr (name : Str) (value : Lower) (compoundOp : Option BinOp) :
    Lower := do
  let var ← resolveVariable name
  inOrder
    [match compoundOp with
      | some op => inOrder [one var.push, value, lowerCombine op]
      | none => value,
    one ⟨.dup, 0, 0⟩, one var.store]

/-- `emitIncDecExpr` on a plain variable. -/
def lowerIncDecExpr (op : IncDecOp) (isPrefix : Bool) (name : Str) : Lower := do
  let var ← resolveVariable name
  if isPrefix then
    inOrder [one var.push, one ⟨.pushInt, 1, 0⟩, one ⟨op.deltaOp, 0, 0⟩,
      one ⟨.dup, 0, 0⟩, one var.store]
  else
    inOrder [one var.push, one ⟨.dup, 0, 0⟩, one ⟨.pushInt, 1, 0⟩,
      one ⟨op.deltaOp, 0, 0⟩, one var.store]

/-- `emitIndexValue`. -/
def lowerIndexValue (targetExpr indexNode : AstNode) (index : Lower) : Lower :=
  match indexNode with
  | .memberNameMarker name => do
      let memberIndex ← memberIndexOf targetExpr name
      one ⟨.pushInt, memberIndex, 0⟩
  | _ => index

/-- `emitIncDecExpr` on an indexed target. -/
def lowerIndexIncDecExpr (op : IncDecOp) (isPrefix : Bool) (place : Lower)
    (flags : Int) : Lower := do
  let oldSlot ← declareIndexAssignTemp "$idxassign#"
  let newSlot ← declareIndexAssignTemp "$idxassign#"
  inOrder [place, one ⟨.index, 0, flags⟩, one ⟨.storeLocal, oldSlot, 0⟩,
    one ⟨.pushLocal, oldSlot, 0⟩, one ⟨.pushInt, 1, 0⟩, one ⟨op.deltaOp, 0, 0⟩,
    one ⟨.storeLocal, newSlot, 0⟩, place, one ⟨.pushLocal, newSlot, 0⟩,
    one ⟨.indexAssign, 0, flags⟩,
    one ⟨.pushLocal, if isPrefix then newSlot else oldSlot, 0⟩]

/-- `emitIndexAssignExpr`. -/
def lowerIndexAssignExpr (place value : Lower) (compoundOp : Option BinOp)
    (flags : Int) : Lower := do
  let tempSlot ← declareIndexAssignTemp "$idxassign#"
  inOrder
    [match compoundOp with
      | some op => inOrder [place, one ⟨.index, 0, flags⟩, value, lowerCombine op]
      | none => value,
    one ⟨.storeLocal, tempSlot, 0⟩, place, one ⟨.pushLocal, tempSlot, 0⟩,
    one ⟨.indexAssign, 0, flags⟩, one ⟨.pushLocal, tempSlot, 0⟩]

/-- `emitSpreadExpansions`. -/
def lowerSpreadExpansions : List Bool → Lower
  | [] => pure .skip
  | spread :: isSpread =>
      andThen
        (if spread then one ⟨.expandVarargs, int32 isSpread.length, 0⟩
          else pure .skip)
        (lowerSpreadExpansions isSpread)

/-- `emitAll`. -/
def lowerAll : List Lower → Lower
  | [] => pure .skip
  | lower :: lowers => andThen lower (lowerAll lowers)

/-- The two instructions of a call of an inherited function. -/
def parentCallOp (calleeIdx qualifierIdx : Int) (argCount : Nat) : Op where
  instr := ⟨.callParent, calleeIdx, int32 argCount⟩
  table := [⟨.callParentQualifierSlot, qualifierIdx, 0⟩]

/-- The consuming instruction of `emitCallExpr`. -/
def lowerCallInstr (callee : Str) (argCount : Nat) (forceEfun parentCall : Bool)
    (parentQualifier : Str) : Lower := do
  let calleeIdx ← internString callee
  if parentCall then
    let qualifierIdx ←
      if parentQualifier.isEmpty then pure (-1)
      else internString parentQualifier
    pure (.op (parentCallOp calleeIdx qualifierIdx argCount))
  else
    one ⟨if forceEfun then .callEfun else .call, calleeIdx, int32 argCount⟩

/-- `emitCallExpr`. -/
def lowerCallExpr (callee : Str) (args : List Lower) (argIsSpread : List Bool)
    (forceEfun parentCall : Bool) (parentQualifier : Str) : Lower :=
  inOrder [lowerAll args, lowerSpreadExpansions argIsSpread,
    lowerCallInstr callee args.length forceEfun parentCall parentQualifier]

/-- `emitCallOtherExpr`. -/
def lowerCallOtherExpr (target function : Lower) (args : List Lower)
    (argIsSpread : List Bool) : Lower :=
  inOrder [target, function, lowerAll args, lowerSpreadExpansions argIsSpread,
    do
      let calleeIdx ← internString (str "call_other")
      one ⟨.callEfun, calleeIdx, int32 (2 + args.length)⟩]

/-- `emitClassMembers`. -/
def lowerClassMembers (fields : List (Str × Lower)) : List Str → Lower
  | [] => pure .skip
  | memberName :: members =>
      andThen
        (match fields.lookup memberName with
          | some field => field
          | none => one ⟨.pushInt, 0, 0⟩)
        (lowerClassMembers fields members)

/-- The `NewClassExpr` case of `emitExpr`. -/
def lowerNewClassExpr (className : Str) (fields : List (Str × Lower)) : Lower := do
  let members ← classMembers className
  inOrder [lowerClassMembers fields members,
    do
      checkFields className members (fields.map Prod.fst)
      one ⟨.makeArray, 1, int32 members.length⟩]

/-- The `MappingLiteralExpr` case of `emitExpr`. -/
def lowerMappingLiteralExpr (entries : List (List Lower)) : Lower :=
  inOrder [lowerAll entries.flatten,
    one ⟨.makeMapping, literalWidth entries, int32 entries.length⟩]

/-- The `ClosureLiteralExpr` case of `emitExpr`. -/
def lowerClosureLiteralExpr (functionName : Str) (boundArgs : List Lower)
    (forceEfun : Bool) : Lower :=
  inOrder [lowerAll boundArgs,
    do
      let nameIdx ← internString functionName
      one ⟨if forceEfun then .pushEfunClosure else .pushClosure, nameIdx,
        int32 boundArgs.length⟩]

/-- The `InlineLambdaExpr` case of `emitExpr`. -/
def lowerInlineLambdaExpr (bodyExprs : List AstNode) (paramCount : Nat)
    (boundValueExprs : List AstNode) (boundValues : List Lower) : Lower :=
  inOrder [lowerAll boundValues,
    do
      let name ← deferLambda bodyExprs paramCount boundValueExprs
      let nameIdx ← internString name
      pure (.op {
        instr := ⟨.pushClosure, nameIdx, int32 boundValues.length⟩
        note := .literal (.lambda bodyExprs paramCount boundValueExprs) })]

/-- The `AnonFunctionExpr` case of `emitExpr`. -/
def lowerAnonFunctionExpr (params : List Param) (isVarargs : Bool)
    (body : List AstNode) : Lower := do
  let name ← deferAnonFunc params isVarargs body
  let nameIdx ← internString name
  pure (.op {
    instr := ⟨.pushClosure, nameIdx, 0⟩
    note := .literal (.anonFunc params isVarargs body) })

/-- The `LambdaParamExpr` case of `emitExpr`. -/
def lowerLambdaParamExpr (index : Nat) (isBoundValue : Bool) : Lower := do
  let slot ← lambdaParamSlot index isBoundValue
  one ⟨.pushLocal, slot, 0⟩

/-- An output argument of `sscanf`. -/
inductive LowerTarget
  | plain (name : Str)
  | indexed (place : Lower) (flags : Int)

/-- `emitSscanfSlots`: the var-slot table and the deferred writes. -/
def lowerSscanfSlots :
    List LowerTarget → Naming (List Instruction × List (Nat × Lower × Int))
  | [] => pure ([], [])
  | .plain name :: outputs => do
      let var ← resolveVariable name
      let (table, writes) ← lowerSscanfSlots outputs
      pure (⟨.sscanfVarSlot, var.slot, if var.kind = .objectVar then 1 else 0⟩ :: table,
        writes)
  | .indexed place flags :: outputs => do
      let slot ← declareIndexAssignTemp "$sscanf_out#"
      let (table, writes) ← lowerSscanfSlots outputs
      pure (⟨.sscanfVarSlot, slot, 0⟩ :: table, (slot, place, flags) :: writes)

/-- `emitSscanfWrites`. -/
def lowerSscanfWrites : List (Nat × Lower × Int) → Lower
  | [] => pure .skip
  | (tempSlot, place, flags) :: writes =>
      andThen
        (inOrder [place, one ⟨.pushLocal, tempSlot, 0⟩, one ⟨.indexAssign, 0, flags⟩])
        (lowerSscanfWrites writes)

/-- `emitSscanfExpr`. -/
def lowerSscanfExpr (target format : Lower) (outputs : List LowerTarget) : Lower :=
  inOrder [target, format,
    do
      let (table, writes) ← lowerSscanfSlots outputs
      let write ← lowerSscanfWrites writes
      pure (.seq
        (.op { instr := ⟨.sscanf, int32 outputs.length, 0⟩, table }) write)]

/-! ## Statements -/

/-- The `Return` that ends a body without a value. -/
def returnVoid : Lower :=
  pure (.op { instr := ⟨.return, 0, 0⟩, note := .returnVoid })

/-- `emitReturnStmt`. -/
def lowerReturnStmt : Option Lower → Lower
  | some expr => inOrder [expr, one ⟨.return, 0, 0⟩]
  | none => returnVoid

/-- `emitVarDeclStmt`. -/
def lowerVarDeclStmt (type name : Str) (initializer : Option Lower) : Lower := do
  let slot ← declareLocal name type
  match initializer with
  | some value => inOrder [value, one ⟨.storeLocal, slot, 0⟩]
  | none => pure .skip

/-- `emitAssignStmt`. -/
def lowerAssignStmt (name : Str) (value : Lower) : Lower := do
  let var ← resolveVariable name
  inOrder [value, one var.store]

/-- `emitIndexAssignStmt`. -/
def lowerIndexAssignStmt (place value : Lower) (compoundOp : Option BinOp)
    (flags : Int) : Lower :=
  match compoundOp with
  | some op =>
      inOrder [place, place, one ⟨.index, 0, flags⟩, value, lowerCombine op,
        one ⟨.indexAssign, 0, flags⟩]
  | none => inOrder [place, value, one ⟨.indexAssign, 0, flags⟩]

/-- `emitIfStmt`. -/
def lowerIfStmt (condition thenBranch : Lower) (elseBranch : Option Lower) : Lower :=
  inOrder [condition,
    match elseBranch with
    | some elseBranch => eitherOr (lowerBlock thenBranch) (lowerBlock elseBranch)
    | none => ifTrue (lowerBlock thenBranch)]

/-- A loop; `lead` runs in each round before the body. -/
def looping (pre : Lower) (preTest : Bool) (lead body post : Lower)
    (postTest contAtTop : Bool) : Lower := do
  let pre ← pre
  let lead ← lead
  let body ← body
  let post ← post
  pure (.loop pre preTest (.seq lead body) post postTest contAtTop)

/-- `emitWhileStmt`. -/
def lowerWhileStmt (condition body : Lower) : Lower :=
  looping condition true (pure .skip) (lowerBlock body) (pure .skip) false true

/-- `emitDoWhileStmt`. -/
def lowerDoWhileStmt (condition body : Lower) : Lower :=
  looping (pure .skip) false (pure .skip) (lowerBlock body) condition true false

/-- `emitForStmt`. -/
def lowerForStmt (init : Lower) (condition : Option Lower) (update body : Lower) :
    Lower :=
  lowerBlock (inOrder [init,
    looping (lowerIfSome condition) condition.isSome (pure .skip) (lowerBlock body)
      update false false])

/-- The assignments to the loop variables in a round of a `foreach`. -/
def lowerForeachLead (varName : Str) (declareVar : Bool) (varClassType : Str)
    (valueVar : Option ForeachValueVar) (origSlot iterSlot idxSlot : Nat) : Lower := do
  let keyVar ← foreachVariable varName declareVar varClassType
  inOrder [one ⟨.pushLocal, iterSlot, 0⟩, one ⟨.pushLocal, idxSlot, 0⟩,
    one ⟨.index, 0, 0⟩, one keyVar.store,
    match valueVar with
    | some value => do
        let valVar ← foreachVariable value.name value.declare value.classType
        inOrder [one ⟨.pushLocal, origSlot, 0⟩, one keyVar.push, one ⟨.index, 0, 0⟩,
          one valVar.store]
    | none => pure .skip]

/-- The test of a `foreach` round. -/
def lowerForeachTest (iterSlot idxSlot : Nat) : Lower :=
  inOrder [one ⟨.pushLocal, idxSlot, 0⟩, one ⟨.pushLocal, iterSlot, 0⟩,
    do
      let sizeofIdx ← internString (str "sizeof")
      one ⟨.call, sizeofIdx, 1⟩,
    one ⟨.lt, 0, 0⟩]

/-- The end of a `foreach` round. -/
def lowerForeachNext (idxSlot : Nat) : Lower :=
  inOrder [one ⟨.pushLocal, idxSlot, 0⟩, one ⟨.pushInt, 1, 0⟩, one ⟨.add, 0, 0⟩,
    one ⟨.storeLocal, idxSlot, 0⟩]

/-- `emitForeachStmt`. -/
def lowerForeachStmt (varName : Str) (declareVar : Bool) (varClassType : Str)
    (valueVar : Option ForeachValueVar) (collection body : Lower) : Lower :=
  lowerBlock do
    let id ← freshForeachId
    let origSlot ← declareLocal (str "$foreach_orig_" ++ id) []
    inOrder [collection, one ⟨.storeLocal, origSlot, 0⟩,
      do
        let iterSlot ← declareLocal (str "$foreach_iter_" ++ id) []
        inOrder [one ⟨.pushLocal, origSlot, 0⟩, one ⟨.foreachKeys, 0, 0⟩,
          one ⟨.storeLocal, iterSlot, 0⟩,
          do
            let idxSlot ← declareLocal (str "$foreach_idx_" ++ id) []
            inOrder [one ⟨.pushInt, 0, 0⟩, one ⟨.storeLocal, idxSlot, 0⟩,
              looping (lowerForeachTest iterSlot idxSlot) true
                (lowerForeachLead varName declareVar varClassType valueVar origSlot
                  iterSlot idxSlot)
                (lowerBlock body) (lowerForeachNext idxSlot) false false]]]

/-- An entry of a switch body. -/
inductive LowerItem
  | label (value rangeEnd : Option Lower)
  | statement (lower : Lower)

/-- The dispatch test of one `CaseLabel`, which leaves the negated match. -/
def lowerSwitchTest (subjSlot : Nat) (value : Lower) (rangeEnd : Option Lower) :
    Lower :=
  inOrder [one ⟨.pushLocal, subjSlot, 0⟩, value,
    match rangeEnd with
    | some rangeEnd =>
        inOrder [one ⟨.gte, 0, 0⟩, one ⟨.dup, 0, 0⟩,
          ifTrue (inOrder [one ⟨.pop, 0, 0⟩, one ⟨.pushLocal, subjSlot, 0⟩, rangeEnd,
            one ⟨.lte, 0, 0⟩])]
    | none => one ⟨.eq, 0, 0⟩,
    one ⟨.not, 0, 0⟩]

/-- The dispatch tests of a switch body from index `i` on. -/
def lowerSwitchTests (subjSlot : Nat) : Nat → List LowerItem → Lower
  | _, [] => pure .skip
  | i, .label (some value) rangeEnd :: items =>
      andThen (andThen (lowerSwitchTest subjSlot value rangeEnd) (pure (.branch i)))
        (lowerSwitchTests subjSlot (i + 1) items)
  | i, _ :: items => lowerSwitchTests subjSlot (i + 1) items

/-- The last `default` label of a switch body from index `i` on. -/
def defaultIndex : Nat → List LowerItem → Option Nat → Option Nat
  | _, [], last => last
  | i, .label none _ :: items, _ => defaultIndex (i + 1) items (some i)
  | i, _ :: items, last => defaultIndex (i + 1) items last

/-- The bodies of a switch. -/
def lowerSwitchBodies : List LowerItem → Lower
  | [] => pure .skip
  | .label _ _ :: items => andThen (pure .skip) (lowerSwitchBodies items)
  | .statement lower :: items =>
      andThen (Code.stmt false <$> lower) (lowerSwitchBodies items)

/-- `emitSwitchStmt`. -/
def lowerSwitchStmt (subject : Lower) (body : List LowerItem) : Lower := do
  let subjSlot ← declareSwitchSubject
  inOrder [subject, one ⟨.storeLocal, subjSlot, 0⟩,
    do
      let tests ← lowerSwitchTests subjSlot 0 body
      let bodies ← lowerSwitchBodies body
      let noMatch := (defaultIndex 0 body none).getD body.length
      pure (.switch (.seq tests (.goto noMatch)) bodies)]

/-! ## The recursion over the tree -/

mutual

/-- The structured code of an expression. -/
def lowerExpr : AstNode → Lower
  | .stringLiteral value => do
      let idx ← internString value
      one ⟨.pushConst, idx, 0⟩
  | .intLiteral value => one ⟨.pushInt, int32 value.toInt, 0⟩
  | .floatLiteral value => do
      let idx ← internFloat value
      one ⟨.pushFloat, idx, 0⟩
  | .nilLiteral => one ⟨.pushNil, 0, 0⟩
  | .symbolLiteralExpr name => do
      let idx ← internString name
      one ⟨.pushSymbol, idx, 0⟩
  | .varRefExpr name => do
      let var ← resolveVariable name
      one var.push
  | .binaryExpr op left right =>
      if op = .or ∨ op = .and then
        lowerLogicalExpr op (lowerExpr left) (lowerExpr right)
      else lowerBinaryExpr op (lowerExpr left) (lowerExpr right)
  | .commaExpr left right =>
      inOrder [lowerExpr left, one ⟨.pop, 0, 0⟩, lowerExpr right]
  | .unaryExpr op operand =>
      match op with
      | .not => inOrder [lowerExpr operand, one ⟨.not, 0, 0⟩]
      | .bitNot => inOrder [lowerExpr operand, one ⟨.bitNot, 0, 0⟩]
      | .neg => inOrder [one ⟨.pushInt, 0, 0⟩, lowerExpr operand, one ⟨.sub, 0, 0⟩]
  | .ternaryExpr condition thenBranch elseBranch =>
      lowerTernaryExpr (lowerExpr condition) (lowerExpr thenBranch)
        (lowerExpr elseBranch)
  | .callExpr callee args argIsSpread forceEfun parentCall parentQualifier =>
      lowerCallExpr callee (lowerExprs args) argIsSpread forceEfun parentCall
        parentQualifier
  | .callOtherExpr target function args argIsSpread =>
      lowerCallOtherExpr (lowerExpr target) (lowerExpr function) (lowerExprs args)
        argIsSpread
  | .sscanfExpr target format outputs =>
      lowerSscanfExpr (lowerExpr target) (lowerExpr format) (lowerTargets outputs)
  | .catchExpr guarded => lowerCatchExpr (lowerExpr guarded)
  | .closureLiteralExpr functionName boundArgs forceEfun =>
      lowerClosureLiteralExpr functionName (lowerExprs boundArgs) forceEfun
  | .inlineLambdaExpr bodyExprs paramCount boundValueExprs =>
      lowerInlineLambdaExpr bodyExprs paramCount boundValueExprs
        (lowerExprs boundValueExprs)
  | .lambdaParamExpr index isBoundValue => lowerLambdaParamExpr index isBoundValue
  | .assignExpr name value compoundOp =>
      lowerAssignExpr name (lowerExpr value) compoundOp
  | .incDecExpr op isPrefix name => lowerIncDecExpr op isPrefix name
  | .indexIncDecExpr op isPrefix indexTarget indexKey mapColumn =>
      lowerIndexIncDecExpr op isPrefix
        (inOrder [lowerExpr indexTarget,
          lowerIndexValue indexTarget indexKey (lowerExpr indexKey),
          lowerIfSome (lowerOptional mapColumn)])
        (columnFlag mapColumn)
  | .arrayLiteralExpr elements elementIsSpread =>
      inOrder [lowerAll (lowerExprs elements), lowerSpreadExpansions elementIsSpread,
        one ⟨.makeArray, 0, int32 elements.length⟩]
  | .mappingLiteralExpr entries => lowerMappingLiteralExpr (lowerEntries entries)
  | .memberNameMarker _ =>
      throwLpc (str "codegen: unsupported expression kind this slice")
  | .typeCastExpr _ inner => lowerExpr inner
  | .newClassExpr className fieldInits =>
      lowerNewClassExpr className (lowerFields fieldInits)
  | .indexExpr target index rangeEnd indexFromEnd rangeEndFromEnd mapColumn =>
      let flags : Int := if indexFromEnd then 1 else 0
      inOrder [lowerExpr target, lowerIndexValue target index (lowerExpr index),
        match lowerOptional rangeEnd with
        | some rangeEnd =>
            inOrder [rangeEnd,
              one ⟨.rangeIndex, 0, flags + if rangeEndFromEnd then 2 else 0⟩]
        | none =>
            inOrder [lowerIfSome (lowerOptional mapColumn),
              one ⟨.index, 0, flags + columnFlag mapColumn⟩]]
  | .indexAssignExpr target index value compoundOp mapColumn =>
      lowerIndexAssignExpr
        (inOrder [lowerExpr target, lowerIndexValue target index (lowerExpr index),
          lowerIfSome (lowerOptional mapColumn)])
        (lowerExpr value) compoundOp (columnFlag mapColumn)
  | .anonFunctionExpr params isVarargs body =>
      lowerAnonFunctionExpr params isVarargs body
  | .timeExpressionExpr body => lowerTimeExpressionExpr (lowerStatements body)
  | _ => throwLpc (str "codegen: unsupported expression kind this slice")

def lowerExprs : List AstNode → List Lower
  | [] => []
  | node :: nodes => lowerExpr node :: lowerExprs nodes

def lowerOptional : Option AstNode → Option Lower
  | none => none
  | some node => some (lowerExpr node)

def lowerEntries : List (AstNode × List AstNode) → List (List Lower)
  | [] => []
  | (key, values) :: entries =>
      (lowerExpr key :: lowerExprs values) :: lowerEntries entries

def lowerFields : List (Str × AstNode) → List (Str × Lower)
  | [] => []
  | (name, value) :: fields => (name, lowerExpr value) :: lowerFields fields

def lowerTargets : List (Str × Option AstNode) → List LowerTarget
  | [] => []
  | (name, none) :: outputs => .plain name :: lowerTargets outputs
  | (_, some (.indexExpr target index _ _ _ mapColumn)) :: outputs =>
      .indexed
        (inOrder [lowerExpr target, lowerExpr index,
          lowerIfSome (lowerOptional mapColumn)])
        (columnFlag mapColumn) :: lowerTargets outputs
  | (_, some _) :: outputs =>
      .indexed (throwLpc (str "codegen: sscanf output is not an index")) 0 ::
        lowerTargets outputs

/-- The structured code of a statement. -/
def lowerStatement : AstNode → Lower
  | .block statements isRealScope =>
      if isRealScope then lowerBlock (lowerStatements statements)
      else lowerStatements statements
  | .exprStmt expr => inOrder [lowerExpr expr, one ⟨.pop, 0, 0⟩]
  | .returnStmt expr => lowerReturnStmt (lowerOptional expr)
  | .varDeclStmt type name initializer =>
      lowerVarDeclStmt type name (lowerOptional initializer)
  | .assignStmt name value => lowerAssignStmt name (lowerExpr value)
  | .indexAssignStmt target index value compoundOp mapColumn =>
      lowerIndexAssignStmt
        (inOrder [lowerExpr target, lowerIndexValue target index (lowerExpr index),
          lowerIfSome (lowerOptional mapColumn)])
        (lowerExpr value) compoundOp (columnFlag mapColumn)
  | .ifStmt condition thenBranch elseBranch =>
      lowerIfStmt (lowerExpr condition) (lowerStatements thenBranch)
        (lowerElse elseBranch)
  | .whileStmt condition body =>
      lowerWhileStmt (lowerExpr condition) (lowerStatements body)
  | .doWhileStmt condition body =>
      lowerDoWhileStmt (lowerExpr condition) (lowerStatements body)
  | .forStmt init condition update body =>
      lowerForStmt (lowerInit init) (lowerOptional condition) (lowerUpdate update)
        (lowerStatements body)
  | .foreachStmt varName declareVar varClassType valueVar collection body =>
      lowerForeachStmt varName declareVar varClassType valueVar
        (lowerExpr collection) (lowerStatements body)
  | .switchStmt subject body =>
      lowerSwitchStmt (lowerExpr subject) (lowerItems body)
  | .breakStmt => pure .brk
  | .continueStmt => pure .cont
  | _ => throwLpc (str "codegen: unsupported statement kind this slice")

/-- The structured code of the statements of a block. -/
def lowerStatements : List AstNode → Lower
  | [] => pure .skip
  | statement :: statements =>
      andThen (Code.stmt false <$> lowerStatement statement)
        (lowerStatements statements)

def lowerElse : Option (List AstNode) → Option Lower
  | none => none
  | some statements => some (lowerStatements statements)

def lowerInit : Option AstNode → Lower
  | none => pure .skip
  | some (.varDeclStmt type name initializer) =>
      lowerVarDeclStmt type name (lowerOptional initializer)
  | some (.block statements _) => lowerBlock (lowerStatements statements)
  | some expr => inOrder [lowerExpr expr, one ⟨.pop, 0, 0⟩]

def lowerUpdate : Option AstNode → Lower
  | none => pure .skip
  | some (.block statements _) => lowerBlock (lowerStatements statements)
  | some expr => inOrder [lowerExpr expr, one ⟨.pop, 0, 0⟩]

def lowerItems : List AstNode → List LowerItem
  | [] => []
  | .caseLabel value rangeEnd :: nodes =>
      .label (lowerOptional value) (lowerOptional rangeEnd) :: lowerItems nodes
  | node :: nodes => .statement (lowerStatement node) :: lowerItems nodes

end

end Kjdmud.Compiler
