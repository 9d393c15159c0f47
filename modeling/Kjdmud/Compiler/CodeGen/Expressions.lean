import Kjdmud.Compiler.CodeGen.Names

/-!
# Emitting expressions

The expression emitters of `src/compiler/CodeGen.cpp`.  Each is a combinator
that takes the emitters of the node's children, in the order in which the
source calls them; the recursion over the tree is in
`Kjdmud.Compiler.CodeGen`.
-/

namespace Kjdmud.Compiler

open Kjdmud.Vm

/-! ## Instructions and jumps -/

/-- `out_->code.push_back(instr)`. -/
def emit (instr : Instruction) : Gen Unit :=
  modify fun gen => { gen with code := gen.code ++ [instr] }

/-- `out_->code.size()`. -/
def here : Gen Nat := do
  pure (← get).code.length

/-- `emitJumpPlaceholder`. -/
def emitJumpPlaceholder (op : OpCode) : Gen Nat := do
  let idx ← here
  emit ⟨op, -1, 0⟩
  pure idx

/-- `patchJumpTo`. -/
def patchJumpTo (jumpInstrIndex target : Nat) : Gen Unit :=
  modify fun gen =>
    { gen with
      code := gen.code.modify jumpInstrIndex
        fun instr => { instr with operand := int32 target } }

/-- `patchJumpToHere`. -/
def patchJumpToHere (jumpInstrIndex : Nat) : Gen Unit := do
  patchJumpTo jumpInstrIndex (← here)

/-- `loopStack_.emplace_back()`. -/
def openLoop (isSwitch : Bool) : Gen Unit :=
  modify fun gen => { gen with loopStack := ⟨[], [], isSwitch⟩ :: gen.loopStack }

/-- `std::move(loopStack_.back())` followed by `loopStack_.pop_back()`. -/
def closeLoop : Gen LoopContext := do
  let gen ← get
  set { gen with loopStack := gen.loopStack.tail }
  pure (gen.loopStack.headD ⟨[], [], false⟩)

/-! ## Expressions -/

/-- The instruction of a `BinaryExpr` that is not short-circuited. -/
def BinOp.opCode : BinOp → Option OpCode
  | .eq => some .eq
  | .neq => some .neq
  | .lt => some .lt
  | .lte => some .lte
  | .gt => some .gt
  | .gte => some .gte
  | .add => some .add
  | .sub => some .sub
  | .mul => some .mul
  | .div => some .div
  | .mod => some .mod
  | .bitAnd => some .bitAnd
  | .bitOr => some .bitOr
  | .bitXor => some .bitXor
  | .shl => some .shl
  | .shr => some .shr
  | .or | .and => none

/-- The instruction of a compound assignment operator. -/
def BinOp.combineOp : BinOp → Option OpCode
  | .add => some .add
  | .sub => some .sub
  | .mul => some .mul
  | .div => some .div
  | .mod => some .mod
  | .bitOr => some .bitOr
  | .bitAnd => some .bitAnd
  | .bitXor => some .bitXor
  | .shl => some .shl
  | .shr => some .shr
  | _ => none

/-- Emit the instruction a compound assignment combines with. -/
def emitCombine (op : BinOp) : Gen Unit :=
  match op.combineOp with
  | some code => emit ⟨code, 0, 0⟩
  | none => throwLpc (str "codegen: unsupported compound assignment operator")

/-- `emitBinaryExpr`. -/
def emitBinaryExpr (op : BinOp) (left right : Gen Unit) : Gen Unit := do
  left
  right
  match op.opCode with
  | some code => emit ⟨code, 0, 0⟩
  | none => throwLpc (str "codegen: unknown BinOp")

/-- `emitLogicalExpr`. -/
def emitLogicalExpr (op : BinOp) (left right : Gen Unit) : Gen Unit := do
  left
  emit ⟨.dup, 0, 0⟩
  let jumpIfFalseIdx ← emitJumpPlaceholder .jumpIfFalse
  if op = .or then
    let jumpToEndIdx ← emitJumpPlaceholder .jump
    patchJumpToHere jumpIfFalseIdx
    emit ⟨.pop, 0, 0⟩
    right
    patchJumpToHere jumpToEndIdx
  else
    emit ⟨.pop, 0, 0⟩
    right
    patchJumpToHere jumpIfFalseIdx

/-- `emitTernaryExpr`. -/
def emitTernaryExpr (condition thenBranch elseBranch : Gen Unit) :
    Gen Unit := do
  condition
  let jumpIfFalseIdx ← emitJumpPlaceholder .jumpIfFalse
  thenBranch
  let jumpToEndIdx ← emitJumpPlaceholder .jump
  patchJumpToHere jumpIfFalseIdx
  elseBranch
  patchJumpToHere jumpToEndIdx

/-- `emitCatchExpr`. -/
def emitCatchExpr (guarded : Gen Unit) : Gen Unit := do
  let catchFrameIdx ← emitJumpPlaceholder .pushCatchFrame
  guarded
  emit ⟨.pop, 0, 0⟩
  emit ⟨.popCatchFrame, 0, 0⟩
  patchJumpToHere catchFrameIdx

/-- `emitBlock`. -/
def emitBlock (statements : Gen Unit) : Gen Unit := do
  openScope
  statements
  closeScope

/-- `emitTimeExpressionExpr`. -/
def emitTimeExpressionExpr (body : Gen Unit) : Gen Unit := do
  emit ⟨.timeExpressionStart, 0, 0⟩
  emitBlock body
  emit ⟨.timeExpressionEnd, 0, 0⟩

/-- `emitAssignExpr`. -/
def emitAssignExpr (name : Str) (value : Gen Unit)
    (compoundOp : Option BinOp) : Gen Unit := do
  let var ← resolveVariable name
  match compoundOp with
  | some op =>
      emit var.push
      value
      emitCombine op
  | none => value
  emit ⟨.dup, 0, 0⟩
  emit var.store

/-- `IncDecOp::Inc` adds and `IncDecOp::Dec` subtracts. -/
def IncDecOp.deltaOp : IncDecOp → OpCode
  | .inc => .add
  | .dec => .sub

/-- `emitIncDecExpr` on a plain variable. -/
def emitIncDecExpr (op : IncDecOp) (isPrefix : Bool) (name : Str) :
    Gen Unit := do
  let var ← resolveVariable name
  emit var.push
  if isPrefix then
    emit ⟨.pushInt, 1, 0⟩
    emit ⟨op.deltaOp, 0, 0⟩
    emit ⟨.dup, 0, 0⟩
    emit var.store
  else
    emit ⟨.dup, 0, 0⟩
    emit ⟨.pushInt, 1, 0⟩
    emit ⟨op.deltaOp, 0, 0⟩
    emit var.store

/-- `emitIndexValue`. -/
def emitIndexValue (targetExpr indexNode : AstNode) (index : Gen Unit) :
    Gen Unit :=
  match indexNode with
  | .memberNameMarker name => do
      let memberIndex ← memberIndexOf targetExpr name
      emit ⟨.pushInt, memberIndex, 0⟩
  | _ => index

/-- The flag bit of a mapping column. -/
def columnFlag {α : Type} (mapColumn : Option α) : Int :=
  if mapColumn.isSome then 4 else 0

/-- An emitter that may be absent. -/
def emitIfSome : Option (Gen Unit) → Gen Unit
  | some emitter => emitter
  | none => pure ()

/-- `emitIncDecExpr` on an indexed target: `place` emits the target, the index
and the column. -/
def emitIndexIncDecExpr (op : IncDecOp) (isPrefix : Bool) (place : Gen Unit)
    (flags : Int) : Gen Unit := do
  let oldSlot ← declareIndexAssignTemp "$idxassign#"
  let newSlot ← declareIndexAssignTemp "$idxassign#"
  place
  emit ⟨.index, 0, flags⟩
  emit ⟨.storeLocal, oldSlot, 0⟩
  emit ⟨.pushLocal, oldSlot, 0⟩
  emit ⟨.pushInt, 1, 0⟩
  emit ⟨op.deltaOp, 0, 0⟩
  emit ⟨.storeLocal, newSlot, 0⟩
  place
  emit ⟨.pushLocal, newSlot, 0⟩
  emit ⟨.indexAssign, 0, flags⟩
  emit ⟨.pushLocal, if isPrefix then newSlot else oldSlot, 0⟩

/-- `emitIndexAssignExpr`. -/
def emitIndexAssignExpr (place value : Gen Unit) (compoundOp : Option BinOp)
    (flags : Int) : Gen Unit := do
  let tempSlot ← declareIndexAssignTemp "$idxassign#"
  match compoundOp with
  | some op =>
      place
      emit ⟨.index, 0, flags⟩
      value
      emitCombine op
  | none => value
  emit ⟨.storeLocal, tempSlot, 0⟩
  place
  emit ⟨.pushLocal, tempSlot, 0⟩
  emit ⟨.indexAssign, 0, flags⟩
  emit ⟨.pushLocal, tempSlot, 0⟩

/-- The loop of `emitSpreadExpansions`; `n` is the number of positions left. -/
def emitSpreadExpansions : List Bool → Gen Unit
  | [] => pure ()
  | spread :: isSpread => do
      if spread then
        emit ⟨.expandVarargs, int32 isSpread.length, 0⟩
      emitSpreadExpansions isSpread

/-- Run emitters in order. -/
def emitAll : List (Gen Unit) → Gen Unit
  | [] => pure ()
  | emitter :: emitters => do
      emitter
      emitAll emitters

/-- `emitCallExpr`. -/
def emitCallExpr (callee : Str) (args : List (Gen Unit))
    (argIsSpread : List Bool) (forceEfun parentCall : Bool)
    (parentQualifier : Str) : Gen Unit := do
  emitAll args
  emitSpreadExpansions argIsSpread
  let calleeIdx ← internString callee
  if parentCall then
    let qualifierIdx ←
      if parentQualifier.isEmpty then pure (-1)
      else internString parentQualifier
    emit ⟨.callParent, calleeIdx, int32 args.length⟩
    emit ⟨.callParentQualifierSlot, qualifierIdx, 0⟩
  else
    emit ⟨if forceEfun then .callEfun else .call, calleeIdx,
      int32 args.length⟩

/-- `emitCallOtherExpr`. -/
def emitCallOtherExpr (target function : Gen Unit) (args : List (Gen Unit))
    (argIsSpread : List Bool) : Gen Unit := do
  target
  function
  emitAll args
  emitSpreadExpansions argIsSpread
  let calleeIdx ← internString (str "call_other")
  emit ⟨.callEfun, calleeIdx, int32 (2 + args.length)⟩

/-- The member initialisers of a `NewClassExpr` in declaration order. -/
def emitClassMembers (fields : List (Str × Gen Unit)) : List Str → Gen Unit
  | [] => pure ()
  | memberName :: members => do
      match fields.lookup memberName with
      | some field => field
      | none => emit ⟨.pushInt, 0, 0⟩
      emitClassMembers fields members

/-- The `NewClassExpr` case of `emitExpr`. -/
def emitNewClassExpr (className : Str) (fields : List (Str × Gen Unit)) :
    Gen Unit := do
  let members ← classMembers className
  emitClassMembers fields members
  checkFields className members (fields.map Prod.fst)
  emit ⟨.makeArray, 1, int32 members.length⟩

/-- The width a mapping literal is made with: that of its first entry, a key
and its values. -/
def literalWidth {α : Type} (entries : List (List α)) : Int :=
  match entries with
  | [] => 1
  | entry :: _ => max 1 (int32 (entry.length - 1 : Nat))

/-- The `MappingLiteralExpr` case of `emitExpr`: the emitters of each entry's
key and values. -/
def emitMappingLiteralExpr (entries : List (List (Gen Unit))) : Gen Unit := do
  emitAll entries.flatten
  emit ⟨.makeMapping, literalWidth entries, int32 entries.length⟩

/-- The `ClosureLiteralExpr` case of `emitExpr`. -/
def emitClosureLiteralExpr (functionName : Str) (boundArgs : List (Gen Unit))
    (forceEfun : Bool) : Gen Unit := do
  emitAll boundArgs
  let nameIdx ← internString functionName
  emit ⟨if forceEfun then .pushEfunClosure else .pushClosure, nameIdx,
    int32 boundArgs.length⟩

/-- The `InlineLambdaExpr` case of `emitExpr`. -/
def emitInlineLambdaExpr (bodyExprs : List AstNode) (paramCount : Nat)
    (boundValueExprs : List AstNode) (boundValues : List (Gen Unit)) :
    Gen Unit := do
  emitAll boundValues
  let name ← deferLambda bodyExprs paramCount boundValueExprs
  let nameIdx ← internString name
  emit ⟨.pushClosure, nameIdx, int32 boundValues.length⟩

/-- The `AnonFunctionExpr` case of `emitExpr`. -/
def emitAnonFunctionExpr (params : List Param) (isVarargs : Bool)
    (body : List AstNode) : Gen Unit := do
  let name ← deferAnonFunc params isVarargs body
  let nameIdx ← internString name
  emit ⟨.pushClosure, nameIdx, 0⟩

/-- The `LambdaParamExpr` case of `emitExpr`. -/
def emitLambdaParamExpr (index : Nat) (isBoundValue : Bool) : Gen Unit := do
  let slot ← lambdaParamSlot index isBoundValue
  emit ⟨.pushLocal, slot, 0⟩

/-- An output argument of `sscanf`: a variable, or the emitter of an indexed
target with the flags of its write. -/
inductive SscanfTarget
  | plain (name : Str)
  | indexed (place : Gen Unit) (flags : Int)

/-- The var-slot table of `emitSscanfExpr`, which collects the
`pendingIndexedWrites`. -/
def emitSscanfSlots : List SscanfTarget → Gen (List (Nat × Gen Unit × Int))
  | [] => pure []
  | .plain name :: outputs => do
      let var ← resolveVariable name
      emit ⟨.sscanfVarSlot, var.slot, if var.kind = .objectVar then 1 else 0⟩
      emitSscanfSlots outputs
  | .indexed place flags :: outputs => do
      let slot ← declareIndexAssignTemp "$sscanf_out#"
      emit ⟨.sscanfVarSlot, slot, 0⟩
      let writes ← emitSscanfSlots outputs
      pure ((slot, place, flags) :: writes)

/-- The deferred writes of `emitSscanfExpr`. -/
def emitSscanfWrites : List (Nat × Gen Unit × Int) → Gen Unit
  | [] => pure ()
  | (tempSlot, place, flags) :: writes => do
      place
      emit ⟨.pushLocal, tempSlot, 0⟩
      emit ⟨.indexAssign, 0, flags⟩
      emitSscanfWrites writes

/-- `emitSscanfExpr`. -/
def emitSscanfExpr (target format : Gen Unit) (outputs : List SscanfTarget) :
    Gen Unit := do
  target
  format
  emit ⟨.sscanf, int32 outputs.length, 0⟩
  let pendingIndexedWrites ← emitSscanfSlots outputs
  emitSscanfWrites pendingIndexedWrites

end Kjdmud.Compiler
