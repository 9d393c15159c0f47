import Kjdmud.Compiler.CodeGen.Expressions

/-!
# Emitting statements

The statement emitters of `src/compiler/CodeGen.cpp`, as combinators of the
emitters of their parts.
-/

namespace Kjdmud.Compiler

open Kjdmud.Vm

/-- `emitReturnStmt`. -/
def emitReturnStmt (expr : Option (Gen Unit)) : Gen Unit := do
  emitIfSome expr
  emit ⟨.return, 0, 0⟩

/-- `emitVarDeclStmt`. -/
def emitVarDeclStmt (type name : Str) (initializer : Option (Gen Unit)) :
    Gen Unit := do
  let slot ← declareLocal name type
  match initializer with
  | some value =>
      value
      emit ⟨.storeLocal, slot, 0⟩
  | none => pure ()

/-- `emitAssignStmt`. -/
def emitAssignStmt (name : Str) (value : Gen Unit) : Gen Unit := do
  let var ← resolveVariable name
  value
  emit var.store

/-- `emitIndexAssignStmt`. -/
def emitIndexAssignStmt (place value : Gen Unit) (compoundOp : Option BinOp)
    (flags : Int) : Gen Unit := do
  match compoundOp with
  | some op =>
      place
      place
      emit ⟨.index, 0, flags⟩
      value
      emitCombine op
      emit ⟨.indexAssign, 0, flags⟩
  | none =>
      place
      value
      emit ⟨.indexAssign, 0, flags⟩

/-- `emitIfStmt`. -/
def emitIfStmt (condition thenBranch : Gen Unit)
    (elseBranch : Option (Gen Unit)) : Gen Unit := do
  condition
  let jumpIfFalseIdx ← emitJumpPlaceholder .jumpIfFalse
  emitBlock thenBranch
  match elseBranch with
  | some elseBranch =>
      let jumpToEndIdx ← emitJumpPlaceholder .jump
      patchJumpToHere jumpIfFalseIdx
      emitBlock elseBranch
      patchJumpToHere jumpToEndIdx
  | none => patchJumpToHere jumpIfFalseIdx

/-- Patch every jump of a list to one target. -/
def patchAllTo (target : Nat) : List Nat → Gen Unit
  | [] => pure ()
  | idx :: jumps => do
      patchJumpTo idx target
      patchAllTo target jumps

/-- Patch every jump of a list to the end of the code. -/
def patchAllToHere (jumps : List Nat) : Gen Unit := do
  patchAllTo (← here) jumps

/-- `emitWhileStmt`. -/
def emitWhileStmt (condition body : Gen Unit) : Gen Unit := do
  let loopTop ← here
  condition
  let jumpIfFalseIdx ← emitJumpPlaceholder .jumpIfFalse
  openLoop false
  emitBlock body
  let ctx ← closeLoop
  patchAllTo loopTop ctx.continueJumps
  emit ⟨.jump, int32 loopTop, 0⟩
  patchJumpToHere jumpIfFalseIdx
  patchAllToHere ctx.breakJumps

/-- `emitDoWhileStmt`. -/
def emitDoWhileStmt (condition body : Gen Unit) : Gen Unit := do
  let bodyStart ← here
  openLoop false
  emitBlock body
  let ctx ← closeLoop
  patchAllToHere ctx.continueJumps
  condition
  let jumpIfFalseIdx ← emitJumpPlaceholder .jumpIfFalse
  emit ⟨.jump, int32 bodyStart, 0⟩
  patchJumpToHere jumpIfFalseIdx
  patchAllToHere ctx.breakJumps

/-- `emitForStmt`; `init` and `update` are the emitters of those clauses, with
the `Pop` of an expression clause. -/
def emitForStmt (init : Gen Unit) (condition : Option (Gen Unit))
    (update body : Gen Unit) : Gen Unit := do
  openScope
  init
  let loopTop ← here
  let jumpIfFalseIdx ←
    match condition with
    | some condition => do
        condition
        some <$> emitJumpPlaceholder .jumpIfFalse
    | none => pure none
  openLoop false
  emitBlock body
  let ctx ← closeLoop
  patchAllToHere ctx.continueJumps
  update
  emit ⟨.jump, int32 loopTop, 0⟩
  match jumpIfFalseIdx with
  | some idx => patchJumpToHere idx
  | none => pure ()
  patchAllToHere ctx.breakJumps
  closeScope

/-- `emitForeachStmt`. -/
def emitForeachStmt (varName : Str) (declareVar : Bool) (varClassType : Str)
    (valueVar : Option ForeachValueVar) (collection body : Gen Unit) :
    Gen Unit := do
  openScope
  let id ← freshForeachId
  let origSlot ← declareLocal (str "$foreach_orig_" ++ id) []
  collection
  emit ⟨.storeLocal, origSlot, 0⟩
  let iterSlot ← declareLocal (str "$foreach_iter_" ++ id) []
  emit ⟨.pushLocal, origSlot, 0⟩
  emit ⟨.foreachKeys, 0, 0⟩
  emit ⟨.storeLocal, iterSlot, 0⟩
  let idxSlot ← declareLocal (str "$foreach_idx_" ++ id) []
  emit ⟨.pushInt, 0, 0⟩
  emit ⟨.storeLocal, idxSlot, 0⟩
  let loopTop ← here
  emit ⟨.pushLocal, idxSlot, 0⟩
  emit ⟨.pushLocal, iterSlot, 0⟩
  let sizeofIdx ← internString (str "sizeof")
  emit ⟨.call, sizeofIdx, 1⟩
  emit ⟨.lt, 0, 0⟩
  let jumpIfFalseIdx ← emitJumpPlaceholder .jumpIfFalse
  let keyVar ← foreachVariable varName declareVar varClassType
  emit ⟨.pushLocal, iterSlot, 0⟩
  emit ⟨.pushLocal, idxSlot, 0⟩
  emit ⟨.index, 0, 0⟩
  emit keyVar.store
  match valueVar with
  | some value =>
      let valVar ← foreachVariable value.name value.declare value.classType
      emit ⟨.pushLocal, origSlot, 0⟩
      emit keyVar.push
      emit ⟨.index, 0, 0⟩
      emit valVar.store
  | none => pure ()
  openLoop false
  emitBlock body
  let ctx ← closeLoop
  patchAllToHere ctx.continueJumps
  emit ⟨.pushLocal, idxSlot, 0⟩
  emit ⟨.pushInt, 1, 0⟩
  emit ⟨.add, 0, 0⟩
  emit ⟨.storeLocal, idxSlot, 0⟩
  emit ⟨.jump, int32 loopTop, 0⟩
  patchJumpToHere jumpIfFalseIdx
  patchAllToHere ctx.breakJumps
  closeScope

/-- An entry of a `SwitchStmt` body: a `CaseLabel` with its emitters, or a
statement. -/
inductive SwitchItem
  | label (value rangeEnd : Option (Gen Unit))
  | statement (emitter : Gen Unit)

/-- The dispatch test of one `CaseLabel`; the result is the jump to its body. -/
def emitSwitchTest (subjSlot : Nat) (value : Gen Unit)
    (rangeEnd : Option (Gen Unit)) : Gen Nat := do
  emit ⟨.pushLocal, subjSlot, 0⟩
  value
  match rangeEnd with
  | some rangeEnd =>
      emit ⟨.gte, 0, 0⟩
      emit ⟨.dup, 0, 0⟩
      let lowFailedJumpIdx ← emitJumpPlaceholder .jumpIfFalse
      emit ⟨.pop, 0, 0⟩
      emit ⟨.pushLocal, subjSlot, 0⟩
      rangeEnd
      emit ⟨.lte, 0, 0⟩
      patchJumpToHere lowFailedJumpIdx
      emit ⟨.not, 0, 0⟩
      emitJumpPlaceholder .jumpIfFalse
  | none =>
      emit ⟨.eq, 0, 0⟩
      emit ⟨.not, 0, 0⟩
      emitJumpPlaceholder .jumpIfFalse

/-- The dispatch loop of `emitSwitchStmt` from body index `i` on: the jump of
each tested label, and `defaultBodyIndex`. -/
def emitSwitchTests (subjSlot : Nat) :
    Nat → List SwitchItem → Option Nat → Gen (List (Nat × Nat) × Option Nat)
  | _, [], defaultBodyIndex => pure ([], defaultBodyIndex)
  | i, .label none _ :: items, _ => emitSwitchTests subjSlot (i + 1) items (some i)
  | i, .label (some value) rangeEnd :: items, defaultBodyIndex => do
      let jumpIdx ← emitSwitchTest subjSlot value rangeEnd
      let (jumps, last) ← emitSwitchTests subjSlot (i + 1) items defaultBodyIndex
      pure ((i, jumpIdx) :: jumps, last)
  | i, .statement _ :: items, defaultBodyIndex =>
      emitSwitchTests subjSlot (i + 1) items defaultBodyIndex

/-- The body loop of `emitSwitchStmt` from body index `i` on. -/
def emitSwitchBodies (jumpsToIndex : List (Nat × Nat))
    (defaultBodyIndex : Option Nat) (noMatchJumpIdx : Nat) :
    Nat → List SwitchItem → Gen Unit
  | _, [] => pure ()
  | i, item :: items => do
      match jumpsToIndex.lookup i with
      | some jumpIdx => patchJumpToHere jumpIdx
      | none => pure ()
      if defaultBodyIndex = some i then
        patchJumpToHere noMatchJumpIdx
      else
        match item with
        | .label _ _ => pure ()
        | .statement emitter => emitter
      emitSwitchBodies jumpsToIndex defaultBodyIndex noMatchJumpIdx (i + 1) items

/-- `emitSwitchStmt`. -/
def emitSwitchStmt (subject : Gen Unit) (body : List SwitchItem) :
    Gen Unit := do
  let subjSlot ← declareSwitchSubject
  subject
  emit ⟨.storeLocal, subjSlot, 0⟩
  let (jumpsToIndex, defaultBodyIndex) ← emitSwitchTests subjSlot 0 body none
  let noMatchJumpIdx ← emitJumpPlaceholder .jump
  openLoop true
  emitSwitchBodies jumpsToIndex defaultBodyIndex noMatchJumpIdx 0 body
  if defaultBodyIndex = none then
    patchJumpToHere noMatchJumpIdx
  let ctx ← closeLoop
  patchAllToHere ctx.breakJumps

/-- `emitBreakStmt`. -/
def emitBreakStmt : Gen Unit := do
  match (← get).loopStack with
  | [] => throwLpc (str "codegen: break statement outside of a loop")
  | ctx :: loops =>
      let idx ← emitJumpPlaceholder .jump
      modify fun gen =>
        { gen with
          loopStack := { ctx with breakJumps := ctx.breakJumps ++ [idx] } :: loops }

/-- The innermost loop that is not a switch, with a continue jump added. -/
def addContinueJump (idx : Nat) : List LoopContext → Option (List LoopContext)
  | [] => none
  | ctx :: loops =>
      if ctx.isSwitch then (addContinueJump idx loops).map (ctx :: ·)
      else some ({ ctx with continueJumps := ctx.continueJumps ++ [idx] } :: loops)

/-- `emitContinueStmt`. -/
def emitContinueStmt : Gen Unit := do
  match addContinueJump (← here) (← get).loopStack with
  | none => throwLpc (str "codegen: continue statement outside of a loop")
  | some loops =>
      let _ ← emitJumpPlaceholder .jump
      modify fun gen => { gen with loopStack := loops }

end Kjdmud.Compiler
