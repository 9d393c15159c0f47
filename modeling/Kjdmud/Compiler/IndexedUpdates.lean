import Kjdmud.Compiler.Refinement
import Kjdmud.Vm.Evaluations

/-!
# Updates of an element

`target[index] op= value` as a statement and as an expression, and `++` and `--` on
`target[index]`.  The code of target, index and column stands in each of them twice, because the
machine cannot duplicate them as a group.
-/

namespace Kjdmud.Compiler

open Kjdmud.Vm Kjdmud.StateExcept

/-! ## The forms and their code -/

/-- The forms of an update. -/
inductive UpdateForm
  | stmt (op : BinOp)
  | expr (op : BinOp)
  | incDec (op : IncDecOp) (isPrefix : Bool)

namespace UpdateForm

/-- The emitter of the update; `++` and `--` have no value. -/
def emit (form : UpdateForm) (target index : AstNode) (column : Option AstNode)
    (value : AstNode) : Gen Unit :=
  match form with
  | .stmt op => emitStatement (.indexAssignStmt target index value (some op) column)
  | .expr op => emitExpr (.indexAssignExpr target index value (some op) column)
  | .incDec op isPrefix => emitExpr (.indexIncDecExpr op isPrefix target index column)

/-- The operator that combines the old value with the operand. -/
def op : UpdateForm → BinOp
  | .stmt op | .expr op => op
  | .incDec .inc _ => .add
  | .incDec .dec _ => .sub

end UpdateForm

/-- The pieces of the code of an update. -/
structure UpdateCode where
  first : List Instruction
  again : List Instruction
  value : List Instruction
  combine : OpCode
  oldSlot : Nat
  newSlot : Nat
  flags : Int

namespace UpdateCode

variable (c : UpdateCode)

/-- What is executed between the two evaluations of the place, after the first read. -/
def between : UpdateForm → List Instruction
  | .stmt _ => []
  | .expr _ =>
      [⟨.index, 0, c.flags⟩] ++ (c.value ++ [⟨c.combine, 0, 0⟩, ⟨.storeLocal, c.newSlot, 0⟩])
  | .incDec _ _ =>
      [⟨.index, 0, c.flags⟩, ⟨.storeLocal, c.oldSlot, 0⟩, ⟨.pushLocal, c.oldSlot, 0⟩] ++
        (c.value ++ [⟨c.combine, 0, 0⟩, ⟨.storeLocal, c.newSlot, 0⟩])

/-- What is executed after the second evaluation. -/
def rest : UpdateForm → List Instruction
  | .stmt _ =>
      [⟨.index, 0, c.flags⟩] ++ (c.value ++ [⟨c.combine, 0, 0⟩, ⟨.indexAssign, 0, c.flags⟩])
  | .expr _ =>
      [⟨.pushLocal, c.newSlot, 0⟩, ⟨.indexAssign, 0, c.flags⟩, ⟨.pushLocal, c.newSlot, 0⟩]
  | .incDec _ isPrefix =>
      [⟨.pushLocal, c.newSlot, 0⟩, ⟨.indexAssign, 0, c.flags⟩,
        ⟨.pushLocal, if isPrefix then c.newSlot else c.oldSlot, 0⟩]

/-- The code of the update. -/
def code (form : UpdateForm) : List Instruction :=
  c.first ++ (c.between form ++ (c.again ++ c.rest form))

end UpdateCode

/-! ## What the code generator emits -/

/-- What stands in front of the value in the code of an update. -/
def UpdateCode.front (c : UpdateCode) : UpdateForm → List Instruction
  | .stmt _ => c.first ++ (c.again ++ [⟨.index, 0, c.flags⟩])
  | .expr _ => c.first ++ [⟨.index, 0, c.flags⟩]
  | .incDec _ _ =>
      c.first ++ [⟨.index, 0, c.flags⟩, ⟨.storeLocal, c.oldSlot, 0⟩, ⟨.pushLocal, c.oldSlot, 0⟩]

section

variable {target index value : AstNode} {column : Option AstNode} {gen gen' : CodeGen}
  {op : BinOp}

end

end Kjdmud.Compiler
