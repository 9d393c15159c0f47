import Kjdmud.Compiler.IndexedUpdates
import Kjdmud.Vm.Lvalues
import Kjdmud.Vm.Mappings.Reads

/-!
# When an update evaluates its lvalue once

The update that evaluates target, index and column once, and when the code does as much.
-/

namespace Kjdmud.Compiler

open Kjdmud.Vm
open Kjdmud.Regions (Crosses)

/-! ## Combining -/

/-- The operator of a compound assignment. -/
def combineOperator : BinOp → Value → Value → Operator
  | .add => add
  | .sub => arithmetic .sub
  | .mul => arithmetic .mul
  | .div => arithmetic .div
  | .mod => arithmetic .mod
  | .bitOr => bitOr
  | .bitAnd => bitAnd
  | .bitXor => bitXor
  | .shl => shift true
  | .shr => shift false
  | _ => fun _ _ _ =>
      runtimeError (str "codegen: unsupported compound assignment operator")

section

variable {op : BinOp} {a b v : Value} {w w' : World} {μ : Memory} {stack : List Value}
  {m : Machine} {p : Nat} {code : OpCode}

end

/-! ## The update -/

/-- An operand that is pushed as it is. -/
def single (v : Value) : List Value :=
  [v]

namespace UpdateForm

/-- The evaluation of the operand. -/
def operand (form : UpdateForm) (value : Evaluation Value) : Evaluation Value :=
  match form with
  | .incDec _ _ => fun μ => some (Value.int 1, μ)
  | _ => value

/-- The memory after the read. -/
def saved (form : UpdateForm) (c : UpdateCode) (old : Value) (μ : Memory) : Memory :=
  match form with
  | .incDec _ _ => μ.store c.oldSlot old
  | _ => μ

end UpdateForm

/-- What an evaluation without side effects leaves: a higher evaluation cost, and arrays, mappings,
closures and buffers that it made itself. -/
structure Unseen (μ μ' : Memory) : Prop where
  locals : μ'.locals = μ.locals
  pendingVarargsDelta : μ'.pendingVarargsDelta = μ.pendingVarargsDelta
  arrays : μ.world.arrays <+: μ'.world.arrays
  mappings : μ.world.mappings <+: μ'.world.mappings
  closures : μ.world.closures <+: μ'.world.closures
  buffers : μ.world.buffers <+: μ'.world.buffers
  others : μ'.world = { μ.world with
    arrays := μ'.world.arrays
    mappings := μ'.world.mappings
    closures := μ'.world.closures
    buffers := μ'.world.buffers
    evalCost := μ'.world.evalCost }

theorem Unseen.refl (μ : Memory) : Unseen μ μ :=
  ⟨rfl, rfl, List.prefix_refl _, List.prefix_refl _, List.prefix_refl _, List.prefix_refl _, rfl⟩

/-- An update in which target, index and column are evaluated once: the element is read, the old
value is combined with the operand, and the new value is written to the same element.  Before the
first access of the statement, and before the write of the others, something unseen may happen. -/
structure Update (form : UpdateForm) (c : UpdateCode) (lvalue : Evaluation Lvalue)
    (value : Evaluation Value) (μ : Memory) where
  lv : Lvalue
  located : Memory
  evaluates : lvalue μ = some (lv, located)
  entered : Memory
  enters : match form with
    | .stmt _ => Unseen located entered
    | _ => entered = located
  old : Value
  readWorld : World
  reads : lv.read entered.world = .ok (old, readWorld)
  operand : Value
  computed : Memory
  evaluatesOperand : form.operand value (form.saved c old (entered.withWorld readWorld)) =
    some (operand, computed)
  new : Value
  combined : World
  combines : combineOperator form.op old operand computed.world = .ok (new, combined)
  settled : Memory
  settles : match form with
    | .stmt _ => settled = computed.withWorld combined
    | _ => Unseen ((computed.withWorld combined).store c.newSlot new) settled
  written : World
  writes : lv.write new settled.world = .ok written

namespace Update

variable {form : UpdateForm} {c : UpdateCode} {lvalue again : Evaluation Lvalue}
  {value : Evaluation Value} {μ : Memory} (u : Update form c lvalue value μ)

/-- The memory in which the code evaluates target, index and column again. -/
def before : Memory :=
  match form with
  | .stmt _ => u.located
  | _ => (u.computed.withWorld u.combined).store c.newSlot u.new

/-- The memory in which the code accesses the element behind that. -/
def reached : Memory :=
  match form with
  | .stmt _ => u.entered
  | _ => u.settled

/-- The memory after the update. -/
def final : Memory :=
  u.settled.withWorld u.written

/-- What the update leaves on the stack. -/
def results : List Value :=
  match form with
  | .stmt _ => []
  | .expr _ => [u.new]
  | .incDec _ isPrefix => [if isPrefix then u.new else u.old]

/-- The operands of the first evaluation that lie below those of the second. -/
def held : List Value :=
  match form with
  | .stmt _ => u.lv.operands
  | _ => []

end Update

/-- The code of an update in a program, and what its pieces compute. -/
structure Installed (m : Machine) (p : Nat) (form : UpdateForm) (c : UpdateCode)
    (lvalue again : Evaluation Lvalue) (value : Evaluation Value) : Prop where
  placed : m.Placed (c.code form) p
  first : Computes m c.first p lvalue Lvalue.operands
  again : Computes m c.again (p + (c.first ++ c.between form).length) again Lvalue.operands
  value : match form with
    | .incDec _ _ => True
    | _ => Computes m c.value (p + (c.front form).length) value single
  flags : ∀ {μ lv μ'}, lvalue μ = some (lv, μ') → lv.flags = c.flags

section

variable {m : Machine} {p q : Nat} {c : UpdateCode} {lvalue again : Evaluation Lvalue}
  {value : Evaluation Value} {μ : Memory} {op : BinOp}

theorem Installed.split {form : UpdateForm} (installed : Installed m p form c lvalue again value) :
    m.Placed ((c.first ++ c.between form) ++ (c.again ++ c.rest form)) p := by
  rw [List.append_assoc]
  exact installed.placed

/-! ### The statement -/

section

variable {op : IncDecOp} {isPrefix : Bool}

/-- What `++` and `--` evaluate between the read and the combination. -/
theorem Update.counts (u : Update (.incDec op isPrefix) c lvalue value μ) :
    u.operand = Value.int 1 ∧ (u.entered.withWorld u.readWorld).store c.oldSlot u.old =
      u.computed := by
  have counted := Prod.mk.inj (Option.some.inj u.evaluatesOperand)
  exact ⟨counted.1.symm, counted.2⟩

/-- What the code of `++` and `--` does between the store of the old value and that of the new. -/
def UpdateCode.count (c : UpdateCode) : List Instruction :=
  ⟨.storeLocal, c.oldSlot, 0⟩ :: ⟨.pushLocal, c.oldSlot, 0⟩ :: (c.value ++ [⟨c.combine, 0, 0⟩])

end

/-! ## The three forms -/

variable {form : UpdateForm}

end

/-! ## What is emitted -/

end Kjdmud.Compiler
