import Kjdmud.Vm.Evaluations
import Kjdmud.Vm.Mappings.Runs

/-!
# Lvalues

An element of an array or a mapping, named by a target, an index and a column: the read of `Index`
and the write of `IndexAssign`.
-/

namespace Kjdmud.Vm

/-- What target, index and column evaluate to. -/
structure Lvalue where
  target : Value
  index : Value
  column : Option Value

namespace Lvalue

variable (lv : Lvalue)

/-- The operands of the lvalue, the topmost first. -/
def operands : List Value :=
  lv.column.toList ++ [lv.index, lv.target]

/-- The read of `Index`. -/
def read : Operator :=
  indexValue lv.target lv.index lv.column false

/-- The write of `IndexAssign`. -/
def write (v : Value) (w : World) : Except LpcError World :=
  indexAssign lv.target lv.index v lv.column w

/-- The flags of the instructions. -/
def flags : Int :=
  if lv.column.isSome then 4 else 0

variable {lv} {m : Machine} {μ : Memory} {p : Nat} {stack : List Value} {v : Value} {w : World}

end Lvalue

/-! ## The other elements -/

/-- A value that an array or a mapping holds; the key of an entry counts as one. -/
inductive Cell
  | item (ref : Ref) (i : Nat)
  | key (ref : Ref) (i : Nat)
  | column (ref : Ref) (i col : Nat)

/-- The key of an entry. -/
def Mapping.keyAt (m : Mapping) (i : Nat) : Option Value :=
  (m.entries[i]?).map Prod.fst

/-- A column of an entry. -/
def Mapping.valueAt (m : Mapping) (i col : Nat) : Option Value :=
  (m.entries[i]?).map fun _ => m.getColumn i col

/-- What a cell holds. -/
def World.cell (w : World) : Cell → Option Value
  | .item ref i => (w.array ref)[i]?
  | .key ref i => (w.mapping ref).keyAt i
  | .column ref i col => (w.mapping ref).valueAt i col

/-- The cell of an lvalue, when there is one. -/
def Lvalue.cell (lv : Lvalue) (w : World) : Option Cell :=
  match lv.target.data with
  | .array (some ref) =>
      match lv.index.data with
      | .int i => some (.item ref i.toInt.toNat)
      | _ => none
  | .mapping (some ref) =>
      match (w.mapping ref).find lv.index, mappingColumn (w.mapping ref) lv.column with
      | some i, .ok col => some (.column ref i col)
      | _, _ => none
  | _ => none

section Frame

variable {lv : Lvalue} {v : Value} {w w' : World} {cell : Cell} {old : Value}

end Frame

end Kjdmud.Vm
