import Kjdmud.Core.Types
import Kjdmud.Vm.Value

/-!
# Operators of the interpreter

The value computations of the operator cases of `VM::run` in `src/vm/VM.cpp`:
arithmetic, comparison, bit operations, addition, indexing and indexed
assignment.  Each takes its operands off the stack in the caller, so these
functions see values and the heap only.
-/

namespace Kjdmud.Vm

/-- What a called function or efun can throw. -/
inductive LpcError
  /-- An `LpcRuntimeError`. -/
  | runtime (message : Str)
  /-- An `LpcThrownValue`, which is an `LpcRuntimeError` with a value. -/
  | thrown (value : Value)
  /-- An `EvalCostError`. -/
  | evalCost (message : Str)
  /-- A `NotImplementedError`. -/
  | notImplemented (message : Str)
deriving DecidableEq

/-- A computation on the heap that yields a value or throws. -/
abbrev Operator :=
  World → Except LpcError (Value × World)

/-- `throw LpcRuntimeError(message)`. -/
def runtimeError {α : Type} (message : Str) : Except LpcError α :=
  .error (.runtime message)

/-! ## Arithmetic -/

/-- `asArithmeticOperand`. -/
def asArithmeticOperand (v : Value) : Option Double :=
  match v.data with
  | .int i => some (Double.ofInt64 i)
  | .double d => some d
  | .void => some (Double.zero false)
  | _ => none

/-- `std::holds_alternative<double>`. -/
def Value.isDouble (v : Value) : Bool :=
  match v.data with
  | .double _ => true
  | _ => false

/-- A numeric result, which is a `double` when either operand is one. -/
def numericResult (lhs rhs : Value) (result : Double) : Value :=
  if lhs.isDouble || rhs.isDouble then Value.double result
  else Value.int result.toInt64

/-- The items behind an array pointer; a null pointer has none. -/
def World.items (w : World) : Option Ref → List Value
  | some ref => w.array ref
  | none => []

/-- A value is equal to some item of an array. -/
def hasEqual (items : List Value) (v : Value) : Bool :=
  items.any fun item => valuesEqual v item

/-- The arithmetic instructions that share a case in `VM::run`. -/
inductive Arithmetic
  | sub | mul | div | mod
deriving DecidableEq

/-- The operation on two `double` operands. -/
def Arithmetic.apply : Arithmetic → Double → Double → Double
  | .sub => Double.sub
  | .mul => Double.mul
  | .div => Double.div
  | .mod => Double.fmod

/-- The operands of `op` as `double`s, or the error of the first that is not a
number. -/
def arithmeticOperands (name : String) (lhs rhs : Value) :
    Except LpcError (Double × Double) :=
  match asArithmeticOperand lhs, asArithmeticOperand rhs with
  | none, _ => runtimeError (str (name ++ ": left operand is not numeric"))
  | some _, none => runtimeError (str (name ++ ": right operand is not numeric"))
  | some l, some r => .ok (l, r)

/-- The arithmetic of `Sub`, `Mul`, `Div` and `Mod` on numbers. -/
def numericArithmetic (op : Arithmetic) (lhs rhs : Value) : Operator := fun w => do
  let (l, r) ← arithmeticOperands "arithmetic" lhs rhs
  if op = .div && r.eq (Double.zero false) then
    runtimeError (str "Div: division by zero")
  else if op = .mod && r.eq (Double.zero false) then
    runtimeError (str "Mod: modulo by zero")
  else pure (numericResult lhs rhs (op.apply l r), w)

/-- `Sub`, `Mul`, `Div` and `Mod`; `Sub` on two arrays is their difference. -/
def arithmetic (op : Arithmetic) (lhs rhs : Value) : Operator := fun w =>
  match op, lhs.data, rhs.data with
  | .sub, .array left, .array right =>
      let kept := (w.items left).filter fun item => !hasEqual (w.items right) item
      let (w, data) := w.newArray kept
      .ok (⟨data, false, false⟩, w)
  | _, _, _ => numericArithmetic op lhs rhs w

/-- The comparison instructions. -/
inductive Comparison
  | lt | lte | gt | gte

/-- The comparison of two `double` operands. -/
def Comparison.apply : Comparison → Double → Double → Bool
  | .lt, l, r => l.lt r
  | .lte, l, r => l.le r
  | .gt, l, r => r.lt l
  | .gte, l, r => r.le l

/-- `Lt`, `Lte`, `Gt` and `Gte`. -/
def comparison (op : Comparison) (lhs rhs : Value) : Operator := fun w => do
  let (l, r) ← arithmeticOperands "comparison" lhs rhs
  pure (Value.ofBool (op.apply l r), w)

/-! ## Bit operations and set operations on arrays -/

/-- `BitAnd`: conjunction of integers, intersection of arrays. -/
def bitAnd (lhs rhs : Value) : Operator := fun w =>
  match lhs.data, rhs.data with
  | .array left, .array right =>
      let kept :=
        match left, right with
        | some left, some right =>
            (w.array left).filter (hasEqual (w.array right))
        | _, _ => []
      let (w, data) := w.newArray kept
      .ok (⟨data, false, false⟩, w)
  | .int i, .int j => .ok (Value.int (i &&& j), w)
  | _, _ =>
      runtimeError (str "BitAnd: operands must both be ints or both be arrays")

/-- `BitOr`: disjunction of integers, union of arrays. -/
def bitOr (lhs rhs : Value) : Operator := fun w =>
  match lhs.data, rhs.data with
  | .array left, .array right =>
      let added := (w.items right).filter fun item => !hasEqual (w.items left) item
      let (w, data) := w.newArray (w.items left ++ added)
      .ok (⟨data, false, false⟩, w)
  | .int i, .int j => .ok (Value.int (i ||| j), w)
  | _, _ =>
      runtimeError (str "BitOr: operands must both be ints or both be arrays")

/-- `BitXor`. -/
def bitXor (lhs rhs : Value) : Operator := fun w =>
  match lhs.data, rhs.data with
  | .int i, .int j => .ok (Value.int (i ^^^ j), w)
  | _, _ => runtimeError (str "BitXor: operands must both be ints")

/-- `Shl` and `Shr`; a shift amount outside 0..63 is undefined in C++ and taken
modulo 64 here, as on x86-64. -/
def shift (left : Bool) (lhs rhs : Value) : Operator := fun w =>
  match lhs.data, rhs.data with
  | .int i, .int j => .ok (Value.int (if left then i <<< j else i >>> j), w)
  | _, _ =>
      runtimeError (str ((if left then "Shl" else "Shr") ++
        ": operands must both be ints"))

/-- `BitNot`. -/
def bitNot (v : Value) : Operator := fun w =>
  match v.data with
  | .int i => .ok (Value.int (~~~i), w)
  | _ => runtimeError (str "Bad argument to ~")

/-! ## Addition -/

/-- `formatNumberForConcat` on the kinds it is called with. -/
def formatNumberForConcat (v : Value) : Option Str :=
  match v.data with
  | .int i => some (Decimal.ofInt i.toInt)
  | .void => some (str "0")
  | .double d => some d.toFixed
  | _ => none

/-- The name an object pointer contributes to a string. -/
def World.objectName (w : World) : Option ObjectId → Str
  | some ob => w.filename ob
  | none => []

/-- One step of the merge loop of `Add` on mappings. -/
def mergeEntry (right : Mapping) (result : Mapping) (ri : Nat) : Mapping :=
  match right.entries[ri]? with
  | none => result
  | some entry =>
      let row :=
        if right.extraColumns.isEmpty then
          List.replicate (result.width - 1) Value.void
        else (right.extraColumns[ri]?).getD []
      match result.find entry.1 with
      | some li =>
          { result with
            entries := result.entries.modify li fun old => (old.1, entry.2)
            extraColumns :=
              if result.extraColumns.isEmpty then []
              else result.extraColumns.set li row }
      | none =>
          { result with
            entries := result.entries ++ [entry]
            extraColumns :=
              if result.width > 1 then result.extraColumns ++ [row]
              else result.extraColumns }

/-- `Add` on two mappings. -/
def addMappings (left right : Option Ref) : Operator := fun w =>
  let leftMap := left.map w.mapping
  let rightMap := right.map w.mapping
  if left.isSome && right.isSome &&
      (leftMap.map Mapping.width != rightMap.map Mapping.width) then
    runtimeError (str "Add: mappings of different width")
  else
    let start := leftMap.getD ⟨[], (rightMap.map Mapping.width).getD 1, []⟩
    let result :=
      match rightMap with
      | none => start
      | some right => (List.range right.entries.length).foldl (mergeEntry right) start
    let (w, data) := w.newMapping result
    .ok (⟨data, false, false⟩, w)

/-- The index of a kind in `ValueVariant`. -/
def Data.index : Data → Nat
  | .void => 0
  | .nil => 1
  | .int _ => 2
  | .double _ => 3
  | .string _ => 4
  | .symbol _ => 5
  | .object _ => 6
  | .array _ => 7
  | .mapping _ => 8
  | .closure _ => 9
  | .buffer _ => 10

/-- The numeric case of `Add`, and the kinds it does not cover. -/
def addNumbers (lhs rhs : Value) : Operator := fun w =>
  match asArithmeticOperand lhs, asArithmeticOperand rhs with
  | some l, some r => .ok (numericResult lhs rhs (l.add r), w)
  | _, _ =>
      runtimeError (str "Add: unsupported operand types (lhs kind " ++
        Decimal.ofNat lhs.data.index ++ str ", rhs kind " ++
        Decimal.ofNat rhs.data.index ++ str ")")

/-- `Add`. -/
def add (lhs rhs : Value) : Operator := fun w =>
  match lhs.data, rhs.data with
  | .string s, .string t => .ok (Value.string (s ++ t), w)
  | .string s, .object ob => .ok (Value.string (s ++ w.objectName ob), w)
  | .object ob, .string t => .ok (Value.string (w.objectName ob ++ t), w)
  | .array left, .array right =>
      let (w, data) := w.newArray (w.items left ++ w.items right)
      .ok (⟨data, false, false⟩, w)
  | .mapping left, .mapping right => addMappings left right w
  | .string s, _ =>
      match formatNumberForConcat rhs with
      | some t => .ok (Value.string (s ++ t), w)
      | none => addNumbers lhs rhs w
  | _, .string t =>
      match formatNumberForConcat lhs with
      | some s => .ok (Value.string (s ++ t), w)
      | none => addNumbers lhs rhs w
  | _, _ => addNumbers lhs rhs w

/-! ## Indexing -/

/-- The column of a mapping that a sub-index names. -/
def mappingColumn (m : Mapping) : Option Value → Except LpcError Nat
  | none => .ok 0
  | some column =>
      match column.data with
      | .int c =>
          let col := int32 c.toInt
          if col < 0 ∨ m.width ≤ col then
            runtimeError (str "Illegal sub-index " ++ Decimal.ofInt col ++
              str ", mapping width is " ++ Decimal.ofNat m.width ++ str ".")
          else .ok col.toNat
      | _ => runtimeError (str "Illegal sub-index type, expected number.")

/-- The position an array index means, counted from the end under `<`. -/
def effectiveIndex (length : Nat) (fromEnd : Bool) (i : Int64) : Int64 :=
  if fromEnd then Int64.ofNat length - i else i

/-- The array case of `Index`. -/
def indexArray (ref : Ref) (index : Value) (fromEnd : Bool) : Operator := fun w =>
  match index.data with
  | .int i =>
      let items := w.array ref
      let i := (effectiveIndex items.length fromEnd i).toInt
      if i < 0 ∨ items.length ≤ i then
        runtimeError (str "Index: array index out of bounds")
      else
        let v := w.coerceIfDestructed ((items[i.toNat]?).getD Value.void)
        .ok (v, w.setArray ref (items.set i.toNat v))
  | _ => runtimeError (str "Index: array index must be an integer")

/-- The mapping case of `Index`. -/
def indexMapping (ref : Ref) (index : Value) (column : Option Value) :
    Operator := fun w => do
  let m := w.mapping ref
  let col ← mappingColumn m column
  match m.find index with
  | some i => pure (w.coerceIfDestructed (m.getColumn i col), w)
  | none => pure (if column.isSome then Value.int 0 else Value.void, w)

/-- The string case of `Index`: the position after the last byte reads the
terminating NUL. -/
def indexString (s : Str) (index : Value) (fromEnd : Bool) : Operator := fun w =>
  match index.data with
  | .int i =>
      let i := (effectiveIndex s.length fromEnd i).toInt
      if i < 0 ∨ s.length < i then
        runtimeError (str "Index: string index out of bounds")
      else .ok (Value.int (Int64.ofNat ((s[i.toNat]?).getD 0).toNat), w)
  | _ => runtimeError (str "Index: string index must be an integer")

/-- `Index`. -/
def indexValue (target index : Value) (column : Option Value) (fromEnd : Bool) :
    Operator := fun w =>
  match target.data with
  | .array none => runtimeError (str "Index: target array is null")
  | .array (some ref) => indexArray ref index fromEnd w
  | .mapping none => runtimeError (str "Index: target mapping is null")
  | .mapping (some ref) => indexMapping ref index column w
  | .string s => indexString s index fromEnd w
  | _ => runtimeError (str "Index: target is not an array, mapping, or string")

/-- The array case of `IndexAssign`. -/
def assignArray (ref : Ref) (index value : Value) (w : World) :
    Except LpcError World :=
  match index.data with
  | .int i =>
      let items := w.array ref
      if i.toInt < 0 ∨ items.length ≤ i.toInt then
        runtimeError (str "IndexAssign: array index out of bounds")
      else .ok (w.setArray ref (items.set i.toInt.toNat value))
  | _ => runtimeError (str "IndexAssign: array index must be an integer")

/-- The mapping case of `IndexAssign`. -/
def assignMapping (ref : Ref) (index value : Value) (column : Option Value)
    (w : World) : Except LpcError World := do
  let m := w.mapping ref
  let col ← mappingColumn m column
  match m.find index with
  | some i => pure (w.setMapping ref (m.setColumn i col value))
  | none =>
      let values := (List.replicate m.width (Value.int 0)).set col value
      pure (w.setMapping ref (m.appendEntry index values))

/-- `IndexAssign`. -/
def indexAssign (target index value : Value) (column : Option Value) (w : World) :
    Except LpcError World :=
  match target.data with
  | .array none => runtimeError (str "IndexAssign: target array is null")
  | .array (some ref) => assignArray ref index value w
  | .mapping none => runtimeError (str "IndexAssign: target mapping is null")
  | .mapping (some ref) => assignMapping ref index value column w
  | _ => runtimeError (str "IndexAssign: target is not an array or mapping")

/-- The bounds of `RangeIndex` on a sequence of length `len`: the first position
and one past the last. -/
def rangeBounds (len : Nat) (start stop : Int64) (startFromEnd endFromEnd : Bool) :
    Nat × Nat :=
  let first := (effectiveIndex len startFromEnd start).toInt
  let last := (effectiveIndex len endFromEnd stop).toInt
  (first.toNat, (min last (len - 1) + 1).toNat)

/-- `RangeIndex`. -/
def rangeIndex (target start stop : Value) (startFromEnd endFromEnd : Bool) :
    Operator := fun w =>
  match start.data, stop.data with
  | .int i, .int j =>
      if !startFromEnd && i < 0 then
        runtimeError (str "RangeIndex: start index must be non-negative")
      else
        match target.data with
        | .string s =>
            let (first, past) := rangeBounds s.length i j startFromEnd endFromEnd
            .ok (Value.string ((s.take past).drop first), w)
        | .array none => runtimeError (str "RangeIndex: target array is null")
        | .array (some ref) =>
            let items := w.array ref
            let (first, past) := rangeBounds items.length i j startFromEnd endFromEnd
            let (w, data) := w.newArray ((items.take past).drop first)
            .ok (⟨data, false, false⟩, w)
        | _ => runtimeError (str "RangeIndex: target is not an array or string")
  | .int _, _ => runtimeError (str "RangeIndex: end index must be an integer")
  | _, _ => runtimeError (str "RangeIndex: start index must be an integer")

/-- `ForeachKeys`: an array as it is, the keys of a mapping. -/
def foreachKeys (v : Value) : Operator := fun w =>
  match v.data with
  | .array _ => .ok (v, w)
  | .mapping ref =>
      let keys := ((ref.map w.mapping).map fun m => m.entries.map Prod.fst).getD []
      let (w, data) := w.newArray keys
      .ok (⟨data, false, false⟩, w)
  | _ => runtimeError (str "foreach: collection must be an array or mapping")

end Kjdmud.Vm
