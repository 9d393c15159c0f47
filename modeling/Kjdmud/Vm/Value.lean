import Kjdmud.Core.Double

/-!
# Bytecode and values

`include/kjdmud/vm/Bytecode.hpp`: the instructions, the function table and the
compiled program.  A program is shared by pointer in the source; `id` stands
for that pointer, and `inheritedPrograms` holds the programs pointed to.  The
lookup memo `functionChainCache_` is mutable state and is passed on its own.
-/

namespace Kjdmud.Vm

/-- `OpCode`. -/
inductive OpCode
  | pushConst | pushInt | pushFloat | pushNil | pushSymbol
  | pushLocal | storeLocal | pushObjectVar | storeObjectVar
  | add | sub | mul | div | mod
  | bitAnd | bitOr | bitXor | shl | shr | bitNot
  | eq | neq | lt | lte | gt | gte
  | not
  | jump | jumpIfFalse
  | call | callEfun | callParent | callParentQualifierSlot
  | pushClosure | pushEfunClosure | callApply
  | expandVarargs | makeArray | makeMapping
  | index | indexAssign | rangeIndex
  | sscanf | sscanfVarSlot
  | foreachKeys
  | pushCatchFrame | popCatchFrame
  | timeExpressionStart | timeExpressionEnd
  | return | pop | dup | halt | suspend
deriving DecidableEq

/-- `static_cast<int32_t>`. -/
def int32 (n : Int) : Int :=
  n.bmod (2 ^ 32)

/-- `static_cast<uint8_t>`. -/
def uint8 (n : Nat) : Nat :=
  n % 2 ^ 8

/-- `Instruction`; both members are `int32_t` in the source. -/
structure Instruction where
  op : OpCode
  operand : Int := 0
  argCount : Int := 0
deriving DecidableEq

/-- `FunctionEntry`.  `isAsync` is never set by the code generator. -/
structure FunctionEntry where
  name : Str
  entryPoint : Nat
  numArgs : Nat
  numLocals : Nat
  isVarargs : Bool

/-- `CompiledProgram`.  `id` is its address, and `ancestorBaseOffsets` maps
the address of an ancestor to the slot of its first object variable. -/
structure CompiledProgram where
  id : Nat
  code : List Instruction
  functions : List FunctionEntry
  stringPool : List Str
  floatPool : List Double
  objectVarNames : List Str
  inherits : List Str
  inheritedPrograms : List CompiledProgram
  ancestorBaseOffsets : List (Nat × Nat)

/-!
## Values, heap objects and the state of the driver

`include/kjdmud/vm/Value.hpp`, `src/vm/Value.cpp` and the members of `VM` that
a running function reads or changes.  A `shared_ptr` to an array, a mapping, a
closure or a buffer is an index into the heap vector of its kind, a null
pointer is `none`, and a `shared_ptr` to an `LpcObject` is an `ObjectId`.
Nothing is ever freed from the heap: an index stays valid, as a shared pointer
does.
-/

/-- An index into a heap vector. -/
abbrev Ref := Nat

/-- `ValueVariant`. -/
inductive Data
  | void
  | nil
  | int (i : Int64)
  | double (d : Double)
  | string (s : Str)
  | symbol (name : Str)
  | object (ob : Option ObjectId)
  | array (ref : Option Ref)
  | mapping (ref : Option Ref)
  | closure (ref : Option Ref)
  | buffer (ref : Option Ref)
deriving DecidableEq

/-- `Value`. -/
structure Value where
  data : Data
  isUndefined : Bool := false
  isClassInstance : Bool := false
deriving DecidableEq

namespace Value

/-- `Value{}`. -/
def void : Value := ⟨.void, false, false⟩

/-- `Value(int64_t)`. -/
def int (i : Int64) : Value := ⟨.int i, false, false⟩

/-- `Value(double)`. -/
def double (d : Double) : Value := ⟨.double d, false, false⟩

/-- `Value(std::string)`. -/
def string (s : Str) : Value := ⟨.string s, false, false⟩

/-- `Value(static_cast<int64_t>(condition ? 1 : 0))`. -/
def ofBool (condition : Bool) : Value := int (if condition then 1 else 0)

end Value

/-- `isTruthy`. -/
def isTruthy (v : Value) : Bool :=
  match v.data with
  | .void | .nil => false
  | .int i => i != 0
  | .double d => !d.eq (Double.zero false)
  | .string s => !s.isEmpty
  | .symbol _ => true
  | .object ob => ob.isSome
  | .array ref | .mapping ref | .closure ref | .buffer ref => ref.isSome

/-- `valuesEqual`: arrays and mappings are equal to nothing. -/
def valuesEqual (a b : Value) : Bool :=
  match a.data, b.data with
  | .void, .void => true
  | .nil, .nil => true
  | .int i, .int j => i == j
  | .double c, .double d => c.eq d
  | .string s, .string t => s == t
  | .symbol s, .symbol t => s == t
  | .object o, .object p => o == p
  | .closure f, .closure g => f == g
  | .buffer x, .buffer y => x == y
  | _, _ => false

/-- `Mapping`; `extraColumns` is empty or has one row for each entry. -/
structure Mapping where
  entries : List (Value × Value)
  width : Nat
  extraColumns : List (List Value)

namespace Mapping

/-- `Mapping::getColumn`. -/
def getColumn (m : Mapping) (i col : Nat) : Value :=
  if col = 0 then ((m.entries[i]?).map Prod.snd).getD Value.void
  else (((m.extraColumns[i]?).getD [])[col - 1]?).getD Value.void

/-- `Mapping::setColumn`. -/
def setColumn (m : Mapping) (i col : Nat) (v : Value) : Mapping :=
  if col = 0 then { m with entries := m.entries.modify i fun entry => (entry.1, v) }
  else { m with extraColumns := m.extraColumns.modify i fun row => row.set (col - 1) v }

/-- `Mapping::appendEntry`. -/
def appendEntry (m : Mapping) (key : Value) (values : List Value) : Mapping :=
  let extra := (values.drop 1).take (m.width - 1)
  { m with
    entries := m.entries ++ [(key, values.headD Value.void)]
    extraColumns :=
      if m.width > 1 then
        m.extraColumns ++
          [extra ++ List.replicate (m.width - 1 - extra.length) (Value.int 0)]
      else m.extraColumns }

/-- The index of the first entry whose key equals `key`. -/
def find (m : Mapping) (key : Value) : Option Nat :=
  m.entries.findIdx? fun entry => valuesEqual entry.1 key

end Mapping

/-- `Closure`. -/
structure Closure where
  owner : ObjectId
  functionName : Str
  boundArgs : List Value
  forceEfun : Bool
  unboundUntilBound : Bool
  lambdaParams : List Str
  lambdaBody : Value

/-- `LpcObject`, with the members `VM::run` uses.  `expired` says that no
`shared_ptr` to the object is left. -/
structure LpcObject where
  filename : Str
  program : CompiledProgram
  vars : List Value
  isDestructed : Bool
  expired : Bool

/-- `Origin`. -/
inductive Origin
  | driver | local | callOther | simulEfun | internal | efun | functionPointer
  | functional

/-- `DeferEntry`. -/
structure DeferEntry where
  closure : Option Ref
  commandGiver : Option ObjectId

/-- The result of a lookup in an inherit chain, `FunctionLookupResult`. -/
abbrev FunctionLookup :=
  Option (CompiledProgram × FunctionEntry)

/-- The heap, the objects, the lookup memo of every program
(`functionChainCache_`, keyed by program address and name) and the stacks of
the `VM`, the newest entry first. -/
structure World where
  arrays : List (List Value) := []
  mappings : List Mapping := []
  closures : List Closure := []
  buffers : List Str := []
  objects : List LpcObject := []
  functionChainCache : List ((Nat × Str) × FunctionLookup) := []
  callStack : List ObjectId := []
  objectChangeStack : List (Option ObjectId) := []
  functionNameStack : List Str := []
  originStack : List Origin := []
  commandGiverStack : List (Option ObjectId) := []
  deferStack : List (List DeferEntry) := []
  timeExpressionStack : List Int := []
  evalCost : Int := 0
  maxEvalCost : Int := 0

namespace World

/-- The items of an array. -/
def array (w : World) (ref : Ref) : List Value :=
  (w.arrays[ref]?).getD []

/-- The mapping at an index. -/
def mapping (w : World) (ref : Ref) : Mapping :=
  (w.mappings[ref]?).getD ⟨[], 1, []⟩

/-- `std::make_shared<Array>()` with its items. -/
def newArray (w : World) (items : List Value) : World × Data :=
  ({ w with arrays := w.arrays ++ [items] }, .array (some w.arrays.length))

/-- `std::make_shared<Mapping>()` with its contents. -/
def newMapping (w : World) (m : Mapping) : World × Data :=
  ({ w with mappings := w.mappings ++ [m] }, .mapping (some w.mappings.length))

/-- `std::make_shared<Closure>()` with its contents. -/
def newClosure (w : World) (c : Closure) : World × Data :=
  ({ w with closures := w.closures ++ [c] }, .closure (some w.closures.length))

/-- Overwrite the items of an array. -/
def setArray (w : World) (ref : Ref) (items : List Value) : World :=
  { w with arrays := w.arrays.set ref items }

/-- Overwrite a mapping. -/
def setMapping (w : World) (ref : Ref) (m : Mapping) : World :=
  { w with mappings := w.mappings.set ref m }

/-- `variables()` of an object. -/
def vars (w : World) (ob : ObjectId) : List Value :=
  ((w.objects[ob]?).map LpcObject.vars).getD []

/-- Overwrite the variables of an object. -/
def setVars (w : World) (ob : ObjectId) (vars : List Value) : World :=
  { w with objects := w.objects.modify ob fun o => { o with vars := vars } }

/-- `program()` of an object. -/
def program (w : World) (ob : ObjectId) : CompiledProgram :=
  ((w.objects[ob]?).map LpcObject.program).getD ⟨0, [], [], [], [], [], [], [], []⟩

/-- `isDestructed()` of an object. -/
def isDestructed (w : World) (ob : ObjectId) : Bool :=
  ((w.objects[ob]?).map LpcObject.isDestructed).getD false

/-- `filename()` of an object. -/
def filename (w : World) (ob : ObjectId) : Str :=
  ((w.objects[ob]?).map LpcObject.filename).getD []

/-- `coerceIfDestructed`. -/
def coerceIfDestructed (w : World) (v : Value) : Value :=
  match v.data with
  | .object (some ob) => if w.isDestructed ob then Value.int 0 else v
  | _ => v

end World

end Kjdmud.Vm
