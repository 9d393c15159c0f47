import Kjdmud.Vm.FunctionLookup
import Kjdmud.Vm.Sscanf

/-!
# The interpreter state

The local variables of `VM::run` in `src/vm/VM.cpp`, what one instruction can
do to them, and the parts of the driver that are not modelled: the efun table,
the clock and the configuration.
-/

namespace Kjdmud.Vm

/-- The result of a call: a value, or what it throws. -/
abbrev Outcome :=
  Except LpcError Value

/-- The arguments of `VM::run`. -/
structure Call where
  program : CompiledProgram
  fn : FunctionEntry
  args : List Value
  obj : ObjectId

/-- Running a call to its end; `none` is a call that is still running when the
budget of the interpreter is spent. -/
abbrev Runner :=
  Call → World → Option (Outcome × World)

/-- What `VM::run` uses of the rest of the driver. -/
structure Env where
  /-- `objects_.simulEfunObject()`. -/
  simulEfun : World → Option ObjectId
  /-- `EfunTable::exists`. -/
  efunExists : Str → Bool
  /-- `EfunTable::call`; an efun may run calls of its own. -/
  efunCall : Runner → Str → List Value → World → Option (Outcome × World)
  /-- `std::chrono::steady_clock::now()` in microseconds. -/
  steadyClock : World → Int
  /-- The library functions of `sscanf`. -/
  scan : ScanLibrary

/-- A driver without objects and efuns. -/
def Env.idle : Env where
  simulEfun := fun _ => none
  efunExists := fun _ => false
  efunCall := fun _ _ _ _ => none
  steadyClock := fun _ => 0
  scan := { regexMatch := fun _ _ _ _ => .ok none, strtod := fun _ => none }

/-- The part of `VM::run`'s locals that the instructions compute with, and the
driver.  The top of the operand stack stands first. -/
structure State where
  locals : List Value
  localStack : List Value
  pendingVarargsDelta : Int
  world : World

/-- `VM::run`'s `CatchFrame`. -/
structure CatchFrame where
  resumeIp : Nat
  stackDepth : Nat

/-- The constants of one activation of `VM::run`. -/
structure Activation where
  program : CompiledProgram
  fn : FunctionEntry
  obj : ObjectId
  objectVarBase : Nat

/-- The instruction pointer, the catch frames (newest first) and the rest of
the state of one activation. -/
structure Config where
  ip : Nat
  catchFrames : List CatchFrame
  state : State

/-! ## Faults -/

/-- The kinds of check an instruction makes of the code that runs it. -/
inductive Check
  | poolIndex | localSlot | objectVarSlot | stackUnderflow | jumpTarget
  | argCount | stackOffset | missingQualifier | catchFrame | timeExpression
  | varCount | slotTable

/-- What one instruction throws: a failed check with its message, or an
error. -/
inductive Fault
  | internal (check : Check) (message : Str)
  | lpc (error : LpcError)

/-- A fault as the exception it is. -/
def Fault.toError : Fault → LpcError
  | .internal _ message => .runtime message
  | .lpc error => error

/-- What an instruction does: go on with the instruction `words` further on, go
to a position, throw, or end the activation. -/
inductive Effect
  | next (words : Nat) (s : State)
  | raise (fault : Fault) (s : State)
  | return (v : Value) (s : State)

/-- An instruction other than a jump. -/
abbrev Handler :=
  State → Option Effect

/-- The state with another operand stack. -/
def State.withStack (s : State) (stack : List Value) : State :=
  { s with localStack := stack }

/-- The state with a value pushed. -/
def State.push (s : State) (v : Value) : State :=
  { s with localStack := v :: s.localStack }

/-- Throw a failed check. -/
def fail (check : Check) (message : String) : Handler := fun s =>
  some (.raise (.internal check (str message)) s)

/-- Go on with the next instruction. -/
def advance : Handler := fun s =>
  some (.next 1 s)

/-- Push a value and go on. -/
def pushNext (v : Value) : Handler := fun s =>
  some (.next 1 (s.push v))

/-- Push the value of an operator and go on. -/
def pushResult (result : Except LpcError (Value × World)) : Handler := fun s =>
  match result with
  | .ok (v, w) => some (.next 1 ({ s with world := w }.push v))
  | .error error => some (.raise (.lpc error) s)

/-- Push the result of a call and go on. -/
def pushOutcome (words : Nat) (result : Option (Outcome × World)) : Handler :=
  fun s =>
    match result with
    | none => none
    | some (.ok v, w) => some (.next words ({ s with world := w }.push v))
    | some (.error error, w) => some (.raise (.lpc error) { s with world := w })

/-- A one-operand instruction. -/
def unary (name : String) (apply : Value → Operator) : Handler := fun s =>
  match s.localStack with
  | v :: stack => pushResult (apply v s.world) (s.withStack stack)
  | [] => fail .stackUnderflow (name ++ ": stack underflow") s

/-- A two-operand instruction. -/
def binary (name : String) (apply : Value → Value → Operator) : Handler := fun s =>
  match s.localStack with
  | rhs :: lhs :: stack => pushResult (apply lhs rhs s.world) (s.withStack stack)
  | _ => fail .stackUnderflow (name ++ ": stack underflow") s

/-- A call under an `OriginGuard`. -/
def withOrigin (origin : Origin) (body : World → Option (Outcome × World))
    (w : World) : Option (Outcome × World) :=
  (body { w with originStack := origin :: w.originStack }).map fun (outcome, w) =>
    (outcome, { w with originStack := w.originStack.tail })

/-- Throw out of a call. -/
def throwFrom (message : Str) (w : World) : Option (Outcome × World) :=
  some (.error (.runtime message), w)

/-- The object-variable base offset that `VM::run` looks up. -/
def objectVarBase (w : World) (program : CompiledProgram) (obj : ObjectId) :
    Option Nat :=
  if program.id = (w.program obj).id then some 0
  else (w.program obj).ancestorBaseOffsets.lookup program.id

end Kjdmud.Vm
