import Kjdmud.Vm.Machine

/-!
# Instruction handlers

The cases of the dispatch loop of `VM::run` in `src/vm/VM.cpp`, other than the
jumps and the catch frames.  A handler sees the operand stack, the local slots
and the driver, and says where the instruction pointer goes by a distance.
-/

namespace Kjdmud.Vm

/-! ## Operands and slots -/

/-- The pool entry an operand names. -/
def poolEntry {α : Type} (pool : List α) (operand : Int) : Option α :=
  if operand < 0 then none else pool[operand.toNat]?

/-- Continue with a pool entry, or fail the pool check. -/
def withPool {α : Type} (pool : List α) (operand : Int) (message : String)
    (k : α → Handler) : Handler :=
  match poolEntry pool operand with
  | some entry => k entry
  | none => fail .poolIndex message

/-- A slot operand as an index below a bound. -/
def slotBelow (bound : Nat) (operand : Int) : Option Nat :=
  if operand < 0 ∨ bound ≤ operand.toNat then none else some operand.toNat

/-- `PushLocal`. -/
def pushLocal (operand : Int) : Handler := fun s =>
  match slotBelow s.locals.length operand with
  | none => fail .localSlot "PushLocal: bad local slot index" s
  | some slot =>
      let v := s.world.coerceIfDestructed ((s.locals[slot]?).getD Value.void)
      pushNext v { s with locals := s.locals.set slot v }

/-- `StoreLocal`. -/
def storeLocal (operand : Int) : Handler := fun s =>
  match slotBelow s.locals.length operand, s.localStack with
  | none, _ => fail .localSlot "StoreLocal: bad local slot index" s
  | some _, [] => fail .stackUnderflow "StoreLocal: stack underflow" s
  | some slot, v :: stack =>
      advance { s with locals := s.locals.set slot v, localStack := stack }

/-- `PushObjectVar`. -/
def pushObjectVar (act : Activation) (operand : Int) : Handler := fun s =>
  match slotBelow (s.world.vars act.obj).length (act.objectVarBase + operand) with
  | none => fail .objectVarSlot "PushObjectVar: bad object variable slot index" s
  | some slot =>
      let vars := s.world.vars act.obj
      let v := s.world.coerceIfDestructed ((vars[slot]?).getD Value.void)
      pushNext v { s with world := s.world.setVars act.obj (vars.set slot v) }

/-- `StoreObjectVar`. -/
def storeObjectVar (act : Activation) (operand : Int) : Handler := fun s =>
  match slotBelow (s.world.vars act.obj).length (act.objectVarBase + operand),
      s.localStack with
  | none, _ => fail .objectVarSlot "StoreObjectVar: bad object variable slot index" s
  | some _, [] => fail .stackUnderflow "StoreObjectVar: stack underflow" s
  | some slot, v :: stack =>
      advance { s with
        localStack := stack
        world := s.world.setVars act.obj ((s.world.vars act.obj).set slot v) }

/-- `ExpandVarargs`. -/
def expandVarargs (operand : Int) : Handler := fun s =>
  match slotBelow s.localStack.length operand with
  | none => fail .stackOffset "ExpandVarargs: bad stack offset" s
  | some n =>
      match ((s.localStack[n]?).getD Value.void).data with
      | .array ref =>
          let items := s.world.items ref
          advance { s with
            localStack :=
              s.localStack.take n ++ items.reverse ++ s.localStack.drop (n + 1)
            pendingVarargsDelta := s.pendingVarargsDelta + (items.length - 1) }
      | _ =>
          some (.raise (.lpc (.runtime
            (str "Item being expanded with \"...\" is not an array"))) s)

/-- The argument count of an instruction with the pending spread delta. -/
def argumentCount (instr : Instruction) (s : State) : Int :=
  int32 (instr.argCount + int32 s.pendingVarargsDelta)

/-- The top `argc` operands, the deepest first, and the stack below them. -/
def takeArguments (argc : Int) (stack : List Value) :
    Option (List Value × List Value) :=
  if argc < 0 ∨ stack.length < argc.toNat then none
  else some ((stack.take argc.toNat).reverse, stack.drop argc.toNat)

/-- Take the arguments of a consuming instruction, which clears the pending
spread delta whether or not the count is right. -/
def withArguments (instr : Instruction) (message : Str)
    (k : List Value → Handler) : Handler := fun s =>
  let cleared := { s with pendingVarargsDelta := 0 }
  match takeArguments (argumentCount instr s) s.localStack with
  | none => some (.raise (.internal .argCount message) cleared)
  | some (args, stack) => k args (cleared.withStack stack)

/-- `MakeArray`. -/
def makeArray (instr : Instruction) : Handler :=
  withArguments instr (str "MakeArray: bad arg count") fun args s =>
    let (w, data) := s.world.newArray args
    pushNext ⟨data, false, instr.operand != 0⟩ { s with world := w }

/-- The rows of a mapping literal in a list of operands. -/
def literalRows (width : Nat) : Nat → List Value → List (List Value)
  | 0, _ => []
  | rows + 1, operands =>
      operands.take (width + 1) :: literalRows width rows (operands.drop (width + 1))

/-- `MakeMapping`. -/
def makeMapping (instr : Instruction) : Handler := fun s =>
  let entryCount := argumentCount instr s
  let s := { s with pendingVarargsDelta := 0 }
  let width := (max 1 instr.operand).toNat
  let total := (width + 1) * entryCount.toNat
  if entryCount < 0 ∨ s.localStack.length < total then
    fail .argCount "MakeMapping: bad arg count" s
  else
    let operands := (s.localStack.take total).reverse
    let m := (literalRows width entryCount.toNat operands).foldl
      (fun m row => m.appendEntry (row.headD Value.void) row.tail) ⟨[], width, []⟩
    let (w, data) := s.world.newMapping m
    pushNext ⟨data, false, false⟩
      { s with world := w, localStack := s.localStack.drop total }

/-- A flag bit of `argCount`. -/
def flag (instr : Instruction) (bit : Nat) : Bool :=
  instr.argCount.toNat.testBit bit

/-- `Index`. -/
def index (instr : Instruction) : Handler := fun s =>
  match flag instr 2, s.localStack with
  | true, column :: i :: target :: stack =>
      pushResult (indexValue target i (some column) (flag instr 0) s.world)
        (s.withStack stack)
  | false, i :: target :: stack =>
      pushResult (indexValue target i none (flag instr 0) s.world) (s.withStack stack)
  | _, _ => fail .stackUnderflow "Index: stack underflow" s

/-- The effect of an assignment that leaves no value. -/
def assigned (result : Except LpcError World) : Handler := fun s =>
  match result with
  | .ok w => advance { s with world := w }
  | .error error => some (.raise (.lpc error) s)

/-- `IndexAssign`. -/
def indexAssignInstr (instr : Instruction) : Handler := fun s =>
  match flag instr 2, s.localStack with
  | true, value :: column :: i :: target :: stack =>
      assigned (indexAssign target i value (some column) s.world) (s.withStack stack)
  | false, value :: i :: target :: stack =>
      assigned (indexAssign target i value none s.world) (s.withStack stack)
  | _, _ => fail .stackUnderflow "IndexAssign: stack underflow" s

/-- `RangeIndex`. -/
def rangeIndexInstr (instr : Instruction) : Handler := fun s =>
  match s.localStack with
  | stop :: start :: target :: stack =>
      pushResult (rangeIndex target start stop (flag instr 0) (flag instr 1) s.world)
        (s.withStack stack)
  | _ => fail .stackUnderflow "RangeIndex: stack underflow" s

/-- The resolution of a `Call` after its arguments are taken: the object's own
inherit chain, the simul_efun object, the efun table. -/
def callByName (env : Env) (run : Runner) (obj : ObjectId) (name : Str)
    (args : List Value) (w : World) : Option (Outcome × World) :=
  match w.findFunction (w.program obj) name with
  | (some (program, fn), w) => withOrigin .local (run ⟨program, fn, args, obj⟩) w
  | (none, w) =>
      let (found, w) :=
        match env.simulEfun w with
        | some simulEfun =>
            let (found, w) := w.findFunction (w.program simulEfun) name
            (found.map fun found => (simulEfun, found), w)
        | none => (none, w)
      match found with
      | some (simulEfun, program, fn) =>
          withOrigin .simulEfun (run ⟨program, fn, args, simulEfun⟩) w
      | none =>
          if env.efunExists name then env.efunCall run name args w
          else throwFrom (str "undefined function or efun: " ++ name) w

/-- `Call`. -/
def call (env : Env) (run : Runner) (act : Activation) (instr : Instruction) :
    Handler :=
  withPool act.program.stringPool instr.operand "Call: bad function name index"
    fun name =>
      withArguments instr (str "Call: bad arg count for " ++ name) fun args s =>
        pushOutcome 1 (callByName env run act.obj name args s.world) s

/-- `CallEfun`. -/
def callEfun (env : Env) (run : Runner) (act : Activation) (instr : Instruction) :
    Handler :=
  withPool act.program.stringPool instr.operand "CallEfun: bad efun name index"
    fun name =>
      withArguments instr (str "CallEfun: bad arg count for " ++ name) fun args s =>
        pushOutcome 1 (env.efunCall run name args s.world) s

/-- The qualifier in the data instruction after a `CallParent`. -/
def parentQualifier (act : Activation) (ip : Nat) : Except (Check × String) (Option Str) :=
  match act.program.code[ip + 1]? with
  | some slot =>
      if slot.op = .callParentQualifierSlot then
        if slot.operand < 0 then .ok none
        else
          match poolEntry act.program.stringPool slot.operand with
          | some qualifier => .ok (some qualifier)
          | none => .error (.poolIndex, "CallParent: bad qualifier string index")
      else .error (.missingQualifier, "CallParent: missing qualifier data instruction")
  | none => .error (.missingQualifier, "CallParent: missing qualifier data instruction")

/-- The resolution of a `CallParent` after its arguments are taken. -/
def callParentByName (run : Runner) (act : Activation) (name : Str)
    (qualifier : Option Str) (args : List Value) (w : World) :
    Option (Outcome × World) :=
  let (found, cache) :=
    findParentFunction act.program name qualifier w.functionChainCache
  let w := { w with functionChainCache := cache }
  match found with
  | some (program, fn) => withOrigin .local (run ⟨program, fn, args, act.obj⟩) w
  | none =>
      throwFrom (qualifier.getD [] ++ str "::" ++ name ++
        str "(): undefined function in inherited program") w

/-- `CallParent`, which steps over its data instruction. -/
def callParent (run : Runner) (act : Activation) (ip : Nat) (instr : Instruction) :
    Handler :=
  withPool act.program.stringPool instr.operand "CallParent: bad function name index"
    fun name =>
      match parentQualifier act ip with
      | .error (check, message) => fail check message
      | .ok qualifier =>
          withArguments instr (str "CallParent: bad arg count for " ++ name)
            fun args s =>
              pushOutcome 2 (callParentByName run act name qualifier args s.world) s

/-- `PushClosure` and `PushEfunClosure`. -/
def pushClosure (act : Activation) (instr : Instruction) (name : String)
    (forceEfun : Bool) : Handler :=
  withPool act.program.stringPool instr.operand (name ++ ": bad function name index")
    fun functionName s =>
      match takeArguments instr.argCount s.localStack with
      | none =>
          some (.raise (.internal .argCount
            (str (name ++ ": bad bound-arg count for ") ++ functionName)) s)
      | some (boundArgs, stack) =>
          let (w, data) := s.world.newClosure
            ⟨act.obj, functionName, boundArgs, forceEfun, false, [], Value.void⟩
          pushNext ⟨data, false, false⟩ { s with world := w, localStack := stack }

/-- The write of one output of `sscanf` through its entry of the slot table. -/
def assignOutput (act : Activation) (slotSpec : Instruction) (v : Value) (s : State) :
    Except (Check × String) State :=
  if slotSpec.argCount ≠ 0 then
    match slotBelow (s.world.vars act.obj).length slotSpec.operand with
    | none => .error (.objectVarSlot, "Sscanf: bad object variable slot index")
    | some slot =>
        .ok { s with
          world := s.world.setVars act.obj ((s.world.vars act.obj).set slot v) }
  else
    match slotBelow s.locals.length slotSpec.operand with
    | none => .error (.localSlot, "Sscanf: bad local slot index")
    | some slot => .ok { s with locals := s.locals.set slot v }

/-- The writes of the outputs of `sscanf` in order; a failed write keeps the
ones before it. -/
def assignOutputs (act : Activation) :
    List Instruction → List Value → State → Option (Check × String) × State
  | slotSpec :: table, v :: assigned, s =>
      match assignOutput act slotSpec v s with
      | .error failure => (some failure, s)
      | .ok s => assignOutputs act table assigned s
  | _, _, s => (none, s)

/-- `Sscanf` on two strings and its slot table. -/
def scanInto (env : Env) (act : Activation) (table : List Instruction)
    (input format : Str) : Handler := fun s =>
  match runSscanf env.scan input format table.length with
  | .error error => some (.raise (.lpc error) s)
  | .ok outcome =>
      match assignOutputs act table outcome.assigned s with
      | (some (check, message), s) => fail check message s
      | (none, s) =>
          some (.next (1 + table.length)
            (s.push (Value.int (Int64.ofNat outcome.matchCount))))

/-- `Sscanf`. -/
def sscanf (env : Env) (act : Activation) (ip : Nat) (instr : Instruction) :
    Handler := fun s =>
  if instr.operand < 0 then fail .varCount "Sscanf: bad var count" s
  else
    match s.localStack with
    | format :: target :: stack =>
        let s := s.withStack stack
        match target.data, format.data with
        | .string input, .string format =>
            let n := instr.operand.toNat
            if act.program.code.length < ip + 1 + n then
              fail .slotTable "Sscanf: truncated var-slot table" s
            else
              scanInto env act ((act.program.code.drop (ip + 1)).take n) input format s
        | _, _ =>
            some (.raise (.lpc (.runtime
              (str "sscanf: first two arguments must be strings"))) s)
    | _ => fail .stackUnderflow "Sscanf: stack underflow" s

/-- `TimeExpressionStart`. -/
def timeExpressionStart (env : Env) : Handler := fun s =>
  advance { s with
    world := { s.world with
      timeExpressionStack := env.steadyClock s.world :: s.world.timeExpressionStack } }

/-- `TimeExpressionEnd`. -/
def timeExpressionEnd (env : Env) : Handler := fun s =>
  match s.world.timeExpressionStack with
  | [] => fail .timeExpression "TimeExpressionEnd: no active time_expression" s
  | start :: stack =>
      let elapsed := Int64.ofInt (env.steadyClock s.world - start)
      pushNext (Value.int elapsed)
        { s with world := { s.world with timeExpressionStack := stack } }

/-- `Pop`, which leaves an empty stack alone. -/
def pop : Handler := fun s =>
  advance (s.withStack s.localStack.tail)

/-- `Dup`. -/
def dup : Handler := fun s =>
  match s.localStack with
  | [] => fail .stackUnderflow "Dup: stack underflow" s
  | v :: _ => pushNext v s

/-- `Return`. -/
def returnTop : Handler := fun s =>
  some (.return (s.localStack.headD Value.void) s)

/-- The instructions other than the jumps and the catch frames. -/
def execute (env : Env) (run : Runner) (act : Activation) (ip : Nat)
    (instr : Instruction) : Handler :=
  match instr.op with
  | .pushConst =>
      withPool act.program.stringPool instr.operand
        "PushConst: bad string pool index" fun text => pushNext (Value.string text)
  | .pushInt => pushNext (Value.int (Int64.ofInt instr.operand))
  | .pushFloat =>
      withPool act.program.floatPool instr.operand
        "PushFloat: bad float pool index" fun d => pushNext (Value.double d)
  | .pushNil => pushNext ⟨.nil, false, false⟩
  | .pushSymbol =>
      withPool act.program.stringPool instr.operand
        "PushSymbol: bad symbol name index"
        fun name => pushNext ⟨.symbol name, false, false⟩
  | .pushLocal => pushLocal instr.operand
  | .storeLocal => storeLocal instr.operand
  | .pushObjectVar => pushObjectVar act instr.operand
  | .storeObjectVar => storeObjectVar act instr.operand
  | .eq => binary "Eq/Neq" fun lhs rhs w => .ok (Value.ofBool (valuesEqual lhs rhs), w)
  | .neq => binary "Eq/Neq" fun lhs rhs w => .ok (Value.ofBool (!valuesEqual lhs rhs), w)
  | .lt => binary "comparison" (comparison .lt)
  | .lte => binary "comparison" (comparison .lte)
  | .gt => binary "comparison" (comparison .gt)
  | .gte => binary "comparison" (comparison .gte)
  | .not => unary "Not" fun v w => .ok (Value.ofBool (!isTruthy v), w)
  | .sub => binary "arithmetic" (arithmetic .sub)
  | .mul => binary "arithmetic" (arithmetic .mul)
  | .div => binary "arithmetic" (arithmetic .div)
  | .mod => binary "arithmetic" (arithmetic .mod)
  | .bitAnd => binary "BitAnd" bitAnd
  | .bitOr => binary "BitOr" bitOr
  | .bitXor => binary "BitXor" bitXor
  | .shl => binary "Shl/Shr" (shift true)
  | .shr => binary "Shl/Shr" (shift false)
  | .bitNot => unary "BitNot" bitNot
  | .foreachKeys => unary "ForeachKeys" foreachKeys
  | .add => binary "Add" add
  | .expandVarargs => expandVarargs instr.operand
  | .makeArray => makeArray instr
  | .makeMapping => makeMapping instr
  | .index => index instr
  | .indexAssign => indexAssignInstr instr
  | .rangeIndex => rangeIndexInstr instr
  | .call => call env run act instr
  | .callParent => callParent run act ip instr
  | .callEfun => callEfun env run act instr
  | .pushClosure => pushClosure act instr "PushClosure" false
  | .pushEfunClosure => pushClosure act instr "PushEfunClosure" true
  | .sscanf => sscanf env act ip instr
  | .timeExpressionStart => timeExpressionStart env
  | .timeExpressionEnd => timeExpressionEnd env
  | .pop => pop
  | .dup => dup
  | .return => returnTop
  | .halt => fun s => some (.return Value.void s)
  | .jump | .jumpIfFalse | .pushCatchFrame | .popCatchFrame
  | .callParentQualifierSlot | .callApply | .sscanfVarSlot | .suspend => fun s =>
      some (.raise (.lpc (.notImplemented
        (str "VM::run opcode " ++ Decimal.ofNat instr.op.ctorIdx))) s)

end Kjdmud.Vm
