import Kjdmud.Vm.Instructions

/-!
# The dispatch loop

`VM::run` of `src/vm/VM.cpp`: one round of the loop with its catch handlers, and
the loop.
-/

namespace Kjdmud.Vm

/-! ## One step -/

/-- What one step leads to: another configuration, or the end of the
activation. -/
inductive Next
  | running (config : Config)
  | done (outcome : Outcome) (w : World)

/-- `localStack.resize(depth)`. -/
def resize (depth : Nat) (stack : List Value) : List Value :=
  List.replicate (depth - stack.length) Value.void ++
    stack.drop (stack.length - depth)

/-- Resume at the newest catch frame with a value, or leave the activation. -/
def resume (frames : List CatchFrame) (v : Value) (s : State) (uncaught : LpcError) :
    Next :=
  match frames with
  | [] => .done (.error uncaught) s.world
  | frame :: frames =>
      .running ⟨frame.resumeIp, frames,
        s.withStack (v :: resize frame.stackDepth s.localStack)⟩

/-- The catch handlers of `VM::run`. -/
def trap (act : Activation) (frames : List CatchFrame) (error : LpcError)
    (s : State) : Next :=
  match error with
  | .thrown v => resume frames v s (.thrown v)
  | .runtime message =>
      resume frames (Value.string message) s
        (.runtime (s.world.filename act.obj ++ str "::" ++ act.fn.name ++
          str "(): " ++ message))
  | .evalCost _ | .notImplemented _ => .done (.error error) s.world

/-- A jump target inside the code or at its end. -/
def jumpTarget (act : Activation) (operand : Int) : Option Nat :=
  if operand < 0 ∨ act.program.code.length < operand.toNat then none
  else some operand.toNat

/-- Where an instruction leads. -/
def Effect.apply (act : Activation) (c : Config) : Effect → Next
  | .next words s => .running ⟨c.ip + words, c.catchFrames, s⟩
  | .raise fault s => trap act c.catchFrames fault.toError s
  | .return v s => .done (.ok v) s.world

/-- Fail a check in a control instruction. -/
def reject (act : Activation) (c : Config) (check : Check) (message : String)
    (s : State) : Next :=
  (Effect.raise (.internal check (str message)) s).apply act c

/-- `Jump`. -/
def jump (act : Activation) (c : Config) (instr : Instruction) (s : State) : Next :=
  match jumpTarget act instr.operand with
  | none => reject act c .jumpTarget "Jump: bad target" s
  | some target => .running ⟨target, c.catchFrames, s⟩

/-- `JumpIfFalse`. -/
def jumpIfFalse (act : Activation) (c : Config) (instr : Instruction) (s : State) :
    Next :=
  match s.localStack with
  | [] => reject act c .stackUnderflow "JumpIfFalse: stack underflow" s
  | cond :: stack =>
      if isTruthy cond then .running ⟨c.ip + 1, c.catchFrames, s.withStack stack⟩
      else
        match jumpTarget act instr.operand with
        | none => reject act c .jumpTarget "JumpIfFalse: bad target" (s.withStack stack)
        | some target => .running ⟨target, c.catchFrames, s.withStack stack⟩

/-- `PushCatchFrame`. -/
def pushCatchFrame (act : Activation) (c : Config) (instr : Instruction) (s : State) :
    Next :=
  match jumpTarget act instr.operand with
  | none => reject act c .jumpTarget "PushCatchFrame: bad resume target" s
  | some target =>
      .running ⟨c.ip + 1, ⟨target, s.localStack.length⟩ :: c.catchFrames, s⟩

/-- `PopCatchFrame`. -/
def popCatchFrame (act : Activation) (c : Config) (s : State) : Next :=
  match c.catchFrames with
  | [] => reject act c .catchFrame "PopCatchFrame: no active catch frame" s
  | _ :: frames => .running ⟨c.ip + 1, frames, s.push (Value.int 0)⟩

/-- The instruction at the instruction pointer, after its cost is charged. -/
def dispatch (env : Env) (run : Runner) (act : Activation) (c : Config)
    (instr : Instruction) (s : State) : Option Next :=
  match instr.op with
  | .jump => some (jump act c instr s)
  | .jumpIfFalse => some (jumpIfFalse act c instr s)
  | .pushCatchFrame => some (pushCatchFrame act c instr s)
  | .popCatchFrame => some (popCatchFrame act c s)
  | _ => (execute env run act c.ip instr s).map (Effect.apply act c)

/-- One round of the loop of `VM::run`. -/
def step (env : Env) (run : Runner) (act : Activation) (c : Config) : Option Next :=
  match act.program.code[c.ip]? with
  | none => some (.done (.ok Value.void) c.state.world)
  | some instr =>
      let w := { c.state.world with evalCost := c.state.world.evalCost + 1 }
      if w.maxEvalCost < w.evalCost then
        some (.done (.error (.evalCost (str "eval cost exceeded"))) w)
      else dispatch env run act c instr { c.state with world := w }

/-! ## Whole runs -/

/-- The loop of `VM::run` for at most `rounds` rounds. -/
def loop (env : Env) (run : Runner) (act : Activation) :
    Nat → Config → Option (Outcome × World)
  | 0, _ => none
  | rounds + 1, c =>
      match step env run act c with
      | none => none
      | some (.done outcome w) => some (outcome, w)
      | some (.running c) => loop env run act rounds c

end Kjdmud.Vm
