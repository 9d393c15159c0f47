import Kjdmud.Compiler.Execution.Operations

/-!
# The structured functions of a program

An abstract `generate`: it lowers every function body of a program, those of closure literals
included, in the order in which the code generator emits them.  The code generator lays these
functions out one behind the other.
-/

namespace Kjdmud.Compiler

open Kjdmud.Vm Kjdmud.Structured Kjdmud.StateExcept

/-! ## Lowering -/

/-- A function with a structured body. -/
structure LoweredFunction where
  name : Str
  body : Code Op
  numArgs : Nat
  numLocals : Nat
  isVarargs : Bool

/-- The functions that some part of `generate` emits. -/
abbrev LowerFunctions :=
  Naming (List LoweredFunction)

/-- The `Return` behind every body. -/
def returnOp : Op where
  instr := ⟨.return, 0, 0⟩

namespace LoweredFunction

/-- The whole code of a function. -/
def code (f : LoweredFunction) : Code Op :=
  .seq f.body (.op returnOp)

/-- The entry of the function table. -/
def entry (f : LoweredFunction) (entryPoint : Nat) : FunctionEntry :=
  ⟨f.name, entryPoint, f.numArgs, f.numLocals, f.isVarargs⟩

/-- No jump leaves the body. -/
def Closed (f : LoweredFunction) : Prop :=
  ∀ pc, f.body.holes pc = []

end LoweredFunction

/-- `finishFunction`. -/
def lowerFunction (name : Str) (body : Lower) (numArgs : Nat) (isVarargs : Bool) :
    LowerFunctions := do
  let code ← body
  let names ← get
  pure [⟨name, code, uint8 numArgs, uint8 names.nextLocalSlot, isVarargs⟩]

/-- Functions in sequence. -/
def appendFunctions (first second : LowerFunctions) : LowerFunctions := do
  let fs ← first
  let gs ← second
  pure (fs ++ gs)

/-- `emitLambdaBody`. -/
def lowerLambdaBody : List Lower → Lower
  | [] => pure .skip
  | [last] => last
  | expr :: exprs => inOrder [expr, one ⟨.pop, 0, 0⟩, lowerLambdaBody exprs]

/-- `emitPendingLambda`. -/
def lowerPendingLambda (pending : PendingLambda) : LowerFunctions := do
  clearNames
  reserveLambdaSlots pending
  lowerFunction pending.name (lowerLambdaBody (lowerExprs pending.bodyExprs)) pending.paramCount
    false

/-- A body with parameters. -/
def lowerParamBody (name : Str) (params : List Param) (isVarargs : Bool) (body : List AstNode) :
    LowerFunctions := do
  clearNames
  declareParams params
  lowerFunction name (lowerBlock (lowerStatements body)) params.length isVarargs

/-- `emitPendingAnonFunc`. -/
def lowerPendingAnonFunc (pending : PendingAnonFunc) : LowerFunctions :=
  lowerParamBody pending.name pending.params pending.isVarargs pending.body

/-- `emitPendingLambdas`. -/
def lowerPendingLambdas : Nat → Nat → LowerFunctions
  | 0, _ => throw .budget
  | budget + 1, i => do
      match (← get).pendingLambdas[i]? with
      | none =>
          modify fun names => { names with pendingLambdas := [] }
          pure []
      | some pending =>
          appendFunctions (lowerPendingLambda pending) (lowerPendingLambdas budget (i + 1))

/-- `emitPendingAnonFuncs`. -/
def lowerPendingAnonFuncs : Nat → Nat → LowerFunctions
  | 0, _ => throw .budget
  | budget + 1, i => do
      match (← get).pendingAnonFuncs[i]? with
      | none =>
          modify fun names => { names with pendingAnonFuncs := [] }
          pure []
      | some pending =>
          appendFunctions (lowerPendingAnonFunc pending) (lowerPendingAnonFuncs budget (i + 1))

/-- `drainPending`. -/
def lowerPending (budget : Nat) : Nat → LowerFunctions
  | 0 => throw .budget
  | rounds + 1 => do
      let names ← get
      if names.pendingLambdas.isEmpty ∧ names.pendingAnonFuncs.isEmpty then pure []
      else
        appendFunctions (lowerPendingLambdas budget 0)
          (appendFunctions (lowerPendingAnonFuncs budget 0) (lowerPending budget rounds))

/-- `emitFunctions`. -/
def lowerFunctions (budget : Nat) : List FunctionDecl → LowerFunctions
  | [] => pure []
  | fn :: fns =>
      appendFunctions
        (match fn.body with
          | some body =>
              appendFunctions (lowerParamBody fn.name fn.params fn.isVarargs body)
                (lowerPending budget budget)
          | none => pure [])
        (lowerFunctions budget fns)

/-- `emitInitializers`. -/
def lowerInitializers : List (Nat × AstNode) → Lower
  | [] => pure .skip
  | (slot, initExpr) :: initializers =>
      inOrder [lowerExpr initExpr, one ⟨.storeObjectVar, slot, 0⟩,
        lowerInitializers initializers]

/-- `emitObjVarInit`. -/
def lowerObjVarInit (budget : Nat) (initializers : List (Nat × AstNode)) : LowerFunctions :=
  if initializers.isEmpty then pure []
  else
    appendFunctions
      (do
        clearNames
        lowerFunction (str "$objvarinit") (lowerInitializers initializers) 0 false)
      (lowerPendingLambdas budget 0)

/-- The structured functions of a program, in the order of its function table. -/
def lowerProgram (budget : Nat) (program : Program) (inheritedObjectVarNames : List Str) :
    Except GenError (List LoweredFunction) := do
  let (functions, _) ←
    (appendFunctions
      (lowerObjVarInit budget (pendingVarInitializers program inheritedObjectVarNames))
      (lowerFunctions budget program.functions)).run
        (initialState program inheritedObjectVarNames).toNames
  pure functions

/-! ## Bodies that are no blocks -/

theorem realizes_lambdaBody (nodes : List AstNode) :
    Realizes (emitLambdaBody (exprEmitters nodes)) (lowerLambdaBody (lowerExprs nodes)) := by
  induction nodes with
  | nil => exact .skip
  | cons node nodes ih =>
      cases nodes with
      | nil => exact realizes_expr node
      | cons next nodes => exact (realizes_expr node).andThen ((Realizes.one _).andThen ih)

theorem emits_lambdaBody (nodes : List AstNode) : Yields (lowerLambdaBody (lowerExprs nodes)) := by
  induction nodes with
  | nil => exact .skip
  | cons node nodes ih =>
      cases nodes with
      | nil => exact emits_expr node
      | cons next nodes => exact (emits_expr node).andThen ((Yields.one rfl).andThen ih)

theorem realizes_initializers (initializers : List (Nat × AstNode)) :
    Realizes (emitInitializers initializers) (lowerInitializers initializers) := by
  induction initializers with
  | nil => exact .skip
  | cons entry initializers ih => exact (realizes_expr _).andThen ((Realizes.one _).andThen ih)

theorem emits_initializers (initializers : List (Nat × AstNode)) :
    Yields (lowerInitializers initializers) := by
  induction initializers with
  | nil => exact .skip
  | cons entry initializers ih => exact (emits_expr _).andThen ((Yields.one rfl).andThen ih)

/-! ## The layout of functions -/

/-- The code of some functions from `pc` on. -/
def layoutFunctions : Nat → List LoweredFunction → List Instruction
  | _, [] => []
  | pc, f :: fs => layout openTargets f.code pc ++ layoutFunctions (pc + f.code.size) fs

/-- The entries of some functions that are laid out from `pc` on. -/
def entriesFrom : Nat → List LoweredFunction → List FunctionEntry
  | _, [] => []
  | pc, f :: fs => f.entry pc :: entriesFrom (pc + f.code.size) fs

/-- The length of some functions. -/
def sizeOf : List LoweredFunction → Nat
  | [] => 0
  | f :: fs => f.code.size + sizeOf fs

theorem length_layoutFunctions (pc : Nat) (fs : List LoweredFunction) :
    (layoutFunctions pc fs).length = sizeOf fs := by
  induction fs generalizing pc with
  | nil => rfl
  | cons f fs ih => rw [layoutFunctions, List.length_append, length_layout, ih, sizeOf]

theorem layoutFunctions_append (pc : Nat) (fs gs : List LoweredFunction) :
    layoutFunctions pc (fs ++ gs) =
      layoutFunctions pc fs ++ layoutFunctions (pc + sizeOf fs) gs := by
  induction fs generalizing pc with
  | nil => rfl
  | cons f fs ih =>
      rw [List.cons_append, layoutFunctions, layoutFunctions, ih, List.append_assoc, sizeOf,
        Nat.add_assoc]

theorem entriesFrom_append (pc : Nat) (fs gs : List LoweredFunction) :
    entriesFrom pc (fs ++ gs) = entriesFrom pc fs ++ entriesFrom (pc + sizeOf fs) gs := by
  induction fs generalizing pc with
  | nil => rfl
  | cons f fs ih =>
      rw [List.cons_append, entriesFrom, entriesFrom, ih, List.cons_append, sizeOf, Nat.add_assoc]

/-- A function stands at its entry point, up to that of the next one. -/
theorem layoutFunctions_get {fs : List LoweredFunction} {f : LoweredFunction} {i pc : Nat}
    (found : fs[i]? = some f) (before : List Instruction) (position : before.length = pc) :
    ∃ entryPoint, (entriesFrom pc fs)[i]? = some (f.entry entryPoint) ∧
      layout openTargets f.code entryPoint <+:
        (before ++ layoutFunctions pc fs).drop entryPoint ∧
      ((entriesFrom pc fs)[i + 1]?.map FunctionEntry.entryPoint).getD (pc + sizeOf fs) =
        entryPoint + f.code.size := by
  induction fs generalizing i pc before with
  | nil => cases found
  | cons g fs ih =>
      cases i with
      | zero =>
          cases found
          refine ⟨pc, rfl, ?_, ?_⟩
          · rw [List.drop_left' position, layoutFunctions]
            exact List.prefix_append _ _
          · cases fs <;> rfl
      | succ i =>
          have behind := @ih i (pc + g.code.size) found
            (before ++ layout openTargets g.code pc) (by simp [position])
          rw [layoutFunctions, ← List.append_assoc, sizeOf, ← Nat.add_assoc]
          exact behind

/-! ## Refinement -/

/-- Emitting from `gen` to `gen'` has appended some functions. -/
structure Compiled (gen gen' : CodeGen) (fs : List LoweredFunction) : Prop where
  functions : gen'.functions = gen.functions ++ entriesFrom gen.code.length fs
  code : gen'.code = gen.code ++ layoutFunctions gen.code.length fs
  closed : ∀ f ∈ fs, f.Closed
  emitted : ∀ f ∈ fs, f.body.All Op.IsEmitted

/-- The emitter `m` emits the functions that `l` computes, with the same names. -/
def CompilesTo (m : Gen Unit) (l : LowerFunctions) : Prop :=
  ∀ gen gen', m gen = .ok ((), gen') →
    ∃ fs, l gen.toNames = .ok (fs, gen'.toNames) ∧ Compiled gen gen' fs

theorem Compiled.nil {gen gen' : CodeGen} (functions : gen'.functions = gen.functions)
    (code : gen'.code = gen.code) : Compiled gen gen' [] where
  functions := functions.trans (List.append_nil _).symm
  code := code.trans (List.append_nil _).symm
  closed := List.forall_mem_nil _
  emitted := List.forall_mem_nil _

theorem Compiled.append {gen gen₁ gen' : CodeGen} {fs gs : List LoweredFunction}
    (first : Compiled gen gen₁ fs) (second : Compiled gen₁ gen' gs) :
    Compiled gen gen' (fs ++ gs) := by
  have length : gen₁.code.length = gen.code.length + sizeOf fs := by
    rw [first.code, List.length_append, length_layoutFunctions]
  constructor
  · rw [second.functions, first.functions, length, entriesFrom_append, List.append_assoc]
  · rw [second.code, length, first.code, layoutFunctions_append, List.append_assoc]
  · exact List.forall_mem_append.mpr ⟨first.closed, second.closed⟩
  · exact List.forall_mem_append.mpr ⟨first.emitted, second.emitted⟩

/-- Without open loops, no jump is recorded. -/
theorem eq_nil_of_record {holes : List (Hole × Nat)} {loops : List LoopContext}
    (recorded : record holes [] = some loops) : holes = [] := by
  cases holes with
  | nil => rfl
  | cons hole holes =>
      obtain ⟨kind, pos⟩ := hole
      rw [record_cons] at recorded
      cases kind <;> cases recorded

theorem beginFunction_run {gen gen' : CodeGen} {u : Unit}
    (run : beginFunction gen = .ok (u, gen')) :
    clearNames gen.toNames = .ok ((), gen'.toNames) ∧ gen'.functions = gen.functions ∧
      gen'.code = gen.code ∧ gen'.loopStack = [] := by
  cases run
  exact ⟨rfl, rfl, rfl, rfl⟩

theorem finishFunction_run {name : Str} {entryPoint numArgs : Nat} {isVarargs : Bool}
    {gen gen' : CodeGen} {u : Unit}
    (run : finishFunction name entryPoint numArgs isVarargs gen = .ok (u, gen')) :
    gen'.toNames = gen.toNames ∧ gen'.code = gen.code ++ [returnOp.instr] ∧
      gen'.functions = gen.functions ++
        [⟨name, entryPoint, uint8 numArgs, uint8 gen.nextLocalSlot, isVarargs⟩] := by
  cases run
  exact ⟨rfl, rfl, rfl⟩

namespace CompilesTo

theorem throw {error : GenError} : CompilesTo (throw error) (throw error) :=
  fun _ _ run => absurd run throw_ne_ok

theorem nil : CompilesTo (pure ()) (pure []) := by
  intro gen gen' run
  obtain ⟨-, rfl⟩ := pure_eq_ok.1 run
  exact ⟨[], rfl, .nil rfl rfl⟩

theorem append {m m' : Gen Unit} {l l' : LowerFunctions} (first : CompilesTo m l)
    (second : CompilesTo m' l') : CompilesTo (m >>= fun _ => m') (appendFunctions l l') := by
  intro gen gen' run
  obtain ⟨_, gen₁, run₁, run₂⟩ := bind_eq_ok.1 run
  obtain ⟨fs, lowered₁, compiled₁⟩ := first gen gen₁ run₁
  obtain ⟨gs, lowered₂, compiled₂⟩ := second gen₁ gen' run₂
  refine ⟨fs ++ gs, ?_, compiled₁.append compiled₂⟩
  exact bind_eq_ok.2 ⟨fs, _, lowered₁, bind_eq_ok.2 ⟨gs, _, lowered₂, rfl⟩⟩

/-- A function, with an empty stack of open loops. -/
theorem function {m : Gen Unit} {l : Lower} (realizes : Realizes m l) (emits : Yields l)
    (n : Naming Unit) (name : Str) (numArgs : Nat) (isVarargs : Bool) :
    CompilesTo
      (do
        beginFunction
        n
        let entryPoint ← here
        m
        finishFunction name entryPoint numArgs isVarargs)
      (do
        clearNames
        n
        lowerFunction name l numArgs isVarargs) := by
  intro gen gen' run
  obtain ⟨_, gen₁, begun, run⟩ := bind_eq_ok.1 run
  obtain ⟨_, gen₂, named, run⟩ := bind_eq_ok.1 run
  obtain ⟨entryPoint, gen₃, entered, run⟩ := bind_eq_ok.1 run
  obtain ⟨_, gen₄, body, finished⟩ := bind_eq_ok.1 run
  obtain ⟨cleared, functions₁, code₁, opened⟩ := beginFunction_run begun
  obtain ⟨named, functions₂, code₂, loops⟩ := onNames_run named
  obtain ⟨rfl, rfl⟩ := here_run entered
  obtain ⟨c, lowered, emitted⟩ := realizes gen₂ gen₄ body
  obtain ⟨names, code, functions⟩ := finishFunction_run finished
  have closed : c.holes gen₂.code.length = [] := by
    have recorded := emitted.loops
    rw [loops, opened] at recorded
    exact eq_nil_of_record recorded
  have same : gen₂.code = gen.code := code₂.trans code₁
  refine ⟨[⟨name, c, uint8 numArgs, uint8 gen₄.nextLocalSlot, isVarargs⟩], ?_, ?_⟩
  · rw [names]
    exact bind_eq_ok.2 ⟨_, _, cleared, bind_eq_ok.2 ⟨_, _, named,
      bind_eq_ok.2 ⟨c, _, lowered, rfl⟩⟩⟩
  · constructor
    · rw [functions, emitted.functions, functions₂, functions₁, same]
      rfl
    · rw [code, emitted.code, same, List.append_assoc]
      simp [layoutFunctions, LoweredFunction.code, returnOp]
    · intro f mem
      rw [List.mem_singleton.mp mem]
      exact fun pc => Code.holes_eq_nil closed pc
    · intro f mem
      rw [List.mem_singleton.mp mem]
      exact emits _ _ _ lowered

/-- A body with parameters. -/
theorem paramBody (name : Str) (params : List Param) (isVarargs : Bool) (body : List AstNode) :
    CompilesTo
      (do
        beginFunction
        declareParams params
        let entryPoint ← here
        emitBlock (emitStatements body)
        finishFunction name entryPoint params.length isVarargs)
      (lowerParamBody name params isVarargs body) :=
  function (realizes_statements body).block (emits_statements body).block _ _ _ _

theorem pendingLambda (pending : PendingLambda) :
    CompilesTo (emitPendingLambda pending) (lowerPendingLambda pending) :=
  function (realizes_lambdaBody pending.bodyExprs) (emits_lambdaBody pending.bodyExprs) _ _ _ _

theorem pendingAnonFunc (pending : PendingAnonFunc) :
    CompilesTo (emitPendingAnonFunc pending) (lowerPendingAnonFunc pending) :=
  paramBody _ _ _ _

/-- The loop over a list of deferred bodies reads it from the names. -/
theorem get {m : CodeGen → Gen Unit} {l : Names → LowerFunctions}
    (each : ∀ gen : CodeGen, CompilesTo (m gen) (l gen.toNames)) :
    CompilesTo (MonadStateOf.get >>= m) (MonadStateOf.get >>= l) :=
  fun gen gen' run => each gen gen gen' run

theorem forget {f : CodeGen → CodeGen} {g : Names → Names}
    (names : ∀ gen, (f gen).toNames = g gen.toNames)
    (same : ∀ gen, (f gen).functions = gen.functions ∧ (f gen).code = gen.code) :
    CompilesTo (modify f) (modify g >>= fun _ => pure []) := by
  intro gen gen' run
  cases run
  refine ⟨[], ?_, .nil (same gen).1 (same gen).2⟩
  rw [names]
  rfl

theorem pendingLambdas (budget i : Nat) :
    CompilesTo (emitPendingLambdas budget i) (lowerPendingLambdas budget i) := by
  induction budget generalizing i with
  | zero => exact throw
  | succ budget ih =>
      apply get
      intro gen
      cases entry : gen.pendingLambdas[i]? with
      | none => exact forget (fun _ => rfl) fun _ => ⟨rfl, rfl⟩
      | some pending => exact (pendingLambda pending).append (ih (i + 1))

theorem pendingAnonFuncs (budget i : Nat) :
    CompilesTo (emitPendingAnonFuncs budget i) (lowerPendingAnonFuncs budget i) := by
  induction budget generalizing i with
  | zero => exact throw
  | succ budget ih =>
      apply get
      intro gen
      cases entry : gen.pendingAnonFuncs[i]? with
      | none => exact forget (fun _ => rfl) fun _ => ⟨rfl, rfl⟩
      | some pending => exact (pendingAnonFunc pending).append (ih (i + 1))

theorem pending (budget rounds : Nat) :
    CompilesTo (drainPending budget rounds) (lowerPending budget rounds) := by
  induction rounds with
  | zero => exact throw
  | succ rounds ih =>
      apply get
      intro gen
      split
      · exact nil
      · exact (pendingLambdas budget 0).append ((pendingAnonFuncs budget 0).append ih)

theorem functions (budget : Nat) (fns : List FunctionDecl) :
    CompilesTo (emitFunctions budget fns) (lowerFunctions budget fns) := by
  induction fns with
  | nil => exact nil
  | cons fn fns ih =>
      unfold emitFunctions lowerFunctions
      cases fn.body with
      | none => exact nil.append ih
      | some body =>
          have compiled := (paramBody fn.name fn.params fn.isVarargs body).append
            (pending budget budget)
          simp only [bind_assoc] at compiled
          exact compiled.append ih

theorem objVarInit (budget : Nat) (initializers : List (Nat × AstNode)) :
    CompilesTo (emitObjVarInit budget initializers) (lowerObjVarInit budget initializers) := by
  unfold emitObjVarInit lowerObjVarInit
  split
  · exact nil
  · have body := function (realizes_initializers initializers)
      (emits_initializers initializers) (pure ()) (str "$objvarinit") 0 false
    have compiled := body.append (pendingLambdas budget 0)
    simp only [bind_assoc] at compiled
    exact compiled

end CompilesTo

/-- **The code generator lays the functions of a program out one behind the other.** -/
theorem generateState_compiled {budget : Nat} {program : Program}
    {inheritedObjectVarNames : List Str} {gen : CodeGen}
    (generated : generateState budget program inheritedObjectVarNames = .ok gen) :
    ∃ fs, lowerProgram budget program inheritedObjectVarNames = .ok fs ∧
      Compiled (initialState program inheritedObjectVarNames) gen fs := by
  have compiles := (CompilesTo.objVarInit budget
    (pendingVarInitializers program inheritedObjectVarNames)).append
      (CompilesTo.functions budget program.functions)
  obtain ⟨⟨_, gen'⟩, run, rest⟩ := except_bind_eq_ok.1 generated
  cases rest
  obtain ⟨fs, lowered, compiled⟩ := compiles _ _ run
  exact ⟨fs, except_bind_eq_ok.2 ⟨_, lowered, rfl⟩, compiled⟩

/-! ## Running a function -/

section

variable (env : Env) (run : Runner) (act : Activation)

/-- Run the structured code of a function, with so many rounds for each loop; calls are run by
`run`. -/
def LoweredFunction.exec (fuel : Nat) (f : LoweredFunction) (s : State) : Option Ending :=
  ((meaning env run act).exec fuel f.code 0 s).bind (Exit.ending (meaning env run act))

/-- A `Return` does not go on. -/
theorem returnOp_ends (s s' : State) : (meaning env run act).op returnOp s ≠ .next s' := by
  intro goesOn
  change charged s _ = _ at goesOn
  rw [charged] at goesOn
  cases paid : charge s with
  | error r =>
      rw [paid] at goesOn
      cases goesOn
  | ok s₁ =>
      rw [paid] at goesOn
      cases goesOn

/-- The loop of `VM::run` as a run of the machine. -/
theorem loop_iff_finish (c : Config) (result : Outcome × World) (rounds : Nat) :
    loop env run act rounds c = some result ↔
      (host env run act).finish rounds (.running c) = some (some result) := by
  induction rounds generalizing c with
  | zero =>
      constructor
      · intro ends
        cases ends
      · intro ends
        cases ends
  | succ rounds ih =>
      rw [loop, Host.finish]
      change _ ↔ (host env run act).finish rounds (outcomeOf (step env run act c)) = _
      generalize step env run act c = went
      cases went with
      | none => simp [outcomeOf]
      | some went =>
          cases went with
          | running c => exact ih c
          | done outcome w => simp [outcomeOf]

end

section

variable {env : Env} {run : Runner} {act : Activation} {f : LoweredFunction} {entryPoint : Nat}
  (short : act.program.code.length < 2 ^ 31)
  (stands : layout openTargets f.code entryPoint <+: act.program.code.drop entryPoint)
  (closed : f.Closed) (emitted : f.body.All Op.IsEmitted)

include stands in
theorem LoweredFunction.inside : entryPoint + f.code.size ≤ act.program.code.length := by
  have length := stands.length_le
  have positive : 0 < f.code.size := Nat.add_pos_right _ Nat.one_pos
  rw [length_layout, List.length_drop] at length
  omega

include short stands emitted in
theorem LoweredFunction.tabled : f.code.All Op.Tabled := by
  have inside := inside stands
  have all : f.code.All Op.IsEmitted :=
    ⟨emitted, Op.IsEmitted.lone returnOp.instr .plain rfl⟩
  exact all_tabled all (by omega)

include short stands closed emitted in
theorem LoweredFunction.placed :
    (host env run act).Placed (f.code.flatten openTargets entryPoint) entryPoint := by
  apply placed_layout short f.code (tabled short stands emitted) stands (inside stands)
  intro hole pos mem
  rw [code, Code.holes, closed] at mem
  cases mem

include short stands closed emitted in
/-- A function in the code of an activation does what its structured code does. -/
theorem loop_iff_exec {s : State} {result : Outcome × World} (tight : f.body.Sealed) :
    (∃ rounds, loop env run act rounds ⟨entryPoint, [], s⟩ = some result) ↔
      ∃ fuel, f.exec env run act fuel s = some (some result) := by
  simp only [loop_iff_finish, LoweredFunction.exec, Option.bind_eq_some_iff]
  exact Host.finish_iff tight (closed entryPoint) (returnOp_ends env run act)
    (LoweredFunction.placed short stands closed emitted)

end

theorem length_entriesFrom (pc : Nat) (fs : List LoweredFunction) :
    (entriesFrom pc fs).length = fs.length := by
  induction fs generalizing pc with
  | nil => rfl
  | cons f fs ih => rw [entriesFrom, List.length_cons, ih, List.length_cons]

/-- **Compiled functions do what their structured bodies do**, as long as no `break` or
`continue` leaves a `catch`. -/
theorem function_runs_body {budget : Nat} {program : Program}
    {inheritedObjectVarNames : List Str} {gen : CodeGen}
    (generated : generateState budget program inheritedObjectVarNames = .ok gen)
    (short : gen.code.length < 2 ^ 31) :
    ∃ fs, lowerProgram budget program inheritedObjectVarNames = .ok fs ∧
      fs.length = gen.functions.length ∧
      ∀ (i : Nat) (f : LoweredFunction), fs[i]? = some f →
        ∃ entryPoint, gen.functions[i]? = some (f.entry entryPoint) ∧
          (f.body.Sealed → ∀ (env : Env) (run : Runner) (act : Activation),
            act.program.code = gen.code → ∀ (s : State) (result : Outcome × World),
              (∃ rounds, loop env run act rounds ⟨entryPoint, [], s⟩ = some result) ↔
                ∃ fuel, f.exec env run act fuel s = some (some result)) := by
  obtain ⟨fs, lowered, compiled⟩ := generateState_compiled generated
  have functions : gen.functions = entriesFrom 0 fs := compiled.functions
  have code : gen.code = [] ++ layoutFunctions 0 fs := compiled.code
  refine ⟨fs, lowered, by rw [functions, length_entriesFrom], ?_⟩
  intro i f found
  have mem := List.mem_of_getElem? found
  obtain ⟨entryPoint, listed, stands, -⟩ := @layoutFunctions_get fs f i 0 found [] rfl
  refine ⟨entryPoint, by rw [functions, listed], ?_⟩
  intro tight env run act same s result
  apply loop_iff_exec _ _ (compiled.closed f mem) (compiled.emitted f mem) tight
  · rw [same]
    exact short
  · rw [same, code]
    exact stands

/-- A loop with a `catch` and a `continue`. -/
def countdown : Program where
  functions := [⟨str "countdown", [⟨str "int", str "n"⟩], false,
    some [.whileStmt (.varRefExpr (str "n"))
      [.assignStmt (str "n") (.binaryExpr .sub (.varRefExpr (str "n")) (.intLiteral 1)),
        .ifStmt (.catchExpr (.callExpr (str "tick") [] [] false false [])) [.continueStmt] none],
      .returnStmt (some (.varRefExpr (str "n")))]⟩]
  objectVars := []
  inherits := []
  classes := []

theorem function_runs_body_countdown :
    ∃ gen fs, generateState 3 countdown [] = .ok gen ∧ lowerProgram 3 countdown [] = .ok fs ∧
      ∃ f entryPoint, fs = [f] ∧ gen.functions[0]? = some (f.entry entryPoint) ∧
        ∀ (env : Env) (run : Runner) (act : Activation), act.program.code = gen.code →
          ∀ (s : State) (result : Outcome × World),
            (∃ rounds, loop env run act rounds ⟨entryPoint, [], s⟩ = some result) ↔
              ∃ fuel, f.exec env run act fuel s = some (some result) := by
  have size : (generateState 3 countdown []).toOption.map (fun gen => gen.code.length) =
      some 16 := by
    decide +kernel
  have tight : (lowerProgram 3 countdown []).toOption.map
      (fun fs => fs.map fun f => decide f.body.Sealed) = some [true] := by
    decide +kernel
  cases generated : generateState 3 countdown [] with
  | error error =>
      rw [generated] at size
      cases size
  | ok gen =>
      rw [generated] at size
      have length : gen.code.length = 16 := Option.some.inj size
      obtain ⟨fs, lowered, -, each⟩ := function_runs_body generated (by rw [length]; decide)
      rw [lowered] at tight
      have only : fs.map (fun f => decide f.body.Sealed) = [true] := Option.some.inj tight
      obtain ⟨f, fs', rfl, isTight, none⟩ := List.map_eq_cons_iff.mp only
      rw [List.map_eq_nil_iff.mp none] at lowered each
      obtain ⟨entryPoint, listed, runs⟩ := each 0 f rfl
      exact ⟨gen, [f], rfl, lowered, f, entryPoint, rfl, listed, runs (of_decide_eq_true isTight)⟩

end Kjdmud.Compiler
