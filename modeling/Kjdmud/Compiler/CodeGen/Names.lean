import Kjdmud.Compiler.Ast
import Kjdmud.Core.Types
import Kjdmud.Vm.Value

/-!
# The state of the code generator

`src/compiler/CodeGen.cpp`.  The members of the source's `CodeGen` object fall
into two parts: the names (pools, scopes, counters, deferred bodies) and the
code under construction with its open loops.  An emitter is a computation on
the whole state that may throw; the functions of this file need the names
alone.
-/

namespace Kjdmud.Compiler

open Kjdmud.Vm

/-- What an emitter can throw: an `LpcRuntimeError`, or `budget`, which the
source does not have: the round limit of the loops that compile deferred
bodies. -/
inductive GenError
  | lpc (message : Str)
  | budget

/-- `CodeGen::LoopContext`. -/
structure LoopContext where
  breakJumps : List Nat
  continueJumps : List Nat
  isSwitch : Bool

/-- `CodeGen::PendingLambda`, with the members of the expression it points to. -/
structure PendingLambda where
  name : Str
  bodyExprs : List AstNode
  paramCount : Nat
  boundValueExprs : List AstNode

/-- `CodeGen::PendingAnonFunc`, with the members of the expression it points
to. -/
structure PendingAnonFunc where
  name : Str
  params : List Param
  isVarargs : Bool
  body : List AstNode

/-- The members of `CodeGen` that name things: the pools of `out_`, the scopes,
the counters and the deferred bodies.  The newest scope stands first. -/
structure Names where
  stringPool : List Str
  floatPool : List Double
  foreachCounter : Nat
  switchCounter : Nat
  indexAssignCounter : Nat
  locals : List (Str × Nat)
  nextLocalSlot : Nat
  localScopeStack : List (List Str)
  objectVars : List (Str × Nat)
  classDefs : List (Str × List Str)
  localClassTypes : List (Str × Str)
  objectVarClassTypes : List (Str × Str)
  pendingLambdas : List PendingLambda
  nextLambdaId : Nat
  currentLambdaBoundValueCount : Nat
  pendingAnonFuncs : List PendingAnonFunc
  nextAnonFuncId : Nat

/-- The code generator: its names, the code and the function table of `out_`,
and the open loops, the newest first. -/
structure CodeGen extends Names where
  code : List Instruction
  functions : List FunctionEntry
  loopStack : List LoopContext

/-- A computation on the names alone. -/
abbrev Naming :=
  StateT Names (Except GenError)

/-- An emitter. -/
abbrev Gen :=
  StateT CodeGen (Except GenError)

/-- A computation on the names, run inside an emitter. -/
def onNames {α : Type} (naming : Naming α) : Gen α := fun gen => do
  let (result, names) ← naming gen.toNames
  pure (result, { gen with toNames := names })

instance : MonadLift Naming Gen where
  monadLift := onNames

/-- `throw LpcRuntimeError(message)`. -/
def throwLpc {α : Type} (message : Str) : Naming α :=
  throw (.lpc message)

/-! ## Pools, names and slots -/

/-- The pool with a value interned, and the value's index. -/
def intern {α : Type} (same : α → α → Bool) (pool : List α) (value : α) :
    List α × Nat :=
  match pool.findIdx? (same · value) with
  | some i => (pool, i)
  | none => (pool ++ [value], pool.length)

/-- `internString`. -/
def internString (s : Str) : Naming Int := do
  let (pool, i) := intern (· == ·) (← get).stringPool s
  modify fun names => { names with stringPool := pool }
  pure (int32 i)

/-- `internFloat`. -/
def internFloat (d : Double) : Naming Int := do
  let (pool, i) := intern Double.eq (← get).floatPool d
  modify fun names => { names with floatPool := pool }
  pure (int32 i)

/-- `CodeGen::VarKind`. -/
inductive VarKind
  | local | objectVar
deriving DecidableEq

/-- `CodeGen::ResolvedVar`. -/
structure ResolvedVar where
  kind : VarKind
  slot : Nat

/-- The instruction that reads a variable. -/
def ResolvedVar.push (var : ResolvedVar) : Instruction :=
  match var.kind with
  | .local => ⟨.pushLocal, var.slot, 0⟩
  | .objectVar => ⟨.pushObjectVar, var.slot, 0⟩

/-- The instruction that writes a variable. -/
def ResolvedVar.store (var : ResolvedVar) : Instruction :=
  match var.kind with
  | .local => ⟨.storeLocal, var.slot, 0⟩
  | .objectVar => ⟨.storeObjectVar, var.slot, 0⟩

/-- `resolveVariable`. -/
def resolveVariable (name : Str) : Naming ResolvedVar := do
  let names ← get
  match names.locals.lookup name with
  | some slot => pure ⟨.local, slot⟩
  | none =>
      match names.objectVars.lookup name with
      | some slot => pure ⟨.objectVar, slot⟩
      | none =>
          throwLpc (str "codegen: undeclared variable \"" ++ name ++ str "\"")

/-- `resolveClassMemberIndex`. -/
def resolveClassMemberIndex (className memberName : Str) : Naming Nat := do
  match (← get).classDefs.lookup className with
  | none =>
      throwLpc (str "codegen: undefined class \"" ++ className ++ str "\"")
  | some members =>
      match members.findIdx? (· == memberName) with
      | some i => pure i
      | none =>
          throwLpc (str "codegen: class \"" ++ className ++
            str "\" has no member \"" ++ memberName ++ str "\"")

/-- `staticClassTypeOf`; no known class is the empty name. -/
def staticClassTypeOf (names : Names) : AstNode → Str
  | .typeCastExpr className _ => className
  | .indexExpr target index rangeEnd _ _ _ =>
      match rangeEnd, index with
      | some _, _ => []
      | none, .memberNameMarker _ => []
      | none, _ => staticClassTypeOf names target
  | .varRefExpr name =>
      match names.localClassTypes.lookup name with
      | some type => type
      | none => (names.objectVarClassTypes.lookup name).getD []
  | _ => []

/-- The member index that `emitIndexValue` pushes for `target->member`. -/
def memberIndexOf (targetExpr : AstNode) (memberName : Str) : Naming Nat := do
  let className := staticClassTypeOf (← get) targetExpr
  if className.isEmpty then
    throwLpc (str "codegen: cannot resolve \"->" ++ memberName ++
      str ("\": the target's static class type is not known here " ++
        "(only a variable declared with a real \"class <Name>\" type " ++
        "resolves)"))
  else resolveClassMemberIndex className memberName

/-- The class named by a type text `class:<name>`. -/
def classOfType (typeText : Str) : Option Str :=
  if (str "class:").isPrefixOf typeText then some (typeText.drop 6) else none

/-- `declareLocal`. -/
def declareLocal (name typeText : Str) : Naming Nat := do
  let names ← get
  if name.isEmpty then
    set { names with nextLocalSlot := names.nextLocalSlot + 1 }
    pure names.nextLocalSlot
  else if (names.locals.lookup name).isSome then
    throwLpc (str "codegen: variable \"" ++ name ++
      str "\" already declared in this scope")
  else
    set { names with
      nextLocalSlot := names.nextLocalSlot + 1
      locals := (name, names.nextLocalSlot) :: names.locals
      localClassTypes :=
        match classOfType typeText with
        | some className => (name, className) :: names.localClassTypes
        | none => names.localClassTypes
      localScopeStack :=
        match names.localScopeStack with
        | scope :: scopes => (scope ++ [name]) :: scopes
        | [] => [] }
    pure names.nextLocalSlot

/-- Declare the hidden local `base + std::to_string(indexAssignCounter_++)`. -/
def declareIndexAssignTemp (base : String) : Naming Nat := do
  let id := (← get).indexAssignCounter
  modify fun names => { names with indexAssignCounter := id + 1 }
  declareLocal (str base ++ Decimal.ofNat id) []

/-- `localScopeStack_.emplace_back()`. -/
def openScope : Naming Unit :=
  modify fun names => { names with localScopeStack := [] :: names.localScopeStack }

/-- The scope exit shared by `emitBlock`, `emitForStmt` and
`emitForeachStmt`. -/
def closeScope : Naming Unit :=
  modify fun names =>
    let closed := names.localScopeStack.headD []
    { names with
      locals := names.locals.filter fun entry => !closed.contains entry.1
      localClassTypes :=
        names.localClassTypes.filter fun entry => !closed.contains entry.1
      localScopeStack := names.localScopeStack.tail }

/-- The name synthesized for the `n`-th inline lambda of a file. -/
def lambdaName (n : Nat) : Str :=
  str "$lambda#" ++ Decimal.ofNat n

/-- The name synthesized for the `n`-th anonymous function of a file. -/
def anonFuncName (n : Nat) : Str :=
  str "$anonfunc#" ++ Decimal.ofNat n

/-- Defer the body of an inline lambda under a fresh name. -/
def deferLambda (bodyExprs : List AstNode) (paramCount : Nat)
    (boundValueExprs : List AstNode) : Naming Str := do
  let name := lambdaName (← get).nextLambdaId
  modify fun names =>
    { names with
      nextLambdaId := names.nextLambdaId + 1
      pendingLambdas :=
        names.pendingLambdas ++ [⟨name, bodyExprs, paramCount, boundValueExprs⟩] }
  pure name

/-- Defer the body of an anonymous function under a fresh name. -/
def deferAnonFunc (params : List Param) (isVarargs : Bool)
    (body : List AstNode) : Naming Str := do
  let name := anonFuncName (← get).nextAnonFuncId
  modify fun names =>
    { names with
      nextAnonFuncId := names.nextAnonFuncId + 1
      pendingAnonFuncs :=
        names.pendingAnonFuncs ++ [⟨name, params, isVarargs, body⟩] }
  pure name

/-- The slot that a `LambdaParamExpr` reads. -/
def lambdaParamSlot (index : Nat) (isBoundValue : Bool) : Naming Nat := do
  let names ← get
  pure (index + if isBoundValue then 0 else names.currentLambdaBoundValueCount)

/-- A loop variable of `emitForeachStmt`: declared here, or looked up. -/
def foreachVariable (name : Str) (declare : Bool) (classType : Str) :
    Naming ResolvedVar := do
  if declare then
    let slot ← declareLocal name
      (if classType.isEmpty then [] else str "class:" ++ classType)
    pure ⟨.local, slot⟩
  else resolveVariable name

/-- `std::to_string(foreachCounter_++)`. -/
def freshForeachId : Naming Str := do
  let id := (← get).foreachCounter
  modify fun names => { names with foreachCounter := id + 1 }
  pure (Decimal.ofNat id)

/-- Declare the hidden local that holds a switch subject. -/
def declareSwitchSubject : Naming Nat := do
  let id := (← get).switchCounter
  modify fun names => { names with switchCounter := id + 1 }
  declareLocal (str "$switch_subj_" ++ Decimal.ofNat id) []

/-- The members of a class that is being instantiated. -/
def classMembers (className : Str) : Naming (List Str) := do
  match (← get).classDefs.lookup className with
  | none =>
      throwLpc (str "codegen: undefined class \"" ++ className ++ str "\"")
  | some members => pure members

/-- The check that every initialised field is a member of the class. -/
def checkFields (className : Str) (members fieldNames : List Str) :
    Naming Unit :=
  match fieldNames.find? fun name => !members.contains name with
  | some name =>
      throwLpc (str "codegen: class \"" ++ className ++
        str "\" has no member \"" ++ name ++ str "\"")
  | none => pure ()

end Kjdmud.Compiler
