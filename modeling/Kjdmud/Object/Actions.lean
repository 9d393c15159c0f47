import Kjdmud.Object.Containment.Runs
import Kjdmud.Object.Shadow

/-!
# Actions

The efuns `add_action` and `remove_action`, the `init()` calls of `VM::moveObject` and
`VM::dispatchCommand`.  An action table belongs to the object that gives commands; an entry names
the object whose function runs.  LPC code runs in every `init()`, in every handler and in
`on_destruct`, so a run is taken apart there.
-/

namespace Kjdmud.Object

/-! ## Near objects -/

/-- The test of `add_action`, for given environments. -/
def nearIn (environment : ObjectId → Option ObjectId) (ob giver : ObjectId) : Bool :=
  ob == giver || environment ob == some giver || environment giver == some ob ||
    (environment ob == environment giver && (environment ob).isSome)

/-- The test of `add_action`. -/
def near (w : World) (ob giver : ObjectId) : Bool :=
  nearIn (environmentOf w) ob giver

/-! ## Action tables -/

/-- `ActionEntry`; the owner is a `weak_ptr`. -/
structure ActionEntry where
  verb : Str
  functionName : Str
  owner : ObjectId
  flag : Nat := 0
deriving DecidableEq

/-- What an `init()` registers, beside the flag. -/
structure Triple where
  owner : ObjectId
  functionName : Str
  verb : Str
deriving DecidableEq

def ActionEntry.triple (e : ActionEntry) : Triple :=
  ⟨e.owner, e.functionName, e.verb⟩

/-- The loop of `add_action` over its verbs; each goes to the top of the table. -/
def addActions (ob : ObjectId) (functionName : Str) (flag : Nat) (verbs : List Str)
    (actions : List ActionEntry) : List ActionEntry :=
  verbs.foldl (fun actions verb => ⟨verb, functionName, ob, flag⟩ :: actions) actions

/-- `removeAction`: the first entry that matches goes. -/
def removeAction (owner : ObjectId) (functionName verb : Str) (actions : List ActionEntry) :
    List ActionEntry :=
  actions.eraseP fun e => e.triple = ⟨owner, functionName, verb⟩

/-! ## Command lines -/

def isBlank (c : UInt8) : Bool :=
  c = 0x20 || c = 0x09

/-- `splitVerbAndArg`. -/
def splitVerbAndArg (line : Str) : Str × Option Str :=
  let line := line.dropWhile isBlank
  let behind := (line.dropWhile fun c => !isBlank c).dropWhile isBlank
  (line.takeWhile fun c => !isBlank c, if behind = [] then none else some behind)

/-- `H_MODIFY_COMMAND` in its mapping form: the string keys, with what is behind them where that
is a string. -/
abbrev ModifyCommand := List (Str × Option Str)

/-- The line that `dispatchCommand` takes apart. -/
def effectiveLine (hook : ModifyCommand) (line : Str) : Str :=
  let trimmed := (line.reverse.dropWhile (· = 0x20)).reverse
  if trimmed = [] then line
  else
    match hook.find? fun entry => entry.1 = trimmed with
    | some (_, some replacement) => replacement
    | _ => line

/-- Whether an entry matches a verb. -/
def ActionEntry.matches_ (e : ActionEntry) (verb : Str) : Bool :=
  if e.flag = 0 then e.verb = verb else e.verb <+: verb

/-- The argument of a handler; `none` is undefined. -/
def ActionEntry.handlerArg (e : ActionEntry) (verb : Str) (arg : Option Str) : Option Str :=
  if e.flag = 2 ∧ e.verb ≠ [] then
    let rest := verb.drop e.verb.length
    some (match arg with
      | some arg => if rest = [] then arg else rest ++ str " " ++ arg
      | none => rest)
  else arg

/-- The next entry that `dispatchCommand` calls, and what it has to look at behind it. -/
def nextHandler (w : World) (verb : Str) :
    List ActionEntry → Option (ActionEntry × List ActionEntry)
  | [] => none
  | e :: rest =>
      if e.matches_ verb && w.live e.owner then some (e, rest) else nextHandler w verb rest

/-- The call of a handler. -/
structure Call where
  giver : ObjectId
  owner : ObjectId
  functionName : Str
  verb : Str
  arg : Option Str

/-! ## Runs -/

namespace Actions

/-- What the driver is in the middle of. -/
inductive Frame
  /-- A move has set the links and has still to call `init()` in the destination. -/
  | arrives (item dest : ObjectId)
  /-- A move has still to look at those that are there. -/
  | greets (item dest : ObjectId)
  /-- The other `init()` calls of a move: the command giver, and the object. -/
  | inits (pending : List (ObjectId × ObjectId))
  | init
  /-- The loop of `dispatchCommand`. -/
  | dispatch (giver : ObjectId) (verb : Str) (arg : Option Str) (rest : List ActionEntry)
  | handler
  /-- The loop of `destructObject` down a chain. -/
  | cascade (top : ObjectId)
  | onDestruct (obj : ObjectId)

structure State where
  world : World := {}
  actions : ObjectId → List ActionEntry := fun _ => []
  commandsEnabled : ObjectId → Bool := fun _ => false
  stack : List Frame := []
  /-- How often a triple was registered since its owner last came near; the source does not
  count. -/
  registered : ObjectId → Triple → Nat := fun _ _ => 0

/-- What can happen next. -/
inductive Op
  | addAction (ob giver : ObjectId) (functionName : Str) (verbs : List Str) (flag : Int)
  | removeAction (ob giver : ObjectId) (functionName verb : Str)
  | move (item dest : ObjectId)
  | nextInit
  | initReturns (throws : Bool)
  | setEnvironment (item : ObjectId) (dest : Option ObjectId)
  | enableCommands (ob : ObjectId) (on : Bool)
  | dispatchCommand (giver : ObjectId) (hook : ModifyCommand) (line : Str)
  | resume
  /-- A handler returns whether its value is true, or it throws. -/
  | handlerReturns (result : Option Bool)
  | destruct (obj : ObjectId) (notify : Bool) (fuel : Nat)
  | onDestructReturns
  | cascade (notify : Bool) (fuel : Nat)
  | construct (filename : Str)
  | release (obj : ObjectId)

/-- The `init()` calls between an item and the others in its new environment. -/
def initCalls (w : World) (item dest : ObjectId) : List (ObjectId × ObjectId) :=
  (inventoryOf w dest).flatMap fun ob =>
    if ob = item then [] else [(ob, item), (item, ob)]

namespace State

/-- LPC code is running, or nothing is. -/
def inLpc (s : State) : Bool :=
  match s.stack with
  | .arrives _ _ :: _ | .greets _ _ :: _ | .inits _ :: _ | .dispatch _ _ _ _ :: _
  | .cascade _ :: _ => false
  | _ => true

/-- LPC code that can run holds a reference. -/
def holds (s : State) (id : ObjectId) : Bool :=
  s.inLpc && s.world.held id

/-- Another world; the count of a triple begins again where its owner is not near any more. -/
def withWorld (s : State) (w : World) : State :=
  { s with
    world := w
    registered := fun giver t => if near w t.owner giver then s.registered giver t else 0 }

/-- `destructObject` up to its first `on_destruct` or the first object of a cascade. -/
def destruct (s : State) (obj : ObjectId) (notify : Bool) (fuel : Nat) : Option State :=
  destructs s.world obj notify fuel s (fun top => { s with stack := .cascade top :: s.stack })
    (fun w => { s.withWorld w with stack := .onDestruct obj :: s.stack })
    fun w => s.withWorld (retire w obj)

/-- The loop of `destructObject` takes `top` out of the chain and goes on below. -/
def descends (s : State) (top : ObjectId) (stack : List Frame) : State :=
  { s.withWorld (Shadow.State.cutBelow s.world top) with
    stack :=
      match s.world.link top LpcObject.shadowing with
      | some below => .cascade below :: stack
      | none => stack }

/-- Execute one operation, with the handler that it calls; `none` where it cannot happen. -/
def run (s : State) : Op → Option (State × Option Call)
  | .addAction ob giver functionName verbs flag =>
      if s.holds ob && s.holds giver then
        if near s.world ob giver then
          some ({ s with
            actions := Function.update s.actions giver
              (addActions ob functionName (flag % 4).toNat verbs (s.actions giver))
            registered := Function.update s.registered giver fun t =>
              s.registered giver t +
                if t.owner = ob ∧ t.functionName = functionName then verbs.count t.verb else 0 },
            none)
        else some (s, none)
      else none
  | .removeAction ob giver functionName verb =>
      if s.holds ob && s.holds giver then
        some ({ s with
          actions := Function.update s.actions giver
            (Object.removeAction ob functionName verb (s.actions giver)) }, none)
      else none
  | .move item dest =>
      if s.holds item && s.holds dest then
        if refusesMove s.world item dest then some (s, none)
        else
          let moved := s.withWorld (moveObject s.world item dest)
          some ({ moved with stack := .arrives item dest :: s.stack }, none)
      else none
  | .nextInit =>
      match s.stack with
      | .arrives item dest :: stack =>
          let stack := .greets item dest :: stack
          some ({ s with stack := if s.commandsEnabled item then .init :: stack else stack }, none)
      | .greets item dest :: stack =>
          some ({ s with stack := .inits (initCalls s.world item dest) :: stack }, none)
      | .inits [] :: stack => some ({ s with stack := stack }, none)
      | .inits ((giver, _) :: pending) :: stack =>
          let stack := .inits pending :: stack
          some ({ s with stack := if s.commandsEnabled giver then .init :: stack else stack }, none)
      | _ => none
  | .initReturns throws =>
      match s.stack with
      | .init :: move :: stack =>
          some ({ s with stack := if throws then stack else move :: stack }, none)
      | _ => none
  | .setEnvironment item dest =>
      if s.holds item && dest.all s.holds then
        some (s.withWorld (Object.setEnvironment s.world item dest), none)
      else none
  | .enableCommands ob on =>
      if s.holds ob then
        some ({ s with commandsEnabled := Function.update s.commandsEnabled ob on }, none)
      else none
  | .dispatchCommand giver hook line =>
      if s.holds giver then
        if s.world.isDestructed giver then some (s, none)
        else
          let (verb, arg) := splitVerbAndArg (effectiveLine hook line)
          if verb = [] then some (s, none)
          else some ({ s with stack := .dispatch giver verb arg (s.actions giver) :: s.stack }, none)
      else none
  | .resume =>
      match s.stack with
      | .dispatch giver verb arg rest :: stack =>
          match nextHandler s.world verb rest with
          | none => some ({ s with stack := stack }, none)
          | some (e, rest) =>
              some ({ s with stack := .handler :: .dispatch giver verb arg rest :: stack },
                some ⟨giver, e.owner, e.functionName, verb, e.handlerArg verb arg⟩)
      | _ => none
  | .handlerReturns result =>
      match s.stack with
      | .handler :: .dispatch giver verb arg rest :: stack =>
          some ({ s with stack :=
            if result = some false then .dispatch giver verb arg rest :: stack else stack }, none)
      | _ => none
  | .destruct obj notify fuel =>
      if s.holds obj then (s.destruct obj notify fuel).map (·, none) else none
  | .onDestructReturns =>
      match s.stack with
      | .onDestruct obj :: stack =>
          if s.world.held obj then
            some ({ s.withWorld (retire s.world obj) with stack := stack }, none)
          else none
      | _ => none
  | .cascade notify fuel =>
      match s.stack with
      | .cascade top :: stack =>
          if s.world.held top then
            ((s.descends top stack).destruct top notify fuel).map (·, none)
          else none
      | _ => none
  | .construct filename =>
      if s.inLpc then some (s.withWorld (s.world.construct filename), none) else none
  | .release obj => some (s.withWorld (Object.release s.world obj), none)

/-- The state after some operations, if they can happen. -/
abbrev after (s : State) : List Op → Option State :=
  Lib.Runs.after run s

/-! ## Clear runs -/

/-- An object that gives commands, and one whose function it may run: there is an entry, in the
table or among those that a running command has still to look at. -/
def Pair (s : State) (giver owner : ObjectId) : Prop :=
  (∃ e ∈ s.actions giver, e.owner = owner) ∨
    ∃ verb arg rest, Frame.dispatch giver verb arg rest ∈ s.stack ∧
      ∃ e ∈ rest, e.matches_ verb = true ∧ e.owner = owner

/-- New environments take no such object away from the other. -/
def Stays (s : State) (environment : ObjectId → Option ObjectId) : Prop :=
  ∀ giver owner, s.Pair giver owner → s.world.live giver = true → s.world.live owner = true →
    nearIn environment owner giver = true

/-- The condition on an operation: a move, or the end of an environment, takes no giver of
commands away from the owner of an action. -/
def Clear (s : State) : Op → Prop
  | .move item dest => refusesMove s.world item dest = false →
      s.Stays (Function.update (environmentOf s.world) item (some dest))
  | .setEnvironment item dest => s.Stays (Function.update (environmentOf s.world) item dest)
  | .release obj => ∀ giver owner, giver ≠ obj → owner ≠ obj → s.Pair giver owner →
      s.world.live giver = true → s.world.live owner = true →
        nearIn (fun x => (environmentOf s.world x).filter (· ≠ obj)) owner giver = true
  | _ => True

/-- Every operation meets its condition in the state it finds. -/
abbrev Clears (s : State) : List Op → Prop :=
  Lib.Runs.Clears run Clear s

end State

end Actions

end Kjdmud.Object
