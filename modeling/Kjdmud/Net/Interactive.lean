import Kjdmud.Object.Snoop

/-!
# Interactive objects

A connection holds the object that it is bound to, and `InteractiveRegistry` lists the
connection of every object.  `Connection::attach` and `Connection::close` change both; the
efuns `exec`, `remove_interactive` and `destruct` and the server call them.  LPC code runs in
`connect()`, in `logon()`, in every apply of a connection and in `on_destruct`, so a run is
taken apart there.
-/

namespace Kjdmud.Net.Interactive

open Kjdmud.Object

/-- A `Connection*`: connections are numbered, and no number is used twice. -/
abbrev ConnId := Nat

structure Connection where
  boundObject : Option ObjectId := none
  /-- `fd_ >= 0`. -/
  isOpen : Bool := true
  /-- `closed_`: closed, or at the end of its input. -/
  closed : Bool := false

/-- What the driver is in the middle of. -/
inductive Frame
  /-- The master's `connect()` for a new connection. -/
  | connect (c : ConnId)
  /-- `logon()` in the object that it returned. -/
  | logon (c : ConnId)
  /-- An apply for a connection. -/
  | apply (c : ConnId)
  /-- The `on_destruct` of an object. -/
  | onDestruct (obj : ObjectId)
  /-- The loop of `destructObject` down a chain. -/
  | cascade (top : ObjectId)
  /-- The efun `destruct` closes the connection of its object at its end. -/
  | closes (ob : ObjectId)

structure State where
  world : World := {}
  /-- The connections in memory. -/
  connections : ConnId → Option Connection := fun _ => none
  next : ConnId := 0
  /-- `g_registry`; the objects are `weak_ptr`s. -/
  registry : List (ObjectId × ConnId) := []
  /-- `OutputContext::current()`. -/
  current : Option ConnId := none
  stack : List Frame := []

namespace State

/-- What a connection is bound to. -/
def boundTo (s : State) (c : ConnId) : Option ObjectId :=
  (s.connections c).bind Connection.boundObject

/-- The connection exists and is open. -/
def isOpen (s : State) (c : ConnId) : Bool :=
  (s.connections c).any Connection.isOpen

/-! ## `InteractiveRegistry` -/

/-- `InteractiveRegistry::find`. -/
def find (s : State) (obj : ObjectId) : Option ConnId :=
  (s.registry.find? fun e => s.world.lock (some e.1) = some obj).map Prod.snd

/-- `InteractiveRegistry::remove`. -/
def remove (s : State) (obj : ObjectId) : State :=
  { s with
    registry := s.registry.filter fun e =>
      match s.world.lock (some e.1) with
      | none => false
      | some locked => locked ≠ obj }

/-- `InteractiveRegistry::add`. -/
def add (s : State) (obj : ObjectId) (c : ConnId) : State :=
  { s with registry := s.registry ++ [(obj, c)] }

/-! ## `Connection` -/

def setConnection (s : State) (c : ConnId) (conn : Option Connection) : State :=
  { s with connections := Function.update s.connections c conn }

/-- `Connection::attach`. -/
def attach (s : State) (c : ConnId) (obj : ObjectId) : State :=
  match s.connections c with
  | none => s
  | some conn =>
      let s :=
        match conn.boundObject with
        | some old => s.remove old
        | none => s
      (s.setConnection c (some { conn with boundObject := some obj })).add obj c

/-- `Connection::close`. -/
def close (s : State) (c : ConnId) : State :=
  match s.connections c with
  | none => s
  | some conn =>
      let s :=
        match conn.boundObject with
        | some ob => State.remove { s with world := closeLinks s.world ob } ob
        | none => s
      s.setConnection c (some { boundObject := none, isOpen := false, closed := true })

/-- `Connection::~Connection`. -/
def destroy (s : State) (c : ConnId) : State :=
  (s.close c).setConnection c none

/-- The end of `pollOnce` at one connection. -/
def sweepOne (s : State) (c : ConnId) : State :=
  if (s.connections c).any Connection.closed then s.destroy c else s

/-- The end of `pollOnce`: the connections that are closed go. -/
def sweep (s : State) : State :=
  (List.range s.next).foldl sweepOne s

/-! ## Efuns -/

/-- The efun `exec`; an argument that is no object is `none`. -/
def exec (s : State) : List (Option ObjectId) → State × Int
  | some newOb :: _ :: _ =>
      match s.current with
      | some conn => (s.attach conn newOb, 1)
      | none => (s, 0)
  | _ => (s, 0)

/-- The efun `remove_interactive`. -/
def removeInteractive (s : State) (ob : ObjectId) : State × Int :=
  if s.world.isDestructed ob then (s, 0)
  else
    match s.find ob with
    | none => (s, 0)
    | some conn => (s.close conn, 1)

/-- The end of the efun `destruct`. -/
def closeOf (s : State) (ob : ObjectId) : State :=
  match s.find ob with
  | some conn => s.close conn
  | none => s

/-- The ends of the calls of `destruct` that wait on top of the stack. -/
def settle (s : State) : List Frame → State
  | .closes ob :: stack => (s.closeOf ob).settle stack
  | stack => { s with stack }

/-- The part of `destructObject` behind the callback, and what ends with it. -/
def retired (s : State) (obj : ObjectId) : State :=
  State.settle { s with world := retire s.world obj } s.stack

/-- `destructObject` up to its first `on_destruct` or the first object of a cascade. -/
def destruct (s : State) (obj : ObjectId) (notify : Bool) (fuel : Nat) : Option State :=
  destructs s.world obj notify fuel (s.settle s.stack)
    (fun top => { s with stack := .cascade top :: s.stack })
    (fun w => { s with world := w, stack := .onDestruct obj :: s.stack })
    fun w => State.retired { s with world := w } obj

/-- The efun `destruct` before it calls `destructObject`. -/
def calling (s : State) (obj : ObjectId) : State :=
  { s with stack := .closes obj :: s.stack }

/-- The loop of `destructObject` takes `top` out of the chain and goes on below. -/
def descends (s : State) (top : ObjectId) (stack : List Frame) : State :=
  { s with
    world := Shadow.State.cutBelow s.world top
    stack :=
      match s.world.link top LpcObject.shadowing with
      | some below => .cascade below :: stack
      | none => stack }

/-- A turn of the cascade of `reloadObject`, which closes no connection. -/
def expel (s : State) (cur : ObjectId) : State :=
  if s.world.isDestructed cur then s
  else { s with world := retire (unlinkShadow (clearShadow s.world cur) cur) cur }

end State

/-! ## Runs -/

/-- What can happen next. -/
inductive Op
  /-- A new connection, and the master's `connect()` is called. -/
  | accept
  /-- `connect()` throws or returns no object, or it returns one. -/
  | connectReturns (loginObj : Option ObjectId)
  /-- `logon()` returns or throws. -/
  | logonReturns (ok : Bool)
  /-- An apply for a connection is called. -/
  | apply (c : ConnId)
  | applyReturns
  /-- `pollLines` finds the end of the input, or an error. -/
  | lapse (c : ConnId)
  | sweep
  | exec (args : List (Option ObjectId))
  | removeInteractive (ob : ObjectId)
  /-- The efun `destruct`; whether the object wants its `on_destruct`. -/
  | destruct (obj : ObjectId) (notify : Bool) (fuel : Nat)
  | onDestructReturns
  | cascade (notify : Bool) (fuel : Nat)
  | expel (cur : ObjectId)
  | construct (filename : Str)
  | linkShadow (self victim : ObjectId)
  | removeShadow (ob : ObjectId)
  | move (item dest : ObjectId)
  | release (obj : ObjectId)

namespace State

/-- LPC code is running, or nothing is. -/
def inLpc (s : State) : Bool :=
  match s.stack with
  | .cascade _ :: _ => false
  | _ => true

/-- LPC code that can run holds a reference. -/
def holds (s : State) (id : ObjectId) : Bool :=
  s.inLpc && s.world.held id

/-- A connection holds a reference. -/
def bound (s : State) (id : ObjectId) : Bool :=
  (List.range s.next).any fun c => s.boundTo c = some id

def withWorld (s : State) (w : World) : State :=
  { s with world := w }

/-- Execute one operation, with what an efun returns; `none` where it cannot happen. -/
def run (s : State) : Op → Option (State × Option Int)
  | .accept =>
      if s.stack = [] then
        some ({ s with
          connections := Function.update s.connections s.next (some {})
          next := s.next + 1
          current := some s.next
          stack := [.connect s.next] }, none)
      else none
  | .connectReturns loginObj =>
      match s.stack with
      | .connect c :: stack =>
          match loginObj with
          | none => some (State.destroy { s with current := none, stack := stack } c, none)
          | some ob =>
              if s.world.held ob then
                some (State.attach { s with stack := .logon c :: stack } c ob, none)
              else none
      | _ => none
  | .logonReturns ok =>
      match s.stack with
      | .logon c :: stack =>
          let s := { s with current := none, stack := stack }
          if ok then some (s, none) else some (s.destroy c, none)
      | _ => none
  | .apply c =>
      if s.stack = [] ∧ (s.connections c).isSome then
        some ({ s with current := some c, stack := [.apply c] }, none)
      else none
  | .applyReturns =>
      match s.stack with
      | .apply _ :: stack => some ({ s with current := none, stack := stack }, none)
      | _ => none
  | .lapse c =>
      if s.stack = [] then
        some (s.setConnection c ((s.connections c).map fun conn => { conn with closed := true }),
          none)
      else none
  | .sweep => if s.stack = [] then some (s.sweep, none) else none
  | .exec args =>
      if s.inLpc && args.all fun arg => arg.all s.world.held then
        some ((s.exec args).1, some (s.exec args).2)
      else none
  | .removeInteractive ob =>
      if s.holds ob then some ((s.removeInteractive ob).1, some (s.removeInteractive ob).2)
      else none
  | .destruct obj notify fuel =>
      if s.holds obj then ((s.calling obj).destruct obj notify fuel).map (·, none) else none
  | .onDestructReturns =>
      match s.stack with
      | .onDestruct obj :: stack =>
          if s.world.held obj then some (State.retired { s with stack := stack } obj, none)
          else none
      | _ => none
  | .cascade notify fuel =>
      match s.stack with
      | .cascade top :: stack =>
          if s.world.held top then
            ((s.descends top stack).destruct top notify fuel).map (·, none)
          else none
      | _ => none
  | .expel cur => if s.holds cur then some (s.expel cur, none) else none
  | .construct filename =>
      if s.inLpc then some (s.withWorld (s.world.construct filename), none) else none
  | .linkShadow self victim =>
      if s.holds self && s.holds victim then
        some (s.withWorld (linkShadow s.world self victim), none)
      else none
  | .removeShadow ob =>
      if s.holds ob then some (s.withWorld (removeShadow s.world ob), none) else none
  | .move item dest =>
      if s.holds item && s.holds dest then
        some (s.withWorld (moveObject s.world item dest), none)
      else none
  | .release obj =>
      if s.bound obj then none else some (s.withWorld (release s.world obj), none)

/-- The state after some operations, if they can happen. -/
abbrev after (s : State) : List Op → Option State :=
  Lib.Runs.after run s

/-! ## Clear runs -/

/-- A connection may take an object: it is not destructed, and no other connection has it. -/
def Takes (s : State) (c : ConnId) (ob : ObjectId) : Prop :=
  s.world.isDestructed ob = false ∧ ∀ c', c' ≠ c → s.boundTo c' ≠ some ob

/-- No connection has an object, or it is closed right behind its destruction. -/
def Spared (s : State) (obj : ObjectId) : Prop :=
  ∀ c, s.boundTo c = some obj → s.stack.head? = some (.closes obj)

/-- `destructObject` does not end here with an object that keeps its connection. -/
def Spares (s : State) (obj : ObjectId) (notify : Bool) : Prop :=
  s.world.isDestructed obj = false → isShadowBase s.world obj = false → notify = false →
    s.Spared obj

/-- The condition on an operation: `exec` runs for the connection of the old object, a
connection takes only an object that it may take, and no object is destructed that keeps its
connection. -/
def Clear (s : State) : Op → Prop
  | .exec args => ∀ newOb oldOb rest c, args = some newOb :: oldOb :: rest →
      s.current = some c →
        (∃ old, oldOb = some old ∧ s.boundTo c = some old) ∧ s.Takes c newOb
  | .connectReturns loginObj => ∀ ob c stack, loginObj = some ob → s.stack = .connect c :: stack →
      s.isOpen c = true ∧ s.Takes c ob
  | .destruct obj notify _ => (s.calling obj).Spares obj notify
  | .onDestructReturns => ∀ obj stack, s.stack = .onDestruct obj :: stack →
      s.world.isDestructed obj = false → State.Spared { s with stack := stack } obj
  | .cascade notify _ => ∀ top stack, s.stack = .cascade top :: stack →
      (s.descends top stack).Spares top notify
  | .expel cur => s.world.isDestructed cur = false → ∀ c, s.boundTo c ≠ some cur
  | _ => True

/-- Every operation meets its condition in the state it finds. -/
abbrev Clears (s : State) : List Op → Prop :=
  Lib.Runs.Clears run Clear s

/-! ## The law -/

/-- The connections and the registry fit together. -/
structure Integrity (s : State) : Prop where
  /-- An open connection is the one that the registry finds for its object. -/
  found : ∀ c ob, s.isOpen c = true → s.boundTo c = some ob → s.find ob = some c
  alone : ∀ c c' ob, s.isOpen c = true → s.isOpen c' = true →
    s.boundTo c = some ob → s.boundTo c' = some ob → c = c'
  entries : ∀ e ∈ s.registry, s.isOpen e.2 = true ∧ s.boundTo e.2 = some e.1
  live : ∀ c ob, s.isOpen c = true → s.boundTo c = some ob → s.world.isDestructed ob = false

/-- Exactly the connection of the old object moves. -/
def Moves (s : State) (newOb oldOb : ObjectId) (s' : State) : Prop :=
  ∃ c, s.isOpen c = true ∧ (∀ c', s.boundTo c' = some oldOb ↔ c' = c) ∧
    s'.boundTo = Function.update s.boundTo c (some newOb)

end State

end Kjdmud.Net.Interactive
