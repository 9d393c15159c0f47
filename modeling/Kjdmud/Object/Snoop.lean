import Kjdmud.Object.Shadow

/-!
# Snooping

The efun `snoop` of `src/efun/EfunTable.cpp` links two objects, the one that snoops and its
victim.  `destructObject` drops the link from one side, and `Connection::close` from the other.
The apply of the master runs before `snoop` looks at anything but its first argument, and
`on_destruct` in the middle of a destruction, so a run is taken apart there.
-/

namespace Kjdmud.Object

/-! ## The operations -/

/-- What `snoop` returns or throws. -/
inductive Answer
  | object (ob : ObjectId)
  | undefined
  | int (n : Int)
  | error (message : Str)

/-- The call was denied, or it failed. -/
def Answer.refused : Answer → Bool
  | .object _ => false
  | .int n => n ≤ 0
  | _ => true

/-- The walk against loops: whether `victim` is among those that snoop `tmp`, or is it. -/
def climbs (w : World) (victim : ObjectId) : Nat → ObjectId → Option Bool
  | 0, _ => none
  | fuel + 1, tmp =>
      if tmp = victim then some true
      else
        match w.link tmp LpcObject.snoopedBy with
        | some next => climbs w victim fuel next
        | none => some false

/-- The end of a snoop, from the side of the one that snoops. -/
def stopSnoop (w : World) (by_ : ObjectId) : World :=
  (w.modifyLinked (w.link by_ LpcObject.snooping) fun o => { o with snoopedBy := none }).modify
    by_ fun o => { o with snooping := none }

/-- `setSnoopedBy` and `setSnooping` of the two objects, after their old links are dropped. -/
def startSnoop (w : World) (by_ victim : ObjectId) : World :=
  let w := w.modifyLinked (w.link by_ LpcObject.snooping) fun o => { o with snoopedBy := none }
  let w := w.modifyLinked (w.link victim LpcObject.snoopedBy) fun o => { o with snooping := none }
  let w := w.modify victim fun o => { o with snoopedBy := some by_ }
  w.modify by_ fun o => { o with snooping := some victim }

/-- The efun `snoop`, behind the answer of the master in the LDMud dialect. -/
def snoop (ldmud : Bool) (interactive : ObjectId → Bool) (fuel : Nat) (w : World)
    (by_ : ObjectId) : Option ObjectId → Option (World × Answer)
  | none =>
      if w.isDestructed by_ then some (w, if ldmud then .int 0 else .undefined)
      else
        let hadSnoop := (w.link by_ LpcObject.snooping).isSome
        some (stopSnoop w by_,
          if ldmud then .int (if hadSnoop then 1 else 0) else .object by_)
  | some victim =>
      if w.isDestructed by_ || w.isDestructed victim then
        some (w, if ldmud then .int 0 else .undefined)
      else if !interactive victim then
        some (w, if ldmud then .int 0
          else .error (str "snoop: Second argument of snoop() is not interactive!"))
      else
        (climbs w victim fuel by_).map fun loop =>
          if loop then (w, if ldmud then .int (-1) else .undefined)
          else (startSnoop w by_ victim, if ldmud then .int 1 else .object victim)

/-- What `Connection::close` does to the links of its object. -/
def closeLinks (w : World) (ob : ObjectId) : World :=
  (w.modifyLinked (w.link ob LpcObject.snoopedBy) fun o => { o with snooping := none }).modify
    ob fun o => { o with snoopedBy := none }

/-! ## Runs -/

namespace Snoop

/-- What the driver is in the middle of. -/
inductive Frame
  /-- The apply of the master for a call of `snoop`. -/
  | validSnoop (by_ : ObjectId) (victim : Option ObjectId)
  /-- The `on_destruct` of an object. -/
  | onDestruct (obj : ObjectId)
  /-- The loop of `destructObject` down a chain. -/
  | cascade (top : ObjectId)
  /-- The efun `destruct` closes the connection of its object at its end. -/
  | closes (ob : ObjectId)
deriving DecidableEq

structure State where
  world : World := {}
  /-- `InteractiveRegistry::find` finds a connection. -/
  interactive : ObjectId → Bool := fun _ => false
  stack : List Frame := []

/-- What can happen next. -/
inductive Op
  | snoop (ldmud : Bool) (by_ : ObjectId) (victim : Option ObjectId) (fuel : Nat)
  /-- The apply returns, or it throws. -/
  | validSnoopReturns (approved : Except Str Bool) (fuel : Nat)
  /-- The efun `destruct`; whether the object wants its `on_destruct`. -/
  | destruct (obj : ObjectId) (notify : Bool) (fuel : Nat)
  | onDestructReturns
  | cascade (notify : Bool) (fuel : Nat)
  /-- A turn of the cascade of `reloadObject`. -/
  | expel (cur : ObjectId)
  /-- A connection takes an object, after it left another. -/
  | attach (old : Option ObjectId) (new : ObjectId)
  | close (ob : ObjectId)
  | construct (filename : Str)
  | linkShadow (self victim : ObjectId)
  | removeShadow (ob : ObjectId)
  | move (item dest : ObjectId)
  | release (obj : ObjectId)

namespace State

/-- LPC code is running, or nothing is. -/
def inLpc (s : State) : Bool :=
  match s.stack with
  | .cascade _ :: _ => false
  | _ => true

/-- LPC code that can run holds a reference. -/
def holds (s : State) (id : ObjectId) : Bool :=
  s.inLpc && s.world.held id

/-- `Connection::close`. -/
def close (s : State) (ob : ObjectId) : State :=
  { s with
    world := closeLinks s.world ob
    interactive := Function.update s.interactive ob false }

/-- The ends of the calls of `destruct` that wait on top of the stack. -/
def settle (world : World) (interactive : ObjectId → Bool) : List Frame → State
  | .closes ob :: stack =>
      if interactive ob then
        settle (closeLinks world ob) (Function.update interactive ob false) stack
      else settle world interactive stack
  | stack => { world, interactive, stack }

/-- The part of `destructObject` behind the callback, and what ends with it. -/
def retired (s : State) (obj : ObjectId) : State :=
  settle (retire s.world obj) s.interactive s.stack

/-- `destructObject` up to its first `on_destruct` or the first object of a cascade. -/
def destruct (s : State) (obj : ObjectId) (notify : Bool) (fuel : Nat) : Option State :=
  destructs s.world obj notify fuel (settle s.world s.interactive s.stack)
    (fun top => { s with stack := .cascade top :: s.stack })
    (fun w => { s with world := w, stack := .onDestruct obj :: s.stack })
    fun w => State.retired { s with world := w } obj

/-- The efun `destruct` before it calls `destructObject`. -/
def calling (s : State) (obj : ObjectId) : State :=
  { s with stack := .closes obj :: s.stack }

/-- The loop of `destructObject` takes `top` out of the chain and goes on below. -/
def descends (s : State) (top : ObjectId) (stack : List Frame) : State where
  world := Shadow.State.cutBelow s.world top
  interactive := s.interactive
  stack :=
    match s.world.link top LpcObject.shadowing with
    | some below => .cascade below :: stack
    | none => stack

/-- The end of `snoop`. -/
def answers (s : State) (result : World × Answer) : State × Option Answer :=
  ({ s with world := result.1 }, some result.2)

/-- Execute one operation, with what `snoop` answers if it ends here; `none` where it cannot
happen. -/
def run (s : State) : Op → Option (State × Option Answer)
  | .snoop ldmud by_ victim fuel =>
      if s.holds by_ && victim.all s.holds then
        if !ldmud then
          (Object.snoop false s.interactive fuel s.world by_ victim).map s.answers
        else if s.world.isDestructed by_ || s.world.master.isNone then
          some (s, some (.int 0))
        else some ({ s with stack := .validSnoop by_ victim :: s.stack }, none)
      else none
  | .validSnoopReturns approved fuel =>
      match s.stack with
      | .validSnoop by_ victim :: stack =>
          if s.world.held by_ && victim.all s.world.held then
            let s := { s with stack := stack }
            match approved with
            | .ok true => (Object.snoop true s.interactive fuel s.world by_ victim).map s.answers
            | .ok false => some (s, some (.int 0))
            | .error message => some (s, some (.error message))
          else none
      | _ => none
  | .destruct obj notify fuel =>
      if s.holds obj then ((s.calling obj).destruct obj notify fuel).map (·, none) else none
  | .onDestructReturns =>
      match s.stack with
      | .onDestruct obj :: stack =>
          if s.world.held obj then some (({ s with stack := stack }).retired obj, none)
          else none
      | _ => none
  | .cascade notify fuel =>
      match s.stack with
      | .cascade top :: stack =>
          if s.world.held top then
            ((s.descends top stack).destruct top notify fuel).map (·, none)
          else none
      | _ => none
  | .expel cur =>
      if s.holds cur then
        if s.world.isDestructed cur then some (s, none)
        else
          let w := retire (unlinkShadow (clearShadow s.world cur) cur) cur
          some ({ s with world := w }, none)
      else none
  | .attach old new =>
      if s.holds new then
        some ({ s with interactive := fun ob => ob = new || (s.interactive ob && some ob != old) },
          none)
      else none
  | .close ob => if s.holds ob then some (s.close ob, none) else none
  | .construct filename =>
      if s.inLpc then some ({ s with world := s.world.construct filename }, none) else none
  | .linkShadow self victim =>
      if s.holds self && s.holds victim then
        some ({ s with world := Object.linkShadow s.world self victim }, none)
      else none
  | .removeShadow ob =>
      if s.holds ob then some ({ s with world := Object.removeShadow s.world ob }, none)
      else none
  | .move item dest =>
      if s.holds item && s.holds dest then
        some ({ s with world := moveObject s.world item dest }, none)
      else none
  | .release obj =>
      -- a connection holds its object
      if s.interactive obj then none
      else some ({ s with world := Object.release s.world obj }, none)

/-- The state after some operations, if they can happen. -/
abbrev after (s : State) : List Op → Option State :=
  Lib.Runs.after run s

/-! ## Clear runs -/

/-- Somebody snoops an object, and no connection of it is closed right behind its
destruction. -/
def Watched (s : State) (obj : ObjectId) : Prop :=
  (s.world.link obj LpcObject.snoopedBy).isSome ∧
    ¬ (s.stack.head? = some (.closes obj) ∧ s.interactive obj = true)

/-- `destructObject` does not end here with an object that is snooped. -/
def Spares (s : State) (obj : ObjectId) (notify : Bool) : Prop :=
  s.world.isDestructed obj = false → isShadowBase s.world obj = false → notify = false →
    ¬ s.Watched obj

/-- The condition on an operation: it destructs no object that is snooped, unless a connection
of the object is closed with it. -/
def Clear (s : State) : Op → Prop
  | .destruct obj notify _ => (s.calling obj).Spares obj notify
  | .onDestructReturns => ∀ obj stack, s.stack = .onDestruct obj :: stack →
      s.world.isDestructed obj = false → ¬ ({ s with stack := stack }).Watched obj
  | .cascade notify _ => ∀ top stack, s.stack = .cascade top :: stack →
      (s.descends top stack).Spares top notify
  | .expel cur => s.world.isDestructed cur = false →
      s.world.link cur LpcObject.snoopedBy = none
  | _ => True

/-- Every operation meets its condition in the state it finds. -/
abbrev Clears (s : State) : List Op → Prop :=
  Lib.Runs.Clears run Clear s

end State

end Snoop

end Kjdmud.Object
