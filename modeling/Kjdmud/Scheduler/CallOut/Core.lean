import Kjdmud.Core.Types
import Kjdmud.Lib.Runs

/-!
# Pending call_outs

`src/scheduler/Scheduler.cpp`: the table of pending call_outs, the operations
LPC code reaches it with, and the sweep `tickCallOuts`.  The sweep moves every
due entry into a private list before it runs the first body, and a body can do
anything, so the sweep is split at the bodies: `beginTick` takes the list, and
`fire` is one iteration of the loop over it.  Sweeps nest as C++ calls do.

`T` is the type of the arguments an entry carries.
-/

namespace Kjdmud.Scheduler

/-- The identity of a `Closure`. -/
abbrev ClosureId := Nat

/-- What has become of an object. -/
inductive ObjectStatus
  | live
  /-- Destructed, but some reference keeps it in memory. -/
  | destructed
  /-- Freed: a `weak_ptr` to it no longer locks. -/
  | gone
  deriving DecidableEq

/-- What the scheduler asks about objects and closures. -/
structure World where
  status : ObjectId → ObjectStatus
  closureOwner : ClosureId → Option ObjectId

/-- `weak_ptr::lock`. -/
def World.lock (world : World) (weak : Option ObjectId) : Option ObjectId :=
  weak.filter fun obj => world.status obj ≠ .gone

/-- `CallOutEntry`.  The string form has `target` and `function`, the closure form
`closure`. -/
structure CallOutEntry (T : Type) where
  handle : Int
  target : Option ObjectId
  function : Str
  closure : Option ClosureId
  args : List T
  /-- On the steady clock, in nanoseconds. -/
  dueAt : Nat
  deriving DecidableEq

variable {T : Type}

/-- The members of `Scheduler` that hold call_outs. -/
structure CallOuts (T : Type) where
  callOuts : List (CallOutEntry T) := []
  nextHandle : Int := 1

/-- `remainingSeconds`. -/
def remainingSeconds (now dueAt : Nat) : Int :=
  if dueAt ≤ now then 0 else ((dueAt - now) / 1000000000 : Nat)

/-- The two ways `find_call_out` and `remove_call_out` name an entry. -/
inductive Selector
  | byName (owner : Option ObjectId) (function : Str)
  | byHandle (handle : Int)

/-- Whether an entry is the one named.  A closure entry has no name, and nothing is
named without an owner. -/
def Selector.picks (world : World) : Selector → CallOutEntry T → Bool
  | .byName owner function, entry =>
      owner.isSome && entry.closure.isNone && world.lock entry.target == owner &&
        entry.function == function
  | .byHandle handle, entry => entry.handle == handle

/-- The object `removeAllCallOutsForObject` takes an entry to belong to. -/
def CallOutEntry.owner (world : World) (entry : CallOutEntry T) : Option ObjectId :=
  match entry.closure with
  | some closure => world.lock (world.closureOwner closure)
  | none => world.lock entry.target

/-- The condition on which `removeAllCallOutsForObject` erases an entry. -/
def CallOutEntry.purged (world : World) (obj : Option ObjectId) (entry : CallOutEntry T) :
    Bool :=
  let owner := entry.owner world
  (obj.isSome && owner == obj) || owner.all (world.status · == .destructed)

namespace CallOuts

/-- `addCallOut`, with the handle from `newCallOutHandle`. -/
def addCallOut (s : CallOuts T) (entry : CallOutEntry T) : CallOuts T :=
  { callOuts := s.callOuts ++ [{ entry with handle := s.nextHandle }]
    nextHandle := s.nextHandle + 1 }

/-- The search of the `find` and `remove` operations: the time the first entry named
has left, or -1. -/
def remaining (s : CallOuts T) (world : World) (now : Nat) (selector : Selector) : Int :=
  match s.callOuts.find? (selector.picks world) with
  | some entry => remainingSeconds now entry.dueAt
  | none => -1

/-- Erase the first entry named. -/
def erase (s : CallOuts T) (world : World) (selector : Selector) : CallOuts T :=
  { s with callOuts := s.callOuts.eraseP (selector.picks world) }

/-- `removeAllCallOutsForObject`. -/
def removeAllCallOutsForObject (s : CallOuts T) (world : World)
    (obj : Option ObjectId) : CallOuts T :=
  { s with callOuts := s.callOuts.filter fun entry => !entry.purged world obj }

/-- The entries `tickCallOuts` moves into its private list. -/
def due (s : CallOuts T) (now : Nat) : List (CallOutEntry T) :=
  s.callOuts.filter fun entry => entry.dueAt ≤ now

/-- The table after `tickCallOuts` has moved the due entries out of it. -/
def withoutDue (s : CallOuts T) (now : Nat) : CallOuts T :=
  { s with callOuts := s.callOuts.filter fun entry => !(entry.dueAt ≤ now : Bool) }

end CallOuts

/-- An observable event of a run. -/
inductive Event (T : Type)
  | added (entry : CallOutEntry T)
  | found (world : World) (selector : Selector) (result : Int)
  | removed (world : World) (selector : Selector) (result : Int)
  | removedAll (world : World) (obj : Option ObjectId)
  /-- The body of an entry is called. -/
  | invoked (entry : CallOutEntry T) (time : Nat)
  /-- A due entry is passed over because its target is gone. -/
  | dropped (entry : CallOutEntry T)

/-- The scheduler together with what runs around it: the objects, the steady clock,
the unfired rest of each running sweep, innermost first, and the events so far,
newest first. -/
structure State (T : Type) where
  table : CallOuts T := {}
  world : World
  now : Nat := 0
  ticks : List (List (CallOutEntry T)) := []
  log : List (Event T) := []

/-- What can happen next. -/
inductive Op (T : Type)
  | addCallOut (entry : CallOutEntry T)
  | removeCallOutByName (owner : Option ObjectId) (function : Str)
  | removeCallOutByHandle (handle : Int)
  | removeAllCallOutsForObject (obj : Option ObjectId)
  | findCallOutByName (owner : Option ObjectId) (function : Str)
  | findCallOutByHandle (handle : Int)
  /-- `tickCallOuts` is entered and moves the due entries out of the table. -/
  | beginTick
  /-- The innermost sweep takes its next entry. -/
  | fire
  /-- The innermost sweep returns. -/
  | endTick
  /-- The steady clock moves on. -/
  | clock (time : Nat)
  /-- Objects are created, destructed or freed, closures created or bound. -/
  | change (world : World)

namespace State

/-- Append to the log. -/
def emit (s : State T) (event : Event T) : State T :=
  { s with log := event :: s.log }

/-- One iteration of the loop in `tickCallOuts`, up to the call of the body, which the VM drops
for a destructed object. -/
def fire (s : State T) (entry : CallOutEntry T) (rest : List (CallOutEntry T))
    (outer : List (List (CallOutEntry T))) : State T :=
  let s := { s with ticks := rest :: outer }
  if entry.closure.isNone && (s.world.lock entry.target).isNone then s.emit (.dropped entry)
  else s.emit (.invoked entry s.now)

/-- A `find` operation. -/
def findCallOut (s : State T) (selector : Selector) : State T :=
  s.emit (.found s.world selector (s.table.remaining s.world s.now selector))

/-- A `remove` operation. -/
def removeCallOut (s : State T) (selector : Selector) : State T :=
  { s with
    table := s.table.erase s.world selector
    log := .removed s.world selector (s.table.remaining s.world s.now selector) :: s.log }

/-- Execute one operation; `none` where it cannot happen. -/
def step (s : State T) : Op T → Option (State T)
  | .addCallOut entry =>
      some { s with
        table := s.table.addCallOut entry
        log := .added { entry with handle := s.table.nextHandle } :: s.log }
  | .removeCallOutByName owner function => some (s.removeCallOut (.byName owner function))
  | .removeCallOutByHandle handle => some (s.removeCallOut (.byHandle handle))
  | .removeAllCallOutsForObject obj =>
      some { s with
        table := s.table.removeAllCallOutsForObject s.world obj
        log := .removedAll s.world obj :: s.log }
  | .findCallOutByName owner function => some (s.findCallOut (.byName owner function))
  | .findCallOutByHandle handle => some (s.findCallOut (.byHandle handle))
  | .beginTick =>
      some { s with
        table := s.table.withoutDue s.now
        ticks := s.table.due s.now :: s.ticks }
  | .fire =>
      match s.ticks with
      | (entry :: rest) :: outer => some (s.fire entry rest outer)
      | _ => none
  | .endTick =>
      match s.ticks with
      | [] :: outer => some { s with ticks := outer }
      | _ => none
  | .clock time => if s.now ≤ time then some { s with now := time } else none
  | .change world => some { s with world }

/-- One iteration drops its entry or calls its body. -/
theorem fire_cases (s : State T) (entry : CallOutEntry T) (rest : List (CallOutEntry T))
    (outer : List (List (CallOutEntry T))) :
    s.fire entry rest outer =
        { s with ticks := rest :: outer, log := .dropped entry :: s.log } ∨
      s.fire entry rest outer =
        { s with ticks := rest :: outer, log := .invoked entry s.now :: s.log } := by
  simp only [fire]
  split
  · exact .inl rfl
  · exact .inr rfl

end State

/-- `target` is reached from `source` by executing `ops`. -/
abbrev Run : State T → List (Op T) → State T → Prop :=
  Lib.Runs.Run fun s op t => s.step op = some t

end Kjdmud.Scheduler
