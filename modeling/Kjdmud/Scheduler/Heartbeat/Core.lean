import Kjdmud.Scheduler.CallOut.Core
import Mathlib.Logic.Function.Basic

/-!
# Heartbeats

`src/scheduler/Scheduler.cpp`: the heartbeat table, `setHeartbeatInterval` and
`tickHeartbeats`.  The interval lives on the object, the countdown in the table,
both as a C++ `int`.  A tick decides who fires before the first body runs, and
a body can do anything, so the tick is split at the bodies as the sweep of the
call_outs is: `beginTick` counts down and takes the list, `fire` is one
iteration of the loop over it.
-/

namespace Kjdmud.Scheduler.Heartbeat

/-- `static_cast<int>`. -/
def narrow (to_ : Int64) : Int :=
  to_.toInt32.toInt

/-- `HeartbeatEntry`. -/
structure HeartbeatEntry where
  target : ObjectId
  ticksRemaining : Int
  deriving DecidableEq

/-- The heartbeat table, and `heartbeatInterval_` of every object. -/
structure Heartbeats where
  heartbeats : List HeartbeatEntry := []
  heartbeatInterval : ObjectId → Int := fun _ => 0

/-- `e.target.lock() == obj`. -/
def HeartbeatEntry.isFor (world : World) (obj : ObjectId) (entry : HeartbeatEntry) : Bool :=
  world.lock (some entry.target) == some obj

/-- Assign the countdown of the first entry of an object. -/
def setTicks (world : World) (obj : ObjectId) (ticks : Int) :
    List HeartbeatEntry → List HeartbeatEntry
  | [] => []
  | entry :: entries =>
      if entry.isFor world obj then { entry with ticksRemaining := ticks } :: entries
      else entry :: setTicks world obj ticks entries

namespace Heartbeats

/-- `LpcObject::setHeartbeatInterval`. -/
def setInterval (s : Heartbeats) (obj : ObjectId) (interval : Int) : Heartbeats :=
  { s with heartbeatInterval := Function.update s.heartbeatInterval obj interval }

/-- Whether the table has an entry of the object. -/
def enabled (s : Heartbeats) (world : World) (obj : ObjectId) : Bool :=
  s.heartbeats.any (·.isFor world obj)

/-- `Scheduler::setHeartbeatInterval`. -/
def setHeartbeatInterval (s : Heartbeats) (world : World) (obj : ObjectId) (to_ : Int64) :
    Heartbeats :=
  if to_ = 0 then
    { s.setInterval obj 0 with heartbeats := s.heartbeats.eraseP (·.isFor world obj) }
  else if s.enabled world obj then
    if to_ < 0 then s
    else
      { s.setInterval obj (narrow to_) with
        heartbeats := setTicks world obj (narrow to_) s.heartbeats }
  else
    let interval := if to_ < 0 then 1 else narrow to_
    { s.setInterval obj interval with heartbeats := s.heartbeats ++ [⟨obj, interval⟩] }

/-- Whether the loop of `tickHeartbeats` lets an entry fire. -/
def fires (world : World) (entry : HeartbeatEntry) : Bool :=
  (world.lock (some entry.target)).isSome && entry.ticksRemaining - 1 < 1

/-- The countdown of one entry; an entry whose object is gone is erased. -/
def countDown (s : Heartbeats) (world : World) (entry : HeartbeatEntry) :
    Option HeartbeatEntry :=
  match world.lock (some entry.target) with
  | none => none
  | some obj =>
      if entry.ticksRemaining - 1 < 1 then
        some { entry with ticksRemaining := s.heartbeatInterval obj }
      else some { entry with ticksRemaining := entry.ticksRemaining - 1 }

/-- The first loop of `tickHeartbeats`. -/
def tick (s : Heartbeats) (world : World) : Heartbeats :=
  { s with heartbeats := s.heartbeats.filterMap (s.countDown world) }

/-- The vector `due` of `tickHeartbeats`. -/
def due (s : Heartbeats) (world : World) : List ObjectId :=
  (s.heartbeats.filter (fires world)).map (·.target)

end Heartbeats

/-- An observable event of a run. -/
inductive Event
  | set (obj : ObjectId) (to_ : Int64)
  | tick
  /-- `heart_beat` is called in an object. -/
  | fired (obj : ObjectId)
  deriving DecidableEq

/-- The scheduler with the objects around it: the objects a running tick has yet
to call, and the events so far, newest first. -/
structure State where
  table : Heartbeats := {}
  world : World
  firing : Option (List ObjectId) := none
  log : List Event := []

/-- What can happen next. -/
inductive Op
  | setHeartbeatInterval (obj : ObjectId) (to_ : Int64)
  /-- `tickHeartbeats` is entered, and its first loop runs. -/
  | beginTick
  /-- The second loop of the running tick takes its next object. -/
  | fire
  /-- The running tick returns. -/
  | endTick
  | destruct (obj : ObjectId)
  /-- The last reference to a destructed object goes. -/
  | free (obj : ObjectId)

namespace State

/-- The objects that a running tick has yet to call. -/
def waiting (s : State) : List ObjectId :=
  s.firing.getD []

/-- Another status for one object. -/
def mark (s : State) (obj : ObjectId) (status : ObjectStatus) : State :=
  { s with world := { s.world with status := Function.update s.world.status obj status } }

/-- Execute one operation; `none` where it cannot happen.  Every holder of a
reference, the list of a running tick included, keeps an object from being
freed. -/
def step (s : State) : Op → Option State
  | .setHeartbeatInterval obj to_ =>
      if s.world.status obj = .gone then none
      else some { s with
        table := s.table.setHeartbeatInterval s.world obj to_
        log := .set obj to_ :: s.log }
  | .beginTick =>
      match s.firing with
      | none =>
          some { s with
            table := s.table.tick s.world
            firing := some (s.table.due s.world)
            log := .tick :: s.log }
      | some _ => none
  | .fire =>
      match s.firing with
      | some (obj :: rest) =>
          some { s with firing := some rest, log := .fired obj :: s.log }
      | _ => none
  | .endTick =>
      match s.firing with
      | some [] => some { s with firing := none }
      | _ => none
  | .destruct obj =>
      if s.world.status obj = .live then some (s.mark obj .destructed) else none
  | .free obj =>
      if s.world.status obj = .destructed ∧ obj ∉ s.waiting then some (s.mark obj .gone)
      else none

end State

/-- The initial state of a scheduler among given objects. -/
def initial (world : World) : State :=
  { world }

/-! ## What a log says about an object -/

/-- The interval an object is enabled with, zero when it is disabled. -/
def intervalOf (obj : ObjectId) : List Event → Int
  | [] => 0
  | .set other to_ :: log =>
      if other = obj then
        if to_ = 0 then 0
        else if to_ < 0 then (if intervalOf obj log = 0 then 1 else intervalOf obj log)
        else to_.toInt
      else intervalOf obj log
  | .tick :: log => intervalOf obj log
  | .fired _ :: log => intervalOf obj log

/-- Whether an event changes an object: a negative interval for an enabled object
does not. -/
def Changes (obj : ObjectId) (log : List Event) : Event → Prop
  | .set other to_ => other = obj ∧ ¬ (to_ < 0 ∧ intervalOf obj log ≠ 0)
  | .tick => False
  | .fired _ => False

instance (obj : ObjectId) (log : List Event) (event : Event) :
    Decidable (Changes obj log event) := by
  cases event <;> unfold Changes <;> infer_instance

/-- The ticks since the last change of an object. -/
def ticksSince (obj : ObjectId) : List Event → Nat
  | [] => 0
  | event :: log =>
      if Changes obj log event then 0
      else ticksSince obj log + if event = .tick then 1 else 0

/-- The calls of `heart_beat` in an object since its last change. -/
def firesSince (obj : ObjectId) : List Event → Nat
  | [] => 0
  | event :: log =>
      if Changes obj log event then 0
      else firesSince obj log + if event = .fired obj then 1 else 0

/-- The law of the heartbeats: the table and the objects agree, the countdowns
are in range between ticks, an object fires once in every `n` ticks after it
was last changed, and never while it is disabled. -/
structure HeartbeatLaw (s : State) : Prop where
  unique : ∀ obj, s.world.status obj = .live →
    (s.table.heartbeats.filter (·.target = obj)).length ≤ 1
  enabled : ∀ obj, s.world.status obj = .live →
    ((∃ entry ∈ s.table.heartbeats, entry.target = obj) ↔ s.table.heartbeatInterval obj ≠ 0)
  countdown : s.firing = none → ∀ entry ∈ s.table.heartbeats,
    s.world.status entry.target = .live →
      1 ≤ entry.ticksRemaining ∧
        entry.ticksRemaining ≤ s.table.heartbeatInterval entry.target
  fires : s.firing = none → ∀ obj, s.world.status obj = .live → 0 < intervalOf obj s.log →
    (firesSince obj s.log : Int) = ticksSince obj s.log / intervalOf obj s.log
  disabled : ∀ later obj earlier, s.log = later ++ .fired obj :: earlier →
    intervalOf obj earlier ≠ 0

end Kjdmud.Scheduler.Heartbeat
