import Kjdmud.Object.ObjectManager
import Kjdmud.Vm.FunctionLookup
import Kjdmud.Lib.Runs

/-!
# Shadows

An object may shadow another and answer calls in its place.  The efuns `shadow`,
`unshadow` and `remove_shadow`, `destructObject` and `reloadObject`, and
`processPendingReplacePrograms` change the links of the chains, and `callFunction`
follows them.  LPC code runs inside two of these: the apply of the master between the tests
of `shadow` and its linking, and `on_destruct` in the middle of a destruction.  A run
is taken apart there.
-/

namespace Kjdmud.Object

open Kjdmud.Vm (CompiledProgram FunctionLookup)

namespace World

/-- The memory of an object is there. -/
def held (w : World) (id : ObjectId) : Bool :=
  (w.objects id).any fun o => !o.freed

/-- `isDestructed`; there is nothing to do for an object that does not exist. -/
def isDestructed (w : World) (id : ObjectId) : Bool :=
  (w.objects id).all LpcObject.destructed

/-- An object that is neither destructed nor freed. -/
def live (w : World) (id : ObjectId) : Bool :=
  w.held id && !w.isDestructed id

end World

/-! ## The operations -/

/-- The tests of the efun `shadow`: whether it calls the apply of the master. -/
def shadowAsks (ldmud : Bool) (w : World) (self ob : ObjectId) : Bool :=
  !w.isDestructed ob && ob != self && (w.link self LpcObject.shadowing).isNone &&
    (w.link self LpcObject.shadowedBy).isNone &&
    (w.link self LpcObject.environment).isNone && (ldmud || w.master != some ob) &&
    (w.link ob LpcObject.shadowing).isNone && w.master.isSome

/-- `setShadowing` and `setShadowedBy` of two objects. -/
def linkShadow (w : World) (self victim : ObjectId) : World :=
  (w.modify self fun o => { o with shadowing := some victim }).modify victim fun o =>
    { o with shadowedBy := some self }

/-- The end of the efun `shadow`, after the apply approved. -/
def attachShadow (fuel : Nat) (w : World) (self ob : ObjectId) : Option World :=
  if w.isDestructed self then some w
  else (shadowTop fuel w ob).map fun victim => linkShadow w self victim

/-- The efun `unshadow`. -/
def unshadow (w : World) (self : ObjectId) : World :=
  match w.link self LpcObject.shadowing with
  | none => w
  | some victim =>
      let shadower := w.link self LpcObject.shadowedBy
      let w := w.modify victim fun o => { o with shadowedBy := shadower }
      let w := w.modifyLinked shadower fun o => { o with shadowing := some victim }
      w.modify self fun o => { o with shadowing := none, shadowedBy := none }

/-- What `processPendingReplacePrograms` does for one entry, beside the program and the
variables. -/
def replaceProgram (w : World) (ob : ObjectId) (stored : Str) : World :=
  if w.isDestructed ob then w
  else
    let spliced :=
      match w.link ob LpcObject.shadowing with
      | none => w
      | some shadowingTarget =>
          let myShadower := w.link ob LpcObject.shadowedBy
          let w := w.modify shadowingTarget fun o => { o with shadowedBy := myShadower }
          let w :=
            match myShadower with
            | none => w
            | some shadower =>
                (w.modify shadower fun o => { o with shadowing := some shadowingTarget }).modify
                  ob fun o => { o with shadowedBy := none }
          w.modify ob fun o => { o with shadowing := none }
    spliced.modify ob fun o => { o with replacedProgramName := some stored }

/-- The links of an object are cleared. -/
def clearShadow (w : World) (ob : ObjectId) : World :=
  w.modify ob fun o => { o with shadowing := none, shadowedBy := none }

/-- The cascade of `reloadObject`. -/
def reloadChain (onDestructed : OnDestructed) : Nat → World → Option ObjectId → Option World
  | 0, _, _ => none
  | _ + 1, w, none => some w
  | fuel + 1, w, some cur =>
      let next := w.link cur LpcObject.shadowedBy
      (destructObject onDestructed fuel (clearShadow w cur) cur).bind fun w =>
        reloadChain onDestructed fuel w next

/-- `reloadObject` up to its `create()`, beside the variables. -/
def reloadObject (onDestructed : OnDestructed) (fuel : Nat) (w : World) (obj : ObjectId) :
    Option World :=
  let unlinked :=
    if isShadowBase w obj then
      (reloadChain onDestructed fuel w (w.link obj LpcObject.shadowedBy)).map fun w =>
        clearShadow w obj
    else some (unlinkShadow w obj)
  unlinked.map fun w => { w with livingNames := w.livingNames.filter (· ≠ obj) }

/-! ## Destruction in stages -/

/-- `destructObject` up to its first `on_destruct`, or to the first object of a cascade. -/
def destructs {σ : Type} (w : World) (obj : ObjectId) (notify : Bool) (fuel : Nat) (done : σ)
    (cascade : ObjectId → σ) (calls ends : World → σ) : Option σ :=
  if w.isDestructed obj then some done
  else if isShadowBase w obj then
    (w.link obj LpcObject.shadowedBy).bind fun above => (shadowTop fuel w above).map cascade
  else if notify then some (calls (unlinkShadow w obj))
  else some (ends (unlinkShadow w obj))

/-- Where `destructs` stops. -/
inductive Stops {σ : Type} (w : World) (obj : ObjectId) (notify : Bool) (done : σ)
    (cascade : ObjectId → σ) (calls ends : World → σ) : σ → Prop
  | done (destructed : w.isDestructed obj = true) : Stops w obj notify done cascade calls ends done
  | cascade (top : ObjectId) : Stops w obj notify done cascade calls ends (cascade top)
  | calls : Stops w obj notify done cascade calls ends (calls (unlinkShadow w obj))
  | ends (alive : w.isDestructed obj = false) (plain : isShadowBase w obj = false)
      (silent : notify = false) :
      Stops w obj notify done cascade calls ends (ends (unlinkShadow w obj))

theorem destructs_stops {σ : Type} {w : World} {obj : ObjectId} {notify : Bool} {fuel : Nat}
    {done result : σ} {cascade : ObjectId → σ} {calls ends : World → σ}
    (run : destructs w obj notify fuel done cascade calls ends = some result) :
    Stops w obj notify done cascade calls ends result := by
  unfold destructs at run
  split at run
  · next destructed =>
      cases run
      exact .done destructed
  · next alive =>
      split at run
      · obtain ⟨above, _, run⟩ := Option.bind_eq_some_iff.mp run
        obtain ⟨top, _, rfl⟩ := Option.map_eq_some_iff.mp run
        exact .cascade top
      · next plain =>
          cases notify with
          | true =>
              cases run
              exact .calls
          | false =>
              cases run
              exact .ends (Bool.eq_false_iff.mpr alive) (Bool.eq_false_iff.mpr plain) rfl

/-! ## Calls -/

/-- A shadow that `callFunction` goes out to: not the object that calls, and not
destructed. -/
def eligible (w : World) (caller : Option ObjectId) (shadow : ObjectId) : Bool :=
  some shadow != caller && !w.isDestructed shadow

/-- The first loop of `callFunction`: the outermost shadow. -/
def outermost (w : World) (caller : Option ObjectId) : Nat → ObjectId → Option ObjectId
  | 0, _ => none
  | fuel + 1, target =>
      match w.link target LpcObject.shadowedBy with
      | some shadow =>
          if eligible w caller shadow then outermost w caller fuel shadow else some target
      | none => some target

/-- The second loop of `callFunction`: the function to run, and the object it runs in. -/
def retryForShadow {F : Type} (w : World) (find : ObjectId → Option F) :
    Nat → ObjectId → Option (Option (ObjectId × F))
  | 0, _ => none
  | fuel + 1, target =>
      match find target with
      | some found => some (some (target, found))
      | none =>
          match w.link target LpcObject.shadowing with
          | some next => retryForShadow w find fuel next
          | none => some none

/-- `callFunction` up to the `run` of the function it finds. -/
def callFunction {F : Type} (w : World) (caller : Option ObjectId)
    (find : ObjectId → Option F) (fuel : Nat) (obj : ObjectId) :
    Option (Option (ObjectId × F)) :=
  if w.isDestructed obj then some none
  else (outermost w caller fuel obj).bind fun target => retryForShadow w find fuel target

/-- What `callFunction` finds in an object. -/
def findIn (program : ObjectId → CompiledProgram) (name : Str) (target : ObjectId) :
    FunctionLookup :=
  (Vm.findFunctionInChain name (program target) []).1

end Kjdmud.Object

/-! ## Runs -/

namespace Kjdmud.Object.Shadow

/-- What the driver is in the middle of while LPC code runs, or between two destructions. -/
inductive Frame
  /-- The apply of the master for a call of `shadow`. -/
  | shadow (self ob : ObjectId)
  /-- The `on_destruct` of an object. -/
  | onDestruct (obj : ObjectId)
  /-- The loop of `destructObject` down a chain. -/
  | cascade (top : Option ObjectId)

structure State where
  world : World
  stack : List Frame := []

/-- What can happen next.  The operations have the bound of their loops, and whether the
object to be destructed wants its `on_destruct`. -/
inductive Op
  | shadow (ldmud : Bool) (self ob : ObjectId)
  | shadowReturns (approved : Bool) (fuel : Nat)
  | unshadow (self : ObjectId)
  | removeShadow (ob : ObjectId)
  | replaceProgram (ob : ObjectId) (stored : Str)
  | destruct (obj : ObjectId) (notify : Bool) (fuel : Nat)
  | onDestructReturns
  | cascade (notify : Bool) (fuel : Nat)
  | reload (obj : ObjectId) (fuel : Nat)
  /-- A program is loaded or cloned. -/
  | construct (filename : Str)
  | move (item dest : ObjectId)
  | release (obj : ObjectId)

namespace State

/-- LPC code is running, or nothing is. -/
def inLpc (s : State) : Bool :=
  match s.stack with
  | .cascade _ :: _ => false
  | _ => true

/-- LPC code that can run holds a reference. -/
def holds (s : State) (id : ObjectId) : Bool :=
  s.inLpc && s.world.held id

/-- `destructObject` up to its first `on_destruct` or the first object of a cascade. -/
def destruct (s : State) (obj : ObjectId) (notify : Bool) (fuel : Nat) : Option State :=
  destructs s.world obj notify fuel s (fun top => { s with stack := .cascade (some top) :: s.stack })
    (fun w => { world := w, stack := .onDestruct obj :: s.stack })
    fun w => { s with world := retire w obj }

/-- Drop the link between an object of a cascade and the one below it. -/
def cutBelow (w : World) (top : ObjectId) : World :=
  (w.modifyLinked (w.link top LpcObject.shadowing) fun o => { o with shadowedBy := none }).modify
    top fun o => { o with shadowing := none }

/-- Execute one operation; `none` where it cannot happen. -/
def step (s : State) : Op → Option State
  | .shadow ldmud self ob =>
      if s.holds self && s.holds ob then
        if shadowAsks ldmud s.world self ob then
          some { s with stack := .shadow self ob :: s.stack }
        else some s
      else none
  | .shadowReturns approved fuel =>
      match s.stack with
      | .shadow self ob :: stack =>
          if s.world.held self && s.world.held ob then
            if approved then
              (attachShadow fuel s.world self ob).map fun w => { world := w, stack := stack }
            else some { s with stack := stack }
          else none
      | _ => none
  | .unshadow self =>
      if s.holds self then some { s with world := unshadow s.world self } else none
  | .removeShadow ob =>
      if s.holds ob then some { s with world := removeShadow s.world ob } else none
  | .replaceProgram ob stored =>
      if s.holds ob then some { s with world := replaceProgram s.world ob stored }
      else none
  | .destruct obj notify fuel =>
      if s.holds obj then s.destruct obj notify fuel else none
  | .onDestructReturns =>
      match s.stack with
      | .onDestruct obj :: stack =>
          if s.world.held obj then some { world := retire s.world obj, stack := stack }
          else none
      | _ => none
  | .cascade notify fuel =>
      match s.stack with
      | .cascade none :: stack => some { s with stack := stack }
      | .cascade (some top) :: stack =>
          if s.world.held top then
            let below := s.world.link top LpcObject.shadowing
            State.destruct { world := cutBelow s.world top, stack := .cascade below :: stack } top
              notify fuel
          else none
      | _ => none
  | .reload obj fuel =>
      if s.holds obj then
        (reloadObject (fun w _ => w) fuel s.world obj).map fun w => { s with world := w }
      else none
  | .construct filename =>
      if s.inLpc then some { s with world := s.world.construct filename } else none
  | .move item dest =>
      if s.holds item && s.holds dest then
        some { s with world := moveObject s.world item dest }
      else none
  | .release obj => some { s with world := Object.release s.world obj }

end State

/-- LPC code goes wrong with a `shadow` that waits for its answer, or with an object in its
`on_destruct`, in these ways only. -/
def Op.Clear (s : State) : Op → Prop
  | .shadowReturns true _ => ∀ self ob stack, s.stack = .shadow self ob :: stack →
      s.world.isDestructed self = false →
        s.world.isDestructed ob = false ∧ s.world.link self LpcObject.shadowing = none ∧
          ¬ Relation.ReflTransGen (fun a b => s.world.link a LpcObject.shadowing = some b) ob self
  | .onDestructReturns => ∀ obj stack, s.stack = .onDestruct obj :: stack →
      s.world.isDestructed obj = false →
        s.world.link obj LpcObject.shadowing = none ∧
          s.world.link obj LpcObject.shadowedBy = none
  | _ => True

/-- `target` is reached from `source` by executing `ops`. -/
abbrev Run : State → List Op → State → Prop :=
  Lib.Runs.Run fun s op t => s.step op = some t

/-- A run whose operations are all clear. -/
abbrev ClearRun : State → List Op → State → Prop :=
  Lib.Runs.ClearRun (fun s op t => s.step op = some t) fun s op => op.Clear s

end Kjdmud.Object.Shadow
