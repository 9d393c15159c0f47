import Kjdmud.Object.Shadow

/-!
# The table of loaded objects

`loadObject`, `loadVirtualObject`, `cloneObject` and `destructObject` of the object manager
with the LPC code that they run: `compile_object` before a virtual object is bound, `create()`
and the applies before it behind the entry of a new object, and `on_destruct` in the middle of
a destruction.  Any of them may go on to load, clone and destruct, so a run is taken apart
there.
-/

namespace Kjdmud.Object.LoadedTable

/-- What the driver is in the middle of. -/
inductive Frame
  /-- The master's `compile_object` for a path without a source file. -/
  | compileObject (filename : Str)
  /-- The applies and the `create()` of a new object, which is loaded or a clone. -/
  | create (obj : ObjectId) (filename : Str) (clone : Bool)
  /-- The `on_destruct` of an object. -/
  | onDestruct (obj : ObjectId)
  /-- The loop of `destructObject` down a chain. -/
  | cascade (top : ObjectId)

structure State where
  world : World := {}
  stack : List Frame := []

/-- What `loadObject`, `lookupLoadedObject` and `cloneObject` return. -/
inductive Answer
  | loaded (ob : Option ObjectId)
  | cloned (ob : Option ObjectId)

/-- What can happen next. -/
inductive Op
  /-- `loadObject`; whether there is a source file, and whether it compiles. -/
  | load (rawFilename : Str) (sourceFileExists compiles : Bool)
  /-- `compile_object` throws or returns no object, or it returns one. -/
  | compileObjectReturns (ob : Option ObjectId)
  /-- `create()` returns, or it throws. -/
  | createReturns (throws : Bool)
  | lookup (rawFilename : Str)
  | clone (rawFilename : Str) (compiles : Bool)
  /-- `destructObject`; whether the object wants its `on_destruct`. -/
  | destruct (obj : ObjectId) (notify : Bool) (fuel : Nat)
  | onDestructReturns
  | cascade (notify : Bool) (fuel : Nat)
  /-- A turn of the cascade of `reloadObject`. -/
  | expel (cur : ObjectId)
  /-- `loadMasterObject` and its like remember what they loaded. -/
  | setMaster (ob : Option ObjectId)
  | linkShadow (self victim : ObjectId)
  | removeShadow (ob : ObjectId)
  | move (item dest : ObjectId)
  | release (obj : ObjectId)

namespace State

/-- LPC code is running, or nothing is. -/
def inLpc (s : State) : Bool :=
  match s.stack with
  | .cascade _ :: _ => false
  | _ => true

/-- LPC code that can run holds a reference. -/
def holds (s : State) (id : ObjectId) : Bool :=
  s.inLpc && s.world.held id

def withWorld (s : State) (w : World) : State :=
  { s with world := w }

def answers (s : State) (answer : Answer) : State × Option Answer :=
  (s, some answer)

/-- The beginning of `loadVirtualObject`. -/
def loadVirtualObject (s : State) (filename : Str) : State × Option Answer :=
  if s.world.master.isNone then s.answers (.loaded none)
  else if s.world.virtualCompiling.contains filename then s.answers (.loaded none)
  else
    ({ world := { s.world with virtualCompiling := filename :: s.world.virtualCompiling }
       stack := .compileObject filename :: s.stack }, none)

/-- `loadObject`, up to the LPC code that it runs. -/
def loadObject (s : State) (rawFilename : Str) (sourceFileExists compiles : Bool) :
    State × Option Answer :=
  let filename := normalizeFilename rawFilename
  match s.world.loaded filename with
  | some existing => s.answers (.loaded (some existing))
  | none =>
      if !sourceFileExists then s.loadVirtualObject filename
      else if !compiles then s.answers (.loaded none)
      else
        let obj := s.world.next
        ({ world := ((s.world.construct filename).setLoaded filename obj).register obj
           stack := .create obj filename false :: s.stack }, none)

/-- `cloneObject` for a caller that may clone, up to the LPC code that it runs. -/
def cloneObject (s : State) (rawFilename : Str) (compiles : Bool) : State × Option Answer :=
  let filename := normalizeFilename rawFilename
  if !compiles then s.answers (.cloned none)
  else
    let obj := s.world.next
    ({ world := (s.world.construct filename).register obj
       stack := .create obj filename true :: s.stack }, none)

/-- The end of `loadVirtualObject`, when `compile_object` is done. -/
def compiled (s : State) (filename : Str) (ob : Option ObjectId) : State × Option Answer :=
  let s := s.withWorld
    { s.world with virtualCompiling := s.world.virtualCompiling.erase filename }
  match ob with
  | none => s.answers (.loaded none)
  | some ob => (s.withWorld (bindVirtual s.world filename ob)).answers (.loaded (some ob))

/-- The end of `loadObject` or `cloneObject`, when `create()` is done. -/
def created (s : State) (obj : ObjectId) (filename : Str) (clone throws : Bool) :
    State × Option Answer :=
  if clone then s.answers (.cloned (if throws then none else some obj))
  else if throws then (s.withWorld (s.world.eraseLoaded filename)).answers (.loaded none)
  else s.answers (.loaded (some obj))

/-- `destructObject` up to its first `on_destruct` or the first object of a cascade. -/
def destruct (s : State) (obj : ObjectId) (notify : Bool) (fuel : Nat) : Option State :=
  destructs s.world obj notify fuel s (fun top => { s with stack := .cascade top :: s.stack })
    (fun w => { world := w, stack := .onDestruct obj :: s.stack }) fun w => s.withWorld (retire w obj)

/-- The loop of `destructObject` takes `top` out of the chain and goes on below. -/
def descends (s : State) (top : ObjectId) (stack : List Frame) : State where
  world := Shadow.State.cutBelow s.world top
  stack :=
    match s.world.link top LpcObject.shadowing with
    | some below => .cascade below :: stack
    | none => stack

/-- A turn of the cascade of `reloadObject`. -/
def expel (s : State) (cur : ObjectId) : State :=
  if s.world.isDestructed cur then s
  else s.withWorld (retire (unlinkShadow (clearShadow s.world cur) cur) cur)

/-- Execute one operation, with what a function of the manager returns if it ends here; `none`
where it cannot happen. -/
def run (s : State) : Op → Option (State × Option Answer)
  | .load rawFilename sourceFileExists compiles =>
      if s.inLpc then some (s.loadObject rawFilename sourceFileExists compiles) else none
  | .compileObjectReturns ob =>
      match s.stack with
      | .compileObject filename :: stack =>
          if ob.all s.world.held then some (State.compiled ⟨s.world, stack⟩ filename ob) else none
      | _ => none
  | .createReturns throws =>
      match s.stack with
      | .create obj filename clone :: stack =>
          some (State.created ⟨s.world, stack⟩ obj filename clone throws)
      | _ => none
  | .lookup rawFilename =>
      if s.inLpc then some (s.answers (.loaded (lookupLoadedObject s.world rawFilename)))
      else none
  | .clone rawFilename compiles =>
      if s.inLpc then some (s.cloneObject rawFilename compiles) else none
  | .destruct obj notify fuel =>
      if s.holds obj then (s.destruct obj notify fuel).map (·, none) else none
  | .onDestructReturns =>
      match s.stack with
      | .onDestruct obj :: stack =>
          if s.world.held obj then some (⟨retire s.world obj, stack⟩, none) else none
      | _ => none
  | .cascade notify fuel =>
      match s.stack with
      | .cascade top :: stack =>
          if s.world.held top then
            ((s.descends top stack).destruct top notify fuel).map (·, none)
          else none
      | _ => none
  | .expel cur => if s.holds cur then some (s.expel cur, none) else none
  | .setMaster ob =>
      if s.inLpc then some (s.withWorld { s.world with master := ob }, none) else none
  | .linkShadow self victim =>
      if s.holds self && s.holds victim then
        some (s.withWorld (linkShadow s.world self victim), none)
      else none
  | .removeShadow ob =>
      if s.holds ob then some (s.withWorld (removeShadow s.world ob), none) else none
  | .move item dest =>
      if s.holds item && s.holds dest then
        some (s.withWorld (moveObject s.world item dest), none)
      else none
  | .release obj => some (s.withWorld (release s.world obj), none)

/-- The state after some operations, if they can happen. -/
abbrev after (s : State) : List Op → Option State :=
  Lib.Runs.after run s

/-! ## Clear runs -/

/-- The condition on an operation.  `compile_object` returns an object that is not destructed
and loaded under no other name; `create()` leaves its object alive; and where it throws, the
entry is not another object's.
A clone's `create()` may do as it likes. -/
def Clear (s : State) : Op → Prop
  | .compileObjectReturns ob => ∀ filename stack new, s.stack = .compileObject filename :: stack →
      ob = some new → s.world.isDestructed new = false ∧
        ∀ other, s.world.loaded other = some new → other = filename
  | .createReturns throws => ∀ obj filename stack, s.stack = .create obj filename false :: stack →
      if throws then ∀ other, s.world.loaded filename = some other → other = obj
      else s.world.isDestructed obj = false
  | _ => True

/-- Every operation meets its condition in the state it finds. -/
abbrev Clears (s : State) : List Op → Prop :=
  Lib.Runs.Clears run Clear s

/-! ## The law -/

/-- Every entry leads to an object that is not destructed and goes by the name of the entry. -/
def Coherent (s : State) : Prop :=
  ∀ filename ob, s.world.loaded filename = some ob →
    s.world.isDestructed ob = false ∧ s.world.filename ob = some filename

/-- An operation answers with no destructed object, and where it fails to load, no entry goes
but that of the object whose `create()` it was. -/
structure Answers (s s' : State) (answer : Answer) : Prop where
  live : ∀ ob, answer = .loaded (some ob) → s'.world.isDestructed ob = false
  kept : answer = .loaded none → ∀ filename ob, s.world.loaded filename = some ob →
    s'.world.loaded filename = some ob ∨ ∃ clone file, s.stack.head? = some (.create ob file clone)

end State

end Kjdmud.Object.LoadedTable
