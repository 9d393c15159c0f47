import Kjdmud.Lib.Vectors
import Kjdmud.Object.Containment.Runs
import Kjdmud.Object.Shadow
import Kjdmud.Vm.Mappings

/-!
# Loops that run LPC code

`say`, `tell_room` and `filter_mapping` of `src/efun/EfunTable.cpp` loop over an inventory or
over the entries of a mapping, and what they call for an element may move and destruct
objects, change mappings, and call these efuns again.  An operation is therefore what happens
between two points where LPC code runs: a step of the innermost loop, or one change that LPC
code makes.  An inventory and the entries of a mapping are vectors, with their buffers beside
them.
-/

namespace Kjdmud.Efun

open Object Vectors Vm

/-! ## Changes of a mapping -/

/-- The value refers to an object that is destructed. -/
def goneValue (gone : ObjectId → Bool) (v : Value) : Bool :=
  match v.data with
  | .object (some ob) => gone ob
  | _ => false

/-- What `reclaimSweepValue` leaves in place of a value. -/
def reclaimValue (gone : ObjectId → Bool) (v : Value) : Value :=
  if goneValue gone v then Value.int 0 else v

/-- The loop of `reclaimSweepValue` over a mapping from entry `i` on, in as many rounds as
entries are left. -/
def reclaimFrom (gone : ObjectId → Bool) : Nat → Nat → Mapping → Mapping
  | 0, _, m => m
  | rounds + 1, i, m =>
      match m.entries[i]? with
      | none => m
      | some entry =>
          if goneValue gone entry.1 then reclaimFrom gone rounds i (m.eraseAt i)
          else
            reclaimFrom gone rounds (i + 1)
              { m with
                entries := m.entries.modify i fun e => (e.1, reclaimValue gone e.2)
                extraColumns := m.extraColumns.modify i fun row => row.map (reclaimValue gone) }

/-- `reclaimSweepValue` of one mapping. -/
def reclaim (gone : ObjectId → Bool) (m : Mapping) : Mapping :=
  reclaimFrom gone m.entries.length 0 m

namespace LiveLoops

/-! ## States -/

/-- Who listens. -/
structure Listeners where
  /-- `InteractiveRegistry::find`. -/
  find : ObjectId → Option Nat := fun _ => none
  /-- `Connection::boundObject`. -/
  boundObject : Nat → Option ObjectId := fun _ => none
  /-- `LpcObject::snoopedBy`. -/
  snoopedBy : ObjectId → Option ObjectId := fun _ => none
  commandsEnabled : ObjectId → Bool := fun _ => false

/-- How a text gets to an object. -/
inductive Receipt
  | send (conn : Nat) (text : Str)
  | catchTell (text : Str)

inductive TellEfun
  | say
  | tellRoom
deriving DecidableEq

/-- A loop over an inventory, which passes over one object if it is `say`'s. -/
structure Walk where
  holder : ObjectId
  origin : Option ObjectId

structure Loop where
  walk : Walk
  range : Range

/-- A call of `say` or `tell_room`. -/
structure Telling where
  efun : TellEfun
  avoid : List ObjectId
  text : Str
  walking : Option Loop
  pending : List Walk
  /-- LPC code runs for the last element. -/
  calling : Bool
  /-- What got to whom. -/
  received : List (ObjectId × Receipt)
  /-- Who has been in which inventory since the call began, and has listened. -/
  stayed : List (ObjectId × ObjectId)

/-- A call of `filter_mapping`. -/
structure Filtering where
  mapping : Nat
  index : Nat
  /-- The buffer that the reference `entry` goes into. -/
  allocation : Nat
  /-- What the callback was called with. -/
  given : Value × Value
  result : Mapping
  /-- What the callback answered true for. -/
  accepted : List (Value × Value)
  /-- The capacity of the mapping when the call began. -/
  room : Nat

inductive Frame
  | telling (t : Telling)
  | filtering (f : Filtering)

/-- What a call walks, and is going to walk. -/
def Telling.walks (t : Telling) : List Walk :=
  t.walking.toList.map Loop.walk ++ t.pending

/-- What a call holds on to. -/
def Frame.holders : Frame → List ObjectId
  | .telling t => t.walks.map Walk.holder
  | .filtering _ => []

/-- How many beginnings and ends of loops a call has left, and how many elements its loop has
left.  A filter has no more of them than its mapping has room for. -/
def Frame.rank : Frame → Nat × Nat
  | .telling t =>
      (2 * t.pending.length + t.walking.toList.length,
        (t.walking.map fun loop => loop.range.stop - loop.range.index).getD 0)
  | .filtering f => (0, f.room - f.index)

/-- The objects and the mappings, with the buffers of their vectors. -/
structure Store where
  world : Object.World := {}
  /-- The buffers of the inventories. -/
  memory : ObjectId → Buffer := fun _ => {}
  listeners : Listeners := {}
  mappings : Nat → Mapping := fun _ => ⟨[], 1, []⟩
  /-- The buffers of the entries. -/
  mapMemory : Nat → Buffer := fun _ => {}
  nextMapping : Nat := 0

structure State extends Store where
  /-- The calls that go on, the innermost first. -/
  frames : List Frame := []
  /-- The calls of `say` and `tell_room` that ended. -/
  told : List Telling := []
  /-- The calls of `filter_mapping` that returned. -/
  filtered : List Filtering := []
  /-- Something was read where no element is. -/
  fault : Bool := false

/-- What can happen next. -/
inductive Op
  | construct (filename : Str)
  | move (item dest : ObjectId)
  | setEnvironment (item : ObjectId) (dest : Option ObjectId)
  /-- The end of `destructObject`. -/
  | retire (obj : ObjectId)
  /-- The last reference to an object goes away. -/
  | release (obj : ObjectId)
  /-- Connections, snoops and `enable_commands`. -/
  | listeners (new : Listeners)
  | newMapping (width : Nat) (rows : List (Value × List Value)) (capacity : Nat)
  | assign (m : Nat) (key value : Value) (col : Nat)
  | mapDelete (m : Nat) (key : Value)
  | reclaim (m : Nat)
  | say (origin : ObjectId) (avoid : List ObjectId) (text : Str)
  | tellRoom (room : ObjectId) (avoid : List ObjectId) (text : Str)
  | filterMapping (m : Nat)
  /-- What a loop over an inventory called for an element returns, if anything. -/
  | next
  /-- The callback of `filter_mapping` returns. -/
  | answer (truthy : Bool)
  /-- An LPC error ends the innermost call. -/
  | error

def Op.releases : Op → ObjectId → Bool
  | .release obj, ob => obj = ob
  | _, _ => false

/-! ## Telling -/

/-- `sendTo` of `say`, and the body of the loop of `tell_room`. -/
def Telling.sendTo (t : Telling) (l : Listeners) (ob : ObjectId) : Option Receipt :=
  if ob ∈ t.avoid then none
  else
    match l.find ob with
    | some conn => some (.send conn t.text)
    | none =>
        if t.efun = .say && l.commandsEnabled ob then some (.catchTell t.text) else none

namespace Store

/-- A telling runs LPC code: `receive_snoop` or `catch_tell`. -/
def runsLpc (s : Store) (ob : ObjectId) : Option Receipt → Bool
  | none => false
  | some (.send conn _) =>
      (s.listeners.boundObject conn).any fun victim =>
        (s.listeners.snoopedBy victim).any fun snooper => !s.world.isDestructed snooper
  | some (.catchTell _) => !s.world.isDestructed ob

/-- An element gets the text. -/
def tell (s : Store) (t : Telling) (ob : ObjectId) : Telling :=
  let receipt := t.sendTo s.listeners ob
  { t with
    calling := s.runsLpc ob receipt
    received := t.received ++ receipt.toList.map (ob, ·) }

/-- The body of a loop, for an element that it passes over or tells. -/
def visit (s : Store) (t : Telling) (loop : Loop) (ob : ObjectId) : Telling :=
  let t := { t with walking := some { loop with range := loop.range.next } }
  if loop.walk.origin = some ob then { t with calling := false } else s.tell t ob

/-- A loop over an inventory begins. -/
def begins (s : Store) (walk : Walk) : Loop :=
  ⟨walk, .whole (s.memory walk.holder) (inventoryOf s.world walk.holder)⟩

/-- What a loop reads next. -/
def reads (s : Store) (loop : Loop) : Option ObjectId :=
  (s.memory loop.walk.holder).read (inventoryOf s.world loop.walk.holder)
    loop.range.allocation loop.range.index

/-- An object is in an inventory and listens to a call. -/
def remains (s : Store) (t : Telling) (e : ObjectId × ObjectId) : Bool :=
  s.world.held e.1 && (inventoryOf s.world e.1).contains e.2 && (t.sendTo s.listeners e.2).isSome

/-- Who is in the inventories that a call is going to walk. -/
def present (s : Store) (walks : List Walk) : List (ObjectId × ObjectId) :=
  walks.flatMap fun walk =>
    ((inventoryOf s.world walk.holder).filter fun ob => walk.origin ≠ some ob).map
      (walk.holder, ·)

/-- A call of `say` or `tell_room` begins. -/
def opens (s : Store) (efun : TellEfun) (avoid : List ObjectId) (text : Str)
    (walks : List Walk) : Telling where
  efun := efun
  avoid := avoid
  text := text
  walking := none
  pending := walks
  calling := false
  received := []
  stayed := s.present walks

/-- `result->entries.push_back(entry)` and the row of `extraColumns`. -/
def keeps (s : Store) (f : Filtering) : Option Mapping :=
  let m := s.mappings f.mapping
  ((s.mapMemory f.mapping).read m.entries f.allocation f.index).bind fun entry =>
    let result := { f.result with entries := f.result.entries ++ [entry] }
    if m.extraColumns.isEmpty then some result
    else (m.extraColumns[f.index]?).map fun row =>
      { result with extraColumns := result.extraColumns ++ [row] }

end Store

namespace State

/-- Go on with a call. -/
def withTop (s : State) (frame : Frame) (rest : List Frame) : State :=
  { s with frames := frame :: rest }

/-- One step of `say` or `tell_room`. -/
def advance (s : State) (t : Telling) (rest : List Frame) : State :=
  match t.walking, t.pending with
  | none, [] => { s with frames := rest, told := t :: s.told }
  | none, walk :: pending =>
      s.withTop
        (.telling { t with walking := some (s.begins walk), pending, calling := false }) rest
  | some loop, _ =>
      if loop.range.index = loop.range.stop then
        s.withTop (.telling { t with walking := none, calling := false }) rest
      else
        match s.reads loop with
        | none => { s with fault := true }
        | some ob => s.withTop (.telling (s.visit t loop ob)) rest

/-- `say`. -/
def say (s : State) (origin : ObjectId) (avoid : List ObjectId) (text : Str) : State :=
  match environmentOf s.world origin with
  | none => s.withTop (.telling (s.opens .say avoid text [⟨origin, none⟩])) s.frames
  | some env =>
      s.withTop
        (.telling (s.tell (s.opens .say avoid text [⟨env, some origin⟩, ⟨origin, none⟩]) env))
        s.frames

/-- `tell_room`. -/
def tellRoom (s : State) (room : ObjectId) (avoid : List ObjectId) (text : Str) : State :=
  if s.world.isDestructed room then s
  else s.withTop (.telling (s.opens .tellRoom avoid text [⟨room, none⟩])) s.frames

/-- Who stayed, after something happened. -/
def observeFrame (s : State) : Frame → Frame
  | .telling t => .telling { t with stayed := t.stayed.filter (s.remains t) }
  | .filtering f => .filtering f

def observe (s : State) : State :=
  { s with frames := s.frames.map s.observeFrame }

/-! ## Filtering -/

/-- The loop of `filter_mapping` fetches an entry and calls the callback, or it ends. -/
def fetch (s : State) (f : Filtering) (rest : List Frame) : State :=
  match (s.mappings f.mapping).entries[f.index]? with
  | none => { s with frames := rest, filtered := f :: s.filtered }
  | some entry =>
      s.withTop
        (.filtering
          { f with allocation := (s.mapMemory f.mapping).allocation, given := entry }) rest

/-- `filter_mapping`. -/
def filterMapping (s : State) (m : Nat) : State :=
  s.fetch
    { mapping := m
      index := 0
      allocation := (s.mapMemory m).allocation
      given := (Value.void, Value.void)
      result := ⟨[], (s.mappings m).width, []⟩
      accepted := []
      room := (s.mapMemory m).capacity } s.frames

/-- The callback of `filter_mapping` returns. -/
def answer (s : State) (f : Filtering) (truthy : Bool) (rest : List Frame) : State :=
  if truthy then
    match s.keeps f with
    | none => { s with fault := true }
    | some result =>
        s.fetch { f with index := f.index + 1, result, accepted := f.accepted ++ [f.given] } rest
  else s.fetch { f with index := f.index + 1 } rest

end State

/-! ## Changes that LPC code makes -/

namespace Store

/-- A new environment, with the buffer that the inventory there needs. -/
def place (grow : Nat → Nat) (s : Store) (item : ObjectId) (dest : Option ObjectId) : Store :=
  let world := Object.setEnvironment s.world item dest
  { s with
    world
    memory := fun x =>
      if dest = some x then (s.memory x).holding grow (inventoryOf world x).length
      else s.memory x }

/-- A mapping changes, with the buffer that its entries need. -/
def setMapping (grow : Nat → Nat) (s : Store) (m : Nat) (mapping : Mapping) : Store :=
  { s with
    mappings := Function.update s.mappings m mapping
    mapMemory := Function.update s.mapMemory m
      ((s.mapMemory m).holding grow mapping.entries.length) }

/-- A mapping is made. -/
def newMapping (s : Store) (width : Nat) (rows : List (Value × List Value)) (capacity : Nat) :
    Store :=
  { s with
    mappings := Function.update s.mappings s.nextMapping (Mapping.ofRows width rows)
    mapMemory := Function.update s.mapMemory s.nextMapping ⟨max capacity rows.length, 0⟩
    nextMapping := s.nextMapping + 1 }

/-- One change that LPC code makes. -/
def change (grow : Nat → Nat) (s : Store) : Op → Option Store
  | .construct filename => some { s with world := s.world.construct filename }
  | .move item dest =>
      if s.world.held item && s.world.held dest then
        some (if refusesMove s.world item dest then s else s.place grow item (some dest))
      else none
  | .setEnvironment item dest =>
      if s.world.held item && dest.all s.world.held then some (s.place grow item dest) else none
  | .retire obj => some { s with world := Object.retire s.world obj }
  | .release obj =>
      if (environmentOf s.world obj).isSome then none
      else some { s with world := Object.release s.world obj }
  | .listeners new => some { s with listeners := new }
  | .newMapping width rows capacity =>
      if 1 ≤ width && rows.all fun row => row.2.length = width then
        some (s.newMapping width rows capacity)
      else none
  | .assign m key value col =>
      if m < s.nextMapping && col < (s.mappings m).width then
        some (s.setMapping grow m ((s.mappings m).assign key value col))
      else none
  | .mapDelete m key =>
      if m < s.nextMapping then some (s.setMapping grow m ((s.mappings m).delete key)) else none
  | .reclaim m =>
      if m < s.nextMapping then
        some (s.setMapping grow m (Efun.reclaim s.world.isDestructed (s.mappings m)))
      else none
  | _ => none

end Store

namespace State

/-! ## Runs -/

/-- LPC code is running, or nothing is. -/
def inLpc (s : State) : Bool :=
  match s.frames with
  | .telling t :: _ => t.calling
  | _ => true

/-- What the calls that go on hold on to. -/
def holders (s : State) : List ObjectId :=
  s.frames.flatMap Frame.holders

/-- What LPC code can do next: a call, or a change.  Objects that a call holds on to stay in
memory. -/
def lpc (grow : Nat → Nat) (s : State) : Op → Option State
  | .say origin avoid text =>
      if s.world.held origin then some (s.say origin avoid text) else none
  | .tellRoom room avoid text =>
      if s.world.held room then some (s.tellRoom room avoid text) else none
  | .filterMapping m => if m < s.nextMapping then some (s.filterMapping m) else none
  | op =>
      if s.holders.any fun obj => op.releases obj then none
      else (s.change grow op).map fun store => { s with toStore := store }

/-- The innermost call goes on. -/
def resume (s : State) : Op → Option State
  | .next =>
      match s.frames with
      | .telling t :: rest => some (s.advance t rest)
      | _ => none
  | .answer truthy =>
      match s.frames with
      | .filtering f :: rest => some (s.answer f truthy rest)
      | _ => none
  | .error =>
      match s.frames with
      | .telling t :: rest =>
          if t.calling then some { s with frames := rest, told := t :: s.told } else none
      | .filtering _ :: rest => some { s with frames := rest }
      | [] => none
  | _ => none

/-- Execute one operation; `none` where it cannot happen. -/
def run (grow : Nat → Nat) (s : State) (op : Op) : Option State :=
  if s.fault then none
  else
    ((s.resume op).or (if s.inLpc then s.lpc grow op else none)).map observe

/-- The state after some operations, if they can happen. -/
def after (grow : Nat → Nat) (s : State) : List Op → Option State
  | [] => some s
  | op :: ops => (s.run grow op).bind fun s' => s'.after grow ops

/-! ## Clear runs -/

/-- The loops over inventories that go on. -/
def loops (s : State) : List Loop :=
  s.frames.filterMap fun frame =>
    match frame with
    | .telling t => t.walking
    | .filtering _ => none

/-- The calls of `filter_mapping` that go on. -/
def filterings (s : State) (m : Nat) : List Filtering :=
  s.frames.filterMap fun frame =>
    match frame with
    | .telling _ => none
    | .filtering f => if f.mapping = m then some f else none

end State

/-- A loop that has something left to read lets an item go from its inventory, or come to it:
the item was not read yet, no element is missing at the end, and the buffer has room. -/
def Store.Admits (s : Store) (loop : Loop) (item : ObjectId) (dest : Option ObjectId) : Prop :=
  let inside := inventoryOf s.world loop.walk.holder
  if environmentOf s.world item = some loop.walk.holder then
    item ∉ inside.take loop.range.index ∧
      if dest = some loop.walk.holder then inside.length = loop.range.stop
      else loop.range.stop < inside.length
  else dest = some loop.walk.holder → inside.length < (s.memory loop.walk.holder).capacity

namespace State

/-- An item gets a new environment, and every loop that has something left to read admits
it. -/
def Moves (s : State) (item : ObjectId) (dest : Option ObjectId) : Prop :=
  ∀ loop ∈ s.loops, loop.range.index < loop.range.stop → s.Admits loop item dest

/-- The condition on an operation. -/
def Clear (s : State) : Op → Prop
  | .move item dest => refusesMove s.world item dest = false → s.Moves item (some dest)
  | .setEnvironment item dest => s.Moves item dest
  | .retire obj => s.Moves obj none
  | .assign m key _ col => ∀ f ∈ s.filterings m,
      match (s.mappings m).find key with
      | some i => i = f.index → col ≠ 0
      | none => (s.mappings m).entries.length < (s.mapMemory m).capacity
  | .mapDelete m key => ∀ f ∈ s.filterings m,
      ∀ entry ∈ (s.mappings m).entries.take (f.index + 1), valuesEqual entry.1 key = false
  | .reclaim m => ∀ f ∈ s.filterings m,
      (∀ entry ∈ (s.mappings m).entries.take (f.index + 1),
        goneValue s.world.isDestructed entry.1 = false) ∧
      goneValue s.world.isDestructed f.given.2 = false
  | .say origin _ _ => ∀ env, environmentOf s.world origin = some env →
      environmentOf s.world env ≠ some env ∧ environmentOf s.world env ≠ some origin
  | .error => ∀ t rest, s.frames ≠ .telling t :: rest
  | _ => True

/-- Every operation meets its condition in the state it finds. -/
def Clears (grow : Nat → Nat) (s : State) : List Op → Prop
  | [] => True
  | op :: ops => s.Clear op ∧ ∀ s', s.run grow op = some s' → s'.Clears grow ops

/-! ## The law -/

/-- What every call has left. -/
def ranks (s : State) : List (Nat × Nat) :=
  s.frames.map Frame.rank

/-- The innermost call is over, or it has less left. -/
def Proceeds (s s' : State) : Prop :=
  ∀ left rest, s.ranks = left :: rest →
    s'.ranks = rest ∨ ∃ less, s'.ranks = less :: rest ∧ Prod.Lex (· < ·) (· < ·) less left

/-- Calls may begin, and those that go on have as much left as before. -/
def Suspends (s s' : State) : Prop :=
  ∃ new, s'.ranks = new ++ s.ranks

/-- The loops stay inside their containers, and they end. -/
structure Lawful (grow : Nat → Nat) (s : State) : Prop where
  inside : s.fault = false
  once : ∀ t ∈ s.told, ∀ e ∈ t.stayed, (t.received.map Prod.fst).count e.2 = 1
  own : ∀ f ∈ s.filtered, f.result.entries = f.accepted
  ends : ∀ op s', s.run grow op = some s' →
    if (s.resume op).isSome then s.Proceeds s' else s.Suspends s'

end State

end LiveLoops

end Kjdmud.Efun
