import Kjdmud.Core.Types
import Mathlib.Logic.Function.Basic

/-!
# The object table

`src/object/ObjectManager.cpp`: loading, cloning, virtual objects and
destruction, with the links between objects that these maintain.  LPC code runs
in the middle of most of them (`create()`, `compile_object()`, the privilege and
uid applies of the master, the destruct callback) and may call back into any of
them, so every such call is a parameter that transforms the world.
-/

namespace Kjdmud.Object

/-- The members of `LpcObject` that the manager maintains.  The links are
`weak_ptr`s, the inventory holds its objects. -/
structure LpcObject where
  filename : Str
  isClone : Bool := false
  isVirtual : Bool := false
  destructed : Bool := false
  /-- The memory is released: no `weak_ptr` locks any more. -/
  freed : Bool := false
  shadowing : Option ObjectId := none
  shadowedBy : Option ObjectId := none
  environment : Option ObjectId := none
  inventory : List ObjectId := []
  snooping : Option ObjectId := none
  snoopedBy : Option ObjectId := none
  replacedProgramName : Option Str := none

/-- The members of `ObjectManager` and the registries it maintains. -/
structure World where
  objects : ObjectId → Option LpcObject := fun _ => none
  /-- The identity of the next object constructed. -/
  next : ObjectId := 0
  /-- `loaded_`. -/
  loaded : Str → Option ObjectId := fun _ => none
  master : Option ObjectId := none
  virtualCompiling : List Str := []
  restoredObjects : List ObjectId := []
  /-- `LiveObjectRegistry`. -/
  liveObjects : List ObjectId := []
  /-- `LivingNameRegistry`. -/
  livingNames : List ObjectId := []

namespace World

/-- `weak_ptr::lock`. -/
def lock (w : World) (weak : Option ObjectId) : Option ObjectId :=
  weak.filter fun id => (w.objects id).any fun o => !o.freed

/-- A member of an object read through a link. -/
def link (w : World) (id : ObjectId) (member : LpcObject → Option ObjectId) :
    Option ObjectId :=
  w.lock ((w.objects id).bind member)

/-- Change the members of one object. -/
def modify (w : World) (id : ObjectId) (change : LpcObject → LpcObject) : World :=
  { w with objects := Function.update w.objects id ((w.objects id).map change) }

/-- Change the members of the object a link leads to, if it leads to one. -/
def modifyLinked (w : World) (id : Option ObjectId) (change : LpcObject → LpcObject) : World :=
  match id with
  | some id => w.modify id change
  | none => w

/-- `loaded_[filename] = id`. -/
def setLoaded (w : World) (filename : Str) (id : ObjectId) : World :=
  { w with loaded := Function.update w.loaded filename (some id) }

/-- `loaded_.erase(filename)`. -/
def eraseLoaded (w : World) (filename : Str) : World :=
  { w with loaded := Function.update w.loaded filename none }

/-- The filename of an object. -/
def filename (w : World) (id : ObjectId) : Option Str :=
  (w.objects id).map LpcObject.filename

/-- `std::make_shared<LpcObject>(filename, ...)`. -/
def construct (w : World) (filename : Str) : World :=
  { w with
    objects := Function.update w.objects w.next (some { filename })
    next := w.next + 1 }

end World

/-- `normalizeFilename`: cut one `.c` suffix and prepend a missing slash. -/
def normalizeFilename (filename : Str) : Str :=
  let result :=
    if str ".c" <:+ filename then filename.take (filename.length - 2) else filename
  if result.head? = some 0x2f then result else 0x2f :: result

/-- `lookupLoadedObject`. -/
def lookupLoadedObject (w : World) (rawFilename : Str) : Option ObjectId :=
  w.loaded (normalizeFilename rawFilename)

/-- What the disk and the LPC code called from the manager do. -/
structure Lpc where
  sourceFileExists : Str → Bool
  /-- Whether `compile` returns a program. -/
  compiles : Str → Bool
  /-- `applyMaster("compile_object", ...)`, with the object it returns. -/
  compileObject : World → Str → World × Option ObjectId
  initPrivsForObject : World → ObjectId → World
  assignObjectUid : World → ObjectId → World
  /-- The variable initializers and `create()`, and whether they throw. -/
  create : World → ObjectId → World × Bool

/-- `LiveObjectRegistry::add`. -/
def World.register (w : World) (obj : ObjectId) : World :=
  { w with liveObjects := w.liveObjects ++ [obj] }

/-- The end of `loadVirtualObject`: the object the master returned takes the virtual
path for its filename and its place in the table. -/
def bindVirtual (w : World) (filename : Str) (ob : ObjectId) : World :=
  let w := w.modify ob fun o => { o with filename }
  let w := w.setLoaded filename ob
  w.modify ob fun o => { o with isVirtual := true }

/-- `loadVirtualObject`. -/
def loadVirtualObject (lpc : Lpc) (w : World) (filename : Str) : World × Option ObjectId :=
  if w.master.isNone then (w, none)
  else if filename ∈ w.virtualCompiling then (w, none)
  else
    let w := { w with virtualCompiling := filename :: w.virtualCompiling }
    let called := lpc.compileObject w filename
    let w := { called.1 with virtualCompiling := called.1.virtualCompiling.erase filename }
    match called.2 with
    | none => (w, none)
    | some ob => (bindVirtual w filename ob, some ob)

/-- `loadObject`. -/
def loadObject (lpc : Lpc) (w : World) (rawFilename : Str) : World × Option ObjectId :=
  let filename := normalizeFilename rawFilename
  match w.loaded filename with
  | some existing => (w, some existing)
  | none =>
      if !lpc.sourceFileExists filename then loadVirtualObject lpc w filename
      else if !lpc.compiles filename then (w, none)
      else
        let obj := w.next
        let w := ((w.construct filename).setLoaded filename obj).register obj
        let w := lpc.assignObjectUid (lpc.initPrivsForObject w obj) obj
        let created := lpc.create w obj
        if created.2 then (created.1.eraseLoaded filename, none) else (created.1, some obj)

/-- `loadMasterObject`, without the uid applies of `captureBootUids`. -/
def loadMasterObject (lpc : Lpc) (w : World) (masterFile : Str) : World :=
  let loaded := loadObject lpc w masterFile
  { loaded.1 with master := loaded.2 }

/-- `cloneObject`, for a caller that may clone. -/
def cloneObject (lpc : Lpc) (w : World) (rawFilename : Str) : World × Option ObjectId :=
  let filename := normalizeFilename rawFilename
  if !lpc.compiles filename then (w, none)
  else
    let obj := w.next
    let w := (w.construct filename).register obj
    let w := lpc.assignObjectUid (lpc.initPrivsForObject w obj) obj
    let w := w.modify obj fun o => { o with isClone := true }
    let created := lpc.create w obj
    (created.1, if created.2 then none else some obj)

/-! ## Destruction -/

/-- The callback of `destructObject`. -/
abbrev OnDestructed := World → ObjectId → World

/-- `obj` is the base of a shadow chain: shadowed, and shadowing nothing. -/
def isShadowBase (w : World) (obj : ObjectId) : Bool :=
  (w.link obj LpcObject.shadowedBy).isSome && (w.link obj LpcObject.shadowing).isNone

/-- Splice an object out of its shadow chain. -/
def unlinkShadow (w : World) (obj : ObjectId) : World :=
  let shadowedBy := w.link obj LpcObject.shadowedBy
  let w := w.modifyLinked (w.link obj LpcObject.shadowing) fun o => { o with shadowedBy }
  let shadowing := (w.objects obj).bind LpcObject.shadowing
  let w := w.modifyLinked shadowedBy fun o => { o with shadowing }
  w.modify obj fun o => { o with shadowing := none, shadowedBy := none }

/-- The part of `destructObject` between the callback and the object table: the
snoop link, the flags, the registries and the environment. -/
def detach (w : World) (obj : ObjectId) : World :=
  let w := w.modifyLinked (w.link obj LpcObject.snooping) fun o => { o with snoopedBy := none }
  let w := w.modify obj fun o =>
    { o with snooping := none, destructed := true, replacedProgramName := none }
  let w := { w with
    livingNames := w.livingNames.filter (· ≠ obj)
    liveObjects := w.liveObjects.filter (· ≠ obj) }
  let w := w.modifyLinked (w.link obj LpcObject.environment) fun o =>
    { o with inventory := o.inventory.filter (· ≠ obj) }
  w.modify obj fun o => { o with environment := none }

/-- `loaded_.erase(obj->filename())`. -/
def eraseFilename (w : World) (obj : ObjectId) : World :=
  match w.filename obj with
  | some filename => w.eraseLoaded filename
  | none => w

/-- The part of `destructObject` behind the shadow chain and the callback. -/
def retire (w : World) (obj : ObjectId) : World :=
  let w := eraseFilename (detach w obj) obj
  { w with restoredObjects := w.restoredObjects.filter (· ≠ obj) }

/-- The top of the shadow chain above an object. -/
def shadowTop : Nat → World → ObjectId → Option ObjectId
  | 0, _, _ => none
  | fuel + 1, w, top =>
      match w.link top LpcObject.shadowedBy with
      | some next => shadowTop fuel w next
      | none => some top

mutual

/-- `destructObject`. -/
def destructObject (onDestructed : OnDestructed) : Nat → World → ObjectId → Option World
  | 0, _, _ => none
  | fuel + 1, w, obj =>
      if (w.objects obj).all LpcObject.destructed then some w
      else if isShadowBase w obj then
        match w.link obj LpcObject.shadowedBy with
        | some above =>
            (shadowTop fuel w above).bind fun top =>
              destructChain onDestructed fuel w (some top)
        | none => some w
      else some (retire (onDestructed (unlinkShadow w obj) obj) obj)

/-- The cascade of `destructObject` from the top of a shadow chain to its base. -/
def destructChain (onDestructed : OnDestructed) : Nat → World → Option ObjectId → Option World
  | 0, _, _ => none
  | _ + 1, w, none => some w
  | fuel + 1, w, some top =>
      let below := w.link top LpcObject.shadowing
      let w := w.modifyLinked below fun o => { o with shadowedBy := none }
      let w := w.modify top fun o => { o with shadowing := none }
      (destructObject onDestructed fuel w top).bind fun w =>
        destructChain onDestructed fuel w below

end

/-! ## Shadowing and moving -/

/-- The attaching form of the efun `shadow`, called by `self`.  `approved` is the
answer of the master apply, `fuel` bounds the walk to the end of the chain.  An
error, like a refusal, leaves the world as it is. -/
def shadow (ldmud approved : Bool) (fuel : Nat) (w : World) (self ob : ObjectId) : World :=
  if (w.objects ob).all LpcObject.destructed then w
  else if ob = self then w
  else if (w.link self LpcObject.shadowing).isSome then w
  else if (w.link self LpcObject.shadowedBy).isSome then w
  else if (w.link self LpcObject.environment).isSome then w
  else if !ldmud && w.master == some ob then w
  else if (w.link ob LpcObject.shadowing).isSome then w
  else if !(w.master.isSome && approved) then w
  else if (w.objects self).all LpcObject.destructed then w
  else
    match shadowTop fuel w ob with
    | some victim =>
        (w.modify self fun o => { o with shadowing := some victim }).modify victim fun o =>
          { o with shadowedBy := some self }
    | none => w

/-- The efun `remove_shadow`. -/
def removeShadow (w : World) (ob : ObjectId) : World :=
  let shadowedBy := w.link ob LpcObject.shadowedBy
  let shadowing := w.link ob LpcObject.shadowing
  if shadowedBy.isNone && shadowing.isNone then w
  else
    let w := w.modifyLinked shadowing fun o => { o with shadowedBy }
    let w := w.modifyLinked shadowedBy fun o => { o with shadowing }
    w.modify ob fun o => { o with shadowing := none, shadowedBy := none }

/-- `moveObject` without a driver hook, up to its `init()` calls. -/
def moveObject (w : World) (item dest : ObjectId) : World :=
  if item = dest || (w.objects item).all LpcObject.destructed ||
      (w.objects dest).all LpcObject.destructed then w
  else
    let w := w.modifyLinked (w.link item LpcObject.environment) fun o =>
      { o with inventory := o.inventory.filter (· ≠ item) }
    let w := w.modify item fun o => { o with environment := some dest }
    w.modify dest fun o => { o with inventory := o.inventory ++ [item] }

/-- The last reference to an object goes away. -/
def release (w : World) (obj : ObjectId) : World :=
  w.modify obj fun o => { o with freed := true }

end Kjdmud.Object
