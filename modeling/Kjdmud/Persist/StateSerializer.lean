import Kjdmud.Efun.SaveObject
import Kjdmud.Object.ObjectManager

/-!
# The world dump

`restoreState` of `src/persist/StateSerializer.cpp` builds the objects of a process again from
one file.  The file has a header, a placement section, from which all objects are made before
any variable is read, and a value section.

Cloning and loading are those of the object manager.  What the LPC code that they run leaves in
variables is a parameter.
-/

namespace Kjdmud.Persist

open Object (World Lpc lookupLoadedObject)
open SaveVariable (colon semicolon comma)
open Conversion (stoll stoull stod)
open Efun (RestoreError convert maxValues maxEntries)

/-! ## Values -/

/-- A `Value` in a variable of an object; an array, a mapping or a closure is its
contents. -/
inductive WorldValue
  | void
  | nil
  | int (i : Int64) (isUndefined : Bool)
  | float (d : Double)
  | string (s : Str)
  | symbol (name : Str)
  | object (ob : ObjectId)
  | array (items : List WorldValue) (isClassInstance : Bool)
  | mapping (width : Nat) (entries : List (WorldValue × WorldValue))
      (extraColumns : List (List WorldValue))
  | closure (owner : Option ObjectId) (functionName : Str) (boundArgs : List WorldValue)
      (forceEfun unboundUntilBound : Bool) (lambdaBody : WorldValue)
  | buffer (bytes : Str)

/-- What the serializer uses of the driver: the objects, and the variables of each. -/
structure State where
  world : World
  vars : ObjectId → List WorldValue

/-! ## The file -/

/-- `kMagic`. -/
def magic : Str := str "AMLPSTATE1\n"

/-- `LiveObjectRegistry::all`. -/
def allLive (w : World) : List ObjectId :=
  w.liveObjects.filter fun ob => (w.objects ob).any fun o => !o.freed && !o.destructed

/-! ## Reading values -/

/-- `ObjectOfId`, the newest entries first. -/
abbrev ObjectOfId := List (Int64 × ObjectId)

/-- `objectOfId.find`. -/
def ObjectOfId.find (objects : ObjectOfId) (id : Int64) : Option ObjectId :=
  objects.lookup id

/-- The first position of one of some bytes from a position on. -/
def findFirstOf (s : Str) (bytes : List UInt8) (pos : Nat) : Option Nat :=
  ((s.drop pos).findIdx? (bytes.contains ·)).map (pos + ·)

/-- `s.find(delim, pos)` and `s.substr(pos, end - pos)`: the text in front of the
delimiter, and the position behind it. -/
def readField {α : Type} (conversion : Str → Except Conversion.ConversionError α)
    (delim : UInt8) (s : Str) (c : Cursor) : Decoded RestoreError α :=
  if s.length < c.pos then some (.error (.ofConversion .outOfRange), c)
  else
    let stop := findFrom s delim c.pos
    (convert (conversion (upTo s c.pos stop)) c).andThen fun v c =>
      some (.ok v, c.moveTo (behind stop))

/-- A count: the elements of a vector that can hold up to `limit` of them. -/
def readCount (limit : Nat) (delim : UInt8) (s : Str) (c : Cursor) : Decoded RestoreError Nat :=
  (readField stoull delim s c).andThen fun count c =>
    if limit < count then some (.error .lengthError, c) else some (.ok count, c)

/-- `static_cast<int>` of a width, and at least 1. -/
def castWidth (i : Int64) : Nat :=
  if i.toInt32.toInt < 1 then 1 else i.toInt32.toInt.toNat

/-- What stands in front of a delimiter that must be there. -/
def readPresent {α : Type} (missing : Str)
    (conversion : Str → Except Conversion.ConversionError α) (delim : UInt8) (s : Str)
    (c : Cursor) : Decoded RestoreError α :=
  match findFrom s delim c.pos with
  | none => some (.error (.lpc missing), c)
  | some stop =>
      (convert (conversion (upTo s c.pos (some stop))) c).andThen fun v c =>
        some (.ok v, c.moveTo (stop + 1))

/-- The width of a mapping. -/
def readWidth (s : Str) (c : Cursor) : Decoded RestoreError Nat :=
  (readPresent (str "restore_state: corrupt statedump data (truncated mapping width)") stoll colon
    s c).andThen fun width c => some (.ok (castWidth width), c)

/-- The count and the width of a mapping. -/
def readShape (s : Str) (c : Cursor) : Decoded RestoreError (Nat × Nat) :=
  match findFirstOf s [colon, 0x77] c.pos with
  | none =>
      some (.error (.lpc (str "restore_state: corrupt statedump data (truncated mapping)")), c)
  | some sep =>
      (convert (stoull (upTo s c.pos (some sep))) c).andThen fun count c =>
        let c := c.moveTo (sep + 1)
        let shape : Decoded RestoreError (Nat × Nat) :=
          if s[sep]? = some 0x77 then
            (readWidth s c).andThen fun width c => some (.ok (count, width), c)
          else some (.ok (count, 1), c)
        shape.andThen fun shape c =>
          if maxEntries < shape.1 then some (.error .lengthError, c) else some (.ok shape, c)

/-- One entry of a mapping and its extra columns. -/
def readEntry (read : Cursor → Decoded RestoreError WorldValue) (width : Nat) (c : Cursor) :
    Decoded RestoreError ((WorldValue × WorldValue) × List WorldValue) :=
  (read c).andThen fun key c =>
    (read c).andThen fun value c =>
      (Decoded.repeatRead read (width - 1) [] c).andThen fun extra c =>
        some (.ok ((key, value), extra), c)

/-- What `deserializeClosure` reads in front of the bound arguments. -/
structure ClosureHead where
  ownerId : Int64
  forceEfun : Bool
  functionName : Str
  argCount : Nat

/-- The part of `deserializeClosure` in front of the bound arguments. -/
def readClosureHead (s : Str) (c : Cursor) : Decoded RestoreError ClosureHead :=
  (readField stoll semicolon s c).andThen fun ownerId c =>
    (readField (fun flag => .ok (flag == str "1")) semicolon s c).andThen fun forceEfun c =>
      (readField stoull colon s c).andThen fun nameLen c =>
        let functionName := (s.drop c.pos).take nameLen
        let c := c.moveTo ((c.pos + nameLen) % 2 ^ 64)
        (readCount maxValues semicolon s c).andThen fun argCount c =>
          some (.ok ⟨ownerId, forceEfun, functionName, argCount⟩, c)

/-- The owner of a closure that was read. -/
def ClosureHead.owner (head : ClosureHead) (objects : ObjectOfId) : Option ObjectId :=
  if 0 ≤ head.ownerId.toInt then objects.find head.ownerId else none

/-- A mapping that was read. -/
def mappingOf (width : Nat) (rows : List ((WorldValue × WorldValue) × List WorldValue)) :
    WorldValue :=
  .mapping width (rows.map Prod.fst) (if width > 1 then rows.map Prod.snd else [])

/-- `deserializeWorldValue`, and `deserializeClosure`.  One unit of fuel is one level of
the recursion. -/
def deserializeWorldValue (objects : ObjectOfId) (s : Str) :
    Nat → Cursor → Decoded RestoreError WorldValue
  | 0, _ => none
  | fuel + 1, c =>
      match s[c.pos]? with
      | none => some (.ok .void, c)
      | some kind =>
          let c := c.moveTo (c.pos + 1)
          if kind = 0x4e then some (.ok .void, c)
          else if kind = 0x49 then
            (readField stoll semicolon s c).andThen fun i c => some (.ok (.int i false), c)
          else if kind = 0x46 then
            (readField stod semicolon s c).andThen fun d c => some (.ok (.float d), c)
          else if kind = 0x53 then
            (Efun.deserializeLength s c).andThen fun (length, start) c =>
              some (.ok (.string ((s.drop start).take length)),
                c.moveTo ((start + length) % 2 ^ 64))
          else if kind = 0x41 then
            (readCount maxValues colon s c).andThen fun count c =>
              (Decoded.repeatRead (deserializeWorldValue objects s fuel) count [] c).andThen
                fun items c => some (.ok (.array items false), c)
          else if kind = 0x4d then
            (readShape s c).andThen fun (count, width) c =>
              (Decoded.repeatRead (readEntry (deserializeWorldValue objects s fuel) width)
                count [] c).andThen fun rows c => some (.ok (mappingOf width rows), c)
          else if kind = 0x4f then
            (readField stoll semicolon s c).andThen fun id c =>
              some (.ok ((objects.find id).elim .void .object), c)
          else if kind = 0x43 then
            (readClosureHead s c).andThen fun head c =>
              (Decoded.repeatRead (deserializeWorldValue objects s fuel) head.argCount [] c).andThen
                fun boundArgs c =>
                  some (.ok (.closure (head.owner objects) head.functionName boundArgs
                    head.forceEfun false .void), c)
          else
            some (.error (.lpc
              (str "restore_state: corrupt statedump data (unknown value kind)")), c)

/-! ## Reading the sections -/

/-- `readIntField`. -/
def readIntField (delim : UInt8) (s : Str) (c : Cursor) : Decoded RestoreError Int64 :=
  readPresent (str "restore_state: corrupt statedump data (truncated field)") stoll delim s c

/-- `static_cast<size_t>`. -/
def castSize (i : Int64) : Nat := i.toUInt64.toNat

/-- `PlacementEntry`. -/
structure PlacementEntry where
  id : Int64
  isClone : Bool
  envId : Int64
  invIds : List Int64
  filename : Str
deriving DecidableEq

/-- The ids in an inventory list, of which `invCount` are read. -/
def inventoryIds : Nat → Str → Except Conversion.ConversionError (List Int64)
  | 0, _ => .ok []
  | invCount + 1, invList =>
      let (token, rest) := (Drain.cutAt [comma] invList).getD (invList, [])
      match stoll token with
      | .error e => .error e
      | .ok id =>
          match inventoryIds invCount rest with
          | .error e => .error e
          | .ok ids => .ok (id :: ids)

/-- The inventory of an entry. -/
def readInventory (s : Str) (c : Cursor) : Decoded RestoreError (List Int64) :=
  (readIntField semicolon s c).andThen fun invCount c =>
    match findFrom s semicolon c.pos with
    | none =>
        some (.error (.lpc
          (str "restore_state: corrupt statedump data (truncated inventory list)")), c)
    | some listEnd =>
        let invList := upTo s c.pos (some listEnd)
        convert (inventoryIds (castSize invCount) invList) (c.moveTo (listEnd + 1))

/-- The filename of an entry. -/
def readFilename (s : Str) (c : Cursor) : Decoded RestoreError Str :=
  (readPresent (str "restore_state: corrupt statedump data (truncated filename)") stoull colon
    s c).andThen fun fnameLen c =>
      some (.ok ((s.drop c.pos).take fnameLen), c.moveTo ((c.pos + fnameLen) % 2 ^ 64))

/-- One entry of the placement section. -/
def readPlacement (s : Str) (c : Cursor) : Decoded RestoreError PlacementEntry :=
  (readIntField semicolon s c).andThen fun id c =>
    (readIntField semicolon s c).andThen fun isClone c =>
      (readIntField semicolon s c).andThen fun envId c =>
        (readInventory s c).andThen fun invIds c =>
          (readFilename s c).andThen fun filename c =>
            some (.ok ⟨id, isClone != 0, envId, invIds, filename⟩, c)

/-- The largest number of `PlacementEntry`s a vector can hold. -/
def maxPlacements : Nat := (2 ^ 63 - 1) / 80

/-- The header behind the magic, and the placement section. -/
def readPlacements (s : Str) (c : Cursor) : Decoded RestoreError (List PlacementEntry) :=
  (readIntField semicolon s c).andThen fun count c =>
    if maxPlacements < castSize count then some (.error .lengthError, c)
    else Decoded.repeatRead (readPlacement s) (castSize count) [] c

/-- The variables of one object in the value section: the id of the object, and their
values. -/
def readVariables (objects : ObjectOfId) (fuel : Nat) (s : Str) (c : Cursor) :
    Decoded RestoreError (Int64 × List WorldValue) :=
  (readIntField semicolon s c).andThen fun id c =>
    (readIntField semicolon s c).andThen fun varCount c =>
      if maxValues < castSize varCount then some (.error .lengthError, c)
      else
        (Decoded.repeatRead (deserializeWorldValue objects s fuel) (castSize varCount) [] c).andThen
          fun restoredVars c => some (.ok (id, restoredVars), c)

/-! ## Restoring -/

/-- What cloning and loading depend on besides the object table. -/
structure Manager where
  lpc : Lpc
  /-- The uid model is off, there is no current object, or it has an euid. -/
  mayClone : State → Bool
  /-- The variables of all objects behind the LPC code that an attempt runs. -/
  vars : Str → State → ObjectId → List WorldValue

namespace Manager

/-- The state behind an attempt. -/
def ran (manager : Manager) (filename : Str) (state : State) (w : World) : State :=
  ⟨w, manager.vars filename state⟩

/-- `cloneObject`: an object, no object or an exception, and the state then. -/
def cloneObject (manager : Manager) (filename : Str) (state : State) :
    Except RestoreError (Option ObjectId) × State :=
  if manager.mayClone state then
    let made := Object.cloneObject manager.lpc state.world filename
    (.ok made.2, manager.ran filename state made.1)
  else
    (.error (.lpc (str "Object must call seteuid() prior to calling clone_object().\n")), state)

/-- `loadObject`. -/
def loadObject (manager : Manager) (filename : Str) (state : State) :
    Except RestoreError (Option ObjectId) × State :=
  let made := Object.loadObject manager.lpc state.world filename
  (.ok made.2, manager.ran filename state made.1)

end Manager

/-- The object of an entry.  The flag tells whether it was cloned or loaded. -/
def Manager.reconstruct (manager : Manager) (e : PlacementEntry) (state : State) :
    Except RestoreError (Option ObjectId) × State × Bool :=
  if e.isClone then
    let made := manager.cloneObject e.filename state
    (made.1, made.2, true)
  else
    match lookupLoadedObject state.world e.filename with
    | some obj => (.ok (some obj), state, false)
    | none =>
        let made := manager.loadObject e.filename state
        (made.1, made.2, true)

/-- What the first pass ends with: the objects of the ids, the state, and the files of the
objects that were cloned or loaded. -/
structure Reconstructed where
  result : Except RestoreError ObjectOfId
  state : State
  made : List Str

/-- The first pass of `restoreState`. -/
def reconstructAll (manager : Manager) :
    List PlacementEntry → ObjectOfId → State → List Str → Reconstructed
  | [], objects, state, made => ⟨.ok objects, state, made⟩
  | e :: entries, objects, state, made =>
      match manager.reconstruct e state with
      | (.error error, state, _) => ⟨.error error, state, made⟩
      | (.ok none, state, _) =>
          ⟨.error (.lpc (str "restore_state: could not reconstruct object for " ++ e.filename)),
            state, made⟩
      | (.ok (some obj), state, isNew) =>
          reconstructAll manager entries ((e.id, obj) :: objects) state
            (if isNew then made ++ [e.filename] else made)

/-- `retainRestoredObjects`, with the objects of all entries. -/
def retain (objects : ObjectOfId) (state : State) : State :=
  let restoredObjects := state.world.restoredObjects ++ objects.reverse.map Prod.snd
  { state with world := { state.world with restoredObjects } }

/-- The environment and the inventory of an entry. -/
def place (objects : ObjectOfId) (state : State) (e : PlacementEntry) : State :=
  match objects.find e.id with
  | none => state
  | some obj =>
      { state with world := state.world.modify obj fun o =>
        { o with
          environment :=
            if 0 ≤ e.envId.toInt then (objects.find e.envId).or o.environment else o.environment
          inventory := e.invIds.filterMap objects.find } }

/-- The variables of an object, as far as it has as many. -/
def assign (objects : ObjectOfId) (state : State) (record : Int64 × List WorldValue) : State :=
  match objects.find record.1 with
  | none => state
  | some obj =>
      let vars := state.vars obj
      let restored := record.2.take vars.length ++ vars.drop record.2.length
      { state with vars := Function.update state.vars obj restored }

/-- The second pass of `restoreState`: the variables of `count` objects. -/
def restoreVariables (objects : ObjectOfId) (fuel : Nat) (s : Str) :
    Nat → State → Cursor → Option (Except RestoreError Unit × State × Cursor)
  | 0, state, c => some (.ok (), state, c)
  | count + 1, state, c =>
      match readVariables objects fuel s c with
      | none => none
      | some (.error e, c) => some (.error e, state, c)
      | some (.ok record, c) => restoreVariables objects fuel s count (assign objects state record) c

/-- How a call of `restoreState` ends, with the objects of the ids if all were made. -/
structure Restored where
  result : Except RestoreError Bool
  state : State
  made : List Str
  cursor : Cursor
  objects : ObjectOfId

/-- The part of `restoreState` behind the placement section. -/
def restoreEntries (manager : Manager) (s : Str) (entries : List PlacementEntry) (state : State)
    (c : Cursor) (fuel : Nat) : Option Restored :=
  let pass := reconstructAll manager entries [] state []
  match pass.result with
  | .error e => some ⟨.error e, pass.state, pass.made, c, []⟩
  | .ok objects =>
      let placed := entries.foldl (place objects) (retain objects pass.state)
      match restoreVariables objects fuel s entries.length placed c with
      | none => none
      | some (.error e, state, c) => some ⟨.error e, state, pass.made, c, objects⟩
      | some (.ok _, state, c) => some ⟨.ok true, state, pass.made, c, objects⟩

/-- `restoreState`, on the contents of the file if it opens. -/
def restoreState (manager : Manager) (file : Option Str) (state : State) (fuel : Nat) :
    Option Restored :=
  match file with
  | none => some ⟨.ok false, state, [], ⟨0, 0, false⟩, []⟩
  | some s =>
      if !magic.isPrefixOf s then some ⟨.ok false, state, [], ⟨0, 0, false⟩, []⟩
      else
        match readPlacements s ⟨magic.length, 0, false⟩ with
        | none => none
        | some (.error e, c) => some ⟨.error e, state, [], c, []⟩
        | some (.ok entries, c) => restoreEntries manager s entries state c fuel

end Kjdmud.Persist
