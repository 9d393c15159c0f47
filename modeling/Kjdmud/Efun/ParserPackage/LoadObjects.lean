import Kjdmud.Core.Types
import Mathlib.Logic.Function.Basic

/-!
# The objects of a sentence

`loadObjects` of `src/efun/ParserPackage.cpp` numbers the objects that a sentence may be about
and enters their words in a hash table; `expandNode` enters a nickname when it is met.  The
objects are interrogated first, by LPC code that may do anything.

A `vector<bool>` is a list of bits; a write behind its end is undefined behaviour and ends the
computation here.
-/

namespace Kjdmud.Efun.ParserPackage

/-! ## Objects -/

/-- The flags of `ParserInfoFlag`. -/
structure ParseInfo where
  setup : Bool := false
  living : Bool := false
  verbHandler : Bool := false
  remoteLivings : Bool := false
  invAccessible : Bool := false
  invVisible : Bool := false
  refresh : Bool := false

/-- What the parser knows of an object; `info` is there where `hasParseInfo()` holds. -/
structure ParseObject where
  destructed : Bool := false
  environment : Option ObjectId := none
  inventory : List ObjectId := []
  info : Option ParseInfo := none
  nounIds : List Str := []
  pluralIds : List Str := []
  adjIds : List Str := []

abbrev Objects := ObjectId → ParseObject

/-- The identity of an LPC array. -/
abbrev ArrayId := Nat

/-- An element of an array: an object, an array or another value. -/
inductive EnvItem
  | object (ob : ObjectId)
  | array (nested : ArrayId)
  | other

/-- The argument for the environment: none, a value that is no array, or an array. -/
inductive ParseEnv
  | absent
  | notArray
  | array (items : ArrayId)

/-- A mapping of nicknames: the keys that are strings, and the values that are objects. -/
abbrev Nicks := List (Option Str × Option ObjectId)

/-- The objects, the arrays, the nicknames of the caller, and `masterUsersCache()`; a user that
is no object is `none`. -/
structure Driver where
  objects : Objects
  arrays : ArrayId → List EnvItem
  nicks : Nicks
  usersValid : Bool
  users : List (Option ObjectId)

/-- The applies of `interrogateObject` that answer with a list. -/
inductive ListApply
  | idList
  | pluralIdList
  | adjectivIdList

/-- The applies of `interrogateObject` that answer yes or no. -/
inductive FlagApply
  | isLiving
  | inventoryAccessible
  | inventoryVisible

/-- The LPC code that runs in the middle; an element of a list that is no string is `none`. -/
structure Interrogation where
  list : Driver → ObjectId → ListApply → Driver × List (Option Str)
  flag : Driver → ObjectId → FlagApply → Driver × Bool
  /-- `parse_command_users` of the master. -/
  users : Driver → Driver × List (Option ObjectId)

/-- `MAX_NUM_OBJECTS`. -/
def kMaxNumObjects : Nat := 1024

/-- `needRefresh`. -/
def needRefresh (o : ParseObject) : Bool :=
  o.info.any fun info => !(info.setup && !info.refresh)

/-! ## Discovery -/

/-- `findUninitedObjects`. -/
def findUninitedObjects (o : Objects) : Nat → List ObjectId → ObjectId → Option (List ObjectId)
  | 0, _, _ => none
  | fuel + 1, discovered, ob =>
      if (o ob).destructed then some discovered
      else if needRefresh (o ob) && kMaxNumObjects ≤ discovered.length then some discovered
      else
        (o ob).inventory.foldlM (findUninitedObjects o fuel)
          (if needRefresh (o ob) then discovered ++ [ob] else discovered)

/-- The loop of `getObjectsFromArray`, given what is done with a nested array. -/
def getObjectsFromItems (o : Objects)
    (descend : ArrayId → List ObjectId → Option (List ObjectId)) :
    List EnvItem → List ObjectId → Option (List ObjectId)
  | [], discovered => some discovered
  | .array nested :: items, discovered =>
      (descend nested discovered).bind (getObjectsFromItems o descend items)
  | .other :: items, discovered => getObjectsFromItems o descend items discovered
  | .object ob :: items, discovered =>
      if (o ob).destructed then getObjectsFromItems o descend items discovered
      else if needRefresh (o ob) then
        if kMaxNumObjects ≤ discovered.length then some discovered
        else getObjectsFromItems o descend items (discovered ++ [ob])
      else getObjectsFromItems o descend items discovered

/-- `getObjectsFromArray`. -/
def getObjectsFromArray (d : Driver) :
    Nat → ArrayId → List ObjectId → Option (List ObjectId)
  | 0, _, _ => none
  | fuel + 1, array, discovered =>
      getObjectsFromItems d.objects (getObjectsFromArray d fuel) (d.arrays array) discovered

/-- `initUsersDiscovery`. -/
def initUsersDiscovery (o : Objects) : List (Option ObjectId) → List ObjectId → List ObjectId
  | [], discovered => discovered
  | none :: users, discovered => initUsersDiscovery o users discovered
  | some ob :: users, discovered =>
      if needRefresh (o ob) then
        if kMaxNumObjects ≤ discovered.length then discovered
        else initUsersDiscovery o users (discovered ++ [ob])
      else initUsersDiscovery o users discovered

/-- `fetchMasterUsers`. -/
def fetchMasterUsers (lpc : Interrogation) (d : Driver) : Driver :=
  if d.usersValid then d
  else
    let called := lpc.users { d with users := [] }
    { called.1 with usersValid := true, users := called.2 }

/-! ## Interrogation -/

/-- Change what the parser knows of an object. -/
def Driver.modify (d : Driver) (ob : ObjectId) (change : ParseObject → ParseObject) : Driver :=
  { d with objects := Function.update d.objects ob (change (d.objects ob)) }

/-- `setParseInfoFlags`. -/
def ParseObject.setFlags (change : ParseInfo → ParseInfo) (o : ParseObject) : ParseObject :=
  { o with info := o.info.map change }

/-- An apply that sets a flag when its answer is true. -/
def interrogateFlag (lpc : Interrogation) (apply : FlagApply) (change : ParseInfo → ParseInfo)
    (ob : ObjectId) (d : Driver) : Driver :=
  let called := lpc.flag d ob apply
  if called.2 then called.1.modify ob (ParseObject.setFlags change) else called.1

/-- Go on, unless the object is destructed by now. -/
def Driver.unlessDestructed (d : Driver) (ob : ObjectId) (next : Driver → Driver) : Driver :=
  if (d.objects ob).destructed then d else next d

/-- `interrogateObject`. -/
def interrogateObject (lpc : Interrogation) (d : Driver) (ob : ObjectId) : Driver :=
  if (d.objects ob).info.any fun info => info.setup && !info.refresh then d
  else
    let called := lpc.list d ob .idList
    let d := called.1.modify ob fun o => { o with nounIds := called.2.reduceOption }
    d.unlessDestructed ob fun d =>
      let d := d.modify ob (ParseObject.setFlags fun info =>
        { info with setup := true, living := false, invAccessible := false, invVisible := false })
      let called := lpc.list d ob .pluralIdList
      let d := called.1.modify ob fun o => { o with pluralIds := called.2.reduceOption }
      d.unlessDestructed ob fun d =>
        let called := lpc.list d ob .adjectivIdList
        let d := called.1.modify ob fun o => { o with adjIds := called.2.reduceOption }
        d.unlessDestructed ob fun d =>
          (interrogateFlag lpc .isLiving (fun info => { info with living := true }) ob
            d).unlessDestructed ob fun d =>
          (interrogateFlag lpc .inventoryAccessible (fun info => { info with invAccessible := true })
            ob d).unlessDestructed ob fun d =>
          interrogateFlag lpc .inventoryVisible (fun info => { info with invVisible := true }) ob d

/-! ## The walk over the environment -/

/-- `RAO_INREACH` and `RAO_MY`. -/
structure RaoFlags where
  inReach : Bool
  my : Bool

/-- The objects that have their number, while the walk goes on. -/
structure Walk where
  objects : List ObjectId := []
  inReach : List Bool := []
  myObjects : List Bool := []
  meObject : Option Nat := none
  /-- What each object was reached in; the source does not keep it. -/
  within : List (List ObjectId) := []

/-- `myObjects[index] = true`, after `resize`. -/
def markMy (my : List Bool) (index : Nat) : List Bool :=
  (my ++ List.replicate (index + 1 - my.length) false).set index true

/-- An object gets its number. -/
def Walk.add (parseUser : ObjectId) (flags : RaoFlags) (path : List ObjectId) (ob : ObjectId)
    (r : Walk) : Walk where
  objects := r.objects ++ [ob]
  inReach := r.inReach ++ [flags.inReach]
  myObjects := if flags.my then markMy r.myObjects r.objects.length else r.myObjects
  meObject := if ob = parseUser then some r.objects.length else r.meObject
  within := r.within ++ [path]

/-- `recAddObject`. -/
def recAddObject (o : Objects) (parseUser : ObjectId) :
    Nat → RaoFlags → List ObjectId → Walk → ObjectId → Option Walk
  | 0, _, _, _, _ => none
  | fuel + 1, flags, path, r, ob =>
      if (o ob).destructed then some r
      else
        match (o ob).info with
        | none =>
            (o ob).inventory.foldlM (recAddObject o parseUser fuel flags (ob :: path)) r
        | some info =>
            if kMaxNumObjects ≤ r.objects.length then some r
            else
              let r := r.add parseUser flags path ob
              if !info.invVisible then some r
              else
                let flags : RaoFlags :=
                  { inReach := flags.inReach && info.invAccessible
                    my := flags.my || ob = parseUser }
                (o ob).inventory.foldlM (recAddObject o parseUser fuel flags (ob :: path)) r

/-- The loop of `addObjectsFromArray`, given what is done with a nested array; `last` is the
object right before, with its flags. -/
def addObjectsFromItems (o : Objects) (parseUser : ObjectId)
    (descend : RaoFlags → List ObjectId → ArrayId → Walk → Option Walk)
    (flags : RaoFlags) (path : List ObjectId) :
    List EnvItem → Option (ObjectId × ParseInfo) → Walk → Option Walk
  | [], _, r => some r
  | .array nested :: items, last, r =>
      let below :=
        match last with
        | none => some r
        | some (container, info) =>
            if info.invVisible then
              descend
                { inReach := flags.inReach && info.invAccessible
                  my := flags.my || container = parseUser } (container :: path) nested r
            else some r
      below.bind (addObjectsFromItems o parseUser descend flags path items none)
  | .other :: items, _, r => addObjectsFromItems o parseUser descend flags path items none r
  | .object ob :: items, _, r =>
      if (o ob).destructed then addObjectsFromItems o parseUser descend flags path items none r
      else
        match (o ob).info with
        | none => addObjectsFromItems o parseUser descend flags path items none r
        | some info =>
            if kMaxNumObjects ≤ r.objects.length then some r
            else
              addObjectsFromItems o parseUser descend flags path items (some (ob, info))
                (r.add parseUser flags path ob)

/-- `addObjectsFromArray`. -/
def addObjectsFromArray (d : Driver) (parseUser : ObjectId) :
    Nat → RaoFlags → List ObjectId → ArrayId → Walk → Option Walk
  | 0, _, _, _, _ => none
  | fuel + 1, flags, path, array, r =>
      addObjectsFromItems d.objects parseUser (addObjectsFromArray d parseUser fuel) flags path
        (d.arrays array) none r

/-! ## Remote users -/

/-- The walk up from a user: whether it comes to the environment of the parse user before it
crosses a container that cannot be looked into. -/
def reaches (o : Objects) (target : Option ObjectId) : Nat → ObjectId → Option Bool
  | 0, _ => none
  | fuel + 1, env =>
      if some env = target then some true
      else
        match (o env).environment with
        | none => some false
        | some next =>
            if (o next).info.any fun info => !info.invVisible then some false
            else reaches o target fuel next

/-- The `num_people` loop: the users that are appended behind so many objects. -/
def remoteUsers (o : Objects) (target : Option ObjectId) (fuel : Nat) :
    List (Option ObjectId) → Nat → Option (List ObjectId)
  | [], _ => some []
  | none :: users, count => remoteUsers o target fuel users count
  | some ob :: users, count =>
      if (o ob).info.isNone then remoteUsers o target fuel users count
      else
        (reaches o target fuel ob).bind fun reached =>
          if reached then remoteUsers o target fuel users count
          else if kMaxNumObjects ≤ count then some []
          else (remoteUsers o target fuel users (count + 1)).map (ob :: ·)

/-! ## The hash table -/

/-- `HashEntry`. -/
structure HashEntry where
  isNoun : Bool := false
  isPlural : Bool := false
  isAdj : Bool := false
  isNickname : Bool := false
  nounObjs : List Bool
  pluralObjs : List Bool
  adjObjs : List Bool

abbrev HashTable := Str → Option HashEntry

/-- What a word is to an object. -/
inductive WordKind
  | noun
  | plural
  | adj
deriving DecidableEq

def HashEntry.objs (he : HashEntry) : WordKind → List Bool
  | .noun => he.nounObjs
  | .plural => he.pluralObjs
  | .adj => he.adjObjs

def ParseObject.ids (o : ParseObject) : WordKind → List Str
  | .noun => o.nounIds
  | .plural => o.pluralIds
  | .adj => o.adjIds

/-- `addHashEntry`: the entry of a word, or a new one for so many objects. -/
def entryFor (table : HashTable) (word : Str) (objectCount : Nat) : HashEntry :=
  (table word).getD
    { nounObjs := List.replicate objectCount false
      pluralObjs := List.replicate objectCount false
      adjObjs := List.replicate objectCount false }

/-- `bits[index] = true`. -/
def writeBit (bits : List Bool) (index : Nat) : Option (List Bool) :=
  if index < bits.length then some (bits.set index true) else none

/-- The word is a word of this kind for the object with this number. -/
def HashEntry.mark (he : HashEntry) (index : Nat) : WordKind → Option HashEntry
  | .noun => (writeBit he.nounObjs index).map fun bits =>
      { he with isNoun := true, nounObjs := bits }
  | .plural => (writeBit he.pluralObjs index).map fun bits =>
      { he with isPlural := true, pluralObjs := bits }
  | .adj => (writeBit he.adjObjs index).map fun bits => { he with isAdj := true, adjObjs := bits }

def markWord (objectCount index : Nat) (kind : WordKind) (table : HashTable) (word : Str) :
    Option HashTable :=
  ((entryFor table word objectCount).mark index kind).map fun he =>
    Function.update table word (some he)

/-- `addToHashTable`. -/
def addToHashTable (o : Objects) (objectCount : Nat) (table : HashTable)
    (numbered : ObjectId × Nat) : Option HashTable :=
  if (o numbered.1).info.isNone then some table
  else do
    let table ← (o numbered.1).nounIds.foldlM (markWord objectCount numbered.2 .noun) table
    let table ← (o numbered.1).pluralIds.foldlM (markWord objectCount numbered.2 .plural) table
    (o numbered.1).adjIds.foldlM (markWord objectCount numbered.2 .adj) table

def myWord : Str := str "my"

/-- The entry of `my`. -/
def addMy (objectCount : Nat) (myObjects : List Bool) (table : HashTable) : Option HashTable :=
  let he := { entryFor table myWord objectCount with isAdj := true }
  let indices := (List.range (min myObjects.length objectCount)).filter fun i =>
    myObjects[i]? = some true
  (indices.foldlM writeBit he.adjObjs).map fun bits =>
    Function.update table myWord (some { he with adjObjs := bits })

/-- `addNicknames`. -/
def addNicknames (objectCount : Nat) (nicks : Nicks) (table : HashTable) : HashTable :=
  (nicks.filterMap Prod.fst).foldl (fun table word =>
    Function.update table word (some { entryFor table word objectCount with isNickname := true }))
    table

/-! ## Loading -/

/-- `LoadedObjectSet`. -/
structure LoadedObjectSet where
  objects : List ObjectId
  inReach : List Bool
  isLiving : List Bool
  isAccessible : List Bool
  meObject : Option Nat
  hashTable : HashTable
  numPeople : Nat

/-- How a call ends. -/
inductive Outcome (α : Type)
  | throws (message : Str)
  | outOfRange
  | done (result : α)

/-- What is known before the table is built. -/
structure Gathered where
  objects : Objects
  nicks : Nicks
  walk : Walk
  remote : List ObjectId

/-- `environment().lock()` of the parse user. -/
def Driver.around (d : Driver) (parseUser : ObjectId) : Option ObjectId :=
  (d.objects parseUser).environment

/-- The discovery. -/
def discover (fuel : Nat) (d : Driver) (parseUser : ObjectId) :
    ParseEnv → Option (List ObjectId)
  | .array items => getObjectsFromArray d fuel items []
  | .notArray => some []
  | .absent =>
      match d.around parseUser with
      | none => some []
      | some env => findUninitedObjects d.objects fuel [] env

/-- The walk that numbers the objects. -/
def number (fuel : Nat) (d : Driver) (parseUser : ObjectId) (env : ParseEnv) : Option Walk :=
  let flags : RaoFlags := { inReach := true, my := false }
  match env with
  | .array items => addObjectsFromArray d parseUser fuel flags [] items {}
  | _ =>
      match d.around parseUser with
      | none => some {}
      | some env => recAddObject d.objects parseUser fuel flags [] {} env

/-- The users are fetched, and every object discovered is interrogated. -/
def interrogated (lpc : Interrogation) (d : Driver) (discovered : List ObjectId) : Driver :=
  let d := fetchMasterUsers lpc d
  (initUsersDiscovery d.objects d.users discovered).foldl (interrogateObject lpc) d

/-- The users that are appended. -/
def appended (fuel : Nat) (d : Driver) (parseUser : ObjectId) (count : Nat) :
    Option (List ObjectId) :=
  if (d.objects parseUser).destructed then some []
  else remoteUsers d.objects (d.around parseUser) fuel d.users count

/-- `loadObjects` up to the table. -/
def gather (lpc : Interrogation) (fuel : Nat) (d : Driver) (parseUser : ObjectId)
    (env : ParseEnv) : Option Gathered :=
  (discover fuel d parseUser env).bind fun discovered =>
    let d := interrogated lpc d discovered
    (number fuel d parseUser env).bind fun walk =>
      (appended fuel d parseUser walk.objects.length).map fun remote =>
        ⟨d.objects, d.nicks, walk, remote⟩

/-- `result.objects`. -/
def Gathered.numbered (g : Gathered) : List ObjectId :=
  g.walk.objects ++ g.remote

/-- The table of `loadObjects`. -/
def Gathered.table (g : Gathered) : Option HashTable := do
  let reached := g.walk.objects.length
  let table ← addMy reached g.walk.myObjects fun _ => none
  let table := addNicknames reached g.nicks table
  g.numbered.zipIdx.foldlM (addToHashTable g.objects g.numbered.length) table

/-- The end of `loadObjects`. -/
def Gathered.load (g : Gathered) : Outcome LoadedObjectSet :=
  match g.table with
  | none => .outOfRange
  | some hashTable =>
      let inReach := g.walk.inReach ++ g.remote.map fun _ => true
      .done
        { objects := g.numbered
          inReach := inReach
          isLiving := g.numbered.map fun ob => (g.objects ob).info.any ParseInfo.living
          isAccessible := inReach
          meObject := g.walk.meObject
          hashTable := hashTable
          numPeople := g.remote.length }

/-- `loadObjects`. -/
def loadObjects (lpc : Interrogation) (fuel : Nat) (d : Driver) (parseUser : ObjectId)
    (env : ParseEnv) : Option (Outcome LoadedObjectSet) :=
  match env, (d.objects parseUser).destructed with
  | .absent, true => some (.throws (str "parse_sentence: no this_player() to parse from"))
  | _, _ => (gather lpc fuel d parseUser env).map Gathered.load

/-! ## Nicknames -/

/-- A call of `expandNode`: the word that is met, with the objects and the nicknames as they
are by then. -/
structure Expansion where
  objects : Objects
  nicks : Nicks
  word : Str

/-- The object that the nickname stands for. -/
def Expansion.nicknamed (call : Expansion) : Option ObjectId :=
  ((call.nicks.find? fun entry => entry.1 = some call.word).bind Prod.snd).filter fun ob =>
    !(call.objects ob).destructed && (call.objects ob).info.isSome

/-- The number that is looked up for it. -/
def Expansion.target (objects : List ObjectId) (call : Expansion) : Option Nat :=
  call.nicknamed.bind fun ob => objects.findIdx? (· = ob)

/-- `expandNode`, for a word that has an entry. -/
def expandNode (loaded : LoadedObjectSet) (call : Expansion) : Option LoadedObjectSet :=
  match loaded.hashTable call.word with
  | none => some loaded
  | some he =>
      let he := { he with isNickname := false }
      let he :=
        match call.target loaded.objects with
        | none => some he
        | some index => he.mark index .noun
      he.map fun he =>
        { loaded with hashTable := Function.update loaded.hashTable call.word (some he) }

end Kjdmud.Efun.ParserPackage
