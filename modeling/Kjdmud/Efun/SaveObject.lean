import Kjdmud.Core.Conversions
import Kjdmud.Lib.Tagged
import Kjdmud.Lib.Cut
import Kjdmud.Vm.SaveVariable

/-!
# `save_object` and `restore_object`

The two efuns of `src/efun/EfunTable.cpp` and the reader `deserializeValue` of the
older save format.  A file has one line for each variable, and `restore_object`
tells the two formats apart by a tab anywhere in the line.

`checkValidPath` asks the mudlib's master object; its answer is a parameter, and so
is the disk.
-/

namespace Kjdmud.Efun

open SaveVariable (SaveValue ReadError zero cr lf colon semicolon)
open Conversion (ConversionError)

/-! ## Exceptions -/

/-- What reading a save file can throw. -/
inductive RestoreError
  | read (e : ReadError)
  /-- `std::length_error` of `reserve`. -/
  | lengthError

/-- An `LpcRuntimeError`. -/
def RestoreError.lpc (message : Str) : RestoreError :=
  .read (.lpc message)

def RestoreError.ofConversion : ConversionError → RestoreError
  | .invalidArgument => .read .invalidArgument
  | .outOfRange => .read .outOfRange

/-- The exceptions LPC `catch()` traps. -/
def RestoreError.trappable : RestoreError → Bool
  | .read (.lpc _) => true
  | .read .invalidArgument | .read .outOfRange | .lengthError => false

/-! ## The older format -/

/-- A conversion. -/
def convert {α : Type} (converted : Except ConversionError α) (c : Cursor) :
    Decoded RestoreError α :=
  match converted with
  | .ok a => some (.ok a, c)
  | .error e => some (.error (.ofConversion e), c)

/-- The largest number of `Value`s a vector can hold. -/
def maxValues : Nat := (2 ^ 63 - 1) / 48

/-- The largest number of mapping entries a vector can hold. -/
def maxEntries : Nat := (2 ^ 63 - 1) / 96

/-- A number that ends in a semicolon. -/
def deserializeNumber {α : Type} (conversion : Str → Except ConversionError α) (s : Str)
    (c : Cursor) : Decoded RestoreError α :=
  let stop := findFrom s semicolon c.pos
  (convert (conversion (upTo s c.pos stop)) c).andThen fun v c =>
    some (.ok v, c.moveTo (behind stop))

/-- The length of a string: what stands in front of the colon, and the position
behind the colon. -/
def deserializeLength (s : Str) (c : Cursor) : Decoded RestoreError (Nat × Nat) :=
  let stop := findFrom s colon c.pos
  (convert (Conversion.stoull (upTo s c.pos stop)) c).andThen fun length c =>
    some (.ok (length, behind stop), c)

/-- The count of an array or a mapping; its elements start behind the colon. -/
def deserializeCount (limit : Nat) (s : Str) (c : Cursor) : Decoded RestoreError Nat :=
  (deserializeLength s c).andThen fun (count, start) c =>
    let c := (c.moveTo start).reserve count
    if limit < count then some (.error .lengthError, c) else some (.ok count, c)

/-- One entry of a mapping. -/
def deserializeEntry (read : Cursor → Decoded RestoreError SaveValue) (c : Cursor) :
    Decoded RestoreError (SaveValue × SaveValue) :=
  (read c).andThen fun key c =>
    (read c).andThen fun value c => some (.ok (key, value), c)

/-- `deserializeValue`.  One unit of fuel is one level of the recursion. -/
def deserializeValue : Nat → Str → Cursor → Decoded RestoreError SaveValue
  | 0, _, _ => none
  | fuel + 1, s, c =>
      match s[c.pos]? with
      | none => some (.ok .void, c)
      | some kind =>
          let c := c.moveTo (c.pos + 1)
          if kind = 0x4e then some (.ok zero, c)
          else if kind = 0x49 then
            (deserializeNumber Conversion.stoll s c).andThen fun i c =>
              some (.ok (.int i false), c)
          else if kind = 0x46 then
            (deserializeNumber Conversion.stod s c).andThen fun d c =>
              some (.ok (.float d), c)
          else if kind = 0x53 then
            (deserializeLength s c).andThen fun (length, start) c =>
              let v := (s.drop start).take length
              some (.ok (.string v), (c.reserve v.length).moveTo ((start + length) % 2 ^ 64))
          else if kind = 0x41 then
            (deserializeCount maxValues s c).andThen fun count c =>
              (Decoded.repeatRead (deserializeValue fuel s) count [] c).andThen fun items c =>
                some (.ok (.array items false), c)
          else if kind = 0x4d then
            (deserializeCount maxEntries s c).andThen fun count c =>
              (Decoded.repeatRead (deserializeEntry (deserializeValue fuel s)) count [] c).andThen
                fun entries c => some (.ok (.mapping 1 entries []), c)
          else
            some (.error
              (.lpc (str "restore_object: corrupt save data (unknown value kind)")), c)

/-! ## Lines -/

def tab : UInt8 := 9
def space : UInt8 := 32
def hash : UInt8 := 35

/-- The lines that `std::getline` finds in a file. -/
def lines : Str → List Str
  | [] => []
  | c :: rest =>
      if c = lf then [] :: lines rest
      else
        match lines rest with
        | [] => [[c]]
        | line :: lines => (c :: line) :: lines

/-- An object as the two efuns see it. -/
structure SaveObject where
  filename : Str
  objectVarNames : List Str
  vars : List SaveValue

/-- The line of one variable. -/
def saveLine (name : Str) (v : SaveValue) : Str :=
  name ++ space :: (SaveVariable.writeRealSaveValue v ++ [lf])

/-- What `save_object` writes. -/
def saveText (obj : SaveObject) : Str :=
  hash :: (obj.filename ++ lf ::
    (obj.objectVarNames.zip obj.vars).flatMap fun var => saveLine var.1 var.2)

/-- The value of a line in the newer format. -/
def readReal (text : Str) (fuel : Nat) : Option (Except RestoreError SaveValue) :=
  (SaveVariable.parseRealSaveValue fuel text).map fun
    | .ok (v, _) => .ok v
    | .error e => .error (.read e)

/-- The value of a line in the older format, which starts at a position. -/
def readLegacy (line : Str) (pos : Nat) (fuel : Nat) : Option (Except RestoreError SaveValue) :=
  (deserializeValue fuel line ⟨pos, 0, false⟩).map Prod.fst

/-- How `restore_object` reads one line: the name, and the reader of its value; `none`
is a line that is skipped. -/
def splitLine (line : Str) : Option (Str × (Nat → Option (Except RestoreError SaveValue))) :=
  if line.isEmpty ∨ line.head? = some hash then none
  else
    match Drain.cutAt [tab] line with
    | some (name, _) => some (name, readLegacy line (name.length + 1))
    | none =>
        match Drain.cutAt [space] line with
        | some (name, text) => some (name, readReal text)
        | none => none

/-- The slot of a variable. -/
def slotOf (names : List Str) (vars : List SaveValue) (name : Str) : Option Nat :=
  match names.findIdx? (· == name) with
  | some slot => if slot < vars.length then some slot else none
  | none => none

/-- The loop of `restore_object` over the lines: what it ends with, and the
variables then. -/
def restoreLines (fuel : Nat) (names : List Str) :
    List Str → List SaveValue → Option (Except RestoreError Unit × List SaveValue)
  | [], vars => some (.ok (), vars)
  | line :: lines, vars =>
      match splitLine line with
      | none => restoreLines fuel names lines vars
      | some (name, read) =>
          match slotOf names vars name with
          | none => restoreLines fuel names lines vars
          | some slot =>
              match read fuel with
              | none => none
              | some (.error e) => some (.error e, vars)
              | some (.ok v) => restoreLines fuel names lines (vars.set slot v)

/-! ## The efuns -/

/-- `normalizeSavePath`. -/
def normalizeSavePath (path : Str) : Str :=
  let strip (suffix : Str) (path : Str) :=
    if suffix.isSuffixOf path then path.take (path.length - suffix.length) else path
  strip (str ".o") (strip (str ".c") path) ++ str ".o"

/-- What the two efuns use of the driver: `checkValidPath` for a path, a write flag
and the name of the efun, the root of the mudlib, and the paths that open for
writing. -/
structure Driver where
  checkValidPath : Str → Bool → Str → Option Str
  mudlibRoot : Str
  opens : Str → Bool

/-- `VM::resolveMudlibPath`. -/
def Driver.resolveMudlibPath (driver : Driver) (path : Str) : Str :=
  driver.mudlibRoot ++ if path.head? = some 47 then path else 47 :: path

/-- The contents of the files. -/
abbrev Disk := Str → Option Str

/-- `save_object`: the value it returns and the disk then. -/
def saveObject (driver : Driver) (args : List SaveValue) (current : Option SaveObject)
    (disk : Disk) : Except RestoreError SaveValue × Disk :=
  match args with
  | .string path :: _ =>
      match current with
      | none => (.error (.lpc (str "save_object: no current object to save")), disk)
      | some obj =>
          match driver.checkValidPath (normalizeSavePath path) true (str "save_object") with
          | none => (.ok zero, disk)
          | some gated =>
              let file := driver.resolveMudlibPath gated
              if driver.opens file then
                (.ok (.int 1 false),
                  fun other => if other = file then some (saveText obj) else disk other)
              else (.ok zero, disk)
  | _ => (.error (.lpc (str "save_object: expected a string path argument")), disk)

/-- `restore_object`: the value it returns and the variables of the object then. -/
def restoreObject (driver : Driver) (disk : Disk) (args : List SaveValue)
    (current : Option SaveObject) (fuel : Nat) :
    Option (Except RestoreError SaveValue × List SaveValue) :=
  match args with
  | .string path :: _ =>
      match current with
      | none => some (.error (.lpc (str "restore_object: no current object to restore into")), [])
      | some obj =>
          match driver.checkValidPath (normalizeSavePath path) false (str "restore_object") with
          | none => some (.ok zero, obj.vars)
          | some gated =>
              match disk (driver.resolveMudlibPath gated) with
              | none => some (.ok zero, obj.vars)
              | some text =>
                  (restoreLines fuel obj.objectVarNames (lines text) obj.vars).map
                    fun (result, vars) => (result.map fun _ => .int 1 false, vars)
  | _ =>
      some (.error (.lpc (str "restore_object: expected a string path argument")),
        (current.map SaveObject.vars).getD [])

end Kjdmud.Efun
