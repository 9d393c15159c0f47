import Kjdmud.Lib.Asking
import Kjdmud.Efun.SaveObject
import Kjdmud.Efun.ValidPath

/-!
# The file efuns

The efuns of `src/efun/EfunTable.cpp` that hand a path to the operating system.  Each is a
program that asks the operating system, which may answer anything.  A value is the tree of
its contents, as in the save format.

`read_buffer` and `write_buffer` are modelled for a first argument that is no buffer (a buffer
is read and written in memory), and `fnmatch` of the C library is a parameter.
-/

namespace Kjdmud.Efun

open SaveVariable (SaveValue zero lf)

/-! ## The operating system -/

inductive FileKind
  | regular
  | directory
  | other
deriving DecidableEq

/-- What `stat` tells. -/
structure FileStat where
  kind : FileKind
  size : Int64
  mtime : Int64

/-- The name of a directory entry. -/
abbrev EntryName := { name : Str // slash ∉ name ∧ 0 ∉ name }

/-- A file open for reading: what `tellg` says at its end, and the bytes it gives. -/
structure OpenFile where
  size : Int64
  bytes : Str

/-- What a file efun asks of the operating system. -/
inductive OsCall
  | stat (path : Str)
  | readDir (path : Str)
  | openRead (path : Str)
  | openWrite (path : Str) (truncate : Bool)
  | create (path : Str)
  | openUpdate (path : Str)
  /-- To the file that was opened last; behind its end when there is no offset. -/
  | write (offset : Option Int64) (data : Str)
  | remove (path : Str)
  | mkdir (path : Str)
  | rmdir (path : Str)
  | rename (source target : Str)
  | link (source target : Str)

namespace OsCall

/-- The paths it hands over. -/
def paths : OsCall → List Str
  | .stat path | .readDir path | .openRead path | .openWrite path _ | .create path
  | .openUpdate path | .remove path | .mkdir path | .rmdir path => [path]
  | .rename source target | .link source target => [source, target]
  | .write _ _ => []

/-- What the operating system answers: nothing or `false` when the call fails. -/
def Answer : OsCall → Type
  | .stat _ => Option FileStat
  | .readDir _ => Option (List EntryName)
  | .openRead _ => Option OpenFile
  | .openUpdate _ => Option Int64
  | .openWrite _ _ | .create _ | .write _ _ | .remove _ | .mkdir _ | .rmdir _
  | .rename _ _ | .link _ _ => Bool

end OsCall

/-- An efun at work; it ends with no result only when the reader of a save file runs out of
fuel. -/
abbrev FileProgram := Asking OsCall OsCall.Answer (Option (Except RestoreError SaveValue))

namespace FileProgram

def returns (v : SaveValue) : FileProgram :=
  .done (some (.ok v))

/-- An `LpcRuntimeError`. -/
def throws (message : Str) : FileProgram :=
  .done (some (.error (.lpc message)))

def returnsInt (i : Int64) : FileProgram :=
  returns (.int i false)

/-- 1 on success, 0 on failure. -/
def returnsSuccess (ok : Bool) : FileProgram :=
  returnsInt (if ok then 1 else 0)

/-- 0 on success, 1 on failure. -/
def returnsFailure (ok : Bool) : FileProgram :=
  returnsInt (if ok then 0 else 1)

end FileProgram

open FileProgram

/-! ## Arguments -/

/-- The string that a value is. -/
def stringOf : SaveValue → Option Str
  | .string s => some s
  | _ => none

def argString (args : List SaveValue) (i : Nat) : Option Str :=
  args[i]?.bind stringOf

def argInt (args : List SaveValue) (i : Nat) : Option Int64 :=
  match args[i]? with
  | some (.int n _) => some n
  | _ => none

/-- An argument that is an int when it is there. -/
def optionalInt (args : List SaveValue) (i : Nat) : Option Int64 :=
  match args[i]? with
  | none => some 0
  | some (.int n _) => some n
  | some _ => none

/-- What the file efuns use of the driver. -/
structure FileDriver where
  gate : Gate
  mudlibRoot : Str
  currentObject : Option SaveObject
  /-- Whether a name matches a pattern. -/
  fnmatch : Str → Str → Bool
  /-- For the reader of a save file. -/
  fuel : Nat

namespace FileDriver

variable (driver : FileDriver)

def resolve (path : Str) : Str :=
  resolveMudlibPath driver.mudlibRoot path

/-- A path through the gate: what the efun does with the file, and what it does when the
gate refuses. -/
def gated (rawPath : Str) (writeFlag : Bool) (funcName : Str) (refused : FileProgram)
    (body : Str → FileProgram) : FileProgram :=
  match driver.gate.checkValidPath rawPath writeFlag funcName with
  | .error e => throws e
  | .ok none => refused
  | .ok (some path) => body (driver.resolve path)

/-! ## Reading -/

/-- The lines that `read_file` picks. -/
def pickLines (start numLines : Int64) (text : Str) : Str :=
  let behind := (lines text).drop ((start - 1).toInt.toNat)
  let taken := if numLines > 0 then behind.take numLines.toInt.toNat else behind
  taken.flatMap fun line => line ++ [lf]

/-- `read_file`. -/
def readFile (args : List SaveValue) : FileProgram :=
  match argString args 0 with
  | none => throws (str "read_file: expected a string filename argument")
  | some path =>
      let start := (argInt args 1).getD 1
      let start := if start < 1 then 1 else start
      let numLines := (argInt args 2).getD 0
      if numLines < 0 then returnsInt 0
      else
        driver.gated path false (str "read_file") (returnsInt 0) fun file =>
          .ask (.stat file) fun (st : Option FileStat) =>
            if st.all (·.kind = .directory) then returnsInt 0
            else
              .ask (.openRead file) fun (f : Option OpenFile) =>
                match f with
                | none => returnsInt 0
                | some f =>
                    if args.length ≤ 1 then returns (.string f.bytes)
                    else returns (.string (pickLines start numLines f.bytes))

/-- The window of `read_bytes` and `read_buffer`: what they read from an open file. -/
def readWindow (start len : Int64) (f : OpenFile) (result : Str → SaveValue) : FileProgram :=
  let start := if start < 0 then f.size + start else start
  if start < 0 ∨ f.size ≤ start then returnsInt 0
  else
    let len := if len = 0 then f.size else len
    -- the sum of two 64-bit numbers, as the machine adds them
    let len := if start + len > f.size then f.size - start else len
    let data := (f.bytes.drop start.toInt.toNat).take len.toInt.toNat
    if data = [] then returnsInt 0 else returns (result data)

/-- `read_bytes`. -/
def readBytes (args : List SaveValue) : FileProgram :=
  match argString args 0 with
  | none => throws (str "read_bytes: expected a string filename argument")
  | some path =>
      driver.gated path false (str "read_bytes") (returnsInt 0) fun file =>
        let start := (argInt args 1).getD 0
        let len := (argInt args 2).getD 0
        if len < 0 then returnsInt 0
        else
          .ask (.openRead file) fun (f : Option OpenFile) =>
            match f with
            | none => returnsInt 0
            | some f => readWindow start len f .string

/-- `read_buffer` of a path. -/
def readBuffer (args : List SaveValue) : FileProgram :=
  match args with
  | [] => throws (str "read_buffer: expected (string | buffer, void | int, void | int)")
  | _ :: _ =>
      match optionalInt args 1, optionalInt args 2 with
      | none, _ => throws (str "read_buffer: start argument must be an int")
      | some _, none => throws (str "read_buffer: len argument must be an int")
      | some start, some len =>
          match argString args 0 with
          | none => throws (str "read_buffer: first argument must be a string or a buffer")
          | some path =>
              driver.gated path false (str "read_buffer") (returnsInt 0) fun file =>
                if len < 0 then returnsInt 0
                else
                  .ask (.openRead file) fun (f : Option OpenFile) =>
                    match f with
                    | none => returnsInt 0
                    | some f => readWindow start len f .buffer

/-! ## Writing -/

/-- `write_file`. -/
def writeFile (args : List SaveValue) : FileProgram :=
  match argString args 0, argString args 1 with
  | some path, some content =>
      driver.gated path true (str "write_file") (returnsInt 0) fun file =>
        .ask (.openWrite file (argInt args 2 = some 1)) fun (ok : Bool) =>
          if ok then .ask (.write none content) fun _ => returnsInt 1 else returnsInt 0
  | _, _ => throws (str "write_file: expected (string file, string content) arguments")

/-- What `write_bytes` and `write_buffer` do with a file that is open for update. -/
def updateAt (start : Int64) (data : Str) (size : Int64) : FileProgram :=
  let start := if start < 0 then size + start else start
  if start < 0 ∨ size < start then returnsInt 0
  else .ask (.write (some start) data) fun (ok : Bool) => returnsSuccess ok

/-- The file of `write_bytes` and `write_buffer`, which is created when it cannot be opened. -/
def update (file : Str) (start : Int64) (data : Str) : FileProgram :=
  .ask (.openUpdate file) fun (size : Option Int64) =>
    match size with
    | some size => updateAt start data size
    | none =>
        .ask (.create file) fun (created : Bool) =>
          if created then
            .ask (.openUpdate file) fun (size : Option Int64) =>
              match size with
              | some size => updateAt start data size
              | none => returnsInt 0
          else returnsInt 0

/-- `write_bytes`. -/
def writeBytes (args : List SaveValue) : FileProgram :=
  match argString args 0, argInt args 1, argString args 2 with
  | some path, some start, some data =>
      driver.gated path true (str "write_bytes") (returnsInt 0) fun file =>
        update file start data
  | _, _, _ => throws (str "write_bytes: expected (string, int, string)")

/-- `write_buffer` to a path. -/
def writeBuffer (args : List SaveValue) : FileProgram :=
  match argInt args 1, argString args 0, args[2]? with
  | some start, some path, some data =>
      match stringOf data with
      | some data =>
          driver.gated path true (str "write_buffer") (returnsInt 0) fun file =>
            update file start data
      | none => throws (str "write_buffer: writing to a file requires a string data argument")
  | some _, none, some _ =>
      throws (str "write_buffer: first argument must be a string or a buffer")
  | _, _, _ =>
      throws (str "write_buffer: expected (string | buffer, int, string | buffer | int)")

/-! ## Status and directories -/

/-- `file_size`. -/
def fileSize (args : List SaveValue) : FileProgram :=
  match argString args 0 with
  | none => throws (str "file_size: expected a string path argument")
  | some path =>
      .ask (.stat (driver.resolve path)) fun (st : Option FileStat) =>
        match st with
        | none => returnsInt (-1)
        | some st => if st.kind = .directory then returnsInt (-2) else returnsInt st.size

/-- `file_length`. -/
def fileLength (args : List SaveValue) : FileProgram :=
  match argString args 0 with
  | none => throws (str "file_length: expected a string path argument")
  | some path =>
      .ask (.stat (driver.resolve path)) fun (st : Option FileStat) =>
        match st with
        | none => returnsInt (-1)
        | some st =>
            if st.kind = .directory then returnsInt (-2)
            else
              .ask (.openRead (driver.resolve path)) fun (f : Option OpenFile) =>
                match f with
                | none => returnsInt (-1)
                | some f => returnsInt (Int64.ofNat (f.bytes.count lf))

/-- The directory of a path, and the component behind its last slash. -/
def splitLast (path : Str) : Str × Str :=
  let lastComponent := (path.reverse.takeWhile (· ≠ slash)).reverse
  if slash ∈ path then (path.take (path.length - lastComponent.length - 1), lastComponent)
  else ([dot], path)

/-- `*`, `?` or `[`. -/
def isWildcard (c : UInt8) : Bool :=
  c = 0x2a ∨ c = 0x3f ∨ c = 0x5b

/-- One entry: the name, or with `flags` −1 the name, the size and the time of the file. -/
def makeEntry (wantStat : Bool) (name full : Str) :
    Asking OsCall OsCall.Answer SaveValue :=
  if wantStat then
    .ask (.stat full) fun (st : Option FileStat) =>
      let size := (st.map fun st => if st.kind = .directory then -2 else st.size).getD 0
      let mtime := (st.map FileStat.mtime).getD 0
      .done (.array [.string name, .int size false, .int mtime false] false)
  else .done (.string name)

/-- The name of an entry. -/
def entryName : SaveValue → Str
  | .string name => name
  | .array (.string name :: _) _ => name
  | _ => []

/-- The sorted array of the entries. -/
def sorted (entries : List SaveValue) : FileProgram :=
  returns (.array (entries.mergeSort fun a b => ! decide (entryName b < entryName a)) false)

/-- The entries of a directory, less `.` and `..`, that are picked. -/
def listDir (wantStat : Bool) (directory : Str) (picks : Str → Bool) : FileProgram :=
  .ask (.readDir directory) fun (names : Option (List EntryName)) =>
    match names with
    | none => returns (.array [] false)
    | some names =>
        let picked := names.filter fun name =>
          name.1 ≠ [dot] ∧ name.1 ≠ [dot, dot] ∧ picks name.1
        (Asking.forEach
          (fun name : EntryName =>
            makeEntry wantStat name.1 (directory ++ slash :: name.1)) picked).bind sorted

/-- `get_dir`. -/
def getDir (args : List SaveValue) : FileProgram :=
  match argString args 0 with
  | none => throws (str "get_dir: expected a string path argument")
  | some rawPath =>
      match optionalInt args 1 with
      | none => throws (str "get_dir: flags argument must be an int")
      | some flags =>
          let wantStat : Bool := flags = -1
          driver.gated rawPath false (str "get_dir") (returns (.array [] false)) fun path =>
            let dirPart := (splitLast path).1
            let lastComponent := (splitLast path).2
            if lastComponent.any isWildcard then
              .ask (.stat dirPart) fun (st : Option FileStat) =>
                if st.any (·.kind = .directory) then
                  listDir wantStat dirPart (driver.fnmatch lastComponent)
                else returns (.array [] false)
            else
              .ask (.stat path) fun (st : Option FileStat) =>
                match st with
                | none => returns (.array [] false)
                | some st =>
                    if st.kind = .directory then listDir wantStat path fun _ => true
                    else
                      (makeEntry wantStat lastComponent path).bind fun entry => sorted [entry]

/-- `stat`. -/
def stat (args : List SaveValue) : FileProgram :=
  match argString args 0 with
  | none => throws (str "stat: expected a string path argument")
  | some path =>
      .ask (.stat (driver.resolve path)) fun (st : Option FileStat) =>
        match st with
        | some ⟨.regular, size, mtime⟩ =>
            returns (.array [.int size false, .int mtime false, zero] false)
        | _ => driver.getDir (args.take 2)

/-! ## One path or two -/

/-- `rm`. -/
def rm (args : List SaveValue) : FileProgram :=
  match argString args 0 with
  | none => throws (str "rm: expected a string path argument")
  | some path =>
      driver.gated path true (str "rm") (returnsInt 0) fun file =>
        .ask (.remove file) fun (ok : Bool) => returnsSuccess ok

/-- `mkdir`. -/
def mkdir (args : List SaveValue) : FileProgram :=
  match argString args 0 with
  | none => throws (str "mkdir: expected a string path argument")
  | some path =>
      driver.gated path true (str "mkdir") (returnsInt 0) fun file =>
        .ask (.mkdir file) fun (ok : Bool) => returnsSuccess ok

/-- `rmdir`. -/
def rmdir (args : List SaveValue) : FileProgram :=
  match argString args 0 with
  | none => throws (str "rmdir: expected a string path argument")
  | some path =>
      driver.gated path true (str "rmdir") (returnsInt 0) fun file =>
        .ask (.rmdir file) fun (ok : Bool) => returnsSuccess ok

/-- `rename`. -/
def rename (args : List SaveValue) : FileProgram :=
  match argString args 0, argString args 1 with
  | some source, some target =>
      driver.gated source true (str "rename_from") (returnsInt 1) fun source =>
        driver.gated target true (str "rename_to") (returnsInt 1) fun target =>
          .ask (.rename source target) fun (ok : Bool) => returnsFailure ok
  | _, _ => throws (str "rename: expected two string arguments")

/-- `link`. -/
def link (args : List SaveValue) : FileProgram :=
  match argString args 0, argString args 1 with
  | some source, some target =>
      .ask (.link (driver.resolve source) (driver.resolve target)) fun (ok : Bool) =>
        returnsFailure ok
  | _, _ => throws (str "link: expected two string arguments")

/-- `cp`. -/
def cp (args : List SaveValue) : FileProgram :=
  match argString args 0, argString args 1 with
  | some source, some target =>
      .ask (.openRead (driver.resolve source)) fun (f : Option OpenFile) =>
        match f with
        | none => returnsInt 0
        | some f =>
            .ask (.openWrite (driver.resolve target) true) fun (ok : Bool) =>
              if ok then
                .ask (.write none f.bytes) fun (ok : Bool) => returnsSuccess ok
              else returnsInt 0
  | _, _ => throws (str "cp: expected (string from, string to) arguments")

/-! ## Save files -/

/-- `save_object`. -/
def saveObject (args : List SaveValue) : FileProgram :=
  match argString args 0 with
  | none => throws (str "save_object: expected a string path argument")
  | some path =>
      match driver.currentObject with
      | none => throws (str "save_object: no current object to save")
      | some obj =>
          driver.gated (normalizeSavePath path) true (str "save_object") (returnsInt 0)
            fun file =>
              .ask (.openWrite file true) fun (ok : Bool) =>
                if ok then .ask (.write none (saveText obj)) fun _ => returnsInt 1
                else returnsInt 0

/-- `restore_object`. -/
def restoreObject (args : List SaveValue) : FileProgram :=
  match argString args 0 with
  | none => throws (str "restore_object: expected a string path argument")
  | some path =>
      match driver.currentObject with
      | none => throws (str "restore_object: no current object to restore into")
      | some obj =>
          driver.gated (normalizeSavePath path) false (str "restore_object") (returnsInt 0)
            fun file =>
              .ask (.openRead file) fun (f : Option OpenFile) =>
                match f with
                | none => returnsInt 0
                | some f =>
                    .done ((restoreLines driver.fuel obj.objectVarNames (lines f.bytes)
                      obj.vars).map fun (result, _) => result.map fun _ => .int 1 false)

end FileDriver

/-! ## The table -/

/-- The efuns above. -/
inductive FileEfun
  | readFile | writeFile | fileSize | fileLength | getDir | rm | mkdir | rmdir | rename
  | cp | stat | link | readBytes | writeBytes | readBuffer | writeBuffer | saveObject
  | restoreObject

namespace FileEfun

/-- The call of an efun. -/
def call : FileEfun → FileDriver → List SaveValue → FileProgram
  | readFile => FileDriver.readFile
  | writeFile => FileDriver.writeFile
  | fileSize => FileDriver.fileSize
  | fileLength => FileDriver.fileLength
  | getDir => FileDriver.getDir
  | rm => FileDriver.rm
  | mkdir => FileDriver.mkdir
  | rmdir => FileDriver.rmdir
  | rename => FileDriver.rename
  | cp => FileDriver.cp
  | stat => FileDriver.stat
  | link => FileDriver.link
  | readBytes => FileDriver.readBytes
  | writeBytes => FileDriver.writeBytes
  | readBuffer => FileDriver.readBuffer
  | writeBuffer => FileDriver.writeBuffer
  | saveObject => FileDriver.saveObject
  | restoreObject => FileDriver.restoreObject

/-- The arguments that are paths. -/
def pathArgs (efun : FileEfun) (args : List SaveValue) : List Str :=
  match efun with
  | rename | cp | link => (argString args 0).toList ++ (argString args 1).toList
  | _ => (argString args 0).toList

end FileEfun

end Kjdmud.Efun
