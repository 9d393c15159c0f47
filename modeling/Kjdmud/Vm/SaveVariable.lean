import Kjdmud.Core.Double

/-!
# The `save_variable` text format

`src/vm/SaveVariable.cpp`: the writer `writeRealSaveValue` and the reader
`parseRestoreVariableTopLevel` with the functions it drives.  The writer and
the reader see arrays and mappings only through their contents, so a value is
the tree of its contents.

The source's `(s, pos)` cursor is the suffix of the text from `pos` on.  The
reader recurses wherever its element loops lead it, so it runs on a fuel
budget; running out is `none`, and an exception is an `Except.error`.
-/

namespace Kjdmud.SaveVariable

/-- An LPC value as the save format sees it (`Value.hpp`). -/
inductive SaveValue
  | void
  | nil
  | int (i : Int64) (isUndefined : Bool)
  | float (d : Double)
  | string (s : Str)
  | symbol (name : Str)
  | object (handle : Nat)
  | array (items : List SaveValue) (isClassInstance : Bool)
  | mapping (width : Nat) (entries : List (SaveValue × SaveValue))
      (extraColumns : List (List SaveValue))
  | closure (handle : Nat)
  | buffer (bytes : Str)

/-- `Value(int64_t{0})`. -/
def zero : SaveValue := .int 0 false

/-! ## Bytes of the format -/

def cr : UInt8 := 13
def lf : UInt8 := 10
def quote : UInt8 := 0x22
def backslash : UInt8 := 0x5c
def openParen : UInt8 := 0x28
def closeParen : UInt8 := 0x29
def openBrace : UInt8 := 0x7b
def closeBrace : UInt8 := 0x7d
def openBracket : UInt8 := 0x5b
def closeBracket : UInt8 := 0x5d
def comma : UInt8 := 0x2c
def colon : UInt8 := 0x3a
def semicolon : UInt8 := 0x3b
def minus : UInt8 := 0x2d
def point : UInt8 := 0x2e

/-! ## The writer -/

/-- The string case of `writeRealSaveValue`, one byte at a time. -/
def escapeByte (c : UInt8) : Str :=
  if c = quote ∨ c = backslash then [backslash, c]
  else if c = lf then [cr]
  else [c]

/-- One iteration of the mapping loop of `writeRealSaveValue`.  The texts of the
key, the value and the extra columns are already rendered; a row that
`extraColumns` does not have is written as zeros. -/
def writeEntry (width : Nat) (entry : Str × Str) (row : Option (List Str)) : Str :=
  entry.1 ++ [colon] ++ entry.2 ++
    ((List.range (width - 1)).flatMap fun column =>
      semicolon :: match row with
        | some columns => columns.getD column []
        | none => str "0") ++
    [comma]

/-- The mapping loop of `writeRealSaveValue`. -/
def writeEntries (width : Nat) : List (Str × Str) → List (List Str) → Str
  | [], _ => []
  | entry :: entries, rows =>
      writeEntry width entry rows.head? ++ writeEntries width entries rows.tail

mutual

/-- The text `writeRealSaveValue` appends for a value.  Objects, closures and
buffers, like the remaining kinds the source has no case for, append
nothing. -/
def writeRealSaveValue : SaveValue → Str
  | .void => str "0"
  | .int i _ => Decimal.ofInt i.toInt
  | .float d => d.toFixed
  | .string s => quote :: s.flatMap escapeByte ++ [quote]
  | .array items _ =>
      [openParen, openBrace] ++ (writeItems items).flatMap (· ++ [comma]) ++
        [closeBrace, closeParen]
  | .mapping width entries extraColumns =>
      [openParen, openBracket] ++
        writeEntries width (writePairs entries) (writeRows extraColumns) ++
        [closeBracket, closeParen]
  | .nil | .symbol _ | .object _ | .closure _ | .buffer _ => []

def writeItems : List SaveValue → List Str
  | [] => []
  | item :: items => writeRealSaveValue item :: writeItems items

def writePair : SaveValue × SaveValue → Str × Str
  | (key, value) => (writeRealSaveValue key, writeRealSaveValue value)

def writePairs : List (SaveValue × SaveValue) → List (Str × Str)
  | [] => []
  | entry :: entries => writePair entry :: writePairs entries

def writeRows : List (List SaveValue) → List (List Str)
  | [] => []
  | row :: rows => writeItems row :: writeRows rows

end

/-! ## The reader -/

/-- What a reader function can throw. -/
inductive ReadError
  /-- An `LpcRuntimeError`, which LPC `catch()` traps. -/
  | lpc (message : Str)
  /-- `std::invalid_argument` of a number conversion. -/
  | invalidArgument
  /-- `std::out_of_range` of a number conversion. -/
  | outOfRange

/-- The outcome of a reader function within a fuel budget. -/
abbrev Outcome (α : Type) := Option (Except ReadError α)

namespace Outcome

def ok {α : Type} (a : α) : Outcome α := some (.ok a)

def throw {α : Type} (e : ReadError) : Outcome α := some (.error e)

/-- What follows a reader function that came to an end. -/
def resume {α β : Type} (next : α → Outcome β) : Except ReadError α → Outcome β
  | .ok a => next a
  | .error e => throw e

/-- Sequencing of reader functions. -/
def andThen {α β : Type} (first : Outcome α) (next : α → Outcome β) : Outcome β :=
  first.bind (resume next)

end Outcome

/-- `if (pos < s.size() && s[pos] == c) ++pos;` -/
def skipByte (c : UInt8) : Str → Str
  | [] => []
  | first :: rest => if first = c then rest else first :: rest

/-- `parseRealSaveString`, entered after the opening quote. -/
def parseRealSaveString : Str → Str × Str
  | [] => ([], [])
  | c :: rest =>
      if c = quote then ([], rest)
      else if c = backslash then
        match rest with
        | [] => ([c], [])
        | escaped :: rest =>
            let (result, rest) := parseRealSaveString rest
            (escaped :: result, rest)
      else
        let (result, rest) := parseRealSaveString rest
        ((if c = cr then lf else c) :: result, rest)

/-- `std::stoll` on an optional minus sign followed by digits. -/
def stoll (negative : Bool) (digits : Str) : Except ReadError Int64 :=
  if digits = [] then .error .invalidArgument
  else
    let n : Int := if negative then -(Decimal.value digits : Int) else Decimal.value digits
    if -2 ^ 63 ≤ n ∧ n < 2 ^ 63 then .ok (Int64.ofInt n) else .error .outOfRange

/-- `std::stod` on an optional minus sign, digits, a point and digits. -/
def stod (negative : Bool) (whole frac : Str) : Except ReadError Double :=
  if whole = [] ∧ frac = [] then .error .invalidArgument
  else
    match Double.strtod ⟨negative, whole, frac⟩ with
    | some d => .ok d
    | none => .error .outOfRange

/-- The part of the two number readers after the sign: digits, an optional
fraction, and the conversion of the token. -/
def parseUnsigned (negative : Bool) (s : Str) : Except ReadError (SaveValue × Str) :=
  let whole := s.takeWhile Decimal.isDigit
  match s.dropWhile Decimal.isDigit with
  | c :: rest =>
      if c = point then do
        let d ← stod negative whole (rest.takeWhile Decimal.isDigit)
        pure (.float d, rest.dropWhile Decimal.isDigit)
      else do
        let i ← stoll negative whole
        pure (.int i false, c :: rest)
  | [] => do
      let i ← stoll negative whole
      pure (.int i false, [])

/-- `parseRealSaveNumber`. -/
def parseRealSaveNumber : Str → Except ReadError (SaveValue × Str)
  | [] => parseUnsigned false []
  | c :: rest => if c = minus then parseUnsigned true rest else parseUnsigned false (c :: rest)

/-- The end of an aggregate: `if (pos < s.size()) ++pos;` past the closing brace
or bracket the loop stopped at, then an optional `)`. -/
def closeAggregate (s : Str) : Str :=
  skipByte closeParen s.tail

/-- The mapping built when its loop ends: as wide as its widest entry, with
missing extra columns read as 0. -/
def finishMapping (rows : List (SaveValue × SaveValue × List SaveValue)) : SaveValue :=
  let maxWidth := (rows.map fun row => 1 + row.2.2.length).foldl max 1
  .mapping maxWidth (rows.map fun row => (row.1, row.2.1))
    (if maxWidth > 1 then
      rows.map fun row => row.2.2 ++ List.replicate (maxWidth - 1 - row.2.2.length) zero
    else [])

mutual

/-- `parseRealSaveValue`. -/
def parseRealSaveValue : Nat → Str → Outcome (SaveValue × Str)
  | 0, _ => none
  | _ + 1, [] => .ok (zero, [])
  | fuel + 1, c :: rest =>
      if c = quote then
        let (text, rest) := parseRealSaveString rest
        .ok (.string text, rest)
      else if c = openParen then
        if rest.head? = some openBrace then
          (parseItems fuel [] rest.tail).andThen fun (items, rest) =>
            .ok (.array items false, closeAggregate rest)
        else if rest.head? = some openBracket then
          (parseEntries fuel [] rest.tail).andThen fun (rows, rest) =>
            .ok (finishMapping rows, closeAggregate rest)
        else .throw (.lpc (str "restore_object: class-typed save data is not supported"))
      else if c = minus ∨ Decimal.isDigit c then some (parseRealSaveNumber (c :: rest))
      else .ok (zero, c :: rest)

/-- The element loop of the array case. -/
def parseItems : Nat → List SaveValue → Str → Outcome (List SaveValue × Str)
  | 0, _, _ => none
  | _ + 1, items, [] => .ok (items, [])
  | fuel + 1, items, c :: rest =>
      if c = closeBrace then .ok (items, c :: rest)
      else if c = comma then parseItems fuel (items ++ [zero]) rest
      else
        (parseRealSaveValue fuel (c :: rest)).andThen fun (item, rest) =>
          parseItems fuel (items ++ [item]) (skipByte comma rest)

/-- The entry loop of the mapping case. -/
def parseEntries : Nat → List (SaveValue × SaveValue × List SaveValue) → Str →
    Outcome (List (SaveValue × SaveValue × List SaveValue) × Str)
  | 0, _, _ => none
  | _ + 1, rows, [] => .ok (rows, [])
  | fuel + 1, rows, c :: rest =>
      if c = closeBracket then .ok (rows, c :: rest)
      else
        (parseEntry fuel (c :: rest)).andThen fun (row, rest) =>
          parseEntries fuel (rows ++ [row]) rest

/-- One iteration of the entry loop: a key, an optional colon, a value, the extra
columns and an optional comma. -/
def parseEntry : Nat → Str → Outcome ((SaveValue × SaveValue × List SaveValue) × Str)
  | 0, _ => none
  | fuel + 1, s =>
      (parseRealSaveValue fuel s).andThen fun (key, rest) =>
        (parseRealSaveValue fuel (skipByte colon rest)).andThen fun (val, rest) =>
          (parseExtra fuel [] rest).andThen fun (extra, rest) =>
            .ok ((key, val, extra), skipByte comma rest)

/-- The inner loop of the mapping case over `;`-separated extra columns. -/
def parseExtra : Nat → List SaveValue → Str → Outcome (List SaveValue × Str)
  | 0, _, _ => none
  | _ + 1, extra, [] => .ok (extra, [])
  | fuel + 1, extra, c :: rest =>
      if c = semicolon then
        (parseRealSaveValue fuel rest).andThen fun (column, rest) =>
          parseExtra fuel (extra ++ [column]) rest
      else .ok (extra, c :: rest)

end

/-- `restore_variable(): Illegal string format.` -/
def illegalString : ReadError := .lpc (str "restore_variable(): Illegal string format.")

/-- The loop of `parseRestoreVariableString`, up to the closing quote. -/
def parseRestoreVariableBody : Str → Except ReadError (Str × Str)
  | [] => .error illegalString
  | c :: rest =>
      if c = quote then .ok ([], rest)
      else if c = backslash then
        match rest with
        | [] => .error illegalString
        | escaped :: rest => do
            let (result, rest) ← parseRestoreVariableBody rest
            pure ((if escaped = cr then lf else escaped) :: result, rest)
      else do
        let (result, rest) ← parseRestoreVariableBody rest
        pure ((if c = cr then lf else c) :: result, rest)

/-- `parseRestoreVariableString`: unlike a nested string, a top-level one must be
closed by the last byte of the text. -/
def parseRestoreVariableString (s : Str) : Except ReadError (SaveValue × Str) := do
  let (result, rest) ← parseRestoreVariableBody s
  if rest = [] then pure (.string result, []) else .error illegalString

/-- `parseRestoreVariableNumber`: a minus sign must be followed by a digit. -/
def parseRestoreVariableNumber : Str → Except ReadError (SaveValue × Str)
  | [] => parseUnsigned false []
  | c :: rest =>
      if c = minus then
        if rest.head?.any Decimal.isDigit then parseUnsigned true rest
        else .error (.lpc (str "restore_variable(): Illegal numeric format."))
      else parseUnsigned false (c :: rest)

/-- `parseRestoreVariableTopLevel`, with the text left unread. -/
def parseRestoreVariable (fuel : Nat) : Str → Outcome (SaveValue × Str)
  | [] => .ok (zero, [])
  | c :: rest =>
      if c = quote then some (parseRestoreVariableString rest)
      else if c = minus ∨ Decimal.isDigit c then some (parseRestoreVariableNumber (c :: rest))
      else parseRealSaveValue fuel (c :: rest)

/-- `parseRestoreVariableTopLevel`. -/
def parseRestoreVariableTopLevel (fuel : Nat) (s : Str) : Outcome SaveValue :=
  (parseRestoreVariable fuel s).andThen fun (value, _) => .ok value

end Kjdmud.SaveVariable
