import Kjdmud.Lib.Walks
import Kjdmud.Vm.Value
import Kjdmud.Vm.SaveVariable

/-!
# The writers of values

Five functions of the driver write a value as a text and recurse over the arrays, mappings and
closures that it refers to: `writeRealSaveValue` of `src/vm/SaveVariable.cpp`,
`serializeValue`, `json::serializeValue` and `valueToDebugString` of
`src/efun/EfunTable.cpp`, and `serializeWorldValue` of `src/persist/StateSerializer.cpp`.
Each is given by what one call of it writes, in order, with the values it calls itself for.

The heap is a graph: an array may hold itself.  A null pointer to an array or a mapping, which
no value of LPC holds, is taken for an empty one.  What a stream makes of a `double` is a
parameter.
-/

namespace Kjdmud.Efun

open Vm (Data Value Mapping Closure World Ref)
open SaveVariable (escapeByte quote backslash openParen closeParen openBrace closeBrace
  openBracket closeBracket comma colon semicolon point)

/-- What one call writes; an exception is an `LpcRuntimeError` with its message. -/
abbrev WriterStep (N : Type) := Walk.Piece UInt8 N Str

namespace WriterStep

/-- A call for a value. -/
def value (v : Value) : WriterStep Data :=
  .node v.data

end WriterStep

open WriterStep (value)

/-- The items of an array. -/
def arrayItems (w : World) (ref : Option Ref) : List Value :=
  (ref.map w.array).getD []

/-- The contents of a mapping. -/
def mappingContents (w : World) (ref : Option Ref) : Mapping :=
  (ref.map w.mapping).getD ⟨[], 1, []⟩

/-- The columns of entry `i` behind the first: a row that `extraColumns` does not have is
written as zeros. -/
def extraColumnSteps (m : Mapping) (i : Nat) (before : List (WriterStep Data))
    (zero : WriterStep Data) : List (WriterStep Data) :=
  (List.range (m.width - 1)).flatMap fun c =>
    before ++ [if i < m.extraColumns.length then value (m.getColumn i (c + 1)) else zero]

/-! ## `save_variable` and `save_object` -/

/-- `writeRealSaveValue`. -/
def saveVisit (w : World) : Data → List (WriterStep Data)
  | .void => [.text (str "0")]
  | .int i => [.text (Decimal.ofInt i.toInt)]
  | .double d => [.text d.toFixed]
  | .string s => [.text (quote :: s.flatMap escapeByte ++ [quote])]
  | .array ref =>
      .text [openParen, openBrace] ::
        ((arrayItems w ref).flatMap fun item => [value item, .text [comma]]) ++
        [.text [closeBrace, closeParen]]
  | .mapping ref =>
      let m := mappingContents w ref
      .text [openParen, openBracket] ::
        (m.entries.zipIdx.flatMap fun (entry, i) =>
          value entry.1 :: .text [colon] :: value entry.2 ::
            extraColumnSteps m i [.text [semicolon]] (.text (str "0")) ++ [.text [comma]]) ++
        [.text [closeBracket, closeParen]]
  | .nil | .symbol _ | .object _ | .closure _ | .buffer _ => []

/-- `serializeValue`, the older format. -/
def legacyVisit (showDouble : Double → Str) (w : World) : Data → List (WriterStep Data)
  | .int i => [.text (0x49 :: Decimal.ofInt i.toInt ++ [semicolon])]
  | .double d => [.text (0x46 :: showDouble d ++ [semicolon])]
  | .string s => [.text (0x53 :: Decimal.ofNat s.length ++ colon :: s)]
  | .array ref =>
      .text (0x41 :: Decimal.ofNat (arrayItems w ref).length ++ [colon]) ::
        (arrayItems w ref).map value
  | .mapping ref =>
      let m := mappingContents w ref
      if m.width > 1 then
        [.raise (str ("save_object: cannot save a mapping with width > 1 (real LDMud N-column " ++
          "mapping). This driver's save_object()/restore_object() only serialize column 0 " ++
          "today, so saving one would silently discard every other column instead of raising " ++
          "this error; see ROADMAP.md row 1.9's own note"))]
      else
        .text (0x4d :: Decimal.ofNat m.entries.length ++ [colon]) ::
          m.entries.flatMap fun entry => [value entry.1, value entry.2]
  | .void | .nil | .symbol _ | .object _ | .closure _ | .buffer _ => [.text [0x4e]]

/-! ## The world dump -/

/-- The id of a closure's owner: −1 when it is gone or not in the table. -/
def writtenOwner (idOfObject : ObjectId → Option Nat) (w : World) (owner : ObjectId) : Int :=
  if ((w.objects[owner]?).map Vm.LpcObject.expired).getD true then -1
  else ((idOfObject owner).map Int.ofNat).getD (-1)

/-- `serializeClosure`. -/
def closureSteps (idOfObject : ObjectId → Option Nat) (w : World) (c : Closure) :
    List (WriterStep Data) :=
  if c.unboundUntilBound ∨ c.lambdaBody.data ≠ .void then
    [.raise (str "dump_state: cannot dump an unbound_lambda()/quoted-code closure")]
  else
    .text (0x43 :: Decimal.ofInt (writtenOwner idOfObject w c.owner) ++ semicolon ::
      (if c.forceEfun then 0x31 else 0x30) :: semicolon ::
      Decimal.ofNat c.functionName.length ++ colon :: c.functionName ++
      Decimal.ofNat c.boundArgs.length ++ [semicolon]) :: c.boundArgs.map value

/-- `serializeWorldValue`. -/
def worldVisit (showDouble : Double → Str) (idOfObject : ObjectId → Option Nat) (w : World) :
    Data → List (WriterStep Data)
  | .int i => [.text (0x49 :: Decimal.ofInt i.toInt ++ [semicolon])]
  | .double d => [.text (0x46 :: showDouble d ++ [semicolon])]
  | .string s => [.text (0x53 :: Decimal.ofNat s.length ++ colon :: s)]
  | .array ref =>
      .text (0x41 :: Decimal.ofNat (arrayItems w ref).length ++ [colon]) ::
        (arrayItems w ref).map value
  | .mapping ref =>
      let m := mappingContents w ref
      .text (0x4d :: Decimal.ofNat m.entries.length ++
        (if m.width > 1 then 0x77 :: Decimal.ofNat m.width else []) ++ [colon]) ::
        m.entries.zipIdx.flatMap fun (entry, i) =>
          value entry.1 :: value entry.2 ::
            extraColumnSteps m i [] (.text (str "I0;"))
  | .object none => [.text [0x4e]]
  | .object (some ob) =>
      match idOfObject ob with
      | none => [.raise (str "dump_state: object reference not found in id table")]
      | some id => [.text (0x4f :: Decimal.ofNat id ++ [semicolon])]
  | .closure none => [.text [0x4e]]
  | .closure (some ref) =>
      match w.closures[ref]? with
      | none => []
      | some c => closureSteps idOfObject w c
  | .void | .nil | .symbol _ | .buffer _ => [.text [0x4e]]

/-! ## JSON -/

/-- A hexadecimal digit. -/
def hexDigit (n : Nat) : UInt8 :=
  if n < 10 then UInt8.ofNat (0x30 + n) else UInt8.ofNat (0x57 + n)

/-- One byte of `appendEscapedString`. -/
def jsonEscape (c : UInt8) : Str :=
  if c = quote then [backslash, quote]
  else if c = backslash then [backslash, backslash]
  else if c = 0x08 then str "\\b"
  else if c = 0x0c then str "\\f"
  else if c = 0x0a then str "\\n"
  else if c = 0x0d then str "\\r"
  else if c = 0x09 then str "\\t"
  else if c < 0x20 then
    str "\\u00" ++ [hexDigit (c.toNat / 16), hexDigit (c.toNat % 16)]
  else [c]

/-- `appendEscapedString`. -/
def jsonString (s : Str) : Str :=
  quote :: s.flatMap jsonEscape ++ [quote]

/-- The text of a number that does not look like an int. -/
def jsonNumber (text : Str) : Str :=
  if text.contains point ∨ text.contains 0x65 ∨ text.contains 0x45 ∨
      str "inf" <:+: text ∨ str "nan" <:+: text then text
  else text ++ str ".0"

/-- `svalueTypeName`. -/
def svalueTypeName : Data → Str
  | .int _ => str "int"
  | .double _ => str "float"
  | .string _ => str "string"
  | .object _ => str "object"
  | .array _ => str "array"
  | .mapping _ => str "mapping"
  | .closure _ => str "function"
  | .buffer _ => str "buffer"
  | .void | .nil | .symbol _ => str "int"

/-- One entry of an object. -/
def jsonEntry (entry : Value × Value) (i : Nat) : List (WriterStep Data) :=
  match entry.1.data with
  | .string key =>
      [.text ((if i = 0 then [] else [comma]) ++ jsonString key ++ [colon]), value entry.2]
  | other =>
      [.raise (str "json_serialize(): JSON supports only string keys, but got: " ++
        svalueTypeName other)]

/-- `json::serializeValue`; `showDouble` is `%.17g`. -/
def jsonVisit (showDouble : Double → Str) (w : World) : Data → List (WriterStep Data)
  | .int i => [.text (Decimal.ofInt i.toInt)]
  | .double d => [.text (jsonNumber (showDouble d))]
  | .string s => [.text (jsonString s)]
  | .array ref =>
      .text [openBracket] ::
        ((arrayItems w ref).zipIdx.flatMap fun (item, i) =>
          [.text (if i = 0 then [] else [comma]), value item]) ++
        [.text [closeBracket]]
  | .mapping ref =>
      let m := mappingContents w ref
      if m.width ≠ 1 then
        [.raise (str "json_serialize(): can only serialize mappings with width 1.")]
      else
        .text [openBrace] :: (m.entries.zipIdx.flatMap fun (entry, i) => jsonEntry entry i) ++
          [.text [closeBrace]]
  | .void | .nil | .symbol _ | .object _ | .closure _ | .buffer _ =>
      [.raise (str "json_serialize(): value of this type cannot be serialized to JSON.")]

/-! ## `%O` -/

/-- A call of `valueToDebugString` for a value at an indent. -/
def indented (v : Value) (indent : Nat) : WriterStep (Data × Nat) :=
  .node (v.data, indent)

/-- `valueToDebugString`. -/
def debugVisit (w : World) : Data × Nat → List (WriterStep (Data × Nat))
  | (data, indent) =>
      if indent > 20 then [.text (str "...")]
      else
        let pad := List.replicate indent 0x20
        match data with
        | .void => [.text (str "0")]
        | .int i => [.text (Decimal.ofInt i.toInt)]
        | .double d => [.text d.toFixed]
        | .string s => [.text (quote :: s ++ [quote])]
        | .object none => [.text (str "0")]
        | .object (some ob) =>
            if w.isDestructed ob then [.text (str "0")]
            else [.text (str "/" ++ w.filename ob)]
        | .array ref =>
            let items := arrayItems w ref
            if items.isEmpty then [.text (str "({ })")]
            else
              .text (str "(\x7b /* sizeof() == " ++ Decimal.ofNat items.length ++ str " */\n") ::
                (items.zipIdx.flatMap fun (item, i) =>
                  [.text (pad ++ str "  "), indented item (indent + 2),
                    .text (if i + 1 < items.length then str ",\n" else str "\n")]) ++
                [.text (pad ++ str "\x7d)")]
        | .mapping ref =>
            let entries := (mappingContents w ref).entries
            if entries.isEmpty then [.text (str "([ ])")]
            else
              .text (str "([ /* sizeof() == " ++ Decimal.ofNat entries.length ++ str " */\n") ::
                (entries.flatMap fun entry =>
                  [.text (pad ++ str "  "), indented entry.1 (indent + 2), .text (str " : "),
                    indented entry.2 (indent + 4), .text (str ",\n")]) ++
                [.text (pad ++ str "])")]
        | .closure none => [.text (str "(: :)")]
        | .closure (some ref) =>
            match w.closures[ref]? with
            | none => []
            | some c =>
                .text (str "(: " ++ c.functionName) ::
                  (c.boundArgs.flatMap fun bound => [.text (str ", "), indented bound indent]) ++
                  [.text (str " :)")]
        | .buffer _ => [.text (str "<buffer>")]
        | .nil | .symbol _ => [.text (str "!ERROR: GARBAGE SVALUE!")]

/-! ## The five writers -/

inductive Writer
  | saveVariable
  | saveObject
  | world
  | json
  | debug
deriving DecidableEq

/-- What the writers are given besides the heap: two ways to write a `double`, and the table of
the world dump. -/
structure WriterEnv where
  showDouble : Double → Str
  showPrecise : Double → Str
  idOfObject : ObjectId → Option Nat

namespace Writer

/-- A writer at a value, with so many levels of recursion: `none` when they do not suffice. -/
def write (writer : Writer) (env : WriterEnv) (w : World) (depth : Nat) (v : Value) :
    Option (Except Str Str) :=
  match writer with
  | saveVariable => Walk.write (saveVisit w) depth v.data
  | saveObject => Walk.write (legacyVisit env.showDouble w) depth v.data
  | world => Walk.write (worldVisit env.showDouble env.idOfObject w) depth v.data
  | json => Walk.write (jsonVisit env.showPrecise w) depth v.data
  | debug => Walk.write (debugVisit w) depth (v.data, 0)

/-- The writer enters a value that is below itself. -/
def Looped (writer : Writer) (env : WriterEnv) (w : World) (v : Value) : Prop :=
  match writer with
  | saveVariable => Walk.Looped (saveVisit w) v.data
  | saveObject => Walk.Looped (legacyVisit env.showDouble w) v.data
  | world => Walk.Looped (worldVisit env.showDouble env.idOfObject w) v.data
  | json => Walk.Looped (jsonVisit env.showPrecise w) v.data
  | debug => Walk.Looped (debugVisit w) (v.data, 0)

end Writer

/-- The depth that a heap allows its writers: `%O` may come to each of its arrays, mappings and
closures at each of 21 indents. -/
def stackBound (w : World) : Nat :=
  21 * (w.arrays.length + w.mappings.length + w.closures.length) + 1

/-- The writer comes to an end, with a text or an `LpcRuntimeError`, within that depth. -/
def Writer.Finishes (writer : Writer) (env : WriterEnv) (w : World) (v : Value) : Prop :=
  (writer.write env w (stackBound w) v).isSome

/-- `a = ({ 1, ({ }) })` as `%O` shows it. -/
example :
    let w : World := ⟨[[.int 1, ⟨.array (some 1), false, false⟩], []], [], [], [], [], [], [], [],
      [], [], [], [], [], 0, 0⟩
    Writer.write .debug ⟨fun _ => [], fun _ => [], fun _ => none⟩ w 3
        ⟨.array (some 0), false, false⟩ =
      some (.ok (str "(\x7b /* sizeof() == 2 */\n  1,\n  (\x7b \x7d)\n\x7d)")) := by
  decide

end Kjdmud.Efun
