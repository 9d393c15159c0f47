import Kjdmud.Efun.Writers

/-!
# `sprintf`

`sprintfImpl` of `src/efun/EfunTable.cpp`.  What the scan has not read yet is the rest of the
format.  The text that is appended to the result is a list of chunks: a column is one of its
own, because its lines start where the result stands at that point.
-/

namespace Kjdmud.Efun.Sprintf

open Kjdmud.Vm (Data Value World)

/-! ## The pre-scan -/

/-- What `countColStringSpecs` takes for a modifier, a pad apart. -/
def isModifier (c : UInt8) : Bool :=
  c = 45 || c = 58 || c = 124 || c = 61 || c = 64 || c = 46 || c = 42 || Decimal.isDigit c

/-- The loop over the modifiers, and the one over a pad in it: whether there is a `=`, and the
rest of the format. -/
def scanModifiers (inPad eq : Bool) : Str → Bool × Str
  | [] => (eq, [])
  | c :: s =>
      if inPad then
        if c = 92 then
          match s with
          | [] => (eq, [])
          | _ :: s => scanModifiers true eq s
        else scanModifiers (c ≠ 39) eq s
      else if c = 39 then scanModifiers true eq s
      else if isModifier c then scanModifiers false (eq || c = 61) s
      else (eq, c :: s)

/-- A conversion that is laid out in a column. -/
def isText (spec : UInt8) : Bool :=
  spec = 115 || spec = 79

/-- The loop of `countColStringSpecs`.  A round takes a byte at least. -/
def countFrom : Nat → Str → Nat
  | 0, _ => 0
  | _ + 1, [] => 0
  | fuel + 1, c :: s =>
      if c ≠ 37 ∨ s = [] then countFrom fuel s
      else if s.head? = some 37 then countFrom fuel s.tail
      else
        match scanModifiers false false s with
        | (_, []) => 0
        | (eq, spec :: s) => (if eq && isText spec then 1 else 0) + countFrom fuel s

/-- The round of a directive. -/
theorem countFrom_directive {s : Str} (nonempty : s ≠ []) (single : s.head? ≠ some 37)
    (fuel : Nat) :
    countFrom (fuel + 1) (37 :: s) =
      match scanModifiers false false s with
      | (_, []) => 0
      | (eq, spec :: s) => (if eq && isText spec then 1 else 0) + countFrom fuel s := by
  rw [countFrom, if_neg (not_or.mpr ⟨not_not.mpr rfl, nonempty⟩), if_neg single]

/-- `countColStringSpecs`. -/
def countColStringSpecs (f : Str) : Nat :=
  countFrom f.length f

/-! ## Wrapping -/

/-- The loop over the bytes of a line: how many they are, and the place of the last blank. -/
def window (width : Nat) : Str → (done : Nat) → (lastSpace : Option Nat) → Nat × Option Nat
  | [], done, lastSpace => (done, lastSpace)
  | c :: s, done, lastSpace =>
      if c ≠ 10 ∧ done < width then
        window width s (done + 1) (if c = 32 then some done else lastSpace)
      else (done, lastSpace)

/-- How many bytes the next segment has. -/
def segmentLength (text : Str) (width : Nat) : Nat :=
  match window width text 0 none with
  | (done, none) => done
  | (done, some lastSpace) =>
      if done = width ∧ done < text.length ∧ text[done]? ≠ some 10 ∧ text[done]? ≠ some 32 then
        lastSpace
      else done

/-- What is left behind a segment: a line break is taken away, or the blanks are. -/
def skipBreak (rest : Str) : Str :=
  if rest.head? = some 10 then rest.tail else rest.dropWhile (· = 32)

/-- The loop of `wrapForColumn`. -/
def wrapLoop (width : Nat) : Nat → Str → Option (List Str)
  | _, [] => some []
  | 0, _ :: _ => none
  | fuel + 1, c :: s =>
      let done := segmentLength (c :: s) width
      (wrapLoop width fuel (skipBreak ((c :: s).drop done))).map ((c :: s).take done :: ·)

/-- `wrapForColumn`. -/
def wrapForColumn (fuel : Nat) (text : Str) (width : Nat) : Option (List Str) :=
  (wrapLoop width fuel text).map fun segs => if segs.isEmpty then [[]] else segs

/-! ## Modifiers -/

/-- A directive of a format, with the numbers for its `*`s. -/
structure Directive where
  leftJustify : Bool := false
  centreJustify : Bool := false
  colonMode : Bool := false
  colMode : Bool := false
  arrayMode : Bool := false
  plusFlag : Bool := false
  spaceFlag : Bool := false
  zeroPad : Bool := false
  padStr : Option Str := none
  fieldWidth : Option Int32 := none
  precision : Option Int32 := none
  spec : UInt8 := 0

/-- The directive with one more flag. -/
def Directive.flag (d : Directive) (c : UInt8) : Option Directive :=
  if c = 45 then some { d with leftJustify := true }
  else if c = 124 then some { d with centreJustify := true }
  else if c = 61 then some { d with colMode := true }
  else if c = 64 then some { d with arrayMode := true }
  else if c = 43 then some { d with plusFlag := true }
  else if c = 32 then some { d with spaceFlag := true }
  else if c = 58 then some { d with colonMode := true }
  else none

/-- The loop over the flags. -/
def readFlags (d : Directive) : Str → Directive × Str
  | [] => (d, [])
  | c :: s =>
      match d.flag c with
      | some d => readFlags d s
      | none => (d, c :: s)

/-- The text of a pad up to its quote, as it stands in the format. -/
def padText : Str → Option (Str × Str)
  | [] => none
  | c :: s =>
      if c = 92 then
        match s with
        | [] => none
        | escaped :: s => (padText s).map fun (text, rest) => (c :: escaped :: text, rest)
      else if c = 39 then some ([], s)
      else (padText s).map fun (text, rest) => (c :: text, rest)

/-- `parsePadQuote`. -/
def parsePadQuote (d : Directive) (s : Str) : Except Str (Directive × Str) :=
  if s.head? = some 39 then
    match padText s.tail with
    | none => .error (str "sprintf: unterminated pad string")
    | some ([], _) => .error (str "sprintf: empty pad string")
    | some (text, rest) => .ok ({ d with padStr := some text }, rest)
  else .ok (d, s)

/-- The loop over the digits of a number, an `int`. -/
def readDigits (n : Int32) : Str → Int32 × Str
  | [] => (n, [])
  | c :: s =>
      if Decimal.isDigit c then
        readDigits (n * 10 + Int32.ofNat (Decimal.digitValue c)) s
      else (n, c :: s)

/-- A number of an argument is not below zero. -/
def clamped (n : Int32) : Int32 :=
  if n < 0 then 0 else n

section Scan

-- What gives a `*` its number: the arguments that are left, and a text for an error.
variable {σ : Type} (fetch : Str → σ → Except Str (Int32 × σ))

/-- A leading zero of a field width pads with zeros. -/
def Directive.zeroed (d : Directive) : Directive :=
  { d with zeroPad := true, padStr := none }

/-- The field width without a zero before a `*`. -/
def readSize (d : Directive) (s : Str) (args : σ) : Except Str (Directive × Str × σ) :=
  if s.head? = some 42 then do
    let (n, args) ← fetch (str "sprintf: '*' field width argument is not an int") args
    .ok ({ d with fieldWidth := some (clamped n) }, s.tail, args)
  else
    let d := if s.head? = some 48 then d.zeroed else d
    if s.head?.any Decimal.isDigit then
      let (n, s) := readDigits 0 s
      .ok ({ d with fieldWidth := some n }, s, args)
    else .ok (d, s, args)

/-- The field width. -/
def readWidth (d : Directive) (s : Str) (args : σ) : Except Str (Directive × Str × σ) :=
  if s.take 2 = [48, 42] then readSize fetch d.zeroed s.tail args else readSize fetch d s args

/-- The precision. -/
def readPrecision (d : Directive) (s : Str) (args : σ) : Except Str (Directive × Str × σ) :=
  if s.head? = some 46 then
    if s.tail.head? = some 42 then do
      let (n, args) ← fetch (str "sprintf: '.*' precision argument is not an int") args
      .ok ({ d with precision := some (clamped n) }, s.tail.tail, args)
    else if s.tail.head?.any Decimal.isDigit then
      let (n, s) := readDigits 0 s.tail
      .ok ({ d with precision := some n }, s, args)
    else .error (str "sprintf: expected precision digits after '.'")
  else .ok (d, s, args)

/-- An `@` behind the precision, and the conversion; a format that has ended gives a NUL. -/
def readSpec (d : Directive) (s : Str) : Directive × Str :=
  if s.head? = some 64 then ({ d with arrayMode := true, spec := s.tail.headD 0 }, s.tail.tail)
  else ({ d with spec := s.headD 0 }, s.tail)

/-- What stands behind a `%`. -/
def readDirective (s : Str) (args : σ) : Except Str (Directive × Str × σ) := do
  let (d, s) := readFlags {} s
  let (d, s) ← parsePadQuote d s
  let (d, s, args) ← readWidth fetch d s args
  let (d, s) ← parsePadQuote d s
  let (d, s, args) ← readPrecision fetch d s args
  let (d, s) ← parsePadQuote d s
  let (d, s) := readSpec d s
  .ok (d, s, args)

end Scan

/-- The next argument, where it is an int. -/
def takeInt (message : Str) : List Value → Except Str (Int32 × List Value)
  | ⟨.int n, _, _⟩ :: args => .ok (n.toInt32, args)
  | _ => .error message

/-! ## The text of a value -/

/-- `sprintfNumericArg`. -/
def sprintfNumericArg (v : Value) : Option Int64 :=
  match v.data with
  | .int n => some n
  | .void => some 0
  | _ => none

/-- The text that is in front of a number that is not negative. -/
def Directive.sign (d : Directive) : Str :=
  if d.plusFlag then [43] else if d.spaceFlag then [32] else []

/-- `%d`, with the two flags. -/
def signedText (d : Directive) (n : Int64) : Str :=
  if n < 0 then Decimal.ofInt n.toInt else d.sign ++ Decimal.ofInt n.toInt

/-- `%llo`, `%llX` and `%llx`. -/
def unsignedText (spec : UInt8) (n : Int64) : Str :=
  let digits := Nat.toDigits (if spec = 111 then 8 else 16) n.toUInt64.toNat
  (if spec = 88 then digits.map Char.toUpper else digits).map fun c => UInt8.ofNat c.toNat

/-- `%f`, with the two flags and the precision. -/
def floatText (d : Directive) (x : Double) : Str :=
  let sign := if x.signBit then [45] else d.sign
  let places :=
    match d.precision with
    | some p => if 0 < p then min p.toInt.toNat 128 else 6
    | none => 6
  if x.isNaN then sign ++ str "nan"
  else if x.isInf then sign ++ str "inf"
  else
    let scaled := Double.roundHalfEven (x.magnitude * 10 ^ places)
    let fraction := Decimal.ofNat (scaled % 10 ^ places)
    sign ++ Decimal.ofNat (scaled / 10 ^ places) ++ str "." ++
      List.replicate (places - fraction.length) 48 ++ fraction

/-- `valueToDebugString`; nothing where the stack does not suffice. -/
def debugText (w : World) (v : Value) : Option (Except Str Str) :=
  Walk.write (debugVisit w) (stackBound w) (v.data, 0)

/-- `renderSpec`. -/
def renderSpec (w : World) (d : Directive) (v : Value) : Option (Except Str Str) :=
  if d.spec = 115 then
    match v.data with
    | .string s => some (.ok s)
    | _ =>
        if sprintfNumericArg v = some 0 then some (.ok (str "0"))
        else some (.error (str "sprintf: %s argument is not a string"))
  else if d.spec = 100 ∨ d.spec = 105 then
    match sprintfNumericArg v with
    | some n => some (.ok (signedText d n))
    | none => some (.error (str "sprintf: %d argument is not an int"))
  else if d.spec = 111 ∨ d.spec = 120 ∨ d.spec = 88 then
    match sprintfNumericArg v with
    | some n => some (.ok (unsignedText d.spec n))
    | none => some (.error (str "sprintf: %" ++ d.spec :: str " argument is not an int"))
  else if d.spec = 99 then
    match sprintfNumericArg v with
    | some n => some (.ok [n.toUInt64.toUInt8])
    | none => some (.error (str "sprintf: %c argument is not an int"))
  else if d.spec = 79 then debugText w v
  else if d.spec = 102 then
    match v.data with
    | .double x => some (.ok (floatText d x))
    | _ => some (.error (str "sprintf: %f argument is not a float"))
  else
    some (.error (str "sprintf: unsupported format specifier '%" ++ d.spec ::
      str "' (only %s, %d, %i, %f, %c, %o, %x, %X, and %O are implemented)"))

/-! ## The layout of a field -/

/-- `static_cast<int>(s.size())`. -/
def intSize (s : Str) : Int32 :=
  Int32.ofNat s.length

/-- `static_cast<size_t>(n)`. -/
def sizeCast (n : Int32) : Nat :=
  n.toInt64.toUInt64.toNat

/-- The bytes of a pad, with the backslashes of its escapes taken away. -/
def padUnits : Str → Str
  | [] => []
  | [c] => [c]
  | c :: e :: s => if c = 92 then e :: padUnits s else c :: padUnits (e :: s)

/-- `fillPad`. -/
def fillPad (d : Directive) (n : Int32) : Str :=
  match d.padStr with
  | some padStr =>
      let units := padUnits padStr
      (List.range (sizeCast n)).map fun i => units.getD (i % units.length) 0
  | none =>
      List.replicate (sizeCast n)
        (if d.zeroPad && !d.leftJustify && !d.centreJustify then 48 else 32)

/-- What `:` and the precision leave of a text, and the width of its field. -/
def truncated (d : Directive) (piece : Str) : Str × Int32 :=
  let useWidth := d.fieldWidth.isSome && d.spec ≠ 99
  let width := d.fieldWidth.getD 0
  let piece :=
    if d.colonMode ∧ isText d.spec ∧ useWidth ∧ width < intSize piece then
      piece.take (sizeCast width)
    else piece
  match d.precision with
  | some precision =>
      if isText d.spec then
        (if precision < intSize piece then piece.take (sizeCast precision) else piece,
          if useWidth ∧ width < precision then precision else width)
      else (piece, width)
  | none => (piece, width)

/-- `applyLayout`. -/
def applyLayout (d : Directive) (piece : Str) : Str :=
  let (piece, width) := truncated d piece
  if d.fieldWidth.isSome ∧ d.spec ≠ 99 ∧ intSize piece < width then
    let padLen := width - intSize piece
    if d.centreJustify then
      let lead := padLen / 2 + padLen % 2
      fillPad d lead ++ piece ++ fillPad d (padLen - lead)
    else if d.leftJustify then piece ++ fillPad d padLen
    else fillPad d padLen ++ piece
  else piece

/-- `justifyColLine`. -/
def justifyColLine (d : Directive) (fieldWidth : Int32) (seg : Str) (trailing : Bool) : Str :=
  let extra := fieldWidth - intSize seg
  if extra ≤ 0 then seg
  else if d.centreJustify then
    let lead := extra / 2 + extra % 2
    List.replicate (sizeCast lead) 32 ++ seg ++
      if trailing then List.replicate (sizeCast (extra - lead)) 32 else []
  else if d.leftJustify then
    seg ++ if trailing then List.replicate (sizeCast extra) 32 else []
  else List.replicate (sizeCast extra) 32 ++ seg

/-! ## Chunks -/

/-- Something that is appended to the result. -/
inductive Chunk
  | text (s : Str)
  /-- The lines of a column. -/
  | column (lines : List Str)
deriving DecidableEq

def Chunk.isColumn : Chunk → Bool
  | text _ => false
  | column _ => true

/-- How far the last line of the result goes. -/
def startCol (result : Str) : Nat :=
  (result.reverse.takeWhile (· ≠ 10)).length

/-- The result with a chunk behind it. -/
def Chunk.append (result : Str) : Chunk → Str
  | text s => result ++ s
  | column [] => result
  | column (line :: lines) =>
      result ++ line ++
        lines.flatMap fun line => 10 :: List.replicate (startCol result) 32 ++ line

/-- `%=`: a directive that is laid out in a column. -/
def Directive.isColumn (d : Directive) : Bool :=
  d.colMode && isText d.spec

/-- The width at which a column is wrapped. -/
def wrapWidth (d : Directive) (fieldWidth : Int32) : Int32 :=
  match d.precision with
  | none => fieldWidth
  | some precision =>
      let width := if precision < fieldWidth then precision else fieldWidth
      if width ≤ 0 then fieldWidth else width

/-- The lines of a column, in front of the rest of the format. -/
def columnLines (d : Directive) (fieldWidth : Int32) (piece rest : Str) : Option (List Str) :=
  let trailingText := !rest.isEmpty && rest.head? ≠ some 10
  (wrapForColumn piece.length piece (wrapWidth d fieldWidth).toInt.toNat).map fun segs =>
    segs.zipIdx.map fun (seg, i) => justifyColLine d fieldWidth seg (i = 0 && trailingText)

/-- The items of an array, one behind the other. -/
def renderItems (w : World) (d : Directive) : List Value → Option (Except Str Str)
  | [] => some (.ok [])
  | v :: vs =>
      match renderSpec w d v with
      | none => none
      | some (.error message) => some (.error message)
      | some (.ok piece) => (renderItems w d vs).map (Except.map (applyLayout d piece ++ ·))

/-- What a directive makes of its argument, in front of the rest of the format. -/
def layOut (w : World) (colStringSpecCount : Nat) (d : Directive) (v : Value) (rest : Str) :
    Option (Except Str Chunk) :=
  if d.arrayMode ∧ (d.colMode ∨ d.spec = 35) then
    some (.error (str "sprintf: '@' combined with '=' or '#' is not implemented"))
  else if d.arrayMode then
    match v.data with
    | .array ref => (renderItems w d (arrayItems w ref)).map (Except.map Chunk.text)
    | _ => some (.error (str "sprintf: '@' expected an array"))
  else
    match renderSpec w d v with
    | none => none
    | some (.error message) => some (.error message)
    | some (.ok piece) =>
        if d.isColumn then
          if 1 < colStringSpecCount then
            some (.error (str ("sprintf: multi-column '%=' layout is not implemented " ++
              "(only a single '%=' word-wrap column per format string)")))
          else if 0 < d.fieldWidth.getD 0 then
            (columnLines d (d.fieldWidth.getD 0) piece rest).map fun lines =>
              .ok (.column lines)
          else
            some (.error (str "sprintf: '%=' column mode requires a positive field width"))
        else some (.ok (.text (applyLayout d piece)))

/-! ## The main scan -/

/-- A chunk in front of those that follow. -/
def before (chunk : Chunk) (behind : Option (Except Str (List Chunk))) :
    Option (Except Str (List Chunk)) :=
  behind.map (Except.map (chunk :: ·))

/-- The loop over the format. -/
def formatLoop (w : World) (colStringSpecCount : Nat) :
    Nat → Str → List Value → Option (Except Str (List Chunk))
  | 0, _, _ => none
  | _ + 1, [], _ => some (.ok [])
  | fuel + 1, c :: s, args =>
      if c ≠ 37 then before (.text [c]) (formatLoop w colStringSpecCount fuel s args)
      else if s = [] then some (.error (str "sprintf: trailing '%' with no specifier"))
      else if s.head? = some 37 then
        before (.text [37]) (formatLoop w colStringSpecCount fuel s.tail args)
      else
        match readDirective takeInt s args with
        | .error message => some (.error message)
        | .ok (_, _, []) => some (.error (str "sprintf: too few arguments for format string"))
        | .ok (d, rest, v :: args) =>
            match layOut w colStringSpecCount d v rest with
            | none => none
            | some (.error message) => some (.error message)
            | some (.ok chunk) => before chunk (formatLoop w colStringSpecCount fuel rest args)

/-- The chunks that a format lays out. -/
def chunks (fuel : Nat) (w : World) (fmt : Str) (args : List Value) :
    Option (Except Str (List Chunk)) :=
  formatLoop w (countColStringSpecs fmt) fuel fmt args

/-- `sprintf`. -/
def sprintf (fuel : Nat) (w : World) (args : List Value) : Option (Except Str Str) :=
  match args with
  | ⟨.string fmt, _, _⟩ :: args =>
      (chunks fuel w fmt args).map (Except.map fun laid => laid.foldl Chunk.append [])
  | _ => some (.error (str "sprintf: expected a string format argument"))

end Kjdmud.Efun.Sprintf
