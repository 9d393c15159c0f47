import Kjdmud.Vm.Operators

/-!
# The `sscanf` scanner

`runSscanf` of `src/vm/VM.cpp` with the functions it calls.  The scanner walks
the input and the format with two positions; here they are the suffixes of the
two strings from those positions on.  PCRE2 and the C library's `strtod` are
outside the repository and enter as a parameter.
-/

namespace Kjdmud.Vm

/-- The library functions `runSscanf` calls.  Both see the whole input and a
position in it. -/
structure ScanLibrary where
  /-- `sscanfRegexMatch`: pattern, subject, offset, anchored; the match as the
  pair of its ends, or the message of the error PCRE2 reports. -/
  regexMatch : Str → Str → Nat → Bool → Except Str (Option (Nat × Nat))
  /-- `std::strtod`: the value and the number of bytes it consumed. -/
  strtod : Str → Option (Double × Nat)

/-- `SscanfOutcome`. -/
structure SscanfOutcome where
  matchCount : Nat
  assigned : List Value
deriving DecidableEq

/-! ## Bytes -/

def percent : UInt8 := 0x25
def star : UInt8 := 0x2a
def leftParen : UInt8 := 0x28
def rightParen : UInt8 := 0x29
def escape : UInt8 := 0x5c

/-- The byte of an ASCII character. -/
def byte (c : Char) : UInt8 :=
  UInt8.ofNat c.toNat

/-- `std::isspace` in the C locale. -/
def isSpace (c : UInt8) : Bool :=
  c == 32 || (9 ≤ c && c ≤ 13)

/-- The value of a digit in a base of at most sixteen. -/
def digitIn (base : Nat) (c : UInt8) : Option Nat :=
  let d :=
    if Decimal.isDigit c then c.toNat - 48
    else if 97 ≤ c && c ≤ 102 then c.toNat - 87
    else if 65 ≤ c && c ≤ 70 then c.toNat - 55
    else 16
  if d < base then some d else none

/-- `std::isxdigit` in the C locale. -/
def isHexDigit (c : UInt8) : Bool :=
  (digitIn 16 c).isSome

/-! ## `std::strtoll` -/

/-- The digits of a base at the start of a string. -/
def takeDigits (base : Nat) : Str → List Nat
  | [] => []
  | c :: s =>
      match digitIn base c with
      | some d => d :: takeDigits base s
      | none => []

/-- `std::strtoll`: the value, clamped to the range of `long long`, and the
number of bytes consumed; `none` when there is no number. -/
def strtoll (base : Nat) (s : Str) : Option (Int64 × Nat) :=
  let spaces := s.takeWhile isSpace
  let unspaced := s.drop spaces.length
  let signed := unspaced.head? == some (byte '-') || unspaced.head? == some (byte '+')
  let unsigned := if signed then unspaced.drop 1 else unspaced
  let hexPrefixed :=
    base = 16 ∧ unsigned[0]? = some (byte '0') ∧
      (unsigned[1]? = some (byte 'x') ∨ unsigned[1]? = some (byte 'X')) ∧
      ((unsigned[2]?).map isHexDigit).getD false
  let skipped := if hexPrefixed then 2 else 0
  let digits := takeDigits base (unsigned.drop skipped)
  if digits.isEmpty then none
  else
    let magnitude : Nat := digits.foldl (fun value d => value * base + d) 0
    let exact : Int :=
      if unspaced.head? == some (byte '-') then -(magnitude : Int) else magnitude
    some (Int64.ofInt (max (-2 ^ 63) (min (2 ^ 63 - 1) exact)),
      spaces.length + (if signed then 1 else 0) + skipped + digits.length)

/-! ## Regular expressions in the format -/

/-- The loop of `parseSscanfRegex` from a cursor on: the pattern before the
parenthesis that closes `depth` and the format after it. -/
def parseSscanfRegexFrom : Nat → Str → Except LpcError (Str × Str)
  | _, [] => runtimeError (str "sscanf: bad regexp format")
  | depth, [c] =>
      if c = rightParen ∧ depth = 1 then .ok ([], [])
      else runtimeError (str "sscanf: bad regexp format")
  | depth, c :: d :: format => do
      if c = escape then
        let (pattern, rest) ← parseSscanfRegexFrom depth format
        pure (c :: d :: pattern, rest)
      else if c = leftParen then
        let (pattern, rest) ← parseSscanfRegexFrom (depth + 1) (d :: format)
        pure (c :: pattern, rest)
      else if c = rightParen then
        if depth = 1 then pure ([], d :: format)
        else
          let (pattern, rest) ← parseSscanfRegexFrom (depth - 1) (d :: format)
          pure (c :: pattern, rest)
      else
        let (pattern, rest) ← parseSscanfRegexFrom depth (d :: format)
        pure (c :: pattern, rest)

/-- `parseSscanfRegex` after the opening parenthesis. -/
def parseSscanfRegex (format : Str) : Except LpcError (Str × Str) :=
  parseSscanfRegexFrom 1 format

/-- `sscanfRegexMatch`. -/
def sscanfRegexMatch (lib : ScanLibrary) (pattern subject : Str) (offset : Nat)
    (anchored : Bool) : Except LpcError (Option (Nat × Nat)) :=
  match lib.regexMatch pattern subject offset anchored with
  | .ok result => .ok result
  | .error message => runtimeError message

/-! ## Two adjacent specifiers -/

/-- The number of leading bytes up to the first for which `stop` holds of the
suffix that starts there. -/
def scanUntil (stop : Str → Bool) : Str → Nat
  | [] => 0
  | c :: s => if stop (c :: s) then 0 else scanUntil stop s + 1

/-- The scan for a `0x` numeral.  The source advances by two from a zero that
starts none, and clamps the position to the end of the input. -/
def scanHexFrom : Str → Nat
  | [] => 0
  | [_] => 1
  | c :: d :: s =>
      if c = byte '0' then
        if (d = byte 'x' ∨ d = byte 'X') ∧ ((s.head?).map isHexDigit).getD false then 0
        else scanHexFrom s + 2
      else scanHexFrom (d :: s) + 1

/-- `adjacentSscanfBoundary`, as the length of the text before the boundary.
`format` starts at the second `%`. -/
def adjacentSscanfBoundary (lib : ScanLibrary) (format whole input : Str) :
    Except LpcError Nat := do
  let afterPercent := format.drop 1
  let spec := if afterPercent.head? = some star then afterPercent.drop 1 else afterPercent
  match spec.head? with
  | none =>
      .error (.notImplemented
        (str "sscanf: \"%s\" adjacent to unsupported format specifier '%" ++
          [0] ++ str "'"))
  | some c =>
      if c = byte 'x' ∨ c = byte 'X' then pure (scanHexFrom input)
      else if c = byte 'd' ∨ c = byte 'i' then
        pure (scanUntil (fun s => (s.head?.map Decimal.isDigit).getD false) input)
      else if c = byte 'o' then
        pure (scanUntil (fun s => (s.head?.map (fun b => 48 ≤ b && b ≤ 55)).getD false)
          input)
      else if c = byte 'f' then
        pure (scanUntil
          (fun s => (s.head?.map Decimal.isDigit).getD false ||
            (s.head? == some (byte '.') && ((s[1]?).map Decimal.isDigit).getD false))
          input)
      else if c = percent then
        pure (scanUntil (fun s => s.head? == some percent) input)
      else if c = byte 's' then
        runtimeError (str "sscanf: illegal to have two adjacent %s specifiers")
      else if c = leftParen then do
        let (pattern, _) ← parseSscanfRegex (spec.drop 1)
        let offset := whole.length - input.length
        match ← sscanfRegexMatch lib pattern whole offset false with
        | some (first, _) => pure (first - offset)
        | none => pure input.length
      else
        .error (.notImplemented
          (str "sscanf: \"%s\" adjacent to unsupported format specifier '%" ++
            [c] ++ str "'"))

/-! ## The scanner -/

/-- `std::string::find`: the distance to the first occurrence. -/
def findDelimiter (delim : Str) : Str → Option Nat
  | [] => if delim.isEmpty then some 0 else none
  | c :: s =>
      if delim.isPrefixOf (c :: s) then some 0
      else (findDelimiter delim s).map (· + 1)

/-- One match of a specifier: the outcome with the match counted and, unless
the specifier skips it, the value assigned. -/
def SscanfOutcome.record (out : SscanfOutcome) (maxAssigns : Nat) (skip : Bool)
    (v : Value) : Except LpcError SscanfOutcome :=
  if skip then .ok { out with matchCount := out.matchCount + 1 }
  else if maxAssigns ≤ out.assigned.length then
    runtimeError (str "sscanf: too few output arguments for format string")
  else .ok ⟨out.matchCount + 1, out.assigned ++ [v]⟩

/-- What one round of the scanner leaves: the final outcome, or an outcome with
the rest of the input and of the format. -/
inductive ScanRound
  | done (out : SscanfOutcome)
  | more (out : SscanfOutcome) (input format : Str)

/-- A round that matched `taken` bytes of the input as `v`. -/
def ScanRound.matched (out : SscanfOutcome) (maxAssigns : Nat) (skip : Bool)
    (v : Value) (input : Str) (taken : Nat) (format : Str) :
    Except LpcError ScanRound := do
  let out ← out.record maxAssigns skip v
  pure (.more out (input.drop taken) format)

/-- The `%s` case of `runSscanf`: `format` is what follows the specifier. -/
def scanString (lib : ScanLibrary) (whole : Str) (maxAssigns : Nat) (skip : Bool)
    (out : SscanfOutcome) (input format : Str) : Except LpcError ScanRound := do
  match format with
  | [] =>
      let out ← out.record maxAssigns skip (Value.string input)
      pure (.done out)
  | c :: _ =>
      if c = percent then
        let boundary ← adjacentSscanfBoundary lib format whole input
        ScanRound.matched out maxAssigns skip (Value.string (input.take boundary))
          input boundary format
      else
        let delim := format.takeWhile (· != percent)
        match findDelimiter delim input with
        | none => pure (.done out)
        | some found =>
            ScanRound.matched out maxAssigns skip (Value.string (input.take found))
              input (found + delim.length) (format.drop delim.length)

/-- The specifier `spec` of `runSscanf`, with the format after it. -/
def scanSpecifier (lib : ScanLibrary) (whole : Str) (maxAssigns : Nat)
    (skip : Bool) (spec : UInt8) (out : SscanfOutcome) (input format : Str) :
    Except LpcError ScanRound := do
  if spec = byte 'd' ∨ spec = byte 'i' ∨ spec = byte 'x' ∨ spec = byte 'X' ∨
      spec = byte 'o' then
    let base := if spec = byte 'x' ∨ spec = byte 'X' then 16
      else if spec = byte 'o' then 8 else 10
    match strtoll base input with
    | none => pure (.done out)
    | some (value, taken) =>
        ScanRound.matched out maxAssigns skip (Value.int value) input taken format
  else if spec = byte 'f' then
    match lib.strtod input with
    | none => pure (.done out)
    | some (value, taken) =>
        ScanRound.matched out maxAssigns skip (Value.double value) input taken format
  else if spec = leftParen then
    let (pattern, rest) ← parseSscanfRegex format
    let offset := whole.length - input.length
    match ← sscanfRegexMatch lib pattern whole offset true with
    | none => pure (.done out)
    | some (first, past) =>
        ScanRound.matched out maxAssigns skip
          (Value.string ((whole.take past).drop first)) input (past - offset) rest
  else if spec = byte 's' then
    scanString lib whole maxAssigns skip out input format
  else
    .error (.notImplemented (str "sscanf: format specifier '%" ++ [spec] ++
      str ("' (only %s, %d, %i, %x, %X, %o, %f, %%, %(regexp) are supported)")))

/-- The literal text in front of the next `%`: the rest of the input and of the
format, or `none` on a mismatch. -/
def matchLiteral : Str → Str → Option (Str × Str)
  | input, [] => some (input, [])
  | input, c :: format =>
      if c = percent then some (input, c :: format)
      else
        match input with
        | [] => none
        | d :: rest => if d = c then matchLiteral rest format else none

/-- One round of the loop of `runSscanf`. -/
def scanRound (lib : ScanLibrary) (whole : Str) (maxAssigns : Nat)
    (out : SscanfOutcome) (input format : Str) : Except LpcError ScanRound := do
  match matchLiteral input format with
  | none => pure (.done out)
  | some (input, []) =>
      -- Text left over after the format goes to an output that is still free.
      if !input.isEmpty && out.assigned.length < maxAssigns then
        pure (.done ⟨out.matchCount + 1, out.assigned ++ [Value.string input]⟩)
      else pure (.done out)
  | some (input, _ :: format) =>
      match format with
      | [] => runtimeError (str "sscanf: format string cannot end in '%'")
      | c :: rest =>
          if c = percent then
            if input.head? = some percent then
              pure (.more { out with matchCount := out.matchCount + 1 }
                (input.drop 1) rest)
            else pure (.done out)
          else if c = star then
            match rest with
            | [] => runtimeError (str "sscanf: format string cannot end in '%'")
            | spec :: rest =>
                scanSpecifier lib whole maxAssigns true spec out input rest
          else scanSpecifier lib whole maxAssigns false c out input rest

/-- The loop of `runSscanf`.  Every round that continues consumes at least two
bytes of the format, so the format's length bounds the rounds. -/
def scanLoop (lib : ScanLibrary) (whole : Str) (maxAssigns : Nat) :
    Nat → SscanfOutcome → Str → Str → Except LpcError SscanfOutcome
  | 0, out, _, _ => .ok out
  | rounds + 1, out, input, format => do
      match ← scanRound lib whole maxAssigns out input format with
      | .done out => pure out
      | .more out input format => scanLoop lib whole maxAssigns rounds out input format

/-- `runSscanf`. -/
def runSscanf (lib : ScanLibrary) (input format : Str) (maxAssigns : Nat) :
    Except LpcError SscanfOutcome :=
  scanLoop lib input maxAssigns (format.length + 1) ⟨0, []⟩ input format

end Kjdmud.Vm
