import Kjdmud.Core.Conversions
import Kjdmud.Efun.Writers

/-!
# The JSON reader

`json::parseTopLevel` of `src/efun/EfunTable.cpp` and what it calls.  The cursor `(s, pos)` is the
suffix of the text from `pos` on, and a read behind the end of it is a fault of its own.  The
reader builds arrays and mappings that nothing else refers to, so what it returns is the tree of
its contents.  It runs on a fuel budget; running out is `none`.
-/

namespace Kjdmud.Efun.Json

open SaveVariable (quote backslash openBrace closeBrace openBracket closeBracket comma colon minus
  point)

/-- What the reader builds; a mapping has width 1 and string keys. -/
inductive Contents
  | int (i : Int64)
  | float (d : Double)
  | string (s : Str)
  | array (items : List Contents)
  | object (entries : List (Str × Contents))

/-- What the reader can raise: an `LpcRuntimeError`, or a read outside the text. -/
inductive Fault
  | lpc (message : Str)
  | outside

/-- A reader within a fuel budget. -/
abbrev Outcome :=
  ExceptT Fault Option

/-- `throw LpcRuntimeError(...)`. -/
def lpcError {α : Type} (message : String) : Outcome α :=
  throw (.lpc (str message))

/-- `s[pos + i]`. -/
def read (s : Str) (i : Nat) : Outcome UInt8 :=
  match s[i]? with
  | some c => pure c
  | none => throw .outside

/-- `pos < s.size() && s[pos] == c`. -/
def startsWith (c : UInt8) (s : Str) : Outcome Bool :=
  if 0 < s.length then do
    let first ← read s 0
    pure (first == c)
  else pure false

/-- White space. -/
def isWhitespace (c : UInt8) : Bool :=
  c == 0x20 || c == 0x09 || c == 0x0a || c == 0x0d

/-- `skipWhitespace`. -/
def skipWhitespace (s : Str) : Str :=
  s.dropWhile isWhitespace

/-! ## Strings -/

/-- `appendUtf8CodePoint`. -/
def utf8 (cp : Nat) : Str :=
  if cp ≤ 0x7F then [UInt8.ofNat cp]
  else if cp ≤ 0x7FF then
    [UInt8.ofNat (0xC0 ||| (cp >>> 6)), UInt8.ofNat (0x80 ||| (cp &&& 0x3F))]
  else if cp ≤ 0xFFFF then
    [UInt8.ofNat (0xE0 ||| (cp >>> 12)), UInt8.ofNat (0x80 ||| ((cp >>> 6) &&& 0x3F)),
      UInt8.ofNat (0x80 ||| (cp &&& 0x3F))]
  else
    [UInt8.ofNat (0xF0 ||| (cp >>> 18)), UInt8.ofNat (0x80 ||| ((cp >>> 12) &&& 0x3F)),
      UInt8.ofNat (0x80 ||| ((cp >>> 6) &&& 0x3F)), UInt8.ofNat (0x80 ||| (cp &&& 0x3F))]

/-- What a letter behind a backslash stands for. -/
def simpleEscape (e : UInt8) : Option UInt8 :=
  if e = quote then some quote
  else if e = backslash then some backslash
  else if e = 0x2f then some 0x2f
  else if e = 0x62 then some 0x08
  else if e = 0x66 then some 0x0c
  else if e = 0x6e then some 0x0a
  else if e = 0x72 then some 0x0d
  else if e = 0x74 then some 0x09
  else none

/-- `static_cast<unsigned int>(std::stoul(digits, nullptr, 16))`. -/
def codeUnit (digits : Str) : Option Nat :=
  match Conversion.stoulHex digits with
  | .ok n => some (n % 2 ^ 32)
  | .error _ => none

def IsHigh (cp : Nat) : Prop :=
  0xD800 ≤ cp ∧ cp ≤ 0xDBFF

def IsLow (cp : Nat) : Prop :=
  0xDC00 ≤ cp ∧ cp ≤ 0xDFFF

instance (cp : Nat) : Decidable (IsHigh cp) :=
  inferInstanceAs (Decidable (_ ∧ _))

instance (cp : Nat) : Decidable (IsLow cp) :=
  inferInstanceAs (Decidable (_ ∧ _))

/-- The code point of a surrogate pair. -/
def combine (high low : Nat) : Nat :=
  0x10000 + ((high - 0xD800) <<< 10) + (low - 0xDC00)

/-- A high surrogate with the low one behind it, when there is one. -/
def withLowHalf (cp : Nat) (s : Str) : Outcome (Nat × Str) :=
  if IsHigh cp ∧ 6 ≤ s.length then do
    if (← read s 0) = backslash then
      if (← read s 1) = 0x75 then
        let low := (codeUnit ((s.drop 2).take 4)).getD 0
        if IsLow low then pure (combine cp low, s.drop 6)
        else pure (cp, s)
      else pure (cp, s)
    else pure (cp, s)
  else pure (cp, s)

/-- The case `'u'`; the text begins behind it. -/
def unicodeEscape (s : Str) : Outcome (Str × Str) :=
  if s.length < 4 then lpcError "json_parse(): truncated \\u escape."
  else
    match codeUnit (s.take 4) with
    | none => lpcError "json_parse(): invalid \\u escape."
    | some cp => do
        let (cp, s) ← withLowHalf cp (s.drop 4)
        pure (utf8 cp, s)

/-- An escape sequence behind its backslash. -/
def escape (s : Str) : Outcome (Str × Str) :=
  if s.length = 0 then lpcError "json_parse(): unterminated escape sequence."
  else do
    let e ← read s 0
    match simpleEscape e with
    | some c => pure ([c], s.drop 1)
    | none =>
        if e = 0x75 then unicodeEscape (s.drop 1)
        else lpcError "json_parse(): invalid escape character."

/-- The loop of `parseStringLiteral`. -/
def stringLoop : Nat → Str → Str → Outcome (Str × Str)
  | 0, _, _ => none
  | fuel + 1, out, s =>
      if s.length = 0 then lpcError "json_parse(): unterminated string."
      else do
        let c ← read s 0
        if c = quote then pure (out, s.drop 1)
        else if c = backslash then
          let (bytes, s) ← escape (s.drop 1)
          stringLoop fuel (out ++ bytes) s
        else stringLoop fuel (out ++ [c]) (s.drop 1)

/-- `parseStringLiteral`, at a quote. -/
def parseStringLiteral (s : Str) : Outcome (Str × Str) :=
  stringLoop s.length [] (s.drop 1)

/-! ## Numbers -/

/-- A byte is stepped over. -/
def skipByte (p : UInt8 → Bool) (s : Str) : Str :=
  match s with
  | c :: rest => if p c then rest else s
  | [] => []

/-- What stands behind a number, and whether it has a point or an exponent. -/
def numberEnd (s : Str) : Bool × Str :=
  let s := (skipByte (· == minus) s).dropWhile Decimal.isDigit
  let hasPoint := s.head? == some point
  let s := if hasPoint then (s.drop 1).dropWhile Decimal.isDigit else s
  let hasExponent := s.head? == some 0x65 || s.head? == some 0x45
  let s :=
    if hasExponent then
      (skipByte (fun c => c == 0x2b || c == minus) (s.drop 1)).dropWhile Decimal.isDigit
    else s
  (hasPoint || hasExponent, s)

/-- The value of the text of a number. -/
def numberValue (token : Str) (isFloat : Bool) : Option Contents :=
  if isFloat then
    match Conversion.stod token with
    | .ok d => some (.float d)
    | .error _ => none
  else
    match Conversion.stoll token with
    | .ok i => some (.int i)
    | .error _ => none

/-- The number at the front of a text. -/
def parseNumber (s : Str) : Outcome (Contents × Str) :=
  let (isFloat, rest) := numberEnd s
  match numberValue (s.take (s.length - rest.length)) isFloat with
  | some v => pure (v, rest)
  | none => lpcError "json_parse(): malformed number literal."

/-! ## Values -/

/-- The loop over the entries of an object. -/
def objectLoop (parseValue : Str → Outcome (Contents × Str)) :
    Nat → List (Str × Contents) → Str → Outcome (Contents × Str)
  | 0, _, _ => none
  | fuel + 1, entries, s => do
      let s := skipWhitespace s
      if (← startsWith quote s) = false then
        lpcError "json_parse(): expected a string key."
      else
        let (key, s) ← parseStringLiteral s
        let s := skipWhitespace s
        if (← startsWith colon s) = false then
          lpcError "json_parse(): expected ':' after object key."
        else
          let (val, s) ← parseValue (s.drop 1)
          let entries := entries ++ [(key, val)]
          let s := skipWhitespace s
          if (← startsWith comma s) = true then objectLoop parseValue fuel entries (s.drop 1)
          else if (← startsWith closeBrace s) = true then pure (.object entries, s.drop 1)
          else lpcError "json_parse(): expected ',' or '\x7d' in object."

/-- The loop over the items of an array. -/
def arrayLoop (parseValue : Str → Outcome (Contents × Str)) :
    Nat → List Contents → Str → Outcome (Contents × Str)
  | 0, _, _ => none
  | fuel + 1, items, s => do
      let (val, s) ← parseValue s
      let items := items ++ [val]
      let s := skipWhitespace s
      if (← startsWith comma s) = true then arrayLoop parseValue fuel items (s.drop 1)
      else if (← startsWith closeBracket s) = true then pure (.array items, s.drop 1)
      else lpcError "json_parse(): expected ',' or ']' in array."

/-- An object behind its brace. -/
def parseObject (parseValue : Str → Outcome (Contents × Str)) (s : Str) : Outcome (Contents × Str) := do
  let s := skipWhitespace s
  if (← startsWith closeBrace s) = true then pure (.object [], s.drop 1)
  else objectLoop parseValue (s.length + 1) [] s

/-- An array behind its bracket. -/
def parseArray (parseValue : Str → Outcome (Contents × Str)) (s : Str) : Outcome (Contents × Str) := do
  let s := skipWhitespace s
  if (← startsWith closeBracket s) = true then pure (.array [], s.drop 1)
  else arrayLoop parseValue (s.length + 1) [] s

/-- `parseValueAt`; the fuel bounds its recursion. -/
def parseValueAt : Nat → Str → Outcome (Contents × Str)
  | 0, _ => none
  | fuel + 1, s => do
      let s := skipWhitespace s
      if s.length = 0 then lpcError "json_parse(): unexpected end of input."
      else
        let c ← read s 0
        if c = quote then
          let (text, s) ← parseStringLiteral s
          pure (.string text, s)
        else if c = openBrace then parseObject (parseValueAt fuel) (s.drop 1)
        else if c = openBracket then parseArray (parseValueAt fuel) (s.drop 1)
        else if s.take 4 = str "true" then pure (.int 1, s.drop 4)
        else if s.take 5 = str "false" then pure (.int 0, s.drop 5)
        else if s.take 4 = str "null" then pure (.int 0, s.drop 4)
        else if c = minus ∨ Decimal.isDigit c = true then parseNumber s
        else lpcError "json_parse(): unexpected character in JSON input."

/-- `parseTopLevel`. -/
def parseTopLevel (s : Str) : Outcome Contents := do
  let (v, rest) ← parseValueAt (s.length + 1) s
  if (skipWhitespace rest).length ≠ 0 then
    lpcError "json_parse(): trailing data after JSON value."
  else pure v

end Kjdmud.Efun.Json
