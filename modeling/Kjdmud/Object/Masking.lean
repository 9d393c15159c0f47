import Kjdmud.Compiler.Lexer
import Kjdmud.Lib.Markers

/-!
# Masking for the preprocessor

`maskForSystemCpp` and `unmaskAfterSystemCpp` of `src/object/ObjectManager.cpp`: `#'` and `..`
are replaced by markers before the system preprocessor runs, and put back behind it.  The first
masker looks at one character, the second one keeps a mode, and reads what the first one left.
-/

namespace Kjdmud.Object.Masking

open Kjdmud.Compiler (LpcDialect startsIdent isIdentChar)
open Kjdmud.Lib.Markers

/-! ## The maskers -/

/-- `kHashQuoteMarker`. -/
def hashQuoteMarker : Str := str "__KJDMUD_HASHQUOTE_MARKER__"

/-- `kDotDotMarker`. -/
def dotDotMarker : Str := str "__KJDMUD_DOTDOT__"

/-- The loop of `maskHashQuote`, behind the character `before`. -/
def maskHashQuoteFrom : (before : Option UInt8) → Str → Str
  | _, [] => []
  | before, c :: rest =>
      if c = 35 ∧ rest.head? = some 39 ∧ before ≠ some 39 then
        match rest with
        | [] => []
        | quote :: rest => hashQuoteMarker ++ maskHashQuoteFrom (some quote) rest
      else c :: maskHashQuoteFrom (some c) rest

/-- `maskHashQuote`. -/
def maskHashQuote (source : Str) : Str :=
  maskHashQuoteFrom none source

/-- `Mode`. -/
inductive Mode
  | code | dQuote | sQuote | lineComment | blockComment
deriving DecidableEq

/-- One round of the loop of `maskDotDot` at the character `c`: the number of characters it
copies behind `c` and the mode it leaves, and `none` where it masks a range operator. -/
def round (mode : Mode) (c : UInt8) (rest : Str) : Option (Nat × Mode) :=
  match mode with
  | .lineComment => some (0, if c = 10 then .code else .lineComment)
  | .blockComment =>
      if c = 42 ∧ rest.head? = some 47 then some (1, .code) else some (0, .blockComment)
  | .dQuote =>
      if c = 92 ∧ rest ≠ [] then some (1, .dQuote)
      else some (0, if c = 34 then .code else .dQuote)
  | .sQuote =>
      if c = 92 ∧ rest ≠ [] then some (1, .sQuote)
      else some (0, if c = 39 then .code else .sQuote)
  | .code =>
      if c = 47 ∧ rest.head? = some 47 then some (1, .lineComment)
      else if c = 47 ∧ rest.head? = some 42 then some (1, .blockComment)
      else if c = 34 then some (0, .dQuote)
      else if c = 39 then some (0, .sQuote)
      else if c = 46 ∧ rest.head? = some 46 then
        if rest.tail.head? = some 46 then some (2, .code) else none
      else some (0, .code)

/-- What stands for a range operator. -/
def maskedRange : Str :=
  32 :: dotDotMarker ++ [32]

/-- The loop of `maskDotDot`, with the number of characters that the last round still copies. -/
def maskDotDotFrom : Mode → (copied : Nat) → Str → Str
  | _, _, [] => []
  | mode, copied + 1, c :: rest => c :: maskDotDotFrom mode copied rest
  | mode, 0, c :: rest =>
      match round mode c rest with
      | some (copied, mode) => c :: maskDotDotFrom mode copied rest
      | none =>
          match rest with
          | [] => maskedRange
          | _ :: rest => maskedRange ++ maskDotDotFrom mode 0 rest

/-- `maskDotDot`. -/
def maskDotDot (source : Str) : Str :=
  maskDotDotFrom .code 0 source

/-- `maskForSystemCpp`. -/
def maskForSystemCpp (source : Str) : Str :=
  maskDotDot (maskHashQuote source)

/-- `unmaskHashQuote`. -/
def unmaskHashQuote (text : Str) : Str :=
  restore hashQuoteMarker [35, 39] 0 text

/-- `unmaskDotDot`. -/
def unmaskDotDot (text : Str) : Str :=
  restore dotDotMarker [46, 46] 0 text

/-- `unmaskAfterSystemCpp`. -/
def unmaskAfterSystemCpp (text : Str) : Str :=
  unmaskDotDot (unmaskHashQuote text)

/-! ## The source -/

/-- What a character of a source is part of, as the lexer reads it. -/
inductive Context
  | code | string | constant | lineComment | blockComment
  | textBlock (terminator : Str) (atLineStart : Bool)
deriving DecidableEq

/-- The test of `lexQuote` for a quoted symbol behind a `'`. -/
def quotesSymbol (dialect : LpcDialect) (rest : Str) : Bool :=
  let name := rest.takeWhile isIdentChar
  let singleCharThenQuote :=
    name.length == 1 && (rest.dropWhile isIdentChar).head? == some 39
  dialect = .ldMud && startsIdent (rest.headD 0) && !singleCharThenQuote

/-- The terminator that `lexHeredoc` reads behind a `@`, where a text block follows. -/
def textBlockTerminator (rest : Str) : Option Str :=
  let terminator := rest.takeWhile (· ≠ 10)
  if rest.headD 0 = 64 ∨ terminator = [] ∨ terminator = rest then none else some terminator

/-- What the lexer takes at the character `c`: the number of characters behind `c` that go with
it and the context behind them, and `none` for a range operator. -/
def lexeme (dialect : LpcDialect) (context : Context) (c : UInt8) (rest : Str) :
    Option (Nat × Context) :=
  match context with
  | .lineComment => some (0, if c = 10 then .code else .lineComment)
  | .blockComment =>
      if c = 42 ∧ rest.head? = some 47 then some (1, .code) else some (0, .blockComment)
  | .string =>
      if c = 92 ∧ rest ≠ [] then some (1, .string)
      else some (0, if c = 34 then .code else .string)
  | .constant =>
      if c = 92 ∧ rest ≠ [] then some (1, .constant)
      else some (0, if c = 39 then .code else .constant)
  | .textBlock terminator atLineStart =>
      if atLineStart ∧ terminator <+: c :: rest then some (terminator.length - 1, .code)
      else some (0, .textBlock terminator (c = 10))
  | .code =>
      if c = 47 ∧ rest.head? = some 47 then some (1, .lineComment)
      else if c = 47 ∧ rest.head? = some 42 then some (1, .blockComment)
      else if c = 34 then some (0, .string)
      else if c = 39 then
        if quotesSymbol dialect rest then some (0, .code)
        -- The character of a constant may be a quote.
        else some (if rest.head? = some 92 then 2 else 1, .constant)
      else if c = 35 ∧ dialect = .ldMud ∧ rest.head? = some 39 then some (1, .code)
      else if c = 64 then
        match textBlockTerminator rest with
        | some terminator => some (terminator.length + 1, .textBlock terminator true)
        | none => some (0, .code)
      else if c = 46 ∧ rest.head? = some 46 then
        if rest.tail.head? = some 46 then some (2, .code) else none
      else some (0, .code)

/-- A character of a source, or a range operator. -/
inductive Piece
  | char (c : UInt8)
  | range

/-- The source of a piece. -/
def Piece.source : Piece → Str
  | .char c => [c]
  | .range => [46, 46]

/-- A range operator gets a space on each side. -/
def Piece.spaced : Piece → Str
  | .char c => [c]
  | .range => [32, 46, 46, 32]

/-- The pieces of a source, with the number of characters that go with the last ones. -/
def piecesFrom (dialect : LpcDialect) : Context → (taken : Nat) → Str → List Piece
  | _, _, [] => []
  | context, taken + 1, c :: rest => .char c :: piecesFrom dialect context taken rest
  | context, 0, c :: rest =>
      match lexeme dialect context c rest with
      | some (taken, context) => .char c :: piecesFrom dialect context taken rest
      | none =>
          match rest with
          | [] => [.char c]
          | _ :: rest => .range :: piecesFrom dialect context 0 rest

/-- The pieces of a source. -/
def pieces (dialect : LpcDialect) (source : Str) : List Piece :=
  piecesFrom dialect .code 0 source

/-! ## Bare quotes -/

/-- A character that stays, or something that is masked. -/
inductive Item
  | char (c : UInt8)
  | hashQuote
  | range

namespace Item

/-- The source of an item. -/
def source : Item → Str
  | .char c => [c]
  | .hashQuote => [35, 39]
  | .range => [46, 46]

/-- An item in the masked text. -/
def masked : Item → Str
  | .char c => [c]
  | .hashQuote => hashQuoteMarker
  | .range => maskedRange

/-- The pieces of an item. -/
def pieces : Item → List Piece
  | .char c => [.char c]
  | .hashQuote => [.char 35, .char 39]
  | .range => [.range]

end Item

/-- What the lexer takes where a `'` is only ever the quote of a constant: there are neither
quoted symbols nor text blocks, and the first unescaped `'` ends a constant. -/
def bareLexeme (context : Context) (c : UInt8) (rest : Str) : Option (Nat × Context) :=
  if context = .code ∧ c = 39 then some (0, .constant)
  else if context = .code ∧ c = 64 then some (0, .code)
  else lexeme .fluffOS context c rest

/-- The `#'` of a closure, as far as one can tell from the character in front of it. -/
def startsClosure (before : Option UInt8) (c : UInt8) (rest : Str) : Bool :=
  c == 35 && rest.head? == some 39 && before != some 39

/-- The items of a source whose only quotes are the bare ones, and whose closures are no quotes
wherever they stand. -/
def bareFrom : (before : Option UInt8) → Context → (taken : Nat) → Str → List Item
  | _, _, _, [] => []
  | before, context, taken, c :: rest =>
      if startsClosure before c rest then
        match rest with
        | [] => []
        | quote :: rest => .hashQuote :: bareFrom (some quote) context 0 rest
      else
        match taken with
        | taken + 1 => .char c :: bareFrom (some c) context taken rest
        | 0 =>
            match bareLexeme context c rest with
            | some (taken, context) => .char c :: bareFrom (some c) context taken rest
            | none =>
                match rest with
                | [] => [.char c]
                | dot :: rest => .range :: bareFrom (some dot) context 0 rest

/-- The pieces of a source, by its bare quotes. -/
def barePieces (source : Str) : List Piece :=
  (bareFrom none .code 0 source).flatMap Item.pieces

/-- The lexemes that the bare quotes tell wrong: a quoted symbol, a constant of a quote, a text
block, a `#'` in a constant, and one in code that is no closure of the dialect, or is one behind
a quote. -/
def misleads (dialect : LpcDialect) (before : Option UInt8) (context : Context) (c : UInt8)
    (rest : Str) : Bool :=
  match context with
  | .code =>
      (c == 39 && (quotesSymbol dialect rest || rest.head? == some 39)) ||
        (c == 64 && (textBlockTerminator rest).isSome) ||
        (c == 35 && rest.head? == some 39 && ((before == some 39) == (dialect == .ldMud)))
  | .constant => startsClosure before c rest
  | _ => false

/-- The lexer meets such a lexeme. -/
def misledFrom (dialect : LpcDialect) :
    (before : Option UInt8) → Context → (taken : Nat) → Str → Bool
  | _, _, _, [] => false
  | before, context, taken + 1, c :: rest =>
      -- The escaped character of a constant may be the `#`.
      (context == .constant && startsClosure before c rest) ||
        misledFrom dialect (some c) context taken rest
  | before, context, 0, c :: rest =>
      misleads dialect before context c rest ||
        match lexeme dialect context c rest with
        | some (taken, context) => misledFrom dialect (some c) context taken rest
        | none =>
            match rest with
            | [] => false
            | dot :: rest => misledFrom dialect (some dot) context 0 rest

/-- A lexeme of the source misleads a reader of its bare quotes. -/
def misled (dialect : LpcDialect) (source : Str) : Bool :=
  misledFrom dialect none .code 0 source

/-- A source with its range operators spaced. -/
def spaced (dialect : LpcDialect) (source : Str) : Str :=
  (pieces dialect source).flatMap Piece.spaced

/-- The source contains no marker. -/
def Unmarked (source : Str) : Prop :=
  ¬ hashQuoteMarker <:+: source ∧ ¬ dotDotMarker <:+: source

instance (source : Str) : Decidable (Unmarked source) :=
  inferInstanceAs (Decidable (_ ∧ _))

end Kjdmud.Object.Masking
