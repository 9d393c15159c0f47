import Kjdmud.Core.Conversions

/-!
# The lexer

`src/compiler/Lexer.cpp`.  The state is what is left of the source with the line it starts on.
Every character is taken by `advance`, which counts the line ends.
-/

namespace Kjdmud.Compiler

open Kjdmud.Conversion (hexDigit)

/-- `LpcDialect`. -/
inductive LpcDialect
  | fluffOS | ldMud | dgd
deriving DecidableEq

/-- `TokenType`. -/
inductive TokenType
  | ident | number | string | symbol | quotedSymbol | keyword | endOfSource
deriving DecidableEq

/-- `Token`. -/
structure Token where
  type : TokenType
  text : Str
  line : Nat

/-- What the lexer throws. -/
inductive LexerError
  /-- An `LpcRuntimeError`. -/
  | runtime (message : Str)
  /-- A `NotImplementedError`. -/
  | notImplemented (message : Str)

/-- `Lexer`. -/
structure Lexer where
  rest : Str
  line : Nat
  dialect : LpcDialect

/-! ## Characters -/

/-- `std::isalpha`. -/
def isAlpha (c : UInt8) : Bool :=
  (65 ≤ c && c ≤ 90) || (97 ≤ c && c ≤ 122)

/-- `std::isxdigit`. -/
def isXDigit (c : UInt8) : Bool :=
  (hexDigit c).isSome

/-- A letter or an underscore. -/
def startsIdent (c : UInt8) : Bool :=
  isAlpha c || c == 95

/-- A character of an identifier. -/
def isIdentChar (c : UInt8) : Bool :=
  isAlpha c || Decimal.isDigit c || c == 95

/-- The first character of the operators and brackets. -/
def isSymbolChar (c : UInt8) : Bool :=
  (str "()\x7b\x7d[]:;,-=!<>*+|&/%.?^~").contains c

namespace Lexer

def peek (l : Lexer) : UInt8 :=
  l.rest.headD 0

def peekNext (l : Lexer) : UInt8 :=
  l.rest.tail.headD 0

/-- The characters in front of a suffix are taken by `advance`. -/
def moveTo (l : Lexer) (rest : Str) : Lexer :=
  { l with rest := rest, line := l.line + (l.rest.count 10 - rest.count 10) }

/-- `advance`. -/
def advance (l : Lexer) : Lexer :=
  l.moveTo l.rest.tail

/-- Characters of a kind are taken up to the first other one. -/
def advanceWhile (kind : UInt8 → Bool) (l : Lexer) : Str × Lexer :=
  (l.rest.takeWhile kind, l.moveTo (l.rest.dropWhile kind))

/-! ## Tokens -/

/-- `kKeywords`. -/
def keywords : List Str :=
  ["void", "int", "string", "object", "float", "mapping", "status", "mixed", "function", "return",
    "if", "else", "while", "for", "do", "static", "private", "public", "protected", "nomask",
    "varargs", "inherit", "break", "continue", "foreach", "in", "switch", "case",
    "default"].map str

/-- `kDgdOnlyKeywords`. -/
def dgdOnlyKeywords : List Str :=
  ["atomic", "nil"].map str

/-- `lexIdentOrKeyword`. -/
def lexIdentOrKeyword (l : Lexer) : Token × Lexer :=
  let (text, l') := l.advanceWhile isIdentChar
  let isDialectKeyword := l.dialect = .dgd ∧ text ∈ dgdOnlyKeywords
  (⟨if text ∈ keywords ∨ isDialectKeyword then .keyword else .ident, text, l.line⟩, l')

/-- `lexNumber`. -/
def lexNumber (l : Lexer) : Token × Lexer :=
  let (text, l') := l.advanceWhile Decimal.isDigit
  if text = str "0" ∧ (l'.peek = 120 ∨ l'.peek = 88) ∧ isXDigit l'.peekNext then
    let (digits, l'') := l'.advance.advanceWhile isXDigit
    (⟨.number, text ++ l'.peek :: digits, l.line⟩, l'')
  else if l'.peek = 46 ∧ Decimal.isDigit l'.peekNext then
    let (digits, l'') := l'.advance.advanceWhile Decimal.isDigit
    (⟨.number, text ++ l'.peek :: digits, l.line⟩, l'')
  else (⟨.number, text, l.line⟩, l')

/-- `lexLambdaParam`. -/
def lexLambdaParam (l : Lexer) : Token × Lexer :=
  let opened := l.advance
  if Decimal.isDigit opened.peek then
    let (digits, l') := opened.advanceWhile Decimal.isDigit
    (⟨.ident, 36 :: digits, l.line⟩, l')
  else (⟨.symbol, str "$", l.line⟩, opened)

/-- The character that an escape stands for. -/
def escaped (c : UInt8) : UInt8 :=
  if c = 110 then 10 else if c = 116 then 9 else c

/-- The loop of `lexString`: the value, and what is left from the closing quote on. -/
def stringBody : Str → Str × Str
  | [] => ([], [])
  | c :: rest =>
      if c = 34 then ([], c :: rest)
      else
        match rest with
        | [] => ([c], [])
        | esc :: behind =>
            if c = 92 then ((stringBody behind).map (escaped esc :: ·) id)
            else (stringBody (esc :: behind)).map (c :: ·) id

/-- `lexString`. -/
def lexString (l : Lexer) : Except LexerError (Token × Lexer) :=
  let (value, rest) := stringBody l.rest.tail
  match rest with
  | [] => .error (.runtime (str "unterminated string literal at line " ++ Decimal.ofNat l.line))
  | _ :: rest => .ok (⟨.string, value, l.line⟩, l.moveTo rest)

/-- The code of a character literal, and what is left behind it. -/
def charBody : Str → UInt8 × Str
  | [] => (0, [])
  | [c] => (c, [])
  | c :: esc :: rest => if c = 92 then (escaped esc, rest) else (c, esc :: rest)

/-- `lexChar`. -/
def lexChar (l : Lexer) : Except LexerError (Token × Lexer) :=
  if l.rest.tail = [] then
    .error (.runtime (str "unterminated character literal at line " ++ Decimal.ofNat l.line))
  else
    let (code, rest) := charBody l.rest.tail
    match rest with
    | 39 :: rest => .ok (⟨.number, Decimal.ofNat code.toNat, l.line⟩, l.moveTo rest)
    | _ => .error (.runtime
        (str "character literal must contain exactly one character, at line " ++
          Decimal.ofNat l.line))

/-- The loop of `lexHeredoc`: the value, and what is left behind the terminator. -/
def heredocBody (terminator : Str) : Bool → Str → Option (Str × Str)
  | _, [] => none
  | atLineStart, c :: rest =>
      if atLineStart ∧ terminator <+: c :: rest then
        some ([], (c :: rest).drop terminator.length)
      else (heredocBody terminator (c = 10) rest).map (Prod.map (c :: ·) id)

/-- `lexHeredoc`. -/
def lexHeredoc (l : Lexer) : Except LexerError (Token × Lexer) :=
  let (terminator, behind) := (l.rest.tail.takeWhile (· ≠ 10), l.rest.tail.dropWhile (· ≠ 10))
  let unterminated : LexerError := .runtime (str "unterminated heredoc: missing closing \"" ++
    terminator ++ str "\" at line " ++ Decimal.ofNat l.line)
  if l.rest.tail.headD 0 = 64 then
    .error (.notImplemented (str "not implemented: \"@@\" array-block heredoc syntax"))
  else if terminator = [] then
    .error (.runtime (str "heredoc: missing terminator at line " ++ Decimal.ofNat l.line))
  else
    match behind with
    | [] => .error unterminated
    | _ :: text =>
        match heredocBody terminator true text with
        | none => .error unterminated
        | some (value, rest) => .ok (⟨.string, value, l.line⟩, l.moveTo rest)

/-- The operators of more than one character, in the order of `lexSymbol`. -/
def operators : List Str :=
  ["->", "::", "++", "--", "+=", "-=", "*=", "/=", "%=", "|=", "&=", "^=", "==", "!=", "<<=",
    "<<", ">>=", ">>", "<=", ">=", "||", "&&", "...", ".."].map str

/-- `lexSymbol`. -/
def lexSymbol (l : Lexer) : Token × Lexer :=
  let text := (operators.find? (·.isPrefixOf l.rest)).getD [l.peek]
  (⟨.symbol, text, l.line⟩, l.moveTo (l.rest.drop text.length))

/-- `lexQuote`. -/
def lexQuote (l : Lexer) : Except LexerError (Token × Lexer) :=
  let (name, l') := l.advance.advanceWhile isIdentChar
  let singleCharThenQuote := name.length = 1 ∧ l'.peek = 39
  if startsIdent l.peekNext ∧ ¬ singleCharThenQuote then
    .ok (⟨.quotedSymbol, name, l.line⟩, l')
  else l.lexChar

/-- `lexHashQuote`. -/
def lexHashQuote (l : Lexer) : Token × Lexer :=
  (⟨.symbol, str "#'", l.line⟩, l.advance.advance)

/-- One round of the loop of `tokenize`, behind white space and comments. -/
def lexToken (l : Lexer) : Except LexerError (Token × Lexer) :=
  let c := l.peek
  if startsIdent c then .ok l.lexIdentOrKeyword
  else if Decimal.isDigit c then .ok l.lexNumber
  else if c = 46 ∧ Decimal.isDigit l.peekNext then .ok l.lexNumber
  else if c = 34 then l.lexString
  else if c = 39 then if l.dialect = .ldMud then l.lexQuote else l.lexChar
  else if c = 35 ∧ l.dialect = .ldMud ∧ l.peekNext = 39 then .ok l.lexHashQuote
  else if c = 64 then l.lexHeredoc
  else if c = 36 then .ok l.lexLambdaParam
  else if isSymbolChar c then .ok l.lexSymbol
  else .error (.runtime (str "lexer: unrecognized character '" ++ c :: str "' at line " ++
    Decimal.ofNat l.line))

end Lexer

end Kjdmud.Compiler
