import Kjdmud.Core.Conversions
import Kjdmud.Core.Types
import Kjdmud.Efun.ParserPackage
import Kjdmud.Efun.ParserPackage.LoadObjects
import Mathlib.Data.List.DropRight

/-!
# A sentence and a rule

What `parse_sentence` of `src/efun/ParserPackage.cpp` keeps while it tries one rule on the words
of a sentence: the matches that its branches share, the errors and the best results so far.

The LPC code that is called has no side effects here: it is a function of its object, its name
and its arguments.  Nothing is destructed meanwhile.
-/

namespace Kjdmud.Efun.ParserPackage

/-! ## Words -/

/-- `SentenceWord`. -/
structure SentenceWord where
  text : Str
  rawStart : Nat
  rawEnd : Nat

/-! ## Sets of objects -/

/-- `ObjBitset`. -/
abbrev ObjBitset := List Bool

/-- `bitsetCount`. -/
def bitsetCount (a : ObjBitset) : Nat :=
  a.count true

/-- The numbers in a set, in order. -/
def members (a : ObjBitset) : List Nat :=
  (List.range a.length).filter fun i => a[i]? = some true

/-! ## Values and calls -/

/-- The values that the parser hands to LPC code. -/
inductive Arg
  | number (n : Int)
  | text (s : Str)
  | object (ob : ObjectId)
  | array (items : List Arg)

/-- What a callback returns. -/
inductive Answer
  | void
  | number (n : Int)
  | text (s : Str)
  | other

/-- The LPC code around the parser. -/
structure Callbacks where
  /-- `functionExists`, and `callFunction` where it does. -/
  call : ObjectId → Str → List Arg → Option Answer
  /-- `the_short`, where it is a string. -/
  theShort : ObjectId → Option Str
  /-- `parser_error_message` of the master. -/
  errorMessage : List Arg → Arg

/-- A rule that is tried on a sentence. -/
structure Attempt where
  callbacks : Callbacks
  objects : Objects
  nicks : Nicks
  /-- `session.caller`. -/
  caller : ObjectId
  /-- `currentLiterals()`. -/
  literals : List Str
  rawInput : Str
  words : List SentenceWord
  /-- `matchedVerb->matchName`. -/
  verb : Str
  /-- `currentNode`. -/
  node : VerbRuleNode

namespace Attempt

variable (a : Attempt)

def destructed (ob : ObjectId) : Bool :=
  (a.objects ob).destructed

/-- The object of a number, unless it is destructed. -/
def live (objects : List ObjectId) (number : Nat) : Option ObjectId :=
  objects[number]?.filter fun ob => !a.destructed ob

/-- `extractWordRange`. -/
def extractWordRange (first last : Nat) : Str :=
  match a.words[first]?, a.words[last]? with
  | some from_, some upTo =>
      if last < first then []
      else
        let text := (a.rawInput.drop from_.rawStart).take (upTo.rawEnd + 1 - from_.rawStart)
        let text := text.dropWhile Conversion.isSpace
        if upTo.rawEnd < a.rawInput.length then text.rdropWhile Conversion.isSpace else text
  | _, _ => []

/-- `queryTheShort`. -/
def queryTheShort (ob : Option ObjectId) : Str :=
  ((ob.filter fun ob => !a.destructed ob).bind a.callbacks.theShort).getD (str "the thing")

end Attempt

/-! ## Matches -/

/-- The token of a match; `error` is `ParserToken::Error`. -/
inductive MatchToken
  | error
  | str
  | wrd
  | object (modifiers : Modifiers)
deriving DecidableEq

/-- `PluralModifier` is set. -/
def MatchToken.plural : MatchToken → Bool
  | .object m => m.plural
  | _ => false

/-- `ChooseModifier` is set. -/
def MatchToken.choose : MatchToken → Bool
  | .object m => m.choose
  | _ => false

/-- `SentenceMatch`; no `number` is -1. -/
structure SentenceMatch where
  token : MatchToken
  first : Nat
  last : Nat
  ordinal : Int := 0
  obs : ObjBitset := []
  number : Option Nat := none

/-- `ParserErrorInfo`. -/
inductive ParserErrorInfo
  | none
  | isNot (nounName : Str) (nounIsPlural : Bool)
  | notLiving (nounName : Str) (nounIsPlural : Bool)
  | notAccessible (nounName : Str) (nounIsPlural : Bool)
  | ambig (ambigObs : ObjBitset)
  | ordinal (ordError : Nat)
  | allocated (allocatedMessage : Str)
  | thereIsNo (text : Str)
  | badMultiple
  | manyPaths
deriving DecidableEq

/-- `SavedError`. -/
structure SavedError where
  err : ParserErrorInfo
  obj : Nat

/-- `BuiltFunction`. -/
structure BuiltFunction where
  functionName : Str
  args : List Arg

/-- `SentenceMatchResult`. -/
structure SentenceMatchResult where
  handler : ObjectId
  res : List BuiltFunction

/-- `MatchState`; `tokIndex` is the list of the tokens ahead. -/
structure MatchState where
  wordIndex : Nat := 1
  numMatches : Nat := 0
  numErrors : Int := 0
  numObjs : Nat := 0
  /-- The matches as this branch has assigned them; the source does not keep them. -/
  path : List SentenceMatch := []

/-- The part of `SentenceSession` that changes while a rule is tried; no `directObject` is -1. -/
structure SentenceSession where
  loaded : LoadedObjectSet
  /-- `matches`. -/
  shared : List SentenceMatch := []
  bestMatchWeight : Int := 0
  bestErrorWeight : Int := 0
  bestNumErrors : Int := 5732
  foundLevel : Nat := 0
  currentError : ParserErrorInfo := .none
  bestError : ParserErrorInfo := .none
  bestResult : Option SentenceMatchResult := none
  parallelError : ParserErrorInfo := .none
  secondParallelError : ParserErrorInfo := .none
  parallelErrors : List SavedError := []
  directObject : Option Nat := none
  indirectObject : Option Nat := none

namespace SentenceSession

variable (session : SentenceSession)

/-- `matches[slot]`. -/
def slot (slot : Nat) : SentenceMatch :=
  session.shared[slot]?.getD ⟨.error, 0, 0, 0, [], none⟩

/-- A match is changed in place. -/
def modify (slot : Nat) (change : SentenceMatch → SentenceMatch) : SentenceSession :=
  { session with shared := session.shared.modify slot change }

/-- `session.parallelError` is set. -/
def withError (e : ParserErrorInfo) : SentenceSession :=
  { session with parallelError := e }

/-- The first error of a branch is the one that counts. -/
def firstError (numErrors : Int) (e : ParserErrorInfo) : SentenceSession :=
  if numErrors = 0 then { session with currentError := e } else session

end SentenceSession

end Kjdmud.Efun.ParserPackage
