import Kjdmud.Efun.ParserPackage.Sentence

/-!
# The callbacks of a rule

`makeFunction` of `src/efun/ParserPackage.cpp` builds the name and the arguments of a callback
from the rule and the matches, in four ways.  The `can_` callback is asked once for a sentence,
the others for one object after the other.
-/

namespace Kjdmud.Efun.ParserPackage

/-! ## Errors as values -/

/-- `ParserErrorType`. -/
def ParserErrorInfo.errorType : ParserErrorInfo → Int
  | .none => 0
  | .isNot _ _ => 1
  | .notLiving _ _ => 2
  | .notAccessible _ _ => 3
  | .ambig _ => 4
  | .ordinal _ => 5
  | .allocated _ => 6
  | .thereIsNo _ => 7
  | .badMultiple => 8
  | .manyPaths => 9

namespace Attempt

variable (a : Attempt)

/-- An object as an argument: 0 for one that is destructed. -/
def objectArg (session : SentenceSession) (number : Nat) : Arg :=
  match a.live session.loaded.objects number with
  | none => .number 0
  | some ob => .object ob

/-- `objectsDescendingIndexOrder`. -/
def objectsDescendingIndexOrder (session : SentenceSession) (bv : ObjBitset) : List Arg :=
  ((members bv).map (a.objectArg session)).reverse

/-- What `errorInfoToValue` tells the master besides the type and the object. -/
def errorPayload (session : SentenceSession) : ParserErrorInfo → List Arg
  | .isNot name plural | .notLiving name plural | .notAccessible name plural =>
      [.text name, .number (if plural then 1 else 0)]
  | .ambig obs => [.array (a.objectsDescendingIndexOrder session obs)]
  | .ordinal n => [.number n]
  | .thereIsNo text | .allocated text => [.text text]
  | .none | .badMultiple | .manyPaths => []

/-- `errorInfoToValue`; the object is not there for `getTheError`. -/
def errorInfoToValue (session : SentenceSession) (err : ParserErrorInfo) (obj : Option Nat) :
    Arg :=
  if err = .none then .number (-session.foundLevel)
  else
    a.callbacks.errorMessage
      (.number err.errorType :: (obj.elim (.number 0) (a.objectArg session)) ::
        a.errorPayload session err)

/-- `pushBitvecAsArray`. -/
def pushBitvecAsArray (session : SentenceSession) (bv : ObjBitset) (errorsToo : Bool) : Arg :=
  .array
    ((if errorsToo then
        session.parallelErrors.map fun e => a.errorInfoToValue session e.err (some e.obj)
      else []) ++ a.objectsDescendingIndexOrder session bv)

/-! ## Names and arguments -/

/-- `kPrefixes`. -/
def kPrefixes : List Str :=
  [str "can_", str "direct_", str "indirect_", str "do_", str "direct_", str "indirect_"]

/-- The name of an object token. -/
def objectPiece (living plural : Bool) : Str :=
  match living, plural with
  | true, true => str "lvs"
  | true, false => str "liv"
  | false, true => str "obs"
  | false, false => str "obj"

/-- The argument for the object token that is the `omatch`-th, 1 for the first. -/
def matchArg (session : SentenceSession) (which : Nat) (target : Arg) (found : SentenceMatch)
    (omatch : Nat) : Arg :=
  if 4 ≤ which then
    a.objectArg session
      ((if omatch = 1 then session.directObject else session.indirectObject).getD 0)
  else if omatch = which then target
  else if which < omatch then .number 0
  else if found.token = .error then .number 0
  else if found.token.plural then a.pushBitvecAsArray session found.obs (which = 3)
  else found.number.elim (.number 0) (a.objectArg session)

/-- What the tokens of a rule add to the name, and to the arguments, behind so many matches and
object tokens. -/
def tokenParts (session : SentenceSession) (which tryIdx : Nat) (target : Arg) :
    List Token → Nat → Nat → List (Str × List Arg)
  | [], _, _ => []
  | .object m :: tokens, slot, omatch =>
      let found := session.slot slot
      let plural := omatch + 1 < which && found.token.plural && which < 4
      (objectPiece m.living plural, [a.matchArg session which target found (omatch + 1)]) ::
        tokenParts session which tryIdx target tokens (slot + 1) (omatch + 1)
  | .str :: tokens, slot, omatch =>
      let found := session.slot slot
      (str "str", [.text (a.extractWordRange found.first found.last)]) ::
        tokenParts session which tryIdx target tokens (slot + 1) omatch
  | .wrd :: tokens, slot, omatch =>
      let found := session.slot slot
      (str "wrd", [.text (a.extractWordRange found.first found.last)]) ::
        tokenParts session which tryIdx target tokens (slot + 1) omatch
  | .literal index :: tokens, slot, omatch =>
      let text := a.literals[index]?.getD []
      (if tryIdx = 0 then (text, [])
        else if tryIdx < 3 then (str "word", [.text text])
        else ([], [])) :: tokenParts session which tryIdx target tokens slot omatch

/-- `makeFunction`. -/
def makeFunction (session : SentenceSession) (which tryIdx : Nat) (target : Arg) :
    BuiltFunction :=
  let parts := a.tokenParts session which tryIdx target a.node.tokens 0 0
  { functionName :=
      kPrefixes[which]?.getD [] ++ (if tryIdx < 2 then a.verb else str "verb") ++
        (if tryIdx = 3 then str "_rule" else parts.flatMap fun part => 0x5f :: part.1)
    args :=
      (if 2 ≤ tryIdx then [.text a.verb] else []) ++
        (if tryIdx = 3 then [.text (ruleString a.node.tokens a.literals)] else []) ++
        parts.flatMap Prod.snd }

/-- The loop of `pushRealNames`. -/
def realNames (session : SentenceSession) : List Token → Nat → List Arg
  | [], _ => []
  | .literal _ :: tokens, slot => realNames session tokens slot
  | _ :: tokens, slot =>
      let found := session.slot slot
      .text (a.extractWordRange found.first found.last) :: realNames session tokens (slot + 1)

/-- `pushRealNames`. -/
def pushRealNames (session : SentenceSession) (tryIdx : Nat) : List Arg :=
  (if 2 ≤ tryIdx then [.text (a.extractWordRange 0 0)] else []) ++
    a.realNames session a.node.tokens 0

/-- A callback with all its arguments. -/
def built (session : SentenceSession) (which tryIdx : Nat) (target : Arg) : BuiltFunction :=
  let built := a.makeFunction session which tryIdx target
  { built with args := built.args ++ a.pushRealNames session tryIdx }

/-- The answer of an object, if it has the function. -/
def ask (session : SentenceSession) (ob : ObjectId) (which tryIdx : Nat) (target : Arg) :
    Option Answer :=
  let call := a.built session which tryIdx target
  a.callbacks.call ob call.functionName call.args

/-! ## Messages -/

/-- The loop of `makeErrorMessage`, behind so many tokens that are no literals, object tokens
and matches. -/
def messageWords (session : SentenceSession) (which : Nat) :
    List Token → Nat → Nat → Nat → Str
  | [], _, _, _ => []
  | .literal index :: tokens, cnt, ocnt, slot =>
      a.literals[index]?.getD [] ++ str " " ++ messageWords session which tokens cnt ocnt slot
  | .object _ :: tokens, cnt, ocnt, slot =>
      let found := session.slot slot
      if cnt + 1 = which then
        str "that " ++ messageWords session which tokens (cnt + 1) ocnt (slot + 1)
      else if which ≤ ocnt + 1 ∨ found.token.plural then
        str "that " ++ messageWords session which tokens (cnt + 1) (ocnt + 1) (slot + 1)
      else
        a.queryTheShort (found.number.bind fun n => session.loaded.objects[n]?) ++ str " " ++
          messageWords session which tokens (cnt + 1) (ocnt + 1) (slot + 1)
  | .str :: tokens, cnt, ocnt, slot =>
      -- the match of the text stays the next one
      if cnt + 1 = which then
        str "that " ++ messageWords session which tokens (cnt + 1) ocnt slot
      else
        let found := session.slot slot
        a.extractWordRange found.first found.last ++ str " " ++
          messageWords session which tokens (cnt + 1) ocnt (slot + 1)
  | .wrd :: tokens, cnt, ocnt, slot =>
      let found := session.slot slot
      a.extractWordRange found.first found.last ++ str " " ++
        messageWords session which tokens (cnt + 1) ocnt (slot + 1)

/-- `makeErrorMessage`. -/
def makeErrorMessage (session : SentenceSession) (which : Nat) : ParserErrorInfo :=
  let text := str "You can't " ++ (a.words.head?.elim [] SentenceWord.text) ++ str " " ++
    a.messageWords session which a.node.tokens 0 0 0
  .allocated (text.dropLast ++ str "." ++ [0x0a])

/-! ## The callback for the sentence -/

/-- What `processAnswer` answers. -/
inductive Processed
  | tryNext
  | accepted
  | refused
  | abort

/-- An error, unless there are as many as with the best attempt. -/
def refuse (session : SentenceSession) (s : MatchState) (e : ParserErrorInfo) :
    Processed × SentenceSession × MatchState :=
  if s.numErrors = session.bestNumErrors then (.abort, session, s)
  else
    (.refused, session.firstError s.numErrors e, { s with numErrors := s.numErrors + 1 })

/-- `processAnswer`. -/
def processAnswer (session : SentenceSession) (s : MatchState) (which : Nat) :
    Option Answer → Processed × SentenceSession × MatchState
  | none | some .other => (.tryNext, session, s)
  | some (.text text) => refuse session s (.allocated text)
  | some .void => refuse session s (a.makeErrorMessage session which)
  | some (.number n) =>
      if n ≠ 0 then (.accepted, session, s)
      else refuse session s (a.makeErrorMessage session which)

/-- The names that `checkFunctions` tries on one object. -/
def checkOn (ob : ObjectId) (session : SentenceSession) (s : MatchState) :
    List Nat → Processed × SentenceSession × MatchState
  | [] => (.tryNext, session, s)
  | tryIdx :: tries =>
      match a.processAnswer session s 0 (a.ask session ob 0 tryIdx (.number 0)) with
      | (.tryNext, session, s) => checkOn ob session s tries
      | other => other

/-- The four ways to name a callback. -/
def fourTries : List Nat :=
  [0, 1, 2, 3]

/-- `checkFunctions`. -/
def checkFunctions (session : SentenceSession) (s : MatchState) :
    Bool × SentenceSession × MatchState :=
  if a.destructed a.caller then (false, session, s)
  else
    match a.checkOn a.caller session s fourTries with
    | (.abort, session, s) => (false, session, s)
    | (.accepted, session, s) | (.refused, session, s) => (true, session, s)
    | (.tryNext, session, s) =>
        if a.destructed a.node.handler then (false, session, s)
        else
          match a.checkOn a.node.handler session s fourTries with
          | (.abort, session, s) => (false, session, s)
          | (.accepted, session, s) | (.refused, session, s) => (true, session, s)
          | (.tryNext, session, s) =>
              match refuse session s (a.makeErrorMessage session 0) with
              | (.abort, session, s) => (false, session, s)
              | (_, session, s) => (true, session, s)

/-! ## The callbacks for one object -/

/-- `parallelProcessAnswer`; `none` goes on to the next name. -/
def parallelProcessAnswer (session : SentenceSession) (s : MatchState) (which : Nat) :
    Option Answer → Option Bool × SentenceSession
  | none | some .other => (none, session)
  | some (.text (0x23 :: text)) => (some false, session.withError (.allocated text))
  | some (.text text) => (some true, session.withError (.allocated text))
  | some .void => (some false, blamed session s which)
  | some (.number n) =>
      if n ≠ 0 then (some true, session) else (some false, blamed session s which)
where
  blamed (session : SentenceSession) (s : MatchState) (which : Nat) : SentenceSession :=
    if s.numErrors = 0 then session.withError (a.makeErrorMessage session which) else session

/-- The names that `parallelCheckFunctions` tries on one object. -/
def probeOn (ob candidate : ObjectId) (session : SentenceSession) (s : MatchState)
    (which : Nat) : List Nat → Option Bool × SentenceSession
  | [] => (none, session)
  | tryIdx :: tries =>
      match a.parallelProcessAnswer session s which
          (a.ask session ob which tryIdx (.object candidate)) with
      | (none, session) => probeOn ob candidate session s which tries
      | other => other

/-- `parallelCheckFunctions` for the object of a number. -/
def parallelCheckFunctions (session : SentenceSession) (s : MatchState) (number which : Nat) :
    Bool × SentenceSession :=
  let session := session.withError .none
  match a.live session.loaded.objects number with
  | none => (false, session)
  | some candidate =>
      match a.probeOn candidate candidate session s which fourTries with
      | (some accepted, session) => (accepted, session)
      | (none, session) =>
          if a.destructed a.node.handler then (false, session)
          else
            match a.probeOn a.node.handler candidate session s which fourTries with
            | (some accepted, session) => (accepted, session)
            | (none, session) =>
                (false,
                  if s.numErrors = 0 then session.withError (a.makeErrorMessage session 0)
                  else session)

end Attempt

end Kjdmud.Efun.ParserPackage
