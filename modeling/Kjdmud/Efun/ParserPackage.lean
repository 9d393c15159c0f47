import Kjdmud.Core.Types
import Mathlib.Algebra.Ring.Int.Defs
import Mathlib.Data.List.Basic

/-!
# Rules of the sentence parser

`tokenizeRule`, `ruleString` and the verb table of `src/efun/ParserPackage.cpp`.  A rule keeps
its literal words as indices into one list, `cachedLiterals`, that every registration
replaces.

A token is a bit set in the source; here it is what the bits say.  A handler is a
`weak_ptr` that is only compared with objects that are there, so it is the identity of the
object.
-/

namespace Kjdmud.Efun.ParserPackage

/-! ## Tokens -/

/-- `LivModifier`, `VisOnlyModifier`, `PluralModifier` and `ChooseModifier`. -/
structure Modifiers where
  living : Bool := false
  visOnly : Bool := false
  plural : Bool := false
  choose : Bool := false
deriving DecidableEq

/-- A token of a rule; a literal is an index into the literal words. -/
inductive Token
  | str
  | wrd
  | object (modifiers : Modifiers)
  | literal (index : Nat)
deriving DecidableEq

/-- `TokenDef`. -/
structure TokenDef where
  name : Str
  token : Token
  modLegal : Bool

/-- `kTokenDefs`. -/
def kTokenDefs : List TokenDef :=
  [⟨str "OBJ", .object {}, true⟩, ⟨str "STR", .str, false⟩, ⟨str "WRD", .wrd, false⟩,
    ⟨str "LIV", .object { living := true }, true⟩,
    ⟨str "OBS", .object { plural := true }, true⟩,
    ⟨str "LVS", .object { living := true, plural := true }, true⟩]

def blank : UInt8 := 0x20

/-- One modifier letter behind the colon. -/
def applyModifier (token : Token) (letter : UInt8) : Except Str Token :=
  match token with
  | .object m =>
      if letter = 0x6c then .ok (.object { m with living := true })
      else if letter = 0x76 then .ok (.object { m with visOnly := true })
      else if letter = 0x70 then .ok (.object { m with plural := true })
      else if letter = 0x63 then .ok (.object { m with choose := true })
      else .error (str "parser rule: unknown modifier '" ++ letter :: str "'")
  | other => .ok other

/-- The weight that a token adds to its rule. -/
def Token.weight : Token → Int
  | .str | .wrd | .literal _ => 1
  | .object m =>
      2 - (if m.plural then 1 else 0) + (if m.living then 1 else 0) +
        (if m.visOnly then 0 else 1)

/-- A token name, with its modifiers; `none` for any other word. -/
def readKeyword (word : Str) : Except Str (Option Token) :=
  if word.length = 3 ∨ (word.length > 4 ∧ word[3]? = some 0x3a) then
    match kTokenDefs.find? fun td => td.name = word.take 3 with
    | none => .ok none
    | some td =>
        if word.length = 3 then .ok (some td.token)
        else if td.modLegal then some <$> (word.drop 4).foldlM applyModifier td.token
        else .error (str "parser rule: illegal to have modifiers to '" ++ td.name ++ str "'")
  else .ok none

/-- One word of a rule. -/
def tokenizeOne (literals : List Str) (word : Str) : Except Str Token := do
  match ← readKeyword word with
  | some token => .ok token
  | none =>
      match literals.findIdx? (· = word) with
      | some index => .ok (.literal index)
      | none =>
          let shown := if word.length > 50 then word.take 50 ++ str "..." else word
          .error (str "parser rule: unknown token '" ++ shown ++ str "'")

/-- The next word of a rule, and the rest behind it. -/
def nextWord (rule : Str) : Option (Str × Str) :=
  match rule.dropWhile (· = blank) with
  | [] => none
  | c :: rest => some ((c :: rest).takeWhile (· ≠ blank), (c :: rest).dropWhile (· ≠ blank))

/-- The loop of `tokenizeRule` with so many slots left, after so many object tokens and perhaps
a plural one. -/
def tokenizeLoop (literals : List Str) : Nat → Nat → Bool → Str → Except Str (List Token)
  | 0, _, _, _ => .error (str "parser rule: only 10 tokens permitted per rule")
  | slots + 1, hasObj, hasPlural, rule =>
      match nextWord rule with
      | none => .ok []
      | some (word, rest) => do
          let token ← tokenizeOne literals word
          match token with
          | .object m =>
              if hasObj + 1 = 3 then
                .error (str "parser rule: only two object tokens allowed per rule")
              else if m.plural ∧ hasPlural then
                .error (str "parser rule: only one plural token allowed per rule")
              else
                let tokens ← tokenizeLoop literals slots (hasObj + 1) (hasPlural || m.plural) rest
                .ok (token :: tokens)
          | _ =>
              let tokens ← tokenizeLoop literals slots hasObj hasPlural rest
              .ok (token :: tokens)

/-- `tokenizeRule`. -/
def tokenizeRule (rule : Str) (literals : List Str) : Except Str (List Token) :=
  tokenizeLoop literals 10 0 false rule

/-- The weight of a rule. -/
def ruleWeight (tokens : List Token) : Int :=
  1 + (tokens.map Token.weight).sum

/-! ## Literal words -/

/-- What a token is to a reader of the rule: a literal is its word. -/
inductive Sense
  | keyword (token : Token)
  | word (text : Option Str)

/-- The sense of a token under a list of literal words. -/
def interpret (literals : List Str) : Token → Sense
  | .literal index => .word literals[index]?
  | token => .keyword token

/-- A token as `parse_dump` shows it, with a blank behind. -/
def tokenText (literals : List Str) : Token → Str
  | .str => str "STR "
  | .wrd => str "WRD "
  | .object m =>
      match m.living, m.plural with
      | false, false => str "OBJ "
      | true, false => str "LIV "
      | false, true => str "OBS "
      | true, true => str "LVS "
  | .literal index => (literals[index]?).getD [] ++ str " "

/-- `ruleString`. -/
def ruleString (tokens : List Token) (literals : List Str) : Str :=
  (tokens.flatMap (tokenText literals)).dropLast

/-- The literal case of `parseRule`: a word of the sentence matches a literal token. -/
def literalMatches (literals : List Str) (index : Nat) (word : Str) : Bool :=
  literals[index]? = some word

/-- The position behind a word at or after `start`, or 0. -/
def behindWord (words : List Str) (want : Str) (start : Nat) : Nat :=
  match (words.drop start).findIdx? (· = want) with
  | none => 0
  | some i => start + i + 1

/-- `checkLiteral`. -/
def checkLiteral (words literals : List Str) (index start : Nat) : Nat :=
  match literals[index]? with
  | none => 0
  | some want => behindWord words want start

/-! ## The verb table -/

/-- `VerbRuleNode`. -/
structure VerbRuleNode where
  tokens : List Token
  /-- `lit`: the first two literals. -/
  lit : List Nat
  weight : Int
  handler : ObjectId
  hasObjectToken : Bool
  objectTokenCount : Nat
  /-- What the rule was when it was registered; the source does not keep it. -/
  registered : List Sense

/-- `VerbEntry`. -/
structure VerbEntry where
  realName : Str
  matchName : Str
  isSynonym : Bool := false
  synonymOf : Str := []
  /-- The newest first. -/
  nodes : List VerbRuleNode := []

/-- The index of a literal token. -/
def Token.literalIndex : Token → Option Nat
  | .literal index => some index
  | _ => none

/-- An object-family token. -/
def Token.isObject : Token → Bool
  | .object _ => true
  | _ => false

/-- The literals of a rule, in order. -/
def literalIndices (tokens : List Token) : List Nat :=
  tokens.filterMap Token.literalIndex

/-- A rule as it is registered. -/
def newNode (tokens : List Token) (handler : ObjectId) (literals : List Str) : VerbRuleNode where
  tokens := tokens
  lit := (literalIndices tokens).take 2
  weight := ruleWeight tokens
  handler := handler
  hasObjectToken := tokens.any Token.isObject
  objectTokenCount := tokens.countP Token.isObject
  registered := tokens.map (interpret literals)

/-- The condition of `findPlainEntry`. -/
def isPlain (name : Str) (e : VerbEntry) : Bool :=
  e.realName = name ∧ e.matchName = name ∧ e.isSynonym = false

/-- The condition under which `addSynonym` takes an entry that exists. -/
def isSynonymEntry (newVerb oldVerb : Str) (wantSynonym : Bool) (e : VerbEntry) : Bool :=
  e.realName = newVerb ∧ e.matchName = oldVerb ∧ e.isSynonym = wantSynonym

/-- The first entry that satisfies a condition, changed; or a new one, changed, behind the
others. -/
def upsert (found : VerbEntry → Bool) (fresh : VerbEntry) (change : VerbEntry → VerbEntry) :
    List VerbEntry → List VerbEntry
  | [] => [change fresh]
  | e :: entries => if found e then change e :: entries else e :: upsert found fresh change entries

/-- The newest rule in front. -/
def VerbEntry.prepend (node : VerbRuleNode) (e : VerbEntry) : VerbEntry :=
  { e with nodes := node :: e.nodes }

/-- The entry without the rules of an object. -/
def VerbEntry.without (handler : ObjectId) (e : VerbEntry) : VerbEntry :=
  { e with nodes := e.nodes.filter fun n => n.handler ≠ handler }

/-- The process-wide state of the package: `verbs()` and `cachedLiterals()`, and of the objects
their parse info flags, where they have them. -/
structure Registry where
  verbs : Str → Option (List VerbEntry)
  literals : List Str
  parseInfo : ObjectId → Option Nat

namespace Registry

/-- `verbs()[name]`, changed. -/
def change (r : Registry) (name : Str) (f : List VerbEntry → List VerbEntry) : Registry :=
  { r with verbs := fun other =>
      if other = name then some (f ((r.verbs name).getD [])) else r.verbs other }

/-- `addRule`. -/
def addRule (r : Registry) (verb rule : Str) (handler : ObjectId) (literals : List Str) :
    Registry × Option Str :=
  let r := { r with literals := literals }
  match tokenizeRule rule literals with
  | .error e => (r, some e)
  | .ok tokens =>
      (r.change verb (upsert (isPlain verb) { realName := verb, matchName := verb }
        (VerbEntry.prepend (newNode tokens handler literals))), none)

/-- The plain entry of a verb. -/
def plainEntry (r : Registry) (verb : Str) : Option VerbEntry :=
  (r.verbs verb).bind fun entries => entries.find? (isPlain verb)

/-- The rule of a verb that `addSynonym` copies, or the exception. -/
def copied (vb : VerbEntry) (oldVerb rule : Str) (caller : ObjectId) (literals : List Str) :
    Except Str VerbRuleNode := do
  let tokens ← tokenizeRule rule literals
  match vb.nodes.find? fun n => n.tokens = tokens with
  | none => .error (str "parse_add_synonym: no such rule defined under '" ++ oldVerb ++ str "'")
  | some found =>
      if found.handler ≠ caller then
        .error (str "parse_add_synonym: rule owned by a different object")
      else .ok { found with registered := tokens.map (interpret literals) }

/-- `addSynonym`; an empty rule makes the new verb an alias. -/
def addSynonym (r : Registry) (newVerb oldVerb rule : Str) (caller : ObjectId)
    (literals : List Str) : Registry × Option Str :=
  if newVerb = oldVerb then
    (r, some (str "parse_add_synonym: a verb cannot be a synonym for itself"))
  else
    match r.plainEntry oldVerb with
    | none => (r, some (str "parse_add_synonym: '" ++ oldVerb ++ str "' is not a verb"))
    | some vb =>
        let found := isSynonymEntry newVerb oldVerb (rule = [])
        let fresh : VerbEntry := { realName := newVerb, matchName := oldVerb }
        if rule = [] then
          (r.change newVerb (upsert found fresh fun e =>
            { e with isSynonym := true, synonymOf := vb.realName }), none)
        else
          -- the entry and the literals stay when the rule is refused
          let r := { r.change newVerb (upsert found fresh id) with literals := literals }
          match copied vb oldVerb rule caller literals with
          | .error e => (r, some e)
          | .ok node =>
              (r.change newVerb (upsert found fresh (VerbEntry.prepend node)), none)

/-- `removeRules`. -/
def removeRules (r : Registry) (verb : Str) (handler : ObjectId) : Registry :=
  match r.verbs verb with
  | none => r
  | some _ =>
      r.change verb fun entries =>
        entries.map fun e => if e.isSynonym then e else e.without handler

/-- `setHasParseInfo(false)` and `setParseInfoFlags(0)`. -/
def forget (r : Registry) (ob : ObjectId) : Registry :=
  { r with parseInfo := fun other => if other = ob then none else r.parseInfo other }

/-- `ParserInfoFlag::VerbHandler`. -/
def isVerbHandler (r : Registry) (ob : ObjectId) : Bool :=
  (r.parseInfo ob).any fun flags => flags.testBit 2

/-- `onObjectDestroyed`. -/
def onObjectDestroyed (r : Registry) (destructed : ObjectId) : Registry :=
  if r.isVerbHandler destructed then
    { r with verbs := fun name =>
        (r.verbs name).map (List.map (VerbEntry.without destructed)) }.forget destructed
  else r.forget destructed

end Registry

/-! ## Calls -/

/-- A call, with the literal words that the master supplies. -/
inductive Call
  | addRule (verb rule : Str) (handler : ObjectId) (literals : List Str)
  | addSynonym (newVerb oldVerb rule : Str) (caller : ObjectId) (literals : List Str)
  | removeRules (verb : Str) (handler : ObjectId)
  | onObjectDestroyed (destructed : ObjectId)
  /-- What the efuns around the calls do with the flags of an object. -/
  | setParseInfo (ob : ObjectId) (flags : Option Nat)

namespace Registry

/-- A call: the state then, and what it throws. -/
def call (r : Registry) : Call → Registry × Option Str
  | .addRule verb rule handler literals => r.addRule verb rule handler literals
  | .addSynonym newVerb oldVerb rule caller literals =>
      r.addSynonym newVerb oldVerb rule caller literals
  | .removeRules verb handler => (r.removeRules verb handler, none)
  | .onObjectDestroyed destructed => (r.onObjectDestroyed destructed, none)
  | .setParseInfo ob flags =>
      ({ r with parseInfo := fun other => if other = ob then flags else r.parseInfo other }, none)

/-- No verbs, no literal words, no object known to the parser. -/
def empty : Registry :=
  ⟨fun _ => none, [], fun _ => none⟩

/-- The state after some calls. -/
def after (r : Registry) (calls : List Call) : Registry :=
  calls.foldl (fun r c => (r.call c).1) r

/-- A rule is registered under a verb. -/
def Registered (r : Registry) (name : Str) (node : VerbRuleNode) : Prop :=
  ∃ entries, r.verbs name = some entries ∧ ∃ e ∈ entries, node ∈ e.nodes

end Registry

end Kjdmud.Efun.ParserPackage
