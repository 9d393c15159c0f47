import Kjdmud.Efun.ParserPackage.Probes

/-!
# The end of a rule

`weAreFinished` of `src/efun/ParserPackage.cpp`: the objects of every match are probed, in the
array that all branches share, and the interpretation becomes the best one or the best error.

The checks of one match run over the numbers in its set.  A candidate that is refused is taken
out of it; nothing is put in.
-/

namespace Kjdmud.Efun.ParserPackage

/-! ## Errors of candidates -/

namespace SentenceSession

variable (session : SentenceSession)

/-- `useLastParallelError`. -/
def useLastParallelError (s : MatchState) : Bool × SentenceSession × MatchState :=
  if session.parallelError = .none then (false, session, s)
  else
    (true,
      if s.numErrors = 0 then
        { session.withError .none with currentError := session.parallelError }
      else session,
      { s with numErrors := s.numErrors + 1 })

/-- `saveLastParallelError`. -/
def saveLastParallelError (obj : Nat) : Bool × SentenceSession :=
  if session.parallelError = .none then (false, session)
  else
    (true,
      { session.withError .none with
        parallelErrors := ⟨session.parallelError, obj⟩ :: session.parallelErrors })

/-- `cacheLastParallelError`. -/
def cacheLastParallelError (storage : ParserErrorInfo) :
    Bool × SentenceSession × ParserErrorInfo :=
  if session.parallelError = .none then (false, session, storage)
  else (true, session.withError .none, session.parallelError)

/-- `useCachedParallelError`. -/
def useCachedParallelError (s : MatchState) (err : ParserErrorInfo) :
    Bool × SentenceSession × MatchState :=
  if err = .none then (false, session, s)
  else (true, session.firstError s.numErrors err, { s with numErrors := s.numErrors + 1 })

/-- `useCachedParallelError(…) || useLastParallelError(…)`. -/
def useParallelError (s : MatchState) (err : ParserErrorInfo) :
    Bool × SentenceSession × MatchState :=
  match session.useCachedParallelError s err with
  | (true, session, s) => (true, session, s)
  | (false, session, s) => session.useLastParallelError s

/-- A candidate is taken out. -/
def refuse (slot i : Nat) : SentenceSession :=
  session.modify slot fun m => { m with obs := m.obs.set i false }

/-- A match becomes an error. -/
def spoil (slot : Nat) : SentenceSession :=
  session.modify slot fun m => { m with token := .error }

/-- The object of a match. -/
def choose (slot : Nat) (number : Option Nat) : SentenceSession :=
  session.modify slot fun m => { m with number := number }

end SentenceSession

namespace Attempt

variable (a : Attempt)

/-! ## One object -/

/-- The variables of the loop of `singularCheckFunctions`; `found` is `match`. -/
structure Scan where
  ordinal : Int
  ord2 : Int
  ambig : Nat := 0
  wasError : Bool := false
  found : Option Nat := none

/-- A candidate is accepted, and there is an ordinal; no result ends the loop. -/
def acceptCounted (slot i : Nat) (scan : Scan) (session : SentenceSession) (s : MatchState) :
    Option Scan × SentenceSession × MatchState :=
  let ord2 := scan.ord2 - 1
  let ordinal := if scan.ordinal < 0 then scan.ordinal else scan.ordinal - 1
  if scan.ordinal < 0 ∨ ordinal = 0 then
    let s := if ordinal = -2 then { s with numErrors := s.numErrors - 1 } else s
    match session.useLastParallelError s with
    | (true, session, s) =>
        if ordinal ≠ -1 then (none, session.spoil slot, s)
        else (some { scan with ordinal := -2, ord2 := ord2 }, session.spoil slot, s)
    | (false, session, s) => (none, session.choose slot (some i), s)
  else (some { scan with ordinal := ordinal, ord2 := ord2 }, session, s)

/-- A candidate is accepted, and there is no ordinal. -/
def acceptPlain (slot i : Nat) (scan : Scan) (session : SentenceSession) (s : MatchState) :
    Option Scan × SentenceSession × MatchState :=
  if scan.ambig = 0 then
    match session.useLastParallelError s with
    | (true, session, s) =>
        -- an error is no object that may be chosen
        (some { scan with ambig := 1, wasError := true }, session.spoil slot, s)
    | (false, session, s) =>
        if (session.slot slot).token.choose then (none, session.choose slot (some i), s)
        else (some { scan with ambig := 1, wasError := false, found := some i }, session, s)
  else (some { scan with ambig := scan.ambig + 1, found := none }, session, s)

/-- A candidate is refused. -/
def refuseCounted (hasOrdinal : Bool) (slot i : Nat) (scan : Scan) (session : SentenceSession) :
    Scan × SentenceSession :=
  let ord2 := if hasOrdinal ∧ scan.ordinal ≠ -1 then scan.ord2 - 1 else scan.ord2
  let session :=
    if hasOrdinal ∧ (scan.ordinal = -1 ∨ ord2 = 0) then
      { session.withError .none with secondParallelError := session.parallelError }
    else session
  ({ scan with ord2 := ord2 }, session.refuse slot i)

/-- The loop of `singularCheckFunctions`. -/
def singularLoop (slot which : Nat) (hasOrdinal : Bool) :
    List Nat → Scan → SentenceSession → MatchState →
      Option Scan × SentenceSession × MatchState
  | [], scan, session, s => (some scan, session, s)
  | i :: numbers, scan, session, s =>
      match a.parallelCheckFunctions session s i which with
      | (true, session) =>
          match (if hasOrdinal then acceptCounted else acceptPlain) slot i scan session s with
          | (none, session, s) => (none, session, s)
          | (some scan, session, s) => singularLoop slot which hasOrdinal numbers scan session s
      | (false, session) =>
          let (scan, session) := refuseCounted hasOrdinal slot i scan session
          singularLoop slot which hasOrdinal numbers scan session s

/-- The end of `singularCheckFunctions` without an ordinal. -/
def endPlain (slot : Nat) (scan : Scan) (session : SentenceSession) (s : MatchState) :
    SentenceSession × MatchState :=
  if scan.ambig = 1 then (session.choose slot scan.found, s)
  else
    let s := if scan.wasError then { s with numErrors := s.numErrors - 1 } else s
    let session := session.spoil slot
    match (if scan.ambig = 0 then session.useLastParallelError s else (false, session, s)) with
    | (true, session, s) => (session, s)
    | (false, session, s) =>
        (session.firstError s.numErrors (.ambig (session.slot slot).obs),
          { s with numErrors := s.numErrors + 1 })

/-- The end of `singularCheckFunctions` with an ordinal. -/
def endCounted (slot : Nat) (scan : Scan) (session : SentenceSession) (s : MatchState) :
    SentenceSession × MatchState :=
  if scan.ordinal = -2 then (session, s)
  else
    let session := session.spoil slot
    let session :=
      if s.numErrors = 0 then
        if scan.ord2 ≤ 0 then
          { session with
            currentError := session.secondParallelError, secondParallelError := .none }
        else { session with currentError := .ordinal (bitsetCount (session.slot slot).obs) }
      else session
    (session, { s with numErrors := s.numErrors + 1 })

/-- The end of `singularCheckFunctions`, unless its loop returns. -/
def endSingular (slot : Nat) (hasOrdinal : Bool) :
    Option Scan × SentenceSession × MatchState → SentenceSession × MatchState
  | (none, session, s) => (session, s)
  | (some scan, session, s) =>
      if hasOrdinal then endCounted slot scan session s else endPlain slot scan session s

/-- `singularCheckFunctions`. -/
def singularCheckFunctions (session : SentenceSession) (s : MatchState) (which slot : Nat) :
    SentenceSession × MatchState :=
  let m := session.slot slot
  let hasOrdinal : Bool := m.ordinal ≠ 0
  endSingular slot hasOrdinal
    (a.singularLoop slot which hasOrdinal (members m.obs)
      { ordinal := m.ordinal, ord2 := m.ordinal } session s)

/-! ## Several objects -/

/-- The loop of `pluralCheckFunctions`: whether one was found. -/
def pluralLoop (slot which : Nat) (s : MatchState) :
    List Nat → Bool → SentenceSession → Bool × SentenceSession
  | [], foundOne, session => (foundOne, session)
  | i :: numbers, foundOne, session =>
      match a.parallelCheckFunctions session s i which with
      | (false, session) => pluralLoop slot which s numbers foundOne (session.refuse slot i)
      | (true, session) =>
          match session.saveLastParallelError i with
          | (true, session) => pluralLoop slot which s numbers foundOne (session.refuse slot i)
          | (false, session) => pluralLoop slot which s numbers true session

/-- `pluralCheckFunctions`. -/
def pluralCheckFunctions (session : SentenceSession) (s : MatchState) (which slot : Nat) :
    SentenceSession × MatchState :=
  match a.pluralLoop slot which s (members (session.slot slot).obs) false session with
  | (true, session) => (session, s)
  | (false, session) =>
      match session.useLastParallelError s with
      | (true, session, s) => (session.spoil slot, s)
      | (false, session, s) => (session, s)

/-! ## Two objects -/

/-- The loop of `dependentCheckFunctions`. -/
def dependentLoop (slot which : Nat) (s : MatchState) :
    List Nat → Bool → ParserErrorInfo → SentenceSession →
      Bool × ParserErrorInfo × SentenceSession
  | [], foundOne, errinfo, session => (foundOne, errinfo, session)
  | i :: numbers, foundOne, errinfo, session =>
      match a.parallelCheckFunctions session s i which with
      | (false, session) =>
          dependentLoop slot which s numbers foundOne errinfo (session.refuse slot i)
      | (true, session) =>
          match session.cacheLastParallelError errinfo with
          | (true, session, errinfo) =>
              dependentLoop slot which s numbers foundOne errinfo (session.refuse slot i)
          | (false, session, errinfo) =>
              dependentLoop slot which s numbers true errinfo
                (if foundOne then session else session.choose slot (some i))

/-- `dependentCheckFunctions`. -/
def dependentCheckFunctions (session : SentenceSession) (s : MatchState) (which slot : Nat) :
    SentenceSession × MatchState :=
  match a.dependentLoop slot which s (members (session.slot slot).obs) false .none session with
  | (true, _, session) => (session, s)
  | (false, errinfo, session) =>
      match session.useParallelError s errinfo with
      | (true, session, s) => (session.spoil slot, s)
      | (false, session, s) => (session, s)

/-- `RelationComplete` and `ErrorRelation`. -/
structure CheckRelation where
  complete : Bool
  error : Bool

/-- `checkOneRelation`. -/
def checkOneRelation (session : SentenceSession) (s : MatchState) (directFirst : Bool)
    (errinfo : ParserErrorInfo) : CheckRelation × ParserErrorInfo × SentenceSession :=
  let direct := session.directObject.getD 0
  let indirect := session.indirectObject.getD 0
  match a.parallelCheckFunctions session s (if directFirst then direct else indirect)
      (if directFirst then 4 else 5) with
  | (false, session) => (⟨false, true⟩, errinfo, session)
  | (true, session) =>
      let (_, session, err) := session.cacheLastParallelError .none
      match a.parallelCheckFunctions session s (if directFirst then indirect else direct)
          (if directFirst then 5 else 4) with
      | (false, session) => (⟨false, true⟩, if err = .none then errinfo else err, session)
      | (true, session) =>
          let (error, session, err) :=
            if err = .none then session.cacheLastParallelError err else (false, session, err)
          (⟨true, error⟩, if err = .none then errinfo else err, session)

/-- The variables of the loops of `checkObjectRelations`. -/
structure Pairing where
  directOrdinal : Int
  directsAccum : ObjBitset
  indirectsAccum : ObjBitset
  foundDirect : Option Nat := none
  foundIndirect : Option Nat := none
  err : ParserErrorInfo := .none

/-- A pair is accepted. -/
def Pairing.accept (p : Pairing) (i l : Nat) (error : Bool) : Pairing :=
  let counted := p.directOrdinal ≤ 0
  { p with
    directsAccum := if !error ∧ counted then p.directsAccum.set i true else p.directsAccum
    indirectsAccum := if !error then p.indirectsAccum.set l true else p.indirectsAccum
    foundDirect := if counted then some i else p.foundDirect
    foundIndirect := some l }

/-- The two matches of a pair test. -/
structure PairSlots where
  direct : Nat
  indirect : Nat
  directUnique : Bool
  indirectUnique : Bool

/-- A pair that would be a second one. -/
def ambiguous (slots : PairSlots) (blamed : Nat) (session : SentenceSession) (s : MatchState) :
    SentenceSession × MatchState :=
  let session := session.spoil slots.indirect
  (session.firstError s.numErrors (.ambig (session.slot blamed).obs),
    { s with numErrors := s.numErrors + 1 })

/-- The inner loop of `checkObjectRelations`; no result ends the test. -/
def pairLoop (slots : PairSlots) (i : Nat) :
    List Nat → Pairing → SentenceSession → MatchState →
      Option Pairing × SentenceSession × MatchState
  | [], p, session, s => (some p, session, s)
  | l :: numbers, p, session, s =>
      let session := { session with indirectObject := some l }
      match a.checkOneRelation session s slots.indirectUnique p.err with
      | (⟨false, _⟩, err, session) => pairLoop slots i numbers { p with err := err } session s
      | (⟨true, error⟩, err, session) =>
          if slots.indirectUnique ∧ p.foundIndirect.any (· ≠ l) then
            (none, ambiguous slots slots.indirect session s)
          else
            let p : Pairing := { p with
              err := err
              directOrdinal :=
                if 0 < p.directOrdinal then p.directOrdinal - 1 else p.directOrdinal }
            if p.directOrdinal ≤ 0 ∧ slots.directUnique ∧ p.foundDirect.any (· ≠ i) then
              (none, ambiguous slots slots.direct session s)
            else pairLoop slots i numbers (p.accept i l error) session s

/-- The outer loop of `checkObjectRelations`. -/
def pairsLoop (slots : PairSlots) (indirects : List Nat) :
    List Nat → Pairing → SentenceSession → MatchState →
      Option Pairing × SentenceSession × MatchState
  | [], p, session, s => (some p, session, s)
  | i :: numbers, p, session, s =>
      let session := { session with directObject := some i }
      match a.pairLoop slots i indirects p session s with
      | (none, session, s) => (none, session, s)
      | (some p, session, s) =>
          let finished := p.foundDirect ≠ some 0 ∧ (p.directOrdinal = 0 ∨
            (slots.directUnique ∧ (session.slot slots.direct).token.choose))
          if finished then (some p, session, s)
          else pairsLoop slots indirects numbers p session s

/-- The first and the last object match, unless one is an error. -/
def pairOf :
    List SentenceMatch → Nat → Option Nat × Option Nat → Option (Option Nat × Option Nat)
  | [], _, found => some found
  | m :: rest, slot, (direct, indirect) =>
      match m.token with
      | .error => none
      | .object _ =>
          pairOf rest (slot + 1)
            (if direct.isNone then (some slot, indirect) else (direct, some slot))
      | _ => pairOf rest (slot + 1) (direct, indirect)

/-- The candidate at which the counter comes to 0. -/
def countedMember : List Nat → Int → Option Nat
  | [], _ => none
  | i :: numbers, ord => if ord - 1 = 0 then some i else countedMember numbers (ord - 1)

/-- The part of `checkObjectRelations` that chooses the indirect object by its ordinal: whether
there is one. -/
def chooseIndirect (indirect : Nat) (session : SentenceSession) (s : MatchState) :
    Bool × SentenceSession × MatchState :=
  let m := session.slot indirect
  if m.ordinal = 0 then (true, session, s)
  else
    let first := if 0 < m.ordinal then 0 else s.numMatches * 32
    match countedMember ((members m.obs).filter (first ≤ ·)) m.ordinal with
    | some chosen =>
        (true, session.modify indirect fun m =>
          { m with obs := (List.replicate m.obs.length false).set chosen true }, s)
    | none =>
        let session := session.spoil indirect
        (false, session.firstError s.numErrors (.ordinal (bitsetCount m.obs + 1)),
          { s with numErrors := s.numErrors + 1 })

/-- The end of `checkObjectRelations`. -/
def endPairs (slots : PairSlots) (p : Pairing) (session : SentenceSession) (s : MatchState) :
    SentenceSession × MatchState :=
  let session := session.modify slots.direct fun m =>
    { m with
      obs := p.directsAccum
      number := if slots.directUnique then p.foundDirect else some 0 }
  let session := session.modify slots.indirect fun m =>
    { m with
      obs := p.indirectsAccum
      number := if slots.indirectUnique then p.foundIndirect else some 0 }
  if p.foundDirect = none then
    match session.useParallelError s p.err with
    | (true, session, s) => (session.spoil slots.direct, s)
    | (false, session, s) => (session, s)
  else if p.foundIndirect = none then
    match session.useParallelError s p.err with
    | (true, session, s) => (session.spoil slots.indirect, s)
    | (false, session, s) => (session, s)
  else (session, s)

/-- The loops of `checkObjectRelations`: no pair of matches, or one that is left early, or what
the pairs come to.  The bound on the number of pairs counts sets that are empty. -/
def relate (session : SentenceSession) (s : MatchState) :
    Option (PairSlots × Option Pairing) × SentenceSession × MatchState :=
  match pairOf (session.shared.take s.numMatches) 0 (none, none) with
  | some (some direct, some indirect) =>
      let slots : PairSlots :=
        { direct := direct
          indirect := indirect
          directUnique := !(session.slot direct).token.plural
          indirectUnique := !(session.slot indirect).token.plural }
      match chooseIndirect indirect session s with
      | (false, session, s) => (some (slots, none), session, s)
      | (true, session, s) =>
          let ordinal := (session.slot direct).ordinal
          let empty := List.replicate session.loaded.objects.length false
          let (p, session, s) :=
            a.pairsLoop slots (members (session.slot indirect).obs)
              (members (session.slot direct).obs)
              { directOrdinal := if ordinal = 0 then -1 else ordinal
                directsAccum := empty
                indirectsAccum := empty } session s
          (some (slots, p), session, s)
  | _ => (none, session, s)

/-- `checkObjectRelations`. -/
def checkObjectRelations (session : SentenceSession) (s : MatchState) :
    SentenceSession × MatchState :=
  match a.relate session s with
  | (some (slots, some p), session, s) => endPairs slots p session s
  | (_, session, s) => (session, s)

/-! ## The whole interpretation -/

/-- One match of the loop of `weAreFinished`. -/
def checkMatch (session : SentenceSession) (s : MatchState) (which slot : Nat) :
    SentenceSession × MatchState :=
  if (session.slot slot).token.plural then a.pluralCheckFunctions session s which slot
  else if s.numObjs = 2 then a.dependentCheckFunctions session s which slot
  else a.singularCheckFunctions session s which slot

/-- The loop of `weAreFinished`. -/
def checkMatches :
    List Nat → Nat → SentenceSession → MatchState → SentenceSession × MatchState
  | [], _, session, s => (session, s)
  | slot :: slots, which, session, s =>
      if 3 ≤ which then (session, s)
      else
        match (session.slot slot).token with
        | .error => checkMatches slots (which + 1) session s
        | .object _ =>
            let (session, s) := a.checkMatch session s which slot
            checkMatches slots (which + 1) session s
        | _ => checkMatches slots which session s

/-- The checks of `weAreFinished`, once the `can_` callback has not stopped it. -/
def checks (session : SentenceSession) (s : MatchState) : SentenceSession × MatchState :=
  let (session, s) :=
    a.checkMatches (List.range s.numMatches) 1 { session with parallelErrors := [] } s
  if s.numObjs = 2 ∧ s.numErrors = 0 then a.checkObjectRelations session s else (session, s)

/-- The best error of `weAreFinished`. -/
def recordError (session : SentenceSession) (s : MatchState) : SentenceSession :=
  let weight :=
    match session.currentError with
    | .thereIsNo _ => 1
    | _ => a.node.weight
  if s.numErrors = session.bestNumErrors ∧ weight ≤ session.bestErrorWeight then session
  else
    { session with
      bestError := session.currentError
      currentError := .none
      bestNumErrors := s.numErrors
      bestErrorWeight := weight }

/-- The best match of `weAreFinished`. -/
def recordMatch (session : SentenceSession) : SentenceSession :=
  let session := { session with bestMatchWeight := a.node.weight }
  if a.destructed a.node.handler then session
  else
    { session with
      bestResult := some
        { handler := a.node.handler
          res := fourTries.map fun tryIdx => a.built session 3 tryIdx (.number 0) } }

/-- Whether `weAreFinished` puts an interpretation aside at once. -/
def putsAside (session : SentenceSession) (s : MatchState) : Bool :=
  a.node.weight ≤ session.bestMatchWeight ||
    (s.numErrors ≠ 0 && (session.bestNumErrors < s.numErrors ||
      (s.numErrors = session.bestNumErrors && a.node.weight < session.bestErrorWeight)))

/-- `weAreFinished`. -/
def weAreFinished (session : SentenceSession) (s : MatchState) : SentenceSession :=
  let session := { session with foundLevel := max session.foundLevel 2 }
  if a.putsAside session s then session
  else
    match a.checkFunctions session s with
    | (false, session, _) => session
    | (true, session, s) =>
        let (session, s) := a.checks session s
        if s.numErrors ≠ 0 then a.recordError session s else a.recordMatch session

end Attempt

end Kjdmud.Efun.ParserPackage
