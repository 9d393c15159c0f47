import Kjdmud.Efun.ParserPackage.Lowering

/-!
# What two objects answer

A probe asks the candidate and then the handler, each under four names, and the first answer
that is a number, a string or nothing at all counts.  A number other than 0 accepts; a string
accepts too, unless it begins with `#`, but it is an error of its pair.

An interpretation with two object matches is probed in three rounds: the direct candidates, the
indirect candidates, and the pairs of those that are left.
-/

namespace Kjdmud.Efun.ParserPackage

/-! ## Answers -/

namespace Answer

/-- No other name is tried. -/
def decides : Answer → Bool
  | .other => false
  | _ => true

/-- A number other than 0. -/
def grants : Answer → Bool
  | .number n => n ≠ 0
  | _ => false

def isText : Answer → Bool
  | .text _ => true
  | _ => false

/-- A number other than 0, or a message. -/
def accepts : Answer → Bool
  | .number n => n ≠ 0
  | .text (0x23 :: _) => false
  | .text _ => true
  | .void | .other => false

/-- Accepted, but with a message. -/
def warns (answer : Answer) : Bool :=
  answer.accepts && !answer.grants

theorem any_warns (given : Option Answer) :
    given.any warns = (given.any accepts && !given.any grants) := by
  cases given <;> rfl

theorem accepts_of_grants {answer : Answer} (granted : answer.grants = true) :
    answer.accepts = true := by
  cases answer with
  | number n => exact granted
  | void => cases granted
  | text s => cases granted
  | other => cases granted

theorem any_accepts_of_grants {given : Option Answer} (granted : given.any grants = true) :
    given.any accepts = true := by
  cases given with
  | none => cases granted
  | some answer => exact accepts_of_grants granted

/-- Without a message, what is accepted is granted. -/
theorem accepts_eq_of_silent {answer : Answer} (silent : answer.isText = false) :
    answer.accepts = answer.grants := by
  cases answer with
  | number n => rfl
  | void => rfl
  | text s => cases silent
  | other => rfl

end Answer

/-- The match of the first object token. -/
def firstObject : List Token → Nat → Option Nat
  | [], _ => none
  | .object _ :: _, slot => some slot
  | .literal _ :: tokens, slot => firstObject tokens slot
  | .str :: tokens, slot | .wrd :: tokens, slot => firstObject tokens (slot + 1)

namespace Attempt

variable (a : Attempt)

/-- What an object is asked about a candidate. -/
def asked (session : SentenceSession) (ob candidate : ObjectId) (which : Nat)
    (tries : List Nat) : Option Answer :=
  tries.findSome? fun tryIdx =>
    (a.ask session ob which tryIdx (.object candidate)).filter Answer.decides

/-- The answer of a probe, if there is one. -/
def answer (session : SentenceSession) (which number : Nat) : Option Answer :=
  (a.live session.loaded.objects number).bind fun candidate =>
    (a.asked session candidate candidate which fourTries).or
      (if a.destructed a.node.handler then none
        else a.asked session a.node.handler candidate which fourTries)

variable {a} {session session' : SentenceSession} {s : MatchState} {which number : Nat}

/-! ## What a probe reads -/

/-- Two sessions in which a probe asks the same. -/
structure Alike (a : Attempt) (which : Nat) (session session' : SentenceSession) : Prop where
  objects : session'.loaded.objects = session.loaded.objects
  first : ∀ k, (session'.slot k).first = (session.slot k).first
  last : ∀ k, (session'.slot k).last = (session.slot k).last
  /-- The callbacks of a pair get its objects, -/
  pair : 4 ≤ which → session'.directObject = session.directObject ∧
    session'.indirectObject = session.indirectObject
  /-- and those of an indirect object get the direct match. -/
  direct : which = 2 → ∀ k, firstObject a.node.tokens 0 = some k →
    session'.slot k = session.slot k

namespace Alike

theorem objectArg (alike : a.Alike which session session') (number : Nat) :
    a.objectArg session' number = a.objectArg session number := by
  rw [Attempt.objectArg, alike.objects, ← Attempt.objectArg]

theorem matchArg (alike : a.Alike which session session') (probe : which ≠ 3) {k omatch : Nat}
    (same : which = 2 → omatch = 0 → session'.slot k = session.slot k) (target : Arg) :
    a.matchArg session' which target (session'.slot k) (omatch + 1) =
      a.matchArg session which target (session.slot k) (omatch + 1) := by
  unfold Attempt.matchArg
  by_cases relation : 4 ≤ which
  · rw [if_pos relation, if_pos relation, alike.objectArg, (alike.pair relation).1,
      (alike.pair relation).2]
  · rw [if_neg relation, if_neg relation]
    by_cases own : omatch + 1 = which
    · rw [if_pos own, if_pos own]
    · rw [if_neg own, if_neg own]
      by_cases behind : which < omatch + 1
      · rw [if_pos behind, if_pos behind]
      · rw [if_neg behind, if_neg behind, same (by omega) (by omega), pushBitvecAsArray,
          pushBitvecAsArray, objectsDescendingIndexOrder, objectsDescendingIndexOrder,
          decide_eq_false probe, if_neg Bool.false_ne_true, if_neg Bool.false_ne_true,
          funext alike.objectArg]

theorem tokenParts (alike : a.Alike which session session') (probe : which ≠ 3) (tryIdx : Nat)
    (target : Arg) (tokens : List Token) (slot omatch : Nat)
    (same : which = 2 → omatch = 0 → ∀ k, firstObject tokens slot = some k →
      session'.slot k = session.slot k) :
    a.tokenParts session' which tryIdx target tokens slot omatch =
      a.tokenParts session which tryIdx target tokens slot omatch := by
  induction tokens generalizing slot omatch with
  | nil => rfl
  | cons token tokens ih =>
      cases token with
      | object m =>
          have here : which = 2 → omatch = 0 → session'.slot slot = session.slot slot :=
            fun two zero => same two zero slot rfl
          rw [Attempt.tokenParts, Attempt.tokenParts, alike.matchArg probe here,
            ih _ _ fun _ zero => absurd zero (Nat.succ_ne_zero omatch)]
          by_cases before : omatch + 1 < which ∧ which < 4
          · rw [here (by omega) (by omega)]
          · have plain (found : SentenceMatch) :
                (decide (omatch + 1 < which) && found.token.plural && decide (which < 4)) =
                  false := by
              rw [Bool.and_right_comm, ← Bool.decide_and, decide_eq_false before, Bool.false_and]
            rw [plain, plain]
      | str =>
          rw [Attempt.tokenParts, Attempt.tokenParts, alike.first, alike.last,
            ih _ _ same]
      | wrd =>
          rw [Attempt.tokenParts, Attempt.tokenParts, alike.first, alike.last,
            ih _ _ same]
      | literal index =>
          rw [Attempt.tokenParts, Attempt.tokenParts, ih _ _ same]

theorem realNames (alike : a.Alike which session session') (tokens : List Token) (slot : Nat) :
    a.realNames session' tokens slot = a.realNames session tokens slot := by
  induction tokens generalizing slot with
  | nil => rfl
  | cons token tokens ih =>
      cases token with
      | literal index => exact ih slot
      | object m => simp only [Attempt.realNames, alike.first, alike.last, ih]
      | str => simp only [Attempt.realNames, alike.first, alike.last, ih]
      | wrd => simp only [Attempt.realNames, alike.first, alike.last, ih]

theorem withError (session : SentenceSession) (e : ParserErrorInfo) :
    a.Alike which session (session.withError e) :=
  ⟨rfl, fun _ => rfl, fun _ => rfl, fun _ => ⟨rfl, rfl⟩, fun _ _ _ => rfl⟩

theorem asked (alike : a.Alike which session session') (probe : which ≠ 3)
    (ob candidate : ObjectId) (tries : List Nat) :
    a.asked session' ob candidate which tries = a.asked session ob candidate which tries := by
  have ask (tryIdx : Nat) (target : Arg) :
      a.ask session' ob which tryIdx target = a.ask session ob which tryIdx target := by
    rw [Attempt.ask, Attempt.ask, built, built, makeFunction, makeFunction, pushRealNames,
      pushRealNames, alike.realNames,
      alike.tokenParts probe tryIdx target a.node.tokens 0 0 fun two _ => alike.direct two]
  unfold Attempt.asked
  simp only [ask]

theorem answer (alike : a.Alike which session session') (probe : which ≠ 3) (number : Nat) :
    a.answer session' which number = a.answer session which number := by
  rw [Attempt.answer, Attempt.answer, alike.objects]
  simp only [alike.asked probe]

end Alike

/-! ## Probes -/

theorem parallelProcessAnswer_none {given : Option Answer}
    (undecided : given.filter Answer.decides = none) (session : SentenceSession) :
    a.parallelProcessAnswer session s which given = (none, session) := by
  cases given with
  | none => rfl
  | some answer =>
      cases answer with
      | other => rfl
      | void => cases undecided
      | number n => cases undecided
      | text text => cases undecided

theorem parallelProcessAnswer_some (which : Nat) {given : Option Answer} {answer : Answer}
    (decided : given.filter Answer.decides = some answer) (errorless : s.numErrors = 0)
    (session : SentenceSession) :
    ∃ e, a.parallelProcessAnswer (session.withError .none) s which given =
        (some answer.accepts, session.withError e) ∧
      (e = .none ↔ answer.grants = true) := by
  obtain ⟨given_, decides⟩ := Option.filter_eq_some_iff.mp decided
  subst given_
  have blamed : parallelProcessAnswer.blamed a (session.withError .none) s which =
      session.withError (a.makeErrorMessage (session.withError .none) which) := by
    rw [parallelProcessAnswer.blamed, if_pos errorless]
    rfl
  have refused : a.makeErrorMessage (session.withError .none) which ≠ .none := by
    rw [makeErrorMessage]
    exact ParserErrorInfo.noConfusion
  cases answer with
  | other => cases decides
  | void =>
      exact ⟨_, congrArg _ blamed, iff_of_false refused Bool.false_ne_true⟩
  | number n =>
      rw [parallelProcessAnswer, Answer.accepts, Answer.grants]
      by_cases zero : n = 0
      · rw [if_neg (not_not_intro zero), blamed]
        exact ⟨_, by simp [zero], iff_of_false refused (by simp [zero])⟩
      · rw [if_pos zero]
        exact ⟨.none, by simp [zero], by simp [zero]⟩
  | text text =>
      unfold parallelProcessAnswer
      split
      · cases ‹_›
      · cases ‹_›
      · next marked =>
          cases marked
          exact ⟨_, rfl, iff_of_false ParserErrorInfo.noConfusion Bool.false_ne_true⟩
      · next plain said =>
          cases said
          refine ⟨_, congrArg (fun accepted => (some accepted, _)) ?_,
            iff_of_false ParserErrorInfo.noConfusion Bool.false_ne_true⟩
          unfold Answer.accepts
          split
          · cases ‹_›
          · next marked =>
              cases marked
              exact absurd rfl (plain _)
          · rfl
          · cases ‹_›
          · cases ‹_›
      · cases ‹_›
      · cases ‹_›

theorem probeOn_spec (ob candidate : ObjectId) (probe : which ≠ 3)
    (errorless : s.numErrors = 0) (tries : List Nat) (session : SentenceSession) :
    (a.asked session ob candidate which tries = none ∧
        a.probeOn ob candidate (session.withError .none) s which tries =
          (none, session.withError .none)) ∨
      ∃ answer e, a.asked session ob candidate which tries = some answer ∧
        a.probeOn ob candidate (session.withError .none) s which tries =
          (some answer.accepts, session.withError e) ∧ (e = .none ↔ answer.grants = true) := by
  rw [← (Alike.withError session .none).asked probe]
  induction tries with
  | nil => exact .inl ⟨rfl, rfl⟩
  | cons tryIdx tries ih =>
      rw [probeOn, asked, List.findSome?_cons]
      cases decided : (a.ask (session.withError .none) ob which tryIdx
          (.object candidate)).filter Answer.decides with
      | none =>
          rw [parallelProcessAnswer_none decided]
          exact ih
      | some answer =>
          obtain ⟨e, processed, silent⟩ := parallelProcessAnswer_some (a := a) which decided
            errorless session
          rw [processed]
          exact .inr ⟨answer, e, rfl, rfl, silent⟩

/-- A probe accepts its candidate or not, and is silent if a number other than 0 was
answered. -/
theorem parallelCheckFunctions_eq (probe : which ≠ 3) (errorless : s.numErrors = 0)
    (live : (a.live session.loaded.objects number).isSome)
    (handler : a.destructed a.node.handler = false) :
    ∃ e, a.parallelCheckFunctions session s number which =
        ((a.answer session which number).any Answer.accepts, session.withError e) ∧
      (e = .none ↔ (a.answer session which number).any Answer.grants = true) := by
  obtain ⟨candidate, found⟩ := Option.isSome_iff_exists.mp live
  rw [answer, found, handler, Option.bind_some, if_neg Bool.false_ne_true]
  unfold parallelCheckFunctions
  dsimp only
  rw [show a.live (session.withError .none).loaded.objects number = some candidate from found]
  dsimp only
  rcases probeOn_spec (a := a) candidate candidate probe errorless fourTries session with
    ⟨silent, own⟩ | ⟨answer, e, decided, own, granted⟩
  · rw [silent, own, Option.none_or]
    dsimp only
    rw [handler, if_neg Bool.false_ne_true]
    rcases probeOn_spec (a := a) a.node.handler candidate probe errorless fourTries session with
      ⟨silent', handlers⟩ | ⟨answer, e, decided, handlers, granted⟩
    · rw [silent', handlers]
      dsimp only
      rw [if_pos errorless]
      exact ⟨_, rfl, iff_of_false nofun Bool.false_ne_true⟩
    · rw [decided, handlers]
      exact ⟨e, rfl, granted⟩
  · rw [decided, own, Option.some_or]
    exact ⟨e, rfl, granted⟩

end Attempt

/-! ## Interpretations -/

/-- One of two object matches, before it is probed. -/
structure ObjectMatch (a : Attempt) (session : SentenceSession) (slot : Nat) : Prop where
  object : ∃ modifiers, (session.slot slot).token = .object modifiers
  live : ∀ i ∈ members (session.slot slot).obs, (a.live session.loaded.objects i).isSome
  /-- `parseObj` takes no plural behind an ordinal. -/
  plain : (session.slot slot).token.plural = true → (session.slot slot).ordinal = 0
  /-- A singular has candidates; a check that takes the last one makes an error of it. -/
  nonempty : (session.slot slot).token.plural = false → members (session.slot slot).obs ≠ []

/-- A complete interpretation of a rule with two object tokens, when `weAreFinished` begins to
probe it. -/
structure TwoObjects (a : Attempt) where
  session : SentenceSession
  state : MatchState
  directSlot : Nat
  indirectSlot : Nat
  errorless : state.numErrors = 0
  numObjs : state.numObjs = 2
  ordered : directSlot < indirectSlot
  inside : indirectSlot < state.numMatches
  others : ∀ k < state.numMatches, k ≠ directSlot → k ≠ indirectSlot →
    (session.slot k).token = .str ∨ (session.slot k).token = .wrd
  directMatch : ObjectMatch a session directSlot
  indirectMatch : ObjectMatch a session indirectSlot
  first : firstObject a.node.tokens 0 = some directSlot
  handler : a.destructed a.node.handler = false

namespace TwoObjects

variable {a : Attempt} (e : TwoObjects a)

def direct : SentenceMatch :=
  e.session.slot e.directSlot

def indirect : SentenceMatch :=
  e.session.slot e.indirectSlot

def directUnique : Bool :=
  !e.direct.token.plural

def indirectUnique : Bool :=
  !e.indirect.token.plural

/-- The session of the first probe. -/
def cleared : SentenceSession :=
  { e.session with parallelErrors := [] }

/-- The session of the first probe of an indirect candidate; the callbacks get the direct
match. -/
def between : SentenceSession :=
  (a.checkMatch e.cleared e.state 1 e.directSlot).1

/-- The direct candidates that are granted, in order. -/
def directs : List Nat :=
  (members e.direct.obs).filter fun i => (a.answer e.cleared 1 i).any Answer.grants

/-- The indirect candidates that are granted, in order. -/
def indirects : List Nat :=
  (members e.indirect.obs).filter fun i => (a.answer e.between 2 i).any Answer.grants

/-- What a relational probe of a pair answers: 4 asks the direct object, and 5 the indirect
one. -/
def relation (which : Nat) (pair : Nat × Nat) : Option Answer :=
  a.answer { e.session with directObject := some pair.1, indirectObject := some pair.2 } which
    (if which = 4 then pair.1 else pair.2)

/-- The pairs that all four probes grant. -/
def related : List (Nat × Nat) :=
  (e.directs ×ˢ e.indirects).filter fun pair =>
    (e.relation 4 pair).any Answer.grants && (e.relation 5 pair).any Answer.grants

/-- What `weAreFinished` comes to. -/
def outcome : SentenceSession × MatchState :=
  a.checks e.session e.state

/-- The interpretation becomes the best match. -/
def Accepted : Prop :=
  e.outcome.2.numErrors = 0

/-- The object that `do_` receives for a singular match. -/
def receives (slot : Nat) : Option Nat :=
  (e.outcome.1.slot slot).number

/-- The objects that `do_` receives for a plural match. -/
def receivesAll (slot : Nat) : List Nat :=
  members (e.outcome.1.slot slot).obs

end TwoObjects

end Kjdmud.Efun.ParserPackage
