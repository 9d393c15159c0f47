import Kjdmud.Efun.Explode
import Kjdmud.Lib.Spans
import Kjdmud.Lib.Utf8
import Kjdmud.Vm.Operators

/-!
# Splitting by regular expressions

`regexplode`, `reg_assoc`, `pcre_assoc` and `pcre_match_all` of `src/efun/EfunTable.cpp`.  The
regular expression library is not part of the source: it is what compiles a pattern, and gives
for a subject and a start offset no match, an error or the spans of a match.
-/

namespace Kjdmud.Efun.Regex

open Kjdmud.Efun.Explode (newStrings)
open Kjdmud.Lib.Spans
open Kjdmud.Utf8 (IsTail Valid)
open Kjdmud.Vm (Value World)

/-! ## The library -/

/-- The options of `pcre2_compile`. -/
structure CompileOptions where
  utf : Bool := false
  caseless : Bool := false
  multiline : Bool := false
  dotall : Bool := false
  ungreedy : Bool := false
  extended : Bool := false

/-- The options of `pcre2_match`. -/
structure MatchOptions where
  anchored : Bool := false
  notEmptyAtStart : Bool := false

/-- The spans of a match, and of its groups, as far as these took part. -/
structure Found where
  start : Nat
  stop : Nat
  groups : List (Option (Nat × Nat)) := []

/-- The result of `pcre2_match`. -/
inductive Outcome
  | noMatch
  | error
  | found (found : Found)

/-- An offset inside a multi-byte character. -/
def Inside (subject : Str) (offset : Nat) : Prop :=
  ∃ c, subject[offset]? = some c ∧ IsTail c

/-- A regular expression library.  Offsets are bytes; a pattern that was compiled with `utf`
takes the subject for characters, and refuses to start inside one. -/
structure Engine where
  Code : Type
  /-- A compiled pattern, or the text of the error. -/
  compile : Str → CompileOptions → Except Str Code
  run : Code → Str → Nat → MatchOptions → Outcome
  span {code : Code} {subject : Str} {offset : Nat} {options : MatchOptions} {f : Found} :
    run code subject offset options = .found f →
      offset ≤ f.start ∧ f.start ≤ f.stop ∧ f.stop ≤ subject.length
  bytes {pattern : Str} {compileOptions : CompileOptions} {code : Code} {subject : Str}
      {offset : Nat} {options : MatchOptions} :
    compile pattern compileOptions = .ok code → compileOptions.utf = false →
      offset ≤ subject.length → run code subject offset options ≠ .error
  characters {pattern : Str} {compileOptions : CompileOptions} {code : Code} {subject : Str}
      {offset : Nat} {options : MatchOptions} :
    compile pattern compileOptions = .ok code → compileOptions.utf = true → Valid subject →
      offset ≤ subject.length → (run code subject offset options = .error ↔ Inside subject offset)
  whole {pattern : Str} {compileOptions : CompileOptions} {code : Code} {subject : Str}
      {offset : Nat} {options : MatchOptions} {f : Found} :
    compile pattern compileOptions = .ok code → compileOptions.utf = true → Valid subject →
      run code subject offset options = .found f → ¬ Inside subject f.stop

variable (engine : Engine)

/-- The error of `regexFindNext`. -/
def matchError : Str := str "regexp: match error"

/-- `Match`. -/
structure Match where
  start : Nat
  stop : Nat
  tokIdx : Nat

/-- The span of a match. -/
def Match.span (m : Match) : Nat × Nat :=
  (m.start, m.stop)

/-- The loop over the matches that fills the two arrays. -/
def assemble (subject : Str) (tokens : List Value) (default : Value) :
    (cursor : Nat) → List Match → List Str × List Value
  | cursor, [] => ([subject.drop cursor], [default])
  | cursor, m :: ms =>
      let (texts, values) := assemble subject tokens default m.stop ms
      (slice subject cursor m.start :: slice subject m.start m.stop :: texts,
        default :: (tokens[m.tokIdx]?).getD Value.void :: values)

end Kjdmud.Efun.Regex
