import Kjdmud.Vm.Sscanf.Formats
import Mathlib.Logic.Relation

/-!
# What a successful `sscanf` says about its input

A round of the scanner passes over some pieces of the format and over the
input they match.  The relation `Passes` says which; the rounds of a run
compose, and what it says of texts, counts and outputs follows by induction on
its derivations.
-/

namespace Kjdmud.Vm

/-! ## Passing over pieces -/

/-- The pieces and the input passed over up to `left` and `rest`, with the
outcome grown to `final` on the way. -/
inductive Passes (maxAssigns : Nat) (left : List FormatPiece) (rest : Str)
    (final : SscanfOutcome) :
    List FormatPiece → Str → SscanfOutcome → List FormatPiece → List Str → Prop
  | done : Passes maxAssigns left rest final left rest final [] []
  | byte {c plain pieces input out matched texts}
      (passes : Passes maxAssigns left rest final pieces input out matched texts) :
      Passes maxAssigns left rest final (.byte c plain :: pieces) (c :: input) out
        (.byte c plain :: matched) texts
  | percent {pieces input} {out : SscanfOutcome} {matched texts}
      (passes : Passes maxAssigns left rest final pieces input
        { out with matchCount := out.matchCount + 1 } matched texts) :
      Passes maxAssigns left rest final (.percent :: pieces) (percent :: input) out
        (.percent :: matched) texts
  | string {skip pieces text input} {out out' : SscanfOutcome} {matched texts}
      (records : out.record maxAssigns skip (Value.string text) = .ok out')
      (shortest : Shortest text input pieces)
      (passes : Passes maxAssigns left rest final pieces input out' matched texts) :
      Passes maxAssigns left rest final (.string skip :: pieces) (text ++ input) out
        (.string skip :: matched) (text :: texts)

namespace Passes

variable {maxAssigns : Nat} {pieces left middle matched matched' : List FormatPiece}
  {input rest between : Str} {out final inter : SscanfOutcome}
  {texts texts' : List Str}

/-- Two stretches in a row are one. -/
theorem trans
    (first : Passes maxAssigns middle between inter pieces input out matched texts)
    (second : Passes maxAssigns left rest final middle between inter matched' texts') :
    Passes maxAssigns left rest final pieces input out (matched ++ matched')
      (texts ++ texts') := by
  induction first with
  | done => exact second
  | byte _ ih => exact .byte ih
  | percent _ ih => exact .percent ih
  | string records shortest _ ih => exact .string records shortest ih

theorem split
    (passes : Passes maxAssigns left rest final pieces input out matched texts) :
    pieces = matched ++ left := by
  induction passes with
  | done => rfl
  | byte _ ih => rw [List.cons_append, ← ih]
  | percent _ ih => rw [List.cons_append, ← ih]
  | string _ _ _ ih => rw [List.cons_append, ← ih]

theorem texts_length
    (passes : Passes maxAssigns left rest final pieces input out matched texts) :
    texts.length = strings matched := by
  induction passes with
  | done => rfl
  | byte _ ih => exact ih
  | percent _ ih => exact ih
  | string _ _ _ ih => simp [strings, ih]

theorem filled
    (passes : Passes maxAssigns left rest final pieces input out matched texts) :
    input = fill matched texts ++ rest := by
  induction passes with
  | done => rfl
  | byte _ ih => rw [fill, List.cons_append, ← ih]
  | percent _ ih => rw [fill, List.cons_append, ← ih]
  | string _ _ _ ih => rw [fill, List.append_assoc, ← ih]

theorem allShortest
    (passes : Passes maxAssigns left rest final pieces input out matched texts) :
    AllShortest left rest matched texts := by
  induction passes with
  | done => trivial
  | byte _ ih => exact ih
  | percent _ ih => exact ih
  | string _ shortest passes ih =>
      rw [AllShortest, ← passes.filled, ← passes.split]
      exact ⟨shortest, ih⟩

end Passes

/-- What `SscanfOutcome.record` leaves. -/
theorem SscanfOutcome.record_eq_ok {maxAssigns : Nat} {skip : Bool} {v : Value}
    {out out' : SscanfOutcome} (records : out.record maxAssigns skip v = .ok out') :
    out'.matchCount = out.matchCount + 1 ∧
      out'.assigned = out.assigned ++ (if skip then [] else [v]) ∧
      (out.assigned.length ≤ maxAssigns → out'.assigned.length ≤ maxAssigns) := by
  cases skip with
  | true =>
      cases records
      simp
  | false =>
      simp only [SscanfOutcome.record, Bool.false_eq_true, if_false] at records
      split at records
      · cases records
      · next free =>
          cases records
          simp only [Bool.false_eq_true, if_false, List.length_append,
            List.length_singleton, true_and]
          omega

namespace Passes

variable {maxAssigns : Nat} {pieces left matched : List FormatPiece}
  {input rest : Str} {out final : SscanfOutcome} {texts : List Str}

theorem assigned
    (passes : Passes maxAssigns left rest final pieces input out matched texts) :
    final.assigned = out.assigned ++ (unskipped matched texts).map Value.string := by
  induction passes with
  | done => simp [unskipped]
  | byte _ ih => exact ih
  | percent _ ih => exact ih
  | @string skip _ _ _ _ _ _ _ records _ _ ih =>
      rw [ih, (SscanfOutcome.record_eq_ok records).2.1]
      cases skip <;> simp [unskipped]

theorem matchCount
    (passes : Passes maxAssigns left rest final pieces input out matched texts) :
    final.matchCount = out.matchCount + specifiers matched := by
  induction passes with
  | done => rfl
  | byte _ ih => exact ih
  | percent _ ih =>
      rw [ih, specifiers]
      simp only
      omega
  | string records _ _ ih =>
      rw [ih, specifiers, (SscanfOutcome.record_eq_ok records).1]
      omega

theorem bounded
    (passes : Passes maxAssigns left rest final pieces input out matched texts)
    (fits : out.assigned.length ≤ maxAssigns) :
    final.assigned.length ≤ maxAssigns := by
  induction passes with
  | done => exact fits
  | byte _ ih => exact ih fits
  | percent _ ih => exact ih fits
  | string records _ _ ih =>
      exact ih ((SscanfOutcome.record_eq_ok records).2.2 fits)

end Passes

/-! ## Searching -/

/-- `findDelimiter` finds the first occurrence. -/
theorem findDelimiter_eq_some {delim s : Str} {n : Nat}
    (finds : findDelimiter delim s = some n) :
    delim <+: s.drop n ∧ n ≤ s.length ∧ ∀ k < n, ¬ delim <+: s.drop k := by
  induction s generalizing n with
  | nil =>
      rw [findDelimiter] at finds
      split at finds
      · next empty =>
          cases finds
          simp_all
      · cases finds
  | cons c s ih =>
      rw [findDelimiter] at finds
      split at finds
      · next here =>
          cases finds
          simpa using here
      · next later =>
          simp only [Option.map_eq_some_iff] at finds
          rcases finds with ⟨m, finds, rfl⟩
          rcases ih finds with ⟨found, inside, first⟩
          refine ⟨found, by simpa using inside, ?_⟩
          intro k small
          cases k with
          | zero => simpa using later
          | succ k => exact first k (by omega)

/-- `findDelimiter` fails on a delimiter that occurs nowhere. -/
theorem findDelimiter_eq_none {delim s : Str} (missing : findDelimiter delim s = none)
    (k : Nat) : ¬ delim <+: s.drop k := by
  induction s generalizing k with
  | nil =>
      rw [findDelimiter] at missing
      split at missing
      · cases missing
      · next nonempty => simpa using nonempty
  | cons c s ih =>
      rw [findDelimiter] at missing
      split at missing
      · cases missing
      · next later =>
          cases k with
          | zero => simpa using later
          | succ k => exact ih (by simpa using missing) k

/-- The scan for a percent sign stops in front of the first one. -/
theorem scanUntil_percent (s : Str) (k : Nat)
    (small : k < scanUntil (fun s => s.head? == some percent) s) :
    ¬ [percent] <+: s.drop k := by
  induction s generalizing k with
  | nil => simp [scanUntil] at small
  | cons c s ih =>
      rw [scanUntil] at small
      split at small
      · omega
      · next later =>
          cases k with
          | zero =>
              rintro ⟨_, same⟩
              cases same
              exact later (beq_self_eq_true _)
          | succ k => exact ih k (by omega)

/-! ## The bytes of the pieces -/

/-- The format of pieces starts with their literal run. -/
theorem takeWhile_formatOf (pieces : List FormatPiece) :
    (formatOf pieces).takeWhile (· != percent) = nextLiteral.literalRun pieces := by
  induction pieces with
  | nil => rfl
  | cons piece pieces ih =>
      cases piece with
      | byte c plain =>
          simp only [formatOf, FormatPiece.text, List.singleton_append,
            nextLiteral.literalRun]
          rw [List.takeWhile_cons_of_pos (by simpa using plain), ih]
      | percent => rfl
      | string skip => cases skip <;> rfl

/-- Passing over a literal run. -/
theorem passes_literalRun (maxAssigns : Nat) (pieces : List FormatPiece) (input : Str)
    (out : SscanfOutcome) :
    ∃ matched left,
      Passes maxAssigns left input out pieces (nextLiteral.literalRun pieces ++ input) out
        matched [] ∧
      formatOf left = (formatOf pieces).drop (nextLiteral.literalRun pieces).length := by
  induction pieces with
  | nil => exact ⟨[], [], .done, rfl⟩
  | cons piece pieces ih =>
      cases piece with
      | byte c plain =>
          rcases ih with ⟨matched, left, passes, format⟩
          exact ⟨.byte c plain :: matched, left, .byte passes, format⟩
      | percent => exact ⟨[], .percent :: pieces, .done, rfl⟩
      | string skip => exact ⟨[], .string skip :: pieces, .done, rfl⟩

/-! ## One round -/

section Round

variable {lib : ScanLibrary} {whole : Str} {maxAssigns : Nat}

/-- The loop is at the end of the format, or at a `%s` that ends it. -/
def AtEnd (input format : Str) : Prop :=
  ∃ rest, matchLiteral input format = some (rest, []) ∨
    matchLiteral input format = some (rest, [percent, byte 's']) ∨
    matchLiteral input format = some (rest, [percent, star, byte 's'])

/-- The outcome with what is left of the input assigned when the format is at
its end. -/
def SscanfOutcome.finish (out : SscanfOutcome) (maxAssigns : Nat)
    (left : List FormatPiece) (rest : Str) : SscanfOutcome :=
  let texts := leftover maxAssigns out.assigned.length left rest
  ⟨out.matchCount + texts.length, out.assigned ++ texts.map Value.string⟩

/-- What one round says of the pieces it starts from. -/
def RoundScans (maxAssigns : Nat) (pieces : List FormatPiece) (input : Str)
    (out : SscanfOutcome) : ScanRound → Prop
  | .done final =>
      ∃ before matched left texts rest,
        Passes maxAssigns left rest before pieces input out matched texts ∧
          Stuck left rest ∧ final = before.finish maxAssigns left rest ∧
          (left = [] ↔ AtEnd input (formatOf pieces))
  | .more out' input' format' =>
      ∃ matched left texts,
        Passes maxAssigns left input' out' pieces input out matched texts ∧
          matched ≠ [] ∧ format' = formatOf left ∧ ¬ AtEnd input (formatOf pieces)

theorem matchLiteral_byte {c : UInt8} (plain : c ≠ percent) (input format : Str) :
    matchLiteral (c :: input) (c :: format) = matchLiteral input format := by
  simp [matchLiteral, plain]

theorem matchLiteral_mismatch {c : UInt8} (plain : c ≠ percent) {input : Str}
    (differs : input.head? ≠ some c) (format : Str) :
    matchLiteral input (c :: format) = none := by
  cases input with
  | nil => simp [matchLiteral, plain]
  | cons d input =>
      simp only [List.head?_cons, ne_eq, Option.some.injEq] at differs
      simp [matchLiteral, plain, differs]

theorem matchLiteral_percent (input format : Str) :
    matchLiteral input (percent :: format) = some (input, percent :: format) := by
  cases input <;> simp [matchLiteral]

theorem atEnd_nil (input : Str) : AtEnd input [] := by
  cases input <;> exact ⟨_, .inl rfl⟩

theorem atEnd_byte {c : UInt8} (plain : c ≠ percent) (input format : Str) :
    AtEnd (c :: input) (c :: format) ↔ AtEnd input format := by
  simp only [AtEnd, matchLiteral_byte plain]

theorem not_atEnd_mismatch {c : UInt8} (plain : c ≠ percent) {input : Str}
    (differs : input.head? ≠ some c) (format : Str) : ¬ AtEnd input (c :: format) := by
  simp [AtEnd, matchLiteral_mismatch plain differs]

theorem not_atEnd_percent (input format : Str) :
    ¬ AtEnd input (percent :: percent :: format) := by
  simp only [AtEnd, matchLiteral_percent, Option.some.injEq, Prod.mk.injEq]
  rintro ⟨_, ⟨_, h⟩ | ⟨_, h⟩ | ⟨_, h⟩⟩ <;> simp [percent, star, byte] at h

theorem formatOf_eq_nil {pieces : List FormatPiece} :
    formatOf pieces = [] ↔ pieces = [] := by
  cases pieces with
  | nil => simp [formatOf]
  | cons piece pieces =>
      cases piece with
      | byte c plain => simp [formatOf, FormatPiece.text]
      | percent => simp [formatOf, FormatPiece.text]
      | string skip => cases skip <;> simp [formatOf, FormatPiece.text]

theorem atEnd_string (skip : Bool) (input : Str) (pieces : List FormatPiece) :
    AtEnd input (formatOf (.string skip :: pieces)) ↔ pieces = [] := by
  rw [← formatOf_eq_nil]
  have letter : byte 's' ≠ star := by decide
  cases skip <;>
    simp [AtEnd, formatOf, FormatPiece.text, matchLiteral_percent, letter, letter.symm]

/-- A round in front of `%%`. -/
theorem scanRound_percent (out : SscanfOutcome) (input format : Str) :
    scanRound lib whole maxAssigns out input (percent :: percent :: format) =
      if input.head? = some percent then
        .ok (.more { out with matchCount := out.matchCount + 1 } (input.drop 1) format)
      else .ok (.done out) := by
  simp only [scanRound, matchLiteral_percent, if_true]
  rfl

/-- The specifier `s` is the `%s` case. -/
theorem scanSpecifier_s (skip : Bool) (out : SscanfOutcome) (input format : Str) :
    scanSpecifier lib whole maxAssigns skip (byte 's') out input format =
      scanString lib whole maxAssigns skip out input format := by
  rw [scanSpecifier, if_neg (by decide), if_neg (by decide), if_neg (by decide),
    if_pos rfl]

/-- A round in front of `%s`. -/
theorem scanRound_string (skip : Bool) (out : SscanfOutcome) (input format : Str) :
    scanRound lib whole maxAssigns out input ((FormatPiece.string skip).text ++ format) =
      scanString lib whole maxAssigns skip out input format := by
  have letter : byte 's' ≠ percent := by decide
  have other : byte 's' ≠ star := by decide
  have starred : star ≠ percent := by decide
  cases skip with
  | false =>
      simp only [FormatPiece.text, List.cons_append, List.nil_append, scanRound,
        matchLiteral_percent, if_neg letter, if_neg other, scanSpecifier_s]
  | true =>
      simp only [FormatPiece.text, List.cons_append, List.nil_append, scanRound,
        matchLiteral_percent, if_neg starred, if_true, scanSpecifier_s]

/-- A byte of the format in front of a round. -/
theorem RoundScans.byte {c : UInt8} {plain : c ≠ percent} {pieces : List FormatPiece}
    {input : Str} {out : SscanfOutcome} {round : ScanRound}
    (scans : RoundScans maxAssigns pieces input out round) :
    RoundScans maxAssigns (.byte c plain :: pieces) (c :: input) out round := by
  have ends : AtEnd (c :: input) (formatOf (.byte c plain :: pieces)) ↔
      AtEnd input (formatOf pieces) := atEnd_byte plain input (formatOf pieces)
  cases round with
  | done final =>
      rcases scans with ⟨before, matched, left, texts, rest, passes, stuck, finished, ended⟩
      exact ⟨before, .byte c plain :: matched, left, texts, rest, .byte passes, stuck,
        finished, ended.trans ends.symm⟩
  | more out' input' format' =>
      rcases scans with ⟨matched, left, texts, passes, _, format, goesOn⟩
      exact ⟨.byte c plain :: matched, left, texts, .byte passes, List.cons_ne_nil _ _,
        format, fun ended => goesOn (ends.mp ended)⟩

/-- A round that matches nothing. -/
theorem RoundScans.stop {pieces : List FormatPiece} {input : Str} {out : SscanfOutcome}
    (some_left : pieces ≠ []) (stuck : Stuck pieces input)
    (goesOn : ¬ AtEnd input (formatOf pieces)) :
    RoundScans maxAssigns pieces input out (.done out) := by
  refine ⟨out, [], pieces, [], input, .done, stuck, ?_, ?_⟩
  · cases pieces with
    | nil => exact absurd rfl some_left
    | cons piece pieces => simp [SscanfOutcome.finish, leftover]
  · exact ⟨fun none_left => absurd none_left some_left, fun ended => absurd ended goesOn⟩

theorem RoundScans.ended (input : Str) (out : SscanfOutcome) {final : SscanfOutcome}
    (finished : final = out.finish maxAssigns [] input) :
    RoundScans maxAssigns [] input out (.done final) :=
  ⟨out, [], [], [], input, .done, trivial, finished, by simp [formatOf, atEnd_nil]⟩

/-- In front of `%%` a `%s` runs up to the first percent sign. -/
theorem adjacentSscanfBoundary_percent (format input : Str) :
    adjacentSscanfBoundary lib (percent :: percent :: format) whole input =
      .ok (scanUntil (fun s => s.head? == some percent) input) := by
  have other : percent ≠ star := by decide
  simp only [adjacentSscanfBoundary, List.drop_succ_cons, List.drop_zero,
    List.head?_cons, Option.some.injEq, if_neg other]
  rw [if_neg (by decide), if_neg (by decide), if_neg (by decide), if_neg (by decide)]
  rfl

/-- The `%s` case of a round. -/
theorem scanString_scans {skip : Bool} {pieces : List FormatPiece}
    (separated : Separated (.string skip :: pieces)) {out : SscanfOutcome} {input : Str}
    {round : ScanRound}
    (scans : scanString lib whole maxAssigns skip out input (formatOf pieces) = .ok round) :
    RoundScans maxAssigns (.string skip :: pieces) input out round := by
  cases pieces with
  | nil =>
      simp only [scanString, formatOf, bind, Except.bind] at scans
      split at scans
      · cases scans
      · next out' records =>
          cases scans
          have passes : Passes maxAssigns [] [] out' [.string skip] (input ++ []) out
              [.string skip] [input] := .string records (.inl rfl) .done
          rw [List.append_nil] at passes
          refine ⟨out', _, [], _, [], passes, trivial, ?_, ?_⟩
          · simp [SscanfOutcome.finish, leftover]
          · simp only [atEnd_string]
  | cons piece pieces =>
      have goesOn : ¬ AtEnd input (formatOf (.string skip :: piece :: pieces)) := by
        rw [atEnd_string]
        exact List.cons_ne_nil _ _
      cases piece with
      | byte c plain =>
          have delim : (formatOf (.byte c plain :: pieces)).takeWhile (· != percent) =
              nextLiteral (.byte c plain :: pieces) :=
            takeWhile_formatOf (.byte c plain :: pieces)
          simp only [scanString, formatOf, FormatPiece.text, List.singleton_append,
            if_neg plain] at scans delim
          rw [delim] at scans
          cases finds : findDelimiter (nextLiteral (.byte c plain :: pieces)) input with
          | none =>
              rw [finds] at scans
              cases scans
              exact .stop (List.cons_ne_nil _ _) (findDelimiter_eq_none finds) goesOn
          | some found =>
              rw [finds] at scans
              simp only [ScanRound.matched, bind, Except.bind] at scans
              split at scans
              · cases scans
              · next out' records =>
                  cases scans
                  rcases findDelimiter_eq_some finds with ⟨⟨rest, starts⟩, inside, first⟩
                  rcases passes_literalRun maxAssigns (.byte c plain :: pieces) rest out'
                    with ⟨matched, left, passes, format⟩
                  have parts : input.take found ++
                      (nextLiteral (.byte c plain :: pieces) ++ rest) = input := by
                    rw [starts, List.take_append_drop]
                  have behind : input.drop (found +
                      (nextLiteral (.byte c plain :: pieces)).length) = rest := by
                    rw [← List.drop_drop, ← starts, List.drop_left]
                  have shortest : Shortest (input.take found)
                      (nextLiteral (.byte c plain :: pieces) ++ rest)
                      (.byte c plain :: pieces) := by
                    right
                    rw [parts]
                    intro k small
                    exact first k (by simp only [List.length_take] at small; omega)
                  have all := Passes.string records shortest passes
                  rw [parts, ← behind] at all
                  exact ⟨.string skip :: matched, left, _, all, List.cons_ne_nil _ _,
                    format.symm, goesOn⟩
      | percent =>
          simp only [scanString, formatOf, FormatPiece.text, List.cons_append,
            List.nil_append, if_true, adjacentSscanfBoundary_percent, ScanRound.matched,
            bind, Except.bind] at scans
          split at scans
          · cases scans
          · next out' records =>
              cases scans
              have parts := List.take_append_drop
                (scanUntil (fun s => s.head? == some percent) input) input
              have shortest : Shortest
                  (input.take (scanUntil (fun s => s.head? == some percent) input))
                  (input.drop (scanUntil (fun s => s.head? == some percent) input))
                  (.percent :: pieces) := by
                right
                rw [parts]
                intro k small
                exact scanUntil_percent input k
                  (by simp only [List.length_take] at small; omega)
              have all := Passes.string records shortest .done
              rw [parts] at all
              exact ⟨[.string skip], .percent :: pieces, _, all, List.cons_ne_nil _ _,
                rfl, goesOn⟩
      | string skip' => exact absurd separated (by simp [Separated])

/-- Each round passes over pieces of the format, or ends the scan where the
next piece does not match. -/
theorem scanRound_scans {pieces : List FormatPiece} (separated : Separated pieces)
    {out : SscanfOutcome} {input : Str} {round : ScanRound}
    (scans : scanRound lib whole maxAssigns out input (formatOf pieces) = .ok round) :
    RoundScans maxAssigns pieces input out round := by
  induction pieces generalizing input with
  | nil =>
      have text : matchLiteral input [] = some (input, []) := by
        cases input <;> rfl
      simp only [formatOf, scanRound, text, Bool.and_eq_true, Bool.not_eq_true',
        List.isEmpty_eq_false_iff, decide_eq_true_eq] at scans
      split at scans
      · next spare =>
          cases scans
          exact .ended input out (by simp [SscanfOutcome.finish, leftover, spare])
      · next spare =>
          cases scans
          exact .ended input out (by simp [SscanfOutcome.finish, leftover, spare])
  | cons piece pieces ih =>
      cases piece with
      | byte c plain =>
          by_cases starts : input.head? = some c
          · rcases List.head?_eq_some_iff.mp starts with ⟨input, rfl⟩
            apply RoundScans.byte
            apply ih separated.tail
            simpa only [scanRound, formatOf, FormatPiece.text, List.singleton_append,
              matchLiteral_byte plain] using scans
          · simp only [scanRound, formatOf, FormatPiece.text, List.singleton_append,
              matchLiteral_mismatch plain starts] at scans
            cases scans
            exact .stop (List.cons_ne_nil _ _) starts (not_atEnd_mismatch plain starts _)
      | percent =>
          simp only [formatOf, FormatPiece.text, List.cons_append, List.nil_append,
            scanRound_percent] at scans
          split at scans
          · next starts =>
              rcases List.head?_eq_some_iff.mp starts with ⟨input, rfl⟩
              cases scans
              exact ⟨[.percent], pieces, [], .percent .done, List.cons_ne_nil _ _, rfl,
                not_atEnd_percent _ _⟩
          · next differs =>
              cases scans
              exact .stop (List.cons_ne_nil _ _) differs (not_atEnd_percent _ _)
      | string skip =>
          rw [formatOf, scanRound_string] at scans
          exact scanString_scans separated scans

/-! ## Whole runs -/

/-- A round that continues from one position of the loop to the next. -/
def ScanStep (lib : ScanLibrary) (whole : Str) (maxAssigns : Nat) :
    SscanfOutcome × Str × Str → SscanfOutcome × Str × Str → Prop
  | (out, input, format), (out', input', format') =>
      scanRound lib whole maxAssigns out input format = .ok (.more out' input' format')

/-- The positions the loop goes through from one on. -/
def ScanSteps (lib : ScanLibrary) (whole : Str) (maxAssigns : Nat) :
    SscanfOutcome × Str × Str → SscanfOutcome × Str × Str → Prop :=
  Relation.ReflTransGen (ScanStep lib whole maxAssigns)

/-- The loop comes to the end of the format. -/
def ConsumesFormat (lib : ScanLibrary) (whole : Str) (maxAssigns : Nat)
    (start : SscanfOutcome × Str × Str) : Prop :=
  ∃ position, ScanSteps lib whole maxAssigns start position ∧
    AtEnd position.2.1 position.2.2

/-- The pieces behind a stretch of the scan are still separated. -/
theorem Separated.behind {matched left : List FormatPiece}
    (separated : Separated (matched ++ left)) : Separated left := by
  induction matched with
  | nil => exact separated
  | cons piece matched ih => exact ih separated.tail

/-- Every position the loop reaches is a piece boundary of the format and an
input position behind the pieces passed over. -/
theorem passes_of_steps {pieces : List FormatPiece} (separated : Separated pieces)
    {input : Str} {out : SscanfOutcome} {position : SscanfOutcome × Str × Str}
    (steps : ScanSteps lib whole maxAssigns (out, input, formatOf pieces) position) :
    ∃ matched left texts,
      Passes maxAssigns left position.2.1 position.1 pieces input out matched texts ∧
        position.2.2 = formatOf left := by
  induction steps with
  | refl => exact ⟨[], pieces, [], .done, rfl⟩
  | @tail between next _ step ih =>
      rcases ih with ⟨matched, left, texts, passes, format⟩
      rcases between with ⟨out₁, input₁, format₁⟩
      rcases next with ⟨out₂, input₂, format₂⟩
      cases format
      have rest : Separated left := by
        rw [passes.split] at separated
        exact separated.behind
      rcases scanRound_scans rest step with ⟨matched', left', texts', passes', _, format', _⟩
      exact ⟨matched ++ matched', left', texts ++ texts', passes.trans passes', format'⟩

theorem formatOf_append (matched left : List FormatPiece) :
    formatOf (matched ++ left) = formatOf matched ++ formatOf left := by
  induction matched with
  | nil => rfl
  | cons piece matched ih => rw [List.cons_append, formatOf, ih, formatOf, List.append_assoc]

/-- A round that continues leaves a shorter format. -/
theorem formatOf_shorter {matched : List FormatPiece} (some_matched : matched ≠ [])
    (left : List FormatPiece) :
    (formatOf left).length < (formatOf (matched ++ left)).length := by
  have nonempty : formatOf matched ≠ [] := by rwa [ne_eq, formatOf_eq_nil]
  have := List.length_pos_iff.mpr nonempty
  rw [formatOf_append, List.length_append]
  omega

/-- A position whose round ends the scan consumes the format iff it is at its
end. -/
theorem consumesFormat_done {out final : SscanfOutcome} {input format : Str}
    (scans : scanRound lib whole maxAssigns out input format = .ok (.done final)) :
    ConsumesFormat lib whole maxAssigns (out, input, format) ↔ AtEnd input format := by
  constructor
  · rintro ⟨position, steps, ended⟩
    rcases Relation.ReflTransGen.cases_head steps with rfl | ⟨next, step, _⟩
    · exact ended
    · rw [ScanStep, scans] at step
      cases step
  · intro ended
    exact ⟨_, .refl, ended⟩

/-- A position whose round continues consumes the format iff the next one
does. -/
theorem consumesFormat_more {out out' : SscanfOutcome} {input input' format format' : Str}
    (scans : scanRound lib whole maxAssigns out input format =
      .ok (.more out' input' format'))
    (goesOn : ¬ AtEnd input format) :
    ConsumesFormat lib whole maxAssigns (out, input, format) ↔
      ConsumesFormat lib whole maxAssigns (out', input', format') := by
  constructor
  · rintro ⟨position, steps, ended⟩
    rcases Relation.ReflTransGen.cases_head steps with rfl | ⟨next, step, steps⟩
    · exact absurd ended goesOn
    · rw [ScanStep, scans] at step
      cases step
      exact ⟨position, steps, ended⟩
  · rintro ⟨position, steps, ended⟩
    have step : ScanStep lib whole maxAssigns (out, input, format)
        (out', input', format') := scans
    exact ⟨position, .head step steps, ended⟩

/-- A run of the loop passes over pieces of the format until the next one does
not match. -/
theorem scanLoop_scans {pieces : List FormatPiece} (separated : Separated pieces)
    {input : Str} {out final : SscanfOutcome} {rounds : Nat}
    (enough : (formatOf pieces).length < rounds)
    (scans : scanLoop lib whole maxAssigns rounds out input (formatOf pieces) = .ok final) :
    ∃ before matched left texts rest,
      Passes maxAssigns left rest before pieces input out matched texts ∧
        Stuck left rest ∧ final = before.finish maxAssigns left rest ∧
        (ConsumesFormat lib whole maxAssigns (out, input, formatOf pieces) ↔ left = []) := by
  induction rounds generalizing pieces input out with
  | zero => exact absurd enough (Nat.not_lt_zero _)
  | succ rounds ih =>
      rw [scanLoop] at scans
      cases round : scanRound lib whole maxAssigns out input (formatOf pieces) with
      | error e =>
          rw [round] at scans
          cases scans
      | ok result =>
          rw [round] at scans
          have passed := scanRound_scans separated round
          cases result with
          | done final' =>
              cases scans
              rcases passed with ⟨before, matched, left, texts, rest, passes, stuck,
                finished, ended⟩
              exact ⟨before, matched, left, texts, rest, passes, stuck, finished,
                (consumesFormat_done round).trans ended.symm⟩
          | more out' input' format' =>
              rcases passed with ⟨matched, middle, texts, passes, some_matched, rfl, goesOn⟩
              have parts := passes.split
              have shorter : (formatOf middle).length < rounds := by
                have := formatOf_shorter some_matched middle
                rw [← parts] at this
                omega
              have rest_separated : Separated middle := by
                rw [parts] at separated
                exact separated.behind
              rcases ih rest_separated shorter scans with ⟨before, matched', left, texts',
                rest, passes', stuck, finished, consumed⟩
              exact ⟨before, matched ++ matched', left, texts ++ texts', rest,
                passes.trans passes', stuck, finished,
                (consumesFormat_more round goesOn).trans consumed⟩

/-- What the outcome of a scan holds. -/
theorem Passes.scanned {pieces matched left : List FormatPiece} {input rest : Str}
    {before final : SscanfOutcome} {texts : List Str}
    (passes : Passes maxAssigns left rest before pieces input ⟨0, []⟩ matched texts)
    (stuck : Stuck left rest) (finished : final = before.finish maxAssigns left rest) :
    Scanned maxAssigns pieces input matched left texts rest final := by
  have assigned : before.assigned = (unskipped matched texts).map Value.string := by
    simpa using passes.assigned
  have count : before.matchCount = specifiers matched := by
    simpa using passes.matchCount
  have slots : before.assigned.length = (unskipped matched texts).length := by
    rw [assigned, List.length_map]
  have bounded := passes.bounded (Nat.zero_le _)
  refine ⟨passes.split, passes.texts_length, passes.filled, passes.allShortest, stuck,
    ?_, ?_, ?_⟩
  · rw [finished, SscanfOutcome.finish, slots, List.map_append, ← assigned]
  · rw [finished, SscanfOutcome.finish, slots, count]
  · rw [finished, SscanfOutcome.finish]
    cases left with
    | nil =>
        simp only [leftover, List.length_append, List.length_map]
        split <;> simp <;> omega
    | cons piece left => simpa [leftover] using bounded

/-- For every input and every format of text, `%%` and separated `%s`: a scan
that returns has matched pieces up to some point of the format, all of them if
and only if it consumed the format.  The matched pieces, filled with the texts
found for their `%s`, are the consumed part of the input; every text is as
short as possible; the outputs are the texts that are not skipped, followed by
the rest of the input when an output is left for it, and the count says so.  On
the way the input position only moves forward, inside the input. -/
theorem runSscanf_sound (lib : ScanLibrary) (pieces : List FormatPiece)
    (separated : Separated pieces) (input : Str) (maxAssigns : Nat) :
    (∀ final, runSscanf lib input (formatOf pieces) maxAssigns = .ok final →
      ∃ matched left texts rest,
        Scanned maxAssigns pieces input matched left texts rest final ∧
          (ConsumesFormat lib input maxAssigns (⟨0, []⟩, input, formatOf pieces) ↔
            left = [])) ∧
      ∀ position,
        ScanSteps lib input maxAssigns (⟨0, []⟩, input, formatOf pieces) position →
          (∃ matched left texts, pieces = matched ++ left ∧
            position.2.2 = formatOf left ∧ texts.length = strings matched ∧
            input = fill matched texts ++ position.2.1) ∧
          ∀ next, ScanStep lib input maxAssigns position next →
            next.2.1 <:+ position.2.1 := by
  constructor
  · intro final scans
    rcases scanLoop_scans separated (Nat.lt_succ_self _) scans with ⟨before, matched, left,
      texts, rest, passes, stuck, finished, consumed⟩
    exact ⟨matched, left, texts, rest, passes.scanned stuck finished, consumed⟩
  · intro position steps
    rcases passes_of_steps separated steps with ⟨matched, left, texts, passes, format⟩
    refine ⟨⟨matched, left, texts, passes.split, format, passes.texts_length,
      passes.filled⟩, ?_⟩
    intro next step
    rcases position with ⟨out₁, input₁, format₁⟩
    rcases next with ⟨out₂, input₂, format₂⟩
    cases format
    have rest : Separated left := by
      rw [passes.split] at separated
      exact separated.behind
    rcases scanRound_scans rest step with ⟨matched', left', texts', passes', _⟩
    exact ⟨fill matched' texts', passes'.filled.symm⟩

end Round

/-! ## A sample -/

/-- A library without matches. -/
def noLibrary : ScanLibrary :=
  ⟨fun _ _ _ _ => .ok none, fun _ => none⟩

/-- The format `a%s%%%*sb`. -/
def samplePieces : List FormatPiece :=
  [.byte 97 (by decide), .string false, .percent, .string true, .byte 98 (by decide)]

/-- The scan of `axy%zb!` leaves an exclamation mark for the second output. -/
theorem sample_sound :
    Separated samplePieces ∧ ∃ matched left texts rest,
      Scanned 2 samplePieces (str "axy%zb!") matched left texts rest
          ⟨4, [Value.string (str "xy"), Value.string (str "!")]⟩ ∧
        (ConsumesFormat noLibrary (str "axy%zb!") 2
          (⟨0, []⟩, str "axy%zb!", formatOf samplePieces) ↔ left = []) :=
  ⟨trivial, (runSscanf_sound noLibrary samplePieces trivial (str "axy%zb!") 2).1 _
    (by decide +kernel)⟩

end Kjdmud.Vm
