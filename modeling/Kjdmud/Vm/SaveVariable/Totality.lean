import Kjdmud.Vm.SaveVariable.Reader

/-!
# When the save-format reader comes to an end

The reader's element loops advance only as far as the element reader does, and
that one leaves a byte it does not know unread.  A one-pass scan of the text,
which builds no value, tells exactly which texts are read to an end: inside an
array or mapping every byte outside a string must start a value, separate, or
close the aggregate, and every number must convert.
-/

namespace Kjdmud.SaveVariable

open Fuel Outcome

/-! ## The scan -/

/-- The aggregates a byte can stand in. -/
inductive Bracket
  | array
  | mapping

namespace Bracket

/-- The byte that ends the aggregate. -/
def closer : Bracket → UInt8
  | .array => closeBrace
  | .mapping => closeBracket

/-- The bytes read between two values of the aggregate. -/
def separates : Bracket → UInt8 → Bool
  | .array, c => c == comma
  | .mapping, c => c == comma || c == colon || c == semicolon

end Bracket

/-- The text behind a string entered after its opening quote. -/
def afterString : Str → Str
  | [] => []
  | c :: rest =>
      if c = quote then rest
      else if c = backslash then
        match rest with
        | [] => []
        | _ :: rest => afterString rest
      else afterString rest

/-- The text behind an unsigned number. -/
def afterNumber (s : Str) : Str :=
  let rest := s.dropWhile Decimal.isDigit
  if rest.head? = some point then rest.tail.dropWhile Decimal.isDigit else rest

/-- The first magnitude an `int64_t` of the given sign does not have. -/
def integerLimit (negative : Bool) : Nat :=
  if negative then 2 ^ 63 + 1 else 2 ^ 63

/-- Whether the number conversions accept the token at the front of a text whose
sign has been read: it has a digit, and its value is in range. -/
def convertible (negative : Bool) (s : Str) : Bool :=
  let whole := s.takeWhile Decimal.isDigit
  let rest := s.dropWhile Decimal.isDigit
  if rest.head? = some point then
    let frac := rest.tail.takeWhile Decimal.isDigit
    !(whole ++ frac).isEmpty && (Double.strtod ⟨negative, whole, frac⟩).isSome
  else
    !whole.isEmpty && decide (Decimal.value whole < integerLimit negative)

theorem length_afterString_le (s : Str) : (afterString s).length ≤ s.length := by
  fun_induction afterString s <;> simp only [List.length_cons, List.length_nil] <;> omega

theorem length_dropWhile_le (p : UInt8 → Bool) (s : Str) :
    (s.dropWhile p).length ≤ s.length :=
  (List.dropWhile_suffix p).length_le

theorem length_afterNumber_le (s : Str) :
    (afterNumber s).length ≤ (s.dropWhile Decimal.isDigit).length := by
  simp only [afterNumber]
  split
  · exact (length_dropWhile_le _ _).trans (by simp)
  · exact le_rfl

theorem length_afterNumber_lt {c : UInt8} {rest : Str}
    (starts : c = minus ∨ Decimal.isDigit c = true) :
    (afterNumber (if c = minus then rest else c :: rest)).length < (c :: rest).length := by
  have dropped := length_dropWhile_le Decimal.isDigit rest
  split
  · have := length_afterNumber_le rest
    simp only [List.length_cons]
    omega
  · rename_i unsigned
    have digit : Decimal.isDigit c = true := starts.resolve_left unsigned
    have := length_afterNumber_le (c :: rest)
    rw [List.dropWhile_cons_of_pos digit] at this
    simp only [List.length_cons]
    omega

/-- Scan a text standing inside a stack of open aggregates, innermost first, with an
answer at a class-typed value, which is refused there and then. -/
def scanWith (refused : Bool) : List Bracket → Str → Bool
  | [], _ => true
  | _ :: _, [] => true
  | bracket :: stack, c :: rest =>
      if c = quote then scanWith refused (bracket :: stack) (afterString rest)
      else if c = openParen then
        if rest.head? = some openBrace then
          scanWith refused (.array :: bracket :: stack) rest.tail
        else if rest.head? = some openBracket then
          scanWith refused (.mapping :: bracket :: stack) rest.tail
        else refused
      else if _starts : c = minus ∨ Decimal.isDigit c then
        convertible (c = minus) (if c = minus then rest else c :: rest) &&
          scanWith refused (bracket :: stack)
            (afterNumber (if c = minus then rest else c :: rest))
      else if c = bracket.closer then scanWith refused stack (skipByte closeParen rest)
      else bracket.separates c && scanWith refused (bracket :: stack) rest
termination_by _ s => s.length
decreasing_by
  · have := length_afterString_le rest
    simp only [List.length_cons]
    omega
  · simp only [List.length_tail, List.length_cons]
    omega
  · simp only [List.length_tail, List.length_cons]
    omega
  · exact length_afterNumber_lt _starts
  · have := length_skipByte_le closeParen rest
    simp only [List.length_cons]
    omega
  · simp

/-- Scan what follows an opening parenthesis. -/
def parenWith (refused : Bool) (stack : List Bracket) (rest : Str) : Bool :=
  if rest.head? = some openBrace then scanWith refused (.array :: stack) rest.tail
  else if rest.head? = some openBracket then scanWith refused (.mapping :: stack) rest.tail
  else refused

/-- The texts `parseRealSaveValue` reads to an end, with an answer at a class-typed value. -/
def readableWith (refused : Bool) : Str → Bool
  | [] => true
  | c :: rest =>
      if c = openParen then parenWith refused [] rest
      else if c = minus ∨ Decimal.isDigit c then
        convertible (c = minus) (if c = minus then rest else c :: rest)
      else true

/-- The texts `parseRealSaveValue` reads to an end: a refusal is one. -/
def readableValue (s : Str) : Bool :=
  readableWith true s

/-- The texts `parseRestoreVariableTopLevel` reads to an end: as above, but a lone
minus sign is refused before any conversion. -/
def readable (s : Str) : Bool :=
  (s.head? == some minus && !s.tail.head?.any Decimal.isDigit) || readableValue s

/-! ## Verdicts -/

/-- The exceptions LPC `catch()` traps. -/
def ReadError.trappable : ReadError → Bool
  | .lpc _ => true
  | .invalidArgument | .outOfRange => false

/-- The reader comes to an end, with a value or a trappable exception. -/
def Total {α : Type} (f : Nat → Outcome α) : Prop :=
  ∃ result, Converges f result ∧ ∀ e, result = .error e → e.trappable

/-- How a reader function ends on a text, as the scan predicts it: `scanned` is the
scan of the text it is entered with, and `onward` that of the text it leaves,
which is at most `limit` bytes long. -/
inductive Verdict (refused : Bool) {α : Type} (f : Nat → Outcome (α × Str)) (scanned : List Bracket → Bool)
    (onward : Str → List Bracket → Bool) (limit : Nat) : Prop
  | returns (a : α) (rest : Str) (converges : Converges f (.ok (a, rest)))
      (agree : ∀ stack, scanned stack = onward rest stack) (shorter : rest.length ≤ limit)
  | throws (e : ReadError) (converges : Converges f (.error e))
      (agree : ∀ stack, scanned stack = (e.trappable && refused))
  | diverges (diverges : Diverges f) (agree : ∀ stack, scanned stack = false)

namespace Verdict

variable {refused : Bool} {α β : Type} {f : Nat → Outcome (α × Str)}
  {scanned : List Bracket → Bool} {onward : Str → List Bracket → Bool} {limit : Nat}

theorem weaken {limit' : Nat} (verdict : Verdict refused f scanned onward limit)
    (larger : limit ≤ limit') : Verdict refused f scanned onward limit' := by
  cases verdict with
  | returns a rest converges agree shorter =>
      exact .returns a rest converges agree (shorter.trans larger)
  | throws e converges agree => exact .throws e converges agree
  | diverges diverges agree => exact .diverges diverges agree

/-- The scan may be replaced by an equal one. -/
theorem congr {scanned' : List Bracket → Bool} (verdict : Verdict refused f scanned onward limit)
    (equal : ∀ stack, scanned' stack = scanned stack) : Verdict refused f scanned' onward limit := by
  have same : scanned' = scanned := funext equal
  exact same ▸ verdict

/-- One unfolding of the recursion costs one unit of fuel. -/
theorem step {f : Nat → Outcome (α × Str)}
    (verdict : Verdict refused (fun fuel => f (fuel + 1)) scanned onward limit)
    (zero : f 0 = none) : Verdict refused f scanned onward limit := by
  cases verdict with
  | returns a rest converges agree shorter =>
      exact .returns a rest (converges.step zero) agree shorter
  | throws e converges agree => exact .throws e (converges.step zero) agree
  | diverges diverges agree => exact .diverges (diverges.step zero) agree

/-- A part that returns leaves the verdict to what follows it. -/
theorem afterValue {g : Nat → α × Str → Outcome (β × Str)}
    {a : α} {rest : Str} (first : Converges f (.ok (a, rest)))
    (second : Verdict refused (fun fuel => g fuel (a, rest)) scanned onward limit) :
    Verdict refused (fun fuel => (f fuel).andThen (g fuel)) scanned onward limit := by
  cases second with
  | returns b rest converges agree shorter =>
      exact .returns b rest (converges_andThen first converges) agree shorter
  | throws e converges agree => exact .throws e (converges_andThen first converges) agree
  | diverges diverges agree => exact .diverges (diverges_andThen_right first diverges) agree

/-- Verdicts compose along sequencing. -/
theorem andThen {g : Nat → α × Str → Outcome (β × Str)} {onward' : Str → List Bracket → Bool}
    {limit' : Nat} (first : Verdict refused f scanned onward limit)
    (second : ∀ a rest, rest.length ≤ limit →
      Verdict refused (fun fuel => g fuel (a, rest)) (onward rest) onward' limit') :
    Verdict refused (fun fuel => (f fuel).andThen (g fuel)) scanned onward' limit' := by
  cases first with
  | returns a rest converges agree shorter =>
      exact afterValue converges ((second a rest shorter).congr agree)
  | throws e converges agree =>
      exact .throws e (converges_andThen_error converges) agree
  | diverges diverges agree => exact .diverges (diverges_andThen diverges) agree

end Verdict

/-! ## The scan follows the leaf readers -/

theorem parseRealSaveString_rest (s : Str) :
    (parseRealSaveString s).2 = afterString s := by
  fun_induction afterString s with
  | case1 => rfl
  | case2 rest => rw [parseRealSaveString_quote]
  | case3 => rfl
  | case4 noQuote escaped rest ih => rw [parseRealSaveString_escape, ih]
  | case5 c rest noQuote noEscape ih =>
      rw [parseRealSaveString_byte rest noQuote noEscape, ih]

/-- `std::stoll` refuses an empty token and a value that is out of range. -/
theorem stoll_spec (negative : Bool) (digits : Str) :
    if !digits.isEmpty && decide (Decimal.value digits < integerLimit negative) then
      ∃ i, stoll negative digits = .ok i
    else ∃ e, stoll negative digits = .error e ∧ e.trappable = false := by
  by_cases empty : digits = []
  · subst empty
    exact ⟨.invalidArgument, rfl, rfl⟩
  · have nonempty : (!digits.isEmpty) = true := by simp [empty]
    simp only [nonempty, Bool.true_and, decide_eq_true_eq, stoll, empty, if_false]
    cases negative <;> simp only [integerLimit, Bool.false_eq_true, if_true, if_false]
    all_goals
      split
      · rw [if_pos (by omega)]
        exact ⟨_, rfl⟩
      · rw [if_neg (by omega)]
        exact ⟨_, rfl, rfl⟩

/-- `std::stod` refuses a token without digits and a value that is out of range. -/
theorem stod_spec (negative : Bool) (whole frac : Str) :
    if !(whole ++ frac).isEmpty && (Double.strtod ⟨negative, whole, frac⟩).isSome then
      ∃ d, stod negative whole frac = .ok d
    else ∃ e, stod negative whole frac = .error e ∧ e.trappable = false := by
  by_cases empty : whole = [] ∧ frac = []
  · rcases empty with ⟨rfl, rfl⟩
    exact ⟨.invalidArgument, rfl, rfl⟩
  · cases converted : Double.strtod ⟨negative, whole, frac⟩ with
    | none => simp [stod, empty, converted, ReadError.trappable]
    | some d => simp [stod, empty, converted]

/-- The number reader accepts exactly the convertible tokens, and leaves the text
behind them. -/
theorem parseUnsigned_spec (negative : Bool) (s : Str) :
    if convertible negative s then
      ∃ value, parseUnsigned negative s = .ok (value, afterNumber s)
    else ∃ e, parseUnsigned negative s = .error e ∧ e.trappable = false := by
  have integer := stoll_spec negative (s.takeWhile Decimal.isDigit)
  cases after : s.dropWhile Decimal.isDigit with
  | nil =>
      simp only [convertible, parseUnsigned, afterNumber, after, List.head?_nil,
        reduceCtorEq, if_false]
      split at integer
      · rcases integer with ⟨i, converted⟩
        rw [if_pos ‹_›, converted]
        exact ⟨_, rfl⟩
      · rcases integer with ⟨e, refused, uncaught⟩
        rw [if_neg ‹_›, refused]
        exact ⟨e, rfl, uncaught⟩
  | cons c rest =>
      by_cases fractional : c = point
      · have float := stod_spec negative (s.takeWhile Decimal.isDigit)
          (rest.takeWhile Decimal.isDigit)
        simp only [convertible, parseUnsigned, afterNumber, after, List.head?_cons,
          fractional, if_true, List.tail_cons]
        split at float
        · rcases float with ⟨d, converted⟩
          rw [if_pos ‹_›, converted]
          exact ⟨_, rfl⟩
        · rcases float with ⟨e, refused, uncaught⟩
          rw [if_neg ‹_›, refused]
          exact ⟨e, rfl, uncaught⟩
      · have noPoint : ¬ some c = some point := fun equal => fractional (Option.some.inj equal)
        simp only [convertible, parseUnsigned, afterNumber, after, List.head?_cons,
          noPoint, fractional, if_false]
        split at integer
        · rcases integer with ⟨i, converted⟩
          rw [if_pos ‹_›, converted]
          exact ⟨_, rfl⟩
        · rcases integer with ⟨e, refused, uncaught⟩
          rw [if_neg ‹_›, refused]
          exact ⟨e, rfl, uncaught⟩

/-! ## One byte of the scan -/

section Scan

variable (bracket : Bracket) {refused : Bool} {stack : List Bracket} {c : UInt8} {rest : Str}

@[simp]
theorem scan_nil : scanWith refused stack [] = true := by
  cases stack <;> simp [scanWith]

theorem scan_string :
    scanWith refused (bracket :: stack) (quote :: rest) = scanWith refused (bracket :: stack) (afterString rest) := by
  rw [scanWith, if_pos rfl]

theorem scan_paren :
    scanWith refused (bracket :: stack) (openParen :: rest) = parenWith refused (bracket :: stack) rest := by
  rw [scanWith, if_neg (by decide), if_pos rfl]
  rfl

theorem scan_number (starts : c = minus ∨ Decimal.isDigit c = true) :
    scanWith refused (bracket :: stack) (c :: rest) =
      (convertible (c = minus) (if c = minus then rest else c :: rest) &&
        scanWith refused (bracket :: stack) (afterNumber (if c = minus then rest else c :: rest))) := by
  have noQuote : c ≠ quote := by
    rintro rfl
    revert starts
    decide
  have noParen : c ≠ openParen := by
    rintro rfl
    revert starts
    decide
  rw [scanWith, if_neg noQuote, if_neg noParen, dif_pos starts]

theorem scan_close :
    scanWith refused (bracket :: stack) (bracket.closer :: rest) =
      scanWith refused stack (skipByte closeParen rest) := by
  cases bracket
  all_goals
    rw [scanWith, if_neg (by decide), if_neg (by decide), dif_neg (by decide), if_pos rfl]

theorem scan_other (noStart : startsValue c = false) (noCloser : c ≠ bracket.closer) :
    scanWith refused (bracket :: stack) (c :: rest) =
      (bracket.separates c && scanWith refused (bracket :: stack) rest) := by
  simp only [startsValue, Bool.or_eq_false_iff, beq_eq_false_iff_ne] at noStart
  rw [scanWith, if_neg noStart.1.1.1, if_neg noStart.1.1.2,
    dif_neg (by simp [noStart.1.2, noStart.2]), if_neg noCloser]

/-- A separator is no start of a value and closes nothing. -/
theorem Bracket.of_separates {bracket : Bracket} (separates : bracket.separates c = true) :
    startsValue c = false ∧ c ≠ bracket.closer := by
  cases bracket with
  | array =>
      simp only [Bracket.separates, beq_iff_eq] at separates
      subst separates
      decide
  | mapping =>
      simp only [Bracket.separates, Bool.or_eq_true, beq_iff_eq] at separates
      rcases separates with (rfl | rfl) | rfl <;> decide

/-- Skipping a separator does not change the scan. -/
theorem scan_skipByte {bracket : Bracket} (separates : bracket.separates c = true) (s : Str) :
    scanWith refused (bracket :: stack) (skipByte c s) = scanWith refused (bracket :: stack) s := by
  cases s with
  | nil => rfl
  | cons first rest =>
      by_cases equal : first = c
      · subst equal
        rcases Bracket.of_separates separates with ⟨noStart, noCloser⟩
        rw [skipByte_cons_self, scan_other bracket noStart noCloser, separates, Bool.true_and]
      · rw [skipByte_cons_of_ne rest equal]

end Scan

/-! ## The scan predicts the reader -/

variable {refused : Bool}

/-- The length left when a reader function consumes at least the first byte if
that satisfies `p`. -/
def limitAfter (p : UInt8 → Bool) (s : Str) : Nat :=
  if s.head?.any p then s.length - 1 else s.length

theorem limitAfter_le (p : UInt8 → Bool) (s : Str) : limitAfter p s ≤ s.length := by
  unfold limitAfter
  split <;> omega

theorem limitAfter_cons {p : UInt8 → Bool} {c : UInt8} (rest : Str) (consumed : p c = true) :
    limitAfter p (c :: rest) = rest.length := by
  simp [limitAfter, consumed]

/-- What the scan predicts about `parseRealSaveValue` inside an aggregate. -/
def ValueVerdict (refused : Bool) (bracket : Bracket) (s : Str) : Prop :=
  Verdict refused (fun fuel => parseRealSaveValue fuel s) (fun stack => scanWith refused (bracket :: stack) s)
    (fun rest stack => scanWith refused (bracket :: stack) rest) (limitAfter startsValue s)

theorem ValueVerdict.le {bracket : Bracket} {s : Str} (verdict : ValueVerdict refused bracket s) :
    Verdict refused (fun fuel => parseRealSaveValue fuel s) (fun stack => scanWith refused (bracket :: stack) s)
      (fun rest stack => scanWith refused (bracket :: stack) rest) s.length :=
  verdict.weaken (limitAfter_le _ _)

/-- An array element loop that meets a byte it cannot read or skip never ends. -/
theorem diverges_items_stalled {c : UInt8} (rest : Str) (noStart : startsValue c = false)
    (noBrace : c ≠ closeBrace) (noComma : c ≠ comma) (items : List SaveValue) :
    Diverges fun fuel => parseItems fuel items (c :: rest) := by
  have unread : ∀ first ∈ (c :: rest).head?, startsValue first = false := by
    simpa using noStart
  refine Diverges.loop (f := fun items fuel => parseItems fuel items (c :: rest))
    (fun _ => rfl) (fun fuel goesOn items => ?_) items
  change parseItems (fuel + 1) items (c :: rest) = none
  rw [parseItems_element fuel items rest noBrace noComma]
  refine andThen_eq_none (converges_value_default unread) ?_
  change parseItems fuel (items ++ [zero]) (skipByte comma (c :: rest)) = none
  rw [skipByte_cons_of_ne rest noComma]
  exact goesOn (items ++ [zero])

/-- The element loop of an array inside readable values. -/
theorem items_verdict {bound : Nat}
    (values : ∀ s : Str, s.length ≤ bound → ValueVerdict refused .array s)
    (s : Str) (short : s.length ≤ bound) (items : List SaveValue) :
    Verdict refused (fun fuel => parseItems fuel items s) (fun stack => scanWith refused (.array :: stack) s)
      (fun rest stack => scanWith refused stack (closeAggregate rest)) s.length := by
  match s, short with
  | [], _ =>
      exact .returns items [] (converges_items_stop items (by simp))
        (fun stack => by simp [closeAggregate, skipByte]) le_rfl
  | c :: rest, short =>
      have shorter : rest.length ≤ bound := by
        simp only [List.length_cons] at short
        omega
      by_cases isBrace : c = closeBrace
      · subst isBrace
        exact .returns items _ (converges_items_stop items (by simp))
          (fun stack => scan_close .array) le_rfl
      by_cases isComma : c = comma
      · subst isComma
        have later := items_verdict values rest shorter (items ++ [zero])
        refine (Verdict.step ?_ rfl).weaken (Nat.le_succ _)
        simp only [parseItems_comma]
        refine later.congr fun stack => ?_
        rw [scan_other _ (by decide) (by decide)]
        rfl
      cases starts : startsValue c with
      | false =>
          refine .diverges (diverges_items_stalled rest starts isBrace isComma items)
            fun stack => ?_
          rw [scan_other .array starts isBrace]
          simp [Bracket.separates, isComma]
      | true =>
          have value := values (c :: rest) short
          rw [ValueVerdict, limitAfter_cons rest starts] at value
          refine Verdict.step ?_ rfl
          simp only [parseItems_element _ items rest isBrace isComma]
          refine value.andThen fun item after afterShort => ?_
          have skipped := length_skipByte_le comma after
          have later := items_verdict values (skipByte comma after)
            (by omega) (items ++ [item])
          refine (later.congr fun stack => ?_).weaken ?_
          · exact (scan_skipByte rfl after).symm
          · simp only [List.length_cons]
            omega
termination_by s.length
decreasing_by
  all_goals simp only [List.length_cons]; omega

/-- The column loop of a mapping entry inside readable values. -/
theorem extra_verdict {bound : Nat}
    (values : ∀ s : Str, s.length ≤ bound → ValueVerdict refused .mapping s)
    (s : Str) (short : s.length ≤ bound) (extra : List SaveValue) :
    Verdict refused (fun fuel => parseExtra fuel extra s) (fun stack => scanWith refused (.mapping :: stack) s)
      (fun rest stack => scanWith refused (.mapping :: stack) rest) (limitAfter (· == semicolon) s) := by
  match s, short with
  | [], _ =>
      exact .returns extra [] (converges_extra_stop extra (by simp)) (fun _ => rfl) le_rfl
  | c :: rest, short =>
      by_cases isSemicolon : c = semicolon
      · subst isSemicolon
        have shorter : rest.length ≤ bound := by
          simp only [List.length_cons] at short
          omega
        rw [limitAfter_cons rest (by decide)]
        refine Verdict.step ?_ rfl
        simp only [parseExtra_column]
        have next : ∀ stack, scanWith refused (.mapping :: stack) (semicolon :: rest) =
            scanWith refused (.mapping :: stack) rest := by
          intro stack
          rw [scan_other .mapping (by decide) (by decide)]
          rfl
        have value := (values rest shorter).le.congr next
        refine value.andThen fun column after afterShort => ?_
        exact (extra_verdict values after (by omega) (extra ++ [column])).weaken
          ((limitAfter_le _ _).trans afterShort)
      · refine .returns extra _ (converges_extra_stop extra (by simpa using isSemicolon))
          (fun _ => rfl) ?_
        simp [limitAfter, isSemicolon]
termination_by s.length
decreasing_by
  all_goals simp only [List.length_cons]; omega

/-- The end of an entry: its columns and an optional comma. -/
theorem columns_verdict {bound : Nat}
    (values : ∀ s : Str, s.length ≤ bound → ValueVerdict refused .mapping s)
    (s : Str) (short : s.length ≤ bound) (key val : SaveValue) :
    Verdict refused
      (fun fuel => (parseExtra fuel [] s).andThen fun (extra, rest) =>
        .ok ((key, val, extra), skipByte comma rest))
      (fun stack => scanWith refused (.mapping :: stack) s)
      (fun rest stack => scanWith refused (.mapping :: stack) rest)
      (limitAfter (fun c => c == semicolon || c == comma) s) := by
  by_cases isComma : s.head? = some comma
  · rcases List.head?_eq_some_iff.mp isComma with ⟨rest, rfl⟩
    rw [limitAfter_cons rest (by decide)]
    refine .returns (key, val, []) rest ?_ (fun stack => ?_) le_rfl
    · refine converges_andThen (converges_extra_stop [] (by simp; decide)) ?_
      simp only [skipByte_cons_self]
      exact Converges.const _
    · rw [scan_other _ (by decide) (by decide)]
      rfl
  · have limits : limitAfter (fun c => c == semicolon || c == comma) s =
        limitAfter (· == semicolon) s := by
      cases s with
      | nil => rfl
      | cons c rest =>
          have noComma : c ≠ comma := by simpa using isComma
          simp [limitAfter, noComma]
    rw [limits]
    refine (extra_verdict values s short []).andThen fun extra after afterShort => ?_
    exact .returns _ _ (Converges.const _) (fun stack => (scan_skipByte rfl after).symm)
      ((length_skipByte_le comma after).trans afterShort)

/-- An entry behind its key. -/
theorem entryTail_verdict {bound : Nat}
    (values : ∀ s : Str, s.length ≤ bound → ValueVerdict refused .mapping s)
    (s : Str) (short : s.length ≤ bound) (key : SaveValue) :
    Verdict refused
      (fun fuel => (parseRealSaveValue fuel s).andThen fun (val, rest) =>
        (parseExtra fuel [] rest).andThen fun (extra, rest) =>
          .ok ((key, val, extra), skipByte comma rest))
      (fun stack => scanWith refused (.mapping :: stack) s)
      (fun rest stack => scanWith refused (.mapping :: stack) rest) s.length := by
  refine (values s short).le.andThen fun val after afterShort => ?_
  exact (columns_verdict values after (by omega) key val).weaken
    ((limitAfter_le _ _).trans afterShort)

/-- An entry that has something to read consumes it. -/
theorem entry_verdict {bound : Nat}
    (values : ∀ s : Str, s.length ≤ bound → ValueVerdict refused .mapping s)
    {c : UInt8} (rest : Str) (short : (c :: rest).length ≤ bound)
    (reads : startsValue c = true ∨ Bracket.mapping.separates c = true) :
    Verdict refused (fun fuel => parseEntry fuel (c :: rest))
      (fun stack => scanWith refused (.mapping :: stack) (c :: rest))
      (fun rest stack => scanWith refused (.mapping :: stack) rest) rest.length := by
  refine Verdict.step ?_ rfl
  simp only [parseEntry_succ]
  cases starts : startsValue c with
  | true =>
      have key := values (c :: rest) short
      rw [ValueVerdict, limitAfter_cons rest starts] at key
      refine key.andThen fun key after afterShort => ?_
      have skipped := length_skipByte_le colon after
      simp only [List.length_cons] at short
      have later := entryTail_verdict values (skipByte colon after) (by omega) key
      exact (later.congr fun stack => (scan_skipByte rfl after).symm).weaken (by omega)
  | false =>
      have separates := reads.resolve_left (by simp [starts])
      have unread : ∀ first ∈ (c :: rest).head?, startsValue first = false := by
        simpa using starts
      have noCloser := (Bracket.of_separates separates).2
      have next : ∀ stack, scanWith refused (.mapping :: stack) (c :: rest) =
          scanWith refused (.mapping :: stack) rest := by
        intro stack
        rw [scan_other _ starts noCloser, separates, Bool.true_and]
      refine Verdict.afterValue (converges_value_default unread) ?_
      by_cases isColon : c = colon
      · subst isColon
        simp only [List.length_cons] at short
        simp only [skipByte_cons_self]
        exact (entryTail_verdict values rest (by omega) zero).congr next
      · simp only [skipByte_cons_of_ne rest isColon]
        refine Verdict.afterValue (converges_value_default unread) ?_
        have ending : (c == semicolon || c == comma) = true := by
          simpa [Bracket.separates, isColon, or_comm] using separates
        have columns := columns_verdict values (c :: rest) short zero zero
        rwa [limitAfter_cons rest ending] at columns

/-- A mapping entry loop that meets a byte it cannot read or skip never ends. -/
theorem diverges_entries_stalled {c : UInt8} (rest : Str) (noStart : startsValue c = false)
    (noBracket : c ≠ closeBracket) (noSeparator : Bracket.mapping.separates c = false)
    (rows : List (SaveValue × SaveValue × List SaveValue)) :
    Diverges fun fuel => parseEntries fuel rows (c :: rest) := by
  have unread : ∀ first ∈ (c :: rest).head?, startsValue first = false := by
    simpa using noStart
  simp only [Bracket.separates, Bool.or_eq_false_iff, beq_eq_false_iff_ne] at noSeparator
  rcases noSeparator with ⟨⟨noComma, noColon⟩, noSemicolon⟩
  have entry : Converges (fun fuel => parseEntry fuel (c :: rest))
      (.ok ((zero, zero, []), c :: rest)) := by
    refine Converges.step rfl ?_
    simp only [parseEntry_succ]
    refine converges_andThen (converges_value_default unread) ?_
    simp only [skipByte_cons_of_ne rest noColon]
    refine converges_andThen (converges_value_default unread) ?_
    refine converges_andThen (converges_extra_stop [] (by simpa using noSemicolon)) ?_
    simp only [skipByte_cons_of_ne rest noComma]
    exact Converges.const _
  refine Diverges.loop (f := fun rows fuel => parseEntries fuel rows (c :: rest))
    (fun _ => rfl) (fun fuel goesOn rows => ?_) rows
  change parseEntries (fuel + 1) rows (c :: rest) = none
  rw [parseEntries_entry fuel rows rest noBracket]
  exact andThen_eq_none entry (goesOn _)

/-- The entry loop of a mapping inside readable values. -/
theorem entries_verdict {bound : Nat}
    (values : ∀ s : Str, s.length ≤ bound → ValueVerdict refused .mapping s)
    (s : Str) (short : s.length ≤ bound)
    (rows : List (SaveValue × SaveValue × List SaveValue)) :
    Verdict refused (fun fuel => parseEntries fuel rows s) (fun stack => scanWith refused (.mapping :: stack) s)
      (fun rest stack => scanWith refused stack (closeAggregate rest)) s.length := by
  match s, short with
  | [], _ =>
      exact .returns rows [] (converges_entries_stop rows (by simp))
        (fun stack => by simp [closeAggregate, skipByte]) le_rfl
  | c :: rest, short =>
      by_cases isBracket : c = closeBracket
      · subst isBracket
        exact .returns rows _ (converges_entries_stop rows (by simp))
          (fun stack => scan_close .mapping) le_rfl
      by_cases reads : startsValue c = true ∨ Bracket.mapping.separates c = true
      · refine Verdict.step ?_ rfl
        simp only [parseEntries_entry _ rows rest isBracket]
        refine (entry_verdict values rest short reads).andThen fun row after afterShort => ?_
        simp only [List.length_cons] at short
        have later := entries_verdict values after (by omega) (rows ++ [row])
        refine later.weaken ?_
        simp only [List.length_cons]
        omega
      · rw [not_or, Bool.not_eq_true, Bool.not_eq_true] at reads
        refine .diverges (diverges_entries_stalled rest reads.1 isBracket reads.2 rows)
          fun stack => ?_
        rw [scan_other .mapping reads.1 isBracket, reads.2, Bool.false_and]
termination_by s.length
decreasing_by
  simp only [List.length_cons]; omega

theorem length_closeAggregate_le (s : Str) : (closeAggregate s).length ≤ s.length :=
  (length_skipByte_le _ _).trans (by simp)

/-- The number reader behind a sign or a digit. -/
theorem parseRealSaveNumber_cons (c : UInt8) (rest : Str) :
    parseRealSaveNumber (c :: rest) =
      parseUnsigned (c = minus) (if c = minus then rest else c :: rest) := by
  by_cases negative : c = minus <;> simp [parseRealSaveNumber, negative]

/-- The scan under one more open aggregate. -/
theorem Verdict.inside {α : Type} {f : Nat → Outcome (α × Str)} {scanned : List Bracket → Bool}
    {onward : Str → List Bracket → Bool} {limit : Nat} (bracket : Bracket)
    (verdict : Verdict refused f scanned onward limit) :
    Verdict refused f (fun stack => scanned (bracket :: stack))
      (fun rest stack => onward rest (bracket :: stack)) limit := by
  cases verdict with
  | returns a rest converges agree shorter =>
      exact .returns a rest converges (fun _ => agree _) shorter
  | throws e converges agree => exact .throws e converges fun _ => agree _
  | diverges diverges agree => exact .diverges diverges fun _ => agree _

/-- An array or mapping whose contents were read. -/
theorem aggregate_verdict {α : Type} {f : Nat → Outcome (α × Str)} {scanned : List Bracket → Bool}
    {limit : Nat} (build : α → SaveValue)
    (contents : Verdict refused f scanned (fun rest stack => scanWith refused stack (closeAggregate rest)) limit) :
    Verdict refused
      (fun fuel => (f fuel).andThen fun (a, rest) => .ok (build a, closeAggregate rest))
      scanned (fun rest stack => scanWith refused stack rest) limit := by
  refine contents.andThen fun a rest short => ?_
  exact .returns (build a) _ (Converges.const _) (fun _ => rfl)
    ((length_closeAggregate_le rest).trans short)

/-- A number, by its sign or first digit. -/
theorem number_verdict {c : UInt8} (rest : Str)
    (starts : c = minus ∨ Decimal.isDigit c = true) :
    Verdict refused (fun fuel => parseRealSaveValue fuel (c :: rest))
      (fun stack =>
        convertible (c = minus) (if c = minus then rest else c :: rest) &&
          scanWith refused stack (afterNumber (if c = minus then rest else c :: rest)))
      (fun rest stack => scanWith refused stack rest) rest.length := by
  have reader := converges_value_number rest starts
  rw [parseRealSaveNumber_cons] at reader
  have spec := parseUnsigned_spec (c = minus) (if c = minus then rest else c :: rest)
  cases converts : convertible (c = minus) (if c = minus then rest else c :: rest) with
  | true =>
      rw [if_pos converts] at spec
      rcases spec with ⟨value, read⟩
      rw [read] at reader
      refine .returns value _ reader (fun stack => Bool.true_and _) ?_
      exact Nat.le_of_lt_succ (length_afterNumber_lt starts)
  | false =>
      rw [if_neg (by simp [converts])] at spec
      rcases spec with ⟨e, thrown, uncaught⟩
      rw [thrown] at reader
      exact .throws e reader fun stack => by rw [Bool.false_and, uncaught, Bool.false_and]

/-- What follows an opening parenthesis. -/
theorem paren_verdict {bound : Nat}
    (values : ∀ s : Str, s.length ≤ bound → ∀ bracket, ValueVerdict refused bracket s)
    (rest : Str) (short : rest.length ≤ bound) :
    Verdict refused (fun fuel => parseRealSaveValue fuel (openParen :: rest))
      (fun stack => parenWith refused stack rest) (fun rest stack => scanWith refused stack rest)
      rest.length := by
  by_cases isBrace : rest.head? = some openBrace
  · rcases List.head?_eq_some_iff.mp isBrace with ⟨contents, rfl⟩
    simp only [List.length_cons] at short
    refine Verdict.step ?_ rfl
    simp only [parseRealSaveValue_array]
    have items := items_verdict (fun s le => values s le .array) contents (by omega) []
    have array := aggregate_verdict (fun items => .array items false) items
    exact array.weaken (Nat.le_succ _)
  · by_cases isBracket : rest.head? = some openBracket
    · rcases List.head?_eq_some_iff.mp isBracket with ⟨contents, rfl⟩
      simp only [List.length_cons] at short
      refine Verdict.step ?_ rfl
      simp only [parseRealSaveValue_mapping]
      have entries := entries_verdict (fun s le => values s le .mapping) contents (by omega) []
      have mapping := aggregate_verdict finishMapping entries
      exact mapping.weaken (Nat.le_succ _)
    · refine .throws _ (converges_value_class isBrace isBracket) fun stack => ?_
      rw [parenWith, if_neg isBrace, if_neg isBracket]
      rfl

/-- What the scan says about the element reader holds of every text. -/
theorem value_verdict (bound : Nat) (s : Str) (short : s.length ≤ bound)
    (bracket : Bracket) : ValueVerdict refused bracket s := by
  induction bound generalizing s bracket with
  | zero =>
      have empty := List.length_eq_zero_iff.mp (Nat.le_zero.mp short)
      subst empty
      exact .returns zero [] (converges_value_default (by simp)) (fun _ => rfl) le_rfl
  | succ bound inductionHypothesis =>
      cases s with
      | nil =>
          exact .returns zero [] (converges_value_default (by simp)) (fun _ => rfl) le_rfl
      | cons c rest =>
          have shorter : rest.length ≤ bound := Nat.le_of_succ_le_succ short
          cases starts : startsValue c with
          | false =>
              have unread : ∀ first ∈ (c :: rest).head?, startsValue first = false := by
                simpa using starts
              refine .returns zero _ (converges_value_default unread) (fun _ => rfl) ?_
              simp [limitAfter, starts]
          | true =>
              rw [ValueVerdict, limitAfter_cons rest starts]
              simp only [startsValue, Bool.or_eq_true, beq_iff_eq] at starts
              rcases starts with ((rfl | rfl) | isMinus) | isDigit
              · refine .returns _ _ (converges_value_string rest) (fun stack => ?_) ?_
                · rw [scan_string bracket, parseRealSaveString_rest]
                · rw [parseRealSaveString_rest]
                  exact length_afterString_le rest
              · exact ((paren_verdict inductionHypothesis rest shorter).inside bracket).congr
                  fun stack => scan_paren bracket
              · exact ((number_verdict rest (.inl isMinus)).inside bracket).congr
                  fun stack => scan_number bracket (.inl isMinus)
              · exact ((number_verdict rest (.inr isDigit)).inside bracket).congr
                  fun stack => scan_number bracket (.inr isDigit)

/-! ## The exact condition -/

theorem total_of_ok {α : Type} {f : Nat → Outcome α} {a : α}
    (converges : Converges f (.ok a)) : Total f := by
  refine ⟨.ok a, converges, fun e equal => ?_⟩
  contradiction

theorem total_iff_of_error {α : Type} {f : Nat → Outcome α} {e : ReadError}
    (converges : Converges f (.error e)) : Total f ↔ e.trappable = true := by
  constructor
  · rintro ⟨result, converges', trapped⟩
    exact trapped e (converges'.unique converges)
  · intro trappable
    refine ⟨.error e, converges, fun e' equal => ?_⟩
    rw [← Except.error.inj equal]
    exact trappable

theorem not_total_of_diverges {α : Type} {f : Nat → Outcome α} (diverges : Diverges f) :
    ¬ Total f := by
  rintro ⟨result, converges, _⟩
  exact converges.not_diverges diverges

/-- A verdict for a text outside every aggregate decides totality. -/
theorem Verdict.total_iff {α : Type} {f : Nat → Outcome (α × Str)}
    {scanned : List Bracket → Bool} {limit : Nat}
    (verdict : Verdict true f scanned (fun rest stack => scanWith true stack rest) limit) :
    Total f ↔ scanned [] = true := by
  cases verdict with
  | returns a rest converges agree shorter =>
      exact iff_of_true (total_of_ok converges) ((agree []).trans (by simp [scanWith]))
  | throws e converges agree => rw [total_iff_of_error converges, agree [], Bool.and_true]
  | diverges diverges agree =>
      exact iff_of_false (not_total_of_diverges diverges) (by simp [agree []])

/-- With refusals counted in, it decides whether there is a value. -/
theorem Verdict.returns_iff {α : Type} {f : Nat → Outcome (α × Str)}
    {scanned : List Bracket → Bool} {limit : Nat}
    (verdict : Verdict false f scanned (fun rest stack => scanWith false stack rest) limit) :
    (∃ a, Converges f (.ok a)) ↔ scanned [] = true := by
  cases verdict with
  | returns a rest converges agree shorter =>
      exact iff_of_true ⟨_, converges⟩ ((agree []).trans (by simp [scanWith]))
  | throws e converges agree =>
      refine iff_of_false ?_ (by simp [agree []])
      rintro ⟨a, converges'⟩
      exact absurd (converges'.unique converges) (by simp)
  | diverges diverges agree =>
      refine iff_of_false ?_ (by simp [agree []])
      rintro ⟨a, converges⟩
      exact converges.not_diverges diverges

/-- The element reader outside every aggregate. -/
theorem text_verdict (refused : Bool) (s : Str) :
    ∃ scanned, scanned [] = readableWith refused s ∧
      Verdict refused (fun fuel => parseRealSaveValue fuel s) scanned
        (fun rest stack => scanWith refused stack rest) s.length := by
  cases s with
  | nil =>
      exact ⟨fun stack => scanWith refused stack [], scan_nil,
        .returns zero [] (converges_value_default (by simp)) (fun _ => rfl) le_rfl⟩
  | cons c rest =>
      by_cases isParen : c = openParen
      · subst isParen
        refine ⟨fun stack => parenWith refused stack rest, ?_, ?_⟩
        · rw [readableWith, if_pos rfl]
        · exact (paren_verdict (fun s le bracket => value_verdict rest.length s le bracket) rest
            le_rfl).weaken (Nat.le_succ _)
      · rw [readableWith, if_neg isParen]
        by_cases isNumber : c = minus ∨ Decimal.isDigit c = true
        · refine ⟨_, ?_, (number_verdict rest isNumber).weaken (Nat.le_succ _)⟩
          rw [if_pos isNumber]
          simp [scanWith]
        · rw [if_neg isNumber]
          by_cases isQuote : c = quote
          · subst isQuote
            refine ⟨fun stack => scanWith refused stack (afterString rest), by simp [scanWith],
              .returns _ _ (converges_value_string rest) (fun stack => ?_) ?_⟩
            · rw [parseRealSaveString_rest]
            · rw [parseRealSaveString_rest]
              exact (length_afterString_le rest).trans (Nat.le_succ _)
          · have unread : ∀ first ∈ (c :: rest).head?, startsValue first = false := by
              simpa [startsValue, isQuote, isParen, not_or] using isNumber
            exact ⟨fun stack => scanWith refused stack (c :: rest), by simp [scanWith],
              .returns _ _ (converges_value_default unread) (fun _ => rfl) le_rfl⟩

/-- The element reader comes to an end on exactly the texts the scan accepts. -/
theorem total_parseRealSaveValue_iff (s : Str) :
    Total (fun fuel => parseRealSaveValue fuel s) ↔ readableValue s = true := by
  obtain ⟨scanned, same, verdict⟩ := text_verdict true s
  rw [verdict.total_iff, same, readableValue]

/-- The element reader returns on exactly the texts that the scan accepts and that have no
class-typed value where one is read. -/
theorem returns_parseRealSaveValue_iff (s : Str) :
    (∃ a, Converges (fun fuel => parseRealSaveValue fuel s) (.ok a)) ↔
      readableWith false s = true := by
  obtain ⟨scanned, same, verdict⟩ := text_verdict false s
  rw [verdict.returns_iff, same]

/-- Whatever the fuel, the element reader has one outcome or none. -/
theorem parseRealSaveValue_decided (s : Str) :
    (∃ result, Converges (fun fuel => parseRealSaveValue fuel s) result) ∨
      Diverges fun fuel => parseRealSaveValue fuel s := by
  obtain ⟨_, _, verdict⟩ := text_verdict true s
  cases verdict with
  | returns a rest converges _ _ => exact .inl ⟨_, converges⟩
  | throws e converges _ => exact .inl ⟨_, converges⟩
  | diverges diverges _ => exact .inr diverges

/-- Forgetting the unread text keeps a computation total or not total. -/
theorem total_value_iff {α β : Type} {f : Nat → Outcome α} (g : α → β)
    (decided : (∃ result, Converges f result) ∨ Diverges f) :
    Total (fun fuel => (f fuel).andThen fun a => .ok (g a)) ↔ Total f := by
  rcases decided with ⟨result, converges⟩ | diverges
  · cases result with
    | ok a =>
        refine iff_of_true (total_of_ok (a := g a) ?_) (total_of_ok converges)
        exact converges_andThen converges (Converges.const _)
    | error e =>
        rw [total_iff_of_error converges, total_iff_of_error]
        exact converges_andThen_error converges
  · exact iff_of_false (not_total_of_diverges (diverges_andThen diverges))
      (not_total_of_diverges diverges)

/-- The only exception of the top-level string reader is trappable. -/
theorem parseRestoreVariableBody_error {s : Str} {e : ReadError}
    (refused : parseRestoreVariableBody s = .error e) : e = illegalString := by
  fun_induction parseRestoreVariableBody s with
  | case1 => exact (Except.error.inj refused).symm
  | case2 => contradiction
  | case3 => exact (Except.error.inj refused).symm
  | case4 escaped rest noQuote ih =>
      cases inner : parseRestoreVariableBody rest with
      | error e' =>
          rw [inner] at refused
          cases refused
          exact ih inner
      | ok result =>
          rw [inner] at refused
          contradiction
  | case5 c rest noQuote noEscape ih =>
      cases inner : parseRestoreVariableBody rest with
      | error e' =>
          rw [inner] at refused
          cases refused
          exact ih inner
      | ok result =>
          rw [inner] at refused
          contradiction

/-- A top-level string is read to an end whatever its text. -/
theorem total_parseRestoreVariableString (s : Str) :
    Total fun _ => some (parseRestoreVariableString s) := by
  cases body : parseRestoreVariableBody s with
  | error e =>
      have thrown : parseRestoreVariableString s = .error e := by
        simp [parseRestoreVariableString, body, bind, Except.bind]
      rw [thrown, total_iff_of_error (Converges.const _), parseRestoreVariableBody_error body]
      rfl
  | ok result =>
      by_cases atEnd : result.2 = []
      · have returned : parseRestoreVariableString s = .ok (.string result.1, []) := by
          simp [parseRestoreVariableString, body, bind, Except.bind, atEnd, pure, Except.pure]
        rw [returned]
        exact total_of_ok (Converges.const _)
      · have thrown : parseRestoreVariableString s = .error illegalString := by
          simp [parseRestoreVariableString, body, bind, Except.bind, atEnd]
        rw [thrown, total_iff_of_error (Converges.const _)]
        rfl

/-- An unsigned number is read to an end when its token converts. -/
theorem total_parseUnsigned_iff (negative : Bool) (s : Str) :
    Total (fun _ => some (parseUnsigned negative s)) ↔ convertible negative s = true := by
  have spec := parseUnsigned_spec negative s
  cases converts : convertible negative s with
  | true =>
      rw [if_pos converts] at spec
      rcases spec with ⟨value, read⟩
      rw [read]
      exact iff_of_true (total_of_ok (Converges.const _)) rfl
  | false =>
      rw [if_neg (by simp [converts])] at spec
      rcases spec with ⟨e, refused, uncaught⟩
      rw [refused, total_iff_of_error (Converges.const _), uncaught]

/-- The text-level reader, before its unread text is forgotten. -/
theorem total_parseRestoreVariable_iff (s : Str) :
    Total (fun fuel => parseRestoreVariable fuel s) ↔ readable s = true := by
  cases s with
  | nil => exact iff_of_true (total_of_ok (Converges.const _)) rfl
  | cons c rest =>
      by_cases isQuote : c = quote
      · subst isQuote
        exact iff_of_true (total_parseRestoreVariableString rest) rfl
      · by_cases isMinus : c = minus
        · subst isMinus
          cases digit : rest.head?.any Decimal.isDigit with
          | false =>
              have refused : ∀ fuel, parseRestoreVariable fuel (minus :: rest) =
                  some (.error (.lpc (str "restore_variable(): Illegal numeric format."))) := by
                intro fuel
                simp [parseRestoreVariable, isQuote, parseRestoreVariableNumber, digit]
              simp only [refused]
              rw [total_iff_of_error (Converges.const _)]
              simp [readable, digit, ReadError.trappable]
          | true =>
              have number : ∀ fuel, parseRestoreVariable fuel (minus :: rest) =
                  some (parseUnsigned true rest) := by
                intro fuel
                simp [parseRestoreVariable, isQuote, parseRestoreVariableNumber, digit]
              simp only [number]
              rw [total_parseUnsigned_iff]
              simp [readable, digit, readableValue, readableWith, show minus ≠ openParen by decide]
        · by_cases isDigit : Decimal.isDigit c = true
          · have number : ∀ fuel, parseRestoreVariable fuel (c :: rest) =
                some (parseUnsigned false (c :: rest)) := by
              intro fuel
              simp [parseRestoreVariable, isQuote, isDigit, parseRestoreVariableNumber, isMinus]
            have noParen : c ≠ openParen := by
              rintro rfl
              revert isDigit
              decide
            simp only [number]
            rw [total_parseUnsigned_iff]
            simp [readable, isMinus, readableValue, readableWith, noParen, isDigit]
          · have element : ∀ fuel, parseRestoreVariable fuel (c :: rest) =
                parseRealSaveValue fuel (c :: rest) := by
              intro fuel
              simp [parseRestoreVariable, isQuote, isDigit, isMinus]
            simp only [element]
            rw [total_parseRealSaveValue_iff]
            simp [readable, isMinus]

/-- Whatever the fuel, the text-level reader has one outcome or none. -/
theorem parseRestoreVariable_decided (s : Str) :
    (∃ result, Converges (fun fuel => parseRestoreVariable fuel s) result) ∨
      Diverges fun fuel => parseRestoreVariable fuel s := by
  cases s with
  | nil => exact .inl ⟨_, Converges.const _⟩
  | cons c rest =>
      simp only [parseRestoreVariable]
      split
      · exact .inl ⟨_, Converges.const _⟩
      split
      · exact .inl ⟨_, Converges.const _⟩
      · exact parseRealSaveValue_decided (c :: rest)

/-- The whole reader comes to an end on exactly the texts the scan accepts. -/
theorem total_parseRestoreVariableTopLevel_iff (s : Str) :
    Total (fun fuel => parseRestoreVariableTopLevel fuel s) ↔ readable s = true := by
  rw [← total_parseRestoreVariable_iff]
  exact total_value_iff Prod.fst (parseRestoreVariable_decided s)

/-- Reading a text, and reading any element the reader is entered with, comes to
an end with a value or a trappable exception exactly when the scan accepts the
text. -/
theorem reader_total_iff (s : Str) :
    (Total (fun fuel => parseRestoreVariableTopLevel fuel s) ↔ readable s = true) ∧
      (Total (fun fuel => parseRealSaveValue fuel s) ↔ readableValue s = true) :=
  ⟨total_parseRestoreVariableTopLevel_iff s, total_parseRealSaveValue_iff s⟩

/-- On an array whose first element is a letter the element loop never ends. -/
theorem reader_not_total :
    ¬ ∀ s, Total (fun fuel => parseRestoreVariableTopLevel fuel s) := by
  intro total
  have stalled := (total_parseRestoreVariableTopLevel_iff (str "(\x7bx")).mp (total _)
  have refused : readable (str "(\x7bx") = scanWith true [.array] (str "x") := rfl
  rw [refused, show str "x" = [0x78] from rfl,
    scan_other .array (by decide) (by decide)] at stalled
  contradiction

end Kjdmud.SaveVariable
