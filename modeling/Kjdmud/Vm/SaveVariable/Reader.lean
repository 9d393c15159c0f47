import Kjdmud.Lib.Fuel
import Kjdmud.Vm.SaveVariable

/-!
# Rules for the save-format reader

How the reader's functions sequence, and what one unfolding of each element
loop does.  The round trip and the totality analysis both work with these
rules only and never unfold the mutual block again.
-/

namespace Kjdmud.SaveVariable

open Fuel Outcome

universe u v

/-! ## Sequencing -/

section Sequencing

variable {α β : Type} {f : Nat → Outcome α} {g : Nat → α → Outcome β}

/-- A sequence whose first part returns continues with the second part. -/
theorem converges_andThen {a : α} {result : Except ReadError β}
    (first : Converges f (.ok a)) (second : Converges (fun fuel => g fuel a) result) :
    Converges (fun fuel => (f fuel).andThen (g fuel)) result :=
  first.bind (g := fun fuel => resume (g fuel)) second

/-- An exception of the first part is the exception of the sequence. -/
theorem converges_andThen_error {e : ReadError}
    (first : Converges f (.error e)) :
    Converges (fun fuel => (f fuel).andThen (g fuel)) (.error e) :=
  first.bind (g := fun fuel => resume (g fuel)) (Converges.const _)

/-- A sequence diverges with its first part. -/
theorem diverges_andThen (first : Diverges f) :
    Diverges (fun fuel => (f fuel).andThen (g fuel)) :=
  first.bind (g := fun fuel => resume (g fuel))

/-- A sequence diverges with its second part. -/
theorem diverges_andThen_right {a : α} (first : Converges f (.ok a))
    (second : Diverges fun fuel => g fuel a) :
    Diverges (fun fuel => (f fuel).andThen (g fuel)) :=
  Diverges.bind_right (g := fun fuel => resume (g fuel)) first second

theorem andThen_eq_none {g : α → Outcome β} {a : α} {fuel : Nat}
    (first : Converges f (.ok a)) (second : g a = none) : (f fuel).andThen g = none :=
  first.bind_eq_none (g := resume g) second

end Sequencing

attribute [local simp] parseRealSaveValue parseItems parseEntries parseExtra
  parseRealSaveString parseRestoreVariableBody skipByte

/-! ## Strings -/

@[simp]
theorem parseRealSaveString_quote (rest : Str) :
    parseRealSaveString (quote :: rest) = ([], rest) := by
  rw [parseRealSaveString.eq_def]
  rfl

theorem parseRealSaveString_escape (escaped : UInt8) (rest : Str) :
    parseRealSaveString (backslash :: escaped :: rest) =
      (escaped :: (parseRealSaveString rest).1, (parseRealSaveString rest).2) := by
  rw [parseRealSaveString.eq_def]
  rfl

theorem parseRealSaveString_byte {c : UInt8} (rest : Str)
    (noQuote : c ≠ quote) (noEscape : c ≠ backslash) :
    parseRealSaveString (c :: rest) =
      ((if c = cr then lf else c) :: (parseRealSaveString rest).1,
        (parseRealSaveString rest).2) := by
  rw [parseRealSaveString.eq_def]
  simp [noQuote, noEscape]

@[simp]
theorem parseRestoreVariableBody_quote (rest : Str) :
    parseRestoreVariableBody (quote :: rest) = .ok ([], rest) := by
  rw [parseRestoreVariableBody.eq_def]
  rfl

theorem parseRestoreVariableBody_escape (escaped : UInt8) (rest : Str) :
    parseRestoreVariableBody (backslash :: escaped :: rest) = (do
      let (result, rest) ← parseRestoreVariableBody rest
      pure ((if escaped = cr then lf else escaped) :: result, rest)) := by
  rw [parseRestoreVariableBody.eq_def]
  rfl

theorem parseRestoreVariableBody_byte {c : UInt8} (rest : Str)
    (noQuote : c ≠ quote) (noEscape : c ≠ backslash) :
    parseRestoreVariableBody (c :: rest) = (do
      let (result, rest) ← parseRestoreVariableBody rest
      pure ((if c = cr then lf else c) :: result, rest)) := by
  rw [parseRestoreVariableBody.eq_def]
  simp [noQuote, noEscape]

/-! ## Where a value starts -/

/-- The first bytes of the values the reader recognises. -/
def startsValue (c : UInt8) : Bool :=
  c == quote || c == openParen || c == minus || Decimal.isDigit c

/-- Anything but the first byte of a value reads as 0 and stays unread. -/
theorem converges_value_default {s : Str}
    (noStart : ∀ c ∈ s.head?, startsValue c = false) :
    Converges (fun fuel => parseRealSaveValue fuel s) (.ok (zero, s)) := by
  refine Converges.step rfl ((Converges.const _).congr fun fuel => ?_)
  cases s with
  | nil => rfl
  | cons c rest =>
      have noStart := noStart c rfl
      simp only [startsValue, Bool.or_eq_false_iff, beq_eq_false_iff_ne] at noStart
      simp [parseRealSaveValue, noStart, Outcome.ok]

/-- A string is read to its closing quote. -/
theorem converges_value_string (rest : Str) :
    Converges (fun fuel => parseRealSaveValue fuel (quote :: rest))
      (.ok (.string (parseRealSaveString rest).1, (parseRealSaveString rest).2)) := by
  refine Converges.step rfl ((Converges.const _).congr fun fuel => ?_)
  simp [parseRealSaveValue, Outcome.ok]

/-- A sign or a digit starts a number. -/
theorem converges_value_number {c : UInt8} (rest : Str)
    (starts : c = minus ∨ Decimal.isDigit c = true) :
    Converges (fun fuel => parseRealSaveValue fuel (c :: rest))
      (parseRealSaveNumber (c :: rest)) := by
  refine Converges.step rfl ((Converges.const _).congr fun fuel => ?_)
  have noQuote : c ≠ quote := by
    rintro rfl
    revert starts
    decide
  have noParen : c ≠ openParen := by
    rintro rfl
    revert starts
    decide
  simp [parseRealSaveValue, noQuote, noParen, starts]

/-- A parenthesis without a brace or bracket is refused. -/
theorem converges_value_class {rest : Str}
    (noBrace : rest.head? ≠ some openBrace) (noBracket : rest.head? ≠ some openBracket) :
    Converges (fun fuel => parseRealSaveValue fuel (openParen :: rest))
      (.error (.lpc (str "restore_object: class-typed save data is not supported"))) := by
  refine Converges.step rfl ((Converges.const _).congr fun fuel => ?_)
  have noQuote : openParen ≠ quote := by decide
  simp [parseRealSaveValue, noQuote, noBrace, noBracket, Outcome.throw]

theorem parseRealSaveValue_array (fuel : Nat) (rest : Str) :
    parseRealSaveValue (fuel + 1) (openParen :: openBrace :: rest) =
      (parseItems fuel [] rest).andThen fun (items, rest) =>
        .ok (.array items false, closeAggregate rest) := by
  have noQuote : openParen ≠ quote := by decide
  simp [parseRealSaveValue, noQuote]

theorem parseRealSaveValue_mapping (fuel : Nat) (rest : Str) :
    parseRealSaveValue (fuel + 1) (openParen :: openBracket :: rest) =
      (parseEntries fuel [] rest).andThen fun (rows, rest) =>
        .ok (finishMapping rows, closeAggregate rest) := by
  have noQuote : openParen ≠ quote := by decide
  have noBrace : openBracket ≠ openBrace := by decide
  simp [parseRealSaveValue, noQuote, noBrace]

/-! ## The element loops -/

/-- The element loop stops at its closing brace and at the end of the text. -/
theorem converges_items_stop (items : List SaveValue) {s : Str}
    (stops : ∀ c ∈ s.head?, c = closeBrace) :
    Converges (fun fuel => parseItems fuel items s) (.ok (items, s)) := by
  refine Converges.step rfl ((Converges.const _).congr fun fuel => ?_)
  cases s with
  | nil => rfl
  | cons c rest => simp [parseItems, stops c rfl, Outcome.ok]

theorem parseItems_comma (fuel : Nat) (items : List SaveValue) (rest : Str) :
    parseItems (fuel + 1) items (comma :: rest) = parseItems fuel (items ++ [zero]) rest := by
  have noBrace : comma ≠ closeBrace := by decide
  simp [parseItems, noBrace]

theorem parseItems_element (fuel : Nat) (items : List SaveValue) {c : UInt8} (rest : Str)
    (noBrace : c ≠ closeBrace) (noComma : c ≠ comma) :
    parseItems (fuel + 1) items (c :: rest) =
      (parseRealSaveValue fuel (c :: rest)).andThen fun (item, rest) =>
        parseItems fuel (items ++ [item]) (skipByte comma rest) := by
  simp [parseItems, noBrace, noComma]

/-- The entry loop stops at its closing bracket and at the end of the text. -/
theorem converges_entries_stop (rows : List (SaveValue × SaveValue × List SaveValue))
    {s : Str} (stops : ∀ c ∈ s.head?, c = closeBracket) :
    Converges (fun fuel => parseEntries fuel rows s) (.ok (rows, s)) := by
  refine Converges.step rfl ((Converges.const _).congr fun fuel => ?_)
  cases s with
  | nil => rfl
  | cons c rest => simp [parseEntries, stops c rfl, Outcome.ok]

theorem parseEntries_entry (fuel : Nat)
    (rows : List (SaveValue × SaveValue × List SaveValue)) {c : UInt8} (rest : Str)
    (noBracket : c ≠ closeBracket) :
    parseEntries (fuel + 1) rows (c :: rest) =
      (parseEntry fuel (c :: rest)).andThen fun (row, rest) =>
        parseEntries fuel (rows ++ [row]) rest := by
  simp [parseEntries, noBracket]

theorem parseEntry_succ (fuel : Nat) (s : Str) :
    parseEntry (fuel + 1) s =
      (parseRealSaveValue fuel s).andThen fun (key, rest) =>
        (parseRealSaveValue fuel (skipByte colon rest)).andThen fun (val, rest) =>
          (parseExtra fuel [] rest).andThen fun (extra, rest) =>
            .ok ((key, val, extra), skipByte comma rest) :=
  rfl

/-- The column loop stops at anything but a semicolon. -/
theorem converges_extra_stop (extra : List SaveValue) {s : Str}
    (stops : ∀ c ∈ s.head?, c ≠ semicolon) :
    Converges (fun fuel => parseExtra fuel extra s) (.ok (extra, s)) := by
  refine Converges.step rfl ((Converges.const _).congr fun fuel => ?_)
  cases s with
  | nil => rfl
  | cons c rest => simp [parseExtra, stops c rfl, Outcome.ok]

theorem parseExtra_column (fuel : Nat) (extra : List SaveValue) (rest : Str) :
    parseExtra (fuel + 1) extra (semicolon :: rest) =
      (parseRealSaveValue fuel rest).andThen fun (column, rest) =>
        parseExtra fuel (extra ++ [column]) rest := by
  simp [parseExtra]

/-! ## Skipping an optional byte -/

@[simp]
theorem skipByte_cons_self (c : UInt8) (rest : Str) : skipByte c (c :: rest) = rest := by
  simp [skipByte]

theorem skipByte_cons_of_ne {c first : UInt8} (rest : Str) (differ : first ≠ c) :
    skipByte c (first :: rest) = first :: rest := by
  simp [skipByte, differ]

theorem length_skipByte_le (c : UInt8) (s : Str) : (skipByte c s).length ≤ s.length := by
  cases s with
  | nil => simp [skipByte]
  | cons first rest =>
      by_cases equal : first = c
      · simp [skipByte, equal]
      · simp [skipByte, equal]

end Kjdmud.SaveVariable
