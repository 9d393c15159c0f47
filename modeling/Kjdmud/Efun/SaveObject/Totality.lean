import Kjdmud.Efun.SaveObject.Legacy
import Kjdmud.Efun.SaveObject.RoundTrip
import Kjdmud.Vm.SaveVariable.Totality

/-!
# The fate of a line of a save file

`restore_object` reads a value from each line that goes to a variable.  Each of the two
formats has a scan that tells how the reading of a line ends without building its value.
-/

namespace Kjdmud.Efun

open Fuel Decoded Tagged Drain
open SaveVariable (SaveValue readableWith readableValue)

/-! ## The form of a line -/

/-- The two formats, and the lines that are skipped. -/
inductive LineForm
  | skipped
  | legacy (name : Str)
  | newer (name text : Str)

/-- The form of a line. -/
def lineForm (line : Str) : LineForm :=
  if line.isEmpty ∨ line.head? = some hash then .skipped
  else
    match cutAt [tab] line with
    | some (name, _) => .legacy name
    | none =>
        match cutAt [space] line with
        | some (name, text) => .newer name text
        | none => .skipped

/-- The name and the reader of a line, by its form. -/
def LineForm.split (line : Str) :
    LineForm → Option (Str × (Nat → Option (Except RestoreError SaveValue)))
  | .skipped => none
  | .legacy name => some (name, readLegacy line (name.length + 1))
  | .newer name text => some (name, readReal text)

theorem splitLine_eq (line : Str) : splitLine line = (lineForm line).split line := by
  unfold splitLine lineForm
  split
  · rfl
  · cases cutAt [tab] line with
    | some parts => rfl
    | none => cases cutAt [space] line <;> rfl

/-! ## The fate of a line -/

/-- How the reading of a line ends: the loop goes on with the next line, or it stops with
an exception that LPC can catch, or it fails otherwise. -/
inductive LineFate
  | goesOn
  | refuses
  | breaks

/-- A value in the older format, whose reader may ask for `proportion` times as much room
as the line is long. -/
def legacyFate (proportion : Nat) (line : Str) (pos : Nat) : LineFate :=
  match (legacyFormat (proportion * line.length) line).fate 1 pos 0 with
  | .goesOn _ _ => .goesOn
  | .refuses => .refuses
  | .breaks => .breaks

/-- A value in the newer format. -/
def newerFate (text : Str) : LineFate :=
  if readableWith false text then .goesOn
  else if readableValue text then .refuses
  else .breaks

/-- The fate of a value, by the form of its line. -/
def LineForm.fate (proportion : Nat) (line : Str) : LineForm → LineFate
  | .skipped => .goesOn
  | .legacy name => legacyFate proportion line (name.length + 1)
  | .newer _ text => newerFate text

/-- The name in front of a value. -/
def LineForm.name? : LineForm → Option Str
  | .skipped => none
  | .legacy name => some name
  | .newer name _ => some name

/-- The fate of a line of a file. -/
def lineFate (proportion : Nat) (names : List Str) (vars : List SaveValue) (line : Str) :
    LineFate :=
  match (lineForm line).name?.bind (slotOf names vars) with
  | some _ => (lineForm line).fate proportion line
  | none => .goesOn

/-- The fate of the lines of a file. -/
def linesFate (proportion : Nat) (names : List Str) (vars : List SaveValue) :
    List Str → LineFate
  | [] => .goesOn
  | line :: later =>
      match lineFate proportion names vars line with
      | .goesOn => linesFate proportion names vars later
      | .refuses => .refuses
      | .breaks => .breaks

/-! ## The older format -/

/-- `deserializeValue`, entered at a position of a line, comes to an end within as many
levels of recursion as there are bytes left, with a value or an exception that LPC can
catch; it never moves back, and asks for at most `proportion` times as many elements and
bytes as the line has. -/
def DecodesSoundly (proportion : Nat) (line : Str) (pos : Nat) : Prop :=
  Total RestoreError.trappable (proportion * line.length) (line.length - pos + 1)
    fun fuel => deserializeValue fuel line ⟨pos, 0, false⟩

theorem start_verdict (proportion : Nat) (line : Str) (pos : Nat) :
    ValueVerdict (proportion * line.length) line ⟨pos, 0, false⟩ :=
  value_verdict (line.length - pos) _ (Nat.le_refl _) ⟨rfl, Nat.zero_le _⟩

theorem legacyFate_ne_breaks {proportion : Nat} {line : Str} {pos : Nat} :
    legacyFate proportion line pos ≠ .breaks ↔
      (legacyFormat (proportion * line.length) line).fate 1 pos 0 ≠ .breaks := by
  unfold legacyFate
  cases (legacyFormat (proportion * line.length) line).fate 1 pos 0 <;> simp

/-- The scan decides whether the reader of the older format is sound. -/
theorem decodesSoundly_iff_fate (proportion : Nat) (line : Str) (pos : Nat) :
    DecodesSoundly proportion line pos ↔ legacyFate proportion line pos ≠ .breaks := by
  have decides := (start_verdict proportion line pos).total_iff
  exact decides.trans legacyFate_ne_breaks.symm

/-! ## What a fate says of the reader -/

/-- What the fate of a line says of the reader of its value. -/
def LineFate.Describes (read : Nat → Option (Except RestoreError SaveValue)) :
    LineFate → Prop
  | .goesOn => ∃ v, Converges read (.ok v)
  | .refuses => ∃ e, Converges read (.error e) ∧ e.trappable = true
  | .breaks => True

/-- The reader of a line fails: it never ends, or it ends with an exception that is not
caught. -/
def Fails (read : Nat → Option (Except RestoreError SaveValue)) : Prop :=
  Diverges read ∨ ∃ e, Converges read (.error e) ∧ e.trappable = false

theorem describes_legacyFate (proportion : Nat) (line : Str) (pos : Nat) :
    (legacyFate proportion line pos).Describes (readLegacy line pos) := by
  have fate : ∀ ends, (legacyFormat (proportion * line.length) line).fate (1 + 0) pos 0 = ends →
      legacyFate proportion line pos =
        match ends with
        | .goesOn _ _ => .goesOn
        | .refuses => .refuses
        | .breaks => .breaks := by
    rintro ends rfl
    rfl
  cases start_verdict proportion line pos with
  | returns v c' settles sound onward agree =>
      rw [fate _ ((agree 0).trans (fate_zero _ _))]
      exact ⟨v, settles.converges.map Prod.fst⟩
  | refuses e c' settles caught sound agree =>
      rw [fate _ (agree 0)]
      exact ⟨e, settles.converges.map Prod.fst, caught⟩
  | breaks bad agree =>
      rw [fate _ (agree 0)]
      trivial

theorem describes_newerFate (text : Str) : (newerFate text).Describes (readReal text) := by
  unfold newerFate
  split
  · rename_i returns
    obtain ⟨⟨v, rest⟩, converges⟩ := (SaveVariable.returns_parseRealSaveValue_iff text).2 returns
    exact ⟨v, converges_readReal converges⟩
  split
  · rename_i noValue readable
    obtain ⟨result, converges, caught⟩ :=
      (SaveVariable.total_parseRealSaveValue_iff text).2 readable
    cases result with
    | ok a => exact absurd ((SaveVariable.returns_parseRealSaveValue_iff text).1 ⟨a, converges⟩) noValue
    | error e =>
        refine ⟨.read e, converges.map _, ?_⟩
        have isCaught := caught e rfl
        cases e with
        | lpc message => rfl
        | invalidArgument => exact isCaught
        | outOfRange => exact isCaught
  · trivial

theorem fails_readReal {text : Str} (breaks : newerFate text = .breaks) :
    Fails (readReal text) := by
  unfold newerFate at breaks
  split at breaks
  · cases breaks
  split at breaks
  · cases breaks
  rename_i unreadable
  have notTotal := mt (SaveVariable.total_parseRealSaveValue_iff text).1 unreadable
  rcases SaveVariable.parseRealSaveValue_decided text with ⟨result, converges⟩ | diverges
  · cases result with
    | ok a => exact absurd (SaveVariable.total_of_ok converges) notTotal
    | error e =>
        refine .inr ⟨.read e, converges.map _, ?_⟩
        have uncaught := mt (SaveVariable.total_iff_of_error converges).2 notTotal
        cases e with
        | lpc message => exact absurd rfl uncaught
        | invalidArgument => rfl
        | outOfRange => rfl
  · exact .inl (diverges.map _)

/-!
## When `restore_object` is total

`restore_object` goes through a file line by line; the file ends as its lines do, up to the
first at which reading stops.
-/

open Fuel Decoded Tagged
open SaveVariable (SaveValue)

/-! ## Lines -/

/-- The calls of `deserializeValue` that the loop of `restore_object` makes. -/
inductive Decodes (names : List Str) : List Str → List SaveValue → Str → Nat → Prop
  | here {line name : Str} {later : List Str} {vars : List SaveValue} {slot : Nat}
      (form : lineForm line = .legacy name) (isSlot : slotOf names vars name = some slot) :
      Decodes names (line :: later) vars line (name.length + 1)
  | skip {line line' : Str} {later : List Str} {vars : List SaveValue} {pos : Nat}
      (skipped : ∀ name read, splitLine line = some (name, read) → slotOf names vars name = none)
      (rest : Decodes names later vars line' pos) :
      Decodes names (line :: later) vars line' pos
  | read {line line' name : Str} {later : List Str} {vars : List SaveValue} {pos slot : Nat}
      {read : Nat → Option (Except RestoreError SaveValue)} {v : SaveValue}
      (split : splitLine line = some (name, read)) (isSlot : slotOf names vars name = some slot)
      (value : Converges read (.ok v)) (rest : Decodes names later (vars.set slot v) line' pos) :
      Decodes names (line :: later) vars line' pos

/-- The loop over some lines comes to an end, with all variables restored or with an
exception that LPC can catch, and `deserializeValue` is sound wherever the loop calls
it. -/
structure LinesTotal (proportion : Nat) (names : List Str) (lines : List Str)
    (vars : List SaveValue) : Prop where
  ends : ∃ result vars', Converges (fun fuel => restoreLines fuel names lines vars) (result, vars') ∧
    ∀ e, result = .error e → e.trappable = true
  sound : ∀ line pos, Decodes names lines vars line pos → DecodesSoundly proportion line pos

/-- The loop calls `deserializeValue` where it is not sound, or never comes to an end, or
ends with an exception that is not caught. -/
inductive LinesFail (proportion : Nat) (names : List Str) (lines : List Str)
    (vars : List SaveValue) : Prop
  | unsound (line : Str) (pos : Nat) (decodes : Decodes names lines vars line pos)
      (bad : ¬ DecodesSoundly proportion line pos)
  | diverges (diverges : Diverges fun fuel => restoreLines fuel names lines vars)
  | uncaught (e : RestoreError) (vars' : List SaveValue)
      (converges : Converges (fun fuel => restoreLines fuel names lines vars) (.error e, vars'))
      (bad : e.trappable = false)

section Lines

variable {proportion : Nat} {names : List Str} {line name : Str} {later : List Str}
  {vars : List SaveValue} {slot : Nat}

theorem slotOf_set (v : SaveValue) (name : Str) :
    slotOf names (vars.set slot v) name = slotOf names vars name := by
  unfold slotOf
  rw [List.length_set]

theorem linesFate_set (v : SaveValue) (lines : List Str) :
    linesFate proportion names (vars.set slot v) lines = linesFate proportion names vars lines := by
  have sameSlot : slotOf names (vars.set slot v) = slotOf names vars := funext (slotOf_set v)
  induction lines with
  | nil => rfl
  | cons line later inductionHypothesis =>
      simp only [linesFate, lineFate, sameSlot, inductionHypothesis]

/-- A line that goes to no variable changes nothing. -/
theorem LinesTotal.skip
    (skipped : ∀ name read, splitLine line = some (name, read) → slotOf names vars name = none)
    (total : LinesTotal proportion names later vars) :
    LinesTotal proportion names (line :: later) vars := by
  obtain ⟨⟨result, vars', converges, caught⟩, sound⟩ := total
  refine ⟨⟨result, vars', converges.congr (restoreLines_skip skipped), caught⟩, ?_⟩
  intro line' pos decodes
  cases decodes with
  | here form isSlot =>
      rw [splitLine_eq, form] at skipped
      rw [skipped _ _ rfl] at isSlot
      cases isSlot
  | skip _ rest => exact sound line' pos rest
  | read split isSlot value rest =>
      rw [skipped _ _ split] at isSlot
      cases isSlot

theorem LinesFail.skip
    (skipped : ∀ name read, splitLine line = some (name, read) → slotOf names vars name = none)
    (fail : LinesFail proportion names later vars) :
    LinesFail proportion names (line :: later) vars := by
  have same (fuel : Nat) : restoreLines fuel names (line :: later) vars =
      restoreLines fuel names later vars := restoreLines_skip skipped fuel
  cases fail with
  | unsound line' pos decodes bad => exact .unsound line' pos (.skip skipped decodes) bad
  | diverges diverges => exact .diverges fun fuel => (same fuel).trans (diverges fuel)
  | uncaught e vars' converges bad => exact .uncaught e vars' (converges.congr same) bad

section Read

variable {reader : Nat → Option (Except RestoreError SaveValue)}
  (split : splitLine line = some (name, reader)) (isSlot : slotOf names vars name = some slot)
  (sound : ∀ name, lineForm line = .legacy name → DecodesSoundly proportion line (name.length + 1))

include split isSlot

/-- A line whose value is read. -/
theorem LinesFail.read {v : SaveValue} (value : Converges reader (.ok v))
    (fail : LinesFail proportion names later (vars.set slot v)) :
    LinesFail proportion names (line :: later) vars := by
  have unfolds (fuel : Nat) : restoreLines fuel names (line :: later) vars =
      (reader fuel).bind (afterRead fuel names later vars slot) :=
    restoreLines_slot split isSlot fuel
  cases fail with
  | unsound line' pos decodes bad =>
      exact .unsound line' pos (.read split isSlot value decodes) bad
  | diverges diverges =>
      exact .diverges fun fuel => (unfolds fuel).trans (value.bind_eq_none (diverges fuel))
  | uncaught e vars' converges bad =>
      refine .uncaught e vars' (Converges.congr ?_ unfolds) bad
      exact value.bind converges

/-- A line whose reader fails. -/
theorem LinesFail.fails (fails : Fails reader) : LinesFail proportion names (line :: later) vars := by
  have unfolds (fuel : Nat) : restoreLines fuel names (line :: later) vars =
      (reader fuel).bind (afterRead fuel names later vars slot) :=
    restoreLines_slot split isSlot fuel
  rcases fails with diverges | ⟨e, converges, uncaught⟩
  · have stuck := diverges.bind (g := fun fuel => afterRead fuel names later vars slot)
    exact .diverges fun fuel => (unfolds fuel).trans (stuck fuel)
  · refine .uncaught e vars (Converges.congr ?_ unfolds) uncaught
    exact converges.bind (Converges.const _)

include sound

theorem LinesTotal.read {v : SaveValue} (value : Converges reader (.ok v))
    (total : LinesTotal proportion names later (vars.set slot v)) :
    LinesTotal proportion names (line :: later) vars := by
  obtain ⟨⟨result, vars', converges, caught⟩, soundLater⟩ := total
  refine ⟨⟨result, vars', ?_, caught⟩, ?_⟩
  · refine Converges.congr ?_ (restoreLines_slot split isSlot)
    exact value.bind converges
  · intro line' pos decodes
    cases decodes with
    | here legacy isSlot' => exact sound _ legacy
    | skip skipped rest =>
        rw [skipped _ _ split] at isSlot
        cases isSlot
    | read split' isSlot' value' rest =>
        obtain ⟨rfl, rfl⟩ := Prod.mk.inj (Option.some.inj (split.symm.trans split'))
        cases isSlot.symm.trans isSlot'
        cases value.unique value'
        exact soundLater line' pos rest

/-- A line that is refused is the last one. -/
theorem LinesTotal.refuse {e : RestoreError} (value : Converges reader (.error e))
    (caught : e.trappable = true) : LinesTotal proportion names (line :: later) vars := by
  refine ⟨⟨.error e, vars, ?_, ?_⟩, ?_⟩
  · refine Converges.congr ?_ (restoreLines_slot split isSlot)
    exact value.bind (Converges.const _)
  · intro e' same
    cases same
    exact caught
  · intro line' pos decodes
    cases decodes with
    | here legacy isSlot' => exact sound _ legacy
    | skip skipped rest =>
        rw [skipped _ _ split] at isSlot
        cases isSlot
    | read split' isSlot' value' rest =>
        obtain ⟨rfl, rfl⟩ := Prod.mk.inj (Option.some.inj (split.symm.trans split'))
        cases value.unique value'

end Read

/-- What a line adds to what follows it, by its fate. -/
theorem lineFate_cases (proportion : Nat) (names : List Str) (vars : List SaveValue)
    (line : Str) :
    (lineFate proportion names vars line = .goesOn ∧
        ∀ name read, splitLine line = some (name, read) → slotOf names vars name = none) ∨
      ∃ name reader slot, splitLine line = some (name, reader) ∧
        slotOf names vars name = some slot ∧
        (lineFate proportion names vars line).Describes reader ∧
        (lineFate proportion names vars line = .breaks →
          Fails reader ∨ lineForm line = .legacy name ∧
            ¬ DecodesSoundly proportion line (name.length + 1)) ∧
        (lineFate proportion names vars line ≠ .breaks → ∀ name, lineForm line = .legacy name →
          DecodesSoundly proportion line (name.length + 1)) := by
  unfold lineFate
  rw [splitLine_eq]
  cases form : lineForm line with
  | skipped =>
      refine .inl ⟨rfl, ?_⟩
      intro name read split
      cases split
  | legacy name =>
      cases isSlot : slotOf names vars name with
      | none =>
          refine .inl ⟨?_, ?_⟩
          · simp only [LineForm.name?, Option.bind_some, isSlot]
          · rintro name' read split
            cases split
            exact isSlot
      | some slot =>
          have decided := decodesSoundly_iff_fate proportion line (name.length + 1)
          simp only [LineForm.name?, Option.bind_some, isSlot]
          refine .inr ⟨name, _, slot, rfl, isSlot, describes_legacyFate _ _ _, ?_, ?_⟩
          · intro breaks
            exact .inr ⟨rfl, fun sound => decided.1 sound breaks⟩
          · intro fine name' same
            cases same
            exact decided.2 fine
  | newer name text =>
      cases isSlot : slotOf names vars name with
      | none =>
          refine .inl ⟨?_, ?_⟩
          · simp only [LineForm.name?, Option.bind_some, isSlot]
          · rintro name' read split
            cases split
            exact isSlot
      | some slot =>
          simp only [LineForm.name?, Option.bind_some, isSlot]
          refine .inr ⟨name, _, slot, rfl, isSlot, describes_newerFate text, ?_, ?_⟩
          · intro breaks
            exact .inl (fails_readReal breaks)
          · intro fine name' impossible
            cases impossible

/-- The fate of the lines decides whether the loop over them is total. -/
theorem lines_verdict (proportion : Nat) (names lines : List Str) (vars : List SaveValue) :
    (linesFate proportion names vars lines ≠ .breaks → LinesTotal proportion names lines vars) ∧
      (linesFate proportion names vars lines = .breaks →
        LinesFail proportion names lines vars) := by
  induction lines generalizing vars with
  | nil =>
      refine ⟨fun _ => ⟨⟨.ok (), vars, Converges.const _, nofun⟩, ?_⟩, nofun⟩
      intro line pos decodes
      cases decodes
  | cons line later inductionHypothesis =>
      rw [linesFate]
      rcases lineFate_cases proportion names vars line with
        ⟨goesOn, skipped⟩ | ⟨name, reader, slot, split, isSlot, describes, bad, sound⟩
      · rw [goesOn]
        obtain ⟨total, fail⟩ := inductionHypothesis vars
        exact ⟨fun fine => (total fine).skip skipped, fun breaks => (fail breaks).skip skipped⟩
      · cases fate : lineFate proportion names vars line with
        | goesOn =>
            rw [fate] at describes sound
            obtain ⟨v, value⟩ := describes
            obtain ⟨total, fail⟩ := inductionHypothesis (vars.set slot v)
            rw [linesFate_set] at total fail
            exact ⟨fun fine => (total fine).read split isSlot (sound nofun) value,
              fun breaks => (fail breaks).read split isSlot value⟩
        | refuses =>
            rw [fate] at describes sound
            obtain ⟨e, value, caught⟩ := describes
            exact ⟨fun _ => .refuse split isSlot (sound nofun) value caught, nofun⟩
        | breaks =>
            refine ⟨fun fine => absurd rfl fine, fun _ => ?_⟩
            rcases bad fate with fails | ⟨form, unsound⟩
            · exact .fails split isSlot fails
            · exact .unsound _ _ (.here form isSlot) unsound

theorem LinesFail.not_total {lines : List Str} (fail : LinesFail proportion names lines vars) :
    ¬ LinesTotal proportion names lines vars := by
  rintro ⟨⟨result, vars', converges, caught⟩, sound⟩
  cases fail with
  | unsound line pos decodes bad => exact bad (sound line pos decodes)
  | diverges diverges => exact converges.not_diverges diverges
  | uncaught e vars'' converges' bad =>
      cases converges.unique converges'
      rw [caught e rfl] at bad
      cases bad

theorem linesTotal_iff_fate (proportion : Nat) (names lines : List Str) (vars : List SaveValue) :
    LinesTotal proportion names lines vars ↔ linesFate proportion names vars lines ≠ .breaks := by
  have verdict := lines_verdict proportion names lines vars
  refine ⟨fun total breaks => (verdict.2 breaks).not_total total, verdict.1⟩

end Lines

/-! ## Variables that no line names -/

/-- Whatever it ends with, the loop leaves the variables alone that no line names. -/
theorem getElem?_restoreLines {names lines : List Str} {vars vars' : List SaveValue} {fuel slot : Nat}
    {result : Except RestoreError Unit}
    (unnamed : ∀ line ∈ lines, ∀ name read, splitLine line = some (name, read) →
      names[slot]? ≠ some name)
    (ended : restoreLines fuel names lines vars = some (result, vars')) :
    vars'[slot]? = vars[slot]? := by
  induction lines generalizing vars with
  | nil =>
      cases ended
      rfl
  | cons line later inductionHypothesis =>
      have rest {vars : List SaveValue}
          (ended : restoreLines fuel names later vars = some (result, vars')) :
          vars'[slot]? = vars[slot]? :=
        inductionHypothesis (fun line mem => unnamed line (List.mem_cons_of_mem _ mem)) ended
      rw [restoreLines] at ended
      split at ended
      · exact rest ended
      · rename_i name read split
        split at ended
        · exact rest ended
        · rename_i slot' isSlot
          split at ended
          · cases ended
          · cases ended
            rfl
          · rename_i v value
            rw [rest ended, List.getElem?_set_ne]
            rintro rfl
            have isFirst := (slotOf_eq_some.1 isSlot).1
            exact unnamed line List.mem_cons_self name read split (findIdx?_name.1 isFirst).1

/-! ## The efun -/

/-- The object that a call of `restore_object` restores, and the file it reads. -/
def restoredFile (driver : Driver) (disk : Disk) (args : List SaveValue)
    (current : Option SaveObject) : Option (SaveObject × Str) :=
  match args with
  | .string path :: _ => do
      let obj ← current
      let gated ← driver.checkValidPath (normalizeSavePath path) false (str "restore_object")
      let text ← disk (driver.resolveMudlibPath gated)
      some (obj, text)
  | _ => none

/-- A call of `restore_object` comes to an end, with a return value or an `LpcRuntimeError`,
and its calls of `deserializeValue` are sound. -/
structure RestoresSoundly (proportion : Nat) (driver : Driver) (disk : Disk)
    (args : List SaveValue) (current : Option SaveObject) : Prop where
  ends : ∃ result vars, Converges (restoreObject driver disk args current) (result, vars) ∧
    ∀ e, result = .error e → e.trappable = true
  sound : ∀ obj text, restoredFile driver disk args current = some (obj, text) →
    ∀ line pos, Decodes obj.objectVarNames (lines text) obj.vars line pos →
      DecodesSoundly proportion line pos

/-- The efun's value. -/
def returned (ended : Except RestoreError Unit × List SaveValue) :
    Except RestoreError SaveValue × List SaveValue :=
  (ended.1.map fun _ => .int 1 false, ended.2)

section Efun

variable {driver : Driver} {disk : Disk} {args : List SaveValue} {current : Option SaveObject}

/-- A call that reads a file. -/
theorem restoreObject_file {obj : SaveObject} {text : Str}
    (isFile : restoredFile driver disk args current = some (obj, text)) :
    current = some obj ∧ ∀ fuel, restoreObject driver disk args current fuel =
      (restoreLines fuel obj.objectVarNames (lines text) obj.vars).map returned := by
  unfold restoredFile at isFile
  split at isFile
  · rename_i path rest
    obtain ⟨obj', isObject, isFile⟩ := Option.bind_eq_some_iff.1 isFile
    obtain ⟨gated, isGated, isFile⟩ := Option.bind_eq_some_iff.1 isFile
    obtain ⟨text', isText, isFile⟩ := Option.bind_eq_some_iff.1 isFile
    cases isFile
    refine ⟨isObject, fun fuel => ?_⟩
    simp only [restoreObject, isObject, isGated, isText]
    rfl
  · cases isFile

/-- A call that reads no file ends at once and changes nothing. -/
theorem restoreObject_noFile (noFile : restoredFile driver disk args current = none) :
    ∃ result, (∀ fuel, restoreObject driver disk args current fuel =
        some (result, (current.map SaveObject.vars).getD [])) ∧
      ∀ e, result = .error e → e.trappable = true := by
  by_cases isPath : ∃ path rest, args = .string path :: rest
  · obtain ⟨path, rest, rfl⟩ := isPath
    cases current with
    | none =>
        refine ⟨_, fun fuel => rfl, ?_⟩
        intro e same
        cases same
        rfl
    | some obj =>
        refine ⟨.ok SaveVariable.zero, fun fuel => ?_, nofun⟩
        cases isGated : driver.checkValidPath (normalizeSavePath path) false
            (str "restore_object") with
        | none => simp [restoreObject, isGated]
        | some gated =>
            cases isText : disk (driver.resolveMudlibPath gated) with
            | none => simp [restoreObject, isGated, isText]
            | some text => simp [restoredFile, isGated, isText] at noFile
  · refine ⟨.error (.lpc (str "restore_object: expected a string path argument")),
      fun fuel => ?_, ?_⟩
    · unfold restoreObject
      split
      · exact absurd ⟨_, _, rfl⟩ isPath
      · rfl
    · intro e same
      cases same
      rfl

/-- A call that reads a file is as total as its loop. -/
theorem restoresSoundly_file {proportion : Nat} {obj : SaveObject} {text : Str}
    (isFile : restoredFile driver disk args current = some (obj, text)) :
    RestoresSoundly proportion driver disk args current ↔
      LinesTotal proportion obj.objectVarNames (lines text) obj.vars := by
  have runs := (restoreObject_file isFile).2
  constructor
  · rintro ⟨⟨result, vars, converges, caught⟩, sound⟩
    by_contra notTotal
    have fate := mt (linesTotal_iff_fate proportion obj.objectVarNames (lines text) obj.vars).2
      notTotal
    cases (lines_verdict _ _ _ _).2 (not_not.1 fate) with
    | unsound line pos decodes bad => exact bad (sound obj text isFile line pos decodes)
    | diverges diverges =>
        exact converges.not_diverges fun fuel => (runs fuel).trans (diverges.map returned fuel)
    | uncaught e vars' converges' bad =>
        cases converges.unique ((converges'.map returned).congr runs)
        rw [caught e rfl] at bad
        cases bad
  · rintro ⟨⟨result, vars, converges, caught⟩, sound⟩
    refine ⟨⟨_, _, (converges.map returned).congr runs, ?_⟩, ?_⟩
    · intro e same
      cases result with
      | ok a => cases same
      | error e' =>
          cases same
          exact caught e rfl
    · intro obj' text' isFile'
      cases isFile.symm.trans isFile'
      exact sound

theorem restoresSoundly_noFile (proportion : Nat)
    (noFile : restoredFile driver disk args current = none) :
    RestoresSoundly proportion driver disk args current := by
  obtain ⟨result, runs, caught⟩ := restoreObject_noFile noFile
  refine ⟨⟨result, _, (Converges.const _).congr runs, caught⟩, ?_⟩
  intro obj text isFile
  rw [noFile] at isFile
  cases isFile

end Efun

/-- `restore_object` is total, and its reader of the older format is sound wherever it is
called, exactly if no line of the file breaks; wherever `deserializeValue` is entered, its
scan tells whether it is sound; and a variable that no line names keeps its value, whatever
the outcome. -/
theorem restore_object_total_iff (proportion : Nat) (driver : Driver) (disk : Disk)
    (args : List SaveValue) (current : Option SaveObject) :
    (RestoresSoundly proportion driver disk args current ↔
      ∀ obj text, restoredFile driver disk args current = some (obj, text) →
        linesFate proportion obj.objectVarNames obj.vars (lines text) ≠ .breaks) ∧
    (∀ line pos, DecodesSoundly proportion line pos ↔
      legacyFate proportion line pos ≠ .breaks) ∧
    ∀ obj fuel result (vars : List SaveValue) (slot : Nat), current = some obj →
      restoreObject driver disk args current fuel = some (result, vars) →
      (∀ text, restoredFile driver disk args current = some (obj, text) →
        ∀ line ∈ lines text, ∀ name read, splitLine line = some (name, read) →
          obj.objectVarNames[slot]? ≠ some name) →
      vars[slot]? = obj.vars[slot]? := by
  refine ⟨?_, decodesSoundly_iff_fate proportion, ?_⟩
  · cases isFile : restoredFile driver disk args current with
    | none => exact iff_of_true (restoresSoundly_noFile proportion isFile) nofun
    | some file =>
        obtain ⟨obj, text⟩ := file
        rw [restoresSoundly_file isFile, linesTotal_iff_fate]
        constructor
        · intro fine obj' text' same
          cases same
          exact fine
        · intro fine
          exact fine obj text rfl
  · intro obj fuel result vars slot isObject ended unnamed
    cases isFile : restoredFile driver disk args current with
    | none =>
        obtain ⟨result', runs, _⟩ := restoreObject_noFile isFile
        rw [runs fuel, isObject] at ended
        cases ended
        rfl
    | some file =>
        obtain ⟨obj', text⟩ := file
        obtain ⟨isObject', runs⟩ := restoreObject_file isFile
        cases isObject.symm.trans isObject'
        rw [runs fuel] at ended
        obtain ⟨⟨result', vars'⟩, looped, same⟩ := Option.map_eq_some_iff.1 ended
        cases same
        exact getElem?_restoreLines (unnamed text isFile) looped

/-! ## A file -/

/-- A driver that lets every path pass. -/
def openDriver : Driver where
  checkValidPath path _ _ := some path
  mudlibRoot := []
  opens _ := true

/-- An object with one variable. -/
def oneVariable : SaveObject where
  filename := str "/obj"
  objectVarNames := [str "x"]
  vars := [SaveVariable.zero]

/-- The line `x`, a tab and `Iq;`, whose number does not convert. -/
def badNumber : Str :=
  str "x" ++ tab :: str "Iq;"

/-- On that line `restore_object` ends with an exception that LPC cannot catch. -/
theorem badNumber_not_restored :
    ¬ ∃ proportion, ∀ disk, RestoresSoundly proportion openDriver disk [.string (str "/save")]
      (some oneVariable) := by
  rintro ⟨proportion, restores⟩
  have isFile : restoredFile openDriver (fun _ => some badNumber) [.string (str "/save")]
      (some oneVariable) = some (oneVariable, badNumber) := rfl
  have total := (restoresSoundly_file isFile).1 (restores fun _ => some badNumber)
  have fine := (linesTotal_iff_fate _ _ _ _).1 total
  have isTag : legacyTag badNumber 2 = .breaks := by decide
  have breaks : (legacyFormat (proportion * badNumber.length) badNumber).fate 1 2 0 = .breaks :=
    fate_breaks (show 2 < badNumber.length by decide) 0 0 isTag
  apply fine
  have oneLine : lines badNumber = [badNumber] := by decide
  have form : lineForm badNumber = .legacy (str "x") := rfl
  have isSlot : slotOf [str "x"] [SaveVariable.zero] (str "x") = some 0 := by decide
  have stops : lineFate proportion [str "x"] [SaveVariable.zero] badNumber = .breaks := by
    unfold lineFate
    rw [form]
    simp only [LineForm.name?, Option.bind_some, isSlot, LineForm.fate, legacyFate]
    have start : (str "x").length + 1 = 2 := rfl
    rw [start, breaks]
  rw [oneLine]
  show linesFate proportion [str "x"] [SaveVariable.zero] [badNumber] = .breaks
  rw [linesFate, stops]

end Kjdmud.Efun
