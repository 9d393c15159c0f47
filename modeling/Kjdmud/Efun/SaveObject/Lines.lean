import Kjdmud.Efun.SaveObject
import Kjdmud.Object.Compile.Linked
import Kjdmud.Vm.SaveVariable.Bytes

/-!
# The lines of a saved file

A saved file gives the lines of the variables back as they were written.  A line
without a tab is read as the value that was saved and goes to the first variable with
its name; a line with a tab is taken for the older format, where it names no
variable, and is skipped.
-/

namespace Kjdmud.Efun

open Fuel Drain
open SaveVariable hiding Outcome
open Vm (CompiledProgram)

/-! ## Names -/

/-- What the identifiers of the lexer and the names of private variables have in
common: they start no comment and hold no blank. -/
structure IsVarName (name : Str) : Prop where
  noComment : name.head? ≠ some hash
  visible : ∀ c ∈ name, 32 < c

theorem IsVarName.not_mem {name : Str} (isName : IsVarName name) {c : UInt8}
    (blank : ¬ 32 < c) : c ∉ name :=
  fun member => blank (isName.visible c member)

theorem isVarName_private (slot : Nat) :
    IsVarName (str "$private#" ++ Decimal.ofNat slot) where
  noComment := by
    have starts : (str "$private#").head? = some 36 := by decide
    rw [List.head?_append, starts, Option.some_or]
    decide
  visible c member := by
    rcases List.mem_append.1 member with marker | digit
    · have all : ∀ c ∈ str "$private#", 32 < c := by decide +kernel
      exact all c marker
    · have isDigit := Decimal.isDigit_of_mem_ofNat digit
      simp only [Decimal.isDigit, Bool.and_eq_true, decide_eq_true_eq] at isDigit
      exact UInt8.lt_of_lt_of_le (by decide) isDigit.1

/-! ## Lines -/

theorem lines_append {line : Str} (oneLine : lf ∉ line) (rest : Str) :
    lines (line ++ lf :: rest) = line :: lines rest := by
  induction line with
  | nil => rw [List.nil_append, lines, if_pos rfl]
  | cons c line inductionHypothesis =>
      rw [List.mem_cons, not_or] at oneLine
      rw [List.cons_append, lines, if_neg (Ne.symm oneLine.1), inductionHypothesis oneLine.2]

/-- The line of a variable, without its end. -/
def varLine (name : Str) (v : SaveValue) : Str :=
  name ++ space :: writeRealSaveValue v

theorem lines_vars {vars : List (Str × SaveValue)}
    (named : ∀ var ∈ vars, IsVarName var.1) (saved : ∀ var ∈ vars, saveable var.2 = true) :
    lines (vars.flatMap fun var => saveLine var.1 var.2) =
      vars.map fun var => varLine var.1 var.2 := by
  induction vars with
  | nil => rfl
  | cons var vars inductionHypothesis =>
      have oneLine : lf ∉ varLine var.1 var.2 := by
        have isName := named var List.mem_cons_self
        have written := lf_not_mem_writeRealSaveValue (saved var List.mem_cons_self)
        simp only [varLine, List.mem_append, List.mem_cons, not_or]
        exact ⟨isName.not_mem (by decide), by decide, written⟩
      have rest := inductionHypothesis (fun other mem => named other (List.mem_cons_of_mem _ mem))
        fun other mem => saved other (List.mem_cons_of_mem _ mem)
      have shape : saveLine var.1 var.2 = varLine var.1 var.2 ++ [lf] := by
        simp [saveLine, varLine]
      rw [List.flatMap_cons, List.map_cons, shape, List.append_assoc, List.singleton_append,
        lines_append oneLine, rest]

/-- The lines of a saved file. -/
theorem lines_saveText {obj : SaveObject} (filename : lf ∉ obj.filename)
    (named : ∀ var ∈ obj.objectVarNames.zip obj.vars, IsVarName var.1)
    (saved : ∀ var ∈ obj.objectVarNames.zip obj.vars, saveable var.2 = true) :
    lines (saveText obj) = (hash :: obj.filename) ::
      (obj.objectVarNames.zip obj.vars).map fun var => varLine var.1 var.2 := by
  have oneLine : lf ∉ hash :: obj.filename := by
    rw [List.mem_cons, not_or]
    exact ⟨by decide, filename⟩
  rw [saveText, ← List.cons_append, lines_append oneLine, lines_vars named saved]

/-! ## One line -/

theorem splitLine_comment (rest : Str) : splitLine (hash :: rest) = none := by
  rw [splitLine, if_pos (.inr rfl)]

theorem varLine_kept {name : Str} (isName : IsVarName name) (v : SaveValue) :
    ¬ ((varLine name v).isEmpty ∨ (varLine name v).head? = some hash) := by
  cases name with
  | nil =>
      simp only [varLine, List.nil_append, List.isEmpty_cons, List.head?_cons]
      decide
  | cons c name =>
      have noComment := isName.noComment
      simpa [varLine] using noComment

/-- A line without a tab is read in the newer format. -/
theorem splitLine_varLine {name : Str} (isName : IsVarName name) {v : SaveValue}
    (noTab : tab ∉ writeRealSaveValue v) :
    splitLine (varLine name v) = some (name, readReal (writeRealSaveValue v)) := by
  have fresh : tab ∉ varLine name v := by
    simp only [varLine, List.mem_append, List.mem_cons, not_or]
    exact ⟨isName.not_mem (by decide), by decide, noTab⟩
  have cutSpace : cutAt [space] (varLine name v) = some (name, writeRealSaveValue v) :=
    cutAt_singleton_append (isName.not_mem (by decide))
  rw [splitLine, if_neg (varLine_kept isName v), cutAt_singleton_eq_none.2 fresh, cutSpace]

/-- A line with a tab names something with a space in it. -/
theorem splitLine_varLine_tab {name : Str} (isName : IsVarName name) {v : SaveValue}
    (hasTab : tab ∈ writeRealSaveValue v) :
    ∃ before read, splitLine (varLine name v) = some (name ++ space :: before, read) := by
  obtain ⟨before, after, text, fresh⟩ := List.eq_append_cons_of_mem hasTab
  have cutTab : cutAt [tab] (varLine name v) = some (name ++ space :: before, after) := by
    have whole : varLine name v = (name ++ space :: before) ++ tab :: after := by
      simp [varLine, text]
    rw [whole]
    apply cutAt_singleton_append
    simp only [List.mem_append, List.mem_cons, not_or]
    exact ⟨isName.not_mem (by decide), by decide, fresh⟩
  exact ⟨before, readLegacy (varLine name v) _, by
    rw [splitLine, if_neg (varLine_kept isName v), cutTab]⟩

theorem slotOf_space {names : List Str} (named : ∀ name ∈ names, IsVarName name)
    (vars : List SaveValue) (before after : Str) :
    slotOf names vars (before ++ space :: after) = none := by
  have missing : names.findIdx? (· == before ++ space :: after) = none := by
    rw [List.findIdx?_eq_none_iff]
    intro name member
    rw [beq_eq_false_iff_ne]
    rintro rfl
    exact (named _ member).not_mem (show ¬ 32 < space by decide)
      (List.mem_append_right _ List.mem_cons_self)
  rw [slotOf, missing]

/-! ## All lines -/

theorem converges_readReal {text rest : Str} {v : SaveValue}
    (isRead : Converges (fun fuel => parseRealSaveValue fuel text) (.ok (v, rest))) :
    Converges (readReal text) (.ok v) :=
  isRead.map _

/-- What follows the reading of a value into a slot. -/
def afterRead (fuel : Nat) (names : List Str) (later : List Str) (vars : List SaveValue)
    (slot : Nat) :
    Except RestoreError SaveValue → Option (Except RestoreError Unit × List SaveValue)
  | .ok v => restoreLines fuel names later (vars.set slot v)
  | .error e => some (.error e, vars)

/-- A line that goes to a slot. -/
theorem restoreLines_slot {names : List Str} {line name : Str} {later : List Str}
    {read : Nat → Option (Except RestoreError SaveValue)} {vars : List SaveValue} {slot : Nat}
    (split : splitLine line = some (name, read)) (isSlot : slotOf names vars name = some slot)
    (fuel : Nat) :
    restoreLines fuel names (line :: later) vars =
      (read fuel).bind (afterRead fuel names later vars slot) := by
  simp only [restoreLines, split, isSlot]
  cases read fuel with
  | none => rfl
  | some result =>
      cases result with
      | error e => rfl
      | ok v => rfl

/-- A line that goes to no slot. -/
theorem restoreLines_skip {names : List Str} {line : Str} {later : List Str}
    {vars : List SaveValue}
    (skipped : ∀ name read, splitLine line = some (name, read) → slotOf names vars name = none)
    (fuel : Nat) :
    restoreLines fuel names (line :: later) vars = restoreLines fuel names later vars := by
  rw [restoreLines]
  cases split : splitLine line with
  | none => rfl
  | some result =>
      obtain ⟨name, read⟩ := result
      simp only [skipped name read split]

/-- What the line of a variable does to the variables. -/
def restoreVar (names : List Str) (vars : List SaveValue) (var : Str × SaveValue) :
    List SaveValue :=
  if (writeRealSaveValue var.2).contains tab then vars
  else
    match slotOf names vars var.1 with
    | some slot => vars.set slot (normalise var.2)
    | none => vars

/-- The lines of the variables are restored one by one. -/
theorem restoreLines_vars {names : List Str} (named : ∀ name ∈ names, IsVarName name)
    {saved : List (Str × SaveValue)} (among : ∀ var ∈ saved, IsVarName var.1)
    (saveable_ : ∀ var ∈ saved, saveable var.2 = true) (vars : List SaveValue) :
    Converges (fun fuel =>
        restoreLines fuel names (saved.map fun var => varLine var.1 var.2) vars)
      (.ok (), saved.foldl (restoreVar names) vars) := by
  induction saved generalizing vars with
  | nil => exact Converges.const _
  | cons var saved inductionHypothesis =>
      have isName := among var List.mem_cons_self
      have rest := inductionHypothesis (fun other mem => among other (List.mem_cons_of_mem _ mem))
        fun other mem => saveable_ other (List.mem_cons_of_mem _ mem)
      simp only [List.map_cons, List.foldl_cons]
      by_cases hasTab : tab ∈ writeRealSaveValue var.2
      · obtain ⟨before, read, split⟩ := splitLine_varLine_tab isName hasTab
        have unchanged : restoreVar names vars var = vars :=
          if_pos (List.contains_iff_mem.2 hasTab)
        rw [unchanged]
        refine (rest vars).congr (restoreLines_skip fun name' read' split' => ?_)
        obtain ⟨rfl, rfl⟩ := Prod.mk.inj (Option.some.inj (split.symm.trans split'))
        exact slotOf_space named vars _ _
      · have isRead := (readable_of_saveable var.2 (saveable_ var List.mem_cons_self)).reads []
          Delimited.nil
        rw [List.append_nil] at isRead
        have changed : restoreVar names vars var =
            match slotOf names vars var.1 with
            | some slot => vars.set slot (normalise var.2)
            | none => vars :=
          if_neg fun found => hasTab (List.contains_iff_mem.1 found)
        have split := splitLine_varLine isName hasTab
        rw [changed]
        cases isSlot : slotOf names vars var.1 with
        | none =>
            refine (rest vars).congr (restoreLines_skip fun name' read' split' => ?_)
            obtain ⟨rfl, rfl⟩ := Prod.mk.inj (Option.some.inj (split.symm.trans split'))
            exact isSlot
        | some slot =>
            refine Converges.congr ?_ (restoreLines_slot split isSlot)
            exact (converges_readReal isRead).bind (rest _)

end Kjdmud.Efun
