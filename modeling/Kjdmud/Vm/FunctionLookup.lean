import Kjdmud.Lib.Memo
import Kjdmud.Vm.Value

/-!
# Function lookup in an inherit tree

`findFunctionInChain` and `findParentFunction` of `src/vm/VM.cpp`, with the
memo each program carries.  The memo is passed through as a list from program
address and name to the result that was stored.

`findFunctionInChain` stores what it finds with the program it was asked for, and
also with every program it looks into on the way.  In an inherit DAG all programs share
these tables.  Whatever was asked before, the answer is that of the search without a
memo.
-/

namespace Kjdmud.Vm

open Kjdmud.Lib

/-- The memo of all programs, `functionChainCache_`. -/
abbrev ChainCache :=
  List ((Nat × Str) × FunctionLookup)

/-- The first function of a program with a name. -/
def ownFunction (program : CompiledProgram) (name : Str) : Option FunctionEntry :=
  program.functions.find? fun fn => fn.name == name

mutual

/-- `findFunctionInChain`. -/
def findFunctionInChain (name : Str) :
    CompiledProgram → ChainCache → FunctionLookup × ChainCache
  | program@⟨id, _, _, _, _, _, _, inheritedPrograms, _⟩, cache =>
      match cache.lookup (id, name) with
      | some result => (result, cache)
      | none =>
          let (result, cache) :=
            match ownFunction program name with
            | some fn => (some (program, fn), cache)
            | none => findInParents name inheritedPrograms cache
          (result, ((id, name), result) :: cache)

/-- The loop of `findFunctionInChain` over the parents. -/
def findInParents (name : Str) :
    List CompiledProgram → ChainCache → FunctionLookup × ChainCache
  | [], cache => (none, cache)
  | parent :: parents, cache =>
      match findFunctionInChain name parent cache with
      | (some found, cache) => (some found, cache)
      | (none, cache) => findInParents name parents cache

end

/-- `pathBasename`. -/
def pathBasename (path : Str) : Str :=
  (path.reverse.takeWhile (· != 0x2f)).reverse

/-- The parent that a qualifier of `findParentFunction` names. -/
def qualifiedParent (qualifier : Str) :
    List Str → List CompiledProgram → Option CompiledProgram
  | path :: paths, parent :: parents =>
      if pathBasename path = qualifier then some parent
      else qualifiedParent qualifier paths parents
  | _, _ => none

/-- `findParentFunction`. -/
def findParentFunction (program : CompiledProgram) (name : Str)
    (qualifier : Option Str) (cache : ChainCache) : FunctionLookup × ChainCache :=
  match qualifier with
  | none => findInParents name program.inheritedPrograms cache
  | some qualifier =>
      match qualifiedParent qualifier program.inherits program.inheritedPrograms with
      | some parent => findFunctionInChain name parent cache
      | none => (none, cache)

/-- `findFunctionInChain` on the memo of the driver. -/
def World.findFunction (w : World) (program : CompiledProgram) (name : Str) :
    FunctionLookup × World :=
  let (found, cache) := findFunctionInChain name program w.functionChainCache
  (found, { w with functionChainCache := cache })

/-! ## The search without a memo -/

mutual

/-- The own functions of a program in the order of their declaration, and then its
parents from left to right, each with all of its chain. -/
def plainLookup (name : Str) : CompiledProgram → FunctionLookup
  | program@⟨_, _, _, _, _, _, _, inheritedPrograms, _⟩ =>
      match ownFunction program name with
      | some fn => some (program, fn)
      | none => plainLookupInParents name inheritedPrograms

/-- The first parent in whose chain the name is found. -/
def plainLookupInParents (name : Str) : List CompiledProgram → FunctionLookup
  | [] => none
  | parent :: parents =>
      match plainLookup name parent with
      | some found => some found
      | none => plainLookupInParents name parents

end

theorem plainLookup_eq (name : Str) (program : CompiledProgram) :
    plainLookup name program =
      match ownFunction program name with
      | some fn => some (program, fn)
      | none => plainLookupInParents name program.inheritedPrograms := by
  cases program
  rw [plainLookup]

theorem findFunctionInChain_eq (name : Str) (program : CompiledProgram) (cache : ChainCache) :
    findFunctionInChain name program cache =
      match cache.lookup (program.id, name) with
      | some result => (result, cache)
      | none =>
          let (result, cache) :=
            match ownFunction program name with
            | some fn => (some (program, fn), cache)
            | none => findInParents name program.inheritedPrograms cache
          (result, ((program.id, name), result) :: cache) := by
  cases program
  exact findFunctionInChain.eq_1 ..

/-! ## Inherit DAGs -/

/-- Compiled programs that share parents: with a program its parents are there, and an
address is that of one program. -/
structure InheritDag where
  programs : List CompiledProgram
  closed : ∀ program ∈ programs, ∀ parent ∈ program.inheritedPrograms, parent ∈ programs
  address : ∀ program ∈ programs, ∀ other ∈ programs, program.id = other.id → program = other

namespace InheritDag

variable (dag : InheritDag)

/-- A result that may stand in the memo of the program at an address. -/
def Right (key : Nat × Str) (result : FunctionLookup) : Prop :=
  ∀ program ∈ dag.programs, program.id = key.1 → result = plainLookup key.2 program

/-- A lookup, on the memos of all programs, ends as the search without a memo. -/
def Looks (ask : ChainCache → FunctionLookup × ChainCache) (answer : FunctionLookup) : Prop :=
  Memo.Answers dag.Right ask answer

variable {dag} {program : CompiledProgram}

theorem right_of_mem (mem : program ∈ dag.programs) {name : Str} {result : FunctionLookup}
    (isResult : result = plainLookup name program) : dag.Right (program.id, name) result := by
  intro other isOther same
  rw [dag.address other isOther program mem same]
  exact isResult

/-- The loop over the parents, where each of them is looked up right. -/
theorem looks_findInParents {name : Str} {parents : List CompiledProgram}
    (each : ∀ parent ∈ parents,
      dag.Looks (findFunctionInChain name parent) (plainLookup name parent)) :
    dag.Looks (findInParents name parents) (plainLookupInParents name parents) := by
  induction parents with
  | nil =>
      intro memo sound
      exact ⟨rfl, sound⟩
  | cons parent parents inductionHypothesis =>
      intro memo sound
      obtain ⟨answer, kept⟩ := each parent List.mem_cons_self memo sound
      have rest := inductionHypothesis fun other isOther =>
        each other (List.mem_cons_of_mem _ isOther)
      rw [findInParents, plainLookupInParents, ← answer]
      generalize findFunctionInChain name parent memo = asked at kept ⊢
      obtain ⟨found, memo'⟩ := asked
      cases found with
      | some result => exact ⟨rfl, kept⟩
      | none => exact rest memo' kept

/-- A lookup in a program, where its parents are looked up right. -/
theorem looks_of_parents {name : Str} (mem : program ∈ dag.programs)
    (parents : dag.Looks (findInParents name program.inheritedPrograms)
      (plainLookupInParents name program.inheritedPrograms)) :
    dag.Looks (findFunctionInChain name program) (plainLookup name program) := by
  intro memo sound
  have plain := plainLookup_eq name program
  rw [findFunctionInChain_eq]
  cases found : memo.lookup (program.id, name) with
  | some result => exact ⟨sound _ _ found program mem rfl, sound⟩
  | none =>
      cases own : ownFunction program name with
      | some fn =>
          rw [own] at plain
          exact ⟨plain.symm, sound.store (right_of_mem mem plain.symm)⟩
      | none =>
          rw [own] at plain
          obtain ⟨answer, kept⟩ := parents memo sound
          have same := answer.trans plain.symm
          exact ⟨same, kept.store (right_of_mem mem same)⟩

/-- A lookup in any program of the DAG; the induction is on its inherit tree. -/
theorem looks_findFunctionInChain (name : Str) : ∀ program ∈ dag.programs,
    dag.Looks (findFunctionInChain name program) (plainLookup name program)
  | ⟨id, code, functions, stringPool, floatPool, objectVarNames, inherits, inheritedPrograms,
      ancestorBaseOffsets⟩, mem =>
    looks_of_parents mem (looks_findInParents fun parent inherited =>
      looks_findFunctionInChain name parent (dag.closed _ mem parent inherited))

/-! ## Sequences of lookups -/

/-- A program of the DAG, and a name that is looked up in its chain. -/
abbrev Query (dag : InheritDag) :=
  {program // program ∈ dag.programs} × Str

/-- The results of queries that are made one after the other, in a driver that made none
before. -/
def results (queries : List dag.Query) : List FunctionLookup :=
  (Memo.askAll (fun query => findFunctionInChain query.2 query.1.1) queries []).1

/-- **Memoized lookup is plain lookup**, in any inherit DAG and after any queries. -/
theorem results_eq_plainLookup (dag : InheritDag) (queries : List dag.Query) :
    results queries = queries.map fun query => plainLookup query.2 query.1.1 := by
  have each : ∀ query : dag.Query, dag.Looks (findFunctionInChain query.2 query.1.1)
      (plainLookup query.2 query.1.1) :=
    fun query => looks_findFunctionInChain query.2 query.1.1 query.1.2
  exact (Memo.answers_askAll each queries [] Memo.sound_nil).1

/-- A program with one function. -/
def base : CompiledProgram :=
  ⟨0, [], [⟨str "f", 0, 0, 0, false⟩], [], [], [], [], [], []⟩

/-- A program that only inherits. -/
def heir (id : Nat) (parents : List CompiledProgram) : CompiledProgram :=
  ⟨id, [], [], [], [], [], [], parents, []⟩

/-- An heir of two heirs of one program. -/
def top : CompiledProgram :=
  heir 3 [heir 1 [base], heir 2 [base]]

def diamond : InheritDag where
  programs := [base, heir 1 [base], heir 2 [base], top]
  closed := by simp [base, heir, top]
  address := by simp [base, heir, top]

/-- A name that is found nowhere is remembered for all programs that were looked into. -/
theorem results_diamond :
    results ([(⟨top, by simp [diamond]⟩, str "g"), (⟨top, by simp [diamond]⟩, str "f"),
        (⟨heir 2 [base], by simp [diamond]⟩, str "g")] : List diamond.Query) =
      [none, some (base, ⟨str "f", 0, 0, 0, false⟩), none] :=
  (results_eq_plainLookup diamond _).trans rfl

end InheritDag

end Kjdmud.Vm
