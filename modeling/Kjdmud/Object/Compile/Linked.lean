import Kjdmud.Compiler.ObjectVars.Generate
import Kjdmud.Object.Compile

/-!
# What `compile` returns

Every program that `compile` returns is linked: its variables are those of its
parents and then its own, its code names no others, and its offsets are what the
loop over the inherit statements collects.  This holds of a driver that compiles
any files in any order, and of the programs that it serves from its cache.
-/

namespace Kjdmud.Object

open Kjdmud.Compiler
open Kjdmud.Vm (CompiledProgram)

/-! ## Inherit trees -/

/-- A program is in the inherit tree of another: the program itself, or in the
tree of a parent. -/
inductive InTree : CompiledProgram → CompiledProgram → Prop
  | root (program : CompiledProgram) : InTree program program
  | parent {program parent ancestor : CompiledProgram}
      (inherited : parent ∈ program.inheritedPrograms) (above : InTree parent ancestor) :
      InTree program ancestor

mutual

/-- The files of the inherit tree of a program, once for every path that leads to
them. -/
def inheritedFiles : CompiledProgram → List Str
  | ⟨_, _, _, _, _, _, inherits, inheritedPrograms, _⟩ =>
      filesOf inherits inheritedPrograms

/-- The files that a list of inherit statements leads to. -/
def filesOf : List Str → List CompiledProgram → List Str
  | path :: inherits, parent :: parents =>
      (normalizeFilename path :: inheritedFiles parent) ++ filesOf inherits parents
  | _, _ => []

end

/-- What holds of a program that `compile` made of the parents it compiled
before; `file` gives the file of every program. -/
structure Linked.Node (file : Nat → Str) (program : CompiledProgram) : Prop where
  names : ∃ own, program.objectVarNames =
    program.inheritedPrograms.flatMap CompiledProgram.objectVarNames ++ own
  offsets : program.ancestorBaseOffsets =
    (program.inheritedPrograms.foldl Inherited.add {}).ancestorBaseOffsets
  files : program.inherits.map normalizeFilename =
    program.inheritedPrograms.map fun parent => file parent.id
  older : ∀ parent ∈ program.inheritedPrograms, parent.id < program.id
  slots : ∀ instr ∈ program.code, SlotBelow program.objectVarNames.length instr

/-- A program and all of its inherit tree are as `compile` makes them. -/
inductive Linked (file : Nat → Str) : CompiledProgram → Prop
  | intro {program : CompiledProgram} (node : Linked.Node file program)
      (parents : ∀ parent ∈ program.inheritedPrograms, Linked file parent) :
      Linked file program

namespace Linked

variable {file file' : Nat → Str} {program parent ancestor : CompiledProgram}

theorem node (linked : Linked file program) : Node file program := by
  cases linked with
  | intro node parents => exact node

theorem parents (linked : Linked file program) :
    ∀ parent ∈ program.inheritedPrograms, Linked file parent := by
  cases linked with
  | intro node parents => exact parents

theorem inTree (linked : Linked file program) (above : InTree program ancestor) :
    Linked file ancestor := by
  induction above with
  | root => exact linked
  | parent inherited _ inductionHypothesis =>
      exact inductionHypothesis (linked.parents _ inherited)

/-- New files do not change what is linked. -/
theorem extend {bound : Nat} (linked : Linked file program) (old : program.id < bound)
    (agree : ∀ id < bound, file' id = file id) : Linked file' program := by
  induction linked with
  | @intro program node _ inductionHypothesis =>
      have below : ∀ parent ∈ program.inheritedPrograms, parent.id < bound :=
        fun parent mem => (node.older parent mem).trans old
      refine .intro ⟨node.names, node.offsets, ?_, node.older, node.slots⟩
        fun parent mem => inductionHypothesis parent mem (below parent mem)
      rw [node.files]
      exact List.map_congr_left fun parent mem => (agree _ (below parent mem)).symm

end Linked

/-! ## What `compile` returns is linked -/

/-- A program of a linker, compiled from a file. -/
structure Linker.Holds (file : Nat → Str) (l : Linker) (filename : Str)
    (program : CompiledProgram) : Prop where
  linked : Linked file program
  compiledFrom : file program.id = filename
  old : program.id < l.nextId

/-- Every cached program is linked and compiled from the file it is cached for. -/
def Linker.Inv (file : Nat → Str) (l : Linker) : Prop :=
  ∀ filename program, (filename, program) ∈ l.programCache → l.Holds file filename program

/-- From one linker to another the files of the programs made before stay. -/
structure Linker.Extends (file file' : Nat → Str) (l l' : Linker) : Prop where
  agree : ∀ id < l.nextId, file' id = file id
  next : l.nextId ≤ l'.nextId

namespace Linker

variable {file file' file'' : Nat → Str} {l l' l'' : Linker}

theorem Extends.refl (file : Nat → Str) (l : Linker) : Extends file file l l :=
  ⟨fun _ _ => rfl, Nat.le_refl _⟩

theorem Extends.trans (first : Extends file file' l l') (second : Extends file' file'' l' l'') :
    Extends file file'' l l'' := by
  refine ⟨fun id old => ?_, first.next.trans second.next⟩
  rw [second.agree id (old.trans_le first.next), first.agree id old]

theorem Holds.extend {filename : Str} {program : CompiledProgram}
    (holds : l.Holds file filename program) (extends_ : Extends file file' l l') :
    l'.Holds file' filename program where
  linked := holds.linked.extend holds.old extends_.agree
  compiledFrom := (extends_.agree _ holds.old).trans holds.compiledFrom
  old := holds.old.trans_le extends_.next

/-- The list of the files being compiled has no part in the invariant. -/
theorem Extends.compiling (file : Nat → Str) (l : Linker) (compiling : List Str) :
    Extends file file l { l with compiling } :=
  ⟨fun _ _ => rfl, Nat.le_refl _⟩

theorem Inv.compiling (inv : l.Inv file) (compiling : List Str) :
    Inv file { l with compiling } :=
  fun filename program mem => (inv filename program mem).extend (.compiling file l compiling)

end Linker

/-- The parents collected so far are those of the inherit statements read. -/
structure Inherited.Collected (file : Nat → Str) (l : Linker) (inherits : List Str)
    (inherited : Inherited) : Prop where
  folded : inherited = inherited.parents.foldl Inherited.add {}
  files : inherits.map normalizeFilename = inherited.parents.map fun parent => file parent.id
  linked : ∀ parent ∈ inherited.parents, Linked file parent ∧ parent.id < l.nextId

namespace Inherited

variable {file file' : Nat → Str} {l l' : Linker} {inherits : List Str}
  {inherited : Inherited} {parent : CompiledProgram}

theorem objectVarNames_foldl_add (parents : List CompiledProgram) (inherited : Inherited) :
    (parents.foldl Inherited.add inherited).objectVarNames =
      inherited.objectVarNames ++ parents.flatMap CompiledProgram.objectVarNames := by
  induction parents generalizing inherited with
  | nil => exact (List.append_nil _).symm
  | cons parent parents inductionHypothesis =>
      rw [List.foldl_cons, inductionHypothesis, List.flatMap_cons]
      exact List.append_assoc _ _ _

theorem Collected.extend (collected : Collected file l inherits inherited)
    (extends_ : Linker.Extends file file' l l') : Collected file' l' inherits inherited where
  folded := collected.folded
  files := by
    rw [collected.files]
    exact List.map_congr_left fun parent mem =>
      (extends_.agree _ (collected.linked parent mem).2).symm
  linked := fun parent mem =>
    ⟨(collected.linked parent mem).1.extend (collected.linked parent mem).2 extends_.agree,
      (collected.linked parent mem).2.trans_le extends_.next⟩

theorem Collected.add {path : Str} (collected : Collected file l inherits inherited)
    (holds : l.Holds file (normalizeFilename path) parent) :
    Collected file l (inherits ++ [path]) (inherited.add parent) where
  folded := by
    show inherited.add parent = (inherited.parents ++ [parent]).foldl Inherited.add {}
    rw [List.foldl_append, ← collected.folded]
    rfl
  files := by
    show (inherits ++ [path]).map normalizeFilename =
      (inherited.parents ++ [parent]).map fun parent => file parent.id
    rw [List.map_append, List.map_append, collected.files]
    simp only [List.map_cons, List.map_nil, holds.compiledFrom]
  linked := by
    intro other mem
    rcases List.mem_append.1 mem with mem | mem
    · exact collected.linked other mem
    · rw [List.mem_singleton] at mem
      exact mem ▸ ⟨holds.linked, holds.old⟩

end Inherited

/-- What compiling one file does to a linker. -/
def CompilesOne (compileOne : Str → Linker → Compilation CompiledProgram) : Prop :=
  ∀ rawFilename l result l' file, l.Inv file →
    compileOne rawFilename l = some (result, l') →
    ∃ file', Linker.Extends file file' l l' ∧ l'.Inv file' ∧
      ∀ program ∈ result, l'.Holds file' (normalizeFilename rawFilename) program

theorem inheritAll_collects {compileOne : Str → Linker → Compilation CompiledProgram}
    (one : CompilesOne compileOne) (inherits : List Str) {done : List Str}
    {inherited : Inherited} {result : Option Inherited} {l l' : Linker} {file : Nat → Str}
    (inv : l.Inv file) (collected : inherited.Collected file l done)
    (ran : inheritAll compileOne inherits inherited l = some (result, l')) :
    ∃ file', Linker.Extends file file' l l' ∧ l'.Inv file' ∧
      ∀ inherited ∈ result, inherited.Collected file' l' (done ++ inherits) := by
  induction inherits generalizing done inherited l file with
  | nil =>
      cases ran
      refine ⟨file, .refl _ _, inv, ?_⟩
      intro _ mem
      cases mem
      rw [List.append_nil]
      exact collected
  | cons path inherits inductionHypothesis =>
      rw [inheritAll] at ran
      cases compiled : compileOne path l with
      | none =>
          rw [compiled] at ran
          cases ran
      | some compilation =>
          obtain ⟨program, l₁⟩ := compilation
          obtain ⟨file₁, extends₁, inv₁, holds⟩ := one path l program l₁ file inv compiled
          rw [compiled] at ran
          cases program with
          | none =>
              cases ran
              exact ⟨file₁, extends₁, inv₁, nofun⟩
          | some parent =>
              obtain ⟨file', extends', inv', collects⟩ := inductionHypothesis inv₁
                ((collected.extend extends₁).add (holds parent rfl)) ran
              refine ⟨file', extends₁.trans extends', inv', ?_⟩
              rw [List.append_assoc] at collects
              exact collects

theorem generateProgram_holds {budget : Nat} {filename source : Str} {ast : Program}
    {inherited : Inherited} {l l' : Linker} {result : Option CompiledProgram}
    {file : Nat → Str} (inv : l.Inv file)
    (collected : inherited.Collected file l ast.inherits)
    (ran : generateProgram budget filename source ast inherited l = some (result, l')) :
    ∃ file', Linker.Extends file file' l l' ∧ l'.Inv file' ∧
      ∀ program ∈ result, l'.Holds file' filename program := by
  rw [generateProgram] at ran
  cases generated : generateState budget ast inherited.objectVarNames with
  | error error =>
      rw [generated] at ran
      cases error with
      | budget => cases ran
      | lpc message =>
          cases ran
          exact ⟨file, .refl file l, inv, nofun⟩
  | ok gen =>
      rw [generated] at ran
      injection ran with ran
      injection ran with isResult isLinker
      subst isResult isLinker
      generalize isProgram : gen.toProgram ast inherited.objectVarNames l.nextId
        inherited.parents inherited.ancestorBaseOffsets = program
      have extends_ : Linker.Extends file (Function.update file l.nextId filename) l
          { l with
            programCache := (filename, program) :: l.programCache
            programSource := (filename, source) :: l.programSource
            nextId := l.nextId + 1 } := by
        refine ⟨fun id old => ?_, Nat.le_succ _⟩
        exact Function.update_of_ne old.ne _ _
      have collected' := collected.extend extends_
      have names := congrArg Inherited.objectVarNames collected.folded
      rw [Inherited.objectVarNames_foldl_add] at names
      have holds : Linker.Holds (Function.update file l.nextId filename)
          { l with
            programCache := (filename, program) :: l.programCache
            programSource := (filename, source) :: l.programSource
            nextId := l.nextId + 1 } filename program := by
        subst isProgram
        refine ⟨.intro ⟨⟨_, congrArg (· ++ _) names⟩,
          congrArg Inherited.ancestorBaseOffsets collected.folded, collected'.files,
          fun parent mem => (collected.linked parent mem).2, ?_⟩
          fun parent mem => (collected'.linked parent mem).1,
          Function.update_self _ _ _, Nat.lt_succ_self _⟩
        have below := generateState_below generated
        have count := (numberObjectVars_below ast.objectVars inherited.objectVarNames.length).1
        show ∀ instr ∈ gen.code, SlotBelow (inherited.objectVarNames ++
          (numberObjectVars inherited.objectVarNames.length ast.objectVars).2.1).length instr
        rw [List.length_append, count]
        exact below
      refine ⟨_, extends_, ?_, ?_⟩
      · intro name program mem
        rcases List.mem_cons.1 mem with isNew | mem
        · cases isNew
          exact holds
        · exact (inv name program mem).extend extends_
      · intro program isProgram'
        cases isProgram'
        exact isProgram ▸ holds

theorem cacheHit_mem {l : Linker} {filename : Str} {source : Option Str}
    {program : CompiledProgram} (hit : l.cacheHit filename source = some program) :
    (filename, program) ∈ l.programCache := by
  have mem {program : CompiledProgram}
      (cached : l.programCache.lookup filename = some program) :
      (filename, program) ∈ l.programCache := by
    obtain ⟨before, after, whole, _⟩ := List.lookup_eq_some_iff.1 cached
    exact whole ▸ List.mem_append_right _ List.mem_cons_self
  unfold Linker.cacheHit at hit
  split at hit
  · cases hit
  · rename_i cached
    split at hit
    · cases hit
      exact mem cached
    · split at hit
      · cases hit
        exact mem cached
      · cases hit

theorem compile_holds (files : Files) (budget : Nat) : CompilesOne (compile files budget) := by
  induction budget with
  | zero =>
      intro rawFilename l result l' file inv ran
      cases ran
  | succ budget inductionHypothesis =>
      intro rawFilename l result l' file inv ran
      rw [compile] at ran
      cases hit : l.cacheHit (normalizeFilename rawFilename)
          (files.source (normalizeFilename rawFilename)) with
      | some program =>
          rw [hit] at ran
          cases ran
          refine ⟨file, .refl file l, inv, ?_⟩
          intro _ mem
          cases mem
          exact inv _ _ (cacheHit_mem hit)
      | none =>
          rw [hit] at ran
          simp only at ran
          split at ran
          · cases ran
            exact ⟨file, .refl file l, inv, nofun⟩
          split at ran
          · cases ran
            exact ⟨file, .refl file l, inv, nofun⟩
          split at ran
          · cases ran
            exact ⟨file, .refl file l, inv, nofun⟩
          rename_i source _ ast _
          split at ran
          · cases ran
          rename_i inherited l₁ all
          have collectedNone (l : Linker) : Inherited.Collected file l [] {} :=
            ⟨rfl, rfl, nofun⟩
          obtain ⟨file₁, extends₁, inv₁, collects⟩ := inheritAll_collects inductionHypothesis
            ast.inherits (inv.compiling _) (collectedNone _) all
          have closed := Linker.Extends.compiling file₁ l₁
            (l₁.compiling.erase (normalizeFilename rawFilename))
          have reached := (Linker.Extends.compiling file l _).trans (extends₁.trans closed)
          cases inherited with
          | none =>
              cases ran
              exact ⟨file₁, reached, inv₁.compiling _, nofun⟩
          | some inherited =>
              obtain ⟨file', extends', inv', holds⟩ := generateProgram_holds
                (inv₁.compiling _) ((collects inherited rfl).extend closed) ran
              exact ⟨file', reached.trans extends', inv', holds⟩

/-- Every program in the cache of a running driver is linked. -/
theorem Linker.Reachable.inv {l : Linker} (reachable : l.Reachable) : ∃ file, l.Inv file := by
  induction reachable with
  | start => exact ⟨fun _ => [], nofun⟩
  | compile _ files budget rawFilename compiled inductionHypothesis =>
      obtain ⟨file, inv⟩ := inductionHypothesis
      obtain ⟨file', _, inv', _⟩ :=
        compile_holds files budget rawFilename _ _ _ file inv compiled
      exact ⟨file', inv'⟩

/-- Every program that `compile` returns is linked. -/
theorem compile_linked {files : Files} {budget : Nat} {rawFilename : Str} {l l' : Linker}
    {program : CompiledProgram} (reachable : l.Reachable)
    (compiled : compile files budget rawFilename l = some (some program, l')) :
    ∃ file, Linked file program := by
  obtain ⟨file, inv⟩ := reachable.inv
  obtain ⟨file', _, _, holds⟩ :=
    compile_holds files budget rawFilename _ _ _ file inv compiled
  exact ⟨file', (holds program rfl).linked⟩

end Kjdmud.Object

/-!
## The names of a program's variables

The names in a compiled program are those that the parser read, and those that the
code generator makes for private variables.  A property that both have holds of all
names of every program that a driver compiles.
-/

namespace Kjdmud.Object

open Kjdmud.Compiler
open Kjdmud.Vm (CompiledProgram)

variable {property : Str → Prop}

/-- The variables that the parser reads have a property. -/
def Files.NamesHave (property : Str → Prop) (files : Files) : Prop :=
  ∀ filename source ast, files.parse filename source = some ast →
    ∀ decl ∈ ast.objectVars, property decl.name

/-- The linkers of a running driver whose parser gives names with a property. -/
inductive Linker.ReachableWith (property : Str → Prop) : Linker → Prop
  | start : ReachableWith property {}
  | compile {l l' : Linker} {result : Option CompiledProgram}
      (reachable : ReachableWith property l) (files : Files) (named : files.NamesHave property)
      (budget : Nat) (rawFilename : Str)
      (compiled : Object.compile files budget rawFilename l = some (result, l')) :
      ReachableWith property l'

/-- The names of a program have a property. -/
def NamesHave (property : Str → Prop) (program : CompiledProgram) : Prop :=
  ∀ name ∈ program.objectVarNames, property name

/-- The names of all cached programs have a property. -/
def Linker.NamesHave (property : Str → Prop) (l : Linker) : Prop :=
  ∀ filename program, (filename, program) ∈ l.programCache → Object.NamesHave property program

/-- A computation keeps the property of the cached programs, and its result has
another. -/
def Keeps {α : Type} (property : Str → Prop) (has : α → Prop) (l : Linker) (result : Option α)
    (l' : Linker) : Prop :=
  l.NamesHave property → l'.NamesHave property ∧ ∀ a ∈ result, has a

theorem has_none {α : Type} {has : α → Prop} : ∀ a ∈ (none : Option α), has a := by
  intro a mem
  cases mem

theorem namesHave_start : ({} : Linker).NamesHave property := by
  intro filename program mem
  cases mem

/-- The code generator takes the names of the parser or makes private ones. -/
theorem numberObjectVars_names {decls : List ObjectVarDecl}
    (named : ∀ decl ∈ decls, property decl.name)
    (hidden : ∀ slot, property (str "$private#" ++ Decimal.ofNat slot)) (slot : Nat) :
    ∀ name ∈ (numberObjectVars slot decls).2.1, property name := by
  induction decls generalizing slot with
  | nil =>
      intro name mem
      cases mem
  | cons decl decls inductionHypothesis =>
      have later := inductionHypothesis
        (fun other mem => named other (List.mem_cons_of_mem _ mem)) (slot + 1)
      intro name mem
      rcases List.mem_cons.1 mem with rfl | mem
      · split
        · exact hidden slot
        · exact named decl List.mem_cons_self
      · exact later name mem

theorem inheritAll_keeps {compileOne : Str → Linker → Compilation CompiledProgram}
    (one : ∀ path l result l', compileOne path l = some (result, l') →
      Keeps property (NamesHave property) l result l')
    (inherits : List Str) {inherited : Inherited} {result : Option Inherited} {l l' : Linker}
    (collected : ∀ name ∈ inherited.objectVarNames, property name)
    (ran : inheritAll compileOne inherits inherited l = some (result, l')) :
    Keeps property (fun inherited => ∀ name ∈ inherited.objectVarNames, property name)
      l result l' := by
  induction inherits generalizing inherited l with
  | nil =>
      cases ran
      intro named
      refine ⟨named, ?_⟩
      intro _ mem
      cases mem
      exact collected
  | cons path inherits inductionHypothesis =>
      intro named
      rw [inheritAll] at ran
      split at ran
      · cases ran
      · rename_i compiled
        cases ran
        exact ⟨(one _ _ _ _ compiled named).1, has_none⟩
      · rename_i parent l₁ compiled
        obtain ⟨named₁, parentNamed⟩ := one _ _ _ _ compiled named
        refine inductionHypothesis (fun name mem => ?_) ran named₁
        rcases List.mem_append.1 mem with mem | mem
        · exact collected name mem
        · exact parentNamed parent rfl name mem

theorem generateProgram_keeps {budget : Nat} {filename source : Str} {ast : Program}
    {inherited : Inherited} {l l' : Linker} {result : Option CompiledProgram}
    (collected : ∀ name ∈ inherited.objectVarNames, property name)
    (named : ∀ decl ∈ ast.objectVars, property decl.name)
    (hidden : ∀ slot, property (str "$private#" ++ Decimal.ofNat slot))
    (ran : generateProgram budget filename source ast inherited l = some (result, l')) :
    Keeps property (NamesHave property) l result l' := by
  intro cached
  rw [generateProgram] at ran
  split at ran
  · cases ran
  · cases ran
    exact ⟨cached, has_none⟩
  · rename_i gen _
    injection ran with ran
    injection ran with isResult isLinker
    subst isResult isLinker
    have has : NamesHave property (gen.toProgram ast inherited.objectVarNames l.nextId
        inherited.parents inherited.ancestorBaseOffsets) := by
      intro name mem
      rcases List.mem_append.1 mem with mem | mem
      · exact collected name mem
      · exact numberObjectVars_names named hidden _ name mem
    constructor
    · intro name program mem
      rcases List.mem_cons.1 mem with isNew | mem
      · cases isNew
        exact has
      · exact cached name program mem
    · intro _ mem
      cases mem
      exact has

theorem compile_keeps {files : Files} (named : files.NamesHave property)
    (hidden : ∀ slot, property (str "$private#" ++ Decimal.ofNat slot)) (budget : Nat)
    (rawFilename : Str) (l : Linker) (result : Option CompiledProgram) (l' : Linker)
    (ran : compile files budget rawFilename l = some (result, l')) :
    Keeps property (NamesHave property) l result l' := by
  induction budget generalizing rawFilename l result l' with
  | zero => cases ran
  | succ budget inductionHypothesis =>
      intro cached
      rw [compile] at ran
      cases hit : l.cacheHit (normalizeFilename rawFilename)
          (files.source (normalizeFilename rawFilename)) with
      | some program =>
          rw [hit] at ran
          cases ran
          refine ⟨cached, ?_⟩
          intro _ mem
          cases mem
          exact cached _ _ (cacheHit_mem hit)
      | none =>
          rw [hit] at ran
          simp only at ran
          split at ran
          · cases ran
            exact ⟨cached, has_none⟩
          split at ran
          · cases ran
            exact ⟨cached, has_none⟩
          split at ran
          · cases ran
            exact ⟨cached, has_none⟩
          rename_i source _ ast parsed
          split at ran
          · cases ran
          rename_i inherited l₁ all
          have nothing : ∀ name ∈ ({} : Inherited).objectVarNames, property name := by
            intro name mem
            cases mem
          obtain ⟨cached₁, collected⟩ :=
            inheritAll_keeps inductionHypothesis ast.inherits nothing all cached
          cases inherited with
          | none =>
              cases ran
              exact ⟨cached₁, has_none⟩
          | some inherited =>
              exact generateProgram_keeps (collected inherited rfl) (named _ _ _ parsed) hidden
                ran cached₁

/-- The names of every program that `compile` returns have the property. -/
theorem compile_namesHave {files : Files} {budget : Nat} {rawFilename : Str} {l l' : Linker}
    {program : CompiledProgram} (reachable : l.ReachableWith property)
    (named : files.NamesHave property)
    (hidden : ∀ slot, property (str "$private#" ++ Decimal.ofNat slot))
    (compiled : compile files budget rawFilename l = some (some program, l')) :
    NamesHave property program := by
  have cached : l.NamesHave property := by
    clear compiled
    induction reachable with
    | start => exact namesHave_start
    | compile _ files named budget rawFilename compiled inductionHypothesis =>
        exact (compile_keeps named hidden _ _ _ _ _ compiled inductionHypothesis).1
  exact (compile_keeps named hidden _ _ _ _ _ compiled cached).2 program rfl

end Kjdmud.Object
