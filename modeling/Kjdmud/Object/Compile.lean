import Kjdmud.Compiler.CodeGen
import Kjdmud.Object.ObjectManager

/-!
# Compiling a file

`ObjectManager::compile` of `src/object/ObjectManager.cpp`: the cache of compiled
programs, the files being compiled, and the offsets at which the object variables
of inherited programs start.  The disk and the passes that turn bytes into a
syntax tree (staging, the preprocessor, the lexer and the parser) are a
parameter.
-/

namespace Kjdmud.Object

open Kjdmud.Compiler
open Kjdmud.Vm (CompiledProgram)

/-- The disk, and the passes before the code generator; `parse` takes the
filename and the bytes, and is `none` where one of the passes fails. -/
structure Files where
  source : Str → Option Str
  parse : Str → Str → Option Program

/-- The members of `ObjectManager` that `compile` uses, the newest entries first.
`nextId` is the address of the next program; programs that are in use at the same
time have different addresses. -/
structure Linker where
  programCache : List (Str × CompiledProgram) := []
  programSource : List (Str × Str) := []
  compiling : List Str := []
  nextId : Nat := 0

/-- The entry of `programCache_` that is served without compiling: its source is
unchanged, or gone. -/
def Linker.cacheHit (l : Linker) (filename : Str) (source : Option Str) :
    Option CompiledProgram :=
  match l.programCache.lookup filename with
  | none => none
  | some program =>
      match source with
      | none => some program
      | some source =>
          if l.programSource.lookup filename = some source then some program else none

/-- What `compile` collects of the inherited programs. -/
structure Inherited where
  parents : List CompiledProgram := []
  objectVarNames : List Str := []
  /-- A map; the newest entry of a key counts. -/
  ancestorBaseOffsets : List (Nat × Nat) := []

/-- One round of the loop over the inherit statements, once the parent is
compiled. -/
def Inherited.add (inherited : Inherited) (parent : CompiledProgram) : Inherited :=
  let base := inherited.objectVarNames.length
  { parents := inherited.parents ++ [parent]
    objectVarNames := inherited.objectVarNames ++ parent.objectVarNames
    ancestorBaseOffsets :=
      (parent.ancestorBaseOffsets.map fun entry => (entry.1, base + entry.2)) ++
        (parent.id, base) :: inherited.ancestorBaseOffsets }

/-- A compilation: `none` is one whose budget is spent, and the program is `none`
where `compile` returns `nullptr`. -/
abbrev Compilation (α : Type) :=
  Option (Option α × Linker)

/-- The loop over the inherit statements of a file, which stops at the first file
that does not compile. -/
def inheritAll (compileOne : Str → Linker → Compilation CompiledProgram) :
    List Str → Inherited → Linker → Compilation Inherited
  | [], inherited, l => some (some inherited, l)
  | inheritPath :: inherits, inherited, l =>
      match compileOne inheritPath l with
      | none => none
      | some (none, l) => some (none, l)
      | some (some parent, l) => inheritAll compileOne inherits (inherited.add parent) l

/-- The code generator at the end of `compile`, and the cache entries for what it
returns. -/
def generateProgram (budget : Nat) (filename source : Str) (ast : Program)
    (inherited : Inherited) (l : Linker) : Compilation CompiledProgram :=
  match generateState budget ast inherited.objectVarNames with
  | .error .budget => none
  | .error (.lpc _) => some (none, l)
  | .ok gen =>
      let program := gen.toProgram ast inherited.objectVarNames l.nextId
        inherited.parents inherited.ancestorBaseOffsets
      some (some program,
        { l with
          programCache := (filename, program) :: l.programCache
          programSource := (filename, source) :: l.programSource
          nextId := l.nextId + 1 })

/-- `compile`, on a budget that bounds the depth of inheritance and the rounds of
the code generator. -/
def compile (files : Files) : Nat → Str → Linker → Compilation CompiledProgram
  | 0, _, _ => none
  | budget + 1, rawFilename, l =>
      let filename := normalizeFilename rawFilename
      let source := files.source filename
      match l.cacheHit filename source with
      | some program => some (some program, l)
      | none =>
          if l.compiling.contains filename then some (none, l)
          else
            match source with
            | none => some (none, l)
            | some source =>
                match files.parse filename source with
                | none => some (none, l)
                | some ast =>
                    let inProgress := { l with compiling := filename :: l.compiling }
                    match inheritAll (compile files budget) ast.inherits {} inProgress with
                    | none => none
                    | some (inherited, l) =>
                        let l := { l with compiling := l.compiling.erase filename }
                        match inherited with
                        | none => some (none, l)
                        | some inherited =>
                            generateProgram budget filename source ast inherited l

/-- The linkers of a running driver: any number of files compiled, the disk and
the files' meaning changing between any two calls. -/
inductive Linker.Reachable : Linker → Prop
  | start : Reachable {}
  | compile {l l' : Linker} {result : Option CompiledProgram} (reachable : Reachable l)
      (files : Files) (budget : Nat) (rawFilename : Str)
      (compiled : compile files budget rawFilename l = some (result, l')) : Reachable l'

end Kjdmud.Object
