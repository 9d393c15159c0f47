import Kjdmud.Object.Compile.Access
import Mathlib.Data.List.Pairwise

/-!
# Inherited functions and their variables

The layout of the object variables, and what the functions of an ancestor do with
them: all of their accesses, and the outputs of `sscanf` one by one.  A sample tree
of three files has an output that goes astray.
-/

namespace Kjdmud.Object

open Kjdmud.Compiler
open Kjdmud.Vm (CompiledProgram Instruction Value)

/-! ## Flattened object variables -/

/-- The object variables of a program are those of its inherit tree, flattened:
every ancestor finds its own names from its recorded base on, and what different
programs of the tree declare lies in different slots of the program. -/
structure Flattened (program : CompiledProgram) : Prop where
  names : ∀ ancestor base, InTree program ancestor → recordedBase program ancestor = some base →
    HoldsNames program.objectVarNames (ancestor, base)
  bound : ∀ ancestor base, InTree program ancestor → recordedBase program ancestor = some base →
    ∀ slot, DeclaresSlot (ancestor, base) slot → slot < program.objectVarNames.length
  separate : ∀ ancestor ancestor' base base', InTree program ancestor →
    InTree program ancestor' → ancestor ≠ ancestor' →
    recordedBase program ancestor = some base → recordedBase program ancestor' = some base' →
    Separate (ancestor, base) (ancestor', base')

instance : Std.Symm Separate where
  symm _ _ separate slot declares' declares := separate slot declares declares'

/-- A recorded base is that of the placement. -/
theorem Linked.placed {file : Nat → Str} {program ancestor : CompiledProgram} {base : Nat}
    (linked : Linked file program) (single : (Object.inheritedFiles program).Nodup)
    (above : InTree program ancestor)
    (recorded : Object.recordedBase program ancestor = some base) :
    (ancestor, base) ∈ placementsWithSelf program := by
  obtain ⟨base', mem⟩ := above.placed
  rw [linked.recordedBase single mem] at recorded
  exact Option.some.inj recorded ▸ mem

theorem Linked.holdsNamesWithSelf {file : Nat → Str} {program : CompiledProgram}
    (linked : Linked file program) :
    ∀ placed ∈ placementsWithSelf program, HoldsNames program.objectVarNames placed := by
  intro placed mem
  rcases List.mem_cons.1 mem with rfl | mem
  · exact fun i _ => by rw [Nat.zero_add]
  · exact linked.holdsNames _ mem

theorem Linked.flattened {file : Nat → Str} {program : CompiledProgram}
    (linked : Linked file program) (single : (Object.inheritedFiles program).Nodup) :
    Flattened program where
  names _ _ above recorded :=
    linked.holdsNamesWithSelf _ (linked.placed single above recorded)
  bound ancestor base above recorded slot declares := by
    obtain ⟨low, high⟩ := declares
    simp only at low high
    have holds := linked.holdsNamesWithSelf _ (linked.placed single above recorded)
    have inside : base + (slot - base) < program.objectVarNames.length :=
      holds.bound (by simp only; omega)
    omega
  separate ancestor ancestor' base base' above above' differ recorded recorded' :=
    List.Pairwise.forall linked.separated (linked.placed single above recorded)
      (linked.placed single above' recorded') fun same => differ (congrArg Prod.fst same)

/-- **Flattened object variables.**  In an inherit tree that reaches no file by two
paths, the variables of a compiled program are flattened, every ancestor has a
recorded base, and its functions keep to its own variables exactly when those start
at slot 0 or its code has no output of `sscanf` among them. -/
theorem flattened_objectVars {files : Files} {budget : Nat} {rawFilename : Str} {l l' : Linker}
    {program : CompiledProgram} (reachable : l.Reachable)
    (compiled : compile files budget rawFilename l = some (some program, l'))
    (single : (inheritedFiles program).Nodup) :
    Flattened program ∧
      ∀ ancestor, InTree program ancestor → ∃ base,
        recordedBase program ancestor = some base ∧
          (TouchesOwnVars program ancestor base ↔
            base = 0 ∨ ∀ instr ∈ ancestor.code, ¬ ScansObjectVar instr) := by
  obtain ⟨file, linked⟩ := compile_linked reachable compiled
  refine ⟨linked.flattened single, fun ancestor above => ?_⟩
  obtain ⟨base, placed⟩ := above.placed
  have recorded := linked.recordedBase single placed
  exact ⟨base, recorded, touchesOwnVars_iff (linked.inTree above) recorded
    (linked.holdsNamesWithSelf _ placed)⟩

/-! ## A sample tree -/

/-- `/x` declares a variable; `/y` declares another and scans into it; `/child`
inherits both. -/
def sampleParse (filename : Str) : Option Program :=
  if filename = str "/x" then
    some ⟨[], [⟨str "int", str "x", false, none⟩], [], []⟩
  else if filename = str "/y" then
    some ⟨[⟨str "scan", [], false, some [.exprStmt (.sscanfExpr (.stringLiteral (str "7"))
        (.stringLiteral (str "%s")) [(str "y", none)])]⟩],
      [⟨str "string", str "y", false, none⟩], [], []⟩
  else if filename = str "/child" then some ⟨[], [], [str "/x", str "/y"], []⟩
  else none

/-- The disk with these files. -/
def sampleFiles : Files where
  source := some
  parse filename _ := sampleParse filename

/-- What the sample is for: no file is reached twice, and the second parent, which
starts at slot 1, has an output of `sscanf` in its slot 0. -/
def IsSample (program : CompiledProgram) : Prop :=
  (inheritedFiles program).Nodup ∧
    ∃ y ∈ program.inheritedPrograms, recordedBase program y = some 1 ∧
      ⟨.sscanfVarSlot, 0, 1⟩ ∈ y.code

instance (program : CompiledProgram) : Decidable (IsSample program) :=
  inferInstanceAs (Decidable (_ ∧ _))

theorem sample_compiles : ∃ program l',
    compile sampleFiles 4 (str "/child") {} = some (some program, l') ∧ IsSample program := by
  have sample : ((compile sampleFiles 4 (str "/child") {}).bind Prod.fst).any
      (fun program => decide (IsSample program)) = true := by decide +kernel
  cases result : compile sampleFiles 4 (str "/child") {} with
  | none =>
      rw [result] at sample
      cases sample
  | some compilation =>
      obtain ⟨program | program, l'⟩ := compilation
      · rw [result] at sample
        cases sample
      · rw [result] at sample
        exact ⟨program, l', rfl, of_decide_eq_true sample⟩

/-- The sample's variables are flattened. -/
theorem flattened_objectVars_sample : ∃ program l',
    compile sampleFiles 4 (str "/child") {} = some (some program, l') ∧
      Flattened program ∧ ∀ ancestor, InTree program ancestor → ∃ base,
        recordedBase program ancestor = some base ∧
          (TouchesOwnVars program ancestor base ↔
            base = 0 ∨ ∀ instr ∈ ancestor.code, ¬ ScansObjectVar instr) := by
  obtain ⟨program, l', compiled, sample⟩ := sample_compiles
  exact ⟨program, l', compiled, flattened_objectVars .start compiled sample.1⟩

/-- In the sample, what `/y` scans goes to a variable that is not its own. -/
theorem sample_touches_foreign : ∃ program l' y base,
    compile sampleFiles 4 (str "/child") {} = some (some program, l') ∧
      (inheritedFiles program).Nodup ∧ InTree program y ∧
      recordedBase program y = some base ∧ ¬ TouchesOwnVars program y base := by
  obtain ⟨program, l', compiled, single, y, inherited, recorded, scans⟩ := sample_compiles
  obtain ⟨file, linked⟩ := compile_linked .start compiled
  have above : InTree program y := .parent inherited (.root y)
  refine ⟨program, l', y, 1, compiled, single, above, recorded, fun touches => ?_⟩
  have own := (touchesOwnVars_iff (linked.inTree above) recorded
    (linked.holdsNamesWithSelf _ (linked.placed single above recorded))).1 touches
  rcases own with first | none
  · exact absurd first (by decide)
  · exact none _ scans ⟨rfl, by decide⟩

/-! ## The outputs of `sscanf` -/

/-- The slot of the object's variables that an instruction of `ancestor` works on,
wherever a function of `ancestor` runs on an object of `program`. -/
def WorksOn (program ancestor : CompiledProgram) (instr : Instruction) (slot : Nat) : Prop :=
  ∀ act s, RunsOn program ancestor act s → TouchesSlot act instr slot s

/-- An output of `sscanf` ends up in a slot and changes no other: after it, the
slot holds the value. -/
def LandsIn (program ancestor : CompiledProgram) (instr : Instruction) (slot : Nat) : Prop :=
  ∀ act s, RunsOn program ancestor act s → ∀ v, ∃ s',
    Vm.assignOutput act instr v s = .ok s' ∧
      (s'.world.vars act.obj)[slot]? = some v ∧
      ∀ other ≠ slot, (s'.world.vars act.obj)[other]? = (s.world.vars act.obj)[other]?

section Outputs

variable {program ancestor : CompiledProgram} {base slot : Nat}

theorem worksOn_pushObjectVar (recorded : recordedBase program ancestor = some base)
    (holds : HoldsNames program.objectVarNames (ancestor, base))
    (own : slot < ancestor.objectVarNames.length) :
    WorksOn program ancestor ⟨.pushObjectVar, slot, 0⟩ (base + slot) := by
  intro act s runs
  have inside := holds.inside runs own
  rw [← Option.some.inj (runs.recordedBase.symm.trans recorded)] at inside ⊢
  exact touches_pushObjectVar inside 0

theorem landsIn_iff (recorded : recordedBase program ancestor = some base)
    (holds : HoldsNames program.objectVarNames (ancestor, base))
    (own : slot < ancestor.objectVarNames.length) {argCount : Int}
    (isObjectVar : argCount ≠ 0) :
    LandsIn program ancestor ⟨.sscanfVarSlot, slot, argCount⟩ (base + slot) ↔ base = 0 := by
  constructor
  · intro lands
    by_contra notFirst
    have runs := runsOn_stateOf recorded ⟨[], 0, 0, 0, false⟩
    have inside : slot < ((stateOf program).world.vars 0).length :=
      (Nat.le_add_left slot base).trans_lt (holds.inside runs own)
    obtain ⟨s', ran, _, others⟩ := lands _ _ runs (Value.int 1)
    rw [assignOutput_objectVar inside isObjectVar] at ran
    cases ran
    have kept := others slot (by omega)
    rw [vars_writeVar inside, List.getElem?_set_self inside] at kept
    exact vars_stateOf_ne slot kept.symm
  · rintro rfl act s runs v
    have inside := holds.inside runs own
    rw [Nat.zero_add] at inside ⊢
    refine ⟨_, assignOutput_objectVar inside isObjectVar v, ?_, fun other differ => ?_⟩
    · rw [vars_writeVar inside, List.getElem?_set_self inside]
    · rw [vars_writeVar inside, List.getElem?_set_ne (Ne.symm differ)]

end Outputs

/-- **Where an output of `sscanf` goes.**  In an inherit tree that reaches no file
by two paths, an output that is an object variable lands in the slot that the same
program's `PushObjectVar` reads for that variable exactly when the program's
variables start at slot 0 of the object. -/
theorem sscanf_lands_iff {files : Files} {budget : Nat} {rawFilename : Str} {l l' : Linker}
    {program ancestor : CompiledProgram} (reachable : l.Reachable)
    (compiled : compile files budget rawFilename l = some (some program, l'))
    (single : (inheritedFiles program).Nodup) (above : InTree program ancestor)
    {instr : Instruction} (mem : instr ∈ ancestor.code) (scans : ScansObjectVar instr) :
    ∃ base slot : Nat, recordedBase program ancestor = some base ∧
      instr.operand = slot ∧ slot < ancestor.objectVarNames.length ∧
      WorksOn program ancestor ⟨.pushObjectVar, slot, 0⟩ (base + slot) ∧
      (LandsIn program ancestor instr (base + slot) ↔ base = 0) := by
  obtain ⟨file, linked⟩ := compile_linked reachable compiled
  obtain ⟨base, placed⟩ := above.placed
  have recorded := linked.recordedBase single placed
  have holds := linked.holdsNamesWithSelf _ placed
  obtain ⟨slot, own, isSlot⟩ := (linked.inTree above).node.slots instr mem (.inr (.inr scans))
  obtain ⟨op, operand, argCount⟩ := instr
  obtain ⟨isScan, isObjectVar⟩ := scans
  simp only at isScan isObjectVar isSlot
  subst isScan isSlot
  exact ⟨base, slot, recorded, rfl, own, worksOn_pushObjectVar recorded holds own,
    landsIn_iff recorded holds own isObjectVar⟩

/-- What the sample scans. -/
theorem sscanf_lands_iff_sample : ∃ program l' y instr,
    compile sampleFiles 4 (str "/child") {} = some (some program, l') ∧
      InTree program y ∧ instr ∈ y.code ∧ ScansObjectVar instr ∧
      ∃ base slot : Nat, recordedBase program y = some base ∧
        instr.operand = slot ∧ slot < y.objectVarNames.length ∧
        WorksOn program y ⟨.pushObjectVar, slot, 0⟩ (base + slot) ∧
        (LandsIn program y instr (base + slot) ↔ base = 0) := by
  obtain ⟨program, l', compiled, single, y, inherited, _, mem⟩ := sample_compiles
  have scans : ScansObjectVar ⟨.sscanfVarSlot, 0, 1⟩ := ⟨rfl, by decide⟩
  exact ⟨program, l', y, _, compiled, .parent inherited (.root y), mem, scans,
    sscanf_lands_iff .start compiled single (.parent inherited (.root y)) mem scans⟩

/-- In the sample, `y` is scanned into the slot of `x`. -/
theorem sample_scan_misses : ∃ program l' y instr, ∃ base slot : Nat,
    compile sampleFiles 4 (str "/child") {} = some (some program, l') ∧
      (inheritedFiles program).Nodup ∧ InTree program y ∧ instr ∈ y.code ∧
      ScansObjectVar instr ∧ recordedBase program y = some base ∧ instr.operand = slot ∧
      WorksOn program y ⟨.pushObjectVar, slot, 0⟩ (base + slot) ∧
      ¬ LandsIn program y instr (base + slot) := by
  obtain ⟨program, l', compiled, single, y, inherited, recorded, mem⟩ := sample_compiles
  obtain ⟨file, linked⟩ := compile_linked .start compiled
  have above : InTree program y := .parent inherited (.root y)
  have holds := linked.holdsNamesWithSelf _ (linked.placed single above recorded)
  have scans : ScansObjectVar ⟨.sscanfVarSlot, 0, 1⟩ := ⟨rfl, by decide⟩
  obtain ⟨slot, own, isSlot⟩ := (linked.inTree above).node.slots _ mem (.inr (.inr scans))
  obtain rfl : slot = 0 := by
    simp only at isSlot
    omega
  refine ⟨program, l', y, _, 1, 0, compiled, single, above, mem, scans, recorded, rfl,
    worksOn_pushObjectVar recorded holds own, fun lands => ?_⟩
  exact absurd ((landsIn_iff recorded holds own scans.2).1 lands) (by decide)

end Kjdmud.Object
