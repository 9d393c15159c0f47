import Kjdmud.Object.Compile.Layout
import Kjdmud.Vm.Instructions

/-!
# The object variables that a running function touches

A function runs on the variables of the whole object, at the base of the program
it belongs to.  `PushObjectVar` and `StoreObjectVar` add that base to their slot;
the outputs of `sscanf` go to the slot alone.  So they end up in the variable
they name exactly at base 0.
-/

namespace Kjdmud.Object

open Kjdmud.Compiler
open Kjdmud.Vm (Activation CompiledProgram Env Instruction OpCode Runner State Value)

/-! ## Objects that run a program -/

/-- An object that runs a program, with a slot for each of its variables; the
constructor of the object and `replace_program` see to both. -/
structure RunsProgram (w : Vm.World) (obj : ObjectId) (program : CompiledProgram) : Prop where
  runs : w.program obj = program
  vars : (w.vars obj).length = program.objectVarNames.length

/-- An activation of a function of `ancestor` on an object that runs `program`. -/
structure RunsOn (program ancestor : CompiledProgram) (act : Activation) (s : State) : Prop where
  object : RunsProgram s.world act.obj program
  code : act.program = ancestor
  base : Vm.objectVarBase s.world ancestor act.obj = some act.objectVarBase

/-- The state with one variable of an object written. -/
def writeVar (s : State) (obj : ObjectId) (slot : Nat) (v : Value) : State :=
  { s with world := s.world.setVars obj ((s.world.vars obj).set slot v) }

theorem vars_setVars {w : Vm.World} {obj : ObjectId} (present : w.vars obj ≠ [])
    (vars : List Value) : (w.setVars obj vars).vars obj = vars := by
  unfold Vm.World.vars Vm.World.setVars at *
  cases found : w.objects[obj]? with
  | none =>
      rw [found] at present
      exact absurd rfl present
  | some o => simp [found]

theorem vars_writeVar {s : State} {obj : ObjectId} {slot : Nat}
    (inside : slot < (s.world.vars obj).length) (v : Value) :
    (writeVar s obj slot v).world.vars obj = (s.world.vars obj).set slot v :=
  vars_setVars (List.ne_nil_of_length_pos (Nat.zero_lt_of_lt inside)) _

/-- The base that `VM::run` finds is the recorded one. -/
theorem RunsOn.recordedBase {program ancestor : CompiledProgram} {act : Activation} {s : State}
    (runs : RunsOn program ancestor act s) :
    recordedBase program ancestor = some act.objectVarBase := by
  have found := runs.base
  unfold Vm.objectVarBase at found
  rw [runs.object.runs] at found
  exact found

/-! ## What the instructions touch -/

/-- An instruction that names an object variable works on one slot of the
variables of the object: it pushes the value there, pops a value into it, or, as
an entry of a slot table, puts an output of `sscanf` there. -/
def TouchesSlot (act : Activation) (instr : Instruction) (slot : Nat) (s : State) : Prop :=
  match instr.op with
  | .pushObjectVar => ∃ v, (s.world.vars act.obj)[slot]? = some v ∧
      ∀ env run ip, Vm.execute env run act ip instr s =
        Vm.pushNext (s.world.coerceIfDestructed v)
          (writeVar s act.obj slot (s.world.coerceIfDestructed v))
  | .storeObjectVar => ∀ v stack, s.localStack = v :: stack →
      ∀ env run ip, Vm.execute env run act ip instr s =
        Vm.advance (writeVar (s.withStack stack) act.obj slot v)
  | _ => ∀ v, Vm.assignOutput act instr v s = .ok (writeVar s act.obj slot v)

theorem slotBelow_natCast {bound slot : Nat} (inside : slot < bound) :
    Vm.slotBelow bound (slot : Int) = some slot := by
  have notOutside : ¬ ((slot : Int) < 0 ∨ bound ≤ (slot : Int).toNat) := by omega
  rw [Vm.slotBelow, if_neg notOutside, Int.toNat_natCast]

section Touches

variable {act : Activation} {s : State} {slot : Nat}

theorem touches_pushObjectVar
    (inside : act.objectVarBase + slot < (s.world.vars act.obj).length) (argCount : Int) :
    TouchesSlot act ⟨.pushObjectVar, slot, argCount⟩ (act.objectVarBase + slot) s := by
  refine ⟨_, List.getElem?_eq_getElem inside, fun env run ip => ?_⟩
  show Vm.pushObjectVar act slot s = _
  rw [Vm.pushObjectVar, ← Int.natCast_add, slotBelow_natCast inside]
  simp only [List.getElem?_eq_getElem inside, Option.getD_some]
  rfl

theorem touches_storeObjectVar
    (inside : act.objectVarBase + slot < (s.world.vars act.obj).length) (argCount : Int) :
    TouchesSlot act ⟨.storeObjectVar, slot, argCount⟩ (act.objectVarBase + slot) s := by
  intro v stack top env run ip
  show Vm.storeObjectVar act slot s = _
  rw [Vm.storeObjectVar, ← Int.natCast_add, slotBelow_natCast inside, top]
  rfl

/-- An output of `sscanf` goes to the slot itself. -/
theorem assignOutput_objectVar (inside : slot < (s.world.vars act.obj).length) {argCount : Int}
    (isObjectVar : argCount ≠ 0) (v : Value) :
    Vm.assignOutput act ⟨.sscanfVarSlot, slot, argCount⟩ v s =
      .ok (writeVar s act.obj slot v) := by
  rw [Vm.assignOutput, if_pos isObjectVar, slotBelow_natCast inside]
  rfl

theorem writeVar_inj {obj : ObjectId} {slot' : Nat} {v : Value}
    (inside : slot < (s.world.vars obj).length)
    (differs : (s.world.vars obj)[slot]? ≠ some v)
    (inside' : slot' < (s.world.vars obj).length)
    (same : writeVar s obj slot v = writeVar s obj slot' v) : slot = slot' := by
  by_contra other
  have vars := congrArg (fun s : State => (s.world.vars obj)[slot]?) same
  simp only [vars_writeVar inside, vars_writeVar inside'] at vars
  rw [List.getElem?_set_self inside, List.getElem?_set_ne (Ne.symm other)] at vars
  exact differs vars.symm

end Touches

/-- An output of `sscanf` that is an object variable. -/
def ScansObjectVar (instr : Instruction) : Prop :=
  instr.op = .sscanfVarSlot ∧ instr.argCount ≠ 0

/-- Wherever a function of `ancestor` runs on an object of `program`, whatever
its code names as an object variable is a variable of `ancestor`, and it works on
the slot where the object holds that variable. -/
def TouchesOwnVars (program ancestor : CompiledProgram) (base : Nat) : Prop :=
  ∀ act s, RunsOn program ancestor act s →
    ∀ instr ∈ ancestor.code, NamesObjectVar instr →
      ∃ slot < ancestor.objectVarNames.length,
        instr.operand = slot ∧ TouchesSlot act instr (base + slot) s

/-! ## An object for a program -/

/-- A world whose only object runs a program. -/
def worldOf (program : CompiledProgram) : Vm.World where
  objects := [⟨[], program, List.replicate program.objectVarNames.length (Value.int 0),
    false, false⟩]

/-- A state of an activation in that world. -/
def stateOf (program : CompiledProgram) : State :=
  ⟨[], [], 0, worldOf program⟩

/-- No variable of that object is 1. -/
theorem vars_stateOf_ne {program : CompiledProgram} (slot : Nat) :
    ((stateOf program).world.vars 0)[slot]? ≠ some (Value.int 1) := by
  show (List.replicate program.objectVarNames.length (Value.int 0))[slot]? ≠ _
  rw [List.getElem?_replicate]
  split
  · decide
  · nofun

theorem runsOn_stateOf {program ancestor : CompiledProgram} {base : Nat}
    (recorded : recordedBase program ancestor = some base) (fn : Vm.FunctionEntry) :
    RunsOn program ancestor ⟨ancestor, fn, 0, base⟩ (stateOf program) where
  object := ⟨rfl, List.length_replicate⟩
  code := rfl
  base := recorded

/-! ## Own variables -/

/-- An ancestor's variables lie inside those of the object. -/
theorem HoldsNames.inside {program ancestor : CompiledProgram} {act : Activation} {s : State}
    {base slot : Nat} (holds : HoldsNames program.objectVarNames (ancestor, base))
    (runs : RunsOn program ancestor act s) (own : slot < ancestor.objectVarNames.length) :
    base + slot < (s.world.vars act.obj).length := by
  rw [runs.object.vars]
  exact holds.bound own

/-- **Which accesses stay with the ancestor's own variables**: all of them exactly
when its variables start at slot 0, or no output of `sscanf` is one of them. -/
theorem touchesOwnVars_iff {file : Nat → Str} {program ancestor : CompiledProgram} {base : Nat}
    (linked : Linked file ancestor) (recorded : recordedBase program ancestor = some base)
    (holds : HoldsNames program.objectVarNames (ancestor, base)) :
    TouchesOwnVars program ancestor base ↔
      base = 0 ∨ ∀ instr ∈ ancestor.code, ¬ ScansObjectVar instr := by
  constructor
  · intro touches
    by_contra neither
    obtain ⟨notFirst, scans⟩ := not_or.1 neither
    refine scans fun instr mem scan => ?_
    obtain ⟨slot, own, isSlot, touched⟩ := touches _ _
      (runsOn_stateOf recorded ⟨[], 0, 0, 0, false⟩) instr mem (.inr (.inr scan))
    have runs := runsOn_stateOf recorded ⟨[], 0, 0, 0, false⟩
    have inside := holds.inside runs own
    obtain ⟨op, operand, argCount⟩ := instr
    obtain ⟨isScan, isObjectVar⟩ := scan
    simp only at isScan isObjectVar isSlot
    subst isScan isSlot
    have inside' : slot < ((stateOf program).world.vars 0).length :=
      (Nat.le_add_left slot base).trans_lt inside
    have written := (assignOutput_objectVar inside' isObjectVar (Value.int 1)).symm.trans
      (touched (Value.int 1))
    have same := writeVar_inj inside' ?_ inside (Except.ok.inj written)
    · omega
    · exact vars_stateOf_ne slot
  · intro fits act s runs instr mem names
    obtain ⟨slot, own, isSlot⟩ := linked.node.slots instr mem names
    refine ⟨slot, own, isSlot, ?_⟩
    have inside := holds.inside runs own
    have isBase : act.objectVarBase = base :=
      Option.some.inj (runs.recordedBase.symm.trans recorded)
    obtain ⟨op, operand, argCount⟩ := instr
    simp only at isSlot
    subst isSlot
    rcases names with isPush | isStore | ⟨isScan, isObjectVar⟩
    · simp only at isPush
      subst isPush
      rw [← isBase] at inside ⊢
      exact touches_pushObjectVar inside argCount
    · simp only at isStore
      subst isStore
      rw [← isBase] at inside ⊢
      exact touches_storeObjectVar inside argCount
    · simp only at isScan isObjectVar
      subst isScan
      rcases fits with first | none
      · rw [first, Nat.zero_add] at inside ⊢
        exact fun v => assignOutput_objectVar inside isObjectVar v
      · exact absurd ⟨rfl, isObjectVar⟩ (none _ mem)

end Kjdmud.Object
