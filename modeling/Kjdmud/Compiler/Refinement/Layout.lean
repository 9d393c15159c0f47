import Kjdmud.Compiler.Lowering
import Kjdmud.Lib.StateExcept

/-!
# Emitters and the layout of structured code

What it means that an emitter produces the flat form of some structured code:
the code it appends, with the jumps that leave it still at their placeholder
targets, and the jumps it records in the open loops.
-/

namespace Kjdmud.Compiler

open Kjdmud.Vm Kjdmud.Structured Kjdmud.StateExcept

/-! ## Bytecode of flat code -/

/-- The bytecode of a flat instruction. -/
def assemble : Flat Op → Instruction
  | .op i => i.instr
  | .data i k => (i.table[k]?).getD ⟨.halt, 0, 0⟩
  | .jump target => ⟨.jump, int32 target, 0⟩
  | .jumpIfFalse target => ⟨.jumpIfFalse, int32 target, 0⟩
  | .guard target => ⟨.pushCatchFrame, int32 target, 0⟩
  | .unguard => ⟨.popCatchFrame, 0, 0⟩

/-- The bytecode of structured code laid out from `pc` on. -/
def layout (t : Targets) (c : Code Op) (pc : Nat) : List Instruction :=
  (c.flatten t pc).map assemble

/-- The targets of jumps whose targets are not known yet. -/
def openTargets : Targets := fun _ => -1

@[simp]
theorem length_layout (t : Targets) (c : Code Op) (pc : Nat) :
    (layout t c pc).length = c.size := by
  simp [layout]

/-- A straight-line instruction and its table. -/
@[simp]
theorem layout_op (t : Targets) (i : Op) (pc : Nat) :
    layout t (.op i) pc = i.instr :: i.table := by
  simp only [layout, Code.flatten, List.map_cons, List.map_map, assemble,
    List.cons.injEq, true_and]
  apply List.ext_getElem
  · simp [Operation.width]
  · intro k inMapped inTable
    simp [assemble, inTable]

@[simp]
theorem layout_skip (t : Targets) (pc : Nat) : layout t .skip pc = [] :=
  rfl

@[simp]
theorem layout_seq (t : Targets) (a b : Code Op) (pc : Nat) :
    layout t (.seq a b) pc = layout t a pc ++ layout t b (pc + a.size) := by
  simp [layout, Code.flatten]

/-- Give a jump the target `target`. -/
def setOperand (target : Nat) (instr : Instruction) : Instruction :=
  { instr with operand := int32 target }

theorem retargets_assemble (target : Nat) :
    Retargets assemble (setOperand target) target where
  jump _ := rfl
  jumpIfFalse _ := rfl

theorem int32_placeholder : int32 (-1) = -1 := by
  decide

/-- Patching the holes of some kind in laid out code. -/
theorem patchAll_layout (sel : Hole → Bool) (target : Nat) (t : Targets) (c : Code Op)
    (pc : Nat) (before after : List Instruction) (position : before.length = pc) :
    patchAll (setOperand target) (c.selected sel pc) (before ++ (layout t c pc ++ after)) =
      before ++ (layout (Code.redirect sel target t) c pc ++ after) :=
  Code.patchAll_flatten (retargets_assemble target) sel t c pc before after position

/-! ## Recorded jumps -/

/-- The open loops after a jump out of the emitted code. -/
def recordHole : List LoopContext → Hole × Nat → Option (List LoopContext)
  | ctx :: loops, (.brk, pos) =>
      some ({ ctx with breakJumps := ctx.breakJumps ++ [pos] } :: loops)
  | [], (.brk, _) => none
  | loops, (.cont, pos) => addContinueJump pos loops
  | _, (.label _, _) => none

/-- The open loops after some jumps. -/
def record (holes : List (Hole × Nat)) (loops : List LoopContext) :
    Option (List LoopContext) :=
  holes.foldlM recordHole loops

@[simp]
theorem record_nil (loops : List LoopContext) : record [] loops = some loops :=
  rfl

theorem record_append (first second : List (Hole × Nat)) (loops : List LoopContext) :
    record (first ++ second) loops = (record first loops).bind (record second) := by
  simp [record, List.foldlM_append]
  rfl

theorem record_cons (hole : Hole × Nat) (holes : List (Hole × Nat))
    (loops : List LoopContext) :
    record (hole :: holes) loops = (recordHole loops hole).bind (record holes) := by
  simp [record, List.foldlM_cons]
  rfl

/-- The positions of the holes of one kind. -/
def positionsOf (kind : Hole) (holes : List (Hole × Nat)) : List Nat :=
  (holes.filter fun hole => decide (hole.1 = kind)).map Prod.snd

/-- Inside a loop, all jumps are recorded in the loop itself. -/
theorem record_loop {holes : List (Hole × Nat)} {brks conts : List Nat}
    {loops loops' : List LoopContext}
    (recorded : record holes (⟨brks, conts, false⟩ :: loops) = some loops') :
    loops' = ⟨brks ++ positionsOf .brk holes, conts ++ positionsOf .cont holes, false⟩ ::
        loops ∧
      holes.filter (fun hole => Hole.passesLoop hole.1) = [] := by
  induction holes generalizing brks conts with
  | nil =>
      simp only [record_nil, Option.some.injEq] at recorded
      simp [← recorded, positionsOf]
  | cons hole holes ih =>
      obtain ⟨kind, pos⟩ := hole
      rw [record_cons] at recorded
      cases kind with
      | brk =>
          obtain ⟨shape, labels⟩ := ih (by simpa [recordHole] using recorded)
          constructor
          · simp [shape, positionsOf]
          · rw [List.filter_cons_of_neg (by simp [Hole.passesLoop]), labels]
      | cont =>
          obtain ⟨shape, labels⟩ :=
            ih (by simpa [recordHole, addContinueJump] using recorded)
          constructor
          · simp [shape, positionsOf]
          · rw [List.filter_cons_of_neg (by simp [Hole.passesLoop]), labels]
      | label n => simp [recordHole] at recorded

/-- Inside a switch, breaks are recorded in the switch and continues outside. -/
theorem record_switch {holes : List (Hole × Nat)} {brks conts : List Nat}
    {loops loops' : List LoopContext}
    (recorded : record holes (⟨brks, conts, true⟩ :: loops) = some loops') :
    ∃ outer, loops' = ⟨brks ++ positionsOf .brk holes, conts, true⟩ :: outer ∧
      record (holes.filter fun hole => Hole.passesBodies hole.1) loops =
        some outer := by
  induction holes generalizing brks loops with
  | nil =>
      simp only [record_nil, Option.some.injEq] at recorded
      exact ⟨loops, by simp [← recorded, positionsOf], rfl⟩
  | cons hole holes ih =>
      obtain ⟨kind, pos⟩ := hole
      rw [record_cons] at recorded
      cases kind with
      | brk =>
          obtain ⟨outer, shape, rest⟩ := ih (by simpa [recordHole] using recorded)
          refine ⟨outer, by simp [shape, positionsOf], ?_⟩
          rwa [List.filter_cons_of_neg (by simp [Hole.passesBodies])]
      | cont =>
          cases added : addContinueJump pos loops with
          | none => simp [recordHole, addContinueJump, added] at recorded
          | some loops₁ =>
              obtain ⟨outer, shape, rest⟩ :=
                ih (by simpa [recordHole, addContinueJump, added] using recorded)
              refine ⟨outer, by simp [shape, positionsOf], ?_⟩
              rw [List.filter_cons_of_pos (by simp [Hole.passesBodies]), record_cons]
              simpa [recordHole, added] using rest
      | label n => simp [recordHole] at recorded

/-! ## Emitted code -/

/-- Emitting from `gen` to `gen'` has appended the layout of `c`. -/
structure Emitted (gen gen' : CodeGen) (c : Code Op) : Prop where
  functions : gen'.functions = gen.functions
  code : gen'.code = gen.code ++ layout openTargets c gen.code.length
  loops : record (c.holes gen.code.length) gen.loopStack = some gen'.loopStack

/-- The emitter `m` emits the code that `l` computes, with the same names. -/
def Realizes (m : Gen Unit) (l : Lower) : Prop :=
  ∀ gen gen', m gen = .ok ((), gen') →
    ∃ c, l gen.toNames = .ok (c, gen'.toNames) ∧ Emitted gen gen' c

theorem Emitted.length {gen gen' : CodeGen} {c : Code Op} (emitted : Emitted gen gen' c) :
    gen'.code.length = gen.code.length + c.size := by
  simp [emitted.code]

theorem Emitted.seq {gen gen₁ gen' : CodeGen} {a b : Code Op}
    (first : Emitted gen gen₁ a) (second : Emitted gen₁ gen' b) :
    Emitted gen gen' (.seq a b) where
  functions := second.functions.trans first.functions
  code := by rw [second.code, first.length, first.code]; simp
  loops := by
    rw [Code.holes, record_append, first.loops, Option.bind_some, ← first.length,
      second.loops]

/-! ## Runs of the primitives -/

/-- Going from `gen` to `gen'` has replaced the code and nothing else. -/
structure Writes (gen gen' : CodeGen) (code : List Instruction) : Prop where
  names : gen'.toNames = gen.toNames
  functions : gen'.functions = gen.functions
  loops : gen'.loopStack = gen.loopStack
  code : gen'.code = code

theorem emit_run {instr : Instruction} {gen gen' : CodeGen} {u : Unit}
    (run : emit instr gen = .ok (u, gen')) :
    Writes gen gen' (gen.code ++ [instr]) := by
  cases run
  exact ⟨rfl, rfl, rfl, rfl⟩

theorem here_run {gen gen' : CodeGen} {n : Nat} (run : here gen = .ok (n, gen')) :
    n = gen.code.length ∧ gen = gen' := by
  cases run
  exact ⟨rfl, rfl⟩

theorem emitJumpPlaceholder_run {op : OpCode} {gen gen' : CodeGen} {n : Nat}
    (run : emitJumpPlaceholder op gen = .ok (n, gen')) :
    n = gen.code.length ∧ Writes gen gen' (gen.code ++ [⟨op, -1, 0⟩]) := by
  cases run
  exact ⟨rfl, rfl, rfl, rfl, rfl⟩

theorem patchJumpTo_run {idx target : Nat} {gen gen' : CodeGen} {u : Unit}
    (run : patchJumpTo idx target gen = .ok (u, gen')) :
    Writes gen gen' (gen.code.modify idx (setOperand target)) := by
  cases run
  exact ⟨rfl, rfl, rfl, rfl⟩

theorem patchJumpToHere_run {idx : Nat} {gen gen' : CodeGen} {u : Unit}
    (run : patchJumpToHere idx gen = .ok (u, gen')) :
    Writes gen gen' (gen.code.modify idx (setOperand gen.code.length)) := by
  cases run
  exact ⟨rfl, rfl, rfl, rfl⟩

theorem patchAllTo_run {target : Nat} {jumps : List Nat} {gen gen' : CodeGen}
    {u : Unit} (run : patchAllTo target jumps gen = .ok (u, gen')) :
    Writes gen gen' (patchAll (setOperand target) jumps gen.code) := by
  induction jumps generalizing gen with
  | nil =>
      cases run
      exact ⟨rfl, rfl, rfl, rfl⟩
  | cons idx jumps ih =>
      obtain ⟨_, gen₁, first, rest⟩ := bind_eq_ok.1 run
      have first := patchJumpTo_run first
      have rest := ih rest
      exact ⟨rest.names.trans first.names, rest.functions.trans first.functions,
        rest.loops.trans first.loops, by rw [rest.code, first.code]; rfl⟩

theorem patchAllToHere_run {jumps : List Nat} {gen gen' : CodeGen} {u : Unit}
    (run : patchAllToHere jumps gen = .ok (u, gen')) :
    Writes gen gen' (patchAll (setOperand gen.code.length) jumps gen.code) := by
  obtain ⟨_, gen₁, position, rest⟩ := bind_eq_ok.1 run
  obtain ⟨rfl, rfl⟩ := here_run position
  exact patchAllTo_run rest

theorem openLoop_run {isSwitch : Bool} {gen gen' : CodeGen} {u : Unit}
    (run : openLoop isSwitch gen = .ok (u, gen')) :
    gen'.toNames = gen.toNames ∧ gen'.functions = gen.functions ∧
      gen'.code = gen.code ∧ gen'.loopStack = ⟨[], [], isSwitch⟩ :: gen.loopStack := by
  cases run
  exact ⟨rfl, rfl, rfl, rfl⟩

theorem closeLoop_run {gen gen' : CodeGen} {ctx : LoopContext}
    (run : closeLoop gen = .ok (ctx, gen')) :
    ctx = gen.loopStack.headD ⟨[], [], false⟩ ∧ gen'.toNames = gen.toNames ∧
      gen'.functions = gen.functions ∧ gen'.code = gen.code ∧
        gen'.loopStack = gen.loopStack.tail := by
  cases run
  exact ⟨rfl, rfl, rfl, rfl, rfl⟩

theorem onNames_run {α : Type} {naming : Naming α} {gen gen' : CodeGen} {a : α}
    (run : (monadLift naming : Gen α) gen = .ok (a, gen')) :
    naming gen.toNames = .ok (a, gen'.toNames) ∧ gen'.functions = gen.functions ∧
      gen'.code = gen.code ∧ gen'.loopStack = gen.loopStack := by
  change onNames naming gen = _ at run
  simp only [onNames] at run
  cases first : naming gen.toNames with
  | error e => simp [first, bind, Except.bind] at run
  | ok result =>
      simp only [first, bind, Except.bind, pure, Except.pure, Except.ok.injEq,
        Prod.mk.injEq] at run
      obtain ⟨rfl, rfl⟩ := run
      exact ⟨rfl, rfl, rfl, rfl⟩

/-!
## Emitting the shapes of structured code

One rule for each way in which emitters put code together: sequences, branches,
guards, loops.  The emitters of the source are instances of these shapes.
-/

open Kjdmud.Vm Kjdmud.Structured Kjdmud.StateExcept

namespace Realizes

/-! ## Straight-line code -/

/-- One instruction, whatever it is in the source. -/
theorem noted (instr : Instruction) (note : Note) :
    Realizes (emit instr) (pure (.op { instr, note })) := by
  intro gen gen' run
  have written := emit_run run
  exact ⟨.op { instr, note }, by rw [written.names]; rfl, written.functions,
    by simp [written.code], congrArg some written.loops.symm⟩

theorem one (instr : Instruction) : Realizes (emit instr) (Compiler.one instr) :=
  noted instr .plain

theorem skip : Realizes (pure ()) (pure .skip) := by
  intro gen gen' run
  obtain ⟨_, rfl⟩ := pure_eq_ok.1 run
  exact ⟨_, rfl, rfl, by simp, rfl⟩

theorem throw {message : Str} {l : Lower} :
    Realizes (monadLift (throwLpc message : Naming Unit)) l := by
  intro gen gen' run
  exact absurd (onNames_run run).1 throw_ne_ok

theorem andThen {m m' : Gen Unit} {l l' : Lower} (first : Realizes m l)
    (second : Realizes m' l') :
    Realizes (m >>= fun _ => m') (Compiler.andThen l l') := by
  intro gen gen' run
  obtain ⟨_, gen₁, run₁, run₂⟩ := bind_eq_ok.1 run
  obtain ⟨a, lower₁, emitted₁⟩ := first gen gen₁ run₁
  obtain ⟨b, lower₂, emitted₂⟩ := second gen₁ gen' run₂
  exact ⟨.seq a b, bind_eq_ok.2 ⟨a, _, lower₁, bind_eq_ok.2 ⟨b, _, lower₂, rfl⟩⟩,
    emitted₁.seq emitted₂⟩

/-- A computation on the names before an emitter. -/
theorem naming {α : Type} {n : Naming α} {k : α → Gen Unit} {l : α → Lower}
    (rest : ∀ a, Realizes (k a) (l a)) :
    Realizes (monadLift n >>= k) (n >>= l) := by
  intro gen gen' run
  obtain ⟨a, gen₁, run₁, run₂⟩ := bind_eq_ok.1 run
  obtain ⟨named, functions, code, loops⟩ := onNames_run run₁
  obtain ⟨c, lower, emitted⟩ := rest a gen₁ gen' run₂
  exact ⟨c, bind_eq_ok.2 ⟨a, _, named, lower⟩, emitted.functions.trans functions,
    by rw [emitted.code, code], by rw [← code, ← loops]; exact emitted.loops⟩

/-- A scope around an emitter. -/
theorem block {m : Gen Unit} {l : Lower} (body : Realizes m l) :
    Realizes (emitBlock m) (lowerBlock l) := by
  intro gen gen' run
  obtain ⟨_, gen₁, opened, run⟩ := bind_eq_ok.1 run
  obtain ⟨named₁, functions₁, code₁, loops₁⟩ := onNames_run opened
  obtain ⟨_, gen₂, emitting, closed⟩ := bind_eq_ok.1 run
  obtain ⟨c, lower, emitted⟩ := body gen₁ gen₂ emitting
  obtain ⟨named₂, functions₂, code₂, loops₂⟩ := onNames_run closed
  refine ⟨c, bind_eq_ok.2 ⟨_, _, named₁, bind_eq_ok.2 ⟨c, _, lower,
    bind_eq_ok.2 ⟨_, _, named₂, rfl⟩⟩⟩, ?_, ?_, ?_⟩
  · rw [functions₂, emitted.functions, functions₁]
  · rw [code₂, emitted.code, code₁]
  · rw [← code₁, ← loops₁, loops₂]
    exact emitted.loops

/-- Two codes with the same flat form. -/
theorem map {m : Gen Unit} {l : Lower} {f : Code Op → Code Op} (body : Realizes m l)
    (same : ∀ gen gen' c, Emitted gen gen' c → Emitted gen gen' (f c)) :
    Realizes m (f <$> l) := by
  intro gen gen' run
  obtain ⟨c, lower, emitted⟩ := body gen gen' run
  exact ⟨f c, map_eq_ok.2 ⟨c, lower, rfl⟩, same gen gen' c emitted⟩

theorem nest {m : Gen Unit} {l : Lower} (body : Realizes m l) :
    Realizes m (Code.nest <$> l) :=
  body.map fun _ _ c emitted =>
    ⟨emitted.functions, by simpa [layout] using emitted.code,
      by simpa using emitted.loops⟩

theorem stmt {m : Gen Unit} {l : Lower} (nested : Bool) (body : Realizes m l) :
    Realizes m (Code.stmt nested <$> l) :=
  body.map fun _ _ _ emitted => ⟨emitted.functions, emitted.code, emitted.loops⟩

/-! ## Branches and guards -/

theorem ifThen {m : Gen Unit} {l : Lower} (body : Realizes m l) :
    Realizes
      (do
        let idx ← emitJumpPlaceholder .jumpIfFalse
        m
        patchJumpToHere idx)
      (ifTrue l) := by
  intro gen gen' run
  obtain ⟨_, gen₁, placing, run⟩ := bind_eq_ok.1 run
  obtain ⟨rfl, placed⟩ := emitJumpPlaceholder_run placing
  obtain ⟨_, gen₂, emitting, patched⟩ := bind_eq_ok.1 run
  obtain ⟨a, lower, emitted⟩ := body gen₁ gen₂ emitting
  have patched := patchJumpToHere_run patched
  have start : gen₁.code.length = gen.code.length + 1 := by simp [placed.code]
  have finish : gen₂.code.length = gen.code.length + 1 + a.size := by
    rw [emitted.length, start]
  refine ⟨.ifThen a, map_eq_ok.2 ⟨a, ?_, rfl⟩, ?_, ?_, ?_⟩
  · rw [← placed.names, patched.names]
    exact lower
  · rw [patched.functions, emitted.functions, placed.functions]
  · rw [patched.code, finish, emitted.code, start, placed.code, List.append_assoc,
      List.singleton_append, modify_append_cons _ _ _ _ rfl]
    rfl
  · rw [patched.loops, ← placed.loops, Code.holes, ← start]
    exact emitted.loops

theorem ifElse {m m' : Gen Unit} {l l' : Lower} (thenBranch : Realizes m l)
    (elseBranch : Realizes m' l') :
    Realizes
      (do
        let idx ← emitJumpPlaceholder .jumpIfFalse
        m
        let endIdx ← emitJumpPlaceholder .jump
        patchJumpToHere idx
        m'
        patchJumpToHere endIdx)
      (eitherOr l l') := by
  intro gen gen' run
  obtain ⟨_, gen₁, placing, run⟩ := bind_eq_ok.1 run
  obtain ⟨rfl, placed⟩ := emitJumpPlaceholder_run placing
  obtain ⟨_, gen₂, emitting, run⟩ := bind_eq_ok.1 run
  obtain ⟨a, lower, emitted⟩ := thenBranch gen₁ gen₂ emitting
  obtain ⟨_, gen₃, placing', run⟩ := bind_eq_ok.1 run
  obtain ⟨rfl, placed'⟩ := emitJumpPlaceholder_run placing'
  obtain ⟨_, gen₄, patched, run⟩ := bind_eq_ok.1 run
  have patched := patchJumpToHere_run patched
  obtain ⟨_, gen₅, emitting', patched'⟩ := bind_eq_ok.1 run
  obtain ⟨b, lower', emitted'⟩ := elseBranch gen₄ gen₅ emitting'
  have patched' := patchJumpToHere_run patched'
  generalize len : gen.code.length = n
  have len₁ : gen₁.code.length = n + 1 := by simp [placed.code, len]
  have len₂ : gen₂.code.length = n + 1 + a.size := by rw [emitted.length, len₁]
  have len₃ : gen₃.code.length = n + 2 + a.size := by
    simp [placed'.code, len₂]
    omega
  have len₄ : gen₄.code.length = n + 2 + a.size := by simp [patched.code, len₃]
  have len₅ : gen₅.code.length = n + 2 + a.size + b.size := by
    rw [emitted'.length, len₄]
  have code₄ : gen₄.code = gen.code ++
      ⟨.jumpIfFalse, int32 (n + 2 + a.size : Nat), 0⟩ :: layout openTargets a (n + 1) ++
        [⟨.jump, -1, 0⟩] := by
    rw [patched.code, len₃, placed'.code, emitted.code, len₁, placed.code]
    simp only [List.append_assoc, List.cons_append, List.nil_append]
    rw [modify_append_cons _ _ _ _ rfl]
    rfl
  refine ⟨.ifElse a b,
    bind_eq_ok.2 ⟨a, gen₂.toNames, ?_, bind_eq_ok.2 ⟨b, gen'.toNames, ?_, rfl⟩⟩,
    ?_, ?_, ?_⟩
  · rw [← placed.names]
    exact lower
  · rw [← placed'.names, ← patched.names, patched'.names]
    exact lower'
  · rw [patched'.functions, emitted'.functions, patched.functions, placed'.functions,
      emitted.functions, placed.functions]
  · rw [patched'.code, len₅, emitted'.code, len₄, code₄, List.append_assoc _ [_],
      List.singleton_append, modify_append_cons _ _ _ _ (by simp [len]; omega)]
    simp [layout, Code.flatten, assemble, setOperand, len]
  · rw [Code.holes, len, record_append, patched'.loops, ← placed.loops, ← len₁,
      emitted.loops, Option.bind_some, ← placed'.loops, ← patched.loops, ← len₄]
    exact emitted'.loops

/-- A catch frame around an emitter. -/
theorem guard {m : Gen Unit} {l : Lower} (body : Realizes m l) :
    Realizes
      (do
        let idx ← emitJumpPlaceholder .pushCatchFrame
        m
        emit ⟨.popCatchFrame, 0, 0⟩
        patchJumpToHere idx)
      (Code.guard <$> l) := by
  intro gen gen' run
  obtain ⟨_, gen₁, placing, run⟩ := bind_eq_ok.1 run
  obtain ⟨rfl, placed⟩ := emitJumpPlaceholder_run placing
  obtain ⟨_, gen₂, emitting, run⟩ := bind_eq_ok.1 run
  obtain ⟨a, lower, emitted⟩ := body gen₁ gen₂ emitting
  obtain ⟨_, gen₃, popped, patched⟩ := bind_eq_ok.1 run
  have popped := emit_run popped
  have patched := patchJumpToHere_run patched
  have start : gen₁.code.length = gen.code.length + 1 := by simp [placed.code]
  have finish : gen₃.code.length = gen.code.length + 2 + a.size := by
    rw [popped.code, List.length_append, emitted.length, start, List.length_singleton]
    omega
  refine ⟨.guard a, map_eq_ok.2 ⟨a, ?_, rfl⟩, ?_, ?_, ?_⟩
  · rw [← placed.names, patched.names, popped.names]
    exact lower
  · rw [patched.functions, popped.functions, emitted.functions, placed.functions]
  · rw [patched.code, finish, popped.code, emitted.code, start, placed.code]
    simp only [List.append_assoc, List.cons_append, List.nil_append]
    rw [modify_append_cons _ _ _ _ rfl]
    simp [layout, Code.flatten, assemble, setOperand]
  · rw [patched.loops, popped.loops, ← placed.loops, Code.holes, ← start]
    exact emitted.loops

end Realizes

end Kjdmud.Compiler
