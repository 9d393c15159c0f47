import Kjdmud.Compiler.Execution.Programs
import Kjdmud.Lib.Structured.Control

/-!
# The control flow of a compiled function

Control stays in the code of a function, also where a `break` or a `continue` leaves a `catch`
and its frame behind.
-/

namespace Kjdmud.Compiler

open Kjdmud.Vm Kjdmud.Structured

/-- The positions at which the instructions of a function begin, its tables passed over. -/
inductive Boundary (code : List Instruction) (entryPoint : Nat) : Nat → Prop
  | entry : Boundary code entryPoint entryPoint
  | behind {p : Nat} {instr : Instruction} (before : Boundary code entryPoint p)
      (found : code[p]? = some instr) : Boundary code entryPoint (p + 1 + instr.tableLength)

/-- The entry point of the next function, or the end of the code. -/
def functionEnd (gen : CodeGen) (i : Nat) : Nat :=
  (gen.functions[i + 1]?.map FunctionEntry.entryPoint).getD gen.code.length

/-- The target of a jump is one, and a catch frame that is to be dropped is there. -/
def Checked (act : Activation) (c : Config) : Prop :=
  ∃ instr, act.program.code[c.ip]? = some instr ∧
    (instr.op ∈ [.jump, .jumpIfFalse, .pushCatchFrame] →
      (jumpTarget act instr.operand).isSome = true) ∧
    (instr.op = .popCatchFrame → c.catchFrames ≠ [])

variable {env : Env} {run : Runner} {act : Activation} {p d : Nat}

/-- The instructions of flat code are boundaries. -/
theorem boundary_of_mem_heads {entryPoint : Nat} {flat : List (Flat Op)} (tidy : Tidy flat)
    (tabled : ∀ f ∈ flat, Code.FlatAll Op.Tabled f) (laid : Laid act flat p)
    (before : Boundary act.program.code entryPoint p) :
    ∀ head ∈ heads flat p d, Boundary act.program.code entryPoint head.position := by
  induction tidy generalizing p d with
  | nil => exact List.forall_mem_nil _
  | @op i flat _ ih =>
      obtain ⟨own, tabled⟩ := List.forall_mem_cons.mp tabled
      have behind := before.behind laid.get
      change Boundary _ _ (p + 1 + i.instr.tableLength) at behind
      rw [own.2] at behind
      obtain ⟨-, laid⟩ := laid.tail.append
      rw [List.length_map, List.length_range] at laid
      rw [Code.heads_op_append, List.forall_mem_cons]
      exact ⟨before, ih (List.forall_mem_append.mp tabled).2 laid behind⟩
  | @control f flat control _ ih =>
      have behind := before.behind laid.get
      have onward := @ih (p + 1) (f.depth d) (List.forall_mem_cons.mp tabled).2 laid.tail
      cases f with
      | op i => cases control
      | data i k => cases control
      | _ => exact List.forall_mem_cons.mpr ⟨before, onward behind⟩

theorem get_of_laid {flat : List (Flat Op)} (laid : Laid act flat p) {k : Nat} {f : Flat Op}
    (found : flat[k]? = some f) : act.program.code[p + k]? = some (assemble f) := by
  obtain ⟨rest, whole⟩ := laid
  obtain ⟨inside, -⟩ := List.getElem?_eq_some_iff.mp found
  rw [← List.getElem?_drop, ← whole, List.getElem?_append_left (by rwa [List.length_map]),
    List.getElem?_map, found]
  rfl

theorem resumes_of_backed {S : Nat → Nat → Prop} {frames : List CatchFrame}
    (backed : (host env run act).Backed S frames) : ∀ frame ∈ frames, ∃ d, S frame.resumeIp d := by
  induction backed with
  | nil => exact List.forall_mem_nil _
  | cons entered place _ ih => exact List.forall_mem_cons.mpr ⟨⟨_, place⟩, ih⟩

section

variable {f : LoweredFunction} {entryPoint : Nat} {s : State} {c : Config}
  (short : act.program.code.length < 2 ^ 31)
  (stands : layout openTargets f.code entryPoint <+: act.program.code.drop entryPoint)
  (closed : f.Closed) (emitted : f.body.All Op.IsEmitted)

include short stands emitted in
theorem within_function
    (place : Host.Within (f.code.flatten openTargets entryPoint) entryPoint p d) :
    Boundary act.program.code entryPoint p ∧ p < entryPoint + f.code.size := by
  obtain ⟨head, mem, rfl, -⟩ := place
  have all := LoweredFunction.tabled short stands emitted
  obtain ⟨k, position, found⟩ := get_of_mem_heads mem
  obtain ⟨inside, -⟩ := List.getElem?_eq_some_iff.mp found
  rw [Code.length_flatten] at inside
  refine ⟨boundary_of_mem_heads (Code.tidy_flatten _ _ _)
    (fun _ mem => Code.flatAll_of_mem all mem) stands .entry head mem, ?_⟩
  rw [position]
  exact Nat.add_lt_add_left inside _

variable (env run) in
include env run short stands closed emitted in
/-- No check of a control instruction fails. -/
theorem checked_of_within {frames : List CatchFrame}
    (place : Host.Within (f.code.flatten openTargets entryPoint) entryPoint p frames.length) :
    Checked act ⟨p, frames, s⟩ := by
  obtain ⟨head, mem, rfl, depth⟩ := place
  obtain ⟨k, position, found⟩ := get_of_mem_heads mem
  have leads := Host.leads_within (closed entryPoint)
    (returnOp_ends env run act) head mem
  have all := Code.flatAll_of_mem (LoweredFunction.tabled short stands emitted)
    (List.mem_of_getElem? found)
  have aims {target : Int}
      (aims : Code.Aims (Host.Within (f.code.flatten openTargets entryPoint) entryPoint) target
        head.depth) : (jumpTarget act (int32 target)).isSome = true := by
    have inside := (within_function short stands emitted aims.2).2
    rw [jumpTarget_int32 short aims.1
      (Nat.le_trans (Nat.le_of_lt inside) (LoweredFunction.inside stands))]
    rfl
  refine ⟨assemble head.instr, by rw [position]; exact get_of_laid stands found, ?_⟩
  obtain ⟨q, d, instr⟩ := head
  cases instr with
  | op i =>
      obtain ⟨⟨jump, jumpIfFalse, push, pop⟩, -⟩ := all
      simp [assemble, jump, jumpIfFalse, push, pop]
  | data i k => exact leads.elim
  | jump target => exact ⟨fun _ => aims leads, by simp [assemble]⟩
  | jumpIfFalse target => exact ⟨fun _ => aims leads.2, by simp [assemble]⟩
  | guard target => exact ⟨fun _ => aims leads.2, by simp [assemble]⟩
  | unguard =>
      refine ⟨by simp [assemble], fun _ => ?_⟩
      exact List.ne_nil_of_length_pos (Nat.lt_of_lt_of_le leads.1 depth)

variable (env run act) in
/-- A round of the loop that is not the last one. -/
def GoesOn (c c' : Config) : Prop :=
  step env run act c = some (.running c')

include short stands closed emitted in
/-- Every round stays in the function. -/
theorem inside_of_goesOn
    (reached : Relation.ReflTransGen (GoesOn env run act) ⟨entryPoint, [], s⟩ c) :
    (host env run act).Inside
      (Host.Within (f.code.flatten openTargets entryPoint) entryPoint) (.running c) := by
  have stays := Host.closed_within (host env run act)
    (LoweredFunction.placed short stands closed emitted) (closed entryPoint)
    (returnOp_ends env run act)
  induction reached with
  | refl => exact ⟨entryPoint, [], s, rfl, Host.within_start, .nil⟩
  | tail _ goesOn ih =>
      have next := stays.step ih
      change Host.Inside _ _ (outcomeOf (step env run act _)) at next
      rw [goesOn] at next
      exact next

end

/-- **Control never leaves a compiled function**, nor does it enter its tables: in every run from
the entry point, the instruction pointer and the places where the catch frames resume are
instructions of this function, and no check of `VM::run` on a jump or a catch frame fails. -/
theorem control_stays {budget : Nat} {program : Program} {inheritedObjectVarNames : List Str}
    {gen : CodeGen} (generated : generateState budget program inheritedObjectVarNames = .ok gen)
    (short : gen.code.length < 2 ^ 31) {i : Nat} {entry : FunctionEntry}
    (listed : gen.functions[i]? = some entry) (same : act.program.code = gen.code) {s : State}
    {c : Config} (reached : Relation.ReflTransGen (GoesOn env run act)
      ⟨entry.entryPoint, [], s⟩ c) :
    (∀ ip ∈ c.ip :: c.catchFrames.map CatchFrame.resumeIp,
      Boundary gen.code entry.entryPoint ip ∧ ip < functionEnd gen i) ∧ Checked act c := by
  obtain ⟨fs, -, compiled⟩ := generateState_compiled generated
  have functions : gen.functions = entriesFrom 0 fs := compiled.functions
  have code : gen.code = [] ++ layoutFunctions 0 fs := compiled.code
  have bound : i < fs.length := by
    rw [← length_entriesFrom 0, ← functions]
    exact (List.getElem?_eq_some_iff.mp listed).1
  obtain ⟨entryPoint, listed', stands, ends⟩ :=
    @layoutFunctions_get fs fs[i] i 0 (List.getElem?_eq_getElem bound) [] rfl
  rw [functions, listed'] at listed
  cases listed
  have stop : functionEnd gen i = entryPoint + fs[i].code.size := by
    rw [functionEnd, functions, code, List.nil_append, length_layoutFunctions, ← ends,
      Nat.zero_add]
  rw [← code, ← same] at stands
  rw [← same] at short ⊢
  have closed := compiled.closed _ (List.getElem_mem bound)
  have emitted := compiled.emitted _ (List.getElem_mem bound)
  rw [stop]
  obtain ⟨p, frames, s', rfl, place, backed⟩ :=
    inside_of_goesOn short stands closed emitted reached
  refine ⟨List.forall_mem_cons.mpr ⟨within_function short stands emitted place, ?_⟩,
    checked_of_within env run short stands closed emitted place⟩
  intro ip mem
  obtain ⟨frame, inFrames, rfl⟩ := List.mem_map.mp mem
  obtain ⟨d, place⟩ := resumes_of_backed backed frame inFrames
  exact within_function short stands emitted place

/-- A loop with a `break` out of a `catch`. -/
def escape : Program where
  functions := [⟨str "escape", [⟨str "int", str "n"⟩], false,
    some [.whileStmt (.varRefExpr (str "n"))
        [.exprStmt (.catchExpr (.timeExpressionExpr [.breakStmt]))],
      .returnStmt (some (.varRefExpr (str "n")))]⟩]
  objectVars := []
  inherits := []
  classes := []

theorem control_stays_escape : ∃ gen entry, generateState 3 escape [] = .ok gen ∧
    gen.functions[0]? = some entry ∧ ∀ (env : Env) (run : Runner) (act : Activation),
      act.program.code = gen.code → ∀ (s : State) (c : Config),
        Relation.ReflTransGen (GoesOn env run act) ⟨entry.entryPoint, [], s⟩ c →
          (∀ ip ∈ c.ip :: c.catchFrames.map CatchFrame.resumeIp,
            Boundary gen.code entry.entryPoint ip ∧ ip < functionEnd gen 0) ∧ Checked act c := by
  have size : (generateState 3 escape []).toOption.map
      (fun gen => (gen.code.length, gen.functions.length)) = some (13, 1) := by
    decide +kernel
  cases generated : generateState 3 escape [] with
  | error error =>
      rw [generated] at size
      cases size
  | ok gen =>
      rw [generated] at size
      obtain ⟨length, one⟩ := Prod.mk.inj (Option.some.inj size)
      have listed := List.getElem?_eq_getElem (show 0 < gen.functions.length by rw [one]; decide)
      refine ⟨gen, _, rfl, listed, ?_⟩
      intro env run act same s c reached
      exact control_stays generated (by rw [length]; decide) listed same reached

end Kjdmud.Compiler
