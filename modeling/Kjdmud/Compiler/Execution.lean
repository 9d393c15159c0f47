import Kjdmud.Compiler.Refinement
import Kjdmud.Lib.Structured.Control
import Kjdmud.Vm.Spreads
import Kjdmud.Vm.Standalone

/-!
# Executing compiled code

What the instructions of `VM::run` mean for structured code, and that the dispatch loop carries
out its layout.  Every instruction is charged for, those that the structured code does not show
as well.
-/

namespace Kjdmud.Compiler

open Kjdmud.Vm Kjdmud.Structured

/-! ## The meaning of the instructions -/

/-- What the catch handlers of `VM::run` resume from. -/
inductive Throwable
  | thrown (v : Value)
  | runtime (message : Str)

def Throwable.toError : Throwable → LpcError
  | .thrown v => .thrown v
  | .runtime message => .runtime message

/-- The value of a `catch` that has caught it. -/
def Throwable.value : Throwable → Value
  | .thrown v => v
  | .runtime message => Value.string message

/-- How an activation ends; `none` if a call in it does not. -/
abbrev Ending :=
  Option (Outcome × World)

/-- The charge for one instruction. -/
def charge (s : State) : Except Ending State :=
  let w := { s.world with evalCost := s.world.evalCost + 1 }
  if w.maxEvalCost < w.evalCost then
    .error (some (.error (.evalCost (str "eval cost exceeded")), w))
  else .ok { s with world := w }

/-- An instruction that is charged for. -/
def charged {α : Type} (s : State) (k : State → Did State Throwable Ending α) :
    Did State Throwable Ending α :=
  match charge s with
  | .ok s => k s
  | .error r => .stop r

/-- An error in an instruction. -/
def raised {α : Type} (error : LpcError) (s : State) : Did State Throwable Ending α :=
  match error with
  | .thrown v => .raise (.thrown v) s
  | .runtime message => .raise (.runtime message) s
  | .evalCost _ | .notImplemented _ => .stop (some (.error error, s.world))

/-- What an instruction has done. -/
def did : Option Effect → Did State Throwable Ending State
  | none => .stop none
  | some (.next _ s) => .next s
  | some (.raise fault s) => raised fault.toError s
  | some (.return v s) => .stop (some (.ok v, s.world))

variable (env : Env) (run : Runner) (act : Activation)

/-- The meaning of compiled code in an activation. -/
def meaning : Meaning Op State Throwable Ending where
  op i s := charged s fun s =>
    did (execute env run (act.withCode (i.instr :: i.table)) 0 i.instr s)
  test s := charged s fun s =>
    match s.localStack with
    | [] => .raise (.runtime (str "JumpIfFalse: stack underflow")) s
    | cond :: stack => .next (isTruthy cond, s.withStack stack)
  pay := charge
  passed s := s.push (Value.int 0)
  caught entered e s :=
    s.withStack (e.value :: resize entered.localStack.length s.localStack)
  uncaught e s :=
    match e with
    | .thrown v => some (.error (.thrown v), s.world)
    | .runtime message =>
        some (.error (.runtime (s.world.filename act.obj ++ str "::" ++ act.fn.name ++
          str "(): " ++ message)), s.world)

/-! ## The dispatch loop -/

/-- Where a round of the loop leads. -/
def outcomeOf : Option Vm.Next → Structured.Next Config Ending
  | none => .done none
  | some (.running c) => .running c
  | some (.done outcome w) => .done (some (outcome, w))

/-- `VM::run`. -/
def host : Host (meaning env run act) Config CatchFrame where
  config := Config.mk
  step c := outcomeOf (step env run act c)
  frame target s := ⟨target, s.localStack.length⟩
  trap frames e s := outcomeOf (some (trap act frames e.toError s))
  trap_nil e s := by cases e <;> rfl
  trap_cons target entered frames e s := by cases e <;> rfl

variable {env run act} {p : Nat} {instr : Instruction} {frames : List CatchFrame} {s : State}

/-- A round of the loop at an instruction. -/
theorem step_host (found : act.program.code[p]? = some instr) :
    (host env run act).step ((host env run act).config p frames s) =
      match charge s with
      | .error r => .done r
      | .ok s' => outcomeOf (dispatch env run act ⟨p, frames, s⟩ instr s') := by
  change outcomeOf (step env run act ⟨p, frames, s⟩) = _
  rw [step, charge]
  simp only [found]
  split
  · rfl
  · rfl

/-- An instruction that is charged for and then dispatched. -/
theorem step_charged {α : Type} {k : State → Did State Throwable Ending α}
    {onward : α → Structured.Next Config Ending} {frames' : List CatchFrame}
    (found : act.program.code[p]? = some instr)
    (dispatched : ∀ s', outcomeOf (dispatch env run act ⟨p, frames, s⟩ instr s') =
      (host env run act).handle frames' (k s') onward) :
    (host env run act).step ((host env run act).config p frames s) =
      (host env run act).handle frames' (charged s k) onward := by
  rw [step_host found, charged]
  cases charge s with
  | error r => rfl
  | ok s' => exact dispatched s'

/-- An operation with the table that it reads. -/
def Op.Tabled (i : Op) : Prop :=
  Machine.Plain i.instr ∧ i.instr.tableLength = i.table.length

theorem does_op {i : Op} (tabled : i.Tabled)
    (placed : i.instr :: i.table <+: act.program.code.drop p) :
    (host env run act).Does (.op i) p := by
  intro frames s
  have found : act.program.code[p]? = some i.instr := by
    obtain ⟨rest, whole⟩ := placed
    rw [← Nat.add_zero p, ← List.getElem?_drop, ← whole]
    rfl
  refine step_charged found fun s' => ?_
  have plain : dispatch env run act ⟨p, frames, s⟩ i.instr s' =
      (execute env run act p i.instr s').map (Effect.apply act ⟨p, frames, s⟩) :=
    Machine.dispatch_plain (m := ⟨env, run, act⟩) tabled.1
  rw [plain, execute_withCode placed tabled.2]
  cases effect : execute env run act p i.instr s' with
  | none => rfl
  | some effect' =>
      cases effect' with
      | next words s'' =>
          have length := StepsBy.execute env run act p i.instr s' words s'' effect
          have behind : p + words = p + 1 + i.table.length := by
            rw [length, tabled.2, Nat.add_assoc]
          change outcomeOf (some (.running ⟨p + words, frames, s''⟩)) =
            .running ⟨p + 1 + i.table.length, frames, s''⟩
          rw [behind]
          rfl
      | raise fault s'' =>
          rw [Option.map_some, Effect.apply, did]
          cases fault.toError with
          | runtime message => rfl
          | thrown v => rfl
          | evalCost message => cases frames <;> rfl
          | notImplemented message => cases frames <;> rfl
      | «return» v s'' => rfl

/-- A target of a jump. -/
theorem jumpTarget_natCast (short : act.program.code.length < 2 ^ 31) {target : Nat}
    (inside : target ≤ act.program.code.length) :
    jumpTarget act (int32 target) = some target := by
  rw [int32_natCast (by omega), jumpTarget, if_neg (by omega), Int.toNat_natCast]

variable (short : act.program.code.length < 2 ^ 31) {target : Int} (nonneg : 0 ≤ target)
  (inside : target.toNat ≤ act.program.code.length)

include short nonneg inside in
theorem jumpTarget_int32 : jumpTarget act (int32 target) = some target.toNat := by
  obtain ⟨n, rfl⟩ := Int.eq_ofNat_of_zero_le nonneg
  exact jumpTarget_natCast short inside

theorem paid_eq (f : State → State) (s : State) :
    (meaning env run act).paid f s = charged s fun s => .next (f s) := by
  have pays : (meaning env run act).pay s = charge s := rfl
  rw [Meaning.paid, charged, pays]
  cases charge s <;> rfl

include short nonneg inside in
theorem does_jump (found : act.program.code[p]? = some (assemble (.jump target))) :
    (host env run act).Does (.jump target) p := by
  intro frames s
  rw [Meaning.jump, paid_eq]
  refine step_charged found fun s' => ?_
  change outcomeOf (some (jump act ⟨p, frames, s⟩ ⟨.jump, int32 target, 0⟩ s')) = _
  rw [jump]
  dsimp only
  rw [jumpTarget_int32 short nonneg inside]
  rfl

include short nonneg inside in
theorem does_jumpIfFalse (found : act.program.code[p]? = some (assemble (.jumpIfFalse target))) :
    (host env run act).Does (.jumpIfFalse target) p := by
  intro frames s
  refine step_charged found fun s' => ?_
  change outcomeOf (some (jumpIfFalse act ⟨p, frames, s⟩ ⟨.jumpIfFalse, int32 target, 0⟩ s')) = _
  rw [jumpIfFalse]
  cases stack : s'.localStack with
  | nil => rfl
  | cons cond stack =>
      dsimp only
      rw [jumpTarget_int32 short nonneg inside]
      cases truth : isTruthy cond with
      | true => rfl
      | false => rfl

include short nonneg inside in
theorem does_guard (found : act.program.code[p]? = some (assemble (.guard target))) :
    (host env run act).Does (.guard target) p := by
  intro frames s
  rw [Meaning.jump, paid_eq]
  refine step_charged found fun s' => ?_
  change outcomeOf (some (pushCatchFrame act ⟨p, frames, s⟩ ⟨.pushCatchFrame, int32 target, 0⟩
    s')) = _
  rw [pushCatchFrame]
  dsimp only
  rw [jumpTarget_int32 short nonneg inside]
  rfl

theorem does_unguard (found : act.program.code[p]? = some (assemble .unguard)) :
    (host env run act).Does .unguard p := by
  intro f frames s
  rw [paid_eq]
  exact step_charged found fun s' => rfl

/-! ## Layouts -/

/-- The bytecode of flat code stands at a position. -/
def Laid (act : Activation) (flat : List (Flat Op)) (p : Nat) : Prop :=
  flat.map assemble <+: act.program.code.drop p

theorem Laid.append {first second : List (Flat Op)} (laid : Laid act (first ++ second) p) :
    Laid act first p ∧ Laid act second (p + first.length) := by
  rw [Laid, List.map_append] at laid
  refine ⟨(List.prefix_append _ _).trans laid, ?_⟩
  obtain ⟨rest, whole⟩ := laid
  refine ⟨rest, ?_⟩
  rw [← List.drop_drop, ← whole, List.append_assoc, List.drop_left' (List.length_map assemble)]

theorem Laid.get {f : Flat Op} {flat : List (Flat Op)} (laid : Laid act (f :: flat) p) :
    act.program.code[p]? = some (assemble f) := by
  obtain ⟨rest, whole⟩ := laid
  rw [← Nat.add_zero p, ← List.getElem?_drop, ← whole]
  rfl

theorem Laid.tail {f : Flat Op} {flat : List (Flat Op)} (laid : Laid act (f :: flat) p) :
    Laid act flat (p + 1) := by
  have two : Laid act ([f] ++ flat) p := laid
  exact two.append.2

/-- The targets of jumps out of some code are positions of the program. -/
def Reachable (act : Activation) (t : Targets) (holes : List (Hole × Nat)) : Prop :=
  ∀ hole pos, (hole, pos) ∈ holes → 0 ≤ t hole ∧ (t hole).toNat ≤ act.program.code.length

theorem placed_data (i : Op) (words : List Nat) (p : Nat) :
    (host env run act).Placed (words.map (.data i)) p := by
  induction words generalizing p with
  | nil => exact trivial
  | cons k words ih => exact ⟨trivial, ih (p + 1)⟩

include short in
/-- The dispatch loop carries out code whose jumps lead to positions of the program. -/
theorem placed_of_leads {flat : List (Flat Op)} (tidy : Tidy flat)
    (tabled : ∀ f ∈ flat, Code.FlatAll Op.Tabled f) (laid : Laid act flat p) {d : Nat}
    (leads : ∀ head ∈ heads flat p d,
      Code.Leads (fun q _ => q ≤ act.program.code.length) (meaning env run act) head) :
    (host env run act).Placed flat p := by
  induction tidy generalizing p d with
  | nil => exact trivial
  | @op i flat _ ih =>
      have placed : Laid act (Code.flatten openTargets (.op i) p ++ flat) p := laid
      obtain ⟨own, tabled⟩ := List.forall_mem_cons.mp tabled
      obtain ⟨-, behind⟩ := laid.tail.append
      rw [Code.heads_op_append, List.forall_mem_cons] at leads
      constructor
      · apply does_op own
        rw [← layout_op openTargets i p]
        exact placed.append.1
      · rw [Host.placed_append]
        rw [List.length_map, List.length_range] at behind ⊢
        exact ⟨placed_data i _ _, ih (List.forall_mem_append.mp tabled).2 behind leads.2⟩
  | @control f flat control _ ih =>
      have onward := @ih (p + 1) (List.forall_mem_cons.mp tabled).2 laid.tail (f.depth d)
      cases f with
      | op i => cases control
      | data i k => cases control
      | jump target =>
          obtain ⟨⟨nonneg, below⟩, leads⟩ := List.forall_mem_cons.mp leads
          exact ⟨does_jump short nonneg below laid.get, onward leads⟩
      | jumpIfFalse target =>
          obtain ⟨⟨-, nonneg, below⟩, leads⟩ := List.forall_mem_cons.mp leads
          exact ⟨does_jumpIfFalse short nonneg below laid.get, onward leads⟩
      | guard target =>
          obtain ⟨⟨-, nonneg, below⟩, leads⟩ := List.forall_mem_cons.mp leads
          exact ⟨does_guard short nonneg below laid.get, onward leads⟩
      | unguard =>
          obtain ⟨-, leads⟩ := List.forall_mem_cons.mp leads
          exact ⟨does_unguard laid.get, onward leads⟩

include short in
/-- The dispatch loop carries out the layout of structured code. -/
theorem placed_layout (c : Code Op) (tabled : c.All Op.Tabled) {t : Targets} {pc : Nat}
    (laid : Laid act (c.flatten t pc) pc) (inside : pc + c.size ≤ act.program.code.length)
    (reachable : Reachable act t (c.holes pc)) :
    (host env run act).Placed (c.flatten t pc) pc := by
  have visits : ∀ head ∈ heads (c.flatten t pc) pc 0,
      head.position ≤ act.program.code.length := by
    intro head mem
    obtain ⟨k, position, found⟩ := get_of_mem_heads mem
    obtain ⟨within, -⟩ := List.getElem?_eq_some_iff.mp found
    rw [Code.length_flatten] at within
    omega
  exact placed_of_leads short (Code.tidy_flatten t c pc)
    (fun _ mem => Code.flatAll_of_mem tabled mem) laid
    (Code.leads (fun place _ => place) visits inside fun hole mem => reachable _ _ mem)

end Kjdmud.Compiler
