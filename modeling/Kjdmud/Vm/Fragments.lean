import Kjdmud.Lib.Regions
import Kjdmud.Vm.Run

/-!
# Fragments of code

A fragment of the code of a program is executed up to where the instruction pointer leaves it.
The cost of the instructions is left out: `step` charges it first, and ends the activation when
it is spent.
-/

namespace Kjdmud.Vm

open Regions (Crosses)

/-- What code runs on. -/
structure Machine where
  env : Env
  run : Runner
  act : Activation

namespace Machine

variable (m : Machine)

/-- The next configuration of the activation, when it goes on. -/
def advance (c : Config) : Option Config :=
  match m.act.program.code[c.ip]? with
  | none => none
  | some instr =>
      match dispatch m.env m.run m.act c instr c.state with
      | some (.running c') => some c'
      | _ => none

/-- The code stands at a position of the program. -/
def Placed (code : List Instruction) (p : Nat) : Prop :=
  code <+: m.act.program.code.drop p

variable {m} {code first second : List Instruction} {instr : Instruction} {p : Nat}

theorem Placed.get (placed : m.Placed (instr :: code) p) :
    m.act.program.code[p]? = some instr := by
  obtain ⟨rest, whole⟩ := placed
  have front := congrArg List.head? whole
  rw [List.head?_drop] at front
  exact front.symm

theorem Placed.left (placed : m.Placed (first ++ second) p) : m.Placed first p :=
  (List.prefix_append first second).trans placed

theorem Placed.right (placed : m.Placed (first ++ second) p) :
    m.Placed second (p + first.length) := by
  obtain ⟨rest, whole⟩ := placed
  refine ⟨rest, ?_⟩
  rw [← List.drop_drop, ← whole, List.append_assoc, List.drop_left]

theorem Placed.tail (placed : m.Placed (instr :: code) p) : m.Placed code (p + 1) := by
  rw [← List.singleton_append] at placed
  exact placed.right

theorem Placed.length_le (placed : m.Placed code p) (some_ : code ≠ []) :
    p + code.length ≤ m.act.program.code.length := by
  have shorter := List.IsPrefix.length_le placed
  have positive := List.length_pos_iff.mpr some_
  rw [List.length_drop] at shorter
  omega

/-- The instruction pointer is in a range. -/
def Within (lo hi : Nat) (c : Config) : Prop :=
  lo ≤ c.ip ∧ c.ip < hi

variable (m) in
/-- The code at a position is left behind its end, with another state. -/
def Passes (code : List Instruction) (p : Nat) (s s' : State) : Prop :=
  ∀ frames, Crosses m.advance (Within p (p + code.length)) ⟨p, frames, s⟩
    ⟨p + code.length, frames, s'⟩

variable {s s' s'' : State} {frames : List CatchFrame} {lo hi : Nat} {d : Config}

/-- Code in a fragment is passed on the way through the fragment. -/
theorem Passes.then (passes : m.Passes code p s s') (lower : lo ≤ p)
    (upper : p + code.length ≤ hi)
    (rest : Crosses m.advance (Within lo hi) ⟨p + code.length, frames, s'⟩ d) :
    Crosses m.advance (Within lo hi) ⟨p, frames, s⟩ d :=
  Crosses.nested (fun _ within => ⟨lower.trans within.1, within.2.trans_le upper⟩)
    (passes frames) rest

theorem Passes.append (front : m.Passes first p s s')
    (back : m.Passes second (p + first.length) s' s'') :
    m.Passes (first ++ second) p s s'' := by
  intro frames
  have length : p + (first ++ second).length = p + first.length + second.length := by
    rw [List.length_append, Nat.add_assoc]
  rw [length]
  refine front.then le_rfl (Nat.le_add_right _ _) ?_
  refine back.then (Nat.le_add_right _ _) le_rfl (.leave fun within => ?_)
  exact Nat.lt_irrefl _ within.2

/-- There is one way through. -/
theorem Passes.unique (whole : m.Passes code p s s') (other : m.Passes code p s s'') :
    s' = s'' := by
  have same := (whole []).unique (other [])
  cases same
  rfl

theorem passes_nil : m.Passes [] p s s :=
  fun _ => .leave fun within => Nat.not_lt.mpr within.1 within.2

/-- The instructions that `execute` is for. -/
def Plain (instr : Instruction) : Prop :=
  instr.op ≠ .jump ∧ instr.op ≠ .jumpIfFalse ∧ instr.op ≠ .pushCatchFrame ∧
    instr.op ≠ .popCatchFrame

instance : DecidablePred Plain := fun _ => inferInstanceAs (Decidable (_ ∧ _))

theorem dispatch_plain {c : Config} (plain : Plain instr) :
    dispatch m.env m.run m.act c instr s =
      (execute m.env m.run m.act c.ip instr s).map (Effect.apply m.act c) := by
  obtain ⟨jump, jumpIfFalse, push, pop⟩ := plain
  unfold dispatch
  split <;> simp_all

theorem advance_plain (placed : m.Placed (instr :: code) p) (plain : Plain instr)
    (goes : execute m.env m.run m.act p instr s = some (.next 1 s')) :
    m.advance ⟨p, frames, s⟩ = some ⟨p + 1, frames, s'⟩ := by
  unfold advance
  simp only [placed.get]
  rw [dispatch_plain plain, goes]
  rfl

/-- One instruction is passed. -/
theorem passes_plain (placed : m.Placed [instr] p) (plain : Plain instr)
    (goes : execute m.env m.run m.act p instr s = some (.next 1 s')) :
    m.Passes [instr] p s s' := by
  intro frames
  refine .once ⟨le_rfl, Nat.lt_succ_self p⟩ (advance_plain placed plain goes) fun within => ?_
  exact Nat.lt_irrefl _ within.2

/-- A conditional jump that is not taken, or is. -/
theorem advance_jumpIfFalse {target argCount : Int} {v : Value} {stack : List Value}
    (frames : List CatchFrame) (placed : m.Placed (⟨.jumpIfFalse, target, argCount⟩ :: code) p)
    (nonneg : 0 ≤ target) (inside : target.toNat ≤ m.act.program.code.length)
    (top : s.localStack = v :: stack) :
    m.advance ⟨p, frames, s⟩ =
      some ⟨if isTruthy v then p + 1 else target.toNat, frames, s.withStack stack⟩ := by
  have jumps : jumpTarget m.act target = some target.toNat :=
    if_neg (by omega)
  unfold advance
  simp only [placed.get]
  have goes : dispatch m.env m.run m.act ⟨p, frames, s⟩ ⟨.jumpIfFalse, target, argCount⟩ s =
      some (jumpIfFalse m.act ⟨p, frames, s⟩ ⟨.jumpIfFalse, target, argCount⟩ s) := rfl
  rw [goes, jumpIfFalse, top]
  dsimp only
  cases isTruthy v with
  | true => rfl
  | false =>
      simp only [jumps]
      rfl

end Machine

end Kjdmud.Vm
