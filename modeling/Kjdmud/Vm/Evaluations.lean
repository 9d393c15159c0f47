import Kjdmud.Vm.Fragments

/-!
# What code computes

The code of an expression leaves the operands below it alone and pushes its own values.  What it
computes is a function of the rest of the state.
-/

namespace Kjdmud.Vm

open Regions (Crosses)

/-- The state without the operand stack. -/
structure Memory where
  locals : List Value
  pendingVarargsDelta : Int
  world : World

/-- The state with an operand stack. -/
def Memory.state (μ : Memory) (stack : List Value) : State :=
  ⟨μ.locals, stack, μ.pendingVarargsDelta, μ.world⟩

/-- What an expression computes, unless it throws or does not come to an end. -/
abbrev Evaluation (α : Type) :=
  Memory → Option (α × Memory)

/-- Code computes an evaluation, whose result is pushed as some operands. -/
structure Computes {α : Type} (m : Machine) (code : List Instruction) (p : Nat)
    (evaluation : Evaluation α) (operands : α → List Value) : Prop where
  passes {μ μ' : Memory} {a : α} (value : evaluation μ = some (a, μ')) (stack : List Value) :
    m.Passes code p (μ.state stack) (μ'.state (operands a ++ stack))
  /-- Without a result the code is not left, unless an error is caught outside. -/
  stays {μ : Memory} (noValue : evaluation μ = none) (stack : List Value) (d : Config) :
    ¬ Crosses m.advance (Machine.Within p (p + code.length)) ⟨p, [], μ.state stack⟩ d

/-- The result under another name. -/
theorem Computes.rename {α β : Type} {m : Machine} {code : List Instruction} {p : Nat}
    {evaluation : Evaluation α} {operands : α → List Value} {operands' : β → List Value}
    (computes : Computes m code p evaluation operands) (g : α → β)
    (same : ∀ a, operands' (g a) = operands a) :
    Computes m code p (fun μ => (evaluation μ).map fun found => (g found.1, found.2))
      operands' where
  passes {μ μ' b} value stack := by
    obtain ⟨⟨a, μ₁⟩, evaluates, named⟩ := Option.map_eq_some_iff.mp value
    cases named
    rw [same]
    exact computes.passes evaluates stack
  stays noValue := computes.stays (Option.map_eq_none_iff.mp noValue)

/-- Code goes on from operands of its own: it takes them away and pushes its results. -/
structure Extends {α β : Type} (m : Machine) (code : List Instruction) (p : Nat)
    (operands : α → List Value) (f : α → Evaluation β) (results : β → List Value) : Prop where
  passes {μ μ' : Memory} {a : α} {b : β} (value : f a μ = some (b, μ')) (stack : List Value) :
    m.Passes code p (μ.state (operands a ++ stack)) (μ'.state (results b ++ stack))
  stays {μ : Memory} {a : α} (noValue : f a μ = none) (stack : List Value) (d : Config) :
    ¬ Crosses m.advance (Machine.Within p (p + code.length))
      ⟨p, [], μ.state (operands a ++ stack)⟩ d

namespace Extends

variable {α β γ : Type} {m : Machine} {code code' : List Instruction} {p : Nat}
  {operands : α → List Value} {middle : β → List Value} {results : γ → List Value}
  {f : α → Evaluation β} {g : β → Evaluation γ}

/-- Code that starts without operands. -/
theorem computes {f : Unit → Evaluation β} (starts : Extends m code p (fun _ => []) f middle) :
    Computes m code p (f ()) middle :=
  ⟨starts.passes (a := ()), starts.stays (a := ())⟩

/-- One piece of code after another. -/
theorem append (first : Extends m code p operands f middle)
    (second : Extends m code' (p + code.length) middle g results) :
    Extends m (code ++ code') p operands
      (fun a μ => (f a μ).bind fun found => g found.1 found.2) results where
  passes {μ μ' a b} value stack := by
    obtain ⟨⟨found, μ₁⟩, evaluates, rest⟩ := Option.bind_eq_some_iff.mp value
    exact (first.passes evaluates stack).append (second.passes rest stack)
  stays {μ a} noValue stack d crosses := by
    have length : p + (code ++ code').length = p + code.length + code'.length := by
      rw [List.length_append, Nat.add_assoc]
    rw [length] at crosses
    obtain ⟨e, left, onward⟩ := crosses.part (Machine.Within p (p + code.length))
      fun _ within => ⟨within.1, within.2.trans_le (Nat.le_add_right _ _)⟩
    cases found : f a μ with
    | none => exact first.stays found stack e left
    | some value =>
        obtain ⟨b, μ₁⟩ := value
        cases left.unique (first.passes found stack [])
        obtain ⟨e', left', -⟩ := onward.part
          (Machine.Within (p + code.length) (p + code.length + code'.length))
          fun _ within => ⟨(Nat.le_add_right _ _).trans within.1, within.2⟩
        rw [found] at noValue
        exact second.stays noValue stack e' left'

/-- An instruction that pushes its results or throws. -/
theorem instr {instr : Instruction} (placed : m.Placed [instr] p) (plain : Machine.Plain instr)
    (goes : ∀ a b μ μ' stack, f a μ = some (b, μ') →
      execute m.env m.run m.act p instr (μ.state (operands a ++ stack)) =
        some (.next 1 (μ'.state (middle b ++ stack))))
    (throws : ∀ a μ stack, f a μ = none → ∃ fault s,
      execute m.env m.run m.act p instr (μ.state (operands a ++ stack)) =
        some (.raise fault s)) :
    Extends m [instr] p operands f middle where
  passes value stack := Machine.passes_plain placed plain (goes _ _ _ _ stack value)
  stays {μ a} noValue stack d crosses := by
    obtain ⟨fault, s, raises⟩ := throws a μ stack noValue
    have stops : m.advance ⟨p, [], μ.state (operands a ++ stack)⟩ = none := by
      unfold Machine.advance
      simp only [placed.get]
      rw [Machine.dispatch_plain plain, raises]
      cases error : fault.toError <;> simp [Effect.apply, trap, resume, error]
    cases crosses with
    | leave outside => exact outside ⟨le_rfl, Nat.lt_succ_self p⟩
    | step within goes rest =>
        rw [stops] at goes
        contradiction

end Extends

/-- Code that is run by a driver without objects and efuns. -/
def bareMachine (code : List Instruction) (stringPool : List Str) : Machine where
  env := .idle
  run := fun _ _ => none
  act := {
    program := ⟨0, code, [], stringPool, [], [], [], [], []⟩
    fn := ⟨[], 0, 0, 0, false⟩
    obj := 0
    objectVarBase := 0 }

namespace Memory

variable {m : Machine} {μ : Memory} {p slot : Nat} {stack : List Value} {v : Value}

/-- The memory with another value in a slot. -/
def store (μ : Memory) (slot : Nat) (v : Value) : Memory :=
  { μ with locals := μ.locals.set slot v }

/-- The memory with another world. -/
def withWorld (μ : Memory) (w : World) : Memory :=
  { μ with world := w }

theorem slotBelow_natCast {bound slot : Nat} (inside : slot < bound) :
    slotBelow bound (slot : Int) = some slot := by
  rw [slotBelow, if_neg (by omega), Int.toNat_natCast]

end Memory

/-! ## Some instructions -/

namespace Extends

variable {α : Type} {m : Machine} {p slot : Nat} {n : Int} {operands : α → List Value}

/-- The operands with a value on top. -/
def onTop (operands : α → List Value) (found : α × Value) : List Value :=
  found.2 :: operands found.1

theorem pushInt (placed : m.Placed [⟨.pushInt, n, 0⟩] p) :
    Extends m [⟨.pushInt, n, 0⟩] p operands
      (fun a μ => some ((a, Value.int (Int64.ofInt n)), μ)) (onTop operands) :=
  .instr placed (by simp [Machine.Plain]) (fun _ _ _ _ _ value => by cases value; rfl)
    fun _ _ _ noValue => by contradiction

/-- A slot is read, and a destructed object in it becomes 0. -/
def readSlot (slot : Nat) (a : α) : Evaluation (α × Value) := fun μ =>
  if slot < μ.locals.length then
    let v := μ.world.coerceIfDestructed ((μ.locals[slot]?).getD Value.void)
    some ((a, v), μ.store slot v)
  else none

theorem pushLocal (placed : m.Placed [⟨.pushLocal, slot, 0⟩] p) :
    Extends m [⟨.pushLocal, slot, 0⟩] p operands (readSlot slot) (onTop operands) := by
  refine .instr placed (by simp [Machine.Plain]) ?_ ?_
  · intro a b μ μ' stack value
    change Vm.pushLocal (slot : Int) _ = _
    unfold readSlot at value
    split at value
    · rename_i inside
      cases value
      simp only [Vm.pushLocal, Memory.state, Memory.slotBelow_natCast inside]
      rfl
    · contradiction
  · intro a μ stack noValue
    change ∃ fault s, Vm.pushLocal (slot : Int) _ = _
    unfold readSlot at noValue
    split at noValue
    · contradiction
    · rename_i outside
      have bad : slotBelow μ.locals.length (slot : Int) = none := by
        rw [slotBelow, if_pos (by omega)]
      simp only [Vm.pushLocal, Memory.state, bad]
      exact ⟨_, _, rfl⟩

theorem storeLocal (placed : m.Placed [⟨.storeLocal, slot, 0⟩] p) :
    Extends m [⟨.storeLocal, slot, 0⟩] p (onTop operands)
      (fun found μ => if slot < μ.locals.length then some (found.1, μ.store slot found.2) else none)
      operands := by
  refine .instr placed (by simp [Machine.Plain]) ?_ ?_
  · intro a b μ μ' stack value
    change Vm.storeLocal (slot : Int) _ = _
    split at value
    · rename_i inside
      cases value
      simp only [Vm.storeLocal, Memory.state, Memory.slotBelow_natCast inside]
      rfl
    · contradiction
  · intro a μ stack noValue
    change ∃ fault s, Vm.storeLocal (slot : Int) _ = _
    split at noValue
    · contradiction
    · rename_i outside
      have bad : slotBelow μ.locals.length (slot : Int) = none := by
        rw [slotBelow, if_pos (by omega)]
      simp only [Vm.storeLocal, Memory.state, bad]
      exact ⟨_, _, rfl⟩

theorem dup (placed : m.Placed [⟨.dup, 0, 0⟩] p) :
    Extends m [⟨.dup, 0, 0⟩] p (onTop operands) (fun found μ => some ((found, found.2), μ))
      (onTop (onTop operands)) :=
  .instr placed (by simp [Machine.Plain]) (fun _ _ _ _ _ value => by cases value; rfl)
    fun _ _ _ noValue => by contradiction

/-- An operator replaces two operands, or throws. -/
def combined (apply : Value → Value → Operator) (found : (α × Value) × Value) :
    Evaluation (α × Value) := fun μ =>
  match apply found.1.2 found.2 μ.world with
  | .ok (v, w) => some ((found.1.1, v), μ.withWorld w)
  | .error _ => none

theorem binary {instr : Instruction} {name : String} {apply : Value → Value → Operator}
    (placed : m.Placed [instr] p) (plain : Machine.Plain instr)
    (executes : execute m.env m.run m.act p instr = Vm.binary name apply) :
    Extends m [instr] p (onTop (onTop operands)) (combined apply) (onTop operands) := by
  refine .instr placed plain ?_ ?_
  · intro a b μ μ' stack value
    rw [executes]
    change pushResult (apply a.1.2 a.2 μ.world) (μ.state (operands a.1.1 ++ stack)) = _
    unfold combined at value
    split at value
    · rename_i found
      cases value
      rw [found]
      rfl
    · contradiction
  · intro a μ stack noValue
    rw [executes]
    change ∃ fault s, pushResult (apply a.1.2 a.2 μ.world) (μ.state (operands a.1.1 ++ stack)) = _
    unfold combined at noValue
    split at noValue
    · contradiction
    · rename_i found
      rw [found]
      exact ⟨_, _, rfl⟩

end Extends

end Kjdmud.Vm
