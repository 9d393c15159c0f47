import Mathlib.Order.Nat

/-!
# Computations bounded by fuel

A loop or recursion without an evident measure is written as a function of a
fuel budget that answers `none` when the budget is too small.  This file gives
the vocabulary for such functions: a computation *converges* to a value when
every large enough budget yields that value and none yields another, and
*diverges* when no budget yields any.  The rules below compose both along
`bind` and along the unfolding of one recursion step, so proofs never mention
concrete budgets.
-/

namespace Kjdmud.Fuel

universe u v

variable {α : Type u} {β : Type v}

/-- Every large enough budget computes `a`, and no budget computes anything
else. -/
structure Converges (f : Nat → Option α) (a : α) : Prop where
  eventually : ∃ enough, ∀ fuel, enough ≤ fuel → f fuel = some a
  only : ∀ fuel b, f fuel = some b → b = a

/-- No budget computes anything. -/
def Diverges (f : Nat → Option α) : Prop :=
  ∀ fuel, f fuel = none

/-- A computation that does not read its budget converges to its value. -/
theorem Converges.const (a : α) : Converges (fun _ => some a) a :=
  ⟨⟨0, fun _ _ => rfl⟩, fun _ _ equal => (Option.some.inj equal).symm⟩

/-- Only one value can be converged to. -/
theorem Converges.unique {f : Nat → Option α} {a b : α}
    (first : Converges f a) (second : Converges f b) : a = b := by
  rcases first.eventually with ⟨enough, value⟩
  exact second.only enough a (value enough le_rfl)

/-- A convergent computation does not diverge. -/
theorem Converges.not_diverges {f : Nat → Option α} {a : α}
    (converges : Converges f a) : ¬ Diverges f := by
  intro diverges
  rcases converges.eventually with ⟨n, value⟩
  have impossible := value n le_rfl
  rw [diverges n] at impossible
  contradiction

/-- One recursion step spends one unit of fuel. -/
theorem Converges.step {f : Nat → Option α} {a : α} (zero : f 0 = none)
    (converges : Converges (fun fuel => f (fuel + 1)) a) : Converges f a := by
  constructor
  · rcases converges.eventually with ⟨n, value⟩
    refine ⟨n + 1, fun fuel large => ?_⟩
    cases fuel with
    | zero => omega
    | succ fuel => exact value fuel (by omega)
  · intro fuel b computed
    cases fuel with
    | zero =>
        rw [zero] at computed
        contradiction
    | succ fuel => exact converges.only fuel b computed

/-- Pointwise equal computations converge to the same value. -/
theorem Converges.congr {f g : Nat → Option α} {a : α}
    (converges : Converges f a) (equal : ∀ fuel, g fuel = f fuel) :
    Converges g a := by
  have same : g = f := funext equal
  exact same ▸ converges

/-- The value of a computation may be mapped. -/
theorem Converges.map {f : Nat → Option α} {a : α} (converges : Converges f a) (g : α → β) :
    Converges (fun fuel => (f fuel).map g) (g a) := by
  constructor
  · rcases converges.eventually with ⟨n, value⟩
    exact ⟨n, fun fuel large => congrArg (Option.map g) (value fuel large)⟩
  · intro fuel b computed
    rcases Option.map_eq_some_iff.mp computed with ⟨a', value, rfl⟩
    rw [converges.only fuel a' value]

/-- A mapped computation diverges with the computation. -/
theorem Diverges.map {f : Nat → Option α} (diverges : Diverges f) (g : α → β) :
    Diverges (fun fuel => (f fuel).map g) :=
  fun fuel => congrArg (Option.map g) (diverges fuel)

/-- Sequencing: the budget of a sequence is passed to both parts. -/
theorem Converges.bind {f : Nat → Option α} {g : Nat → α → Option β} {a : α} {b : β}
    (first : Converges f a) (second : Converges (fun fuel => g fuel a) b) :
    Converges (fun fuel => (f fuel).bind (g fuel)) b := by
  constructor
  · rcases first.eventually with ⟨m, firstValue⟩
    rcases second.eventually with ⟨n, secondValue⟩
    refine ⟨max m n, fun fuel large => ?_⟩
    have enough := Nat.max_le.mp large
    change (f fuel).bind (g fuel) = some b
    rw [firstValue fuel enough.1]
    exact secondValue fuel enough.2
  · intro fuel c computed
    rcases Option.bind_eq_some_iff.mp computed with ⟨a', firstValue, secondValue⟩
    have same := first.only fuel a' firstValue
    subst same
    exact second.only fuel c secondValue

/-- A fold converges when each of its steps does. -/
theorem exists_converges_foldlM {ι : Type v} {f : Nat → α → ι → Option α} {items : List ι}
    (each : ∀ x ∈ items, ∀ a, ∃ b, Converges (fun fuel => f fuel a x) b) (a : α) :
    ∃ b, Converges (fun fuel => items.foldlM (f fuel) a) b := by
  induction items generalizing a with
  | nil => exact ⟨a, .const a⟩
  | cons x items inductionHypothesis =>
      rcases each x List.mem_cons_self a with ⟨b, first⟩
      rcases inductionHypothesis (fun y member => each y (.tail _ member)) b with ⟨c, rest⟩
      exact ⟨c, (first.bind rest).congr fun fuel => List.foldlM_cons⟩

/-- What each step of a fold keeps is kept by the fold. -/
theorem foldlM_keeps {ι : Type v} {f : α → ι → Option α} {P : α → Prop} {items : List ι}
    (each : ∀ x ∈ items, ∀ a b, P a → f a x = some b → P b) {a b : α} (start : P a)
    (folded : items.foldlM f a = some b) : P b := by
  induction items generalizing a with
  | nil =>
      cases folded
      exact start
  | cons x items inductionHypothesis =>
      rw [List.foldlM_cons] at folded
      rcases Option.bind_eq_some_iff.mp folded with ⟨c, first, rest⟩
      exact inductionHypothesis (fun y member => each y (.tail _ member))
        (each x List.mem_cons_self a c start first) rest

/-- Every budget from `enough` on computes `a`, and no budget computes anything else. -/
structure Settles (enough : Nat) (f : Nat → Option α) (a : α) : Prop where
  ran : ∀ fuel, enough ≤ fuel → f fuel = some a
  only : ∀ fuel b, f fuel = some b → b = a

theorem Settles.converges {enough : Nat} {f : Nat → Option α} {a : α}
    (settles : Settles enough f a) : Converges f a :=
  ⟨⟨enough, settles.ran⟩, settles.only⟩

theorem Settles.const (enough : Nat) (a : α) : Settles enough (fun _ => some a) a :=
  ⟨fun _ _ => rfl, fun _ _ equal => (Option.some.inj equal).symm⟩

theorem Settles.mono {enough more : Nat} {f : Nat → Option α} {a : α}
    (settles : Settles enough f a) (le : enough ≤ more) : Settles more f a :=
  ⟨fun fuel large => settles.ran fuel (le.trans large), settles.only⟩

theorem Settles.congr {enough : Nat} {f g : Nat → Option α} {a : α}
    (settles : Settles enough f a) (equal : ∀ fuel, g fuel = f fuel) : Settles enough g a := by
  have same : g = f := funext equal
  exact same ▸ settles

theorem Settles.step {enough : Nat} {f : Nat → Option α} {a : α} (zero : f 0 = none)
    (settles : Settles enough (fun fuel => f (fuel + 1)) a) : Settles (enough + 1) f a := by
  constructor
  · intro fuel large
    cases fuel with
    | zero => omega
    | succ fuel => exact settles.ran fuel (Nat.le_of_succ_le_succ large)
  · intro fuel b computed
    cases fuel with
    | zero =>
        rw [zero] at computed
        contradiction
    | succ fuel => exact settles.only fuel b computed

theorem Settles.bind {enough : Nat} {f : Nat → Option α} {g : Nat → α → Option β} {a : α} {b : β}
    (first : Settles enough f a) (second : Settles enough (fun fuel => g fuel a) b) :
    Settles enough (fun fuel => (f fuel).bind (g fuel)) b := by
  constructor
  · intro fuel large
    rw [first.ran fuel large]
    exact second.ran fuel large
  · intro fuel c computed
    rcases Option.bind_eq_some_iff.mp computed with ⟨a', firstValue, secondValue⟩
    have same := first.only fuel a' firstValue
    subst same
    exact second.only fuel c secondValue

/-- A recursion step that diverges makes the recursion diverge. -/
theorem Diverges.step {f : Nat → Option α} (zero : f 0 = none)
    (diverges : Diverges fun fuel => f (fuel + 1)) : Diverges f := by
  intro fuel
  cases fuel with
  | zero => exact zero
  | succ fuel => exact diverges fuel

/-- A sequence diverges with its first part. -/
theorem Diverges.bind {f : Nat → Option α} {g : Nat → α → Option β}
    (first : Diverges f) : Diverges (fun fuel => (f fuel).bind (g fuel)) := by
  intro fuel
  change (f fuel).bind (g fuel) = none
  rw [first fuel]
  rfl

/-- A budget too small for the second part is too small for the sequence. -/
theorem Converges.bind_eq_none {f : Nat → Option α} {g : α → Option β} {a : α} {fuel : Nat}
    (first : Converges f a) (second : g a = none) : (f fuel).bind g = none := by
  cases value : f fuel with
  | none => rfl
  | some a' =>
      have same := first.only fuel a' value
      subst same
      exact second

/-- A sequence diverges with its second part. -/
theorem Diverges.bind_right {f : Nat → Option α} {g : Nat → α → Option β} {a : α}
    (first : Converges f a) (second : Diverges fun fuel => g fuel a) :
    Diverges (fun fuel => (f fuel).bind (g fuel)) :=
  fun fuel => first.bind_eq_none (second fuel)

/-- A loop all of whose iterations go on to another iteration diverges. -/
theorem Diverges.loop {ι : Type v} {f : ι → Nat → Option α} (zero : ∀ i, f i 0 = none)
    (unfold : ∀ fuel, (∀ i, f i fuel = none) → ∀ i, f i (fuel + 1) = none) (i : ι) :
    Diverges (f i) := by
  intro fuel
  induction fuel generalizing i with
  | zero => exact zero i
  | succ fuel inductionHypothesis => exact unfold fuel inductionHypothesis i

end Kjdmud.Fuel
