import Mathlib.Data.List.Basic

/-!
# Runs

Operations that are executed one after another, and runs whose every operation meets a condition
in the state in which it is executed.
-/

namespace Kjdmud.Lib.Runs

universe u v w

variable {σ : Type u} {ω : Type v} {goes : σ → ω → σ → Prop} {meets : σ → ω → Prop}
  {source middle target : σ} {op : ω} {ops : List ω}

/-- `target` is reached from `source` by executing `ops`. -/
inductive Run (goes : σ → ω → σ → Prop) : σ → List ω → σ → Prop
  | nil (s : σ) : Run goes s [] s
  | snoc {source middle target : σ} {ops : List ω} {op : ω}
      (run : Run goes source ops middle) (step : goes middle op target) :
      Run goes source (ops ++ [op]) target

/-- A run whose operations are all clear. -/
inductive ClearRun (goes : σ → ω → σ → Prop) (meets : σ → ω → Prop) : σ → List ω → σ → Prop
  | nil (s : σ) : ClearRun goes meets s [] s
  | snoc {source middle target : σ} {ops : List ω} {op : ω}
      (run : ClearRun goes meets source ops middle) (clear : meets middle op)
      (step : goes middle op target) : ClearRun goes meets source (ops ++ [op]) target

/-- A step in front of a run. -/
theorem Run.cons (step : goes source op middle) (run : Run goes middle ops target) :
    Run goes source (op :: ops) target := by
  induction run with
  | nil => exact .snoc (.nil source) step
  | snoc _ last ih => exact .snoc ih last

/-- A step in front of a clear run. -/
theorem ClearRun.cons (first : meets source op) (step : goes source op middle)
    (run : ClearRun goes meets middle ops target) :
    ClearRun goes meets source (op :: ops) target := by
  induction run with
  | nil => exact .snoc (.nil source) first step
  | snoc _ clear last ih => exact .snoc ih clear last

/-- A clear run is a run. -/
theorem ClearRun.run (clearRun : ClearRun goes meets source ops target) :
    Run goes source ops target := by
  induction clearRun with
  | nil => exact .nil _
  | snoc _ _ step ih => exact .snoc ih step

/-- What a step keeps, a run keeps. -/
theorem Run.keeps {p : σ → Prop} (step : ∀ {s op t}, p s → goes s op t → p t)
    (run : Run goes source ops target) (start : p source) : p target := by
  induction run with
  | nil => exact start
  | snoc _ last ih => exact step ih last

/-- What a clear step keeps, a clear run keeps. -/
theorem ClearRun.keeps {p : σ → Prop}
    (step : ∀ {s op t}, p s → meets s op → goes s op t → p t)
    (run : ClearRun goes meets source ops target) (start : p source) : p target := by
  induction run with
  | nil => exact start
  | snoc _ cleared last ih => exact step ih cleared last

/-! ## Operations with answers -/

section Answers

variable {ρ : Type w} {run : σ → ω → Option (σ × ρ)}

/-- The state after some operations, if they can happen. -/
def after (run : σ → ω → Option (σ × ρ)) (s : σ) : List ω → Option σ
  | [] => some s
  | op :: ops => (run s op).bind fun result => after run result.1 ops

/-- Every operation meets its condition in the state it finds. -/
def Clears (run : σ → ω → Option (σ × ρ)) (meets : σ → ω → Prop) (s : σ) : List ω → Prop
  | [] => True
  | op :: ops => meets s op ∧ ∀ result, run s op = some result → Clears run meets result.1 ops

/-- What a clear operation keeps, clear operations keep. -/
theorem after_keeps {p : σ → Prop}
    (step : ∀ {s op result}, p s → meets s op → run s op = some result → p result.1)
    (start : p source) (clears : Clears run meets source ops)
    (reached : after run source ops = some target) : p target := by
  induction ops generalizing source with
  | nil =>
      cases reached
      exact start
  | cons op ops ih =>
      obtain ⟨result, done, later⟩ := Option.bind_eq_some_iff.mp reached
      exact ih (step start clears.1 done) (clears.2 result done) later

end Answers

end Kjdmud.Lib.Runs
