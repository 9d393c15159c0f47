import Mathlib.Logic.Basic

/-!
# Runs inside a region

A machine that takes one step at a time is followed inside a region of its states, up to the
first state outside.  A region inside a larger one is crossed on the way through the larger.
-/

namespace Kjdmud.Regions

universe u

variable {σ : Type u} {step : σ → Option σ} {inside inner : σ → Prop} {s t u : σ}

/-- Steps inside a region, up to the first state outside. -/
inductive Crosses (step : σ → Option σ) (inside : σ → Prop) : σ → σ → Prop
  | leave {s : σ} (outside : ¬ inside s) : Crosses step inside s s
  | step {s t u : σ} (within : inside s) (goes : step s = some t)
      (rest : Crosses step inside t u) : Crosses step inside s u

namespace Crosses

/-- There is one way through. -/
theorem unique (first : Crosses step inside s t) (second : Crosses step inside s u) : t = u := by
  induction first with
  | leave outside =>
      cases second with
      | leave => rfl
      | step within => exact absurd within outside
  | step within goes _ ih =>
      cases second with
      | leave outside => exact absurd within outside
      | step _ goes' rest =>
          rw [goes] at goes'
          cases goes'
          exact ih rest

/-- One step out of the region. -/
theorem once (within : inside s) (goes : step s = some t) (outside : ¬ inside t) :
    Crosses step inside s t :=
  .step within goes (.leave outside)

/-- A part of the region is crossed first. -/
theorem nested (part : ∀ s, inner s → inside s) (first : Crosses step inner s t)
    (rest : Crosses step inside t u) : Crosses step inside s u := by
  induction first with
  | leave => exact rest
  | step within goes _ ih => exact .step (part _ within) goes (ih rest)

/-- A part of the region is left on the way out of the region. -/
theorem part (inner : σ → Prop) (part : ∀ s, inner s → inside s)
    (whole : Crosses step inside s t) :
    ∃ u, Crosses step inner s u ∧ Crosses step inside u t := by
  induction whole with
  | leave outside => exact ⟨_, .leave fun within => outside (part _ within), .leave outside⟩
  | @step s _ _ within goes rest ih =>
      by_cases first : inner s
      · obtain ⟨u, front, back⟩ := ih
        exact ⟨u, .step first goes front, back⟩
      · exact ⟨s, .leave first, .step within goes rest⟩

end Crosses

end Kjdmud.Regions
