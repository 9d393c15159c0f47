/-!
# Computations with state and errors

Inversion rules for `StateT σ (Except ε)` and for `Except ε`: a run that succeeds is cut at each
bind into runs that succeed.
-/

namespace Kjdmud.StateExcept

universe u

variable {σ ε α β : Type u}

/-- A run of a sequence succeeds when its two parts do. -/
theorem bind_eq_ok {m : StateT σ (Except ε) α} {k : α → StateT σ (Except ε) β}
    {s s'' : σ} {b : β} :
    (m >>= k) s = .ok (b, s'') ↔
      ∃ a s', m s = .ok (a, s') ∧ k a s' = .ok (b, s'') := by
  constructor
  · intro run
    cases first : m s with
    | error e => simp [bind, StateT.bind, Except.bind, first] at run
    | ok result =>
        obtain ⟨a, s'⟩ := result
        exact ⟨a, s', rfl, by simpa [bind, StateT.bind, Except.bind, first] using run⟩
  · rintro ⟨a, s', first, second⟩
    simp [bind, StateT.bind, Except.bind, first, second]

/-- A sequence without a state succeeds when its two parts do. -/
theorem except_bind_eq_ok {m : Except ε α} {k : α → Except ε β} {b : β} :
    (m >>= k) = .ok b ↔ ∃ a, m = .ok a ∧ k a = .ok b := by
  constructor
  · intro run
    cases first : m with
    | error e => simp [bind, Except.bind, first] at run
    | ok a => exact ⟨a, rfl, by simpa [bind, Except.bind, first] using run⟩
  · rintro ⟨a, rfl, second⟩
    exact second

/-- A run of a mapped computation. -/
theorem map_eq_ok {m : StateT σ (Except ε) α} {f : α → β} {s s' : σ} {b : β} :
    (f <$> m) s = .ok (b, s') ↔ ∃ a, m s = .ok (a, s') ∧ f a = b := by
  constructor
  · intro run
    cases first : m s with
    | error e => simp [Functor.map, StateT.map, bind, Except.bind, first] at run
    | ok result =>
        obtain ⟨a, s₁⟩ := result
        simp [Functor.map, StateT.map, bind, Except.bind, pure, Except.pure, first]
          at run
        exact ⟨a, by rw [run.2], run.1⟩
  · rintro ⟨a, first, rfl⟩
    simp [Functor.map, StateT.map, bind, Except.bind, pure, Except.pure, first]

/-- A run of a computation that only answers. -/
theorem pure_eq_ok {a b : α} {s s' : σ} :
    (pure a : StateT σ (Except ε) α) s = .ok (b, s') ↔ a = b ∧ s = s' := by
  constructor
  · intro run
    cases run
    exact ⟨rfl, rfl⟩
  · rintro ⟨rfl, rfl⟩
    rfl

/-- A computation that throws has no successful run. -/
theorem throw_ne_ok {e : ε} {s : σ} {b : α × σ} :
    (throw e : StateT σ (Except ε) α) s ≠ .ok b := by
  intro run
  cases run

end Kjdmud.StateExcept
