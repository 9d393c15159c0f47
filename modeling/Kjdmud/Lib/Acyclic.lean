import Mathlib.Logic.Relation
import Mathlib.Order.WellFoundedSet

/-!
# Acyclic relations

Links between objects form a relation that should never lead back to where it
started.  This file gives the rules by which changes of the links keep that:
dropping links, replacing them by paths, and adding a link whose end does not
lead to its start.  On finitely many objects an acyclic relation is well founded
in both directions, so recursions along the links terminate.
-/

namespace Kjdmud

open Relation

universe u

variable {α : Type u} {r r' : α → α → Prop}

/-- Nothing leads back to itself. -/
def Acyclic (r : α → α → Prop) : Prop :=
  ∀ a, ¬ TransGen r a a

/-- Links that stand for paths of an acyclic relation are acyclic. -/
theorem Acyclic.of_paths (acyclic : Acyclic r) (paths : ∀ a b, r' a b → TransGen r a b) :
    Acyclic r' := by
  have lifted : ∀ a b, TransGen r' a b → TransGen r a b := by
    intro a b path
    induction path with
    | single link => exact paths _ _ link
    | tail _ link ih => exact ih.trans (paths _ _ link)
  exact fun a cycle => acyclic a (lifted a a cycle)

/-- Fewer links are acyclic. -/
theorem Acyclic.mono (acyclic : Acyclic r) (fewer : ∀ a b, r' a b → r a b) : Acyclic r' :=
  acyclic.of_paths fun a b link => .single (fewer a b link)

/-- Links of the relation with one more from `start` to `finish` lead from `a` to `b`
as before, or through the new one. -/
theorem transGen_insert {start finish a b : α}
    (links : ∀ a b, r' a b → r a b ∨ (a = start ∧ b = finish))
    (apart : ¬ ReflTransGen r finish start) (path : TransGen r' a b) :
    TransGen r a b ∨ (ReflTransGen r a start ∧ ReflTransGen r finish b) := by
  induction path with
  | single link =>
      rcases links _ _ link with old | ⟨rfl, rfl⟩
      · exact .inl (.single old)
      · exact .inr ⟨.refl, .refl⟩
  | tail _ link ih =>
      rcases links _ _ link with old | ⟨rfl, rfl⟩
      · rcases ih with path | ⟨before, behind⟩
        · exact .inl (path.tail old)
        · exact .inr ⟨before, behind.tail old⟩
      · rcases ih with path | ⟨_, behind⟩
        · exact .inr ⟨path.to_reflTransGen, .refl⟩
        · exact absurd behind apart

/-- A new link whose end does not lead to its start closes no cycle. -/
theorem Acyclic.insert (acyclic : Acyclic r) (start finish : α)
    (links : ∀ a b, r' a b → r a b ∨ (a = start ∧ b = finish))
    (apart : ¬ ReflTransGen r finish start) : Acyclic r' := by
  intro a cycle
  rcases transGen_insert links apart cycle with path | ⟨before, behind⟩
  · exact acyclic a path
  · exact apart (behind.trans before)

/-- The links read backwards. -/
theorem Acyclic.swap (acyclic : Acyclic r) : Acyclic fun a b => r b a := by
  intro a cycle
  exact acyclic a (transGen_swap.mp cycle)

/-- An acyclic relation between the members of a finite set is well founded. -/
theorem Acyclic.wellFounded (acyclic : Acyclic r) {s : Set α} (finite : s.Finite)
    (inside : ∀ a b, r a b → a ∈ s ∧ b ∈ s) : WellFounded r := by
  have : IsStrictOrder α (TransGen r) :=
    { irrefl := acyclic
      trans := fun _ _ _ => TransGen.trans }
  have wellFoundedOn : s.WellFoundedOn (TransGen r) := finite.wellFoundedOn
  rw [Set.wellFoundedOn_iff] at wellFoundedOn
  exact Subrelation.wf (fun {a b} link => ⟨.single link, inside a b link⟩) wellFoundedOn

end Kjdmud
