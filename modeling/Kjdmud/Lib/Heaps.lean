import Mathlib.Logic.Relation

/-!
# Writes through one root of a heap

A heap gives every place a content, and a content points to places.  A program that
holds a root writes on the places that it reaches from there.  Whatever is apart from
the root stays apart and keeps its content, as long as nothing that is written leads
there.
-/

namespace Kjdmud.Heaps

open Relation

universe u v w

/-- How a heap is read. -/
structure Reading (S : Type u) (N : Type v) (C : Type w) where
  content : S → N → C
  points : C → N → Prop

variable {S : Type u} {N : Type v} {C : Type w} (r : Reading S N C)

namespace Reading

/-- A place points to another. -/
def Edge (s : S) (n k : N) : Prop :=
  r.points (r.content s n) k

/-- A place is reached from a set of roots. -/
def Reach (s : S) (root : N → Prop) (n : N) : Prop :=
  ∃ first, root first ∧ ReflTransGen (r.Edge s) first n

/-- One place is written on, and new pointers may come to it. -/
structure Written (s s' : S) (site : N) (new : N → Prop) : Prop where
  frame : ∀ n, n ≠ site → r.content s' n = r.content s n
  points : ∀ k, r.Edge s' site k → r.Edge s site k ∨ new k

/-- Writes on what a root reaches; nothing is written that leads to a place to avoid, unless
the root reaches that place already. -/
inductive Writes (root avoid : N → Prop) (s : S) : S → Prop
  | nil : Writes root avoid s s
  | snoc {s' s'' : S} {site : N} {new : N → Prop} (writes : Writes root avoid s s')
      (written : r.Written s' s'' site new) (inside : r.Reach s' root site)
      (foreign : ∀ n, r.Reach s' new n → r.Reach s' root n ∨ ¬ avoid n) :
      Writes root avoid s s''

variable {r} {root avoid : N → Prop} {s s' : S}

theorem Reach.of_root {n : N} (here : root n) : r.Reach s root n :=
  ⟨n, here, .refl⟩

theorem Reach.trans_edge {n k : N} (reach : r.Reach s root n) (edge : r.Edge s n k) :
    r.Reach s root k := by
  rcases reach with ⟨first, here, path⟩
  exact ⟨first, here, path.tail edge⟩

/-- What is reached after a write was reached before it, or from what was written. -/
theorem Written.reach {site : N} {new : N → Prop} (written : r.Written s s' site new) {n : N}
    (reach : r.Reach s' root n) : r.Reach s root n ∨ r.Reach s new n := by
  rcases reach with ⟨first, here, path⟩
  induction path with
  | refl => exact .inl (.of_root here)
  | @tail m k _ edge ih =>
      have before : r.Edge s m k ∨ new k := by
        by_cases same : m = site
        · subst same
          exact written.points k edge
        · left
          rw [Edge, written.frame m same] at edge
          exact edge
      rcases before with old | fresh
      · exact ih.imp (·.trans_edge old) (·.trans_edge old)
      · exact .inr (.of_root fresh)

/-- What is apart from the root stays apart and keeps its content. -/
theorem Writes.frame (writes : r.Writes root avoid s s') (frozen : N → Prop)
    (avoided : ∀ n, frozen n → avoid n)
    (apart : ∀ n, r.Reach s root n → ¬ frozen n) :
    (∀ n, r.Reach s' root n → ¬ frozen n) ∧
      ∀ n, frozen n → r.content s' n = r.content s n := by
  induction writes with
  | nil => exact ⟨apart, fun _ _ => rfl⟩
  | @snoc s' s'' site new _ written inside foreign ih =>
      rcases ih with ⟨apart', kept⟩
      constructor
      · intro n reach guarded
        rcases written.reach reach with old | fresh
        · exact apart' n old guarded
        · rcases foreign n fresh with old | free
          · exact apart' n old guarded
          · exact free (avoided n guarded)
      · intro n guarded
        have differs : n ≠ site := by
          rintro rfl
          exact apart' n inside guarded
        rw [written.frame n differs, kept n guarded]

end Reading

end Kjdmud.Heaps
