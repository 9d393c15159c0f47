import Mathlib.Logic.Function.Basic
import Mathlib.Data.List.Basic

/-!
# A binding stored twice

Every client is bound to at most one object, and a list names the clients of the objects.
The two agree when the list has the pairs of the clients and no others, and no object has
two clients.
-/

namespace Kjdmud.Bindings

universe u v

variable {C : Type u} {O : Type v} [DecidableEq O]

/-- The client of the first entry of an object. -/
def find (entries : List (O × C)) (o : O) : Option C :=
  (entries.find? fun e => e.1 = o).map Prod.snd

/-- The list without the entries of an object. -/
def remove (entries : List (O × C)) (o : O) : List (O × C) :=
  entries.filter fun e => e.1 ≠ o

/-- What the clients are bound to agrees with the list. -/
structure Agrees (bound : C → Option O) (entries : List (O × C)) : Prop where
  listed : ∀ o c, (o, c) ∈ entries ↔ bound c = some o
  alone : ∀ {o c c'}, bound c = some o → bound c' = some o → c = c'

variable {bound : C → Option O} {entries : List (O × C)} {o : O} {c : C}

theorem mem_remove {e : O × C} : e ∈ remove entries o ↔ e ∈ entries ∧ e.1 ≠ o := by
  rw [remove, List.mem_filter, decide_eq_true_iff]

theorem mem_of_find (found : find entries o = some c) : (o, c) ∈ entries := by
  rcases Option.map_eq_some_iff.mp found with ⟨e, first, rfl⟩
  have here := List.find?_some first
  rw [decide_eq_true_iff] at here
  subst here
  exact List.mem_of_find?_eq_some first

namespace Agrees

/-- The list finds the client that is bound to an object. -/
theorem find_iff (agrees : Agrees bound entries) : find entries o = some c ↔ bound c = some o := by
  constructor
  · intro found
    exact (agrees.listed o c).mp (mem_of_find found)
  · intro here
    have mem := (agrees.listed o c).mpr here
    cases found : find entries o with
    | none =>
        rw [find, Option.map_eq_none_iff, List.find?_eq_none] at found
        exact absurd (decide_eq_true rfl) (found _ mem)
    | some c' =>
        have there := (agrees.listed o c').mp (mem_of_find found)
        rw [agrees.alone there here]

variable [DecidableEq C]

/-- A client without an object. -/
theorem unbind (agrees : Agrees bound entries) (here : bound c = some o) :
    Agrees (Function.update bound c none) (remove entries o) where
  listed o' c' := by
    rw [mem_remove, agrees.listed]
    by_cases same : c' = c
    · subst same
      rw [Function.update_self]
      constructor
      · rintro ⟨there, other⟩
        rw [here] at there
        exact absurd (Option.some.inj there).symm other
      · rintro ⟨⟩
    · rw [Function.update_of_ne same]
      constructor
      · exact fun there => there.1
      · intro there
        refine ⟨there, ?_⟩
        rintro rfl
        exact same (agrees.alone there here)
  alone {o' a a'} there there' := by
    have kept {x : C} (bound' : Function.update bound c none x = some o') :
        bound x = some o' := by
      by_cases same : x = c
      · rw [same, Function.update_self] at bound'
        cases bound'
      · rwa [Function.update_of_ne same] at bound'
    exact agrees.alone (kept there) (kept there')

omit [DecidableEq O] in
/-- A client takes an object that has no client. -/
theorem bind (agrees : Agrees bound entries) (idle : bound c = none)
    (free : ∀ c', bound c' ≠ some o) :
    Agrees (Function.update bound c (some o)) (entries ++ [(o, c)]) where
  listed o' c' := by
    rw [List.mem_append, List.mem_singleton, agrees.listed, Prod.mk.injEq]
    by_cases same : c' = c
    · subst same
      rw [Function.update_self, idle, Option.some.injEq]
      constructor
      · rintro (never | ⟨rfl, -⟩)
        · cases never
        · rfl
      · rintro rfl
        exact .inr ⟨rfl, rfl⟩
    · rw [Function.update_of_ne same]
      exact ⟨fun entry => entry.elim id fun new => absurd new.2 same, .inl⟩
  alone {o' a a'} there there' := by
    by_cases first : a = c
    · by_cases second : a' = c
      · rw [first, second]
      · rw [first, Function.update_self] at there
        rw [Function.update_of_ne second] at there'
        cases there
        exact absurd there' (free a')
    · rw [Function.update_of_ne first] at there
      by_cases second : a' = c
      · rw [second, Function.update_self] at there'
        cases there'
        exact absurd there (free a)
      · rw [Function.update_of_ne second] at there'
        exact agrees.alone there there'

/-- A client leaves its object for one that no other client has. -/
theorem rebind (agrees : Agrees bound entries) {old : O} (here : bound c = some old)
    (free : ∀ c', c' ≠ c → bound c' ≠ some o) :
    Agrees (Function.update bound c (some o)) (remove entries old ++ [(o, c)]) := by
  have left := (agrees.unbind here).bind (o := o) (Function.update_self c none bound) ?_
  · rwa [Function.update_idem] at left
  · intro c' there
    by_cases same : c' = c
    · rw [same, Function.update_self] at there
      cases there
    · rw [Function.update_of_ne same] at there
      exact free c' same there

end Agrees

end Kjdmud.Bindings
