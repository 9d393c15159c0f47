import Mathlib.Data.List.Basic

/-!
# Spans of a text

Spans that follow one another cut a text into segments: what stands between them and what they
cover, in turn.  Nothing of the text is lost by that.
-/

namespace Kjdmud.Lib.Spans

universe u v

variable {α : Type u} {β : Type v} {text : List α} {size cursor start stop : Nat}
  {spans : List (Nat × Nat)}

/-- The part of a text between two positions. -/
def slice (text : List α) (start stop : Nat) : List α :=
  (text.drop start).take (stop - start)

/-- Spans in a text of some size, each behind the one before, from a position on. -/
def Ordered (size : Nat) : Nat → List (Nat × Nat) → Prop
  | cursor, [] => cursor ≤ size
  | cursor, (start, stop) :: spans => cursor ≤ start ∧ start ≤ stop ∧ Ordered size stop spans

/-- Spans behind a position are behind every earlier one. -/
theorem Ordered.mono {earlier : Nat} (le : earlier ≤ cursor)
    (ordered : Ordered size cursor spans) : Ordered size earlier spans := by
  cases spans with
  | nil => exact Nat.le_trans le ordered
  | cons span spans => exact ⟨Nat.le_trans le ordered.1, ordered.2⟩

end Kjdmud.Lib.Spans
