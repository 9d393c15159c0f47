import Mathlib.Data.List.Basic
import Mathlib.Data.List.Infix

/-!
# Markers in a text

A text in which some marker stands for something else is restored from left to right: what
matches the marker is replaced, everything else is copied.  The restored text is the right one
as long as no match starts in front of a marker.
-/

namespace Kjdmud.Lib.Markers

universe u

variable {α : Type u} [DecidableEq α] {marker replacement x y z : List α} {c : α}

/-- Replace the occurrences of a marker from left to right, behind some characters that belong
to an occurrence. -/
def restore (marker replacement : List α) : Nat → List α → List α
  | _, [] => []
  | skipped + 1, _ :: rest => restore marker replacement skipped rest
  | 0, c :: rest =>
      if marker <+: c :: rest then
        replacement ++ restore marker replacement (marker.length - 1) rest
      else c :: restore marker replacement 0 rest

theorem restore_skip (y x : List α) :
    restore marker replacement y.length (y ++ x) = restore marker replacement 0 x := by
  induction y with
  | nil => rfl
  | cons c y ih => exact ih

/-- A marker is replaced. -/
theorem restore_marker (nonempty : marker ≠ []) (x : List α) :
    restore marker replacement 0 (marker ++ x) =
      replacement ++ restore marker replacement 0 x := by
  cases marker with
  | nil => exact absurd rfl nonempty
  | cons c marker =>
      have here : c :: marker <+: c :: (marker ++ x) := List.prefix_append (c :: marker) x
      rw [List.cons_append, restore, if_pos here, List.length_cons, Nat.add_sub_cancel,
        restore_skip]

theorem restore_of_prefix (here : marker <+: c :: x) :
    restore marker replacement 0 (c :: x) =
      replacement ++ restore marker replacement (marker.length - 1) x := by
  rw [restore, if_pos here]

/-- What matches no marker is copied. -/
theorem restore_of_not_prefix (elsewhere : ¬ marker <+: c :: x) :
    restore marker replacement 0 (c :: x) = c :: restore marker replacement 0 x := by
  rw [restore, if_neg elsewhere]

/-- A text in which no match starts is copied. -/
theorem restore_append (apart : ∀ z, z ≠ [] → z <:+ y → ¬ marker <+: z ++ x) :
    restore marker replacement 0 (y ++ x) = y ++ restore marker replacement 0 x := by
  induction y with
  | nil => rfl
  | cons c y ih =>
      have here : ¬ marker <+: c :: (y ++ x) :=
        apart (c :: y) (List.cons_ne_nil c y) (List.suffix_refl _)
      have behind := ih fun z nonempty suffix =>
        apart z nonempty (suffix.trans (List.suffix_cons c y))
      rw [List.cons_append, restore_of_not_prefix here, behind]
      rfl

omit [DecidableEq α] in
/-- No match reaches over a character that is not in the marker. -/
theorem not_prefix_of_separator {separator : α} (foreign : separator ∉ marker)
    (short : z.length < marker.length) : ¬ marker <+: z ++ separator :: x := by
  intro match_
  have longer : (z ++ [separator]) <+: marker := by
    apply List.prefix_of_prefix_length_le _ match_
    · rw [List.length_append, List.length_singleton]
      exact short
    · exact ⟨x, by rw [List.append_assoc, List.singleton_append]⟩
  exact foreign (longer.subset (List.mem_append_right z List.mem_cons_self))

end Kjdmud.Lib.Markers
