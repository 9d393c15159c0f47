import Kjdmud.Lib.Spans

/-!
# Wrapping a text

A text is wrapped into lines that leave nothing but blanks out.  A word is a run of characters
with ink that is as long as it can be; a word that fits into a line is not cut.  It suffices to
look at one line after the other: where it ends, and how many blanks stand behind it.
-/

namespace Kjdmud.Lib.Wrapping

open Kjdmud.Lib.Spans

universe u

variable {α : Type u} {text : List α} {start stop size cursor done gap width : Nat}
  {spans : List (Nat × Nat)}

/-- A span as it stands behind a front of the text. -/
def shift (front : Nat) (span : Nat × Nat) : Nat × Nat :=
  (front + span.1, front + span.2)

theorem slice_shift (front : Nat) (span : Nat × Nat) :
    slice text (shift front span).1 (shift front span).2 =
      slice (text.drop front) span.1 span.2 := by
  rw [slice, slice, shift, List.drop_drop, Nat.add_sub_add_left]

theorem ordered_shift (front : Nat) (ordered : Ordered size cursor spans) :
    Ordered (front + size) (front + cursor) (spans.map (shift front)) := by
  induction spans generalizing cursor with
  | nil => exact Nat.add_le_add_left ordered front
  | cons span spans ih =>
      obtain ⟨before, proper, behind⟩ := ordered
      exact ⟨Nat.add_le_add_left before front, Nat.add_le_add_left proper front, ih behind⟩

section Words

variable (Ink : α → Bool)

/-- A run of characters with ink, as long as it can be. -/
structure IsWord (text : List α) (start stop : Nat) : Prop where
  proper : start < stop
  inside : stop ≤ text.length
  ink : ∀ i c, start ≤ i → i < stop → text[i]? = some c → Ink c = true
  first : ∀ i c, i + 1 = start → text[i]? = some c → Ink c = false
  last : ∀ c, text[stop]? = some c → Ink c = false

/-- The lines of a text: they fit, leave nothing but blanks out, and hold the words that fit. -/
structure Wrapped (width : Nat) (text : List α) (spans : List (Nat × Nat)) : Prop where
  ordered : Ordered text.length 0 spans
  fits : ∀ span ∈ spans, span.2 - span.1 ≤ width
  inked : ((spans.map fun span => slice text span.1 span.2).flatten).filter Ink =
    text.filter Ink
  words : ∀ start stop, IsWord Ink text start stop → stop - start ≤ width →
    ∃ span ∈ spans, span.1 ≤ start ∧ stop ≤ span.2

variable {Ink}

theorem IsWord.drop {front : Nat} (word : IsWord Ink text (front + start) (front + stop)) :
    IsWord Ink (text.drop front) start stop where
  proper := Nat.lt_of_add_lt_add_left word.proper
  inside := by
    have inside := word.inside
    rw [List.length_drop]
    omega
  ink i c ge lt here := by
    rw [List.getElem?_drop] at here
    exact word.ink (front + i) c (by omega) (by omega) here
  first i c next here := by
    rw [List.getElem?_drop] at here
    exact word.first (front + i) c (by omega) here
  last c here := by
    rw [List.getElem?_drop] at here
    exact word.last c here

theorem wrapped_nil (width : Nat) : Wrapped Ink width ([] : List α) [] where
  ordered := Nat.le_refl 0
  fits span member := by cases member
  inked := rfl
  words start stop word := by
    have proper := word.proper
    have inside : stop ≤ 0 := word.inside
    omega

/-- A line in front of the others, with blanks behind it. -/
theorem Wrapped.cons (inside : done + gap ≤ text.length) (fits : done ≤ width)
    (blank : ∀ c ∈ (text.drop done).take gap, Ink c = false)
    (cut : ∀ start stop, IsWord Ink text start stop → start < done → done < stop →
      width < stop - start)
    (wrapped : Wrapped Ink width (text.drop (done + gap)) spans) :
    Wrapped Ink width text ((0, done) :: spans.map (shift (done + gap))) where
  ordered := by
    have ordered := ordered_shift (done + gap) wrapped.ordered
    rw [List.length_drop, Nat.add_sub_cancel' inside] at ordered
    refine ⟨Nat.le_refl 0, Nat.zero_le done, ordered.mono ?_⟩
    exact Nat.le_add_right done gap
  fits span member := by
    rcases List.mem_cons.mp member with rfl | member
    · exact fits
    · obtain ⟨earlier, later, rfl⟩ := List.mem_map.mp member
      rw [shift, Nat.add_sub_add_left]
      exact wrapped.fits earlier later
  inked := by
    have later : ((spans.map (shift (done + gap))).map fun span => slice text span.1 span.2) =
        spans.map fun span => slice (text.drop (done + gap)) span.1 span.2 := by
      rw [List.map_map]
      exact List.map_congr_left fun span _ => slice_shift (done + gap) span
    have nothing : ((text.drop done).take gap).filter Ink = [] :=
      List.filter_eq_nil_iff.mpr fun c member => by rw [blank c member]; exact Bool.false_ne_true
    have parts :
        text.take done ++ ((text.drop done).take gap ++ text.drop (done + gap)) = text := by
      rw [← List.drop_drop, List.take_append_drop, List.take_append_drop]
    rw [List.map_cons, List.flatten_cons, List.filter_append, later, wrapped.inked]
    conv_rhs => rw [← parts]
    rw [List.filter_append, List.filter_append, nothing]
    rfl
  words start stop word short := by
    rcases Nat.lt_or_ge start done with before | behind
    · refine ⟨(0, done), List.mem_cons_self, Nat.zero_le start, ?_⟩
      by_contra crosses
      exact absurd (cut start stop word before (Nat.lt_of_not_ge crosses)) (Nat.not_lt.mpr short)
    · have proper := word.proper
      have within := word.inside
      -- No word starts at a blank.
      have beyond : done + gap ≤ start := by
        by_contra early
        have some_ : text[start]? = some text[start] := List.getElem?_eq_getElem (by omega)
        have inked := word.ink start text[start] (Nat.le_refl start) proper some_
        have member : text[start] ∈ (text.drop done).take gap := by
          rw [List.mem_iff_getElem?]
          refine ⟨start - done, ?_⟩
          rw [List.getElem?_take_of_lt (by omega), List.getElem?_drop,
            Nat.add_sub_cancel' behind, some_]
        rw [blank _ member] at inked
        cases inked
      have far : done + gap ≤ stop := Nat.le_of_lt (Nat.lt_of_le_of_lt beyond proper)
      obtain ⟨stop, rfl⟩ := Nat.exists_eq_add_of_le far
      obtain ⟨start, rfl⟩ := Nat.exists_eq_add_of_le beyond
      rw [Nat.add_sub_add_left] at short
      obtain ⟨span, member, first, last⟩ := wrapped.words start stop word.drop short
      refine ⟨shift (done + gap) span, List.mem_cons_of_mem _ (List.mem_map_of_mem member), ?_⟩
      exact ⟨Nat.add_le_add_left first _, Nat.add_le_add_left last _⟩

end Words

end Kjdmud.Lib.Wrapping
