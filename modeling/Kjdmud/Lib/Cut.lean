import Kjdmud.Lib.Drain

/-!
# Cutting a sequence at a delimiter

`cutAt` splits a sequence at the first occurrence of a nonempty delimiter, the
way a `find` followed by two `substr` does.  Since the first occurrence in a
sequence is the first in every longer one, the pieces between delimiters are
the items of a pull reader.

A text that is cut at every occurrence, from left to right and without overlaps, has fields.
The fields with the separator between them are the text again, and with other texts between
them, each chosen by its number, they are the text with occurrences replaced.
-/

namespace Kjdmud.Drain

universe u

variable {α : Type u} [DecidableEq α]

/-- What stands before and behind the first occurrence of a delimiter. -/
def cutAt (delimiter : List α) : List α → Option (List α × List α)
  | [] => none
  | a :: rest =>
      if delimiter.isPrefixOf (a :: rest) then
        some ([], (a :: rest).drop delimiter.length)
      else (cutAt delimiter rest).map fun cut => (a :: cut.1, cut.2)

variable {delimiter text before after : List α}

/-- The pieces and the delimiter make up the text. -/
theorem eq_of_cutAt (cut : cutAt delimiter text = some (before, after)) :
    text = before ++ delimiter ++ after := by
  induction text generalizing before with
  | nil => contradiction
  | cons a rest inductionHypothesis =>
      unfold cutAt at cut
      split_ifs at cut with starts
      · obtain ⟨rfl, rfl⟩ := Prod.mk.inj (Option.some.inj cut)
        obtain ⟨tail, whole⟩ := List.isPrefixOf_iff_prefix.mp starts
        rw [← whole]
        simp
      · obtain ⟨⟨_, _⟩, cutRest, equal⟩ := Option.map_eq_some_iff.mp cut
        obtain ⟨rfl, rfl⟩ := Prod.mk.inj equal
        rw [inductionHypothesis cutRest]
        rfl

/-- The first occurrence stays the first whatever follows. -/
theorem cutAt_append (more : List α) (cut : cutAt delimiter text = some (before, after)) :
    cutAt delimiter (text ++ more) = some (before, after ++ more) := by
  induction text generalizing before with
  | nil => contradiction
  | cons a rest inductionHypothesis =>
      have whole := eq_of_cutAt cut
      unfold cutAt at cut
      split_ifs at cut with starts
      · obtain ⟨rfl, rfl⟩ := Prod.mk.inj (Option.some.inj cut)
        obtain ⟨tail, split⟩ := List.isPrefixOf_iff_prefix.mp starts
        have startsLonger : delimiter.isPrefixOf (a :: (rest ++ more)) := by
          rw [List.isPrefixOf_iff_prefix, ← List.cons_append, ← split, List.append_assoc]
          exact List.prefix_append _ _
        rw [List.cons_append, cutAt, if_pos startsLonger, ← List.cons_append, ← split]
        simp
      · obtain ⟨inner, cutRest, equal⟩ := Option.map_eq_some_iff.mp cut
        obtain ⟨rfl, rfl⟩ := Prod.mk.inj equal
        have covers : delimiter.length ≤ (a :: rest).length := by
          rw [whole]
          simp only [List.cons_append, List.length_cons, List.length_append]
          omega
        have startsNot : ¬ delimiter.isPrefixOf (a :: (rest ++ more)) := by
          intro starts'
          apply starts
          rw [List.isPrefixOf_iff_prefix] at starts' ⊢
          exact List.prefix_of_prefix_length_le starts' (List.prefix_append (a :: rest) more)
            covers
        rw [List.cons_append, cutAt, if_neg startsNot, inductionHypothesis cutRest]
        rfl

/-- The reader of the pieces of a text that end in a delimiter. -/
def pieceReader (delimiter : List α) (nonempty : delimiter ≠ []) : Reader α (List α) where
  read := cutAt delimiter
  shrinks := by
    intro text before after cut
    have whole := congrArg List.length (eq_of_cutAt cut)
    have positive := List.length_pos_iff.mpr nonempty
    simp only [List.length_append] at whole
    omega
  stable := cutAt_append

/-! ## Delimiters of one element -/

variable {d : α}

/-- A one-element delimiter is cut at where it first occurs. -/
theorem cutAt_singleton_append (fresh : d ∉ before) :
    cutAt [d] (before ++ d :: after) = some (before, after) := by
  induction before with
  | nil => simp [cutAt]
  | cons a before inductionHypothesis =>
      have other : d ≠ a := fun equal => fresh (equal ▸ List.mem_cons_self)
      have later := inductionHypothesis fun mem => fresh (List.mem_cons_of_mem _ mem)
      simp [cutAt, other, later]

/-- A text without a one-element delimiter is not cut. -/
theorem cutAt_singleton_eq_none : cutAt [d] text = none ↔ d ∉ text := by
  induction text with
  | nil => simp [cutAt]
  | cons a rest inductionHypothesis =>
      by_cases equal : d = a
      · simp [cutAt, equal]
      · simp [cutAt, equal, inductionHypothesis]

/-! ## Fields -/

/-- What stands between the separators of a text. -/
def fields (separator : List α) (nonempty : separator ≠ []) (text : List α) : List (List α) :=
  let drained := (pieceReader separator nonempty).drain (fun _ => false) text
  drained.1 ++ [drained.2]

variable {separator : List α} {nonempty : separator ≠ []}

theorem fields_of_none (none_ : cutAt separator text = none) :
    fields separator nonempty text = [text] := by
  have waits : (pieceReader separator nonempty).read text = none := none_
  rw [fields, Reader.drain_of_waits waits]
  rfl

theorem fields_of_cut (cut : cutAt separator text = some (before, after)) :
    fields separator nonempty text = before :: fields separator nonempty after := by
  have reads : (pieceReader separator nonempty).read text = some (before, after) := cut
  rw [fields, Reader.drain_of_reads reads rfl]
  rfl

/-- Induction along the fields: there is no separator, or a field ends at the first one. -/
theorem fields_induction (separator : List α) (nonempty : separator ≠ [])
    {motive : List α → Prop}
    (last : ∀ text, cutAt separator text = none → motive text)
    (field : ∀ text before after, cutAt separator text = some (before, after) →
      motive after → motive text)
    (text : List α) : motive text := by
  induction text using Reader.drain_induction (pieceReader separator nonempty)
    (fun _ => false) with
  | waits text waits => exact last text waits
  | stops _ _ _ _ stops => contradiction
  | reads text before after reads _ ih => exact field text before after reads ih

theorem fields_ne_nil : fields separator nonempty text ≠ [] := by
  unfold fields
  exact List.append_ne_nil_of_right_ne_nil _ (List.cons_ne_nil _ _)

/-- A rest is shorter than the text. -/
theorem length_of_cutAt (nonempty : separator ≠ [])
    (cut : cutAt separator text = some (before, after)) : after.length < text.length :=
  (pieceReader separator nonempty).shrinks cut

/-! ## Joining -/

/-- The fields with a text between each two of them, chosen by the number of the gap. -/
def joinNumbered (between : Nat → List α) : Nat → List (List α) → List α
  | _, [] => []
  | _, [field] => field
  | number, field :: next :: rest =>
      field ++ between number ++ joinNumbered between (number + 1) (next :: rest)

omit [DecidableEq α] in
theorem joinNumbered_cons {between : Nat → List α} {number : Nat} {field : List α}
    {rest : List (List α)} (more : rest ≠ []) :
    joinNumbered between number (field :: rest) =
      field ++ between number ++ joinNumbered between (number + 1) rest := by
  cases rest with
  | nil => contradiction
  | cons next rest => rfl

omit [DecidableEq α] in
/-- The same text between all fields. -/
theorem joinNumbered_const (number : Nat) (texts : List (List α)) :
    joinNumbered (fun _ => separator) number texts = separator.intercalate texts := by
  induction texts generalizing number with
  | nil => rfl
  | cons field rest ih =>
      by_cases more : rest = []
      · subst more
        rw [List.intercalate_singleton]
        rfl
      · rw [joinNumbered_cons more, List.intercalate_cons_of_ne_nil more, ih,
          List.append_assoc]

omit [DecidableEq α] in
/-- Only the numbers from `number` on matter. -/
theorem joinNumbered_congr {between other : Nat → List α} {number : Nat}
    (same : ∀ i, number ≤ i → between i = other i) (texts : List (List α)) :
    joinNumbered between number texts = joinNumbered other number texts := by
  induction texts generalizing number with
  | nil => rfl
  | cons field rest ih =>
      by_cases more : rest = []
      · subst more
        rfl
      · rw [joinNumbered_cons more, joinNumbered_cons more, same number le_rfl,
          ih fun i from_ => same i (by omega)]

/-- The fields with the separator between them are the text. -/
theorem intercalate_fields (text : List α) :
    separator.intercalate (fields separator nonempty text) = text := by
  induction text using fields_induction separator nonempty with
  | last text none_ => rw [fields_of_none none_, List.intercalate_singleton]
  | field text before after cut ih =>
      rw [fields_of_cut cut, List.intercalate_cons_of_ne_nil fields_ne_nil, ih,
        eq_of_cutAt cut]

/-! ## The first field -/

/-- A text that starts with the separator is cut there. -/
theorem cutAt_of_prefix (nonempty : separator ≠ []) (starts : separator.isPrefixOf text) :
    cutAt separator text = some ([], text.drop separator.length) := by
  cases text with
  | nil => exact absurd (List.prefix_nil.mp (List.isPrefixOf_iff_prefix.mp starts)) nonempty
  | cons a rest => rw [cutAt, if_pos starts]

/-- Elsewhere the first field is not empty. -/
theorem ne_nil_of_cutAt (starts : ¬ separator.isPrefixOf text)
    (cut : cutAt separator text = some (before, after)) : before ≠ [] := by
  rintro rfl
  apply starts
  rw [List.isPrefixOf_iff_prefix, eq_of_cutAt cut]
  exact ⟨after, by simp⟩

end Kjdmud.Drain
