import Kjdmud.Efun.Sprintf
import Kjdmud.Lib.Wrapping

/-!
# What `wrapForColumn` leaves of a text

The segments are as wide as the column at most and hold everything but blanks and line breaks.
A segment ends inside a word only when the word starts with it and is too long for the column.
-/

namespace Kjdmud.Efun.Sprintf

open Kjdmud.Lib.Spans
open Kjdmud.Lib.Wrapping

variable {text whole : Str} {width done : Nat} {lastSpace : Option Nat}

/-- A byte that is neither a blank nor a line break. -/
def isInk (c : UInt8) : Bool :=
  c ≠ 32 && c ≠ 10

/-! ## The line -/

/-- What the loop over a line knows after some of its bytes. -/
structure Windowed (width : Nat) (whole : Str) (done : Nat) (lastSpace : Option Nat) : Prop where
  narrow : done ≤ width
  inside : done ≤ whole.length
  line : ∀ i c, i < done → whole[i]? = some c → c ≠ 10
  blank : ∀ i, lastSpace = some i → i < done ∧ whole[i]? = some 32
  none_ : lastSpace = none → ∀ i c, i < done → whole[i]? = some c → c ≠ 32

/-- The loop over a line ends at the width, at the end of the text or at a line break. -/
def Ended (width : Nat) (whole : Str) (done : Nat) : Prop :=
  done = width ∨ done = whole.length ∨ whole[done]? = some 10

theorem windowed_zero (width : Nat) (whole : Str) : Windowed width whole 0 none where
  narrow := Nat.zero_le width
  inside := Nat.zero_le whole.length
  line i c lt := absurd lt (Nat.not_lt_zero i)
  blank i same := by cases same
  none_ _ i c lt := absurd lt (Nat.not_lt_zero i)

/-- One more byte of the line. -/
theorem Windowed.next {c : UInt8} (windowed : Windowed width whole done lastSpace)
    (here : whole[done]? = some c) (line : c ≠ 10) (narrow : done < width) :
    Windowed width whole (done + 1) (if c = 32 then some done else lastSpace) where
  narrow := narrow
  inside := (List.getElem?_eq_some_iff.mp here).1
  line i d lt found := by
    rcases Nat.lt_succ_iff_lt_or_eq.mp lt with before | rfl
    · exact windowed.line i d before found
    · rw [here] at found
      exact Option.some.inj found ▸ line
  blank i same := by
    split at same
    · next space =>
        cases same
        exact ⟨Nat.lt_succ_self done, space ▸ here⟩
    · obtain ⟨before, found⟩ := windowed.blank i same
      exact ⟨Nat.lt_succ_of_lt before, found⟩
  none_ same i d lt found := by
    split at same
    · cases same
    · next ink =>
        rcases Nat.lt_succ_iff_lt_or_eq.mp lt with before | rfl
        · exact windowed.none_ same i d before found
        · rw [here] at found
          exact Option.some.inj found ▸ ink

theorem window_windowed (front : Str) (windowed : Windowed width (front ++ text) front.length
    lastSpace) :
    Windowed width (front ++ text) (window width text front.length lastSpace).1
        (window width text front.length lastSpace).2 ∧
      Ended width (front ++ text) (window width text front.length lastSpace).1 := by
  induction text generalizing front lastSpace with
  | nil =>
      refine ⟨windowed, .inr (.inl ?_)⟩
      rw [List.append_nil]
      rfl
  | cons c text ih =>
      have here : (front ++ c :: text)[front.length]? = some c := by
        rw [List.getElem?_append_right (Nat.le_refl _), Nat.sub_self]
        rfl
      rw [window]
      split
      · next more =>
          have next := windowed.next here more.1 more.2
          have longer : front.length + 1 = (front ++ [c]).length := by
            rw [List.length_append]
            rfl
          have split : front ++ c :: text = (front ++ [c]) ++ text := by
            rw [List.append_assoc]
            rfl
          rw [longer, split] at next ⊢
          exact ih (front ++ [c]) next
      · next less =>
          refine ⟨windowed, ?_⟩
          rcases not_and_or.mp less with line | wide
          · exact .inr (.inr (not_not.mp line ▸ here))
          · exact .inl (Nat.le_antisymm windowed.narrow (Nat.not_lt.mp wide))

/-! ## The segment -/

/-- What a segment at the front of a text is. -/
structure Segment (width : Nat) (text : Str) (done : Nat) : Prop where
  narrow : done ≤ width
  inside : done ≤ text.length
  line : ∀ i c, i < done → text[i]? = some c → c ≠ 10
  cut : ∀ start stop, IsWord isInk text start stop → start < done → done < stop →
    width < stop - start
  moves : done = 0 → 0 < width → text = [] ∨ text.head? = some 10 ∨ text.head? = some 32

/-- A word that crosses the end of a full line without blanks starts with it. -/
theorem Windowed.cut (windowed : Windowed width text done none) (ended : Ended width text done)
    {start stop : Nat} (word : IsWord isInk text start stop) (before : start < done)
    (behind : done < stop) : width < stop - start := by
  have here : text[done]? = some (text.get ⟨done, behind.trans_le word.inside⟩) :=
    List.getElem?_eq_getElem _
  have ink := word.ink done _ before.le behind here
  have full : done = width := by
    rcases ended with full | spent | line
    · exact full
    · exact absurd spent (behind.trans_le word.inside).ne
    · rw [line] at here
      rw [← Option.some.inj here] at ink
      cases ink
  have first : start = 0 := by
    by_contra later
    obtain ⟨i, rfl⟩ := Nat.exists_eq_succ_of_ne_zero later
    have within : i < text.length := by
      have := windowed.inside
      omega
    have earlier : text[i]? = some text[i] := List.getElem?_eq_getElem within
    have blank := word.first i _ rfl earlier
    have line := windowed.line i _ (by omega) earlier
    have space := windowed.none_ rfl i _ (by omega) earlier
    simp [isInk, line, space] at blank
  rw [first, Nat.sub_zero, ← full]
  exact behind

theorem segmentLength_segment (text : Str) (width : Nat) :
    Segment width text (segmentLength text width) := by
  obtain ⟨windowed, ended⟩ := window_windowed [] (windowed_zero width ([] ++ text))
  rw [List.nil_append, List.length_nil] at windowed ended
  rw [segmentLength]
  generalize window width text 0 none = result at windowed ended
  obtain ⟨done, lastSpace⟩ := result
  dsimp only at windowed ended
  cases lastSpace with
  | none =>
      constructor
      · exact windowed.narrow
      · exact windowed.inside
      · exact windowed.line
      · exact fun start stop word => windowed.cut ended word
      · intro zero wide
        change done = 0 at zero
        rw [zero] at ended
        rcases ended with full | spent | line
        · exact absurd full wide.ne
        · exact .inl (List.length_eq_zero_iff.mp spent.symm)
        · rw [List.head?_eq_getElem?]
          exact .inr (.inl line)
  | some lastSpace =>
      obtain ⟨earlier, space⟩ := windowed.blank lastSpace rfl
      dsimp only
      split
      · -- The line is cut at its last blank.
        constructor
        · exact earlier.le.trans windowed.narrow
        · exact earlier.le.trans windowed.inside
        · exact fun i c lt => windowed.line i c (lt.trans earlier)
        · intro start stop word before behind
          have ink := word.ink lastSpace 32 before.le behind space
          cases ink
        · intro zero _
          rw [zero] at space
          rw [List.head?_eq_getElem?]
          exact .inr (.inr space)
      · next kept =>
          constructor
          · exact windowed.narrow
          · exact windowed.inside
          · exact windowed.line
          · intro start stop word before behind
            have within := behind.trans_le word.inside
            have here : text[done]? = some text[done] := List.getElem?_eq_getElem within
            have ink := word.ink done _ before.le behind here
            have line : text[done]? ≠ some 10 := by
              intro line
              rw [← Option.some.inj (line.symm.trans here)] at ink
              cases ink
            have blank : text[done]? ≠ some 32 := by
              intro blank
              rw [← Option.some.inj (blank.symm.trans here)] at ink
              cases ink
            rcases ended with full | spent | broken
            · exact absurd ⟨full, within, line, blank⟩ kept
            · exact absurd spent within.ne
            · exact absurd broken line
          · intro zero _
            exact absurd (zero ▸ earlier) (Nat.not_lt_zero lastSpace)

/-! ## The breaks -/

/-- What is taken away at a break are blanks and line breaks. -/
theorem skipBreak_drop (rest : Str) : ∃ gap, gap ≤ rest.length ∧ skipBreak rest = rest.drop gap ∧
    (∀ c ∈ rest.take gap, isInk c = false) ∧
      (rest.head? = some 10 ∨ rest.head? = some 32 → 0 < gap) := by
  unfold skipBreak
  split
  · next line =>
      cases rest with
      | nil => cases line
      | cons c rest =>
          refine ⟨1, Nat.le_add_left 1 rest.length, rfl, ?_, fun _ => Nat.one_pos⟩
          intro d member
          rw [List.mem_singleton.mp member, Option.some.inj line]
          rfl
  · next other =>
      have parts : rest.takeWhile (· = 32) ++ rest.dropWhile (· = 32) = rest :=
        List.takeWhile_append_dropWhile
      have takes : rest.take (rest.takeWhile (· = 32)).length = rest.takeWhile (· = 32) :=
        (List.prefix_iff_eq_take.mp ⟨_, parts⟩).symm
      have drops : rest.drop (rest.takeWhile (· = 32)).length = rest.dropWhile (· = 32) := by
        rw [← takes] at parts
        exact (List.append_cancel_left (parts.trans (List.take_append_drop _ rest).symm)).symm
      refine ⟨_, (List.takeWhile_prefix _).length_le, drops.symm, ?_, ?_⟩
      · intro c member
        rw [takes] at member
        rw [of_decide_eq_true (List.all_eq_true.mp List.all_takeWhile c member)]
        rfl
      · rintro (line | blank)
        · exact absurd line other
        · cases rest with
          | nil => cases blank
          | cons c rest =>
              rw [Option.some.inj blank]
              exact Nat.succ_pos _

/-! ## The loop -/

/-- What `wrapForColumn` makes of a text. -/
structure WrapsRight (text : Str) (width : Nat) (segs : List Str) : Prop where
  fits : ∀ seg ∈ segs, seg.length ≤ width ∧ 10 ∉ seg
  keeps : segs.flatten.filter isInk = text.filter isInk
  whole : ∃ spans, segs = (spans.map fun span => slice text span.1 span.2) ∧
    Ordered text.length 0 spans ∧
      ∀ start stop, IsWord isInk text start stop → stop - start ≤ width →
        ∃ span ∈ spans, span.1 ≤ start ∧ stop ≤ span.2

theorem not_mem_of_line (line : ∀ i c, i < done → text[i]? = some c → c ≠ 10) :
    10 ∉ text.take done := by
  intro member
  obtain ⟨i, found⟩ := List.mem_iff_getElem?.mp member
  have lt : i < done := by
    have := (List.getElem?_eq_some_iff.mp found).1
    rw [List.length_take] at this
    omega
  rw [List.getElem?_take_of_lt lt] at found
  exact line i 10 lt found rfl

/-- The loop ends within a round for each byte, and wraps the text. -/
theorem wrapLoop_wraps (wide : 0 < width) (fuel : Nat) (enough : text.length ≤ fuel) :
    ∃ segs spans, wrapLoop width fuel text = some segs ∧
      segs = (spans.map fun span => slice text span.1 span.2) ∧
        Wrapped isInk width text spans ∧ ∀ seg ∈ segs, 10 ∉ seg := by
  induction fuel generalizing text with
  | zero =>
      rw [List.length_eq_zero_iff.mp (Nat.le_zero.mp enough)]
      exact ⟨[], [], rfl, rfl, wrapped_nil width, fun seg member => by cases member⟩
  | succ fuel ih =>
      cases text with
      | nil => exact ⟨[], [], rfl, rfl, wrapped_nil width, fun seg member => by cases member⟩
      | cons c s =>
          have segment := segmentLength_segment (c :: s) width
          rw [wrapLoop]
          have nonempty : c :: s ≠ [] := List.cons_ne_nil c s
          generalize c :: s = text at segment enough nonempty
          generalize segmentLength text width = done at segment
          obtain ⟨gap, within, skips, blank, moves⟩ := skipBreak_drop (text.drop done)
          rw [List.length_drop] at within
          rw [skips, List.drop_drop]
          have reaches : done + gap ≤ text.length := by
            have := segment.inside
            omega
          have forward : 0 < done + gap := by
            rcases Nat.eq_zero_or_pos done with rfl | positive
            · rcases segment.moves rfl wide with empty | head
              · exact absurd empty nonempty
              · exact Nat.add_pos_right 0 (moves head)
            · exact Nat.add_pos_left positive gap
          have shorter : (text.drop (done + gap)).length ≤ fuel := by
            rw [List.length_drop]
            omega
          obtain ⟨segs, spans, loops, rfl, wrapped, lines⟩ := ih shorter
          refine ⟨_, _, by rw [loops]; rfl, ?_,
            wrapped.cons reaches segment.narrow blank segment.cut, ?_⟩
          · have later : ((spans.map (shift (done + gap))).map fun span =>
                slice text span.1 span.2) =
                  spans.map fun span => slice (text.drop (done + gap)) span.1 span.2 := by
              rw [List.map_map]
              exact List.map_congr_left fun span _ => slice_shift (done + gap) span
            rw [List.map_cons, later]
            rfl
          · intro seg member
            rcases List.mem_cons.mp member with rfl | member
            · exact not_mem_of_line segment.line
            · exact lines seg member

/-- `wrapForColumn` ends within a round for each byte, and loses nothing. -/
theorem wrapForColumn_right (text : Str) {width fuel : Nat} (wide : 0 < width)
    (enough : text.length ≤ fuel) :
    ∃ segs, wrapForColumn fuel text width = some segs ∧ WrapsRight text width segs := by
  obtain ⟨segs, spans, loops, cuts, wrapped, lines⟩ := wrapLoop_wraps wide fuel enough
  have wraps : wrapForColumn fuel text width = some (if segs.isEmpty then [[]] else segs) := by
    rw [wrapForColumn, loops]
    rfl
  refine ⟨_, wraps, ?_⟩
  cases empty : segs.isEmpty with
  | true =>
      -- The one segment of an empty text.
      rw [List.isEmpty_iff.mp empty] at cuts
      have none_ : spans = [] := List.map_eq_nil_iff.mp cuts.symm
      have words := wrapped.words
      have inked := wrapped.inked
      rw [none_] at words inked
      constructor
      · intro seg member
        rw [List.mem_singleton.mp member]
        exact ⟨Nat.zero_le width, fun nothing => by cases nothing⟩
      · exact inked
      · refine ⟨[(0, 0)], rfl, ⟨Nat.le_refl 0, Nat.le_refl 0, Nat.zero_le _⟩, ?_⟩
        intro start stop word short
        obtain ⟨span, member, _⟩ := words start stop word short
        cases member
  | false =>
      constructor
      · intro seg member
        refine ⟨?_, lines seg member⟩
        have member' : seg ∈ segs := member
        rw [cuts] at member'
        obtain ⟨span, found, rfl⟩ := List.mem_map.mp member'
        exact (List.length_take_le _ _).trans (wrapped.fits span found)
      · have inked := wrapped.inked
        rw [← cuts] at inked
        exact inked
      · exact ⟨spans, cuts, wrapped.ordered, wrapped.words⟩

end Kjdmud.Efun.Sprintf
