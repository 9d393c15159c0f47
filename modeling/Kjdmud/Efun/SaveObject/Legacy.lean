import Kjdmud.Efun.SaveObject
import Kjdmud.Lib.Tagged

/-!
# When the reader of the older format is sound

`deserializeValue` computes its position from what `find` returns without asking whether
anything was found, and trusts every count.  Going once through the tags of a line tells
whether it comes to an end, with an exception that LPC can catch at most, without moving
back and without asking for more room than the line is long.
-/

namespace Kjdmud.Efun

open Fuel Decoded Tagged
open SaveVariable (SaveValue semicolon colon)
open Conversion (ConversionError)

/-! ## Tags -/

/-- The tag of a number. -/
def numberTag {α : Type} (conversion : Str → Except ConversionError α) (s : Str) (pos : Nat) :
    Tag :=
  let stop := findFrom s semicolon pos
  match conversion (upTo s pos stop) with
  | .ok _ => .moves (behind stop) 0 0
  | .error _ => .breaks

/-- The tag of what has a length or a count in front: its length and the position behind
the colon. -/
def lengthTag (s : Str) (pos : Nat) (tag : Nat → Nat → Tag) : Tag :=
  let stop := findFrom s colon pos
  match Conversion.stoull (upTo s pos stop) with
  | .ok length => tag length (behind stop)
  | .error _ => .breaks

/-- The tag of `count` times some values. -/
def countTag (limit values : Nat) (s : Str) (pos : Nat) : Tag :=
  lengthTag s pos fun count start =>
    if limit < count then .breaks else .moves start (count * values) count

/-- What the tag at a position tells. -/
def legacyTag (s : Str) (pos : Nat) : Tag :=
  match s[pos]? with
  | none => .refuses
  | some kind =>
      if kind = 0x4e then .moves (pos + 1) 0 0
      else if kind = 0x49 then numberTag Conversion.stoll s (pos + 1)
      else if kind = 0x46 then numberTag Conversion.stod s (pos + 1)
      else if kind = 0x53 then
        lengthTag s (pos + 1) fun length start =>
          .moves ((start + length) % 2 ^ 64) 0 ((s.drop start).take length).length
      else if kind = 0x41 then countTag maxValues 1 s (pos + 1)
      else if kind = 0x4d then countTag maxEntries 2 s (pos + 1)
      else .refuses

/-- A line in the older format, and how much room its reader may ask for. -/
def legacyFormat (limit : Nat) (s : Str) : Format where
  length := s.length
  limit := limit
  tag := legacyTag s

/-! ## The reader keeps what its cursor has written down -/

theorem keeps_convert {α : Type} (converted : Except ConversionError α) (c : Cursor) :
    Keeps c (convert converted c) := by
  cases converted <;> exact keeps_some (.refl c)

theorem keeps_deserializeNumber {α : Type} (conversion : Str → Except ConversionError α)
    (s : Str) (c : Cursor) : Keeps c (deserializeNumber conversion s c) :=
  (keeps_convert _ c).andThen fun _ c' => keeps_some (.moveTo c' _)

theorem keeps_deserializeLength (s : Str) (c : Cursor) :
    Keeps c (deserializeLength s c) :=
  (keeps_convert _ c).andThen fun _ c' => keeps_some (.refl c')

theorem keeps_deserializeCount (limit : Nat) (s : Str) (c : Cursor) :
    Keeps c (deserializeCount limit s c) := by
  refine (keeps_deserializeLength s c).andThen fun (count, start) c' => ?_
  have leads : c'.Leads ((c'.moveTo start).reserve count) :=
    (Cursor.Leads.moveTo c' start).trans (.reserve _ count)
  show Keeps c' (if limit < count then _ else _)
  split <;> exact keeps_some leads

theorem keeps_deserializeEntry {read : Cursor → Decoded RestoreError SaveValue}
    (keeps : ∀ c, Keeps c (read c)) (c : Cursor) : Keeps c (deserializeEntry read c) :=
  (keeps c).andThen fun _ c' => (keeps c').andThen fun _ c'' => keeps_some (.refl c'')

theorem keeps_deserializeValue (fuel : Nat) (s : Str) (c : Cursor) :
    Keeps c (deserializeValue fuel s c) := by
  induction fuel generalizing c with
  | zero => exact keeps_none c
  | succ fuel inductionHypothesis =>
      rw [deserializeValue]
      cases s[c.pos]? with
      | none => exact keeps_some (.refl c)
      | some kind =>
          refine Keeps.of_leads ?_ (.moveTo c (c.pos + 1))
          simp only
          split
          · exact keeps_some (.refl _)
          split
          · exact (keeps_deserializeNumber _ s _).andThen fun _ c' => keeps_some (.refl c')
          split
          · exact (keeps_deserializeNumber _ s _).andThen fun _ c' => keeps_some (.refl c')
          split
          · exact (keeps_deserializeLength s _).andThen fun _ c' =>
              keeps_some ((Cursor.Leads.reserve c' _).trans (.moveTo _ _))
          split
          · exact (keeps_deserializeCount _ s _).andThen fun count c' =>
              (keeps_repeatRead inductionHypothesis count [] c').andThen
                fun _ c'' => keeps_some (.refl c'')
          split
          · exact (keeps_deserializeCount _ s _).andThen fun count c' =>
              (keeps_repeatRead (keeps_deserializeEntry inductionHypothesis) count [] c').andThen
                fun _ c'' => keeps_some (.refl c'')
          · exact keeps_some (.refl _)

/-! ## The tags predict the reader -/

variable {limit : Nat} {s : Str} {c : Cursor} {enough : Nat}

/-- An exception that is not caught. -/
theorem breaks_error {α : Type} {e : RestoreError} (uncaught : e.trappable = false)
    (limit : Nat) (c : Cursor) :
    Breaks RestoreError.trappable limit
      (fun _ => (some (.error e, c) : Decoded RestoreError α)) := by
  intro fuel outcome ended good
  cases ended
  have caught := good.caught e rfl
  rw [uncaught] at caught
  cases caught

theorem trappable_ofConversion (e : ConversionError) :
    (RestoreError.ofConversion e).trappable = false := by
  cases e <;> rfl

theorem backwards_moveTo (forward : c.backwards = false) (target : Nat) :
    ((c.moveTo (c.pos + 1)).moveTo target).backwards = decide (target ≤ c.pos) := by
  have advanced : decide (c.pos + 1 < c.pos) = false :=
    decide_eq_false (Nat.not_lt.2 (Nat.le_succ _))
  simp only [Cursor.moveTo, forward, advanced, Bool.false_or, Nat.lt_succ_iff]

/-- What may be said of a value in a line: how it ends, within as much fuel as bytes are
left, is as its tags predict. -/
def ValueVerdict (limit : Nat) (s : Str) (c : Cursor) : Prop :=
  Verdict (legacyFormat limit s) RestoreError.trappable 1 (s.length - c.pos + 1)
    (fun fuel => deserializeValue fuel s c) c

theorem number_verdict {α : Type} {conversion : Str → Except ConversionError α}
    {make : α → SaveValue} (inside : c.pos < s.length) (sound : c.Sound limit)
    (isTag : legacyTag s c.pos = numberTag conversion s (c.pos + 1)) :
    Verdict (legacyFormat limit s) RestoreError.trappable 1 enough
      (fun _ => (deserializeNumber conversion s (c.moveTo (c.pos + 1))).andThen fun a c =>
        some (.ok (make a), c)) c := by
  unfold deserializeNumber convert
  unfold numberTag at isTag
  simp only [Cursor.pos_moveTo]
  cases converted : conversion (upTo s (c.pos + 1) (findFrom s semicolon (c.pos + 1))) with
  | error e =>
      simp only [converted] at isTag
      exact .broken inside isTag (breaks_error (trappable_ofConversion e) _ _)
  | ok a =>
      simp only [converted] at isTag
      simp only [andThen_ok]
      have back := backwards_moveTo sound.forward (behind (findFrom s semicolon (c.pos + 1)))
      refine .moved ((c.moveTo (c.pos + 1)).moveTo _) inside isTag rfl rfl (fun onward => ?_)
        (fun le => ?_) (fun _ => keeps_some (.refl _)) fun sound' _ => .nothing _ sound'
      · refine back.trans ?_
        exact decide_eq_false (Nat.not_le.2 onward)
      · refine back.trans ?_
        exact decide_eq_true le

theorem string_verdict (inside : c.pos < s.length) (sound : c.Sound limit)
    (isTag : legacyTag s c.pos = lengthTag s (c.pos + 1) fun length start =>
      .moves ((start + length) % 2 ^ 64) 0 ((s.drop start).take length).length) :
    Verdict (legacyFormat limit s) RestoreError.trappable 1 enough
      (fun _ => (deserializeLength s (c.moveTo (c.pos + 1))).andThen fun result c =>
        some (.ok (SaveValue.string ((s.drop result.2).take result.1)),
          (c.reserve ((s.drop result.2).take result.1).length).moveTo
            ((result.2 + result.1) % 2 ^ 64))) c := by
  unfold deserializeLength convert
  unfold lengthTag at isTag
  simp only [Cursor.pos_moveTo]
  cases converted : Conversion.stoull
      (upTo s (c.pos + 1) (findFrom s colon (c.pos + 1))) with
  | error e =>
      simp only [converted] at isTag
      exact .broken inside isTag (breaks_error (trappable_ofConversion e) _ _)
  | ok length =>
      simp only [converted] at isTag
      have back := backwards_moveTo sound.forward
        ((behind (findFrom s colon (c.pos + 1)) + length) % 2 ^ 64)
      refine .moved (((c.moveTo (c.pos + 1)).reserve _).moveTo _) inside isTag rfl rfl
        (fun onward => ?_) (fun le => ?_) (fun _ => keeps_some (.refl _))
        fun sound' _ => .nothing _ sound'
      · refine back.trans ?_
        exact decide_eq_false (Nat.not_le.2 onward)
      · refine back.trans ?_
        exact decide_eq_true le

/-- An array or a mapping, whose elements are read by `read`. -/
theorem aggregate_verdict {α : Type} {most values : Nat}
    {read : Nat → Cursor → Decoded RestoreError α} {make : List α → SaveValue}
    (inside : c.pos < s.length) (sound : c.Sound limit)
    (isTag : legacyTag s c.pos = countTag most values s (c.pos + 1))
    (keeps : ∀ fuel c', Keeps c' (read fuel c'))
    (one : ∀ c', c'.Sound limit → c.pos < c'.pos →
      Verdict (legacyFormat limit s) RestoreError.trappable values enough
        (fun fuel => read fuel c') c') :
    Verdict (legacyFormat limit s) RestoreError.trappable 1 enough
      (fun fuel => (deserializeCount most s (c.moveTo (c.pos + 1))).andThen fun count c =>
        (repeatRead (read fuel) count [] c).andThen fun elements c =>
          some (.ok (make elements), c)) c := by
  unfold deserializeCount deserializeLength convert
  unfold countTag lengthTag at isTag
  simp only [Cursor.pos_moveTo]
  cases converted : Conversion.stoull
      (upTo s (c.pos + 1) (findFrom s colon (c.pos + 1))) with
  | error e =>
      simp only [converted] at isTag
      exact .broken inside isTag (breaks_error (trappable_ofConversion e) _ _)
  | ok count =>
      simp only [converted] at isTag
      simp only [andThen_ok]
      by_cases tooLong : most < count
      · simp only [if_pos tooLong] at isTag ⊢
        exact .broken inside isTag (breaks_error rfl _ _)
      · simp only [if_neg tooLong] at isTag ⊢
        have back := backwards_moveTo sound.forward (behind (findFrom s colon (c.pos + 1)))
        refine .moved (((c.moveTo (c.pos + 1)).moveTo _).reserve _) inside isTag rfl rfl
          (fun onward => ?_) (fun le => ?_) (fun fuel => (keeps_repeatRead (keeps fuel) count [] _).andThen
            fun _ c' => keeps_some (.refl c')) fun sound' later => ?_
        · refine back.trans ?_
          exact decide_eq_false (Nat.not_le.2 onward)
        · refine back.trans ?_
          exact decide_eq_true le
        · exact (Verdict.repeated (fun c' sound'' later' => one c' sound'' (later.trans_le later'))
            keeps sound' count []).map make

/-- The tags predict how the reader of a value ends, wherever it is entered. -/
theorem value_verdict (left : Nat) (c : Cursor) (bound : s.length - c.pos ≤ left)
    (sound : c.Sound limit) : ValueVerdict limit s c := by
  induction left generalizing c with
  | zero =>
      refine Verdict.step ?_ rfl
      have out : s.length ≤ c.pos := by omega
      simp only [deserializeValue, List.getElem?_eq_none out]
      exact .outside _ out sound
  | succ left inductionHypothesis =>
      refine Verdict.step ?_ rfl
      rcases Nat.lt_or_ge c.pos s.length with inside | out
      · have later (c' : Cursor) (sound' : c'.Sound limit) (later : c.pos < c'.pos) :
            Verdict (legacyFormat limit s) RestoreError.trappable 1 (s.length - c.pos)
              (fun fuel => deserializeValue fuel s c') c' :=
          (inductionHypothesis c' (by omega) sound').mono (by omega)
        have entry (c' : Cursor) (sound' : c'.Sound limit) (after : c.pos < c'.pos) :
            Verdict (legacyFormat limit s) RestoreError.trappable 2 (s.length - c.pos)
              (fun fuel => deserializeEntry (deserializeValue fuel s) c') c' := by
          unfold deserializeEntry
          refine Verdict.andThen (later c' sound' after) (fun key c'' sound'' onward =>
            (later c'' sound'' (after.trans_le onward)).map fun value => (key, value))
            fun fuel key c'' => ?_
          exact (keeps_deserializeValue fuel s c'').andThen fun _ c₃ => keeps_some (.refl c₃)
        have here : s[c.pos]? = some s[c.pos] := List.getElem?_eq_getElem inside
        have isTag : (legacyFormat limit s).tag c.pos = legacyTag s c.pos := rfl
        simp only [deserializeValue, here]
        simp only [legacyTag, here] at isTag
        split_ifs at isTag ⊢ with isN isI isF isS isA isM
        · refine .moved (c.moveTo (c.pos + 1)) inside isTag rfl rfl (fun _ => ?_) (fun le => ?_)
            (fun _ => keeps_some (.refl _)) fun sound' _ => .nothing _ sound'
          · exact (sound.moveTo (Nat.le_succ c.pos)).forward
          · exact absurd le (Nat.not_le.2 (Nat.lt_succ_self c.pos))
        · exact number_verdict inside sound isTag
        · exact number_verdict inside sound isTag
        · exact string_verdict inside sound isTag
        · exact aggregate_verdict inside sound isTag
            (fun fuel c' => keeps_deserializeValue fuel s c') later
        · exact aggregate_verdict inside sound isTag
            (fun fuel c' => keeps_deserializeEntry (keeps_deserializeValue fuel s) c') entry
        · exact .refused inside isTag rfl (sound.moveTo (Nat.le_succ c.pos))
      · simp only [deserializeValue, List.getElem?_eq_none out]
        exact .outside _ out sound

end Kjdmud.Efun
