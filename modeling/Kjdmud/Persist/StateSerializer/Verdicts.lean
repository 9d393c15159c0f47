import Kjdmud.Persist.StateSerializer.Checks

/-!
# The readers of a dump end as their checks predict

The readers of the header and of the placement section always come to an end, so their
checks say all; a value is nested, and its reader ends as the tags of its text predict.
-/

namespace Kjdmud.Persist

open Fuel Decoded Tagged
open SaveVariable (colon semicolon)
open Conversion (stoll stoull stod ConversionError)
open Efun (RestoreError convert maxValues maxEntries)

/-! ## Fields -/

section Fields

variable {α : Type} {s : Str} {c : Cursor} (sound : c.Sound 0)

theorem findFirstOf_bounds {bytes : List UInt8} {pos i : Nat}
    (found : findFirstOf s bytes pos = some i) : pos ≤ i ∧ i < s.length := by
  obtain ⟨j, inRest, rfl⟩ := Option.map_eq_some_iff.1 found
  obtain ⟨inside, _, _⟩ := List.findIdx?_eq_some_iff_getElem.1 inRest
  rw [List.length_drop] at inside
  omega

include sound

theorem agrees_atMost (limit count : Nat) (a : α) :
    Agrees anyError 0 c (if limit < count then some (.error .lengthError, c) else some (.ok a, c))
      (atMost limit count a c.pos) := by
  unfold atMost
  split
  · exact .throw rfl sound
  · exact .pure a sound

theorem agrees_skip (a : α) (length : Nat) :
    Agrees anyError 0 c (some (.ok a, c.moveTo ((c.pos + length) % 2 ^ 64)))
      (skip a length c.pos) := by
  unfold skip
  split
  · rename_i back
    exact .moveBack a back
  · rename_i onward
    exact .move a sound (Nat.not_lt.1 onward)

theorem agrees_readPresent (missing : Str) (conversion : Str → Except ConversionError α)
    (delim : UInt8) :
    Agrees anyError 0 c (readPresent missing conversion delim s c)
      (checkPresent conversion delim s c.pos) := by
  unfold readPresent checkPresent
  cases found : findFrom s delim c.pos with
  | none => exact .throw rfl sound
  | some stop =>
      simp only
      cases conversion (upTo s c.pos (some stop)) with
      | error e => exact .throw rfl sound
      | ok a => exact .move a sound ((findFrom_bounds found).1.trans (Nat.le_succ stop))

variable (start : 0 < c.pos)

include start

theorem agrees_readField (conversion : Str → Except ConversionError α) (delim : UInt8) :
    Agrees anyError 0 c (readField conversion delim s c) (checkField conversion delim s c.pos) := by
  unfold readField checkField
  split
  · exact .throw rfl sound
  · simp only
    cases conversion (upTo s c.pos (findFrom s delim c.pos)) with
    | error e => exact .throw rfl sound
    | ok a =>
        cases found : findFrom s delim c.pos with
        | none => exact .moveBack a start
        | some stop => exact .move a sound ((findFrom_bounds found).1.trans (Nat.le_succ stop))

theorem agrees_readCount (limit : Nat) (delim : UInt8) :
    Agrees anyError 0 c (readCount limit delim s c) (checkCount limit delim s c.pos) :=
  (agrees_readField sound start stoull delim).andThen
    (fun count _ sound' _ => agrees_atMost sound' limit count count)
    fun count c' => keeps_atMost c' limit count count

end Fields

/-! ## Heads of values -/

section Heads

variable {s : Str} {c : Cursor} (sound : c.Sound 0)

include sound

theorem agrees_readWidth : Agrees anyError 0 c (readWidth s c) (checkWidth s c.pos) :=
  (agrees_readPresent sound _ stoll colon).map castWidth

theorem agrees_readShape : Agrees anyError 0 c (readShape s c) (checkShape s c.pos) := by
  unfold readShape checkShape
  cases found : findFirstOf s [colon, 0x77] c.pos with
  | none => exact .throw rfl sound
  | some sep =>
      simp only
      cases stoull (upTo s c.pos (some sep)) with
      | error e => exact .throw rfl sound
      | ok count =>
          have onward : c.pos ≤ sep + 1 := (findFirstOf_bounds found).1.trans (Nat.le_succ sep)
          have sound' := sound.moveTo onward
          have shape : Agrees anyError 0 (c.moveTo (sep + 1))
              (if s[sep]? = some 0x77 then
                (readWidth s (c.moveTo (sep + 1))).andThen fun width c =>
                  some (.ok (count, width), c)
              else some (.ok (count, 1), c.moveTo (sep + 1)))
              (if s[sep]? = some 0x77 then
                (checkWidth s (sep + 1)).andThen fun width pos => .goesOn (count, width) pos
              else .goesOn (count, 1) (sep + 1)) := by
            split
            · exact (agrees_readWidth sound').map fun width => (count, width)
            · exact .pure (count, 1) sound'
          have limited := shape.andThen
            (fun shape _ sound'' _ => agrees_atMost sound'' maxEntries shape.1 shape)
            fun shape c' => keeps_atMost c' maxEntries shape.1 shape
          exact limited.later onward rfl

theorem agrees_string :
    Agrees anyError 0 c
      ((Efun.deserializeLength s c).andThen fun result c =>
        some (.ok (WorldValue.string ((s.drop result.2).take result.1)),
          c.moveTo ((result.2 + result.1) % 2 ^ 64)))
      ((checkString s c.pos).andThen fun v pos => .goesOn (.string v) pos) := by
  unfold Efun.deserializeLength checkString
  simp only
  cases stoull (upTo s c.pos (findFrom s colon c.pos)) with
  | error e => exact .throw rfl sound
  | ok length =>
      simp only [convert, andThen_ok]
      split
      · rename_i back
        exact .moveBack _ back
      · rename_i onward
        exact .move _ sound (Nat.not_lt.1 onward)

theorem agrees_readClosureHead (start : 0 < c.pos) :
    Agrees anyError 0 c (readClosureHead s c) (checkClosureHead s c.pos) := by
  have keepsCount (make : Nat → ClosureHead) (c : Cursor) :
      Keeps c ((readCount maxValues semicolon s c).andThen fun argCount c =>
        some (.ok (make argCount), c)) :=
    (keeps_readCount s c maxValues semicolon).andThen fun _ c' => keeps_some (.refl c')
  have keepsName (make : Str → Nat → ClosureHead) (c : Cursor) :
      Keeps c ((readField stoull colon s c).andThen fun nameLen c =>
        (readCount maxValues semicolon s (c.moveTo ((c.pos + nameLen) % 2 ^ 64))).andThen
          fun argCount c' => some (.ok (make ((s.drop c.pos).take nameLen) argCount), c')) := by
    refine (keeps_readField s c stoull colon).andThen fun nameLen c' => ?_
    exact (keepsCount _ _).of_leads (.moveTo c' _)
  refine (agrees_readField sound start stoll semicolon).andThen (fun ownerId c₁ sound₁ le₁ => ?_)
    fun ownerId c₁ => (keeps_readField s c₁ _ semicolon).andThen
      fun forceEfun c₂ => keepsName (.mk ownerId forceEfun) c₂
  have start₁ : 0 < c₁.pos := start.trans_le le₁
  refine (agrees_readField sound₁ start₁ _ semicolon).andThen
    (fun forceEfun c₂ sound₂ le₂ => ?_) fun forceEfun c₂ => keepsName (.mk ownerId forceEfun) c₂
  have start₂ : 0 < c₂.pos := start₁.trans_le le₂
  refine (agrees_readField sound₂ start₂ stoull colon).andThen
    (fun nameLen c₃ sound₃ le₃ => ?_) fun nameLen c₃ => (keepsCount _ _).of_leads (.moveTo c₃ _)
  have start₃ : 0 < c₃.pos := start₂.trans_le le₃
  refine (agrees_skip sound₃ ((s.drop c₃.pos).take nameLen) nameLen).andThen
    (fun functionName c₄ sound₄ le₄ => ?_) fun functionName c₄ =>
      keepsCount (.mk ownerId forceEfun functionName) c₄
  exact (agrees_readCount sound₄ (start₃.trans_le le₄) maxValues semicolon).map _

end Heads

/-! ## Values -/

/-- What may be said of a value in a dump: how it ends, within as much fuel as bytes are
left, is as its tags predict. -/
def ValueVerdict (objects : ObjectOfId) (s : Str) (enough : Nat) (c : Cursor) : Prop :=
  Verdict (worldFormat s) anyError 1 enough (fun fuel => deserializeWorldValue objects s fuel c) c

section Values

variable {objects : ObjectOfId} {s : Str} {c : Cursor} {enough : Nat}

/-- `count` values behind one another. -/
theorem items_verdict {later : Nat}
    (one : ∀ c', c'.Sound 0 → later < c'.pos → ValueVerdict objects s enough c') (count : Nat)
    (sound : c.Sound 0) (after : later < c.pos) :
    Verdict (worldFormat s) anyError count enough
      (fun fuel => repeatRead (deserializeWorldValue objects s fuel) count [] c) c := by
  have items : Verdict (worldFormat s) anyError (count * 1) enough
      (fun fuel => repeatRead (deserializeWorldValue objects s fuel) count [] c) c :=
    .repeated (fun c' sound' onward => one c' sound' (after.trans_le onward))
      (fun fuel c' => keeps_deserializeWorldValue s c' objects fuel) sound count []
  rwa [Nat.mul_one] at items

/-- An entry of a mapping: a key, a value and the extra columns. -/
theorem entry_verdict {later : Nat}
    (one : ∀ c', c'.Sound 0 → later < c'.pos → ValueVerdict objects s enough c') (width : Nat)
    (sound : c.Sound 0) (after : later < c.pos) :
    Verdict (worldFormat s) anyError (2 + (width - 1)) enough
      (fun fuel => readEntry (deserializeWorldValue objects s fuel) width c) c := by
  have keepsExtra (fuel : Nat) (key value : WorldValue) (c : Cursor) :
      Keeps c ((repeatRead (deserializeWorldValue objects s fuel) (width - 1) [] c).andThen
        fun extra c' => some (.ok ((key, value), extra), c')) :=
    (keeps_repeatRead (fun c' => keeps_deserializeWorldValue s c' objects fuel) _ [] c).andThen
      fun _ c' => keeps_some (.refl c')
  rw [show 2 + (width - 1) = 1 + (1 + (width - 1)) by omega]
  refine (one c sound after).andThen (fun key c₁ sound₁ onward₁ => ?_) fun fuel key c₁ =>
    (keeps_deserializeWorldValue s c₁ objects fuel).andThen fun value => keepsExtra fuel key value
  refine (one c₁ sound₁ (after.trans_le onward₁)).andThen (fun value c₂ sound₂ onward₂ => ?_)
    fun fuel value => keepsExtra fuel key value
  exact (items_verdict one (width - 1) sound₂
    (after.trans_le (onward₁.trans onward₂))).map fun extra => ((key, value), extra)

theorem value_verdict (objects : ObjectOfId) (left : Nat) (c : Cursor)
    (bound : s.length - c.pos ≤ left) (sound : c.Sound 0) :
    ValueVerdict objects s (s.length - c.pos + 1) c := by
  induction left generalizing c with
  | zero =>
      refine Verdict.step ?_ rfl
      have out : s.length ≤ c.pos := by omega
      simp only [deserializeWorldValue, List.getElem?_eq_none out]
      exact .outside _ out sound
  | succ left inductionHypothesis =>
      refine Verdict.step ?_ rfl
      rcases Nat.lt_or_ge c.pos s.length with inside | out
      · have one (c' : Cursor) (sound' : c'.Sound 0) (later : c.pos < c'.pos) :
            ValueVerdict objects s (s.length - c.pos) c' :=
          (inductionHypothesis c' (by omega) sound').mono (by omega)
        have here : s[c.pos]? = some s[c.pos] := List.getElem?_eq_getElem inside
        have isTag : (worldFormat s).tag c.pos = worldTag s c.pos := rfl
        have sound₁ : (c.moveTo (c.pos + 1)).Sound 0 := sound.moveTo (Nat.le_succ c.pos)
        have start : 0 < (c.moveTo (c.pos + 1)).pos := Nat.succ_pos c.pos
        have field {α : Type} (conversion : Str → Except ConversionError α) :
            Agrees anyError 0 (c.moveTo (c.pos + 1))
              (readField conversion semicolon s (c.moveTo (c.pos + 1)))
              (checkField conversion semicolon s (c.pos + 1)) :=
          agrees_readField sound₁ start conversion semicolon
        simp only [deserializeWorldValue, here]
        simp only [worldTag, here] at isTag
        split_ifs at isTag ⊢ with isN isI isF isS isA isM isO isC
        · have moved : Agrees anyError 0 (c.moveTo (c.pos + 1))
              (some (.ok WorldValue.void, c.moveTo (c.pos + 1))) (.goesOn _ (c.pos + 1)) :=
            .pure WorldValue.void sound₁
          exact .atom inside moved isTag
        · exact .atom inside ((field stoll).map fun i => WorldValue.int i false)
            (isTag.trans (Checked.tag_map _ _).symm)
        · exact .atom inside ((field stod).map WorldValue.float)
            (isTag.trans (Checked.tag_map _ _).symm)
        · exact .atom inside (agrees_string sound₁) (isTag.trans (Checked.tag_map _ _).symm)
        · refine .headed inside (agrees_readCount sound₁ start maxValues colon) rfl isTag
            (fun count c' sound' later => (items_verdict one count sound' later).map _)
            fun fuel count c' => ?_
          exact (keeps_repeatRead (fun c => keeps_deserializeWorldValue s c objects fuel)
            count [] c').andThen fun _ c₂ => keeps_some (.refl c₂)
        · refine .headed inside (agrees_readShape sound₁) rfl isTag
            (fun shape c' sound' later => ?_) fun fuel shape c' => ?_
          · have rows : Verdict (worldFormat s) anyError (shape.1 * (2 + (shape.2 - 1)))
                (s.length - c.pos)
                (fun fuel => repeatRead (readEntry (deserializeWorldValue objects s fuel) shape.2)
                  shape.1 [] c') c' :=
              .repeated (fun c'' sound'' onward =>
                  entry_verdict one shape.2 sound'' (later.trans_le onward))
                (fun fuel c'' => keeps_readEntry c''
                  (fun c => keeps_deserializeWorldValue s c objects fuel) shape.2)
                sound' shape.1 []
            exact rows.map _
          · exact (keeps_repeatRead (fun c => keeps_readEntry c
              (fun c => keeps_deserializeWorldValue s c objects fuel) shape.2)
                shape.1 [] c').andThen fun _ c₂ => keeps_some (.refl c₂)
        · exact .atom inside ((field stoll).map _) (isTag.trans (Checked.tag_map _ _).symm)
        · refine .headed inside (agrees_readClosureHead sound₁ start) rfl isTag
            (fun head c' sound' later => (items_verdict one head.argCount sound' later).map _)
            fun fuel head c' => ?_
          exact (keeps_repeatRead (fun c => keeps_deserializeWorldValue s c objects fuel)
            head.argCount [] c').andThen fun _ c₂ => keeps_some (.refl c₂)
        · exact .refused inside isTag rfl sound₁
      · simp only [deserializeWorldValue, List.getElem?_eq_none out]
        exact .outside _ out sound

end Values

end Kjdmud.Persist
