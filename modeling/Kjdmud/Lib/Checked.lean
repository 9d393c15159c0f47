import Kjdmud.Lib.Tagged

/-!
# Readers of a fixed shape

The reader of a header reads one field behind the other, and each field tells where the
next one starts.  Its text can be checked with positions alone: the check either refuses
the text where the reader throws, or breaks where the position of the reader would move
back, or goes on with what was read.  Readers of values can start with such a reader.
-/

namespace Kjdmud.Tagged

open Fuel Decoded

universe u v w

/-- How the check of a text ends. -/
inductive Checked (α : Type v)
  | refuses
  | breaks
  | goesOn (a : α) (pos : Nat)
deriving DecidableEq

namespace Checked

variable {α : Type v} {β : Type w}

/-- Checks behind one another. -/
def andThen (first : Checked α) (next : α → Nat → Checked β) : Checked β :=
  match first with
  | .refuses => .refuses
  | .breaks => .breaks
  | .goesOn a pos => next a pos

/-- A check again and again. -/
def repeatCheck (check : Nat → Checked α) : Nat → List α → Nat → Checked (List α)
  | 0, done, pos => .goesOn done pos
  | count + 1, done, pos =>
      (check pos).andThen fun a pos => repeatCheck check count (done ++ [a]) pos

/-- The tag of a value that starts with what was checked. -/
def tag (values : α → Nat) : Checked α → Tag
  | .refuses => .refuses
  | .breaks => .breaks
  | .goesOn a pos => .moves pos (values a) 0

end Checked

variable {ε : Type u} {α : Type v} {β : Type w} {caught : ε → Bool} {limit : Nat}

/-- A reader ends as its check predicts. -/
inductive Agrees (caught : ε → Bool) (limit : Nat) (c : Cursor) (decoded : Decoded ε α) :
    Checked α → Prop
  | refuses (e : ε) (c' : Cursor) (ended : decoded = some (.error e, c'))
      (good : caught e = true) (sound : c'.Sound limit) : Agrees caught limit c decoded .refuses
  | breaks (bad : ∀ outcome, decoded = some outcome → ¬ Good caught limit outcome) :
      Agrees caught limit c decoded .breaks
  | goesOn (a : α) (c' : Cursor) (ended : decoded = some (.ok a, c')) (sound : c'.Sound limit)
      (onward : c.pos ≤ c'.pos) (reserved : c'.reserved = c.reserved) :
      Agrees caught limit c decoded (.goesOn a c'.pos)

namespace Agrees

variable {c : Cursor} {decoded : Decoded ε α} {checked : Checked α}

/-- A reader that goes on without a look at the text. -/
theorem pure (a : α) (sound : c.Sound limit) :
    Agrees caught limit c (some (.ok a, c)) (.goesOn a c.pos) :=
  .goesOn a c rfl sound (Nat.le_refl _) rfl

theorem throw {e : ε} (good : caught e = true) (sound : c.Sound limit) :
    Agrees caught limit c (some (.error e, c) : Decoded ε α) .refuses :=
  .refuses e c rfl good sound

/-- A reader that moves on. -/
theorem move (a : α) {target : Nat} (sound : c.Sound limit) (onward : c.pos ≤ target) :
    Agrees caught limit c (some (.ok a, c.moveTo target)) (.goesOn a target) :=
  .goesOn a (c.moveTo target) rfl (sound.moveTo onward) onward rfl

/-- A reader that moves back. -/
theorem moveBack (a : α) {target : Nat} (back : target < c.pos) :
    Agrees caught limit c (some (.ok a, c.moveTo target)) .breaks := by
  refine .breaks fun outcome ended good => ?_
  cases ended
  exact Cursor.not_sound_moveTo back good.sound

/-- A reader that has moved on. -/
theorem later {c' : Cursor} (agrees : Agrees caught limit c' decoded checked)
    (onward : c.pos ≤ c'.pos) (reserved : c'.reserved = c.reserved) :
    Agrees caught limit c decoded checked := by
  cases agrees with
  | refuses e c'' ended good sound => exact .refuses e c'' ended good sound
  | breaks bad => exact .breaks bad
  | goesOn a c'' ended sound onward' reserved' =>
      exact .goesOn a c'' ended sound (onward.trans onward') (reserved'.trans reserved)

/-- Agreement composes along sequencing. -/
theorem andThen {next : α → Cursor → Decoded ε β} {check : α → Nat → Checked β}
    (first : Agrees caught limit c decoded checked)
    (second : ∀ a c', c'.Sound limit → c.pos ≤ c'.pos →
      Agrees caught limit c' (next a c') (check a c'.pos))
    (keeps : ∀ a c', Keeps c' (next a c')) :
    Agrees caught limit c (decoded.andThen next) (checked.andThen check) := by
  cases first with
  | refuses e c' ended good sound =>
      exact .refuses e c' (by rw [ended, andThen_error]) good sound
  | breaks bad =>
      refine .breaks fun outcome ended good => ?_
      obtain ⟨r, c'⟩ := outcome
      rcases andThen_eq_some.1 ended with ⟨a, c₁, started, rest⟩ | ⟨e, started, rfl⟩
      · refine bad _ started ⟨(keeps a c₁ _ _ rest).sound good.sound, ?_⟩
        intro e impossible
        cases impossible
      · refine bad _ started ⟨good.sound, fun e' same => good.caught e' ?_⟩
        cases same
        rfl
  | goesOn a c₁ ended sound onward reserved =>
      rw [ended, andThen_ok]
      have rest := second a c₁ sound onward
      show Agrees caught limit c (next a c₁) (check a c₁.pos)
      generalize check a c₁.pos = result at rest
      cases rest with
      | refuses e c' ended' good sound' => exact .refuses e c' ended' good sound'
      | breaks bad => exact .breaks bad
      | goesOn b c' ended' sound' onward' reserved' =>
          exact .goesOn b c' ended' sound' (onward.trans onward') (reserved'.trans reserved)

/-- What is read may be mapped. -/
theorem map (agrees : Agrees caught limit c decoded checked) (g : α → β) :
    Agrees caught limit c (decoded.andThen fun a c' => some (.ok (g a), c'))
      (checked.andThen fun a pos => .goesOn (g a) pos) :=
  agrees.andThen (fun a _ sound _ => .pure (g a) sound) fun _ c' => keeps_some (.refl c')

/-- Reading the same shape again and again. -/
theorem repeated {read : Cursor → Decoded ε α} {check : Nat → Checked α}
    (one : ∀ c', c'.Sound limit → c.pos ≤ c'.pos → Agrees caught limit c' (read c') (check c'.pos))
    (keeps : ∀ c', Keeps c' (read c')) (sound : c.Sound limit) (count : Nat) (done : List α) :
    Agrees caught limit c (repeatRead read count done c)
      (Checked.repeatCheck check count done c.pos) := by
  induction count generalizing done c with
  | zero => exact .pure done sound
  | succ count inductionHypothesis =>
      refine (one c sound (Nat.le_refl _)).andThen (fun a c' sound' onward => ?_)
        fun a c' => keeps_repeatRead keeps count (done ++ [a]) c'
      exact inductionHypothesis (fun c'' sound'' later => one c'' sound'' (onward.trans later))
        sound' (done ++ [a])

end Agrees

/-- A value that starts with something of a fixed shape. -/
theorem Verdict.headed {format : Format} {enough : Nat} {c start : Cursor}
    {head : Decoded ε α} {checked : Checked α} {values : α → Nat}
    {next : Nat → α → Cursor → Decoded ε β} (inside : c.pos < format.length)
    (agrees : Agrees caught format.limit start head checked)
    (isStart : start = c.moveTo (c.pos + 1))
    (isTag : format.tag c.pos = checked.tag values)
    (rest : ∀ a c', c'.Sound format.limit → c.pos < c'.pos →
      Verdict format caught (values a) enough (fun fuel => next fuel a c') c')
    (keeps : ∀ fuel a c', Keeps c' (next fuel a c')) :
    Verdict format caught 1 enough (fun fuel => head.andThen (next fuel)) c := by
  subst isStart
  cases agrees with
  | refuses e c' ended good sound =>
      rw [ended]
      exact .refused inside isTag good sound
  | breaks bad =>
      refine .broken inside isTag fun fuel outcome ended good => ?_
      obtain ⟨r, c'⟩ := outcome
      rcases andThen_eq_some.1 ended with ⟨a, c₁, started, later⟩ | ⟨e, started, rfl⟩
      · refine bad _ started ⟨(keeps fuel a c₁ _ _ later).sound good.sound, ?_⟩
        intro e impossible
        cases impossible
      · refine bad _ started ⟨good.sound, fun e' same => good.caught e' ?_⟩
        cases same
        rfl
  | goesOn a c' ended sound onward reserved =>
      have later : c.pos < c'.pos := onward
      rw [ended]
      refine .moved c' inside isTag rfl reserved (fun _ => sound.forward)
        (fun le => absurd le (Nat.not_le.2 later)) (fun fuel => keeps fuel a c') ?_
      intro sound' _
      exact rest a c' sound' later

/-- A value that is nothing but something of a fixed shape. -/
theorem Verdict.atom {format : Format} {enough : Nat} {c : Cursor} {decoded : Decoded ε α}
    {checked : Checked α} (inside : c.pos < format.length)
    (agrees : Agrees caught format.limit (c.moveTo (c.pos + 1)) decoded checked)
    (isTag : format.tag c.pos = checked.tag fun _ => 0) :
    Verdict format caught 1 enough (fun _ => decoded) c := by
  have whole : decoded.andThen (fun a c' => some (.ok a, c')) = decoded := by
    cases decoded with
    | none => rfl
    | some outcome =>
        obtain ⟨result, c'⟩ := outcome
        cases result <;> rfl
  have headed : Verdict format caught 1 enough
      (fun _ => decoded.andThen fun a c' => some (.ok a, c')) c :=
    .headed inside agrees rfl isTag (fun a c' sound _ => .nothing a sound)
      fun _ _ c' => keeps_some (.refl c')
  rwa [whole] at headed

theorem Checked.tag_map (checked : Checked α) (g : α → β) :
    (checked.andThen fun a pos => .goesOn (g a) pos).tag (fun _ => 0) =
      checked.tag fun _ => 0 := by
  cases checked <;> rfl

end Kjdmud.Tagged
