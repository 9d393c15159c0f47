import Mathlib.Data.List.Basic
import Kjdmud.Lib.Fuel

/-!
# Readers with a position, and tagged formats

A reader that works its way through a text by positions, the way code does that calls
`find` and computes the next position from what it returns.  The position is a number
that nothing keeps in order: it can move to an earlier place, and a count that was read
can ask for any amount of room.  Both are written down in the cursor as the reader goes,
and neither is ever forgotten, so the last cursor tells whether a reader was sound.
-/

namespace Kjdmud

universe u v w

/-- The position of a reader.  `reserved` counts the elements and the bytes it has asked room for, and
`backwards` is set once the position has moved to an earlier one. -/
structure Cursor where
  pos : Nat
  reserved : Nat := 0
  backwards : Bool := false

namespace Cursor

/-- The reader goes to a position. -/
def moveTo (c : Cursor) (target : Nat) : Cursor :=
  { c with pos := target, backwards := c.backwards || decide (target < c.pos) }

/-- The reader asks for room. -/
def reserve (c : Cursor) (count : Nat) : Cursor :=
  { c with reserved := c.reserved + count }

@[simp]
theorem pos_moveTo (c : Cursor) (target : Nat) : (c.moveTo target).pos = target :=
  rfl

/-- A reader has not moved back and has not asked for more than `limit`. -/
structure Sound (limit : Nat) (c : Cursor) : Prop where
  forward : c.backwards = false
  modest : c.reserved ≤ limit

/-- What a cursor has written down stays written down. -/
structure Leads (c c' : Cursor) : Prop where
  backwards : c.backwards = true → c'.backwards = true
  reserved : c.reserved ≤ c'.reserved

namespace Leads

variable {c c' c'' : Cursor} {limit : Nat}

@[refl]
theorem refl (c : Cursor) : c.Leads c :=
  ⟨id, Nat.le_refl _⟩

theorem trans (first : c.Leads c') (second : c'.Leads c'') : c.Leads c'' :=
  ⟨fun back => second.backwards (first.backwards back), Nat.le_trans first.reserved second.reserved⟩

theorem moveTo (c : Cursor) (target : Nat) : c.Leads (c.moveTo target) :=
  ⟨fun back => by rw [Cursor.moveTo, back, Bool.true_or], Nat.le_refl _⟩

theorem reserve (c : Cursor) (count : Nat) : c.Leads (c.reserve count) :=
  ⟨id, Nat.le_add_right _ _⟩

/-- A reader that ends sound was sound all the time. -/
theorem sound (leads : c.Leads c') (sound : c'.Sound limit) : c.Sound limit where
  forward := by
    cases back : c.backwards with
    | false => rfl
    | true => exact (leads.backwards back).symm.trans sound.forward
  modest := Nat.le_trans leads.reserved sound.modest

end Leads

theorem Sound.moveTo {c : Cursor} {limit target : Nat} (sound : c.Sound limit)
    (onward : c.pos ≤ target) : (c.moveTo target).Sound limit where
  forward := by
    rw [Cursor.moveTo, sound.forward, Bool.false_or]
    exact decide_eq_false (Nat.not_lt.2 onward)
  modest := sound.modest

theorem not_sound_moveTo {c : Cursor} {limit target : Nat} (back : target < c.pos) :
    ¬ (c.moveTo target).Sound limit := by
  intro sound
  have forward := sound.forward
  rw [Cursor.moveTo, decide_eq_true back, Bool.or_true] at forward
  cases forward

end Cursor

/-- What a reader function ends with within a fuel budget; an exception leaves the cursor
where it was thrown. -/
abbrev Decoded (ε : Type u) (α : Type v) : Type (max u v) :=
  Option (Except ε α × Cursor)

namespace Decoded

variable {ε : Type u} {α : Type v} {β : Type w}

/-- What follows a reader function that came to an end. -/
def resume (next : α → Cursor → Decoded ε β) : Except ε α × Cursor → Decoded ε β
  | (.ok a, c) => next a c
  | (.error e, c) => some (.error e, c)

/-- Sequencing of reader functions. -/
def andThen (first : Decoded ε α) (next : α → Cursor → Decoded ε β) : Decoded ε β :=
  first.bind (resume next)

@[simp]
theorem andThen_ok (a : α) (c : Cursor) (next : α → Cursor → Decoded ε β) :
    andThen (some (.ok a, c)) next = next a c :=
  rfl

@[simp]
theorem andThen_error (e : ε) (c : Cursor) (next : α → Cursor → Decoded ε β) :
    andThen (some (.error e, c)) next = some (.error e, c) :=
  rfl

@[simp]
theorem andThen_none (next : α → Cursor → Decoded ε β) : andThen none next = none :=
  rfl

theorem andThen_assoc {γ : Type w} (first : Decoded ε α) (next : α → Cursor → Decoded ε β)
    (last : β → Cursor → Decoded ε γ) :
    (first.andThen next).andThen last = first.andThen fun a c => (next a c).andThen last := by
  cases first with
  | none => rfl
  | some outcome =>
      obtain ⟨result, c⟩ := outcome
      cases result <;> rfl

/-- How a sequence ends: with its first part, or after it. -/
theorem andThen_eq_some {first : Decoded ε α} {next : α → Cursor → Decoded ε β}
    {r : Except ε β} {c' : Cursor} :
    andThen first next = some (r, c') ↔
      (∃ a c, first = some (.ok a, c) ∧ next a c = some (r, c')) ∨
        ∃ e, first = some (.error e, c') ∧ r = .error e := by
  cases first with
  | none => simp
  | some outcome =>
      obtain ⟨result, c⟩ := outcome
      cases result with
      | error e =>
          simp only [andThen_error, Option.some.injEq, Prod.mk.injEq]
          constructor
          · rintro ⟨rfl, rfl⟩
            exact .inr ⟨e, ⟨rfl, rfl⟩, rfl⟩
          · rintro (⟨a, c, ⟨impossible, _⟩, _⟩ | ⟨e', ⟨same, rfl⟩, rfl⟩)
            · cases impossible
            · cases same
              exact ⟨rfl, rfl⟩
      | ok a =>
          simp only [andThen_ok, Option.some.injEq, Prod.mk.injEq]
          constructor
          · intro ended
            exact .inl ⟨a, c, ⟨rfl, rfl⟩, ended⟩
          · rintro (⟨a', c₁, ⟨same, rfl⟩, ended⟩ | ⟨e, ⟨impossible, _⟩, _⟩)
            · cases same
              exact ended
            · cases impossible

/-- Read a number of times, one value behind the other. -/
def repeatRead (read : Cursor → Decoded ε α) : Nat → List α → Cursor → Decoded ε (List α)
  | 0, done, c => some (.ok done, c)
  | count + 1, done, c =>
      (read c).andThen fun a c => repeatRead read count (done ++ [a]) c

/-- A reader function forgets nothing that its cursor has written down. -/
def Keeps (c : Cursor) (decoded : Decoded ε α) : Prop :=
  ∀ r c', decoded = some (r, c') → c.Leads c'

theorem keeps_none (c : Cursor) : Keeps c (none : Decoded ε α) := by
  intro r c' ended
  cases ended

theorem keeps_some {c c' : Cursor} {r : Except ε α} (leads : c.Leads c') :
    Keeps c (some (r, c')) := by
  intro r' c'' ended
  cases ended
  exact leads

theorem Keeps.andThen {c : Cursor} {first : Decoded ε α} {next : α → Cursor → Decoded ε β}
    (keeps : Keeps c first) (keepsNext : ∀ a c', Keeps c' (next a c')) :
    Keeps c (first.andThen next) := by
  intro r c' ended
  rcases andThen_eq_some.1 ended with ⟨a, c₁, started, rest⟩ | ⟨e, started, _⟩
  · exact (keeps _ _ started).trans (keepsNext a c₁ _ _ rest)
  · exact keeps _ _ started

theorem Keeps.of_leads {c c' : Cursor} {decoded : Decoded ε α} (keeps : Keeps c' decoded)
    (leads : c.Leads c') : Keeps c decoded :=
  fun _ _ ended => leads.trans (keeps _ _ ended)

theorem keeps_repeatRead {read : Cursor → Decoded ε α} (keeps : ∀ c, Keeps c (read c))
    (count : Nat) (done : List α) (c : Cursor) : Keeps c (repeatRead read count done c) := by
  induction count generalizing done c with
  | zero => exact keeps_some (.refl c)
  | succ count inductionHypothesis =>
      exact (keeps c).andThen fun a c' => inductionHypothesis (done ++ [a]) c'

/-- An outcome that a caller can deal with: the reader was sound, and an exception is one
of those that are caught. -/
structure Good (caught : ε → Bool) (limit : Nat) (outcome : Except ε α × Cursor) : Prop where
  sound : outcome.2.Sound limit
  caught : ∀ e, outcome.1 = .error e → caught e = true

/-- No budget gives a good outcome. -/
def Breaks (caught : ε → Bool) (limit : Nat) (f : Nat → Decoded ε α) : Prop :=
  ∀ fuel outcome, f fuel = some outcome → ¬ Good caught limit outcome

variable {caught : ε → Bool} {limit : Nat}

/-- A sequence breaks with its first part. -/
theorem Breaks.andThen {f : Nat → Decoded ε α} {next : Nat → α → Cursor → Decoded ε β}
    (breaks : Breaks caught limit f) (keeps : ∀ fuel a c, Keeps c (next fuel a c)) :
    Breaks caught limit fun fuel => (f fuel).andThen (next fuel) := by
  rintro fuel ⟨r, c'⟩ ended good
  rcases andThen_eq_some.1 ended with ⟨a, c, started, rest⟩ | ⟨e, started, rfl⟩
  · refine breaks fuel _ started ⟨(keeps fuel a c _ _ rest).sound good.sound, ?_⟩
    intro e impossible
    cases impossible
  · exact breaks fuel _ started ⟨good.sound, fun e' same => good.caught e' (by cases same; rfl)⟩

/-- Nothing good comes behind an unsound cursor. -/
theorem Breaks.of_not_sound {f : Nat → Decoded ε α} {c : Cursor} (keeps : ∀ fuel, Keeps c (f fuel))
    (unsound : ¬ c.Sound limit) : Breaks caught limit f := by
  rintro fuel ⟨r, c'⟩ ended good
  exact unsound ((keeps fuel r c' ended).sound good.sound)

/-- A sequence breaks with its second part, if the first part can end in one way only. -/
theorem Breaks.after {f : Nat → Decoded ε α} {next : Nat → α → Cursor → Decoded ε β} {a : α}
    {c : Cursor} (only : ∀ fuel outcome, f fuel = some outcome → outcome = (.ok a, c))
    (breaks : Breaks caught limit fun fuel => next fuel a c) :
    Breaks caught limit fun fuel => (f fuel).andThen (next fuel) := by
  rintro fuel ⟨r, c'⟩ ended
  rcases andThen_eq_some.1 ended with ⟨a', c₁, started, rest⟩ | ⟨e, started, _⟩
  · cases only fuel _ started
    exact breaks fuel _ rest
  · cases only fuel _ started

/-- One unit of fuel is spent on the way. -/
theorem Breaks.step {f : Nat → Decoded ε α} (zero : f 0 = none)
    (breaks : Breaks caught limit fun fuel => f (fuel + 1)) : Breaks caught limit f := by
  intro fuel outcome ended
  cases fuel with
  | zero =>
      rw [zero] at ended
      cases ended
  | succ fuel => exact breaks fuel outcome ended

end Decoded

/-! ## Finding -/

section Find

variable {α : Type u} [DecidableEq α]

/-- The first position of an element from a position on. -/
def findFrom (text : List α) (a : α) (pos : Nat) : Option Nat :=
  ((text.drop pos).findIdx? (· == a)).map (pos + ·)

theorem findFrom_bounds {text : List α} {a : α} {pos i : Nat} (found : findFrom text a pos = some i) :
    pos ≤ i ∧ i < text.length := by
  obtain ⟨j, inRest, rfl⟩ := Option.map_eq_some_iff.1 found
  obtain ⟨inside, _, _⟩ := List.findIdx?_eq_some_iff_getElem.1 inRest
  rw [List.length_drop] at inside
  omega

/-- The text from a position up to what was found, or to its end. -/
def upTo (text : List α) (pos : Nat) : Option Nat → List α
  | some i => (text.drop pos).take (i - pos)
  | none => text.drop pos

/-- One past what was found; one past the position that stands for nothing found is 0. -/
def behind : Option Nat → Nat
  | some i => i + 1
  | none => 0

end Find

end Kjdmud

/-!
## Formats with counts in front

In such a format every value starts with a tag, which tells where the reader goes next
and how many values follow there that belong to this one.  Nothing is closed: values
that are nested in one another stand in a row, so a count of the values still to read is
all that a reader has to remember.

The fate of a text is found by going through that row once, building no value.  It is
compared here with recursive readers, which read the values inside one another.
-/

namespace Kjdmud.Tagged

open Fuel Decoded

universe u v w

/-- What the tag at a position tells. -/
inductive Tag
  /-- The reader refuses the text, with an exception that is caught. -/
  | refuses
  /-- The reader fails on the text otherwise. -/
  | breaks
  /-- `values` values follow at `target`, and the reader asks for `room`. -/
  | moves (target values room : Nat)
deriving DecidableEq

/-- The length of a text, how much room a reader may ask for, and what the tags tell. -/
structure Format where
  length : Nat
  limit : Nat
  tag : Nat → Tag

/-- What becomes of a reader. -/
inductive Fate
  | goesOn (pos reserved : Nat)
  | refuses
  | breaks

/-- The fate of a reader that still has `pending` values to read.  Behind the end of the
text every value reads as nothing. -/
def Format.fate (format : Format) : Nat → Nat → Nat → Fate
  | 0, pos, reserved => .goesOn pos reserved
  | pending + 1, pos, reserved =>
      if _inside : pos < format.length then
        match format.tag pos with
        | .refuses => .refuses
        | .breaks => .breaks
        | .moves target values room =>
            if _onward : pos < target then
              if reserved + room ≤ format.limit then
                format.fate (values + pending) target (reserved + room)
              else .breaks
            else .breaks
      else .goesOn pos reserved
termination_by _ pos _ => format.length - pos

variable {ε : Type u} {α : Type v} {β : Type w} {format : Format} {caught : ε → Bool}

/-- Nothing is pending. -/
theorem fate_zero (pos reserved : Nat) : format.fate 0 pos reserved = .goesOn pos reserved := by
  rw [Format.fate]

theorem fate_outside {pos : Nat} (outside : format.length ≤ pos) (pending reserved : Nat) :
    format.fate pending pos reserved = .goesOn pos reserved := by
  cases pending with
  | zero => exact fate_zero pos reserved
  | succ pending => rw [Format.fate, dif_neg (Nat.not_lt.2 outside)]

section Inside

variable {pos : Nat} (inside : pos < format.length) (pending reserved : Nat)

include inside

theorem fate_refuses (isTag : format.tag pos = .refuses) :
    format.fate (pending + 1) pos reserved = .refuses := by
  rw [Format.fate, dif_pos inside, isTag]

theorem fate_breaks (isTag : format.tag pos = .breaks) :
    format.fate (pending + 1) pos reserved = .breaks := by
  rw [Format.fate, dif_pos inside, isTag]

theorem fate_moves {target values room : Nat} (isTag : format.tag pos = .moves target values room)
    (onward : pos < target) (fits : reserved + room ≤ format.limit) :
    format.fate (pending + 1) pos reserved =
      format.fate (values + pending) target (reserved + room) := by
  rw [Format.fate, dif_pos inside]
  simp only [isTag]
  rw [dif_pos onward, if_pos fits]

theorem fate_moves_breaks {target values room : Nat}
    (isTag : format.tag pos = .moves target values room)
    (fails : ¬ (pos < target ∧ reserved + room ≤ format.limit)) :
    format.fate (pending + 1) pos reserved = .breaks := by
  rw [Format.fate, dif_pos inside]
  simp only [isTag]
  split
  · rename_i onward
    rw [if_neg fun fits => fails ⟨onward, fits⟩]
  · rfl

end Inside

/-! ## Verdicts -/

/-- How a reader of `values` values ends, as their fate predicts it; `enough` fuel is
enough for it to end. -/
inductive Verdict (format : Format) (caught : ε → Bool) (values enough : Nat)
    (f : Nat → Decoded ε α) (c : Cursor) : Prop
  | returns (a : α) (c' : Cursor) (settles : Settles enough f (.ok a, c'))
      (sound : c'.Sound format.limit) (onward : c.pos ≤ c'.pos)
      (agree : ∀ pending, format.fate (values + pending) c.pos c.reserved =
        format.fate pending c'.pos c'.reserved)
  | refuses (e : ε) (c' : Cursor) (settles : Settles enough f (.error e, c'))
      (good : caught e = true) (sound : c'.Sound format.limit)
      (agree : ∀ pending, format.fate (values + pending) c.pos c.reserved = .refuses)
  | breaks (bad : Breaks caught format.limit f)
      (agree : ∀ pending, format.fate (values + pending) c.pos c.reserved = .breaks)

namespace Verdict

variable {values values' enough enough' : Nat} {f : Nat → Decoded ε α} {c : Cursor}

theorem mono (verdict : Verdict format caught values enough f c) (le : enough ≤ enough') :
    Verdict format caught values enough' f c := by
  cases verdict with
  | returns a c' settles sound onward agree =>
      exact .returns a c' (settles.mono le) sound onward agree
  | refuses e c' settles good sound agree =>
      exact .refuses e c' (settles.mono le) good sound agree
  | breaks bad agree => exact .breaks bad agree

/-- One unit of fuel is one level of the recursion. -/
theorem step (verdict : Verdict format caught values enough (fun fuel => f (fuel + 1)) c)
    (zero : f 0 = none) : Verdict format caught values (enough + 1) f c := by
  cases verdict with
  | returns a c' settles sound onward agree =>
      exact .returns a c' (settles.step zero) sound onward agree
  | refuses e c' settles good sound agree =>
      exact .refuses e c' (settles.step zero) good sound agree
  | breaks bad agree => exact .breaks (bad.step zero) agree

/-- A reader that has nothing to read. -/
theorem nothing (a : α) (sound : c.Sound format.limit) :
    Verdict format caught 0 enough (fun _ => some (.ok a, c)) c :=
  .returns a c (.const _ _) sound (Nat.le_refl _) fun pending => by rw [Nat.zero_add]

/-- Verdicts compose along sequencing. -/
theorem andThen {next : Nat → α → Cursor → Decoded ε β}
    (first : Verdict format caught values enough f c)
    (second : ∀ a c', c'.Sound format.limit → c.pos ≤ c'.pos →
      Verdict format caught values' enough (fun fuel => next fuel a c') c')
    (keeps : ∀ fuel a c', Keeps c' (next fuel a c')) :
    Verdict format caught (values + values') enough
      (fun fuel => (f fuel).andThen (next fuel)) c := by
  have rearranged (pending : Nat) : values + values' + pending = values + (values' + pending) :=
    Nat.add_assoc _ _ _
  cases first with
  | returns a c₁ settles sound onward agree =>
      cases second a c₁ sound onward with
      | returns b c' settles' sound' onward' agree' =>
          refine .returns b c' (settles.bind (g := fun fuel => resume (next fuel)) settles') sound'
            (onward.trans onward') fun pending => ?_
          rw [rearranged, agree, agree']
      | refuses e c' settles' good' sound' agree' =>
          refine .refuses e c' (settles.bind (g := fun fuel => resume (next fuel)) settles') good'
            sound' fun pending => ?_
          rw [rearranged, agree, agree']
      | breaks bad' agree' =>
          refine .breaks (Breaks.after settles.only bad') fun pending => ?_
          rw [rearranged, agree, agree']
  | refuses e c' settles good sound agree =>
      refine .refuses e c' (settles.bind (g := fun fuel => resume (next fuel)) (.const _ _)) good
        sound fun pending => ?_
      rw [rearranged, agree]
  | breaks bad agree =>
      refine .breaks (bad.andThen keeps) fun pending => ?_
      rw [rearranged, agree]

/-- Reading the same kind of value again and again. -/
theorem repeated {read : Nat → Cursor → Decoded ε α}
    (one : ∀ c', c'.Sound format.limit → c.pos ≤ c'.pos →
      Verdict format caught values enough (fun fuel => read fuel c') c')
    (keeps : ∀ fuel c', Keeps c' (read fuel c')) (sound : c.Sound format.limit) (count : Nat)
    (done : List α) :
    Verdict format caught (count * values) enough
      (fun fuel => repeatRead (read fuel) count done c) c := by
  induction count generalizing done c with
  | zero =>
      rw [Nat.zero_mul]
      exact nothing done sound
  | succ count inductionHypothesis =>
      rw [Nat.succ_mul, Nat.add_comm]
      refine (one c sound (Nat.le_refl _)).andThen (fun a c' sound' onward => ?_)
        fun fuel a c' => keeps_repeatRead (keeps fuel) count (done ++ [a]) c'
      exact inductionHypothesis (fun c'' sound'' later => one c'' sound'' (onward.trans later))
        sound' (done ++ [a])

/-- What is read may be mapped. -/
theorem map (verdict : Verdict format caught values enough f c) (g : α → β) :
    Verdict format caught values enough
      (fun fuel => (f fuel).andThen fun a c' => some (.ok (g a), c')) c := by
  have mapped : ∀ a c', c'.Sound format.limit → c.pos ≤ c'.pos →
      Verdict format caught 0 enough (fun _ => some (.ok (g a), c')) c' :=
    fun a c' sound _ => nothing (g a) sound
  exact verdict.andThen mapped fun _ _ c' => keeps_some (.refl c')

end Verdict

/-! ## One value -/

namespace Verdict

variable {enough : Nat} {f : Nat → Decoded ε α} {c : Cursor}

/-- Behind the end of the text. -/
theorem outside (a : α) (out : format.length ≤ c.pos) (sound : c.Sound format.limit) :
    Verdict format caught 1 enough (fun _ => some (.ok a, c)) c :=
  .returns a c (.const _ _) sound (Nat.le_refl _) fun pending => by
    rw [fate_outside out, fate_outside out]

theorem refused {e : ε} {c' : Cursor} (inside : c.pos < format.length)
    (isTag : format.tag c.pos = .refuses) (good : caught e = true)
    (sound : c'.Sound format.limit) :
    Verdict format caught 1 enough (fun _ => (some (.error e, c') : Decoded ε α)) c :=
  .refuses e c' (.const _ _) good sound fun pending => by
    rw [Nat.add_comm, fate_refuses inside _ _ isTag]

theorem broken (inside : c.pos < format.length) (isTag : format.tag c.pos = .breaks)
    (bad : Breaks caught format.limit f) : Verdict format caught 1 enough f c :=
  .breaks bad fun pending => by rw [Nat.add_comm, fate_breaks inside _ _ isTag]

/-- A tag that sends the reader on, to a cursor `c'` behind which it reads what belongs to
the value. -/
theorem moved {target values room : Nat} (c' : Cursor) (inside : c.pos < format.length)
    (isTag : format.tag c.pos = .moves target values room) (isTarget : c'.pos = target)
    (isRoom : c'.reserved = c.reserved + room)
    (forward : c.pos < target → c'.backwards = false)
    (back : target ≤ c.pos → c'.backwards = true)
    (keeps : ∀ fuel, Keeps c' (f fuel))
    (rest : c'.Sound format.limit → c.pos < c'.pos → Verdict format caught values enough f c') :
    Verdict format caught 1 enough f c := by
  by_cases fine : c.pos < target ∧ c.reserved + room ≤ format.limit
  · obtain ⟨onward, fits⟩ := fine
    have sound : c'.Sound format.limit := ⟨forward onward, isRoom ▸ fits⟩
    have moves (pending : Nat) : format.fate (1 + pending) c.pos c.reserved =
        format.fate (values + pending) c'.pos c'.reserved := by
      rw [Nat.add_comm 1 pending, fate_moves inside _ _ isTag onward fits, isTarget, isRoom]
    cases rest sound (isTarget ▸ onward) with
    | returns a c'' settles sound' onward' agree =>
        refine .returns a c'' settles sound' ?_ fun pending => (moves pending).trans (agree pending)
        rw [isTarget] at onward'
        exact onward.le.trans onward'
    | refuses e c'' settles good sound' agree =>
        exact .refuses e c'' settles good sound' fun pending =>
          (moves pending).trans (agree pending)
    | breaks bad agree =>
        exact .breaks bad fun pending => (moves pending).trans (agree pending)
  · refine .breaks (Breaks.of_not_sound keeps fun sound => ?_) fun pending => by
      rw [Nat.add_comm, fate_moves_breaks inside _ _ isTag fine]
    apply fine
    refine ⟨Nat.lt_of_not_le fun le => ?_, isRoom ▸ sound.modest⟩
    have := (back le).symm.trans sound.forward
    cases this

end Verdict

/-! ## Deciding -/

/-- A reader that ends with an outcome that a caller can deal with, within so much
fuel. -/
def Total (caught : ε → Bool) (limit enough : Nat) (f : Nat → Decoded ε α) : Prop :=
  ∃ outcome, Settles enough f outcome ∧ Good caught limit outcome

/-- The fate of the values decides whether the reader is total. -/
theorem Verdict.total_iff {values enough : Nat} {f : Nat → Decoded ε α} {c : Cursor}
    (verdict : Verdict format caught values enough f c) :
    Total caught format.limit enough f ↔ format.fate values c.pos c.reserved ≠ .breaks := by
  cases verdict with
  | returns a c' settles sound onward agree =>
      refine iff_of_true ⟨_, settles, sound, nofun⟩ ?_
      have ends := agree 0
      rw [Nat.add_zero, fate_zero] at ends
      rw [ends]
      nofun
  | refuses e c' settles good sound agree =>
      refine iff_of_true ⟨_, settles, sound, fun e' same => ?_⟩ ?_
      · cases same
        exact good
      · have ends := agree 0
        rw [Nat.add_zero] at ends
        rw [ends]
        nofun
  | breaks bad agree =>
      refine iff_of_false ?_ fun fine => fine ?_
      · rintro ⟨outcome, settles, good⟩
        exact bad enough outcome (settles.ran enough (Nat.le_refl _)) good
      · have ends := agree 0
        rwa [Nat.add_zero] at ends

end Kjdmud.Tagged
