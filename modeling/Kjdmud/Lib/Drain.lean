import Mathlib.Order.Nat
import Mathlib.Data.List.Basic

/-!
# Draining a buffer with a pull reader

A pull reader takes one item off the front of a buffer when the whole item is
there and otherwise waits for more input.  Draining applies it until it waits,
or until it has read an item that ends the input.  What has been drained does
not depend on how the input was cut: draining two pieces one after the other,
with what the first left standing in front of the second, is draining their
concatenation.
-/

namespace Kjdmud.Drain

universe u v

/-- A reader of items off the front of a buffer.  An item shrinks the buffer,
and is read the same way whatever follows it. -/
structure Reader (β : Type u) (α : Type v) where
  read : List β → Option (α × List β)
  shrinks : ∀ {buffer item rest}, read buffer = some (item, rest) →
    rest.length < buffer.length
  stable : ∀ {buffer item rest} (more : List β), read buffer = some (item, rest) →
    read (buffer ++ more) = some (item, rest ++ more)

namespace Reader

variable {β : Type u} {α : Type v} (reader : Reader β α) (stop : α → Bool)

/-- At most `budget` items read off the buffer, and what is left of it. -/
def drainFrom : Nat → List β → List α × List β
  | 0, buffer => ([], buffer)
  | budget + 1, buffer =>
      match reader.read buffer with
      | none => ([], buffer)
      | some (item, rest) =>
          if stop item then ([item], rest)
          else
            let drained := drainFrom budget rest
            (item :: drained.1, drained.2)

/-- Every item read off the buffer, and what is left of it.  Each item takes
at least one element, so the length of the buffer bounds their number. -/
def drain (buffer : List β) : List α × List β :=
  reader.drainFrom stop buffer.length buffer

/-- The items were ended by one that stops the input. -/
def Stopped (items : List α) : Prop :=
  ∃ item ∈ items, stop item

/-- The buffers at whose front an item is looked for while one is drained. -/
inductive Front : List β → List β → Prop
  | here (buffer : List β) : Front buffer buffer
  | next {buffer : List β} {item : α} {rest front : List β}
      (read : reader.read buffer = some (item, rest)) (goes : stop item = false)
      (later : Front rest front) : Front buffer front

variable {reader stop}

attribute [local simp] drainFrom

/-- A budget that covers the buffer is as good as its length. -/
theorem drainFrom_eq_drain : ∀ {budget : Nat} {buffer : List β},
    buffer.length ≤ budget → reader.drainFrom stop budget buffer = reader.drain stop buffer := by
  have agree : ∀ (first second : Nat) (buffer : List β),
      buffer.length ≤ first → buffer.length ≤ second →
      reader.drainFrom stop first buffer = reader.drainFrom stop second buffer := by
    intro first
    induction first with
    | zero =>
        intro second buffer small _
        have empty : buffer = [] := List.length_eq_zero_iff.mp (by omega)
        subst empty
        cases second with
        | zero => rfl
        | succ second =>
            have waits : reader.read [] = none := by
              cases read : reader.read [] with
              | none => rfl
              | some result => exact absurd (reader.shrinks read) (by simp)
            simp only [drainFrom, waits]
    | succ first inductionHypothesis =>
        intro second buffer firstCovers secondCovers
        cases second with
        | zero =>
            have empty : buffer = [] := List.length_eq_zero_iff.mp (by omega)
            subst empty
            have waits : reader.read [] = none := by
              cases read : reader.read [] with
              | none => rfl
              | some result => exact absurd (reader.shrinks read) (by simp)
            simp only [drainFrom, waits]
        | succ second =>
            simp only [drainFrom]
            cases read : reader.read buffer with
            | none => rfl
            | some result =>
                have shorter := reader.shrinks read
                have same := inductionHypothesis second result.2 (by omega) (by omega)
                simp only [same]
  intro budget buffer covers
  exact agree budget buffer.length buffer covers le_rfl

/-- Draining an empty buffer, or any whose first item is not complete. -/
theorem drain_of_waits {buffer : List β} (waits : reader.read buffer = none) :
    reader.drain stop buffer = ([], buffer) := by
  unfold drain
  cases buffer.length with
  | zero => rfl
  | succ budget => simp only [drainFrom, waits]

/-- The item that stops the input is the last one drained. -/
theorem drain_of_stops {buffer rest : List β} {item : α}
    (read : reader.read buffer = some (item, rest)) (stops : stop item = true) :
    reader.drain stop buffer = ([item], rest) := by
  have shorter := reader.shrinks read
  unfold drain
  cases length : buffer.length with
  | zero => omega
  | succ budget => simp only [drainFrom, read, stops, if_true]

/-- An item that does not stop the input is followed by draining the rest. -/
theorem drain_of_reads {buffer rest : List β} {item : α}
    (read : reader.read buffer = some (item, rest)) (goes : stop item = false) :
    reader.drain stop buffer =
      (item :: (reader.drain stop rest).1, (reader.drain stop rest).2) := by
  have shorter := reader.shrinks read
  have whole : reader.drain stop buffer = reader.drainFrom stop buffer.length buffer := rfl
  cases length : buffer.length with
  | zero => omega
  | succ budget =>
      have enough : reader.drainFrom stop budget rest = reader.drain stop rest :=
        drainFrom_eq_drain (by omega)
      simp only [whole, length, drainFrom, read, goes, Bool.false_eq_true, if_false, enough]

variable (reader stop) in
/-- Induction along a drain: the reader waits, or reads the last item, or reads
an item and goes on with a shorter buffer. -/
theorem drain_induction {motive : List β → Prop}
    (waits : ∀ buffer, reader.read buffer = none → motive buffer)
    (stops : ∀ buffer item rest, reader.read buffer = some (item, rest) →
      stop item = true → motive buffer)
    (reads : ∀ buffer item rest, reader.read buffer = some (item, rest) →
      stop item = false → motive rest → motive buffer)
    (buffer : List β) : motive buffer := by
  induction length : buffer.length using Nat.strongRecOn generalizing buffer with
  | _ n inductionHypothesis =>
      cases read : reader.read buffer with
      | none => exact waits buffer read
      | some result =>
          obtain ⟨item, rest⟩ := result
          cases goes : stop item with
          | true => exact stops buffer item rest read goes
          | false =>
              have shorter := reader.shrinks read
              exact reads buffer item rest read goes
                (inductionHypothesis rest.length (by omega) rest rfl)

/-- Items that stopped the input are the items of every longer input. -/
theorem drain_append_of_stopped {buffer : List β} (more : List β)
    (stopped : Stopped stop (reader.drain stop buffer).1) :
    reader.drain stop (buffer ++ more) =
      ((reader.drain stop buffer).1, (reader.drain stop buffer).2 ++ more) := by
  induction buffer using drain_induction reader stop with
  | waits buffer read =>
      rw [drain_of_waits read] at stopped
      obtain ⟨item, mem, _⟩ := stopped
      contradiction
  | stops buffer item rest read stops =>
      rw [drain_of_stops read stops, drain_of_stops (reader.stable more read) stops]
  | reads buffer item rest read goes inductionHypothesis =>
      rw [drain_of_reads read goes] at stopped ⊢
      rw [drain_of_reads (reader.stable more read) goes]
      obtain ⟨last, mem, stops⟩ := stopped
      have later : Stopped stop (reader.drain stop rest).1 := by
        rcases List.mem_cons.mp mem with rfl | mem
        · rw [goes] at stops
          contradiction
        · exact ⟨last, mem, stops⟩
      rw [inductionHypothesis later]

/-- Draining in two pieces, the rest of the first in front of the second, is
draining both at once. -/
theorem drain_append {buffer : List β} (more : List β)
    (goesOn : ¬ Stopped stop (reader.drain stop buffer).1) :
    reader.drain stop (buffer ++ more) =
      ((reader.drain stop buffer).1 ++
          (reader.drain stop ((reader.drain stop buffer).2 ++ more)).1,
        (reader.drain stop ((reader.drain stop buffer).2 ++ more)).2) := by
  induction buffer using drain_induction reader stop with
  | waits buffer read =>
      rw [drain_of_waits read]
      rfl
  | stops buffer item rest read stops =>
      rw [drain_of_stops read stops] at goesOn
      exact absurd ⟨item, List.mem_singleton_self item, stops⟩ goesOn
  | reads buffer item rest read goes inductionHypothesis =>
      rw [drain_of_reads read goes] at goesOn ⊢
      have later : ¬ Stopped stop (reader.drain stop rest).1 := by
        rintro ⟨last, mem, stops⟩
        exact goesOn ⟨last, List.mem_cons_of_mem _ mem, stops⟩
      rw [drain_of_reads (reader.stable more read) goes, inductionHypothesis later]
      rfl

/-- What is looked at while a piece is drained is looked at, with more behind
it, while the whole is. -/
theorem Front.append {buffer front : List β} (more : List β)
    (reached : reader.Front stop buffer front) :
    reader.Front stop (buffer ++ more) (front ++ more) := by
  induction reached with
  | here buffer => exact .here _
  | next read goes _ inductionHypothesis =>
      exact .next (reader.stable more read) goes inductionHypothesis

/-- Fronts compose. -/
theorem Front.trans {first second third : List β}
    (left : reader.Front stop first second) (right : reader.Front stop second third) :
    reader.Front stop first third := by
  induction left with
  | here _ => exact right
  | next read goes _ inductionHypothesis => exact .next read goes (inductionHypothesis right)

/-- What an unstopped drain leaves is a front of the buffer. -/
theorem Front.left {buffer : List β}
    (goesOn : ¬ Stopped stop (reader.drain stop buffer).1) :
    reader.Front stop buffer (reader.drain stop buffer).2 := by
  induction buffer using drain_induction reader stop with
  | waits buffer read =>
      rw [drain_of_waits read]
      exact .here buffer
  | stops buffer item rest read stops =>
      rw [drain_of_stops read stops] at goesOn
      exact absurd ⟨item, List.mem_singleton_self item, stops⟩ goesOn
  | reads buffer item rest read goes inductionHypothesis =>
      rw [drain_of_reads read goes] at goesOn ⊢
      refine .next read goes (inductionHypothesis ?_)
      rintro ⟨last, mem, stops⟩
      exact goesOn ⟨last, List.mem_cons_of_mem _ mem, stops⟩

/-- What a drain leaves without having been stopped is not a complete item. -/
theorem read_left_eq_none {buffer : List β}
    (goesOn : ¬ Stopped stop (reader.drain stop buffer).1) :
    reader.read (reader.drain stop buffer).2 = none := by
  induction buffer using drain_induction reader stop with
  | waits buffer read =>
      rw [drain_of_waits read]
      exact read
  | stops buffer item rest read stops =>
      rw [drain_of_stops read stops] at goesOn
      exact absurd ⟨item, List.mem_singleton_self item, stops⟩ goesOn
  | reads buffer item rest read goes inductionHypothesis =>
      rw [drain_of_reads read goes] at goesOn ⊢
      refine inductionHypothesis ?_
      rintro ⟨last, mem, stops⟩
      exact goesOn ⟨last, List.mem_cons_of_mem _ mem, stops⟩

end Reader

end Kjdmud.Drain
