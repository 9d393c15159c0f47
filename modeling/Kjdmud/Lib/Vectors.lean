import Mathlib.Data.List.Nodup

/-!
# Loops over a vector that changes

A vector keeps its elements in a buffer and takes a new buffer when it has outgrown the old
one.  A loop over a vector saves a position in the buffer and its end when it begins.  What it
has read and what it has yet to read survive a change of the vector that leaves the buffer,
the elements up to the position, and as many elements as the loop is going to read.
-/

namespace Kjdmud.Vectors

universe u

variable {α : Type u}

/-! ## Buffers -/

structure Buffer where
  capacity : Nat := 0
  /-- How many times the buffer was replaced. -/
  allocation : Nat := 0

/-- The buffer of a vector that is to hold `n` elements. -/
def Buffer.holding (grow : Nat → Nat) (n : Nat) (b : Buffer) : Buffer :=
  if n ≤ b.capacity then b else ⟨max (grow b.capacity) n, b.allocation + 1⟩

theorem Buffer.holding_of_le {grow : Nat → Nat} {n : Nat} {b : Buffer} (room : n ≤ b.capacity) :
    b.holding grow n = b :=
  if_pos room

theorem Buffer.le_capacity_holding (grow : Nat → Nat) (n : Nat) (b : Buffer) :
    n ≤ (b.holding grow n).capacity := by
  by_cases room : n ≤ b.capacity
  · rw [holding_of_le room]
    exact room
  · rw [holding, if_neg room]
    exact Nat.le_max_right _ _

/-- What is read at a position of a buffer, if the vector is still there and that long. -/
def Buffer.read (b : Buffer) (items : List α) (allocation index : Nat) : Option α :=
  if b.allocation = allocation then items[index]? else none

theorem Buffer.read_of_allocation {b : Buffer} {items : List α} {allocation index : Nat}
    (same : b.allocation = allocation) : b.read items allocation index = items[index]? :=
  if_pos same

/-- A vector without one of its elements. -/
theorem length_filter_ne [DecidableEq α] {items : List α} {x : α} (nodup : items.Nodup)
    (mem : x ∈ items) : (items.filter (· ≠ x)).length + 1 = items.length := by
  have erased : items.filter (· ≠ x) = items.erase x := by
    rw [nodup.erase_eq_filter]
    refine List.filter_congr fun y _ => ?_
    rw [Bool.eq_iff_iff, decide_eq_true_iff, bne_iff_ne]
  rw [erased, List.length_erase_of_mem mem]
  exact Nat.succ_pred_eq_of_pos (List.length_pos_of_mem mem)

/-! ## Ranges -/

/-- The iterators of a loop: the buffer, the next position and the end. -/
structure Range where
  allocation : Nat
  index : Nat
  stop : Nat

namespace Range

/-- All of a vector. -/
def whole (b : Buffer) (items : List α) : Range :=
  ⟨b.allocation, 0, items.length⟩

def next (r : Range) : Range :=
  { r with index := r.index + 1 }

/-- The elements that are yet to be read. -/
def ahead (r : Range) (items : List α) : List α :=
  (items.take r.stop).drop r.index

variable {r : Range} {items items' : List α} {x : α}

theorem ahead_whole (b : Buffer) (items : List α) : (whole b items).ahead items = items := by
  rw [ahead, whole, List.take_length, List.drop_zero]

theorem ahead_ended (ended : r.index = r.stop) (items : List α) : r.ahead items = [] := by
  rw [ahead, ended, List.drop_eq_nil_iff]
  exact List.length_take_le _ _

theorem ahead_next (inside : r.index < r.stop) (here : items[r.index]? = some x) :
    r.ahead items = x :: r.next.ahead items := by
  obtain ⟨bound, rfl⟩ := List.getElem?_eq_some_iff.mp here
  have shorter : r.index < (items.take r.stop).length := by
    rw [List.length_take]
    exact Nat.lt_min.mpr ⟨inside, bound⟩
  rw [ahead, List.drop_eq_getElem_cons shorter, List.getElem_take]
  rfl

theorem mem_take_iff (before : r.index ≤ r.stop) :
    x ∈ items.take r.stop ↔ x ∈ items.take r.index ∨ x ∈ r.ahead items := by
  have split := List.take_append_drop r.index (items.take r.stop)
  rw [List.take_take, Nat.min_eq_left before] at split
  rw [← List.mem_append, ahead, split]

/-- What was read, what is ahead, and what is behind the end. -/
theorem exists_parts (before : r.index ≤ r.stop) (enough : r.stop ≤ items.length) :
    ∃ read beyond, items = read ++ (r.ahead items ++ beyond) ∧ read.length = r.index ∧
      (r.ahead items).length = r.stop - r.index := by
  refine ⟨items.take r.index, items.drop r.stop, ?_, ?_, ?_⟩
  · have taken : items.take r.index ++ r.ahead items = items.take r.stop := by
      have split := List.take_append_drop r.index (items.take r.stop)
      rwa [List.take_take, Nat.min_eq_left before] at split
    rw [← List.append_assoc, taken, List.take_append_drop]
  · rw [List.length_take, Nat.min_eq_left (Nat.le_trans before enough)]
  · rw [ahead, List.length_drop, List.length_take, Nat.min_eq_left enough]

theorem ahead_append {read rest : List α} (length : read.length = r.index) :
    r.ahead (read ++ rest) = rest.take (r.stop - r.index) := by
  rw [ahead, List.drop_take, ← length, List.drop_left]

/-! ## Changes behind the position -/

/-- A change of the elements over which the loop can go on. -/
structure Spares (r : Range) (items items' : List α) : Prop where
  read : items'.take r.index = items.take r.index
  enough : r.stop ≤ items'.length
  ahead : ∀ x ∈ items', x ∈ r.ahead items → x ∈ r.ahead items'

theorem Spares.refl (enough : r.stop ≤ items.length) : r.Spares items items where
  read := rfl
  enough := enough
  ahead _ _ here := here

/-- What remains of the elements to be read is read once more or less as before. -/
theorem Spares.mem_take (spares : r.Spares items items') (before : r.index ≤ r.stop)
    (stays : x ∈ items') (here : x ∈ items.take r.stop) : x ∈ items'.take r.stop := by
  rw [mem_take_iff before] at here ⊢
  rcases here with passed | waits
  · left
    rw [spares.read]
    exact passed
  · right
    exact spares.ahead x stays waits

theorem Spares.mem_ahead_iff (spares : r.Spares items items') (before : r.index ≤ r.stop)
    (nodup : items'.Nodup) (stays : x ∈ items') (here : x ∈ items.take r.stop) :
    x ∈ r.ahead items' ↔ x ∈ r.ahead items := by
  constructor
  · intro waits
    rcases (mem_take_iff before).mp here with passed | waited
    · rw [← spares.read] at passed
      obtain ⟨read, beyond, parts, length, _⟩ := exists_parts before spares.enough
      rw [parts] at nodup passed
      rw [← length, List.take_left] at passed
      exact absurd (List.mem_append_left beyond waits)
        ((List.nodup_append.mp nodup).2.2 x passed x · rfl)
    · exact waited
  · exact spares.ahead x stays

section Changes

variable (before : r.index ≤ r.stop) (enough : r.stop ≤ items.length)
include before enough

/-- An element comes to the end. -/
theorem spares_append : r.Spares items (items ++ [x]) where
  read := List.take_append_of_le_length (Nat.le_trans before enough)
  enough := by
    rw [List.length_append]
    exact Nat.le_add_right_of_le enough
  ahead y _ waits := by
    rw [ahead, List.take_append_of_le_length enough]
    exact waits

variable [DecidableEq α] (unread : x ∉ items.take r.index)
include unread

theorem filter_parts : ∃ read rest, items = read ++ rest ∧ read.length = r.index ∧
    items.filter (· ≠ x) = read ++ rest.filter (· ≠ x) := by
  refine ⟨items.take r.index, items.drop r.index, (List.take_append_drop _ _).symm, ?_, ?_⟩
  · rw [List.length_take, Nat.min_eq_left (Nat.le_trans before enough)]
  · have kept : (items.take r.index).filter (· ≠ x) = items.take r.index := by
      rw [List.filter_eq_self]
      intro y mem
      rw [decide_eq_true_iff]
      rintro rfl
      exact unread mem
    conv_lhs => rw [← List.take_append_drop r.index items, List.filter_append, kept]

/-- An element that was not read goes, and enough elements are left. -/
theorem spares_filter (left : r.stop ≤ (items.filter (· ≠ x)).length) :
    r.Spares items (items.filter (· ≠ x)) := by
  obtain ⟨read, rest, parts, length, filtered⟩ := filter_parts before enough unread
  refine ⟨?_, left, ?_⟩
  · rw [filtered, parts, ← length, List.take_left, List.take_left]
  · intro y stays waits
    rw [filtered, ahead_append length]
    rw [parts, ahead_append length] at waits
    have other : decide (y ≠ x) = true := (List.mem_filter.mp stays).2
    have inside : y ∈ (rest.take (r.stop - r.index)).filter (· ≠ x) :=
      List.mem_filter.mpr ⟨waits, other⟩
    have first : (rest.take (r.stop - r.index)).filter (· ≠ x) <+: rest.filter (· ≠ x) :=
      (List.take_prefix _ _).filter _
    obtain ⟨others, whole⟩ := first
    rw [← whole]
    have short := Nat.le_trans
      (List.length_filter_le (· ≠ x) (rest.take (r.stop - r.index))) (List.length_take_le _ _)
    rw [List.take_append, List.take_of_length_le short]
    exact List.mem_append_left _ inside

/-- An element that was not read goes to the end of a vector that the loop reads to its
end. -/
theorem spares_rotate (whole : items.length = r.stop) (nodup : items.Nodup) (mem : x ∈ items) :
    r.Spares items (items.filter (· ≠ x) ++ [x]) := by
  obtain ⟨read, rest, parts, length, filtered⟩ := filter_parts before enough unread
  have moved : (items.filter (· ≠ x) ++ [x]).length = r.stop := by
    rw [List.length_append, List.length_singleton, length_filter_ne nodup mem, whole]
  refine ⟨?_, Nat.le_of_eq moved.symm, ?_⟩
  · rw [filtered, parts, ← length, List.take_left, List.append_assoc, List.take_left]
  · intro y stays waits
    have waiting : y ∈ rest := by
      rw [parts, ahead_append length] at waits
      exact List.mem_of_mem_take waits
    rw [filtered, List.append_assoc] at moved ⊢
    rw [List.length_append, length] at moved
    rw [ahead_append length, List.take_of_length_le (Nat.le_sub_of_add_le' (Nat.le_of_eq moved))]
    by_cases same : y = x
    · rw [same]
      exact List.mem_append_right _ (List.mem_singleton_self x)
    · exact List.mem_append_left _ (List.mem_filter.mpr ⟨waiting, decide_eq_true same⟩)

end Changes

end Range

end Kjdmud.Vectors
