import Kjdmud.Vm.Operators

/-!
# Indices, slices and shifts at the ends of `int64_t`

The index operators with every difference checked: one that leaves `int64_t` is undefined, and
so is a shift by a count outside 0..63.  Where they are defined they are the operators of the
interpreter, and they reach exactly the positions that the operands mean as integers.
-/

namespace Kjdmud.Vm

namespace Checked

/-! ## The operators -/

/-- The position an index means, counted from the end under `<`. -/
def position (len : Int) (fromEnd : Bool) (i : Int) : Option Int :=
  if fromEnd then int64 (len - i) else some i

/-- `resolveBounds`. -/
def resolveBounds (len rawStart rawEnd : Int) (startFromEnd endFromEnd : Bool) :
    Option (Int × Int) := do
  let start ← position len startFromEnd rawStart
  let stop ← position len endFromEnd rawEnd
  some (if start < 0 then 0 else start, stop)

/-- `std::string::substr`, which throws when it begins behind the string. -/
def substr (s : Str) (pos count : Int) : Option Str :=
  if 0 ≤ pos ∧ pos ≤ s.length ∧ 0 ≤ count then some ((s.drop pos.toNat).take count.toNat)
  else none

/-- The string case of `RangeIndex`. -/
def rangeString (s : Str) (rawStart rawEnd : Int) (startFromEnd endFromEnd : Bool) :
    Option Str := do
  let (start, stop) ← resolveBounds s.length rawStart rawEnd startFromEnd endFromEnd
  let last ← int64 (s.length - 1)
  let clampedEnd := min stop last
  if clampedEnd < start then some []
  else
    let apart ← int64 (clampedEnd - start)
    substr s start (apart + 1)

/-- The loop of `RangeIndex` over an array, with the number of rounds. -/
def pushItems (items : List Value) : Int → Nat → Option (List Value)
  | _, 0 => some []
  | i, rounds + 1 => do
      let item ← if 0 ≤ i then items[i.toNat]? else none
      let rest ← pushItems items (i + 1) rounds
      some (item :: rest)

/-- The array case of `RangeIndex`. -/
def rangeArray (items : List Value) (rawStart rawEnd : Int) (startFromEnd endFromEnd : Bool) :
    Option (List Value) := do
  let (start, stop) ← resolveBounds items.length rawStart rawEnd startFromEnd endFromEnd
  let last ← int64 (items.length - 1)
  pushItems items start (min stop last + 1 - start).toNat

/-- `RangeIndex`. -/
def rangeIndex (target start stop : Value) (startFromEnd endFromEnd : Bool) (w : World) :
    Option (Except LpcError (Value × World)) :=
  match start.data, stop.data with
  | .int i, .int j =>
      if !startFromEnd && i < 0 then
        some (runtimeError (str "RangeIndex: start index must be non-negative"))
      else
        match target.data with
        | .string s => do
            let sub ← rangeString s i.toInt j.toInt startFromEnd endFromEnd
            some (.ok (Value.string sub, w))
        | .array none => some (runtimeError (str "RangeIndex: target array is null"))
        | .array (some ref) => do
            let items ← rangeArray (w.array ref) i.toInt j.toInt startFromEnd endFromEnd
            let (w, data) := w.newArray items
            some (.ok (⟨data, false, false⟩, w))
        | _ => some (runtimeError (str "RangeIndex: target is not an array or string"))
  | .int _, _ => some (runtimeError (str "RangeIndex: end index must be an integer"))
  | _, _ => some (runtimeError (str "RangeIndex: start index must be an integer"))

/-- The array case of `Index`. -/
def indexArray (ref : Ref) (index : Value) (fromEnd : Bool) (w : World) :
    Option (Except LpcError (Value × World)) :=
  match index.data with
  | .int i => do
      let items := w.array ref
      let i ← position items.length fromEnd i.toInt
      if i < 0 ∨ items.length ≤ i then
        some (runtimeError (str "Index: array index out of bounds"))
      else
        let item ← items[i.toNat]?
        let v := w.coerceIfDestructed item
        some (.ok (v, w.setArray ref (items.set i.toNat v)))
  | _ => some (runtimeError (str "Index: array index must be an integer"))

/-- The string case of `Index`: behind the last byte stands a NUL. -/
def indexString (s : Str) (index : Value) (fromEnd : Bool) (w : World) :
    Option (Except LpcError (Value × World)) :=
  match index.data with
  | .int i => do
      let i ← position s.length fromEnd i.toInt
      if i < 0 ∨ s.length < i then
        some (runtimeError (str "Index: string index out of bounds"))
      else
        let ch ← (s ++ [0])[i.toNat]?
        some (.ok (Value.int (Int64.ofNat ch.toNat), w))
  | _ => some (runtimeError (str "Index: string index must be an integer"))

/-- `Index`; a mapping is read without a difference. -/
def indexValue (target index : Value) (column : Option Value) (fromEnd : Bool) (w : World) :
    Option (Except LpcError (Value × World)) :=
  match target.data with
  | .array (some ref) => indexArray ref index fromEnd w
  | .string s => indexString s index fromEnd w
  | _ => some (Vm.indexValue target index column fromEnd w)

/-- `Shl` and `Shr`. -/
def shift (left : Bool) (lhs rhs : Value) (w : World) :
    Option (Except LpcError (Value × World)) :=
  match lhs.data, rhs.data with
  | .int i, .int j =>
      if 0 ≤ j ∧ j ≤ 63 then some (.ok (Value.int (if left then i <<< j else i >>> j), w))
      else none
  | _, _ =>
      some (runtimeError (str ((if left then "Shl" else "Shr") ++
        ": operands must both be ints")))

end Checked

/-! ## Positions as integers -/

/-- The position that an index means. -/
def exactPosition (len : Int) (fromEnd : Bool) (i : Int) : Int :=
  if fromEnd then len - i else i

/-- The elements from a position to another, both as integers. -/
def slice {α : Type} (items : List α) (start stop : Int) : List α :=
  (items.zipIdx.filter fun item => start ≤ item.2 ∧ item.2 ≤ stop).map Prod.fst

/-- A slice is taken out of the middle. -/
theorem slice_zipIdx {α : Type} (items : List α) (start stop : Int) (n : Nat) :
    ((items.zipIdx n).filter fun item => start ≤ item.2 ∧ item.2 ≤ stop).map Prod.fst =
      (items.drop (start - n).toNat).take (stop + 1 - max start n).toNat := by
  induction items generalizing n with
  | nil => simp
  | cons x items inductionHypothesis =>
      have behind := inductionHypothesis (n + 1)
      rw [List.zipIdx_cons, List.filter_cons]
      by_cases before : (n : Int) < start
      · obtain ⟨k, gap⟩ : ∃ k : Nat, (start - n).toNat = k + 1 := ⟨(start - n).toNat - 1, by omega⟩
        rw [if_neg (by simp; omega), behind, gap, List.drop_succ_cons]
        congr 2 <;> omega
      · by_cases past : stop < n
        · rw [if_neg (by simp; omega), behind]
          have none_ : (stop + 1 - max start n).toNat = 0 := by omega
          have none' : (stop + 1 - max start ((n + 1 : Nat) : Int)).toNat = 0 := by omega
          rw [none_, none', List.take_zero, List.take_zero]
        · rw [if_pos (by simp; omega), List.map_cons, behind]
          have front : (start - n).toNat = 0 := by omega
          have front' : (start - ((n + 1 : Nat) : Int)).toNat = 0 := by omega
          have count : (stop + 1 - max start n).toNat =
              (stop + 1 - max start ((n + 1 : Nat) : Int)).toNat + 1 := by omega
          rw [front, front', count, List.drop_zero, List.drop_zero, List.take_succ_cons]

theorem slice_eq {α : Type} (items : List α) (start stop : Int) :
    slice items start stop =
      (items.drop start.toNat).take (min stop (items.length - 1) + 1 - max 0 start).toNat := by
  have whole := slice_zipIdx items start stop 0
  unfold slice
  rw [whole]
  have from_ : (start - (0 : Nat)).toNat = start.toNat := by omega
  rw [from_]
  by_cases inside : stop ≤ items.length - 1
  · congr 1
    omega
  · rw [List.take_of_length_le, List.take_of_length_le] <;> rw [List.length_drop] <;> omega

namespace Checked

/-! ## Where the differences are defined -/

/-- An index from the end is taken off the length without an overflow. -/
def Reaches (len : Int) (fromEnd : Bool) (i : Int) : Prop :=
  fromEnd = true → FitsInt64 (len - i)

theorem position_of_reaches {len i : Int} {fromEnd : Bool} (reaches : Reaches len fromEnd i) :
    position len fromEnd i = some (exactPosition len fromEnd i) := by
  cases fromEnd with
  | false => rfl
  | true => exact if_pos (reaches rfl)

theorem position_of_not_reaches {len i : Int} {fromEnd : Bool}
    (beyond : ¬ Reaches len fromEnd i) : position len fromEnd i = none := by
  cases fromEnd with
  | false => exact absurd (fun fromEnd => by cases fromEnd) beyond
  | true => exact if_neg fun fits => beyond fun _ => fits

variable {rawStart rawEnd : Int} {startFromEnd endFromEnd : Bool}

theorem resolveBounds_of_reaches {len : Int} (start : Reaches len startFromEnd rawStart)
    (stop : Reaches len endFromEnd rawEnd) :
    resolveBounds len rawStart rawEnd startFromEnd endFromEnd =
      some (max 0 (exactPosition len startFromEnd rawStart),
        exactPosition len endFromEnd rawEnd) := by
  unfold resolveBounds
  rw [position_of_reaches start, position_of_reaches stop]
  simp only [Option.bind_eq_bind, Option.bind_some, Option.some.injEq, Prod.mk.injEq, and_true]
  split <;> omega

theorem resolveBounds_of_not_reaches {len : Int}
    (beyond : ¬ (Reaches len startFromEnd rawStart ∧ Reaches len endFromEnd rawEnd)) :
    resolveBounds len rawStart rawEnd startFromEnd endFromEnd = none := by
  unfold resolveBounds
  by_cases start : Reaches len startFromEnd rawStart
  · rw [position_of_reaches start, position_of_not_reaches fun stop => beyond ⟨start, stop⟩]
    rfl
  · rw [position_of_not_reaches start]
    rfl

/-- The string case of `RangeIndex`; the other differences are of positions inside. -/
theorem rangeString_of_reaches {s : Str} (sized : s.length < 2 ^ 63)
    (start : Reaches s.length startFromEnd rawStart)
    (stop : Reaches s.length endFromEnd rawEnd) :
    rangeString s rawStart rawEnd startFromEnd endFromEnd =
      some (slice s (exactPosition s.length startFromEnd rawStart)
        (exactPosition s.length endFromEnd rawEnd)) := by
  unfold rangeString
  rw [resolveBounds_of_reaches start stop, slice_eq,
    int64_of_fits (z := (s.length : Int) - 1) ⟨by omega, by omega⟩]
  generalize exactPosition s.length startFromEnd rawStart = first
  generalize exactPosition s.length endFromEnd rawEnd = last
  simp only [Option.bind_eq_bind, Option.bind_some]
  by_cases empty : min last (s.length - 1) < max 0 first
  · rw [if_pos empty]
    have none_ : (min last (s.length - 1) + 1 - max 0 first).toNat = 0 := by omega
    rw [none_, List.take_zero]
  · rw [if_neg empty,
      int64_of_fits (z := min last (s.length - 1) - max 0 first) ⟨by omega, by omega⟩]
    simp only [Option.bind_some, substr]
    rw [if_pos (by omega)]
    have same : (max 0 first).toNat = first.toNat := by omega
    have count : min last (s.length - 1) - max 0 first + 1 =
        min last (s.length - 1) + 1 - max 0 first := by omega
    rw [same, count]

theorem pushItems_eq (items : List Value) (i rounds : Nat) (inside : i + rounds ≤ items.length) :
    pushItems items i rounds = some ((items.drop i).take rounds) := by
  induction rounds generalizing i with
  | zero => rfl
  | succ rounds inductionHypothesis =>
      have here : i < items.length := by omega
      have behind := inductionHypothesis (i + 1) (by omega)
      unfold pushItems
      rw [if_pos (Int.natCast_nonneg i), Int.toNat_natCast, List.getElem?_eq_getElem here]
      rw [Int.natCast_succ] at behind
      simp only [Option.bind_eq_bind, Option.bind_some, behind]
      rw [List.drop_eq_getElem_cons here, List.take_succ_cons]

/-- The array case of `RangeIndex`. -/
theorem rangeArray_of_reaches {items : List Value} (sized : items.length < 2 ^ 63)
    (start : Reaches items.length startFromEnd rawStart)
    (stop : Reaches items.length endFromEnd rawEnd) :
    rangeArray items rawStart rawEnd startFromEnd endFromEnd =
      some (slice items (exactPosition items.length startFromEnd rawStart)
        (exactPosition items.length endFromEnd rawEnd)) := by
  unfold rangeArray
  rw [resolveBounds_of_reaches start stop, slice_eq,
    int64_of_fits (z := (items.length : Int) - 1) ⟨by omega, by omega⟩]
  generalize exactPosition items.length startFromEnd rawStart = first
  generalize exactPosition items.length endFromEnd rawEnd = last
  simp only [Option.bind_eq_bind, Option.bind_some]
  have from_ : max 0 first = (first.toNat : Int) := by omega
  by_cases empty : (min last (items.length - 1) + 1 - max 0 first).toNat = 0
  · rw [empty, List.take_zero]
    rfl
  · rw [from_] at empty ⊢
    exact pushItems_eq items first.toNat _ (by omega)

end Checked

/-! ## Arrays and strings -/

/-- What can be cut: a string, or an array that is there. -/
inductive Target
  | string (s : Str)
  | array (ref : Ref)

namespace Target

def value : Target → Value
  | .string s => Value.string s
  | .array ref => ⟨.array (some ref), false, false⟩

def length (w : World) : Target → Nat
  | .string s => s.length
  | .array ref => (w.array ref).length

end Target

/-- A string or an array in a heap; its size is an `int64_t`. -/
structure Sequence where
  world : World
  target : Target
  sized : target.length world < 2 ^ 63

namespace Sequence

open Checked

variable (a : Sequence)

def length : Nat := a.target.length a.world

/-- The elements between two bounds; a start below 0 raises when it does not count from the
end. -/
def exactRange (start stop : Int64) (startFromEnd endFromEnd : Bool) :
    Except LpcError (Value × World) :=
  let first := exactPosition a.length startFromEnd start.toInt
  let last := exactPosition a.length endFromEnd stop.toInt
  if startFromEnd = false ∧ start.toInt < 0 then
    runtimeError (str "RangeIndex: start index must be non-negative")
  else
    match a.target with
    | .string s => .ok (Value.string (slice s first last), a.world)
    | .array ref =>
        let (w, data) := a.world.newArray (slice (a.world.array ref) first last)
        .ok (⟨data, false, false⟩, w)

/-- The element at an integer position. -/
def elementAt {α : Type} (items : List α) (position : Int) : Option α :=
  if 0 ≤ position then items[position.toNat]? else none

/-- The element at the position that an index means, or an error; the elements of a string end
with a NUL. -/
def exactIndex (index : Int64) (fromEnd : Bool) : Except LpcError (Value × World) :=
  let position := exactPosition a.length fromEnd index.toInt
  match a.target with
  | .string s =>
      match elementAt (s ++ [0]) position with
      | some ch => .ok (Value.int (Int64.ofNat ch.toNat), a.world)
      | none => runtimeError (str "Index: string index out of bounds")
  | .array ref =>
      match elementAt (a.world.array ref) position with
      | some item =>
          let v := a.world.coerceIfDestructed item
          .ok (v, a.world.setArray ref ((a.world.array ref).set position.toNat v))
      | none => runtimeError (str "Index: array index out of bounds")

/-- `RangeIndex` is defined and exact. -/
def RangesExactly (start stop : Int64) (startFromEnd endFromEnd : Bool) : Prop :=
  Checked.rangeIndex a.target.value (Value.int start) (Value.int stop) startFromEnd endFromEnd
    a.world = some (a.exactRange start stop startFromEnd endFromEnd)

/-- `Index` is defined and exact. -/
def IndexesExactly (index : Int64) (fromEnd : Bool) : Prop :=
  Checked.indexValue a.target.value (Value.int index) none fromEnd a.world =
    some (a.exactIndex index fromEnd)

variable {a}

theorem rangesExactly_iff {start stop : Int64} {startFromEnd endFromEnd : Bool} :
    a.RangesExactly start stop startFromEnd endFromEnd ↔
      startFromEnd = false ∧ start.toInt < 0 ∨
        Reaches a.length startFromEnd start.toInt ∧ Reaches a.length endFromEnd stop.toInt := by
  obtain ⟨w, target, sized⟩ := a
  have negative : (!startFromEnd && decide (start < 0)) = true ↔
      startFromEnd = false ∧ start.toInt < 0 := by
    simp [Int64.lt_iff_toInt_lt]
  unfold RangesExactly exactRange Checked.rangeIndex
  simp only [Value.int]
  by_cases raises : startFromEnd = false ∧ start.toInt < 0
  · rw [if_pos (negative.mpr raises), if_pos raises]
    exact iff_of_true rfl (.inl raises)
  · rw [if_neg (fun both => raises (negative.mp both)), if_neg raises]
    simp only [raises, false_or]
    cases target with
    | string s =>
        simp only [Target.value, Value.string, length, Target.length] at sized ⊢
        constructor
        · intro exact_
          by_contra beyond
          rw [rangeString, resolveBounds_of_not_reaches beyond] at exact_
          cases exact_
        · rintro ⟨first, last⟩
          rw [rangeString_of_reaches sized first last]
          rfl
    | array ref =>
        simp only [Target.value, length, Target.length] at sized ⊢
        constructor
        · intro exact_
          by_contra beyond
          rw [rangeArray, resolveBounds_of_not_reaches beyond] at exact_
          cases exact_
        · rintro ⟨first, last⟩
          rw [rangeArray_of_reaches sized first last]
          rfl

theorem indexesExactly_iff {index : Int64} {fromEnd : Bool} :
    a.IndexesExactly index fromEnd ↔ Reaches a.length fromEnd index.toInt := by
  obtain ⟨w, target, sized⟩ := a
  unfold IndexesExactly exactIndex Checked.indexValue
  cases target with
  | string s =>
      simp only [Target.value, Value.string, length, Target.length, Value.int, Checked.indexString]
      by_cases reaches : Reaches s.length fromEnd index.toInt
      · refine iff_of_true ?_ reaches
        rw [position_of_reaches reaches]
        generalize exactPosition s.length fromEnd index.toInt = position
        simp only [Option.bind_eq_bind, Option.bind_some, elementAt]
        by_cases below : position < 0
        · rw [if_pos (.inl below), if_neg (by omega)]
        · by_cases behind : (s.length : Int) < position
          · rw [if_pos (.inr behind), if_pos (by omega),
              List.getElem?_eq_none (by rw [List.length_append, List.length_singleton]; omega)]
          · have inside : position.toNat < (s ++ [0]).length := by
              rw [List.length_append, List.length_singleton]
              omega
            rw [if_neg (not_or_intro below behind), if_pos (by omega),
              List.getElem?_eq_getElem inside]
            rfl
      · refine iff_of_false ?_ reaches
        rw [position_of_not_reaches reaches]
        exact fun impossible => by cases impossible
  | array ref =>
      simp only [Target.value, length, Target.length, Value.int, Checked.indexArray]
      by_cases reaches : Reaches (w.array ref).length fromEnd index.toInt
      · refine iff_of_true ?_ reaches
        rw [position_of_reaches reaches]
        generalize exactPosition (w.array ref).length fromEnd index.toInt = position
        simp only [Option.bind_eq_bind, Option.bind_some, elementAt]
        by_cases below : position < 0
        · rw [if_pos (.inl below), if_neg (by omega)]
        · by_cases behind : ((w.array ref).length : Int) ≤ position
          · rw [if_pos (.inr behind), if_pos (by omega), List.getElem?_eq_none (by omega)]
          · have inside : position.toNat < (w.array ref).length := by omega
            rw [if_neg (not_or_intro below behind), if_pos (by omega),
              List.getElem?_eq_getElem inside]
            rfl
      · refine iff_of_false ?_ reaches
        rw [position_of_not_reaches reaches]
        exact fun impossible => by cases impossible

end Sequence

/-! ## Columns -/

/-- A mapping in a heap; its width is an `int`. -/
structure Table where
  world : World
  ref : Ref
  narrow : (world.mapping ref).width < 2 ^ 31

namespace Table

variable (m : Table)

def width : Int := (m.world.mapping m.ref).width

def value : Value := ⟨.mapping (some m.ref), false, false⟩

/-- `Index` takes a column. -/
def IndexAccepts (key : Value) (fromEnd : Bool) (column : Int64) : Prop :=
  ∃ result, Checked.indexValue m.value key (some (Value.int column)) fromEnd m.world =
    some (.ok result)

/-- `IndexAssign` takes a column. -/
def AssignAccepts (key value : Value) (column : Int64) : Prop :=
  ∃ w, indexAssign m.value key value (some (Value.int column)) m.world = .ok w

/-- The column is an `int`, or what the cast makes of it is no column. -/
def ColumnFits (column : Int64) : Prop :=
  -2 ^ 31 ≤ column.toInt ∧ column.toInt < 2 ^ 31 ∨
    ¬ (0 ≤ int32 column.toInt ∧ int32 column.toInt < m.width)

variable {m}

theorem mappingColumn_ok {column : Int64} :
    (∃ col, mappingColumn (m.world.mapping m.ref) (some (Value.int column)) = .ok col) ↔
      0 ≤ int32 column.toInt ∧ int32 column.toInt < m.width := by
  unfold mappingColumn width
  simp only [Value.int]
  by_cases outside : int32 column.toInt < 0 ∨
      ((m.world.mapping m.ref).width : Int) ≤ int32 column.toInt
  · rw [if_pos outside]
    refine iff_of_false ?_ (by omega)
    rintro ⟨_, impossible⟩
    cases impossible
  · rw [if_neg outside]
    exact iff_of_true ⟨_, rfl⟩ (by omega)

theorem accepts_iff {key : Value} {column : Int64} :
    (∀ fromEnd, m.IndexAccepts key fromEnd column ↔
        0 ≤ int32 column.toInt ∧ int32 column.toInt < m.width) ∧
      ∀ value, m.AssignAccepts key value column ↔
        0 ≤ int32 column.toInt ∧ int32 column.toInt < m.width := by
  rw [← mappingColumn_ok]
  unfold IndexAccepts AssignAccepts Checked.indexValue indexAssign Vm.indexValue indexMapping
    assignMapping
  constructor
  all_goals
    intro other
    simp only [Table.value, Option.some.injEq]
    cases mappingColumn (m.world.mapping m.ref) (some (Value.int column)) with
    | error e => simp [bind, Except.bind]
    | ok col =>
        refine iff_of_true ?_ ⟨col, rfl⟩
        simp only [bind, Except.bind]
        cases (m.world.mapping m.ref).find key <;> exact ⟨_, rfl⟩

/-- The cast and the integer agree about a column. -/
theorem columnFits_iff {column : Int64} :
    ((0 ≤ int32 column.toInt ∧ int32 column.toInt < m.width) ↔
      (0 ≤ column.toInt ∧ column.toInt < m.width)) ↔ m.ColumnFits column := by
  have narrow : m.width < 2 ^ 31 := by
    have narrow := m.narrow
    unfold width
    omega
  have kept : -2 ^ 31 ≤ column.toInt → column.toInt < 2 ^ 31 →
      int32 column.toInt = column.toInt := by
    intro low high
    rw [int32, Int.bmod_eq_of_le] <;> omega
  unfold ColumnFits
  constructor
  · intro agree
    by_cases taken : 0 ≤ int32 column.toInt ∧ int32 column.toInt < m.width
    · have inside := agree.mp taken
      exact .inl ⟨by omega, by omega⟩
    · exact .inr taken
  · rintro (⟨low, high⟩ | outside)
    · rw [kept low high]
    · refine iff_of_false outside fun inside => outside ?_
      rw [kept (by omega) (by omega)]
      exact inside

end Table

/-! ## All operands -/

/-- A shift of one `int` by another is defined. -/
def ShiftsWithin (left : Bool) (lhs count : Int64) (w : World) : Prop :=
  (Checked.shift left (Value.int lhs) (Value.int count) w).isSome

theorem shiftsWithin_iff {left : Bool} {lhs count : Int64} {w : World} :
    ShiftsWithin left lhs count w ↔ 0 ≤ count.toInt ∧ count.toInt ≤ 63 := by
  have bounds : (0 ≤ count ∧ count ≤ 63) ↔ 0 ≤ count.toInt ∧ count.toInt ≤ 63 := by
    rw [Int64.le_iff_toInt_le, Int64.le_iff_toInt_le]
    rfl
  unfold ShiftsWithin Checked.shift
  simp only [Value.int]
  rw [← bounds]
  by_cases within : 0 ≤ count ∧ count ≤ 63
  · rw [if_pos within]
    exact iff_of_true rfl within
  · rw [if_neg within]
    exact iff_of_false (fun impossible => by cases impossible) within

/-- **Where the operands are exact.**  A slice and an index are, unless a difference from the
length leaves `int64_t`; a column is, unless its cast to `int` makes another column of it; and
a shift is defined for a count in 0..63. -/
theorem operands_iff (a : Sequence) (m : Table) (start stop index column lhs count : Int64)
    (startFromEnd endFromEnd fromEnd left : Bool) (key value : Value) :
    (a.RangesExactly start stop startFromEnd endFromEnd ↔
      startFromEnd = false ∧ start.toInt < 0 ∨
        Checked.Reaches a.length startFromEnd start.toInt ∧
          Checked.Reaches a.length endFromEnd stop.toInt) ∧
    (a.IndexesExactly index fromEnd ↔ Checked.Reaches a.length fromEnd index.toInt) ∧
    ((m.IndexAccepts key fromEnd column ↔ 0 ≤ column.toInt ∧ column.toInt < m.width) ↔
      m.ColumnFits column) ∧
    ((m.AssignAccepts key value column ↔ 0 ≤ column.toInt ∧ column.toInt < m.width) ↔
      m.ColumnFits column) ∧
    (ShiftsWithin left lhs count a.world ↔ 0 ≤ count.toInt ∧ count.toInt ≤ 63) := by
  refine ⟨Sequence.rangesExactly_iff, Sequence.indexesExactly_iff, ?_, ?_, shiftsWithin_iff⟩
  · rw [Table.accepts_iff.1]
    exact Table.columnFits_iff
  · rw [Table.accepts_iff.2]
    exact Table.columnFits_iff

/-- A heap with one mapping, which has one column and no entries. -/
def narrowWorld : World where
  mappings := [⟨[], 1, []⟩]

def narrowTable : Table where
  world := narrowWorld
  ref := 0
  narrow := by decide

/-- The column 2^32 is taken for column 0, and a shift by 64 is made. -/
theorem column_truncated :
    ¬ (narrowTable.IndexAccepts (Value.int 1) false 4294967296 ↔
        0 ≤ (4294967296 : Int64).toInt ∧ (4294967296 : Int64).toInt < narrowTable.width) ∧
      ¬ ShiftsWithin true 1 64 narrowWorld := by
  constructor
  · rw [Table.accepts_iff.1, Table.columnFits_iff]
    unfold Table.ColumnFits Table.width
    decide
  · rw [shiftsWithin_iff]
    decide

end Kjdmud.Vm
