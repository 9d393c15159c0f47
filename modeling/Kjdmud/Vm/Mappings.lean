import Kjdmud.Lib.Table
import Kjdmud.Vm.Instructions
import Mathlib.Data.List.InsertIdx

/-!
# Mappings as tables

A mapping keeps its keys with their first values in one vector and the other values
in another.  Here it is read as a table of rows, one row of `width` values behind
each key, and every operation of the driver on mappings is an operation on that
table.  `map_delete` is from `src/efun/EfunTable.cpp`.
-/

namespace Kjdmud.Vm

/-! ## Deleting -/

/-- `Mapping::eraseAt`. -/
def Mapping.eraseAt (m : Mapping) (i : Nat) : Mapping :=
  { m with
    entries := m.entries.eraseIdx i
    extraColumns :=
      if m.extraColumns.isEmpty then m.extraColumns else m.extraColumns.eraseIdx i }

/-- The loop of `map_delete` from entry `i` on, in as many rounds as entries are
left. -/
def Mapping.deleteFrom (key : Value) : Nat → Nat → Mapping → Mapping
  | 0, _, m => m
  | rounds + 1, i, m =>
      match m.entries[i]? with
      | none => m
      | some entry =>
          if valuesEqual entry.1 key then deleteFrom key rounds i (m.eraseAt i)
          else deleteFrom key rounds (i + 1) m

/-- `map_delete` on a mapping. -/
def Mapping.delete (m : Mapping) (key : Value) : Mapping :=
  m.deleteFrom key m.entries.length 0

/-! ## Keys -/

theorem double_eq_symm {a b : Double} (equal : a.eq b = true) : b.eq a = true := by
  unfold Double.eq at *
  split_ifs at equal ⊢ <;> simp_all

theorem double_eq_trans {a b d : Double} (first : a.eq b = true) (second : b.eq d = true) :
    a.eq d = true := by
  unfold Double.eq at *
  split_ifs at first second ⊢ <;> simp_all

theorem valuesEqual_symm {a b : Value} (equal : valuesEqual a b = true) :
    valuesEqual b a = true := by
  unfold valuesEqual at *
  split at equal <;> simp_all
  exact double_eq_symm equal

theorem valuesEqual_trans {a b d : Value} (first : valuesEqual a b = true)
    (second : valuesEqual b d = true) : valuesEqual a d = true := by
  unfold valuesEqual at *
  split at first <;> split at second <;> simp_all
  exact double_eq_trans first second

/-- Keys are compared with `valuesEqual`.  Arrays, mappings and NaN equal no key. -/
def byValue : Table.Comparison Value where
  same := valuesEqual
  symm := valuesEqual_symm
  trans := valuesEqual_trans

/-! ## The table of a mapping -/

/-- The mapping that holds some rows. -/
def Mapping.ofRows (width : Nat) (rows : List (Value × List Value)) : Mapping where
  entries := rows.map fun row => (row.1, row.2.headD Value.void)
  width := width
  extraColumns := if width > 1 then rows.map fun row => row.2.tail else []

/-- A mapping holds a table: one row of `width` values behind each key. -/
structure Mapping.Holds (m : Mapping) (rows : List (Value × List Value)) : Prop where
  positive : 1 ≤ m.width
  full : ∀ row ∈ rows, row.2.length = m.width
  built : m = Mapping.ofRows m.width rows

namespace Mapping

variable {m : Mapping} {rows : List (Value × List Value)} {key : Value} {values : List Value}

theorem Holds.find (holds : m.Holds rows) (key : Value) :
    m.find key = byValue.find rows key := by
  rw [holds.built, Mapping.find, ofRows, Table.Comparison.find, List.findIdx?_map]
  rfl

theorem Holds.length (holds : m.Holds rows) : m.entries.length = rows.length := by
  rw [holds.built]
  exact List.length_map _

theorem holds_nil {width : Nat} (positive : 1 ≤ width) : Holds ⟨[], width, []⟩ [] where
  positive := positive
  full := nofun
  built := by
    rw [ofRows]
    split <;> rfl

/-! ## The operations on the table -/

theorem Holds.appendEntry (holds : m.Holds rows) (full : values.length = m.width) :
    (m.appendEntry key values).Holds (rows ++ [(key, values)]) where
  positive := holds.positive
  full := by
    intro row mem
    rcases List.mem_append.1 mem with mem | mem
    · exact holds.full row mem
    · rw [List.mem_singleton] at mem
      exact mem ▸ full
  built := by
    have extra : (values.drop 1).take (m.width - 1) = values.tail := by
      rw [List.drop_one]
      exact List.take_of_length_le (by rw [List.length_tail, full])
    have padding : m.width - 1 - values.tail.length = 0 := by
      rw [List.length_tail, full, Nat.sub_self]
    have built := holds.built
    simp only [Mapping.appendEntry, extra, padding, List.replicate_zero, List.append_nil]
    rw [built]
    simp only [ofRows, List.map_append, List.map_cons, List.map_nil]
    split <;> rfl

theorem Holds.eraseAt (holds : m.Holds rows) (i : Nat) :
    (m.eraseAt i).Holds (rows.eraseIdx i) where
  positive := holds.positive
  full row mem := holds.full row (List.mem_of_mem_eraseIdx mem)
  built := by
    have extra : (if m.extraColumns.isEmpty then m.extraColumns
        else m.extraColumns.eraseIdx i) = m.extraColumns.eraseIdx i := by
      cases m.extraColumns <;> rfl
    have built := holds.built
    rw [Mapping.eraseAt, extra, built]
    by_cases wide : m.width > 1
    · simp only [ofRows, if_pos wide, List.eraseIdx_map]
    · simp only [ofRows, if_neg wide, List.eraseIdx_map, List.eraseIdx_nil]

/-- A row exchanged for another of the same width. -/
theorem Holds.modify (holds : m.Holds rows) (i : Nat) (change : List Value → List Value)
    (full : ∀ row, row.length = m.width → (change row).length = m.width) :
    (Mapping.ofRows m.width (rows.modify i fun row => (row.1, change row.2))).Holds
      (rows.modify i fun row => (row.1, change row.2)) where
  positive := holds.positive
  full row mem := by
    obtain ⟨j, inside, rfl⟩ := List.mem_iff_getElem.1 mem
    rw [List.getElem_modify]
    have inside' : j < rows.length := by rwa [List.length_modify] at inside
    split
    · exact full _ (holds.full _ (List.getElem_mem inside'))
    · exact holds.full _ (List.getElem_mem inside')
  built := rfl

theorem Holds.setColumn (holds : m.Holds rows) (i : Nat) {col : Nat} (inside : col < m.width)
    (v : Value) :
    (m.setColumn i col v).Holds (rows.modify i fun row => (row.1, row.2.set col v)) := by
  have changed := holds.modify i (fun row => row.set col v)
    fun row full => (List.length_set).trans full
  suffices same : m.setColumn i col v =
      ofRows m.width (rows.modify i fun row => (row.1, row.2.set col v)) from same ▸ changed
  have built := holds.built
  cases col with
  | zero =>
      have firsts : (rows.modify i fun row => (row.1, row.2.set 0 v)).map
          (fun row => (row.1, row.2.headD Value.void)) =
            (rows.map fun row => (row.1, row.2.headD Value.void)).modify i
              fun entry => (entry.1, v) := by
        refine Table.map_modify _ _ _ (fun row mem => ?_) i
        have positive := holds.positive.trans_eq (holds.full row mem).symm
        cases values : row.2 with
        | nil => simp [values] at positive
        | cons => rfl
      have others : (rows.modify i fun row => (row.1, row.2.set 0 v)).map
          (fun row => row.2.tail) = rows.map fun row => row.2.tail := by
        rw [Table.map_modify (fun row : Value × List Value => row.2.tail) _ id ?_ i,
          List.modify_id]
        intro row _
        cases row.2 <;> rfl
      rw [ofRows, firsts, others, Mapping.setColumn, if_pos rfl]
      rw [built]
      rfl
  | succ col =>
      have firsts : (rows.modify i fun row => (row.1, row.2.set (col + 1) v)).map
          (fun row => (row.1, row.2.headD Value.void)) =
            rows.map fun row => (row.1, row.2.headD Value.void) := by
        rw [Table.map_modify (fun row : Value × List Value => (row.1, row.2.headD Value.void))
          _ id ?_ i, List.modify_id]
        intro row _
        cases row.2 <;> rfl
      have others : (rows.modify i fun row => (row.1, row.2.set (col + 1) v)).map
          (fun row => row.2.tail) =
            (rows.map fun row => row.2.tail).modify i fun row => row.set col v := by
        refine Table.map_modify _ _ _ (fun row _ => ?_) i
        cases row.2 <;> rfl
      have wide : m.width > 1 := Nat.lt_of_le_of_lt (Nat.le_add_left 1 col) inside
      rw [ofRows, firsts, others, if_pos wide, Mapping.setColumn, if_neg (Nat.succ_ne_zero col)]
      rw [built]
      simp only [ofRows, if_pos wide, Nat.add_sub_cancel]

/-- The values of a row after a write to one column; a missing row starts with
zeros. -/
def writeColumn (width col : Nat) (v : Value) : Option (List Value) → List Value
  | some row => row.set col v
  | none => (List.replicate width (Value.int 0)).set col v

/-- The change of `IndexAssign` to a mapping. -/
def assign (m : Mapping) (key value : Value) (col : Nat) : Mapping :=
  match m.find key with
  | some i => m.setColumn i col value
  | none => m.appendEntry key ((List.replicate m.width (Value.int 0)).set col value)

theorem Holds.assign (holds : m.Holds rows) (key value : Value) {col : Nat}
    (inside : col < m.width) :
    (m.assign key value col).Holds
      (byValue.alter rows key (writeColumn m.width col value)) := by
  unfold Mapping.assign Table.Comparison.alter
  rw [holds.find]
  cases byValue.find rows key with
  | some i => exact holds.setColumn i inside value
  | none => exact holds.appendEntry (by rw [List.length_set, List.length_replicate])

/-- The values behind the first of a row that the table of a mapping holds. -/
theorem Holds.extraRow {right : Mapping} {new : List (Value × List Value)}
    (holds : right.Holds new) {ri : Nat} {row : Value × List Value} (here : new[ri]? = some row) :
    (if right.extraColumns.isEmpty then List.replicate (right.width - 1) Value.void
      else (right.extraColumns[ri]?).getD []) = row.2.tail := by
  have full := holds.full row (List.mem_of_getElem? here)
  have built := congrArg Mapping.extraColumns holds.built
  rw [ofRows] at built
  rw [built]
  by_cases wide : right.width > 1
  · simp only [if_pos wide]
    rw [if_neg, List.getElem?_map, here]
    · rfl
    · rw [List.isEmpty_iff, List.map_eq_nil_iff]
      rintro rfl
      cases here
  · have one : row.2.length = 1 := by
      have := holds.positive
      omega
    obtain ⟨v, values⟩ := List.length_eq_one_iff.1 one
    simp only [if_neg wide, List.isEmpty_nil, if_true, values, List.tail_cons]
    rw [Nat.sub_eq_zero_of_le (Nat.not_lt.1 wide), List.replicate_zero]

/-- One step of a mapping addition writes one row of the right mapping. -/
theorem Holds.mergeEntry {right : Mapping} {new : List (Value × List Value)}
    (holds : m.Holds rows) (holdsNew : right.Holds new) (sameWidth : right.width = m.width)
    {ri : Nat} {row : Value × List Value} (here : new[ri]? = some row) :
    (mergeEntry right m ri).Holds (byValue.alter rows row.1 fun _ => row.2) := by
  have full := (holdsNew.full row (List.mem_of_getElem? here)).trans sameWidth
  have entry : right.entries[ri]? = some (row.1, row.2.headD Value.void) := by
    rw [congrArg Mapping.entries holdsNew.built, ofRows, List.getElem?_map, here]
    rfl
  have extra := holdsNew.extraRow here
  rw [sameWidth] at extra
  simp only [Vm.mergeEntry, entry, extra, holds.find]
  unfold Table.Comparison.alter
  cases byValue.find rows row.1 with
  | none =>
      have appended : (Mapping.ofRows m.width (rows ++ [(row.1, row.2)])).Holds
          (rows ++ [(row.1, row.2)]) := by
        refine ⟨holds.positive, fun other mem => ?_, rfl⟩
        rcases List.mem_append.1 mem with mem | mem
        · exact holds.full other mem
        · rw [List.mem_singleton] at mem
          rw [mem]
          exact full
      convert appended using 1
      rw [holds.built]
      simp only [ofRows, List.map_append, List.map_cons, List.map_nil]
      split <;> rfl
  | some li =>
      convert holds.modify li (fun _ => row.2) (fun _ _ => full) using 1
      have firsts : (rows.modify li fun old => (old.1, row.2)).map
          (fun row => (row.1, row.2.headD Value.void)) =
            (rows.map fun row => (row.1, row.2.headD Value.void)).modify li
              fun old => (old.1, row.2.headD Value.void) :=
        Table.map_modify (fun row : Value × List Value => (row.1, row.2.headD Value.void)) _ _
          (fun _ _ => rfl) li
      have others : (rows.modify li fun old => (old.1, row.2)).map (fun row => row.2.tail) =
          (rows.map fun row => row.2.tail).set li row.2.tail := by
        rw [List.set_eq_modify]
        exact Table.map_modify (fun row : Value × List Value => row.2.tail) _ _
          (fun _ _ => rfl) li
      have emptied (columns : List (List Value)) :
          (if columns.isEmpty then [] else columns.set li row.2.tail) =
            columns.set li row.2.tail := by
        cases columns <;> rfl
      simp only [emptied]
      rw [ofRows, firsts, others, holds.built]
      by_cases wide : m.width > 1
      · simp only [ofRows, if_pos wide]
      · simp only [ofRows, if_neg wide, List.set_nil]

/-- `map_delete` takes out all rows with the key. -/
theorem Holds.deleteFrom {done rest : List (Value × List Value)} {rounds : Nat}
    (holds : m.Holds (done ++ rest)) (enough : rest.length ≤ rounds) (key : Value) :
    (m.deleteFrom key rounds done.length).Holds (done ++ byValue.erase rest key) := by
  induction rounds generalizing m done rest with
  | zero =>
      cases rest with
      | nil => exact holds
      | cons row rest => cases enough
  | succ rounds inductionHypothesis =>
      cases rest with
      | nil =>
          have ended : m.entries[done.length]? = none :=
            List.getElem?_eq_none (by rw [holds.length, List.append_nil])
          simp only [Mapping.deleteFrom, ended]
          exact holds
      | cons row rest =>
          have less : rest.length ≤ rounds := Nat.le_of_succ_le_succ enough
          have entry : m.entries[done.length]? = some (row.1, row.2.headD Value.void) := by
            rw [congrArg Mapping.entries holds.built, ofRows, List.getElem?_map,
              List.getElem?_append_right (Nat.le_refl _), Nat.sub_self]
            rfl
          simp only [Mapping.deleteFrom, entry, Table.Comparison.erase, List.filter_cons]
          show (if byValue.same row.1 key then _ else _ : Mapping).Holds _
          cases equal : byValue.same row.1 key with
          | true =>
              have erased := holds.eraseAt done.length
              rw [List.eraseIdx_append_of_length_le (Nat.le_refl _), Nat.sub_self,
                List.eraseIdx_cons_zero] at erased
              exact inductionHypothesis erased less
          | false =>
              rw [List.append_cons] at holds
              have passed := inductionHypothesis holds less
              rw [List.length_append, List.length_singleton, List.append_assoc] at passed
              exact passed

theorem Holds.delete (holds : m.Holds rows) (key : Value) :
    (m.delete key).Holds (byValue.erase rows key) := by
  have fromStart : m.Holds ([] ++ rows) := holds
  exact fromStart.deleteFrom holds.length.symm.le key

end Mapping

end Kjdmud.Vm
