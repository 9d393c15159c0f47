import Kjdmud.Vm.Mappings

/-!
# Mappings over whole runs

A run is any sequence of operations on the mappings of the driver: literals,
additions, assignments, deletions and whatever leaves the mappings alone.  In a run
whose literals have different keys every mapping stays a table with different keys,
and a read gives what was written last.
-/

namespace Kjdmud.Vm

namespace Mapping

variable {m : Mapping} {rows : List (Value × List Value)}

/-! ## Literals and additions -/

theorem width_mergeEntry (right m : Mapping) (ri : Nat) :
    (mergeEntry right m ri).width = m.width := by
  unfold mergeEntry
  split
  · rfl
  · simp only
    split <;> rfl

/-- A mapping addition writes all rows of the right mapping into the left one. -/
theorem Holds.addition {right : Mapping} {new : List (Value × List Value)}
    (holds : m.Holds rows) (holdsNew : right.Holds new) (sameWidth : right.width = m.width) :
    ((List.range right.entries.length).foldl (Vm.mergeEntry right) m).Holds
      (byValue.merge rows new) := by
  suffices upTo : ∀ n ≤ new.length,
      ((List.range n).foldl (Vm.mergeEntry right) m).Holds (byValue.merge rows (new.take n)) ∧
        ((List.range n).foldl (Vm.mergeEntry right) m).width = m.width by
    have all := (upTo new.length (Nat.le_refl _)).1
    rwa [List.take_length, ← holdsNew.length] at all
  intro n
  induction n with
  | zero => exact fun _ => ⟨holds, rfl⟩
  | succ n inductionHypothesis =>
      intro inside
      obtain ⟨before, width⟩ := inductionHypothesis (Nat.le_of_succ_le inside)
      have here : new[n]? = some new[n] := List.getElem?_eq_getElem inside
      rw [List.range_succ, List.foldl_append, List.foldl_cons, List.foldl_nil,
        List.take_add_one, here, width_mergeEntry]
      refine ⟨?_, width⟩
      rw [Table.Comparison.merge, Option.toList_some, List.foldl_append]
      exact before.mergeEntry holdsNew (sameWidth.trans width.symm) here

/-- The rows of a literal, each cut into its key and its values. -/
def rowsOf (literal : List (List Value)) : List (Value × List Value) :=
  literal.map fun row => (row.headD Value.void, row.tail)

theorem Holds.literal {literal : List (List Value)} (holds : m.Holds rows)
    (full : ∀ row ∈ literal, row.length = m.width + 1) :
    (literal.foldl (fun m row => m.appendEntry (row.headD Value.void) row.tail) m).Holds
      (rows ++ rowsOf literal) := by
  induction literal generalizing m rows with
  | nil =>
      rw [rowsOf, List.map_nil, List.append_nil]
      exact holds
  | cons row literal inductionHypothesis =>
      have values : row.tail.length = m.width := by
        rw [List.length_tail, full row List.mem_cons_self, Nat.add_sub_cancel]
      have appended : (m.appendEntry (row.headD Value.void) row.tail).Holds
          (rows ++ [(row.headD Value.void, row.tail)]) := holds.appendEntry values
      have next := inductionHypothesis appended
        fun row mem => full row (List.mem_cons_of_mem _ mem)
      rw [List.append_assoc] at next
      exact next

theorem width_literal (literal : List (List Value)) (m : Mapping) :
    (literal.foldl (fun m row => m.appendEntry (row.headD Value.void) row.tail) m).width =
      m.width := by
  induction literal generalizing m with
  | nil => rfl
  | cons row literal inductionHypothesis => exact inductionHypothesis _

end Mapping

theorem length_of_mem_literalRows {width count : Nat} {operands row : List Value}
    (full : (width + 1) * count ≤ operands.length)
    (mem : row ∈ literalRows width count operands) : row.length = width + 1 := by
  induction count generalizing operands with
  | zero => cases mem
  | succ count inductionHypothesis =>
      rw [Nat.mul_succ] at full
      rcases List.mem_cons.1 mem with rfl | mem
      · rw [List.length_take]
        omega
      · refine inductionHypothesis ?_ mem
        rw [List.length_drop]
        omega

/-- The width and the rows of the literal that `MakeMapping` finds on the stack. -/
def State.literal (s : State) (instr : Instruction) : List (List Value) :=
  let width := (max 1 instr.operand).toNat
  let entryCount := (argumentCount instr s).toNat
  literalRows width entryCount (s.localStack.take ((width + 1) * entryCount)).reverse

/-- A mapping literal makes a mapping with the rows on the stack. -/
theorem makeMapping_next {instr : Instruction} {s s' : State}
    (ran : makeMapping instr s = some (.next 1 s')) :
    ∃ m, s'.world = (s.world.newMapping m).1 ∧
      m.width = (max 1 instr.operand).toNat ∧ m.Holds (Mapping.rowsOf (s.literal instr)) := by
  unfold makeMapping at ran
  simp only at ran
  split at ran
  · cases ran
  · rename_i enough
    have length := Nat.not_lt.1 (not_or.1 enough).2
    cases ran
    refine ⟨_, rfl, Mapping.width_literal _ _, ?_⟩
    · have positive : 1 ≤ (max 1 instr.operand).toNat := by omega
      have empty := Mapping.holds_nil positive
      refine empty.literal fun row mem => length_of_mem_literalRows ?_ mem
      rw [List.length_reverse, List.length_take]
      exact Nat.le_min.2 ⟨Nat.le_refl _, length⟩

/-! ## Reads -/

/-- One value of the first entry with a key. -/
def Mapping.read (m : Mapping) (key : Value) (col : Nat) : Option Value :=
  (m.find key).map fun i => m.getColumn i col

/-- What a row holds in a column. -/
def column (row : List Value) (col : Nat) : Value :=
  (row[col]?).getD Value.void

namespace Mapping

variable {m : Mapping} {rows : List (Value × List Value)} {key key' v : Value} {col col' : Nat}

theorem Holds.getColumn (holds : m.Holds rows) {i : Nat} {row : Value × List Value}
    (here : rows[i]? = some row) : m.getColumn i col = column row.2 col := by
  rw [holds.built]
  cases col with
  | zero =>
      rw [Mapping.getColumn, if_pos rfl, ofRows, List.getElem?_map, here]
      show row.2.headD Value.void = column row.2 0
      cases row.2 <;> rfl
  | succ col =>
      rw [Mapping.getColumn, if_neg (Nat.succ_ne_zero col), ofRows]
      by_cases wide : m.width > 1
      · simp only [if_pos wide, List.getElem?_map, here, Option.map_some, Option.getD_some,
          Nat.add_sub_cancel, column]
        rw [List.getElem?_tail]
      · have one : row.2.length ≤ 1 := by
          rw [holds.full row (List.mem_of_getElem? here)]
          exact Nat.not_lt.1 wide
        simp only [if_neg wide, column]
        rw [List.getElem?_eq_none (Nat.le_trans one (Nat.le_add_left 1 col))]
        rfl

/-- Reads are reads of the table. -/
theorem Holds.read (holds : m.Holds rows) (key : Value) (col : Nat) :
    m.read key col = (byValue.read rows key).map fun row => column row col := by
  rw [Mapping.read, holds.find, Table.Comparison.read_eq_find]
  cases found : byValue.find rows key with
  | none => rfl
  | some i =>
      obtain ⟨row, here, _⟩ := Table.Comparison.same_of_find found
      simp only [Option.map_some, Option.bind_some, here, holds.getColumn here]

/-- What is assigned is read under every equal key. -/
theorem Holds.read_assign_same (holds : m.Holds rows) (inside : col < m.width)
    (equal : valuesEqual key key' = true) :
    (m.assign key v col).read key' col = some v := by
  have found : byValue.same key key' = true := equal
  rw [(holds.assign key v inside).read, Table.Comparison.read_alter, if_pos found]
  cases found : byValue.read rows key' with
  | none =>
      simp only [Option.map_some, writeColumn, column]
      rw [List.getElem?_set_self (by rwa [List.length_replicate])]
      rfl
  | some row =>
      have full : row.length = m.width := by
        unfold Table.Comparison.read at found
        obtain ⟨entry, mem, rfl⟩ := Option.map_eq_some_iff.1 found
        exact holds.full entry (List.mem_of_find?_eq_some mem)
      simp only [Option.map_some, writeColumn, column]
      rw [List.getElem?_set_self (by rwa [full])]
      rfl

/-- An assignment leaves the entries with other keys, and the other columns of an
entry that is there. -/
theorem Holds.read_assign_other (holds : m.Holds rows) (inside : col < m.width)
    (other : valuesEqual key key' = false ∨ (col ≠ col' ∧ m.read key' col' ≠ none)) :
    (m.assign key v col).read key' col' = m.read key' col' := by
  rw [holds.read] at other ⊢
  rw [(holds.assign key v inside).read, Table.Comparison.read_alter]
  cases equal : byValue.same key key' with
  | false => rfl
  | true =>
      rcases other with different | ⟨different, present⟩
      · exact absurd (equal.symm.trans different) (by decide)
      · cases found : byValue.read rows key' with
        | none =>
            rw [found] at present
            exact absurd rfl present
        | some row =>
            simp only [if_true, Option.map_some, writeColumn, column]
            rw [List.getElem?_set_ne different]

theorem Holds.read_delete (holds : m.Holds rows) :
    (m.delete key).read key' col =
      if valuesEqual key key' then none else m.read key' col := by
  rw [(holds.delete key).read, holds.read, Table.Comparison.read_erase]
  show (if valuesEqual key key' then none else byValue.read rows key').map _ = _
  cases valuesEqual key key' <;> rfl

/-- Where keys are different, an entry taken out is missing and the others are
not. -/
theorem Holds.read_eraseAt (holds : m.Holds rows) (distinct : byValue.Distinct rows) {i : Nat}
    {entry : Value × Value} (here : m.entries[i]? = some entry) :
    (m.eraseAt i).read key col =
      if valuesEqual entry.1 key then none else m.read key col := by
  rw [congrArg Mapping.entries holds.built, ofRows, List.getElem?_map] at here
  obtain ⟨row, isRow, rfl⟩ := Option.map_eq_some_iff.1 here
  rw [(holds.eraseAt i).read, holds.read, Table.Comparison.read_eraseIdx distinct isRow]
  show (if valuesEqual row.1 key then none else byValue.read rows key).map _ = _
  cases valuesEqual row.1 key <;> rfl

end Mapping

/-! ## Operations -/

/-- An operation on the mappings of the driver. -/
inductive MappingOp
  /-- `MakeMapping` in a state. -/
  | literal (instr : Instruction) (s : State)
  /-- `Add` on two mappings. -/
  | add (left right : Option Ref)
  /-- `IndexAssign` on a mapping, with or without a column. -/
  | assign (ref : Ref) (key value : Value) (column : Option Value)
  /-- `map_delete`. -/
  | delete (ref : Ref) (key : Value)
  /-- `eraseAt` in the sweep of `reclaim_objects`. -/
  | erase (ref : Ref) (i : Nat)
  /-- Whatever leaves the mappings alone. -/
  | other

/-- An operation leads from a world to another. -/
def MappingOp.Leads (w w' : World) : MappingOp → Prop
  | .literal instr s =>
      s.world = w ∧ ∃ s', makeMapping instr s = some (.next 1 s') ∧ s'.world = w'
  | .add left right => ∃ v, addMappings left right w = .ok (v, w')
  | .assign ref key value column => assignMapping ref key value column w = .ok w'
  | .delete ref key => w' = w.setMapping ref ((w.mapping ref).delete key)
  | .erase ref i =>
      i < (w.mapping ref).entries.length ∧
        w' = w.setMapping ref ((w.mapping ref).eraseAt i)
  | .other => w'.mappings = w.mappings

/-- Runs whose operations all meet a condition. -/
inductive Runs (ok : World → MappingOp → Prop) : World → World → Prop
  | refl (w : World) : Runs ok w w
  | step {w w' w'' : World} (op : MappingOp) (meets : ok w op) (leads : op.Leads w w')
      (rest : Runs ok w' w'') : Runs ok w w''

/-- No two keys are equal. -/
def KeysDiffer (keys : List Value) : Prop :=
  keys.Pairwise fun key key' => valuesEqual key key' = false

/-- The keys of a literal are different. -/
def MappingOp.LiteralKeysDiffer : MappingOp → Prop
  | .literal instr s => KeysDiffer ((s.literal instr).map fun row => row.headD Value.void)
  | _ => True

theorem distinct_rowsOf {literal : List (List Value)}
    (differ : KeysDiffer (literal.map fun row => row.headD Value.void)) :
    byValue.Distinct (Mapping.rowsOf literal) := by
  rw [Table.Comparison.distinct_iff_keys, Mapping.rowsOf, List.map_map]
  exact differ

/-! ## What one operation does -/

theorem mapping_newMapping (w : World) (m : Mapping) (ref : Ref) :
    (w.newMapping m).1.mapping ref = if ref = w.mappings.length then m else w.mapping ref := by
  unfold World.mapping World.newMapping
  rcases Nat.lt_trichotomy ref w.mappings.length with inside | rfl | outside
  · rw [if_neg inside.ne, List.getElem?_append_left inside]
  · rw [if_pos rfl, List.getElem?_append_right (Nat.le_refl _), Nat.sub_self]
    rfl
  · rw [if_neg outside.ne', List.getElem?_eq_none (Nat.le_of_lt outside),
      List.getElem?_eq_none (by rw [List.length_append]; exact outside)]

theorem mapping_setMapping (w : World) (m : Mapping) (ref ref' : Ref) :
    (w.setMapping ref m).mapping ref' =
      if ref = ref' ∧ ref < w.mappings.length then m else w.mapping ref' := by
  unfold World.mapping World.setMapping
  rw [List.getElem?_set]
  by_cases same : ref = ref'
  · subst same
    by_cases inside : ref < w.mappings.length
    · rw [if_pos rfl, if_pos inside, if_pos ⟨rfl, inside⟩]
      rfl
    · rw [if_pos rfl, if_neg inside, if_neg fun both => inside both.2,
        List.getElem?_eq_none (Nat.not_lt.1 inside)]
  · rw [if_neg same, if_neg fun both => same both.1]

/-- Every mapping is a table with some property. -/
def World.Tables (property : List (Value × List Value) → Prop) (w : World) : Prop :=
  ∀ ref, ∃ rows, (w.mapping ref).Holds rows ∧ property rows

/-- A property of tables that the operations keep. -/
structure Kept (property : List (Value × List Value) → Prop) : Prop where
  nil : property []
  alter : ∀ rows key change, property rows → property (byValue.alter rows key change)
  erase : ∀ rows key, property rows → property (byValue.erase rows key)
  eraseIdx : ∀ rows i, property rows → property (rows.eraseIdx i)

namespace World.Tables

variable {property : List (Value × List Value) → Prop} {w : World} {m : Mapping}
  {rows : List (Value × List Value)}

theorem newMapping (tables : w.Tables property) (holds : m.Holds rows) (has : property rows) :
    (w.newMapping m).1.Tables property := by
  intro ref
  rw [mapping_newMapping]
  split
  · exact ⟨rows, holds, has⟩
  · exact tables ref

theorem setMapping (tables : w.Tables property) (ref : Ref) (holds : m.Holds rows)
    (has : property rows) : (w.setMapping ref m).Tables property := by
  intro ref'
  rw [mapping_setMapping]
  split
  · exact ⟨rows, holds, has⟩
  · exact tables ref'

theorem shapes (tables : w.Tables property) : w.Tables fun _ => True := fun ref =>
  let ⟨rows, holds, _⟩ := tables ref
  ⟨rows, holds, trivial⟩

end World.Tables

theorem Kept.merge {property : List (Value × List Value) → Prop} (kept : Kept property)
    {rows : List (Value × List Value)} (has : property rows) (new : List (Value × List Value)) :
    property (byValue.merge rows new) := by
  induction new generalizing rows with
  | nil => exact has
  | cons row new inductionHypothesis => exact inductionHypothesis (kept.alter _ _ _ has)

theorem kept_true : Kept fun _ => True :=
  ⟨trivial, fun _ _ _ _ => trivial, fun _ _ _ => trivial, fun _ _ _ => trivial⟩

theorem kept_distinct : Kept byValue.Distinct where
  nil := .nil
  alter _ key change distinct := distinct.alter key change
  erase _ key distinct := distinct.erase key
  eraseIdx _ i distinct := distinct.eraseIdx i

/-- The column that `IndexAssign` and `Index` check. -/
theorem mappingColumn_lt {m : Mapping} (positive : 1 ≤ m.width) {column : Option Value} {col : Nat}
    (found : mappingColumn m column = .ok col) : col < m.width := by
  unfold mappingColumn at found
  split at found
  · cases found
    exact positive
  · split at found
    · simp only at found
      split at found
      · cases found
      · cases found
        omega
    · cases found

/-- An assignment that succeeds. -/
theorem assignMapping_ok {ref : Ref} {key value : Value} {column : Option Value} {w w' : World}
    (ran : assignMapping ref key value column w = .ok w') :
    ∃ col, mappingColumn (w.mapping ref) column = .ok col ∧
      w' = w.setMapping ref ((w.mapping ref).assign key value col) := by
  unfold assignMapping at ran
  cases found : mappingColumn (w.mapping ref) column with
  | error error =>
      simp only [found] at ran
      cases ran
  | ok col =>
      refine ⟨col, rfl, ?_⟩
      simp only [found] at ran
      unfold Mapping.assign
      cases position : (w.mapping ref).find key with
      | none =>
          simp only [position] at ran ⊢
          cases ran
          rfl
      | some i =>
          simp only [position] at ran ⊢
          cases ran
          rfl

/-- The mapping a pointer leads to; a null pointer counts as empty. -/
def World.operand (w : World) : Option Ref → Mapping
  | some ref => w.mapping ref
  | none => ⟨[], 1, []⟩

theorem World.Tables.operand {property : List (Value × List Value) → Prop} {w : World}
    (tables : w.Tables property) (kept : Kept property) (ref : Option Ref) :
    ∃ rows, (w.operand ref).Holds rows ∧ property rows := by
  cases ref with
  | none => exact ⟨[], Mapping.holds_nil (Nat.le_refl 1), kept.nil⟩
  | some ref => exact tables ref

theorem Mapping.Holds.eq_nil {width : Nat} {rows : List (Value × List Value)}
    (holds : Mapping.Holds ⟨[], width, []⟩ rows) : rows = [] :=
  List.length_eq_zero_iff.1 holds.length.symm

/-- A mapping addition that succeeds makes a mapping with the rows of the left
operand and, over them, those of the right one. -/
theorem addMappings_ok {left right : Option Ref} {w w' : World} {v : Value}
    (ran : addMappings left right w = .ok (v, w')) {rows new : List (Value × List Value)}
    (holds : (w.operand left).Holds rows) (holdsNew : (w.operand right).Holds new) :
    ∃ m, w' = (w.newMapping m).1 ∧ m.Holds (byValue.merge rows new) := by
  unfold addMappings at ran
  simp only at ran
  split at ran
  · cases ran
  · rename_i sameWidth
    cases ran
    refine ⟨_, rfl, ?_⟩
    cases right with
    | none =>
        obtain rfl := holdsNew.eq_nil
        cases left with
        | none =>
            obtain rfl := holds.eq_nil
            exact holds
        | some left => exact holds
    | some right =>
        cases left with
        | none =>
            obtain rfl := holds.eq_nil
            exact (Mapping.holds_nil holdsNew.positive).addition holdsNew rfl
        | some left =>
            refine holds.addition holdsNew ?_
            simp at sameWidth
            exact sameWidth.symm

/-- One operation keeps a property of tables; a literal has to come with it. -/
theorem MappingOp.Leads.tables {property : List (Value × List Value) → Prop}
    (kept : Kept property) {w w' : World} {op : MappingOp} (leads : op.Leads w w')
    (literal : ∀ instr s, op = .literal instr s → property (Mapping.rowsOf (s.literal instr)))
    (tables : w.Tables property) : w'.Tables property := by
  cases op with
  | literal instr s =>
      obtain ⟨rfl, s', ran, rfl⟩ := leads
      obtain ⟨m, made, _, holds⟩ := makeMapping_next ran
      rw [made]
      exact tables.newMapping holds (literal instr s rfl)
  | add left right =>
      obtain ⟨v, ran⟩ := leads
      obtain ⟨rows, holds, has⟩ := tables.operand kept left
      obtain ⟨new, holdsNew, _⟩ := tables.operand kept right
      obtain ⟨m, rfl, merged⟩ := addMappings_ok ran holds holdsNew
      exact tables.newMapping merged (kept.merge has new)
  | assign ref key value column =>
      obtain ⟨rows, holds, has⟩ := tables ref
      obtain ⟨col, found, rfl⟩ := assignMapping_ok leads
      exact tables.setMapping ref
        (holds.assign key value (mappingColumn_lt holds.positive found)) (kept.alter _ _ _ has)
  | delete ref key =>
      obtain ⟨rows, holds, has⟩ := tables ref
      obtain rfl := leads
      exact tables.setMapping ref (holds.delete key) (kept.erase _ _ has)
  | erase ref i =>
      obtain ⟨rows, holds, has⟩ := tables ref
      obtain ⟨_, rfl⟩ := leads
      exact tables.setMapping ref (holds.eraseAt i) (kept.eraseIdx _ _ has)
  | other =>
      intro ref
      have same : w'.mapping ref = w.mapping ref := by
        unfold World.mapping
        rw [show w'.mappings = w.mappings from leads]
      rw [same]
      exact tables ref

/-- A run keeps a property of tables that its literals have. -/
theorem Runs.tables {property : List (Value × List Value) → Prop} (kept : Kept property)
    {ok : World → MappingOp → Prop} {w w' : World} (run : Runs ok w w')
    (literal : ∀ w instr s, ok w (.literal instr s) →
      property (Mapping.rowsOf (s.literal instr)))
    (tables : w.Tables property) : w'.Tables property := by
  induction run with
  | refl => exact tables
  | step op meets leads _ inductionHypothesis =>
      refine inductionHypothesis (leads.tables kept (fun instr s isLiteral => ?_) tables)
      subst isLiteral
      exact literal _ instr s meets

end Kjdmud.Vm
