import Kjdmud.Vm.Mappings.Runs

/-!
# What a run reads

A value that an operation puts under a key is read back until another operation
writes the same place or takes the key out, and a key that was taken out is missing
until it is written again.
-/

namespace Kjdmud.Vm

/-! ## The shape of a mapping -/

/-- The other columns go with the entries: none when the width is 1, else one row of
`width - 1` values for each entry. -/
structure Mapping.Aligned (m : Mapping) : Prop where
  single : m.width = 1 → m.extraColumns = []
  wide : m.width ≠ 1 → m.extraColumns.length = m.entries.length ∧
    ∀ row ∈ m.extraColumns, row.length = m.width - 1

/-- No two entries have equal keys. -/
def Mapping.DistinctKeys (m : Mapping) : Prop :=
  m.entries.Pairwise fun entry entry' => valuesEqual entry.1 entry'.1 = false

/-- No entry has a key equal to this one. -/
def Mapping.Lacks (m : Mapping) (key : Value) : Prop :=
  ∀ entry ∈ m.entries, valuesEqual entry.1 key = false

namespace Mapping

variable {m : Mapping} {rows : List (Value × List Value)} {key : Value}

theorem Holds.aligned (holds : m.Holds rows) : m.Aligned where
  single one := by
    rw [congrArg Mapping.extraColumns holds.built, ofRows]
    exact if_neg (by rw [one]; exact Nat.lt_irrefl 1)
  wide notOne := by
    have wide : m.width > 1 := Nat.lt_of_le_of_ne holds.positive (Ne.symm notOne)
    rw [holds.length, congrArg Mapping.extraColumns holds.built, ofRows]
    simp only [if_pos wide, List.length_map, List.mem_map, true_and]
    rintro _ ⟨row, mem, rfl⟩
    rw [List.length_tail, holds.full row mem]

theorem Holds.distinctKeys (holds : m.Holds rows) (distinct : byValue.Distinct rows) :
    m.DistinctKeys := by
  rw [DistinctKeys, congrArg Mapping.entries holds.built, ofRows, List.pairwise_map]
  exact distinct

theorem lacks_iff_find : m.Lacks key ↔ m.find key = none := by
  unfold Lacks Mapping.find
  rw [List.findIdx?_eq_none_iff]

theorem lacks_iff_read : m.Lacks key ↔ ∀ col, m.read key col = none := by
  rw [lacks_iff_find]
  constructor
  · intro missing col
    rw [Mapping.read, missing]
    rfl
  · intro nothing
    exact Option.map_eq_none_iff.1 (nothing 0)

/-- A key that does not equal itself is in no mapping. -/
theorem lacks_of_not_self (notSelf : valuesEqual key key = false) : m.Lacks key := by
  intro entry _
  cases equal : valuesEqual entry.1 key with
  | false => rfl
  | true =>
      have self := valuesEqual_trans (valuesEqual_symm equal) equal
      exact absurd (self.symm.trans notSelf) (by decide)

end Mapping

/-! ## Operations and places -/

/-- An operation puts a value under a key in a column of a mapping. -/
def MappingOp.Puts (w : World) (ref : Ref) (key : Value) (col : Nat) (v : Value) :
    MappingOp → Prop
  | .literal instr s =>
      ref = w.mappings.length ∧
        ∃ row ∈ s.literal instr, row.headD Value.void = key ∧ row.tail[col]? = some v
  | .add left right =>
      ref = w.mappings.length ∧
        ((w.operand right).read key col).or ((w.operand left).read key col) = some v
  | .assign ref' key' value column =>
      ref < w.mappings.length ∧ ref' = ref ∧ key' = key ∧ value = v ∧
        mappingColumn (w.mapping ref) column = .ok col
  | _ => False

/-- An operation takes a key out of a mapping. -/
def MappingOp.Takes (w : World) (ref : Ref) (key : Value) : MappingOp → Prop
  | .delete ref' key' => ref < w.mappings.length ∧ ref' = ref ∧ key' = key
  | .erase ref' i =>
      ref < w.mappings.length ∧ ref' = ref ∧
        ((w.mapping ref).entries[i]?).map Prod.fst = some key
  | _ => False

theorem MappingOp.Takes.inside {w : World} {ref : Ref} {key : Value} {op : MappingOp}
    (takes : op.Takes w ref key) : ref < w.mappings.length := by
  cases op with
  | delete => exact takes.1
  | erase => exact takes.1
  | literal => cases takes
  | add => cases takes
  | assign => cases takes
  | other => cases takes

/-- An operation does not assign to a key of a mapping. -/
def MappingOp.SparesKey (ref : Ref) (key : Value) : MappingOp → Prop
  | .assign ref' key' _ _ => ref' = ref → valuesEqual key' key = false
  | _ => True

/-- An operation neither assigns to a column of a key of a mapping nor takes the key
out. -/
def MappingOp.SparesColumn (w : World) (ref : Ref) (key : Value) (col : Nat) :
    MappingOp → Prop
  | .assign ref' key' _ column =>
      ref' = ref → valuesEqual key' key = false ∨
        mappingColumn (w.mapping ref) column ≠ .ok col
  | .delete ref' key' => ref' = ref → valuesEqual key' key = false
  | .erase ref' i =>
      ref' = ref → ∀ entry, (w.mapping ref).entries[i]? = some entry →
        valuesEqual entry.1 key = false
  | _ => True

/-! ## One operation -/

namespace MappingOp.Leads

variable {w w' : World} {op : MappingOp} {ref : Ref} {key v : Value} {col : Nat}

/-- The mappings there are stay; new ones come behind them. -/
theorem length_le (leads : op.Leads w w') : w.mappings.length ≤ w'.mappings.length := by
  have grows (m : Mapping) : w.mappings.length ≤ (w.newMapping m).1.mappings.length := by
    rw [World.newMapping, List.length_append]
    exact Nat.le_add_right _ _
  have stays (ref : Ref) (m : Mapping) :
      w.mappings.length ≤ (w.setMapping ref m).mappings.length := by
    rw [World.setMapping, List.length_set]
  cases op with
  | literal instr s =>
      obtain ⟨rfl, s', ran, rfl⟩ := leads
      obtain ⟨m, made, _, _⟩ := makeMapping_next ran
      rw [made]
      exact grows m
  | add left right =>
      obtain ⟨_, ran⟩ := leads
      unfold addMappings at ran
      simp only at ran
      split at ran
      · cases ran
      · cases ran
        exact grows _
  | assign ref key value column =>
      obtain ⟨col, _, rfl⟩ := assignMapping_ok leads
      exact stays ref _
  | delete ref key =>
      obtain rfl := leads
      exact stays ref _
  | erase ref i =>
      obtain ⟨_, rfl⟩ := leads
      exact stays ref _
  | other =>
      have same : w'.mappings = w.mappings := leads
      rw [same]

/-- A new mapping leaves those there are. -/
theorem mapping_newMapping_of_lt {m : Mapping} (inside : ref < w.mappings.length) :
    (w.newMapping m).1.mapping ref = w.mapping ref := by
  rw [mapping_newMapping, if_neg inside.ne]

/-- The mapping in a place after one operation, told by the kind of operation. -/
theorem mapping_of_lt (leads : op.Leads w w') (tables : w.Tables fun _ => True)
    (inside : ref < w.mappings.length) :
    w'.mapping ref = w.mapping ref ∨
      (∃ key' value column col, op = .assign ref key' value column ∧
        mappingColumn (w.mapping ref) column = .ok col ∧
          w'.mapping ref = (w.mapping ref).assign key' value col) ∨
      (∃ key', op = .delete ref key' ∧ w'.mapping ref = (w.mapping ref).delete key') ∨
      ∃ i entry, op = .erase ref i ∧ (w.mapping ref).entries[i]? = some entry ∧
        w'.mapping ref = (w.mapping ref).eraseAt i := by
  have changed (ref' : Ref) (m : Mapping) :
      (w.setMapping ref' m).mapping ref = if ref' = ref then m else w.mapping ref := by
    rw [mapping_setMapping]
    by_cases same : ref' = ref
    · rw [if_pos same, if_pos ⟨same, same ▸ inside⟩]
    · rw [if_neg same, if_neg fun both => same both.1]
  cases op with
  | literal instr s =>
      obtain ⟨rfl, s', ran, rfl⟩ := leads
      obtain ⟨m, made, _, _⟩ := makeMapping_next ran
      left
      rw [made, mapping_newMapping_of_lt inside]
  | add left right =>
      obtain ⟨_, ran⟩ := leads
      obtain ⟨rows, holds, _⟩ := tables.operand kept_true left
      obtain ⟨new, holdsNew, _⟩ := tables.operand kept_true right
      obtain ⟨m, rfl, _⟩ := addMappings_ok ran holds holdsNew
      left
      exact mapping_newMapping_of_lt inside
  | assign ref' key' value column =>
      obtain ⟨col, found, rfl⟩ := assignMapping_ok leads
      rw [changed]
      by_cases same : ref' = ref
      · subst same
        right; left
        rw [if_pos rfl]
        exact ⟨key', value, column, col, rfl, found, rfl⟩
      · left
        rw [if_neg same]
  | delete ref' key' =>
      obtain rfl := leads
      rw [changed]
      by_cases same : ref' = ref
      · subst same
        right; right; left
        rw [if_pos rfl]
        exact ⟨key', rfl, rfl⟩
      · left
        rw [if_neg same]
  | erase ref' i =>
      obtain ⟨there, rfl⟩ := leads
      rw [changed]
      by_cases same : ref' = ref
      · subst same
        right; right; right
        rw [if_pos rfl]
        exact ⟨i, _, rfl, List.getElem?_eq_getElem there, rfl⟩
      · left
        rw [if_neg same]
  | other =>
      left
      unfold World.mapping
      rw [show w'.mappings = w.mappings from leads]

/-- A value stays where no operation touches it. -/
theorem read_of_sparesColumn (leads : op.Leads w w') (tables : w.Tables byValue.Distinct)
    (inside : ref < w.mappings.length) (spares : op.SparesColumn w ref key col)
    (there : (w.mapping ref).read key col = some v) :
    (w'.mapping ref).read key col = some v := by
  obtain ⟨rows, holds, distinct⟩ := tables ref
  rcases leads.mapping_of_lt tables.shapes inside with
    same | ⟨key', value, column, col', rfl, found, made⟩ | ⟨key', rfl, made⟩ |
    ⟨i, entry, rfl, here, made⟩
  · rw [same, there]
  · rw [made, ← there]
    apply holds.read_assign_other (mappingColumn_lt holds.positive found)
    rcases spares rfl with different | otherColumn
    · exact .inl different
    · right
      constructor
      · rintro rfl
        exact otherColumn found
      · rw [there]
        exact Option.some_ne_none v
  · rw [made, holds.read_delete, spares rfl, if_neg Bool.false_ne_true, there]
  · rw [made, holds.read_eraseAt distinct here, spares rfl entry here,
      if_neg Bool.false_ne_true, there]

/-- A key stays missing where no operation assigns to it. -/
theorem lacks_of_sparesKey (leads : op.Leads w w') (tables : w.Tables byValue.Distinct)
    (inside : ref < w.mappings.length) (spares : op.SparesKey ref key)
    (missing : (w.mapping ref).Lacks key) : (w'.mapping ref).Lacks key := by
  obtain ⟨rows, holds, distinct⟩ := tables ref
  have shapes : w.Tables fun _ => True := fun ref =>
    let ⟨rows, holds, _⟩ := tables ref
    ⟨rows, holds, trivial⟩
  rw [Mapping.lacks_iff_read] at missing ⊢
  intro col
  rcases leads.mapping_of_lt shapes inside with same | ⟨key', value, column, col', rfl, found, made⟩ |
    ⟨key', rfl, made⟩ | ⟨i, entry, rfl, here, made⟩
  · rw [same, missing]
  · rw [made, holds.read_assign_other (mappingColumn_lt holds.positive found)
      (.inl (spares rfl)), missing]
  · rw [made, holds.read_delete, missing, ite_self]
  · rw [made, holds.read_eraseAt distinct here, missing, ite_self]

/-- What an operation puts is there afterwards under every equal key. -/
theorem read_of_puts (leads : op.Leads w w') (tables : w.Tables byValue.Distinct)
    (differ : op.LiteralKeysDiffer) (puts : op.Puts w ref key col v) {key' : Value}
    (equal : valuesEqual key key' = true) :
    ref < w'.mappings.length ∧ (w'.mapping ref).read key' col = some v := by
  have made (m : Mapping) : w.mappings.length < (w.newMapping m).1.mappings.length ∧
      (w.newMapping m).1.mapping w.mappings.length = m := by
    rw [mapping_newMapping, if_pos rfl, World.newMapping, List.length_append]
    exact ⟨Nat.lt_succ_self _, rfl⟩
  cases op with
  | literal instr s =>
      obtain ⟨rfl, row, mem, rfl, here⟩ := puts
      obtain ⟨rfl, s', ran, rfl⟩ := leads
      obtain ⟨m, isNew, _, holds⟩ := makeMapping_next ran
      have distinct : byValue.Distinct (Mapping.rowsOf (s.literal instr)) :=
        distinct_rowsOf differ
      have inRows : (row.headD Value.void, row.tail) ∈ Mapping.rowsOf (s.literal instr) :=
        List.mem_map_of_mem mem
      rw [isNew, (made m).2, holds.read, Table.Comparison.read_of_mem distinct inRows equal]
      exact ⟨(made m).1, by rw [Option.map_some, column, here]; rfl⟩
  | add left right =>
      obtain ⟨rfl, here⟩ := puts
      obtain ⟨_, ran⟩ := leads
      obtain ⟨rows, holds, _⟩ := tables.operand kept_distinct left
      obtain ⟨new, holdsNew, distinctNew⟩ := tables.operand kept_distinct right
      obtain ⟨m, rfl, merged⟩ := addMappings_ok ran holds holdsNew
      rw [holds.read, holdsNew.read, ← Option.map_or, ← Table.Comparison.read_merge distinctNew,
        Table.Comparison.read_congr equal, ← merged.read] at here
      rw [(made m).2]
      exact ⟨(made m).1, here⟩
  | assign ref' key'' value column =>
      obtain ⟨inside, rfl, rfl, rfl, found⟩ := puts
      obtain ⟨col', found', rfl⟩ := assignMapping_ok leads
      obtain ⟨rows, holds, _⟩ := tables ref'
      obtain rfl : col' = col := Except.ok.inj (found'.symm.trans found)
      constructor
      · rw [World.setMapping, List.length_set]
        exact inside
      · rw [mapping_setMapping, if_pos ⟨rfl, inside⟩]
        exact holds.read_assign_same (mappingColumn_lt holds.positive found) equal
  | delete ref' key' => cases puts
  | erase ref' i => cases puts
  | other => cases puts

/-- A key that is taken out is missing. -/
theorem lacks_of_takes (leads : op.Leads w w') (tables : w.Tables byValue.Distinct)
    (takes : op.Takes w ref key) :
    ref < w'.mappings.length ∧ (w'.mapping ref).Lacks key := by
  cases self : valuesEqual key key with
  | false => exact ⟨Nat.lt_of_lt_of_le takes.inside leads.length_le, Mapping.lacks_of_not_self self⟩
  | true =>
      refine ⟨Nat.lt_of_lt_of_le takes.inside leads.length_le, ?_⟩
      rw [Mapping.lacks_iff_read]
      intro col
      obtain ⟨rows, holds, distinct⟩ := tables ref
      cases op with
      | delete ref' key' =>
          obtain ⟨inside, rfl, rfl⟩ := takes
          obtain rfl := leads
          rw [mapping_setMapping, if_pos ⟨rfl, inside⟩, holds.read_delete, if_pos self]
      | erase ref' i =>
          obtain ⟨inside, rfl, here⟩ := takes
          obtain ⟨_, rfl⟩ := leads
          obtain ⟨entry, there, rfl⟩ := Option.map_eq_some_iff.1 here
          rw [mapping_setMapping, if_pos ⟨rfl, inside⟩, holds.read_eraseAt distinct there,
            if_pos self]
      | literal instr s => cases takes
      | add left right => cases takes
      | assign ref' key' value column => cases takes
      | other => cases takes

end MappingOp.Leads

/-! ## Runs -/

/-- `Index` on a mapping reads a value under a key and all keys equal to it. -/
def World.Reads (w : World) (ref : Ref) (key : Value) (col : Nat) (v : Value) : Prop :=
  ∀ key' column, valuesEqual key key' = true → mappingColumn (w.mapping ref) column = .ok col →
    indexMapping ref key' column w = .ok (w.coerceIfDestructed v, w)

theorem World.reads_of_read {w : World} {ref : Ref} {key v : Value} {col : Nat}
    (read : ∀ key', valuesEqual key key' = true → (w.mapping ref).read key' col = some v) :
    w.Reads ref key col v := by
  intro key' column equal found
  obtain ⟨i, position, rfl⟩ := Option.map_eq_some_iff.1 (read key' equal)
  unfold indexMapping
  simp only [found, position]
  rfl

section

variable {ok ok' : World → MappingOp → Prop} {w w' : World} {ref : Ref} {key v : Value}
  {col : Nat}

theorem Runs.mono (run : Runs ok w w') (weaker : ∀ w op, ok w op → ok' w op) : Runs ok' w w' := by
  induction run with
  | refl w => exact .refl w
  | step op meets leads _ inductionHypothesis =>
      exact .step op (weaker _ _ meets) leads inductionHypothesis

/-- Keys stay different in a run whose literals have different keys. -/
theorem Runs.distinct (run : Runs (fun _ op => op.LiteralKeysDiffer) w w')
    (tables : w.Tables byValue.Distinct) : w'.Tables byValue.Distinct :=
  run.tables kept_distinct (fun _ _ _ differ => distinct_rowsOf differ) tables

/-- A value stays in a run that does not touch it. -/
theorem Runs.read (run : Runs (fun w op => op.LiteralKeysDiffer ∧ op.SparesColumn w ref key col) w w')
    (tables : w.Tables byValue.Distinct) (inside : ref < w.mappings.length)
    (there : (w.mapping ref).read key col = some v) :
    (w'.mapping ref).read key col = some v := by
  induction run with
  | refl => exact there
  | step op meets leads _ inductionHypothesis =>
      apply inductionHypothesis
      · exact leads.tables kept_distinct
          (fun instr s isLiteral => distinct_rowsOf (by subst isLiteral; exact meets.1)) tables
      · exact Nat.lt_of_lt_of_le inside leads.length_le
      · exact leads.read_of_sparesColumn tables inside meets.2 there

/-- A key stays missing in a run that does not assign to it. -/
theorem Runs.lacks (run : Runs (fun _ op => op.LiteralKeysDiffer ∧ op.SparesKey ref key) w w')
    (tables : w.Tables byValue.Distinct) (inside : ref < w.mappings.length)
    (missing : (w.mapping ref).Lacks key) : (w'.mapping ref).Lacks key := by
  induction run with
  | refl => exact missing
  | step op meets leads _ inductionHypothesis =>
      apply inductionHypothesis
      · exact leads.tables kept_distinct
          (fun instr s isLiteral => distinct_rowsOf (by subst isLiteral; exact meets.1)) tables
      · exact Nat.lt_of_lt_of_le inside leads.length_le
      · exact leads.lacks_of_sparesKey tables inside meets.2 missing

theorem sparesColumn_congr {op : MappingOp} {key' : Value}
    (equal : valuesEqual key key' = true) (spares : op.SparesColumn w ref key col) :
    op.SparesColumn w ref key' col := by
  have same (other : Value) : valuesEqual other key = valuesEqual other key' :=
    byValue.congr_right equal other
  cases op <;> simp only [MappingOp.SparesColumn, same] at spares ⊢ <;> exact spares

/-- A literal makes a mapping with different keys exactly when its own keys are. -/
theorem distinctKeys_literal_iff {instr : Instruction} {s s' : State}
    (ran : makeMapping instr s = some (.next 1 s')) :
    (s'.world.mapping s.world.mappings.length).DistinctKeys ↔
      (MappingOp.literal instr s).LiteralKeysDiffer := by
  obtain ⟨m, made, _, holds⟩ := makeMapping_next ran
  rw [made, mapping_newMapping, if_pos rfl, Mapping.DistinctKeys,
    congrArg Mapping.entries holds.built, Mapping.ofRows, List.pairwise_map,
    MappingOp.LiteralKeysDiffer, KeysDiffer, Mapping.rowsOf, List.pairwise_map, List.pairwise_map]

theorem tables_of_mappings_nil {property : List (Value × List Value) → Prop}
    (kept : Kept property) {w : World} (start : w.mappings = []) : w.Tables property := by
  intro ref
  refine ⟨[], ?_, kept.nil⟩
  rw [World.mapping, start]
  exact Mapping.holds_nil (Nat.le_refl 1)

end

/-- In a run whose literals have different keys every mapping is aligned and has
different keys.  What an operation puts under a key is read back under every equal key
until an operation touches it, and a key taken out is missing until it is assigned
again. -/
theorem runs_keep_mappings {w w' : World} (start : w.mappings = [])
    (run : Runs (fun _ op => op.LiteralKeysDiffer) w w') :
    (∀ ref, (w'.mapping ref).Aligned ∧ (w'.mapping ref).DistinctKeys) ∧
      ∀ (op : MappingOp) (after : World), op.LiteralKeysDiffer → op.Leads w' after →
        ∀ ref key,
          (∀ col v later, op.Puts w' ref key col v →
            Runs (fun w op => op.LiteralKeysDiffer ∧ op.SparesColumn w ref key col) after later →
              later.Reads ref key col v) ∧
          ∀ later, op.Takes w' ref key →
            Runs (fun _ op => op.LiteralKeysDiffer ∧ op.SparesKey ref key) after later →
              (later.mapping ref).Lacks key := by
  have tables := run.distinct (tables_of_mappings_nil kept_distinct start)
  constructor
  · intro ref
    obtain ⟨rows, holds, distinct⟩ := tables ref
    exact ⟨holds.aligned, holds.distinctKeys distinct⟩
  · intro op after differ leads ref key
    have tablesAfter : after.Tables byValue.Distinct :=
      leads.tables kept_distinct
        (fun instr s isLiteral => distinct_rowsOf (by subst isLiteral; exact differ)) tables
    constructor
    · intro col v later puts rest
      apply World.reads_of_read
      intro key' equal
      obtain ⟨inside, there⟩ := leads.read_of_puts tables differ puts equal
      have rest' := rest.mono fun w op meets => And.intro meets.1 (sparesColumn_congr equal meets.2)
      exact rest'.read tablesAfter inside there
    · intro later takes rest
      obtain ⟨inside, missing⟩ := leads.lacks_of_takes tables takes
      exact rest.lacks tablesAfter inside missing

/-! ## Samples -/

/-- A driver that has run nothing yet. -/
def freshDriver : World :=
  {}

/-- A state of that driver in front of a literal with these operands. -/
def beforeLiteral (operands : List Value) : State :=
  ⟨[], operands.reverse, 0, freshDriver⟩

theorem runs_literal {ok : World → MappingOp → Prop} {entryCount : Int} {operands : List Value}
    {s' : State}
    (ran : makeMapping ⟨.makeMapping, 1, entryCount⟩ (beforeLiteral operands) =
      some (.next 1 s'))
    (meets : ok freshDriver (.literal ⟨.makeMapping, 1, entryCount⟩ (beforeLiteral operands))) :
    Runs ok freshDriver s'.world :=
  .step _ meets ⟨rfl, s', ran, rfl⟩ (.refl _)

/-- The literal `([1: 2, 3: 4])`, and then 5 assigned under the key 1. -/
theorem runs_keep_mappings_sample : ∃ w after,
    Runs (fun _ op => op.LiteralKeysDiffer) freshDriver w ∧
      (w.mapping 0).Aligned ∧ (w.mapping 0).DistinctKeys ∧
      (MappingOp.assign 0 (Value.int 1) (Value.int 5) none).Leads w after ∧
      after.Reads 0 (Value.int 1) 0 (Value.int 5) := by
  have differ : (MappingOp.literal ⟨.makeMapping, 1, 2⟩
      (beforeLiteral [Value.int 1, Value.int 2, Value.int 3, Value.int 4])).LiteralKeysDiffer := by
    unfold MappingOp.LiteralKeysDiffer KeysDiffer
    decide
  have run : Runs (fun _ op => op.LiteralKeysDiffer) freshDriver _ := runs_literal rfl differ
  obtain ⟨shape, places⟩ := runs_keep_mappings rfl run
  obtain ⟨puts, _⟩ := places (.assign 0 (Value.int 1) (Value.int 5) none) _ trivial rfl 0
    (Value.int 1)
  exact ⟨_, _, run, (shape 0).1, (shape 0).2, rfl,
    puts 0 (Value.int 5) _ ⟨by decide, rfl, rfl, rfl, rfl⟩ (.refl _)⟩

/-- The literal `([1: 2, 1: 3])` makes a mapping with the key 1 twice. -/
theorem sample_literal_repeats : ∃ w, Runs (fun _ _ => True) freshDriver w ∧
    ¬ (w.mapping 0).DistinctKeys := by
  have ran : makeMapping ⟨.makeMapping, 1, 2⟩
      (beforeLiteral [Value.int 1, Value.int 2, Value.int 1, Value.int 3]) =
        some (.next 1 _) := rfl
  refine ⟨_, runs_literal ran trivial, fun distinct => ?_⟩
  have differ := (distinctKeys_literal_iff ran).1 distinct
  unfold MappingOp.LiteralKeysDiffer KeysDiffer at differ
  revert differ
  decide

end Kjdmud.Vm
