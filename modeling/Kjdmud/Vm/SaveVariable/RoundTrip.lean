import Kjdmud.Vm.SaveVariable.Reader

/-!
# Round trip of the save-format

Reading back what `writeRealSaveValue` wrote gives the value again, up to the
normalisations of the format: kinds that are written as nothing come back as
0, a mapping without entries has width 1, and the flags are lost.  The
induction carries a delimiter context: a value is followed by the end of the
text or by one of the bytes the writer puts behind it, so that even a value
written as nothing is delimited.
-/

namespace Kjdmud.SaveVariable

open Fuel Outcome

/-! ## Induction over the contents of a value -/

/-- Values without contents of their own. -/
def SaveValue.isLeaf : SaveValue → Bool
  | .array _ _ | .mapping _ _ _ => false
  | _ => true

/-- A property that leaves have and that arrays and mappings inherit from their
contents. -/
structure Hereditary (P : SaveValue → Prop) : Prop where
  leaf : ∀ v, v.isLeaf = true → P v
  array : ∀ items flag, (∀ item ∈ items, P item) → P (.array items flag)
  mapping : ∀ width entries extraColumns, (∀ entry ∈ entries, P entry.1 ∧ P entry.2) →
    (∀ row ∈ extraColumns, ∀ column ∈ row, P column) →
    P (.mapping width entries extraColumns)

section Induction

variable {P : SaveValue → Prop}

mutual

/-- Every value has a hereditary property. -/
theorem Hereditary.all (hereditary : Hereditary P) : ∀ v, P v
  | .array items flag => hereditary.array items flag (hereditary.items items)
  | .mapping width entries extraColumns =>
      hereditary.mapping width entries extraColumns (hereditary.entries entries)
        (hereditary.rows extraColumns)
  | .void | .nil | .int _ _ | .float _ | .string _ | .symbol _ | .object _ | .closure _
  | .buffer _ => hereditary.leaf _ rfl

theorem Hereditary.items (hereditary : Hereditary P) :
    ∀ items : List SaveValue, ∀ item ∈ items, P item
  | [] => fun _ member => nomatch member
  | first :: items =>
      List.forall_mem_cons.mpr ⟨hereditary.all first, hereditary.items items⟩

theorem Hereditary.entry (hereditary : Hereditary P) :
    ∀ entry : SaveValue × SaveValue, P entry.1 ∧ P entry.2
  | (key, value) => ⟨hereditary.all key, hereditary.all value⟩

theorem Hereditary.entries (hereditary : Hereditary P) :
    ∀ entries : List (SaveValue × SaveValue), ∀ entry ∈ entries, P entry.1 ∧ P entry.2
  | [] => fun _ member => nomatch member
  | first :: entries =>
      List.forall_mem_cons.mpr ⟨hereditary.entry first, hereditary.entries entries⟩

theorem Hereditary.rows (hereditary : Hereditary P) :
    ∀ rows : List (List SaveValue), ∀ row ∈ rows, ∀ column ∈ row, P column
  | [] => fun _ member => nomatch member
  | first :: rows =>
      List.forall_mem_cons.mpr ⟨hereditary.items first, hereditary.rows rows⟩

end

end Induction

/-! ## What is saved, and what comes back -/

/-- The extra columns of a mapping match its entries: none at width 1, and one row
of `width - 1` columns for each entry otherwise. -/
def aligned (width entryCount : Nat) (rowLengths : List Nat) : Bool :=
  if width = 1 then rowLengths.isEmpty
  else 1 < width && rowLengths == List.replicate entryCount (width - 1)

mutual

/-- The values the format keeps: no floats, no carriage return in a string, and
extra columns aligned with the entries. -/
def saveable : SaveValue → Bool
  | .float _ => false
  | .string s => !s.contains cr
  | .array items _ => saveableItems items
  | .mapping width entries extraColumns =>
      aligned width entries.length (extraColumns.map List.length) &&
        saveableEntries entries && saveableRows extraColumns
  | .void | .nil | .int _ _ | .symbol _ | .object _ | .closure _ | .buffer _ => true

def saveableItems : List SaveValue → Bool
  | [] => true
  | item :: items => saveable item && saveableItems items

def saveableEntry : SaveValue × SaveValue → Bool
  | (key, value) => saveable key && saveable value

def saveableEntries : List (SaveValue × SaveValue) → Bool
  | [] => true
  | entry :: entries => saveableEntry entry && saveableEntries entries

def saveableRows : List (List SaveValue) → Bool
  | [] => true
  | row :: rows => saveableItems row && saveableRows rows

end

mutual

/-- The value a restore gives for a saved one. -/
def normalise : SaveValue → SaveValue
  | .int i _ => .int i false
  | .string s => .string s
  | .float d => .float d
  | .array items _ => .array (normaliseItems items) false
  | .mapping width entries extraColumns =>
      .mapping (if entries.isEmpty then 1 else width) (normaliseEntries entries)
        (normaliseRows extraColumns)
  | .void | .nil | .symbol _ | .object _ | .closure _ | .buffer _ => zero

def normaliseItems : List SaveValue → List SaveValue
  | [] => []
  | item :: items => normalise item :: normaliseItems items

def normaliseEntry : SaveValue × SaveValue → SaveValue × SaveValue
  | (key, value) => (normalise key, normalise value)

def normaliseEntries : List (SaveValue × SaveValue) → List (SaveValue × SaveValue)
  | [] => []
  | entry :: entries => normaliseEntry entry :: normaliseEntries entries

def normaliseRows : List (List SaveValue) → List (List SaveValue)
  | [] => []
  | row :: rows => normaliseItems row :: normaliseRows rows

end

theorem writeItems_eq_map (items : List SaveValue) :
    writeItems items = items.map writeRealSaveValue := by
  induction items with
  | nil => rfl
  | cons item items ih => rw [writeItems, ih, List.map_cons]

theorem writePairs_eq_map (entries : List (SaveValue × SaveValue)) :
    writePairs entries =
      entries.map fun entry => (writeRealSaveValue entry.1, writeRealSaveValue entry.2) := by
  induction entries with
  | nil => rfl
  | cons entry entries ih => rw [writePairs, ih, List.map_cons, writePair]

theorem writeRows_eq_map (rows : List (List SaveValue)) :
    writeRows rows = rows.map (List.map writeRealSaveValue) := by
  induction rows with
  | nil => rfl
  | cons row rows ih => rw [writeRows, ih, writeItems_eq_map, List.map_cons]

theorem normaliseItems_eq_map (items : List SaveValue) :
    normaliseItems items = items.map normalise := by
  induction items with
  | nil => rfl
  | cons item items ih => rw [normaliseItems, ih, List.map_cons]

theorem normaliseEntries_eq_map (entries : List (SaveValue × SaveValue)) :
    normaliseEntries entries =
      entries.map fun entry => (normalise entry.1, normalise entry.2) := by
  induction entries with
  | nil => rfl
  | cons entry entries ih => rw [normaliseEntries, ih, List.map_cons, normaliseEntry]

theorem normaliseRows_eq_map (rows : List (List SaveValue)) :
    normaliseRows rows = rows.map (List.map normalise) := by
  induction rows with
  | nil => rfl
  | cons row rows ih => rw [normaliseRows, ih, normaliseItems_eq_map, List.map_cons]

theorem saveableItems_iff (items : List SaveValue) :
    saveableItems items = true ↔ ∀ item ∈ items, saveable item = true := by
  induction items with
  | nil => simp [saveableItems]
  | cons item items ih => simp [saveableItems, ih]

theorem saveableEntries_iff (entries : List (SaveValue × SaveValue)) :
    saveableEntries entries = true ↔
      ∀ entry ∈ entries, saveable entry.1 = true ∧ saveable entry.2 = true := by
  induction entries with
  | nil => simp [saveableEntries]
  | cons entry entries ih =>
      rcases entry with ⟨key, value⟩
      simp [saveableEntries, saveableEntry, ih]

theorem saveableRows_iff (rows : List (List SaveValue)) :
    saveableRows rows = true ↔ ∀ row ∈ rows, ∀ column ∈ row, saveable column = true := by
  induction rows with
  | nil => simp [saveableRows]
  | cons row rows ih => simp [saveableRows, saveableItems_iff, ih]

/-! ## Leaves -/

/-- The bytes the writer puts behind a value, or the end of the text. -/
def Delimited (rest : Str) : Prop :=
  ∀ c ∈ rest.head?, c = comma ∨ c = colon ∨ c = semicolon

theorem Delimited.nil : Delimited [] := by
  intro c member
  contradiction

theorem Delimited.comma (rest : Str) : Delimited (SaveVariable.comma :: rest) := by
  simp [Delimited]

theorem Delimited.colon (rest : Str) : Delimited (SaveVariable.colon :: rest) := by
  simp [Delimited]

theorem Delimited.semicolon (rest : Str) : Delimited (SaveVariable.semicolon :: rest) := by
  simp [Delimited]

/-- A delimiter starts no value and continues no number. -/
theorem Delimited.head {rest : Str} (delimited : Delimited rest) :
    ∀ c ∈ rest.head?, startsValue c = false ∧ Decimal.isDigit c = false ∧ c ≠ point := by
  intro c member
  rcases delimited c member with rfl | rfl | rfl <;> decide

/-- The writer escapes a byte, replaces it, or leaves it as it is. -/
theorem escapeByte_cases (c : UInt8) :
    escapeByte c = [backslash, c] ∨ (c = lf ∧ escapeByte c = [cr]) ∨
      (c ≠ quote ∧ c ≠ backslash ∧ escapeByte c = [c]) := by
  unfold escapeByte
  by_cases special : c = quote ∨ c = backslash
  · exact .inl (if_pos special)
  · rw [if_neg special]
    rw [not_or] at special
    by_cases isLf : c = lf
    · exact .inr (.inl ⟨isLf, if_pos isLf⟩)
    · exact .inr (.inr ⟨special.1, special.2, if_neg isLf⟩)

/-- A written string is read back up to its closing quote. -/
theorem parseRealSaveString_write {s : Str} (noCr : cr ∉ s) (rest : Str) :
    parseRealSaveString (s.flatMap escapeByte ++ quote :: rest) = (s, rest) := by
  induction s with
  | nil => rw [List.flatMap_nil, List.nil_append, parseRealSaveString_quote]
  | cons c s ih =>
      rw [List.mem_cons, not_or] at noCr
      rw [List.flatMap_cons, List.append_assoc]
      rcases escapeByte_cases c with escaped | ⟨isLf, replaced⟩ | ⟨noQuote, noEscape, plain⟩
      · rw [escaped, List.cons_append, List.cons_append, List.nil_append,
          parseRealSaveString_escape, ih noCr.2]
      · rw [replaced, List.cons_append, List.nil_append,
          parseRealSaveString_byte _ (by decide) (by decide), ih noCr.2, isLf]
        rfl
      · rw [plain, List.cons_append, List.nil_append,
          parseRealSaveString_byte _ noQuote noEscape, ih noCr.2, if_neg (Ne.symm noCr.1)]

/-- The top-level reader reads a written string back the same way. -/
theorem parseRestoreVariableBody_write {s : Str} (noCr : cr ∉ s) (rest : Str) :
    parseRestoreVariableBody (s.flatMap escapeByte ++ quote :: rest) = .ok (s, rest) := by
  induction s with
  | nil => rw [List.flatMap_nil, List.nil_append, parseRestoreVariableBody_quote]
  | cons c s ih =>
      rw [List.mem_cons, not_or] at noCr
      rw [List.flatMap_cons, List.append_assoc]
      rcases escapeByte_cases c with escaped | ⟨isLf, replaced⟩ | ⟨noQuote, noEscape, plain⟩
      · rw [escaped, List.cons_append, List.cons_append, List.nil_append,
          parseRestoreVariableBody_escape, ih noCr.2]
        simp only [if_neg (Ne.symm noCr.1)]
        rfl
      · rw [replaced, List.cons_append, List.nil_append,
          parseRestoreVariableBody_byte _ (by decide) (by decide), ih noCr.2, isLf]
        rfl
      · rw [plain, List.cons_append, List.nil_append,
          parseRestoreVariableBody_byte _ noQuote noEscape, ih noCr.2]
        simp only [if_neg (Ne.symm noCr.1)]
        rfl

/-- The digits of a number in range convert to it. -/
theorem stoll_ofNat (negative : Bool) (n : Nat) {i : Int64}
    (magnitude : i.toInt = if negative then -(n : Int) else n) :
    stoll negative (Decimal.ofNat n) = .ok i := by
  have lower := i.le_toInt
  have upper := i.toInt_lt
  rw [stoll, if_neg (Decimal.ofNat_ne_nil n), Decimal.value_ofNat]
  simp only [← magnitude]
  rw [if_pos ⟨lower, upper⟩, Int64.ofInt_toInt]

/-- The digits of a written number are read back in front of a delimiter. -/
theorem parseUnsigned_write (negative : Bool) (n : Nat) {i : Int64}
    (magnitude : i.toInt = if negative then -(n : Int) else n) {rest : Str}
    (delimited : Delimited rest) :
    parseUnsigned negative (Decimal.ofNat n ++ rest) = .ok (.int i false, rest) := by
  have stops : ∀ c ∈ rest.head?, Decimal.isDigit c = false :=
    fun c member => (delimited.head c member).2.1
  rw [parseUnsigned, Decimal.takeWhile_isDigit_ofNat_append n stops,
    Decimal.dropWhile_isDigit_ofNat_append n stops]
  have converted := stoll_ofNat negative n magnitude
  cases rest with
  | nil =>
      simp only [converted]
      rfl
  | cons c rest =>
      have noPoint := (delimited.head c rfl).2.2
      simp only [converted, if_neg noPoint]
      rfl

/-- A written number starts with a sign or a digit, and behind the sign with a
digit. -/
theorem ofInt_cases (i : Int) :
    (∃ n : Nat, i = n ∧ Decimal.ofInt i = Decimal.ofNat n) ∨
      (∃ n : Nat, i = -(n : Int) ∧ Decimal.ofInt i = minus :: Decimal.ofNat n) := by
  cases i with
  | ofNat n => exact .inl ⟨n, rfl, rfl⟩
  | negSucc n => exact .inr ⟨n + 1, rfl, rfl⟩

/-- A natural number is written with a first digit. -/
theorem ofNat_cons (n : Nat) :
    ∃ c digits, Decimal.ofNat n = c :: digits ∧ Decimal.isDigit c = true := by
  cases written : Decimal.ofNat n with
  | nil => exact absurd written (Decimal.ofNat_ne_nil n)
  | cons c digits =>
      refine ⟨c, digits, rfl, Decimal.isDigit_of_mem_ofNat (n := n) ?_⟩
      rw [written]
      exact List.mem_cons_self

/-- Reading back a written number. -/
theorem converges_value_int (i : Int64) {rest : Str} (delimited : Delimited rest) :
    Converges (fun fuel => parseRealSaveValue fuel (Decimal.ofInt i.toInt ++ rest))
      (.ok (.int i false, rest)) := by
  rcases ofInt_cases i.toInt with ⟨n, value, written⟩ | ⟨n, value, written⟩
  · rcases ofNat_cons n with ⟨c, digits, digitsEq, isDigit⟩
    have read := parseUnsigned_write false n (i := i) (by simpa using value) delimited
    have noMinus : c ≠ minus := by
      rintro rfl
      revert isDigit
      decide
    rw [digitsEq, List.cons_append] at read
    rw [written, digitsEq, List.cons_append]
    have reader := converges_value_number (digits ++ rest) (.inr isDigit)
    rwa [parseRealSaveNumber, if_neg noMinus, read] at reader
  · have read := parseUnsigned_write true n (i := i) (by simpa using value) delimited
    rw [written, List.cons_append]
    have reader := converges_value_number (Decimal.ofNat n ++ rest) (.inl rfl)
    rwa [parseRealSaveNumber, if_pos rfl, read] at reader

/-! ## Containers -/

/-- What the induction proves of a value: it is read back in front of any
delimiter, and it is written as nothing only if it comes back as 0. -/
structure Readable (v : SaveValue) : Prop where
  reads : ∀ rest, Delimited rest →
    Converges (fun fuel => parseRealSaveValue fuel (writeRealSaveValue v ++ rest))
      (.ok (normalise v, rest))
  written : (writeRealSaveValue v = [] ∧ normalise v = zero) ∨
    ∃ c text, writeRealSaveValue v = c :: text ∧ startsValue c = true

/-- The element loop reads written items back. -/
theorem converges_items {items : List SaveValue} (readable : ∀ item ∈ items, Readable item)
    (done : List SaveValue) (rest : Str) :
    Converges
      (fun fuel => parseItems fuel done
        (items.flatMap (fun item => writeRealSaveValue item ++ [comma]) ++
          closeBrace :: rest))
      (.ok (done ++ items.map normalise, closeBrace :: rest)) := by
  induction items generalizing done with
  | nil => simpa using converges_items_stop done (s := closeBrace :: rest) (by simp)
  | cons item items ih =>
      rw [List.forall_mem_cons] at readable
      have later := ih readable.2 (done ++ [normalise item])
      rw [List.append_assoc, List.singleton_append] at later
      rw [List.flatMap_cons, List.append_assoc, List.append_assoc, List.singleton_append]
      generalize items.flatMap (fun item => writeRealSaveValue item ++ [comma]) ++
        closeBrace :: rest = behind at later
      refine Converges.step rfl ?_
      rcases readable.1.written with ⟨nothing, isZero⟩ | ⟨c, text, something, starts⟩
      · rw [nothing, List.nil_append]
        simp only [parseItems_comma]
        rwa [← isZero]
      · have read := readable.1.reads _ (Delimited.comma behind)
        rw [something, List.cons_append] at read ⊢
        have noBrace : c ≠ closeBrace := by
          rintro rfl
          revert starts
          decide
        have noComma : c ≠ comma := by
          rintro rfl
          revert starts
          decide
        simp only [parseItems_element _ done _ noBrace noComma]
        refine converges_andThen read ?_
        simpa using later

/-- The column loop reads written columns back. -/
theorem converges_extra {columns : List SaveValue}
    (readable : ∀ column ∈ columns, Readable column) (done : List SaveValue) (rest : Str) :
    Converges
      (fun fuel => parseExtra fuel done
        (columns.flatMap (fun column => semicolon :: writeRealSaveValue column) ++
          comma :: rest))
      (.ok (done ++ columns.map normalise, comma :: rest)) := by
  induction columns generalizing done with
  | nil => simpa using converges_extra_stop done (s := comma :: rest) (by simp; decide)
  | cons column columns ih =>
      rw [List.forall_mem_cons] at readable
      have later := ih readable.2 (done ++ [normalise column])
      rw [List.append_assoc, List.singleton_append] at later
      have delimited : Delimited
          (columns.flatMap (fun column => semicolon :: writeRealSaveValue column) ++
            comma :: rest) := by
        cases columns with
        | nil => exact Delimited.comma rest
        | cons next columns => exact Delimited.semicolon _
      rw [List.flatMap_cons, List.append_assoc, List.cons_append]
      refine Converges.step rfl ?_
      simp only [parseExtra_column]
      exact converges_andThen (readable.1.reads _ delimited) later

/-- The extra columns of each entry. -/
def columnsOf (width entryCount : Nat) (extraColumns : List (List SaveValue)) :
    List (List SaveValue) :=
  if width = 1 then List.replicate entryCount [] else extraColumns

/-- The entries of a mapping with their extra columns. -/
def mappingRows (width : Nat) (entries : List (SaveValue × SaveValue))
    (extraColumns : List (List SaveValue)) : List (SaveValue × SaveValue × List SaveValue) :=
  (entries.zip (columnsOf width entries.length extraColumns)).map fun pair =>
    (pair.1.1, pair.1.2, pair.2)

/-- An entry as the writer writes it. -/
def entryText (row : SaveValue × SaveValue × List SaveValue) : Str :=
  writeRealSaveValue row.1 ++ colon :: (writeRealSaveValue row.2.1 ++
    (row.2.2.flatMap (fun column => semicolon :: writeRealSaveValue column) ++ [comma]))

/-- An entry as it comes back. -/
def normaliseRow (row : SaveValue × SaveValue × List SaveValue) :
    SaveValue × SaveValue × List SaveValue :=
  (normalise row.1, normalise row.2.1, row.2.2.map normalise)

/-- An entry does not look like the end of its mapping. -/
theorem entryText_head {row : SaveValue × SaveValue × List SaveValue}
    (readKey : Readable row.1) (behind : Str) :
    ∃ c text, entryText row ++ behind = c :: text ∧ c ≠ closeBracket := by
  rcases readKey.written with ⟨nothing, _⟩ | ⟨c, text, something, starts⟩
  · simp only [entryText, nothing]
    exact ⟨colon, _, rfl, by decide⟩
  · have noBracket : c ≠ closeBracket := by
      rintro rfl
      revert starts
      decide
    simp only [entryText, something]
    exact ⟨c, _, rfl, noBracket⟩

/-- One iteration of the entry loop reads one written entry back. -/
theorem converges_entry {row : SaveValue × SaveValue × List SaveValue}
    (readKey : Readable row.1) (readValue : Readable row.2.1)
    (readColumns : ∀ column ∈ row.2.2, Readable column) (behind : Str) :
    Converges (fun fuel => parseEntry fuel (entryText row ++ behind))
      (.ok (normaliseRow row, behind)) := by
  have delimited : Delimited
      (row.2.2.flatMap (fun column => semicolon :: writeRealSaveValue column) ++
        comma :: behind) := by
    cases row.2.2 with
    | nil => exact Delimited.comma behind
    | cons next columns => exact Delimited.semicolon _
  refine Converges.step rfl ?_
  simp only [parseEntry_succ, entryText, List.append_assoc, List.cons_append, List.nil_append]
  refine converges_andThen (readKey.reads _ (Delimited.colon _)) ?_
  simp only [skipByte_cons_self]
  refine converges_andThen (readValue.reads _ delimited) ?_
  refine converges_andThen (converges_extra readColumns [] behind) ?_
  simp only [skipByte_cons_self, List.nil_append]
  exact Converges.const _

/-- The entry loop reads written entries back. -/
theorem converges_entries {rows : List (SaveValue × SaveValue × List SaveValue)}
    (readable : ∀ row ∈ rows,
      Readable row.1 ∧ Readable row.2.1 ∧ ∀ column ∈ row.2.2, Readable column)
    (done : List (SaveValue × SaveValue × List SaveValue)) (rest : Str) :
    Converges
      (fun fuel => parseEntries fuel done (rows.flatMap entryText ++ closeBracket :: rest))
      (.ok (done ++ rows.map normaliseRow, closeBracket :: rest)) := by
  induction rows generalizing done with
  | nil => simpa using converges_entries_stop done (s := closeBracket :: rest) (by simp)
  | cons row rows ih =>
      rw [List.forall_mem_cons] at readable
      rcases readable with ⟨⟨readKey, readValue, readColumns⟩, readLater⟩
      have later := ih readLater (done ++ [normaliseRow row])
      rw [List.append_assoc, List.singleton_append] at later
      rw [List.flatMap_cons, List.append_assoc]
      generalize rows.flatMap entryText ++ closeBracket :: rest = behind at later
      have entry := converges_entry readKey readValue readColumns behind
      rcases entryText_head readKey behind with ⟨c, text, textEq, noBracket⟩
      rw [textEq] at entry ⊢
      refine Converges.step rfl ?_
      simp only [parseEntries_entry _ done text noBracket]
      exact converges_andThen entry later

/-- Columns indexed one by one are the columns. -/
theorem flatMap_range_getD (columns : List Str) :
    ((List.range columns.length).flatMap fun column =>
      semicolon :: columns.getD column []) =
        columns.flatMap (fun text => semicolon :: text) := by
  have indexed : (List.range columns.length).map (fun column => columns.getD column []) =
      columns := by
    refine List.ext_getElem (by simp) fun i _ small => ?_
    simp [List.getElem?_eq_getElem small]
  calc
    _ = ((List.range columns.length).map fun column => columns.getD column []).flatMap
          (fun text => semicolon :: text) := by rw [List.flatMap_map]
    _ = columns.flatMap (fun text => semicolon :: text) := by rw [indexed]

/-- The columns the writer renders for an entry that has its row. -/
theorem writeEntry_row (key value : SaveValue) (columns : List SaveValue) :
    writeEntry (columns.length + 1) (writeRealSaveValue key, writeRealSaveValue value)
        (some (columns.map writeRealSaveValue)) = entryText (key, value, columns) := by
  have rendered := flatMap_range_getD (columns.map writeRealSaveValue)
  rw [List.length_map, List.flatMap_map] at rendered
  simp only [writeEntry, Nat.add_sub_cancel, rendered, entryText, List.append_assoc,
    List.cons_append, List.nil_append]

/-- A mapping of width 1 is written without columns. -/
theorem writeEntries_narrow (entries : List (SaveValue × SaveValue)) :
    writeEntries 1 (writePairs entries) (writeRows []) =
      (mappingRows 1 entries []).flatMap entryText := by
  rw [writePairs_eq_map, writeRows]
  induction entries with
  | nil => rfl
  | cons entry entries ih =>
      rw [List.map_cons, writeEntries, List.tail_nil, ih]
      simp [mappingRows, columnsOf, List.replicate_succ, writeEntry, entryText]

/-- A wider mapping is written with one row of columns for each entry. -/
theorem writeEntries_wide {width : Nat} (wide : 1 < width)
    (entries : List (SaveValue × SaveValue)) (extraColumns : List (List SaveValue))
    (rowLengths : extraColumns.map List.length = List.replicate entries.length (width - 1)) :
    writeEntries width (writePairs entries) (writeRows extraColumns) =
      (mappingRows width entries extraColumns).flatMap entryText := by
  rw [writePairs_eq_map, writeRows_eq_map]
  induction entries generalizing extraColumns with
  | nil => rfl
  | cons entry entries ih =>
      cases extraColumns with
      | nil => simp at rowLengths
      | cons row extraColumns =>
          simp only [List.map_cons, List.length_cons, List.replicate_succ, List.cons.injEq]
            at rowLengths
          have later := ih extraColumns rowLengths.2
          have widthEq : width = row.length + 1 := by omega
          simp only [List.map_cons, writeEntries, List.head?_cons, List.tail_cons, later]
          simp only [mappingRows, columnsOf, if_neg (by omega : ¬ width = 1),
            List.zip_cons_cons, List.map_cons, List.flatMap_cons]
          rw [widthEq, writeEntry_row]

/-- What alignment says about the columns of each entry. -/
theorem aligned_columnsOf {width entryCount : Nat} {extraColumns : List (List SaveValue)}
    (fits : aligned width entryCount (extraColumns.map List.length) = true) :
    1 ≤ width ∧
      (columnsOf width entryCount extraColumns).map List.length =
        List.replicate entryCount (width - 1) ∧
      extraColumns = if width = 1 then [] else columnsOf width entryCount extraColumns := by
  unfold aligned at fits
  split at fits
  · rename_i narrow
    subst narrow
    refine ⟨le_rfl, ?_, ?_⟩
    · simp [columnsOf]
    · simpa using fits
  · rename_i notNarrow
    simp only [Bool.and_eq_true, decide_eq_true_eq, beq_iff_eq] at fits
    refine ⟨by omega, ?_, ?_⟩
    · rw [columnsOf, if_neg notNarrow]
      exact fits.2
    · rw [if_neg notNarrow, columnsOf, if_neg notNarrow]

/-- The widest of equally wide rows. -/
theorem foldl_max_replicate (n : Nat) {width : Nat} (positive : 1 ≤ width) :
    (List.replicate n width).foldl max 1 = if n = 0 then 1 else width := by
  cases n with
  | zero => rfl
  | succ n =>
      rw [List.replicate_succ, List.foldl_cons, max_eq_right positive, if_neg (by omega)]
      induction n with
      | zero => rfl
      | succ n ih => rw [List.replicate_succ, List.foldl_cons, max_self, ih]

/-- The mapping the reader builds from the rows of an aligned mapping. -/
theorem finishMapping_rows {width : Nat} {entries : List (SaveValue × SaveValue)}
    {extraColumns : List (List SaveValue)}
    (fits : aligned width entries.length (extraColumns.map List.length) = true) :
    finishMapping ((mappingRows width entries extraColumns).map normaliseRow) =
      normalise (.mapping width entries extraColumns) := by
  rcases aligned_columnsOf fits with ⟨positive, lengths, extraEq⟩
  have rowsOf : mappingRows width entries extraColumns =
      (entries.zip (columnsOf width entries.length extraColumns)).map fun pair =>
        (pair.1.1, pair.1.2, pair.2) := rfl
  generalize columnsOf width entries.length extraColumns = columns at lengths extraEq rowsOf
  have sameLength : columns.length = entries.length := by
    have counted := congrArg List.length lengths
    simpa using counted
  have widths : ((mappingRows width entries extraColumns).map normaliseRow).map
      (fun row => 1 + row.2.2.length) = List.replicate entries.length width := by
    calc
      _ = ((entries.zip columns).map Prod.snd).map (fun row => 1 + row.length) := by
        simp [rowsOf, normaliseRow, Function.comp_def]
      _ = (columns.map List.length).map (1 + ·) := by
        rw [List.map_snd_zip (le_of_eq sameLength), List.map_map]
        rfl
      _ = List.replicate entries.length width := by
        rw [lengths, List.map_replicate, Nat.add_sub_cancel' positive]
  have pairs : ((mappingRows width entries extraColumns).map normaliseRow).map
      (fun row => (row.1, row.2.1)) = normaliseEntries entries := by
    calc
      _ = ((entries.zip columns).map Prod.fst).map
            (fun entry => (normalise entry.1, normalise entry.2)) := by
        simp [rowsOf, normaliseRow, Function.comp_def]
      _ = normaliseEntries entries := by
        rw [List.map_fst_zip (le_of_eq sameLength.symm), normaliseEntries_eq_map]
  have padded : ((mappingRows width entries extraColumns).map normaliseRow).map
      (fun row => row.2.2 ++ List.replicate (width - 1 - row.2.2.length) zero) =
        normaliseRows columns := by
    have full : ∀ row ∈ columns, row.length = width - 1 := by
      intro row member
      have counted : row.length ∈ columns.map List.length := List.mem_map_of_mem member
      rw [lengths] at counted
      exact List.eq_of_mem_replicate counted
    calc
      _ = ((entries.zip columns).map Prod.snd).map
            (fun row => row.map normalise ++ List.replicate (width - 1 - row.length) zero) := by
        simp [rowsOf, normaliseRow, Function.comp_def]
      _ = columns.map (List.map normalise) := by
        rw [List.map_snd_zip (le_of_eq sameLength)]
        refine List.map_congr_left fun row member => ?_
        rw [full row member, Nat.sub_self, List.replicate_zero, List.append_nil]
      _ = normaliseRows columns := (normaliseRows_eq_map columns).symm
  simp only [finishMapping, widths, pairs, foldl_max_replicate _ positive, normalise]
  by_cases narrow : width = 1
  · subst narrow
    rw [extraEq]
    simp [normaliseRows]
  · rw [if_neg narrow] at extraEq
    subst extraEq
    cases entries with
    | nil =>
        have empty := List.length_eq_zero_iff.mp sameLength
        simp [empty, normaliseRows]
    | cons entry entries =>
        have wide : 1 < width := by omega
        simp only [List.length_cons, Nat.succ_ne_zero, if_false, List.isEmpty_cons, wide,
          if_true, Bool.false_eq_true]
        rw [padded]

/-! ## The round trip -/

theorem readable_leaf {v : SaveValue} (leaf : v.isLeaf = true) (saved : saveable v = true) :
    Readable v := by
  have nothing : writeRealSaveValue v = [] → normalise v = zero → Readable v := by
    intro nothing isZero
    refine ⟨fun rest delimited => ?_, .inl ⟨nothing, isZero⟩⟩
    rw [nothing, isZero, List.nil_append]
    exact converges_value_default fun c member => (delimited.head c member).1
  have number : ∀ i, writeRealSaveValue v = Decimal.ofInt i.toInt →
      normalise v = .int i false → Readable v := by
    intro i written normal
    refine ⟨fun rest delimited => ?_, .inr ?_⟩
    · rw [written, normal]
      exact converges_value_int i delimited
    · rw [written]
      rcases ofInt_cases i.toInt with ⟨n, _, text⟩ | ⟨n, _, text⟩
      · rcases ofNat_cons n with ⟨c, digits, digitsEq, isDigit⟩
        exact ⟨c, digits, text.trans digitsEq, by simp [startsValue, isDigit]⟩
      · exact ⟨minus, _, text, by decide⟩
  cases v with
  | void => exact number 0 rfl rfl
  | int i isUndefined => exact number i rfl rfl
  | float d => simp [saveable] at saved
  | string s =>
      have noCr : cr ∉ s := by simpa [saveable] using saved
      refine ⟨fun rest _ => ?_, .inr ⟨quote, _, rfl, by decide⟩⟩
      have read := converges_value_string (s.flatMap escapeByte ++ quote :: rest)
      rw [parseRealSaveString_write noCr] at read
      simpa [writeRealSaveValue, normalise] using read
  | array items flag => simp [SaveValue.isLeaf] at leaf
  | mapping width entries extraColumns => simp [SaveValue.isLeaf] at leaf
  | nil | symbol name | object handle | closure handle | buffer bytes => exact nothing rfl rfl

/-- The text of an array with its brackets. -/
theorem writeRealSaveValue_array (items : List SaveValue) (flag : Bool) (rest : Str) :
    writeRealSaveValue (.array items flag) ++ rest =
      openParen :: openBrace ::
        (items.flatMap (fun item => writeRealSaveValue item ++ [comma]) ++
          closeBrace :: closeParen :: rest) := by
  simp [writeRealSaveValue, writeItems_eq_map, List.flatMap_map]

/-- The text of an aligned mapping with its brackets. -/
theorem writeRealSaveValue_mapping {width : Nat} {entries : List (SaveValue × SaveValue)}
    {extraColumns : List (List SaveValue)}
    (fits : aligned width entries.length (extraColumns.map List.length) = true) (rest : Str) :
    writeRealSaveValue (.mapping width entries extraColumns) ++ rest =
      openParen :: openBracket ::
        ((mappingRows width entries extraColumns).flatMap entryText ++
          closeBracket :: closeParen :: rest) := by
  have text : writeEntries width (writePairs entries) (writeRows extraColumns) =
      (mappingRows width entries extraColumns).flatMap entryText := by
    unfold aligned at fits
    split at fits
    · rename_i narrow
      have none : extraColumns = [] := by simpa using fits
      rw [narrow, none]
      exact writeEntries_narrow entries
    · simp only [Bool.and_eq_true, decide_eq_true_eq, beq_iff_eq] at fits
      exact writeEntries_wide fits.1 entries extraColumns fits.2
  simp [writeRealSaveValue, text]

theorem closeAggregate_closed (closer : UInt8) (rest : Str) :
    closeAggregate (closer :: closeParen :: rest) = rest := by
  simp [closeAggregate]

theorem readable_array {items : List SaveValue} (flag : Bool)
    (readable : ∀ item ∈ items, Readable item) : Readable (.array items flag) := by
  refine ⟨fun rest _ => ?_, .inr ⟨openParen, _, rfl, by decide⟩⟩
  rw [writeRealSaveValue_array]
  refine Converges.step rfl ?_
  simp only [parseRealSaveValue_array]
  refine converges_andThen (converges_items readable [] (closeParen :: rest)) ?_
  simp only [closeAggregate_closed, List.nil_append, normalise, normaliseItems_eq_map]
  exact Converges.const _

theorem readable_mapping {width : Nat} {entries : List (SaveValue × SaveValue)}
    {extraColumns : List (List SaveValue)}
    (fits : aligned width entries.length (extraColumns.map List.length) = true)
    (readEntries : ∀ entry ∈ entries, Readable entry.1 ∧ Readable entry.2)
    (readColumns : ∀ row ∈ extraColumns, ∀ column ∈ row, Readable column) :
    Readable (.mapping width entries extraColumns) := by
  refine ⟨fun rest _ => ?_, .inr ⟨openParen, _, rfl, by decide⟩⟩
  have readRows : ∀ row ∈ mappingRows width entries extraColumns,
      Readable row.1 ∧ Readable row.2.1 ∧ ∀ column ∈ row.2.2, Readable column := by
    intro row member
    rcases List.mem_map.mp member with ⟨⟨entry, columns⟩, pairMember, rfl⟩
    rcases List.of_mem_zip pairMember with ⟨entryMember, columnsMember⟩
    refine ⟨(readEntries entry entryMember).1, (readEntries entry entryMember).2, ?_⟩
    intro column columnMember
    unfold columnsOf at columnsMember
    split at columnsMember
    · rw [List.eq_of_mem_replicate columnsMember] at columnMember
      contradiction
    · exact readColumns columns columnsMember column columnMember
  rw [writeRealSaveValue_mapping fits]
  refine Converges.step rfl ?_
  simp only [parseRealSaveValue_mapping]
  refine converges_andThen (converges_entries readRows [] (closeParen :: rest)) ?_
  simp only [closeAggregate_closed, List.nil_append, finishMapping_rows fits]
  exact Converges.const _

/-- Every value the format keeps is read back in any delimiter context. -/
theorem readable_of_saveable (v : SaveValue) (saved : saveable v = true) : Readable v := by
  revert saved
  refine Hereditary.all (P := fun v => saveable v = true → Readable v) ?_ v
  refine ⟨fun v leaf saved => readable_leaf leaf saved, ?_, ?_⟩
  · intro items flag ih saved
    rw [saveable, saveableItems_iff] at saved
    exact readable_array flag fun item member => ih item member (saved item member)
  · intro width entries extraColumns ihEntries ihColumns saved
    rw [saveable, Bool.and_eq_true, Bool.and_eq_true, saveableEntries_iff,
      saveableRows_iff] at saved
    rcases saved with ⟨⟨fits, entriesSaved⟩, columnsSaved⟩
    refine readable_mapping fits ?_ ?_
    · intro entry member
      exact ⟨(ihEntries entry member).1 (entriesSaved entry member).1,
        (ihEntries entry member).2 (entriesSaved entry member).2⟩
    · intro row rowMember column member
      exact ihColumns row rowMember column member (columnsSaved row rowMember column member)

/-- The top-level number reader on a written number. -/
theorem parseRestoreVariable_int (fuel : Nat) (i : Int64) :
    parseRestoreVariable fuel (Decimal.ofInt i.toInt) = some (.ok (.int i false, [])) := by
  rcases ofInt_cases i.toInt with ⟨n, value, written⟩ | ⟨n, value, written⟩
  · rcases ofNat_cons n with ⟨c, digits, digitsEq, isDigit⟩
    have read := parseUnsigned_write false n (i := i) (by simpa using value) Delimited.nil
    have noMinus : c ≠ minus := by
      rintro rfl
      revert isDigit
      decide
    have noQuote : c ≠ quote := by
      rintro rfl
      revert isDigit
      decide
    rw [List.append_nil, digitsEq] at read
    rw [written, digitsEq]
    simp [parseRestoreVariable, noQuote, noMinus, isDigit, parseRestoreVariableNumber, read]
  · rcases ofNat_cons n with ⟨c, digits, digitsEq, isDigit⟩
    have read := parseUnsigned_write true n (i := i) (by simpa using value) Delimited.nil
    rw [List.append_nil, digitsEq] at read
    rw [written, digitsEq]
    simp [parseRestoreVariable, show minus ≠ quote by decide, isDigit,
      parseRestoreVariableNumber, read]

/-- The top-level string reader on a written string. -/
theorem parseRestoreVariable_string (fuel : Nat) {s : Str} (noCr : cr ∉ s) :
    parseRestoreVariable fuel (writeRealSaveValue (.string s)) =
      some (.ok (.string s, [])) := by
  have body := parseRestoreVariableBody_write noCr []
  have read : parseRestoreVariableString (s.flatMap escapeByte ++ [quote]) =
      .ok (.string s, []) := by
    simp [parseRestoreVariableString, body, bind, Except.bind, pure, Except.pure]
  simp [writeRealSaveValue, parseRestoreVariable, read]

/-- The top-level reader on a written array or mapping. -/
theorem parseRestoreVariable_paren (fuel : Nat) (rest : Str) :
    parseRestoreVariable fuel (openParen :: rest) =
      parseRealSaveValue fuel (openParen :: rest) := by
  have noQuote : openParen ≠ quote := by decide
  have noNumber : ¬ (openParen = minus ∨ Decimal.isDigit openParen = true) := by decide
  rw [parseRestoreVariable, if_neg noQuote, if_neg noNumber]

/-- Reading back what was saved succeeds, consumes the whole text and gives the
saved value up to the normalisations of the format. -/
theorem restore_save (v : SaveValue) (saved : saveable v = true) :
    Converges (fun fuel => parseRestoreVariable fuel (writeRealSaveValue v))
        (.ok (normalise v, [])) ∧
      Converges (fun fuel => parseRestoreVariableTopLevel fuel (writeRealSaveValue v))
        (.ok (normalise v)) := by
  have whole : Converges (fun fuel => parseRestoreVariable fuel (writeRealSaveValue v))
      (.ok (normalise v, [])) := by
    have element := (readable_of_saveable v saved).reads [] Delimited.nil
    rw [List.append_nil] at element
    cases v with
    | void => exact (Converges.const _).congr fun fuel => parseRestoreVariable_int fuel 0
    | int i isUndefined =>
        exact (Converges.const _).congr fun fuel => parseRestoreVariable_int fuel i
    | float d => simp [saveable] at saved
    | string s =>
        have noCr : cr ∉ s := by simpa [saveable] using saved
        exact (Converges.const _).congr fun fuel => parseRestoreVariable_string fuel noCr
    | array items flag => exact element.congr fun fuel => parseRestoreVariable_paren fuel _
    | mapping width entries extraColumns =>
        exact element.congr fun fuel => parseRestoreVariable_paren fuel _
    | nil | symbol name | object handle | closure handle | buffer bytes =>
        exact Converges.const _
  exact ⟨whole, converges_andThen whole (Converges.const _)⟩

/-- A nested value with leaves that are written as nothing. -/
theorem restore_save_nested :
    Converges
        (fun fuel => parseRestoreVariable fuel
          (writeRealSaveValue (.array
            [.object 7, .int (-3) false, .closure 1,
              .mapping 2 [(.buffer [], .string [lf])] [[.object 2]]] true)))
        (.ok (.array
          [zero, .int (-3) false, zero, .mapping 2 [(zero, .string [lf])] [[zero]]] false,
          [])) ∧
      Converges
        (fun fuel => parseRestoreVariableTopLevel fuel
          (writeRealSaveValue (.array
            [.object 7, .int (-3) false, .closure 1,
              .mapping 2 [(.buffer [], .string [lf])] [[.object 2]]] true)))
        (.ok (.array
          [zero, .int (-3) false, zero, .mapping 2 [(zero, .string [lf])] [[zero]]] false)) :=
  restore_save (.array
    [.object 7, .int (-3) false, .closure 1,
      .mapping 2 [(.buffer [], .string [lf])] [[.object 2]]] true) (by decide)

end Kjdmud.SaveVariable
