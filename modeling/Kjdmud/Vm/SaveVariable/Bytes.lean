import Kjdmud.Vm.SaveVariable.RoundTrip

/-!
# The control bytes of a saved value

The format itself uses no control byte: those in the text of a value are those of
its strings, with every newline written as a carriage return.
-/

namespace Kjdmud.SaveVariable

mutual

/-- The strings in a value, in any depth. -/
def strings : SaveValue → List Str
  | .string s => [s]
  | .array items _ => stringsItems items
  | .mapping _ entries extraColumns => stringsEntries entries ++ stringsRows extraColumns
  | .void | .nil | .int _ _ | .float _ | .symbol _ | .object _ | .closure _ | .buffer _ => []

def stringsItems : List SaveValue → List Str
  | [] => []
  | item :: items => strings item ++ stringsItems items

def stringsEntry : SaveValue × SaveValue → List Str
  | (key, value) => strings key ++ strings value

def stringsEntries : List (SaveValue × SaveValue) → List Str
  | [] => []
  | entry :: entries => stringsEntry entry ++ stringsEntries entries

def stringsRows : List (List SaveValue) → List Str
  | [] => []
  | row :: rows => stringsItems row ++ stringsRows rows

end

theorem mem_stringsItems {s : Str} {items : List SaveValue} :
    s ∈ stringsItems items ↔ ∃ item ∈ items, s ∈ strings item := by
  induction items with
  | nil => simp [stringsItems]
  | cons item items ih => simp [stringsItems, ih]

theorem mem_stringsEntries {s : Str} {entries : List (SaveValue × SaveValue)} :
    s ∈ stringsEntries entries ↔
      ∃ entry ∈ entries, s ∈ strings entry.1 ∨ s ∈ strings entry.2 := by
  induction entries with
  | nil => simp [stringsEntries]
  | cons entry entries ih =>
      rcases entry with ⟨key, value⟩
      simp [stringsEntries, stringsEntry, ih, or_assoc]

theorem mem_stringsRows {s : Str} {rows : List (List SaveValue)} :
    s ∈ stringsRows rows ↔ ∃ row ∈ rows, ∃ column ∈ row, s ∈ strings column := by
  induction rows with
  | nil => simp [stringsRows]
  | cons row rows ih => simp [stringsRows, mem_stringsItems, ih]

/-- A byte stands in the text of a string of the value. -/
def Mentions (c : UInt8) (v : SaveValue) : Prop :=
  ∃ s ∈ strings v, c ∈ s.flatMap escapeByte

theorem mentions_array {c : UInt8} {items : List SaveValue} {flag : Bool} :
    Mentions c (.array items flag) ↔ ∃ item ∈ items, Mentions c item := by
  unfold Mentions
  simp only [strings, mem_stringsItems]
  constructor
  · rintro ⟨s, ⟨item, member, inside⟩, byte⟩
    exact ⟨item, member, s, inside, byte⟩
  · rintro ⟨item, member, s, inside, byte⟩
    exact ⟨s, ⟨item, member, inside⟩, byte⟩

theorem mentions_mapping {c : UInt8} {width : Nat} {entries : List (SaveValue × SaveValue)}
    {extraColumns : List (List SaveValue)} :
    Mentions c (.mapping width entries extraColumns) ↔
      (∃ entry ∈ entries, Mentions c entry.1 ∨ Mentions c entry.2) ∨
        ∃ row ∈ extraColumns, ∃ column ∈ row, Mentions c column := by
  unfold Mentions
  simp only [strings, List.mem_append, mem_stringsEntries, mem_stringsRows]
  constructor
  · rintro ⟨s, ⟨entry, member, inside | inside⟩ | ⟨row, rowMember, column, member, inside⟩, byte⟩
    · exact .inl ⟨entry, member, .inl ⟨s, inside, byte⟩⟩
    · exact .inl ⟨entry, member, .inr ⟨s, inside, byte⟩⟩
    · exact .inr ⟨row, rowMember, column, member, s, inside, byte⟩
  · rintro (⟨entry, member, ⟨s, inside, byte⟩ | ⟨s, inside, byte⟩⟩ |
      ⟨row, rowMember, column, member, s, inside, byte⟩)
    · exact ⟨s, .inl ⟨entry, member, .inl inside⟩, byte⟩
    · exact ⟨s, .inl ⟨entry, member, .inr inside⟩, byte⟩
    · exact ⟨s, .inr ⟨row, rowMember, column, member, inside⟩, byte⟩

/-- The rows that are written hold the entries and the extra columns. -/
theorem exists_mappingRows {p : SaveValue → Prop} {width : Nat}
    {entries : List (SaveValue × SaveValue)} {extraColumns : List (List SaveValue)}
    (fits : aligned width entries.length (extraColumns.map List.length) = true) :
    (∃ row ∈ mappingRows width entries extraColumns,
        p row.1 ∨ p row.2.1 ∨ ∃ column ∈ row.2.2, p column) ↔
      (∃ entry ∈ entries, p entry.1 ∨ p entry.2) ∨
        ∃ row ∈ extraColumns, ∃ column ∈ row, p column := by
  obtain ⟨_, lengths, extraEq⟩ := aligned_columnsOf fits
  have sameLength : (columnsOf width entries.length extraColumns).length = entries.length := by
    have := congrArg List.length lengths
    rwa [List.length_map, List.length_replicate] at this
  have firsts := List.map_fst_zip sameLength.ge
  have seconds := List.map_snd_zip sameLength.le
  constructor
  · rintro ⟨row, member, found⟩
    obtain ⟨⟨entry, columns⟩, pairMember, rfl⟩ := List.mem_map.mp member
    obtain ⟨entryMember, columnsMember⟩ := List.of_mem_zip pairMember
    rcases found with key | value | ⟨column, columnMember, found⟩
    · exact .inl ⟨entry, entryMember, .inl key⟩
    · exact .inl ⟨entry, entryMember, .inr value⟩
    · right
      unfold columnsOf at columnsMember
      split at columnsMember
      · rw [List.eq_of_mem_replicate columnsMember] at columnMember
        contradiction
      · exact ⟨columns, columnsMember, column, columnMember, found⟩
  · rintro (⟨entry, member, found⟩ | ⟨row, member, column, columnMember, found⟩)
    · rw [← firsts] at member
      obtain ⟨pair, pairMember, rfl⟩ := List.mem_map.mp member
      exact ⟨_, List.mem_map_of_mem pairMember, found.imp_right .inl⟩
    · have inColumns : row ∈ columnsOf width entries.length extraColumns := by
        rw [extraEq] at member
        split at member
        · contradiction
        · exact member
      rw [← seconds] at inColumns
      obtain ⟨pair, pairMember, rfl⟩ := List.mem_map.mp inColumns
      exact ⟨_, List.mem_map_of_mem pairMember, .inr (.inr ⟨column, columnMember, found⟩)⟩

/-- A byte the format does not use. -/
def isControl (c : UInt8) : Bool :=
  c < 32

section Control

variable {c : UInt8} (control : isControl c = true)

theorem ne_of_isControl {c d : UInt8} (control : isControl c = true)
    (printable : isControl d = false) : c ≠ d := by
  rintro rfl
  rw [control] at printable
  contradiction

include control

theorem not_mem_ofInt (i : Int) : c ∉ Decimal.ofInt i := by
  have noDigit (n : Nat) : c ∉ Decimal.ofNat n := by
    intro member
    have digit := Decimal.isDigit_of_mem_ofNat member
    simp only [isControl, decide_eq_true_eq] at control
    simp only [Decimal.isDigit, Bool.and_eq_true, decide_eq_true_eq] at digit
    exact absurd (UInt8.lt_of_lt_of_le control (UInt8.le_trans (by decide) digit.1))
      (UInt8.lt_irrefl c)
  rcases ofInt_cases i with ⟨n, _, written⟩ | ⟨n, _, written⟩
  · rw [written]
    exact noDigit n
  · rw [written, List.mem_cons, not_or]
    exact ⟨ne_of_isControl control (by decide), noDigit n⟩

theorem mem_entryText {row : SaveValue × SaveValue × List SaveValue} :
    c ∈ entryText row ↔ c ∈ writeRealSaveValue row.1 ∨ c ∈ writeRealSaveValue row.2.1 ∨
      ∃ column ∈ row.2.2, c ∈ writeRealSaveValue column := by
  have noColon := ne_of_isControl control (show isControl colon = false by decide)
  have noSemicolon := ne_of_isControl control (show isControl semicolon = false by decide)
  have noComma := ne_of_isControl control (show isControl comma = false by decide)
  simp [entryText, noColon, noSemicolon, noComma]

/-- The control bytes of a written value are those of its strings. -/
theorem mem_writeRealSaveValue {v : SaveValue} (saved : saveable v = true) :
    c ∈ writeRealSaveValue v ↔ Mentions c v := by
  have noParen := ne_of_isControl control (show isControl openParen = false by decide)
  have noClose := ne_of_isControl control (show isControl closeParen = false by decide)
  have hereditary : Hereditary fun v =>
      saveable v = true → (c ∈ writeRealSaveValue v ↔ Mentions c v) := by
    refine ⟨fun v leaf saved => ?_, ?_, ?_⟩
    · cases v with
      | void =>
          have noZero := ne_of_isControl control (show isControl 48 = false by decide)
          have written : writeRealSaveValue .void = [48] := by decide
          simp [written, noZero, Mentions, strings]
      | int i flag =>
          refine iff_of_false (not_mem_ofInt control _) ?_
          simp [Mentions, strings]
      | float d => simp [saveable] at saved
      | string s =>
          have noQuote := ne_of_isControl control (show isControl quote = false by decide)
          simp [writeRealSaveValue, noQuote, Mentions, strings]
      | array items flag => contradiction
      | mapping width entries extraColumns => contradiction
      | nil => simp [writeRealSaveValue, Mentions, strings]
      | symbol name => simp [writeRealSaveValue, Mentions, strings]
      | object handle => simp [writeRealSaveValue, Mentions, strings]
      | closure handle => simp [writeRealSaveValue, Mentions, strings]
      | buffer bytes => simp [writeRealSaveValue, Mentions, strings]
    · intro items flag ih saved
      rw [saveable, saveableItems_iff] at saved
      have noOpen := ne_of_isControl control (show isControl openBrace = false by decide)
      have noBrace := ne_of_isControl control (show isControl closeBrace = false by decide)
      have noComma := ne_of_isControl control (show isControl comma = false by decide)
      have text := writeRealSaveValue_array items flag []
      rw [List.append_nil] at text
      rw [text, mentions_array]
      simp only [List.mem_cons, List.mem_append, List.mem_flatMap, noParen, noOpen, noBrace,
        noClose, noComma, List.not_mem_nil, or_false, false_or]
      constructor
      · rintro ⟨item, member, inside⟩
        exact ⟨item, member, (ih item member (saved item member)).mp inside⟩
      · rintro ⟨item, member, inside⟩
        exact ⟨item, member, (ih item member (saved item member)).mpr inside⟩
    · intro width entries extraColumns ihEntries ihColumns saved
      rw [saveable, Bool.and_eq_true, Bool.and_eq_true, saveableEntries_iff,
        saveableRows_iff] at saved
      obtain ⟨⟨fits, entriesSaved⟩, columnsSaved⟩ := saved
      have noOpen := ne_of_isControl control (show isControl openBracket = false by decide)
      have noBracket := ne_of_isControl control (show isControl closeBracket = false by decide)
      have text := writeRealSaveValue_mapping fits []
      rw [List.append_nil] at text
      rw [text, mentions_mapping]
      simp only [List.mem_cons, List.mem_append, List.mem_flatMap, mem_entryText control, noParen,
        noOpen, noBracket, noClose, List.not_mem_nil, or_false, false_or]
      rw [exists_mappingRows (p := fun v => c ∈ writeRealSaveValue v) fits]
      apply or_congr
      · apply exists_congr
        intro entry
        apply and_congr_right
        intro member
        exact or_congr ((ihEntries entry member).1 (entriesSaved entry member).1)
          ((ihEntries entry member).2 (entriesSaved entry member).2)
      · apply exists_congr
        intro row
        apply and_congr_right
        intro rowMember
        apply exists_congr
        intro column
        apply and_congr_right
        intro member
        exact ihColumns row rowMember column member (columnsSaved row rowMember column member)
  exact hereditary.all v saved

end Control

/-- No newline is written. -/
theorem lf_not_mem_writeRealSaveValue {v : SaveValue} (saved : saveable v = true) :
    lf ∉ writeRealSaveValue v := by
  rw [mem_writeRealSaveValue (by decide) saved]
  rintro ⟨s, _, member⟩
  obtain ⟨c, _, inside⟩ := List.mem_flatMap.mp member
  rcases escapeByte_cases c with equal | ⟨_, equal⟩ | ⟨_, _, equal⟩
  all_goals rw [equal] at inside
  · simp only [List.mem_cons, List.not_mem_nil, or_false] at inside
    rcases inside with isBackslash | rfl
    · exact absurd isBackslash (by decide)
    · revert equal
      decide
  · simp only [List.mem_singleton] at inside
    exact absurd inside (by decide)
  · simp only [List.mem_singleton] at inside
    subst inside
    revert equal
    decide

end Kjdmud.SaveVariable
