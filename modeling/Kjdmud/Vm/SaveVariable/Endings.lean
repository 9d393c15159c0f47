import Kjdmud.Vm.SaveVariable.RoundTrip
import Kjdmud.Vm.SaveVariable.Totality

/-!
# Reading back any written value

What the reader makes of the text of a value, whatever the value: it returns, it
throws, or it never comes to an end.  The last happens where an array or a mapping
holds a float that is written as `inf` or `nan`: the element loops neither read
such a text nor step over it.  The fate of a value is read off its floats, in the
order they are written.
-/

namespace Kjdmud.SaveVariable

open Fuel Outcome

/-- What becomes of the reader inside an array or a mapping. -/
inductive Fate
  | reads
  | refuses
  | sticks
  deriving DecidableEq

/-- The fate of two texts, one behind the other. -/
def Fate.andThen : Fate → Fate → Fate
  | .reads, later => later
  | .refuses, _ => .refuses
  | .sticks, _ => .sticks

/-- The fate of some texts, one behind the other. -/
def Fate.all (fates : List Fate) : Fate :=
  fates.foldr Fate.andThen .reads

/-- The fate of the text of a float. -/
def fateFloat (d : Double) : Fate :=
  if (d.isNaN || d.isInf) && !d.signBit then .sticks
  else
    match parseRealSaveNumber d.toFixed with
    | .ok _ => .reads
    | .error _ => .refuses

/-- The fates of the columns that the writer writes for an entry. -/
def fateColumns (width : Nat) (row : Option (List Fate)) : Fate :=
  Fate.all ((List.range (width - 1)).map fun column =>
    match row with
    | some columns => columns.getD column .reads
    | none => .reads)

/-- The fate of the entries of a mapping. -/
def fateEntries (width : Nat) : List Fate → List (List Fate) → Fate
  | [], _ => .reads
  | entry :: entries, rows =>
      (entry.andThen (fateColumns width rows.head?)).andThen
        (fateEntries width entries rows.tail)

mutual

/-- The fate of the text of a value. -/
def fate : SaveValue → Fate
  | .float d => fateFloat d
  | .array items _ => Fate.all (fates items)
  | .mapping width entries extraColumns =>
      fateEntries width (fatePairs entries) (fateRows extraColumns)
  | .void | .nil | .int _ _ | .string _ | .symbol _ | .object _ | .closure _ | .buffer _ =>
      .reads

def fates : List SaveValue → List Fate
  | [] => []
  | item :: items => fate item :: fates items

def fatePair : SaveValue × SaveValue → Fate
  | (key, value) => (fate key).andThen (fate value)

def fatePairs : List (SaveValue × SaveValue) → List Fate
  | [] => []
  | entry :: entries => fatePair entry :: fatePairs entries

def fateRows : List (List SaveValue) → List (List Fate)
  | [] => []
  | row :: rows => fates row :: fateRows rows

end

/-- The values whose text the reader never comes to the end of. -/
def stalls : SaveValue → Bool
  | .float _ => false
  | v => fate v == .sticks

theorem fates_eq_map (items : List SaveValue) : fates items = items.map fate := by
  induction items with
  | nil => rfl
  | cons item items ih => rw [fates, ih, List.map_cons]

theorem Fate.andThen_reads (x : Fate) : x.andThen .reads = x := by
  cases x <;> rfl

theorem Fate.andThen_assoc (a b c : Fate) :
    (a.andThen b).andThen c = a.andThen (b.andThen c) := by
  cases a <;> rfl

/-! ## Comparing a reader with a fate -/

section Comes

variable {α β : Type} {f : Nat → Outcome (α × Str)} {g : Nat → α × Str → Outcome (β × Str)}
  {rest rest' : Str} {x y : Fate}

/-- A text that neither starts a value nor separates two. -/
def Stalled (s : Str) : Prop :=
  ∃ c text, s = c :: text ∧ startsValue c = false ∧ c ≠ closeBrace ∧ c ≠ closeBracket ∧
    c ≠ comma ∧ c ≠ colon ∧ c ≠ semicolon

/-- A reader function comes to what was foretold. -/
inductive Ends (f : Nat → Outcome (α × Str)) (rest : Str) : Fate → Prop
  | reads (a : α) (converges : Converges f (.ok (a, rest))) : Ends f rest .reads
  | refuses (e : ReadError) (converges : Converges f (.error e)) : Ends f rest .refuses
  | sticks (diverges : Diverges f) : Ends f rest .sticks

/-- A reader function comes to what was foretold, or returns in front of a text on which
the loop around it sticks. -/
inductive Comes (f : Nat → Outcome (α × Str)) (rest : Str) : Fate → Prop
  | ends {x : Fate} (ends : Ends f rest x) : Comes f rest x
  | stalls (a : α) (s : Str) (converges : Converges f (.ok (a, s))) (stalled : Stalled s) :
      Comes f rest .sticks

theorem Ends.step (zero : f 0 = none) (ends : Ends (fun fuel => f (fuel + 1)) rest x) :
    Ends f rest x := by
  cases ends with
  | reads a converges => exact .reads a (converges.step zero)
  | refuses e converges => exact .refuses e (converges.step zero)
  | sticks diverges => exact .sticks (diverges.step zero)

theorem Comes.step (zero : f 0 = none) (comes : Comes (fun fuel => f (fuel + 1)) rest x) :
    Comes f rest x := by
  cases comes with
  | ends ends => exact .ends (ends.step zero)
  | stalls a s converges stalled => exact .stalls a s (converges.step zero) stalled

theorem Ends.andThen (first : Ends f rest x)
    (second : ∀ a, Ends (fun fuel => g fuel (a, rest)) rest' y) :
    Ends (fun fuel => (f fuel).andThen (g fuel)) rest' (x.andThen y) := by
  cases first with
  | reads a converges =>
      cases second a with
      | reads b later => exact .reads b (converges_andThen converges later)
      | refuses e later => exact .refuses e (converges_andThen converges later)
      | sticks diverges => exact .sticks (diverges_andThen_right converges diverges)
  | refuses e converges => exact .refuses e (converges_andThen_error converges)
  | sticks diverges => exact .sticks (diverges_andThen diverges)

/-- A loop that sticks where its element stalls. -/
theorem Comes.loop (first : Comes f rest x)
    (second : ∀ a, Ends (fun fuel => g fuel (a, rest)) rest' y)
    (stuck : ∀ a s, Stalled s → Diverges fun fuel => g fuel (a, s)) :
    Ends (fun fuel => (f fuel).andThen (g fuel)) rest' (x.andThen y) := by
  cases first with
  | ends ends => exact ends.andThen second
  | stalls a s converges stalled =>
      exact .sticks (diverges_andThen_right converges (stuck a s stalled))

theorem Comes.andThen (first : Comes f rest x)
    (second : ∀ a, Comes (fun fuel => g fuel (a, rest)) rest' y)
    (stuck : ∀ a s, Stalled s → Comes (fun fuel => g fuel (a, s)) rest' .sticks) :
    Comes (fun fuel => (f fuel).andThen (g fuel)) rest' (x.andThen y) := by
  have sequence : ∀ a s z, Converges f (.ok (a, s)) → Comes (fun fuel => g fuel (a, s)) rest' z →
      Comes (fun fuel => (f fuel).andThen (g fuel)) rest' z := by
    intro a s z converges later
    cases later with
    | ends ends =>
        cases ends with
        | reads b later => exact .ends (.reads b (converges_andThen converges later))
        | refuses e later => exact .ends (.refuses e (converges_andThen converges later))
        | sticks diverges =>
            exact .ends (.sticks (diverges_andThen_right converges diverges))
    | stalls b t later stalled => exact .stalls b t (converges_andThen converges later) stalled
  cases first with
  | ends ends =>
      cases ends with
      | reads a converges => exact sequence a rest y converges (second a)
      | refuses e converges => exact .ends (.refuses e (converges_andThen_error converges))
      | sticks diverges => exact .ends (.sticks (diverges_andThen diverges))
  | stalls a s converges stalled =>
      exact sequence a s .sticks converges (stuck a s stalled)

end Comes

/-! ## Elements -/

/-- A value's text comes to the value's fate in front of every delimiter, and a text that
is not empty does not look like the end of an aggregate. -/
structure Foretold (v : SaveValue) : Prop where
  comes : ∀ rest, Delimited rest →
    Comes (fun fuel => parseRealSaveValue fuel (writeRealSaveValue v ++ rest)) rest (fate v)
  headed : (writeRealSaveValue v = [] ∧ fate v = .reads) ∨
    ∃ c text, writeRealSaveValue v = c :: text ∧ c ≠ closeBrace ∧ c ≠ comma ∧
      c ≠ closeBracket

/-- In front of a text that stalls nothing is read. -/
theorem Stalled.value {s : Str} (stalled : Stalled s) :
    Converges (fun fuel => parseRealSaveValue fuel s) (.ok (zero, s)) := by
  rcases stalled with ⟨c, text, rfl, noStart, _⟩
  exact converges_value_default (by simpa using noStart)

theorem Stalled.skip {s : Str} (stalled : Stalled s) {c : UInt8}
    (punctuation : c = comma ∨ c = colon) : skipByte c s = s := by
  rcases stalled with ⟨first, text, rfl, _, _, _, noComma, noColon, _⟩
  rcases punctuation with rfl | rfl
  · exact skipByte_cons_of_ne text noComma
  · exact skipByte_cons_of_ne text noColon

theorem Stalled.extra {s : Str} (stalled : Stalled s) (columns : List SaveValue) :
    Converges (fun fuel => parseExtra fuel columns s) (.ok (columns, s)) := by
  rcases stalled with ⟨c, text, rfl, _, _, _, _, _, noSemicolon⟩
  exact converges_extra_stop columns (by simpa using noSemicolon)

/-- The element loop comes to the fate of its items. -/
theorem ends_items {items : List SaveValue} (foretold : ∀ item ∈ items, Foretold item)
    (done : List SaveValue) (rest : Str) :
    Ends (fun fuel => parseItems fuel done
        (items.flatMap (fun item => writeRealSaveValue item ++ [comma]) ++ closeBrace :: rest))
      (closeBrace :: rest) (Fate.all (items.map fate)) := by
  induction items generalizing done with
  | nil => exact .reads done (converges_items_stop done (by simp))
  | cons item items ih =>
      rw [List.forall_mem_cons] at foretold
      have later := ih foretold.2
      rw [List.flatMap_cons, List.append_assoc, List.append_assoc, List.singleton_append,
        List.map_cons]
      generalize items.flatMap (fun item => writeRealSaveValue item ++ [comma]) ++
        closeBrace :: rest = behind at later
      apply Ends.step rfl
      rcases foretold.1.headed with ⟨nothing, fate_eq⟩ | ⟨c, text, something, noBrace,
        noComma, _⟩
      · rw [nothing, List.nil_append]
        simp only [parseItems_comma, Fate.all, List.foldr_cons, fate_eq]
        exact later _
      · have comes := foretold.1.comes _ (Delimited.comma behind)
        rw [something, List.cons_append] at comes ⊢
        simp only [parseItems_element _ done _ noBrace noComma]
        apply comes.loop
        · intro value
          rw [skipByte_cons_self]
          exact later _
        · intro value s stalled
          simp only [stalled.skip (.inl rfl)]
          rcases stalled with ⟨c, text, rfl, noStart, noBrace, _, noComma, _⟩
          exact diverges_items_stalled text noStart noBrace noComma _

/-! ## Entries -/

/-- The fate of a written entry. -/
def fateRow (row : SaveValue × SaveValue × List SaveValue) : Fate :=
  ((fate row.1).andThen (fate row.2.1)).andThen (Fate.all (row.2.2.map fate))

theorem comes_extra {columns : List SaveValue}
    (foretold : ∀ column ∈ columns, Foretold column) (done : List SaveValue) (rest : Str) :
    Comes (fun fuel => parseExtra fuel done
        (columns.flatMap (fun column => semicolon :: writeRealSaveValue column) ++
          comma :: rest))
      (comma :: rest) (Fate.all (columns.map fate)) := by
  induction columns generalizing done with
  | nil => exact .ends (.reads done (converges_extra_stop done (by simp; decide)))
  | cons column columns ih =>
      rw [List.forall_mem_cons] at foretold
      have later := ih foretold.2
      have delimited : Delimited
          (columns.flatMap (fun column => semicolon :: writeRealSaveValue column) ++
            comma :: rest) := by
        cases columns with
        | nil => exact Delimited.comma rest
        | cons next columns => exact Delimited.semicolon _
      rw [List.flatMap_cons, List.append_assoc, List.cons_append]
      apply Comes.step rfl
      simp only [parseExtra_column]
      apply (foretold.1.comes _ delimited).andThen
      · intro value
        exact later _
      · intro value s stalled
        exact .stalls _ s (stalled.extra _) stalled

/-- The end of an entry: an optional comma. -/
theorem Comes.skipComma {α β : Type} {f : Nat → Outcome (α × Str)} {behind : Str} {x : Fate}
    (comes : Comes f (comma :: behind) x) (entry : α → β) :
    Comes (fun fuel => (f fuel).andThen fun (a, rest) => .ok (entry a, skipByte comma rest))
      behind x := by
  rw [← Fate.andThen_reads x]
  apply comes.andThen
  · intro a
    simp only [skipByte_cons_self]
    exact .ends (.reads (entry a) (Converges.const _))
  · intro a s stalled
    simp only [stalled.skip (.inl rfl)]
    exact .stalls (entry a) s (Converges.const _) stalled

/-- One iteration of the entry loop comes to the fate of its entry. -/
theorem comes_entry {row : SaveValue × SaveValue × List SaveValue}
    (foretoldKey : Foretold row.1) (foretoldValue : Foretold row.2.1)
    (foretoldColumns : ∀ column ∈ row.2.2, Foretold column) (behind : Str) :
    Comes (fun fuel => parseEntry fuel (entryText row ++ behind)) behind (fateRow row) := by
  have delimited : Delimited
      (row.2.2.flatMap (fun column => semicolon :: writeRealSaveValue column) ++
        comma :: behind) := by
    cases row.2.2 with
    | nil => exact Delimited.comma behind
    | cons next columns => exact Delimited.semicolon _
  apply Comes.step rfl
  simp only [parseEntry_succ, entryText, List.append_assoc, List.cons_append, List.nil_append,
    fateRow, Fate.andThen_assoc]
  apply (foretoldKey.comes _ (Delimited.colon _)).andThen
  · intro key
    simp only [skipByte_cons_self]
    apply (foretoldValue.comes _ delimited).andThen
    · intro value
      exact (comes_extra foretoldColumns [] behind).skipComma fun extra => (key, value, extra)
    · intro value s stalled
      apply Comes.stalls (key, value, []) s _ stalled
      apply converges_andThen (stalled.extra [])
      simp only [stalled.skip (.inl rfl)]
      exact Converges.const _
  · intro key s stalled
    simp only [stalled.skip (.inr rfl)]
    apply Comes.stalls (key, zero, []) s _ stalled
    apply converges_andThen stalled.value
    apply converges_andThen (stalled.extra [])
    simp only [stalled.skip (.inl rfl)]
    exact Converges.const _

/-- The entry loop comes to the fate of its entries. -/
theorem ends_entries {rows : List (SaveValue × SaveValue × List SaveValue)}
    (foretold : ∀ row ∈ rows,
      Foretold row.1 ∧ Foretold row.2.1 ∧ ∀ column ∈ row.2.2, Foretold column)
    (done : List (SaveValue × SaveValue × List SaveValue)) (rest : Str) :
    Ends (fun fuel => parseEntries fuel done (rows.flatMap entryText ++ closeBracket :: rest))
      (closeBracket :: rest) (Fate.all (rows.map fateRow)) := by
  induction rows generalizing done with
  | nil => exact .reads done (converges_entries_stop done (by simp))
  | cons row rows ih =>
      rw [List.forall_mem_cons] at foretold
      rcases foretold with ⟨⟨foretoldKey, foretoldValue, foretoldColumns⟩, foretoldLater⟩
      have later := ih foretoldLater
      rw [List.flatMap_cons, List.append_assoc, List.map_cons]
      generalize rows.flatMap entryText ++ closeBracket :: rest = behind at later
      have comes := comes_entry foretoldKey foretoldValue foretoldColumns behind
      have headed : ∃ c text, entryText row ++ behind = c :: text ∧ c ≠ closeBracket := by
        rcases foretoldKey.headed with ⟨nothing, _⟩ | ⟨c, text, something, _, _, noBracket⟩
        · simp only [entryText, nothing]
          exact ⟨colon, _, rfl, by decide⟩
        · simp only [entryText, something]
          exact ⟨c, _, rfl, noBracket⟩
      rcases headed with ⟨c, text, textEq, noBracket⟩
      rw [textEq] at comes ⊢
      apply Ends.step rfl
      simp only [parseEntries_entry _ done text noBracket]
      apply comes.loop
      · intro entry
        exact later _
      · intro entry s stalled
        rcases stalled with ⟨c, text, rfl, noStart, _, noBracket, noComma, noColon, noSemicolon⟩
        apply diverges_entries_stalled text noStart noBracket
        simp [Bracket.separates, noComma, noColon, noSemicolon]

/-! ## Floats -/

/-- A number with a point is read up to the next delimiter. -/
theorem parseUnsigned_point (negative : Bool) {whole frac : Str}
    (wholeDigits : ∀ c ∈ whole, Decimal.isDigit c = true)
    (fracDigits : ∀ c ∈ frac, Decimal.isDigit c = true) {rest : Str}
    (delimited : Delimited rest) :
    parseUnsigned negative (whole ++ point :: (frac ++ rest)) =
      (stod negative whole frac).map fun d => (.float d, rest) := by
  have noDigit : Decimal.isDigit point = false := by decide
  have behind : rest.takeWhile Decimal.isDigit = [] ∧ rest.dropWhile Decimal.isDigit = rest := by
    cases rest with
    | nil => exact ⟨rfl, rfl⟩
    | cons c rest =>
        have stops := (delimited.head c rfl).2.1
        simp [stops]
  rw [parseUnsigned, List.takeWhile_append_of_pos wholeDigits,
    List.dropWhile_append_of_pos wholeDigits]
  simp only [List.takeWhile_cons, List.dropWhile_cons, noDigit, Bool.false_eq_true, if_false,
    if_true, List.append_nil]
  rw [List.takeWhile_append_of_pos fracDigits, List.dropWhile_append_of_pos fracDigits,
    behind.1, behind.2, List.append_nil]
  cases stod negative whole frac <;> rfl

/-- A number without a point is read up to the next delimiter. -/
theorem parseUnsigned_digits (negative : Bool) {whole : Str}
    (wholeDigits : ∀ c ∈ whole, Decimal.isDigit c = true) {rest : Str}
    (delimited : Delimited rest) :
    parseUnsigned negative (whole ++ rest) =
      (stoll negative whole).map fun i => (.int i false, rest) := by
  rw [parseUnsigned, List.takeWhile_append_of_pos wholeDigits,
    List.dropWhile_append_of_pos wholeDigits]
  cases rest with
  | nil =>
      rw [List.takeWhile_nil, List.dropWhile_nil, List.append_nil]
      cases stoll negative whole <;> rfl
  | cons c rest =>
      rcases delimited.head c rfl with ⟨_, stops, noPoint⟩
      rw [List.takeWhile_cons_of_neg (by simp [stops]),
        List.dropWhile_cons_of_neg (by simp [stops]), List.append_nil]
      dsimp only
      rw [if_neg noPoint]
      cases stoll negative whole <;> rfl

/-- A number that a buffer may have cut comes to the same before every delimiter. -/
theorem parseUnsigned_cut (negative : Bool) {whole frac : Str} (size : Nat)
    (wholeDigits : ∀ c ∈ whole, Decimal.isDigit c = true)
    (fracDigits : ∀ c ∈ frac, Decimal.isDigit c = true) :
    ∃ result : Except ReadError SaveValue, ∀ rest, Delimited rest →
      parseUnsigned negative ((whole ++ point :: frac).take size ++ rest) =
        result.map fun v => (v, rest) := by
  by_cases cut : size ≤ whole.length
  · have digits : ∀ c ∈ whole.take size, Decimal.isDigit c = true := fun c member =>
      wholeDigits c (List.mem_of_mem_take member)
    refine ⟨(stoll negative (whole.take size)).map (.int · false), fun rest delimited => ?_⟩
    rw [List.take_append_of_le_length cut, parseUnsigned_digits negative digits delimited]
    cases stoll negative (whole.take size) <;> rfl
  · have digits : ∀ c ∈ frac.take (size - whole.length - 1), Decimal.isDigit c = true :=
      fun c member => fracDigits c (List.mem_of_mem_take member)
    have behind : (whole ++ point :: frac).take size =
        whole ++ point :: frac.take (size - whole.length - 1) := by
      rw [List.take_append, List.take_of_length_le (Nat.le_of_not_le cut)]
      cases left : size - whole.length with
      | zero => omega
      | succ places => rfl
    refine ⟨(stod negative whole (frac.take (size - whole.length - 1))).map .float,
      fun rest delimited => ?_⟩
    rw [behind, List.append_assoc, List.cons_append,
      parseUnsigned_point negative wholeDigits digits delimited]
    cases stod negative whole (frac.take (size - whole.length - 1)) <;> rfl

/-- A float written as a word. -/
theorem toFixed_word {d : Double} (word : (d.isNaN || d.isInf) = true) :
    d.toFixed = (if d.signBit then [minus] else []) ++ str "nan" ∨
      d.toFixed = (if d.signBit then [minus] else []) ++ str "inf" := by
  simp only [Double.toFixed, Double.fixedText]
  split
  · apply Or.inl
    cases d.signBit <;> rfl
  · next notNaN =>
      rw [if_pos (by simpa [notNaN] using word)]
      apply Or.inr
      cases d.signBit <;> rfl

/-- A float written as a number: what the buffer keeps of the sign, the digits, the point and
the places. -/
theorem toFixed_number {d : Double} (number : (d.isNaN || d.isInf) = false) :
    ∃ n frac, (∀ c ∈ frac, Decimal.isDigit c = true) ∧
      d.toFixed =
        ((if d.signBit then [minus] else []) ++ (Decimal.ofNat n ++ point :: frac)).take 63 := by
  rw [Bool.or_eq_false_iff] at number
  have places : ∀ n, ∀ c ∈ List.replicate (6 - (Decimal.ofNat n).length) 48 ++ Decimal.ofNat n,
      Decimal.isDigit c = true := by
    intro n c member
    rcases List.mem_append.mp member with padding | place
    · rw [List.eq_of_mem_replicate padding]
      decide
    · exact Decimal.isDigit_of_mem_ofNat place
  refine ⟨Double.roundHalfEven (d.magnitude * 1000000) / 1000000, _,
    places (Double.roundHalfEven (d.magnitude * 1000000) % 1000000), ?_⟩
  simp only [Double.toFixed, Double.fixedText, number.1, number.2, Bool.false_eq_true, if_false,
    List.append_assoc]
  rfl

/-- A float that is not written as a word starts like a number, and comes to the same
before every delimiter. -/
theorem parseRealSaveNumber_toFixed {d : Double}
    (number : ((d.isNaN || d.isInf) && !d.signBit) = false) :
    (∃ c text, d.toFixed = c :: text ∧ (c = minus ∨ Decimal.isDigit c = true)) ∧
      ∃ result : Except ReadError SaveValue, ∀ rest, Delimited rest →
        parseRealSaveNumber (d.toFixed ++ rest) = result.map fun v => (v, rest) := by
  by_cases word : (d.isNaN || d.isInf) = true
  · have sign : d.signBit = true := by simpa [word] using number
    rcases toFixed_word word with text | text
    · rw [text, sign]
      exact ⟨⟨_, _, rfl, .inl rfl⟩, .error .invalidArgument, fun rest _ => rfl⟩
    · rw [text, sign]
      exact ⟨⟨_, _, rfl, .inl rfl⟩, .error .invalidArgument, fun rest _ => rfl⟩
  · rw [Bool.not_eq_true] at word
    have digits : ∀ n, ∀ c ∈ Decimal.ofNat n, Decimal.isDigit c = true := fun n c member =>
      Decimal.isDigit_of_mem_ofNat member
    rcases toFixed_number word with ⟨n, frac, fracDigits, text⟩
    rcases ofNat_cons n with ⟨c, more, whole, isDigit⟩
    have noMinus : c ≠ minus := by
      rintro rfl
      revert isDigit
      decide
    cases sign : d.signBit with
    | true =>
        rcases parseUnsigned_cut true 62 (digits n) fracDigits with ⟨result, reads⟩
        rw [sign, if_pos rfl, List.singleton_append, List.take_succ_cons] at text
        rw [text]
        refine ⟨⟨_, _, rfl, .inl rfl⟩, result, fun rest delimited => ?_⟩
        rw [List.cons_append, parseRealSaveNumber, if_pos rfl]
        exact reads rest delimited
    | false =>
        rcases parseUnsigned_cut false 63 (digits n) fracDigits with ⟨result, reads⟩
        rw [sign, if_neg Bool.false_ne_true, List.nil_append] at text
        have begins : d.toFixed = c :: (more ++ point :: frac).take 62 := by
          rw [text, whole, List.cons_append, List.take_succ_cons]
        refine ⟨⟨_, _, begins, .inr isDigit⟩, result, fun rest delimited => ?_⟩
        have read := reads rest delimited
        rw [← text, begins, List.cons_append] at read
        rw [begins, List.cons_append, parseRealSaveNumber, if_neg noMinus, read]

theorem foretold_float (d : Double) : Foretold (.float d) := by
  by_cases word : ((d.isNaN || d.isInf) && !d.signBit) = true
  · have stalled : ∃ c text, d.toFixed = c :: text ∧ ∀ rest, Stalled (c :: text ++ rest) := by
      rw [Bool.and_eq_true] at word
      have sign : d.signBit = false := by simpa using word.2
      rcases toFixed_word word.1 with text | text
      · rw [text, sign]
        exact ⟨_, _, rfl, fun rest => ⟨_, _, rfl, by decide⟩⟩
      · rw [text, sign]
        exact ⟨_, _, rfl, fun rest => ⟨_, _, rfl, by decide⟩⟩
    rcases stalled with ⟨c, text, written, stalled⟩
    have fate_eq : fate (.float d) = .sticks := by
      rw [fate, fateFloat, if_pos word]
    constructor
    · intro rest _
      rw [fate_eq, writeRealSaveValue, written]
      exact .stalls zero _ (stalled rest).value (stalled rest)
    · apply Or.inr
      rcases stalled [] with ⟨first, tail, same, _, noBrace, noBracket, noComma, _⟩
      rw [List.append_nil] at same
      exact ⟨first, tail, by rw [writeRealSaveValue, written, same], noBrace, noComma, noBracket⟩
  · rw [Bool.not_eq_true] at word
    rcases parseRealSaveNumber_toFixed word with ⟨⟨c, text, written, starts⟩, result, read⟩
    constructor
    · intro rest delimited
      have here := read [] Delimited.nil
      rw [List.append_nil] at here
      have there := converges_value_number (text ++ rest) starts
      rw [← List.cons_append, ← written, read rest delimited] at there
      rw [fate, fateFloat, if_neg (by simp [word]), here, writeRealSaveValue]
      cases result with
      | error e => exact .ends (.refuses e there)
      | ok v => exact .ends (.reads v there)
    · apply Or.inr
      refine ⟨c, text, written, ?_, ?_, ?_⟩ <;> rintro rfl <;> revert starts <;> decide

/-! ## Every value -/

/-- The text of a string ends at its closing quote, whatever the string. -/
theorem parseRealSaveString_rest_write (s rest : Str) :
    (parseRealSaveString (s.flatMap escapeByte ++ quote :: rest)).2 = rest := by
  induction s with
  | nil => rw [List.flatMap_nil, List.nil_append, parseRealSaveString_quote]
  | cons c s ih =>
      rw [List.flatMap_cons, List.append_assoc]
      rcases escapeByte_cases c with escaped | ⟨_, replaced⟩ | ⟨noQuote, noEscape, plain⟩
      · rw [escaped, List.cons_append, List.cons_append, List.nil_append,
          parseRealSaveString_escape]
        exact ih
      · rw [replaced, List.cons_append, List.nil_append,
          parseRealSaveString_byte _ (by decide) (by decide)]
        exact ih
      · rw [plain, List.cons_append, List.nil_append,
          parseRealSaveString_byte _ noQuote noEscape]
        exact ih

theorem foretold_leaf {v : SaveValue} (leaf : v.isLeaf = true) : Foretold v := by
  have number : ∀ i : Int64, writeRealSaveValue v = Decimal.ofInt i.toInt →
      fate v = .reads → Foretold v := by
    intro i written fate_eq
    constructor
    · intro rest delimited
      rw [written, fate_eq]
      exact .ends (.reads _ (converges_value_int i delimited))
    · apply Or.inr
      rw [written]
      rcases ofInt_cases i.toInt with ⟨n, _, text⟩ | ⟨n, _, text⟩
      · rcases ofNat_cons n with ⟨c, digits, digitsEq, isDigit⟩
        refine ⟨c, digits, text.trans digitsEq, ?_, ?_, ?_⟩ <;> rintro rfl <;>
          revert isDigit <;> decide
      · exact ⟨minus, _, text, by decide⟩
  have nothing : writeRealSaveValue v = [] → fate v = .reads → Foretold v := by
    intro written fate_eq
    constructor
    · intro rest delimited
      rw [written, fate_eq, List.nil_append]
      exact .ends (.reads zero
        (converges_value_default fun c member => (delimited.head c member).1))
    · exact .inl ⟨written, fate_eq⟩
  cases v with
  | void => exact number 0 rfl rfl
  | int i isUndefined => exact number i rfl rfl
  | float d => exact foretold_float d
  | string s =>
      constructor
      · intro rest _
        have read := converges_value_string (s.flatMap escapeByte ++ quote :: rest)
        rw [parseRealSaveString_rest_write] at read
        have text : writeRealSaveValue (.string s) ++ rest =
            quote :: (s.flatMap escapeByte ++ quote :: rest) := by
          simp [writeRealSaveValue]
        rw [text]
        exact .ends (.reads _ read)
      · exact .inr ⟨quote, _, rfl, by decide⟩
  | array items flag => cases leaf
  | mapping width entries extraColumns => cases leaf
  | nil | symbol name | object handle | closure handle | buffer bytes => exact nothing rfl rfl

theorem ends_array {items : List SaveValue} (flag : Bool)
    (foretold : ∀ item ∈ items, Foretold item) (rest : Str) :
    Ends (fun fuel => parseRealSaveValue fuel (writeRealSaveValue (.array items flag) ++ rest))
      rest (fate (.array items flag)) := by
  rw [writeRealSaveValue_array, fate, fates_eq_map]
  apply Ends.step rfl
  simp only [parseRealSaveValue_array]
  rw [← Fate.andThen_reads (Fate.all (items.map fate))]
  apply (ends_items foretold [] (closeParen :: rest)).andThen
  intro values
  simp only [closeAggregate_closed]
  exact .reads _ (Converges.const _)

/-- The columns that the writer writes for an entry, with or without a row of its own. -/
def writtenColumns (width : Nat) (row : Option (List SaveValue)) : List SaveValue :=
  (List.range (width - 1)).map fun column =>
    match row with
    | some columns => columns.getD column .nil
    | none => .void

/-- The entries of a mapping as the writer goes through them. -/
def writtenRows (width : Nat) : List (SaveValue × SaveValue) → List (List SaveValue) →
    List (SaveValue × SaveValue × List SaveValue)
  | [], _ => []
  | entry :: entries, rows =>
      (entry.1, entry.2, writtenColumns width rows.head?) :: writtenRows width entries rows.tail

theorem writeEntry_eq (width : Nat) (key value : SaveValue) (row : Option (List SaveValue)) :
    writeEntry width (writeRealSaveValue key, writeRealSaveValue value)
        (row.map fun columns => columns.map writeRealSaveValue) =
      entryText (key, value, writtenColumns width row) := by
  have column : ∀ columns : List SaveValue, ∀ i,
      (columns.map writeRealSaveValue).getD i [] = writeRealSaveValue (columns.getD i .nil) := by
    intro columns i
    simp only [List.getD_eq_getElem?_getD, List.getElem?_map]
    cases columns[i]? <;> rfl
  cases row with
  | none =>
      simp only [writeEntry, entryText, writtenColumns, Option.map_none, List.flatMap_map,
        List.append_assoc, List.cons_append, List.nil_append]
      rfl
  | some columns =>
      simp only [writeEntry, entryText, writtenColumns, Option.map_some, List.flatMap_map,
        column, List.append_assoc, List.cons_append, List.nil_append]

theorem writeEntries_eq (width : Nat) (entries : List (SaveValue × SaveValue))
    (extraColumns : List (List SaveValue)) :
    writeEntries width (writePairs entries) (writeRows extraColumns) =
      (writtenRows width entries extraColumns).flatMap entryText := by
  rw [writePairs_eq_map, writeRows_eq_map]
  induction entries generalizing extraColumns with
  | nil => rfl
  | cons entry entries ih =>
      have later := ih extraColumns.tail
      rw [List.map_tail] at later
      simp only [List.map_cons, writeEntries, writtenRows, List.flatMap_cons, later,
        List.head?_map, writeEntry_eq]

theorem fateRows_eq_map (rows : List (List SaveValue)) :
    fateRows rows = rows.map fun columns => columns.map fate := by
  induction rows with
  | nil => rfl
  | cons row rows ih => rw [fateRows, ih, List.map_cons, fates_eq_map]

theorem fateColumns_eq (width : Nat) (row : Option (List SaveValue)) :
    fateColumns width (row.map fun columns => columns.map fate) =
      Fate.all ((writtenColumns width row).map fate) := by
  rw [fateColumns, writtenColumns, List.map_map]
  congr 2
  funext i
  cases row with
  | none => rfl
  | some columns =>
      simp only [Function.comp, Option.map_some, List.getD_eq_getElem?_getD, List.getElem?_map]
      cases columns[i]? <;> rfl

theorem fateEntries_eq (width : Nat) (entries : List (SaveValue × SaveValue))
    (extraColumns : List (List SaveValue)) :
    fateEntries width (fatePairs entries) (fateRows extraColumns) =
      Fate.all ((writtenRows width entries extraColumns).map fateRow) := by
  rw [fateRows_eq_map]
  induction entries generalizing extraColumns with
  | nil => rfl
  | cons entry entries ih =>
      have later := ih extraColumns.tail
      rw [List.map_tail] at later
      rcases entry with ⟨key, value⟩
      rw [fatePairs, fateEntries, later, List.head?_map, fateColumns_eq]
      rfl

/-- The values of the rows that are written are those of the mapping, and leaves. -/
theorem foretold_rows {width : Nat} {entries : List (SaveValue × SaveValue)}
    {extraColumns : List (List SaveValue)}
    (foretoldEntries : ∀ entry ∈ entries, Foretold entry.1 ∧ Foretold entry.2)
    (foretoldColumns : ∀ row ∈ extraColumns, ∀ column ∈ row, Foretold column) :
    ∀ row ∈ writtenRows width entries extraColumns,
      Foretold row.1 ∧ Foretold row.2.1 ∧ ∀ column ∈ row.2.2, Foretold column := by
  induction entries generalizing extraColumns with
  | nil =>
      intro row member
      cases member
  | cons entry entries ih =>
      rw [List.forall_mem_cons] at foretoldEntries
      have later := ih foretoldEntries.2 fun row member =>
        foretoldColumns row (List.mem_of_mem_tail member)
      intro row member
      rcases List.mem_cons.mp member with rfl | member
      · refine ⟨foretoldEntries.1.1, foretoldEntries.1.2, ?_⟩
        intro column columnMember
        rcases List.mem_map.mp columnMember with ⟨i, _, rfl⟩
        cases extraColumns with
        | nil => exact foretold_leaf rfl
        | cons columns extraColumns =>
            simp only [List.head?_cons, List.getD_eq_getElem?_getD]
            cases found : columns[i]? with
            | none => exact foretold_leaf rfl
            | some value =>
                exact foretoldColumns columns List.mem_cons_self value
                  (List.mem_of_getElem? found)
      · exact later row member

theorem ends_mapping {width : Nat} {entries : List (SaveValue × SaveValue)}
    {extraColumns : List (List SaveValue)}
    (foretoldEntries : ∀ entry ∈ entries, Foretold entry.1 ∧ Foretold entry.2)
    (foretoldColumns : ∀ row ∈ extraColumns, ∀ column ∈ row, Foretold column) (rest : Str) :
    Ends (fun fuel => parseRealSaveValue fuel
        (writeRealSaveValue (.mapping width entries extraColumns) ++ rest))
      rest (fate (.mapping width entries extraColumns)) := by
  have text : writeRealSaveValue (.mapping width entries extraColumns) ++ rest =
      openParen :: openBracket :: ((writtenRows width entries extraColumns).flatMap entryText ++
        closeBracket :: closeParen :: rest) := by
    simp [writeRealSaveValue, writeEntries_eq]
  rw [text, fate, fateEntries_eq]
  apply Ends.step rfl
  simp only [parseRealSaveValue_mapping]
  rw [← Fate.andThen_reads (Fate.all _)]
  apply (ends_entries (foretold_rows foretoldEntries foretoldColumns) []
    (closeParen :: rest)).andThen
  intro values
  simp only [closeAggregate_closed]
  exact .reads _ (Converges.const _)

/-- Every value comes to its fate. -/
theorem foretold_all (v : SaveValue) : Foretold v := by
  have hereditary : Hereditary Foretold := by
    constructor
    · exact fun v leaf => foretold_leaf leaf
    · intro items flag foretold
      constructor
      · exact fun rest _ => .ends (ends_array flag foretold rest)
      · exact .inr ⟨openParen, _, rfl, by decide⟩
    · intro width entries extraColumns foretoldEntries foretoldColumns
      constructor
      · exact fun rest _ => .ends (ends_mapping foretoldEntries foretoldColumns rest)
      · exact .inr ⟨openParen, _, rfl, by decide⟩
  exact hereditary.all v

/-- A leaf is not written in parentheses. -/
theorem head_leaf {v : SaveValue} (leaf : v.isLeaf = true) :
    ∀ c ∈ (writeRealSaveValue v).head?, c ≠ openParen := by
  have number : ∀ i : Int, ∀ c ∈ (Decimal.ofInt i).head?, c ≠ openParen := by
    rintro i c head rfl
    rcases ofInt_cases i with ⟨n, _, text⟩ | ⟨n, _, text⟩
    · rcases ofNat_cons n with ⟨first, digits, digitsEq, isDigit⟩
      rw [text, digitsEq] at head
      cases head
      revert isDigit
      decide
    · rw [text] at head
      cases head
  cases v with
  | void => exact number 0
  | int i flag => exact number i.toInt
  | float d =>
      rintro c head rfl
      by_cases word : ((d.isNaN || d.isInf) && !d.signBit) = true
      · rw [Bool.and_eq_true] at word
        have sign : d.signBit = false := by simpa using word.2
        rw [writeRealSaveValue] at head
        rcases toFixed_word word.1 with text | text <;> rw [text, sign] at head <;>
          revert head <;> decide
      · rcases (parseRealSaveNumber_toFixed (by simpa using word)).1 with
          ⟨first, text, written, starts⟩
        rw [writeRealSaveValue, written] at head
        cases head
        revert starts
        decide
  | string s =>
      intro c head
      cases head
      decide
  | array items flag => cases leaf
  | mapping width entries extraColumns => cases leaf
  | nil | symbol | object | closure | buffer =>
      intro c head
      cases head

/-- Outside of parentheses the reader always comes to an end. -/
theorem converges_outside {s : Str} (outside : ∀ c ∈ s.head?, c ≠ openParen) :
    ∃ result, Converges (fun fuel => parseRestoreVariable fuel s) result := by
  cases s with
  | nil => exact ⟨_, Converges.const _⟩
  | cons c rest =>
      simp only [parseRestoreVariable]
      split
      · exact ⟨_, Converges.const _⟩
      · next noQuote =>
          split
          · exact ⟨_, Converges.const _⟩
          · next noNumber =>
              refine ⟨_, converges_value_default ?_⟩
              rw [not_or] at noNumber
              simp [startsValue, noQuote, noNumber.1, noNumber.2, outside c rfl]

/-- The reader comes to an end on exactly the texts of the values that do not stall. -/
theorem parseRestoreVariable_ends_iff (v : SaveValue) :
    (∃ result, Converges (fun fuel => parseRestoreVariable fuel (writeRealSaveValue v))
      result) ↔ stalls v = false := by
  have aggregate : ∀ v, stalls v = (fate v == .sticks) →
      (∃ text, writeRealSaveValue v = openParen :: text) →
      Ends (fun fuel => parseRealSaveValue fuel (writeRealSaveValue v ++ [])) [] (fate v) →
      ((∃ result, Converges (fun fuel => parseRestoreVariable fuel (writeRealSaveValue v))
        result) ↔ stalls v = false) := by
    intro v stalls_eq ⟨text, written⟩ ends
    have same : (fun fuel => parseRestoreVariable fuel (writeRealSaveValue v)) =
        fun fuel => parseRealSaveValue fuel (writeRealSaveValue v ++ []) := by
      funext fuel
      rw [List.append_nil, written, parseRestoreVariable_paren]
    rw [same, stalls_eq]
    generalize fate v = x at ends
    cases ends with
    | reads a converges => exact iff_of_true ⟨_, converges⟩ rfl
    | refuses e converges => exact iff_of_true ⟨_, converges⟩ rfl
    | sticks diverges =>
        apply iff_of_false
        · rintro ⟨result, converges⟩
          exact converges.not_diverges diverges
        · decide
  cases v with
  | array items flag =>
      exact aggregate _ rfl ⟨_, rfl⟩ (ends_array flag (fun item _ => foretold_all item) [])
  | mapping width entries extraColumns =>
      exact aggregate _ rfl ⟨_, rfl⟩ (ends_mapping
        (fun entry _ => ⟨foretold_all entry.1, foretold_all entry.2⟩)
        (fun _ _ column _ => foretold_all column) [])
  | float | void | nil | int | string | symbol | object | closure | buffer =>
      exact iff_of_true (converges_outside (head_leaf rfl)) rfl

end Kjdmud.SaveVariable
