import Kjdmud.Efun.Json.Grammar
import Kjdmud.Vm.SaveVariable.RoundTrip

/-!
# JSON texts of values

What `json_serialize` writes is a text of the value in the grammar, so that `json_parse` reads
the value back.  What `json_parse` reads need not have distinct keys: the loop over the entries
of an object appends each of them without a look at those that are there.
-/

namespace Kjdmud.Efun.Json

open Vm (Data Value World)
open SaveVariable (quote backslash openBrace closeBrace openBracket closeBracket comma colon minus
  point)

/-! ## Contents -/

namespace Contents

/-- Texts with commas between them; the first one is the one at index `i`. -/
def separated : Nat → List Str → Str
  | _, [] => []
  | i, s :: rest => (if i = 0 then [] else [comma]) ++ s ++ separated (i + 1) rest

mutual

/-- The text of a tree. -/
def text (showDouble : Double → Str) : Contents → Str
  | .int i => Decimal.ofInt i.toInt
  | .float d => jsonNumber (showDouble d)
  | .string s => jsonString s
  | .array items => openBracket :: separated 0 (texts showDouble items) ++ [closeBracket]
  | .object entries =>
      openBrace :: separated 0 (entryTexts showDouble entries) ++ [closeBrace]

/-- The texts of items. -/
def texts (showDouble : Double → Str) : List Contents → List Str
  | [] => []
  | item :: rest => item.text showDouble :: texts showDouble rest

/-- The texts of entries. -/
def entryTexts (showDouble : Double → Str) : List (Str × Contents) → List Str
  | [] => []
  | (key, item) :: rest =>
      (jsonString key ++ colon :: item.text showDouble) :: entryTexts showDouble rest

end

mutual

/-- The mappings of a tree have pairwise distinct keys. -/
def KeysDistinct : Contents → Prop
  | .int _ | .float _ | .string _ => True
  | .array items => ItemsDistinct items
  | .object entries => (entries.map Prod.fst).Nodup ∧ EntriesDistinct entries

def ItemsDistinct : List Contents → Prop
  | [] => True
  | item :: rest => item.KeysDistinct ∧ ItemsDistinct rest

def EntriesDistinct : List (Str × Contents) → Prop
  | [] => True
  | (_, item) :: rest => item.KeysDistinct ∧ EntriesDistinct rest

end

end Contents

mutual

/-- A value built of ints, strings, arrays, and mappings of width 1 with string keys, and the
tree of what it holds. -/
inductive Holds (w : World) : Data → Contents → Prop
  | int (i : Int64) : Holds w (.int i) (.int i)
  | string (s : Str) : Holds w (.string s) (.string s)
  | array {ref : Nat} {items : List Contents} (inside : HoldsItems w (w.array ref) items) :
      Holds w (.array (some ref)) (.array items)
  | mapping {ref : Nat} {entries : List (Str × Contents)} (width : (w.mapping ref).width = 1)
      (inside : HoldsEntries w (w.mapping ref).entries entries) :
      Holds w (.mapping (some ref)) (.object entries)

inductive HoldsItems (w : World) : List Value → List Contents → Prop
  | nil : HoldsItems w [] []
  | cons {v : Value} {vs : List Value} {item : Contents} {items : List Contents}
      (first : Holds w v.data item) (more : HoldsItems w vs items) :
      HoldsItems w (v :: vs) (item :: items)

inductive HoldsEntries (w : World) : List (Value × Value) → List (Str × Contents) → Prop
  | nil : HoldsEntries w [] []
  | cons {k v : Value} {vs : List (Value × Value)} {key : Str} {item : Contents}
      {entries : List (Str × Contents)} (named : k.data = .string key)
      (first : Holds w v.data item) (more : HoldsEntries w vs entries) :
      HoldsEntries w ((k, v) :: vs) ((key, item) :: entries)

end

/-! ## What is written -/

section

variable {w : World} (showDouble : Double → Str)

/-- A visit writes a text once the recursion is deep enough. -/
def Writes (w : World) (pieces : List (WriterStep Data)) (s : Str) : Prop :=
  ∃ depth, ∀ deeper, depth ≤ deeper →
    Walk.emit (Walk.write (jsonVisit showDouble w) deeper) pieces = some (.ok s)

variable {showDouble}

theorem Writes.nil : Writes showDouble w [] [] :=
  ⟨0, fun _ _ => rfl⟩

theorem Writes.text {pieces : List (WriterStep Data)} {t : Str} (s : Str)
    (rest : Writes showDouble w pieces t) : Writes showDouble w (.text s :: pieces) (s ++ t) := by
  obtain ⟨depth, written⟩ := rest
  exact ⟨depth, fun deeper enough => Walk.emit_text_ok s (written deeper enough)⟩

theorem Writes.append {pieces pieces' : List (WriterStep Data)} {s t : Str}
    (first : Writes showDouble w pieces s) (second : Writes showDouble w pieces' t) :
    Writes showDouble w (pieces ++ pieces') (s ++ t) := by
  obtain ⟨depth, written⟩ := first
  obtain ⟨depth', written'⟩ := second
  refine ⟨max depth depth', fun deeper enough => ?_⟩
  exact Walk.emit_append_ok (written deeper (le_of_max_le_left enough))
    (written' deeper (le_of_max_le_right enough))

/-- A value is written one level below. -/
theorem Writes.node {data : Data} {s : Str}
    (visit : Writes showDouble w (jsonVisit showDouble w data) s) :
    Writes showDouble w [.node data] s := by
  obtain ⟨depth, written⟩ := visit
  refine ⟨depth + 1, fun deeper enough => ?_⟩
  obtain ⟨deeper, rfl⟩ := Nat.exists_eq_succ_of_ne_zero (Nat.ne_zero_of_lt enough)
  have below := written deeper (Nat.le_of_succ_le_succ enough)
  rw [← List.append_nil s]
  exact Walk.emit_node_ok below rfl

mutual

/-- `json::serializeValue` writes the text of the tree. -/
theorem Holds.writes {data : Data} {tree : Contents} :
    Holds w data tree → Writes showDouble w (jsonVisit showDouble w data) (tree.text showDouble)
  | .int i => by
      simpa [Contents.text, jsonVisit] using Writes.text (Decimal.ofInt i.toInt) (.nil (w := w))
  | .string s => by
      simpa [Contents.text, jsonVisit] using Writes.text (jsonString s) (.nil (w := w))
  | .array inside => by
      have items := (inside.writes 0).append (.text [closeBracket] .nil)
      simpa [Contents.text, jsonVisit, arrayItems] using items.text [openBracket]
  | .mapping width inside => by
      have entries := (inside.writes 0).append (.text [closeBrace] .nil)
      simpa [Contents.text, jsonVisit, mappingContents, width] using entries.text [openBrace]

theorem HoldsItems.writes {vs : List Value} {items : List Contents} (i : Nat) :
    HoldsItems w vs items →
      Writes showDouble w
        ((vs.zipIdx i).flatMap fun (item, i) =>
          [.text (if i = 0 then [] else [comma]), WriterStep.value item])
        (Contents.separated i (Contents.texts showDouble items))
  | .nil => .nil
  | .cons first more => by
      have here := first.writes.node.text (if i = 0 then [] else [comma])
      exact here.append (more.writes (i + 1))

theorem HoldsEntries.writes {vs : List (Value × Value)} {entries : List (Str × Contents)}
    (i : Nat) :
    HoldsEntries w vs entries →
      Writes showDouble w ((vs.zipIdx i).flatMap fun (entry, i) => jsonEntry entry i)
        (Contents.separated i (Contents.entryTexts showDouble entries))
  | .nil => .nil
  | @HoldsEntries.cons _ _ _ _ key _ _ named first more => by
      have here := first.writes.node.text
        ((if i = 0 then [] else [comma]) ++ jsonString key ++ [colon])
      have both := here.append (more.writes (i + 1))
      simpa [jsonEntry, named, WriterStep.value, Contents.separated, Contents.entryTexts] using both

end

end

/-! ## What is read -/

/-- A control byte is escaped with its own number. -/
theorem codeUnit_control : ∀ n < 32,
    codeUnit [0x30, 0x30, hexDigit (n / 16), hexDigit (n % 16)] = some n := by
  decide +kernel

theorem utf8_byte (c : UInt8) (small : c < 0x20) : utf8 c.toNat = [c] := by
  have low : c.toNat < 32 := UInt8.lt_iff_toNat_lt.mp small
  rw [utf8, if_pos (by omega), UInt8.ofNat_toNat]

/-- The written form of a byte is read as that byte. -/
theorem literal_jsonEscape (c : UInt8) {s bytes rest : Str} (more : Literal s bytes rest) :
    Literal (jsonEscape c ++ s) (c :: bytes) rest := by
  have simple {e : UInt8} (stands : simpleEscape e = some c) :
      Literal (backslash :: e :: s) (c :: bytes) rest := .escaped (.simple stands) more
  unfold jsonEscape
  split
  · rename_i same
    subst same
    exact simple rfl
  split
  · rename_i same
    subst same
    exact simple rfl
  split
  · rename_i same
    subst same
    exact simple (e := 0x62) rfl
  split
  · rename_i same
    subst same
    exact simple (e := 0x66) rfl
  split
  · rename_i same
    subst same
    exact simple (e := 0x6e) rfl
  split
  · rename_i same
    subst same
    exact simple (e := 0x72) rfl
  split
  · rename_i same
    subst same
    exact simple (e := 0x74) rfl
  split
  · rename_i control
    have low : c.toNat < 32 := UInt8.lt_iff_toNat_lt.mp control
    have alone : IsHigh c.toNat → ∀ low more, ¬ LowHalf s low more := fun isHigh => by
      have high := isHigh.1
      omega
    have unit := @Escape.unit [0x30, 0x30, hexDigit (c.toNat / 16), hexDigit (c.toNat % 16)] s _
      rfl (codeUnit_control c.toNat low) alone
    rw [utf8_byte c control] at unit
    exact .escaped unit more
  · rename_i noQuote noEscape _ _ _ _ _ _
    exact .plain noQuote noEscape more

theorem literal_write (s rest : Str) :
    Literal (s.flatMap jsonEscape ++ quote :: rest) s rest := by
  induction s with
  | nil => exact .close
  | cons c s ih =>
      rw [List.flatMap_cons, List.append_assoc]
      exact literal_jsonEscape c ih

theorem jsonString_append (s rest : Str) :
    jsonString s ++ rest = quote :: (s.flatMap jsonEscape ++ quote :: rest) := by
  rw [jsonString, List.cons_append, List.cons_append, List.append_assoc, List.singleton_append]

/-- No number goes on in front of the text. -/
def Stops (s : Str) : Prop :=
  ∀ c ∈ s.head?, Decimal.isDigit c = false ∧ c ≠ point ∧ c ≠ 0x65 ∧ c ≠ 0x45

theorem stops_nil : Stops [] := by
  rintro c ⟨⟩

theorem stops_cons {c : UInt8} (s : Str) (stop : c = comma ∨ c = closeBracket ∨ c = closeBrace) :
    Stops (c :: s) := by
  rintro d ⟨⟩
  rcases stop with rfl | rfl | rfl <;> decide

theorem skipWhitespace_of_black {c : UInt8} (s : Str) (black : isWhitespace c = false) :
    skipWhitespace (c :: s) = c :: s :=
  List.dropWhile_cons_of_neg (by rw [black]; decide)

/-- The end of a number behind its sign. -/
theorem numberEnd_write {s tail : Str} (stops : Stops tail)
    (digits : (skipByte (· == minus) s).dropWhile Decimal.isDigit = tail) :
    numberEnd s = (false, tail) := by
  have noPoint : (tail.head? == some point) = false := by
    refine beq_false_of_ne fun same => ?_
    exact (stops point same).2.1 rfl
  have noExponent : (tail.head? == some 0x65 || tail.head? == some 0x45) = false := by
    rw [Bool.or_eq_false_iff]
    constructor
    · refine beq_false_of_ne fun same => ?_
      exact (stops 0x65 same).2.2.1 rfl
    · refine beq_false_of_ne fun same => ?_
      exact (stops 0x45 same).2.2.2 rfl
  unfold numberEnd
  simp only [digits, noPoint, Bool.false_eq_true, if_false, noExponent, Bool.or_self]

/-- Digits are read in front of a text that does not go on with them. -/
theorem skipDigits_write (n : Nat) {tail : Str} (stops : Stops tail) :
    (Decimal.ofNat n ++ tail).dropWhile Decimal.isDigit = tail :=
  Decimal.dropWhile_isDigit_ofNat_append n fun c first => (stops c first).1

theorem black_of_starts {c : UInt8} (first : c = minus ∨ Decimal.isDigit c = true) :
    isWhitespace c = false := by
  rcases first with rfl | digit
  · decide
  · have range : 48 ≤ c ∧ c ≤ 57 := by simpa [Decimal.isDigit] using digit
    grind [isWhitespace]

/-- A number at the front of a text. -/
theorem Reads.of_number {s token tail : Str} {i : Int64} (starts : StartsNumber s)
    (split : s = token ++ tail) (ends : numberEnd s = (false, tail))
    (value : Conversion.stoll token = .ok i) : Reads s (.int i) tail := by
  obtain ⟨c, t, rfl, first⟩ := starts
  have start := skipWhitespace_of_black t (black_of_starts first)
  have begins : StartsNumber (skipWhitespace (c :: t)) := start.symm ▸ ⟨c, t, rfl, first⟩
  have finishes : numberEnd (skipWhitespace (c :: t)) = (false, tail) := start.symm ▸ ends
  refine .number begins (start.trans split) finishes ?_
  rw [numberValue, if_neg Bool.false_ne_true, value]

/-- A written int is read back. -/
theorem reads_int (i : Int64) {tail : Str} (stops : Stops tail) :
    Reads (Decimal.ofInt i.toInt ++ tail) (.int i) tail := by
  have value := Conversion.stoll_ofInt i
  rcases SaveVariable.ofInt_cases i.toInt with ⟨n, -, written⟩ | ⟨n, -, written⟩
  · rw [written] at value ⊢
    obtain ⟨c, digits, front, digit⟩ := SaveVariable.ofNat_cons n
    have starts : StartsNumber (Decimal.ofNat n ++ tail) := by
      rw [front]
      exact ⟨c, digits ++ tail, rfl, .inr digit⟩
    refine .of_number starts rfl (numberEnd_write stops ?_) value
    have noSign : skipByte (· == minus) (Decimal.ofNat n ++ tail) = Decimal.ofNat n ++ tail := by
      rw [front, List.cons_append, skipByte, if_neg]
      rw [beq_iff_eq]
      rintro rfl
      exact absurd digit (by decide)
    rw [noSign, skipDigits_write n stops]
  · rw [written] at value ⊢
    have starts : StartsNumber (minus :: Decimal.ofNat n ++ tail) :=
      ⟨minus, Decimal.ofNat n ++ tail, rfl, .inl rfl⟩
    exact .of_number starts rfl (numberEnd_write stops (skipDigits_write n stops)) value

section

variable {w : World} (showDouble : Double → Str)

/-- The text of a tree is one of the tree in the grammar, in front of what may follow a value. -/
def ReadsBack (tree : Contents) : Prop :=
  ∀ tail, Stops tail → Reads (tree.text showDouble ++ tail) tree tail

variable {showDouble}

mutual

/-- What holds a tree has no float in it, so the text of the tree is read back. -/
theorem Holds.readsBack {data : Data} {tree : Contents} :
    Holds w data tree → ReadsBack showDouble tree
  | .int i => fun _ stops => reads_int i stops
  | .string s => by
      intro tail _
      refine .string ?_ (literal_write s tail)
      rw [Contents.text, jsonString_append]
      rfl
  | .array inside => fun tail _ => inside.readsArray tail
  | .mapping _ inside => fun tail _ => inside.readsObject tail

theorem HoldsItems.readsArray {vs : List Value} {items : List Contents} (tail : Str) :
    HoldsItems w vs items →
      Reads ((Contents.array items).text showDouble ++ tail) (.array items) tail
  | .nil => .emptyArray (t := closeBracket :: tail) rfl rfl
  | .cons first more => by
      have inside := more.reads 0 first.readsBack tail
      refine .array ?_ inside
      simp [Contents.text, Contents.separated, Contents.texts,
        skipWhitespace_of_black _ (show isWhitespace openBracket = false from rfl)]

theorem HoldsItems.reads {vs : List Value} {item : Contents} {items : List Contents} (i : Nat)
    (first : ReadsBack showDouble item) (tail : Str) :
    HoldsItems w vs items →
      ReadsItems (item.text showDouble ++
        (Contents.separated (i + 1) (Contents.texts showDouble items) ++ closeBracket :: tail))
        (item :: items) tail
  | .nil => .last (first _ (stops_cons tail (.inr (.inl rfl)))) rfl
  | .cons second more => by
      have inside := more.reads (i + 1) second.readsBack tail
      refine .cons (first _ (stops_cons _ (.inl rfl))) rfl ?_
      simpa [Contents.separated, Contents.texts] using inside

theorem HoldsEntries.readsObject {vs : List (Value × Value)} {entries : List (Str × Contents)}
    (tail : Str) :
    HoldsEntries w vs entries →
      Reads ((Contents.object entries).text showDouble ++ tail) (.object entries) tail
  | .nil => .emptyObject (t := closeBrace :: tail) rfl rfl
  | @HoldsEntries.cons _ _ _ _ key _ _ _ first more => by
      have inside := more.reads 0 key first.readsBack tail
      refine .object ?_ inside
      simp [Contents.text, Contents.separated, Contents.entryTexts,
        skipWhitespace_of_black _ (show isWhitespace openBrace = false from rfl)]

theorem HoldsEntries.reads {vs : List (Value × Value)} {item : Contents}
    {entries : List (Str × Contents)} (i : Nat) (key : Str)
    (first : ReadsBack showDouble item) (tail : Str) :
    HoldsEntries w vs entries →
      ReadsEntries (jsonString key ++ colon :: (item.text showDouble ++
        (Contents.separated (i + 1) (Contents.entryTexts showDouble entries) ++
          closeBrace :: tail)))
        ((key, item) :: entries) tail
  | .nil => by
      rw [jsonString_append]
      exact .last rfl (literal_write key _) rfl (first _ (stops_cons tail (.inr (.inr rfl)))) rfl
  | @HoldsEntries.cons _ _ _ _ key' _ _ _ second more => by
      have inside := more.reads (i + 1) key' second.readsBack tail
      rw [jsonString_append]
      refine .cons rfl (literal_write key _) rfl (first _ (stops_cons _ (.inl rfl))) rfl ?_
      simpa [Contents.separated, Contents.entryTexts] using inside

end

end

/-! ## The two functions -/

/-- `json_serialize` writes the value, and `json_parse` reads the tree of it from what is
written. -/
def RoundTrips (env : WriterEnv) (w : World) (v : Value) (tree : Contents) : Prop :=
  ∃ text, parseTopLevel text = pure tree ∧
    ∃ depth, ∀ deeper, depth ≤ deeper → Writer.write .json env w deeper v = some (.ok text)

/-- `json_parse` comes to an end on a text without a read outside of it, with an
`LpcRuntimeError` or with a tree whose mappings have pairwise distinct keys. -/
def ParsesWell (s : Str) : Prop :=
  (parseTopLevel s).Safe Contents.KeysDistinct

theorem Holds.roundTrips {w : World} {v : Value} {tree : Contents} (holds : Holds w v.data tree)
    (env : WriterEnv) : RoundTrips env w v tree := by
  have back : ReadsBack env.showPrecise tree := holds.readsBack
  have reads := back [] stops_nil
  rw [List.append_nil] at reads
  have denotes : Denotes (tree.text env.showPrecise) tree := ⟨[], reads, rfl⟩
  have writes : Writes env.showPrecise w (jsonVisit env.showPrecise w v.data)
    (tree.text env.showPrecise) := holds.writes
  obtain ⟨depth, written⟩ := writes
  refine ⟨_, denotes.eq, depth + 1, fun deeper enough => ?_⟩
  obtain ⟨deeper, rfl⟩ := Nat.exists_eq_succ_of_ne_zero (Nat.ne_zero_of_lt enough)
  exact written deeper (Nat.le_of_succ_le_succ enough)

/-- `([ "hp": ({ 1, "x" }) ])`. -/
example (env : WriterEnv) :
    RoundTrips env
      { arrays := [[.int 1, .string (str "x")]]
        mappings := [⟨[(.string (str "hp"), ⟨.array (some 0), false, false⟩)], 1, []⟩] }
      ⟨.mapping (some 0), false, false⟩ (.object [(str "hp", .array [.int 1, .string (str "x")])]) :=
  Holds.roundTrips (.mapping rfl (.cons rfl
    (.array (.cons (.int 1) (.cons (.string _) .nil))) .nil)) env

theorem parsesWell_iff_denotes (s : Str) : ParsesWell s ↔ ∀ v, Denotes s v → v.KeysDistinct := by
  constructor
  · intro well v denotes
    unfold ParsesWell at well
    rw [denotes.eq] at well
    exact well
  · exact fun distinct => (parseTopLevel_safe s).mono distinct

/-- A value comes back from its text, and a text is read well exactly when no object in it
repeats a key. -/
theorem json_iff (env : WriterEnv) (w : World) (v : Value) (tree : Contents) (s : Str) :
    (Holds w v.data tree → tree.KeysDistinct → RoundTrips env w v tree) ∧
      (ParsesWell s ↔ ∀ v, Denotes s v → v.KeysDistinct) :=
  ⟨fun holds _ => holds.roundTrips env, parsesWell_iff_denotes s⟩

/-- An object with the key `a` twice: both entries are kept. -/
theorem repeated_key_is_kept : ¬ ParsesWell (str "\x7b\x22a\x22:1,\x22a\x22:2\x7d") := by
  have parsed : parseTopLevel (str "\x7b\x22a\x22:1,\x22a\x22:2\x7d") =
      pure (.object [(str "a", .int 1), (str "a", .int 2)]) := by
    rfl
  unfold ParsesWell
  rw [parsed]
  exact fun distinct => absurd distinct.1 (by decide)

end Kjdmud.Efun.Json
