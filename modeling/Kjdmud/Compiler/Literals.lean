import Kjdmud.Compiler.Ast
import Kjdmud.Compiler.Lexer
import Kjdmud.Vm.Comparisons.CaseLabels
import Mathlib.Data.List.TakeWhile

/-!
# Literals

The branches of `Parser::parsePrimary` in `src/compiler/Parser.cpp` for strings and numbers, which
come before all others.  The parser stands at the first of the tokens.
-/

namespace Kjdmud.Compiler

open Kjdmud.Conversion (ConversionError stod stoll stollHex)

/-- The text of a number that `std::stoll` takes for base 16. -/
def isHexText (raw : Str) : Bool :=
  raw.length > 2 ∧ raw.head? = some 48 ∧ (raw[1]? = some 120 ∨ raw[1]? = some 88)

/-- The literal of a number.  The exceptions of the conversions are not caught here. -/
def parseNumber (raw : Str) : Except ConversionError AstNode :=
  if 46 ∈ raw then AstNode.floatLiteral <$> stod raw
  else AstNode.intLiteral <$> if isHexText raw then stollHex raw else stoll raw

/-- Strings that stand side by side are one literal. -/
def parseStrings : List Token → Str × List Token
  | [] => ([], [])
  | token :: tokens =>
      if token.type = .string then (parseStrings tokens).map (token.text ++ ·) id
      else ([], token :: tokens)

/-- `parsePrimary`; `none` at a token that its other branches are for. -/
def parsePrimary : List Token → Option (Except ConversionError (AstNode × List Token))
  | [] => none
  | token :: tokens =>
      match token.type with
      | .string =>
          let (value, tokens) := parseStrings (token :: tokens)
          some (.ok (.stringLiteral value, tokens))
      | .number => some ((parseNumber token.text).map (·, tokens))
      | _ => none

/-!
## Integer literals

A literal on its way through the lexer, the parser, the code generator and the interpreter.  The
operand of `PushInt` is an `int32_t`, and a larger value loses its upper bits there.
-/

open Kjdmud.Conversion (digitsValue hexDigit hexToken integerToken sign spanDigits stoll stollHex
  toLower)
open Kjdmud.Vm

/-- An integer literal, its value, and what the source goes on with, which does not continue it. -/
inductive IntegerLiteral : Str → Nat → Str → Prop
  | decimal {digits more : Str} (some_ : digits ≠ [])
      (all : ∀ c ∈ digits, Decimal.isDigit c = true)
      (ends : Decimal.isDigit (more.headD 0) = false)
      (noPoint : more.headD 0 = 46 → Decimal.isDigit (more.tail.headD 0) = false)
      (noHex : digits = str "0" → more.headD 0 = 120 ∨ more.headD 0 = 88 →
        isXDigit (more.tail.headD 0) = false) :
      IntegerLiteral digits (Decimal.value digits) more
  | hex {x : UInt8} {digits more : Str} (letter : x = 120 ∨ x = 88) (some_ : digits ≠ [])
      (all : ∀ c ∈ digits, isXDigit c = true) (ends : isXDigit (more.headD 0) = false) :
      IntegerLiteral (48 :: x :: digits) (digitsValue 16 (digits.filterMap hexDigit)) more

/-! ## The lexer -/

section Lexing

variable {kind : UInt8 → Bool} {text more : Str} {n : Nat} {l : Lexer}

theorem takeWhile_all (all : ∀ c ∈ text, kind c = true) (ends : kind (more.headD 0) = false) :
    (text ++ more).takeWhile kind = text := by
  rw [List.takeWhile_append_of_pos all]
  cases more with
  | nil => rw [List.takeWhile_nil, List.append_nil]
  | cons c more =>
      have stop : ¬ kind c = true := Bool.eq_false_iff.mp ends
      rw [List.takeWhile_cons_of_neg stop, List.append_nil]

theorem dropWhile_all (all : ∀ c ∈ text, kind c = true) (ends : kind (more.headD 0) = false) :
    (text ++ more).dropWhile kind = more := by
  rw [List.dropWhile_append_of_pos all]
  cases more with
  | nil => rfl
  | cons c more => exact List.dropWhile_cons_of_neg (Bool.eq_false_iff.mp ends)

theorem advanceWhile_all (source : l.rest = text ++ more) (all : ∀ c ∈ text, kind c = true)
    (ends : kind (more.headD 0) = false) : l.advanceWhile kind = (text, l.moveTo more) := by
  unfold Lexer.advanceWhile
  rw [source, takeWhile_all all ends, dropWhile_all all ends]

/-- A digit starts a number and nothing else. -/
theorem lexToken_digit (digit : Decimal.isDigit l.peek = true) :
    l.lexToken = .ok l.lexNumber := by
  have noLetter : startsIdent l.peek = false := by
    have low : 48 ≤ l.peek ∧ l.peek ≤ 57 := by simpa [Decimal.isDigit] using digit
    grind [startsIdent, isAlpha]
  unfold Lexer.lexToken
  dsimp only
  rw [if_neg (Bool.eq_false_iff.mp noLetter), if_pos digit]

theorem lexNumber_decimal (source : l.rest = text ++ more)
    (all : ∀ c ∈ text, Decimal.isDigit c = true)
    (ends : Decimal.isDigit (more.headD 0) = false)
    (noPoint : more.headD 0 = 46 → Decimal.isDigit (more.tail.headD 0) = false)
    (noHex : text = str "0" → more.headD 0 = 120 ∨ more.headD 0 = 88 →
      isXDigit (more.tail.headD 0) = false) :
    l.lexNumber = (⟨.number, text, l.line⟩, l.moveTo more) := by
  have notHex : ¬ (text = str "0" ∧ ((l.moveTo more).peek = 120 ∨ (l.moveTo more).peek = 88) ∧
      isXDigit (l.moveTo more).peekNext = true) := by
    rintro ⟨zero, letter, digit⟩
    exact Bool.false_ne_true ((noHex zero letter).symm.trans digit)
  have notFloat : ¬ ((l.moveTo more).peek = 46 ∧
      Decimal.isDigit (l.moveTo more).peekNext = true) := by
    rintro ⟨point, digit⟩
    exact Bool.false_ne_true ((noPoint point).symm.trans digit)
  unfold Lexer.lexNumber
  rw [advanceWhile_all source all ends]
  dsimp only
  rw [if_neg notHex, if_neg notFloat]

/-- Characters are taken in two goes. -/
theorem moveTo_moveTo {first second : Str} (suffix : first <:+ l.rest) (suffix' : second <:+ first) :
    (l.moveTo first).moveTo second = l.moveTo second := by
  have few := suffix.sublist.count_le (a := 10)
  have fewer := suffix'.sublist.count_le (a := 10)
  have line : l.line + (l.rest.count 10 - first.count 10) + (first.count 10 - second.count 10) =
      l.line + (l.rest.count 10 - second.count 10) := by omega
  simp only [Lexer.moveTo, line]

theorem isDigit_of_letter {x : UInt8} (letter : x = 120 ∨ x = 88) : Decimal.isDigit x = false := by
  rcases letter with rfl | rfl <;> decide

theorem lexNumber_hex {x : UInt8} (source : l.rest = (48 :: x :: text) ++ more)
    (letter : x = 120 ∨ x = 88) (some_ : text ≠ []) (all : ∀ c ∈ text, isXDigit c = true)
    (ends : isXDigit (more.headD 0) = false) :
    l.lexNumber = (⟨.number, 48 :: x :: text, l.line⟩, l.moveTo more) := by
  have zero : l.advanceWhile Decimal.isDigit = ([48], l.moveTo (x :: (text ++ more))) := by
    refine advanceWhile_all (by rw [source]; rfl) ?_ (isDigit_of_letter letter)
    simp [Decimal.isDigit]
  have digit : isXDigit ((text ++ more).headD 0) = true := by
    cases text with
    | nil => exact absurd rfl some_
    | cons c text => exact all c List.mem_cons_self
  have suffix : x :: (text ++ more) <:+ l.rest := by
    rw [source]
    exact List.suffix_cons _ _
  have whole : (l.moveTo (x :: (text ++ more))).advance = l.moveTo (text ++ more) :=
    moveTo_moveTo suffix (List.suffix_cons _ _)
  have digits : (l.moveTo (text ++ more)).advanceWhile isXDigit = (text, l.moveTo more) := by
    rw [advanceWhile_all rfl all ends,
      moveTo_moveTo ((List.suffix_cons _ _).trans suffix) (List.suffix_append _ _)]
  unfold Lexer.lexNumber
  rw [zero]
  dsimp only
  rw [if_pos ⟨rfl, letter, digit⟩, whole, digits]
  rfl

/-- The lexer takes a literal as one token. -/
theorem lexToken_integerLiteral (literal : IntegerLiteral text n more)
    (source : l.rest = text ++ more) :
    l.lexToken = .ok (⟨.number, text, l.line⟩, l.moveTo more) := by
  cases literal with
  | decimal some_ all ends noPoint noHex =>
      have first : Decimal.isDigit l.peek = true := by
        unfold Lexer.peek
        rw [source]
        cases text with
        | nil => exact absurd rfl some_
        | cons c text => exact all c List.mem_cons_self
      rw [lexToken_digit first, lexNumber_decimal source all ends noPoint noHex]
  | hex letter some_ all ends =>
      have first : Decimal.isDigit l.peek = true := by
        unfold Lexer.peek
        rw [source]
        rfl
      rw [lexToken_digit first, lexNumber_hex source letter some_ all ends]

end Lexing

/-! ## The parser -/

section Parsing

variable {text more : Str} {n : Nat}

/-- `std::stoll` on digits. -/
theorem stoll_digits (some_ : text ≠ []) (all : ∀ c ∈ text, Decimal.isDigit c = true)
    (fits : Decimal.value text < 2 ^ 63) :
    stoll text = .ok (Int64.ofInt (Decimal.value text)) := by
  unfold stoll
  rw [Conversion.integerToken_digits some_ all]
  dsimp only
  rw [if_neg (by simpa using some_), if_neg Bool.false_ne_true, if_pos ⟨by omega, by omega⟩]

/-- `std::stoll` in base 16 behind `0x`. -/
theorem stollHex_digits {x : UInt8} (letter : x = 120 ∨ x = 88) (some_ : text ≠ [])
    (all : ∀ c ∈ text, isXDigit c = true)
    (fits : digitsValue 16 (text.filterMap hexDigit) < 2 ^ 63) :
    stollHex (48 :: x :: text) =
      .ok (Int64.ofInt (digitsValue 16 (text.filterMap hexDigit))) := by
  have digits : spanDigits hexDigit text = (text.filterMap hexDigit, []) := by
    have whole : text.takeWhile (fun c => (hexDigit c).isSome) = text :=
      List.takeWhile_eq_self_iff.mpr all
    have none_ : text.dropWhile (fun c => (hexDigit c).isSome) = [] :=
      List.dropWhile_eq_nil_iff.mpr all
    rw [spanDigits, whole, none_]
  obtain ⟨c, rest, rfl⟩ := List.exists_cons_of_ne_nil some_
  have first : (hexDigit c).isSome = true := all c List.mem_cons_self
  have lower : toLower x = 120 := by
    rcases letter with rfl | rfl <;> rfl
  have zero : Decimal.isDigit 48 = true := by decide
  have token : hexToken (48 :: x :: c :: rest) = (false, (c :: rest).filterMap hexDigit) := by
    unfold hexToken
    rw [Conversion.dropWhile_isSpace_digit zero, Conversion.sign_of_digit zero]
    simp [lower, first, digits]
  have positive : (c :: rest).filterMap hexDigit ≠ [] := by
    obtain ⟨d, value⟩ := Option.isSome_iff_exists.mp first
    simp [value]
  unfold stollHex
  rw [token]
  dsimp only
  rw [if_neg (by simpa using positive), if_neg Bool.false_ne_true, if_pos ⟨by omega, by omega⟩]

theorem parseNumber_integerLiteral (literal : IntegerLiteral text n more) (fits : n < 2 ^ 63) :
    parseNumber text = .ok (.intLiteral (Int64.ofInt n)) := by
  cases literal with
  | decimal some_ all ends noPoint noHex =>
      have point : 46 ∉ text := fun mem => absurd (all 46 mem) (by decide)
      have base : isHexText text = false := by
        refine decide_eq_false ?_
        rintro ⟨_, _, letter⟩
        rcases letter with letter | letter
        · exact absurd (all 120 (List.mem_of_getElem? letter)) (by decide)
        · exact absurd (all 88 (List.mem_of_getElem? letter)) (by decide)
      unfold parseNumber
      rw [if_neg point, base, if_neg Bool.false_ne_true, stoll_digits some_ all fits]
      rfl
  | hex letter some_ all ends =>
      rename_i x digits
      have point : 46 ∉ 48 :: x :: digits := by
        intro mem
        rcases List.mem_cons.mp mem with zero | mem
        · contradiction
        rcases List.mem_cons.mp mem with same | mem
        · subst same
          rcases letter with letter | letter <;> contradiction
        · exact absurd (all 46 mem) (by decide)
      have base : isHexText (48 :: x :: digits) = true := by
        have positive := List.length_pos_iff.mpr some_
        refine decide_eq_true ⟨?_, rfl, ?_⟩
        · rw [List.length_cons, List.length_cons]
          omega
        · exact letter.imp (congrArg some) (congrArg some)
      unfold parseNumber
      rw [if_neg point, base, if_pos rfl, stollHex_digits letter some_ all fits]
      rfl

theorem parsePrimary_integerLiteral (literal : IntegerLiteral text n more) (fits : n < 2 ^ 63)
    (line : Nat) (tokens : List Token) :
    parsePrimary (⟨.number, text, line⟩ :: tokens) =
      some (.ok (.intLiteral (Int64.ofInt n), tokens)) := by
  unfold parsePrimary
  dsimp only
  rw [parseNumber_integerLiteral literal fits]
  rfl

end Parsing

/-! ## The code -/

/-- `target[index..]`, which the parser gives an end beyond every text and array. -/
def openRange (target index : AstNode) : AstNode :=
  .indexExpr target index (some (.intLiteral 2000000000)) false false none

/-- The code generator has one piece of code for a node: as an expression, in a case label and
at the start of an open range. -/
structure Emits (node : AstNode) (code : List Instruction) : Prop where
  expr : Appends (emitExpr node) fun _ => code
  label : ∀ subjSlot gen, emitSwitchTest subjSlot (emitExpr node) none gen =
    .ok (gen.code.length + code.length + 3, extended gen (plainTest subjSlot code (-1)))
  range : ∀ {target : AstNode} {front : Nat → List Instruction},
    Appends (emitExpr target) front → Appends (emitExpr (openRange target node)) fun p =>
      front p ++ (code ++ [⟨.pushInt, 2000000000, 0⟩, ⟨.rangeIndex, 0, 0⟩])

/-- The lexer takes the text for one token, the parser makes one node of that, and the code
generator has one piece of code for the node. -/
def Compiles (text more : Str) (code : List Instruction) : Prop :=
  ∀ l : Lexer, l.rest = text ++ more → ∃ token, l.lexToken = .ok (token, l.moveTo more) ∧
    ∀ tokens, ∃ node, parsePrimary (token :: tokens) = some (.ok (node, tokens)) ∧
      Emits node code

/-- The instruction of an integer literal. -/
def literalCode (n : Nat) : List Instruction :=
  [⟨.pushInt, int32 n, 0⟩]

theorem toInt_ofInt {n : Nat} (fits : n < 2 ^ 63) : (Int64.ofInt n).toInt = n :=
  Int64.toInt_ofInt_of_le (by omega) (by omega)

theorem emits_intLiteral {n : Nat} (fits : n < 2 ^ 63) :
    Emits (.intLiteral (Int64.ofInt n)) (literalCode n) := by
  have node : emitExpr (.intLiteral (Int64.ofInt n)) = emit ⟨.pushInt, int32 n, 0⟩ := by
    rw [emitExpr, toInt_ofInt fits]
  have expr : Appends (emitExpr (.intLiteral (Int64.ofInt n))) fun _ => literalCode n := by
    rw [node]
    exact Appends.emit _
  refine ⟨expr, fun _ gen => emitSwitchTest_plain expr gen, fun {target front} appends => ?_⟩
  have whole := appends.andThen (expr.andThen ((Appends.emit ⟨.pushInt, 2000000000, 0⟩).andThen
    (.emit ⟨.rangeIndex, 0, 0⟩)))
  have code : emitExpr (openRange target (.intLiteral (Int64.ofInt n))) = (do
      emitExpr target
      emitExpr (.intLiteral (Int64.ofInt n))
      emit ⟨.pushInt, 2000000000, 0⟩
      emit ⟨.rangeIndex, 0, 0⟩) := by
    have sentinel : int32 2000000000 = 2000000000 := by decide
    simp [openRange, emitExpr, optionalEmitter, emitIndexValue, sentinel]
  rw [code]
  exact whole

theorem compiles_integerLiteral {text more : Str} {n : Nat}
    (literal : IntegerLiteral text n more) (fits : n < 2 ^ 63) :
    Compiles text more (literalCode n) := by
  intro l source
  refine ⟨⟨.number, text, l.line⟩, lexToken_integerLiteral literal source, fun tokens => ?_⟩
  exact ⟨.intLiteral (Int64.ofInt n), parsePrimary_integerLiteral literal fits _ _,
    emits_intLiteral fits⟩

/-! ## The value -/

theorem pushesConst_pushInt (m : Machine) (operand : Int) :
    PushesConst m [⟨.pushInt, operand, 0⟩] (Value.int (Int64.ofInt operand)) :=
  fun _ _ placed => Machine.passes_plain placed (by simp [Machine.Plain]) rfl

/-- A machine whose program is some code. -/
def machineOf (code : List Instruction) : Machine :=
  { idleMachine with
    act := { idleSite.act with program := { idleSite.act.program with code := code } } }

/-- Code pushes one value. -/
theorem PushesConst.unique {code : List Instruction} {v v' : Value}
    (first : PushesConst (machineOf code) code v) (second : PushesConst (machineOf code) code v') :
    v = v' := by
  have placed : (machineOf code).Placed code 0 := List.prefix_rfl
  have same := Regions.Crosses.unique (first 0 idleSite.state placed [])
    (second 0 idleSite.state placed [])
  have tops := congrArg (fun c : Config => c.state.localStack.head?) same
  exact Option.some.inj tops

/-- The value survives the operand exactly when it is below `2 ^ 31`. -/
theorem literal_int32_iff {n : Nat} (fits : n < 2 ^ 63) :
    Int64.ofInt (int32 n) = Int64.ofInt n ↔ n < 2 ^ 31 := by
  have low := Int.le_bmod (x := n) (m := 2 ^ 32) (by decide)
  have high := Int.bmod_lt (x := n) (m := 2 ^ 32) (by decide)
  constructor
  · intro same
    have values := congrArg Int64.toInt same
    rw [toInt_ofInt fits, int32, Int64.toInt_ofInt_of_le (by omega) (by omega)] at values
    omega
  · intro small
    rw [int32, Int.bmod_eq_of_le (by omega) (by omega)]

/-- A case label accepts the subjects that equal a value. -/
def LabelAccepts (code : List Instruction) (v : Value) : Prop :=
  ∀ (m : Machine) (subjSlot p body : Nat) (s : State) (a : Number),
    m.Placed (plainTest subjSlot code body) p → body ≤ m.act.program.code.length →
    Elsewhere (plainTest subjSlot code body) p body → s.locals[subjSlot]? = some a.1 →
    (Takes m (plainTest subjSlot code body) p body s ↔ valuesEqual a.1 v = true)

theorem labelAccepts_of_pushes {code : List Instruction} {v : Value}
    (pushes : ∀ m, PushesConst m code v) : LabelAccepts code v :=
  fun m _ _ _ _ _ placed inside elsewhere subject =>
    takes_iff placed (passes_plainTest placed.left (pushes m) subject) inside elsewhere

/-- The code of a literal pushes its value wherever it stands, and a case label with it accepts
that value, exactly when the value is below `2 ^ 31`. -/
theorem integerLiteral_iff {text more : Str} {n : Nat} (literal : IntegerLiteral text n more)
    (fits : n < 2 ^ 63) :
    ∃ code, Compiles text more code ∧
      ((∀ m, PushesConst m code (Value.int (Int64.ofInt n))) ∧
        LabelAccepts code (Value.int (Int64.ofInt n)) ↔ n < 2 ^ 31) := by
  refine ⟨literalCode n, compiles_integerLiteral literal fits, ?_⟩
  rw [← literal_int32_iff fits]
  constructor
  · rintro ⟨pushes, -⟩
    have same := PushesConst.unique (pushesConst_pushInt _ _) (pushes (machineOf (literalCode n)))
    exact Data.int.inj (congrArg Value.data same)
  · intro same
    have pushes (m : Machine) : PushesConst m (literalCode n) (Value.int (Int64.ofInt n)) := by
      rw [← same]
      exact pushesConst_pushInt m _
    exact ⟨pushes, labelAccepts_of_pushes pushes⟩

/-- `0x7fffffff` in front of a closing bracket. -/
theorem integerLiteral_iff_intMax :
    ∃ code, Compiles (str "0x7fffffff") (str "]") code ∧
      ((∀ m, PushesConst m code (Value.int (Int64.ofInt (2147483647 : Nat)))) ∧
        LabelAccepts code (Value.int (Int64.ofInt (2147483647 : Nat))) ↔ 2147483647 < 2 ^ 31) :=
  integerLiteral_iff (.hex (.inl rfl) (by decide) (List.all_eq_true.mp rfl) (by decide)) (by decide)

/-- The code of `4294967297` pushes 1. -/
theorem integerLiteral_truncated :
    ∃ code, Compiles (str "4294967297") (str ";") code ∧
      (∀ m, PushesConst m code (Value.int 1)) ∧
      ¬ ∀ m, PushesConst m code (Value.int 4294967297) := by
  have literal : IntegerLiteral (str "4294967297") 4294967297 (str ";") :=
    .decimal (by decide) (List.all_eq_true.mp rfl) (by decide) (by decide) (by decide)
  have one : Int64.ofInt (int32 (4294967297 : Nat)) = 1 := by decide
  have pushes (m : Machine) : PushesConst m (literalCode 4294967297) (Value.int 1) := by
    rw [← one]
    exact pushesConst_pushInt m _
  refine ⟨literalCode 4294967297, compiles_integerLiteral literal (by decide), pushes, ?_⟩
  intro all
  have same := PushesConst.unique (pushes _) (all (machineOf (literalCode 4294967297)))
  exact absurd (Data.int.inj (congrArg Value.data same)) (by decide)

end Kjdmud.Compiler
