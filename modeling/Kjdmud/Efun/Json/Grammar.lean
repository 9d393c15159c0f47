import Kjdmud.Efun.Json
import Mathlib.Data.List.DropRight

/-!
# The texts that the JSON reader accepts

A grammar of them, and the proof that the reader comes to an end on every text without a read
outside of it, returns what the grammar derives, and refuses the rest.
-/

namespace Kjdmud.Efun.Json

open SaveVariable (quote backslash openBrace closeBrace openBracket closeBracket comma colon minus
  point)

/-! ## The grammar -/

/-- The text begins with an escaped low surrogate. -/
def LowHalf (s : Str) (low : Nat) (rest : Str) : Prop :=
  ∃ unit, s = backslash :: 0x75 :: (unit ++ rest) ∧ unit.length = 4 ∧ codeUnit unit = some low ∧
    IsLow low

/-- An escape sequence behind its backslash, the bytes it stands for, and the rest of the text. -/
inductive Escape : Str → Str → Str → Prop
  | simple {e c : UInt8} {rest : Str} (stands : simpleEscape e = some c) :
      Escape (e :: rest) [c] rest
  | unit {unit rest : Str} {cp : Nat} (four : unit.length = 4) (codes : codeUnit unit = some cp)
      (alone : IsHigh cp → ∀ low more, ¬ LowHalf rest low more) :
      Escape (0x75 :: (unit ++ rest)) (utf8 cp) rest
  | pair {unit s rest : Str} {high low : Nat} (four : unit.length = 4)
      (codes : codeUnit unit = some high) (isHigh : IsHigh high) (half : LowHalf s low rest) :
      Escape (0x75 :: (unit ++ s)) (utf8 (combine high low)) rest

/-- A string behind its first quote. -/
inductive Literal : Str → Str → Str → Prop
  | close {rest : Str} : Literal (quote :: rest) [] rest
  | plain {c : UInt8} {s bytes rest : Str} (noQuote : c ≠ quote) (noEscape : c ≠ backslash)
      (more : Literal s bytes rest) : Literal (c :: s) (c :: bytes) rest
  | escaped {s s' bytes bytes' rest : Str} (escape : Escape s bytes s')
      (more : Literal s' bytes' rest) : Literal (backslash :: s) (bytes ++ bytes') rest

/-- The words. -/
def words : List (Str × Int64) :=
  [(str "true", 1), (str "false", 0), (str "null", 0)]

/-- Where a number begins. -/
def StartsNumber (s : Str) : Prop :=
  ∃ c rest, s = c :: rest ∧ (c = minus ∨ Decimal.isDigit c = true)

mutual

/-- A value at the front of a text, and the rest of the text. -/
inductive Reads : Str → Contents → Str → Prop
  | string {s t text rest : Str} (start : skipWhitespace s = quote :: t)
      (literal : Literal t text rest) : Reads s (.string text) rest
  | emptyObject {s t rest : Str} (start : skipWhitespace s = openBrace :: t)
      (close : skipWhitespace t = closeBrace :: rest) : Reads s (.object []) rest
  | object {s t rest : Str} {entries : List (Str × Contents)}
      (start : skipWhitespace s = openBrace :: t) (inside : ReadsEntries t entries rest) :
      Reads s (.object entries) rest
  | emptyArray {s t rest : Str} (start : skipWhitespace s = openBracket :: t)
      (close : skipWhitespace t = closeBracket :: rest) : Reads s (.array []) rest
  | array {s t rest : Str} {items : List Contents} (start : skipWhitespace s = openBracket :: t)
      (inside : ReadsItems t items rest) : Reads s (.array items) rest
  | word {s word rest : Str} {i : Int64} (known : (word, i) ∈ words)
      (start : skipWhitespace s = word ++ rest) : Reads s (.int i) rest
  | number {s token rest : Str} {isFloat : Bool} {v : Contents}
      (start : StartsNumber (skipWhitespace s)) (split : skipWhitespace s = token ++ rest)
      (ends : numberEnd (skipWhitespace s) = (isFloat, rest))
      (value : numberValue token isFloat = some v) : Reads s v rest

/-- The items of an array, up to its bracket. -/
inductive ReadsItems : Str → List Contents → Str → Prop
  | last {s s₁ rest : Str} {v : Contents} (value : Reads s v s₁)
      (close : skipWhitespace s₁ = closeBracket :: rest) : ReadsItems s [v] rest
  | cons {s s₁ s₂ rest : Str} {v : Contents} {items : List Contents} (value : Reads s v s₁)
      (next : skipWhitespace s₁ = comma :: s₂) (more : ReadsItems s₂ items rest) :
      ReadsItems s (v :: items) rest

/-- The entries of an object, up to its brace. -/
inductive ReadsEntries : Str → List (Str × Contents) → Str → Prop
  | last {s t t₁ t₂ s₁ rest key : Str} {v : Contents} (start : skipWhitespace s = quote :: t)
      (literal : Literal t key t₁) (separator : skipWhitespace t₁ = colon :: t₂)
      (value : Reads t₂ v s₁) (close : skipWhitespace s₁ = closeBrace :: rest) :
      ReadsEntries s [(key, v)] rest
  | cons {s t t₁ t₂ s₁ s₂ rest key : Str} {v : Contents} {entries : List (Str × Contents)}
      (start : skipWhitespace s = quote :: t) (literal : Literal t key t₁)
      (separator : skipWhitespace t₁ = colon :: t₂) (value : Reads t₂ v s₁)
      (next : skipWhitespace s₁ = comma :: s₂) (more : ReadsEntries s₂ entries rest) :
      ReadsEntries s ((key, v) :: entries) rest

end

/-- A text of one value. -/
def Denotes (s : Str) (v : Contents) : Prop :=
  ∃ rest, Reads s v rest ∧ skipWhitespace rest = []

/-! ## Outcomes -/

namespace Outcome

variable {α β : Type}

/-- The reader has come to an end inside the text, and what it returns has a property. -/
def Safe (x : Outcome α) (P : α → Prop) : Prop :=
  match (show Option (Except Fault α) from x) with
  | none => False
  | some (.error (.lpc _)) => True
  | some (.error .outside) => False
  | some (.ok a) => P a

variable {x : Outcome α} {f : α → Outcome β} {P : α → Prop} {Q : β → Prop} {a : α}

theorem safe_pure (holds : P a) : Safe (pure a : Outcome α) P :=
  holds

theorem safe_lpcError (message : String) : Safe (lpcError message : Outcome α) P :=
  trivial

theorem Safe.bind (first : Safe x P) (next : ∀ a, P a → Safe (f a) Q) : Safe (x >>= f) Q := by
  cases x with
  | none => exact first.elim
  | some result =>
      cases result with
      | ok a => exact next a first
      | error fault =>
          cases fault with
          | lpc message => trivial
          | outside => exact first.elim

theorem Safe.mono {R : α → Prop} (safe : Safe x P) (imp : ∀ a, P a → R a) : Safe x R := by
  cases x with
  | none => exact safe.elim
  | some result =>
      cases result with
      | ok a => exact imp a safe
      | error fault =>
          cases fault with
          | lpc message => trivial
          | outside => exact safe.elim

end Outcome

open Outcome

/-! ## Reads -/

theorem read_cons (c : UInt8) (s : Str) : read (c :: s) 0 = pure c :=
  rfl

theorem startsWith_cons (c d : UInt8) (s : Str) : startsWith c (d :: s) = pure (d == c) :=
  rfl

/-- A test for a byte at the cursor. -/
theorem startsWith_eq (c : UInt8) (s : Str) :
    (startsWith c s = pure false ∧ ∀ rest, s ≠ c :: rest) ∨
      ∃ rest, s = c :: rest ∧ startsWith c s = pure true := by
  cases s with
  | nil => exact .inl ⟨rfl, fun rest same => by contradiction⟩
  | cons d rest =>
      by_cases same : d = c
      · subst same
        exact .inr ⟨rest, rfl, by rw [startsWith_cons, beq_self_eq_true]⟩
      · refine .inl ⟨by rw [startsWith_cons, beq_false_of_ne same], ?_⟩
        rintro rest ⟨⟩
        exact same rfl

/-! ## Strings -/

theorem lowHalf_rest {s rest rest' : Str} {low low' : Nat} (half : LowHalf s low rest)
    (half' : LowHalf s low' rest') : low = low' ∧ rest = rest' := by
  obtain ⟨unit, rfl, four, codes, -⟩ := half
  obtain ⟨unit', same, four', codes', -⟩ := half'
  have split := List.append_inj (List.cons.inj (List.cons.inj same).2).2 (four.trans four'.symm)
  rw [split.1, codes'] at codes
  exact ⟨(Option.some.inj codes).symm, split.2⟩

/-- The text is that of an escaped unit, up to the two bytes in front. -/
theorem lowHalf_of_length {s : Str} {low : Nat} (long : 4 ≤ s.length)
    (codes : codeUnit (s.take 4) = some low) (isLow : IsLow low) :
    LowHalf (backslash :: 0x75 :: s) low (s.drop 4) := by
  refine ⟨s.take 4, ?_, List.length_take_of_le long, codes, isLow⟩
  rw [List.take_append_drop]

/-- A high surrogate takes the low one behind it, when there is one. -/
theorem withLowHalf_eq (cp : Nat) (s : Str) :
    (∃ low rest, IsHigh cp ∧ LowHalf s low rest ∧
      withLowHalf cp s = pure (combine cp low, rest)) ∨
    ((IsHigh cp → ∀ low rest, ¬ LowHalf s low rest) ∧ withLowHalf cp s = pure (cp, s)) := by
  by_cases room : IsHigh cp ∧ 6 ≤ s.length
  · have enters : withLowHalf cp s = (do
        if (← read s 0) = backslash then
          if (← read s 1) = 0x75 then
            let low := (codeUnit ((s.drop 2).take 4)).getD 0
            if IsLow low then pure (combine cp low, s.drop 6)
            else pure (cp, s)
          else pure (cp, s)
        else pure (cp, s)) := if_pos room
    obtain ⟨isHigh, long⟩ := room
    match s, long with
    | b :: u :: s, long =>
      have long' : 4 ≤ s.length := by
        simp only [List.length_cons] at long
        omega
      by_cases first : b = backslash
      · by_cases second : u = 0x75
        · subst first second
          by_cases isLow : IsLow ((codeUnit (s.take 4)).getD 0)
          · cases codes : codeUnit (s.take 4) with
            | none =>
                rw [codes] at isLow
                exact absurd isLow (by decide)
            | some low =>
                rw [codes] at isLow
                refine .inl ⟨low, s.drop 4, isHigh, lowHalf_of_length long' codes isLow, ?_⟩
                rw [enters]
                change (if IsLow ((codeUnit (s.take 4)).getD 0) then
                  (pure (combine cp ((codeUnit (s.take 4)).getD 0), s.drop 4) :
                    Outcome (Nat × Str)) else _) = _
                rw [codes, if_pos isLow]
                rfl
          · refine .inr ⟨fun _ low rest half => ?_, ?_⟩
            · obtain ⟨unit, same, four, codes, low⟩ := half
              have text := (List.cons.inj (List.cons.inj same).2).2
              rw [text, ← four, List.take_left, codes] at isLow
              exact isLow low
            · rw [enters]
              change (if IsLow ((codeUnit (s.take 4)).getD 0) then _ else
                (pure (cp, backslash :: 0x75 :: s) : Outcome (Nat × Str))) = _
              rw [if_neg isLow]
        · refine .inr ⟨fun _ low rest half => ?_, ?_⟩
          · obtain ⟨unit, same, -⟩ := half
            exact second (List.cons.inj (List.cons.inj same).2).1
          · rw [enters]
            change (if b = backslash then (if u = 0x75 then _ else
              (pure (cp, b :: u :: s) : Outcome (Nat × Str))) else _) = _
            rw [if_pos first, if_neg second]
      · refine .inr ⟨fun _ low rest half => ?_, ?_⟩
        · obtain ⟨unit, same, -⟩ := half
          exact first (List.cons.inj same).1
        · rw [enters]
          change (if b = backslash then _ else (pure (cp, b :: u :: s) : Outcome (Nat × Str))) = _
          rw [if_neg first]
  · refine .inr ⟨fun isHigh low rest half => ?_, if_neg room⟩
    obtain ⟨unit, rfl, four, -⟩ := half
    refine room ⟨isHigh, ?_⟩
    simp only [List.length_cons, List.length_append, four]
    omega

theorem unicodeEscape_safe (s : Str) : Safe (unicodeEscape s) fun found =>
    Escape (0x75 :: s) found.1 found.2 ∧ found.2.length < (0x75 :: s : Str).length := by
  by_cases short : s.length < 4
  · rw [unicodeEscape, if_pos short]
    exact safe_lpcError _
  have four : (s.take 4).length = 4 := List.length_take_of_le (Nat.not_lt.mp short)
  have back : (s.drop 4).length < (0x75 :: s : Str).length := by
    rw [List.length_cons, List.length_drop]
    omega
  rw [unicodeEscape, if_neg short]
  cases codes : codeUnit (s.take 4) with
  | none => exact safe_lpcError _
  | some cp =>
      have found : Safe (withLowHalf cp (s.drop 4)) fun found =>
          Escape (0x75 :: s) (utf8 found.1) found.2 ∧
            found.2.length < (0x75 :: s : Str).length := by
        rcases withLowHalf_eq cp (s.drop 4) with
          ⟨low, rest, isHigh, half, eq⟩ | ⟨alone, eq⟩
        · rw [eq]
          have derives := Escape.pair four codes isHigh half
          rw [List.take_append_drop] at derives
          refine ⟨derives, ?_⟩
          obtain ⟨unit, same, -⟩ := half
          have length := congrArg List.length same
          simp only [List.length_cons, List.length_append] at length
          dsimp only
          omega
        · rw [eq]
          have derives := Escape.unit four codes alone
          rw [List.take_append_drop] at derives
          exact ⟨derives, back⟩
      exact found.bind fun found holds => holds

theorem escape_safe (s : Str) : Safe (escape s) fun found =>
    Escape s found.1 found.2 ∧ found.2.length < s.length := by
  cases s with
  | nil => exact safe_lpcError _
  | cons e s =>
      rw [escape, if_neg (by simp), read_cons, pure_bind, List.drop_one, List.tail_cons]
      cases stands : simpleEscape e with
      | some c => exact safe_pure ⟨.simple stands, Nat.lt_succ_self _⟩
      | none =>
          by_cases isUnit : e = 0x75
          · subst isUnit
            simp only [if_true]
            exact unicodeEscape_safe s
          · simp only [if_neg isUnit]
            exact safe_lpcError _

theorem unicodeEscape_of_unit {unit rest : Str} {cp : Nat} (four : unit.length = 4)
    (codes : codeUnit unit = some cp) :
    unicodeEscape (unit ++ rest) = (do
      let (cp, s) ← withLowHalf cp rest
      pure (utf8 cp, s)) := by
  have long : ¬ (unit ++ rest).length < 4 := by
    rw [List.length_append]
    omega
  have front : (unit ++ rest).take 4 = unit := by rw [← four, List.take_left]
  have back : (unit ++ rest).drop 4 = rest := by rw [← four, List.drop_left]
  rw [unicodeEscape, if_neg long, front, back, codes]

theorem escape_of_unit (s : Str) : escape (0x75 :: s) = unicodeEscape s :=
  rfl

/-- The reader finds what the grammar derives. -/
theorem Escape.eq {s bytes rest : Str} (derives : Escape s bytes rest) :
    escape s = pure (bytes, rest) := by
  cases derives with
  | @simple e c rest stands =>
      rw [escape, if_neg (by simp), read_cons, pure_bind, List.drop_one, List.tail_cons, stands]
  | @unit unit rest cp four codes alone =>
      rw [escape_of_unit, unicodeEscape_of_unit four codes]
      rcases withLowHalf_eq cp rest with ⟨low, more, isHigh, half, -⟩ | ⟨-, eq⟩
      · exact absurd half (alone isHigh low more)
      · rw [eq, pure_bind]
  | @pair unit s rest high low four codes isHigh half =>
      rw [escape_of_unit, unicodeEscape_of_unit four codes]
      rcases withLowHalf_eq high s with ⟨low', more, -, half', eq⟩ | ⟨alone, -⟩
      · obtain ⟨rfl, rfl⟩ := lowHalf_rest half half'
        rw [eq, pure_bind]
      · exact absurd half (alone isHigh low rest)

theorem stringLoop_cons (fuel : Nat) (out : Str) (c : UInt8) (s : Str) :
    stringLoop (fuel + 1) out (c :: s) =
      if c = quote then pure (out, s)
      else if c = backslash then do
        let (bytes, s) ← escape s
        stringLoop fuel (out ++ bytes) s
      else stringLoop fuel (out ++ [c]) s :=
  rfl

theorem stringLoop_safe {fuel : Nat} {out s : Str} (enough : s.length < fuel) :
    Safe (stringLoop fuel out s) fun found =>
      ∃ bytes, found.1 = out ++ bytes ∧ Literal s bytes found.2 ∧
        found.2.length < s.length := by
  induction fuel generalizing out s with
  | zero => exact absurd enough (Nat.not_lt_zero _)
  | succ fuel ih =>
      cases s with
      | nil => exact safe_lpcError _
      | cons c s =>
          have less : s.length < fuel := Nat.lt_of_succ_lt_succ enough
          rw [stringLoop_cons]
          by_cases close : c = quote
          · subst close
            rw [if_pos rfl]
            exact safe_pure ⟨[], (List.append_nil out).symm, .close, Nat.lt_succ_self _⟩
          rw [if_neg close]
          by_cases escaped : c = backslash
          · subst escaped
            rw [if_pos rfl]
            refine (escape_safe s).bind ?_
            rintro ⟨bytes, s'⟩ ⟨derives, shorter⟩
            refine (ih (shorter.trans less)).mono ?_
            rintro ⟨text, rest⟩ ⟨bytes', rfl, literal, shorter'⟩
            refine ⟨bytes ++ bytes', List.append_assoc _ _ _, .escaped derives literal, ?_⟩
            exact shorter'.trans (shorter.trans (Nat.lt_succ_self _))
          · rw [if_neg escaped]
            refine (ih less).mono ?_
            rintro ⟨text, rest⟩ ⟨bytes, rfl, literal, shorter⟩
            refine ⟨c :: bytes, ?_, .plain close escaped literal, ?_⟩
            · rw [List.append_assoc, List.singleton_append]
            · exact shorter.trans (Nat.lt_succ_self _)

theorem Escape.length_lt {s bytes rest : Str} (derives : Escape s bytes rest) :
    rest.length < s.length := by
  have safe := escape_safe s
  rw [derives.eq] at safe
  exact safe.2

/-- The loop finds what the grammar derives. -/
theorem Literal.eq {s bytes rest : Str} (derives : Literal s bytes rest) :
    ∀ {fuel : Nat} (out : Str), s.length < fuel →
      stringLoop fuel out s = pure (out ++ bytes, rest) := by
  induction derives with
  | close =>
      intro fuel out enough
      cases fuel with
      | zero => exact absurd enough (Nat.not_lt_zero _)
      | succ fuel => rw [stringLoop_cons, if_pos rfl, List.append_nil]
  | @plain c s bytes rest noQuote noEscape more ih =>
      intro fuel out enough
      cases fuel with
      | zero => exact absurd enough (Nat.not_lt_zero _)
      | succ fuel =>
          rw [stringLoop_cons, if_neg noQuote, if_neg noEscape,
            ih _ (Nat.lt_of_succ_lt_succ enough), List.append_assoc, List.singleton_append]
  | @escaped s s' bytes bytes' rest escape more ih =>
      intro fuel out enough
      cases fuel with
      | zero => exact absurd enough (Nat.not_lt_zero _)
      | succ fuel =>
          have less := escape.length_lt.trans (Nat.lt_of_succ_lt_succ enough)
          rw [stringLoop_cons, if_neg (by decide), if_pos rfl, escape.eq, pure_bind,
            ← List.append_assoc]
          exact ih _ less

theorem parseStringLiteral_safe (s : Str) :
    Safe (parseStringLiteral (quote :: s)) fun found =>
      Literal s found.1 found.2 ∧ found.2.length < s.length := by
  refine (stringLoop_safe (Nat.lt_succ_self s.length)).mono ?_
  rintro ⟨text, rest⟩ ⟨bytes, same, literal, shorter⟩
  cases same
  exact ⟨literal, shorter⟩

theorem Literal.parse_eq {s text rest : Str} (derives : Literal s text rest) :
    parseStringLiteral (quote :: s) = pure (text, rest) :=
  derives.eq [] (Nat.lt_succ_self s.length)

theorem Literal.length_lt {s text rest : Str} (derives : Literal s text rest) :
    rest.length < s.length := by
  have safe := parseStringLiteral_safe s
  rw [derives.parse_eq] at safe
  exact safe.2

/-- A value behind a key is shorter than the text before the key. -/
theorem Literal.length_lt_value {s t text t₁ t₂ : Str} {c d : UInt8}
    (literal : Literal t text t₁) (start : skipWhitespace s = c :: t)
    (separator : skipWhitespace t₁ = d :: t₂) : t₂.length < s.length := by
  have before := (List.dropWhile_suffix (l := s) isWhitespace).length_le
  have between := (List.dropWhile_suffix (l := t₁) isWhitespace).length_le
  change (skipWhitespace s).length ≤ _ at before
  change (skipWhitespace t₁).length ≤ _ at between
  rw [start] at before
  rw [separator] at between
  exact (Nat.lt_of_succ_le between).trans (literal.length_lt.trans (Nat.lt_of_succ_le before))

/-! ## Numbers -/

theorem skipByte_suffix (p : UInt8 → Bool) (s : Str) : skipByte p s <:+ s := by
  cases s with
  | nil => exact List.suffix_rfl
  | cons c s =>
      rw [skipByte]
      split
      · exact List.suffix_cons c s
      · exact List.suffix_rfl

/-- A number ends behind its sign and its first digits. -/
theorem numberEnd_suffix_of {s t : Str}
    (front : (skipByte (· == minus) s).dropWhile Decimal.isDigit <:+ t) :
    (numberEnd s).2 <:+ t := by
  have fraction (u : Str) (inside : u <:+ t) :
      (if (u.head? == some point) = true then (u.drop 1).dropWhile Decimal.isDigit else u) <:+ t := by
    split
    · exact (List.dropWhile_suffix _).trans ((List.drop_suffix 1 u).trans inside)
    · exact inside
  have exponent (u : Str) (inside : u <:+ t) :
      (if (u.head? == some 0x65 || u.head? == some 0x45) = true then
        (skipByte (fun c => c == 0x2b || c == minus) (u.drop 1)).dropWhile Decimal.isDigit
        else u) <:+ t := by
    split
    · exact (List.dropWhile_suffix _).trans ((skipByte_suffix _ _).trans
        ((List.drop_suffix 1 u).trans inside))
    · exact inside
  exact exponent _ (fraction _ front)

theorem numberEnd_suffix (s : Str) : (numberEnd s).2 <:+ s :=
  numberEnd_suffix_of ((List.dropWhile_suffix Decimal.isDigit).trans (skipByte_suffix _ s))

/-- A number takes at least one byte. -/
theorem numberEnd_lt {s : Str} (starts : StartsNumber s) : (numberEnd s).2.length < s.length := by
  obtain ⟨c, rest, rfl, first⟩ := starts
  refine Nat.lt_succ_of_le (numberEnd_suffix_of ?_).length_le
  by_cases isMinus : c = minus
  · rw [skipByte, if_pos (by rw [isMinus]; rfl)]
    exact List.dropWhile_suffix _
  · rw [skipByte, if_neg (by simpa using isMinus),
      List.dropWhile_cons_of_pos (first.resolve_left isMinus)]
    exact List.dropWhile_suffix _

/-- The token is what stands in front of the rest. -/
theorem take_token {s token rest : Str} (split : token ++ rest = s) :
    s.take (s.length - rest.length) = token := by
  rw [← split, List.length_append, Nat.add_sub_cancel, List.take_left]

theorem parseNumber_eq {s token rest : Str} {isFloat : Bool} (split : token ++ rest = s)
    (ends : numberEnd s = (isFloat, rest)) :
    parseNumber s = match numberValue token isFloat with
      | some v => pure (v, rest)
      | none => lpcError "json_parse(): malformed number literal." := by
  unfold parseNumber
  rw [ends]
  exact congrArg (fun found => match numberValue found isFloat with
    | some v => pure (v, rest)
    | none => lpcError "json_parse(): malformed number literal.") (take_token split)

theorem parseNumber_safe (s : Str) : Safe (parseNumber s) fun found =>
    ∃ token isFloat, s = token ++ found.2 ∧ numberEnd s = (isFloat, found.2) ∧
      numberValue token isFloat = some found.1 := by
  obtain ⟨isFloat, rest, ends⟩ : ∃ isFloat rest, numberEnd s = (isFloat, rest) := ⟨_, _, rfl⟩
  have suffix := numberEnd_suffix s
  rw [ends] at suffix
  obtain ⟨token, split⟩ := suffix
  rw [parseNumber_eq split ends]
  cases value : numberValue token isFloat with
  | none => exact safe_lpcError _
  | some v => exact safe_pure ⟨token, isFloat, split.symm, ends, value⟩

/-! ## White space -/

theorem length_skipWhitespace_le (s : Str) : (skipWhitespace s).length ≤ s.length :=
  (List.dropWhile_suffix isWhitespace).length_le

theorem skipWhitespace_skip (s : Str) : skipWhitespace (skipWhitespace s) = skipWhitespace s :=
  List.dropWhile_idempotent _ s

/-- White space in front of a value does not count. -/
theorem Reads.congr {s s' rest : Str} {v : Contents} (same : skipWhitespace s = skipWhitespace s')
    (reads : Reads s v rest) : Reads s' v rest := by
  cases reads with
  | string start literal => exact .string (same ▸ start) literal
  | emptyObject start close => exact .emptyObject (same ▸ start) close
  | object start inside => exact .object (same ▸ start) inside
  | emptyArray start close => exact .emptyArray (same ▸ start) close
  | array start inside => exact .array (same ▸ start) inside
  | word known start => exact .word known (same ▸ start)
  | number start split ends value =>
      exact .number (same ▸ start) (same ▸ split) (same ▸ ends) value

theorem ReadsItems.of_skip {s rest : Str} {items : List Contents}
    (reads : ReadsItems (skipWhitespace s) items rest) : ReadsItems s items rest := by
  cases reads with
  | last value close => exact .last (value.congr (skipWhitespace_skip s)) close
  | cons value next more => exact .cons (value.congr (skipWhitespace_skip s)) next more

theorem ReadsEntries.of_skip {s rest : Str} {entries : List (Str × Contents)}
    (reads : ReadsEntries (skipWhitespace s) entries rest) : ReadsEntries s entries rest := by
  cases reads with
  | last start literal separator value close =>
      rw [skipWhitespace_skip] at start
      exact .last start literal separator value close
  | cons start literal separator value next more =>
      rw [skipWhitespace_skip] at start
      exact .cons start literal separator value next more

/-! ## Loops -/

/-- What is known of the reader of the values in a list. -/
def Follows (parseValue : Str → Outcome (Contents × Str)) (bound : Nat) : Prop :=
  ∀ s : Str, s.length < bound → Safe (parseValue s) fun found =>
    Reads s found.1 found.2 ∧ found.2.length < s.length

section

variable {parseValue : Str → Outcome (Contents × Str)} {bound : Nat}

theorem arrayLoop_safe (follows : Follows parseValue bound) {fuel : Nat} :
    ∀ {items : List Contents} {s : Str}, s.length < bound → s.length < fuel →
      Safe (arrayLoop parseValue fuel items s) fun found =>
        ∃ more, found.1 = .array (items ++ more) ∧ ReadsItems s more found.2 ∧
          found.2.length < s.length := by
  induction fuel with
  | zero => exact fun _ enough => absurd enough (Nat.not_lt_zero _)
  | succ fuel ih =>
      intro items s inside enough
      unfold arrayLoop
      refine (follows s inside).bind ?_
      rintro ⟨v, s₁⟩ ⟨value, shorter⟩
      have skipped := length_skipWhitespace_le s₁
      dsimp only at shorter ⊢
      rcases startsWith_eq comma (skipWhitespace s₁) with ⟨noComma, -⟩ | ⟨s₂, next, isComma⟩
      · simp only [noComma, pure_bind, Bool.false_eq_true, if_false]
        rcases startsWith_eq closeBracket (skipWhitespace s₁) with
          ⟨noClose, -⟩ | ⟨rest, close, isClose⟩
        · simp only [noClose, pure_bind, Bool.false_eq_true, if_false]
          exact safe_lpcError _
        · simp only [isClose, pure_bind, if_true]
          rw [close] at skipped ⊢
          exact safe_pure ⟨[v], rfl, .last value close,
            (Nat.lt_of_succ_le skipped).trans shorter⟩
      · simp only [isComma, pure_bind, if_true]
        rw [next] at skipped ⊢
        have less : s₂.length < s.length := (Nat.lt_of_succ_le skipped).trans shorter
        refine (ih (s := s₂) (less.trans inside)
          (less.trans_le (Nat.le_of_lt_succ enough))).mono ?_
        rintro ⟨found, rest⟩ ⟨more, rfl, reads, shorter'⟩
        refine ⟨v :: more, ?_, .cons value next reads, shorter'.trans less⟩
        rw [List.append_assoc, List.singleton_append]

theorem objectLoop_safe (follows : Follows parseValue bound) {fuel : Nat} :
    ∀ {entries : List (Str × Contents)} {s : Str}, s.length < bound → s.length < fuel →
      Safe (objectLoop parseValue fuel entries s) fun found =>
        ∃ more, found.1 = .object (entries ++ more) ∧ ReadsEntries s more found.2 ∧
          found.2.length < s.length := by
  induction fuel with
  | zero => exact fun _ enough => absurd enough (Nat.not_lt_zero _)
  | succ fuel ih =>
      intro entries s inside enough
      unfold objectLoop
      have skipped := length_skipWhitespace_le s
      rcases startsWith_eq quote (skipWhitespace s) with ⟨noKey, -⟩ | ⟨t, start, isKey⟩
      · simp only [noKey, pure_bind, if_true]
        exact safe_lpcError _
      simp only [isKey, pure_bind, Bool.true_eq_false, if_false]
      rw [start] at skipped ⊢
      refine (parseStringLiteral_safe t).bind ?_
      rintro ⟨key, t₁⟩ ⟨literal, shorter⟩
      have skipped₁ := length_skipWhitespace_le t₁
      dsimp only at shorter ⊢
      rcases startsWith_eq colon (skipWhitespace t₁) with
        ⟨noColon, -⟩ | ⟨t₂, separator, isColon⟩
      · simp only [noColon, pure_bind, if_true]
        exact safe_lpcError _
      simp only [isColon, pure_bind, Bool.true_eq_false, if_false]
      rw [separator] at skipped₁ ⊢
      have less₂ : t₂.length < s.length :=
        (Nat.lt_of_succ_le skipped₁).trans (shorter.trans (Nat.lt_of_succ_le skipped))
      refine (follows t₂ (less₂.trans inside)).bind ?_
      rintro ⟨v, s₁⟩ ⟨value, shorter₁⟩
      have skipped₂ := length_skipWhitespace_le s₁
      dsimp only at shorter₁ ⊢
      rcases startsWith_eq comma (skipWhitespace s₁) with ⟨noComma, -⟩ | ⟨s₂, next, isComma⟩
      · simp only [noComma, pure_bind, Bool.false_eq_true, if_false]
        rcases startsWith_eq closeBrace (skipWhitespace s₁) with
          ⟨noClose, -⟩ | ⟨rest, close, isClose⟩
        · simp only [noClose, pure_bind, Bool.false_eq_true, if_false]
          exact safe_lpcError _
        · simp only [isClose, pure_bind, if_true]
          rw [close] at skipped₂ ⊢
          exact safe_pure ⟨[(key, v)], rfl, .last start literal separator value close,
            (Nat.lt_of_succ_le skipped₂).trans (shorter₁.trans less₂)⟩
      · simp only [isComma, pure_bind, if_true]
        rw [next] at skipped₂ ⊢
        have less : s₂.length < s.length :=
          (Nat.lt_of_succ_le skipped₂).trans (shorter₁.trans less₂)
        refine (ih (s := s₂) (less.trans inside)
          (less.trans_le (Nat.le_of_lt_succ enough))).mono ?_
        rintro ⟨found, rest⟩ ⟨more, rfl, reads, shorter'⟩
        refine ⟨(key, v) :: more, ?_, .cons start literal separator value next reads,
          shorter'.trans less⟩
        rw [List.append_assoc, List.singleton_append]

end

/-! ## Values -/

section

variable {parseValue : Str → Outcome (Contents × Str)} {bound : Nat}

theorem parseArray_safe (follows : Follows parseValue bound) {s t : Str}
    (inside : t.length < bound) (start : skipWhitespace s = openBracket :: t) :
    Safe (parseArray parseValue t) fun found =>
      Reads s found.1 found.2 ∧ found.2.length ≤ t.length := by
  have skipped := length_skipWhitespace_le t
  unfold parseArray
  rcases startsWith_eq closeBracket (skipWhitespace t) with
    ⟨noClose, -⟩ | ⟨rest, close, isClose⟩
  · simp only [noClose, pure_bind, Bool.false_eq_true, if_false]
    refine (arrayLoop_safe follows (skipped.trans_lt inside)
      (Nat.lt_succ_self _)).mono ?_
    rintro ⟨found, rest⟩ ⟨items, rfl, reads, shorter⟩
    exact ⟨.array start reads.of_skip, shorter.le.trans skipped⟩
  · simp only [isClose, pure_bind, if_true]
    rw [close] at skipped ⊢
    exact safe_pure ⟨.emptyArray start close, (Nat.lt_of_succ_le skipped).le⟩

theorem parseObject_safe (follows : Follows parseValue bound) {s t : Str}
    (inside : t.length < bound) (start : skipWhitespace s = openBrace :: t) :
    Safe (parseObject parseValue t) fun found =>
      Reads s found.1 found.2 ∧ found.2.length ≤ t.length := by
  have skipped := length_skipWhitespace_le t
  unfold parseObject
  rcases startsWith_eq closeBrace (skipWhitespace t) with
    ⟨noClose, -⟩ | ⟨rest, close, isClose⟩
  · simp only [noClose, pure_bind, Bool.false_eq_true, if_false]
    refine (objectLoop_safe follows (skipped.trans_lt inside)
      (Nat.lt_succ_self _)).mono ?_
    rintro ⟨found, rest⟩ ⟨entries, rfl, reads, shorter⟩
    exact ⟨.object start reads.of_skip, shorter.le.trans skipped⟩
  · simp only [isClose, pure_bind, if_true]
    rw [close] at skipped ⊢
    exact safe_pure ⟨.emptyObject start close, (Nat.lt_of_succ_le skipped).le⟩

end

/-- A word at the front of a text. -/
theorem take_word {s word : Str} (front : s.take word.length = word) :
    s = word ++ s.drop word.length := by
  calc
    s = s.take word.length ++ s.drop word.length := (List.take_append_drop _ _).symm
    _ = word ++ s.drop word.length := by rw [front]

/-- The reader comes to an end inside the text, and returns what the grammar derives. -/
theorem parseValueAt_safe (fuel : Nat) : Follows (parseValueAt fuel) fuel := by
  induction fuel with
  | zero => exact fun _ enough => absurd enough (Nat.not_lt_zero _)
  | succ fuel ih =>
      intro s enough
      unfold parseValueAt
      have skipped := length_skipWhitespace_le s
      cases start : skipWhitespace s with
      | nil => exact safe_lpcError _
      | cons c t =>
          rw [start] at skipped
          have less : t.length < s.length := Nat.lt_of_succ_le skipped
          have inside : t.length < fuel := less.trans_le (Nat.le_of_lt_succ enough)
          have dropped (n : Nat) : ((c :: t).drop (n + 1)).length < s.length := by
            rw [List.drop_succ_cons, List.length_drop]
            omega
          have word {word : Str} {i : Int64} (known : (word, i) ∈ words)
              (front : (c :: t).take word.length = word) :
              Reads s (.int i) ((c :: t).drop word.length) :=
            .word known (start.trans (take_word front))
          simp only [List.length_cons, Nat.add_one_ne_zero, if_false, read_cons, pure_bind]
          split
          · rename_i isQuote
            subst isQuote
            refine (parseStringLiteral_safe t).bind ?_
            rintro ⟨text, rest⟩ ⟨literal, shorter⟩
            exact safe_pure ⟨.string start literal, shorter.trans less⟩
          split
          · rename_i isBrace
            subst isBrace
            exact (parseObject_safe ih inside start).mono fun found holds =>
              ⟨holds.1, holds.2.trans_lt less⟩
          split
          · rename_i isBracket
            subst isBracket
            exact (parseArray_safe ih inside start).mono fun found holds =>
              ⟨holds.1, holds.2.trans_lt less⟩
          split
          · rename_i front
            exact safe_pure ⟨word (.head _) front, dropped 3⟩
          split
          · rename_i front
            exact safe_pure ⟨word (.tail _ (.head _)) front, dropped 4⟩
          split
          · rename_i front
            exact safe_pure ⟨word (.tail _ (.tail _ (.head _))) front, dropped 3⟩
          split
          · rename_i first
            have starts : StartsNumber (skipWhitespace s) := ⟨c, t, start, first⟩
            rw [← start]
            refine (parseNumber_safe (skipWhitespace s)).mono ?_
            rintro ⟨v, rest⟩ ⟨token, isFloat, front, ends, value⟩
            have shorter := numberEnd_lt starts
            rw [ends] at shorter
            exact ⟨.number starts front ends value,
              shorter.trans_le (length_skipWhitespace_le s)⟩
          · exact safe_lpcError _

/-! ## Completeness -/

theorem startsWith_self (c : UInt8) (s : Str) : startsWith c (c :: s) = pure true := by
  rw [startsWith_cons, beq_self_eq_true]

theorem startsWith_of_ne {c d : UInt8} (other : d ≠ c) (s : Str) :
    startsWith c (d :: s) = pure false := by
  rw [startsWith_cons, beq_false_of_ne other]

theorem parseValueAt_succ {fuel : Nat} {s t : Str} {c : UInt8}
    (start : skipWhitespace s = c :: t) :
    parseValueAt (fuel + 1) s =
      if c = quote then do
        let (text, s) ← parseStringLiteral (c :: t)
        pure (.string text, s)
      else if c = openBrace then parseObject (parseValueAt fuel) t
      else if c = openBracket then parseArray (parseValueAt fuel) t
      else if (c :: t).take 4 = str "true" then pure (.int 1, (c :: t).drop 4)
      else if (c :: t).take 5 = str "false" then pure (.int 0, (c :: t).drop 5)
      else if (c :: t).take 4 = str "null" then pure (.int 0, (c :: t).drop 4)
      else if c = minus ∨ Decimal.isDigit c = true then parseNumber (c :: t)
      else lpcError "json_parse(): unexpected character in JSON input." := by
  unfold parseValueAt
  rw [start]
  rfl

theorem mem_words {word : Str} {i : Int64} (known : (word, i) ∈ words) :
    word = str "true" ∧ i = 1 ∨ word = str "false" ∧ i = 0 ∨ word = str "null" ∧ i = 0 := by
  simpa [words] using known

/-- What a value begins with. -/
theorem Reads.start {s rest : Str} {v : Contents} (reads : Reads s v rest) :
    ∃ c t, skipWhitespace s = c :: t ∧ c ≠ closeBracket := by
  cases reads with
  | string start => exact ⟨_, _, start, by decide⟩
  | emptyObject start => exact ⟨_, _, start, by decide⟩
  | object start => exact ⟨_, _, start, by decide⟩
  | emptyArray start => exact ⟨_, _, start, by decide⟩
  | array start => exact ⟨_, _, start, by decide⟩
  | word known start =>
      rcases mem_words known with ⟨rfl, -⟩ | ⟨rfl, -⟩ | ⟨rfl, -⟩
      · exact ⟨_, _, start, by decide⟩
      · exact ⟨_, _, start, by decide⟩
      · exact ⟨_, _, start, by decide⟩
  | number starts =>
      obtain ⟨c, t, start, first⟩ := starts
      refine ⟨c, t, start, ?_⟩
      rintro rfl
      revert first
      decide

theorem ReadsItems.start {s rest : Str} {items : List Contents}
    (reads : ReadsItems s items rest) : ∃ c t, skipWhitespace s = c :: t ∧ c ≠ closeBracket := by
  cases reads with
  | last value => exact value.start
  | cons value => exact value.start

theorem ReadsEntries.start {s rest : Str} {entries : List (Str × Contents)}
    (reads : ReadsEntries s entries rest) : ∃ t, skipWhitespace s = quote :: t := by
  cases reads with
  | last start => exact ⟨_, start⟩
  | cons start => exact ⟨_, start⟩

theorem arrayLoop_succ (parseValue : Str → Outcome (Contents × Str)) (fuel : Nat)
    (items : List Contents) (s : Str) :
    arrayLoop parseValue (fuel + 1) items s = (do
      let (val, s) ← parseValue s
      let items := items ++ [val]
      let s := skipWhitespace s
      if (← startsWith comma s) = true then arrayLoop parseValue fuel items (s.drop 1)
      else if (← startsWith closeBracket s) = true then pure (.array items, s.drop 1)
      else lpcError "json_parse(): expected ',' or ']' in array.") :=
  rfl

theorem objectLoop_succ (parseValue : Str → Outcome (Contents × Str)) (fuel : Nat)
    (entries : List (Str × Contents)) {s t : Str} (start : skipWhitespace s = quote :: t) :
    objectLoop parseValue (fuel + 1) entries s = (do
      let (key, s) ← parseStringLiteral (quote :: t)
      let s := skipWhitespace s
      if (← startsWith colon s) = false then
        lpcError "json_parse(): expected ':' after object key."
      else
        let (val, s) ← parseValue (s.drop 1)
        let entries := entries ++ [(key, val)]
        let s := skipWhitespace s
        if (← startsWith comma s) = true then objectLoop parseValue fuel entries (s.drop 1)
        else if (← startsWith closeBrace s) = true then pure (.object entries, s.drop 1)
        else lpcError "json_parse(): expected ',' or '\x7d' in object.") := by
  conv_lhs => unfold objectLoop
  rw [start]
  rfl

theorem parseValueAt_word {fuel : Nat} {s word rest : Str} {i : Int64}
    (known : (word, i) ∈ words) (start : skipWhitespace s = word ++ rest) :
    parseValueAt (fuel + 1) s = pure (.int i, rest) := by
  rcases mem_words known with ⟨rfl, rfl⟩ | ⟨rfl, rfl⟩ | ⟨rfl, rfl⟩ <;>
    exact parseValueAt_succ start

theorem parseValueAt_number {fuel : Nat} {s token rest : Str} {isFloat : Bool} {v : Contents}
    (starts : StartsNumber (skipWhitespace s)) (split : skipWhitespace s = token ++ rest)
    (ends : numberEnd (skipWhitespace s) = (isFloat, rest))
    (value : numberValue token isFloat = some v) :
    parseValueAt (fuel + 1) s = pure (v, rest) := by
  obtain ⟨c, t, start, first⟩ := starts
  have number := parseNumber_eq split.symm ends
  rw [value, start] at number
  have other {d : UInt8} (none : ¬ (d = minus ∨ Decimal.isDigit d = true)) : c ≠ d := by
    rintro rfl
    exact none first
  have noWord {word : Str} {n : Nat} {d : UInt8} (head : word.head? = some d)
      (none : ¬ (d = minus ∨ Decimal.isDigit d = true)) : (c :: t).take (n + 1) ≠ word := by
    rintro rfl
    exact other none (Option.some.inj head)
  rw [parseValueAt_succ start, if_neg (other (by decide)), if_neg (other (by decide)),
    if_neg (other (by decide)), if_neg (noWord rfl (by decide)), if_neg (noWord rfl (by decide)),
    if_neg (noWord rfl (by decide)), if_pos first, number]

theorem length_lt_of_eq {s s' rest : Str} {v : Contents} {fuel : Nat} (enough : s.length < fuel)
    (eq : parseValueAt fuel s = pure (v, s')) {c : UInt8}
    (next : skipWhitespace s' = c :: rest) : rest.length < s.length := by
  have safe := parseValueAt_safe fuel s enough
  have skipped := length_skipWhitespace_le s'
  rw [eq] at safe
  rw [next] at skipped
  exact (Nat.lt_of_succ_le skipped).trans safe.2

theorem parseArray_of_items {parseValue : Str → Outcome (Contents × Str)} {t rest : Str}
    {items : List Contents} (reads : ReadsItems t items rest)
    (loop : arrayLoop parseValue ((skipWhitespace t).length + 1) [] (skipWhitespace t) =
      pure (.array items, rest)) : parseArray parseValue t = pure (.array items, rest) := by
  obtain ⟨c, t', start, other⟩ := reads.start
  have noClose : startsWith closeBracket (skipWhitespace t) = pure false := by
    rw [start, startsWith_of_ne other]
  rw [parseArray, noClose, pure_bind, if_neg Bool.false_ne_true, loop]

theorem parseObject_of_entries {parseValue : Str → Outcome (Contents × Str)} {t rest : Str}
    {entries : List (Str × Contents)} (reads : ReadsEntries t entries rest)
    (loop : objectLoop parseValue ((skipWhitespace t).length + 1) [] (skipWhitespace t) =
      pure (.object entries, rest)) : parseObject parseValue t = pure (.object entries, rest) := by
  obtain ⟨t', start⟩ := reads.start
  have noClose : startsWith closeBrace (skipWhitespace t) = pure false := by
    rw [start, startsWith_of_ne (by decide)]
  rw [parseObject, noClose, pure_bind, if_neg Bool.false_ne_true, loop]

mutual

/-- The reader finds what the grammar derives, whatever white space stands in front. -/
theorem Reads.eq {s s' rest : Str} {v : Contents} {fuel : Nat}
    (same : skipWhitespace s' = skipWhitespace s) (enough : s'.length < fuel) :
    Reads s v rest → parseValueAt fuel s' = pure (v, rest)
  | .string start literal => by
      obtain ⟨fuel, rfl⟩ := Nat.exists_eq_succ_of_ne_zero (Nat.ne_zero_of_lt enough)
      rw [parseValueAt_succ (same.trans start), if_pos rfl, literal.parse_eq, pure_bind]
  | .emptyObject start close => by
      obtain ⟨fuel, rfl⟩ := Nat.exists_eq_succ_of_ne_zero (Nat.ne_zero_of_lt enough)
      rw [parseValueAt_succ (same.trans start), if_neg (by decide), if_pos rfl, parseObject, close,
        startsWith_self, pure_bind, if_pos rfl]
      rfl
  | .object start inside => by
      obtain ⟨fuel, rfl⟩ := Nat.exists_eq_succ_of_ne_zero (Nat.ne_zero_of_lt enough)
      have begins := same.trans start
      have shorter := length_skipWhitespace_le s'
      rw [begins] at shorter
      have less := (length_skipWhitespace_le _).trans_lt
        ((Nat.lt_of_succ_le shorter).trans_le (Nat.le_of_lt_succ enough))
      rw [parseValueAt_succ begins, if_neg (by decide), if_pos rfl]
      exact parseObject_of_entries inside
        (inside.eq (skipWhitespace_skip _) less (Nat.lt_succ_self _))
  | .emptyArray start close => by
      obtain ⟨fuel, rfl⟩ := Nat.exists_eq_succ_of_ne_zero (Nat.ne_zero_of_lt enough)
      rw [parseValueAt_succ (same.trans start), if_neg (by decide), if_neg (by decide), if_pos rfl,
        parseArray, close, startsWith_self, pure_bind, if_pos rfl]
      rfl
  | .array start inside => by
      obtain ⟨fuel, rfl⟩ := Nat.exists_eq_succ_of_ne_zero (Nat.ne_zero_of_lt enough)
      have begins := same.trans start
      have shorter := length_skipWhitespace_le s'
      rw [begins] at shorter
      have less := (length_skipWhitespace_le _).trans_lt
        ((Nat.lt_of_succ_le shorter).trans_le (Nat.le_of_lt_succ enough))
      rw [parseValueAt_succ begins, if_neg (by decide), if_neg (by decide), if_pos rfl]
      exact parseArray_of_items inside
        (inside.eq (skipWhitespace_skip _) less (Nat.lt_succ_self _))
  | .word known start => by
      obtain ⟨fuel, rfl⟩ := Nat.exists_eq_succ_of_ne_zero (Nat.ne_zero_of_lt enough)
      exact parseValueAt_word known (same.trans start)
  | .number starts split ends value => by
      obtain ⟨fuel, rfl⟩ := Nat.exists_eq_succ_of_ne_zero (Nat.ne_zero_of_lt enough)
      rw [← same] at starts split ends
      exact parseValueAt_number starts split ends value

theorem ReadsItems.eq {s s' rest : Str} {items before : List Contents} {fuel rounds : Nat}
    (same : skipWhitespace s' = skipWhitespace s) (enough : s'.length < fuel)
    (room : s'.length < rounds) :
    ReadsItems s items rest →
      arrayLoop (parseValueAt fuel) rounds before s' = pure (.array (before ++ items), rest)
  | .last value close => by
      obtain ⟨rounds, rfl⟩ := Nat.exists_eq_succ_of_ne_zero (Nat.ne_zero_of_lt room)
      rw [arrayLoop_succ, value.eq same enough, pure_bind]
      dsimp only
      rw [close, startsWith_of_ne (by decide), pure_bind, if_neg Bool.false_ne_true,
        startsWith_self, pure_bind, if_pos rfl]
      rfl
  | .cons value next more => by
      obtain ⟨rounds, rfl⟩ := Nat.exists_eq_succ_of_ne_zero (Nat.ne_zero_of_lt room)
      have read := value.eq same enough
      have less := length_lt_of_eq enough read next
      rw [arrayLoop_succ, read, pure_bind]
      dsimp only
      rw [next, startsWith_self, pure_bind, if_pos rfl]
      refine (more.eq rfl (less.trans enough) (less.trans_le (Nat.le_of_lt_succ room))).trans ?_
      rw [List.append_assoc]
      rfl

theorem ReadsEntries.eq {s s' rest : Str} {entries before : List (Str × Contents)}
    {fuel rounds : Nat} (same : skipWhitespace s' = skipWhitespace s)
    (enough : s'.length < fuel) (room : s'.length < rounds) :
    ReadsEntries s entries rest →
      objectLoop (parseValueAt fuel) rounds before s' = pure (.object (before ++ entries), rest)
  | .last start literal separator value close => by
      obtain ⟨rounds, rfl⟩ := Nat.exists_eq_succ_of_ne_zero (Nat.ne_zero_of_lt room)
      have less := literal.length_lt_value (same.trans start) separator
      rw [objectLoop_succ _ _ _ (same.trans start), literal.parse_eq, pure_bind]
      dsimp only
      rw [separator, startsWith_self, pure_bind, if_neg Bool.true_eq_false.mp, List.drop_one,
        List.tail_cons, value.eq rfl (less.trans enough), pure_bind]
      dsimp only
      rw [close, startsWith_of_ne (by decide), pure_bind, if_neg Bool.false_ne_true,
        startsWith_self, pure_bind, if_pos rfl]
      rfl
  | .cons start literal separator value next more => by
      obtain ⟨rounds, rfl⟩ := Nat.exists_eq_succ_of_ne_zero (Nat.ne_zero_of_lt room)
      have less := literal.length_lt_value (same.trans start) separator
      have read := value.eq rfl (less.trans enough)
      have less' := (length_lt_of_eq (less.trans enough) read next).trans less
      rw [objectLoop_succ _ _ _ (same.trans start), literal.parse_eq, pure_bind]
      dsimp only
      rw [separator, startsWith_self, pure_bind, if_neg Bool.true_eq_false.mp, List.drop_one,
        List.tail_cons, read, pure_bind]
      dsimp only
      rw [next, startsWith_self, pure_bind, if_pos rfl]
      refine (more.eq rfl (less'.trans enough) (less'.trans_le (Nat.le_of_lt_succ room))).trans ?_
      rw [List.append_assoc]
      rfl

end

/-! ## Whole texts -/

/-- The reader of a whole text comes to an end inside it, and returns what the text denotes. -/
theorem parseTopLevel_safe (s : Str) : Safe (parseTopLevel s) (Denotes s) := by
  refine (parseValueAt_safe (s.length + 1) s (Nat.lt_succ_self _)).bind ?_
  rintro ⟨v, rest⟩ ⟨reads, -⟩
  dsimp only
  by_cases trailing : (skipWhitespace rest).length ≠ 0
  · rw [if_pos trailing]
    exact safe_lpcError _
  · rw [if_neg trailing]
    exact safe_pure ⟨rest, reads, List.length_eq_zero_iff.mp (not_not.mp trailing)⟩

/-- A text of a value is read. -/
theorem Denotes.eq {s : Str} {v : Contents} (denotes : Denotes s v) : parseTopLevel s = pure v := by
  obtain ⟨rest, reads, blank⟩ := denotes
  rw [parseTopLevel, reads.eq rfl (Nat.lt_succ_self _), pure_bind]
  dsimp only
  rw [blank]
  rfl

end Kjdmud.Efun.Json
