import Kjdmud.Core.Double

/-!
# Number conversions of the standard library

`std::stoll`, `std::stoull` and `std::stod` on any text, in the C locale.  All three
skip white space, read an optional sign and as long a number as there is, and ignore
what stands behind it.
-/

namespace Kjdmud.Conversion

/-- The exceptions of the conversions. -/
inductive ConversionError
  /-- `std::invalid_argument`: there is no number. -/
  | invalidArgument
  /-- `std::out_of_range`: `ERANGE` is set. -/
  | outOfRange
deriving DecidableEq

/-- `std::isspace`. -/
def isSpace (c : UInt8) : Bool :=
  c == 32 || (9 ≤ c && c ≤ 13)

/-- The sign in front of a number, and what stands behind it. -/
def sign : Str → Bool × Str
  | [] => (false, [])
  | c :: rest => if c = 45 then (true, rest) else if c = 43 then (false, rest) else (false, c :: rest)

/-! ## Integers -/

/-- The sign and the digits of an integer. -/
def integerToken (token : Str) : Bool × Str :=
  let (negative, rest) := sign (token.dropWhile isSpace)
  (negative, rest.takeWhile Decimal.isDigit)

/-- `std::stoll`. -/
def stoll (token : Str) : Except ConversionError Int64 :=
  let (negative, digits) := integerToken token
  if digits.isEmpty then .error .invalidArgument
  else
    let n : Int := if negative then -(Decimal.value digits : Int) else Decimal.value digits
    if -2 ^ 63 ≤ n ∧ n < 2 ^ 63 then .ok (Int64.ofInt n) else .error .outOfRange

/-- `std::stoull`.  A minus sign negates modulo `2 ^ 64`. -/
def stoull (token : Str) : Except ConversionError Nat :=
  let (negative, digits) := integerToken token
  if digits.isEmpty then .error .invalidArgument
  else
    let n := Decimal.value digits
    if n < 2 ^ 64 then .ok (if negative then (2 ^ 64 - n) % 2 ^ 64 else n)
    else .error .outOfRange

theorem sign_of_digit {c : UInt8} (digit : Decimal.isDigit c = true) (rest : Str) :
    sign (c :: rest) = (false, c :: rest) := by
  have low : 48 ≤ c ∧ c ≤ 57 := by simpa [Decimal.isDigit] using digit
  grind [sign]

theorem dropWhile_isSpace_digit {c : UInt8} (digit : Decimal.isDigit c = true) (rest : Str) :
    (c :: rest).dropWhile isSpace = c :: rest := by
  have low : 48 ≤ c ∧ c ≤ 57 := by simpa [Decimal.isDigit] using digit
  refine List.dropWhile_cons_of_neg ?_
  grind [isSpace]

theorem takeWhile_isDigit {digits : Str} (all : ∀ c ∈ digits, Decimal.isDigit c = true) :
    digits.takeWhile Decimal.isDigit = digits := by
  induction digits with
  | nil => rfl
  | cons c digits ih =>
      rw [List.takeWhile_cons_of_pos (all c List.mem_cons_self),
        ih fun d member => all d (.tail _ member)]

theorem integerToken_digits {digits : Str} (some_ : digits ≠ [])
    (all : ∀ c ∈ digits, Decimal.isDigit c = true) : integerToken digits = (false, digits) := by
  cases digits with
  | nil => exact absurd rfl some_
  | cons c digits =>
      unfold integerToken
      rw [dropWhile_isSpace_digit (all c List.mem_cons_self),
        sign_of_digit (all c List.mem_cons_self)]
      dsimp only
      rw [takeWhile_isDigit all]

theorem integerToken_minus {digits : Str} (all : ∀ c ∈ digits, Decimal.isDigit c = true) :
    integerToken (45 :: digits) = (true, digits) := by
  change (true, digits.takeWhile Decimal.isDigit) = _
  rw [takeWhile_isDigit all]

/-- `std::stoll` reads back what `std::to_string` writes. -/
theorem stoll_ofInt (i : Int64) : stoll (Decimal.ofInt i.toInt) = .ok i := by
  have range : -2 ^ 63 ≤ i.toInt ∧ i.toInt < 2 ^ 63 := ⟨i.le_toInt, i.toInt_lt⟩
  have some_ (n : Nat) : ¬ (Decimal.ofNat n).isEmpty = true := by
    rw [List.isEmpty_iff]
    exact Decimal.ofNat_ne_nil n
  unfold stoll
  cases value : i.toInt with
  | ofNat n =>
      have back : ((Decimal.value (Decimal.ofNat n) : Nat) : Int) = i.toInt := by
        rw [Decimal.value_ofNat, value]
        rfl
      rw [Decimal.ofInt, integerToken_digits (Decimal.ofNat_ne_nil n) fun c =>
        Decimal.isDigit_of_mem_ofNat]
      dsimp only
      rw [if_neg (some_ n), if_neg Bool.false_ne_true, back, if_pos range, Int64.ofInt_toInt]
  | negSucc n =>
      have back : -((Decimal.value (Decimal.ofNat (n + 1)) : Nat) : Int) = i.toInt := by
        rw [Decimal.value_ofNat, value]
        rfl
      rw [Decimal.ofInt, integerToken_minus fun c => Decimal.isDigit_of_mem_ofNat]
      dsimp only
      rw [if_neg (some_ _), if_pos rfl, back, if_pos range, Int64.ofInt_toInt]

/-! ## Digits -/

/-- `std::tolower`. -/
def toLower (c : UInt8) : UInt8 :=
  if 65 ≤ c ∧ c ≤ 90 then c + 32 else c

/-- A hexadecimal digit. -/
def hexDigit (c : UInt8) : Option Nat :=
  if Decimal.isDigit c then some (c.toNat - 48)
  else if 97 ≤ toLower c ∧ toLower c ≤ 102 then some ((toLower c).toNat - 87)
  else none

/-- What digits in a base make up. -/
def digitsValue (base : Nat) (digits : List Nat) : Nat :=
  digits.foldl (fun n digit => n * base + digit) 0

/-- The digits at the front of a text, and what stands behind them. -/
def spanDigits (digit : UInt8 → Option Nat) (s : Str) : List Nat × Str :=
  ((s.takeWhile fun c => (digit c).isSome).filterMap digit,
    s.dropWhile fun c => (digit c).isSome)

/-- A decimal digit. -/
def decDigit (c : UInt8) : Option Nat :=
  if Decimal.isDigit c then some (c.toNat - 48) else none

/-! ## Integers in base 16 -/

/-- The sign and the digits of an integer in base 16, which may begin with `0x`. -/
def hexToken (token : Str) : Bool × List Nat :=
  let (negative, rest) := sign (token.dropWhile isSpace)
  let isPrefixed := rest.head? = some 48 ∧ (rest.tail.head?.map toLower) = some 120 ∧
    ((rest.drop 2).head?.bind hexDigit).isSome
  (negative, (spanDigits hexDigit (if isPrefixed then rest.drop 2 else rest)).1)

/-- `std::stoll` in base 16. -/
def stollHex (token : Str) : Except ConversionError Int64 :=
  let (negative, digits) := hexToken token
  if digits.isEmpty then .error .invalidArgument
  else
    let n : Int := if negative then -(digitsValue 16 digits : Int) else digitsValue 16 digits
    if -2 ^ 63 ≤ n ∧ n < 2 ^ 63 then .ok (Int64.ofInt n) else .error .outOfRange

/-- `std::stoul` in base 16.  A minus sign negates modulo `2 ^ 64`. -/
def stoulHex (token : Str) : Except ConversionError Nat :=
  let (negative, digits) := hexToken token
  if digits.isEmpty then .error .invalidArgument
  else
    let n := digitsValue 16 digits
    if n < 2 ^ 64 then .ok (if negative then (2 ^ 64 - n) % 2 ^ 64 else n)
    else .error .outOfRange

/-! ## Floating-point numbers -/

/-- The exponent behind a mantissa: a letter, a sign and digits, or nothing. -/
def exponent (letter : UInt8) : Str → Int
  | [] => 0
  | c :: rest =>
      if toLower c = letter then
        let (negative, rest) := sign rest
        let n : Int := digitsValue 10 (spanDigits decDigit rest).1
        if negative then -n else n
      else 0

/-- An unsigned number in a base: digits with an optional point among them, and an
exponent of `scale`.  Without a digit there is no number. -/
def mantissa (digit : UInt8 → Option Nat) (base : Nat) (letter : UInt8) (scale : Rat) (s : Str) :
    Option Rat :=
  let (whole, rest) := spanDigits digit s
  let (frac, rest) := if rest.head? = some 46 then spanDigits digit rest.tail else ([], rest)
  if (whole ++ frac).isEmpty then none
  else some (digitsValue base (whole ++ frac) / (base : Rat) ^ frac.length *
    scale ^ exponent letter rest)

/-- The magnitude that `strtod` reads: a hexadecimal number behind `0x`, else a
decimal one. -/
def magnitude (s : Str) : Option Rat :=
  match (s.take 2).map toLower with
  | [48, 120] =>
      match mantissa hexDigit 16 112 2 (s.drop 2) with
      | some x => some x
      | none => some 0
  | _ => mantissa decDigit 10 101 10 s

/-- The double nearest to a magnitude, unless `strtod` sets `ERANGE`: the value
overflows, or it is below the normal range and not exactly representable. -/
def nearest (negative : Bool) (x : Rat) : Option Double :=
  let result := Double.roundMagnitude negative x
  if result.isInf then none
  else if x < Double.minNormal ∧ result.magnitude ≠ x then none
  else some result

/-- `std::stod`. -/
def stod (token : Str) : Except ConversionError Double :=
  let (negative, rest) := sign (token.dropWhile isSpace)
  let word := (rest.take 3).map toLower
  if word = str "inf" then .ok (Double.inf negative)
  else if word = str "nan" then
    .ok (if negative then Double.neg Double.nan else Double.nan)
  else
    match magnitude rest with
    | none => .error .invalidArgument
    | some x =>
        match nearest negative x with
        | none => .error .outOfRange
        | some d => .ok d

example : stoll (str " -12;x") = .ok (-12) := by decide

example : stoull (str "-1") = .ok (2 ^ 64 - 1) := by decide

example : stollHex (str "0X1f") = .ok 31 := by decide

end Kjdmud.Conversion
