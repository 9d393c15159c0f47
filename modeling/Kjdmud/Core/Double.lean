import Kjdmud.Core.Types
import Mathlib.Data.Rat.Floor
import Mathlib.Order.WithBot

/-!
# IEEE-754 binary64 numbers

The C++ `double` as its 64-bit pattern.  Every pattern is a value, so no
well-formedness condition travels with it.  Arithmetic is exact rational
arithmetic followed by one rounding to nearest, ties to even, which is what
the hardware does for `+`, `-`, `*`, `/` and for the conversion of an
`int64_t`; `std::fmod` is exact.  The decimal conversions are the ones the
driver uses: `strtod` on a fixed-notation token and `printf("%f")`.
-/

namespace Kjdmud

/-- A C++ `double`. -/
structure Double where
  bits : BitVec 64
  deriving DecidableEq

namespace Double

/-- The sign bit. -/
def signBit (d : Double) : Bool :=
  d.bits.msb

/-- The biased exponent field. -/
def biasedExponent (d : Double) : Nat :=
  d.bits.toNat / 2 ^ 52 % 2 ^ 11

/-- The fraction field. -/
def fraction (d : Double) : Nat :=
  d.bits.toNat % 2 ^ 52

def isNaN (d : Double) : Bool :=
  d.biasedExponent == 2047 && d.fraction != 0

def isInf (d : Double) : Bool :=
  d.biasedExponent == 2047 && d.fraction == 0

/-- The integer significand of a finite number. -/
def significand (d : Double) : Nat :=
  if d.biasedExponent = 0 then d.fraction else 2 ^ 52 + d.fraction

/-- The power of two a finite number's significand is scaled by. -/
def exponent (d : Double) : Int :=
  if d.biasedExponent = 0 then -1074 else (d.biasedExponent : Int) - 1075

/-- The absolute value of a finite number. -/
def magnitude (d : Double) : Rat :=
  d.significand * (2 : Rat) ^ d.exponent

/-- The value of a finite number. -/
def toRat (d : Double) : Rat :=
  if d.signBit then -d.magnitude else d.magnitude

/-- The pattern with a given sign and a given 63-bit exponent-and-fraction
field. -/
def ofFields (negative : Bool) (field : Nat) : Double :=
  ⟨BitVec.ofNat 64 (field + if negative then 2 ^ 63 else 0)⟩

def nan : Double := ofFields false (0x7ff8 * 2 ^ 48)

def inf (negative : Bool) : Double := ofFields negative (0x7ff0 * 2 ^ 48)

def zero (negative : Bool) : Double := ofFields negative 0

/-! ## Rounding -/

/-- The nearest integer to a nonnegative rational, ties to even. -/
def roundHalfEven (x : Rat) : Nat :=
  let low := x.floor.toNat
  let rest := x - low
  if rest < 1 / 2 then low
  else if 1 / 2 < rest then low + 1
  else if low % 2 = 0 then low else low + 1

/-- The exponent of the last kept place of a positive rational: 52 places below
its leading bit, but not below the subnormal range. -/
def lastPlace (x : Rat) : Int :=
  let guess : Int := (Nat.log2 x.num.toNat : Int) - Nat.log2 x.den
  let leading := if (2 : Rat) ^ guess ≤ x then guess else guess - 1
  max (leading - 52) (-1074)

/-- Round a nonnegative rational to the nearest representable magnitude; too
large a one becomes infinity.  Consecutive exponent-and-fraction fields denote
consecutive numbers, so a carry out of the significand needs no special case. -/
def roundMagnitude (negative : Bool) (x : Rat) : Double :=
  if x = 0 then zero negative
  else
    let place := lastPlace x
    let field := (place + 1074).toNat * 2 ^ 52 + roundHalfEven (x / (2 : Rat) ^ place)
    if field < 0x7ff0 * 2 ^ 48 then ofFields negative field else inf negative

/-- Round a rational, with the given sign for a zero result. -/
def round (negativeZero : Bool) (x : Rat) : Double :=
  if x = 0 then zero negativeZero else roundMagnitude (x < 0) |x|

/-- `static_cast<double>` of an `int64_t`. -/
def ofInt64 (i : Int64) : Double :=
  round false i.toInt

/-- `static_cast<int64_t>` of a `double`: truncation towards zero.  Out of range
the C++ conversion is undefined; x86-64 yields the pattern of the least
integer. -/
def toInt64 (d : Double) : Int64 :=
  if d.isNaN || d.isInf then Int64.minValue
  else
    let truncated : Int := if d.signBit then -d.magnitude.floor else d.magnitude.floor
    if -2 ^ 63 ≤ truncated ∧ truncated < 2 ^ 63 then Int64.ofInt truncated
    else Int64.minValue

/-! ## Arithmetic and comparison -/

def isZero (d : Double) : Bool :=
  d.biasedExponent == 0 && d.fraction == 0

def neg (d : Double) : Double :=
  ⟨d.bits ^^^ BitVec.ofNat 64 (2 ^ 63)⟩

def add (a b : Double) : Double :=
  if a.isNaN || b.isNaN then nan
  else if a.isInf then (if b.isInf && a.signBit != b.signBit then nan else a)
  else if b.isInf then b
  else round (a.signBit && b.signBit) (a.toRat + b.toRat)

def sub (a b : Double) : Double :=
  if b.isNaN then nan else add a (neg b)

def mul (a b : Double) : Double :=
  let negative := a.signBit != b.signBit
  if a.isNaN || b.isNaN then nan
  else if a.isInf || b.isInf then (if a.isZero || b.isZero then nan else inf negative)
  else round negative (a.toRat * b.toRat)

def div (a b : Double) : Double :=
  let negative := a.signBit != b.signBit
  if a.isNaN || b.isNaN then nan
  else if a.isInf then (if b.isInf then nan else inf negative)
  else if b.isInf then zero negative
  else if b.isZero then (if a.isZero then nan else inf negative)
  else round negative (a.toRat / b.toRat)

/-- `std::fmod`: the exact remainder of truncating division, with the sign of
the dividend. -/
def fmod (a b : Double) : Double :=
  if a.isNaN || b.isNaN || a.isInf || b.isZero then nan
  else if b.isInf then a
  else
    let quotient := (a.magnitude / b.magnitude).floor
    let remainder := a.magnitude - quotient * b.magnitude
    round a.signBit (if a.signBit then -remainder else remainder)

/-- `a < b`. -/
def lt (a b : Double) : Bool :=
  if a.isNaN || b.isNaN then false
  else if a.isInf then a.signBit && !(b.isInf && b.signBit)
  else if b.isInf then !b.signBit
  else a.toRat < b.toRat

/-- `a == b`; the two zeros are equal and NaN equals nothing. -/
def eq (a b : Double) : Bool :=
  if a.isNaN || b.isNaN then false
  else if a.isInf || b.isInf then a.isInf && b.isInf && a.signBit == b.signBit
  else a.toRat == b.toRat

/-- `a <= b`. -/
def le (a b : Double) : Bool :=
  lt a b || eq a b

/-! ## Decimal text -/

/-- A fixed-notation token `[-]digits[.digits]`, cut at its decimal point. -/
structure FixedToken where
  negative : Bool
  whole : Str
  frac : Str

namespace FixedToken

/-- The exact absolute value a token denotes. -/
def magnitude (t : FixedToken) : Rat :=
  Decimal.value (t.whole ++ t.frac) / (10 : Rat) ^ t.frac.length

end FixedToken

/-- The smallest normal magnitude. -/
def minNormal : Rat := (2 : Rat) ^ (-1022 : Int)

/-- `strtod` on a fixed-notation token, with `none` where it sets `ERANGE`: the
value overflows, or it is below the normal range and not exactly
representable. -/
def strtod (t : FixedToken) : Option Double :=
  let result := roundMagnitude t.negative t.magnitude
  if result.isInf then none
  else if t.magnitude < minNormal ∧ result.magnitude ≠ t.magnitude then none
  else some result

/-- `printf("%f")`: six decimal places of the exact value, ties to even. -/
def fixedText (d : Double) : Str :=
  let sign := if d.signBit then str "-" else []
  if d.isNaN then sign ++ str "nan"
  else if d.isInf then sign ++ str "inf"
  else
    let scaled := roundHalfEven (d.magnitude * 1000000)
    let places := Decimal.ofNat (scaled % 1000000)
    sign ++ Decimal.ofNat (scaled / 1000000) ++ str "." ++
      List.replicate (6 - places.length) 48 ++ places

/-- `snprintf` of `%f` into a buffer of 64 bytes, which keeps 63 of them. -/
def toFixed (d : Double) : Str :=
  d.fixedText.take 63

example : (ofInt64 3).toInt64 = 3 := by decide +kernel

example : toFixed (div (ofInt64 (-3)) (ofInt64 2)) = str "-1.500000" := by decide +kernel

/-! ## The order

The comparisons of two doubles that are no NaN are those of a linear order: the rational
numbers between the two infinities.
-/

section Order

variable {d e : Double}

/-- A double as a number between the infinities. -/
def extended (d : Double) : WithBot (WithTop ℚ) :=
  if d.isInf then if d.signBit then ⊥ else ((⊤ : WithTop ℚ) : WithBot (WithTop ℚ))
  else ((d.toRat : WithTop ℚ) : WithBot (WithTop ℚ))

theorem extended_of_finite (finite : d.isInf = false) :
    d.extended = ((d.toRat : WithTop ℚ) : WithBot (WithTop ℚ)) := by
  rw [extended, finite]
  rfl

theorem lt_iff (real : d.isNaN = false) (real' : e.isNaN = false) :
    d.lt e = true ↔ d.extended < e.extended := by
  unfold lt extended
  rw [real, real']
  cases d.isInf <;> cases e.isInf <;> cases d.signBit <;> cases e.signBit <;>
    simp [lt_top_iff_ne_top]

theorem eq_iff (real : d.isNaN = false) (real' : e.isNaN = false) :
    d.eq e = true ↔ d.extended = e.extended := by
  unfold eq extended
  rw [real, real']
  cases d.isInf <;> cases e.isInf <;> cases d.signBit <;> cases e.signBit <;> simp

theorem le_iff (real : d.isNaN = false) (real' : e.isNaN = false) :
    d.le e = true ↔ d.extended ≤ e.extended := by
  rw [le, Bool.or_eq_true, lt_iff real real', eq_iff real real', le_iff_lt_or_eq]

end Order

end Double

end Kjdmud
