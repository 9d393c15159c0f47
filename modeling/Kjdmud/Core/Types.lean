import Mathlib.Data.Nat.Notation
import Mathlib.Data.Nat.Digits.Defs

/-!
# Byte strings and numerals

Byte strings stand for the C++ `std::string`, and natural numbers for the
identity of the heap objects the driver shares by pointer.
-/

namespace Kjdmud

/-- A C++ `std::string`: a finite sequence of bytes, NUL included. -/
abbrev Str := List UInt8

/-- Byte strings are the same exactly when they compare equal. -/
instance : LawfulBEq Str :=
  inferInstance

/-- The bytes of an ASCII literal of the source. -/
def str (literal : String) : Str :=
  literal.toList.map fun c => UInt8.ofNat c.toNat

/-- The identity of an `LpcObject`. -/
abbrev ObjectId := Nat

/-- A value of `int64_t`. -/
def FitsInt64 (z : Int) : Prop :=
  -2 ^ 63 ≤ z ∧ z < 2 ^ 63

instance (z : Int) : Decidable (FitsInt64 z) :=
  inferInstanceAs (Decidable (_ ∧ _))

/-- A sum or a difference of the machine. -/
def int64 (z : Int) : Option Int :=
  if FitsInt64 z then some z else none

theorem int64_of_fits {z : Int} (fits : FitsInt64 z) : int64 z = some z :=
  if_pos fits

/-!
## Decimal numerals as byte strings

The numerals the driver writes and reads: the base-ten rendering of an integer
and the value of a run of digit bytes.  Writing a numeral and reading its digits
back is the identity, and the maximal digit run in front of a non-digit is
exactly the numeral that was written.
-/

namespace Decimal

/-- `std::isdigit` in the C locale. -/
def isDigit (c : UInt8) : Bool :=
  48 ≤ c && c ≤ 57

/-- The byte of one decimal digit. -/
def digitByte (d : Nat) : UInt8 :=
  UInt8.ofNat (48 + d)

/-- The digit a byte stands for. -/
def digitValue (c : UInt8) : Nat :=
  c.toNat - 48

/-- The number a run of digit bytes denotes, most significant digit first. -/
def value (digits : Str) : Nat :=
  Nat.ofDigits 10 (digits.reverse.map digitValue)

/-- The decimal digits of a natural number, with a single `0` for zero. -/
def ofNat (n : Nat) : Str :=
  if n = 0 then [48] else (Nat.digits 10 n).reverse.map digitByte

/-- `std::to_string` on a signed integer. -/
def ofInt : Int → Str
  | .ofNat n => ofNat n
  | .negSucc n => 45 :: ofNat (n + 1)

theorem digitValue_digitByte {d : Nat} (small : d < 10) :
    digitValue (digitByte d) = d := by
  have bound : (48 + d) % 2 ^ 8 = 48 + d := Nat.mod_eq_of_lt (by omega)
  simp only [digitValue, digitByte, UInt8.toNat_ofNat']
  omega

theorem isDigit_digitByte {d : Nat} (small : d < 10) :
    isDigit (digitByte d) = true := by
  have bound : (48 + d) % 2 ^ 8 = 48 + d := Nat.mod_eq_of_lt (by omega)
  simp only [isDigit, digitByte, Bool.and_eq_true, decide_eq_true_eq,
    UInt8.le_iff_toNat_le, UInt8.toNat_ofNat']
  constructor
  · change 48 ≤ _
    omega
  · change _ ≤ 57
    omega

/-- Every byte of a written natural number is a digit. -/
theorem isDigit_of_mem_ofNat {n : Nat} {c : UInt8} (member : c ∈ ofNat n) :
    isDigit c = true := by
  unfold ofNat at member
  split at member
  · rw [List.mem_singleton] at member
    subst member
    decide
  · rcases List.mem_map.mp member with ⟨d, dMem, rfl⟩
    exact isDigit_digitByte (Nat.digits_lt_base (by decide) (List.mem_reverse.mp dMem))

/-- A written natural number has at least one digit. -/
theorem ofNat_ne_nil (n : Nat) : ofNat n ≠ [] := by
  unfold ofNat
  split
  · simp
  · rename_i positive
    simpa [Nat.digits_eq_nil_iff_eq_zero] using positive

/-- Reading the digits of a written natural number gives it back. -/
theorem value_ofNat (n : Nat) : value (ofNat n) = n := by
  unfold ofNat
  split
  · rename_i zero
    subst zero
    decide
  · have digitsBack : ((Nat.digits 10 n).map digitByte).map digitValue = Nat.digits 10 n := by
      rw [List.map_map]
      refine (List.map_congr_left fun d dMem => ?_).trans (List.map_id _)
      exact digitValue_digitByte (Nat.digits_lt_base (by decide) dMem)
    rw [value, ← List.map_reverse, List.reverse_reverse, digitsBack, Nat.ofDigits_digits]

/-- The digit run in front of a byte that is not a digit is the whole numeral. -/
theorem takeWhile_isDigit_ofNat_append (n : Nat) {rest : Str}
    (stops : ∀ c ∈ rest.head?, isDigit c = false) :
    (ofNat n ++ rest).takeWhile isDigit = ofNat n := by
  rw [List.takeWhile_append_of_pos fun _ => isDigit_of_mem_ofNat]
  cases rest with
  | nil => simp
  | cons c rest => simp [stops c rfl]

/-- Dropping the digit run leaves what follows the numeral. -/
theorem dropWhile_isDigit_ofNat_append (n : Nat) {rest : Str}
    (stops : ∀ c ∈ rest.head?, isDigit c = false) :
    (ofNat n ++ rest).dropWhile isDigit = rest := by
  rw [List.dropWhile_append_of_pos fun _ => isDigit_of_mem_ofNat]
  cases rest with
  | nil => simp
  | cons c rest => simp [stops c rfl]

end Decimal

end Kjdmud
