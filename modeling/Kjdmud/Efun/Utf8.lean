import Kjdmud.Lib.Utf8
import Kjdmud.Vm.Operators
import Mathlib.Tactic.SplitIfs

/-!
# Strings and their code points

`str_to_arr` and `arr_to_str` of `src/efun/EfunTable.cpp`.  The decoder reads at positions of
the string, and a read outside is no result.
-/

namespace Kjdmud.Efun.Utf8

open Kjdmud.Vm (Value World)
open Kjdmud.Utf8 (IsTail Scalar Valid extraOf lead readScalar scalars value)

/-! ## The efuns -/

/-- The bits of a lead byte, and how many bytes follow it. -/
def leadOf (c : UInt8) : Option (Nat × Nat) :=
  if c < 0x80 then some (c.toNat, 0)
  else if c &&& 0xE0 = 0xC0 then some ((c &&& 0x1F).toNat, 1)
  else if c &&& 0xF0 = 0xE0 then some ((c &&& 0x0F).toNat, 2)
  else if c &&& 0xF8 = 0xF0 then some ((c &&& 0x07).toNat, 3)
  else none

/-- The bytes `i + k`, …, as many as are left; `some none` when one is no continuation. -/
def readExtra (s : Str) (i : Nat) : Nat → Nat → Nat → Option (Option Nat)
  | 0, _, cp => some (some cp)
  | left + 1, k, cp =>
      match s[i + k]? with
      | none => none
      | some cc =>
          if cc &&& 0xC0 ≠ 0x80 then some none
          else readExtra s i left (k + 1) ((cp <<< 6) ||| (cc &&& 0x3F).toNat)

/-- Overlong encodings, surrogates and what is past the ceiling. -/
def rejected (cp extra : Nat) : Prop :=
  (extra = 1 ∧ cp < 0x80 ∨ extra = 2 ∧ cp < 0x800 ∨ extra = 3 ∧ cp < 0x10000) ∨
    cp > 0x10FFFF ∨ (0xD800 ≤ cp ∧ cp ≤ 0xDFFF)

instance (cp extra : Nat) : Decidable (rejected cp extra) :=
  inferInstanceAs (Decidable (_ ∨ _))

/-- `decodeUtf8ToCodePoints`, from a position on. -/
def decodeFrom (s : Str) (i : Nat) (out : List Nat) : Option (List Nat) :=
  if i < s.length then
    match s[i]? with
    | none => none
    | some c =>
        match leadOf c with
        -- a stray continuation byte, or the lead of a longer sequence
        | none => decodeFrom s (i + 1) out
        | some (cp, extra) =>
            -- truncated at the end of the string
            if s.length ≤ i + extra then decodeFrom s (i + 1) out
            else
              match readExtra s i extra 1 cp with
              | none => none
              | some none => decodeFrom s (i + 1) out
              | some (some cp) =>
                  if rejected cp extra then decodeFrom s (i + (extra + 1)) out
                  else decodeFrom s (i + (extra + 1)) (out ++ [cp])
  else some out
termination_by s.length - i

/-- `decodeUtf8ToCodePoints`. -/
def decodeUtf8ToCodePoints (s : Str) : Option (List Nat) :=
  decodeFrom s 0 []

/-- `encodeCodePointUtf8`. -/
def encodeCodePointUtf8 (out : Str) (cp : Int64) : Str :=
  if cp < 0 ∨ 0x10FFFF < cp ∨ (0xD800 ≤ cp ∧ cp ≤ 0xDFFF) then out
  else
    let n := cp.toInt.toNat
    if n < 0x80 then out ++ [UInt8.ofNat n]
    else if n < 0x800 then
      out ++ [UInt8.ofNat (0xC0 ||| (n >>> 6)), UInt8.ofNat (0x80 ||| (n &&& 0x3F))]
    else if n < 0x10000 then
      out ++ [UInt8.ofNat (0xE0 ||| (n >>> 12)), UInt8.ofNat (0x80 ||| ((n >>> 6) &&& 0x3F)),
        UInt8.ofNat (0x80 ||| (n &&& 0x3F))]
    else
      out ++ [UInt8.ofNat (0xF0 ||| (n >>> 18)), UInt8.ofNat (0x80 ||| ((n >>> 12) &&& 0x3F)),
        UInt8.ofNat (0x80 ||| ((n >>> 6) &&& 0x3F)), UInt8.ofNat (0x80 ||| (n &&& 0x3F))]

/-- A new array of integers. -/
def newInts (w : World) (ints : List Int64) : World × Value :=
  let (w, data) := w.newArray (ints.map Value.int)
  (w, ⟨data, false, false⟩)

/-- `str_to_arr`. -/
def strToArr (w : World) (args : List Value) : Option (Except Str (World × Value)) :=
  match args.head? with
  | some ⟨.string s, _, _⟩ =>
      (decodeUtf8ToCodePoints s).map fun cps =>
        -- the terminating NUL is an element too
        .ok (newInts w (cps.map Int64.ofNat ++ [0]))
  | _ => some (.error (str "str_to_arr: expected a string argument"))

/-- The loop of `arr_to_str`. -/
def arrLoop : List Value → Str → Except Str Str
  | [], out => .ok out
  | ⟨.int cp, _, _⟩ :: rest, out =>
      if cp = 0 then .ok out else arrLoop rest (encodeCodePointUtf8 out cp)
  | ⟨.double d, _, _⟩ :: rest, out =>
      if d.toInt64 = 0 then .ok out else arrLoop rest (encodeCodePointUtf8 out d.toInt64)
  | _ :: _, _ => .error (str "arr_to_str: array element is not an integer")

/-- `arr_to_str`. -/
def arrToStr (w : World) (args : List Value) : Except Str Value :=
  match args.head? with
  | some ⟨.array ref, _, _⟩ => Value.string <$> arrLoop (w.items ref) []
  | _ => .error (str "arr_to_str: expected an int array argument")

/-! ## The decoder reads the scalar values -/

/-- A property of all bytes, checked for each. -/
theorem forall_byte {p : UInt8 → Prop} (all : ∀ n < 256, p (UInt8.ofNat n)) (c : UInt8) :
    p c := by
  have byte := all c.toNat c.toNat_lt
  rwa [UInt8.ofNat_toNat] at byte

theorem leadOf_eq (c : UInt8) : leadOf c = lead c := by
  revert c
  exact forall_byte (by decide +kernel)

theorem continuation_iff (c : UInt8) : c &&& 0xC0 = 0x80 ↔ IsTail c := by
  revert c
  exact forall_byte (by decide +kernel)

theorem continuation_bits (c : UInt8) : (c &&& 0x3F).toNat = c.toNat % 64 := by
  revert c
  exact forall_byte (by decide +kernel)

/-- Six bits behind a number. -/
theorem append_bits (cp : Nat) (c : UInt8) :
    (cp <<< 6) ||| (c &&& 0x3F).toNat = cp * 64 + c.toNat % 64 := by
  have small : c.toNat % 64 < 2 ^ 6 := by omega
  rw [continuation_bits, ← Nat.shiftLeft_add_eq_or_of_lt small, Nat.shiftLeft_eq]

/-- The continuation bytes are read as their number. -/
theorem readExtra_eq {s : Str} {i left k : Nat} (cp : Nat) (inside : i + k + left ≤ s.length) :
    readExtra s i left k cp =
      some (if ∀ c ∈ (s.drop (i + k)).take left, IsTail c then
        some (value cp ((s.drop (i + k)).take left)) else none) := by
  induction left generalizing k cp with
  | zero => simp [readExtra, value]
  | succ left ih =>
      have position : i + k < s.length := by omega
      have step : readExtra s i (left + 1) k cp =
          if IsTail s[i + k] then
            readExtra s i left (k + 1) (cp * 64 + s[i + k].toNat % 64)
          else some none := by
        rw [readExtra, List.getElem?_eq_getElem position]
        simp only [ne_eq, continuation_iff, ite_not, append_bits]
      rw [step, ih _ (by omega), List.drop_eq_getElem_cons position, List.take_succ_cons]
      simp only [List.forall_mem_cons]
      by_cases tail : IsTail s[i + k]
      · simp only [tail, if_true, true_and]
        rfl
      · simp only [tail, if_false, false_and]

theorem all_of_readExtra {s : Str} {i left k v cp : Nat} (inside : i + k + left ≤ s.length)
    (reads : readExtra s i left k v = some (some cp)) :
    (∀ c ∈ (s.drop (i + k)).take left, IsTail c) ∧
      value v ((s.drop (i + k)).take left) = cp := by
  rw [readExtra_eq v inside] at reads
  by_cases all : ∀ c ∈ (s.drop (i + k)).take left, IsTail c
  · rw [if_pos all] at reads
    exact ⟨all, Option.some.inj (Option.some.inj reads)⟩
  · simp [all] at reads

/-- What is rejected is not in its shortest class, or no scalar value. -/
theorem rejected_iff {cp v extra : Nat} {bytes : Str} {c : UInt8} (leads : lead c = some (v, extra))
    (length : bytes.length = extra) (whole : cp = value v bytes) :
    rejected cp extra ↔ ¬ (extraOf cp = extra ∧ Scalar cp) := by
  have high := Kjdmud.Utf8.value_div v bytes
  have room := Kjdmud.Utf8.lt_leadRoom_of_lead leads
  rw [length, ← whole] at high
  have class_ := (Kjdmud.Utf8.eq_of_lead leads).2
  have shortest := Kjdmud.Utf8.extraOf_cases cp
  unfold rejected Scalar
  obtain rfl | rfl | rfl | rfl : extra = 0 ∨ extra = 1 ∨ extra = 2 ∨ extra = 3 := by omega
  all_goals
    simp only [Kjdmud.Utf8.leadRoom] at room
    omega

/-- What the decoder finds at a position is what stands there. -/
theorem readScalar_drop {s : Str} {i v extra : Nat} {c : UInt8} (found : s[i]? = some c)
    (leads : lead c = some (v, extra)) :
    readScalar (s.drop i) =
      if i + extra < s.length ∧ (∀ c ∈ (s.drop (i + 1)).take extra, IsTail c) ∧
        ¬ rejected (value v ((s.drop (i + 1)).take extra)) extra then
        some (value v ((s.drop (i + 1)).take extra)) else none := by
  obtain ⟨inside, rfl⟩ := List.getElem?_eq_some_iff.mp found
  rw [List.drop_eq_getElem_cons inside, readScalar, leads]
  dsimp only
  by_cases whole : i + extra < s.length
  · have length : ((s.drop (i + 1)).take extra).length = extra := by
      rw [List.length_take, List.length_drop]
      omega
    have room : extra ≤ (s.drop (i + 1)).length := by
      rw [List.length_drop]
      omega
    simp only [rejected_iff leads length rfl, not_not, whole, room, true_and]
  · have room : ¬ extra ≤ (s.drop (i + 1)).length := by
      rw [List.length_drop]
      omega
    simp only [whole, room, false_and]

theorem scalars_drop {s : Str} {i : Nat} {c : UInt8} (found : s[i]? = some c) :
    scalars (s.drop i) = (readScalar (s.drop i)).toList ++ scalars (s.drop (i + 1)) := by
  obtain ⟨inside, rfl⟩ := List.getElem?_eq_some_iff.mp found
  rw [List.drop_eq_getElem_cons inside, Kjdmud.Utf8.scalars_cons]

/-- Continuation bytes are skipped. -/
theorem scalars_skip {s : Str} {i n : Nat} (all : ∀ c ∈ (s.drop i).take n, IsTail c) :
    scalars (s.drop i) = scalars (s.drop (i + n)) := by
  have parts : s.drop i = (s.drop i).take n ++ s.drop (i + n) := by
    rw [← List.drop_drop, List.take_append_drop]
  rw [parts, Kjdmud.Utf8.scalars_tails all]

/-- The decoder reads the scalar values of the string, wherever they stand in it. -/
theorem decodeFrom_eq (s : Str) (i : Nat) (out : List Nat) :
    decodeFrom s i out = some (out ++ scalars (s.drop i)) := by
  fun_induction decodeFrom s i out with
  | case1 i out more outside =>
      rw [List.getElem?_eq_getElem more] at outside
      contradiction
  | case2 i out more c found stray ih =>
      have nothing : readScalar (s.drop i) = none := by
        obtain ⟨inside, rfl⟩ := List.getElem?_eq_some_iff.mp found
        rw [List.drop_eq_getElem_cons inside, readScalar, ← leadOf_eq, stray]
      rw [ih, scalars_drop found, nothing]
      rfl
  | case3 i out more c found v extra leads truncated ih =>
      rw [leadOf_eq] at leads
      rw [ih, scalars_drop found, readScalar_drop found leads, if_neg (by omega)]
      rfl
  | case4 i out more c found v extra leads whole outside =>
      rw [readExtra_eq v (by omega)] at outside
      contradiction
  | case5 i out more c found v extra leads whole broken ih =>
      rw [leadOf_eq] at leads
      rw [readExtra_eq v (by omega)] at broken
      have other : ¬ ∀ c ∈ (s.drop (i + 1)).take extra, IsTail c := by
        intro all
        rw [if_pos all] at broken
        simp at broken
      rw [ih, scalars_drop found, readScalar_drop found leads, if_neg fun fits => other fits.2.1]
      rfl
  | case6 i out more c found v extra leads whole cp reads bad ih =>
      rw [leadOf_eq] at leads
      obtain ⟨all, rfl⟩ := all_of_readExtra (by omega) reads
      rw [ih, scalars_drop found, readScalar_drop found leads,
        if_neg fun fits => fits.2.2 bad, scalars_skip all, Nat.add_assoc, Nat.add_comm 1]
      rfl
  | case7 i out more c found v extra leads whole cp reads good ih =>
      rw [leadOf_eq] at leads
      obtain ⟨all, rfl⟩ := all_of_readExtra (by omega) reads
      rw [ih, scalars_drop found, readScalar_drop found leads,
        if_pos ⟨by omega, all, good⟩, scalars_skip all, Nat.add_assoc i, Nat.add_comm 1]
      simp
  | case8 i out ended =>
      rw [List.drop_eq_nil_of_le (by omega), Kjdmud.Utf8.scalars_nil, List.append_nil]

theorem decodeUtf8ToCodePoints_eq (s : Str) : decodeUtf8ToCodePoints s = some (scalars s) := by
  rw [decodeUtf8ToCodePoints, decodeFrom_eq]
  rfl

/-! ## The encoder writes sequences -/

/-- The bits of a lead byte, which start at bit `i`. -/
theorem lead_bits {i a m : Nat} (room : m < 2 ^ i) : 2 ^ i * a ||| m = 2 ^ i * a + m :=
  (Nat.two_pow_add_eq_or_of_lt room a).symm

theorem tail_bits (m : Nat) : 0x80 ||| (m &&& 0x3F) = 0x80 + m % 64 := by
  have low : m &&& 0x3F = m % 64 := Nat.and_two_pow_sub_one_eq_mod m 6
  rw [low]
  exact lead_bits (i := 7) (a := 1) (by omega)

/-- A scalar value is written as its bytes. -/
theorem encodeCodePointUtf8_eq (out : Str) {cp : Int64} (nonneg : 0 ≤ cp.toInt)
    (scalar : Scalar cp.toInt.toNat) :
    encodeCodePointUtf8 out cp = out ++ Kjdmud.Utf8.sequence cp.toInt.toNat := by
  have valid : ¬ (cp < 0 ∨ 0x10FFFF < cp ∨ (0xD800 ≤ cp ∧ cp ≤ 0xDFFF)) := by
    have bounds := scalar
    simp only [Int64.lt_iff_toInt_lt, Int64.le_iff_toInt_le]
    unfold Scalar at bounds
    have numerals : (0 : Int64).toInt = 0 ∧ (0x10FFFF : Int64).toInt = 0x10FFFF ∧
        (0xD800 : Int64).toInt = 0xD800 ∧ (0xDFFF : Int64).toInt = 0xDFFF := by decide
    omega
  have bound := scalar.1
  rw [encodeCodePointUtf8, if_neg valid]
  generalize cp.toInt.toNat = n at bound
  dsimp only
  obtain ⟨class_, shortest⟩ | ⟨lower, class_, shortest⟩ | ⟨lower, class_, shortest⟩ |
    ⟨lower, shortest⟩ := Kjdmud.Utf8.extraOf_cases n
  · rw [if_pos class_, Kjdmud.Utf8.sequence, shortest]
    simp [Kjdmud.Utf8.leadBase, Kjdmud.Utf8.tails]
  · have front : 0xC0 ||| (n >>> 6) = 0xC0 + n / 64 := by
      rw [Nat.shiftRight_eq_div_pow]
      exact lead_bits (i := 6) (a := 3) (by omega)
    rw [if_neg (by omega), if_pos class_, Kjdmud.Utf8.sequence, shortest, front, tail_bits]
    rfl
  · have front : 0xE0 ||| (n >>> 12) = 0xE0 + n / 64 ^ 2 := by
      rw [Nat.shiftRight_eq_div_pow]
      exact lead_bits (i := 5) (a := 7) (by omega)
    have second : n >>> 6 = n / 64 := Nat.shiftRight_eq_div_pow n 6
    rw [if_neg (by omega), if_neg (by omega), if_pos class_, Kjdmud.Utf8.sequence, shortest, front,
      tail_bits, tail_bits, second]
    rfl
  · have front : 0xF0 ||| (n >>> 18) = 0xF0 + n / 64 ^ 3 := by
      rw [Nat.shiftRight_eq_div_pow]
      exact lead_bits (i := 4) (a := 15) (by omega)
    have second : n >>> 12 = n / 64 / 64 := by
      rw [Nat.shiftRight_eq_div_pow, Nat.div_div_eq_div_mul]
    have third : n >>> 6 = n / 64 := Nat.shiftRight_eq_div_pow n 6
    rw [if_neg (by omega), if_neg (by omega), if_neg (by omega), Kjdmud.Utf8.sequence, shortest,
      front, tail_bits, tail_bits, tail_bits, second, third]
    rfl

/-! ## Arrays of integers -/

/-- A scalar value other than 0, as an integer of the machine. -/
def ScalarInt (cp : Int64) : Prop :=
  0 < cp.toInt ∧ Scalar cp.toInt.toNat

theorem arrLoop_ints {cps : List Int64} (all : ∀ cp ∈ cps, ScalarInt cp) (more : List Value)
    (out : Str) :
    arrLoop (cps.map Value.int ++ more) out =
      arrLoop more (out ++ Kjdmud.Utf8.encode (cps.map fun cp => cp.toInt.toNat)) := by
  induction cps generalizing out with
  | nil => simp [Kjdmud.Utf8.encode]
  | cons cp cps ih =>
      obtain ⟨positive, scalar⟩ := all cp List.mem_cons_self
      have some_ : cp ≠ 0 := by
        rintro rfl
        exact absurd positive (by decide)
      have step : arrLoop ((cp :: cps).map Value.int ++ more) out =
          if cp = 0 then .ok out
          else arrLoop (cps.map Value.int ++ more) (encodeCodePointUtf8 out cp) := rfl
      rw [step, if_neg some_, ih fun cp mem => all cp (List.mem_cons_of_mem _ mem),
        encodeCodePointUtf8_eq out positive.le scalar]
      simp [Kjdmud.Utf8.encode]

theorem items_newInts (w : World) (ints : List Int64) :
    (newInts w ints).1.items (some w.arrays.length) = ints.map Value.int := by
  simp [newInts, World.newArray, World.items, World.array]

/-- Scalar values, up to the end or to a 0, are written one behind the other. -/
theorem arrToStr_newInts (w : World) {cps rest : List Int64} (all : ∀ cp ∈ cps, ScalarInt cp)
    (ends : rest = [] ∨ rest = [0]) :
    arrToStr (newInts w (cps ++ rest)).1 [(newInts w (cps ++ rest)).2] =
      .ok (Value.string (Kjdmud.Utf8.encode (cps.map fun cp => cp.toInt.toNat))) := by
  have call : arrToStr (newInts w (cps ++ rest)).1 [(newInts w (cps ++ rest)).2] =
      Value.string <$>
        arrLoop ((newInts w (cps ++ rest)).1.items (some w.arrays.length)) [] := rfl
  have stop (out : Str) : arrLoop (rest.map Value.int) out = .ok out := by
    rcases ends with rfl | rfl <;> rfl
  rw [call, items_newInts, List.map_append, arrLoop_ints all, stop]
  rfl

theorem strToArr_eq (w : World) (s : Str) :
    strToArr w [Value.string s] =
      some (.ok (newInts w ((scalars s).map Int64.ofNat ++ [0]))) := by
  have call : strToArr w [Value.string s] =
      (decodeUtf8ToCodePoints s).map fun cps =>
        .ok (newInts w (cps.map Int64.ofNat ++ [0])) := rfl
  rw [call, decodeUtf8ToCodePoints_eq]
  rfl

theorem toInt_ofNat {cp : Nat} (scalar : Scalar cp) : (Int64.ofNat cp).toInt = cp :=
  Int64.toInt_ofNat_of_lt (by unfold Scalar at scalar; omega)

theorem toNat_ofNat {cps : List Nat} (all : ∀ cp ∈ cps, Scalar cp) :
    (cps.map Int64.ofNat).map (fun cp => cp.toInt.toNat) = cps := by
  have each : ∀ cp ∈ cps, ((fun cp : Int64 => cp.toInt.toNat) ∘ Int64.ofNat) cp = id cp := by
    intro cp mem
    rw [Function.comp_apply, toInt_ofNat (all cp mem)]
    rfl
  rw [List.map_map, List.map_congr_left each, List.map_id]

theorem ofNat_toNat {cps : List Int64} (all : ∀ cp ∈ cps, ScalarInt cp) :
    (cps.map fun cp => cp.toInt.toNat).map Int64.ofNat = cps := by
  have each : ∀ cp ∈ cps, (Int64.ofNat ∘ fun cp : Int64 => cp.toInt.toNat) cp = id cp := by
    intro cp mem
    have positive := (all cp mem).1
    apply Int64.toInt_inj.mp
    rw [Function.comp_apply, toInt_ofNat (all cp mem).2, Int.toNat_of_nonneg positive.le]
    rfl
  rw [List.map_map, List.map_congr_left each, List.map_id]

/-! ## The law -/

/-- The string that `arr_to_str` makes of an array of integers. -/
def Writes (ints : List Int64) (s : Str) : Prop :=
  ∀ w, arrToStr (newInts w ints).1 [(newInts w ints).2] = .ok (Value.string s)

/-- The array of integers that `str_to_arr` makes of a string, with no read outside. -/
def Reads (s : Str) (ints : List Int64) : Prop :=
  ∀ w, strToArr w [Value.string s] = some (.ok (newInts w ints))

theorem reads_scalars (s : Str) : Reads s ((scalars s).map Int64.ofNat ++ [0]) :=
  fun w => strToArr_eq w s

/-- The scalar values of a string without a NUL are written again. -/
theorem writes_scalars {s : Str} (free : 0 ∉ s) :
    Writes ((scalars s).map Int64.ofNat ++ [0]) (Kjdmud.Utf8.encode (scalars s)) := by
  have each : ∀ cp ∈ scalars s, Scalar cp := fun cp mem => Kjdmud.Utf8.scalar_of_mem_scalars mem
  have all : ∀ cp ∈ (scalars s).map Int64.ofNat, ScalarInt cp := by
    intro cp mem
    obtain ⟨n, found, rfl⟩ := List.mem_map.mp mem
    have some_ : n ≠ 0 := by
      rintro rfl
      exact Kjdmud.Utf8.zero_not_mem_scalars free found
    rw [ScalarInt, toInt_ofNat (each n found)]
    exact ⟨by omega, each n found⟩
  intro w
  rw [arrToStr_newInts w all (.inr rfl), toNat_ofNat each]

/-- `arr_to_str` and `str_to_arr` invert each other, and any string at all is read as the
scalar values whose bytes stand in it. -/
theorem utf8_law :
    (∀ cps : List Int64, (∀ cp ∈ cps, ScalarInt cp) →
      ∃ s, Writes cps s ∧ Reads s (cps ++ [0])) ∧
    (∀ s : Str, 0 ∉ s → Valid s → ∃ ints, Reads s ints ∧ Writes ints s) ∧
    (∀ s : Str, ∃ cps : List Int64, Reads s (cps ++ [0]) ∧
      (∀ cp ∈ cps, 0 ≤ cp.toInt ∧ Scalar cp.toInt.toNat) ∧
      cps.map (fun cp => cp.toInt.toNat) = scalars s) ∧
    ∀ s : Str, 0 ∉ s → ∃ ints t, Reads s ints ∧ Writes ints t ∧ Reads t ints := by
  refine ⟨fun cps all => ?_, fun s free valid => ?_, fun s => ?_, fun s free => ?_⟩
  · have each : ∀ cp ∈ cps.map fun cp => cp.toInt.toNat, Scalar cp := by
      intro n mem
      obtain ⟨cp, found, rfl⟩ := List.mem_map.mp mem
      exact (all cp found).2
    refine ⟨Kjdmud.Utf8.encode (cps.map fun cp => cp.toInt.toNat), fun w => ?_, fun w => ?_⟩
    · have written := arrToStr_newInts w all (.inl (rfl : ([] : List Int64) = []))
      rwa [List.append_nil] at written
    · rw [strToArr_eq, Kjdmud.Utf8.scalars_encode each, ofNat_toNat all]
  · refine ⟨_, reads_scalars s, ?_⟩
    have written := writes_scalars free
    rwa [Kjdmud.Utf8.encode_scalars valid] at written
  · have each : ∀ cp ∈ scalars s, Scalar cp :=
      fun cp mem => Kjdmud.Utf8.scalar_of_mem_scalars mem
    refine ⟨_, reads_scalars s, fun cp mem => ?_, toNat_ofNat each⟩
    obtain ⟨n, found, rfl⟩ := List.mem_map.mp mem
    rw [toInt_ofNat (each n found)]
    exact ⟨Int.natCast_nonneg n, each n found⟩
  · have back := reads_scalars (Kjdmud.Utf8.encode (scalars s))
    rw [Kjdmud.Utf8.scalars_encode fun cp mem => Kjdmud.Utf8.scalar_of_mem_scalars mem] at back
    exact ⟨_, _, reads_scalars s, writes_scalars free, back⟩

end Kjdmud.Efun.Utf8
