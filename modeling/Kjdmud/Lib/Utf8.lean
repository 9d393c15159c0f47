import Mathlib.Algebra.Group.Nat.Defs
import Mathlib.Data.List.Induction
import Mathlib.Data.List.Infix

/-!
# UTF-8

A scalar value is written as a lead byte and at most three tail bytes of six bits each, in the
shortest length class it fits in.  A tail byte never starts a sequence, so the scalar values in
a byte sequence are those that start at its positions, whatever else stands there.
-/

namespace Kjdmud.Utf8

/-- A Unicode scalar value. -/
def Scalar (cp : Nat) : Prop :=
  cp ≤ 0x10FFFF ∧ ¬ (0xD800 ≤ cp ∧ cp ≤ 0xDFFF)

instance (cp : Nat) : Decidable (Scalar cp) :=
  inferInstanceAs (Decidable (_ ∧ _))

/-! ## Tail bytes -/

def IsTail (c : UInt8) : Prop :=
  0x80 ≤ c.toNat ∧ c.toNat < 0xC0

instance (c : UInt8) : Decidable (IsTail c) :=
  inferInstanceAs (Decidable (_ ∧ _))

instance (bytes : List UInt8) : Decidable (∀ c ∈ bytes, IsTail c) :=
  List.decidableBAll IsTail bytes

/-- The last `n` digits of six bits. -/
def tails : Nat → Nat → List UInt8
  | 0, _ => []
  | n + 1, cp => tails n (cp / 64) ++ [UInt8.ofNat (0x80 + cp % 64)]

/-- The digits of tail bytes behind a number. -/
def value (v : Nat) (bytes : List UInt8) : Nat :=
  bytes.foldl (fun v c => v * 64 + c.toNat % 64) v

theorem toNat_tail (cp : Nat) : (UInt8.ofNat (0x80 + cp % 64)).toNat = 0x80 + cp % 64 := by
  rw [UInt8.toNat_ofNat']
  omega

theorem length_tails (n cp : Nat) : (tails n cp).length = n := by
  induction n generalizing cp with
  | zero => rfl
  | succ n ih => rw [tails, List.length_append, ih]; rfl

theorem isTail_of_mem_tails {n cp : Nat} {c : UInt8} (mem : c ∈ tails n cp) : IsTail c := by
  induction n generalizing cp with
  | zero => contradiction
  | succ n ih =>
      rcases List.mem_append.mp mem with earlier | last
      · exact ih earlier
      · rw [List.mem_singleton.mp last, IsTail, toNat_tail]
        omega

theorem value_append (v : Nat) (bytes : List UInt8) (c : UInt8) :
    value v (bytes ++ [c]) = value v bytes * 64 + c.toNat % 64 := by
  rw [value, List.foldl_append]
  rfl

/-- The digits make up the number. -/
theorem value_tails (n cp : Nat) : value (cp / 64 ^ n) (tails n cp) = cp := by
  induction n generalizing cp with
  | zero => simp [value, tails]
  | succ n ih =>
      have prior := ih (cp / 64)
      rw [Nat.div_div_eq_div_mul, ← Nat.pow_succ'] at prior
      rw [tails, value_append, prior, toNat_tail]
      omega

theorem value_div (v : Nat) (bytes : List UInt8) : value v bytes / 64 ^ bytes.length = v := by
  induction bytes using List.reverseRecOn with
  | nil => simp [value]
  | append_singleton bytes c ih =>
      have digit : (value v bytes * 64 + c.toNat % 64) / 64 = value v bytes := by omega
      rw [value_append, List.length_append, List.length_singleton, Nat.pow_succ',
        ← Nat.div_div_eq_div_mul, digit, ih]

/-- The tail bytes are the digits of their number. -/
theorem tails_value (v : Nat) {bytes : List UInt8} (all : ∀ c ∈ bytes, IsTail c) :
    tails bytes.length (value v bytes) = bytes := by
  induction bytes using List.reverseRecOn with
  | nil => rfl
  | append_singleton bytes c ih =>
      have last : IsTail c := all c (by simp)
      have digit : (value v bytes * 64 + c.toNat % 64) / 64 = value v bytes := by omega
      have byte : 0x80 + (value v bytes * 64 + c.toNat % 64) % 64 = c.toNat := by
        unfold IsTail at last
        omega
      rw [value_append, List.length_append, List.length_singleton, tails, digit, byte,
        ih fun c mem => all c (by simp [mem]), UInt8.ofNat_toNat]

/-! ## Lead bytes -/

/-- The number of tail bytes of a scalar value. -/
def extraOf (cp : Nat) : Nat :=
  if cp < 0x80 then 0 else if cp < 0x800 then 1 else if cp < 0x10000 then 2 else 3

/-- Where the lead bytes of a length class start. -/
def leadBase : Nat → Nat
  | 0 => 0
  | 1 => 0xC0
  | 2 => 0xE0
  | _ => 0xF0

/-- The bits in a lead byte, and the number of tail bytes it announces. -/
def lead (c : UInt8) : Option (Nat × Nat) :=
  if c.toNat < 0x80 then some (c.toNat, 0)
  else if c.toNat < 0xC0 then none
  else if c.toNat < 0xE0 then some (c.toNat - 0xC0, 1)
  else if c.toNat < 0xF0 then some (c.toNat - 0xE0, 2)
  else if c.toNat < 0xF8 then some (c.toNat - 0xF0, 3)
  else none

theorem lead_of_isTail {c : UInt8} (tail : IsTail c) : lead c = none := by
  unfold IsTail at tail
  unfold lead
  rw [if_neg (by omega), if_pos (by omega)]

/-- The bytes of a scalar value. -/
def sequence (cp : Nat) : List UInt8 :=
  UInt8.ofNat (leadBase (extraOf cp) + cp / 64 ^ extraOf cp) :: tails (extraOf cp) cp

/-- The number of values that the bits of a lead byte have. -/
def leadRoom : Nat → Nat
  | 0 => 0x80
  | 1 => 0x20
  | 2 => 0x10
  | _ => 0x08

/-- A lead byte is where its class starts, with the bits behind. -/
theorem eq_of_lead {c : UInt8} {v n : Nat} (leads : lead c = some (v, n)) :
    c = UInt8.ofNat (leadBase n + v) ∧ n ≤ 3 := by
  have whole : leadBase n + v = c.toNat ∧ n ≤ 3 := by
    unfold lead at leads
    split_ifs at leads <;> obtain ⟨rfl, rfl⟩ := Prod.mk.inj (Option.some.inj leads) <;>
      simp only [leadBase] <;> omega
  rw [whole.1, UInt8.ofNat_toNat]
  exact ⟨rfl, whole.2⟩

theorem lt_leadRoom_of_lead {c : UInt8} {v n : Nat} (leads : lead c = some (v, n)) :
    v < leadRoom n := by
  unfold lead at leads
  split_ifs at leads <;> obtain ⟨rfl, rfl⟩ := Prod.mk.inj (Option.some.inj leads) <;>
    simp only [leadRoom] <;> omega

theorem lead_ofNat {n v : Nat} (class_ : n ≤ 3) (room : v < leadRoom n) :
    lead (UInt8.ofNat (leadBase n + v)) = some (v, n) := by
  have byte : (UInt8.ofNat (leadBase n + v)).toNat = (leadBase n + v) % 256 :=
    UInt8.toNat_ofNat'
  unfold lead
  rw [byte]
  obtain rfl | rfl | rfl | rfl : n = 0 ∨ n = 1 ∨ n = 2 ∨ n = 3 := by omega
  all_goals
    simp only [leadBase, leadRoom] at room ⊢
    split_ifs
    all_goals first | omega | simp only [Option.some.injEq, Prod.mk.injEq, and_true]; omega

theorem extraOf_cases (cp : Nat) :
    cp < 0x80 ∧ extraOf cp = 0 ∨ 0x80 ≤ cp ∧ cp < 0x800 ∧ extraOf cp = 1 ∨
      0x800 ≤ cp ∧ cp < 0x10000 ∧ extraOf cp = 2 ∨ 0x10000 ≤ cp ∧ extraOf cp = 3 := by
  unfold extraOf
  split_ifs <;> simp <;> omega

theorem extraOf_le (cp : Nat) : extraOf cp ≤ 3 := by
  unfold extraOf
  split_ifs <;> omega

/-- A scalar value fits in its class. -/
theorem div_lt_leadRoom {cp : Nat} (scalar : Scalar cp) :
    cp / 64 ^ extraOf cp < leadRoom (extraOf cp) := by
  have bound := scalar.1
  unfold extraOf
  split_ifs <;> simp only [leadRoom] <;> omega

/-! ## Sequences -/

/-- The scalar value whose bytes stand at the front of a text. -/
def readScalar : List UInt8 → Option Nat
  | [] => none
  | c :: rest =>
      match lead c with
      | none => none
      | some (v, n) =>
          let cp := value v (rest.take n)
          if n ≤ rest.length ∧ (∀ c ∈ rest.take n, IsTail c) ∧ extraOf cp = n ∧ Scalar cp then
            some cp
          else none

theorem readScalar_sequence {cp : Nat} (scalar : Scalar cp) (rest : List UInt8) :
    readScalar (sequence cp ++ rest) = some cp := by
  have length := length_tails (extraOf cp) cp
  have taken : (tails (extraOf cp) cp ++ rest).take (extraOf cp) = tails (extraOf cp) cp :=
    List.take_left' length
  rw [sequence, List.cons_append, readScalar,
    lead_ofNat (extraOf_le cp) (div_lt_leadRoom scalar)]
  dsimp only
  rw [taken, value_tails]
  exact if_pos ⟨by rw [List.length_append]; omega, fun c mem => isTail_of_mem_tails mem, rfl,
    scalar⟩

/-- The front of a text is read where it is the bytes of a scalar value. -/
theorem readScalar_iff {text : List UInt8} {cp : Nat} :
    readScalar text = some cp ↔ Scalar cp ∧ sequence cp <+: text := by
  constructor
  · intro reads
    cases text with
    | nil => contradiction
    | cons c rest =>
        rw [readScalar] at reads
        cases leads : lead c with
        | none =>
            rw [leads] at reads
            contradiction
        | some pair =>
            obtain ⟨v, n⟩ := pair
            rw [leads] at reads
            simp only at reads
            split_ifs at reads with fits
            obtain ⟨room, all, shortest, scalar⟩ := fits
            have length : (rest.take n).length = n := List.length_take_of_le room
            have back := tails_value v all
            have front := value_div v (rest.take n)
            rw [length] at back front
            cases reads
            rw [sequence, shortest, back, front, ← (eq_of_lead leads).1]
            refine ⟨scalar, rest.drop n, ?_⟩
            rw [List.cons_append, List.take_append_drop]
  · rintro ⟨scalar, rest, rfl⟩
    exact readScalar_sequence scalar rest

theorem readScalar_of_isTail {c : UInt8} (tail : IsTail c) (rest : List UInt8) :
    readScalar (c :: rest) = none := by
  rw [readScalar, lead_of_isTail tail]

/-! ## Texts -/

/-- The scalar values whose bytes stand somewhere in a text, in their order. -/
def scalars (text : List UInt8) : List Nat :=
  text.tails.filterMap readScalar

theorem scalars_nil : scalars [] = [] :=
  rfl

theorem scalars_cons (c : UInt8) (rest : List UInt8) :
    scalars (c :: rest) = (readScalar (c :: rest)).toList ++ scalars rest := by
  rw [scalars, List.tails, List.filterMap_cons]
  cases readScalar (c :: rest) <;> rfl

theorem scalars_of_none {c : UInt8} {rest : List UInt8} (none_ : readScalar (c :: rest) = none) :
    scalars (c :: rest) = scalars rest := by
  rw [scalars_cons, none_]
  rfl

/-- Nothing starts at a tail byte. -/
theorem scalars_tails {bytes : List UInt8} (all : ∀ c ∈ bytes, IsTail c) (rest : List UInt8) :
    scalars (bytes ++ rest) = scalars rest := by
  induction bytes with
  | nil => rfl
  | cons c bytes ih =>
      rw [List.cons_append, scalars_of_none (readScalar_of_isTail (all c List.mem_cons_self) _),
        ih fun c mem => all c (List.mem_cons_of_mem _ mem)]

theorem scalars_sequence {cp : Nat} (scalar : Scalar cp) (rest : List UInt8) :
    scalars (sequence cp ++ rest) = cp :: scalars rest := by
  have reads := readScalar_sequence scalar rest
  have tail (c : UInt8) (mem : c ∈ tails (extraOf cp) cp) : IsTail c := isTail_of_mem_tails mem
  have skips := scalars_tails tail rest
  rw [sequence, List.cons_append] at reads ⊢
  rw [scalars_cons, reads, skips]
  rfl

theorem scalar_of_mem_scalars {text : List UInt8} {cp : Nat} (mem : cp ∈ scalars text) :
    Scalar cp := by
  obtain ⟨front, _, reads⟩ := List.mem_filterMap.mp mem
  exact (readScalar_iff.mp reads).1

/-- The text of scalar values. -/
def encode (cps : List Nat) : List UInt8 :=
  cps.flatMap sequence

/-- What is written is read back. -/
theorem scalars_encode {cps : List Nat} (all : ∀ cp ∈ cps, Scalar cp) :
    scalars (encode cps) = cps := by
  induction cps with
  | nil => rfl
  | cons cp cps ih =>
      have step : encode (cp :: cps) = sequence cp ++ encode cps := rfl
      rw [step, scalars_sequence (all cp List.mem_cons_self),
        ih fun cp mem => all cp (List.mem_cons_of_mem _ mem)]

/-- A text that is all scalar values. -/
def Valid (text : List UInt8) : Prop :=
  ∃ cps, (∀ cp ∈ cps, Scalar cp) ∧ text = encode cps

theorem encode_scalars {text : List UInt8} (valid : Valid text) : encode (scalars text) = text := by
  obtain ⟨cps, all, rfl⟩ := valid
  rw [scalars_encode all]

/-- The value 0 is written by a NUL only. -/
theorem zero_not_mem_scalars {text : List UInt8} (free : 0 ∉ text) : 0 ∉ scalars text := by
  intro mem
  obtain ⟨front, isTail, reads⟩ := List.mem_filterMap.mp mem
  obtain ⟨_, starts⟩ := readScalar_iff.mp reads
  have nul : (0 : UInt8) ∈ sequence 0 := by decide
  exact free (((List.mem_tails _ _).mp isTail).subset (starts.subset nul))

end Kjdmud.Utf8
