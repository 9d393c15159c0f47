import Kjdmud.Efun.FileEfuns
import Kjdmud.Vm.Value
import Mathlib.Logic.Function.Basic

/-!
# Windows of buffers and files

`read_buffer` and `write_buffer` of `src/efun/EfunTable.cpp` with a buffer as first argument,
and the window that `read_bytes` reads of a file.  Every sum is checked: one that leaves
`int64_t` is undefined, and so is an access outside the bytes.
-/

namespace Kjdmud.Efun.Buffers

open Kjdmud.Vm (Ref)

/-- A `std::vector<unsigned char>` or a `std::string`: its size is an `int64_t`. -/
structure Bytes where
  bytes : Str
  fits : bytes.length < 2 ^ 63

namespace Bytes

def size (b : Bytes) : Int := b.bytes.length

theorem size_nonneg (b : Bytes) : 0 ≤ b.size := Int.natCast_nonneg _

theorem size_lt (b : Bytes) : b.size < 2 ^ 63 := by
  have fits := b.fits
  unfold size
  omega

end Bytes

/-- The buffers, each by the pointer that is shared. -/
abbrev Heap := Ref → Bytes

/-- An argument behind the first. -/
inductive Arg
  | int (i : Int64)
  | string (s : Bytes)
  | buffer (ref : Option Ref)
  | other

/-- What the efuns return. -/
inductive Result
  | int (i : Int64)
  | string (s : Str)
deriving DecidableEq

/-! ## The efuns -/

/-- An offset below zero counts from the end. -/
def fromStart (size start : Int) : Option Int :=
  if start < 0 then int64 (size + start) else some start

/-- The length 0 asks for all bytes. -/
def asked (size len : Int) : Int :=
  if len = 0 then size else len

/-- A length that ends where the bytes end. -/
def shortened (size start len : Int) : Option Int := do
  let behind ← int64 (start + len)
  if size < behind then int64 (size - start) else some len

/-- An element of a vector. -/
def byteAt (bytes : Str) (i : Int) : Option UInt8 :=
  if 0 ≤ i then bytes[i.toNat]? else none

/-- The loop of `read_buffer`, with the number of bytes still to read. -/
def readLoop (bytes : Str) (start : Int) : Nat → Int → Str → Option Str
  | 0, _, out => some out
  | left + 1, i, out => do
      let c ← byteAt bytes (← int64 (start + i))
      -- the reader stops at the first NUL
      if c = 0 then some out else readLoop bytes start left (← int64 (i + 1)) (out ++ [c])

/-- `read_buffer` of a buffer. -/
def readWindow (b : Bytes) (start len : Int) : Option Result := do
  let size := b.size
  if len < 0 then return .int 0
  let start ← fromStart size start
  if start < 0 then return .int 0
  let len := asked size len
  if size ≤ start then return .int 0
  let len ← shortened size start len
  return .string (← readLoop b.bytes start len.toNat 0 [])

/-- `read_buffer` with a buffer as first argument; a null pointer is read through. -/
def readBuffer (heap : Heap) (src : Option Ref) (args : List Arg) :
    Option (Except Str Result) :=
  match args[0]?.getD (.int 0), args[1]?.getD (.int 0) with
  | .int start, .int len => do
      let ref ← src
      .ok <$> readWindow (heap ref) start.toInt len.toInt
  | .int _, _ => some (.error (str "read_buffer: len argument must be an int"))
  | _, _ => some (.error (str "read_buffer: start argument must be an int"))

/-- `htonl` of the low 32 bits, byte by byte. -/
def networkBytes (i : Int64) : Str :=
  [24, 16, 8, 0].map fun shift => UInt8.ofNat (i.toUInt64.toNat / 2 ^ shift)

/-- The bytes that `write_buffer` writes. -/
def payload (heap : Heap) : Arg → Option Bytes
  | .int i => some ⟨networkBytes i, by simp [networkBytes]⟩
  | .string s => some s
  | .buffer ref => some ((ref.map heap).getD ⟨[], by simp⟩)
  | .other => none

/-- `memcpy`. -/
def copyBytes : Str → Int → Str → Option Str
  | dst, _, [] => some dst
  | dst, i, c :: rest =>
      if 0 ≤ i ∧ i < dst.length then copyBytes (dst.set i.toNat c) (i + 1) rest else none

theorem length_copyBytes {dst dst' : Str} {start : Int} {data : Str}
    (copied : copyBytes dst start data = some dst') : dst'.length = dst.length := by
  induction data generalizing dst start with
  | nil =>
      cases copied
      rfl
  | cons c rest ih =>
      unfold copyBytes at copied
      split_ifs at copied
      rw [ih copied, List.length_set]

/-- `memcpy` into a vector. -/
def Bytes.copied (b : Bytes) (start : Int) (data : Str) : Option Bytes :=
  match copied : copyBytes b.bytes start data with
  | none => none
  | some bytes => some ⟨bytes, by rw [length_copyBytes copied]; exact b.fits⟩

/-- `write_buffer` into a buffer. -/
def writeWindow (heap : Heap) (dst : Ref) (start : Int) (data : Bytes) :
    Option (Heap × Result) := do
  let size := (heap dst).size
  let start ← fromStart size start
  if start < 0 then return (heap, .int 0)
  let behind ← int64 (start + data.size)
  if size < behind then return (heap, .int 0)
  return (Function.update heap dst (← (heap dst).copied start data.bytes), .int 1)

/-- `write_buffer` with a buffer as first argument. -/
def writeBuffer (heap : Heap) (dst : Option Ref) (args : List Arg) :
    Option (Except Str (Heap × Result)) :=
  match args with
  | .int start :: data :: _ =>
      match dst with
      | none => some (.error (str "write_buffer: first argument must be a string or a buffer"))
      | some dst =>
          match payload heap data with
          | none => some (.error
              (str "write_buffer: data argument must be a string, a buffer, or an int"))
          | some data => .ok <$> writeWindow heap dst start.toInt data
  | _ => some (.error (str "write_buffer: expected (string | buffer, int, string | buffer | int)"))

/-- `read_bytes` of a file that passed the gate: nothing when it cannot be opened. -/
def readBytes (file : Option Bytes) (start len : Int64) : Option Result := do
  let start := start.toInt
  let len := len.toInt
  if len < 0 then return .int 0
  let some f := file | return .int 0
  let size := f.size
  let start ← fromStart size start
  if start < 0 ∨ size ≤ start then return .int 0
  let len := asked size len
  let len ← shortened size start len
  let data := (f.bytes.drop start.toNat).take len.toNat
  if data = [] then return .int 0
  return .string data

/-! ## What they should do -/

/-- Where an offset points to: one below zero counts from the end. -/
def origin (size : Int) (start : Int64) : Int :=
  if start.toInt < 0 then size + start.toInt else start.toInt

/-- `len` bytes behind an offset, and all of them for 0. -/
def slice (b : Bytes) (start len : Int64) : Str :=
  let behind := b.bytes.drop (origin b.size start).toNat
  if len = 0 then behind else behind.take len.toInt.toNat

/-- No window: a negative length, or an offset outside the bytes. -/
def NoWindow (size : Int) (start len : Int64) : Prop :=
  len.toInt < 0 ∨ origin size start < 0 ∨ size ≤ origin size start

instance (size : Int) (start len : Int64) : Decidable (NoWindow size start len) :=
  inferInstanceAs (Decidable (_ ∨ _))

/-- What `read_buffer` should return. -/
def bufferWindow (b : Bytes) (start len : Int64) : Result :=
  if NoWindow b.size start len then .int 0
  else .string ((slice b start len).takeWhile (· ≠ 0))

/-- What `read_bytes` should return. -/
def fileWindow (file : Option Bytes) (start len : Int64) : Result :=
  match file with
  | none => .int 0
  | some f => if NoWindow f.size start len then .int 0 else .string (slice f start len)

/-- The data overwrite as many bytes behind an offset. -/
structure Overwrites (start : Int64) (data old new : Bytes) : Prop where
  lower : 0 ≤ origin old.size start
  upper : origin old.size start + data.size ≤ old.size
  bytes : new.bytes = old.bytes.take (origin old.size start).toNat ++ data.bytes ++
    old.bytes.drop (origin old.size start + data.size).toNat

/-- How `write_buffer` should end: with 0 and no change, or with 1 and the data written. -/
inductive Written (heap : Heap) (dst : Ref) (start : Int64) (data : Bytes) :
    Heap → Result → Prop
  | refused (outside : origin (heap dst).size start < 0 ∨
        (heap dst).size < origin (heap dst).size start + data.size) :
      Written heap dst start data heap (.int 0)
  | done (new : Bytes) (overwrites : Overwrites start data (heap dst) new) :
      Written heap dst start data (Function.update heap dst new) (.int 1)

/-! ## When they do -/

/-- The end of a window is an `int64_t`. -/
def ReadFits (size : Int) (start len : Int64) : Prop :=
  ¬ NoWindow size start len → origin size start + asked size len.toInt < 2 ^ 63

def WriteFits (size : Int) (start : Int64) (data : Bytes) : Prop :=
  0 ≤ origin size start → origin size start + data.size < 2 ^ 63

theorem int64_of_ge {z : Int} (beyond : 2 ^ 63 ≤ z) : int64 z = none :=
  if_neg fun bounds => Int.not_lt.mpr beyond bounds.2

/-- The offset is normalised without an overflow. -/
theorem fromStart_eq (b : Bytes) (start : Int64) :
    fromStart b.size start.toInt = some (origin b.size start) := by
  have lower := start.le_toInt
  have nonneg := b.size_nonneg
  have upper := b.size_lt
  unfold fromStart origin
  split_ifs with negative
  · exact int64_of_fits ⟨by omega, by omega⟩
  · rfl

/-- A window is shortened to the bytes unless its end is too far. -/
theorem shortened_eq {size start len : Int} (lower : 0 ≤ start) (inside : start < size)
    (small : size < 2 ^ 63) (nonneg : 0 ≤ len) :
    shortened size start len =
      if start + len < 2 ^ 63 then some (min len (size - start)) else none := by
  unfold shortened
  split_ifs with fits
  · rw [int64_of_fits ⟨by omega, fits⟩, Option.bind_eq_bind, Option.bind_some]
    split_ifs with beyond
    · rw [int64_of_fits ⟨by omega, by omega⟩, min_eq_right (by omega)]
    · rw [min_eq_left (by omega)]
  · rw [int64_of_ge (by omega)]
    rfl

theorem byteAt_of_inside {bytes : Str} {i : Int} (lower : 0 ≤ i)
    (upper : i.toNat < bytes.length) : byteAt bytes i = some bytes[i.toNat] := by
  rw [byteAt, if_pos lower]
  exact List.getElem?_eq_getElem _

/-- The loop reads up to the first NUL. -/
theorem readLoop_eq {bytes : Str} {start i : Int} {left : Nat} (out : Str)
    (small : (bytes.length : Int) < 2 ^ 63) (lower : 0 ≤ start) (nonneg : 0 ≤ i)
    (inside : start + i + left ≤ bytes.length) :
    readLoop bytes start left i out =
      some (out ++ ((bytes.drop (start + i).toNat).take left).takeWhile (· ≠ 0)) := by
  induction left generalizing i out with
  | zero => simp [readLoop]
  | succ left ih =>
      have position : (start + i).toNat < bytes.length := by omega
      simp only [readLoop, Option.bind_eq_bind]
      rw [int64_of_fits ⟨by omega, by omega⟩, Option.bind_some,
        byteAt_of_inside (by omega) position, Option.bind_some,
        List.drop_eq_getElem_cons position, List.take_succ_cons]
      by_cases nul : bytes[(start + i).toNat] = 0
      · simp [nul]
      · have next : (start + i).toNat + 1 = (start + (i + 1)).toNat := by omega
        rw [if_neg nul, int64_of_fits ⟨by omega, by omega⟩, Option.bind_some,
          ih _ (by omega) (by omega), List.takeWhile_cons_of_pos (by simpa using nul), next]
        simp

theorem asked_pos {s n : Int} (some_ : 0 < s) (nonneg : 0 ≤ n) : 0 < asked s n := by
  unfold asked
  split_ifs <;> omega

/-- A slice, as the shortened length cuts it. -/
theorem slice_eq (b : Bytes) {start len : Int64} (window : ¬ NoWindow b.size start len) :
    slice b start len = (b.bytes.drop (origin b.size start).toNat).take
      (min (asked b.size len.toInt) (b.size - origin b.size start)).toNat := by
  unfold NoWindow at window
  have size : b.size = b.bytes.length := rfl
  unfold slice asked
  split_ifs with all whole whole
  · rw [List.take_of_length_le]
    rw [List.length_drop]
    omega
  · exact absurd (by rw [all]; rfl) whole
  · exact absurd (Int64.toInt_inj.mp (by rw [whole]; rfl)) all
  · rcases le_total len.toInt (b.size - origin b.size start) with short | long
    · rw [min_eq_left short]
    · rw [min_eq_right long, List.take_of_length_le (by rw [List.length_drop]; omega),
        List.take_of_length_le (by rw [List.length_drop]; omega)]

theorem slice_ne_nil (b : Bytes) {start len : Int64} (window : ¬ NoWindow b.size start len) :
    slice b start len ≠ [] := by
  have size : b.size = b.bytes.length := rfl
  rw [slice_eq b window]
  unfold NoWindow at window
  have positive := asked_pos (s := b.size) (n := len.toInt) (by omega) (by omega)
  rw [ne_eq, List.take_eq_nil_iff, List.drop_eq_nil_iff]
  omega

theorem readWindow_of_noWindow {b : Bytes} {start len : Int64}
    (none_ : NoWindow b.size start len) :
    readWindow b start.toInt len.toInt = some (.int 0) := by
  unfold NoWindow at none_
  unfold readWindow
  by_cases negative : len.toInt < 0
  · rw [if_pos negative]
    rfl
  · rw [if_neg negative, fromStart_eq]
    simp only [Option.bind_eq_bind, Option.bind_some]
    by_cases before : origin b.size start < 0
    · rw [if_pos before]
      rfl
    · rw [if_neg before, if_pos (by omega)]
      rfl

theorem readWindow_of_window {b : Bytes} {start len : Int64}
    (window : ¬ NoWindow b.size start len) :
    readWindow b start.toInt len.toInt =
      if origin b.size start + asked b.size len.toInt < 2 ^ 63 then
        some (.string ((slice b start len).takeWhile (· ≠ 0)))
      else none := by
  have small := b.size_lt
  have size : b.size = b.bytes.length := rfl
  rw [slice_eq b window]
  unfold NoWindow at window
  unfold readWindow
  rw [if_neg (by omega), fromStart_eq]
  simp only [Option.bind_eq_bind, Option.bind_some]
  have positive := asked_pos (s := b.size) (n := len.toInt) (by omega) (by omega)
  rw [if_neg (by omega), if_neg (by omega),
    shortened_eq (by omega) (by omega) small positive.le]
  split_ifs with fits
  · rw [Option.bind_some, readLoop_eq [] (by omega) (by omega) (by omega) (by omega)]
    simp
  · rfl

/-- `read_buffer` returns the window exactly where the end of the window is an `int64_t`. -/
theorem readWindow_iff (b : Bytes) (start len : Int64) :
    readWindow b start.toInt len.toInt = some (bufferWindow b start len) ↔
      ReadFits b.size start len := by
  unfold ReadFits bufferWindow
  by_cases none_ : NoWindow b.size start len
  · simp [readWindow_of_noWindow none_, none_]
  · rw [readWindow_of_window none_, if_neg none_]
    simp [none_]

theorem readBytes_of_noWindow {f : Bytes} {start len : Int64}
    (none_ : NoWindow f.size start len) :
    readBytes (some f) start len = some (.int 0) := by
  unfold NoWindow at none_
  unfold readBytes
  by_cases negative : len.toInt < 0
  · rw [if_pos negative]
    rfl
  · rw [if_neg negative]
    simp only [fromStart_eq, Option.bind_eq_bind, Option.bind_some]
    rw [if_pos (by omega)]
    rfl

theorem readBytes_of_window {f : Bytes} {start len : Int64}
    (window : ¬ NoWindow f.size start len) :
    readBytes (some f) start len =
      if origin f.size start + asked f.size len.toInt < 2 ^ 63 then
        some (.string (slice f start len))
      else none := by
  have small := f.size_lt
  have filled := slice_ne_nil f window
  rw [slice_eq f window] at filled ⊢
  unfold NoWindow at window
  unfold readBytes
  rw [if_neg (by omega)]
  simp only [fromStart_eq, Option.bind_eq_bind, Option.bind_some]
  have positive := asked_pos (s := f.size) (n := len.toInt) (by omega) (by omega)
  rw [if_neg (by omega), shortened_eq (by omega) (by omega) small positive.le]
  split_ifs with fits
  · rw [Option.bind_some, if_neg filled]
    rfl
  · rfl

theorem readBytes_iff (file : Option Bytes) (start len : Int64) :
    readBytes file start len = some (fileWindow file start len) ↔
      ∀ f, file = some f → ReadFits f.size start len := by
  cases file with
  | none =>
      by_cases negative : len.toInt < 0 <;> simp [readBytes, fileWindow, negative]
  | some f =>
      simp only [Option.some.injEq, forall_eq']
      unfold ReadFits fileWindow
      by_cases none_ : NoWindow f.size start len
      · simp [readBytes_of_noWindow none_, none_]
      · rw [readBytes_of_window none_]
        simp [none_]

/-! ## Writing -/

/-- The copy of data that end where the bytes end, or before. -/
theorem copyBytes_eq {dst data : Str} {start : Int} (lower : 0 ≤ start)
    (upper : start + data.length ≤ dst.length) :
    copyBytes dst start data =
      some (dst.take start.toNat ++ data ++ dst.drop (start + data.length).toNat) := by
  induction data generalizing dst start with
  | nil => simp [copyBytes, List.take_append_drop]
  | cons c rest ih =>
      rw [List.length_cons] at upper
      have position : start.toNat < dst.length := by omega
      have next : (start + 1).toNat = start.toNat + 1 := by omega
      have behind : (start + 1 + (rest.length : Int)).toNat =
          (start + ((c :: rest).length : Int)).toNat := by
        rw [List.length_cons]
        omega
      rw [copyBytes, if_pos ⟨lower, by omega⟩, ih (by omega) (by rw [List.length_set]; omega),
        behind, next, List.take_add_one, List.take_set_of_le le_rfl,
        List.getElem?_set_self position, List.drop_set_of_lt (by rw [List.length_cons]; omega)]
      simp

theorem copied_eq (b : Bytes) (start : Int64) (data : Bytes) (lower : 0 ≤ origin b.size start)
    (upper : origin b.size start + data.size ≤ b.size) :
    ∃ new, b.copied (origin b.size start) data.bytes = some new ∧
      Overwrites start data b new := by
  have copy := copyBytes_eq lower upper
  unfold Bytes.copied
  split
  · rename_i fails
    rw [copy] at fails
    contradiction
  · rename_i bytes copies
    exact ⟨_, rfl, lower, upper, Option.some.inj (copies.symm.trans copy)⟩

/-- `write_buffer` writes the data or refuses exactly where their end is an `int64_t`. -/
theorem writeWindow_iff (heap : Heap) (dst : Ref) (start : Int64) (data : Bytes) :
    (∃ heap' result, writeWindow heap dst start.toInt data = some (heap', result) ∧
      Written heap dst start data heap' result) ↔
      WriteFits (heap dst).size start data := by
  have nonneg := data.size_nonneg
  unfold WriteFits writeWindow
  simp only [fromStart_eq, Option.bind_eq_bind, Option.bind_some]
  by_cases before : origin (heap dst).size start < 0
  · rw [if_pos before]
    simp only [not_le.mpr before, false_imp_iff, iff_true]
    exact ⟨heap, .int 0, rfl, .refused (.inl before)⟩
  · rw [if_neg before]
    simp only [not_lt.mp before, true_imp_iff]
    by_cases fits : origin (heap dst).size start + data.size < 2 ^ 63
    · rw [int64_of_fits ⟨by omega, fits⟩, Option.bind_some]
      simp only [fits, iff_true]
      by_cases beyond : (heap dst).size < origin (heap dst).size start + data.size
      · rw [if_pos beyond]
        exact ⟨heap, .int 0, rfl, .refused (.inr beyond)⟩
      · obtain ⟨new, copied, overwrites⟩ :=
          copied_eq (heap dst) start data (not_lt.mp before) (not_lt.mp beyond)
        rw [if_neg beyond, copied]
        exact ⟨_, .int 1, rfl, .done new overwrites⟩
    · rw [int64_of_ge (not_lt.mp fits)]
      simp only [Option.bind_none, reduceCtorEq, false_and, exists_false, fits]

/-! ## The law -/

/-- The data argument as bytes. -/
inductive Data
  | int (i : Int64)
  | string (s : Bytes)
  /-- Possibly the buffer that is written to. -/
  | buffer (ref : Ref)

def Data.arg : Data → Arg
  | .int i => .int i
  | .string s => .string s
  | .buffer ref => .buffer (some ref)

def Data.bytes (heap : Heap) : Data → Bytes
  | .int i => ⟨networkBytes i, by simp [networkBytes]⟩
  | .string s => s
  | .buffer ref => heap ref

theorem payload_arg (heap : Heap) (data : Data) :
    payload heap data.arg = some (data.bytes heap) := by
  cases data <;> rfl

/-- `read_buffer` does what it should. -/
def ReadsBuffer (heap : Heap) (ref : Ref) (start len : Int64) : Prop :=
  readBuffer heap (some ref) [.int start, .int len] =
    some (.ok (bufferWindow (heap ref) start len))

/-- `write_buffer` does. -/
def WritesBuffer (heap : Heap) (ref : Ref) (start : Int64) (data : Data) : Prop :=
  ∃ heap' result,
    writeBuffer heap (some ref) [.int start, data.arg] = some (.ok (heap', result)) ∧
      Written heap ref start (data.bytes heap) heap' result

/-- `read_bytes` does. -/
def ReadsFile (file : Option Bytes) (start len : Int64) : Prop :=
  readBytes file start len = some (fileWindow file start len)

/-- Each of the three stays in its window exactly where the end of the window is an
`int64_t`. -/
theorem windows_iff (heap : Heap) (ref : Ref) (start len : Int64) (data : Data)
    (file : Option Bytes) :
    (ReadsBuffer heap ref start len ↔ ReadFits (heap ref).size start len) ∧
    (WritesBuffer heap ref start data ↔ WriteFits (heap ref).size start (data.bytes heap)) ∧
    (ReadsFile file start len ↔ ∀ f, file = some f → ReadFits f.size start len) := by
  refine ⟨?_, ?_, readBytes_iff file start len⟩
  · have call : readBuffer heap (some ref) [.int start, .int len] =
        Except.ok <$> readWindow (heap ref) start.toInt len.toInt := rfl
    rw [← readWindow_iff, ReadsBuffer, call]
    cases readWindow (heap ref) start.toInt len.toInt <;> simp
  · rw [← writeWindow_iff]
    unfold WritesBuffer writeBuffer
    simp only [payload_arg]
    cases writeWindow heap ref start.toInt (data.bytes heap) <;> simp

/-- A length near the upper limit, and an offset of 1. -/
theorem readBuffer_overflows :
    ¬ ReadsBuffer (fun _ => ⟨[65, 66], by decide⟩) 0 1 Int64.maxValue := by
  unfold ReadsBuffer
  decide

end Kjdmud.Efun.Buffers
