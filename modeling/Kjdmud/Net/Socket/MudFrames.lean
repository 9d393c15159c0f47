import Kjdmud.Net.Socket.Effects
import Mathlib.Data.List.DropRight

/-!
# The frames of a socket in MUD mode

`socket_write` sends a value as the length of its text, in four bytes, and the text
with a NUL behind it.  The loop of `Server::pollSockets` puts the frames together
again from whatever a read returns, and keeps what it has of a frame in the
socket.  Fed byte by byte it does the same, so it does not matter where the reads
cut the stream.
-/

namespace Kjdmud.Net.Socket

open Kjdmud.Scheduler (World)
open Kjdmud.SaveVariable (SaveValue writeRealSaveValue parseRestoreVariableTopLevel)

/-- `kMudMaxByteTransfer`. -/
def kMudMaxByteTransfer : Nat := 1000000

/-- `ntohl` of four bytes. -/
def ntohl (bytes : Str) : Nat :=
  bytes.foldl (fun n b => 256 * n + b.toNat) 0

/-! ## The reader -/

/-- What one iteration of the loop over the bytes of a read comes to. -/
inductive Iteration
  /-- The bytes are used up. -/
  | starved (m : MudReader)
  /-- The header announces nothing, or too much. -/
  | refused
  /-- A whole frame, with the bytes behind it. -/
  | frame (payload : Str) (rest : Str)

namespace MudReader

/-- The bytes of a frame without the NULs at its end. -/
def payload (readBuf : Str) : Str :=
  readBuf.rdropWhile (· = 0)

/-- The part of an iteration that reads a body. -/
def fill (m : MudReader) (bytes : Str) : Iteration :=
  let missing := m.readLen - m.readBuf.length
  let readBuf := m.readBuf ++ bytes.take missing
  if readBuf.length < m.readLen then .starved { m with readBuf := readBuf }
  else .frame (payload readBuf) (bytes.drop missing)

/-- One iteration. -/
def iterate (m : MudReader) (bytes : Str) : Iteration :=
  if m.waitingForHeader then
    let missing := 4 - m.header.length
    let header := m.header ++ bytes.take missing
    if header.length < 4 then .starved { m with header := header }
    else if ntohl header = 0 ∨ kMudMaxByteTransfer < ntohl header then .refused
    else
      fill { waitingForHeader := false, header := [], readLen := ntohl header, readBuf := [] }
        (bytes.drop missing)
  else m.fill bytes

/-- `while (off < total && !closed)`, as often as it may run: the payloads of the
frames, and the reader unless it closed the socket. -/
def loop : Nat → MudReader → Str → List Str × Option MudReader
  | 0, m, _ => ([], some m)
  | _ + 1, m, [] => ([], some m)
  | n + 1, m, b :: bytes =>
      match m.iterate (b :: bytes) with
      | .starved m => ([], some m)
      | .refused => ([], none)
      | .frame payload rest =>
          -- After a frame the reader is as new.
          let later := loop n {} rest
          (payload :: later.1, later.2)

/-- What `pollSockets` does with the bytes of one read.  Each iteration takes a byte. -/
def read (m : MudReader) (bytes : Str) : List Str × Option MudReader :=
  loop bytes.length m bytes

/-- One read after another, until the socket is closed. -/
def reads : MudReader → List Str → List Str × Option MudReader
  | m, [] => ([], some m)
  | m, bytes :: more =>
      match m.read bytes with
      | (payloads, none) => (payloads, none)
      | (payloads, some m) => (payloads ++ (reads m more).1, (reads m more).2)

end MudReader

/-! ## Byte by byte -/

namespace MudReader

variable {m m' : MudReader} {b : UInt8} {bytes more payload rest : Str}

/-- What the loop leaves behind: a header or a body that is not complete. -/
def Partial (m : MudReader) : Prop :=
  if m.waitingForHeader then m.header.length < 4 else m.readBuf.length < m.readLen

theorem partial_new : Partial {} := by
  show (0 : Nat) < 4
  decide

/-- The reader fed one byte at a time. -/
def feed : MudReader → Str → List Str × Option MudReader
  | m, [] => ([], some m)
  | m, b :: bytes =>
      match m.iterate [b] with
      | .starved m => feed m bytes
      | .refused => ([], none)
      | .frame payload _ => (payload :: (feed {} bytes).1, (feed {} bytes).2)

theorem fill_nil (incomplete : m.readBuf.length < m.readLen) : m.fill [] = .starved m := by
  simp [fill, incomplete]

/-- A body read at once is a body read from its second byte on. -/
theorem fill_cons (incomplete : m.readBuf.length < m.readLen) (b : UInt8) (bytes : Str) :
    m.fill (b :: bytes) =
      if m.readBuf.length + 1 < m.readLen then
        fill { m with readBuf := m.readBuf ++ [b] } bytes
      else .frame (MudReader.payload (m.readBuf ++ [b])) bytes := by
  have missing : m.readLen - m.readBuf.length = m.readLen - (m.readBuf.length + 1) + 1 := by
    omega
  have text : m.readBuf ++ b :: bytes.take (m.readLen - (m.readBuf.length + 1)) =
      m.readBuf ++ [b] ++ bytes.take (m.readLen - (m.readBuf.length + 1)) := by
    rw [List.append_assoc, List.singleton_append]
  by_cases more : m.readBuf.length + 1 < m.readLen
  · rw [if_pos more]
    simp only [fill]
    rw [missing, List.take_succ_cons, List.drop_succ_cons, text]
    simp only [List.length_append, List.length_singleton]
  · have none_ : m.readLen - (m.readBuf.length + 1) = 0 := by omega
    have full : ¬ (m.readBuf ++ [b]).length < m.readLen := by
      rwa [List.length_append, List.length_singleton]
    rw [if_neg more]
    simp only [fill]
    rw [missing, List.take_succ_cons, List.drop_succ_cons, text, none_, List.take_zero,
      List.append_nil, List.drop_zero, if_neg full]

/-- The first iteration over some bytes is the one over the first of them, or goes on
with the others. -/
theorem iterate_cons (incomplete : m.Partial) (b : UInt8) (bytes : Str) :
    m.iterate (b :: bytes) =
      match m.iterate [b] with
      | .starved m => m.iterate bytes
      | .refused => .refused
      | .frame payload _ => .frame payload bytes := by
  cases waiting : m.waitingForHeader with
  | false =>
      have body : m.readBuf.length < m.readLen := by
        simpa [Partial, waiting] using incomplete
      simp only [iterate, waiting, Bool.false_eq_true, if_false]
      rw [fill_cons body b bytes, fill_cons body b []]
      split
      · next more =>
          rw [fill_nil (by simpa using more)]
          simp only [waiting, Bool.false_eq_true, if_false]
      · rfl
  | true =>
      have short : m.header.length < 4 := by
        simpa [Partial, waiting] using incomplete
      have missing : 4 - m.header.length = 4 - (m.header.length + 1) + 1 := by
        omega
      have text : m.header ++ b :: bytes.take (4 - (m.header.length + 1)) =
          m.header ++ [b] ++ bytes.take (4 - (m.header.length + 1)) := by
        rw [List.append_assoc, List.singleton_append]
      simp only [iterate, waiting, if_true]
      rw [missing, List.take_succ_cons, List.drop_succ_cons, List.take_succ_cons,
        List.drop_succ_cons, List.take_nil, List.drop_nil, text]
      by_cases last : m.header.length + 1 = 4
      · have none_ : 4 - (m.header.length + 1) = 0 := by omega
        have full : ¬ (m.header ++ [b]).length < 4 := by
          simp only [List.length_append, List.length_singleton]
          omega
        rw [none_, List.take_zero, List.append_nil, List.drop_zero, if_neg full]
        split
        · rfl
        · next accepted =>
            have positive : 0 < ntohl (m.header ++ [b]) := by omega
            rw [fill_nil (by simpa using positive)]
            rfl
      · have starved : (m.header ++ [b]).length < 4 := by
          simp only [List.length_append, List.length_singleton]
          omega
        rw [if_pos starved]
        simp only [if_true, List.length_append, List.length_singleton]

theorem Partial.fill {n : MudReader} (waiting : n.waitingForHeader = false)
    (done : n.fill bytes = .starved m') : m'.Partial := by
  simp only [MudReader.fill] at done
  split at done
  · next more =>
      cases done
      simpa [Partial, waiting] using more
  · cases done

/-- The reader that an iteration leaves behind. -/
theorem Partial.iterate (done : m.iterate bytes = .starved m') : m'.Partial := by
  unfold MudReader.iterate at done
  split at done
  · next waiting =>
      simp only at done
      split at done
      · next short =>
          cases done
          simpa [Partial, waiting] using short
      · split at done
        · cases done
        · exact Partial.fill rfl done
  · next waiting => exact Partial.fill (Bool.eq_false_of_not_eq_true waiting) done

/-- What an iteration does is what feeding the same bytes does. -/
theorem feed_of_iterate (incomplete : m.Partial) (bytes : Str) :
    (m.feed bytes =
      match m.iterate bytes with
      | .starved m => ([], some m)
      | .refused => ([], none)
      | .frame payload rest => (payload :: (feed {} rest).1, (feed {} rest).2)) ∧
    ∀ payload rest, m.iterate bytes = .frame payload rest → rest.length < bytes.length := by
  induction bytes generalizing m with
  | nil =>
      have starved : m.iterate [] = .starved m := by
        cases waiting : m.waitingForHeader with
        | true =>
            have short : m.header.length < 4 := by
              simpa [Partial, waiting] using incomplete
            rw [MudReader.iterate, if_pos waiting]
            simp only [List.take_nil, List.append_nil]
            rw [if_pos short]
        | false =>
            have body : m.readBuf.length < m.readLen := by
              simpa [Partial, waiting] using incomplete
            simp only [MudReader.iterate, waiting, Bool.false_eq_true, if_false]
            exact fill_nil body
      rw [starved]
      constructor
      · rfl
      · intro payload rest impossible
        cases impossible
  | cons b bytes ih =>
      rw [iterate_cons incomplete b bytes, feed]
      cases first : m.iterate [b] with
      | starved m' =>
          have inner := ih (Partial.iterate first)
          constructor
          · exact inner.1
          · intro payload rest frame
            exact Nat.lt_succ_of_lt (inner.2 payload rest frame)
      | refused =>
          constructor
          · rfl
          · intro payload rest impossible
            cases impossible
      | frame payload rest =>
          constructor
          · rfl
          · intro payload' rest' frame
            cases frame
            exact Nat.lt_succ_self _

/-- The loop feeds the bytes one by one. -/
theorem loop_eq_feed (incomplete : m.Partial) {n : Nat} (enough : bytes.length ≤ n) :
    m.loop n bytes = m.feed bytes := by
  induction n generalizing m bytes with
  | zero =>
      rw [List.length_eq_zero_iff.mp (Nat.le_zero.mp enough)]
      rfl
  | succ n ih =>
      cases bytes with
      | nil => rfl
      | cons b bytes =>
          have fed := feed_of_iterate incomplete (b :: bytes)
          rw [fed.1, loop]
          cases done : m.iterate (b :: bytes) with
          | starved m' => rfl
          | refused => rfl
          | frame payload rest =>
              have shorter := fed.2 payload rest done
              have small : rest.length ≤ n := by
                simp only [List.length_cons] at shorter enough
                omega
              simp only [ih partial_new small]

theorem read_eq_feed (incomplete : m.Partial) (bytes : Str) : m.read bytes = m.feed bytes :=
  loop_eq_feed incomplete le_rfl

/-- The reader that some bytes leave behind. -/
theorem Partial.feed (incomplete : m.Partial) (left : (m.feed bytes).2 = some m') :
    m'.Partial := by
  induction bytes generalizing m with
  | nil =>
      cases left
      exact incomplete
  | cons b bytes ih =>
      rw [MudReader.feed] at left
      cases first : m.iterate [b] with
      | starved m'' =>
          rw [first] at left
          exact ih (Partial.iterate first) left
      | refused =>
          rw [first] at left
          cases left
      | frame payload rest =>
          rw [first] at left
          exact ih partial_new left

/-- Bytes fed in two pieces. -/
theorem feed_append (m : MudReader) (bytes more : Str) :
    m.feed (bytes ++ more) =
      match m.feed bytes with
      | (payloads, none) => (payloads, none)
      | (payloads, some m) => (payloads ++ (m.feed more).1, (m.feed more).2) := by
  induction bytes generalizing m with
  | nil => rfl
  | cons b bytes ih =>
      rw [List.cons_append, feed, feed]
      cases m.iterate [b] with
      | starved m' => exact ih m'
      | refused => rfl
      | frame payload rest =>
          simp only [ih {}]
          cases done : feed {} bytes with
          | mk payloads left =>
              cases left with
              | none => rfl
              | some m' => rfl

/-- A sequence of reads feeds all their bytes. -/
theorem reads_eq_feed (incomplete : m.Partial) (chunks : List Str) :
    m.reads chunks = m.feed chunks.flatten := by
  induction chunks generalizing m with
  | nil => rfl
  | cons bytes more ih =>
      rw [reads, List.flatten_cons, feed_append, read_eq_feed incomplete]
      cases done : m.feed bytes with
      | mk payloads left =>
          cases left with
          | none => rfl
          | some m' =>
              have left : (m.feed bytes).2 = some m' := by rw [done]
              simp only [ih (Partial.feed incomplete left)]

/-- How many bytes of the current frame the reader has. -/
def held (m : MudReader) : Nat :=
  if m.waitingForHeader then m.header.length else 4 + m.readBuf.length

/-- Bytes that complete no frame are all kept. -/
theorem held_feed (incomplete : m.Partial) (none_ : m.feed bytes = ([], some m')) :
    m'.held = m.held + bytes.length := by
  induction bytes generalizing m with
  | nil =>
      cases none_
      rfl
  | cons b bytes ih =>
      rw [feed] at none_
      cases first : m.iterate [b] with
      | refused =>
          rw [first] at none_
          cases none_
      | frame payload rest =>
          rw [first] at none_
          cases none_
      | starved m'' =>
          rw [first] at none_
          have kept : m''.held = m.held + 1 := by
            unfold iterate at first
            split at first
            · next waiting =>
                have short : m.header.length < 4 := by
                  simpa [Partial, waiting] using incomplete
                have one : [b].take (4 - m.header.length) = [b] := by
                  apply List.take_of_length_le
                  simp only [List.length_singleton]
                  omega
                simp only [one] at first
                split at first
                · cases first
                  simp [held, waiting]
                · next full =>
                    simp only [List.length_append, List.length_singleton] at full
                    split at first
                    · cases first
                    · next accepted =>
                        have positive : 0 < ntohl (m.header ++ [b]) := by omega
                        have none_ : [b].drop (4 - m.header.length) = [] := by
                          apply List.drop_eq_nil_of_le
                          simp only [List.length_singleton]
                          omega
                        rw [none_, fill_nil (by simpa using positive)] at first
                        cases first
                        simp only [held, waiting, if_true]
                        simp
                        omega
            · next waiting =>
                have body : m.readBuf.length < m.readLen := by
                  simpa [Partial, waiting] using incomplete
                rw [fill_cons body b []] at first
                split at first
                · next more =>
                    rw [fill_nil (by simpa using more)] at first
                    cases first
                    simp only [held, waiting, List.length_append, List.length_singleton]
                    rfl
                · cases first
          rw [ih (Partial.iterate first) none_, kept, List.length_cons]
          omega

/-- Bytes after which a new reader is as new are no bytes. -/
theorem eq_nil_of_feed_new (none_ : feed {} bytes = ([], some {})) : bytes = [] := by
  have kept := held_feed partial_new none_
  rw [← List.length_eq_zero_iff]
  omega

end MudReader

/-! ## One frame -/

theorem ntohl_htonl {n : Nat} (small : n < 2 ^ 32) : ntohl (htonl n) = n := by
  simp only [ntohl, htonl, List.foldl_cons, List.foldl_nil, UInt8.toNat_ofNat']
  omega

/-- The bytes that the length in front of a frame takes. -/
def announced (v : SaveValue) : Nat :=
  ((writeRealSaveValue v).length + 1) % 2 ^ 32

/-- The reader takes as many bytes as the header announces. -/
theorem iterate_framed (v : SaveValue) (rest : Str) :
    MudReader.iterate {} (framed v ++ rest) =
      if announced v = 0 ∨ kMudMaxByteTransfer < announced v then .refused
      else .frame (MudReader.payload ((writeRealSaveValue v ++ 0 :: rest).take (announced v)))
        ((writeRealSaveValue v ++ 0 :: rest).drop (announced v)) := by
  have header : ntohl (htonl (announced v)) = announced v :=
    ntohl_htonl (Nat.mod_lt _ (by decide))
  have text : framed v ++ rest =
      htonl (announced v) ++ (writeRealSaveValue v ++ 0 :: rest) := by
    simp [framed, announced]
  have covers : announced v ≤ (writeRealSaveValue v ++ 0 :: rest).length := by
    have small := Nat.mod_le ((writeRealSaveValue v).length + 1) (2 ^ 32)
    simp only [announced, List.length_append, List.length_cons]
    omega
  rw [text]
  generalize writeRealSaveValue v ++ 0 :: rest = body at covers
  generalize announced v = n at header covers
  have taken : (htonl n ++ body).take 4 = htonl n := rfl
  have dropped : (htonl n ++ body).drop 4 = body := rfl
  simp only [MudReader.iterate, if_true, List.length_nil, Nat.sub_zero, List.nil_append]
  rw [taken, dropped, header, if_neg (show ¬ (htonl n).length < 4 by simp [htonl])]
  split
  · rfl
  · simp only [MudReader.fill, List.length_nil, Nat.sub_zero, List.nil_append]
    rw [if_neg]
    rw [List.length_take]
    omega

end Kjdmud.Net.Socket
