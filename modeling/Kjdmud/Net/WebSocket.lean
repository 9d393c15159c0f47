import Mathlib.Data.List.Induction
import Kjdmud.Core.Types
import Kjdmud.Lib.Drain
import Mathlib.Algebra.Group.Nat.Defs

/-!
# WebSocket frames

`src/net/Connection.cpp`: `encodeWsFrame` and `decodeWsFrames`.  The decoder
looks at the front of `wsFrameBuffer_`, and takes a frame off it when the bytes
its header announces are buffered.  The announced size is a `size_t` plus a
`uint64_t`, so it is taken modulo `2 ^ 64`, as the source computes it.

The loop has no measure of its own, so it runs on a fuel budget; running out is
`none`.
-/

namespace Kjdmud.Net

/-- Sums of `size_t` and `uint64_t` wrap at this bound. -/
def wordBound : Nat := 2 ^ 64

/-! ## Frame headers -/

/-- The locals `opcode`, `masked`, `len` and `maskOff` of `decodeWsFrames`. -/
structure WsHeader where
  opcode : UInt8
  masked : Bool
  length : Nat
  maskOff : Nat
  deriving DecidableEq

/-- The local `header`: the header with its mask. -/
def WsHeader.header (header : WsHeader) : Nat :=
  header.maskOff + if header.masked then 4 else 0

/-- The loop that shifts the bytes of an extended length together. -/
def bigEndian (bytes : Str) : Nat :=
  bytes.foldl (fun len byte => (len <<< 8 ||| byte.toNat) % wordBound) 0

/-- How the front of the buffer reads as a header. -/
inductive HeaderRead
  /-- One of the `break`s before the length is known. -/
  | wait
  /-- A subscript past the end of the buffer. -/
  | outside
  | header (header : WsHeader)
  deriving DecidableEq

/-- The part of the loop of `decodeWsFrames` up to `maskOff`. -/
def readHeader (buffer : Str) : HeaderRead :=
  if buffer.length < 2 then .wait
  else
    match buffer with
    | b0 :: b1 :: tail =>
        let opcode := b0 &&& 0x0f
        let masked := (b1 &&& 0x80) != 0
        let len := (b1 &&& 0x7f).toNat
        if len = 126 then
          if buffer.length < 4 then .wait
          else if tail.length < 2 then .outside
          else .header ⟨opcode, masked, bigEndian (tail.take 2), 4⟩
        else if len = 127 then
          if buffer.length < 10 then .wait
          else if tail.length < 8 then .outside
          else .header ⟨opcode, masked, bigEndian (tail.take 8), 10⟩
        else .header ⟨opcode, masked, len, 2⟩
    | _ => .outside

/-! ## Frames -/

/-- `data[i] ^ mask[i % 4]` for every `i`. -/
def unmask (mask : UInt8 × UInt8 × UInt8 × UInt8) : Str → Str
  | [] => []
  | byte :: data => (byte ^^^ mask.1) :: unmask (mask.2.1, mask.2.2.1, mask.2.2.2, mask.1) data

/-- A frame taken off the buffer: its opcode and its unmasked data. -/
structure WsFrame where
  opcode : UInt8
  data : Str
  deriving DecidableEq

/-- One iteration of the loop of `decodeWsFrames`, up to the `erase`. -/
inductive FrameRead
  /-- One of the `break`s that leave the buffer as it is. -/
  | wait
  /-- `substr` throws `std::out_of_range`. -/
  | outOfRange
  /-- A subscript past the end of the buffer. -/
  | outside
  | frame (frame : WsFrame) (rest : Str)
  deriving DecidableEq

/-- The mask of a frame, read at `maskOff`. -/
def readMask (header : WsHeader) (buffer : Str) : Option (UInt8 × UInt8 × UInt8 × UInt8) :=
  match buffer.drop header.maskOff with
  | m0 :: m1 :: m2 :: m3 :: _ => some (m0, m1, m2, m3)
  | _ => none

/-- `header + len` as the source computes it. -/
def WsHeader.wrappedSize (header : WsHeader) : Nat :=
  (header.header + header.length) % wordBound

/-- The frame behind a header that was read. -/
def readBody (header : WsHeader) (buffer : Str) : FrameRead :=
  if buffer.length < header.wrappedSize then .wait
  else if buffer.length < header.header then .outOfRange
  else
    let data := (buffer.drop header.header).take header.length
    let rest := buffer.drop header.wrappedSize
    if header.masked then
      match readMask header buffer with
      | some mask => .frame ⟨header.opcode, unmask mask data⟩ rest
      | none => .outside
    else .frame ⟨header.opcode, data⟩ rest

/-- One iteration of the loop of `decodeWsFrames`. -/
def readFrame (buffer : Str) : FrameRead :=
  match readHeader buffer with
  | .wait => .wait
  | .outside => .outside
  | .header header => readBody header buffer

/-! ## The decoder -/

/-- What `decodeWsFrames` reads and writes: `wsFrameBuffer_`, its result, and
`closed_` and the pong frames it writes to the socket. -/
structure WsState where
  frameBuffer : Str
  payload : Str := []
  closed : Bool := false
  written : Str := []

/-- The pong written for a ping. -/
def pong (data : Str) : Str :=
  if data.length ≤ 125 then 0x8a :: UInt8.ofNat data.length :: data else [0x8a, 0]

/-- The rest of an iteration, after the `erase`, unless the frame closes the
connection. -/
def WsState.receive (state : WsState) (frame : WsFrame) : WsState :=
  if frame.opcode = 0x9 then { state with written := state.written ++ pong frame.data }
  else if frame.opcode = 0x1 ∨ frame.opcode = 0x2 ∨ frame.opcode = 0x0 then
    { state with payload := state.payload ++ frame.data }
  else state

/-- The opcode of a close frame ends the loop. -/
def WsFrame.closes (frame : WsFrame) : Bool :=
  frame.opcode = 0x8

/-- How `decodeWsFrames` can fail. -/
inductive WsFault
  /-- `std::out_of_range`. -/
  | outOfRange
  /-- A subscript past the end of the buffer. -/
  | outside

/-- The loop of `decodeWsFrames`. -/
def decodeLoop : Nat → WsState → Option (Except WsFault WsState)
  | 0, _ => none
  | fuel + 1, state =>
      match readFrame state.frameBuffer with
      | .wait => some (.ok state)
      | .outOfRange => some (.error .outOfRange)
      | .outside => some (.error .outside)
      | .frame frame rest =>
          if frame.closes then some (.ok { state with frameBuffer := rest, closed := true })
          else decodeLoop fuel ({ state with frameBuffer := rest }.receive frame)

/-- `decodeWsFrames` with `wsFrameBuffer_` holding `buffer`. -/
def decodeWsFrames (fuel : Nat) (buffer incoming : Str) : Option (Except WsFault WsState) :=
  decodeLoop fuel { frameBuffer := buffer ++ incoming }

/-- `encodeWsFrame`. -/
def encodeWsFrame (payload : Str) : Str :=
  let len := payload.length
  let head :=
    if len ≤ 125 then [UInt8.ofNat len]
    else if len ≤ 0xffff then [126, UInt8.ofNat (len >>> 8), UInt8.ofNat len]
    else 127 :: (List.range 8).reverse.map fun i => UInt8.ofNat (len >>> (i * 8))
  0x81 :: head ++ payload

/-! ## What a header announces -/

/-- The size of the frame a header announces: the sum without wrapping. -/
def WsHeader.size (header : WsHeader) : Nat :=
  header.header + header.length

/-- The frame a header announces is buffered in whole. -/
def WsHeader.Present (header : WsHeader) (buffer : Str) : Prop :=
  header.size ≤ buffer.length

/-- The frame at the front of the buffer, by the size its header announces. -/
def takeFrame (buffer : Str) : Option (WsFrame × Str) :=
  match readHeader buffer with
  | .header header =>
      if header.size ≤ buffer.length then
        let data := (buffer.drop header.header).take header.length
        let rest := buffer.drop header.size
        if header.masked then
          (readMask header buffer).map fun mask => (⟨header.opcode, unmask mask data⟩, rest)
        else some (⟨header.opcode, data⟩, rest)
      else none
  | _ => none

/-- The header at the front of the buffer announces a size that wraps to one
the buffer covers. -/
def Overruns (buffer : Str) : Prop :=
  ∃ header, readHeader buffer = .header header ∧ wordBound ≤ header.size ∧
    header.wrappedSize ≤ buffer.length

/-! ## Headers and what follows them -/

theorem bigEndian_lt (bytes : Str) : bigEndian bytes < wordBound := by
  have positive : 0 < wordBound := by decide
  unfold bigEndian
  induction bytes using List.reverseRecOn with
  | nil => exact positive
  | append_singleton bytes byte _ =>
      rw [List.foldl_append]
      exact Nat.mod_lt _ positive

/-- A header never looks outside the buffer. -/
theorem readHeader_ne_outside (buffer : Str) : readHeader buffer ≠ .outside := by
  unfold readHeader
  match buffer with
  | [] => simp
  | [_] => simp
  | b0 :: b1 :: tail =>
      simp only [List.length_cons]
      split_ifs <;> first | omega | simp

/-- A header is at least two bytes long, and its length is a machine word. -/
theorem readHeader_bounds {buffer : Str} {header : WsHeader}
    (read : readHeader buffer = .header header) :
    2 ≤ header.maskOff ∧ header.maskOff ≤ 10 ∧ header.maskOff ≤ buffer.length ∧
      header.length < wordBound := by
  match buffer with
  | [] => simp [readHeader] at read
  | [_] => simp [readHeader] at read
  | b0 :: b1 :: tail =>
      have small : (b1 &&& 0x7f).toNat < wordBound :=
        lt_trans (UInt8.toNat_lt _) (by decide)
      simp only [readHeader, List.length_cons] at read
      split_ifs at read with h1 h2 h3 h4 h5 h6 h7 <;>
        simp only [HeaderRead.header.injEq] at read <;> subst read <;>
        simp only [List.length_cons] <;>
        refine ⟨by omega, by omega, by omega, ?_⟩ <;>
        first | exact bigEndian_lt _ | exact small

/-- More bytes behind a header do not change how it reads. -/
theorem readHeader_append {buffer : Str} {header : WsHeader} (more : Str)
    (read : readHeader buffer = .header header) :
    readHeader (buffer ++ more) = .header header := by
  match buffer with
  | [] => simp [readHeader] at read
  | [_] => simp [readHeader] at read
  | b0 :: b1 :: tail =>
      simp only [readHeader, List.length_cons, List.cons_append, List.length_append] at read ⊢
      split_ifs at read with h1 h2 h3 h4 h5 h6 h7
      · rw [if_neg (by omega), if_pos h2, if_neg (by omega), if_neg (by omega),
          List.take_append_of_le_length (by omega)]
        exact read
      · rw [if_neg (by omega), if_neg h2, if_pos h5, if_neg (by omega), if_neg (by omega),
          List.take_append_of_le_length (by omega)]
        exact read
      · rw [if_neg (by omega), if_neg h2, if_neg h5]
        exact read

end Kjdmud.Net
