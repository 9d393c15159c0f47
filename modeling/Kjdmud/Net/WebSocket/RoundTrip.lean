import Kjdmud.Net.Packetization
import Mathlib.Tactic.Ring

/-!
# Frames go through the wire

What `encodeWsFrame` writes, and what a client makes of the same frames when it
masks them and sends pings between them, is read back by `decodeWsFrames` as it
was, whatever pieces it comes in.  The lengths a header can announce in two, four
or ten bytes are read back first, then one frame, then a stream of them: the
drain of a stream is the list of its frames, and the calls for successive chunks
come to the drain of their concatenation.
-/

namespace Kjdmud.Net

open Kjdmud.Drain

/-! ## Masked frames -/

/-- The four bytes of a mask. -/
abbrev WsMask := UInt8 × UInt8 × UInt8 × UInt8

def WsMask.bytes (mask : WsMask) : Str :=
  [mask.1, mask.2.1, mask.2.2.1, mask.2.2.2]

/-- The bytes of a length, as `encodeWsFrame` writes them. -/
def lengthBytes (len : Nat) : Str :=
  if len ≤ 125 then [UInt8.ofNat len]
  else if len ≤ 0xffff then [126, UInt8.ofNat (len >>> 8), UInt8.ofNat len]
  else 127 :: (List.range 8).reverse.map fun i => UInt8.ofNat (len >>> (i * 8))

/-- Set the mask bit of a length. -/
def setMaskBit : Str → Str
  | [] => []
  | b1 :: tail => (b1 ||| 0x80) :: tail

/-- The bytes of a length, with the mask bit set or not. -/
def markedLength (masked : Bool) (len : Nat) : Str :=
  if masked then setMaskBit (lengthBytes len) else lengthBytes len

/-- A frame with a first byte, masked or not. -/
def framedWith (b0 : UInt8) (payload : Str) : Option WsMask → Str
  | none => b0 :: (markedLength false payload.length ++ payload)
  | some mask =>
      b0 :: (markedLength true payload.length ++ (mask.bytes ++ unmask mask payload))

/-- A frame that a peer sends.  A ping carries at most 125 bytes. -/
inductive PeerFrame
  | text (payload : Str) (mask : Option WsMask) (small : payload.length < 2 ^ 63)
  | ping (payload : Str) (mask : Option WsMask) (short : payload.length ≤ 125)

namespace PeerFrame

/-- The bytes of a frame. -/
def bytes : PeerFrame → Str
  | text payload none _ => encodeWsFrame payload
  | text payload (some mask) _ => framedWith 0x81 payload (some mask)
  | ping payload mask _ => framedWith 0x89 payload mask

/-- The payload of a text frame. -/
def texts : PeerFrame → Str
  | text payload _ _ => payload
  | ping _ _ _ => []

/-- What the decoder takes a frame for. -/
def frame : PeerFrame → WsFrame
  | text payload _ _ => ⟨0x1, payload⟩
  | ping payload _ _ => ⟨0x9, payload⟩

end PeerFrame

theorem framedWith_encodeWsFrame (payload : Str) :
    framedWith 0x81 payload none = encodeWsFrame payload := rfl

theorem PeerFrame.bytes_text (payload : Str) (mask : Option WsMask)
    (small : payload.length < 2 ^ 63) :
    (text payload mask small).bytes = framedWith 0x81 payload mask := by
  cases mask with
  | none => exact (framedWith_encodeWsFrame payload).symm
  | some mask => rfl

@[simp]
theorem length_unmask (mask : WsMask) (data : Str) : (unmask mask data).length = data.length := by
  induction data generalizing mask with
  | nil => rfl
  | cons byte data inductionHypothesis =>
      rw [unmask, List.length_cons, List.length_cons, inductionHypothesis]

/-- Masking twice with one mask gives the data back. -/
@[simp]
theorem unmask_unmask (mask : WsMask) (data : Str) : unmask mask (unmask mask data) = data := by
  induction data generalizing mask with
  | nil => rfl
  | cons byte data inductionHypothesis =>
      rw [unmask, unmask, inductionHypothesis, UInt8.xor_assoc, UInt8.xor_self, UInt8.xor_zero]

/-! ## Reading a length back -/

/-- The loop of a long length, from any number it has already put together. -/
theorem foldl_lengthByte (len : Nat) : ∀ (n acc : Nat), n ≤ 8 →
    ((List.range n).reverse.map fun i => UInt8.ofNat (len >>> (i * 8))).foldl
        (fun len byte => (len <<< 8 ||| byte.toNat) % wordBound) acc % wordBound =
      (acc * 2 ^ (n * 8) + len % 2 ^ (n * 8)) % wordBound := by
  intro n
  induction n with
  | zero =>
      intro acc _
      simp [Nat.mod_one]
  | succ n inductionHypothesis =>
      intro acc fits
      rw [List.range_succ, List.reverse_append, List.reverse_singleton, List.singleton_append,
        List.map_cons, List.foldl_cons, inductionHypothesis _ (Nat.le_of_succ_le fits)]
      have byte : (UInt8.ofNat (len >>> (n * 8))).toNat = len / 2 ^ (n * 8) % 256 := by
        rw [UInt8.toNat_ofNat', Nat.shiftRight_eq_div_pow]
      have joined : acc <<< 8 ||| (UInt8.ofNat (len >>> (n * 8))).toNat =
          acc * 256 + len / 2 ^ (n * 8) % 256 := by
        rw [← Nat.shiftLeft_add_eq_or_of_lt (UInt8.toNat_lt _), byte, Nat.shiftLeft_eq]
      have power : 2 ^ ((n + 1) * 8) = 2 ^ (n * 8) * 256 := by
        rw [Nat.succ_mul, Nat.pow_add]
      have digits : len % (2 ^ (n * 8) * 256) =
          len % 2 ^ (n * 8) + 2 ^ (n * 8) * (len / 2 ^ (n * 8) % 256) := Nat.mod_mul
      rw [joined, power, digits, Nat.add_mod, Nat.mod_mul_mod, ← Nat.add_mod]
      congr 1
      ring

/-- Eight bytes hold every length below `2 ^ 64`. -/
theorem bigEndian_eight {len : Nat} (small : len < wordBound) :
    bigEndian ((List.range 8).reverse.map fun i => UInt8.ofNat (len >>> (i * 8))) = len := by
  have read := foldl_lengthByte len 8 0 le_rfl
  rw [Nat.zero_mul, Nat.zero_add, show 2 ^ (8 * 8) = wordBound from rfl, Nat.mod_mod,
    Nat.mod_eq_of_lt small] at read
  rw [← Nat.mod_eq_of_lt (bigEndian_lt _)]
  exact read

/-- Two bytes hold every length below `2 ^ 16`. -/
theorem bigEndian_two {len : Nat} (small : len ≤ 0xffff) :
    bigEndian [UInt8.ofNat (len >>> 8), UInt8.ofNat len] = len := by
  have read := foldl_lengthByte len 2 0 (by decide)
  have bytes : (List.range 2).reverse.map (fun i => UInt8.ofNat (len >>> (i * 8))) =
      [UInt8.ofNat (len >>> 8), UInt8.ofNat len] := rfl
  have wide : wordBound = 2 ^ 64 := rfl
  rw [bytes, Nat.zero_mul, Nat.zero_add, Nat.mod_eq_of_lt (by omega : len < 2 ^ (2 * 8)),
    Nat.mod_eq_of_lt (by omega : len < wordBound)] at read
  rw [← Nat.mod_eq_of_lt (bigEndian_lt _)]
  exact read

/-- The second byte of a header, with and without the mask bit. -/
theorem lengthByte_bits : ∀ n : Fin 128,
    (UInt8.ofNat n &&& 0x80) = 0 ∧ (UInt8.ofNat n &&& 0x7f).toNat = n ∧
      ((UInt8.ofNat n ||| 0x80) &&& 0x80) ≠ 0 ∧
      ((UInt8.ofNat n ||| 0x80) &&& 0x7f).toNat = n := by
  decide

/-- Where the mask of a frame with a length stands. -/
def maskOffOf (len : Nat) : Nat :=
  if len ≤ 125 then 2 else if len ≤ 0xffff then 4 else 10

theorem length_lengthBytes (len : Nat) : (lengthBytes len).length + 1 = maskOffOf len := by
  unfold lengthBytes maskOffOf
  split_ifs
  · rfl
  · rfl
  · simp

theorem length_setMaskBit (bytes : Str) : (setMaskBit bytes).length = bytes.length := by
  cases bytes <;> rfl

/-- A header whose length is in its second byte. -/
theorem readHeader_short (b0 b1 : UInt8) (rest : Str) (short : (b1 &&& 0x7f).toNat ≤ 125) :
    readHeader (b0 :: b1 :: rest) =
      .header ⟨b0 &&& 0x0f, (b1 &&& 0x80) != 0, (b1 &&& 0x7f).toNat, 2⟩ := by
  have notMedium : (b1 &&& 0x7f).toNat ≠ 126 := by omega
  have notLong : (b1 &&& 0x7f).toNat ≠ 127 := by omega
  simp only [readHeader, List.length_cons]
  rw [if_neg (by omega), if_neg notMedium, if_neg notLong]

/-- A header whose length is in the two bytes behind the second. -/
theorem readHeader_medium (b0 b1 : UInt8) (bytes rest : Str)
    (medium : (b1 &&& 0x7f).toNat = 126) (two : bytes.length = 2) :
    readHeader (b0 :: b1 :: (bytes ++ rest)) =
      .header ⟨b0 &&& 0x0f, (b1 &&& 0x80) != 0, bigEndian bytes, 4⟩ := by
  simp only [readHeader, List.length_cons, List.length_append]
  rw [if_neg (by omega), if_pos medium, if_neg (by omega), if_neg (by omega),
    List.take_left' two]

/-- A header whose length is in the eight bytes behind the second. -/
theorem readHeader_long (b0 b1 : UInt8) (bytes rest : Str)
    (long : (b1 &&& 0x7f).toNat = 127) (eight : bytes.length = 8) :
    readHeader (b0 :: b1 :: (bytes ++ rest)) =
      .header ⟨b0 &&& 0x0f, (b1 &&& 0x80) != 0, bigEndian bytes, 10⟩ := by
  have notMedium : (b1 &&& 0x7f).toNat ≠ 126 := by omega
  simp only [readHeader, List.length_cons, List.length_append]
  rw [if_neg (by omega), if_neg notMedium, if_pos long, if_neg (by omega), if_neg (by omega),
    List.take_left' eight]

theorem length_markedLength (masked : Bool) (len : Nat) :
    (markedLength masked len).length + 1 = maskOffOf len := by
  unfold markedLength
  split_ifs
  · rw [length_setMaskBit, length_lengthBytes]
  · exact length_lengthBytes len

/-- The second byte of a header that starts a length. -/
theorem markedByte (masked : Bool) {n : Nat} (small : n < 128) : ∃ b1 : UInt8,
    (b1 &&& 0x7f).toNat = n ∧ ((b1 &&& 0x80) != 0) = masked ∧
      ∀ tail, (if masked then setMaskBit (UInt8.ofNat n :: tail) else UInt8.ofNat n :: tail) =
        b1 :: tail := by
  obtain ⟨plain, length, marked, markedLength⟩ := lengthByte_bits ⟨n, small⟩
  cases masked with
  | false => exact ⟨UInt8.ofNat n, length, bne_eq_false_iff_eq.mpr plain, fun tail => rfl⟩
  | true => exact ⟨UInt8.ofNat n ||| 0x80, markedLength, bne_iff_ne.mpr marked, fun tail => rfl⟩

/-- The length of a frame is read back, whatever follows it. -/
theorem readHeader_markedLength (b0 : UInt8) (masked : Bool) {len : Nat} (small : len < 2 ^ 63)
    (rest : Str) :
    readHeader (b0 :: (markedLength masked len ++ rest)) =
      .header ⟨b0 &&& 0x0f, masked, len, maskOffOf len⟩ := by
  unfold markedLength lengthBytes maskOffOf
  by_cases short : len ≤ 125
  · obtain ⟨b1, length, marked, starts⟩ := markedByte masked (by omega : len < 128)
    have read := readHeader_short b0 b1 rest (by omega)
    simp only [if_pos short, starts, List.cons_append, List.nil_append, read, marked, length]
  · by_cases medium : len ≤ 0xffff
    · obtain ⟨b1, length, marked, starts⟩ := markedByte masked (by decide : 126 < 128)
      have read := readHeader_medium b0 b1 [UInt8.ofNat (len >>> 8), UInt8.ofNat len] rest length rfl
      rw [bigEndian_two medium, marked] at read
      simp only [if_neg short, if_pos medium]
      rw [show (126 : UInt8) = UInt8.ofNat 126 from rfl, starts]
      exact read
    · obtain ⟨b1, length, marked, starts⟩ := markedByte masked (by decide : 127 < 128)
      have wide : wordBound = 2 ^ 64 := rfl
      have read := readHeader_long b0 b1
        ((List.range 8).reverse.map fun i => UInt8.ofNat (len >>> (i * 8))) rest length
        (by simp)
      rw [bigEndian_eight (by omega), marked] at read
      simp only [if_neg short, if_neg medium]
      rw [show (127 : UInt8) = UInt8.ofNat 127 from rfl, starts]
      exact read

/-! ## Reading a frame back -/

/-- A frame is read back whole, whatever follows it. -/
theorem takeFrame_framedWith (b0 : UInt8) (payload : Str) (mask : Option WsMask)
    (small : payload.length < 2 ^ 63) (rest : Str) :
    takeFrame (framedWith b0 payload mask ++ rest) = some (⟨b0 &&& 0x0f, payload⟩, rest) := by
  cases mask with
  | none =>
      have sized := length_markedLength false payload.length
      have cut : b0 :: (markedLength false payload.length ++ (payload ++ rest)) =
          (b0 :: markedLength false payload.length) ++ (payload ++ rest) := rfl
      have header : (b0 :: markedLength false payload.length).length =
          maskOffOf payload.length := sized
      simp only [framedWith, List.cons_append, List.append_assoc, takeFrame,
        readHeader_markedLength b0 false small, WsHeader.size, WsHeader.header,
        Bool.false_eq_true, if_false, Nat.add_zero]
      rw [cut, if_pos (by simp only [List.length_append, List.length_cons] at header ⊢; omega),
        List.drop_left' header, List.take_left, ← List.drop_drop, List.drop_left' header,
        List.drop_left]
  | some mask =>
      have sized := length_markedLength true payload.length
      have cut : b0 :: (markedLength true payload.length ++
            (mask.bytes ++ (unmask mask payload ++ rest))) =
          (b0 :: markedLength true payload.length) ++
            (mask.bytes ++ (unmask mask payload ++ rest)) := rfl
      have header : (b0 :: markedLength true payload.length).length =
          maskOffOf payload.length := sized
      have four : mask.bytes.length = 4 := rfl
      have body : (unmask mask payload).length = payload.length := length_unmask mask payload
      have read : readMask ⟨b0 &&& 0x0f, true, payload.length, maskOffOf payload.length⟩
          ((b0 :: markedLength true payload.length) ++
            (mask.bytes ++ (unmask mask payload ++ rest))) = some mask := by
        simp only [readMask, List.drop_left' header]
        rfl
      simp only [framedWith, List.cons_append, List.append_assoc, takeFrame,
        readHeader_markedLength b0 true small, WsHeader.size, WsHeader.header, if_true]
      rw [cut, read, if_pos (by
          simp only [List.length_append, List.length_cons] at header ⊢
          omega)]
      simp only [Option.map_some, ← List.drop_drop, List.drop_left' header,
        List.drop_left' four, List.take_left' body, List.drop_left' body, unmask_unmask]

/-- The header of a frame does not overrun, whatever follows it. -/
theorem framedWith_fits (b0 : UInt8) (payload : Str) (mask : Option WsMask)
    (small : payload.length < 2 ^ 63) (rest : Str) :
    ¬ Overruns (framedWith b0 payload mask ++ rest) := by
  have wide : wordBound = 2 ^ 64 := rfl
  rintro ⟨header, read, large, -⟩
  have announced : ∃ masked, header =
      ⟨b0 &&& 0x0f, masked, payload.length, maskOffOf payload.length⟩ := by
    cases mask with
    | none =>
        simp only [framedWith, List.cons_append, List.append_assoc,
          readHeader_markedLength b0 false small] at read
        exact ⟨false, (HeaderRead.header.inj read).symm⟩
    | some mask =>
        simp only [framedWith, List.cons_append, List.append_assoc,
          readHeader_markedLength b0 true small] at read
        exact ⟨true, (HeaderRead.header.inj read).symm⟩
  obtain ⟨masked, rfl⟩ := announced
  unfold WsHeader.size WsHeader.header maskOffOf at large
  simp only at large
  split_ifs at large <;> omega

namespace PeerFrame

/-- A frame is taken off the front of a stream. -/
theorem takeFrame_bytes (f : PeerFrame) (rest : Str) :
    takeFrame (f.bytes ++ rest) = some (f.frame, rest) := by
  cases f with
  | text payload mask small =>
      rw [bytes_text]
      exact takeFrame_framedWith 0x81 payload mask small rest
  | ping payload mask short => exact takeFrame_framedWith 0x89 payload mask (by omega) rest

theorem bytes_fits (f : PeerFrame) (rest : Str) : ¬ Overruns (f.bytes ++ rest) := by
  cases f with
  | text payload mask small =>
      rw [bytes_text]
      exact framedWith_fits 0x81 payload mask small rest
  | ping payload mask short => exact framedWith_fits 0x89 payload mask (by omega) rest

theorem frame_goes (f : PeerFrame) : f.frame.closes = false := by
  cases f <;> rfl

end PeerFrame

/-! ## Reading a stream back -/

/-- Nothing is read off an empty buffer. -/
theorem takeFrame_nil : takeFrame [] = none := rfl

/-- The frames of a stream, with nothing left behind them. -/
theorem drain_peerFrames (frames : List PeerFrame) :
    frameReader.drain WsFrame.closes (frames.flatMap PeerFrame.bytes) =
      (frames.map PeerFrame.frame, []) := by
  induction frames with
  | nil => exact Reader.drain_of_waits takeFrame_nil
  | cons f frames inductionHypothesis =>
      rw [List.flatMap_cons, Reader.drain_of_reads (f.takeFrame_bytes _) f.frame_goes,
        inductionHypothesis, List.map_cons]

theorem peerFrames_fit (frames : List PeerFrame) :
    FrontsFit (frames.flatMap PeerFrame.bytes) := by
  induction frames with
  | nil =>
      intro front reached
      cases reached with
      | here =>
          rintro ⟨header, read, -⟩
          contradiction
      | next read goes later => contradiction
  | cons f frames inductionHypothesis =>
      intro front reached
      rw [List.flatMap_cons] at reached
      cases reached with
      | here => exact f.bytes_fits _
      | next read goes later =>
          have taken := f.takeFrame_bytes (frames.flatMap PeerFrame.bytes)
          obtain ⟨-, rfl⟩ := Prod.mk.inj (Option.some.inj (taken.symm.trans read))
          exact inductionHypothesis front later

theorem payloadOf_peerFrames (frames : List PeerFrame) :
    payloadOf (frames.map PeerFrame.frame) = frames.flatMap PeerFrame.texts := by
  induction frames with
  | nil => rfl
  | cons f frames inductionHypothesis =>
      rw [List.map_cons, ← List.singleton_append, payloadOf_append, inductionHypothesis,
        List.flatMap_cons]
      congr 1
      cases f with
      | text payload mask small => exact List.append_nil payload
      | ping payload mask short => rfl

/-- The calls of `decodeWsFrames` for successive chunks: their results one behind the other,
and what stays in the frame buffer. -/
def decodeChunks (fuel : Nat) : Str → List Str → Option (Except WsFault (Str × Str))
  | buffer, [] => some (.ok ([], buffer))
  | buffer, chunk :: chunks =>
      match decodeWsFrames fuel buffer chunk with
      | none => none
      | some (.error fault) => some (.error fault)
      | some (.ok state) =>
          (decodeChunks fuel state.frameBuffer chunks).map fun result =>
            result.map fun decoded => (state.payload ++ decoded.1, decoded.2)

/-- Chunks whose concatenation fits come to its drain. -/
theorem decodeChunks_drains (chunks : List Str) : ∀ buffer,
    takeFrame buffer = none → FrontsFit (buffer ++ chunks.flatten) →
    ¬ Reader.Stopped WsFrame.closes (framesOf (buffer ++ chunks.flatten)) →
    ∃ enough, ∀ fuel, enough ≤ fuel →
      decodeChunks fuel buffer chunks =
        some (.ok (payloadOf (framesOf (buffer ++ chunks.flatten)),
          framesLeft (buffer ++ chunks.flatten))) := by
  induction chunks with
  | nil =>
      intro buffer waits _ _
      have drained : frameReader.drain WsFrame.closes buffer = ([], buffer) :=
        Reader.drain_of_waits waits
      refine ⟨0, fun fuel _ => ?_⟩
      rw [List.flatten_nil, List.append_nil, framesOf, framesLeft, drained]
      rfl
  | cons chunk chunks inductionHypothesis =>
      intro buffer waits fits goesOn
      rw [List.flatten_cons, ← List.append_assoc] at fits goesOn ⊢
      have goes : ¬ Reader.Stopped WsFrame.closes (framesOf (buffer ++ chunk)) := by
        intro stopped
        rw [framesOf, Reader.drain_append_of_stopped _ stopped] at goesOn
        exact goesOn stopped
      have whole := Reader.drain_append chunks.flatten goes
      have frames : framesOf (buffer ++ chunk ++ chunks.flatten) =
          framesOf (buffer ++ chunk) ++
            framesOf (framesLeft (buffer ++ chunk) ++ chunks.flatten) := congrArg Prod.fst whole
      have left : framesLeft (buffer ++ chunk ++ chunks.flatten) =
          framesLeft (framesLeft (buffer ++ chunk) ++ chunks.flatten) :=
        (congrArg Prod.snd whole).trans rfl
      have later : FrontsFit (framesLeft (buffer ++ chunk) ++ chunks.flatten) :=
        fun front reached => fits front (((Reader.Front.left goes).append _).trans reached)
      have laterGoes : ¬ Reader.Stopped WsFrame.closes
          (framesOf (framesLeft (buffer ++ chunk) ++ chunks.flatten)) := by
        rintro ⟨last, mem, stops⟩
        rw [frames] at goesOn
        exact goesOn ⟨last, List.mem_append_right _ mem, stops⟩
      obtain ⟨enough, decodes⟩ := decodeWsFrames_drains buffer chunk fits.of_append
      obtain ⟨enoughLater, rest⟩ := inductionHypothesis (framesLeft (buffer ++ chunk))
        (Reader.read_left_eq_none goes) later laterGoes
      refine ⟨max enough enoughLater, fun fuel covers => ?_⟩
      rw [decodeChunks, decodes fuel (le_trans (le_max_left _ _) covers)]
      simp only [WsState.drained, List.nil_append]
      rw [rest fuel (le_trans (le_max_right _ _) covers), frames, left, payloadOf_append]
      rfl

/-- **Frames go through the wire.**  Whatever frames are sent, masked or not, with pings
between them, and whatever chunks their bytes come in, the decoder returns the payloads of
the text frames one behind the other, and its buffer ends empty. -/
theorem decodeChunks_peerFrames (frames : List PeerFrame) :
    ∀ chunks, chunks.flatten = frames.flatMap PeerFrame.bytes →
      ∃ enough, ∀ fuel, enough ≤ fuel →
        decodeChunks fuel [] chunks = some (.ok (frames.flatMap PeerFrame.texts, [])) := by
  intro chunks cut
  have drained := drain_peerFrames frames
  have goesOn : ¬ Reader.Stopped WsFrame.closes (framesOf (frames.flatMap PeerFrame.bytes)) := by
    rintro ⟨last, mem, stops⟩
    rw [framesOf, drained] at mem
    obtain ⟨f, -, rfl⟩ := List.mem_map.mp mem
    rw [f.frame_goes] at stops
    contradiction
  obtain ⟨enough, decodes⟩ := decodeChunks_drains chunks [] takeFrame_nil
    (by rw [List.nil_append, cut]; exact peerFrames_fit frames)
    (by rw [List.nil_append, cut]; exact goesOn)
  refine ⟨enough, fun fuel covers => ?_⟩
  rw [decodes fuel covers, List.nil_append, cut, framesOf, framesLeft, drained,
    payloadOf_peerFrames]

/-- A masked text frame, a ping and an empty text frame. -/
def sampleFrames : List PeerFrame :=
  [.text (str "hi") (some (1, 2, 3, 4)) (by decide), .ping [7] none (by decide),
    .text [] none (by decide)]

/-- The sample, cut inside its first header and inside its ping. -/
theorem decodeChunks_peerFrames_sample :
    ∃ enough, ∀ fuel, enough ≤ fuel →
      decodeChunks fuel []
          [[0x81, 0x82, 1], [2, 3, 4, 0x68 ^^^ 1, 0x69 ^^^ 2, 0x89, 1], [7, 0x81, 0]] =
        some (.ok (sampleFrames.flatMap PeerFrame.texts, [])) :=
  decodeChunks_peerFrames sampleFrames
    [[0x81, 0x82, 1], [2, 3, 4, 0x68 ^^^ 1, 0x69 ^^^ 2, 0x89, 1], [7, 0x81, 0]] (by decide)

end Kjdmud.Net
