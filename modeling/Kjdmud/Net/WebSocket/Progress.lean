import Kjdmud.Net.WebSocket

/-!
# Progress of the WebSocket frame reader

A frame is taken off the buffer by the size its header announces, which makes
`takeFrame` a pull reader.  `decodeWsFrames` agrees with it at every buffer
whose header does not overrun, and only there: a size that wraps to one the
buffer covers is processed although the frame is not there.  So the decoder
terminates, stays inside the buffer and takes exactly whole frames off it
precisely when no front it comes to overruns.
-/

namespace Kjdmud.Net

open Kjdmud.Drain

/-! ## The reader of whole frames -/

/-- The mask of a header whose four bytes are buffered. -/
theorem readMask_of_length {header : WsHeader} {buffer : Str}
    (covered : header.maskOff + 4 ≤ buffer.length) :
    ∃ mask, ∀ more, readMask header (buffer ++ more) = some mask := by
  have tail : 4 ≤ (buffer.drop header.maskOff).length := by
    rw [List.length_drop]
    omega
  match dropped : buffer.drop header.maskOff with
  | [] | [_] | [_, _] | [_, _, _] =>
      rw [dropped] at tail
      simp at tail
  | m0 :: m1 :: m2 :: m3 :: rest =>
      refine ⟨(m0, m1, m2, m3), fun more => ?_⟩
      unfold readMask
      rw [List.drop_append_of_le_length (by omega), dropped]
      rfl

/-- Reading the frame a header announces, when it is present. -/
theorem takeFrame_of_present {buffer : Str} {header : WsHeader}
    (read : readHeader buffer = .header header) (present : header.Present buffer) :
    ∃ frame, frame.opcode = header.opcode ∧ ∀ more,
      takeFrame (buffer ++ more) = some (frame, buffer.drop header.size ++ more) := by
  have fits : header.header + header.length ≤ buffer.length := present
  have body : ∀ more : Str,
      ((buffer ++ more).drop header.header).take header.length =
        (buffer.drop header.header).take header.length := by
    intro more
    rw [List.drop_append_of_le_length (by omega),
      List.take_append_of_le_length (by rw [List.length_drop]; omega)]
  have left : ∀ more : Str,
      (buffer ++ more).drop header.size = buffer.drop header.size ++ more :=
    fun more => List.drop_append_of_le_length present
  have enough : ∀ more : Str, header.size ≤ (buffer ++ more).length := by
    intro more
    rw [List.length_append]
    exact le_trans present (Nat.le_add_right _ _)
  cases masked : header.masked with
  | false =>
      refine ⟨⟨header.opcode, (buffer.drop header.header).take header.length⟩, rfl,
        fun more => ?_⟩
      simp only [takeFrame, readHeader_append more read, if_pos (enough more), masked,
        Bool.false_eq_true, if_false, body, left]
  | true =>
      have covered : header.maskOff + 4 ≤ buffer.length := by
        simp only [WsHeader.header, masked, if_true] at fits
        omega
      obtain ⟨mask, reads⟩ := readMask_of_length covered
      refine ⟨⟨header.opcode, unmask mask ((buffer.drop header.header).take header.length)⟩,
        rfl, fun more => ?_⟩
      simp only [takeFrame, readHeader_append more read, if_pos (enough more), masked,
        if_true, reads, Option.map_some, body, left]

/-- A frame is read exactly when the one its header announces is present. -/
theorem takeFrame_eq_some {buffer rest : Str} {frame : WsFrame}
    (taken : takeFrame buffer = some (frame, rest)) :
    ∃ header, readHeader buffer = .header header ∧ header.Present buffer ∧
      rest = buffer.drop header.size := by
  cases read : readHeader buffer with
  | wait => simp [takeFrame, read] at taken
  | outside => simp [takeFrame, read] at taken
  | header header =>
      by_cases present : header.size ≤ buffer.length
      · obtain ⟨_, _, reads⟩ := takeFrame_of_present read present
        have whole := reads []
        rw [List.append_nil, List.append_nil, taken] at whole
        exact ⟨header, rfl, present, (Prod.mk.inj (Option.some.inj whole)).2⟩
      · simp [takeFrame, read, present] at taken

/-- `takeFrame` is a pull reader. -/
def frameReader : Reader UInt8 WsFrame where
  read := takeFrame
  shrinks := by
    intro buffer frame rest taken
    obtain ⟨header, read, present, rfl⟩ := takeFrame_eq_some taken
    have bounds := readHeader_bounds read
    have atLeast : 2 ≤ header.size := by
      unfold WsHeader.size WsHeader.header
      omega
    have fits : header.size ≤ buffer.length := present
    rw [List.length_drop]
    omega
  stable := by
    intro buffer frame rest more taken
    obtain ⟨header, read, present, rfl⟩ := takeFrame_eq_some taken
    obtain ⟨frame', _, reads⟩ := takeFrame_of_present read present
    have whole := reads []
    rw [List.append_nil, List.append_nil, taken] at whole
    rw [reads more, (Prod.mk.inj (Option.some.inj whole)).1]

/-! ## One iteration -/

/-- A size that wraps is not the size of a present frame the buffer covers. -/
theorem WsHeader.wrappedSize_of_lt {header : WsHeader} (small : header.size < wordBound) :
    header.wrappedSize = header.size :=
  Nat.mod_eq_of_lt small

/-- Where the header does not overrun, an iteration takes the frame it
announces, or waits for it. -/
theorem readFrame_of_not_overruns {buffer : Str} (fits : ¬ Overruns buffer) :
    readFrame buffer =
      match takeFrame buffer with
      | none => .wait
      | some (frame, rest) => .frame frame rest := by
  cases read : readHeader buffer with
  | wait => simp only [readFrame, takeFrame, read]
  | outside => exact absurd read (readHeader_ne_outside buffer)
  | header header =>
      have bounds := readHeader_bounds read
      by_cases small : header.size < wordBound
      · have same := WsHeader.wrappedSize_of_lt small
        by_cases present : header.size ≤ buffer.length
        · have inside : header.header ≤ buffer.length :=
            le_trans (Nat.le_add_right _ _) present
          simp only [readFrame, readBody, takeFrame, read, same, if_pos present,
            if_neg (Nat.not_lt.mpr present), if_neg (Nat.not_lt.mpr inside)]
          cases masked : header.masked with
          | false => simp only [Bool.false_eq_true, if_false]
          | true =>
              have covered : header.maskOff + 4 ≤ buffer.length := by
                simp only [WsHeader.header, masked, if_true] at inside
                omega
              obtain ⟨mask, reads⟩ := readMask_of_length covered
              have reads := reads []
              rw [List.append_nil] at reads
              simp only [if_true, reads, Option.map_some]
        · simp only [readFrame, readBody, takeFrame, read, same, if_neg present,
            if_pos (Nat.lt_of_not_le present)]
      · have waits : buffer.length < header.wrappedSize := by
          by_contra covers
          exact fits ⟨header, read, Nat.le_of_not_lt small, Nat.le_of_not_lt covers⟩
        have wrapped : header.wrappedSize < wordBound := Nat.mod_lt _ (by decide)
        have absent : ¬ header.size ≤ buffer.length := by omega
        simp only [readFrame, readBody, takeFrame, read, if_pos waits, if_neg absent]

/-- An iteration at `front` takes exactly the announced bytes off it, all of
them present, or leaves them in place while they are not. -/
def FrontHandled (front : Str) : Prop :=
  match readFrame front with
  | .wait => ∀ header, readHeader front = .header header → ¬ header.Present front
  | .frame _ rest => ∃ header removed, readHeader front = .header header ∧
      front = removed ++ rest ∧ removed.length = header.size
  | .outOfRange | .outside => False

/-- An iteration handles its front exactly when the header does not overrun. -/
theorem frontHandled_iff (front : Str) : FrontHandled front ↔ ¬ Overruns front := by
  constructor
  · rintro handled ⟨header, read, large, covered⟩
    have bounds := readHeader_bounds read
    have wrapped : header.wrappedSize < wordBound := Nat.mod_lt _ (by decide)
    unfold FrontHandled at handled
    split at handled
    · rename_i waits
      have present : ¬ header.size ≤ front.length := handled header read
      simp only [readFrame, readBody, read, if_neg (Nat.not_lt.mpr covered)] at waits
      split_ifs at waits with short masked
      all_goals first | contradiction | (split at waits <;> contradiction)
    · rename_i frame rest taken
      obtain ⟨header', removed, read', cut, size⟩ := handled
      have same : header' = header := by
        rw [read] at read'
        exact (HeaderRead.header.inj read').symm
      subst same
      have erased : rest = front.drop header'.wrappedSize := by
        simp only [readFrame, readBody, read, if_neg (Nat.not_lt.mpr covered)] at taken
        split_ifs at taken with short masked
        · split at taken
          · exact (FrameRead.frame.inj taken).2.symm
          · contradiction
        · exact (FrameRead.frame.inj taken).2.symm
      have length : front.length = header'.size + rest.length := by
        rw [cut, List.length_append, size]
      rw [erased, List.length_drop] at length
      omega
    · exact handled
    · exact handled
  · intro fits
    unfold FrontHandled
    rw [readFrame_of_not_overruns fits]
    cases taken : takeFrame front with
    | none =>
        intro header read present
        obtain ⟨frame, _, reads⟩ := takeFrame_of_present read present
        have whole := reads []
        rw [List.append_nil, taken] at whole
        contradiction
    | some result =>
        obtain ⟨frame, rest⟩ := result
        obtain ⟨header, read, present, rfl⟩ := takeFrame_eq_some taken
        exact ⟨header, front.take header.size, read, (List.take_append_drop _ _).symm,
          List.length_take_of_le present⟩

/-! ## One call -/

/-- The data frames of a drain, concatenated. -/
def payloadOf (frames : List WsFrame) : Str :=
  frames.flatMap fun frame =>
    if frame.opcode = 0x1 ∨ frame.opcode = 0x2 ∨ frame.opcode = 0x0 then frame.data else []

/-- The pongs written for a drain. -/
def pongsOf (frames : List WsFrame) : Str :=
  frames.flatMap fun frame => if frame.opcode = 0x9 then pong frame.data else []

/-- The frames of a drain have been received. -/
def WsState.drained (state : WsState) (frames : List WsFrame) (rest : Str) : WsState where
  frameBuffer := rest
  payload := state.payload ++ payloadOf frames
  closed := state.closed || frames.any WsFrame.closes
  written := state.written ++ pongsOf frames

theorem drained_nil (state : WsState) :
    state.drained [] state.frameBuffer = state := by
  simp [WsState.drained, payloadOf, pongsOf]

/-- Receiving a frame and then the rest of a drain. -/
theorem drained_receive {frame : WsFrame} (goes : frame.closes = false) (state : WsState)
    (frames : List WsFrame) (rest left : Str) :
    ({ state with frameBuffer := rest }.receive frame).drained frames left =
      state.drained (frame :: frames) left := by
  unfold WsState.receive WsState.drained payloadOf pongsOf
  by_cases ping : frame.opcode = 0x9
  · simp [ping, goes]
  · by_cases data : frame.opcode = 0x1 ∨ frame.opcode = 0x2 ∨ frame.opcode = 0x0
    · simp [ping, data, goes]
    · simp [ping, data, goes]

/-- A close frame carries neither data nor a ping. -/
theorem drained_close {frame : WsFrame} (stops : frame.closes = true) (state : WsState)
    (rest : Str) :
    ({ state with frameBuffer := rest, closed := true } : WsState) =
      state.drained [frame] rest := by
  have opcode : frame.opcode = 0x8 := of_decide_eq_true stops
  simp [WsState.drained, payloadOf, pongsOf, opcode, stops]

@[simp]
theorem frameBuffer_receive (state : WsState) (frame : WsFrame) :
    (state.receive frame).frameBuffer = state.frameBuffer := by
  unfold WsState.receive
  split_ifs <;> rfl

/-- None of the fronts a call comes to overruns. -/
def FrontsFit (buffer : Str) : Prop :=
  ∀ front, frameReader.Front WsFrame.closes buffer front → ¬ Overruns front

/-- A call whose fronts fit drains the buffer. -/
theorem decodeLoop_of_fits (buffer : Str) : ∀ (fuel : Nat) (state : WsState),
    state.frameBuffer = buffer → FrontsFit buffer → buffer.length < fuel →
    decodeLoop fuel state =
      some (.ok (state.drained (frameReader.drain WsFrame.closes buffer).1
        (frameReader.drain WsFrame.closes buffer).2)) := by
  induction buffer using Reader.drain_induction frameReader WsFrame.closes with
  | waits buffer read =>
      intro fuel state holds fits enough
      obtain ⟨fuel, rfl⟩ : ∃ less, fuel = less + 1 := ⟨fuel - 1, by omega⟩
      have waits : takeFrame buffer = none := read
      have step := readFrame_of_not_overruns (fits buffer (.here buffer))
      rw [waits] at step
      rw [Reader.drain_of_waits read]
      subst holds
      simp only [decodeLoop, step, drained_nil]
  | stops buffer frame rest read stops =>
      intro fuel state holds fits enough
      obtain ⟨fuel, rfl⟩ : ∃ less, fuel = less + 1 := ⟨fuel - 1, by omega⟩
      have taken : takeFrame buffer = some (frame, rest) := read
      have step := readFrame_of_not_overruns (fits buffer (.here buffer))
      rw [taken] at step
      rw [Reader.drain_of_stops read stops]
      subst holds
      simp only [decodeLoop, step, stops, if_true, drained_close stops state rest]
  | reads buffer frame rest read goes inductionHypothesis =>
      intro fuel state holds fits enough
      obtain ⟨fuel, rfl⟩ : ∃ less, fuel = less + 1 := ⟨fuel - 1, by omega⟩
      have taken : takeFrame buffer = some (frame, rest) := read
      have shorter := frameReader.shrinks read
      have step := readFrame_of_not_overruns (fits buffer (.here buffer))
      rw [taken] at step
      rw [Reader.drain_of_reads read goes]
      subst holds
      have later : FrontsFit rest := fun front reached => fits front (.next read goes reached)
      have rest_eq := inductionHypothesis fuel ({ state with frameBuffer := rest }.receive frame)
        (by simp) later (by omega)
      simp only [decodeLoop, step, goes, Bool.false_eq_true, if_false, rest_eq,
        drained_receive goes]

/-- The fronts an execution of the loop of `decodeWsFrames` comes to. -/
inductive Reached : Str → Str → Prop
  | here (buffer : Str) : Reached buffer buffer
  | next {buffer : Str} {frame : WsFrame} {rest front : Str}
      (read : readFrame buffer = .frame frame rest) (goes : frame.closes = false)
      (later : Reached rest front) : Reached buffer front

/-- A call returns, and every iteration of it handles its front. -/
def CallSafe (buffer : Str) : Prop :=
  (∃ fuel state, decodeLoop fuel { frameBuffer := buffer } = some (.ok state)) ∧
    ∀ front, Reached buffer front → FrontHandled front

/-- Where no front of whole frames overruns, the loop comes to those fronts. -/
theorem Reached.front {buffer front : Str} (reached : Reached buffer front)
    (fits : FrontsFit buffer) : frameReader.Front WsFrame.closes buffer front := by
  induction reached with
  | here buffer => exact .here buffer
  | @next buffer frame rest front read goes later inductionHypothesis =>
      have step := readFrame_of_not_overruns (fits buffer (.here buffer))
      rw [read] at step
      cases taken : takeFrame buffer with
      | none =>
          rw [taken] at step
          contradiction
      | some result =>
          obtain ⟨frame', rest'⟩ := result
          rw [taken] at step
          obtain ⟨rfl, rfl⟩ := FrameRead.frame.inj step
          exact .next taken goes (inductionHypothesis fun front reached =>
            fits front (.next taken goes reached))

/-- A loop that handles every front it comes to comes to the fronts of whole
frames. -/
theorem reached_of_front {buffer front : Str}
    (front_of : frameReader.Front WsFrame.closes buffer front)
    (handled : ∀ front, Reached buffer front → FrontHandled front) :
    Reached buffer front := by
  induction front_of with
  | here buffer => exact .here buffer
  | @next buffer frame rest front read goes later inductionHypothesis =>
      have taken : takeFrame buffer = some (frame, rest) := read
      have step := readFrame_of_not_overruns
        ((frontHandled_iff buffer).mp (handled buffer (.here buffer)))
      rw [taken] at step
      exact .next step goes (inductionHypothesis fun front reached =>
        handled front (.next step goes reached))

/-- A call is safe exactly when no front of whole frames overruns. -/
theorem callSafe_iff (buffer : Str) : CallSafe buffer ↔ FrontsFit buffer := by
  constructor
  · rintro ⟨_, handled⟩ front reached
    exact (frontHandled_iff front).mp (handled front (reached_of_front reached handled))
  · intro fits
    refine ⟨⟨buffer.length + 1, _, decodeLoop_of_fits buffer _ _ rfl fits (by omega)⟩, ?_⟩
    intro front reached
    exact (frontHandled_iff front).mpr (fits front (reached.front fits))

/-! ## Sessions -/

/-- Every call of a session is safe: `buffer` is `wsFrameBuffer_` before the
first chunk, and each call starts from what the one before it left. -/
def SessionSafe : Str → List Str → Prop
  | _, [] => True
  | buffer, chunk :: chunks =>
      CallSafe (buffer ++ chunk) ∧
        ∀ fuel state, decodeWsFrames fuel buffer chunk = some (.ok state) →
          SessionSafe state.frameBuffer chunks

/-- No chunk of a session lets a front of whole frames overrun. -/
def SessionFits : Str → List Str → Prop
  | _, [] => True
  | buffer, chunk :: chunks =>
      FrontsFit (buffer ++ chunk) ∧
        SessionFits (frameReader.drain WsFrame.closes (buffer ++ chunk)).2 chunks

/-- A call that returns returns the same on more fuel. -/
theorem decodeLoop_mono : ∀ (fuel more : Nat) (state : WsState) (result : Except WsFault WsState),
    decodeLoop fuel state = some result → decodeLoop (fuel + more) state = some result := by
  intro fuel
  induction fuel with
  | zero => intro more state result returns; contradiction
  | succ fuel inductionHypothesis =>
      intro more state result returns
      rw [Nat.add_right_comm]
      simp only [decodeLoop] at returns ⊢
      split at returns
      · exact returns
      · exact returns
      · exact returns
      · split_ifs at returns ⊢
        · exact returns
        · exact inductionHypothesis more _ result returns

/-- Whatever a call whose fronts fit returns, it is the drained buffer. -/
theorem decodeWsFrames_of_fits {fuel : Nat} {buffer incoming : Str} {state : WsState}
    (fits : FrontsFit (buffer ++ incoming))
    (returns : decodeWsFrames fuel buffer incoming = some (.ok state)) :
    state.frameBuffer = (frameReader.drain WsFrame.closes (buffer ++ incoming)).2 := by
  have long := decodeLoop_mono fuel ((buffer ++ incoming).length + 1) _ _ returns
  rw [decodeLoop_of_fits (buffer ++ incoming) _ _ rfl fits (by omega)] at long
  rw [← Except.ok.inj (Option.some.inj long)]
  rfl

/-- **The frame reader terminates on every chunk, stays inside the buffered
bytes and takes exactly whole frames off them, in precisely the sessions in
which no header overruns.** -/
theorem decodeWsFrames_safe_iff (buffer : Str) (chunks : List Str) :
    SessionSafe buffer chunks ↔ SessionFits buffer chunks := by
  induction chunks generalizing buffer with
  | nil => exact Iff.rfl
  | cons chunk chunks inductionHypothesis =>
      simp only [SessionSafe, SessionFits, callSafe_iff]
      refine and_congr_right fun fits => ?_
      rw [← inductionHypothesis]
      constructor
      · intro later
        exact later ((buffer ++ chunk).length + 1) _
          (decodeLoop_of_fits (buffer ++ chunk) _ _ rfl fits (by omega))
      · intro later fuel state returns
        rw [decodeWsFrames_of_fits fits returns]
        exact later

/-- The ten header bytes of an unmasked text frame of length `2 ^ 64 - 10`. -/
def wrappingHeader : Str :=
  [0x81, 0x7f, 0xff, 0xff, 0xff, 0xff, 0xff, 0xff, 0xff, 0xf6]

/-- On a header whose size wraps to zero the loop never ends. -/
theorem decodeLoop_wrappingHeader (fuel : Nat) :
    decodeLoop fuel { frameBuffer := wrappingHeader } = none := by
  induction fuel with
  | zero => rfl
  | succ fuel inductionHypothesis =>
      have step : readFrame wrappingHeader = .frame ⟨0x1, []⟩ wrappingHeader := by decide
      simp only [decodeLoop, step]
      exact inductionHypothesis

/-- A session of one chunk that the frame reader does not survive. -/
theorem wrappingHeader_unsafe : ¬ SessionSafe [] [wrappingHeader] := by
  rintro ⟨⟨⟨fuel, state, returns⟩, _⟩, _⟩
  have never := decodeLoop_wrappingHeader fuel
  rw [List.nil_append] at returns
  rw [never] at returns
  contradiction

end Kjdmud.Net
