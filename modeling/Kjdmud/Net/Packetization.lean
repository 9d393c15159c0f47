import Kjdmud.Net.Connection
import Kjdmud.Net.Telnet.Items
import Kjdmud.Net.WebSocket.Progress

/-!
# Input does not depend on how it is cut into reads

What a connection has heard is determined by the bytes that reach its telnet
machine: feeding them in pieces is feeding them at once.  A plain connection
hands every byte over; a WebSocket connection hands over the payload of its
frames, except that the frames completed by the read that completes the upgrade
request go to the input buffer without passing the telnet machine.  So the
lines and the options are those of the stream whenever that read brings no IAC.
-/

namespace Kjdmud.Net

open Kjdmud.Drain

/-! ## Hearing bytes -/

/-- The part of a connection that determines the lines to come. -/
structure Hearing where
  telnet : Telnet := {}
  inputBuffer : Str := []

def Connection.hearing (conn : Connection) : Hearing :=
  ⟨conn.telnet, conn.inputBuffer⟩

/-- The lines that bytes complete, and the hearing after them. -/
def Hearing.hear (hearing : Hearing) (raw : Str) : List Str × Hearing :=
  let fed := hearing.telnet.process raw
  let split := splitLines (hearing.inputBuffer ++ fed.plain)
  (split.1, ⟨fed.telnet, split.2⟩)

theorem not_stopped (lines : List Str) : ¬ Reader.Stopped (fun _ => false) lines := by
  rintro ⟨_, _, stops⟩
  contradiction

/-- Splitting in two pieces is splitting at once. -/
theorem splitLines_append (input more : Str) :
    splitLines (input ++ more) =
      ((splitLines input).1 ++ (splitLines ((splitLines input).2 ++ more)).1,
        (splitLines ((splitLines input).2 ++ more)).2) := by
  unfold splitLines
  rw [Reader.drain_append more (not_stopped _)]
  simp only [List.map_append]

/-- Hearing in two pieces is hearing at once. -/
theorem Hearing.hear_append (hearing : Hearing) (raw more : Str) :
    hearing.hear (raw ++ more) =
      ((hearing.hear raw).1 ++ ((hearing.hear raw).2.hear more).1,
        ((hearing.hear raw).2.hear more).2) := by
  simp only [Hearing.hear, Telnet.process_append]
  rw [← List.append_assoc, splitLines_append]

/-- No line is standing in the input buffer. -/
def Hearing.Settled (hearing : Hearing) : Prop :=
  splitLines hearing.inputBuffer = ([], hearing.inputBuffer)

theorem Hearing.settled_hear (hearing : Hearing) (raw : Str) : (hearing.hear raw).2.Settled := by
  have waits : lineReader.read (lineReader.drain (fun _ => false)
      (hearing.inputBuffer ++ (hearing.telnet.process raw).plain)).2 = none :=
    Reader.read_left_eq_none (not_stopped _)
  unfold Hearing.Settled Hearing.hear
  simp only [splitLines]
  rw [Reader.drain_of_waits waits]
  rfl

/-- Nothing more is heard of no bytes. -/
theorem Hearing.hear_nil {hearing : Hearing} (settled : hearing.Settled) :
    hearing.hear [] = ([], hearing) := by
  simp only [Hearing.hear, process_nil, List.append_nil]
  rw [settled]

/-- Bytes without an IAC, heard between commands, are heard as they are. -/
theorem Hearing.hear_of_not_mem {hearing : Hearing} {raw : Str}
    (ready : hearing.telnet.state = .data) (fresh : kIac ∉ raw) :
    hearing.hear raw =
      ((splitLines (hearing.inputBuffer ++ raw)).1,
        ⟨hearing.telnet, (splitLines (hearing.inputBuffer ++ raw)).2⟩) := by
  simp only [Hearing.hear, process_of_not_mem _ ready fresh]

/-! ## Polling hears -/

/-- The part of a connection that determines what is handed to the telnet
machine. -/
structure Transport where
  useWebSocket : Bool
  wsHandshakeDone : Bool
  wsHttpBuffer : Str
  wsFrameBuffer : Str
  closed : Bool

def Connection.transport (conn : Connection) : Transport :=
  ⟨conn.useWebSocket, conn.wsHandshakeDone, conn.wsHttpBuffer, conn.wsFrameBuffer, conn.closed⟩

@[simp]
theorem transport_send (conn : Connection) (data : Str) :
    (conn.send data).transport = conn.transport := by
  unfold Connection.send
  split_ifs <;> rfl

@[simp]
theorem hearing_send (conn : Connection) (data : Str) :
    (conn.send data).hearing = conn.hearing := by
  unfold Connection.send
  split_ifs <;> rfl

theorem transport_foldl_send (sends : List Str) (conn : Connection) :
    (sends.foldl Connection.send conn).transport = conn.transport := by
  induction sends generalizing conn with
  | nil => rfl
  | cons data sends inductionHypothesis =>
      rw [List.foldl_cons, inductionHypothesis, transport_send]

theorem hearing_foldl_send (sends : List Str) (conn : Connection) :
    (sends.foldl Connection.send conn).hearing = conn.hearing := by
  induction sends generalizing conn with
  | nil => rfl
  | cons data sends inductionHypothesis =>
      rw [List.foldl_cons, inductionHypothesis, hearing_send]

theorem transport_takeLines (conn : Connection) :
    conn.takeLines.2.transport = conn.transport := by
  unfold Connection.takeLines
  simp only
  split_ifs
  · rw [transport_send]
    rfl
  · rfl

theorem takeLines_eq (conn : Connection) :
    conn.takeLines.1 = (splitLines conn.inputBuffer).1 ∧
      conn.takeLines.2.hearing = ⟨conn.telnet, (splitLines conn.inputBuffer).2⟩ := by
  unfold Connection.takeLines
  simp only
  split_ifs
  · rw [hearing_send]
    exact ⟨rfl, rfl⟩
  · exact ⟨rfl, rfl⟩

/-- Handing bytes to the telnet machine and taking the lines is hearing
them. -/
theorem process_takeLines (conn : Connection) (raw : Str) :
    (conn.processTelnetBytes raw).takeLines.1 = (conn.hearing.hear raw).1 ∧
      (conn.processTelnetBytes raw).takeLines.2.hearing = (conn.hearing.hear raw).2 ∧
      (conn.processTelnetBytes raw).takeLines.2.transport = conn.transport := by
  have fed : (conn.processTelnetBytes raw).hearing =
      ⟨(conn.telnet.process raw).telnet,
        conn.inputBuffer ++ (conn.telnet.process raw).plain⟩ := by
    unfold Connection.processTelnetBytes
    rw [hearing_foldl_send]
    rfl
  have telnet := congrArg Hearing.telnet fed
  have input := congrArg Hearing.inputBuffer fed
  have taken := takeLines_eq (conn.processTelnetBytes raw)
  simp only [Connection.hearing] at telnet input
  rw [telnet, input] at taken
  refine ⟨taken.1, taken.2, ?_⟩
  rw [transport_takeLines]
  unfold Connection.processTelnetBytes
  rw [transport_foldl_send]
  rfl

variable (sha1Base64 : Str → Str)

/-- A run of polls ends in these lines and this hearing on every large enough
budget. -/
def Hears (conn : Connection) (chunks : List Str) (lines : List Str) (hearing : Hearing) :
    Prop :=
  ∃ enough, ∀ fuel, enough ≤ fuel → ∃ last,
    conn.pollAll sha1Base64 fuel chunks = some (.ok (lines, last)) ∧ last.hearing = hearing

variable {sha1Base64}

/-- A run of polls ends in one way. -/
theorem Hears.unique {conn : Connection} {chunks : List Str} {lines lines' : List Str}
    {hearing hearing' : Hearing} (first : Hears sha1Base64 conn chunks lines hearing)
    (second : Hears sha1Base64 conn chunks lines' hearing') :
    lines = lines' ∧ hearing = hearing' := by
  obtain ⟨m, firstEnds⟩ := first
  obtain ⟨n, secondEnds⟩ := second
  obtain ⟨last, ends, heard⟩ := firstEnds (max m n) (le_max_left m n)
  obtain ⟨last', ends', heard'⟩ := secondEnds (max m n) (le_max_right m n)
  rw [ends] at ends'
  obtain ⟨rfl, rfl⟩ := Prod.mk.inj (Except.ok.inj (Option.some.inj ends'))
  exact ⟨rfl, heard.symm.trans heard'⟩

/-- A closed connection is not polled. -/
theorem hears_of_closed {conn : Connection} (closed : conn.closed = true)
    (chunks : List Str) : Hears sha1Base64 conn chunks [] conn.hearing := by
  refine ⟨0, fun fuel _ => ⟨conn, ?_, rfl⟩⟩
  cases chunks with
  | nil => rfl
  | cons chunk chunks => simp only [Connection.pollAll, closed, if_true]

/-- A poll and the run after it. -/
theorem hears_cons {conn : Connection} (openConn : conn.closed = false)
    {chunk : Str} {chunks lines more : List Str} {next : Connection} {hearing : Hearing}
    (polls : ∃ enough, ∀ fuel, enough ≤ fuel →
      conn.pollLines sha1Base64 fuel chunk false = some (.ok (lines, next)))
    (later : Hears sha1Base64 next chunks more hearing) :
    Hears sha1Base64 conn (chunk :: chunks) (lines ++ more) hearing := by
  obtain ⟨m, polls⟩ := polls
  obtain ⟨n, later⟩ := later
  refine ⟨max m n, fun fuel enough => ?_⟩
  have bounds := Nat.max_le.mp enough
  obtain ⟨last, ends, heard⟩ := later fuel bounds.2
  refine ⟨last, ?_, heard⟩
  simp only [Connection.pollAll, openConn, Bool.false_eq_true, if_false, polls fuel bounds.1,
    ends]

/-- A poll that does not find the peer gone. -/
theorem pollLines_false (conn : Connection) (fuel : Nat) (rawChunk : Str) :
    conn.pollLines sha1Base64 fuel rawChunk false =
      if conn.useWebSocket && !conn.wsHandshakeDone then
        (Connection.tryCompleteWebSocketHandshake sha1Base64 fuel
            { conn with wsHttpBuffer := conn.wsHttpBuffer ++ rawChunk }).map fun result =>
          result.map fun completed =>
            if completed.1 then (completed.2.processTelnetBytes []).takeLines
            else ([], completed.2)
      else if conn.useWebSocket && rawChunk ≠ [] then
        (decodeWsFrames fuel conn.wsFrameBuffer rawChunk).map fun result =>
          result.map fun state =>
            ((conn.decoded state).processTelnetBytes state.payload).takeLines
      else some (.ok (conn.processTelnetBytes rawChunk).takeLines) := by
  unfold Connection.pollLines
  simp only [Bool.or_false]

/-! ## Plain connections -/

/-- A plain connection hears every byte of the stream. -/
theorem hears_plain (chunks : List Str) : ∀ (conn : Connection),
    conn.useWebSocket = false → conn.closed = false → conn.hearing.Settled →
    Hears sha1Base64 conn chunks (conn.hearing.hear chunks.flatten).1
      (conn.hearing.hear chunks.flatten).2 := by
  induction chunks with
  | nil =>
      intro conn plain openConn settled
      rw [List.flatten_nil, Hearing.hear_nil settled]
      exact ⟨0, fun fuel _ => ⟨conn, rfl, rfl⟩⟩
  | cons chunk chunks inductionHypothesis =>
      intro conn plain openConn settled
      obtain ⟨lines, heard, transport⟩ := process_takeLines conn chunk
      have useWebSocket := congrArg Transport.useWebSocket transport
      have closed := congrArg Transport.closed transport
      have later := inductionHypothesis _ (useWebSocket.trans plain) (closed.trans openConn)
        (heard ▸ Hearing.settled_hear conn.hearing chunk)
      rw [heard] at later
      rw [List.flatten_cons, Hearing.hear_append, ← lines]
      refine hears_cons openConn ⟨0, fun fuel _ => ?_⟩ later
      rw [pollLines_false, plain]
      rfl

/-! ## WebSocket connections -/

/-- A header that overruns does so with more bytes behind it. -/
theorem Overruns.append {buffer : Str} (overruns : Overruns buffer) (more : Str) :
    Overruns (buffer ++ more) := by
  obtain ⟨header, read, large, covered⟩ := overruns
  refine ⟨header, readHeader_append more read, large, le_trans covered ?_⟩
  rw [List.length_append]
  exact Nat.le_add_right _ _

/-- Fronts that fit in a buffer fit in every shorter one. -/
theorem FrontsFit.of_append {buffer more : Str} (fits : FrontsFit (buffer ++ more)) :
    FrontsFit buffer :=
  fun front reached overruns => fits (front ++ more) (reached.append more) (overruns.append more)

/-- The frames of a stream as they come in on a connection. -/
abbrev framesOf (stream : Str) : List WsFrame :=
  (frameReader.drain WsFrame.closes stream).1

/-- What is left of a stream behind its frames. -/
abbrev framesLeft (stream : Str) : Str :=
  (frameReader.drain WsFrame.closes stream).2

theorem stopped_iff_any (frames : List WsFrame) :
    Reader.Stopped WsFrame.closes frames ↔ frames.any WsFrame.closes = true := by
  simp [Reader.Stopped]

theorem payloadOf_append (frames more : List WsFrame) :
    payloadOf (frames ++ more) = payloadOf frames ++ payloadOf more :=
  List.flatMap_append

/-- A connection that hears the payload of its frames. -/
def HearsFrames (sha1Base64 : Str → Str) (chunks : List Str) : Prop :=
  ∀ conn : Connection, conn.useWebSocket = true → conn.wsHandshakeDone = true →
    conn.closed = false → takeFrame conn.wsFrameBuffer = none → conn.hearing.Settled →
    FrontsFit (conn.wsFrameBuffer ++ chunks.flatten) →
    Hears sha1Base64 conn chunks
      (conn.hearing.hear (payloadOf (framesOf (conn.wsFrameBuffer ++ chunks.flatten)))).1
      (conn.hearing.hear (payloadOf (framesOf (conn.wsFrameBuffer ++ chunks.flatten)))).2

/-- The run after a buffer was drained and its payload heard. -/
theorem hears_drained {chunks : List Str} (rest : HearsFrames sha1Base64 chunks)
    {buffer : Str} (hearing : Hearing) (next : Connection)
    (useWebSocket : next.useWebSocket = true) (done : next.wsHandshakeDone = true)
    (left : next.wsFrameBuffer = framesLeft buffer)
    (closed : next.closed = (framesOf buffer).any WsFrame.closes)
    (heard : next.hearing = (hearing.hear (payloadOf (framesOf buffer))).2)
    (fits : FrontsFit (buffer ++ chunks.flatten)) :
    ∃ more, (hearing.hear (payloadOf (framesOf (buffer ++ chunks.flatten)))).1 =
        (hearing.hear (payloadOf (framesOf buffer))).1 ++ more ∧
      Hears sha1Base64 next chunks more
        (hearing.hear (payloadOf (framesOf (buffer ++ chunks.flatten)))).2 := by
  cases stops : (framesOf buffer).any WsFrame.closes with
  | true =>
      have stopped : Reader.Stopped WsFrame.closes (framesOf buffer) :=
        (stopped_iff_any _).mpr stops
      have whole := Reader.drain_append_of_stopped chunks.flatten stopped
      have same : framesOf (buffer ++ chunks.flatten) = framesOf buffer := by
        rw [framesOf, whole]
      rw [same]
      refine ⟨[], (List.append_nil _).symm, ?_⟩
      rw [← heard]
      exact hears_of_closed (closed.trans stops) chunks
  | false =>
      have goesOn : ¬ Reader.Stopped WsFrame.closes (framesOf buffer) := by
        rw [stopped_iff_any, stops]
        exact Bool.false_ne_true
      have whole := Reader.drain_append chunks.flatten goesOn
      have frames : framesOf (buffer ++ chunks.flatten) =
          framesOf buffer ++ framesOf (framesLeft buffer ++ chunks.flatten) := by
        rw [framesOf, whole]
      have laterFits : FrontsFit (framesLeft buffer ++ chunks.flatten) :=
        fun front reached =>
          fits front (((Reader.Front.left goesOn).append chunks.flatten).trans reached)
      rw [frames, payloadOf_append, Hearing.hear_append, ← heard, ← left]
      refine ⟨_, rfl, rest next useWebSocket done (closed.trans stops) ?_ ?_ ?_⟩
      · rw [left]
        exact Reader.read_left_eq_none goesOn
      · rw [heard]
        exact Hearing.settled_hear _ _
      · rw [left]
        exact laterFits

/-- What a decoder call whose fronts fit returns. -/
theorem decodeWsFrames_drains (buffer incoming : Str) (fits : FrontsFit (buffer ++ incoming)) :
    ∃ enough, ∀ fuel, enough ≤ fuel →
      decodeWsFrames fuel buffer incoming =
        some (.ok (({ frameBuffer := buffer ++ incoming } : WsState).drained
          (framesOf (buffer ++ incoming)) (framesLeft (buffer ++ incoming)))) :=
  ⟨(buffer ++ incoming).length + 1, fun fuel enough =>
    decodeLoop_of_fits (buffer ++ incoming) fuel _ rfl fits (by omega)⟩

/-- After the handshake a connection hears the payload of its frames. -/
theorem hears_frames (chunks : List Str) : HearsFrames sha1Base64 chunks := by
  induction chunks with
  | nil =>
      intro conn useWebSocket done openConn waits settled fits
      have drained : frameReader.drain WsFrame.closes conn.wsFrameBuffer =
          ([], conn.wsFrameBuffer) := Reader.drain_of_waits waits
      rw [List.flatten_nil, List.append_nil]
      simp only [framesOf, drained]
      rw [show payloadOf [] = [] from rfl, Hearing.hear_nil settled]
      exact ⟨0, fun fuel _ => ⟨conn, rfl, rfl⟩⟩
  | cons chunk chunks inductionHypothesis =>
      intro conn useWebSocket done openConn waits settled fits
      rw [List.flatten_cons, ← List.append_assoc] at fits ⊢
      by_cases empty : chunk = []
      · -- Without bytes the decoder is not called.
        subst empty
        obtain ⟨lines, heard, transport⟩ := process_takeLines conn []
        rw [Hearing.hear_nil settled] at lines heard
        rw [List.append_nil] at fits ⊢
        have later := inductionHypothesis (conn.processTelnetBytes []).takeLines.2
          ((congrArg Transport.useWebSocket transport).trans useWebSocket)
          ((congrArg Transport.wsHandshakeDone transport).trans done)
          ((congrArg Transport.closed transport).trans openConn)
        rw [show (conn.processTelnetBytes []).takeLines.2.wsFrameBuffer = conn.wsFrameBuffer
          from congrArg Transport.wsFrameBuffer transport, heard] at later
        rw [← List.nil_append (Prod.fst _)]
        refine hears_cons openConn ⟨0, fun fuel _ => ?_⟩ (later waits settled fits)
        have taken : (conn.processTelnetBytes []).takeLines =
            ([], (conn.processTelnetBytes []).takeLines.2) := Prod.ext lines rfl
        rw [pollLines_false, useWebSocket, done, ← taken]
        rfl
      · obtain ⟨enough, decodes⟩ := decodeWsFrames_drains _ _ fits.of_append
        have goesOn : conn.useWebSocket && decide (chunk ≠ []) := by
          simp [useWebSocket, empty]
        generalize decoded : ({ frameBuffer := conn.wsFrameBuffer ++ chunk } : WsState).drained
          (framesOf (conn.wsFrameBuffer ++ chunk)) (framesLeft (conn.wsFrameBuffer ++ chunk)) =
            state at decodes
        have payload : state.payload = payloadOf (framesOf (conn.wsFrameBuffer ++ chunk)) := by
          rw [← decoded]
          exact List.nil_append _
        have closes : state.closed =
            (framesOf (conn.wsFrameBuffer ++ chunk)).any WsFrame.closes := by
          rw [← decoded]
          exact Bool.false_or _
        have buffered : state.frameBuffer = framesLeft (conn.wsFrameBuffer ++ chunk) := by
          rw [← decoded]
          rfl
        obtain ⟨lines, heard, transport⟩ := process_takeLines (conn.decoded state) state.payload
        have closed := congrArg Transport.closed transport
        have frameBuffer := congrArg Transport.wsFrameBuffer transport
        obtain ⟨more, all, later⟩ := hears_drained inductionHypothesis conn.hearing
          ((conn.decoded state).processTelnetBytes state.payload).takeLines.2
          ((congrArg Transport.useWebSocket transport).trans useWebSocket)
          ((congrArg Transport.wsHandshakeDone transport).trans done)
          (frameBuffer.trans buffered)
          (closed.trans (by
            rw [← closes]
            simp [Connection.decoded, Connection.transport, openConn]))
          (by rw [heard, payload]; rfl) fits
        rw [all]
        refine hears_cons openConn ⟨enough, fun fuel large => ?_⟩ later
        rw [pollLines_false, done, Bool.not_true, Bool.and_false, if_neg Bool.false_ne_true,
          if_pos goesOn, decodes fuel large, ← payload]
        have sameLines : (conn.hearing.hear state.payload).1 =
            ((conn.decoded state).processTelnetBytes state.payload).takeLines.1 :=
          lines.symm
        rw [sameLines]
        rfl

/-! ## The upgrade -/

/-- The frames completed by the read that completes the upgrade request bring
no IAC; `buffer` is what of the request came in before. -/
def UpgradePlain : Str → List Str → Prop
  | _, [] => True
  | buffer, chunk :: chunks =>
      match cutAt blankLine (buffer ++ chunk) with
      | none => UpgradePlain (buffer ++ chunk) chunks
      | some (_, leftover) => kIac ∉ payloadOf (framesOf leftover)

theorem transport_upgraded (conn : Connection) (response : Str) :
    (conn.upgraded response).transport = { conn.transport with wsHandshakeDone := true } := by
  unfold Connection.upgraded
  simp only
  split_ifs
  · rfl
  · rw [transport_send]
    rfl

theorem hearing_upgraded (conn : Connection) (response : Str) :
    (conn.upgraded response).hearing = conn.hearing := by
  unfold Connection.upgraded
  simp only
  split_ifs
  · rfl
  · rw [hearing_send]
    rfl

/-- A connection upgraded by a request that is not complete, `headers` and
`leftover` being the pieces of it with the next chunk. -/
theorem pollLines_upgrade (sha1Base64 : Str → Str) (conn : Connection) (useWebSocket : conn.useWebSocket = true)
    (waits : conn.wsHandshakeDone = false) (openConn : conn.closed = false)
    (noFrames : conn.wsFrameBuffer = []) (settled : conn.hearing.Settled)
    {chunk headers leftover : Str}
    (cut : cutAt blankLine (conn.wsHttpBuffer ++ chunk) = some (headers, leftover))
    (key : upgradeKey headers ≠ []) (fits : FrontsFit leftover) :
    ∃ next : Connection, next.useWebSocket = true ∧ next.wsHandshakeDone = true ∧
      next.wsFrameBuffer = framesLeft leftover ∧
      next.closed = (framesOf leftover).any WsFrame.closes ∧
      next.hearing = ⟨conn.telnet,
        (splitLines (conn.inputBuffer ++ payloadOf (framesOf leftover))).2⟩ ∧
      ∃ enough, ∀ fuel, enough ≤ fuel →
        conn.pollLines sha1Base64 fuel chunk false =
          some (.ok ((splitLines (conn.inputBuffer ++ payloadOf (framesOf leftover))).1,
            next)) := by
  generalize ready : ({ conn with wsHttpBuffer := [] } : Connection).upgraded
    (upgradeResponse (sha1Base64 (upgradeKey headers ++ kWsMagic))) = upgraded
  have transport : upgraded.transport = ⟨true, true, [], [], false⟩ := by
    rw [← ready, transport_upgraded]
    simp [Connection.transport, useWebSocket, noFrames, openConn]
  have hearing : upgraded.hearing = conn.hearing := by
    rw [← ready, hearing_upgraded]
    rfl
  have polls : ∀ fuel, conn.pollLines sha1Base64 fuel chunk false =
      (if leftover = [] then some (.ok (true, upgraded))
        else
          (decodeWsFrames fuel upgraded.wsFrameBuffer leftover).map fun result =>
            result.map fun state =>
              let decoded := upgraded.decoded state
              (true, { decoded with
                inputBuffer := decoded.inputBuffer ++ state.payload })).map fun result =>
        result.map fun completed =>
          if completed.1 then (completed.2.processTelnetBytes []).takeLines
          else ([], completed.2) := by
    intro fuel
    rw [pollLines_false, useWebSocket, waits, Bool.not_false, Bool.and_true, if_pos rfl]
    simp only [Connection.tryCompleteWebSocketHandshake, cut, if_neg key, ← ready]
    rw [waits, useWebSocket]
  have telnet : upgraded.telnet = conn.telnet := congrArg Hearing.telnet hearing
  have input : upgraded.inputBuffer = conn.inputBuffer := congrArg Hearing.inputBuffer hearing
  by_cases empty : leftover = []
  · subst empty
    have noFrame : frameReader.drain WsFrame.closes [] = ([], []) := rfl
    obtain ⟨lines, heard, same⟩ := process_takeLines upgraded []
    rw [transport] at same
    rw [hearing, Hearing.hear_nil settled] at lines heard
    have kept : splitLines (conn.inputBuffer ++ payloadOf (framesOf [])) =
        ([], conn.inputBuffer) := by
      rw [show payloadOf (framesOf []) = [] from rfl, List.append_nil]
      exact settled
    rw [kept]
    refine ⟨(upgraded.processTelnetBytes []).takeLines.2,
      congrArg Transport.useWebSocket same, congrArg Transport.wsHandshakeDone same,
      congrArg Transport.wsFrameBuffer same, congrArg Transport.closed same, heard, 0,
      fun fuel _ => ?_⟩
    rw [polls, if_pos rfl, ← lines]
    rfl
  · have buffer : upgraded.wsFrameBuffer = [] := congrArg Transport.wsFrameBuffer transport
    obtain ⟨enough, decodes⟩ := decodeWsFrames_drains [] leftover fits
    rw [List.nil_append] at decodes
    generalize decoded : ({ frameBuffer := leftover } : WsState).drained
      (framesOf leftover) (framesLeft leftover) = state at decodes
    have payload : state.payload = payloadOf (framesOf leftover) := by
      rw [← decoded]
      exact List.nil_append _
    have closes : state.closed = (framesOf leftover).any WsFrame.closes := by
      rw [← decoded]
      exact Bool.false_or _
    have buffered : state.frameBuffer = framesLeft leftover := by
      rw [← decoded]
      rfl
    generalize ended : ({ upgraded.decoded state with
      inputBuffer := (upgraded.decoded state).inputBuffer ++ state.payload } :
        Connection) = last
    have lastTransport : last.transport = ⟨true, true, [], state.frameBuffer, state.closed⟩ := by
      rw [← ended]
      have fields := Transport.mk.inj transport
      simp only [Connection.transport, Connection.decoded, fields.1, fields.2.1,
        fields.2.2.1, fields.2.2.2.2, Bool.false_or]
    have lastHearing : last.hearing = ⟨conn.telnet,
        conn.inputBuffer ++ payloadOf (framesOf leftover)⟩ := by
      rw [← ended, ← payload, ← telnet, ← input]
      rfl
    obtain ⟨lines, heard, same⟩ := process_takeLines last []
    rw [lastTransport] at same
    rw [lastHearing] at lines heard
    simp only [Hearing.hear, process_nil, List.append_nil] at lines heard
    refine ⟨(last.processTelnetBytes []).takeLines.2,
      congrArg Transport.useWebSocket same, congrArg Transport.wsHandshakeDone same,
      (congrArg Transport.wsFrameBuffer same).trans buffered,
      (congrArg Transport.closed same).trans closes, heard, enough, fun fuel large => ?_⟩
    rw [polls, if_neg empty, buffer, decodes fuel large, ← lines, ← ended]
    rfl

/-- A connection whose upgrading read brings no IAC hears the payload of its
frames. -/
theorem hears_upgrade (chunks : List Str) : ∀ (conn : Connection) (headers rest : Str),
    conn.useWebSocket = true → conn.wsHandshakeDone = false → conn.closed = false →
    conn.wsFrameBuffer = [] → conn.hearing.Settled → conn.telnet.state = .data →
    cutAt blankLine conn.wsHttpBuffer = none →
    cutAt blankLine (conn.wsHttpBuffer ++ chunks.flatten) = some (headers, rest) →
    upgradeKey headers ≠ [] → FrontsFit rest → UpgradePlain conn.wsHttpBuffer chunks →
    Hears sha1Base64 conn chunks (conn.hearing.hear (payloadOf (framesOf rest))).1
      (conn.hearing.hear (payloadOf (framesOf rest))).2 := by
  induction chunks with
  | nil =>
      intro conn headers rest _ _ _ _ _ _ uncut cut
      rw [List.flatten_nil, List.append_nil, uncut] at cut
      contradiction
  | cons chunk chunks inductionHypothesis =>
      intro conn headers rest useWebSocket waits openConn noFrames settled ready uncut cut key
        fits plain
      rw [List.flatten_cons, ← List.append_assoc] at cut
      unfold UpgradePlain at plain
      cases cutNow : cutAt blankLine (conn.wsHttpBuffer ++ chunk) with
      | none =>
          rw [cutNow] at plain
          rw [← List.nil_append (Prod.fst _)]
          refine hears_cons openConn ⟨0, fun fuel _ => ?_⟩
            (inductionHypothesis { conn with wsHttpBuffer := conn.wsHttpBuffer ++ chunk }
              headers rest useWebSocket waits openConn noFrames settled ready cutNow cut key
              fits plain)
          rw [pollLines_false, useWebSocket, waits]
          simp only [Bool.not_false, Bool.and_true, if_true,
            Connection.tryCompleteWebSocketHandshake, cutNow]
          rfl
      | some pieces =>
          obtain ⟨headers', leftover⟩ := pieces
          rw [cutNow] at plain
          rw [cutAt_append _ cutNow] at cut
          obtain ⟨rfl, rfl⟩ := Prod.mk.inj (Option.some.inj cut)
          obtain ⟨next, nextWebSocket, nextDone, left, closed, heard, polls⟩ :=
            pollLines_upgrade sha1Base64 conn useWebSocket waits openConn noFrames settled
              cutNow key fits.of_append
          have asHeard : conn.hearing.hear _ = _ := Hearing.hear_of_not_mem ready plain
          obtain ⟨more, all, later⟩ := hears_drained (hears_frames chunks) conn.hearing next
            nextWebSocket nextDone left closed (by rw [heard, asHeard]; rfl) fits
          rw [all, asHeard]
          exact hears_cons openConn polls later

/-! ## Counting IACs -/

theorem count_chomp (line : Str) : (chomp line).count kIac = line.count kIac := by
  unfold chomp
  split_ifs with ends
  · obtain ⟨front, rfl⟩ := List.getLast?_eq_some_iff.mp ends
    rw [List.dropLast_concat, List.count_append]
    rfl
  · rfl

/-- The lines and what is left behind them hold every IAC of the input. -/
theorem count_splitLines (input : Str) :
    (splitLines input).1.flatten.count kIac + (splitLines input).2.count kIac =
      input.count kIac := by
  unfold splitLines
  induction input using Reader.drain_induction lineReader fun _ => false with
  | waits input read =>
      rw [Reader.drain_of_waits read]
      exact Nat.zero_add _
  | stops input line rest read stops => contradiction
  | reads input line rest read goes inductionHypothesis =>
      rw [Reader.drain_of_reads read goes]
      have whole := congrArg (List.count kIac) (eq_of_cutAt read)
      rw [List.count_append, List.count_append,
        show [newline].count kIac = 0 from rfl, Nat.add_zero] at whole
      simp only at inductionHypothesis ⊢
      rw [List.map_cons, List.flatten_cons, List.count_append, count_chomp, Nat.add_assoc,
        inductionHypothesis, whole]

/-- What is left behind the lines ends the input and holds no newline. -/
theorem splitLines_left (input : Str) :
    newline ∉ (splitLines input).2 ∧ ∃ front, input = front ++ (splitLines input).2 := by
  unfold splitLines
  induction input using Reader.drain_induction lineReader fun _ => false with
  | waits input read =>
      rw [Reader.drain_of_waits read]
      exact ⟨cutAt_singleton_eq_none.mp read, [], rfl⟩
  | stops input line rest read stops => contradiction
  | reads input line rest read goes inductionHypothesis =>
      rw [Reader.drain_of_reads read goes]
      obtain ⟨fresh, front, whole⟩ := inductionHypothesis
      refine ⟨fresh, line ++ [newline] ++ front, ?_⟩
      rw [List.append_assoc, ← whole]
      exact eq_of_cutAt read

/-- Nothing is left behind the lines of an input that ends in a newline. -/
theorem splitLines_left_eq_nil {input : Str} (ends : input.getLast? = some newline) :
    (splitLines input).2 = [] := by
  obtain ⟨fresh, front, whole⟩ := splitLines_left input
  by_contra nonempty
  rw [whole, List.getLast?_append_of_ne_nil _ nonempty] at ends
  exact fresh (List.mem_of_getLast? ends)

/-! ## The stream decides -/

/-- What a stream handed to the telnet machine of a new connection leads to:
its lines, and the options with the subnegotiations received. -/
def heard (raw : Str) : List Str × TelnetOptions :=
  let result := ({} : Hearing).hear raw
  (result.1, result.2.telnet.options)

/-- What the reads of a new connection lead to. -/
def Outcome (sha1Base64 : Str → Str) (useWebSocket : Bool) (chunks : List Str)
    (outcome : List Str × TelnetOptions) : Prop :=
  ∃ hearing, Hears sha1Base64 { useWebSocket } chunks outcome.1 hearing ∧
    hearing.telnet.options = outcome.2

/-- The stream starts with a valid upgrade request, and `rest` follows it. -/
def Upgrades (stream rest : Str) : Prop :=
  ∃ headers, cutAt blankLine stream = some (headers, rest) ∧ upgradeKey headers ≠ []

/-- The frames of a stream are well formed: the most significant bit of an
extended length is zero. -/
def WellFormedFrames (stream : Str) : Prop :=
  ∀ front header, frameReader.Front WsFrame.closes stream front →
    readHeader front = .header header → header.length < 2 ^ 63

theorem WellFormedFrames.fit {stream : Str} (wellFormed : WellFormedFrames stream) :
    FrontsFit stream := by
  rintro front reached ⟨header, read, large, _⟩
  have small := wellFormed front header reached read
  have bounds := readHeader_bounds read
  have wide : wordBound = 2 ^ 64 := rfl
  unfold WsHeader.size WsHeader.header at large
  split_ifs at large <;> omega

/-- Frames of a first piece are frames of the whole. -/
theorem mem_payloadOf_append {first : Str} (more : Str) {b : UInt8}
    (mem : b ∈ payloadOf (framesOf first)) : b ∈ payloadOf (framesOf (first ++ more)) := by
  by_cases stopped : Reader.Stopped WsFrame.closes (framesOf first)
  · rw [framesOf, Reader.drain_append_of_stopped more stopped]
    exact mem
  · rw [framesOf, Reader.drain_append more stopped, payloadOf_append]
    exact List.mem_append_left _ mem

/-- If no frame of the stream brings an IAC, the upgrading read does not. -/
theorem upgradePlain_of_not_mem {headers rest : Str}
    (fresh : kIac ∉ payloadOf (framesOf rest)) (chunks : List Str) : ∀ buffer,
    cutAt blankLine (buffer ++ chunks.flatten) = some (headers, rest) →
    UpgradePlain buffer chunks := by
  induction chunks with
  | nil => exact fun _ _ => trivial
  | cons chunk chunks inductionHypothesis =>
      intro buffer cut
      rw [List.flatten_cons, ← List.append_assoc] at cut
      unfold UpgradePlain
      cases cutNow : cutAt blankLine (buffer ++ chunk) with
      | none => exact inductionHypothesis _ cut
      | some pieces =>
          rw [cutAt_append _ cutNow] at cut
          obtain ⟨_, rfl⟩ := Prod.mk.inj (Option.some.inj cut)
          exact fun mem => fresh (mem_payloadOf_append _ mem)

/-- A new connection waits for its first line. -/
theorem settled_new (useWebSocket : Bool) :
    ({ useWebSocket } : Connection).hearing.Settled := rfl

/-- A plain stream leads to what is heard of it, however it is cut. -/
theorem outcome_plain (sha1Base64 : Str → Str) (chunks : List Str) :
    Outcome sha1Base64 false chunks (heard chunks.flatten) :=
  ⟨_, hears_plain chunks { useWebSocket := false } rfl rfl (settled_new false), rfl⟩

/-- A WebSocket stream leads to what is heard of its payload, if the upgrading
read brings no IAC. -/
theorem outcome_upgrade (sha1Base64 : Str → Str) {chunks : List Str} {rest : Str}
    (upgrades : Upgrades chunks.flatten rest) (wellFormed : WellFormedFrames rest)
    (plain : UpgradePlain [] chunks) :
    Outcome sha1Base64 true chunks (heard (payloadOf (framesOf rest))) := by
  obtain ⟨headers, cut, key⟩ := upgrades
  exact ⟨_, hears_upgrade chunks { useWebSocket := true } headers rest rfl rfl rfl rfl
    (settled_new true) rfl rfl cut key wellFormed.fit plain, rfl⟩

/-- A WebSocket stream that comes in one read leads to the lines of its
payload, telnet commands included. -/
theorem hears_whole (sha1Base64 : Str → Str) {stream rest : Str}
    (upgrades : Upgrades stream rest) (wellFormed : WellFormedFrames rest) :
    ∃ hearing, Hears sha1Base64 { useWebSocket := true } [stream]
      (splitLines (payloadOf (framesOf rest))).1 hearing := by
  obtain ⟨headers, cut, key⟩ := upgrades
  obtain ⟨next, _, _, _, _, _, polls⟩ := pollLines_upgrade sha1Base64
    { useWebSocket := true } rfl rfl rfl rfl (settled_new true) cut key wellFormed.fit
  refine ⟨next.hearing, ?_⟩
  have last : Hears sha1Base64 next [] [] next.hearing := ⟨0, fun fuel _ => ⟨next, rfl, rfl⟩⟩
  have whole := hears_cons rfl polls last
  rw [List.append_nil] at whole
  exact whole

/-- Telnet commands in the payload make the stream lead elsewhere when it comes
in one read. -/
theorem not_mem_of_outcome_whole {sha1Base64 : Str → Str} {stream rest : Str}
    (upgrades : Upgrades stream rest) (wellFormed : WellFormedFrames rest)
    (complete : (payloadOf (framesOf rest)).getLast? = some newline)
    (outcome : Outcome sha1Base64 true [stream] (heard (payloadOf (framesOf rest)))) :
    kIac ∉ payloadOf (framesOf rest) := by
  obtain ⟨hearing, raw⟩ := hears_whole sha1Base64 upgrades wellFormed
  obtain ⟨hearing', heardToo, _⟩ := outcome
  have lines := (raw.unique heardToo).1
  have counts := congrArg (fun lines => lines.flatten.count kIac) lines
  have rawCount := count_splitLines (payloadOf (framesOf rest))
  rw [splitLines_left_eq_nil complete, List.count_nil] at rawCount
  have plainCount :=
    count_splitLines (({} : Telnet).process (payloadOf (framesOf rest))).plain
  have halved := count_plain_le {} (payloadOf (framesOf rest))
  simp only [heard, Hearing.hear, List.nil_append] at counts
  rw [if_neg (by decide)] at halved
  rw [← List.count_eq_zero]
  omega

/-- **Input does not depend on how it is cut into reads.**  A plain stream
always leads to what its telnet machine hears.  A WebSocket stream leads to
what is heard of its payload whenever the read that completes the upgrade
request completes no frame with an IAC in it; and when the payload ends with a
line, every way of cutting the stream does so exactly if it holds no IAC.  What
is heard of a stream are the data bytes and the doubled IACs among its items,
and the options its negotiations and subnegotiations set. -/
theorem input_independent_of_reads (sha1Base64 : Str → Str) :
    (∀ chunks, Outcome sha1Base64 false chunks (heard chunks.flatten)) ∧
    (∀ stream rest, Upgrades stream rest → WellFormedFrames rest →
      (∀ chunks, chunks.flatten = stream → UpgradePlain [] chunks →
        Outcome sha1Base64 true chunks (heard (payloadOf (framesOf rest)))) ∧
      ((payloadOf (framesOf rest)).getLast? = some newline →
        ((∀ chunks, chunks.flatten = stream →
          Outcome sha1Base64 true chunks (heard (payloadOf (framesOf rest)))) ↔
            kIac ∉ payloadOf (framesOf rest)))) ∧
    (∀ (items : List TelnetItem) (tail : TelnetTail),
      heard (items.flatMap TelnetItem.bytes ++ tail.bytes) =
        ((splitLines (items.flatMap TelnetItem.plain)).1, items.foldl TelnetItem.apply {})) ∧
    (∀ raw, ∃ (items : List TelnetItem) (tail : TelnetTail),
      raw = items.flatMap TelnetItem.bytes ++ tail.bytes) := by
  refine ⟨outcome_plain sha1Base64, fun stream rest upgrades wellFormed => ⟨?_, ?_⟩,
    fun items tail => ?_, exists_items⟩
  · rintro chunks rfl plain
    exact outcome_upgrade sha1Base64 upgrades wellFormed plain
  · intro complete
    constructor
    · intro all
      exact not_mem_of_outcome_whole upgrades wellFormed complete
        (all [stream] (List.flatten_singleton))
    · rintro fresh chunks rfl
      obtain ⟨headers, cut, key⟩ := upgrades
      exact outcome_upgrade sha1Base64 ⟨headers, cut, key⟩ wellFormed
        (upgradePlain_of_not_mem fresh chunks [] cut)
  · obtain ⟨plain, options⟩ := process_items {} rfl items tail
    simp only [heard, Hearing.hear, plain, options, List.nil_append]

/-! ## A stream that is heard in two ways -/

/-- An upgrade request with the sample key of the protocol. -/
@[irreducible]
def sampleRequest : Str :=
  str "GET / HTTP/1.1\r\nUpgrade: websocket\r\nConnection: Upgrade\r\n" ++
    str "Sec-WebSocket-Key: dGhlIHNhbXBsZSBub25jZQ==\r\nSec-WebSocket-Version: 13" ++ blankLine

/-- The value of `sha1Base64` on the sample key. -/
def sampleAccept (_ : Str) : Str :=
  str "s3pPLMBiTxaQ9kYGzzhZRbK+xOo="

/-- A masked text frame holding the telnet command `IAC NOP` and a newline. -/
def sampleFrame : Str :=
  [0x81, 0x83, 0, 0, 0, 0, 0xff, 0xf1, 0x0a]

theorem sample_upgrades : Upgrades (sampleRequest ++ sampleFrame) sampleFrame := by
  refine ⟨sampleRequest.take (sampleRequest.length - 4), ?_, ?_⟩
  · decide +kernel
  · decide +kernel

/-- The sample request comes in alone. -/
theorem sample_plain : UpgradePlain [] [sampleRequest, sampleFrame] := by
  have cut : cutAt blankLine ([] ++ sampleRequest) =
      some (sampleRequest.take (sampleRequest.length - 4), []) := by decide +kernel
  unfold UpgradePlain
  rw [cut]
  decide

theorem sample_wellFormed : WellFormedFrames sampleFrame := by
  intro front header reached read
  cases reached with
  | here =>
      have sized : readHeader sampleFrame = .header ⟨1, true, 3, 2⟩ := by decide
      rw [sized] at read
      rw [← HeaderRead.header.inj read]
      decide
  | next taken goes later =>
      have whole : takeFrame sampleFrame = some (⟨1, [0xff, 0xf1, 0x0a]⟩, []) := by decide
      obtain ⟨_, rfl⟩ := Prod.mk.inj (Option.some.inj (whole.symm.trans taken))
      cases later with
      | here => contradiction
      | next taken _ _ => contradiction

theorem flatten_pair (first second : Str) : [first, second].flatten = first ++ second := by
  simp

/-- The sample heard after its request came in alone. -/
theorem input_independent_of_reads_sample :
    Outcome sampleAccept true [sampleRequest, sampleFrame]
      (heard (payloadOf (framesOf sampleFrame))) :=
  ((input_independent_of_reads sampleAccept).2.1 _ _ sample_upgrades sample_wellFormed).1
    [sampleRequest, sampleFrame] (flatten_pair sampleRequest sampleFrame) sample_plain

/-- The sample has no one outcome for every way of cutting it. -/
theorem sample_depends_on_reads :
    ¬ ∃ outcome, ∀ chunks, chunks.flatten = sampleRequest ++ sampleFrame →
      Outcome sampleAccept true chunks outcome := by
  rintro ⟨outcome, all⟩
  obtain ⟨hearing, raw⟩ := hears_whole sampleAccept sample_upgrades sample_wellFormed
  obtain ⟨_, whole, _⟩ := all [sampleRequest ++ sampleFrame] List.flatten_singleton
  obtain ⟨_, apart, _⟩ := all [sampleRequest, sampleFrame] (flatten_pair sampleRequest sampleFrame)
  have upgrades : Upgrades [sampleRequest, sampleFrame].flatten sampleFrame :=
    flatten_pair sampleRequest sampleFrame ▸ sample_upgrades
  obtain ⟨_, heardApart, _⟩ :=
    outcome_upgrade sampleAccept upgrades sample_wellFormed sample_plain
  have same := (raw.unique whole).1.trans (apart.unique heardApart).1
  revert same
  decide

end Kjdmud.Net
