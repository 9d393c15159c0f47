import Kjdmud.Lib.Cut
import Kjdmud.Net.Telnet
import Kjdmud.Net.WebSocket

/-!
# Connections

`src/net/Connection.cpp`: `send`, `tryCompleteWebSocketHandshake` and
`pollLines` of an open `Connection`.  One call of `pollLines` is given the bytes
its reads return before the socket would block, and whether the peer was found
to be gone; writes to the socket succeed and are collected.

`sha1Base64` is computed by OpenSSL and is a parameter.
-/

namespace Kjdmud.Net

open Kjdmud.Drain

/-- The members of `Connection` that reading input touches. -/
structure Connection where
  useWebSocket : Bool := false
  wsHandshakeDone : Bool := false
  wsHttpBuffer : Str := []
  wsFrameBuffer : Str := []
  wsPendingSend : Str := []
  inputBuffer : Str := []
  telnet : Telnet := {}
  echoSuppressed : Bool := false
  closed : Bool := false
  /-- What was written to the socket. -/
  written : Str := []

/-- `send`. -/
def Connection.send (conn : Connection) (data : Str) : Connection :=
  if conn.useWebSocket && !conn.wsHandshakeDone then
    { conn with wsPendingSend := conn.wsPendingSend ++ data }
  else if conn.useWebSocket then
    { conn with written := conn.written ++ encodeWsFrame data }
  else { conn with written := conn.written ++ data }

/-- `processTelnetBytes(raw, inputBuffer_)`. -/
def Connection.processTelnetBytes (conn : Connection) (raw : Str) : Connection :=
  let fed := conn.telnet.process raw
  fed.sends.foldl Connection.send
    { conn with telnet := fed.telnet, inputBuffer := conn.inputBuffer ++ fed.plain }

/-! ## Lines -/

def newline : UInt8 := 10
def carriageReturn : UInt8 := 13

/-- `if (!line.empty() && line.back() == '\r') line.pop_back()`. -/
def chomp (line : Str) : Str :=
  if line.getLast? = some carriageReturn then line.dropLast else line

/-- The reader of the lines of the input buffer. -/
def lineReader : Reader UInt8 Str :=
  pieceReader [newline] (List.cons_ne_nil _ _)

/-- The lines the loop of `pollLines` takes off the input buffer, and what it
leaves there. -/
def splitLines (input : Str) : List Str × Str :=
  let drained := lineReader.drain (fun _ => false) input
  (drained.1.map chomp, drained.2)

/-- The loop of `pollLines` over `inputBuffer_`.  The first line ends the
suppression of echo. -/
def Connection.takeLines (conn : Connection) : List Str × Connection :=
  let split := splitLines conn.inputBuffer
  let taken := { conn with inputBuffer := split.2 }
  if split.1 ≠ [] ∧ conn.echoSuppressed then
    (split.1, { taken with echoSuppressed := false }.send [kIac, kWont, kTelOptEcho])
  else (split.1, taken)

/-! ## The upgrade to WebSocket -/

/-- `std::tolower` in the C locale. -/
def toLower (c : UInt8) : UInt8 :=
  if 0x41 ≤ c ∧ c ≤ 0x5a then c + 0x20 else c

def headerColon : UInt8 := 0x3a

/-- A header's value ends at the end of its line. -/
def headerLine (value : Str) : Str :=
  if carriageReturn ∈ value then value.takeWhile (· != carriageReturn)
  else if newline ∈ value then value.takeWhile (· != newline)
  else value

/-- `headerValue`. -/
def headerValue (headers name : Str) : Str :=
  match cutAt (name.map toLower ++ [headerColon]) (headers.map toLower) with
  | none => []
  | some (before, _) =>
      match cutAt [headerColon] (headers.drop before.length) with
      | none => []
      | some (_, value) => headerLine (value.dropWhile fun c => c == 0x20 || c == 0x09)

/-- The blank line that ends the request. -/
def blankLine : Str :=
  [carriageReturn, newline, carriageReturn, newline]

def kWsMagic : Str :=
  str "258EAFA5-E914-47DA-95CA-C5AB0DC85B11"

/-- The response to a valid upgrade request. -/
def upgradeResponse (accept : Str) : Str :=
  str "HTTP/1.1 101 Switching Protocols\r\nUpgrade: websocket\r\n" ++
    str "Connection: Upgrade\r\nSec-WebSocket-Accept: " ++ accept ++ blankLine

/-- The key of an upgrade request. -/
def upgradeKey (headers : Str) : Str :=
  headerValue headers (str "Sec-WebSocket-Key")

/-- `inputBuffer_ += decodeWsFrames(incoming)`, the bytes going in as they
are. -/
def Connection.decoded (conn : Connection) (state : WsState) : Connection :=
  { conn with
    wsFrameBuffer := state.frameBuffer
    closed := conn.closed || state.closed
    written := conn.written ++ state.written }

/-- The response is written and what `send` held back follows it. -/
def Connection.upgraded (conn : Connection) (response : Str) : Connection :=
  let ready :=
    { conn with written := conn.written ++ response, wsHandshakeDone := true }
  if ready.wsPendingSend = [] then ready
  else { ready with wsPendingSend := [] }.send ready.wsPendingSend

/-- `tryCompleteWebSocketHandshake`, with its result. -/
def Connection.tryCompleteWebSocketHandshake (sha1Base64 : Str → Str) (fuel : Nat)
    (conn : Connection) : Option (Except WsFault (Bool × Connection)) :=
  match cutAt blankLine conn.wsHttpBuffer with
  | none => some (.ok (false, conn))
  | some (headers, leftover) =>
      let conn := { conn with wsHttpBuffer := [] }
      let key := upgradeKey headers
      if key = [] then some (.ok (false, { conn with closed := true }))
      else
        let conn := conn.upgraded (upgradeResponse (sha1Base64 (key ++ kWsMagic)))
        if leftover = [] then some (.ok (true, conn))
        else
          (decodeWsFrames fuel conn.wsFrameBuffer leftover).map fun result =>
            result.map fun state =>
              let decoded := conn.decoded state
              (true, { decoded with inputBuffer := decoded.inputBuffer ++ state.payload })

/-! ## Polling -/

/-- `pollLines`: `rawChunk` are the bytes read, and `gone` whether the peer
closed the connection or the read failed. -/
def Connection.pollLines (sha1Base64 : Str → Str) (fuel : Nat) (conn : Connection)
    (rawChunk : Str) (gone : Bool) : Option (Except WsFault (List Str × Connection)) :=
  let conn := { conn with closed := conn.closed || gone }
  if conn.useWebSocket && !conn.wsHandshakeDone then
    (tryCompleteWebSocketHandshake sha1Base64 fuel
        { conn with wsHttpBuffer := conn.wsHttpBuffer ++ rawChunk }).map fun result =>
      result.map fun completed =>
        if completed.1 then (completed.2.processTelnetBytes []).takeLines
        else ([], completed.2)
  else if conn.useWebSocket && rawChunk ≠ [] then
    (decodeWsFrames fuel conn.wsFrameBuffer rawChunk).map fun result =>
      result.map fun state =>
        ((conn.decoded state).processTelnetBytes state.payload).takeLines
  else some (.ok (conn.processTelnetBytes rawChunk).takeLines)

/-- The calls of `pollLines` for successive reads, with the lines they return.
The server polls a connection until it is closed. -/
def Connection.pollAll (sha1Base64 : Str → Str) (fuel : Nat) :
    Connection → List Str → Option (Except WsFault (List Str × Connection))
  | conn, [] => some (.ok ([], conn))
  | conn, chunk :: chunks =>
      if conn.closed then some (.ok ([], conn))
      else
        match conn.pollLines sha1Base64 fuel chunk false with
        | none => none
        | some (.error fault) => some (.error fault)
        | some (.ok (lines, next)) =>
            match next.pollAll sha1Base64 fuel chunks with
            | none => none
            | some (.error fault) => some (.error fault)
            | some (.ok (more, last)) => some (.ok (lines ++ more, last))

end Kjdmud.Net
