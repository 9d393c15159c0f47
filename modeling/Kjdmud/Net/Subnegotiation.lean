import Kjdmud.Core.Types
import Kjdmud.Net.Connection
import Kjdmud.Net.Telnet.Items

/-!
# Sent subnegotiations come back

`src/net/Connection.cpp`: `appendIacEscaped` and the five `send` functions built
on it, GMCP, MSSP, MSDP, MSP and ZMP.  A peer that runs the telnet machine on
what they emit receives what was sent, whatever text stands between the
subnegotiations.
-/

namespace Kjdmud.Net

/-! ## The encoders -/

/-- `appendIacEscaped`, on an empty output. -/
def appendIacEscaped (data : Str) : Str :=
  data.flatMap escapeIac

/-- The subnegotiation of an option around a payload that is escaped already. -/
def subnegotiationBytes (option : UInt8) (payload : Str) : Str :=
  [kIac, kSb, option] ++ payload ++ [kIac, kSe]

/-- What `sendGmcp` passes to `send`. -/
def gmcpBytes (package : Str) : Str :=
  subnegotiationBytes kTelOptGmcp (appendIacEscaped package)

/-- What `sendMsdp` passes to `send`. -/
def msdpBytes (varName value : Str) : Str :=
  subnegotiationBytes kTelOptMsdp
    ([kMsdpVar] ++ appendIacEscaped varName ++ [kMsdpVal] ++ appendIacEscaped value)

/-- What `sendZmp` passes to `send`. -/
def zmpBytes (command : Str) (args : List Str) : Str :=
  subnegotiationBytes kTelOptZmp
    (appendIacEscaped command ++ [0] ++ args.flatMap fun arg => appendIacEscaped arg ++ [0])

/-- `sendGmcp`. -/
def Connection.sendGmcp (conn : Connection) (package : Str) : Connection :=
  conn.send (gmcpBytes package)

/-- `sendMsdp`. -/
def Connection.sendMsdp (conn : Connection) (varName value : Str) : Connection :=
  conn.send (msdpBytes varName value)

/-- `sendZmp`. -/
def Connection.sendZmp (conn : Connection) (command : Str) (args : List Str) : Connection :=
  conn.send (zmpBytes command args)

/-! ## The content the encoders put in a subnegotiation -/

/-- The wire form of a payload is that of the subnegotiation item with the
option in front. -/
theorem subnegotiationBytes_escaped {option : UInt8} (other : option ≠ kIac)
    (content : Str) :
    subnegotiationBytes option (appendIacEscaped content) =
      [kIac, kSb] ++ (option :: content).flatMap escapeIac ++ [kIac, kSe] := by
  simp [subnegotiationBytes, appendIacEscaped, escapeIac, other]

/-- The payload of an MSDP message before escaping. -/
def msdpContent (varName value : Str) : Str :=
  kMsdpVar :: varName ++ kMsdpVal :: value

/-- The payload of a ZMP message before escaping. -/
def zmpContent (fields : List Str) : Str :=
  fields.flatMap fun field => field ++ [0]

theorem msdpBytes_eq (varName value : Str) :
    msdpBytes varName value =
      subnegotiationBytes kTelOptMsdp (appendIacEscaped (msdpContent varName value)) := by
  have var : kMsdpVar ≠ kIac := by decide
  have val : kMsdpVal ≠ kIac := by decide
  simp [msdpBytes, msdpContent, appendIacEscaped, escapeIac, var, val]

theorem zmpBytes_eq (command : Str) (args : List Str) :
    zmpBytes command args =
      subnegotiationBytes kTelOptZmp (appendIacEscaped (zmpContent (command :: args))) := by
  have nul : (0 : UInt8) ≠ kIac := by decide
  simp [zmpBytes, zmpContent, appendIacEscaped, escapeIac, nul, List.flatMap_assoc]

/-! ## What the handlers read back -/

/-- The name of an MSDP variable that holds no `MSDP_VAL` comes back with its
value. -/
theorem msdpPair_content {varName : Str} (plain : kMsdpVal ∉ varName) (value : Str) :
    msdpPair (varName ++ kMsdpVal :: value) = (varName, value) := by
  have before : ∀ b ∈ varName, (b != kMsdpVal) = true := by
    intro b mem
    exact bne_iff_ne.mpr fun equal => plain (equal ▸ mem)
  simp [msdpPair, List.takeWhile_append_of_pos before, List.dropWhile_append_of_pos before]

/-- A field without a NUL comes back in front of the fields behind it. -/
theorem zmpFields_field {field : Str} (plain : (0 : UInt8) ∉ field) (payload : Str) :
    zmpFields (field ++ 0 :: payload) = field :: zmpFields payload := by
  induction field with
  | nil => simp [zmpFields]
  | cons b field ih =>
      rw [List.mem_cons, not_or] at plain
      simp [zmpFields, ih plain.2, Ne.symm plain.1]

/-- Fields without a NUL come back. -/
theorem zmpFields_content {fields : List Str} (plain : ∀ field ∈ fields, (0 : UInt8) ∉ field) :
    zmpFields (zmpContent fields) = fields := by
  induction fields with
  | nil => rfl
  | cons field fields ih =>
      have later := ih fun other mem => plain other (List.mem_cons_of_mem _ mem)
      rw [zmpContent, List.flatMap_cons, List.append_assoc, List.singleton_append,
        zmpFields_field (plain field List.mem_cons_self), ← zmpContent, later]

/-- The payload of a ZMP message ends in a NUL. -/
theorem getLast?_zmpContent (command : Str) (args : List Str) :
    (zmpContent (command :: args)).getLast? = some 0 := by
  induction args generalizing command with
  | nil => simp [zmpContent]
  | cons arg args ih =>
      have later := ih arg
      rw [zmpContent, List.flatMap_cons, ← zmpContent, List.getLast?_append, later]
      rfl

theorem handleGmcp_payload (options : TelnetOptions) (package : Str) :
    handleSubnegotiation options (kTelOptGmcp :: package) =
      { options with
        incomingGmcp := options.incomingGmcp ++ if package = [] then [] else [package]
        gmcpEnabled := true } := by
  have other : kTelOptGmcp ≠ kTelOptTtype := by decide
  simp only [handleSubnegotiation, List.head?_cons, if_neg other, if_true, handleGmcp]
  cases package <;> simp

theorem handleMsdp_payload (options : TelnetOptions) {varName : Str}
    (plain : kMsdpVal ∉ varName) (value : Str) :
    handleSubnegotiation options (kTelOptMsdp :: msdpContent varName value) =
      { options with
        incomingMsdp := options.incomingMsdp ++ [(varName, value)]
        msdpEnabled := true } := by
  have first : kTelOptMsdp ≠ kTelOptTtype := by decide
  have second : kTelOptMsdp ≠ kTelOptGmcp := by decide
  simp [handleSubnegotiation, if_neg first, if_neg second, handleMsdp, msdpContent,
    msdpPair_content plain]

theorem handleZmp_payload (options : TelnetOptions) {command : Str} {args : List Str}
    (plain : ∀ field ∈ command :: args, (0 : UInt8) ∉ field) :
    handleSubnegotiation options (kTelOptZmp :: zmpContent (command :: args)) =
      { options with
        incomingZmp := options.incomingZmp ++ [(command, args)]
        zmpEnabled := true } := by
  have first : kTelOptZmp ≠ kTelOptTtype := by decide
  have second : kTelOptZmp ≠ kTelOptGmcp := by decide
  have third : kTelOptZmp ≠ kTelOptMsdp := by decide
  simp [handleSubnegotiation, if_neg first, if_neg second, if_neg third, handleZmp,
    zmpFields_content plain, getLast?_zmpContent]

/-- From the data state a whole subnegotiation is handled and leads back to
data, with no text and no reply. -/
theorem process_subnegotiation (telnet : Telnet) (ready : telnet.state = .data)
    {option : UInt8} (other : option ≠ kIac) (content : Str) :
    telnet.process (subnegotiationBytes option (appendIacEscaped content)) =
      { telnet :=
          { state := .data
            sbBuffer := option :: content
            options := handleSubnegotiation telnet.options (option :: content) } } := by
  rw [subnegotiationBytes_escaped other, Telnet.process_append, process_opened telnet ready]
  simp [process_cons, Telnet.step]

/-! ## Messages -/

/-- What is passed to a connection: text, or one of the subnegotiations the
peer reads. -/
inductive Message
  | text (data : Str)
  | gmcp (package : Str)
  | msdp (varName value : Str)
  | zmp (command : Str) (args : List Str)

/-- The send function of a message. -/
def Connection.sendMessage (conn : Connection) : Message → Connection
  | .text data => conn.send data
  | .gmcp package => conn.sendGmcp package
  | .msdp varName value => conn.sendMsdp varName value
  | .zmp command args => conn.sendZmp command args

/-- The bytes a message passes to `send`. -/
def Message.bytes : Message → Str
  | .text data => data
  | .gmcp package => gmcpBytes package
  | .msdp varName value => msdpBytes varName value
  | .zmp command args => zmpBytes command args

/-- Text without a command, a variable name without `MSDP_VAL`, and fields
without a NUL. -/
def Message.Clean : Message → Prop
  | .text data => kIac ∉ data
  | .gmcp _ => True
  | .msdp varName _ => kMsdpVal ∉ varName
  | .zmp command args => ∀ field ∈ command :: args, (0 : UInt8) ∉ field

/-- The text of a message. -/
def Message.plain : Message → Str
  | .text data => data
  | _ => []

/-- The GMCP package a message delivers. -/
def Message.gmcps : Message → List Str
  | .gmcp package => if package = [] then [] else [package]
  | _ => []

/-- The MSDP pair a message delivers. -/
def Message.msdps : Message → List (Str × Str)
  | .msdp varName value => [(varName, value)]
  | _ => []

/-- The ZMP command a message delivers. -/
def Message.zmps : Message → List (Str × List Str)
  | .zmp command args => [(command, args)]
  | _ => []

/-- What the peer has received behind `before`: the messages, in their order,
and nothing else. -/
structure Delivered (before : TelnetOptions) (messages : List Message)
    (peer : TelnetStep) : Prop where
  state : peer.telnet.state = .data
  plain : peer.plain = messages.flatMap Message.plain
  sends : peer.sends = []
  gmcp : peer.telnet.options.incomingGmcp =
    before.incomingGmcp ++ messages.flatMap Message.gmcps
  msdp : peer.telnet.options.incomingMsdp =
    before.incomingMsdp ++ messages.flatMap Message.msdps
  zmp : peer.telnet.options.incomingZmp =
    before.incomingZmp ++ messages.flatMap Message.zmps

/-- One message arrives at a peer in the data state. -/
theorem delivered_message (telnet : Telnet) (ready : telnet.state = .data)
    {message : Message} (clean : message.Clean) :
    Delivered telnet.options [message] (telnet.process message.bytes) := by
  cases message with
  | text data =>
      rw [Message.bytes, process_of_not_mem telnet ready clean]
      constructor <;>
        simp [ready, Message.plain, Message.gmcps, Message.msdps, Message.zmps]
  | gmcp package =>
      rw [Message.bytes, gmcpBytes, process_subnegotiation telnet ready (by decide),
        handleGmcp_payload]
      constructor <;> simp [Message.plain, Message.gmcps, Message.msdps, Message.zmps]
  | msdp varName value =>
      rw [Message.bytes, msdpBytes_eq, process_subnegotiation telnet ready (by decide),
        handleMsdp_payload _ clean]
      constructor <;> simp [Message.plain, Message.gmcps, Message.msdps, Message.zmps]
  | zmp command args =>
      rw [Message.bytes, zmpBytes_eq, process_subnegotiation telnet ready (by decide),
        handleZmp_payload _ clean]
      constructor <;> simp [Message.plain, Message.gmcps, Message.msdps, Message.zmps]

/-- A sequence of messages arrives at a peer in the data state. -/
theorem delivered_messages (telnet : Telnet) (ready : telnet.state = .data)
    {messages : List Message} (clean : ∀ message ∈ messages, message.Clean) :
    Delivered telnet.options messages
      (telnet.process (messages.flatMap Message.bytes)) := by
  induction messages generalizing telnet with
  | nil => constructor <;> simp [ready]
  | cons message messages ih =>
      have first := delivered_message telnet ready (clean message List.mem_cons_self)
      have later := ih _ first.state fun other mem => clean other (List.mem_cons_of_mem _ mem)
      rw [List.flatMap_cons, Telnet.process_append]
      constructor
      · exact later.state
      · simp [first.plain, later.plain]
      · simp [first.sends, later.sends]
      · simp [later.gmcp, first.gmcp]
      · simp [later.msdp, first.msdp]
      · simp [later.zmp, first.zmp]

/-- A connection without WebSocket framing writes the bytes of its messages. -/
theorem written_sendMessages (conn : Connection) (raw : conn.useWebSocket = false)
    (messages : List Message) :
    (messages.foldl Connection.sendMessage conn).written =
      conn.written ++ messages.flatMap Message.bytes := by
  induction messages generalizing conn with
  | nil => simp
  | cons message messages ih =>
      have sent : conn.sendMessage message =
          { conn with written := conn.written ++ message.bytes } := by
        cases message <;>
          simp [Connection.sendMessage, Connection.sendGmcp, Connection.sendMsdp,
            Connection.sendZmp, Connection.send, raw, Message.bytes]
      rw [List.foldl_cons, sent, ih _ (by exact raw), List.flatMap_cons, List.append_assoc]

/-- Every sequence of text and GMCP, MSDP and ZMP messages arrives: what the
send functions write for it takes a peer in the data state back there with
exactly these messages received, whatever bytes their payloads hold. -/
theorem subnegotiations_delivered (peer : Telnet) (ready : peer.state = .data)
    (messages : List Message) (clean : ∀ message ∈ messages, message.Clean) :
    Delivered peer.options messages
        (peer.process (messages.flatMap Message.bytes)) ∧
      ∀ conn : Connection, conn.useWebSocket = false →
        (messages.foldl Connection.sendMessage conn).written =
          conn.written ++ messages.flatMap Message.bytes :=
  ⟨delivered_messages peer ready clean,
    fun conn raw => written_sendMessages conn raw messages⟩

/-- Payloads made of protocol bytes, between two texts. -/
def protocolMessages : List Message :=
  [.text (str "a"), .gmcp [kIac, kSe, kIac], .gmcp [], .zmp [] [[kIac], []],
    .msdp [] [kMsdpVal, kIac], .text (str "b")]

theorem protocolMessages_delivered :
    Delivered ({} : Telnet).options protocolMessages
      (({} : Telnet).process (protocolMessages.flatMap Message.bytes)) :=
  (subnegotiations_delivered {} rfl protocolMessages
    (by simp [protocolMessages, Message.Clean]; decide)).1

end Kjdmud.Net
