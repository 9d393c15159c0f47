import Kjdmud.Core.Types

/-!
# The telnet state machine

`src/net/Connection.cpp`: `processTelnetBytes`, `handleNegotiation` and
`handleSubnegotiation`.  Every byte takes one state of the machine to the next;
data bytes go to the plain output, completed commands set the negotiated
options, and replies are handed to `send`.
-/

namespace Kjdmud.Net

/-! ## Constants of `telnet.h` -/

def kIac : UInt8 := 255
def kDont : UInt8 := 254
def kDo : UInt8 := 253
def kWont : UInt8 := 252
def kWill : UInt8 := 251
def kSb : UInt8 := 250
def kSe : UInt8 := 240
def kTelOptEcho : UInt8 := 1
def kTelOptTtype : UInt8 := 24
def kTelOptNaws : UInt8 := 31
def kTelOptGmcp : UInt8 := 201
def kTelOptMssp : UInt8 := 70
def kTelOptMsdp : UInt8 := 69
def kTelOptMxp : UInt8 := 91
def kTelOptMsp : UInt8 := 90
def kTelOptZmp : UInt8 := 93
def kTelQualIs : UInt8 := 0
def kTelQualSend : UInt8 := 1
def kMsdpVar : UInt8 := 1
def kMsdpVal : UInt8 := 2

/-- `TelnetState`. -/
inductive TelnetState
  | data
  | iac
  | will
  | wont
  | do_
  | dont
  | sb
  | sbIac
  deriving DecidableEq

/-- The option flags and the received subnegotiations of a `Connection`. -/
structure TelnetOptions where
  gmcpEnabled : Bool := false
  gmcpEnableNegotiated : Bool := false
  incomingGmcp : List Str := []
  msspNegotiated : Bool := false
  msdpEnabled : Bool := false
  msdpEnableNegotiated : Bool := false
  incomingMsdp : List (Str × Str) := []
  mxpEnabled : Bool := false
  mspEnabled : Bool := false
  mspEnableNegotiated : Bool := false
  zmpEnabled : Bool := false
  incomingZmp : List (Str × List Str) := []
  terminalWidth : Nat := 0
  terminalHeight : Nat := 0
  windowSizeUpdated : Bool := false
  terminalType : Str := []
  terminalTypeUpdated : Bool := false

/-! ## Commands -/

/-- `requestTerminalType`. -/
def requestTerminalType : Str :=
  [kIac, kSb, kTelOptTtype, kTelQualSend, kIac, kSe]

/-- `handleNegotiation(TelnetState::Will, option)`: the options after it, and
what it hands to `send`. -/
def handleWill (options : TelnetOptions) (option : UInt8) : TelnetOptions × List Str :=
  if option = kTelOptEcho ∨ option = kTelOptNaws then (options, [])
  else if option = kTelOptTtype then (options, [requestTerminalType])
  else if option = kTelOptGmcp then
    ({ options with gmcpEnabled := true, gmcpEnableNegotiated := true },
      [[kIac, kDo, kTelOptGmcp]])
  else if option = kTelOptMsdp then
    ({ options with msdpEnabled := true, msdpEnableNegotiated := true },
      [[kIac, kDo, kTelOptMsdp]])
  else if option = kTelOptMxp then
    ({ options with mxpEnabled := true }, [[kIac, kDo, kTelOptMxp]])
  else if option = kTelOptMsp then
    ({ options with mspEnabled := true, mspEnableNegotiated := true },
      [[kIac, kDo, kTelOptMsp]])
  else if option = kTelOptZmp then
    ({ options with zmpEnabled := true }, [[kIac, kDo, kTelOptZmp]])
  else (options, [[kIac, kDont, option]])

/-- `handleNegotiation(TelnetState::Do, option)`. -/
def handleDo (options : TelnetOptions) (option : UInt8) : TelnetOptions × List Str :=
  if option = kTelOptEcho then (options, [])
  else if option = kTelOptGmcp then
    ({ options with gmcpEnabled := true, gmcpEnableNegotiated := true }, [])
  else if option = kTelOptMssp then ({ options with msspNegotiated := true }, [])
  else if option = kTelOptMsdp then
    ({ options with msdpEnabled := true, msdpEnableNegotiated := true }, [])
  else if option = kTelOptMxp then ({ options with mxpEnabled := true }, [])
  else if option = kTelOptMsp then
    ({ options with mspEnabled := true, mspEnableNegotiated := true }, [])
  else if option = kTelOptZmp then ({ options with zmpEnabled := true }, [])
  else (options, [[kIac, kWont, option]])

/-- The verb of a negotiation. -/
inductive Verb
  | will
  | wont
  | do_
  | dont

/-- `handleNegotiation`. -/
def handleNegotiation (options : TelnetOptions) (verb : Verb) (option : UInt8) :
    TelnetOptions × List Str :=
  match verb with
  | .will => handleWill options option
  | .do_ => handleDo options option
  | .wont | .dont => (options, [])

/-- The TTYPE case of `handleSubnegotiation`. -/
def handleTtype (options : TelnetOptions) (sbBuffer : Str) : TelnetOptions :=
  if sbBuffer[1]? = some kTelQualIs then
    { options with terminalType := sbBuffer.drop 2, terminalTypeUpdated := true }
  else options

/-- The GMCP case of `handleSubnegotiation`. -/
def handleGmcp (options : TelnetOptions) (sbBuffer : Str) : TelnetOptions :=
  { options with
    incomingGmcp :=
      if sbBuffer.length > 1 then options.incomingGmcp ++ [sbBuffer.drop 1]
      else options.incomingGmcp
    gmcpEnabled := true }

/-- The variable and the value of an MSDP payload behind its `MSDP_VAR`. -/
def msdpPair (payload : Str) : Str × Str :=
  if kMsdpVal ∈ payload then
    (payload.takeWhile (· != kMsdpVal), (payload.dropWhile (· != kMsdpVal)).drop 1)
  else (payload, [])

/-- The MSDP case of `handleSubnegotiation`. -/
def handleMsdp (options : TelnetOptions) (sbBuffer : Str) : TelnetOptions :=
  { options with
    incomingMsdp :=
      if sbBuffer[1]? = some kMsdpVar then
        options.incomingMsdp ++ [msdpPair (sbBuffer.drop 2)]
      else options.incomingMsdp
    msdpEnabled := true }

/-- The fields of a ZMP payload, each ended by a NUL. -/
def zmpFields : Str → List Str
  | [] => []
  | byte :: payload =>
      if byte = 0 then [] :: zmpFields payload
      else
        match zmpFields payload with
        | [] => [[byte]]
        | field :: fields => (byte :: field) :: fields

/-- The ZMP case of `handleSubnegotiation`. -/
def handleZmp (options : TelnetOptions) (sbBuffer : Str) : TelnetOptions :=
  let payload := sbBuffer.drop 1
  { options with
    incomingZmp :=
      if payload.getLast? = some 0 then
        match zmpFields payload with
        | [] => options.incomingZmp
        | command :: args => options.incomingZmp ++ [(command, args)]
      else options.incomingZmp
    zmpEnabled := true }

/-- `(byteAt(i) << 8) | byteAt(i + 1)`. -/
def twoBytes (high low : UInt8) : Nat :=
  high.toNat <<< 8 ||| low.toNat

/-- The NAWS case of `handleSubnegotiation`. -/
def handleNaws (options : TelnetOptions) (sbBuffer : Str) : TelnetOptions :=
  match sbBuffer with
  | _ :: w1 :: w0 :: h1 :: h0 :: _ =>
      { options with
        terminalWidth := twoBytes w1 w0
        terminalHeight := twoBytes h1 h0
        windowSizeUpdated := true }
  | _ => options

/-- `handleSubnegotiation`. -/
def handleSubnegotiation (options : TelnetOptions) (sbBuffer : Str) : TelnetOptions :=
  match sbBuffer.head? with
  | none => options
  | some sbOption =>
      if sbOption = kTelOptTtype then handleTtype options sbBuffer
      else if sbOption = kTelOptGmcp then handleGmcp options sbBuffer
      else if sbOption = kTelOptMsdp then handleMsdp options sbBuffer
      else if sbOption = kTelOptZmp then handleZmp options sbBuffer
      else if sbOption = kTelOptNaws then handleNaws options sbBuffer
      else options

/-! ## The machine -/

/-- The members of `Connection` that `processTelnetBytes` reads and writes. -/
structure Telnet where
  state : TelnetState := .data
  sbBuffer : Str := []
  options : TelnetOptions := {}

/-- What one byte of input leads to: the machine after it, the byte it adds to
`plainOut`, and what is handed to `send`. -/
structure TelnetStep where
  telnet : Telnet
  plain : Str := []
  sends : List Str := []

/-- The inner `switch` of the `Iac` state. -/
def Telnet.command (telnet : Telnet) (b : UInt8) : TelnetStep :=
  if b = kIac then { telnet := { telnet with state := .data }, plain := [kIac] }
  else if b = kWill then { telnet := { telnet with state := .will } }
  else if b = kWont then { telnet := { telnet with state := .wont } }
  else if b = kDo then { telnet := { telnet with state := .do_ } }
  else if b = kDont then { telnet := { telnet with state := .dont } }
  else if b = kSb then { telnet := { telnet with state := .sb, sbBuffer := [] } }
  else { telnet := { telnet with state := .data } }

/-- The four negotiation states. -/
def Telnet.negotiate (telnet : Telnet) (verb : Verb) (b : UInt8) : TelnetStep :=
  let negotiated := handleNegotiation telnet.options verb b
  { telnet := { telnet with state := .data, options := negotiated.1 }
    sends := negotiated.2 }

/-- The body of the loop of `processTelnetBytes`. -/
def Telnet.step (telnet : Telnet) (b : UInt8) : TelnetStep :=
  match telnet.state with
  | .data =>
      if b = kIac then { telnet := { telnet with state := .iac } }
      else { telnet := telnet, plain := [b] }
  | .iac => telnet.command b
  | .will => telnet.negotiate .will b
  | .wont => telnet.negotiate .wont b
  | .do_ => telnet.negotiate .do_ b
  | .dont => telnet.negotiate .dont b
  | .sb =>
      if b = kIac then { telnet := { telnet with state := .sbIac } }
      else { telnet := { telnet with sbBuffer := telnet.sbBuffer ++ [b] } }
  | .sbIac =>
      if b = kSe then
        { telnet :=
            { telnet with
              state := .data
              options := handleSubnegotiation telnet.options telnet.sbBuffer } }
      else if b = kIac then
        { telnet := { telnet with state := .sb, sbBuffer := telnet.sbBuffer ++ [kIac] } }
      else { telnet := { telnet with state := .data } }

/-- `processTelnetBytes`, with what it adds to `plainOut`. -/
def Telnet.process (telnet : Telnet) : Str → TelnetStep
  | [] => { telnet }
  | b :: raw =>
      let first := telnet.step b
      let later := first.telnet.process raw
      { telnet := later.telnet
        plain := first.plain ++ later.plain
        sends := first.sends ++ later.sends }

/-- Bytes fed in two pieces are the same as fed at once. -/
theorem Telnet.process_append (telnet : Telnet) (raw more : Str) :
    telnet.process (raw ++ more) =
      { telnet := ((telnet.process raw).telnet.process more).telnet
        plain := (telnet.process raw).plain ++ ((telnet.process raw).telnet.process more).plain
        sends := (telnet.process raw).sends ++
          ((telnet.process raw).telnet.process more).sends } := by
  induction raw generalizing telnet with
  | nil => rfl
  | cons b raw inductionHypothesis =>
      simp only [List.cons_append, Telnet.process, inductionHypothesis, List.append_assoc]

end Kjdmud.Net
