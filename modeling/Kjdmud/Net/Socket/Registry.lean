import Kjdmud.Lib.Cut
import Kjdmud.Scheduler.CallOut.Core
import Kjdmud.Vm.SaveVariable
import Kjdmud.Vm.Value
import Mathlib.Logic.Function.Basic

/-!
# The LPC sockets

`include/kjdmud/net/LpcSocket.hpp` and `src/net/SocketRegistry.cpp`: the table of
efun sockets and the operations LPC code reaches it with.  A `shared_ptr` to a
socket is its handle, which is never used twice; `g_sockets` is the list of the
handles it holds, so that a socket that was taken out of the table can still be
looked at by whoever shares it.

What the C library answers in a call is an argument of the call.
-/

namespace Kjdmud.Net.Socket

open Kjdmud.Scheduler (World ObjectStatus)
open Kjdmud.SaveVariable (SaveValue writeRealSaveValue)
open Kjdmud.Vm (Value)

/-! ## `namespace SocketErr` -/

namespace SocketErr

def success : Int := 1
def eSocket : Int := -1
def eSetSockOpt : Int := -2
def eNonBlock : Int := -3
def eFdRange : Int := -5
def eBadF : Int := -6
def eSecurity : Int := -7
def eIsBound : Int := -8
def eAddrInUse : Int := -9
def eBind : Int := -10
def eModeNotSupp : Int := -12
def eNoAddr : Int := -13
def eIsConn : Int := -14
def eListen : Int := -15
def eNotListn : Int := -16
def eWouldBlock : Int := -17
def eIntr : Int := -18
def eAccept : Int := -19
def eIsListen : Int := -20
def eBadAddr : Int := -21
def eAlready : Int := -22
def eConnRefused : Int := -23
def eConnect : Int := -24
def eNotConn : Int := -25
def eTypeNotSupp : Int := -26
def eSendTo : Int := -27
def eSend : Int := -28
def eCallback : Int := -29
def eSockRlsd : Int := -30
def eSockNotRlsd : Int := -31

end SocketErr

/-! ## Sockets -/

inductive SocketMode
  | stream
  | datagram
  | mud
  deriving DecidableEq

inductive SocketState
  | unbound
  | bound
  | listen
  | dataXfer
  | closed
  deriving DecidableEq

/-- The members `mud...` of `LpcSocket`.  The bytes of a header or of a body that have
arrived are kept as a list, so that `mudHeaderGot` and `mudReadGot` are lengths. -/
structure MudReader where
  waitingForHeader : Bool := true
  header : Str := []
  readLen : Nat := 0
  readBuf : Str := []

/-- `LpcSocket`, without the addresses that only `socket_status` reads. -/
structure LpcSocket where
  handle : Int
  fd : Int
  mode : SocketMode
  owner : Option ObjectId
  state : SocketState := .unbound
  readCallback : Value := Value.void
  writeCallback : Value := Value.void
  closeCallback : Value := Value.void
  released : Bool := false
  releaseTarget : Option ObjectId := none
  blocked : Bool := false
  pendingWrite : Str := []
  mud : MudReader := {}
  acceptPending : Bool := false

/-- A socket marked as released to an object. -/
def LpcSocket.releasedTo (sock : LpcSocket) (ob : Option ObjectId) : LpcSocket :=
  { sock with released := true, releaseTarget := ob }

/-- A socket that is not released to anybody. -/
def LpcSocket.unreleased (sock : LpcSocket) : LpcSocket :=
  { sock with released := false, releaseTarget := none }

/-- The kernel takes some bytes of what is waiting. -/
def LpcSocket.flush (sock : LpcSocket) (off : Nat) : LpcSocket :=
  { sock with
    pendingWrite := sock.pendingWrite.drop off
    blocked := !(sock.pendingWrite.drop off).isEmpty }

/-- `g_sockets` and `g_nextHandle`, with every socket that was ever made. -/
structure Registry where
  sockets : List Int := []
  nextHandle : Int := 0
  made : Int → Option LpcSocket := fun _ => none

/-! ## The C library -/

/-- The values of `errno` that the driver tells apart. -/
inductive Errno
  | eAgain
  | eIntr
  | eAddrInUse
  | eAlready
  | eConnRefused
  | eInProgress
  | ePerm
  | eNetUnreach
  | eHostUnreach
  | other

/-- What the C library answers in one call of an efun: whether `inet_addr` takes a
text, what the call on the descriptor returns, and whether the options of a new
descriptor are set. -/
structure Answers where
  inetAddr : Str → Bool := fun _ => true
  returned : Except Errno Nat := .ok 0
  setSockOpt : Bool := true
  nonBlocking : Bool := true

def space : UInt8 := 0x20

/-- `parseHostPort`: the host, for a text with a space and something behind it. -/
def parseHostPort (name : Str) : Option Str :=
  match Drain.cutAt [space] name with
  | some (host, port) => if port = [] then none else some host
  | none => none

/-- `parseHostPort` and `buildSockaddr`. -/
def Answers.resolves (answers : Answers) (address : Str) : Bool :=
  match parseHostPort address with
  | some host => answers.inetAddr host || host == str "255.255.255.255"
  | none => false

/-! ## The table -/

namespace Registry

/-- `SocketRegistry::find`. -/
def find (r : Registry) (handle : Int) : Option LpcSocket :=
  if handle ∈ r.sockets then r.made handle else none

/-- Change a socket in place. -/
def update (r : Registry) (sock : LpcSocket) : Registry :=
  { r with made := Function.update r.made sock.handle (some sock) }

/-- Enter a new socket. -/
def enter (r : Registry) (sock : LpcSocket) : Registry :=
  { r.update sock with
    sockets := sock.handle :: r.sockets
    nextHandle := r.nextHandle + 1 }

/-- `SocketRegistry::forceRemove`. -/
def forceRemove (r : Registry) (handle : Int) : Registry :=
  { r with sockets := r.sockets.filter (· ≠ handle) }

/-- `SocketRegistry::closeAllOwnedBy`. -/
def closeAllOwnedBy (r : Registry) (world : World) (owner : ObjectId) : Registry :=
  { r with
    sockets := r.sockets.filter fun handle =>
      !(r.made handle).any fun sock =>
        world.lock sock.owner == some owner && sock.state != .closed }

/-- The beginning of every operation on a handle that its owner has to make. -/
def asOwner (r : Registry) (world : World) (handle : Int) (caller : Option ObjectId)
    (operate : LpcSocket → Registry × Int) : Registry × Int :=
  match r.find handle with
  | none => (r, SocketErr.eFdRange)
  | some sock =>
      if sock.state = .closed then (r, SocketErr.eBadF)
      else if world.lock sock.owner ≠ caller then (r, SocketErr.eSecurity)
      else operate sock

/-- `SocketRegistry::create`. -/
def create (r : Registry) (mode : Int) (readCallback closeCallback : Value)
    (owner : Option ObjectId) (answers : Answers) : Registry × Int :=
  let made := fun (sm : SocketMode) =>
    match answers.returned with
    | .error _ => (r, SocketErr.eSocket)
    | .ok fd =>
        if !answers.setSockOpt then (r, SocketErr.eSetSockOpt)
        else if !answers.nonBlocking then (r, SocketErr.eNonBlock)
        else
          (r.enter
            { handle := r.nextHandle
              fd := fd
              mode := sm
              owner := owner
              readCallback := readCallback
              closeCallback := if sm = .datagram then Value.void else closeCallback },
            r.nextHandle)
  if mode = 0 then made .mud
  else if mode = 1 then made .stream
  else if mode = 2 then made .datagram
  else (r, SocketErr.eModeNotSupp)

/-- `SocketRegistry::bind`. -/
def bind (r : Registry) (world : World) (handle : Int) (addr : Option Str)
    (caller : Option ObjectId) (answers : Answers) : Registry × Int :=
  r.asOwner world handle caller fun sock =>
    if sock.state ≠ .unbound then (r, SocketErr.eIsBound)
    else if addr.any fun text => !answers.inetAddr text then (r, SocketErr.eBadAddr)
    else
      match answers.returned with
      | .error .eAddrInUse => (r, SocketErr.eAddrInUse)
      | .error _ => (r, SocketErr.eBind)
      | .ok _ => (r.update { sock with state := .bound }, SocketErr.success)

/-- `SocketRegistry::listen`. -/
def listen (r : Registry) (world : World) (handle : Int) (callback : Value)
    (caller : Option ObjectId) (answers : Answers) : Registry × Int :=
  r.asOwner world handle caller fun sock =>
    if sock.mode = .datagram then (r, SocketErr.eModeNotSupp)
    else if sock.state = .unbound then (r, SocketErr.eNoAddr)
    else if sock.state ≠ .bound then (r, SocketErr.eIsConn)
    else
      match answers.returned with
      | .error _ => (r, SocketErr.eListen)
      | .ok _ =>
          (r.update { sock with state := .listen, readCallback := callback },
            SocketErr.success)

/-- `SocketRegistry::accept`. -/
def accept (r : Registry) (world : World) (handle : Int)
    (readCallback writeCallback : Value) (caller : Option ObjectId) (answers : Answers) :
    Registry × Int :=
  r.asOwner world handle caller fun sock =>
    if sock.mode = .datagram then (r, SocketErr.eModeNotSupp)
    else if sock.state ≠ .listen then (r, SocketErr.eNotListn)
    else
      let r := r.update { sock with acceptPending := false }
      match answers.returned with
      | .error .eAgain => (r, SocketErr.eWouldBlock)
      | .error .eIntr => (r, SocketErr.eIntr)
      | .error _ => (r, SocketErr.eAccept)
      | .ok newFd =>
          (r.enter
            { handle := r.nextHandle
              fd := newFd
              mode := sock.mode
              owner := caller
              state := .dataXfer
              readCallback := readCallback
              writeCallback := writeCallback
              closeCallback := sock.closeCallback },
            r.nextHandle)

/-- The `errno` switch of `SocketRegistry::connect`: the error it returns, if any. -/
def connectError : Except Errno Nat → Option Int
  | .ok _ => none
  | .error .eIntr => some SocketErr.eIntr
  | .error .eAddrInUse => some SocketErr.eAddrInUse
  | .error .eAlready => some SocketErr.eAlready
  | .error .eConnRefused => some SocketErr.eConnRefused
  | .error .eInProgress | .error .ePerm | .error .eNetUnreach | .error .eHostUnreach => none
  | .error .eAgain | .error .other => some SocketErr.eConnect

/-- `SocketRegistry::connect`. -/
def connect (r : Registry) (world : World) (handle : Int) (address : Str)
    (readCallback writeCallback : Value) (caller : Option ObjectId) (answers : Answers) :
    Registry × Int :=
  r.asOwner world handle caller fun sock =>
    if sock.mode = .datagram then (r, SocketErr.eModeNotSupp)
    else if sock.state = .listen then (r, SocketErr.eIsListen)
    else if sock.state = .dataXfer then (r, SocketErr.eIsConn)
    else if !answers.resolves address then (r, SocketErr.eBadAddr)
    else
      -- The callbacks are in place before `connect(2)` can fail.
      let sock := { sock with readCallback := readCallback, writeCallback := writeCallback }
      match connectError answers.returned with
      | some error => (r.update sock, error)
      | none =>
          (r.update { sock with state := .dataXfer, blocked := true }, SocketErr.success)

/-- `SocketRegistry::write`. -/
def write (r : Registry) (world : World) (handle : Int) (message : SaveValue)
    (address : Option Str) (caller : Option ObjectId) (answers : Answers) : Registry × Int :=
  r.asOwner world handle caller fun sock =>
    match message with
    | .string text =>
        if sock.mode = .datagram then
          match address with
          | none => (r, SocketErr.eNoAddr)
          | some address =>
              if !answers.resolves address then (r, SocketErr.eBadAddr)
              else
                match answers.returned with
                | .error _ => (r, SocketErr.eSendTo)
                | .ok _ => (r, SocketErr.success)
        else if sock.state ≠ .dataXfer then (r, SocketErr.eNotConn)
        else if address.isSome then (r, SocketErr.eBadAddr)
        else if sock.blocked then (r, SocketErr.eAlready)
        else if text.isEmpty then (r, SocketErr.success)
        else
          match answers.returned with
          | .error .eAgain => (r, SocketErr.eWouldBlock)
          | .error .eIntr => (r, SocketErr.eIntr)
          | .error _ | .ok 0 => (r.forceRemove handle, SocketErr.eSend)
          | .ok off =>
              if off < text.length then
                (r.update { sock with blocked := true, pendingWrite := text.drop off },
                  SocketErr.eCallback)
              else (r, SocketErr.success)
    | _ => (r, SocketErr.eTypeNotSupp)

/-- `SocketRegistry::close`. -/
def close (r : Registry) (world : World) (handle : Int) (caller : Option ObjectId) :
    Registry × Int :=
  r.asOwner world handle caller fun _ => (r.forceRemove handle, SocketErr.success)

/-- `SocketRegistry::beginRelease`. -/
def beginRelease (r : Registry) (world : World) (handle : Int) (ob : Option ObjectId)
    (caller : Option ObjectId) : Registry × Int :=
  r.asOwner world handle caller fun sock =>
    if sock.released then (r, SocketErr.eSockRlsd)
    else (r.update (sock.releasedTo ob), SocketErr.success)

/-- `SocketRegistry::isReleased`. -/
def isReleased (r : Registry) (handle : Int) : Bool :=
  (r.find handle).any (·.released)

/-- `SocketRegistry::cancelRelease`. -/
def cancelRelease (r : Registry) (handle : Int) : Registry :=
  match r.find handle with
  | none => r
  | some sock => r.update sock.unreleased

/-- `SocketRegistry::acquire`. -/
def acquire (r : Registry) (world : World) (handle : Int)
    (readCallback writeCallback closeCallback : Value) (caller : Option ObjectId) :
    Registry × Int :=
  match r.find handle with
  | none => (r, SocketErr.eFdRange)
  | some sock =>
      if sock.state = .closed then (r, SocketErr.eBadF)
      else if !sock.released then (r, SocketErr.eSockNotRlsd)
      else if world.lock sock.releaseTarget ≠ caller then (r, SocketErr.eSecurity)
      else
        (r.update
          { sock with
            released := false
            owner := caller
            releaseTarget := none
            readCallback := readCallback
            writeCallback := writeCallback
            closeCallback := closeCallback },
          SocketErr.success)

end Registry

/-! ## The efuns -/

/-- `htonl`, as the four bytes of the result. -/
def htonl (n : Nat) : Str :=
  [UInt8.ofNat (n / 2 ^ 24), UInt8.ofNat (n / 2 ^ 16), UInt8.ofNat (n / 2 ^ 8), UInt8.ofNat n]

/-- What the efun `socket_write` sends on a socket in MUD mode. -/
def framed (message : SaveValue) : Str :=
  let body := writeRealSaveValue message
  htonl ((body.length + 1) % 2 ^ 32) ++ body ++ [0]

/-- A call of one of the socket efuns that take effect at once. -/
inductive Efun
  | create (mode : Int) (readCallback closeCallback : Value)
  | bind (handle : Int) (addr : Option Str)
  | listen (handle : Int) (callback : Value)
  | accept (handle : Int) (readCallback writeCallback : Value)
  | connect (handle : Int) (address : Str) (readCallback writeCallback : Value)
  | write (handle : Int) (message : SaveValue) (address : Option Str)
  | close (handle : Int)
  | acquire (handle : Int) (readCallback writeCallback closeCallback : Value)

/-- The efun `socket_write`. -/
def socketWrite (r : Registry) (world : World) (handle : Int) (message : SaveValue)
    (address : Option Str) (caller : Option ObjectId) (answers : Answers) : Registry × Int :=
  match r.find handle with
  | none => r.write world handle message address caller answers
  | some sock =>
      if sock.mode = .mud then
        match message with
        | .object _ => (r, SocketErr.eTypeNotSupp)
        | message => r.write world handle (.string (framed message)) address caller answers
      else r.write world handle message address caller answers

/-- Call an efun. -/
def call (r : Registry) (world : World) (caller : Option ObjectId) (answers : Answers) :
    Efun → Registry × Int
  | .create mode readCallback closeCallback =>
      r.create mode readCallback closeCallback caller answers
  | .bind handle addr => r.bind world handle addr caller answers
  | .listen handle callback => r.listen world handle callback caller answers
  | .accept handle readCallback writeCallback =>
      r.accept world handle readCallback writeCallback caller answers
  | .connect handle address readCallback writeCallback =>
      r.connect world handle address readCallback writeCallback caller answers
  | .write handle message address =>
      socketWrite r world handle message address caller answers
  | .close handle => r.close world handle caller
  | .acquire handle readCallback writeCallback closeCallback =>
      r.acquire world handle readCallback writeCallback closeCallback caller

end Kjdmud.Net.Socket
