import Kjdmud.Net.Socket.MudFrames
import Kjdmud.Lib.Runs

/-!
# Polling the LPC sockets

`src/net/Server.cpp`: `pollSockets` walks a snapshot of the table and calls LPC code
in the middle of it, and that code may do anything to the table.  The pass is
taken apart at the callbacks: `visit` is the part of an iteration up to the first
one, `frame` one iteration of the loop over the frames of a read, `writeHalf` the
part that flushes.  The snapshot shares the sockets, so a pass goes on with a
socket whether or not the table still has it.
-/

namespace Kjdmud.Net.Socket.Poll

open Kjdmud.Scheduler (World)
open Kjdmud.Vm (Value)

/-- The callbacks of a socket. -/
inductive Kind
  | read
  | write
  | close
  deriving DecidableEq

/-- What a callback gets beside the handle. -/
inductive Argument
  | none
  | text (s : Str)
  /-- A datagram and the address it came from. -/
  | datagram (s peer : Str)
  /-- What `parseRestoreVariableTopLevel` makes of a payload. -/
  | restored (payload : Str)
  deriving DecidableEq

/-- A callback was invoked. -/
structure Event where
  kind : Kind
  handle : Int
  argument : Argument
  deriving DecidableEq

/-- What `read` or `recvfrom` reports. -/
inductive ReadResult
  | bytes (s peer : Str)
  | eof
  /-- `EAGAIN`, `EWOULDBLOCK` or `EINTR`. -/
  | again
  /-- Any other error. -/
  | failed

/-- What `write` reports. -/
inductive WriteResult
  | wrote (off : Nat)
  | again
  | failed

/-- What `poll` reports about a descriptor, and the read that follows. -/
structure Ready where
  readable : Option ReadResult := none
  writable : Bool := false

/-- Where a pass stands with the socket it is at. -/
inductive Position
  /-- The loop over the bytes of a read, and whether `POLLOUT` was reported. -/
  | frames (handle : Int) (bytes : Str) (writable : Bool)
  | writeHalf (handle : Int) (writable : Bool)

/-- A pass of `pollSockets`: the rest of the snapshot, and the socket it is at. -/
structure Pass where
  rest : List Int
  at_ : Option Position := none

/-- Between two steps.  LPC code runs while a callback runs, and outside of a pass. -/
structure State where
  world : World
  registry : Registry := {}
  pass : Option Pass := none
  inCallback : Bool := false
  log : List Event := []

/-- What LPC code can do to the sockets. -/
inductive Lpc
  | call (caller : Option ObjectId) (efun : Efun) (answers : Answers)
  | beginRelease (caller : Option ObjectId) (handle : Int) (ob : Option ObjectId)
  | cancelRelease (handle : Int)
  /-- `closeAllOwnedBy`, for an object that is destructed or reloaded. -/
  | closeAllOwnedBy (ob : ObjectId)
  /-- An object is destructed or freed. -/
  | setStatus (ob : ObjectId) (status : Scheduler.ObjectStatus)

/-- What can happen next. -/
inductive Op
  | lpc (lpc : Lpc)
  | callbackEnds
  /-- A pass takes its snapshot. -/
  | beginPass (order : List Int)
  /-- The pass comes to the next socket. -/
  | visit (ready : Ready)
  | frame
  | writeHalf (result : WriteResult)
  | endPass

namespace State

/-- Whether `fireSocketCallback` calls the VM, which drops the call for a destructed object. -/
def invokes (s : State) (callback : Value) (owner : Option ObjectId) : Bool :=
  match callback.data with
  | .closure ref => ref.isSome
  | .string _ => (s.world.lock owner).isSome
  | _ => false

/-- `fireSocketCallback`. -/
def fire (s : State) (kind : Kind) (sock : LpcSocket) (callback : Value)
    (argument : Argument) : State :=
  if s.invokes callback sock.owner then
    { s with
      inCallback := true
      log := { kind := kind, handle := sock.handle, argument := argument } :: s.log }
  else s

/-- `closeSocketAndFireCallback`. -/
def closeAndFire (s : State) (sock : LpcSocket) : State :=
  { s with registry := s.registry.forceRemove sock.handle }.fire .close sock
    sock.closeCallback .none

/-- Change a socket that the pass shares. -/
def update (s : State) (sock : LpcSocket) : State :=
  { s with registry := s.registry.update sock }

/-- Where the pass goes on. -/
def goOn (s : State) (rest : List Int) (at_ : Option Position) : State :=
  { s with pass := some { rest := rest, at_ := at_ } }

/-- The part of an iteration that depends on the kind of the socket. -/
def visit (s : State) (rest : List Int) (sock : LpcSocket) (ready : Ready) : State :=
  let next := s.goOn rest none
  if sock.fd < 0 then next
  else if sock.mode = .datagram then
    match ready.readable with
    | some (.bytes text peer) =>
        next.fire .read sock sock.readCallback (.datagram (text.takeWhile (· ≠ 0)) peer)
    | _ => next
  else if sock.state = .listen then
    if sock.acceptPending then next
    else
      match ready.readable with
      | none => next
      | some _ =>
          (next.update { sock with acceptPending := true }).fire .read sock sock.readCallback
            .none
  else if sock.state ≠ .dataXfer then next
  else
    let writable := sock.blocked && ready.writable
    match ready.readable with
    | some (.bytes text _) =>
        if sock.mode = .mud then s.goOn rest (some (.frames sock.handle text writable))
        else
          (s.goOn rest (some (.writeHalf sock.handle writable))).fire .read sock
            sock.readCallback (.text text)
    | some .eof | some .failed => next.closeAndFire sock
    | some .again | none => s.goOn rest (some (.writeHalf sock.handle writable))

/-- One iteration of the loop over the bytes of a read in MUD mode. -/
def frame (s : State) (rest : List Int) (sock : LpcSocket) (bytes : Str)
    (writable : Bool) : State :=
  let done := s.goOn rest (some (.writeHalf sock.handle writable))
  if bytes = [] then done
  else
    match sock.mud.iterate bytes with
    | .starved mud => done.update { sock with mud := mud }
    | .refused => (s.goOn rest none).closeAndFire sock
    | .frame payload behind =>
        ((s.goOn rest (some (.frames sock.handle behind writable))).update
          { sock with mud := {} }).fire .read sock sock.readCallback (.restored payload)

/-- The part of an iteration that flushes. -/
def writeHalf (s : State) (rest : List Int) (sock : LpcSocket) (writable : Bool)
    (result : WriteResult) : State :=
  let next := s.goOn rest none
  if writable && sock.blocked then
    let flushed := fun (off : Nat) =>
      if (sock.flush off).blocked then next.update (sock.flush off)
      else (next.update (sock.flush off)).fire .write sock sock.writeCallback .none
    if sock.pendingWrite = [] then flushed 0
    else
      match result with
      | .wrote off => flushed off
      | .again => next
      | .failed => next.closeAndFire sock
  else next

/-- What LPC code does. -/
def lpc (s : State) : Lpc → State
  | .call caller efun answers =>
      { s with registry := (Socket.call s.registry s.world caller answers efun).1 }
  | .beginRelease caller handle ob =>
      { s with registry := (s.registry.beginRelease s.world handle ob caller).1 }
  | .cancelRelease handle => { s with registry := s.registry.cancelRelease handle }
  | .closeAllOwnedBy ob => { s with registry := s.registry.closeAllOwnedBy s.world ob }
  | .setStatus ob status =>
      { s with world := { s.world with status := Function.update s.world.status ob status } }

/-- Execute one operation; `none` where it cannot happen. -/
def step (s : State) : Op → Option State
  | .lpc l => if s.inCallback ∨ s.pass.isNone then some (s.lpc l) else none
  | .callbackEnds => if s.inCallback then some { s with inCallback := false } else none
  | .beginPass order =>
      if s.pass.isNone ∧ s.inCallback = false ∧ order.Perm s.registry.sockets then
        some (s.goOn order none)
      else none
  | .visit ready =>
      match s.inCallback, s.pass with
      | false, some { rest := handle :: rest, at_ := none } =>
          (s.registry.made handle).map fun sock => s.visit rest sock ready
      | _, _ => none
  | .frame =>
      match s.inCallback, s.pass with
      | false, some { rest, at_ := some (.frames handle bytes writable) } =>
          (s.registry.made handle).map fun sock => s.frame rest sock bytes writable
      | _, _ => none
  | .writeHalf result =>
      match s.inCallback, s.pass with
      | false, some { rest, at_ := some (.writeHalf handle writable) } =>
          (s.registry.made handle).map fun sock => s.writeHalf rest sock writable result
      | _, _ => none
  | .endPass =>
      match s.inCallback, s.pass with
      | false, some { rest := [], at_ := none } => some { s with pass := none }
      | _, _ => none

end State

/-- Every socket is closed, and no pass is going on. -/
def initial (world : World) : State :=
  { world }

/-! ## What a pass has before it -/

/-- What the pass has still to do with the socket it is at: bytes that the read returned, or
the half that flushes. -/
def Position.Ahead (s : State) (handle : Int) : Position → Prop
  | .frames at_ bytes writable =>
      at_ = handle ∧ (bytes ≠ [] ∨
        (writable = true ∧ ∃ sock, s.registry.made handle = some sock ∧ sock.blocked = true))
  | .writeHalf at_ writable =>
      at_ = handle ∧ writable = true ∧
        ∃ sock, s.registry.made handle = some sock ∧ sock.blocked = true

/-- A pass has something before it for a handle: it has not come to it yet, or it is not done
with it. -/
def State.Ahead (s : State) (handle : Int) : Prop :=
  ∃ pass, s.pass = some pass ∧
    (handle ∈ pass.rest ∨ ∃ position, pass.at_ = some position ∧ position.Ahead s handle)

/-- LPC code closes no socket that a pass has something before it for. -/
def Clear (s : State) (op : Op) : Prop :=
  ∀ l, op = .lpc l → ∀ handle, s.Ahead handle → handle ∈ s.registry.sockets →
    handle ∈ (s.lpc l).registry.sockets

/-- `target` is reached from `source` by executing `ops`. -/
abbrev Run : State → List Op → State → Prop :=
  Lib.Runs.Run fun s op t => s.step op = some t

/-- A run whose operations are all clear. -/
abbrev ClearRun : State → List Op → State → Prop :=
  Lib.Runs.ClearRun (fun s op t => s.step op = some t) Clear

/-! ## The law of the callbacks -/

/-- The callbacks invoked for a handle, newest first. -/
def callbacks (handle : Int) (log : List Event) : List Event :=
  log.filter (·.handle = handle)

/-- A handle that was in the table and is not any more. -/
def Removed (s : State) (handle : Int) : Prop :=
  handle < s.registry.nextHandle ∧ handle ∉ s.registry.sockets

end Kjdmud.Net.Socket.Poll
