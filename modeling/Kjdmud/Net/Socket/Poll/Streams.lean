import Kjdmud.Net.Socket.Poll.Callbacks

/-!
# The bytes of a stream socket

`SocketRegistry::write` hands a message to the kernel at once and keeps in
`pendingWrite` what the kernel does not take; `pollSockets` flushes the rest later.
The flag `blocked` stands between the two: while it is set nothing is written over
what waits, and it is off only where nothing waits.  So what the kernel got,
followed by what waits, is what was accepted.
-/

namespace Kjdmud.Net.Socket.Poll

open Kjdmud.Scheduler (World)
open Kjdmud.SaveVariable (SaveValue)
open Kjdmud.Vm (Value)

/-! ## What a step hands over and what it accepts -/

/-- The bytes that the call of `::write` in `SocketRegistry::write` takes, if it comes to
it. -/
def taken (r : Registry) (world : World) (handle : Int) (message : SaveValue)
    (address : Option Str) (caller : Option ObjectId) (answers : Answers) : Str :=
  match r.find handle, message, answers.returned with
  | some sock, .string text, .ok off =>
      if sock.state = .closed ∨ world.lock sock.owner ≠ caller ∨ sock.mode = .datagram ∨
          sock.state ≠ .dataXfer ∨ address.isSome ∨ sock.blocked ∨ text.isEmpty then []
      else text.take off
  | _, _, _ => []

/-- The message of a call of `SocketRegistry::write` that returns `Success` or `ECallback`. -/
def acceptedMessage (message : SaveValue) (rc : Int) : Str :=
  match message with
  | .string text =>
      if rc = SocketErr.success ∨ rc = SocketErr.eCallback then text else []
  | _ => []

/-- The bytes that a step hands to the kernel for a socket. -/
def State.handed (s : State) (handle : Int) : Op → Str
  | .lpc (.call caller (.write h message address) answers) =>
      if h = handle then taken s.registry s.world h message address caller answers else []
  | .writeHalf (.wrote off) =>
      match s.pass with
      | some { rest := _, at_ := some (.writeHalf h writable) } =>
          match s.registry.made h with
          | some sock =>
              if h = handle ∧ writable ∧ sock.blocked then sock.pendingWrite.take off else []
          | none => []
      | _ => []
  | _ => []

/-- The message that a step accepts for a socket. -/
def State.accepted (s : State) (handle : Int) : Op → Str
  | .lpc (.call caller (.write h message address) answers) =>
      if h = handle then
        acceptedMessage message
          (socketWrite s.registry s.world h message address caller answers).2
      else []
  | _ => []

/-- A call of `SocketRegistry::write` on a socket that returns neither `Success` nor
`ECallback`. -/
def State.Refuses (s : State) (handle : Int) (op : Op) : Prop :=
  ∃ caller message address answers,
    op = .lpc (.call caller (.write handle message address) answers) ∧
      ∀ rc ∈ [SocketErr.success, SocketErr.eCallback],
        (socketWrite s.registry s.world handle message address caller answers).2 ≠ rc

/-- A run of the sockets, with what was handed to the kernel for one of them and what was
accepted for it. -/
inductive StreamRun (world : World) (handle : Int) : State → Str → Str → Prop
  | start : StreamRun world handle (initial world) [] []
  | step {s s' : State} {handed accepted : Str}
      (run : StreamRun world handle s handed accepted) (op : Op) (step : s.step op = some s') :
      StreamRun world handle s' (handed ++ s.handed handle op)
        (accepted ++ s.accepted handle op)

/-! ## Sockets that wait for the kernel -/

/-- Where nothing blocks a socket nothing waits. -/
def Waits (sock : LpcSocket) : Prop :=
  sock.blocked = false → sock.pendingWrite = []

/-- What becomes of a socket that nothing is written on. -/
inductive Rests : Option LpcSocket → Option LpcSocket → Prop
  | absent : Rests none none
  | made {sock : LpcSocket} (fresh : sock.pendingWrite = []) : Rests none (some sock)
  | kept {sock sock' : LpcSocket} (mode : sock'.mode = sock.mode)
      (pending : sock'.pendingWrite = sock.pendingWrite)
      (blocked : sock.blocked = true → sock'.blocked = true) : Rests (some sock) (some sock')

theorem Rests.refl (sock : Option LpcSocket) : Rests sock sock := by
  cases sock with
  | none => exact .absent
  | some sock => exact .kept rfl rfl id

theorem Rests.trans {first second third : Option LpcSocket} (left : Rests first second)
    (right : Rests second third) : Rests first third := by
  cases left with
  | absent => exact right
  | made fresh =>
      cases right with
      | kept mode pending blocked => exact .made (pending.trans fresh)
  | kept mode pending blocked =>
      cases right with
      | kept mode' pending' blocked' =>
          exact .kept (mode'.trans mode) (pending'.trans pending) (blocked' ∘ blocked)

/-- Nothing is written on any socket. -/
def Quiet (r r' : Registry) : Prop :=
  ∀ handle, Rests (r.made handle) (r'.made handle)

section Quiet

variable {r r' : Registry} {sock sock' : LpcSocket}

theorem Quiet.of_made (made : r'.made = r.made) : Quiet r r' := by
  intro handle
  rw [made]
  exact .refl _

theorem Quiet.trans {r'' : Registry} (left : Quiet r r') (right : Quiet r' r'') : Quiet r r'' :=
  fun handle => (left handle).trans (right handle)

theorem Quiet.update (made : r.made sock'.handle = some sock) (mode : sock'.mode = sock.mode)
    (pending : sock'.pendingWrite = sock.pendingWrite)
    (blocked : sock.blocked = true → sock'.blocked = true) : Quiet r (r.update sock') := by
  intro handle
  by_cases here : handle = sock'.handle
  · have changed : (r.update sock').made handle = some sock' := by
      rw [here]
      exact Function.update_self ..
    rw [changed, here, made]
    exact .kept mode pending blocked
  · have same : (r.update sock').made handle = r.made handle := Function.update_of_ne here ..
    rw [same]
    exact .refl _

theorem Quiet.enter (new : r.made sock.handle = none) (fresh : sock.pendingWrite = []) :
    Quiet r (r.enter sock) := by
  intro handle
  by_cases here : handle = sock.handle
  · have entered : (r.enter sock).made handle = some sock := by
      rw [here]
      exact Function.update_self ..
    rw [entered, here, new]
    exact .made fresh
  · have same : (r.enter sock).made handle = r.made handle := Function.update_of_ne here ..
    rw [same]
    exact .refl _

end Quiet

theorem made_next {r : Registry} (keyed : r.Keyed) : r.made r.nextHandle = none := by
  cases made : r.made r.nextHandle with
  | none => rfl
  | some sock => exact absurd (keyed.old made) (Int.lt_irrefl _)

/-! ## The efuns that write nothing -/

section Efuns

variable {r : Registry} (keyed : r.Keyed) (world : World) (caller : Option ObjectId)
  (answers : Answers) (handle : Int)

include keyed

/-- An operation of the owner rests if what it does to the socket it finds does. -/
theorem quiet_asOwner {operate : LpcSocket → Registry × Int}
    (each : ∀ sock, r.made sock.handle = some sock → Quiet r (operate sock).1) :
    Quiet r (r.asOwner world handle caller operate).1 := by
  cases done : r.asOwner world handle caller operate with
  | mk r' rc =>
      rcases Registry.asOwner_cases done with ⟨rfl, -⟩ | ⟨sock, found, -, operated⟩
      · exact .of_made rfl
      · have made := (Registry.find_eq_some.mp found).2
        rw [← keyed.of_find found] at made
        have rests := each sock made
        rw [operated] at rests
        exact rests

theorem quiet_create (mode : Int) (readCallback closeCallback : Value) :
    Quiet r (r.create mode readCallback closeCallback caller answers).1 := by
  unfold Registry.create
  extract_lets made
  have entered : ∀ sm : SocketMode, Quiet r (made sm).1 := by
    intro sm
    unfold made
    split
    · exact .of_made rfl
    · split
      · exact .of_made rfl
      · split
        · exact .of_made rfl
        · exact .enter (made_next keyed) rfl
  split
  · exact entered .mud
  · split
    · exact entered .stream
    · split
      · exact entered .datagram
      · exact .of_made rfl

theorem quiet_bind (addr : Option Str) : Quiet r (r.bind world handle addr caller answers).1 := by
  apply quiet_asOwner keyed
  intro sock made
  split
  · exact .of_made rfl
  · split
    · exact .of_made rfl
    · split
      · exact .of_made rfl
      · exact .of_made rfl
      · exact .update made rfl rfl id

theorem quiet_listen (callback : Value) :
    Quiet r (r.listen world handle callback caller answers).1 := by
  apply quiet_asOwner keyed
  intro sock made
  split
  · exact .of_made rfl
  · split
    · exact .of_made rfl
    · split
      · exact .of_made rfl
      · split
        · exact .of_made rfl
        · exact .update made rfl rfl id

theorem quiet_connect (address : Str) (readCallback writeCallback : Value) :
    Quiet r (r.connect world handle address readCallback writeCallback caller answers).1 := by
  apply quiet_asOwner keyed
  intro sock made
  split
  · exact .of_made rfl
  · split
    · exact .of_made rfl
    · split
      · exact .of_made rfl
      · split
        · exact .of_made rfl
        · split
          · exact .update made rfl rfl id
          · exact .update made rfl rfl fun _ => rfl

theorem quiet_accept (readCallback writeCallback : Value) :
    Quiet r (r.accept world handle readCallback writeCallback caller answers).1 := by
  apply quiet_asOwner keyed
  intro sock made
  split
  · exact .of_made rfl
  · split
    · exact .of_made rfl
    · have polled : Quiet r (r.update { sock with acceptPending := false }) :=
        .update made rfl rfl id
      simp only
      split
      · exact polled
      · exact polled
      · exact polled
      · have keyed' : (r.update { sock with acceptPending := false }).Keyed :=
          keyed.update_old (keyed.old made)
        exact polled.trans (.enter (made_next keyed') rfl)

theorem quiet_acquire (readCallback writeCallback closeCallback : Value) :
    Quiet r (r.acquire world handle readCallback writeCallback closeCallback caller).1 := by
  unfold Registry.acquire
  split
  · exact .of_made rfl
  · next sock found =>
      have made := (Registry.find_eq_some.mp found).2
      rw [← keyed.of_find found] at made
      split
      · exact .of_made rfl
      · split
        · exact .of_made rfl
        · split
          · exact .of_made rfl
          · exact .update made rfl rfl id

theorem quiet_close : Quiet r (r.close world handle caller).1 := by
  apply quiet_asOwner keyed
  intro sock _
  exact .of_made rfl

end Efuns

/-! ## The efun that writes -/

/-- What becomes of a socket in a step that hands over `handed` and accepts `accepted`. -/
inductive Streams : Option LpcSocket → Option LpcSocket → Str → Str → Prop
  | rests {sock sock' : Option LpcSocket} (rests : Rests sock sock') : Streams sock sock' [] []
  /-- A message is accepted, and what the kernel does not take waits. -/
  | wrote {sock sock' : LpcSocket} {handed : Str} (mode : sock'.mode = sock.mode)
      (free : sock.blocked = false) (waits : Waits sock') :
      Streams (some sock) (some sock') handed (handed ++ sock'.pendingWrite)
  /-- The kernel takes some of what waits. -/
  | flushed (sock : LpcSocket) (off : Nat) :
      Streams (some sock) (some (sock.flush off)) (sock.pendingWrite.take off) []

/-- The law of one socket is kept. -/
theorem Streams.law {sock sock' : LpcSocket} {handed accepted more moreAccepted : Str}
    (streams : Streams (some sock) (some sock') more moreAccepted) (waits : Waits sock)
    (law : handed ++ sock.pendingWrite = accepted) :
    Waits sock' ∧ (handed ++ more) ++ sock'.pendingWrite = accepted ++ moreAccepted := by
  cases streams with
  | rests rests =>
      cases rests with
      | kept mode pending blocked =>
          constructor
          · intro free
            rw [pending]
            cases held : sock.blocked with
            | false => exact waits held
            | true =>
                rw [blocked held] at free
                contradiction
          · rw [List.append_nil, List.append_nil, pending, law]
  | wrote mode free waits' =>
      have empty := waits free
      rw [empty, List.append_nil] at law
      exact ⟨waits', by rw [law, List.append_assoc]⟩
  | flushed sock off =>
      constructor
      · intro free
        simpa [LpcSocket.flush] using free
      · rw [List.append_nil, List.append_assoc, ← law]
        simp [LpcSocket.flush]

/-- A new socket has nothing behind it. -/
theorem Streams.law_made {sock : LpcSocket} {more moreAccepted : Str}
    (streams : Streams none (some sock) more moreAccepted) :
    Waits sock ∧ more ++ sock.pendingWrite = moreAccepted := by
  cases streams with
  | rests rests =>
      cases rests with
      | made fresh => exact ⟨fun _ => fresh, fresh⟩

theorem Streams.mode {sock sock' : LpcSocket} {handed accepted : Str}
    (streams : Streams (some sock) (some sock') handed accepted) : sock'.mode = sock.mode := by
  cases streams with
  | rests rests =>
      cases rests with
      | kept mode _ _ => exact mode
  | wrote mode _ _ => exact mode
  | flushed sock off => rfl

theorem acceptedMessage_of_eq {text : Str} {rc : Int}
    (accepted : rc = SocketErr.success ∨ rc = SocketErr.eCallback) :
    acceptedMessage (.string text) rc = text :=
  if_pos accepted

theorem acceptedMessage_of_ne {message : SaveValue} {rc : Int} (success : rc ≠ SocketErr.success)
    (callback : rc ≠ SocketErr.eCallback) : acceptedMessage message rc = [] := by
  unfold acceptedMessage
  split
  · exact if_neg fun accepted => accepted.elim success callback
  · rfl

section Write

/-- The end of `SocketRegistry::write`, behind the checks. -/
def sendNow (r : Registry) (sock : LpcSocket) (text : Str) (answers : Answers) :
    Registry × Int :=
  if text.isEmpty then (r, SocketErr.success)
  else
    match answers.returned with
    | .error .eAgain => (r, SocketErr.eWouldBlock)
    | .error .eIntr => (r, SocketErr.eIntr)
    | .error _ | .ok 0 => (r.forceRemove sock.handle, SocketErr.eSend)
    | .ok off =>
        if off < text.length then
          (r.update { sock with blocked := true, pendingWrite := text.drop off },
            SocketErr.eCallback)
        else (r, SocketErr.success)

/-- The bytes that go out there. -/
def takenNow (text : Str) (answers : Answers) : Str :=
  match answers.returned with
  | .ok off => if text.isEmpty then [] else text.take off
  | .error _ => []

variable {r : Registry} (keyed : r.Keyed) (world : World) (caller : Option ObjectId)
  (answers : Answers) (handle : Int)

include keyed

/-- `SocketRegistry::write` on a socket that is no datagram socket is refused at once, or it
sends on a socket that is not blocked. -/
theorem write_cases (message : SaveValue) (address : Option Str)
    (stream : ∀ sock, r.made handle = some sock → sock.mode ≠ .datagram) :
    (∃ rc, r.write world handle message address caller answers = (r, rc) ∧
      taken r world handle message address caller answers = [] ∧
      rc ≠ SocketErr.success ∧ rc ≠ SocketErr.eCallback) ∨
    ∃ sock text, r.made handle = some sock ∧ sock.handle = handle ∧ sock.blocked = false ∧
      message = .string text ∧
      r.write world handle message address caller answers = sendNow r sock text answers ∧
      taken r world handle message address caller answers = takenNow text answers := by
  cases found : r.find handle with
  | none =>
      refine .inl ⟨SocketErr.eFdRange, ?_, ?_, by decide, by decide⟩
      · simp [Registry.write, Registry.asOwner, found]
      · simp [taken, found]
  | some sock =>
      have made := (Registry.find_eq_some.mp found).2
      have handle_eq := keyed.of_find found
      have noDatagram := stream sock made
      by_cases closed : sock.state = .closed
      · refine .inl ⟨SocketErr.eBadF, ?_, ?_, by decide, by decide⟩
        · simp [Registry.write, Registry.asOwner, found, closed]
        · unfold taken
          split <;> simp_all
      by_cases owner : world.lock sock.owner ≠ caller
      · refine .inl ⟨SocketErr.eSecurity, ?_, ?_, by decide, by decide⟩
        · simp [Registry.write, Registry.asOwner, found, closed, owner]
        · unfold taken
          split <;> simp_all
      cases message with
      | string text =>
          by_cases unready : sock.state ≠ .dataXfer
          · refine .inl ⟨SocketErr.eNotConn, ?_, ?_, by decide, by decide⟩
            · simp [Registry.write, Registry.asOwner, found, closed, not_not.mp owner,
                noDatagram, unready]
            · unfold taken
              split <;> simp_all
          by_cases addressed : address.isSome = true
          · refine .inl ⟨SocketErr.eBadAddr, ?_, ?_, by decide, by decide⟩
            · simp [Registry.write, Registry.asOwner, found, not_not.mp owner, noDatagram,
                not_not.mp unready, addressed]
            · unfold taken
              split <;> simp_all
          by_cases blocked : sock.blocked = true
          · refine .inl ⟨SocketErr.eAlready, ?_, ?_, by decide, by decide⟩
            · simp [Registry.write, Registry.asOwner, found, not_not.mp owner, noDatagram,
                not_not.mp unready, addressed, blocked]
            · unfold taken
              split <;> simp_all
          refine .inr ⟨sock, text, made, handle_eq, eq_false_of_ne_true blocked, rfl, ?_, ?_⟩
          · simp only [Registry.write, Registry.asOwner, found, sendNow, handle_eq]
            exact (if_neg closed).trans ((if_neg owner).trans ((if_neg noDatagram).trans
              ((if_neg unready).trans ((if_neg addressed).trans (if_neg blocked)))))
          · have open_ : ¬ (sock.state = .closed ∨ world.lock sock.owner ≠ caller ∨
                sock.mode = .datagram ∨ sock.state ≠ .dataXfer ∨ address.isSome = true ∨
                sock.blocked = true) := by
              simp only [not_or]
              exact ⟨closed, owner, noDatagram, unready, addressed, blocked⟩
            unfold taken takenNow
            rw [found]
            cases answers.returned with
            | error e => rfl
            | ok off =>
                simp only [← or_assoc] at open_ ⊢
                by_cases empty : text.isEmpty = true
                · rw [if_pos (.inr empty), if_pos empty]
                · rw [if_neg (not_or.mpr ⟨open_, empty⟩), if_neg empty]
      | _ =>
          refine .inl ⟨SocketErr.eTypeNotSupp, ?_, ?_, by decide, by decide⟩
          · simp [Registry.write, Registry.asOwner, found, closed, not_not.mp owner]
          · simp [taken, found]

omit keyed in
/-- Sending a message on a socket that is not blocked. -/
theorem sendNow_streams {sock : LpcSocket} (made : r.made sock.handle = some sock)
    (free : sock.blocked = false) (waits : Waits sock) (text : Str) :
    Streams (some sock) ((sendNow r sock text answers).1.made sock.handle)
      (takenNow text answers)
      (acceptedMessage (.string text) (sendNow r sock text answers).2) := by
  have refused : ∀ {r' : Registry} (rc : Int), r'.made = r.made → rc ≠ SocketErr.success →
      rc ≠ SocketErr.eCallback →
      Streams (some sock) (r'.made sock.handle) [] (acceptedMessage (.string text) rc) := by
    intro r' rc same success callback
    rw [same, made, acceptedMessage_of_ne success callback]
    exact .rests (.refl _)
  have whole : acceptedMessage (.string text) SocketErr.success = text :=
    acceptedMessage_of_eq (.inl rfl)
  unfold sendNow takenNow
  by_cases empty : text.isEmpty = true
  · have nothing : text = [] := List.isEmpty_iff.mp empty
    rw [if_pos empty, made, whole]
    cases answers.returned with
    | error e =>
        rw [nothing]
        exact .rests (.refl _)
    | ok off =>
        rw [nothing]
        exact .rests (.refl _)
  · simp only [if_neg empty]
    cases answers.returned with
    | error e =>
        cases e with
        | eAgain => exact refused SocketErr.eWouldBlock rfl (by decide) (by decide)
        | eIntr => exact refused SocketErr.eIntr rfl (by decide) (by decide)
        | _ => exact refused SocketErr.eSend rfl (by decide) (by decide)
    | ok off =>
        cases off with
        | zero => exact refused SocketErr.eSend rfl (by decide) (by decide)
        | succ off =>
            simp only
            by_cases short : off + 1 < text.length
            · have callback : acceptedMessage (.string text) SocketErr.eCallback =
                  text.take (off + 1) ++ text.drop (off + 1) := by
                rw [List.take_append_drop]
                exact acceptedMessage_of_eq (.inr rfl)
              have changed : (r.update { sock with
                  blocked := true, pendingWrite := text.drop (off + 1) }).made sock.handle =
                  some { sock with blocked := true, pendingWrite := text.drop (off + 1) } :=
                Function.update_self ..
              rw [if_pos short, changed, callback]
              exact .wrote rfl free nofun
            · have all : text.take (off + 1) = text := List.take_of_length_le (by omega)
              have accepted : text = text ++ sock.pendingWrite := by
                rw [waits free, List.append_nil]
              rw [if_neg short, made, whole, all]
              nth_rewrite 2 [accepted]
              exact .wrote rfl free waits

omit keyed in
/-- Sending on one socket changes no other. -/
theorem sendNow_other {sock : LpcSocket} (text : Str) {h : Int} (other : h ≠ sock.handle) :
    (sendNow r sock text answers).1.made h = r.made h := by
  unfold sendNow
  split
  · rfl
  · split
    · rfl
    · rfl
    · rfl
    · rfl
    · split
      · exact Function.update_of_ne other ..
      · rfl

/-- `SocketRegistry::write` on a socket that is no datagram socket. -/
theorem write_streams (message : SaveValue) (address : Option Str) (h : Int)
    (stream : ∀ sock, r.made handle = some sock → sock.mode ≠ .datagram ∧ Waits sock) :
    Streams (r.made h) ((r.write world handle message address caller answers).1.made h)
      (if handle = h then taken r world handle message address caller answers else [])
      (if handle = h then
        acceptedMessage message (r.write world handle message address caller answers).2
      else []) := by
  rcases write_cases keyed world caller answers handle message address
      fun sock made => (stream sock made).1 with
    ⟨rc, done, silent, success, callback⟩ | ⟨sock, text, made, rfl, free, rfl, done, takes⟩
  · rw [done, silent, acceptedMessage_of_ne success callback, ite_self]
    exact .rests (.refl _)
  · rw [done, takes]
    by_cases here : sock.handle = h
    · subst here
      rw [if_pos rfl, if_pos rfl, made]
      exact sendNow_streams answers made free (stream sock made).2 text
    · rw [if_neg here, if_neg here, sendNow_other answers text (Ne.symm here)]
      exact .rests (.refl _)

omit keyed in
/-- A datagram is sent at once, or not at all. -/
theorem write_datagram {sock : LpcSocket} (found : r.find handle = some sock)
    (datagram : sock.mode = .datagram) (message : SaveValue) (address : Option Str) :
    (r.write world handle message address caller answers).1 = r := by
  unfold Registry.write Registry.asOwner
  rw [found]
  dsimp only
  split
  · rfl
  · split
    · rfl
    · split
      · split
        · rfl
        · split
          · rfl
          · split <;> rfl
      · rfl

/-- What the efun `socket_write` does to any socket; on a stream socket the bytes and the
message are those of the call. -/
theorem socketWrite_streams (message : SaveValue) (address : Option Str) (h : Int)
    (waits : ∀ sock, r.made handle = some sock → Waits sock) :
    ∃ handed accepted,
      Streams (r.made h)
        ((socketWrite r world handle message address caller answers).1.made h)
        handed accepted ∧
      ((∀ sock, r.made h = some sock → sock.mode = .stream) →
        handed =
            (if handle = h then taken r world handle message address caller answers else []) ∧
          accepted =
            if handle = h then
              acceptedMessage message
                (socketWrite r world handle message address caller answers).2
            else []) := by
  cases found : r.find handle with
  | none =>
      have refused : socketWrite r world handle message address caller answers =
          (r, SocketErr.eFdRange) := by
        simp [socketWrite, Registry.write, Registry.asOwner, found]
      have silent : taken r world handle message address caller answers = [] := by
        simp [taken, found]
      have unaccepted : acceptedMessage message SocketErr.eFdRange = [] :=
        acceptedMessage_of_ne (by decide) (by decide)
      rw [refused, silent, unaccepted, ite_self]
      exact ⟨[], [], .rests (.refl _), fun _ => ⟨rfl, rfl⟩⟩
  | some sock =>
      have made := (Registry.find_eq_some.mp found).2
      cases mode : sock.mode with
      | stream =>
          have plain : socketWrite r world handle message address caller answers =
              r.write world handle message address caller answers := by
            simp [socketWrite, found, mode]
          rw [plain]
          refine ⟨_, _, write_streams keyed world caller answers handle message address h ?_,
            fun _ => ⟨rfl, rfl⟩⟩
          intro sock' made'
          have same := Option.some.inj (made.symm.trans made')
          rw [← same, mode]
          exact ⟨by decide, waits sock made⟩
      | datagram =>
          have plain : socketWrite r world handle message address caller answers =
              r.write world handle message address caller answers := by
            simp [socketWrite, found, mode]
          rw [plain, write_datagram world caller answers handle found mode]
          refine ⟨[], [], .rests (.refl _), fun stream => ?_⟩
          have other : handle ≠ h := by
            rintro rfl
            have differs := stream sock made
            rw [mode] at differs
            contradiction
          rw [if_neg other, if_neg other]
          exact ⟨rfl, rfl⟩
      | mud =>
          have other (stream : ∀ sock, r.made h = some sock → sock.mode = .stream) :
              handle ≠ h := by
            rintro rfl
            have differs := stream sock made
            rw [mode] at differs
            contradiction
          have framedWrite := write_streams keyed world caller answers handle
            (.string (framed message)) address h (by
              intro sock' made'
              have same := Option.some.inj (made.symm.trans made')
              rw [← same, mode]
              exact ⟨by decide, waits sock made⟩)
          unfold socketWrite
          rw [found]
          dsimp only
          rw [if_pos mode]
          split
          · refine ⟨[], [], .rests (.refl _), fun stream => ?_⟩
            rw [if_neg (other stream), if_neg (other stream)]
            exact ⟨rfl, rfl⟩
          · refine ⟨_, _, framedWrite, fun stream => ?_⟩
            rw [if_neg (other stream), if_neg (other stream), if_neg (other stream),
              if_neg (other stream)]
            exact ⟨rfl, rfl⟩

end Write

/-! ## Steps -/

section Steps

variable {s s' : State}

/-- LPC code that is not writing. -/
theorem quiet_lpc (tidy : Tidy s.registry) {l : Lpc}
    (silent : ∀ caller handle message address answers,
      l ≠ .call caller (.write handle message address) answers) :
    Quiet s.registry (s.lpc l).registry := by
  have keyed := tidy.keyed
  cases l with
  | call caller efun answers =>
      cases efun with
      | create mode readCallback closeCallback =>
          exact quiet_create keyed caller answers mode readCallback closeCallback
      | bind handle addr => exact quiet_bind keyed s.world caller answers handle addr
      | listen handle callback => exact quiet_listen keyed s.world caller answers handle callback
      | accept handle readCallback writeCallback =>
          exact quiet_accept keyed s.world caller answers handle readCallback writeCallback
      | connect handle address readCallback writeCallback =>
          exact quiet_connect keyed s.world caller answers handle address readCallback
            writeCallback
      | write handle message address => exact absurd rfl (silent caller handle message address _)
      | close handle => exact quiet_close keyed s.world caller handle
      | acquire handle readCallback writeCallback closeCallback =>
          exact quiet_acquire keyed s.world caller handle readCallback writeCallback
            closeCallback
  | beginRelease caller handle ob =>
      apply quiet_asOwner keyed
      intro sock made
      split
      · exact .of_made rfl
      · exact .update made rfl rfl id
  | cancelRelease handle =>
      unfold State.lpc Registry.cancelRelease
      dsimp only
      split
      · exact .of_made rfl
      · next sock found =>
          have made := (Registry.find_eq_some.mp found).2
          rw [← keyed.of_find found] at made
          exact .update made rfl rfl id
  | closeAllOwnedBy ob => exact .of_made rfl
  | setStatus ob status => exact .of_made rfl

variable {sock : LpcSocket} {rest : List Int}

/-- Reading writes nothing. -/
theorem quiet_visit (made : s.registry.made sock.handle = some sock) (ready : Ready) :
    Quiet s.registry (s.visit rest sock ready).registry := by
  have unchanged : Quiet s.registry s.registry := .of_made rfl
  rw [State.visit]
  split
  · exact unchanged
  · split
    · split
      · rw [State.fire_registry]
        exact unchanged
      · exact unchanged
    · split
      · split
        · exact unchanged
        · split
          · exact unchanged
          · rw [State.fire_registry]
            exact .update made rfl rfl id
      · split
        · exact unchanged
        · split
          · split
            · exact unchanged
            · rw [State.fire_registry]
              exact unchanged
          · rw [State.closeAndFire, State.fire_registry]
            exact .of_made rfl
          · rw [State.closeAndFire, State.fire_registry]
            exact .of_made rfl
          · exact unchanged
          · exact unchanged

theorem quiet_frame (made : s.registry.made sock.handle = some sock) (bytes : Str)
    (writable : Bool) : Quiet s.registry (s.frame rest sock bytes writable).registry := by
  rw [State.frame]
  split
  · exact .of_made rfl
  · split
    · exact .update made rfl rfl id
    · rw [State.closeAndFire, State.fire_registry]
      exact .of_made rfl
    · rw [State.fire_registry]
      exact .update made rfl rfl id

/-- What a flush does to its socket. -/
theorem writeHalf_streams (made : s.registry.made sock.handle = some sock) (writable : Bool)
    (result : WriteResult) (h : Int) :
    Streams (s.registry.made h) ((s.writeHalf rest sock writable result).registry.made h)
      (match result with
        | .wrote off =>
            if sock.handle = h ∧ writable ∧ sock.blocked then sock.pendingWrite.take off else []
        | _ => []) [] := by
  have unchanged : Streams (s.registry.made h) (s.registry.made h) [] [] := .rests (.refl _)
  by_cases ready : (writable && sock.blocked) = true
  · have ready' := Bool.and_eq_true_iff.mp ready
    have flushed (off : Nat) : Streams (s.registry.made h)
        ((if (sock.flush off).blocked then (s.goOn rest none).update (sock.flush off)
          else ((s.goOn rest none).update (sock.flush off)).fire .write sock
            sock.writeCallback .none).registry.made h)
        (if sock.handle = h ∧ writable ∧ sock.blocked then sock.pendingWrite.take off else [])
        [] := by
      have registry : (if (sock.flush off).blocked then
          (s.goOn rest none).update (sock.flush off)
          else ((s.goOn rest none).update (sock.flush off)).fire .write sock
            sock.writeCallback .none).registry = s.registry.update (sock.flush off) := by
        split
        · rfl
        · rw [State.fire_registry]
          rfl
      rw [registry]
      by_cases here : sock.handle = h
      · subst here
        have changed : (s.registry.update (sock.flush off)).made sock.handle =
            some (sock.flush off) := Function.update_self ..
        rw [changed, made, if_pos ⟨rfl, ready'⟩]
        exact .flushed sock off
      · have same : (s.registry.update (sock.flush off)).made h = s.registry.made h :=
          Function.update_of_ne (Ne.symm here) ..
        rw [same, if_neg fun both => here both.1]
        exact unchanged
    unfold State.writeHalf
    dsimp only
    rw [if_pos ready]
    by_cases empty : sock.pendingWrite = []
    · rw [if_pos empty]
      have none_ := flushed 0
      rw [List.take_zero, ite_self] at none_
      cases result with
      | wrote off =>
          dsimp only
          rw [empty, List.take_nil, ite_self]
          exact none_
      | again => exact none_
      | failed => exact none_
    · rw [if_neg empty]
      cases result with
      | wrote off => exact flushed off
      | again => exact unchanged
      | failed =>
          dsimp only
          rw [State.closeAndFire, State.fire_registry]
          exact unchanged
  · unfold State.writeHalf
    dsimp only
    rw [if_neg ready]
    have idle : ¬ (sock.handle = h ∧ writable = true ∧ sock.blocked = true) := fun all =>
      ready (Bool.and_eq_true_iff.mpr all.2)
    cases result with
    | wrote off =>
        dsimp only
        rw [if_neg idle]
        exact unchanged
    | again => exact unchanged
    | failed => exact unchanged

/-- What a step does to a socket; on a stream socket the bytes and the message are those of
the step. -/
theorem State.step_streams (tidy : Tidy s.registry) {op : Op} (done : s.step op = some s')
    (handle : Int) (waits : ∀ h sock, s.registry.made h = some sock → Waits sock) :
    ∃ handed accepted,
      Streams (s.registry.made handle) (s'.registry.made handle) handed accepted ∧
        ((∀ sock, s.registry.made handle = some sock → sock.mode = .stream) →
          handed = s.handed handle op ∧ accepted = s.accepted handle op) := by
  have quietly (silent : s.handed handle op = [] ∧ s.accepted handle op = [])
      (quiet : Quiet s.registry s'.registry) : ∃ handed accepted,
        Streams (s.registry.made handle) (s'.registry.made handle) handed accepted ∧
          ((∀ sock, s.registry.made handle = some sock → sock.mode = .stream) →
            handed = s.handed handle op ∧ accepted = s.accepted handle op) :=
    ⟨[], [], .rests (quiet handle), fun _ => ⟨silent.1.symm, silent.2.symm⟩⟩
  cases op with
  | lpc l =>
      simp only [State.step] at done
      split at done <;> cases done
      by_cases writes : ∃ caller h message address answers,
          l = .call caller (.write h message address) answers
      · rcases writes with ⟨caller, h, message, address, answers, rfl⟩
        simp only [State.lpc, Socket.call, State.handed, State.accepted]
        exact socketWrite_streams tidy.keyed s.world caller answers h message address handle
          (waits h)
      · apply quietly
        · unfold State.handed State.accepted
          constructor
          · split
            · next same =>
                cases same
                exact absurd ⟨_, _, _, _, _, rfl⟩ writes
            · next same => cases same
            · rfl
          · split
            · next same =>
                cases same
                exact absurd ⟨_, _, _, _, _, rfl⟩ writes
            · rfl
        · apply quiet_lpc tidy
          intro caller h message address answers same
          exact writes ⟨caller, h, message, address, answers, same⟩
  | callbackEnds =>
      simp only [State.step] at done
      split at done <;> cases done
      exact quietly ⟨rfl, rfl⟩ (.of_made rfl)
  | beginPass order =>
      simp only [State.step] at done
      split at done <;> cases done
      exact quietly ⟨rfl, rfl⟩ (.of_made rfl)
  | visit ready =>
      simp only [State.step] at done
      split at done
      · rcases Option.map_eq_some_iff.mp done with ⟨sock, made, rfl⟩
        have here := tidy.keyed.handle made
        subst here
        exact quietly ⟨rfl, rfl⟩ (quiet_visit made ready)
      · cases done
  | frame =>
      simp only [State.step] at done
      split at done
      · rcases Option.map_eq_some_iff.mp done with ⟨sock, made, rfl⟩
        have here := tidy.keyed.handle made
        subst here
        exact quietly ⟨rfl, rfl⟩ (quiet_frame made _ _)
      · cases done
  | writeHalf result =>
      simp only [State.step] at done
      split at done
      · next rest h writable _ pass =>
          rcases Option.map_eq_some_iff.mp done with ⟨sock, made, rfl⟩
          have here := tidy.keyed.handle made
          subst here
          refine ⟨_, _, writeHalf_streams made writable result handle, fun _ => ⟨?_, rfl⟩⟩
          cases result with
          | wrote off =>
              unfold State.handed
              rw [pass]
              dsimp only
              rw [made]
          | again => rfl
          | failed => rfl
      · cases done
  | endPass =>
      simp only [State.step] at done
      split at done <;> cases done
      exact quietly ⟨rfl, rfl⟩ (.of_made rfl)

end Steps

/-! ## The write callback -/

/-- No write callback was invoked. -/
inductive NoWrite (log : List Event) : List Event → Prop
  | silent : NoWrite log log
  | invoked {event : Event} (kind : event.kind ≠ .write) : NoWrite log (event :: log)

theorem NoWrite.ne {log log' : List Event} (noWrite : NoWrite log log') {event : Event}
    (kind : event.kind = .write) : log' ≠ event :: log := by
  cases noWrite with
  | silent => exact (List.cons_ne_self event log).symm
  | invoked other =>
      intro same
      rw [(List.cons.inj same).1] at other
      exact other kind

section WriteCallback

variable {s s' : State} {sock : LpcSocket} {rest : List Int}

theorem NoWrite.fire {log log' : List Event} {base : State} (kind : Kind)
    (other : kind ≠ .write) {callback : Value} {argument : Argument}
    (fired : log' = (base.fire kind sock callback argument).log) (silent : base.log = log) :
    NoWrite log log' := by
  rw [fired, ← silent]
  rcases State.fire_log base kind sock callback argument with same | added
  · rw [same]
    exact .silent
  · rw [added]
    exact .invoked other

theorem noWrite_visit (ready : Ready) : NoWrite s.log (s.visit rest sock ready).log := by
  have unchanged : NoWrite s.log s.log := .silent
  rw [State.visit]
  split
  · exact unchanged
  · split
    · split
      · exact .fire .read (by decide) rfl rfl
      · exact unchanged
    · split
      · split
        · exact unchanged
        · split
          · exact unchanged
          · exact .fire .read (by decide) rfl rfl
      · split
        · exact unchanged
        · split
          · split
            · exact unchanged
            · exact .fire .read (by decide) rfl rfl
          · exact .fire .close (by decide) rfl rfl
          · exact .fire .close (by decide) rfl rfl
          · exact unchanged
          · exact unchanged

theorem noWrite_frame (bytes : Str) (writable : Bool) :
    NoWrite s.log (s.frame rest sock bytes writable).log := by
  rw [State.frame]
  split
  · exact .silent
  · split
    · exact .silent
    · exact .fire .close (by decide) rfl rfl
    · exact .fire .read (by decide) rfl rfl

/-- Nothing waits on the socket of a write callback. -/
def Emptied (s : State) (event : Event) : Prop :=
  ∃ sock, s.registry.made event.handle = some sock ∧ sock.pendingWrite = []

/-- A flush invokes the write callback where it empties `pendingWrite`. -/
theorem writeHalf_callback (writable : Bool) (result : WriteResult) {event : Event}
    (kind : event.kind = .write)
    (added : (s.writeHalf rest sock writable result).log = event :: s.log) :
    Emptied (s.writeHalf rest sock writable result) event := by
  have idle : s.log ≠ event :: s.log := (List.cons_ne_self event s.log).symm
  have flushed (off : Nat)
      (added : (if (sock.flush off).blocked then (s.goOn rest none).update (sock.flush off)
        else ((s.goOn rest none).update (sock.flush off)).fire .write sock
          sock.writeCallback .none).log = event :: s.log) :
      Emptied (if (sock.flush off).blocked then (s.goOn rest none).update (sock.flush off)
        else ((s.goOn rest none).update (sock.flush off)).fire .write sock
          sock.writeCallback .none) event := by
    by_cases held : (sock.flush off).blocked = true
    · rw [if_pos held] at added
      exact absurd added idle
    · rw [if_neg held] at added ⊢
      have handle : event.handle = sock.handle := by
        rcases State.fire_log ((s.goOn rest none).update (sock.flush off)) .write sock
          sock.writeCallback .none with same | log
        · exact absurd (same.symm.trans added) idle
        · rw [log] at added
          rw [← (List.cons.inj added).1]
      have changed : (s.registry.update (sock.flush off)).made event.handle =
          some (sock.flush off) := by
        rw [handle]
        exact Function.update_self ..
      refine ⟨sock.flush off, ?_, ?_⟩
      · rw [State.fire_registry]
        exact changed
      · simpa [LpcSocket.flush] using held
  unfold State.writeHalf at added ⊢
  dsimp only at added ⊢
  by_cases ready : (writable && sock.blocked) = true
  · rw [if_pos ready] at added ⊢
    by_cases empty : sock.pendingWrite = []
    · rw [if_pos empty] at added ⊢
      exact flushed 0 added
    · rw [if_neg empty] at added ⊢
      cases result with
      | wrote off => exact flushed off added
      | again => exact absurd added idle
      | failed => exact absurd added (NoWrite.ne (.fire .close (by decide) rfl rfl) kind)
  · rw [if_neg ready] at added
    exact absurd added idle

/-- In every step the write callback is invoked for a socket on which nothing waits. -/
theorem State.step_callback {op : Op} (done : s.step op = some s') {event : Event}
    (kind : event.kind = .write) (added : s'.log = event :: s.log) : Emptied s' event := by
  have idle : s.log ≠ event :: s.log := (List.cons_ne_self event s.log).symm
  cases op with
  | lpc l =>
      simp only [State.step] at done
      split at done <;> cases done
      have same : (s.lpc l).log = s.log := by cases l <;> rfl
      exact absurd (same.symm.trans added) idle
  | callbackEnds =>
      simp only [State.step] at done
      split at done <;> cases done
      exact absurd added idle
  | beginPass order =>
      simp only [State.step] at done
      split at done <;> cases done
      exact absurd added idle
  | visit ready =>
      simp only [State.step] at done
      split at done
      · rcases Option.map_eq_some_iff.mp done with ⟨sock, made, rfl⟩
        exact absurd added ((noWrite_visit ready).ne kind)
      · cases done
  | frame =>
      simp only [State.step] at done
      split at done
      · rcases Option.map_eq_some_iff.mp done with ⟨sock, made, rfl⟩
        exact absurd added ((noWrite_frame _ _).ne kind)
      · cases done
  | writeHalf result =>
      simp only [State.step] at done
      split at done
      · rcases Option.map_eq_some_iff.mp done with ⟨sock, made, rfl⟩
        exact writeHalf_callback _ result kind added
      · cases done
  | endPass =>
      simp only [State.step] at done
      split at done <;> cases done
      exact absurd added idle

end WriteCallback

/-! ## Runs -/

/-- What holds in every run: nothing waits on a socket that nothing blocks, and what was
handed over for a stream socket and what waits are what was accepted. -/
structure Faithful (s : State) (handle : Int) (handed accepted : Str) : Prop where
  orderly : Orderly s
  waits : ∀ h sock, s.registry.made h = some sock → Waits sock
  unmade : s.registry.made handle = none → handed = [] ∧ accepted = []
  stream : ∀ sock, s.registry.made handle = some sock → sock.mode = .stream →
    handed ++ sock.pendingWrite = accepted

/-- Whatever is written, `Waits` is kept. -/
theorem Streams.waits {sock : Option LpcSocket} {sock' : LpcSocket} {handed accepted : Str}
    (streams : Streams sock (some sock') handed accepted)
    (waits : ∀ before, sock = some before → Waits before) : Waits sock' := by
  cases sock with
  | none => exact streams.law_made.1
  | some before => exact (streams.law (waits before rfl) (List.nil_append _)).1

theorem Faithful.step {s s' : State} {handle : Int} {handed accepted : Str}
    (faithful : Faithful s handle handed accepted) {op : Op} (done : s.step op = some s') :
    Faithful s' handle (handed ++ s.handed handle op) (accepted ++ s.accepted handle op) := by
  have tidy := faithful.orderly.tidy
  have moved (h : Int) := State.step_streams tidy done h faithful.waits
  have unread (made : s.registry.made handle = none) (sock : LpcSocket)
      (found : s.registry.made handle = some sock) : sock.mode = .stream := by
    rw [made] at found
    contradiction
  constructor
  · exact faithful.orderly.step done
  · intro h sock' made'
    rcases moved h with ⟨_, _, streams, -⟩
    rw [made'] at streams
    exact streams.waits fun before made => faithful.waits h before made
  · intro unmade'
    rcases moved handle with ⟨_, _, streams, exact_⟩
    rw [unmade'] at streams
    cases made : s.registry.made handle with
    | none =>
        rw [made] at streams
        rcases exact_ (unread made) with ⟨rfl, rfl⟩
        rcases faithful.unmade made with ⟨rfl, rfl⟩
        generalize s.handed handle op = more at streams ⊢
        generalize s.accepted handle op = moreAccepted at streams ⊢
        cases streams with
        | rests => exact ⟨rfl, rfl⟩
    | some sock =>
        rw [made] at streams
        cases streams with
        | rests rests => cases rests
  · intro sock' made' mode'
    rcases moved handle with ⟨_, _, streams, exact_⟩
    rw [made'] at streams
    cases made : s.registry.made handle with
    | none =>
        rw [made] at streams
        rcases exact_ (unread made) with ⟨rfl, rfl⟩
        rcases faithful.unmade made with ⟨rfl, rfl⟩
        exact streams.law_made.2
    | some sock =>
        rw [made] at streams
        have mode : sock.mode = .stream := streams.mode.symm.trans mode'
        have streamed (other : LpcSocket) (made' : s.registry.made handle = some other) :
            other.mode = .stream := by
          rw [← Option.some.inj (made.symm.trans made')]
          exact mode
        rcases exact_ streamed with ⟨rfl, rfl⟩
        exact (streams.law (faithful.waits handle sock made)
          (faithful.stream sock made mode)).2

theorem StreamRun.faithful {world : World} {handle : Int} {s : State} {handed accepted : Str}
    (run : StreamRun world handle s handed accepted) : Faithful s handle handed accepted := by
  induction run with
  | start =>
      constructor
      · exact initial_orderly world
      · intro h sock made
        cases made
      · exact fun _ => ⟨rfl, rfl⟩
      · intro sock made
        cases made
  | step _ op done ih => exact ih.step done

/-- A write that is refused hands over nothing. -/
theorem State.Refuses.silent {s : State} {handle : Int} {op : Op} (tidy : Tidy s.registry)
    {sock : LpcSocket} (made : s.registry.made handle = some sock) (mode : sock.mode = .stream)
    (refuses : s.Refuses handle op) :
    s.handed handle op = [] ∧ s.accepted handle op = [] := by
  rcases refuses with ⟨caller, message, address, answers, rfl, refused⟩
  have success := refused SocketErr.success (by simp)
  have callback := refused SocketErr.eCallback (by simp)
  constructor
  · unfold State.handed
    dsimp only
    rw [if_pos rfl]
    have plain : socketWrite s.registry s.world handle message address caller answers =
        s.registry.write s.world handle message address caller answers := by
      unfold socketWrite
      cases found : s.registry.find handle with
      | none => rfl
      | some sock' =>
          have same := made.symm.trans (Registry.find_eq_some.mp found).2
          cases same
          dsimp only
          rw [mode]
          rfl
    rw [plain] at success callback
    rcases write_cases tidy.keyed s.world caller answers handle message address (by
        intro sock' made'
        cases made.symm.trans made'
        rw [mode]
        exact nofun) with
      ⟨rc, -, silent, -, -⟩ | ⟨sock', text, -, -, -, rfl, sent, takes⟩
    · exact silent
    · rw [takes]
      rw [sent] at success callback
      unfold sendNow at success callback
      unfold takenNow
      cases returned : answers.returned with
      | error e => rfl
      | ok off =>
          dsimp only
          split
          · rfl
          · next nonempty =>
              rw [if_neg nonempty, returned] at success callback
              cases off with
              | zero => rfl
              | succ off =>
                  simp only at success callback
                  split at success
                  · next short =>
                      rw [if_pos short] at callback
                      exact absurd rfl callback
                  · exact absurd rfl success
  · unfold State.accepted
    dsimp only
    rw [if_pos rfl]
    exact acceptedMessage_of_ne success callback

/-- In every run, whatever else happens between the writes, what the kernel was handed for a
stream socket followed by what waits is what was accepted for it, in order; a message that
was refused adds no byte to either; and the write callback of a socket is invoked when
nothing waits on it any more. -/
theorem streamSocket_law (world : World) (handle : Int) (s : State) (handed accepted : Str)
    (run : StreamRun world handle s handed accepted) :
    (∀ sock, s.registry.made handle = some sock → sock.mode = .stream →
      handed ++ sock.pendingWrite = accepted) ∧
    ∀ op s', s.step op = some s' →
      (∀ sock, s.registry.made handle = some sock → sock.mode = .stream →
        s.Refuses handle op → s.handed handle op = [] ∧
          ∃ sock', s'.registry.made handle = some sock' ∧
            sock'.pendingWrite = sock.pendingWrite) ∧
      ∀ event, s'.log = event :: s.log → event.kind = .write → Emptied s' event := by
  have faithful := run.faithful
  refine ⟨faithful.stream, fun op s' done => ⟨?_, fun event added kind =>
    State.step_callback done kind added⟩⟩
  intro sock made mode refuses
  have tidy := faithful.orderly.tidy
  rcases refuses.silent tidy made mode with ⟨handed_eq, accepted_eq⟩
  refine ⟨handed_eq, ?_⟩
  rcases State.step_streams tidy done handle faithful.waits with ⟨_, _, streams, _⟩
  cases made' : s'.registry.made handle with
  | none =>
      rw [made, made'] at streams
      cases streams with
      | rests rests => cases rests
  | some sock' =>
      rw [made, made'] at streams
      have law := faithful.stream sock made mode
      have law' := (faithful.step done).stream sock' made' (streams.mode.trans mode)
      rw [handed_eq, accepted_eq, List.append_nil, List.append_nil, ← law] at law'
      exact ⟨sock', rfl, List.append_cancel_left law'⟩

/-- A stream socket connects, and a message is written of which the kernel takes one byte at
first. -/
theorem streamSocket_short : ∃ s, StreamRun allLive 0 s (str "ab") (str "ab") ∧
    (∀ sock, s.registry.made 0 = some sock → sock.mode = .stream →
      str "ab" ++ sock.pendingWrite = str "ab") ∧
    ∀ op s', s.step op = some s' →
      (∀ sock, s.registry.made 0 = some sock → sock.mode = .stream →
        s.Refuses 0 op → s.handed 0 op = [] ∧
          ∃ sock', s'.registry.made 0 = some sock' ∧ sock'.pendingWrite = sock.pendingWrite) ∧
      ∀ event, s'.log = event :: s.log → event.kind = .write → Emptied s' event := by
  let pollOut : Ready := { writable := true }
  have connected : StreamRun allLive 0 _ _ _ :=
    (StreamRun.start.step (.lpc (.call (some 1) (.create 1 .void .void) {})) rfl).step
      (.lpc (.call (some 1)
        (.connect 0 (str "127.0.0.1 80") .void (.string (str "write"))) {})) rfl
  -- The write callback tells that the socket is connected, and it writes.
  have written := ((((connected.step (.beginPass [0]) rfl).step (.visit pollOut) rfl).step
    (.writeHalf .again) rfl).step
      (.lpc (.call (some 1) (.write 0 (.string (str "ab")) none) { returned := .ok 1 })) rfl).step
      .callbackEnds rfl
  have run : StreamRun allLive 0 _ (str "ab") (str "ab") :=
    (((written.step .endPass rfl).step (.beginPass [0]) rfl).step (.visit pollOut) rfl).step
      (.writeHalf (.wrote 1)) rfl
  exact ⟨_, run, streamSocket_law allLive 0 _ _ _ run⟩

end Kjdmud.Net.Socket.Poll
