import Kjdmud.Net.Socket.Poll

/-!
# The steps of a pass

What LPC code does to the table of the sockets between two steps of a pass, and what
a step does to it and to the pass.
-/

namespace Kjdmud.Net.Socket.Poll

open Kjdmud.Scheduler (World)
open Kjdmud.Vm (Value)

/-! ## What LPC code does to the table -/

/-- A table as the driver keeps it: every handle in it has its socket, once. -/
structure Tidy (r : Registry) : Prop where
  keyed : r.Keyed
  made : ∀ handle ∈ r.sockets, ∃ sock, r.made handle = some sock
  unique : r.sockets.Nodup

theorem Tidy.old {r : Registry} (tidy : Tidy r) {handle : Int} (mem : handle ∈ r.sockets) :
    handle < r.nextHandle := by
  rcases tidy.made handle mem with ⟨sock, made⟩
  exact tidy.keyed.old made

/-- A socket is changed, in the table or not. -/
theorem Tidy.update {r : Registry} (tidy : Tidy r) {sock : LpcSocket}
    (old : sock.handle < r.nextHandle) : Tidy (r.update sock) where
  keyed := tidy.keyed.update_old old
  made := by
    intro handle mem
    by_cases same : handle = sock.handle
    · rw [same]
      exact ⟨sock, Function.update_self ..⟩
    · rcases tidy.made handle mem with ⟨other, made⟩
      exact ⟨other, (Function.update_of_ne same ..).trans made⟩
  unique := tidy.unique

/-- The table goes on: no handle comes back, and a socket that is not in it any more is
left as it was. -/
structure Evolves (r r' : Registry) : Prop where
  tidy : Tidy r'
  next : r.nextHandle ≤ r'.nextHandle
  gone : ∀ handle, handle < r.nextHandle → handle ∉ r.sockets → handle ∉ r'.sockets
  left : ∀ handle, handle < r.nextHandle → handle ∉ r'.sockets →
    r'.made handle = r.made handle

section Evolves

variable {r : Registry} (tidy : Tidy r)

include tidy

theorem Evolves.refl : Evolves r r where
  tidy := tidy
  next := Int.le_refl _
  gone := fun _ _ absent => absent
  left := fun _ _ _ => rfl

/-- Sockets are closed. -/
theorem Evolves.filter (keep : Int → Bool) :
    Evolves r { r with sockets := r.sockets.filter keep } where
  tidy := {
    keyed := tidy.keyed.of_made_eq rfl rfl
    made := fun handle mem => tidy.made handle (List.mem_filter.mp mem).1
    unique := tidy.unique.filter _ }
  next := Int.le_refl _
  gone := fun _ _ absent mem => absent (List.mem_filter.mp mem).1
  left := fun _ _ _ => rfl

/-- A socket in the table is changed. -/
theorem Evolves.update {sock : LpcSocket} (mem : sock.handle ∈ r.sockets) :
    Evolves r (r.update sock) where
  tidy := tidy.update (tidy.old mem)
  next := Int.le_refl _
  gone := fun _ _ absent => absent
  left := by
    intro handle _ absent
    have differs : handle ≠ sock.handle := by
      rintro rfl
      exact absent mem
    exact Function.update_of_ne differs ..

/-- A new socket comes in. -/
theorem Evolves.enter {sock : LpcSocket} (new : sock.handle = r.nextHandle) :
    Evolves r (r.enter sock) where
  tidy := by
    constructor
    · exact tidy.keyed.enter new
    · intro handle mem
      rcases List.mem_cons.mp mem with rfl | mem
      · exact ⟨sock, Function.update_self ..⟩
      · have differs : handle ≠ sock.handle := by
          rw [new]
          exact Int.ne_of_lt (tidy.old mem)
        rcases tidy.made handle mem with ⟨other, made⟩
        exact ⟨other, (Function.update_of_ne differs ..).trans made⟩
    · apply List.nodup_cons.mpr
      constructor
      · intro mem
        rw [new] at mem
        exact absurd (tidy.old mem) (Int.lt_irrefl _)
      · exact tidy.unique
  next := by
    simp only [Registry.enter, Registry.update]
    omega
  gone := by
    intro handle old absent mem
    rcases List.mem_cons.mp mem with rfl | mem
    · rw [new] at old
      exact absurd old (Int.lt_irrefl _)
    · exact absent mem
  left := by
    intro handle old absent
    have differs : handle ≠ sock.handle := by
      rw [new]
      exact Int.ne_of_lt old
    exact Function.update_of_ne differs ..

theorem Evolves.of_changed {world : World} {caller : Option ObjectId} {efun : Efun}
    {r' : Registry} {rc : Int} (changed : Changed world caller efun r r' rc) :
    Evolves r r' := by
  cases changed with
  | nothing => exact .refl tidy
  | removed rc found owner => exact .filter tidy _
  | updated rc found owner same callbacks =>
      apply Evolves.update tidy
      rw [same.handle]
      exact (Registry.find_eq_some.mp found).1
  | entered rc new mine free => exact .enter tidy new
  | @accepted sock sock' rc found owner new mine free =>
      have mem := (Registry.find_eq_some.mp found).1
      have polled : Evolves r (r.update { sock with acceptPending := false }) :=
        .update tidy mem
      have entered := Evolves.enter polled.tidy new
      constructor
      · exact entered.tidy
      · exact entered.next
      · exact entered.gone
      · intro handle old absent
        have outside : handle ∉ r.sockets := fun mem => absent (List.mem_cons_of_mem _ mem)
        exact (entered.left handle old absent).trans (polled.left handle old outside)
  | acquired found released target efun_eq =>
      exact .update tidy (Registry.find_eq_some.mp found).1

end Evolves

/-- LPC code keeps the table tidy. -/
theorem Evolves.lpc {s : State} (tidy : Tidy s.registry) (l : Lpc) :
    Evolves s.registry (s.lpc l).registry := by
  cases l with
  | call caller efun answers => exact .of_changed tidy (call_changed tidy.keyed rfl)
  | beginRelease caller handle ob =>
      simp only [State.lpc]
      cases done : s.registry.beginRelease s.world handle ob caller with
      | mk r' rc =>
          rcases Registry.asOwner_cases done with ⟨rfl, _⟩ | ⟨sock, found, _, operated⟩
          · exact .refl tidy
          · split at operated <;> cases operated
            · exact .refl tidy
            · have handle_eq := tidy.keyed.of_find found
              subst handle_eq
              have mem : (sock.releasedTo ob).handle ∈ s.registry.sockets :=
                (Registry.find_eq_some.mp found).1
              exact .update tidy mem
  | cancelRelease handle =>
      simp only [State.lpc, Registry.cancelRelease]
      cases found : s.registry.find handle with
      | none => exact .refl tidy
      | some sock =>
          have handle_eq := tidy.keyed.of_find found
          subst handle_eq
          have mem : sock.unreleased.handle ∈ s.registry.sockets :=
            (Registry.find_eq_some.mp found).1
          exact .update tidy mem
  | closeAllOwnedBy ob => exact .filter tidy _
  | setStatus ob status => exact .refl tidy

/-! ## The sockets of a pass -/

/-- The socket a pass is at. -/
def Position.handle : Position → Int
  | .frames handle _ _ | .writeHalf handle _ => handle

/-- The sockets that a pass is not done with. -/
def Pass.handles (pass : Pass) : List Int :=
  match pass.at_ with
  | some position => position.handle :: pass.rest
  | none => pass.rest

theorem Position.Ahead.handle_eq {s : State} {handle : Int} {position : Position}
    (ahead : position.Ahead s handle) : position.handle = handle := by
  cases position with
  | frames => exact ahead.1
  | writeHalf => exact ahead.1

theorem State.Ahead.mem_handles {s : State} {handle : Int} {pass : Pass}
    (ahead : s.Ahead handle) (here : s.pass = some pass) : handle ∈ pass.handles := by
  rcases ahead with ⟨pass', here', mem | ⟨position, at_, ahead⟩⟩
  · rw [here] at here'
    cases here'
    rw [Pass.handles]
    split
    · exact List.mem_cons_of_mem _ mem
    · exact mem
  · rw [here] at here'
    cases here'
    rw [Pass.handles, at_, ← ahead.handle_eq]
    exact List.mem_cons_self

/-- Whether something is before a pass depends on the sockets only through their state of
flushing. -/
theorem Position.Ahead.congr {s s' : State} {handle : Int} {position : Position}
    (ahead : position.Ahead s' handle)
    (made : s'.registry.made handle = s.registry.made handle) : position.Ahead s handle := by
  cases position with
  | frames at_ bytes writable =>
      rcases ahead with ⟨here, nonempty | ⟨writable, blocked⟩⟩
      · exact ⟨here, .inl nonempty⟩
      · rw [made] at blocked
        exact ⟨here, .inr ⟨writable, blocked⟩⟩
  | writeHalf at_ writable =>
      rcases ahead with ⟨here, writable, blocked⟩
      rw [made] at blocked
      exact ⟨here, writable, blocked⟩

theorem State.Ahead.congr {s s' : State} {handle : Int} (ahead : s'.Ahead handle)
    (pass : s'.pass = s.pass) (made : s'.registry.made handle = s.registry.made handle) :
    s.Ahead handle := by
  rcases ahead with ⟨current, here, rest | ⟨position, at_, ahead⟩⟩
  · exact ⟨current, pass.symm.trans here, .inl rest⟩
  · exact ⟨current, pass.symm.trans here, .inr ⟨position, at_, ahead.congr made⟩⟩

/-! ## The steps of a pass -/

/-- What a step of a pass on one socket does to the table. -/
inductive Touches (handle : Int) (r : Registry) : Registry → Prop
  | nothing : Touches handle r r
  | updated (sock : LpcSocket) (here : sock.handle = handle) : Touches handle r (r.update sock)
  | removed : Touches handle r (r.forceRemove handle)

section Touches

variable {handle other : Int} {r r' : Registry}

theorem Touches.nextHandle_eq (touches : Touches handle r r') :
    r'.nextHandle = r.nextHandle := by
  cases touches <;> rfl

theorem Touches.tidy (touches : Touches handle r r') (tidy : Tidy r)
    (old : handle < r.nextHandle) : Tidy r' := by
  cases touches with
  | nothing => exact tidy
  | updated sock here =>
      subst here
      exact tidy.update old
  | removed => exact (Evolves.filter tidy _).tidy

theorem Touches.gone (touches : Touches handle r r') (absent : other ∉ r.sockets) :
    other ∉ r'.sockets := by
  cases touches with
  | nothing => exact absent
  | updated sock here => exact absent
  | removed =>
      intro mem
      exact absent (List.mem_filter.mp mem).1

/-- A step of a pass closes no other socket. -/
theorem Touches.mem (touches : Touches handle r r') (differs : other ≠ handle)
    (mem : other ∈ r.sockets) : other ∈ r'.sockets := by
  cases touches with
  | nothing => exact mem
  | updated sock here => exact mem
  | removed => exact List.mem_filter.mpr ⟨mem, decide_eq_true differs⟩

end Touches

/-- A step of a pass on the socket it is at. -/
structure Moves (s : State) (handle : Int) (rest : List Int) (s' : State) : Prop where
  touches : Touches handle s.registry s'.registry
  pass : ∃ at_, s'.pass = some { rest := rest, at_ := at_ } ∧
    ∀ position, at_ = some position → position.handle = handle ∧
      s'.registry.sockets = s.registry.sockets ∧
      (position.Ahead s' handle → s.Ahead handle)
  log : s'.log = s.log ∨ ∃ event, s'.log = event :: s.log ∧ event.handle = handle ∧
    s.Ahead handle ∧ (event.kind = .close →
      handle ∉ s'.registry.sockets ∧ s'.pass = some { rest := rest, at_ := none })

section Fire

variable (s : State) (kind : Kind) (sock : LpcSocket) (callback : Value)
  (argument : Argument)

@[simp]
theorem State.fire_registry :
    (s.fire kind sock callback argument).registry = s.registry := by
  rw [State.fire]
  split <;> rfl

@[simp]
theorem State.fire_pass : (s.fire kind sock callback argument).pass = s.pass := by
  rw [State.fire]
  split <;> rfl

theorem State.fire_log :
    (s.fire kind sock callback argument).log = s.log ∨
      (s.fire kind sock callback argument).log = ⟨kind, sock.handle, argument⟩ :: s.log := by
  rw [State.fire]
  split
  · exact .inr rfl
  · exact .inl rfl

end Fire

section Moves

variable {s base : State} {handle : Int} {rest : List Int} {sock : LpcSocket}

/-- A callback of the socket after a step that invoked none. -/
theorem Moves.fire (moves : Moves s handle rest base) (silent : base.log = s.log)
    (here : sock.handle = handle) (ahead : s.Ahead handle) {kind : Kind}
    (closed : kind = .close →
      handle ∉ base.registry.sockets ∧ base.pass = some { rest := rest, at_ := none })
    (callback : Value) (argument : Argument) :
    Moves s handle rest (base.fire kind sock callback argument) := by
  rcases moves.pass with ⟨at_, pass, positions⟩
  constructor
  · rw [State.fire_registry]
    exact moves.touches
  · refine ⟨at_, (State.fire_pass ..).trans pass, ?_⟩
    intro position here
    rcases positions position here with ⟨at_handle, sockets, ahead⟩
    rw [State.fire_registry]
    exact ⟨at_handle, sockets, fun later => ahead (later.congr (by rw [State.fire_registry]))⟩
  · rcases base.fire_log kind sock callback argument with same | fired
    · exact .inl (same.trans silent)
    · rw [silent, here] at fired
      rw [State.fire_registry, State.fire_pass]
      exact .inr ⟨_, fired, rfl, ahead, closed⟩

/-- The socket is closed. -/
theorem Moves.close (here : sock.handle = handle) (ahead : s.Ahead handle) :
    Moves s handle rest ((s.goOn rest none).closeAndFire sock) := by
  subst here
  have removed : Moves s sock.handle rest
      { s.goOn rest none with registry := s.registry.forceRemove sock.handle } := by
    constructor
    · exact .removed
    · refine ⟨none, rfl, ?_⟩
      intro position here
      cases here
    · exact .inl rfl
  apply removed.fire rfl rfl ahead
  intro _
  constructor
  · intro mem
    simp [Registry.forceRemove] at mem
  · rfl

/-- The pass leaves the socket. -/
theorem Moves.leave (touches : Touches handle s.registry base.registry)
    (pass : base.pass = some { rest := rest, at_ := none }) (silent : base.log = s.log) :
    Moves s handle rest base where
  touches := touches
  pass := by
    refine ⟨none, pass, ?_⟩
    intro position here
    cases here
  log := .inl silent

/-- The pass stays at the socket. -/
theorem Moves.stay {position : Position} (touches : Touches handle s.registry base.registry)
    (pass : base.pass = some { rest := rest, at_ := some position })
    (silent : base.log = s.log) (here : position.handle = handle)
    (sockets : base.registry.sockets = s.registry.sockets)
    (ahead : position.Ahead base handle → s.Ahead handle) : Moves s handle rest base where
  touches := touches
  pass := by
    refine ⟨some position, pass, ?_⟩
    intro other same
    cases same
    exact ⟨here, sockets, ahead⟩
  log := .inl silent

/-- The part of an iteration that depends on the kind of the socket. -/
theorem Moves.visit (here : sock.handle = handle)
    (pass : s.pass = some { rest := handle :: rest, at_ := none }) (ready : Ready) :
    Moves s handle rest (s.visit rest sock ready) := by
  have ahead : s.Ahead handle := ⟨_, pass, .inl List.mem_cons_self⟩
  have next : Moves s handle rest (s.goOn rest none) := .leave .nothing rfl rfl
  have stay (position : Position) (at_ : position.handle = handle) :
      Moves s handle rest (s.goOn rest (some position)) :=
    .stay .nothing rfl rfl at_ rfl fun _ => ahead
  rw [State.visit]
  split
  · exact next
  · split
    · split
      · apply next.fire rfl here ahead
        rintro ⟨⟩
      · exact next
    · split
      · split
        · exact next
        · split
          · exact next
          · have pending : Moves s handle rest
                ((s.goOn rest none).update { sock with acceptPending := true }) :=
              .leave (.updated _ here) rfl rfl
            apply pending.fire rfl here ahead
            rintro ⟨⟩
      · split
        · exact next
        · split
          · split
            · exact stay _ here
            · apply (stay (.writeHalf sock.handle _) here).fire rfl here ahead
              rintro ⟨⟩
          · exact .close here ahead
          · exact .close here ahead
          · exact stay _ here
          · exact stay _ here

/-- One iteration of the loop over the frames. -/
theorem Moves.frame (here : sock.handle = handle) {bytes : Str} {writable : Bool}
    (pass : s.pass = some { rest := rest, at_ := some (.frames handle bytes writable) }) :
    Moves s handle rest (s.frame rest sock bytes writable) := by
  rw [State.frame]
  split
  · rename_i empty
    have carried : Position.Ahead (s.goOn rest (some (.writeHalf sock.handle writable)))
        handle (.writeHalf sock.handle writable) → s.Ahead handle := by
      rintro ⟨_, writable, blocked⟩
      exact ⟨_, pass, .inr ⟨_, rfl, rfl, .inr ⟨writable, blocked⟩⟩⟩
    exact .stay .nothing rfl rfl here rfl carried
  · rename_i nonempty
    have ahead : s.Ahead handle := ⟨_, pass, .inr ⟨_, rfl, rfl, .inl nonempty⟩⟩
    split
    · exact .stay (.updated _ here) rfl rfl here rfl fun _ => ahead
    · exact .close here ahead
    · rename_i payload behind _
      have moved : Moves s handle rest
          ((s.goOn rest (some (.frames sock.handle behind writable))).update
            { sock with mud := {} }) :=
        .stay (.updated _ here) rfl rfl here rfl fun _ => ahead
      apply moved.fire rfl here ahead
      rintro ⟨⟩

/-- The part of an iteration that flushes. -/
theorem Moves.writeHalf (here : sock.handle = handle) {writable : Bool}
    (pass : s.pass = some { rest := rest, at_ := some (.writeHalf handle writable) })
    (made : s.registry.made handle = some sock) (result : WriteResult) :
    Moves s handle rest (s.writeHalf rest sock writable result) := by
  have next : Moves s handle rest (s.goOn rest none) := .leave .nothing rfl rfl
  rw [State.writeHalf]
  split
  · rename_i both
    rcases Bool.and_eq_true_iff.mp both with ⟨ready, blocked⟩
    have ahead : s.Ahead handle :=
      ⟨_, pass, .inr ⟨_, rfl, rfl, ready, sock, made, blocked⟩⟩
    have flushed (off : Nat) : Moves s handle rest
        (if (sock.flush off).blocked then (s.goOn rest none).update (sock.flush off)
        else ((s.goOn rest none).update (sock.flush off)).fire .write sock
          sock.writeCallback .none) := by
      have moved : Moves s handle rest ((s.goOn rest none).update (sock.flush off)) :=
        .leave (.updated _ here) rfl rfl
      split
      · exact moved
      · apply moved.fire rfl here ahead
        rintro ⟨⟩
    split
    · exact flushed 0
    · split
      · exact flushed _
      · exact next
      · exact .close here ahead
  · exact next

end Moves

/-- What each operation does. -/
inductive Stepped (s : State) : Op → State → Prop
  | lpc (l : Lpc) : Stepped s (.lpc l) (s.lpc l)
  | callbackEnds : Stepped s .callbackEnds { s with inCallback := false }
  | began {order : List Int} (idle : s.pass = none) (perm : order.Perm s.registry.sockets) :
      Stepped s (.beginPass order) (s.goOn order none)
  | moved {op : Op} {s' : State} {pass : Pass} {handle : Int} {rest : List Int}
      (here : s.pass = some pass) (handles : pass.handles = handle :: rest)
      (silent : ∀ l, op ≠ .lpc l) (moves : Moves s handle rest s') : Stepped s op s'
  | ended : Stepped s .endPass { s with pass := none }

theorem State.step_cases {s s' : State} {op : Op} (tidy : Tidy s.registry)
    (done : s.step op = some s') : Stepped s op s' := by
  cases op with
  | lpc l =>
      simp only [State.step] at done
      split at done <;> cases done
      exact .lpc l
  | callbackEnds =>
      simp only [State.step] at done
      split at done <;> cases done
      exact .callbackEnds
  | beginPass order =>
      simp only [State.step] at done
      split at done <;> cases done
      rename_i ready
      exact .began (Option.isNone_iff_eq_none.mp ready.1) ready.2.2
  | visit ready =>
      simp only [State.step] at done
      split at done
      · rename_i handle rest _ here
        rcases Option.map_eq_some_iff.mp done with ⟨sock, made, rfl⟩
        apply Stepped.moved here rfl
        · rintro l ⟨⟩
        · exact .visit (tidy.keyed.handle made) here ready
      · cases done
  | frame =>
      simp only [State.step] at done
      split at done
      · rename_i rest handle bytes writable _ here
        rcases Option.map_eq_some_iff.mp done with ⟨sock, made, rfl⟩
        apply Stepped.moved here rfl
        · rintro l ⟨⟩
        · exact .frame (tidy.keyed.handle made) here
      · cases done
  | writeHalf result =>
      simp only [State.step] at done
      split at done
      · rename_i rest handle writable _ here
        rcases Option.map_eq_some_iff.mp done with ⟨sock, made, rfl⟩
        apply Stepped.moved here rfl
        · rintro l ⟨⟩
        · exact .writeHalf (tidy.keyed.handle made) here made result
      · cases done
  | endPass =>
      simp only [State.step] at done
      split at done <;> cases done
      exact .ended

end Kjdmud.Net.Socket.Poll
