import Kjdmud.Net.Socket.Effects
import Kjdmud.Lib.Runs

/-!
# Who may use a socket

`src/efun/EfunTable.cpp`: `socket_release` runs LPC code while the socket is marked
as released, and finds out afterwards whether `socket_acquire` took it over.  The
efun is split at that callback, so that everything the callback does, further
calls of `socket_release` included, is a step of its own.
-/

namespace Kjdmud.Net.Socket

open Kjdmud.Scheduler (World)

/-- A call of an efun that came to an end. -/
structure Call where
  caller : Option ObjectId
  efun : Efun
  rc : Int

/-- A `socket_release` whose callback is running: its arguments, the object that
called it, the socket as the call found it, and what was called since, newest
first. -/
structure Release where
  handle : Int
  ob : Option ObjectId
  releaser : Option ObjectId
  before : Option LpcSocket
  calls : List Call := []

/-- Between two steps of LPC code.  The innermost release comes first. -/
structure State where
  world : World
  registry : Registry := {}
  releases : List Release := []

/-- How a callback ends. -/
inductive Ending
  | returned
  /-- By an exception, of whatever kind. -/
  | threw

/-- What can happen next. -/
inductive Op
  /-- An object calls an efun other than `socket_release`. -/
  | call (caller : Option ObjectId) (efun : Efun) (answers : Answers)
  | socketRelease (caller : Option ObjectId) (handle : Int) (ob : Option ObjectId)
  /-- The callback of the innermost release ends. -/
  | callbackEnds (ending : Ending)
  /-- An object is destructed or reloaded. -/
  | destruct (ob : ObjectId)
  /-- The last `shared_ptr` to an object goes away. -/
  | free (ob : ObjectId)
  /-- The driver finds a connection lost. -/
  | hangUp (handle : Int)

/-- The release after one more call. -/
def Release.record (call : Call) (release : Release) : Release :=
  { release with calls := call :: release.calls }

/-- Whether a release keeps an object in memory: as its argument, or as the object
whose code is running. -/
def Release.holds (release : Release) (ob : ObjectId) : Bool :=
  release.ob == some ob || release.releaser == some ob

namespace State

def find (s : State) (handle : Int) : Option LpcSocket :=
  s.registry.find handle

/-- What has become of one object. -/
def setStatus (s : State) (ob : ObjectId) (status : Scheduler.ObjectStatus) : State :=
  { s with world := { s.world with status := Function.update s.world.status ob status } }

/-- `socket_release`, up to its callback. -/
def socketRelease (s : State) (caller : Option ObjectId) (handle : Int)
    (ob : Option ObjectId) : State × Option Int :=
  match s.registry.beginRelease s.world handle ob caller with
  | (registry, rc) =>
      if rc ≠ SocketErr.success then (s, some rc)
      else
        ({ s with
            registry := registry
            releases :=
              { handle := handle, ob := ob, releaser := caller, before := s.find handle } ::
                s.releases },
          none)

/-- `socket_release`, from its callback on. -/
def finishRelease (s : State) (release : Release) (older : List Release) :
    State × Option Int :=
  if s.registry.isReleased release.handle then
    ({ s with registry := s.registry.cancelRelease release.handle, releases := older },
      some SocketErr.eSockNotRlsd)
  else ({ s with releases := older }, some SocketErr.success)

/-- Execute one operation, with what the efun that ends in it returns; `none` where
it cannot happen. -/
def step (s : State) : Op → Option (State × Option Int)
  | .call caller efun answers =>
      match Socket.call s.registry s.world caller answers efun with
      | (registry, rc) =>
          some ({ s with
              registry := registry
              releases := s.releases.map (·.record ⟨caller, efun, rc⟩) },
            some rc)
  | .socketRelease caller handle ob =>
      if s.world.lock ob = ob ∧ s.world.lock caller = caller then
        some (s.socketRelease caller handle ob)
      else none
  -- `catch (const std::exception&)`: every LPC error is one.
  | .callbackEnds _ =>
      match s.releases with
      | release :: older => some (s.finishRelease release older)
      | [] => none
  | .destruct ob =>
      if s.world.status ob = .gone then none
      else
        some ({ s.setStatus ob .destructed with
            registry := s.registry.closeAllOwnedBy s.world ob },
          none)
  | .free ob =>
      if s.releases.any (·.holds ob) then none else some (s.setStatus ob .gone, none)
  | .hangUp handle =>
      some ({ s with registry := s.registry.forceRemove handle }, none)

end State

/-- `target` is reached from `source` by executing `ops`. -/
abbrev Run : State → List Op → State → Prop :=
  Lib.Runs.Run fun s op t => ∃ result, s.step op = some (t, result)

/-- No socket has been made. -/
def initial (world : World) : State :=
  { world }

/-! ## The law of the hand-over -/

/-- The object named in the release took the handle over. -/
def Release.Acquired (release : Release) : Prop :=
  ∃ call ∈ release.calls, call.caller = release.ob ∧ call.rc = SocketErr.success ∧
    ∃ read write close, call.efun = .acquire release.handle read write close

/-- The object that released the handle called an efun on it that replaces its
callbacks. -/
def Release.Rebound (release : Release) : Prop :=
  ∃ call ∈ release.calls, call.caller = release.releaser ∧
    call.efun.replaces = some release.handle

/-- The owner of a handle. -/
def State.Owns (s : State) (caller : Option ObjectId) (handle : Int) : Prop :=
  ∃ sock, s.find handle = some sock ∧ s.world.lock sock.owner = caller

/-- What holds of one step, with `kept` for what a release that nobody took over has
done to the callbacks. -/
structure HandOver (kept : Release → LpcSocket → LpcSocket → Prop) (s : State) (op : Op)
    (s' : State) (result : Option Int) : Prop where
  /-- Only the owner's calls do anything. -/
  ownerOnly : ∀ caller efun answers handle, op = .call caller efun answers →
    efun.owned = some handle → s.Owns caller handle ∨
      (s'.registry = s.registry ∧
        ∃ rc, result = some rc ∧ rc < 0 ∧ rc ≠ SocketErr.eCallback)
  releaserOnly : ∀ caller handle ob, op = .socketRelease caller handle ob →
    s.Owns caller handle ∨ (s' = s ∧ ∃ rc, result = some rc ∧ rc < 0)
  /-- The owner changes through the object named in a release that is in progress. -/
  ownerChanges : ∀ handle sock sock', s.find handle = some sock →
    s'.find handle = some sock' → sock'.owner ≠ sock.owner →
      ∃ release ∈ s.releases, release.handle = handle ∧ sock'.owner = release.ob ∧
        ∃ read write close answers,
          op = .call release.ob (.acquire handle read write close) answers
  /-- A release that is refused changes nothing. -/
  refused : ∀ caller handle ob rc, op = .socketRelease caller handle ob →
    result = some rc → s' = s
  /-- A release that was begun ends with the handle closed or taken over, or else with
  the error that says so. -/
  ended : ∀ ending release older, op = .callbackEnds ending →
    s.releases = release :: older →
      (result = some SocketErr.success ∧
          (s'.find release.handle = none ∨ release.Acquired)) ∨
        (result = some SocketErr.eSockNotRlsd ∧
          ∃ before sock, release.before = some before ∧
            s'.find release.handle = some sock ∧ sock.owner = before.owner ∧
            kept release before sock)
  /-- Outside of every release no socket is marked. -/
  settled : s'.releases = [] → ∀ handle sock, s'.find handle = some sock →
    sock.released = false

/-- The callbacks are what they were. -/
def Untouched (_ : Release) (before sock : LpcSocket) : Prop :=
  SameCallbacks before sock

/-- The callbacks are what they were, or the owner has replaced them itself. -/
def TouchedByOwner (release : Release) (before sock : LpcSocket) : Prop :=
  SameCallbacks before sock ∨ release.Rebound

/-! ## What holds of every run -/

/-- A release that nobody has answered yet. -/
structure Release.OpenIn (s : State) (release : Release) (before sock : LpcSocket) :
    Prop where
  before_eq : release.before = some before
  found : s.find release.handle = some sock
  released : sock.released = true
  target : sock.releaseTarget = release.ob
  owner : sock.owner = before.owner
  mine : s.world.lock sock.owner = release.releaser
  kept : TouchedByOwner release before sock

/-- The stages of a release in progress. -/
def Release.Staged (s : State) (release : Release) : Prop :=
  release.Acquired ∨ s.find release.handle = none ∨
    ∃ before sock, release.OpenIn s before sock

structure Sound (s : State) : Prop where
  keyed : s.registry.Keyed
  old : ∀ release ∈ s.releases, release.handle < s.registry.nextHandle
  held : ∀ release ∈ s.releases, s.world.lock release.ob = release.ob
  staged : ∀ release ∈ s.releases, release.Staged s
  /-- A handle is released again only after it was taken over. -/
  nested : s.releases.Pairwise fun inner outer =>
    inner.handle = outer.handle → outer.Acquired ∨ s.find outer.handle = none
  /-- A mark on a socket is that of the innermost release of its handle. -/
  marked : ∀ handle sock, s.find handle = some sock → sock.released = true →
    ∃ release, s.releases.find? (·.handle == handle) = some release ∧
      ∃ before, release.OpenIn s before sock

theorem initial_sound (world : World) : Sound (initial world) where
  keyed := {
    handle := by intro h sock made; cases made
    old := by intro h sock made; cases made }
  old := by intro release mem; cases mem
  held := by intro release mem; cases mem
  staged := by intro release mem; cases mem
  nested := .nil
  marked := by intro handle sock found; cases found

theorem SameCallbacks.trans {a b c : LpcSocket} (first : SameCallbacks a b)
    (second : SameCallbacks b c) : SameCallbacks a c :=
  ⟨second.read.trans first.read, second.write.trans first.write,
    second.close.trans first.close⟩

section Record

variable {call : Call} {release : Release}

theorem Release.Acquired.record (acquired : release.Acquired) :
    (release.record call).Acquired := by
  rcases acquired with ⟨made, mem, facts⟩
  exact ⟨made, List.mem_cons_of_mem _ mem, facts⟩

theorem Release.Rebound.record (rebound : release.Rebound) :
    (release.record call).Rebound := by
  rcases rebound with ⟨made, mem, facts⟩
  exact ⟨made, List.mem_cons_of_mem _ mem, facts⟩

end Record

/-! ## Calls -/

section Calls

variable {s : State} {caller : Option ObjectId} {efun : Efun} {answers : Answers}
  {registry : Registry} {rc : Int} {release : Release} {before sock sock' : LpcSocket}

/-- The state after a call. -/
def State.after (s : State) (registry : Registry) (call : Call) : State :=
  { s with registry, releases := s.releases.map (·.record call) }

/-- An open release after a call on its socket: still open, or answered. -/
theorem Release.OpenIn.follow (open_ : release.OpenIn s before sock)
    (held : s.world.lock release.ob = release.ob)
    (found' : registry.find release.handle = some sock')
    (keyed : s.registry.Keyed)
    (follows : Follows s.world caller efun rc sock sock') :
    ((release.record ⟨caller, efun, rc⟩).Acquired ∧ sock'.released = false) ∨
      (release.record ⟨caller, efun, rc⟩).OpenIn (s.after registry ⟨caller, efun, rc⟩)
        before sock' := by
  have handle_eq : sock.handle = release.handle := keyed.of_find open_.found
  cases follows with
  | kept same callbacks =>
      apply Or.inr
      constructor
      · exact open_.before_eq
      · exact found'
      · exact same.released.trans open_.released
      · exact same.releaseTarget.trans open_.target
      · exact same.owner.trans open_.owner
      · rw [same.owner]
        exact open_.mine
      · rcases open_.kept with kept | rebound
        · rcases callbacks with unchanged | ⟨replaces, owner⟩
          · exact .inl (kept.trans unchanged)
          · rw [handle_eq] at replaces
            exact .inr ⟨_, List.mem_cons_self, owner.symm.trans open_.mine, replaces⟩
        · exact .inr rebound.record
  | acquired released target efun_eq success taken mine =>
      rw [open_.target, held] at target
      rw [handle_eq] at efun_eq
      exact .inl ⟨⟨_, List.mem_cons_self, target.symm, success, _, _, _, efun_eq⟩, taken⟩

variable (sound : Sound s)
  (changed : Changed s.world caller efun s.registry registry rc)

include sound changed

omit sound in
/-- What is gone stays gone. -/
theorem gone_of_changed {handle : Int} (old : handle < s.registry.nextHandle)
    (gone : s.find handle = none) : registry.find handle = none := by
  rcases changed.find_none gone with none_ | ⟨_, _, new, _⟩
  · exact none_
  · exact absurd new (Int.ne_of_lt old)

theorem Sound.after : Sound (s.after registry ⟨caller, efun, rc⟩) where
  keyed := changed.keyed sound.keyed
  old := by
    intro release mem
    rcases List.mem_map.mp mem with ⟨earlier, here, rfl⟩
    exact lt_of_lt_of_le (sound.old earlier here) changed.nextHandle_le
  held := by
    intro release mem
    rcases List.mem_map.mp mem with ⟨earlier, here, rfl⟩
    exact sound.held earlier here
  staged := by
    intro release mem
    rcases List.mem_map.mp mem with ⟨earlier, here, rfl⟩
    rcases sound.staged earlier here with acquired | gone | ⟨before, sock, open_⟩
    · exact .inl acquired.record
    · exact .inr (.inl (gone_of_changed changed (sound.old earlier here) gone))
    · rcases changed.find_some sound.keyed open_.found with gone | ⟨sock', found', follows⟩
      · exact .inr (.inl gone)
      · rcases open_.follow (sound.held earlier here) found' sound.keyed follows with
          ⟨acquired, _⟩ | open'
        · exact .inl acquired
        · exact .inr (.inr ⟨before, sock', open'⟩)
  nested := by
    apply List.pairwise_map.mpr
    apply (List.pairwise_iff_forall_sublist.mpr ?_ : List.Pairwise _ s.releases)
    intro inner outer sublist same
    have mem : outer ∈ s.releases := sublist.subset (by simp)
    rcases List.pairwise_iff_forall_sublist.mp sound.nested sublist same with
      acquired | gone
    · exact .inl acquired.record
    · exact .inr (gone_of_changed changed (sound.old outer mem) gone)
  marked := by
    intro handle sock' found' released'
    cases found : s.find handle with
    | none =>
        rcases changed.find_none found with none_ | ⟨other, found'', _, free⟩
        · rw [State.find, State.after, none_] at found'
          cases found'
        · rw [State.find, State.after, found''] at found'
          cases found'
          rw [free] at released'
          cases released'
    | some sock =>
        rcases changed.find_some sound.keyed found with none_ | ⟨other, found'', follows⟩
        · rw [State.find, State.after, none_] at found'
          cases found'
        · rw [State.find, State.after, found''] at found'
          cases found'
          have released : sock.released = true := by
            cases follows with
            | kept same callbacks => rw [← same.released, released']
            | acquired _ _ _ _ taken _ =>
                rw [taken] at released'
                cases released'
          rcases sound.marked handle sock found released with ⟨release, first, before, open_⟩
          have mem := List.mem_of_find?_eq_some first
          have handle_eq : release.handle = handle := by
            simpa using List.find?_some first
          rw [← handle_eq] at found''
          rcases open_.follow (sound.held release mem) found'' sound.keyed follows with
            ⟨_, taken⟩ | open'
          · rw [taken] at released'
            cases released'
          · refine ⟨release.record ⟨caller, efun, rc⟩, ?_, before, open'⟩
            rw [State.after, List.find?_map]
            exact congrArg (Option.map _) first

end Calls

/-! ## The other operations -/

section Steps

variable {s s' : State}

/-- An operation that only closes sockets and leaves the objects of every release in
memory. -/
theorem Sound.of_closing (sound : Sound s) (keyed : s'.registry.Keyed)
    (next : s'.registry.nextHandle = s.registry.nextHandle)
    (releases : s'.releases = s.releases)
    (find : ∀ handle, s'.find handle = none ∨ s'.find handle = s.find handle)
    (locks : ∀ release ∈ s.releases, ∀ weak,
      (s.world.lock weak = release.ob → s'.world.lock weak = release.ob) ∧
        (s.world.lock weak = release.releaser → s'.world.lock weak = release.releaser)) :
    Sound s' := by
  have open_of_found : ∀ release ∈ s.releases, ∀ before sock,
      release.OpenIn s before sock → s'.find release.handle = some sock →
      release.OpenIn s' before sock := by
    intro release mem before sock open_ found
    exact { open_ with found := found, mine := (locks release mem _).2 open_.mine }
  have gone_of_gone : ∀ handle, s.find handle = none → s'.find handle = none := by
    intro handle gone
    rcases find handle with none_ | same
    · exact none_
    · exact same.trans gone
  constructor
  · exact keyed
  · rw [releases, next]
    exact sound.old
  · rw [releases]
    intro release mem
    exact (locks release mem _).1 (sound.held release mem)
  · rw [releases]
    intro release mem
    rcases sound.staged release mem with acquired | gone | ⟨before, sock, open_⟩
    · exact .inl acquired
    · exact .inr (.inl (gone_of_gone _ gone))
    · rcases find release.handle with none_ | same
      · exact .inr (.inl none_)
      · exact .inr (.inr ⟨before, sock,
          open_of_found release mem before sock open_ (same.trans open_.found)⟩)
  · rw [releases]
    apply sound.nested.imp
    intro inner outer closed same
    exact (closed same).imp_right (gone_of_gone _)
  · rw [releases]
    intro handle sock found released
    have same : s'.find handle = s.find handle := by
      rcases find handle with none_ | same
      · rw [none_] at found
        cases found
      · exact same
    rcases sound.marked handle sock (same.symm.trans found) released with
      ⟨release, first, before, open_⟩
    have mem := List.mem_of_find?_eq_some first
    have handle_eq : release.handle = handle := by simpa using List.find?_some first
    rw [← handle_eq] at found
    exact ⟨release, first, before, open_of_found release mem before sock open_ found⟩

/-- What destructing or freeing an object does to the weak pointers. -/
theorem State.lock_setStatus (ob : ObjectId) (status : Scheduler.ObjectStatus)
    (weak : Option ObjectId) (other : weak ≠ some ob) :
    (s.setStatus ob status).world.lock weak = s.world.lock weak := by
  cases weak with
  | none => rfl
  | some o =>
      have differs : o ≠ ob := fun same => other (congrArg some same)
      simp only [World.lock, State.setStatus, Option.filter_some,
        Function.update_of_ne differs]

theorem Sound.destruct (sound : Sound s) {ob : ObjectId}
    (held : s.world.status ob ≠ .gone) :
    Sound { s.setStatus ob .destructed with
      registry := s.registry.closeAllOwnedBy s.world ob } := by
  have lock : ∀ weak, (s.setStatus ob .destructed).world.lock weak = s.world.lock weak := by
    intro weak
    by_cases same : weak = some ob
    · subst same
      simp only [World.lock, State.setStatus, Option.filter_some, Function.update_self]
      simp [held]
    · exact State.lock_setStatus ob .destructed weak same
  apply sound.of_closing
  · exact sound.keyed.of_made_eq rfl rfl
  · rfl
  · rfl
  · exact Registry.find_closeAllOwnedBy s.registry s.world ob
  · intro release _ weak
    exact ⟨(lock weak).trans, (lock weak).trans⟩

theorem Sound.free (sound : Sound s) {ob : ObjectId}
    (unheld : ∀ release ∈ s.releases, release.holds ob = false) :
    Sound (s.setStatus ob .gone) := by
  apply sound.of_closing
  · exact sound.keyed
  · rfl
  · rfl
  · exact fun _ => .inr rfl
  · intro release mem weak
    have free := unheld release mem
    simp only [Release.holds, Bool.or_eq_false_iff, beq_eq_false_iff_ne] at free
    by_cases same : weak = some ob
    · subst same
      have gone : (s.setStatus ob .gone).world.lock (some ob) = none := by
        simp [World.lock, State.setStatus]
      have before : s.world.lock (some ob) = some ob ∨ s.world.lock (some ob) = none := by
        simp only [World.lock, Option.filter_some]
        split
        · exact .inl rfl
        · exact .inr rfl
      rw [gone]
      rcases before with locked | unlocked
      · rw [locked]
        exact ⟨fun same => absurd same.symm free.1, fun same => absurd same.symm free.2⟩
      · rw [unlocked]
        exact ⟨id, id⟩
    · rw [State.lock_setStatus ob .gone weak same]
      exact ⟨id, id⟩

theorem Sound.hangUp (sound : Sound s) (handle : Int) :
    Sound { s with registry := s.registry.forceRemove handle } := by
  apply sound.of_closing
  · exact sound.keyed.of_made_eq rfl rfl
  · rfl
  · rfl
  · intro h
    by_cases same : h = handle
    · rw [same]
      exact .inl Registry.find_forceRemove_self
    · exact .inr (Registry.find_forceRemove_of_ne same)
  · exact fun _ _ _ => ⟨id, id⟩

/-! ## Releases -/

variable {caller ob : Option ObjectId} {handle : Int}

/-- What `socket_release` does before its callback: nothing, or it marks a socket of the
caller that was not marked. -/
theorem State.socketRelease_cases (keyed : s.registry.Keyed) (caller : Option ObjectId)
    (handle : Int) (ob : Option ObjectId) :
    (∃ rc, s.socketRelease caller handle ob = (s, some rc) ∧ rc < 0) ∨
      ∃ sock, s.find handle = some sock ∧ sock.handle = handle ∧ sock.released = false ∧
        s.world.lock sock.owner = caller ∧
        s.socketRelease caller handle ob =
          ({ s with
              registry := s.registry.update (sock.releasedTo ob)
              releases :=
                { handle := handle, ob := ob, releaser := caller, before := some sock } ::
                  s.releases },
            none) := by
  rw [State.socketRelease]
  cases done : s.registry.beginRelease s.world handle ob caller with
  | mk registry rc =>
      rcases Registry.asOwner_cases done with ⟨_, rfl | rfl | rfl⟩ |
        ⟨sock, found, owner, operated⟩
      · exact .inl ⟨_, rfl, by decide⟩
      · exact .inl ⟨_, rfl, by decide⟩
      · exact .inl ⟨_, rfl, by decide⟩
      · split at operated
        · cases operated
          exact .inl ⟨_, rfl, by decide⟩
        · next free =>
            cases operated
            apply Or.inr
            refine ⟨sock, found, keyed.of_find found, by simpa using free, owner, ?_⟩
            simp [State.find, found]

theorem Release.OpenIn.elsewhere {release : Release} {before sock : LpcSocket}
    (open_ : release.OpenIn s before sock) (world : s'.world = s.world)
    (same : s'.find release.handle = s.find release.handle) :
    release.OpenIn s' before sock :=
  { open_ with
    found := same.trans open_.found
    mine := by rw [world]; exact open_.mine }

/-- A release that begins is open, and no other release of its handle is. -/
theorem Sound.begin (sound : Sound s) {sock : LpcSocket} (found : s.find handle = some sock)
    (handle_eq : sock.handle = handle) (free : sock.released = false)
    (owner : s.world.lock sock.owner = caller) (locked : s.world.lock ob = ob) :
    Sound { s with
      registry := s.registry.update (sock.releasedTo ob)
      releases :=
        { handle := handle, ob := ob, releaser := caller, before := some sock } ::
          s.releases } := by
  subst handle_eq
  have mem_sockets := (Registry.find_eq_some.mp found).1
  have here : (s.registry.update (sock.releasedTo ob)).find sock.handle =
      some (sock.releasedTo ob) := Registry.find_update_self mem_sockets
  have elsewhere : ∀ h, h ≠ sock.handle →
      (s.registry.update (sock.releasedTo ob)).find h =
        s.find h := fun h differs => Registry.find_update_of_ne differs
  -- An open release would have marked the socket.
  have closed : ∀ release ∈ s.releases, sock.handle = release.handle → release.Acquired := by
    intro release mem same
    rcases sound.staged release mem with acquired | gone | ⟨before, marked, open_⟩
    · exact acquired
    · rw [← same, found] at gone
      cases gone
    · have again := open_.found
      rw [← same, found] at again
      cases again
      rw [open_.released] at free
      cases free
  constructor
  · exact Registry.Keyed.update sound.keyed found
  · intro release mem
    rcases List.mem_cons.mp mem with rfl | mem
    · exact sound.keyed.lt_next found
    · exact sound.old release mem
  · intro release mem
    rcases List.mem_cons.mp mem with rfl | mem
    · exact locked
    · exact sound.held release mem
  · intro release mem
    rcases List.mem_cons.mp mem with rfl | mem
    · exact .inr (.inr ⟨sock, _, rfl, here, rfl, rfl, rfl, owner, .inl ⟨rfl, rfl, rfl⟩⟩)
    · by_cases same : sock.handle = release.handle
      · exact .inl (closed release mem same)
      · have away := elsewhere release.handle fun equal => same equal.symm
        rcases sound.staged release mem with acquired | gone | ⟨before, marked, open_⟩
        · exact .inl acquired
        · exact .inr (.inl (away.trans gone))
        · exact .inr (.inr ⟨before, marked, open_.elsewhere rfl away⟩)
  · constructor
    · intro outer mem same
      exact .inl (closed outer mem same)
    · apply sound.nested.imp_of_mem
      intro inner outer _ mem wasClosed same
      by_cases at_ : sock.handle = outer.handle
      · exact .inl (closed outer mem at_)
      · have away := elsewhere outer.handle fun equal => at_ equal.symm
        exact (wasClosed same).imp_right away.trans
  · intro h marked found' released
    by_cases same : h = sock.handle
    · subst same
      have : some _ = some marked := here.symm.trans found'
      cases this
      refine ⟨_, List.find?_cons_of_pos (by simp), sock, rfl, here, rfl, rfl, rfl, owner,
        .inl ⟨rfl, rfl, rfl⟩⟩
    · have before := (elsewhere h same).symm.trans found'
      rcases sound.marked h marked before released with ⟨release, first, earlier, open_⟩
      have handle_eq : release.handle = h := by simpa using List.find?_some first
      have away : release.OpenIn
          { s with registry := s.registry.update (sock.releasedTo ob) } earlier marked := by
        apply open_.elsewhere
        · rfl
        · rw [handle_eq]
          exact elsewhere h same
      rw [List.find?_cons]
      simp only [beq_eq_false_iff_ne.mpr fun equal => same equal.symm]
      exact ⟨release, first, earlier, { away with }⟩

/-- The innermost release ends, and its handle is not marked any more. -/
theorem Sound.drop {release : Release} {older : List Release} {registry : Registry}
    (sound : Sound s) (here : s.releases = release :: older) (keyed : registry.Keyed)
    (next : registry.nextHandle = s.registry.nextHandle)
    (elsewhere : ∀ h, h ≠ release.handle → registry.find h = s.find h)
    (gone : s.find release.handle = none → registry.find release.handle = none)
    (unmarked : ∀ sock, registry.find release.handle = some sock → sock.released = false) :
    Sound { s with registry := registry, releases := older } := by
  have later : ∀ other ∈ older, other ∈ s.releases := by
    intro other mem
    rw [here]
    exact List.mem_cons_of_mem _ mem
  have nested := sound.nested
  rw [here, List.pairwise_cons] at nested
  have staysGone : ∀ h, s.find h = none → registry.find h = none := by
    intro h none_
    by_cases same : h = release.handle
    · subst same
      exact gone none_
    · exact (elsewhere h same).trans none_
  constructor
  · exact keyed
  · intro other mem
    exact lt_of_lt_of_eq (sound.old other (later other mem)) next.symm
  · intro other mem
    exact sound.held other (later other mem)
  · intro other mem
    by_cases same : release.handle = other.handle
    · rcases nested.1 other mem same with acquired | none_
      · exact .inl acquired
      · exact .inr (.inl (staysGone _ none_))
    · have away := elsewhere other.handle fun equal => same equal.symm
      rcases sound.staged other (later other mem) with acquired | none_ | ⟨before, sock, open_⟩
      · exact .inl acquired
      · exact .inr (.inl (staysGone _ none_))
      · exact .inr (.inr ⟨before, sock, open_.elsewhere rfl away⟩)
  · apply nested.2.imp
    intro inner outer closed same
    exact (closed same).imp_right (staysGone _)
  · intro h sock found released
    by_cases same : h = release.handle
    · subst same
      rw [unmarked sock found] at released
      cases released
    · have before := (elsewhere h same).symm.trans found
      rcases sound.marked h sock before released with ⟨other, first, earlier, open_⟩
      have handle_eq : other.handle = h := by simpa using List.find?_some first
      rw [here, List.find?_cons] at first
      simp only [beq_eq_false_iff_ne.mpr fun equal => same equal.symm] at first
      have away : release.handle ≠ other.handle := by
        rw [handle_eq]
        exact fun equal => same equal.symm
      exact ⟨other, first, earlier,
        open_.elsewhere rfl (elsewhere other.handle fun equal => away equal.symm)⟩

/-- What a release finds when its callback is over. -/
theorem Sound.finish {release : Release} {older : List Release} (sound : Sound s)
    (here : s.releases = release :: older) :
    Sound (s.finishRelease release older).1 ∧
      ((s.finishRelease release older =
            ({ s with releases := older }, some SocketErr.success) ∧
          (s.find release.handle = none ∨ release.Acquired)) ∨
        ∃ before sock, release.OpenIn s before sock ∧ sock.handle = release.handle ∧
          s.finishRelease release older =
            ({ s with
                registry := s.registry.update sock.unreleased
                releases := older },
              some SocketErr.eSockNotRlsd)) := by
  have mem : release ∈ s.releases := by
    rw [here]
    exact List.mem_cons_self
  by_cases marked : s.registry.isReleased release.handle = true
  · rcases (Option.any_eq_true _ _).mp marked with ⟨sock, found, released⟩
    rcases sound.marked release.handle sock found released with ⟨first, first_eq, before, open_⟩
    rw [here, List.find?_cons_of_pos (by simp)] at first_eq
    cases first_eq
    have handle_eq : sock.handle = release.handle := sound.keyed.of_find found
    have done : s.finishRelease release older =
        ({ s with registry := s.registry.update sock.unreleased, releases := older },
          some SocketErr.eSockNotRlsd) := by
      rw [State.finishRelease, if_pos marked, Registry.cancelRelease, found]
    have updated : (s.registry.update sock.unreleased).find release.handle =
        some sock.unreleased := by
      rw [← handle_eq] at found ⊢
      exact Registry.find_update_self (Registry.find_eq_some.mp found).1
    rw [done]
    constructor
    · apply sound.drop here
      · rw [← handle_eq] at found
        exact Registry.Keyed.update sound.keyed found
      · rfl
      · intro h differs
        rw [← handle_eq] at differs
        exact Registry.find_update_of_ne differs
      · intro none_
        rw [State.find, found] at none_
        cases none_
      · intro other found'
        rw [updated] at found'
        cases found'
        rfl
    · exact .inr ⟨before, sock, open_, handle_eq, rfl⟩
  · have done : s.finishRelease release older =
        ({ s with releases := older }, some SocketErr.success) := by
      rw [State.finishRelease, if_neg marked]
    have unmarked : ∀ sock, s.find release.handle = some sock → sock.released = false := by
      intro sock found
      apply Bool.eq_false_of_not_eq_true
      intro released
      exact marked ((Option.any_eq_true _ _).mpr ⟨sock, found, released⟩)
    rw [done]
    constructor
    · exact sound.drop here sound.keyed rfl (fun _ _ => rfl) id unmarked
    · rcases sound.staged release mem with acquired | gone | ⟨before, sock, open_⟩
      · exact .inl ⟨rfl, .inr acquired⟩
      · exact .inl ⟨rfl, .inl gone⟩
      · have released := open_.released
        rw [unmarked sock open_.found] at released
        cases released

end Steps

/-! ## Every operation -/

section Operations

variable {s s' : State} {op : Op} {result : Option Int}

/-- Every operation keeps the releases in order. -/
theorem Sound.step (sound : Sound s) (step : s.step op = some (s', result)) : Sound s' := by
  cases op with
  | call caller efun answers =>
      cases done : Socket.call s.registry s.world caller answers efun with
      | mk registry rc =>
          simp only [State.step, done, Option.some.injEq, Prod.mk.injEq] at step
          rw [← step.1]
          exact sound.after (call_changed sound.keyed done)
  | socketRelease caller handle ob =>
      simp only [State.step] at step
      split at step
      · next locked =>
          rcases State.socketRelease_cases sound.keyed caller handle ob with
            ⟨rc, done, _⟩ | ⟨sock, found, handle_eq, free, owner, done⟩
          · rw [done] at step
            cases step
            exact sound
          · rw [done] at step
            cases step
            exact sound.begin found handle_eq free owner locked.1
      · cases step
  | callbackEnds ending =>
      simp only [State.step] at step
      split at step
      · next release older here =>
          have finished := (sound.finish here).1
          rw [Option.some.inj step] at finished
          exact finished
      · cases step
  | destruct ob =>
      simp only [State.step] at step
      split at step
      · cases step
      · next held =>
          cases step
          exact sound.destruct held
  | free ob =>
      simp only [State.step] at step
      split at step
      · cases step
      · next unheld =>
          cases step
          apply sound.free
          intro release mem
          apply Bool.eq_false_of_not_eq_true
          intro holds
          exact unheld (List.any_eq_true.mpr ⟨release, mem, holds⟩)
  | hangUp handle =>
      cases step
      exact sound.hangUp handle

theorem Run.sound {world : World} {ops : List Op} (run : Run (initial world) ops s) :
    Sound s := by
  generalize start : initial world = source at run
  induction run with
  | nil =>
      rw [← start]
      exact initial_sound world
  | snoc _ last ih =>
      obtain ⟨_, step⟩ := last
      exact ih.step step

/-- Outside of every release no socket is marked. -/
theorem Sound.settled (sound : Sound s) (outside : s.releases = []) (handle : Int)
    (sock : LpcSocket) (found : s.find handle = some sock) : sock.released = false := by
  apply Bool.eq_false_of_not_eq_true
  intro released
  rcases sound.marked handle sock found released with ⟨release, first, _⟩
  rw [outside] at first
  cases first

/-- Changing a socket without its owner changes no owner. -/
theorem Registry.owner_update {r : Registry} {handle : Int} {sock other other' : LpcSocket}
    (found : r.find handle = some sock) (here : r.find other.handle = some other)
    (handle_eq : other'.handle = other.handle) (owner_eq : other'.owner = other.owner) :
    ∃ after, (r.update other').find handle = some after ∧ after.owner = sock.owner := by
  by_cases same : handle = other.handle
  · subst same
    rw [here] at found
    cases found
    have mem := (Registry.find_eq_some.mp here).1
    rw [← handle_eq] at mem ⊢
    exact ⟨other', Registry.find_update_self mem, owner_eq⟩
  · rw [← handle_eq] at same
    exact ⟨sock, (Registry.find_update_of_ne same).trans found, rfl⟩

/-- Only `socket_acquire` changes an owner. -/
theorem Sound.ownerChanges (sound : Sound s) (step : s.step op = some (s', result))
    {handle : Int} {sock sock' : LpcSocket} (found : s.find handle = some sock)
    (found' : s'.find handle = some sock') (changes : sock'.owner ≠ sock.owner) :
    ∃ release ∈ s.releases, release.handle = handle ∧ sock'.owner = release.ob ∧
      ∃ read write close answers,
        op = .call release.ob (.acquire handle read write close) answers := by
  have kept : ∀ registry : Registry, s'.registry = registry →
      (registry.find handle = none ∨ ∃ other, registry.find handle = some other ∧
        other.owner = sock.owner) → False := by
    rintro registry rfl (none_ | ⟨other, found'', same⟩)
    · rw [State.find, none_] at found'
      cases found'
    · rw [State.find, found''] at found'
      cases found'
      exact changes same
  have handle_eq : sock.handle = handle := sound.keyed.of_find found
  cases op with
  | call caller efun answers =>
      cases done : Socket.call s.registry s.world caller answers efun with
      | mk registry rc =>
          simp only [State.step, done, Option.some.injEq, Prod.mk.injEq] at step
          have registry_eq : s'.registry = registry := by rw [← step.1]
          rcases (call_changed sound.keyed done).find_some sound.keyed found with
            none_ | ⟨other, found'', follows⟩
          · exact (kept registry registry_eq (.inl none_)).elim
          · cases follows with
            | kept same _ =>
                exact (kept registry registry_eq (.inr ⟨other, found'', same.owner⟩)).elim
            | @acquired read write close released target efun_eq success taken mine =>
                rcases sound.marked handle sock found released with
                  ⟨release, first, before, open_⟩
                have mem := List.mem_of_find?_eq_some first
                rw [State.find, registry_eq, found''] at found'
                cases found'
                rw [open_.target, sound.held release mem] at target
                rw [handle_eq] at efun_eq
                rw [mine, efun_eq, ← target]
                refine ⟨release, mem, by simpa using List.find?_some first, rfl, read, write,
                  close, answers, rfl⟩
  | socketRelease caller target ob =>
      simp only [State.step] at step
      split at step
      · rcases State.socketRelease_cases sound.keyed caller target ob with
          ⟨rc, done, _⟩ | ⟨other, otherFound, other_eq, _, _, done⟩
        · rw [done] at step
          cases step
          exact (kept _ rfl (.inr ⟨sock, found, rfl⟩)).elim
        · rw [done] at step
          cases step
          rw [← other_eq] at otherFound
          exact (kept _ rfl (.inr (Registry.owner_update found otherFound rfl rfl))).elim
      · cases step
  | callbackEnds ending =>
      simp only [State.step] at step
      split at step
      · next release older here =>
          rcases (sound.finish here).2 with ⟨done, _⟩ |
            ⟨before, other, open_, other_eq, done⟩
          · rw [done] at step
            cases step
            exact (kept _ rfl (.inr ⟨sock, found, rfl⟩)).elim
          · rw [done] at step
            cases step
            have otherFound := open_.found
            rw [← other_eq] at otherFound
            exact (kept _ rfl (.inr (Registry.owner_update found otherFound rfl rfl))).elim
      · cases step
  | destruct ob =>
      simp only [State.step] at step
      split at step
      · cases step
      · cases step
        apply (kept _ rfl _).elim
        rcases Registry.find_closeAllOwnedBy s.registry s.world ob handle with none_ | same
        · exact .inl none_
        · exact .inr ⟨sock, same.trans found, rfl⟩
  | free ob =>
      simp only [State.step] at step
      split at step
      · cases step
      · cases step
        exact (kept _ rfl (.inr ⟨sock, found, rfl⟩)).elim
  | hangUp target =>
      cases step
      apply (kept _ rfl _).elim
      by_cases same : handle = target
      · rw [same]
        exact .inl Registry.find_forceRemove_self
      · exact .inr ⟨sock, (Registry.find_forceRemove_of_ne same).trans found, rfl⟩

end Operations

/-- The hand-over of sockets, in every run of the socket efuns. -/
theorem socket_handOver {world : World} {ops : List Op} {s s' : State} {op : Op}
    {result : Option Int} (run : Run (initial world) ops s)
    (step : s.step op = some (s', result)) : HandOver TouchedByOwner s op s' result := by
  have sound := run.sound
  constructor
  · rintro caller efun answers handle rfl owned
    by_cases owns : s.Owns caller handle
    · exact .inl owns
    · have other : ∀ sock, s.registry.find handle = some sock →
          s.world.lock sock.owner ≠ caller := by
        intro sock found owner
        exact owns ⟨sock, found, owner⟩
      rcases call_of_not_owner answers owned other with
        ⟨rc, done, negative, refused⟩
      simp only [State.step, done] at step
      cases step
      exact .inr ⟨rfl, rc, rfl, negative, refused⟩
  · rintro caller handle ob rfl
    simp only [State.step] at step
    split at step
    · rcases State.socketRelease_cases sound.keyed caller handle ob with
        ⟨rc, done, negative⟩ | ⟨sock, found, _, _, owner, _⟩
      · rw [done] at step
        cases step
        exact .inr ⟨rfl, rc, rfl, negative⟩
      · exact .inl ⟨sock, found, owner⟩
    · cases step
  · intro handle sock sock' found found' changes
    exact sound.ownerChanges step found found' changes
  · rintro caller handle ob rc rfl refused
    simp only [State.step] at step
    split at step
    · rcases State.socketRelease_cases sound.keyed caller handle ob with
        ⟨rc', done, _⟩ | ⟨sock, _, _, _, _, done⟩
      · rw [done] at step
        cases step
        rfl
      · rw [done] at step
        cases step
        cases refused
    · cases step
  · rintro ending release older rfl here
    simp only [State.step, here, Option.some.injEq] at step
    rcases (sound.finish here).2 with ⟨done, outcome⟩ |
      ⟨before, sock, open_, handle_eq, done⟩
    · rw [done] at step
      cases step
      exact .inl ⟨rfl, outcome⟩
    · rw [done] at step
      cases step
      have found : (s.registry.update sock.unreleased).find release.handle =
          some sock.unreleased := by
        have mem := (Registry.find_eq_some.mp open_.found).1
        rw [← handle_eq] at mem ⊢
        exact Registry.find_update_self mem
      refine .inr ⟨rfl, before, sock.unreleased, open_.before_eq, found, open_.owner, ?_⟩
      exact open_.kept.imp_left fun kept => ⟨kept.read, kept.write, kept.close⟩
  · exact (sound.step step).settled

/-- Three objects, all of them live. -/
def everyone : World where
  status := fun _ => .live
  closureOwner := fun _ => none

/-- An object opens a socket and releases it to another, and listens on it itself
before it returns from the callback: the release fails, and the callback is a new
one. -/
theorem release_rebinds : ¬ ∀ {ops : List Op} {s s' : State} {op : Op}
    {result : Option Int}, Run (initial everyone) ops s →
      s.step op = some (s', result) → HandOver Untouched s op s' result := by
  intro law
  have opened : Run (initial everyone)
      [.call (some 1) (.create 1 (.string (str "read")) .void) {},
        .call (some 1) (.bind 0 none) {}, .socketRelease (some 1) 0 (some 2),
        .call (some 1) (.listen 0 (.string (str "late"))) {}] _ :=
    .cons ⟨_, rfl⟩ (.cons ⟨_, rfl⟩ (.cons ⟨_, rfl⟩ (.cons ⟨_, rfl⟩ (.nil _))))
  have returned : HandOver Untouched _ (.callbackEnds .returned) _ _ := law opened rfl
  have ended := returned.ended .returned _ _ rfl rfl
  rcases ended with ⟨success, _⟩ | ⟨_, before, sock, before_eq, found, _, kept⟩
  · cases success
  · cases before_eq
    cases found
    have read := kept.read
    revert read
    decide

/-- A socket is taken over, and its new owner releases it to a third object, which does
not take it. -/
theorem release_nested : ∃ ops s s' result, Run (initial everyone) ops s ∧
    s.step (.callbackEnds .returned) = some (s', result) ∧
      result = some SocketErr.success ∧
      HandOver TouchedByOwner s (.callbackEnds .returned) s' result := by
  have run : Run (initial everyone)
      [.call (some 1) (.create 1 (.string (str "read")) .void) {},
        .socketRelease (some 1) 0 (some 2),
        .call (some 2) (.acquire 0 (.string (str "mine")) .void .void) {},
        .socketRelease (some 2) 0 (some 3), .callbackEnds .threw] _ :=
    .cons ⟨_, rfl⟩ (.cons ⟨_, rfl⟩ (.cons ⟨_, rfl⟩ (.cons ⟨_, rfl⟩
      (.cons ⟨_, rfl⟩ (.nil _)))))
  exact ⟨_, _, _, _, run, rfl, rfl, socket_handOver run rfl⟩

end Kjdmud.Net.Socket
