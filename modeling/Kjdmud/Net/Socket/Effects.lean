import Kjdmud.Net.Socket.Registry
import Mathlib.Tactic.Common

/-!
# What a socket efun does to the table

An efun changes at most one socket that is in the table, and only its owner
makes it do so, unless it is `socket_acquire`.  `call_changed` says this once for
every efun; the runs of the socket efuns are followed through it alone.
-/

namespace Kjdmud.Net.Socket

open Kjdmud.Scheduler (World)
open Kjdmud.Vm (Value)

variable {r r' : Registry} {world : World} {caller : Option ObjectId} {answers : Answers}
  {handle rc : Int} {sock sock' : LpcSocket}

/-! ## The table -/

/-- Every socket is made under its own handle, and the next handle is new. -/
structure Registry.Keyed (r : Registry) : Prop where
  handle : ∀ {h sock}, r.made h = some sock → sock.handle = h
  old : ∀ {h sock}, r.made h = some sock → h < r.nextHandle

namespace Registry

theorem find_eq_some : r.find handle = some sock ↔
    handle ∈ r.sockets ∧ r.made handle = some sock := by
  rw [find]
  split
  · next mem => exact ⟨fun found => ⟨mem, found⟩, And.right⟩
  · next absent =>
      constructor
      · intro found
        cases found
      · rintro ⟨mem, _⟩
        exact absurd mem absent

theorem Keyed.of_find (keyed : r.Keyed) (found : r.find handle = some sock) :
    sock.handle = handle :=
  keyed.handle (find_eq_some.mp found).2

theorem Keyed.lt_next (keyed : r.Keyed) (found : r.find handle = some sock) :
    handle < r.nextHandle :=
  keyed.old (find_eq_some.mp found).2

theorem find_update_self (mem : sock.handle ∈ r.sockets) :
    (r.update sock).find sock.handle = some sock := by
  rw [find, update]
  simp only
  rw [if_pos mem, Function.update_self]

theorem find_update_of_ne (differs : handle ≠ sock.handle) :
    (r.update sock).find handle = r.find handle := by
  simp only [find, update, Function.update_of_ne differs]

theorem find_enter_of_ne (differs : handle ≠ sock.handle) :
    (r.enter sock).find handle = r.find handle := by
  simp only [find, enter, update, List.mem_cons, differs, false_or,
    Function.update_of_ne differs]

theorem find_enter_self : (r.enter sock).find sock.handle = some sock := by
  simp [find, enter, update]

theorem find_forceRemove_self : (r.forceRemove handle).find handle = none := by
  simp [find, forceRemove]

theorem find_forceRemove_of_ne {h : Int} (differs : h ≠ handle) :
    (r.forceRemove handle).find h = r.find h := by
  simp [find, forceRemove, differs]

/-- Nothing comes into the table by closing what an object owns. -/
theorem find_closeAllOwnedBy (r : Registry) (world : World) (owner : ObjectId) (h : Int) :
    (r.closeAllOwnedBy world owner).find h = none ∨
      (r.closeAllOwnedBy world owner).find h = r.find h := by
  simp only [find, closeAllOwnedBy, List.mem_filter]
  split
  · next kept => exact .inr (by rw [if_pos kept.1])
  · exact .inl rfl

theorem Keyed.update_old (keyed : r.Keyed) (old : sock.handle < r.nextHandle) :
    (r.update sock).Keyed where
  handle := by
    intro h other made
    by_cases same : h = sock.handle
    · subst same
      simp only [Registry.update, Function.update_self, Option.some.injEq] at made
      rw [made]
    · simp only [Registry.update, Function.update_of_ne same] at made
      exact keyed.handle made
  old := by
    intro h other made
    by_cases same : h = sock.handle
    · subst same
      exact old
    · simp only [Registry.update, Function.update_of_ne same] at made
      exact keyed.old made

theorem Keyed.update (keyed : r.Keyed) (found : r.find sock.handle = some sock') :
    (r.update sock).Keyed :=
  keyed.update_old (keyed.lt_next found)

theorem Keyed.enter (keyed : r.Keyed) (new : sock.handle = r.nextHandle) :
    (r.enter sock).Keyed where
  handle := by
    intro h other made
    by_cases same : h = sock.handle
    · subst same
      simp only [Registry.enter, Registry.update, Function.update_self,
        Option.some.injEq] at made
      rw [made]
    · simp only [Registry.enter, Registry.update, Function.update_of_ne same] at made
      exact keyed.handle made
  old := by
    intro h other made
    have next : (r.enter sock).nextHandle = r.nextHandle + 1 := rfl
    by_cases same : h = sock.handle
    · omega
    · simp only [Registry.enter, Registry.update, Function.update_of_ne same] at made
      have := keyed.old made
      omega

theorem Keyed.of_made_eq (keyed : r.Keyed) (made : r'.made = r.made)
    (next : r'.nextHandle = r.nextHandle) : r'.Keyed where
  handle := by
    intro h sock found
    rw [made] at found
    exact keyed.handle found
  old := by
    intro h sock found
    rw [made] at found
    rw [next]
    exact keyed.old found

/-- An operation that its owner has to make leaves the table alone for everybody
else. -/
theorem asOwner_cases {operate : LpcSocket → Registry × Int}
    (done : r.asOwner world handle caller operate = (r', rc)) :
    (r' = r ∧ (rc = SocketErr.eFdRange ∨ rc = SocketErr.eBadF ∨ rc = SocketErr.eSecurity)) ∨
      ∃ sock, r.find handle = some sock ∧ world.lock sock.owner = caller ∧
        operate sock = (r', rc) := by
  rw [asOwner] at done
  split at done
  · cases done
    exact .inl ⟨rfl, .inl rfl⟩
  · next sock found =>
      split at done
      · cases done
        exact .inl ⟨rfl, .inr (.inl rfl)⟩
      · split at done
        · cases done
          exact .inl ⟨rfl, .inr (.inr rfl)⟩
        · next owner =>
            exact .inr ⟨sock, found, not_not.mp owner, done⟩

end Registry

/-! ## The efuns -/

/-- The handle whose owner has to make the call. -/
def Efun.owned : Efun → Option Int
  | .create .. | .acquire .. => none
  | .bind handle _ | .listen handle _ | .accept handle _ _ | .connect handle _ _ _
  | .write handle _ _ | .close handle => some handle

/-- The handle whose read or write callback the call can replace. -/
def Efun.replaces : Efun → Option Int
  | .listen handle _ | .connect handle _ _ _ => some handle
  | _ => none

/-- A socket whose owner has used it: the hand-over is where it was. -/
structure SameOwnership (sock sock' : LpcSocket) : Prop where
  handle : sock'.handle = sock.handle
  owner : sock'.owner = sock.owner
  released : sock'.released = sock.released
  releaseTarget : sock'.releaseTarget = sock.releaseTarget

/-- The three callbacks are what they were. -/
structure SameCallbacks (sock sock' : LpcSocket) : Prop where
  read : sock'.readCallback = sock.readCallback
  write : sock'.writeCallback = sock.writeCallback
  close : sock'.closeCallback = sock.closeCallback

/-- What a call can do to the table. -/
inductive Changed (world : World) (caller : Option ObjectId) (efun : Efun) (r : Registry) :
    Registry → Int → Prop
  | nothing (rc : Int) : Changed world caller efun r r rc
  | removed {sock : LpcSocket} (rc : Int) (found : r.find sock.handle = some sock)
      (owner : world.lock sock.owner = caller) :
      Changed world caller efun r (r.forceRemove sock.handle) rc
  | updated {sock sock' : LpcSocket} (rc : Int) (found : r.find sock.handle = some sock)
      (owner : world.lock sock.owner = caller) (same : SameOwnership sock sock')
      (callbacks : SameCallbacks sock sock' ∨ efun.replaces = some sock.handle) :
      Changed world caller efun r (r.update sock') rc
  | entered {sock : LpcSocket} (rc : Int) (new : sock.handle = r.nextHandle)
      (mine : sock.owner = caller) (free : sock.released = false) :
      Changed world caller efun r (r.enter sock) rc
  | accepted {sock sock' : LpcSocket} (rc : Int) (found : r.find sock.handle = some sock)
      (owner : world.lock sock.owner = caller) (new : sock'.handle = r.nextHandle)
      (mine : sock'.owner = caller) (free : sock'.released = false) :
      Changed world caller efun r
        ((r.update { sock with acceptPending := false }).enter sock') rc
  | acquired {sock : LpcSocket} {readCallback writeCallback closeCallback : Value}
      (found : r.find sock.handle = some sock) (released : sock.released = true)
      (target : world.lock sock.releaseTarget = caller)
      (efun_eq : efun = .acquire sock.handle readCallback writeCallback closeCallback) :
      Changed world caller efun r
        (r.update
          { sock with
            released := false
            owner := caller
            releaseTarget := none
            readCallback := readCallback
            writeCallback := writeCallback
            closeCallback := closeCallback })
        SocketErr.success

section Efuns

variable {efun : Efun}

theorem create_changed {mode : Int} {readCallback closeCallback : Value}
    (done : r.create mode readCallback closeCallback caller answers = (r', rc)) :
    Changed world caller efun r r' rc := by
  unfold Registry.create at done
  extract_lets made at done
  have entered : ∀ sm : SocketMode, made sm = (r', rc) →
      Changed world caller efun r r' rc := by
    intro sm done
    unfold made at done
    split at done
    · cases done
      exact .nothing _
    · split at done
      · cases done
        exact .nothing _
      · split at done
        · cases done
          exact .nothing _
        · cases done
          exact .entered _ rfl rfl rfl
  split at done
  · exact entered .mud done
  · split at done
    · exact entered .stream done
    · split at done
      · exact entered .datagram done
      · cases done
        exact .nothing _

variable (keyed : r.Keyed)

include keyed

theorem bind_changed {addr : Option Str}
    (done : r.bind world handle addr caller answers = (r', rc)) :
    Changed world caller efun r r' rc := by
  rcases Registry.asOwner_cases done with ⟨rfl, _⟩ | ⟨sock, found, owner, operated⟩
  · exact .nothing _
  · have same := keyed.of_find found
    subst same
    iterate 2
      split at operated
      · cases operated
        exact .nothing _
    split at operated <;> cases operated
    · exact .nothing _
    · exact .nothing _
    · exact .updated _ found owner ⟨rfl, rfl, rfl, rfl⟩ (.inl ⟨rfl, rfl, rfl⟩)

theorem listen_changed {callback : Value} (replaces : efun.replaces = some handle)
    (done : r.listen world handle callback caller answers = (r', rc)) :
    Changed world caller efun r r' rc := by
  rcases Registry.asOwner_cases done with ⟨rfl, _⟩ | ⟨sock, found, owner, operated⟩
  · exact .nothing _
  · have same := keyed.of_find found
    subst same
    iterate 3
      split at operated
      · cases operated
        exact .nothing _
    split at operated <;> cases operated
    · exact .nothing _
    · exact .updated _ found owner ⟨rfl, rfl, rfl, rfl⟩ (.inr replaces)

theorem accept_changed {readCallback writeCallback : Value}
    (done : r.accept world handle readCallback writeCallback caller answers = (r', rc)) :
    Changed world caller efun r r' rc := by
  rcases Registry.asOwner_cases done with ⟨rfl, _⟩ | ⟨sock, found, owner, operated⟩
  · exact .nothing _
  · have same := keyed.of_find found
    subst same
    have polled : ∀ rc, Changed world caller efun r
        (r.update { sock with acceptPending := false }) rc := fun rc =>
      .updated rc found owner ⟨rfl, rfl, rfl, rfl⟩ (.inl ⟨rfl, rfl, rfl⟩)
    iterate 2
      split at operated
      · cases operated
        exact .nothing _
    simp only at operated
    split at operated <;> cases operated
    · exact polled _
    · exact polled _
    · exact polled _
    · exact .accepted _ found owner rfl rfl rfl

theorem connect_changed {address : Str} {readCallback writeCallback : Value}
    (replaces : efun.replaces = some handle)
    (done : r.connect world handle address readCallback writeCallback caller answers =
      (r', rc)) :
    Changed world caller efun r r' rc := by
  rcases Registry.asOwner_cases done with ⟨rfl, _⟩ | ⟨sock, found, owner, operated⟩
  · exact .nothing _
  · have same := keyed.of_find found
    subst same
    iterate 4
      split at operated
      · cases operated
        exact .nothing _
    simp only at operated
    split at operated <;> cases operated
    · exact .updated _ found owner ⟨rfl, rfl, rfl, rfl⟩ (.inr replaces)
    · exact .updated _ found owner ⟨rfl, rfl, rfl, rfl⟩ (.inr replaces)

theorem write_changed {message : SaveVariable.SaveValue} {address : Option Str}
    (done : r.write world handle message address caller answers = (r', rc)) :
    Changed world caller efun r r' rc := by
  rcases Registry.asOwner_cases done with ⟨rfl, _⟩ | ⟨sock, found, owner, operated⟩
  · exact .nothing _
  · have same := keyed.of_find found
    subst same
    split at operated
    · next text =>
        split at operated
        · split at operated
          · cases operated
            exact .nothing _
          · split at operated
            · cases operated
              exact .nothing _
            · split at operated <;> cases operated <;> exact .nothing _
        · iterate 4
            split at operated
            · cases operated
              exact .nothing _
          split at operated
          · cases operated
            exact .nothing _
          · cases operated
            exact .nothing _
          · cases operated
            exact .removed _ found owner
          · cases operated
            exact .removed _ found owner
          · split at operated <;> cases operated
            · exact .updated _ found owner ⟨rfl, rfl, rfl, rfl⟩ (.inl ⟨rfl, rfl, rfl⟩)
            · exact .nothing _
    · cases operated
      exact .nothing _

theorem socketWrite_changed {message : SaveVariable.SaveValue} {address : Option Str}
    (done : socketWrite r world handle message address caller answers = (r', rc)) :
    Changed world caller efun r r' rc := by
  unfold socketWrite at done
  split at done
  · exact write_changed keyed done
  · split at done
    · split at done
      · cases done
        exact .nothing _
      · exact write_changed keyed done
    · exact write_changed keyed done

theorem close_changed (done : r.close world handle caller = (r', rc)) :
    Changed world caller efun r r' rc := by
  rcases Registry.asOwner_cases done with ⟨rfl, _⟩ | ⟨sock, found, owner, operated⟩
  · exact .nothing _
  · have same := keyed.of_find found
    subst same
    cases operated
    exact .removed _ found owner

theorem acquire_changed {readCallback writeCallback closeCallback : Value}
    (done : r.acquire world handle readCallback writeCallback closeCallback caller =
      (r', rc)) :
    Changed world caller (.acquire handle readCallback writeCallback closeCallback) r r'
      rc := by
  rw [Registry.acquire] at done
  split at done
  · cases done
    exact .nothing _
  · next sock found =>
      have same := keyed.of_find found
      subst same
      split at done
      · cases done
        exact .nothing _
      · split at done
        · cases done
          exact .nothing _
        · next released =>
            split at done
            · cases done
              exact .nothing _
            · next target =>
                cases done
                exact .acquired found (by simpa using released) (not_not.mp target) rfl

/-- What an efun does to the table. -/
theorem call_changed (done : call r world caller answers efun = (r', rc)) :
    Changed world caller efun r r' rc := by
  cases efun with
  | create mode readCallback closeCallback => exact create_changed done
  | bind handle addr => exact bind_changed keyed done
  | listen handle callback => exact listen_changed keyed rfl done
  | accept handle readCallback writeCallback => exact accept_changed keyed done
  | connect handle address readCallback writeCallback =>
      exact connect_changed keyed rfl done
  | write handle message address => exact socketWrite_changed keyed done
  | close handle => exact close_changed keyed done
  | acquire handle readCallback writeCallback closeCallback =>
      exact acquire_changed keyed done

end Efuns

/-! ## What follows for one socket -/

/-- What a call can make of a socket that is in the table. -/
inductive Follows (world : World) (caller : Option ObjectId) (efun : Efun) (rc : Int)
    (sock : LpcSocket) : LpcSocket → Prop
  | kept {sock' : LpcSocket} (same : SameOwnership sock sock')
      (callbacks : SameCallbacks sock sock' ∨
        (efun.replaces = some sock.handle ∧ world.lock sock.owner = caller)) :
      Follows world caller efun rc sock sock'
  | acquired {sock' : LpcSocket} {readCallback writeCallback closeCallback : Value}
      (released : sock.released = true) (target : world.lock sock.releaseTarget = caller)
      (efun_eq : efun = .acquire sock.handle readCallback writeCallback closeCallback)
      (success : rc = SocketErr.success) (taken : sock'.released = false)
      (mine : sock'.owner = caller) :
      Follows world caller efun rc sock sock'

theorem Follows.refl (world : World) (caller : Option ObjectId) (efun : Efun) (rc : Int)
    (sock : LpcSocket) : Follows world caller efun rc sock sock :=
  .kept ⟨rfl, rfl, rfl, rfl⟩ (.inl ⟨rfl, rfl, rfl⟩)

namespace Changed

variable {efun : Efun}

theorem keyed (changed : Changed world caller efun r r' rc) (keyed : r.Keyed) :
    r'.Keyed := by
  cases changed with
  | nothing => exact keyed
  | removed => exact keyed.of_made_eq rfl rfl
  | updated rc found owner same callbacks =>
      rw [← same.handle] at found
      exact keyed.update found
  | entered rc new mine free => exact keyed.enter new
  | accepted rc found owner new mine free =>
      exact Registry.Keyed.enter (Registry.Keyed.update keyed found) new
  | acquired found released target efun_eq =>
      exact Registry.Keyed.update keyed found

theorem nextHandle_le (changed : Changed world caller efun r r' rc) :
    r.nextHandle ≤ r'.nextHandle := by
  cases changed with
  | nothing | removed | updated | acquired => exact Int.le_refl _
  | entered | accepted =>
      simp only [Registry.enter, Registry.update]
      omega

/-- What becomes of a socket that is in the table. -/
theorem find_some {h : Int} (changed : Changed world caller efun r r' rc) (keyed : r.Keyed)
    (found : r.find h = some sock) :
    r'.find h = none ∨
      ∃ sock', r'.find h = some sock' ∧ Follows world caller efun rc sock sock' := by
  have unchanged : r'.find h = r.find h →
      ∃ sock', r'.find h = some sock' ∧ Follows world caller efun rc sock sock' := by
    intro same
    exact ⟨sock, same.trans found, Follows.refl ..⟩
  have old : h ≠ r.nextHandle := by
    rintro rfl
    exact absurd (keyed.lt_next found) (Int.lt_irrefl _)
  cases changed with
  | nothing => exact .inr (unchanged rfl)
  | @removed other rc here owner =>
      by_cases same : h = other.handle
      · rw [same]
        exact .inl Registry.find_forceRemove_self
      · exact .inr (unchanged (Registry.find_forceRemove_of_ne same))
  | @updated other other' rc here owner same callbacks =>
      by_cases at_ : h = other.handle
      · subst at_
        rw [here] at found
        cases found
        have mem := (Registry.find_eq_some.mp here).1
        rw [← same.handle] at mem ⊢
        refine .inr ⟨other', Registry.find_update_self mem, .kept same ?_⟩
        exact callbacks.imp_right fun replaces => ⟨replaces, owner⟩
      · rw [← same.handle] at at_
        exact .inr (unchanged (Registry.find_update_of_ne at_))
  | entered rc new mine free =>
      rw [← new] at old
      exact .inr (unchanged (Registry.find_enter_of_ne old))
  | @accepted other other' rc here owner new mine free =>
      rw [← new] at old
      rw [Registry.find_enter_of_ne old] at unchanged ⊢
      by_cases at_ : h = other.handle
      · subst at_
        rw [here] at found
        cases found
        have mem := (Registry.find_eq_some.mp here).1
        exact .inr ⟨_, Registry.find_update_self mem,
          .kept ⟨rfl, rfl, rfl, rfl⟩ (.inl ⟨rfl, rfl, rfl⟩)⟩
      · exact .inr (unchanged (Registry.find_update_of_ne at_))
  | @acquired other readCallback writeCallback closeCallback here released target efun_eq =>
      by_cases at_ : h = other.handle
      · subst at_
        rw [here] at found
        cases found
        have mem := (Registry.find_eq_some.mp here).1
        exact .inr ⟨_, Registry.find_update_self mem,
          .acquired released target efun_eq rfl rfl rfl⟩
      · exact .inr (unchanged (Registry.find_update_of_ne at_))

/-- What comes into the table is new, and nobody has released it. -/
theorem find_none {h : Int} (changed : Changed world caller efun r r' rc)
    (absent : r.find h = none) :
    r'.find h = none ∨
      ∃ sock', r'.find h = some sock' ∧ h = r.nextHandle ∧ sock'.released = false := by
  have unchanged : r'.find h = r.find h → r'.find h = none := fun same => same.trans absent
  cases changed with
  | nothing => exact .inl absent
  | @removed other rc here owner =>
      by_cases same : h = other.handle
      · rw [same]
        exact .inl Registry.find_forceRemove_self
      · exact .inl (unchanged (Registry.find_forceRemove_of_ne same))
  | @updated other other' rc here owner same callbacks =>
      have differs : h ≠ other'.handle := by
        rw [same.handle]
        rintro rfl
        rw [here] at absent
        cases absent
      exact .inl (unchanged (Registry.find_update_of_ne differs))
  | @entered other rc new mine free =>
      by_cases same : h = other.handle
      · subst same
        exact .inr ⟨other, Registry.find_enter_self, new, free⟩
      · exact .inl (unchanged (Registry.find_enter_of_ne same))
  | @accepted other other' rc here owner new mine free =>
      by_cases same : h = other'.handle
      · subst same
        exact .inr ⟨other', Registry.find_enter_self, new, free⟩
      · have differs : h ≠ other.handle := by
          rintro rfl
          rw [here] at absent
          cases absent
        exact .inl (unchanged ((Registry.find_enter_of_ne same).trans
          (Registry.find_update_of_ne differs)))
  | @acquired other readCallback writeCallback closeCallback here released target efun_eq =>
      have differs : h ≠ other.handle := by
        rintro rfl
        rw [here] at absent
        cases absent
      exact .inl (unchanged (Registry.find_update_of_ne differs))

end Changed

/-- A call that its owner has to make does nothing for anybody else. -/
theorem call_of_not_owner (answers : Answers) {efun : Efun} (owned : efun.owned = some handle)
    (other : ∀ sock, r.find handle = some sock → world.lock sock.owner ≠ caller) :
    ∃ rc, call r world caller answers efun = (r, rc) ∧ rc < 0 ∧ rc ≠ SocketErr.eCallback := by
  have refused : ∀ operate : LpcSocket → Registry × Int,
      ∃ rc, r.asOwner world handle caller operate = (r, rc) ∧ rc < 0 ∧
        rc ≠ SocketErr.eCallback := by
    intro operate
    cases done : r.asOwner world handle caller operate with
    | mk r' rc =>
        rcases Registry.asOwner_cases done with ⟨rfl, rfl | rfl | rfl⟩ |
          ⟨sock, found, owner, _⟩
        · exact ⟨_, rfl, by decide, by decide⟩
        · exact ⟨_, rfl, by decide, by decide⟩
        · exact ⟨_, rfl, by decide, by decide⟩
        · exact absurd owner (other sock found)
  cases efun with
  | create | acquire => cases owned
  | bind | listen | accept | connect | close =>
      cases owned
      exact refused _
  | write handle message address =>
      cases owned
      simp only [call]
      unfold socketWrite
      split
      · exact refused _
      · split
        · split
          · exact ⟨_, rfl, by decide, by decide⟩
          · exact refused _
        · exact refused _

end Kjdmud.Net.Socket
