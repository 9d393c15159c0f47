import Kjdmud.Lib.Bindings
import Kjdmud.Net.Interactive
import Kjdmud.Object.Liveness
import Mathlib.Data.List.Find

/-!
# What connections and the registry agree on

Attaching and closing keep the connections and the registry in agreement, as long as a
connection takes only an object that no other connection has.  Between the destruction of
an object and the end of `destruct` that object alone may still have its connection.
-/

namespace Kjdmud.Net.Interactive

open Kjdmud.Object

namespace State

/-- Bindings and registry agree, whatever is bound is in memory, and is live but for an object
that is being destructed. -/
structure Sound (s : State) (dying : Option ObjectId := none) : Prop where
  agrees : Bindings.Agrees s.boundTo s.registry
  opened : ∀ {c ob}, s.boundTo c = some ob → s.isOpen c = true
  held : ∀ {c ob}, s.boundTo c = some ob → s.world.held ob = true
  live : ∀ {c ob}, s.boundTo c = some ob → dying ≠ some ob → s.world.live ob = true
  known : ∀ {c}, s.next ≤ c → s.connections c = none

variable {s : State} {dying : Option ObjectId} {c : ConnId} {ob : ObjectId}

/-! ## The registry -/

theorem lock_eq (w : World) (id : ObjectId) :
    w.lock (some id) = if w.held id = true then some id else none := by
  rw [World.lock, Option.filter]
  rfl

theorem Sound.lock (sound : s.Sound dying) {e : ObjectId × ConnId} (mem : e ∈ s.registry) :
    s.world.lock (some e.1) = some e.1 := by
  rw [lock_eq, if_pos (sound.held ((sound.agrees.listed e.1 e.2).mp mem))]

theorem Sound.find_eq (sound : s.Sound dying) (ob : ObjectId) :
    s.find ob = Bindings.find s.registry ob := by
  rw [State.find, Bindings.find]
  congr 1
  apply List.find?_congr
  intro e mem
  simp only [sound.lock mem, Option.some.injEq]

theorem Sound.remove_eq (sound : s.Sound dying) (ob : ObjectId) :
    s.remove ob = { s with registry := Bindings.remove s.registry ob } := by
  rw [State.remove, Bindings.remove]
  congr 1
  apply List.filter_congr
  intro e mem
  simp only [sound.lock mem]

theorem Sound.find_iff (sound : s.Sound dying) : s.find ob = some c ↔ s.boundTo c = some ob := by
  rw [sound.find_eq, sound.agrees.find_iff]

/-! ## Connections -/

@[simp] theorem boundTo_setConnection (s : State) (c : ConnId) (conn : Option Connection) :
    (s.setConnection c conn).boundTo =
      Function.update s.boundTo c (conn.bind Connection.boundObject) := by
  funext c'
  by_cases same : c' = c
  · subst same
    simp [boundTo, setConnection]
  · simp [boundTo, setConnection, same]

theorem isOpen_setConnection (s : State) (c c' : ConnId) (conn : Option Connection) :
    (s.setConnection c conn).isOpen c' =
      if c' = c then conn.any Connection.isOpen else s.isOpen c' := by
  by_cases same : c' = c
  · subst same
    simp [isOpen, setConnection]
  · simp [isOpen, setConnection, same]

theorem exists_of_boundTo (here : s.boundTo c = some ob) :
    ∃ conn, s.connections c = some conn ∧ conn.boundObject = some ob :=
  Option.bind_eq_some_iff.mp here

/-! ## Attaching -/

/-- What `attach` does to a connection that exists. -/
theorem Sound.attach_eq (sound : s.Sound dying) {conn : Connection}
    (exist : s.connections c = some conn) (ob : ObjectId) :
    s.attach c ob = { s with
      connections :=
        Function.update s.connections c (some { conn with boundObject := some ob })
      registry :=
        (conn.boundObject.elim s.registry (Bindings.remove s.registry)) ++ [(ob, c)] } := by
  rw [State.attach]
  simp only [exist]
  cases conn.boundObject with
  | none => rfl
  | some old =>
      simp only [sound.remove_eq]
      rfl

/-- One connection changes, in a world with the same live objects. -/
theorem Sound.change (sound : s.Sound dying) {s' : State} (c : ConnId) (new : Option ObjectId)
    (agrees : Bindings.Agrees s'.boundTo s'.registry)
    (bound : s'.boundTo = Function.update s.boundTo c new)
    (opens : ∀ c', c' ≠ c ∨ new.isSome → s.isOpen c' = true → s'.isOpen c' = true)
    (takes : ∀ ob ∈ new, s.isOpen c = true ∧ s.world.live ob = true)
    (nodes : s'.world.nodes = s.world.nodes)
    (known : ∀ c', s'.next ≤ c' → s'.connections c' = none) : s'.Sound dying := by
  have cases {c' : ConnId} {ob : ObjectId} (here : s'.boundTo c' = some ob) :
      (c' ≠ c ∧ s.boundTo c' = some ob) ∨ (c' = c ∧ new = some ob) := by
    rw [bound] at here
    by_cases same : c' = c
    · rw [same, Function.update_self] at here
      exact .inr ⟨same, here⟩
    · rw [Function.update_of_ne same] at here
      exact .inl ⟨same, here⟩
  constructor
  · exact agrees
  · intro c' ob here
    rcases cases here with ⟨other, old⟩ | ⟨rfl, fresh⟩
    · exact opens c' (.inl other) (sound.opened old)
    · exact opens c' (.inr (by rw [fresh]; rfl)) (takes ob fresh).1
  · intro c' ob here
    rw [held_congr nodes]
    rcases cases here with ⟨_, old⟩ | ⟨_, fresh⟩
    · exact sound.held old
    · exact held_of_live (takes ob fresh).2
  · intro c' ob here alive
    rw [live_congr nodes]
    rcases cases here with ⟨_, old⟩ | ⟨_, fresh⟩
    · exact sound.live old alive
    · exact (takes ob fresh).2
  · intro c' beyond
    exact known c' beyond

theorem Sound.lt_next (sound : s.Sound dying) {conn : Connection}
    (exist : s.connections c = some conn) : c < s.next := by
  by_contra beyond
  rw [sound.known (Nat.le_of_not_lt beyond)] at exist
  cases exist

theorem Sound.known_update (sound : s.Sound dying) (inside : c < s.next)
    (conn : Option Connection) {c' : ConnId} (beyond : s.next ≤ c') :
    Function.update s.connections c conn c' = none := by
  rw [Function.update_of_ne (Nat.ne_of_gt (Nat.lt_of_lt_of_le inside beyond))]
  exact sound.known beyond

theorem boundTo_attach {conn : Connection} (exist : s.connections c = some conn) (ob : ObjectId) :
    (s.attach c ob).boundTo = Function.update s.boundTo c (some ob) := by
  rw [attach]
  simp only [exist]
  cases conn.boundObject <;> exact boundTo_setConnection _ c _

/-- A connection that is open takes an object that it may take. -/
theorem Sound.attach (sound : s.Sound dying) (open_ : s.isOpen c = true) (takes : s.Takes c ob)
    (held : s.world.held ob = true) : (s.attach c ob).Sound dying := by
  rcases (Option.any_eq_true _ _).mp open_ with ⟨conn, exist, connOpen⟩
  have inside := sound.lt_next exist
  have old : s.boundTo c = conn.boundObject := by rw [boundTo, exist, Option.bind_some]
  rw [sound.attach_eq exist]
  have bound := boundTo_setConnection s c (some { conn with boundObject := some ob })
  apply sound.change c (some ob)
  · change Bindings.Agrees (State.boundTo (s.setConnection c _)) _
    rw [bound]
    cases here : conn.boundObject with
    | none =>
        rw [here] at old
        apply sound.agrees.bind old
        intro c' there
        by_cases same : c' = c
        · rw [same, old] at there
          cases there
        · exact takes.2 c' same there
    | some before =>
        rw [here] at old
        exact sound.agrees.rebind old takes.2
  · exact bound
  · intro c' _ opened
    change State.isOpen (s.setConnection c _) c' = true
    rw [isOpen_setConnection]
    by_cases same : c' = c
    · rw [if_pos same]
      exact connOpen
    · rw [if_neg same]
      exact opened
  · rintro _ ⟨⟩
    exact ⟨open_, live_of_held held takes.1⟩
  · rfl
  · exact fun c' beyond => sound.known_update inside _ beyond

/-! ## Closing -/

theorem nodes_closeLinks (w : World) (ob : ObjectId) : (closeLinks w ob).nodes = w.nodes := by
  rw [closeLinks, nodes_modify_other, nodes_modifyLinked_other]
  all_goals
    intro o
    rfl

/-- The same bindings in a world with the same live objects. -/
theorem Sound.congr (sound : s.Sound dying) {w : World} (nodes : w.nodes = s.world.nodes) :
    Sound { s with world := w } dying where
  agrees := sound.agrees
  opened := sound.opened
  held here := (held_congr nodes _).trans (sound.held here)
  live here alive := (live_congr nodes).trans (sound.live here alive)
  known := sound.known

/-- What `close` does to a connection that exists. -/
theorem Sound.close_eq (sound : s.Sound dying) {conn : Connection}
    (exist : s.connections c = some conn) :
    s.close c = { s with
      world := conn.boundObject.elim s.world (closeLinks s.world)
      connections := Function.update s.connections c
        (some { boundObject := none, isOpen := false, closed := true })
      registry := conn.boundObject.elim s.registry (Bindings.remove s.registry) } := by
  rw [State.close]
  simp only [exist]
  cases conn.boundObject with
  | none => rfl
  | some old =>
      have same := sound.congr (nodes_closeLinks s.world old)
      simp only [same.remove_eq]
      rfl

theorem boundTo_close (s : State) (c : ConnId) :
    (s.close c).boundTo = Function.update s.boundTo c none := by
  rw [State.close]
  cases exist : s.connections c with
  | none =>
      have unbound : s.boundTo c = none := by rw [boundTo, exist, Option.bind_none]
      rw [← unbound, Function.update_eq_self]
  | some conn =>
      dsimp only
      rw [boundTo_setConnection]
      cases conn.boundObject <;> rfl

theorem Sound.close (sound : s.Sound dying) (c : ConnId) : (s.close c).Sound dying := by
  cases exist : s.connections c with
  | none =>
      rw [State.close, exist]
      exact sound
  | some conn =>
      have inside := sound.lt_next exist
      have old : s.boundTo c = conn.boundObject := by rw [boundTo, exist, Option.bind_some]
      have bound := boundTo_close s c
      have equal := sound.close_eq exist
      apply sound.change c none
      · rw [bound, equal]
        cases here : conn.boundObject with
        | none =>
            rw [here] at old
            have same : Function.update s.boundTo c none = s.boundTo := by
              rw [← old, Function.update_eq_self]
            rw [same]
            exact sound.agrees
        | some before =>
            rw [here] at old
            exact sound.agrees.unbind old
      · exact bound
      · rintro c' (other | never) opened
        · rw [equal]
          change State.isOpen (s.setConnection c _) c' = true
          rw [isOpen_setConnection, if_neg other]
          exact opened
        · cases never
      · rintro _ ⟨⟩
      · rw [equal]
        cases conn.boundObject with
        | none => rfl
        | some before => exact nodes_closeLinks s.world before
      · rw [equal]
        exact fun c' beyond => sound.known_update inside _ beyond

theorem Sound.destroy (sound : s.Sound dying) (c : ConnId) : (s.destroy c).Sound dying := by
  have closed := sound.close c
  have unbound : (s.close c).boundTo c = none := by rw [boundTo_close, Function.update_self]
  have bound : (s.destroy c).boundTo = (s.close c).boundTo := by
    rw [State.destroy, boundTo_setConnection, Option.bind_none, ← unbound,
      Function.update_eq_self]
  constructor
  · rw [bound]
    exact closed.agrees
  · intro c' ob here
    rw [bound] at here
    rw [State.destroy, isOpen_setConnection, if_neg]
    · exact closed.opened here
    · rintro rfl
      rw [unbound] at here
      cases here
  · intro c' ob here
    rw [bound] at here
    exact closed.held here
  · intro c' ob here
    rw [bound] at here
    exact closed.live here
  · intro c' beyond
    have before := closed.known beyond
    change Function.update (s.close c).connections c none c' = none
    by_cases same : c' = c
    · rw [same, Function.update_self]
    · rw [Function.update_of_ne same]
      exact before

theorem Sound.sweep (sound : s.Sound dying) : s.sweep.Sound dying := by
  rw [State.sweep]
  induction List.range s.next generalizing s with
  | nil => exact sound
  | cons c rest ih =>
      rw [List.foldl_cons]
      apply ih
      rw [sweepOne]
      by_cases closed : (s.connections c).any Connection.closed = true
      · rw [if_pos closed]
        exact sound.destroy c
      · rw [if_neg closed]
        exact sound

/-! ## Destruction -/

/-- An object is destructed; it may still have its connection. -/
theorem Sound.retire (sound : s.Sound) (obj : ObjectId) :
    Sound { s with world := retire s.world obj } (some obj) where
  agrees := sound.agrees
  opened := sound.opened
  held here := (held_retire _ _ _).trans (sound.held here)
  live {c ob} here alive := by
    have other : ob ≠ obj := fun same => alive (congrArg some same.symm)
    have before := sound.live here nofun
    rw [live_retire, before, Bool.true_and, Bool.not_eq_true', beq_eq_false_iff_ne]
    exact other
  known := sound.known

/-- The object that was destructed has no connection any more. -/
theorem Sound.settled {obj : ObjectId} (sound : s.Sound (some obj))
    (free : ∀ c, s.boundTo c ≠ some obj) : s.Sound where
  agrees := sound.agrees
  opened := sound.opened
  held := sound.held
  live {c ob} here _ := by
    apply sound.live here
    rintro ⟨⟩
    exact free c here
  known := sound.known

theorem Sound.withStack (sound : s.Sound dying) (stack : List Frame) :
    Sound { s with stack := stack } dying :=
  ⟨sound.agrees, sound.opened, sound.held, sound.live, sound.known⟩

theorem Sound.closeOf (sound : s.Sound dying) (ob : ObjectId) : (s.closeOf ob).Sound dying := by
  rw [State.closeOf]
  cases s.find ob with
  | none => exact sound
  | some c => exact sound.close c

/-- No connection is left to an object whose connection is closed. -/
theorem Sound.closeOf_free (sound : s.Sound dying) (ob : ObjectId) (c : ConnId) :
    (s.closeOf ob).boundTo c ≠ some ob := by
  intro here
  rw [State.closeOf] at here
  cases found : s.find ob with
  | none =>
      rw [found] at here
      rw [sound.find_iff.mpr here] at found
      cases found
  | some c' =>
      rw [found] at here
      dsimp only at here
      rw [boundTo_close] at here
      by_cases same : c = c'
      · rw [same, Function.update_self] at here
        cases here
      · rw [Function.update_of_ne same] at here
        exact same (sound.agrees.alone here (sound.find_iff.mp found))

/-- The calls of `destruct` that end. -/
theorem Sound.settle (sound : s.Sound) (stack : List Frame) : (s.settle stack).Sound := by
  induction stack generalizing s with
  | nil => exact sound.withStack []
  | cons frame stack ih =>
      cases frame with
      | closes ob => exact ih (sound.closeOf ob)
      | _ => exact sound.withStack _

/-- The end of a destruction, where the object has no connection, or it is closed. -/
theorem Sound.retired (sound : s.Sound) (obj : ObjectId) (spared : s.Spared obj) :
    (s.retired obj).Sound := by
  have retired := sound.retire obj
  by_cases free : ∀ c, s.boundTo c ≠ some obj
  · exact (retired.settled free).settle s.stack
  · rcases not_forall.mp free with ⟨c, bound⟩
    have head := spared c (not_not.mp bound)
    cases here : s.stack with
    | nil =>
        rw [here] at head
        cases head
    | cons frame stack =>
        rw [here] at head
        cases head
        have closes : s.retired obj =
            (State.closeOf { s with world := Object.retire s.world obj } obj).settle stack :=
          congrArg (State.settle { s with world := Object.retire s.world obj }) here
        rw [closes]
        exact ((retired.closeOf obj).settled (retired.closeOf_free obj)).settle stack

theorem Sound.destruct (sound : s.Sound) {obj : ObjectId} {notify : Bool} {fuel : Nat}
    {s' : State} (spares : s.Spares obj notify) (done : s.destruct obj notify fuel = some s') :
    s'.Sound := by
  have unlinked := sound.congr (nodes_unlinkShadow s.world obj)
  cases destructs_stops done with
  | done _ => exact sound.settle s.stack
  | cascade top => exact sound.withStack _
  | calls => exact unlinked.withStack _
  | ends alive plain silent => exact unlinked.retired obj (spares alive plain silent)

/-- The turn of a cascade. -/
theorem Sound.descends (sound : s.Sound) (top : ObjectId) (stack : List Frame) :
    (s.descends top stack).Sound :=
  (sound.congr (nodes_cutBelow s.world top)).withStack _

/-! ## The world -/

/-- An operation that keeps what is live. -/
theorem Sound.withWorld (sound : s.Sound) {w : World}
    (keeps : ∀ {c ob}, s.boundTo c = some ob → s.world.live ob = true → w.live ob = true) :
    (s.withWorld w).Sound where
  agrees := sound.agrees
  opened := sound.opened
  held here := held_of_live (keeps here (sound.live here nofun))
  live here _ := keeps here (sound.live here nofun)
  known := sound.known

theorem Sound.expel (sound : s.Sound) {cur : ObjectId}
    (free : s.world.isDestructed cur = false → ∀ c, s.boundTo c ≠ some cur) :
    (s.expel cur).Sound := by
  rw [State.expel]
  by_cases destructed : s.world.isDestructed cur = true
  · rw [if_pos destructed]
    exact sound
  · rw [if_neg destructed]
    have same : (unlinkShadow (clearShadow s.world cur) cur).nodes = s.world.nodes := by
      rw [nodes_unlinkShadow, clearShadow, nodes_modify_other]
      intro o
      rfl
    have unlinked := sound.congr same
    exact (unlinked.retire cur).settled (free (Bool.eq_false_iff.mpr destructed))

theorem Sound.free_of_bound (sound : s.Sound) {obj : ObjectId} (unbound : ¬ s.bound obj = true)
    (c : ConnId) : s.boundTo c ≠ some obj := by
  intro here
  rcases exists_of_boundTo here with ⟨conn, exist, -⟩
  apply unbound
  rw [State.bound, List.any_eq_true]
  exact ⟨c, List.mem_range.mpr (sound.lt_next exist), decide_eq_true here⟩

end State

end Kjdmud.Net.Interactive
