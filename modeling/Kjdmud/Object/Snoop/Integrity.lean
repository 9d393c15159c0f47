import Kjdmud.Object.Containment.Runs
import Kjdmud.Object.Snoop.Sound

/-!
# Snoops over whole runs

In every run in which no object is destructed while somebody snoops it, unless its connection is
closed with it, the links of snoops fit together, and the walk against loops ends.
-/

namespace Kjdmud.Object.Snoop

open Relation
open Kjdmud.Fuel (Converges)

/-! ## The walk against loops -/

section Walk

variable {p : Peers} {bound : ObjectId}

theorem wellFounded_up (sound : p.Sound bound) :
    WellFounded fun b a => p.chains.up a = some b := by
  have backwards : (fun b a => p.chains.up a = some b) = fun b a => p.chains.Above b a := by
    funext b a
    exact propext (sound.chains.mutual_ b a).symm
  rw [backwards]
  apply sound.chains.acyclic.wellFounded (s := { a | a < bound }) (Set.finite_lt_nat _)
  intro b a link
  have known {x : ObjectId} (live : p.live x = true) : x < bound :=
    sound.known_of_held (Peers.held_of_live live) x rfl
  exact ⟨known (Peers.live_of_down link),
    known (Peers.live_of_up ((sound.chains.mutual_ b a).mp link))⟩

/-- Following the snoopers of an object in memory ends. -/
theorem exists_path_up (sound : p.Sound bound) {a : ObjectId} (held : p.held a = true) :
    ∃ l, Chains.Path p.chains.up a l ∧ Chains.Path (p.link · Peer.snoopedBy) a l := by
  rcases Chains.exists_path (wellFounded_up sound) a with ⟨l, path⟩
  refine ⟨l, path, path.congr ?_⟩
  intro b mem
  have there : p.held b = true := by
    rcases ReflTransGen.cases_tail (path.reached mem) with rfl | ⟨c, _, link⟩
    · exact held
    · exact Peers.held_of_live (Peers.live_of_down ((sound.chains.mutual_ b c).mpr link))
  exact (sound.up_eq there).symm

theorem climbs_eq_search (w : World) (victim : ObjectId) (fuel : Nat) (tmp : ObjectId) :
    climbs w victim fuel tmp =
      (Chains.search (w.link · LpcObject.snoopedBy)
        (fun x => if x = victim then some () else none) fuel tmp).map Option.isSome := by
  induction fuel generalizing tmp with
  | zero => rfl
  | succ fuel ih =>
      rw [climbs, Chains.search]
      by_cases here : tmp = victim
      · rw [if_pos here, if_pos here]
        rfl
      · rw [if_neg here, if_neg here]
        cases w.link tmp LpcObject.snoopedBy with
        | none => rfl
        | some next => exact ih next

/-- The walk ends, and where it does not find the victim, nothing that the victim snoops is the
one that wants to snoop it. -/
theorem climbs_converges {w : World} (sound : w.peers.Sound bound) {by_ : ObjectId}
    (held : w.held by_ = true) (victim : ObjectId) :
    ∃ loop, Converges (fun fuel => climbs w victim fuel by_) loop ∧
      (loop = false → ¬ ReflTransGen w.peers.chains.Above victim by_) := by
  rcases exists_path_up sound ((held_peers w by_).trans held) with ⟨l, path, walk⟩
  have links : (w.link · LpcObject.snoopedBy) = (w.peers.link · Peer.snoopedBy) := by
    funext a
    exact snoopedBy_peers w a
  refine ⟨(l.findSome? fun x => (if x = victim then some () else none).map (x, ·)).isSome,
    ?_, ?_⟩
  · have found := (walk.search (fun x => if x = victim then some () else none)).map Option.isSome
    apply found.congr
    intro fuel
    rw [climbs_eq_search, links]
  · intro missed below
    have reached : ReflTransGen (fun a b => w.peers.chains.up a = some b) by_ victim := by
      apply ReflTransGen.mono _ _ _ (reflTransGen_swap.mpr below)
      intro a b link
      exact (sound.chains.mutual_ b a).mp link
    have mem := path.mem_of_reached reached
    have found : (l.findSome? fun x =>
        (if x = victim then some () else none).map (x, ·)).isSome = true := by
      rw [List.findSome?_isSome_iff]
      refine ⟨victim, mem, ?_⟩
      rw [if_pos rfl]
      rfl
    rw [missed] at found
    cases found

end Walk

/-! ## Steps -/

/-- The links are sound, and an object with a connection is in memory. -/
structure Sound (s : State) : Prop where
  peers : s.world.peers.Sound s.world.next
  connected : ∀ ob, s.interactive ob = true → s.world.held ob = true

section Step

variable {s s' : State} {w : World} {by_ obj ob : ObjectId}

/-- An operation that leaves the memory and the connections alone. -/
theorem Sound.with_world (sound : Sound s) (stack : List Frame)
    (peers : w.peers.Sound w.next) (held : ∀ a, w.peers.held a = s.world.peers.held a) :
    Sound ⟨w, s.interactive, stack⟩ where
  peers := peers
  connected ob interactive := by
    have there := sound.connected ob interactive
    rw [← held_peers, held, held_peers]
    exact there

/-- An operation on other members of objects. -/
theorem Sound.with_other (sound : Sound s) (stack : List Frame)
    (peers : w.peers = s.world.peers) (next : w.next = s.world.next) :
    Sound ⟨w, s.interactive, stack⟩ := by
  apply sound.with_world stack
  · rw [peers, next]
    exact sound.peers
  · intro a
    rw [peers]

/-- A connection that is there after another is closed. -/
theorem interactive_of_update {interactive : ObjectId → Bool} {a : ObjectId}
    (after : Function.update interactive ob false a = true) : interactive a = true := by
  by_cases same : a = ob
  · rw [same, Function.update_self] at after
    cases after
  · rw [Function.update_of_ne same] at after
    exact after

theorem Sound.close (sound : Sound s) (held : s.world.held ob = true) : Sound (s.close ob) where
  peers := by
    have closed : (s.close ob).world.peers = s.world.peers.close ob := peers_closeLinks s.world ob
    have next : (s.close ob).world.next = s.world.next := next_modifyLinked _ _ _
    rw [closed, next]
    exact sound.peers.close ((held_peers _ _).trans held)
  connected a interactive := by
    have before : s.interactive a = true := interactive_of_update interactive
    have closed : (s.close ob).world.peers = s.world.peers.close ob := peers_closeLinks s.world ob
    have there := (Peers.relinked_close ((held_peers _ _).trans held)).held a
    rw [← held_peers, closed, there, held_peers]
    exact sound.connected a before

/-- The calls of `destruct` that end. -/
theorem settle_sound {world : World} {interactive : ObjectId → Bool} {stack : List Frame}
    (sound : Sound ⟨world, interactive, stack⟩) :
    Sound (State.settle world interactive stack) := by
  induction stack generalizing world interactive with
  | nil => exact sound
  | cons frame stack ih =>
      cases frame with
      | closes ob =>
          rw [State.settle]
          by_cases connected : interactive ob = true
          · rw [if_pos connected]
            have held := sound.connected ob connected
            have closed := sound.close held
            exact ih ⟨closed.peers, closed.connected⟩
          · rw [if_neg connected]
            exact ih ⟨sound.peers, sound.connected⟩
      | validSnoop by_ victim => exact sound
      | onDestruct obj => exact sound
      | cascade top => exact sound

theorem next_closeLinks (w : World) (ob : ObjectId) : (closeLinks w ob).next = w.next :=
  next_modifyLinked _ _ _

/-- The end of a destruction, where nobody snoops the object, or its connection is closed. -/
theorem Sound.retired (sound : Sound s) (held : s.world.held obj = true)
    (spared : s.world.isDestructed obj = false → ¬ s.Watched obj) : Sound (s.retired obj) := by
  have held' := (held_peers s.world obj).trans held
  have next := next_retire s.world obj
  by_cases watched : s.Watched obj
  · have destructed : s.world.isDestructed obj = true := by
      by_contra alive
      exact spared (Bool.eq_false_iff.mpr alive) watched
    have alone := (sound.peers.cleared obj held' ((gone_peers _ _).trans destructed)).2
    rw [← snoopedBy_peers] at alone
    rw [State.Watched, alone] at watched
    cases watched.1
  · by_cases alone : s.world.link obj LpcObject.snoopedBy = none
    · rw [snoopedBy_peers] at alone
      have retired := sound.peers.retire held' alone
      apply settle_sound
      apply sound.with_world
      · rw [peers_retire, next]
        exact retired.sound sound.peers sound.peers.bounded_retire
      · intro a
        rw [peers_retire]
        exact retired.held a
    · have closes : s.stack.head? = some (.closes obj) ∧ s.interactive obj = true := by
        by_contra other
        exact watched ⟨Option.isSome_iff_ne_none.mpr alone, other⟩
      rcases closes with ⟨head, connected⟩
      cases here : s.stack with
      | nil =>
          rw [here] at head
          cases head
      | cons frame stack =>
          rw [here] at head
          cases head
          have retired := sound.peers.retire_close held'
          rw [State.retired, here, State.settle, if_pos connected]
          apply settle_sound
          constructor
          · rw [peers_closeLinks, peers_retire, next_closeLinks, next]
            apply retired.sound sound.peers
            exact Peers.bounded_change _ (Peers.bounded_change _ sound.peers.bounded_retire
              (Peers.known_setSnooping Peers.known_none))
                (Peers.known_setSnoopedBy Peers.known_none)
          · intro a interactive
            have before : s.interactive a = true := interactive_of_update interactive
            rw [← held_peers, peers_closeLinks, peers_retire, retired.held, held_peers]
            exact sound.connected a before

theorem next_unlinkShadow (w : World) (obj : ObjectId) : (unlinkShadow w obj).next = w.next :=
  (next_modifyLinked _ _ _).trans (next_modifyLinked _ _ _)

theorem next_removeShadow (w : World) (ob : ObjectId) : (removeShadow w ob).next = w.next := by
  unfold removeShadow
  by_cases alone : ((w.link ob LpcObject.shadowedBy).isNone &&
      (w.link ob LpcObject.shadowing).isNone) = true
  · simp only [if_pos alone]
  · simp only [if_neg alone]
    exact (next_modifyLinked _ _ _).trans (next_modifyLinked _ _ _)

theorem next_moveObject (w : World) (item dest : ObjectId) :
    (moveObject w item dest).next = w.next := by
  unfold moveObject
  by_cases refused : (decide (item = dest) || (w.objects item).all LpcObject.destructed ||
      (w.objects dest).all LpcObject.destructed) = true
  · simp only [if_pos refused]
  · simp only [if_neg refused]
    exact next_modifyLinked _ _ _

theorem Sound.destruct {notify : Bool} {fuel : Nat} (sound : Sound s)
    (held : s.world.held obj = true) (spared : s.Spares obj notify)
    (done : s.destruct obj notify fuel = some s') : Sound s' := by
  have unlinked : ∀ stack, Sound ⟨unlinkShadow s.world obj, s.interactive, stack⟩ :=
    fun stack => sound.with_other stack (peers_unlinkShadow _ _) (next_unlinkShadow _ _)
  cases destructs_stops done with
  | done _ => exact settle_sound sound
  | cascade top => exact ⟨sound.peers, sound.connected⟩
  | calls => exact unlinked _
  | ends alive plain silent =>
      apply (unlinked s.stack).retired
      · rw [← held_peers, peers_unlinkShadow, held_peers]
        exact held
      · intro _ watched
        apply spared alive plain silent
        rw [State.Watched, snoopedBy_peers]
        rw [State.Watched, snoopedBy_peers, peers_unlinkShadow] at watched
        exact watched

theorem live_of (held : w.held ob = true) (alive : ¬ w.isDestructed ob = true) :
    w.peers.live ob = true := by
  rw [live_peers, World.live, held, Bool.eq_false_iff.mpr alive]
  rfl

/-- The efun `snoop`, behind the answer of the master. -/
theorem Sound.snoop (sound : Sound s) {ldmud : Bool} {fuel : Nat} {victim : Option ObjectId}
    {result : World × Answer} (stack : List Frame) (held : s.world.held by_ = true)
    (held' : ∀ v ∈ victim, s.world.held v = true)
    (done : Object.snoop ldmud s.interactive fuel s.world by_ victim = some result) :
    Sound ⟨result.1, s.interactive, stack⟩ := by
  have same : Sound ⟨s.world, s.interactive, stack⟩ := ⟨sound.peers, sound.connected⟩
  cases victim with
  | none =>
      simp only [Object.snoop] at done
      by_cases destructed : s.world.isDestructed by_ = true
      · rw [if_pos destructed] at done
        cases done
        exact same
      · rw [if_neg destructed] at done
        cases done
        have live := live_of held destructed
        apply sound.with_world
        · rw [peers_stopSnoop]
          have next : (stopSnoop s.world by_).next = s.world.next := next_modifyLinked _ _ _
          rw [next]
          exact sound.peers.stop live
        · rw [peers_stopSnoop]
          exact (Peers.relinked_stop (Peers.held_of_live live)).held
  | some victim =>
      simp only [Object.snoop] at done
      by_cases destructed : (s.world.isDestructed by_ || s.world.isDestructed victim) = true
      · rw [if_pos destructed] at done
        cases done
        exact same
      · rw [if_neg destructed] at done
        by_cases connected : (!s.interactive victim) = true
        · rw [if_pos connected] at done
          cases done
          exact same
        · rw [if_neg connected] at done
          rcases Option.map_eq_some_iff.mp done with ⟨loop, walked, rfl⟩
          cases loop with
          | true => exact same
          | false =>
              have alive : ¬ s.world.isDestructed by_ = true := fun gone =>
                destructed (Bool.or_eq_true_iff.mpr (.inl gone))
              have alive' : ¬ s.world.isDestructed victim = true := fun gone =>
                destructed (Bool.or_eq_true_iff.mpr (.inr gone))
              have live := live_of held alive
              have live' := live_of (held' victim rfl) alive'
              rcases climbs_converges sound.peers held victim with ⟨loop, converges, apart⟩
              have missed := converges.only fuel false walked
              apply sound.with_world
              · have started : (startSnoop s.world by_ victim).peers =
                    s.world.peers.start by_ victim := peers_startSnoop _ _ _
                have next : (startSnoop s.world by_ victim).next = s.world.next :=
                  (next_modifyLinked _ _ _).trans (next_modifyLinked _ _ _)
                rw [if_neg Bool.false_ne_true, started, next]
                exact sound.peers.start live live' (apart missed.symm)
              · intro a
                rw [if_neg Bool.false_ne_true, peers_startSnoop]
                exact (Peers.relinked_start (Peers.held_of_live live)
                  (Peers.held_of_live live')).held a

theorem held_of_holds (holds : s.holds ob = true) : s.world.held ob = true :=
  (Bool.and_eq_true_iff.mp holds).2

theorem held_of_all {victim : Option ObjectId} {known : ObjectId → Bool}
    (all : victim.all known = true) : ∀ v ∈ victim, known v = true := by
  rintro v rfl
  exact all

/-- The turn of a cascade. -/
theorem Sound.descends (sound : Sound s) (top : ObjectId) (stack : List Frame) :
    Sound (s.descends top stack) :=
  sound.with_other _ (peers_cutBelow _ _) (next_modifyLinked _ _ _)

theorem Sound.run {op : Op} {result : State × Option Answer} (sound : Sound s)
    (clear : s.Clear op) (done : s.run op = some result) : Sound result.1 := by
  cases op with
  | snoop ldmud by_ victim fuel =>
      obtain ⟨holds, done⟩ := Option.ite_none_right_eq_some.mp done
      rcases Bool.and_eq_true_iff.mp holds with ⟨holds, all⟩
      have helds : ∀ v ∈ victim, s.world.held v = true :=
        fun v member => held_of_holds (held_of_all all v member)
      split at done
      · rcases Option.map_eq_some_iff.mp done with ⟨answer, snooped, rfl⟩
        exact sound.snoop s.stack (held_of_holds holds) helds snooped
      · split at done
        · cases done
          exact sound
        · cases done
          exact ⟨sound.peers, sound.connected⟩
  | validSnoopReturns approved fuel =>
      simp only [State.run] at done
      split at done
      · rename_i by_ victim stack here
        split at done
        · rename_i helds
          rcases Bool.and_eq_true_iff.mp helds with ⟨held, all⟩
          split at done
          · rcases Option.map_eq_some_iff.mp done with ⟨answer, snooped, rfl⟩
            exact sound.snoop stack held (held_of_all all) snooped
          · cases done
            exact ⟨sound.peers, sound.connected⟩
          · cases done
            exact ⟨sound.peers, sound.connected⟩
        · cases done
      · cases done
  | destruct obj notify fuel =>
      obtain ⟨holds, done⟩ := Option.ite_none_right_eq_some.mp done
      rcases Option.map_eq_some_iff.mp done with ⟨s', destructs, rfl⟩
      have calling : Sound (s.calling obj) := ⟨sound.peers, sound.connected⟩
      have held : s.world.held obj = true := held_of_holds holds
      exact calling.destruct held clear destructs
  | onDestructReturns =>
      simp only [State.run] at done
      split at done
      · rename_i obj stack here
        split at done
        · rename_i held
          cases done
          have popped : Sound { s with stack := stack } := ⟨sound.peers, sound.connected⟩
          exact popped.retired held (clear obj stack here)
        · cases done
      · cases done
  | cascade notify fuel =>
      simp only [State.run] at done
      split at done
      · rename_i top stack here
        split at done
        · rename_i held
          rcases Option.map_eq_some_iff.mp done with ⟨s', destructs, rfl⟩
          have kept : (s.descends top stack).world.held top = true := by
            rw [← held_peers, State.descends, peers_cutBelow, held_peers]
            exact held
          exact (sound.descends top stack).destruct kept (clear top stack here) destructs
        · cases done
      · cases done
  | expel cur =>
      obtain ⟨holds, done⟩ := Option.ite_none_right_eq_some.mp done
      split at done
      · cases done
        exact sound
      · rename_i alive
        cases done
        have held := (held_peers s.world cur).trans (held_of_holds holds)
        have alone := clear (Bool.eq_false_iff.mpr alive)
        rw [snoopedBy_peers] at alone
        have before : (unlinkShadow (clearShadow s.world cur) cur).peers = s.world.peers :=
          (peers_unlinkShadow _ _).trans (peers_clearShadow _ _)
        have next : (unlinkShadow (clearShadow s.world cur) cur).next = s.world.next :=
          next_unlinkShadow _ _
        have retired := sound.peers.retire held alone
        apply sound.with_world s.stack
        · rw [peers_retire, next_retire, before, next]
          exact retired.sound sound.peers sound.peers.bounded_retire
        · rw [peers_retire, before]
          exact retired.held
  | attach old new =>
      obtain ⟨holds, ⟨⟩⟩ := Option.ite_none_right_eq_some.mp done
      constructor
      · exact sound.peers
      · intro ob interactive
        rcases Bool.or_eq_true_iff.mp interactive with taken | before
        · rw [of_decide_eq_true taken]
          exact held_of_holds holds
        · exact sound.connected ob (Bool.and_eq_true_iff.mp before).1
  | close ob =>
      obtain ⟨holds, ⟨⟩⟩ := Option.ite_none_right_eq_some.mp done
      exact sound.close (held_of_holds holds)
  | construct filename =>
      obtain ⟨_, ⟨⟩⟩ := Option.ite_none_right_eq_some.mp done
      constructor
      · rw [peers_construct]
        exact sound.peers.construct
      · intro ob interactive
        have there := sound.connected ob interactive
        have old : ob ≠ s.world.next :=
          Nat.ne_of_lt (sound.peers.known_of_held ((held_peers _ _).trans there) ob rfl)
        rw [← held_peers, peers_construct, Peers.held, Peers.construct,
          Function.update_of_ne old]
        exact (held_peers _ _).trans there
  | linkShadow self victim =>
      obtain ⟨_, ⟨⟩⟩ := Option.ite_none_right_eq_some.mp done
      exact sound.with_other s.stack (peers_linkShadow _ _ _) rfl
  | removeShadow ob =>
      obtain ⟨_, ⟨⟩⟩ := Option.ite_none_right_eq_some.mp done
      exact sound.with_other s.stack (peers_removeShadow _ _) (next_removeShadow _ _)
  | move item dest =>
      obtain ⟨_, ⟨⟩⟩ := Option.ite_none_right_eq_some.mp done
      exact sound.with_other s.stack (peers_moveObject _ _ _) (next_moveObject _ _ _)
  | release obj =>
      simp only [State.run] at done
      split at done
      · cases done
      · rename_i free
        cases done
        constructor
        · rw [peers_release]
          exact sound.peers.release obj
        · intro ob interactive
          have there := sound.connected ob interactive
          have other : obj ≠ ob := by
            rintro rfl
            exact free interactive
          rw [← held_peers, peers_release, Peers.held, Peers.release, Peers.change,
            if_neg (fun same => other (Option.some.inj same))]
          exact (held_peers _ _).trans there

end Step

/-! ## The law -/

/-- Every link of a snoop is what it was. -/
def SameLinks (w w' : World) : Prop :=
  ∀ a, w'.link a LpcObject.snooping = w.link a LpcObject.snooping ∧
    w'.link a LpcObject.snoopedBy = w.link a LpcObject.snoopedBy

/-- The law of snoops. -/
structure SnoopLaw (w : World) : Prop where
  mutual_ : ∀ a b, w.live a = true → w.live b = true →
    (w.link a LpcObject.snooping = some b ↔ w.link b LpcObject.snoopedBy = some a)
  live : ∀ a b, w.live a = true →
    w.link a LpcObject.snooping = some b ∨ w.link a LpcObject.snoopedBy = some b →
      w.live b = true
  oneSnooper : ∀ a a' b, w.live a = true → w.live a' = true →
    w.link a LpcObject.snooping = some b → w.link a' LpcObject.snooping = some b → a = a'
  oneVictim : ∀ a b b', w.live b = true → w.live b' = true →
    w.link b LpcObject.snoopedBy = some a → w.link b' LpcObject.snoopedBy = some a → b = b'
  acyclic : ∀ a, w.held a = true →
    ¬ TransGen (fun a b => w.link a LpcObject.snoopedBy = some b) a a
  walks : ∀ by_ victim, w.held by_ = true →
    ∃ loop, Converges (fun fuel => climbs w victim fuel by_) loop

section Law

variable {w : World} {bound : ObjectId}

theorem Peers.Sound.law (sound : w.peers.Sound bound) : SnoopLaw w := by
  have down {a : ObjectId} (live : w.live a = true) :
      w.peers.chains.down a = w.link a LpcObject.snooping := by
    rw [snooping_peers]
    exact Peers.down_of_live ((live_peers w a).trans live)
  have up {a : ObjectId} (live : w.live a = true) :
      w.peers.chains.up a = w.link a LpcObject.snoopedBy := by
    rw [snoopedBy_peers]
    exact Peers.up_of_live ((live_peers w a).trans live)
  constructor
  · intro a b live live'
    rw [← down live, ← up live']
    exact sound.chains.mutual_ a b
  · rintro a b live (link | link)
    · rw [← down live] at link
      exact (live_peers w b).symm.trans (Peers.live_of_up ((sound.chains.mutual_ a b).mp link))
    · rw [← up live] at link
      exact (live_peers w b).symm.trans
        (Peers.live_of_down ((sound.chains.mutual_ b a).mpr link))
  · intro a a' b live live' link link'
    rw [← down live] at link
    rw [← down live'] at link'
    exact sound.chains.down_unique link link'
  · intro a b b' live live' link link'
    rw [← up live] at link
    rw [← up live'] at link'
    exact sound.chains.up_unique link link'
  · intro a held cycle
    -- Every object on the cycle is live, as something links to it.
    rcases exists_path_up sound ((held_peers w a).trans held) with ⟨l, path, walk⟩
    have acyclic : Acyclic fun a b => w.peers.chains.up a = some b := by
      apply sound.chains.acyclic.swap.mono
      intro a b link
      exact (sound.chains.mutual_ b a).mpr link
    apply acyclic a
    have links : ∀ b, ReflTransGen (fun a b => w.link a LpcObject.snoopedBy = some b) a b →
        w.peers.chains.up b = w.link b LpcObject.snoopedBy := by
      intro b reached
      rw [snoopedBy_peers]
      apply sound.up_eq
      rcases ReflTransGen.cases_tail reached with rfl | ⟨c, _, link⟩
      · exact (held_peers w _).trans held
      · rw [snoopedBy_peers] at link
        exact Peers.held_of_link link
    have lifted : ∀ b, TransGen (fun a b => w.link a LpcObject.snoopedBy = some b) a b →
        TransGen (fun a b => w.peers.chains.up a = some b) a b := by
      intro b reached
      induction reached with
      | single link => exact .single ((links a .refl).trans link)
      | tail before link ih => exact ih.tail ((links _ before.to_reflTransGen).trans link)
    exact lifted a cycle
  · intro by_ victim held
    rcases climbs_converges sound held victim with ⟨loop, converges, _⟩
    exact ⟨loop, converges⟩

/-- A stop without a snoop changes no link. -/
theorem sameLinks_stop {by_ : ObjectId} (held : w.held by_ = true)
    (free : w.link by_ LpcObject.snooping = none) : SameLinks w (stopSnoop w by_) := by
  intro a
  have relinked := Peers.relinked_stop ((held_peers w by_).trans held)
  rw [snooping_peers] at free
  rw [snooping_peers, snoopedBy_peers, peers_stopSnoop, relinked.snooping, relinked.snoopedBy, free,
    snooping_peers, snoopedBy_peers]
  constructor
  · by_cases same : by_ = a
    · rw [if_pos (congrArg some same), ← same, free]
    · exact if_neg fun link => same (Option.some.inj link)
  · exact if_neg (by simp)

/-- A refusal changes no link. -/
theorem sameLinks_snoop {ldmud : Bool} {interactive : ObjectId → Bool} {fuel : Nat}
    {by_ : ObjectId} {victim : Option ObjectId} {w' : World} {answer : Answer}
    (held : w.held by_ = true)
    (done : Object.snoop ldmud interactive fuel w by_ victim = some (w', answer))
    (refused : answer.refused = true) : SameLinks w w' := by
  have same : SameLinks w w := fun a => ⟨rfl, rfl⟩
  cases victim with
  | none =>
      simp only [Object.snoop] at done
      split at done
      · cases done
        exact same
      · cases done
        cases snoops : w.link by_ LpcObject.snooping with
        | none => exact sameLinks_stop held snoops
        | some v =>
            rw [snoops] at refused
            cases ldmud <;> cases refused
  | some victim =>
      simp only [Object.snoop] at done
      split at done
      · cases done
        exact same
      · split at done
        · cases done
          exact same
        · rcases Option.map_eq_some_iff.mp done with ⟨loop, _, ends⟩
          cases loop with
          | true =>
              cases ends
              exact same
          | false =>
              cases ends
              cases ldmud <;> cases refused

theorem sameLinks_run {s s' : State} {op : Op} {answer : Answer}
    (done : s.run op = some (s', some answer)) (refused : answer.refused = true) :
    SameLinks s.world s'.world := by
  have same : SameLinks s.world s.world := fun a => ⟨rfl, rfl⟩
  have silent : ∀ {result : Option State}, ¬ result.map (·, (none : Option Answer)) =
      some (s', some answer) := by
    intro result answered
    rcases Option.map_eq_some_iff.mp answered with ⟨_, _, ends⟩
    cases ends
  cases op with
  | snoop ldmud by_ victim fuel =>
      obtain ⟨holds, done⟩ := Option.ite_none_right_eq_some.mp done
      have held := held_of_holds (Bool.and_eq_true_iff.mp holds).1
      split at done
      · rcases Option.map_eq_some_iff.mp done with ⟨result, snooped, ends⟩
        cases ends
        exact sameLinks_snoop held snooped refused
      · split at done
        · cases done
          exact same
        · cases done
  | validSnoopReturns approved fuel =>
      simp only [State.run] at done
      split at done
      · split at done
        · rename_i helds
          split at done
          · rcases Option.map_eq_some_iff.mp done with ⟨result, snooped, ends⟩
            cases ends
            exact sameLinks_snoop (Bool.and_eq_true_iff.mp helds).1 snooped refused
          · cases done
            exact same
          · cases done
            exact same
        · cases done
      · cases done
  | destruct obj notify fuel =>
      obtain ⟨_, done⟩ := Option.ite_none_right_eq_some.mp done
      exact absurd done silent
  | cascade notify fuel =>
      simp only [State.run] at done
      split at done
      · split at done
        · exact absurd done silent
        · cases done
      · cases done
  | onDestructReturns =>
      simp only [State.run] at done
      split at done
      · split at done <;> cases done
      · cases done
  | expel cur =>
      simp only [State.run] at done
      split at done
      · split at done <;> cases done
      · cases done
  | attach | close | construct | linkShadow | removeShadow | move | release =>
      simp only [State.run] at done
      split at done <;> cases done

theorem sound_empty : Sound {} where
  peers := by
    constructor
    · exact Chains.sound_empty
    · intro a held
      cases held
    · intro a o here
      cases here
  connected ob interactive := by cases interactive

theorem Sound.after {s s' : State} {ops : List Op} (sound : Sound s) (clears : s.Clears ops)
    (reached : s.after ops = some s') : Sound s' :=
  Lib.Runs.after_keeps (fun sound clear done => Sound.run sound clear done) sound clears reached

end Law

/-- In every state of a run in which no object is destructed while somebody snoops it, unless its
connection is closed with it, the law of snoops holds; and a refusal changes no link. -/
theorem snoop_law (ops : List Op) (clears : ({} : State).Clears ops) (s : State)
    (reached : ({} : State).after ops = some s) :
    SnoopLaw s.world ∧ ∀ op s' answer, s.run op = some (s', some answer) →
      answer.refused = true → SameLinks s.world s'.world :=
  ⟨Peers.Sound.law (sound_empty.after clears reached).peers, fun _ _ _ => sameLinks_run⟩

/-- A wizard snoops a player, who is then destructed with the connection. -/
def watchedPlayer : List Op :=
  [.construct (str "/player"), .construct (str "/wizard"), .attach none 0,
    .snoop false 1 (some 0) 2, .destruct 0 false 2]

theorem watchedPlayer_clear : ({} : State).Clears watchedPlayer := by
  constructor
  · trivial
  rintro _ ⟨⟩
  constructor
  · trivial
  rintro _ ⟨⟩
  constructor
  · trivial
  rintro _ ⟨⟩
  constructor
  · trivial
  rintro _ ⟨⟩
  constructor
  · intro _ _ _ watched
    exact watched.2 ⟨rfl, rfl⟩
  · intro _ _
    trivial

theorem snoop_law_watchedPlayer :
    ∃ s, ({} : State).after watchedPlayer = some s ∧ SnoopLaw s.world :=
  ⟨_, rfl, (snoop_law watchedPlayer watchedPlayer_clear _ rfl).1⟩

/-- A wizard snoops a player that shadows an object, and the object is destructed. -/
def watchedShadow : List Op :=
  [.construct (str "/player"), .construct (str "/base"), .construct (str "/wizard"),
    .attach none 0, .linkShadow 0 1, .snoop false 2 (some 0) 2, .destruct 1 false 2,
    .cascade false 2, .cascade false 2]

/-- The wizard still snoops the player. -/
theorem watchedShadow_not_lawful :
    ¬ ∀ (ops : List Op) (s : State), ({} : State).after ops = some s →
      SnoopLaw s.world ∧ ∀ op s' answer, s.run op = some (s', some answer) →
        answer.refused = true → SameLinks s.world s'.world := by
  intro all
  have left : (({} : State).after watchedShadow).any (fun s =>
      s.world.live 2 && s.world.link 2 LpcObject.snooping == some 0 && !s.world.live 0) = true := by
    decide
  rcases (Option.any_eq_true _ _).mp left with ⟨s, reached, found⟩
  rw [Bool.and_eq_true, Bool.and_eq_true, beq_iff_eq, Bool.not_eq_true'] at found
  have live := (all watchedShadow s reached).1.live 2 0 found.1.1 (.inl found.1.2)
  rw [found.2] at live
  cases live

end Kjdmud.Object.Snoop
