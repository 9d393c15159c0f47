import Kjdmud.Object.Actions
import Kjdmud.Object.Liveness

/-!
# Commands in reach

As long as no move takes an object that gives commands away from the owner of one of its actions,
every owner stays near, no copies of an action are left from before, and no handler of an object
out of reach is called.
-/

namespace Kjdmud.Object.Actions

/-! ## Surroundings -/

section Surroundings

variable {w w' : World} {item obj x : ObjectId} {dest : Option ObjectId}

theorem environmentOf_nodes (w : World) (x : ObjectId) : environmentOf w x = w.nodes.parent x :=
  link_environment w x

theorem environmentOf_congr (same : w'.nodes = w.nodes) :
    environmentOf w' x = environmentOf w x := by
  rw [environmentOf_nodes, environmentOf_nodes, same]

theorem near_congr (same : ∀ x, environmentOf w' x = environmentOf w x) (ob giver : ObjectId) :
    near w' ob giver = near w ob giver := by
  rw [near, near, nearIn, nearIn, same ob, same giver]

theorem environmentOf_setEnvironment (itemHeld : w.held item = true)
    (destHeld : ∀ d ∈ dest, w.held d = true) (x : ObjectId) :
    environmentOf (setEnvironment w item dest) x =
      Function.update (environmentOf w) item dest x := by
  apply Option.ext
  intro y
  rw [environmentOf_nodes, nodes_setEnvironment]
  refine Nodes.in_place.trans ?_
  by_cases here : x = item
  · rw [if_pos here, here, Function.update_self]
    rcases held_nodes.mpr itemHeld with ⟨o, there, _⟩
    constructor
    · exact fun placed => placed.2.1
    · intro placed
      exact ⟨⟨o, there⟩, placed, held_nodes.mpr (destHeld y placed)⟩
  · rw [if_neg here, Function.update_of_ne here, environmentOf_nodes]
    rfl

theorem environmentOf_retire (other : x ≠ obj) :
    environmentOf (retire w obj) x = environmentOf w x := by
  apply Option.ext
  intro y
  rw [environmentOf_nodes, nodes_retire, environmentOf_nodes]
  refine Nodes.in_retire.trans ?_
  constructor
  · exact fun inside => inside.2
  · exact fun inside => ⟨other, inside⟩

theorem environmentOf_release (w : World) (obj x : ObjectId) :
    environmentOf (release w obj) x = (environmentOf w x).filter (· ≠ obj) := by
  apply Option.ext
  intro y
  rw [environmentOf_nodes, nodes_release, environmentOf_nodes, Option.filter_eq_some_iff]
  have inside : (w.nodes.release obj).In x y ↔ w.nodes.In x y ∧ y ≠ obj := by
    rw [Nodes.in_iff, Nodes.in_iff, Nodes.held_release]
    have same : (∃ o, w.nodes.release obj x = some o ∧ o.environment = some y) ↔
        ∃ o, w.nodes x = some o ∧ o.environment = some y := by
      constructor
      · rintro ⟨o, here, environment⟩
        rcases Nodes.release_eq_some.mp here with ⟨before, there, rfl⟩
        exact ⟨before, there, environment⟩
      · rintro ⟨o, here, environment⟩
        exact ⟨_, Nodes.release_eq_some.mpr ⟨o, here, rfl⟩, environment⟩
    rw [same]
    constructor
    · rintro ⟨environment, other, held⟩
      exact ⟨⟨environment, held⟩, other⟩
    · rintro ⟨⟨environment, held⟩, other⟩
      exact ⟨environment, other, held⟩
  refine inside.trans ?_
  rw [decide_eq_true_iff]
  rfl

/-- Every object and every environment was constructed. -/
def Placed (w : World) : Prop :=
  ∀ x o, w.nodes x = some o → x < w.next ∧ ∀ y, o.environment = some y → y < w.next

theorem Placed.lt (placed : Placed w) (held : w.held x = true) : x < w.next := by
  rcases held_nodes.mpr held with ⟨o, here, _⟩
  exact (placed x o here).1

theorem Placed.congr (placed : Placed w) (nodes : w'.nodes = w.nodes) (next : w'.next = w.next) :
    Placed w' := by
  intro x o here
  rw [nodes] at here
  rw [next]
  exact placed x o here

theorem Placed.setEnvironment (placed : Placed w) (destHeld : ∀ d ∈ dest, w.held d = true) :
    Placed (setEnvironment w item dest) := by
  intro x o here
  rw [nodes_setEnvironment] at here
  rw [next_setEnvironment]
  rcases Nodes.place_eq_some.mp here with ⟨before, there, rfl⟩
  refine ⟨(placed x before there).1, ?_⟩
  intro y environment
  by_cases same : x = item
  · have inside : dest = some y := by simpa [same] using environment
    exact placed.lt (destHeld y inside)
  · have old : before.environment = some y := by simpa [same] using environment
    exact (placed x before there).2 y old

theorem Placed.retire (placed : Placed w) : Placed (retire w obj) := by
  intro x o here
  rw [nodes_retire] at here
  rw [next_retire]
  rcases Nodes.retire_eq_some.mp here with ⟨before, there, rfl⟩
  refine ⟨(placed x before there).1, ?_⟩
  intro y environment
  by_cases same : x = obj
  · simp [same] at environment
  · have old : before.environment = some y := by simpa [same] using environment
    exact (placed x before there).2 y old

theorem Placed.release (placed : Placed w) : Placed (release w obj) := by
  intro x o here
  rw [nodes_release] at here
  rcases Nodes.release_eq_some.mp here with ⟨before, there, rfl⟩
  exact placed x before there

theorem Placed.construct (placed : Placed w) (filename : Str) : Placed (w.construct filename) := by
  intro x o here
  have next : (w.construct filename).next = w.next + 1 := rfl
  rw [nodes_construct, Nodes.construct_eq_some] at here
  rw [next]
  by_cases same : x = w.next
  · rw [if_pos same] at here
    rw [here]
    refine ⟨same ▸ Nat.lt_succ_self x, ?_⟩
    rintro y ⟨⟩
  · rw [if_neg same] at here
    have old := placed x o here
    exact ⟨Nat.lt_succ_of_lt old.1, fun y environment => Nat.lt_succ_of_lt (old.2 y environment)⟩

theorem environmentOf_construct (placed : Placed w) {filename : Str} (other : x ≠ w.next) :
    environmentOf (w.construct filename) x = environmentOf w x := by
  rw [environmentOf_nodes, environmentOf_nodes, nodes_construct, Nodes.parent, Nodes.parent,
    Nodes.construct, Function.update_of_ne other]
  cases here : w.nodes x with
  | none => rfl
  | some o =>
      rw [Option.bind_some]
      cases environment : o.environment with
      | none => rfl
      | some y =>
          have old : y ≠ w.next := Nat.ne_of_lt ((placed x o here).2 y environment)
          rw [Option.filter, Option.filter, Function.update_of_ne old]

end Surroundings

/-! ## The invariant -/

/-- The copies of a triple in a table. -/
def copies (actions : List ActionEntry) (t : Triple) : Nat :=
  actions.countP fun e => e.triple = t

/-- Owners are near, and there are no copies from before. -/
structure Reach (s : State) : Prop where
  stays : s.Stays (environmentOf s.world)
  counts : ∀ giver t, s.world.live giver = true → s.world.live t.owner = true →
    copies (s.actions giver) t ≤ s.registered giver t
  known : ∀ giver owner, s.Pair giver owner → giver < s.world.next ∧ owner < s.world.next
  placed : Placed s.world

section Reach

variable {s s' : State} {w : World}

theorem pair_of_copies {giver : ObjectId} {t : Triple} (some_ : copies (s.actions giver) t ≠ 0) :
    s.Pair giver t.owner := by
  rcases List.countP_pos_iff.mp (Nat.pos_of_ne_zero some_) with ⟨e, member, same⟩
  have triple : e.triple = t := of_decide_eq_true same
  exact .inl ⟨e, member, congrArg Triple.owner triple⟩

/-- Another world in which no pair has been taken apart. -/
theorem Reach.withWorld (reach : Reach s) (placed : Placed w) (next : s.world.next ≤ w.next)
    (live : ∀ x, x < s.world.next → w.live x = true → s.world.live x = true)
    (stays : ∀ giver owner, s.Pair giver owner → w.live giver = true → w.live owner = true →
      near w owner giver = true) : Reach (s.withWorld w) where
  stays giver owner pair liveGiver liveOwner := stays giver owner pair liveGiver liveOwner
  counts giver t liveGiver liveOwner := by
    by_cases none_ : copies (s.actions giver) t = 0
    · exact none_ ▸ Nat.zero_le _
    · have pair := pair_of_copies none_
      have known := reach.known giver t.owner pair
      have close := stays giver t.owner pair liveGiver liveOwner
      have counted : (s.withWorld w).registered giver t = s.registered giver t := if_pos close
      rw [counted]
      exact reach.counts giver t (live giver known.1 liveGiver) (live t.owner known.2 liveOwner)
  known giver owner pair := by
    have old := reach.known giver owner pair
    exact ⟨Nat.lt_of_lt_of_le old.1 next, Nat.lt_of_lt_of_le old.2 next⟩
  placed := placed

/-- Another stack with nothing more to look at. -/
theorem Reach.withStack (reach : Reach s) {stack : List Frame}
    (fewer : ∀ giver verb arg rest, Frame.dispatch giver verb arg rest ∈ stack →
      ∀ e ∈ rest, e.matches_ verb = true → s.Pair giver e.owner) :
    Reach { s with stack := stack } := by
  have pairs : ∀ giver owner, State.Pair { s with stack := stack } giver owner →
      s.Pair giver owner := by
    rintro giver owner (inTable | ⟨verb, arg, rest, member, e, inRest, matching, rfl⟩)
    · exact .inl inTable
    · exact fewer giver verb arg rest member e inRest matching
  constructor
  · exact fun giver owner pair => reach.stays giver owner (pairs giver owner pair)
  · exact reach.counts
  · exact fun giver owner pair => reach.known giver owner (pairs giver owner pair)
  · exact reach.placed

/-- A frame in which a command runs. -/
def Frame.isDispatch : Frame → Bool
  | .dispatch _ _ _ _ => true
  | _ => false

/-- The frames of commands that run are those of before. -/
theorem Reach.popped (reach : Reach s) {stack : List Frame}
    (fewer : ∀ f ∈ stack, f.isDispatch = true → f ∈ s.stack) : Reach { s with stack := stack } := by
  apply reach.withStack
  intro giver verb arg rest member e inRest matching
  exact .inr ⟨verb, arg, rest, fewer _ member rfl, e, inRest, matching, rfl⟩

/-- A frame in which no command runs. -/
theorem fewer_cons {f : Frame} {stack old : List Frame} (other : f.isDispatch = false)
    (fewer : ∀ f ∈ stack, f.isDispatch = true → f ∈ old) :
    ∀ g ∈ f :: stack, g.isDispatch = true → g ∈ old := by
  intro g member running
  rcases List.mem_cons.mp member with rfl | inside
  · rw [other] at running
    cases running
  · exact fewer g inside running

theorem fewer_self (stack : List Frame) : ∀ f ∈ stack, f.isDispatch = true → f ∈ stack :=
  fun _ member _ => member

/-- The frames below the top. -/
theorem fewer_tail {f : Frame} {stack : List Frame} (here : s.stack = f :: stack) :
    ∀ g ∈ stack, g.isDispatch = true → g ∈ s.stack := by
  intro g member _
  rw [here]
  exact List.mem_cons_of_mem f member

end Reach

/-! ## Tables -/

section Tables

variable {ob : ObjectId} {functionName verb : Str} {flag : Nat} {verbs : List Str}
  {actions : List ActionEntry} {e : ActionEntry}

theorem mem_addActions (member : e ∈ addActions ob functionName flag verbs actions) :
    e ∈ actions ∨ e.owner = ob := by
  unfold addActions at member
  induction verbs generalizing actions with
  | nil => exact .inl member
  | cons verb verbs ih =>
      rcases ih member with old | new
      · rcases List.mem_cons.mp old with rfl | old
        · exact .inr rfl
        · exact .inl old
      · exact .inr new

theorem copies_addActions (t : Triple) :
    copies (addActions ob functionName flag verbs actions) t = copies actions t +
      if t.owner = ob ∧ t.functionName = functionName then verbs.count t.verb else 0 := by
  unfold addActions
  induction verbs generalizing actions with
  | nil =>
      rw [List.count_nil, ite_self]
      rfl
  | cons verb verbs ih =>
      rw [List.foldl_cons, ih]
      have first : copies (⟨verb, functionName, ob, flag⟩ :: actions) t = copies actions t +
          if (⟨ob, functionName, verb⟩ : Triple) = t then 1 else 0 := by
        have triple : ActionEntry.triple ⟨verb, functionName, ob, flag⟩ =
            ⟨ob, functionName, verb⟩ := rfl
        rw [copies, List.countP_cons, copies, triple]
        by_cases same : (⟨ob, functionName, verb⟩ : Triple) = t
        · rw [if_pos same, if_pos (decide_eq_true same)]
        · rw [if_neg same, if_neg (by simpa using same)]
      rw [first]
      by_cases mine : t.owner = ob ∧ t.functionName = functionName
      · rw [if_pos mine, if_pos mine, List.count_cons]
        have same : (⟨ob, functionName, verb⟩ : Triple) = t ↔ verb = t.verb := by
          rw [Triple.mk.injEq, ← mine.1, ← mine.2]
          simp
        simp only [same, beq_iff_eq]
        omega
      · rw [if_neg mine, if_neg mine]
        have other : ¬ (⟨ob, functionName, verb⟩ : Triple) = t := by
          rintro rfl
          exact mine ⟨rfl, rfl⟩
        rw [if_neg other]

theorem mem_removeAction (member : e ∈ removeAction ob functionName verb actions) : e ∈ actions :=
  List.mem_of_mem_eraseP member

theorem copies_removeAction (t : Triple) :
    copies (removeAction ob functionName verb actions) t ≤ copies actions t :=
  (List.eraseP_sublist).countP_le

theorem mem_nextHandler {w : World} {rest later : List ActionEntry}
    (next : nextHandler w verb rest = some (e, later)) :
    (e ∈ rest ∧ e.matches_ verb = true ∧ w.live e.owner = true) ∧ ∀ e' ∈ later, e' ∈ rest := by
  induction rest with
  | nil => cases next
  | cons first rest ih =>
      rw [nextHandler] at next
      by_cases calls : (first.matches_ verb && w.live first.owner) = true
      · rw [if_pos calls] at next
        cases next
        rcases Bool.and_eq_true_iff.mp calls with ⟨matching, live⟩
        exact ⟨⟨List.mem_cons_self, matching, live⟩, fun e' => List.mem_cons_of_mem e⟩
      · rw [if_neg calls] at next
        rcases ih next with ⟨⟨member, matching, live⟩, fewer⟩
        exact ⟨⟨List.mem_cons_of_mem first member, matching, live⟩,
          fun e' inside => List.mem_cons_of_mem first (fewer e' inside)⟩

end Tables

/-! ## Steps -/

section Step

variable {s s' : State} {w : World} {obj ob giver : ObjectId}

theorem held_of_holds (holds : s.holds ob = true) : s.world.held ob = true :=
  (Bool.and_eq_true_iff.mp holds).2

theorem Reach.addAction (reach : Reach s) (obHeld : s.world.held ob = true)
    (giverHeld : s.world.held giver = true) (close : near s.world ob giver = true)
    (functionName : Str) (verbs : List Str) (flag : Nat) :
    Reach { s with
      actions := Function.update s.actions giver
        (addActions ob functionName flag verbs (s.actions giver))
      registered := Function.update s.registered giver fun t =>
        s.registered giver t +
          if t.owner = ob ∧ t.functionName = functionName then verbs.count t.verb else 0 } := by
  have pairs : ∀ g owner, State.Pair { s with
      actions := Function.update s.actions giver
        (addActions ob functionName flag verbs (s.actions giver))
      registered := Function.update s.registered giver fun t =>
        s.registered giver t +
          if t.owner = ob ∧ t.functionName = functionName then verbs.count t.verb else 0 } g owner →
      s.Pair g owner ∨ (g = giver ∧ owner = ob) := by
    rintro g owner (⟨e, member, rfl⟩ | running)
    · by_cases same : g = giver
      · subst same
        have here : e ∈ addActions ob functionName flag verbs (s.actions g) := by
          simpa using member
        rcases mem_addActions here with old | new
        · exact .inl (.inl ⟨e, old, rfl⟩)
        · exact .inr ⟨rfl, new⟩
      · have there : e ∈ s.actions g := by simpa [same] using member
        exact .inl (.inl ⟨e, there, rfl⟩)
    · exact .inl (.inr running)
  constructor
  · intro g owner pair liveGiver liveOwner
    rcases pairs g owner pair with old | ⟨rfl, rfl⟩
    · exact reach.stays g owner old liveGiver liveOwner
    · exact close
  · intro g t liveGiver liveOwner
    have before := reach.counts g t liveGiver liveOwner
    by_cases same : g = giver
    · subst same
      simp only [Function.update_self]
      rw [copies_addActions]
      exact Nat.add_le_add_right before _
    · simp only [Function.update_of_ne same]
      exact before
  · intro g owner pair
    rcases pairs g owner pair with old | ⟨rfl, rfl⟩
    · exact reach.known g owner old
    · exact ⟨reach.placed.lt giverHeld, reach.placed.lt obHeld⟩
  · exact reach.placed

theorem Reach.removeAction (reach : Reach s) (functionName verb : Str) :
    Reach { s with
      actions := Function.update s.actions giver
        (Object.removeAction ob functionName verb (s.actions giver)) } := by
  have pairs : ∀ g owner, State.Pair { s with
      actions := Function.update s.actions giver
        (Object.removeAction ob functionName verb (s.actions giver)) } g owner →
      s.Pair g owner := by
    rintro g owner (⟨e, member, rfl⟩ | running)
    · by_cases same : g = giver
      · subst same
        have here : e ∈ Object.removeAction ob functionName verb (s.actions g) := by
          simpa using member
        exact .inl ⟨e, mem_removeAction here, rfl⟩
      · have there : e ∈ s.actions g := by simpa [same] using member
        exact .inl ⟨e, there, rfl⟩
    · exact .inr running
  constructor
  · exact fun g owner pair => reach.stays g owner (pairs g owner pair)
  · intro g t liveGiver liveOwner
    have before := reach.counts g t liveGiver liveOwner
    by_cases same : g = giver
    · subst same
      simp only [Function.update_self]
      exact (copies_removeAction t).trans before
    · simp only [Function.update_of_ne same]
      exact before
  · exact fun g owner pair => reach.known g owner (pairs g owner pair)
  · exact reach.placed

/-- A new environment that takes no pair apart. -/
theorem Reach.setEnvironment {item : ObjectId} {dest : Option ObjectId} (reach : Reach s)
    (itemHeld : s.world.held item = true) (destHeld : ∀ d ∈ dest, s.world.held d = true)
    (stays : s.Stays (Function.update (environmentOf s.world) item dest)) :
    Reach (s.withWorld (setEnvironment s.world item dest)) := by
  apply reach.withWorld (reach.placed.setEnvironment destHeld)
  · rw [next_setEnvironment]
  · intro x _ live
    rw [live_setEnvironment] at live
    exact live
  · intro g owner pair liveGiver liveOwner
    rw [live_setEnvironment] at liveGiver liveOwner
    have close := stays g owner pair liveGiver liveOwner
    have same : environmentOf (Object.setEnvironment s.world item dest) =
        Function.update (environmentOf s.world) item dest :=
      funext (environmentOf_setEnvironment itemHeld destHeld)
    rw [near, same]
    exact close

/-- Objects with other members. -/
theorem Reach.congr (reach : Reach s) (nodes : w.nodes = s.world.nodes)
    (next : w.next = s.world.next) : Reach (s.withWorld w) := by
  apply reach.withWorld (reach.placed.congr nodes next) (Nat.le_of_eq next.symm)
  · intro x _ live
    rw [live_congr nodes] at live
    exact live
  · intro g owner pair liveGiver liveOwner
    rw [live_congr nodes] at liveGiver liveOwner
    rw [near_congr fun x => environmentOf_congr nodes]
    exact reach.stays g owner pair liveGiver liveOwner

/-- A destruction takes only the object itself out of its environment. -/
theorem Reach.retire (reach : Reach s) (nodes : w.nodes = s.world.nodes)
    (next : w.next = s.world.next) (obj : ObjectId) : Reach (s.withWorld (retire w obj)) := by
  apply reach.withWorld (reach.placed.congr nodes next).retire
  · rw [next_retire, next]
  · intro x _ live
    rw [live_retire, live_congr nodes, Bool.and_eq_true] at live
    exact live.1
  · intro g owner pair liveGiver liveOwner
    rw [live_retire, live_congr nodes, Bool.and_eq_true, Bool.not_eq_true',
      beq_eq_false_iff_ne] at liveGiver liveOwner
    have close := reach.stays g owner pair liveGiver.1 liveOwner.1
    rw [near, nearIn, environmentOf_retire liveGiver.2, environmentOf_retire liveOwner.2,
      environmentOf_congr nodes, environmentOf_congr nodes]
    exact close

theorem Reach.release (reach : Reach s) (clear : s.Clear (.release obj)) :
    Reach (s.withWorld (Object.release s.world obj)) := by
  apply reach.withWorld reach.placed.release (Nat.le_refl _)
  · intro x _ live
    rw [live_release, Bool.and_eq_true] at live
    exact live.1
  · intro g owner pair liveGiver liveOwner
    rw [live_release, Bool.and_eq_true, Bool.not_eq_true', beq_eq_false_iff_ne] at liveGiver liveOwner
    have close := clear g owner liveGiver.2 liveOwner.2 pair liveGiver.1 liveOwner.1
    have same : environmentOf (Object.release s.world obj) =
        fun x => (environmentOf s.world x).filter (· ≠ obj) :=
      funext (environmentOf_release s.world obj)
    rw [near, same]
    exact close

theorem Reach.construct (reach : Reach s) (filename : Str) :
    Reach (s.withWorld (s.world.construct filename)) := by
  apply reach.withWorld (reach.placed.construct filename) (Nat.le_succ _)
  · intro x old live
    rw [live_construct (Nat.ne_of_lt old)] at live
    exact live
  · intro g owner pair liveGiver liveOwner
    have known := reach.known g owner pair
    have differs := Nat.ne_of_lt known.1
    have differs' := Nat.ne_of_lt known.2
    rw [live_construct differs] at liveGiver
    rw [live_construct differs'] at liveOwner
    rw [near, nearIn, environmentOf_construct reach.placed differs,
      environmentOf_construct reach.placed differs']
    exact reach.stays g owner pair liveGiver liveOwner

theorem Reach.destruct {notify : Bool} {fuel : Nat} (reach : Reach s)
    (done : s.destruct obj notify fuel = some s') : Reach s' := by
  have kept : (unlinkShadow s.world obj).next = s.world.next :=
    (next_modifyLinked _ _ _).trans (next_modifyLinked _ _ _)
  cases destructs_stops done with
  | done _ => exact reach
  | cascade top => exact reach.popped (fewer_cons rfl (fewer_self _))
  | calls =>
      have unlinked : Reach (s.withWorld (unlinkShadow s.world obj)) :=
        reach.congr (nodes_unlinkShadow _ _) kept
      exact unlinked.popped (fewer_cons rfl (fewer_self _))
  | ends _ _ _ => exact reach.retire (nodes_unlinkShadow _ _) kept obj

/-- What `run` returns where it calls no handler. -/
theorem of_silent {result : State} {done : State × Option Call}
    (same : some (result, (none : Option Call)) = some done) (reach : Reach result) :
    Reach done.1 := by
  cases same
  exact reach

theorem Reach.descends (reach : Reach s) (top : ObjectId) {stack : List Frame}
    (here : s.stack = .cascade top :: stack) : Reach (s.descends top stack) := by
  have cut : Reach (s.withWorld (Shadow.State.cutBelow s.world top)) :=
    reach.congr (nodes_cutBelow _ _) (next_modifyLinked _ _ _)
  apply cut.popped
  split
  · exact fewer_cons rfl (fewer_tail here)
  · exact fewer_tail here

theorem Reach.run {op : Op} {result : State × Option Call} (reach : Reach s)
    (clear : s.Clear op) (done : s.run op = some result) : Reach result.1 := by
  cases op with
  | addAction ob giver functionName verbs flag =>
      obtain ⟨holds, done⟩ := Option.ite_none_right_eq_some.mp done
      rcases Bool.and_eq_true_iff.mp holds with ⟨holds, holds'⟩
      split at done
      · rename_i close
        exact of_silent done (reach.addAction (held_of_holds holds) (held_of_holds holds') close
          functionName verbs (flag % 4).toNat)
      · exact of_silent done reach
  | removeAction ob giver functionName verb =>
      obtain ⟨_, done⟩ := Option.ite_none_right_eq_some.mp done
      exact of_silent done (reach.removeAction functionName verb)
  | move item dest =>
      obtain ⟨holds, done⟩ := Option.ite_none_right_eq_some.mp done
      rcases Bool.and_eq_true_iff.mp holds with ⟨holds, holds'⟩
      split at done
      · exact of_silent done reach
      · rename_i accepted
        have accepts := Bool.eq_false_iff.mpr accepted
        have moved : Reach (s.withWorld (moveObject s.world item dest)) := by
          rw [moveObject_eq, accepts, if_neg Bool.false_ne_true]
          apply reach.setEnvironment (held_of_holds holds)
          · rintro d ⟨⟩
            exact held_of_holds holds'
          · exact clear accepts
        exact of_silent done (moved.popped (fewer_cons rfl (fewer_self _)))
  | nextInit =>
      simp only [State.run] at done
      split at done
      · rename_i item dest stack here
        refine of_silent done (reach.popped ?_)
        split
        · exact fewer_cons rfl (fewer_cons rfl (fewer_tail here))
        · exact fewer_cons rfl (fewer_tail here)
      · rename_i item dest stack here
        exact of_silent done (reach.popped (fewer_cons rfl (fewer_tail here)))
      · rename_i stack here
        exact of_silent done (reach.popped (fewer_tail here))
      · rename_i giver other pending stack here
        refine of_silent done (reach.popped ?_)
        split
        · exact fewer_cons rfl (fewer_cons rfl (fewer_tail here))
        · exact fewer_cons rfl (fewer_tail here)
      · cases done
  | initReturns throws =>
      simp only [State.run] at done
      split at done
      · rename_i move stack here
        have tail := fewer_tail here
        refine of_silent done (reach.popped ?_)
        split
        · exact fun f member => tail f (List.mem_cons_of_mem move member)
        · exact tail
      · cases done
  | setEnvironment item dest =>
      obtain ⟨holds, done⟩ := Option.ite_none_right_eq_some.mp done
      rcases Bool.and_eq_true_iff.mp holds with ⟨holds, all⟩
      refine of_silent done (reach.setEnvironment (held_of_holds holds) ?_ clear)
      rintro d rfl
      exact held_of_holds all
  | enableCommands ob on =>
      obtain ⟨_, done⟩ := Option.ite_none_right_eq_some.mp done
      exact of_silent done ⟨reach.stays, reach.counts, reach.known, reach.placed⟩
  | dispatchCommand giver hook line =>
      simp only [State.run] at done
      split at done
      · split at done
        · exact of_silent done reach
        · split at done
          · exact of_silent done reach
          · refine of_silent done (reach.withStack ?_)
            intro giver' verb arg rest member e inRest matching
            rcases List.mem_cons.mp member with same | old
            · cases same
              exact .inl ⟨e, inRest, rfl⟩
            · exact .inr ⟨verb, arg, rest, old, e, inRest, matching, rfl⟩
      · cases done
  | resume =>
      simp only [State.run] at done
      split at done
      · rename_i giver verb arg rest stack here
        split at done
        · exact of_silent done (reach.popped (fewer_tail here))
        · rename_i e later next
          cases done
          apply reach.withStack
          intro giver' verb' arg' rest' member e' inRest matching
          rcases List.mem_cons.mp member with same | member
          · cases same
          · rcases List.mem_cons.mp member with same | old
            · cases same
              have top : Frame.dispatch giver verb arg rest ∈ s.stack := by
                rw [here]
                exact List.mem_cons_self
              exact .inr ⟨verb, arg, rest, top, e', (mem_nextHandler next).2 e' inRest, matching,
                rfl⟩
            · exact .inr ⟨verb', arg', rest', fewer_tail here _ old rfl, e', inRest, matching, rfl⟩
      · cases done
  | handlerReturns result =>
      simp only [State.run] at done
      split at done
      · rename_i giver verb arg rest stack here
        have tail := fewer_tail here
        refine of_silent done (reach.popped ?_)
        split
        · exact tail
        · exact fun f member => tail f (List.mem_cons_of_mem _ member)
      · cases done
  | destruct obj notify fuel =>
      obtain ⟨_, done⟩ := Option.ite_none_right_eq_some.mp done
      rcases Option.map_eq_some_iff.mp done with ⟨s', destructs, rfl⟩
      exact reach.destruct destructs
  | onDestructReturns =>
      simp only [State.run] at done
      split at done
      · rename_i obj stack here
        split at done
        · have gone : Reach (s.withWorld (Object.retire s.world obj)) := reach.retire rfl rfl obj
          exact of_silent done (gone.popped (fewer_tail here))
        · cases done
      · cases done
  | cascade notify fuel =>
      simp only [State.run] at done
      split at done
      · rename_i top stack here
        split at done
        · rcases Option.map_eq_some_iff.mp done with ⟨s', destructs, rfl⟩
          exact (reach.descends top here).destruct destructs
        · cases done
      · cases done
  | construct filename =>
      obtain ⟨_, done⟩ := Option.ite_none_right_eq_some.mp done
      exact of_silent done (reach.construct filename)
  | release obj => exact of_silent done (reach.release clear)

theorem Reach.after {ops : List Op} (reach : Reach s) (clears : s.Clears ops)
    (reached : s.after ops = some s') : Reach s' :=
  Lib.Runs.after_keeps (fun reach clear done => Reach.run reach clear done) reach clears reached

theorem reach_empty : Reach {} where
  stays := by
    rintro giver owner (⟨e, member, -⟩ | ⟨_, _, _, member, -⟩)
    · cases member
    · cases member
  counts giver t live := by cases live
  known := by
    rintro giver owner (⟨e, member, -⟩ | ⟨_, _, _, member, -⟩)
    · cases member
    · cases member
  placed x o here := by cases here

/-- A handler that is called belongs to an object near the giver of the command. -/
theorem Reach.near_of_call {op : Op} {call : Call} (reach : Reach s)
    (done : s.run op = some (s', some call)) (live : s.world.live call.giver = true) :
    s.world.live call.owner = true ∧ near s.world call.owner call.giver = true := by
  have silent : ∀ {result : State}, ¬ some (result, (none : Option Call)) = some (s', some call) := by
    rintro result ⟨⟩
  have silent' : ∀ {result : Option State}, ¬ result.map (·, (none : Option Call)) =
      some (s', some call) := by
    intro result called
    rcases Option.map_eq_some_iff.mp called with ⟨_, _, ends⟩
    cases ends
  cases op with
  | resume =>
      simp only [State.run] at done
      split at done
      · rename_i giver verb arg rest stack here
        split at done
        · exact absurd done silent
        · rename_i e later next
          cases done
          rcases (mem_nextHandler next).1 with ⟨member, matching, alive⟩
          refine ⟨alive, reach.stays giver e.owner (.inr ?_) live alive⟩
          refine ⟨verb, arg, rest, ?_, e, member, matching, rfl⟩
          rw [here]
          exact List.mem_cons_self
      · cases done
  | destruct obj notify fuel =>
      obtain ⟨_, done⟩ := Option.ite_none_right_eq_some.mp done
      exact absurd done silent'
  | cascade notify fuel =>
      simp only [State.run] at done
      split at done
      · split at done
        · exact absurd done silent'
        · cases done
      · cases done
  | nextInit =>
      simp only [State.run] at done
      split at done
      all_goals cases done
  | initReturns | handlerReturns =>
      simp only [State.run] at done
      split at done <;> cases done
  | onDestructReturns =>
      simp only [State.run] at done
      split at done
      · split at done <;> cases done
      · cases done
  | addAction | move | dispatchCommand =>
      simp only [State.run] at done
      split at done
      · split at done
        · exact absurd done silent
        · first | exact absurd done silent | (split at done <;> cases done)
      · cases done
  | removeAction | setEnvironment | enableCommands | construct =>
      simp only [State.run] at done
      split at done <;> cases done
  | release obj => cases done

end Step

/-! ## The law -/

/-- The law of actions. -/
structure ReachLaw (s : State) : Prop where
  /-- The owners of the actions of a live object are near. -/
  inReach : ∀ giver, s.world.live giver = true → ∀ e ∈ s.actions giver,
    s.world.live e.owner = true → near s.world e.owner giver = true
  /-- There are no more copies than were registered since the owner last came near. -/
  noCopies : ∀ giver t, s.world.live giver = true → s.world.live t.owner = true →
    copies (s.actions giver) t ≤ s.registered giver t
  /-- A handler that is called belongs to a live object near the giver. -/
  calls : ∀ op s' call, s.run op = some (s', some call) → s.world.live call.giver = true →
    s.world.live call.owner = true ∧ near s.world call.owner call.giver = true

/-- In every state of a run in which nothing takes a giver of commands away from the owner of one
of its actions, the law of actions holds. -/
theorem reach_law (ops : List Op) (clears : ({} : State).Clears ops) (s : State)
    (reached : ({} : State).after ops = some s) : ReachLaw s where
  inReach giver live e member alive :=
    (reach_empty.after clears reached).stays giver e.owner (.inl ⟨e, member, rfl⟩) live alive
  noCopies := (reach_empty.after clears reached).counts
  calls _ _ _ := (reach_empty.after clears reached).near_of_call

/-- A player comes into a hall, whose `init()` registers an action. -/
def entersHall : List Op :=
  [.construct (str "/player"), .construct (str "/hall"), .enableCommands 0 true, .move 0 1,
    .nextInit, .addAction 1 0 (str "pull_lever") [str "pull"] 0, .initReturns false, .nextInit,
    .nextInit]

/-- The player gives the command. -/
def pullsLever : List Op :=
  entersHall ++ [.dispatchCommand 0 [] (str "pull lever"), .resume]

theorem pullsLever_clear : ({} : State).Clears pullsLever := by
  constructor
  · trivial
  rintro _ ⟨⟩
  constructor
  · trivial
  rintro _ ⟨⟩
  constructor
  · trivial
  rintro _ ⟨⟩
  constructor
  · rintro _ giver owner (⟨e, member, -⟩ | ⟨_, _, _, member, -⟩)
    · cases member
    · cases member
  rintro _ ⟨⟩
  refine ⟨trivial, fun _ _ => ⟨trivial, fun _ _ => ⟨trivial, fun _ _ => ⟨trivial, fun _ _ =>
    ⟨trivial, fun _ _ => ⟨trivial, fun _ _ => ⟨trivial, fun _ _ => trivial⟩⟩⟩⟩⟩⟩⟩

theorem reach_law_pullsLever :
    ∃ s, ({} : State).after pullsLever = some s ∧ ReachLaw s :=
  ⟨_, rfl, reach_law pullsLever pullsLever_clear _ rfl⟩

/-- The player leaves the hall for a street. -/
def leavesHall : List Op :=
  entersHall ++ [.construct (str "/street"), .move 0 2]

/-- The action of the hall is still in the table. -/
theorem leavesHall_not_lawful :
    ¬ ∀ (ops : List Op) (s : State), ({} : State).after ops = some s → ReachLaw s := by
  intro all
  let lever : ActionEntry := ⟨str "pull", str "pull_lever", 1, 0⟩
  have left : (({} : State).after leavesHall).any (fun s =>
      s.world.live 0 && s.world.live 1 && s.actions 0 == [lever] && !near s.world 1 0) = true := by
    decide
  rcases (Option.any_eq_true _ _).mp left with ⟨s, reached, found⟩
  simp only [Bool.and_eq_true, beq_iff_eq, Bool.not_eq_true'] at found
  rcases found with ⟨⟨⟨live, alive⟩, table⟩, far⟩
  have close := (all leavesHall s reached).inReach 0 live lever (by simp [table]) alive
  rw [far] at close
  cases close

end Kjdmud.Object.Actions
