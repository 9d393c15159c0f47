import Kjdmud.Object.Shadow.Reload

/-!
# Calls along shadows

Where shadows are sound, both loops of `callFunction` end.  The first one comes to the
outermost eligible shadow, and the second one goes from there to the base of the chain,
past the object that is called.
-/

namespace Kjdmud.Object.Shadow

open Relation
open Kjdmud.Fuel (Converges)

variable {w : World}

theorem shadowTop_eq_walk (fuel : Nat) (a : ObjectId) :
    shadowTop fuel w a = Chains.walk (w.link · LpcObject.shadowedBy) fuel a := by
  induction fuel generalizing a with
  | zero => rfl
  | succ fuel ih =>
      rw [shadowTop, Chains.walk]
      cases w.link a LpcObject.shadowedBy with
      | none => rfl
      | some next => exact ih next

/-- The shadow that the first loop of `callFunction` goes out to. -/
def eligibleShadow (w : World) (caller : Option ObjectId) (a : ObjectId) : Option ObjectId :=
  (w.link a LpcObject.shadowedBy).filter (eligible w caller)

theorem outermost_eq_walk (caller : Option ObjectId) (fuel : Nat) (a : ObjectId) :
    outermost w caller fuel a = Chains.walk (eligibleShadow w caller) fuel a := by
  induction fuel generalizing a with
  | zero => rfl
  | succ fuel ih =>
      rw [outermost, Chains.walk, eligibleShadow]
      cases w.link a LpcObject.shadowedBy with
      | none => rfl
      | some shadow =>
          by_cases goes : eligible w caller shadow = true
          · simp only [Option.filter, goes, if_true]
            exact ih shadow
          · simp only [Option.filter, goes]
            rfl

theorem retryForShadow_eq_search {F : Type} (find : ObjectId → Option F) (fuel : Nat)
    (a : ObjectId) :
    retryForShadow w find fuel a =
      Chains.search (w.link · LpcObject.shadowing) find fuel a := by
  induction fuel generalizing a with
  | zero => rfl
  | succ fuel ih =>
      rw [retryForShadow, Chains.search]
      cases find a with
      | some found => rfl
      | none =>
          simp only
          cases w.link a LpcObject.shadowing with
          | none => rfl
          | some next => exact ih next

/-- What `callFunction` does on a live object: it goes out along eligible shadows, `outward`,
and then in again to the base, `inward`, and runs the first function it finds there. -/
structure CallsInward {F : Type} (w : World) (caller : Option ObjectId)
    (find : ObjectId → Option F) (obj : ObjectId) (outward inward : List ObjectId)
    (result : Option (ObjectId × F)) : Prop where
  out : Chains.Path (eligibleShadow w caller) obj outward
  in_ : ∃ target, outward.getLast? = some target ∧
    Chains.Path (w.link · LpcObject.shadowing) target inward
  passes : obj ∈ inward
  result_eq : result = inward.findSome? fun x => (find x).map (x, ·)
  void : result = none ↔ ∀ x ∈ inward, find x = none
  ends : Converges (fun fuel => callFunction w caller find fuel obj) result

/-- What is reached from a held object going up is above it. -/
theorem Sound.above_of_reached (sound : Sound w) {a b : ObjectId} (held : w.held a = true)
    (reached : ReflTransGen (fun a b => w.link a LpcObject.shadowedBy = some b) a b) :
    w.held b = true ∧ ReflTransGen (Shadow.chains w).Above b a := by
  induction reached with
  | refl => exact ⟨held, .refl⟩
  | @tail c d _ link ih =>
      have above := link
      rw [← sound.up_eq ih.1] at above
      exact ⟨World.held_of_link link, .head ((sound.chains.mutual_ d c).mpr above) ih.2⟩

theorem link_of_above {a b : ObjectId} (above : (Shadow.chains w).Above a b) :
    w.link a LpcObject.shadowing = some b := by
  simp only [Chains.Above, Shadow.chains] at above
  split at above
  · exact above
  · cases above

theorem Sound.calls {F : Type} (sound : Sound w) (caller : Option ObjectId)
    (find : ObjectId → Option F) {obj : ObjectId} (live : w.live obj = true) :
    ∃ outward inward result, CallsInward w caller find obj outward inward result := by
  have held := held_of_live live
  have alive : w.isDestructed obj = false := by
    have both := (Bool.and_eq_true_iff.mp live).2
    simpa using both
  have outward : ∃ l, Chains.Path (eligibleShadow w caller) obj l := by
    have wellFounded : WellFounded fun b a =>
        (if w.held a = true then eligibleShadow w caller a else none) = some b := by
      apply Subrelation.wf _ sound.wellFounded_up
      intro b a link
      by_cases held : w.held a = true
      · simp only [held, if_true] at link
        rw [sound.up_eq held]
        exact (Option.filter_eq_some_iff.mp link).1
      · simp only [held] at link
        cases link
    rcases Chains.exists_path wellFounded obj with ⟨l, path⟩
    refine ⟨l, path.congr fun b mem => ?_⟩
    have heldBefore : w.held b = true := by
      rcases ReflTransGen.cases_tail (path.reached mem) with rfl | ⟨c, _, link⟩
      · exact held
      · split at link
        · exact World.held_of_link (Option.filter_eq_some_iff.mp link).1
        · cases link
    rw [if_pos heldBefore]
  rcases outward with ⟨outward, out⟩
  rcases out.walk with ⟨target, walks, last, _⟩
  have up : ReflTransGen (fun a b => w.link a LpcObject.shadowedBy = some b) obj target :=
    ReflTransGen.mono (fun _ _ link => (Option.filter_eq_some_iff.mp link).1) _ _
      (out.reached (List.mem_of_getLast? last))
  rcases sound.above_of_reached held up with ⟨held', above⟩
  have back : ReflTransGen (fun a b => w.link a LpcObject.shadowing = some b) target obj :=
    ReflTransGen.mono (fun _ _ link => link_of_above link) _ _ above
  rcases sound.exists_path_down held' with ⟨inward, path, _⟩
  refine ⟨outward, inward, _, out, ⟨target, last, path⟩, path.mem_of_reached back, rfl, ?_, ?_⟩
  · simp [List.findSome?_eq_none_iff]
  · have run : Converges (fun fuel => (outermost w caller fuel obj).bind fun target =>
        retryForShadow w find fuel target)
        (inward.findSome? fun x => (find x).map (x, ·)) := by
      apply Converges.bind (a := target)
      · exact walks.congr fun fuel => outermost_eq_walk caller fuel obj
      · exact (path.search find).congr fun fuel => retryForShadow_eq_search find fuel target
    apply run.congr
    intro fuel
    rw [callFunction, if_neg (by rw [alive]; exact Bool.false_ne_true)]

/-!
## Shadows over whole runs

In every run in which LPC code does nothing wrong with a `shadow` that waits for its
answer, or with an object in its `on_destruct`, the shadows stay sound.
-/

open Relation

/-! ## Steps -/

section Step

variable {s s' : State}

/-- The linking at the end of `shadow`, when the world is still as the tests found it. -/
theorem Sound.attachShadow {w w' : World} (sound : Sound w) {self ob : ObjectId} {fuel : Nat}
    (held : w.held self = true) (held' : w.held ob = true)
    (clear : w.isDestructed self = false →
      w.isDestructed ob = false ∧ w.link self LpcObject.shadowing = none ∧
        ¬ ReflTransGen (fun a b => w.link a LpcObject.shadowing = some b) ob self)
    (done : attachShadow fuel w self ob = some w') : Sound w' := by
  unfold Object.attachShadow at done
  split at done
  · cases done
    exact sound
  · rename_i alive
    have live : w.isDestructed self = false := Bool.eq_false_iff.mpr alive
    rcases clear live with ⟨live', free, apart⟩
    rcases Option.map_eq_some_iff.mp done with ⟨victim, top, rfl⟩
    rcases sound.exists_path_up held' with ⟨l, path, _, helds⟩
    rcases path.walk with ⟨end_, converges, last, noLink⟩
    rw [shadowTop_eq_walk] at top
    have same := converges.only fuel victim top
    subst same
    have reached := path.reached (List.mem_of_getLast? last)
    have victimHeld := helds victim (List.mem_of_getLast? last)
    have victimLive : w.live victim = true := by
      rcases ReflTransGen.cases_tail reached with rfl | ⟨c, before, link⟩
      · rw [World.live, held', live']
        rfl
      · have cHeld : w.held c = true := helds c (path.mem_of_reached before)
        exact sound.live_of_shadowedBy cHeld link
    have selfLive : w.live self = true := by
      rw [World.live, held, live]
      rfl
    apply sound.linkShadow selfLive victimLive free noLink
    intro around
    -- Both `ob` and `self` are below the top, so one of them is below the other.
    have down := (sound.above_of_reached held' reached).2
    have oneWay : Relator.RightUnique (Shadow.chains w).Above := by
      intro a b c first second
      exact Option.some.inj (first.symm.trans second)
    rcases ReflTransGen.total_of_right_unique oneWay down around with below | above
    · apply apart
      exact ReflTransGen.mono (fun _ _ link => link_of_above link) _ _ below
    · rcases above.cases_head with same | ⟨c, link, _⟩
      · subst same
        exact apart .refl
      · have none_ := sound.down_eq held
        rw [free] at none_
        rw [Chains.Above, none_] at link
        cases link

theorem Sound.destruct (sound : Sound s.world) {obj : ObjectId} {notify : Bool} {fuel : Nat}
    (held : s.world.held obj = true) (done : s.destruct obj notify fuel = some s') :
    Sound s'.world := by
  cases destructs_stops done with
  | done _ => exact sound
  | cascade top => exact sound
  | calls => exact sound.unlinkShadow held
  | ends _ _ _ =>
      have unlinked := sound.unlinkShadow held
      apply unlinked.retired (retired_retire _ obj) (Bounded.retire unlinked.bounded obj)
      intro _
      have spliced := spliced_unlinkShadow held
      exact ⟨(spliced.shadowing obj).trans (if_pos rfl),
        (spliced.shadowedBy obj).trans (if_pos rfl)⟩

theorem Sound.step (sound : Sound s.world) {op : Op} (clear : op.Clear s)
    (done : s.step op = some s') : Sound s'.world := by
  cases op with
  | shadow ldmud self ob =>
      simp only [State.step] at done
      split at done
      · split at done <;> cases done
        · exact sound
        · exact sound
      · cases done
  | shadowReturns approved fuel =>
      simp only [State.step] at done
      split at done
      · rename_i self ob stack here
        split at done
        · rename_i helds
          rcases Bool.and_eq_true_iff.mp helds with ⟨held, held'⟩
          split at done
          · rename_i approves
            subst approves
            rcases Option.map_eq_some_iff.mp done with ⟨w, attached, rfl⟩
            exact sound.attachShadow held held' (clear self ob stack here) attached
          · cases done
            exact sound
        · cases done
      · cases done
  | unshadow self =>
      simp only [State.step] at done
      split at done <;> cases done
      rename_i holds
      exact sound.unshadow (Bool.and_eq_true_iff.mp holds).2
  | removeShadow ob =>
      simp only [State.step] at done
      split at done <;> cases done
      rename_i holds
      exact sound.removeShadow (Bool.and_eq_true_iff.mp holds).2
  | replaceProgram ob stored =>
      simp only [State.step] at done
      split at done <;> cases done
      rename_i holds
      exact sound.replaceProgram (Bool.and_eq_true_iff.mp holds).2 stored
  | destruct obj notify fuel =>
      obtain ⟨holds, done⟩ := Option.ite_none_right_eq_some.mp done
      exact sound.destruct (Bool.and_eq_true_iff.mp holds).2 done
  | onDestructReturns =>
      simp only [State.step] at done
      split at done
      · rename_i obj stack here
        split at done <;> cases done
        apply sound.retired (retired_retire _ obj) (Bounded.retire sound.bounded obj)
        intro held
        by_cases destructed : s.world.isDestructed obj = true
        · exact sound.cleared obj held destructed
        · exact clear obj stack here (Bool.eq_false_iff.mpr destructed)
      · cases done
  | cascade notify fuel =>
      simp only [State.step] at done
      split at done
      · cases done
        exact sound
      · split at done
        · rename_i top stack here held
          have cut := sound.cutBelow held
          have held' : (State.cutBelow s.world top).held top = true :=
            ((linked_cutBelow held).held top).trans held
          exact Sound.destruct (s := { world := State.cutBelow s.world top, stack := _ }) cut
            held' done
        · cases done
      · cases done
  | reload obj fuel =>
      obtain ⟨holds, done⟩ := Option.ite_none_right_eq_some.mp done
      rcases Option.map_eq_some_iff.mp done with ⟨w, ran, rfl⟩
      exact sound.reloadObject (Bool.and_eq_true_iff.mp holds).2 ran
  | construct filename =>
      simp only [State.step] at done
      split at done <;> cases done
      exact sound.construct filename
  | move item dest =>
      simp only [State.step] at done
      split at done <;> cases done
      exact sound.moveObject item dest
  | release obj =>
      simp only [State.step] at done
      cases done
      exact sound.release obj

end Step

/-! ## Runs -/

/-- A driver without objects; `master` is who the master will be. -/
def initial (master : Option ObjectId) : State where
  world := { master }

theorem initial_sound (master : Option ObjectId) : Sound (initial master).world where
  chains := Chains.sound_empty
  cleared a held := by cases held
  bounded a o here := by cases here

theorem ClearRun.sound {s s' : State} {ops : List Op} (run : ClearRun s ops s') :
    Sound s.world → Sound s'.world :=
  run.keeps (p := fun s => Sound s.world) fun sound clear last => Sound.step sound clear last

/-! ## The law -/

/-- The integrity of the chains of shadows. -/
structure Integrity (w : World) : Prop where
  mutual_ : ∀ a b, w.live a = true → w.live b = true →
    (w.link a LpcObject.shadowing = some b ↔ w.link b LpcObject.shadowedBy = some a)
  live : ∀ a b, w.live a = true → w.link a LpcObject.shadowing = some b ∨
    w.link a LpcObject.shadowedBy = some b → w.live b = true
  /-- Following a link from an object comes to an end. -/
  up_ends : ∀ a, w.held a = true → ∃ l, Chains.Path (w.link · LpcObject.shadowedBy) a l
  down_ends : ∀ a, w.held a = true → ∃ l, Chains.Path (w.link · LpcObject.shadowing) a l
  calls : ∀ (caller : Option ObjectId) (program : ObjectId → Vm.CompiledProgram) (name : Str)
    (obj : ObjectId), w.live obj = true → ∃ outward inward result,
      CallsInward w caller (findIn program name) obj outward inward result

theorem Sound.integrity {w : World} (sound : Sound w) : Integrity w where
  mutual_ a b live live' := sound.link_iff (held_of_live live) (held_of_live live')
  live a b live link := by
    rcases link with below | above
    · exact sound.live_of_shadowing (held_of_live live) below
    · exact sound.live_of_shadowedBy (held_of_live live) above
  up_ends a held := by
    rcases sound.exists_path_up held with ⟨l, path, _⟩
    exact ⟨l, path⟩
  down_ends a held := by
    rcases sound.exists_path_down held with ⟨l, path, _⟩
    exact ⟨l, path⟩
  calls caller program name obj live := sound.calls caller (findIn program name) live

/-- In every state of a run whose operations are clear, the shadows form chains, and calls
go along them. -/
theorem shadow_integrity {master : Option ObjectId} {ops : List Op} {s : State}
    (run : ClearRun (initial master) ops s) : Integrity s.world :=
  (run.sound (initial_sound master)).integrity

/-! ## Samples -/

/-- The master and two more objects, the first of which wants to shadow the second. -/
def asking : List Op :=
  [.construct (str "/master"), .construct (str "/a"), .construct (str "/b"), .shadow false 1 2]

/-- The apply of the master destructs the object to be shadowed. -/
theorem shadow_destructed : ¬ ∀ master ops s, Run (initial master) ops s → Integrity s.world := by
  intro law
  have run : Run (initial (some 0)) (asking ++ [.destruct 2 false 1, .shadowReturns true 1]) _ :=
    .cons rfl (.cons rfl (.cons rfl (.cons rfl (.cons rfl (.cons rfl (.nil _))))))
  have live := (law _ _ _ run).live 1 2 rfl (.inl rfl)
  cases live

/-- The apply of the master does nothing, and the shadow is linked. -/
theorem shadow_linked : ∃ ops s, ClearRun (initial (some 0)) ops s ∧
    s.world.link 1 LpcObject.shadowing = some 2 ∧ Integrity s.world := by
  have apart : ∀ s : State, s.world.link 2 LpcObject.shadowing = none →
      ¬ ReflTransGen (fun a b => s.world.link a LpcObject.shadowing = some b) 2 1 := by
    intro s free reaches
    rcases reaches.cases_head with same | ⟨c, link, _⟩
    · cases same
    · rw [free] at link
      cases link
  have run : ∃ s, ClearRun (initial (some 0)) (asking ++ [.shadowReturns true 1]) s ∧
      s.world.link 1 LpcObject.shadowing = some 2 := by
    refine ⟨_, .cons trivial rfl (.cons trivial rfl (.cons trivial rfl (.cons trivial rfl
      (.cons ?_ rfl (.nil _))))), rfl⟩
    rintro self ob stack ⟨⟩ _
    exact ⟨rfl, rfl, apart _ rfl⟩
  rcases run with ⟨s, run, linked⟩
  exact ⟨_, s, run, linked, shadow_integrity run⟩

end Kjdmud.Object.Shadow
