import Kjdmud.Object.Shadow.Sound

/-!
# Operations keep shadows sound

The efuns, a reload with its cascade, the release of memory, and the linking at the end of
`shadow`, which is the only one of them that asks for something.
-/

namespace Kjdmud.Object.Shadow

open Relation

variable {w : World}

/-! ## Taking an object out of its chain -/

section Splice

variable {obj : ObjectId}

theorem Bounded.unlinkShadow (bounded : Bounded w) : Bounded (unlinkShadow w obj) := by
  have raw : ∀ x, (((w.modifyLinked (w.link obj LpcObject.shadowing) fun o =>
      { o with shadowedBy := w.link obj LpcObject.shadowedBy }).objects obj).bind
        LpcObject.shadowing) = some x → x < w.next := by
    intro x link
    have first := bounded.setShadowedBy (w.link obj LpcObject.shadowing)
      (v := w.link obj LpcObject.shadowedBy) fun x link => bounded.link_lt link
    rcases Option.bind_eq_some_iff.mp link with ⟨o, here, member⟩
    have below := (first obj o here).2.shadowing x member
    rwa [next_modifyLinked] at below
  unfold Object.unlinkShadow
  apply Bounded.clear
  apply Bounded.setShadowing
  · exact bounded.setShadowedBy _ fun x link => bounded.link_lt link
  · intro x link
    rw [next_modifyLinked]
    exact raw x link

theorem Sound.unlinkShadow (sound : Sound w) (held : w.held obj = true) :
    Sound (unlinkShadow w obj) :=
  sound.spliced (spliced_unlinkShadow held) held sound.bounded.unlinkShadow

theorem Sound.removeShadow (sound : Sound w) (held : w.held obj = true) :
    Sound (removeShadow w obj) := by
  apply sound.spliced (spliced_removeShadow held) held
  unfold Object.removeShadow
  simp only
  split
  · exact sound.bounded
  · apply Bounded.clear
    apply Bounded.setShadowing
    · exact sound.bounded.setShadowedBy _ fun x link => sound.bounded.link_lt link
    · intro x link
      rw [next_modifyLinked]
      exact sound.bounded.link_lt link

theorem Sound.unshadow (sound : Sound w) (held : w.held obj = true) :
    Sound (unshadow w obj) := by
  by_cases shadows : w.link obj LpcObject.shadowing = none
  · unfold Object.unshadow
    rw [shadows]
    exact sound
  · apply sound.spliced (spliced_unshadow held shadows) held
    unfold Object.unshadow
    split
    · exact sound.bounded
    · rename_i victim below
      apply Bounded.clear
      apply Bounded.setShadowing
      · exact sound.bounded.setShadowedBy (some victim) fun x link =>
          sound.bounded.link_lt link
      · rintro x ⟨⟩
        exact sound.bounded.link_lt below

theorem Sound.replaceProgram (sound : Sound w) (held : w.held obj = true) (stored : Str) :
    Sound (replaceProgram w obj stored) := by
  by_cases destructed : w.isDestructed obj = true
  · unfold Object.replaceProgram
    rw [if_pos destructed]
    exact sound
  · have live : w.isDestructed obj = false := Bool.eq_false_iff.mpr destructed
    by_cases shadows : w.link obj LpcObject.shadowing = none
    · unfold Object.replaceProgram
      rw [if_neg destructed, shadows]
      apply sound.same (.modify (by intro o; exact ⟨rfl, rfl, rfl, rfl⟩) obj)
      exact Bounded.other sound.bounded (some obj) (by intro o; exact ⟨rfl, rfl⟩)
    · apply sound.spliced (spliced_replaceProgram held stored live shadows) held
      unfold Object.replaceProgram
      rw [if_neg destructed]
      refine Bounded.other ?_ (some obj) (by intro o; exact ⟨rfl, rfl⟩)
      split
      · exact sound.bounded
      · rename_i target below
        have first := sound.bounded.setShadowedBy (some target)
          (v := w.link obj LpcObject.shadowedBy) fun x link => sound.bounded.link_lt link
        have none_ (n : ObjectId) : ∀ x, (none : Option ObjectId) = some x → x < n := by
          rintro x ⟨⟩
        cases above : w.link obj LpcObject.shadowedBy with
        | none =>
            rw [above] at first
            exact Bounded.setShadowing first (some obj) (none_ _)
        | some shadower =>
            rw [above] at first
            have second := Bounded.setShadowing first (some shadower) (v := some target) (by
              rintro x ⟨⟩
              exact sound.bounded.link_lt below)
            exact Bounded.setShadowing (Bounded.setShadowedBy second (some obj) (none_ _))
              (some obj) (none_ _)

end Splice

/-! ## The linking of `shadow` -/

section Link

variable {self victim : ObjectId}

theorem Sound.linkShadow (sound : Sound w) (live : w.live self = true)
    (live' : w.live victim = true) (free : w.link self LpcObject.shadowing = none)
    (top : w.link victim LpcObject.shadowedBy = none)
    (apart : ¬ ReflTransGen (Shadow.chains w).Above victim self) :
    Sound (linkShadow w self victim) := by
  have held := held_of_live live
  have held' := held_of_live live'
  have linked := (Linked.self.setShadowing (some self) (World.lock_of_held held)
    (some victim)).setShadowedBy (some victim) (World.lock_of_held held') (some self)
  rw [World.lock_of_held held, World.lock_of_held held'] at linked
  have attached : Shadow.chains (Object.linkShadow w self victim) =
      (Shadow.chains w).attach self victim := by
    apply Chains.ext
    · funext a
      have above := linked.shadowedBy a
      simp only [Shadow.chains, Chains.attach]
      rw [show (Object.linkShadow w self victim).live a = w.live a from linked.live a]
      rw [show (Object.linkShadow w self victim).link a LpcObject.shadowedBy = _ from above]
      simp only [Option.some.injEq, eq_comm (a := victim)]
      by_cases same : a = victim
      · rw [same, live', if_pos rfl, if_pos rfl, if_pos rfl]
      · rw [if_neg same, if_neg same]
    · funext a
      have below := linked.shadowing a
      simp only [Shadow.chains, Chains.attach]
      rw [show (Object.linkShadow w self victim).live a = w.live a from linked.live a]
      rw [show (Object.linkShadow w self victim).link a LpcObject.shadowing = _ from below]
      simp only [Option.some.injEq, eq_comm (a := self)]
      by_cases same : a = self
      · rw [same, live, if_pos rfl, if_pos rfl, if_pos rfl]
      · rw [if_neg same, if_neg same]
  constructor
  · rw [attached]
    apply sound.chains.attach
    · rw [sound.down_eq held]
      exact free
    · rw [sound.up_eq held']
      exact top
    · exact apart
  · intro a held'' destructed
    have heldBefore : w.held a = true := (linked.held a).symm.trans held''
    have destructedBefore : w.isDestructed a = true := (linked.destructed a).symm.trans destructed
    have dead : w.live a = false := by rw [World.live, heldBefore, destructedBefore]; rfl
    have other : self ≠ a := by
      rintro rfl
      rw [live] at dead
      cases dead
    have other' : victim ≠ a := by
      rintro rfl
      rw [live'] at dead
      cases dead
    have before := sound.cleared a heldBefore destructedBefore
    constructor
    · refine (linked.shadowing a).trans ?_
      rw [if_neg (by simpa using other)]
      exact before.1
    · refine (linked.shadowedBy a).trans ?_
      rw [if_neg (by simpa using other')]
      exact before.2
  · refine Bounded.setShadowedBy (Bounded.setShadowing sound.bounded (some self) ?_)
      (some victim) ?_
    · rintro x ⟨⟩
      exact sound.bounded.lt_of_held held'
    · rintro x ⟨⟩
      exact sound.bounded.lt_of_held held

end Link

/-! ## Memory -/

theorem Sound.release (sound : Sound w) (obj : ObjectId) : Sound (Object.release w obj) := by
  have held (a : ObjectId) : (Object.release w obj).held a = (w.held a && !(a == obj)) := by
    simp only [World.held, Object.release, World.modify]
    by_cases same : a = obj
    · subst same
      rw [Function.update_self, beq_self_eq_true, Bool.not_true, Bool.and_false]
      cases w.objects a <;> rfl
    · rw [Function.update_of_ne same, beq_false_of_ne same, Bool.not_false, Bool.and_true]
  have destructed (a : ObjectId) : (Object.release w obj).isDestructed a = w.isDestructed a :=
    World.isDestructed_modify (by intro o; rfl)
  have link (member : LpcObject → Option ObjectId)
      (kept : ∀ o : LpcObject, member { o with freed := true } = member o) (a : ObjectId) :
      (Object.release w obj).link a member = (w.link a member).filter fun b => !(b == obj) := by
    have raw : ((Object.release w obj).objects a).bind member = (w.objects a).bind member := by
      simp only [Object.release, World.modify]
      by_cases same : a = obj
      · subst same
        rw [Function.update_self]
        cases w.objects a with
        | none => rfl
        | some o => exact kept o
      · rw [Function.update_of_ne same]
    rw [World.link, raw, World.link, World.lock, World.lock, Option.filter_filter]
    congr 1
    funext b
    exact held b
  have shadowing := link LpcObject.shadowing (by intro o; rfl)
  have shadowedBy := link LpcObject.shadowedBy (by intro o; rfl)
  have live (a : ObjectId) : (Object.release w obj).live a = (w.live a && !(a == obj)) := by
    rw [World.live, World.live, held, destructed]
    cases w.held a <;> cases w.isDestructed a <;> cases a == obj <;> rfl
  have forgotten : Shadow.chains (Object.release w obj) =
      (Shadow.chains w).forget (· == obj) := by
    apply Chains.ext
    · funext a
      simp only [Shadow.chains, Chains.forget, live, shadowedBy]
      by_cases gone : (a == obj) = true
      · simp [gone]
      · by_cases alive : w.live a = true
        · simp [gone, alive]
        · simp [alive]
    · funext a
      simp only [Shadow.chains, Chains.forget, live, shadowing]
      by_cases gone : (a == obj) = true
      · simp [gone]
      · by_cases alive : w.live a = true
        · simp [gone, alive]
        · simp [alive]
  constructor
  · rw [forgotten]
    exact sound.chains.forget _
  · intro a held' destructed'
    rw [held, Bool.and_eq_true] at held'
    rw [destructed] at destructed'
    have before := sound.cleared a held'.1 destructed'
    rw [shadowing, shadowedBy, before.1, before.2]
    exact ⟨rfl, rfl⟩
  · exact Bounded.other sound.bounded (some obj) (by intro o; exact ⟨rfl, rfl⟩)

/-! ## Moves -/

theorem Sound.moveObject (sound : Sound w) (item dest : ObjectId) :
    Sound (moveObject w item dest) := by
  unfold Object.moveObject
  split
  · exact sound
  · have kept (o : LpcObject) (inventory : List ObjectId) :
        ({ o with inventory := inventory }).freed = o.freed ∧
          ({ o with inventory := inventory }).destructed = o.destructed ∧
          ({ o with inventory := inventory }).shadowing = o.shadowing ∧
          ({ o with inventory := inventory }).shadowedBy = o.shadowedBy :=
      ⟨rfl, rfl, rfl, rfl⟩
    apply sound.same
    · exact ((SameShadows.modifyLinked (by intro o; exact kept o _) _).trans
        (.modify (by intro o; exact ⟨rfl, rfl, rfl, rfl⟩) item)).trans
          (.modify (by intro o; exact kept o _) dest)
    · exact Bounded.other (Bounded.other (Bounded.other sound.bounded _
        (by intro o; exact ⟨rfl, rfl⟩)) (some item) (by intro o; exact ⟨rfl, rfl⟩)) (some dest)
        (by intro o; exact ⟨rfl, rfl⟩)

end Kjdmud.Object.Shadow
