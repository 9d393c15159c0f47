import Kjdmud.Object.Shadow
import Kjdmud.Lib.Chains

/-!
# The links of shadows

What the operations on objects do to the links of shadows, as operations on doubly linked
chains.  The chains of a world are those of its live objects.
-/

namespace Kjdmud.Object

namespace World

section Modify

variable {w : World} {id a : ObjectId} {change : LpcObject → LpcObject}
  {member : LpcObject → Option ObjectId} {weak v : Option ObjectId}

theorem held_modify (freed : ∀ o, (change o).freed = o.freed) :
    (w.modify id change).held a = w.held a := by
  simp only [held, modify]
  by_cases same : a = id
  · subst same
    rw [Function.update_self, Option.any_map]
    congr 1
    funext o
    exact congrArg _ (freed o)
  · rw [Function.update_of_ne same]

theorem lock_modify (freed : ∀ o, (change o).freed = o.freed) :
    (w.modify id change).lock weak = w.lock weak := by
  have held (a : ObjectId) : (w.modify id change).held a = w.held a := held_modify freed
  simp only [World.held] at held
  simp only [lock, held]

theorem isDestructed_modify (destructed : ∀ o, (change o).destructed = o.destructed) :
    (w.modify id change).isDestructed a = w.isDestructed a := by
  simp only [isDestructed, modify]
  by_cases same : a = id
  · subst same
    rw [Function.update_self, Option.all_map]
    congr 1
    funext o
    exact destructed o
  · rw [Function.update_of_ne same]

/-- A change of other members. -/
theorem link_modify_kept (freed : ∀ o, (change o).freed = o.freed)
    (kept : ∀ o, member (change o) = member o) :
    (w.modify id change).link a member = w.link a member := by
  rw [link, lock_modify freed, link]
  congr 1
  simp only [modify]
  by_cases same : a = id
  · subst same
    rw [Function.update_self]
    cases w.objects a with
    | none => rfl
    | some o => exact kept o
  · rw [Function.update_of_ne same]

/-- A change that sets a member. -/
theorem link_modify_set (freed : ∀ o, (change o).freed = o.freed)
    (set : ∀ o, member (change o) = v) (held : w.held id = true) :
    (w.modify id change).link a member = if a = id then w.lock v else w.link a member := by
  rw [link, lock_modify freed]
  simp only [modify]
  by_cases same : a = id
  · subst same
    rw [Function.update_self, if_pos rfl]
    rcases (Option.any_eq_true _ _).mp held with ⟨o, here, _⟩
    rw [here]
    exact congrArg w.lock (set o)
  · rw [Function.update_of_ne same, if_neg same, link]

theorem held_of_lock (locked : w.lock weak = some id) : w.held id = true :=
  (Option.filter_eq_some_iff.mp locked).2

theorem held_of_link (linked : w.link a member = some id) : w.held id = true :=
  held_of_lock linked

theorem lock_of_held (held : w.held id = true) : w.lock (some id) = some id :=
  Option.filter_eq_some_iff.mpr ⟨rfl, held⟩

/-- Locking again changes nothing. -/
theorem lock_link : w.lock (w.link a member) = w.link a member := by
  cases linked : w.link a member with
  | none => rfl
  | some id => exact lock_of_held (held_of_link linked)

/-- A change of the object that a link leads to. -/
theorem held_modifyLinked (freed : ∀ o, (change o).freed = o.freed) :
    (w.modifyLinked weak change).held a = w.held a := by
  cases weak with
  | none => rfl
  | some id => exact held_modify freed

theorem isDestructed_modifyLinked (destructed : ∀ o, (change o).destructed = o.destructed) :
    (w.modifyLinked weak change).isDestructed a = w.isDestructed a := by
  cases weak with
  | none => rfl
  | some id => exact isDestructed_modify destructed

theorem link_modifyLinked_kept (freed : ∀ o, (change o).freed = o.freed)
    (kept : ∀ o, member (change o) = member o) :
    (w.modifyLinked weak change).link a member = w.link a member := by
  cases weak with
  | none => rfl
  | some id => exact link_modify_kept freed kept

theorem link_modifyLinked_set (freed : ∀ o, (change o).freed = o.freed)
    (set : ∀ o, member (change o) = v) (locked : w.lock weak = weak) :
    (w.modifyLinked weak change).link a member =
      if weak = some a then w.lock v else w.link a member := by
  cases weak with
  | none => rfl
  | some id =>
      rw [modifyLinked, link_modify_set freed set (held_of_lock locked)]
      simp only [Option.some.injEq, eq_comm]

end Modify

end World

end Kjdmud.Object

namespace Kjdmud.Object.Shadow

/-! ## Equal shadows -/

/-- What shadows are about is the same in both worlds. -/
structure SameShadows (w w' : World) : Prop where
  held : ∀ a, w'.held a = w.held a
  destructed : ∀ a, w'.isDestructed a = w.isDestructed a
  shadowing : ∀ a, w'.link a LpcObject.shadowing = w.link a LpcObject.shadowing
  shadowedBy : ∀ a, w'.link a LpcObject.shadowedBy = w.link a LpcObject.shadowedBy

namespace SameShadows

variable {w w' w'' : World}

theorem refl : SameShadows w w :=
  ⟨fun _ => rfl, fun _ => rfl, fun _ => rfl, fun _ => rfl⟩

theorem trans (first : SameShadows w w') (second : SameShadows w' w'') : SameShadows w w'' where
  held a := (second.held a).trans (first.held a)
  destructed a := (second.destructed a).trans (first.destructed a)
  shadowing a := (second.shadowing a).trans (first.shadowing a)
  shadowedBy a := (second.shadowedBy a).trans (first.shadowedBy a)

/-- Objects with other members changed. -/
theorem of_objects (same : w'.objects = w.objects) : SameShadows w w' where
  held a := by simp only [World.held, same]
  destructed a := by simp only [World.isDestructed, same]
  shadowing a := by simp only [World.link, World.lock, same]
  shadowedBy a := by simp only [World.link, World.lock, same]

variable {change : LpcObject → LpcObject}
  (kept : ∀ o, (change o).freed = o.freed ∧ (change o).destructed = o.destructed ∧
    (change o).shadowing = o.shadowing ∧ (change o).shadowedBy = o.shadowedBy)

include kept

theorem modify (id : ObjectId) : SameShadows w (w.modify id change) where
  held _ := World.held_modify fun o => (kept o).1
  destructed _ := World.isDestructed_modify fun o => (kept o).2.1
  shadowing _ := World.link_modify_kept (fun o => (kept o).1) fun o => (kept o).2.2.1
  shadowedBy _ := World.link_modify_kept (fun o => (kept o).1) fun o => (kept o).2.2.2

theorem modifyLinked (weak : Option ObjectId) : SameShadows w (w.modifyLinked weak change) := by
  cases weak with
  | none => exact refl
  | some id => exact modify kept id

end SameShadows

/-! ## Links after an operation -/

/-- The links of shadows that a world has after an operation: its memory and its flags are
those of `w`. -/
structure Linked (w : World) (shadowing shadowedBy : ObjectId → Option ObjectId) (w' : World) :
    Prop where
  held : ∀ a, w'.held a = w.held a
  destructed : ∀ a, w'.isDestructed a = w.isDestructed a
  shadowing : ∀ a, w'.link a LpcObject.shadowing = shadowing a
  shadowedBy : ∀ a, w'.link a LpcObject.shadowedBy = shadowedBy a

namespace Linked

variable {w w' : World} {f g : ObjectId → Option ObjectId}

theorem self : Linked w (w.link · LpcObject.shadowing) (w.link · LpcObject.shadowedBy) w :=
  ⟨fun _ => rfl, fun _ => rfl, fun _ => rfl, fun _ => rfl⟩

theorem lock (linked : Linked w f g w') (weak : Option ObjectId) :
    w'.lock weak = w.lock weak := by
  have held := linked.held
  simp only [World.held] at held
  simp only [World.lock, held]

theorem same (linked : Linked w f g w') {w'' : World} (same : SameShadows w' w'') :
    Linked w f g w'' where
  held a := (same.held a).trans (linked.held a)
  destructed a := (same.destructed a).trans (linked.destructed a)
  shadowing a := (same.shadowing a).trans (linked.shadowing a)
  shadowedBy a := (same.shadowedBy a).trans (linked.shadowedBy a)

/-- The links of `setShadowing`. -/
theorem setShadowing (linked : Linked w f g w') (weak : Option ObjectId)
    (locked : w.lock weak = weak) (v : Option ObjectId) :
    Linked w (fun a => if weak = some a then w.lock v else f a) g
      (w'.modifyLinked weak fun o => { o with shadowing := v }) where
  held a := (World.held_modifyLinked (by intro o; rfl)).trans (linked.held a)
  destructed a := (World.isDestructed_modifyLinked (by intro o; rfl)).trans (linked.destructed a)
  shadowing a := by
    rw [World.link_modifyLinked_set (by intro o; rfl) (by intro o; rfl)
      ((linked.lock weak).trans locked), linked.lock, linked.shadowing]
  shadowedBy a :=
    (World.link_modifyLinked_kept (by intro o; rfl) (by intro o; rfl)).trans (linked.shadowedBy a)

/-- The links of `setShadowedBy`. -/
theorem setShadowedBy (linked : Linked w f g w') (weak : Option ObjectId)
    (locked : w.lock weak = weak) (v : Option ObjectId) :
    Linked w f (fun a => if weak = some a then w.lock v else g a)
      (w'.modifyLinked weak fun o => { o with shadowedBy := v }) where
  held a := (World.held_modifyLinked (by intro o; rfl)).trans (linked.held a)
  destructed a := (World.isDestructed_modifyLinked (by intro o; rfl)).trans (linked.destructed a)
  shadowing a :=
    (World.link_modifyLinked_kept (by intro o; rfl) (by intro o; rfl)).trans (linked.shadowing a)
  shadowedBy a := by
    rw [World.link_modifyLinked_set (by intro o; rfl) (by intro o; rfl)
      ((linked.lock weak).trans locked), linked.lock, linked.shadowedBy]

theorem clear (linked : Linked w f g w') {obj : ObjectId} (held : w.held obj = true) :
    Linked w (fun a => if a = obj then none else f a) (fun a => if a = obj then none else g a)
      (clearShadow w' obj) where
  held a := (World.held_modify (by intro o; rfl)).trans (linked.held a)
  destructed a := (World.isDestructed_modify (by intro o; rfl)).trans (linked.destructed a)
  shadowing a := by
    rw [clearShadow, World.link_modify_set (by intro o; rfl) (by intro o; rfl)
      ((linked.held obj).trans held), linked.shadowing]
    rfl
  shadowedBy a := by
    rw [clearShadow, World.link_modify_set (by intro o; rfl) (by intro o; rfl)
      ((linked.held obj).trans held), linked.shadowedBy]
    rfl

end Linked

/-! ## Taking an object out of its chain -/

section Splice

variable {w : World} {obj : ObjectId}

/-- The links without an object, whose neighbours have each other. -/
def splicedShadowing (w : World) (obj a : ObjectId) : Option ObjectId :=
  if a = obj then none
  else if w.link obj LpcObject.shadowedBy = some a then w.link obj LpcObject.shadowing
  else w.link a LpcObject.shadowing

def splicedShadowedBy (w : World) (obj a : ObjectId) : Option ObjectId :=
  if a = obj then none
  else if w.link obj LpcObject.shadowing = some a then w.link obj LpcObject.shadowedBy
  else w.link a LpcObject.shadowedBy

/-- An object is taken out of its chain. -/
abbrev Spliced (w : World) (obj : ObjectId) (w' : World) : Prop :=
  Linked w (splicedShadowing w obj) (splicedShadowedBy w obj) w'

/-- Two neighbours are linked, and an object is cleared: what all the ways to take an object out
of its chain come to.  The new link down may be the `weak_ptr` of the object itself. -/
theorem spliced_of_links (held : w.held obj = true) (below : Option ObjectId)
    (locked : w.lock below = w.link obj LpcObject.shadowing) :
    Spliced w obj
      (clearShadow
        ((w.modifyLinked (w.link obj LpcObject.shadowing) fun o =>
          { o with shadowedBy := w.link obj LpcObject.shadowedBy }).modifyLinked
            (w.link obj LpcObject.shadowedBy) fun o => { o with shadowing := below })
        obj) := by
  have spliced := ((Linked.self.setShadowedBy (w.link obj LpcObject.shadowing) World.lock_link
    (w.link obj LpcObject.shadowedBy)).setShadowing (w.link obj LpcObject.shadowedBy)
      World.lock_link below).clear held
  rw [World.lock_link, locked] at spliced
  exact spliced

theorem spliced_unlinkShadow (held : w.held obj = true) : Spliced w obj (unlinkShadow w obj) := by
  have raw : ((w.modifyLinked (w.link obj LpcObject.shadowing) fun o =>
      { o with shadowedBy := w.link obj LpcObject.shadowedBy }).objects obj).bind
        LpcObject.shadowing = (w.objects obj).bind LpcObject.shadowing := by
    cases below : w.link obj LpcObject.shadowing with
    | none => rfl
    | some id =>
        simp only [World.modifyLinked, World.modify]
        by_cases same : obj = id
        · subst same
          rw [Function.update_self]
          cases w.objects obj <;> rfl
        · rw [Function.update_of_ne same]
  unfold unlinkShadow
  simp only [raw]
  exact spliced_of_links held _ rfl

/-- An object in no chain is out of it. -/
theorem spliced_alone (shadowing : w.link obj LpcObject.shadowing = none)
    (shadowedBy : w.link obj LpcObject.shadowedBy = none) : Spliced w obj w := by
  constructor
  · exact fun _ => rfl
  · exact fun _ => rfl
  · intro a
    rw [splicedShadowing, shadowedBy]
    split
    · rename_i same
      rw [same, shadowing]
    · rfl
  · intro a
    rw [splicedShadowedBy, shadowing]
    split
    · rename_i same
      rw [same, shadowedBy]
    · rfl

theorem spliced_removeShadow (held : w.held obj = true) :
    Spliced w obj (removeShadow w obj) := by
  unfold removeShadow
  simp only
  split
  · rename_i alone
    simp only [Bool.and_eq_true, Option.isNone_iff_eq_none] at alone
    exact spliced_alone alone.2 alone.1
  · exact spliced_of_links held _ World.lock_link

theorem spliced_unshadow (held : w.held obj = true)
    (shadows : w.link obj LpcObject.shadowing ≠ none) : Spliced w obj (unshadow w obj) := by
  unfold unshadow
  split
  · rename_i none_
    exact absurd none_ shadows
  · rename_i victim below
    have spliced := spliced_of_links held (some victim)
      (by rw [below, World.lock_of_held (World.held_of_link below)])
    rw [below] at spliced
    exact spliced

theorem spliced_replaceProgram (held : w.held obj = true) (stored : Str)
    (live : w.isDestructed obj = false) (shadows : w.link obj LpcObject.shadowing ≠ none) :
    Spliced w obj (replaceProgram w obj stored) := by
  unfold replaceProgram
  rw [if_neg (by rw [live]; exact Bool.false_ne_true)]
  refine Linked.same ?_ (SameShadows.modify (by intro o; exact ⟨rfl, rfl, rfl, rfl⟩) obj)
  split
  · rename_i none_
    exact absurd none_ shadows
  · rename_i target below
    have locked : w.lock (some target) = some target :=
      World.lock_of_held (World.held_of_link below)
    have first := Linked.self.setShadowedBy (some target) locked
      (w.link obj LpcObject.shadowedBy)
    rw [World.lock_link] at first
    cases above : w.link obj LpcObject.shadowedBy with
    | none =>
        simp only
        have done := first.setShadowing (some obj) (World.lock_of_held held) none
        rw [above] at done
        constructor
        · exact done.held
        · exact done.destructed
        · intro a
          rw [splicedShadowing, above]
          refine (done.shadowing a).trans ?_
          simp only [Option.some.injEq, eq_comm (a := obj), reduceCtorEq, if_false]
          rfl
        · intro a
          rw [splicedShadowedBy, above, below]
          refine (done.shadowedBy a).trans ?_
          by_cases same : a = obj
          · subst same
            rw [above]
            simp
          · rw [if_neg same]
    | some shadower =>
        simp only
        have locked' : w.lock (some shadower) = some shadower :=
          World.lock_of_held (World.held_of_link above)
        have done := ((first.setShadowing (some shadower) locked' (some target)).setShadowedBy
          (some obj) (World.lock_of_held held) none).setShadowing (some obj)
            (World.lock_of_held held) none
        rw [locked, above] at done
        constructor
        · exact done.held
        · exact done.destructed
        · intro a
          rw [splicedShadowing, above, below]
          refine (done.shadowing a).trans ?_
          simp only [Option.some.injEq, eq_comm (a := obj)]
          rfl
        · intro a
          rw [splicedShadowedBy, above, below]
          refine (done.shadowedBy a).trans ?_
          simp only [Option.some.injEq, eq_comm (a := obj)]
          rfl

end Splice

end Kjdmud.Object.Shadow
