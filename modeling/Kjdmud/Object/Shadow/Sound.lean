import Kjdmud.Object.Shadow.Links

/-!
# Sound shadows

The links of shadows between live objects form chains, and objects that are not live have
none.  Every operation on shadows is an operation on chains, so this file says for each of
them when it keeps that.
-/

namespace Kjdmud.Object.Shadow

open Relation

/-! ## The invariant -/

/-- The chains of the live objects. -/
def chains (w : World) : Chains ObjectId where
  up a := if w.live a then w.link a LpcObject.shadowedBy else none
  down a := if w.live a then w.link a LpcObject.shadowing else none

/-- An object that lies below a bound with its links. -/
structure Below (n : ObjectId) (o : LpcObject) : Prop where
  shadowing : ∀ x, o.shadowing = some x → x < n
  shadowedBy : ∀ x, o.shadowedBy = some x → x < n

/-- Every object, and everything a link leads to, was constructed. -/
def Bounded (w : World) : Prop :=
  ∀ a o, w.objects a = some o → a < w.next ∧ Below w.next o

structure Sound (w : World) : Prop where
  chains : (chains w).Sound
  cleared : ∀ a, w.held a = true → w.isDestructed a = true →
    w.link a LpcObject.shadowing = none ∧ w.link a LpcObject.shadowedBy = none
  bounded : Bounded w

section Bounded

variable {w : World} {change : LpcObject → LpcObject}

theorem Bounded.modify (bounded : Bounded w) (id : ObjectId)
    (below : ∀ o, Below w.next o → Below w.next (change o)) :
    Bounded (w.modify id change) := by
  intro a o here
  simp only [World.modify] at here ⊢
  by_cases same : a = id
  · subst same
    rw [Function.update_self] at here
    rcases Option.map_eq_some_iff.mp here with ⟨before, there, rfl⟩
    exact ⟨(bounded a before there).1, below before (bounded a before there).2⟩
  · rw [Function.update_of_ne same] at here
    exact bounded a o here

theorem Bounded.modifyLinked (bounded : Bounded w) (weak : Option ObjectId)
    (below : ∀ o, Below w.next o → Below w.next (change o)) :
    Bounded (w.modifyLinked weak change) := by
  cases weak with
  | none => exact bounded
  | some id => exact bounded.modify id below

theorem Bounded.lt_of_held (bounded : Bounded w) {a : ObjectId} (held : w.held a = true) :
    a < w.next := by
  rcases (Option.any_eq_true _ _).mp held with ⟨o, here, _⟩
  exact (bounded a o here).1

theorem Bounded.link_lt (bounded : Bounded w) {a x : ObjectId}
    {member : LpcObject → Option ObjectId} (link : w.link a member = some x) : x < w.next :=
  bounded.lt_of_held (World.held_of_link link)

theorem next_modifyLinked (weak : Option ObjectId) :
    (w.modifyLinked weak change).next = w.next := by
  cases weak <;> rfl

/-- `setShadowing`. -/
theorem Bounded.setShadowing (bounded : Bounded w) (weak : Option ObjectId)
    {v : Option ObjectId} (below : ∀ x, v = some x → x < w.next) :
    Bounded (w.modifyLinked weak fun o => { o with shadowing := v }) :=
  bounded.modifyLinked weak fun _ before => ⟨below, before.shadowedBy⟩

/-- `setShadowedBy`. -/
theorem Bounded.setShadowedBy (bounded : Bounded w) (weak : Option ObjectId)
    {v : Option ObjectId} (below : ∀ x, v = some x → x < w.next) :
    Bounded (w.modifyLinked weak fun o => { o with shadowedBy := v }) :=
  bounded.modifyLinked weak fun _ before => ⟨before.shadowing, below⟩

theorem Bounded.clear (bounded : Bounded w) (id : ObjectId) : Bounded (clearShadow w id) := by
  apply bounded.modify
  intro o _
  constructor
  · rintro x ⟨⟩
  · rintro x ⟨⟩

/-- Other members. -/
theorem Bounded.other (bounded : Bounded w) (weak : Option ObjectId)
    (kept : ∀ o, (change o).shadowing = o.shadowing ∧ (change o).shadowedBy = o.shadowedBy) :
    Bounded (w.modifyLinked weak change) := by
  apply bounded.modifyLinked
  intro o before
  constructor
  · rw [(kept o).1]
    exact before.shadowing
  · rw [(kept o).2]
    exact before.shadowedBy

end Bounded

/-! ## What a sound world has -/

section Sound

variable {w : World} (sound : Sound w)

include sound

theorem Sound.up_eq {a : ObjectId} (held : w.held a = true) :
    (Shadow.chains w).up a = w.link a LpcObject.shadowedBy := by
  simp only [Shadow.chains]
  split
  · rfl
  · rename_i dead
    have destructed : w.isDestructed a = true := by
      simpa [World.live, held] using dead
    exact (sound.cleared a held destructed).2.symm

theorem Sound.down_eq {a : ObjectId} (held : w.held a = true) :
    (Shadow.chains w).down a = w.link a LpcObject.shadowing := by
  simp only [Shadow.chains]
  split
  · rfl
  · rename_i dead
    have destructed : w.isDestructed a = true := by
      simpa [World.live, held] using dead
    exact (sound.cleared a held destructed).1.symm

omit sound in
theorem live_of_up {a b : ObjectId} (link : (Shadow.chains w).up a = some b) :
    w.live a = true := by
  by_contra dead
  simp only [Shadow.chains, dead] at link
  cases link

omit sound in
theorem live_of_down {a b : ObjectId} (link : (Shadow.chains w).down a = some b) :
    w.live a = true := by
  by_contra dead
  simp only [Shadow.chains, dead] at link
  cases link

omit sound in
theorem held_of_live {a : ObjectId} (live : w.live a = true) : w.held a = true :=
  (Bool.and_eq_true_iff.mp live).1

/-- What a link of a held object leads to is live. -/
theorem Sound.live_of_shadowing {a b : ObjectId} (held : w.held a = true)
    (link : w.link a LpcObject.shadowing = some b) : w.live b = true := by
  rw [← sound.down_eq held] at link
  exact live_of_up ((sound.chains.mutual_ a b).mp link)

theorem Sound.live_of_shadowedBy {a b : ObjectId} (held : w.held a = true)
    (link : w.link a LpcObject.shadowedBy = some b) : w.live b = true := by
  rw [← sound.up_eq held] at link
  exact live_of_down ((sound.chains.mutual_ b a).mpr link)

/-- The two links of held objects fit together. -/
theorem Sound.link_iff {a b : ObjectId} (held : w.held a = true) (held' : w.held b = true) :
    w.link a LpcObject.shadowing = some b ↔ w.link b LpcObject.shadowedBy = some a := by
  rw [← sound.down_eq held, ← sound.up_eq held']
  exact sound.chains.mutual_ a b

/-! ## Operations -/

omit sound in
theorem Linked.live {f g : ObjectId → Option ObjectId} {w' : World} (linked : Linked w f g w')
    (a : ObjectId) : w'.live a = w.live a := by
  rw [World.live, World.live, linked.held, linked.destructed]

/-- An object is out of its chain. -/
theorem Sound.chains_spliced {obj : ObjectId} {w' : World} (spliced : Spliced w obj w')
    (held : w.held obj = true) : Shadow.chains w' = (Shadow.chains w).splice obj := by
  have up (a : ObjectId) : (Shadow.chains w').up a = ((Shadow.chains w).splice obj).up a := by
    simp only [Shadow.chains, Chains.splice, spliced.live, spliced.shadowedBy]
    change _ = if a = obj then none else if (Shadow.chains w).down obj = some a then
      (Shadow.chains w).up obj else (Shadow.chains w).up a
    rw [sound.down_eq held, sound.up_eq held, splicedShadowedBy]
    split
    · rename_i live
      split
      · rfl
      · split
        · rfl
        · simp only [Shadow.chains, live, if_true]
    · rename_i dead
      split
      · rfl
      · split
        · rename_i below
          exact absurd (sound.live_of_shadowing held below) dead
        · simp only [Shadow.chains, dead]
          rfl
  have down (a : ObjectId) :
      (Shadow.chains w').down a = ((Shadow.chains w).splice obj).down a := by
    simp only [Shadow.chains, Chains.splice, spliced.live, spliced.shadowing]
    change _ = if a = obj then none else if (Shadow.chains w).up obj = some a then
      (Shadow.chains w).down obj else (Shadow.chains w).down a
    rw [sound.down_eq held, sound.up_eq held, splicedShadowing]
    split
    · rename_i live
      split
      · rfl
      · split
        · rfl
        · simp only [Shadow.chains, live, if_true]
    · rename_i dead
      split
      · rfl
      · split
        · rename_i above
          exact absurd (sound.live_of_shadowedBy held above) dead
        · simp only [Shadow.chains, dead]
          rfl
  exact Chains.ext (funext up) (funext down)

theorem Sound.spliced {obj : ObjectId} {w' : World} (spliced : Spliced w obj w')
    (held : w.held obj = true) (bounded : Bounded w') : Sound w' where
  chains := by
    rw [sound.chains_spliced spliced held]
    exact sound.chains.splice obj
  cleared := by
    intro a held' destructed
    rw [spliced.held] at held'
    rw [spliced.destructed] at destructed
    rw [spliced.shadowing, spliced.shadowedBy, splicedShadowing, splicedShadowedBy]
    have before := sound.cleared a held' destructed
    have dead : w.live a = false := by rw [World.live, held', destructed]; rfl
    constructor
    · split
      · rfl
      · split
        · rename_i above
          rw [sound.live_of_shadowedBy held above] at dead
          cases dead
        · exact before.1
    · split
      · rfl
      · split
        · rename_i below
          rw [sound.live_of_shadowing held below] at dead
          cases dead
        · exact before.2
  bounded := bounded

/-- Other members change. -/
theorem Sound.same {w' : World} (same : SameShadows w w') (bounded : Bounded w') :
    Sound w' where
  chains := by
    have live (a : ObjectId) : w'.live a = w.live a := by
      rw [World.live, World.live, same.held, same.destructed]
    have unchanged : Shadow.chains w' = Shadow.chains w := by
      simp only [Shadow.chains, live, same.shadowing, same.shadowedBy]
    rw [unchanged]
    exact sound.chains
  cleared a held destructed := by
    rw [same.held] at held
    rw [same.destructed] at destructed
    rw [same.shadowing, same.shadowedBy]
    exact sound.cleared a held destructed
  bounded := bounded

omit sound in
/-- The links after the driver dropped the one below an object of a cascade. -/
theorem linked_cutBelow {top : ObjectId} (held : w.held top = true) :
    Linked w (fun a => if some top = some a then none else w.link a LpcObject.shadowing)
      (fun a => if w.link top LpcObject.shadowing = some a then none
        else w.link a LpcObject.shadowedBy) (State.cutBelow w top) :=
  (Linked.self.setShadowedBy (w.link top LpcObject.shadowing) World.lock_link none).setShadowing
    (some top) (World.lock_of_held held) none

theorem Sound.cutBelow {top : ObjectId} (held : w.held top = true) :
    Sound (State.cutBelow w top) := by
  have linked := linked_cutBelow held
  have cut : Shadow.chains (State.cutBelow w top) = (Shadow.chains w).cut top := by
    apply Chains.ext
    · funext a
      simp only [Chains.cut, sound.down_eq held]
      simp only [Shadow.chains, linked.live, linked.shadowedBy]
      split
      · rfl
      · split <;> rfl
    · funext a
      simp only [Chains.cut]
      simp only [Shadow.chains, linked.live, linked.shadowing, Option.some.injEq,
        eq_comm (a := top)]
      split
      · rfl
      · split <;> rfl
  constructor
  · rw [cut]
    exact sound.chains.cut top
  · intro a held' destructed
    rw [linked.held] at held'
    rw [linked.destructed] at destructed
    have before := sound.cleared a held' destructed
    rw [linked.shadowing, linked.shadowedBy, before.1, before.2]
    constructor
    · split <;> rfl
    · split <;> rfl
  · refine Bounded.setShadowing (Bounded.setShadowedBy sound.bounded _ ?_) (some top) ?_
    · rintro x ⟨⟩
    · rintro x ⟨⟩

end Sound

/-! ## Destruction, construction and release -/

/-- What the rest of `destructObject` does to shadows: an object is destructed. -/
structure Retired (w : World) (obj : ObjectId) (w' : World) : Prop where
  held : ∀ a, w'.held a = w.held a
  destructed : ∀ a, w'.isDestructed a = (w.isDestructed a || a == obj)
  shadowing : ∀ a, w'.link a LpcObject.shadowing = w.link a LpcObject.shadowing
  shadowedBy : ∀ a, w'.link a LpcObject.shadowedBy = w.link a LpcObject.shadowedBy

section Retire

variable {w w' : World} {obj : ObjectId}

theorem Retired.same {w'' : World} (retired : Retired w obj w') (same : SameShadows w' w'') :
    Retired w obj w'' where
  held a := (same.held a).trans (retired.held a)
  destructed a := (same.destructed a).trans (retired.destructed a)
  shadowing a := (same.shadowing a).trans (retired.shadowing a)
  shadowedBy a := (same.shadowedBy a).trans (retired.shadowedBy a)

theorem SameShadows.retired {w'' : World} (same : SameShadows w w')
    (retired : Retired w' obj w'') : Retired w obj w'' where
  held a := (retired.held a).trans (same.held a)
  destructed a := by rw [retired.destructed, same.destructed]
  shadowing a := (retired.shadowing a).trans (same.shadowing a)
  shadowedBy a := (retired.shadowedBy a).trans (same.shadowedBy a)

/-- `setDestructed`. -/
theorem retired_modify {change : LpcObject → LpcObject}
    (kept : ∀ o, (change o).freed = o.freed ∧ (change o).shadowing = o.shadowing ∧
      (change o).shadowedBy = o.shadowedBy) (destructed : ∀ o, (change o).destructed = true) :
    Retired w obj (w.modify obj change) where
  held _ := World.held_modify fun o => (kept o).1
  destructed a := by
    simp only [World.isDestructed, World.modify]
    by_cases same : a = obj
    · subst same
      rw [Function.update_self, Option.all_map, beq_self_eq_true, Bool.or_true]
      cases w.objects a with
      | none => rfl
      | some o => exact destructed o
    · rw [Function.update_of_ne same, beq_false_of_ne same, Bool.or_false]
  shadowing _ := World.link_modify_kept (fun o => (kept o).1) fun o => (kept o).2.1
  shadowedBy _ := World.link_modify_kept (fun o => (kept o).1) fun o => (kept o).2.2

theorem retired_retire (w : World) (obj : ObjectId) : Retired w obj (retire w obj) := by
  have erased (w : World) : (eraseFilename w obj).objects = w.objects := by
    unfold eraseFilename
    split <;> rfl
  have flagged : Retired w obj
      ((w.modifyLinked (w.link obj LpcObject.snooping) fun o => { o with snoopedBy := none }).modify
        obj fun o =>
          { o with snooping := none, destructed := true, replacedProgramName := none }) :=
    SameShadows.retired (.modifyLinked (by intro o; exact ⟨rfl, rfl, rfl, rfl⟩) _)
      (retired_modify (by intro o; exact ⟨rfl, rfl, rfl⟩) (by intro o; rfl))
  unfold retire detach
  refine Retired.same ?_ (.of_objects (erased _))
  refine Retired.same ?_ (.modify (by intro o; exact ⟨rfl, rfl, rfl, rfl⟩) obj)
  refine Retired.same ?_ (.modifyLinked (by intro o; exact ⟨rfl, rfl, rfl, rfl⟩) _)
  exact flagged.same (.of_objects rfl)

theorem Bounded.retire (bounded : Bounded w) (obj : ObjectId) : Bounded (retire w obj) := by
  have erased (w : World) : (eraseFilename w obj).objects = w.objects ∧
      (eraseFilename w obj).next = w.next := by
    unfold eraseFilename
    split <;> exact ⟨rfl, rfl⟩
  have detached : Bounded (detach w obj) := by
    unfold detach
    refine Bounded.other ?_ (some obj) ?_
    · refine Bounded.other ?_ _ (by intro o; exact ⟨rfl, rfl⟩)
      exact Bounded.other (Bounded.other bounded _ (by intro o; exact ⟨rfl, rfl⟩)) (some obj)
        (by intro o; exact ⟨rfl, rfl⟩)
    · intro o
      exact ⟨rfl, rfl⟩
  intro a o here
  unfold Object.retire at here ⊢
  simp only [(erased _).1, (erased _).2] at here ⊢
  exact detached a o here

/-- An object without shadows is destructed. -/
theorem Sound.retired (sound : Sound w) (retired : Retired w obj w') (bounded : Bounded w')
    (alone : w.held obj = true → w.link obj LpcObject.shadowing = none ∧
      w.link obj LpcObject.shadowedBy = none) : Sound w' where
  chains := by
    have live (a : ObjectId) : w'.live a = (w.live a && !(a == obj)) := by
      rw [World.live, World.live, retired.held, retired.destructed]
      cases w.held a <;> cases w.isDestructed a <;> cases a == obj <;> rfl
    have unchanged : Shadow.chains w' = Shadow.chains w := by
      apply Chains.ext
      · funext a
        simp only [Shadow.chains, live, retired.shadowedBy]
        by_cases same : a = obj
        · subst same
          by_cases alive : w.live a = true
          · rw [(alone (held_of_live alive)).2, ite_self, ite_self]
          · simp [alive]
        · simp [same]
      · funext a
        simp only [Shadow.chains, live, retired.shadowing]
        by_cases same : a = obj
        · subst same
          by_cases alive : w.live a = true
          · rw [(alone (held_of_live alive)).1, ite_self, ite_self]
          · simp [alive]
        · simp [same]
    rw [unchanged]
    exact sound.chains
  cleared a held destructed := by
    rw [retired.held] at held
    rw [retired.destructed, Bool.or_eq_true] at destructed
    rw [retired.shadowing, retired.shadowedBy]
    rcases destructed with before | same
    · exact sound.cleared a held before
    · cases beq_iff_eq.mp same
      exact alone held
  bounded := bounded

/-- A new object. -/
theorem Sound.construct (sound : Sound w) (filename : Str) : Sound (w.construct filename) := by
  have fresh : w.objects w.next = none := by
    cases here : w.objects w.next with
    | none => rfl
    | some o => exact absurd (sound.bounded _ o here).1 (Nat.lt_irrefl _)
  have lock {weak : Option ObjectId} (old : ∀ x, weak = some x → x < w.next) :
      (w.construct filename).lock weak = w.lock weak := by
    cases weak with
    | none => rfl
    | some x =>
        have differs : x ≠ w.next := Nat.ne_of_lt (old x rfl)
        simp only [World.lock, World.construct, Option.filter, Function.update_of_ne differs]
  have link (member : LpcObject → Option ObjectId) (none_ : member { filename } = none)
      (old : ∀ a o, w.objects a = some o → ∀ x, member o = some x → x < w.next) (a : ObjectId) :
      (w.construct filename).link a member = w.link a member := by
    by_cases same : a = w.next
    · subst same
      simp only [World.link, fresh]
      simp only [World.construct, Function.update_self, Option.bind_some, none_]
      rfl
    · have there : (w.construct filename).objects a = w.objects a :=
        Function.update_of_ne same ..
      rw [World.link, there, World.link]
      apply lock
      intro x linked
      rcases Option.bind_eq_some_iff.mp linked with ⟨o, here, member⟩
      exact old a o here x member
  have shadowing := link LpcObject.shadowing rfl fun a o here => (sound.bounded a o here).2.shadowing
  have shadowedBy := link LpcObject.shadowedBy rfl fun a o here =>
    (sound.bounded a o here).2.shadowedBy
  have none_ (member : LpcObject → Option ObjectId) : w.link w.next member = none := by
    rw [World.link, fresh]
    rfl
  have live {a : ObjectId} (differs : a ≠ w.next) : (w.construct filename).live a = w.live a := by
    simp only [World.live, World.held, World.isDestructed, World.construct,
      Function.update_of_ne differs]
  constructor
  · have unchanged : Shadow.chains (w.construct filename) = Shadow.chains w := by
      apply Chains.ext
      · funext a
        simp only [Shadow.chains, shadowedBy]
        by_cases same : a = w.next
        · rw [same, none_, ite_self, ite_self]
        · rw [live same]
      · funext a
        simp only [Shadow.chains, shadowing]
        by_cases same : a = w.next
        · rw [same, none_, ite_self, ite_self]
        · rw [live same]
    rw [unchanged]
    exact sound.chains
  · intro a held destructed
    rw [shadowing, shadowedBy]
    by_cases same : a = w.next
    · rw [same]
      exact ⟨none_ _, none_ _⟩
    · simp only [World.held, World.isDestructed, World.construct,
        Function.update_of_ne same] at held destructed
      exact sound.cleared a held destructed
  · intro a o here
    have grown : (w.construct filename).next = w.next + 1 := rfl
    rw [grown]
    by_cases same : a = w.next
    · subst same
      simp only [World.construct, Function.update_self, Option.some.injEq] at here
      subst here
      refine ⟨Nat.lt_succ_self _, ?_⟩
      constructor
      · rintro x ⟨⟩
      · rintro x ⟨⟩
    · simp only [World.construct, Function.update_of_ne same] at here
      rcases sound.bounded a o here with ⟨old, below⟩
      refine ⟨Nat.lt_succ_of_lt old, ?_⟩
      constructor
      · exact fun x link => Nat.lt_succ_of_lt (below.shadowing x link)
      · exact fun x link => Nat.lt_succ_of_lt (below.shadowedBy x link)

end Retire

end Kjdmud.Object.Shadow
