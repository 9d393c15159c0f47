import Kjdmud.Object.Shadow.Operations

/-!
# The cascade of a reload

`reloadObject` destructs the shadows of an object from the inside out, and clears the two
links of each before it destructs it.  In between the neighbours still point to a destructed
object; when the loop ends, the whole chain is gone.
-/

namespace Kjdmud.Object.Shadow

open Relation

/-- The callback of a reload does nothing to objects. -/
def quiet : OnDestructed :=
  fun w _ => w

/-- Some objects are destructed and have no shadows any more, and one has no shadows. -/
structure Cleared (w : World) (gone : ObjectId → Bool) (w' : World) : Prop where
  held : ∀ a, w'.held a = w.held a
  destructed : ∀ a, w'.isDestructed a = (w.isDestructed a || gone a)
  shadowing : ∀ a, w'.link a LpcObject.shadowing =
    if gone a then none else w.link a LpcObject.shadowing
  shadowedBy : ∀ a, w'.link a LpcObject.shadowedBy =
    if gone a then none else w.link a LpcObject.shadowedBy

section Cleared

variable {w w' w'' : World}

theorem Cleared.trans {gone gone' : ObjectId → Bool} (first : Cleared w gone w')
    (second : Cleared w' gone' w'') : Cleared w (fun a => gone a || gone' a) w'' where
  held a := (second.held a).trans (first.held a)
  destructed a := by rw [second.destructed, first.destructed, Bool.or_assoc]
  shadowing a := by
    rw [second.shadowing, first.shadowing]
    cases gone a <;> cases gone' a <;> rfl
  shadowedBy a := by
    rw [second.shadowedBy, first.shadowedBy]
    cases gone a <;> cases gone' a <;> rfl

theorem Cleared.congr {gone gone' : ObjectId → Bool} (cleared : Cleared w gone w')
    (same : ∀ a, gone a = gone' a) : Cleared w gone' w' := by
  have equal : gone = gone' := funext same
  rw [← equal]
  exact cleared

/-- An object without shadows is destructed at once. -/
theorem destructObject_alone {obj : ObjectId} (held : w.held obj = true)
    (shadowing : w.link obj LpcObject.shadowing = none)
    (shadowedBy : w.link obj LpcObject.shadowedBy = none) (bounded : Bounded w) {fuel : Nat}
    (done : destructObject quiet fuel w obj = some w') : Retired w obj w' ∧ Bounded w' := by
  cases fuel with
  | zero => cases done
  | succ fuel =>
      unfold destructObject at done
      split at done
      · rename_i destructed
        cases done
        refine ⟨⟨fun _ => rfl, ?_, fun _ => rfl, fun _ => rfl⟩, bounded⟩
        intro a
        by_cases same : a = obj
        · rw [same, show w.isDestructed obj = true from destructed]
          rfl
        · rw [beq_false_of_ne same, Bool.or_false]
      · have notBase : isShadowBase w obj = false := by
          rw [isShadowBase, shadowedBy]
          rfl
        rw [notBase] at done
        simp only [Bool.false_eq_true, if_false, Option.some.injEq, quiet] at done
        subst done
        have spliced := spliced_unlinkShadow held
        have alone := spliced_alone shadowing shadowedBy
        have unchanged : SameShadows w (unlinkShadow w obj) := by
          constructor
          · exact spliced.held
          · exact spliced.destructed
          · exact fun a => (spliced.shadowing a).trans (alone.shadowing a).symm
          · exact fun a => (spliced.shadowedBy a).trans (alone.shadowedBy a).symm
        exact ⟨unchanged.retired (retired_retire _ obj),
          Bounded.retire (Bounded.unlinkShadow bounded) obj⟩

/-- One turn of the loop. -/
theorem reloadChain_turn {cur : ObjectId} (held : w.held cur = true) (bounded : Bounded w)
    {fuel : Nat} (done : destructObject quiet fuel (clearShadow w cur) cur = some w') :
    Cleared w (· == cur) w' ∧ Bounded w' := by
  have linked := Linked.self.clear held
  have shadowing : (clearShadow w cur).link cur LpcObject.shadowing = none :=
    (linked.shadowing cur).trans (if_pos rfl)
  have shadowedBy : (clearShadow w cur).link cur LpcObject.shadowedBy = none :=
    (linked.shadowedBy cur).trans (if_pos rfl)
  rcases destructObject_alone ((linked.held cur).trans held) shadowing shadowedBy
    (Bounded.clear bounded cur) done with ⟨retired, bounded'⟩
  refine ⟨?_, bounded'⟩
  constructor
  · exact fun a => (retired.held a).trans (linked.held a)
  · exact fun a => by rw [retired.destructed, linked.destructed]
  · exact fun a => by rw [retired.shadowing, linked.shadowing]; simp only [beq_iff_eq]
  · exact fun a => by rw [retired.shadowedBy, linked.shadowedBy]; simp only [beq_iff_eq]

/-- The loop destructs a whole chain. -/
theorem reloadChain_cleared {l : List ObjectId} : ∀ {w w' : World} {cur : ObjectId} {fuel : Nat},
    Chains.Path (w.link · LpcObject.shadowedBy) cur l → l.Nodup → w.held cur = true →
    Bounded w → reloadChain quiet fuel w (some cur) = some w' →
    Cleared w (l.contains ·) w' ∧ Bounded w' := by
  induction l with
  | nil =>
      intro w w' cur fuel path
      cases path
  | cons first rest ih =>
      intro w w' cur fuel path nodup held bounded done
      cases fuel with
      | zero => cases done
      | succ fuel =>
          rw [reloadChain] at done
          rcases Option.bind_eq_some_iff.mp done with ⟨middle, turn, behind⟩
          have one := reloadChain_turn (path.casesOn (fun _ => held) fun _ _ => held)
            bounded turn
          cases path with
          | last end_ =>
              rw [end_] at behind
              cases fuel with
              | zero => cases behind
              | succ fuel =>
                  cases behind
                  refine ⟨one.1.congr fun a => ?_, one.2⟩
                  rw [List.contains_cons]
                  exact (Bool.or_false _).symm
          | step link path =>
              rename_i next
              rw [link] at behind
              have apart := (List.nodup_cons.mp nodup).1
              have path' : Chains.Path (middle.link · LpcObject.shadowedBy) next rest := by
                apply path.congr
                intro b mem
                have differs : b ≠ first := by
                  rintro rfl
                  exact apart mem
                refine (one.1.shadowedBy b).trans ?_
                rw [if_neg (by simpa using differs)]
              have held' : middle.held next = true :=
                (one.1.held next).trans (World.held_of_link link)
              rcases ih path' (List.nodup_cons.mp nodup).2 held' one.2 behind with ⟨two, bounded'⟩
              refine ⟨(one.1.trans two).congr ?_, bounded'⟩
              intro a
              rw [List.contains_cons]

end Cleared

/-! ## A reload keeps shadows sound -/

section Reload

variable {w : World}

/-- A base of a chain loses its shadows, which are destructed. -/
theorem Sound.cleared_chain {obj cur : ObjectId} {l : List ObjectId} {w' : World}
    (sound : Sound w) (held : w.held obj = true)
    (base : w.link obj LpcObject.shadowing = none)
    (first : w.link obj LpcObject.shadowedBy = some cur)
    (path : Chains.Path (w.link · LpcObject.shadowedBy) cur l)
    (cleared : Cleared w (l.contains ·) w') (bounded : Bounded w') :
    Sound (clearShadow w' obj) := by
  have linked := (Linked.self (w := w')).clear ((cleared.held obj).trans held)
  -- What is right above something outside of the chain is outside of it.
  have closed {a b : ObjectId} (link : (Shadow.chains w).down b = some a)
      (inside : b ∈ l) : a = obj ∨ a ∈ l := by
    rcases ReflTransGen.cases_tail (path.reached inside) with rfl | ⟨c, before, link'⟩
    · rw [← sound.up_eq held] at first
      have down := (sound.chains.mutual_ b obj).mpr first
      rw [down] at link
      cases link
      exact .inl rfl
    · have mem : c ∈ l := path.mem_of_reached before
      have held' : w.held c = true := by
        rcases ReflTransGen.cases_tail before with rfl | ⟨d, _, link''⟩
        · exact World.held_of_link first
        · exact World.held_of_link link''
      rw [← sound.up_eq held'] at link'
      have down := (sound.chains.mutual_ b c).mpr link'
      rw [down] at link
      cases link
      exact .inr mem
  have live (a : ObjectId) :
      (clearShadow w' obj).live a = (w.live a && !l.contains a) := by
    rw [linked.live, World.live, World.live, cleared.held, cleared.destructed]
    cases w.held a <;> cases w.isDestructed a <;> cases l.contains a <;> rfl
  have shadowing (a : ObjectId) : (clearShadow w' obj).link a LpcObject.shadowing =
      if a = obj ∨ a ∈ l then none else w.link a LpcObject.shadowing := by
    refine (linked.shadowing a).trans ?_
    simp only [cleared.shadowing, List.contains_iff_mem]
    by_cases same : a = obj <;> by_cases mem : a ∈ l <;> simp [same, mem]
  have shadowedBy (a : ObjectId) : (clearShadow w' obj).link a LpcObject.shadowedBy =
      if a = obj ∨ a ∈ l then none else w.link a LpcObject.shadowedBy := by
    refine (linked.shadowedBy a).trans ?_
    simp only [cleared.shadowedBy, List.contains_iff_mem]
    by_cases same : a = obj <;> by_cases mem : a ∈ l <;> simp [same, mem]
  constructor
  · have forgotten : Shadow.chains (clearShadow w' obj) =
        (Shadow.chains w).forget fun a => decide (a = obj ∨ a ∈ l) := by
      apply Chains.ext
      · funext a
        simp only [Shadow.chains, Chains.forget, live, shadowedBy, decide_eq_true_eq]
        by_cases gone : a = obj ∨ a ∈ l
        · rw [if_pos gone, if_pos gone, ite_self]
        · rw [if_neg gone, if_neg gone]
          have outside : l.contains a = false := by simpa using fun mem => gone (.inr mem)
          rw [outside, Bool.not_false, Bool.and_true]
          split
          · rename_i alive
            cases above : w.link a LpcObject.shadowedBy with
            | none => rfl
            | some b =>
                have up : (Shadow.chains w).up a = some b :=
                  (sound.up_eq (held_of_live alive)).trans above
                have down := (sound.chains.mutual_ b a).mpr up
                have stays : ¬ (b = obj ∨ b ∈ l) := by
                  rintro (rfl | mem)
                  · rw [sound.down_eq held, base] at down
                    cases down
                  · exact gone (closed down mem)
                exact (Option.filter_eq_some_iff.mpr ⟨rfl, by simpa using stays⟩).symm
          · rfl
      · funext a
        simp only [Shadow.chains, Chains.forget, live, shadowing, decide_eq_true_eq]
        by_cases gone : a = obj ∨ a ∈ l
        · rw [if_pos gone, if_pos gone, ite_self]
        · rw [if_neg gone, if_neg gone]
          have outside : l.contains a = false := by simpa using fun mem => gone (.inr mem)
          rw [outside, Bool.not_false, Bool.and_true]
          split
          · rename_i alive
            cases below : w.link a LpcObject.shadowing with
            | none => rfl
            | some b =>
                have down : (Shadow.chains w).down a = some b :=
                  (sound.down_eq (held_of_live alive)).trans below
                have up := (sound.chains.mutual_ a b).mp down
                have stays : ¬ (b = obj ∨ b ∈ l) := by
                  rintro (rfl | mem)
                  · rw [sound.up_eq held, first] at up
                    cases up
                    exact gone (.inr path.mem_self)
                  · have held' := held_of_live (live_of_up up)
                    rw [sound.up_eq held'] at up
                    exact gone (.inr (path.next_mem mem up))
                exact (Option.filter_eq_some_iff.mpr ⟨rfl, by simpa using stays⟩).symm
          · rfl
    rw [forgotten]
    exact sound.chains.forget _
  · intro a held' destructed
    rw [shadowing, shadowedBy]
    by_cases gone : a = obj ∨ a ∈ l
    · rw [if_pos gone, if_pos gone]
      exact ⟨rfl, rfl⟩
    · rw [if_neg gone, if_neg gone]
      have heldBefore : w.held a = true :=
        ((linked.held a).trans (cleared.held a)).symm.trans held'
      have outside : l.contains a = false := by simpa using fun mem => gone (.inr mem)
      have destructedBefore : w.isDestructed a = true := by
        rw [linked.destructed, cleared.destructed, outside, Bool.or_false] at destructed
        exact destructed
      exact sound.cleared a heldBefore destructedBefore
  · exact Bounded.clear bounded obj

theorem Sound.wellFounded_up (sound : Sound w) :
    WellFounded fun b a => (Shadow.chains w).up a = some b := by
  have backwards : (fun b a => (Shadow.chains w).up a = some b) =
      fun b a => (Shadow.chains w).Above b a := by
    funext b a
    exact propext (sound.chains.mutual_ b a).symm
  rw [backwards]
  apply sound.chains.acyclic.wellFounded (s := { a | a < w.next }) (Set.finite_lt_nat _)
  intro b a link
  exact ⟨sound.bounded.lt_of_held (held_of_live (live_of_down link)),
    sound.bounded.lt_of_held (held_of_live (live_of_up ((sound.chains.mutual_ b a).mp link)))⟩

theorem Sound.wellFounded_down (sound : Sound w) :
    WellFounded fun b a => (Shadow.chains w).down a = some b := by
  apply sound.chains.acyclic.swap.wellFounded (s := { a | a < w.next }) (Set.finite_lt_nat _)
  intro b a link
  exact ⟨sound.bounded.lt_of_held (held_of_live (live_of_up ((sound.chains.mutual_ a b).mp link))),
    sound.bounded.lt_of_held (held_of_live (live_of_down link))⟩

/-- Following the links up from a held object ends. -/
theorem Sound.exists_path_up (sound : Sound w) {a : ObjectId} (held : w.held a = true) :
    ∃ l, Chains.Path (w.link · LpcObject.shadowedBy) a l ∧ l.Nodup ∧
      ∀ b ∈ l, w.held b = true := by
  rcases Chains.exists_path sound.wellFounded_up a with ⟨l, path⟩
  have helds : ∀ b ∈ l, w.held b = true := by
    intro b mem
    rcases ReflTransGen.cases_tail (path.reached mem) with rfl | ⟨c, _, link⟩
    · exact held
    · exact held_of_live (live_of_down ((sound.chains.mutual_ b c).mpr link))
  have acyclic : Acyclic fun a b => (Shadow.chains w).up a = some b := by
    apply sound.chains.acyclic.swap.mono
    intro a b link
    exact (sound.chains.mutual_ b a).mpr link
  refine ⟨l, ?_, path.nodup acyclic, helds⟩
  apply path.congr
  intro b mem
  exact (sound.up_eq (helds b mem)).symm

theorem Sound.exists_path_down (sound : Sound w) {a : ObjectId} (held : w.held a = true) :
    ∃ l, Chains.Path (w.link · LpcObject.shadowing) a l ∧ ∀ b ∈ l, w.held b = true := by
  rcases Chains.exists_path sound.wellFounded_down a with ⟨l, path⟩
  have helds : ∀ b ∈ l, w.held b = true := by
    intro b mem
    rcases ReflTransGen.cases_tail (path.reached mem) with rfl | ⟨c, _, link⟩
    · exact held
    · exact held_of_live (live_of_up ((sound.chains.mutual_ c b).mp link))
  refine ⟨l, ?_, helds⟩
  apply path.congr
  intro b mem
  exact (sound.down_eq (helds b mem)).symm

theorem Sound.reloadObject (sound : Sound w) {obj : ObjectId} (held : w.held obj = true)
    {fuel : Nat} {w' : World} (done : reloadObject quiet fuel w obj = some w') : Sound w' := by
  rcases Option.map_eq_some_iff.mp done with ⟨unlinked, before, rfl⟩
  have unlinkedSound : Sound unlinked := by
    split at before
    · rename_i base
      rcases Option.map_eq_some_iff.mp before with ⟨chain, ran, rfl⟩
      simp only [isShadowBase, Bool.and_eq_true, Option.isNone_iff_eq_none] at base
      rcases Option.isSome_iff_exists.mp base.1 with ⟨cur, first⟩
      rw [first] at ran
      have held' := World.held_of_link first
      rcases sound.exists_path_up held' with ⟨l, path, nodup, _⟩
      rcases reloadChain_cleared path nodup held' sound.bounded ran with ⟨cleared, bounded⟩
      exact sound.cleared_chain held base.2 first path cleared bounded
    · cases before
      exact sound.unlinkShadow held
  exact unlinkedSound.same (.of_objects rfl) unlinkedSound.bounded

end Reload

end Kjdmud.Object.Shadow
