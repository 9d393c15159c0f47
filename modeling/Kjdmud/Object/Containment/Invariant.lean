import Kjdmud.Object.Containment

/-!
# What moves and destruction keep

The environments and the inventories of the objects agree in every run.  That
no inventory of a live object holds a destructed object, and that environments
never lead back, takes moves that respect it: neither `moveObject` nor
`set_environment` looks at what an object contains, and `set_environment` does
not look at the destructed flag.
-/

namespace Kjdmud.Object

open Relation

/-! ## The invariant on nodes -/

namespace Nodes

/-- The object exists and its memory is not released. -/
def Held (n : Nodes) (id : ObjectId) : Prop :=
  ∃ o, n id = some o ∧ o.freed = false

/-- The environment an object is in. -/
def In (n : Nodes) (x y : ObjectId) : Prop :=
  n.parent x = some y

theorem in_iff {n : Nodes} {x y : ObjectId} :
    n.In x y ↔ (∃ o, n x = some o ∧ o.environment = some y) ∧ n.Held y := by
  simp only [In, parent, Option.filter_eq_some_iff, Option.bind_eq_some_iff, Held,
    Option.any_eq_true, Bool.not_eq_true']

/-- Environments and inventories agree. -/
structure Linked (n : Nodes) (bound : ObjectId) : Prop where
  fresh : ∀ id, bound ≤ id → n id = none
  known : ∀ x o, n x = some o → ∀ y, o.environment = some y → (n y).isSome
  contents : ∀ y o, n y = some o → o.freed = false → ∀ x ∈ o.inventory, n.Held x
  once : ∀ x ox, n x = some ox → ∀ y oy, n y = some oy → oy.freed = false →
    oy.inventory.count x = if ox.environment = some y then 1 else 0

/-- No live object holds a destructed one, and environments never lead back. -/
structure Sound (n : Nodes) : Prop where
  live : ∀ y o, n y = some o → o.freed = false → o.destructed = false →
    ∀ x ∈ o.inventory, ∀ ox, n x = some ox → ox.destructed = false
  acyclic : Acyclic n.In

/-- A placement that keeps the nodes sound: the destination is not inside the item,
and a destructed item does not go into a live object. -/
structure Fits (n : Nodes) (item dest : ObjectId) : Prop where
  outside : ¬ ReflTransGen n.In dest item
  live : ∀ o, n dest = some o → o.destructed = false →
    ∀ oi, n item = some oi → oi.destructed = false

section Operations

variable {n : Nodes} {bound item obj id : ObjectId} {dest : Option ObjectId}

theorem place_eq_some {x : ObjectId} {o : Node} :
    n.place item dest x = some o ↔ ∃ before, n x = some before ∧
      o = { before with
        environment := if x = item then dest else before.environment
        inventory :=
          (if n.parent item = some x then before.inventory.filter (· ≠ item)
            else before.inventory) ++ if dest = some x then [item] else [] } := by
  simp only [place, Option.map_eq_some_iff, eq_comm (a := o)]

theorem held_place : (n.place item dest).Held id ↔ n.Held id := by
  simp only [Held, place, Option.map_eq_some_iff]
  constructor
  · rintro ⟨_, ⟨o, here, rfl⟩, held⟩
    exact ⟨o, here, held⟩
  · rintro ⟨o, here, held⟩
    exact ⟨_, ⟨o, here, rfl⟩, held⟩

/-- A placement puts the item where it goes and leaves the others where they are. -/
theorem in_place {x y : ObjectId} :
    (n.place item dest).In x y ↔
      if x = item then (∃ o, n item = some o) ∧ dest = some y ∧ n.Held y else n.In x y := by
  rw [in_iff, held_place]
  split
  · next here =>
      subst here
      simp [place, and_assoc]
  · next elsewhere =>
      rw [in_iff]
      simp [place, elsewhere]

theorem Linked.place (linked : n.Linked bound) (item_held : n.Held item)
    (dest_held : ∀ d ∈ dest, n.Held d) : (n.place item dest).Linked bound where
  fresh id above := by
    rw [Nodes.place, linked.fresh id above]
    rfl
  known x o here y environment := by
    rcases place_eq_some.mp here with ⟨before, found, rfl⟩
    simp only [Nodes.place, Option.isSome_map]
    by_cases self : x = item
    · rw [if_pos self] at environment
      rcases dest_held y environment with ⟨o, there, _⟩
      rw [there]
      rfl
    · rw [if_neg self] at environment
      exact linked.known x before found y environment
  contents y o here held x member := by
    rcases place_eq_some.mp here with ⟨before, found, rfl⟩
    rw [held_place]
    rcases List.mem_append.mp member with old | new
    · have inside : x ∈ before.inventory := by
        split at old
        · exact List.mem_of_mem_filter old
        · exact old
      exact linked.contents y before found held x inside
    · split at new
      · rw [List.mem_singleton.mp new]
        exact item_held
      · cases new
  once x ox here y oy there held := by
    rcases place_eq_some.mp here with ⟨beforeX, foundX, rfl⟩
    rcases place_eq_some.mp there with ⟨beforeY, foundY, rfl⟩
    have before := linked.once x beforeX foundX y beforeY foundY held
    simp only [List.count_append]
    by_cases self : x = item
    · subst self
      have removed : (if n.parent x = some y then beforeY.inventory.filter (· ≠ x)
          else beforeY.inventory).count x = 0 := by
        split
        · rw [List.count_eq_zero]
          simp
        · next elsewhere =>
            rw [before, if_neg]
            intro environment
            exact elsewhere (in_iff.mpr ⟨⟨beforeX, foundX, environment⟩, beforeY, foundY, held⟩)
      rw [removed, if_pos rfl]
      split <;> simp
    · have kept : (if n.parent item = some y then beforeY.inventory.filter (· ≠ item)
          else beforeY.inventory).count x = beforeY.inventory.count x := by
        split
        · exact List.count_filter (by simpa using self)
        · rfl
      have other : (if dest = some y then [item] else []).count x = 0 := by
        split <;> simp [Ne.symm self]
      rw [kept, other, if_neg self, Nat.add_zero]
      exact before

theorem Sound.place (sound : n.Sound) (item_held : n.Held item)
    (fits : ∀ d ∈ dest, n.Fits item d) : (n.place item dest).Sound where
  live y o here held alive x member ox there := by
    rcases place_eq_some.mp here with ⟨before, found, rfl⟩
    rcases place_eq_some.mp there with ⟨beforeX, foundX, rfl⟩
    rcases List.mem_append.mp member with old | new
    · have inside : x ∈ before.inventory := by
        split at old
        · exact List.mem_of_mem_filter old
        · exact old
      exact sound.live y before found held alive x inside beforeX foundX
    · split at new
      · next goes =>
          have same := List.mem_singleton.mp new
          subst same
          exact (fits y goes).live before found alive beforeX foundX
      · cases new
  acyclic := by
    cases dest with
    | none =>
        refine sound.acyclic.mono fun x y inside => ?_
        rw [in_place] at inside
        split at inside
        · cases inside.2.1
        · exact inside
    | some d =>
        refine sound.acyclic.insert item d ?_ (fits d rfl).outside
        intro x y inside
        rw [in_place] at inside
        split at inside
        · next here => exact .inr ⟨here, (Option.some.inj inside.2.1).symm⟩
        · exact .inl inside

theorem retire_eq_some {x : ObjectId} {o : Node} :
    n.retire obj x = some o ↔ ∃ before, n x = some before ∧
      o = { before with
        destructed := before.destructed || x = obj
        environment := if x = obj then none else before.environment
        inventory :=
          if n.parent obj = some x then before.inventory.filter (· ≠ obj)
          else before.inventory } := by
  simp only [retire, Option.map_eq_some_iff, eq_comm (a := o)]

theorem held_retire : (n.retire obj).Held id ↔ n.Held id := by
  simp only [Held, retire, Option.map_eq_some_iff]
  constructor
  · rintro ⟨_, ⟨o, here, rfl⟩, held⟩
    exact ⟨o, here, held⟩
  · rintro ⟨o, here, held⟩
    exact ⟨_, ⟨o, here, rfl⟩, held⟩

/-- Destruction takes the object out of its environment. -/
theorem in_retire {x y : ObjectId} : (n.retire obj).In x y ↔ x ≠ obj ∧ n.In x y := by
  rw [in_iff, held_retire, in_iff]
  by_cases self : x = obj <;> simp [retire, self]

theorem mem_retire {x y : ObjectId} {before : Node}
    (member : x ∈ if n.parent obj = some y then before.inventory.filter (· ≠ obj)
      else before.inventory) : x ∈ before.inventory := by
  split at member
  · exact List.mem_of_mem_filter member
  · exact member

/-- An object that is destructed is in no inventory any more. -/
theorem Linked.not_mem_retire (linked : n.Linked bound) {o : Node} (here : n obj = some o)
    {y : ObjectId} {oy : Node} (there : n y = some oy) (held : oy.freed = false) :
    obj ∉ if n.parent obj = some y then oy.inventory.filter (· ≠ obj)
      else oy.inventory := by
  split
  · simp
  · next elsewhere =>
      rw [← List.count_eq_zero, linked.once obj o here y oy there held, if_neg]
      intro environment
      exact elsewhere (in_iff.mpr ⟨⟨o, here, environment⟩, oy, there, held⟩)

theorem Linked.retire (linked : n.Linked bound) : (n.retire obj).Linked bound where
  fresh id above := by
    rw [Nodes.retire, linked.fresh id above]
    rfl
  known x o here y environment := by
    rcases retire_eq_some.mp here with ⟨before, found, rfl⟩
    simp only [Nodes.retire, Option.isSome_map]
    by_cases self : x = obj
    · rw [if_pos self] at environment
      cases environment
    · rw [if_neg self] at environment
      exact linked.known x before found y environment
  contents y o here held x member := by
    rcases retire_eq_some.mp here with ⟨before, found, rfl⟩
    rw [held_retire]
    exact linked.contents y before found held x (mem_retire member)
  once x ox here y oy there held := by
    rcases retire_eq_some.mp here with ⟨beforeX, foundX, rfl⟩
    rcases retire_eq_some.mp there with ⟨beforeY, foundY, rfl⟩
    by_cases self : x = obj
    · subst self
      simp only [if_true, reduceCtorEq, if_false]
      exact List.count_eq_zero.mpr (linked.not_mem_retire foundX foundY held)
    · have kept : (if n.parent obj = some y then beforeY.inventory.filter (· ≠ obj)
          else beforeY.inventory).count x = beforeY.inventory.count x := by
        split
        · exact List.count_filter (by simpa using self)
        · rfl
      rw [kept, if_neg self]
      exact linked.once x beforeX foundX y beforeY foundY held

theorem Sound.retire (sound : n.Sound) (linked : n.Linked bound) : (n.retire obj).Sound where
  live y o here held alive x member ox there := by
    rcases retire_eq_some.mp here with ⟨before, found, rfl⟩
    rcases retire_eq_some.mp there with ⟨beforeX, foundX, rfl⟩
    rw [Bool.or_eq_false_iff] at alive ⊢
    refine ⟨sound.live y before found held alive.1 x (mem_retire member) beforeX foundX, ?_⟩
    rw [decide_eq_false_iff_not]
    rintro rfl
    exact linked.not_mem_retire foundX found held member
  acyclic := sound.acyclic.mono fun x y inside => (in_retire.mp inside).2

theorem release_eq_some {x : ObjectId} {o : Node} :
    n.release obj x = some o ↔ ∃ before, n x = some before ∧
      o = { before with freed := before.freed || x = obj } := by
  simp only [release, Option.map_eq_some_iff, eq_comm (a := o)]

theorem held_release : (n.release obj).Held id ↔ id ≠ obj ∧ n.Held id := by
  simp only [Held, release_eq_some]
  constructor
  · rintro ⟨_, ⟨o, here, rfl⟩, held⟩
    rw [Bool.or_eq_false_iff, decide_eq_false_iff_not] at held
    exact ⟨held.2, o, here, held.1⟩
  · rintro ⟨other, o, here, held⟩
    exact ⟨_, ⟨o, here, rfl⟩, by simp [held, other]⟩

/-- Releasing an object takes nothing to a new environment. -/
theorem in_of_release {x y : ObjectId} (inside : (n.release obj).In x y) : n.In x y := by
  rcases in_iff.mp inside with ⟨⟨o, here, environment⟩, held⟩
  rcases release_eq_some.mp here with ⟨before, found, rfl⟩
  exact in_iff.mpr ⟨⟨before, found, environment⟩, (held_release.mp held).2⟩

theorem Linked.release (linked : n.Linked bound)
    (loose : ∀ y o, n y = some o → o.freed = false → obj ∉ o.inventory) :
    (n.release obj).Linked bound where
  fresh id above := by
    rw [Nodes.release, linked.fresh id above]
    rfl
  known x o here y environment := by
    rcases release_eq_some.mp here with ⟨before, found, rfl⟩
    simp only [Nodes.release, Option.isSome_map]
    exact linked.known x before found y environment
  contents y o here held x member := by
    rcases release_eq_some.mp here with ⟨before, found, rfl⟩
    rw [Bool.or_eq_false_iff] at held
    refine held_release.mpr ⟨?_, linked.contents y before found held.1 x member⟩
    rintro rfl
    exact loose y before found held.1 member
  once x ox here y oy there held := by
    rcases release_eq_some.mp here with ⟨beforeX, foundX, rfl⟩
    rcases release_eq_some.mp there with ⟨beforeY, foundY, rfl⟩
    rw [Bool.or_eq_false_iff] at held
    exact linked.once x beforeX foundX y beforeY foundY held.1

theorem Sound.release (sound : n.Sound) : (n.release obj).Sound where
  live y o here held alive x member ox there := by
    rcases release_eq_some.mp here with ⟨before, found, rfl⟩
    rcases release_eq_some.mp there with ⟨beforeX, foundX, rfl⟩
    rw [Bool.or_eq_false_iff] at held
    exact sound.live y before found held.1 alive x member beforeX foundX
  acyclic := sound.acyclic.mono fun _ _ => in_of_release

theorem construct_eq_some {x : ObjectId} {o : Node} :
    n.construct id x = some o ↔
      if x = id then o = ⟨false, false, none, []⟩ else n x = some o := by
  by_cases self : x = id
  · rw [construct, self, Function.update_self, if_pos rfl, Option.some.injEq, eq_comm]
  · rw [construct, Function.update_of_ne self, if_neg self]

theorem Linked.construct (linked : n.Linked bound) :
    (n.construct bound).Linked (bound + 1) where
  fresh id above := by
    rw [Nodes.construct, Function.update_of_ne (Nat.ne_of_gt above)]
    exact linked.fresh id (Nat.le_of_succ_le above)
  known x o here y environment := by
    rw [construct_eq_some] at here
    split at here
    · subst here
      cases environment
    · next old =>
        by_cases self : y = bound
        · rw [self, Nodes.construct, Function.update_self]
          rfl
        · rw [Nodes.construct, Function.update_of_ne self]
          exact linked.known x o here y environment
  contents y o here held x member := by
    rw [construct_eq_some] at here
    split at here
    · subst here
      cases member
    · rcases linked.contents y o here held x member with ⟨ox, there, xHeld⟩
      refine ⟨ox, construct_eq_some.mpr ?_, xHeld⟩
      rw [if_neg]
      · exact there
      · rintro rfl
        rw [linked.fresh x (Nat.le_refl x)] at there
        cases there
  once x ox here y oy there held := by
    rw [construct_eq_some] at here there
    split at there
    · next self =>
        subst there
        rw [List.count_nil, if_neg]
        intro environment
        split at here
        · subst here
          cases environment
        · have known := linked.known x ox here y environment
          rw [self, linked.fresh bound (Nat.le_refl bound)] at known
          cases known
    · split at here
      · next self =>
          subst here
          simp only [reduceCtorEq, if_false]
          rw [List.count_eq_zero]
          intro member
          rcases linked.contents y oy there held x member with ⟨o, here, _⟩
          rw [self, linked.fresh bound (Nat.le_refl bound)] at here
          cases here
      · exact linked.once x ox here y oy there held

theorem Sound.construct (sound : n.Sound) (linked : n.Linked bound) :
    (n.construct bound).Sound where
  live y o here held alive x member ox there := by
    rw [construct_eq_some] at here there
    split at here
    · subst here
      cases member
    · split at there
      · subst there
        rfl
      · exact sound.live y o here held alive x member ox there
  acyclic := by
    refine sound.acyclic.mono fun x y inside => ?_
    rcases in_iff.mp inside with ⟨⟨o, here, environment⟩, oy, there, held⟩
    rw [construct_eq_some] at here there
    split at here
    · subst here
      cases environment
    · split at there
      · next self =>
          have known := linked.known x o here y environment
          rw [self, linked.fresh bound (Nat.le_refl bound)] at known
          cases known
      · exact in_iff.mpr ⟨⟨o, here, environment⟩, oy, there, held⟩

end Operations

end Nodes

end Kjdmud.Object
