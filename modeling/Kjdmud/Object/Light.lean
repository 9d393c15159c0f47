import Kjdmud.Object.Liveness
import Kjdmud.Vm.Value
import Mathlib.Algebra.BigOperators.Group.List.Basic

/-!
# Light totals

The efun `set_light` of `src/efun/EfunTable.cpp` adds its argument to the `totalLight_` of the
current object and of everything around it.  `moveObject` and `destructObject` leave the totals
as they are, so a total stays the light of an object and its contents only while nothing that
shines changes its place.
-/

namespace Kjdmud.Object.Light

open Kjdmud.Vm (Value int32)
open Relation

/-! ## The efun -/

/-- The object table with the `totalLight_` of the objects. -/
structure Lights where
  world : World := {}
  totalLight : ObjectId → Int := fun _ => 0

/-- `setTotalLight(totalLight() + delta)`; a sum that does not fit an `int` is undefined. -/
def addLight (totalLight : ObjectId → Int) (ob : ObjectId) (delta : Int) :
    Option (ObjectId → Int) :=
  let sum := totalLight ob + delta
  if -2 ^ 31 ≤ sum ∧ sum < 2 ^ 31 then some (Function.update totalLight ob sum) else none

/-- The loop of `set_light` over the environments, with the totals and the `root` it ends in. -/
def addAround : Nat → World → Int → (ObjectId → Int) → ObjectId →
    Option ((ObjectId → Int) × ObjectId)
  | 0, _, _, _, _ => none
  | fuel + 1, w, delta, totalLight, root =>
      match environmentOf w root with
      | none => some (totalLight, root)
      | some env => do
          let totalLight ← addLight totalLight env delta
          addAround fuel w delta totalLight env

/-- `set_light`. -/
def setLight (fuel : Nat) (s : Lights) (currentObject : Option ObjectId) (args : List Value) :
    Option (Lights × Except Str Value) :=
  match args with
  | ⟨.int n, _, _⟩ :: _ =>
      match currentObject with
      | none => some (s, .ok (Value.int 0))
      | some ob => do
          let delta := int32 n.toInt
          let totalLight ← addLight s.totalLight ob delta
          let (totalLight, root) ← addAround fuel s.world delta totalLight ob
          some ({ s with totalLight }, .ok (Value.int (Int64.ofInt (totalLight root))))
  | _ => some (s, .error (str "set_light: expected an int argument"))

/-! ## Runs -/

/-- The lights with the sum of the deltas that each object has given to `set_light`. -/
structure Lit extends Lights where
  given : ObjectId → Int := fun _ => 0

/-- One state is reached from another by calls of `set_light`, moves and destructions, where
`moves` accepts every move that is not refused and `retires` every destruction. -/
inductive Shines (moves : Lights → ObjectId → ObjectId → Prop)
    (retires : Lights → ObjectId → Prop) : Lit → Lit → Prop
  | refl (s : Lit) : Shines moves retires s s
  | trans {source middle target : Lit} (first : Shines moves retires source middle)
      (second : Shines moves retires middle target) : Shines moves retires source target
  /-- An object is created, with a total of 0. -/
  | construct (s : Lit) (filename : Str) :
      Shines moves retires s
        { s with
          world := s.world.construct filename
          totalLight := Function.update s.totalLight s.world.next 0 }
  | setLight (s : Lit) (fuel : Nat) (ob : ObjectId) (arg : Value) (n : Int64)
      (rest : List Value) (lights : Lights) (result : Except Str Value)
      (held : s.world.Held ob) (int : arg.data = .int n)
      (calls : setLight fuel s.toLights (some ob) (arg :: rest) = some (lights, result)) :
      Shines moves retires s
        { lights with
          given := Function.update s.given ob (s.given ob + int32 n.toInt) }
  | moveObject (s : Lit) (item dest : ObjectId) (itemHeld : s.world.Held item)
      (destHeld : s.world.Held dest)
      (accepted : refusesMove s.world item dest = false → moves s.toLights item dest) :
      Shines moves retires s { s with world := moveObject s.world item dest }
  /-- The part of `destructObject` behind its callback. -/
  | retire (s : Lit) (obj : ObjectId) (accepted : retires s.toLights obj) :
      Shines moves retires s { s with world := retire s.world obj }
  /-- The last reference to an object goes; an inventory holds references. -/
  | release (s : Lit) (obj : ObjectId)
      (loose : ∀ y, s.world.Held y → obj ∉ inventoryOf s.world y) :
      Shines moves retires s { s with world := release s.world obj }
  /-- Members that have no part in this change. -/
  | other (s : Lit) (w : World) (nodes : w.nodes = s.world.nodes)
      (next : w.next = s.world.next) : Shines moves retires s { s with world := w }

/-- A move that changes no total: the destination is not inside the item, which `moveObject` does
not check, and the item is there already or is dark. -/
def MovesDark (s : Lights) (item dest : ObjectId) : Prop :=
  (¬ ReflTransGen (fun x y => environmentOf s.world x = some y) dest item) ∧
    (environmentOf s.world item = some dest ∨ s.totalLight item = 0)

/-- A destruction that changes no total: what is destructed is in no live object or is dark. -/
def RetiresDark (s : Lights) (obj : ObjectId) : Prop :=
  ∀ env, environmentOf s.world obj = some env → s.world.live env = true →
    s.totalLight obj = 0

/-! ## Sums over an inventory -/

/-- Adding to one summand adds as often as it occurs. -/
theorem sum_map_update (items : List ObjectId) (f : ObjectId → Int) (x : ObjectId)
    (delta : Int) :
    (items.map (Function.update f x (f x + delta))).sum =
      (items.map f).sum + items.count x * delta := by
  induction items with
  | nil => simp
  | cons item items ih =>
      rw [List.map_cons, List.sum_cons, List.map_cons, List.sum_cons, ih]
      by_cases same : item = x
      · subst same
        rw [Function.update_self, List.count_cons_self]
        push_cast
        ring
      · rw [Function.update_of_ne same, List.count_cons_of_ne same]
        ring

/-- What another place for an item leaves of the sum over an inventory. -/
theorem sum_movedInventory {w : World} {bound : ObjectId} (linked : w.nodes.Linked bound)
    (item y : ObjectId) (dest : Option ObjectId) (f : ObjectId → Int) :
    ((movedInventory w item dest y).map f).sum =
      ((inventoryOf w y).map f).sum - (if environmentOf w item = some y then f item else 0) +
        if dest = some y then f item else 0 := by
  have removed : (((inventoryOf w y).filter (· ≠ item)).map f).sum =
      ((inventoryOf w y).map f).sum - (inventoryOf w y).count item * f item := by
    induction inventoryOf w y with
    | nil => simp
    | cons x items ih =>
        by_cases same : x = item
        · subst same
          rw [List.filter_cons_of_neg (by simp), ih, List.map_cons, List.sum_cons,
            List.count_cons_self]
          push_cast
          ring
        · rw [List.filter_cons_of_pos (by simpa using same), List.map_cons, List.sum_cons, ih,
            List.map_cons, List.sum_cons, List.count_cons_of_ne same]
          ring
  have added : (((if dest = some y then [item] else []) : List ObjectId).map f).sum =
      if dest = some y then f item else 0 := by
    by_cases here : dest = some y
    · rw [if_pos here, if_pos here, List.map_singleton, List.sum_singleton]
    · rw [if_neg here, if_neg here, List.map_nil, List.sum_nil]
  rw [movedInventory, List.map_append, List.sum_append, added]
  by_cases inside : environmentOf w item = some y
  · obtain ⟨⟨o, here, _⟩, held⟩ := Nodes.in_iff.mp (environmentOf_eq.mp inside)
    have count := linked.count (by rw [here]; rfl) held
    rw [if_pos inside] at count
    rw [if_pos inside, if_pos inside, removed, count, Nat.cast_one, one_mul]
  · rw [if_neg inside, if_neg inside, sub_zero]

/-! ## Balance -/

/-- The total of every live object is its own light with the totals of its contents. -/
def Balanced (w : World) (given totalLight : ObjectId → Int) : Prop :=
  ∀ y, w.live y = true →
    totalLight y = given y + ((inventoryOf w y).map totalLight).sum

/-- Balance in the middle of `set_light`: what is around `root` still waits for the delta. -/
def Owes (w : World) (given totalLight : ObjectId → Int) (delta : Int) (root : ObjectId) :
    Prop :=
  ∀ y, w.live y = true →
    totalLight y + (if environmentOf w root = some y then delta else 0) =
      given y + ((inventoryOf w y).map totalLight).sum

section SetLight

variable {w : World} {bound : ObjectId} {given totalLight totalLight' : ObjectId → Int}
  {delta : Int} {ob root env last : ObjectId}

theorem addLight_eq_some (adds : addLight totalLight ob delta = some totalLight') :
    totalLight' = Function.update totalLight ob (totalLight ob + delta) := by
  unfold addLight at adds
  by_cases fits : -2 ^ 31 ≤ totalLight ob + delta ∧ totalLight ob + delta < 2 ^ 31
  · rw [if_pos fits] at adds
    exact (Option.some.inj adds).symm
  · rw [if_neg fits] at adds
    cases adds

/-- The object whose total grows is in the inventory of its environment once. -/
theorem sum_inventory_add (linked : w.nodes.Linked bound) (held : w.Held ob) {y : ObjectId}
    (live : w.live y = true) :
    ((inventoryOf w y).map (Function.update totalLight ob (totalLight ob + delta))).sum =
      ((inventoryOf w y).map totalLight).sum +
        if environmentOf w ob = some y then delta else 0 := by
  rw [sum_map_update, linked.count (isSome_of_held held) (live_iff.mpr live).held]
  by_cases inside : environmentOf w ob = some y
  · rw [if_pos inside, if_pos inside, Nat.cast_one, one_mul]
  · rw [if_neg inside, if_neg inside, Nat.cast_zero, zero_mul]

/-- The call adds to the current object. -/
theorem Owes.of_balanced (linked : w.nodes.Linked bound)
    (balanced : Balanced w given totalLight) (held : w.Held ob) :
    Owes w (Function.update given ob (given ob + delta))
      (Function.update totalLight ob (totalLight ob + delta)) delta ob := by
  intro y live
  have before := balanced y live
  rw [sum_inventory_add linked held live]
  by_cases self : y = ob
  · subst self
    rw [Function.update_self, Function.update_self, before]
    ring
  · rw [Function.update_of_ne self, Function.update_of_ne self, before]
    ring

/-- One round of the loop passes the delta on. -/
theorem Owes.step (linked : w.nodes.Linked bound) (owes : Owes w given totalLight delta root)
    (around : environmentOf w root = some env) :
    Owes w given (Function.update totalLight env (totalLight env + delta)) delta env := by
  intro y live
  have before := owes y live
  have held : w.Held env := (Nodes.in_iff.mp (environmentOf_eq.mp around)).2
  rw [sum_inventory_add linked held live]
  by_cases self : y = env
  · subst self
    rw [if_pos around] at before
    rw [Function.update_self, before]
    ring
  · have elsewhere : environmentOf w root ≠ some y := by
      intro same
      rw [around] at same
      exact self (Option.some.inj same).symm
    rw [if_neg elsewhere, add_zero] at before
    rw [Function.update_of_ne self, before]
    ring

/-- The loop ends where nothing is around any more. -/
theorem Owes.addAround (linked : w.nodes.Linked bound) {fuel : Nat}
    (owes : Owes w given totalLight delta root)
    (adds : addAround fuel w delta totalLight root = some (totalLight', last)) :
    Balanced w given totalLight' := by
  induction fuel generalizing totalLight root with
  | zero => cases adds
  | succ fuel ih =>
      rw [Light.addAround] at adds
      cases around : environmentOf w root with
      | none =>
          rw [around] at adds
          cases adds
          intro y live
          have done := owes y live
          rw [around, if_neg (Option.some_ne_none y).symm, add_zero] at done
          exact done
      | some env =>
          rw [around] at adds
          obtain ⟨more, added, rest⟩ := Option.bind_eq_some_iff.mp adds
          rw [addLight_eq_some added] at rest
          exact ih (owes.step linked around) rest

/-- A call of `set_light` keeps the balance, with its delta given. -/
theorem Balanced.setLight {s lights : Lights} (linked : s.world.nodes.Linked bound)
    (balanced : Balanced s.world given s.totalLight) (held : s.world.Held ob) {fuel : Nat}
    {arg : Value} {n : Int64} {rest : List Value} {result : Except Str Value}
    (int : arg.data = .int n)
    (calls : setLight fuel s (some ob) (arg :: rest) = some (lights, result)) :
    lights.world = s.world ∧
      Balanced s.world (Function.update given ob (given ob + int32 n.toInt))
        lights.totalLight := by
  obtain ⟨data, undefined, isClass⟩ := arg
  cases int
  obtain ⟨totals, added, calls⟩ := Option.bind_eq_some_iff.mp calls
  obtain ⟨⟨totals', last⟩, around, calls⟩ := Option.bind_eq_some_iff.mp calls
  cases calls
  rw [addLight_eq_some added] at around
  constructor
  · rfl
  · exact (Owes.of_balanced linked balanced held).addAround linked around

end SetLight

/-! ## The other steps -/

section Steps

variable {s : Lights} {given : ObjectId → Int} {bound item dest obj : ObjectId}

/-- A move keeps the balance exactly when it takes no light to another place. -/
theorem balanced_setEnvironment_iff (linked : s.world.nodes.Linked bound)
    (destLive : s.world.live dest = true) (balanced : Balanced s.world given s.totalLight) :
    Balanced (setEnvironment s.world item (some dest)) given s.totalLight ↔
      environmentOf s.world item = some dest ∨ s.totalLight item = 0 := by
  have sums : ∀ y, s.world.live y = true →
      ((inventoryOf (setEnvironment s.world item (some dest)) y).map s.totalLight).sum =
        ((inventoryOf s.world y).map s.totalLight).sum -
            (if environmentOf s.world item = some y then s.totalLight item else 0) +
          if some dest = some y then s.totalLight item else 0 := by
    intro y live
    rw [inventoryOf_setEnvironment (isSome_of_held (live_iff.mpr live).held),
      sum_movedInventory linked]
  constructor
  · intro moved
    by_cases inside : environmentOf s.world item = some dest
    · exact .inl inside
    · have before := balanced dest destLive
      have after := moved dest (live_setEnvironment.trans destLive)
      rw [sums dest destLive, if_neg inside, if_pos rfl] at after
      exact .inr (by linarith)
  · intro dark y live
    have live : s.world.live y = true := live_setEnvironment.symm.trans live
    rw [sums y live, balanced y live]
    rcases dark with inside | dark
    · rw [inside]
      ring
    · rw [dark, ite_self, ite_self]
      ring

/-- A destruction keeps the balance exactly when what is destructed is dark or in no live
object. -/
theorem balanced_retire_iff (linked : s.world.nodes.Linked bound)
    (irreflexive : ¬ s.world.nodes.In obj obj)
    (balanced : Balanced s.world given s.totalLight) :
    Balanced (retire s.world obj) given s.totalLight ↔ RetiresDark s obj := by
  have sums : ∀ y, s.world.live y = true →
      ((inventoryOf (retire s.world obj) y).map s.totalLight).sum =
        ((inventoryOf s.world y).map s.totalLight).sum -
          if environmentOf s.world obj = some y then s.totalLight obj else 0 := by
    intro y live
    rw [inventoryOf_retire (isSome_of_held (live_iff.mpr live).held),
      sum_movedInventory linked, if_neg (Option.some_ne_none y).symm, add_zero]
  constructor
  · intro retired env around live
    have other : env ≠ obj := by
      rintro rfl
      exact irreflexive (environmentOf_eq.mp around)
    have before := balanced env live
    have after := retired env (by rw [live_retire, live]; simpa using other)
    rw [sums env live, if_pos around] at after
    linarith
  · intro dark y live
    have live : s.world.live y = true := (Bool.and_eq_true_iff.mp (live_retire ▸ live)).1
    rw [sums y live, balanced y live]
    by_cases around : environmentOf s.world obj = some y
    · rw [if_pos around, dark y around live, sub_zero]
    · rw [if_neg around, sub_zero]

theorem Balanced.release (balanced : Balanced s.world given s.totalLight) :
    Balanced (release s.world obj) given s.totalLight := by
  intro y live
  have live : s.world.live y = true := (Bool.and_eq_true_iff.mp (live_release ▸ live)).1
  rw [inventoryOf_release]
  exact balanced y live

/-- A new object is dark and empty. -/
theorem Balanced.construct (linked : s.world.nodes.Linked s.world.next)
    (fresh : given s.world.next = 0) (balanced : Balanced s.world given s.totalLight)
    (filename : Str) :
    Balanced (s.world.construct filename) given
      (Function.update s.totalLight s.world.next 0) := by
  intro y live
  by_cases new : y = s.world.next
  · subst new
    rw [Function.update_self, inventoryOf_construct_self, List.map_nil, List.sum_nil, fresh]
    rfl
  · have live : s.world.live y = true := (live_construct new).symm.trans live
    have absent : s.world.next ∉ inventoryOf s.world y := by
      intro inside
      obtain ⟨⟨o, here, _⟩, _⟩ :=
        Nodes.in_iff.mp (linked.in_of_mem (live_iff.mpr live).held inside)
      rw [linked.fresh s.world.next (Nat.le_refl s.world.next)] at here
      cases here
    have same : (inventoryOf s.world y).map
        (Function.update s.totalLight s.world.next 0) =
          (inventoryOf s.world y).map s.totalLight := by
      apply List.map_congr_left
      intro x inside
      rw [Function.update_of_ne]
      rintro rfl
      exact absent inside
    rw [Function.update_of_ne new, inventoryOf_construct new, same]
    exact balanced y live

end Steps

/-! ## Dark runs -/

/-- The invariant of dark runs. -/
structure Consistent (s : Lit) : Prop where
  linked : s.world.nodes.Linked s.world.next
  sound : s.world.nodes.Sound
  fresh : ∀ id, s.world.next ≤ id → s.given id = 0
  balanced : Balanced s.world s.given s.totalLight

theorem consistent_empty : Consistent {} where
  linked := linked_empty
  sound := sound_empty
  fresh _ _ := rfl
  balanced := by
    intro y live
    cases live

/-- The worlds of a dark run are a run that respects containment. -/
theorem respects_of_dark {s : Lights} {item dest : ObjectId}
    (moves : refusesMove s.world item dest = false) (dark : MovesDark s item dest) :
    Respects s.world item dest := by
  refine ⟨dark.1, fun _ => ?_⟩
  unfold refusesMove at moves
  simp only [Bool.or_eq_false_iff] at moves
  have alive := moves.1.2
  cases here : s.world.objects item with
  | none =>
      rw [here] at alive
      cases alive
  | some o =>
      rw [here] at alive
      simpa using alive

theorem live_of_moves {w : World} {item dest : ObjectId} (held : w.Held dest)
    (moves : refusesMove w item dest = false) : w.live dest = true := by
  unfold refusesMove at moves
  rw [Bool.or_eq_false_iff] at moves
  exact live_of_held (held_iff.mp held) moves.2

/-- Every step of a dark run keeps the invariant. -/
theorem Shines.consistent {source target : Lit} (run : Shines MovesDark RetiresDark source target)
    (consistent : Consistent source) : Consistent target := by
  induction run with
  | refl => exact consistent
  | trans _ _ first second => exact second (first consistent)
  | construct s filename =>
      refine ⟨?_, ?_, fun id above => ?_, ?_⟩
      · rw [nodes_construct]
        exact consistent.linked.construct
      · rw [nodes_construct]
        exact consistent.sound.construct consistent.linked
      · exact consistent.fresh id (Nat.le_of_succ_le above)
      · exact consistent.balanced.construct consistent.linked
          (consistent.fresh _ (Nat.le_refl _)) filename
  | setLight s fuel ob arg n rest lights result held int calls =>
      obtain ⟨world, balanced⟩ :=
        consistent.balanced.setLight consistent.linked held int calls
      refine ⟨?_, ?_, fun id above => ?_, world ▸ balanced⟩
      · rw [world]
        exact consistent.linked
      · rw [world]
        exact consistent.sound
      · rw [world] at above
        have other : id ≠ ob := by
          rintro rfl
          obtain ⟨o, here, _⟩ := held
          rw [consistent.linked.fresh id above] at here
          cases here
        exact (Function.update_of_ne other _ _).trans (consistent.fresh id above)
  | moveObject s item dest itemHeld destHeld accepted =>
      by_cases refuses : refusesMove s.world item dest = true
      · rw [moveObject_eq, if_pos refuses]
        exact consistent
      · have moves := Bool.eq_false_iff.mpr refuses
        have dark := accepted moves
        have fits := (respects_of_dark moves dark).fits
        rw [moveObject_eq, if_neg refuses]
        refine ⟨?_, ?_, fun id above => ?_, ?_⟩
        · rw [nodes_setEnvironment, next_setEnvironment]
          exact consistent.linked.place itemHeld fun d same => Option.some.inj same ▸ destHeld
        · rw [nodes_setEnvironment]
          exact consistent.sound.place itemHeld fun d same => Option.some.inj same ▸ fits
        · rw [next_setEnvironment] at above
          exact consistent.fresh id above
        · exact (balanced_setEnvironment_iff consistent.linked
            (live_of_moves destHeld moves) consistent.balanced).mpr dark.2
  | retire s obj dark =>
      refine ⟨?_, ?_, fun id above => ?_, ?_⟩
      · rw [nodes_retire, next_retire]
        exact consistent.linked.retire
      · rw [nodes_retire]
        exact consistent.sound.retire consistent.linked
      · rw [next_retire] at above
        exact consistent.fresh id above
      · exact (balanced_retire_iff consistent.linked
          (fun inside => consistent.sound.acyclic obj (.single inside))
          consistent.balanced).mpr dark
  | release s obj loose =>
      refine ⟨?_, ?_, consistent.fresh, consistent.balanced.release⟩
      · rw [nodes_release]
        refine consistent.linked.release fun y o here held member => ?_
        exact loose y ⟨o, here, held⟩ (mem_inventoryOf.mpr ⟨o, here, member⟩)
      · rw [nodes_release]
        exact consistent.sound.release
  | other s w nodes next =>
      refine ⟨?_, ?_, fun id above => ?_, fun y live => ?_⟩
      · rw [nodes, next]
        exact consistent.linked
      · rw [nodes]
        exact consistent.sound
      · rw [next] at above
        exact consistent.fresh id above
      · have live : s.world.live y = true := (live_congr nodes).symm.trans live
        rw [inventoryOf_nodes, nodes, ← inventoryOf_nodes]
        exact consistent.balanced y live

/-! ## Deep inventories -/

/-- The total of every live object is the sum of the deltas given by itself and by every live
object in its deep inventory. -/
def TotalsAgree (s : Lit) : Prop :=
  ∀ y, s.world.live y = true → ∃ fuel items, deepInventory fuel s.world y = some items ∧
    s.totalLight y =
      s.given y + ((items.filter fun x => s.world.live x).map s.given).sum

section Deep

variable {w : World} {given totalLight : ObjectId → Int}

/-- What is collected from live objects is live, and their totals are its lights. -/
theorem sum_collect (balanced : Balanced w given totalLight)
    (contents : ∀ y, w.live y = true → ∀ x ∈ inventoryOf w y, w.live x = true) {fuel : Nat}
    {items result : List ObjectId} (live : ∀ x ∈ items, w.live x = true)
    (collects : collect fuel w items = some result) :
    (∀ x ∈ result, w.live x = true) ∧
      (result.map given).sum = (items.map totalLight).sum := by
  induction fuel generalizing items result with
  | zero =>
      cases items with
      | nil =>
          cases collects
          exact ⟨live, rfl⟩
      | cons item items => cases collects
  | succ fuel ih =>
      cases items with
      | nil =>
          cases collects
          exact ⟨live, rfl⟩
      | cons item items =>
          rw [collect] at collects
          rcases Option.bind_eq_some_iff.mp collects with ⟨below, first, collects⟩
          rcases Option.bind_eq_some_iff.mp collects with ⟨others, second, collects⟩
          cases collects
          have here := live item List.mem_cons_self
          have deeper := ih (contents item here) first
          have behind := ih (fun x member => live x (List.mem_cons_of_mem item member)) second
          constructor
          · intro x member
            rcases List.mem_cons.mp member with same | member
            · exact same ▸ here
            · rcases List.mem_append.mp member with member | member
              · exact deeper.1 x member
              · exact behind.1 x member
          · calc
              (List.map given (item :: below ++ others)).sum
                  = given item + (below.map given).sum + (others.map given).sum := by
                rw [List.map_append, List.sum_append, List.map_cons, List.sum_cons]
              _ = totalLight item + (items.map totalLight).sum := by
                rw [deeper.2, behind.2, balanced item here]
              _ = (List.map totalLight (item :: items)).sum := by
                rw [List.map_cons, List.sum_cons]

theorem Consistent.totalsAgree {s : Lit} (consistent : Consistent s) : TotalsAgree s := by
  intro y live
  have containment := consistent.sound.containment consistent.linked
  have contents : ∀ z, s.world.live z = true →
      ∀ x ∈ inventoryOf s.world z, s.world.live x = true := by
    intro z live x member
    exact live_iff.mp (containment.live z (live_iff.mpr live) x member)
  obtain ⟨fuel, items, collects⟩ := containment.deep y (live_iff.mpr live).held
  obtain ⟨alive, sum⟩ := sum_collect consistent.balanced contents (contents y live) collects
  refine ⟨fuel, items, collects, ?_⟩
  rw [List.filter_eq_self.mpr alive, sum]
  exact consistent.balanced y live

end Deep

/-- In every run whose moves and destructions are dark the totals are right. -/
theorem totalsAgree_of_dark (s : Lit) (run : Shines MovesDark RetiresDark {} s) :
    TotalsAgree s :=
  (run.consistent consistent_empty).totalsAgree

/-! ## Destruction -/

/-- `destructObject` and its cascade are runs whose destructions are those they make, for a
callback that does not touch the totals. -/
theorem shines_destruct {moves : Lights → ObjectId → ObjectId → Prop}
    {retires : Lights → ObjectId → Prop} {onDestructed : OnDestructed} {s : Lit}
    (callback : ∀ w obj, Shines moves retires s { s with world := w } →
      Shines moves retires { s with world := w } { s with world := onDestructed w obj })
    (accepted : ∀ w obj, Shines moves retires s { s with world := w } →
      retires { s.toLights with world := onDestructed w obj } obj)
    {fuel : Nat} {obj : ObjectId} {target : World}
    (destructs : destructObject onDestructed fuel s.world obj = some target) :
    Shines moves retires s { s with world := target } := by
  have steps := relates_destruct onDestructed s.world
    (fun v w => Shines moves retires { s with world := v } { s with world := w })
    (fun w => .refl _) .trans (fun u v nodes next => .other _ v nodes next)
    (fun w ob reached => (callback w ob reached).trans (.retire _ ob (accepted w ob reached)))
    fuel
  exact steps.1 s.world obj target (.refl s) destructs

/-! ## A lamp -/

section Examples

variable {moves : Lights → ObjectId → ObjectId → Prop} {retires : Lights → ObjectId → Prop}

/-- The world `w` after the object 0 has given 1 to `set_light`. -/
def shining (w : World) (totalLight : ObjectId → Int) : Lit where
  world := w
  totalLight := totalLight
  given := Function.update (fun _ => 0) 0 1

theorem shines_twoObjects : Shines moves retires {} { world := twoObjects } := by
  have dark : ∀ id : ObjectId, Function.update (fun _ => (0 : Int)) id 0 = fun _ => 0 :=
    fun id => Function.update_eq_self id fun _ => 0
  have first : Shines moves retires {} _ := .construct {} (str "/a")
  have second : Shines moves retires { world := ({} : World).construct (str "/a") } _ :=
    .construct _ (str "/b")
  rw [dark] at first second
  exact first.trans second

/-- The object 0 lies in the object 1 and shines. -/
theorem totalsAgree_lamp :
    TotalsAgree (shining (moveObject twoObjects 0 1)
      (Function.update (Function.update (fun _ => 0) 0 1) 1 1)) := by
  have nowhere : environmentOf twoObjects 1 = none := by decide
  have outside : ¬ ReflTransGen (fun x y => environmentOf twoObjects x = some y) 1 0 := by
    intro path
    rcases ReflTransGen.cases_head path with same | ⟨y, link, _⟩
    · exact absurd same (by decide)
    · rw [nowhere] at link
      cases link
  have moved : Shines MovesDark RetiresDark { world := twoObjects } _ :=
    .moveObject _ 0 1 (held_twoObjects (.inl rfl)) (held_twoObjects (.inr rfl))
      fun _ => ⟨outside, .inr rfl⟩
  have lit : Shines MovesDark RetiresDark { world := moveObject twoObjects 0 1 } _ :=
    .setLight _ 2 0 (Value.int 1) 1 []
      ⟨moveObject twoObjects 0 1, Function.update (Function.update (fun _ => 0) 0 1) 1 1⟩
      (.ok (Value.int 1)) ⟨_, rfl, rfl⟩ rfl (by rfl)
  exact totalsAgree_of_dark _ ((shines_twoObjects.trans moved).trans lit)

/-- An object that is moved after it was lit takes no light along. -/
theorem lamp_moved : ¬ ∀ s, Shines (fun _ _ _ => True) (fun _ _ => True) {} s →
    TotalsAgree s := by
  intro claim
  have lit : Shines (fun _ _ _ => True) (fun _ _ => True) { world := twoObjects } _ :=
    .setLight _ 1 0 (Value.int 1) 1 [] ⟨twoObjects, Function.update (fun _ => 0) 0 1⟩
      (.ok (Value.int 1)) (held_twoObjects (.inl rfl)) rfl (by rfl)
  have moved : Shines (fun _ _ _ => True) (fun _ _ => True)
      (shining twoObjects (Function.update (fun _ => 0) 0 1)) _ :=
    .moveObject _ 0 1 (held_twoObjects (.inl rfl)) (held_twoObjects (.inr rfl)) fun _ => trivial
  obtain ⟨fuel, items, collects, total⟩ :=
    claim _ ((shines_twoObjects.trans lit).trans moved) 1 (by decide)
  have known : deepInventory 1 (moveObject twoObjects 0 1) 1 = some [0] := by decide
  have same := (collect_mono (Nat.le_max_left fuel 1) collects).symm.trans
    (collect_mono (Nat.le_max_right fuel 1) known)
  cases same
  revert total
  decide

end Examples

end Kjdmud.Object.Light
