import Kjdmud.Object.Containment.Invariant

/-!
# Runs of moves and destructions

A run is any sequence of moves, `set_environment` calls and destructions, with
objects created and released in between.  The `init()` calls of a move come
behind its links and may go on with any of these, so they are the rest of the
sequence; the callback of a destruction stands in the middle of it, so the
destruction is taken apart there.
-/

namespace Kjdmud.Object

open Relation

/-- The object exists and some reference keeps it in memory. -/
def World.Held (w : World) (id : ObjectId) : Prop :=
  w.nodes.Held id

/-- One world is reached from another by the operations on environments, where
every new environment is one that `allowed` accepts. -/
inductive Rearranges (allowed : World → ObjectId → ObjectId → Prop) : World → World → Prop
  | refl (w : World) : Rearranges allowed w w
  | trans {source middle target : World} (first : Rearranges allowed source middle)
      (second : Rearranges allowed middle target) : Rearranges allowed source target
  /-- An object is created. -/
  | construct (w : World) (filename : Str) : Rearranges allowed w (w.construct filename)
  | moveObject (w : World) (item dest : ObjectId) (itemHeld : w.Held item)
      (destHeld : w.Held dest)
      (accepted : refusesMove w item dest = false → allowed w item dest) :
      Rearranges allowed w (moveObject w item dest)
  | setEnvironment (w : World) (item : ObjectId) (dest : Option ObjectId)
      (itemHeld : w.Held item) (destHeld : ∀ d ∈ dest, w.Held d)
      (accepted : ∀ d ∈ dest, allowed w item d) :
      Rearranges allowed w (setEnvironment w item dest)
  /-- The part of `destructObject` behind its callback. -/
  | retire (w : World) (obj : ObjectId) : Rearranges allowed w (retire w obj)
  /-- The last reference to an object goes; an inventory holds references. -/
  | release (w : World) (obj : ObjectId)
      (loose : ∀ y, w.Held y → obj ∉ inventoryOf w y) :
      Rearranges allowed w (release w obj)
  /-- Members that have no part in this change. -/
  | other (w w' : World) (nodes : w'.nodes = w.nodes) (next : w'.next = w.next) :
      Rearranges allowed w w'

/-! ## Destruction -/

section Destruct

variable {allowed : World → ObjectId → ObjectId → Prop} {onDestructed : OnDestructed}
  {start : World}

theorem next_modifyLinked (w : World) (weak : Option ObjectId)
    (change : LpcObject → LpcObject) : (w.modifyLinked weak change).next = w.next := by
  cases weak <;> rfl

theorem nodes_unlinkShadow (w : World) (obj : ObjectId) :
    (unlinkShadow w obj).nodes = w.nodes := by
  unfold unlinkShadow
  refine (nodes_modify_other _ ?_ _).trans ((nodes_modifyLinked_other _ ?_ _).trans
    (nodes_modifyLinked_other _ ?_ _))
  all_goals
    intro o
    rfl

theorem next_unlinkShadow (w : World) (obj : ObjectId) : (unlinkShadow w obj).next = w.next := by
  unfold unlinkShadow
  exact (next_modifyLinked _ _ _).trans (next_modifyLinked _ _ _)

theorem nodes_cutShadow (w : World) (below : Option ObjectId) (top : ObjectId) :
    ((w.modifyLinked below fun o => { o with shadowedBy := none }).modify top fun o =>
      { o with shadowing := none }).nodes = w.nodes := by
  refine (nodes_modify_other _ ?_ _).trans (nodes_modifyLinked_other _ ?_ _)
  all_goals
    intro o
    rfl

variable (onDestructed start) in
/-- A relation that relates a world to itself, to one with the same nodes and to one with an
object retired behind the callback, and that goes on from world to world, relates a world to
what `destructObject` and its cascade make of it. -/
theorem relates_destruct (relates : World → World → Prop) (refl : ∀ w, relates w w)
    (trans : ∀ {u v w}, relates u v → relates v w → relates u w)
    (other : ∀ u v : World, v.nodes = u.nodes → v.next = u.next → relates u v)
    (retires : ∀ w obj, relates start w → relates w (retire (onDestructed w obj) obj))
    (fuel : Nat) :
    (∀ w obj target, relates start w →
      destructObject onDestructed fuel w obj = some target → relates w target) ∧
    ∀ w top target, relates start w →
      destructChain onDestructed fuel w top = some target → relates w target := by
  induction fuel with
  | zero =>
      constructor
      · intro w obj target _ destructs
        rw [destructObject] at destructs
        cases destructs
      · intro w top target _ destructs
        rw [destructChain] at destructs
        cases destructs
  | succ fuel ih =>
      constructor
      · intro w obj target reached destructs
        rw [destructObject] at destructs
        split at destructs
        · cases destructs
          exact refl w
        · split at destructs
          · split at destructs
            · rcases Option.bind_eq_some_iff.mp destructs with ⟨top, _, destructs⟩
              exact ih.2 w _ target reached destructs
            · cases destructs
              exact refl w
          · cases destructs
            have unlinked : relates w (unlinkShadow w obj) :=
              other _ _ (nodes_unlinkShadow w obj) (next_unlinkShadow w obj)
            exact trans unlinked (retires _ obj (trans reached unlinked))
      · intro w top target reached destructs
        cases top with
        | none =>
            rw [destructChain] at destructs
            cases destructs
            exact refl w
        | some top =>
            rw [destructChain] at destructs
            rcases Option.bind_eq_some_iff.mp destructs with ⟨middle, first, second⟩
            have cut : relates w _ :=
              other _ _ (nodes_cutShadow w (w.link top LpcObject.shadowing) top)
                (next_modifyLinked _ _ _)
            have gone := ih.1 _ _ _ (trans reached cut) first
            exact trans cut (trans gone (ih.2 _ _ _ (trans (trans reached cut) gone) second))

/-- `destructObject` and its cascade are runs, whatever the callback does within a run. -/
theorem rearranges_destruct
    (callback : ∀ w obj, Rearranges allowed start w →
      Rearranges allowed w (onDestructed w obj)) (fuel : Nat) :
    (∀ w obj target, Rearranges allowed start w →
      destructObject onDestructed fuel w obj = some target → Rearranges allowed w target) ∧
    ∀ w top target, Rearranges allowed start w →
      destructChain onDestructed fuel w top = some target → Rearranges allowed w target :=
  relates_destruct onDestructed start (Rearranges allowed) .refl .trans .other
    (fun w obj reached => (callback w obj reached).trans (.retire _ obj)) fuel

end Destruct

/-! ## The laws -/

/-- The object is neither destructed nor released. -/
def World.Live (w : World) (id : ObjectId) : Prop :=
  ∃ o, w.objects id = some o ∧ o.destructed = false ∧ o.freed = false

/-- `environment()` of an object. -/
def environmentOf (w : World) (x : ObjectId) : Option ObjectId :=
  w.link x LpcObject.environment

/-- A live object is in the inventory of a live one, once, exactly when that is its
environment. -/
def LinksAgree (w : World) : Prop :=
  ∀ x y, w.Live x → w.Live y →
    (x ∈ inventoryOf w y ↔ environmentOf w x = some y) ∧ (inventoryOf w y).count x ≤ 1

/-- The law of containment. -/
structure Containment (w : World) : Prop where
  agree : LinksAgree w
  live : ∀ y, w.Live y → ∀ x ∈ inventoryOf w y, w.Live x
  acyclic : Acyclic fun x y => environmentOf w x = some y
  deep : ∀ y, w.Held y → ∃ fuel items, deepInventory fuel w y = some items

/-- A new environment that respects containment: the destination is not inside the
item, and no destructed item goes into an object that is not destructed. -/
def Respects (w : World) (item dest : ObjectId) : Prop :=
  (¬ ReflTransGen (fun x y => environmentOf w x = some y) dest item) ∧
    ((w.objects dest).any (fun o => !o.destructed) →
      (w.objects item).any fun o => !o.destructed)

/-! ## The invariant along runs -/

section Runs

variable {allowed : World → ObjectId → ObjectId → Prop} {w source target : World}

@[simp]
theorem next_setEnvironment (w : World) (item : ObjectId) (dest : Option ObjectId) :
    (setEnvironment w item dest).next = w.next := by
  unfold setEnvironment
  exact (next_modifyLinked _ _ _).trans (next_modifyLinked _ _ _)

@[simp]
theorem next_retire (w : World) (obj : ObjectId) : (retire w obj).next = w.next := by
  have erased : (retire w obj).next = (detach w obj).next := by
    have kept : (eraseFilename (detach w obj) obj).next = (detach w obj).next := by
      unfold eraseFilename
      cases (detach w obj).filename obj <;> rfl
    exact kept
  rw [erased]
  unfold detach
  exact (next_modifyLinked _ _ _).trans (next_modifyLinked w _ _)

theorem mem_inventoryOf {x y : ObjectId} :
    x ∈ inventoryOf w y ↔ ∃ o, w.nodes y = some o ∧ x ∈ o.inventory := by
  simp only [inventoryOf, World.nodes]
  cases w.objects y <;> simp [LpcObject.node]

theorem linked_empty : (({} : World).nodes).Linked ({} : World).next where
  fresh _ _ := rfl
  known _ _ here := by cases here
  contents _ _ here := by cases here
  once _ _ here := by cases here

theorem sound_empty : (({} : World).nodes).Sound where
  live _ _ here := by cases here
  acyclic := by
    intro x cycle
    rcases TransGen.head'_iff.mp cycle with ⟨y, link, _⟩
    cases link

/-- Every run keeps environments and inventories in agreement. -/
theorem Rearranges.linked (run : Rearranges allowed source target)
    (linked : source.nodes.Linked source.next) : target.nodes.Linked target.next := by
  induction run with
  | refl => exact linked
  | trans _ _ first second => exact second (first linked)
  | construct w filename =>
      rw [nodes_construct]
      exact linked.construct
  | moveObject w item dest itemHeld destHeld _ =>
      rw [moveObject_eq]
      split
      · exact linked
      · rw [nodes_setEnvironment, next_setEnvironment]
        exact linked.place itemHeld fun d same => Option.some.inj same ▸ destHeld
  | setEnvironment w item dest itemHeld destHeld _ =>
      rw [nodes_setEnvironment, next_setEnvironment]
      exact linked.place itemHeld destHeld
  | retire w obj =>
      rw [nodes_retire, next_retire]
      exact linked.retire
  | release w obj loose =>
      rw [nodes_release]
      refine linked.release fun y o here held member => ?_
      exact loose y ⟨o, here, held⟩ (mem_inventoryOf.mpr ⟨o, here, member⟩)
  | other w w' nodes next =>
      rw [nodes, next]
      exact linked

/-- A respectful new environment fits. -/
theorem Respects.fits {item dest : ObjectId} (respects : Respects w item dest) :
    w.nodes.Fits item dest where
  outside := by
    have same : w.nodes.In = fun x y => environmentOf w x = some y := by
      funext x y
      rw [environmentOf, link_environment]
      rfl
    rw [same]
    exact respects.1
  live o here alive oi there := by
    rw [World.nodes, Option.map_eq_some_iff] at here there
    rcases here with ⟨od, here, rfl⟩
    rcases there with ⟨oi, there, rfl⟩
    have dest_alive : od.destructed = false := alive
    have item_alive := respects.2 (by rw [here]; simpa using dest_alive)
    rw [there] at item_alive
    change oi.destructed = false
    simpa using item_alive

/-- Every respectful run keeps the nodes sound. -/
theorem Rearranges.sound (run : Rearranges Respects source target)
    (linked : source.nodes.Linked source.next) (sound : source.nodes.Sound) :
    target.nodes.Sound := by
  induction run with
  | refl => exact sound
  | trans first _ ihFirst ihSecond =>
      exact ihSecond (first.linked linked) (ihFirst linked sound)
  | construct w filename =>
      rw [nodes_construct]
      exact sound.construct linked
  | moveObject w item dest itemHeld destHeld accepted =>
      rw [moveObject_eq]
      split
      · exact sound
      · next moves =>
          rw [nodes_setEnvironment]
          refine sound.place itemHeld fun d same => ?_
          cases same
          exact (accepted (by simpa using moves)).fits
  | setEnvironment w item dest itemHeld destHeld accepted =>
      rw [nodes_setEnvironment]
      exact sound.place itemHeld fun d same => (accepted d same).fits
  | retire w obj =>
      rw [nodes_retire]
      exact sound.retire linked
  | release w obj _ =>
      rw [nodes_release]
      exact sound.release
  | other w w' nodes next =>
      rw [nodes]
      exact sound

end Runs

/-! ## What the invariant says -/

section Laws

variable {w : World} {bound : ObjectId}

/-- The node of a live object. -/
theorem World.Live.node {x : ObjectId} (live : w.Live x) :
    ∃ o, w.nodes x = some o ∧ o.destructed = false ∧ o.freed = false := by
  rcases live with ⟨o, here, alive, held⟩
  exact ⟨o.node, by rw [World.nodes, here]; rfl, alive, held⟩

theorem World.Live.held {x : ObjectId} (live : w.Live x) : w.Held x := by
  rcases live.node with ⟨o, here, _, held⟩
  exact ⟨o, here, held⟩

theorem environmentOf_eq {x y : ObjectId} : environmentOf w x = some y ↔ w.nodes.In x y := by
  rw [environmentOf, link_environment]
  rfl

/-- The number of times an object is in an inventory. -/
theorem Nodes.Linked.count (linked : w.nodes.Linked bound) {x y : ObjectId}
    (known : (w.nodes x).isSome) (held : w.Held y) :
    (inventoryOf w y).count x = if environmentOf w x = some y then 1 else 0 := by
  rcases Option.isSome_iff_exists.mp known with ⟨ox, here⟩
  rcases held with ⟨oy, there, held⟩
  have count := linked.once x ox here y oy there held
  have inventory : inventoryOf w y = oy.inventory := by
    rw [World.nodes, Option.map_eq_some_iff] at there
    rcases there with ⟨o, there, rfl⟩
    rw [inventoryOf, there]
    rfl
  rw [inventory, count]
  congr 1
  rw [environmentOf_eq, Nodes.in_iff, eq_iff_iff]
  constructor
  · exact fun environment => ⟨⟨ox, here, environment⟩, oy, there, held⟩
  · rintro ⟨⟨o, same, environment⟩, _⟩
    rw [here] at same
    cases same
    exact environment

theorem Nodes.Linked.agree (linked : w.nodes.Linked bound) : LinksAgree w := by
  intro x y xLive yLive
  rcases xLive.node with ⟨o, here, _⟩
  have count := linked.count (by rw [here]; rfl) yLive.held
  rw [← List.count_pos_iff, count]
  constructor
  · split
    · next same => simp [same]
    · next differs => simp [differs]
  · split <;> omega

/-- What lies in a held object lies in it as its environment. -/
theorem Nodes.Linked.in_of_mem (linked : w.nodes.Linked bound) {x y : ObjectId}
    (held : w.Held y) (member : x ∈ inventoryOf w y) : w.nodes.In x y := by
  rcases held with ⟨oy, there, held⟩
  rcases mem_inventoryOf.mp member with ⟨o, same, inside⟩
  rw [there] at same
  cases same
  rcases linked.contents y oy there held x inside with ⟨ox, here, _⟩
  have count := linked.count (by rw [here]; rfl) ⟨oy, there, held⟩
  have positive := List.count_pos_iff.mpr member
  rw [count] at positive
  split at positive
  · next same => exact environmentOf_eq.mp same
  · cases positive

/-- More fuel collects the same. -/
theorem collect_succ {fuel : Nat} {items result : List ObjectId}
    (collects : collect fuel w items = some result) :
    collect (fuel + 1) w items = some result := by
  induction fuel generalizing items result with
  | zero =>
      cases items with
      | nil => exact collects
      | cons item items => cases collects
  | succ fuel ih =>
      cases items with
      | nil => exact collects
      | cons item items =>
          rw [collect] at collects
          rcases Option.bind_eq_some_iff.mp collects with ⟨below, first, collects⟩
          rcases Option.bind_eq_some_iff.mp collects with ⟨others, second, result⟩
          rw [collect, ih first]
          refine Option.bind_eq_some_iff.mpr ⟨below, rfl, ?_⟩
          rw [ih second]
          exact Option.bind_eq_some_iff.mpr ⟨others, rfl, result⟩

theorem collect_mono {fuel more : Nat} (le : fuel ≤ more) {items result : List ObjectId}
    (collects : collect fuel w items = some result) :
    collect more w items = some result := by
  induction le with
  | refl => exact collects
  | step _ ih => exact collect_succ ih

/-- Items each of which can be collected can be collected together. -/
theorem collect_of_each {items : List ObjectId}
    (each : ∀ item ∈ items, ∃ fuel below, deepInventory fuel w item = some below) :
    ∃ fuel result, collect fuel w items = some result := by
  induction items with
  | nil => exact ⟨0, [], rfl⟩
  | cons item items ih =>
      rcases each item List.mem_cons_self with ⟨first, below, firstCollects⟩
      rcases ih fun other member => each other (List.mem_cons_of_mem item member) with
        ⟨second, others, secondCollects⟩
      refine ⟨max first second + 1, item :: below ++ others, ?_⟩
      rw [collect, collect_mono (Nat.le_max_left first second) firstCollects,
        collect_mono (Nat.le_max_right first second) secondCollects]
      rfl

/-- Sound nodes obey the law of containment. -/
theorem Nodes.Sound.containment (sound : w.nodes.Sound) (linked : w.nodes.Linked bound) :
    Containment w where
  agree := linked.agree
  live y live x member := by
    rcases live.node with ⟨oy, there, alive, held⟩
    rcases mem_inventoryOf.mp member with ⟨o, same, inside⟩
    rw [there] at same
    cases same
    rcases linked.contents y oy there held x inside with ⟨ox, here, xHeld⟩
    have xAlive := sound.live y oy there held alive x inside ox here
    rw [World.nodes, Option.map_eq_some_iff] at here
    rcases here with ⟨o, here, rfl⟩
    exact ⟨o, here, xAlive, xHeld⟩
  acyclic := sound.acyclic.mono fun x y => environmentOf_eq.mp
  deep := by
    have acyclic : Acyclic fun x y => w.Held y ∧ x ∈ inventoryOf w y :=
      sound.acyclic.mono fun x y inside => linked.in_of_mem inside.1 inside.2
    have below : ∀ id, (w.nodes id).isSome → id ∈ Set.Iio bound := by
      intro id known
      by_contra above
      rw [linked.fresh id (Nat.le_of_not_lt above)] at known
      cases known
    have wellFounded := acyclic.wellFounded (Set.finite_Iio bound) (by
      rintro x y ⟨⟨oy, there, held⟩, member⟩
      rcases mem_inventoryOf.mp member with ⟨o, same, inside⟩
      rw [there] at same
      cases same
      rcases linked.contents y oy there held x inside with ⟨ox, here, _⟩
      exact ⟨below x (by rw [here]; rfl), below y (by rw [there]; rfl)⟩)
    intro y
    induction y using wellFounded.induction with
    | _ y ih =>
        intro held
        refine collect_of_each fun item member => ih item ⟨held, member⟩ ?_
        rcases held with ⟨oy, there, held⟩
        rcases mem_inventoryOf.mp member with ⟨o, same, inside⟩
        rw [there] at same
        cases same
        exact linked.contents y oy there held item inside

end Laws

/-- In every run the environments and the inventories of live objects agree.  The
whole law of containment holds in every run whose new environments respect it.  And a
destruction, cascade included, is such a run whenever its callback is. -/
theorem containment_of_respects :
    (∀ allowed w, Rearranges allowed {} w → LinksAgree w) ∧
    (∀ w, Rearranges Respects {} w → Containment w) ∧
    ∀ allowed onDestructed start fuel obj target,
      (∀ w other, Rearranges allowed start w →
        Rearranges allowed w (onDestructed w other)) →
      destructObject onDestructed fuel start obj = some target →
      Rearranges allowed start target := by
  refine ⟨fun allowed w run => ?_, fun w run => ?_, ?_⟩
  · exact (run.linked linked_empty).agree
  · exact (run.sound linked_empty sound_empty).containment (run.linked linked_empty)
  · intro allowed onDestructed start fuel obj target callback destructs
    exact (rearranges_destruct callback fuel).1 start obj target (.refl start) destructs

/-! ## Two objects -/

section Examples

/-- Two objects, neither in the other. -/
def twoObjects : World :=
  (({} : World).construct (str "/a")).construct (str "/b")

theorem rearranges_twoObjects (allowed : World → ObjectId → ObjectId → Prop) :
    Rearranges allowed {} twoObjects :=
  (Rearranges.construct _ _).trans (.construct _ _)

theorem held_twoObjects {id : ObjectId} (known : id = 0 ∨ id = 1) : twoObjects.Held id := by
  rcases known with rfl | rfl
  · exact ⟨_, rfl, rfl⟩
  · exact ⟨_, rfl, rfl⟩

/-- One object moves into the other. -/
theorem containment_move : Containment (moveObject twoObjects 0 1) := by
  have nowhere : ∀ x, environmentOf twoObjects x = none := by
    intro x
    by_cases first : x = 1
    · subst first
      rfl
    · by_cases second : x = 0
      · subst second
        rfl
      · simp [environmentOf, World.link, World.lock, twoObjects, World.construct, first,
          second]
  have respects : Respects twoObjects 0 1 := by
    refine ⟨fun path => ?_, fun _ => rfl⟩
    rcases ReflTransGen.cases_head path with same | ⟨y, link, _⟩
    · exact absurd same (by decide)
    · rw [nowhere] at link
      cases link
  have run := (rearranges_twoObjects Respects).trans
    (.moveObject twoObjects 0 1 (held_twoObjects (.inl rfl)) (held_twoObjects (.inr rfl))
      fun _ => respects)
  exact containment_of_respects.2.1 _ run

/-- Two objects can be moved into each other, and a destructed object can be put back
into a live one. -/
theorem containment_broken :
    (∃ w, Rearranges (fun _ _ _ => True) {} w ∧ ¬ Acyclic fun x y =>
      environmentOf w x = some y) ∧
    ∃ w y x, Rearranges (fun _ _ _ => True) {} w ∧ w.Live y ∧ x ∈ inventoryOf w y ∧
      ¬ w.Live x := by
  have start := rearranges_twoObjects fun _ _ _ => True
  constructor
  · refine ⟨moveObject (moveObject twoObjects 0 1) 1 0, ?_, fun acyclic => ?_⟩
    · have first := start.trans (.moveObject twoObjects 0 1 (held_twoObjects (.inl rfl))
        (held_twoObjects (.inr rfl)) fun _ => trivial)
      exact first.trans (.moveObject _ 1 0 ⟨_, rfl, rfl⟩ ⟨_, rfl, rfl⟩ fun _ => trivial)
    · exact acyclic 0 (.tail (.single (by rfl : _ = some 1)) (by rfl : _ = some 0))
  · refine ⟨setEnvironment (retire twoObjects 0) 0 (some 1), 1, 0, ?_, ⟨_, rfl, rfl, rfl⟩,
      by decide, ?_⟩
    · refine (start.trans (.retire _ 0)).trans (.setEnvironment _ 0 (some 1)
        ⟨_, rfl, rfl⟩ (fun d same => ?_) fun _ _ => trivial)
      cases same
      exact ⟨_, rfl, rfl⟩
    · rintro ⟨o, here, alive, _⟩
      cases here
      cases alive

end Examples

end Kjdmud.Object
