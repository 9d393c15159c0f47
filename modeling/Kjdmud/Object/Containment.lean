import Kjdmud.Lib.Acyclic
import Kjdmud.Object.ObjectManager

/-!
# Environments and inventories

`set_environment` and `deep_inventory` of `src/efun/EfunTable.cpp` beside the
moves and the destruction of the object table, and the part of an object they
are about: a node with its environment and its inventory.  The operations on
nodes are stated on their own, and every operation of the driver is one of them
as far as nodes go.
-/

namespace Kjdmud.Object

/-! ## The efuns -/

/-- The efun `set_environment`. -/
def setEnvironment (w : World) (item : ObjectId) (dest : Option ObjectId) : World :=
  let w := w.modifyLinked (w.link item LpcObject.environment) fun o =>
    { o with inventory := o.inventory.filter (· ≠ item) }
  let w := w.modify item fun o => { o with environment := dest }
  w.modifyLinked dest fun o => { o with inventory := o.inventory ++ [item] }

/-- The check at the start of `moveObject`. -/
def refusesMove (w : World) (item dest : ObjectId) : Bool :=
  item = dest || (w.objects item).all LpcObject.destructed ||
    (w.objects dest).all LpcObject.destructed

/-- A move that is not refused sets the environment. -/
theorem moveObject_eq (w : World) (item dest : ObjectId) :
    moveObject w item dest =
      if refusesMove w item dest then w else setEnvironment w item (some dest) :=
  rfl

/-- The inventory of an object. -/
def inventoryOf (w : World) (ob : ObjectId) : List ObjectId :=
  ((w.objects ob).map LpcObject.inventory).getD []

/-- The function `collect` of `deep_inventory` on the rest of an inventory. -/
def collect : Nat → World → List ObjectId → Option (List ObjectId)
  | _, _, [] => some []
  | 0, _, _ :: _ => none
  | fuel + 1, w, item :: items => do
      let below ← collect fuel w (inventoryOf w item)
      let others ← collect fuel w items
      pure (item :: below ++ others)

/-- The efun `deep_inventory`. -/
def deepInventory (fuel : Nat) (w : World) (target : ObjectId) : Option (List ObjectId) :=
  collect fuel w (inventoryOf w target)

/-! ## Nodes -/

/-- What moves and destruction are about in an object. -/
structure Node where
  destructed : Bool
  freed : Bool
  environment : Option ObjectId
  inventory : List ObjectId

/-- The node of an object. -/
def LpcObject.node (o : LpcObject) : Node where
  destructed := o.destructed
  freed := o.freed
  environment := o.environment
  inventory := o.inventory

/-- The nodes of a world. -/
abbrev Nodes := ObjectId → Option Node

/-- The nodes of the objects. -/
def World.nodes (w : World) : Nodes :=
  fun id => (w.objects id).map LpcObject.node

namespace Nodes

/-- `environment().lock()`. -/
def parent (n : Nodes) (x : ObjectId) : Option ObjectId :=
  ((n x).bind Node.environment).filter fun y => (n y).any fun o => !o.freed

/-- Change the node that a link leads to. -/
def change (n : Nodes) (weak : Option ObjectId) (f : Node → Node) : Nodes :=
  fun x => if weak = some x then (n x).map f else n x

/-- A new environment for an item. -/
def place (n : Nodes) (item : ObjectId) (dest : Option ObjectId) : Nodes := fun x =>
  (n x).map fun o =>
    { o with
      environment := if x = item then dest else o.environment
      inventory :=
        (if n.parent item = some x then o.inventory.filter (· ≠ item) else o.inventory) ++
          if dest = some x then [item] else [] }

/-- An object that is destructed leaves its environment. -/
def retire (n : Nodes) (obj : ObjectId) : Nodes := fun x =>
  (n x).map fun o =>
    { o with
      destructed := o.destructed || x = obj
      environment := if x = obj then none else o.environment
      inventory :=
        if n.parent obj = some x then o.inventory.filter (· ≠ obj) else o.inventory }

/-- The memory of an object is released. -/
def release (n : Nodes) (obj : ObjectId) : Nodes := fun x =>
  (n x).map fun o => { o with freed := o.freed || x = obj }

/-- A new object. -/
def construct (n : Nodes) (id : ObjectId) : Nodes :=
  Function.update n id (some ⟨false, false, none, []⟩)

end Nodes

/-! ## The operations on nodes -/

section Nodes

variable (w : World)

/-- A link of an object that its node holds. -/
theorem link_environment (x : ObjectId) :
    w.link x LpcObject.environment = w.nodes.parent x := by
  have freed : ∀ id : ObjectId, ((w.objects id).any fun o => !o.freed) =
      ((w.nodes id).any fun o => !o.freed) := by
    intro id
    rw [World.nodes, Option.any_map]
    rfl
  simp only [World.link, World.lock, freed, Nodes.parent]
  congr 1
  rw [World.nodes]
  cases w.objects x <;> rfl

theorem nodes_modify {change : LpcObject → LpcObject} {f : Node → Node}
    (commutes : ∀ o, (change o).node = f o.node) (id : ObjectId) :
    (w.modify id change).nodes = w.nodes.change (some id) f := by
  funext x
  simp only [World.nodes, World.modify, Nodes.change, Option.some.injEq]
  by_cases same : id = x
  · subst same
    rw [Function.update_self, if_pos rfl, Option.map_map, Option.map_map]
    congr 1
    funext o
    exact commutes o
  · rw [Function.update_of_ne (Ne.symm same), if_neg same]

theorem nodes_modifyLinked {change : LpcObject → LpcObject} {f : Node → Node}
    (commutes : ∀ o, (change o).node = f o.node) (weak : Option ObjectId) :
    (w.modifyLinked weak change).nodes = w.nodes.change weak f := by
  cases weak with
  | none =>
      funext x
      simp [World.modifyLinked, Nodes.change]
  | some id => exact nodes_modify w commutes id

/-- A change of other members leaves the nodes alone. -/
theorem nodes_modify_other {change : LpcObject → LpcObject}
    (keeps : ∀ o, (change o).node = o.node) (id : ObjectId) :
    (w.modify id change).nodes = w.nodes := by
  rw [nodes_modify w (f := fun o => o) keeps]
  funext x
  simp [Nodes.change]

theorem nodes_modifyLinked_other {change : LpcObject → LpcObject}
    (keeps : ∀ o, (change o).node = o.node) (weak : Option ObjectId) :
    (w.modifyLinked weak change).nodes = w.nodes := by
  cases weak with
  | none => rfl
  | some id => exact nodes_modify_other w keeps id

/-- `set_environment` on nodes. -/
theorem nodes_setEnvironment (item : ObjectId) (dest : Option ObjectId) :
    (setEnvironment w item dest).nodes = w.nodes.place item dest := by
  unfold setEnvironment
  rw [nodes_modifyLinked _ (f := fun o => { o with inventory := o.inventory ++ [item] })
      (fun _ => rfl),
    nodes_modify _ (f := fun o => { o with environment := dest }) (fun _ => rfl),
    nodes_modifyLinked _
      (f := fun o => { o with inventory := o.inventory.filter (· ≠ item) }) (fun _ => rfl),
    link_environment]
  funext x
  simp only [Nodes.change, Nodes.place, Option.some.injEq, eq_comm (a := item)]
  cases w.nodes x with
  | none => simp
  | some o =>
      by_cases self : x = item
      · subst self
        by_cases old : w.nodes.parent x = some x <;> by_cases new : dest = some x <;>
          simp [old, new]
      · by_cases old : w.nodes.parent item = some x <;> by_cases new : dest = some x <;>
          simp [old, new, self]

/-- A change that keeps the environment and the memory of nodes keeps the parents. -/
theorem Nodes.parent_change (n : Nodes) {f : Node → Node}
    (keeps : ∀ o, (f o).environment = o.environment ∧ (f o).freed = o.freed)
    (weak : Option ObjectId) (x : ObjectId) : (n.change weak f).parent x = n.parent x := by
  have environment : ((n.change weak f) x).bind Node.environment =
      (n x).bind Node.environment := by
    unfold Nodes.change
    split
    · cases n x with
      | none => rfl
      | some o => exact (keeps o).1
    · rfl
  have freed : ∀ y, ((n.change weak f) y).any (fun o => !o.freed) =
      (n y).any fun o => !o.freed := by
    intro y
    unfold Nodes.change
    split
    · cases n y with
      | none => rfl
      | some o => simp [(keeps o).2]
    · rfl
  simp only [Nodes.parent, environment, freed]

/-- The flags that `destructObject` sets, on nodes. -/
theorem nodes_flags (obj : ObjectId) :
    ((w.modifyLinked (w.link obj LpcObject.snooping) fun o =>
      { o with snoopedBy := none }).modify obj fun o =>
        { o with snooping := none, destructed := true, replacedProgramName := none }).nodes =
      w.nodes.change (some obj) fun o => { o with destructed := true } := by
  rw [nodes_modify _ (f := fun o => { o with destructed := true }) (fun _ => rfl)]
  exact congrArg (fun n : Nodes => n.change (some obj) _)
    (nodes_modifyLinked_other w (by intro o; rfl) _)

/-- The part of `destructObject` behind the callback, on nodes. -/
theorem nodes_retire (obj : ObjectId) : (retire w obj).nodes = w.nodes.retire obj := by
  have erased : (retire w obj).nodes = (detach w obj).nodes := by
    have kept : (eraseFilename (detach w obj) obj).nodes = (detach w obj).nodes := by
      unfold eraseFilename
      cases (detach w obj).filename obj <;> rfl
    exact kept
  have split : ∃ marked : World,
      detach w obj =
        (marked.modifyLinked (marked.link obj LpcObject.environment) fun o =>
          { o with inventory := o.inventory.filter (· ≠ obj) }).modify obj (fun o =>
            { o with environment := none }) ∧
      marked.nodes = w.nodes.change (some obj) fun o => { o with destructed := true } :=
    ⟨_, rfl, nodes_flags w obj⟩
  rcases split with ⟨marked, detached, flags⟩
  rw [erased, detached,
    nodes_modify _ (f := fun o => { o with environment := none }) (fun _ => rfl),
    nodes_modifyLinked _
      (f := fun o => { o with inventory := o.inventory.filter (· ≠ obj) }) (fun _ => rfl),
    link_environment, flags,
    Nodes.parent_change _ (f := fun o => { o with destructed := true })
      (fun _ => ⟨rfl, rfl⟩)]
  funext x
  simp only [Nodes.change, Nodes.retire, Option.some.injEq, eq_comm (a := obj)]
  cases w.nodes x with
  | none => simp
  | some o =>
      by_cases self : x = obj
      · subst self
        by_cases old : w.nodes.parent x = some x <;> simp [old]
      · by_cases old : w.nodes.parent obj = some x <;> simp [old, self]

theorem nodes_release (obj : ObjectId) : (release w obj).nodes = w.nodes.release obj := by
  rw [Object.release, nodes_modify _ (f := fun o => { o with freed := true })
    (fun _ => rfl)]
  funext x
  simp only [Nodes.change, Nodes.release, Option.some.injEq, eq_comm (a := obj)]
  cases w.nodes x <;> by_cases self : x = obj <;> simp [self]

theorem nodes_construct (filename : Str) :
    (w.construct filename).nodes = w.nodes.construct w.next := by
  funext x
  by_cases self : x = w.next
  · simp [World.nodes, World.construct, Nodes.construct, self, LpcObject.node]
  · simp [World.nodes, World.construct, Nodes.construct, self]

end Nodes

end Kjdmud.Object
