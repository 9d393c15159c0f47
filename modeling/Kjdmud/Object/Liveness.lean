import Kjdmud.Object.Containment.Runs
import Kjdmud.Object.Shadow
import Mathlib.Data.List.Nodup

/-!
# Live objects

Which objects are in memory, and which of them are live, after each operation of the object
table.
-/

namespace Kjdmud.Object

variable {w w' : World} {item obj x : ObjectId} {dest : Option ObjectId}

theorem live_nodes (w : World) (x : ObjectId) :
    w.live x = (w.nodes x).any fun o => !o.freed && !o.destructed := by
  rw [World.live, World.held, World.isDestructed, World.nodes]
  cases w.objects x <;> rfl

theorem held_nodes : w.nodes.Held x ↔ w.held x = true := by
  rw [World.held, Option.any_eq_true, Nodes.Held, World.nodes]
  constructor
  · rintro ⟨node, here, held⟩
    rcases Option.map_eq_some_iff.mp here with ⟨o, there, rfl⟩
    exact ⟨o, there, Bool.not_eq_true' _ |>.mpr held⟩
  · rintro ⟨o, here, held⟩
    rw [here]
    exact ⟨o.node, rfl, Bool.not_eq_true' _ |>.mp held⟩

theorem live_iff : w.Live x ↔ w.live x = true := by
  rw [live_nodes, World.Live, World.nodes]
  cases here : w.objects x with
  | none => simp
  | some o => simp [LpcObject.node, and_comm]

theorem live_congr (same : w'.nodes = w.nodes) : w'.live x = w.live x := by
  rw [live_nodes, live_nodes, same]

theorem nodes_cutBelow (w : World) (top : ObjectId) :
    (Shadow.State.cutBelow w top).nodes = w.nodes := by
  rw [Shadow.State.cutBelow, nodes_modify_other, nodes_modifyLinked_other]
  all_goals
    intro o
    rfl

theorem live_setEnvironment : (setEnvironment w item dest).live x = w.live x := by
  rw [live_nodes, live_nodes, nodes_setEnvironment, Nodes.place, Option.any_map]

theorem live_retire : (retire w obj).live x = (w.live x && !(x == obj)) := by
  rw [live_nodes, live_nodes, nodes_retire, Nodes.retire, Option.any_map]
  cases w.nodes x with
  | none => rfl
  | some o =>
      by_cases same : x = obj
      · simp [same]
      · simp [same]

theorem live_release : (release w obj).live x = (w.live x && !(x == obj)) := by
  rw [live_nodes, live_nodes, nodes_release, Nodes.release, Option.any_map]
  cases w.nodes x with
  | none => rfl
  | some o =>
      by_cases same : x = obj
      · simp [same]
      · simp [same]

theorem live_construct {filename : Str} (other : x ≠ w.next) :
    (w.construct filename).live x = w.live x := by
  rw [live_nodes, live_nodes, nodes_construct, Nodes.construct, Function.update_of_ne other]

theorem live_construct_of_live {filename : Str} (live : w.live x = true) :
    (w.construct filename).live x = true := by
  by_cases fresh : x = w.next
  · rw [live_nodes, nodes_construct, Nodes.construct, fresh, Function.update_self]
    rfl
  · rw [live_construct fresh]
    exact live

theorem live_moveObject : (moveObject w item obj).live x = w.live x := by
  rw [moveObject_eq]
  by_cases refuses : refusesMove w item obj = true
  · rw [if_pos refuses]
  · rw [if_neg refuses]
    exact live_setEnvironment

theorem nodes_linkShadow (w : World) (self victim : ObjectId) :
    (linkShadow w self victim).nodes = w.nodes := by
  rw [linkShadow, nodes_modify_other, nodes_modify_other]
  all_goals
    intro o
    rfl

theorem nodes_removeShadow (w : World) (ob : ObjectId) : (removeShadow w ob).nodes = w.nodes := by
  unfold removeShadow
  by_cases alone : ((w.link ob LpcObject.shadowedBy).isNone &&
      (w.link ob LpcObject.shadowing).isNone) = true
  · simp only [if_pos alone]
  · simp only [if_neg alone]
    rw [nodes_modify_other, nodes_modifyLinked_other, nodes_modifyLinked_other]
    all_goals
      intro o
      rfl

theorem held_congr (same : w'.nodes = w.nodes) (x : ObjectId) :
    w'.held x = w.held x := by
  rw [Bool.eq_iff_iff, ← held_nodes, ← held_nodes, same]

theorem held_of_live (live : w.live x = true) : w.held x = true :=
  (Bool.and_eq_true_iff.mp live).1

theorem destructed_of_live (live : w.live x = true) :
    w.isDestructed x = false :=
  (Bool.not_eq_true' _).mp (Bool.and_eq_true_iff.mp live).2

theorem live_of_held (held : w.held x = true)
    (alive : w.isDestructed x = false) : w.live x = true := by
  rw [World.live, held, alive]
  rfl

theorem held_retire (w : World) (obj x : ObjectId) : (retire w obj).held x = w.held x := by
  rw [Bool.eq_iff_iff, ← held_nodes, ← held_nodes, nodes_retire, Nodes.held_retire]

/-!
## Inventories

What a move, a destruction and the other changes of the object table leave in an inventory.
Where environments and inventories agree, an object in memory holds everything once, and
nothing that another one holds.
-/

variable {w : World} {item obj x y z : ObjectId} {dest : Option ObjectId} {bound : ObjectId}

theorem inventoryOf_nodes (w : World) (x : ObjectId) :
    inventoryOf w x = ((w.nodes x).map Node.inventory).getD [] := by
  rw [inventoryOf, World.nodes, Option.map_map]
  rfl

theorem environmentOf_nodes (w : World) (x : ObjectId) :
    environmentOf w x = w.nodes.parent x :=
  link_environment w x

/-- An inventory after an item went to another place, or to none. -/
def movedInventory (w : World) (item : ObjectId) (dest : Option ObjectId) (x : ObjectId) :
    List ObjectId :=
  (if environmentOf w item = some x then (inventoryOf w x).filter (· ≠ item)
    else inventoryOf w x) ++ if dest = some x then [item] else []

theorem inventoryOf_setEnvironment (known : (w.nodes x).isSome) :
    inventoryOf (setEnvironment w item dest) x = movedInventory w item dest x := by
  rcases Option.isSome_iff_exists.mp known with ⟨o, here⟩
  rw [movedInventory, inventoryOf_nodes, inventoryOf_nodes, nodes_setEnvironment,
    environmentOf_nodes, Nodes.place, here]
  rfl

theorem inventoryOf_retire (known : (w.nodes x).isSome) :
    inventoryOf (retire w obj) x = movedInventory w obj none x := by
  rcases Option.isSome_iff_exists.mp known with ⟨o, here⟩
  rw [movedInventory, inventoryOf_nodes, inventoryOf_nodes, nodes_retire, environmentOf_nodes,
    Nodes.retire, here, if_neg (Option.some_ne_none x).symm, List.append_nil]
  rfl

theorem inventoryOf_release : inventoryOf (release w obj) x = inventoryOf w x := by
  rw [inventoryOf_nodes, inventoryOf_nodes, nodes_release, Nodes.release, Option.map_map]
  rfl

theorem inventoryOf_construct {filename : Str} (other : x ≠ w.next) :
    inventoryOf (w.construct filename) x = inventoryOf w x := by
  rw [inventoryOf_nodes, inventoryOf_nodes, nodes_construct, Nodes.construct,
    Function.update_of_ne other]

theorem inventoryOf_construct_self {filename : Str} :
    inventoryOf (w.construct filename) w.next = [] := by
  rw [inventoryOf_nodes, nodes_construct, Nodes.construct, Function.update_self]
  rfl

theorem inventoryOf_unknown (unknown : w.nodes x = none) : inventoryOf w x = [] := by
  rw [inventoryOf_nodes, unknown]
  rfl

theorem isSome_of_held (held : w.Held x) : (w.nodes x).isSome := by
  rcases held with ⟨o, here, _⟩
  rw [here]
  rfl

theorem held_iff : w.Held x ↔ w.held x = true :=
  held_nodes

/-! ## Inventories that agree with environments -/

theorem environmentOf_of_mem (linked : w.nodes.Linked bound) (held : w.Held y)
    (mem : x ∈ inventoryOf w y) : environmentOf w x = some y :=
  environmentOf_eq.mpr (linked.in_of_mem held mem)

theorem eq_of_mem_inventoryOf (linked : w.nodes.Linked bound) (heldY : w.Held y)
    (heldZ : w.Held z) (memY : x ∈ inventoryOf w y) (memZ : x ∈ inventoryOf w z) : y = z :=
  Option.some.inj ((environmentOf_of_mem linked heldY memY).symm.trans
    (environmentOf_of_mem linked heldZ memZ))

theorem mem_inventoryOf_of_environmentOf (linked : w.nodes.Linked bound)
    (inside : environmentOf w x = some y) : x ∈ inventoryOf w y := by
  have link := environmentOf_eq.mp inside
  obtain ⟨⟨o, here, _⟩, held⟩ := Nodes.in_iff.mp link
  have count := linked.count (by rw [here]; rfl) held
  rw [if_pos inside] at count
  exact List.count_pos_iff.mp (by rw [count]; exact Nat.one_pos)

theorem nodup_inventoryOf (linked : w.nodes.Linked bound) (held : w.Held y) :
    (inventoryOf w y).Nodup := by
  rw [List.nodup_iff_count_le_one]
  intro x
  by_cases mem : x ∈ inventoryOf w y
  · obtain ⟨⟨o, here, _⟩, _⟩ := Nodes.in_iff.mp (linked.in_of_mem held mem)
    rw [linked.count (by rw [here]; rfl) held]
    by_cases inside : environmentOf w x = some y
    · rw [if_pos inside]
    · rw [if_neg inside]
      exact Nat.zero_le 1
  · rw [List.count_eq_zero.mpr mem]
    exact Nat.zero_le 1

end Kjdmud.Object
