import Kjdmud.Efun.LiveLoops.Invariant

/-!
# Changes between two steps

Every change that LPC code can make leaves environments and inventories in agreement and every
vector in its buffer, and a call can go on over it if the change meets its condition.
-/

namespace Kjdmud.Efun.LiveLoops

open Object Vectors Vm

namespace Store

variable {a b : Store} {t : Telling} {f : Filtering} {grow : Nat → Nat}

/-! ## The containers -/

/-- Moves that nothing restricts. -/
abbrev Moved : Object.World → Object.World → Prop :=
  Rearranges fun _ _ _ => True

theorem length_movedInventory_le {w : Object.World} {item x : ObjectId} {dest : Option ObjectId}
    (other : dest ≠ some x) : (movedInventory w item dest x).length ≤ (inventoryOf w x).length := by
  rw [movedInventory, if_neg other, List.append_nil]
  by_cases leaves : environmentOf w item = some x
  · rw [if_pos leaves]
    exact List.length_filter_le _ _
  · rw [if_neg leaves]

theorem nodes_setEnvironment_none {w : Object.World} {item x : ObjectId}
    {dest : Option ObjectId} (unknown : w.nodes x = none) :
    (Object.setEnvironment w item dest).nodes x = none := by
  rw [nodes_setEnvironment, Nodes.place, unknown]
  rfl

theorem nodes_retire_none {w : Object.World} {obj x : ObjectId} (unknown : w.nodes x = none) :
    (Object.retire w obj).nodes x = none := by
  rw [nodes_retire, Nodes.retire, unknown]
  rfl

theorem length_inventoryOf_setEnvironment {w : Object.World} {item x : ObjectId}
    {dest : Option ObjectId} (other : dest ≠ some x) :
    (inventoryOf (Object.setEnvironment w item dest) x).length ≤ (inventoryOf w x).length := by
  cases known : w.nodes x with
  | none =>
      rw [inventoryOf_unknown (nodes_setEnvironment_none known)]
      exact Nat.zero_le _
  | some o =>
      rw [inventoryOf_setEnvironment (by rw [known]; rfl)]
      exact length_movedInventory_le other

theorem length_inventoryOf_retire {w : Object.World} {obj x : ObjectId} :
    (inventoryOf (Object.retire w obj) x).length ≤ (inventoryOf w x).length := by
  cases known : w.nodes x with
  | none =>
      rw [inventoryOf_unknown (nodes_retire_none known)]
      exact Nat.zero_le _
  | some o =>
      rw [inventoryOf_retire (by rw [known]; rfl)]
      exact length_movedInventory_le (Option.some_ne_none x).symm

theorem Contained.place (contained : a.Contained) {item : ObjectId} {dest : Option ObjectId}
    (itemHeld : a.world.Held item) (destHeld : ∀ d ∈ dest, a.world.Held d) :
    (a.place grow item dest).Contained where
  linked := by
    have moved : Moved a.world (Object.setEnvironment a.world item dest) :=
      .setEnvironment a.world item dest itemHeld destHeld fun _ _ => trivial
    exact moved.linked contained.linked
  room x := by
    by_cases comes : dest = some x
    · simp only [Store.place, if_pos comes]
      exact Buffer.le_capacity_holding _ _ _
    · simp only [Store.place, if_neg comes]
      exact (length_inventoryOf_setEnvironment comes).trans (contained.room x)
  mapRoom := contained.mapRoom
  holds := contained.holds

theorem Contained.setMapping (contained : a.Contained) {m : Nat} {mapping : Mapping}
    (holds : ∃ rows, mapping.Holds rows) : (a.setMapping grow m mapping).Contained where
  linked := contained.linked
  room := contained.room
  mapRoom k := by
    by_cases same : k = m
    · subst same
      simp only [Store.setMapping, Function.update_self]
      exact Buffer.le_capacity_holding _ _ _
    · simp only [Store.setMapping, Function.update_of_ne same]
      exact contained.mapRoom k
  holds k := by
    by_cases same : k = m
    · subst same
      simp only [Store.setMapping, Function.update_self]
      exact holds
    · simp only [Store.setMapping, Function.update_of_ne same]
      exact contained.holds k

theorem holds_ofRows {width : Nat} {rows : List (Value × List Value)} (positive : 1 ≤ width)
    (full : ∀ row ∈ rows, row.2.length = width) : (Mapping.ofRows width rows).Holds rows where
  positive := positive
  full := full
  built := rfl

theorem Contained.newMapping (contained : a.Contained) {width capacity : Nat}
    {rows : List (Value × List Value)} (positive : 1 ≤ width)
    (full : ∀ row ∈ rows, row.2.length = width) :
    (a.newMapping width rows capacity).Contained where
  linked := contained.linked
  room := contained.room
  mapRoom k := by
    by_cases same : k = a.nextMapping
    · subst same
      simp only [Store.newMapping, Function.update_self, Mapping.ofRows, List.length_map]
      exact Nat.le_max_right _ _
    · simp only [Store.newMapping, Function.update_of_ne same]
      exact contained.mapRoom k
  holds k := by
    by_cases same : k = a.nextMapping
    · subst same
      simp only [Store.newMapping, Function.update_self]
      exact ⟨rows, holds_ofRows positive full⟩
    · simp only [Store.newMapping, Function.update_of_ne same]
      exact contained.holds k

/-- Nothing holds an object whose environment is gone. -/
theorem loose_of_environmentOf (contained : a.Contained) {obj : ObjectId}
    (alone : environmentOf a.world obj = none) (y : ObjectId) (held : a.world.Held y) :
    obj ∉ inventoryOf a.world y := by
  intro mem
  rw [environmentOf_of_mem contained.linked held mem] at alone
  cases alone

theorem Contained.change {op : Op} (contained : a.Contained) (step : a.change grow op = some b) :
    b.Contained := by
  cases op with
  | construct filename =>
      cases step
      have moved : Moved a.world (a.world.construct filename) := .construct a.world filename
      refine ⟨moved.linked contained.linked, fun x => ?_, contained.mapRoom, contained.holds⟩
      by_cases fresh : x = a.world.next
      · subst fresh
        simp only [inventoryOf_construct_self]
        exact Nat.zero_le _
      · simp only [inventoryOf_construct fresh]
        exact contained.room x
  | move item dest =>
      rw [Store.change, Option.ite_none_right_eq_some, Bool.and_eq_true_iff] at step
      obtain ⟨⟨itemHeld, destHeld⟩, done⟩ := step
      rw [Option.some.injEq] at done
      subst done
      by_cases refuses : refusesMove a.world item dest = true
      · rw [if_pos refuses]
        exact contained
      · rw [if_neg refuses]
        refine contained.place (held_iff.mpr itemHeld) ?_
        rintro d ⟨⟩
        exact held_iff.mpr destHeld
  | setEnvironment item dest =>
      rw [Store.change, Option.ite_none_right_eq_some, Bool.and_eq_true_iff] at step
      obtain ⟨⟨itemHeld, destHeld⟩, done⟩ := step
      cases done
      refine contained.place (held_iff.mpr itemHeld) ?_
      rintro d ⟨⟩
      exact held_iff.mpr destHeld
  | retire obj =>
      cases step
      have moved : Moved a.world (Object.retire a.world obj) := .retire a.world obj
      exact ⟨moved.linked contained.linked,
        fun x => length_inventoryOf_retire.trans (contained.room x), contained.mapRoom,
        contained.holds⟩
  | release obj =>
      obtain ⟨alone, done⟩ := Option.ite_none_left_eq_some.mp step
      rw [Bool.not_eq_true, Option.isSome_eq_false_iff, Option.isNone_iff_eq_none] at alone
      cases done
      have moved : Moved a.world (Object.release a.world obj) :=
        .release a.world obj (loose_of_environmentOf contained alone)
      refine ⟨moved.linked contained.linked, fun x => ?_, contained.mapRoom, contained.holds⟩
      simp only [inventoryOf_release]
      exact contained.room x
  | listeners new =>
      cases step
      exact ⟨contained.linked, contained.room, contained.mapRoom, contained.holds⟩
  | newMapping width rows capacity =>
      rw [Store.change, Option.ite_none_right_eq_some, Bool.and_eq_true_iff] at step
      obtain ⟨⟨positive, full⟩, done⟩ := step
      cases done
      rw [List.all_eq_true] at full
      exact contained.newMapping (of_decide_eq_true positive)
        fun row mem => of_decide_eq_true (full row mem)
  | assign m key value col =>
      rw [Store.change, Option.ite_none_right_eq_some, Bool.and_eq_true_iff] at step
      obtain ⟨⟨_, inside⟩, done⟩ := step
      cases done
      obtain ⟨rows, holds⟩ := contained.holds m
      exact contained.setMapping ⟨_, holds.assign key value (of_decide_eq_true inside)⟩
  | mapDelete m key =>
      obtain ⟨_, done⟩ := Option.ite_none_right_eq_some.mp step
      cases done
      obtain ⟨rows, holds⟩ := contained.holds m
      exact contained.setMapping ⟨_, holds.delete key⟩
  | reclaim m =>
      obtain ⟨_, done⟩ := Option.ite_none_right_eq_some.mp step
      cases done
      obtain ⟨rows, holds⟩ := contained.holds m
      exact contained.setMapping ⟨_, holds_reclaim holds⟩
  | _ => cases step

/-! ## The calls that go on -/

/-- A call goes on over a change of the environment of an item. -/
theorem Fair.place (fair : a.Fair t) (stayed : ∀ e ∈ t.stayed, a.remains t e = true)
    (contained : a.Contained) {item : ObjectId} {dest : Option ObjectId}
    (after : (a.place grow item dest).Contained)
    (admits : ∀ loop, t.walking = some loop → loop.range.index < loop.range.stop →
      a.Admits loop item dest) : (a.place grow item dest).Fair t := by
  refine fair.change stayed after (fun walk mem => ?_) fun loop walking unfinished => ?_
  · have held := fair.held walk mem
    rw [Object.World.Held] at held ⊢
    exact (nodes_setEnvironment a.world item dest).symm ▸ Nodes.held_place.mpr held
  · have held := fair.held loop.walk (walking_mem_walks walking)
    obtain ⟨spared, room⟩ := Admits.spares contained held (fair.fits loop walking) unfinished
      (admits loop walking unfinished)
    have moved : inventoryOf (Object.setEnvironment a.world item dest) loop.walk.holder =
        movedInventory a.world item dest loop.walk.holder :=
      inventoryOf_setEnvironment (isSome_of_held held)
    simp only [Store.place, moved]
    refine ⟨?_, spared⟩
    by_cases comes : dest = some loop.walk.holder
    · rw [if_pos comes, Buffer.holding_of_le room]
    · rw [if_neg comes]

theorem Fair.retire (fair : a.Fair t) (stayed : ∀ e ∈ t.stayed, a.remains t e = true)
    (contained : a.Contained) {obj : ObjectId}
    (after : Contained { a with world := Object.retire a.world obj })
    (admits : ∀ loop, t.walking = some loop → loop.range.index < loop.range.stop →
      a.Admits loop obj none) : Fair { a with world := Object.retire a.world obj } t := by
  refine fair.change stayed after (fun walk mem => ?_) fun loop walking unfinished => ?_
  · have held := fair.held walk mem
    rw [Object.World.Held] at held ⊢
    exact (nodes_retire a.world obj).symm ▸ Nodes.held_retire.mpr held
  · have held := fair.held loop.walk (walking_mem_walks walking)
    obtain ⟨spared, _⟩ := Admits.spares contained held (fair.fits loop walking) unfinished
      (admits loop walking unfinished)
    have moved : inventoryOf (Object.retire a.world obj) loop.walk.holder =
        movedInventory a.world obj none loop.walk.holder :=
      inventoryOf_retire (isSome_of_held held)
    exact ⟨rfl, moved.symm ▸ spared⟩

/-- A change that leaves the mappings is nothing to a filter. -/
theorem Examines.same (examines : a.Examines f) (mappings : b.mappings = a.mappings)
    (mapMemory : b.mapMemory = a.mapMemory) (nextMapping : b.nextMapping = a.nextMapping) :
    b.Examines f where
  known := nextMapping ▸ examines.known
  here := mappings ▸ examines.here
  buffer := mapMemory ▸ examines.buffer
  room := mapMemory ▸ examines.room
  own := examines.own

theorem Examines.setMapping (examines : a.Examines f) {m : Nat} {mapping : Mapping}
    (spared : f.mapping = m → mapping.entries[f.index]? = some f.given ∧
      mapping.entries.length ≤ (a.mapMemory m).capacity) :
    (a.setMapping grow m mapping).Examines f := by
  by_cases same : f.mapping = m
  · obtain ⟨here, room⟩ := spared same
    refine ⟨examines.known, ?_, ?_, ?_, examines.own⟩
    all_goals
      subst same
      simp only [Store.setMapping, Function.update_self, Buffer.holding_of_le room]
    · exact here
    · exact examines.buffer
    · exact examines.room
  · refine ⟨examines.known, ?_, ?_, ?_, examines.own⟩
    all_goals
      simp only [Store.setMapping, Function.update_of_ne same]
    · exact examines.here
    · exact examines.buffer
    · exact examines.room

theorem Examines.newMapping (examines : a.Examines f) {width capacity : Nat}
    {rows : List (Value × List Value)} : (a.newMapping width rows capacity).Examines f := by
  have old : f.mapping ≠ a.nextMapping := Nat.ne_of_lt examines.known
  refine ⟨Nat.lt_succ_of_lt examines.known, ?_, ?_, ?_, examines.own⟩
  all_goals
    simp only [Store.newMapping, Function.update_of_ne old]
  · exact examines.here
  · exact examines.buffer
  · exact examines.room

/-- What a call that goes on relies on. -/
def Supports (a : Store) : Frame → Prop
  | .telling t => a.Fair t
  | .filtering f => a.Examines f

/-- Everybody who is said to have stayed is there. -/
def Sees (a : Store) : Frame → Prop
  | .telling t => ∀ e ∈ t.stayed, a.remains t e = true
  | .filtering _ => True

end Store

namespace State

variable {s : State} {b : Store} {t : Telling} {f : Filtering} {grow : Nat → Nat} {op : Op}

theorem mem_loops {loop : Loop} (mem : .telling t ∈ s.frames) (walking : t.walking = some loop) :
    loop ∈ s.loops :=
  List.mem_filterMap.mpr ⟨_, mem, walking⟩

theorem mem_filterings {m : Nat} (mem : .filtering f ∈ s.frames) (same : f.mapping = m) :
    f ∈ s.filterings m :=
  List.mem_filterMap.mpr ⟨_, mem, if_pos same⟩

theorem mem_holders {walk : Walk} (mem : .telling t ∈ s.frames) (walks : walk ∈ t.walks) :
    walk.holder ∈ s.holders :=
  List.mem_flatMap.mpr ⟨_, mem, List.mem_map.mpr ⟨walk, walks, rfl⟩⟩

theorem Moves.admits {item : ObjectId} {dest : Option ObjectId} (moves : s.Moves item dest)
    (mem : .telling t ∈ s.frames) (loop : Loop) (walking : t.walking = some loop)
    (unfinished : loop.range.index < loop.range.stop) : s.Admits loop item dest :=
  moves loop (mem_loops mem walking) unfinished

/-- A telling goes on over a change that meets its condition. -/
theorem fair_change (contained : s.Contained) (mem : .telling t ∈ s.frames) (fair : s.Fair t)
    (stayed : ∀ e ∈ t.stayed, s.remains t e = true)
    (stays : ∀ obj ∈ s.holders, op.releases obj = false) (clear : s.Clear op)
    (step : s.change grow op = some b) : b.Fair t := by
  have after := contained.change step
  cases op with
  | construct filename =>
      cases step
      have old : ∀ walk ∈ t.walks, walk.holder ≠ s.world.next := by
        intro walk there fresh
        have known := isSome_of_held (fair.held walk there)
        rw [fresh, contained.linked.fresh _ (Nat.le_refl _)] at known
        cases known
      refine fair.same stayed after (fun walk there => ?_)
        (fun walk there => inventoryOf_construct (old walk there)) rfl
      have held := fair.held walk there
      rw [Object.World.Held] at held ⊢
      simp only [nodes_construct, Nodes.construct, Nodes.Held,
        Function.update_of_ne (old walk there)]
      exact held
  | move item dest =>
      rw [Store.change, Option.ite_none_right_eq_some, Option.some.injEq] at step
      obtain ⟨_, done⟩ := step
      subst done
      by_cases refuses : refusesMove s.world item dest = true
      · rw [if_pos refuses]
        exact fair
      · rw [if_neg refuses] at after ⊢
        exact fair.place stayed contained after
          (Moves.admits (clear ((Bool.not_eq_true _).mp refuses)) mem)
  | setEnvironment item dest =>
      obtain ⟨_, done⟩ := Option.ite_none_right_eq_some.mp step
      cases done
      exact fair.place stayed contained after (Moves.admits clear mem)
  | retire obj =>
      cases step
      exact fair.retire stayed contained after (Moves.admits clear mem)
  | release obj =>
      obtain ⟨_, done⟩ := Option.ite_none_left_eq_some.mp step
      cases done
      refine fair.same stayed after (fun walk there => ?_)
        (fun walk there => inventoryOf_release) rfl
      have other : walk.holder ≠ obj := by
        intro same
        have kept := stays walk.holder (mem_holders mem there)
        rw [Op.releases, same] at kept
        exact of_decide_eq_false kept rfl
      have held := fair.held walk there
      rw [Object.World.Held] at held ⊢
      exact (nodes_release s.world obj).symm ▸ Nodes.held_release.mpr ⟨other, held⟩
  | listeners new =>
      cases step
      exact fair.same stayed after fair.held (fun _ _ => rfl) rfl
  | newMapping width rows capacity =>
      obtain ⟨_, done⟩ := Option.ite_none_right_eq_some.mp step
      cases done
      exact fair.same stayed after fair.held (fun _ _ => rfl) rfl
  | assign m key value col =>
      obtain ⟨_, done⟩ := Option.ite_none_right_eq_some.mp step
      cases done
      exact fair.same stayed after fair.held (fun _ _ => rfl) rfl
  | mapDelete m key =>
      obtain ⟨_, done⟩ := Option.ite_none_right_eq_some.mp step
      cases done
      exact fair.same stayed after fair.held (fun _ _ => rfl) rfl
  | reclaim m =>
      obtain ⟨_, done⟩ := Option.ite_none_right_eq_some.mp step
      cases done
      exact fair.same stayed after fair.held (fun _ _ => rfl) rfl
  | _ => cases step

/-- A filter goes on over a change that meets its condition. -/
theorem examines_change (contained : s.Contained) (mem : .filtering f ∈ s.frames)
    (examines : s.Examines f) (clear : s.Clear op) (step : s.change grow op = some b) :
    b.Examines f := by
  cases op with
  | construct filename =>
      cases step
      exact examines.same rfl rfl rfl
  | move item dest =>
      rw [Store.change, Option.ite_none_right_eq_some, Option.some.injEq] at step
      obtain ⟨_, done⟩ := step
      subst done
      by_cases refuses : refusesMove s.world item dest = true
      · rw [if_pos refuses]
        exact examines
      · rw [if_neg refuses]
        exact examines.same rfl rfl rfl
  | setEnvironment item dest =>
      obtain ⟨_, done⟩ := Option.ite_none_right_eq_some.mp step
      cases done
      exact examines.same rfl rfl rfl
  | retire obj =>
      cases step
      exact examines.same rfl rfl rfl
  | release obj =>
      obtain ⟨_, done⟩ := Option.ite_none_left_eq_some.mp step
      cases done
      exact examines.same rfl rfl rfl
  | listeners new =>
      cases step
      exact examines.same rfl rfl rfl
  | newMapping width rows capacity =>
      obtain ⟨_, done⟩ := Option.ite_none_right_eq_some.mp step
      cases done
      exact examines.newMapping
  | assign m key value col =>
      obtain ⟨_, done⟩ := Option.ite_none_right_eq_some.mp step
      cases done
      refine examines.setMapping fun same => ?_
      have spared := clear f (mem_filterings mem same)
      have here := examines.here
      rw [same] at here
      refine ⟨entry_assign (fun j found => ?_) here,
        length_assign (contained.mapRoom m) fun missing => ?_⟩
      · rw [found] at spared
        exact spared
      · rw [missing] at spared
        exact spared
  | mapDelete m key =>
      obtain ⟨_, done⟩ := Option.ite_none_right_eq_some.mp step
      cases done
      obtain ⟨rows, holds⟩ := contained.holds m
      refine examines.setMapping fun same => ?_
      have here := examines.here
      rw [same] at here
      exact ⟨entry_delete holds (clear f (mem_filterings mem same)) here,
        (length_delete holds key).trans (contained.mapRoom m)⟩
  | reclaim m =>
      obtain ⟨_, done⟩ := Option.ite_none_right_eq_some.mp step
      cases done
      obtain ⟨rows, holds⟩ := contained.holds m
      refine examines.setMapping fun same => ?_
      have here := examines.here
      rw [same] at here
      obtain ⟨keys, value⟩ := clear f (mem_filterings mem same)
      exact ⟨entry_reclaim holds keys value here,
        (length_reclaim holds).trans (contained.mapRoom m)⟩
  | _ => cases step

end State

end Kjdmud.Efun.LiveLoops
