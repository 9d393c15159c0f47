import Kjdmud.Efun.LiveLoops.Entries
import Kjdmud.Object.Liveness

/-!
# What a call can rely on

A call of `say` or `tell_room` holds on to the objects whose inventories it walks, its loop
fits the inventory, and everybody who stayed is either yet to be read or has the text once.  A
call of `filter_mapping` has its entry where it fetched it.  A change that LPC code makes keeps
this if it meets its condition, and so does every step of a call.
-/

namespace Kjdmud.Efun.LiveLoops

open Object Vectors Vm

namespace Store

variable {a b : Store} {t : Telling} {f : Filtering} {loop : Loop} {e : ObjectId × ObjectId}

/-- Environments and inventories agree, and every vector fits into its buffer. -/
structure Contained (a : Store) : Prop where
  linked : a.world.nodes.Linked a.world.next
  room : ∀ x, (inventoryOf a.world x).length ≤ (a.memory x).capacity
  mapRoom : ∀ m, (a.mappings m).entries.length ≤ (a.mapMemory m).capacity
  holds : ∀ m, ∃ rows, (a.mappings m).Holds rows

/-- A loop is where it can read on. -/
structure Fits (a : Store) (loop : Loop) : Prop where
  before : loop.range.index ≤ loop.range.stop
  buffer : loop.range.index < loop.range.stop →
    (a.memory loop.walk.holder).allocation = loop.range.allocation
  enough : loop.range.index < loop.range.stop →
    loop.range.stop ≤ (inventoryOf a.world loop.walk.holder).length

/-- The loops of a call will come to an object. -/
def Awaits (a : Store) (t : Telling) (e : ObjectId × ObjectId) : Prop :=
  (∃ walk ∈ t.pending, walk.holder = e.1) ∨
    ∃ loop, t.walking = some loop ∧ loop.walk.holder = e.1 ∧
      e.2 ∈ loop.range.ahead (inventoryOf a.world e.1)

/-- An object that stayed gets the text once. -/
structure Settled (a : Store) (t : Telling) (e : ObjectId × ObjectId) : Prop where
  passes : ∀ walk ∈ t.walks, walk.holder = e.1 → walk.origin ≠ some e.2
  window : ∀ loop, t.walking = some loop → loop.walk.holder = e.1 →
    loop.range.index < loop.range.stop →
      e.2 ∈ (inventoryOf a.world e.1).take loop.range.stop
  waits : a.Awaits t e → (t.received.map Prod.fst).count e.2 = 0
  got : ¬ a.Awaits t e → (t.received.map Prod.fst).count e.2 = 1

/-- What `say` and `tell_room` rely on. -/
structure Fair (a : Store) (t : Telling) : Prop where
  held : ∀ walk ∈ t.walks, a.world.Held walk.holder
  apart : (t.walks.map Walk.holder).Nodup
  fits : ∀ loop, t.walking = some loop → a.Fits loop
  settled : ∀ e ∈ t.stayed, a.remains t e = true → a.Settled t e

/-- What `filter_mapping` relies on. -/
structure Examines (a : Store) (f : Filtering) : Prop where
  known : f.mapping < a.nextMapping
  here : (a.mappings f.mapping).entries[f.index]? = some f.given
  buffer : (a.mapMemory f.mapping).allocation = f.allocation
  room : (a.mapMemory f.mapping).capacity = f.room
  own : f.result.entries = f.accepted

theorem walking_mem_walks (walking : t.walking = some loop) : loop.walk ∈ t.walks := by
  rw [Telling.walks, walking]
  exact List.mem_append_left _ (List.mem_singleton_self _)

theorem remains_iff : a.remains t e = true ↔
    a.world.Held e.1 ∧ e.2 ∈ inventoryOf a.world e.1 ∧
      (t.sendTo a.listeners e.2).isSome = true := by
  rw [remains, Bool.and_eq_true_iff, Bool.and_eq_true_iff, List.contains_iff_mem, held_iff,
    and_assoc]

/-! ## Changes -/

/-- A call goes on over a change that spares its loop. -/
theorem Fair.change (fair : a.Fair t) (stayed : ∀ e ∈ t.stayed, a.remains t e = true)
    (contained : b.Contained) (held : ∀ walk ∈ t.walks, b.world.Held walk.holder)
    (spares : ∀ loop, t.walking = some loop → loop.range.index < loop.range.stop →
      (b.memory loop.walk.holder).allocation = (a.memory loop.walk.holder).allocation ∧
        loop.range.Spares (inventoryOf a.world loop.walk.holder)
          (inventoryOf b.world loop.walk.holder)) : b.Fair t where
  held := held
  apart := fair.apart
  fits loop walking := by
    have fits := fair.fits loop walking
    exact ⟨fits.before,
      fun unfinished => (spares loop walking unfinished).1.trans (fits.buffer unfinished),
      fun unfinished => (spares loop walking unfinished).2.enough⟩
  settled e mem remains := by
    have settled := fair.settled e mem (stayed e mem)
    obtain ⟨heldNow, inside, _⟩ := remains_iff.mp remains
    have awaits : b.Awaits t e ↔ a.Awaits t e := by
      refine or_congr Iff.rfl (exists_congr fun loop => and_congr_right fun walking =>
        and_congr_right fun same => ?_)
      have before := (fair.fits loop walking).before
      rcases Nat.lt_or_ge loop.range.index loop.range.stop with unfinished | reached
      · have spared := (spares loop walking unfinished).2
        rw [same] at spared
        exact spared.mem_ahead_iff before (nodup_inventoryOf contained.linked heldNow) inside
          (settled.window loop walking same unfinished)
      · have ended := Nat.le_antisymm before reached
        rw [Range.ahead_ended ended, Range.ahead_ended ended]
    refine ⟨settled.passes, ?_, fun waits => settled.waits (awaits.mp waits),
      fun done => settled.got fun waits => done (awaits.mpr waits)⟩
    intro loop walking same unfinished
    have spared := (spares loop walking unfinished).2
    rw [same] at spared
    exact spared.mem_take (fair.fits loop walking).before inside
      (settled.window loop walking same unfinished)

/-- A call goes on over a change that leaves the inventories and their buffers. -/
theorem Fair.same (fair : a.Fair t) (stayed : ∀ e ∈ t.stayed, a.remains t e = true)
    (contained : b.Contained) (held : ∀ walk ∈ t.walks, b.world.Held walk.holder)
    (inventories : ∀ walk ∈ t.walks,
      inventoryOf b.world walk.holder = inventoryOf a.world walk.holder)
    (memory : b.memory = a.memory) : b.Fair t := by
  refine fair.change stayed contained held fun loop walking unfinished => ?_
  rw [memory, inventories loop.walk (walking_mem_walks walking)]
  exact ⟨rfl, Range.Spares.refl ((fair.fits loop walking).enough unfinished)⟩

/-- What a loop admits, it can go on over. -/
theorem Admits.spares {item : ObjectId} {dest : Option ObjectId} (contained : a.Contained)
    (held : a.world.Held loop.walk.holder) (fits : a.Fits loop)
    (unfinished : loop.range.index < loop.range.stop) (admits : a.Admits loop item dest) :
    loop.range.Spares (inventoryOf a.world loop.walk.holder)
        (movedInventory a.world item dest loop.walk.holder) ∧
      (movedInventory a.world item dest loop.walk.holder).length ≤
        (a.memory loop.walk.holder).capacity := by
  have enough := fits.enough unfinished
  have room := contained.room loop.walk.holder
  have nodup := nodup_inventoryOf contained.linked held
  unfold Admits at admits
  unfold movedInventory
  by_cases leaves : environmentOf a.world item = some loop.walk.holder
  · rw [if_pos leaves] at admits ⊢
    obtain ⟨unread, left⟩ := admits
    have mem := mem_inventoryOf_of_environmentOf contained.linked leaves
    have length := length_filter_ne nodup mem
    by_cases returns : dest = some loop.walk.holder
    · rw [if_pos returns] at left ⊢
      refine ⟨Range.spares_rotate fits.before enough unread left nodup mem, ?_⟩
      rw [List.length_append, List.length_singleton, length]
      exact room
    · rw [if_neg returns] at left ⊢
      rw [List.append_nil]
      refine ⟨Range.spares_filter fits.before enough unread ?_,
        (List.length_filter_le _ _).trans room⟩
      exact Nat.le_of_lt_succ (Nat.lt_of_lt_of_eq left length.symm)
  · rw [if_neg leaves] at admits ⊢
    by_cases enters : dest = some loop.walk.holder
    · rw [if_pos enters]
      refine ⟨Range.spares_append fits.before enough, ?_⟩
      rw [List.length_append, List.length_singleton]
      exact admits enters
    · rw [if_neg enters, List.append_nil]
      exact ⟨Range.Spares.refl enough, room⟩

/-! ## The steps of a telling -/

/-- A call that has nothing left to walk has told everybody who stayed. -/
theorem Fair.told (fair : a.Fair t) (stayed : ∀ e ∈ t.stayed, a.remains t e = true)
    (walking : t.walking = none) (pending : t.pending = []) (mem : e ∈ t.stayed) :
    (t.received.map Prod.fst).count e.2 = 1 := by
  refine (fair.settled e mem (stayed e mem)).got ?_
  rintro (⟨walk, waits, _⟩ | ⟨loop, waits, _⟩)
  · rw [pending] at waits
    cases waits
  · rw [walking] at waits
    cases waits

theorem Fair.begins (fair : a.Fair t) {walk : Walk} {pending : List Walk}
    (walking : t.walking = none) (waiting : t.pending = walk :: pending) :
    a.Fair { t with walking := some (a.begins walk), pending, calling := false } := by
  have walks : t.walks = walk :: pending := by
    rw [Telling.walks, walking, waiting]
    rfl
  refine ⟨fun other mem => fair.held other (walks ▸ mem), ?_, ?_, ?_⟩
  · have apart := fair.apart
    rw [walks] at apart
    exact apart
  · rintro loop ⟨⟩
    exact ⟨Nat.zero_le _, fun _ => rfl, fun _ => Nat.le_refl _⟩
  · intro e mem remains
    have settled := fair.settled e mem remains
    obtain ⟨_, inside, _⟩ := remains_iff.mp remains
    have awaits : a.Awaits { t with walking := some (a.begins walk), pending, calling := false } e ↔
        a.Awaits t e := by
      constructor
      · rintro (⟨other, there, same⟩ | ⟨loop, ⟨⟩, same, _⟩)
        · exact .inl ⟨other, by rw [waiting]; exact List.mem_cons_of_mem _ there, same⟩
        · exact .inl ⟨walk, by rw [waiting]; exact List.mem_cons_self, same⟩
      · rintro (⟨other, there, same⟩ | ⟨loop, there, _⟩)
        · rw [waiting] at there
          rcases List.mem_cons.mp there with rfl | later
          · refine .inr ⟨_, rfl, same, ?_⟩
            rw [← same] at inside ⊢
            rw [Store.begins, Range.ahead_whole]
            exact inside
          · exact .inl ⟨other, later, same⟩
        · rw [walking] at there
          cases there
    refine ⟨fun other there => settled.passes other (walks ▸ there), ?_,
      fun waits => settled.waits (awaits.mp waits),
      fun done => settled.got fun waits => done (awaits.mpr waits)⟩
    rintro loop ⟨⟩ same _
    rw [← same] at inside ⊢
    rw [Store.begins, Range.whole, List.take_length]
    exact inside

theorem Fair.ends (fair : a.Fair t) (walking : t.walking = some loop)
    (ended : loop.range.index = loop.range.stop) :
    a.Fair { t with walking := none, calling := false } := by
  have walks : t.walks = loop.walk :: t.pending := by
    rw [Telling.walks, walking]
    rfl
  refine ⟨fun walk mem => fair.held walk (walks ▸ List.mem_cons_of_mem _ mem), ?_, ?_, ?_⟩
  · have apart := fair.apart
    rw [walks, List.map_cons] at apart
    exact (List.nodup_cons.mp apart).2
  · rintro other ⟨⟩
  · intro e mem remains
    have settled := fair.settled e mem remains
    have awaits : a.Awaits { t with walking := none, calling := false } e ↔ a.Awaits t e := by
      refine or_congr Iff.rfl ⟨?_, ?_⟩
      · rintro ⟨other, ⟨⟩, _⟩
      · rintro ⟨other, there, _, ahead⟩
        rw [walking] at there
        cases there
        rw [Range.ahead_ended ended] at ahead
        cases ahead
    exact ⟨fun walk there => settled.passes walk (walks ▸ List.mem_cons_of_mem _ there),
      fun _ there => (by cases there), fun waits => settled.waits (awaits.mp waits),
      fun done => settled.got fun waits => done (awaits.mpr waits)⟩

/-- A loop that is not at its end reads an element. -/
theorem Fits.reads (fits : a.Fits loop) (unfinished : loop.range.index < loop.range.stop) :
    ∃ ob, a.reads loop = some ob ∧
      (inventoryOf a.world loop.walk.holder)[loop.range.index]? = some ob := by
  have inside := Nat.lt_of_lt_of_le unfinished (fits.enough unfinished)
  rw [Store.reads, Buffer.read_of_allocation (fits.buffer unfinished)]
  exact ⟨_, List.getElem?_eq_getElem inside, List.getElem?_eq_getElem inside⟩

/-- What a loop hands out for an element. -/
def handsOut (a : Store) (t : Telling) (loop : Loop) (ob : ObjectId) :
    List (ObjectId × Receipt) :=
  if loop.walk.origin = some ob then [] else (t.sendTo a.listeners ob).toList.map (ob, ·)

theorem visit_eq (a : Store) (t : Telling) (loop : Loop) (ob : ObjectId) :
    ∃ calling, a.visit t loop ob =
      { t with
        walking := some { loop with range := loop.range.next }
        calling
        received := t.received ++ a.handsOut t loop ob } := by
  unfold visit handsOut
  by_cases origin : loop.walk.origin = some ob
  · simp only [if_pos origin, List.append_nil]
    exact ⟨_, rfl⟩
  · simp only [if_neg origin]
    exact ⟨_, rfl⟩

theorem map_fst_handsOut (other : loop.walk.origin ≠ some e.2)
    (listens : (t.sendTo a.listeners e.2).isSome = true) :
    (a.handsOut t loop e.2).map Prod.fst = [e.2] := by
  obtain ⟨receipt, sent⟩ := Option.isSome_iff_exists.mp listens
  rw [handsOut, if_neg other, sent]
  rfl

theorem count_handsOut {ob x : ObjectId} (other : x ≠ ob) :
    ((a.handsOut t loop ob).map Prod.fst).count x = 0 := by
  rw [List.count_eq_zero, handsOut]
  intro mem
  by_cases origin : loop.walk.origin = some ob
  · rw [if_pos origin] at mem
    cases mem
  · rw [if_neg origin, List.map_map] at mem
    obtain ⟨_, _, same⟩ := List.mem_map.mp mem
    exact other same.symm

theorem Fair.visit (fair : a.Fair t) (contained : a.Contained) (walking : t.walking = some loop)
    (unfinished : loop.range.index < loop.range.stop) {ob : ObjectId}
    (here : (inventoryOf a.world loop.walk.holder)[loop.range.index]? = some ob) :
    a.Fair (a.visit t loop ob) := by
  obtain ⟨calling, visited⟩ := visit_eq a t loop ob
  have walks : t.walks = loop.walk :: t.pending := by
    rw [Telling.walks, walking]
    rfl
  have fits := fair.fits loop walking
  have holds := fair.held loop.walk (walking_mem_walks walking)
  have nodup := nodup_inventoryOf contained.linked holds
  have ahead := Range.ahead_next unfinished here
  rw [visited]
  refine ⟨fun walk mem => fair.held walk (walks ▸ mem), ?_, ?_, ?_⟩
  · have apart := fair.apart
    rw [walks] at apart
    exact apart
  · rintro next ⟨⟩
    exact ⟨unfinished, fun _ => fits.buffer unfinished, fun _ => fits.enough unfinished⟩
  · intro e mem remains
    have remains : a.remains t e = true := remains
    have settled := fair.settled e mem remains
    obtain ⟨held, inside, listens⟩ := remains_iff.mp remains
    have passes : ∀ walk ∈ t.walks, walk.holder = e.1 → walk.origin ≠ some e.2 :=
      settled.passes
    refine ⟨fun walk there => passes walk (walks ▸ there), ?_, ?_, ?_⟩
    · rintro next ⟨⟩ same _
      exact settled.window loop walking same unfinished
    all_goals
      rw [List.map_append, List.count_append]
    · intro waits
      have waited : a.Awaits t e ∧ e.2 ≠ ob := by
        rcases waits with ⟨walk, there, same⟩ | ⟨next, ⟨⟩, same, later⟩
        · refine ⟨.inl ⟨walk, there, same⟩, ?_⟩
          rintro rfl
          have apart := fair.apart
          rw [walks, List.map_cons] at apart
          have two := eq_of_mem_inventoryOf contained.linked holds held
            (List.mem_of_getElem? here) inside
          exact (List.nodup_cons.mp apart).1
            (List.mem_map.mpr ⟨walk, there, same.trans two.symm⟩)
        · rw [← same] at later
          constructor
          · refine .inr ⟨loop, walking, same, ?_⟩
            rw [← same, ahead]
            exact List.mem_cons_of_mem _ later
          · rintro rfl
            have once : (loop.range.ahead (inventoryOf a.world loop.walk.holder)).Nodup :=
              (nodup.sublist (List.take_sublist _ _)).sublist (List.drop_sublist _ _)
            rw [ahead] at once
            exact (List.nodup_cons.mp once).1 later
      rw [settled.waits waited.1, count_handsOut waited.2]
    · intro done
      by_cases now : e.2 = ob
      · subst now
        have same := eq_of_mem_inventoryOf contained.linked holds held
          (List.mem_of_getElem? here) inside
        have waited : a.Awaits t e := by
          refine .inr ⟨loop, walking, same, ?_⟩
          rw [← same, ahead]
          exact List.mem_cons_self
        rw [settled.waits waited, map_fst_handsOut
          (passes loop.walk (walking_mem_walks walking) same) listens]
        rw [List.count_singleton_self]
      · have before : ¬ a.Awaits t e := by
          rintro (⟨walk, there, same⟩ | ⟨other, there, same, later⟩)
          · exact done (.inl ⟨walk, there, same⟩)
          · rw [walking] at there
            cases there
            refine done (.inr ⟨_, rfl, same, ?_⟩)
            rw [← same, ahead] at later
            rw [← same]
            exact (List.mem_cons.mp later).resolve_left now
        rw [settled.got before, count_handsOut now]

/-! ## The beginning of a telling -/

theorem fair_opens {efun : TellEfun} {avoid : List ObjectId} {text : Str} {walks : List Walk}
    (held : ∀ walk ∈ walks, a.world.Held walk.holder)
    (apart : (walks.map Walk.holder).Nodup) {calling : Bool}
    {received : List (ObjectId × Receipt)}
    (apartFrom : ∀ walk ∈ walks, ∀ x ∈ inventoryOf a.world walk.holder,
      x ∉ received.map Prod.fst) :
    a.Fair { a.opens efun avoid text walks with calling, received } where
  held := held
  apart := apart
  fits _ walking := by cases walking
  settled e mem _ := by
    obtain ⟨walk, there, inside⟩ := List.mem_flatMap.mp mem
    obtain ⟨x, kept, rfl⟩ := List.mem_map.mp inside
    obtain ⟨inside, other⟩ := List.mem_filter.mp kept
    have waits : a.Awaits { a.opens efun avoid text walks with calling, received }
        (walk.holder, x) := .inl ⟨walk, there, rfl⟩
    refine ⟨fun walk' there' same => ?_, fun _ walking => (by cases walking), fun _ => ?_,
      fun done => absurd waits done⟩
    · have equal := List.inj_on_of_nodup_map apart there' there same
      rw [equal]
      exact of_decide_eq_true other
    · exact List.count_eq_zero.mpr (apartFrom walk there x inside)

/-! ## The steps of a filter -/

/-- A true answer puts the entry that the callback was called with into the result. -/
theorem Examines.keeps (examines : a.Examines f) (contained : a.Contained) :
    ∃ result, a.keeps f = some result ∧ result.entries = f.accepted ++ [f.given] := by
  obtain ⟨rows, holds⟩ := contained.holds f.mapping
  rw [Store.keeps, Buffer.read_of_allocation examines.buffer, examines.here, Option.bind_some]
  by_cases narrow : (a.mappings f.mapping).extraColumns.isEmpty = true
  · rw [if_pos narrow]
    exact ⟨_, rfl, congrArg (· ++ [f.given]) examines.own⟩
  · rw [if_neg narrow]
    have row : f.index < (a.mappings f.mapping).extraColumns.length := by
      obtain ⟨inside, _⟩ := List.getElem?_eq_some_iff.mp examines.here
      have built := congrArg Mapping.extraColumns holds.built
      rw [Mapping.ofRows] at built
      by_cases wide : (a.mappings f.mapping).width > 1
      · rw [if_pos wide] at built
        rw [built, List.length_map, ← holds.length]
        exact inside
      · rw [if_neg wide] at built
        rw [built] at narrow
        exact absurd rfl narrow
    rw [List.getElem?_eq_getElem row]
    exact ⟨_, rfl, congrArg (· ++ [f.given]) examines.own⟩

end Store

end Kjdmud.Efun.LiveLoops
