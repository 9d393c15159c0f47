import Kjdmud.Scheduler.Heartbeat.Core
import Mathlib.Algebra.Group.Int.Defs
import Mathlib.Data.List.Nodup
import Mathlib.Tactic.Common
import Kjdmud.Lib.Runs

/-!
# Runs of the heartbeats

The law of the heartbeats holds in every run whose intervals fit a C++ `int`
and that never changes an object which the running tick has yet to call.  The
countdown of an entry is what is missing from the ticks since the last change
to the next multiple of its interval; that carries the induction.
-/

namespace Kjdmud.Scheduler.Heartbeat

/-! ## The log -/

theorem intervalOf_nonneg (obj : ObjectId) (log : List Event) : 0 ≤ intervalOf obj log := by
  induction log with
  | nil => exact Int.le_refl 0
  | cons event log ih =>
      cases event with
      | set other to_ =>
          simp only [intervalOf]
          split
          · split
            · exact Int.le_refl 0
            · split
              · split <;> omega
              · next nonnegative =>
                  rw [Int64.lt_iff_toInt_lt, Int64.toInt_zero] at nonnegative
                  omega
          · exact ih
      | tick => exact ih
      | fired other => exact ih

/-- An event that does not change an object leaves its interval. -/
theorem intervalOf_of_not_changes {obj : ObjectId} {log : List Event} {event : Event}
    (same : ¬ Changes obj log event) : intervalOf obj (event :: log) = intervalOf obj log := by
  cases event with
  | set other to_ =>
      simp only [intervalOf]
      split
      · next here =>
          have rejected : to_ < 0 ∧ intervalOf obj log ≠ 0 := by
            by_contra accepted
            exact same ⟨here, accepted⟩
          have nonzero : to_ ≠ 0 := by
            rintro rfl
            exact absurd rejected.1 (by decide)
          rw [if_neg nonzero, if_pos rejected.1, if_neg rejected.2]
      · rfl
  | tick => rfl
  | fired other => rfl

/-- An event that does not change an object counts for it when it is a tick or
a call. -/
theorem ticksSince_of_not_changes {obj : ObjectId} {log : List Event} {event : Event}
    (same : ¬ Changes obj log event) :
    ticksSince obj (event :: log) =
      ticksSince obj log + if event = .tick then 1 else 0 := by
  rw [ticksSince, if_neg same]

theorem firesSince_of_not_changes {obj : ObjectId} {log : List Event} {event : Event}
    (same : ¬ Changes obj log event) :
    firesSince obj (event :: log) =
      firesSince obj log + if event = .fired obj then 1 else 0 := by
  rw [firesSince, if_neg same]

/-- Every call of `heart_beat` finds its object enabled. -/
def Lawful : List Event → Prop
  | [] => True
  | .fired obj :: log => intervalOf obj log ≠ 0 ∧ Lawful log
  | .set _ _ :: log => Lawful log
  | .tick :: log => Lawful log

theorem Lawful.fired {later earlier : List Event} {obj : ObjectId}
    (lawful : Lawful (later ++ .fired obj :: earlier)) : intervalOf obj earlier ≠ 0 := by
  induction later with
  | nil => exact lawful.1
  | cons event later ih =>
      cases event with
      | set other to_ => exact ih lawful
      | tick => exact ih lawful
      | fired other => exact ih lawful.2

/-! ## The entries of an object -/

section Entries

variable {world : World} {obj : ObjectId}

theorem isFor_iff (held : world.status obj ≠ .gone) (entry : HeartbeatEntry) :
    entry.isFor world obj = true ↔ entry.target = obj := by
  simp only [HeartbeatEntry.isFor, World.lock, Option.filter_some, beq_iff_eq]
  constructor
  · intro locked
    split at locked
    · exact Option.some.inj locked
    · cases locked
  · rintro rfl
    rw [if_pos (decide_eq_true held)]

theorem mem_eraseP_isFor (held : world.status obj ≠ .gone) {entries : List HeartbeatEntry}
    (unique : (entries.map (·.target)).Nodup) (entry : HeartbeatEntry) :
    entry ∈ entries.eraseP (·.isFor world obj) ↔ entry ∈ entries ∧ entry.target ≠ obj := by
  induction entries with
  | nil => simp
  | cons first entries ih =>
      rw [List.map_cons, List.nodup_cons] at unique
      rw [List.eraseP_cons]
      cases picked : first.isFor world obj with
      | true =>
          have here := (isFor_iff held first).mp picked
          have others : ∀ other ∈ entries, other.target ≠ obj := by
            intro other member same
            apply unique.1
            rw [here, ← same]
            exact List.mem_map_of_mem member
          simp only [cond_true, List.mem_cons]
          constructor
          · intro member
            exact ⟨.inr member, others entry member⟩
          · rintro ⟨rfl | member, differs⟩
            · exact absurd here differs
            · exact member
      | false =>
          have elsewhere : first.target ≠ obj := by
            rw [ne_eq, ← isFor_iff held, picked]
            exact Bool.false_ne_true
          simp only [cond_false, List.mem_cons, ih unique.2]
          constructor
          · rintro (rfl | ⟨member, differs⟩)
            · exact ⟨.inl rfl, elsewhere⟩
            · exact ⟨.inr member, differs⟩
          · rintro ⟨rfl | member, differs⟩
            · exact .inl rfl
            · exact .inr ⟨member, differs⟩

theorem map_target_setTicks (ticks : Int) (entries : List HeartbeatEntry) :
    (setTicks world obj ticks entries).map (·.target) = entries.map (·.target) := by
  induction entries with
  | nil => rfl
  | cons first entries ih =>
      rw [setTicks]
      split
      · rfl
      · rw [List.map_cons, ih, List.map_cons]

theorem mem_setTicks (held : world.status obj ≠ .gone) (ticks : Int)
    {entries : List HeartbeatEntry} (unique : (entries.map (·.target)).Nodup)
    (present : obj ∈ entries.map (·.target)) (entry : HeartbeatEntry) :
    entry ∈ setTicks world obj ticks entries ↔
      (entry ∈ entries ∧ entry.target ≠ obj) ∨ entry = ⟨obj, ticks⟩ := by
  induction entries with
  | nil => cases present
  | cons first entries ih =>
      rw [List.map_cons, List.nodup_cons] at unique
      rw [setTicks]
      split
      · next picked =>
          have here := (isFor_iff held first).mp picked
          have others : ∀ other ∈ entries, other.target ≠ obj := by
            intro other member same
            apply unique.1
            rw [here, ← same]
            exact List.mem_map_of_mem member
          simp only [List.mem_cons, here]
          constructor
          · rintro (rfl | member)
            · exact .inr rfl
            · exact .inl ⟨.inr member, others entry member⟩
          · rintro (⟨rfl | member, differs⟩ | rfl)
            · exact absurd here differs
            · exact .inr member
            · exact .inl rfl
      · next unpicked =>
          have elsewhere : first.target ≠ obj := fun same =>
            unpicked ((isFor_iff held first).mpr same)
          have later : obj ∈ entries.map (·.target) := by
            rcases List.mem_cons.mp present with same | later
            · exact absurd same.symm elsewhere
            · exact later
          simp only [List.mem_cons, ih unique.2 later]
          constructor
          · rintro (rfl | ⟨member, differs⟩ | rfl)
            · exact .inl ⟨.inl rfl, elsewhere⟩
            · exact .inl ⟨.inr member, differs⟩
            · exact .inr rfl
          · rintro (⟨rfl | member, differs⟩ | rfl)
            · exact .inl rfl
            · exact .inr (.inl ⟨member, differs⟩)
            · exact .inr (.inr rfl)

end Entries

/-! ## `setHeartbeatInterval` -/

/-- An interval that fits survives the narrowing. -/
theorem narrow_eq {to_ : Int64} (nonnegative : ¬ to_ < 0) (fits : to_.toInt < 2 ^ 31) :
    narrow to_ = to_.toInt := by
  rw [Int64.lt_iff_toInt_lt, Int64.toInt_zero] at nonnegative
  rw [narrow, Int64.toInt_toInt32]
  apply Int.bmod_eq_of_le
  · simp
    omega
  · simp
    omega

/-- What setting an interval leaves of the table: nothing changes, or the entry
of the object is replaced, or erased, by one with the new interval. -/
structure Sets (before after : Heartbeats) (obj : ObjectId) (interval : Int) : Prop where
  unique : (after.heartbeats.map (·.target)).Nodup
  entries : ∀ entry, entry ∈ after.heartbeats ↔
    (entry ∈ before.heartbeats ∧ entry.target ≠ obj) ∨
      (interval ≠ 0 ∧ entry = ⟨obj, interval⟩)
  intervals : after.heartbeatInterval =
    Function.update before.heartbeatInterval obj interval

theorem enabled_iff {s : Heartbeats} {world : World} {obj : ObjectId}
    (held : world.status obj ≠ .gone) :
    s.enabled world obj = true ↔ obj ∈ s.heartbeats.map (·.target) := by
  simp only [Heartbeats.enabled, List.any_eq_true, isFor_iff held, List.mem_map]

/-- `setHeartbeatInterval` with an interval that fits. -/
theorem setHeartbeatInterval_sets {s : Heartbeats} {world : World} {obj : ObjectId}
    (held : world.status obj ≠ .gone) (unique : (s.heartbeats.map (·.target)).Nodup)
    {to_ : Int64} (fits : to_.toInt < 2 ^ 31) :
    (to_ < 0 ∧ obj ∈ s.heartbeats.map (·.target) ∧
        s.setHeartbeatInterval world obj to_ = s) ∨
      (¬ (to_ < 0 ∧ obj ∈ s.heartbeats.map (·.target)) ∧
        Sets s (s.setHeartbeatInterval world obj to_) obj
          (if to_ = 0 then 0 else if to_ < 0 then 1 else to_.toInt)) := by
  rw [Heartbeats.setHeartbeatInterval]
  by_cases off : to_ = 0
  · right
    simp only [if_pos off]
    refine ⟨fun both => ?_, ?_, ?_, rfl⟩
    · rw [off] at both
      exact absurd both.1 (by decide)
    · exact unique.sublist (List.eraseP_sublist.map _)
    · intro entry
      simp [mem_eraseP_isFor held unique]
  · have nonzero : to_.toInt ≠ 0 := by
      rw [← Int64.toInt_zero, ne_eq, Int64.toInt_inj]
      exact off
    simp only [if_neg off]
    by_cases present : obj ∈ s.heartbeats.map (·.target)
    · rw [if_pos ((enabled_iff held).mpr present)]
      by_cases negative : to_ < 0
      · left
        rw [if_pos negative]
        exact ⟨negative, present, rfl⟩
      · right
        rw [if_neg negative, if_neg negative, narrow_eq negative fits]
        refine ⟨fun both => negative both.1, ?_, ?_, rfl⟩
        · simpa only [map_target_setTicks] using unique
        · intro entry
          simp only [mem_setTicks held _ unique present, ne_eq, nonzero, not_false_eq_true,
            true_and]
    · right
      rw [if_neg (fun on => present ((enabled_iff held).mp on))]
      have interval : (if to_ < 0 then 1 else narrow to_) =
          if to_ < 0 then 1 else to_.toInt := by
        split
        · rfl
        · next nonnegative => exact narrow_eq nonnegative fits
      simp only [interval]
      refine ⟨fun both => present both.2, ?_, ?_, rfl⟩
      · simp only [List.map_append, List.map_cons, List.map_nil]
        exact List.nodup_append.mpr ⟨unique, List.nodup_singleton _, by
          rintro a member b isObj rfl
          exact present (List.mem_singleton.mp isObj ▸ member)⟩
      · intro entry
        have others : ∀ other ∈ s.heartbeats, other.target ≠ obj := by
          rintro other member rfl
          exact present (List.mem_map_of_mem member)
        have some_interval : (if to_ < 0 then 1 else to_.toInt) ≠ 0 := by
          split
          · exact Int.one_ne_zero
          · exact nonzero
        simp only [List.mem_append, List.mem_singleton, ne_eq, some_interval,
          not_false_eq_true, true_and]
        constructor
        · rintro (member | same)
          · exact .inl ⟨member, others entry member⟩
          · exact .inr same
        · rintro (⟨member, _⟩ | same)
          · exact .inl member
          · exact .inr same

/-! ## The invariant -/

/-- The table and the objects hold what the log says. -/
structure Consistent (s : State) : Prop where
  unique : (s.table.heartbeats.map (·.target)).Nodup
  interval : ∀ obj, s.world.status obj ≠ .gone →
    s.table.heartbeatInterval obj = intervalOf obj s.log
  enabled : ∀ obj, s.world.status obj ≠ .gone →
    (obj ∈ s.table.heartbeats.map (·.target) ↔ intervalOf obj s.log ≠ 0)
  countdown : ∀ entry ∈ s.table.heartbeats, s.world.status entry.target ≠ .gone →
    entry.ticksRemaining = intervalOf entry.target s.log -
      ticksSince entry.target s.log % intervalOf entry.target s.log
  fires : ∀ obj, s.world.status obj ≠ .gone → intervalOf obj s.log ≠ 0 →
    (firesSince obj s.log : Int) + (if obj ∈ s.waiting then 1 else 0) =
      ticksSince obj s.log / intervalOf obj s.log
  waiting : s.waiting.Nodup
  awaited : ∀ obj ∈ s.waiting, s.world.status obj ≠ .gone ∧ intervalOf obj s.log ≠ 0
  lawful : Lawful s.log

theorem consistent_initial (world : World) : Consistent (initial world) where
  unique := List.nodup_nil
  interval _ _ := rfl
  enabled _ _ := by simp [initial, intervalOf]
  countdown _ member := by cases member
  fires _ _ on := absurd rfl on
  waiting := List.nodup_nil
  awaited _ member := by cases member
  lawful := trivial

/-- An operation within the bounds: the interval fits a C++ `int`, and an object
that the running tick has yet to call is not changed. -/
def State.Clear (s : State) : Op → Prop
  | .setHeartbeatInterval obj to_ =>
      to_.toInt < 2 ^ 31 ∧ (obj ∈ s.waiting → ¬ Changes obj s.log (.set obj to_))
  | _ => True

/-- Setting an interval keeps the invariant. -/
theorem Consistent.set {s t : State} (consistent : Consistent s) {obj : ObjectId}
    {to_ : Int64} (clear : s.Clear (.setHeartbeatInterval obj to_))
    (step : s.step (.setHeartbeatInterval obj to_) = some t) : Consistent t := by
  rw [State.step] at step
  split at step
  · cases step
  · next held =>
      cases step
      have present : obj ∈ s.table.heartbeats.map (·.target) ↔ intervalOf obj s.log ≠ 0 :=
        consistent.enabled obj held
      -- The other objects see nothing of the operation.
      have others : ∀ other, other ≠ obj → ¬ Changes other s.log (.set obj to_) :=
        fun other differs changes => differs changes.1.symm
      rcases setHeartbeatInterval_sets held consistent.unique clear.1 with
        ⟨negative, on, same⟩ | ⟨accepted, sets⟩
      · have none : ∀ other, ¬ Changes other s.log (.set obj to_) := by
          intro other
          by_cases here : other = obj
          · rw [here]
            exact fun changes => changes.2 ⟨negative, present.mp on⟩
          · exact others other here
        rw [same]
        exact
          { unique := consistent.unique
            interval := fun other known => by
              rw [intervalOf_of_not_changes (none other)]
              exact consistent.interval other known
            enabled := fun other known => by
              rw [intervalOf_of_not_changes (none other)]
              exact consistent.enabled other known
            countdown := fun entry member known => by
              rw [intervalOf_of_not_changes (none _), ticksSince_of_not_changes (none _)]
              exact consistent.countdown entry member known
            fires := fun other known on => by
              rw [intervalOf_of_not_changes (none _)] at on ⊢
              rw [ticksSince_of_not_changes (none _), firesSince_of_not_changes (none _)]
              exact consistent.fires other known on
            waiting := consistent.waiting
            awaited := fun other member => by
              rw [intervalOf_of_not_changes (none _)]
              exact consistent.awaited other member
            lawful := consistent.lawful }
      · have changes : Changes obj s.log (.set obj to_) :=
          ⟨rfl, fun rejected => accepted ⟨rejected.1, present.mpr rejected.2⟩⟩
        have unawaited : obj ∉ s.waiting := fun waits => clear.2 waits changes
        have interval : intervalOf obj (.set obj to_ :: s.log) =
            if to_ = 0 then 0 else if to_ < 0 then 1 else to_.toInt := by
          rw [intervalOf, if_pos rfl]
          split
          · rfl
          · split
            · next negative =>
                rw [if_pos]
                by_contra on
                exact changes.2 ⟨negative, on⟩
            · rfl
        have ticks : ticksSince obj (.set obj to_ :: s.log) = 0 := by
          rw [ticksSince, if_pos changes]
        have calls : firesSince obj (.set obj to_ :: s.log) = 0 := by
          rw [firesSince, if_pos changes]
        rw [← interval] at sets
        exact
          { unique := sets.unique
            interval := fun other known => by
              rw [sets.intervals]
              by_cases here : other = obj
              · rw [here, Function.update_self]
              · rw [Function.update_of_ne here, intervalOf_of_not_changes (others other here)]
                exact consistent.interval other known
            enabled := fun other known => by
              simp only [List.mem_map, sets.entries]
              by_cases here : other = obj
              · rw [here]
                constructor
                · rintro ⟨entry, ⟨_, elsewhere⟩ | ⟨on, _⟩, target⟩
                  · exact absurd target elsewhere
                  · exact on
                · exact fun on => ⟨_, .inr ⟨on, rfl⟩, rfl⟩
              · rw [intervalOf_of_not_changes (others other here),
                  ← consistent.enabled other known, List.mem_map]
                constructor
                · rintro ⟨entry, ⟨member, _⟩ | ⟨_, rfl⟩, target⟩
                  · exact ⟨entry, member, target⟩
                  · exact absurd target.symm here
                · rintro ⟨entry, member, rfl⟩
                  exact ⟨entry, .inl ⟨member, here⟩, rfl⟩
            countdown := fun entry member known => by
              rcases (sets.entries entry).mp member with ⟨member, elsewhere⟩ | ⟨on, rfl⟩
              · rw [intervalOf_of_not_changes (others _ elsewhere),
                  ticksSince_of_not_changes (others _ elsewhere)]
                exact consistent.countdown entry member known
              · simp [ticks]
            fires := fun other known on => by
              by_cases here : other = obj
              · rw [here, ticks, calls, if_neg (by exact unawaited)]
                simp
              · rw [intervalOf_of_not_changes (others other here)] at on ⊢
                rw [ticksSince_of_not_changes (others other here),
                  firesSince_of_not_changes (others other here)]
                exact consistent.fires other known on
            waiting := consistent.waiting
            awaited := fun other member => by
              have here : other ≠ obj := fun same => unawaited (same ▸ member)
              rw [intervalOf_of_not_changes (others other here)]
              exact consistent.awaited other member
            lawful := consistent.lawful }

/-- One more tick on a countdown. -/
theorem countdown_succ {n k : Int} (positive : 0 < n) :
    (n - k % n - 1 < 1 → (k + 1) % n = 0 ∧ (k + 1) / n = k / n + 1) ∧
      (¬ n - k % n - 1 < 1 → (k + 1) % n = k % n + 1 ∧ (k + 1) / n = k / n) := by
  have := Int.emod_lt_of_pos k positive
  have := Int.emod_nonneg k (Int.ne_of_gt positive)
  have split := Int.emod_add_mul_ediv k n
  constructor
  · intro last
    have whole : k + 1 = n * (k / n + 1) := by
      rw [Int.mul_add]
      omega
    rw [whole, Int.mul_emod_right, Int.mul_ediv_cancel_left _ (Int.ne_of_gt positive)]
    exact ⟨rfl, rfl⟩
  · intro more
    have whole : k + 1 = k % n + 1 + n * (k / n) := by omega
    have small : k % n + 1 < n := by omega
    rw [whole, Int.add_mul_emod_self_left, Int.add_mul_ediv_left _ _ (Int.ne_of_gt positive),
      Int.emod_eq_of_lt (by omega) small, Int.ediv_eq_zero_of_lt (by omega) small]
    omega

section Tick

variable {s : Heartbeats} {world : World}

theorem countDown_of_held {entry : HeartbeatEntry} (held : world.status entry.target ≠ .gone) :
    s.countDown world entry =
      some ⟨entry.target,
        if entry.ticksRemaining - 1 < 1 then s.heartbeatInterval entry.target
        else entry.ticksRemaining - 1⟩ := by
  have locks : world.lock (some entry.target) = some entry.target := by
    simp [World.lock, held]
  simp only [Heartbeats.countDown, locks]
  by_cases last : entry.ticksRemaining - 1 < 1
  · rw [if_pos last, if_pos last]
  · rw [if_neg last, if_neg last]

theorem held_of_countDown {entry entry' : HeartbeatEntry}
    (counts : s.countDown world entry = some entry') :
    world.status entry.target ≠ .gone := by
  intro gone
  have lost : world.lock (some entry.target) = none := by
    simp [World.lock, gone]
  rw [Heartbeats.countDown, lost] at counts
  cases counts

theorem fires_iff {entry : HeartbeatEntry} :
    Heartbeats.fires world entry = true ↔
      world.status entry.target ≠ .gone ∧ entry.ticksRemaining - 1 < 1 := by
  by_cases gone : world.status entry.target = .gone <;>
    simp [Heartbeats.fires, World.lock, gone]

/-- The entries after the first loop of a tick. -/
theorem mem_tick (entry : HeartbeatEntry) :
    entry ∈ (s.tick world).heartbeats ↔
      ∃ before ∈ s.heartbeats, world.status before.target ≠ .gone ∧
        entry = ⟨before.target,
          if before.ticksRemaining - 1 < 1 then s.heartbeatInterval before.target
          else before.ticksRemaining - 1⟩ := by
  simp only [Heartbeats.tick, List.mem_filterMap]
  constructor
  · rintro ⟨before, member, counts⟩
    have held := held_of_countDown counts
    rw [countDown_of_held held] at counts
    exact ⟨before, member, held, (Option.some.inj counts).symm⟩
  · rintro ⟨before, member, held, rfl⟩
    exact ⟨before, member, countDown_of_held held⟩

/-- The first loop keeps the objects of the table in their order. -/
theorem map_target_tick :
    ((s.tick world).heartbeats.map (·.target)).Sublist (s.heartbeats.map (·.target)) := by
  rw [Heartbeats.tick]
  induction s.heartbeats with
  | nil => exact List.Sublist.refl _
  | cons entry entries ih =>
      cases counts : s.countDown world entry with
      | none =>
          rw [List.filterMap_cons_none counts]
          exact ih.cons _
      | some entry' =>
          have held := held_of_countDown counts
          rw [countDown_of_held held] at counts
          cases counts
          rw [List.filterMap_cons_some (countDown_of_held held)]
          exact ih.cons_cons _

theorem mem_due (obj : ObjectId) :
    obj ∈ s.due world ↔ ∃ entry ∈ s.heartbeats, entry.target = obj ∧
      world.status obj ≠ .gone ∧ entry.ticksRemaining - 1 < 1 := by
  simp only [Heartbeats.due, List.mem_map, List.mem_filter, fires_iff]
  constructor
  · rintro ⟨entry, ⟨member, held, last⟩, rfl⟩
    exact ⟨entry, member, rfl, held, last⟩
  · rintro ⟨entry, member, rfl, held, last⟩
    exact ⟨entry, ⟨member, held, last⟩, rfl⟩

end Tick

/-- The interval of an object with an entry is positive. -/
theorem Consistent.positive {s : State} (consistent : Consistent s) {obj : ObjectId}
    (held : s.world.status obj ≠ .gone) (present : obj ∈ s.table.heartbeats.map (·.target)) :
    0 < intervalOf obj s.log := by
  have on := (consistent.enabled obj held).mp present
  have := intervalOf_nonneg obj s.log
  omega

/-- The first loop of a tick keeps the invariant. -/
theorem Consistent.beginTick {s t : State} (consistent : Consistent s)
    (step : s.step .beginTick = some t) : Consistent t := by
  rw [State.step] at step
  split at step
  · next idle =>
      cases step
      have unchanged : ∀ obj, ¬ Changes obj s.log .tick := fun obj changes => changes
      exact
        { unique := consistent.unique.sublist map_target_tick
          interval := consistent.interval
          enabled := fun obj held => by
            rw [intervalOf_of_not_changes (unchanged obj), ← consistent.enabled obj held]
            simp only [List.mem_map, mem_tick]
            constructor
            · rintro ⟨_, ⟨before, member, _, rfl⟩, target⟩
              exact ⟨before, member, target⟩
            · rintro ⟨before, member, rfl⟩
              exact ⟨_, ⟨before, member, held, rfl⟩, rfl⟩
          countdown := fun entry member held => by
            rcases (mem_tick entry).mp member with ⟨before, present, known, rfl⟩
            have countdown := consistent.countdown before present known
            have positive := consistent.positive known (List.mem_map_of_mem present)
            change (if before.ticksRemaining - 1 < 1 then
                s.table.heartbeatInterval before.target else before.ticksRemaining - 1) =
              intervalOf before.target (.tick :: s.log) -
                ticksSince before.target (.tick :: s.log) %
                  intervalOf before.target (.tick :: s.log)
            rw [intervalOf_of_not_changes (unchanged _),
              ticksSince_of_not_changes (unchanged _)]
            simp only [if_true, Int.natCast_add, Int.natCast_one, countdown,
              consistent.interval before.target known]
            split
            · next last =>
                rw [((countdown_succ positive).1 last).1]
                omega
            · next more =>
                rw [((countdown_succ positive).2 more).1]
                omega
          fires := fun obj held on => by
            rw [intervalOf_of_not_changes (unchanged _)] at on ⊢
            have before := consistent.fires obj held on
            have present := (consistent.enabled obj held).mpr on
            have positive := consistent.positive held present
            rcases List.mem_map.mp present with ⟨entry, member, rfl⟩
            have countdown := consistent.countdown entry member held
            have waiting : entry.target ∉ s.waiting := by
              simp [State.waiting, idle]
            have due : entry.target ∈ s.table.due s.world ↔ entry.ticksRemaining - 1 < 1 := by
              rw [mem_due]
              constructor
              · rintro ⟨other, otherMember, same, _, last⟩
                rw [← List.inj_on_of_nodup_map consistent.unique otherMember member same]
                exact last
              · exact fun last => ⟨entry, member, rfl, held, last⟩
            rw [if_neg waiting, Int.add_zero] at before
            rw [ticksSince_of_not_changes (unchanged _),
              firesSince_of_not_changes (unchanged _)]
            simp only [State.waiting, Option.getD_some, due, countdown, if_true,
              Int.natCast_add, Int.natCast_one, reduceCtorEq, if_false, Int.natCast_zero,
              Int.add_zero, before]
            split
            · next last => rw [((countdown_succ positive).1 last).2]
            · next more => rw [((countdown_succ positive).2 more).2, Int.add_zero]
          waiting := by
            have sublist : (s.table.due s.world).Sublist
                (s.table.heartbeats.map (·.target)) :=
              List.filter_sublist.map _
            exact consistent.unique.sublist sublist
          awaited := fun obj member => by
            rcases (mem_due obj).mp member with ⟨entry, present, rfl, held, _⟩
            rw [intervalOf_of_not_changes (unchanged _)]
            exact ⟨held, (consistent.enabled _ held).mp (List.mem_map_of_mem present)⟩
          lawful := consistent.lawful }
  · cases step

/-- The second loop of a tick calls an object that is enabled. -/
theorem Consistent.fire {s t : State} (consistent : Consistent s)
    (step : s.step .fire = some t) : Consistent t := by
  rw [State.step] at step
  split at step
  · next obj rest firing =>
      cases step
      have unchanged : ∀ other, ¬ Changes other s.log (.fired obj) :=
        fun other changes => changes
      have waiting : s.waiting = obj :: rest := by rw [State.waiting, firing]; rfl
      have distinct := consistent.waiting
      rw [waiting, List.nodup_cons] at distinct
      have awaited : ∀ other ∈ obj :: rest,
          s.world.status other ≠ .gone ∧ intervalOf other s.log ≠ 0 := by
        rw [← waiting]
        exact consistent.awaited
      exact
        { unique := consistent.unique
          interval := consistent.interval
          enabled := consistent.enabled
          countdown := fun entry member held => by
            rw [ticksSince_of_not_changes (unchanged _)]
            exact consistent.countdown entry member held
          fires := fun other held on => by
            have before := consistent.fires other held on
            rw [ticksSince_of_not_changes (unchanged _),
              firesSince_of_not_changes (unchanged _),
              intervalOf_of_not_changes (unchanged _)]
            rw [waiting] at before
            change _ + (if other ∈ rest then (1 : Int) else 0) = _
            by_cases here : other = obj
            · rw [here] at before ⊢
              simpa [distinct.1] using before
            · have there : Event.fired obj ≠ .fired other :=
                fun same => here (Event.fired.inj same).symm
              simpa [here, there] using before
          waiting := distinct.2
          awaited := fun other member => awaited other (List.mem_cons_of_mem _ member)
          lawful := ⟨(awaited obj List.mem_cons_self).2, consistent.lawful⟩ }
  · cases step

theorem State.mark_status (s : State) (obj : ObjectId) (status : ObjectStatus) :
    (s.mark obj status).world.status = Function.update s.world.status obj status :=
  rfl

/-- Another status for an object keeps the invariant when it brings nothing back
and frees nothing the running tick awaits. -/
theorem Consistent.mark {s : State} (consistent : Consistent s) {obj : ObjectId}
    {status : ObjectStatus} (held : s.world.status obj ≠ .gone)
    (kept : obj ∈ s.waiting → status ≠ .gone) : Consistent (s.mark obj status) := by
  have earlier : ∀ other, (s.mark obj status).world.status other ≠ .gone →
      s.world.status other ≠ .gone := by
    intro other now
    by_cases here : other = obj
    · rwa [here]
    · rwa [State.mark_status, Function.update_of_ne here] at now
  exact
    { unique := consistent.unique
      interval := fun other now => consistent.interval other (earlier other now)
      enabled := fun other now => consistent.enabled other (earlier other now)
      countdown := fun entry member now =>
        consistent.countdown entry member (earlier _ now)
      fires := fun other now => consistent.fires other (earlier other now)
      waiting := consistent.waiting
      awaited := fun other member => by
        refine ⟨?_, (consistent.awaited other member).2⟩
        by_cases here : other = obj
        · rw [here, State.mark_status, Function.update_self]
          exact kept (here ▸ member)
        · rw [State.mark_status, Function.update_of_ne here]
          exact (consistent.awaited other member).1
      lawful := consistent.lawful }

/-- A step within the bounds keeps the invariant. -/
theorem Consistent.step {s t : State} (consistent : Consistent s) {op : Op}
    (clear : s.Clear op) (step : s.step op = some t) : Consistent t := by
  cases op with
  | setHeartbeatInterval obj to_ => exact consistent.set clear step
  | beginTick => exact consistent.beginTick step
  | fire => exact consistent.fire step
  | endTick =>
      rw [State.step] at step
      split at step
      · next firing =>
          cases step
          have waiting : s.waiting = [] := by rw [State.waiting, firing]; rfl
          have fires := consistent.fires
          rw [waiting] at fires
          exact { consistent with
            fires := fires
            waiting := List.nodup_nil
            awaited := fun _ member => by cases member }
      · cases step
  | destruct obj =>
      rw [State.step] at step
      split at step
      · next live =>
          cases step
          exact consistent.mark (by rw [live]; decide) (fun _ => by decide)
      · cases step
  | free obj =>
      rw [State.step] at step
      split at step
      · next destructed =>
          cases step
          exact consistent.mark (by rw [destructed.1]; decide)
            (fun member => absurd member destructed.2)
      · cases step

/-! ## Runs -/

/-- `target` is reached from `source` by executing `ops`. -/
abbrev Run : State → List Op → State → Prop :=
  Lib.Runs.Run fun s op t => s.step op = some t

/-- A run whose every operation is within the bounds. -/
abbrev ClearRun : State → List Op → State → Prop :=
  Lib.Runs.ClearRun (fun s op t => s.step op = some t) State.Clear

/-- Every run within the bounds keeps the invariant. -/
theorem ClearRun.consistent {world : World} {ops : List Op} {s : State}
    (run : ClearRun (initial world) ops s) : Consistent s :=
  run.keeps (fun consistent clear step => consistent.step clear step) (consistent_initial world)

/-- The invariant is the law. -/
theorem Consistent.law {s : State} (consistent : Consistent s) : HeartbeatLaw s := by
  have held : ∀ obj, s.world.status obj = .live → s.world.status obj ≠ .gone := by
    intro obj live
    rw [live]
    decide
  constructor
  · intro obj _
    have count := List.nodup_iff_count_le_one.mp consistent.unique obj
    rw [List.count_eq_length_filter, List.filter_map, List.length_map] at count
    simpa [Function.comp_def, beq_eq_decide, eq_comm] using count
  · intro obj live
    rw [consistent.interval obj (held obj live), ← consistent.enabled obj (held obj live),
      List.mem_map]
  · intro idle entry member live
    have positive := consistent.positive (held _ live) (List.mem_map_of_mem member)
    rw [consistent.countdown entry member (held _ live),
      consistent.interval _ (held _ live)]
    have := Int.emod_lt_of_pos (ticksSince entry.target s.log : Int) positive
    have := Int.emod_nonneg (ticksSince entry.target s.log : Int) (Int.ne_of_gt positive)
    omega
  · intro idle obj live on
    have fires := consistent.fires obj (held obj live) (Int.ne_of_gt on)
    rw [if_neg (by simp [State.waiting, idle]), Int.add_zero] at fires
    exact fires
  · intro later obj earlier log
    have lawful := consistent.lawful
    rw [log] at lawful
    exact lawful.fired

/-- The law holds in every state of every run whose intervals fit an `int` and
that changes no object which the running tick has yet to call. -/
theorem heartbeat_law {world : World} {ops : List Op} {s : State}
    (run : ClearRun (initial world) ops s) : HeartbeatLaw s :=
  run.consistent.law

/-! ## Two objects -/

section Examples

/-- Every object is alive. -/
def liveWorld : World where
  status _ := .live
  closureOwner _ := none

/-- An object that beats on every second tick, and another one that it disables
after its turn. -/
theorem heartbeat_law_twoTicks : ∃ s : State,
    ClearRun (initial liveWorld)
      [.setHeartbeatInterval 1 1, .setHeartbeatInterval 2 2, .beginTick, .fire, .endTick,
        .beginTick, .fire, .fire, .setHeartbeatInterval 1 0, .endTick] s ∧
      HeartbeatLaw s := by
  have run : ∃ s : State, ClearRun (initial liveWorld)
      [.setHeartbeatInterval 1 1, .setHeartbeatInterval 2 2, .beginTick, .fire, .endTick,
        .beginTick, .fire, .fire, .setHeartbeatInterval 1 0, .endTick] s := by
    refine ⟨_, .cons ?first rfl <| .cons ?second rfl <| .cons trivial rfl <|
      .cons trivial rfl <| .cons trivial rfl <| .cons trivial rfl <| .cons trivial rfl <|
      .cons trivial rfl <| .cons ?third rfl <| .cons trivial rfl <| .nil _⟩
    all_goals exact ⟨by decide, fun member => by cases member⟩
  rcases run with ⟨s, clearRun⟩
  exact ⟨s, clearRun, heartbeat_law clearRun⟩

/-- An interval of `2 ^ 32` narrows to zero: the object has an entry and counts as
disabled.  And an object that is disabled by the body before its own in one tick
is called all the same. -/
theorem heartbeat_law_broken :
    (∃ s, Run (initial liveWorld) [.setHeartbeatInterval 1 4294967296] s ∧
      ¬ HeartbeatLaw s) ∧
    ∃ s, Run (initial liveWorld) [.setHeartbeatInterval 1 1, .setHeartbeatInterval 2 1,
      .beginTick, .fire, .setHeartbeatInterval 2 0, .fire] s ∧ ¬ HeartbeatLaw s := by
  constructor
  · refine ⟨_, .cons rfl (.nil _), fun law => ?_⟩
    have enabled := (law.enabled 1 rfl).mp ⟨⟨1, 0⟩, by decide, rfl⟩
    exact enabled (by decide)
  · refine ⟨_, .cons rfl <| .cons rfl <| .cons rfl <| .cons rfl <| .cons rfl <|
      .cons rfl <| .nil _, fun law => ?_⟩
    exact law.disabled [] 2 _ rfl (by decide)

end Examples

end Kjdmud.Scheduler.Heartbeat
