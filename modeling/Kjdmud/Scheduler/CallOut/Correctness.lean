import Kjdmud.Scheduler.CallOut.Lifecycle

/-!
# Runs of the call_out scheduler

Every run invokes an entry at most once and not before it is due.  The rest of
the law holds in the runs whose operations never name an entry that waits in
the private list of a running sweep: such an entry is pending, but no operation
on the table reaches it.
-/

namespace Kjdmud.Scheduler

variable {T : Type}

/-- The entries moved out of the table and not yet taken by their sweep. -/
def State.waiting (s : State T) : List (CallOutEntry T) :=
  s.ticks.flatten

/-! ## Invocations -/

/-- Every entry is in one place: in the table, in the list of a sweep, or among the
invoked ones. -/
structure Accounted (s : State T) : Prop where
  places : ((s.table.callOuts ++ (s.waiting ++ invocations s.log)).map
    CallOutEntry.handle).Nodup
  added : ∀ entry ∈ s.table.callOuts ++ (s.waiting ++ invocations s.log),
    Event.added entry ∈ s.log
  fresh : ∀ entry, Event.added entry ∈ s.log → entry.handle < s.table.nextHandle
  waitingDue : ∀ entry ∈ s.waiting, entry.dueAt ≤ s.now
  invokedDue : ∀ entry time, Event.invoked entry time ∈ s.log → entry.dueAt ≤ time

/-- The initial state of a scheduler among given objects. -/
def initial (world : World) : State T :=
  { world }

theorem accounted_initial (world : World) : Accounted (initial world : State T) where
  places := by simp [initial, State.waiting, invocations]
  added := by simp [initial, State.waiting, invocations]
  fresh := by simp [initial]
  waitingDue := by simp [initial, State.waiting]
  invokedDue := by simp [initial]

/-- What a step may do to the places: move entries between them, forget some, and
log an event that invokes nothing and adds nothing. -/
theorem Accounted.quiet {s t : State T} (accounted : Accounted s)
    (moved : ∃ places, (t.table.callOuts ++ (t.waiting ++ invocations t.log)).Sublist places ∧
      places.Perm (s.table.callOuts ++ (s.waiting ++ invocations s.log)))
    (nextHandle : t.table.nextHandle = s.table.nextHandle)
    (log : ∀ entry, Event.added entry ∈ t.log ↔ Event.added entry ∈ s.log)
    (waitingDue : ∀ entry ∈ t.waiting, entry.dueAt ≤ t.now)
    (invokedDue : ∀ entry time, Event.invoked entry time ∈ t.log → entry.dueAt ≤ time) :
    Accounted t := by
  rcases moved with ⟨places, sublist, perm⟩
  refine ⟨?_, ?_, ?_, waitingDue, invokedDue⟩
  · exact ((perm.map _).nodup_iff.mpr accounted.places).sublist (sublist.map _)
  · intro entry member
    exact (log entry).mpr (accounted.added entry (perm.mem_iff.mp (sublist.subset member)))
  · intro entry member
    rw [nextHandle]
    exact accounted.fresh entry ((log entry).mp member)

/-- Adding an entry gives it a handle no entry has had. -/
theorem Accounted.addCallOut {s t : State T} (accounted : Accounted s)
    {entry : CallOutEntry T} (step : s.step (.addCallOut entry) = some t) : Accounted t := by
  cases step
  have older : ∀ other ∈ s.table.callOuts ++ (s.waiting ++ invocations s.log),
      other.handle < s.table.nextHandle :=
    fun other member => accounted.fresh other (accounted.added other member)
  have moved : (s.table.callOuts ++ [{ entry with handle := s.table.nextHandle }] ++
      (s.waiting ++ invocations s.log)).Perm
      ({ entry with handle := s.table.nextHandle } ::
        (s.table.callOuts ++ (s.waiting ++ invocations s.log))) := by
    rw [List.append_assoc]
    exact List.perm_middle
  refine ⟨?_, ?_, ?_, accounted.waitingDue, ?_⟩
  · refine ((moved.map _).nodup_iff.mpr ?_)
    rw [List.map_cons, List.nodup_cons]
    refine ⟨fun member => ?_, accounted.places⟩
    rcases List.mem_map.mp member with ⟨other, otherMember, same⟩
    have less := older other otherMember
    rw [same] at less
    exact Int.lt_irrefl _ less
  · intro other member
    rcases List.mem_cons.mp (moved.mem_iff.mp member) with rfl | before
    · exact List.mem_cons_self
    · exact List.mem_cons_of_mem _ (accounted.added other before)
  · intro other member
    change other.handle < s.table.nextHandle + 1
    rcases List.mem_cons.mp member with same | before
    · cases same
      change s.table.nextHandle < s.table.nextHandle + 1
      omega
    · have := accounted.fresh other before
      omega
  · intro other time member
    rcases List.mem_cons.mp member with same | before
    · cases same
    · exact accounted.invokedDue other time before

/-- Moving the due entries keeps every entry in one place. -/
theorem places_beginTick (s : State T) :
    ((s.table.withoutDue s.now).callOuts ++
      ((s.table.due s.now :: s.ticks).flatten ++ invocations s.log)).Perm
      (s.table.callOuts ++ (s.waiting ++ invocations s.log)) := by
  have split := List.filter_append_perm (fun entry => (entry.dueAt ≤ s.now : Bool))
    s.table.callOuts
  rw [List.flatten_cons, List.append_assoc, ← List.append_assoc]
  refine List.Perm.append_right _ ?_
  exact List.perm_append_comm.trans split

/-- An iteration of a sweep keeps the account. -/
theorem Accounted.fire {s : State T} (accounted : Accounted s) {entry : CallOutEntry T}
    {rest : List (CallOutEntry T)} {outer : List (List (CallOutEntry T))}
    (ticksEq : s.ticks = (entry :: rest) :: outer) :
    Accounted (s.fire entry rest outer) := by
  have waitingEq : s.waiting = entry :: (rest :: outer).flatten := by
    simp [State.waiting, ticksEq]
  have waitingDue : ∀ other ∈ (rest :: outer).flatten, other.dueAt ≤ s.now := by
    intro other member
    refine accounted.waitingDue other ?_
    rw [waitingEq]
    exact List.mem_cons_of_mem entry member
  rcases s.fire_cases entry rest outer with fired | fired
  · rw [fired]
    refine accounted.quiet ⟨_, ?_, List.Perm.refl _⟩ rfl ?_ waitingDue ?_
    · rw [waitingEq]
      exact (List.Sublist.refl _).append (List.sublist_cons_self entry _)
    · intro other
      simp
    · intro other time member
      rcases List.mem_cons.mp member with same | before
      · cases same
      · exact accounted.invokedDue other time before
  · rw [fired]
    refine accounted.quiet ⟨_, List.Sublist.refl _, ?_⟩ rfl ?_ waitingDue ?_
    · rw [waitingEq]
      exact List.Perm.append_left _ List.perm_middle
    · intro other
      simp
    · intro other time member
      rcases List.mem_cons.mp member with same | before
      · cases same
        refine accounted.waitingDue entry ?_
        rw [waitingEq]
        exact List.mem_cons_self
      · exact accounted.invokedDue other time before

/-- A step keeps the account. -/
theorem Accounted.step {s t : State T} (accounted : Accounted s) {op : Op T}
    (step : s.step op = some t) : Accounted t := by
  have removed : ∀ selector, Accounted (s.removeCallOut selector) := by
    intro selector
    refine accounted.quiet ⟨_, ?_, List.Perm.refl _⟩ rfl ?_ accounted.waitingDue ?_
    · exact List.eraseP_sublist.append (List.Sublist.refl _)
    · intro entry
      simp [State.removeCallOut]
    · intro entry time member
      rcases List.mem_cons.mp member with same | before
      · cases same
      · exact accounted.invokedDue entry time before
  have found : ∀ selector, Accounted (s.findCallOut selector) := by
    intro selector
    refine accounted.quiet ⟨_, List.Sublist.refl _, List.Perm.refl _⟩ rfl ?_
      accounted.waitingDue ?_
    · intro entry
      simp [State.findCallOut, State.emit]
    · intro entry time member
      rcases List.mem_cons.mp member with same | before
      · cases same
      · exact accounted.invokedDue entry time before
  cases op with
  | addCallOut entry => exact accounted.addCallOut step
  | removeCallOutByName owner function => cases step; exact removed _
  | removeCallOutByHandle handle => cases step; exact removed _
  | removeAllCallOutsForObject obj =>
      cases step
      refine accounted.quiet ⟨_, ?_, List.Perm.refl _⟩ rfl ?_ accounted.waitingDue ?_
      · exact List.filter_sublist.append (List.Sublist.refl _)
      · intro entry
        simp
      · intro entry time member
        rcases List.mem_cons.mp member with same | before
        · cases same
        · exact accounted.invokedDue entry time before
  | findCallOutByName owner function => cases step; exact found _
  | findCallOutByHandle handle => cases step; exact found _
  | beginTick =>
      cases step
      refine accounted.quiet ⟨_, List.Sublist.refl _, places_beginTick s⟩ rfl
        (fun _ => Iff.rfl) ?_ accounted.invokedDue
      intro entry member
      rw [State.waiting, List.flatten_cons, List.mem_append] at member
      rcases member with isDue | waits
      · simpa using List.of_mem_filter isDue
      · exact accounted.waitingDue entry waits
  | fire =>
      simp only [State.step] at step
      split at step
      · rename_i entry rest outer ticksEq
        cases step
        exact accounted.fire ticksEq
      · contradiction
  | endTick =>
      simp only [State.step] at step
      split at step
      · rename_i outer ticksEq
        cases step
        have same : outer.flatten = s.waiting := by simp [State.waiting, ticksEq]
        refine accounted.quiet ⟨_, ?_, List.Perm.refl _⟩ rfl (fun _ => Iff.rfl) ?_
          accounted.invokedDue
        · simp only [State.waiting, same]
          exact List.Sublist.refl _
        · simp only [State.waiting, same]
          exact accounted.waitingDue
      · contradiction
  | clock time =>
      simp only [State.step] at step
      split at step
      · rename_i later
        cases step
        exact ⟨accounted.places, accounted.added, accounted.fresh,
          fun entry member => (accounted.waitingDue entry member).trans later,
          accounted.invokedDue⟩
      · contradiction
  | change world =>
      cases step
      exact ⟨accounted.places, accounted.added, accounted.fresh, accounted.waitingDue,
        accounted.invokedDue⟩

/-- Every run invokes an entry at most once, and not before it is due. -/
theorem Run.accounted {world : World} {ops : List (Op T)} {s : State T}
    (run : Run (initial world) ops s) : Accounted s := by
  induction run with
  | nil => exact accounted_initial world
  | snoc _ step ih => exact ih.step step

theorem Accounted.punctual {s : State T} (accounted : Accounted s) : Punctual s.log where
  once := accounted.places.sublist
    (((List.sublist_append_right _ _).trans (List.sublist_append_right _ _)).map _)
  added := fun entry member => accounted.added entry (by simp [member])
  due := accounted.invokedDue

/-! ## The rest of the law -/

/-- The handles of the pending entries that no operation on the table reaches. -/
def State.hidden (s : State T) : List Int :=
  (s.waiting ++ drops s.log).map CallOutEntry.handle

/-- The entry a selector names is in the table. -/
def State.Reaches (s : State T) (selector : Selector) : Prop :=
  ∀ entry, (pending s.log).find? (selector.picks s.world) = some entry →
    entry.handle ∉ s.hidden

/-- No operation names an entry that waits in the list of a running sweep, or that
was dropped by one. -/
def State.Clear (s : State T) : Op T → Prop
  | .removeCallOutByName owner function => s.Reaches (.byName owner function)
  | .removeCallOutByHandle handle => s.Reaches (.byHandle handle)
  | .removeAllCallOutsForObject obj => ∀ entry ∈ s.waiting, entry.purged s.world obj = false
  | .findCallOutByHandle handle => s.Reaches (.byHandle handle)
  | _ => True

/-- The table holds the pending entries that are not hidden. -/
structure Tracked (s : State T) : Prop where
  lawful : Lawful s.log
  table : s.table.callOuts = (pending s.log).filter fun entry => entry.handle ∉ s.hidden
  waiting : ∀ entry ∈ s.waiting, entry ∈ pending s.log
  dropped : ∀ entry ∈ drops s.log, Event.added entry ∈ s.log

theorem tracked_initial (world : World) : Tracked (initial world : State T) where
  lawful := trivial
  table := rfl
  waiting := by simp [initial, State.waiting]
  dropped := by simp [initial, Scheduler.drops]

theorem remainingSeconds_nonneg (now dueAt : Nat) : 0 ≤ remainingSeconds now dueAt := by
  unfold remainingSeconds
  split <;> omega

/-- A pending entry within reach is found. -/
theorem Tracked.found {s : State T} (tracked : Tracked s) {handle : Int}
    (reaches : s.Reaches (.byHandle handle))
    (isPending : ∃ entry ∈ pending s.log, entry.handle = handle) :
    s.table.remaining s.world s.now (.byHandle handle) ≠ -1 := by
  rcases isPending with ⟨entry, member, rfl⟩
  have first : ∃ first, (pending s.log).find?
      ((Selector.byHandle entry.handle).picks s.world) = some first := by
    rw [← Option.isSome_iff_exists, List.find?_isSome]
    exact ⟨entry, member, by simp [Selector.picks]⟩
  rcases first with ⟨first, firstFound⟩
  have inTable : first ∈ s.table.callOuts := by
    rw [tracked.table]
    refine List.mem_filter.mpr ⟨List.mem_of_find?_eq_some firstFound, ?_⟩
    simpa using reaches first firstFound
  have present : (s.table.callOuts.find?
      ((Selector.byHandle entry.handle).picks s.world)).isSome := by
    rw [List.find?_isSome]
    exact ⟨first, inTable, List.find?_some firstFound⟩
  rcases Option.isSome_iff_exists.mp present with ⟨result, resultEq⟩
  rw [CallOuts.remaining, resultEq]
  have := remainingSeconds_nonneg s.now result.dueAt
  change remainingSeconds s.now result.dueAt ≠ -1
  omega

/-- Adding an entry keeps the table tracked. -/
theorem Tracked.addCallOut {s t : State T} (tracked : Tracked s) (accounted : Accounted s)
    {entry : CallOutEntry T} (step : s.step (.addCallOut entry) = some t) : Tracked t := by
  cases step
  have unhidden : s.table.nextHandle ∉ s.hidden := by
    intro member
    rcases List.mem_map.mp member with ⟨other, otherMember, same⟩
    have added : Event.added other ∈ s.log := by
      rcases List.mem_append.mp otherMember with waits | wasDropped
      · exact accounted.added other (by simp [waits])
      · exact tracked.dropped other wasDropped
    have fresh := accounted.fresh other added
    omega
  refine ⟨⟨accounted.fresh, tracked.lawful⟩, ?_, ?_, ?_⟩
  · change s.table.callOuts ++ [{ entry with handle := s.table.nextHandle }] =
      (pending s.log ++ [{ entry with handle := s.table.nextHandle }]).filter
        fun entry => entry.handle ∉ s.hidden
    rw [List.filter_append, ← tracked.table]
    simp [unhidden]
  · intro other member
    exact List.mem_append_left _ (tracked.waiting other member)
  · intro other member
    exact List.mem_cons_of_mem _ (tracked.dropped other member)

/-- Erasing an entry within reach keeps the table tracked. -/
theorem Tracked.removeCallOut {s : State T} (tracked : Tracked s) {selector : Selector}
    (reaches : s.Reaches selector) : Tracked (s.removeCallOut selector) := by
  refine ⟨⟨?_, tracked.lawful⟩, ?_, ?_, ?_⟩
  · cases selector with
    | byName owner function => trivial
    | byHandle handle => exact tracked.found reaches
  · change s.table.callOuts.eraseP (selector.picks s.world) =
      ((pending s.log).eraseP (selector.picks s.world)).filter fun entry =>
        entry.handle ∉ s.hidden
    rw [filter_eraseP, ← tracked.table]
    intro first found
    simpa using reaches first found
  · intro entry member
    refine mem_eraseP_of_find? (tracked.waiting entry member) fun found => ?_
    refine reaches entry found ?_
    exact List.mem_map_of_mem (List.mem_append_left _ member)
  · intro entry member
    exact List.mem_cons_of_mem _ (tracked.dropped entry member)

/-- Looking for an entry within reach keeps the table tracked. -/
theorem Tracked.findCallOut {s : State T} (tracked : Tracked s) {selector : Selector}
    (reaches : ∀ handle, selector = .byHandle handle → s.Reaches selector) :
    Tracked (s.findCallOut selector) := by
  refine ⟨⟨?_, tracked.lawful⟩, tracked.table, tracked.waiting, ?_⟩
  · cases selector with
    | byName owner function => trivial
    | byHandle handle => exact tracked.found (reaches handle rfl)
  · intro entry member
    exact List.mem_cons_of_mem _ (tracked.dropped entry member)

/-- Purging entries none of which waits keeps the table tracked. -/
theorem Tracked.removeAll {s t : State T} (tracked : Tracked s) {obj : Option ObjectId}
    (clear : ∀ entry ∈ s.waiting, entry.purged s.world obj = false)
    (step : s.step (.removeAllCallOutsForObject obj) = some t) : Tracked t := by
  cases step
  refine ⟨⟨trivial, tracked.lawful⟩, ?_, ?_, ?_⟩
  · change s.table.callOuts.filter (fun entry => !entry.purged s.world obj) =
      ((pending s.log).filter fun entry => !entry.purged s.world obj).filter
        fun entry => entry.handle ∉ s.hidden
    rw [tracked.table, List.filter_filter, List.filter_filter]
    exact List.filter_congr fun entry _ => Bool.and_comm _ _
  · intro entry member
    refine List.mem_filter.mpr ⟨tracked.waiting entry member, ?_⟩
    rw [clear entry member]
    rfl
  · intro entry member
    exact List.mem_cons_of_mem _ (tracked.dropped entry member)

/-- An entry of the table is pending. -/
theorem Tracked.pending_of_table {s : State T} (tracked : Tracked s) {entry : CallOutEntry T}
    (member : entry ∈ s.table.callOuts) : entry ∈ pending s.log := by
  rw [tracked.table] at member
  exact List.mem_of_mem_filter member

/-- Moving the due entries into the list of a sweep hides them. -/
theorem Tracked.beginTick {s t : State T} (tracked : Tracked s)
    (step : s.step .beginTick = some t) : Tracked t := by
  cases step
  refine ⟨tracked.lawful, ?_, ?_, tracked.dropped⟩
  · change s.table.callOuts.filter (fun entry => !(entry.dueAt ≤ s.now : Bool)) =
      (pending s.log).filter fun entry => entry.handle ∉
        (((s.table.due s.now :: s.ticks).flatten ++ drops s.log).map CallOutEntry.handle)
    rw [tracked.table, List.filter_filter]
    refine List.filter_congr fun entry member => ?_
    have inTable : entry.handle ∉ s.hidden → entry ∈ s.table.callOuts := by
      intro unhidden
      rw [tracked.table]
      exact List.mem_filter.mpr ⟨member, by simpa using unhidden⟩
    have dueHandle : entry.handle ∉ s.hidden →
        (entry.handle ∈ (s.table.due s.now).map CallOutEntry.handle ↔ entry.dueAt ≤ s.now) := by
      intro unhidden
      constructor
      · intro handleMember
        rcases List.mem_map.mp handleMember with ⟨other, otherMember, same⟩
        have otherPending := tracked.pending_of_table (List.mem_of_mem_filter otherMember)
        have equal := tracked.lawful.eq_of_handle_eq otherPending member same
        simpa [equal] using List.of_mem_filter otherMember
      · intro isDue
        exact List.mem_map_of_mem (List.mem_filter.mpr ⟨inTable unhidden, by simpa using isDue⟩)
    have hiddenIff : entry.handle ∈
        (((s.table.due s.now :: s.ticks).flatten ++ drops s.log).map CallOutEntry.handle) ↔
          entry.handle ∈ (s.table.due s.now).map CallOutEntry.handle ∨
            entry.handle ∈ s.hidden := by
      rw [List.flatten_cons, List.append_assoc, List.map_append, List.mem_append]
      rfl
    rw [Bool.eq_iff_iff]
    simp only [Bool.and_eq_true, Bool.not_eq_true', decide_eq_false_iff_not, decide_eq_true_eq,
      hiddenIff, not_or]
    constructor
    · rintro ⟨notDue, unhidden⟩
      exact ⟨fun isDue => notDue ((dueHandle unhidden).mp isDue), unhidden⟩
    · rintro ⟨notDue, unhidden⟩
      exact ⟨fun isDue => notDue ((dueHandle unhidden).mpr isDue), unhidden⟩
  · intro entry member
    rw [State.waiting, List.flatten_cons, List.mem_append] at member
    rcases member with isDue | waits
    · exact tracked.pending_of_table (List.mem_of_mem_filter isDue)
    · exact tracked.waiting entry waits

/-- An iteration of a sweep uncovers its entry only to end its life. -/
theorem Tracked.fire {s : State T} (tracked : Tracked s) (accounted : Accounted s)
    {entry : CallOutEntry T} {rest : List (CallOutEntry T)}
    {outer : List (List (CallOutEntry T))} (ticksEq : s.ticks = (entry :: rest) :: outer) :
    Tracked (s.fire entry rest outer) := by
  have waitingEq : s.waiting = entry :: (rest :: outer).flatten := by
    simp [State.waiting, ticksEq]
  have entryPending : entry ∈ pending s.log := by
    refine tracked.waiting entry ?_
    rw [waitingEq]
    exact List.mem_cons_self
  have restPending : ∀ other ∈ (rest :: outer).flatten, other ∈ pending s.log := by
    intro other member
    refine tracked.waiting other ?_
    rw [waitingEq]
    exact List.mem_cons_of_mem entry member
  have hiddenEq : s.hidden =
      entry.handle :: ((rest :: outer).flatten ++ drops s.log).map CallOutEntry.handle := by
    rw [State.hidden, waitingEq]
    rfl
  rcases s.fire_cases entry rest outer with fired | fired
  · rw [fired]
    refine ⟨⟨trivial, tracked.lawful⟩, ?_, restPending, ?_⟩
    · change s.table.callOuts = (pending s.log).filter fun other => other.handle ∉
        (((rest :: outer).flatten ++ entry :: drops s.log).map CallOutEntry.handle)
      rw [tracked.table, hiddenEq]
      refine List.filter_congr fun other _ => ?_
      have sameHandles : (((rest :: outer).flatten ++ entry :: drops s.log).map
          CallOutEntry.handle).Perm (entry.handle ::
            ((rest :: outer).flatten ++ drops s.log).map CallOutEntry.handle) :=
        (List.perm_middle.map CallOutEntry.handle)
      rw [Bool.eq_iff_iff, decide_eq_true_eq, decide_eq_true_eq, sameHandles.mem_iff]
    · intro other member
      rcases List.mem_cons.mp member with rfl | before
      · exact List.mem_cons_of_mem _ (added_of_pending entryPending)
      · exact List.mem_cons_of_mem _ (tracked.dropped other before)
  · rw [fired]
    refine ⟨⟨entryPending, tracked.lawful⟩, ?_, ?_, ?_⟩
    · change s.table.callOuts = ((pending s.log).filter
        fun other => other.handle ≠ entry.handle).filter fun other => other.handle ∉
          (((rest :: outer).flatten ++ drops s.log).map CallOutEntry.handle)
      rw [tracked.table, hiddenEq, List.filter_filter]
      refine List.filter_congr fun other _ => ?_
      rw [Bool.eq_iff_iff]
      simp only [decide_eq_true_eq, Bool.and_eq_true, List.mem_cons, not_or]
      exact and_comm
    · intro other member
      refine List.mem_filter.mpr ⟨restPending other member, ?_⟩
      have apart := accounted.places
      rw [waitingEq, List.map_append] at apart
      have waitingApart := (List.nodup_append.mp apart).2.1
      rw [List.cons_append, List.map_cons, List.nodup_cons] at waitingApart
      have differ : other.handle ≠ entry.handle := by
        intro same
        refine waitingApart.1 ?_
        rw [← same]
        exact List.mem_map_of_mem (List.mem_append_left _ member)
      simpa using differ
    · intro other member
      exact List.mem_cons_of_mem _ (tracked.dropped other member)

/-- A clear step keeps the table tracked. -/
theorem Tracked.step {s t : State T} (tracked : Tracked s) (accounted : Accounted s)
    {op : Op T} (clear : s.Clear op) (step : s.step op = some t) : Tracked t := by
  cases op with
  | addCallOut entry => exact tracked.addCallOut accounted step
  | removeCallOutByName owner function => cases step; exact tracked.removeCallOut clear
  | removeCallOutByHandle handle => cases step; exact tracked.removeCallOut clear
  | removeAllCallOutsForObject obj => exact tracked.removeAll clear step
  | findCallOutByName owner function =>
      cases step
      refine tracked.findCallOut fun handle isHandle => ?_
      contradiction
  | findCallOutByHandle handle => cases step; exact tracked.findCallOut fun _ _ => clear
  | beginTick => exact tracked.beginTick step
  | fire =>
      simp only [State.step] at step
      split at step
      · rename_i entry rest outer ticksEq
        cases step
        exact tracked.fire accounted ticksEq
      · contradiction
  | endTick =>
      simp only [State.step] at step
      split at step
      · rename_i outer ticksEq
        cases step
        have same : State.waiting { s with ticks := outer } = s.waiting := by
          simp [State.waiting, ticksEq]
        refine ⟨tracked.lawful, ?_, ?_, tracked.dropped⟩
        · rw [State.hidden, same]
          exact tracked.table
        · rw [same]
          exact tracked.waiting
      · contradiction
  | clock time =>
      simp only [State.step] at step
      split at step
      · cases step
        exact ⟨tracked.lawful, tracked.table, tracked.waiting, tracked.dropped⟩
      · contradiction
  | change world =>
      cases step
      exact ⟨tracked.lawful, tracked.table, tracked.waiting, tracked.dropped⟩

/-- A run whose every operation is clear in the state it is executed in. -/
abbrev ClearRun : State T → List (Op T) → State T → Prop :=
  Lib.Runs.ClearRun (fun s op t => s.step op = some t) State.Clear

/-- The table is tracked along a clear run. -/
theorem ClearRun.tracked {world : World} {ops : List (Op T)} {s : State T}
    (clearRun : ClearRun (initial world) ops s) : Tracked s := by
  induction clearRun with
  | nil => exact tracked_initial world
  | snoc run clear step ih => exact ih.step (Run.accounted run.run) clear step

/-- Every run invokes an entry at most once and not before it is due, and a run that
never names an entry hidden in a sweep obeys the whole law. -/
theorem callOut_lifecycle (world : World) (ops : List (Op T)) (s : State T) :
    (Run (initial world) ops s → Punctual s.log) ∧
      (ClearRun (initial world) ops s → Lifecycle s.log) := by
  refine ⟨fun run => run.accounted.punctual, fun clearRun => ?_⟩
  exact ⟨(Run.accounted clearRun.run).punctual, clearRun.tracked.lawful.revocable⟩

/-! ## A sweep of two entries -/

section Examples

/-- Two objects' worth of nothing: everything is alive, no closure has an owner. -/
def plainWorld : World where
  status _ := .live
  closureOwner _ := none

/-- An entry of object 1 due at a given time. -/
def plainEntry (function : Str) (dueAt : Nat) : CallOutEntry Unit where
  handle := 0
  target := some 1
  function := function
  closure := none
  args := []
  dueAt := dueAt

/-- Where the second entry comes due later, the first body may find and remove it. -/
theorem callOut_lifecycle_later : ∃ s : State Unit,
    ClearRun (initial plainWorld)
      [.addCallOut (plainEntry (str "a") 0), .addCallOut (plainEntry (str "b") 5), .beginTick,
        .fire, .findCallOutByHandle 2, .removeCallOutByName (some 1) (str "b"), .endTick,
        .clock 5, .beginTick, .endTick] s ∧
      Punctual s.log ∧ Lifecycle s.log := by
  have run : ∃ s : State Unit, ClearRun (initial plainWorld)
      [.addCallOut (plainEntry (str "a") 0), .addCallOut (plainEntry (str "b") 5), .beginTick,
        .fire, .findCallOutByHandle 2, .removeCallOutByName (some 1) (str "b"), .endTick,
        .clock 5, .beginTick, .endTick] s := by
    refine ⟨_, .cons trivial rfl <| .cons trivial rfl <| .cons trivial rfl <|
      .cons trivial rfl <| .cons ?found rfl <| .cons ?removed rfl <| .cons trivial rfl <|
      .cons trivial rfl <| .cons trivial rfl <| .cons trivial rfl <| .nil _⟩
    all_goals
      intro entry named
      cases named
      decide
  rcases run with ⟨s, clearRun⟩
  exact ⟨s, clearRun, (callOut_lifecycle plainWorld _ s).1 clearRun.run,
    (callOut_lifecycle plainWorld _ s).2 clearRun⟩

/-- Where both entries are due in one sweep, the first body cannot remove the second
one: it is invoked all the same. -/
theorem callOut_lifecycle_sameSweep :
    ¬ ∀ (world : World) (ops : List (Op Unit)) (s : State Unit),
      Run (initial world) ops s → Lifecycle s.log := by
  intro lifecycle
  let first : CallOutEntry Unit := { plainEntry (str "a") 0 with handle := 1 }
  let second : CallOutEntry Unit := { plainEntry (str "b") 0 with handle := 2 }
  have run : ∃ s : State Unit, Run (initial plainWorld)
      [.addCallOut first, .addCallOut second, .beginTick, .fire, .removeCallOutByHandle 2,
        .fire] s ∧
      s.log = [.invoked second 0, .removed plainWorld (.byHandle 2) (-1), .invoked first 0,
        .added second, .added first] :=
    ⟨_, .cons rfl <| .cons rfl <| .cons rfl <| .cons rfl <| .cons rfl <| .cons rfl <| .nil _,
      rfl⟩
  rcases run with ⟨s, run, logEq⟩
  have never := (lifecycle _ _ s run).never [.invoked second 0] _ _ logEq second
  have wasPending : second ∈ pending [.invoked first 0, .added second, .added first] := by
    decide
  have isDone : second ∉ pending [.removed plainWorld (.byHandle 2) (-1), .invoked first 0,
      .added second, .added first] := by
    decide
  exact never wasPending isDone second List.mem_cons_self rfl

end Examples

end Kjdmud.Scheduler
