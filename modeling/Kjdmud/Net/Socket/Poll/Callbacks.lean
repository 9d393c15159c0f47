import Kjdmud.Net.Socket.Poll.Moves

/-!
# Callbacks and the table

In every run in which no LPC code closes a socket that a pass has something before
it for, whatever a pass has before it is in the table.  A callback is
invoked for what the pass has before it, so it finds its handle there, and a handle
that was removed gets no callback any more.  The driver reports a close once in any run.
-/

namespace Kjdmud.Net.Socket.Poll

open Kjdmud.Scheduler (World)
open Kjdmud.Vm (Value)

/-! ## Every run -/

/-- The close callbacks invoked for a handle. -/
def closes (handle : Int) (log : List Event) : List Event :=
  (callbacks handle log).filter (·.kind = .close)

/-- What holds in any run. -/
structure Orderly (s : State) : Prop where
  tidy : Tidy s.registry
  /-- A pass comes to every socket once. -/
  unique : ∀ pass, s.pass = some pass → pass.handles.Nodup
  old : ∀ pass, s.pass = some pass → ∀ handle ∈ pass.handles, handle < s.registry.nextHandle
  /-- The driver closes a socket once, and is done with it. -/
  once : ∀ handle, closes handle s.log = [] ∨
    ((closes handle s.log).length = 1 ∧ Removed s handle ∧
      ∀ pass, s.pass = some pass → handle ∉ pass.handles)

/-- Some event may come to the log; if it does, it is about `handle`. -/
theorem closes_of_log {s s' : State} {handle : Int}
    (log : s'.log = s.log ∨ ∃ event, s'.log = event :: s.log ∧ event.handle = handle)
    {other : Int} (differs : other ≠ handle) : callbacks other s'.log = callbacks other s.log := by
  rcases log with same | ⟨event, added, here⟩
  · rw [same]
  · rw [added, callbacks, List.filter_cons_of_neg]
    · rfl
    · rw [here]
      simpa using Ne.symm differs

theorem Stepped.removed {s s' : State} {op : Op} (stepped : Stepped s op s')
    (tidy : Tidy s.registry) {handle : Int} (removed : Removed s handle) : Removed s' handle := by
  rcases removed with ⟨old, absent⟩
  cases stepped with
  | lpc l =>
      have evolves := Evolves.lpc tidy l
      exact ⟨lt_of_lt_of_le old evolves.next, evolves.gone handle old absent⟩
  | moved here handles silent moves =>
      constructor
      · rw [moves.touches.nextHandle_eq]
        exact old
      · exact moves.touches.gone absent
  | callbackEnds => exact ⟨old, absent⟩
  | began idle perm => exact ⟨old, absent⟩
  | ended => exact ⟨old, absent⟩

theorem initial_orderly (world : World) : Orderly (initial world) where
  tidy := {
    keyed := {
      handle := by intro h sock made; cases made
      old := by intro h sock made; cases made }
    made := by intro handle mem; cases mem
    unique := .nil }
  unique := by intro pass here; cases here
  old := by intro pass here; cases here
  once := fun _ => .inl rfl

section Step

variable {s s' : State}

/-- A step that leaves the log alone, and does not make the pass longer. -/
theorem Orderly.once_of_silent (orderly : Orderly s) (log : s'.log = s.log)
    (removed : ∀ handle, Removed s handle → Removed s' handle)
    (handles : ∀ handle, Removed s handle → ∀ pass', s'.pass = some pass' →
      handle ∈ pass'.handles → ∃ pass, s.pass = some pass ∧ handle ∈ pass.handles)
    (handle : Int) :
    closes handle s'.log = [] ∨
      ((closes handle s'.log).length = 1 ∧ Removed s' handle ∧
        ∀ pass, s'.pass = some pass → handle ∉ pass.handles) := by
  rw [log]
  rcases orderly.once handle with none_ | ⟨one, gone, done⟩
  · exact .inl none_
  · refine .inr ⟨one, removed handle gone, ?_⟩
    intro pass' here' mem
    rcases handles handle gone pass' here' mem with ⟨pass, here, mem⟩
    exact done pass here mem

/-- What is left of a pass after a step. -/
theorem Moves.handles {handle : Int} {rest : List Int} (moves : Moves s handle rest s')
    {pass' : Pass} (here' : s'.pass = some pass') :
    pass'.handles = rest ∨ pass'.handles = handle :: rest := by
  rcases moves.pass with ⟨at_, pass, positions⟩
  rw [pass] at here'
  cases here'
  cases at_ with
  | none => exact .inl rfl
  | some position =>
      right
      rw [← (positions position rfl).1]
      rfl

/-- A step of a pass keeps a run orderly. -/
theorem Orderly.moved (orderly : Orderly s) {pass : Pass} {handle : Int} {rest : List Int}
    (here : s.pass = some pass) (handles : pass.handles = handle :: rest)
    (moves : Moves s handle rest s') : Orderly s' := by
  have old := orderly.old pass here
  have unique := orderly.unique pass here
  rw [handles] at old unique
  have at_old : handle < s.registry.nextHandle := old handle List.mem_cons_self
  have within {pass' : Pass} (here' : s'.pass = some pass') {other : Int}
      (mem : other ∈ pass'.handles) : other ∈ handle :: rest := by
    rcases moves.handles here' with eq | eq
    · rw [eq] at mem
      exact List.mem_cons_of_mem _ mem
    · rwa [eq] at mem
  constructor
  · exact moves.touches.tidy orderly.tidy at_old
  · intro pass' here'
    rcases moves.handles here' with eq | eq
    · rw [eq]
      exact (List.nodup_cons.mp unique).2
    · rw [eq]
      exact unique
  · intro pass' here' other mem
    rw [moves.touches.nextHandle_eq]
    exact old other (within here' mem)
  · intro other
    have removed {gone : Int} (before : Removed s gone) : Removed s' gone :=
      ⟨moves.touches.nextHandle_eq ▸ before.1, moves.touches.gone before.2⟩
    -- The socket of the step was not closed by the driver: the pass was not done with it.
    have unclosed : closes handle s.log = [] := by
      rcases orderly.once handle with none_ | ⟨_, _, done⟩
      · exact none_
      · exact absurd (handles ▸ List.mem_cons_self) (done pass here)
    have carried (same : closes other s'.log = closes other s.log) :
        closes other s'.log = [] ∨
          ((closes other s'.log).length = 1 ∧ Removed s' other ∧
            ∀ pass', s'.pass = some pass' → other ∉ pass'.handles) := by
      rw [same]
      rcases orderly.once other with none_ | ⟨one, gone, done⟩
      · exact .inl none_
      · refine .inr ⟨one, removed gone, ?_⟩
        intro pass' here' mem
        exact done pass here (handles ▸ within here' mem)
    rcases moves.log with same | ⟨event, added, of_handle, _, closed⟩
    · exact carried (by rw [same])
    · by_cases differs : other = handle
      · subst differs
        by_cases close : event.kind = .close
        · rcases closed close with ⟨absent, left⟩
          have one : closes other s'.log = event :: closes other s.log := by
            simp [closes, callbacks, added, of_handle, close]
          refine .inr ⟨?_, ⟨?_, absent⟩, ?_⟩
          · rw [one, unclosed]
            rfl
          · rw [moves.touches.nextHandle_eq]
            exact at_old
          · intro pass' here'
            rw [left] at here'
            cases here'
            exact (List.nodup_cons.mp unique).1
        · apply carried
          simp [closes, callbacks, added, close]
      · apply carried
        rw [closes, closes,
          closes_of_log (.inr ⟨event, added, of_handle⟩) differs]

theorem Orderly.step (orderly : Orderly s) {op : Op} (done : s.step op = some s') :
    Orderly s' := by
  have stepped := State.step_cases orderly.tidy done
  have removed (handle : Int) (before : Removed s handle) : Removed s' handle :=
    stepped.removed orderly.tidy before
  cases stepped with
  | lpc l =>
      have evolves := Evolves.lpc orderly.tidy l
      have pass : (s.lpc l).pass = s.pass := by cases l <;> rfl
      have log : (s.lpc l).log = s.log := by cases l <;> rfl
      constructor
      · exact evolves.tidy
      · rw [pass]
        exact orderly.unique
      · rw [pass]
        intro current here handle mem
        exact lt_of_lt_of_le (orderly.old current here handle mem) evolves.next
      · apply orderly.once_of_silent log removed
        intro handle _ pass' here' mem
        exact ⟨pass', pass.symm.trans here', mem⟩
  | callbackEnds => exact ⟨orderly.tidy, orderly.unique, orderly.old, orderly.once⟩
  | @began order idle perm =>
      constructor
      · exact orderly.tidy
      · rintro _ ⟨⟩
        exact perm.nodup_iff.mpr orderly.tidy.unique
      · rintro _ ⟨⟩ handle mem
        exact orderly.tidy.old (perm.mem_iff.mp mem)
      · apply orderly.once_of_silent
        · rfl
        · exact removed
        · rintro handle gone _ ⟨⟩ mem
          exact absurd (perm.mem_iff.mp mem) gone.2
  | moved here handles silent moves => exact orderly.moved here handles moves
  | ended =>
      constructor
      · exact orderly.tidy
      · rintro _ ⟨⟩
      · rintro _ ⟨⟩
      · apply orderly.once_of_silent
        · rfl
        · exact removed
        · rintro _ _ _ ⟨⟩

end Step

theorem Run.orderly {s s' : State} {ops : List Op} (run : Run s ops s') :
    Orderly s → Orderly s' :=
  run.keeps fun orderly last => orderly.step last

/-! ## Clear runs -/

/-- What holds in a clear run. -/
structure Attached (s : State) : Prop where
  orderly : Orderly s
  ahead : ∀ handle, s.Ahead handle → handle ∈ s.registry.sockets

theorem initial_attached (world : World) : Attached (initial world) where
  orderly := initial_orderly world
  ahead := by
    rintro handle ⟨pass, here, _⟩
    cases here

section Clear

variable {s s' : State}

/-- LPC code that closes nothing a pass has before it. -/
theorem Attached.lpc (attached : Attached s) {l : Lpc} (clear : Clear s (.lpc l))
    (handle : Int) (ahead : (s.lpc l).Ahead handle) : handle ∈ (s.lpc l).registry.sockets := by
  have evolves := Evolves.lpc attached.orderly.tidy l
  have pass : (s.lpc l).pass = s.pass := by cases l <;> rfl
  by_contra absent
  have old : handle < s.registry.nextHandle := by
    rcases id ahead with ⟨current, here, _⟩
    exact attached.orderly.old current (pass.symm.trans here) handle (ahead.mem_handles here)
  have before := ahead.congr pass (evolves.left handle old absent)
  exact absent (clear l rfl handle before (attached.ahead handle before))

/-- What a step of the pass leaves before it was before it. -/
theorem Attached.moved (attached : Attached s) {pass : Pass} {handle : Int}
    {rest : List Int} (here : s.pass = some pass) (handles : pass.handles = handle :: rest)
    (moves : Moves s handle rest s') (other : Int) (ahead : s'.Ahead other) :
    other ∈ s'.registry.sockets := by
  have unique := attached.orderly.unique pass here
  rw [handles] at unique
  rcases moves.pass with ⟨at_, pass', positions⟩
  rcases ahead with ⟨current, here', mem | ⟨position, at', later⟩⟩
  · rw [pass'] at here'
    cases here'
    have differs : other ≠ handle := by
      rintro rfl
      exact (List.nodup_cons.mp unique).1 mem
    apply moves.touches.mem differs
    apply attached.ahead
    refine ⟨pass, here, ?_⟩
    cases at_before : pass.at_ with
    | none =>
        left
        simp only [Pass.handles, at_before] at handles
        rw [handles]
        exact List.mem_cons_of_mem _ mem
    | some position =>
        left
        simp only [Pass.handles, at_before, List.cons.injEq] at handles
        rwa [handles.2]
  · rw [pass'] at here'
    cases here'
    rcases positions position at' with ⟨here, sockets, before⟩
    have same : other = handle := later.handle_eq.symm.trans here
    subst same
    rw [sockets]
    exact attached.ahead other (before later)

theorem Attached.step (attached : Attached s) {op : Op} (clear : Clear s op)
    (done : s.step op = some s') : Attached s' := by
  refine ⟨attached.orderly.step done, ?_⟩
  cases State.step_cases attached.orderly.tidy done with
  | lpc l => exact attached.lpc clear
  | callbackEnds => exact attached.ahead
  | began idle perm =>
      rintro handle ⟨_, ⟨⟩, mem | ⟨_, ⟨⟩, _⟩⟩
      exact perm.mem_iff.mp mem
  | moved here handles silent moves => exact attached.moved here handles moves
  | ended =>
      rintro handle ⟨_, ⟨⟩, _⟩

/-- A handle that was removed gets no callback. -/
theorem Attached.quiet (attached : Attached s) {op : Op} (done : s.step op = some s')
    {handle : Int} (removed : Removed s handle) :
    callbacks handle s'.log = callbacks handle s.log := by
  cases State.step_cases attached.orderly.tidy done with
  | lpc l => cases l <;> rfl
  | callbackEnds => rfl
  | began idle perm => rfl
  | moved here handles silent moves =>
      rename_i pass at_ rest
      rcases moves.log with same | ⟨event, added, of_handle, ahead, _⟩
      · rw [same]
      · apply closes_of_log (.inr ⟨event, added, of_handle⟩)
        rintro rfl
        exact removed.2 (attached.ahead _ ahead)
  | ended => rfl

end Clear

theorem ClearRun.attached {s s' : State} {ops : List Op} (run : ClearRun s ops s') :
    Attached s → Attached s' :=
  run.keeps fun attached clear last => attached.step clear last

theorem ClearRun.quiet {s s' : State} {ops : List Op} (run : ClearRun s ops s')
    (attached : Attached s) {handle : Int} (removed : Removed s handle) :
    Removed s' handle ∧ callbacks handle s'.log = callbacks handle s.log := by
  induction run with
  | nil => exact ⟨removed, rfl⟩
  | snoc before _ last ih =>
      have attached' := ClearRun.attached before attached
      have stepped := State.step_cases attached'.orderly.tidy last
      constructor
      · exact stepped.removed attached'.orderly.tidy ih.1
      · exact (attached'.quiet last ih.1).trans ih.2

/-! ## The law -/

/-- No callback comes for a handle that was removed, however the run goes on. -/
def Silent (s : State) (runs : State → List Op → State → Prop) : Prop :=
  ∀ handle, Removed s handle → ∀ ops s', runs s ops s' →
    callbacks handle s'.log = callbacks handle s.log

/-- The driver reports the close of a socket once. -/
def ClosedOnce (s : State) : Prop :=
  ∀ handle, (closes handle s.log).length ≤ 1

theorem Orderly.closedOnce {s : State} (orderly : Orderly s) : ClosedOnce s := by
  intro handle
  rcases orderly.once handle with none_ | ⟨one, _⟩
  · rw [none_]
    exact Nat.zero_le _
  · exact Nat.le_of_eq one

/-- A step of the driver. -/
theorem Clear.of_driver {s : State} {op : Op} (driver : ∀ l, op ≠ .lpc l) : Clear s op :=
  fun l lpc => absurd lpc (driver l)

/-- LPC code that runs outside of a pass. -/
theorem Clear.of_idle {s : State} {op : Op} (idle : s.pass = none) : Clear s op := by
  rintro l _ handle ⟨pass, here, _⟩
  rw [idle] at here
  cases here

/-- LPC code that runs in the last callback of a pass. -/
theorem Clear.of_done {s : State} {op : Op} {handle : Int}
    (here : s.pass = some { rest := [], at_ := some (.frames handle [] false) }) :
    Clear s op := by
  rintro l _ handle ⟨pass, here', mem | ⟨position, at_, ahead⟩⟩
  · rw [here] at here'
    cases here'
    cases mem
  · rw [here] at here'
    cases here'
    cases at_
    rcases ahead with ⟨_, nonempty | ⟨writable, _⟩⟩
    · exact absurd rfl nonempty
    · cases writable

/-- A run in which no LPC code closes a socket that a pass has something before it for
invokes no callback for a handle once it is removed; in any run the close callback is
invoked at most once for a handle. -/
theorem pollSockets_law (world : World) :
    (∀ ops s, ClearRun (initial world) ops s → Silent s ClearRun) ∧
      ∀ ops s, Run (initial world) ops s → ClosedOnce s := by
  constructor
  · intro ops s run handle removed ops' s' later
    exact (later.quiet (run.attached (initial_attached world)) removed).2
  · intro ops s run
    exact (run.orderly (initial_orderly world)).closedOnce

/-! ## Samples -/

/-- All objects are live. -/
def allLive : World where
  status := fun _ => .live
  closureOwner := fun _ => none

/-- An object connects a socket in MUD mode, and a pass comes to it. -/
def connecting : List Op :=
  [.lpc (.call (some 1) (.create 0 (.string (str "read")) .void) {}),
    .lpc (.call (some 1) (.connect 0 (str "127.0.0.1 80") (.string (str "read")) .void) {}),
    .beginPass [0]]

/-- The integers one and two, in two frames that one read returns. -/
def twoFrames : Ready where
  readable := some (.bytes [0, 0, 0, 2, 49, 0, 0, 0, 0, 2, 50, 0] [])

/-- The read callback of the last frame closes its socket. -/
theorem close_in_last_frame : ∃ ops s, ClearRun (initial allLive) ops s ∧ Removed s 0 ∧
    (callbacks 0 s.log).length = 1 ∧ Silent s ClearRun ∧ ClosedOnce s := by
  have run : ClearRun (initial allLive)
      (connecting ++
        [.visit { readable := some (.bytes [0, 0, 0, 2, 49, 0] []) }, .frame,
          .lpc (.call (some 1) (.close 0) {}), .callbackEnds, .frame, .writeHalf .again,
          .endPass]) _ :=
    .cons (.of_idle rfl) rfl (.cons (.of_idle rfl) rfl (.cons (.of_idle rfl) rfl
      (.cons (.of_driver (by rintro l ⟨⟩)) rfl (.cons (.of_driver (by rintro l ⟨⟩)) rfl
        (.cons (.of_done rfl) rfl (.cons (.of_driver (by rintro l ⟨⟩)) rfl
          (.cons (.of_driver (by rintro l ⟨⟩)) rfl (.cons (.of_driver (by rintro l ⟨⟩)) rfl
            (.cons (.of_driver (by rintro l ⟨⟩)) rfl (.nil _))))))))))
  have law := pollSockets_law allLive
  exact ⟨_, _, run, ⟨by decide, by decide +kernel⟩, by decide +kernel,
    law.1 _ _ run, law.2 _ _ run.run⟩

/-- The read callback closes its socket, and is invoked for the second frame. -/
theorem read_after_close :
    ¬ ∀ world : World, (∀ ops s, Run (initial world) ops s → Silent s Run) ∧
      ∀ ops s, Run (initial world) ops s → ClosedOnce s := by
  intro law
  have closed : Run (initial allLive)
      (connecting ++
        [.visit twoFrames, .frame, .lpc (.call (some 1) (.close 0) {}), .callbackEnds]) _ :=
    .cons rfl (.cons rfl (.cons rfl (.cons rfl (.cons rfl (.cons rfl (.cons rfl (.nil _)))))))
  have silent := (law allLive).1 _ _ closed 0 ⟨by decide, by decide +kernel⟩
    [.frame] _ (.cons rfl (.nil _))
  revert silent
  decide

end Kjdmud.Net.Socket.Poll
