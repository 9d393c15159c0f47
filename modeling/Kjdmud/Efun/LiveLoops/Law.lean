import Kjdmud.Efun.LiveLoops.Changes

/-!
# Loops that stay inside their containers

In every run whose operations meet their condition, no loop reads where no element is, every
walk comes to an end when what it calls does, whoever stays in an inventory and listens gets
the text once, and a filter returns what its callback answered true for.
-/

namespace Kjdmud.Efun.LiveLoops

open Object Vectors Vm

namespace State

variable {s s' : State} {t : Telling} {f : Filtering} {frame : Frame} {rest : List Frame}
  {op : Op} {grow : Nat → Nat}

/-! ## The invariant -/

/-- Every call that goes on has what it relies on, and every call that ended was lawful. -/
structure Ready (s : State) : Prop where
  contained : s.Contained
  supports : ∀ frame ∈ s.frames, s.Supports frame
  inside : s.fault = false
  once : ∀ t ∈ s.told, ∀ e ∈ t.stayed, (t.received.map Prod.fst).count e.2 = 1
  own : ∀ f ∈ s.filtered, f.result.entries = f.accepted

/-- What holds between two operations. -/
structure Sound (s : State) : Prop extends Ready s where
  sees : ∀ frame ∈ s.frames, s.Sees frame

theorem contained_empty : ({} : Store).Contained where
  linked := linked_empty
  room _ := Nat.zero_le _
  mapRoom _ := Nat.zero_le _
  holds _ := ⟨[], Mapping.holds_nil (Nat.le_refl 1)⟩

theorem sound_empty : ({} : State).Sound where
  contained := contained_empty
  supports _ mem := absurd mem List.not_mem_nil
  inside := rfl
  once _ mem := absurd mem List.not_mem_nil
  own _ mem := absurd mem List.not_mem_nil
  sees _ mem := absurd mem List.not_mem_nil

theorem supports_observeFrame (supports : s.Supports frame) :
    s.Supports (s.observeFrame frame) := by
  cases frame with
  | telling t =>
      refine ⟨supports.held, supports.apart, supports.fits, fun e mem remains => ?_⟩
      have settled := supports.settled e (List.mem_of_mem_filter mem) remains
      exact ⟨settled.passes, settled.window, settled.waits, settled.got⟩
  | filtering f => exact supports

theorem sees_observeFrame (s : State) (frame : Frame) : s.Sees (s.observeFrame frame) := by
  cases frame with
  | telling t =>
      intro e mem
      exact (List.mem_filter.mp mem).2
  | filtering f => exact trivial

theorem Ready.observe (ready : s.Ready) : s.observe.Sound where
  contained := ready.contained
  supports frame mem := by
    obtain ⟨before, there, rfl⟩ := List.mem_map.mp mem
    exact supports_observeFrame (ready.supports before there)
  inside := ready.inside
  once := ready.once
  own := ready.own
  sees frame mem := by
    obtain ⟨before, there, rfl⟩ := List.mem_map.mp mem
    exact sees_observeFrame s before

/-- The calls on top of a state are exchanged. -/
theorem Ready.withTop (ready : s.Ready) (supports : s.Supports frame)
    (rests : ∀ frame ∈ rest, s.Supports frame) : (s.withTop frame rest).Ready where
  contained := ready.contained
  supports other mem := by
    rcases List.mem_cons.mp mem with rfl | there
    · exact supports
    · exact rests other there
  inside := ready.inside
  once := ready.once
  own := ready.own

/-! ## Steps of the innermost call -/

section Resume

variable (sound : s.Sound) (top : s.frames = frame :: rest)
include sound top

theorem Sound.first : s.Supports frame ∧ s.Sees frame := by
  have mem : frame ∈ s.frames := top ▸ List.mem_cons_self
  exact ⟨sound.supports frame mem, sound.sees frame mem⟩

theorem Sound.others (other : Frame) (mem : other ∈ rest) : s.Supports other :=
  sound.supports other (top ▸ List.mem_cons_of_mem _ mem)

end Resume

theorem Sound.advance (sound : s.Sound) (top : s.frames = .telling t :: rest) :
    (s.advance t rest).Ready := by
  obtain ⟨fair, stayed⟩ := sound.first top
  have rests := sound.others top
  unfold State.advance
  split
  · next walking pending =>
      refine ⟨sound.contained, rests, sound.inside, fun other mem e there => ?_, sound.own⟩
      rcases List.mem_cons.mp mem with rfl | old
      · exact Store.Fair.told fair stayed walking pending there
      · exact sound.once other old e there
  · next walk pending walking waiting =>
      exact sound.toReady.withTop (Store.Fair.begins fair walking waiting) rests
  · next loop walking =>
      by_cases ended : loop.range.index = loop.range.stop
      · rw [if_pos ended]
        exact sound.toReady.withTop (Store.Fair.ends fair walking ended) rests
      · have fits := Store.Fair.fits fair loop walking
        have unfinished := Nat.lt_of_le_of_ne fits.before ended
        obtain ⟨ob, reads, here⟩ := fits.reads unfinished
        rw [if_neg ended, reads]
        exact sound.toReady.withTop
          (Store.Fair.visit fair sound.contained walking unfinished here) rests

/-- A filter fetches its next entry, or it returns. -/
theorem Ready.fetch (ready : s.Ready) (known : f.mapping < s.nextMapping)
    (room : (s.mapMemory f.mapping).capacity = f.room) (own : f.result.entries = f.accepted)
    (rests : ∀ frame ∈ rest, s.Supports frame) : (s.fetch f rest).Ready := by
  unfold State.fetch
  split
  · refine ⟨ready.contained, rests, ready.inside, ready.once, fun other mem => ?_⟩
    rcases List.mem_cons.mp mem with rfl | old
    · exact own
    · exact ready.own other old
  · next entry here => exact ready.withTop ⟨known, here, rfl, room, own⟩ rests

theorem Sound.answer (sound : s.Sound) (top : s.frames = .filtering f :: rest) (truthy : Bool) :
    (s.answer f truthy rest).Ready := by
  obtain ⟨examines, _⟩ := sound.first top
  have rests := sound.others top
  have examines : s.Examines f := examines
  obtain ⟨result, keeps, entries⟩ := examines.keeps sound.contained
  unfold State.answer
  cases truthy with
  | true =>
      rw [if_pos rfl, keeps]
      exact sound.toReady.fetch examines.known examines.room entries rests
  | false =>
      rw [if_neg Bool.false_ne_true]
      exact sound.toReady.fetch examines.known examines.room examines.own rests

theorem Sound.resume (sound : s.Sound) (clear : s.Clear op) (step : s.resume op = some s') :
    s'.Ready := by
  unfold State.resume at step
  split at step
  · split at step
    · next top =>
        cases step
        exact sound.advance top
    · cases step
  · split at step
    · next top =>
        cases step
        exact sound.answer top _
    · cases step
  · split at step
    · next t rest top => exact absurd top (clear t rest)
    · next top =>
        cases step
        exact ⟨sound.contained, sound.others top, sound.inside, sound.once, sound.own⟩
    · cases step
  · cases step

/-! ## What LPC code does -/

theorem Sound.opens (sound : s.Sound) {efun : TellEfun} {avoid : List ObjectId} {text : Str}
    {walks : List Walk} (held : ∀ walk ∈ walks, s.world.Held walk.holder)
    (apart : (walks.map Walk.holder).Nodup) :
    (s.withTop (.telling (s.opens efun avoid text walks)) s.frames).Ready :=
  sound.toReady.withTop (Store.fair_opens held apart fun _ _ _ _ => List.not_mem_nil)
    sound.supports

theorem Sound.say (sound : s.Sound) {origin : ObjectId} {avoid : List ObjectId} {text : Str}
    (held : s.world.Held origin) (clear : s.Clear (.say origin avoid text)) :
    (s.say origin avoid text).Ready := by
  unfold State.say
  split
  · refine sound.opens (fun walk mem => ?_) (List.nodup_singleton _)
    rw [List.mem_singleton.mp mem]
    exact held
  · next env inside =>
      obtain ⟨straight, apart⟩ := clear env inside
      have envHeld := (Nodes.in_iff.mp (environmentOf_eq.mp inside)).2
      have other : env ≠ origin := by
        rintro rfl
        exact straight inside
      refine sound.toReady.withTop (Store.fair_opens (fun walk mem => ?_) ?_
        fun walk mem x there => ?_) sound.supports
      · rcases List.mem_pair.mp mem with rfl | rfl
        · exact envHeld
        · exact held
      · exact List.nodup_cons.mpr ⟨fun mem => other (List.mem_singleton.mp mem),
          List.nodup_singleton _⟩
      · intro received
        have self : x = env := by
          obtain ⟨receipt, sent, rfl⟩ := List.mem_map.mp received
          obtain ⟨_, _, rfl⟩ := List.mem_map.mp sent
          rfl
        subst self
        rcases List.mem_pair.mp mem with rfl | rfl
        · exact straight (environmentOf_of_mem sound.contained.linked envHeld there)
        · exact apart (environmentOf_of_mem sound.contained.linked held there)

theorem Sound.lpc (sound : s.Sound) (clear : s.Clear op) (step : s.lpc grow op = some s') :
    s'.Ready := by
  unfold State.lpc at step
  split at step
  · obtain ⟨held, done⟩ := Option.ite_none_right_eq_some.mp step
    cases done
    exact sound.say (held_iff.mpr held) clear
  · obtain ⟨held, done⟩ := Option.ite_none_right_eq_some.mp step
    cases done
    unfold State.tellRoom
    split
    · exact sound.toReady
    · refine sound.opens (fun walk mem => ?_) (List.nodup_singleton _)
      rw [List.mem_singleton.mp mem]
      exact held_iff.mpr held
  · obtain ⟨known, done⟩ := Option.ite_none_right_eq_some.mp step
    cases done
    exact sound.toReady.fetch known rfl rfl sound.supports
  · rw [Option.ite_none_left_eq_some, Option.map_eq_some_iff] at step
    obtain ⟨free, store, changes, rfl⟩ := step
    have stays : ∀ obj ∈ s.holders, op.releases obj = false := by
      intro obj mem
      rw [← Bool.not_eq_true]
      exact fun releases => free (List.any_eq_true.mpr ⟨obj, mem, releases⟩)
    refine ⟨sound.contained.change changes, fun frame mem => ?_, sound.inside, sound.once,
      sound.own⟩
    have supports := sound.supports frame mem
    cases frame with
    | telling t =>
        exact fair_change sound.contained mem supports (sound.sees _ mem) stays clear changes
    | filtering f => exact examines_change sound.contained mem supports clear changes

/-! ## Runs -/

theorem run_cases (step : s.run grow op = some s') : ∃ target, s' = target.observe ∧
    (s.resume op = some target ∨ s.resume op = none ∧ s.lpc grow op = some target) := by
  rw [State.run, Option.ite_none_left_eq_some, Option.map_eq_some_iff] at step
  obtain ⟨_, target, either, rfl⟩ := step
  refine ⟨target, rfl, ?_⟩
  rcases Option.or_eq_some_iff.mp either with resumes | ⟨waits, calls⟩
  · exact .inl resumes
  · rw [Option.ite_none_right_eq_some] at calls
    exact .inr ⟨waits, calls.2⟩

theorem Sound.run (sound : s.Sound) (clear : s.Clear op) (step : s.run grow op = some s') :
    s'.Sound := by
  obtain ⟨target, rfl, resumes | ⟨_, calls⟩⟩ := run_cases step
  · exact (sound.resume clear resumes).observe
  · exact (sound.lpc clear calls).observe

theorem Sound.after (sound : s.Sound) {ops : List Op} (clears : s.Clears grow ops)
    (run : s.after grow ops = some s') : s'.Sound := by
  induction ops generalizing s with
  | nil =>
      cases run
      exact sound
  | cons op ops ih =>
      obtain ⟨next, step, runs⟩ := Option.bind_eq_some_iff.mp run
      exact ih (sound.run clears.1 step) (clears.2 next step) runs

/-! ## What the calls have left -/

theorem ranks_observe (s : State) : s.observe.ranks = s.ranks := by
  rw [ranks, ranks, State.observe, List.map_map]
  refine List.map_congr_left fun frame _ => ?_
  cases frame <;> rfl

/-- The innermost call ends, or goes on with less left. -/
theorem proceeds_of_frames (top : s.frames = frame :: rest)
    (after : s'.frames = rest ∨ ∃ next, s'.frames = next :: rest ∧
      Prod.Lex (· < ·) (· < ·) next.rank frame.rank) : s.Proceeds s' := by
  intro left others ranked
  rw [ranks, top, List.map_cons, List.cons.injEq] at ranked
  obtain ⟨rfl, rfl⟩ := ranked
  rcases after with done | ⟨next, goesOn, less⟩
  · exact .inl (congrArg (List.map Frame.rank) done)
  · exact .inr ⟨next.rank, congrArg (List.map Frame.rank) goesOn, less⟩

theorem Sound.advance_proceeds (sound : s.Sound) (top : s.frames = .telling t :: rest) :
    s.Proceeds (s.advance t rest) := by
  obtain ⟨fair, _⟩ := sound.first top
  refine proceeds_of_frames top ?_
  unfold State.advance
  split
  · exact .inl rfl
  · next walk pending walking waiting =>
      refine .inr ⟨_, rfl, .left _ _ ?_⟩
      rw [walking, waiting]
      exact Nat.lt_succ_self _
  · next loop walking =>
      by_cases ended : loop.range.index = loop.range.stop
      · rw [if_pos ended]
        refine .inr ⟨_, rfl, .left _ _ ?_⟩
        rw [walking]
        exact Nat.lt_succ_self _
      · have fits := Store.Fair.fits fair loop walking
        have unfinished := Nat.lt_of_le_of_ne fits.before ended
        obtain ⟨ob, reads, _⟩ := fits.reads unfinished
        obtain ⟨calling, visited⟩ := Store.visit_eq s.toStore t loop ob
        rw [if_neg ended, reads]
        refine .inr ⟨_, rfl, ?_⟩
        simp only [visited, Frame.rank, walking, Option.toList_some, Option.map_some,
          Option.getD_some, List.length_singleton]
        exact .right _ (Nat.sub_succ_lt_self _ _ unfinished)

theorem fetch_frames (s : State) (f : Filtering) (rest : List Frame) :
    (s.fetch f rest).frames = rest ∨
      ∃ g, (s.fetch f rest).frames = .filtering g :: rest ∧ g.room = f.room ∧
        g.index = f.index := by
  unfold State.fetch
  split
  · exact .inl rfl
  · exact .inr ⟨_, rfl, rfl, rfl⟩

theorem Sound.answer_proceeds (sound : s.Sound) (top : s.frames = .filtering f :: rest)
    (truthy : Bool) : s.Proceeds (s.answer f truthy rest) := by
  obtain ⟨examines, _⟩ := sound.first top
  have examines : s.Examines f := examines
  obtain ⟨result, keeps, _⟩ := examines.keeps sound.contained
  have inside : f.index < f.room := by
    obtain ⟨bound, _⟩ := List.getElem?_eq_some_iff.mp examines.here
    rw [← examines.room]
    exact Nat.lt_of_lt_of_le bound (sound.contained.mapRoom f.mapping)
  have less : ∀ g : Filtering, g.room = f.room → g.index = f.index + 1 →
      Prod.Lex (· < ·) (· < ·) (Frame.filtering g).rank (Frame.filtering f).rank := by
    intro g room index
    rw [Frame.rank, Frame.rank, room, index]
    exact .right _ (Nat.sub_succ_lt_self _ _ inside)
  refine proceeds_of_frames top ?_
  unfold State.answer
  cases truthy with
  | true =>
      rw [if_pos rfl, keeps]
      rcases fetch_frames s _ rest with done | ⟨g, goesOn, room, index⟩
      · exact .inl done
      · exact .inr ⟨_, goesOn, less g room index⟩
  | false =>
      rw [if_neg Bool.false_ne_true]
      rcases fetch_frames s _ rest with done | ⟨g, goesOn, room, index⟩
      · exact .inl done
      · exact .inr ⟨_, goesOn, less g room index⟩

theorem Sound.resume_proceeds (sound : s.Sound) (step : s.resume op = some s') :
    s.Proceeds s' := by
  unfold State.resume at step
  split at step
  · split at step
    · next top =>
        cases step
        exact sound.advance_proceeds top
    · cases step
  · split at step
    · next top =>
        cases step
        exact sound.answer_proceeds top _
    · cases step
  · split at step
    · next top =>
        obtain ⟨_, done⟩ := Option.ite_none_right_eq_some.mp step
        cases done
        exact proceeds_of_frames top (.inl rfl)
    · next top =>
        cases step
        exact proceeds_of_frames top (.inl rfl)
    · cases step
  · cases step

theorem lpc_suspends (step : s.lpc grow op = some s') : s.Suspends s' := by
  unfold State.lpc at step
  split at step
  · obtain ⟨_, done⟩ := Option.ite_none_right_eq_some.mp step
    cases done
    unfold State.say
    split
    · exact ⟨[_], rfl⟩
    · exact ⟨[_], rfl⟩
  · obtain ⟨_, done⟩ := Option.ite_none_right_eq_some.mp step
    cases done
    unfold State.tellRoom
    split
    · exact ⟨[], rfl⟩
    · exact ⟨[_], rfl⟩
  · obtain ⟨_, done⟩ := Option.ite_none_right_eq_some.mp step
    cases done
    unfold State.filterMapping State.fetch
    split
    · exact ⟨[], rfl⟩
    · exact ⟨[_], rfl⟩
  · rw [Option.ite_none_left_eq_some, Option.map_eq_some_iff] at step
    obtain ⟨_, store, _, rfl⟩ := step
    exact ⟨[], rfl⟩

theorem Sound.lawful (sound : s.Sound) : s.Lawful grow where
  inside := sound.inside
  once := sound.once
  own := sound.own
  ends op s' step := by
    obtain ⟨target, rfl, resumes | ⟨waits, calls⟩⟩ := run_cases step
    · rw [if_pos (by rw [resumes]; rfl)]
      intro left rest ranked
      rw [ranks_observe]
      exact sound.resume_proceeds resumes left rest ranked
    · rw [if_neg (by rw [waits]; exact Bool.false_ne_true)]
      obtain ⟨new, ranked⟩ := lpc_suspends calls
      exact ⟨new, (ranks_observe target).trans ranked⟩

end State

/-- The law of the loops that run LPC code: in every run whose operations meet their condition,
no loop reads outside its container, every walk ends if what it calls does, whoever stays gets
the text once, and a filter returns what its callback answered true for. -/
theorem loops_law (grow : Nat → Nat) (ops : List Op) (s : State)
    (clears : ({} : State).Clears grow ops) (run : ({} : State).after grow ops = some s) :
    s.Lawful grow :=
  (State.sound_empty.after clears run).lawful

/-- A room with three objects that take commands, and one outside. -/
def crowd : List Op :=
  [.construct (str "/room"), .construct (str "/a"), .construct (str "/b"), .construct (str "/c"),
    .construct (str "/d"), .listeners { commandsEnabled := fun _ => true },
    .move 1 0, .move 2 0, .move 3 0]

/-- One of them speaks, and the other comes in while the second hears it. -/
def visitor : List Op :=
  crowd ++ [.say 1 [] (str "hello"), .next, .next, .next, .move 4 0, .next, .next, .next, .next,
    .next]

theorem visitor_clear : ({} : State).Clears (2 * ·) visitor := by
  constructor
  · trivial
  rintro _ ⟨⟩
  constructor
  · trivial
  rintro _ ⟨⟩
  constructor
  · trivial
  rintro _ ⟨⟩
  constructor
  · trivial
  rintro _ ⟨⟩
  constructor
  · trivial
  rintro _ ⟨⟩
  constructor
  · trivial
  rintro _ ⟨⟩
  constructor
  · rintro _ _ ⟨⟩
  rintro _ ⟨⟩
  constructor
  · rintro _ _ ⟨⟩
  rintro _ ⟨⟩
  constructor
  · rintro _ _ ⟨⟩
  rintro _ ⟨⟩
  constructor
  · rintro _ ⟨⟩
    constructor
    · rintro ⟨⟩
    · rintro ⟨⟩
  rintro _ ⟨⟩
  constructor
  · trivial
  rintro _ ⟨⟩
  constructor
  · trivial
  rintro _ ⟨⟩
  constructor
  · trivial
  rintro _ ⟨⟩
  constructor
  · intro _ loop mem _
    rw [List.mem_singleton.mp mem]
    intro _
    decide
  rintro _ ⟨⟩
  constructor
  · trivial
  rintro _ ⟨⟩
  constructor
  · trivial
  rintro _ ⟨⟩
  constructor
  · trivial
  rintro _ ⟨⟩
  constructor
  · trivial
  rintro _ ⟨⟩
  constructor
  · trivial
  · intro _ _
    trivial

theorem loops_law_visitor : ∃ s, ({} : State).after (2 * ·) visitor = some s ∧
    s.told.length = 1 ∧ s.Lawful (2 * ·) :=
  ⟨_, rfl, rfl, loops_law (2 * ·) visitor _ visitor_clear rfl⟩

/-- One of them speaks, and the second leaves while it hears it. -/
def leaver : List Op :=
  crowd ++ [.say 1 [] (str "hello"), .next, .next, .next, .setEnvironment 2 none, .next]

/-- The loop misses the third object and reads behind the end of the inventory. -/
theorem leaver_not_lawful :
    ¬ ∀ (grow : Nat → Nat) (ops : List Op) (s : State), ({} : State).after grow ops = some s →
      s.Lawful grow := by
  intro all
  have outside : (({} : State).after (2 * ·) leaver).any State.fault = true := by
    decide
  obtain ⟨s, reached, fault⟩ := (Option.any_eq_true _ _).mp outside
  have inside := (all _ _ s reached).inside
  rw [fault] at inside
  cases inside

end Kjdmud.Efun.LiveLoops
