import Kjdmud.Net.Interactive.Bindings

/-!
# Interactive objects over whole runs

In every run whose operations are clear the connections and the registry fit together, and
`exec` moves the connection of the old object and no other.
-/

namespace Kjdmud.Net.Interactive

open Kjdmud.Object

namespace State

variable {s s' : State}

/-! ## Steps -/

/-- A connection is exchanged for one with the same object. -/
theorem Sound.exchange (sound : s.Sound) (c : ConnId) (conn : Option Connection)
    (same : conn.bind Connection.boundObject = s.boundTo c)
    (opens : s.isOpen c = true → conn.any Connection.isOpen = true) (next : ConnId)
    (known : ∀ c', next ≤ c' → Function.update s.connections c conn c' = none)
    (current : Option ConnId) (stack : List Frame) :
    Sound { s with
      connections := Function.update s.connections c conn
      next := next
      current := current
      stack := stack } := by
  have bound : (s.setConnection c conn).boundTo = s.boundTo := by
    rw [boundTo_setConnection, same, Function.update_eq_self]
  have back {c' : ConnId} {ob : ObjectId} (here : (s.setConnection c conn).boundTo c' = some ob) :
      s.boundTo c' = some ob := by
    rwa [bound] at here
  constructor
  · change Bindings.Agrees (s.setConnection c conn).boundTo s.registry
    rw [bound]
    exact sound.agrees
  · intro c' ob here
    change (s.setConnection c conn).isOpen c' = true
    rw [isOpen_setConnection]
    by_cases this : c' = c
    · rw [if_pos this]
      exact opens (this ▸ sound.opened (back here))
    · rw [if_neg this]
      exact sound.opened (back here)
  · exact fun here => sound.held (back here)
  · exact fun here => sound.live (back here)
  · exact fun beyond => known _ beyond

theorem Sound.accept (sound : s.Sound) :
    Sound { s with
      connections := Function.update s.connections s.next (some {})
      next := s.next + 1
      current := some s.next
      stack := [.connect s.next] } := by
  have unused : s.connections s.next = none := sound.known (Nat.le_refl _)
  apply sound.exchange s.next (some {})
  · rw [boundTo, unused]
    rfl
  · exact fun _ => rfl
  · intro c' beyond
    rw [Function.update_of_ne (Nat.ne_of_gt beyond)]
    exact sound.known (Nat.le_of_succ_le beyond)

theorem Sound.lapse (sound : s.Sound) (c : ConnId) :
    (s.setConnection c ((s.connections c).map fun conn => { conn with closed := true })).Sound := by
  apply sound.exchange c
  · rw [boundTo]
    cases s.connections c <;> rfl
  · rw [isOpen]
    cases s.connections c <;> exact id
  · intro c' beyond
    by_cases same : c' = c
    · rw [same, Function.update_self, sound.known (same ▸ beyond)]
      rfl
    · rw [Function.update_of_ne same]
      exact sound.known beyond

theorem Sound.idle (sound : s.Sound) (current : Option ConnId) (stack : List Frame) :
    Sound { s with current := current, stack := stack } :=
  ⟨sound.agrees, sound.opened, sound.held, sound.live, sound.known⟩

/-- What `exec` does where it succeeds. -/
theorem exec_cases (s : State) (args : List (Option ObjectId)) :
    s.exec args = (s, 0) ∨ ∃ newOb oldOb rest c, args = some newOb :: oldOb :: rest ∧
      s.current = some c ∧ s.exec args = (s.attach c newOb, 1) := by
  match args with
  | some newOb :: oldOb :: rest =>
      cases current : s.current with
      | none =>
          left
          rw [exec, current]
      | some c =>
          right
          refine ⟨newOb, oldOb, rest, c, rfl, rfl, ?_⟩
          rw [exec, current]
  | [] => exact .inl rfl
  | none :: _ => exact .inl rfl
  | [some _] => exact .inl rfl

theorem Sound.exec (sound : s.Sound) {args : List (Option ObjectId)}
    (clear : s.Clear (.exec args)) (held : args.all fun arg => arg.all s.world.held) :
    (s.exec args).1.Sound := by
  rcases s.exec_cases args with same | ⟨newOb, oldOb, rest, c, rfl, current, same⟩
  · rw [same]
    exact sound
  · rw [same]
    rcases clear newOb oldOb rest c rfl current with ⟨⟨old, -, bound⟩, takes⟩
    rw [List.all_cons, Bool.and_eq_true] at held
    exact sound.attach (sound.opened bound) takes held.1

theorem Sound.removeInteractive (sound : s.Sound) (ob : ObjectId) :
    (s.removeInteractive ob).1.Sound := by
  rw [State.removeInteractive]
  by_cases destructed : s.world.isDestructed ob = true
  · rw [if_pos destructed]
    exact sound
  · rw [if_neg destructed]
    cases s.find ob with
    | none => exact sound
    | some c => exact sound.close c

theorem Sound.connectReturns (sound : s.Sound) {c : ConnId} {stack : List Frame} {ob : ObjectId}
    (open_ : s.isOpen c = true) (takes : s.Takes c ob) (held : s.world.held ob = true) :
    (State.attach { s with stack := stack } c ob).Sound :=
  Sound.attach (sound.withStack stack) open_ takes held

theorem Sound.run (sound : s.Sound) {op : Op} {result : State × Option Int} (clear : s.Clear op)
    (done : s.run op = some result) : result.1.Sound := by
  cases op with
  | accept =>
      obtain ⟨_, ⟨⟩⟩ := Option.ite_none_right_eq_some.mp done
      exact sound.accept
  | connectReturns loginObj =>
      simp only [State.run] at done
      split at done
      · rename_i c stack here
        cases loginObj with
        | none =>
            cases done
            exact (sound.idle none stack).destroy c
        | some ob =>
            dsimp only at done
            split at done
            · rename_i held
              cases done
              rcases clear ob c stack rfl here with ⟨open_, takes⟩
              exact sound.connectReturns open_ takes held
            · cases done
      · cases done
  | logonReturns ok =>
      simp only [State.run] at done
      split at done
      · rename_i c stack here
        split at done
        · cases done
          exact sound.idle none stack
        · cases done
          exact (sound.idle none stack).destroy c
      · cases done
  | apply c =>
      obtain ⟨_, ⟨⟩⟩ := Option.ite_none_right_eq_some.mp done
      exact sound.idle _ _
  | applyReturns =>
      simp only [State.run] at done
      split at done
      · cases done
        exact sound.idle _ _
      · cases done
  | lapse c =>
      obtain ⟨_, ⟨⟩⟩ := Option.ite_none_right_eq_some.mp done
      exact sound.lapse c
  | sweep =>
      obtain ⟨_, ⟨⟩⟩ := Option.ite_none_right_eq_some.mp done
      exact sound.sweep
  | exec args =>
      obtain ⟨helds, ⟨⟩⟩ := Option.ite_none_right_eq_some.mp done
      exact sound.exec clear (Bool.and_eq_true_iff.mp helds).2
  | removeInteractive ob =>
      obtain ⟨_, ⟨⟩⟩ := Option.ite_none_right_eq_some.mp done
      exact sound.removeInteractive ob
  | destruct obj notify fuel =>
      obtain ⟨_, done⟩ := Option.ite_none_right_eq_some.mp done
      rcases Option.map_eq_some_iff.mp done with ⟨s', destructs, rfl⟩
      exact (sound.withStack _).destruct clear destructs
  | onDestructReturns =>
      simp only [State.run] at done
      split at done
      · rename_i obj stack here
        split at done
        · cases done
          have popped := sound.withStack stack
          by_cases destructed : s.world.isDestructed obj = true
          · apply popped.retired
            intro c bound
            have live := destructed_of_live (sound.live bound nofun)
            rw [destructed] at live
            cases live
          · exact popped.retired obj (clear obj stack here (Bool.eq_false_iff.mpr destructed))
        · cases done
      · cases done
  | cascade notify fuel =>
      simp only [State.run] at done
      split at done
      · rename_i top stack here
        split at done
        · rcases Option.map_eq_some_iff.mp done with ⟨s', destructs, rfl⟩
          exact (sound.descends top stack).destruct (clear top stack here) destructs
        · cases done
      · cases done
  | expel cur =>
      obtain ⟨_, ⟨⟩⟩ := Option.ite_none_right_eq_some.mp done
      exact sound.expel clear
  | construct filename =>
      obtain ⟨_, ⟨⟩⟩ := Option.ite_none_right_eq_some.mp done
      exact sound.withWorld fun _ live => live_construct_of_live live
  | linkShadow self victim =>
      obtain ⟨_, ⟨⟩⟩ := Option.ite_none_right_eq_some.mp done
      exact sound.withWorld fun _ live => (live_congr (nodes_linkShadow _ _ _)).trans live
  | removeShadow ob =>
      obtain ⟨_, ⟨⟩⟩ := Option.ite_none_right_eq_some.mp done
      exact sound.withWorld fun _ live => (live_congr (nodes_removeShadow _ _)).trans live
  | move item dest =>
      obtain ⟨_, ⟨⟩⟩ := Option.ite_none_right_eq_some.mp done
      exact sound.withWorld fun _ live => live_moveObject.trans live
  | release obj =>
      simp only [State.run] at done
      split at done
      · cases done
      · rename_i unbound
        cases done
        apply sound.withWorld
        intro c ob here live
        have other : ob ≠ obj := fun same => sound.free_of_bound unbound c (same ▸ here)
        rw [live_release, live, Bool.true_and, Bool.not_eq_true', beq_eq_false_iff_ne]
        exact other

/-! ## Whole runs -/

theorem sound_empty : ({} : State).Sound where
  agrees := ⟨fun _ _ => ⟨nofun, nofun⟩, nofun⟩
  opened := nofun
  held := nofun
  live := nofun
  known _ := rfl

theorem Sound.after (sound : s.Sound) {ops : List Op} (clears : s.Clears ops)
    (reached : s.after ops = some s') : s'.Sound :=
  Lib.Runs.after_keeps (p := fun s => s.Sound) (fun sound clear done => sound.run clear done) sound
    clears reached

theorem Sound.integrity (sound : s.Sound) : s.Integrity where
  found _ _ _ here := sound.find_iff.mpr here
  alone _ _ _ _ _ here there := sound.agrees.alone here there
  entries e mem := by
    have here := (sound.agrees.listed e.1 e.2).mp mem
    exact ⟨sound.opened here, here⟩
  live _ _ _ here := destructed_of_live (sound.live here nofun)

/-- A clear `exec` that succeeds moves the connection of the old object. -/
theorem Sound.moves (sound : s.Sound) {args : List (Option ObjectId)}
    (clear : s.Clear (.exec args)) (done : s.run (.exec args) = some (s', some 1)) :
    ∃ newOb oldOb rest, args = some newOb :: some oldOb :: rest ∧ s.Moves newOb oldOb s' := by
  simp only [State.run] at done
  split at done
  · rcases s.exec_cases args with same | ⟨newOb, oldOb, rest, c, rfl, current, same⟩
    · rw [same] at done
      cases done
    · rw [same] at done
      cases done
      rcases clear newOb oldOb rest c rfl current with ⟨⟨old, rfl, bound⟩, -⟩
      rcases exists_of_boundTo bound with ⟨conn, exist, -⟩
      refine ⟨newOb, old, rest, rfl, c, sound.opened bound, ?_, boundTo_attach exist newOb⟩
      intro c'
      constructor
      · exact fun there => sound.agrees.alone there bound
      · rintro rfl
        exact bound
  · cases done

end State

/-- Over a clear run the connections and the registry fit together in every state, and a clear
`exec` that succeeds there moves exactly the connection of the old object. -/
theorem interactive_law (ops : List Op) (clears : ({} : State).Clears ops) (s : State)
    (reached : ({} : State).after ops = some s) :
    s.Integrity ∧ ∀ args s', s.Clear (.exec args) → s.run (.exec args) = some (s', some 1) →
      ∃ newOb oldOb rest, args = some newOb :: some oldOb :: rest ∧ s.Moves newOb oldOb s' := by
  have sound := State.sound_empty.after clears reached
  exact ⟨sound.integrity, fun _ _ => sound.moves⟩

/-- A player logs in, moves to a new body, and is destructed. -/
def login : List Op :=
  [.construct (str "/login"), .accept, .connectReturns (some 0), .construct (str "/player"),
    .exec [some 1, some 0], .logonReturns true, .destruct 1 false 2]

theorem login_clear : ({} : State).Clears login := by
  constructor
  · trivial
  rintro _ ⟨⟩
  constructor
  · trivial
  rintro _ ⟨⟩
  constructor
  · rintro _ _ _ ⟨⟩ ⟨⟩
    refine ⟨rfl, rfl, ?_⟩
    intro c (other : c ≠ 0) bound
    change (Function.update (fun _ => none) 0 (some {}) c).bind Connection.boundObject = _ at bound
    rw [Function.update_of_ne other] at bound
    cases bound
  rintro _ ⟨⟩
  constructor
  · trivial
  rintro _ ⟨⟩
  constructor
  · rintro _ _ _ _ ⟨⟩ ⟨⟩
    refine ⟨⟨0, rfl, rfl⟩, rfl, ?_⟩
    intro c (other : c ≠ 0) bound
    change (Function.update (Function.update (fun _ => none) 0 (some {})) 0
      (some { boundObject := some 0 }) c).bind Connection.boundObject = _ at bound
    rw [Function.update_of_ne other, Function.update_of_ne other] at bound
    cases bound
  rintro _ ⟨⟩
  constructor
  · trivial
  rintro _ ⟨⟩
  constructor
  · intro _ _ _ c bound
    rfl
  · intro _ _
    trivial

theorem interactive_law_login : ∃ s, ({} : State).after login = some s ∧ s.Integrity :=
  ⟨_, rfl, (interactive_law login login_clear _ rfl).1⟩

/-- A player shadows an object, which is destructed. -/
def shadowedBase : List Op :=
  [.construct (str "/player"), .construct (str "/base"), .accept, .connectReturns (some 0),
    .logonReturns true, .linkShadow 0 1, .destruct 1 false 2, .cascade false 2,
    .cascade false 2]

/-- The connection of the player stays open, and bound to an object that is destructed. -/
theorem shadowedBase_not_lawful :
    ¬ ∀ (ops : List Op) (s : State), ({} : State).after ops = some s →
      s.Integrity ∧ ∀ args s', s.run (.exec args) = some (s', some 1) →
        ∃ newOb oldOb rest, args = some newOb :: some oldOb :: rest ∧
          s.Moves newOb oldOb s' := by
  intro all
  have left : (({} : State).after shadowedBase).any (fun s =>
      s.isOpen 0 && s.boundTo 0 == some 0 && s.world.isDestructed 0) = true := by
    decide
  rcases (Option.any_eq_true _ _).mp left with ⟨s, reached, found⟩
  rw [Bool.and_eq_true, Bool.and_eq_true, beq_iff_eq] at found
  have live := (all shadowedBase s reached).1.live 0 0 found.1.1 found.1.2
  rw [found.2] at live
  cases live

end Kjdmud.Net.Interactive
