import Kjdmud.Object.DestructFrame
import Kjdmud.Object.Liveness
import Kjdmud.Object.LoadedTable
import Kjdmud.Object.Shadow.Links

/-!
# The table of loaded objects over whole runs

In every run whose operations are clear each entry of the table leads to an object that is
not destructed and goes by the name of the entry.
-/

namespace Kjdmud.Object.LoadedTable

/-! ## Worlds -/

section World

variable {w w' : World} {obj x : ObjectId}

theorem isDestructed_nodes (w : World) (x : ObjectId) :
    w.isDestructed x = (w.nodes x).all Node.destructed := by
  rw [World.isDestructed, World.nodes]
  cases w.objects x <;> rfl

theorem isDestructed_retire (alive : w.isDestructed x = false) (other : x ≠ obj) :
    (retire w obj).isDestructed x = false := by
  rw [isDestructed_nodes] at alive
  rw [isDestructed_nodes, nodes_retire, Nodes.retire]
  cases here : w.nodes x with
  | none =>
      rw [here] at alive
      cases alive
  | some o =>
      rw [here, Option.all_some] at alive
      simp [alive, other]

/-- The table fits the objects, and objects are numbered below `next`. -/
structure Sound (w : World) : Prop where
  entries : ∀ {filename ob}, w.loaded filename = some ob →
    w.isDestructed ob = false ∧ w.filename ob = some filename
  fresh : ∀ {id}, w.next ≤ id → w.objects id = none

/-- The same table, and the same names and flags of objects. -/
structure Same (w w' : World) : Prop where
  loaded : w'.loaded = w.loaded
  filename : w'.filename = w.filename
  destructed : ∀ x, w'.isDestructed x = w.isDestructed x
  next : w'.next = w.next
  objects : ∀ {id}, w.objects id = none → w'.objects id = none

theorem Same.refl (w : World) : Same w w :=
  ⟨rfl, rfl, fun _ => rfl, rfl, id⟩

theorem Same.trans {w'' : World} (first : Same w w') (second : Same w' w'') : Same w w'' where
  loaded := second.loaded.trans first.loaded
  filename := second.filename.trans first.filename
  destructed x := (second.destructed x).trans (first.destructed x)
  next := second.next.trans first.next
  objects none_ := second.objects (first.objects none_)

theorem objects_modify {change : LpcObject → LpcObject} {id : ObjectId}
    (none_ : w.objects x = none) : (w.modify id change).objects x = none := by
  rw [World.modify]
  dsimp only
  by_cases same : x = id
  · subst same
    rw [Function.update_self, none_, Option.map_none]
  · rw [Function.update_of_ne same, none_]

theorem Same.modify {change : LpcObject → LpcObject} (id : ObjectId)
    (filename : ∀ o, (change o).filename = o.filename)
    (destructed : ∀ o, (change o).destructed = o.destructed) : Same w (w.modify id change) where
  loaded := rfl
  filename := filename_modify w id filename
  destructed _ := World.isDestructed_modify destructed
  next := rfl
  objects := objects_modify

theorem Same.modifyLinked {change : LpcObject → LpcObject} (weak : Option ObjectId)
    (filename : ∀ o, (change o).filename = o.filename)
    (destructed : ∀ o, (change o).destructed = o.destructed) :
    Same w (w.modifyLinked weak change) := by
  cases weak with
  | none => exact .refl w
  | some id => exact .modify id filename destructed

theorem Sound.same (sound : Sound w) (same : Same w w') : Sound w' where
  entries here := by
    rw [same.loaded] at here
    rw [same.destructed, same.filename]
    exact sound.entries here
  fresh beyond := same.objects (sound.fresh (same.next ▸ beyond))

/-! ## Operations that keep the table -/

theorem same_linkShadow (w : World) (self victim : ObjectId) :
    Same w (linkShadow w self victim) := by
  refine (Same.modify self ?_ ?_).trans (.modify victim ?_ ?_)
  all_goals
    intro o
    rfl

theorem same_clearShadow (w : World) (ob : ObjectId) : Same w (clearShadow w ob) := by
  refine Same.modify ob ?_ ?_
  all_goals
    intro o
    rfl

theorem same_unlinkShadow (w : World) (obj : ObjectId) : Same w (unlinkShadow w obj) := by
  refine (Same.modifyLinked _ ?_ ?_).trans ((Same.modifyLinked _ ?_ ?_).trans (.modify obj ?_ ?_))
  all_goals
    intro o
    rfl

theorem same_cutBelow (w : World) (top : ObjectId) : Same w (Shadow.State.cutBelow w top) := by
  refine (Same.modifyLinked _ ?_ ?_).trans (.modify top ?_ ?_)
  all_goals
    intro o
    rfl

theorem same_removeShadow (w : World) (ob : ObjectId) : Same w (removeShadow w ob) := by
  unfold removeShadow
  by_cases alone : ((w.link ob LpcObject.shadowedBy).isNone &&
      (w.link ob LpcObject.shadowing).isNone) = true
  · simp only [if_pos alone]
    exact .refl w
  · simp only [if_neg alone]
    refine (Same.modifyLinked _ ?_ ?_).trans
      ((Same.modifyLinked _ ?_ ?_).trans (.modify ob ?_ ?_))
    all_goals
      intro o
      rfl

theorem same_moveObject (w : World) (item dest : ObjectId) : Same w (moveObject w item dest) := by
  unfold moveObject
  split
  · exact .refl w
  · refine (Same.modifyLinked _ ?_ ?_).trans ((Same.modify item ?_ ?_).trans (.modify dest ?_ ?_))
    all_goals
      intro o
      rfl

theorem same_release (w : World) (obj : ObjectId) : Same w (release w obj) := by
  refine Same.modify obj ?_ ?_
  all_goals
    intro o
    rfl

/-! ## Operations on the table -/

theorem Sound.erase (sound : Sound w) (filename : Str) : Sound (w.eraseLoaded filename) where
  entries {other ob} here := by
    change Function.update w.loaded filename none other = some ob at here
    by_cases same : other = filename
    · rw [same, Function.update_self] at here
      cases here
    · rw [Function.update_of_ne same] at here
      exact sound.entries here
  fresh := sound.fresh

/-- An entry for an object that is not destructed and goes by that name. -/
theorem Sound.setLoaded (sound : Sound w) {filename : Str} (alive : w.isDestructed obj = false)
    (named : w.filename obj = some filename) : Sound (w.setLoaded filename obj) where
  entries {other ob} here := by
    change Function.update w.loaded filename (some obj) other = some ob at here
    by_cases same : other = filename
    · rw [same, Function.update_self] at here
      cases here
      rw [same]
      exact ⟨alive, named⟩
    · rw [Function.update_of_ne same] at here
      exact sound.entries here
  fresh := sound.fresh

/-- Nothing in the table is new. -/
theorem Sound.ne_next (sound : Sound w) {filename : Str} {ob : ObjectId}
    (here : w.loaded filename = some ob) : ob ≠ w.next := by
  rintro rfl
  have named := (sound.entries here).2
  rw [World.filename, sound.fresh (Nat.le_refl _)] at named
  cases named

theorem Sound.construct (sound : Sound w) (filename : Str) : Sound (w.construct filename) where
  entries {other ob} here := by
    have old : ob ≠ w.next := sound.ne_next here
    have same : (w.construct filename).objects ob = w.objects ob := Function.update_of_ne old _ _
    have entry := sound.entries here
    rw [World.isDestructed, World.filename] at entry ⊢
    rw [same]
    exact entry
  fresh {id} beyond := by
    have above : id ≠ w.next := Nat.ne_of_gt beyond
    change Function.update w.objects w.next _ id = none
    rw [Function.update_of_ne above]
    exact sound.fresh (Nat.le_of_succ_le beyond)

theorem alive_construct (w : World) (filename : Str) :
    (w.construct filename).isDestructed w.next = false ∧
      (w.construct filename).filename w.next = some filename := by
  simp [World.isDestructed, World.filename, World.construct]

theorem Sound.register (sound : Sound w) (obj : ObjectId) : Sound (w.register obj) :=
  ⟨sound.entries, sound.fresh⟩

theorem filename_rebind (w : World) {ob : ObjectId} (filename : Str) (other : x ≠ ob) :
    (w.modify ob fun o => { o with filename }).filename x = w.filename x := by
  rw [World.filename, World.filename, World.modify]
  dsimp only
  rw [Function.update_of_ne other]

theorem isDestructed_bindVirtual (w : World) (filename : Str) (ob x : ObjectId) :
    (bindVirtual w filename ob).isDestructed x = w.isDestructed x := by
  have renamed : (w.modify ob fun o => { o with filename }).isDestructed x = w.isDestructed x := by
    apply World.isDestructed_modify
    intro o
    rfl
  rw [← renamed]
  apply World.isDestructed_modify
  intro o
  rfl

/-- An object that is loaded under no other name takes the virtual path for its name. -/
theorem Sound.bindVirtual (sound : Sound w) {filename : Str} (alive : w.isDestructed obj = false)
    (free : ∀ other, w.loaded other = some obj → other = filename) :
    Sound (bindVirtual w filename obj) := by
  have named : (Object.bindVirtual w filename obj).filename =
      (w.modify obj fun o => { o with filename }).filename :=
    filename_modify _ obj fun _ => rfl
  constructor
  · intro other ob here
    rw [isDestructed_bindVirtual, named]
    change Function.update w.loaded filename (some obj) other = some ob at here
    by_cases same : other = filename
    · rw [same, Function.update_self] at here
      cases here
      refine ⟨alive, ?_⟩
      rw [World.filename, World.modify]
      dsimp only
      rw [Function.update_self, same]
      rw [World.isDestructed] at alive
      cases there : w.objects obj with
      | none =>
          rw [there] at alive
          cases alive
      | some o => rfl
    · rw [Function.update_of_ne same] at here
      have apart : ob ≠ obj := by
        rintro rfl
        exact same (free other here)
      rw [filename_rebind w filename apart]
      exact sound.entries here
  · intro id beyond
    exact objects_modify (objects_modify (sound.fresh beyond))

theorem nodes_eq_none : w.nodes x = none ↔ w.objects x = none := by
  rw [World.nodes, Option.map_eq_none_iff]

theorem objects_retire (none_ : w.objects x = none) : (retire w obj).objects x = none := by
  rw [← nodes_eq_none] at none_ ⊢
  rw [nodes_retire, Nodes.retire, none_, Option.map_none]

theorem loaded_retire_of_none (unnamed : w.filename obj = none) :
    (retire w obj).loaded = w.loaded := by
  have kept : (detach w obj).filename obj = none := by
    rw [filename_detach, unnamed]
  simp [retire, eraseFilename, kept]

/-- Destroying an object erases the entry under its name. -/
theorem Sound.retire (sound : Sound w) (obj : ObjectId) : Sound (retire w obj) where
  entries {filename ob} here := by
    have before : w.loaded filename = some ob ∧ ob ≠ obj := by
      cases named : w.filename obj with
      | none =>
          rw [loaded_retire_of_none named] at here
          refine ⟨here, ?_⟩
          rintro rfl
          have has := (sound.entries here).2
          rw [named] at has
          cases has
      | some own =>
          rw [loaded_retire w named] at here
          by_cases same : filename = own
          · rw [same, Function.update_self] at here
            cases here
          · rw [Function.update_of_ne same] at here
            refine ⟨here, ?_⟩
            rintro rfl
            have has := (sound.entries here).2
            rw [named] at has
            exact same (Option.some.inj has).symm
    have entry := sound.entries before.1
    rw [filename_retire]
    exact ⟨isDestructed_retire entry.1 before.2, entry.2⟩
  fresh beyond := objects_retire (sound.fresh (next_retire w obj ▸ beyond))

end World

/-! ## Steps -/

namespace State

variable {s s' : State}

theorem sound_loadVirtualObject (sound : Sound s.world) (filename : Str) :
    Sound (s.loadVirtualObject filename).1.world := by
  unfold State.loadVirtualObject
  split
  · exact sound
  · split
    · exact sound
    · exact ⟨sound.entries, sound.fresh⟩

theorem sound_loadObject (sound : Sound s.world) (rawFilename : Str)
    (sourceFileExists compiles : Bool) :
    Sound (s.loadObject rawFilename sourceFileExists compiles).1.world := by
  unfold State.loadObject
  dsimp only
  split
  · exact sound
  · split
    · exact sound_loadVirtualObject sound _
    · split
      · exact sound
      · have alive := alive_construct s.world (normalizeFilename rawFilename)
        exact ((sound.construct _).setLoaded alive.1 alive.2).register _

theorem sound_cloneObject (sound : Sound s.world) (rawFilename : Str) (compiles : Bool) :
    Sound (s.cloneObject rawFilename compiles).1.world := by
  unfold State.cloneObject
  dsimp only
  split
  · exact sound
  · exact (sound.construct _).register _

theorem sound_compiled {filename : Str} {ob : Option ObjectId} (sound : Sound s.world)
    (clear : ∀ new, ob = some new → s.world.isDestructed new = false ∧
      ∀ other, s.world.loaded other = some new → other = filename) :
    Sound (s.compiled filename ob).1.world := by
  unfold State.compiled
  have left : Sound { s.world with
      virtualCompiling := s.world.virtualCompiling.erase filename } :=
    ⟨sound.entries, sound.fresh⟩
  cases ob with
  | none => exact left
  | some new =>
      rcases clear new rfl with ⟨alive, free⟩
      exact left.bindVirtual alive free

theorem sound_created (sound : Sound s.world) (obj : ObjectId) (filename : Str)
    (clone throws : Bool) : Sound (s.created obj filename clone throws).1.world := by
  unfold State.created
  split
  · exact sound
  · split
    · exact sound.erase filename
    · exact sound

theorem sound_destruct {obj : ObjectId} {notify : Bool} {fuel : Nat} (sound : Sound s.world)
    (done : s.destruct obj notify fuel = some s') : Sound s'.world := by
  have unlinked := sound.same (same_unlinkShadow s.world obj)
  cases destructs_stops done with
  | done _ => exact sound
  | cascade top => exact sound
  | calls => exact unlinked
  | ends _ _ _ => exact unlinked.retire obj

theorem sound_expel (sound : Sound s.world) (cur : ObjectId) : Sound (s.expel cur).world := by
  unfold State.expel
  split
  · exact sound
  · have cleared := sound.same (same_clearShadow s.world cur)
    exact (cleared.same (same_unlinkShadow _ cur)).retire cur

theorem sound_run {op : Op} {result : State × Option Answer} (sound : Sound s.world)
    (clear : s.Clear op) (done : s.run op = some result) : Sound result.1.world := by
  cases op with
  | load rawFilename sourceFileExists compiles =>
      obtain ⟨_, ⟨⟩⟩ := Option.ite_none_right_eq_some.mp done
      exact sound_loadObject sound rawFilename sourceFileExists compiles
  | compileObjectReturns ob =>
      simp only [State.run] at done
      split at done
      · rename_i filename stack here
        split at done
        · cases done
          exact sound_compiled sound fun new => clear filename stack new here
        · cases done
      · cases done
  | createReturns throws =>
      simp only [State.run] at done
      split at done
      · rename_i obj filename clone stack here
        cases done
        have popped : Sound (State.mk s.world stack).world := sound
        exact sound_created popped obj filename clone throws
      · cases done
  | lookup rawFilename =>
      obtain ⟨_, ⟨⟩⟩ := Option.ite_none_right_eq_some.mp done
      exact sound
  | clone rawFilename compiles =>
      obtain ⟨_, ⟨⟩⟩ := Option.ite_none_right_eq_some.mp done
      exact sound_cloneObject sound rawFilename compiles
  | destruct obj notify fuel =>
      obtain ⟨_, done⟩ := Option.ite_none_right_eq_some.mp done
      rcases Option.map_eq_some_iff.mp done with ⟨s', destructs, rfl⟩
      exact sound_destruct sound destructs
  | onDestructReturns =>
      simp only [State.run] at done
      split at done
      · rename_i obj stack here
        split at done
        · cases done
          exact sound.retire obj
        · cases done
      · cases done
  | cascade notify fuel =>
      simp only [State.run] at done
      split at done
      · rename_i top stack here
        split at done
        · rcases Option.map_eq_some_iff.mp done with ⟨s', destructs, rfl⟩
          exact sound_destruct (sound.same (same_cutBelow s.world top)) destructs
        · cases done
      · cases done
  | expel cur =>
      obtain ⟨_, ⟨⟩⟩ := Option.ite_none_right_eq_some.mp done
      exact sound_expel sound cur
  | setMaster ob =>
      obtain ⟨_, ⟨⟩⟩ := Option.ite_none_right_eq_some.mp done
      exact ⟨sound.entries, sound.fresh⟩
  | linkShadow self victim =>
      obtain ⟨_, ⟨⟩⟩ := Option.ite_none_right_eq_some.mp done
      exact sound.same (same_linkShadow _ _ _)
  | removeShadow ob =>
      obtain ⟨_, ⟨⟩⟩ := Option.ite_none_right_eq_some.mp done
      exact sound.same (same_removeShadow _ _)
  | move item dest =>
      obtain ⟨_, ⟨⟩⟩ := Option.ite_none_right_eq_some.mp done
      exact sound.same (same_moveObject _ _ _)
  | release obj =>
      cases done
      exact sound.same (same_release _ _)

/-! ## Answers -/

theorem live_of_loaded (sound : Sound s.world) {filename : Str} {ob : ObjectId}
    (here : s.world.loaded filename = some ob) : s.world.isDestructed ob = false :=
  (sound.entries here).1

theorem answers_none (s s' : State) (loaded : s'.world.loaded = s.world.loaded) :
    s.Answers s' (.loaded none) where
  live _ never := by cases never
  kept _ filename ob here := by
    left
    rw [loaded]
    exact here

theorem answers_some (s : State) {s' : State} {ob : ObjectId}
    (live : s'.world.isDestructed ob = false) : s.Answers s' (.loaded (some ob)) where
  live _ same := by
    cases same
    exact live
  kept never := by cases never

theorem answers_cloned (s s' : State) (ob : Option ObjectId) : s.Answers s' (.cloned ob) where
  live _ never := by cases never
  kept never := by cases never

theorem answers_loadObject (sound : Sound s.world) {rawFilename : Str}
    {sourceFileExists compiles : Bool} {answer : Answer}
    (done : s.loadObject rawFilename sourceFileExists compiles = (s', some answer)) :
    s.Answers s' answer := by
  unfold State.loadObject State.loadVirtualObject State.answers at done
  dsimp only at done
  split at done
  · rename_i existing here
    cases done
    exact answers_some s (live_of_loaded sound here)
  · split at done
    · split at done
      · cases done
        exact answers_none s s rfl
      · split at done
        · cases done
          exact answers_none s s rfl
        · cases done
    · split at done
      · cases done
        exact answers_none s s rfl
      · cases done

theorem answers_run {op : Op} {answer : Answer} (sound : Sound s.world) (clear : s.Clear op)
    (done : s.run op = some (s', some answer)) : s.Answers s' answer := by
  cases op with
  | load rawFilename sourceFileExists compiles =>
      obtain ⟨_, done⟩ := Option.ite_none_right_eq_some.mp done
      exact answers_loadObject sound (Option.some.inj done)
  | compileObjectReturns ob =>
      simp only [State.run] at done
      split at done
      · rename_i filename stack here
        split at done
        · cases ob with
          | none =>
              cases done
              exact answers_none s _ rfl
          | some new =>
              cases done
              have alive := (clear filename stack new here rfl).1
              apply answers_some
              exact (isDestructed_bindVirtual _ filename new new).trans alive
        · cases done
      · cases done
  | createReturns throws =>
      simp only [State.run] at done
      split at done
      · rename_i obj filename clone stack here
        cases clone with
        | true =>
            cases done
            exact answers_cloned s _ _
        | false =>
            have condition := clear obj filename stack here
            cases throws with
            | false =>
                cases done
                exact answers_some s condition
            | true =>
                cases done
                constructor
                · intro _ never
                  cases never
                · intro _ other ob entry
                  by_cases same : other = filename
                  · right
                    rw [same] at entry
                    rw [condition ob entry, here]
                    exact ⟨false, filename, rfl⟩
                  · left
                    change Function.update s.world.loaded filename none other = some ob
                    rw [Function.update_of_ne same]
                    exact entry
      · cases done
  | lookup rawFilename =>
      simp only [State.run] at done
      split at done
      · cases here : lookupLoadedObject s.world rawFilename with
        | none =>
            rw [here] at done
            cases done
            exact answers_none s s rfl
        | some ob =>
            rw [here] at done
            cases done
            exact answers_some s (live_of_loaded sound here)
      · cases done
  | clone rawFilename compiles =>
      simp only [State.run] at done
      split at done
      · have same := Option.some.inj done
        unfold State.cloneObject State.answers at same
        dsimp only at same
        split at same
        · cases same
          exact answers_cloned s s none
        · cases same
      · cases done
  | destruct obj notify fuel =>
      obtain ⟨_, done⟩ := Option.ite_none_right_eq_some.mp done
      rcases Option.map_eq_some_iff.mp done with ⟨_, _, never⟩
      cases never
  | onDestructReturns =>
      simp only [State.run] at done
      split at done
      · split at done <;> cases done
      · cases done
  | cascade notify fuel =>
      simp only [State.run] at done
      split at done
      · split at done
        · rcases Option.map_eq_some_iff.mp done with ⟨_, _, never⟩
          cases never
        · cases done
      · cases done
  | release obj => cases done
  | _ =>
      simp only [State.run] at done
      split at done <;> cases done

/-! ## Whole runs -/

theorem sound_empty : Sound ({} : State).world where
  entries never := by cases never
  fresh _ := rfl

theorem sound_after {ops : List Op} (sound : Sound s.world) (clears : s.Clears ops)
    (reached : s.after ops = some s') : Sound s'.world :=
  Lib.Runs.after_keeps (p := fun s => Sound s.world) (fun sound clear done => sound_run sound clear done)
    sound clears reached

end State

/-- Over a clear run the table is coherent in every state, and a clear operation answers with no
destructed object and takes no entry from an object whose loading did not fail. -/
theorem loaded_law (ops : List Op) (clears : ({} : State).Clears ops) (s : State)
    (reached : ({} : State).after ops = some s) :
    s.Coherent ∧ ∀ op s' answer, s.Clear op → s.run op = some (s', some answer) →
      s.Answers s' answer := by
  have sound := State.sound_after State.sound_empty clears reached
  exact ⟨fun _ _ here => sound.entries here, fun _ _ _ => State.answers_run sound⟩

/-- The master is loaded, and makes an object for a path without a source file. -/
def virtualLoad : List Op :=
  [.load (str "/master") true true, .createReturns false, .setMaster (some 0),
    .load (str "/room/1") false true, .clone (str "/room") true, .createReturns false,
    .compileObjectReturns (some 1), .destruct 1 false 2]

theorem virtualLoad_clear : ({} : State).Clears virtualLoad := by
  constructor
  · trivial
  rintro _ ⟨⟩
  constructor
  · rintro _ _ _ ⟨⟩
    rfl
  rintro _ ⟨⟩
  constructor
  · trivial
  rintro _ ⟨⟩
  constructor
  · trivial
  rintro _ ⟨⟩
  constructor
  · trivial
  rintro _ ⟨⟩
  constructor
  · rintro _ _ _ ⟨⟩
  rintro _ ⟨⟩
  constructor
  · rintro _ _ _ ⟨⟩ ⟨⟩
    refine ⟨rfl, ?_⟩
    intro other here
    change Function.update (fun _ => none) (normalizeFilename (str "/master")) (some 0) other =
      some 1 at here
    by_cases same : other = normalizeFilename (str "/master")
    · rw [same, Function.update_self] at here
      cases here
    · rw [Function.update_of_ne same] at here
      cases here
  rintro _ ⟨⟩
  constructor
  · trivial
  · intro _ _
    trivial

theorem loaded_law_virtualLoad :
    ∃ s, ({} : State).after virtualLoad = some s ∧ s.Coherent :=
  ⟨_, rfl, (loaded_law virtualLoad virtualLoad_clear _ rfl).1⟩

/-- `compile_object` returns the master itself. -/
def renamedMaster : List Op :=
  [.load (str "/master") true true, .createReturns false, .setMaster (some 0),
    .load (str "/room/1") false true, .compileObjectReturns (some 0)]

/-- The old entry of the master leads to an object of another name. -/
theorem renamedMaster_not_coherent :
    ¬ ∀ (ops : List Op) (s : State), ({} : State).after ops = some s →
      s.Coherent ∧ ∀ op s' answer, s.run op = some (s', some answer) → s.Answers s' answer := by
  intro all
  have left : (({} : State).after renamedMaster).any (fun s =>
      s.world.loaded (str "/master") == some 0 &&
        s.world.filename 0 != some (str "/master")) = true := by
    decide
  rcases (Option.any_eq_true _ _).mp left with ⟨s, reached, found⟩
  rw [Bool.and_eq_true, beq_iff_eq, bne_iff_ne] at found
  exact found.2 ((all renamedMaster s reached).1 (str "/master") 0 found.1).2

end Kjdmud.Object.LoadedTable
