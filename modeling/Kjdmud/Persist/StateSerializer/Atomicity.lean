import Kjdmud.Persist.StateSerializer.Sections

/-!
# When `restoreState` is all or nothing

`restoreState` makes objects, places them and assigns variables while it still reads, and
nothing is taken back.  It is all or nothing only where the placement section is refused
in time, or nothing is left to fail.
-/

namespace Kjdmud.Persist

open Fuel Decoded Tagged
open Object (World Lpc lookupLoadedObject)
open Efun (RestoreError)

/-! ## The property -/

/-- The variables, the environment and the inventory of all live objects are as they
were. -/
structure Unchanged (before after : State) : Prop where
  vars : ∀ ob ∈ allLive before.world, after.vars ob = before.vars ob
  environment : ∀ ob ∈ allLive before.world,
    (after.world.objects ob).map Object.LpcObject.environment =
      (before.world.objects ob).map Object.LpcObject.environment
  inventory : ∀ ob ∈ allLive before.world,
    (after.world.objects ob).map Object.LpcObject.inventory =
      (before.world.objects ob).map Object.LpcObject.inventory

theorem Unchanged.refl (state : State) : Unchanged state state :=
  ⟨fun _ _ => rfl, fun _ _ => rfl, fun _ _ => rfl⟩

/-- No object was constructed, and no file is loaded that was not. -/
structure NothingMade (before after : State) : Prop where
  created : after.world.next = before.world.next
  loaded : ∀ filename ob, after.world.loaded filename = some ob →
    before.world.loaded filename = some ob

theorem NothingMade.refl (state : State) : NothingMade state state :=
  ⟨rfl, fun _ _ => id⟩

/-- A call that is all or nothing: it comes to an end and its cursor is sound then, so it
never moved back in the file (this reader counts no room); unless it returns true, it cloned or
loaded no object of an entry, LPC code that it ran made none either, and the live objects are
unchanged. -/
def EndsAtomically (call : Nat → Option Restored) (state : State) : Prop :=
  ∃ restored, Converges call restored ∧ restored.cursor.Sound 0 ∧
    (restored.result = .ok true ∨ restored.made = [] ∧
      NothingMade state restored.state ∧ Unchanged state restored.state)

/-! ## The condition -/

/-- An entry whose object needs not be made. -/
def PlacementEntry.isLoaded (e : PlacementEntry) (state : State) : Bool :=
  !e.isClone && (lookupLoadedObject state.world e.filename).isSome

/-- The objects of entries that are all loaded. -/
def loadedObjects (state : State) : List PlacementEntry → ObjectOfId → ObjectOfId
  | [], objects => objects
  | e :: entries, objects =>
      match lookupLoadedObject state.world e.filename with
      | some obj => loadedObjects state entries ((e.id, obj) :: objects)
      | none => loadedObjects state entries objects

/-- What the placement section and the records in front of the refused one ask for. -/
def requested (objects : ObjectOfId) (state : State) (s : Str) (entries : List PlacementEntry)
    (pos : Nat) : State :=
  (recordsRead objects s entries.length pos).foldl (assign objects)
    (entries.foldl (place objects) (retain objects state))

/-- What they ask for, if all objects are loaded. -/
def asked (state : State) (s : Str) (entries : List PlacementEntry) (pos : Nat) : State :=
  requested (loadedObjects state entries []) state s entries pos

/-- No record of the value section fails. -/
def isFine : Fate → Bool
  | .goesOn _ _ => true
  | .refuses | .breaks => false

/-- The condition on a dump whose placement section is read to its end. -/
def QuietPlacements (manager : Manager) (s : Str) (state : State)
    (entries : List PlacementEntry) (pos : Nat) : Prop :=
  match entries.find? fun e => !e.isLoaded state with
  | none =>
      match recordsFate s entries.length pos with
      | .goesOn _ _ => True
      | .refuses => Unchanged state (asked state s entries pos)
      | .breaks => False
  | some e =>
      match manager.reconstruct e state with
      | (.ok (some _), _, _) =>
          (∃ objects, (reconstructAll manager entries [] state []).result = .ok objects) ∧
            isFine (recordsFate s entries.length pos) = true
      | (.ok none, state', _) | (.error _, state', _) =>
          NothingMade state state' ∧ Unchanged state state'

/-- `restoreState` refuses the file before it makes an object, or nothing fails. -/
def Quiet (manager : Manager) (file : Option Str) (state : State) : Prop :=
  match file with
  | none => True
  | some s =>
      if !magic.isPrefixOf s then True
      else
        match checkPlacements s magic.length with
        | .refuses => True
        | .breaks => False
        | .goesOn entries pos => QuietPlacements manager s state entries pos

/-! ## The first pass -/

section FirstPass

variable (manager : Manager) {state : State}

theorem reconstruct_loaded {e : PlacementEntry} (isLoaded : e.isLoaded state = true) :
    ∃ obj, lookupLoadedObject state.world e.filename = some obj ∧
      manager.reconstruct e state = (.ok (some obj), state, false) := by
  simp only [PlacementEntry.isLoaded, Bool.and_eq_true, Bool.not_eq_true'] at isLoaded
  obtain ⟨notClone, found⟩ := isLoaded
  obtain ⟨obj, isObject⟩ := Option.isSome_iff_exists.1 found
  refine ⟨obj, isObject, ?_⟩
  simp only [Manager.reconstruct, notClone, isObject]
  rfl

theorem reconstruct_isNew {e : PlacementEntry} (unloaded : e.isLoaded state = false) :
    (manager.reconstruct e state).2.2 = true := by
  unfold Manager.reconstruct
  split
  · rfl
  · rename_i notClone
    cases isObject : lookupLoadedObject state.world e.filename with
    | none => rfl
    | some obj =>
        simp only [PlacementEntry.isLoaded, notClone, isObject] at unloaded
        cases unloaded

/-- What was made stays made. -/
theorem made_subset_reconstructAll (entries : List PlacementEntry) (objects : ObjectOfId)
    (state : State) (made : List Str) :
    made ⊆ (reconstructAll manager entries objects state made).made := by
  induction entries generalizing objects state made with
  | nil => exact fun _ mem => mem
  | cons e entries inductionHypothesis =>
      rw [reconstructAll]
      split
      · exact fun _ mem => mem
      · exact fun _ mem => mem
      · rename_i obj state' isNew _
        refine List.Subset.trans ?_ (inductionHypothesis _ _ _)
        cases isNew with
        | true => exact List.subset_append_left _ _
        | false => exact fun _ mem => mem

/-- Entries whose objects are all loaded. -/
theorem reconstructAll_loaded {entries : List PlacementEntry}
    (loaded : ∀ e ∈ entries, e.isLoaded state = true) (objects : ObjectOfId) (made : List Str) :
    reconstructAll manager entries objects state made =
      ⟨.ok (loadedObjects state entries objects), state, made⟩ := by
  induction entries generalizing objects with
  | nil => rfl
  | cons e entries inductionHypothesis =>
      obtain ⟨obj, isObject, reconstructed⟩ :=
        reconstruct_loaded manager (loaded e List.mem_cons_self)
      simp only [reconstructAll, reconstructed, loadedObjects, isObject]
      exact inductionHypothesis (fun e mem => loaded e (List.mem_cons_of_mem _ mem)) _

/-- Up to the first entry that is not loaded. -/
theorem reconstructAll_append {known rest : List PlacementEntry}
    (loaded : ∀ e ∈ known, e.isLoaded state = true) (objects : ObjectOfId) (made : List Str) :
    reconstructAll manager (known ++ rest) objects state made =
      reconstructAll manager rest (loadedObjects state known objects) state made := by
  induction known generalizing objects with
  | nil => rfl
  | cons e known inductionHypothesis =>
      obtain ⟨obj, isObject, reconstructed⟩ :=
        reconstruct_loaded manager (loaded e List.mem_cons_self)
      simp only [List.cons_append, reconstructAll, reconstructed, loadedObjects, isObject]
      exact inductionHypothesis (fun e mem => loaded e (List.mem_cons_of_mem _ mem)) _

end FirstPass

/-! ## Deciding -/

/-- The tables of files and identities are the same. -/
def SameTables (w w' : World) : Prop :=
  w'.next = w.next ∧ w'.loaded = w.loaded

theorem sameTables_place (objects : ObjectOfId) (state : State) (e : PlacementEntry) :
    SameTables state.world (place objects state e).world := by
  unfold place
  split <;> exact ⟨rfl, rfl⟩

theorem sameTables_assign (objects : ObjectOfId) (state : State)
    (record : Int64 × List WorldValue) :
    SameTables state.world (assign objects state record).world := by
  unfold assign
  split <;> exact ⟨rfl, rfl⟩

theorem sameTables_foldl {α : Type} {f : State → α → State}
    (keeps : ∀ state a, SameTables state.world (f state a).world) (items : List α)
    (state : State) : SameTables state.world (items.foldl f state).world := by
  induction items generalizing state with
  | nil => exact ⟨rfl, rfl⟩
  | cons a items ih =>
      have first := keeps state a
      have rest := ih (f state a)
      exact ⟨rest.1.trans first.1, rest.2.trans first.2⟩

/-- Placing and assigning make no object. -/
theorem nothingMade_requested (objects : ObjectOfId) (state : State) (s : Str)
    (entries : List PlacementEntry) (pos : Nat) :
    NothingMade state (requested objects state s entries pos) := by
  have placed := sameTables_foldl (sameTables_place objects) entries (retain objects state)
  have assigned := sameTables_foldl (sameTables_assign objects)
    (recordsRead objects s entries.length pos)
    (entries.foldl (place objects) (retain objects state))
  refine ⟨assigned.1.trans placed.1, fun filename ob found => ?_⟩
  have same := congrFun (assigned.2.trans placed.2) filename
  exact same.symm.trans found

section Deciding

variable {manager : Manager} {state : State} {s : Str} {entries : List PlacementEntry}
  {c : Cursor} {call : Nat → Option Restored} {restored : Restored}

theorem endsAtomically_iff (converges : Converges call restored) :
    EndsAtomically call state ↔ restored.cursor.Sound 0 ∧
      (restored.result = .ok true ∨ restored.made = [] ∧
        NothingMade state restored.state ∧ Unchanged state restored.state) := by
  constructor
  · rintro ⟨restored', converges', property⟩
    cases converges.unique converges'
    exact property
  · intro property
    exact ⟨restored, converges, property⟩

theorem endsAtomically_iff_congr {call' : Nat → Option Restored}
    (equal : ∀ fuel, call' fuel = call fuel) :
    EndsAtomically call' state ↔ EndsAtomically call state := by
  rw [funext equal]

theorem leads_restoreEntries {fuel : Nat}
    (ended : restoreEntries manager s entries state c fuel = some restored) :
    c.Leads restored.cursor := by
  simp only [restoreEntries] at ended
  split at ended
  · cases ended
    exact .refl _
  · split at ended
    · cases ended
    · rename_i e state' c' ran
      cases ended
      exact leads_restoreVariables ran
    · rename_i state' c' ran
      cases ended
      exact leads_restoreVariables ran

/-- A call whose cursor is never sound at the end. -/
theorem not_endsAtomically
    (bad : ∀ fuel restored, call fuel = some restored → ¬ restored.cursor.Sound 0) :
    ¬ EndsAtomically call state := by
  rintro ⟨restored, converges, sound, _⟩
  obtain ⟨enough, ran⟩ := converges.eventually
  exact bad enough restored (ran enough (Nat.le_refl _)) sound

/-- What follows the second pass. -/
def finish (objects : ObjectOfId) (made : List Str) :
    Except RestoreError Unit × State × Cursor → Restored
  | (.error e, state, c) => ⟨.error e, state, made, c, objects⟩
  | (.ok _, state, c) => ⟨.ok true, state, made, c, objects⟩

theorem restoreEntries_ok {objects : ObjectOfId}
    (reconstructed : (reconstructAll manager entries [] state []).result = .ok objects)
    (fuel : Nat) :
    restoreEntries manager s entries state c fuel =
      (restoreVariables objects fuel s entries.length
        (entries.foldl (place objects)
          (retain objects (reconstructAll manager entries [] state []).state)) c).map
        (finish objects (reconstructAll manager entries [] state []).made) := by
  simp only [restoreEntries, reconstructed]
  cases restoreVariables objects fuel s entries.length
    (entries.foldl (place objects)
      (retain objects (reconstructAll manager entries [] state []).state)) c with
  | none => rfl
  | some ended =>
      obtain ⟨result, state', c'⟩ := ended
      cases result <;> rfl

/-- If all objects are reconstructed, the value section decides. -/
theorem endsAtomically_reconstructed {objects : ObjectOfId} (sound : c.Sound 0)
    (start : 0 < c.pos)
    (reconstructed : (reconstructAll manager entries [] state []).result = .ok objects) :
    EndsAtomically (restoreEntries manager s entries state c) state ↔
      match recordsFate s entries.length c.pos with
      | .goesOn _ _ => True
      | .refuses => (reconstructAll manager entries [] state []).made = [] ∧
          NothingMade state (requested objects (reconstructAll manager entries [] state []).state
            s entries c.pos) ∧
          Unchanged state (requested objects (reconstructAll manager entries [] state []).state
            s entries c.pos)
      | .breaks => False := by
  have unfolds (fuel : Nat) := restoreEntries_ok (s := s) (c := c) reconstructed fuel
  have ends := section_ends (s := s) objects entries.length (entries.foldl (place objects)
    (retain objects (reconstructAll manager entries [] state []).state)) sound start
  generalize recordsFate s entries.length c.pos = fate at ends
  cases ends with
  | goesOn state' c' settles sound' =>
      have converges := (settles.converges.map (finish objects _)).congr unfolds
      rw [endsAtomically_iff converges]
      exact iff_of_true ⟨sound', .inl rfl⟩ trivial
  | refuses e c' settles sound' =>
      have converges := (settles.converges.map (finish objects _)).congr unfolds
      rw [endsAtomically_iff converges]
      constructor
      · rintro ⟨_, impossible | unchanged⟩
        · cases impossible
        · exact unchanged
      · intro unchanged
        exact ⟨sound', .inr unchanged⟩
  | breaks bad =>
      refine iff_of_false (not_endsAtomically fun fuel restored ended => ?_) id
      rw [unfolds] at ended
      obtain ⟨⟨result, state', c'⟩, ran, rfl⟩ := Option.map_eq_some_iff.1 ended
      have unsound := bad fuel result state' c' ran
      cases result <;> exact unsound

theorem endsAtomically_failed {e : RestoreError} (sound : c.Sound 0)
    (failed : (reconstructAll manager entries [] state []).result = .error e) :
    EndsAtomically (restoreEntries manager s entries state c) state ↔
      (reconstructAll manager entries [] state []).made = [] ∧
        NothingMade state (reconstructAll manager entries [] state []).state ∧
        Unchanged state (reconstructAll manager entries [] state []).state := by
  have unfolds (fuel : Nat) : restoreEntries manager s entries state c fuel =
      some ⟨.error e, (reconstructAll manager entries [] state []).state,
        (reconstructAll manager entries [] state []).made, c, []⟩ := by
    simp only [restoreEntries, failed]
  rw [endsAtomically_iff ((Converges.const _).congr unfolds)]
  constructor
  · rintro ⟨_, impossible | unchanged⟩
    · cases impossible
    · exact unchanged
  · intro unchanged
    exact ⟨sound, .inr unchanged⟩

/-- Behind a placement section that was read to its end. -/
theorem endsAtomically_restoreEntries (sound : c.Sound 0) (start : 0 < c.pos) :
    EndsAtomically (restoreEntries manager s entries state c) state ↔
      QuietPlacements manager s state entries c.pos := by
  unfold QuietPlacements
  cases first : entries.find? fun e => !e.isLoaded state with
  | none =>
      have loaded : ∀ e ∈ entries, e.isLoaded state = true := by
        intro e mem
        have isLoaded := List.find?_eq_none.1 first e mem
        simpa using isLoaded
      have pass := reconstructAll_loaded manager loaded [] []
      rw [endsAtomically_reconstructed sound start (congrArg Reconstructed.result pass)]
      have nothing := nothingMade_requested (loadedObjects state entries []) state s entries c.pos
      simp only [pass, true_and, nothing]
      rfl
  | some e =>
      obtain ⟨isUnloaded, known, rest, rfl, loaded⟩ := List.find?_eq_some_iff_append.1 first
      have unloaded : e.isLoaded state = false := by simpa using isUnloaded
      have pass : reconstructAll manager (known ++ e :: rest) [] state [] =
          reconstructAll manager (e :: rest) (loadedObjects state known []) state [] :=
        reconstructAll_append manager (fun k mem => by simpa using loaded k mem) [] []
      have isNew := reconstruct_isNew manager unloaded
      rw [reconstructAll] at pass
      rcases reconstructed : manager.reconstruct e state with ⟨error | (_ | obj), state', new⟩
      all_goals simp only [reconstructed] at pass isNew ⊢
      · rw [endsAtomically_failed sound (congrArg Reconstructed.result pass)]
        simp only [pass, true_and]
      · rw [endsAtomically_failed sound (congrArg Reconstructed.result pass)]
        simp only [pass, true_and]
      · have made : (reconstructAll manager (known ++ e :: rest) [] state []).made ≠ [] := by
          rw [pass, isNew]
          exact List.ne_nil_of_mem (made_subset_reconstructAll _ _ _ _ _ (List.mem_singleton_self _))
        cases result : (reconstructAll manager (known ++ e :: rest) [] state []).result with
        | error error =>
            rw [endsAtomically_failed sound result]
            refine iff_of_false (fun holds => made holds.1) ?_
            rintro ⟨⟨objects, impossible⟩, _⟩
            cases impossible
        | ok objects =>
            rw [endsAtomically_reconstructed sound start result]
            cases recordsFate s (known ++ e :: rest).length c.pos with
            | goesOn pos reserved => exact iff_of_true trivial ⟨⟨objects, rfl⟩, rfl⟩
            | refuses =>
                refine iff_of_false (fun holds => made holds.1) ?_
                rintro ⟨_, impossible⟩
                cases impossible
            | breaks =>
                refine iff_of_false id ?_
                rintro ⟨_, impossible⟩
                cases impossible

/-- What follows the placement section. -/
def afterPlacements (manager : Manager) (s : Str) (state : State) (fuel : Nat) :
    Except RestoreError (List PlacementEntry) × Cursor → Option Restored
  | (.error e, c) => some ⟨.error e, state, [], c, []⟩
  | (.ok entries, c) => restoreEntries manager s entries state c fuel

theorem restoreState_dump (manager : Manager) (state : State)
    (isDump : ¬ (!magic.isPrefixOf s) = true) (fuel : Nat) :
    restoreState manager (some s) state fuel =
      (readPlacements s ⟨magic.length, 0, false⟩).bind (afterPlacements manager s state fuel) := by
  simp only [restoreState, if_neg isDump]
  cases readPlacements s ⟨magic.length, 0, false⟩ with
  | none => rfl
  | some ended =>
      obtain ⟨result, c⟩ := ended
      cases result <;> rfl

end Deciding

/-- `restoreState` is all or nothing exactly if the file is refused before an object is
made, or nothing fails, or what was asked for in front of the failure was so already. -/
theorem restoreState_atomic_iff (manager : Manager) (file : Option Str) (state : State) :
    EndsAtomically (restoreState manager file state) state ↔ Quiet manager file state := by
  have early : ∀ restored : Restored, restored.cursor.Sound 0 → restored.made = [] →
      restored.state = state → EndsAtomically (fun _ => some restored) state := by
    rintro restored sound made rfl
    exact ⟨restored, .const _, sound, .inr ⟨made, .refl _, .refl _⟩⟩
  unfold Quiet
  cases file with
  | none => exact iff_of_true (early _ ⟨rfl, Nat.le_refl _⟩ rfl rfl) trivial
  | some s =>
      simp only
      by_cases foreign : (!magic.isPrefixOf s) = true
      · rw [if_pos foreign]
        refine iff_of_true ?_ trivial
        refine (endsAtomically_iff_congr fun fuel => ?_).2
          (early ⟨.ok false, state, [], ⟨0, 0, false⟩, []⟩ ⟨rfl, Nat.le_refl _⟩ rfl rfl)
        simp only [restoreState, if_pos foreign]
      · rw [if_neg foreign]
        have start : (⟨magic.length, 0, false⟩ : Cursor).Sound 0 := ⟨rfl, Nat.le_refl _⟩
        have unfolds (fuel : Nat) := restoreState_dump manager state foreign fuel
        have agrees := agrees_readPlacements (s := s) start
        show _ ↔ match checkPlacements s magic.length with
          | .refuses => True
          | .breaks => False
          | .goesOn entries pos => QuietPlacements manager s state entries pos
        change Agrees _ _ _ _ (checkPlacements s magic.length) at agrees
        generalize checkPlacements s magic.length = checked at agrees
        cases agrees with
        | refuses e c ended caught sound =>
            refine iff_of_true ((endsAtomically_iff_congr fun fuel => ?_).2
              (early ⟨.error e, state, [], c, []⟩ sound rfl rfl)) trivial
            rw [unfolds, ended]
            rfl
        | breaks bad =>
            refine iff_of_false (not_endsAtomically fun fuel restored ended sound => ?_) id
            rw [unfolds] at ended
            obtain ⟨⟨result, c⟩, read, after⟩ := Option.bind_eq_some_iff.1 ended
            refine bad _ read ⟨?_, fun _ _ => rfl⟩
            cases result with
            | error e =>
                cases after
                exact sound
            | ok entries => exact (leads_restoreEntries after).sound sound
        | goesOn entries c ended sound onward =>
            have positive : 0 < c.pos := Nat.lt_of_lt_of_le (by decide) onward
            refine Iff.trans ?_ (endsAtomically_restoreEntries sound positive)
            refine endsAtomically_iff_congr fun fuel => ?_
            rw [unfolds, ended]
            rfl

/-! ## A truncated dump -/

/-- The dump of one clone of `/a`, cut off behind its placement. -/
def truncated : Str :=
  str "AMLPSTATE1\n1;0;1;-1;0;;2:/a"

/-- A process without objects. -/
def emptyState : State :=
  ⟨{}, fun _ => []⟩

/-- LPC code that compiles every file and does nothing. -/
def quietManager : Manager where
  lpc := {
    sourceFileExists := fun _ => true
    compiles := fun _ => true
    compileObject := fun w _ => (w, none)
    initPrivsForObject := fun w _ => w
    assignObjectUid := fun w _ => w
    create := fun w _ => (w, false) }
  mayClone _ := true
  vars _ state := state.vars

/-- The object is cloned, and then the value section is missing. -/
theorem truncated_not_atomic :
    ¬ ∀ manager file state, EndsAtomically (restoreState manager file state) state := by
  intro atomic
  have holds := atomic quietManager (some truncated) emptyState
  have isDump : ¬ (!magic.isPrefixOf truncated) = true := by decide
  have unfolds (fuel : Nat) := restoreState_dump
    quietManager emptyState isDump fuel
  have start : (⟨magic.length, 0, false⟩ : Cursor).Sound 0 := ⟨rfl, Nat.le_refl _⟩
  have agrees := agrees_readPlacements (s := truncated) start
  have check : checkPlacements truncated magic.length =
      .goesOn [⟨0, true, -1, [], str "/a"⟩] truncated.length := by
    decide
  change Agrees _ _ _ _ (checkPlacements truncated magic.length) at agrees
  rw [check] at agrees
  generalize isPos : truncated.length = pos at agrees
  cases agrees with
  | goesOn entries c ended sound onward =>
      rw [funext unfolds, ended] at holds
      change EndsAtomically (restoreEntries quietManager truncated
        [⟨0, true, -1, [], str "/a"⟩] emptyState c) emptyState at holds
      have positive : 0 < c.pos := Nat.lt_of_lt_of_le (by decide) onward
      have quiet := (endsAtomically_restoreEntries sound positive).1 holds
      have fine := quiet.2
      rw [← isPos] at fine
      revert fine
      decide

end Kjdmud.Persist
