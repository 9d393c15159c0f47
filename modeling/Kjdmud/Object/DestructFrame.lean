import Kjdmud.Object.ObjectManager

/-!
# What destruction does to the object table

Destroying an object erases the table entry under its filename, whoever that
entry belongs to.  So the table changes only for the object itself exactly when
no other object is loaded under its filename; a clone shares that filename with
its blueprint.
-/

namespace Kjdmud.Object

/-! ## Reachable worlds -/

/-- One world is reached from another by operations of the manager, each of which
may run LPC code that goes on to further worlds the same way. -/
inductive Reaches : World → World → Prop
  | refl (w : World) : Reaches w w
  | trans {source middle target : World} (first : Reaches source middle)
      (second : Reaches middle target) : Reaches source target
  | loadObject (lpc : Lpc) (w : World) (rawFilename : Str)
      (compileObject : ∀ w filename, Reaches w (lpc.compileObject w filename).1)
      (initPrivs : ∀ w obj, Reaches w (lpc.initPrivsForObject w obj))
      (assignUid : ∀ w obj, Reaches w (lpc.assignObjectUid w obj))
      (create : ∀ w obj, Reaches w (lpc.create w obj).1) :
      Reaches w (loadObject lpc w rawFilename).1
  | loadMasterObject (lpc : Lpc) (w : World) (masterFile : Str)
      (compileObject : ∀ w filename, Reaches w (lpc.compileObject w filename).1)
      (initPrivs : ∀ w obj, Reaches w (lpc.initPrivsForObject w obj))
      (assignUid : ∀ w obj, Reaches w (lpc.assignObjectUid w obj))
      (create : ∀ w obj, Reaches w (lpc.create w obj).1) :
      Reaches w (loadMasterObject lpc w masterFile)
  | cloneObject (lpc : Lpc) (w : World) (rawFilename : Str)
      (initPrivs : ∀ w obj, Reaches w (lpc.initPrivsForObject w obj))
      (assignUid : ∀ w obj, Reaches w (lpc.assignObjectUid w obj))
      (create : ∀ w obj, Reaches w (lpc.create w obj).1) :
      Reaches w (cloneObject lpc w rawFilename).1
  | shadow (ldmud approved : Bool) (fuel : Nat) (w : World) (self ob : ObjectId) :
      Reaches w (shadow ldmud approved fuel w self ob)
  | removeShadow (w : World) (ob : ObjectId) : Reaches w (removeShadow w ob)
  | moveObject (w : World) (item dest : ObjectId) : Reaches w (moveObject w item dest)
  | destructObject (onDestructed : OnDestructed) (fuel : Nat) (w target : World)
      (obj : ObjectId) (callback : ∀ w obj, Reaches w (onDestructed w obj))
      (destructs : destructObject onDestructed fuel w obj = some target) : Reaches w target
  | release (w : World) (obj : ObjectId) : Reaches w (release w obj)

/-- A world of a running driver. -/
def Reachable (w : World) : Prop :=
  Reaches {} w

/-! ## Filenames -/

section Filenames

variable (w : World) (id : ObjectId) (weak : Option ObjectId) {change : LpcObject → LpcObject}

@[simp]
theorem loaded_modify : (w.modify id change).loaded = w.loaded :=
  rfl

@[simp]
theorem loaded_modifyLinked : (w.modifyLinked weak change).loaded = w.loaded := by
  cases weak <;> rfl

/-- A change that keeps the filename of one object keeps all filenames. -/
theorem filename_modify (kept : ∀ o, (change o).filename = o.filename) :
    (w.modify id change).filename = w.filename := by
  funext other
  by_cases same : other = id
  · subst same
    simp [World.filename, World.modify, Function.comp_def, kept]
  · simp [World.filename, World.modify, Function.update_of_ne same]

theorem filename_modifyLinked (kept : ∀ o, (change o).filename = o.filename) :
    (w.modifyLinked weak change).filename = w.filename := by
  cases weak with
  | none => rfl
  | some id => exact filename_modify w id kept

theorem filename_unlinkShadow (obj : ObjectId) :
    (unlinkShadow w obj).filename = w.filename := by
  refine (filename_modify _ _ ?_).trans
    ((filename_modifyLinked _ _ ?_).trans (filename_modifyLinked _ _ ?_))
  all_goals
    intro o
    rfl

@[simp]
theorem loaded_unlinkShadow (obj : ObjectId) : (unlinkShadow w obj).loaded = w.loaded := by
  simp [unlinkShadow]

theorem filename_detach (obj : ObjectId) : (detach w obj).filename = w.filename := by
  refine (filename_modify _ _ ?_).trans ((filename_modifyLinked _ _ ?_).trans
    ((filename_modify _ _ ?_).trans (filename_modifyLinked _ _ ?_)))
  all_goals
    intro o
    rfl

@[simp]
theorem loaded_detach (obj : ObjectId) : (detach w obj).loaded = w.loaded := by
  simp [detach]

theorem filename_retire (obj : ObjectId) : (retire w obj).filename = w.filename := by
  refine Eq.trans ?_ (filename_detach w obj)
  unfold retire eraseFilename
  cases (detach w obj).filename obj <;> rfl

/-- Retiring an object erases the entry under its filename and no other. -/
theorem loaded_retire {obj : ObjectId} {filename : Str} (named : w.filename obj = some filename) :
    (retire w obj).loaded = Function.update w.loaded filename none := by
  have kept : (detach w obj).filename obj = some filename := by
    rw [filename_detach, named]
  simp [retire, eraseFilename, kept, World.eraseLoaded]

end Filenames

/-! ## The filenames of reachable worlds -/

/-- Every object goes by a filename that some path normalises to. -/
def Normalized (w : World) : Prop :=
  ∀ id filename, w.filename id = some filename → ∃ raw, filename = normalizeFilename raw

theorem Normalized.of_filename_eq {w w' : World} (normalized : Normalized w)
    (same : w'.filename = w.filename) : Normalized w' := by
  intro id filename named
  rw [same] at named
  exact normalized id filename named

/-- Constructing an object under a normalised filename. -/
theorem Normalized.construct {w : World} (normalized : Normalized w) (raw : Str) :
    Normalized (w.construct (normalizeFilename raw)) := by
  intro id filename named
  by_cases same : id = w.next
  · subst same
    simp only [World.filename, World.construct, Function.update_self, Option.map_some,
      Option.some.injEq] at named
    exact ⟨raw, named.symm⟩
  · simp only [World.filename, World.construct, Function.update_of_ne same] at named
    exact normalized id filename named

/-- Rebinding an object to a normalised filename. -/
theorem Normalized.rebind {w : World} (normalized : Normalized w) (ob : ObjectId) (raw : Str) :
    Normalized (w.modify ob fun o => { o with filename := normalizeFilename raw }) := by
  intro id filename named
  by_cases same : id = ob
  · subst same
    simp only [World.filename, World.modify, Function.update_self, Option.map_map,
      Option.map_eq_some_iff] at named
    rcases named with ⟨_, _, rebound⟩
    exact ⟨raw, rebound.symm⟩
  · simp only [World.filename, World.modify, Function.update_of_ne same] at named
    exact normalized id filename named

/-- The LPC code run for a new object keeps filenames normalised. -/
structure Lpc.Keeps (lpc : Lpc) : Prop where
  initPrivs : ∀ w obj, Normalized w → Normalized (lpc.initPrivsForObject w obj)
  assignUid : ∀ w obj, Normalized w → Normalized (lpc.assignObjectUid w obj)
  create : ∀ w obj, Normalized w → Normalized (lpc.create w obj).1

section Operations

variable {lpc : Lpc} {w : World}

theorem Normalized.loadVirtualObject (normalized : Normalized w)
    (compileObject : ∀ w filename, Normalized w → Normalized (lpc.compileObject w filename).1)
    (raw : Str) : Normalized (loadVirtualObject lpc w (normalizeFilename raw)).1 := by
  unfold Object.loadVirtualObject
  split
  · exact normalized
  split
  · exact normalized
  have entered : Normalized
      { w with virtualCompiling := normalizeFilename raw :: w.virtualCompiling } :=
    normalized.of_filename_eq rfl
  have called := compileObject _ (normalizeFilename raw) entered
  dsimp only
  split
  · exact called.of_filename_eq rfl
  · rename_i ob _
    refine Normalized.of_filename_eq (called.rebind ob raw) ?_
    exact filename_modify _ _ fun _ => rfl

theorem Normalized.loadObject (normalized : Normalized w) (keeps : lpc.Keeps)
    (compileObject : ∀ w filename, Normalized w → Normalized (lpc.compileObject w filename).1)
    (raw : Str) : Normalized (loadObject lpc w raw).1 := by
  unfold Object.loadObject
  dsimp only
  split
  · exact normalized
  split
  · exact normalized.loadVirtualObject compileObject raw
  split
  · exact normalized
  have entered : Normalized (((w.construct (normalizeFilename raw)).setLoaded
      (normalizeFilename raw) w.next).register w.next) :=
    (normalized.construct raw).of_filename_eq rfl
  have created := keeps.create _ w.next
    (keeps.assignUid _ w.next (keeps.initPrivs _ w.next entered))
  split
  · exact created.of_filename_eq rfl
  · exact created

theorem Normalized.cloneObject (normalized : Normalized w) (keeps : lpc.Keeps) (raw : Str) :
    Normalized (cloneObject lpc w raw).1 := by
  unfold Object.cloneObject
  dsimp only
  split
  · exact normalized
  have entered : Normalized ((w.construct (normalizeFilename raw)).register w.next) :=
    (normalized.construct raw).of_filename_eq rfl
  have assigned := keeps.assignUid _ w.next (keeps.initPrivs _ w.next entered)
  exact keeps.create _ w.next (assigned.of_filename_eq (filename_modify _ _ fun _ => rfl))

theorem filename_shadow (ldmud approved : Bool) (fuel : Nat) (self ob : ObjectId) :
    (shadow ldmud approved fuel w self ob).filename = w.filename := by
  unfold shadow
  repeat' split
  all_goals try rfl
  refine (filename_modify _ _ ?_).trans (filename_modify _ _ ?_)
  all_goals
    intro o
    rfl

theorem filename_removeShadow (ob : ObjectId) :
    (removeShadow w ob).filename = w.filename := by
  unfold removeShadow
  dsimp only
  split
  · rfl
  · refine (filename_modify _ _ ?_).trans
      ((filename_modifyLinked _ _ ?_).trans (filename_modifyLinked _ _ ?_))
    all_goals
      intro o
      rfl

theorem filename_moveObject (item dest : ObjectId) :
    (moveObject w item dest).filename = w.filename := by
  unfold moveObject
  split
  · rfl
  · refine (filename_modify _ _ ?_).trans
      ((filename_modify _ _ ?_).trans (filename_modifyLinked _ _ ?_))
    all_goals
      intro o
      rfl

/-- Destruction keeps filenames normalised if its callback does. -/
theorem Normalized.destruct {onDestructed : OnDestructed}
    (callback : ∀ w obj, Normalized w → Normalized (onDestructed w obj)) (fuel : Nat) :
    (∀ w w' obj, Normalized w → destructObject onDestructed fuel w obj = some w' →
        Normalized w') ∧
      (∀ w w' top, Normalized w → destructChain onDestructed fuel w top = some w' →
        Normalized w') := by
  induction fuel with
  | zero =>
      constructor
      · intro w w' obj _ destructs
        contradiction
      · intro w w' top _ destructs
        contradiction
  | succ fuel ih =>
      constructor
      · intro w w' obj normalized destructs
        rw [destructObject] at destructs
        split at destructs
        · cases destructs
          exact normalized
        split at destructs
        · split at destructs
          · rcases Option.bind_eq_some_iff.mp destructs with ⟨top, _, chain⟩
            exact ih.2 w w' (some top) normalized chain
          · cases destructs
            exact normalized
        · cases destructs
          have unlinked := normalized.of_filename_eq (filename_unlinkShadow w obj)
          exact (callback _ obj unlinked).of_filename_eq (filename_retire _ obj)
      · intro w w' top normalized destructs
        cases top with
        | none =>
            cases destructs
            exact normalized
        | some top =>
            rw [destructChain] at destructs
            rcases Option.bind_eq_some_iff.mp destructs with ⟨middle, first, later⟩
            refine ih.2 middle w' _ (ih.1 _ middle top (normalized.of_filename_eq ?_) first) later
            refine (filename_modify _ _ ?_).trans (filename_modifyLinked _ _ ?_)
            all_goals
              intro o
              rfl

end Operations

/-- Operations keep filenames normalised. -/
theorem Reaches.normalized {source target : World} (reaches : Reaches source target) :
    Normalized source → Normalized target := by
  induction reaches with
  | refl w => exact id
  | trans _ _ first second => exact second ∘ first
  | loadObject lpc w raw _ _ _ _ compileObject initPrivs assignUid create =>
      intro normalized
      exact normalized.loadObject ⟨initPrivs, assignUid, create⟩ compileObject raw
  | loadMasterObject lpc w raw _ _ _ _ compileObject initPrivs assignUid create =>
      intro normalized
      have loaded := normalized.loadObject ⟨initPrivs, assignUid, create⟩ compileObject raw
      exact loaded.of_filename_eq rfl
  | cloneObject lpc w raw _ _ _ initPrivs assignUid create =>
      intro normalized
      exact normalized.cloneObject ⟨initPrivs, assignUid, create⟩ raw
  | shadow ldmud approved fuel w self ob =>
      intro normalized
      exact normalized.of_filename_eq (filename_shadow ldmud approved fuel self ob)
  | removeShadow w ob =>
      exact fun normalized => normalized.of_filename_eq (filename_removeShadow ob)
  | moveObject w item dest =>
      exact fun normalized => normalized.of_filename_eq (filename_moveObject item dest)
  | destructObject onDestructed fuel w target obj _ destructs callback =>
      intro normalized
      exact (Normalized.destruct callback fuel).1 w target obj normalized destructs
  | release w obj =>
      exact fun normalized => normalized.of_filename_eq (filename_modify _ _ fun _ => rfl)

/-! ## The frame of destruction -/

/-- Destroying `obj` changes the table for `obj` only: a lookup that finds another
object finds it again. -/
def Framed (before after : World) (obj : ObjectId) : Prop :=
  ∀ rawFilename other, other ≠ obj → lookupLoadedObject before rawFilename = some other →
    lookupLoadedObject after rawFilename = some other

/-- Nothing but `obj` itself is loaded under its filename. -/
def OwnsFilename (w : World) (obj : ObjectId) : Prop :=
  ∀ filename, w.filename obj = some filename → ∀ other, w.loaded filename = some other →
    other = obj

/-- A destruct callback that leaves the object table and the filenames alone. -/
def Inert (onDestructed : OnDestructed) : Prop :=
  ∀ w obj, (onDestructed w obj).loaded = w.loaded ∧
    (onDestructed w obj).filename = w.filename

/-- A live object that is not the base of a shadow chain is retired on the spot. -/
theorem destructObject_eq (onDestructed : OnDestructed) (fuel : Nat) {w : World}
    {obj : ObjectId} {o : LpcObject} (found : w.objects obj = some o)
    (live : o.destructed = false) (noBase : isShadowBase w obj = false) :
    destructObject onDestructed (fuel + 1) w obj =
      some (retire (onDestructed (unlinkShadow w obj) obj) obj) := by
  rw [destructObject, if_neg (by simp [found, live]), if_neg (by simp [noBase])]

/-- Retiring an object is framed exactly when the object owns its filename. -/
theorem framed_retire_iff {w : World} (normalized : Normalized w) {obj : ObjectId}
    {filename : Str} (named : w.filename obj = some filename) :
    Framed w (retire w obj) obj ↔ OwnsFilename w obj := by
  constructor
  · intro framed filename' named' other loaded
    rw [named, Option.some.injEq] at named'
    subst named'
    by_contra differ
    rcases normalized obj filename named with ⟨raw, rfl⟩
    have kept := framed raw other differ loaded
    rw [lookupLoadedObject, loaded_retire w named, Function.update_self] at kept
    contradiction
  · intro owns rawFilename other differ found
    rw [lookupLoadedObject, loaded_retire w named]
    rw [lookupLoadedObject] at found
    have elsewhere : normalizeFilename rawFilename ≠ filename := by
      rintro rfl
      exact differ (owns _ named other found)
    rw [Function.update_of_ne elsewhere]
    exact found

/-- In every reachable world, destroying a live object that is not the base of a
shadow chain changes the table for that object only, exactly when no other
object is loaded under its filename. -/
theorem destruct_frame {w : World} (reachable : Reachable w) {obj : ObjectId} {o : LpcObject}
    (found : w.objects obj = some o) (live : o.destructed = false)
    (noBase : isShadowBase w obj = false) {onDestructed : OnDestructed}
    (inert : Inert onDestructed) (fuel : Nat) :
    ∃ after, destructObject onDestructed (fuel + 1) w obj = some after ∧
      (Framed w after obj ↔ OwnsFilename w obj) := by
  refine ⟨_, destructObject_eq onDestructed fuel found live noBase, ?_⟩
  rcases inert (unlinkShadow w obj) obj with ⟨sameTable, sameNames⟩
  have table : (onDestructed (unlinkShadow w obj) obj).loaded = w.loaded := by
    rw [sameTable, loaded_unlinkShadow]
  have names : (onDestructed (unlinkShadow w obj) obj).filename = w.filename := by
    rw [sameNames, filename_unlinkShadow]
  have normalized : Normalized w := by
    refine Reaches.normalized reachable fun id filename named => ?_
    contradiction
  have named : (onDestructed (unlinkShadow w obj) obj).filename obj = some o.filename := by
    rw [names, World.filename, found]
    rfl
  have framed := framed_retire_iff (normalized.of_filename_eq names) named
  simpa only [Framed, OwnsFilename, lookupLoadedObject, table, names] using framed

/-! ## A blueprint and its clone -/

/-- Every file exists and compiles, and LPC code does nothing. -/
def plainLpc : Lpc where
  sourceFileExists _ := true
  compiles _ := true
  compileObject w _ := (w, none)
  initPrivsForObject w _ := w
  assignObjectUid w _ := w
  create w _ := (w, false)

/-- `/a` is loaded, as object 0. -/
def blueprintWorld : World :=
  (loadObject plainLpc {} (str "/a")).1

/-- Object 1 is a clone of it. -/
def cloneWorld : World :=
  (cloneObject plainLpc blueprintWorld (str "/a")).1

theorem reachable_blueprintWorld : Reachable blueprintWorld :=
  .loadObject plainLpc {} _ (fun w _ => .refl w) (fun w _ => .refl w) (fun w _ => .refl w)
    fun w _ => .refl w

theorem reachable_cloneWorld : Reachable cloneWorld :=
  .trans reachable_blueprintWorld
    (.cloneObject plainLpc blueprintWorld _ (fun w _ => .refl w) (fun w _ => .refl w)
      fun w _ => .refl w)

/-- Destroying the blueprint is framed. -/
theorem destruct_frame_blueprint :
    ∃ after, destructObject (fun w _ => w) 1 cloneWorld 0 = some after ∧
      (Framed cloneWorld after 0 ↔ OwnsFilename cloneWorld 0) :=
  destruct_frame reachable_cloneWorld (o := { filename := str "/a" }) rfl rfl rfl
    (fun _ _ => ⟨rfl, rfl⟩) 0

/-- Destroying the clone unloads the blueprint. -/
theorem destruct_frame_clone :
    ¬ ∀ w obj o after, Reachable w → w.objects obj = some o → o.destructed = false →
      isShadowBase w obj = false → destructObject (fun w _ => w) 1 w obj = some after →
        Framed w after obj := by
  intro framed
  have lost := framed cloneWorld 1 { filename := str "/a", isClone := true }
    (retire (unlinkShadow cloneWorld 1) 1) reachable_cloneWorld rfl rfl rfl rfl
    (str "/a") 0 (by decide) (by decide)
  have unloaded : lookupLoadedObject (retire (unlinkShadow cloneWorld 1) 1) (str "/a") = none := by
    decide
  rw [unloaded] at lost
  contradiction

end Kjdmud.Object
