import Kjdmud.Lib.Fuel
import Kjdmud.Efun.ParserPackage.LoadObjects

/-!
# The walks over trees

The walks of `loadObjects` come to an end where inventories, environments and arrays are trees,
and the LPC code that runs before leaves them so.
-/

namespace Kjdmud.Efun.ParserPackage

open Kjdmud.Fuel

/-! ## Trees -/

/-- Inventories, environments and arrays are trees, and the parser knows the parse user for as
long as it is there. -/
structure Grounded (parseUser : ObjectId) (d : Driver) : Prop where
  inventories : WellFounded fun inner ob => inner ∈ (d.objects ob).inventory
  environments : WellFounded fun outer ob => (d.objects ob).environment = some outer
  arrays : WellFounded fun nested array => EnvItem.array nested ∈ d.arrays array
  known : (d.objects parseUser).destructed = true ∨ (d.objects parseUser).info.isSome = true

/-- No LPC code puts a thing into itself or makes the parser forget the parse user. -/
structure Interrogation.Keeps (lpc : Interrogation) (parseUser : ObjectId) : Prop where
  list : ∀ d ob apply, Grounded parseUser d → Grounded parseUser (lpc.list d ob apply).1
  flag : ∀ d ob apply, Grounded parseUser d → Grounded parseUser (lpc.flag d ob apply).1
  users : ∀ d, Grounded parseUser d → Grounded parseUser (lpc.users d).1

/-- A change that moves nothing, destructs nothing and forgets nothing. -/
structure Stationary (change : ParseObject → ParseObject) : Prop where
  inventory : ∀ o, (change o).inventory = o.inventory
  environment : ∀ o, (change o).environment = o.environment
  destructed : ∀ o, (change o).destructed = o.destructed
  known : ∀ o, (change o).info.isSome = o.info.isSome

theorem Stationary.setFlags (change : ParseInfo → ParseInfo) :
    Stationary (ParseObject.setFlags change) where
  inventory _ := rfl
  environment _ := rfl
  destructed _ := rfl
  known _ := Option.isSome_map

section

variable {parseUser : ObjectId} {d : Driver}

theorem Grounded.modify {change : ParseObject → ParseObject} (stationary : Stationary change)
    (grounded : Grounded parseUser d) (ob : ObjectId) :
    Grounded parseUser (d.modify ob change) := by
  have field : ∀ {β : Type} (f : ParseObject → β), (∀ o, f (change o) = f o) →
      ∀ other, f ((d.modify ob change).objects other) = f (d.objects other) := by
    intro β f same other
    simp only [Driver.modify, Function.update_apply]
    split
    · next equal => rw [same, equal]
    · rfl
  constructor
  · simp only [field ParseObject.inventory stationary.inventory]
    exact grounded.inventories
  · simp only [field ParseObject.environment stationary.environment]
    exact grounded.environments
  · exact grounded.arrays
  · rw [field ParseObject.destructed stationary.destructed,
      field (fun o => o.info.isSome) stationary.known]
    exact grounded.known

theorem Grounded.unlessDestructed {next : Driver → Driver}
    (keeps : ∀ d, Grounded parseUser d → Grounded parseUser (next d))
    (grounded : Grounded parseUser d) (ob : ObjectId) :
    Grounded parseUser (d.unlessDestructed ob next) := by
  unfold Driver.unlessDestructed
  split
  · exact grounded
  · exact keeps d grounded

variable {lpc : Interrogation}

theorem Grounded.interrogateFlag (keeps : lpc.Keeps parseUser)
    (grounded : Grounded parseUser d) (apply : FlagApply) (change : ParseInfo → ParseInfo)
    (ob : ObjectId) : Grounded parseUser (interrogateFlag lpc apply change ob d) := by
  have called := keeps.flag d ob apply grounded
  unfold ParserPackage.interrogateFlag
  dsimp only
  split
  · exact called.modify (.setFlags change) ob
  · exact called

theorem Grounded.interrogateObject (keeps : lpc.Keeps parseUser)
    (grounded : Grounded parseUser d) (ob : ObjectId) :
    Grounded parseUser (interrogateObject lpc d ob) := by
  unfold ParserPackage.interrogateObject
  split
  · exact grounded
  have stored : ∀ d apply (store : List Str → ParseObject → ParseObject),
      (∀ ids, Stationary (store ids)) → Grounded parseUser d →
        Grounded parseUser ((lpc.list d ob apply).1.modify ob
          (store (lpc.list d ob apply).2.reduceOption)) :=
    fun d apply store stationary grounded =>
      (keeps.list d ob apply grounded).modify (stationary _) ob
  have nouns := stored d .idList (fun ids o => { o with nounIds := ids })
    (fun _ => ⟨fun _ => rfl, fun _ => rfl, fun _ => rfl, fun _ => rfl⟩) grounded
  refine nouns.unlessDestructed (fun d grounded => ?_) ob
  have plurals := stored _ .pluralIdList (fun ids o => { o with pluralIds := ids })
    (fun _ => ⟨fun _ => rfl, fun _ => rfl, fun _ => rfl, fun _ => rfl⟩)
    (grounded.modify (.setFlags fun info =>
      { info with setup := true, living := false, invAccessible := false, invVisible := false })
      ob)
  refine plurals.unlessDestructed (fun d grounded => ?_) ob
  have adjectives := stored d .adjectivIdList (fun ids o => { o with adjIds := ids })
    (fun _ => ⟨fun _ => rfl, fun _ => rfl, fun _ => rfl, fun _ => rfl⟩) grounded
  refine adjectives.unlessDestructed (fun d grounded => ?_) ob
  refine (grounded.interrogateFlag keeps .isLiving _ ob).unlessDestructed
    (fun d grounded => ?_) ob
  refine (grounded.interrogateFlag keeps .inventoryAccessible _ ob).unlessDestructed
    (fun d grounded => ?_) ob
  exact grounded.interrogateFlag keeps .inventoryVisible _ ob

theorem Grounded.interrogate (keeps : lpc.Keeps parseUser) (discovered : List ObjectId)
    (grounded : Grounded parseUser d) :
    Grounded parseUser (discovered.foldl (ParserPackage.interrogateObject lpc) d) := by
  induction discovered generalizing d with
  | nil => exact grounded
  | cons ob discovered ih => exact ih (grounded.interrogateObject keeps ob)

theorem Grounded.fetchMasterUsers (keeps : lpc.Keeps parseUser)
    (grounded : Grounded parseUser d) : Grounded parseUser (fetchMasterUsers lpc d) := by
  unfold ParserPackage.fetchMasterUsers
  split
  · exact grounded
  · have called := keeps.users { d with users := [] }
      ⟨grounded.inventories, grounded.environments, grounded.arrays, grounded.known⟩
    exact ⟨called.inventories, called.environments, called.arrays, called.known⟩

/-! ## The walks come to an end -/

theorem Grounded.findUninitedObjects (grounded : Grounded parseUser d) (ob : ObjectId)
    (discovered : List ObjectId) : ∃ found, Converges
      (fun fuel => findUninitedObjects d.objects fuel discovered ob) found := by
  induction ob using grounded.inventories.induction generalizing discovered with
  | h ob ih =>
      by_cases destructed : (d.objects ob).destructed = true
      · exact ⟨discovered, .step rfl <| (Converges.const discovered).congr fun fuel => by
          rw [ParserPackage.findUninitedObjects, if_pos destructed]⟩
      by_cases full : (needRefresh (d.objects ob) &&
          decide (kMaxNumObjects ≤ discovered.length)) = true
      · exact ⟨discovered, .step rfl <| (Converges.const discovered).congr fun fuel => by
          rw [ParserPackage.findUninitedObjects, if_neg destructed, if_pos full]⟩
      rcases exists_converges_foldlM (fun inner member => ih inner member)
        (if needRefresh (d.objects ob) then discovered ++ [ob] else discovered) with ⟨found, below⟩
      exact ⟨found, .step rfl <| below.congr fun fuel => by
        rw [ParserPackage.findUninitedObjects, if_neg destructed, if_neg full]⟩

/-- A loop over an array comes to an end when the descents do. -/
theorem exists_converges_getObjectsFromItems
    {descend : Nat → ArrayId → List ObjectId → Option (List ObjectId)} {items : List EnvItem}
    (each : ∀ nested, .array nested ∈ items → ∀ discovered, ∃ found,
      Converges (fun fuel => descend fuel nested discovered) found)
    (o : Objects) (discovered : List ObjectId) : ∃ found, Converges
      (fun fuel => getObjectsFromItems o (descend fuel) items discovered) found := by
  induction items generalizing discovered with
  | nil => exact ⟨discovered, .const discovered⟩
  | cons item items ih =>
      have rest := ih fun nested member => each nested (.tail _ member)
      cases item with
      | array nested =>
          rcases each nested List.mem_cons_self discovered with ⟨found, below⟩
          rcases rest found with ⟨result, after⟩
          exact ⟨result, below.bind after⟩
      | other => exact rest discovered
      | object ob =>
          simp only [getObjectsFromItems]
          split_ifs
          · exact rest discovered
          · exact ⟨discovered, .const discovered⟩
          · exact rest (discovered ++ [ob])
          · exact rest discovered

theorem Grounded.getObjectsFromArray (grounded : Grounded parseUser d) (array : ArrayId)
    (discovered : List ObjectId) : ∃ found, Converges
      (fun fuel => getObjectsFromArray d fuel array discovered) found := by
  induction array using grounded.arrays.induction generalizing discovered with
  | h array ih =>
      rcases exists_converges_getObjectsFromItems (fun nested member => ih nested member)
        d.objects discovered with ⟨found, below⟩
      exact ⟨found, .step rfl below⟩

theorem Grounded.recAddObject (grounded : Grounded parseUser d) (ob user : ObjectId)
    (flags : RaoFlags) (path : List ObjectId) (r : Walk) : ∃ r', Converges
      (fun fuel => recAddObject d.objects user fuel flags path r ob) r' := by
  induction ob using grounded.inventories.induction generalizing flags path r with
  | h ob ih =>
      by_cases destructed : (d.objects ob).destructed = true
      · exact ⟨r, .step rfl <| (Converges.const r).congr fun fuel => by
          rw [ParserPackage.recAddObject, if_pos destructed]⟩
      cases known : (d.objects ob).info with
      | none =>
          rcases exists_converges_foldlM (fun inner member => ih inner member flags (ob :: path)) r
            with ⟨r', below⟩
          exact ⟨r', .step rfl <| below.congr fun fuel => by
            simp only [ParserPackage.recAddObject, if_neg destructed, known]⟩
      | some info =>
          by_cases full : kMaxNumObjects ≤ r.objects.length
          · exact ⟨r, .step rfl <| (Converges.const r).congr fun fuel => by
              simp only [ParserPackage.recAddObject, if_neg destructed, known, if_pos full]⟩
          by_cases closed : (!info.invVisible) = true
          · have numbered := Converges.const (r.add user flags path ob)
            exact ⟨_, .step rfl <| numbered.congr fun fuel => by
              simp only [ParserPackage.recAddObject, if_neg destructed, known, if_neg full,
                if_pos closed]⟩
          rcases exists_converges_foldlM (fun inner member => ih inner member
            { inReach := flags.inReach && info.invAccessible
              my := flags.my || decide (ob = user) } (ob :: path)) (r.add user flags path ob)
            with ⟨r', below⟩
          exact ⟨r', .step rfl <| below.congr fun fuel => by
            simp only [ParserPackage.recAddObject, if_neg destructed, known, if_neg full,
              if_neg closed]⟩

theorem exists_converges_addObjectsFromItems
    {descend : Nat → RaoFlags → List ObjectId → ArrayId → Walk → Option Walk}
    {items : List EnvItem}
    (each : ∀ nested, .array nested ∈ items → ∀ flags path r, ∃ r',
      Converges (fun fuel => descend fuel flags path nested r) r')
    (o : Objects) (user : ObjectId) (flags : RaoFlags) (path : List ObjectId)
    (last : Option (ObjectId × ParseInfo)) (r : Walk) : ∃ r', Converges
      (fun fuel => addObjectsFromItems o user (descend fuel) flags path items last r) r' := by
  induction items generalizing last r with
  | nil => exact ⟨r, .const r⟩
  | cons item items ih =>
      have rest := ih fun nested member => each nested (.tail _ member)
      cases item with
      | array nested =>
          rcases last with _ | ⟨container, info⟩
          · rcases rest none r with ⟨result, after⟩
            exact ⟨result, (Converges.const r).bind after⟩
          · have below : ∃ r', Converges (fun fuel =>
                if info.invVisible then
                  descend fuel
                    { inReach := flags.inReach && info.invAccessible
                      my := flags.my || container = user } (container :: path) nested r
                else some r) r' := by
              split_ifs
              · exact each nested List.mem_cons_self _ _ r
              · exact ⟨r, .const r⟩
            rcases below with ⟨r', below⟩
            rcases rest none r' with ⟨result, after⟩
            exact ⟨result, below.bind after⟩
      | other => exact rest none r
      | object ob =>
          simp only [addObjectsFromItems]
          cases (o ob).info with
          | none =>
              dsimp only
              split_ifs
              · exact rest none r
              · exact rest none r
          | some info =>
              dsimp only
              split_ifs
              · exact rest none r
              · exact ⟨r, .const r⟩
              · exact rest _ _

theorem Grounded.addObjectsFromArray (grounded : Grounded parseUser d) (array : ArrayId)
    (user : ObjectId) (flags : RaoFlags) (path : List ObjectId) (r : Walk) : ∃ r', Converges
      (fun fuel => addObjectsFromArray d user fuel flags path array r) r' := by
  induction array using grounded.arrays.induction generalizing flags path r with
  | h array ih =>
      rcases exists_converges_addObjectsFromItems (fun nested member => ih nested member)
        d.objects user flags path none r with ⟨r', below⟩
      exact ⟨r', .step rfl below⟩

theorem Grounded.reaches (grounded : Grounded parseUser d) (target : Option ObjectId)
    (ob : ObjectId) : ∃ reached, Converges (fun fuel => reaches d.objects target fuel ob)
      reached := by
  induction ob using grounded.environments.induction with
  | h ob ih =>
      by_cases there : some ob = target
      · exact ⟨true, .step rfl <| (Converges.const true).congr fun fuel => by
          rw [ParserPackage.reaches, if_pos there]⟩
      cases outer : (d.objects ob).environment with
      | none => exact ⟨false, .step rfl <| (Converges.const false).congr fun fuel => by
          simp only [ParserPackage.reaches, if_neg there, outer]⟩
      | some next =>
          by_cases closed : ((d.objects next).info.any fun info => !info.invVisible) = true
          · exact ⟨false, .step rfl <| (Converges.const false).congr fun fuel => by
              simp only [ParserPackage.reaches, if_neg there, outer, if_pos closed]⟩
          rcases ih next outer with ⟨reached, above⟩
          exact ⟨reached, .step rfl <| above.congr fun fuel => by
            simp only [ParserPackage.reaches, if_neg there, outer, if_neg closed]⟩

theorem Grounded.remoteUsers (grounded : Grounded parseUser d) (target : Option ObjectId)
    (users : List (Option ObjectId)) (count : Nat) : ∃ remote, Converges
      (fun fuel => remoteUsers d.objects target fuel users count) remote := by
  induction users generalizing count with
  | nil => exact ⟨[], .const []⟩
  | cons user users ih =>
      cases user with
      | none => exact ih count
      | some ob =>
          by_cases unknown : (d.objects ob).info.isNone = true
          · simp only [ParserPackage.remoteUsers, if_pos unknown]
            exact ih count
          · simp only [ParserPackage.remoteUsers, if_neg unknown]
            rcases grounded.reaches target ob with ⟨reached, walked⟩
            rcases ih (count + 1) with ⟨more, appended⟩
            have decided : ∃ remote, Converges (fun fuel =>
                if reached = true then ParserPackage.remoteUsers d.objects target fuel users count
                else if kMaxNumObjects ≤ count then some []
                else (ParserPackage.remoteUsers d.objects target fuel users (count + 1)).map
                  (ob :: ·)) remote := by
              split_ifs
              · exact ih count
              · exact ⟨[], .const []⟩
              · exact ⟨ob :: more, appended.map (ob :: ·)⟩
            rcases decided with ⟨remote, decided⟩
            exact ⟨remote, walked.bind decided⟩

theorem Grounded.discover (grounded : Grounded parseUser d) (env : ParseEnv) :
    ∃ found, Converges (fun fuel => discover fuel d parseUser env) found := by
  cases env with
  | absent =>
      simp only [ParserPackage.discover]
      cases d.around parseUser with
      | none => exact ⟨[], .const []⟩
      | some env => exact grounded.findUninitedObjects env []
  | notArray => exact ⟨[], .const []⟩
  | array items => exact grounded.getObjectsFromArray items []

theorem Grounded.number (grounded : Grounded parseUser d) (env : ParseEnv) :
    ∃ r, Converges (fun fuel => number fuel d parseUser env) r := by
  cases env with
  | array items => exact grounded.addObjectsFromArray items parseUser _ [] {}
  | absent | notArray =>
      simp only [ParserPackage.number]
      cases d.around parseUser with
      | none => exact ⟨_, .const _⟩
      | some env => exact grounded.recAddObject env parseUser _ [] {}

theorem Grounded.appended (grounded : Grounded parseUser d) (count : Nat) :
    ∃ remote, Converges (fun fuel => appended fuel d parseUser count) remote := by
  simp only [ParserPackage.appended]
  split_ifs
  · exact ⟨[], .const []⟩
  · exact grounded.remoteUsers _ _ _

theorem Grounded.interrogated (keeps : lpc.Keeps parseUser) (grounded : Grounded parseUser d)
    (discovered : List ObjectId) :
    Grounded parseUser (interrogated lpc d discovered) :=
  (grounded.fetchMasterUsers keeps).interrogate keeps _

/-- The objects are gathered. -/
theorem Grounded.gather (keeps : lpc.Keeps parseUser) (grounded : Grounded parseUser d)
    (env : ParseEnv) : ∃ g, Converges (fun fuel => gather lpc fuel d parseUser env) g := by
  rcases grounded.discover env with ⟨discovered, found⟩
  let d' := ParserPackage.interrogated lpc d discovered
  have kept : Grounded parseUser d' := grounded.interrogated keeps discovered
  rcases kept.number env with ⟨walk, walked⟩
  rcases kept.appended walk.objects.length with ⟨remote, added⟩
  exact ⟨_, found.bind (walked.bind (added.map fun remote =>
    (⟨d'.objects, d'.nicks, walk, remote⟩ : Gathered)))⟩

end

end Kjdmud.Efun.ParserPackage
