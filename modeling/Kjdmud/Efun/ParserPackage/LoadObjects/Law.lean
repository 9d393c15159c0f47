import Kjdmud.Efun.ParserPackage.LoadObjects.Alignment

/-!
# When the universe of a sentence is aligned

Loading the objects and expanding nicknames keeps its writes inside its vectors exactly when no
remote user lists `my` or a nickname, and no nickname is expanded to an object that is only a
remote user.  Then every bit says what it should.
-/

namespace Kjdmud.Efun.ParserPackage

open Kjdmud.Fuel

/-! ## Aligned sets -/

/-- The vectors have one length, and each bit is set for a word that the object lists, for a
nickname that has been expanded to it, or, with `my`, for what the parse user carries. -/
structure Aligned (parseUser : ObjectId) (g : Gathered) (calls : List Expansion)
    (loaded : LoadedObjectSet) : Prop where
  objects : loaded.objects = g.numbered
  inReach : loaded.inReach.length = loaded.objects.length
  isLiving : loaded.isLiving.length = loaded.objects.length
  isAccessible : loaded.isAccessible.length = loaded.objects.length
  nouns : ∀ word i, i < loaded.objects.length →
    (loaded.hashTable.bit .noun word i = true ↔
      g.Lists .noun word i ∨ loaded.Expanded calls word i)
  plurals : ∀ word i, i < loaded.objects.length →
    (loaded.hashTable.bit .plural word i = true ↔ g.Lists .plural word i)
  adjectives : ∀ word i, i < loaded.objects.length →
    (loaded.hashTable.bit .adj word i = true ↔
      g.Lists .adj word i ∨ (word = myWord ∧ g.Carried parseUser i))

/-- `loadObjects`, followed by these calls of `expandNode`, has no parse user to start from, or
it ends with an aligned set and no write behind the end of a vector. -/
def LoadsAligned (lpc : Interrogation) (d : Driver) (parseUser : ObjectId) (env : ParseEnv)
    (calls : List Expansion) : Prop :=
  (∃ message, Converges (fun fuel => loadObjects lpc fuel d parseUser env) (.throws message)) ∨
  ∃ g loaded expanded,
    Converges (fun fuel => gather lpc fuel d parseUser env) g ∧
    Converges (fun fuel => loadObjects lpc fuel d parseUser env) (.done loaded) ∧
    calls.foldlM expandNode loaded = some expanded ∧
    Aligned parseUser g calls expanded

/-- No remote user lists `my` or a nickname, and none of these is expanded to an object that
only a remote user is. -/
structure Gathered.Fits (g : Gathered) (calls : List Expansion) : Prop where
  apart : g.Apart
  near : ∀ call ∈ calls, g.Early call.word → ∀ ob, call.nicknamed = some ob →
    ob ∈ g.remote → ob ∈ g.walk.objects

/-! ## The sets that are loaded -/

theorem findIdx?_append_lt_iff {near far : List ObjectId} {ob : ObjectId} {i : Nat}
    (found : (near ++ far).findIdx? (· = ob) = some i) : i < near.length ↔ ob ∈ near := by
  rcases List.findIdx?_eq_some_iff_getElem.mp found with ⟨below, here, before⟩
  constructor
  · intro inside
    rw [List.getElem_append_left inside, decide_eq_true_iff] at here
    exact here ▸ List.getElem_mem inside
  · intro member
    rcases List.getElem_of_mem member with ⟨j, inside, there⟩
    refine Nat.lt_of_le_of_lt (Nat.le_of_not_lt fun earlier => ?_) inside
    apply before j earlier
    rw [List.getElem_append_left inside, there]
    exact decide_eq_true rfl

section

variable {parseUser : ObjectId} {g : Gathered} {calls : List Expansion}

/-- A number that is found is below the size of its entry exactly when the object is near. -/
theorem Gathered.near_iff : (∀ call ∈ calls, ∀ i,
      call.target g.numbered = some i → i < g.room call.word) ↔
    ∀ call ∈ calls, g.Early call.word → ∀ ob, call.nicknamed = some ob →
      ob ∈ g.remote → ob ∈ g.walk.objects := by
  refine forall₂_congr fun call _ => ?_
  constructor
  · intro below early ob named remote
    have member : ob ∈ g.numbered := List.mem_append.mpr (.inr remote)
    cases found : g.numbered.findIdx? (· = ob) with
    | none => exact absurd rfl (of_decide_eq_false (List.findIdx?_eq_none_iff.mp found ob member))
    | some i =>
        have target : call.target g.numbered = some i := by
          rw [Expansion.target, named]
          exact found
        have short := below i target
        rw [Gathered.room, if_pos early] at short
        exact (findIdx?_append_lt_iff found).mp short
  · intro near i target
    unfold Gathered.room
    split_ifs with early
    · rcases Option.bind_eq_some_iff.mp target with ⟨ob, named, found⟩
      refine (findIdx?_append_lt_iff found).mpr ?_
      have here := (List.findIdx?_eq_some_iff_getElem.mp found).2.1
      have member : ob ∈ g.numbered := of_decide_eq_true here ▸ List.getElem_mem _
      rcases List.mem_append.mp member with walked | remote
      · exact walked
      · exact near early ob named remote
    · exact target_lt target

/-- Every vector has the length of the objects. -/
theorem Gathered.Sound.vectors (sound : g.Sound parseUser) {table : HashTable}
    {loaded : LoadedObjectSet} (built : g.table = some table) (done : g.load = .done loaded) :
    loaded.objects = g.numbered ∧ loaded.hashTable = table ∧
      loaded.inReach.length = g.numbered.length ∧ loaded.isLiving.length = g.numbered.length ∧
      loaded.isAccessible.length = g.numbered.length := by
  unfold Gathered.load at done
  rw [built] at done
  cases done
  have inReach : (g.walk.inReach ++ g.remote.map fun _ => true).length = g.numbered.length := by
    rw [List.length_append, List.length_map, sound.walk.inReach, Gathered.numbered,
      List.length_append]
  exact ⟨rfl, rfl, inReach, List.length_map _, inReach⟩

/-- What is loaded and expanded without a stray write is aligned. -/
theorem Gathered.Sound.aligned (sound : g.Sound parseUser) {loaded expanded : LoadedObjectSet}
    (done : g.load = .done loaded) (ran : calls.foldlM expandNode loaded = some expanded) :
    Aligned parseUser g calls expanded := by
  have built : ∃ table, g.table = some table := by
    unfold Gathered.load at done
    cases built : g.table with
    | none =>
        rw [built] at done
        cases done
    | some table => exact ⟨table, rfl⟩
  rcases built with ⟨table, built⟩
  rcases sound.vectors built done with ⟨objects, hashTable, inReach, isLiving, isAccessible⟩
  rcases table_spec sound built with ⟨sized, bits⟩
  have sized' : loaded.Sized g.room := by
    rw [LoadedObjectSet.Sized, hashTable, objects]
    exact sized
  have grew := grew_of_expandNodes sized' ran
  have same : ∀ word i, loaded.Expanded calls word i ↔ expanded.Expanded calls word i := by
    intro word i
    simp only [LoadedObjectSet.Expanded, grew.words, grew.objects]
  have bit : ∀ kind word i, expanded.hashTable.bit kind word i = true ↔
      (g.Lists kind word i ∨ (kind = .adj ∧ word = myWord ∧ g.Carried parseUser i)) ∨
        (kind = .noun ∧ expanded.Expanded calls word i) := by
    intro kind word i
    rw [grew.table.bit, hashTable, bits, same]
  constructor
  · rw [grew.objects, objects]
  · rw [grew.objects, grew.rest, objects, inReach]
  · rw [grew.objects, grew.rest, objects, isLiving]
  · rw [grew.objects, grew.rest, objects, isAccessible]
  · intro word i _
    simp [bit]
  · intro word i _
    simp [bit]
  · intro word i _
    simp [bit]

/-- A set is loaded and expanded exactly when everything fits. -/
theorem Gathered.Sound.fits_iff (sound : g.Sound parseUser) :
    (∃ loaded expanded, g.load = .done loaded ∧
      calls.foldlM expandNode loaded = some expanded) ↔ g.Fits calls := by
  have settled : ∀ table, g.table = some table → ∃ loaded, g.load = .done loaded ∧
      ((calls.foldlM expandNode loaded).isSome = true ↔
        ∀ call ∈ calls, g.Early call.word → ∀ ob, call.nicknamed = some ob →
          ob ∈ g.remote → ob ∈ g.walk.objects) := by
    intro table built
    have done : ∃ loaded, g.load = .done loaded := by
      unfold Gathered.load
      rw [built]
      exact ⟨_, rfl⟩
    rcases done with ⟨loaded, done⟩
    rcases sound.vectors built done with ⟨objects, hashTable, _⟩
    have sized : loaded.Sized g.room := by
      rw [LoadedObjectSet.Sized, hashTable, objects]
      exact (table_spec sound built).1
    refine ⟨loaded, done, ?_⟩
    rw [isSome_expandNodes sized, objects]
    exact near_iff
  constructor
  · rintro ⟨loaded, expanded, done, ran⟩
    have built : g.table.isSome = true := by
      unfold Gathered.load at done
      cases built : g.table with
      | none =>
          rw [built] at done
          cases done
      | some table => rfl
    rcases Option.isSome_iff_exists.mp built with ⟨table, named⟩
    rcases settled table named with ⟨loaded', done', near⟩
    rw [done] at done'
    cases done'
    exact ⟨(isSome_table_iff sound).mp built, near.mp (ran ▸ rfl)⟩
  · intro fits
    have built := (isSome_table_iff sound).mpr fits.apart
    rcases Option.isSome_iff_exists.mp built with ⟨table, named⟩
    rcases settled table named with ⟨loaded, done, near⟩
    rcases Option.isSome_iff_exists.mp (near.mpr fits.near) with ⟨expanded, ran⟩
    exact ⟨loaded, expanded, done, ran⟩

end

/-! ## The law -/

section

variable {lpc : Interrogation} {d : Driver} {parseUser : ObjectId}

theorem loadObjects_eq {env : ParseEnv}
    (there : ¬ (env = .absent ∧ (d.objects parseUser).destructed = true)) (fuel : Nat) :
    loadObjects lpc fuel d parseUser env =
      (gather lpc fuel d parseUser env).map Gathered.load := by
  unfold loadObjects
  cases env with
  | absent =>
      cases gone : (d.objects parseUser).destructed with
      | true => exact absurd ⟨rfl, gone⟩ there
      | false => rfl
  | notArray => rfl
  | array items => rfl

/-- The universe of a sentence is aligned exactly when the parse user is gone, or everything
that is gathered fits. -/
theorem loads_aligned_iff (keeps : lpc.Keeps parseUser) (grounded : Grounded parseUser d)
    (env : ParseEnv) (calls : List Expansion) :
    LoadsAligned lpc d parseUser env calls ↔
      (env = .absent ∧ (d.objects parseUser).destructed = true) ∨
        ∀ g, Converges (fun fuel => gather lpc fuel d parseUser env) g → g.Fits calls := by
  by_cases gone : env = .absent ∧ (d.objects parseUser).destructed = true
  · refine iff_of_true (.inl ⟨str "parse_sentence: no this_player() to parse from", ?_⟩)
      (.inl gone)
    rcases gone with ⟨rfl, gone⟩
    unfold loadObjects
    rw [gone]
    exact .const _
  rcases grounded.gather keeps env with ⟨g, gathered⟩
  rcases gathered.eventually with ⟨enough, ran⟩
  have sound := sound_of_gather keeps grounded (ran enough le_rfl)
  have loads : Converges (fun fuel => loadObjects lpc fuel d parseUser env) g.load :=
    (gathered.map Gathered.load).congr (loadObjects_eq gone)
  rw [or_iff_right gone]
  constructor
  · rintro (⟨message, throws⟩ | ⟨g', loaded, expanded, gathered', loads', ran, _⟩) g₁ gathered₁
    · have impossible := loads.unique throws
      unfold Gathered.load at impossible
      split at impossible
      · cases impossible
      · cases impossible
    · cases gathered.unique gathered₁
      exact sound.fits_iff.mp ⟨loaded, expanded, loads.unique loads', ran⟩
  · intro fits
    rcases sound.fits_iff.mpr (fits g gathered) with ⟨loaded, expanded, done, ran⟩
    exact .inr ⟨g, loaded, expanded, gathered, done ▸ loads, ran, sound.aligned done ran⟩

end

/-! ## A friend elsewhere -/

/-- Code that changes nothing and answers nothing. -/
def silent : Interrogation where
  list d _ _ := (d, [])
  flag d _ _ := (d, false)
  users d := (d, [])

/-- A room with the parse user in it, and another user elsewhere, for whom the parse user may
have this nickname. -/
def friendElsewhere (nickname : Str) : Driver where
  objects
    | 0 => { inventory := [1] }
    | 1 => { environment := some 0, info := some { setup := true } }
    | 2 => { info := some { setup := true }, nounIds := [str "bob"] }
    | _ => {}
  arrays _ := []
  nicks := [(some nickname, some 2)]
  usersValid := true
  users := [some 2]

theorem silent_keeps (parseUser : ObjectId) : silent.Keeps parseUser where
  list _ _ _ grounded := grounded
  flag _ _ _ grounded := grounded
  users _ grounded := grounded

theorem friendElsewhere_grounded (nickname : Str) :
    Grounded 1 (friendElsewhere nickname) where
  inventories := by
    refine Subrelation.wf (r := InvImage (· < ·) fun ob => 1 - ob) ?_
      (InvImage.wf _ Nat.lt_wfRel.wf)
    rintro inner (_ | _ | _ | ob) member
    · cases List.mem_singleton.mp member
      exact Nat.zero_lt_one
    · cases member
    · cases member
    · cases member
  environments := by
    refine Subrelation.wf (r := (· < ·)) ?_ Nat.lt_wfRel.wf
    rintro outer (_ | _ | _ | ob) around
    · cases around
    · cases around
      exact Nat.zero_lt_one
    · cases around
    · cases around
  arrays := ⟨fun array => ⟨array, fun nested member => by cases member⟩⟩
  known := .inr rfl

/-- `tell bob hello`, with a nickname for the user who is called so. -/
theorem friend_not_aligned : ¬ ∀ lpc d parseUser env calls, Interrogation.Keeps lpc parseUser →
    Grounded parseUser d → LoadsAligned lpc d parseUser env calls := by
  intro all
  have aligned := all silent (friendElsewhere (str "bob")) 1 .absent [] (silent_keeps 1)
    (friendElsewhere_grounded _)
  have stray : loadObjects silent 3 (friendElsewhere (str "bob")) 1 .absent =
      some .outOfRange := by rfl
  rcases aligned with ⟨message, throws⟩ | ⟨g, loaded, expanded, gathered, loads, ran, rest⟩
  · cases throws.only 3 _ stray
  · cases loads.only 3 _ stray

/-- With a nickname that nobody lists everything fits, also when `bob` is expanded later. -/
theorem friend_aligned : LoadsAligned silent (friendElsewhere (str "robert")) 1 .absent
    [⟨(friendElsewhere []).objects, [(some (str "bob"), some 2)], str "bob"⟩] := by
  refine (loads_aligned_iff (silent_keeps 1) (friendElsewhere_grounded _) .absent _).mpr
    (.inr fun g gathered => ?_)
  have found : gather silent 3 (friendElsewhere (str "robert")) 1 .absent = some
      { objects := (friendElsewhere (str "robert")).objects
        nicks := [(some (str "robert"), some 2)]
        walk := { objects := [1], inReach := [true], meObject := some 0, within := [[0]] }
        remote := [2] } := by rfl
  cases gathered.only 3 _ found
  constructor
  · intro ob member kind word listed
    cases List.mem_singleton.mp member
    cases kind with
    | noun =>
        cases List.mem_singleton.mp listed
        decide
    | plural => cases listed
    | adj => cases listed
  · intro call member early
    cases List.mem_singleton.mp member
    revert early
    decide

end Kjdmud.Efun.ParserPackage
