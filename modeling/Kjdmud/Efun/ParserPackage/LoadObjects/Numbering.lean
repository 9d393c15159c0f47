import Kjdmud.Efun.ParserPackage.LoadObjects.Trees

/-!
# The numbering of the objects

The walks of `loadObjects` number the objects in the order in which they come to them.  For
each number they know whether the object is in reach and whether it was found inside the parse
user; every object that they number is known to the parser.
-/

namespace Kjdmud.Efun.ParserPackage

open Kjdmud.Fuel

/-! ## What a walk keeps -/

/-- A walk keeps what it says of each number. -/
structure Walk.Kept (o : Objects) (parseUser : ObjectId) (r : Walk) : Prop where
  inReach : r.inReach.length = r.objects.length
  within : r.within.length = r.objects.length
  my : ∀ i : Nat, r.myObjects[i]? = some true ↔
    ∃ path, r.within[i]? = some path ∧ parseUser ∈ path
  known : ∀ ob ∈ r.objects, (o ob).info.isSome = true

theorem getElem?_markMy (my : List Bool) (index i : Nat) :
    (markMy my index)[i]? = some true ↔ my[i]? = some true ∨ i = index := by
  have long : index < (my ++ List.replicate (index + 1 - my.length) false).length := by
    rw [List.length_append, List.length_replicate]
    omega
  rw [markMy, List.getElem?_set]
  by_cases same : index = i
  · rw [if_pos same, if_pos long]
    exact iff_of_true rfl (.inr same.symm)
  · rw [if_neg same, List.getElem?_append]
    constructor
    · intro marked
      by_cases inside : i < my.length
      · rw [if_pos inside] at marked
        exact .inl marked
      · rw [if_neg inside, List.getElem?_replicate] at marked
        split at marked
        · cases marked
        · cases marked
    · rintro (marked | rfl)
      · rw [if_pos (List.getElem?_eq_some_iff.mp marked).1]
        exact marked
      · exact absurd rfl same

section

variable {o : Objects} {parseUser : ObjectId} {r : Walk} {flags : RaoFlags}
  {path : List ObjectId}

theorem Walk.Kept.empty : Walk.Kept o parseUser {} where
  inReach := rfl
  within := rfl
  my i := by simp
  known ob member := absurd member List.not_mem_nil

theorem Walk.Kept.add (kept : r.Kept o parseUser) (inside : flags.my = true ↔ parseUser ∈ path)
    {ob : ObjectId} (known : (o ob).info.isSome = true) :
    (r.add parseUser flags path ob).Kept o parseUser where
  inReach := by simp [Walk.add, kept.inReach]
  within := by simp [Walk.add, kept.within]
  my i := by
    have marked : (r.add parseUser flags path ob).myObjects[i]? = some true ↔
        r.myObjects[i]? = some true ∨ (i = r.objects.length ∧ flags.my = true) := by
      cases flagged : flags.my with
      | false => simp [Walk.add, flagged]
      | true => simp [Walk.add, flagged, getElem?_markMy]
    have found : ∀ path', (r.add parseUser flags path ob).within[i]? = some path' ↔
        r.within[i]? = some path' ∨ (i = r.objects.length ∧ path' = path) := by
      intro path'
      rw [Walk.add, List.getElem?_append, kept.within]
      by_cases before : i < r.objects.length
      · rw [if_pos before]
        simp [Nat.ne_of_lt before]
      · have none_ : r.within[i]? = none :=
          List.getElem?_eq_none (kept.within.trans_le (Nat.le_of_not_lt before))
        rw [if_neg before, none_]
        by_cases here : i = r.objects.length
        · simp [here, eq_comm]
        · have later : i - r.objects.length ≠ 0 := by omega
          simp [here, later]
    rw [marked, kept.my i, inside]
    constructor
    · rintro (⟨path', there, member⟩ | ⟨here, member⟩)
      · exact ⟨path', (found path').mpr (.inl there), member⟩
      · exact ⟨path, (found path).mpr (.inr ⟨here, rfl⟩), member⟩
    · rintro ⟨path', there, member⟩
      rcases (found path').mp there with there | ⟨here, rfl⟩
      · exact .inl ⟨path', there, member⟩
      · exact .inr ⟨here, member⟩
  known other member := by
    rcases List.mem_append.mp member with member | member
    · exact kept.known other member
    · rcases List.mem_singleton.mp member with rfl
      exact known

/-- One more container around, whose flags go down with it. -/
theorem inside_cons (inside : flags.my = true ↔ parseUser ∈ path) (ob : ObjectId) :
    (flags.my || decide (ob = parseUser)) = true ↔ parseUser ∈ ob :: path := by
  rw [Bool.or_eq_true, inside, decide_eq_true_iff, List.mem_cons, or_comm, eq_comm (a := ob)]

variable (awake : (o parseUser).destructed = true ∨ (o parseUser).info.isSome = true)

include awake in
theorem Walk.Kept.recAddObject {fuel : Nat} {ob : ObjectId} {r' : Walk}
    (inside : flags.my = true ↔ parseUser ∈ path) (kept : r.Kept o parseUser)
    (walked : recAddObject o parseUser fuel flags path r ob = some r') :
    r'.Kept o parseUser := by
  induction fuel generalizing flags path r ob r' with
  | zero => cases walked
  | succ fuel ih =>
      by_cases destructed : (o ob).destructed = true
      · rw [ParserPackage.recAddObject, if_pos destructed] at walked
        cases walked
        exact kept
      cases known : (o ob).info with
      | none =>
          simp only [ParserPackage.recAddObject, if_neg destructed, known] at walked
          have other : parseUser ≠ ob := by
            rintro rfl
            rcases awake with gone | there
            · exact destructed gone
            · rw [known] at there
              cases there
          have inside' : flags.my = true ↔ parseUser ∈ ob :: path := by
            rw [inside, List.mem_cons, or_iff_right other]
          exact foldlM_keeps (fun inner _ a b kept walked => ih inside' kept walked) kept walked
      | some info =>
          simp only [ParserPackage.recAddObject, if_neg destructed, known] at walked
          by_cases full : kMaxNumObjects ≤ r.objects.length
          · rw [if_pos full] at walked
            cases walked
            exact kept
          rw [if_neg full] at walked
          have added := kept.add inside (known ▸ rfl : (o ob).info.isSome = true)
          by_cases closed : (!info.invVisible) = true
          · rw [if_pos closed] at walked
            cases walked
            exact added
          · rw [if_neg closed] at walked
            exact foldlM_keeps
              (fun inner _ a b kept walked => ih (inside_cons inside ob) kept walked) added walked

theorem Walk.Kept.addObjectsFromItems
    {descend : RaoFlags → List ObjectId → ArrayId → Walk → Option Walk}
    (below : ∀ flags path nested r r', (flags.my = true ↔ parseUser ∈ path) →
      r.Kept o parseUser → descend flags path nested r = some r' → r'.Kept o parseUser)
    {items : List EnvItem} {last : Option (ObjectId × ParseInfo)} {r' : Walk}
    (inside : flags.my = true ↔ parseUser ∈ path) (kept : r.Kept o parseUser)
    (walked : addObjectsFromItems o parseUser descend flags path items last r = some r') :
    r'.Kept o parseUser := by
  induction items generalizing last r with
  | nil =>
      cases walked
      exact kept
  | cons item items ih =>
      cases item with
      | array nested =>
          rcases Option.bind_eq_some_iff.mp walked with ⟨r₁, descended, rest⟩
          refine ih ?_ rest
          rcases last with _ | ⟨container, info⟩
          · cases descended
            exact kept
          · dsimp only at descended
            split_ifs at descended
            · exact below _ _ _ _ _ (inside_cons inside container) kept descended
            · cases descended
              exact kept
      | other => exact ih kept walked
      | object ob =>
          simp only [ParserPackage.addObjectsFromItems] at walked
          cases known : (o ob).info with
          | none =>
              rw [known] at walked
              dsimp only at walked
              split_ifs at walked
              · exact ih kept walked
              · exact ih kept walked
          | some info =>
              rw [known] at walked
              dsimp only at walked
              split_ifs at walked
              · exact ih kept walked
              · cases walked
                exact kept
              · exact ih (kept.add inside (known ▸ rfl)) walked

theorem Walk.Kept.addObjectsFromArray {d : Driver} {fuel : Nat} {array : ArrayId} {r' : Walk}
    (inside : flags.my = true ↔ parseUser ∈ path) (kept : r.Kept d.objects parseUser)
    (walked : addObjectsFromArray d parseUser fuel flags path array r = some r') :
    r'.Kept d.objects parseUser := by
  induction fuel generalizing flags path r array r' with
  | zero => cases walked
  | succ fuel ih =>
      exact Walk.Kept.addObjectsFromItems
        (fun flags path nested r r' inside kept walked => ih inside kept walked) inside kept walked

theorem Grounded.kept_of_number {d : Driver} {fuel : Nat} {env : ParseEnv} {r' : Walk}
    (grounded : Grounded parseUser d)
    (walked : ParserPackage.number fuel d parseUser env = some r') :
    r'.Kept d.objects parseUser := by
  have outside : (false = true) ↔ parseUser ∈ [] := iff_of_false (by decide) List.not_mem_nil
  cases env with
  | array items => exact Walk.Kept.addObjectsFromArray outside .empty walked
  | absent | notArray =>
      simp only [ParserPackage.number] at walked
      cases around : d.around parseUser with
      | none =>
          rw [around] at walked
          cases walked
          exact .empty
      | some env =>
          rw [around] at walked
          exact Walk.Kept.recAddObject grounded.known outside .empty walked

/-- The parser knows every user that is appended. -/
theorem known_of_remoteUsers {target : Option ObjectId} {fuel count : Nat}
    {users : List (Option ObjectId)} {remote : List ObjectId}
    (found : remoteUsers o target fuel users count = some remote) :
    ∀ ob ∈ remote, (o ob).info.isSome = true := by
  induction users generalizing count remote with
  | nil =>
      cases found
      exact fun ob member => absurd member List.not_mem_nil
  | cons user users ih =>
      cases user with
      | none => exact ih found
      | some ob =>
          simp only [remoteUsers] at found
          by_cases unknown : (o ob).info.isNone = true
          · rw [if_pos unknown] at found
            exact ih found
          rw [if_neg unknown] at found
          rcases Option.bind_eq_some_iff.mp found with ⟨reached, _, found⟩
          split_ifs at found
          · exact ih found
          · cases found
            exact fun ob member => absurd member List.not_mem_nil
          · rcases Option.map_eq_some_iff.mp found with ⟨more, later, rfl⟩
            rintro other (_ | ⟨_, member⟩)
            · exact Option.ne_none_iff_isSome.mp fun none_ => unknown (none_ ▸ rfl)
            · exact ih later other member

end

/-- What is known of the objects that are gathered. -/
structure Gathered.Sound (parseUser : ObjectId) (g : Gathered) : Prop where
  walk : g.walk.Kept g.objects parseUser
  remote : ∀ ob ∈ g.remote, (g.objects ob).info.isSome = true

theorem sound_of_gather {lpc : Interrogation} {parseUser : ObjectId} {d : Driver}
    {fuel : Nat} {env : ParseEnv} {g : Gathered} (keeps : lpc.Keeps parseUser)
    (grounded : Grounded parseUser d) (gathered : gather lpc fuel d parseUser env = some g) :
    g.Sound parseUser := by
  rcases Option.bind_eq_some_iff.mp gathered with ⟨discovered, _, gathered⟩
  rcases Option.bind_eq_some_iff.mp gathered with ⟨walk, walked, gathered⟩
  rcases Option.map_eq_some_iff.mp gathered with ⟨remote, found, rfl⟩
  constructor
  · exact (grounded.interrogated keeps discovered).kept_of_number walked
  · unfold appended at found
    split_ifs at found
    · cases found
      exact fun ob member => absurd member List.not_mem_nil
    · exact known_of_remoteUsers found

end Kjdmud.Efun.ParserPackage
