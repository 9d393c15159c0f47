import Kjdmud.Efun.ParserPackage.LoadObjects.Numbering
import Kjdmud.Efun.ParserPackage.LoadObjects.Table
import Mathlib.Data.List.Basic

/-!
# The objects and the words of a sentence agree

A bit of the hash table is set exactly for the objects that list the word, for what a nickname
stands for, and, with `my`, for what the parse user carries.  The entries of `my` and of the
nicknames are sized before the remote users are appended, so this holds exactly when no remote
user lists such a word and none of them stands for an object appended only then.
-/

namespace Kjdmud.Efun.ParserPackage

open Kjdmud.Fuel

/-! ## The table that is loaded -/

/-- The word has an entry before the remote users are appended. -/
def Gathered.Early (g : Gathered) (word : Str) : Prop :=
  word = myWord ∨ some word ∈ g.nicks.map Prod.fst

instance (g : Gathered) : DecidablePred g.Early := fun _ => inferInstanceAs (Decidable (_ ∨ _))

/-- The size of the entry of a word. -/
def Gathered.room (g : Gathered) (word : Str) : Nat :=
  if g.Early word then g.walk.objects.length else g.numbered.length

/-- The object with this number lists the word. -/
def Gathered.Lists (g : Gathered) (kind : WordKind) (word : Str) (i : Nat) : Prop :=
  ∃ ob, g.numbered[i]? = some ob ∧ word ∈ (g.objects ob).ids kind

/-- The object with this number was reached inside the parse user. -/
def Gathered.Carried (g : Gathered) (parseUser : ObjectId) (i : Nat) : Prop :=
  ∃ path, g.walk.within[i]? = some path ∧ parseUser ∈ path

section

variable {parseUser : ObjectId} {g : Gathered}

theorem Gathered.Sound.known (sound : g.Sound parseUser) :
    ∀ ob ∈ g.numbered, (g.objects ob).info.isSome = true := by
  intro ob member
  rcases List.mem_append.mp member with walked | remote
  · exact sound.walk.known ob walked
  · exact sound.remote ob remote

/-- Before the objects are entered, the table knows `my` and the nicknames. -/
theorem Gathered.Sound.early (sound : g.Sound parseUser) : ∃ table table',
    addMy g.walk.objects.length g.walk.myObjects (fun _ => none) = some table ∧
    addNicknames g.walk.objects.length g.nicks table = table' ∧
    table'.Sized g.room g.numbered.length ∧
    ∀ kind word i, table'.bit kind word i = true ↔
      kind = .adj ∧ word = myWord ∧ g.Carried parseUser i := by
  rcases addMy_spec g.walk.objects.length g.walk.myObjects with ⟨table, added, early, bits⟩
  rcases addNicknames_spec early g.nicks with ⟨early', bits'⟩
  refine ⟨table, _, added, rfl, ⟨?_, ?_⟩, ?_⟩
  · intro word he entry kind
    have listed : g.Early word := (early'.present word).mp (entry ▸ rfl)
    rw [Gathered.room, if_pos listed]
    exact early'.entries word he entry kind
  · intro word entry
    have unlisted : ¬ g.Early word := fun listed => by
      have present := (early'.present word).mpr listed
      rw [entry] at present
      cases present
    rw [Gathered.room, if_neg unlisted]
  · intro kind word i
    rw [bits', bits, sound.walk.my]
    constructor
    · rintro ⟨adj, my, _, carried⟩
      exact ⟨adj, my, carried⟩
    · rintro ⟨adj, my, carried⟩
      have below := (List.getElem?_eq_some_iff.mp carried.choose_spec.1).1
      exact ⟨adj, my, sound.walk.within ▸ below, carried⟩

/-- No remote user lists `my` or a nickname. -/
def Gathered.Apart (g : Gathered) : Prop :=
  ∀ ob ∈ g.remote, ∀ kind, ∀ word ∈ (g.objects ob).ids kind, ¬ g.Early word

/-- A number is too high for an early word when it is the number of a remote user. -/
theorem Gathered.lt_room_iff {word : Str} {i : Nat} {ob : ObjectId}
    (numbered : g.numbered[i]? = some ob) :
    i < g.room word ↔ (g.Early word → i < g.walk.objects.length) := by
  unfold Gathered.room
  split_ifs with early
  · exact ⟨fun below _ => below, fun below => below early⟩
  · exact iff_of_true (List.getElem?_eq_some_iff.mp numbered).1 fun listed => absurd listed early

theorem Gathered.marks_iff (sound : g.Sound parseUser) :
    (∀ m ∈ g.numbered.zipIdx.flatMap (marksOf g.objects), m.index < g.room m.word) ↔
      g.Apart := by
  constructor
  · intro below ob member kind word listed early
    rcases List.getElem?_of_mem member with ⟨j, here⟩
    have there : g.numbered[g.walk.objects.length + j]? = some ob := by
      rw [Gathered.numbered, List.getElem?_append_right (Nat.le_add_right _ _),
        Nat.add_sub_cancel_left]
      exact here
    have marked := below ⟨_, kind, word⟩
      ((mem_flatMap_marksOf sound.known).mpr ⟨ob, there, listed⟩)
    exact Nat.not_lt_of_le (Nat.le_add_right _ j) ((lt_room_iff there).mp marked early)
  · intro apart m member
    rcases (mem_flatMap_marksOf sound.known).mp member with ⟨ob, here, listed⟩
    refine (lt_room_iff here).mpr fun early => Nat.lt_of_not_le fun above => ?_
    rw [Gathered.numbered, List.getElem?_append_right above] at here
    exact apart ob (List.mem_of_getElem? here) m.kind m.word listed early

theorem Gathered.table_eq (sound : g.Sound parseUser) : ∃ table : HashTable,
    table.Sized g.room g.numbered.length ∧
    (∀ kind word i, table.bit kind word i = true ↔
      kind = .adj ∧ word = myWord ∧ g.Carried parseUser i) ∧
    g.table = (g.numbered.zipIdx.flatMap (marksOf g.objects)).foldlM
      (Mark.write g.numbered.length) table := by
  rcases sound.early with ⟨table, table', added, named, sized, bits⟩
  refine ⟨table', sized, bits, ?_⟩
  rw [Gathered.table, added]
  refine Eq.trans ?_ (foldlM_addToHashTable g.objects table' _)
  rw [← named]
  rfl

/-- The table is built exactly when no remote user lists an early word. -/
theorem Gathered.isSome_table_iff (sound : g.Sound parseUser) :
    g.table.isSome = true ↔ g.Apart := by
  rcases table_eq sound with ⟨table, sized, _, same⟩
  rw [same, isSome_foldlM_write _ sized]
  exact marks_iff sound

/-- The table that is built: its bits are the words listed, and `my`. -/
theorem Gathered.table_spec (sound : g.Sound parseUser) {table : HashTable}
    (built : g.table = some table) :
    table.Sized g.room g.numbered.length ∧
    ∀ kind word i, table.bit kind word i = true ↔
      g.Lists kind word i ∨ (kind = .adj ∧ word = myWord ∧ g.Carried parseUser i) := by
  rcases table_eq sound with ⟨first, sized, bits, same⟩
  have grown := grown_of_foldlM_write sized (same.symm.trans built)
  refine ⟨grown.sized, fun kind word i => ?_⟩
  rw [grown.bit, bits, mem_flatMap_marksOf sound.known, or_comm]
  rfl

end

/-! ## Nicknames that are expanded -/

/-- The nickname has been expanded to the object with this number. -/
def LoadedObjectSet.Expanded (loaded : LoadedObjectSet) (calls : List Expansion) (word : Str)
    (i : Nat) : Prop :=
  ∃ call ∈ calls, call.word = word ∧ (loaded.hashTable word).isSome = true ∧
    call.target loaded.objects = some i

section

variable {room : Str → Nat} {loaded loaded' : LoadedObjectSet} {call : Expansion}

/-- A loaded set whose table is sized for its objects. -/
def LoadedObjectSet.Sized (room : Str → Nat) (loaded : LoadedObjectSet) : Prop :=
  loaded.hashTable.Sized room loaded.objects.length

theorem target_lt {objects : List ObjectId} {i : Nat} (found : call.target objects = some i) :
    i < objects.length := by
  rcases Option.bind_eq_some_iff.mp found with ⟨ob, _, here⟩
  exact (List.findIdx?_eq_some_iff_getElem.mp here).1

/-- A nickname is expanded exactly when the number found is below the size of its entry. -/
theorem isSome_expandNode (sized : loaded.Sized room) :
    (expandNode loaded call).isSome = true ↔
      ∀ i, call.target loaded.objects = some i → i < room call.word := by
  unfold expandNode
  cases entry : loaded.hashTable call.word with
  | none =>
      refine iff_of_true rfl fun i found => ?_
      rw [sized.fresh _ entry]
      exact target_lt found
  | some he =>
      cases found : call.target loaded.objects with
      | none => exact iff_of_true rfl fun i same => by cases same
      | some index =>
          dsimp only
          rw [Option.isSome_map, isSome_mark,
            (marked_nickname he false).length .noun, sized.entries _ he entry]
          constructor
          · rintro below i ⟨⟩
            exact below
          · exact fun below => below index rfl

theorem expanded_cons (calls : List Expansion) (word : Str) (i : Nat) :
    loaded.Expanded (call :: calls) word i ↔
      (call.word = word ∧ (loaded.hashTable word).isSome = true ∧
        call.target loaded.objects = some i) ∨ loaded.Expanded calls word i :=
  List.exists_mem_cons_iff _ call calls

theorem not_expanded_nil (word : Str) (i : Nat) : ¬ loaded.Expanded [] word i :=
  fun none_ => List.not_mem_nil none_.choose_spec.1

/-- What nicknames that are expanded leave: the objects, the words, and one bit for each. -/
structure LoadedObjectSet.Grew (room : Str → Nat) (loaded : LoadedObjectSet)
    (calls : List Expansion) (loaded' : LoadedObjectSet) : Prop where
  rest : loaded' = { loaded with hashTable := loaded'.hashTable }
  words : ∀ word, (loaded'.hashTable word).isSome = (loaded.hashTable word).isSome
  table : Grown room loaded.objects.length loaded.hashTable loaded'.hashTable
    fun kind word i => kind = .noun ∧ loaded.Expanded calls word i

theorem LoadedObjectSet.Grew.refl (sized : loaded.Sized room) : loaded.Grew room [] loaded where
  rest := rfl
  words _ := rfl
  table := (Grown.refl sized).congr fun _ word i =>
    (iff_false_intro fun both => not_expanded_nil word i both.2).symm

theorem grew_of_expandNode (sized : loaded.Sized room)
    (expanded : expandNode loaded call = some loaded') : loaded.Grew room [call] loaded' := by
  have only : ∀ word i, loaded.Expanded [call] word i ↔ call.word = word ∧
      (loaded.hashTable word).isSome = true ∧ call.target loaded.objects = some i := by
    intro word i
    rw [expanded_cons, or_iff_left (not_expanded_nil word i)]
  unfold expandNode at expanded
  cases entry : loaded.hashTable call.word with
  | none =>
      rw [entry] at expanded
      cases expanded
      refine ⟨rfl, fun _ => rfl, (Grown.refl sized).congr fun kind word i => ?_⟩
      rw [only]
      refine (iff_false_intro ?_).symm
      rintro ⟨_, rfl, present, _⟩
      rw [entry] at present
      cases present
  | some he =>
      have here : entryFor loaded.hashTable call.word loaded.objects.length = he := by
        rw [entryFor, entry]
        rfl
      have words : ∀ (he' : HashEntry) word,
          (Function.update loaded.hashTable call.word (some he') word).isSome =
            (loaded.hashTable word).isSome := by
        intro he' word
        by_cases same : word = call.word
        · rw [same, Function.update_self, entry]
          rfl
        · rw [Function.update_of_ne same]
      have grows : ∀ {he' : HashEntry} {added : WordKind → Nat → Prop}, Marked he added he' →
          Grown room loaded.objects.length loaded.hashTable
            (Function.update loaded.hashTable call.word (some he'))
            fun kind w i => w = call.word ∧ added kind i :=
        fun marked => .update sized (here.symm ▸ marked)
      rw [entry] at expanded
      cases found : call.target loaded.objects with
      | none =>
          rw [found] at expanded
          cases expanded
          refine ⟨rfl, words _, (grows (marked_nickname he false)).congr fun kind word i => ?_⟩
          rw [only, found]
          exact iff_of_false (fun both => both.2) fun all => by cases all.2.2.2
      | some index =>
          rw [found] at expanded
          rcases Option.map_eq_some_iff.mp expanded with ⟨he', marked, rfl⟩
          have grown := grows ((marked_nickname he false).trans (marked_of_mark marked))
          refine ⟨rfl, words _, grown.congr fun kind word i => ?_⟩
          rw [only, found]
          constructor
          · rintro ⟨rfl, impossible | ⟨noun, rfl⟩⟩
            · exact impossible.elim
            · exact ⟨noun, rfl, entry ▸ rfl, rfl⟩
          · rintro ⟨noun, rfl, _, same⟩
            cases same
            exact ⟨rfl, .inr ⟨noun, rfl⟩⟩

theorem LoadedObjectSet.Grew.objects {calls : List Expansion}
    (grew : loaded.Grew room calls loaded') : loaded'.objects = loaded.objects := by
  rw [grew.rest]

theorem LoadedObjectSet.Grew.sized {calls : List Expansion}
    (grew : loaded.Grew room calls loaded') : loaded'.Sized room := by
  rw [LoadedObjectSet.Sized, grew.objects]
  exact grew.table.sized

theorem LoadedObjectSet.Grew.trans {loaded'' : LoadedObjectSet} {calls : List Expansion}
    (first : loaded.Grew room [call] loaded') (later : loaded'.Grew room calls loaded'') :
    loaded.Grew room (call :: calls) loaded'' where
  rest := by
    rw [later.rest, first.rest]
  words word := (later.words word).trans (first.words word)
  table := by
    have after := later.table
    rw [first.objects] at after
    refine (first.table.trans after).congr fun kind word i => ?_
    have same : loaded'.Expanded calls word i ↔ loaded.Expanded calls word i := by
      simp only [LoadedObjectSet.Expanded, first.words, first.objects]
    rw [same, ← and_or_left, expanded_cons [], expanded_cons calls,
      or_iff_left (not_expanded_nil word i)]

/-- Any number of nicknames is expanded exactly when every number found is below the size of
the entry. -/
theorem isSome_expandNodes (sized : loaded.Sized room) (calls : List Expansion) :
    (calls.foldlM expandNode loaded).isSome = true ↔
      ∀ call ∈ calls, ∀ i, call.target loaded.objects = some i → i < room call.word := by
  induction calls generalizing loaded with
  | nil => exact iff_of_true rfl fun call member => absurd member List.not_mem_nil
  | cons call calls ih =>
      rw [List.foldlM_cons, List.forall_mem_cons, ← isSome_expandNode sized]
      cases first : expandNode loaded call with
      | none => exact iff_of_false Bool.false_ne_true fun both => Bool.false_ne_true both.1
      | some loaded₁ =>
          have grew := grew_of_expandNode sized first
          refine (ih grew.sized).trans ?_
          rw [grew.objects]
          exact (and_iff_right rfl).symm

theorem grew_of_expandNodes (sized : loaded.Sized room) {calls : List Expansion}
    (expanded : calls.foldlM expandNode loaded = some loaded') :
    loaded.Grew room calls loaded' := by
  induction calls generalizing loaded with
  | nil =>
      cases expanded
      exact .refl sized
  | cons call calls ih =>
      rw [List.foldlM_cons] at expanded
      rcases Option.bind_eq_some_iff.mp expanded with ⟨loaded₁, first, rest⟩
      have grew := grew_of_expandNode sized first
      exact grew.trans (ih grew.sized rest)

end

end Kjdmud.Efun.ParserPackage
