import Kjdmud.Efun.ParserPackage.LoadObjects
import Mathlib.Tactic.SplitIfs
import Mathlib.Tactic.Tauto

/-!
# The bits of the hash table

Every entry is sized when its word is first met: the entries of `my` and of the nicknames for
the objects that the walk has reached, all later ones for every object.  A mark of a word is
written exactly when the number of the object is below the size of the entry, and it sets one
bit.
-/

namespace Kjdmud.Efun.ParserPackage

/-! ## One entry -/

/-- The bit of a word for a number; behind the end of a vector it counts as unset. -/
def HashTable.bit (table : HashTable) (kind : WordKind) (word : Str) (i : Nat) : Bool :=
  (table word).any fun he => (he.objs kind)[i]? = some true

theorem HashTable.bit_of_some {table : HashTable} {word : Str} {he : HashEntry}
    (entry : table word = some he) (kind : WordKind) (i : Nat) :
    table.bit kind word i = true ↔ (he.objs kind)[i]? = some true := by
  rw [HashTable.bit, entry, Option.any_some, decide_eq_true_iff]

theorem HashTable.bit_of_none {table : HashTable} {word : Str} (entry : table word = none)
    (kind : WordKind) (i : Nat) : table.bit kind word i = false := by
  rw [HashTable.bit, entry, Option.any_none]

theorem isSome_writeBit (bits : List Bool) (i : Nat) :
    (writeBit bits i).isSome = true ↔ i < bits.length := by
  unfold writeBit
  split_ifs with inside
  · exact iff_of_true rfl inside
  · exact iff_of_false Bool.false_ne_true inside

theorem writeBit_eq_some {bits bits' : List Bool} {i : Nat}
    (written : writeBit bits i = some bits') :
    bits'.length = bits.length ∧
      ∀ j : Nat, bits'[j]? = some true ↔ bits[j]? = some true ∨ j = i := by
  unfold writeBit at written
  split_ifs at written with inside
  cases written
  refine ⟨List.length_set, fun j => ?_⟩
  by_cases same : i = j
  · subst same
    rw [List.getElem?_set_self inside]
    exact iff_of_true rfl (.inr rfl)
  · rw [List.getElem?_set_ne same]
    exact (or_iff_left (Ne.symm same)).symm

/-- An entry with more bits: the sizes are as they were. -/
structure Marked (he : HashEntry) (added : WordKind → Nat → Prop) (he' : HashEntry) : Prop where
  length : ∀ kind, (he'.objs kind).length = (he.objs kind).length
  bit : ∀ kind (j : Nat), (he'.objs kind)[j]? = some true ↔
    (he.objs kind)[j]? = some true ∨ added kind j

/-- What becomes of the mark of a nickname does not matter to the bits. -/
theorem marked_nickname (he : HashEntry) (isNickname : Bool) :
    Marked he (fun _ _ => False) { he with isNickname := isNickname } where
  length kind := by cases kind <;> rfl
  bit kind j := by
    rw [or_iff_left id]
    cases kind <;> rfl

theorem Marked.trans {he he' he'' : HashEntry} {added added' : WordKind → Nat → Prop}
    (first : Marked he added he') (second : Marked he' added' he'') :
    Marked he (fun kind j => added kind j ∨ added' kind j) he'' where
  length kind := (second.length kind).trans (first.length kind)
  bit kind j := by rw [second.bit, first.bit, or_assoc]

theorem isSome_mark (he : HashEntry) (index : Nat) (kind : WordKind) :
    (he.mark index kind).isSome = true ↔ index < (he.objs kind).length := by
  cases kind <;> rw [HashEntry.mark, Option.isSome_map] <;> exact isSome_writeBit _ _

theorem marked_of_mark {he he' : HashEntry} {index : Nat} {kind : WordKind}
    (marked : he.mark index kind = some he') :
    Marked he (fun k j => k = kind ∧ j = index) he' := by
  cases kind <;>
    rcases Option.map_eq_some_iff.mp marked with ⟨bits, written, rfl⟩ <;>
    rcases writeBit_eq_some written with ⟨length, bit⟩ <;>
    constructor <;> intro k <;> cases k <;>
    simp [HashEntry.objs, length, bit]

/-! ## A table -/

/-- The sizes of the entries of a table; a word without an entry gets one for so many objects. -/
structure HashTable.Sized (room : Str → Nat) (objectCount : Nat) (table : HashTable) : Prop where
  entries : ∀ word he, table word = some he → ∀ kind, (he.objs kind).length = room word
  fresh : ∀ word, table word = none → room word = objectCount

section

variable {room : Str → Nat} {objectCount : Nat} {table table' : HashTable}

theorem length_entryFor (sized : table.Sized room objectCount) (word : Str) (kind : WordKind) :
    ((entryFor table word objectCount).objs kind).length = room word := by
  unfold entryFor
  cases entry : table word with
  | none =>
      rw [Option.getD_none, sized.fresh word entry]
      cases kind <;> exact List.length_replicate
  | some he => exact sized.entries word he entry kind

theorem bit_entryFor (table : HashTable) (word : Str) (objectCount : Nat) (kind : WordKind)
    (i : Nat) :
    ((entryFor table word objectCount).objs kind)[i]? = some true ↔
      table.bit kind word i = true := by
  unfold entryFor
  cases entry : table word with
  | none =>
      rw [HashTable.bit_of_none entry, Option.getD_none]
      refine iff_of_false (fun set => ?_) Bool.false_ne_true
      have member := List.mem_of_getElem? set
      cases kind <;> cases List.eq_of_mem_replicate member
  | some he => exact (HashTable.bit_of_some entry kind i).symm

/-- A table with more bits: the sizes are as they were. -/
structure Grown (room : Str → Nat) (objectCount : Nat) (table table' : HashTable)
    (added : WordKind → Str → Nat → Prop) : Prop where
  sized : table'.Sized room objectCount
  bit : ∀ kind word i, table'.bit kind word i = true ↔
    table.bit kind word i = true ∨ added kind word i

theorem Grown.refl (sized : table.Sized room objectCount) :
    Grown room objectCount table table fun _ _ _ => False :=
  ⟨sized, fun _ _ _ => (or_iff_left id).symm⟩

theorem Grown.congr {added added' : WordKind → Str → Nat → Prop}
    (grown : Grown room objectCount table table' added)
    (same : ∀ kind word i, added kind word i ↔ added' kind word i) :
    Grown room objectCount table table' added' :=
  ⟨grown.sized, fun kind word i => by rw [grown.bit, same]⟩

theorem Grown.trans {table'' : HashTable} {added added' : WordKind → Str → Nat → Prop}
    (first : Grown room objectCount table table' added)
    (second : Grown room objectCount table' table'' added') :
    Grown room objectCount table table'' fun kind word i =>
      added kind word i ∨ added' kind word i :=
  ⟨second.sized, fun kind word i => by rw [second.bit, first.bit, or_assoc]⟩

/-- An entry takes the place of the one that was there. -/
theorem Grown.update {word : Str} {he : HashEntry} {added : WordKind → Nat → Prop}
    (sized : table.Sized room objectCount)
    (marked : Marked (entryFor table word objectCount) added he) :
    Grown room objectCount table (Function.update table word (some he))
      fun kind w i => w = word ∧ added kind i := by
  refine ⟨⟨?_, ?_⟩, ?_⟩
  · intro other he' entry k
    by_cases same : other = word
    · subst same
      rw [Function.update_self] at entry
      cases entry
      rw [marked.length, length_entryFor sized]
    · rw [Function.update_of_ne same] at entry
      exact sized.entries other he' entry k
  · intro other entry
    by_cases same : other = word
    · subst same
      rw [Function.update_self] at entry
      cases entry
    · rw [Function.update_of_ne same] at entry
      exact sized.fresh other entry
  · intro k other i
    by_cases same : other = word
    · subst same
      rw [HashTable.bit_of_some (Function.update_self ..), marked.bit, bit_entryFor]
      exact or_congr_right (and_iff_right rfl).symm
    · rw [HashTable.bit, Function.update_of_ne same]
      exact (or_iff_left fun both => same both.1).symm

/-- A word is marked exactly when the number is below the size of its entry. -/
theorem isSome_markWord (sized : table.Sized room objectCount) (index : Nat) (kind : WordKind)
    (word : Str) :
    (markWord objectCount index kind table word).isSome = true ↔ index < room word := by
  rw [markWord, Option.isSome_map, isSome_mark, length_entryFor sized]

theorem grown_of_markWord (sized : table.Sized room objectCount) {index : Nat}
    {kind : WordKind} {word : Str}
    (marked : markWord objectCount index kind table word = some table') :
    Grown room objectCount table table' fun k w i => w = word ∧ k = kind ∧ i = index := by
  rcases Option.map_eq_some_iff.mp marked with ⟨he, entry, rfl⟩
  exact .update sized (marked_of_mark entry)

/-! ## Many marks -/

/-- A word of an object: the number of the object, what the word is to it, and the word. -/
@[ext]
structure Mark where
  index : Nat
  kind : WordKind
  word : Str

def Mark.write (objectCount : Nat) (table : HashTable) (m : Mark) : Option HashTable :=
  markWord objectCount m.index m.kind table m.word

/-- Marks are written exactly when each is below the size of its entry. -/
theorem isSome_foldlM_write (marks : List Mark) (sized : table.Sized room objectCount) :
    (marks.foldlM (Mark.write objectCount) table).isSome = true ↔
      ∀ m ∈ marks, m.index < room m.word := by
  induction marks generalizing table with
  | nil => exact iff_of_true rfl fun m member => absurd member List.not_mem_nil
  | cons m marks ih =>
      rw [List.foldlM_cons, List.forall_mem_cons, ← isSome_markWord sized m.index m.kind]
      cases first : markWord objectCount m.index m.kind table m.word with
      | none =>
          rw [Mark.write, first]
          exact iff_of_false Bool.false_ne_true fun both => Bool.false_ne_true both.1
      | some table₁ =>
          rw [Mark.write, first]
          exact (ih (grown_of_markWord sized first).sized).trans (and_iff_right rfl).symm

theorem grown_of_foldlM_write {marks : List Mark} (sized : table.Sized room objectCount)
    (written : marks.foldlM (Mark.write objectCount) table = some table') :
    Grown room objectCount table table' fun kind word i => ⟨i, kind, word⟩ ∈ marks := by
  induction marks generalizing table with
  | nil =>
      cases written
      exact (Grown.refl sized).congr fun _ _ _ => (iff_false_intro List.not_mem_nil).symm
  | cons m marks ih =>
      rw [List.foldlM_cons] at written
      rcases Option.bind_eq_some_iff.mp written with ⟨table₁, first, rest⟩
      have grown := grown_of_markWord sized first
      have later := ih grown.sized rest
      refine (grown.trans later).congr fun kind word i => ?_
      rw [List.mem_cons, Mark.ext_iff]
      tauto

/-- The words of an object as marks. -/
def marksOf (o : Objects) (numbered : ObjectId × Nat) : List Mark :=
  if (o numbered.1).info.isNone then []
  else
    (o numbered.1).nounIds.map (Mark.mk numbered.2 .noun) ++
      ((o numbered.1).pluralIds.map (Mark.mk numbered.2 .plural) ++
        (o numbered.1).adjIds.map (Mark.mk numbered.2 .adj))

theorem mem_map_mark {ids : List Str} {index : Nat} {kind : WordKind} {m : Mark} :
    m ∈ ids.map (Mark.mk index kind) ↔ m.index = index ∧ m.kind = kind ∧ m.word ∈ ids := by
  rw [List.mem_map]
  constructor
  · rintro ⟨word, member, rfl⟩
    exact ⟨rfl, rfl, member⟩
  · rcases m with ⟨index, kind, word⟩
    rintro ⟨rfl, rfl, member⟩
    exact ⟨word, member, rfl⟩

theorem mem_marksOf {o : Objects} {numbered : ObjectId × Nat} {m : Mark} :
    m ∈ marksOf o numbered ↔ (o numbered.1).info.isSome = true ∧ m.index = numbered.2 ∧
      m.word ∈ (o numbered.1).ids m.kind := by
  unfold marksOf
  cases known : (o numbered.1).info with
  | none => exact iff_of_false List.not_mem_nil fun marked => Bool.false_ne_true marked.1
  | some info =>
      simp only [Option.isNone_some, Option.isSome_some, Bool.false_eq_true, if_false, true_and,
        List.mem_append, mem_map_mark]
      cases m.kind <;> simp [ParseObject.ids]

theorem addToHashTable_eq (o : Objects) (table : HashTable) (numbered : ObjectId × Nat) :
    addToHashTable o objectCount table numbered =
      (marksOf o numbered).foldlM (Mark.write objectCount) table := by
  unfold addToHashTable marksOf
  split_ifs
  · rfl
  · rw [List.foldlM_append, List.foldlM_map]
    simp only [List.foldlM_append, List.foldlM_map]
    rfl

/-- The marks of all objects. -/
theorem foldlM_addToHashTable (o : Objects) (table : HashTable)
    (numbered : List (ObjectId × Nat)) :
    numbered.foldlM (addToHashTable o objectCount) table =
      (numbered.flatMap (marksOf o)).foldlM (Mark.write objectCount) table := by
  induction numbered generalizing table with
  | nil => rfl
  | cons entry numbered ih =>
      rw [List.foldlM_cons, List.flatMap_cons, List.foldlM_append, addToHashTable_eq]
      exact congrArg _ (funext ih)

theorem mem_flatMap_marksOf {o : Objects} {objects : List ObjectId} {m : Mark}
    (known : ∀ ob ∈ objects, (o ob).info.isSome = true) :
    m ∈ objects.zipIdx.flatMap (marksOf o) ↔
      ∃ ob, objects[m.index]? = some ob ∧ m.word ∈ (o ob).ids m.kind := by
  rw [List.mem_flatMap]
  constructor
  · rintro ⟨⟨ob, i⟩, member, marked⟩
    rcases mem_marksOf.mp marked with ⟨_, here, listed⟩
    exact ⟨ob, here ▸ List.mem_zipIdx_iff_getElem?.mp member, listed⟩
  · rintro ⟨ob, here, listed⟩
    exact ⟨(ob, m.index), List.mem_zipIdx_iff_getElem?.mpr here,
      mem_marksOf.mpr ⟨known ob (List.mem_of_getElem? here), rfl, listed⟩⟩

end

/-! ## The first entries -/

theorem foldlM_writeBit (indices : List Nat) (bits : List Bool)
    (inside : ∀ i ∈ indices, i < bits.length) :
    ∃ bits', indices.foldlM writeBit bits = some bits' ∧ bits'.length = bits.length ∧
      ∀ j : Nat, bits'[j]? = some true ↔ bits[j]? = some true ∨ j ∈ indices := by
  induction indices generalizing bits with
  | nil => exact ⟨bits, rfl, rfl, fun j => (or_iff_left List.not_mem_nil).symm⟩
  | cons i indices ih =>
      have first := (isSome_writeBit bits i).mpr (inside i List.mem_cons_self)
      rcases Option.isSome_iff_exists.mp first with ⟨bits₁, written⟩
      rcases writeBit_eq_some written with ⟨length, bit⟩
      rcases ih bits₁ fun j member => length ▸ inside j (.tail _ member) with
        ⟨bits', rest, length', bit'⟩
      refine ⟨bits', ?_, length'.trans length, fun j => ?_⟩
      · rw [List.foldlM_cons, written]
        exact rest
      · rw [bit', bit, List.mem_cons, or_assoc]

/-- A table of words whose entries have the size of the objects reached. -/
structure HashTable.Early (words : Str → Prop) (reached : Nat) (table : HashTable) : Prop where
  entries : ∀ word he, table word = some he → ∀ kind, (he.objs kind).length = reached
  present : ∀ word, (table word).isSome = true ↔ words word

/-- The entry of `my` marks what the walk has found inside the parse user. -/
theorem addMy_spec (reached : Nat) (my : List Bool) :
    ∃ table, addMy reached my (fun _ => none) = some table ∧
      table.Early (· = myWord) reached ∧
      ∀ kind word i, table.bit kind word i = true ↔
        kind = .adj ∧ word = myWord ∧ i < reached ∧ my[i]? = some true := by
  let indices := (List.range (min my.length reached)).filter fun i => my[i]? = some true
  have member : ∀ i, i ∈ indices ↔ i < reached ∧ my[i]? = some true := by
    intro i
    rw [List.mem_filter, List.mem_range, decide_eq_true_iff, Nat.lt_min, and_assoc]
    constructor
    · exact fun both => both.2
    · exact fun both => ⟨(List.getElem?_eq_some_iff.mp both.2).1, both⟩
  rcases foldlM_writeBit indices (List.replicate reached false)
    (fun i inside => List.length_replicate.symm ▸ ((member i).mp inside).1) with
    ⟨bits, written, length, bit⟩
  have blank : ∀ i : Nat, (List.replicate reached false)[i]? ≠ some true := fun i set => by
    cases List.eq_of_mem_replicate (List.mem_of_getElem? set)
  let he : HashEntry := { entryFor (fun _ => none) myWord reached with
    isAdj := true
    adjObjs := bits }
  refine ⟨Function.update (fun _ => none) myWord (some he), ?_, ⟨?_, ?_⟩, ?_⟩
  · exact (congrArg (Option.map _) written).trans rfl
  · intro word he' entry kind
    by_cases same : word = myWord
    · subst same
      rw [Function.update_self] at entry
      cases entry
      cases kind with
      | noun => exact List.length_replicate
      | plural => exact List.length_replicate
      | adj => exact length.trans List.length_replicate
    · rw [Function.update_of_ne same] at entry
      cases entry
  · intro word
    by_cases same : word = myWord
    · subst same
      rw [Function.update_self]
      exact iff_of_true rfl rfl
    · rw [Function.update_of_ne same]
      exact iff_of_false Bool.false_ne_true same
  · intro kind word i
    by_cases same : word = myWord
    · subst same
      rw [HashTable.bit_of_some (Function.update_self ..)]
      cases kind with
      | noun => exact iff_of_false (blank i) fun added => by cases added.1
      | plural => exact iff_of_false (blank i) fun added => by cases added.1
      | adj =>
          refine (bit i).trans ?_
          rw [or_iff_right (blank i), member]
          exact ⟨fun both => ⟨rfl, rfl, both⟩, fun all => all.2.2⟩
    · rw [HashTable.bit_of_none (Function.update_of_ne same ..)]
      exact iff_of_false Bool.false_ne_true fun added => same added.2.1

/-- A nickname gets an entry, and no bit of any word changes. -/
theorem early_addNickname {words : Str → Prop} {reached : Nat} {table : HashTable}
    (early : table.Early words reached) (word : Str) :
    HashTable.Early (fun w => words w ∨ w = word) reached (Function.update table word
      (some { entryFor table word reached with isNickname := true })) ∧
    ∀ kind w i, HashTable.bit (Function.update table word
      (some { entryFor table word reached with isNickname := true })) kind w i =
        table.bit kind w i := by
  have sized : table.Sized (fun _ => reached) reached := ⟨early.entries, fun _ _ => rfl⟩
  have grown := Grown.update sized (marked_nickname (entryFor table word reached) true)
  refine ⟨⟨grown.sized.entries, fun other => ?_⟩, fun kind other i => ?_⟩
  · by_cases same : other = word
    · subst same
      rw [Function.update_self]
      exact iff_of_true rfl (.inr rfl)
    · rw [Function.update_of_ne same, early.present]
      exact (or_iff_left same).symm
  · rw [Bool.eq_iff_iff, grown.bit, or_iff_left fun both => both.2]

theorem addNicknames_spec {words : Str → Prop} {reached : Nat} {table : HashTable}
    (early : table.Early words reached) (nicks : Nicks) :
    (addNicknames reached nicks table).Early (fun w => words w ∨ some w ∈ nicks.map Prod.fst)
      reached ∧
    ∀ kind w i, (addNicknames reached nicks table).bit kind w i = table.bit kind w i := by
  induction nicks generalizing words table with
  | nil =>
      refine ⟨⟨early.entries, fun word => ?_⟩, fun _ _ _ => rfl⟩
      rw [List.map_nil, or_iff_left List.not_mem_nil]
      exact early.present word
  | cons entry nicks ih =>
      rcases entry with ⟨_ | word, ob⟩
      · rcases ih early with ⟨later, bits⟩
        refine ⟨⟨later.entries, fun w => (later.present w).trans ?_⟩, bits⟩
        simp
      · rcases early_addNickname early word with ⟨first, bits⟩
        rcases ih first with ⟨later, bits'⟩
        refine ⟨⟨later.entries, fun w => (later.present w).trans ?_⟩, ?_⟩
        · simp [or_assoc]
        · exact fun kind w i => (bits' kind w i).trans (bits kind w i)

end Kjdmud.Efun.ParserPackage
