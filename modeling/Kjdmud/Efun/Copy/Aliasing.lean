import Kjdmud.Efun.Copy.Writes

/-!
# When a copy is independent of the original

The original and its copy share whatever is below the top.  They are independent when
that is nothing but empty arrays, which no assignment can change.
-/

namespace Kjdmud.Efun

open Kjdmud.Vm
open Relation

variable {w : World} {v : Value}

/-! ## What a copy is -/

/-- A new place with the contents of the old one. -/
structure Copied (w w' : World) (a b : Value) (fresh : Place) : Prop where
  placed : place b = some fresh
  new : ¬ Allocated w fresh
  kept : ∀ n, Allocated w n → content w' n = content w n
  same : ∀ top, place a = some top → content w' fresh = content w top
  empty : place a = none → (content w' fresh).values = []

theorem array_newArray (w : World) (items : List Value) :
    (w.newArray items).1.array w.arrays.length = items := by
  simp [World.array, World.newArray]

theorem mapping_newMapping (w : World) (m : Mapping) :
    (w.newMapping m).1.mapping w.mappings.length = m := by
  simp [World.mapping, World.newMapping]

theorem content_newArray {w : World} (items : List Value) {n : Place} (old : Allocated w n) :
    content (w.newArray items).1 n = content w n := by
  cases n with
  | array ref => simp [content, World.array, World.newArray, List.getElem?_append_left old]
  | mapping ref => rfl

theorem content_newMapping {w : World} (m : Mapping) {n : Place} (old : Allocated w n) :
    content (w.newMapping m).1 n = content w n := by
  cases n with
  | array ref => rfl
  | mapping ref => simp [content, World.mapping, World.newMapping, List.getElem?_append_left old]

theorem copied_array {a : Value} {ref : Option Ref} (data : a.data = .array ref) :
    Copied w (copy w a).1 a (copy w a).2 (.array w.arrays.length) := by
  have copied : copy w a = ((w.newArray (w.items ref)).1,
      ⟨.array (some w.arrays.length), false, false⟩) := by
    rw [copy, data]
    rfl
  rw [copied]
  constructor
  · rfl
  · exact Nat.lt_irrefl _
  · exact fun n old => content_newArray _ old
  · intro top here
    rw [place, data] at here
    cases ref with
    | none => cases here
    | some r =>
        cases here
        exact congrArg Content.items (array_newArray w (w.array r))
  · intro null
    rw [place, data] at null
    cases ref with
    | none => exact array_newArray w []
    | some r => cases null

theorem copied_mapping {a : Value} {ref : Option Ref} (data : a.data = .mapping ref) :
    Copied w (copy w a).1 a (copy w a).2 (.mapping w.mappings.length) := by
  have copied : copy w a =
      ((w.newMapping ((ref.map w.mapping).getD ⟨[], 1, []⟩)).1,
        ⟨.mapping (some w.mappings.length), false, false⟩) := by
    rw [copy, data]
    rfl
  rw [copied]
  constructor
  · rfl
  · exact Nat.lt_irrefl _
  · exact fun n old => content_newMapping _ old
  · intro top here
    rw [place, data] at here
    cases ref with
    | none => cases here
    | some r =>
        cases here
        exact congrArg Content.table (mapping_newMapping w (w.mapping r))
  · intro null
    rw [place, data] at null
    cases ref with
    | none => exact congrArg tableValues (mapping_newMapping w ⟨[], 1, []⟩)
    | some r => cases null

theorem copy_cases (w : World) (a : Value) :
    (∃ fresh, Copied w (copy w a).1 a (copy w a).2 fresh) ∨
      (place a = none ∧ place (copy w a).2 = none) := by
  cases data : a.data with
  | array ref => exact .inl ⟨_, copied_array data⟩
  | mapping ref => exact .inl ⟨_, copied_mapping data⟩
  | _ => exact .inr (by simp [place, copy, data])

section Copied

variable {w' : World} {a b : Value} {fresh : Place} (wellFormed : WellFormed w)
  (valid : ∀ n, place a = some n → Allocated w n) (copied : Copied w w' a b fresh)

include copied in
theorem Copied.edge_iff {n k : Place} (old : Allocated w n) :
    heap.Edge w' n k ↔ heap.Edge w n k := by
  change (∃ v ∈ (content w' n).values, _) ↔ ∃ v ∈ (content w n).values, _
  rw [copied.kept n old]

include wellFormed in
theorem allocated_of_path {n k : Place} (old : Allocated w n)
    (path : ReflTransGen (heap.Edge w) n k) : Allocated w k := by
  induction path with
  | refl => exact old
  | tail _ edge _ => exact wellFormed _ _ edge

include wellFormed copied in
theorem Copied.path_iff {n k : Place} (old : Allocated w n) :
    ReflTransGen (heap.Edge w') n k ↔ ReflTransGen (heap.Edge w) n k := by
  constructor
  · intro path
    induction path with
    | refl => exact .refl
    | tail _ edge ih =>
        exact ih.tail ((copied.edge_iff (allocated_of_path wellFormed old ih)).mp edge)
  · intro path
    induction path with
    | refl => exact .refl
    | tail before edge ih =>
        exact ih.tail ((copied.edge_iff (allocated_of_path wellFormed old before)).mpr edge)

include wellFormed valid copied

/-- What the original reaches after the copy. -/
theorem Copied.original_iff {n : Place} : Reaches w' a n ↔
    ∃ top, place a = some top ∧ ReflTransGen (heap.Edge w) top n := by
  constructor
  · rintro ⟨top, here, path⟩
    exact ⟨top, here, (copied.path_iff wellFormed (valid top here)).mp path⟩
  · rintro ⟨top, here, path⟩
    exact ⟨top, here, (copied.path_iff wellFormed (valid top here)).mpr path⟩

omit valid in
/-- What the copy reaches: its own place, and whatever is below the top of the original. -/
theorem Copied.copy_iff {n : Place} : Reaches w' b n ↔ n = fresh ∨
    ∃ top, place a = some top ∧ TransGen (heap.Edge w) top n := by
  have root : ∀ m, rootOf b m ↔ m = fresh := by
    intro m
    rw [rootOf, copied.placed]
    exact ⟨fun same => (Option.some.inj same).symm, fun same => by rw [same]⟩
  have first (k : Place) : heap.Edge w' fresh k ↔
      ∃ top, place a = some top ∧ heap.Edge w top k := by
    change (∃ v ∈ (content w' fresh).values, _) ↔ _
    cases here : place a with
    | none => simp [copied.empty here]
    | some top =>
        rw [copied.same top here]
        constructor
        · exact fun edge => ⟨top, rfl, edge⟩
        · rintro ⟨_, ⟨⟩, edge⟩
          exact edge
  constructor
  · rintro ⟨m, here, path⟩
    rw [(root m).mp here] at path
    rcases path.cases_head with rfl | ⟨k, edge, rest⟩
    · exact .inl rfl
    · rcases (first k).mp edge with ⟨top, here, edge⟩
      have old := wellFormed _ _ edge
      exact .inr ⟨top, here, .head' edge ((copied.path_iff wellFormed old).mp rest)⟩
  · rintro (rfl | ⟨top, here, path⟩)
    · exact ⟨n, (root n).mpr rfl, .refl⟩
    · rcases TransGen.head'_iff.mp path with ⟨k, edge, rest⟩
      have old := wellFormed _ _ edge
      exact ⟨fresh, (root fresh).mpr rfl,
        .head ((first k).mpr ⟨top, here, edge⟩) ((copied.path_iff wellFormed old).mpr rest)⟩

end Copied

/-! ## Where nothing is shared -/

theorem Through.writes {root : Value} {avoid : Place → Prop} {w' : World}
    (through : Through root avoid w w') : heap.Writes (rootOf root) avoid w w' := by
  induction through with
  | nil => exact .nil
  | @snoc w' before write inside foreign ih =>
      rcases write.written w' with same | ⟨n, here, written⟩
      · rw [same]
        exact ih
      · apply ih.snoc written (inside n here)
        rintro k ⟨first, ⟨v, stored, here⟩, path⟩
        exact foreign v stored k ⟨first, here, path⟩

theorem Through.empty {root : Value} {avoid : Place → Prop} {w' : World}
    (through : Through root avoid w w') {ref : Ref} (empty : w.array ref = []) :
    w'.array ref = [] := by
  induction through with
  | nil => exact empty
  | snoc _ write _ _ ih => exact write.apply_empty ih

/-- Two values that share empty arrays only are independent. -/
theorem independent_of_apart {root other : Value}
    (apart : ∀ n, Reaches w root n → Reaches w other n →
      ∃ ref, n = .array ref ∧ w.array ref = []) : Independent w root other := by
  intro w' through n reached
  by_cases empty : ∃ ref, n = .array ref ∧ w.array ref = []
  · rcases empty with ⟨ref, rfl, empty⟩
    rw [content, content, empty, through.empty empty]
  · have frame := through.writes.frame
      (fun n => Reaches w other n ∧ ¬ ∃ ref, n = .array ref ∧ w.array ref = [])
      (fun n guarded => guarded.1)
      (fun n reach guarded => guarded.2 (apart n reach guarded.1))
    exact frame.2 n ⟨reached, empty⟩

/-! ## Where something is shared -/

/-- A value that leads nowhere. -/
theorem not_reaches {n : Place} (nowhere : place v = none) : ¬ Reaches w v n := by
  rintro ⟨first, here, -⟩
  rw [rootOf, nowhere] at here
  cases here

/-- There is a write that changes what stands at a place, unless it is an empty array. -/
theorem exists_write {n : Place} (old : Allocated w n)
    (nonempty : ¬ ∃ ref, n = .array ref ∧ w.array ref = []) :
    ∃ write : Write, place write.target = some n ∧ (∀ v ∈ write.stored, place v = none) ∧
      content (write.apply w) n ≠ content w n := by
  cases n with
  | array ref =>
      cases items : w.array ref with
      | nil => exact absurd ⟨ref, rfl, items⟩ nonempty
      | cons first rest =>
          have other : ∃ i : Int64, Value.int i ≠ first := by
            by_cases zero : Value.int 0 = first
            · refine ⟨1, ?_⟩
              rw [← zero]
              decide
            · exact ⟨0, zero⟩
          rcases other with ⟨i, differs⟩
          have done : indexAssign ⟨.array (some ref), false, false⟩ (Value.int 0) (Value.int i)
              none w = .ok (w.setArray ref (Value.int i :: rest)) := by
            simp [indexAssign, assignArray, Value.int, items]
          refine ⟨.assign ⟨.array (some ref), false, false⟩ (Value.int 0) (Value.int i) none,
            rfl, ?_, ?_⟩
          · intro v stored
            rcases List.mem_pair.mp stored with rfl | rfl
            · rfl
            · rfl
          · rw [Write.apply, done]
            have inside : ref < w.arrays.length := old
            have set : (w.setArray ref (Value.int i :: rest)).array ref =
                Value.int i :: rest := by
              simp [World.array, World.setArray, inside]
            rw [content, content, set, items]
            intro same
            exact differs (List.cons.inj (Content.items.inj same)).1
  | mapping ref =>
      have done : indexAssign ⟨.mapping (some ref), false, false⟩ ⟨.array none, false, false⟩
          (Value.int 0) none w = .ok (w.setMapping ref ((w.mapping ref).appendEntry
            ⟨.array none, false, false⟩
            ((List.replicate (w.mapping ref).width (Value.int 0)).set 0 (Value.int 0)))) := by
        have missing : (w.mapping ref).find ⟨.array none, false, false⟩ = none := by
          rw [Mapping.find, List.findIdx?_eq_none_iff]
          intro entry _
          cases entry.1.data <;> simp [valuesEqual, *]
        simp [indexAssign, assignMapping, mappingColumn, missing, bind, Except.bind, pure,
          Except.pure]
      refine ⟨.assign ⟨.mapping (some ref), false, false⟩ ⟨.array none, false, false⟩
        (Value.int 0) none, rfl, ?_, ?_⟩
      · intro v stored
        rcases List.mem_pair.mp stored with rfl | rfl
        · rfl
        · rfl
      · rw [Write.apply, done]
        have inside : ref < w.mappings.length := old
        intro same
        have entries := congrArg (fun m => m.entries.length) (Content.table.inj same)
        simp [World.mapping, World.setMapping, inside, Mapping.appendEntry] at entries

/-! ## Structural equality -/

theorem forall₂_self {related : Value → Value → Prop} (refl : ∀ x, related x x) (l : List Value) :
    List.Forall₂ related l l :=
  List.forall₂_same.mpr fun x _ => refl x

/-- A value looks like itself. -/
theorem alike_self {related : Value → Value → Prop} (refl : ∀ x, related x x) (x : Value) :
    Alike w related x x := by
  unfold Alike
  cases x.data with
  | array r => exact ⟨rfl, forall₂_self refl _⟩
  | mapping r =>
      exact ⟨rfl, forall₂_self refl _, forall₂_self refl _,
        List.forall₂_same.mpr fun row _ => forall₂_self refl row⟩
  | _ => rfl

/-- The items and the table of an empty pointer stay, and so do those of a valid one. -/
theorem items_copy {a : Value} {r : Option Ref} (data : a.data = .array r)
    (valid : ∀ n, place a = some n → Allocated w n) :
    (copy w a).1.items r = w.items r := by
  cases r with
  | none => rfl
  | some ref =>
      have kept := (copied_array (w := w) data).kept _ (valid _ (place_array data))
      exact Content.items.inj kept

theorem table_copy {a : Value} {r : Option Ref} (data : a.data = .mapping r)
    (valid : ∀ n, place a = some n → Allocated w n) :
    (r.map (copy w a).1.mapping).getD ⟨[], 1, []⟩ = (r.map w.mapping).getD ⟨[], 1, []⟩ := by
  cases r with
  | none => rfl
  | some ref =>
      have kept := (copied_mapping (w := w) data).kept _ (valid _ (place_mapping data))
      exact Content.table.inj kept

/-- The bytes of a buffer are those of its copy, and a new buffer does not touch them. -/
theorem bytes_append (buffers : List Str) (r : Option Ref) :
    (r.bind ((buffers ++ [(r.bind (buffers[·]?)).getD []])[·]?)).getD [] =
      (r.bind (buffers[·]?)).getD [] := by
  cases r with
  | none => rfl
  | some ref =>
      rcases Nat.lt_or_ge ref buffers.length with inside | outside
      · simp [List.getElem?_append_left inside]
      · rcases Nat.eq_or_lt_of_le outside with rfl | beyond
        · simp
        · have far : (buffers ++ [[]])[ref]? = none :=
            List.getElem?_eq_none (by rw [List.length_append]; exact beyond)
          simp [outside, far]

/-- A value, or the original and its copy. -/
def OwnCopy (a b : Value) (x y : Value) : Prop :=
  x = y ∨ (x = a ∧ y = b)

/-- The copy is structurally equal to the original, if that is no class instance. -/
theorem similar_copy {a : Value} (valid : ∀ n, place a = some n → Allocated w n)
    (plain : ∀ ref, a.data = .array ref → a.isClassInstance = false) :
    Similar (copy w a).1 a (copy w a).2 := by
  have refl (x : Value) : OwnCopy a (copy w a).2 x x := .inl rfl
  refine ⟨OwnCopy a (copy w a).2, .inr ⟨rfl, rfl⟩, ?_⟩
  rintro u v (rfl | ⟨rfl, rfl⟩)
  · exact alike_self refl u
  · cases data : u.data with
    | array r =>
        have items : (copy w u).1.items (some w.arrays.length) = w.items r := by
          rw [copy, data]
          exact array_newArray w _
        have shape : (copy w u).2 = ⟨.array (some w.arrays.length), false, false⟩ := by
          rw [copy, data]
          rfl
        rw [shape] at refl ⊢
        rw [Alike, data]
        change _ ∧ List.Forall₂ _ _ _
        rw [items, items_copy data valid]
        exact ⟨plain r data, forall₂_self refl _⟩
    | mapping r =>
        have table : (copy w u).1.mapping w.mappings.length =
            (r.map w.mapping).getD ⟨[], 1, []⟩ := by
          rw [copy, data]
          exact mapping_newMapping w _
        have shape : (copy w u).2 = ⟨.mapping (some w.mappings.length), false, false⟩ := by
          rw [copy, data]
          rfl
        rw [shape] at refl ⊢
        rw [Alike, data]
        simp only [table_copy data valid, Option.map_some, Option.getD_some, table]
        exact ⟨trivial, forall₂_self refl _, forall₂_self refl _,
          List.forall₂_same.mpr fun row _ => forall₂_self refl row⟩
    | buffer r =>
        have bytes := bytes_append w.buffers r
        simp only [Alike, copy, data]
        simpa using bytes
    | _ => simp [Alike, copy, data]

/-- A copy keeps what is allocated. -/
theorem allocated_copy {a : Value} {n : Place} (old : Allocated w n) :
    Allocated (copy w a).1 n := by
  cases data : a.data with
  | array ref =>
      cases n with
      | array other =>
          have old : other < w.arrays.length := old
          simpa [Allocated, copy, data, World.newArray] using Nat.lt_succ_of_lt old
      | mapping other => simpa [Allocated, copy, data, World.newArray] using old
  | mapping ref =>
      cases n with
      | array other => simpa [Allocated, copy, data, World.newMapping] using old
      | mapping other =>
          have old : other < w.mappings.length := old
          simpa [Allocated, copy, data, World.newMapping] using Nat.lt_succ_of_lt old
  | _ => cases n <;> simpa [Allocated, copy, data] using old

/-- A copy is no class instance. -/
theorem plain_of_alike {a : Value} {related : Value → Value → Prop}
    (alike : Alike (copy w a).1 related a (copy w a).2) {ref : Option Ref}
    (data : a.data = .array ref) : a.isClassInstance = false := by
  have shape : (copy w a).2 = ⟨.array (some w.arrays.length), false, false⟩ := by
    rw [copy, data]
    rfl
  rw [shape, Alike, data] at alike
  exact alike.1

section Theorem

variable {a : Value} (wellFormed : WellFormed w)
  (valid : ∀ n, place a = some n → Allocated w n)

include wellFormed valid in
/-- What both reach is below the top of the original. -/
theorem below_of_shared {n : Place} (original : Reaches (copy w a).1 a n)
    (copied : Reaches (copy w a).1 (copy w a).2 n) :
    content (copy w a).1 n = content w n ∧
      ∃ top, place a = some top ∧ TransGen (heap.Edge w) top n := by
  rcases copy_cases w a with ⟨fresh, made⟩ | ⟨nowhere, -⟩
  · rcases (made.original_iff wellFormed valid).mp original with ⟨top, here, path⟩
    have old := allocated_of_path wellFormed (valid top here) path
    refine ⟨made.kept n old, ?_⟩
    rcases (made.copy_iff wellFormed).mp copied with rfl | below
    · exact absurd old made.new
    · exact below
  · exact absurd original (not_reaches nowhere)

include wellFormed valid in
/-- What is below the top of the original is reached by both. -/
theorem shared_of_below {n : Place} (below : ∃ top, place a = some top ∧
    TransGen (heap.Edge w) top n) : Reaches (copy w a).1 a n ∧
      Reaches (copy w a).1 (copy w a).2 n ∧ content (copy w a).1 n = content w n := by
  rcases copy_cases w a with ⟨fresh, made⟩ | ⟨nowhere, -⟩
  · rcases below with ⟨top, here, path⟩
    have old := allocated_of_path wellFormed (valid top here) path.to_reflTransGen
    exact ⟨(made.original_iff wellFormed valid).mpr ⟨top, here, path.to_reflTransGen⟩,
      (made.copy_iff wellFormed).mpr (.inr ⟨top, here, path⟩), made.kept n old⟩
  · rcases below with ⟨top, here, -⟩
    rw [nowhere] at here
    cases here

include wellFormed valid in
theorem BreaksAliasing.shallow (breaks : BreaksAliasing w a) : Shallow w a := by
  constructor
  · intro ref data
    rcases breaks.similar with ⟨related, here, alike⟩
    exact plain_of_alike (alike _ _ here) data
  · intro top n here path
    by_contra nonempty
    rcases shared_of_below wellFormed valid ⟨top, here, path⟩ with ⟨original, copied, kept⟩
    have old : Allocated (copy w a).1 n :=
      allocated_copy (allocated_of_path wellFormed (valid top here) path.to_reflTransGen)
    have nonempty' : ¬ ∃ ref, n = .array ref ∧ (copy w a).1.array ref = [] := by
      rintro ⟨ref, rfl, empty⟩
      exact nonempty ⟨ref, rfl, (Content.items.inj kept).symm.trans empty⟩
    rcases exists_write old nonempty' with ⟨write, target, stored, changes⟩
    -- One write through the copy shows in the original.
    apply changes
    refine breaks.original _ (.snoc .nil write ?_ ?_) n original
    · intro k site
      rw [target] at site
      cases site
      exact copied
    · intro v mem k reach
      exact absurd reach (not_reaches (stored v mem))

include wellFormed valid in
theorem Shallow.breaksAliasing (shallow : Shallow w a) : BreaksAliasing w a := by
  rcases shallow with ⟨plain, shallow⟩
  have shared {n : Place} (original : Reaches (copy w a).1 a n)
      (copied : Reaches (copy w a).1 (copy w a).2 n) :
      ∃ ref, n = .array ref ∧ (copy w a).1.array ref = [] := by
    rcases below_of_shared wellFormed valid original copied with ⟨kept, top, here, path⟩
    rcases shallow top n here path with ⟨ref, rfl, empty⟩
    exact ⟨ref, rfl, (Content.items.inj kept).trans empty⟩
  exact ⟨similar_copy valid plain,
    independent_of_apart fun n copied original => shared original copied,
    independent_of_apart fun n original copied => shared original copied⟩

end Theorem

/-- The original and its copy are structurally equal and independent of each other if and only
if the original is no class instance and nothing but empty arrays is below its top. -/
theorem breaksAliasing_iff (w : World) (a : Value) (wellFormed : WellFormed w)
    (valid : ∀ n, place a = some n → Allocated w n) : BreaksAliasing w a ↔ Shallow w a :=
  ⟨fun breaks => breaks.shallow wellFormed valid,
    fun shallow => shallow.breaksAliasing wellFormed valid⟩

/-! ## An array of numbers, and an array in an array -/

/-- A heap of arrays. -/
def arrayHeap (arrays : List (List Value)) : World where
  arrays := arrays

def arrayValue (ref : Ref) : Value :=
  ⟨.array (some ref), false, false⟩

/-- `({ 1 })`. -/
def flatHeap : World :=
  arrayHeap [[Value.int 1]]

/-- `({ ({ 1 }) })`. -/
def nestedHeap : World :=
  arrayHeap [[Value.int 1], [arrayValue 0]]

theorem edge_arrayHeap {arrays : List (List Value)} {n k : Place}
    (edge : heap.Edge (arrayHeap arrays) n k) :
    ∃ ref items, n = .array ref ∧ arrays[ref]? = some items ∧ ∃ v ∈ items, place v = some k := by
  rcases edge with ⟨v, mem, here⟩
  cases n with
  | array ref =>
      have mem : v ∈ (arrays[ref]?).getD [] := mem
      cases found : arrays[ref]? with
      | none => simp [found] at mem
      | some items => exact ⟨ref, items, rfl, found, v, by simpa [found] using mem, here⟩
  | mapping ref => cases mem

theorem no_edge_flatHeap {n k : Place} : ¬ heap.Edge flatHeap n k := by
  intro edge
  rcases edge_arrayHeap edge with ⟨ref, items, -, found, v, mem, here⟩
  cases ref with
  | zero =>
      cases found
      rw [List.mem_singleton.mp mem] at here
      cases here
  | succ ref => cases found

theorem wellFormed_nestedHeap : WellFormed nestedHeap := by
  intro n k edge
  rcases edge_arrayHeap edge with ⟨ref, items, -, found, v, mem, here⟩
  match ref with
  | 0 =>
      cases found
      rw [List.mem_singleton.mp mem] at here
      cases here
  | 1 =>
      cases found
      rw [List.mem_singleton.mp mem] at here
      cases here
      exact Nat.succ_pos 1
  | _ + 2 => cases found

theorem valid_arrayValue {ref : Ref} (inside : ref < w.arrays.length) :
    ∀ n, place (arrayValue ref) = some n → Allocated w n := by
  rintro n ⟨⟩
  exact inside

/-- A flat array is copied apart. -/
theorem copy_flat : BreaksAliasing flatHeap (arrayValue 0) := by
  refine (breaksAliasing_iff flatHeap (arrayValue 0) (fun n k edge => absurd edge no_edge_flatHeap)
    (valid_arrayValue Nat.one_pos)).mpr ⟨fun _ _ => rfl, ?_⟩
  intro top n _ path
  rcases TransGen.head'_iff.mp path with ⟨k, edge, -⟩
  exact absurd edge no_edge_flatHeap

/-- An array in an array is shared with the copy. -/
theorem copy_nested : ¬ ∀ (w : World) (a : Value), WellFormed w →
    (∀ n, place a = some n → Allocated w n) → BreaksAliasing w a := by
  intro breaks
  have valid := valid_arrayValue (w := nestedHeap) Nat.one_lt_two
  have shallow := (breaks nestedHeap (arrayValue 1) wellFormed_nestedHeap valid).shallow
    wellFormed_nestedHeap valid
  have edge : heap.Edge nestedHeap (.array 1) (.array 0) :=
    ⟨arrayValue 0, List.mem_singleton.mpr rfl, rfl⟩
  rcases shallow.2 _ _ rfl (.single edge) with ⟨_, ⟨⟩, empty⟩
  cases empty

end Kjdmud.Efun
