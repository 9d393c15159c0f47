import Mathlib.Data.List.Basic

/-!
# Tables of keyed rows

A table is a list of rows, each behind its key, and a key is looked up from the
front.  Keys are compared by a relation that is symmetric and transitive; it need
not be reflexive, and a key that does not equal itself is never found.

A lookup after a change in place, an appended row or a removed one is told by the
comparison of the two keys alone, and tables whose keys are pairwise different stay
so.
-/

namespace Kjdmud.Table

universe u v

variable {κ : Type u} {ρ : Type v}

/-- A change of one entry seen through a map. -/
theorem map_modify {α : Type u} {β : Type v} (f : α → β) (change : α → α) (change' : β → β)
    {list : List α} (agree : ∀ a ∈ list, f (change a) = change' (f a)) (i : Nat) :
    (list.modify i change).map f = (list.map f).modify i change' := by
  induction list generalizing i with
  | nil => cases i <;> rfl
  | cons a list inductionHypothesis =>
      cases i with
      | zero =>
          rw [List.modify_zero_cons, List.map_cons, List.map_cons, List.modify_zero_cons,
            agree a List.mem_cons_self]
      | succ i =>
          rw [List.modify_succ_cons, List.map_cons, List.map_cons, List.modify_succ_cons,
            inductionHypothesis fun a mem => agree a (List.mem_cons_of_mem _ mem)]

/-- A comparison of keys. -/
structure Comparison (κ : Type u) where
  same : κ → κ → Bool
  symm : ∀ {a b : κ}, same a b = true → same b a = true
  trans : ∀ {a b c : κ}, same a b = true → same b c = true → same a c = true

namespace Comparison

variable (c : Comparison κ)

/-- Equal keys are equal to the same keys. -/
theorem congr_left {a b : κ} (equal : c.same a b = true) (key : κ) :
    c.same a key = c.same b key := by
  apply Bool.eq_iff_iff.mpr
  constructor
  · exact c.trans (c.symm equal)
  · exact c.trans equal

theorem congr_right {a b : κ} (equal : c.same a b = true) (key : κ) :
    c.same key a = c.same key b := by
  apply Bool.eq_iff_iff.mpr
  constructor
  · intro found
    exact c.trans found equal
  · intro found
    exact c.trans found (c.symm equal)

theorem comm (a b : κ) : c.same a b = c.same b a :=
  Bool.eq_iff_iff.mpr ⟨c.symm, c.symm⟩

/-- The position of the first row with a key. -/
def find (rows : List (κ × ρ)) (key : κ) : Option Nat :=
  rows.findIdx? fun row => c.same row.1 key

/-- The first row with a key. -/
def read (rows : List (κ × ρ)) (key : κ) : Option ρ :=
  (rows.find? fun row => c.same row.1 key).map Prod.snd

/-- No two rows have equal keys. -/
def Distinct (rows : List (κ × ρ)) : Prop :=
  rows.Pairwise fun row row' => c.same row.1 row'.1 = false

variable {c} {rows : List (κ × ρ)} {key key' : κ}

/-! ## Lookups -/

theorem read_cons (row : κ × ρ) :
    c.read (row :: rows) key = if c.same row.1 key then some row.2 else c.read rows key := by
  unfold read
  rw [List.find?_cons]
  cases c.same row.1 key <;> rfl

theorem find_cons (row : κ × ρ) :
    c.find (row :: rows) key =
      if c.same row.1 key then some 0 else (c.find rows key).map Nat.succ := by
  unfold find
  rw [List.findIdx?_cons]

/-- A row is read where it is found. -/
theorem read_eq_find : c.read rows key = (c.find rows key).bind fun i => rows[i]?.map Prod.snd := by
  induction rows with
  | nil => rfl
  | cons row rows inductionHypothesis =>
      rw [read_cons, find_cons]
      cases c.same row.1 key with
      | true => rfl
      | false =>
          simp only [Bool.false_eq_true, if_false, inductionHypothesis]
          cases c.find rows key <;> rfl

theorem read_eq_none_iff : c.read rows key = none ↔ ∀ row ∈ rows, c.same row.1 key = false := by
  unfold read
  rw [Option.map_eq_none_iff, List.find?_eq_none]
  simp only [Bool.not_eq_true]

theorem find_eq_none_iff : c.find rows key = none ↔ ∀ row ∈ rows, c.same row.1 key = false :=
  List.findIdx?_eq_none_iff

theorem read_of_find_none (missing : c.find rows key = none) : c.read rows key = none :=
  read_eq_none_iff.mpr (find_eq_none_iff.mp missing)

/-- The row found has the key. -/
theorem same_of_find {i : Nat} (found : c.find rows key = some i) :
    ∃ row, rows[i]? = some row ∧ c.same row.1 key = true := by
  obtain ⟨inside, equal, _⟩ := List.findIdx?_eq_some_iff_getElem.mp found
  exact ⟨rows[i], List.getElem?_eq_getElem inside, equal⟩

theorem read_congr (equal : c.same key key' = true) : c.read rows key = c.read rows key' := by
  unfold read
  simp only [c.congr_right equal]

/-- Where keys are different, every row is read under its key. -/
theorem read_of_mem (distinct : c.Distinct rows) {row : κ × ρ} (mem : row ∈ rows)
    (equal : c.same row.1 key = true) : c.read rows key = some row.2 := by
  induction rows with
  | nil => cases mem
  | cons first rows inductionHypothesis =>
      obtain ⟨apart, distinctRest⟩ := List.pairwise_cons.mp distinct
      rw [read_cons]
      rcases List.mem_cons.mp mem with rfl | mem
      · rw [if_pos equal]
      · rw [← c.congr_right equal, apart row mem, if_neg Bool.false_ne_true]
        exact inductionHypothesis distinctRest mem

/-! ## A row changed in place -/

theorem read_modify (change : ρ → ρ) {i : Nat} (found : c.find rows key = some i) :
    c.read (rows.modify i fun row => (row.1, change row.2)) key' =
      if c.same key key' then (c.read rows key').map change else c.read rows key' := by
  induction rows generalizing i with
  | nil => cases found
  | cons row rows inductionHypothesis =>
      rw [find_cons] at found
      cases here : c.same row.1 key with
      | true =>
          rw [here, if_pos rfl] at found
          cases found
          rw [List.modify_zero_cons, read_cons, read_cons, c.congr_left here]
          cases c.same key key' <;> rfl
      | false =>
          rw [here, if_neg Bool.false_ne_true] at found
          obtain ⟨i, foundRest, rfl⟩ := Option.map_eq_some_iff.mp found
          rw [List.modify_succ_cons, read_cons, read_cons, inductionHypothesis foundRest]
          cases equal : c.same key key' with
          | false => rfl
          | true =>
              rw [← c.congr_right equal, here]
              rfl

theorem keys_modify (change : ρ → ρ) (i : Nat) :
    (rows.modify i fun row => (row.1, change row.2)).map Prod.fst = rows.map Prod.fst := by
  rw [map_modify Prod.fst (fun row : κ × ρ => (row.1, change row.2)) id fun _ _ => rfl,
    List.modify_id]

theorem distinct_iff_keys :
    c.Distinct rows ↔ (rows.map Prod.fst).Pairwise fun a b => c.same a b = false := by
  rw [List.pairwise_map]
  rfl

theorem Distinct.modify (distinct : c.Distinct rows) (change : ρ → ρ) (i : Nat) :
    c.Distinct (rows.modify i fun row => (row.1, change row.2)) := by
  rw [distinct_iff_keys, keys_modify]
  exact distinct_iff_keys.mp distinct

/-! ## A row appended -/

theorem read_append_singleton (row : ρ) (missing : c.find rows key = none) :
    c.read (rows ++ [(key, row)]) key' =
      if c.same key key' then some row else c.read rows key' := by
  have absent := find_eq_none_iff.mp missing
  clear missing
  induction rows with
  | nil => exact read_cons _
  | cons first rows inductionHypothesis =>
      rw [List.cons_append, read_cons, read_cons,
        inductionHypothesis fun row mem => absent row (List.mem_cons_of_mem _ mem)]
      cases equal : c.same key key' with
      | false => rfl
      | true =>
          rw [← c.congr_right equal, absent first List.mem_cons_self]
          rfl

theorem Distinct.append_singleton (distinct : c.Distinct rows) (row : ρ)
    (missing : c.find rows key = none) : c.Distinct (rows ++ [(key, row)]) := by
  refine List.pairwise_append.mpr ⟨distinct, List.pairwise_singleton _ _, ?_⟩
  intro other mem last isLast
  rw [List.mem_singleton] at isLast
  rw [isLast]
  exact find_eq_none_iff.mp missing other mem

/-! ## A row written -/

/-- Change the first row with a key, or append one; `change` sees the old row. -/
def alter (c : Comparison κ) (rows : List (κ × ρ)) (key : κ) (change : Option ρ → ρ) :
    List (κ × ρ) :=
  match c.find rows key with
  | some i => rows.modify i fun row => (row.1, change (some row.2))
  | none => rows ++ [(key, change none)]

/-- What was written is read under every equal key, and other keys read what they
did. -/
theorem read_alter (change : Option ρ → ρ) :
    c.read (c.alter rows key change) key' =
      if c.same key key' then some (change (c.read rows key')) else c.read rows key' := by
  unfold alter
  cases found : c.find rows key with
  | none =>
      simp only [read_append_singleton _ found]
      cases equal : c.same key key' with
      | false => rfl
      | true => rw [← read_congr equal, read_of_find_none found]
  | some i =>
      refine (read_modify (change ∘ some) found).trans ?_
      cases equal : c.same key key' with
      | false => rfl
      | true =>
          obtain ⟨row, here, _⟩ := same_of_find found
          rw [← read_congr equal, read_eq_find, found]
          simp only [Option.bind_some, here, Option.map_some, if_true, Function.comp_apply]

theorem Distinct.alter (distinct : c.Distinct rows) (key : κ) (change : Option ρ → ρ) :
    c.Distinct (c.alter rows key change) := by
  unfold Comparison.alter
  cases found : c.find rows key with
  | none => exact distinct.append_singleton _ found
  | some i => exact distinct.modify (change ∘ some) i

/-- Write all rows of one table into another. -/
def merge (c : Comparison κ) (rows new : List (κ × ρ)) : List (κ × ρ) :=
  new.foldl (fun rows row => c.alter rows row.1 fun _ => row.2) rows

/-- The new table wins. -/
theorem read_merge {new : List (κ × ρ)} (distinct : c.Distinct new) :
    c.read (c.merge rows new) key = (c.read new key).or (c.read rows key) := by
  induction new generalizing rows with
  | nil => rfl
  | cons row new inductionHypothesis =>
      obtain ⟨apart, distinctRest⟩ := List.pairwise_cons.mp distinct
      have next : c.read (c.merge (c.alter rows row.1 fun _ => row.2) new) key = _ :=
        inductionHypothesis distinctRest
      unfold merge at next ⊢
      rw [List.foldl_cons, next, read_alter, read_cons]
      cases equal : c.same row.1 key with
      | false => rfl
      | true =>
          have missing : c.read new key = none := by
            refine read_eq_none_iff.mpr fun other mem => ?_
            rw [← c.congr_right equal, c.comm]
            exact apart other mem
          rw [missing]
          rfl

/-! ## A row removed -/

theorem Distinct.eraseIdx (distinct : c.Distinct rows) (i : Nat) :
    c.Distinct (rows.eraseIdx i) :=
  distinct.sublist (List.eraseIdx_sublist rows i)

/-- Where keys are different, a row taken out is missing and the others are not. -/
theorem read_eraseIdx (distinct : c.Distinct rows) {i : Nat} {row : κ × ρ}
    (here : rows[i]? = some row) :
    c.read (rows.eraseIdx i) key =
      if c.same row.1 key then none else c.read rows key := by
  induction rows generalizing i with
  | nil => cases here
  | cons first rows inductionHypothesis =>
      obtain ⟨apart, distinctRest⟩ := List.pairwise_cons.mp distinct
      cases i with
      | zero =>
          cases here
          rw [List.eraseIdx_cons_zero, read_cons]
          cases equal : c.same row.1 key with
          | false => rfl
          | true =>
              have missing : c.read rows key = none := by
                refine read_eq_none_iff.mpr fun other mem => ?_
                rw [← c.congr_right equal, c.comm]
                exact apart other mem
              rw [missing]
              rfl
      | succ i =>
          have inRest : row ∈ rows := List.mem_of_getElem? here
          rw [List.eraseIdx_cons_succ, read_cons, read_cons, inductionHypothesis distinctRest here]
          cases equal : c.same row.1 key with
          | false => rfl
          | true =>
              rw [← c.congr_right equal, apart row inRest]
              rfl

/-- All rows with a key taken out. -/
def erase (c : Comparison κ) (rows : List (κ × ρ)) (key : κ) : List (κ × ρ) :=
  rows.filter fun row => !c.same row.1 key

theorem read_erase :
    c.read (c.erase rows key) key' = if c.same key key' then none else c.read rows key' := by
  induction rows with
  | nil => cases c.same key key' <;> rfl
  | cons row rows inductionHypothesis =>
      unfold erase at inductionHypothesis ⊢
      rw [List.filter_cons, read_cons]
      cases here : c.same row.1 key with
      | true =>
          simp only [Bool.not_true, Bool.false_eq_true, if_false, inductionHypothesis,
            c.congr_left here]
          cases c.same key key' <;> rfl
      | false =>
          simp only [Bool.not_false, if_true, read_cons, inductionHypothesis]
          cases equal : c.same key key' with
          | false => rfl
          | true =>
              rw [← c.congr_right equal, here]
              rfl

theorem Distinct.erase (distinct : c.Distinct rows) (key : κ) :
    c.Distinct (c.erase rows key) :=
  distinct.sublist List.filter_sublist

end Comparison

end Kjdmud.Table
