import Mathlib.Data.List.Basic
import Mathlib.Order.Bounds.Basic
import Mathlib.Order.MinMax

/-!
# The edit distance

The recursion on the first elements of two lists, and what it computes: the least number of
single insertions, deletions and substitutions that turn one list into the other.  Edits can be
made in another order, undone, and made one list after the other, so the distance is a metric
and may as well be computed from the last elements.
-/

namespace Kjdmud.Lib.EditDistance

universe u

variable {α : Type u}

/-! ## Alignments -/

/-- A way to turn one list into another along both, with so many elements that are inserted,
deleted or substituted. -/
inductive Aligned : Nat → List α → List α → Prop
  | nil : Aligned 0 [] []
  | keep {n : Nat} {a b : List α} (x : α) (rest : Aligned n a b) : Aligned n (x :: a) (x :: b)
  | substitute {n : Nat} {a b : List α} (x y : α) (rest : Aligned n a b) :
      Aligned (n + 1) (x :: a) (y :: b)
  | delete {n : Nat} {a b : List α} (x : α) (rest : Aligned n a b) : Aligned (n + 1) (x :: a) b
  | insert {n : Nat} {a b : List α} (y : α) (rest : Aligned n a b) : Aligned (n + 1) a (y :: b)

namespace Aligned

variable {m n : Nat} {a b c d : List α}

theorem refl (a : List α) : Aligned 0 a a := by
  induction a with
  | nil => exact nil
  | cons x a inductionHypothesis => exact inductionHypothesis.keep x

theorem symm (aligned : Aligned n a b) : Aligned n b a := by
  induction aligned with
  | nil => exact nil
  | keep x _ inductionHypothesis => exact inductionHypothesis.keep x
  | substitute x y _ inductionHypothesis => exact inductionHypothesis.substitute y x
  | delete x _ inductionHypothesis => exact inductionHypothesis.insert x
  | insert y _ inductionHypothesis => exact inductionHypothesis.delete y

theorem append (first : Aligned m a b) (second : Aligned n c d) :
    Aligned (m + n) (a ++ c) (b ++ d) := by
  induction first with
  | nil =>
      rw [Nat.zero_add]
      exact second
  | keep x _ inductionHypothesis => exact inductionHypothesis.keep x
  | substitute x y _ inductionHypothesis =>
      rw [Nat.succ_add]
      exact inductionHypothesis.substitute x y
  | delete x _ inductionHypothesis =>
      rw [Nat.succ_add]
      exact inductionHypothesis.delete x
  | insert y _ inductionHypothesis =>
      rw [Nat.succ_add]
      exact inductionHypothesis.insert y

theorem reverse (aligned : Aligned n a b) : Aligned n a.reverse b.reverse := by
  induction aligned with
  | nil => exact nil
  | keep x _ inductionHypothesis =>
      rw [List.reverse_cons, List.reverse_cons]
      exact inductionHypothesis.append (nil.keep x)
  | substitute x y _ inductionHypothesis =>
      rw [List.reverse_cons, List.reverse_cons]
      exact inductionHypothesis.append (nil.substitute x y)
  | @delete n a b x _ inductionHypothesis =>
      rw [List.reverse_cons, ← List.append_nil b.reverse]
      exact inductionHypothesis.append (nil.delete x)
  | @insert n a b y _ inductionHypothesis =>
      rw [List.reverse_cons, ← List.append_nil a.reverse]
      exact inductionHypothesis.append (nil.insert y)

theorem nil_left (b : List α) : Aligned b.length [] b := by
  induction b with
  | nil => exact nil
  | cons y b inductionHypothesis => exact inductionHypothesis.insert y

theorem nil_right (a : List α) : Aligned a.length a [] :=
  (nil_left a).symm

theorem eq_of_zero (aligned : Aligned n a b) (none_ : n = 0) : a = b := by
  induction aligned with
  | nil => rfl
  | keep x _ inductionHypothesis => rw [inductionHypothesis none_]
  | substitute => cases none_
  | delete => cases none_
  | insert => cases none_

/-- One alignment after the other.  The second one goes ahead alone where it inserts, and the
first one where it deletes; otherwise both go over one element of the list between them. -/
theorem trans (first : Aligned m a b) (second : Aligned n b c) :
    ∃ k ≤ m + n, Aligned k a c := by
  induction first generalizing n c with
  | nil => exact ⟨n, by omega, second⟩
  | delete x _ inductionHypothesis =>
      obtain ⟨k, bound, rest⟩ := inductionHypothesis second
      exact ⟨k + 1, by omega, rest.delete x⟩
  | @keep m a b x rest inductionHypothesis =>
      generalize between : x :: b = list at second
      induction second with
      | nil => cases between
      | insert z _ ahead =>
          obtain ⟨k, bound, rest⟩ := ahead between
          exact ⟨k + 1, by omega, rest.insert z⟩
      | keep y behind =>
          cases between
          obtain ⟨k, bound, rest⟩ := inductionHypothesis behind
          exact ⟨k, bound, rest.keep x⟩
      | substitute y z behind =>
          cases between
          obtain ⟨k, bound, rest⟩ := inductionHypothesis behind
          exact ⟨k + 1, by omega, rest.substitute x z⟩
      | delete y behind =>
          cases between
          obtain ⟨k, bound, rest⟩ := inductionHypothesis behind
          exact ⟨k + 1, by omega, rest.delete x⟩
  | @substitute m a b x y rest inductionHypothesis =>
      generalize between : y :: b = list at second
      induction second with
      | nil => cases between
      | insert z _ ahead =>
          obtain ⟨k, bound, rest⟩ := ahead between
          exact ⟨k + 1, by omega, rest.insert z⟩
      | keep y behind =>
          cases between
          obtain ⟨k, bound, rest⟩ := inductionHypothesis behind
          exact ⟨k + 1, by omega, rest.substitute x y⟩
      | substitute y z behind =>
          cases between
          obtain ⟨k, bound, rest⟩ := inductionHypothesis behind
          exact ⟨k + 1, by omega, rest.substitute x z⟩
      | delete y behind =>
          cases between
          obtain ⟨k, bound, rest⟩ := inductionHypothesis behind
          exact ⟨k + 1, by omega, rest.delete x⟩
  | @insert m a b y rest inductionHypothesis =>
      generalize between : y :: b = list at second
      induction second with
      | nil => cases between
      | insert z _ ahead =>
          obtain ⟨k, bound, rest⟩ := ahead between
          exact ⟨k + 1, by omega, rest.insert z⟩
      | keep y behind =>
          cases between
          obtain ⟨k, bound, rest⟩ := inductionHypothesis behind
          exact ⟨k + 1, by omega, rest.insert y⟩
      | substitute y z behind =>
          cases between
          obtain ⟨k, bound, rest⟩ := inductionHypothesis behind
          exact ⟨k + 1, by omega, rest.insert z⟩
      | delete y behind =>
          cases between
          obtain ⟨k, bound, rest⟩ := inductionHypothesis behind
          exact ⟨k, by omega, rest⟩

end Aligned

/-! ## Edits -/

/-- One insertion, deletion or substitution at any place. -/
inductive Edit : List α → List α → Prop
  | insert (l r : List α) (y : α) : Edit (l ++ r) (l ++ y :: r)
  | delete (l r : List α) (x : α) : Edit (l ++ x :: r) (l ++ r)
  | substitute (l r : List α) (x y : α) : Edit (l ++ x :: r) (l ++ y :: r)

/-- So many edits, one after the other. -/
inductive Edits : Nat → List α → List α → Prop
  | none (a : List α) : Edits 0 a a
  | next {n : Nat} {a b c : List α} (edit : Edit a b) (more : Edits n b c) : Edits (n + 1) a c

variable {m n : Nat} {a b c : List α}

theorem Edit.cons (x : α) (edit : Edit a b) : Edit (x :: a) (x :: b) := by
  cases edit with
  | insert l r y => exact .insert (x :: l) r y
  | delete l r y => exact .delete (x :: l) r y
  | substitute l r y z => exact .substitute (x :: l) r y z

theorem Edits.cons (x : α) (edits : Edits n a b) : Edits n (x :: a) (x :: b) := by
  induction edits with
  | none a => exact .none _
  | next edit _ inductionHypothesis => exact .next (edit.cons x) inductionHypothesis

theorem Aligned.edits (aligned : Aligned n a b) : Edits n a b := by
  induction aligned with
  | nil => exact .none []
  | keep x _ inductionHypothesis => exact inductionHypothesis.cons x
  | @substitute n a b x y _ inductionHypothesis =>
      exact .next (.substitute [] a x y) (inductionHypothesis.cons y)
  | @delete n a b x _ inductionHypothesis => exact .next (.delete [] a x) inductionHypothesis
  | @insert n a b y _ inductionHypothesis =>
      exact .next (.insert [] a y) (inductionHypothesis.cons y)

theorem Edit.aligned (edit : Edit a b) : Aligned 1 a b := by
  cases edit with
  | insert l r y => exact (Aligned.refl l).append ((Aligned.refl r).insert y)
  | delete l r x => exact (Aligned.refl l).append ((Aligned.refl r).delete x)
  | substitute l r x y => exact (Aligned.refl l).append ((Aligned.refl r).substitute x y)

theorem Edits.aligned (edits : Edits n a b) : ∃ k ≤ n, Aligned k a b := by
  induction edits with
  | none a => exact ⟨0, Nat.le_refl 0, .refl a⟩
  | next edit _ inductionHypothesis =>
      obtain ⟨k, bound, rest⟩ := inductionHypothesis
      obtain ⟨k', bound', whole⟩ := edit.aligned.trans rest
      exact ⟨k', by omega, whole⟩

/-! ## The distance -/

variable [DecidableEq α]

/-- The Levenshtein distance, by recursion on the first elements. -/
def distance : List α → List α → Nat
  | [], b => b.length
  | a, [] => a.length
  | x :: a, y :: b =>
      min (min (distance a (y :: b) + 1) (distance (x :: a) b + 1))
        (distance a b + if x = y then 0 else 1)

@[simp]
theorem distance_nil_left (b : List α) : distance [] b = b.length := by
  rw [distance]

@[simp]
theorem distance_nil_right (a : List α) : distance a [] = a.length := by
  cases a with
  | nil => rw [distance]
  | cons x a => rw [distance]; exact List.cons_ne_nil x a

theorem distance_cons (x y : α) (a b : List α) :
    distance (x :: a) (y :: b) = min (min (distance a (y :: b) + 1) (distance (x :: a) b + 1))
      (distance a b + if x = y then 0 else 1) := by
  rw [distance]

/-- There is an alignment of as many edits as the distance says. -/
theorem aligned_distance (a b : List α) : Aligned (distance a b) a b := by
  induction a, b using distance.induct with
  | case1 b =>
      rw [distance_nil_left]
      exact Aligned.nil_left b
  | case2 a =>
      rw [distance_nil_right]
      exact Aligned.nil_right a
  | case3 x a y b delete insert both =>
      rw [distance_cons]
      rcases min_choice (min (distance a (y :: b) + 1) (distance (x :: a) b + 1))
        (distance a b + if x = y then 0 else 1) with isMin | isMin
      · rw [isMin]
        rcases min_choice (distance a (y :: b) + 1) (distance (x :: a) b + 1) with
          isMin | isMin
        · rw [isMin]
          exact delete.delete x
        · rw [isMin]
          exact insert.insert y
      · rw [isMin]
        by_cases same : x = y
        · rw [if_pos same, same]
          exact both.keep y
        · rw [if_neg same]
          exact both.substitute x y

/-- No alignment has fewer. -/
theorem Aligned.distance_le (aligned : Aligned n a b) : distance a b ≤ n := by
  induction aligned with
  | nil => simp
  | keep x _ inductionHypothesis =>
      rw [distance_cons, if_pos rfl]
      exact (min_le_right _ _).trans inductionHypothesis
  | substitute x y _ inductionHypothesis =>
      rw [distance_cons]
      refine (min_le_right _ _).trans ?_
      split <;> omega
  | @delete n a b x _ inductionHypothesis =>
      cases b with
      | nil => simpa using inductionHypothesis
      | cons y b =>
          rw [distance_cons]
          exact (min_le_left _ _).trans ((min_le_left _ _).trans (by omega))
  | @insert n a b y _ inductionHypothesis =>
      cases a with
      | nil => simpa using inductionHypothesis
      | cons x a =>
          rw [distance_cons]
          exact (min_le_left _ _).trans ((min_le_right _ _).trans (by omega))

theorem Edits.distance_le (edits : Edits n a b) : distance a b ≤ n := by
  obtain ⟨k, bound, aligned⟩ := edits.aligned
  exact aligned.distance_le.trans bound

/-- **The distance is the least number of edits.** -/
theorem isLeast_distance (a b : List α) : IsLeast {n | Edits n a b} (distance a b) :=
  ⟨(aligned_distance a b).edits, fun _ edits => edits.distance_le⟩

/-! ## The metric -/

theorem distance_symm (a b : List α) : distance a b = distance b a :=
  Nat.le_antisymm (aligned_distance b a).symm.distance_le (aligned_distance a b).symm.distance_le

theorem distance_eq_zero_iff : distance a b = 0 ↔ a = b := by
  constructor
  · exact (aligned_distance a b).eq_of_zero
  · rintro rfl
    exact Nat.le_zero.mp (Aligned.refl a).distance_le

theorem distance_triangle (a b c : List α) : distance a c ≤ distance a b + distance b c := by
  obtain ⟨k, bound, whole⟩ := (aligned_distance a b).trans (aligned_distance b c)
  exact whole.distance_le.trans bound

/-! ## Recursion on the last elements -/

theorem distance_reverse (a b : List α) : distance a.reverse b.reverse = distance a b := by
  refine Nat.le_antisymm (aligned_distance a b).reverse.distance_le ?_
  have back := (aligned_distance a.reverse b.reverse).reverse.distance_le
  rwa [List.reverse_reverse, List.reverse_reverse] at back

theorem distance_concat (a b : List α) (x y : α) :
    distance (a ++ [x]) (b ++ [y]) = min (min (distance a (b ++ [y]) + 1)
      (distance (a ++ [x]) b + 1)) (distance a b + if x = y then 0 else 1) := by
  rw [← distance_reverse (a ++ [x]) (b ++ [y]), ← distance_reverse a (b ++ [y]),
    ← distance_reverse (a ++ [x]) b, ← distance_reverse a b]
  simp only [List.reverse_append, List.reverse_singleton, List.singleton_append]
  exact distance_cons x y a.reverse b.reverse

/-- No more edits than the longer list has elements. -/
theorem distance_le (a b : List α) : distance a b ≤ max a.length b.length := by
  induction a generalizing b with
  | nil => simp
  | cons x a inductionHypothesis =>
      cases b with
      | nil => simp
      | cons y b =>
          have rest := inductionHypothesis b
          rw [distance_cons]
          refine (min_le_right _ _).trans ?_
          rw [List.length_cons, List.length_cons]
          split <;> omega

end Kjdmud.Lib.EditDistance
