import Kjdmud.Lib.Acyclic
import Kjdmud.Lib.Fuel
import Mathlib.Data.List.Basic

/-!
# Doubly linked chains

Every element may have a link up and a link down.  This file gives the operations on
such links (taking an element out, cutting below it, putting one on top of another,
forgetting elements), what they keep, and the walks along the links that a program
makes: to the end of a chain, and to the first element where something is found.
-/

namespace Kjdmud

open Relation
open Kjdmud.Fuel (Converges)

universe u v

/-- The links of doubly linked chains. -/
@[ext]
structure Chains (α : Type u) where
  up : α → Option α
  down : α → Option α

namespace Chains

variable {α : Type u} {β : Type v}

/-- `a` is right above `b`. -/
def Above (c : Chains α) (a b : α) : Prop :=
  c.down a = some b

/-- The links of a chain fit together, and no chain closes. -/
structure Sound (c : Chains α) : Prop where
  mutual_ : ∀ a b, c.down a = some b ↔ c.up b = some a
  acyclic : Acyclic c.Above

/-- No links at all. -/
theorem sound_empty : Sound (⟨fun _ => none, fun _ => none⟩ : Chains α) where
  mutual_ a b := by
    constructor
    · intro link
      cases link
    · intro link
      cases link
  acyclic a cycle := by
    rcases TransGen.head'_iff.mp cycle with ⟨b, link, _⟩
    cases link

section Sound

variable {c : Chains α} (sound : Sound c)

include sound

theorem Sound.irrefl (a : α) : c.down a ≠ some a :=
  fun link => sound.acyclic a (.single link)

theorem Sound.up_irrefl (a : α) : c.up a ≠ some a :=
  fun link => sound.irrefl a ((sound.mutual_ a a).mpr link)

/-- An element is right above one other. -/
theorem Sound.down_unique {a a' b : α} (link : c.down a = some b) (link' : c.down a' = some b) :
    a = a' := by
  have up := (sound.mutual_ a b).mp link
  rw [(sound.mutual_ a' b).mp link'] at up
  exact (Option.some.inj up).symm

theorem Sound.up_unique {a b b' : α} (link : c.up b = some a) (link' : c.up b' = some a) :
    b = b' := by
  have down := (sound.mutual_ a b).mpr link
  rw [(sound.mutual_ a b').mpr link'] at down
  exact (Option.some.inj down).symm

end Sound

section Operations

variable [DecidableEq α]

/-- Take an element out of its chain; its neighbours become neighbours. -/
def splice (c : Chains α) (x : α) : Chains α where
  up a := if a = x then none else if c.down x = some a then c.up x else c.up a
  down a := if a = x then none else if c.up x = some a then c.down x else c.down a

/-- Drop the link below an element. -/
def cut (c : Chains α) (x : α) : Chains α where
  up a := if c.down x = some a then none else c.up a
  down a := if a = x then none else c.down a

/-- Drop the link above an element. -/
def cutAbove (c : Chains α) (x : α) : Chains α :=
  match c.up x with
  | some a => c.cut a
  | none => c

/-- Put an element on top of another. -/
def attach (c : Chains α) (x y : α) : Chains α where
  up a := if a = y then some x else c.up a
  down a := if a = x then some y else c.down a

/-- Forget the links of some elements. -/
def forget (c : Chains α) (gone : α → Bool) : Chains α where
  up a := if gone a then none else (c.up a).filter fun b => !gone b
  down a := if gone a then none else (c.down a).filter fun b => !gone b

variable {c : Chains α} (sound : Sound c)

include sound

theorem Sound.splice (x : α) : Sound (c.splice x) where
  mutual_ a b := by
    simp only [Chains.splice]
    constructor
    · intro link
      split at link
      · cases link
      · rename_i other
        split at link
        · rename_i above
          have below : b ≠ x := by
            rintro rfl
            exact sound.irrefl _ link
          rw [if_neg below, if_pos link]
          exact above
        · rename_i apart
          have up := (sound.mutual_ a b).mp link
          have below : b ≠ x := by
            rintro rfl
            exact apart up
          have beside : c.down x ≠ some b := fun link' =>
            other (sound.down_unique link link')
          rw [if_neg below, if_neg beside]
          exact up
    · intro link
      split at link
      · cases link
      · rename_i other
        split at link
        · rename_i below
          have above : a ≠ x := by
            rintro rfl
            exact sound.up_irrefl _ link
          rw [if_neg above, if_pos link]
          exact below
        · rename_i apart
          have down := (sound.mutual_ a b).mpr link
          have above : a ≠ x := by
            rintro rfl
            exact apart down
          have beside : c.up x ≠ some a := fun link' =>
            other (sound.up_unique link link')
          rw [if_neg above, if_neg beside]
          exact down
  acyclic := by
    apply sound.acyclic.of_paths
    intro a b link
    simp only [Above, Chains.splice] at link
    split at link
    · cases link
    · split at link
      · rename_i above
        have first : c.Above a x := (sound.mutual_ a x).mpr above
        exact (TransGen.single first).tail link
      · exact .single link

theorem Sound.cut (x : α) : Sound (c.cut x) where
  mutual_ a b := by
    simp only [Chains.cut]
    constructor
    · intro link
      split at link
      · cases link
      · rename_i other
        have beside : c.down x ≠ some b := fun link' =>
          other (sound.down_unique link link')
        rw [if_neg beside]
        exact (sound.mutual_ a b).mp link
    · intro link
      split at link
      · cases link
      · rename_i apart
        have down := (sound.mutual_ a b).mpr link
        have other : a ≠ x := by
          rintro rfl
          exact apart down
        rw [if_neg other]
        exact down
  acyclic := by
    apply sound.acyclic.mono
    intro a b link
    simp only [Above, Chains.cut] at link
    split at link
    · cases link
    · exact link

theorem Sound.cutAbove (x : α) : Sound (c.cutAbove x) := by
  unfold Chains.cutAbove
  cases c.up x with
  | some a => exact sound.cut a
  | none => exact sound

/-- Above an element only its own link is dropped. -/
theorem Sound.up_cutAbove (x a : α) :
    (c.cutAbove x).up a = if a = x then none else c.up a := by
  unfold Chains.cutAbove
  cases above : c.up x with
  | some b =>
      have below := (sound.mutual_ b x).mpr above
      simp only [Chains.cut, below, Option.some.injEq, eq_comm (a := x)]
  | none =>
      by_cases same : a = x
      · rw [if_pos same, same]
        exact above
      · rw [if_neg same]

omit sound in
theorem down_cutAbove (x a : α) :
    (c.cutAbove x).down a = if c.up x = some a then none else c.down a := by
  unfold Chains.cutAbove
  cases c.up x with
  | some b => simp only [Chains.cut, Option.some.injEq, eq_comm (a := a)]
  | none => rfl

omit [DecidableEq α] in
theorem Sound.forget (gone : α → Bool) : Sound (c.forget gone) where
  mutual_ a b := by
    simp only [Chains.forget]
    constructor
    · intro link
      split at link
      · cases link
      · rename_i here
        rcases Option.filter_eq_some_iff.mp link with ⟨down, there⟩
        have up := (sound.mutual_ a b).mp down
        rw [if_neg (by simpa using there)]
        exact Option.filter_eq_some_iff.mpr ⟨up, by simpa using here⟩
    · intro link
      split at link
      · cases link
      · rename_i here
        rcases Option.filter_eq_some_iff.mp link with ⟨up, there⟩
        have down := (sound.mutual_ a b).mpr up
        rw [if_neg (by simpa using there)]
        exact Option.filter_eq_some_iff.mpr ⟨down, by simpa using here⟩
  acyclic := by
    apply sound.acyclic.mono
    intro a b link
    simp only [Above, Chains.forget] at link
    split at link
    · cases link
    · exact (Option.filter_eq_some_iff.mp link).1

/-- An element that shadows nothing may go on top of a chain that is not its own. -/
theorem Sound.attach {x y : α} (free : c.down x = none) (top : c.up y = none)
    (apart : ¬ ReflTransGen c.Above y x) : Sound (c.attach x y) where
  mutual_ a b := by
    simp only [Chains.attach]
    constructor
    · intro link
      split at link
      · rename_i same
        cases link
        rw [if_pos rfl, same]
      · have up := (sound.mutual_ a b).mp link
        have below : b ≠ y := by
          rintro rfl
          rw [top] at up
          cases up
        rw [if_neg below]
        exact up
    · intro link
      split at link
      · rename_i same
        cases link
        rw [if_pos rfl, same]
      · have down := (sound.mutual_ a b).mpr link
        have above : a ≠ x := by
          rintro rfl
          rw [free] at down
          cases down
        rw [if_neg above]
        exact down
  acyclic := by
    apply sound.acyclic.insert x y _ apart
    intro a b link
    simp only [Above, Chains.attach] at link
    split at link
    · rename_i same
      cases link
      exact .inr ⟨same, rfl⟩
    · exact .inl link

end Operations

/-! ## Walks along links -/

/-- Follow the links to the end. -/
def walk (next : α → Option α) : Nat → α → Option α
  | 0, _ => none
  | fuel + 1, a =>
      match next a with
      | some b => walk next fuel b
      | none => some a

/-- Follow the links to the first element where something is found. -/
def search (next : α → Option α) (find : α → Option β) : Nat → α → Option (Option (α × β))
  | 0, _ => none
  | fuel + 1, a =>
      match find a with
      | some found => some (some (a, found))
      | none =>
          match next a with
          | some b => search next find fuel b
          | none => some none

/-- The elements from `a` to the end of its links. -/
inductive Path (next : α → Option α) : α → List α → Prop
  | last {a : α} (end_ : next a = none) : Path next a [a]
  | step {a b : α} {rest : List α} (link : next a = some b) (path : Path next b rest) :
      Path next a (a :: rest)

section Path

variable {next : α → Option α} {a : α} {l : List α}

/-- Links that go down a well-founded relation end. -/
theorem exists_path (wellFounded : WellFounded fun b a => next a = some b) (a : α) :
    ∃ l, Path next a l := by
  induction a using wellFounded.induction with
  | h a ih =>
      cases link : next a with
      | none => exact ⟨[a], .last link⟩
      | some b =>
          rcases ih b link with ⟨rest, path⟩
          exact ⟨a :: rest, .step link path⟩

theorem Path.mem_self (path : Path next a l) : a ∈ l := by
  cases path <;> exact List.mem_cons_self

/-- A path depends on the links of its elements only. -/
theorem Path.congr (path : Path next a l) {next' : α → Option α}
    (same : ∀ b ∈ l, next' b = next b) : Path next' a l := by
  induction path with
  | last end_ => exact .last ((same _ List.mem_cons_self).trans end_)
  | step link _ ih =>
      apply Path.step ((same _ List.mem_cons_self).trans link)
      exact ih fun b mem => same b (List.mem_cons_of_mem _ mem)

/-- Everything on a path is reached. -/
theorem Path.reached (path : Path next a l) {b : α} (mem : b ∈ l) :
    ReflTransGen (fun a b => next a = some b) a b := by
  induction path with
  | last =>
      rw [List.mem_singleton] at mem
      subst mem
      exact .refl
  | step link _ ih =>
      rcases List.mem_cons.mp mem with rfl | mem
      · exact .refl
      · exact .head link (ih mem)

/-- A path comes to what it reaches. -/
theorem Path.mem_of_reached (path : Path next a l) {b : α}
    (reached : ReflTransGen (fun a b => next a = some b) a b) : b ∈ l := by
  induction path with
  | last end_ =>
      rcases reached.cases_head with rfl | ⟨c, link, _⟩
      · exact List.mem_singleton_self _
      · rw [end_] at link
        cases link
  | step link _ ih =>
      rcases reached.cases_head with rfl | ⟨c, link', behind⟩
      · exact List.mem_cons_self
      · rw [link] at link'
        cases link'
        exact List.mem_cons_of_mem _ (ih behind)

/-- A path stays inside what the links stay inside. -/
theorem Path.next_mem (path : Path next a l) {b b' : α} (mem : b ∈ l)
    (link : next b = some b') : b' ∈ l :=
  path.mem_of_reached ((path.reached mem).tail link)

/-- No element comes twice where nothing leads back to itself. -/
theorem Path.nodup (path : Path next a l)
    (acyclic : Acyclic fun a b => next a = some b) : l.Nodup := by
  induction path with
  | last => exact List.nodup_singleton _
  | step link path ih =>
      apply List.nodup_cons.mpr
      constructor
      · intro mem
        exact acyclic _ (.head' link (path.reached mem))
      · exact ih

theorem Path.walk (path : Path next a l) :
    ∃ end_, Converges (fun fuel => walk next fuel a) end_ ∧ l.getLast? = some end_ ∧
      next end_ = none := by
  induction path with
  | @last a end_ =>
      refine ⟨a, ?_, rfl, end_⟩
      apply Converges.step rfl
      simp only [Chains.walk, end_]
      exact .const a
  | @step a b rest link path ih =>
      rcases ih with ⟨top, converges, last, end_⟩
      refine ⟨top, ?_, ?_, end_⟩
      · apply Converges.step rfl
        simp only [Chains.walk, link]
        exact converges
      · cases path <;> simpa using last

/-- A search finds the first element of the path where there is something. -/
theorem Path.search (path : Path next a l) (find : α → Option β) :
    Converges (fun fuel => search next find fuel a)
      (l.findSome? fun x => (find x).map (x, ·)) := by
  induction path with
  | @last a end_ =>
      apply Converges.step rfl
      cases found : find a with
      | some fn =>
          simp only [Chains.search, found]
          simpa [found] using Converges.const _
      | none =>
          simp only [Chains.search, found, end_]
          simpa [found] using Converges.const _
  | @step a b rest link path ih =>
      apply Converges.step rfl
      cases found : find a with
      | some fn =>
          simp only [Chains.search, found]
          simpa [found] using Converges.const _
      | none =>
          simp only [Chains.search, found, link]
          simpa [found] using ih

end Path

end Chains

end Kjdmud
