import Mathlib.Data.List.Basic

/-!
# Memo tables

A memo is an association list in which the newest entry of a key counts.  It is
sound when the results it gives are right for their keys; what is right is a
relation, so that keys may be left open about which nothing is known.
-/

namespace Kjdmud.Lib.Memo

universe u v w x

variable {κ : Type u} {ρ : Type v} [BEq κ]

/-- The memo gives right results only. -/
def Sound (right : κ → ρ → Prop) (memo : List (κ × ρ)) : Prop :=
  ∀ key result, memo.lookup key = some result → right key result

variable {right : κ → ρ → Prop} {memo : List (κ × ρ)}

theorem sound_nil : Sound right [] := by
  intro key result found
  cases found

/-- A right result is stored. -/
theorem Sound.store [LawfulBEq κ] (sound : Sound right memo) {key : κ} {result : ρ}
    (isRight : right key result) : Sound right ((key, result) :: memo) := by
  intro key' result' found
  rw [List.lookup_cons] at found
  split at found
  · rename_i same
    rw [← Option.some.inj found, beq_iff_eq.mp same]
    exact isRight
  · exact sound key' result' found

/-- A question that goes through a memo: on a sound memo its answer is the given one, and
the memo stays sound. -/
def Answers {α : Type w} (right : κ → ρ → Prop) (ask : List (κ × ρ) → α × List (κ × ρ))
    (answer : α) : Prop :=
  ∀ memo, Sound right memo → (ask memo).1 = answer ∧ Sound right (ask memo).2

variable {ι : Type x} {α : Type w}

/-- Questions asked one after the other on one memo. -/
def askAll (ask : ι → List (κ × ρ) → α × List (κ × ρ)) :
    List ι → List (κ × ρ) → List α × List (κ × ρ)
  | [], memo => ([], memo)
  | question :: questions, memo =>
      let (answer, memo) := ask question memo
      let (answers, memo) := askAll ask questions memo
      (answer :: answers, memo)

/-- Where every single question is answered right, a sequence of them is. -/
theorem answers_askAll {ask : ι → List (κ × ρ) → α × List (κ × ρ)} {answer : ι → α}
    (each : ∀ question, Answers right (ask question) (answer question)) (questions : List ι) :
    Answers right (askAll ask questions) (questions.map answer) := by
  induction questions with
  | nil =>
      intro memo sound
      exact ⟨rfl, sound⟩
  | cons question questions inductionHypothesis =>
      intro memo sound
      obtain ⟨first, kept⟩ := each question memo sound
      obtain ⟨others, still⟩ := inductionHypothesis _ kept
      refine ⟨?_, still⟩
      rw [List.map_cons, ← first, ← others]
      rfl

end Kjdmud.Lib.Memo
