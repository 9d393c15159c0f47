/-!
# Programs that ask

A program that puts questions to its surroundings and goes on with whatever they answer.  A
statement about every question it can put is a statement about all answers at once.
-/

namespace Kjdmud

universe u v w

/-- A program with questions `Q` and, for each of them, answers of a type of its own. -/
inductive Asking (Q : Type u) (A : Q → Type v) (α : Type w) : Type (max u v w)
  | done (result : α)
  | ask (q : Q) (next : A q → Asking Q A α)

namespace Asking

variable {Q : Type u} {A : Q → Type v} {α β : Type w}

/-- One program after another. -/
def bind : Asking Q A α → (α → Asking Q A β) → Asking Q A β
  | done result, next => next result
  | ask q continue_, next => ask q fun a => (continue_ a).bind next

/-- A question for each element of a list, and the results in order. -/
def forEach (program : α → Asking Q A β) : List α → Asking Q A (List β)
  | [] => done []
  | x :: rest =>
      (program x).bind fun y => (forEach program rest).bind fun ys => done (y :: ys)

/-- Every question, whatever the answers before it were. -/
def Every (P : Q → Prop) : Asking Q A α → Prop
  | done _ => True
  | ask q next => P q ∧ ∀ a, (next a).Every P

/-- The program puts a question before it does anything else. -/
def Opens : Asking Q A α → Prop
  | done _ => False
  | ask _ _ => True

variable {P : Q → Prop}

@[simp]
theorem every_done (result : α) : (done result : Asking Q A α).Every P :=
  True.intro

theorem Every.bind {program : Asking Q A α} {next : α → Asking Q A β}
    (first : program.Every P) (later : ∀ result, (next result).Every P) :
    (program.bind next).Every P := by
  induction program with
  | done result => exact later result
  | ask q continue_ ih => exact ⟨first.1, fun a => ih a (first.2 a)⟩

theorem Every.forEach {program : α → Asking Q A β} {list : List α}
    (each : ∀ x ∈ list, (program x).Every P) : (Asking.forEach program list).Every P := by
  induction list with
  | nil => exact every_done _
  | cons x rest ih =>
      have first := each x List.mem_cons_self
      have others := ih fun y member => each y (List.mem_cons_of_mem x member)
      exact first.bind fun y => others.bind fun ys => every_done _

/-- What asks first is not yet done. -/
theorem Opens.ne_done {program : Asking Q A α} (opens : program.Opens) (result : α) :
    done result ≠ program := by
  intro same
  rw [← same] at opens
  exact opens

end Asking

end Kjdmud
