import Kjdmud.Lib.Acyclic
import Mathlib.Data.Finset.Card

/-!
# Walks over a graph with a bounded stack

A recursive writer visits a node of a graph, where it finds texts to write, nodes to visit in
their place, and exceptions to raise.  One unit of depth is one level of the recursion.  The
walk comes to an end exactly when no node that it enters is below itself; then the depth it
needs is at most one more than the number of nodes that enter others.
-/

namespace Kjdmud.Walk

open Relation

universe u v w

/-- What a visit finds: a text, a node to visit, an exception to raise. -/
inductive Piece (β : Type u) (N : Type v) (E : Type w)
  | text (s : List β)
  | node (n : N)
  | raise (e : E)

variable {β : Type u} {N : Type v} {E : Type w}

/-- The text of the pieces of a visit, with a recursive call for each node; an exception ends
the walk. -/
def emit (recurse : N → Option (Except E (List β))) :
    List (Piece β N E) → Option (Except E (List β))
  | [] => some (.ok [])
  | .text s :: rest => (emit recurse rest).map fun written => written.map (s ++ ·)
  | .raise e :: _ => some (.error e)
  | .node n :: rest =>
      match recurse n with
      | none => none
      | some (.error e) => some (.error e)
      | some (.ok s) => (emit recurse rest).map fun written => written.map (s ++ ·)

section Emit

variable (recurse : N → Option (Except E (List β))) (rest : List (Piece β N E))

theorem emit_text (s : List β) : emit recurse (.text s :: rest) =
    (emit recurse rest).map fun written => written.map (s ++ ·) := by
  rw [emit]

theorem emit_node (n : N) : emit recurse (.node n :: rest) =
    match recurse n with
    | none => none
    | some (.error e) => some (.error e)
    | some (.ok s) => (emit recurse rest).map fun written => written.map (s ++ ·) := by
  rw [emit]

end Emit

variable (visit : N → List (Piece β N E))

/-- The walk from a node with so many levels left; `none` when they do not suffice. -/
def write : Nat → N → Option (Except E (List β))
  | 0, _ => none
  | depth + 1, n => emit (write depth) (visit n)

/-- Nothing is raised at the node or below it, and nothing below it is below itself. -/
inductive Quiet : N → Prop
  | mk {n : N} (calm : ∀ e, .raise e ∉ visit n) (below : ∀ m, .node m ∈ visit n → Quiet m) :
      Quiet n

/-- The walk enters `m` from `n`: what stands in front of it lets the walk come there. -/
def Enters (n m : N) : Prop :=
  ∃ before after, visit n = before ++ .node m :: after ∧ (∀ e, .raise e ∉ before) ∧
    ∀ k, .node k ∈ before → Quiet visit k

/-- The walk comes to a node that is below itself. -/
def Looped (n : N) : Prop :=
  ∃ m, ReflTransGen (Enters visit) n m ∧ TransGen (Enters visit) m m

variable {visit}

/-! ## One visit -/

/-- A visit ends exactly when the recursion ends on every node that the walk comes to; what
lets it pass is known of a node. -/
theorem emit_isSome_iff {recurse : N → Option (Except E (List β))} {Passes : N → Prop}
    (passes : ∀ k s, recurse k = some (.ok s) → Passes k)
    (stays : ∀ k e, Passes k → recurse k ≠ some (.error e)) (pieces : List (Piece β N E)) :
    (emit recurse pieces).isSome ↔
      ∀ before m after, pieces = before ++ .node m :: after → (∀ e, .raise e ∉ before) →
        (∀ k, .node k ∈ before → Passes k) → (recurse m).isSome := by
  induction pieces with
  | nil =>
      refine iff_of_true rfl fun before m after same => ?_
      cases before <;> cases same
  | cons piece rest ih =>
      cases piece with
      | text s =>
          rw [emit_text, Option.isSome_map, ih]
          constructor
          · intro ends before m after same calm known
            cases before with
            | nil => cases same
            | cons first before =>
                cases same
                exact ends before m after rfl (fun e member => calm e (.tail _ member))
                  fun k member => known k (.tail _ member)
          · rintro ends before m after rfl calm known
            refine ends (.text s :: before) m after rfl ?_ ?_
            · rintro e (_ | ⟨_, member⟩)
              exact calm e member
            · rintro k (_ | ⟨_, member⟩)
              exact known k member
      | raise e =>
          refine iff_of_true rfl fun before m after same calm => ?_
          cases before with
          | nil => cases same
          | cons first before =>
              cases same
              exact absurd List.mem_cons_self (calm e)
      | node n =>
          rw [emit_node]
          cases first : recurse n with
          | none =>
              refine iff_of_false (by simp) fun ends => ?_
              have here := ends [] n rest rfl (fun e member => by cases member)
                fun k member => by cases member
              rw [first] at here
              cases here
          | some result =>
              cases result with
              | error e =>
                  refine iff_of_true rfl fun before m after same calm known => ?_
                  cases before with
                  | nil =>
                      cases same
                      rw [first]
                      rfl
                  | cons piece before =>
                      cases same
                      exact absurd first (stays n e (known n List.mem_cons_self))
              | ok s =>
                  dsimp only
                  rw [Option.isSome_map, ih]
                  constructor
                  · intro ends before m after same calm known
                    cases before with
                    | nil =>
                        cases same
                        rw [first]
                        rfl
                    | cons piece before =>
                        cases same
                        exact ends before m after rfl
                          (fun e member => calm e (.tail _ member))
                          fun k member => known k (.tail _ member)
                  · rintro ends before m after rfl calm known
                    refine ends (.node n :: before) m after rfl ?_ ?_
                    · rintro e (_ | ⟨_, member⟩)
                      exact calm e member
                    · rintro k (_ | ⟨_, member⟩)
                      · exact passes n s first
                      · exact known k member

/-- No visit raises anything where nothing is raised below. -/
theorem emit_ne_error {recurse : N → Option (Except E (List β))} {pieces : List (Piece β N E)}
    (calm : ∀ e, .raise e ∉ pieces)
    (below : ∀ k e, .node k ∈ pieces → recurse k ≠ some (.error e)) (e : E) :
    emit recurse pieces ≠ some (.error e) := by
  induction pieces with
  | nil =>
      intro raised
      cases raised
  | cons piece rest ih =>
      have later := ih (fun e member => calm e (.tail _ member))
        fun k e member => below k e (.tail _ member)
      have mapped : ∀ s : List β,
          (emit recurse rest).map (fun written => written.map (s ++ ·)) ≠ some (.error e) := by
        intro s raised
        cases ended : emit recurse rest with
        | none =>
            rw [ended] at raised
            cases raised
        | some result =>
            rw [ended] at raised
            cases result with
            | ok text => cases raised
            | error e' =>
                cases raised
                exact later ended
      cases piece with
      | text s => exact mapped s
      | raise e' => exact absurd List.mem_cons_self (calm e')
      | node n =>
          rw [emit_node]
          cases first : recurse n with
          | none =>
              intro raised
              cases raised
          | some result =>
              cases result with
              | ok s => exact mapped s
              | error e' => exact absurd first (below n e' List.mem_cons_self)

/-- What a visit that ends with a text has passed. -/
theorem emit_ok {recurse : N → Option (Except E (List β))} {pieces : List (Piece β N E)}
    {s : List β} (written : emit recurse pieces = some (.ok s)) :
    (∀ e, .raise e ∉ pieces) ∧ ∀ k, .node k ∈ pieces → ∃ t, recurse k = some (.ok t) := by
  induction pieces generalizing s with
  | nil => exact ⟨fun e => List.not_mem_nil, fun k member => absurd member List.not_mem_nil⟩
  | cons piece rest ih =>
      have mapped : ∀ {t : List β},
          (emit recurse rest).map (fun written => written.map (t ++ ·)) = some (.ok s) →
            ∃ s', emit recurse rest = some (.ok s') := by
        intro t same
        rcases Option.map_eq_some_iff.mp same with ⟨result, ended, text⟩
        cases result with
        | error e => cases text
        | ok s' => exact ⟨s', ended⟩
      cases piece with
      | text t =>
          rcases mapped written with ⟨s', ended⟩
          have later := ih ended
          constructor
          · rintro e (_ | ⟨_, member⟩)
            exact later.1 e member
          · rintro k (_ | ⟨_, member⟩)
            exact later.2 k member
      | raise e => cases written
      | node n =>
          rw [emit_node] at written
          cases first : recurse n with
          | none =>
              rw [first] at written
              cases written
          | some result =>
              rw [first] at written
              cases result with
              | error e => cases written
              | ok t =>
                  rcases mapped written with ⟨s', ended⟩
                  have later := ih ended
                  constructor
                  · rintro e (_ | ⟨_, member⟩)
                    exact later.1 e member
                  · rintro k (_ | ⟨_, member⟩)
                    · exact ⟨t, first⟩
                    · exact later.2 k member

/-- A text in front of what is written. -/
theorem emit_text_ok {recurse : N → Option (Except E (List β))} {rest : List (Piece β N E)}
    {t : List β} (s : List β) (written : emit recurse rest = some (.ok t)) :
    emit recurse (.text s :: rest) = some (.ok (s ++ t)) := by
  rw [emit_text, written]
  rfl

/-- A recursive call in front of what is written. -/
theorem emit_node_ok {recurse : N → Option (Except E (List β))} {rest : List (Piece β N E)}
    {n : N} {s t : List β} (first : recurse n = some (.ok s))
    (written : emit recurse rest = some (.ok t)) :
    emit recurse (.node n :: rest) = some (.ok (s ++ t)) := by
  rw [emit_node, first, written]
  rfl

/-- The pieces of one visit are written one behind the other. -/
theorem emit_append_ok {recurse : N → Option (Except E (List β))}
    {pieces rest : List (Piece β N E)} {s t : List β}
    (first : emit recurse pieces = some (.ok s)) (second : emit recurse rest = some (.ok t)) :
    emit recurse (pieces ++ rest) = some (.ok (s ++ t)) := by
  induction pieces generalizing s with
  | nil =>
      cases first
      exact second
  | cons piece pieces ih =>
      cases piece with
      | text u =>
          rcases Option.map_eq_some_iff.mp first with ⟨result, ended, same⟩
          cases result with
          | error e => cases same
          | ok s' =>
              cases same
              rw [List.append_assoc]
              exact emit_text_ok u (ih ended)
      | raise e => cases first
      | node n =>
          rw [emit_node] at first
          cases called : recurse n with
          | none =>
              rw [called] at first
              cases first
          | some result =>
              rw [called] at first
              cases result with
              | error e => cases first
              | ok u =>
                  rcases Option.map_eq_some_iff.mp first with ⟨result, ended, same⟩
                  cases result with
                  | error e => cases same
                  | ok s' =>
                      cases same
                      rw [List.append_assoc]
                      exact emit_node_ok called (ih ended)

/-! ## Walks -/

/-- A walk from a quiet node raises nothing. -/
theorem Quiet.write_ne_error {n : N} (quiet : Quiet visit n) (depth : Nat) (e : E) :
    write visit depth n ≠ some (.error e) := by
  induction quiet generalizing depth e with
  | mk calm below ih =>
      cases depth with
      | zero =>
          intro raised
          cases raised
      | succ depth => exact emit_ne_error calm (fun k e member => ih k member depth e) e

/-- A walk that ends with a text was one from a quiet node. -/
theorem quiet_of_write {n : N} {depth : Nat} {s : List β}
    (written : write visit depth n = some (.ok s)) : Quiet visit n := by
  induction depth generalizing n s with
  | zero => cases written
  | succ depth ih =>
      rcases emit_ok written with ⟨calm, below⟩
      refine .mk calm fun m member => ?_
      rcases below m member with ⟨t, ended⟩
      exact ih ended

/-- A walk ends exactly when it ends, one level deeper, from every node it enters. -/
theorem write_isSome_succ_iff {depth : Nat} {n : N} :
    (write visit (depth + 1) n).isSome ↔
      ∀ m, Enters visit n m → (write visit depth m).isSome := by
  rw [write, emit_isSome_iff (fun k s => quiet_of_write)
    (fun k e quiet => Quiet.write_ne_error quiet depth e)]
  constructor
  · rintro ends m ⟨before, after, same, calm, known⟩
    exact ends before m after same calm known
  · intro ends before m after same calm known
    exact ends m ⟨before, after, same, calm, known⟩

/-- What a walk comes to is walked with less depth. -/
theorem write_isSome_of_transGen {depth : Nat} {n m : N} (ends : (write visit depth n).isSome)
    (path : TransGen (Enters visit) n m) :
    ∃ less, less < depth ∧ (write visit less m).isSome := by
  have step : ∀ {depth k m}, (write visit depth k).isSome → Enters visit k m →
      ∃ less, less < depth ∧ (write visit less m).isSome := by
    intro depth k m ends entered
    cases depth with
    | zero => cases ends
    | succ depth => exact ⟨depth, Nat.lt_succ_self _, write_isSome_succ_iff.mp ends m entered⟩
  induction path with
  | single entered => exact step ends entered
  | tail _ entered ih =>
      rcases ih with ⟨less, smaller, ends⟩
      rcases step ends entered with ⟨least, smallest, ends⟩
      exact ⟨least, Nat.lt_trans smallest smaller, ends⟩

/-- A walk that ends comes to no node that is below itself. -/
theorem not_looped_of_isSome {depth : Nat} {n : N} (ends : (write visit depth n).isSome) :
    ¬ Looped visit n := by
  rintro ⟨m, reached, loop⟩
  have there : ∃ depth, (write visit depth m).isSome := by
    rcases reflTransGen_iff_eq_or_transGen.mp reached with same | path
    · exact ⟨depth, same ▸ ends⟩
    · rcases write_isSome_of_transGen ends path with ⟨less, _, ends⟩
      exact ⟨less, ends⟩
  rcases there with ⟨depth, ends⟩
  induction depth using Nat.strong_induction_on with
  | h depth ih =>
      rcases write_isSome_of_transGen ends loop with ⟨less, smaller, ends⟩
      exact ih less smaller ends

/-- Where no node is below itself, one level more than there are nodes that enter others
suffices. -/
theorem isSome_of_not_looped {n : N} (inner : Finset N) (straight : ¬ Looped visit n)
    (covered : ∀ k, ReflTransGen (Enters visit) n k → (∃ m, Enters visit k m) → k ∈ inner) :
    (write visit (inner.card + 1) n).isSome := by
  classical
  induction size : inner.card generalizing n inner with
  | zero =>
      refine write_isSome_succ_iff.mpr fun m entered => ?_
      have member := covered n .refl ⟨m, entered⟩
      rw [Finset.card_eq_zero.mp size] at member
      cases member
  | succ size' ih =>
      refine write_isSome_succ_iff.mpr fun m entered => ?_
      have member := covered n .refl ⟨m, entered⟩
      refine ih (inner.erase n) ?_ ?_ ?_
      · rintro ⟨k, reached, loop⟩
        exact straight ⟨k, .head entered reached, loop⟩
      · intro k reached enters
        refine Finset.mem_erase.mpr ⟨?_, covered k (.head entered reached) enters⟩
        rintro rfl
        exact straight ⟨k, .refl, .head' entered reached⟩
      · rw [Finset.card_erase_of_mem member, size, Nat.add_sub_cancel]

/-- More levels do not hurt. -/
theorem write_isSome_mono {depth more : Nat} {n : N} (enough : depth ≤ more)
    (ends : (write visit depth n).isSome) : (write visit more n).isSome := by
  induction depth generalizing n more with
  | zero => cases ends
  | succ depth ih =>
      cases more with
      | zero => cases enough
      | succ more =>
          refine write_isSome_succ_iff.mpr fun m entered => ?_
          exact ih (Nat.le_of_succ_le_succ enough) (write_isSome_succ_iff.mp ends m entered)

/-- A walk over a graph with few inner nodes ends within a depth they bound exactly when it
comes to no node that is below itself. -/
theorem write_isSome_iff {inner : Finset N} {bound : Nat} (few : inner.card ≤ bound)
    (covered : ∀ k m, Enters visit k m → k ∈ inner) (n : N) :
    (write visit (bound + 1) n).isSome ↔ ¬ Looped visit n := by
  constructor
  · exact not_looped_of_isSome
  · intro straight
    have ends := isSome_of_not_looped _ straight fun k _ enters => covered k _ enters.choose_spec
    exact write_isSome_mono (Nat.succ_le_succ few) ends

end Kjdmud.Walk
