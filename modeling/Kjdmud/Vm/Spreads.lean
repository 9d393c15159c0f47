import Kjdmud.Vm.Evaluations

/-!
# Spread elements

The run of the `ExpandVarargs` instructions of a list: each expands one element in place, at a
distance from the top that is fixed when the code is generated.
-/

namespace Kjdmud.Vm

/-- A value is an array. -/
def Value.IsArray (v : Value) : Prop :=
  ∃ ref, v.data = .array ref

/-- The items of an array. -/
def World.spreadItems (w : World) (v : Value) : List Value :=
  match v.data with
  | .array ref => w.items ref
  | _ => []

/-- What an element adds to the list: its value, or the items of a marked array. -/
def World.contribution (w : World) (element : Value × Bool) : List Value :=
  if element.2 then w.spreadItems element.1 else [element.1]

/-- What arrives of a list. -/
def World.spread (w : World) (elements : List (Value × Bool)) : List Value :=
  elements.flatMap w.contribution

/-- The instructions that expand the marked elements. -/
def expansions : List Bool → List Instruction
  | [] => []
  | marked :: marks =>
      (if marked then [⟨.expandVarargs, int32 marks.length, 0⟩] else []) ++ expansions marks

/-! ## The machine integers -/

theorem int32_natCast {n : Nat} (small : n < 2 ^ 31) : int32 n = n := by
  unfold int32
  rw [Int.bmod_def]
  omega

theorem int32_eq_natCast {d : Int} {n : Nat} :
    int32 (d + n) = n ↔ n < 2 ^ 31 ∧ (2 ^ 32 : Int) ∣ d := by
  unfold int32
  rw [Int.bmod_def]
  omega

/-- Only the sum counts, however often it is cut down. -/
theorem int32_add_int32 (a b : Int) : int32 (int32 a + int32 b) = int32 (a + b) := by
  unfold int32
  simp only [Int.bmod_def]
  omega

/-! ## Expansion -/

variable {m : Machine} {p : Nat} {μ : Memory} {w : World}

/-- The memory with another pending count. -/
def Memory.withDelta (μ : Memory) (delta : Int) : Memory :=
  { μ with pendingVarargsDelta := delta }

/-- One marked element is replaced by its items. -/
theorem passes_expandVarargs {n : Nat} {v : Value} {above : List Value} (below : List Value)
    (placed : m.Placed [⟨.expandVarargs, int32 n, 0⟩] p) (depth : above.length = n)
    (small : n < 2 ^ 31) (isArray : v.IsArray) :
    m.Passes [⟨.expandVarargs, int32 n, 0⟩] p (μ.state (above ++ v :: below))
      ((μ.withDelta (μ.pendingVarargsDelta + ((μ.world.spreadItems v).length - 1))).state
        (above ++ ((μ.world.spreadItems v).reverse ++ below))) := by
  subst depth
  obtain ⟨ref, data⟩ := isArray
  rw [int32_natCast small] at placed ⊢
  refine Machine.passes_plain placed (by simp [Machine.Plain]) ?_
  change expandVarargs above.length (μ.state (above ++ v :: below)) = _
  have inside : above.length < (above ++ v :: below).length := by simp
  have found : (above ++ v :: below)[above.length]? = some v := by simp
  have kept : (above ++ v :: below).take above.length = above := List.take_left
  have rest : (above ++ v :: below).drop (above.length + 1) = below := by
    rw [← List.drop_drop, List.drop_left, List.drop_one, List.tail_cons]
  simp only [expandVarargs, Memory.state, Memory.slotBelow_natCast inside, found, Option.getD_some,
    data, kept, rest, World.spreadItems, Memory.withDelta, List.append_assoc]
  rfl

/-- The values of the elements on the stack are replaced by what they add to the list.  Those that
are done lie below, whatever they were. -/
theorem passes_expansions (elements : List (Value × Bool)) (below : List Value)
    (placed : m.Placed (expansions (elements.map Prod.snd)) p)
    (small : elements.length ≤ 2 ^ 31)
    (arrays : ∀ element ∈ elements, element.2 = true → element.1.IsArray) :
    m.Passes (expansions (elements.map Prod.snd)) p
      (μ.state ((elements.map Prod.fst).reverse ++ below))
      ((μ.withDelta (μ.pendingVarargsDelta +
          (((μ.world.spread elements).length : Int) - elements.length))).state
        ((μ.world.spread elements).reverse ++ below)) := by
  induction elements generalizing p μ below with
  | nil =>
      have same : μ.withDelta (μ.pendingVarargsDelta + (([] : List Value).length -
          ([] : List (Value × Bool)).length)) = μ := by
        simp [Memory.withDelta]
      change m.Passes [] p (μ.state below) (Memory.state _ below)
      rw [World.spread, List.flatMap_nil, same]
      exact Machine.passes_nil
  | cons element elements ih =>
      obtain ⟨v, marked⟩ := element
      have smaller : elements.length < 2 ^ 31 := Nat.lt_of_lt_of_le (Nat.lt_succ_self _) small
      have arrays' := fun element mem => arrays element (List.mem_cons_of_mem _ mem)
      have values : (((v, marked) :: elements).map Prod.fst).reverse ++ below =
          (elements.map Prod.fst).reverse ++ v :: below := by
        simp
      rw [values]
      cases marked with
      | false =>
          have rest := ih (μ := μ) (v :: below) placed smaller.le arrays'
          have contents : (μ.world.spread ((v, false) :: elements)).reverse ++ below =
              (μ.world.spread elements).reverse ++ v :: below := by
            simp [World.spread, World.contribution]
          have count : ((μ.world.spread ((v, false) :: elements)).length : Int) -
              ((v, false) :: elements).length =
                (μ.world.spread elements).length - elements.length := by
            simp [World.spread, World.contribution]
          rw [contents, count]
          exact rest
      | true =>
          have depth : (elements.map Prod.fst).reverse.length = elements.length := by simp
          have marks : (elements.map Prod.snd).length = elements.length := List.length_map _
          have both : m.Placed ([⟨.expandVarargs, int32 (elements.map Prod.snd).length, 0⟩] ++
              expansions (elements.map Prod.snd)) p := placed
          have first := passes_expandVarargs (μ := μ) below both.left
            (depth.trans marks.symm) (marks.trans_lt smaller) (arrays _ List.mem_cons_self rfl)
          have rest := ih (μ := μ.withDelta (μ.pendingVarargsDelta +
            (((μ.world.spreadItems v).length : Int) - 1))) ((μ.world.spreadItems v).reverse ++ below)
            both.right smaller.le arrays'
          have contents : (μ.world.spread ((v, true) :: elements)).reverse ++ below =
              (μ.world.spread elements).reverse ++ ((μ.world.spreadItems v).reverse ++ below) := by
            simp [World.spread, World.contribution]
          have count : μ.pendingVarargsDelta +
              (((μ.world.spread ((v, true) :: elements)).length : Int) -
                ((v, true) :: elements).length) =
              μ.pendingVarargsDelta + (((μ.world.spreadItems v).length : Int) - 1) +
                ((μ.world.spread elements).length - elements.length) := by
            simp [World.spread, World.contribution]
            omega
          rw [contents, count]
          exact first.append rest

/-! ## Taking the arguments -/

/-- The arguments on top of the stack are taken exactly when the count is theirs. -/
theorem takeArguments_iff {argc : Int} {args : List Value} (below : List Value) :
    takeArguments argc (args.reverse ++ below) = some (args, below) ↔ argc = args.length := by
  unfold takeArguments
  constructor
  · intro taken
    split at taken
    · contradiction
    · rename_i inside
      have length := congrArg List.length (Prod.mk.inj (Option.some.inj taken)).1
      rw [List.length_reverse, List.length_take] at length
      simp only [List.length_append, List.length_reverse] at inside length
      omega
  · rintro rfl
    have inside : ¬ ((args.length : Int) < 0 ∨
        (args.reverse ++ below).length < (args.length : Int).toNat) := by
      simp only [List.length_append, List.length_reverse]
      omega
    have taken : (args.reverse ++ below).take args.length = args.reverse := by
      rw [← List.length_reverse, List.take_left]
    have left : (args.reverse ++ below).drop args.length = below := by
      rw [← List.length_reverse, List.drop_left]
    rw [if_neg inside, Int.toNat_natCast, taken, left, List.reverse_reverse]

end Kjdmud.Vm
