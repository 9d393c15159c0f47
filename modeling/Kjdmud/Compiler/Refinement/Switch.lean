import Kjdmud.Compiler.Refinement.Loops

/-!
# Emitting switches

The dispatch of a switch emits one jump for each tested label and one for no
match; the loop over the bodies patches them as it reaches each label.
-/

namespace Kjdmud.Compiler

open Kjdmud.Vm Kjdmud.Structured Kjdmud.StateExcept

/-! ## Items -/

/-- Emitters that may be absent. -/
inductive OptionRealizes : Option (Gen Unit) → Option Lower → Prop
  | none : OptionRealizes none none
  | some {m : Gen Unit} {l : Lower} (realizes : Realizes m l) :
      OptionRealizes (some m) (some l)

/-- The emitters of an entry of a switch body and its structured code. -/
inductive ItemRealizes : SwitchItem → LowerItem → Prop
  | label {value rangeEnd : Option (Gen Unit)} {value' rangeEnd' : Option Lower}
      (realizesValue : OptionRealizes value value')
      (realizesRangeEnd : OptionRealizes rangeEnd rangeEnd') :
      ItemRealizes (.label value rangeEnd) (.label value' rangeEnd')
  | statement {m : Gen Unit} {l : Lower} (realizes : Realizes m l) :
      ItemRealizes (.statement m) (.statement l)

/-- Recorded jumps are no jumps to labels. -/
theorem record_labels {holes : List (Hole × Nat)} {loops loops' : List LoopContext}
    (recorded : record holes loops = some loops') (n : Nat) :
    positionsOf (.label n) holes = [] := by
  induction holes generalizing loops with
  | nil => rfl
  | cons hole holes ih =>
      obtain ⟨kind, pos⟩ := hole
      rw [record_cons] at recorded
      cases step : recordHole loops (kind, pos) with
      | none => simp [step] at recorded
      | some loops₁ =>
          cases kind with
          | label m => simp [recordHole] at step
          | brk => simpa [positionsOf] using ih (by simpa [step] using recorded)
          | cont => simpa [positionsOf] using ih (by simpa [step] using recorded)

/-- Recorded jumps all leave the dispatch of a switch. -/
theorem record_passesDispatch {holes : List (Hole × Nat)} {loops loops' : List LoopContext}
    (recorded : record holes loops = some loops') :
    holes.filter (fun hole => Hole.passesDispatch hole.1) = holes := by
  rw [List.filter_eq_self]
  rintro ⟨kind, pos⟩ inHoles
  cases kind with
  | label n =>
      have absent := record_labels recorded n
      simp only [positionsOf, List.map_eq_nil_iff, List.filter_eq_nil_iff,
        decide_eq_true_eq] at absent
      exact absurd rfl (absent _ inHoles)
  | _ => rfl

/-! ## The dispatch -/

/-- `emitSwitchTest` without the jump it ends with. -/
def emitSwitchTestValue (subjSlot : Nat) (value : Gen Unit)
    (rangeEnd : Option (Gen Unit)) : Gen Unit := do
  emit ⟨.pushLocal, subjSlot, 0⟩
  value
  match rangeEnd with
  | some rangeEnd =>
      emit ⟨.gte, 0, 0⟩
      emit ⟨.dup, 0, 0⟩
      let lowFailedJumpIdx ← emitJumpPlaceholder .jumpIfFalse
      emit ⟨.pop, 0, 0⟩
      emit ⟨.pushLocal, subjSlot, 0⟩
      rangeEnd
      emit ⟨.lte, 0, 0⟩
      patchJumpToHere lowFailedJumpIdx
  | none => emit ⟨.eq, 0, 0⟩
  emit ⟨.not, 0, 0⟩

theorem emitSwitchTest_eq (subjSlot : Nat) (value : Gen Unit)
    (rangeEnd : Option (Gen Unit)) :
    emitSwitchTest subjSlot value rangeEnd = (do
      emitSwitchTestValue subjSlot value rangeEnd
      emitJumpPlaceholder .jumpIfFalse) := by
  cases rangeEnd <;> simp [emitSwitchTest, emitSwitchTestValue, bind_assoc]

theorem Realizes.switchTest {subjSlot : Nat} {value : Gen Unit} {value' : Lower}
    {rangeEnd : Option (Gen Unit)} {rangeEnd' : Option Lower}
    (realizesValue : Realizes value value')
    (realizesRangeEnd : OptionRealizes rangeEnd rangeEnd') :
    Realizes (emitSwitchTestValue subjSlot value rangeEnd)
      (lowerSwitchTest subjSlot value' rangeEnd') := by
  apply (Realizes.one _).andThen
  apply realizesValue.andThen
  cases realizesRangeEnd with
  | none => exact (Realizes.one _).andThen (.one _)
  | some realizesRangeEnd =>
      have upper := ((Realizes.one ⟨.pop, 0, 0⟩).andThen ((Realizes.one
        ⟨.pushLocal, subjSlot, 0⟩).andThen (realizesRangeEnd.andThen
          (.one ⟨.lte, 0, 0⟩)))).ifThen
      have test := ((Realizes.one ⟨.gte, 0, 0⟩).andThen ((Realizes.one
        ⟨.dup, 0, 0⟩).andThen upper)).andThen (Realizes.one ⟨.not, 0, 0⟩)
      simpa [bind_assoc, inOrder] using test

/-- Emitting from `gen` to `gen'` has appended the dispatch code `c`, whose jumps
to labels are `jumps`. -/
structure EmittedTests (gen gen' : CodeGen) (c : Code Op) (jumps : List (Nat × Nat)) :
    Prop where
  functions : gen'.functions = gen.functions
  code : gen'.code = gen.code ++ layout openTargets c gen.code.length
  loops : record ((c.holes gen.code.length).filter fun hole => Hole.passesDispatch hole.1)
    gen.loopStack = some gen'.loopStack
  labels : ∀ n, positionsOf (.label n) (c.holes gen.code.length) =
    (jumps.lookup n).toList

/-- The labels that a dispatch tests are not the default. -/
structure TestedLabels (i : Nat) (items : List LowerItem) (jumps : List (Nat × Nat))
    (default : Option Nat) : Prop where
  above : ∀ n, n < i → jumps.lookup n = none
  inside : ∀ n, i + items.length ≤ n → jumps.lookup n = none
  default : ∀ n, i ≤ n → default = some n →
    jumps.lookup n = none ∧ ∃ rangeEnd, items[n - i]? = some (.label none rangeEnd)

/-- The last default of some items is an earlier one or one of them. -/
theorem defaultIndex_cases {i n : Nat} {items : List LowerItem} {start : Option Nat}
    (last : defaultIndex i items start = some n) : start = some n ∨ i ≤ n := by
  induction items generalizing i start with
  | nil => exact .inl last
  | cons item items ih =>
      match item with
      | .label none _ =>
          obtain here | later := ih last
          · exact .inr (Option.some.inj here).le
          · exact .inr (by omega)
      | .label (some _) _ | .statement _ =>
          obtain here | later := ih last
          · exact .inl here
          · exact .inr (by omega)

namespace TestedLabels

variable {i : Nat} {item : LowerItem} {items : List LowerItem}
  {jumps : List (Nat × Nat)} {default : Option Nat}

/-- An entry that is not tested. -/
theorem skip (tested : TestedLabels (i + 1) items jumps default)
    (isDefault : default = some i → ∃ rangeEnd, item = .label none rangeEnd) :
    TestedLabels i (item :: items) jumps default where
  above n below := tested.above n (by omega)
  inside n beyond := tested.inside n (by simp only [List.length_cons] at beyond; omega)
  default n above last := by
    obtain rfl | later := Nat.eq_or_lt_of_le above
    · obtain ⟨rangeEnd, rfl⟩ := isDefault last
      exact ⟨tested.above _ (Nat.lt_succ_self _), rangeEnd, by simp⟩
    · obtain ⟨untested, rangeEnd, found⟩ := tested.default n later last
      refine ⟨untested, rangeEnd, ?_⟩
      rwa [show n - i = (n - (i + 1)) + 1 by omega, List.getElem?_cons_succ]

/-- An entry that is tested. -/
theorem test (tested : TestedLabels (i + 1) items jumps default)
    (notDefault : default ≠ some i) (pos : Nat) :
    TestedLabels i (item :: items) ((i, pos) :: jumps) default where
  above n below := by
    rw [List.lookup_cons, beq_false_of_ne (by omega)]
    exact tested.above n (by omega)
  inside n beyond := by
    simp only [List.length_cons] at beyond
    rw [List.lookup_cons, beq_false_of_ne (by omega)]
    exact tested.inside n (by omega)
  default n above last := by
    have different : n ≠ i := by
      rintro rfl
      exact notDefault last
    obtain ⟨untested, rangeEnd, found⟩ := tested.default n (by omega) last
    refine ⟨?_, rangeEnd, ?_⟩
    · rw [List.lookup_cons, beq_false_of_ne different]
      exact untested
    · rwa [show n - i = (n - (i + 1)) + 1 by omega, List.getElem?_cons_succ]

end TestedLabels

/-- A tested label before the rest of a dispatch. -/
theorem EmittedTests.test {i : Nat} {gen gen₁ gen₂ gen' : CodeGen} {t c : Code Op}
    {jumps : List (Nat × Nat)} (value : Emitted gen gen₁ t)
    (placed : Writes gen₁ gen₂ (gen₁.code ++ [⟨.jumpIfFalse, -1, 0⟩]))
    (rest : EmittedTests gen₂ gen' c jumps) (fresh : jumps.lookup i = none) :
    EmittedTests gen gen' (.seq (.seq t (.branch i)) c)
      ((i, gen₁.code.length) :: jumps) := by
  have len₁ := value.length
  have len₂ : gen₂.code.length = gen.code.length + (t.size + 1) := by
    rw [placed.code, List.length_append, len₁]
    rfl
  have holes : (Code.seq (.seq t (.branch i)) c).holes gen.code.length =
      t.holes gen.code.length ++ (.label i, gen₁.code.length) ::
        c.holes gen₂.code.length := by
    simp [Code.holes, Code.size, len₁, len₂]
  refine ⟨?_, ?_, ?_, fun n => ?_⟩
  · rw [rest.functions, placed.functions, value.functions]
  · rw [rest.code, len₂, placed.code, value.code]
    simp [layout, Code.flatten, Code.size, assemble, openTargets, int32_placeholder]
  · rw [holes, List.filter_append, record_append, record_passesDispatch value.loops,
      value.loops, Option.bind_some, List.filter_cons_of_neg (by simp [Hole.passesDispatch]),
      ← placed.loops]
    exact rest.loops
  · have inTest := record_labels value.loops n
    simp only [positionsOf] at inTest
    rw [holes, positionsOf, List.filter_append, List.map_append, inTest, List.nil_append,
      List.lookup_cons]
    by_cases same : n = i
    · subst same
      have others := rest.labels n
      rw [fresh] at others
      simp only [positionsOf, Option.toList_none, List.map_eq_nil_iff] at others
      simp [others]
    · have others := rest.labels n
      simp only [positionsOf] at others
      rw [beq_false_of_ne same, List.filter_cons_of_neg (by simp [Ne.symm same]), others]

theorem emitSwitchTests_run {subjSlot i : Nat} {items : List SwitchItem}
    {items' : List LowerItem} {start last : Option Nat} {jumps : List (Nat × Nat)}
    {gen gen' : CodeGen} (related : List.Forall₂ ItemRealizes items items')
    (below : ∀ n, start = some n → n < i)
    (run : emitSwitchTests subjSlot i items start gen = .ok ((jumps, last), gen')) :
    (∃ c, lowerSwitchTests subjSlot i items' gen.toNames = .ok (c, gen'.toNames) ∧
      EmittedTests gen gen' c jumps) ∧
      last = defaultIndex i items' start ∧ TestedLabels i items' jumps last := by
  induction related generalizing i start last jumps gen with
  | nil =>
      obtain ⟨same, rfl⟩ := pure_eq_ok.1 run
      obtain ⟨rfl, rfl⟩ := Prod.mk.inj same
      refine ⟨⟨.skip, rfl, rfl, by simp, rfl, fun n => rfl⟩, rfl, fun n _ => rfl,
        fun n _ => rfl, fun n above isDefault => ?_⟩
      exact absurd (below n isDefault) (Nat.not_lt.2 above)
  | cons item rest ih =>
      have notHere : ∀ {start last : Option Nat} {items : List LowerItem},
          (∀ n, start = some n → n < i) → last = defaultIndex (i + 1) items start →
            last ≠ some i := by
        rintro start _ items below rfl isDefault
        obtain here | later := defaultIndex_cases isDefault
        · exact absurd (below i here) (Nat.lt_irrefl i)
        · omega
      have below' : ∀ n, start = some n → n < i + 1 := fun n here =>
        Nat.lt_succ_of_lt (below n here)
      cases item with
      | statement realizes =>
          obtain ⟨emitted, lastEq, tested⟩ := ih below' run
          exact ⟨emitted, lastEq,
            tested.skip fun isDefault => absurd isDefault (notHere below lastEq)⟩
      | label realizesValue realizesRangeEnd =>
          cases realizesValue with
          | none =>
              obtain ⟨emitted, lastEq, tested⟩ := ih (fun n here =>
                (Option.some.inj here) ▸ Nat.lt_succ_self i) run
              exact ⟨emitted, lastEq, tested.skip fun _ => ⟨_, rfl⟩⟩
          | some realizesValue =>
              simp only [emitSwitchTests, emitSwitchTest_eq, bind_assoc] at run
              obtain ⟨_, gen₁, testing, run⟩ := bind_eq_ok.1 run
              obtain ⟨t, lowerTest, emittedTest⟩ :=
                realizesValue.switchTest realizesRangeEnd gen gen₁ testing
              obtain ⟨_, gen₂, placing, run⟩ := bind_eq_ok.1 run
              obtain ⟨rfl, placed⟩ := emitJumpPlaceholder_run placing
              obtain ⟨⟨jumps', last'⟩, gen₃, testingRest, answer⟩ := bind_eq_ok.1 run
              obtain ⟨same, rfl⟩ := pure_eq_ok.1 answer
              obtain ⟨rfl, rfl⟩ := Prod.mk.inj same
              obtain ⟨⟨c, lowerRest, emittedRest⟩, lastEq, tested⟩ :=
                ih below' testingRest
              refine ⟨⟨.seq (.seq t (.branch i)) c, ?_,
                EmittedTests.test emittedTest placed emittedRest
                  (tested.above i (Nat.lt_succ_self i))⟩,
                lastEq, tested.test (notHere below lastEq) _⟩
              refine bind_eq_ok.2 ⟨.seq t (.branch i), gen₁.toNames,
                bind_eq_ok.2 ⟨t, _, lowerTest, rfl⟩, bind_eq_ok.2 ⟨c, _, ?_, rfl⟩⟩
              rw [← placed.names]
              exact lowerRest

/-! ## The bodies -/

/-- The targets in a dispatch once the labels from `i` on that stand in `bodies`
are patched. -/
def patchedTargets (t : Targets) (i count pc : Nat) (bodies : Code Op) : Targets
  | .label n => if i ≤ n ∧ n < i + count then bodies.labelPos pc (n - i) else t (.label n)
  | h => t h

/-- Patch the jump of a dispatch to a label, if it has one. -/
theorem patchLabel (i target : Nat) (dispatch : Code Op) (t : Targets)
    (before after : List Instruction) {pc : Nat} (position : before.length = pc) :
    patchAll (setOperand target) (positionsOf (.label i) (dispatch.holes pc))
        (before ++ (layout t dispatch pc ++ after)) =
      before ++ (layout (Code.redirect (fun h => decide (h = .label i)) target t) dispatch
        pc ++ after) :=
  patchAll_layout (fun h => decide (h = .label i)) target t dispatch pc before after position

/-- The patches at the start of body entry `i`. -/
def patchEntry (jumps : List (Nat × Nat)) (default : Option Nat) (noMatchIdx i : Nat) :
    Gen Unit := do
  match jumps.lookup i with
  | some jumpIdx => patchJumpToHere jumpIdx
  | none => pure ()
  if default = some i then patchJumpToHere noMatchIdx else pure ()

theorem patchEntry_run {dispatch : Code Op} {pc i count noMatchIdx : Nat} {t : Targets}
    {before after : List Instruction} {jumps : List (Nat × Nat)} {default : Option Nat}
    {gen gen' : CodeGen} {u : Unit}
    (labels : ∀ n, positionsOf (.label n) (dispatch.holes pc) =
      if n = default.getD count then [noMatchIdx] else (jumps.lookup n).toList)
    (untested : default = some i → jumps.lookup i = none) (inside : i < count)
    (position : before.length = pc)
    (code : gen.code = before ++ (layout t dispatch pc ++ after))
    (run : patchEntry jumps default noMatchIdx i gen = .ok (u, gen')) :
    Writes gen gen' (before ++ (layout (Code.redirect (fun h => decide (h = .label i))
      gen.code.length t) dispatch pc ++ after)) := by
  have patched := patchLabel i gen.code.length dispatch t before after position
  rw [labels i] at patched
  by_cases isDefault : default = some i
  · simp only [patchEntry, untested isDefault, isDefault, if_true] at run
    have written := patchJumpToHere_run run
    rw [isDefault, Option.getD_some, if_pos rfl, ← code] at patched
    exact ⟨written.names, written.functions, written.loops,
      written.code.trans patched⟩
  · have notNoMatch : i ≠ default.getD count := by
      cases default with
      | none => exact Nat.ne_of_lt inside
      | some d => exact fun same => isDefault (congrArg some same.symm)
    rw [if_neg notNoMatch, ← code] at patched
    cases found : jumps.lookup i with
    | none =>
        simp only [patchEntry, found, if_neg isDefault] at run
        obtain ⟨_, rfl⟩ := pure_eq_ok.1 run
        rw [found] at patched
        exact ⟨rfl, rfl, rfl, patched⟩
    | some jumpIdx =>
        simp only [patchEntry, found, if_neg isDefault] at run
        have written := patchJumpToHere_run run
        rw [found] at patched
        exact ⟨written.names, written.functions, written.loops,
          written.code.trans patched⟩

/-- The emitter of an entry of a switch body. -/
def SwitchItem.emitter : SwitchItem → Gen Unit
  | .label _ _ => pure ()
  | .statement emitter => emitter

/-- The structured code of an entry of a switch body. -/
def LowerItem.lower : LowerItem → Lower
  | .label _ _ => pure .skip
  | .statement lower => Code.stmt false <$> lower

theorem ItemRealizes.realizes {item : SwitchItem} {item' : LowerItem}
    (related : ItemRealizes item item') : Realizes item.emitter item'.lower := by
  cases related with
  | label => exact .skip
  | statement realizes => exact realizes.stmt false

theorem lowerSwitchBodies_cons (item : LowerItem) (items : List LowerItem) :
    lowerSwitchBodies (item :: items) =
      andThen item.lower (lowerSwitchBodies items) := by
  cases item <;> rfl

theorem emitSwitchBodies_cons {jumps : List (Nat × Nat)} {default : Option Nat}
    {noMatchIdx i : Nat} {item : SwitchItem} {items : List SwitchItem}
    (isDefault : default = some i → ∃ value rangeEnd, item = .label value rangeEnd) :
    emitSwitchBodies jumps default noMatchIdx i (item :: items) = (do
      patchEntry jumps default noMatchIdx i
      item.emitter
      emitSwitchBodies jumps default noMatchIdx (i + 1) items) := by
  by_cases here : default = some i
  · obtain ⟨value, rangeEnd, rfl⟩ := isDefault here
    cases found : jumps.lookup i <;>
      simp [emitSwitchBodies, patchEntry, SwitchItem.emitter, found, here, bind_assoc]
  · cases found : jumps.lookup i <;> cases item <;>
      simp [emitSwitchBodies, patchEntry, SwitchItem.emitter, found, here]

theorem patchedTargets_cons (t : Targets) (i count pc : Nat) (a c : Code Op) :
    patchedTargets (Code.redirect (fun h => decide (h = .label i)) pc t) (i + 1) count
        (pc + a.size) c =
      patchedTargets t i (count + 1) pc (.seq a c) := by
  funext h
  cases h with
  | brk => rfl
  | cont => rfl
  | label n =>
      obtain below | rfl | above := Nat.lt_trichotomy n i
      · have left : ¬ (i + 1 ≤ n ∧ n < i + 1 + count) := by omega
        have right : ¬ (i ≤ n ∧ n < i + (count + 1)) := by omega
        rw [patchedTargets, patchedTargets, if_neg left, if_neg right]
        simp [Code.redirect, Nat.ne_of_lt below]
      · have left : ¬ (n + 1 ≤ n ∧ n < n + 1 + count) := by omega
        have right : n ≤ n ∧ n < n + (count + 1) := by omega
        rw [patchedTargets, patchedTargets, if_neg left, if_pos right, Nat.sub_self]
        simp [Code.redirect, Code.labelPos]
      · by_cases inside : n < i + 1 + count
        · have left : i + 1 ≤ n ∧ n < i + 1 + count := ⟨above, inside⟩
          have right : i ≤ n ∧ n < i + (count + 1) := by omega
          rw [patchedTargets, patchedTargets, if_pos left, if_pos right,
            show n - i = (n - (i + 1)) + 1 by omega, Code.labelPos]
        · have left : ¬ (i + 1 ≤ n ∧ n < i + 1 + count) := by omega
          have right : ¬ (i ≤ n ∧ n < i + (count + 1)) := by omega
          rw [patchedTargets, patchedTargets, if_neg left, if_neg right]
          simp [Code.redirect, Nat.ne_of_gt above]

theorem emitSwitchBodies_run {dispatch : Code Op} {pc count noMatchIdx : Nat}
    {jumps : List (Nat × Nat)} {default : Option Nat}
    (labels : ∀ n, positionsOf (.label n) (dispatch.holes pc) =
      if n = default.getD count then [noMatchIdx] else (jumps.lookup n).toList)
    (untested : ∀ n, default = some n → jumps.lookup n = none)
    {before : List Instruction} (position : before.length = pc)
    {i : Nat} {items : List SwitchItem} {items' : List LowerItem}
    (related : List.Forall₂ ItemRealizes items items') (inside : i + items.length ≤ count)
    (isDefault : ∀ n, i ≤ n → default = some n →
      ∃ rangeEnd, items'[n - i]? = some (.label none rangeEnd))
    {t : Targets} {done : List Instruction} {gen gen' : CodeGen} {u : Unit}
    (code : gen.code = before ++ (layout t dispatch pc ++ done))
    (run : emitSwitchBodies jumps default noMatchIdx i items gen = .ok (u, gen')) :
    ∃ c, lowerSwitchBodies items' gen.toNames = .ok (c, gen'.toNames) ∧
      gen'.functions = gen.functions ∧
      gen'.code = before ++
        (layout (patchedTargets t i items.length gen.code.length c) dispatch pc ++
          (done ++ layout openTargets c gen.code.length)) ∧
      record (c.holes gen.code.length) gen.loopStack = some gen'.loopStack := by
  induction related generalizing i t done gen with
  | nil =>
      obtain ⟨_, rfl⟩ := pure_eq_ok.1 run
      have same : patchedTargets t i 0 gen.code.length .skip = t := by
        funext h
        cases h <;> simp [patchedTargets]
      exact ⟨.skip, rfl, rfl, by simpa [same] using code, rfl⟩
  | @cons item item' items items' related rest ih =>
      rw [emitSwitchBodies_cons fun here => by
        obtain ⟨rangeEnd, found⟩ := isDefault i le_rfl here
        rw [Nat.sub_self, List.getElem?_cons_zero, Option.some.injEq] at found
        subst found
        cases related
        exact ⟨_, _, rfl⟩] at run
      simp only [List.length_cons] at inside
      obtain ⟨_, gen₁, patching, run⟩ := bind_eq_ok.1 run
      have patched := patchEntry_run labels (untested i) (by omega) position code patching
      have len₁ : gen₁.code.length = gen.code.length := by
        rw [patched.code, code]
        simp
      obtain ⟨_, gen₂, emitting, run⟩ := bind_eq_ok.1 run
      obtain ⟨a, lowerItem, emitted⟩ := related.realizes gen₁ gen₂ emitting
      have len₂ := emitted.length
      rw [len₁] at len₂
      have code₂ : gen₂.code = before ++
          (layout (Code.redirect (fun h => decide (h = .label i)) gen.code.length t)
            dispatch pc ++ (done ++ layout openTargets a gen.code.length)) := by
        rw [emitted.code, len₁, patched.code]
        simp
      obtain ⟨c, lowerRest, functions, code', loops⟩ := ih (by omega)
        (fun n above last => by
          obtain ⟨rangeEnd, found⟩ := isDefault n (by omega) last
          rw [show n - i = (n - (i + 1)) + 1 by omega, List.getElem?_cons_succ] at found
          exact ⟨rangeEnd, found⟩)
        code₂ run
      refine ⟨.seq a c, ?_, ?_, ?_, ?_⟩
      · rw [lowerSwitchBodies_cons]
        refine bind_eq_ok.2 ⟨a, gen₂.toNames, ?_, bind_eq_ok.2 ⟨c, _, lowerRest, rfl⟩⟩
        rw [← patched.names]
        exact lowerItem
      · rw [functions, emitted.functions, patched.functions]
      · rw [code', len₂, patchedTargets_cons]
        simp
      · rw [Code.holes, record_append, ← patched.loops, ← len₁, emitted.loops,
          Option.bind_some, len₁, ← len₂]
        exact loops

/-! ## The switch -/

/-- The last label of the bodies of a switch is their end. -/
theorem labelPos_bodies {items : List LowerItem} {names names' : Names} {c : Code Op}
    (lowered : lowerSwitchBodies items names = .ok (c, names')) (pc : Nat) :
    c.labelPos pc items.length = pc + c.size := by
  induction items generalizing names c pc with
  | nil =>
      obtain ⟨rfl, _⟩ := pure_eq_ok.1 lowered
      rfl
  | cons item items ih =>
      rw [lowerSwitchBodies_cons] at lowered
      obtain ⟨a, _, _, lowered⟩ := bind_eq_ok.1 lowered
      obtain ⟨b, _, lowerRest, answer⟩ := bind_eq_ok.1 lowered
      obtain ⟨rfl, rfl⟩ := pure_eq_ok.1 answer
      rw [List.length_cons, Code.labelPos, ih lowerRest, Code.size]
      omega

/-- Patch the jump for no match to the end of a switch without default. -/
def patchNoMatch (default : Option Nat) (noMatchIdx : Nat) : Gen Unit :=
  if default = none then patchJumpToHere noMatchIdx else pure ()

/-- The part of `emitSwitchStmt` after the subject is stored. -/
def emitDispatched (subjSlot : Nat) (body : List SwitchItem) : Gen Unit := do
  let (jumpsToIndex, defaultBodyIndex) ← emitSwitchTests subjSlot 0 body none
  let noMatchJumpIdx ← emitJumpPlaceholder .jump
  openLoop true
  emitSwitchBodies jumpsToIndex defaultBodyIndex noMatchJumpIdx 0 body
  patchNoMatch defaultBodyIndex noMatchJumpIdx
  let ctx ← closeLoop
  patchAllToHere ctx.breakJumps

/-- The structured code of a switch after the subject is stored. -/
def lowerDispatched (subjSlot : Nat) (body : List LowerItem) : Lower := do
  let tests ← lowerSwitchTests subjSlot 0 body
  let bodies ← lowerSwitchBodies body
  let noMatch := (defaultIndex 0 body none).getD body.length
  pure (.switch (.seq tests (.goto noMatch)) bodies)

theorem emitSwitchStmt_eq (subject : Gen Unit) (body : List SwitchItem) :
    emitSwitchStmt subject body = (do
      let subjSlot ← declareSwitchSubject
      subject
      emit ⟨.storeLocal, subjSlot, 0⟩
      emitDispatched subjSlot body) := by
  simp only [emitSwitchStmt, emitDispatched]
  congr
  funext subjSlot
  congr
  funext _
  congr
  funext _
  congr
  funext result
  obtain ⟨jumps, default⟩ := result
  cases default <;> rfl

/-- The jumps of a dispatch with its jump for no match. -/
theorem dispatch_labels {tests : Code Op} {pc count noMatchIdx : Nat}
    {items : List LowerItem} {jumps : List (Nat × Nat)} {default : Option Nat}
    (labels : ∀ n, positionsOf (.label n) (tests.holes pc) = (jumps.lookup n).toList)
    (tested : TestedLabels 0 items jumps default) (length : items.length = count)
    (position : pc + tests.size = noMatchIdx) (n : Nat) :
    positionsOf (.label n) ((Code.seq tests (.goto (default.getD count))).holes pc) =
      if n = default.getD count then [noMatchIdx] else (jumps.lookup n).toList := by
  have split : positionsOf (.label n)
      ((Code.seq tests (.goto (default.getD count))).holes pc) =
        (jumps.lookup n).toList ++ if n = default.getD count then [noMatchIdx] else [] := by
    have inTests := labels n
    simp only [positionsOf] at inTests
    rw [positionsOf, Code.holes, List.filter_append, List.map_append, inTests, Code.holes,
      position]
    by_cases same : n = default.getD count
    · simp [same]
    · simp [same, Ne.symm same]
  rw [split]
  by_cases same : n = default.getD count
  · have untested : jumps.lookup n = none := by
      cases isDefault : default with
      | none => exact tested.inside n (by simp [same, isDefault, length])
      | some d =>
          rw [same, isDefault]
          exact (tested.default d (Nat.zero_le d) isDefault).1
    simp [if_pos same, untested]
  · simp [if_neg same]

/-- Code laid out for targets that agree on its holes. -/
theorem layout_congr {t t' : Targets} {c : Code Op} {pc : Nat}
    (same : ∀ hole ∈ c.holes pc, t hole.1 = t' hole.1) : layout t c pc = layout t' c pc := by
  rw [layout, layout, Code.flatten_congr same]

theorem patchNoMatch_run {dispatch bodies : Code Op} {pc bodiesPc noMatchIdx : Nat}
    {items : List LowerItem} {jumps : List (Nat × Nat)} {default : Option Nat}
    (labels : ∀ n, positionsOf (.label n) (dispatch.holes pc) =
      if n = default.getD items.length then [noMatchIdx] else (jumps.lookup n).toList)
    (tested : TestedLabels 0 items jumps default)
    (finish : bodies.labelPos bodiesPc items.length = bodiesPc + bodies.size)
    {before after : List Instruction} {gen gen' : CodeGen} {u : Unit}
    (position : before.length = pc)
    (code : gen.code = before ++
      (layout (patchedTargets openTargets 0 items.length bodiesPc bodies) dispatch pc ++
        after))
    (length : gen.code.length = bodiesPc + bodies.size)
    (run : patchNoMatch default noMatchIdx gen = .ok (u, gen')) :
    Writes gen gen' (before ++
      (layout (Code.dispatchTargets openTargets bodies bodiesPc) dispatch pc ++ after)) := by
  -- A label of the dispatch is the label for no match or a tested one.
  have known : ∀ n pos, (Hole.label n, pos) ∈ dispatch.holes pc →
      n = default.getD items.length ∨ n < items.length := by
    intro n pos inHoles
    by_cases noMatch : n = default.getD items.length
    · exact .inl noMatch
    · right
      by_contra beyond
      have none : positionsOf (.label n) (dispatch.holes pc) = [] := by
        rw [labels, if_neg noMatch, tested.inside n (by omega)]
        rfl
      simp only [positionsOf, List.map_eq_nil_iff, List.filter_eq_nil_iff,
        decide_eq_true_eq] at none
      exact none _ inHoles rfl
  have inner : ∀ n, n < items.length →
      patchedTargets openTargets 0 items.length bodiesPc bodies (.label n) =
        bodies.labelPos bodiesPc n := by
    intro n below
    simp [patchedTargets, below]
  cases isDefault : default with
  | some d =>
      rw [isDefault] at run
      obtain ⟨_, rfl⟩ := pure_eq_ok.1 run
      obtain ⟨_, rangeEnd, found⟩ := tested.default d (Nat.zero_le d) isDefault
      obtain ⟨below, _⟩ := List.getElem?_eq_some_iff.1 found
      refine ⟨rfl, rfl, rfl, ?_⟩
      rw [code, layout_congr]
      rintro ⟨kind, pos⟩ inHoles
      cases kind with
      | label n =>
          apply inner
          obtain rfl | inside := known n pos inHoles
          · simpa [isDefault] using below
          · exact inside
      | _ => rfl
  | none =>
      rw [isDefault] at run
      have written := patchJumpToHere_run run
      have patched := patchLabel items.length gen.code.length dispatch
        (patchedTargets openTargets 0 items.length bodiesPc bodies) before after position
      rw [labels, isDefault, Option.getD_none, if_pos rfl, ← code] at patched
      refine ⟨written.names, written.functions, written.loops,
        (written.code.trans patched).trans ?_⟩
      rw [layout_congr]
      rintro ⟨kind, pos⟩ inHoles
      cases kind with
      | label n =>
          by_cases last : n = items.length
          · subst last
            simp [Code.redirect, Code.dispatchTargets, finish, length]
          · obtain noMatch | inside := known n pos inHoles
            · exact absurd (by simpa [isDefault] using noMatch) last
            · simp [Code.redirect, Code.dispatchTargets, last, inner n inside]
      | _ => rfl

theorem Realizes.dispatched {subjSlot : Nat} {body : List SwitchItem}
    {body' : List LowerItem} (related : List.Forall₂ ItemRealizes body body') :
    Realizes (emitDispatched subjSlot body) (lowerDispatched subjSlot body') := by
  intro gen gen' run
  have count := related.length_eq
  obtain ⟨⟨jumps, default⟩, gen₁, testing, run⟩ := bind_eq_ok.1 run
  obtain ⟨⟨tests, lowerTests, emittedTests⟩, defaultEq, tested⟩ :=
    emitSwitchTests_run related (fun n here => absurd here (by simp)) testing
  obtain ⟨_, gen₂, placing, run⟩ := bind_eq_ok.1 run
  obtain ⟨rfl, placed⟩ := emitJumpPlaceholder_run placing
  obtain ⟨_, gen₃, opening, run⟩ := bind_eq_ok.1 run
  obtain ⟨names₃, functions₃, code₃, loops₃⟩ := openLoop_run opening
  obtain ⟨_, gen₄, emittingBodies, run⟩ := bind_eq_ok.1 run
  obtain ⟨_, gen₅, patchingNoMatch, run⟩ := bind_eq_ok.1 run
  obtain ⟨ctx, gen₆, closing, patchingBreaks⟩ := bind_eq_ok.1 run
  obtain ⟨rfl, names₆, functions₆, code₆, loops₆⟩ := closeLoop_run closing
  have breaks := patchAllToHere_run patchingBreaks
  generalize len : gen.code.length = n at *
  have len₁ : gen₁.code.length = n + tests.size := by
    rw [emittedTests.code, List.length_append, length_layout, len]
  have testLabels := emittedTests.labels
  rw [len] at testLabels
  have labels := dispatch_labels testLabels tested count.symm len₁.symm
  generalize dispatchEq : Code.seq tests (.goto (default.getD body.length)) = dispatch
    at labels
  have dispatchSize : dispatch.size = tests.size + 1 := by
    rw [← dispatchEq]
    rfl
  have code₃' : gen₃.code = gen.code ++ (layout openTargets dispatch n ++ []) := by
    rw [code₃, placed.code, emittedTests.code, len, ← dispatchEq]
    simp [layout, Code.flatten, assemble, openTargets, int32_placeholder]
  have len₃ : gen₃.code.length = n + dispatch.size := by
    rw [code₃']
    simp [len]
  obtain ⟨bodies, lowerBodies, functions₄, code₄, recorded⟩ :=
    emitSwitchBodies_run labels
      (fun n isDefault => (tested.default n (Nat.zero_le n) isDefault).1) len related
      (by omega) (fun n above isDefault => (tested.default n above isDefault).2)
      code₃' emittingBodies
  have len₄ : gen₄.code.length = n + dispatch.size + bodies.size := by
    rw [code₄]
    simp [len, len₃]
    omega
  rw [len₃] at code₄ recorded
  rw [count] at code₄ labels dispatchEq
  have patched := patchNoMatch_run labels tested (labelPos_bodies lowerBodies _) len code₄
    len₄ patchingNoMatch
  have len₅ : gen₅.code.length = n + dispatch.size + bodies.size := by
    rw [patched.code]
    simp [len]
    omega
  rw [loops₃] at recorded
  obtain ⟨outer, shape, passing⟩ := record_switch recorded
  rw [patched.loops, shape] at breaks loops₆
  refine ⟨.switch dispatch bodies, ?_, ?_, ?_, ?_⟩
  · refine bind_eq_ok.2 ⟨tests, gen₁.toNames, lowerTests,
      bind_eq_ok.2 ⟨bodies, gen'.toNames, ?_, ?_⟩⟩
    · rw [← placed.names, ← names₃, breaks.names, names₆, patched.names]
      exact lowerBodies
    · rw [← defaultEq, dispatchEq]
      rfl
  · rw [breaks.functions, functions₆, patched.functions, functions₄, functions₃,
      placed.functions, emittedTests.functions]
  · have redirected := patchAll_layout (fun h => decide (h = .brk)) (n + dispatch.size +
      bodies.size) openTargets bodies (n + dispatch.size) (gen.code ++
        layout (Code.dispatchTargets openTargets bodies (n + dispatch.size)) dispatch n) []
        (by simp [len])
    have targets : Code.redirect (fun h => decide (h = .brk))
        (n + dispatch.size + bodies.size : Nat) openTargets =
          Code.bodyTargets openTargets (n + dispatch.size + bodies.size) := by
      funext h
      cases h <;> rfl
    rw [targets, List.append_nil, List.append_nil] at redirected
    rw [breaks.code, code₆, len₅, patched.code, len]
    simp only [List.append_assoc] at redirected
    simpa [layout, Code.flatten, positionsOf, Code.selected] using redirected
  · have inTests : (dispatch.holes n).filter (fun hole => Hole.passesDispatch hole.1) =
        (tests.holes n).filter fun hole => Hole.passesDispatch hole.1 := by
      rw [← dispatchEq, Code.holes, List.filter_append]
      simp [Code.holes, Hole.passesDispatch]
    have testsRecorded := emittedTests.loops
    rw [len] at testsRecorded
    rw [len, Code.holes, inTests, record_append, testsRecorded, Option.bind_some,
      ← placed.loops, passing, breaks.loops, loops₆]
    rfl

end Kjdmud.Compiler
