import Kjdmud.Compiler.Execution

/-!
# The operations of compiled code

Two instructions are emitted with data behind them: `CallParent` with its qualifier, and `Sscanf`
with its slots.  All others stand alone, and no operation is a jump.
-/

namespace Kjdmud.Compiler

open Kjdmud.Vm Kjdmud.Structured Kjdmud.StateExcept

/-- An instruction that needs no data and no target. -/
def isLone : OpCode → Bool
  | .jump | .jumpIfFalse | .pushCatchFrame | .popCatchFrame | .callParent | .sscanf => false
  | _ => true

theorem isLone_iff {op : OpCode} : isLone op = true ↔
    op ≠ .jump ∧ op ≠ .jumpIfFalse ∧ op ≠ .pushCatchFrame ∧ op ≠ .popCatchFrame ∧
      op ≠ .callParent ∧ op ≠ .sscanf := by
  cases op <;> simp [isLone]

/-- The operations that are emitted. -/
inductive Op.IsEmitted : Op → Prop
  | lone (instr : Instruction) (note : Note) (lone : isLone instr.op = true) :
      Op.IsEmitted { instr := instr, note := note }
  | callParent (calleeIdx qualifierIdx : Int) (argCount : Nat) :
      Op.IsEmitted (parentCallOp calleeIdx qualifierIdx argCount)
  | sscanf (table : List Instruction) :
      Op.IsEmitted { instr := ⟨.sscanf, int32 table.length, 0⟩, table := table }

theorem plain_of_isLone {instr : Instruction} (lone : isLone instr.op = true) :
    Machine.Plain instr := by
  obtain ⟨jump, jumpIfFalse, push, pop, -, -⟩ := isLone_iff.mp lone
  exact ⟨jump, jumpIfFalse, push, pop⟩

theorem tableLength_of_isLone {instr : Instruction} (lone : isLone instr.op = true) :
    instr.tableLength = 0 := by
  obtain ⟨-, -, -, -, callParent, sscanf⟩ := isLone_iff.mp lone
  unfold Instruction.tableLength
  split
  · contradiction
  · contradiction
  · rfl

theorem Op.IsEmitted.tabled {i : Op} (emitted : i.IsEmitted) (short : i.table.length < 2 ^ 31) :
    i.Tabled := by
  cases emitted with
  | lone instr note lone => exact ⟨plain_of_isLone lone, tableLength_of_isLone lone⟩
  | callParent calleeIdx qualifierIdx argCount => exact ⟨by simp [Machine.Plain, parentCallOp], rfl⟩
  | sscanf table =>
      have operand : int32 table.length = table.length := int32_natCast short
      refine ⟨by simp [Machine.Plain], ?_⟩
      rw [Instruction.tableLength, operand, Int.toNat_natCast]

/-- In short code, all operations have their tables. -/
theorem all_tabled {c : Code Op} (emitted : c.All Op.IsEmitted) (short : c.size < 2 ^ 31) :
    c.All Op.Tabled := by
  induction c with
  | op i =>
      have size : (Code.op i).size = 1 + i.table.length := rfl
      exact Op.IsEmitted.tabled emitted (by omega)
  | seq a b iha ihb | ifElse a b iha ihb | switch a b iha ihb =>
      rw [Code.size] at short
      exact ⟨iha emitted.1 (by omega), ihb emitted.2 (by omega)⟩
  | ifThen a iha | guard a iha =>
      rw [Code.size] at short
      exact iha emitted (by omega)
  | stmt nested a iha => exact iha emitted short
  | loop pre preTest body post postTest contAtTop ihp ihb ihq =>
      rw [Code.size] at short
      exact ⟨ihp emitted.1 (by omega), ihb emitted.2.1 (by omega), ihq emitted.2.2 (by omega)⟩
  | _ => exact trivial

/-! ## Shapes -/

/-- All operations of the code that is computed can be emitted. -/
def Yields (l : Lower) : Prop :=
  ∀ names c names', l names = .ok (c, names') → c.All Op.IsEmitted

namespace Yields

theorem pure {c : Code Op} (all : c.All Op.IsEmitted) : Yields (Pure.pure c) := by
  intro names c' names' run
  obtain ⟨rfl, rfl⟩ := pure_eq_ok.1 run
  exact all

theorem bindOf {α : Type} {naming : Naming α} {rest : α → Lower}
    (all : ∀ names a names', naming names = .ok (a, names') → Yields (rest a)) :
    Yields (naming >>= rest) := by
  intro names c names'' run
  obtain ⟨a, names', run₁, run₂⟩ := bind_eq_ok.1 run
  exact all names a names' run₁ names' c names'' run₂

@[simp]
theorem bind {α : Type} {naming : Naming α} {rest : α → Lower} (all : ∀ a, Yields (rest a)) :
    Yields (naming >>= rest) :=
  bindOf fun _ a _ _ => all a

/-- Some code in other code. -/
theorem bindCode {l : Lower} {rest : Code Op → Lower} (first : Yields l)
    (all : ∀ c, c.All Op.IsEmitted → Yields (rest c)) : Yields (l >>= rest) :=
  bindOf fun names c names' run => all c (first names c names' run)

theorem map {l : Lower} {f : Code Op → Code Op} (first : Yields l)
    (all : ∀ c, c.All Op.IsEmitted → (f c).All Op.IsEmitted) : Yields (f <$> l) := by
  intro names c names' run
  obtain ⟨a, ran, rfl⟩ := map_eq_ok.1 run
  exact all a (first names a names' ran)

@[simp]
theorem throw {message : Str} : Yields (throwLpc message) :=
  fun _ _ _ run => absurd run throw_ne_ok

@[simp]
theorem skip : Yields (Pure.pure .skip) :=
  pure trivial

@[simp]
theorem one {op : OpCode} {operand argCount : Int} (lone : isLone op = true) :
    Yields (Compiler.one ⟨op, operand, argCount⟩) :=
  pure (Op.IsEmitted.lone ⟨op, operand, argCount⟩ .plain lone)

@[simp]
theorem andThen {a b : Lower} (first : Yields a) (second : Yields b) :
    Yields (Compiler.andThen a b) :=
  bindCode first fun _ inA => bindCode second fun _ inB => pure ⟨inA, inB⟩

@[simp]
theorem ifTrue {a : Lower} (inside : Yields a) : Yields (Compiler.ifTrue a) :=
  map inside fun _ all => all

@[simp]
theorem eitherOr {a b : Lower} (first : Yields a) (second : Yields b) :
    Yields (Compiler.eitherOr a b) :=
  bindCode first fun _ inA => bindCode second fun _ inB => pure ⟨inA, inB⟩

theorem stmt {a : Lower} (inside : Yields a) : Yields (Code.stmt false <$> a) :=
  map inside fun _ all => all

theorem ifSome {l : Option Lower} (inside : ∀ a ∈ l, Yields a) : Yields (lowerIfSome l) := by
  cases l with
  | none => exact skip
  | some a => exact inside a rfl

@[simp]
theorem block {a : Lower} (inside : Yields a) : Yields (lowerBlock a) :=
  bind fun _ => bindCode inside fun _ all => bind fun _ => pure all

@[simp]
theorem looping {pre lead body post : Lower} {preTest postTest contAtTop : Bool}
    (inPre : Yields pre) (inLead : Yields lead) (inBody : Yields body) (inPost : Yields post) :
    Yields (Compiler.looping pre preTest lead body post postTest contAtTop) :=
  bindCode inPre fun _ a => bindCode inLead fun _ b => bindCode inBody fun _ c =>
    bindCode inPost fun _ d => pure ⟨a, ⟨b, c⟩, d⟩

theorem inOrder {lowers : List Lower} (each : ∀ l ∈ lowers, Yields l) :
    Yields (Compiler.inOrder lowers) := by
  induction lowers with
  | nil => exact skip
  | cons first rest ih =>
      obtain ⟨head, tail⟩ := List.forall_mem_cons.mp each
      cases rest with
      | nil => exact head
      | cons second rest => exact head.andThen (ih tail)

theorem all {lowers : List Lower} (each : ∀ l ∈ lowers, Yields l) : Yields (lowerAll lowers) := by
  induction lowers with
  | nil => exact skip
  | cons l lowers ih =>
      obtain ⟨head, tail⟩ := List.forall_mem_cons.mp each
      exact head.andThen (ih tail)

/-! ## Expressions -/

attribute [local simp] isLone_iff

@[simp]
theorem push (var : ResolvedVar) : Yields (Compiler.one var.push) := by
  unfold ResolvedVar.push
  split <;> simp

@[simp]
theorem store (var : ResolvedVar) : Yields (Compiler.one var.store) := by
  unfold ResolvedVar.store
  split <;> simp

@[simp]
theorem delta (op : IncDecOp) : Yields (Compiler.one ⟨op.deltaOp, 0, 0⟩) := by
  cases op <;> simp [IncDecOp.deltaOp]

@[simp]
theorem combine (op : BinOp) : Yields (lowerCombine op) := by
  cases op <;> simp [lowerCombine, BinOp.combineOp]

theorem indexValue (targetExpr indexNode : AstNode) {index : Lower} (inIndex : Yields index) :
    Yields (lowerIndexValue targetExpr indexNode index) := by
  unfold lowerIndexValue
  split
  · simp
  · exact inIndex

@[simp]
theorem spreadExpansions (argIsSpread : List Bool) :
    Yields (lowerSpreadExpansions argIsSpread) := by
  induction argIsSpread with
  | nil => exact skip
  | cons spread argIsSpread ih =>
      apply andThen
      · cases spread <;> simp
      · exact ih

theorem binaryExpr (op : BinOp) {left right : Lower} (inLeft : Yields left)
    (inRight : Yields right) : Yields (lowerBinaryExpr op left right) := by
  apply inOrder
  cases op <;> simp [BinOp.opCode, inLeft, inRight]

theorem logicalExpr (op : BinOp) {left right : Lower} (inLeft : Yields left)
    (inRight : Yields right) : Yields (lowerLogicalExpr op left right) := by
  have otherwise : Yields (Compiler.inOrder [Compiler.one ⟨.pop, 0, 0⟩, right]) := by
    apply inOrder
    simp [inRight]
  apply inOrder
  by_cases or : op = .or
  · simp [or, inLeft, otherwise]
  · simp [or, inLeft, otherwise]

theorem ternaryExpr {condition thenBranch elseBranch : Lower} (inCondition : Yields condition)
    (inThen : Yields thenBranch) (inElse : Yields elseBranch) :
    Yields (lowerTernaryExpr condition thenBranch elseBranch) :=
  inCondition.andThen (inThen.eitherOr inElse)

theorem catchExpr {guarded : Lower} (inGuarded : Yields guarded) :
    Yields (lowerCatchExpr guarded) :=
  map (inGuarded.andThen (one rfl)) fun _ all => all

theorem timeExpressionExpr {body : Lower} (inBody : Yields body) :
    Yields (lowerTimeExpressionExpr body) := by
  have nested : Yields (Code.nest <$> lowerBlock body) := map inBody.block fun _ => Code.all_nest
  apply inOrder
  simp [nested]

theorem assignExpr (name : Str) {value : Lower} (inValue : Yields value)
    (compoundOp : Option BinOp) : Yields (lowerAssignExpr name value compoundOp) := by
  apply bind
  intro var
  apply inOrder
  cases compoundOp with
  | none => simp [inValue]
  | some op =>
      have combined : Yields
          (Compiler.inOrder [Compiler.one var.push, value, lowerCombine op]) := by
        apply inOrder
        simp [inValue]
      simp [combined]

theorem incDecExpr (op : IncDecOp) (isPrefix : Bool) (name : Str) :
    Yields (lowerIncDecExpr op isPrefix name) := by
  apply bind
  intro var
  cases isPrefix with
  | false =>
      apply inOrder
      simp
  | true =>
      apply inOrder
      simp

theorem indexIncDecExpr (op : IncDecOp) (isPrefix : Bool) {place : Lower}
    (inPlace : Yields place) (flags : Int) :
    Yields (lowerIndexIncDecExpr op isPrefix place flags) := by
  apply bind
  intro oldSlot
  apply bind
  intro newSlot
  apply inOrder
  simp [inPlace]

theorem indexAssignExpr {place value : Lower} (inPlace : Yields place) (inValue : Yields value)
    (compoundOp : Option BinOp) (flags : Int) :
    Yields (lowerIndexAssignExpr place value compoundOp flags) := by
  apply bind
  intro tempSlot
  apply inOrder
  cases compoundOp with
  | none => simp [inPlace, inValue]
  | some op =>
      have combined : Yields (Compiler.inOrder
          [place, Compiler.one ⟨.index, 0, flags⟩, value, lowerCombine op]) := by
        apply inOrder
        simp [inPlace, inValue]
      simp [combined, inPlace]

theorem callInstr (callee : Str) (argCount : Nat) (forceEfun parentCall : Bool)
    (parentQualifier : Str) :
    Yields (lowerCallInstr callee argCount forceEfun parentCall parentQualifier) := by
  apply bind
  intro calleeIdx
  cases parentCall with
  | true =>
      have parent (qualifierIdx : Int) :
          Yields (Pure.pure (.op (parentCallOp calleeIdx qualifierIdx argCount))) :=
        pure (c := .op _) (Op.IsEmitted.callParent calleeIdx qualifierIdx argCount)
      rw [if_pos rfl]
      dsimp only
      split
      · exact bind parent
      · exact bind parent
  | false => cases forceEfun <;> simp

theorem callExpr (callee : Str) {args : List Lower} (inArgs : ∀ arg ∈ args, Yields arg)
    (argIsSpread : List Bool) (forceEfun parentCall : Bool) (parentQualifier : Str) :
    Yields (lowerCallExpr callee args argIsSpread forceEfun parentCall parentQualifier) := by
  apply inOrder
  simp [all inArgs, callInstr]

theorem callOtherExpr {target function : Lower} (inTarget : Yields target)
    (inFunction : Yields function) {args : List Lower} (inArgs : ∀ arg ∈ args, Yields arg)
    (argIsSpread : List Bool) : Yields (lowerCallOtherExpr target function args argIsSpread) := by
  apply inOrder
  simp [inTarget, inFunction, all inArgs]

theorem classMembers {fields : List (Str × Lower)} (inFields : ∀ field ∈ fields, Yields field.2)
    (members : List Str) : Yields (lowerClassMembers fields members) := by
  induction members with
  | nil => exact skip
  | cons memberName members ih =>
      apply andThen _ ih
      split
      · rename_i field found
        obtain ⟨before, after, whole, -⟩ := List.lookup_eq_some_iff.mp found
        apply inFields (memberName, field)
        rw [whole]
        exact List.mem_append_right _ List.mem_cons_self
      · simp

theorem newClassExpr (className : Str) {fields : List (Str × Lower)}
    (inFields : ∀ field ∈ fields, Yields field.2) :
    Yields (lowerNewClassExpr className fields) := by
  apply bind
  intro members
  apply inOrder
  simp [classMembers inFields]

theorem mappingLiteralExpr {entries : List (List Lower)}
    (inEntries : ∀ entry ∈ entries, ∀ l ∈ entry, Yields l) :
    Yields (lowerMappingLiteralExpr entries) := by
  have flat : Yields (lowerAll entries.flatten) := by
    apply all
    intro l mem
    obtain ⟨entry, isEntry, inEntry⟩ := List.mem_flatten.mp mem
    exact inEntries entry isEntry l inEntry
  exact flat.andThen (one rfl)

theorem closureLiteralExpr (functionName : Str) {boundArgs : List Lower}
    (inArgs : ∀ arg ∈ boundArgs, Yields arg) (forceEfun : Bool) :
    Yields (lowerClosureLiteralExpr functionName boundArgs forceEfun) := by
  apply (all inArgs).andThen
  apply bind
  intro nameIdx
  cases forceEfun <;> simp

/-- A closure literal or a `return` without a value. -/
theorem noted {op : OpCode} {operand argCount : Int} (lone : isLone op = true) (note : Note) :
    Yields (Pure.pure (.op { instr := ⟨op, operand, argCount⟩, note := note })) :=
  pure (Op.IsEmitted.lone _ note lone)

theorem inlineLambdaExpr (bodyExprs : List AstNode) (paramCount : Nat)
    (boundValueExprs : List AstNode) {boundValues : List Lower}
    (inValues : ∀ value ∈ boundValues, Yields value) :
    Yields (lowerInlineLambdaExpr bodyExprs paramCount boundValueExprs boundValues) :=
  (all inValues).andThen (bind fun _ => bind fun _ => noted rfl _)

theorem anonFunctionExpr (params : List Param) (isVarargs : Bool) (body : List AstNode) :
    Yields (lowerAnonFunctionExpr params isVarargs body) :=
  bind fun _ => bind fun _ => noted rfl _

/-! ## `sscanf` -/

/-- The target of an output. -/
def InTarget : LowerTarget → Prop
  | .plain _ => True
  | .indexed place _ => Yields place

/-- There is one slot for each output. -/
theorem sscanfSlots {outputs : List LowerTarget} (inOutputs : ∀ output ∈ outputs, InTarget output)
    {names names' : Names} {slots : List Instruction × List (Nat × Lower × Int)}
    (run : lowerSscanfSlots outputs names = .ok (slots, names')) :
    slots.1.length = outputs.length ∧ ∀ write ∈ slots.2, Yields write.2.1 := by
  induction outputs generalizing names slots names' with
  | nil =>
      obtain ⟨rfl, rfl⟩ := pure_eq_ok.1 run
      exact ⟨rfl, List.forall_mem_nil _⟩
  | cons output outputs ih =>
      obtain ⟨head, tail⟩ := List.forall_mem_cons.mp inOutputs
      cases output with
      | plain name =>
          obtain ⟨var, names₁, -, run⟩ := bind_eq_ok.1 run
          obtain ⟨slots', names₂, later, run⟩ := bind_eq_ok.1 run
          obtain ⟨length, writes⟩ := ih tail later
          obtain ⟨rfl, rfl⟩ := pure_eq_ok.1 run
          exact ⟨congrArg Nat.succ length, writes⟩
      | indexed place flags =>
          obtain ⟨slot, names₁, -, run⟩ := bind_eq_ok.1 run
          obtain ⟨slots', names₂, later, run⟩ := bind_eq_ok.1 run
          obtain ⟨length, writes⟩ := ih tail later
          obtain ⟨rfl, rfl⟩ := pure_eq_ok.1 run
          exact ⟨congrArg Nat.succ length, List.forall_mem_cons.mpr ⟨head, writes⟩⟩

theorem sscanfWrites {writes : List (Nat × Lower × Int)}
    (inWrites : ∀ write ∈ writes, Yields write.2.1) : Yields (lowerSscanfWrites writes) := by
  induction writes with
  | nil => exact skip
  | cons write writes ih =>
      obtain ⟨head, tail⟩ := List.forall_mem_cons.mp inWrites
      apply andThen _ (ih tail)
      apply inOrder
      simp [head]

theorem sscanfExpr {target format : Lower} (inTarget : Yields target) (inFormat : Yields format)
    {outputs : List LowerTarget} (inOutputs : ∀ output ∈ outputs, InTarget output) :
    Yields (lowerSscanfExpr target format outputs) := by
  refine inTarget.andThen (inFormat.andThen (bindOf fun names slots names' run => ?_))
  obtain ⟨length, writes⟩ := sscanfSlots inOutputs run
  refine bindCode (sscanfWrites writes) fun write all => pure ⟨?_, all⟩
  rw [← length]
  exact .sscanf slots.1

/-! ## Statements -/

theorem returnStmt {expr : Option Lower} (inExpr : ∀ l ∈ expr, Yields l) :
    Yields (lowerReturnStmt expr) := by
  cases expr with
  | none => exact noted rfl _
  | some expr => exact (inExpr expr rfl).andThen (one rfl)

theorem varDeclStmt (type name : Str) {initializer : Option Lower}
    (inInitializer : ∀ l ∈ initializer, Yields l) :
    Yields (lowerVarDeclStmt type name initializer) := by
  apply bind
  intro slot
  cases initializer with
  | none => exact skip
  | some value => exact (inInitializer value rfl).andThen (one rfl)

theorem assignStmt (name : Str) {value : Lower} (inValue : Yields value) :
    Yields (lowerAssignStmt name value) :=
  bind fun var => inValue.andThen (store var)

theorem indexAssignStmt {place value : Lower} (inPlace : Yields place) (inValue : Yields value)
    (compoundOp : Option BinOp) (flags : Int) :
    Yields (lowerIndexAssignStmt place value compoundOp flags) := by
  cases compoundOp with
  | none =>
      apply inOrder
      simp [inPlace, inValue]
  | some op =>
      apply inOrder
      simp [inPlace, inValue]

theorem ifStmt {condition thenBranch : Lower} (inCondition : Yields condition)
    (inThen : Yields thenBranch) {elseBranch : Option Lower} (inElse : ∀ l ∈ elseBranch, Yields l) :
    Yields (lowerIfStmt condition thenBranch elseBranch) := by
  apply inCondition.andThen
  cases elseBranch with
  | none => exact inThen.block.ifTrue
  | some elseBranch => exact inThen.block.eitherOr (inElse elseBranch rfl).block

theorem whileStmt {condition body : Lower} (inCondition : Yields condition) (inBody : Yields body) :
    Yields (lowerWhileStmt condition body) :=
  looping inCondition skip inBody.block skip

theorem doWhileStmt {condition body : Lower} (inCondition : Yields condition)
    (inBody : Yields body) : Yields (lowerDoWhileStmt condition body) :=
  looping skip skip inBody.block inCondition

theorem forStmt {init update body : Lower} (inInit : Yields init) {condition : Option Lower}
    (inCondition : ∀ l ∈ condition, Yields l) (inUpdate : Yields update) (inBody : Yields body) :
    Yields (lowerForStmt init condition update body) :=
  (inInit.andThen (looping (ifSome inCondition) skip inBody.block inUpdate)).block

theorem foreachLead (varName : Str) (declareVar : Bool) (varClassType : Str)
    (valueVar : Option ForeachValueVar) (origSlot iterSlot idxSlot : Nat) :
    Yields (lowerForeachLead varName declareVar varClassType valueVar origSlot iterSlot
      idxSlot) := by
  apply bind
  intro keyVar
  apply inOrder
  cases valueVar with
  | none => simp
  | some value =>
      have lead (valVar : ResolvedVar) : Yields (Compiler.inOrder
          [Compiler.one ⟨.pushLocal, origSlot, 0⟩, Compiler.one keyVar.push,
            Compiler.one ⟨.index, 0, 0⟩, Compiler.one valVar.store]) := by
        apply inOrder
        simp
      simp [lead]

theorem foreachTest (iterSlot idxSlot : Nat) : Yields (lowerForeachTest iterSlot idxSlot) := by
  apply inOrder
  simp

theorem foreachNext (idxSlot : Nat) : Yields (lowerForeachNext idxSlot) := by
  apply inOrder
  simp

theorem foreachStmt (varName : Str) (declareVar : Bool) (varClassType : Str)
    (valueVar : Option ForeachValueVar) {collection body : Lower} (inCollection : Yields collection)
    (inBody : Yields body) :
    Yields (lowerForeachStmt varName declareVar varClassType valueVar collection body) := by
  apply block
  apply bind
  intro id
  apply bind
  intro origSlot
  apply inCollection.andThen
  apply (one rfl).andThen
  apply bind
  intro iterSlot
  apply (one rfl).andThen
  apply (one rfl).andThen
  apply (one rfl).andThen
  apply bind
  intro idxSlot
  apply (one rfl).andThen
  apply (one rfl).andThen
  exact looping (foreachTest iterSlot idxSlot) (foreachLead _ _ _ _ _ _ _) inBody.block
    (foreachNext idxSlot)

/-- An entry of a switch body. -/
def InItem : LowerItem → Prop
  | .label value rangeEnd => (∀ l ∈ value, Yields l) ∧ ∀ l ∈ rangeEnd, Yields l
  | .statement l => Yields l

theorem switchTest (subjSlot : Nat) {value : Lower} (inValue : Yields value)
    {rangeEnd : Option Lower} (inEnd : ∀ l ∈ rangeEnd, Yields l) :
    Yields (lowerSwitchTest subjSlot value rangeEnd) := by
  cases rangeEnd with
  | none =>
      apply inOrder
      simp [inValue]
  | some rangeEnd =>
      have above : Yields (Compiler.inOrder [Compiler.one ⟨.pop, 0, 0⟩,
          Compiler.one ⟨.pushLocal, subjSlot, 0⟩, rangeEnd, Compiler.one ⟨.lte, 0, 0⟩]) := by
        apply inOrder
        simp [inEnd rangeEnd rfl]
      apply (one rfl).andThen
      apply inValue.andThen
      exact ((one rfl).andThen ((one rfl).andThen above.ifTrue)).andThen (one rfl)

theorem switchTests (subjSlot : Nat) {items : List LowerItem}
    (inItems : ∀ item ∈ items, InItem item) (i : Nat) :
    Yields (lowerSwitchTests subjSlot i items) := by
  induction items generalizing i with
  | nil => exact skip
  | cons item items ih =>
      obtain ⟨head, tail⟩ := List.forall_mem_cons.mp inItems
      have later := ih tail (i + 1)
      cases item with
      | statement l => exact later
      | label value rangeEnd =>
          cases value with
          | none => exact later
          | some value =>
              have test := switchTest subjSlot (head.1 value rfl) head.2
              exact (test.andThen (pure (c := .branch i) trivial)).andThen later

theorem switchBodies {items : List LowerItem} (inItems : ∀ item ∈ items, InItem item) :
    Yields (lowerSwitchBodies items) := by
  induction items with
  | nil => exact skip
  | cons item items ih =>
      obtain ⟨head, tail⟩ := List.forall_mem_cons.mp inItems
      cases item with
      | statement l => exact (stmt head).andThen (ih tail)
      | label value rangeEnd => exact skip.andThen (ih tail)

theorem switchStmt {subject : Lower} (inSubject : Yields subject) {items : List LowerItem}
    (inItems : ∀ item ∈ items, InItem item) : Yields (lowerSwitchStmt subject items) := by
  apply bind
  intro subjSlot
  apply inSubject.andThen
  apply (one rfl).andThen
  exact bindCode (switchTests subjSlot inItems 0) fun _ tests =>
    bindCode (switchBodies inItems) fun _ bodies => pure ⟨⟨tests, trivial⟩, bodies⟩

end Yields

/-! ## The recursion over the tree -/

mutual

theorem emits_expr : (n : AstNode) → Yields (lowerExpr n)
  | .stringLiteral _ => .bind fun _ => .one rfl
  | .intLiteral _ => .one rfl
  | .floatLiteral _ => .bind fun _ => .one rfl
  | .nilLiteral => .one rfl
  | .symbolLiteralExpr _ => .bind fun _ => .one rfl
  | .varRefExpr _ => .bind fun var => .push var
  | .binaryExpr op left right => by
      simp only [lowerExpr]
      split
      · exact .logicalExpr op (emits_expr left) (emits_expr right)
      · exact .binaryExpr op (emits_expr left) (emits_expr right)
  | .commaExpr left right =>
      (emits_expr left).andThen ((Yields.one rfl).andThen (emits_expr right))
  | .unaryExpr .not operand => (emits_expr operand).andThen (.one rfl)
  | .unaryExpr .bitNot operand => (emits_expr operand).andThen (.one rfl)
  | .unaryExpr .neg operand =>
      (Yields.one rfl).andThen ((emits_expr operand).andThen (.one rfl))
  | .ternaryExpr condition thenBranch elseBranch =>
      .ternaryExpr (emits_expr condition) (emits_expr thenBranch) (emits_expr elseBranch)
  | .callExpr callee args argIsSpread forceEfun parentCall parentQualifier =>
      .callExpr callee (emits_exprs args) argIsSpread forceEfun parentCall parentQualifier
  | .callOtherExpr target function args argIsSpread =>
      .callOtherExpr (emits_expr target) (emits_expr function) (emits_exprs args) argIsSpread
  | .sscanfExpr target format outputs =>
      .sscanfExpr (emits_expr target) (emits_expr format) (emits_targets outputs)
  | .catchExpr guarded => .catchExpr (emits_expr guarded)
  | .closureLiteralExpr functionName boundArgs forceEfun =>
      .closureLiteralExpr functionName (emits_exprs boundArgs) forceEfun
  | .inlineLambdaExpr bodyExprs paramCount boundValueExprs =>
      .inlineLambdaExpr bodyExprs paramCount boundValueExprs (emits_exprs boundValueExprs)
  | .lambdaParamExpr _ _ => .bind fun _ => .one rfl
  | .assignExpr name value compoundOp => .assignExpr name (emits_expr value) compoundOp
  | .incDecExpr op isPrefix name => .incDecExpr op isPrefix name
  | .indexIncDecExpr op isPrefix indexTarget indexKey mapColumn =>
      .indexIncDecExpr op isPrefix
        ((emits_expr indexTarget).andThen
          ((Yields.indexValue _ _ (emits_expr indexKey)).andThen
            (.ifSome (emits_optional mapColumn)))) _
  | .arrayLiteralExpr elements elementIsSpread =>
      (Yields.all (emits_exprs elements)).andThen
        ((Yields.spreadExpansions elementIsSpread).andThen (.one rfl))
  | .mappingLiteralExpr entries => .mappingLiteralExpr (emits_entries entries)
  | .memberNameMarker _ => .throw
  | .typeCastExpr _ inner => emits_expr inner
  | .newClassExpr className fieldInits => .newClassExpr className (emits_fields fieldInits)
  | .indexExpr target index none _ _ mapColumn =>
      (emits_expr target).andThen
        ((Yields.indexValue target index (emits_expr index)).andThen
          ((Yields.ifSome (emits_optional mapColumn)).andThen (.one rfl)))
  | .indexExpr target index (some rangeEnd) _ _ _ =>
      (emits_expr target).andThen
        ((Yields.indexValue target index (emits_expr index)).andThen
          ((emits_expr rangeEnd).andThen (.one rfl)))
  | .indexAssignExpr target index value compoundOp mapColumn =>
      .indexAssignExpr
        ((emits_expr target).andThen
          ((Yields.indexValue _ _ (emits_expr index)).andThen
            (.ifSome (emits_optional mapColumn))))
        (emits_expr value) compoundOp _
  | .anonFunctionExpr params isVarargs body => .anonFunctionExpr params isVarargs body
  | .timeExpressionExpr body => .timeExpressionExpr (emits_statements body)
  | .exprStmt _ | .returnStmt _ | .varDeclStmt _ _ _ | .assignStmt _ _
  | .indexAssignStmt _ _ _ _ _ | .block _ _ | .ifStmt _ _ _ | .whileStmt _ _
  | .doWhileStmt _ _ | .forStmt _ _ _ _ | .breakStmt | .continueStmt | .caseLabel _ _
  | .switchStmt _ _ | .foreachStmt _ _ _ _ _ _ => .throw

theorem emits_exprs : (nodes : List AstNode) → ∀ l ∈ lowerExprs nodes, Yields l
  | [] => List.forall_mem_nil _
  | node :: nodes => List.forall_mem_cons.mpr ⟨emits_expr node, emits_exprs nodes⟩

theorem emits_optional : (node : Option AstNode) → ∀ l ∈ lowerOptional node, Yields l
  | none => by
      intro l mem
      cases mem
  | some node => by
      intro l mem
      cases mem
      exact emits_expr node

theorem emits_entries : (entries : List (AstNode × List AstNode)) →
    ∀ entry ∈ lowerEntries entries, ∀ l ∈ entry, Yields l
  | [] => List.forall_mem_nil _
  | (key, values) :: entries =>
      List.forall_mem_cons.mpr
        ⟨List.forall_mem_cons.mpr ⟨emits_expr key, emits_exprs values⟩, emits_entries entries⟩

theorem emits_fields : (fields : List (Str × AstNode)) →
    ∀ field ∈ lowerFields fields, Yields field.2
  | [] => List.forall_mem_nil _
  | (_, value) :: fields => List.forall_mem_cons.mpr ⟨emits_expr value, emits_fields fields⟩

theorem emits_targets : (outputs : List (Str × Option AstNode)) →
    ∀ output ∈ lowerTargets outputs, Yields.InTarget output
  | [] => List.forall_mem_nil _
  | (_, none) :: outputs => List.forall_mem_cons.mpr ⟨trivial, emits_targets outputs⟩
  | (_, some node) :: outputs => by
      cases node with
      | indexExpr target index rangeEnd indexFromEnd rangeEndFromEnd mapColumn =>
          exact List.forall_mem_cons.mpr
            ⟨(emits_expr target).andThen ((emits_expr index).andThen
              (.ifSome (emits_optional mapColumn))), emits_targets outputs⟩
      | _ => exact List.forall_mem_cons.mpr ⟨Yields.throw, emits_targets outputs⟩

theorem emits_statement : (n : AstNode) → Yields (lowerStatement n)
  | .block statements true => (emits_statements statements).block
  | .block statements false => emits_statements statements
  | .exprStmt expr => (emits_expr expr).andThen (.one rfl)
  | .returnStmt expr => .returnStmt (emits_optional expr)
  | .varDeclStmt type name initializer => .varDeclStmt type name (emits_optional initializer)
  | .assignStmt name value => .assignStmt name (emits_expr value)
  | .indexAssignStmt target index value compoundOp mapColumn =>
      .indexAssignStmt
        ((emits_expr target).andThen
          ((Yields.indexValue _ _ (emits_expr index)).andThen
            (.ifSome (emits_optional mapColumn))))
        (emits_expr value) compoundOp _
  | .ifStmt condition thenBranch elseBranch =>
      .ifStmt (emits_expr condition) (emits_statements thenBranch) (emits_else elseBranch)
  | .whileStmt condition body => .whileStmt (emits_expr condition) (emits_statements body)
  | .doWhileStmt condition body => .doWhileStmt (emits_expr condition) (emits_statements body)
  | .forStmt init condition update body =>
      .forStmt (emits_init init) (emits_optional condition) (emits_update update)
        (emits_statements body)
  | .foreachStmt varName declareVar varClassType valueVar collection body =>
      .foreachStmt varName declareVar varClassType valueVar (emits_expr collection)
        (emits_statements body)
  | .switchStmt subject body => .switchStmt (emits_expr subject) (emits_items body)
  | .breakStmt => Yields.pure (c := .brk) trivial
  | .continueStmt => Yields.pure (c := .cont) trivial
  | .stringLiteral _ | .intLiteral _ | .floatLiteral _ | .nilLiteral | .symbolLiteralExpr _
  | .varRefExpr _ | .binaryExpr .. | .commaExpr .. | .unaryExpr .. | .ternaryExpr ..
  | .callExpr .. | .callOtherExpr .. | .sscanfExpr .. | .catchExpr _ | .closureLiteralExpr ..
  | .inlineLambdaExpr .. | .lambdaParamExpr .. | .assignExpr .. | .incDecExpr ..
  | .indexIncDecExpr .. | .arrayLiteralExpr .. | .mappingLiteralExpr _ | .memberNameMarker _
  | .typeCastExpr .. | .newClassExpr .. | .indexExpr .. | .indexAssignExpr ..
  | .anonFunctionExpr .. | .timeExpressionExpr _ | .caseLabel .. => .throw

theorem emits_statements : (statements : List AstNode) → Yields (lowerStatements statements)
  | [] => .skip
  | statement :: statements =>
      (emits_statement statement).stmt.andThen (emits_statements statements)

theorem emits_else : (statements : Option (List AstNode)) →
    ∀ l ∈ lowerElse statements, Yields l
  | none => by
      intro l mem
      cases mem
  | some statements => by
      intro l mem
      cases mem
      exact emits_statements statements

theorem emits_init : (init : Option AstNode) → Yields (lowerInit init)
  | none => .skip
  | some node => by
      cases node with
      | varDeclStmt type name initializer =>
          exact .varDeclStmt type name (emits_optional initializer)
      | block statements _ => exact (emits_statements statements).block
      | _ => exact (emits_expr _).andThen (.one rfl)

theorem emits_update : (update : Option AstNode) → Yields (lowerUpdate update)
  | none => .skip
  | some node => by
      cases node with
      | block statements _ => exact (emits_statements statements).block
      | _ => exact (emits_expr _).andThen (.one rfl)

theorem emits_items : (nodes : List AstNode) →
    ∀ item ∈ lowerItems nodes, Yields.InItem item
  | [] => List.forall_mem_nil _
  | node :: nodes => by
      cases node with
      | caseLabel value rangeEnd =>
          exact List.forall_mem_cons.mpr
            ⟨⟨emits_optional value, emits_optional rangeEnd⟩, emits_items nodes⟩
      | _ => exact List.forall_mem_cons.mpr ⟨emits_statement _, emits_items nodes⟩

end

end Kjdmud.Compiler
