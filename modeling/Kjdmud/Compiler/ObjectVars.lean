import Kjdmud.Compiler.Refinement

/-!
# The object-variable slots of compiled code

`generate` numbers the object variables of a file behind those it inherits, and
code names an object variable by its slot.  The slot of every instruction that
reads or writes an object variable is below the number of the variables, since
it comes from a map that holds no other slots.
-/

namespace Kjdmud.Compiler

open Kjdmud.Vm Kjdmud.Structured Kjdmud.StateExcept

/-- An instruction that names an object variable. -/
def NamesObjectVar (instr : Instruction) : Prop :=
  instr.op = .pushObjectVar ∨ instr.op = .storeObjectVar ∨
    (instr.op = .sscanfVarSlot ∧ instr.argCount ≠ 0)

/-- If an instruction names an object variable, it is one of the first
`bound`. -/
def SlotBelow (bound : Nat) (instr : Instruction) : Prop :=
  NamesObjectVar instr → ∃ slot < bound, instr.operand = slot

/-- The instructions of an operation and its table name object variables below
`bound`. -/
def Op.SlotsBelow (bound : Nat) (op : Op) : Prop :=
  ∀ instr ∈ op.instr :: op.table, SlotBelow bound instr

/-- Every name of an object variable stands for one of the first `bound`. -/
def Names.SlotsBelow (bound : Nat) (names : Names) : Prop :=
  ∀ entry ∈ names.objectVars, entry.2 < bound

/-! ## Computations on the names -/

/-- A computation on the names leaves the object variables alone, and its result
has a property. -/
def Keeps {α : Type} (bound : Nat) (naming : Naming α) (result : α → Prop) : Prop :=
  ∀ names a names', names.SlotsBelow bound → naming names = .ok (a, names') →
    names'.SlotsBelow bound ∧ result a

namespace Keeps

variable {α β : Type} {bound : Nat}

theorem pure {a : α} {result : α → Prop} (holds : result a) :
    Keeps bound (Pure.pure a) result := by
  intro names b names' below run
  obtain ⟨rfl, rfl⟩ := pure_eq_ok.1 run
  exact ⟨below, holds⟩

theorem bind {naming : Naming α} {rest : α → Naming β} {result : α → Prop}
    {result' : β → Prop} (first : Keeps bound naming result)
    (second : ∀ a, result a → Keeps bound (rest a) result') :
    Keeps bound (naming >>= rest) result' := by
  intro names b names'' below run
  obtain ⟨a, names', run₁, run₂⟩ := bind_eq_ok.1 run
  obtain ⟨below', holds⟩ := first names a names' below run₁
  exact second a holds names' b names'' below' run₂

theorem map {naming : Naming α} {f : α → β} {result : α → Prop} {result' : β → Prop}
    (first : Keeps bound naming result) (image : ∀ a, result a → result' (f a)) :
    Keeps bound (f <$> naming) result' := by
  intro names b names' below run
  obtain ⟨a, ran, rfl⟩ := map_eq_ok.1 run
  obtain ⟨below', holds⟩ := first names a names' below ran
  exact ⟨below', image a holds⟩

theorem throw {message : Str} {result : α → Prop} :
    Keeps bound (throwLpc message) result :=
  fun _ _ _ _ run => absurd run throw_ne_ok

theorem get : Keeps bound (MonadStateOf.get : Naming Names) (Names.SlotsBelow bound) := by
  intro names a names' below run
  cases run
  exact ⟨below, below⟩

theorem modify {f : Names → Names} (same : ∀ names, (f names).objectVars = names.objectVars) :
    Keeps bound (modify f : Naming Unit) fun _ => True := by
  intro names a names' below run
  cases run
  refine ⟨?_, trivial⟩
  unfold Names.SlotsBelow
  rw [same]
  exact below

theorem set {names : Names} (below : names.SlotsBelow bound) :
    Keeps bound (MonadStateOf.set names : Naming Unit) fun _ => True := by
  intro _ a names' _ run
  cases run
  exact ⟨below, trivial⟩

theorem ite {condition : Prop} [Decidable condition] {first second : Naming α}
    {result : α → Prop} (yes : condition → Keeps bound first result)
    (no : ¬ condition → Keeps bound second result) :
    Keeps bound (if condition then first else second) result := by
  split
  · rename_i holds
    exact yes holds
  · rename_i fails
    exact no fails

end Keeps

/-- A resolved object variable has a slot below `bound`. -/
def ResolvedVar.SlotBelow (bound : Nat) (var : ResolvedVar) : Prop :=
  var.kind = .objectVar → var.slot < bound

section Naming

variable {bound : Nat}

theorem keeps_internString (s : Str) :
    Keeps bound (internString s) fun _ => True := by
  refine Keeps.get.bind fun names _ => ?_
  split
  exact Keeps.bind (Keeps.modify (by exact fun _ => rfl)) fun _ _ => .pure trivial

theorem keeps_internFloat (d : Double) :
    Keeps bound (internFloat d) fun _ => True := by
  refine Keeps.get.bind fun names _ => ?_
  split
  exact Keeps.bind (Keeps.modify (by exact fun _ => rfl)) fun _ _ => .pure trivial

theorem keeps_resolveVariable (name : Str) :
    Keeps bound (resolveVariable name) (ResolvedVar.SlotBelow bound) := by
  refine Keeps.get.bind fun names below => ?_
  split
  · exact .pure nofun
  · split
    · rename_i slot found
      refine .pure fun _ => below (name, slot) ?_
      obtain ⟨before, after, whole, _⟩ := List.lookup_eq_some_iff.1 found
      rw [whole]
      exact List.mem_append_right _ List.mem_cons_self
    · exact .throw

theorem keeps_declareLocal (name typeText : Str) :
    Keeps bound (declareLocal name typeText) fun _ => True := by
  refine Keeps.get.bind fun names below => ?_
  refine .ite (fun _ => ?_) fun _ => .ite (fun _ => .throw) fun _ => ?_
  · exact Keeps.bind (Keeps.set (by exact below)) fun _ _ => .pure trivial
  · exact Keeps.bind (Keeps.set (by exact below)) fun _ _ => .pure trivial

theorem keeps_declareIndexAssignTemp (base : String) :
    Keeps bound (declareIndexAssignTemp base) fun _ => True :=
  Keeps.get.bind fun _ _ => Keeps.bind (Keeps.modify (by exact fun _ => rfl)) fun _ _ =>
    keeps_declareLocal _ _

theorem keeps_resolveClassMemberIndex (className memberName : Str) :
    Keeps bound (resolveClassMemberIndex className memberName) fun _ => True := by
  refine Keeps.get.bind fun names _ => ?_
  split
  · exact .throw
  · split
    · exact .pure trivial
    · exact .throw

theorem keeps_memberIndexOf (targetExpr : AstNode) (memberName : Str) :
    Keeps bound (memberIndexOf targetExpr memberName) fun _ => True :=
  Keeps.get.bind fun _ _ =>
    .ite (fun _ => .throw) fun _ => keeps_resolveClassMemberIndex _ _

theorem keeps_classMembers (className : Str) :
    Keeps bound (classMembers className) fun _ => True := by
  refine Keeps.get.bind fun names _ => ?_
  split
  · exact .throw
  · exact .pure trivial

theorem keeps_checkFields (className : Str) (members fieldNames : List Str) :
    Keeps bound (checkFields className members fieldNames) fun _ => True := by
  unfold checkFields
  split
  · exact .throw
  · exact .pure trivial

theorem keeps_foreachVariable (name : Str) (declare : Bool) (classType : Str) :
    Keeps bound (foreachVariable name declare classType) (ResolvedVar.SlotBelow bound) :=
  .ite (fun _ => (keeps_declareLocal _ _).bind fun _ _ => .pure nofun)
    fun _ => keeps_resolveVariable _

theorem keeps_freshForeachId : Keeps bound freshForeachId fun _ => True :=
  Keeps.get.bind fun _ _ => Keeps.bind (Keeps.modify (by exact fun _ => rfl)) fun _ _ => .pure trivial

theorem keeps_declareSwitchSubject : Keeps bound declareSwitchSubject fun _ => True :=
  Keeps.get.bind fun _ _ => Keeps.bind (Keeps.modify (by exact fun _ => rfl)) fun _ _ =>
    keeps_declareLocal _ _

theorem keeps_deferLambda (bodyExprs : List AstNode) (paramCount : Nat)
    (boundValueExprs : List AstNode) :
    Keeps bound (deferLambda bodyExprs paramCount boundValueExprs) fun _ => True :=
  Keeps.get.bind fun _ _ => Keeps.bind (Keeps.modify (by exact fun _ => rfl)) fun _ _ => .pure trivial

theorem keeps_deferAnonFunc (params : List Param) (isVarargs : Bool) (body : List AstNode) :
    Keeps bound (deferAnonFunc params isVarargs body) fun _ => True :=
  Keeps.get.bind fun _ _ => Keeps.bind (Keeps.modify (by exact fun _ => rfl)) fun _ _ => .pure trivial

theorem keeps_lambdaParamSlot (index : Nat) (isBoundValue : Bool) :
    Keeps bound (lambdaParamSlot index isBoundValue) fun _ => True :=
  Keeps.get.bind fun _ _ => .pure trivial

end Naming

/-! ## Structured code -/

/-- A computation of structured code that names object variables below
`bound`. -/
def LowersBelow (bound : Nat) (lower : Lower) : Prop :=
  Keeps bound lower (Code.All (Op.SlotsBelow bound))

/-- The instructions with this code name no object variable. -/
abbrev NamesNone (op : OpCode) : Prop :=
  op ≠ .pushObjectVar ∧ op ≠ .storeObjectVar ∧ op ≠ .sscanfVarSlot

theorem slotBelow_of_op {bound : Nat} {op : OpCode} {operand argCount : Int}
    (other : NamesNone op) : SlotBelow bound ⟨op, operand, argCount⟩ := by
  rintro (isPush | isStore | ⟨isSlot, _⟩)
  · exact absurd isPush other.1
  · exact absurd isStore other.2.1
  · exact absurd isSlot other.2.2

theorem opCode_ne {op : BinOp} {code : OpCode}
    (is : op.opCode = some code ∨ op.combineOp = some code) : NamesNone code := by
  cases op <;> simp [BinOp.opCode, BinOp.combineOp] at is <;> subst is <;> decide

theorem slotBelow_push {bound : Nat} {var : ResolvedVar} (below : var.SlotBelow bound) :
    SlotBelow bound var.push := by
  unfold ResolvedVar.push
  cases kind : var.kind with
  | «local» => exact slotBelow_of_op (by decide)
  | objectVar => exact fun _ => ⟨var.slot, below kind, rfl⟩

theorem slotBelow_store {bound : Nat} {var : ResolvedVar} (below : var.SlotBelow bound) :
    SlotBelow bound var.store := by
  unfold ResolvedVar.store
  cases kind : var.kind with
  | «local» => exact slotBelow_of_op (by decide)
  | objectVar => exact fun _ => ⟨var.slot, below kind, rfl⟩

namespace LowersBelow

variable {bound : Nat}

theorem op {op : Op} (below : op.SlotsBelow bound) : LowersBelow bound (pure (.op op)) :=
  .pure below

theorem noted {instr : Instruction} {note : Note} (below : SlotBelow bound instr) :
    LowersBelow bound (pure (.op { instr, note })) := by
  refine op fun other mem => ?_
  rw [List.mem_singleton] at mem
  exact mem ▸ below

theorem one {instr : Instruction} (below : SlotBelow bound instr) :
    LowersBelow bound (Compiler.one instr) :=
  noted below

/-- One instruction that names no object variable. -/
theorem other {op : OpCode} {operand argCount : Int} (other : NamesNone op) :
    LowersBelow bound (Compiler.one ⟨op, operand, argCount⟩) :=
  one (slotBelow_of_op other)

theorem skip : LowersBelow bound (pure .skip) :=
  .pure trivial

theorem andThen {first second : Lower} (a : LowersBelow bound first)
    (b : LowersBelow bound second) : LowersBelow bound (Compiler.andThen first second) :=
  a.bind fun _ holds => b.bind fun _ holds' => .pure ⟨holds, holds'⟩

theorem ifTrue {a : Lower} (body : LowersBelow bound a) :
    LowersBelow bound (Compiler.ifTrue a) :=
  Keeps.map body fun _ holds => holds

theorem eitherOr {a b : Lower} (first : LowersBelow bound a) (second : LowersBelow bound b) :
    LowersBelow bound (Compiler.eitherOr a b) :=
  first.bind fun _ holds => second.bind fun _ holds' => .pure ⟨holds, holds'⟩

theorem ifSome {lower : Option Lower} (all : ∀ l ∈ lower, LowersBelow bound l) :
    LowersBelow bound (lowerIfSome lower) := by
  cases lower with
  | none => exact skip
  | some l => exact all l rfl

theorem block {statements : Lower} (body : LowersBelow bound statements) :
    LowersBelow bound (lowerBlock statements) :=
  Keeps.bind (Keeps.modify (by exact fun _ => rfl)) fun _ _ => body.bind fun _ holds =>
    Keeps.bind (Keeps.modify (by exact fun _ => rfl)) fun _ _ => .pure holds

theorem looping {pre lead body post : Lower} {preTest postTest contAtTop : Bool}
    (inPre : LowersBelow bound pre) (inLead : LowersBelow bound lead)
    (inBody : LowersBelow bound body) (inPost : LowersBelow bound post) :
    LowersBelow bound (Compiler.looping pre preTest lead body post postTest contAtTop) :=
  inPre.bind fun _ a => inLead.bind fun _ b => inBody.bind fun _ c => inPost.bind fun _ d =>
    .pure ⟨a, ⟨b, c⟩, d⟩

theorem all {lowers : List Lower} (each : ∀ lower ∈ lowers, LowersBelow bound lower) :
    LowersBelow bound (lowerAll lowers) := by
  induction lowers with
  | nil => exact skip
  | cons lower lowers inductionHypothesis =>
      exact (each lower List.mem_cons_self).andThen
        (inductionHypothesis fun l mem => each l (List.mem_cons_of_mem _ mem))

theorem combine (op : BinOp) : LowersBelow bound (lowerCombine op) := by
  unfold lowerCombine
  split
  · rename_i code is
    exact other (opCode_ne (.inr is))
  · exact .throw

theorem indexValue (targetExpr indexNode : AstNode) {index : Lower}
    (inIndex : LowersBelow bound index) :
    LowersBelow bound (lowerIndexValue targetExpr indexNode index) := by
  unfold lowerIndexValue
  split
  · exact (keeps_memberIndexOf _ _).bind fun _ _ => other (by decide)
  · exact inIndex

theorem spreadExpansions (argIsSpread : List Bool) :
    LowersBelow bound (lowerSpreadExpansions argIsSpread) := by
  induction argIsSpread with
  | nil => exact skip
  | cons spread argIsSpread inductionHypothesis =>
      refine andThen ?_ inductionHypothesis
      exact .ite (fun _ => other (by decide)) fun _ => skip

/-! ## Expressions -/

theorem binaryExpr (op : BinOp) {left right : Lower} (inLeft : LowersBelow bound left)
    (inRight : LowersBelow bound right) :
    LowersBelow bound (lowerBinaryExpr op left right) := by
  refine inLeft.andThen (inRight.andThen ?_)
  split
  · rename_i code is
    exact other (opCode_ne (.inl is))
  · exact .throw

theorem logicalExpr (op : BinOp) {left right : Lower} (inLeft : LowersBelow bound left)
    (inRight : LowersBelow bound right) :
    LowersBelow bound (lowerLogicalExpr op left right) := by
  have otherwise : LowersBelow bound (Compiler.inOrder [Compiler.one ⟨.pop, 0, 0⟩, right]) :=
    (other (by decide)).andThen inRight
  exact inLeft.andThen ((other (by decide)).andThen
    (.ite (fun _ => skip.eitherOr otherwise) fun _ => otherwise.ifTrue))

theorem ternaryExpr {condition thenBranch elseBranch : Lower}
    (inCondition : LowersBelow bound condition) (inThen : LowersBelow bound thenBranch)
    (inElse : LowersBelow bound elseBranch) :
    LowersBelow bound (lowerTernaryExpr condition thenBranch elseBranch) :=
  inCondition.andThen (inThen.eitherOr inElse)

theorem catchExpr {guarded : Lower} (inGuarded : LowersBelow bound guarded) :
    LowersBelow bound (lowerCatchExpr guarded) :=
  Keeps.map (inGuarded.andThen (other (by decide))) fun _ holds => holds

theorem timeExpressionExpr {body : Lower} (inBody : LowersBelow bound body) :
    LowersBelow bound (lowerTimeExpressionExpr body) :=
  (other (by decide)).andThen
    (andThen (Keeps.map inBody.block fun _ holds => Code.all_nest holds) (other (by decide)))

theorem assignExpr (name : Str) {value : Lower} (inValue : LowersBelow bound value)
    (compoundOp : Option BinOp) :
    LowersBelow bound (lowerAssignExpr name value compoundOp) := by
  refine (keeps_resolveVariable name).bind fun var below => ?_
  refine andThen ?_ ((other (by decide)).andThen (one (slotBelow_store below)))
  cases compoundOp with
  | none => exact inValue
  | some op => exact (one (slotBelow_push below)).andThen (inValue.andThen (combine op))

theorem incDecExpr (op : IncDecOp) (isPrefix : Bool) (name : Str) :
    LowersBelow bound (lowerIncDecExpr op isPrefix name) := by
  have delta : NamesNone op.deltaOp := by cases op <;> decide
  refine (keeps_resolveVariable name).bind fun var below => .ite (fun _ => ?_) fun _ => ?_
  · exact (one (slotBelow_push below)).andThen ((other (by decide)).andThen
      ((other delta).andThen ((other (by decide)).andThen (one (slotBelow_store below)))))
  · exact (one (slotBelow_push below)).andThen ((other (by decide)).andThen
      ((other (by decide)).andThen ((other delta).andThen (one (slotBelow_store below)))))

theorem indexIncDecExpr (op : IncDecOp) (isPrefix : Bool) {place : Lower}
    (inPlace : LowersBelow bound place) (flags : Int) :
    LowersBelow bound (lowerIndexIncDecExpr op isPrefix place flags) := by
  have delta : NamesNone op.deltaOp := by cases op <;> decide
  refine (keeps_declareIndexAssignTemp _).bind fun oldSlot _ =>
    (keeps_declareIndexAssignTemp _).bind fun newSlot _ => ?_
  exact inPlace.andThen ((other (by decide)).andThen ((other (by decide)).andThen
    ((other (by decide)).andThen ((other (by decide)).andThen ((other delta).andThen
      ((other (by decide)).andThen (inPlace.andThen ((other (by decide)).andThen
        ((other (by decide)).andThen (other (by decide)))))))))))

theorem indexAssignExpr {place value : Lower} (inPlace : LowersBelow bound place)
    (inValue : LowersBelow bound value) (compoundOp : Option BinOp) (flags : Int) :
    LowersBelow bound (lowerIndexAssignExpr place value compoundOp flags) := by
  refine (keeps_declareIndexAssignTemp _).bind fun tempSlot _ => ?_
  refine andThen ?_ ((other (by decide)).andThen (inPlace.andThen ((other (by decide)).andThen
    ((other (by decide)).andThen (other (by decide))))))
  cases compoundOp with
  | none => exact inValue
  | some op =>
      exact inPlace.andThen ((other (by decide)).andThen (inValue.andThen (combine op)))

theorem callInstr (callee : Str) (argCount : Nat) (forceEfun parentCall : Bool)
    (parentQualifier : Str) :
    LowersBelow bound (lowerCallInstr callee argCount forceEfun parentCall parentQualifier) := by
  refine (keeps_internString callee).bind fun calleeIdx _ => .ite (fun _ => ?_) fun _ => ?_
  · have parentCall (qualifierIdx : Int) :
        LowersBelow bound (pure (.op (parentCallOp calleeIdx qualifierIdx argCount))) := by
      refine op fun instr mem => ?_
      simp only [parentCallOp, List.mem_cons, List.not_mem_nil, or_false] at mem
      rcases mem with rfl | rfl
      · exact slotBelow_of_op (by decide)
      · exact slotBelow_of_op (by decide)
    refine .ite (fun _ => ?_) fun _ => ?_
    · exact parentCall (-1)
    · exact (keeps_internString _).bind fun _ _ => parentCall _
  · cases forceEfun
    · exact other (by decide)
    · exact other (by decide)

theorem callExpr (callee : Str) {args : List Lower}
    (inArgs : ∀ arg ∈ args, LowersBelow bound arg) (argIsSpread : List Bool)
    (forceEfun parentCall : Bool) (parentQualifier : Str) :
    LowersBelow bound
      (lowerCallExpr callee args argIsSpread forceEfun parentCall parentQualifier) :=
  (all inArgs).andThen ((spreadExpansions argIsSpread).andThen (callInstr _ _ _ _ _))

theorem callOtherExpr {target function : Lower} (inTarget : LowersBelow bound target)
    (inFunction : LowersBelow bound function) {args : List Lower}
    (inArgs : ∀ arg ∈ args, LowersBelow bound arg) (argIsSpread : List Bool) :
    LowersBelow bound (lowerCallOtherExpr target function args argIsSpread) :=
  inTarget.andThen (inFunction.andThen ((all inArgs).andThen
    ((spreadExpansions argIsSpread).andThen
      ((keeps_internString _).bind fun _ _ => other (by decide)))))

theorem classMembers {fields : List (Str × Lower)}
    (inFields : ∀ field ∈ fields, LowersBelow bound field.2) (members : List Str) :
    LowersBelow bound (lowerClassMembers fields members) := by
  induction members with
  | nil => exact skip
  | cons memberName members inductionHypothesis =>
      refine andThen ?_ inductionHypothesis
      split
      · rename_i field found
        obtain ⟨before, after, whole, _⟩ := List.lookup_eq_some_iff.1 found
        exact inFields (memberName, field)
          (whole ▸ List.mem_append_right _ List.mem_cons_self)
      · exact other (by decide)

theorem newClassExpr (className : Str) {fields : List (Str × Lower)}
    (inFields : ∀ field ∈ fields, LowersBelow bound field.2) :
    LowersBelow bound (lowerNewClassExpr className fields) :=
  (keeps_classMembers className).bind fun members _ =>
    (classMembers inFields members).andThen
      ((keeps_checkFields _ _ _).bind fun _ _ => other (by decide))

theorem mappingLiteralExpr {entries : List (List Lower)}
    (inEntries : ∀ entry ∈ entries, ∀ lower ∈ entry, LowersBelow bound lower) :
    LowersBelow bound (lowerMappingLiteralExpr entries) := by
  refine andThen (all fun lower mem => ?_) (other (by decide))
  obtain ⟨entry, inEntries', inEntry⟩ := List.mem_flatten.1 mem
  exact inEntries entry inEntries' lower inEntry

theorem closureLiteralExpr (functionName : Str) {boundArgs : List Lower}
    (inArgs : ∀ arg ∈ boundArgs, LowersBelow bound arg) (forceEfun : Bool) :
    LowersBelow bound (lowerClosureLiteralExpr functionName boundArgs forceEfun) := by
  refine (all inArgs).andThen ((keeps_internString _).bind fun _ _ => ?_)
  cases forceEfun
  · exact other (by decide)
  · exact other (by decide)

theorem inlineLambdaExpr (bodyExprs : List AstNode) (paramCount : Nat)
    (boundValueExprs : List AstNode) {boundValues : List Lower}
    (inValues : ∀ value ∈ boundValues, LowersBelow bound value) :
    LowersBelow bound
      (lowerInlineLambdaExpr bodyExprs paramCount boundValueExprs boundValues) :=
  (all inValues).andThen ((keeps_deferLambda _ _ _).bind fun _ _ =>
    (keeps_internString _).bind fun _ _ => noted (slotBelow_of_op (by decide)))

theorem anonFunctionExpr (params : List Param) (isVarargs : Bool) (body : List AstNode) :
    LowersBelow bound (lowerAnonFunctionExpr params isVarargs body) :=
  (keeps_deferAnonFunc _ _ _).bind fun _ _ => (keeps_internString _).bind fun _ _ =>
    noted (slotBelow_of_op (by decide))

theorem lambdaParamExpr (index : Nat) (isBoundValue : Bool) :
    LowersBelow bound (lowerLambdaParamExpr index isBoundValue) :=
  (keeps_lambdaParamSlot _ _).bind fun _ _ => other (by decide)

/-! ## `sscanf` -/

/-- The emitters of an output's target name object variables below `bound`. -/
def InTarget (bound : Nat) : LowerTarget → Prop
  | .plain _ => True
  | .indexed place _ => LowersBelow bound place

theorem sscanfSlots {outputs : List LowerTarget}
    (inOutputs : ∀ output ∈ outputs, InTarget bound output) :
    Keeps bound (lowerSscanfSlots outputs) fun slots =>
      (∀ instr ∈ slots.1, SlotBelow bound instr) ∧
        ∀ write ∈ slots.2, LowersBelow bound write.2.1 := by
  induction outputs with
  | nil => exact .pure ⟨nofun, nofun⟩
  | cons output outputs inductionHypothesis =>
      have later := inductionHypothesis fun output mem =>
        inOutputs output (List.mem_cons_of_mem _ mem)
      have head := inOutputs output List.mem_cons_self
      cases output with
      | plain name =>
          refine (keeps_resolveVariable name).bind fun var below => later.bind fun slots holds =>
            .pure ⟨?_, holds.2⟩
          intro instr mem
          rcases List.mem_cons.1 mem with rfl | mem
          · intro names
            simp only [NamesObjectVar, reduceCtorEq, false_or, true_and, ne_eq,
              ite_eq_right_iff, one_ne_zero, imp_false, not_not] at names
            exact ⟨var.slot, below names, rfl⟩
          · exact holds.1 instr mem
      | indexed place flags =>
          refine (keeps_declareIndexAssignTemp _).bind fun slot _ => later.bind fun slots holds =>
            .pure ⟨?_, ?_⟩
          · intro instr mem
            rcases List.mem_cons.1 mem with rfl | mem
            · intro names
              simp [NamesObjectVar] at names
            · exact holds.1 instr mem
          · intro write mem
            rcases List.mem_cons.1 mem with rfl | mem
            · exact head
            · exact holds.2 write mem

theorem sscanfWrites {writes : List (Nat × Lower × Int)}
    (inWrites : ∀ write ∈ writes, LowersBelow bound write.2.1) :
    LowersBelow bound (lowerSscanfWrites writes) := by
  induction writes with
  | nil => exact skip
  | cons write writes inductionHypothesis =>
      have later := inductionHypothesis fun write mem =>
        inWrites write (List.mem_cons_of_mem _ mem)
      exact ((inWrites write List.mem_cons_self).andThen
        ((other (by decide)).andThen (other (by decide)))).andThen later

theorem sscanfExpr {target format : Lower} (inTarget : LowersBelow bound target)
    (inFormat : LowersBelow bound format) {outputs : List LowerTarget}
    (inOutputs : ∀ output ∈ outputs, InTarget bound output) :
    LowersBelow bound (lowerSscanfExpr target format outputs) := by
  refine inTarget.andThen (inFormat.andThen ?_)
  refine (sscanfSlots inOutputs).bind fun slots holds =>
    (sscanfWrites holds.2).bind fun write below => .pure ⟨?_, below⟩
  intro instr mem
  rcases List.mem_cons.1 mem with rfl | mem
  · exact slotBelow_of_op (by decide)
  · exact holds.1 instr mem

/-! ## Statements -/

theorem returnStmt {expr : Option Lower} (inExpr : ∀ l ∈ expr, LowersBelow bound l) :
    LowersBelow bound (lowerReturnStmt expr) := by
  cases expr with
  | none => exact noted (slotBelow_of_op (by decide))
  | some expr => exact (inExpr expr rfl).andThen (other (by decide))

theorem varDeclStmt (type name : Str) {initializer : Option Lower}
    (inInitializer : ∀ l ∈ initializer, LowersBelow bound l) :
    LowersBelow bound (lowerVarDeclStmt type name initializer) := by
  refine (keeps_declareLocal _ _).bind fun slot _ => ?_
  cases initializer with
  | none => exact skip
  | some value => exact (inInitializer value rfl).andThen (other (by decide))

theorem assignStmt (name : Str) {value : Lower} (inValue : LowersBelow bound value) :
    LowersBelow bound (lowerAssignStmt name value) :=
  (keeps_resolveVariable name).bind fun _ below =>
    inValue.andThen (one (slotBelow_store below))

theorem indexAssignStmt {place value : Lower} (inPlace : LowersBelow bound place)
    (inValue : LowersBelow bound value) (compoundOp : Option BinOp) (flags : Int) :
    LowersBelow bound (lowerIndexAssignStmt place value compoundOp flags) := by
  cases compoundOp with
  | none => exact inPlace.andThen (inValue.andThen (other (by decide)))
  | some op =>
      exact inPlace.andThen (inPlace.andThen ((other (by decide)).andThen
        (inValue.andThen ((combine op).andThen (other (by decide))))))

theorem ifStmt {condition thenBranch : Lower} (inCondition : LowersBelow bound condition)
    (inThen : LowersBelow bound thenBranch) {elseBranch : Option Lower}
    (inElse : ∀ l ∈ elseBranch, LowersBelow bound l) :
    LowersBelow bound (lowerIfStmt condition thenBranch elseBranch) := by
  refine inCondition.andThen ?_
  cases elseBranch with
  | none => exact inThen.block.ifTrue
  | some elseBranch => exact inThen.block.eitherOr (inElse elseBranch rfl).block

theorem whileStmt {condition body : Lower} (inCondition : LowersBelow bound condition)
    (inBody : LowersBelow bound body) :
    LowersBelow bound (lowerWhileStmt condition body) :=
  looping inCondition skip inBody.block skip

theorem doWhileStmt {condition body : Lower} (inCondition : LowersBelow bound condition)
    (inBody : LowersBelow bound body) :
    LowersBelow bound (lowerDoWhileStmt condition body) :=
  looping skip skip inBody.block inCondition

theorem forStmt {init update body : Lower} (inInit : LowersBelow bound init)
    {condition : Option Lower} (inCondition : ∀ l ∈ condition, LowersBelow bound l)
    (inUpdate : LowersBelow bound update) (inBody : LowersBelow bound body) :
    LowersBelow bound (lowerForStmt init condition update body) :=
  (inInit.andThen (looping (ifSome inCondition) skip inBody.block inUpdate)).block

theorem foreachLead (varName : Str) (declareVar : Bool) (varClassType : Str)
    (valueVar : Option ForeachValueVar) (origSlot iterSlot idxSlot : Nat) :
    LowersBelow bound (lowerForeachLead varName declareVar varClassType valueVar origSlot
      iterSlot idxSlot) := by
  refine (keeps_foreachVariable _ _ _).bind fun keyVar below => ?_
  refine (other (by decide)).andThen ((other (by decide)).andThen ((other (by decide)).andThen
    ((one (slotBelow_store below)).andThen ?_)))
  cases valueVar with
  | none => exact skip
  | some value =>
      exact (keeps_foreachVariable _ _ _).bind fun valVar below' =>
        (other (by decide)).andThen ((one (slotBelow_push below)).andThen
          ((other (by decide)).andThen (one (slotBelow_store below'))))

theorem foreachTest (iterSlot idxSlot : Nat) :
    LowersBelow bound (lowerForeachTest iterSlot idxSlot) :=
  (other (by decide)).andThen ((other (by decide)).andThen
    (andThen ((keeps_internString _).bind fun _ _ => other (by decide)) (other (by decide))))

theorem foreachStmt (varName : Str) (declareVar : Bool) (varClassType : Str)
    (valueVar : Option ForeachValueVar) {collection body : Lower}
    (inCollection : LowersBelow bound collection) (inBody : LowersBelow bound body) :
    LowersBelow bound
      (lowerForeachStmt varName declareVar varClassType valueVar collection body) := by
  have next (idxSlot : Nat) : LowersBelow bound (lowerForeachNext idxSlot) :=
    (other (by decide)).andThen ((other (by decide)).andThen
      ((other (by decide)).andThen (other (by decide))))
  refine block (keeps_freshForeachId.bind fun id _ =>
    (keeps_declareLocal _ _).bind fun origSlot _ => ?_)
  refine inCollection.andThen ((other (by decide)).andThen
    ((keeps_declareLocal _ _).bind fun iterSlot _ => ?_))
  refine (other (by decide)).andThen ((other (by decide)).andThen ((other (by decide)).andThen
    ((keeps_declareLocal _ _).bind fun idxSlot _ => ?_)))
  exact (other (by decide)).andThen ((other (by decide)).andThen
    (looping (foreachTest _ _) (foreachLead _ _ _ _ _ _ _) inBody.block (next idxSlot)))

/-- The emitters of an entry of a switch body name object variables below
`bound`. -/
def InItem (bound : Nat) : LowerItem → Prop
  | .label value rangeEnd =>
      (∀ l ∈ value, LowersBelow bound l) ∧ ∀ l ∈ rangeEnd, LowersBelow bound l
  | .statement lower => LowersBelow bound lower

theorem switchTest (subjSlot : Nat) {value : Lower} (inValue : LowersBelow bound value)
    {rangeEnd : Option Lower} (inEnd : ∀ l ∈ rangeEnd, LowersBelow bound l) :
    LowersBelow bound (lowerSwitchTest subjSlot value rangeEnd) := by
  refine (other (by decide)).andThen (inValue.andThen (andThen ?_ (other (by decide))))
  cases rangeEnd with
  | none => exact other (by decide)
  | some rangeEnd =>
      exact (other (by decide)).andThen ((other (by decide)).andThen
        (ifTrue ((other (by decide)).andThen ((other (by decide)).andThen
          ((inEnd rangeEnd rfl).andThen (other (by decide)))))))

theorem switchTests (subjSlot : Nat) {items : List LowerItem}
    (inItems : ∀ item ∈ items, InItem bound item) (i : Nat) :
    LowersBelow bound (lowerSwitchTests subjSlot i items) := by
  induction items generalizing i with
  | nil => exact skip
  | cons item items inductionHypothesis =>
      have later := inductionHypothesis (fun item mem => inItems item (List.mem_cons_of_mem _ mem))
        (i + 1)
      have head := inItems item List.mem_cons_self
      cases item with
      | statement lower => exact later
      | label value rangeEnd =>
          cases value with
          | none => exact later
          | some value =>
              have branch : LowersBelow bound (pure (.branch i)) := .pure trivial
              exact ((switchTest subjSlot (head.1 value rfl) head.2).andThen branch).andThen later

theorem switchBodies {items : List LowerItem} (inItems : ∀ item ∈ items, InItem bound item) :
    LowersBelow bound (lowerSwitchBodies items) := by
  induction items with
  | nil => exact skip
  | cons item items inductionHypothesis =>
      have later := inductionHypothesis fun item mem => inItems item (List.mem_cons_of_mem _ mem)
      have head := inItems item List.mem_cons_self
      cases item with
      | statement lower => exact andThen (Keeps.map head fun _ holds => holds) later
      | label value rangeEnd => exact skip.andThen later

theorem switchStmt {subject : Lower} (inSubject : LowersBelow bound subject)
    {items : List LowerItem} (inItems : ∀ item ∈ items, InItem bound item) :
    LowersBelow bound (lowerSwitchStmt subject items) := by
  refine keeps_declareSwitchSubject.bind fun subjSlot _ => ?_
  exact inSubject.andThen ((other (by decide)).andThen
    ((switchTests subjSlot inItems 0).bind fun _ tests =>
      (switchBodies inItems).bind fun _ bodies => .pure ⟨⟨tests, trivial⟩, bodies⟩))

end LowersBelow

end Kjdmud.Compiler
