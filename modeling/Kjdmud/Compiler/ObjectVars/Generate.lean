import Kjdmud.Compiler.ObjectVars

/-!
# The object-variable slots of a generated program

By recursion over the syntax tree, and then along the loops of `generate`: every
instruction of the program that names an object variable names one of its own.
-/

namespace Kjdmud.Compiler

open Kjdmud.Vm Kjdmud.Structured Kjdmud.StateExcept

/-! ## The recursion over the tree -/

section Tree

variable (bound : Nat)

mutual

theorem below_expr : (n : AstNode) → LowersBelow bound (lowerExpr n)
  | .stringLiteral _ => (keeps_internString _).bind fun _ _ => LowersBelow.other (by decide)
  | .intLiteral _ => .other (by decide)
  | .floatLiteral _ => (keeps_internFloat _).bind fun _ _ => LowersBelow.other (by decide)
  | .nilLiteral => .other (by decide)
  | .symbolLiteralExpr _ => (keeps_internString _).bind fun _ _ => LowersBelow.other (by decide)
  | .varRefExpr _ => (keeps_resolveVariable _).bind fun _ below => LowersBelow.one (slotBelow_push below)
  | .binaryExpr op left right => by
      simp only [lowerExpr]
      by_cases logical : op = .or ∨ op = .and
      · rw [if_pos logical]
        exact .logicalExpr op (below_expr left) (below_expr right)
      · rw [if_neg logical]
        exact .binaryExpr op (below_expr left) (below_expr right)
  | .commaExpr left right =>
      (below_expr left).andThen ((LowersBelow.other (by decide)).andThen (below_expr right))
  | .unaryExpr .not operand => (below_expr operand).andThen (.other (by decide))
  | .unaryExpr .bitNot operand => (below_expr operand).andThen (.other (by decide))
  | .unaryExpr .neg operand =>
      (LowersBelow.other (by decide)).andThen
        ((below_expr operand).andThen (.other (by decide)))
  | .ternaryExpr condition thenBranch elseBranch =>
      .ternaryExpr (below_expr condition) (below_expr thenBranch) (below_expr elseBranch)
  | .callExpr callee args argIsSpread forceEfun parentCall parentQualifier =>
      .callExpr callee (below_exprs args) argIsSpread forceEfun parentCall parentQualifier
  | .callOtherExpr target function args argIsSpread =>
      .callOtherExpr (below_expr target) (below_expr function) (below_exprs args) argIsSpread
  | .sscanfExpr target format outputs =>
      .sscanfExpr (below_expr target) (below_expr format) (below_targets outputs)
  | .catchExpr guarded => .catchExpr (below_expr guarded)
  | .closureLiteralExpr functionName boundArgs forceEfun =>
      .closureLiteralExpr functionName (below_exprs boundArgs) forceEfun
  | .inlineLambdaExpr bodyExprs paramCount boundValueExprs =>
      .inlineLambdaExpr bodyExprs paramCount boundValueExprs (below_exprs boundValueExprs)
  | .lambdaParamExpr index isBoundValue => .lambdaParamExpr index isBoundValue
  | .assignExpr name value compoundOp => .assignExpr name (below_expr value) compoundOp
  | .incDecExpr op isPrefix name => .incDecExpr op isPrefix name
  | .indexIncDecExpr op isPrefix indexTarget indexKey mapColumn =>
      .indexIncDecExpr op isPrefix
        ((below_expr indexTarget).andThen
          ((LowersBelow.indexValue _ _ (below_expr indexKey)).andThen
            (.ifSome (below_optional mapColumn)))) _
  | .arrayLiteralExpr elements elementIsSpread =>
      (LowersBelow.all (below_exprs elements)).andThen
        ((LowersBelow.spreadExpansions elementIsSpread).andThen (.other (by decide)))
  | .mappingLiteralExpr entries => .mappingLiteralExpr (below_entries entries)
  | .memberNameMarker _ => .throw
  | .typeCastExpr _ inner => below_expr inner
  | .newClassExpr className fieldInits => .newClassExpr className (below_fields fieldInits)
  | .indexExpr target index none _ _ mapColumn =>
      (below_expr target).andThen
        ((LowersBelow.indexValue target index (below_expr index)).andThen
          ((LowersBelow.ifSome (below_optional mapColumn)).andThen (.other (by decide))))
  | .indexExpr target index (some rangeEnd) _ _ _ =>
      (below_expr target).andThen
        ((LowersBelow.indexValue target index (below_expr index)).andThen
          ((below_expr rangeEnd).andThen (.other (by decide))))
  | .indexAssignExpr target index value compoundOp mapColumn =>
      .indexAssignExpr
        ((below_expr target).andThen
          ((LowersBelow.indexValue _ _ (below_expr index)).andThen
            (.ifSome (below_optional mapColumn))))
        (below_expr value) compoundOp _
  | .anonFunctionExpr params isVarargs body => .anonFunctionExpr params isVarargs body
  | .timeExpressionExpr body => .timeExpressionExpr (below_statements body)
  | .exprStmt _ | .returnStmt _ | .varDeclStmt _ _ _ | .assignStmt _ _
  | .indexAssignStmt _ _ _ _ _ | .block _ _ | .ifStmt _ _ _ | .whileStmt _ _
  | .doWhileStmt _ _ | .forStmt _ _ _ _ | .breakStmt | .continueStmt | .caseLabel _ _
  | .switchStmt _ _ | .foreachStmt _ _ _ _ _ _ => .throw

theorem below_exprs : (nodes : List AstNode) →
    ∀ lower ∈ lowerExprs nodes, LowersBelow bound lower
  | [] => nofun
  | node :: nodes => List.forall_mem_cons.2 ⟨below_expr node, below_exprs nodes⟩

theorem below_optional : (node : Option AstNode) →
    ∀ lower ∈ lowerOptional node, LowersBelow bound lower
  | none => nofun
  | some node => by
      intro lower mem
      cases mem
      exact below_expr node

theorem below_entries : (entries : List (AstNode × List AstNode)) →
    ∀ entry ∈ lowerEntries entries, ∀ lower ∈ entry, LowersBelow bound lower
  | [] => nofun
  | (key, values) :: entries =>
      List.forall_mem_cons.2
        ⟨List.forall_mem_cons.2 ⟨below_expr key, below_exprs values⟩, below_entries entries⟩

theorem below_fields : (fields : List (Str × AstNode)) →
    ∀ field ∈ lowerFields fields, LowersBelow bound field.2
  | [] => nofun
  | (_, value) :: fields => List.forall_mem_cons.2 ⟨below_expr value, below_fields fields⟩

theorem below_targets : (outputs : List (Str × Option AstNode)) →
    ∀ output ∈ lowerTargets outputs, LowersBelow.InTarget bound output
  | [] => nofun
  | (_, none) :: outputs => List.forall_mem_cons.2 ⟨trivial, below_targets outputs⟩
  | (_, some node) :: outputs => by
      cases node with
      | indexExpr target index _ _ _ mapColumn =>
          exact List.forall_mem_cons.2
            ⟨(below_expr target).andThen ((below_expr index).andThen
              (.ifSome (below_optional mapColumn))), below_targets outputs⟩
      | _ => exact List.forall_mem_cons.2 ⟨Keeps.throw, below_targets outputs⟩

theorem below_statement : (n : AstNode) → LowersBelow bound (lowerStatement n)
  | .block statements true => (below_statements statements).block
  | .block statements false => below_statements statements
  | .exprStmt expr => (below_expr expr).andThen (.other (by decide))
  | .returnStmt expr => .returnStmt (below_optional expr)
  | .varDeclStmt type name initializer => .varDeclStmt type name (below_optional initializer)
  | .assignStmt name value => .assignStmt name (below_expr value)
  | .indexAssignStmt target index value compoundOp mapColumn =>
      .indexAssignStmt
        ((below_expr target).andThen
          ((LowersBelow.indexValue _ _ (below_expr index)).andThen
            (.ifSome (below_optional mapColumn))))
        (below_expr value) compoundOp _
  | .ifStmt condition thenBranch elseBranch =>
      .ifStmt (below_expr condition) (below_statements thenBranch) (below_else elseBranch)
  | .whileStmt condition body => .whileStmt (below_expr condition) (below_statements body)
  | .doWhileStmt condition body => .doWhileStmt (below_expr condition) (below_statements body)
  | .forStmt init condition update body =>
      .forStmt (below_init init) (below_optional condition) (below_update update)
        (below_statements body)
  | .foreachStmt varName declareVar varClassType valueVar collection body =>
      .foreachStmt varName declareVar varClassType valueVar (below_expr collection)
        (below_statements body)
  | .switchStmt subject body => .switchStmt (below_expr subject) (below_items body)
  | .breakStmt => .pure trivial
  | .continueStmt => .pure trivial
  | .stringLiteral _ | .intLiteral _ | .floatLiteral _ | .nilLiteral | .symbolLiteralExpr _
  | .varRefExpr _ | .binaryExpr .. | .commaExpr .. | .unaryExpr .. | .ternaryExpr ..
  | .callExpr .. | .callOtherExpr .. | .sscanfExpr .. | .catchExpr _ | .closureLiteralExpr ..
  | .inlineLambdaExpr .. | .lambdaParamExpr .. | .assignExpr .. | .incDecExpr ..
  | .indexIncDecExpr .. | .arrayLiteralExpr .. | .mappingLiteralExpr _ | .memberNameMarker _
  | .typeCastExpr .. | .newClassExpr .. | .indexExpr .. | .indexAssignExpr ..
  | .anonFunctionExpr .. | .timeExpressionExpr _ | .caseLabel .. => .throw

theorem below_statements : (statements : List AstNode) →
    LowersBelow bound (lowerStatements statements)
  | [] => .skip
  | statement :: statements =>
      LowersBelow.andThen (Keeps.map (below_statement statement) fun _ holds => holds)
        (below_statements statements)

theorem below_else : (statements : Option (List AstNode)) →
    ∀ lower ∈ lowerElse statements, LowersBelow bound lower
  | none => nofun
  | some statements => by
      intro lower mem
      cases mem
      exact below_statements statements

theorem below_init : (init : Option AstNode) → LowersBelow bound (lowerInit init)
  | none => .skip
  | some node => by
      cases node with
      | varDeclStmt type name initializer =>
          exact .varDeclStmt type name (below_optional initializer)
      | block statements _ => exact (below_statements statements).block
      | _ => exact (below_expr _).andThen (.other (by decide))

theorem below_update : (update : Option AstNode) → LowersBelow bound (lowerUpdate update)
  | none => .skip
  | some node => by
      cases node with
      | block statements _ => exact (below_statements statements).block
      | _ => exact (below_expr _).andThen (.other (by decide))

theorem below_items : (nodes : List AstNode) →
    ∀ item ∈ lowerItems nodes, LowersBelow.InItem bound item
  | [] => nofun
  | node :: nodes => by
      cases node with
      | caseLabel value rangeEnd =>
          exact List.forall_mem_cons.2
            ⟨⟨below_optional value, below_optional rangeEnd⟩, below_items nodes⟩
      | _ => exact List.forall_mem_cons.2 ⟨below_statement _, below_items nodes⟩

end

end Tree

/-! ## Emitters -/

/-- The code and the names of a code generator name object variables below
`bound`. -/
structure CodeGen.SlotsBelow (bound : Nat) (gen : CodeGen) : Prop where
  names : gen.toNames.SlotsBelow bound
  code : ∀ instr ∈ gen.code, SlotBelow bound instr

/-- An emitter keeps to object variables below `bound`. -/
def EmitsBelow (bound : Nat) {α : Type} (m : Gen α) : Prop :=
  ∀ gen a gen', gen.SlotsBelow bound → m gen = .ok (a, gen') → gen'.SlotsBelow bound

namespace EmitsBelow

variable {bound : Nat} {α β : Type}

theorem pure (a : α) : EmitsBelow bound (Pure.pure a : Gen α) := by
  intro gen b gen' below run
  obtain ⟨_, rfl⟩ := pure_eq_ok.1 run
  exact below

theorem bind {m : Gen α} {rest : α → Gen β} (first : EmitsBelow bound m)
    (second : ∀ a, EmitsBelow bound (rest a)) : EmitsBelow bound (m >>= rest) := by
  intro gen b gen'' below run
  obtain ⟨a, gen', run₁, run₂⟩ := bind_eq_ok.1 run
  exact second a gen' b gen'' (first gen a gen' below run₁) run₂

theorem throw {error : GenError} : EmitsBelow bound (throw error : Gen α) :=
  fun _ _ _ _ run => absurd run throw_ne_ok

theorem get : EmitsBelow bound (MonadStateOf.get : Gen CodeGen) := by
  intro gen a gen' below run
  cases run
  exact below

theorem modify {f : CodeGen → CodeGen}
    (same : ∀ gen, (f gen).objectVars = gen.objectVars ∧ (f gen).code = gen.code) :
    EmitsBelow bound (modify f : Gen Unit) := by
  intro gen a gen' below run
  cases run
  constructor
  · unfold Names.SlotsBelow
    rw [(same gen).1]
    exact below.names
  · rw [(same gen).2]
    exact below.code

theorem naming {n : Naming α} {result : α → Prop} (keeps : Keeps bound n result) :
    EmitsBelow bound (monadLift n : Gen α) := by
  intro gen a gen' below run
  obtain ⟨named, _, code, _⟩ := onNames_run run
  exact ⟨(keeps gen.toNames a gen'.toNames below.names named).1, code ▸ below.code⟩

theorem emit {instr : Instruction} (below : SlotBelow bound instr) :
    EmitsBelow bound (emit instr) := by
  intro gen a gen' gens run
  obtain ⟨names, _, _, code⟩ := emit_run run
  refine ⟨names ▸ gens.names, ?_⟩
  intro other mem
  rw [code, List.mem_append, List.mem_singleton] at mem
  rcases mem with mem | rfl
  · exact gens.code other mem
  · exact below

/-- An emitter of structured code that keeps to object variables below
`bound`. -/
theorem of_lowering {m : Gen Unit} {lower : Lower} (realizes : Realizes m lower)
    (below : LowersBelow bound lower) : EmitsBelow bound m := by
  intro gen a gen' gens run
  obtain ⟨c, lowered, emitted⟩ := realizes gen gen' run
  obtain ⟨names, all⟩ := below gen.toNames c gen'.toNames gens.names lowered
  refine ⟨names, ?_⟩
  intro instr mem
  rw [emitted.code, List.mem_append] at mem
  rcases mem with mem | mem
  · exact gens.code instr mem
  · obtain ⟨f, inFlat, rfl⟩ := List.mem_map.1 mem
    have holds := Code.flatAll_of_mem all inFlat
    cases f with
    | op i => exact holds i.instr List.mem_cons_self
    | data i k =>
        simp only [assemble]
        cases entry : i.table[k]? with
        | none => exact slotBelow_of_op (by decide)
        | some instr =>
            exact holds instr (List.mem_cons_of_mem _ (List.mem_of_getElem? entry))
    | jump _ | jumpIfFalse _ | guard _ | unguard => exact slotBelow_of_op (by decide)

theorem expr (n : AstNode) : EmitsBelow bound (emitExpr n) :=
  of_lowering (realizes_expr n) (below_expr bound n)

theorem statements (nodes : List AstNode) : EmitsBelow bound (emitBlock (emitStatements nodes)) :=
  of_lowering (realizes_statements nodes).block (below_statements bound nodes).block

theorem beginFunction : EmitsBelow bound beginFunction :=
  EmitsBelow.bind (naming (Keeps.modify (by exact fun _ => rfl))) fun _ =>
    modify (by exact fun _ => ⟨rfl, rfl⟩)

theorem declareParams (params : List Param) : EmitsBelow bound
    (monadLift (declareParams params) : Gen Unit) := by
  have keeps : Keeps bound (Compiler.declareParams params) fun _ => True := by
    induction params with
    | nil => exact .pure trivial
    | cons param params inductionHypothesis =>
        exact (keeps_declareLocal _ _).bind fun _ _ => inductionHypothesis
  exact naming keeps

theorem here : EmitsBelow bound here :=
  get.bind fun _ => pure _

theorem finishFunction (name : Str) (entryPoint numArgs : Nat) (isVarargs : Bool) :
    EmitsBelow bound (finishFunction name entryPoint numArgs isVarargs) :=
  EmitsBelow.bind (emit (slotBelow_of_op (by decide))) fun _ =>
    modify (by exact fun _ => ⟨rfl, rfl⟩)

theorem lambdaBody (nodes : List AstNode) :
    EmitsBelow bound (emitLambdaBody (exprEmitters nodes)) := by
  induction nodes with
  | nil => exact pure ()
  | cons node nodes inductionHypothesis =>
      cases nodes with
      | nil => exact expr node
      | cons next nodes =>
          exact (expr node).bind fun _ => (emit (slotBelow_of_op (by decide))).bind fun _ =>
            inductionHypothesis

theorem pendingLambda (pending : PendingLambda) :
    EmitsBelow bound (emitPendingLambda pending) :=
  EmitsBelow.bind beginFunction fun _ =>
    EmitsBelow.bind (naming (Keeps.modify (by exact fun _ => rfl))) fun _ =>
      EmitsBelow.bind here fun _ =>
        EmitsBelow.bind (lambdaBody _) fun _ => finishFunction _ _ _ _

theorem pendingAnonFunc (pending : PendingAnonFunc) :
    EmitsBelow bound (emitPendingAnonFunc pending) :=
  EmitsBelow.bind beginFunction fun _ => EmitsBelow.bind (declareParams _) fun _ =>
    EmitsBelow.bind here fun _ =>
      EmitsBelow.bind (statements _) fun _ => finishFunction _ _ _ _

theorem pendingLambdas (budget i : Nat) : EmitsBelow bound (emitPendingLambdas budget i) := by
  induction budget generalizing i with
  | zero => exact throw
  | succ budget inductionHypothesis =>
      refine get.bind fun gen => ?_
      split
      · exact modify (by exact fun _ => ⟨rfl, rfl⟩)
      · exact (pendingLambda _).bind fun _ => inductionHypothesis (i + 1)

theorem pendingAnonFuncs (budget i : Nat) :
    EmitsBelow bound (emitPendingAnonFuncs budget i) := by
  induction budget generalizing i with
  | zero => exact throw
  | succ budget inductionHypothesis =>
      refine get.bind fun gen => ?_
      split
      · exact modify (by exact fun _ => ⟨rfl, rfl⟩)
      · exact (pendingAnonFunc _).bind fun _ => inductionHypothesis (i + 1)

theorem drainPending (budget rounds : Nat) : EmitsBelow bound (drainPending budget rounds) := by
  induction rounds with
  | zero => exact throw
  | succ rounds inductionHypothesis =>
      refine get.bind fun gen => ?_
      split
      · exact pure ()
      · exact (pendingLambdas _ _).bind fun _ => (pendingAnonFuncs _ _).bind fun _ =>
          inductionHypothesis

theorem function (budget : Nat) (fn : FunctionDecl) (body : List AstNode) :
    EmitsBelow bound (emitFunction budget fn body) :=
  EmitsBelow.bind beginFunction fun _ => EmitsBelow.bind (declareParams _) fun _ =>
    EmitsBelow.bind here fun _ => EmitsBelow.bind (statements _) fun _ =>
      EmitsBelow.bind (finishFunction _ _ _ _) fun _ => drainPending _ _

theorem functions (budget : Nat) (fns : List FunctionDecl) :
    EmitsBelow bound (emitFunctions budget fns) := by
  induction fns with
  | nil => exact pure ()
  | cons fn fns inductionHypothesis =>
      unfold emitFunctions
      split
      · exact (function _ _ _).bind fun _ => inductionHypothesis
      · exact (pure ()).bind fun _ => inductionHypothesis

theorem initializers {entries : List (Nat × AstNode)}
    (below : ∀ entry ∈ entries, entry.1 < bound) :
    EmitsBelow bound (emitInitializers entries) := by
  induction entries with
  | nil => exact pure ()
  | cons entry entries inductionHypothesis =>
      obtain ⟨slot, initExpr⟩ := entry
      have head : slot < bound := below _ List.mem_cons_self
      exact (expr _).bind fun _ => (emit fun _ => ⟨slot, head, rfl⟩).bind fun _ =>
        inductionHypothesis fun entry mem => below entry (List.mem_cons_of_mem _ mem)

theorem objVarInit (budget : Nat) {entries : List (Nat × AstNode)}
    (below : ∀ entry ∈ entries, entry.1 < bound) :
    EmitsBelow bound (emitObjVarInit budget entries) := by
  unfold emitObjVarInit
  split
  · exact pure ()
  · exact EmitsBelow.bind beginFunction fun _ => EmitsBelow.bind here fun _ =>
      EmitsBelow.bind (initializers below) fun _ =>
        EmitsBelow.bind (finishFunction _ _ _ _) fun _ => pendingLambdas _ _

end EmitsBelow

/-! ## Programs -/

/-- Numbering from `slot` on, the declared variables take the next slots. -/
theorem numberObjectVars_below (decls : List ObjectVarDecl) (slot : Nat) :
    (numberObjectVars slot decls).2.1.length = decls.length ∧
      (∀ entry ∈ (numberObjectVars slot decls).1, entry.2 < slot + decls.length) ∧
      ∀ entry ∈ (numberObjectVars slot decls).2.2, entry.1 < slot + decls.length := by
  induction decls generalizing slot with
  | nil => exact ⟨rfl, nofun, nofun⟩
  | cons decl decls inductionHypothesis =>
      obtain ⟨names, slots, initializers⟩ := inductionHypothesis (slot + 1)
      simp only [numberObjectVars, List.length_cons]
      refine ⟨by rw [names], ?_, ?_⟩
      · intro entry mem
        rcases List.mem_append.1 mem with mem | mem
        · have := slots entry mem
          omega
        · rw [List.mem_singleton] at mem
          subst mem
          simp only
          omega
      · intro entry mem
        cases init : decl.initializer with
        | none =>
            rw [init] at mem
            have := initializers entry mem
            omega
        | some expr =>
            rw [init] at mem
            rcases List.mem_cons.1 mem with rfl | mem
            · simp only
              omega
            · have := initializers entry mem
              omega

/-- **The object variables that generated code names are the program's own.** -/
theorem generateState_below {budget : Nat} {program : Program}
    {inheritedObjectVarNames : List Str} {gen : CodeGen}
    (generated : generateState budget program inheritedObjectVarNames = .ok gen) :
    ∀ instr ∈ gen.code,
      SlotBelow (inheritedObjectVarNames.length + program.objectVars.length) instr := by
  have numbered := numberObjectVars_below program.objectVars inheritedObjectVarNames.length
  have start : (initialState program inheritedObjectVarNames).SlotsBelow
      (inheritedObjectVarNames.length + program.objectVars.length) := by
    refine ⟨?_, nofun⟩
    intro entry mem
    rcases List.mem_append.1 mem with mem | mem
    · exact numbered.2.1 entry mem
    · rw [List.mem_reverse] at mem
      have := (List.mem_zipIdx mem).2.1
      omega
  have emits := (EmitsBelow.objVarInit budget numbered.2.2).bind
    fun _ => EmitsBelow.functions budget program.functions
  rw [generateState] at generated
  generalize ran : StateT.run _ _ = result at generated
  cases result with
  | error error => cases generated
  | ok result =>
      cases generated
      exact (emits _ _ _ start ran).code

end Kjdmud.Compiler
