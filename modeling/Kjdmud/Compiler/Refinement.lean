import Kjdmud.Compiler.Refinement.Statements

/-!
# The code generator refines the lowering

By recursion over the syntax tree: `emitExpr` and `emitStatement` emit the flat
form of the structured code that `lowerExpr` and `lowerStatement` compute.
-/

namespace Kjdmud.Compiler

open Kjdmud.Vm Kjdmud.Structured Kjdmud.StateExcept

mutual

theorem realizes_expr : (n : AstNode) → Realizes (emitExpr n) (lowerExpr n)
  | .stringLiteral _ => .naming fun _ => .one _
  | .intLiteral _ => .one _
  | .floatLiteral _ => .naming fun _ => .one _
  | .nilLiteral => .one _
  | .symbolLiteralExpr _ => .naming fun _ => .one _
  | .varRefExpr _ => .naming fun _ => .one _
  | .binaryExpr op left right => by
      simp only [emitExpr, lowerExpr]
      by_cases logical : op = .or ∨ op = .and
      · rw [if_pos logical, if_pos logical]
        exact .logicalExpr op (realizes_expr left) (realizes_expr right)
      · rw [if_neg logical, if_neg logical]
        exact .binaryExpr op (realizes_expr left) (realizes_expr right)
  | .commaExpr left right =>
      (realizes_expr left).andThen ((Realizes.one _).andThen (realizes_expr right))
  | .unaryExpr .not operand => (realizes_expr operand).andThen (.one _)
  | .unaryExpr .bitNot operand => (realizes_expr operand).andThen (.one _)
  | .unaryExpr .neg operand =>
      (Realizes.one _).andThen ((realizes_expr operand).andThen (.one _))
  | .ternaryExpr condition thenBranch elseBranch =>
      .ternaryExpr (realizes_expr condition) (realizes_expr thenBranch)
        (realizes_expr elseBranch)
  | .callExpr callee args argIsSpread forceEfun parentCall parentQualifier =>
      .callExpr callee argIsSpread forceEfun parentCall parentQualifier
        (realizes_exprs args)
  | .callOtherExpr target function args argIsSpread =>
      .callOtherExpr argIsSpread (realizes_expr target) (realizes_expr function)
        (realizes_exprs args)
  | .sscanfExpr target format outputs =>
      .sscanfExpr (realizes_expr target) (realizes_expr format) (realizes_targets outputs)
  | .catchExpr guarded => .catchExpr (realizes_expr guarded)
  | .closureLiteralExpr functionName boundArgs forceEfun =>
      .closureLiteralExpr functionName forceEfun (realizes_exprs boundArgs)
  | .inlineLambdaExpr bodyExprs paramCount boundValueExprs =>
      .inlineLambdaExpr bodyExprs paramCount boundValueExprs
        (realizes_exprs boundValueExprs)
  | .lambdaParamExpr index isBoundValue => .lambdaParamExpr index isBoundValue
  | .assignExpr name value compoundOp => .assignExpr name (realizes_expr value) compoundOp
  | .incDecExpr op isPrefix name => .incDecExpr op isPrefix name
  | .indexIncDecExpr op isPrefix indexTarget indexKey mapColumn =>
      .indexIncDecExpr op isPrefix _
        ((realizes_expr indexTarget).andThen
          ((Realizes.indexValue _ _ (realizes_expr indexKey)).andThen
            (.ifSome (realizes_optional mapColumn))))
  | .arrayLiteralExpr elements elementIsSpread =>
      (Realizes.all (realizes_exprs elements)).andThen
        ((Realizes.spreadExpansions elementIsSpread).andThen (.one _))
  | .mappingLiteralExpr entries => .mappingLiteralExpr (realizes_entries entries)
  | .memberNameMarker _ => .throw
  | .typeCastExpr _ inner => realizes_expr inner
  | .newClassExpr className fieldInits =>
      .newClassExpr className (realizes_fields fieldInits)
  | .indexExpr target index none _ _ mapColumn => by
      simpa [emitExpr, lowerExpr, optionalEmitter, lowerOptional, inOrder, bind_assoc]
        using (realizes_expr target).andThen
          ((Realizes.indexValue target index (realizes_expr index)).andThen
            ((Realizes.ifSome (realizes_optional mapColumn)).andThen (.one _)))
  | .indexExpr target index (some rangeEnd) _ _ _ => by
      simpa [emitExpr, lowerExpr, optionalEmitter, lowerOptional, inOrder, bind_assoc]
        using (realizes_expr target).andThen
          ((Realizes.indexValue target index (realizes_expr index)).andThen
            ((realizes_expr rangeEnd).andThen (.one _)))
  | .indexAssignExpr target index value compoundOp mapColumn =>
      .indexAssignExpr compoundOp _
        ((realizes_expr target).andThen
          ((Realizes.indexValue _ _ (realizes_expr index)).andThen
            (.ifSome (realizes_optional mapColumn))))
        (realizes_expr value)
  | .anonFunctionExpr params isVarargs body => .anonFunctionExpr params isVarargs body
  | .timeExpressionExpr body => .timeExpressionExpr (realizes_statements body)
  | .exprStmt _ | .returnStmt _ | .varDeclStmt _ _ _ | .assignStmt _ _
  | .indexAssignStmt _ _ _ _ _ | .block _ _ | .ifStmt _ _ _ | .whileStmt _ _
  | .doWhileStmt _ _ | .forStmt _ _ _ _ | .breakStmt | .continueStmt | .caseLabel _ _
  | .switchStmt _ _ | .foreachStmt _ _ _ _ _ _ => .throw

theorem realizes_exprs :
    (nodes : List AstNode) → List.Forall₂ Realizes (exprEmitters nodes) (lowerExprs nodes)
  | [] => .nil
  | node :: nodes => .cons (realizes_expr node) (realizes_exprs nodes)

theorem realizes_optional :
    (node : Option AstNode) → OptionRealizes (optionalEmitter node) (lowerOptional node)
  | none => .none
  | some node => .some (realizes_expr node)

theorem realizes_entries : (entries : List (AstNode × List AstNode)) →
    List.Forall₂ (List.Forall₂ Realizes) (entryEmitters entries) (lowerEntries entries)
  | [] => .nil
  | (key, values) :: entries =>
      .cons (.cons (realizes_expr key) (realizes_exprs values)) (realizes_entries entries)

theorem realizes_fields : (fields : List (Str × AstNode)) →
    List.Forall₂ Realizes.FieldRealizes (fieldEmitters fields) (lowerFields fields)
  | [] => .nil
  | (_, value) :: fields => .cons ⟨rfl, realizes_expr value⟩ (realizes_fields fields)

theorem realizes_targets : (outputs : List (Str × Option AstNode)) →
    List.Forall₂ Realizes.TargetRealizes (sscanfTargets outputs) (lowerTargets outputs)
  | [] => .nil
  | (name, none) :: outputs => .cons (.plain name) (realizes_targets outputs)
  | (_, some node) :: outputs => by
      cases node with
      | indexExpr target index _ _ _ mapColumn =>
          exact .cons
            (.indexed _ ((realizes_expr target).andThen ((realizes_expr index).andThen
              (.ifSome (realizes_optional mapColumn)))))
            (realizes_targets outputs)
      | _ => exact .cons (.indexed _ .throw) (realizes_targets outputs)

theorem realizes_statement :
    (n : AstNode) → Realizes (emitStatement n) (lowerStatement n)
  | .block statements true => (realizes_statements statements).block
  | .block statements false => realizes_statements statements
  | .exprStmt expr => (realizes_expr expr).andThen (.one _)
  | .returnStmt expr => .returnStmt (realizes_optional expr)
  | .varDeclStmt type name initializer =>
      .varDeclStmt type name (realizes_optional initializer)
  | .assignStmt name value => .assignStmt name (realizes_expr value)
  | .indexAssignStmt target index value compoundOp mapColumn =>
      .indexAssignStmt compoundOp _
        ((realizes_expr target).andThen
          ((Realizes.indexValue _ _ (realizes_expr index)).andThen
            (.ifSome (realizes_optional mapColumn))))
        (realizes_expr value)
  | .ifStmt condition thenBranch elseBranch =>
      .ifStmt (realizes_expr condition) (realizes_statements thenBranch)
        (realizes_else elseBranch)
  | .whileStmt condition body =>
      .whileStmt (realizes_expr condition) (realizes_statements body)
  | .doWhileStmt condition body =>
      .doWhileStmt (realizes_expr condition) (realizes_statements body)
  | .forStmt init condition update body =>
      .forStmt (realizes_init init) (realizes_optional condition)
        (realizes_update update) (realizes_statements body)
  | .foreachStmt varName declareVar varClassType valueVar collection body =>
      .foreachStmt varName declareVar varClassType valueVar (realizes_expr collection)
        (realizes_statements body)
  | .switchStmt subject body =>
      .switchStmt (realizes_expr subject) (realizes_items body)
  | .breakStmt => .breakStmt
  | .continueStmt => .continueStmt
  | .stringLiteral _ | .intLiteral _ | .floatLiteral _ | .nilLiteral | .symbolLiteralExpr _
  | .varRefExpr _ | .binaryExpr .. | .commaExpr .. | .unaryExpr .. | .ternaryExpr ..
  | .callExpr .. | .callOtherExpr .. | .sscanfExpr .. | .catchExpr _ | .closureLiteralExpr ..
  | .inlineLambdaExpr .. | .lambdaParamExpr .. | .assignExpr .. | .incDecExpr ..
  | .indexIncDecExpr .. | .arrayLiteralExpr .. | .mappingLiteralExpr _ | .memberNameMarker _
  | .typeCastExpr .. | .newClassExpr .. | .indexExpr .. | .indexAssignExpr ..
  | .anonFunctionExpr .. | .timeExpressionExpr _ | .caseLabel .. => .throw

theorem realizes_statements : (statements : List AstNode) →
    Realizes (emitStatements statements) (lowerStatements statements)
  | [] => .skip
  | statement :: statements =>
      ((realizes_statement statement).stmt false).andThen (realizes_statements statements)

theorem realizes_else : (statements : Option (List AstNode)) →
    OptionRealizes (elseEmitter statements) (lowerElse statements)
  | none => .none
  | some statements => .some (realizes_statements statements)

theorem realizes_init :
    (init : Option AstNode) → Realizes (initEmitter init) (lowerInit init)
  | none => .skip
  | some node => by
      cases node with
      | varDeclStmt type name initializer =>
          exact .varDeclStmt type name (realizes_optional initializer)
      | block statements _ => exact (realizes_statements statements).block
      | _ => exact (realizes_expr _).andThen (.one _)

theorem realizes_update :
    (update : Option AstNode) → Realizes (updateEmitter update) (lowerUpdate update)
  | none => .skip
  | some node => by
      cases node with
      | block statements _ => exact (realizes_statements statements).block
      | _ => exact (realizes_expr _).andThen (.one _)

theorem realizes_items : (nodes : List AstNode) →
    List.Forall₂ ItemRealizes (switchItems nodes) (lowerItems nodes)
  | [] => .nil
  | node :: nodes => by
      cases node with
      | caseLabel value rangeEnd =>
          exact .cons (.label (realizes_optional value) (realizes_optional rangeEnd))
            (realizes_items nodes)
      | _ => exact .cons (.statement (realizes_statement _)) (realizes_items nodes)

end

/-! ## Pieces of code -/

/-- A run of an emitter that appends code. -/
structure Appended (emitter : Gen Unit) (gen gen' : CodeGen) (code : List Instruction) : Prop where
  run : emitter gen = .ok ((), gen')
  code : gen'.code = gen.code ++ code

theorem Realizes.appended {emitter : Gen Unit} {l : Lower} {gen gen' : CodeGen}
    (realizes : Realizes emitter l) (run : emitter gen = .ok ((), gen')) :
    ∃ code, Appended emitter gen gen' code := by
  obtain ⟨_, _, emitted⟩ := realizes gen gen' run
  exact ⟨_, run, emitted.code⟩

end Kjdmud.Compiler
