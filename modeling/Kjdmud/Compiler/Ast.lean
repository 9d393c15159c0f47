import Kjdmud.Core.Double

/-!
# The syntax tree the parser hands to the code generator

`include/kjdmud/compiler/Ast.hpp`.  The source has one base class, `AstNode`,
and tells expressions and statements apart by `dynamic_cast`, so there is one
inductive type here too.  A `Block` member is the list of its statements,
because `emitBlock` reads nothing else of it; a `Block` that stands as a
statement of its own keeps its `isRealScope` flag.
-/

namespace Kjdmud.Compiler

/-- `BinOp`. -/
inductive BinOp
  | eq | neq | lt | lte | gt | gte | add | or | and | sub | mul | div | mod
  | bitAnd | bitOr | bitXor | shl | shr
deriving DecidableEq

/-- `UnaryOp`. -/
inductive UnaryOp
  | not | neg | bitNot

/-- `IncDecOp`. -/
inductive IncDecOp
  | inc | dec

/-- `Param`, with the members the code generator reads. -/
structure Param where
  type : Str
  name : Str

/-- The value variable of a `ForeachStmt` with `hasValueVar`. -/
structure ForeachValueVar where
  name : Str
  declare : Bool
  classType : Str

/-- An `AstNode` of any kind. -/
inductive AstNode
  | stringLiteral (value : Str)
  | intLiteral (value : Int64)
  | floatLiteral (value : Double)
  | nilLiteral
  | symbolLiteralExpr (name : Str)
  | varRefExpr (name : Str)
  | binaryExpr (op : BinOp) (left right : AstNode)
  | commaExpr (left right : AstNode)
  | unaryExpr (op : UnaryOp) (operand : AstNode)
  | ternaryExpr (condition thenBranch elseBranch : AstNode)
  | callExpr (callee : Str) (args : List AstNode) (argIsSpread : List Bool)
      (forceEfun parentCall : Bool) (parentQualifier : Str)
  | callOtherExpr (target function : AstNode) (args : List AstNode)
      (argIsSpread : List Bool)
  /-- `outputs` pairs `varNames[i]` with `indexedTargets[i]`; the parser fills
  the two vectors in step. -/
  | sscanfExpr (target format : AstNode) (outputs : List (Str × Option AstNode))
  | catchExpr (guarded : AstNode)
  | closureLiteralExpr (functionName : Str) (boundArgs : List AstNode)
      (forceEfun : Bool)
  | inlineLambdaExpr (bodyExprs : List AstNode) (paramCount : Nat)
      (boundValueExprs : List AstNode)
  | lambdaParamExpr (index : Nat) (isBoundValue : Bool)
  /-- `compoundOp` is `none` where the source has `isCompound = false`. -/
  | assignExpr (name : Str) (value : AstNode) (compoundOp : Option BinOp)
  /-- An `IncDecExpr` whose `indexTarget` is null. -/
  | incDecExpr (op : IncDecOp) (isPrefix : Bool) (name : Str)
  /-- An `IncDecExpr` whose `indexTarget` is set. -/
  | indexIncDecExpr (op : IncDecOp) (isPrefix : Bool)
      (indexTarget indexKey : AstNode) (mapColumn : Option AstNode)
  | arrayLiteralExpr (elements : List AstNode) (elementIsSpread : List Bool)
  | mappingLiteralExpr (entries : List (AstNode × List AstNode))
  | memberNameMarker (name : Str)
  | typeCastExpr (className : Str) (inner : AstNode)
  | newClassExpr (className : Str) (fieldInits : List (Str × AstNode))
  | indexExpr (target index : AstNode) (rangeEnd : Option AstNode)
      (indexFromEnd rangeEndFromEnd : Bool) (mapColumn : Option AstNode)
  | indexAssignExpr (target index value : AstNode) (compoundOp : Option BinOp)
      (mapColumn : Option AstNode)
  | anonFunctionExpr (params : List Param) (isVarargs : Bool)
      (body : List AstNode)
  | timeExpressionExpr (body : List AstNode)
  | exprStmt (expr : AstNode)
  | returnStmt (expr : Option AstNode)
  | varDeclStmt (type name : Str) (initializer : Option AstNode)
  | assignStmt (name : Str) (value : AstNode)
  | indexAssignStmt (target index value : AstNode) (compoundOp : Option BinOp)
      (mapColumn : Option AstNode)
  | block (statements : List AstNode) (isRealScope : Bool)
  | ifStmt (condition : AstNode) (thenBranch : List AstNode)
      (elseBranch : Option (List AstNode))
  | whileStmt (condition : AstNode) (body : List AstNode)
  | doWhileStmt (condition : AstNode) (body : List AstNode)
  | forStmt (init condition update : Option AstNode) (body : List AstNode)
  | breakStmt
  | continueStmt
  | caseLabel (value rangeEnd : Option AstNode)
  | switchStmt (subject : AstNode) (body : List AstNode)
  | foreachStmt (varName : Str) (declareVar : Bool) (varClassType : Str)
      (valueVar : Option ForeachValueVar) (collection : AstNode)
      (body : List AstNode)

/-- `FunctionDecl`; a `body` of `none` is a prototype. -/
structure FunctionDecl where
  name : Str
  params : List Param
  isVarargs : Bool
  body : Option (List AstNode)

/-- `ObjectVarDecl`. -/
structure ObjectVarDecl where
  type : Str
  name : Str
  isPrivate : Bool
  initializer : Option AstNode

/-- `ClassDeclStmt`. -/
structure ClassDeclStmt where
  name : Str
  memberNames : List Str

/-- `Program`: one parsed file. -/
structure Program where
  functions : List FunctionDecl
  objectVars : List ObjectVarDecl
  inherits : List Str
  classes : List ClassDeclStmt

end Kjdmud.Compiler
