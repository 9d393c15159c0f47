import Kjdmud.Compiler.Refinement
import Kjdmud.Vm.Mappings.Reads
import Kjdmud.Vm.Spreads

/-!
# Lists with spread elements

The arguments of a call and the elements of an array literal, some of them marked with `...`: the
code of such a list, and what arrives of it at the instruction that takes it.
-/

namespace Kjdmud.Compiler

open Kjdmud.Vm Kjdmud.StateExcept
open Kjdmud.Regions (Crosses)

/-! ## The lists and their code -/

/-- What takes the list. -/
inductive SpreadSite
  | call (callee : Str) (forceEfun parentCall : Bool) (parentQualifier : Str)
  | callOther (target function : AstNode)
  | array

namespace SpreadSite

variable (site : SpreadSite)

/-- The expression. -/
def node (elements : List AstNode) (isSpread : List Bool) : AstNode :=
  match site with
  | .call callee forceEfun parentCall parentQualifier =>
      .callExpr callee elements isSpread forceEfun parentCall parentQualifier
  | .callOther target function => .callOtherExpr target function elements isSpread
  | .array => .arrayLiteralExpr elements isSpread

/-- The expressions that are evaluated: a `call_other` has two of its own. -/
def operands (elements : List AstNode) : List AstNode :=
  match site with
  | .callOther target function => target :: function :: elements
  | _ => elements

/-- The marks of the operands.  Without any mark the tree has none. -/
def marks (elements : List AstNode) (isSpread : List Bool) : List Bool :=
  let marked := if isSpread = [] then List.replicate elements.length false else isSpread
  match site with
  | .callOther _ _ => false :: false :: marked
  | _ => marked

/-- The instruction that takes the list. -/
def consumer (calleeIdx argCount : Int) : Instruction :=
  match site with
  | .call _ forceEfun parentCall _ =>
      ⟨if parentCall then .callParent else if forceEfun then .callEfun else .call, calleeIdx,
        argCount⟩
  | .callOther _ _ => ⟨.callEfun, calleeIdx, argCount⟩
  | .array => ⟨.makeArray, 0, argCount⟩

/-- The data instruction of a call of an inherited function. -/
def data (qualifierIdx : Int) : List Instruction :=
  match site with
  | .call _ _ true _ => [⟨.callParentQualifierSlot, qualifierIdx, 0⟩]
  | _ => []

end SpreadSite

/-- The pieces of the code of a list. -/
structure SpreadCode where
  pieces : List (List Instruction)
  calleeIdx : Int
  qualifierIdx : Int

/-- Code for each expression, from its emitter at its place. -/
inductive Pieces : List AstNode → List Instruction → List (List Instruction) → Prop
  | nil {front : List Instruction} : Pieces [] front []
  | cons {node : AstNode} {nodes : List AstNode} {front piece : List Instruction}
      {pieces : List (List Instruction)} {g g' : CodeGen} (placed : g.code = front)
      (emitted : Appended (emitExpr node) g g' piece)
      (rest : Pieces nodes (front ++ piece) pieces) :
      Pieces (node :: nodes) front (piece :: pieces)

/-- The code of a list is the code of its operands, the expansions and the consumer. -/
structure SpreadEmission (site : SpreadSite) (elements : List AstNode) (isSpread : List Bool)
    (gen gen' : CodeGen) (c : SpreadCode) : Prop where
  code : gen'.code = gen.code ++ (c.pieces.flatten ++ (expansions (site.marks elements isSpread) ++
    (site.consumer c.calleeIdx (int32 (site.operands elements).length) ::
      site.data c.qualifierIdx)))
  pieces : Pieces (site.operands elements) gen.code c.pieces

theorem Pieces.length_eq {nodes : List AstNode} {front : List Instruction}
    {pieces : List (List Instruction)} (emitted : Pieces nodes front pieces) :
    pieces.length = nodes.length := by
  induction emitted with
  | nil => rfl
  | cons _ _ _ ih => exact congrArg Nat.succ ih

theorem all_pieces {nodes : List AstNode} {gen gen' : CodeGen}
    (run : emitAll (exprEmitters nodes) gen = .ok ((), gen')) :
    ∃ pieces, Pieces nodes gen.code pieces ∧ gen'.code = gen.code ++ pieces.flatten := by
  induction nodes generalizing gen with
  | nil =>
      cases run
      exact ⟨[], .nil, by simp⟩
  | cons node nodes ih =>
      obtain ⟨_, gen₁, first, rest⟩ := bind_eq_ok.1 run
      obtain ⟨piece, emitted⟩ := (realizes_expr node).appended first
      obtain ⟨pieces, others, code⟩ := ih rest
      rw [emitted.code] at others code
      exact ⟨piece :: pieces, .cons rfl emitted others, by simp [code]⟩

theorem spreadExpansions_run {isSpread : List Bool} {gen gen' : CodeGen}
    (run : emitSpreadExpansions isSpread gen = .ok ((), gen')) :
    gen'.code = gen.code ++ expansions isSpread := by
  induction isSpread generalizing gen with
  | nil =>
      cases run
      simp [expansions]
  | cons marked isSpread ih =>
      cases marked with
      | true =>
          obtain ⟨_, gen₁, first, rest⟩ := bind_eq_ok.1 run
          rw [ih rest, (emit_run first).code]
          simp [expansions]
      | false => exact ih run

theorem length_exprEmitters (nodes : List AstNode) :
    (exprEmitters nodes).length = nodes.length := by
  induction nodes with
  | nil => rfl
  | cons node nodes ih => exact congrArg Nat.succ ih

/-- Without marks nothing is expanded. -/
theorem expansions_unmarked (n : Nat) : expansions (List.replicate n false) = [] := by
  induction n with
  | zero => rfl
  | succ n ih => exact ih

theorem expansions_marks (site : SpreadSite) (elements : List AstNode) (isSpread : List Bool) :
    expansions (site.marks elements isSpread) = expansions isSpread := by
  have marked : expansions (if isSpread = [] then List.replicate elements.length false
      else isSpread) = expansions isSpread := by
    by_cases none : isSpread = []
    · rw [if_pos none, expansions_unmarked, none]
      rfl
    · rw [if_neg none]
  cases site with
  | callOther => exact marked
  | call => exact marked
  | array => exact marked

section

variable {elements : List AstNode} {isSpread : List Bool} {gen gen' : CodeGen}

theorem call_emission {callee parentQualifier : Str} {forceEfun isParent : Bool}
    (run : emitExpr ((SpreadSite.call callee forceEfun isParent parentQualifier).node elements
      isSpread) gen = .ok ((), gen')) :
    ∃ c, SpreadEmission (.call callee forceEfun isParent parentQualifier) elements isSpread
      gen gen' c := by
  obtain ⟨_, g₁, evaluated, run⟩ := bind_eq_ok.1 run
  obtain ⟨_, g₂, expanded, run⟩ := bind_eq_ok.1 run
  obtain ⟨calleeIdx, g₃, interned, run⟩ := bind_eq_ok.1 run
  obtain ⟨pieces, emitted, code⟩ := all_pieces evaluated
  have expanded := spreadExpansions_run expanded
  obtain ⟨-, -, kept, -⟩ := onNames_run interned
  rw [length_exprEmitters] at run
  cases isParent with
  | false =>
      have consumed := (emit_run run).code
      refine ⟨⟨pieces, calleeIdx, 0⟩, ?_, emitted⟩
      rw [consumed, kept, expanded, code, expansions_marks]
      simp [SpreadSite.consumer, SpreadSite.data, SpreadSite.operands]
  | true =>
      have slots {qualifierIdx : Int} {g₄ : CodeGen} (same : g₄.code = g₃.code)
          (run : (do
            emit ⟨.callParent, calleeIdx, int32 elements.length⟩
            emit ⟨.callParentQualifierSlot, qualifierIdx, 0⟩ : Gen Unit) g₄ = .ok ((), gen')) :
          ∃ c, SpreadEmission (.call callee forceEfun true parentQualifier) elements isSpread
            gen gen' c := by
        obtain ⟨_, g₅, consumed, slot⟩ := bind_eq_ok.1 run
        refine ⟨⟨pieces, calleeIdx, qualifierIdx⟩, ?_, emitted⟩
        rw [(emit_run slot).code, (emit_run consumed).code, same, kept, expanded, code,
          expansions_marks]
        simp [SpreadSite.consumer, SpreadSite.data, SpreadSite.operands]
      rw [if_pos rfl] at run
      by_cases empty : parentQualifier.isEmpty = true
      · rw [if_pos empty] at run
        exact slots rfl run
      · rw [if_neg empty] at run
        obtain ⟨_, g₄, qualified, run⟩ := bind_eq_ok.1 run
        exact slots (onNames_run qualified).2.2.1 run

theorem callOther_emission {target function : AstNode}
    (run : emitExpr ((SpreadSite.callOther target function).node elements isSpread) gen =
      .ok ((), gen')) :
    ∃ c, SpreadEmission (.callOther target function) elements isSpread gen gen' c := by
  obtain ⟨_, g₁, targeted, run⟩ := bind_eq_ok.1 run
  obtain ⟨_, g₂, named, run⟩ := bind_eq_ok.1 run
  obtain ⟨_, g₃, evaluated, run⟩ := bind_eq_ok.1 run
  obtain ⟨_, g₄, expanded, run⟩ := bind_eq_ok.1 run
  obtain ⟨calleeIdx, g₅, interned, run⟩ := bind_eq_ok.1 run
  have operands : emitAll (exprEmitters (target :: function :: elements)) gen = .ok ((), g₃) :=
    bind_eq_ok.2 ⟨_, g₁, targeted, bind_eq_ok.2 ⟨_, g₂, named, evaluated⟩⟩
  obtain ⟨pieces, emitted, code⟩ := all_pieces operands
  have expanded := spreadExpansions_run expanded
  obtain ⟨-, -, kept, -⟩ := onNames_run interned
  rw [length_exprEmitters] at run
  have count : (2 + elements.length : Int) = (target :: function :: elements).length := by
    simp only [List.length_cons]
    omega
  rw [count] at run
  refine ⟨⟨pieces, calleeIdx, 0⟩, ?_, emitted⟩
  rw [(emit_run run).code, kept, expanded, code, expansions_marks]
  simp [SpreadSite.consumer, SpreadSite.data, SpreadSite.operands]

theorem array_emission
    (run : emitExpr (SpreadSite.array.node elements isSpread) gen = .ok ((), gen')) :
    ∃ c, SpreadEmission .array elements isSpread gen gen' c := by
  obtain ⟨_, g₁, evaluated, run⟩ := bind_eq_ok.1 run
  obtain ⟨_, g₂, expanded, run⟩ := bind_eq_ok.1 run
  obtain ⟨pieces, emitted, code⟩ := all_pieces evaluated
  have expanded := spreadExpansions_run expanded
  refine ⟨⟨pieces, 0, 0⟩, ?_, emitted⟩
  rw [(emit_run run).code, expanded, code, expansions_marks]
  simp [SpreadSite.consumer, SpreadSite.data, SpreadSite.operands]

end

/-- Whatever is emitted has the pieces. -/
theorem exists_spreadEmission {site : SpreadSite} {elements : List AstNode}
    {isSpread : List Bool} {gen gen' : CodeGen}
    (run : emitExpr (site.node elements isSpread) gen = .ok ((), gen')) :
    ∃ c, SpreadEmission site elements isSpread gen gen' c := by
  cases site with
  | call => exact call_emission run
  | callOther => exact callOther_emission run
  | array => exact array_emission run

/-! ## What arrives -/

namespace SpreadSite

/-- What the instruction does with the arguments it has taken. -/
def receives (site : SpreadSite) (m : Machine) (args : List Value) : Handler := fun s =>
  match site with
  | .call callee forceEfun parentCall parentQualifier =>
      if parentCall then
        pushOutcome 2 (callParentByName m.run m.act callee
          (if parentQualifier.isEmpty then none else some parentQualifier) args s.world) s
      else if forceEfun then pushOutcome 1 (m.env.efunCall m.run callee args s.world) s
      else pushOutcome 1 (callByName m.env m.run m.act.obj callee args s.world) s
  | .callOther _ _ => pushOutcome 1 (m.env.efunCall m.run (str "call_other") args s.world) s
  | .array =>
      let (w, data) := s.world.newArray args
      pushNext ⟨data, false, false⟩ { s with world := w }

/-- The pool entries and the data instruction name what the tree names. -/
def Linked (site : SpreadSite) (m : Machine) (c : SpreadCode) (q : Nat) : Prop :=
  match site with
  | .call callee _ parentCall parentQualifier =>
      poolEntry m.act.program.stringPool c.calleeIdx = some callee ∧
        (parentCall = true → Vm.parentQualifier m.act q =
          .ok (if parentQualifier.isEmpty then none else some parentQualifier))
  | .callOther _ _ => poolEntry m.act.program.stringPool c.calleeIdx = some (str "call_other")
  | .array => True

variable {site : SpreadSite} {m : Machine} {c : SpreadCode} {q : Nat} {argCount : Int} {s : State}

/-- The consumer takes as many arguments as it counts, or refuses. -/
theorem execute_consumer (linked : site.Linked m c q) : ∃ message,
    execute m.env m.run m.act q (site.consumer c.calleeIdx argCount) s =
      match takeArguments (argumentCount (site.consumer c.calleeIdx argCount) s) s.localStack with
      | none => some (.raise (.internal .argCount message) { s with pendingVarargsDelta := 0 })
      | some (args, stack) => site.receives m args ⟨s.locals, stack, 0, s.world⟩ := by
  cases site with
  | call callee forceEfun isParent parentQualifier =>
      obtain ⟨named, qualified⟩ := linked
      cases isParent with
      | true =>
          refine ⟨str "CallParent: bad arg count for " ++ callee, ?_⟩
          change callParent m.run m.act q ⟨.callParent, c.calleeIdx, argCount⟩ s = _
          unfold callParent withPool
          simp only [named, qualified rfl]
          rfl
      | false =>
          cases forceEfun with
          | true =>
              refine ⟨str "CallEfun: bad arg count for " ++ callee, ?_⟩
              change callEfun m.env m.run m.act ⟨.callEfun, c.calleeIdx, argCount⟩ s = _
              unfold callEfun withPool
              simp only [named]
              rfl
          | false =>
              refine ⟨str "Call: bad arg count for " ++ callee, ?_⟩
              change Vm.call m.env m.run m.act ⟨.call, c.calleeIdx, argCount⟩ s = _
              unfold Vm.call withPool
              simp only [named]
              rfl
  | callOther target function =>
      have named : poolEntry m.act.program.stringPool c.calleeIdx = some (str "call_other") :=
        linked
      refine ⟨str "CallEfun: bad arg count for " ++ str "call_other", ?_⟩
      change callEfun m.env m.run m.act ⟨.callEfun, c.calleeIdx, argCount⟩ s = _
      unfold callEfun withPool
      simp only [named]
      rfl
  | array => exact ⟨str "MakeArray: bad arg count", rfl⟩

theorem argCount_consumer (site : SpreadSite) (calleeIdx argCount : Int) :
    (site.consumer calleeIdx argCount).argCount = argCount := by
  cases site <;> rfl

end SpreadSite

/-- The operands are evaluated in order, each on top of those before it. -/
inductive EvaluatesAll (m : Machine) :
    List (List Instruction) → Nat → Memory → List Value → List Value → Memory → Prop
  | nil {p : Nat} {μ : Memory} {stack : List Value} : EvaluatesAll m [] p μ stack [] μ
  | cons {piece : List Instruction} {pieces : List (List Instruction)} {p : Nat} {μ μ₁ μ' : Memory}
      {stack values : List Value} {v : Value}
      (evaluates : m.Passes piece p (μ.state stack) (μ₁.state (v :: stack)))
      (rest : EvaluatesAll m pieces (p + piece.length) μ₁ (v :: stack) values μ') :
      EvaluatesAll m (piece :: pieces) p μ stack (v :: values) μ'

namespace EvaluatesAll

variable {m : Machine} {pieces : List (List Instruction)} {p : Nat} {μ μ' : Memory}
  {stack values : List Value}

theorem length_eq (evaluates : EvaluatesAll m pieces p μ stack values μ') :
    values.length = pieces.length := by
  induction evaluates with
  | nil => rfl
  | cons _ _ ih => exact congrArg Nat.succ ih

/-- The values lie on the stack, the last on top. -/
theorem passes (evaluates : EvaluatesAll m pieces p μ stack values μ') :
    m.Passes pieces.flatten p (μ.state stack) (μ'.state (values.reverse ++ stack)) := by
  induction evaluates with
  | nil => exact Machine.passes_nil
  | cons first _ ih =>
      rw [List.reverse_cons, List.append_assoc]
      exact first.append ih

end EvaluatesAll

/-- The list arrives: the consumer takes what the elements add to it and nothing else, leaves the
stack as it was below, and clears the pending count. -/
structure Arrives (site : SpreadSite) (m : Machine) (instr : Instruction) (q : Nat) (s : State)
    (args below : List Value) : Prop where
  takes : takeArguments (argumentCount instr s) s.localStack = some (args, below)
  executes : execute m.env m.run m.act q instr s =
    site.receives m args ⟨s.locals, below, 0, s.world⟩

theorem Arrives.of_takes {site : SpreadSite} {m : Machine} {c : SpreadCode} {q : Nat}
    {argCount : Int} {s : State} {args below : List Value} (linked : site.Linked m c q)
    (takes : takeArguments (argumentCount (site.consumer c.calleeIdx argCount) s) s.localStack =
      some (args, below)) :
    Arrives site m (site.consumer c.calleeIdx argCount) q s args below := by
  obtain ⟨message, executes⟩ := SpreadSite.execute_consumer linked
  refine ⟨takes, ?_⟩
  rw [executes, takes]

/-- The code of a list is executed up to the consumer, and the list arrives there. -/
def Delivers (site : SpreadSite) (m : Machine) (c : SpreadCode) (p : Nat) (marks : List Bool)
    (s : State) (args below : List Value) : Prop :=
  ∃ s', m.Passes (c.pieces.flatten ++ expansions marks) p s s' ∧
    Arrives site m (site.consumer c.calleeIdx (int32 marks.length))
      (p + (c.pieces.flatten ++ expansions marks).length) s' args below

theorem delivers_iff {site : SpreadSite} {m : Machine} {c : SpreadCode} {p : Nat}
    {marks : List Bool} {μ μ' : Memory} {values below : List Value}
    (placed : m.Placed (c.pieces.flatten ++ expansions marks) p)
    (linked : site.Linked m c (p + (c.pieces.flatten ++ expansions marks).length))
    (small : marks.length ≤ 2 ^ 31) (same : values.length = marks.length)
    (evaluates : EvaluatesAll m c.pieces p μ below values μ')
    (arrays : ∀ element ∈ values.zip marks, element.2 = true → element.1.IsArray) :
    Delivers site m c p marks (μ.state below) (μ'.world.spread (values.zip marks)) below ↔
      (μ'.world.spread (values.zip marks)).length < 2 ^ 31 ∧
        (2 ^ 32 : Int) ∣ μ'.pendingVarargsDelta := by
  have firsts : (values.zip marks).map Prod.fst = values := List.map_fst_zip same.le
  have seconds : (values.zip marks).map Prod.snd = marks := List.map_snd_zip same.ge
  have length : (values.zip marks).length = marks.length := by
    rw [List.length_zip, same, Nat.min_self]
  have expands := passes_expansions (μ := μ') (values.zip marks) below
    (seconds ▸ placed.right) (length.trans_le small) arrays
  rw [firsts, seconds, length] at expands
  have run := evaluates.passes.append expands
  have count {s : State} (delta : s.pendingVarargsDelta = μ'.pendingVarargsDelta +
      (((μ'.world.spread (values.zip marks)).length : Int) - marks.length)) :
      argumentCount (site.consumer c.calleeIdx (int32 marks.length)) s =
        int32 (μ'.pendingVarargsDelta + (μ'.world.spread (values.zip marks)).length) := by
    rw [argumentCount, site.argCount_consumer, int32_add_int32, delta]
    congr 1
    omega
  constructor
  · rintro ⟨s', passes, arrives⟩
    cases Crosses.unique (passes []) (run [])
    have takes := arrives.takes
    rw [count rfl] at takes
    exact int32_eq_natCast.mp ((takeArguments_iff below).mp takes)
  · intro calm
    have takes := (takeArguments_iff below).mpr (int32_eq_natCast.mpr calm)
    have counted := count (s := (μ'.withDelta (μ'.pendingVarargsDelta +
      (((μ'.world.spread (values.zip marks)).length : Int) - marks.length))).state
        ((μ'.world.spread (values.zip marks)).reverse ++ below)) rfl
    rw [← counted] at takes
    exact ⟨_, run, .of_takes linked takes⟩

theorem SpreadSite.length_marks {site : SpreadSite} {elements : List AstNode}
    {isSpread : List Bool} (marked : isSpread = [] ∨ isSpread.length = elements.length) :
    (site.marks elements isSpread).length = (site.operands elements).length := by
  have inner : (if isSpread = [] then List.replicate elements.length false
      else isSpread).length = elements.length := by
    by_cases none : isSpread = []
    · rw [if_pos none, List.length_replicate]
    · rw [if_neg none]
      exact marked.resolve_left none
  cases site with
  | callOther => exact congrArg (· + 2) inner
  | call => exact inner
  | array => exact inner

/-- Every list has code of this form.  It arrives, in order and with nothing else, exactly when no
count is pending after its operands are evaluated, and the machine can count what arrives. -/
theorem spreadArguments_iff {site : SpreadSite} {elements : List AstNode} {isSpread : List Bool}
    {gen gen' : CodeGen} (marked : isSpread = [] ∨ isSpread.length = elements.length)
    (small : (site.operands elements).length ≤ 2 ^ 31)
    (run : emitExpr (site.node elements isSpread) gen = .ok ((), gen')) :
    (∃ c, SpreadEmission site elements isSpread gen gen' c) ∧
    ∀ c, SpreadEmission site elements isSpread gen gen' c →
      ∀ (m : Machine) (μ μ' : Memory) (values below : List Value),
        let marks := site.marks elements isSpread
        m.Placed (c.pieces.flatten ++ expansions marks) gen.code.length →
        site.Linked m c (gen.code.length + (c.pieces.flatten ++ expansions marks).length) →
        EvaluatesAll m c.pieces gen.code.length μ below values μ' →
        (∀ element ∈ values.zip marks, element.2 = true → element.1.IsArray) →
        (Delivers site m c gen.code.length marks (μ.state below)
            (μ'.world.spread (values.zip marks)) below ↔
          (μ'.world.spread (values.zip marks)).length < 2 ^ 31 ∧
            (2 ^ 32 : Int) ∣ μ'.pendingVarargsDelta) := by
  refine ⟨exists_spreadEmission run, ?_⟩
  intro c emission m μ μ' values below marks placed linked evaluates arrays
  have length : marks.length = (site.operands elements).length := SpreadSite.length_marks marked
  have same : values.length = marks.length := by
    rw [evaluates.length_eq, emission.pieces.length_eq, length]
  exact delivers_iff placed linked (length.trans_le small) same evaluates arrays

/-! ## Samples -/

/-- A code generator inside a function with the local `a`. -/
def listGen : CodeGen :=
  { initialState ⟨[], [], [], []⟩ [] with locals := [(str "a", 0)], nextLocalSlot := 1 }

/-- The code of the elements of `({ 1, a... })`. -/
def listCode : SpreadCode :=
  ⟨[[⟨.pushInt, 1, 0⟩], [⟨.pushLocal, 0, 0⟩]], 0, 0⟩

/-- The code of `({ 1, a... })`. -/
def listProgram : List Instruction :=
  listCode.pieces.flatten ++ (expansions [false, true] ++ [⟨.makeArray, 0, int32 2⟩])

/-- The array in `a`. -/
def listArray : Value :=
  ⟨.array (some 0), false, false⟩

/-- The memory when `a` is `({ 2, 3 })`. -/
def listMemory : Memory :=
  ⟨[listArray], 0, { freshDriver with arrays := [[Value.int 2, Value.int 3]] }⟩

theorem list_run :
    emitExpr (SpreadSite.array.node [.intLiteral 1, .varRefExpr (str "a")] [false, true]) listGen =
      .ok ((), { listGen with code := listProgram }) := rfl

theorem list_emission :
    SpreadEmission .array [.intLiteral 1, .varRefExpr (str "a")] [false, true] listGen
      { listGen with code := listProgram } listCode :=
  ⟨rfl, .cons (g := listGen) rfl ⟨rfl, rfl⟩
    (.cons (g := { listGen with code := [⟨.pushInt, 1, 0⟩] }) rfl ⟨rfl, rfl⟩ .nil)⟩

/-- `({ 1, a... })` is `({ 1, 2, 3 })`. -/
theorem list_arrives : Delivers .array (bareMachine listProgram []) listCode 0 [false, true]
    (listMemory.state []) [Value.int 1, Value.int 2, Value.int 3] [] := by
  have first : (bareMachine listProgram []).Passes [⟨.pushInt, 1, 0⟩] 0 (listMemory.state [])
      (listMemory.state [Value.int 1]) :=
    Machine.passes_plain ⟨_, rfl⟩ (by decide) rfl
  have second : (bareMachine listProgram []).Passes [⟨.pushLocal, 0, 0⟩] 1
      (listMemory.state [Value.int 1]) (listMemory.state [listArray, Value.int 1]) :=
    Machine.passes_plain ⟨_, rfl⟩ (by decide) rfl
  refine ((spreadArguments_iff (.inr rfl) (by decide) list_run).2 listCode list_emission
    (bareMachine listProgram []) listMemory listMemory [Value.int 1, listArray] []
    ⟨_, rfl⟩ trivial (.cons first (.cons second .nil)) ?_).mpr ⟨by decide, by decide⟩
  intro element mem marked
  change element ∈ [(Value.int 1, false), (listArray, true)] at mem
  rcases List.mem_pair.mp mem with rfl | rfl
  · contradiction
  · exact ⟨_, rfl⟩

/-- The code of `(catch(f(({ 1, 2 })..., 0...)), ({ 7 }))`. -/
def caughtProgram : List Instruction :=
  [⟨.pushCatchFrame, 10, 0⟩, ⟨.pushInt, 1, 0⟩, ⟨.pushInt, 2, 0⟩, ⟨.makeArray, 0, 2⟩,
    ⟨.pushInt, 0, 0⟩, ⟨.expandVarargs, 1, 0⟩, ⟨.expandVarargs, 0, 0⟩, ⟨.call, 0, 2⟩, ⟨.pop, 0, 0⟩,
    ⟨.popCatchFrame, 0, 0⟩, ⟨.pop, 0, 0⟩, ⟨.pushInt, 7, 0⟩, ⟨.makeArray, 0, 1⟩]

/-- The memory of a function without locals. -/
def caughtMemory (pendingVarargsDelta : Int) (arrays : List (List Value)) : Memory :=
  ⟨[], pendingVarargsDelta, { freshDriver with arrays := arrays }⟩

/-- The first expansion of the caught call is counted in the list after it, which does not
arrive. -/
theorem caught_expansion_is_counted :
    (∃ gen', emitExpr (.commaExpr
        (.catchExpr (.callExpr (str "f")
          [.arrayLiteralExpr [.intLiteral 1, .intLiteral 2] [], .intLiteral 0] [true, true]
          false false []))
        (SpreadSite.array.node [.intLiteral 7] [])) listGen = .ok ((), gen') ∧
      gen'.code = caughtProgram ∧ gen'.stringPool = [str "f"]) ∧
    Crosses (bareMachine caughtProgram [str "f"]).advance (Machine.Within 0 11)
      ⟨0, [], (caughtMemory 0 []).state []⟩
      ⟨11, [], (caughtMemory 1 [[Value.int 1, Value.int 2]]).state []⟩ ∧
    ¬ Delivers .array (bareMachine caughtProgram [str "f"]) ⟨[[⟨.pushInt, 7, 0⟩]], 0, 0⟩ 11 [false]
      ((caughtMemory 1 [[Value.int 1, Value.int 2]]).state []) [Value.int 7] [] := by
  refine ⟨⟨_, rfl, by decide, by decide⟩, ?_, ?_⟩
  · iterate 8 refine .step ⟨by decide, by decide⟩ rfl ?_
    exact .leave fun within => absurd within.2 (by decide)
  · have pushes : (bareMachine caughtProgram [str "f"]).Passes [⟨.pushInt, 7, 0⟩] 11
        ((caughtMemory 1 [[Value.int 1, Value.int 2]]).state [])
        ((caughtMemory 1 [[Value.int 1, Value.int 2]]).state [Value.int 7]) :=
      Machine.passes_plain ⟨_, rfl⟩ (by decide) rfl
    have linked : SpreadSite.array.Linked (bareMachine caughtProgram [str "f"])
        ⟨[[⟨.pushInt, 7, 0⟩]], 0, 0⟩ 12 := trivial
    have small : [false].length ≤ 2 ^ 31 := by decide
    have unmarked : ∀ element ∈ [Value.int 7].zip [false], element.2 = true →
        element.1.IsArray := by
      intro element mem marked
      cases List.mem_singleton.mp mem
      contradiction
    intro delivers
    have calm := (delivers_iff ⟨_, rfl⟩ linked small rfl (.cons pushes .nil) unmarked).mp delivers
    exact absurd calm.2 (by decide)

end Kjdmud.Compiler
