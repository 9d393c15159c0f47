import Kjdmud.Compiler.Refinement.Expressions

/-!
# The statement emitters

Each statement emitter realizes its lowered counterpart when the emitters of its
parts do.
-/

namespace Kjdmud.Compiler

open Kjdmud.Vm Kjdmud.Structured Kjdmud.StateExcept

namespace Realizes

variable {m condition body : Gen Unit} {l condition' body' : Lower}

/-! ## Simple statements -/

theorem returnStmt {expr : Option (Gen Unit)} {expr' : Option Lower}
    (related : OptionRealizes expr expr') :
    Realizes (emitReturnStmt expr) (lowerReturnStmt expr') := by
  cases related with
  | none => exact .noted _ _
  | some realizes => exact realizes.andThen (.one _)

theorem varDeclStmt (type name : Str) {initializer : Option (Gen Unit)}
    {initializer' : Option Lower} (related : OptionRealizes initializer initializer') :
    Realizes (emitVarDeclStmt type name initializer)
      (lowerVarDeclStmt type name initializer') := by
  apply Realizes.naming
  intro slot
  cases related with
  | none => exact .skip
  | some realizes => exact realizes.andThen (.one _)

theorem assignStmt (name : Str) (realizes : Realizes m l) :
    Realizes (emitAssignStmt name m) (lowerAssignStmt name l) :=
  .naming fun _ => realizes.andThen (.one _)

theorem indexAssignStmt {value : Gen Unit} {value' : Lower} (compoundOp : Option BinOp)
    (flags : Int) (place : Realizes m l) (realizesValue : Realizes value value') :
    Realizes (emitIndexAssignStmt m value compoundOp flags)
      (lowerIndexAssignStmt l value' compoundOp flags) := by
  cases compoundOp with
  | some op =>
      exact place.andThen (place.andThen ((Realizes.one _).andThen
        (realizesValue.andThen ((Realizes.combine op).andThen (.one _)))))
  | none => exact place.andThen (realizesValue.andThen (.one _))

theorem ifStmt {elseBranch : Option (Gen Unit)} {elseBranch' : Option Lower}
    (realizesCondition : Realizes condition condition') (realizesThen : Realizes m l)
    (related : OptionRealizes elseBranch elseBranch') :
    Realizes (emitIfStmt condition m elseBranch)
      (lowerIfStmt condition' l elseBranch') := by
  apply realizesCondition.andThen
  cases related with
  | none => exact realizesThen.block.ifThen
  | some realizesElse => exact realizesThen.block.ifElse realizesElse.block

/-- A `break` records its jump in the innermost loop or switch. -/
theorem breakStmt : Realizes emitBreakStmt (pure .brk) := by
  intro gen gen' run
  cases stack : gen.loopStack with
  | nil =>
      simp only [emitBreakStmt, bind_eq_ok] at run
      obtain ⟨_, _, getting, run⟩ := run
      cases getting
      rw [stack] at run
      exact absurd (onNames_run run).1 throw_ne_ok
  | cons ctx loops =>
      simp only [emitBreakStmt, bind_eq_ok] at run
      obtain ⟨_, _, getting, run⟩ := run
      cases getting
      rw [stack] at run
      obtain ⟨_, gen₁, placing, recording⟩ := bind_eq_ok.1 run
      obtain ⟨rfl, placed⟩ := emitJumpPlaceholder_run placing
      cases recording
      refine ⟨.brk, by rw [← placed.names]; rfl, placed.functions, placed.code, ?_⟩
      simp [Code.holes, record_cons, recordHole, stack]

/-- A `continue` records its jump in the innermost loop that is no switch. -/
theorem continueStmt : Realizes emitContinueStmt (pure .cont) := by
  intro gen gen' run
  simp only [emitContinueStmt, bind_eq_ok] at run
  obtain ⟨_, _, position, run⟩ := run
  obtain ⟨rfl, rfl⟩ := here_run position
  obtain ⟨_, _, getting, run⟩ := run
  cases getting
  cases added : addContinueJump gen.code.length gen.loopStack with
  | none =>
      rw [added] at run
      exact absurd (onNames_run run).1 throw_ne_ok
  | some loops =>
      rw [added] at run
      obtain ⟨_, gen₁, placing, recording⟩ := bind_eq_ok.1 run
      obtain ⟨_, placed⟩ := emitJumpPlaceholder_run placing
      cases recording
      refine ⟨.cont, by rw [← placed.names]; rfl, placed.functions, placed.code, ?_⟩
      simp [Code.holes, record_cons, recordHole, added]

/-! ## Loops -/

theorem closed_skip : Closed (pure .skip) := by
  intro names c names' lowered pc
  obtain ⟨rfl, _⟩ := pure_eq_ok.1 lowered
  rfl

theorem closed_one (instr : Instruction) : Closed (Compiler.one instr) := by
  intro names c names' lowered pc
  obtain ⟨rfl, _⟩ := pure_eq_ok.1 lowered
  rfl

theorem closed_andThen {a b : Lower} (first : Closed a) (second : Closed b) :
    Closed (Compiler.andThen a b) := by
  intro names c names' lowered pc
  obtain ⟨x, _, lowerFirst, lowered⟩ := bind_eq_ok.1 lowered
  obtain ⟨y, _, lowerSecond, answer⟩ := bind_eq_ok.1 lowered
  obtain ⟨rfl, _⟩ := pure_eq_ok.1 answer
  simp [Code.holes, first _ _ _ lowerFirst, second _ _ _ lowerSecond]

theorem closed_naming {α : Type} {n : Naming α} {k : α → Lower} (rest : ∀ a, Closed (k a)) :
    Closed (n >>= k) := by
  intro names c names' lowered pc
  obtain ⟨a, _, _, lowered⟩ := bind_eq_ok.1 lowered
  exact rest a _ _ _ lowered pc

theorem whileStmt (realizesCondition : Realizes condition condition')
    (realizesBody : Realizes body body') :
    Realizes (emitWhileStmt condition body) (lowerWhileStmt condition' body') := by
  have loop := Realizes.looping true false true realizesCondition .skip closed_skip
    realizesBody.block .skip
  simpa [emitLooping, emitTest, patchTest, patchContinues, emitWhileStmt,
    lowerWhileStmt] using loop

theorem doWhileStmt (realizesCondition : Realizes condition condition')
    (realizesBody : Realizes body body') :
    Realizes (emitDoWhileStmt condition body) (lowerDoWhileStmt condition' body') := by
  have loop := Realizes.looping false true false .skip .skip closed_skip
    realizesBody.block realizesCondition
  simpa [emitLooping, emitTest, patchTest, patchContinues, emitDoWhileStmt,
    lowerDoWhileStmt] using loop

theorem forStmt {init update : Gen Unit} {init' update' : Lower}
    {condition : Option (Gen Unit)} {condition' : Option Lower}
    (realizesInit : Realizes init init') (related : OptionRealizes condition condition')
    (realizesUpdate : Realizes update update') (realizesBody : Realizes body body') :
    Realizes (emitForStmt init condition update body)
      (lowerForStmt init' condition' update' body') := by
  have loop := Realizes.looping condition'.isSome false false (Realizes.ifSome related) .skip
    closed_skip realizesBody.block realizesUpdate
  have whole := (realizesInit.andThen loop).block
  cases related with
  | none =>
      simpa [emitLooping, emitTest, patchTest, patchContinues, emitForStmt, emitBlock,
        emitIfSome, lowerForStmt, inOrder] using whole
  | some realizesCondition =>
      simpa [emitLooping, emitTest, patchTest, patchContinues, emitForStmt, emitBlock,
        emitIfSome, lowerForStmt, inOrder] using whole

/-- The assignments to the loop variables in a round of a `foreach`. -/
def emitForeachLead (varName : Str) (declareVar : Bool) (varClassType : Str)
    (valueVar : Option ForeachValueVar) (origSlot iterSlot idxSlot : Nat) :
    Gen Unit := do
  let keyVar ← foreachVariable varName declareVar varClassType
  emit ⟨.pushLocal, iterSlot, 0⟩
  emit ⟨.pushLocal, idxSlot, 0⟩
  emit ⟨.index, 0, 0⟩
  emit keyVar.store
  match valueVar with
  | some value =>
      let valVar ← foreachVariable value.name value.declare value.classType
      emit ⟨.pushLocal, origSlot, 0⟩
      emit keyVar.push
      emit ⟨.index, 0, 0⟩
      emit valVar.store
  | none => pure ()

theorem foreachLead (varName : Str) (declareVar : Bool) (varClassType : Str)
    (valueVar : Option ForeachValueVar) (origSlot iterSlot idxSlot : Nat) :
    Realizes
      (emitForeachLead varName declareVar varClassType valueVar origSlot iterSlot idxSlot)
      (lowerForeachLead varName declareVar varClassType valueVar origSlot iterSlot
        idxSlot) := by
  apply Realizes.naming
  intro keyVar
  apply (Realizes.one _).andThen ((Realizes.one _).andThen ((Realizes.one _).andThen
    ((Realizes.one _).andThen _)))
  cases valueVar with
  | none => exact .skip
  | some value =>
      exact .naming fun valVar => (Realizes.one _).andThen ((Realizes.one _).andThen
        ((Realizes.one _).andThen (.one _)))

theorem closed_foreachLead (varName : Str) (declareVar : Bool) (varClassType : Str)
    (valueVar : Option ForeachValueVar) (origSlot iterSlot idxSlot : Nat) :
    Closed (lowerForeachLead varName declareVar varClassType valueVar origSlot iterSlot
      idxSlot) := by
  apply closed_naming
  intro keyVar
  apply closed_andThen (closed_one _) (closed_andThen (closed_one _) (closed_andThen
    (closed_one _) (closed_andThen (closed_one _) _)))
  cases valueVar with
  | none => exact closed_skip
  | some value =>
      exact closed_naming fun valVar => closed_andThen (closed_one _) (closed_andThen
        (closed_one _) (closed_andThen (closed_one _) (closed_one _)))

theorem foreachStmt (varName : Str) (declareVar : Bool) (varClassType : Str)
    (valueVar : Option ForeachValueVar) {collection : Gen Unit} {collection' : Lower}
    (realizesCollection : Realizes collection collection')
    (realizesBody : Realizes body body') :
    Realizes (emitForeachStmt varName declareVar varClassType valueVar collection body)
      (lowerForeachStmt varName declareVar varClassType valueVar collection' body') := by
  have test : ∀ iterSlot idxSlot : Nat,
      Realizes
        (do
          emit ⟨.pushLocal, idxSlot, 0⟩
          emit ⟨.pushLocal, iterSlot, 0⟩
          let sizeofIdx ← internString (str "sizeof")
          emit ⟨.call, sizeofIdx, 1⟩
          emit ⟨.lt, 0, 0⟩)
        (lowerForeachTest iterSlot idxSlot) := by
    intro iterSlot idxSlot
    have call : Realizes
        (do
          let sizeofIdx ← internString (str "sizeof")
          emit ⟨.call, sizeofIdx, 1⟩)
        (do
          let sizeofIdx ← internString (str "sizeof")
          Compiler.one ⟨.call, sizeofIdx, 1⟩) := .naming fun _ => .one _
    simpa [lowerForeachTest, inOrder, bind_assoc] using
      (Realizes.one ⟨.pushLocal, idxSlot, 0⟩).andThen
        ((Realizes.one ⟨.pushLocal, iterSlot, 0⟩).andThen (call.andThen
          (.one ⟨.lt, 0, 0⟩)))
  have next : ∀ idxSlot : Nat,
      Realizes
        (do
          emit ⟨.pushLocal, idxSlot, 0⟩
          emit ⟨.pushInt, 1, 0⟩
          emit ⟨.add, 0, 0⟩
          emit ⟨.storeLocal, idxSlot, 0⟩)
        (lowerForeachNext idxSlot) := fun idxSlot =>
    (Realizes.one _).andThen ((Realizes.one _).andThen ((Realizes.one _).andThen (.one _)))
  have whole := Realizes.block
    (.naming (n := freshForeachId) fun id =>
      .naming (n := declareLocal (str "$foreach_orig_" ++ id) []) fun origSlot =>
        realizesCollection.andThen ((Realizes.one ⟨.storeLocal, origSlot, 0⟩).andThen
          (.naming (n := declareLocal (str "$foreach_iter_" ++ id) []) fun iterSlot =>
            (Realizes.one ⟨.pushLocal, origSlot, 0⟩).andThen
              ((Realizes.one ⟨.foreachKeys, 0, 0⟩).andThen
                ((Realizes.one ⟨.storeLocal, iterSlot, 0⟩).andThen
                  (.naming (n := declareLocal (str "$foreach_idx_" ++ id) [])
                    fun idxSlot =>
                      (Realizes.one ⟨.pushInt, 0, 0⟩).andThen
                        ((Realizes.one ⟨.storeLocal, idxSlot, 0⟩).andThen
                          (.looping true false false (test iterSlot idxSlot)
                            (foreachLead varName declareVar varClassType valueVar origSlot
                              iterSlot idxSlot)
                            (closed_foreachLead varName declareVar varClassType valueVar
                              origSlot iterSlot idxSlot)
                            realizesBody.block (next idxSlot)))))))))
  cases valueVar with
  | none =>
      simpa [emitLooping, emitTest, patchTest, patchContinues, emitForeachStmt, emitBlock,
        emitForeachLead, lowerForeachStmt, inOrder] using whole
  | some value =>
      simpa [emitLooping, emitTest, patchTest, patchContinues, emitForeachStmt, emitBlock,
        emitForeachLead, lowerForeachStmt, inOrder] using whole

/-! ## Switches -/

theorem switchStmt {subject : Gen Unit} {subject' : Lower} {items : List SwitchItem}
    {items' : List LowerItem} (realizesSubject : Realizes subject subject')
    (related : List.Forall₂ ItemRealizes items items') :
    Realizes (emitSwitchStmt subject items) (lowerSwitchStmt subject' items') := by
  rw [emitSwitchStmt_eq]
  exact .naming fun _ => realizesSubject.andThen ((Realizes.one _).andThen
    (.dispatched related))

end Realizes

end Kjdmud.Compiler
